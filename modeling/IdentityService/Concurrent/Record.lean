import IdentityService.Concurrent.Flow

/-!
# One process's own record

Of a recorded run, the effects of one process and their answers. They
take its program from where it began to where it stands, whatever the other
processes are, so two runs of one program can only part where the outside
gives the process itself another answer.
-/

namespace Concurrent

variable {S : Sig} {ε σ α β : Type}

/-- An effect and its answer. -/
structure Answer (S : Sig) (ε : Type) where
  op : S.Op
  resp : Except ε (S.Resp op)

/-- The part of a record that process `i` made. -/
def own (trace : List (Event S ε)) (i : Nat) : List (Answer S ε) :=
  trace.filterMap fun e => if e.pid = i then some ⟨e.op, e.resp⟩ else none

@[simp] theorem own_nil (i : Nat) : own ([] : List (Event S ε)) i = [] := rfl

theorem own_append (before after : List (Event S ε)) (i : Nat) :
    own (before ++ after) i = own before i ++ own after i := by
  simp [own]

theorem own_cons_self (e : Event S ε) (rest : List (Event S ε)) :
    own (e :: rest) e.pid = ⟨e.op, e.resp⟩ :: own rest e.pid := by
  simp [own]

theorem own_cons_ne {e : Event S ε} {i : Nat} (h : e.pid ≠ i) (rest : List (Event S ε)) :
    own (e :: rest) i = own rest i := by
  simp [own, h]

namespace Prog

/-- The program `p` asks for the effects of the record, one after the other,
and stands at `q` after the last answer. -/
inductive Leaves : Prog S ε α → List (Answer S ε) → Prog S ε α → Prop
  | none (p : Prog S ε α) : Leaves p [] p
  | some {e : S.Op} {k : Except ε (S.Resp e) → Prog S ε α} {r : Except ε (S.Resp e)}
      {rest : List (Answer S ε)} {q : Prog S ε α} (h : Leaves (k r) rest q) :
      Leaves (.op e k) (⟨e, r⟩ :: rest) q

theorem Leaves.snoc {p : Prog S ε α} {record : List (Answer S ε)} {e : S.Op}
    {k : Except ε (S.Resp e) → Prog S ε α} (h : Leaves p record (.op e k))
    (r : Except ε (S.Resp e)) : Leaves p (record ++ [⟨e, r⟩]) (k r) := by
  generalize hq : Prog.op e k = q at h
  induction h with
  | none p =>
    subst hq
    exact .some (.none _)
  | some _ ih => exact .some (ih hq)

theorem Leaves.eq_of_nil {p q : Prog S ε α} (h : Leaves p [] q) : q = p := by
  cases h
  rfl

/-- What a record begins with, and what it ends with. -/
theorem Leaves.split {p q : Prog S ε α} {before after : List (Answer S ε)}
    (h : Leaves p (before ++ after) q) : ∃ q', Leaves p before q' ∧ Leaves q' after q := by
  induction before generalizing p with
  | nil => exact ⟨p, .none p, h⟩
  | cons a before ih =>
    cases h with
    | some h =>
      obtain ⟨q', hbefore, hafter⟩ := ih h
      exact ⟨q', .some hbefore, hafter⟩

/-- Two records of one process: the same as far as they go, or the same up
to an effect that was answered differently. -/
inductive Agree : List (Answer S ε) → List (Answer S ε) → Prop
  | left (record : List (Answer S ε)) : Agree [] record
  | right (record : List (Answer S ε)) : Agree record []
  | parts {e : S.Op} {r r' : Except ε (S.Resp e)} (h : r ≠ r')
      (rest rest' : List (Answer S ε)) : Agree (⟨e, r⟩ :: rest) (⟨e, r'⟩ :: rest')
  | same (a : Answer S ε) {rest rest' : List (Answer S ε)} (h : Agree rest rest') :
      Agree (a :: rest) (a :: rest')

/-- **A program's effects depend on its own answers only.** -/
theorem Leaves.agree {p q q' : Prog S ε α} {record record' : List (Answer S ε)}
    (h : Leaves p record q) (h' : Leaves p record' q') : Agree record record' := by
  induction h generalizing record' with
  | none p => exact .left record'
  | some h ih =>
    rename_i e k r rest q
    cases h' with
    | none => exact .right _
    | some h' =>
      rename_i rest' r'
      by_cases hr : r = r'
      · subst hr
        exact .same _ (ih h')
      · exact .parts hr rest rest'

end Prog

namespace Machine

variable {M : Machine S ε σ} {C C' : Config S ε (Traced S ε σ) α}

/-- **Along every recorded run** a process stands where its own record has
brought it, or has died there. -/
theorem own_leaves {con : Traced S ε σ → Traced S ε σ → Prop} {i : Nat} {p : Prog S ε α}
    (hp : C.pool i = some p) (hnil : C.shared.trace = []) (h : M.traced.Reach con C C') :
    ∃ q, p.Leaves (own C'.shared.trace i) q ∧ (C'.pool i = some q ∨ C'.pool i = none) := by
  induction h with
  | refl => exact ⟨p, by rw [hnil]; exact .none p, .inl hp⟩
  | tail _ hs ih =>
    obtain ⟨q, hleaves, hpool⟩ := ih
    obtain ⟨l, hl, -⟩ := hs
    rcases traced_step_cases hl with ⟨j, c, e, k, r, t, -, hj, -, rfl⟩ | ⟨v, t, -, -, rfl⟩ |
      ⟨j, e, k, -, -, rfl⟩
    · by_cases hij : j = i
      · subst hij
        have hq : q = .op e k := by
          rcases hpool with hpool | hpool
          · exact Option.some.inj (hpool.symm.trans hj)
          · rw [hpool] at hj
            cases hj
        subst hq
        refine ⟨k r, ?_, .inl (by simp)⟩
        rw [own_append, own_cons_self ⟨j, e, r⟩, own_nil]
        exact hleaves.snoc r
      · refine ⟨q, ?_, ?_⟩
        · rw [own_append, own_cons_ne (e := ⟨j, e, r⟩) hij, own_nil, List.append_nil]
          exact hleaves
        · simpa [Function.update_of_ne (Ne.symm hij)] using hpool
    · exact ⟨q, hleaves, hpool⟩
    · by_cases hij : i = j
      · exact ⟨q, hleaves, .inr (by simp [hij])⟩
      · exact ⟨q, hleaves, by simpa [Function.update_of_ne hij] using hpool⟩

end Machine

namespace Flow

variable {F : Flow S ε}

/-- The local state after a record. -/
def along (F : Flow S ε) (l : F.State) (record : List (Answer S ε)) : F.State :=
  record.foldl (fun l a => F.next l a.op a.resp) l

theorem along_snoc (l : F.State) (record : List (Answer S ε)) (a : Answer S ε) :
    F.along l (record ++ [a]) = F.next (F.along l record) a.op a.resp := by
  simp [along]

theorem Follows.leaves {p q : Prog S ε α} {l : F.State} {Q : Except ε α → F.State → Prop}
    {record : List (Answer S ε)} (h : F.Follows p l Q) (hr : p.Leaves record q) :
    F.Follows q (F.along l record) Q := by
  induction hr generalizing l with
  | none p => exact h
  | some _ ih => exact ih (h.2 _)

/-- Every effect of a record was permitted when it was asked for. -/
theorem Follows.permitted {p q : Prog S ε α} {l : F.State} {Q : Except ε α → F.State → Prop}
    {before after : List (Answer S ε)} {a : Answer S ε} (h : F.Follows p l Q)
    (hr : p.Leaves (before ++ a :: after) q) : F.permits (F.along l before) a.op := by
  obtain ⟨q', hbefore, hafter⟩ := hr.split
  have hq := h.leaves hbefore
  cases hafter with
  | some _ => exact hq.1

end Flow

end Concurrent
