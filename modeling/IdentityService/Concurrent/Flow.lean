import IdentityService.Concurrent.Prog
import Mathlib.Data.List.Nodup

/-!
# The order of a program's own effects

"This call comes before that write, and with the same arguments" is a
property of a program alone: it holds whatever answers the program gets and
whatever the others do. A `Flow` says which effects are in order after which
answers, `Follows` is the outline of a program that keeps to it, and
`Flow.follows_reach` carries the outlines of a pool along every recorded run.

`Tokens` are values a process draws and later spends. If the outside never
hands out the same one twice, nobody spends one twice.

A `Projection` forgets part of a machine's state; runs project to runs.
-/

namespace Concurrent

variable {S : Sig} {ε σ τ α β : Type}

/-- A local state, how each answer changes it, and the effects it permits. -/
structure Flow (S : Sig) (ε : Type) where
  State : Type
  start : State
  permits : State → S.Op → Prop
  next : State → (e : S.Op) → Except ε (S.Resp e) → State

namespace Flow

variable (F : Flow S ε)

/-- Every effect the program asks for is permitted, whatever the answers,
and it ends in `Q`. -/
def Follows : Prog S ε α → F.State → (Except ε α → F.State → Prop) → Prop
  | .ret a, l, Q => Q (.ok a) l
  | .throw x, l, Q => Q (.error x) l
  | .op e k, l, Q => F.permits l e ∧ ∀ r, Follows (k r) (F.next l e r) Q

/-- The local state of process `i` after a recorded run. -/
def after (trace : List (Event S ε)) (i : Nat) : F.State :=
  trace.foldl (fun l e => if e.pid = i then F.next l e.op e.resp else l) F.start

variable {F} {l : F.State}

theorem Follows.mono {p : Prog S ε α} {Q Q' : Except ε α → F.State → Prop}
    (h : F.Follows p l Q) (hQ : ∀ r l', Q r l' → Q' r l') : F.Follows p l Q' := by
  induction p generalizing l with
  | ret a => exact hQ _ l h
  | throw x => exact hQ _ l h
  | op e k ih => exact ⟨h.1, fun r => ih r (h.2 r)⟩

theorem Follows.bind {p : Prog S ε α} {f : α → Prog S ε β} {Q : Except ε α → F.State → Prop}
    {Q' : Except ε β → F.State → Prop} (h : F.Follows p l Q)
    (hok : ∀ a l', Q (.ok a) l' → F.Follows (f a) l' Q')
    (herr : ∀ x l', Q (.error x) l' → Q' (.error x) l') : F.Follows (p.bind f) l Q' := by
  induction p generalizing l with
  | ret a => exact hok a l h
  | throw x => exact herr x l h
  | op e k ih => exact ⟨h.1, fun r => ih r (h.2 r)⟩

/-- `try p` with branches for every outcome. -/
theorem Follows.attempt {p : Prog S ε α} {f : Except ε α → Prog S ε β}
    {Q : Except ε α → F.State → Prop} {Q' : Except ε β → F.State → Prop}
    (h : F.Follows p l Q) (hf : ∀ r l', Q r l' → F.Follows (f r) l' Q') :
    F.Follows (p.outcome.bind f) l Q' := by
  induction p generalizing l with
  | ret a => exact hf _ l h
  | throw x => exact hf _ l h
  | op e k ih => exact ⟨h.1, fun r => ih r (h.2 r)⟩

theorem Follows.perform {e : S.Op} {Q : Except ε (S.Resp e) → F.State → Prop}
    (hp : F.permits l e) (hQ : ∀ r, Q r (F.next l e r)) :
    F.Follows (Prog.perform e) l Q := by
  refine ⟨hp, fun r => ?_⟩
  cases r with
  | ok a => exact hQ (.ok a)
  | error x => exact hQ (.error x)

/-- What no effect can change is kept to the end. -/
theorem Follows.keeping {p : Prog S ε α} {Q : Except ε α → F.State → Prop} {R : F.State → Prop}
    (h : F.Follows p l Q) (hR : ∀ l e r, R l → R (F.next l e r)) (hl : R l) :
    F.Follows p l fun r l' => Q r l' ∧ R l' := by
  induction p generalizing l with
  | ret a => exact ⟨h, hl⟩
  | throw x => exact ⟨h, hl⟩
  | op e k ih => exact ⟨h.1, fun r => ih r (h.2 r) (hR l e r hl)⟩

/-- From a state in `rest` the program leads back into `rest`, however it
ends. -/
def Rests (F : Flow S ε) (rest : F.State → Prop) (p : Prog S ε α) : Prop :=
  ∀ l, rest l → F.Follows p l fun _ => rest

section Rests

variable {rest : F.State → Prop}

theorem rests_ret (a : α) : F.Rests rest (.ret a) := fun _ h => h

theorem rests_throw (x : ε) : F.Rests rest (.throw x : Prog S ε α) := fun _ h => h

theorem rests_ofExcept (r : Except ε α) : F.Rests rest (.ofExcept r) := by
  cases r with
  | ok a => exact rests_ret a
  | error x => exact rests_throw x

theorem Rests.bind {p : Prog S ε α} {f : α → Prog S ε β} (h : F.Rests rest p)
    (hf : ∀ a, F.Rests rest (f a)) : F.Rests rest (p.bind f) :=
  fun l hl => (h l hl).bind (fun a l' hl' => hf a l' hl') fun _ _ hl' => hl'

theorem Rests.attempt {p : Prog S ε α} {f : Except ε α → Prog S ε β} (h : F.Rests rest p)
    (hf : ∀ r, F.Rests rest (f r)) : F.Rests rest (p.outcome.bind f) :=
  fun l hl => (h l hl).attempt fun r l' hl' => hf r l' hl'

theorem rests_perform {e : S.Op} (h : ∀ l, rest l → F.permits l e ∧ ∀ r, rest (F.next l e r)) :
    F.Rests rest (Prog.perform e) :=
  fun l hl => Follows.perform (h l hl).1 (h l hl).2

end Rests

@[simp] theorem after_nil (i : Nat) : F.after [] i = F.start := rfl

theorem after_append_self (trace : List (Event S ε)) (e : Event S ε) :
    F.after (trace ++ [e]) e.pid = F.next (F.after trace e.pid) e.op e.resp := by
  simp [after]

theorem after_append_ne (trace : List (Event S ε)) {e : Event S ε} {i : Nat} (h : i ≠ e.pid) :
    F.after (trace ++ [e]) i = F.after trace i := by
  simp [after, Ne.symm h]

end Flow

namespace Machine

variable {M : Machine S ε σ} {C C' : Config S ε (Traced S ε σ) α}

/-- Everything one recorded step can do: an effect and its answer join the
record, or the record stays as it is. -/
theorem traced_step_cases {l : M.traced.Label} (h : M.traced.step C l = some C') :
    (∃ i c e k r t, l = .act i c ∧ C.pool i = some (.op e k) ∧
      M.exec i e c C.shared.state = some (r, t) ∧
      C' = ⟨⟨t, C.shared.trace ++ [⟨i, e, r⟩]⟩, Function.update C.pool i (some (k r))⟩) ∨
    (∃ v t, l = .env v ∧ M.env v C.shared.state = some t ∧
      C' = ⟨⟨t, C.shared.trace⟩, C.pool⟩) ∨
    (∃ i e k, l = .crash i ∧ C.pool i = some (.op e k) ∧
      C' = ⟨⟨M.kill i C.shared.state, C.shared.trace⟩, Function.update C.pool i none⟩) := by
  rcases step_cases h with ⟨i, c, e, k, r, s, rfl, hp, hx, rfl⟩ | ⟨v, s, rfl, hx, rfl⟩ |
    ⟨i, e, k, rfl, hp, rfl⟩
  · obtain ⟨hexec, htrace⟩ := traced_exec.mp hx
    obtain ⟨t, trace⟩ := s
    subst htrace
    exact .inl ⟨i, c, e, k, r, t, rfl, hp, hexec, rfl⟩
  · obtain ⟨t, henv, rfl⟩ := Option.map_eq_some_iff.mp hx
    exact .inr (.inl ⟨v, t, rfl, henv, rfl⟩)
  · exact .inr (.inr ⟨i, e, k, rfl, hp, rfl⟩)

/-- **Every run can be recorded.** -/
theorem reach_traced {con : σ → σ → Prop} {K K' : Config S ε σ α} (h : M.Reach con K K')
    (trace : List (Event S ε)) :
    ∃ trace', M.traced.Reach (fun s s' => con s.state s'.state) ⟨⟨K.shared, trace⟩, K.pool⟩
      ⟨⟨K'.shared, trace'⟩, K'.pool⟩ := by
  induction h with
  | refl => exact ⟨trace, .refl⟩
  | tail _ hs ih =>
    obtain ⟨trace', hr⟩ := ih
    obtain ⟨l, hl, hcon⟩ := hs
    rcases step_cases hl with ⟨i, c, e, k, r, s, -, hp, hx, rfl⟩ | ⟨v, s, -, hx, rfl⟩ |
      ⟨i, e, k, -, hp, rfl⟩
    · refine ⟨trace' ++ [⟨i, e, r⟩], hr.tail ⟨.act i c, ?_, hcon⟩⟩
      simp [step, act, hp, traced, hx]
    · refine ⟨trace', hr.tail ⟨.env v, ?_, hcon⟩⟩
      simp [step, traced, hx]
    · refine ⟨trace', hr.tail ⟨.crash i, ?_, hcon⟩⟩
      simp [step, crash, hp, traced]

/-- Nothing leaves the record. -/
theorem trace_prefix {con : Traced S ε σ → Traced S ε σ → Prop}
    (h : M.traced.Reach con C C') : C.shared.trace <+: C'.shared.trace := by
  induction h with
  | refl => exact List.prefix_rfl
  | tail _ hs ih =>
    obtain ⟨l, hl, -⟩ := hs
    refine ih.trans ?_
    rcases traced_step_cases hl with ⟨i, c, e, k, r, t, -, -, -, rfl⟩ | ⟨v, t, -, -, rfl⟩ |
      ⟨i, e, k, -, -, rfl⟩
    · exact List.prefix_append _ _
    · exact List.prefix_rfl
    · exact List.prefix_rfl

end Machine

namespace Flow

variable {F : Flow S ε} {M : Machine S ε σ} {Q : Nat → Except ε α → F.State → Prop}
  {C C' : Config S ε (Traced S ε σ) α}

/-- Every process of the pool keeps to the flow, from where its own events
have brought it. -/
def Kept (F : Flow S ε) (Q : Nat → Except ε α → F.State → Prop)
    (C : Config S ε (Traced S ε σ) α) : Prop :=
  ∀ i p, C.pool i = some p → F.Follows p (F.after C.shared.trace i) (Q i)

theorem Kept.step {l : M.traced.Label} (h : F.Kept Q C) (hl : M.traced.step C l = some C') :
    F.Kept Q C' := by
  intro j q hq
  rcases Machine.traced_step_cases hl with ⟨i, c, e, k, r, t, -, hp, -, rfl⟩ |
    ⟨v, t, -, -, rfl⟩ | ⟨i, e, k, -, -, rfl⟩
  · by_cases hj : j = i
    · subst hj
      simp only [Function.update_self, Option.some.injEq] at hq
      subst hq
      have hnext := F.after_append_self C.shared.trace ⟨j, e, r⟩
      simp only at hnext
      rw [hnext]
      exact (h j _ hp).2 r
    · simp only [Function.update_of_ne hj] at hq
      rw [after_append_ne C.shared.trace (e := ⟨i, e, r⟩) hj]
      exact h j q hq
  · exact h j q hq
  · by_cases hj : j = i
    · subst hj
      simp at hq
    · simp only [Function.update_of_ne hj] at hq
      exact h j q hq

/-- **Along every recorded run the flows are kept.** -/
theorem follows_reach {con : Traced S ε σ → Traced S ε σ → Prop} (h : F.Kept Q C)
    (hr : M.traced.Reach con C C') : F.Kept Q C' := by
  induction hr with
  | refl => exact h
  | tail _ hs ih =>
    obtain ⟨l, hl, -⟩ := hs
    exact ih.step hl

/-- What a process is about to do is permitted. -/
theorem Kept.permits (h : F.Kept Q C) {i : Nat} {e : S.Op}
    {k : Except ε (S.Resp e) → Prog S ε α} (hp : C.pool i = some (.op e k)) :
    F.permits (F.after C.shared.trace i) e :=
  (h i _ hp).1

end Flow

/-! ## One call on its own -/

/-- Process `i` runs a program to its end with nobody else moving, the
outside choosing from a list. -/
def Machine.play (M : Machine S ε σ) (i : Nat) :
    Prog S ε α → List M.Choice → σ → Option (Except ε α × σ)
  | .ret a, [], s => some (.ok a, s)
  | .throw x, [], s => some (.error x, s)
  | .op e k, c :: cs, s => (M.exec i e c s).bind fun out => M.play i (k out.1) cs out.2
  | _, _, _ => none

/-- Such a run keeps to the flow as well. -/
theorem Flow.Follows.play {F : Flow S ε} {M : Machine S ε σ} {i : Nat} {p : Prog S ε α}
    {Q : Except ε α → F.State → Prop} {cs : List M.Choice} {s s' : Traced S ε σ}
    {r : Except ε α} (h : F.Follows p (F.after s.trace i) Q)
    (hp : M.traced.play i p cs s = some (r, s')) :
    Q r (F.after s'.trace i) ∧ s.trace <+: s'.trace := by
  induction p generalizing cs s with
  | ret a =>
    cases cs with
    | nil =>
      cases hp
      exact ⟨h, List.prefix_rfl⟩
    | cons c cs => cases hp
  | throw x =>
    cases cs with
    | nil =>
      cases hp
      exact ⟨h, List.prefix_rfl⟩
    | cons c cs => cases hp
  | op e k ih =>
    cases cs with
    | nil => cases hp
    | cons c cs =>
      obtain ⟨⟨a, t⟩, hx, hrest⟩ := Option.bind_eq_some_iff.mp hp
      obtain ⟨-, htrace⟩ := Machine.traced_exec.mp hx
      have hnext : F.after t.trace i = F.next (F.after s.trace i) e a := by
        rw [htrace]
        exact Flow.after_append_self s.trace ⟨i, e, a⟩
      obtain ⟨hQ, hpre⟩ := ih a (by rw [hnext]; exact h.2 a) hrest
      refine ⟨hQ, List.IsPrefix.trans ?_ hpre⟩
      rw [htrace]
      exact List.prefix_append _ _

/-! ## Tokens -/

/-- Values drawn by some effects and spent by others: a process may spend
only what it has drawn and not spent yet. -/
structure Tokens (F : Flow S ε) (T : Type) [DecidableEq T] where
  draw : (e : S.Op) → Except ε (S.Resp e) → Option T
  spend : S.Op → Option T
  held : F.State → List T
  start : held F.start = []
  drawn : ∀ l e r t, draw e r = some t → held (F.next l e r) = t :: held l
  spent : ∀ l e r t, draw e r = none → spend e = some t → held (F.next l e r) = (held l).erase t
  idle : ∀ l e r, draw e r = none → spend e = none → held (F.next l e r) = held l
  permitted : ∀ l e t, F.permits l e → spend e = some t → t ∈ held l
  apart : ∀ e r t, draw e r = some t → spend e = none

namespace Tokens

variable {F : Flow S ε} {T : Type} [DecidableEq T] (K : Tokens F T)

/-- What was drawn in a recorded run, and by whom. -/
def draws (trace : List (Event S ε)) : List (T × Nat) :=
  trace.filterMap fun e => (K.draw e.op e.resp).map fun t => (t, e.pid)

/-- What was spent. -/
def spends (trace : List (Event S ε)) : List T := trace.filterMap fun e => K.spend e.op

/-- The outside never hands out the same value twice. -/
def Distinct (trace : List (Event S ε)) : Prop := ((K.draws trace).map Prod.fst).Nodup

variable {K} {trace : List (Event S ε)}

theorem Distinct.initial {trace' : List (Event S ε)} (h : K.Distinct trace')
    (hp : trace <+: trace') : K.Distinct trace := by
  obtain ⟨rest, rfl⟩ := hp
  unfold Distinct draws at h
  rw [List.filterMap_append, List.map_append] at h
  exact h.of_append_left

/-- Each value has one drawer. -/
theorem Distinct.drawer (h : K.Distinct trace) {t : T} {i j : Nat} (hi : (t, i) ∈ K.draws trace)
    (hj : (t, j) ∈ K.draws trace) : i = j :=
  congrArg Prod.snd (List.inj_on_of_nodup_map h hi hj rfl)

/-- What is held was drawn by its holder and is held once; what was spent
was drawn, and is held no more. -/
structure Accounted (K : Tokens F T) (trace : List (Event S ε)) : Prop where
  held : ∀ i, ∀ t ∈ K.held (F.after trace i), (t, i) ∈ K.draws trace
  once : ∀ i, (K.held (F.after trace i)).Nodup
  spent : ∀ t ∈ K.spends trace, ∃ i, (t, i) ∈ K.draws trace ∧ t ∉ K.held (F.after trace i)

theorem accounted_nil : K.Accounted [] := by
  refine ⟨fun i t ht => ?_, fun i => ?_, by simp [spends]⟩
  · simp [K.start] at ht
  · simp [K.start]

theorem draws_append (e : Event S ε) : K.draws (trace ++ [e]) =
    K.draws trace ++ ((K.draw e.op e.resp).map fun t => (t, e.pid)).toList := by
  cases h : K.draw e.op e.resp <;> simp [draws, h]

theorem spends_append (e : Event S ε) :
    K.spends (trace ++ [e]) = K.spends trace ++ (K.spend e.op).toList := by
  cases h : K.spend e.op <;> simp [spends, h]

theorem held_append_ne {e : Event S ε} {i : Nat} (hi : i ≠ e.pid) :
    K.held (F.after (trace ++ [e]) i) = K.held (F.after trace i) := by
  rw [Flow.after_append_ne trace hi]

/-- A new value: nobody holds it, and nobody has spent it. -/
theorem Accounted.drawn (h : K.Accounted trace) {e : Event S ε} {u : T}
    (hd : K.Distinct (trace ++ [e])) (hu : K.draw e.op e.resp = some u) :
    K.Accounted (trace ++ [e]) := by
  have hdraws : K.draws (trace ++ [e]) = K.draws trace ++ [(u, e.pid)] := by
    rw [draws_append, hu]
    rfl
  have hspends : K.spends (trace ++ [e]) = K.spends trace := by
    rw [spends_append, K.apart _ _ _ hu]
    simp
  have hheld : K.held (F.after (trace ++ [e]) e.pid) = u :: K.held (F.after trace e.pid) := by
    rw [Flow.after_append_self]
    exact K.drawn _ _ _ _ hu
  have hnew : ∀ i, (u, i) ∉ K.draws trace := by
    intro i hi
    unfold Distinct at hd
    rw [hdraws, List.map_append, List.nodup_append] at hd
    exact hd.2.2 u (List.mem_map.mpr ⟨_, hi, rfl⟩) u (by simp) rfl
  refine ⟨fun i t ht => ?_, fun i => ?_, fun t ht => ?_⟩
  · rw [hdraws, List.mem_append]
    by_cases hi : i = e.pid
    · subst hi
      rw [hheld, List.mem_cons] at ht
      rcases ht with rfl | ht
      · exact .inr (by simp)
      · exact .inl (h.held _ t ht)
    · rw [held_append_ne hi] at ht
      exact .inl (h.held i t ht)
  · by_cases hi : i = e.pid
    · subst hi
      rw [hheld, List.nodup_cons]
      exact ⟨fun hmem => hnew _ (h.held _ u hmem), h.once _⟩
    · rw [held_append_ne hi]
      exact h.once i
  · rw [hspends] at ht
    obtain ⟨i, hi, hnot⟩ := h.spent t ht
    refine ⟨i, by rw [hdraws]; exact List.mem_append_left _ hi, ?_⟩
    by_cases hpid : i = e.pid
    · subst hpid
      rw [hheld, List.mem_cons]
      rintro (rfl | hmem)
      · exact hnew _ hi
      · exact hnot hmem
    · rw [held_append_ne hpid]
      exact hnot

/-- A value is spent by its holder. -/
theorem Accounted.spend (h : K.Accounted trace) {e : Event S ε} {u : T}
    (hp : F.permits (F.after trace e.pid) e.op) (hnone : K.draw e.op e.resp = none)
    (hu : K.spend e.op = some u) : K.Accounted (trace ++ [e]) := by
  have hdraws : K.draws (trace ++ [e]) = K.draws trace := by
    rw [draws_append, hnone]
    simp
  have hheld : K.held (F.after (trace ++ [e]) e.pid) = (K.held (F.after trace e.pid)).erase u := by
    rw [Flow.after_append_self]
    exact K.spent _ _ _ _ hnone hu
  have hmine : u ∈ K.held (F.after trace e.pid) := K.permitted _ _ _ hp hu
  have hsub : ∀ i, (K.held (F.after (trace ++ [e]) i)).Sublist (K.held (F.after trace i)) := by
    intro i
    by_cases hi : i = e.pid
    · subst hi
      rw [hheld]
      exact List.erase_sublist
    · rw [held_append_ne hi]
  refine ⟨fun i t ht => ?_, fun i => (h.once i).sublist (hsub i), fun t ht => ?_⟩
  · rw [hdraws]
    exact h.held i t ((hsub i).subset ht)
  · rw [spends_append, hu, List.mem_append] at ht
    rw [hdraws]
    rcases ht with ht | ht
    · obtain ⟨i, hi, hnot⟩ := h.spent t ht
      exact ⟨i, hi, fun hmem => hnot ((hsub i).subset hmem)⟩
    · have htu : t = u := by simpa using ht
      subst htu
      refine ⟨e.pid, h.held _ _ hmine, ?_⟩
      rw [hheld]
      exact (h.once _).not_mem_erase

theorem Accounted.idle (h : K.Accounted trace) {e : Event S ε}
    (hnone : K.draw e.op e.resp = none) (hu : K.spend e.op = none) :
    K.Accounted (trace ++ [e]) := by
  have hdraws : K.draws (trace ++ [e]) = K.draws trace := by
    rw [draws_append, hnone]
    simp
  have hspends : K.spends (trace ++ [e]) = K.spends trace := by
    rw [spends_append, hu]
    simp
  have hheld : ∀ i, K.held (F.after (trace ++ [e]) i) = K.held (F.after trace i) := by
    intro i
    by_cases hi : i = e.pid
    · subst hi
      rw [Flow.after_append_self]
      exact K.idle _ _ _ hnone hu
    · exact held_append_ne hi
  refine ⟨fun i t ht => ?_, fun i => ?_, fun t ht => ?_⟩
  · rw [hheld] at ht
    rw [hdraws]
    exact h.held i t ht
  · rw [hheld]
    exact h.once i
  · rw [hspends] at ht
    obtain ⟨i, hi, hnot⟩ := h.spent t ht
    refine ⟨i, by rw [hdraws]; exact hi, ?_⟩
    rw [hheld]
    exact hnot

theorem Accounted.append (h : K.Accounted trace) {e : Event S ε}
    (hd : K.Distinct (trace ++ [e])) (hp : F.permits (F.after trace e.pid) e.op) :
    K.Accounted (trace ++ [e]) := by
  cases hdraw : K.draw e.op e.resp with
  | some u => exact h.drawn hd hdraw
  | none =>
    cases hspend : K.spend e.op with
    | some u => exact h.spend hp hdraw hspend
    | none => exact h.idle hdraw hspend

/-- The books are right along every recorded run of a pool that keeps to the
flow. -/
theorem accounted_reach {M : Machine S ε σ} {Q : Nat → Except ε α → F.State → Prop}
    {con : Traced S ε σ → Traced S ε σ → Prop} {C C' : Config S ε (Traced S ε σ) α}
    (hkept : F.Kept Q C) (hnil : C.shared.trace = []) (hr : M.traced.Reach con C C')
    (hd : K.Distinct C'.shared.trace) : K.Accounted C'.shared.trace := by
  induction hr with
  | refl =>
    rw [hnil]
    exact accounted_nil
  | tail hr hs ih =>
    rename_i D D'
    obtain ⟨l, hl, -⟩ := hs
    have hk : F.Kept Q D := Flow.follows_reach hkept hr
    rcases Machine.traced_step_cases hl with ⟨i, c, e, k, r, t, -, hp, -, rfl⟩ |
      ⟨v, t, -, -, rfl⟩ | ⟨i, e, k, -, -, rfl⟩
    · have hbefore := ih (hd.initial (List.prefix_append _ _))
      exact hbefore.append hd (hk.permits hp)
    · exact ih hd
    · exact ih hd

/-- What a process is about to spend has not been spent by anybody. -/
theorem Accounted.unspent (h : K.Accounted trace) (hd : K.Distinct trace) {i : Nat} {e : S.Op}
    {t : T} (hp : F.permits (F.after trace i) e) (ht : K.spend e = some t) :
    t ∉ K.spends trace := by
  intro hmem
  obtain ⟨j, hj, hnot⟩ := h.spent t hmem
  have hmine : t ∈ K.held (F.after trace i) := K.permitted _ _ _ hp ht
  have hij : i = j := hd.drawer (h.held i t hmine) hj
  subst hij
  exact hnot hmine

end Tokens

/-! ## Forgetting part of the state -/

/-- What `M'` does is, seen through `state`, what `M` does. -/
structure Projection (M' : Machine S ε τ) (M : Machine S ε σ) where
  state : τ → σ
  exec : ∀ i e c s r s', M'.exec i e c s = some (r, s') →
    ∃ c', M.exec i e c' (state s) = some (r, state s')
  env : ∀ v s s', M'.env v s = some s' → ∃ v', M.env v' (state s) = some (state s')
  kill : ∀ i s, state (M'.kill i s) = M.kill i (state s)

namespace Projection

variable {M' : Machine S ε τ} {M : Machine S ε σ} (π : Projection M' M)

def config (C : Config S ε τ α) : Config S ε σ α := ⟨π.state C.shared, C.pool⟩

theorem step {C C' : Config S ε τ α} {l : M'.Label} (h : M'.step C l = some C') :
    ∃ l', M.step (π.config C) l' = some (π.config C') := by
  rcases Machine.step_cases h with ⟨i, c, e, k, r, s, rfl, hp, hx, rfl⟩ | ⟨v, s, rfl, hx, rfl⟩ |
    ⟨i, e, k, rfl, hp, rfl⟩
  · obtain ⟨c', hc'⟩ := π.exec i e c _ r s hx
    exact ⟨.act i c', by simp [Machine.step, Machine.act, config, hp, hc']⟩
  · obtain ⟨v', hv'⟩ := π.env v _ s hx
    exact ⟨.env v', by simp [Machine.step, config, hv']⟩
  · exact ⟨.crash i, by simp [Machine.step, Machine.crash, config, hp, π.kill]⟩

/-- Runs project to runs. -/
theorem reach {C C' : Config S ε τ α} (h : M'.Reach (fun _ _ => True) C C') :
    M.Reach (fun _ _ => True) (π.config C) (π.config C') := by
  induction h with
  | refl => exact .refl
  | tail _ hs ih =>
    obtain ⟨l, hl, -⟩ := hs
    obtain ⟨l', hl'⟩ := π.step hl
    exact ih.tail ⟨l', hl', trivial⟩

/-- What holds in every state of a run may be assumed of the steps of its
projection. -/
theorem reach_of {I : σ → Prop} {C C' : Config S ε τ α} (h : M'.Reach (fun _ _ => True) C C')
    (hI : ∀ D, M'.Reach (fun _ _ => True) C D → M'.Reach (fun _ _ => True) D C' →
      I (π.state D.shared)) :
    M.Reach (fun _ s => I s) (π.config C) (π.config C') := by
  induction h with
  | refl => exact .refl
  | tail hr hs ih =>
    have hlast := hI _ (hr.tail hs) .refl
    have hbefore := ih fun D hD hD' => hI D hD (hD'.tail hs)
    obtain ⟨l, hl, -⟩ := hs
    obtain ⟨l', hl'⟩ := π.step hl
    exact hbefore.tail ⟨l', hl', hlast⟩

end Projection

/-- The recorded machine, without its record. -/
def Machine.forget (M : Machine S ε σ) : Projection M.traced M where
  state s := s.state
  exec i e c s r s' h := ⟨c, (traced_exec.mp h).1⟩
  env v s s' h := by
    obtain ⟨t, ht, rfl⟩ := Option.map_eq_some_iff.mp h
    exact ⟨v, ht⟩
  kill _ _ := rfl

end Concurrent
