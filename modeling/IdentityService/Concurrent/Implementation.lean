import IdentityService.Concurrent.Flow

/-!
# Effects that are small protocols

`p.within impl` is the program `p` with each of its effects carried out by a
program over the effects of another machine: a call behind a lock, a retry,
a guard. Its steps interleave with everybody else's.

Such a machine `N` does nothing that the plain machine `M` cannot do, if on
the way through `impl e` exactly one step is, for the state that `M` sees,
the effect `e` itself, and the others change nothing there (`ToCome`,
`Silent`). Then every run of `N` is a run of `M` with the same answers
(`Implements.reach`).

A process that dies between the effect and the end of its protocol has, for
`M`, gone on; it may even have ended. So the processes that have ended must
leave nothing behind that their death would take away.
-/

namespace Concurrent

variable {S T : Sig} {ε σ τ α β : Type}

/-- Carry out each effect by a program. -/
def Prog.within (impl : (e : S.Op) → Prog T ε (S.Resp e)) : Prog S ε α → Prog T ε α
  | .ret a => .ret a
  | .throw x => .throw x
  | .op e k => (impl e).outcome.bind fun r => (k r).within impl

namespace Prog

variable {impl : (e : S.Op) → Prog T ε (S.Resp e)}

/-- The program has come to its end. -/
def Ended : Prog S ε α → Prop
  | .op _ _ => False
  | _ => True

end Prog

/-- From here on nothing changes for `abs`, and the end is an answer `r`. -/
def Silent (N : Machine T ε τ) (abs : τ → σ) (r : β) : Prog T ε β → Prop
  | .ret b => b = r
  | .throw _ => False
  | .op o k => ∀ i c t r' t', N.exec i o c t = some (r', t') →
      abs t' = abs t ∧ Silent N abs r (k r')

/-- The effect `e` of `M` is still to come: a step is the effect, and what
follows is silent, or it changes nothing for `M`. -/
def ToCome (M : Machine S ε σ) (N : Machine T ε τ) (abs : τ → σ) (e : S.Op) :
    Prog T ε (Except ε (S.Resp e)) → Prop
  | .ret _ => False
  | .throw _ => False
  | .op o k => ∀ i c t r' t', N.exec i o c t = some (r', t') →
      (abs t' = abs t ∧ ToCome M N abs e (k r')) ∨
      ∃ r c', M.exec i e c' (abs t) = some (r, abs t') ∧ Silent N abs r (k r')

/-- `N` with `impl` does what `M` does, seen through `abs`. -/
structure Implements (M : Machine S ε σ) (N : Machine T ε τ) (abs : τ → σ)
    (impl : (e : S.Op) → Prog T ε (S.Resp e)) : Prop where
  op : ∀ e, ToCome M N abs e (impl e).outcome
  env : ∀ v t t', N.env v t = some t' →
    abs t' = abs t ∨ ∃ v', M.env v' (abs t) = some (abs t')
  kill : ∀ i t, abs (N.kill i t) = M.kill i (abs t)

/-- Where a process of `N` stands, and where the same process of `M` does. -/
inductive Stands (M : Machine S ε σ) (N : Machine T ε τ) (abs : τ → σ)
    (impl : (e : S.Op) → Prog T ε (S.Resp e)) :
    Option (Prog T ε α) → Option (Prog S ε α) → Prop where
  | absent : Stands M N abs impl none none
  | between (p : Prog S ε α) : Stands M N abs impl (some (p.within impl)) (some p)
  | pending {e : S.Op} {k : Except ε (S.Resp e) → Prog S ε α}
      {q : Prog T ε (Except ε (S.Resp e))} (h : ToCome M N abs e q) :
      Stands M N abs impl (some (q.bind fun r => (k r).within impl)) (some (.op e k))
  | answered {γ : Type} {r : γ} {k : γ → Prog S ε α} {q : Prog T ε γ} (h : Silent N abs r q) :
      Stands M N abs impl (some (q.bind fun r => (k r).within impl)) (some (k r))
  | died {p : Prog S ε α} (h : p.Ended) : Stands M N abs impl none (some p)

section Stands

variable {M : Machine S ε σ} {N : Machine T ε τ} {abs : τ → σ}
  {impl : (e : S.Op) → Prog T ε (S.Resp e)}

/-- A process in the middle stands before the effect or after it. -/
theorem Implements.stands_op (hI : Implements M N abs impl) {o : T.Op}
    {k' : Except ε (T.Resp o) → Prog T ε α} {p : Option (Prog S ε α)}
    (h : Stands M N abs impl (some (.op o k')) p) :
    (∃ (e : S.Op) (k : Except ε (S.Resp e) → Prog S ε α)
        (k₁ : Except ε (T.Resp o) → Prog T ε (Except ε (S.Resp e))), p = some (.op e k) ∧
      ToCome M N abs e (.op o k₁) ∧ k' = fun r => (k₁ r).bind fun r => (k r).within impl) ∨
    ∃ (γ : Type) (r : γ) (k : γ → Prog S ε α) (k₁ : Except ε (T.Resp o) → Prog T ε γ),
      p = some (k r) ∧ Silent N abs r (.op o k₁) ∧
        k' = fun r => (k₁ r).bind fun r => (k r).within impl := by
  -- where the next effect has not begun, it is yet to come
  have hpending : ∀ {e : S.Op} {k : Except ε (S.Resp e) → Prog S ε α}
      {q : Prog T ε (Except ε (S.Resp e))}, ToCome M N abs e q →
      q.bind (fun r => (k r).within impl) = .op o k' →
      ∃ (e' : S.Op) (k₀ : Except ε (S.Resp e') → Prog S ε α)
        (k₁ : Except ε (T.Resp o) → Prog T ε (Except ε (S.Resp e'))),
        some (Prog.op e k) = some (.op e' k₀) ∧ ToCome M N abs e' (.op o k₁) ∧
          k' = fun r => (k₁ r).bind fun r => (k₀ r).within impl := by
    intro e k q hq heq
    cases q with
    | ret a => exact hq.elim
    | throw x => exact hq.elim
    | op o₁ k₁ =>
      cases heq
      exact ⟨e, k, k₁, rfl, hq, rfl⟩
  have hbetween : ∀ p : Prog S ε α, p.within impl = .op o k' →
      ∃ (e' : S.Op) (k₀ : Except ε (S.Resp e') → Prog S ε α)
        (k₁ : Except ε (T.Resp o) → Prog T ε (Except ε (S.Resp e'))),
        some p = some (.op e' k₀) ∧ ToCome M N abs e' (.op o k₁) ∧
          k' = fun r => (k₁ r).bind fun r => (k₀ r).within impl := by
    intro p heq
    cases p with
    | ret a => cases heq
    | throw x => cases heq
    | op e k => exact hpending (hI.op e) heq
  generalize hg : (some (Prog.op o k') : Option (Prog T ε α)) = g at h
  cases h with
  | absent => cases hg
  | between p => exact .inl (hbetween p (Option.some.inj hg).symm)
  | pending h => exact .inl (hpending h (Option.some.inj hg).symm)
  | @answered γ r k q h =>
    have heq := (Option.some.inj hg).symm
    cases q with
    | ret b =>
      obtain rfl : b = r := h
      exact .inl (hbetween _ heq)
    | throw x => exact h.elim
    | op o₁ k₁ =>
      cases heq
      exact .inr ⟨γ, r, k, k₁, rfl, h, rfl⟩
  | died h => cases hg

/-- A process that has ended has ended for `M`, in the same way. -/
theorem Implements.stands_end (hI : Implements M N abs impl) {r : Except ε α}
    {p : Option (Prog S ε α)} (h : Stands M N abs impl (some (.ofExcept r)) p) :
    p = some (.ofExcept r) := by
  have hpending : ∀ {e : S.Op} {k : Except ε (S.Resp e) → Prog S ε α}
      {q : Prog T ε (Except ε (S.Resp e))}, ToCome M N abs e q →
      q.bind (fun r => (k r).within impl) ≠ .ofExcept r := by
    intro e k q hq heq
    cases q with
    | ret a => exact hq
    | throw x => exact hq
    | op o₁ k₁ => cases r <;> cases heq
  have hbetween : ∀ p : Prog S ε α, p.within impl = .ofExcept r → p = .ofExcept r := by
    intro p heq
    cases p with
    | ret a =>
      cases r <;> cases heq
      rfl
    | throw x =>
      cases r <;> cases heq
      rfl
    | op e k => exact absurd heq (hpending (hI.op e))
  generalize hg : (some (Prog.ofExcept r) : Option (Prog T ε α)) = g at h
  cases h with
  | absent => cases hg
  | between p => rw [hbetween p (Option.some.inj hg).symm]
  | pending h => exact absurd (Option.some.inj hg).symm (hpending h)
  | @answered γ b k q h =>
    have heq := (Option.some.inj hg).symm
    cases q with
    | ret b' =>
      obtain rfl : b' = b := h
      rw [hbetween _ heq]
    | throw x => exact h.elim
    | op o₁ k₁ => cases r <;> cases heq
  | died h => cases hg

/-- The death of a process that has ended changes nothing. -/
def LeavesNothing (M : Machine S ε σ) (P₀ : Config S ε σ α) : Prop :=
  ∀ P, M.Reach (fun _ _ => True) P₀ P → ∀ i p, P.pool i = some p → p.Ended →
    M.kill i P.shared = P.shared

/-- Two configurations that agree. -/
structure Agrees (M : Machine S ε σ) (N : Machine T ε τ) (abs : τ → σ)
    (impl : (e : S.Op) → Prog T ε (S.Resp e)) (G : Config T ε τ α) (P : Config S ε σ α) :
    Prop where
  shared : P.shared = abs G.shared
  pool : ∀ i, Stands M N abs impl (G.pool i) (P.pool i)

variable {G G' : Config T ε τ α} {P P₀ : Config S ε σ α}

theorem stands_update {q : Option (Prog T ε α)} {p : Option (Prog S ε α)} {i : Nat}
    (h : ∀ j, Stands M N abs impl (G.pool j) (P.pool j)) (hi : Stands M N abs impl q p) (j : Nat) :
    Stands M N abs impl (Function.update G.pool i q j) (Function.update P.pool i p j) := by
  by_cases hj : j = i
  · subst hj
    rw [Function.update_self, Function.update_self]
    exact hi
  · rw [Function.update_of_ne hj, Function.update_of_ne hj]
    exact h j

/-- The same, where `M` does not move. -/
theorem stands_update_left {q : Option (Prog T ε α)} {i : Nat}
    (h : ∀ j, Stands M N abs impl (G.pool j) (P.pool j)) (hi : Stands M N abs impl q (P.pool i))
    (j : Nat) : Stands M N abs impl (Function.update G.pool i q j) (P.pool j) := by
  have hupdate := stands_update (i := i) h hi j
  rwa [Function.update_eq_self] at hupdate

/-- **A step of `N` is a step of `M`, or none.** -/
theorem Implements.step (hI : Implements M N abs impl) (hleaves : LeavesNothing M P₀)
    (hr : M.Reach (fun _ _ => True) P₀ P) (h : Agrees M N abs impl G P) {l : N.Label}
    (hl : N.step G l = some G') :
    ∃ P', M.Reach (fun _ _ => True) P P' ∧ Agrees M N abs impl G' P' := by
  rcases Machine.step_cases hl with ⟨i, c, o, k', r', t', -, hp, hx, rfl⟩ | ⟨v, t', -, hv, rfl⟩ |
    ⟨i, o, k', -, hp, rfl⟩
  · have hi := h.pool i
    rw [hp] at hi
    rcases hI.stands_op hi with ⟨e, k, k₁, hP, hpend, rfl⟩ | ⟨γ, r, k, k₁, hP, hsilent, rfl⟩
    · rcases hpend i c _ r' t' hx with ⟨hsame, hnext⟩ | ⟨r, c', hm, hsilent⟩
      · exact ⟨P, .refl, h.shared.trans hsame.symm,
          stands_update_left h.pool (hP ▸ .pending hnext)⟩
      · refine ⟨⟨abs t', Function.update P.pool i (some (k r))⟩, .single ⟨.act i c', ?_, trivial⟩,
          rfl, stands_update h.pool (.answered hsilent)⟩
        simp [Machine.step, Machine.act, hP, h.shared, hm]
    · obtain ⟨hsame, hnext⟩ := hsilent i c _ r' t' hx
      exact ⟨P, .refl, h.shared.trans hsame.symm,
        stands_update_left h.pool (hP ▸ .answered hnext)⟩
  · rcases hI.env v _ t' hv with hsame | ⟨v', hm⟩
    · exact ⟨P, .refl, h.shared.trans hsame.symm, h.pool⟩
    · refine ⟨⟨abs t', P.pool⟩, .single ⟨.env v', ?_, trivial⟩, rfl, h.pool⟩
      simp [Machine.step, h.shared, hm]
  · have hi := h.pool i
    rw [hp] at hi
    have hcrash : ∀ e k, P.pool i = some (.op e k) →
        ∃ P', M.Reach (fun _ _ => True) P P' ∧ Agrees M N abs impl
          ⟨N.kill i G.shared, Function.update G.pool i none⟩ P' := by
      intro e k hP
      refine ⟨⟨M.kill i P.shared, Function.update P.pool i none⟩, .single ⟨.crash i, ?_, trivial⟩,
        ?_, stands_update h.pool .absent⟩
      · simp [Machine.step, Machine.crash, hP]
      · rw [h.shared, hI.kill]
    rcases hI.stands_op hi with ⟨e, k, k₁, hP, -, -⟩ | ⟨γ, r, k, k₁, hP, -, -⟩
    · exact hcrash e k hP
    · -- for `M` it had the answer already, and may have ended with it
      by_cases hended : (k r).Ended
      · refine ⟨P, .refl, ?_, stands_update_left h.pool (hP ▸ .died hended)⟩
        rw [hI.kill, ← h.shared, hleaves P hr i _ hP hended]
      · cases hk : k r with
        | op e k₀ => exact hcrash e k₀ (hP.trans (congrArg some hk))
        | _ =>
          rw [hk] at hended
          exact absurd trivial hended

/-- **Every run of `N` is a run of `M`** with the same answers. -/
theorem Implements.reach (hI : Implements M N abs impl) (hleaves : LeavesNothing M P₀)
    {G₀ : Config T ε τ α} (h₀ : Agrees M N abs impl G₀ P₀)
    (h : N.Reach (fun _ _ => True) G₀ G) :
    ∃ P, M.Reach (fun _ _ => True) P₀ P ∧ Agrees M N abs impl G P := by
  induction h with
  | refl => exact ⟨P₀, .refl, h₀⟩
  | tail _ hs ih =>
    obtain ⟨P, hr, hagree⟩ := ih
    obtain ⟨l, hl, -⟩ := hs
    obtain ⟨P', hr', hagree'⟩ := hI.step hleaves hr hagree hl
    exact ⟨P', hr.trans hr', hagree'⟩

/-- The answers. -/
theorem Agrees.result (h : Agrees M N abs impl G P) (hI : Implements M N abs impl) {i : Nat}
    {r : Except ε α} (hp : G.pool i = some (.ofExcept r)) : P.pool i = some (.ofExcept r) := by
  have hi := h.pool i
  rw [hp] at hi
  exact hI.stands_end hi

end Stands

end Concurrent
