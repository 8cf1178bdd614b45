import IdentityService.Concurrent.Prog

/-!
# Rely–guarantee reasoning for interleaved programs

An assertion about the shared state survives the other processes if it is
`Stable`: closed under every step they may take. `Safe` is the proof
outline of one program — an assertion before each effect, each of them
stable — and `Spec.sound` glues the outlines of a whole pool together:
the invariant holds in every reachable state, every step is within the
guarantee, and a finished program's result meets its postcondition in
EVERY later state.

The constraint `con` is what a theorem assumes of the runs it speaks about
(a record that does not expire, a step that does not happen); it is
available wherever a step is.
-/

namespace Concurrent

variable {S : Sig} {ε σ α β : Type}

/-- The proof parameters: the global invariant, the constraint assumed of
every step, the guarantee every step gives, and what each process relies
on between two of its own effects. -/
structure Spec (S : Sig) (ε σ : Type) where
  machine : Machine S ε σ
  inv : σ → Prop
  con : σ → σ → Prop
  guar : σ → σ → Prop
  rely : Nat → σ → σ → Prop

namespace Spec

variable (R : Spec S ε σ)

/-- What a step of process `i` owes to everybody. -/
structure Owes (i : Nat) (s s' : σ) : Prop where
  inv : R.inv s'
  guar : R.guar s s'
  rely : ∀ j, j ≠ i → R.rely j s s'

/-- An assertion of process `i` that no other process can break. -/
def Stable (i : Nat) (P : σ → Prop) : Prop :=
  ∀ s s', R.inv s → R.inv s' → R.con s s' → R.guar s s' → R.rely i s s' → P s → P s'

/-- The proof outline: from a state satisfying `P`, program `p` of process
`i` owes nothing it does not pay, and it ends in `Q`. -/
def Safe (i : Nat) : Prog S ε α → (σ → Prop) → (Except ε α → σ → Prop) → Prop
  | .ret a, P, Q => ∀ s, R.inv s → P s → Q (.ok a) s
  | .throw x, P, Q => ∀ s, R.inv s → P s → Q (.error x) s
  | .op e k, P, Q => ∀ s c r s', R.inv s → P s → R.machine.exec i e c s = some (r, s') →
      R.con s s' →
      R.Owes i s s' ∧ ∃ P', R.Stable i P' ∧ P' s' ∧ Safe i (k r) P' Q

variable {R} {i : Nat} {P P' : σ → Prop}

theorem Stable.and (h : R.Stable i P) (h' : R.Stable i P') :
    R.Stable i fun s => P s ∧ P' s :=
  fun s s' hs hs' hc hg hr hp => ⟨h s s' hs hs' hc hg hr hp.1, h' s s' hs hs' hc hg hr hp.2⟩

theorem Stable.const (p : Prop) : R.Stable i fun _ => p := fun _ _ _ _ _ _ _ h => h

theorem Stable.exists {γ : Type} {P : γ → σ → Prop} (h : ∀ c, R.Stable i (P c)) :
    R.Stable i fun s => ∃ c, P c s :=
  fun s s' hs hs' hc hg hr ⟨c, hp⟩ => ⟨c, h c s s' hs hs' hc hg hr hp⟩

theorem Safe.pre {p : Prog S ε α} {Q : Except ε α → σ → Prop} (h : R.Safe i p P Q)
    (hP : ∀ s, R.inv s → P' s → P s) : R.Safe i p P' Q := by
  cases p with
  | ret a => exact fun s hs hp => h s hs (hP s hs hp)
  | throw x => exact fun s hs hp => h s hs (hP s hs hp)
  | op e k => exact fun s c r s' hs hp hx hc => h s c r s' hs (hP s hs hp) hx hc

/-- A fact about no state that the precondition contains may be used to
prove the outline. -/
theorem Safe.assuming {p : Prog S ε α} {Q : Except ε α → σ → Prop} {φ : Prop}
    (hφ : ∀ s, R.inv s → P s → φ) (h : φ → R.Safe i p P Q) : R.Safe i p P Q := by
  cases p with
  | ret a => exact fun s hs hp => h (hφ s hs hp) s hs hp
  | throw x => exact fun s hs hp => h (hφ s hs hp) s hs hp
  | op e k => exact fun s c r s' hs hp hx hc => h (hφ s hs hp) s c r s' hs hp hx hc

theorem Safe.exists {γ : Type} {p : Prog S ε α} {P : γ → σ → Prop} {Q : Except ε α → σ → Prop}
    (h : ∀ c, R.Safe i p (P c) Q) : R.Safe i p (fun s => ∃ c, P c s) Q := by
  cases p with
  | ret a => exact fun s hs ⟨c, hp⟩ => h c s hs hp
  | throw x => exact fun s hs ⟨c, hp⟩ => h c s hs hp
  | op e k => exact fun s c r s' hs ⟨d, hp⟩ hx hc => h d s c r s' hs hp hx hc

theorem Safe.post {p : Prog S ε α} {Q Q' : Except ε α → σ → Prop} (h : R.Safe i p P Q)
    (hQ : ∀ r s, R.inv s → Q r s → Q' r s) : R.Safe i p P Q' := by
  induction p generalizing P with
  | ret a => exact fun s hs hp => hQ _ s hs (h s hs hp)
  | throw x => exact fun s hs hp => hQ _ s hs (h s hs hp)
  | op e k ih =>
      intro s c r s' hs hp hx hc
      obtain ⟨ho, P₁, hst, hp₁, hk⟩ := h s c r s' hs hp hx hc
      exact ⟨ho, P₁, hst, hp₁, ih r hk⟩

/-- What no step at all can break need not be carried along: it is framed
around a whole program. -/
theorem Safe.frame {p : Prog S ε α} {Q : Except ε α → σ → Prop} {F : σ → Prop}
    (h : R.Safe i p P Q) (hF : ∀ s s', R.guar s s' → F s → F s') :
    R.Safe i p (fun s => P s ∧ F s) fun r s => Q r s ∧ F s := by
  induction p generalizing P with
  | ret a => exact fun s hs hp => ⟨h s hs hp.1, hp.2⟩
  | throw x => exact fun s hs hp => ⟨h s hs hp.1, hp.2⟩
  | op e k ih =>
      intro s c r s' hs hp hx hc
      obtain ⟨ho, P₁, hst, hp₁, hk⟩ := h s c r s' hs hp.1 hx hc
      have hFs : R.Stable i F := fun t t' _ _ _ hg _ hf => hF t t' hg hf
      exact ⟨ho, _, hst.and hFs, ⟨hp₁, hF s s' ho.guar hp.2⟩, ih r hk⟩

/-- Two outlines of one program hold together. -/
theorem Safe.and {p : Prog S ε α} {Q Q' : Except ε α → σ → Prop} (h : R.Safe i p P Q)
    (h' : R.Safe i p P' Q') : R.Safe i p (fun s => P s ∧ P' s) fun r s => Q r s ∧ Q' r s := by
  induction p generalizing P P' with
  | ret a => exact fun s hs hp => ⟨h s hs hp.1, h' s hs hp.2⟩
  | throw x => exact fun s hs hp => ⟨h s hs hp.1, h' s hs hp.2⟩
  | op e k ih =>
      intro s c r s' hs hp hx hc
      obtain ⟨ho, P₁, hst₁, hp₁, hk₁⟩ := h s c r s' hs hp.1 hx hc
      obtain ⟨-, P₂, hst₂, hp₂, hk₂⟩ := h' s c r s' hs hp.2 hx hc
      exact ⟨ho, _, hst₁.and hst₂, ⟨hp₁, hp₂⟩, ih r hk₁ hk₂⟩

/-- The same for what the constraint vouches for, step by step. -/
theorem Safe.frame_con {p : Prog S ε α} {Q : Except ε α → σ → Prop} {F : σ → Prop}
    (h : R.Safe i p P Q) (hF : ∀ s s', R.con s s' → F s') :
    R.Safe i p (fun s => P s ∧ F s) fun r s => Q r s ∧ F s := by
  induction p generalizing P with
  | ret a => exact fun s hs hp => ⟨h s hs hp.1, hp.2⟩
  | throw x => exact fun s hs hp => ⟨h s hs hp.1, hp.2⟩
  | op e k ih =>
      intro s c r s' hs hp hx hc
      obtain ⟨ho, P₁, hst, hp₁, hk⟩ := h s c r s' hs hp.1 hx hc
      have hFs : R.Stable i F := fun t t' _ _ hc _ _ _ => hF t t' hc
      exact ⟨ho, _, hst.and hFs, ⟨hp₁, hF s s' hc⟩, ih r hk⟩

theorem Safe.bind {p : Prog S ε α} {f : α → Prog S ε β} {Q : Except ε α → σ → Prop}
    {Q' : Except ε β → σ → Prop} (h : R.Safe i p P Q)
    (hok : ∀ a, R.Safe i (f a) (Q (.ok a)) Q')
    (herr : ∀ x s, R.inv s → Q (.error x) s → Q' (.error x) s) :
    R.Safe i (p.bind f) P Q' := by
  induction p generalizing P with
  | ret a => exact (hok a).pre h
  | throw x => exact fun s hs hp => herr x s hs (h s hs hp)
  | op e k ih =>
      intro s c r s' hs hp hx hc
      obtain ⟨ho, P₁, hst, hp₁, hk⟩ := h s c r s' hs hp hx hc
      exact ⟨ho, P₁, hst, hp₁, ih r hk⟩

theorem Safe.outcome {p : Prog S ε α} {Q : Except ε α → σ → Prop}
    {Q' : Except ε (Except ε α) → σ → Prop} (h : R.Safe i p P Q)
    (hQ : ∀ r s, R.inv s → Q r s → Q' (.ok r) s) : R.Safe i p.outcome P Q' := by
  induction p generalizing P with
  | ret a => exact fun s hs hp => hQ _ s hs (h s hs hp)
  | throw x => exact fun s hs hp => hQ _ s hs (h s hs hp)
  | op e k ih =>
      intro s c r s' hs hp hx hc
      obtain ⟨ho, P₁, hst, hp₁, hk⟩ := h s c r s' hs hp hx hc
      exact ⟨ho, P₁, hst, hp₁, ih r hk⟩

/-- `try p` with branches for every outcome. -/
theorem Safe.attempt {p : Prog S ε α} {f : Except ε α → Prog S ε β} {Q : Except ε α → σ → Prop}
    {Q' : Except ε β → σ → Prop} (h : R.Safe i p P Q) (hf : ∀ r, R.Safe i (f r) (Q r) Q') :
    R.Safe i (p.outcome.bind f) P Q' := by
  have hout : R.Safe i p.outcome P fun r s => ∃ a, r = .ok a ∧ Q a s :=
    h.outcome fun r _ _ hq => ⟨r, rfl, hq⟩
  refine hout.bind (fun r => ?_) ?_
  · refine (hf r).pre ?_
    rintro s - ⟨_, ⟨⟩, hq⟩
    exact hq
  · rintro x s - ⟨_, hx, -⟩
    cases hx

/-- One effect: `A r` is the assertion the program goes on with after
answer `r`. -/
theorem Safe.perform {e : S.Op} {A : Except ε (S.Resp e) → σ → Prop}
    (h : ∀ s c r s', R.inv s → P s → R.machine.exec i e c s = some (r, s') → R.con s s' →
      R.Owes i s s' ∧ ∃ P', R.Stable i P' ∧ P' s' ∧ ∀ t, R.inv t → P' t → A r t) :
    R.Safe i (Prog.perform e) P A := by
  intro s c r s' hs hp hx hc
  obtain ⟨ho, P₁, hst, hp₁, hA⟩ := h s c r s' hs hp hx hc
  refine ⟨ho, P₁, hst, hp₁, ?_⟩
  cases r with
  | ok a => exact fun t ht hp => hA t ht hp
  | error x => exact fun t ht hp => hA t ht hp

/-! ## Soundness for a pool -/

/-- Environment steps and crashes stay within the rules. -/
structure Closed (R : Spec S ε σ) : Prop where
  env : ∀ v s s', R.inv s → R.machine.env v s = some s' → R.con s s' →
    R.inv s' ∧ R.guar s s' ∧ ∀ j, R.rely j s s'
  kill : ∀ i s, R.inv s → R.con s (R.machine.kill i s) → R.Owes i s (R.machine.kill i s)

/-- Every process of the pool has a proof outline, and stands at one of its
assertions. -/
structure Good (R : Spec S ε σ) (Q : Nat → Except ε α → σ → Prop) (C : Config S ε σ α) :
    Prop where
  inv : R.inv C.shared
  pool : ∀ i p, C.pool i = some p →
    ∃ P, R.Stable i P ∧ P C.shared ∧ R.Safe i p P (Q i)

variable {Q : Nat → Except ε α → σ → Prop} {C C' : Config S ε σ α}

theorem Good.step (hR : R.Closed) (h : R.Good Q C) (hs : R.machine.Steps R.con C C') :
    R.Good Q C' ∧ R.guar C.shared C'.shared := by
  obtain ⟨l, hl, hcon⟩ := hs
  -- the other processes keep their assertion by stability
  have others : ∀ (i : Nat) (s : σ) (p : Option (Prog S ε α)), R.con C.shared s →
      R.Owes i C.shared s → (∀ q, p = some q → ∃ P, R.Stable i P ∧ P s ∧ R.Safe i q P (Q i)) →
      R.Good Q ⟨s, Function.update C.pool i p⟩ := by
    intro i s p hc ho hp
    refine ⟨ho.inv, fun j q hq => ?_⟩
    by_cases hji : j = i
    · subst hji
      simp only [Function.update_self] at hq
      exact hp q hq
    · simp only [Function.update_of_ne hji] at hq
      obtain ⟨P, hst, hp, hsafe⟩ := h.pool j q hq
      exact ⟨P, hst, hst _ _ h.inv ho.inv hc ho.guar (ho.rely j hji) hp, hsafe⟩
  rcases Machine.step_cases hl with ⟨i, c, e, k, r, s, rfl, hp, hx, rfl⟩ | ⟨v, s, rfl, hx, rfl⟩ |
    ⟨i, e, k, rfl, hp, rfl⟩
  · obtain ⟨P, hst, hPs, hsafe⟩ := h.pool i _ hp
    obtain ⟨ho, hnext⟩ := hsafe _ c r s h.inv hPs hx hcon
    refine ⟨others i s _ hcon ho ?_, ho.guar⟩
    rintro q ⟨⟩
    exact hnext
  · obtain ⟨hinv, hg, hr⟩ := hR.env v _ s h.inv hx hcon
    refine ⟨⟨hinv, fun j q hq => ?_⟩, hg⟩
    obtain ⟨P, hst, hp, hsafe⟩ := h.pool j q hq
    exact ⟨P, hst, hst _ _ h.inv hinv hcon hg (hr j) hp, hsafe⟩
  · have ho := hR.kill i _ h.inv hcon
    exact ⟨others i _ none hcon ho (by rintro q ⟨⟩), ho.guar⟩

/-- **Soundness**: along every run of a pool of outlined programs the
outlines stay in place. -/
theorem Good.reach (hR : R.Closed) (h : R.Good Q C) (hr : R.machine.Reach R.con C C') :
    R.Good Q C' := by
  induction hr with
  | refl => exact h
  | tail _ hs ih => exact (ih.step hR hs).1

/-- The guarantee, closed under composition, holds between any two states
of a run. -/
theorem Good.guar_reach (hR : R.Closed) (h : R.Good Q C) (hr : R.machine.Reach R.con C C')
    (hrefl : ∀ s, R.inv s → R.guar s s)
    (htrans : ∀ s t u, R.inv s → R.inv t → R.inv u → R.guar s t → R.guar t u → R.guar s u) :
    R.guar C.shared C'.shared := by
  induction hr with
  | refl => exact hrefl _ h.inv
  | tail hr hs ih =>
      have hmid := h.reach hR hr
      obtain ⟨hlast, hg⟩ := hmid.step hR hs
      exact htrans _ _ _ h.inv hmid.inv hlast.inv ih hg

/-- What a finished process promised holds now, and in every later state. -/
theorem Good.result (h : R.Good Q C) {i : Nat} {r : Except ε α}
    (hp : C.pool i = some (Prog.ofExcept r)) : Q i r C.shared := by
  obtain ⟨P, -, hPs, hsafe⟩ := h.pool i _ hp
  cases r with
  | ok a => exact hsafe _ h.inv hPs
  | error x => exact hsafe _ h.inv hPs

/-- A process may be given another outline on the way. -/
theorem Good.renew (h : R.Good Q C) {j : Nat} {A : Except ε α → σ → Prop}
    (hj : ∀ p, C.pool j = some p → ∃ P, R.Stable j P ∧ P C.shared ∧ R.Safe j p P A) :
    R.Good (Function.update Q j A) C := by
  refine ⟨h.inv, fun i p hp => ?_⟩
  by_cases hij : i = j
  · subst hij
    rw [Function.update_self]
    exact hj p hp
  · rw [Function.update_of_ne hij]
    exact h.pool i p hp

/-! ## One process under closer watch

Of one process `i` more may be known than its outline says: an assertion
`U` that the others cannot break and that its own steps keep. It becomes
part of the invariant, and the outlines of the others carry over. -/

/-- The same rules, with `U` in the invariant. -/
def watch (R : Spec S ε σ) (U : σ → Prop) : Spec S ε σ :=
  { R with inv := fun s => R.inv s ∧ U s }

variable {U : σ → Prop} {j : Nat}

theorem Stable.watch (h : R.Stable i P) : (R.watch U).Stable i P :=
  fun s s' hs hs' hc hg hr hp => h s s' hs.1 hs'.1 hc hg hr hp

theorem Owes.watch {s s' : σ} (h : R.Owes i s s') (hU : U s') : (R.watch U).Owes i s s' :=
  ⟨⟨h.inv, hU⟩, h.guar, h.rely⟩

theorem Safe.watch {p : Prog S ε α} {Q : Except ε α → σ → Prop} (hU : R.Stable i U)
    (hj : i ≠ j) (h : R.Safe j p P Q) : (R.watch U).Safe j p P Q := by
  induction p generalizing P with
  | ret a => exact fun s hs hp => h s hs.1 hp
  | throw x => exact fun s hs hp => h s hs.1 hp
  | op e k ih =>
      intro s c r s' hs hp hx hc
      obtain ⟨ho, P₁, hst, hp₁, hk⟩ := h s c r s' hs.1 hp hx hc
      exact ⟨ho.watch (hU s s' hs.1 ho.inv hc ho.guar (ho.rely i hj) hs.2), P₁, hst.watch, hp₁,
        ih r hk⟩

theorem Closed.watch (h : R.Closed) (hU : R.Stable i U)
    (hkill : ∀ s, R.inv s → U s → U (R.machine.kill i s)) : (R.watch U).Closed where
  env v s s' hs hx hc := by
    obtain ⟨hinv, hg, hr⟩ := h.env v s s' hs.1 hx hc
    exact ⟨⟨hinv, hU s s' hs.1 hinv hc hg (hr i) hs.2⟩, hg, hr⟩
  kill j s hs hc := by
    have ho := h.kill j s hs.1 hc
    refine ho.watch ?_
    by_cases hj : i = j
    · subst hj
      exact hkill s hs.1 hs.2
    · exact hU s _ hs.1 ho.inv hc ho.guar (ho.rely i hj) hs.2

theorem Good.watch (h : R.Good Q C) (hU : R.Stable i U) (hs : U C.shared)
    {Q₁ : Except ε α → σ → Prop}
    (hi : ∀ p, C.pool i = some p →
      ∃ P, (R.watch U).Stable i P ∧ P C.shared ∧ (R.watch U).Safe i p P Q₁) :
    (R.watch U).Good (Function.update Q i Q₁) C := by
  refine ⟨⟨h.inv, hs⟩, fun j p hp => ?_⟩
  by_cases hj : j = i
  · subst hj
    rw [Function.update_self]
    exact hi p hp
  · rw [Function.update_of_ne hj]
    obtain ⟨P, hst, hP, hsafe⟩ := h.pool j p hp
    exact ⟨P, hst.watch, hP, hsafe.watch hU (Ne.symm hj)⟩

end Spec

end Concurrent
