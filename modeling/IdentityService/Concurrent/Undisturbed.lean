import IdentityService.Concurrent.Prog
import Mathlib.Data.Finset.Insert

/-!
# What must come of undisturbed runs

`Inevitable step P c` is total correctness of a transition system: however
one goes on from `c`, one gets to `P`, without getting stuck before and
without going on for ever.

`Machine.Surely` is the same for the program of one process, stated between
two awaits: whatever the others do, as long as they keep to `rely`, and
whatever fair answer the outside gives, the program never has to wait, comes
to an end, ends as `Q` says and keeps to `guar` itself.

A program is a tree, so no finite set of processes can advance for ever:
that is `Machine.advances_acc`.
-/

namespace Concurrent

/-! ## Inevitability -/

section Inevitable

variable {γ : Type} {step : γ → γ → Prop} {P Q I : γ → Prop} {c : γ}

/-- Every maximal run from `c` passes a state with `P`. -/
inductive Inevitable (step : γ → γ → Prop) (P : γ → Prop) : γ → Prop where
  | now {c : γ} (h : P c) : Inevitable step P c
  | later {c : γ} (hgoes : ∃ c', step c c') (hnext : ∀ c', step c c' → Inevitable step P c') :
    Inevitable step P c

theorem Inevitable.reaches (h : Inevitable step P c) :
    ∃ c', Relation.ReflTransGen step c c' ∧ P c' := by
  induction h with
  | now h => exact ⟨_, .refl, h⟩
  | later hgoes _ ih =>
    obtain ⟨c₁, hs⟩ := hgoes
    obtain ⟨c', hr, hP⟩ := ih c₁ hs
    exact ⟨c', .head hs hr, hP⟩

/-- One after the other. -/
theorem Inevitable.trans (h : Inevitable step P c) (hPQ : ∀ c, P c → Inevitable step Q c) :
    Inevitable step Q c := by
  induction h with
  | now h => exact hPQ _ h
  | later hgoes _ ih => exact .later hgoes ih

theorem Inevitable.mono (h : Inevitable step P c) (hPQ : ∀ c, P c → Q c) :
    Inevitable step Q c :=
  h.trans fun c hP => .now (hPQ c hP)

/-- What one gets to is reached by steps. -/
theorem Inevitable.reached (h : Inevitable step P c) :
    Inevitable step (fun c' => P c' ∧ Relation.ReflTransGen step c c') c := by
  induction h with
  | now h => exact .now ⟨h, .refl⟩
  | later hgoes _ ih =>
    refine .later hgoes fun c₁ hs => (ih c₁ hs).mono ?_
    rintro c' ⟨hP, hr⟩
    exact ⟨hP, .head hs hr⟩

/-- The rule: until `P`, the invariant lets something happen and survives
whatever does. -/
theorem inevitable_of_invariant
    (hstep : ∀ c, I c → P c ∨ (∃ c', step c c') ∧ ∀ c', step c c' → P c' ∨ I c')
    (hacc : Acc (fun c' c => step c c') c) (h : I c) : Inevitable step P c := by
  induction hacc with
  | intro c _ ih =>
    rcases hstep c h with hP | ⟨hgoes, hnext⟩
    · exact .now hP
    · refine .later hgoes fun c' hs => ?_
      rcases hnext c' hs with hP | hInv
      · exact .now hP
      · exact ih c' hs hInv

end Inevitable

namespace Machine

variable {S : Sig} {ε σ α β : Type} {M : Machine S ε σ}

/-! ## Pools advance -/

/-- A process of `J` has been given an answer. -/
def Advances (J : Finset Nat) (pool' pool : Nat → Option (Prog S ε α)) : Prop :=
  ∃ j ∈ J, ∃ e k r, pool j = some (.op e k) ∧ pool' = Function.update pool j (some (k r))

/-- **Finitely many processes come to an end.** By induction on the set, and
for a new member on its program: its own moves leave less of it, and between
two of them the others can only do so much. -/
theorem advances_acc (J : Finset Nat) (pool : Nat → Option (Prog S ε α)) :
    Acc (Advances J) pool := by
  induction J using Finset.induction_on generalizing pool with
  | empty =>
    refine .intro _ ?_
    rintro pool' ⟨j, hj, -⟩
    simp at hj
  | insert j J hj ih =>
    have between : ∀ pool : Nat → Option (Prog S ε α),
        (∀ pool' e k r, pool j = some (.op e k) → pool' j = some (k r) →
          Acc (Advances (insert j J)) pool') → Acc (Advances (insert j J)) pool := by
      intro pool hown
      induction ih pool with
      | intro pool _ ihpool =>
        refine .intro _ ?_
        rintro _ ⟨j', hj', e, k, r, hp, rfl⟩
        rcases Finset.mem_insert.mp hj' with rfl | hmem
        · exact hown _ e k r hp (Function.update_self ..)
        · have hne : j ≠ j' := fun heq => hj (heq ▸ hmem)
          refine ihpool _ ⟨j', hmem, e, k, r, hp, rfl⟩ fun pool' e' k' r' hp' => ?_
          rw [Function.update_of_ne hne] at hp'
          exact hown pool' e' k' r' hp'
    have hprogram : ∀ (p : Prog S ε α) (pool : Nat → Option (Prog S ε α)), pool j = some p →
        Acc (Advances (insert j J)) pool := by
      intro p
      induction p with
      | ret a =>
        intro pool hp
        refine between pool fun _ e k r hp' => ?_
        rw [hp] at hp'
        cases hp'
      | throw x =>
        intro pool hp
        refine between pool fun _ e k r hp' => ?_
        rw [hp] at hp'
        cases hp'
      | op e k ihk =>
        intro pool hp
        refine between pool fun pool' e' k' r hp' hnext => ?_
        rw [hp] at hp'
        cases hp'
        exact ihk r pool' hnext
    cases hp : pool j with
    | some p => exact hprogram p pool hp
    | none =>
      refine between pool fun _ e k r hp' => ?_
      rw [hp] at hp'
      cases hp'

/-- What an undisturbed run consists of: who moves, which answers are fair to
them, and what may go by before an answer. -/
structure Calm (M : Machine S ε σ) where
  moves : Nat → Prop
  fair : Nat → M.Choice → Prop
  between : σ → σ → Prop

namespace Calm

variable {K : M.Calm} {C C' : Config S ε σ α}

/-- One step of an undisturbed run. -/
def Step (K : M.Calm) (C C' : Config S ε σ α) : Prop :=
  ∃ j c e k s r s', K.moves j ∧ K.fair j c ∧ C.pool j = some (.op e k) ∧ K.between C.shared s ∧
    M.exec j e c s = some (r, s') ∧ C' = ⟨s', Function.update C.pool j (some (k r))⟩

theorem step_acc {J : Finset Nat} (hJ : ∀ j, K.moves j → j ∈ J) (C : Config S ε σ α) :
    Acc (fun C' C => K.Step C C') C := by
  refine Subrelation.accessible ?_ (InvImage.accessible Config.pool (advances_acc J C.pool))
  rintro _ _ ⟨j, c, e, k, s, r, s', hj, -, hp, -, -, rfl⟩
  exact ⟨j, hJ j hj, e, k, r, hp, rfl⟩

end Calm

/-! ## One process among others -/

/-- The terms on which a process runs: the answers it gets, what the others
do meanwhile, and what it does to them. -/
structure Terms (M : Machine S ε σ) where
  fair : M.Choice → Prop
  rely : σ → σ → Prop
  guar : σ → σ → Prop

/-- On these terms, process `i` must run `p` from `s` to an end with `Q`. -/
def Surely (T : M.Terms) (i : Nat) (Q : Except ε α → σ → Prop) : Prog S ε α → σ → Prop
  | .ret a, s => Q (.ok a) s
  | .throw x, s => Q (.error x) s
  | .op e k, s => ∀ s₁, T.rely s s₁ →
    (∃ c out, T.fair c ∧ M.exec i e c s₁ = some out) ∧
    ∀ c r s₂, T.fair c → M.exec i e c s₁ = some (r, s₂) → T.guar s₁ s₂ ∧ Surely T i Q (k r) s₂

/-- A value with `A`, and no exception. -/
def Gives (A : α → σ → Prop) : Except ε α → σ → Prop
  | .ok a => A a
  | .error _ => fun _ => False

/-- From every state with `P`, process `i` must run `p` to an end with `Q`. -/
def Brings (T : M.Terms) (i : Nat) (P : σ → Prop) (p : Prog S ε α) (Q : Except ε α → σ → Prop) :
    Prop :=
  ∀ s, P s → Surely T i Q p s

section Rules

variable {T : M.Terms} {i : Nat} {P : σ → Prop} {p : Prog S ε α} {Q : Except ε α → σ → Prop}
  {R : Except ε β → σ → Prop} {A : α → σ → Prop} {s s' : σ}

/-- The others do not break it. -/
def Terms.Stable (T : M.Terms) (P : σ → Prop) : Prop := ∀ s s', P s → T.rely s s' → P s'

theorem Surely.mono {Q' : Except ε α → σ → Prop} (h : Surely T i Q p s)
    (hQ : ∀ r s, Q r s → Q' r s) : Surely T i Q' p s := by
  induction p generalizing s with
  | ret a => exact hQ _ s h
  | throw x => exact hQ _ s h
  | op e k ih =>
    intro s₁ hs₁
    obtain ⟨hgoes, hnext⟩ := h s₁ hs₁
    refine ⟨hgoes, fun c r s₂ hc hx => ?_⟩
    obtain ⟨hguar, hrest⟩ := hnext c r s₂ hc hx
    exact ⟨hguar, ih r hrest⟩

theorem Surely.bind {f : α → Prog S ε β} (h : Surely T i Q p s)
    (hok : ∀ a s, Q (.ok a) s → Surely T i R (f a) s)
    (herror : ∀ x s, Q (.error x) s → R (.error x) s) : Surely T i R (p.bind f) s := by
  induction p generalizing s with
  | ret a => exact hok a s h
  | throw x => exact herror x s h
  | op e k ih =>
    intro s₁ hs₁
    obtain ⟨hgoes, hnext⟩ := h s₁ hs₁
    refine ⟨hgoes, fun c r s₂ hc hx => ?_⟩
    obtain ⟨hguar, hrest⟩ := hnext c r s₂ hc hx
    exact ⟨hguar, ih r hrest⟩

theorem Surely.outcome (h : Surely T i (Gives A) p s) :
    Surely T i (Gives fun r s => ∃ a, r = .ok a ∧ A a s) p.outcome s := by
  induction p generalizing s with
  | ret a => exact ⟨a, rfl, h⟩
  | throw x => exact h.elim
  | op e k ih =>
    intro s₁ hs₁
    obtain ⟨hgoes, hnext⟩ := h s₁ hs₁
    refine ⟨hgoes, fun c r s₂ hc hx => ?_⟩
    obtain ⟨hguar, hrest⟩ := hnext c r s₂ hc hx
    exact ⟨hguar, ih r hrest⟩

/-- What the others do changes nothing about it. -/
theorem Surely.meanwhile (htrans : ∀ s₁ s₂ s₃, T.rely s₁ s₂ → T.rely s₂ s₃ → T.rely s₁ s₃)
    (hQ : ∀ r, T.Stable (Q r)) (h : Surely T i Q p s) (hs : T.rely s s') :
    Surely T i Q p s' := by
  cases p with
  | ret a => exact hQ _ s s' h hs
  | throw x => exact hQ _ s s' h hs
  | op e k => exact fun s₁ hs₁ => h s₁ (htrans _ _ _ hs hs₁)

theorem Brings.andThen {f : α → Prog S ε β} (h : Brings T i P p (Gives A))
    (hf : ∀ a, Brings T i (A a) (f a) R) : Brings T i P (p.bind f) R :=
  fun s hs => (h s hs).bind (fun a s₁ ha => hf a s₁ ha) fun _ _ hx => hx.elim

/-- `try p`, where `p` raises nothing. -/
theorem Brings.attempt {f : Except ε α → Prog S ε β} (h : Brings T i P p (Gives A))
    (hf : ∀ a, Brings T i (A a) (f (.ok a)) R) : Brings T i P (p.outcome.bind f) R := by
  intro s hs
  refine (h s hs).outcome.bind (fun r s₁ hr => ?_) fun _ _ hx => hx.elim
  obtain ⟨a, rfl, ha⟩ := hr
  exact hf a s₁ ha

/-- A pure part of the precondition. -/
theorem Brings.given {φ : Prop} (h : φ → Brings T i P p Q) :
    Brings T i (fun s => φ ∧ P s) p Q :=
  fun s hs => h hs.1 s hs.2

theorem Brings.perform {e : S.Op} {A : S.Resp e → σ → Prop} (hP : T.Stable P)
    (hgoes : ∀ s, P s → ∃ c out, T.fair c ∧ M.exec i e c s = some out)
    (h : ∀ s c r s', P s → T.fair c → M.exec i e c s = some (r, s') →
      T.guar s s' ∧ Gives A r s') : Brings T i P (Prog.perform e) (Gives A) := by
  intro s hs s₁ hs₁
  have hp := hP s s₁ hs hs₁
  refine ⟨hgoes s₁ hp, fun c r s₂ hc hx => ?_⟩
  obtain ⟨hguar, hr⟩ := h s₁ c r s₂ hp hc hx
  cases r with
  | ok a => exact ⟨hguar, hr⟩
  | error x => exact hr.elim

end Rules

/-- **A process that moves alone comes to its end**: the other movers are
blocked as long as `B` holds, which is so until the first part of the
program is over. -/
theorem Surely.inevitable {K : M.Calm} {T : M.Terms} {i : Nat} {Q : Except ε α → σ → Prop}
    {B : σ → Prop} {p : Prog S ε α} {f : α → Prog S ε β} {C : Config S ε σ β}
    (h : Surely T i Q p C.shared) (hi : C.pool i = some (p.bind f)) (hmoves : K.moves i)
    (hfair : ∀ c, K.fair i c ↔ T.fair c) (hstart : B C.shared)
    (hnow : ∀ s, B s → K.between s s)
    (hbetween : ∀ s s', B s → K.between s s' → B s' ∧ T.rely s s')
    (hguar : ∀ s s', B s → T.guar s s' → B s')
    (hblocked : ∀ j e k c s, K.moves j → j ≠ i → C.pool j = some (.op e k) → K.fair j c → B s →
      M.exec j e c s = none) :
    Inevitable K.Step (fun C' => (∃ r, Q r C'.shared ∧
      C'.pool i = some ((Prog.ofExcept r).bind f)) ∧ B C'.shared ∧
      ∀ j, j ≠ i → C'.pool j = C.pool j) C := by
  induction p generalizing C with
  | ret a => exact .now ⟨⟨_, h, hi⟩, hstart, fun _ _ => rfl⟩
  | throw x => exact .now ⟨⟨_, h, hi⟩, hstart, fun _ _ => rfl⟩
  | op e k ih =>
    have hop : C.pool i = some (.op e fun r => (k r).bind f) := hi
    refine .later ?_ ?_
    · have hs := hnow C.shared hstart
      obtain ⟨⟨c, ⟨r, s'⟩, hc, hx⟩, -⟩ := h C.shared (hbetween _ _ hstart hs).2
      exact ⟨_, i, c, e, _, C.shared, r, s', hmoves, (hfair c).mpr hc, hop, hs, hx, rfl⟩
    · rintro _ ⟨j, c, e', k', s, r, s', hj, hc, hp, hs, hx, rfl⟩
      obtain ⟨hB, hrely⟩ := hbetween _ _ hstart hs
      by_cases hji : j = i
      · subst hji
        rw [hop] at hp
        cases hp
        obtain ⟨hown, hrest⟩ := (h s hrely).2 c r s' ((hfair c).mp hc) hx
        refine (ih r (C := ⟨s', Function.update C.pool j (some ((k r).bind f))⟩) hrest
          (Function.update_self ..) (hguar _ _ hB hown) ?_).trans ?_
        · intro j' e' k' c' s₁ hj' hne hp'
          simp only [Function.update_of_ne hne] at hp'
          exact hblocked j' e' k' c' s₁ hj' hne hp'
        · rintro C' ⟨hend, hB', hothers⟩
          refine .now ⟨hend, hB', fun j' hne => ?_⟩
          exact (hothers j' hne).trans (Function.update_of_ne hne _ _)
      · rw [hblocked j e' k' c s hj hji hp hc hB] at hx
        cases hx

end Machine

end Concurrent
