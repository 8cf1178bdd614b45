import IdentityService.Concurrent.Prog

/-!
# Two machines on a common part

Two systems that share part of their state (a table that one of them fills
and the other works off) are modelled one at a time, each with the other as
part of its outside. `Coupling` puts them together. A step of either is, for
the other, a step of its outside or nothing at all; so a joint run is a run
of each, and what holds of every run of one holds in the joint system.
-/

namespace Concurrent

variable {S T : Sig} {ε δ σ τ α β : Type}

/-- What a step can make of the shared state, with the outside held to the
steps `own` admits. -/
inductive Machine.Moves (M : Machine S ε σ) (own : M.Env → Bool) (s : σ) : σ → Prop where
  | exec {i : Nat} {e : S.Op} {c : M.Choice} {r : Except ε (S.Resp e)} {s' : σ}
      (h : M.exec i e c s = some (r, s')) : Moves M own s s'
  | env {v : M.Env} {s' : σ} (hown : own v = true) (h : M.env v s = some s') : Moves M own s s'
  | kill (i : Nat) : Moves M own s (M.kill i s)

/-- The labels of a machine whose outside is held to `own`. -/
def Machine.Label.admitted {M : Machine S ε σ} (own : M.Env → Bool) : M.Label → Bool
  | .env v => own v
  | _ => true

theorem Machine.moves_of_step {M : Machine S ε σ} {own : M.Env → Bool} {C C' : Config S ε σ α}
    {l : M.Label} (h : M.step C l = some C') (hown : l.admitted own = true) :
    M.Moves own C.shared C'.shared := by
  rcases Machine.step_cases h with ⟨i, c, e, k, r, s, rfl, -, hx, rfl⟩ | ⟨v, s, rfl, hv, rfl⟩ |
    ⟨i, e, k, rfl, -, rfl⟩
  · exact .exec hx
  · exact .env hown hv
  · exact .kill i

/-- How two machines are put together. The outside steps of `M` that stand
for `N` are not `left`, those of `N` that stand for `M` are not `right`;
`tell` and `hear` carry a step of one into the state of the other. -/
structure Coupling (M : Machine S ε σ) (N : Machine T δ τ) where
  left : M.Env → Bool
  right : N.Env → Bool
  tell : σ → τ → τ
  hear : τ → σ → σ
  agree : σ → τ → Prop
  tells : ∀ {s t s'}, agree s t → M.Moves left s s' →
    agree s' (tell s' t) ∧ (tell s' t = t ∨ ∃ v, N.env v t = some (tell s' t))
  hears : ∀ {s t t'}, agree s t → N.Moves right t t' →
    agree (hear t' s) t' ∧ (hear t' s = s ∨ ∃ v, M.env v s = some (hear t' s))

namespace Coupling

variable {M : Machine S ε σ} {N : Machine T δ τ} (K : Coupling M N)

/-- A step of the one or of the other, and what the other learns of it. -/
def step (J : Config S ε σ α × Config T δ τ β) :
    M.Label ⊕ N.Label → Option (Config S ε σ α × Config T δ τ β)
  | .inl l =>
    if l.admitted K.left then
      (M.step J.1 l).map fun C => (C, ⟨K.tell C.shared J.2.shared, J.2.pool⟩)
    else none
  | .inr l =>
    if l.admitted K.right then
      (N.step J.2 l).map fun D => (⟨K.hear D.shared J.1.shared, J.1.pool⟩, D)
    else none

/-- Runs of the coupled machines. -/
def Reach : Config S ε σ α × Config T δ τ β → Config S ε σ α × Config T δ τ β → Prop :=
  Relation.ReflTransGen fun J J' => ∃ l, K.step J l = some J'

/-- A joint schedule. -/
def run (J : Config S ε σ α × Config T δ τ β) (ls : List (M.Label ⊕ N.Label)) :
    Option (Config S ε σ α × Config T δ τ β) :=
  ls.foldlM K.step J

theorem reach_of_run (ls : List (M.Label ⊕ N.Label)) {J J' : Config S ε σ α × Config T δ τ β}
    (h : K.run J ls = some J') : K.Reach J J' := by
  induction ls generalizing J with
  | nil =>
    cases h
    exact .refl
  | cons l ls ih =>
    simp only [run, List.foldlM_cons, Option.bind_eq_bind, Option.bind_eq_some_iff] at h
    obtain ⟨J₁, h₁, h₂⟩ := h
    exact .head ⟨l, h₁⟩ (ih h₂)

variable {K} {J J' : Config S ε σ α × Config T δ τ β}

/-- Everything a joint step can do. -/
theorem step_cases {l : M.Label ⊕ N.Label} (h : K.step J l = some J') :
    (∃ l C, M.step J.1 l = some C ∧ M.Moves K.left J.1.shared C.shared ∧
      J' = (C, ⟨K.tell C.shared J.2.shared, J.2.pool⟩)) ∨
    ∃ l D, N.step J.2 l = some D ∧ N.Moves K.right J.2.shared D.shared ∧
      J' = (⟨K.hear D.shared J.1.shared, J.1.pool⟩, D) := by
  cases l with
  | inl l =>
    simp only [step] at h
    split at h
    · rename_i hown
      obtain ⟨C, hC, rfl⟩ := Option.map_eq_some_iff.mp h
      exact .inl ⟨l, C, hC, Machine.moves_of_step hC hown, rfl⟩
    · cases h
  | inr l =>
    simp only [step] at h
    split at h
    · rename_i hown
      obtain ⟨D, hD, rfl⟩ := Option.map_eq_some_iff.mp h
      exact .inr ⟨l, D, hD, Machine.moves_of_step hD hown, rfl⟩
    · cases h

/-- An outside step, or none, is a run. -/
theorem reach_of_outside {C : Config S ε σ α} {s : σ}
    (h : s = C.shared ∨ ∃ v, M.env v C.shared = some s) :
    M.Reach (fun _ _ => True) C ⟨s, C.pool⟩ := by
  rcases h with rfl | ⟨v, hv⟩
  · exact .refl
  · exact .single ⟨.env v, by simp [Machine.step, hv], trivial⟩

/-- Joint runs are runs of both, and the two sides agree throughout. -/
theorem Reach.both (hagree : K.agree J.1.shared J.2.shared) (h : K.Reach J J') :
    K.agree J'.1.shared J'.2.shared ∧ M.Reach (fun _ _ => True) J.1 J'.1 ∧
      N.Reach (fun _ _ => True) J.2 J'.2 := by
  induction h with
  | refl => exact ⟨hagree, .refl, .refl⟩
  | tail _ hs ih =>
    obtain ⟨l, hl⟩ := hs
    obtain ⟨hnow, hleft, hright⟩ := ih
    rcases step_cases hl with ⟨l, C, hC, hmoves, rfl⟩ | ⟨l, D, hD, hmoves, rfl⟩
    · obtain ⟨hnext, hout⟩ := K.tells hnow hmoves
      exact ⟨hnext, hleft.tail ⟨l, hC, trivial⟩, hright.trans (reach_of_outside hout)⟩
    · obtain ⟨hnext, hout⟩ := K.hears hnow hmoves
      exact ⟨hnext, hleft.trans (reach_of_outside hout), hright.tail ⟨l, hD, trivial⟩⟩

end Coupling

end Concurrent
