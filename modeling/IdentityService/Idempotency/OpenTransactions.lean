import IdentityService.Concurrent.Implementation
import IdentityService.Idempotency.WriteSets

/-!
# When a transaction is open

A process knows from its own statements whether it has a transaction open:
a statement opens one, a rollback or a commit that returned closes it.
`openFlow` keeps track of that, and lets a process call the hot store only
with no transaction open. Programs made of units of work keep to it, so none
of them waits for Valkey while it holds row locks, and whoever has ended has
no transaction open.
-/

namespace IdentityService

open Concurrent

variable {B : Business} {C : ResultCodec} {α β : Type}

/-- The calls of the hot store. -/
def Eff.isHot : Eff B → Bool
  | .hotBegin _ _ _ => true
  | .hotComplete _ _ _ => true
  | .hotAbandon _ _ => true
  | _ => false

/-- Whether a transaction may be open after an answer. -/
def opensNext (opened : Bool) : (e : Eff B) → Except Exn e.Resp → Bool
  | .db .commit, .ok _ => false
  | .db .commit, .error _ => true
  | .db .rollback, _ => false
  | .db _, _ => true
  | _, _ => opened

/-- Whether a process has a transaction open. -/
def openFlow (B : Business) : Flow (sig B) Exn where
  State := Bool
  start := false
  permits opened e := e.isHot = true → opened = false
  next := opensNext

/-! ## The account is right -/

section Account

variable {i : Nat} {opened : Bool} {w w' : World B C}

theorem Idle.of_store (h : Idle i w) (hs : w'.store = w.store) : Idle i w' :=
  ⟨hs ▸ h.staged, hs ▸ h.holder, hs ▸ h.seen⟩

theorem exec_idle {e : Eff B} {c : Choice B} {r : Except Exn e.Resp}
    (h : exec i e c w = some (r, w')) (hidle : opened = false → Idle i w)
    (hclosed : opensNext opened e r = false) : Idle i w' := by
  by_cases he : ∃ o, e = .db o
  · obtain ⟨o, rfl⟩ := he
    obtain ⟨f, st, hst, rfl⟩ := exec_db h
    cases o with
    | commit =>
      rcases StoreOp.exec_commit hst with ⟨x, -, rfl, -⟩ | ⟨-, rfl, rfl⟩ | ⟨x, -, rfl, -⟩
      · cases hclosed
      · exact idle_commit f
      · cases hclosed
    | rollback =>
      obtain ⟨rfl, -⟩ := StoreOp.exec_rollback hst
      exact idle_close f
    | _ => cases hclosed
  · have hnot : ∀ o, e ≠ .db o := fun o ho => he ⟨o, ho⟩
    refine (hidle ?_).of_store (exec_store hnot h)
    cases e with
    | db o => exact absurd rfl (hnot o)
    | _ => exact hclosed

/-- Where the account says that no transaction is open, none is. -/
structure RightlyClosed (P : Config (sig B) Exn (Traced (sig B) Exn (World B C)) α) : Prop where
  locked : P.shared.state.store.Locked
  idle : ∀ i p, P.pool i = some p → (openFlow B).after P.shared.trace i = false →
    Idle i P.shared.state

variable {P P' : Config (sig B) Exn (Traced (sig B) Exn (World B C)) α}

theorem RightlyClosed.step (h : RightlyClosed P) {l : (machine B C).traced.Label}
    (hl : (machine B C).traced.step P l = some P') : RightlyClosed P' := by
  rcases Machine.traced_step_cases hl with ⟨i, c, e, k, r, w, -, hp, hx, rfl⟩ |
    ⟨v, w, -, hv, rfl⟩ | ⟨i, e, k, -, hp, rfl⟩
  · obtain ⟨hlocked, hothers⟩ := exec_others h.locked hx
    refine ⟨hlocked, fun j p hj hclosed => ?_⟩
    by_cases hji : j = i
    · subst hji
      have hnext : opensNext ((openFlow B).after P.shared.trace j) e r = false :=
        ((openFlow B).after_append_self P.shared.trace ⟨j, e, r⟩).symm.trans hclosed
      exact exec_idle hx (h.idle j _ hp) hnext
    · have hbefore : (openFlow B).after P.shared.trace j = false :=
        ((openFlow B).after_append_ne P.shared.trace (e := ⟨i, e, r⟩) hji).symm.trans hclosed
      have hj : P.pool j = some p := (Function.update_of_ne hji _ _).symm.trans hj
      exact (h.idle j p hj hbefore).others (hothers j hji)
  · obtain ⟨hlocked, hothers⟩ := envStep_others h.locked hv
    exact ⟨hlocked, fun j p hj hclosed => (h.idle j p hj hclosed).others (hothers j)⟩
  · refine ⟨h.locked.close, fun j p hj hclosed => ?_⟩
    by_cases hji : j = i
    · subst hji
      have hgone : (none : Option (App B α)) = some p :=
        (Function.update_self j _ P.pool).symm.trans hj
      cases hgone
    · have hj : P.pool j = some p := (Function.update_of_ne hji _ _).symm.trans hj
      exact (h.idle j p hj hclosed).others ⟨Store.Keeps.close hji, rfl, rfl⟩

theorem RightlyClosed.reach
    {con : Traced (sig B) Exn (World B C) → Traced (sig B) Exn (World B C) → Prop}
    (h : RightlyClosed P) (hr : (machine B C).traced.Reach con P P') : RightlyClosed P' := by
  induction hr with
  | refl => exact h
  | tail _ hs ih =>
    obtain ⟨l, hl, -⟩ := hs
    exact ih.step hl

end Account

/-! ## Programs made of units of work -/

section Programs

/-- Whatever is asked for inside a unit of work, the hot store is not. -/
theorem rests_cold {e : Eff B} (h : e.isHot = false) :
    (openFlow B).Rests (fun _ => True) (ask e) := by
  refine Flow.rests_perform fun l _ => ⟨fun hhot => ?_, fun _ => trivial⟩
  rw [h] at hhot
  cases hhot

theorem rests_operation {γ : Type} (op : Operation B γ) :
    (openFlow B).Rests (fun _ => True) op.run := by
  induction op with
  | ret a => exact Flow.rests_ret a
  | throw x => exact Flow.rests_throw x
  | op e k ih =>
    have hcold : e.toEff.isHot = false := by cases e <;> rfl
    refine fun l _ => ⟨fun hhot => ?_, fun r => ih _ _ trivial⟩
    have hhot : e.toEff.isHot = true := hhot
    rw [hcold] at hhot
    cases hhot

/-- From here to the end, no transaction is left open. -/
def Closes {γ : Type} (p : App B γ) : Prop :=
  ∀ opened, (openFlow B).Follows p opened fun _ l => l = false

theorem closes_rollback : Closes (rollback (B := B)) := by
  refine fun opened => Flow.Follows.perform (fun h => by cases h) fun r => ?_
  cases r <;> rfl

theorem unwind_closes (error : Exn) : Closes (unwind (B := B) error) := by
  intro opened
  cases error with
  | database d =>
    refine (closes_rollback opened).attempt fun r l hl => ?_
    cases r with
    | ok a => exact hl
    | error x => cases x <;> exact hl
  | _ => exact (closes_rollback opened).bind (fun _ _ h => h) fun _ _ h => h

theorem aexit_closes (exc : Option Exn) : Closes (aexit (B := B) exc) := by
  intro opened
  cases exc with
  | none =>
    have hcommit : (openFlow B).Follows (commit (B := B)) opened fun r l =>
        r.isOk = true → l = false := by
      refine Flow.Follows.perform (fun h => by cases h) fun r hr => ?_
      cases r with
      | ok _ => rfl
      | error x => cases hr
    refine hcommit.attempt fun r l hl => ?_
    cases r with
    | ok _ => exact hl rfl
    | error x => exact unwind_closes x l
  | some x =>
    refine (closes_rollback opened).attempt fun r l hl => ?_
    cases r with
    | ok _ => cases x <;> exact hl
    | error y => exact unwind_closes y l

/-- **A unit of work** leaves no transaction open. -/
theorem uow_closes {γ : Type} {body : App B γ} (h : (openFlow B).Rests (fun _ => True) body) :
    Closes (uow body) := by
  refine fun opened => (h opened trivial).attempt fun r l _ => ?_
  cases r with
  | ok a => exact (aexit_closes none l).bind (fun _ _ h => h) fun _ _ h => h
  | error x => exact (aexit_closes (some x) l).bind (fun _ _ h => h) fun _ _ h => h

theorem Closes.rests {γ : Type} {p : App B γ} (h : Closes p) :
    (openFlow B).Rests (fun opened => opened = false) p := fun l _ => h l

/-- Between units of work any effect that is no statement is in order. -/
theorem rests_aside {e : Eff B} (he : ∀ o, e ≠ .db o) :
    (openFlow B).Rests (fun opened => opened = false) (ask e) := by
  refine Flow.rests_perform fun l hl => ⟨fun _ => hl, fun r => ?_⟩
  cases e with
  | db o => exact absurd rfl (he o)
  | _ => exact hl

variable {identity : IdempotencyIdentity} {requestHash : Digest} {retention : Retention}

theorem rests_getCompleted : (openFlow B).Rests (fun _ => True) (getCompleted identity) := by
  have hread : (openFlow B).Rests (fun _ => True) (read (B := B) (.record identity)) :=
    rests_cold rfl
  refine hread.bind fun row => ?_
  cases row with
  | none => exact Flow.rests_ret _
  | some row =>
    have hclock : (openFlow B).Rests (fun _ => True) (utcNow (B := B)) := rests_cold rfl
    refine hclock.bind fun now => ?_
    show (openFlow B).Rests (fun _ => True) (if row.expiresAt ≤ now then pure none else _)
    split
    · exact Flow.rests_ret _
    · exact Flow.rests_ret _

theorem rests_fencedBody (operation : Operation B StoredResult) :
    (openFlow B).Rests (fun _ => True) (do
      let stored ← operation.run
      let completed : CompletedIdempotencyResult := { stored with requestHash := requestHash }
      let added ← tryAddCompleted retention identity completed
      if !added then throw .concurrentWinnerCommitted
      pure completed : App B CompletedIdempotencyResult) := by
  refine (rests_operation operation).bind fun stored => ?_
  have hadd : ∀ completed, (openFlow B).Rests (fun _ => True)
      (tryAddCompleted (B := B) retention identity completed) := fun completed =>
    Flow.Rests.bind (rests_cold (e := .now) rfl) fun now => rests_cold rfl
  refine (hadd _).bind fun added => ?_
  cases added with
  | false => exact Flow.rests_throw _
  | true => exact Flow.rests_ret _

/-- The idempotency layer is in order. -/
theorem between_openFlow (operation : Operation B StoredResult) :
    Between (openFlow B) (fun opened => opened = false) retention identity requestHash
      operation where
  aside := rests_aside
  lookup := (uow_closes rests_getCompleted).rests.bind fun existing => by
    cases existing with
    | none => exact Flow.rests_ret _
    | some completed => exact Flow.rests_ret _
  fenced := (uow_closes (rests_fencedBody operation)).rests

end Programs

/-! ## Runs -/

section Runs

variable {P₀ P : Config (sig B) Exn (World B C) α}

/-- A pool in which no transaction is open, of programs made of units of
work. -/
structure UnitsOfWork (P₀ : Config (sig B) Exn (World B C) α) : Prop where
  locked : P₀.shared.store.Locked
  idle : ∀ i p, P₀.pool i = some p → Idle i P₀.shared
  rests : ∀ i p, P₀.pool i = some p → (openFlow B).Rests (fun opened => opened = false) p

variable {R : Config (sig B) Exn (Traced (sig B) Exn (World B C)) α}

theorem UnitsOfWork.kept (h : UnitsOfWork P₀)
    (hr : (machine B C).traced.Reach (fun _ _ => True) ⟨⟨P₀.shared, []⟩, P₀.pool⟩ R) :
    RightlyClosed R ∧ (openFlow B).Kept (fun _ _ l => l = false) R := by
  have hright : RightlyClosed ⟨⟨P₀.shared, []⟩, P₀.pool⟩ :=
    ⟨h.locked, fun i p hp _ => h.idle i p hp⟩
  have hkept : (openFlow B).Kept (fun _ _ l => l = false) ⟨⟨P₀.shared, []⟩, P₀.pool⟩ :=
    fun i p hp => h.rests i p hp false rfl
  exact ⟨hright.reach hr, Flow.follows_reach hkept hr⟩

/-- By its own account nobody waits for the hot store with a transaction
open. This also counts a transaction whose statements found nothing to lock,
which leaves no trace in the store. -/
theorem UnitsOfWork.hot_closed (h : UnitsOfWork P₀)
    (hr : (machine B C).traced.Reach (fun _ _ => True) ⟨⟨P₀.shared, []⟩, P₀.pool⟩ R) {i : Nat}
    {e : Eff B} {k : Except Exn e.Resp → App B α} (hp : R.pool i = some (.op e k))
    (he : e.isHot = true) : (openFlow B).after R.shared.trace i = false :=
  (h.kept hr).2.permits hp he

/-- By its own account nobody has ended with a transaction open. -/
theorem UnitsOfWork.ended_closed (h : UnitsOfWork P₀)
    (hr : (machine B C).traced.Reach (fun _ _ => True) ⟨⟨P₀.shared, []⟩, P₀.pool⟩ R) {i : Nat}
    {p : App B α} (hp : R.pool i = some p) (hended : p.Ended) :
    (openFlow B).after R.shared.trace i = false := by
  have hkept := (h.kept hr).2
  cases p with
  | ret a => exact hkept i _ hp
  | throw x => exact hkept i _ hp
  | op e k => exact hended.elim

/-- **Nobody waits for the hot store with a transaction open.** -/
theorem UnitsOfWork.hot_outside (h : UnitsOfWork P₀)
    (hr : (machine B C).Reach (fun _ _ => True) P₀ P) {i : Nat} {e : Eff B}
    {k : Except Exn e.Resp → App B α} (hp : P.pool i = some (.op e k)) (he : e.isHot = true) :
    Idle i P.shared := by
  obtain ⟨trace, hr⟩ := Machine.reach_traced hr []
  exact (h.kept hr).1.idle i _ hp (h.hot_closed hr hp he)

/-- Whoever has ended has no transaction open. -/
theorem UnitsOfWork.ended_idle (h : UnitsOfWork P₀)
    (hr : (machine B C).Reach (fun _ _ => True) P₀ P) {i : Nat} {p : App B α}
    (hp : P.pool i = some p) (hended : p.Ended) : Idle i P.shared := by
  obtain ⟨trace, hr⟩ := Machine.reach_traced hr []
  exact (h.kept hr).1.idle i p hp (h.ended_closed hr hp hended)

end Runs

end IdentityService
