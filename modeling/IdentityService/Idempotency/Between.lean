import IdentityService.Concurrent.Flow
import IdentityService.Idempotency.Coordinator

/-!
# Between units of work

Whatever account of a process's effects is kept (a `Flow`), the idempotency
layer has two places where it opens a transaction: the lookup of a committed
result, and the fenced transaction. If these two leave the account as they
should between units of work, and effects other than statements keep it so,
then so does all of `IdempotencyCoordinator.execute`.
-/

namespace IdentityService

open Concurrent

variable {B : Business} {F : Flow (sig B) Exn} {rest : F.State → Prop}
  {retention : Retention} {identity : IdempotencyIdentity} {requestHash : Digest}
  {operation : Operation B StoredResult}

/-- The account `F` is in order, at `rest`, between units of work. -/
structure Between (F : Flow (sig B) Exn) (rest : F.State → Prop) (retention : Retention)
    (identity : IdempotencyIdentity) (requestHash : Digest) (operation : Operation B StoredResult) :
    Prop where
  aside : ∀ {e : Eff B}, (∀ o, e ≠ .db o) → F.Rests rest (ask e)
  lookup : F.Rests rest (findExisting identity requestHash)
  fenced : F.Rests rest (fencedTransaction retention identity requestHash operation)

namespace Between

variable (h : Between F rest retention identity requestHash operation)

include h

theorem afterFailure (error : Exn) :
    F.Rests rest (IdentityService.afterFailure (B := B) identity requestHash error) := by
  refine h.lookup.attempt fun r => ?_
  cases r with
  | error lookupError =>
    show F.Rests rest (if lookupError.isException then _ else _)
    split
    · exact Flow.rests_throw _
    · exact Flow.rests_throw _
  | ok found =>
    cases found with
    | none => exact Flow.rests_throw _
    | some winner => exact Flow.rests_ret _

theorem executeOnce :
    F.Rests rest (IdentityService.executeOnce retention identity requestHash operation) := by
  refine h.lookup.bind fun existing => ?_
  cases existing with
  | some existing => exact Flow.rests_ret _
  | none =>
    refine h.fenced.attempt fun settled => ?_
    cases settled with
    | ok completed => exact Flow.rests_ret _
    | error x =>
      by_cases hx : x = .concurrentWinnerCommitted
      · subst hx
        refine h.lookup.bind fun found => ?_
        cases found with
        | none => exact Flow.rests_throw _
        | some winner => exact Flow.rests_ret _
      · rw [afterTransaction_error identity requestHash hx]
        split
        · exact h.afterFailure x
        · exact Flow.rests_throw _

theorem tolerate (stage : String) {call : App B Bool} (hcall : F.Rests rest call) :
    F.Rests rest (IdentityService.tolerate stage call) := by
  refine hcall.attempt fun r => ?_
  cases r with
  | ok _ => exact Flow.rests_ret _
  | error x =>
    cases x with
    | idempotencyStorageUnavailable => exact h.aside fun o ho => by cases ho
    | _ => exact Flow.rests_throw _

theorem observe (result : ExecutionResult) :
    F.Rests rest (IdentityService.observe (B := B) result) :=
  (h.aside fun o ho => by cases ho).bind fun _ => Flow.rests_ret _

theorem releaseAndRaise (ownerToken : Uuid) (error : Exn) :
    F.Rests rest (IdentityService.releaseAndRaise (B := B) identity ownerToken error) := by
  have hbeat : F.Rests rest (ask (B := B) (.heartbeat identity ownerToken)) :=
    h.aside fun o ho => by cases ho
  refine hbeat.bind fun lost => ?_
  cases lost with
  | true => exact Flow.rests_throw _
  | false =>
    have hcall : F.Rests rest (ask (B := B) (.hotAbandon identity ownerToken)) :=
      h.aside fun o ho => by cases ho
    exact (h.tolerate "abandon" hcall).bind fun _ => Flow.rests_throw _

theorem publish (ownerToken : Uuid) (result : ExecutionResult) :
    F.Rests rest (IdentityService.publish (B := B) identity ownerToken result) := by
  have hbeat : F.Rests rest (ask (B := B) (.heartbeat identity ownerToken)) :=
    h.aside fun o ho => by cases ho
  refine hbeat.bind fun lost => ?_
  cases lost with
  | true => exact (h.aside fun o ho => by cases ho).bind fun _ => h.observe result
  | false =>
    obtain ⟨outcome, completed, decision⟩ := result
    cases completed with
    | none =>
      have hcall : F.Rests rest (ask (B := B) (.hotAbandon identity ownerToken)) :=
        h.aside fun o ho => by cases ho
      exact (h.tolerate "abandon" hcall).bind fun _ => h.observe _
    | some c =>
      have hcall : F.Rests rest (ask (B := B) (.hotComplete identity ownerToken c)) :=
        h.aside fun o ho => by cases ho
      exact (h.tolerate "complete" hcall).bind fun _ => h.observe _

theorem executeDegraded (stage : String) :
    F.Rests rest
      (IdentityService.executeDegraded stage retention identity requestHash operation) :=
  (h.aside fun o ho => by cases ho).bind fun _ => h.executeOnce.bind fun _ => h.observe _

/-- The coordinator adds no transactions of its own. -/
theorem coordinatorExecute (hotStore : Bool) (leaseSeconds : Int) :
    F.Rests rest (IdentityService.coordinatorExecute hotStore retention identity requestHash
      operation leaseSeconds) := by
  simp only [IdentityService.coordinatorExecute]
  split
  · exact Flow.rests_throw _
  cases hotStore with
  | false => exact h.executeDegraded "disabled"
  | true =>
    have htoken : F.Rests rest (ask (B := B) .ownerToken) := h.aside fun o ho => by cases ho
    refine htoken.bind fun ownerToken => ?_
    have hbegin : F.Rests rest (ask (B := B) (.hotBegin identity requestHash ownerToken)) :=
      h.aside fun o ho => by cases ho
    refine hbegin.attempt fun begun => ?_
    rcases begun with x | ⟨action, completed, decision⟩
    · cases x with
      | idempotencyStorageUnavailable => exact h.executeDegraded "begin"
      | _ => exact Flow.rests_throw _
    cases action with
    | acquired =>
      refine h.executeOnce.attempt fun r => ?_
      cases r with
      | error x => exact h.releaseAndRaise ownerToken x
      | ok result => exact h.publish ownerToken result
    | replay => exact h.observe _
    | conflict => exact h.observe _
    | inProgress =>
      refine h.lookup.bind fun found => ?_
      cases found with
      | none => exact h.observe _
      | some result => exact h.observe _

end Between

end IdentityService
