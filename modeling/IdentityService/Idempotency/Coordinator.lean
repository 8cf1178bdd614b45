import IdentityService.Idempotency.Durable

/-!
# The coordinator

`IdempotencyCoordinator`: an optional hot lease in Valkey in front of the
mandatory durable fence. REPLAY and CONFLICT from the hot store are final;
IN_PROGRESS is checked against the durable record; an acquired lease, like
an unavailable store, leads to `execute_once`.

The heartbeat task renews the lease in the background. All that reaches
the coordinator is whether the lease was lost by the time the task is
stopped, so that flag is the task's whole effect here.
-/

namespace IdentityService

open Concurrent

variable {B : Business}

/-- `_observe`: count the outcome and hand the result on. -/
def observe (result : ExecutionResult) : App B ExecutionResult := do
  ask (.observeOutcome result.outcome)
  pure result

/-- Await a hot-store call whose unavailability is only counted. -/
def tolerate (stage : String) (call : App B Bool) : App B Unit := do
  match ← call.outcome with
  | .ok _ => pure ()
  | .error .idempotencyStorageUnavailable => ask (.observeHotDegraded stage)
  | .error x => throw x

/-- The end of a leased execution that raised: the lease is given back,
unless it was lost, and the exception goes on. -/
def releaseAndRaise (identity : IdempotencyIdentity) (ownerToken : Uuid) (error : Exn) :
    App B ExecutionResult := do
  let lost ← ask (.heartbeat identity ownerToken)
  if !lost then tolerate "abandon" (ask (.hotAbandon identity ownerToken))
  throw error

/-- The end of a leased execution that returned: a result is published in
the hot store, anything else gives the lease back. -/
def publish (identity : IdempotencyIdentity) (ownerToken : Uuid) (result : ExecutionResult) :
    App B ExecutionResult := do
  let lost ← ask (.heartbeat identity ownerToken)
  if lost then
    ask (.observeHotDegraded "lease")
  else
    match result.completed with
    | some completed => tolerate "complete" (ask (.hotComplete identity ownerToken completed))
    | none => tolerate "abandon" (ask (.hotAbandon identity ownerToken))
  observe result

/-- Execution under an acquired lease. -/
def executeLeased (retention : Retention) (identity : IdempotencyIdentity) (requestHash : Digest)
    (operation : Operation B StoredResult) (ownerToken : Uuid) : App B ExecutionResult := do
  match ← (executeOnce retention identity requestHash operation).outcome with
  | .error error => releaseAndRaise identity ownerToken error
  | .ok result => publish identity ownerToken result

/-- Execution without the hot store, counted as degraded at `stage`. -/
def executeDegraded (stage : String) (retention : Retention) (identity : IdempotencyIdentity)
    (requestHash : Digest) (operation : Operation B StoredResult) : App B ExecutionResult := do
  ask (.observeHotDegraded stage)
  let result ← executeOnce retention identity requestHash operation
  observe result

/-- What the coordinator does with the answer of `begin`. -/
def afterBegin (retention : Retention) (identity : IdempotencyIdentity) (requestHash : Digest)
    (operation : Operation B StoredResult) (ownerToken : Uuid) :
    Except Exn BeginResult → App B ExecutionResult
  | .error .idempotencyStorageUnavailable =>
    executeDegraded "begin" retention identity requestHash operation
  | .error x => throw x
  | .ok ⟨.replay, completed, decision⟩ =>
    observe ⟨.replay, completed, ExecutionResult.replayed decision⟩
  | .ok ⟨.conflict, _, _⟩ => observe .conflict
  | .ok ⟨.inProgress, _, _⟩ => do
    match ← findExisting identity requestHash with
    | some durableResult => observe durableResult
    | none => observe .inProgress
  | .ok ⟨.acquired, _, _⟩ => executeLeased retention identity requestHash operation ownerToken

/-- `IdempotencyCoordinator.execute`, with or without a hot store. -/
def coordinatorExecute (hotStore : Bool) (retention : Retention) (identity : IdempotencyIdentity)
    (requestHash : Digest) (operation : Operation B StoredResult) (leaseSeconds : Int) :
    App B ExecutionResult := do
  if leaseSeconds ≤ 0 then
    throw (.valueError "lease_seconds must be positive")
  if !hotStore then
    executeDegraded "disabled" retention identity requestHash operation
  else
    let ownerToken ← ask .ownerToken
    let begun ← (ask (.hotBegin identity requestHash ownerToken)).outcome
    afterBegin retention identity requestHash operation ownerToken begun

end IdentityService
