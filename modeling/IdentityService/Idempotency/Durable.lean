import IdentityService.Idempotency.World

/-!
# Durable execution

`IdempotencyRecordRepository` and `DurableExecutionService`: a completed
record is inserted in the transaction of the business callback, and the
unique constraint on the identity decides races. Whoever loses rolls its
callback back and answers from the winner's record.

Digests are 32 bytes by type, so `_validate_digest` has nothing to reject;
likewise a stored row is a valid result, and `StoredStateError` is not
raised.
-/

namespace IdentityService

open Concurrent

variable {B : Business}

/-- `IDEMPOTENCY_RESULT_TTL_SECONDS`, a positive setting. -/
structure Retention where
  seconds : Nat
  pos : 0 < seconds

/-- `get_completed`: the record of the identity, unless it has expired by
the time it has been read. -/
def getCompleted (identity : IdempotencyIdentity) : App B (Option CompletedIdempotencyResult) := do
  let row : Option IdempotencyRecord ← read (.record identity)
  match row with
  | none => pure none
  | some row =>
    let now ← utcNow
    if row.expiresAt ≤ now then pure none else pure (some row.completed)

/-- The row `try_add_completed` inserts at time `now`. -/
def completedRecord (retention : Retention) (completed : CompletedIdempotencyResult)
    (now : Time) : IdempotencyRecord :=
  ⟨completed, 1, now, now, now + retention.seconds * second⟩

/-- `try_add_completed`: the unique constraint alone decides, whatever the
expiry of the row that is in the way. -/
def tryAddCompleted (retention : Retention) (identity : IdempotencyIdentity)
    (completed : CompletedIdempotencyResult) : App B Bool := do
  let now ← utcNow
  insert (.record identity) (completedRecord retention completed now)

/-- `_classify`. -/
def classify (completed : CompletedIdempotencyResult) (requestHash : Digest) : ExecutionResult :=
  if completed.requestHash ≠ requestHash then .conflict else .replay completed

/-- `find_existing`: read and classify a committed result in a short
transaction. -/
def findExisting (identity : IdempotencyIdentity) (requestHash : Digest) :
    App B (Option ExecutionResult) := do
  let existing ← uow (getCompleted identity)
  match existing with
  | none => pure none
  | some completed => pure (some (classify completed requestHash))

/-- The transaction of `execute_once`: the callback's writes and the
record that fences them. -/
def fencedTransaction (retention : Retention) (identity : IdempotencyIdentity)
    (requestHash : Digest) (operation : Operation B StoredResult) :
    App B CompletedIdempotencyResult :=
  uow do
    let stored ← operation.run
    let completed : CompletedIdempotencyResult := { stored with requestHash := requestHash }
    let added ← tryAddCompleted retention identity completed
    if !added then throw .concurrentWinnerCommitted
    pure completed

/-- `except _ConcurrentWinnerCommitted`: the fence was lost, so a winner
should be there to read. -/
def afterLostRace (identity : IdempotencyIdentity) (requestHash : Digest) :
    App B ExecutionResult := do
  match ← findExisting identity requestHash with
  | none => throw (.runtimeError noWinner)
  | some winner => pure winner

/-- `except Exception`: look for a winner, and raise the callback's own
error when there is none or the lookup fails as well. -/
def afterFailure (identity : IdempotencyIdentity) (requestHash : Digest) (operationError : Exn) :
    App B ExecutionResult := do
  match ← (findExisting identity requestHash).outcome with
  | .error lookupError =>
    if lookupError.isException then throw operationError else throw lookupError
  | .ok none => throw operationError
  | .ok (some winner) => pure winner

/-- How the transaction ended decides the answer. -/
def afterTransaction (identity : IdempotencyIdentity) (requestHash : Digest) :
    Except Exn CompletedIdempotencyResult → App B ExecutionResult
  | .ok completed => pure (.executed completed)
  | .error .concurrentWinnerCommitted => afterLostRace identity requestHash
  | .error operationError =>
    if operationError.isException then afterFailure identity requestHash operationError
    else throw operationError

/-- `DurableExecutionService.execute_once`. -/
def executeOnce (retention : Retention) (identity : IdempotencyIdentity) (requestHash : Digest)
    (operation : Operation B StoredResult) : App B ExecutionResult := do
  match ← findExisting identity requestHash with
  | some existing => pure existing
  | none =>
    let settled ← (fencedTransaction retention identity requestHash operation).outcome
    afterTransaction identity requestHash settled

/-- An `IdempotentOperation` as a caller can write it: whatever it raises is
not the service's own private signal. -/
structure Callback (B : Business) where
  body : Operation B StoredResult
  raises : body.RaisesOnly fun x => x.foreign = true

theorem afterTransaction_error (identity : IdempotencyIdentity) (requestHash : Digest) {x : Exn}
    (hx : x ≠ .concurrentWinnerCommitted) :
    afterTransaction (B := B) identity requestHash (.error x) =
      if x.isException then afterFailure identity requestHash x else .throw x := by
  cases x with
  | concurrentWinnerCommitted => exact absurd rfl hx
  | _ => rfl

/-- The answer a record gives to a request. -/
theorem classify_eq (completed : CompletedIdempotencyResult) (requestHash : Digest) :
    (completed.requestHash = requestHash ∧ classify completed requestHash = .replay completed) ∨
      (completed.requestHash ≠ requestHash ∧ classify completed requestHash = .conflict) := by
  by_cases h : completed.requestHash = requestHash
  · exact .inl ⟨h, by simp [classify, h]⟩
  · exact .inr ⟨h, by simp [classify, h]⟩

end IdentityService
