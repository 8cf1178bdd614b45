import IdentityService.Base

/-!
# Idempotency: the data passed around

Identities, stored results and the decisions of the two idempotency
layers. The Pydantic validators are fields of the structures, so a value
they would reject cannot be built.
-/

namespace IdentityService

/-- `IdempotencyIdentity`: who asks for which operation under which key. -/
structure IdempotencyIdentity where
  subjectId : String
  operation : String
  keyHash : Digest
  subjectIdSize : 1 ≤ subjectId.length ∧ subjectId.length ≤ 255
  operationSize : 1 ≤ operation.length ∧ operation.length ≤ 100
deriving DecidableEq

/-- `BeginAction`. -/
inductive BeginAction where
  | acquired
  | replay
  | conflict
  | inProgress
deriving DecidableEq

/-- `ExecutionOutcome`. -/
inductive ExecutionOutcome where
  | executed
  | replay
  | conflict
  | inProgress
deriving DecidableEq

/-- `StoredResult`: what a callback leaves behind for later replays. -/
structure StoredResult where
  resultType : String
  resultPayload : Option (List (String × Json))
  resultVersion : Nat
  resourceType : Option String
  resourceId : Option String
  resourceVersion : Option Nat
  resultTypeSize : 1 ≤ resultType.length ∧ resultType.length ≤ 100
  resultVersionPos : 0 < resultVersion
  resourceTypeSize : ∀ t, resourceType = some t → 1 ≤ t.length ∧ t.length ≤ 100
  resourceVersionPos : ∀ v, resourceVersion = some v → 0 < v
  resourcePair : resourceType.isSome = resourceId.isSome
  replayable : resultPayload.isSome ∨ resourceId.isSome
  versioned : resourceVersion.isSome → resourceId.isSome

namespace StoredResult

/-! A result without a resource has nothing to check there. -/

theorem untyped : ∀ t, (none : Option String) = some t → 1 ≤ t.length ∧ t.length ≤ 100 := by simp

theorem unversioned : ∀ v, (none : Option Nat) = some v → 0 < v := by simp

theorem unpaired : (none : Option String).isSome = (none : Option String).isSome := rfl

theorem unbound : (none : Option Nat).isSome → (none : Option String).isSome := by simp

end StoredResult

/-- `CompletedIdempotencyResult`: a stored result and the request it
answers. -/
structure CompletedIdempotencyResult extends StoredResult where
  requestHash : Digest

/-- `BeginResult`: only a replay carries a result. -/
structure BeginResult where
  action : BeginAction
  completed : Option CompletedIdempotencyResult
  decision : completed.isSome ↔ action = .replay

/-- `ExecutionResult`: exactly EXECUTED and REPLAY carry a result. -/
structure ExecutionResult where
  outcome : ExecutionOutcome
  completed : Option CompletedIdempotencyResult
  decision : completed.isSome ↔ outcome = .executed ∨ outcome = .replay

namespace ExecutionResult

/-- This call has executed the operation. -/
def executed (c : CompletedIdempotencyResult) : ExecutionResult :=
  ⟨.executed, some c, by simp⟩

/-- An earlier call has, and this is its result. -/
def replay (c : CompletedIdempotencyResult) : ExecutionResult :=
  ⟨.replay, some c, by simp⟩

/-- The key stands for another request. -/
def conflict : ExecutionResult := ⟨.conflict, none, by simp⟩

/-- Another call is at it. -/
def inProgress : ExecutionResult := ⟨.inProgress, none, by simp⟩

/-- What a replay of the hot store carries, the execution may carry. -/
theorem replayed {completed : Option CompletedIdempotencyResult}
    (decision : completed.isSome ↔ BeginAction.replay = .replay) :
    completed.isSome ↔ ExecutionOutcome.replay = .executed ∨ ExecutionOutcome.replay = .replay := by
  simp [decision]

end ExecutionResult

namespace BeginResult

/-- The lease has been acquired. -/
def acquired : BeginResult := ⟨.acquired, none, by simp⟩

/-- A completed result is published. -/
def replay (c : CompletedIdempotencyResult) : BeginResult := ⟨.replay, some c, by simp⟩

/-- The entry is one of another request. -/
def conflict : BeginResult := ⟨.conflict, none, by simp⟩

/-- Another owner holds the lease. -/
def inProgress : BeginResult := ⟨.inProgress, none, by simp⟩

end BeginResult

/-- A row of `idempotency_records`, under its identity. -/
structure IdempotencyRecord where
  completed : CompletedIdempotencyResult
  fingerprintVersion : Nat
  createdAt : Time
  completedAt : Time
  expiresAt : Time

/-- The reader's test: an expired row counts as absent. -/
def IdempotencyRecord.Live (r : IdempotencyRecord) (now : Time) : Prop := now < r.expiresAt

instance (r : IdempotencyRecord) (now : Time) : Decidable (r.Live now) :=
  inferInstanceAs (Decidable (now < r.expiresAt))

end IdentityService
