import IdentityService.Concurrent.Prog
import IdentityService.Registration.Transactions
import IdentityService.RetryPolicy

/-!
# The registration handlers

`RegisterUserHandler`, `ResumeRegistrationHandler`,
`RegistrationReconcilerService.run_once` and `RedriveRegistrationHandler`,
as programs over units of work, the clock, fresh UUIDs, the password hasher
and the Profile service. Logging and the metrics observer are left out.

The tasks that a reconciler pass gathers run concurrently, so each is a
process of its own: the pass puts its claimed operations on the list of
`tasks`, a task process picks its entry up, and the pass joins them.
-/

namespace IdentityService

open Concurrent

/-- The password hasher: Argon2 draws a salt for each hash. -/
structure PasswordHasher where
  hash : (password salt : String) → String
  verify : (password passwordHash : String) → Bool

/-- What the handlers and the reconciler are constructed with. -/
structure RegistrationConfig where
  claimLease : Time
  policy : RegistrationRetryPolicy
  format : EventFormat
  hasher : PasswordHasher

/-- `RegistrationOutcome`. -/
inductive RegistrationOutcome where
  | completed
  | pending
deriving DecidableEq

/-- `RegistrationResult`. -/
structure RegistrationResult where
  operationId : Uuid
  userId : Uuid
  outcome : RegistrationOutcome
  retryAfterSeconds : Option Int
deriving DecidableEq

/-- `RegisterUserCommand`, with the digest of its idempotency key. -/
structure RegisterUserCommand where
  email : String
  password : String
  keyHash : Digest
deriving DecidableEq

/-- A task of a reconciler pass: an operation and the token it was claimed
under. -/
structure RegistrationTask where
  operation : RegistrationOperation
  ownerToken : Uuid

/-! ## Effects -/

/-- The awaits of the handlers. -/
inductive RegistrationEff where
  | tx (t : RegistrationTx)
  | now
  | uuid
  | jitter
  | hash (password : String)
  | verify (password passwordHash : String)
  | createProfile (userId : Uuid) (registeredAt : Time)
  | spawn (tasks : List RegistrationTask)
  | task (n : Nat)
  | done (n : Nat)
  | join (first count : Nat)

@[reducible] def RegistrationEff.Resp : RegistrationEff → Type
  | .tx t => t.Resp
  | .now => Time
  | .uuid => Uuid
  | .jitter => ℚ
  | .hash _ => String
  | .verify _ _ => Bool
  | .createProfile _ _ => Unit
  | .spawn _ => Nat
  | .task _ => RegistrationTask
  | .done _ => Unit
  | .join _ _ => Unit

def registrationSig : Sig := ⟨RegistrationEff, RegistrationEff.Resp⟩

/-- A coroutine of the registration system. -/
abbrev Registration (α : Type) := Prog registrationSig Exn α

/-- Await one effect. -/
def await (e : RegistrationEff) : Registration e.Resp := Prog.perform (S := registrationSig) e

/-! ## Handlers -/

/-- `pending_result`. -/
def pendingResult (operation : RegistrationOperation) (now : Time) (retryAt : Option Time) :
    RegistrationResult :=
  let effectiveRetryAt :=
    match retryAt with
    | some time => time
    | none =>
      if operation.status = .claimed then operation.claimExpiresAt.getD operation.availableAt
      else operation.availableAt
  -- seconds, rounded up
  let wait := -(-((effectiveRetryAt : Int) - (now : Int)) / (second : Int))
  ⟨operation.id, operation.userId, .pending, some (max 1 wait)⟩

/-- The result of a completed operation. -/
def completedResult (operationId userId : Uuid) : RegistrationResult :=
  ⟨operationId, userId, .completed, none⟩

/-- The texts of the three errors the handlers raise by hand. -/
def notOwned : String := "registration operation is not owned by this attempt"

/-- The alarm of an operation without a password hash, -/
def noPasswordHash : String := "claimed registration has no password hash"

/-- and of a completed one without its account. -/
def noUser : String := "completed registration has no user"

/-- Neither of the two errors that would betray inconsistent tables. -/
def Exn.ordinary (x : Exn) : Bool :=
  x ≠ .registrationFinalizationConflict && x ≠ .runtimeError noUser

variable (cfg : RegistrationConfig)

/-- `_block`. -/
def blockOperation (operation : RegistrationOperation) (ownerToken : Uuid) (error : Exn) :
    Registration Unit := do
  let blockedAt ← await .now
  let _ ← await (.tx (.block operation.id ownerToken blockedAt error.className))
  return ()

/-- `_block`, and raise. -/
def blockAndRaise (operation : RegistrationOperation) (ownerToken : Uuid) (error raised : Exn) :
    Registration RegistrationResult := do
  blockOperation operation ownerToken error
  throw raised

/-- `_retry_or_block`. -/
def retryOrBlock (operation : RegistrationOperation) (ownerToken : Uuid) (error : Exn) :
    Registration RegistrationResult := do
  let attempt := operation.attempts + 1
  if cfg.policy.maxAttempts ≤ attempt then
    blockAndRaise operation ownerToken error .profileProvisioningUnavailable
  else
    let failedAt ← await .now
    let jitterSample ← await .jitter
    let delay ← Prog.ofExcept (cfg.policy.delaySeconds attempt jitterSample)
    let retryAt := failedAt + (micros delay).toNat
    let _ ← await (.tx (.scheduleRetry operation.id ownerToken failedAt retryAt error.className))
    let now ← await .now
    return pendingResult operation now (some retryAt)

/-- `_finalize`. -/
def finalize (operation : RegistrationOperation) (ownerToken : Uuid) : Registration User := do
  match operation.passwordHash with
  | none => throw (.runtimeError noPasswordHash)
  | some passwordHash =>
    let completedAt ← await .now
    let userToCreate : User :=
      { id := operation.userId
        email := operation.email
        passwordHash := passwordHash
        role := .user
        status := .active
        createdAt := operation.createdAt
        updatedAt := none }
    let eventId ← await .uuid
    let correlationId ← await .uuid
    await (.tx (.finalize operation.id ownerToken completedAt userToCreate eventId correlationId))

/-- What `ResumeRegistrationHandler.execute` does with the outcome of
`_finalize`. -/
def afterFinalize (operation : RegistrationOperation) (ownerToken : Uuid) :
    Except Exn User → Registration RegistrationResult
  | .ok user => return completedResult operation.id user.id
  | .error .lostRegistrationClaim => do
    let now ← await .now
    return pendingResult operation now none
  | .error .registrationFinalizationConflict =>
    blockAndRaise operation ownerToken .registrationFinalizationConflict
      .profileProvisioningUnavailable
  | .error .persistenceUnavailable => retryOrBlock cfg operation ownerToken .persistenceUnavailable
  | .error .transactionConflict => retryOrBlock cfg operation ownerToken .transactionConflict
  | .error x => if x.isException then blockAndRaise operation ownerToken x x else throw x

/-- And with the outcome of the Profile call before it. -/
def afterProfile (operation : RegistrationOperation) (ownerToken : Uuid) :
    Except Exn Unit → Registration RegistrationResult
  | .ok _ => do
    let finalized ← (finalize operation ownerToken).outcome
    afterFinalize cfg operation ownerToken finalized
  | .error .profileProvisioningRejected =>
    blockAndRaise operation ownerToken .profileProvisioningRejected .profileProvisioningUnavailable
  | .error .profileProvisioningUnavailable =>
    retryOrBlock cfg operation ownerToken .profileProvisioningUnavailable
  | .error x => if x.isException then blockAndRaise operation ownerToken x x else throw x

/-- `ResumeRegistrationHandler.execute`. -/
def resumeExecute (operation : RegistrationOperation) (ownerToken : Uuid) :
    Registration RegistrationResult := do
  if operation.status ≠ .claimed ∨ operation.claimToken ≠ some ownerToken then
    throw (.valueError notOwned)
  else
    let profile ← (await (.createProfile operation.userId operation.createdAt)).outcome
    afterProfile cfg operation ownerToken profile

/-- The hash an existing operation's password is checked against: its own,
or the account's once the operation is completed and scrubbed. -/
def passwordHashOf (operation : RegistrationOperation) : Registration String := do
  match operation.passwordHash with
  | some passwordHash => return passwordHash
  | none =>
    match ← await (.tx (.getUser operation.userId)) with
    | none => throw (.runtimeError noUser)
    | some user => return user.passwordHash

/-- An unfinished operation: try to take it over. -/
def claimExisting (operation : RegistrationOperation) : Registration RegistrationResult := do
  let now ← await .now
  let ownerToken ← await .uuid
  match ← await (.tx (.claimByKeyHash operation.keyHash ownerToken now (now + cfg.claimLease))) with
  | none => return pendingResult operation (← await .now) none
  | some claimed => resumeExecute cfg claimed ownerToken

/-- The end of `_resume_existing`, past the checks. -/
def answerExisting (operation : RegistrationOperation) : Registration RegistrationResult :=
  match operation.status with
  | .completed => return completedResult operation.id operation.userId
  | .blocked => throw .profileProvisioningUnavailable
  | .pending => claimExisting cfg operation
  | .claimed => claimExisting cfg operation

/-- `_resume_existing`. -/
def resumeExisting (operation : RegistrationOperation) (email password : String) :
    Registration RegistrationResult := do
  if operation.email ≠ email then
    throw .idempotencyKeyConflict
  else
    let passwordHash ← passwordHashOf operation
    let verified ← await (.verify password passwordHash)
    if !verified then throw .idempotencyKeyConflict
    else answerExisting cfg operation

/-- The transaction that creates an operation: an email that has an account
already is not registered again. -/
def createOperation (candidate : RegistrationOperation) :
    Registration (Option RegistrationOperation) := do
  match ← await (.tx (.getUserByEmail candidate.email)) with
  | none => await (.tx (.tryCreate candidate))
  | some _ => do
    await (.tx .commit)
    return none

/-- `RegisterUserHandler.execute` for a key without an operation. -/
def registerNew (command : RegisterUserCommand) : Registration RegistrationResult := do
  let passwordHash ← await (.hash command.password)
  let now ← await .now
  let ownerToken ← await .uuid
  let id ← await .uuid
  let userId ← await .uuid
  let candidate : RegistrationOperation :=
    { id := id
      userId := userId
      email := command.email
      passwordHash := some passwordHash
      keyHash := command.keyHash
      status := .claimed
      attempts := 0
      availableAt := now
      claimToken := some ownerToken
      claimExpiresAt := some (now + cfg.claimLease)
      lastErrorClass := none
      terminalAt := none
      redriveCount := 0
      createdAt := now }
  match ← createOperation candidate with
  | some created => resumeExecute cfg created ownerToken
  | none =>
    match ← await (.tx (.getByKeyHash command.keyHash)) with
    | none => throw .userAlreadyExists
    | some existing => resumeExisting cfg existing command.email command.password

/-- `RegisterUserHandler.execute`. -/
def registerExecute (command : RegisterUserCommand) : Registration RegistrationResult := do
  match ← await (.tx (.getByKeyHash command.keyHash)) with
  | some existing => resumeExisting cfg existing command.email command.password
  | none => registerNew cfg command

/-- `RegistrationReconcilerService.run_once`. -/
def runOnce (batchSize : Int) : Registration Nat := do
  if batchSize ≤ 0 then
    throw (.valueError "batch_size must be positive")
  else
    let ownerToken ← await .uuid
    let claimedAt ← await .now
    let operations ← await (.tx (.claimBatch ownerToken claimedAt (claimedAt + cfg.claimLease)
      batchSize))
    if operations.isEmpty then return 0
    else
      let first ← await (.spawn (operations.map fun o => ⟨o, ownerToken⟩))
      await (.join first operations.length)
      return operations.length

/-- `process` of a gathered operation; its failures end with it. -/
def processTask (n : Nat) : Registration Unit := do
  let task ← await (.task n)
  match ← (resumeExecute cfg task.operation task.ownerToken).outcome with
  | .ok _ => await (.done n)
  | .error x => if x.isException then await (.done n) else throw x

/-- `RedriveRegistrationHandler.execute`. -/
def redriveExecute (operationId : Uuid) : Registration Bool := do
  let availableAt ← await .now
  await (.tx (.redriveBlocked operationId availableAt))

/-! ## The pool -/

/-- What a process of the system runs. -/
inductive RegistrationCallee where
  | register (command : RegisterUserCommand)
  | runOnce (batchSize : Int)
  | processTask (n : Nat)
  | redrive (operationId : Uuid)

inductive RegistrationAnswer where
  | result (r : RegistrationResult)
  | processed (n : Nat)
  | done
  | redriven (b : Bool)

def RegistrationCallee.program : RegistrationCallee → Registration RegistrationAnswer
  | .register command => do return .result (← registerExecute cfg command)
  | .runOnce batchSize => do return .processed (← IdentityService.runOnce cfg batchSize)
  | .processTask n => do
    IdentityService.processTask cfg n
    return .done
  | .redrive operationId => do return .redriven (← redriveExecute operationId)

end IdentityService
