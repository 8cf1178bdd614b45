import IdentityService.Domain
import IdentityService.Outbox.Repository
import IdentityService.Registration.Operations

/-!
# The transactions of registration

Three tables move together: `registration_operations`, `users` and the
outbox. Each unit of work of the handlers is one body over them; a body
that raises is rolled back as a whole.

Every statement of a body either locks the rows it writes until the commit
or, for the insert of a user, waits for a concurrent inserter, so a body
takes effect in one step. The exception is the creation of an operation,
whose first statement is a plain read: it is a step of its own.
-/

namespace IdentityService

/-- `UserRegisteredEvent`. -/
structure UserRegisteredEvent where
  userId : Uuid
  registeredAt : Time
  correlationId : Uuid
  causationId : Option Uuid
  eventId : Uuid
deriving DecidableEq

/-- Where events go and how instants are written in them. -/
structure EventFormat where
  topic : String
  producer : String
  isoformat : Time → String

namespace UserRegisteredEvent

/-- The type of the event, with its version. -/
def eventType : String := "identity.user_registered.v1"

/-- `to_envelope_dict`. -/
def toEnvelope (fmt : EventFormat) (e : UserRegisteredEvent) : Json :=
  .obj [
    ("eventId", .str (uuidText e.eventId)),
    ("eventType", .str eventType),
    ("schemaVersion", .int 1),
    ("occurredAt", .str (fmt.isoformat e.registeredAt)),
    ("producer", .str fmt.producer),
    ("correlationId", .str (uuidText e.correlationId)),
    ("causationId", .str (uuidText (e.causationId.getD e.correlationId))),
    ("payload", .obj [
      ("userId", .str (uuidText e.userId)),
      ("registeredAt", .str (fmt.isoformat e.registeredAt))])]

/-- The event as it is published. -/
def integration (fmt : EventFormat) (e : UserRegisteredEvent) : IntegrationEvent :=
  ⟨e.eventId, uuidText e.userId, eventType, e.toEnvelope fmt, e.registeredAt⟩

end UserRegisteredEvent

/-- The tables, with the history of the events ever inserted: the relay
and its cleanup own the outbox rows afterwards. -/
structure RegistrationDb where
  operations : List RegistrationOperation
  users : List User
  outbox : List OutboxMessage
  registered : List UserRegisteredEvent

namespace Users

/-- `create_if_absent`: `ON CONFLICT (email) DO NOTHING`; a second row of
one id violates the primary key. -/
def createIfAbsent (users : List User) (user : User) : Except Exn (Option User × List User) :=
  if users.any fun u => u.email = user.email then .ok (none, users)
  else if users.any fun u => u.id = user.id then .error (.database .integrity)
  else .ok (some user, users ++ [user])

end Users

/-- The units of work. -/
inductive RegistrationTx where
  | getByKeyHash (keyHash : Digest)
  | getUserByEmail (email : String)
  | tryCreate (candidate : RegistrationOperation)
  | commit
  | getUser (userId : Uuid)
  | claimByKeyHash (keyHash : Digest) (ownerToken : Uuid) (claimedAt claimExpiresAt : Time)
  | claimBatch (ownerToken : Uuid) (claimedAt claimExpiresAt : Time) (limit : Int)
  | finalize (operationId ownerToken : Uuid) (completedAt : Time) (user : User)
      (eventId correlationId : Uuid)
  | scheduleRetry (operationId ownerToken : Uuid) (failedAt availableAt : Time)
      (errorClass : String)
  | block (operationId ownerToken : Uuid) (blockedAt : Time) (errorClass : String)
  | redriveBlocked (operationId : Uuid) (availableAt : Time)

namespace RegistrationTx

@[reducible] def Resp : RegistrationTx → Type
  | .getByKeyHash _ => Option RegistrationOperation
  | .getUserByEmail _ => Option User
  | .tryCreate _ => Option RegistrationOperation
  | .commit => Unit
  | .getUser _ => Option User
  | .claimByKeyHash _ _ _ _ => Option RegistrationOperation
  | .claimBatch _ _ _ _ => List RegistrationOperation
  | .finalize _ _ _ _ _ _ => User
  | .scheduleRetry _ _ _ _ _ => Bool
  | .block _ _ _ _ => Bool
  | .redriveBlocked _ _ => Bool

/-- The body of `_finalize`'s unit of work. -/
def finalizeBody (fmt : EventFormat) (db : RegistrationDb) (operationId ownerToken : Uuid)
    (completedAt : Time) (userToCreate : User) (eventId correlationId : Uuid) :
    Except Exn (User × RegistrationDb) := do
  let (completed, operations) ← Registrations.complete db.operations operationId ownerToken
    completedAt
  if !completed then throw .lostRegistrationClaim
  else
    let (created, users) ← Users.createIfAbsent db.users userToCreate
    match created with
    | none => throw .registrationFinalizationConflict
    | some user =>
      let event : UserRegisteredEvent := ⟨user.id, user.createdAt, correlationId, none, eventId⟩
      let outbox ← Outbox.publish db.outbox fmt.topic (event.integration fmt)
      return (user, ⟨operations, users, outbox, db.registered ++ [event]⟩)

/-- What a unit of work answers and leaves behind; `locked` are the rows
other transactions hold, for `SKIP LOCKED`. -/
def body (fmt : EventFormat) (locked : Uuid → Bool) (db : RegistrationDb) :
    (t : RegistrationTx) → Except Exn (t.Resp × RegistrationDb)
  | .getByKeyHash keyHash => do
    return (← Registrations.getByKeyHash db.operations keyHash, db)
  | .getUserByEmail email => .ok (db.users.find? fun u => u.email = email, db)
  | .tryCreate candidate => do
    let (created, operations) ← Registrations.tryCreate db.operations candidate
    return (created, { db with operations := operations })
  | .commit => .ok ((), db)
  | .getUser userId => .ok (db.users.find? fun u => u.id = userId, db)
  | .claimByKeyHash keyHash ownerToken claimedAt claimExpiresAt => do
    let (claimed, operations) ← Registrations.claimByKeyHash db.operations keyHash ownerToken
      claimedAt claimExpiresAt
    return (claimed, { db with operations := operations })
  | .claimBatch ownerToken claimedAt claimExpiresAt limit => do
    let (claimed, operations) ← Registrations.claimBatch db.operations locked ownerToken claimedAt
      claimExpiresAt limit
    return (claimed, { db with operations := operations })
  | .finalize operationId ownerToken completedAt user eventId correlationId =>
    finalizeBody fmt db operationId ownerToken completedAt user eventId correlationId
  | .scheduleRetry operationId ownerToken failedAt availableAt errorClass => do
    let (scheduled, operations) ← Registrations.scheduleRetry db.operations operationId ownerToken
      failedAt availableAt errorClass
    return (scheduled, { db with operations := operations })
  | .block operationId ownerToken blockedAt errorClass => do
    let (blocked, operations) ← Registrations.block db.operations operationId ownerToken blockedAt
      errorClass
    return (blocked, { db with operations := operations })
  | .redriveBlocked operationId availableAt => do
    let (redriven, operations) ← Registrations.redriveBlocked db.operations operationId availableAt
    return (redriven, { db with operations := operations })

end RegistrationTx

end IdentityService
