import IdentityService.Base
import IdentityService.Concurrent.Table

/-!
# The outbox table

`OutboxRepository`, statement by statement. Each statement is one
rewriting of the table (the `outbox` rows, as a list); its guards are the
`WHERE` clauses. The bookkeeping column `updated_at`, which nothing reads,
is left out.
-/

namespace IdentityService

open Concurrent

/-- `OutboxStatus`. -/
inductive OutboxStatus where
  | pending
  | claimed
  | success
  | quarantined
deriving DecidableEq

/-- `OutboxKind`. -/
inductive OutboxKind where
  | command
  | event
deriving DecidableEq

/-- A row of `outbox`. -/
structure OutboxMessage where
  id : Uuid
  kind : OutboxKind
  topic : String
  key : String
  type : String
  payload : Json
  status : OutboxStatus
  attempts : Nat
  lastErrorClass : Option String
  availableAt : Time
  claimToken : Option Uuid
  claimExpiresAt : Option Time
  terminalAt : Option Time
  redriveCount : Nat
  createdAt : Time

/-- What `publish` reads of an integration event. -/
structure IntegrationEvent where
  eventId : Uuid
  partitionKey : String
  eventType : String
  envelope : Json
  occurredAt : Time

namespace OutboxMessage

/-- SUCCESS and QUARANTINED rows are finished. -/
def terminal (m : OutboxMessage) : Bool := m.status = .success || m.status = .quarantined

/-- Position within a key; the id breaks ties between equal timestamps. -/
def earlier (a b : OutboxMessage) : Bool :=
  a.createdAt < b.createdAt || (a.createdAt = b.createdAt && a.id < b.id)

/-- `ORDER BY created_at, id`. -/
def positionLe (a b : OutboxMessage) : Bool := !b.earlier a

/-- The columns `delete_terminal_before` orders by; `NULL` sorts nowhere,
the rows compared have a `terminal_at`. -/
def terminalEarlier (a b : OutboxMessage) : Bool :=
  a.terminalAt.getD 0 < b.terminalAt.getD 0 ||
    (a.terminalAt.getD 0 = b.terminalAt.getD 0 && a.earlier b)

/-- The order of a cleanup, ties included. -/
def terminalLe (a b : OutboxMessage) : Bool := !b.terminalEarlier a

/-- The lease filter of `claim_batch`. -/
def eligible (claimedAt : Time) (m : OutboxMessage) : Bool :=
  (m.status = .pending && m.availableAt ≤ claimedAt) ||
    (m.status = .claimed && m.claimExpiresAt.any (· ≤ claimedAt))

/-- `has_earlier_nonterminal_for_key`. -/
def hasEarlierNonterminal (rows : List OutboxMessage) (m : OutboxMessage) : Bool :=
  rows.any fun e => e.key = m.key && (e.status = .pending || e.status = .claimed) && e.earlier m

/-- The row of a claim. -/
def claim (ownerToken : Uuid) (claimExpiresAt : Time) (m : OutboxMessage) : OutboxMessage :=
  { m with
    status := .claimed
    claimToken := some ownerToken
    claimExpiresAt := some claimExpiresAt
    terminalAt := none }

/-- The row each finishing write leaves, and a redrive. -/
def finalizeRow (publishedAt : Time) (m : OutboxMessage) : OutboxMessage :=
  { m with
    status := .success
    attempts := m.attempts + 1
    lastErrorClass := none
    claimToken := none
    claimExpiresAt := none
    terminalAt := some publishedAt }

/-- The row of a message that is to be tried again. -/
def retryRow (availableAt : Time) (errorClass : String) (m : OutboxMessage) : OutboxMessage :=
  { m with
    status := .pending
    attempts := m.attempts + 1
    lastErrorClass := some errorClass
    availableAt := availableAt
    claimToken := none
    claimExpiresAt := none
    terminalAt := none }

/-- The row of a message that is given up. -/
def quarantineRow (quarantinedAt : Time) (errorClass : String) (m : OutboxMessage) :
    OutboxMessage :=
  { m with
    status := .quarantined
    attempts := m.attempts + 1
    lastErrorClass := some errorClass
    claimToken := none
    claimExpiresAt := none
    terminalAt := some quarantinedAt }

/-- The row of a message that is let off again. -/
def redriveRow (availableAt : Time) (m : OutboxMessage) : OutboxMessage :=
  { m with
    status := .pending
    attempts := 0
    lastErrorClass := none
    availableAt := availableAt
    claimToken := none
    claimExpiresAt := none
    terminalAt := none
    redriveCount := m.redriveCount + 1 }

@[simp] theorem finalizeRow_status (publishedAt : Time) (m : OutboxMessage) :
    (m.finalizeRow publishedAt).status = .success := rfl

@[simp] theorem retryRow_status (availableAt : Time) (errorClass : String) (m : OutboxMessage) :
    (m.retryRow availableAt errorClass).status = .pending := rfl

@[simp] theorem quarantineRow_status (quarantinedAt : Time) (errorClass : String)
    (m : OutboxMessage) : (m.quarantineRow quarantinedAt errorClass).status = .quarantined := rfl

@[simp] theorem redriveRow_status (availableAt : Time) (m : OutboxMessage) :
    (m.redriveRow availableAt).status = .pending := rfl

/-- The guard of every finishing write. -/
def ownedBy (messageId ownerToken : Uuid) (m : OutboxMessage) : Bool :=
  m.id = messageId && m.status = .claimed && m.claimToken = some ownerToken

end OutboxMessage

namespace Outbox

variable (rows : List OutboxMessage)

/-- `publish`: the primary key rejects a second row of one id. -/
def publish (topic : String) (event : IntegrationEvent) : Except Exn (List OutboxMessage) :=
  if rows.any fun m => m.id = event.eventId then .error (.database .integrity)
  else .ok (rows ++ [{
    id := event.eventId
    kind := .event
    topic := topic
    key := event.partitionKey
    type := event.eventType
    payload := event.envelope
    status := .pending
    attempts := 0
    lastErrorClass := none
    availableAt := event.occurredAt
    claimToken := none
    claimExpiresAt := none
    terminalAt := none
    redriveCount := 0
    createdAt := event.occurredAt }])

/-- The rows `claim_batch` picks, before it writes; `SKIP LOCKED` passes
over the rows another transaction holds. -/
def claimable (locked : Uuid → Bool) (claimedAt : Time) (limit : Nat) : List OutboxMessage :=
  Table.select (fun m => m.eligible claimedAt && !m.hasEarlierNonterminal rows && !locked m.id)
    OutboxMessage.positionLe limit rows

/-- `claim_batch`: the claimed rows, in order, and the table. -/
def claimBatch (locked : Uuid → Bool) (ownerToken : Uuid) (claimedAt claimExpiresAt : Time)
    (limit : Int) : Except Exn (List OutboxMessage × List OutboxMessage) :=
  if limit ≤ 0 then .error (.valueError "claim limit must be positive")
  else if claimExpiresAt ≤ claimedAt then
    .error (.valueError "claim expiration must be after claim time")
  else
    let ids := (claimable rows locked claimedAt limit.toNat).map OutboxMessage.id
    let claim := OutboxMessage.claim ownerToken claimExpiresAt
    .ok ((((rows.filter fun m => ids.contains m.id).map claim).mergeSort OutboxMessage.positionLe),
      Table.update (fun m => ids.contains m.id) claim rows)

/-- A finishing write: guarded by id, CLAIMED and the owner's token. -/
def finish (messageId ownerToken : Uuid) (write : OutboxMessage → OutboxMessage) :
    Bool × List OutboxMessage :=
  (rows.any (OutboxMessage.ownedBy messageId ownerToken),
    Table.update (OutboxMessage.ownedBy messageId ownerToken) write rows)

/-- `OutboxRepository.finalize_published`. -/
def finalizePublished (messageId ownerToken : Uuid) (publishedAt : Time) :
    Bool × List OutboxMessage :=
  finish rows messageId ownerToken (.finalizeRow publishedAt)

/-- `OutboxRepository.schedule_retry`. -/
def scheduleRetry (messageId ownerToken : Uuid) (availableAt : Time) (errorClass : String) :
    Bool × List OutboxMessage :=
  finish rows messageId ownerToken (.retryRow availableAt errorClass)

/-- `OutboxRepository.quarantine`. -/
def quarantine (messageId ownerToken : Uuid) (quarantinedAt : Time) (errorClass : String) :
    Bool × List OutboxMessage :=
  finish rows messageId ownerToken (.quarantineRow quarantinedAt errorClass)

/-- `later_exists`: a row of the same key after the target. -/
def laterExists (messageId : Uuid) : Bool :=
  rows.any fun target => target.id = messageId &&
    rows.any fun later => later.key = target.key && target.earlier later

/-- `redrive_quarantined`: only when no later message of the key exists. -/
def redriveQuarantined (messageId : Uuid) (availableAt : Time) : Bool × List OutboxMessage :=
  let target := fun (m : OutboxMessage) =>
    m.id = messageId && m.status = .quarantined && !laterExists rows messageId
  (rows.any target, Table.update target (.redriveRow availableAt) rows)

/-- The rows `delete_terminal_before` removes. A statement is atomic here, so
its `SKIP LOCKED` finds no row that another transaction holds. -/
def removable (terminalAt : Time) (limit : Nat) : List OutboxMessage :=
  Table.select (fun m => m.terminal && m.terminalAt.any (· < terminalAt))
    OutboxMessage.terminalLe limit rows

/-- `delete_terminal_before`: how many rows went, and the table. -/
def deleteTerminalBefore (terminalAt : Time) (limit : Int) :
    Except Exn (Nat × List OutboxMessage) :=
  if limit ≤ 0 then .error (.valueError "cleanup limit must be positive")
  else
    let ids := (removable rows terminalAt limit.toNat).map OutboxMessage.id
    .ok ((rows.filter fun m => ids.contains m.id).length,
      rows.filter fun m => !ids.contains m.id)

end Outbox

end IdentityService
