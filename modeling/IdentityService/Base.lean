import IdentityService.Json.Value
import IdentityService.Text.Hex
import Mathlib.Logic.Function.Basic

/-!
# Shared vocabulary

Identifiers, instants, digests and the exception classes the application
code distinguishes. Instants are microseconds on the UTC line,
the resolution of the stored timestamps.
-/

namespace IdentityService

/-- A UUID, by its 128-bit value; the database orders UUIDs by it. -/
abbrev Uuid := Nat

/-- `str(UUID)`: thirty-two digits in groups. -/
def uuidText (u : Uuid) : String :=
  let hex := (List.range 32).map fun i => Hex.digit (u / 16 ^ (31 - i) % 16)
  String.ofList (hex.take 8 ++ '-' :: (hex.drop 8).take 4 ++ '-' :: (hex.drop 12).take 4 ++
    '-' :: (hex.drop 16).take 4 ++ '-' :: hex.drop 20)

/-- `text.replace(part, "")`; the length of the text is enough fuel. -/
def removeAll (part : List Char) : Nat → List Char → List Char
  | 0, text => text
  | _ + 1, [] => []
  | fuel + 1, c :: rest =>
    if part.isPrefixOf (c :: rest) then removeAll part fuel ((c :: rest).drop part.length)
    else c :: removeAll part fuel rest

/-- A brace of a UUID in curly brackets. -/
def isBrace (c : Char) : Bool := c = '\x7b' || c = '\x7d'

/-- `UUID(text)`, or `None` where it raises `ValueError`. -/
def uuidOfText (s : String) : Option Uuid :=
  let text := s.toList
  let text := removeAll ['u', 'r', 'n', ':'] text.length text
  let text := removeAll ['u', 'u', 'i', 'd', ':'] text.length text
  let text := ((text.dropWhile isBrace).reverse.dropWhile isBrace).reverse
  let hex := text.filter (· ≠ '-')
  if hex.length = 32 then
    hex.foldlM (fun n c => (Hex.value c).map fun d => n * 16 + d) 0
  else
    none

/-- An instant, in microseconds. -/
abbrev Time := Nat

/-- A second, in microseconds. -/
def second : Time := 1000000

/-- A full SHA-256 digest. -/
structure Digest where
  bytes : List UInt8
  size : bytes.length = 32
deriving DecidableEq

/-- `bytes.hex()`. -/
def Digest.hex (d : Digest) : String := String.ofList (Hex.encode d.bytes)

theorem Digest.hex_inj {d e : Digest} (h : d.hex = e.hex) : d = e := by
  have hbytes : d.bytes = e.bytes := Hex.encode_inj (String.ofList_injective h)
  cases d
  cases e
  simpa using hbytes

/-- Digests for examples. -/
def Sample.digest (b : UInt8) : Digest := ⟨List.replicate 32 b, by simp⟩

/-- What the driver raises, by how `translate_database_error` reads it:
a dead connection or a timeout, SQLSTATE 40001 or 40P01, a violated
constraint, anything else. -/
inductive DbError where
  | connection
  | conflict
  | integrity
  | other
deriving DecidableEq

/-- The exceptions the modelled code raises, catches or lets through. -/
inductive Exn where
  | invalidDomainState
  | invalidTimestamp
  | invalidSessionLifetime
  | invalidCredentials
  | userAlreadyExists
  | invalidRefreshToken
  | authSessionInactive
  | refreshTokenReuse
  | idempotencyStorageUnavailable
  | idempotencyKeyConflict
  | idempotencyRequestInProgress
  | refreshReplayUnavailable
  | profileProvisioningUnavailable
  | profileProvisioningRejected
  | persistenceError
  | persistenceUnavailable
  | transactionConflict
  | persistenceIntegrity
  | storedState
  | entityNotFound
  | passwordHashing
  | concurrentWinnerCommitted
  | lostRegistrationClaim
  | registrationFinalizationConflict
  | permanentPublish
  | transientPublish
  | database (d : DbError)
  | runtimeError (message : String)
  | valueError (message : String)
  | typeError
  | overflowError
  | cancelled
  | other (tag : Nat)
deriving DecidableEq

/-- `type(error).__name__`. Several classes of the driver's errors are read as
one kind; each kind has the name of one of them. -/
def Exn.className : Exn → String
  | .invalidDomainState => "InvalidDomainStateError"
  | .invalidTimestamp => "InvalidTimestampError"
  | .invalidSessionLifetime => "InvalidSessionLifetimeError"
  | .invalidCredentials => "InvalidCredentialsError"
  | .userAlreadyExists => "UserAlreadyExistsError"
  | .invalidRefreshToken => "InvalidRefreshTokenError"
  | .authSessionInactive => "AuthSessionInactiveError"
  | .refreshTokenReuse => "RefreshTokenReuseError"
  | .idempotencyStorageUnavailable => "IdempotencyStorageUnavailableError"
  | .idempotencyKeyConflict => "IdempotencyKeyConflictError"
  | .idempotencyRequestInProgress => "IdempotencyRequestInProgressError"
  | .refreshReplayUnavailable => "RefreshReplayUnavailableError"
  | .profileProvisioningUnavailable => "ProfileProvisioningUnavailableError"
  | .profileProvisioningRejected => "ProfileProvisioningRejectedError"
  | .persistenceError => "PersistenceError"
  | .persistenceUnavailable => "PersistenceUnavailableError"
  | .transactionConflict => "TransactionConflictError"
  | .persistenceIntegrity => "PersistenceIntegrityError"
  | .storedState => "StoredStateError"
  | .entityNotFound => "EntityNotFoundError"
  | .passwordHashing => "PasswordHashingError"
  | .concurrentWinnerCommitted => "_ConcurrentWinnerCommitted"
  | .lostRegistrationClaim => "_LostRegistrationClaim"
  | .registrationFinalizationConflict => "_RegistrationFinalizationConflict"
  | .permanentPublish => "PermanentPublishError"
  | .transientPublish => "TransientPublishError"
  | .database .connection => "TimeoutError"
  | .database .conflict => "DBAPIError"
  | .database .integrity => "IntegrityError"
  | .database .other => "SQLAlchemyError"
  | .runtimeError _ => "RuntimeError"
  | .valueError _ => "ValueError"
  | .typeError => "TypeError"
  | .overflowError => "OverflowError"
  | .cancelled => "CancelledError"
  | .other tag => "Exception" ++ toString tag

/-- `except Exception` lets a task cancellation through. -/
def Exn.isException (x : Exn) : Bool := x ≠ .cancelled

/-- The text of the error `execute_once` raises when a lost race left no
winner behind. -/
def noWinner : String := "idempotency unique conflict without a committed winner"

/-- Exceptions raised outside the idempotency service: its own private
signal, and the error it raises when that signal has no explanation, are
not among them. -/
def Exn.foreign (x : Exn) : Bool := x ≠ .concurrentWinnerCommitted ∧ x ≠ .runtimeError noWinner

/-- `translate_database_error`. -/
def translateDatabaseError : DbError → Exn
  | .connection => .persistenceUnavailable
  | .conflict => .transactionConflict
  | .integrity => .persistenceIntegrity
  | .other => .persistenceError

theorem translateDatabaseError_foreign (d : DbError) :
    (translateDatabaseError d).foreign = true := by
  cases d <;> decide

/-- A computation that succeeds did so at each of its steps. -/
theorem bind_eq_ok {ε α β : Type} {x : Except ε α} {f : α → Except ε β} {b : β} :
    (x >>= f) = .ok b ↔ ∃ a, x = .ok a ∧ f a = .ok b := by
  cases x with
  | error e => exact ⟨nofun, nofun⟩
  | ok a => exact ⟨fun h => ⟨a, rfl, h⟩, fun ⟨_, rfl, h⟩ => h⟩

/-- An exception the outside may inject at an await. -/
structure Fault where
  exn : Exn
  foreign : exn.foreign = true

end IdentityService
