import IdentityService.Auth.Repositories
import IdentityService.Idempotency.Coordinator

/-!
# Login, refresh, logout

`LoginHandler`, `TransactionalRefreshOperation` with `RefreshHandler`, and
`LogoutHandler`, and next to them a transaction that disables an account.
Logging is left out.

SHA-256 is a parameter, applied to the UTF-8 text of a string, and so is the
cipher behind the replay protector: none of its properties are used here.
-/

namespace IdentityService

open Concurrent

/-! ## Data -/

/-- `TokenPair`. -/
structure TokenPair where
  accessToken : String
  refreshToken : String
  tokenType : String
deriving DecidableEq

namespace TokenPair

/-- `model_dump`. -/
def dump (pair : TokenPair) : List (String × String) :=
  [("access_token", pair.accessToken), ("refresh_token", pair.refreshToken),
    ("token_type", pair.tokenType)]

/-- `model_validate`; a pydantic `ValidationError` is a `ValueError`. -/
def validate (payload : List (String × String)) : Except Exn TokenPair :=
  match payload.lookup "access_token", payload.lookup "refresh_token" with
  | some access, some refresh =>
    .ok ⟨access, refresh, (payload.lookup "token_type").getD "bearer"⟩
  | _, _ => .error (.valueError "TokenPair")

end TokenPair

/-- `IssuedTokenPair`: the pair, and the digest that its refresh token is
stored under. -/
structure IssuedTokenPair where
  pair : TokenPair
  refreshDigest : Digest

/-- `LoginCommand`. -/
structure LoginCommand where
  email : String
  password : String
deriving DecidableEq

/-- `RefreshCommand`, with the digest of its idempotency key. -/
structure RefreshCommand where
  refreshToken : String
  keyHash : Digest
deriving DecidableEq

/-- `LogoutCommand`. -/
structure LogoutCommand where
  refreshToken : Option String
deriving DecidableEq

/-- `ReplayResultProtectorProtocol`: `protect` draws a nonce, `restore` may
refuse an envelope. The associated data is the object whose text
`replay_aad` encodes. -/
structure ReplayResultProtector where
  protect : (nonce : List UInt8) → (payload : List (String × String)) → (aad : Json) →
    List (String × Json)
  restore : (envelope : List (String × Json)) → (aad : Json) →
    Except Exn (List (String × String))

/-- What the handlers are constructed with. -/
structure AuthConfig where
  sha256 : String → Digest
  protector : ReplayResultProtector
  sessionIdleTtl : Int
  retention : Retention
  leaseSeconds : Int

/-- `PUBLIC_REFRESH_SUBJECT`. -/
def publicRefreshSubject : String := "public-refresh"

/-- `REFRESH_OPERATION`. -/
def refreshOperationName : String := "auth.refresh"

/-- `SUCCESS_RESULT`. -/
def successResult : String := "auth.refresh.success"

/-- `REJECTED_RESULT`. -/
def rejectedResult : String := "auth.refresh.rejected"

/-- `replay_aad`, before it is turned into text. -/
def replayAad (identity : IdempotencyIdentity) (requestHash : Digest) (resultType : String)
    (resultVersion : Nat) : Json :=
  .obj [("format_version", .int 1), ("key_hash", .str identity.keyHash.hex),
    ("operation", .str identity.operation), ("request_hash", .str requestHash.hex),
    ("result_type", .str resultType), ("result_version", .int resultVersion),
    ("subject_id", .str identity.subjectId)]

/-- The canonical text of `{"refresh_token_digest": ..}`. -/
def refreshFingerprint (digest : Digest) : String :=
  "\x7b\"refresh_token_digest\":\"" ++ digest.hex ++ "\"\x7d"

theorem affix_inj {a b s t : String} (h : a ++ s ++ b = a ++ t ++ b) : s = t := by
  have hlist := congrArg String.toList h
  simp only [String.toList_append, List.append_assoc, List.append_cancel_left_eq,
    List.append_cancel_right_eq] at hlist
  exact String.toList_inj.mp hlist

theorem refreshFingerprint_inj {d e : Digest}
    (h : refreshFingerprint d = refreshFingerprint e) : d = e :=
  Digest.hex_inj (affix_inj h)

namespace AuthConfig

variable (cfg : AuthConfig)

/-- `codec.digest`. -/
def digest (token : String) : Digest := cfg.sha256 token

/-- `compute_request_hash` of the refresh request. -/
def requestHash (tokenDigest : Digest) : Digest := cfg.sha256 (refreshFingerprint tokenDigest)

end AuthConfig

/-- The identity under which a refresh is recorded. -/
def RefreshCommand.identity (command : RefreshCommand) : IdempotencyIdentity :=
  ⟨publicRefreshSubject, refreshOperationName, command.keyHash, by decide, by decide⟩

/-- The fingerprint of the request. -/
def RefreshCommand.requestHash (command : RefreshCommand) (cfg : AuthConfig) : Digest :=
  cfg.requestHash (cfg.digest command.refreshToken)

/-! ## Login -/

variable (cfg : AuthConfig)

/-- `TokenPairIssuer.issue`. -/
def issueTokenPair (user : User) (now : Time) : AuthOp IssuedTokenPair := do
  let access ← AuthOp.draw (.accessToken user.id user.role now)
  let refresh ← AuthOp.draw .refreshToken
  return ⟨⟨access, refresh, "bearer"⟩, cfg.digest refresh⟩

/-- `verify_or_dummy`: without a hash, one is computed and thrown away. -/
def verifyOrDummy (password : String) : Option String → App auth Bool
  | none => do
    let _ ← (AuthOp.draw (.hash password)).run
    return false
  | some passwordHash => (AuthOp.draw (.verify password passwordHash)).run

/-- The second transaction of a login: the account may have changed since
the password was checked, so it is read again, under a lock. -/
def startSession (candidateId : Uuid) (passwordHash : String) : AuthOp TokenPair := do
  match ← UserRepository.getForUpdate candidateId with
  | none => throw .invalidCredentials
  | some user =>
    if !user.canAuthenticate || user.passwordHash ≠ passwordHash then
      throw .invalidCredentials
    else
      let now ← AuthOp.clock
      let issued ← issueTokenPair cfg user now
      let sessionId ← AuthOp.draw .uuid7
      let tokenId ← AuthOp.draw .uuid7
      let session ← Prog.ofExcept
        (AuthSession.start sessionId tokenId user.id issued.refreshDigest now cfg.sessionIdleTtl)
      AuthSessionRepository.create session
      return issued.pair

/-- `LoginHandler.execute`. -/
def loginExecute (command : LoginCommand) : App auth TokenPair := do
  let candidate ← uow (UserRepository.getByEmail command.email).run
  let passwordHash := candidate.bind fun user =>
    if user.canAuthenticate then some user.passwordHash else none
  let verified ← verifyOrDummy command.password passwordHash
  match candidate, verified, passwordHash with
  | some candidate, true, some passwordHash =>
    uow (startSession cfg candidate.id passwordHash).run
  | _, _, _ => throw .invalidCredentials

/-! ## Refresh -/

/-- A refusal is a result: raising it would roll the revocation back. -/
def rejectedStored : StoredResult :=
  ⟨rejectedResult, some [("code", .str "invalid_refresh")], 1, none, none, none, by decide,
    Nat.one_pos, StoredResult.untyped, StoredResult.unversioned, StoredResult.unpaired, by simp,
    StoredResult.unbound⟩

/-- What a successful rotation leaves to be replayed. -/
def successStored (envelope : List (String × Json)) (replacementId : Uuid) : StoredResult :=
  ⟨successResult, some envelope, 1, some "refresh_token", some (uuidText replacementId), none,
    by decide, Nat.one_pos, by simp; decide, StoredResult.unversioned, rfl, by simp, by simp⟩

/-- The rest of the operation, on a session that accepts the token. -/
def rotateSession (identity : IdempotencyIdentity) (requestHash : Digest) (session : AuthSession)
    (user : User) (now : Time) : AuthOp StoredResult := do
  let issued ← issueTokenPair cfg user now
  let tokenId ← AuthOp.draw .uuid7
  let session ← Prog.ofExcept
    (session.rotate tokenId now cfg.sessionIdleTtl issued.refreshDigest)
  AuthSessionRepository.save session
  let nonce ← AuthOp.draw .nonce
  let envelope := cfg.protector.protect nonce issued.pair.dump
    (replayAad identity requestHash successResult 1)
  return successStored envelope tokenId

/-- What follows the verdict of `accepts_refresh`. -/
def settleRefresh (identity : IdempotencyIdentity) (requestHash : Digest) (user : Option User)
    (now : Time) : Bool × AuthSession → AuthOp StoredResult
  | (false, session) => do
    AuthSessionRepository.save session
    return rejectedStored
  | (true, session) =>
    match user with
    | none => throw .invalidRefreshToken
    | some user => rotateSession cfg identity requestHash session user now

/-- `TransactionalRefreshOperation.execute`. The account is read without a
lock. -/
def refreshOperation (rawToken : String) (identity : IdempotencyIdentity) (requestHash : Digest) :
    AuthOp StoredResult := do
  match ← AuthSessionRepository.getByRefreshHashForUpdate (cfg.digest rawToken) with
  | none => throw .invalidRefreshToken
  | some session =>
    let user ← UserRepository.get session.userId
    let now ← AuthOp.clock
    let verdict ← Prog.ofExcept
      (session.acceptsRefresh now (user.any User.canAuthenticate))
    settleRefresh cfg identity requestHash user now verdict

/-- `UUID(resource_id)`. -/
def resourceUuid (resourceId : String) : Except Exn Uuid :=
  match uuidOfText resourceId with
  | some u => .ok u
  | none => .error (.valueError "badly formed hexadecimal UUID string")

/-- The token a replay would hand out must still be the current one. -/
def checkReplay (tokenId : Uuid) : App auth Unit :=
  uow do
    match ← (AuthSessionRepository.getByRefreshId tokenId).run with
    | none => throw .invalidRefreshToken
    | some session =>
      let now ← utcNow
      let replayable ← Prog.ofExcept (session.canReplay now)
      if replayable then pure () else throw .invalidRefreshToken

/-- The `try` block of `RefreshHandler.execute`. -/
def replayPair (identity : IdempotencyIdentity) (requestHash : Digest)
    (completed : CompletedIdempotencyResult) (payload : List (String × Json))
    (resourceId : String) :
    App auth TokenPair := do
  let tokenId ← Prog.ofExcept (resourceUuid resourceId)
  checkReplay tokenId
  let restored ← Prog.ofExcept (cfg.protector.restore payload
    (replayAad identity requestHash completed.resultType completed.resultVersion))
  Prog.ofExcept (TokenPair.validate restored)

/-- From a completed result to the pair it stands for. -/
def answerCompleted (identity : IdempotencyIdentity) (requestHash : Digest)
    (completed : CompletedIdempotencyResult) : App auth TokenPair := do
  if completed.resultType = rejectedResult then
    throw .invalidRefreshToken
  else if completed.resultType ≠ successResult then
    throw .refreshReplayUnavailable
  else
    match completed.resultPayload, completed.resourceId with
    | some payload, some resourceId =>
      match ← (replayPair cfg identity requestHash completed payload resourceId).outcome with
      | .ok pair => pure pair
      | .error (.valueError _) => throw .refreshReplayUnavailable
      | .error x => throw x
    | _, _ => throw .refreshReplayUnavailable

/-- `RefreshHandler.execute`, with or without a hot store. -/
def refreshExecute (hotStore : Bool) (command : RefreshCommand) : App auth TokenPair := do
  let identity := command.identity
  let requestHash := command.requestHash cfg
  let result ← coordinatorExecute hotStore cfg.retention identity requestHash
    (refreshOperation cfg command.refreshToken identity requestHash) cfg.leaseSeconds
  match result.outcome with
  | .conflict => throw .idempotencyKeyConflict
  | .inProgress => throw .idempotencyRequestInProgress
  | _ =>
    match result.completed with
    | none => throw (.runtimeError "successful idempotency outcome has no result")
    | some completed => answerCompleted cfg identity requestHash completed

/-! ## Logout, and an account that is disabled -/

/-- `LogoutHandler.execute`. -/
def logoutExecute (command : LogoutCommand) : App auth Unit :=
  match command.refreshToken with
  | none => pure ()
  | some token =>
    uow do
      match ← (AuthSessionRepository.getByRefreshHashForUpdate (cfg.digest token)).run with
      | none => pure ()
      | some session =>
        let now ← utcNow
        let session ← Prog.ofExcept (session.revoke now)
        (AuthSessionRepository.save session).run

/-- A transaction that sets a user's status to DISABLED. -/
def disableUser (userId : Uuid) : App auth Unit :=
  uow do
    match ← (UserRepository.getForUpdate userId).run with
    | none => pure ()
    | some user =>
      let now ← utcNow
      let user ← Prog.ofExcept (user.disable now)
      (UserRepository.update user).run

/-! ## Processes -/

/-- One request of the service. -/
inductive AuthCallee where
  | login (command : LoginCommand)
  | refresh (hotStore : Bool) (command : RefreshCommand)
  | logout (command : LogoutCommand)
  | disable (userId : Uuid)

inductive AuthAnswer where
  | pair (pair : TokenPair)
  | done

def AuthCallee.program : AuthCallee → App auth AuthAnswer
  | .login command => do return .pair (← loginExecute cfg command)
  | .refresh hotStore command => do return .pair (← refreshExecute cfg hotStore command)
  | .logout command => do
    logoutExecute cfg command
    return .done
  | .disable userId => do
    disableUser userId
    return .done

variable {cfg} (C : ResultCodec)

/-- A service that has users and nothing else yet. -/
def AuthCallee.start (cfg : AuthConfig) (users : List User) (clock : Time)
    (callees : Nat → Option AuthCallee) : Config (sig auth) Exn (World auth C) AuthAnswer :=
  ⟨⟨Store.quiet fun
      | .biz (.user id) => users.find? fun u => u.id = id
      | .biz (.userEmail email) => (users.find? fun u => u.email = email).map User.id
      | _ => none, clock, fun _ => none, fun _ => [], fun _ => false⟩,
    fun i => (callees i).map (AuthCallee.program cfg)⟩

end IdentityService
