import IdentityService.Base

/-!
# Aggregates

`User`, `RefreshToken` and `AuthSession`. A pydantic model validates every
state it is given, so constructors and `_change_state` are functions into
`Except`: a transition either yields a valid state or raises and leaves the
old one. Instants here are aware; naive ones do not reach the aggregates
from the handlers.
-/

namespace IdentityService

/-- `UserStatus`. -/
inductive UserStatus where
  | active
  | disabled
deriving DecidableEq

/-- `UserRole`. -/
inductive UserRole where
  | user
  | admin
deriving DecidableEq

/-- `User`. -/
structure User where
  id : Uuid
  email : String
  passwordHash : String
  role : UserRole
  status : UserStatus
  createdAt : Time
  updatedAt : Option Time
deriving DecidableEq

/-- `User.can_authenticate`. -/
def User.canAuthenticate (u : User) : Bool := u.status = .active

/-- `disable`, with the checks of `_change_at` and `validate_updated_at`. -/
def User.disable (u : User) (now : Time) : Except Exn User :=
  if u.status = .disabled then .ok u
  else if now < u.updatedAt.getD u.createdAt then .error .invalidTimestamp
  else if now < u.createdAt then .error .invalidTimestamp
  else .ok { u with updatedAt := some now, status := .disabled }

/-- One single-use credential of a session. -/
structure RefreshToken where
  id : Uuid
  sessionId : Uuid
  tokenHash : Digest
  createdAt : Time
  usedAt : Option Time
deriving DecidableEq

namespace RefreshToken

/-- `RefreshToken.is_used`. -/
def isUsed (t : RefreshToken) : Bool := t.usedAt.isSome

/-- `validate_used_at`. -/
def validate (t : RefreshToken) : Except Exn RefreshToken :=
  if t.usedAt.any (· < t.createdAt) then .error .invalidTimestamp else .ok t

/-- `_consumed`. -/
def consumed (t : RefreshToken) (now : Time) : Except Exn RefreshToken :=
  if t.isUsed then .error .refreshTokenReuse else validate { t with usedAt := some now }

end RefreshToken

/-- A session with the token that was presented and, after a rotation, its
replacement. -/
structure AuthSession where
  id : Uuid
  userId : Uuid
  createdAt : Time
  idleExpiresAt : Time
  revokedAt : Option Time
  refreshToken : Option RefreshToken
  replacementToken : Option RefreshToken
deriving DecidableEq

namespace AuthSession

/-- The token belongs to the session and is not older than it. -/
def fits (s : AuthSession) (t : RefreshToken) : Bool :=
  t.sessionId = s.id && s.createdAt ≤ t.createdAt

/-- The replacement is an unused successor of a used token. -/
def succeeds (s : AuthSession) (replacement : RefreshToken) : Bool :=
  s.refreshToken.any fun t => t.isUsed && !replacement.isUsed && replacement.id ≠ t.id &&
    replacement.tokenHash ≠ t.tokenHash

/-- `validate_lifecycle`. -/
def validate (s : AuthSession) : Except Exn AuthSession :=
  if s.idleExpiresAt ≤ s.createdAt then .error .invalidTimestamp
  else if s.revokedAt.any (· < s.createdAt) then .error .invalidTimestamp
  else if !(s.refreshToken.all s.fits && s.replacementToken.all s.fits) then
    .error .invalidDomainState
  else if !s.replacementToken.all s.succeeds then .error .invalidDomainState
  else .ok s

/-- `AuthSession._validate_ttl`. -/
def validateTtl (idleTtl : Int) : Except Exn Unit :=
  if idleTtl ≤ 0 then .error .invalidSessionLifetime else .ok ()

/-- `start`; the two ids are the `uuid7` defaults. -/
def start (sessionId tokenId userId : Uuid) (tokenHash : Digest) (now : Time) (idleTtl : Int) :
    Except Exn AuthSession := do
  validateTtl idleTtl
  let token ← RefreshToken.validate ⟨tokenId, sessionId, tokenHash, now, none⟩
  validate
    { id := sessionId
      userId := userId
      createdAt := now
      idleExpiresAt := now + idleTtl.toNat
      revokedAt := none
      refreshToken := some token
      replacementToken := none }

/-- `AuthSession.is_active`. -/
def isActive (s : AuthSession) (now : Time) : Bool :=
  s.revokedAt.isNone && s.createdAt ≤ now && now < s.idleExpiresAt

/-- `AuthSession._require_token`. -/
def requireToken (s : AuthSession) : Except Exn RefreshToken :=
  match s.refreshToken with
  | some token => .ok token
  | none => .error .invalidRefreshToken

/-- `AuthSession.revoke`. -/
def revoke (s : AuthSession) (now : Time) : Except Exn AuthSession :=
  match s.revokedAt with
  | some _ => .ok s
  | none => validate { s with revokedAt := some now }

/-- `accepts_refresh`: the verdict, and the session with a revocation to
save when the verdict is no. -/
def acceptsRefresh (s : AuthSession) (now : Time) (userCanAuthenticate : Bool) :
    Except Exn (Bool × AuthSession) := do
  let token ← s.requireToken
  if token.isUsed then
    return (false, ← s.revoke now)
  else if !s.isActive now then
    throw .authSessionInactive
  else if !userCanAuthenticate then
    return (false, ← s.revoke now)
  else
    return (true, s)

/-- `rotate`: the session, with the presented token used and a replacement
of id `tokenId`. -/
def rotate (s : AuthSession) (tokenId : Uuid) (now : Time) (idleTtl : Int) (tokenHash : Digest) :
    Except Exn AuthSession := do
  validateTtl idleTtl
  if !s.isActive now then
    throw .authSessionInactive
  else
    let token ← s.requireToken
    if token.isUsed then
      throw .refreshTokenReuse
    else
      let replacement ← RefreshToken.validate ⟨tokenId, s.id, tokenHash, now, none⟩
      let used ← token.consumed now
      validate
        { s with
          refreshToken := some used
          replacementToken := some replacement
          idleExpiresAt := now + idleTtl.toNat }

/-- `AuthSession.can_replay`. -/
def canReplay (s : AuthSession) (now : Time) : Except Exn Bool := do
  let token ← s.requireToken
  return !token.isUsed && s.isActive now

end AuthSession

end IdentityService
