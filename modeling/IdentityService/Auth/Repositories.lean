import IdentityService.Domain
import IdentityService.Idempotency.World

/-!
# Users, sessions and tokens in the database

The tables of the authentication use cases as a `Business`, and the
repositories over them. A unique column is a key of its own: `tokenHash`
and `userEmail` hold the id of the row that owns the value, so that an
INSERT claims the primary key and the unique column, each with its lock.

`_to_domain` validates what a query returns. Rows of `users` are valid by
type; tokens and sessions go through their validators, and what those
reject is a `StoredStateError`. A row just written is the validated entity
itself, so reading it back needs no second look.

The foreign keys have nothing to refuse: a token is only ever inserted by a
transaction that holds its session, and a session by one that holds its
user.
-/

namespace IdentityService

open Concurrent

/-- A row of `auth_sessions`. -/
structure AuthSessionRow where
  id : Uuid
  userId : Uuid
  createdAt : Time
  idleExpiresAt : Time
  revokedAt : Option Time
deriving DecidableEq

/-- What a row of the auth tables is found by. -/
inductive AuthKey where
  | user (id : Uuid)
  | userEmail (email : String)
  | session (id : Uuid)
  | token (id : Uuid)
  | tokenHash (digest : Digest)
deriving DecidableEq

/-- The row that a key stands for; an index has the id of the row it leads to. -/
@[reducible] def AuthKey.Row : AuthKey → Type
  | .user _ => User
  | .userEmail _ => Uuid
  | .session _ => AuthSessionRow
  | .token _ => RefreshToken
  | .tokenHash _ => Uuid

/-- What the handlers draw from outside: the password hasher, the signer of
access tokens, and randomness. -/
inductive AuthExt where
  | verify (password passwordHash : String)
  | hash (password : String)
  | accessToken (userId : Uuid) (role : UserRole) (now : Time)
  | refreshToken
  | uuid7
  | nonce

@[reducible] def AuthExt.Resp : AuthExt → Type
  | .verify _ _ => Bool
  | .hash _ => String
  | .accessToken _ _ _ => String
  | .refreshToken => String
  | .uuid7 => Uuid
  | .nonce => List UInt8

/-- The business of the auth service. -/
abbrev auth : Business := ⟨AuthKey, inferInstance, AuthKey.Row, AuthExt, AuthExt.Resp⟩

/-- Code inside a transaction. -/
abbrev AuthOp (α : Type) := Operation auth α

namespace AuthOp

def ask (e : OpEff auth) : AuthOp e.Resp := Prog.perform (S := opSig auth) e

def select (k : AuthKey) : AuthOp (Option k.Row) := ask (.read k)

/-- `SELECT .. FOR UPDATE`. -/
def selectForUpdate (k : AuthKey) : AuthOp (Option k.Row) := ask (.lock k)

def put (k : AuthKey) (row : k.Row) : AuthOp Unit := ask (.put k row)

def clock : AuthOp Time := ask .now

def draw (x : AuthExt) : AuthOp x.Resp := ask (.ext x)

/-- `add` and `flush`: an INSERT that a unique constraint may refuse. -/
def create (k : AuthKey) (row : k.Row) : AuthOp Unit := do
  let added ← ask (.insert k row)
  if added then pure () else throw (.database .integrity)

/-- `SQLAlchemyAsyncRepository.update`: the row is written whole, over the
one that is locked. -/
def update (k : AuthKey) (row : k.Row) : AuthOp Unit := do
  match ← selectForUpdate k with
  | none => throw .entityNotFound
  | some _ => put k row

end AuthOp

/-- A stored row that the domain model does not accept. -/
def loaded {α : Type} : Except Exn α → Except Exn α
  | .ok a => .ok a
  | .error _ => .error .storedState

namespace UserRepository

/-- `UserRepository.get`. -/
def get (id : Uuid) : AuthOp (Option User) := AuthOp.select (.user id)

/-- `UserRepository.get_for_update`. -/
def getForUpdate (id : Uuid) : AuthOp (Option User) := AuthOp.selectForUpdate (.user id)

/-- `UserRepository.get_by_email`. -/
def getByEmail (email : String) : AuthOp (Option User) := do
  match ← AuthOp.select (.userEmail email) with
  | none => pure none
  | some id => get id

/-- `UserRepository.update`. -/
def update (user : User) : AuthOp Unit := AuthOp.update (.user user.id) user

end UserRepository

namespace RefreshTokenRepository

/-- `RefreshTokenRepository.get`. -/
def get (id : Uuid) : AuthOp (Option RefreshToken) := do
  match ← AuthOp.select (.token id) with
  | none => pure none
  | some row =>
    let token ← Prog.ofExcept (loaded row.validate)
    pure (some token)

/-- `WHERE token_hash = .. FOR UPDATE`. -/
def getByHashForUpdate (tokenHash : Digest) : AuthOp (Option RefreshToken) := do
  match ← AuthOp.select (.tokenHash tokenHash) with
  | none => pure none
  | some id =>
    match ← AuthOp.selectForUpdate (.token id) with
    | none => pure none
    | some row =>
      let token ← Prog.ofExcept (loaded row.validate)
      pure (some token)

/-- `RefreshTokenRepository.create`; the digest is unique. -/
def create (token : RefreshToken) : AuthOp Unit := do
  AuthOp.create (.token token.id) token
  AuthOp.create (.tokenHash token.tokenHash) token.id

/-- `RefreshTokenRepository.update`. -/
def update (token : RefreshToken) : AuthOp Unit := AuthOp.update (.token token.id) token

end RefreshTokenRepository

/-- `model_dump`: the tokens are excluded. -/
def AuthSession.row (s : AuthSession) : AuthSessionRow :=
  ⟨s.id, s.userId, s.createdAt, s.idleExpiresAt, s.revokedAt⟩

/-- `_with_token`, on a row that was found. -/
def AuthSessionRow.withToken (row : AuthSessionRow) (token : RefreshToken) :
    Except Exn AuthSession :=
  loaded do
    let session ← AuthSession.validate
      { id := row.id
        userId := row.userId
        createdAt := row.createdAt
        idleExpiresAt := row.idleExpiresAt
        revokedAt := row.revokedAt
        refreshToken := none
        replacementToken := none }
    AuthSession.validate { session with refreshToken := some token }

namespace AuthSessionRepository

/-- `AuthSessionRepository.create`. -/
def create (session : AuthSession) : AuthOp Unit := do
  AuthOp.create (.session session.id) session.row
  match session.refreshToken with
  | none => pure ()
  | some token => RefreshTokenRepository.create token

/-- `AuthSessionRepository.save`. -/
def save (session : AuthSession) : AuthOp Unit := do
  AuthOp.update (.session session.id) session.row
  match session.refreshToken with
  | none => pure ()
  | some token => RefreshTokenRepository.update token
  match session.replacementToken with
  | none => pure ()
  | some token => RefreshTokenRepository.create token

/-- One order of locks for refresh and logout: the token, then the
session. -/
def getByRefreshHashForUpdate (tokenHash : Digest) : AuthOp (Option AuthSession) := do
  match ← RefreshTokenRepository.getByHashForUpdate tokenHash with
  | none => pure none
  | some token =>
    match ← AuthOp.selectForUpdate (.session token.sessionId) with
    | none => pure none
    | some row =>
      let session ← Prog.ofExcept (row.withToken token)
      pure (some session)

/-- `AuthSessionRepository.get_by_refresh_id`. -/
def getByRefreshId (tokenId : Uuid) : AuthOp (Option AuthSession) := do
  match ← RefreshTokenRepository.get tokenId with
  | none => pure none
  | some token =>
    match ← AuthOp.select (.session token.sessionId) with
    | none => pure none
    | some row =>
      let session ← Prog.ofExcept (row.withToken token)
      pure (some session)

end AuthSessionRepository

end IdentityService
