import IdentityService.Datetime

/-!
# The session as an object

`AuthSession` and its `RefreshToken` as mutable objects: a method runs on the
state of its instance, and what it wrote before it raised stays written. The
handlers' model reads a transition as a function into `Except`; that it may
is what is shown here, for times and digests of every kind a caller can pass.
-/

namespace IdentityService.Aggregate

/-- `RefreshToken`, with the timestamps as datetimes. -/
structure RefreshToken where
  id : Uuid
  sessionId : Uuid
  tokenHash : List UInt8
  createdAt : Datetime
  usedAt : Option Datetime

namespace RefreshToken

/-- `RefreshToken.is_used`. -/
def isUsed (t : RefreshToken) : Bool := t.usedAt.isSome

/-- The bounds of the `token_hash` field, `validate_created_at` and
`validate_used_at`. -/
def validate (t : RefreshToken) : Except Exn Unit := do
  if t.tokenHash.length ≠ 32 then
    throw .invalidDomainState
  t.createdAt.requireAware
  match t.usedAt with
  | none => return ()
  | some used =>
    used.requireAware
    if ← used.lt t.createdAt then
      throw .invalidTimestamp

/-- `_consumed`: a validated copy. -/
def consumed (t : RefreshToken) (now : Datetime) : Except Exn RefreshToken := do
  if t.isUsed then
    throw .refreshTokenReuse
  let copy := { t with usedAt := some now }
  copy.validate
  return copy

end RefreshToken

/-- `AuthSession`, with the timestamps as datetimes. -/
structure AuthSession where
  id : Uuid
  userId : Uuid
  createdAt : Datetime
  idleExpiresAt : Datetime
  revokedAt : Option Datetime
  refreshToken : Option RefreshToken
  replacementToken : Option RefreshToken

namespace AuthSession

/-- The check of `validate_lifecycle` on either token. -/
def fits (s : AuthSession) : Option RefreshToken → Except Exn Unit
  | none => return ()
  | some token => do
    if token.sessionId ≠ s.id then
      throw .invalidDomainState
    if ← token.createdAt.lt s.createdAt then
      throw .invalidDomainState

/-- `validate_created_at`, then `validate_lifecycle`. -/
def validate (s : AuthSession) : Except Exn Unit := do
  s.createdAt.requireAware
  s.idleExpiresAt.requireAware
  if ← s.idleExpiresAt.le s.createdAt then
    throw .invalidTimestamp
  match s.revokedAt with
  | none => pure ()
  | some revoked =>
    revoked.requireAware
    if ← revoked.lt s.createdAt then
      throw .invalidTimestamp
  s.fits s.refreshToken
  s.fits s.replacementToken
  match s.replacementToken with
  | none => return ()
  | some replacement =>
    match s.refreshToken with
    | none => throw .invalidDomainState
    | some token =>
      if !token.isUsed || replacement.isUsed || replacement.id = token.id ||
          replacement.tokenHash = token.tokenHash then
        throw .invalidDomainState

/-- Accepted by its validators, with the tokens it holds. -/
structure Accepted (s : AuthSession) : Prop where
  lifecycle : s.validate = .ok ()
  refreshToken : ∀ t, s.refreshToken = some t → t.validate = .ok ()
  replacementToken : ∀ t, s.replacementToken = some t → t.validate = .ok ()

end AuthSession

/-! ## Methods -/

/-- A method of the session: it answers or raises, and leaves a state. -/
def Method (α : Type) : Type := AuthSession → Except Exn α × AuthSession

namespace Method

variable {α β : Type}

instance : Monad Method where
  pure a s := (.ok a, s)
  bind m f s :=
    match m s with
    | (.ok a, s') => f a s'
    | (.error x, s') => (.error x, s')

instance : MonadExceptOf Exn Method where
  throw x s := (.error x, s)
  tryCatch m f s :=
    match m s with
    | (.ok a, s') => (.ok a, s')
    | (.error x, s') => f x s'

instance : MonadLift (Except Exn) Method where
  monadLift e s := (e, s)

/-- `self`. -/
def self : Method AuthSession := fun s => (.ok s, s)

/-- `_change_state`: the candidate is validated, then written. -/
def changeState (change : AuthSession → AuthSession) : Method Unit := fun s =>
  match (change s).validate with
  | .ok _ => (.ok (), change s)
  | .error x => (.error x, s)

theorem bind_apply (m : Method α) (f : α → Method β) (s : AuthSession) : (m >>= f) s =
    match m s with
    | (.ok a, s') => f a s'
    | (.error x, s') => (.error x, s') := rfl

theorem id_map (m : Method α) : id <$> m = m := by
  funext s
  show (match m s with
    | (.ok a, s') => (Except.ok a, s')
    | (.error x, s') => (.error x, s')) = m s
  rcases m s with ⟨_ | _, s'⟩ <;> rfl

theorem bind_bind {γ : Type} (m : Method α) (f : α → Method β) (g : β → Method γ) :
    m >>= f >>= g = m >>= fun a => f a >>= g := by
  funext s
  simp only [bind_apply]
  rcases m s with ⟨_ | _, s'⟩ <;> rfl

instance : LawfulMonad Method := LawfulMonad.mk' Method id_map (fun _ _ => rfl) bind_bind

end Method

namespace AuthSession

/-- `AuthSession._validate_ttl`. -/
def validateTtl (idleTtl : Int) : Except Exn Unit :=
  if idleTtl ≤ 0 then .error .invalidSessionLifetime else .ok ()

/-- `AuthSession.is_active`. -/
def isActive (s : AuthSession) (now : Datetime) : Except Exn Bool := do
  now.requireAware
  if s.revokedAt.isSome then
    return false
  if !(← s.createdAt.le now) then
    return false
  now.lt s.idleExpiresAt

/-- `AuthSession._require_token`. -/
def requireToken (s : AuthSession) : Except Exn RefreshToken :=
  match s.refreshToken with
  | some token => .ok token
  | none => .error .invalidRefreshToken

/-- `AuthSession.revoke`. -/
def revoke (now : Datetime) : Method Unit := do
  if (← Method.self).revokedAt.isNone then
    Method.changeState fun s => { s with revokedAt := some now }

/-- `AuthSession.accepts_refresh`. -/
def acceptsRefresh (now : Datetime) (userCanAuthenticate : Bool) : Method Bool := do
  let token ← (← Method.self).requireToken
  if token.isUsed then
    revoke now
    return false
  if !(← (← Method.self).isActive now) then
    throw .authSessionInactive
  if !userCanAuthenticate then
    revoke now
    return false
  return true

/-- `rotate`; `tokenId` is the `uuid7` default of the new token's id. -/
def rotate (now : Datetime) (idleTtl : Int) (tokenHash : List UInt8) (tokenId : Uuid) :
    Method RefreshToken := do
  validateTtl idleTtl
  if !(← (← Method.self).isActive now) then
    throw .authSessionInactive
  let token ← (← Method.self).requireToken
  if token.isUsed then
    throw .refreshTokenReuse
  let replacement : RefreshToken := ⟨tokenId, (← Method.self).id, tokenHash, now, none⟩
  replacement.validate
  let consumed ← token.consumed now
  let idleExpiresAt ← now.add idleTtl
  Method.changeState fun s => { s with
    refreshToken := some consumed
    replacementToken := some replacement
    idleExpiresAt := idleExpiresAt }
  return replacement

end AuthSession

/-- A call on the session. -/
inductive SessionCall where
  | acceptsRefresh (now : Datetime) (userCanAuthenticate : Bool)
  | rotate (now : Datetime) (idleTtl : Int) (tokenHash : List UInt8) (tokenId : Uuid)
  | revoke (now : Datetime)

inductive SessionAnswer where
  | verdict (accepted : Bool)
  | replacement (token : RefreshToken)
  | done

def SessionCall.perform : SessionCall → Method SessionAnswer
  | .acceptsRefresh now userCanAuthenticate => do
    return .verdict (← AuthSession.acceptsRefresh now userCanAuthenticate)
  | .rotate now idleTtl tokenHash tokenId => do
    return .replacement (← AuthSession.rotate now idleTtl tokenHash tokenId)
  | .revoke now => do
    AuthSession.revoke now
    return .done

/-! ## What a call can do -/

/-- The session after a rotation. -/
def AuthSession.rotated (s : AuthSession) (consumed replacement : RefreshToken)
    (idleExpiresAt : Datetime) : AuthSession :=
  { s with
    refreshToken := some consumed
    replacementToken := some replacement
    idleExpiresAt := idleExpiresAt }

/-- Whether a call has handed out a new token. -/
def SessionAnswer.isReplacement : SessionAnswer → Bool
  | .replacement _ => true
  | _ => false

/-- A call raises, or answers without a change, or revokes a session that was
not revoked, or rotates an active one whose token was not used. -/
inductive Moved (s : AuthSession) :
    SessionCall → Except Exn SessionAnswer → AuthSession → Prop where
  | raised (c : SessionCall) (x : Exn) : Moved s c (.error x) s
  | still (c : SessionCall) {a : SessionAnswer} (ha : a.isReplacement = false) :
      Moved s c (.ok a) s
  | revoked (c : SessionCall) {a : SessionAnswer} (ha : a.isReplacement = false) (now : Datetime)
      (hnone : s.revokedAt = none)
      (hvalid : AuthSession.validate { s with revokedAt := some now } = .ok ()) :
      Moved s c (.ok a) { s with revokedAt := some now }
  | rotated {now : Datetime} {idleTtl : Int} {tokenHash : List UInt8} {tokenId : Uuid}
      {token : RefreshToken} {idleExpiresAt : Datetime}
      (hactive : s.isActive now = .ok true) (htoken : s.refreshToken = some token)
      (hunused : token.isUsed = false)
      (hreplacement : RefreshToken.validate ⟨tokenId, s.id, tokenHash, now, none⟩ = .ok ())
      (hconsumed : RefreshToken.validate { token with usedAt := some now } = .ok ())
      (hvalid : (s.rotated { token with usedAt := some now } ⟨tokenId, s.id, tokenHash, now, none⟩
        idleExpiresAt).validate = .ok ()) :
      Moved s (.rotate now idleTtl tokenHash tokenId)
        (.ok (.replacement ⟨tokenId, s.id, tokenHash, now, none⟩))
        (s.rotated { token with usedAt := some now } ⟨tokenId, s.id, tokenHash, now, none⟩
          idleExpiresAt)

/-- The call does what the method does. -/
def SessionCall.Moves (c : SessionCall) (s : AuthSession) (m : Method SessionAnswer) : Prop :=
  Moved s c (m s).1 (m s).2

namespace SessionCall.Moves

variable {c : SessionCall} {s : AuthSession} {α : Type}

theorem throw (x : Exn) : c.Moves s (throw x) := Moved.raised c x

theorem answer {a : SessionAnswer} (ha : a.isReplacement = false) : c.Moves s (pure a) :=
  Moved.still c ha

theorem self {f : AuthSession → Method SessionAnswer} (h : c.Moves s (f s)) :
    c.Moves s (Method.self >>= f) := h

/-- A check or a computation that does not touch the session. -/
theorem lift {e : Except Exn α} {f : α → Method SessionAnswer}
    (h : ∀ a, e = .ok a → c.Moves s (f a)) : c.Moves s ((liftM e : Method α) >>= f) := by
  cases e with
  | ok a => exact h a rfl
  | error x => exact Moved.raised c x

/-- `revoke`, and an answer. -/
theorem revoke (now : Datetime) {a : SessionAnswer} (ha : a.isReplacement = false) :
    c.Moves s (AuthSession.revoke now >>= fun _ => pure a) := by
  simp only [AuthSession.revoke, bind_assoc]
  refine self ?_
  cases hr : s.revokedAt with
  | some t => exact Moved.still c ha
  | none =>
    simp only [Option.isNone_none, if_true, Moves, Method.bind_apply, Method.changeState]
    cases hv : AuthSession.validate { s with revokedAt := some now } with
    | ok u => exact Moved.revoked c ha now hr hv
    | error x => exact Moved.raised c x

end SessionCall.Moves

namespace AuthSession

variable {s : AuthSession}

theorem requireToken_ok {token : RefreshToken} (h : s.requireToken = .ok token) :
    s.refreshToken = some token := by
  unfold requireToken at h
  split at h
  · rename_i t ht
    cases h
    exact ht
  · cases h

theorem consumed_ok {token consumed : RefreshToken} {now : Datetime}
    (h : token.consumed now = .ok consumed) :
    RefreshToken.validate { token with usedAt := some now } = .ok () ∧
      consumed = { token with usedAt := some now } := by
  unfold RefreshToken.consumed at h
  split at h
  · cases h
  · obtain ⟨u, hvalid, hcopy⟩ := bind_eq_ok.mp h
    cases hcopy
    exact ⟨hvalid, rfl⟩

theorem acceptsRefresh_moves (now : Datetime) (can : Bool) :
    (SessionCall.acceptsRefresh now can).Moves s
      (SessionCall.acceptsRefresh now can).perform := by
  simp only [SessionCall.perform, acceptsRefresh, bind_assoc]
  refine .self (.lift fun token _ => ?_)
  split
  · simp only [bind_assoc, pure_bind]
    exact .revoke now rfl
  · simp only [bind_assoc]
    refine .self (.lift fun active _ => ?_)
    split
    · exact .throw _
    · split
      · simp only [bind_assoc, pure_bind]
        exact .revoke now rfl
      · exact .answer rfl

theorem rotate_moves (now : Datetime) (idleTtl : Int) (tokenHash : List UInt8) (tokenId : Uuid) :
    (SessionCall.rotate now idleTtl tokenHash tokenId).Moves s
      (SessionCall.rotate now idleTtl tokenHash tokenId).perform := by
  simp only [SessionCall.perform, rotate, bind_assoc]
  refine .lift fun _ _ => .self (.lift fun active hactive => ?_)
  cases active with
  | false => exact .throw _
  | true =>
    simp only [Bool.not_true, Bool.false_eq_true, if_false, bind_assoc]
    refine .self (.lift fun token htoken => ?_)
    cases hused : token.isUsed with
    | true => exact .throw _
    | false =>
      simp only [Bool.false_eq_true, if_false, bind_assoc]
      refine .self (.lift fun _ hreplacement => .lift fun consumed hconsumed => ?_)
      refine .lift fun idleExpiresAt _ => ?_
      obtain ⟨hvalid, rfl⟩ := consumed_ok hconsumed
      simp only [SessionCall.Moves, Method.bind_apply, Method.changeState]
      cases hnew : AuthSession.validate _ with
      | ok u =>
        exact .rotated hactive (requireToken_ok htoken) hused hreplacement hvalid hnew
      | error x => exact .raised _ x

end AuthSession

theorem SessionCall.perform_moved (c : SessionCall) (s : AuthSession) :
    Moved s c (c.perform s).1 (c.perform s).2 := by
  cases c with
  | acceptsRefresh now can => exact AuthSession.acceptsRefresh_moves now can
  | rotate now idleTtl tokenHash tokenId =>
    exact AuthSession.rotate_moves now idleTtl tokenHash tokenId
  | revoke now => exact SessionCall.Moves.revoke (c := .revoke now) now rfl

/-! ## Any sequence of calls -/

namespace AuthSession

/-- The session after some calls. -/
def after (s : AuthSession) (calls : List SessionCall) : AuthSession :=
  calls.foldl (fun s c => (c.perform s).2) s

/-- The replacements that the calls created. -/
def created : AuthSession → List SessionCall → List RefreshToken
  | _, [] => []
  | s, c :: calls =>
    match c.perform s with
    | (.ok (.replacement token), s') => token :: created s' calls
    | (_, s') => created s' calls

/-- What a call on the session promises, by its answer and what it leaves. -/
structure Transition (s : AuthSession) (c : SessionCall) (r : Except Exn SessionAnswer)
    (s' : AuthSession) : Prop where
  atomic : ∀ x, r = .error x → s' = s
  accepted : s'.Accepted
  revoked : ∀ t, s.revokedAt = some t → s'.revokedAt = some t
  /-- The presented token stays, and once used it stays as it is. -/
  used : ∀ token, s.refreshToken = some token →
    ∃ token', s'.refreshToken = some token' ∧ token'.id = token.id ∧
      (token.isUsed = true → token' = token)
  /-- A replacement comes from a rotation of an active session whose token
  was not used, and uses it. -/
  rotation : ∀ replacement, r = .ok (.replacement replacement) →
    ∃ now idleTtl tokenHash tokenId token, c = .rotate now idleTtl tokenHash tokenId ∧
      s.isActive now = .ok true ∧ s.refreshToken = some token ∧ token.isUsed = false ∧
      s'.refreshToken = some { token with usedAt := some now }
  /-- Nothing else touches the replacement or the idle deadline. -/
  replaced : (∃ replacement, r = .ok (.replacement replacement) ∧
      s'.replacementToken = some replacement) ∨
    (s'.replacementToken = s.replacementToken ∧ s'.idleExpiresAt = s.idleExpiresAt)
  identity : s'.id = s.id ∧ s'.userId = s.userId ∧ s'.createdAt = s.createdAt

variable {s : AuthSession}

theorem moved_transition {c : SessionCall} {r : Except Exn SessionAnswer} {s' : AuthSession}
    (h : Moved s c r s') (hs : s.Accepted) : Transition s c r s' := by
  cases h with
  | raised c x =>
    refine ⟨fun _ _ => rfl, hs, fun _ ht => ht, ?_, ?_, .inr ⟨rfl, rfl⟩, ⟨rfl, rfl, rfl⟩⟩
    · exact fun token ht => ⟨token, ht, rfl, fun _ => rfl⟩
    · intro replacement hr
      cases hr
  | still c ha =>
    refine ⟨nofun, hs, fun _ ht => ht, ?_, ?_, .inr ⟨rfl, rfl⟩, ⟨rfl, rfl, rfl⟩⟩
    · exact fun token ht => ⟨token, ht, rfl, fun _ => rfl⟩
    · intro replacement hr
      cases hr
      cases ha
  | revoked c ha now hnone hvalid =>
    refine ⟨nofun, ⟨hvalid, hs.refreshToken, hs.replacementToken⟩, ?_, ?_, ?_, .inr ⟨rfl, rfl⟩,
      ⟨rfl, rfl, rfl⟩⟩
    · intro t ht
      rw [hnone] at ht
      cases ht
    · exact fun token ht => ⟨token, ht, rfl, fun _ => rfl⟩
    · intro replacement hr
      cases hr
      cases ha
  | @rotated now idleTtl tokenHash tokenId token idleExpiresAt hactive htoken hunused hreplacement
      hconsumed hvalid =>
    refine ⟨nofun, ⟨hvalid, ?_, ?_⟩, fun _ ht => ht, ?_, ?_, .inl ⟨_, rfl, rfl⟩, ⟨rfl, rfl, rfl⟩⟩
    · rintro t ⟨⟩
      exact hconsumed
    · rintro t ⟨⟩
      exact hreplacement
    · intro old hold
      rw [htoken] at hold
      cases hold
      refine ⟨_, rfl, rfl, fun hused => ?_⟩
      rw [hunused] at hused
      cases hused
    · intro replacement _
      exact ⟨_, _, _, _, token, rfl, hactive, htoken, hunused, rfl⟩

/-- The calls keep the session accepted. -/
theorem Accepted.after (hs : s.Accepted) (calls : List SessionCall) : (s.after calls).Accepted := by
  induction calls generalizing s with
  | nil => exact hs
  | cons c calls ih => exact ih (moved_transition (c.perform_moved s) hs).accepted

/-- Once the token is used, no call creates a replacement. -/
theorem created_of_used {token : RefreshToken} (hs : s.Accepted)
    (htoken : s.refreshToken = some token) (hused : token.isUsed = true)
    (calls : List SessionCall) : s.created calls = [] := by
  induction calls generalizing s with
  | nil => rfl
  | cons c calls ih =>
    have hstep := moved_transition (c.perform_moved s) hs
    obtain ⟨token', htoken', -, hsame⟩ := hstep.used token htoken
    rw [hsame hused] at htoken'
    have hrest := ih hstep.accepted htoken'
    simp only [created]
    split
    · rename_i replacement s' hrun
      obtain ⟨_, _, _, _, old, -, -, hold, hunused, -⟩ := hstep.rotation replacement (by rw [hrun])
      rw [htoken] at hold
      cases hold
      rw [hused] at hunused
      cases hunused
    · rename_i r s' hrun
      rw [hrun] at hrest
      exact hrest

theorem created_length (hs : s.Accepted) (calls : List SessionCall) :
    (s.created calls).length ≤ 1 := by
  induction calls generalizing s with
  | nil => exact Nat.zero_le _
  | cons c calls ih =>
    have hstep := moved_transition (c.perform_moved s) hs
    simp only [created]
    split
    · rename_i replacement s' hrun
      rw [hrun] at hstep
      obtain ⟨_, _, _, _, token, -, -, -, -, hused⟩ := hstep.rotation replacement rfl
      rw [created_of_used hstep.accepted hused rfl]
      exact Nat.le_refl _
    · rename_i r s' hrun
      rw [hrun] at hstep
      exact ih hstep.accepted

end AuthSession

/-- **The session's transitions are atomic and monotone**, after any calls
before, and at most one replacement is ever created. -/
theorem session_transitions (s : AuthSession) (h : s.Accepted) (calls : List SessionCall) :
    (∀ c : SessionCall, (s.after calls).Transition c (c.perform (s.after calls)).1
      (c.perform (s.after calls)).2) ∧
    (s.created calls).length ≤ 1 :=
  ⟨fun c => AuthSession.moved_transition (c.perform_moved _) (h.after calls),
    AuthSession.created_length h calls⟩

namespace Sample

/-- UTC, that many microseconds into the calendar. -/
def utcAt (n : Fin 100) : Datetime where
  wall := n
  fold := false
  tzinfo := some Datetime.utc
  inRange := ⟨by omega, by unfold datetimeLimit; omega⟩

def session : AuthSession where
  id := 1
  userId := 2
  createdAt := utcAt 10
  idleExpiresAt := utcAt 50
  revokedAt := none
  refreshToken := some ⟨3, 1, List.replicate 32 7, utcAt 10, none⟩
  replacementToken := none

theorem session_accepted : session.Accepted := by
  refine ⟨rfl, ?_, ?_⟩
  · rintro t ⟨⟩
    rfl
  · rintro t ⟨⟩

/-- A short digest, a rotation, and a second one on the used token. -/
def calls : List SessionCall :=
  [.rotate (utcAt 20) 30 [1, 2] 4, .rotate (utcAt 20) 30 (List.replicate 32 8) 5,
    .rotate (utcAt 25) 30 (List.replicate 32 9) 6]

end Sample

theorem session_transitions_rotated :
    (Sample.session.created Sample.calls).length = 1 ∧
      ∀ c : SessionCall, (Sample.session.after Sample.calls).Transition c
        (c.perform (Sample.session.after Sample.calls)).1
        (c.perform (Sample.session.after Sample.calls)).2 :=
  ⟨rfl, (session_transitions Sample.session Sample.session_accepted Sample.calls).1⟩

end IdentityService.Aggregate
