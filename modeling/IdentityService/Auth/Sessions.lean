import IdentityService.Auth.Families

/-!
# The aggregate and its rows

What the methods of `AuthSession` do to a session as the repository hands
it out, its row with the presented token, in the vocabulary of plans. On
rows that belong together none of the validators has anything to object to,
so a refusal is always a verdict of the methods themselves.
-/

namespace IdentityService

/-- The session of a row, with the presented token. -/
def AuthSessionRow.bearing (s : AuthSessionRow) (t : RefreshToken) : AuthSession :=
  ⟨s.id, s.userId, s.createdAt, s.idleExpiresAt, s.revokedAt, some t, none⟩

/-- A session row and a token row that belong together. -/
structure Belongs (s : AuthSessionRow) (t : RefreshToken) : Prop where
  span : s.createdAt < s.idleExpiresAt
  ended : ∀ r, s.revokedAt = some r → s.createdAt ≤ r
  session : t.sessionId = s.id
  age : s.createdAt ≤ t.createdAt
  used : ∀ u, t.usedAt = some u → t.createdAt ≤ u

/-- Nothing that a computation raises is private to the idempotency
service. -/
def ForeignOnly {α : Type} (e : Except Exn α) : Prop := ∀ x, e = .error x → x.foreign = true

section ForeignOnly

variable {α β : Type}

theorem foreign_ok (a : α) : ForeignOnly (.ok a : Except Exn α) := by
  intro x h
  cases h

theorem foreign_error {x : Exn} (hx : x.foreign = true) :
    ForeignOnly (.error x : Except Exn α) := by
  intro y h
  cases h
  exact hx

theorem foreign_bind {e : Except Exn α} {f : α → Except Exn β} (he : ForeignOnly e)
    (hf : ∀ a, ForeignOnly (f a)) : ForeignOnly (e >>= f) := by
  cases e with
  | ok a => exact hf a
  | error x => exact foreign_error (he x rfl)

theorem foreign_ite {c : Prop} [Decidable c] {e e' : Except Exn α} (he : ForeignOnly e)
    (he' : ForeignOnly e') : ForeignOnly (if c then e else e') := by
  split
  · exact he
  · exact he'

end ForeignOnly

variable {s : AuthSessionRow} {t : RefreshToken} {now : Time}

/-! ## Validators -/

theorem RefreshToken.validate_ok (h : ∀ u, t.usedAt = some u → t.createdAt ≤ u) :
    t.validate = .ok t := by
  unfold RefreshToken.validate
  rw [if_neg]
  cases hu : t.usedAt with
  | none => simp
  | some u => simpa using h u hu

theorem RefreshToken.validate_foreign (t : RefreshToken) : ForeignOnly t.validate :=
  foreign_ite (foreign_error (by decide)) (foreign_ok _)

theorem AuthSession.validate_foreign (a : AuthSession) : ForeignOnly a.validate := by
  unfold AuthSession.validate
  refine foreign_ite (foreign_error (by decide)) (foreign_ite (foreign_error (by decide)) ?_)
  exact foreign_ite (foreign_error (by decide)) (foreign_ite (foreign_error (by decide))
    (foreign_ok _))

/-- A validator returns what it was given. -/
theorem AuthSession.validate_eq {a b : AuthSession} (h : a.validate = .ok b) :
    b = a ∧ a.createdAt < a.idleExpiresAt := by
  unfold AuthSession.validate at h
  repeat' split at h
  all_goals first
    | cases h
      exact ⟨rfl, Nat.not_le.mp ‹_›⟩
    | cases h

theorem Belongs.not_expired (h : Belongs s t) : ¬ s.idleExpiresAt ≤ s.createdAt :=
  Nat.not_le.mpr h.span

theorem Belongs.not_ended (h : Belongs s t) : ¬ s.revokedAt.any (· < s.createdAt) = true := by
  cases hr : s.revokedAt with
  | none => simp
  | some r => simpa using h.ended r hr

theorem Belongs.validate (h : Belongs s t) : (s.bearing t).validate = .ok (s.bearing t) := by
  unfold AuthSession.validate AuthSessionRow.bearing
  rw [if_neg h.not_expired, if_neg h.not_ended]
  simp [AuthSession.fits, h.session, h.age]

theorem Belongs.withToken (h : Belongs s t) : s.withToken t = .ok (s.bearing t) := by
  have hplain : AuthSession.validate ⟨s.id, s.userId, s.createdAt, s.idleExpiresAt, s.revokedAt,
      none, none⟩ =
        .ok ⟨s.id, s.userId, s.createdAt, s.idleExpiresAt, s.revokedAt, none, none⟩ := by
    unfold AuthSession.validate
    rw [if_neg h.not_expired, if_neg h.not_ended]
    simp
  have hvalid := h.validate
  unfold AuthSessionRow.bearing at hvalid
  simp only [AuthSessionRow.withToken, hplain, bind, Except.bind, hvalid]
  rfl

/-! ## Revocation -/

theorem Belongs.revoked (h : Belongs s t) (hnow : s.createdAt ≤ now) :
    Belongs (s.revoked now) t := by
  refine ⟨h.span, fun r hr => ?_, h.session, h.age, h.used⟩
  simp only [AuthSessionRow.revoked, Option.some.injEq] at hr
  subst hr
  cases hrev : s.revokedAt with
  | none => exact hnow
  | some r => exact h.ended r hrev

theorem Belongs.revoke (h : Belongs s t) (hnow : s.createdAt ≤ now) :
    (s.bearing t).revoke now = .ok ((s.revoked now).bearing t) := by
  unfold AuthSession.revoke
  cases hrev : s.revokedAt with
  | some r =>
      simp only [AuthSessionRow.bearing, hrev]
      simp [AuthSessionRow.revoked, hrev]
  | none =>
      have hvalid := (h.revoked hnow).validate
      simp only [AuthSessionRow.bearing, AuthSessionRow.revoked, hrev, Option.getD_none] at hvalid ⊢
      exact hvalid

/-- **The verdict of `accepts_refresh`**: a used token revokes the family,
whatever else is the case. -/
theorem Belongs.acceptsRefresh (h : Belongs s t) (hnow : s.createdAt ≤ now) (can : Bool) :
    (s.bearing t).acceptsRefresh now can =
      if t.isUsed then .ok (false, (s.revoked now).bearing t)
      else if !(s.bearing t).isActive now then .error .authSessionInactive
      else if !can then .ok (false, (s.revoked now).bearing t)
      else .ok (true, s.bearing t) := by
  have hrevoke := h.revoke hnow
  have htoken : (s.bearing t).requireToken = .ok t := rfl
  simp only [AuthSession.acceptsRefresh, htoken, bind, Except.bind, hrevoke, pure, Except.pure]
  rfl

/-! ## Rotation -/

/-- The session after a rotation: the presented token is used up, and
`r` takes its place. -/
def AuthSessionRow.rotated (s : AuthSessionRow) (t r : RefreshToken) (now expires : Time) :
    AuthSession :=
  { (s.extended expires).bearing (t.used now) with replacementToken := some r }

/-- What a rotation that goes through tells about the session. -/
structure Rotatable (s : AuthSessionRow) (t r : RefreshToken) (now expires : Time) : Prop where
  unrevoked : s.revokedAt = none
  unused : t.usedAt = none
  age : s.createdAt ≤ now
  span : s.createdAt < expires
  past : t.createdAt ≤ now

theorem rotate_ok {tokenId : Uuid} {idleTtl : Int} {tokenHash : Digest} {a : AuthSession}
    (h : (s.bearing t).rotate tokenId now idleTtl tokenHash = .ok a) :
    Rotatable s t ⟨tokenId, s.id, tokenHash, now, none⟩ now (now + idleTtl.toNat) ∧
      a = s.rotated t ⟨tokenId, s.id, tokenHash, now, none⟩ now (now + idleTtl.toNat) := by
  unfold AuthSession.rotate at h
  obtain ⟨_, -, h⟩ := bind_eq_ok.mp h
  split at h
  · cases h
  rename_i hactive
  obtain ⟨t', ht', h⟩ := bind_eq_ok.mp h
  cases ht'
  split at h
  · cases h
  rename_i hused
  obtain ⟨r, hr, h⟩ := bind_eq_ok.mp h
  obtain ⟨used, hconsumed, h⟩ := bind_eq_ok.mp h
  have hr' : r = ⟨tokenId, s.id, tokenHash, now, none⟩ := by
    rw [RefreshToken.validate_ok (by simp)] at hr
    exact (Except.ok.inj hr).symm
  have hunused : t.usedAt = none := by
    simpa [RefreshToken.isUsed] using hused
  have hconsumed' : t.createdAt ≤ now ∧ used = t.used now := by
    simp only [RefreshToken.consumed, hused, RefreshToken.validate] at hconsumed
    split at hconsumed
    · contradiction
    split at hconsumed
    · cases hconsumed
    rename_i hnot
    cases hconsumed
    refine ⟨?_, rfl⟩
    simpa using hnot
  obtain ⟨rfl, hspan⟩ := AuthSession.validate_eq h
  simp only [AuthSession.isActive, AuthSessionRow.bearing, Bool.not_eq_true', Bool.not_eq_false,
    Bool.and_eq_true, Option.isNone_iff_eq_none] at hactive
  obtain ⟨⟨hrev, hage⟩, -⟩ := hactive
  refine ⟨⟨hrev, hunused, of_decide_eq_true hage, hspan, hconsumed'.1⟩, ?_⟩
  rw [hr', hconsumed'.2]
  rfl

theorem rotate_foreign (a : AuthSession) (tokenId : Uuid) (now : Time) (idleTtl : Int)
    (tokenHash : Digest) : ForeignOnly (a.rotate tokenId now idleTtl tokenHash) := by
  unfold AuthSession.rotate
  refine foreign_bind (foreign_ite (foreign_error (by decide)) (foreign_ok _)) fun _ => ?_
  refine foreign_ite (foreign_error (by decide)) (foreign_bind ?_ fun token => ?_)
  · unfold AuthSession.requireToken
    split
    · exact foreign_ok _
    · exact foreign_error (by decide)
  · refine foreign_ite (foreign_error (by decide)) (foreign_bind (RefreshToken.validate_foreign _)
      fun _ => foreign_bind ?_ fun _ => AuthSession.validate_foreign _)
    exact foreign_ite (foreign_error (by decide)) (RefreshToken.validate_foreign _)

/-! ## A new session -/

theorem start_ok {sessionId tokenId userId : Uuid} {tokenHash : Digest} {idleTtl : Int}
    {a : AuthSession}
    (h : AuthSession.start sessionId tokenId userId tokenHash now idleTtl = .ok a) :
    now < now + idleTtl.toNat ∧
      a = (⟨sessionId, userId, now, now + idleTtl.toNat, none⟩ : AuthSessionRow).bearing
        ⟨tokenId, sessionId, tokenHash, now, none⟩ := by
  unfold AuthSession.start at h
  obtain ⟨_, -, h⟩ := bind_eq_ok.mp h
  obtain ⟨t, ht, h⟩ := bind_eq_ok.mp h
  rw [RefreshToken.validate_ok (by simp)] at ht
  cases ht
  obtain ⟨rfl, hspan⟩ := AuthSession.validate_eq h
  exact ⟨hspan, rfl⟩

/-- What `disable` makes of a user. -/
theorem disable_ok {u u' : User} (h : u.disable now = .ok u') :
    u'.id = u.id ∧ u'.status = .disabled := by
  unfold User.disable at h
  split at h
  · rename_i hoff
    cases h
    exact ⟨rfl, hoff⟩
  split at h
  · cases h
  split at h
  · cases h
  cases h
  exact ⟨rfl, rfl⟩

end IdentityService
