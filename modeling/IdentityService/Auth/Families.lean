import Mathlib.Data.List.Chain
import IdentityService.Auth.Repositories

/-!
# Token families

What the tables are for, without transactions: a session owns a family of
refresh tokens, and only four things ever happen to it. It is started with
one token; it is revoked; its unused token is used up and replaced; its
user is disabled. `Plan` names the four, `Plan.Enabled` says when, and
everything the use cases rely on follows from these steps alone.

A family is a `Line`: every token but the last has been used, and each was
replaced by the next.
-/

namespace IdentityService

open Concurrent

/-- The tables, as functions of their keys. -/
structure AuthTables where
  users : Uuid → Option User
  sessions : Uuid → Option AuthSessionRow
  tokens : Uuid → Option RefreshToken
  hashes : Digest → Option Uuid

/-- A row for each key that has one. -/
abbrev AuthRows := (k : Key auth) → Option k.Row

/-- The four tables that the rows make up. -/
def AuthTables.of (rows : AuthRows) : AuthTables :=
  ⟨fun id => rows (.biz (.user id)), fun id => rows (.biz (.session id)),
    fun id => rows (.biz (.token id)), fun d => rows (.biz (.tokenHash d))⟩

namespace AuthTables

variable (T : AuthTables)

/-- The tables after an `UPDATE` or `INSERT` of a user. -/
def putUser (u : User) : AuthTables := { T with users := Function.update T.users u.id (some u) }

def putSession (s : AuthSessionRow) : AuthTables :=
  { T with sessions := Function.update T.sessions s.id (some s) }

def putToken (t : RefreshToken) : AuthTables :=
  { T with tokens := Function.update T.tokens t.id (some t) }

def addToken (t : RefreshToken) : AuthTables :=
  { T.putToken t with hashes := Function.update T.hashes t.tokenHash (some t.id) }

end AuthTables

/-- What a transaction does to the tables. -/
inductive Plan where
  | start (s : AuthSessionRow) (t : RefreshToken)
  | revoke (s : AuthSessionRow) (t : RefreshToken) (now : Time)
  | rotate (s : AuthSessionRow) (t r : RefreshToken) (now expires : Time)
  | disable (u u' : User)

/-- The session, revoked no later than `now`. -/
def AuthSessionRow.revoked (s : AuthSessionRow) (now : Time) : AuthSessionRow :=
  { s with revokedAt := some (s.revokedAt.getD now) }

/-- A session that a rotation has prolonged. -/
def AuthSessionRow.extended (s : AuthSessionRow) (expires : Time) : AuthSessionRow :=
  { s with idleExpiresAt := expires }

/-- A token that has been presented. -/
def RefreshToken.used (t : RefreshToken) (now : Time) : RefreshToken :=
  { t with usedAt := some now }

namespace Plan

/-- The tables after a plan has been carried out. -/
def apply : Plan → AuthTables → AuthTables
  | .start s t, T => (T.putSession s).addToken t
  | .revoke s t now, T => (T.putSession (s.revoked now)).putToken t
  | .rotate s t r now expires, T =>
    ((T.putSession (s.extended expires)).putToken (t.used now)).addToken r
  | .disable _ u', T => T.putUser u'

/-- When a plan may be carried out. -/
inductive Enabled (T : AuthTables) (clock : Time) : Plan → Prop where
  | start {s : AuthSessionRow} {t : RefreshToken} (newSession : T.sessions s.id = none)
      (newToken : T.tokens t.id = none) (newHash : T.hashes t.tokenHash = none)
      (fits : t.sessionId = s.id) (age : s.createdAt ≤ t.createdAt)
      (span : s.createdAt < s.idleExpiresAt) (unrevoked : s.revokedAt = none)
      (unused : t.usedAt = none) (past : s.createdAt ≤ clock) : Enabled T clock (.start s t)
  | revoke {s : AuthSessionRow} {t : RefreshToken} {now : Time}
      (session : T.sessions s.id = some s) (token : T.tokens t.id = some t)
      (age : s.createdAt ≤ now) : Enabled T clock (.revoke s t now)
  | rotate {s : AuthSessionRow} {t r : RefreshToken} {now expires : Time}
      (session : T.sessions s.id = some s) (token : T.tokens t.id = some t)
      (newToken : T.tokens r.id = none) (newHash : T.hashes r.tokenHash = none)
      (fits : t.sessionId = s.id) (follows : r.sessionId = s.id)
      (age : s.createdAt ≤ r.createdAt) (span : s.createdAt < expires)
      (unrevoked : s.revokedAt = none) (unused : t.usedAt = none) (fresh : r.usedAt = none)
      (past : t.createdAt ≤ now) : Enabled T clock (.rotate s t r now expires)
  | disable {u u' : User} (user : T.users u.id = some u) (same : u'.id = u.id)
      (disabled : u'.status = .disabled) : Enabled T clock (.disable u u')

end Plan

/-! ## The tables are consistent -/

/-- The tables are consistent, row by row and with each other. -/
structure Families (T : AuthTables) (clock : Time) : Prop where
  userKey : ∀ id u, T.users id = some u → u.id = id
  sessionKey : ∀ id s, T.sessions id = some s → s.id = id
  sessionSpan : ∀ id s, T.sessions id = some s → s.createdAt < s.idleExpiresAt
  sessionEnd : ∀ id s r, T.sessions id = some s → s.revokedAt = some r → s.createdAt ≤ r
  sessionPast : ∀ id s, T.sessions id = some s → s.createdAt ≤ clock
  tokenKey : ∀ id t, T.tokens id = some t → t.id = id
  tokenSpan : ∀ id t u, T.tokens id = some t → t.usedAt = some u → t.createdAt ≤ u
  owner : ∀ id t, T.tokens id = some t →
    ∃ s, T.sessions t.sessionId = some s ∧ s.createdAt ≤ t.createdAt
  index : ∀ d id, T.hashes d = some id → ∃ t, T.tokens id = some t ∧ t.tokenHash = d
  indexed : ∀ id t, T.tokens id = some t → T.hashes t.tokenHash = some id

variable {T T' T'' : AuthTables} {clock clock' : Time} {p : Plan}

theorem Families.later (h : Families T clock) (hle : clock ≤ clock') : Families T clock' :=
  { h with sessionPast := fun id s hs => Nat.le_trans (h.sessionPast id s hs) hle }

/-- Users alone are consistent. -/
theorem Families.of_users (hu : ∀ id u, T.users id = some u → u.id = id)
    (hs : ∀ id, T.sessions id = none) (ht : ∀ id, T.tokens id = none)
    (hd : ∀ d, T.hashes d = none) : Families T clock := by
  constructor
  · exact hu
  all_goals simp [hs, ht, hd]

/-- Two tokens of one hash are one token. -/
theorem Families.token_unique (h : Families T clock) {a b : Uuid} {t t' : RefreshToken}
    (ha : T.tokens a = some t) (hb : T.tokens b = some t') (hh : t.tokenHash = t'.tokenHash) :
    a = b := by
  have hia := h.indexed a t ha
  have hib := h.indexed b t' hb
  rw [hh, hib] at hia
  exact (Option.some.inj hia).symm

/-- The sessions after a plan: the old ones, and the one it writes. -/
theorem sessions_put {s s' : AuthSessionRow} {id : Uuid}
    (h : (T.putSession s).sessions id = some s') :
    (id = s.id ∧ s' = s) ∨ (id ≠ s.id ∧ T.sessions id = some s') := by
  by_cases hid : id = s.id
  · subst hid
    simp only [AuthTables.putSession, Function.update_self, Option.some.injEq] at h
    exact .inl ⟨rfl, h.symm⟩
  · simp only [AuthTables.putSession, Function.update_of_ne hid] at h
    exact .inr ⟨hid, h⟩

theorem tokens_put {t t' : RefreshToken} {id : Uuid} (h : (T.putToken t).tokens id = some t') :
    (id = t.id ∧ t' = t) ∨ (id ≠ t.id ∧ T.tokens id = some t') := by
  by_cases hid : id = t.id
  · subst hid
    simp only [AuthTables.putToken, Function.update_self, Option.some.injEq] at h
    exact .inl ⟨rfl, h.symm⟩
  · simp only [AuthTables.putToken, Function.update_of_ne hid] at h
    exact .inr ⟨hid, h⟩

theorem hashes_add {t : RefreshToken} {d : Digest} {id : Uuid}
    (h : (T.addToken t).hashes d = some id) :
    (d = t.tokenHash ∧ id = t.id) ∨ (d ≠ t.tokenHash ∧ T.hashes d = some id) := by
  by_cases hd : d = t.tokenHash
  · subst hd
    simp only [AuthTables.addToken, Function.update_self, Option.some.injEq] at h
    exact .inl ⟨rfl, h.symm⟩
  · simp only [AuthTables.addToken, Function.update_of_ne hd] at h
    exact .inr ⟨hd, h⟩

/-- Writing a session that is new, or no younger than the one it replaces. -/
theorem Families.putSession (h : Families T clock) {s : AuthSessionRow}
    (hold : ∀ s₀, T.sessions s.id = some s₀ → s.createdAt ≤ s₀.createdAt)
    (hspan : s.createdAt < s.idleExpiresAt) (hend : ∀ r, s.revokedAt = some r → s.createdAt ≤ r)
    (hpast : s.createdAt ≤ clock) : Families (T.putSession s) clock where
  userKey := h.userKey
  sessionKey id s₁ h₁ := by
    rcases sessions_put h₁ with ⟨rfl, rfl⟩ | ⟨-, h₁⟩
    · rfl
    · exact h.sessionKey id s₁ h₁
  sessionSpan id s₁ h₁ := by
    rcases sessions_put h₁ with ⟨rfl, rfl⟩ | ⟨-, h₁⟩
    · exact hspan
    · exact h.sessionSpan id s₁ h₁
  sessionEnd id s₁ r h₁ hr := by
    rcases sessions_put h₁ with ⟨rfl, rfl⟩ | ⟨-, h₁⟩
    · exact hend r hr
    · exact h.sessionEnd id s₁ r h₁ hr
  sessionPast id s₁ h₁ := by
    rcases sessions_put h₁ with ⟨rfl, rfl⟩ | ⟨-, h₁⟩
    · exact hpast
    · exact h.sessionPast id s₁ h₁
  tokenKey := h.tokenKey
  tokenSpan := h.tokenSpan
  owner id t ht := by
    obtain ⟨s₁, hs₁, hage⟩ := h.owner id t ht
    by_cases hsid : t.sessionId = s.id
    · rw [hsid] at hs₁
      exact ⟨s, by simp [AuthTables.putSession, hsid], Nat.le_trans (hold s₁ hs₁) hage⟩
    · exact ⟨s₁, by simpa [AuthTables.putSession, hsid] using hs₁, hage⟩
  index := h.index
  indexed := h.indexed

/-- Writing a token over itself, with nothing but its use changed. -/
theorem Families.putToken (h : Families T clock) {t t' : RefreshToken}
    (ht : T.tokens t.id = some t) (hid : t'.id = t.id) (hsession : t'.sessionId = t.sessionId)
    (hhash : t'.tokenHash = t.tokenHash) (hcreated : t'.createdAt = t.createdAt)
    (hspan : ∀ u, t'.usedAt = some u → t'.createdAt ≤ u) : Families (T.putToken t') clock where
  userKey := h.userKey
  sessionKey := h.sessionKey
  sessionSpan := h.sessionSpan
  sessionEnd := h.sessionEnd
  sessionPast := h.sessionPast
  tokenKey id t₁ h₁ := by
    rcases tokens_put h₁ with ⟨rfl, rfl⟩ | ⟨-, h₁⟩
    · rfl
    · exact h.tokenKey id t₁ h₁
  tokenSpan id t₁ u h₁ hu := by
    rcases tokens_put h₁ with ⟨rfl, rfl⟩ | ⟨-, h₁⟩
    · exact hspan u hu
    · exact h.tokenSpan id t₁ u h₁ hu
  owner id t₁ h₁ := by
    rcases tokens_put h₁ with ⟨rfl, rfl⟩ | ⟨-, h₁⟩
    · rw [hsession, hcreated]
      exact h.owner t.id t ht
    · exact h.owner id t₁ h₁
  index d id hd := by
    obtain ⟨t₁, ht₁, hh⟩ := h.index d id hd
    by_cases heq : id = t'.id
    · subst heq
      rw [hid, ht] at ht₁
      cases ht₁
      exact ⟨t', by simp [AuthTables.putToken], hhash.trans hh⟩
    · exact ⟨t₁, by simpa [AuthTables.putToken, heq] using ht₁, hh⟩
  indexed id t₁ h₁ := by
    rcases tokens_put h₁ with ⟨rfl, rfl⟩ | ⟨-, h₁⟩
    · rw [hhash, hid]
      exact h.indexed t.id t ht
    · exact h.indexed id t₁ h₁

/-- A new token of a session that is there. -/
theorem Families.addToken (h : Families T clock) {t : RefreshToken} {s : AuthSessionRow}
    (ht : T.tokens t.id = none) (hd : T.hashes t.tokenHash = none)
    (hs : T.sessions t.sessionId = some s) (hage : s.createdAt ≤ t.createdAt)
    (hunused : t.usedAt = none) : Families (T.addToken t) clock where
  userKey := h.userKey
  sessionKey := h.sessionKey
  sessionSpan := h.sessionSpan
  sessionEnd := h.sessionEnd
  sessionPast := h.sessionPast
  tokenKey id t₁ h₁ := by
    rcases tokens_put h₁ with ⟨rfl, rfl⟩ | ⟨-, h₁⟩
    · rfl
    · exact h.tokenKey id t₁ h₁
  tokenSpan id t₁ u h₁ hu := by
    rcases tokens_put h₁ with ⟨rfl, rfl⟩ | ⟨-, h₁⟩
    · rw [hunused] at hu
      cases hu
    · exact h.tokenSpan id t₁ u h₁ hu
  owner id t₁ h₁ := by
    rcases tokens_put h₁ with ⟨rfl, rfl⟩ | ⟨-, h₁⟩
    · exact ⟨s, hs, hage⟩
    · exact h.owner id t₁ h₁
  index d id hd' := by
    rcases hashes_add hd' with ⟨rfl, rfl⟩ | ⟨-, hd'⟩
    · exact ⟨t, by simp [AuthTables.addToken, AuthTables.putToken], rfl⟩
    · obtain ⟨t₁, ht₁, hh⟩ := h.index d id hd'
      have hne : id ≠ t.id := by
        rintro rfl
        rw [ht] at ht₁
        cases ht₁
      exact ⟨t₁, by simpa [AuthTables.addToken, AuthTables.putToken, hne] using ht₁, hh⟩
  indexed id t₁ h₁ := by
    rcases tokens_put h₁ with ⟨rfl, rfl⟩ | ⟨-, h₁⟩
    · simp [AuthTables.addToken]
    · have hin := h.indexed id t₁ h₁
      have hne : t₁.tokenHash ≠ t.tokenHash := by
        intro heq
        rw [heq, hd] at hin
        cases hin
      simpa [AuthTables.addToken, hne] using hin

/-- **Every plan keeps the tables consistent.** -/
theorem Families.step (h : Families T clock) (hp : p.Enabled T clock) :
    Families (p.apply T) clock := by
  cases hp with
  | @start s t newSession newToken newHash fits age span unrevoked unused past =>
      have hsession : Families (T.putSession s) clock := by
        refine h.putSession (fun s₀ hs₀ => ?_) span (fun r hr => ?_) past
        · rw [newSession] at hs₀
          cases hs₀
        · rw [unrevoked] at hr
          cases hr
      refine hsession.addToken newToken newHash ?_ age unused
      simp [AuthTables.putSession, fits]
  | @revoke s t now session token age =>
      have hsession : Families (T.putSession (s.revoked now)) clock := by
        refine h.putSession (fun s₀ hs₀ => ?_) (h.sessionSpan s.id s session) (fun r hr => ?_)
          (h.sessionPast s.id s session)
        · have hs₀ : T.sessions s.id = some s₀ := hs₀
          rw [session] at hs₀
          cases hs₀
          exact Nat.le_refl _
        · simp only [AuthSessionRow.revoked, Option.some.injEq] at hr
          subst hr
          cases hrev : s.revokedAt with
          | none => exact age
          | some r => exact h.sessionEnd s.id s r session hrev
      exact hsession.putToken token rfl rfl rfl rfl fun u hu => h.tokenSpan t.id t u token hu
  | @rotate s t r now expires session token newToken newHash fits follows age span unrevoked
      unused fresh past =>
      have hsession : Families (T.putSession (s.extended expires)) clock := by
        refine h.putSession (fun s₀ hs₀ => ?_) span (fun r hr => ?_)
          (h.sessionPast s.id s session)
        · have hs₀ : T.sessions s.id = some s₀ := hs₀
          rw [session] at hs₀
          cases hs₀
          exact Nat.le_refl _
        · exact h.sessionEnd s.id s r session hr
      have htoken : Families ((T.putSession (s.extended expires)).putToken (t.used now)) clock := by
        refine hsession.putToken token rfl rfl rfl rfl fun u hu => ?_
        cases hu
        exact past
      have hne : r.id ≠ t.id := by
        intro heq
        rw [heq, token] at newToken
        cases newToken
      refine htoken.addToken (s := s.extended expires) ?_ newHash ?_ age fresh
      · simpa [AuthTables.putToken, AuthTables.putSession, RefreshToken.used, hne] using newToken
      · simp [AuthTables.putToken, AuthTables.putSession, follows, AuthSessionRow.extended]
  | @disable u u' user same disabled =>
      refine { h with userKey := fun id u₁ h₁ => ?_ }
      by_cases hid : id = u'.id
      · subst hid
        simp only [Plan.apply, AuthTables.putUser, Function.update_self, Option.some.injEq] at h₁
        rw [h₁]
      · simp only [Plan.apply, AuthTables.putUser, Function.update_of_ne hid] at h₁
        exact h.userKey id u₁ h₁

/-! ## What is settled stays settled -/

/-- How the tables may differ later on: nothing disappears, what identifies
a row is fixed, a use and a revocation are final, and a revoked session
gets no more tokens. -/
structure Continues (T T' : AuthTables) : Prop where
  token : ∀ id t, T.tokens id = some t → ∃ t', T'.tokens id = some t' ∧
    t'.sessionId = t.sessionId ∧ t'.tokenHash = t.tokenHash ∧
    ∀ u, t.usedAt = some u → t'.usedAt = some u
  session : ∀ id s, T.sessions id = some s → ∃ s', T'.sessions id = some s' ∧
    s'.userId = s.userId ∧ ∀ r, s.revokedAt = some r → s'.revokedAt = some r
  hash : ∀ d id, T.hashes d = some id → T'.hashes d = some id
  user : ∀ id u, T.users id = some u → ∃ u', T'.users id = some u' ∧
    (u.status = .disabled → u'.status = .disabled)
  frozen : ∀ id s r, T.sessions id = some s → s.revokedAt = some r →
    ∀ a t, T'.tokens a = some t → t.sessionId = id → (T.tokens a).isSome

theorem Continues.refl (T : AuthTables) : Continues T T where
  token id t ht := ⟨t, ht, rfl, rfl, fun _ h => h⟩
  session id s hs := ⟨s, hs, rfl, fun _ h => h⟩
  hash d id hd := hd
  user id u hu := ⟨u, hu, fun h => h⟩
  frozen id s r hs hr a t ht hid := by
    rw [ht]
    rfl

theorem Continues.trans (h : Continues T T') (h' : Continues T' T'') : Continues T T'' where
  token id t ht := by
    obtain ⟨t', ht', hs', hh', hu'⟩ := h.token id t ht
    obtain ⟨t₂, ht₂, hs₂, hh₂, hu₂⟩ := h'.token id t' ht'
    exact ⟨t₂, ht₂, hs₂.trans hs', hh₂.trans hh', fun u hu => hu₂ u (hu' u hu)⟩
  session id s hs := by
    obtain ⟨s', hs', hu', hr'⟩ := h.session id s hs
    obtain ⟨s₂, hs₂, hu₂, hr₂⟩ := h'.session id s' hs'
    exact ⟨s₂, hs₂, hu₂.trans hu', fun r hr => hr₂ r (hr' r hr)⟩
  hash d id hd := h'.hash d id (h.hash d id hd)
  user id u hu := by
    obtain ⟨u', hu', hd'⟩ := h.user id u hu
    obtain ⟨u₂, hu₂, hd₂⟩ := h'.user id u' hu'
    exact ⟨u₂, hu₂, fun hd => hd₂ (hd' hd)⟩
  frozen id s r hs hr a t ht hid := by
    obtain ⟨s', hs', -, hr'⟩ := h.session id s hs
    have hmid := h'.frozen id s' r hs' (hr' r hr) a t ht hid
    obtain ⟨t', ht'⟩ := Option.isSome_iff_exists.mp hmid
    obtain ⟨t₂, ht₂, hsame, -⟩ := h'.token a t' ht'
    rw [ht] at ht₂
    cases ht₂
    exact h.frozen id s r hs hr a t' ht' (hsame.symm.trans hid)

theorem Continues.putUser {u' : User} (hoff : u'.status = .disabled) :
    Continues T (T.putUser u') where
  token := (Continues.refl T).token
  session := (Continues.refl T).session
  hash := (Continues.refl T).hash
  user id v hv := by
    by_cases heq : id = u'.id
    · exact ⟨u', by simp [AuthTables.putUser, heq], fun _ => hoff⟩
    · exact ⟨v, by simpa [AuthTables.putUser, heq] using hv, fun h => h⟩
  frozen := (Continues.refl T).frozen

theorem Continues.putSession {s : AuthSessionRow}
    (hold : ∀ s₀, T.sessions s.id = some s₀ →
      s.userId = s₀.userId ∧ ∀ r, s₀.revokedAt = some r → s.revokedAt = some r) :
    Continues T (T.putSession s) where
  token := (Continues.refl T).token
  session id s₀ hs₀ := by
    by_cases heq : id = s.id
    · subst heq
      exact ⟨s, by simp [AuthTables.putSession], hold s₀ hs₀⟩
    · exact ⟨s₀, by simpa [AuthTables.putSession, heq] using hs₀, rfl, fun _ h => h⟩
  hash := (Continues.refl T).hash
  user := (Continues.refl T).user
  frozen := (Continues.refl T).frozen

theorem Continues.putToken {t t' : RefreshToken} (ht : T.tokens t'.id = some t)
    (hsession : t'.sessionId = t.sessionId) (hhash : t'.tokenHash = t.tokenHash)
    (hused : ∀ u, t.usedAt = some u → t'.usedAt = some u) : Continues T (T.putToken t') where
  token id t₁ h₁ := by
    by_cases heq : id = t'.id
    · subst heq
      rw [ht] at h₁
      cases h₁
      exact ⟨t', by simp [AuthTables.putToken], hsession, hhash, hused⟩
    · exact ⟨t₁, by simpa [AuthTables.putToken, heq] using h₁, rfl, rfl, fun _ h => h⟩
  session := (Continues.refl T).session
  hash := (Continues.refl T).hash
  user := (Continues.refl T).user
  frozen id s r hs hr a t₁ h₁ hid := by
    rcases tokens_put h₁ with ⟨rfl, rfl⟩ | ⟨-, h₁⟩
    · rw [ht]
      rfl
    · rw [h₁]
      rfl

theorem Continues.addToken {t : RefreshToken} {s : AuthSessionRow} (ht : T.tokens t.id = none)
    (hd : T.hashes t.tokenHash = none) (hs : T.sessions t.sessionId = some s)
    (hopen : s.revokedAt = none) : Continues T (T.addToken t) where
  token id t₁ h₁ := by
    have hne : id ≠ t.id := by
      rintro rfl
      rw [ht] at h₁
      cases h₁
    exact ⟨t₁, by simpa [AuthTables.addToken, AuthTables.putToken, hne] using h₁, rfl, rfl,
      fun _ h => h⟩
  session := (Continues.refl T).session
  hash d id h₁ := by
    have hne : d ≠ t.tokenHash := by
      rintro rfl
      rw [hd] at h₁
      cases h₁
    simpa [AuthTables.addToken, hne] using h₁
  user := (Continues.refl T).user
  frozen id s₁ r hs₁ hr a t₁ h₁ hid := by
    rcases tokens_put h₁ with ⟨rfl, rfl⟩ | ⟨-, h₁⟩
    · -- the new token's session is not revoked
      rw [hid, hs₁] at hs
      cases hs
      rw [hopen] at hr
      cases hr
    · rw [h₁]
      rfl

theorem Continues.step (hp : p.Enabled T clock) : Continues T (p.apply T) := by
  cases hp with
  | @start s t newSession newToken newHash fits age span unrevoked unused past =>
      have hsession : Continues T (T.putSession s) := by
        refine .putSession fun s₀ hs₀ => ?_
        rw [newSession] at hs₀
        cases hs₀
      refine hsession.trans (.addToken (s := s) newToken newHash ?_ unrevoked)
      simp [AuthTables.putSession, fits]
  | @revoke s t now session token age =>
      have hsession : Continues T (T.putSession (s.revoked now)) := by
        refine .putSession fun s₀ hs₀ => ?_
        have hs₀ : T.sessions s.id = some s₀ := hs₀
        rw [session] at hs₀
        cases hs₀
        exact ⟨rfl, fun r hr => by simp [AuthSessionRow.revoked, hr]⟩
      exact hsession.trans (.putToken (t := t) token rfl rfl fun _ h => h)
  | @rotate s t r now expires session token newToken newHash fits follows age span unrevoked
      unused fresh past =>
      have hsession : Continues T (T.putSession (s.extended expires)) := by
        refine .putSession fun s₀ hs₀ => ?_
        have hs₀ : T.sessions s.id = some s₀ := hs₀
        rw [session] at hs₀
        cases hs₀
        exact ⟨rfl, fun r hr => hr⟩
      have htoken : Continues (T.putSession (s.extended expires))
          ((T.putSession (s.extended expires)).putToken (t.used now)) := by
        refine .putToken (t := t) token rfl rfl fun u hu => ?_
        rw [unused] at hu
        cases hu
      have hne : r.id ≠ t.id := by
        intro heq
        rw [heq, token] at newToken
        cases newToken
      refine (hsession.trans htoken).trans
        (.addToken (s := s.extended expires) ?_ newHash ?_ unrevoked)
      · simpa [AuthTables.putToken, AuthTables.putSession, RefreshToken.used, hne] using newToken
      · simp [AuthTables.putToken, AuthTables.putSession, follows, AuthSessionRow.extended]
  | disable user same disabled => exact .putUser disabled

/-! ## Lines -/

/-- The tokens of a session, in the order they replaced each other:
`earlier` are used up, `current` is not. -/
structure Line (T : AuthTables) (links : Uuid → Uuid → Prop) (session : Uuid)
    (earlier : List Uuid) (current : Uuid) : Prop where
  members : ∀ id, id ∈ earlier ++ [current] ↔
    ∃ t, T.tokens id = some t ∧ t.sessionId = session
  nodup : (earlier ++ [current]).Nodup
  spent : ∀ id ∈ earlier, ∃ t, T.tokens id = some t ∧ t.usedAt.isSome
  unspent : ∃ t, T.tokens current = some t ∧ t.usedAt = none
  linked : (earlier ++ [current]).IsChain links

variable {links links' : Uuid → Uuid → Prop} {session current : Uuid} {earlier : List Uuid}

/-- The unused token of a line is its last. -/
theorem Line.unused_iff (h : Line T links session earlier current) {id : Uuid} {t : RefreshToken}
    (ht : T.tokens id = some t) (hs : t.sessionId = session) : t.usedAt = none ↔ id = current := by
  constructor
  · intro hu
    have hm := (h.members id).mpr ⟨t, ht, hs⟩
    rw [List.mem_append, List.mem_singleton] at hm
    rcases hm with hm | hm
    · obtain ⟨t', ht', hused⟩ := h.spent id hm
      rw [ht] at ht'
      cases ht'
      rw [hu] at hused
      cases hused
    · exact hm
  · rintro rfl
    obtain ⟨t', ht', hu⟩ := h.unspent
    rw [ht] at ht'
    cases ht'
    exact hu

/-- Exactly one token of a line is unused. -/
theorem Line.one_unused (h : Line T links session earlier current) :
    ∃! id, ∃ t, T.tokens id = some t ∧ t.sessionId = session ∧ t.usedAt = none := by
  obtain ⟨t, ht, hu⟩ := h.unspent
  obtain ⟨t', ht', hs⟩ := (h.members current).mp (by simp)
  rw [ht] at ht'
  cases ht'
  refine ⟨current, ⟨t, ht, hs, hu⟩, ?_⟩
  rintro id ⟨t₁, ht₁, hs₁, hu₁⟩
  exact (h.unused_iff ht₁ hs₁).mp hu₁

/-- A line whose tokens are what they were. -/
theorem Line.congr (h : Line T links session earlier current)
    (hsame : ∀ id t, (∃ t₀, T.tokens id = some t₀ ∧ t₀.sessionId = session) ∨
      t.sessionId = session → (T'.tokens id = some t ↔ T.tokens id = some t))
    (hlinks : ∀ a b, links a b → links' a b) : Line T' links' session earlier current := by
  have hkeep : ∀ id ∈ earlier ++ [current], ∀ t, T'.tokens id = some t ↔ T.tokens id = some t :=
    fun id hid t => hsame id t (.inl ((h.members id).mp hid))
  refine ⟨fun id => ?_, h.nodup, fun id hid => ?_, ?_, h.linked.imp hlinks⟩
  · rw [h.members]
    constructor
    · rintro ⟨t, ht, hs⟩
      exact ⟨t, (hsame id t (.inr hs)).mpr ht, hs⟩
    · rintro ⟨t, ht, hs⟩
      exact ⟨t, (hsame id t (.inr hs)).mp ht, hs⟩
  · obtain ⟨t, ht, hu⟩ := h.spent id hid
    exact ⟨t, (hkeep id (List.mem_append_left _ hid) t).mpr ht, hu⟩
  · obtain ⟨t, ht, hu⟩ := h.unspent
    exact ⟨t, (hkeep current (by simp) t).mpr ht, hu⟩

/-- The first token of a new session. -/
theorem Line.start {s : AuthSessionRow} {t : RefreshToken} (hF : Families T clock)
    (hs : T.sessions s.id = none) (hfits : t.sessionId = s.id) (hunused : t.usedAt = none) :
    Line ((Plan.start s t).apply T) links s.id [] t.id := by
  have htoken : ((Plan.start s t).apply T).tokens t.id = some t := by
    simp [Plan.apply, AuthTables.addToken, AuthTables.putToken]
  refine ⟨fun id => ?_, by simp, by simp, ⟨t, htoken, hunused⟩, by simp⟩
  simp only [List.nil_append, List.mem_singleton]
  constructor
  · rintro rfl
    exact ⟨t, htoken, hfits⟩
  · rintro ⟨t₁, h₁, hs₁⟩
    rcases tokens_put h₁ with ⟨rfl, -⟩ | ⟨-, h₁⟩
    · rfl
    · -- an old token would have an old session
      have h₁ : T.tokens id = some t₁ := h₁
      obtain ⟨s₀, hs₀, -⟩ := hF.owner id t₁ h₁
      rw [hs₁, hs] at hs₀
      cases hs₀

theorem rotate_tokens {s : AuthSessionRow} {t r t₁ : RefreshToken} {now expires : Time}
    {id : Uuid} :
    ((Plan.rotate s t r now expires).apply T).tokens id = some t₁ ↔
      (id = r.id ∧ t₁ = r) ∨ (id ≠ r.id ∧ id = t.id ∧ t₁ = t.used now) ∨
        (id ≠ r.id ∧ id ≠ t.id ∧ T.tokens id = some t₁) := by
  by_cases hr : id = r.id
  · simp [Plan.apply, AuthTables.addToken, AuthTables.putToken, hr, eq_comm]
  · by_cases ht : id = t.id
    · subst ht
      simp [Plan.apply, AuthTables.addToken, AuthTables.putToken, AuthTables.putSession, hr,
        RefreshToken.used, eq_comm]
    · simp [Plan.apply, AuthTables.addToken, AuthTables.putToken, AuthTables.putSession, hr, ht,
        RefreshToken.used]

/-- A rotation makes the line longer by one. -/
theorem Line.rotate {s : AuthSessionRow} {t r : RefreshToken} {now expires : Time}
    (h : Line T links s.id earlier current) (ht : T.tokens t.id = some t)
    (hr : T.tokens r.id = none) (hfits : t.sessionId = s.id) (hfollows : r.sessionId = s.id)
    (hunused : t.usedAt = none) (hfresh : r.usedAt = none)
    (hlinks : ∀ a b, links a b → links' a b) (hnew : links' t.id r.id) :
    Line ((Plan.rotate s t r now expires).apply T) links' s.id (earlier ++ [t.id]) r.id := by
  obtain rfl := (h.unused_iff ht hfits).mp hunused
  have hne : t.id ≠ r.id := by
    intro heq
    rw [← heq, ht] at hr
    cases hr
  have hold : ∀ id ∈ earlier ++ [t.id], id ≠ r.id := by
    rintro id hid rfl
    obtain ⟨t₁, h₁, -⟩ := (h.members _).mp hid
    rw [hr] at h₁
    cases h₁
  refine ⟨fun id => ?_, ?_, fun id hid => ?_, ?_, ?_⟩
  · rw [List.mem_append, List.mem_singleton, h.members]
    constructor
    · rintro (⟨t₁, h₁, hs₁⟩ | rfl)
      · have hid := hold id ((h.members id).mpr ⟨t₁, h₁, hs₁⟩)
        by_cases hidt : id = t.id
        · exact ⟨t.used now, rotate_tokens.mpr (.inr (.inl ⟨hid, hidt, rfl⟩)), hfits⟩
        · exact ⟨t₁, rotate_tokens.mpr (.inr (.inr ⟨hid, hidt, h₁⟩)), hs₁⟩
      · exact ⟨r, rotate_tokens.mpr (.inl ⟨rfl, rfl⟩), hfollows⟩
    · rintro ⟨t₁, h₁, hs₁⟩
      rcases rotate_tokens.mp h₁ with ⟨hid, -⟩ | ⟨-, rfl, -⟩ | ⟨-, -, h₁⟩
      · exact .inr hid
      · exact .inl ⟨t, ht, hfits⟩
      · exact .inl ⟨t₁, h₁, hs₁⟩
  · rw [List.nodup_append]
    refine ⟨h.nodup, by simp, fun a ha b hb => ?_⟩
    rw [List.mem_singleton] at hb
    rw [hb]
    exact hold a ha
  · have hid' := hold id hid
    by_cases hidt : id = t.id
    · exact ⟨t.used now, rotate_tokens.mpr (.inr (.inl ⟨hid', hidt, rfl⟩)), rfl⟩
    · have hmem : id ∈ earlier := by
        rw [List.mem_append, List.mem_singleton] at hid
        exact hid.resolve_right hidt
      obtain ⟨t₁, h₁, hu⟩ := h.spent id hmem
      exact ⟨t₁, rotate_tokens.mpr (.inr (.inr ⟨hid', hidt, h₁⟩)), hu⟩
  · exact ⟨r, rotate_tokens.mpr (.inl ⟨rfl, rfl⟩), hfresh⟩
  · refine (h.linked.imp hlinks).append (.singleton _) fun a ha b hb => ?_
    simp only [List.getLast?_append, List.getLast?_singleton, Option.some_or, Option.mem_def,
      Option.some.injEq, List.head?_cons] at ha hb
    subst ha
    subst hb
    exact hnew

/-- Every session has its line. -/
def Lined (T : AuthTables) (links : Uuid → Uuid → Prop) : Prop :=
  ∀ id s, T.sessions id = some s → ∃ earlier current, Line T links id earlier current

/-- **Every plan keeps the lines.** -/
theorem Lined.step (h : Lined T links) (hF : Families T clock) (hp : p.Enabled T clock)
    (hlinks : ∀ a b, links a b → links' a b)
    (hnew : ∀ s t r now expires, p = .rotate s t r now expires → links' t.id r.id) :
    Lined (p.apply T) links' := by
  intro id s' hs'
  cases hp with
  | @start s t newSession newToken newHash fits age span unrevoked unused past =>
      rcases sessions_put hs' with ⟨rfl, -⟩ | ⟨hid, hs'⟩
      · exact ⟨[], t.id, .start hF newSession fits unused⟩
      · obtain ⟨earlier, current, hline⟩ := h id s' hs'
        refine ⟨earlier, current, hline.congr (fun a t₁ hmine => ?_) hlinks⟩
        by_cases ha : a = t.id
        · subst ha
          rw [newToken] at hmine
          rcases hmine with ⟨_, h₀, -⟩ | hs₁
          · cases h₀
          · simp only [Plan.apply, AuthTables.addToken, AuthTables.putToken, Function.update_self,
              Option.some.injEq, newToken, reduceCtorEq, iff_false]
            rintro rfl
            exact hid (hs₁.symm.trans fits)
        · simp [Plan.apply, AuthTables.addToken, AuthTables.putToken, AuthTables.putSession, ha]
  | @revoke s t now session token age =>
      have hs : ∃ s₀, T.sessions id = some s₀ := by
        rcases sessions_put hs' with ⟨rfl, -⟩ | ⟨-, hs'⟩
        · exact ⟨s, session⟩
        · exact ⟨s', hs'⟩
      obtain ⟨s₀, hs₀⟩ := hs
      obtain ⟨earlier, current, hline⟩ := h id s₀ hs₀
      refine ⟨earlier, current, hline.congr (fun a t₁ _ => ?_) hlinks⟩
      have hsame : Function.update T.tokens t.id (some t) = T.tokens := by
        rw [← token, Function.update_eq_self]
      simp only [Plan.apply, AuthTables.putToken, AuthTables.putSession, hsame]
  | @rotate s t r now expires session token newToken newHash fits follows age span unrevoked
      unused fresh past =>
      rcases sessions_put hs' with ⟨hid, -⟩ | ⟨hid, hs'⟩
      · have hid : id = s.id := hid
        subst hid
        obtain ⟨earlier, current, hline⟩ := h s.id s session
        exact ⟨_, _, hline.rotate token newToken fits follows unused fresh hlinks
          (hnew s t r now expires rfl)⟩
      · have hid : id ≠ s.id := hid
        obtain ⟨earlier, current, hline⟩ := h id s' hs'
        refine ⟨earlier, current, hline.congr (fun a t₁ hmine => ?_) hlinks⟩
        rw [rotate_tokens]
        constructor
        · rintro (⟨rfl, rfl⟩ | ⟨-, rfl, rfl⟩ | ⟨-, -, h₁⟩)
          · rcases hmine with ⟨t₀, h₀, -⟩ | hs₁
            · rw [newToken] at h₀
              cases h₀
            · exact absurd (hs₁.symm.trans follows) hid
          · rcases hmine with ⟨t₀, h₀, hs₀⟩ | hs₁
            · rw [token] at h₀
              cases h₀
              exact absurd (hs₀.symm.trans fits) hid
            · exact absurd (hs₁.symm.trans fits) hid
          · exact h₁
        · intro h₁
          refine .inr (.inr ⟨?_, ?_, h₁⟩)
          · rintro rfl
            rw [newToken] at h₁
            cases h₁
          · rintro rfl
            rw [token] at h₁
            cases h₁
            rcases hmine with ⟨t₀, h₀, hs₀⟩ | hs₁
            · rw [token] at h₀
              cases h₀
              exact hid (hs₀.symm.trans fits)
            · exact hid (hs₁.symm.trans fits)
  | disable user same disabled =>
      obtain ⟨earlier, current, hline⟩ := h id s' hs'
      exact ⟨earlier, current, hline.congr (fun _ _ _ => Iff.rfl) hlinks⟩

/-! ## Nothing is issued to a disabled account -/

/-- No token of a user who was disabled in `T` is new in `T'`. -/
def NoIssue (T T' : AuthTables) : Prop :=
  ∀ id u, T.users id = some u → u.status = .disabled →
    ∀ a t s, T'.tokens a = some t → T'.sessions t.sessionId = some s → s.userId = id →
      (T.tokens a).isSome

/-- Whom a plan issues a token to. -/
def Plan.issuesTo : Plan → Option Uuid
  | .start s _ => some s.userId
  | .rotate s _ _ _ _ => some s.userId
  | _ => none

theorem NoIssue.refl (T : AuthTables) : NoIssue T T := by
  intro id u hu hd a t s ht hs hid
  rw [ht]
  rfl

theorem NoIssue.trans (h : NoIssue T T') (h' : NoIssue T' T'') (he : Continues T T')
    (he' : Continues T' T'') (hF : Families T' clock) : NoIssue T T'' := by
  intro id u hu hd a t s ht hs hid
  obtain ⟨u', hu', hd'⟩ := he.user id u hu
  have hmid := h' id u' hu' (hd' hd) a t s ht hs hid
  obtain ⟨t', ht'⟩ := Option.isSome_iff_exists.mp hmid
  -- the token and its session were the same then
  obtain ⟨t₂, ht₂, hsame, -⟩ := he'.token a t' ht'
  rw [ht] at ht₂
  cases ht₂
  obtain ⟨s', hs', -⟩ := hF.owner a t' ht'
  obtain ⟨s₂, hs₂, huser, -⟩ := he'.session _ s' hs'
  rw [← hsame, hs] at hs₂
  cases hs₂
  exact h id u hu hd a t' s' ht' hs' (huser.symm.trans hid)

theorem NoIssue.step (hp : p.Enabled T clock)
    (hactive : ∀ id u, p.issuesTo = some id → T.users id = some u → u.status = .active) :
    NoIssue T (p.apply T) := by
  intro id u hu hd a t' s' ht' hs' hid
  cases hp with
  | @start s t newSession newToken newHash fits age span unrevoked unused past =>
      rcases tokens_put ht' with ⟨rfl, rfl⟩ | ⟨-, h₁⟩
      · rw [fits] at hs'
        rcases sessions_put hs' with ⟨-, rfl⟩ | ⟨hne, -⟩
        · have hact := hactive s'.userId u rfl (by rw [hid]; exact hu)
          rw [hd] at hact
          cases hact
        · exact absurd rfl hne
      · rw [show T.tokens a = some t' from h₁]
        rfl
  | @revoke s t now session token age =>
      rcases tokens_put ht' with ⟨rfl, rfl⟩ | ⟨-, h₁⟩
      · rw [token]
        rfl
      · rw [show T.tokens a = some t' from h₁]
        rfl
  | @rotate s t r now expires session token newToken newHash fits follows age span unrevoked
      unused fresh past =>
      rcases rotate_tokens.mp ht' with ⟨rfl, rfl⟩ | ⟨-, rfl, -⟩ | ⟨-, -, h₁⟩
      · rw [follows] at hs'
        rcases sessions_put hs' with ⟨-, rfl⟩ | ⟨hne, -⟩
        · have hact := hactive s.userId u rfl (by rw [← hu, ← hid]; rfl)
          rw [hd] at hact
          cases hact
        · exact absurd rfl hne
      · rw [token]
        rfl
      · rw [h₁]
        rfl
  | disable user same disabled =>
      rw [show T.tokens a = some t' from ht']
      rfl

end IdentityService
