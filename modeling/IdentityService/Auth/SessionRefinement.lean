import IdentityService.Auth.Aggregate
import IdentityService.Domain

/-!
# The handlers' session and the object

The handlers' model takes a transition of `AuthSession` as a function into
`Except`, with instants on one line and digests of the right size. At such
values the object does the same: a method raises what the function raises
and leaves the object as it was, or both answer alike and leave the same
session.
-/

namespace IdentityService.Aggregate

/-! ## Instants -/

/-- The instant `t`, as the aware value a clock in UTC hands out. -/
structure At (d : Datetime) (t : Time) : Prop where
  wall : d.wall = t
  zone : d.tzinfo = some Datetime.utc

namespace At

variable {d d' : Datetime} {t t' : Time}

theorem aware (h : At d t) : d.requireAware = .ok () := by
  simp [Datetime.requireAware, Datetime.utcoffset, h.zone, Datetime.utc]

theorem operands (h : At d t) (h' : At d' t') : d.operands d' = .ok ((t : Int), (t' : Int)) := by
  simp [Datetime.operands, h.zone, h'.zone, h.wall, h'.wall]

theorem lt (h : At d t) (h' : At d' t') : d.lt d' = .ok (decide (t < t')) := by
  simp [Datetime.lt, h.operands h', Except.map]

theorem le (h : At d t) (h' : At d' t') : d.le d' = .ok (decide (t ≤ t')) := by
  simp [Datetime.le, h.operands h', Except.map]

/-- Within the calendar a positive delay leads to the later instant. -/
theorem add (h : At d t) {delta : Int} (hpos : 0 < delta) (hlimit : t + delta < datetimeLimit) :
    ∃ later, d.add delta = .ok later ∧ At later (t + delta.toNat) := by
  have hrange : 0 ≤ d.wall + delta ∧ d.wall + delta < datetimeLimit := by
    rw [h.wall]
    omega
  refine ⟨⟨d.wall + delta, false, d.tzinfo, hrange⟩, ?_, ?_, h.zone⟩
  · rw [Datetime.add, Datetime.ofWall, dif_pos hrange]
  · show d.wall + delta = _
    rw [h.wall]
    omega

theorem of_lt {t : Time} (h : (t : Int) < datetimeLimit) : ∃ d, At d t :=
  ⟨⟨t, false, some Datetime.utc, by omega⟩, rfl, rfl⟩

end At

/-! ## Computations that agree -/

/-- Both raise the same exception, or answer with related values. -/
inductive Agree {α β : Type} (R : α → β → Prop) : Except Exn α → Except Exn β → Prop where
  | ok {a : α} {b : β} (h : R a b) : Agree R (.ok a) (.ok b)
  | error (x : Exn) : Agree R (.error x) (.error x)

theorem Agree.inv {α β : Type} {R : α → β → Prop} {e : Except Exn α} {e' : Except Exn β}
    (h : Agree R e e') :
    (∃ a b, e = .ok a ∧ e' = .ok b ∧ R a b) ∨ ∃ x, e = .error x ∧ e' = .error x := by
  cases h with
  | ok hab => exact .inl ⟨_, _, rfl, rfl, hab⟩
  | error x => exact .inr ⟨x, rfl, rfl⟩

/-- A validator on the left, which answers nothing, and a copy that is
returned after it. -/
theorem Agree.returning {α β : Type} {R : α → β → Prop} {a : α} {b : β} {e : Except Exn Unit}
    {e' : Except Exn β} (h : Agree (fun _ b' => b' = b) e e') (hab : R a b) :
    Agree R (e >>= fun _ => pure a) e' := by
  cases h with
  | ok hb =>
    subst hb
    exact .ok hab
  | error x => exact .error x

theorem rel_cases {α β : Type} {R : α → β → Prop} {x : Option α} {y : Option β}
    (h : Option.Rel R x y) : x = none ∧ y = none ∨ ∃ a b, x = some a ∧ y = some b ∧ R a b := by
  cases h with
  | some hab => exact .inr ⟨_, _, rfl, rfl, hab⟩
  | none => exact .inl ⟨rfl, rfl⟩

theorem rel_exists {α β : Type} {R : α → β → Prop} {y : Option β}
    (h : ∀ b, y = some b → ∃ a, R a b) : ∃ x, Option.Rel R x y := by
  cases y with
  | none => exact ⟨none, .none⟩
  | some b =>
    obtain ⟨a, ha⟩ := h b rfl
    exact ⟨some a, .some ha⟩

/-! ## Tokens -/

/-- The token object that stands for a token of the handlers' model. -/
structure TokenAt (o : RefreshToken) (t : IdentityService.RefreshToken) : Prop where
  id : o.id = t.id
  sessionId : o.sessionId = t.sessionId
  tokenHash : o.tokenHash = t.tokenHash.bytes
  createdAt : At o.createdAt t.createdAt
  usedAt : Option.Rel At o.usedAt t.usedAt

namespace TokenAt

variable {o : RefreshToken} {t : IdentityService.RefreshToken} {d : Datetime} {now : Time}

theorem isUsed (h : TokenAt o t) : o.isUsed = t.isUsed := by
  unfold RefreshToken.isUsed IdentityService.RefreshToken.isUsed
  rcases rel_cases h.usedAt with ⟨ho, ht⟩ | ⟨d, u, ho, ht, -⟩
  · rw [ho, ht]
    rfl
  · rw [ho, ht]
    rfl

theorem sameHash {o' : RefreshToken} {t' : IdentityService.RefreshToken} (h : TokenAt o t)
    (h' : TokenAt o' t') : o.tokenHash = o'.tokenHash ↔ t.tokenHash = t'.tokenHash := by
  rw [h.tokenHash, h'.tokenHash]
  constructor
  · intro hbytes
    cases hd : t.tokenHash
    cases hd' : t'.tokenHash
    simpa [hd, hd'] using hbytes
  · intro hsame
    rw [hsame]

theorem validate (h : TokenAt o t) : Agree (fun _ t' => t' = t) o.validate t.validate := by
  have hsize : ¬ o.tokenHash.length ≠ 32 := by simp [h.tokenHash, t.tokenHash.size]
  unfold RefreshToken.validate IdentityService.RefreshToken.validate
  rw [if_neg hsize, h.createdAt.aware]
  rcases rel_cases h.usedAt with ⟨ho, ht⟩ | ⟨d, u, ho, ht, hu⟩
  · simp only [ho, ht, Option.any_none, Bool.false_eq_true, if_false]
    exact .ok rfl
  · simp only [ho, ht, hu.aware, hu.lt h.createdAt, Option.any_some, decide_eq_true_eq]
    by_cases hlt : u < t.createdAt
    · rw [if_pos hlt]
      simp only [hlt]
      exact .error _
    · rw [if_neg hlt]
      simp only [hlt]
      exact .ok rfl

/-- `_consumed` on either side. -/
theorem consumed (h : TokenAt o t) (hd : At d now) :
    Agree TokenAt (o.consumed d) (t.consumed now) := by
  unfold RefreshToken.consumed IdentityService.RefreshToken.consumed
  rw [h.isUsed]
  split
  · exact .error _
  · have hcopy : TokenAt { o with usedAt := some d } { t with usedAt := some now } :=
      ⟨h.id, h.sessionId, h.tokenHash, h.createdAt, .some hd⟩
    exact hcopy.validate.returning hcopy

end TokenAt

/-! ## Sessions -/

/-- The instants of a token are in the calendar. -/
structure TokenDated (t : IdentityService.RefreshToken) : Prop where
  createdAt : (t.createdAt : Int) < datetimeLimit
  usedAt : ∀ u, t.usedAt = some u → (u : Int) < datetimeLimit

theorem TokenDated.object {t : IdentityService.RefreshToken} (h : TokenDated t) :
    ∃ o, TokenAt o t := by
  obtain ⟨createdAt, hcreated⟩ := At.of_lt h.createdAt
  obtain ⟨usedAt, hused⟩ := rel_exists fun u hu => At.of_lt (h.usedAt u hu)
  exact ⟨⟨t.id, t.sessionId, t.tokenHash.bytes, createdAt, usedAt⟩, rfl, rfl, rfl, hcreated, hused⟩

/-- The session object that stands for a session of the handlers' model. -/
structure SessionAt (o : AuthSession) (s : IdentityService.AuthSession) : Prop where
  id : o.id = s.id
  userId : o.userId = s.userId
  createdAt : At o.createdAt s.createdAt
  idleExpiresAt : At o.idleExpiresAt s.idleExpiresAt
  revokedAt : Option.Rel At o.revokedAt s.revokedAt
  refreshToken : Option.Rel TokenAt o.refreshToken s.refreshToken
  replacementToken : Option.Rel TokenAt o.replacementToken s.replacementToken

/-- The instants of a session are in the calendar. -/
structure SessionDated (s : IdentityService.AuthSession) : Prop where
  createdAt : (s.createdAt : Int) < datetimeLimit
  idleExpiresAt : (s.idleExpiresAt : Int) < datetimeLimit
  revokedAt : ∀ t, s.revokedAt = some t → (t : Int) < datetimeLimit
  refreshToken : ∀ t, s.refreshToken = some t → TokenDated t
  replacementToken : ∀ t, s.replacementToken = some t → TokenDated t

/-- Such a session stands for some object. -/
theorem SessionDated.object {s : IdentityService.AuthSession} (h : SessionDated s) :
    ∃ o, SessionAt o s := by
  obtain ⟨createdAt, hcreated⟩ := At.of_lt h.createdAt
  obtain ⟨idleExpiresAt, hidle⟩ := At.of_lt h.idleExpiresAt
  obtain ⟨revokedAt, hrevoked⟩ := rel_exists fun t ht => At.of_lt (h.revokedAt t ht)
  obtain ⟨token, htoken⟩ := rel_exists fun t ht => (h.refreshToken t ht).object
  obtain ⟨replacement, hreplacement⟩ := rel_exists fun t ht => (h.replacementToken t ht).object
  exact ⟨⟨s.id, s.userId, createdAt, idleExpiresAt, revokedAt, token, replacement⟩,
    rfl, rfl, hcreated, hidle, hrevoked, htoken, hreplacement⟩

namespace SessionAt

variable {o : AuthSession} {s : IdentityService.AuthSession} {d : Datetime} {now : Time}

theorem fits (h : SessionAt o s) {x : Option RefreshToken}
    {y : Option IdentityService.RefreshToken} (hxy : Option.Rel TokenAt x y) :
    o.fits x = if y.all s.fits then .ok () else .error .invalidDomainState := by
  rcases rel_cases hxy with ⟨rfl, rfl⟩ | ⟨token, t, rfl, rfl, ht⟩
  · rfl
  · simp only [AuthSession.fits, ht.sessionId, h.id, ht.createdAt.lt h.createdAt, Option.all_some,
      IdentityService.AuthSession.fits]
    by_cases hid : t.sessionId = s.id
    · by_cases hlt : t.createdAt < s.createdAt
      · have hle : ¬ s.createdAt ≤ t.createdAt := Nat.not_le.mpr hlt
        simp [hid, hlt, hle]
        rfl
      · have hle : s.createdAt ≤ t.createdAt := Nat.not_lt.mp hlt
        simp [hid, hlt, hle]
        rfl
    · simp [hid]
      rfl

theorem isActive (h : SessionAt o s) (hd : At d now) : o.isActive d = .ok (s.isActive now) := by
  simp only [AuthSession.isActive, IdentityService.AuthSession.isActive, hd.aware,
    h.createdAt.le hd, hd.lt h.idleExpiresAt]
  rcases rel_cases h.revokedAt with ⟨ho, hs⟩ | ⟨e, u, ho, hs, -⟩
  · by_cases hle : s.createdAt ≤ now
    · simp [ho, hs, hle]
      rfl
    · simp [ho, hs, hle]
      rfl
  · simp [ho, hs]

theorem requireToken (h : SessionAt o s) : Agree TokenAt o.requireToken s.requireToken := by
  unfold AuthSession.requireToken IdentityService.AuthSession.requireToken
  rcases rel_cases h.refreshToken with ⟨ho, hs⟩ | ⟨token, t, ho, hs, ht⟩
  · rw [ho, hs]
    exact .error _
  · rw [ho, hs]
    exact .ok ht

/-- The end of `validate_lifecycle`: both tokens fit, and the replacement is
an unused successor of a used token. -/
theorem succession (h : SessionAt o s) :
    Agree (fun _ s' => s' = s)
      (do
        o.fits o.refreshToken
        o.fits o.replacementToken
        match o.replacementToken with
        | none => return ()
        | some replacement =>
          match o.refreshToken with
          | none => throw .invalidDomainState
          | some token =>
            if !token.isUsed || replacement.isUsed || replacement.id = token.id ||
                replacement.tokenHash = token.tokenHash then
              throw .invalidDomainState)
      (if !(s.refreshToken.all s.fits && s.replacementToken.all s.fits) then
        .error .invalidDomainState
      else if !s.replacementToken.all s.succeeds then .error .invalidDomainState
      else .ok s) := by
  rw [h.fits h.refreshToken, h.fits h.replacementToken]
  by_cases hfits : s.refreshToken.all s.fits = true
  · by_cases hfits' : s.replacementToken.all s.fits = true
    · simp only [hfits, hfits', if_true, Bool.and_self, Bool.not_true, Bool.false_eq_true, if_false]
      rcases rel_cases h.replacementToken with ⟨ho, hs⟩ | ⟨replacement, r, ho, hs, hr⟩
      · simp only [ho, hs, Option.all_none, Bool.not_true, Bool.false_eq_true, if_false]
        exact .ok rfl
      · rcases rel_cases h.refreshToken with ⟨ho', hs'⟩ | ⟨token, t, ho', hs', ht⟩
        · simp only [ho, hs, ho', hs', Option.all_some, IdentityService.AuthSession.succeeds,
            Option.any_none, Bool.not_false, if_true]
          exact .error _
        · have hverdict : (!token.isUsed || replacement.isUsed ||
              decide (replacement.id = token.id) ||
              decide (replacement.tokenHash = token.tokenHash)) = !s.succeeds r := by
            simp [IdentityService.AuthSession.succeeds, hs', ht.isUsed, hr.isUsed, hr.id, ht.id,
              hr.sameHash ht, Bool.or_assoc]
          simp only [ho, hs, ho', Option.all_some, hverdict]
          cases hsucceeds : s.succeeds r with
          | true => exact .ok rfl
          | false => exact .error _
    · simp only [Bool.not_eq_true] at hfits'
      simp only [hfits, hfits', if_true, Bool.true_and, Bool.false_eq_true, if_false,
        Bool.not_false]
      exact .error _
  · simp only [Bool.not_eq_true] at hfits
    simp only [hfits, Bool.false_eq_true, if_false, Bool.false_and, Bool.not_false, if_true]
    exact .error _

/-- `validate_lifecycle` on either side. -/
theorem validate (h : SessionAt o s) : Agree (fun _ s' => s' = s) o.validate s.validate := by
  unfold AuthSession.validate IdentityService.AuthSession.validate
  rw [h.createdAt.aware, h.idleExpiresAt.aware, h.idleExpiresAt.le h.createdAt]
  by_cases hidle : s.idleExpiresAt ≤ s.createdAt
  · rw [if_pos hidle]
    simp only [hidle]
    exact .error _
  · rw [if_neg hidle]
    simp only [hidle]
    rcases rel_cases h.revokedAt with ⟨ho, hs⟩ | ⟨e, u, ho, hs, hu⟩
    · simp only [ho, hs, Option.any_none, Bool.false_eq_true, if_false]
      exact h.succession
    · simp only [ho, hs, Option.any_some, decide_eq_true_eq, hu.aware, hu.lt h.createdAt]
      by_cases hlt : u < s.createdAt
      · rw [if_pos hlt]
        simp only [hlt]
        exact .error _
      · rw [if_neg hlt]
        simp only [hlt]
        exact h.succession

end SessionAt

/-! ## Methods -/

/-- The method on the object, beside a transition of the handlers' model: it
raises what the transition raises and leaves the object as it was, or `R`
holds of its answer, the object it leaves and what the transition yields. -/
inductive Refines {α γ : Type} (R : α → AuthSession → γ → Prop) (m : Method α) (o : AuthSession) :
    Except Exn γ → Prop where
  | ok {a : α} {o' : AuthSession} {c : γ} (run : m o = (.ok a, o')) (related : R a o' c) :
      Refines R m o (.ok c)
  | error {x : Exn} (run : m o = (.error x, o)) : Refines R m o (.error x)

namespace Refines

variable {α β γ δ : Type} {R : α → AuthSession → γ → Prop} {o : AuthSession}
  {s : IdentityService.AuthSession}

theorem self {f : AuthSession → Method α} {e : Except Exn γ} (h : Refines R (f o) o e) :
    Refines R (Method.self >>= f) o e := by
  cases h with
  | ok run related => exact .ok run related
  | error run => exact .error run

/-- A computation beside the object's state. -/
theorem lift {Q : β → δ → Prop} {e : Except Exn β} {e' : Except Exn δ} {f : β → Method α}
    {g : δ → Except Exn γ} (he : Agree Q e e') (h : ∀ a b, Q a b → Refines R (f a) o (g b)) :
    Refines R ((liftM e : Method β) >>= f) o (e' >>= g) := by
  cases he with
  | ok hab => exact h _ _ hab
  | error x => exact .error rfl

/-- A computation whose answer is known. -/
theorem known {e : Except Exn β} {b : β} {f : β → Method α} {e' : Except Exn γ} (he : e = .ok b)
    (h : Refines R (f b) o e') : Refines R ((liftM e : Method β) >>= f) o e' := by
  subst he
  exact h

theorem imp {Q : α → AuthSession → γ → Prop} {m : Method α} {e : Except Exn γ}
    (h : Refines R m o e) (hQ : ∀ a o' c, R a o' c → Q a o' c) : Refines Q m o e := by
  cases h with
  | ok run related => exact .ok run (hQ _ _ _ related)
  | error run => exact .error run

/-- What is done with the answer after the object has changed. -/
theorem answer {Q : β → AuthSession → δ → Prop} {m : Method α} {e : Except Exn γ} {f : α → β}
    {g : γ → δ} (h : Refines R m o e) (hg : ∀ a o' c, R a o' c → Q (f a) o' (g c)) :
    Refines Q (m >>= fun a => pure (f a)) o (e >>= fun c => pure (g c)) := by
  cases h with
  | ok run related =>
    refine .ok ?_ (hg _ _ _ related)
    rw [Method.bind_apply, run]
    rfl
  | error run =>
    refine .error ?_
    rw [Method.bind_apply, run]

theorem answering {Q : β → AuthSession → γ → Prop} {m : Method α} {e : Except Exn γ} {f : α → β}
    (h : Refines R m o e) (hQ : ∀ a o' c, R a o' c → Q (f a) o' c) :
    Refines Q (m >>= fun a => pure (f a)) o e := by
  rw [← bind_pure e]
  exact h.answer hQ

/-- `_change_state` on either side. -/
theorem changeState (change : AuthSession → AuthSession) {s' : IdentityService.AuthSession}
    (h : SessionAt (change o) s') :
    Refines (fun _ o' c => SessionAt o' c ∧ c = s') (Method.changeState change) o s'.validate := by
  rcases h.validate.inv with ⟨_, _, ho, hs, rfl⟩ | ⟨x, ho, hs⟩
  · rw [hs]
    exact .ok (a := ()) (by simp only [Method.changeState, ho]) ⟨h, rfl⟩
  · rw [hs]
    exact .error (by simp only [Method.changeState, ho])

end Refines

section Methods

variable {o : AuthSession} {s : IdentityService.AuthSession} {d : Datetime} {now : Time}

theorem revoke_refines (h : SessionAt o s) (hd : At d now) :
    Refines (fun _ => SessionAt) (AuthSession.revoke d) o (s.revoke now) := by
  unfold AuthSession.revoke IdentityService.AuthSession.revoke
  refine .self ?_
  rcases rel_cases h.revokedAt with ⟨ho, hs⟩ | ⟨e, u, ho, hs, -⟩
  · simp only [ho, hs, Option.isNone_none, if_true]
    have hleft : SessionAt { o with revokedAt := some d } { s with revokedAt := some now } :=
      { h with revokedAt := .some hd }
    exact (Refines.changeState _ hleft).imp fun _ _ _ hc => hc.1
  · simp only [ho, hs, Option.isNone_some, Bool.false_eq_true, if_false]
    exact .ok rfl h

theorem acceptsRefresh_refines (h : SessionAt o s) (hd : At d now) (userCanAuthenticate : Bool) :
    Refines (fun verdict o' answer => verdict = answer.1 ∧ SessionAt o' answer.2)
      (AuthSession.acceptsRefresh d userCanAuthenticate) o
      (s.acceptsRefresh now userCanAuthenticate) := by
  have hrefused : Refines (fun verdict o' answer => verdict = answer.1 ∧ SessionAt o' answer.2)
      (AuthSession.revoke d >>= fun _ => pure false) o
      (s.revoke now >>= fun s' => pure (false, s')) :=
    (revoke_refines h hd).answer fun _ _ _ hleft => ⟨rfl, hleft⟩
  unfold AuthSession.acceptsRefresh IdentityService.AuthSession.acceptsRefresh
  refine .self (.lift h.requireToken fun token t ht => ?_)
  rw [ht.isUsed]
  cases t.isUsed with
  | true => exact hrefused
  | false =>
    refine .self (.known (h.isActive hd) ?_)
    cases s.isActive now with
    | false => exact .error rfl
    | true =>
      cases userCanAuthenticate with
      | false => exact hrefused
      | true => exact .ok rfl ⟨rfl, h⟩

/-- `rotate`, as long as the new deadline is in the calendar. -/
theorem rotate_refines (h : SessionAt o s) (hd : At d now) (tokenId : Uuid) {idleTtl : Int}
    (hlimit : now + idleTtl < datetimeLimit) (tokenHash : Digest) :
    Refines (fun token o' s' => SessionAt o' s' ∧ ∃ t, s'.replacementToken = some t ∧
        TokenAt token t)
      (AuthSession.rotate d idleTtl tokenHash.bytes tokenId) o
      (s.rotate tokenId now idleTtl tokenHash) := by
  unfold AuthSession.rotate IdentityService.AuthSession.rotate
  have httl : Agree (fun _ _ => 0 < idleTtl) (AuthSession.validateTtl idleTtl)
      (IdentityService.AuthSession.validateTtl idleTtl) := by
    unfold AuthSession.validateTtl IdentityService.AuthSession.validateTtl
    split
    · exact .error _
    · exact .ok (by omega)
  refine .lift httl fun _ _ hpos => .self (.known (h.isActive hd) ?_)
  cases s.isActive now with
  | false => exact .error rfl
  | true =>
    simp only [Bool.not_true, Bool.false_eq_true, if_false]
    refine .self (.lift h.requireToken fun token t ht => ?_)
    rw [ht.isUsed]
    cases t.isUsed with
    | true => exact .error rfl
    | false =>
      simp only [Bool.false_eq_true, if_false]
      refine .self ?_
      have hnew : TokenAt ⟨tokenId, o.id, tokenHash.bytes, d, none⟩
          ⟨tokenId, s.id, tokenHash, now, none⟩ := ⟨rfl, h.id, rfl, hd, .none⟩
      refine .lift hnew.validate fun _ replacement hreplacement => ?_
      subst hreplacement
      refine .lift (ht.consumed hd) fun consumed used hused => ?_
      obtain ⟨later, hlater, hat⟩ := hd.add hpos hlimit
      refine .known hlater ?_
      have hleft : SessionAt (o.rotated consumed ⟨tokenId, o.id, tokenHash.bytes, d, none⟩ later)
          { s with
            refreshToken := some used
            replacementToken := some ⟨tokenId, s.id, tokenHash, now, none⟩
            idleExpiresAt := now + idleTtl.toNat } :=
        { h with
          refreshToken := .some hused
          replacementToken := .some hnew
          idleExpiresAt := hat }
      have hchange := Refines.changeState
        (fun o' => o'.rotated consumed ⟨tokenId, o.id, tokenHash.bytes, d, none⟩ later) hleft
      refine hchange.answering fun _ o' c hc => ⟨hc.1, _, ?_, hnew⟩
      rw [hc.2]

end Methods

/-! ## Runs -/

/-- A call of a handler, at an instant. -/
inductive HandlerCall where
  | acceptsRefresh (now : Time) (userCanAuthenticate : Bool)
  | rotate (now : Time) (idleTtl : Int) (tokenHash : Digest) (tokenId : Uuid)
  | revoke (now : Time)

namespace HandlerCall

/-- The session the transition yields. -/
def result (s : IdentityService.AuthSession) : HandlerCall → Except Exn IdentityService.AuthSession
  | .acceptsRefresh now userCanAuthenticate => do
    return (← s.acceptsRefresh now userCanAuthenticate).2
  | .rotate now idleTtl tokenHash tokenId => s.rotate tokenId now idleTtl tokenHash
  | .revoke now => s.revoke now

/-- A handler that is refused goes on with the session it had. -/
def apply (s : IdentityService.AuthSession) (c : HandlerCall) : IdentityService.AuthSession :=
  match c.result s with
  | .ok s' => s'
  | .error _ => s

end HandlerCall

/-- The call on the object that the handler's call is. -/
inductive CallAt : SessionCall → HandlerCall → Prop where
  | acceptsRefresh {d : Datetime} {now : Time} (hd : At d now) (userCanAuthenticate : Bool) :
      CallAt (.acceptsRefresh d userCanAuthenticate) (.acceptsRefresh now userCanAuthenticate)
  | rotate {d : Datetime} {now : Time} (hd : At d now) {idleTtl : Int}
      (hlimit : now + idleTtl < datetimeLimit) (tokenHash : Digest) (tokenId : Uuid) :
      CallAt (.rotate d idleTtl tokenHash.bytes tokenId) (.rotate now idleTtl tokenHash tokenId)
  | revoke {d : Datetime} {now : Time} (hd : At d now) : CallAt (.revoke d) (.revoke now)

section Runs

variable {o : AuthSession} {s : IdentityService.AuthSession}

theorem CallAt.refines {c : SessionCall} {c' : HandlerCall} (hc : CallAt c c')
    (h : SessionAt o s) : Refines (fun _ => SessionAt) c.perform o (c'.result s) := by
  cases hc with
  | acceptsRefresh hd can =>
    exact (acceptsRefresh_refines h hd can).answer fun _ _ _ hleft => hleft.2
  | rotate hd hlimit tokenHash tokenId =>
    exact (rotate_refines h hd tokenId hlimit tokenHash).answering fun _ _ _ hleft => hleft.1
  | revoke hd => exact (revoke_refines h hd).answering fun _ _ _ hleft => hleft

theorem CallAt.step {c : SessionCall} {c' : HandlerCall} (hc : CallAt c c') (h : SessionAt o s) :
    SessionAt (c.perform o).2 (HandlerCall.apply s c') := by
  have hstep := hc.refines h
  unfold HandlerCall.apply
  generalize HandlerCall.result s c' = result at hstep
  cases hstep with
  | ok run hleft => exact run ▸ hleft
  | error run => exact run ▸ h

/-- **The handlers' transitions are the object's**, call after call. -/
theorem SessionAt.after (h : SessionAt o s) {calls : List SessionCall}
    {calls' : List HandlerCall} (hcalls : List.Forall₂ CallAt calls calls') :
    SessionAt (o.after calls) (calls'.foldl HandlerCall.apply s) := by
  induction hcalls generalizing o s with
  | nil => exact h
  | cons hc _ ih => exact ih (hc.step h)

/-- In particular of every session with its instants in the calendar. -/
theorem handlers_refine (hs : SessionDated s) {calls : List SessionCall}
    {calls' : List HandlerCall} (hcalls : List.Forall₂ CallAt calls calls') :
    ∃ o, SessionAt o s ∧ SessionAt (o.after calls) (calls'.foldl HandlerCall.apply s) := by
  obtain ⟨o, ho⟩ := hs.object
  exact ⟨o, ho, ho.after hcalls⟩

end Runs

end IdentityService.Aggregate
