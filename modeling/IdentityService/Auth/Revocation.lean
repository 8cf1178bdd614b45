import IdentityService.Auth.Named
import IdentityService.Concurrent.Record
import IdentityService.Text.Uuid

/-!
# A revoked session stays revoked

Once a logout has returned, the session it was made for is over. No refresh
that begins after it gets a pair out of any token of that session: the
rotation refuses, and so does the replay of an earlier success, from the
records or from the hot store, because it reads the session again.
-/

namespace IdentityService

open Concurrent

variable {C : ResultCodec} {cfg : AuthConfig} {callees : Nat → Option AuthCallee} {i : Nat}
  {w w' : World auth C} {con : World auth C → World auth C → Prop} {φ : Prop} {d : Digest}
  {sid : Uuid}

/-- A token with this digest was issued for the session. -/
def IssuedFor (d : Digest) (sid : Uuid) (T : AuthTables) : Prop :=
  ∃ id t, T.tokens id = some t ∧ t.tokenHash = d ∧ t.sessionId = sid

/-- The session is there, and revoked. -/
def IsRevoked (sid : Uuid) (T : AuthTables) : Prop :=
  ∃ s, T.sessions sid = some s ∧ s.revokedAt.isSome

theorem IssuedFor.later {T T' : AuthTables} (h : IssuedFor d sid T) (hc : Continues T T') :
    IssuedFor d sid T' := by
  obtain ⟨id, t, ht, hd, hs⟩ := h
  obtain ⟨t', ht', hs', hd', -⟩ := hc.token id t ht
  exact ⟨id, t', ht', hd'.trans hd, hs'.trans hs⟩

theorem IsRevoked.later {T T' : AuthTables} (h : IsRevoked sid T) (hc : Continues T T') :
    IsRevoked sid T' := by
  obtain ⟨s, hs, hr⟩ := h
  obtain ⟨r, hr⟩ := Option.isSome_iff_exists.mp hr
  obtain ⟨s', hs', -, hkeep⟩ := hc.session sid s hs
  exact ⟨s', hs', by rw [hkeep r hr]; rfl⟩

/-- What the tables keep for good. -/
theorem steady_tables {K : AuthTables → Prop} (hK : ∀ T T', Continues T T' → K T → K T') :
    (authRules cfg callees con φ).Steady i fun w => K (.of w.store.rows) := by
  refine ⟨fun w w' _ _ _ hg _ h => hK _ _ hg.continues h, fun w w' _ _ _ hq h => ?_⟩
  rw [hq.rows]
  exact h

theorem lasting_tables {K : AuthTables → Prop} (hK : ∀ T T', Continues T T' → K T → K T') :
    Lasting (authRules cfg callees con φ) i fun w => K (.of w.store.rows) := by
  refine ⟨fun w w' _ _ _ hg _ h => hK _ _ hg.continues h, fun w w' _ ho h => ?_⟩
  rw [ho.rows]
  exact h

/-! ## Logout -/

section Logout

variable {gr : List (Sigma (Key.Row (B := auth)))}

variable (gr d sid) in
/-- A token that was issued is found. -/
theorem getByHashForUpdate_finds :
    (authRules cfg callees con φ).spec.Safe i
      (RefreshTokenRepository.getByHashForUpdate d).run
      (InTx i noWrites gr fun w => IssuedFor d sid (.of w.store.rows))
      (Ends (fun o _ => o.isSome) fun _ _ => True) := by
  have hF : Lasting (authRules cfg callees con φ) i fun w =>
      IssuedFor d sid (.of w.store.rows) := lasting_tables fun _ _ hc h => h.later hc
  have hG : ∀ v : Option Uuid, Lasting (authRules cfg callees con φ) i fun w =>
      ∃ id, v = some id ∧ (AuthTables.of w.store.rows).hashes d = some id := by
    intro v
    refine lasting_tables (K := fun T => ∃ id, v = some id ∧ T.hashes d = some id) ?_
    rintro T T' hc ⟨id, hv, hid⟩
    exact ⟨id, hv, hc.hash d id hid⟩
  show (authRules cfg callees con φ).spec.Safe i (Operation.run (Prog.bind _ _)) _ _
  rw [Operation.run_bind]
  refine (select_safe (k := .tokenHash d) hF hG rfl fun w hw hk => ?_).bind (fun v => ?_)
    fun x w _ h => trivial
  · obtain ⟨id, t, ht, rfl, -⟩ := hk
    have hid := hw.2.families.indexed id t ht
    exact ⟨id, hid, hid⟩
  cases v with
  | none =>
      intro w _ h
      obtain ⟨id, hv, -⟩ := h.known.2
      cases hv
  | some id =>
      show (authRules cfg callees con φ).spec.Safe i (Operation.run (Prog.bind _ _)) _ _
      rw [Operation.run_bind]
      let K : Option RefreshToken → Prop := fun v => ∃ t, v = some t ∧ t.validate = .ok t
      have hlock : ∀ w, (authRules cfg callees con φ).spec.inv w →
          IssuedFor d sid (.of w.store.rows) ∧
            (∃ id', some id = some id' ∧ (AuthTables.of w.store.rows).hashes d = some id') →
          K (w.store.rows (.biz (.token id))) := by
        rintro w hw ⟨-, _, ⟨⟩, hid⟩
        obtain ⟨t, ht, -⟩ := hw.2.families.index d id hid
        refine ⟨t, ht, RefreshToken.validate_ok fun u hu => ?_⟩
        exact hw.2.families.tokenSpan id t u ht hu
      refine (selectForUpdate_safe (k := .token id) (hF.and (hG _)) rfl hlock).bind (fun v => ?_)
        fun x w _ h => trivial
      refine Spec.Safe.assuming (φ := K v) (fun w _ h => h.1) fun hK => ?_
      obtain ⟨t, rfl, hvalid⟩ := hK
      show (authRules cfg callees con φ).spec.Safe i
        (Operation.run (Prog.bind (Prog.ofExcept (loaded t.validate)) _)) _ _
      rw [hvalid]
      exact fun w _ h => rfl

variable (gr d sid) in
/-- And so is its session. -/
theorem getByRefreshHashForUpdate_finds :
    (authRules cfg callees con φ).spec.Safe i
      (AuthSessionRepository.getByRefreshHashForUpdate d).run
      (InTx i noWrites gr fun w => IssuedFor d sid (.of w.store.rows))
      (Ends (fun o _ => o.isSome) fun _ _ => True) := by
  have hF : Lasting (authRules cfg callees con φ) i fun w =>
      IssuedFor d sid (.of w.store.rows) := lasting_tables fun _ _ hc h => h.later hc
  show (authRules cfg callees con φ).spec.Safe i (Operation.run (Prog.bind _ _)) _ _
  rw [Operation.run_bind]
  refine (((getByHashForUpdate_safe hF).and (getByHashForUpdate_finds d sid gr)).pre
    fun w _ h => ⟨h, h⟩).bind (fun o => ?_) fun x w _ h => trivial
  cases o with
  | none =>
      intro w _ h
      cases h.2
  | some t =>
      show (authRules cfg callees con φ).spec.Safe i (Operation.run (Prog.bind _ _)) _ _
      rw [Operation.run_bind]
      let K : Option AuthSessionRow → Prop := fun v => ∃ s, v = some s ∧ Belongs s t
      have hlock : ∀ w, (authRules cfg callees con φ).spec.inv w →
          IssuedFor d sid (.of w.store.rows) ∧
            Held (B := auth) i (.biz (.token t.id)) (some t) w →
          K (w.store.rows (.biz (.session t.sessionId))) := by
        intro w hw hk
        have hfam := hw.2.families
        have ht : (AuthTables.of w.store.rows).tokens t.id = some t := hk.2.1
        obtain ⟨s, hs, hage⟩ := hfam.owner t.id t ht
        exact ⟨s, hs, hfam.sessionSpan _ s hs, fun r => hfam.sessionEnd _ s r hs,
          (hfam.sessionKey _ s hs).symm, hage, fun u => hfam.tokenSpan t.id t u ht⟩
      refine ((selectForUpdate_safe (k := .session t.sessionId) (hF.and (lasting_held _ _)) rfl
        hlock).pre fun w _ h => h.1.2).bind (fun v => ?_) fun x w _ h => trivial
      refine Spec.Safe.assuming (φ := K v) (fun w _ h => h.1) fun hK => ?_
      obtain ⟨s, rfl, hb⟩ := hK
      show (authRules cfg callees con φ).spec.Safe i
        (Operation.run (Prog.bind (Prog.ofExcept (s.withToken t)) _)) _ _
      rw [hb.withToken]
      exact fun w _ h => rfl

/-- What the body of a logout leaves for the commit. -/
def Revoking (callees : Nat → Option AuthCallee) (φ : Prop) (i : Nat) (sid : Uuid)
    (w : World auth C) : Prop :=
  ∃ s t now gr, s.id = sid ∧
    InTx i (Plan.revoke s t now).writes gr (Due callees φ i (.revoke s t now)) w

theorem Revoking.commit (f : Fate Fault) (hw : (authRules cfg callees con φ).spec.inv w)
    (h : Revoking callees φ i sid w) :
    (authRules cfg callees con φ).spec.Owes i w
        ((w.settle i f).withStore (w.store.commit i)) ∧
      IsRevoked sid (.of ((w.settle i f).withStore (w.store.commit i)).store.rows) := by
  obtain ⟨s, t, now, gr, rfl, htx⟩ := h
  refine ⟨owes_plan f hw htx.known.enabled htx.staged (fun _ => rfl) ?_ htx.known.active,
    s.revoked now, ?_, rfl⟩
  · intro identity r hr
    rw [Plan.writes_record] at hr
    cases hr
  · show (w.store.staged i (.biz (.session s.id))).or _ = _
    rw [htx.staged]
    simp [Plan.writes]

/-- **A logout that returns has revoked the session of its token.** -/
theorem logout_revokes (token : String) :
    (authRules cfg callees con φ).spec.Safe i (logoutExecute cfg ⟨some token⟩)
      (fun w => Idle i w ∧ IssuedFor (cfg.digest token) sid (.of w.store.rows))
      (Ends (fun _ w => IsRevoked sid (.of w.store.rows)) fun _ _ => True) := by
  have hF : Lasting (authRules cfg callees con φ) i fun w =>
      IssuedFor (cfg.digest token) sid (.of w.store.rows) :=
    lasting_tables fun _ _ hc h => h.later hc
  refine ((Rules.uow_safe (A := fun _ => Revoking callees φ i sid)
    (D := fun _ w => IsRevoked sid (.of w.store.rows)) (E := fun _ => True)
    (F := fun _ _ => True) (Spec.Safe.exists fun gr => ?_)
    (fun _ => steady_tables fun _ _ hc h => h.later hc) (.const True) (fun _ => .const True)
    (fun _ _ _ _ => trivial) (fun _ _ _ => trivial) (fun _ _ _ => trivial)
    (fun _ _ _ => trivial) (fun _ _ _ => trivial)
    fun _ w f hw h _ => h.commit f hw).pre fun w _ h =>
      (⟨w.store.granted i, h.1.staged, rfl, h.2⟩ : ∃ gr, InTx i noWrites gr
        (fun w => IssuedFor (cfg.digest token) sid (.of w.store.rows)) w)).post ?_
  · refine (((getByRefreshHashForUpdate_safe hF).and
      (getByRefreshHashForUpdate_finds (cfg.digest token) sid gr)).pre fun w _ h => ⟨h, h⟩).bind
      (fun o => ?_) fun _ _ _ _ => trivial
    cases o with
    | none =>
        intro w _ h
        cases h.2
    | some a =>
        refine Spec.Safe.pre (P := Found i (cfg.digest token) gr _ (some a)) ?_
          fun w _ h => h.1
        refine Spec.Safe.exists fun st => ?_
        obtain ⟨s, t⟩ := st
        refine Spec.Safe.assuming (fun w _ h => h.1) fun hst => ?_
        obtain ⟨rfl, hb, hd⟩ := hst
        have hFb := hF.and (lasting_bears (R := authRules cfg callees con φ) (i := i) s t)
        have hage : ∀ now : Time, Lasting (authRules cfg callees con φ) i fun _ =>
            s.createdAt ≤ now := fun now => .const _
        refine ((now_inTx hFb hage ?_).pre fun w _ h => h.2).bind (fun now => ?_)
          fun _ _ _ h => h.elim
        · intro w hw hk
          exact hw.2.families.sessionPast s.id s hk.2.session.1
        · refine Spec.Safe.assuming (φ := s.createdAt ≤ now) (fun w _ h => h.known.2) fun hnow => ?_
          show (authRules cfg callees con φ).spec.Safe i
            (Prog.bind (Prog.ofExcept ((s.bearing t).revoke now)) _) _ _
          rw [hb.revoke hnow]
          refine (saveRevoked_safe (hFb.and (hage now)) fun w hw => hw.1.2).post
            fun r w hw h => ?_
          cases r with
          | error x => trivial
          | ok a =>
              refine ⟨s, t, now, _, ?_, h.weaken fun hk => due_revoke hk.1.2 hnow⟩
              -- the token that was found is the one that was issued
              obtain ⟨⟨⟨id, t', ht', hd', hs'⟩, hbears⟩, -⟩ := h.known
              have ht : (AuthTables.of w.store.rows).tokens t.id = some t := hbears.token.1
              have hid := hw.2.families.token_unique ht ht' (hd.trans hd'.symm)
              subst hid
              rw [ht] at ht'
              cases ht'
              exact hb.session.symm.trans hs'
  · intro r w _ h
    cases r with
    | ok a => exact h.2
    | error x => trivial

end Logout

/-! ## Replays -/

/-- The token is there, and its session is revoked. -/
def Lapsed (tokenId : Uuid) (sid : Uuid) (T : AuthTables) : Prop :=
  (∃ t, T.tokens tokenId = some t ∧ t.sessionId = sid) ∧ IsRevoked sid T

theorem Lapsed.later {T T' : AuthTables} {tokenId : Uuid} (hc : Continues T T')
    (h : Lapsed tokenId sid T) : Lapsed tokenId sid T' := by
  obtain ⟨⟨t, ht, hs⟩, hrev⟩ := h
  obtain ⟨t', ht', hs', -⟩ := hc.token tokenId t ht
  exact ⟨⟨t', ht', hs'.trans hs⟩, hrev.later hc⟩

/-- A session with a revoked row is never active. -/
theorem withToken_revoked {row : AuthSessionRow} {token : RefreshToken} {session : AuthSession}
    (hrev : row.revokedAt.isSome) (h : row.withToken token = .ok session) (now : Time) :
    session.canReplay now ≠ .ok true := by
  have hsession : session.revokedAt = row.revokedAt := by
    unfold AuthSessionRow.withToken loaded at h
    split at h
    · rename_i a ha
      cases h
      obtain ⟨s₁, h₁, h₂⟩ := bind_eq_ok.mp ha
      rw [(AuthSession.validate_eq h₂).1]
      show s₁.revokedAt = row.revokedAt
      rw [(AuthSession.validate_eq h₁).1]
    · cases h
  intro hreplay
  obtain ⟨token, -, hreplay⟩ := bind_eq_ok.mp hreplay
  have hnone : session.revokedAt.isNone = false := by
    rw [hsession]
    simpa using hrev
  simp [AuthSession.isActive, hnone] at hreplay
  cases hreplay

section Replay

variable {tokenId : Uuid} {gr : List (Sigma (Key.Row (B := auth)))}

/-- What a replay reads of such a token cannot be replayed. -/
theorem getByRefreshId_lapsed :
    (authRules cfg callees con φ).spec.Safe i (AuthSessionRepository.getByRefreshId tokenId).run
      (InTx i noWrites gr fun w => Lapsed tokenId sid (.of w.store.rows))
      (Ends (fun o _ => ∀ session, o = some session → ∀ now, session.canReplay now ≠ .ok true)
        fun _ _ => True) := by
  have hF : Lasting (authRules cfg callees con φ) i fun w =>
      Lapsed tokenId sid (.of w.store.rows) := lasting_tables fun _ _ hc h => h.later hc
  have hget : (authRules cfg callees con φ).spec.Safe i (RefreshTokenRepository.get tokenId).run
      (InTx i noWrites gr fun w => Lapsed tokenId sid (.of w.store.rows))
      (Ends (fun o => InTx i noWrites gr fun w => Lapsed tokenId sid (.of w.store.rows) ∧
        ∀ t, o = some t → t.sessionId = sid) fun _ _ => True) := by
    have hG : ∀ v : Option RefreshToken, Lasting (authRules cfg callees con φ) i fun _ =>
        ∀ t, v = some t → t.sessionId = sid := fun v => .const _
    show (authRules cfg callees con φ).spec.Safe i (Operation.run (Prog.bind _ _)) _ _
    rw [Operation.run_bind]
    refine (select_safe (k := .token tokenId) hF hG rfl fun w _ hk t ht => ?_).bind (fun v => ?_)
      fun x w _ h => trivial
    · obtain ⟨⟨t', ht', hs⟩, -⟩ := hk
      have hrow : (AuthTables.of w.store.rows).tokens tokenId = some t := ht
      rw [hrow] at ht'
      cases ht'
      exact hs
    cases v with
    | none => exact fun w _ h => h.weaken fun hk => ⟨hk.1, fun t ht => by cases ht⟩
    | some t =>
        show (authRules cfg callees con φ).spec.Safe i
          (Operation.run (Prog.bind (Prog.ofExcept (loaded (RefreshToken.validate t))) _)) _ _
        unfold RefreshToken.validate
        split
        · exact fun w _ h => trivial
        · exact fun w _ h => h
  show (authRules cfg callees con φ).spec.Safe i (Operation.run (Prog.bind _ _)) _ _
  rw [Operation.run_bind]
  refine hget.bind (fun o => ?_) fun x w _ h => h
  cases o with
  | none => exact fun w _ h session hs => by cases hs
  | some t =>
      have hG : ∀ v : Option AuthSessionRow, Lasting (authRules cfg callees con φ) i fun _ =>
          ∀ row, v = some row → row.revokedAt.isSome := fun v => .const _
      show (authRules cfg callees con φ).spec.Safe i (Operation.run (Prog.bind _ _)) _ _
      rw [Operation.run_bind]
      refine (select_safe (k := .session t.sessionId) (hF.and (.const _)) hG rfl
        fun w _ hk row hrow => ?_).bind (fun v => ?_) fun x w _ h => trivial
      · obtain ⟨⟨-, s, hs, hrev⟩, hsid⟩ := hk
        rw [← hsid t rfl] at hs
        have hrow : (AuthTables.of w.store.rows).sessions t.sessionId = some row := hrow
        rw [hs] at hrow
        cases hrow
        exact hrev
      cases v with
      | none => exact fun w _ h session hs => by cases hs
      | some row =>
          refine Spec.Safe.assuming (fun w _ h => h.known.2 row rfl) fun hrev => ?_
          show (authRules cfg callees con φ).spec.Safe i
            (Operation.run (Prog.bind (Prog.ofExcept (AuthSessionRow.withToken row t)) _)) _ _
          cases hload : AuthSessionRow.withToken row t with
          | error x => exact fun w _ h => trivial
          | ok a =>
              intro w _ h session hs now
              cases hs
              exact withToken_revoked hrev hload now

/-- **Nothing of a revoked session is replayed.** -/
theorem checkReplay_lapsed :
    (authRules cfg callees con φ).spec.Safe i (checkReplay tokenId)
      (fun w => Idle i w ∧ Lapsed tokenId sid (.of w.store.rows))
      (Ends (fun _ _ => False) fun _ _ => True) := by
  refine ((Rules.uow_safe (A := fun _ _ => False) (D := fun _ _ => False) (E := fun _ => True)
    (F := fun _ _ => True) (Spec.Safe.exists fun gr => ?_) (fun _ => .const False) (.const True)
    (fun _ => .const True) (fun _ _ _ _ => trivial) (fun _ _ _ => trivial)
    (fun _ _ _ => trivial) (fun _ _ _ => trivial) (fun _ _ _ => trivial)
    fun _ w f hw h _ => h.elim).pre fun w _ h =>
      (⟨w.store.granted i, h.1.staged, rfl, h.2⟩ : ∃ gr, InTx i noWrites gr
        (fun w => Lapsed tokenId sid (.of w.store.rows)) w)).post ?_
  · refine getByRefreshId_lapsed.bind (fun o => ?_) fun _ _ _ _ => trivial
    cases o with
    | none => exact fun w _ h => trivial
    | some session =>
        refine Spec.Safe.assuming (fun w _ h => h session rfl) fun hnot => ?_
        refine (Rules.utcNow_safe (fun _ => Spec.Stable.const True) fun w _ _ => trivial).bind
          (fun now => ?_) fun x w _ h => trivial
        show (authRules cfg callees con φ).spec.Safe i
          (Prog.bind (Prog.ofExcept (session.canReplay now)) _) _ _
        cases hreplay : session.canReplay now with
        | error x => exact fun w _ h => trivial
        | ok replayable =>
            cases replayable with
            | true => exact absurd hreplay (hnot now)
            | false => exact fun w _ h => trivial
  · intro r w _ h
    cases r with
    | ok a => exact h.2
    | error x => trivial

end Replay

/-! ## A refresh of a revoked session -/

/-- The ids of tokens are UUIDs. -/
def Sized (T : AuthTables) : Prop := ∀ id t, T.tokens id = some t → id < 2 ^ 128

/-- A refresh presents a token of a revoked session. -/
def Barred (cfg : AuthConfig) (command : RefreshCommand) (sid : Uuid) (T : AuthTables) : Prop :=
  IssuedFor (cfg.digest command.refreshToken) sid T ∧ IsRevoked sid T

/-- The steps of the runs spoken about. -/
def Attested (cfg : AuthConfig) (w : World auth C) : Prop :=
  Vouches cfg w ∧ Sized (.of w.store.rows)

section Refresh

variable {command : RefreshCommand} {hotStore : Bool} {c : CompletedIdempotencyResult}
  {identity : IdempotencyIdentity}

/-- The token that a stored success would hand out again is of the session
of the token that was presented. -/
theorem AuthInv.lapsed (h : AuthInv cfg callees w)
    (hinj : Set.InjOn cfg.sha256 (fingerprints cfg callees))
    (hi : callees i = some (.refresh hotStore command)) (hv : Attested cfg w)
    (hbarred : Barred cfg command sid (.of w.store.rows)) (hm : Minted identity c w.store)
    (hhash : c.requestHash = command.requestHash cfg) (hs : c.resultType = successResult) :
    ∃ id, c.resourceId = some (uuidText id) ∧ id < 2 ^ 128 ∧
      Lapsed id sid (.of w.store.rows) := by
  obtain ⟨t, r, hhands, hsucc, ht⟩ := h.successor hinj hi hv.1 hm hhash hs
  -- the token presented is in the session that was revoked
  obtain ⟨⟨id, t', ht', hd', hs'⟩, hrev⟩ := hbarred
  have hid := h.families.token_unique hsucc.old ht' (ht.trans hd'.symm)
  subst hid
  rw [hsucc.old] at ht'
  cases ht'
  exact ⟨r.id, hhands.resource, hv.2 r.id r hsucc.new, ⟨r, hsucc.new, hsucc.session.trans hs'⟩,
    hrev⟩

variable {requestHash : Digest}

theorem resourceUuid_uuidText {id : Uuid} (hid : id < 2 ^ 128) :
    resourceUuid (uuidText id) = .ok id := by
  unfold resourceUuid
  rw [uuidOfText_uuidText hid]

-- how a text is read as a UUID does not matter below
attribute [local irreducible] resourceUuid

theorem replayPair_lapsed {id : Uuid} (hid : id < 2 ^ 128) (payload : List (String × Json)) :
    (authRules cfg callees con φ).spec.Safe i
      (replayPair cfg identity requestHash c payload (uuidText id))
      (fun w => Idle i w ∧ Lapsed id sid (.of w.store.rows))
      (Ends (fun _ _ => False) fun _ _ => True) := by
  show (authRules cfg callees con φ).spec.Safe i
    (Prog.bind (Prog.ofExcept (resourceUuid (uuidText id))) _) _ _
  rw [resourceUuid_uuidText hid]
  exact checkReplay_lapsed.bind (fun _ => (Spec.Safe.assuming (fun w _ h => h) fun h => h.elim))
    fun x w _ h => h

variable (sid) in
/-- No stored result gets a pair. -/
theorem answerCompleted_barred (hinj : Set.InjOn cfg.sha256 (fingerprints cfg callees))
    (hi : callees i = some (.refresh hotStore command)) (c : CompletedIdempotencyResult) :
    (authRules cfg callees con φ).spec.Safe i
      (answerCompleted cfg identity (command.requestHash cfg) c)
      (fun w => Idle i w ∧ (Minted identity c w.store ∧ c.requestHash = command.requestHash cfg) ∧
        Barred cfg command sid (.of w.store.rows) ∧ Attested cfg w)
      (Ends (fun _ _ => False) fun _ _ => True) := by
  unfold answerCompleted
  by_cases hrejected : c.resultType = rejectedResult
  · rw [if_pos hrejected]
    exact fun w _ h => trivial
  rw [if_neg hrejected]
  by_cases hsuccess : c.resultType = successResult
  swap
  · rw [if_pos hsuccess]
    exact fun w _ h => trivial
  rw [if_neg (not_not.mpr hsuccess)]
  cases hpayload : c.resultPayload with
  | none => exact fun w _ h => trivial
  | some payload =>
      cases hresource : c.resourceId with
      | none => exact fun w _ h => trivial
      | some resourceId =>
          refine Spec.Safe.pre (P := fun w => ∃ id, (resourceId = uuidText id ∧ id < 2 ^ 128) ∧
            Idle i w ∧ Lapsed id sid (.of w.store.rows)) (Spec.Safe.exists fun id => ?_)
            fun w hw h => ?_
          · refine Spec.Safe.assuming (fun w _ h => h.1) fun hname => ?_
            obtain ⟨rfl, hid⟩ := hname
            refine ((replayPair_lapsed hid payload).pre fun w _ h => h.2).attempt fun r => ?_
            rcases r with x | pair
            · cases x
              all_goals exact fun w _ h => trivial
            · exact Spec.Safe.assuming (fun w _ h => h) fun h => h.elim
          · obtain ⟨hidle, ⟨hm, hhash⟩, hbarred, hv⟩ := h
            obtain ⟨id, hid, hlt, hlapsed⟩ := hw.2.lapsed hinj hi hv hbarred hm hhash hsuccess
            rw [hresource] at hid
            exact ⟨id, ⟨Option.some.inj hid, hlt⟩, hidle, hlapsed⟩

/-- **A refresh that begins in a revoked session gets no pair.** -/
theorem refresh_barred (hinj : Set.InjOn cfg.sha256 (fingerprints cfg callees))
    (hi : callees i = some (.refresh hotStore command)) :
    (authRules cfg callees (fun _ w : World auth C => Attested cfg w) False).spec.Safe i
      (refreshExecute cfg hotStore command)
      (fun w => ((Idle i w ∧ w.store.granted i = []) ∧ Barred cfg command sid (.of w.store.rows)) ∧
        Attested cfg w)
      (Ends (fun _ _ => False) fun _ _ => True) := by
  have hdurably : HotRules.Durably (authRules cfg callees (fun _ w : World auth C => Attested cfg w)
      False) Minted i cfg.retention command.identity (command.requestHash cfg) _ _ _ _ :=
    refreshDurably (ψ := False) (fun h => h.elim) (fun h => h.elim) hi rfl cfg.retention
  have hcall := ((authRules_hot.coordinatorExecute_safe hdurably hotStore cfg.leaseSeconds).frame
    (F := fun w => Barred cfg command sid (.of w.store.rows)) fun w w' hg h =>
      ⟨h.1.later hg.continues, h.2.later hg.continues⟩).frame_con (F := Attested cfg)
      fun w w' hc => hc
  refine hcall.bind (fun res => ?_) fun x w _ h => trivial
  have hanswer : ∀ c, res.completed = some c →
      (authRules cfg callees (fun _ w : World auth C => Attested cfg w) False).spec.Safe i
        (answerCompleted cfg command.identity (command.requestHash cfg) c)
        (fun w => (HotRules.Answers i
          (Concludes i command.identity (command.requestHash cfg)) res w ∧
            Barred cfg command sid (.of w.store.rows)) ∧ Attested cfg w)
        (Ends (fun _ _ => False) fun _ _ => True) := by
    intro c hc
    refine (answerCompleted_barred sid hinj hi c).pre fun w _ h => ?_
    exact ⟨h.1.1.1, h.1.1.2.1.1 c hc, h.1.2, h.2⟩
  obtain ⟨outcome, completed, decision⟩ := res
  cases outcome with
  | conflict => exact fun w _ h => trivial
  | inProgress => exact fun w _ h => trivial
  | _ =>
      cases completed with
      | none => exact fun w _ h => trivial
      | some c => exact hanswer c rfl

end Refresh

/-! ## Whole runs -/

section Runs

variable {P P' : Config (sig auth) Exn (Traced (sig auth) Exn (World auth C)) AuthAnswer}

/-- Process `i` has not done anything yet. -/
def Unbegun (i : Nat)
    (P : Config (sig auth) Exn (Traced (sig auth) Exn (World auth C)) AuthAnswer) : Prop :=
  ∀ e ∈ P.shared.trace, e.pid ≠ i

/-- Who has not done anything has no transaction. -/
theorem unbegun_idle {con : Traced (sig auth) Exn (World auth C) →
    Traced (sig auth) Exn (World auth C) → Prop}
    (hr : (machine auth C).traced.Reach con P P') (hlocked : P.shared.state.store.Locked)
    (hidle : Idle i P.shared.state) (hg : P.shared.state.store.granted i = [])
    (hi : Unbegun i P') :
    P'.shared.state.store.Locked ∧ Idle i P'.shared.state ∧
      P'.shared.state.store.granted i = [] := by
  induction hr with
  | refl => exact ⟨hlocked, hidle, hg⟩
  | @tail P₁ P₂ hr hs ih =>
    obtain ⟨l, hl, -⟩ := hs
    rcases Machine.traced_step_cases hl with ⟨j, c, e, k, r, w, -, hp, hx, rfl⟩ |
      ⟨v, w, -, hv, rfl⟩ | ⟨j, e, k, -, hp, rfl⟩
    · obtain ⟨hlocked, hidle, hg⟩ := ih fun e' he' => hi e' (List.mem_append_left _ he')
      have hji : i ≠ j := fun heq => hi ⟨j, e, r⟩ (by simp) heq.symm
      obtain ⟨hlocked', hothers⟩ := exec_others hlocked hx
      exact ⟨hlocked', hidle.others (hothers i hji), (hothers i hji).keeps.granted.trans hg⟩
    · obtain ⟨hlocked, hidle, hg⟩ := ih hi
      obtain ⟨hlocked', hothers⟩ := envStep_others hlocked hv
      exact ⟨hlocked', hidle.others (hothers i), (hothers i).keeps.granted.trans hg⟩
    · obtain ⟨hlocked, hidle, hg⟩ := ih hi
      refine ⟨hlocked.close, ?_, ?_⟩
      · by_cases hji : i = j
        · subst hji
          exact idle_close .go
        · exact hidle.others ⟨Store.Keeps.close hji, rfl, rfl⟩
      · exact hg

theorem Sized.earlier {T T' : AuthTables} (h : Sized T') (hc : Continues T T') : Sized T := by
  intro id t ht
  obtain ⟨t', ht', -⟩ := hc.token id t ht
  exact h id t' ht'

variable {users : List User} {clock : Time}

theorem authRecorded_continues
    (hr : (machine auth C).traced.Reach (fun _ _ => True)
      (AuthCallee.recorded C cfg users clock callees) P)
    (hr' : (machine auth C).traced.Reach (fun _ _ => True) P P') :
    Continues (.of P.shared.state.store.rows) (.of P'.shared.state.store.rows) := by
  have hgood := (authRecorded_good C cfg callees users clock).reach
    closed_auth ((machine auth C).forget.reach hr)
  exact (auth_later hgood ((machine auth C).forget.reach hr')).continues

/-- What the history vouches for may be assumed of every step. -/
theorem attested_reach
    (hr : (machine auth C).traced.Reach (fun _ _ => True)
      (AuthCallee.recorded C cfg users clock callees) P)
    (hr' : (machine auth C).traced.Reach (fun _ _ => True) P P')
    (hsized : Sized (.of P'.shared.state.store.rows)) :
    (machine auth C).Reach (fun _ w => Attested cfg w) ((machine auth C).forget.config P)
      ((machine auth C).forget.config P') := by
  refine (machine auth C).forget.reach_of hr' fun D hD hD' => ?_
  exact ⟨authRecorded_vouches users clock (hr.trans hD),
    hsized.earlier (authRecorded_continues (hr.trans hD) hD')⟩

/-- A request that has not begun stands at its beginning. -/
theorem unbegun_pool
    (hr : (machine auth C).traced.Reach (fun _ _ => True)
      (AuthCallee.recorded C cfg users clock callees) P) {callee : AuthCallee}
    (hi : callees i = some callee) (hun : Unbegun i P) {p : App auth AuthAnswer}
    (hp : P.pool i = some p) :
    p = callee.program cfg ∧ Idle i P.shared.state ∧ P.shared.state.store.granted i = [] := by
  have hstart : (AuthCallee.recorded C cfg users clock callees).pool i =
      some (callee.program cfg) := by
    show (callees i).map _ = _
    rw [hi]
    rfl
  obtain ⟨q, hleaves, hpool⟩ := Machine.own_leaves hstart rfl hr
  have hown : own P.shared.trace i = [] := by
    refine List.filterMap_eq_nil_iff.mpr fun e he => ?_
    rw [if_neg (hun e he)]
  rw [hown] at hleaves
  obtain rfl := hleaves.eq_of_nil
  rw [hp] at hpool
  refine ⟨?_, (unbegun_idle hr (Store.locked_quiet _) ?_ rfl hun).2⟩
  · rcases hpool with hpool | hpool
    · exact Option.some.inj hpool
    · cases hpool
  · exact ⟨rfl, fun k h => (by cases h), rfl⟩

/-- **Logout is final.** A logout whose token was issued before it began has,
once it returns, revoked the session for good; and no refresh that begins
after it, with any token of that session, ever returns a pair. -/
theorem logout_final (hinj : Set.InjOn cfg.sha256 (fingerprints cfg callees))
    {P₀ : Config (sig auth) Exn (Traced (sig auth) Exn (World auth C)) AuthAnswer}
    (h₀ : (machine auth C).traced.Reach (fun _ _ => True)
      (AuthCallee.recorded C cfg users clock callees) P₀)
    (h : (machine auth C).traced.Reach (fun _ _ => True) P₀ P)
    (h' : (machine auth C).traced.Reach (fun _ _ => True) P P')
    (hsized : Sized (.of P'.shared.state.store.rows)) {token : String}
    (hi : callees i = some (.logout ⟨some token⟩)) (hbegins : Unbegun i P₀)
    (hissued : IssuedFor (cfg.digest token) sid (.of P₀.shared.state.store.rows))
    (hdone : P.pool i = some (.ret .done)) :
    IsRevoked sid (.of P'.shared.state.store.rows) ∧
      ∀ j hotStore command, callees j = some (.refresh hotStore command) → Unbegun j P →
        IssuedFor (cfg.digest command.refreshToken) sid (.of P.shared.state.store.rows) →
        ∀ pair, P'.pool j ≠ some (.ret (.pair pair)) := by
  have hstart : (authRules cfg callees (fun _ w : World auth C => Attested cfg w) False).spec.Good
      (Ended cfg callees fun _ => False) (AuthCallee.start C cfg users clock callees) :=
    auth_good (fun h => h.elim) (fun _ _ _ _ h => h.elim) users clock
  have hsized₁ := hsized.earlier (authRecorded_continues (h₀.trans h) h')
  have hsized₀ := hsized₁.earlier (authRecorded_continues h₀ h)
  have hgood₀ := hstart.reach closed_auth (attested_reach .refl h₀ hsized₀)
  -- the logout, from where it begins
  have hrevoked : IsRevoked sid (.of P.shared.state.store.rows) := by
    have hrenewed := hgood₀.renew (j := i) (A := fun r w => r = .ok .done →
      IsRevoked sid (.of w.store.rows)) fun p hp => by
        obtain ⟨rfl, hidle, -⟩ := unbegun_pool h₀ hi hbegins hp
        refine ⟨_, Rules.stable_idle.and (steady_tables fun _ _ hc h => h.later hc).stable,
          ⟨hidle, hissued⟩, (logout_revokes token).bind (fun _ w _ h _ => h) fun x w _ _ hx => ?_⟩
        cases hx
    have hlater := hrenewed.reach closed_auth (attested_reach h₀ h hsized₁)
    have hresult := hlater.result (i := i) (r := .ok .done) hdone
    rw [Function.update_self] at hresult
    exact hresult rfl
  refine ⟨hrevoked.later (authRecorded_continues (h₀.trans h) h'), ?_⟩
  intro j hotStore command hj hbegins' hissued' pair hpair
  have hgood := hstart.reach closed_auth (attested_reach .refl (h₀.trans h) hsized₁)
  have hrenewed := hgood.renew (j := j) (A := fun r _ => ∀ pair, r ≠ .ok (.pair pair))
    fun p hp => by
      obtain ⟨rfl, hidle, hgranted⟩ := unbegun_pool (h₀.trans h) hj hbegins' hp
      have hbarred : Barred cfg command sid (.of P.shared.state.store.rows) :=
        ⟨hissued', hrevoked⟩
      have hsteady : (authRules cfg callees (fun _ w : World auth C => Attested cfg w)
          False).Steady j fun w => Barred cfg command sid (.of w.store.rows) :=
        steady_tables fun _ _ hc h => ⟨h.1.later hc, h.2.later hc⟩
      refine ⟨_, ((Rules.stable_idle.and lingers_ungranted.stable).and hsteady.stable).and
        (fun w w' _ _ hc _ _ _ => hc), ⟨⟨⟨hidle, hgranted⟩, hbarred⟩,
          authRecorded_vouches users clock (h₀.trans h), hsized₁⟩,
        (refresh_barred hinj hj).bind (fun pair w _ h => h.elim) fun x w _ _ pair hx => ?_⟩
      cases hx
  have hlater := hrenewed.reach closed_auth (attested_reach (h₀.trans h) h' hsized)
  have hresult := hlater.result (i := j) (r := .ok (.pair pair)) hpair
  rw [Function.update_self] at hresult
  exact hresult pair rfl

end Runs

namespace Sample

/-- A login, a refresh of its token, a logout with the new token, and then a
retry of the refresh. -/
def loggingOut : Nat → Option AuthCallee
  | 0 => some (.login ⟨"user@example.org", "password"⟩)
  | 1 => some (.refresh false ⟨"r1", digest 1⟩)
  | 2 => some (.logout ⟨some "r2"⟩)
  | 3 => some (.refresh false ⟨"r1", digest 1⟩)
  | _ => none

def onRecord (ls : List (machine auth codec).Label) : List (machine auth codec).traced.Label :=
  ls.map fun
    | .act i c => .act i c
    | .env v => .env v
    | .crash i => .crash i

theorem injOn_loggingOut :
    Set.InjOn authConfig.sha256 (fingerprints authConfig loggingOut) := by
  have hone : ∀ text, text ∈ fingerprints authConfig loggingOut →
      text = refreshFingerprint (authConfig.digest "r1") := by
    rintro text ⟨i, hotStore, command, hi, rfl⟩
    match i, hi with
    | 1, hi =>
        cases hi
        rfl
    | 3, hi =>
        cases hi
        rfl
  intro a ha b hb _
  rw [hone a ha, hone b hb]

/-- `P` is before the logout, `P₁` after it, and `P₂` after the retry. -/
structure LoggedOut
    (P P₁ P₂ : Config (sig auth) Exn (Traced (sig auth) Exn (World auth codec)) AuthAnswer) :
    Prop where
  before : (machine auth codec).traced.run (fun _ _ => true)
    (AuthCallee.recorded codec authConfig [account] 5 loggingOut)
    (onRecord (loggedIn ++ refreshed)) = some P
  logout : (machine auth codec).traced.run (fun _ _ => true) P
    (onRecord (answered 2 (going 9))) = some P₁
  retry : (machine auth codec).traced.run (fun _ _ => true) P₁
    (onRecord (answered 3 (going 9))) = some P₂
  waits : P.shared.trace.all (fun e => e.pid != 2) = true
  issued : IssuedFor (authConfig.digest "r2") 5 (.of P.shared.state.store.rows)
  done : P₁.pool 2 = some (.ret .done)
  few : ∀ n, (AuthTables.of P₂.shared.state.store.rows).tokens (n + 8) = none
  refused : P₂.pool 3 = some (.throw .invalidRefreshToken)

set_option maxRecDepth 4000 in
theorem exists_loggedOut : ∃ P P₁ P₂, LoggedOut P P₁ P₂ :=
  ⟨_, _, _, rfl, rfl, rfl, rfl, ⟨7, _, rfl, rfl, rfl⟩, rfl, fun _ => rfl, rfl⟩

end Sample

theorem logout_final_retry : ∃ P P₁ P₂, Sample.LoggedOut P P₁ P₂ ∧
    IsRevoked 5 (.of P₂.shared.state.store.rows) ∧
      ∀ j hotStore command, Sample.loggingOut j = some (.refresh hotStore command) →
        Unbegun j P₁ → IssuedFor (Sample.authConfig.digest command.refreshToken) 5
          (.of P₁.shared.state.store.rows) →
        ∀ pair, P₂.pool j ≠ some (.ret (.pair pair)) := by
  obtain ⟨P, P₁, P₂, h⟩ := Sample.exists_loggedOut
  refine ⟨P, P₁, P₂, h, logout_final Sample.injOn_loggingOut
    (Machine.reach_of_run _ (fun _ _ _ => trivial) _ _ _ h.before)
    (Machine.reach_of_run _ (fun _ _ _ => trivial) _ _ _ h.logout)
    (Machine.reach_of_run _ (fun _ _ _ => trivial) _ _ _ h.retry) ?_
    (i := 2) rfl ?_ h.issued h.done⟩
  · intro id t ht
    by_cases hid : id < 8
    · exact hid.trans (by decide)
    · obtain ⟨n, rfl⟩ := Nat.exists_eq_add_of_le' (Nat.not_lt.mp hid)
      rw [h.few n] at ht
      cases ht
  · intro e he
    simpa using List.all_eq_true.mp h.waits e he

end IdentityService
