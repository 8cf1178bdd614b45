import IdentityService.Auth.Runs
import IdentityService.Idempotency.WriteSets

/-!
# What a stored success names

A refresh that rotates stores the id of the replacement in its record, as
text, and the pair it hands out, encrypted. They are all a later replay has
to go by, so it matters whose token it is: the record, the replacement and
the token it replaces are committed together, both tokens are of one
session, and the pair carries the replacement.
-/

namespace IdentityService

open Concurrent

variable {C : ResultCodec} {cfg : AuthConfig} {callees : Nat → Option AuthCallee} {α β : Type}

/-- A stored success names token `r`, and keeps a pair that carries it. -/
structure HandsOut (cfg : AuthConfig) (identity : IdempotencyIdentity)
    (c : CompletedIdempotencyResult) (r : RefreshToken) : Prop where
  resource : c.resourceId = some (uuidText r.id)
  envelope : ∃ (nonce : List UInt8) (pair : TokenPair),
    c.resultPayload = some (cfg.protector.protect nonce pair.dump
      (replayAad identity c.requestHash c.resultType c.resultVersion)) ∧
    cfg.digest pair.refreshToken = r.tokenHash

/-- Token `r` is the only one of the write set that may be unused, and all
of them are of its session. -/
structure Replaces (wr : AuthRows) (r : RefreshToken) : Prop where
  row : wr (.biz (.token r.id)) = some r
  session : ∀ id t, wr (.biz (.token id)) = some t → t.sessionId = r.sessionId
  others : ∀ id t, wr (.biz (.token id)) = some t → t = r ∨ t.usedAt.isSome

/-- A success among the records of a write set hands out the replacement in
the write set. -/
def Named (cfg : AuthConfig) (wr : AuthRows) : Prop :=
  ∀ identity rec, wr (.record identity) = some rec →
    rec.completed.resultType = successResult →
    ∃ r : RefreshToken, HandsOut cfg identity rec.completed r ∧ Replaces wr r

/-- No idempotency record is among the rows. -/
def Recordless (wr : AuthRows) : Prop := ∀ identity, wr (.record identity) = none

theorem Recordless.named {wr : AuthRows} (h : Recordless wr) : Named cfg wr := by
  intro identity rec hrec
  rw [h] at hrec
  cases hrec

theorem recordless_unwritten : Recordless unwritten := fun _ => rfl

/-! ## Callbacks -/

/-- Code inside a transaction that has staged `wr`: when it returns `a`, it
has staged a write set with `A a`. -/
def Stages (ok : AuthRows → Prop) (op : AuthOp α) (wr : AuthRows) (A : α → AuthRows → Prop) :
    Prop :=
  (writeFlow ok).Follows op.run (some wr) fun r l =>
    ∀ a, r = .ok a → ∃ wr', l = some wr' ∧ A a wr'

section Stages

variable {ok : AuthRows → Prop} {op : AuthOp α} {wr : AuthRows} {A A' : α → AuthRows → Prop}

theorem Stages.mono (h : Stages ok op wr A) (hA : ∀ a wr', A a wr' → A' a wr') :
    Stages ok op wr A' := by
  refine Flow.Follows.mono h fun r l hl a ha => ?_
  obtain ⟨wr', rfl, hwr⟩ := hl a ha
  exact ⟨wr', rfl, hA a wr' hwr⟩

theorem Stages.bind {f : α → AuthOp β} {A' : β → AuthRows → Prop} (h : Stages ok op wr A)
    (hf : ∀ a wr', A a wr' → Stages ok (f a) wr' A') : Stages ok (op.bind f) wr A' := by
  unfold Stages
  rw [Operation.run_bind]
  refine Flow.Follows.bind h (fun a l hl => ?_) fun x l _ b hb => by cases hb
  obtain ⟨wr', rfl, hwr⟩ := hl a rfl
  exact hf a wr' hwr

theorem stages_ret {a : α} (h : A a wr) : Stages ok (.ret a) wr A := by
  intro b hb
  cases hb
  exact ⟨wr, rfl, h⟩

theorem stages_throw (x : Exn) : Stages ok (.throw x : AuthOp α) wr A := by
  intro b hb
  cases hb

theorem stages_ofExcept {e : Except Exn α} (h : ∀ a, e = .ok a → A a wr) :
    Stages ok (Prog.ofExcept e) wr A := by
  cases e with
  | error x => exact stages_throw x
  | ok a => exact stages_ret (h a rfl)

/-- Reading, locking, the clock and the outside stage nothing. -/
theorem stages_ask {e : OpEff auth} (hput : ∀ k row, e ≠ .put k row)
    (hinsert : ∀ k row, e ≠ .insert k row) : Stages ok (AuthOp.ask e) wr fun _ wr' => wr' = wr := by
  cases e with
  | put k row => exact absurd rfl (hput k row)
  | insert k row => exact absurd rfl (hinsert k row)
  | read k => exact ⟨rfl, fun r => by cases r <;> (intro a ha; exact ⟨wr, rfl, rfl⟩)⟩
  | lock k => exact ⟨rfl, fun r => by cases r <;> (intro a ha; exact ⟨wr, rfl, rfl⟩)⟩
  | now => exact ⟨trivial, fun r => by cases r <;> (intro a ha; exact ⟨wr, rfl, rfl⟩)⟩
  | ext x => exact ⟨trivial, fun r => by cases r <;> (intro a ha; exact ⟨wr, rfl, rfl⟩)⟩

theorem stages_select (k : AuthKey) : Stages ok (AuthOp.select k) wr fun _ wr' => wr' = wr :=
  stages_ask (fun _ _ h => by cases h) fun _ _ h => by cases h

theorem stages_selectForUpdate (k : AuthKey) :
    Stages ok (AuthOp.selectForUpdate k) wr fun _ wr' => wr' = wr :=
  stages_ask (fun _ _ h => by cases h) fun _ _ h => by cases h

theorem stages_draw (x : AuthExt) : Stages ok (AuthOp.draw x) wr fun _ wr' => wr' = wr :=
  stages_ask (fun _ _ h => by cases h) fun _ _ h => by cases h

theorem stages_clock : Stages ok AuthOp.clock wr fun _ wr' => wr' = wr :=
  stages_ask (fun _ _ h => by cases h) fun _ _ h => by cases h

theorem stages_put (k : AuthKey) (row : k.Row) : Stages ok (AuthOp.put k row) wr fun _ wr' =>
    wr' = Function.update wr (.biz k) (some row) := by
  refine ⟨rfl, fun r => ?_⟩
  cases r with
  | error x =>
    intro a ha
    cases ha
  | ok a => exact fun b hb => ⟨_, rfl, rfl⟩

theorem stages_create (k : AuthKey) (row : k.Row) : Stages ok (AuthOp.create k row) wr fun _ wr' =>
    wr' = Function.update wr (.biz k) (some row) := by
  refine ⟨rfl, fun r => ?_⟩
  cases r with
  | error x =>
    intro a ha
    cases ha
  | ok added =>
    cases added with
    | false =>
      intro a ha
      cases ha
    | true => exact fun b hb => ⟨_, rfl, rfl⟩

theorem stages_update (k : AuthKey) (row : k.Row) : Stages ok (AuthOp.update k row) wr fun _ wr' =>
    wr' = Function.update wr (.biz k) (some row) := by
  refine (stages_selectForUpdate k).bind fun found wr' hwr => ?_
  subst hwr
  cases found with
  | none => exact stages_throw _
  | some old => exact stages_put k row

end Stages

/-! ## A rotation -/

/-- The validators of a rotated session: both tokens are of the session, and
the one that was presented is used. -/
theorem rotate_tokens_ok {s s' : AuthSession} {tokenId : Uuid} {now : Time} {idleTtl : Int}
    {tokenHash : Digest} (h : s.rotate tokenId now idleTtl tokenHash = .ok s') :
    ∃ used r : RefreshToken, s'.refreshToken = some used ∧ s'.replacementToken = some r ∧
      r.id = tokenId ∧ r.tokenHash = tokenHash ∧ used.sessionId = r.sessionId ∧
      used.usedAt.isSome := by
  unfold AuthSession.rotate at h
  obtain ⟨_, -, h⟩ := bind_eq_ok.mp h
  split at h
  · cases h
  obtain ⟨token, -, h⟩ := bind_eq_ok.mp h
  split at h
  · cases h
  obtain ⟨r, hr, h⟩ := bind_eq_ok.mp h
  obtain ⟨used, -, h⟩ := bind_eq_ok.mp h
  rw [RefreshToken.validate_ok (by simp)] at hr
  cases hr
  unfold AuthSession.validate at h
  split at h
  · cases h
  split at h
  · cases h
  split at h
  · cases h
  rename_i hfits
  split at h
  · cases h
  rename_i hsucceeds
  cases h
  simp only [Option.all_some, AuthSession.fits, Bool.not_eq_true', Bool.not_eq_false,
    Bool.and_eq_true, decide_eq_true_eq] at hfits
  simp only [Option.all_some, AuthSession.succeeds, Option.any_some, Bool.not_eq_true',
    Bool.not_eq_false, Bool.and_eq_true] at hsucceeds
  exact ⟨used, _, rfl, rfl, rfl, rfl, hfits.1.1, hsucceeds.1.1.1⟩

variable {identity : IdempotencyIdentity} {requestHash : Digest}

/-- What a refresh stages can be committed with its record. -/
abbrev Nameable (cfg : AuthConfig) (identity : IdempotencyIdentity) (requestHash : Digest)
    (stored : StoredResult) (wr : AuthRows) : Prop :=
  Recordable (Named cfg) identity requestHash stored (some wr)

theorem Recordless.record {wr : AuthRows} (h : Recordless wr) {record : IdempotencyRecord}
    (hname : record.completed.resultType = successResult →
      ∃ r : RefreshToken, HandsOut cfg identity record.completed r ∧ Replaces wr r) :
    Named cfg (Function.update wr (.record identity) (some record)) := by
  intro other rec hrec hsuccess
  have hbiz : ∀ k, Function.update wr (.record identity) (some record) (.biz k) = wr (.biz k) :=
    fun k => Function.update_of_ne (by simp) _ _
  by_cases hother : other = identity
  · subst hother
    rw [Function.update_self] at hrec
    cases hrec
    obtain ⟨r, hhands, hrow, hsession, hothers⟩ := hname hsuccess
    exact ⟨r, hhands, (hbiz _).trans hrow, fun id t ht => hsession id t ((hbiz _).symm.trans ht),
      fun id t ht => hothers id t ((hbiz _).symm.trans ht)⟩
  · rw [Function.update_of_ne (by simpa using hother), h] at hrec
    cases hrec

theorem stages_rejected {wr : AuthRows} (h : Recordless wr) (session : AuthSession) (user)
    (now : Time) :
    Stages ok (settleRefresh cfg identity requestHash user now (false, session)) wr
      (Nameable cfg identity requestHash) := by
  have hsave : Stages ok (AuthSessionRepository.save session) wr fun _ => Recordless := by
    refine (operation_follows _ h).mono fun r l hl a _ => ?_
    exact hl
  refine hsave.bind fun _ wr' hwr => stages_ret ⟨wr', rfl, fun record hrecord => ?_⟩
  refine hwr.record fun hsuccess => ?_
  rw [hrecord] at hsuccess
  exact absurd (show rejectedResult = successResult from hsuccess) (by decide)

theorem stages_save {session : AuthSession} {used r : RefreshToken}
    (hused : session.refreshToken = some used) (hr : session.replacementToken = some r)
    (hsession : used.sessionId = r.sessionId) (hspent : used.usedAt.isSome) :
    Stages ok (AuthSessionRepository.save session) unwritten fun _ wr =>
      Recordless wr ∧ Replaces wr r := by
  refine (stages_update (.session session.id) session.row).bind fun _ wr hwr => ?_
  subst hwr
  rw [hused, hr]
  refine (stages_update (.token used.id) used).bind fun _ wr hwr => ?_
  subst hwr
  refine (stages_create (.token r.id) r).bind fun _ wr hwr => ?_
  subst hwr
  refine (stages_create (.tokenHash r.tokenHash) r.id).mono fun _ wr hwr => ?_
  have hrows : ∀ id t, wr (.biz (.token id)) = some t → t = r ∨ t = used := by
    intro id t ht
    rw [hwr] at ht
    by_cases hid : id = r.id
    · subst hid
      simp at ht
      exact .inl ht.symm
    · by_cases hid' : id = used.id
      · subst hid'
        simp [hid] at ht
        exact .inr ht.symm
      · simp [hid, hid', unwritten] at ht
  refine ⟨fun identity => by simp [hwr, unwritten], by simp [hwr], fun id t ht => ?_,
    fun id t ht => ?_⟩
  · rcases hrows id t ht with rfl | rfl
    · rfl
    · exact hsession
  · rcases hrows id t ht with rfl | rfl
    · exact .inl rfl
    · exact .inr hspent

theorem stages_rotate (session : AuthSession) (user : User) (now : Time) :
    Stages ok (rotateSession cfg identity requestHash session user now) unwritten
      (Nameable cfg identity requestHash) := by
  have hissue : Stages ok (issueTokenPair cfg user now) unwritten fun issued wr =>
      cfg.digest issued.pair.refreshToken = issued.refreshDigest ∧ wr = unwritten := by
    refine (stages_draw _).bind fun access wr hwr => ?_
    subst hwr
    refine (stages_draw _).bind fun refresh wr hwr => ?_
    subst hwr
    exact stages_ret ⟨rfl, rfl⟩
  refine hissue.bind fun issued wr hissued => ?_
  obtain ⟨hdigest, rfl⟩ := hissued
  refine (stages_draw .uuid7).bind fun tokenId wr hwr => ?_
  subst hwr
  refine (stages_ofExcept (A := fun s' wr => session.rotate tokenId now cfg.sessionIdleTtl
    issued.refreshDigest = .ok s' ∧ wr = unwritten) fun s' hs' => ⟨hs', rfl⟩).bind ?_
  rintro s' wr ⟨hrotate, rfl⟩
  obtain ⟨used, r, hused, hr, rfl, htoken, hsession, hspent⟩ := rotate_tokens_ok hrotate
  refine (stages_save hused hr hsession hspent).bind fun _ wr hwr => ?_
  refine (stages_draw .nonce).bind fun nonce wr' hwr' => ?_
  subst hwr'
  refine stages_ret ⟨wr', rfl, fun record hrecord => hwr.1.record fun _ => ⟨r, ?_, hwr.2⟩⟩
  rw [hrecord]
  exact ⟨rfl, nonce, issued.pair, rfl, hdigest.trans htoken.symm⟩

theorem stages_getByRefreshHashForUpdate (d : Digest) {wr : AuthRows} :
    Stages ok (AuthSessionRepository.getByRefreshHashForUpdate d) wr fun _ wr' => wr' = wr := by
  have htoken : Stages ok (RefreshTokenRepository.getByHashForUpdate d) wr
      fun _ wr' => wr' = wr := by
    refine (stages_select _).bind fun id wr' hwr => ?_
    subst hwr
    cases id with
    | none => exact stages_ret rfl
    | some id =>
      refine (stages_selectForUpdate _).bind fun row wr' hwr => ?_
      subst hwr
      cases row with
      | none => exact stages_ret rfl
      | some row =>
        refine (stages_ofExcept (A := fun _ wr => wr = wr') fun _ _ => rfl).bind ?_
        rintro token wr rfl
        exact stages_ret rfl
  refine htoken.bind fun token wr' hwr => ?_
  subst hwr
  cases token with
  | none => exact stages_ret rfl
  | some token =>
    refine (stages_selectForUpdate _).bind fun row wr' hwr => ?_
    subst hwr
    cases row with
    | none => exact stages_ret rfl
    | some row =>
      refine (stages_ofExcept (A := fun _ wr => wr = wr') fun _ _ => rfl).bind ?_
      rintro session wr rfl
      exact stages_ret rfl

/-- **What a refresh commits names what it rotated.** -/
theorem stages_refresh (rawToken : String) :
    Stages ok (refreshOperation cfg rawToken identity requestHash) unwritten
      (Nameable cfg identity requestHash) := by
  refine (stages_getByRefreshHashForUpdate _).bind fun session wr hwr => ?_
  subst hwr
  cases session with
  | none => exact stages_throw _
  | some session =>
    refine (stages_select _).bind fun user wr hwr => ?_
    subst hwr
    refine stages_clock.bind fun now wr hwr => ?_
    subst hwr
    refine (stages_ofExcept (A := fun _ wr => wr = unwritten) fun _ _ => rfl).bind ?_
    rintro ⟨verdict, session⟩ wr rfl
    cases verdict with
    | false => exact stages_rejected recordless_unwritten session user now
    | true =>
      cases user with
      | none => exact stages_throw _
      | some user => exact stages_rotate session user now

/-! ## Requests -/

section Requests

variable {l : Overlay auth}

/-- What is staged holds no record, if it is known at all. -/
def Plain {γ : Type} (_ : Except Exn γ) (l : Overlay auth) : Prop :=
  ∃ wr, l = some wr ∧ Recordless wr

theorem plain_run (op : AuthOp α) {wr : AuthRows} (h : Recordless wr) :
    (writeFlow (Named cfg)).Follows op.run (some wr) Plain :=
  operation_follows op h

/-- A unit of work that stages no record. -/
theorem uow_plain {body : App auth α} (h : (writeFlow (Named cfg)).Follows body l Plain) :
    (writeFlow (Named cfg)).Follows (uow body) l Clean := by
  refine uow_follows h fun a l' hl' => ?_
  obtain ⟨wr, rfl, hwr⟩ := hl'
  exact ⟨wr, rfl, hwr.named⟩

theorem login_follows (command : LoginCommand) :
    (writeFlow (Named cfg)).Follows (loginExecute cfg command) (some unwritten) Plain := by
  have hclean : ∀ {γ : Type} {r : Except Exn γ} {l : Overlay auth}, Clean r l → Plain r l :=
    fun h => ⟨_, h, recordless_unwritten⟩
  refine (uow_plain (plain_run _ recordless_unwritten)).bind (fun candidate l' hl' => ?_)
    fun _ _ h => hclean h
  cases hl'
  have hverify : ∀ hash, (writeFlow (Named cfg)).Follows (verifyOrDummy command.password hash)
      (some unwritten) Plain := by
    intro hash
    cases hash with
    | none =>
      exact (plain_run _ recordless_unwritten).bind (fun _ _ h => h) fun _ _ h => h
    | some hash => exact plain_run _ recordless_unwritten
  refine (hverify _).bind (fun verified l' hl' => ?_) fun _ _ h => h
  obtain ⟨wr, rfl, hwr⟩ := hl'
  split
  · exact (uow_plain (plain_run _ hwr)).mono fun _ _ h => hclean h
  · exact ⟨wr, rfl, hwr⟩

theorem logout_follows (command : LogoutCommand) :
    (writeFlow (Named cfg)).Follows (logoutExecute cfg command) (some unwritten) Clean := by
  unfold logoutExecute
  split
  · exact rfl
  refine uow_plain ((plain_run _ recordless_unwritten).bind (fun found l' hl' => ?_)
    fun _ _ h => h)
  obtain ⟨wr, rfl, hwr⟩ := hl'
  cases found with
  | none => exact ⟨wr, rfl, hwr⟩
  | some session =>
    refine (aside_follows fun o ho => by cases ho).bind (fun now l' hl' => ?_)
      fun x l' hl' => ⟨wr, hl', hwr⟩
    subst hl'
    show (writeFlow (Named cfg)).Follows (Prog.bind (Prog.ofExcept (session.revoke now)) _) _ _
    cases session.revoke now with
    | error x => exact ⟨wr, rfl, hwr⟩
    | ok session => exact plain_run _ hwr

theorem disable_follows (userId : Uuid) :
    (writeFlow (Named cfg)).Follows (disableUser userId) (some unwritten) Clean := by
  refine uow_plain ((plain_run _ recordless_unwritten).bind (fun found l' hl' => ?_)
    fun _ _ h => h)
  obtain ⟨wr, rfl, hwr⟩ := hl'
  cases found with
  | none => exact ⟨wr, rfl, hwr⟩
  | some user =>
    refine (aside_follows fun o ho => by cases ho).bind (fun now l' hl' => ?_)
      fun x l' hl' => ⟨wr, hl', hwr⟩
    subst hl'
    show (writeFlow (Named cfg)).Follows (Prog.bind (Prog.ofExcept (user.disable now)) _) _ _
    cases user.disable now with
    | error x => exact ⟨wr, rfl, hwr⟩
    | ok user => exact plain_run _ hwr

theorem checkReplay_follows (tokenId : Uuid) :
    (writeFlow (Named cfg)).Follows (checkReplay tokenId) (some unwritten) Clean := by
  refine uow_plain ((plain_run _ recordless_unwritten).bind (fun found l' hl' => ?_)
    fun _ _ h => h)
  obtain ⟨wr, rfl, hwr⟩ := hl'
  cases found with
  | none => exact ⟨wr, rfl, hwr⟩
  | some session =>
    refine (aside_follows fun o ho => by cases ho).bind (fun now l' hl' => ?_)
      fun x l' hl' => ⟨wr, hl', hwr⟩
    subst hl'
    show (writeFlow (Named cfg)).Follows (Prog.bind (Prog.ofExcept (session.canReplay now)) _) _ _
    cases session.canReplay now with
    | error x => exact ⟨wr, rfl, hwr⟩
    | ok replayable =>
      cases replayable with
      | true => exact ⟨wr, rfl, hwr⟩
      | false => exact ⟨wr, rfl, hwr⟩

section Refresh

variable {F : Flow (sig auth) Exn} {rest : F.State → Prop} {command : RefreshCommand}
  (hreplay : ∀ tokenId, F.Rests rest (checkReplay tokenId))

include hreplay

-- how a text is read as a UUID does not matter here
attribute [local irreducible] resourceUuid

theorem answerCompleted_rests (completed : CompletedIdempotencyResult) :
    F.Rests rest (answerCompleted cfg identity requestHash completed) := by
  unfold answerCompleted
  by_cases hrejected : completed.resultType = rejectedResult
  · rw [if_pos hrejected]
    exact Flow.rests_throw _
  rw [if_neg hrejected]
  by_cases hsuccess : completed.resultType ≠ successResult
  · rw [if_pos hsuccess]
    exact Flow.rests_throw _
  rw [if_neg hsuccess]
  cases completed.resultPayload with
  | none => exact Flow.rests_throw _
  | some payload =>
    cases completed.resourceId with
    | none => exact Flow.rests_throw _
    | some resourceId =>
      have hpair : F.Rests rest
          (replayPair cfg identity requestHash completed payload resourceId) :=
        (Flow.rests_ofExcept _).bind fun tokenId => (hreplay tokenId).bind fun _ =>
          (Flow.rests_ofExcept _).bind fun restored => Flow.rests_ofExcept _
      refine hpair.attempt fun r => ?_
      rcases r with x | pair
      · cases x
        all_goals exact Flow.rests_throw _
      · exact Flow.rests_ret _

/-- A refresh opens no transactions besides those of the idempotency layer
and the one that checks a replay. -/
theorem refresh_rests (hbetween : Between F rest cfg.retention command.identity
    (command.requestHash cfg)
    (refreshOperation cfg command.refreshToken command.identity (command.requestHash cfg)))
    (hotStore : Bool) : F.Rests rest (refreshExecute cfg hotStore command) := by
  refine (hbetween.coordinatorExecute hotStore _).bind fun result => ?_
  obtain ⟨outcome, completed, decision⟩ := result
  cases outcome with
  | conflict => exact Flow.rests_throw _
  | inProgress => exact Flow.rests_throw _
  | _ =>
    cases completed with
    | none => exact Flow.rests_throw _
    | some completed => exact answerCompleted_rests hreplay completed

end Refresh

theorem refresh_follows (hotStore : Bool) (command : RefreshCommand) :
    (writeFlow (Named cfg)).Follows (refreshExecute cfg hotStore command) (some unwritten)
      Clean := by
  have hop : (writeFlow (Named cfg)).Follows
      (refreshOperation cfg command.refreshToken command.identity (command.requestHash cfg)).run
      (some unwritten) fun r l => ∀ stored, r = .ok stored →
        Recordable (Named cfg) command.identity (command.requestHash cfg) stored l := by
    refine Flow.Follows.mono (stages_refresh command.refreshToken) fun r l hl stored hr => ?_
    obtain ⟨wr, rfl, hwr⟩ := hl stored hr
    exact hwr
  have hreplay : ∀ tokenId, (writeFlow (Named cfg)).Rests (fun l => l = some unwritten)
      (checkReplay tokenId) := by
    intro tokenId l hl
    subst hl
    exact checkReplay_follows tokenId
  exact refresh_rests hreplay (between_writeFlow recordless_unwritten.named hop) hotStore _ rfl

/-- **Every request keeps to the flow.** -/
theorem request_follows (callee : AuthCallee) :
    (writeFlow (Named cfg)).Follows (callee.program cfg) (some unwritten) fun _ _ => True := by
  cases callee with
  | login command => exact (login_follows command).bind (fun _ _ _ => trivial) fun _ _ _ => trivial
  | refresh hotStore command =>
    exact (refresh_follows hotStore command).bind (fun _ _ _ => trivial) fun _ _ _ => trivial
  | logout command =>
    exact (logout_follows command).bind (fun _ _ _ => trivial) fun _ _ _ => trivial
  | disable userId =>
    exact (disable_follows userId).bind (fun _ _ _ => trivial) fun _ _ _ => trivial

end Requests

/-! ## Runs -/

/-- A recorded run of a service that has users and nothing else yet. -/
def AuthCallee.recorded (C : ResultCodec) (cfg : AuthConfig) (users : List User) (clock : Time)
    (callees : Nat → Option AuthCallee) :
    Config (sig auth) Exn (Traced (sig auth) Exn (World auth C)) AuthAnswer :=
  ⟨⟨(AuthCallee.start C cfg users clock callees).shared, []⟩,
    (AuthCallee.start C cfg users clock callees).pool⟩

/-- Tokens that were committed are in the tables, with the session and the
digest they were committed with. -/
def Lodged (w : World auth C) : Prop :=
  ∀ pid wr, .commit pid wr ∈ w.store.log → ∀ id t, wr (.biz (.token id)) = some t →
    ∃ t', (AuthTables.of w.store.rows).tokens id = some t' ∧ t'.sessionId = t.sessionId ∧
      t'.tokenHash = t.tokenHash

variable {w w' : World auth C} {i : Nat}

theorem Lodged.continues (h : Lodged w) (hc : Continues (.of w.store.rows) (.of w'.store.rows))
    (hlog : ∀ pid wr, .commit pid wr ∈ w'.store.log → .commit pid wr ∈ w.store.log) :
    Lodged w' := by
  intro pid wr hm id t ht
  obtain ⟨t₁, ht₁, hs₁, hd₁⟩ := h pid wr (hlog pid wr hm) id t ht
  obtain ⟨t₂, ht₂, hs₂, hd₂, -⟩ := hc.token id t₁ ht₁
  exact ⟨t₂, ht₂, hs₂.trans hs₁, hd₂.trans hd₁⟩

theorem Lodged.commit (h : Lodged w) (hc : Continues (.of w.store.rows) (.of w'.store.rows))
    (hlog : w'.store.log = w.store.log ++ [.commit i (w.store.staged i)])
    (hrows : w'.store.rows = w.store.view i) : Lodged w' := by
  intro pid wr hm id t ht
  rw [hlog, List.mem_append, List.mem_singleton] at hm
  rcases hm with hm | hm
  · obtain ⟨t₁, ht₁, hs₁, hd₁⟩ := h pid wr hm id t ht
    obtain ⟨t₂, ht₂, hs₂, hd₂, -⟩ := hc.token id t₁ ht₁
    exact ⟨t₂, ht₂, hs₂.trans hs₁, hd₂.trans hd₁⟩
  · cases hm
    refine ⟨t, ?_, rfl, rfl⟩
    show w'.store.rows (.biz (.token id)) = some t
    rw [hrows]
    show (w.store.staged i (.biz (.token id))).or _ = some t
    rw [ht]
    rfl

/-- What the history says about tokens. -/
structure Vouches (cfg : AuthConfig) (w : World auth C) : Prop where
  named : ∀ pid wr, .commit pid wr ∈ w.store.log → Named cfg wr
  lodged : Lodged w

/-- In the tables, token `r` took the place of token `t`. -/
structure Succession (w : World auth C) (t r : RefreshToken) : Prop where
  old : (AuthTables.of w.store.rows).tokens t.id = some t
  used : t.usedAt.isSome
  new : (AuthTables.of w.store.rows).tokens r.id = some r
  session : r.sessionId = t.sessionId
  linked : Links w.store.log t.id r.id

/-- **A stored success hands out the successor of the token presented.** -/
theorem AuthInv.successor (h : AuthInv cfg callees w)
    (hinj : Set.InjOn cfg.sha256 (fingerprints cfg callees)) {hotStore : Bool}
    {command : RefreshCommand} (hi : callees i = some (.refresh hotStore command))
    (hv : Vouches cfg w) {c : CompletedIdempotencyResult} (hm : Minted identity c w.store)
    (hhash : c.requestHash = command.requestHash cfg) (hs : c.resultType = successResult) :
    ∃ t r, HandsOut cfg identity c r ∧ Succession w t r ∧
      t.tokenHash = cfg.digest command.refreshToken := by
  obtain ⟨pid, wr, rec, he, hrec, rfl⟩ := hm
  obtain ⟨-, t, r', hot, source, hrot, hpid, ht, hsource⟩ :=
    h.success pid wr identity rec he hrec hs
  obtain ⟨r, hhands, hr⟩ := hv.named pid wr he identity rec hrec hs
  have hrotated := hrot
  obtain ⟨⟨_, _, heq, htw, hrw⟩, -, hunused, -⟩ := hrotated
  cases heq
  -- the source rotated into the one token that is unused
  obtain rfl : r' = r := by
    rcases hr.others _ _ hrw with hr' | hr'
    · exact hr'
    · rw [hunused] at hr'
      cases hr'
  -- and it presented the same token
  have hdigest : cfg.digest source.refreshToken = cfg.digest command.refreshToken :=
    refreshFingerprint_inj (hinj ⟨pid, hot, source, hpid, rfl⟩ ⟨i, hotStore, command, hi, rfl⟩
      (hsource.symm.trans hhash))
  obtain ⟨t₁, ht₁, hs₁, hd₁⟩ := hv.lodged pid wr he t.id t htw
  obtain ⟨r₁, hr₁, hsr₁, hdr₁⟩ := hv.lodged pid wr he r'.id r' hr.row
  obtain ⟨t₂, ht₂, hused, -⟩ := h.spent _ he t r' hrot
  rw [ht₁] at ht₂
  cases ht₂
  have hti := h.families.tokenKey _ _ ht₁
  have hri := h.families.tokenKey _ _ hr₁
  refine ⟨t₁, r₁, ⟨?_, ?_⟩, ⟨?_, hused, ?_, ?_, _, he, t, r', hrot, hti.symm, hri.symm⟩, ?_⟩
  · rw [hri]
    exact hhands.resource
  · rw [hdr₁]
    exact hhands.envelope
  · rw [hti]
    exact ht₁
  · rw [hri]
    exact hr₁
  · calc
      r₁.sessionId = r'.sessionId := hsr₁
      _ = t.sessionId := (hr.session t.id t htw).symm
      _ = t₁.sessionId := hs₁.symm
  · rw [hd₁, ht, hdigest]

section Run

variable (users : List User) (clock : Time)
  {P : Config (sig auth) Exn (Traced (sig auth) Exn (World auth C)) AuthAnswer}

theorem authRecorded_named (hr : (machine auth C).traced.Reach (fun _ _ => True)
    (AuthCallee.recorded C cfg users clock callees) P) :
    ∀ pid wr, .commit pid wr ∈ P.shared.state.store.log → Named cfg wr := by
  have hstart : Written (Named cfg) (AuthCallee.recorded C cfg users clock callees) := by
    refine ⟨Store.locked_quiet _, fun i p _ => ?_, fun pid wr hm => by cases hm⟩
    intro wr hwr
    cases hwr
    rfl
  have hkept : (writeFlow (Named cfg)).Kept (fun _ _ _ => True)
      (AuthCallee.recorded C cfg users clock callees) := by
    intro i p hp
    obtain ⟨callee, -, rfl⟩ := Option.map_eq_some_iff.mp hp
    exact request_follows callee
  exact (written_reach hstart hkept hr).log

variable (C cfg callees) in
theorem authRecorded_good : (authRules cfg callees (fun _ _ : World auth C => True) False).spec.Good
    (Ended cfg callees fun _ => False) (AuthCallee.start C cfg users clock callees) :=
  auth_good (fun h => h.elim) (fun _ _ _ _ h => h.elim) users clock

theorem authRecorded_lodged (hr : (machine auth C).traced.Reach (fun _ _ => True)
    (AuthCallee.recorded C cfg users clock callees) P) : Lodged P.shared.state := by
  induction hr with
  | refl =>
    intro pid wr hm
    cases hm
  | @tail P P' hr hs ih =>
    have hgood := (authRecorded_good C cfg callees users clock).reach
      closed_auth ((machine auth C).forget.reach hr)
    obtain ⟨l, hl, -⟩ := hs
    obtain ⟨l', hl'⟩ := (machine auth C).forget.step hl
    have hcontinues : Continues (.of P.shared.state.store.rows)
        (.of P'.shared.state.store.rows) :=
      (hgood.step closed_auth ⟨l', hl', trivial⟩).2.continues
    rcases Machine.traced_step_cases hl with ⟨i, c, e, k, r, w, -, hp, hx, rfl⟩ |
      ⟨v, w, -, hv, rfl⟩ | ⟨i, e, k, -, hp, rfl⟩
    · rcases exec_log hx with hlog | ⟨-, hlog, hrows⟩
      · exact ih.continues hcontinues fun pid wr hm => hlog ▸ hm
      · exact ih.commit hcontinues hlog hrows
    · refine ih.continues hcontinues fun pid wr hm => ?_
      rcases envStep_cases hv with ⟨d, rfl⟩ | ⟨identity, rfl⟩ | ⟨cutoff, ids, st, -, hst, rfl⟩
      · exact hm
      · exact hm
      · obtain ⟨-, rfl⟩ := Store.delete_cases hst
        rcases List.mem_append.mp hm with hm | hm
        · exact hm
        · cases List.mem_singleton.mp hm
    · exact ih.continues hcontinues fun pid wr hm => hm

/-- **The history vouches for every stored success**, along every run. -/
theorem authRecorded_vouches (hr : (machine auth C).traced.Reach (fun _ _ => True)
    (AuthCallee.recorded C cfg users clock callees) P) : Vouches cfg P.shared.state :=
  ⟨authRecorded_named users clock hr, authRecorded_lodged users clock hr⟩

end Run

end IdentityService
