import IdentityService.Auth.Login
import IdentityService.Auth.ReplayProtector

/-!
# Where a client's tokens come from

A client knows the pairs it was given, and nothing of rows and rotations. The
refresh token of every such pair is in the tables, and a refresh hands out
the token that took the place of the one presented, whether it rotated just
now or answers from an earlier success. So whatever a client makes of a pair,
by refreshing again and again, is one line of one session.
-/

namespace IdentityService

open Concurrent

variable {C : ResultCodec} {cfg : AuthConfig} {callees : Nat → Option AuthCallee}

/-- A pair that was protected is restored in the same context. -/
def ReplayResultProtector.Faithful (protector : ReplayResultProtector) : Prop :=
  ∀ nonce (pair : TokenPair) aad,
    protector.restore (protector.protect nonce pair.dump aad) aad = .ok pair.dump

theorem TokenPair.validate_dump (pair : TokenPair) : validate pair.dump = .ok pair := rfl

/-- The protector that the handlers are given. -/
theorem aesGcmProtector_faithful (aead : Aead) (reader : JsonReader) (ring : ReplayKeyRing) :
    (aesGcmProtector aead reader ring).Faithful := by
  intro nonce pair aad
  have hkeys : (pair.dump.map Prod.fst).Nodup := by
    have hlist : pair.dump.map Prod.fst = ["access_token", "refresh_token", "token_type"] := rfl
    rw [hlist]
    decide
  have horder : Json.sortFields pair.dump = pair.dump := by
    refine Json.sortFields_of_inOrder (List.pairwise_map.mp (?_ :
      (pair.dump.map Prod.fst).Pairwise (· ≤ ·)))
    have hlist : pair.dump.map Prod.fst = ["access_token", "refresh_token", "token_type"] := rfl
    rw [hlist]
    decide
  have hring : ring.keys.lookup ring.activeKeyId = some ring.activeKey :=
    (Option.some_get ring.active).symm
  have hsame : AESGCMReplayResultProtector.restore aead reader ring
      (AESGCMReplayResultProtector.protect aead ring nonce pair.dump (aadBytes aad))
      (aadBytes aad) = .ok (Json.sortFields pair.dump) :=
    AESGCMReplayResultProtector.restore_same hkeys hring
  rw [horder] at hsame
  exact hsame

/-- What is restored of a stored success carries the token it names. -/
theorem HandsOut.restored {identity : IdempotencyIdentity} {c : CompletedIdempotencyResult}
    {r : RefreshToken} {pair : TokenPair} (h : HandsOut cfg identity c r)
    (hfaithful : cfg.protector.Faithful) (hr : Restores cfg identity c.requestHash c pair) :
    r.tokenHash = cfg.digest pair.refreshToken := by
  obtain ⟨nonce, kept, hkept, hdigest⟩ := h.envelope
  obtain ⟨-, payload, restored, hpayload, hrestore, hvalid⟩ := hr
  rw [hkept] at hpayload
  cases hpayload
  rw [hfaithful nonce kept] at hrestore
  cases hrestore
  rw [TokenPair.validate_dump] at hvalid
  cases hvalid
  exact hdigest.symm

/-! ## What clients hold -/

variable {users : List User} {clock : Time}
  {P : Config (sig auth) Exn (Traced (sig auth) Exn (World auth C)) AuthAnswer}

/-- The refresh token of the pair is in the tables, as `r`. -/
structure OnRecord (cfg : AuthConfig) (w : World auth C) (pair : TokenPair) (r : RefreshToken) :
    Prop where
  row : (AuthTables.of w.store.rows).tokens r.id = some r
  digest : r.tokenHash = cfg.digest pair.refreshToken

/-- Some request was answered with the pair. -/
def HandedOut (P : Config (sig auth) Exn (Traced (sig auth) Exn (World auth C)) AuthAnswer)
    (pair : TokenPair) : Prop :=
  ∃ i, P.pool i = some (.ret (.pair pair))

/-- A refresh with the token of the first pair was answered with the
second. -/
def Renews (callees : Nat → Option AuthCallee)
    (P : Config (sig auth) Exn (Traced (sig auth) Exn (World auth C)) AuthAnswer)
    (pair pair' : TokenPair) : Prop :=
  ∃ i hotStore command, callees i = some (.refresh hotStore command) ∧
    command.refreshToken = pair.refreshToken ∧ P.pool i = some (.ret (.pair pair'))

/-- Only logins and refreshes answer with a pair. -/
theorem pair_callee (hr : (machine auth C).traced.Reach (fun _ _ => True)
    (AuthCallee.recorded C cfg users clock callees) P) {i : Nat} {pair : TokenPair}
    (hp : P.pool i = some (.ret (.pair pair))) :
    (∃ command, callees i = some (.login command)) ∨
      ∃ hotStore command, callees i = some (.refresh hotStore command) := by
  have hkept : loginFlow.Kept (fun i r _ => ∀ pair, r = .ok (AuthAnswer.pair pair) →
      (∃ command, callees i = some (.login command)) ∨
        ∃ hotStore command, callees i = some (.refresh hotStore command)) P := by
    refine Flow.follows_reach (fun j p hp => ?_) hr
    obtain ⟨callee, hj, rfl⟩ := Option.map_eq_some_iff.mp hp
    -- any other request ends with its own answer
    have hdone : ∀ q : App auth Unit, loginFlow.Follows (q.bind fun _ => .ret AuthAnswer.done)
        loginFlow.start fun r _ => ∀ pair, r ≠ .ok (.pair pair) := by
      intro q
      refine (loginFlow_free q _).bind (fun _ _ _ pair h => ?_) fun x _ _ pair h => ?_
      all_goals cases h
    cases callee with
    | login command =>
      exact (loginFlow_free _ _).mono fun _ _ _ _ _ => .inl ⟨command, hj⟩
    | refresh hotStore command =>
      exact (loginFlow_free _ _).mono fun _ _ _ _ _ => .inr ⟨hotStore, command, hj⟩
    | logout command =>
      exact (hdone (logoutExecute cfg command)).mono fun _ _ h pair heq => absurd heq (h pair)
    | disable userId =>
      exact (hdone (disableUser userId)).mono fun _ _ h pair heq => absurd heq (h pair)
  exact hkept i _ hp pair rfl

theorem mem_committedBy {log : List AuthEntry} {i : Nat} {wr : AuthRows}
    (h : wr ∈ committedBy log i) : .commit i wr ∈ log := by
  obtain ⟨e, he, hwr⟩ := List.mem_filterMap.mp h
  cases e with
  | commit pid wr' =>
    by_cases hpid : pid = i
    · subst hpid
      simp at hwr
      rw [← hwr]
      exact he
    · simp [hpid] at hwr
  | _ => simp at hwr

/-- A login's pair is on record. -/
theorem login_onRecord (hr : (machine auth C).traced.Reach (fun _ _ => True)
    (AuthCallee.recorded C cfg users clock callees) P) {i : Nat} {command : LoginCommand}
    (hi : callees i = some (.login command)) {pair : TokenPair}
    (hp : P.pool i = some (.ret (.pair pair))) : ∃ r, OnRecord cfg P.shared.state pair r := by
  obtain ⟨l, hl, hend⟩ := login_established hr hi hp
  obtain ⟨id, u, s, t, hcommitted, -, -, -, -, -, -, hdigest⟩ := hend.session
  have hmem : (Plan.start s t).writes ∈ committedBy P.shared.state.store.log i := by
    rw [hl.committed, hcommitted]
    simp
  have hwrites : (Plan.start s t).writes (.biz (.token t.id)) = some t := by
    simp [Plan.writes]
  obtain ⟨r, hrow, -, hhash⟩ :=
    authRecorded_lodged users clock hr i _ (mem_committedBy hmem) t.id t hwrites
  have hgood := (authRecorded_good C cfg callees users clock).reach closed_auth
    ((machine auth C).forget.reach hr)
  have hid := hgood.inv.2.families.tokenKey _ _ hrow
  refine ⟨r, ?_, hhash.trans hdigest⟩
  rw [hid]
  exact hrow

/-- A refresh's pair is on record, as the successor of the token
presented. -/
theorem refresh_onRecord (hinj : Set.InjOn cfg.sha256 (fingerprints cfg callees))
    (hfaithful : cfg.protector.Faithful)
    (hr : (machine auth C).traced.Reach (fun _ _ => True)
      (AuthCallee.recorded C cfg users clock callees) P) {i : Nat} {hotStore : Bool}
    {command : RefreshCommand} (hi : callees i = some (.refresh hotStore command))
    {pair : TokenPair} (hp : P.pool i = some (.ret (.pair pair))) :
    ∃ t r, OnRecord cfg P.shared.state pair r ∧ Succession P.shared.state t r ∧
      t.tokenHash = cfg.digest command.refreshToken := by
  have hgood := (authRecorded_good C cfg callees users clock).reach closed_auth
    ((machine auth C).forget.reach hr)
  have hend := hgood.result (i := i) (r := .ok (.pair pair)) hp
  obtain ⟨c, hm, hhash, hrestores⟩ := (hend hotStore command hi).1 pair rfl
  obtain ⟨t, r, hhands, hsucc, ht⟩ := hgood.inv.2.successor hinj hi
    (authRecorded_vouches users clock hr) hm hhash hrestores.1
  rw [← hhash] at hrestores
  exact ⟨t, r, ⟨hsucc.new, hhands.restored hfaithful hrestores⟩, hsucc, ht⟩

/-- What clients hold agrees with the tables. -/
structure Lineage (cfg : AuthConfig) (callees : Nat → Option AuthCallee)
    (P : Config (sig auth) Exn (Traced (sig auth) Exn (World auth C)) AuthAnswer) : Prop where
  recorded : ∀ pair, HandedOut P pair → ∃ r, OnRecord cfg P.shared.state pair r
  renewed : ∀ i hotStore command pair, callees i = some (.refresh hotStore command) →
    P.pool i = some (.ret (.pair pair)) → ∃ t r, OnRecord cfg P.shared.state pair r ∧
      Succession P.shared.state t r ∧ t.tokenHash = cfg.digest command.refreshToken
  descended : ∀ pair pair', HandedOut P pair →
    Relation.ReflTransGen (Renews callees P) pair pair' → ∃ r r',
      OnRecord cfg P.shared.state pair r ∧ OnRecord cfg P.shared.state pair' r' ∧
      r'.sessionId = r.sessionId ∧
      Relation.ReflTransGen (Links P.shared.state.store.log) r.id r'.id

/-- **A client's tokens are one line of one session.** Every pair that was
handed out is on record; a refresh hands out the successor of the token
presented, of the same session; and so do any number of them in a row. -/
theorem client_lineage (hinj : Set.InjOn cfg.sha256 (fingerprints cfg callees))
    (hfaithful : cfg.protector.Faithful)
    (hr : (machine auth C).traced.Reach (fun _ _ => True)
      (AuthCallee.recorded C cfg users clock callees) P) : Lineage cfg callees P := by
  have hrecorded : ∀ pair, HandedOut P pair → ∃ r, OnRecord cfg P.shared.state pair r := by
    rintro pair ⟨i, hp⟩
    rcases pair_callee hr hp with ⟨command, hi⟩ | ⟨hotStore, command, hi⟩
    · exact login_onRecord hr hi hp
    · obtain ⟨t, r, hrow, -⟩ := refresh_onRecord hinj hfaithful hr hi hp
      exact ⟨r, hrow⟩
  have hinv := ((authRecorded_good C cfg callees users clock).reach closed_auth
    ((machine auth C).forget.reach hr)).inv.2
  refine ⟨hrecorded, fun i hotStore command pair hi hp =>
    refresh_onRecord hinj hfaithful hr hi hp, fun pair pair' hpair hrenews => ?_⟩
  obtain ⟨r, hrow⟩ := hrecorded pair hpair
  induction hrenews with
  | refl => exact ⟨r, r, hrow, hrow, rfl, .refl⟩
  | tail _ hlast ih =>
    obtain ⟨r₀, r₁, hr₀, hr₁, hsession, hlinks⟩ := ih
    obtain ⟨i, hotStore, command, hi, htoken, hp⟩ := hlast
    obtain ⟨t, r₂, hr₂, hsucc, ht⟩ := refresh_onRecord hinj hfaithful hr hi hp
    -- the token presented is the one handed out before
    have hid : t.id = r₁.id := by
      refine hinv.families.token_unique hsucc.old hr₁.row ?_
      rw [ht, htoken, hr₁.digest]
    have hsame := hsucc.old
    rw [hid, hr₁.row] at hsame
    cases hsame
    exact ⟨r₀, r₂, hr₀, hr₂, hsucc.session.trans hsession, hlinks.tail hsucc.linked⟩

namespace Sample

theorem protector_faithful : protector.Faithful := fun _ _ _ => rfl

/-- The refresh was answered, and so was its retry. -/
structure Renewed
    (P : Config (sig auth) Exn (Traced (sig auth) Exn (World auth codec)) AuthAnswer) :
    Prop where
  run : (machine auth codec).traced.run (fun _ _ => true)
    (AuthCallee.recorded codec authConfig [account] 5 retried)
    (onRecord (loggedIn ++ refreshed ++ replayed)) = some P
  first : P.pool 0 = some (.ret (.pair ⟨"access", "r1", "bearer"⟩))
  retry : P.pool 2 = some (.ret (.pair ⟨"access", "r2", "bearer"⟩))

set_option maxRecDepth 4000 in
theorem exists_renewed : ∃ P, Renewed P := ⟨_, rfl, rfl, rfl⟩

end Sample

theorem client_lineage_retried : ∃ P, Sample.Renewed P ∧ ∃ r r',
    OnRecord Sample.authConfig P.shared.state ⟨"access", "r1", "bearer"⟩ r ∧
    OnRecord Sample.authConfig P.shared.state ⟨"access", "r2", "bearer"⟩ r' ∧
    r'.sessionId = r.sessionId ∧
    Relation.ReflTransGen (Links P.shared.state.store.log) r.id r'.id := by
  obtain ⟨P, h⟩ := Sample.exists_renewed
  have hlineage := client_lineage Sample.sha256_injOn Sample.protector_faithful
    (Machine.reach_of_run _ (fun _ _ _ => trivial) _ _ _ h.run)
  exact ⟨P, h, hlineage.descended _ _ ⟨0, h.first⟩
    (.single ⟨2, false, ⟨"r1", Sample.digest 1⟩, rfl, rfl, h.retry⟩)⟩

end IdentityService
