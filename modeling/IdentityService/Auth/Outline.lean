import IdentityService.Auth.Ledger
import IdentityService.Idempotency.Statements

/-!
# Proof outlines of the authentication use cases

Every transaction of these use cases ends with the write set of one plan,
or with none. Which plan is decided by rows the transaction has locked, so
by the time it commits the plan is still due (`Due`): the locks are
held to the end and the clock only moves forward.

One thing is not locked. A refresh reads the account it issues a token to
without a lock; what becomes of that is kept apart in `Vouched`, which asks
for help from the run (`Guarded`).
-/

namespace IdentityService

open Concurrent

variable {C : ResultCodec} {cfg : AuthConfig} {callees : Nat → Option AuthCallee} {i : Nat}
  {w w' : World auth C} {con : World auth C → World auth C → Prop} {φ : Prop}

/-! ## Repository calls -/

section Repositories

variable {R : Rules auth C} {wr : AuthRows} {gr : List (Sigma (Key.Row (B := auth)))}
  {F : World auth C → Prop}

theorem Failed.stuck {x : Exn} (h : Failed i x w) : Stuck i gr x w := ⟨h.1, .inl h.2.1⟩

theorem select_safe {k : AuthKey} {G : Option k.Row → World auth C → Prop} (hF : Lasting R i F)
    (hG : ∀ v, Lasting R i (G v)) (hwr : wr (.biz k) = none)
    (hgo : ∀ w, R.spec.inv w → F w →
      G (w.store.rows (.biz k)) (w.withStore (w.store.note i (.biz k)))) :
    R.spec.Safe i (AuthOp.select k).run (InTx i wr gr F)
      (Ends (fun v => InTx i wr gr fun w => F w ∧ G v w) (Failed i)) :=
  read_inTx (B := auth) hF hG hwr hgo

theorem selectForUpdate_safe {k : AuthKey} {G : Option k.Row → Prop} (hF : Lasting R i F)
    (hwr : wr (.biz k) = none) (hG : ∀ w, R.spec.inv w → F w → G (w.store.rows (.biz k))) :
    R.spec.Safe i (AuthOp.selectForUpdate k).run (InTx i wr gr F)
      (Ends (fun v w => G v ∧ LockedAs (B := auth) i wr gr F k v w) (Failed i)) :=
  lock_inTx (B := auth) hF hwr hG

theorem clock_safe {G : Time → World auth C → Prop} (hF : Lasting R i F)
    (hG : ∀ t, Lasting R i (G t)) (hgo : ∀ w, R.spec.inv w → F w → G w.clock w) :
    R.spec.Safe i AuthOp.clock.run (InTx i wr gr F)
      (Ends (fun t => InTx i wr gr fun w => F w ∧ G t w) fun _ _ => False) :=
  clock_inTx (B := auth) hF hG hgo

theorem create_safe {k : AuthKey} {row : k.Row} (hF : Lasting R i F) :
    R.spec.Safe i (AuthOp.create k row).run (InTx i wr gr F)
      (Ends (fun _ => InTx i (Function.update wr (.biz k) (some row)) gr
        fun w => F w ∧ Held i (.biz k) none w) (Stuck i gr)) := by
  show R.spec.Safe i (Operation.run (Prog.bind _ _)) _ _
  rw [Operation.run_bind]
  refine (insert_inTx hF).bind (fun added => ?_) fun x w _ h => h.stuck
  cases added with
  | true => exact fun w _ h => h
  | false => exact fun w _ h => ⟨by decide, .inr h.granted⟩

/-- Writing over a row that is already locked: the lock is there, so the
row is. -/
theorem update_safe {k : AuthKey} {old row : k.Row} (hF : Lasting R i F)
    (hheld : ∀ w, F w → Held i (.biz k) (some old) w) (hwr : wr (.biz k) = none) :
    R.spec.Safe i (AuthOp.update k row).run (InTx i wr gr F)
      (Ends (fun _ => InTx i (Function.update wr (.biz k) (some row)) (gr ++ [⟨.biz k, old⟩]) F)
        (Failed i)) := by
  show R.spec.Safe i (Operation.run (Prog.bind _ _)) _ _
  rw [Operation.run_bind]
  have hlock : R.spec.Safe i (AuthOp.selectForUpdate k).run (InTx i wr gr F)
      (Ends (fun v w => v = some old ∧ LockedAs (B := auth) i wr gr F k v w) (Failed i)) :=
    selectForUpdate_safe hF hwr fun w _ hf => (hheld w hf).1
  refine hlock.bind (fun v => ?_) fun x w _ h => h
  refine Spec.Safe.assuming (φ := v = some old) (fun w _ h => h.1) fun hv => ?_
  subst hv
  have hput : R.spec.Safe i (AuthOp.put k row).run (InTx i wr (gr ++ [⟨.biz k, old⟩]) F)
      (Ends (fun _ => InTx i (Function.update wr (.biz k) (some row)) (gr ++ [⟨.biz k, old⟩]) F)
        (Failed i)) :=
    put_inTx (B := auth) hF
  refine hput.pre fun w _ h => ?_
  exact h.2.weaken fun hk => hk.1

theorem draw_safe (x : AuthExt) (hF : Lasting R i F) :
    R.spec.Safe i (AuthOp.draw x).run (InTx i wr gr F)
      (Ends (fun _ => InTx i wr gr F) (Stuck i gr)) :=
  ext_inTx (B := auth) x hF

end Repositories

/-! ## A session by its token -/

section Sessions

variable {gr : List (Sigma (Key.Row (B := auth)))} {F : World auth C → Prop}

/-- What the handlers know once they have found a token and its session:
both rows are locked. -/
structure Bears (i : Nat) (s : AuthSessionRow) (t : RefreshToken)
    (w : World auth C) : Prop where
  token : Held (B := auth) i (.biz (.token t.id)) (some t) w
  session : Held (B := auth) i (.biz (.session s.id)) (some s) w

theorem lasting_bears {R : Rules auth C} (s : AuthSessionRow) (t : RefreshToken) :
    Lasting R i (Bears i s t) := by
  have ht : Lasting R i (Held (B := auth) i (.biz (.token t.id)) (some t)) := lasting_held _ _
  have hs : Lasting R i (Held (B := auth) i (.biz (.session s.id)) (some s)) := lasting_held _ _
  refine ⟨fun w w' hw hw' hc hg hr h => ⟨?_, ?_⟩, fun w w' hc ho h => ⟨?_, ?_⟩⟩
  · exact ht.stable w w' hw hw' hc hg hr h.token
  · exact hs.stable w w' hw hw' hc hg hr h.session
  · exact ht.own w w' hc ho h.token
  · exact hs.own w w' hc ho h.session

/-- The rows locked on the way to a session. -/
def lockedRows (s : AuthSessionRow) (t : RefreshToken) : List (Sigma (Key.Row (B := auth))) :=
  [⟨.biz (.token t.id), t⟩, ⟨.biz (.session s.id), s⟩]

/-- A lookup by token hash: nothing, or a session with that token. -/
def Found (i : Nat) (d : Digest) (gr : List (Sigma (Key.Row (B := auth))))
    (F : World auth C → Prop) : Option AuthSession → World auth C → Prop
  | none => InTx i noWrites gr F
  | some a => fun w => ∃ st : AuthSessionRow × RefreshToken,
      (a = st.1.bearing st.2 ∧ Belongs st.1 st.2 ∧ st.2.tokenHash = d) ∧
        InTx i noWrites (gr ++ lockedRows st.1 st.2) (fun w => F w ∧ Bears i st.1 st.2 w) w

theorem getByHashForUpdate_safe {d : Digest}
    (hF : Lasting (authRules cfg callees con φ) i F) :
    (authRules cfg callees con φ).spec.Safe i
      (RefreshTokenRepository.getByHashForUpdate d).run (InTx i noWrites gr F)
      (Ends (fun o w => match o with
        | none => InTx i noWrites gr F w
        | some t => t.tokenHash = d ∧ InTx i noWrites (gr ++ [⟨.biz (.token t.id), t⟩])
            (fun w => F w ∧ Held (B := auth) i (.biz (.token t.id)) (some t) w) w) (Failed i)) := by
  -- a hash that was once assigned stays assigned
  let G : Option Uuid → World auth C → Prop := fun v w =>
    ∀ id, v = some id → (AuthTables.of w.store.rows).hashes d = some id
  have hG : ∀ v, Lasting (authRules cfg callees con φ) i (G v) := by
    intro v
    refine ⟨fun w w' _ _ _ hg _ h id hv => hg.continues.hash d id (h id hv), ?_⟩
    intro w w' _ ho h id hv
    rw [ho.rows]
    exact h id hv
  show (authRules cfg callees con φ).spec.Safe i (Operation.run (Prog.bind _ _)) _ _
  rw [Operation.run_bind]
  refine (select_safe (k := .tokenHash d) hF hG rfl fun w _ _ id hv => hv).bind (fun v => ?_)
    fun x w _ h => h
  cases v with
  | none => exact fun w _ h => h.weaken fun hk => hk.1
  | some id =>
      show (authRules cfg callees con φ).spec.Safe i (Operation.run (Prog.bind _ _)) _ _
      rw [Operation.run_bind]
      let K : Option RefreshToken → Prop := fun v =>
        ∃ t, v = some t ∧ t.id = id ∧ t.tokenHash = d ∧ t.validate = .ok t
      have hlock : ∀ w, (authRules cfg callees con φ).spec.inv w → F w ∧ G (some id) w →
          K (w.store.rows (.biz (.token id))) := by
        intro w hw hk
        obtain ⟨t, ht, hd⟩ := hw.2.families.index d id (hk.2 id rfl)
        have hid := hw.2.families.tokenKey id t ht
        refine ⟨t, ht, hid, hd, RefreshToken.validate_ok fun u hu => ?_⟩
        exact hw.2.families.tokenSpan id t u ht hu
      refine (selectForUpdate_safe (k := .token id) (hF.and (hG _)) rfl hlock).bind (fun v => ?_)
        fun x w _ h => h
      refine Spec.Safe.assuming (φ := K v) (fun w _ h => h.1) fun hK => ?_
      obtain ⟨t, rfl, rfl, hd, hvalid⟩ := hK
      show (authRules cfg callees con φ).spec.Safe i
        (Operation.run (Prog.bind (Prog.ofExcept (loaded t.validate)) _)) _ _
      rw [hvalid]
      exact fun w _ h => ⟨hd, h.2.weaken fun hk => ⟨hk.1.1, hk.2⟩⟩

theorem getByRefreshHashForUpdate_safe {d : Digest}
    (hF : Lasting (authRules cfg callees con φ) i F) :
    (authRules cfg callees con φ).spec.Safe i
      (AuthSessionRepository.getByRefreshHashForUpdate d).run (InTx i noWrites gr F)
      (Ends (Found i d gr F) (Failed i)) := by
  show (authRules cfg callees con φ).spec.Safe i (Operation.run (Prog.bind _ _)) _ _
  rw [Operation.run_bind]
  refine (getByHashForUpdate_safe hF).bind (fun o => ?_) fun x w _ h => h
  cases o with
  | none => exact fun w _ h => h
  | some t =>
      show (authRules cfg callees con φ).spec.Safe i (Operation.run (Prog.bind _ _)) _ _
      rw [Operation.run_bind]
      refine Spec.Safe.assuming (φ := t.tokenHash = d) (fun w _ h => h.1) fun hd => ?_
      have hheld : Lasting (authRules cfg callees con φ) i
          (Held (B := auth) i (.biz (.token t.id)) (some t)) := lasting_held _ _
      -- the token is locked, so its session cannot go away
      let K : Option AuthSessionRow → Prop := fun v =>
        ∃ s, v = some s ∧ s.id = t.sessionId ∧ Belongs s t
      have hlock : ∀ w, (authRules cfg callees con φ).spec.inv w →
          F w ∧ Held (B := auth) i (.biz (.token t.id)) (some t) w →
          K (w.store.rows (.biz (.session t.sessionId))) := by
        intro w hw hk
        have hfam := hw.2.families
        have ht : (AuthTables.of w.store.rows).tokens t.id = some t := hk.2.1
        obtain ⟨s, hs, hage⟩ := hfam.owner t.id t ht
        have hid := hfam.sessionKey _ s hs
        refine ⟨s, hs, hid, ?_⟩
        exact ⟨hfam.sessionSpan _ s hs, fun r => hfam.sessionEnd _ s r hs, hid.symm, hage,
          fun u => hfam.tokenSpan t.id t u ht⟩
      refine ((selectForUpdate_safe (k := .session t.sessionId) (hF.and hheld) rfl hlock).pre
        fun w _ h => h.2).bind (fun v => ?_) fun x w _ h => h
      refine Spec.Safe.assuming (φ := K v) (fun w _ h => h.1) fun hK => ?_
      obtain ⟨s, rfl, hid, hb⟩ := hK
      show (authRules cfg callees con φ).spec.Safe i
        (Operation.run (Prog.bind (Prog.ofExcept (s.withToken t)) _)) _ _
      rw [hb.withToken]
      obtain ⟨tokenId, sessionId, tokenHash, createdAt, usedAt⟩ := t
      obtain rfl : s.id = sessionId := hid
      intro w _ h
      have htx := h.2
      refine ⟨(s, _), ⟨rfl, hb, hd⟩, htx.staged, ?_, htx.known.1.1, htx.known.1.2, htx.known.2⟩
      rw [htx.granted, List.append_assoc]
      rfl

end Sessions

/-! ## Plans that are due -/

/-- No step disables an account while a refresh has an open transaction
that has read it. -/
def Guarded (callees : Nat → Option AuthCallee) (w w' : World auth C) : Prop :=
  ∀ i hotStore command id u u', callees i = some (.refresh hotStore command) →
    w.store.seen i (.biz (.user id)) = true →
    (AuthTables.of w.store.rows).users id = some u → u.status = .active →
    (AuthTables.of w'.store.rows).users id = some u' → u'.status = .active

/-- Why the account is active when the token is issued: its row is locked,
or else a refresh has read it and the run is guarded. -/
def Vouched (callees : Nat → Option AuthCallee) (i : Nat) (id : Uuid) (w : World auth C) : Prop :=
  (∃ u, (AuthTables.of w.store.rows).users id = some u ∧ u.status = .active) ∧
    (w.store.holder (.biz (.user id)) = some i ∨
      (∃ hotStore command, callees i = some (.refresh hotStore command)) ∧
        w.store.seen i (.biz (.user id)) = true)

theorem Vouched.own {id : Uuid} (h : Vouched callees i id w) (ho : Own i w w') :
    Vouched callees i id w' := by
  refine ⟨by rw [ho.rows]; exact h.1, ?_⟩
  exact h.2.imp (ho.holder _) fun hseen => ⟨hseen.1, ho.seen _ hseen.2⟩

theorem lasting_vouched (hφ : φ → ∀ w w', con w w' → Guarded callees w w') (id : Uuid) :
    Lasting (authRules cfg callees con φ) i fun w => φ → Vouched callees i id w := by
  refine ⟨fun w w' _ _ hc hg ho h hp => ?_, fun w w' _ ho h hp => (h hp).own ho⟩
  obtain ⟨⟨u, hu, hactive⟩, hwhy⟩ := h hp
  rcases hwhy with hheld | ⟨⟨hotStore, command, hi⟩, hseen⟩
  · refine ⟨⟨u, ?_, hactive⟩, .inl ((ho.keeps.holder _).mpr hheld)⟩
    exact (ho.keeps.rows _ hheld).trans hu
  · obtain ⟨u', hu', -⟩ := hg.continues.user id u hu
    refine ⟨⟨u', hu', hφ hp w w' hc i hotStore command id u u' hi hseen hu hactive hu'⟩, ?_⟩
    refine .inr ⟨⟨hotStore, command, hi⟩, ?_⟩
    rw [ho.keeps.seen]
    exact hseen

/-- The plan can be carried out: it is enabled, and nobody else can change
that. -/
structure Due (callees : Nat → Option AuthCallee) (φ : Prop) (i : Nat) (p : Plan)
    (w : World auth C) : Prop where
  enabled : p.Enabled (.of w.store.rows) w.clock
  held : ∀ k ∈ p.keys, w.store.holder (.biz k) = some i
  vouched : ∀ id, p.issuesTo = some id → φ → Vouched callees i id w

theorem Due.own {p : Plan} (h : Due callees φ i p w) (ho : Own i w w') : Due callees φ i p w' := by
  refine ⟨?_, fun k hk => ho.holder _ (h.held k hk), fun id hid hp => (h.vouched id hid hp).own ho⟩
  rw [ho.rows, ho.clock]
  exact h.enabled

theorem lasting_due (hφ : φ → ∀ w w', con w w' → Guarded callees w w') (p : Plan) :
    Lasting (authRules cfg callees con φ) i (Due callees φ i p) := by
  refine ⟨fun w w' hw hw' hc hg ho h => ⟨?_, ?_, ?_⟩, fun w w' _ ho h => h.own ho⟩
  · exact h.enabled.of_keys (fun k hk => ho.keeps.rows _ (h.held k hk)) hg.clock
  · exact fun k hk => (ho.keeps.holder _).mpr (h.held k hk)
  · intro id hid
    exact (lasting_vouched hφ id).stable w w' hw hw' hc hg ho (h.vouched id hid)

theorem Due.active {p : Plan} (h : Due callees φ i p w) :
    φ → ∀ id u, p.issuesTo = some id → (AuthTables.of w.store.rows).users id = some u →
      u.status = .active := by
  intro hp id u hid hu
  obtain ⟨⟨u', hu', hactive⟩, -⟩ := h.vouched id hid hp
  rw [hu] at hu'
  cases hu'
  exact hactive

/-! ## Writing a plan -/

section Save

variable {R : Rules auth C} {gr : List (Sigma (Key.Row (B := auth)))} {F : World auth C → Prop}
  {s : AuthSessionRow} {t r : RefreshToken} {now expires : Time}

/-- The rows locked once more when a session is saved. -/
def savedRows (s : AuthSessionRow) (t : RefreshToken) : List (Sigma (Key.Row (B := auth))) :=
  [⟨.biz (.session s.id), s⟩] ++ [⟨.biz (.token t.id), t⟩]

theorem createToken_safe {wr : AuthRows} (hF : Lasting R i F) :
    R.spec.Safe i (RefreshTokenRepository.create r).run (InTx i wr gr F)
      (Ends (fun _ => InTx i (Function.update (Function.update wr (.biz (.token r.id)) (some r))
          (.biz (.tokenHash r.tokenHash)) (some r.id)) gr fun w =>
          (F w ∧ Held (B := auth) i (.biz (.token r.id)) none w) ∧
            Held (B := auth) i (.biz (.tokenHash r.tokenHash)) none w) (Stuck i gr)) := by
  show R.spec.Safe i (Operation.run (Prog.bind _ _)) _ _
  rw [Operation.run_bind]
  refine (create_safe hF).bind (fun _ => ?_) fun x w _ h => h
  exact create_safe (hF.and (lasting_held _ _))

theorem createSession_safe (hF : Lasting R i F) :
    R.spec.Safe i (AuthSessionRepository.create (s.bearing t)).run (InTx i noWrites gr F)
      (Ends (fun _ => InTx i (Plan.start s t).writes gr fun w =>
          ((F w ∧ Held (B := auth) i (.biz (.session s.id)) none w) ∧
            Held (B := auth) i (.biz (.token t.id)) none w) ∧
            Held (B := auth) i (.biz (.tokenHash t.tokenHash)) none w) (Stuck i gr)) := by
  show R.spec.Safe i (Operation.run (Prog.bind _ _)) _ _
  rw [Operation.run_bind]
  refine (create_safe (k := .session s.id) hF).bind (fun _ => ?_) fun x w _ h => h
  exact createToken_safe (hF.and (lasting_held _ _))

/-- The two rows every save writes: the session, then the token. -/
theorem saveRows_safe (s' : AuthSessionRow) (t' : RefreshToken) (rest : AuthOp Unit)
    {A : World auth C → Prop} {E : Exn → World auth C → Prop} (hF : Lasting R i F)
    (hb : ∀ w, F w → Bears i s t w) (hs : s'.id = s.id) (ht : t'.id = t.id)
    (hE : ∀ x w, Failed i x w → E x w)
    (hrest : R.spec.Safe i rest.run (InTx i (Function.update (Function.update noWrites
      (.biz (.session s.id)) (some s')) (.biz (.token t.id)) (some t')) (gr ++ savedRows s t) F)
      (Ends (fun _ => A) E)) :
    R.spec.Safe i (Operation.run ((AuthOp.update (.session s'.id) s').bind fun _ =>
        (RefreshTokenRepository.update t').bind fun _ => rest)) (InTx i noWrites gr F)
      (Ends (fun _ => A) E) := by
  rw [Operation.run_bind, hs]
  refine (update_safe hF (fun w hw => (hb w hw).session) rfl).bind (fun _ => ?_)
    fun x w _ h => hE x w h
  rw [Operation.run_bind, RefreshTokenRepository.update, ht]
  refine (update_safe hF (fun w hw => (hb w hw).token) ?_).bind (fun _ => ?_)
    fun x w _ h => hE x w h
  · simp [noWrites]
  · refine hrest.pre fun w _ h => ?_
    have hgr := h.granted
    rw [List.append_assoc] at hgr
    exact ⟨h.staged, hgr, h.known⟩

theorem saveRevoked_safe (hF : Lasting R i F) (hb : ∀ w, F w → Bears i s t w) :
    R.spec.Safe i (AuthSessionRepository.save ((s.revoked now).bearing t)).run
      (InTx i noWrites gr F)
      (Ends (fun _ => InTx i (Plan.revoke s t now).writes (gr ++ savedRows s t) F) (Failed i)) := by
  refine saveRows_safe (s.revoked now) t (.ret ()) hF hb rfl rfl (fun _ _ h => h) ?_
  exact fun w _ h => h

theorem saveRotated_safe (hF : Lasting R i F) (hb : ∀ w, F w → Bears i s t w) :
    R.spec.Safe i (AuthSessionRepository.save (s.rotated t r now expires)).run
      (InTx i noWrites gr F)
      (Ends (fun _ => InTx i (Plan.rotate s t r now expires).writes (gr ++ savedRows s t) fun w =>
          (F w ∧ Held (B := auth) i (.biz (.token r.id)) none w) ∧
            Held (B := auth) i (.biz (.tokenHash r.tokenHash)) none w)
        (Stuck i (gr ++ savedRows s t))) := by
  refine saveRows_safe (s.extended expires) (t.used now) (RefreshTokenRepository.create r) hF hb
    rfl rfl (fun _ _ h => h.stuck) ?_
  exact createToken_safe hF

end Save

/-! ## Transactions of their own -/

/-- What a body leaves for the commit: nothing, or one plan. -/
def Pending (callees : Nat → Option AuthCallee) (φ : Prop) (i : Nat) (w : World auth C) : Prop :=
  w.store.staged i = noWrites ∨
    ∃ p gr, InTx i (Plan.writes p) gr (Due callees φ i p) w

theorem owes_pending (f : Fate Fault) (hw : (authRules cfg callees con φ).spec.inv w)
    (h : Pending callees φ i w) (hc : con w ((w.settle i f).withStore (w.store.commit i))) :
    (authRules cfg callees con φ).spec.Owes i w
      ((w.settle i f).withStore (w.store.commit i)) := by
  rcases h with h | ⟨p, gr, h⟩
  · exact Rules.owes_private hw hc (Quiet.commit f hw.1 h).toPrivate
  · refine owes_plan f hw h.known.enabled h.staged (fun _ => rfl) ?_ h.known.active
    intro identity r hr
    rw [Plan.writes_record] at hr
    cases hr

theorem transaction_safe {α : Type} {body : App auth α}
    (hbody : ∀ gr, (authRules cfg callees con φ).spec.Safe i body
      (InTx i noWrites gr fun _ => True)
      (Ends (fun _ => Pending callees φ i) fun _ _ => True)) :
    (authRules cfg callees con φ).spec.Safe i (uow body) (Idle i)
      (Ends (fun _ => Idle i) fun _ => Idle i) := by
  have hstart := Spec.Safe.exists hbody
  have huow := Rules.uow_safe (D := fun _ _ => True) (E := fun _ => True) hstart
    (fun _ => .const True) (.const True) (fun _ => .const True) (fun _ _ _ _ => trivial)
    (fun _ _ _ => trivial) (fun _ _ _ => trivial) (fun _ _ _ => trivial) (fun _ _ _ => trivial)
    fun a w f hw h hc => ⟨owes_pending f hw h hc, trivial⟩
  refine (huow.pre fun w _ h => ⟨_, h.staged, rfl, trivial⟩).post ?_
  intro r w _ h
  cases r with
  | ok a => exact h.1
  | error x => exact h.1

section Handlers

variable {gr : List (Sigma (Key.Row (B := auth)))}

theorem lasting_true {R : Rules auth C} : Lasting R i fun _ => True := .const True

theorem getByEmail_safe (email : String) :
    (authRules cfg callees con φ).spec.Safe i (UserRepository.getByEmail email).run
      (InTx i noWrites gr fun _ => True)
      (Ends (fun _ => Pending callees φ i) fun _ _ => True) := by
  show (authRules cfg callees con φ).spec.Safe i (Operation.run (Prog.bind _ _)) _ _
  rw [Operation.run_bind]
  refine (select_safe (k := .userEmail email) lasting_true (fun _ => lasting_true) rfl
    fun _ _ _ => trivial).bind (fun v => ?_) fun _ _ _ _ => trivial
  cases v with
  | none => exact fun w _ h => .inl h.staged
  | some id =>
      refine (select_safe (k := .user id) (lasting_true.and lasting_true) (fun _ => lasting_true)
        rfl fun _ _ _ => trivial).post fun r w _ h => ?_
      cases r with
      | ok a => exact .inl h.staged
      | error x => trivial

/-- Issuing touches no row. -/
theorem issueTokenPair_safe {R : Rules auth C} {wr : AuthRows} {F : World auth C → Prop}
    (hF : Lasting R i F) (user : User) (now : Time) :
    R.spec.Safe i (issueTokenPair cfg user now).run (InTx i wr gr F)
      (Ends (fun _ => InTx i wr gr F) (Stuck i gr)) := by
  show R.spec.Safe i (Operation.run (Prog.bind _ _)) _ _
  rw [Operation.run_bind]
  refine (draw_safe (.accessToken user.id user.role now) hF).bind (fun access => ?_)
    fun x w _ h => h
  show R.spec.Safe i (Operation.run (Prog.bind _ _)) _ _
  rw [Operation.run_bind]
  refine (draw_safe .refreshToken hF).bind (fun refresh => ?_) fun x w _ h => h
  exact fun w _ h => h

/-- The instant a handler has read is not in the future. -/
theorem lasting_past (now : Time) :
    Lasting (authRules cfg callees con φ) i fun w => now ≤ w.clock := by
  refine ⟨fun w w' _ _ _ hg _ h => Nat.le_trans h hg.clock, fun w w' _ ho h => ?_⟩
  rw [ho.clock]
  exact h

theorem due_start {s : AuthSessionRow} {t : RefreshToken} {u : User}
    (hactive : u.status = .active) (huser : s.userId = u.id) (hfits : t.sessionId = s.id)
    (hage : s.createdAt ≤ t.createdAt) (hspan : s.createdAt < s.idleExpiresAt)
    (hrevoked : s.revokedAt = none) (hused : t.usedAt = none)
    (hheld : Held (B := auth) i (.biz (.user u.id)) (some u) w) (hpast : s.createdAt ≤ w.clock)
    (hs : Held (B := auth) i (.biz (.session s.id)) none w)
    (ht : Held (B := auth) i (.biz (.token t.id)) none w)
    (hd : Held (B := auth) i (.biz (.tokenHash t.tokenHash)) none w) :
    Due callees φ i (.start s t) w := by
  refine ⟨.start hs.1 ht.1 hd.1 hfits hage hspan hrevoked hused hpast, ?_, ?_⟩
  · intro k hk
    simp only [Plan.keys, List.mem_cons, List.not_mem_nil, or_false] at hk
    rcases hk with rfl | rfl | rfl
    · exact hs.2
    · exact ht.2
    · exact hd.2
  · intro id hid _
    obtain rfl : u.id = id := huser.symm.trans (Option.some.inj hid)
    exact ⟨⟨u, hheld.1, hactive⟩, .inl hheld.2⟩

theorem Held.user {id : Uuid} {u : User} (h : Held (B := auth) i (.biz (.user id)) (some u) w)
    (hid : u.id = id) : Held (B := auth) i (.biz (.user u.id)) (some u) w := by
  subst hid
  exact h

theorem startSession_safe (candidateId : Uuid) (passwordHash : String) :
    (authRules cfg callees con φ).spec.Safe i (startSession cfg candidateId passwordHash).run
      (InTx i noWrites gr fun _ => True)
      (Ends (fun _ => Pending callees φ i) fun _ _ => True) := by
  show (authRules cfg callees con φ).spec.Safe i (Operation.run (Prog.bind _ _)) _ _
  rw [Operation.run_bind]
  have hkey : ∀ w, (authRules cfg callees con φ).spec.inv w → True →
      ∀ u, w.store.rows (.biz (.user candidateId)) = some u → u.id = candidateId :=
    fun w hw _ u hu => hw.2.families.userKey candidateId u hu
  refine (selectForUpdate_safe (k := .user candidateId)
    (G := fun v => ∀ u, v = some u → u.id = candidateId) lasting_true rfl hkey).bind
    (fun v => ?_) fun _ _ _ _ => trivial
  cases v with
  | none => exact fun w _ _ => trivial
  | some user =>
      refine Spec.Safe.assuming (φ := user.id = candidateId) (fun w _ h => h.1 user rfl)
        fun hid => ?_
      show (authRules cfg callees con φ).spec.Safe i (Operation.run (if _ then _ else _)) _ _
      by_cases hok : (!user.canAuthenticate || user.passwordHash ≠ passwordHash) = true
      · rw [if_pos hok]
        exact fun w _ _ => trivial
      rw [if_neg hok]
      have hactive : user.status = .active := by
        simp [User.canAuthenticate] at hok
        exact hok.1
      have huser : Lasting (authRules cfg callees con φ) i fun w =>
          True ∧ Held (B := auth) i (.biz (.user candidateId)) (some user) w :=
        lasting_true.and (lasting_held _ _)
      show (authRules cfg callees con φ).spec.Safe i (Operation.run (Prog.bind _ _)) _ _
      rw [Operation.run_bind]
      refine ((clock_safe huser lasting_past fun w _ _ => Nat.le_refl _).pre
        fun w _ h => h.2).bind (fun now => ?_) fun _ _ _ h => h.elim
      have hnow : Lasting (authRules cfg callees con φ) i fun w =>
          (True ∧ Held (B := auth) i (.biz (.user candidateId)) (some user) w) ∧ now ≤ w.clock :=
        huser.and (lasting_past now)
      show (authRules cfg callees con φ).spec.Safe i (Operation.run (Prog.bind _ _)) _ _
      rw [Operation.run_bind]
      refine (issueTokenPair_safe hnow user now).bind (fun issued => ?_) fun _ _ _ _ => trivial
      show (authRules cfg callees con φ).spec.Safe i (Operation.run (Prog.bind _ _)) _ _
      rw [Operation.run_bind]
      refine (draw_safe .uuid7 hnow).bind (fun sessionId => ?_) fun _ _ _ _ => trivial
      show (authRules cfg callees con φ).spec.Safe i (Operation.run (Prog.bind _ _)) _ _
      rw [Operation.run_bind]
      refine (draw_safe .uuid7 hnow).bind (fun tokenId => ?_) fun _ _ _ _ => trivial
      show (authRules cfg callees con φ).spec.Safe i (Operation.run (Prog.bind _ _)) _ _
      cases hstart : AuthSession.start sessionId tokenId user.id issued.refreshDigest now
          cfg.sessionIdleTtl with
      | error x => exact fun w _ _ => trivial
      | ok session =>
          obtain ⟨hspan, rfl⟩ := start_ok hstart
          show (authRules cfg callees con φ).spec.Safe i
            (Operation.run ((AuthSessionRepository.create _).bind _)) _ _
          rw [Operation.run_bind]
          refine (createSession_safe hnow).bind (fun _ => ?_) fun _ _ _ _ => trivial
          intro w _ h
          obtain ⟨⟨⟨⟨⟨-, hheld⟩, hpast⟩, hs⟩, ht⟩, hd⟩ := h.known
          exact .inr ⟨_, _, h.staged, h.granted, due_start hactive rfl rfl (Nat.le_refl _) hspan
            rfl rfl (hheld.user hid) hpast hs ht hd⟩

theorem login_safe (command : LoginCommand) :
    (authRules cfg callees con φ).spec.Safe i (loginExecute cfg command) (Idle i)
      (Ends (fun _ => Idle i) fun _ => Idle i) := by
  refine (transaction_safe fun gr => getByEmail_safe command.email).bind (fun candidate => ?_)
    fun _ _ _ h => h
  have hverify : ∀ passwordHash, (authRules cfg callees con φ).spec.Safe i
      (verifyOrDummy command.password passwordHash) (Idle i)
      (Ends (fun _ => Idle i) fun _ => Idle i) := by
    intro passwordHash
    cases passwordHash with
    | none =>
        refine (ext_safe (B := auth) (.hash command.password) Rules.stable_idle).bind
          (fun _ => ?_) fun _ _ _ h => h.2
        exact fun w _ h => h
    | some passwordHash =>
        refine (ext_safe (B := auth) (.verify command.password passwordHash)
          Rules.stable_idle).post fun r w _ h => ?_
        cases r with
        | ok a => exact h
        | error x => exact h.2
  refine (hverify _).bind (fun verified => ?_) fun _ _ _ h => h
  split
  · exact transaction_safe fun gr => startSession_safe _ _
  · exact fun w _ h => h

theorem due_revoke {s : AuthSessionRow} {t : RefreshToken} {now : Time} (hb : Bears i s t w)
    (hage : s.createdAt ≤ now) : Due callees φ i (.revoke s t now) w := by
  refine ⟨.revoke hb.session.1 hb.token.1 hage, ?_, ?_⟩
  · intro k hk
    simp only [Plan.keys, List.mem_cons, List.not_mem_nil, or_false] at hk
    rcases hk with rfl | rfl
    · exact hb.session.2
    · exact hb.token.2
  · intro id hid
    cases hid

theorem logout_safe (command : LogoutCommand) :
    (authRules cfg callees con φ).spec.Safe i (logoutExecute cfg command) (Idle i)
      (Ends (fun _ => Idle i) fun _ => Idle i) := by
  unfold logoutExecute
  split
  · exact fun w _ h => h
  · rename_i token
    refine transaction_safe fun gr => ?_
    refine (getByRefreshHashForUpdate_safe lasting_true).bind (fun o => ?_) fun _ _ _ _ => trivial
    cases o with
    | none => exact fun w _ h => .inl h.staged
    | some a =>
        refine Spec.Safe.exists fun st => ?_
        obtain ⟨s, t⟩ := st
        refine Spec.Safe.assuming (fun w _ h => h.1) fun hst => ?_
        obtain ⟨rfl, hb, -⟩ := hst
        have hF := (lasting_true (i := i) (R := authRules cfg callees con φ)).and
          (lasting_bears s t)
        -- the session began before now
        have hage : ∀ now : Time, Lasting (authRules cfg callees con φ) i fun _ =>
            s.createdAt ≤ now := fun now => .const _
        refine ((now_inTx hF hage ?_).pre fun w _ h => h.2).bind (fun now => ?_)
          fun _ _ _ h => h.elim
        · intro w hw hk
          exact hw.2.families.sessionPast s.id s hk.2.session.1
        · refine Spec.Safe.assuming (φ := s.createdAt ≤ now) (fun w _ h => h.known.2) fun hnow => ?_
          show (authRules cfg callees con φ).spec.Safe i
            (Prog.bind (Prog.ofExcept ((s.bearing t).revoke now)) _) _ _
          rw [hb.revoke hnow]
          refine (saveRevoked_safe (hF.and (hage now)) fun w hw => hw.1.2).post fun r w _ h => ?_
          cases r with
          | ok a => exact .inr ⟨_, _, h.weaken fun hk => due_revoke hk.1.2 hnow⟩
          | error x => trivial

theorem disable_safe (userId : Uuid) :
    (authRules cfg callees con φ).spec.Safe i (disableUser userId) (Idle i)
      (Ends (fun _ => Idle i) fun _ => Idle i) := by
  refine transaction_safe fun gr => ?_
  have hkey : ∀ w, (authRules cfg callees con φ).spec.inv w → True →
      ∀ u, w.store.rows (.biz (.user userId)) = some u → u.id = userId :=
    fun w hw _ u hu => hw.2.families.userKey userId u hu
  refine (selectForUpdate_safe (k := .user userId)
    (G := fun v => ∀ u, v = some u → u.id = userId) lasting_true rfl hkey).bind
    (fun v => ?_) fun _ _ _ _ => trivial
  cases v with
  | none => exact fun w _ h => .inl h.2.staged
  | some user =>
      refine Spec.Safe.assuming (φ := user.id = userId) (fun w _ h => h.1 user rfl) fun hid => ?_
      have huser : Lasting (authRules cfg callees con φ) i fun w =>
          True ∧ Held (B := auth) i (.biz (.user userId)) (some user) w :=
        lasting_true.and (lasting_held _ _)
      refine ((now_inTx huser (fun _ => lasting_true) fun _ _ _ => trivial).pre
        fun w _ h => h.2).bind (fun now => ?_) fun _ _ _ h => h.elim
      show (authRules cfg callees con φ).spec.Safe i
        (Prog.bind (Prog.ofExcept (User.disable user now)) _) _ _
      cases hoff : User.disable user now with
      | error x => exact fun w _ _ => trivial
      | ok user' =>
          obtain ⟨hsame, hdisabled⟩ := disable_ok hoff
          have hheld : ∀ w : World auth C,
              (True ∧ Held (B := auth) i (.biz (.user userId)) (some user) w) ∧ True →
              Held (B := auth) i (.biz (.user user'.id)) (some user) w := by
            intro w hw
            rw [hsame]
            exact hw.1.2.user hid
          refine (update_safe (huser.and lasting_true) hheld rfl).post fun r w _ h => ?_
          cases r with
          | error x => trivial
          | ok a =>
              have huser := h.known.1.2.user hid
              refine .inr ⟨.disable user user', _, h.staged, h.granted, ?_, ?_, ?_⟩
              · exact .disable huser.1 hsame hdisabled
              · intro k hk
                simp only [Plan.keys, List.mem_singleton] at hk
                subst hk
                exact huser.2
              · intro id hid
                cases hid

end Handlers

end IdentityService
