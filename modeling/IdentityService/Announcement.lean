import IdentityService.Concurrent.Coupling
import IdentityService.Outbox.Publisher
import IdentityService.Registration.ProfileFirst

/-!
# From an account to its record in Kafka

The registration system and the relay are separate processes that meet in
the outbox table: `_finalize` inserts a row in the transaction that creates
the account, the relay claims it and hands it to the broker. Each has been
modelled with the other as its outside. Here they run together, with the
Profile service on one end and the broker on the other.

An account has one event; the event waits in the outbox, is in the broker's
log, or was given up. And whatever is in the log is the event of an account
that exists, whose profile had been accepted before.
-/

namespace IdentityService

open Concurrent

/-! ## What registration does to the outbox -/

/-- The row an event becomes. -/
def UserRegisteredEvent.row (fmt : EventFormat) (e : UserRegisteredEvent) : OutboxMessage :=
  (e.integration fmt).row fmt.topic

/-- What a step of the registration system makes of accounts, events and
outbox: nothing, or an account and its event in a new row. -/
inductive Announces (fmt : EventFormat) (db db' : RegistrationDb) : Prop where
  | quiet (outbox : db'.outbox = db.outbox) (registered : db'.registered = db.registered)
      (users : db'.users = db.users)
  | account {user : User} {event : UserRegisteredEvent}
      (outbox : Outbox.publish db.outbox fmt.topic (event.integration fmt) = .ok db'.outbox)
      (registered : db'.registered = db.registered ++ [event])
      (users : db'.users = db.users ++ [user]) (id : event.userId = user.id)
      (createdAt : event.registeredAt = user.createdAt)

theorem RegistrationTx.finalizeBody_announces {fmt : EventFormat} {db db' : RegistrationDb}
    {operationId ownerToken : Uuid} {completedAt : Time} {user a : User}
    {eventId correlationId : Uuid}
    (h : finalizeBody fmt db operationId ownerToken completedAt user eventId correlationId =
      .ok (a, db')) : Announces fmt db db' := by
  simp only [finalizeBody, bind_eq_ok] at h
  obtain ⟨⟨completed, operations⟩, -, h⟩ := h
  cases completed with
  | false => cases h
  | true =>
    simp only [Bool.not_true, Bool.false_eq_true, if_false, bind_eq_ok] at h
    obtain ⟨⟨created, users⟩, hcreated, h⟩ := h
    cases created with
    | none => cases h
    | some u =>
      simp only [bind_eq_ok] at h
      obtain ⟨outbox, hpublish, h⟩ := h
      have husers : users = db.users ++ [u] := by
        simp only [Users.createIfAbsent] at hcreated
        split at hcreated
        · cases hcreated
        · split at hcreated
          · cases hcreated
          · cases hcreated
            rfl
      cases h
      exact .account hpublish rfl husers rfl rfl

theorem RegistrationTx.body_announces {fmt : EventFormat} {locked : Uuid → Bool}
    {db db' : RegistrationDb} {t : RegistrationTx} {a : t.Resp}
    (h : t.body fmt locked db = .ok (a, db')) : Announces fmt db db' := by
  cases t with
  | finalize operationId ownerToken completedAt user eventId correlationId =>
    exact finalizeBody_announces h
  | getUserByEmail email =>
    cases h
    exact .quiet rfl rfl rfl
  | getUser userId =>
    cases h
    exact .quiet rfl rfl rfl
  | commit =>
    cases h
    exact .quiet rfl rfl rfl
  | getByKeyHash | tryCreate | claimByKeyHash | claimBatch | scheduleRetry | block
  | redriveBlocked =>
    simp only [body, bind_eq_ok] at h
    obtain ⟨out, -, h⟩ := h
    cases h
    exact .quiet rfl rfl rfl

theorem exec_announces {cfg : RegistrationConfig} {i : Nat} {e : RegistrationEff}
    {c : RegistrationChoice} {w w' : RegistrationWorld} {r : Except Exn e.Resp}
    (h : RegistrationWorld.exec cfg i e c w = some (r, w')) :
    Announces cfg.format w.db w'.db := by
  cases e with
  | tx t =>
    rcases exec_tx h with ⟨locked, a, db, hb, -, rfl⟩ | ⟨locked, a, db, x, hb, -, -, rfl⟩ |
      ⟨locked, x, -, -, rfl⟩ | ⟨locked, x, y, -, -, -, rfl⟩ | ⟨x, -, -, rfl⟩
    · exact RegistrationTx.body_announces hb
    · exact RegistrationTx.body_announces hb
    · exact .quiet rfl rfl rfl
    · exact .quiet rfl rfl rfl
    · exact .quiet rfl rfl rfl
  | spawn tasks =>
    cases c with
    | go locked =>
      cases h
      exact .quiet rfl rfl rfl
    | fault x =>
      obtain ⟨hx, -, -⟩ := exec_fault h
      cases hx
    | _ => cases h
  | _ =>
    obtain ⟨⟨hdb, -⟩, -⟩ := exec_quiet rfl h
    rw [hdb]
    exact .quiet rfl rfl rfl

/-! ## The service -/

/-- Registration with its Profile service, and the relay with its broker. -/
abbrev ServiceRun := WiredRun × BrokerRun

/-- Registrations and relays, all at their beginning. -/
def serviceStart (cfg : RegistrationConfig) (clock : Time)
    (callees : Nat → Option RegistrationCallee) (relay : RelayConfig)
    (relays : Nat → Option RelayCallee) : ServiceRun :=
  (wiredStart cfg clock callees, brokerStart relay relays)

/-- Only the registration system publishes. -/
def RelayWorld.Env.foreign : RelayWorld.Env → Bool
  | .publish _ _ => false
  | _ => true

/-- Only the relay, the redrives and the cleanups rewrite the outbox. -/
def RegistrationWorld.Env.foreign : RegistrationWorld.Env → Bool
  | .relay _ => false
  | .tick _ => true

/-- The relay finds the outbox as registration leaves it; what is new there
was inserted. -/
def RelayWorld.found (w : RelayWorld) (outbox : List OutboxMessage) : RelayWorld :=
  { w with rows := outbox, inserted := w.inserted ++ outbox.drop w.rows.length }

/-- One table, and its rows are the events of the accounts. -/
structure OneOutbox (fmt : EventFormat) (db : RegistrationDb) (w : RelayWorld) : Prop where
  rows : w.rows = db.outbox
  inserted : w.inserted = db.registered.map (UserRegisteredEvent.row fmt)

theorem RelayWorld.found_self (w : RelayWorld) : w.found w.rows = w := by
  simp [RelayWorld.found]

/-- A step of registration, seen from the relay: nothing, or a publication. -/
theorem OneOutbox.announced {fmt : EventFormat} {db db' : RegistrationDb} {w : RelayWorld}
    (h : OneOutbox fmt db w) (hstep : Announces fmt db db') :
    OneOutbox fmt db' (w.found db'.outbox) ∧
      (w.found db'.outbox = w ∨
        ∃ v, RelayWorld.env v w = some (w.found db'.outbox)) := by
  cases hstep with
  | quiet outbox registered users =>
    have hfound : w.found db'.outbox = w := by
      rw [outbox, ← h.rows]
      exact w.found_self
    refine ⟨⟨rfl, ?_⟩, .inl hfound⟩
    rw [hfound, registered]
    exact h.inserted
  | @account user event outbox registered users id createdAt =>
    have hrow : db'.outbox = w.rows ++ [event.row fmt] := by
      rw [h.rows]
      simp only [Outbox.publish] at outbox
      split at outbox
      · cases outbox
      · exact (Except.ok.inj outbox).symm
    refine ⟨⟨rfl, ?_⟩, .inr ⟨.publish fmt.topic (event.integration fmt), ?_⟩⟩
    · simp [RelayWorld.found, hrow, registered, h.inserted]
    · rw [← h.rows] at outbox
      simp only [RelayWorld.env, outbox, RelayWorld.found]

/-- The registration system announces what it does. -/
theorem wired_announces {cfg : RegistrationConfig} {p : HTTPProfileProvisioner}
    {s s' : Traced registrationSig Exn WiredWorld}
    (h : (wiredMachine cfg p).traced.Moves RegistrationWorld.Env.foreign s s') :
    Announces cfg.format s.state.world.db s'.state.world.db := by
  cases h with
  | exec hx =>
    obtain ⟨⟨c, hc⟩, -, -⟩ := wired_exec_cases (Machine.traced_exec.mp hx).1
    exact exec_announces hc
  | @env v _ hown hv =>
    obtain ⟨t, ht, rfl⟩ := Option.map_eq_some_iff.mp hv
    obtain ⟨w, hw, rfl⟩ := Option.map_eq_some_iff.mp ht
    cases v with
    | relay rows => cases hown
    | tick elapsed =>
      cases hw
      exact .quiet rfl rfl rfl
  | kill i => exact .quiet rfl rfl rfl

/-- The relay's side inserts nothing of its own. -/
theorem broker_inserted {t t' : BrokerRecord}
    (h : brokerMachine.traced.Moves RelayWorld.Env.foreign t t') :
    t'.state.world.inserted = t.state.world.inserted := by
  cases h with
  | exec hx =>
    obtain ⟨⟨c, hc⟩, -⟩ := BrokerWorld.exec_cases (Machine.traced_exec.mp hx).1
    exact (RelayWorld.exec_does hc).history.2.1
  | @env v _ hown hv =>
    obtain ⟨u, hu, rfl⟩ := Option.map_eq_some_iff.mp hv
    obtain ⟨w, hw, rfl⟩ := Option.map_eq_some_iff.mp hu
    cases v with
    | publish topic event => cases hown
    | redriveQuarantined messageId availableAt =>
      cases hw
      rfl
    | deleteTerminalBefore locked terminalAt limit =>
      simp only [RelayWorld.env] at hw
      split at hw
      · cases hw
      · cases hw
        rfl
  | kill i => rfl

/-- The outbox, put under both. -/
def sharedOutbox (cfg : RegistrationConfig) (p : HTTPProfileProvisioner) :
    Coupling (wiredMachine cfg p).traced brokerMachine.traced where
  left := RegistrationWorld.Env.foreign
  right := RelayWorld.Env.foreign
  tell s t := { t with state :=
    { t.state with world := t.state.world.found s.state.world.db.outbox } }
  hear t s := { s with state := { s.state with world := { s.state.world with
    db := { s.state.world.db with outbox := t.state.world.rows } } } }
  agree s t := OneOutbox cfg.format s.state.world.db t.state.world
  tells := by
    intro s t s' hagree hmoves
    obtain ⟨hnext, hsame | ⟨v, hv⟩⟩ := hagree.announced (wired_announces hmoves)
    · refine ⟨hnext, .inl ?_⟩
      rw [hsame]
    · refine ⟨hnext, .inr ⟨v, ?_⟩⟩
      simp [Machine.traced, brokerMachine, hv]
  hears := by
    intro s t t' hagree hmoves
    refine ⟨⟨rfl, ?_⟩, .inr ⟨.relay t'.state.world.rows, rfl⟩⟩
    rw [broker_inserted hmoves]
    exact hagree.inserted

/-! ## What it gives -/

/-- The account of an event has its date. -/
def Dated (db : RegistrationDb) : Prop :=
  ∀ e ∈ db.registered, ∃ u ∈ db.users, u.id = e.userId ∧ u.createdAt = e.registeredAt

theorem Announces.dated {fmt : EventFormat} {db db' : RegistrationDb}
    (h : Announces fmt db db') (hdated : Dated db) : Dated db' := by
  cases h with
  | quiet outbox registered users =>
    rw [Dated, registered, users]
    exact hdated
  | @account user event outbox registered users id createdAt =>
    rw [Dated, registered, users]
    intro e he
    rw [List.mem_append, List.mem_singleton] at he
    rcases he with he | rfl
    · obtain ⟨u, hu, hrest⟩ := hdated e he
      exact ⟨u, List.mem_append_left _ hu, hrest⟩
    · exact ⟨user, List.mem_append_right _ (List.mem_singleton.mpr rfl), id.symm, createdAt.symm⟩

section Runs

variable {cfg : RegistrationConfig} {p : HTTPProfileProvisioner} {clock : Time}
  {callees : Nat → Option RegistrationCallee} {relay : RelayConfig}
  {relays : Nat → Option RelayCallee}

/-- Any step, the outside's rewriting of the outbox included. -/
theorem wired_dated {C : WiredRun} (h : WiredReach cfg p (wiredStart cfg clock callees) C) :
    Dated C.shared.state.world.db := by
  induction h with
  | refl =>
    intro u hu
    cases hu
  | tail hr hs ih =>
    obtain ⟨l, hl, -⟩ := hs
    rcases Machine.traced_step_cases hl with ⟨i, c, e, k, r, t, -, -, hx, rfl⟩ |
      ⟨v, t, -, hv, rfl⟩ | ⟨i, e, k, -, -, rfl⟩
    · obtain ⟨⟨c', hc'⟩, -, -⟩ := wired_exec_cases hx
      exact (exec_announces hc').dated ih
    · obtain ⟨w, hw, rfl⟩ := Option.map_eq_some_iff.mp hv
      cases v <;> (cases hw; exact ih)
    · exact ih

/-- Every account has its profile. -/
theorem wired_profiled {C : WiredRun} (h : WiredReach cfg p (wiredStart cfg clock callees) C) :
    ∀ u ∈ C.shared.state.world.db.users, ∃ i, Accepted p C i u.id u.createdAt := by
  induction h with
  | refl =>
    intro u hu
    cases hu
  | tail hr hs ih =>
    rename_i D D'
    obtain ⟨l, hl, -⟩ := hs
    have hkept : ∀ {i userId registeredAt}, Accepted p D i userId registeredAt →
        Accepted p D' i userId registeredAt := by
      rintro i userId registeredAt ⟨response, hstatus, hput⟩
      refine ⟨response, hstatus, ?_⟩
      rcases Machine.traced_step_cases hl with ⟨j, c, e, k, r, t, -, -, hx, rfl⟩ |
        ⟨v, t, -, hv, rfl⟩ | ⟨j, e, k, -, -, rfl⟩
      · exact (wired_exec_cases hx).2.1.subset hput
      · obtain ⟨w, -, rfl⟩ := Option.map_eq_some_iff.mp hv
        exact hput
      · exact hput
    intro u hu
    by_cases hold : u ∈ D.shared.state.world.db.users
    · obtain ⟨i, hi⟩ := ih u hold
      exact ⟨i, hkept hi⟩
    · obtain ⟨i, task, pre, post, -, -, -, haccepted⟩ := account_after_profile hr hl hu hold
      exact ⟨i, hkept haccepted⟩

/-- The event of an account. -/
theorem Accounts.event_of {hasher : PasswordHasher} {issued : RegisterUserCommand → Prop}
    {db : RegistrationDb} (h : Accounts hasher issued db) {u : User} (hu : u ∈ db.users) :
    ∃ e ∈ db.registered, e.userId = u.id ∧ db.eventsOf u.id = [e] := by
  obtain ⟨o, ho, hs, hid, -⟩ := h.accountOwned u hu
  obtain ⟨e, he⟩ := List.length_eq_one_iff.mp (h.event o ho hs)
  have hmem : e ∈ db.eventsOf o.userId := by
    rw [he]
    exact List.mem_singleton.mpr rfl
  rw [hid] at hmem he
  obtain ⟨hin, heq⟩ := List.mem_filter.mp hmem
  exact ⟨e, hin, by simpa using heq, he⟩

/-- Accounts of one id are one account. -/
theorem Accounts.user_eq {hasher : PasswordHasher} {issued : RegisterUserCommand → Prop}
    {db : RegistrationDb} (h : Accounts hasher issued db) {u v : User} (hu : u ∈ db.users)
    (hv : v ∈ db.users) (hid : u.id = v.id) : u = v := by
  by_contra hne
  have : Std.Symm fun a b : User => a.id ≠ b.id ∧ a.email ≠ b.email :=
    ⟨fun a b hab => ⟨Ne.symm hab.1, Ne.symm hab.2⟩⟩
  exact (h.usersUnique.forall hu hv hne).1 hid

/-- The two ends of the service, in a state of a joint run. -/
structure Announced (cfg : RegistrationConfig) (p : HTTPProfileProvisioner) (J : ServiceRun) :
    Prop where
  /-- Every account has one event, dated as the account, and the event waits
  in the outbox, is in the broker's log, or was given up. -/
  account : ∀ u ∈ J.1.shared.state.world.db.users, ∃ e : UserRegisteredEvent,
    J.1.shared.state.world.db.eventsOf u.id = [e] ∧ e.registeredAt = u.createdAt ∧
    ((∃ x ∈ J.1.shared.state.world.db.outbox, x.SameContent (e.row cfg.format) ∧
        (x.status = .pending ∨ x.status = .claimed)) ∨
      FastStreamKafkaPublisher.record (e.row cfg.format) ∈ J.2.shared.state.log ∨
      e.eventId ∈ J.2.shared.state.world.quarantined)
  /-- Every record in the log is the event of an account, and the Profile
  service had accepted the account's profile. -/
  record : ∀ r ∈ J.2.shared.state.log, ∃ u ∈ J.1.shared.state.world.db.users,
    ∃ e : UserRegisteredEvent, J.1.shared.state.world.db.eventsOf u.id = [e] ∧
      e.registeredAt = u.createdAt ∧ r = FastStreamKafkaPublisher.record (e.row cfg.format) ∧
      ∃ i, Accepted p J.1 i u.id u.createdAt

/-- **Every account is announced, and nothing else is**, whatever the two
sides do, in whatever order, and wherever they die: provided that the relay's
passes draw distinct claim tokens. -/
theorem accounts_announced {J : ServiceRun}
    (h : (sharedOutbox cfg p).Reach (serviceStart cfg clock callees relay relays) J)
    (hd : (relayTokens relay).Distinct J.2.shared.trace) : Announced cfg p J := by
  have hstart : (sharedOutbox cfg p).agree (wiredStart cfg clock callees).shared
      (brokerStart relay relays).shared := ⟨rfl, rfl⟩
  obtain ⟨hone, hleft, hright⟩ :=
    Coupling.Reach.both (J := serviceStart cfg clock callees relay relays) hstart h
  have hone : OneOutbox cfg.format J.1.shared.state.world.db J.2.shared.state.world := hone
  have haccounts : Accounts cfg.hasher (Issued callees) J.1.shared.state.world.db :=
    recorded_accounts (wired_recorded hleft)
  have hout : Outgoing (unbrokered.config J.2).shared := relay_outgoing (broker_relay hright) hd
  have hlogged := broker_logged hright
  have hdate : ∀ e ∈ J.1.shared.state.world.db.registered,
      ∀ u ∈ J.1.shared.state.world.db.users, e.userId = u.id → e.registeredAt = u.createdAt := by
    intro e he u hu hid
    obtain ⟨v, hv, hvid, hdated⟩ := wired_dated hleft e he
    rw [haccounts.user_eq hu hv (hid.symm.trans hvid.symm)]
    exact hdated.symm
  constructor
  · intro u hu
    obtain ⟨e, he, hid, hevents⟩ := haccounts.event_of hu
    refine ⟨e, hevents, hdate e he u hu hid, ?_⟩
    have hmem : e.row cfg.format ∈ J.2.shared.state.world.inserted := by
      rw [hone.inserted]
      exact List.mem_map_of_mem he
    rcases hout.inserted _ hmem with ⟨x, hx, hsame, hopen⟩ | ⟨i, x, hsame, hsent⟩ | hgiven
    · have hrow : x ∈ J.2.shared.state.world.rows := hx
      rw [hone.rows] at hrow
      exact .inl ⟨x, hrow, hsame, OutboxMessage.open_iff.mp hopen⟩
    · refine .inr (.inl ?_)
      rw [← hsame.record]
      exact hlogged.sent hsent
    · exact .inr (.inr hgiven)
  · intro r hr
    obtain ⟨i, m, resp, hpublished, rfl⟩ := hlogged.published hr
    obtain ⟨row, hrow, hsame⟩ := hout.published i m resp hpublished
    have hrow : row ∈ J.2.shared.state.world.inserted := hrow
    rw [hone.inserted] at hrow
    obtain ⟨e, he, rfl⟩ := List.mem_map.mp hrow
    obtain ⟨u, hu, hid, -⟩ := wired_dated hleft e he
    obtain ⟨e', he', hid', hevents⟩ := haccounts.event_of hu
    -- an account has one event, so it is this one
    have hmine : e ∈ J.1.shared.state.world.db.eventsOf u.id :=
      List.mem_filter.mpr ⟨he, by simpa using hid.symm⟩
    rw [hevents, List.mem_singleton] at hmine
    subst hmine
    exact ⟨u, hu, e, hevents, hdate e he u hu hid.symm, hsame.record,
      wired_profiled hleft u hu⟩

end Runs

namespace Sample

/-- The caller registers, the relay picks the event up, and the broker stores
the record but the client times out. -/
def announcing :
    List ((wiredMachine registration provisioner).traced.Label ⊕ brokerMachine.traced.Label) :=
  (provisioned ++ [plain 0 (.go fun _ => false)]).map .inl ++
  [.inr (.act 0 (.plain (.uuid 7))), .inr (.act 0 (.plain (.time 5))),
    .inr (.act 0 (.plain (.go fun _ => false))), .inr (.act 0 (.plain (.go fun _ => false))),
    .inr (.act 1 (.plain (.go fun _ => false))), .inr (.act 1 (.plain (.flag false))),
    .inr (.act 1 (.reply true (.error .timeout)))]

end Sample

open Sample in
theorem accounts_announced_timeout :
    ∃ J : ServiceRun, (sharedOutbox registration provisioner).run
        (serviceStart registration 5 registering relay passes) announcing = some J ∧
      J.2.shared.state.log.length = 1 ∧ Announced registration provisioner J := by
  obtain ⟨J, hrun, hdistinct, hlog⟩ : ∃ J : ServiceRun,
      (sharedOutbox registration provisioner).run
        (serviceStart registration 5 registering relay passes) announcing = some J ∧
      (relayTokens relay).Distinct J.2.shared.trace ∧ J.2.shared.state.log.length = 1 := by
    refine ⟨_, by with_unfolding_all rfl, ?_, by with_unfolding_all rfl⟩
    exact List.nodup_singleton 7
  exact ⟨J, hrun, hlog, accounts_announced (Coupling.reach_of_run _ _ hrun) hdistinct⟩

end IdentityService
