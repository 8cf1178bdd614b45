import IdentityService.Outbox.Delivery

/-!
# What reaches the broker

`FastStreamKafkaPublisher.publish` turns a claimed row into a Kafka record
and reads the client's exceptions: a `ValueError` is the only one it takes
for permanent. `brokerMachine` is the relay with this publisher in front of
a broker that keeps what it stores: it may acknowledge a record, refuse it,
or store it and fail all the same.

The columns that make up the record never change while a row lives, so a
record in the broker's log is that of a row as it was inserted. And a row is
given up only after a refusal of its own, or when its attempts are used up.
-/

namespace IdentityService

open Concurrent

/-! ## The publisher -/

/-- A record as it is handed to the broker. -/
structure KafkaRecord where
  topic : String
  key : ByteArray
  value : Json
  headers : List (String × String)

/-- What `broker.publish` may raise; a class that is both a `ValueError` and
a FastStream exception counts as the former, whose clause comes first. -/
inductive BrokerError where
  | timeout
  | connection
  | value
  | fastStream
  | other (tag : Nat)
  | cancelled
deriving DecidableEq

namespace FastStreamKafkaPublisher

/-- The arguments of `broker.publish`. -/
def record (m : OutboxMessage) : KafkaRecord where
  topic := m.topic
  key := m.key.toUTF8
  value := m.payload
  headers := [("event_id", uuidText m.id), ("event_type", m.type)]

/-- `publish`, by what the broker's client answers. -/
def publish : Except BrokerError Unit → Except Exn Unit
  | .ok _ => .ok ()
  | .error .timeout => .error .transientPublish
  | .error .connection => .error .transientPublish
  | .error .value => .error .permanentPublish
  | .error .fastStream => .error .transientPublish
  | .error (.other _) => .error .transientPublish
  | .error .cancelled => .error .cancelled

end FastStreamKafkaPublisher

/-! ## The relay in front of a broker -/

/-- A call of the broker's client: whose, with what, whether the broker has
stored the record, and what the client answered. -/
structure BrokerExchange where
  pid : Nat
  message : OutboxMessage
  stored : Bool
  answer : Except BrokerError Unit

/-- What the relay sees of it. -/
def BrokerExchange.event (x : BrokerExchange) : Event relaySig Exn :=
  ⟨x.pid, .publish x.message, FastStreamKafkaPublisher.publish x.answer⟩

/-- The relay's world, and every exchange with the broker. -/
structure BrokerWorld where
  world : RelayWorld
  exchanges : List BrokerExchange

/-- How the outside answers: the broker may have stored a record whatever it
says. -/
inductive BrokerChoice where
  | plain (c : RelayChoice)
  | reply (stored : Bool) (answer : Except BrokerError Unit)

namespace BrokerWorld

/-- The records the broker has stored, in order. -/
def log (w : BrokerWorld) : List KafkaRecord :=
  (w.exchanges.filter BrokerExchange.stored).map fun x =>
    FastStreamKafkaPublisher.record x.message

/-- What is acknowledged is stored; what is refused may be. -/
def exec (i : Nat) (e : RelayEff) (c : BrokerChoice) (w : BrokerWorld) :
    Option (Except Exn e.Resp × BrokerWorld) :=
  match e, c with
  | .publish m, .reply stored answer =>
    if answer.isOk && !stored then none
    else some (FastStreamKafkaPublisher.publish answer,
      { w with exchanges := w.exchanges ++ [⟨i, m, stored, answer⟩] })
  | .publish _, .plain _ => none
  | e, .plain c => (w.world.exec e c).map fun out => (out.1, { w with world := out.2 })
  | _, .reply _ _ => none

end BrokerWorld

/-- Relays with a broker. -/
def brokerMachine : Machine relaySig Exn BrokerWorld where
  Choice := BrokerChoice
  Env := RelayWorld.Env
  exec := BrokerWorld.exec
  env v w := (RelayWorld.env v w.world).map fun t => { w with world := t }
  kill _ w := w

abbrev BrokerRecord := Traced relaySig Exn BrokerWorld

abbrev BrokerRun := Config relaySig Exn BrokerRecord RelayResult

/-- Any number of relays, with nothing in the outbox. -/
def brokerStart (cfg : RelayConfig) (callees : Nat → Option RelayCallee) : BrokerRun :=
  ⟨⟨⟨.start, []⟩, []⟩, fun i => (callees i).map (RelayCallee.program cfg)⟩

abbrev BrokerReach : BrokerRun → BrokerRun → Prop := brokerMachine.traced.Reach fun _ _ => True

def RelayEff.isPublish : RelayEff → Bool
  | .publish _ => true
  | _ => false

/-- Everything an await can do: it is one of the relay's, and a publication
is an exchange. -/
theorem BrokerWorld.exec_cases {i : Nat} {e : RelayEff} {c : BrokerChoice} {w w' : BrokerWorld}
    {r : Except Exn e.Resp} (h : exec i e c w = some (r, w')) :
    (∃ c', w.world.exec e c' = some (r, w'.world)) ∧
    ((w'.exchanges = w.exchanges ∧ e.isPublish = false) ∨
      ∃ x : BrokerExchange, w'.exchanges = w.exchanges ++ [x] ∧ x.event = ⟨i, e, r⟩ ∧
        (x.answer.isOk = true → x.stored = true)) := by
  cases c with
  | plain c =>
    have hplain : (w.world.exec e c).map (fun out => (out.1, { w with world := out.2 })) =
        some (r, w') ∧ e.isPublish = false := by
      cases e with
      | publish m => cases h
      | _ => exact ⟨h, rfl⟩
    obtain ⟨⟨a, t⟩, hx, heq⟩ := Option.map_eq_some_iff.mp hplain.1
    cases heq
    exact ⟨⟨c, hx⟩, .inl ⟨rfl, hplain.2⟩⟩
  | reply stored answer =>
    cases e with
    | publish m =>
      simp only [exec] at h
      split at h
      · cases h
      · rename_i hstored
        cases h
        refine ⟨⟨.published (FastStreamKafkaPublisher.publish answer), rfl⟩, ?_⟩
        refine .inr ⟨⟨i, m, stored, answer⟩, rfl, rfl, fun hok => ?_⟩
        cases stored with
        | true => rfl
        | false => exact absurd (by simpa using hok) hstored
    | _ => cases h

/-- The relay in front of a broker, without the broker. -/
def unbrokered : Projection brokerMachine.traced relayMachine.traced where
  state s := ⟨s.state.world, s.trace⟩
  exec i e c s r s' h := by
    obtain ⟨hx, htrace⟩ := Machine.traced_exec.mp h
    obtain ⟨⟨c', hc'⟩, -⟩ := BrokerWorld.exec_cases hx
    exact ⟨c', Machine.traced_exec.mpr ⟨hc', htrace⟩⟩
  env v s s' h := by
    obtain ⟨t, ht, rfl⟩ := Option.map_eq_some_iff.mp h
    obtain ⟨u, hu, rfl⟩ := Option.map_eq_some_iff.mp ht
    exact ⟨v, by simp [Machine.traced, relayMachine, hu]⟩
  kill _ _ := rfl

/-- The exchanges are the publications on record, and what was acknowledged
is stored. -/
structure Logged (s : BrokerRecord) : Prop where
  events : s.state.exchanges.map BrokerExchange.event = s.trace.filter fun e => e.op.isPublish
  stored : ∀ x ∈ s.state.exchanges, x.answer.isOk = true → x.stored = true

theorem broker_logged {cfg : RelayConfig} {callees : Nat → Option RelayCallee} {C : BrokerRun}
    (h : BrokerReach (brokerStart cfg callees) C) : Logged C.shared := by
  induction h with
  | refl =>
    refine ⟨rfl, fun x hx => ?_⟩
    cases hx
  | tail hr hs ih =>
    obtain ⟨l, hl, -⟩ := hs
    rcases Machine.traced_step_cases hl with ⟨i, c, e, k, r, w, -, -, hx, rfl⟩ |
      ⟨v, w, -, hv, rfl⟩ | ⟨i, e, k, -, -, rfl⟩
    · rcases (BrokerWorld.exec_cases hx).2 with ⟨hsame, hquiet⟩ | ⟨x, hgrown, hevent, hstored⟩
      · refine ⟨?_, fun x hx => ih.stored x (hsame ▸ hx)⟩
        simp only [hsame, ih.events, List.filter_append, hquiet, List.filter_cons]
        simp
      · have hpublish : e.isPublish = true := by
          have hop := congrArg (fun ev : Event relaySig Exn => RelayEff.isPublish ev.op) hevent
          exact hop.symm
        refine ⟨?_, fun y hy => ?_⟩
        · simp [hgrown, ih.events, hevent, hpublish]
        · rw [hgrown, List.mem_append, List.mem_singleton] at hy
          rcases hy with hy | rfl
          · exact ih.stored y hy
          · exact hstored
    · obtain ⟨t, -, rfl⟩ := Option.map_eq_some_iff.mp hv
      exact ⟨ih.events, ih.stored⟩
    · exact ih

namespace Logged

variable {s : BrokerRecord}

/-- A publication on record is an exchange. -/
theorem exchange (h : Logged s) {i : Nat} {m : OutboxMessage} {r : Except Exn Unit}
    (hmem : (⟨i, .publish m, r⟩ : Event relaySig Exn) ∈ s.trace) :
    ∃ x ∈ s.state.exchanges, x.pid = i ∧ x.message = m ∧
      FastStreamKafkaPublisher.publish x.answer = r := by
  have hpub : (⟨i, .publish m, r⟩ : Event relaySig Exn) ∈
      s.trace.filter fun e => e.op.isPublish := List.mem_filter.mpr ⟨hmem, rfl⟩
  rw [← h.events] at hpub
  obtain ⟨x, hx, hevent⟩ := List.mem_map.mp hpub
  cases hevent
  exact ⟨x, hx, rfl, rfl, rfl⟩

/-- What was sent is in the log. -/
theorem sent (h : Logged s) {i : Nat} {m : OutboxMessage}
    (hmem : (⟨i, .publish m, .ok ()⟩ : Event relaySig Exn) ∈ s.trace) :
    FastStreamKafkaPublisher.record m ∈ s.state.log := by
  obtain ⟨x, hx, -, rfl, hok⟩ := h.exchange hmem
  refine List.mem_map.mpr ⟨x, List.mem_filter.mpr ⟨hx, h.stored x hx ?_⟩, rfl⟩
  cases hanswer : x.answer with
  | ok a => rfl
  | error e =>
    rw [hanswer] at hok
    cases e <;> cases hok

/-- A record of the log was published. -/
theorem published (h : Logged s) {record : KafkaRecord} (hrecord : record ∈ s.state.log) :
    ∃ i m r, (⟨i, .publish m, r⟩ : Event relaySig Exn) ∈ s.trace ∧
      record = FastStreamKafkaPublisher.record m := by
  obtain ⟨x, hx, rfl⟩ := List.mem_map.mp hrecord
  have hevent := List.mem_map_of_mem (f := BrokerExchange.event) (List.mem_filter.mp hx).1
  rw [h.events] at hevent
  exact ⟨_, _, _, (List.mem_filter.mp hevent).1, rfl⟩

end Logged

/-! ## A row is what was inserted -/

namespace OutboxMessage

/-- The columns that no statement touches once the row is there. -/
structure SameContent (a b : OutboxMessage) : Prop where
  id : a.id = b.id
  kind : a.kind = b.kind
  topic : a.topic = b.topic
  key : a.key = b.key
  type : a.type = b.type
  payload : a.payload = b.payload
  createdAt : a.createdAt = b.createdAt

variable {a b c : OutboxMessage}

theorem SameContent.refl (a : OutboxMessage) : SameContent a a :=
  ⟨rfl, rfl, rfl, rfl, rfl, rfl, rfl⟩

theorem SameContent.trans (h : SameContent a b) (h' : SameContent b c) : SameContent a c :=
  ⟨h.id.trans h'.id, h.kind.trans h'.kind, h.topic.trans h'.topic, h.key.trans h'.key,
    h.type.trans h'.type, h.payload.trans h'.payload, h.createdAt.trans h'.createdAt⟩

theorem SameContent.record (h : SameContent a b) :
    FastStreamKafkaPublisher.record a = FastStreamKafkaPublisher.record b := by
  simp only [FastStreamKafkaPublisher.record, h.topic, h.key, h.payload, h.id, h.type]

theorem Next.sameContent {call : OutboxCall} (h : Next call a b) : b.SameContent a := by
  cases h <;> exact ⟨rfl, rfl, rfl, rfl, rfl, rfl, rfl⟩

end OutboxMessage

/-- A publication of this very message has returned normally. -/
def Sent (trace : List (Event relaySig Exn)) (m : OutboxMessage) : Prop :=
  ∃ i x, OutboxMessage.SameContent x m ∧ ⟨i, .publish x, .ok ()⟩ ∈ trace

/-- Rows, claims and publications are of inserted messages; and every
inserted message is open, sent or given up. -/
structure Outgoing (s : RelayRecord) : Prop where
  rows : ∀ x ∈ s.state.rows, ∃ m ∈ s.state.inserted, x.SameContent m
  claims : ∀ c ∈ s.state.claims, ∀ x ∈ c.messages, ∃ m ∈ s.state.inserted, x.SameContent m
  published : ∀ i x r, (⟨i, .publish x, r⟩ : Event relaySig Exn) ∈ s.trace →
    ∃ m ∈ s.state.inserted, x.SameContent m
  inserted : ∀ m ∈ s.state.inserted, (∃ x ∈ s.state.rows, x.SameContent m ∧ x.terminal = false) ∨
    Sent s.trace m ∨ m.id ∈ s.state.quarantined

section Runs

variable {cfg : RelayConfig} {callees : Nat → Option RelayCallee} {C C' : RelayRun}

/-- The statements keep rows what they are, whoever makes them. -/
theorem OutboxCall.Turn.content {call : OutboxCall}
    {rows rows' inserted inserted' : List OutboxMessage} (h : call.Turn rows rows')
    (hrows : ∀ x ∈ rows, ∃ m ∈ inserted, x.SameContent m)
    (hold : ∀ m ∈ inserted, m ∈ inserted')
    (hnew : ∀ topic event, call = .publish topic event → event.row topic ∈ rows' →
      event.row topic ∈ inserted') :
    ∀ x ∈ rows', ∃ m ∈ inserted', x.SameContent m := by
  intro x' hx'
  rcases h.old x' hx' with ⟨x, hx, hnext⟩ | ⟨topic, event, hcall, rfl, -⟩
  · obtain ⟨m, hm, hsame⟩ := hrows x hx
    exact ⟨m, hold m hm, hnext.sameContent.trans hsame⟩
  · exact ⟨_, hnew topic event hcall hx', .refl _⟩

/-- A unit of work leaves an open row open, or the row was sent, or it is
given up. -/
theorem transact_sent (h : RelayReach (relayStart cfg callees) C)
    (hd : (relayTokens cfg).Distinct C.shared.trace) {i : Nat} {t : RelayTx}
    {k : Except Exn t.Resp → Relay RelayResult} (hp : C.pool i = some (.op (.tx t) k))
    (locked : Uuid → Bool) {x : OutboxMessage} (hx : x ∈ C.shared.state.rows)
    (hopen : x.terminal = false) :
    (∃ x' ∈ (C.shared.state.transact locked t).2.rows, x'.SameContent x ∧ x'.terminal = false) ∨
      Sent C.shared.trace x ∨ x.id ∈ (C.shared.state.transact locked t).2.quarantined := by
  have hturn := OutboxCall.turn (relay_ids h) (t.call locked)
  rw [← RelayWorld.transact_rows] at hturn
  rcases hturn.kept x hx with ⟨x', hx', hnext⟩ | hterm
  · rcases hnext.of_open hopen with hopen' | ⟨ownerToken, publishedAt, hcall, htoken⟩ |
      ⟨ownerToken, quarantinedAt, errorClass, hcall, hown⟩
    · exact .inl ⟨x', hx', hnext.sameContent, hopen'⟩
    · cases t with
      | finalizePublished messageId ownerToken publishedAt =>
        cases hcall
        exact .inr (.inl ⟨i, x, .refl x, finalized_published h hd hp hx htoken⟩)
      | _ => cases hcall
    · cases t with
      | quarantine messageId ownerToken quarantinedAt errorClass =>
        cases hcall
        exact .inr (.inr (RelayWorld.transact_quarantined locked hx hown))
      | _ => cases hcall
  · rw [hopen] at hterm
    cases hterm

theorem Sent.mono {trace trace' : List (Event relaySig Exn)} {m : OutboxMessage}
    (h : Sent trace m) (hpre : trace <+: trace') : Sent trace' m := by
  obtain ⟨i, x, hsame, hmem⟩ := h
  exact ⟨i, x, hsame, hpre.subset hmem⟩

/-- What a process hands to the publisher was inserted. -/
theorem Outgoing.handed (h : Outgoing C.shared) (hr : RelayReach (relayStart cfg callees) C)
    {i : Nat} {m : OutboxMessage} {k : Except Exn Unit → Relay RelayResult}
    (hp : C.pool i = some (.op (.publish m) k)) :
    ∃ m' ∈ C.shared.state.inserted, m.SameContent m' := by
  obtain ⟨ownerToken, s, hs, -, hm⟩ := (relay_kept hr).permits hp
  obtain ⟨c, hc, -, hmem⟩ := (relay_backing hr).stream i s hs m hm
  exact h.claims c hc m hmem

/-- A unit of work on the outbox. -/
theorem Outgoing.transact (h : Outgoing C.shared) (hr : RelayReach (relayStart cfg callees) C)
    (hd : (relayTokens cfg).Distinct C.shared.trace) {i : Nat} {t : RelayTx}
    {k : Except Exn t.Resp → Relay RelayResult} (hp : C.pool i = some (.op (.tx t) k))
    (locked : Uuid → Bool) (r : Except Exn t.Resp) :
    Outgoing ⟨(C.shared.state.transact locked t).2, C.shared.trace ++ [⟨i, .tx t, r⟩]⟩ := by
  obtain ⟨-, hinserted, hquarantined, hclaims⟩ :=
    RelayWorld.transact_cases C.shared.state locked t
  have hturn := OutboxCall.turn (relay_ids hr) (t.call locked)
  rw [← RelayWorld.transact_rows] at hturn
  refine ⟨?_, fun c hc x hx => ?_, fun j x r' hmem => ?_, fun m hm => ?_⟩
  · refine hturn.content h.rows (fun m hm => hinserted ▸ hm) fun topic event hcall _ => ?_
    cases t <;> cases hcall
  · simp only [hinserted]
    rcases hclaims with hsame | ⟨ownerToken, _, _, _, batch, rows, rfl, hclaim, hnew⟩
    · exact h.claims c (hsame ▸ hc) x hx
    · simp only [hnew, List.mem_append, List.mem_singleton] at hc
      rcases hc with hc | rfl
      · exact h.claims c hc x hx
      · obtain ⟨z, hz, -, rfl⟩ := OrderInv.mem_batch
          (s := ⟨C.shared.state.rows, 0, [], fun _ => none, []⟩) hclaim hx
        obtain ⟨m, hm, hsame⟩ := h.rows z hz
        exact ⟨m, hm, hsame.id, hsame.kind, hsame.topic, hsame.key, hsame.type, hsame.payload,
          hsame.createdAt⟩
  · simp only [hinserted]
    rcases List.mem_append.mp hmem with hmem | hmem
    · exact h.published j x r' hmem
    · cases List.mem_singleton.mp hmem
  · rw [hinserted] at hm
    rcases h.inserted m hm with ⟨x, hx, hsame, hopen⟩ | hsent | hgiven
    · rcases transact_sent hr hd hp locked hx hopen with ⟨x', hx', hsame', hopen'⟩ |
        ⟨j, y, hy, hmem⟩ | hgiven
      · exact .inl ⟨x', hx', hsame'.trans hsame, hopen'⟩
      · exact .inr (.inl ⟨j, y, hy.trans hsame, List.mem_append_left _ hmem⟩)
      · exact .inr (.inr (hsame.id ▸ hgiven))
    · exact .inr (.inl (hsent.mono (List.prefix_append _ _)))
    · exact .inr (.inr (hquarantined _ hgiven))

/-- What happens to the outbox outside the relay. -/
theorem Outgoing.env {s : RelayRecord} (h : Outgoing s)
    (hn : (s.state.rows.map OutboxMessage.id).Nodup) {v : RelayWorld.Env} {w : RelayWorld}
    (hv : RelayWorld.env v s.state = some w) : Outgoing ⟨w, s.trace⟩ := by
  obtain ⟨hturn, -, -, hclaims, hquarantined, hinserted⟩ := RelayWorld.env_cases hn hv
  have hgrow : ∀ m ∈ s.state.inserted, m ∈ w.inserted := by
    intro m hm
    rcases hinserted with hsame | ⟨topic, event, -, hnew, -⟩
    · exact hsame ▸ hm
    · rw [hnew]
      exact List.mem_append_left _ hm
  have hstill : ∀ {x : OutboxMessage}, (∃ m ∈ s.state.inserted, x.SameContent m) →
      ∃ m ∈ w.inserted, x.SameContent m :=
    fun ⟨m, hm, hsame⟩ => ⟨m, hgrow m hm, hsame⟩
  refine ⟨hturn.content h.rows hgrow fun topic event hcall _ => ?_, fun c hc x hx => ?_,
    fun i x r hmem => hstill (h.published i x r hmem), fun m hm => ?_⟩
  · rcases hinserted with hsame | ⟨topic', event', rfl, hnew, -⟩
    · cases v with
      | publish topic' event' =>
        -- a publication that goes through is an insertion
        simp only [RelayWorld.env] at hv
        split at hv
        · rename_i rows hrows
          cases hv
          simp only [Outbox.publish] at hrows
          split at hrows
          · cases hrows
          · cases hrows
            simp at hsame
        · cases hv
      | _ => cases hcall
    · cases hcall
      rw [hnew]
      exact List.mem_append_right _ (List.mem_singleton.mpr rfl)
  · exact hstill (h.claims c (hclaims ▸ hc) x hx)
  · have hkept : ∀ m ∈ s.state.inserted,
        (∃ x ∈ w.rows, x.SameContent m ∧ x.terminal = false) ∨ Sent s.trace m ∨
          m.id ∈ w.quarantined := by
      intro m hm
      rcases h.inserted m hm with ⟨x, hx, hsame, hopen⟩ | hsent | hgiven
      · rcases hturn.kept x hx with ⟨x', hx', hnext⟩ | hterm
        · rcases hnext.of_open hopen with hopen' | ⟨_, _, hcall, -⟩ | ⟨_, _, _, hcall, -⟩
          · exact .inl ⟨x', hx', hnext.sameContent.trans hsame, hopen'⟩
          · cases v <;> cases hcall
          · cases v <;> cases hcall
        · rw [hopen] at hterm
          cases hterm
      · exact .inr (.inl hsent)
      · exact .inr (.inr (hquarantined ▸ hgiven))
    rcases hinserted with hsame | ⟨topic, event, -, hnew, hrow⟩
    · exact hkept m (hsame ▸ hm)
    · rw [hnew, List.mem_append, List.mem_singleton] at hm
      rcases hm with hm | rfl
      · exact hkept m hm
      · exact .inl ⟨_, hrow, .refl _, rfl⟩

theorem relay_outgoing (h : RelayReach (relayStart cfg callees) C)
    (hd : (relayTokens cfg).Distinct C.shared.trace) : Outgoing C.shared := by
  induction h with
  | refl =>
    refine ⟨fun x hx => ?_, fun c hc => ?_, fun i x r hx => ?_, fun m hm => ?_⟩
    · cases hx
    · cases hc
    · cases hx
    · cases hm
  | tail hr hs ih =>
    rename_i D D'
    obtain ⟨l, hl, -⟩ := hs
    rcases Machine.traced_step_cases hl with ⟨i, c, e, k, r, w, -, hp, hx, rfl⟩ |
      ⟨v, w, -, hv, rfl⟩ | ⟨i, e, k, -, -, rfl⟩
    · have hbefore := hd.initial (List.prefix_append _ _)
      have hold := ih hbefore
      rcases (RelayWorld.exec_does hx).table with ⟨hrows, hclaims, hinserted, hquarantined⟩ |
        ⟨t, locked, rfl, rfl⟩
      · refine ⟨fun x hx => ?_, fun c hc x hx => ?_, fun j x r' hmem => ?_, fun m hm => ?_⟩
        · simp only [hinserted]
          exact hold.rows x (hrows ▸ hx)
        · simp only [hinserted]
          exact hold.claims c (hclaims ▸ hc) x hx
        · simp only [hinserted]
          rcases List.mem_append.mp hmem with hmem | hmem
          · exact hold.published j x r' hmem
          · cases List.mem_singleton.mp hmem
            exact hold.handed hr hp
        · simp only [hinserted] at hm
          simp only [hrows, hquarantined]
          exact (hold.inserted m hm).imp_right
            (Or.imp_left fun hsent => hsent.mono (List.prefix_append _ _))
      · exact hold.transact hr hbefore hp locked r
    · exact (ih hd).env (relay_ids hr) hv
    · exact ⟨(ih hd).rows, (ih hd).claims, (ih hd).published, (ih hd).inserted⟩

end Runs

/-! ## A row is given up only when it is due -/

theorem OutboxMessage.Next.of_quarantined {call : OutboxCall} {m m' : OutboxMessage}
    (h : OutboxMessage.Next call m m') (hs : m'.status = .quarantined) :
    m' = m ∨ ∃ ownerToken quarantinedAt errorClass,
      call = .quarantine m.id ownerToken quarantinedAt errorClass ∧
        m.claimToken = some ownerToken ∧ m' = m.quarantineRow quarantinedAt errorClass := by
  cases h with
  | same => exact .inl rfl
  | quarantine quarantinedAt errorClass h =>
    obtain ⟨rfl, -, htoken⟩ := OrderInv.ownedBy_iff.mp h
    exact .inr ⟨_, quarantinedAt, errorClass, rfl, htoken, rfl⟩
  | claim => cases hs
  | finalize => cases hs
  | retry => cases hs
  | redrive => cases hs

/-- What a process knows of its work: its stream, and how its last
publication ended. -/
structure RelayVerdict where
  stream : Option KeyStream
  last : Option (OutboxMessage × Except Exn Unit)

/-- What a publish call has come to. -/
def RelayEff.answered :
    (e : RelayEff) → Except Exn e.Resp → Option (OutboxMessage × Except Exn Unit)
  | .publish m, r => some (m, r)
  | _, _ => none

/-- The publication of `m` ended in `x`, and that is what `errorClass` says:
a permanent refusal, or the last attempt the policy allows. -/
def DueVerdict (maxAttempts : Nat) (m : OutboxMessage) (x : Exn) (errorClass : String) : Prop :=
  (x = .permanentPublish ∧ errorClass = "PermanentPublishError") ∨
  (x ≠ .permanentPublish ∧ x.isException = true ∧ maxAttempts ≤ m.attempts + 1 ∧
    errorClass = "RetryExhaustedError")

namespace RelayVerdict

/-- How an answer changes what a stream knows of its last call. -/
def next (l : RelayVerdict) (e : RelayEff) (r : Except Exn e.Resp) : RelayVerdict where
  stream := (e.obtained r).or l.stream
  last := (e.answered r).or l.last

/-- A quarantine is in order after an answer that calls for it. -/
def Permits (maxAttempts : Nat) (l : RelayVerdict) : RelayEff → Prop
  | .tx (.quarantine messageId ownerToken _ errorClass) =>
      ∃ s m x, l.stream = some s ∧ s.ownerToken = ownerToken ∧ m ∈ s.messages ∧
        l.last = some (m, .error x) ∧ m.id = messageId ∧ DueVerdict maxAttempts m x errorClass
  | _ => True

end RelayVerdict

/-- What a stream knows of its messages, and of its last call. -/
def verdictFlow (cfg : RelayConfig) : Flow relaySig Exn where
  State := RelayVerdict
  start := ⟨none, none⟩
  permits := RelayVerdict.Permits cfg.policy.maxAttempts
  next := RelayVerdict.next

namespace OutboxRelay

section Verdict

variable {cfg : RelayConfig} {l : RelayVerdict} {m : OutboxMessage} {ownerToken : Uuid}
  {s : Option KeyStream}

/-- The stream stays what it is. -/
def Streaming (s : Option KeyStream) {α : Type} (_ : Except Exn α) (l : RelayVerdict) : Prop :=
  l.stream = s

theorem verdict_await {β : Type} {e : RelayEff} {f : e.Resp → Relay β}
    (hp : l.Permits cfg.policy.maxAttempts e) (hs : l.stream = s)
    (hquiet : ∀ r, e.obtained r = none)
    (hok : ∀ a, (verdictFlow cfg).Follows (f a) (l.next e (.ok a)) (Streaming s)) :
    (verdictFlow cfg).Follows ((await e).bind f) l (Streaming s) := by
  refine Flow.Follows.bind (Flow.Follows.perform hp fun r => rfl : (verdictFlow cfg).Follows
    (await e) l fun r l' => l' = l.next e r) ?_ ?_
  · rintro a l' rfl
    exact hok a
  · rintro x l' rfl
    simp [Streaming, RelayVerdict.next, hquiet, hs]

theorem quarantine_verdict {st : KeyStream} {x : Exn} {errorClass : String}
    (hs : l.stream = some st) (hm : m ∈ st.messages) (hlast : l.last = some (m, .error x))
    (hdue : DueVerdict cfg.policy.maxAttempts m x errorClass) :
    (verdictFlow cfg).Follows (quarantine m st.ownerToken errorClass) l (Streaming (some st)) := by
  refine verdict_await trivial hs (fun _ => rfl) fun quarantinedAt => ?_
  refine verdict_await ⟨st, m, x, hs, rfl, hm, hlast, rfl, hdue⟩ hs (fun _ => rfl) fun _ => ?_
  exact hs

theorem scheduleRetry_verdict (hs : l.stream = s) (error : Exn) :
    (verdictFlow cfg).Follows (scheduleRetry cfg m ownerToken error) l (Streaming s) := by
  refine verdict_await trivial hs (fun _ => rfl) fun jitterSample => ?_
  cases cfg.policy.delaySeconds (m.attempts + 1) jitterSample with
  | error x => exact hs
  | ok delay =>
    refine verdict_await trivial hs (fun _ => rfl) fun now => ?_
    exact verdict_await trivial hs (fun _ => rfl) fun _ => hs

theorem publishClaimed_verdict {st : KeyStream} (hs : l.stream = some st)
    (hm : m ∈ st.messages) :
    (verdictFlow cfg).Follows (publishClaimed cfg m st.ownerToken) l (Streaming (some st)) := by
  have hcall : (verdictFlow cfg).Follows (await (.publish m)) l
      fun r l' => l' = l.next (.publish m) r :=
    Flow.Follows.perform trivial fun _ => rfl
  refine hcall.attempt fun r l' hl' => ?_
  subst hl'
  have hstream : (l.next (.publish m) r).stream = some st := hs
  cases r with
  | ok a =>
    refine verdict_await trivial hstream (fun _ => rfl) fun publishedAt => ?_
    exact verdict_await trivial hstream (fun _ => rfl) fun _ => hstream
  | error x =>
    have hlast : (l.next (.publish m) (.error x)).last = some (m, .error x) := rfl
    have hcaught : x ≠ .permanentPublish → (verdictFlow cfg).Follows
        (if x.isException then
          if cfg.policy.maxAttempts ≤ m.attempts + 1 then
            quarantine m st.ownerToken "RetryExhaustedError"
          else scheduleRetry cfg m st.ownerToken x
        else throw x) (l.next (.publish m) (.error x)) (Streaming (some st)) := by
      intro hne
      split
      · rename_i hcaught
        split
        · rename_i hmax
          exact quarantine_verdict hstream hm hlast (.inr ⟨hne, hcaught, hmax, rfl⟩)
        · exact scheduleRetry_verdict hstream x
      · exact hstream
    cases x with
    | permanentPublish => exact quarantine_verdict hstream hm hlast (.inl ⟨rfl, rfl⟩)
    | _ => exact hcaught fun hx => by cases hx

theorem processKeyStream_verdict {messages : List OutboxMessage} {st : KeyStream}
    (hs : l.stream = some st) (hsub : ∀ m ∈ messages, m ∈ st.messages) :
    (verdictFlow cfg).Follows (processKeyStream cfg st.ownerToken messages) l
      (Streaming (some st)) := by
  induction messages generalizing l with
  | nil => exact hs
  | cons m rest ih =>
    refine verdict_await trivial hs (fun _ => rfl) fun stopped => ?_
    cases stopped with
    | true => exact hs
    | false =>
      have hstream : (l.next .stopped (.ok false)).stream = some st := hs
      refine (publishClaimed_verdict hstream (hsub m (by simp))).bind (fun _ l' hl' => ?_)
        fun _ l' hl' => hl'
      exact ih hl' fun x hx => hsub x (by simp [hx])

theorem runOnce_verdict (batchSize : Int) (hs : l.stream = s) :
    (verdictFlow cfg).Follows (runOnce cfg batchSize) l (Streaming s) := by
  simp only [runOnce]
  split
  · exact hs
  · refine verdict_await trivial hs (fun _ => rfl) fun ownerToken => ?_
    refine verdict_await trivial hs (fun _ => rfl) fun claimedAt => ?_
    refine verdict_await trivial hs (fun _ => rfl) fun messages => ?_
    split
    · exact hs
    · refine verdict_await trivial hs (fun _ => rfl) fun first => ?_
      exact verdict_await trivial hs (fun _ => rfl) fun _ => hs

theorem callee_verdict (callee : RelayCallee) :
    (verdictFlow cfg).Follows (callee.program cfg) ⟨none, none⟩ fun _ _ => True := by
  cases callee with
  | runOnce batchSize =>
    exact (runOnce_verdict batchSize rfl).bind (fun _ _ _ => trivial) fun _ _ _ => trivial
  | stream n =>
    refine Flow.Follows.bind (Q := fun _ _ => True) ⟨trivial, fun r => ?_⟩ (fun _ _ _ => trivial)
      fun _ _ _ => trivial
    cases r with
    | error x => exact trivial
    | ok st =>
      have hstream : (RelayVerdict.next ⟨none, none⟩ (.stream n) (.ok st)).stream = some st := rfl
      refine (processKeyStream_verdict hstream fun m hm => hm).attempt fun r l' _ => ?_
      exact Flow.Follows.perform trivial fun _ => trivial

end Verdict

end OutboxRelay

section Earned

variable {cfg : RelayConfig} {callees : Nat → Option RelayCallee} {C C' : BrokerRun}

theorem broker_relay (h : BrokerReach (brokerStart cfg callees) C) :
    RelayReach (relayStart cfg callees) (unbrokered.config C) :=
  unbrokered.reach h

theorem broker_verdicts (h : BrokerReach (brokerStart cfg callees) C) :
    (verdictFlow cfg).Kept (fun _ _ _ => True) C := by
  refine Flow.follows_reach (fun i p hp => ?_) h
  obtain ⟨callee, -, rfl⟩ := Option.map_eq_some_iff.mp hp
  exact OutboxRelay.callee_verdict callee

/-- Both flows know the same stream. -/
theorem verdict_stream (trace : List (Event relaySig Exn)) (i : Nat) :
    ((verdictFlow cfg).after trace i).stream = ((relayFlow cfg).after trace i).stream := by
  induction trace using List.reverseRecOn with
  | nil => rfl
  | append_singleton trace e ih =>
    by_cases hi : i = e.pid
    · subst hi
      rw [Flow.after_append_self, Flow.after_append_self]
      simp only [verdictFlow, relayFlow, RelayVerdict.next, RelayLocal.next]
      exact congrArg _ ih
    · rw [Flow.after_append_ne trace hi, Flow.after_append_ne trace hi]
      exact ih

/-- The last publication of a process is on record. -/
theorem verdict_last {trace : List (Event relaySig Exn)} {i : Nat} {m : OutboxMessage}
    {r : Except Exn Unit} (h : ((verdictFlow cfg).after trace i).last = some (m, r)) :
    (⟨i, .publish m, r⟩ : Event relaySig Exn) ∈ trace := by
  induction trace using List.reverseRecOn with
  | nil => cases h
  | append_singleton trace e ih =>
    by_cases hi : i = e.pid
    · subst hi
      rw [Flow.after_append_self] at h
      obtain ⟨pid, op, resp⟩ := e
      simp only [verdictFlow, RelayVerdict.next, Option.or_eq_some_iff] at h
      rcases h with h | ⟨-, h⟩
      · cases op with
        | publish message =>
          cases h
          simp
        | _ => cases h
      · exact List.mem_append_left _ (ih h)
    · rw [Flow.after_append_ne trace hi] at h
      exact List.mem_append_left _ (ih h)

/-- Why a row may stand QUARANTINED: the broker's client refused the message
with a `ValueError`, or the row has used up its attempts. -/
def Earned (cfg : RelayConfig) (exchanges : List BrokerExchange) (m : OutboxMessage) : Prop :=
  (m.lastErrorClass = some "PermanentPublishError" ∧
    ∃ x ∈ exchanges, x.message.SameContent m ∧ x.answer = .error .value) ∨
  (m.lastErrorClass = some "RetryExhaustedError" ∧ cfg.policy.maxAttempts ≤ m.attempts ∧
    ∃ x ∈ exchanges, x.message.SameContent m ∧ ∃ e, x.answer = .error e)

theorem Earned.mono {exchanges exchanges' : List BrokerExchange} {m : OutboxMessage}
    (h : Earned cfg exchanges m) (hpre : exchanges <+: exchanges') : Earned cfg exchanges' m := by
  rcases h with ⟨hclass, x, hx, hrest⟩ | ⟨hclass, hmax, x, hx, hrest⟩
  · exact .inl ⟨hclass, x, hpre.subset hx, hrest⟩
  · exact .inr ⟨hclass, hmax, x, hpre.subset hx, hrest⟩

/-- The unit of work that gives a row up. -/
theorem quarantined_earned (h : BrokerReach (brokerStart cfg callees) C)
    (hd : (relayTokens cfg).Distinct C.shared.trace) {i : Nat} {x : OutboxMessage}
    {ownerToken : Uuid} {quarantinedAt : Time} {errorClass : String}
    {k : Except Exn Bool → Relay RelayResult}
    (hp : C.pool i = some (.op (.tx (.quarantine x.id ownerToken quarantinedAt errorClass)) k))
    (hx : x ∈ C.shared.state.world.rows) (htoken : x.claimToken = some ownerToken) :
    Earned cfg C.shared.state.exchanges (x.quarantineRow quarantinedAt errorClass) := by
  obtain ⟨st, m, error, hst, rfl, hm, hlast, hid, hdue⟩ := (broker_verdicts h).permits hp
  have hworks : ((relayFlow cfg).after C.shared.trace i).Works m st.ownerToken :=
    ⟨st, (verdict_stream _ i).symm.trans hst, rfl, hm⟩
  have hrow : x = m := worked_row (broker_relay h) hd hworks hx hid.symm htoken
  subst hrow
  obtain ⟨y, hy, -, hmessage, hanswer⟩ := (broker_logged h).exchange (verdict_last hlast)
  have hsame : y.message.SameContent (x.quarantineRow quarantinedAt errorClass) := by
    rw [hmessage]
    exact ⟨rfl, rfl, rfl, rfl, rfl, rfl, rfl⟩
  have herror : ∃ e, y.answer = .error e := by
    cases ha : y.answer with
    | ok a =>
      rw [ha] at hanswer
      cases hanswer
    | error e => exact ⟨e, rfl⟩
  obtain ⟨e, he⟩ := herror
  rw [he] at hanswer
  rcases hdue with ⟨rfl, rfl⟩ | ⟨-, -, hmax, rfl⟩
  · refine .inl ⟨rfl, y, hy, hsame, ?_⟩
    cases e with
    | value => exact he
    | _ => cases hanswer
  · exact .inr ⟨rfl, hmax, y, hy, hsame, e, he⟩

theorem exchanges_prefix {l : brokerMachine.traced.Label}
    (hl : brokerMachine.traced.step C l = some C') :
    C.shared.state.exchanges <+: C'.shared.state.exchanges := by
  rcases Machine.traced_step_cases hl with ⟨i, c, e, k, r, w, -, -, hx, rfl⟩ |
    ⟨v, w, -, hv, rfl⟩ | ⟨i, e, k, -, -, rfl⟩
  · rcases (BrokerWorld.exec_cases hx).2 with ⟨hsame, -⟩ | ⟨x, hgrown, -⟩
    · simp only [hsame]
      exact List.prefix_rfl
    · simp only [hgrown]
      exact List.prefix_append _ _
  · obtain ⟨t, -, rfl⟩ := Option.map_eq_some_iff.mp hv
    exact List.prefix_rfl
  · exact List.prefix_rfl

/-- **Nothing is given up before it is due.** In every state of every run, a
QUARANTINED row is one whose message the broker's client has refused with a
`ValueError`, or one that has used up the attempts of the policy, the last of
them by a publication that failed; and its error class says which. -/
theorem quarantine_earned (h : BrokerReach (brokerStart cfg callees) C)
    (hd : (relayTokens cfg).Distinct C.shared.trace) :
    ∀ x ∈ C.shared.state.world.rows, x.status = .quarantined →
      Earned cfg C.shared.state.exchanges x := by
  induction h with
  | refl =>
    intro x hx
    cases hx
  | tail hr hs ih =>
    rename_i D D'
    obtain ⟨l, hl, -⟩ := hs
    have hpre := exchanges_prefix hl
    have hstep : BrokerReach D D' := .single ⟨l, hl, trivial⟩
    have hbefore : (relayTokens cfg).Distinct D.shared.trace :=
      hd.initial (Machine.trace_prefix hstep)
    intro x' hx' hstatus
    obtain ⟨l', hl'⟩ := unbrokered.step hl
    have hstays : ∀ {call : OutboxCall},
        call.Turn D.shared.state.world.rows D'.shared.state.world.rows →
        (∀ x ∈ D.shared.state.world.rows, ∀ ownerToken quarantinedAt errorClass,
          call = .quarantine x.id ownerToken quarantinedAt errorClass →
          x.claimToken = some ownerToken →
          Earned cfg D.shared.state.exchanges (x.quarantineRow quarantinedAt errorClass)) →
        Earned cfg D'.shared.state.exchanges x' := by
      intro call hturn hgive
      rcases hturn.old x' hx' with ⟨x, hx, hnext⟩ | ⟨topic, event, -, rfl, -⟩
      · rcases hnext.of_quarantined hstatus with rfl | ⟨_, _, _, hcall, htoken, rfl⟩
        · exact (ih hbefore _ hx hstatus).mono hpre
        · exact (hgive x hx _ _ _ hcall htoken).mono hpre
      · cases hstatus
    rcases relay_turn (broker_relay hr) hl' with hrows | ⟨i, c, t, k, locked, -, hp, hturn⟩ |
      ⟨v, -, hturn⟩
    · have hrows' : D'.shared.state.world.rows = D.shared.state.world.rows := hrows
      exact (ih hbefore x' (hrows' ▸ hx') hstatus).mono hpre
    · refine hstays hturn fun x hx ownerToken quarantinedAt errorClass hcall htoken => ?_
      cases t with
      | quarantine messageId ownerToken quarantinedAt errorClass =>
        cases hcall
        exact quarantined_earned hr hbefore hp hx htoken
      | _ => cases hcall
    · refine hstays hturn fun x hx ownerToken quarantinedAt errorClass hcall _ => ?_
      cases v <;> cases hcall

end Earned

namespace Sample

/-- One event; the client takes its payload for invalid. -/
def unacceptable : List brokerMachine.traced.Label :=
  [.env (.publish "identity" (registered 1 3)),
    .act 0 (.plain (.uuid 7)), .act 0 (.plain (.time 5)), .act 0 (.plain (.go fun _ => false)),
    .act 0 (.plain (.go fun _ => false)), .act 1 (.plain (.go fun _ => false)),
    .act 1 (.plain (.flag false)), .act 1 (.reply false (.error .value)),
    .act 1 (.plain (.time 6)), .act 1 (.plain (.go fun _ => false))]

def givenUp : OutboxMessage := (firstRow.claim 7 35).quarantineRow 6 "PermanentPublishError"

end Sample

open Sample in
theorem quarantine_earned_refused :
    ∃ C : BrokerRun,
      brokerMachine.traced.run (fun _ _ => true) (brokerStart relay passes) unacceptable = some C ∧
      C.shared.state.world.rows = [givenUp] ∧ Earned relay C.shared.state.exchanges givenUp := by
  obtain ⟨C, hrun, hdistinct, hrows⟩ : ∃ C : BrokerRun,
      brokerMachine.traced.run (fun _ _ => true) (brokerStart relay passes) unacceptable = some C ∧
      (relayTokens relay).Distinct C.shared.trace ∧ C.shared.state.world.rows = [givenUp] := by
    refine ⟨_, by with_unfolding_all rfl, ?_, by with_unfolding_all rfl⟩
    exact List.nodup_singleton 7
  have hany : ∀ s s' : BrokerRecord, true = true → True := fun _ _ _ => trivial
  have hreach : BrokerReach (brokerStart relay passes) C :=
    Machine.reach_of_run _ hany _ _ _ hrun
  refine ⟨C, hrun, hrows, quarantine_earned hreach hdistinct givenUp ?_ rfl⟩
  rw [hrows]
  exact List.mem_singleton.mpr rfl

end IdentityService
