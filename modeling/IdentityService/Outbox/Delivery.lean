import IdentityService.Outbox.Lifecycle
import IdentityService.Outbox.Relay

/-!
# Every message is delivered, and in order

Nothing is lost and nothing overtakes, whatever dies when: a worker between
its publication and the write that records it, a stream whose exception
`gather` swallows, an owner that lost its lease and publishes late, a
cleanup that runs at the same time.

Two things carry it. A row changes its owner only by a claim, and a claim
has a token of its own, so a finishing write finds the row that its worker
published (`Table.Held`). And a row that was once inserted is open, or has
been published, or has been quarantined (`Settled`); a claim takes only the
first open row of a key, so everything before it is settled.
-/

namespace IdentityService

open Concurrent

/-! ## What a step does to the outbox -/

/-- The statement of a unit of work. -/
def RelayTx.call (locked : Uuid → Bool) : RelayTx → OutboxCall
  | .claimBatch ownerToken claimedAt claimExpiresAt limit =>
    .claimBatch locked ownerToken claimedAt claimExpiresAt limit
  | .finalizePublished messageId ownerToken publishedAt =>
    .finalizePublished messageId ownerToken publishedAt
  | .scheduleRetry messageId ownerToken availableAt errorClass =>
    .scheduleRetry messageId ownerToken availableAt errorClass
  | .quarantine messageId ownerToken quarantinedAt errorClass =>
    .quarantine messageId ownerToken quarantinedAt errorClass

/-- The call behind what happens besides the relay. -/
def RelayWorld.Env.call : RelayWorld.Env → OutboxCall
  | .publish topic event => .publish topic event
  | .redriveQuarantined messageId availableAt => .redriveQuarantined messageId availableAt
  | .deleteTerminalBefore _ terminalAt limit => .deleteTerminalBefore terminalAt limit

namespace RelayWorld

variable {w w' : RelayWorld} {locked : Uuid → Bool}

theorem transact_rows (w : RelayWorld) (locked : Uuid → Bool) (t : RelayTx) :
    (w.transact locked t).2.rows = ((t.call locked).on w.rows).rows := by
  cases t with
  | claimBatch ownerToken claimedAt claimExpiresAt limit =>
    cases hc : Outbox.claimBatch w.rows locked ownerToken claimedAt claimExpiresAt limit with
    | ok out => simp only [transact, RelayTx.call, OutboxCall.on, OutboxState.step, hc]
    | error x => simp only [transact, RelayTx.call, OutboxCall.on, OutboxState.step, hc]
  | finalizePublished messageId ownerToken publishedAt => rfl
  | scheduleRetry messageId ownerToken availableAt errorClass => rfl
  | quarantine messageId ownerToken quarantinedAt errorClass => rfl

/-- A unit of work writes rows and history, and only a claim hands out rows. -/
theorem transact_cases (w : RelayWorld) (locked : Uuid → Bool) (t : RelayTx) :
    (w.transact locked t).2.streams = w.streams ∧
    (w.transact locked t).2.inserted = w.inserted ∧
    (∀ id ∈ w.quarantined, id ∈ (w.transact locked t).2.quarantined) ∧
    ((w.transact locked t).2.claims = w.claims ∨
      ∃ ownerToken claimedAt claimExpiresAt limit batch rows,
        t = .claimBatch ownerToken claimedAt claimExpiresAt limit ∧
        Outbox.claimBatch w.rows locked ownerToken claimedAt claimExpiresAt limit =
          .ok (batch, rows) ∧
        (w.transact locked t).2.claims = w.claims ++ [⟨ownerToken, batch, w.inserted⟩]) := by
  cases t with
  | claimBatch ownerToken claimedAt claimExpiresAt limit =>
    simp only [transact]
    split
    · rename_i batch rows hc
      exact ⟨rfl, rfl, fun _ h => h, .inr ⟨_, _, _, _, batch, rows, rfl, hc, rfl⟩⟩
    · exact ⟨rfl, rfl, fun _ h => h, .inl rfl⟩
  | finalizePublished messageId ownerToken publishedAt =>
    exact ⟨rfl, rfl, fun _ h => h, .inl rfl⟩
  | scheduleRetry messageId ownerToken availableAt errorClass =>
    exact ⟨rfl, rfl, fun _ h => h, .inl rfl⟩
  | quarantine messageId ownerToken quarantinedAt errorClass =>
    refine ⟨rfl, rfl, fun id h => ?_, .inl rfl⟩
    simp only [transact]
    split
    · exact List.mem_append_left _ h
    · exact h

/-- A quarantine that takes place is on record. -/
theorem transact_quarantined (locked : Uuid → Bool) {x : OutboxMessage} {ownerToken : Uuid}
    {quarantinedAt : Time}
    {errorClass : String} (hx : x ∈ w.rows) (hown : x.ownedBy x.id ownerToken = true) :
    x.id ∈ (w.transact locked
      (.quarantine x.id ownerToken quarantinedAt errorClass)).2.quarantined := by
  have hany : (Outbox.quarantine w.rows x.id ownerToken quarantinedAt errorClass).1 = true :=
    List.any_eq_true.mpr ⟨x, hx, hown⟩
  simp only [transact, hany, if_true, List.mem_append, List.mem_singleton, or_true]

/-- Everything an effect can do: how it may be answered, and what it leaves. -/
inductive Does (w : RelayWorld) : (e : RelayEff) → Except Exn e.Resp → RelayWorld → Prop where
  | fails (e : RelayEff) (x : Exn) : Does w e (.error x) w
  | commits (t : RelayTx) (locked : Uuid → Bool) :
      Does w (.tx t) (w.transact locked t).1 (w.transact locked t).2
  | lost (t : RelayTx) (locked : Uuid → Bool) (x : Exn) :
      Does w (.tx t) (.error x) (w.transact locked t).2
  | now (t : Time) : Does w .now (.ok t) w
  | uuid (u : Uuid) : Does w .uuid (.ok u) w
  | jitter (sample : ℚ) : Does w .jitter (.ok sample) w
  | publish (m : OutboxMessage) : Does w (.publish m) (.ok ()) w
  | stopped (b : Bool) : Does w .stopped (.ok b) w
  | spawn (streams : List KeyStream) :
      Does w (.spawn streams) (.ok w.streams.length) { w with streams := w.streams ++ streams }
  | stream {n : Nat} {s : KeyStream} (h : s ∈ w.streams) : Does w (.stream n) (.ok s) w
  | done (n : Nat) :
      Does w (.done n) (.ok ()) { w with finished := Function.update w.finished n true }
  | join (first count : Nat) : Does w (.join first count) (.ok ()) w

theorem exec_does {e : RelayEff} {c : RelayChoice} {r : Except Exn e.Resp}
    (h : exec e c w = some (r, w')) : Does w e r w' := by
  cases c with
  | fault x =>
    have hraise : (if e.mayRaise x then some ((.error x : Except Exn e.Resp), w) else none) =
        some (r, w') := by
      cases e <;> exact h
    split at hraise
    · cases hraise
      exact .fails e x
    · cases hraise
  | go locked =>
    cases e with
    | tx t =>
      have hdone := Option.some.inj h
      have hr : r = (w.transact locked t).1 := congrArg Prod.fst hdone.symm
      have hw : w' = (w.transact locked t).2 := congrArg Prod.snd hdone.symm
      rw [hr, hw]
      exact .commits t locked
    | spawn streams =>
      cases h
      exact .spawn streams
    | stream n =>
      obtain ⟨s, hn, hs⟩ := Option.map_eq_some_iff.mp h
      cases hs
      exact .stream (List.mem_of_getElem? hn)
    | done n =>
      cases h
      exact .done n
    | join first count =>
      simp only [exec] at h
      split at h
      · cases h
        exact .join first count
      · cases h
    | _ => cases h
  | applied locked x =>
    cases e with
    | tx t =>
      simp only [exec] at h
      split at h
      · have hdone := Option.some.inj h
        have hr : r = .error x := congrArg Prod.fst hdone.symm
        have hw : w' = (w.transact locked t).2 := congrArg Prod.snd hdone.symm
        rw [hr, hw]
        exact .lost t locked x
      · cases h
    | _ => cases h
  | time t =>
    cases e with
    | now =>
      cases h
      exact .now t
    | _ => cases h
  | uuid u =>
    cases e with
    | uuid =>
      cases h
      exact .uuid u
    | _ => cases h
  | jitter sample =>
    cases e with
    | jitter =>
      cases h
      exact .jitter sample
    | _ => cases h
  | published outcome =>
    cases e with
    | publish m =>
      cases h
      cases outcome with
      | ok a => exact .publish m
      | error x => exact .fails _ x
    | _ => cases h
  | flag b =>
    cases e with
    | stopped =>
      cases h
      exact .stopped b
    | _ => cases h

/-- Seen from the outbox: nothing, or a statement. -/
theorem Does.table {e : RelayEff} {r : Except Exn e.Resp} (h : Does w e r w') :
    (w'.rows = w.rows ∧ w'.claims = w.claims ∧ w'.inserted = w.inserted ∧
      w'.quarantined = w.quarantined) ∨
    ∃ t locked, e = .tx t ∧ w' = (w.transact locked t).2 := by
  cases h with
  | commits t locked => exact .inr ⟨t, locked, rfl, rfl⟩
  | lost t locked x => exact .inr ⟨t, locked, rfl, rfl⟩
  | _ => exact .inl ⟨rfl, rfl, rfl, rfl⟩

/-- The list of streams grows by what is spawned. -/
theorem Does.streams {e : RelayEff} {r : Except Exn e.Resp} (h : Does w e r w') :
    w'.streams = w.streams ∨ ∃ streams, e = .spawn streams ∧ w'.streams = w.streams ++ streams := by
  cases h with
  | commits t locked => exact .inl (transact_cases w locked t).1
  | lost t locked x => exact .inl (transact_cases w locked t).1
  | spawn streams => exact .inr ⟨streams, rfl, rfl⟩
  | _ => exact .inl rfl

theorem Does.obtained {e : RelayEff} {r : Except Exn e.Resp} (h : Does w e r w')
    {s : KeyStream} (hs : e.obtained r = some s) : s ∈ w.streams := by
  cases h with
  | stream hmem =>
    cases hs
    exact hmem
  | fails x => cases e <;> cases hs
  | _ => cases hs

/-- The messages a process is given are those of a recorded claim. -/
theorem Does.batched {e : RelayEff} {r : Except Exn e.Resp} (h : Does w e r w')
    {b : KeyStream} (hb : e.batched r = some b) :
    ∃ c ∈ w'.claims, c.ownerToken = b.ownerToken ∧ c.messages = b.messages := by
  cases h with
  | commits t locked =>
    cases t with
    | claimBatch ownerToken claimedAt claimExpiresAt limit =>
      cases hc : Outbox.claimBatch w.rows locked ownerToken claimedAt claimExpiresAt limit with
      | ok out =>
        simp only [transact, hc] at hb ⊢
        cases hb
        exact ⟨_, List.mem_append_right _ (List.mem_singleton.mpr rfl), rfl, rfl⟩
      | error x =>
        simp only [transact, hc] at hb
        cases hb
    | _ => cases hb
  | lost t locked x => cases t <;> cases hb
  | fails x =>
    cases e with
    | tx t => cases t <;> cases hb
    | _ => cases hb
  | _ => cases hb

/-- Nothing leaves the history. -/
theorem Does.history {e : RelayEff} {r : Except Exn e.Resp} (h : Does w e r w') :
    (∀ c ∈ w.claims, c ∈ w'.claims) ∧ w'.inserted = w.inserted ∧
      ∀ id ∈ w.quarantined, id ∈ w'.quarantined := by
  rcases h.table with ⟨-, hclaims, hinserted, hquarantined⟩ | ⟨t, locked, -, rfl⟩
  · exact ⟨fun c hc => hclaims ▸ hc, hinserted, fun id hid => hquarantined ▸ hid⟩
  · obtain ⟨-, hinserted, hquarantined, hclaims⟩ := transact_cases w locked t
    refine ⟨fun c hc => ?_, hinserted, hquarantined⟩
    rcases hclaims with hclaims | ⟨_, _, _, _, _, _, -, -, hclaims⟩
    · exact hclaims ▸ hc
    · rw [hclaims]
      exact List.mem_append_left _ hc

/-- The same of what happens outside the relay. -/
theorem env_cases {v : Env} (hn : (w.rows.map OutboxMessage.id).Nodup) (h : env v w = some w') :
    v.call.Turn w.rows w'.rows ∧ (w'.rows.map OutboxMessage.id).Nodup ∧
      w'.streams = w.streams ∧ w'.claims = w.claims ∧ w'.quarantined = w.quarantined ∧
      (w'.inserted = w.inserted ∨ ∃ topic event, v = .publish topic event ∧
        w'.inserted = w.inserted ++ [event.row topic] ∧ event.row topic ∈ w'.rows) := by
  have hturn := OutboxCall.turn hn v.call
  have hids := OutboxCall.disciplined.ids v.call w.rows hn
  cases v with
  | publish topic event =>
    simp only [Env.call, OutboxCall.on, OutboxState.step, OutboxCall.claims] at hturn hids
    simp only [env] at h
    split at h
    · rename_i rows hrows
      cases h
      simp only [hrows] at hturn hids
      refine ⟨hturn, hids, rfl, rfl, rfl, .inr ⟨topic, event, rfl, ?_⟩⟩
      simp only [Outbox.publish] at hrows
      split at hrows
      · cases hrows
      · cases hrows
        simp [IntegrationEvent.row]
    · cases h
  | redriveQuarantined messageId availableAt =>
    cases h
    exact ⟨hturn, hids, rfl, rfl, rfl, .inl rfl⟩
  | deleteTerminalBefore locked terminalAt limit =>
    simp only [env] at h
    split at h
    · cases h
    · cases h
      refine ⟨.delete hn (fun x hx => (List.mem_filter.mp hx).1) _ _, ?_, rfl, rfl, rfl, .inl rfl⟩
      exact hn.sublist ((List.filter_sublist).map _)

end RelayWorld

/-! ## Work comes from claims -/

/-- The messages of a stream are messages of a claim, under its token. -/
def KeyStream.Backed (w : RelayWorld) (s : KeyStream) : Prop :=
  ∀ m ∈ s.messages, ∃ c ∈ w.claims, c.ownerToken = s.ownerToken ∧ m ∈ c.messages

theorem KeyStream.Backed.mono {w w' : RelayWorld} {s : KeyStream} (h : s.Backed w)
    (hclaims : ∀ c ∈ w.claims, c ∈ w'.claims) : s.Backed w' := by
  intro m hm
  obtain ⟨c, hc, htoken, hmem⟩ := h m hm
  exact ⟨c, hclaims c hc, htoken, hmem⟩

/-- What processes have in hand comes from recorded claims, a claim was made
under a spent token, and what a process takes for delivered it published. -/
structure Backing (cfg : RelayConfig) (s : RelayRecord) : Prop where
  streams : ∀ st ∈ s.state.streams, st.Backed s.state
  stream : ∀ i st, ((relayFlow cfg).after s.trace i).stream = some st → st.Backed s.state
  batch : ∀ i b, ((relayFlow cfg).after s.trace i).batch = some b → b.Backed s.state
  spent : ∀ c ∈ s.state.claims, c.ownerToken ∈ (relayTokens cfg).spends s.trace
  delivered : ∀ i, ∀ m ∈ ((relayFlow cfg).after s.trace i).delivered,
    ⟨i, .publish m, .ok ()⟩ ∈ s.trace

theorem RelayEff.delivers_cases {e : RelayEff} {r : Except Exn e.Resp} {m : OutboxMessage} {i : Nat}
    (h : e.delivers r = some m) :
    (⟨i, e, r⟩ : Event relaySig Exn) = ⟨i, .publish m, .ok ()⟩ := by
  cases e with
  | publish message =>
    cases r with
    | ok a =>
      cases h
      rfl
    | error x => cases h
  | _ => cases h

theorem Backing.act {cfg : RelayConfig} {s : RelayRecord} (h : Backing cfg s) {i : Nat}
    {e : RelayEff} {r : Except Exn e.Resp} {w : RelayWorld}
    (hpermits : ((relayFlow cfg).after s.trace i).Permits cfg.policy.maxAttempts e)
    (hx : s.state.Does e r w) : Backing cfg ⟨w, s.trace ++ [⟨i, e, r⟩]⟩ := by
  have hself : (relayFlow cfg).after (s.trace ++ [⟨i, e, r⟩]) i =
      ((relayFlow cfg).after s.trace i).next e r :=
    Flow.after_append_self s.trace ⟨i, e, r⟩
  have hother : ∀ j, j ≠ i → (relayFlow cfg).after (s.trace ++ [⟨i, e, r⟩]) j =
      (relayFlow cfg).after s.trace j :=
    fun j hj => Flow.after_append_ne s.trace hj
  obtain ⟨hclaims, -, -⟩ := hx.history
  refine ⟨fun st hst => ?_, fun j st hst => ?_, fun j b hb => ?_, fun c hc => ?_,
    fun j m hm => ?_⟩
  · rcases hx.streams with hstreams | ⟨streams, rfl, hstreams⟩
    · exact (h.streams st (hstreams ▸ hst)).mono hclaims
    · simp only [hstreams, List.mem_append] at hst
      rcases hst with hst | hst
      · exact (h.streams st hst).mono hclaims
      · -- spawned: a part of the batch of this process
        obtain ⟨batch, hbatch, htoken, hsub⟩ := hpermits st hst
        intro m hm
        obtain ⟨c, hc, hct, hmem⟩ := h.batch i batch hbatch m (hsub m hm)
        exact ⟨c, hclaims c hc, hct.trans htoken.symm, hmem⟩
  · by_cases hj : j = i
    · subst hj
      simp only [hself, RelayLocal.next, Option.or_eq_some_iff] at hst
      rcases hst with hst | ⟨-, hst⟩
      · exact (h.streams st (hx.obtained hst)).mono hclaims
      · exact (h.stream j st hst).mono hclaims
    · simp only [hother j hj] at hst
      exact (h.stream j st hst).mono hclaims
  · by_cases hj : j = i
    · subst hj
      simp only [hself, RelayLocal.next, Option.or_eq_some_iff] at hb
      rcases hb with hb | ⟨-, hb⟩
      · obtain ⟨c, hc, htoken, hmessages⟩ := hx.batched hb
        exact fun m hm => ⟨c, hc, htoken, hmessages ▸ hm⟩
      · exact (h.batch j b hb).mono hclaims
    · simp only [hother j hj] at hb
      exact (h.batch j b hb).mono hclaims
  · simp only [Tokens.spends_append, List.mem_append]
    rcases hx.table with ⟨-, hsame, -, -⟩ | ⟨t, locked, rfl, rfl⟩
    · exact .inl (h.spent c (hsame ▸ hc))
    · obtain ⟨-, -, -, hsame | ⟨ownerToken, _, _, _, batch, rows, rfl, -, hnew⟩⟩ :=
        RelayWorld.transact_cases s.state locked t
      · exact .inl (h.spent c (hsame ▸ hc))
      · simp only [hnew, List.mem_append, List.mem_singleton] at hc
        rcases hc with hc | rfl
        · exact .inl (h.spent c hc)
        · exact .inr (Option.mem_toList.mpr rfl)
  · simp only [List.mem_append, List.mem_singleton]
    by_cases hj : j = i
    · subst hj
      simp only [hself, RelayLocal.next, List.mem_append, Option.mem_toList] at hm
      rcases hm with hm | hm
      · exact .inr (RelayEff.delivers_cases hm).symm
      · exact .inl (h.delivered j m hm)
    · simp only [hother j hj] at hm
      exact .inl (h.delivered j m hm)

section Runs

variable {cfg : RelayConfig} {callees : Nat → Option RelayCallee} {C C' : RelayRun}

/-- Along every recorded run the processes keep to their flow. -/
theorem relay_kept (h : RelayReach (relayStart cfg callees) C) :
    (relayFlow cfg).Kept (fun _ _ _ => True) C := by
  refine Flow.follows_reach (fun i p hp => ?_) h
  obtain ⟨callee, -, rfl⟩ := Option.map_eq_some_iff.mp hp
  exact OutboxRelay.callee_follows callee

theorem relay_ids (h : RelayReach (relayStart cfg callees) C) :
    (C.shared.state.rows.map OutboxMessage.id).Nodup := by
  induction h with
  | refl => exact List.nodup_nil
  | tail hr hs ih =>
    obtain ⟨l, hl, -⟩ := hs
    rcases Machine.traced_step_cases hl with ⟨i, c, e, k, r, t, -, -, hx, rfl⟩ |
      ⟨v, t, -, hv, rfl⟩ | ⟨i, e, k, -, -, rfl⟩
    · rcases (RelayWorld.exec_does hx).table with ⟨hrows, -⟩ | ⟨tx, locked, -, rfl⟩
      · simp only [hrows]
        exact ih
      · simp only [RelayWorld.transact_rows]
        exact OutboxCall.disciplined.ids _ _ ih
    · exact (RelayWorld.env_cases ih hv).2.1
    · exact ih

theorem relay_backing (h : RelayReach (relayStart cfg callees) C) : Backing cfg C.shared := by
  induction h with
  | refl =>
    refine ⟨nofun, nofun, nofun, nofun, fun i m hm => ?_⟩
    cases hm
  | tail hr hs ih =>
    obtain ⟨l, hl, -⟩ := hs
    rcases Machine.traced_step_cases hl with ⟨i, c, e, k, r, t, -, hp, hx, rfl⟩ |
      ⟨v, t, -, hv, rfl⟩ | ⟨i, e, k, -, -, rfl⟩
    · exact ih.act ((relay_kept hr).permits hp) (RelayWorld.exec_does hx)
    · obtain ⟨-, -, hstreams, hclaims, -⟩ := RelayWorld.env_cases (relay_ids hr) hv
      have hmono : ∀ c ∈ _, c ∈ t.claims := fun c hc => hclaims ▸ hc
      refine ⟨fun st hst => ?_, fun j st hst => ?_, fun j b hb => ?_, fun c hc => ?_,
        ih.delivered⟩
      · exact (ih.streams st (hstreams ▸ hst)).mono hmono
      · exact (ih.stream j st hst).mono hmono
      · exact (ih.batch j b hb).mono hmono
      · exact ih.spent c (hclaims ▸ hc)
    · exact ⟨ih.streams, ih.stream, ih.batch, ih.spent, ih.delivered⟩

/-- A step of the machine, as a statement on the table: by a process that is
about to make it, by the outside, or nothing at all. -/
theorem relay_turn (h : RelayReach (relayStart cfg callees) C) {l : relayMachine.traced.Label}
    (hl : relayMachine.traced.step C l = some C') :
    C'.shared.state.rows = C.shared.state.rows ∨
    (∃ i c t k locked, l = .act i c ∧ C.pool i = some (.op (.tx t) k) ∧
      (t.call locked).Turn C.shared.state.rows C'.shared.state.rows) ∨
    ∃ v, l = .env v ∧ v.call.Turn C.shared.state.rows C'.shared.state.rows := by
  rcases Machine.traced_step_cases hl with ⟨i, c, e, k, r, t, rfl, hp, hx, rfl⟩ |
    ⟨v, t, rfl, hv, rfl⟩ | ⟨i, e, k, -, -, rfl⟩
  · rcases (RelayWorld.exec_does hx).table with ⟨hrows, -⟩ | ⟨tx, locked, rfl, rfl⟩
    · exact .inl hrows
    · refine .inr (.inl ⟨i, c, tx, k, locked, rfl, hp, ?_⟩)
      rw [RelayWorld.transact_rows]
      exact OutboxCall.turn (relay_ids h) _
  · exact .inr (.inr ⟨v, rfl, (RelayWorld.env_cases (relay_ids h) hv).1⟩)
  · exact .inl rfl

theorem relay_lifecycle (h : RelayReach (relayStart cfg callees) C) :
    ∀ x ∈ C.shared.state.rows, x.lifecycle = true := by
  induction h with
  | refl => exact nofun
  | tail hr hs ih =>
    obtain ⟨l, hl, -⟩ := hs
    rcases relay_turn hr hl with hrows | ⟨i, c, t, k, locked, -, -, hturn⟩ | ⟨v, -, hturn⟩
    · rw [hrows]
      exact ih
    · exact hturn.lifecycle ih
    · exact hturn.lifecycle ih

/-! ## A finishing write finds the row that was published -/

/-- The rows that claims handed out, with their tokens. -/
def RelayWorld.claimed (w : RelayWorld) : List (OutboxMessage × Uuid) :=
  w.claims.flatMap fun c => c.messages.map fun m => (m, c.ownerToken)

theorem RelayWorld.mem_claimed {w : RelayWorld} {c : RelayClaim} {m : OutboxMessage}
    (hc : c ∈ w.claims) (hm : m ∈ c.messages) : (m, c.ownerToken) ∈ w.claimed :=
  List.mem_flatMap.mpr ⟨c, hc, List.mem_map.mpr ⟨m, hm, rfl⟩⟩

theorem RelayTx.issues_call (locked : Uuid → Bool) (t : RelayTx) :
    (t.call locked).issues = (RelayEff.tx t).spend := by
  cases t <;> rfl

/-- While the token of a claim stands in the row, the row is as claimed. -/
theorem relay_held (h : RelayReach (relayStart cfg callees) C)
    (hd : (relayTokens cfg).Distinct C.shared.trace) :
    Table.Held OutboxMessage.id OutboxMessage.claimToken C.shared.state.claimed
      C.shared.state.rows := by
  induction h with
  | refl => exact nofun
  | tail hr hs ih =>
    rename_i D D'
    obtain ⟨l, hl, -⟩ := hs
    have hids := relay_ids (hr.tail ⟨l, hl, trivial⟩)
    rcases Machine.traced_step_cases hl with ⟨i, c, e, k, r, w, -, hp, hx, rfl⟩ |
      ⟨v, w, -, hv, rfl⟩ | ⟨i, e, k, -, -, rfl⟩
    · have hbefore := hd.initial (List.prefix_append _ _)
      have hheld := ih hbefore
      rcases (RelayWorld.exec_does hx).table with ⟨hrows, hclaims, -⟩ | ⟨t, locked, rfl, rfl⟩
      · simp only [hrows, RelayWorld.claimed, hclaims]
        exact hheld
      · -- the token of a new claim is nobody's
        have hfresh : ∀ c ∈ D.shared.state.claimed, (t.call locked).issues ≠ some c.2 := by
          intro c hc heq
          obtain ⟨claim, hclaim, hmem⟩ := List.mem_flatMap.mp hc
          obtain ⟨m, -, rfl⟩ := List.mem_map.mp hmem
          rw [RelayTx.issues_call] at heq
          have haccounted := Tokens.accounted_reach (relay_kept .refl) rfl hr hbefore
          exact haccounted.unspent hbefore ((relay_kept hr).permits hp) heq
            ((relay_backing hr).spent claim hclaim)
        have hturn := OutboxCall.turn (relay_ids hr) (t.call locked)
        rw [← RelayWorld.transact_rows] at hturn
        have hkeep := hheld.rewrite hturn.fences hfresh
        obtain ⟨-, -, -, hsame | ⟨ownerToken, _, _, _, batch, rows, rfl, hc, hnew⟩⟩ :=
          RelayWorld.transact_cases D.shared.state locked t
        · simp only [RelayWorld.claimed, hsame]
          exact hkeep
        · simp only [RelayWorld.claimed, hnew, List.flatMap_append]
          refine hkeep.claim hids fun given hgiven => ?_
          obtain ⟨claim, hclaim, hmem⟩ := List.mem_flatMap.mp hgiven
          rw [List.mem_singleton] at hclaim
          subst hclaim
          obtain ⟨m, hm, rfl⟩ := List.mem_map.mp hmem
          rw [RelayWorld.transact_rows]
          refine (OutboxCall.claimed_mem (c := RelayTx.call locked _) ?_).1
          simp only [RelayTx.call, OutboxCall.on, OutboxState.step, hc]
          exact hm
    · obtain ⟨hturn, -, -, hclaims, -⟩ := RelayWorld.env_cases (relay_ids hr) hv
      have hnone : v.call.issues = none := by cases v <;> rfl
      simp only [RelayWorld.claimed, hclaims]
      refine (ih hd).rewrite hturn.fences fun c _ heq => ?_
      rw [hnone] at heq
      cases heq
    · exact ih hd

/-- So the row of a worker's claim is the worker's message. -/
theorem worked_row (h : RelayReach (relayStart cfg callees) C)
    (hd : (relayTokens cfg).Distinct C.shared.trace) {i : Nat} {m x : OutboxMessage}
    {ownerToken : Uuid}
    (hw : ((relayFlow cfg).after C.shared.trace i).Works m ownerToken)
    (hx : x ∈ C.shared.state.rows) (hid : x.id = m.id) (htoken : x.claimToken = some ownerToken) :
    x = m := by
  obtain ⟨s, hs, rfl, hm⟩ := hw
  obtain ⟨c, hc, hct, hmem⟩ := (relay_backing h).stream i s hs m hm
  refine relay_held h hd (m, c.ownerToken) (RelayWorld.mem_claimed hc hmem) x hx hid ?_
  rw [hct]
  exact htoken

/-- A row about to be finalized is the one its worker has published. -/
theorem finalized_published (h : RelayReach (relayStart cfg callees) C)
    (hd : (relayTokens cfg).Distinct C.shared.trace) {i : Nat} {x : OutboxMessage}
    {ownerToken : Uuid} {publishedAt : Time}
    {k : Except Exn Bool → Relay RelayResult}
    (hp : C.pool i = some (.op (.tx (.finalizePublished x.id ownerToken publishedAt)) k))
    (hx : x ∈ C.shared.state.rows) (htoken : x.claimToken = some ownerToken) :
    ⟨i, .publish x, .ok ()⟩ ∈ C.shared.trace := by
  obtain ⟨m, hw, hid, hdelivered⟩ := (relay_kept h).permits hp
  rw [worked_row h hd hw hx hid.symm htoken]
  exact (relay_backing h).delivered i m hdelivered

/-! ## Nothing is lost -/

/-- A publication of the row has returned normally. -/
def Published (trace : List (Event relaySig Exn)) (m : OutboxMessage) : Prop :=
  ∃ i x, OutboxMessage.Same x m ∧ ⟨i, .publish x, .ok ()⟩ ∈ trace

/-- The row has been published, or given up. -/
def Settled (s : RelayRecord) (m : OutboxMessage) : Prop :=
  Published s.trace m ∨ m.id ∈ s.state.quarantined

theorem Settled.mono {s s' : RelayRecord} {m : OutboxMessage} (h : Settled s m)
    (htrace : s.trace <+: s'.trace)
    (hquarantined : ∀ id ∈ s.state.quarantined, id ∈ s'.state.quarantined) : Settled s' m := by
  rcases h with ⟨i, x, hsame, hmem⟩ | hmem
  · exact .inl ⟨i, x, hsame, htrace.subset hmem⟩
  · exact .inr (hquarantined _ hmem)

/-- Whatever was inserted is open or settled; and what stands before a
claimed message was settled when it was claimed. -/
structure Settling (s : RelayRecord) : Prop where
  inserted : ∀ m ∈ s.state.inserted,
    (∃ x ∈ s.state.rows, x.Same m ∧ x.terminal = false) ∨ Settled s m
  token : ∀ c ∈ s.state.claims, ∀ m ∈ c.messages, m.claimToken = some c.ownerToken
  claims : ∀ c ∈ s.state.claims, ∀ m ∈ c.messages, ∀ r ∈ c.inserted, r.key = m.key →
    r.earlier m = true → Settled s r

/-- A claim takes the first open row of a key, so what was inserted before
it is settled. -/
theorem Settling.claim {s : RelayRecord} (h : Settling s)
    (hn : (s.state.rows.map OutboxMessage.id).Nodup) {locked : Uuid → Bool} {ownerToken : Uuid}
    {claimedAt claimExpiresAt : Time} {limit : Int} {batch rows : List OutboxMessage}
    (hc : Outbox.claimBatch s.state.rows locked ownerToken claimedAt claimExpiresAt limit =
      .ok (batch, rows)) {m r : OutboxMessage} (hm : m ∈ batch) (hr : r ∈ s.state.inserted)
    (hkey : r.key = m.key) (hearlier : r.earlier m = true) : Settled s r := by
  obtain ⟨z, hz, hp, rfl⟩ := OrderInv.mem_batch
    (s := ⟨s.state.rows, 0, [], fun _ => none, []⟩) hc hm
  rcases h.inserted r hr with ⟨x, hx, hsame, hopen⟩ | hsettled
  · have hbefore : x.earlier z = true := by
      rw [OutboxMessage.earlier_same hsame]
      exact hearlier
    have hdone := (OrderInv.picked_open hn hz hp).2 x hx (hsame.2.1.trans hkey) hbefore
    rw [hopen] at hdone
    cases hdone
  · exact hsettled

/-- A unit of work leaves an open row open, or settles it. -/
theorem transact_open (h : RelayReach (relayStart cfg callees) C)
    (hd : (relayTokens cfg).Distinct C.shared.trace) {i : Nat} {t : RelayTx}
    {k : Except Exn t.Resp → Relay RelayResult} (hp : C.pool i = some (.op (.tx t) k))
    (locked : Uuid → Bool) {x : OutboxMessage} (hx : x ∈ C.shared.state.rows)
    (hopen : x.terminal = false) :
    (∃ x' ∈ (C.shared.state.transact locked t).2.rows, x'.Same x ∧ x'.terminal = false) ∨
      Published C.shared.trace x ∨ x.id ∈ (C.shared.state.transact locked t).2.quarantined := by
  have hturn := OutboxCall.turn (relay_ids h) (t.call locked)
  rw [← RelayWorld.transact_rows] at hturn
  rcases hturn.kept x hx with ⟨x', hx', hnext⟩ | hterm
  · rcases hnext.of_open hopen with hopen' | ⟨ownerToken, publishedAt, hcall, htoken⟩ |
      ⟨ownerToken, quarantinedAt, errorClass, hcall, hown⟩
    · exact .inl ⟨x', hx', hnext.sameColumns, hopen'⟩
    · cases t with
      | finalizePublished messageId ownerToken publishedAt =>
        cases hcall
        exact .inr (.inl ⟨i, x, .refl x, finalized_published h hd hp hx htoken⟩)
      | _ => cases hcall
    · cases t with
      | quarantine messageId ownerToken quarantinedAt errorClass =>
        cases hcall
        exact .inr (.inr (RelayWorld.transact_quarantined locked hx hown))
      | _ => cases hcall
  · rw [hopen] at hterm
    cases hterm

/-- A step outside the relay closes no row. -/
theorem env_open {w w' : RelayWorld} {v : RelayWorld.Env} (hturn : v.call.Turn w.rows w'.rows)
    {x : OutboxMessage} (hx : x ∈ w.rows) (hopen : x.terminal = false) :
    ∃ x' ∈ w'.rows, x'.Same x ∧ x'.terminal = false := by
  rcases hturn.kept x hx with ⟨x', hx', hnext⟩ | hterm
  · rcases hnext.of_open hopen with hopen' | ⟨_, _, hcall, -⟩ | ⟨_, _, _, hcall, -⟩
    · exact ⟨x', hx', hnext.sameColumns, hopen'⟩
    · cases v <;> cases hcall
    · cases v <;> cases hcall
  · rw [hopen] at hterm
    cases hterm

/-- A step that leaves the claims alone. -/
theorem Settling.advance {s s' : RelayRecord} (h : Settling s)
    (hclaims : s'.state.claims = s.state.claims)
    (hinserted : ∀ m ∈ s'.state.inserted,
      (∃ x ∈ s'.state.rows, x.Same m ∧ x.terminal = false) ∨ Settled s' m)
    (hsettled : ∀ {m}, Settled s m → Settled s' m) : Settling s' := by
  refine ⟨hinserted, fun c hc m hm => ?_, fun c hc m hm r hr hkey hearlier => ?_⟩
  · exact h.token c (hclaims ▸ hc) m hm
  · exact hsettled (h.claims c (hclaims ▸ hc) m hm r hr hkey hearlier)

theorem relay_settling (h : RelayReach (relayStart cfg callees) C)
    (hd : (relayTokens cfg).Distinct C.shared.trace) : Settling C.shared := by
  induction h with
  | refl => exact ⟨nofun, nofun, nofun⟩
  | tail hr hs ih =>
    rename_i D D'
    obtain ⟨l, hl, -⟩ := hs
    have hids := relay_ids hr
    rcases Machine.traced_step_cases hl with ⟨i, c, e, k, r, w, -, hp, hx, rfl⟩ |
      ⟨v, w, -, hv, rfl⟩ | ⟨i, e, k, -, -, rfl⟩
    · have hbefore := hd.initial (List.prefix_append _ _)
      have hold := ih hbefore
      have hdoes := RelayWorld.exec_does hx
      obtain ⟨-, hinserted, hquarantined⟩ := hdoes.history
      have hmono : ∀ {m : OutboxMessage}, Settled D.shared m →
          Settled ⟨w, D.shared.trace ++ [⟨i, e, r⟩]⟩ m :=
        fun hm => hm.mono (List.prefix_append _ _) hquarantined
      rcases hdoes.table with ⟨hrows, hclaims, -, -⟩ | ⟨t, locked, rfl, rfl⟩
      · refine hold.advance hclaims (fun m hm => ?_) hmono
        simp only [hinserted] at hm
        simp only [hrows]
        exact (hold.inserted m hm).imp_right hmono
      · have hopen : ∀ m ∈ (D.shared.state.transact locked t).2.inserted,
            (∃ x ∈ (D.shared.state.transact locked t).2.rows, x.Same m ∧ x.terminal = false) ∨
              Settled ⟨(D.shared.state.transact locked t).2,
                D.shared.trace ++ [⟨i, .tx t, r⟩]⟩ m := by
          intro m hm
          rw [hinserted] at hm
          rcases hold.inserted m hm with ⟨x, hrow, hsame, hopen⟩ | hm
          · rcases transact_open hr hbefore hp locked hrow hopen with
              ⟨x', hx', hsame', hopen'⟩ | ⟨j, y, hy, hmem⟩ | hmem
            · exact .inl ⟨x', hx', hsame'.trans hsame, hopen'⟩
            · exact .inr (hmono (.inl ⟨j, y, hy.trans hsame, hmem⟩))
            · exact .inr (.inr (hsame.1 ▸ hmem))
          · exact .inr (hmono hm)
        obtain ⟨-, -, -, hsame | ⟨ownerToken, _, _, _, batch, rows, rfl, hclaim, hnew⟩⟩ :=
          RelayWorld.transact_cases D.shared.state locked t
        · exact hold.advance hsame hopen hmono
        · refine ⟨hopen, fun c hc m hm => ?_, fun c hc m hm r hr hkey hearlier => ?_⟩
          · simp only [hnew, List.mem_append, List.mem_singleton] at hc
            rcases hc with hc | rfl
            · exact hold.token c hc m hm
            · obtain ⟨z, -, -, rfl⟩ := OrderInv.mem_batch
                (s := ⟨D.shared.state.rows, 0, [], fun _ => none, []⟩) hclaim hm
              rfl
          · simp only [hnew, List.mem_append, List.mem_singleton] at hc
            rcases hc with hc | rfl
            · exact hmono (hold.claims c hc m hm r hr hkey hearlier)
            · exact hmono (hold.claim hids hclaim hm hr hkey hearlier)
    · have hold := ih hd
      obtain ⟨hturn, -, -, hclaims, hquarantined, hinserted⟩ := RelayWorld.env_cases hids hv
      have hmono : ∀ {m : OutboxMessage}, Settled D.shared m → Settled ⟨w, D.shared.trace⟩ m :=
        fun hm => hm.mono List.prefix_rfl fun id hid => hquarantined ▸ hid
      have hkeep : ∀ m ∈ D.shared.state.inserted,
          (∃ x ∈ w.rows, x.Same m ∧ x.terminal = false) ∨ Settled ⟨w, D.shared.trace⟩ m := by
        intro m hm
        rcases hold.inserted m hm with ⟨x, hrow, hsame, hopen⟩ | hm
        · obtain ⟨x', hx', hsame', hopen'⟩ := env_open hturn hrow hopen
          exact .inl ⟨x', hx', hsame'.trans hsame, hopen'⟩
        · exact .inr (hmono hm)
      refine hold.advance hclaims (fun m hm => ?_) hmono
      rcases hinserted with hsame | ⟨topic, event, -, hnew, hrow⟩
      · exact hkeep m (hsame ▸ hm)
      · simp only [hnew, List.mem_append, List.mem_singleton] at hm
        rcases hm with hm | rfl
        · exact hkeep m hm
        · exact .inl ⟨_, hrow, .refl _, rfl⟩
    · exact (ih hd).advance rfl (ih hd).inserted id

/-! ## What it gives -/

/-- What is promised of the outbox in a state of a run. -/
structure OutboxDelivered (C : RelayRun) : Prop where
  /-- A row becomes SUCCESS only by the worker that claimed it, and only
  after that worker's publication of the row, as claimed, returned normally. -/
  success : ∀ l C', relayMachine.traced.step C l = some C' →
    ∀ x' ∈ C'.shared.state.rows, x'.status = .success → x' ∈ C.shared.state.rows ∨
      ∃ x ∈ C.shared.state.rows, ∃ i c ownerToken publishedAt k, x.id = x'.id ∧
        x.status = .claimed ∧ x.claimToken = some ownerToken ∧ l = .act i c ∧
        C.pool i = some (.op (.tx (.finalizePublished x.id ownerToken publishedAt)) k) ∧
        ⟨i, .publish x, .ok ()⟩ ∈ C.shared.trace
  /-- An unfinished row is never deleted. -/
  kept : ∀ l C', relayMachine.traced.step C l = some C' →
    ∀ x ∈ C.shared.state.rows, x.status = .pending ∨ x.status = .claimed →
      ∃ x' ∈ C'.shared.state.rows, x'.id = x.id
  /-- Left alone it is claimable from some time on. -/
  claimable : ∀ x ∈ C.shared.state.rows, x.status = .pending ∨ x.status = .claimed →
    ∃ due, ∀ t, due ≤ t → x.eligible t = true
  /-- When a publication returns normally, it was of a claimed row, and the
  rows before it that were inserted by the time of the claim are settled. -/
  ordered : ∀ l C', relayMachine.traced.step C l = some C' →
    ∀ i m, C'.shared.trace = C.shared.trace ++ [⟨i, .publish m, .ok ()⟩] →
      (∃ c ∈ C.shared.state.claims, m ∈ c.messages ∧ m.claimToken = some c.ownerToken) ∧
      ∀ c ∈ C.shared.state.claims, m ∈ c.messages → ∀ r ∈ c.inserted, r.key = m.key →
        r.earlier m = true →
        Published C.shared.trace r ∨ r.id ∈ C.shared.state.quarantined
  /-- Nothing is lost. -/
  accounted : ∀ m ∈ C.shared.state.inserted,
    (∃ x ∈ C.shared.state.rows, x.id = m.id ∧ (x.status = .pending ∨ x.status = .claimed)) ∨
      Published C.shared.trace m ∨ m.id ∈ C.shared.state.quarantined

theorem relay_success (h : RelayReach (relayStart cfg callees) C)
    (hd : (relayTokens cfg).Distinct C.shared.trace) {l : relayMachine.traced.Label}
    (hl : relayMachine.traced.step C l = some C') {x' : OutboxMessage}
    (hx' : x' ∈ C'.shared.state.rows) (hs : x'.status = .success) :
    x' ∈ C.shared.state.rows ∨
      ∃ x ∈ C.shared.state.rows, ∃ i c ownerToken publishedAt k, x.id = x'.id ∧
        x.status = .claimed ∧ x.claimToken = some ownerToken ∧ l = .act i c ∧
        C.pool i = some (.op (.tx (.finalizePublished x.id ownerToken publishedAt)) k) ∧
        ⟨i, .publish x, .ok ()⟩ ∈ C.shared.trace := by
  rcases relay_turn h hl with hrows | ⟨i, c, t, k, locked, rfl, hp, hturn⟩ | ⟨v, -, hturn⟩
  · exact .inl (hrows ▸ hx')
  · rcases hturn.old x' hx' with ⟨x, hx, hnext⟩ | ⟨topic, event, -, rfl, -⟩
    · rcases hnext.of_success hs with rfl | ⟨ownerToken, publishedAt, hcall, hclaimed, htoken⟩
      · exact .inl hx
      · cases t with
        | finalizePublished messageId ownerToken publishedAt =>
          cases hcall
          exact .inr ⟨x, hx, i, c, _, _, k, hnext.sameColumns.1.symm, hclaimed, htoken, rfl, hp,
            finalized_published h hd hp hx htoken⟩
        | _ => cases hcall
    · cases hs
  · rcases hturn.old x' hx' with ⟨x, hx, hnext⟩ | ⟨topic, event, -, rfl, -⟩
    · rcases hnext.of_success hs with rfl | ⟨ownerToken, publishedAt, hcall, -⟩
      · exact .inl hx
      · cases v <;> cases hcall
    · cases hs

theorem relay_rows_kept (h : RelayReach (relayStart cfg callees) C)
    {l : relayMachine.traced.Label} (hl : relayMachine.traced.step C l = some C')
    {x : OutboxMessage} (hx : x ∈ C.shared.state.rows) (hopen : x.terminal = false) :
    ∃ x' ∈ C'.shared.state.rows, x'.id = x.id := by
  have hkept : ∀ {c : OutboxCall}, c.Turn C.shared.state.rows C'.shared.state.rows →
      ∃ x' ∈ C'.shared.state.rows, x'.id = x.id := by
    intro c hturn
    rcases hturn.kept x hx with ⟨x', hx', hnext⟩ | hterm
    · exact ⟨x', hx', hnext.sameColumns.1⟩
    · rw [hopen] at hterm
      cases hterm
  rcases relay_turn h hl with hrows | ⟨i, c, t, k, locked, -, -, hturn⟩ | ⟨v, -, hturn⟩
  · exact ⟨x, hrows ▸ hx, rfl⟩
  · exact hkept hturn
  · exact hkept hturn

/-- A process publishes what a claim has given it. -/
theorem relay_published_claimed (h : RelayReach (relayStart cfg callees) C)
    (hd : (relayTokens cfg).Distinct C.shared.trace) {i : Nat} {m : OutboxMessage}
    {k : Except Exn Unit → Relay RelayResult} (hp : C.pool i = some (.op (.publish m) k)) :
    ∃ c ∈ C.shared.state.claims, m ∈ c.messages ∧ m.claimToken = some c.ownerToken := by
  obtain ⟨ownerToken, s, hs, -, hm⟩ := (relay_kept h).permits hp
  obtain ⟨c, hc, -, hmem⟩ := (relay_backing h).stream i s hs m hm
  exact ⟨c, hc, hmem, (relay_settling h hd).token c hc m hmem⟩

/-- **At-least-once delivery, in order.** -/
theorem outbox_delivered (h : RelayReach (relayStart cfg callees) C)
    (hd : (relayTokens cfg).Distinct C.shared.trace) : OutboxDelivered C where
  success l C' hl x' hx' hs := relay_success h hd hl hx' hs
  kept l C' hl x hx hs := relay_rows_kept h hl hx (OutboxMessage.open_iff.mpr hs)
  claimable x hx hs :=
    OutboxMessage.eligible_eventually (relay_lifecycle h x hx) (OutboxMessage.open_iff.mpr hs)
  ordered l C' hl i m htrace := by
    have hp : ∃ k, C.pool i = some (.op (.publish m) k) := by
      rcases Machine.traced_step_cases hl with ⟨j, c, e, k, r, t, -, hp, -, rfl⟩ |
        ⟨v, t, -, -, rfl⟩ | ⟨j, e, k, -, -, rfl⟩
      · have hlast : (⟨j, e, r⟩ : Event relaySig Exn) = ⟨i, .publish m, .ok ()⟩ := by
          simpa using htrace
        cases hlast
        exact ⟨k, hp⟩
      · simp at htrace
      · simp at htrace
    obtain ⟨k, hp⟩ := hp
    refine ⟨relay_published_claimed h hd hp, fun c hc hm r hr hkey hearlier => ?_⟩
    exact (relay_settling h hd).claims c hc m hm r hr hkey hearlier
  accounted m hm := by
    rcases (relay_settling h hd).inserted m hm with ⟨x, hx, hsame, hopen⟩ | hsettled
    · exact .inl ⟨x, hx, hsame.1, OutboxMessage.open_iff.mp hopen⟩
    · exact .inr hsettled

end Runs

namespace Sample

/-- A relay that gives up after five attempts. -/
def relay : RelayConfig where
  claimLease := 30
  policy :=
    { initialSeconds := 1
      maxSeconds := 60
      exponent := 2
      jitterRatio := 0
      maxAttempts := 5
      initialPositive := patient.initialPositive
      initialLeMax := patient.initialLeMax
      exponentAtLeastOne := patient.exponentAtLeastOne
      jitterRange := by norm_num
      attemptsPositive := by norm_num }
  leasePositive := by decide

/-- Two passes, and the streams they gather. -/
def passes : Nat → Option RelayCallee
  | 0 => some (.runOnce 10)
  | 1 => some (.stream 0)
  | 2 => some (.runOnce 10)
  | 3 => some (.stream 1)
  | _ => none

def firstRow : OutboxMessage := (registered 1 3).row "identity"

def secondRow : OutboxMessage := (registered 2 4).row "identity"

def secondClaim : OutboxMessage := secondRow.claim 8 37

/-- Two events of one user; the first is published and finalized, the second
claimed behind it and about to be published. -/
def relaying : List relayMachine.traced.Label :=
  [.env (.publish "identity" (registered 1 3)), .env (.publish "identity" (registered 2 4)),
    .act 0 (.uuid 7), .act 0 (.time 5), .act 0 (.go fun _ => false), .act 0 (.go fun _ => false),
    .act 1 (.go fun _ => false), .act 1 (.flag false), .act 1 (.published (.ok ())),
    .act 1 (.time 6), .act 1 (.go fun _ => false),
    .act 2 (.uuid 8), .act 2 (.time 7), .act 2 (.go fun _ => false), .act 2 (.go fun _ => false),
    .act 3 (.go fun _ => false), .act 3 (.flag false)]

end Sample

open Sample in
theorem outbox_delivered_second :
    ∃ C C' : RelayRun,
      relayMachine.traced.run (fun _ _ => true) (relayStart relay passes) relaying = some C ∧
      relayMachine.traced.step C (.act 3 (.published (.ok ()))) = some C' ∧
      C'.shared.trace = C.shared.trace ++ [⟨3, .publish secondClaim, .ok ()⟩] ∧
      (Published C.shared.trace firstRow ∨ firstRow.id ∈ C.shared.state.quarantined) := by
  obtain ⟨C, C', hrun, hstep, hdistinct, htrace, hclaim⟩ : ∃ (C C' : RelayRun),
      relayMachine.traced.run (fun _ _ => true) (relayStart relay passes) relaying = some C ∧
      relayMachine.traced.step C (.act 3 (.published (.ok ()))) = some C' ∧
      (relayTokens relay).Distinct C.shared.trace ∧
      C'.shared.trace = C.shared.trace ++ [⟨3, .publish secondClaim, .ok ()⟩] ∧
      ⟨8, [secondClaim], [firstRow, secondRow]⟩ ∈ C.shared.state.claims := by
    refine ⟨_, _, by with_unfolding_all rfl, by with_unfolding_all rfl, ?_, ?_, ?_⟩
    · exact (by decide : ([7, 8] : List Nat).Nodup)
    · with_unfolding_all rfl
    · exact List.mem_cons_of_mem _ (List.mem_singleton.mpr (by with_unfolding_all rfl))
  have hany : ∀ s s' : Traced relaySig Exn RelayWorld, true = true → True := fun _ _ _ => trivial
  have hreach : RelayReach (relayStart relay passes) C := Machine.reach_of_run _ hany _ _ _ hrun
  obtain ⟨-, hsettled⟩ :=
    (outbox_delivered hreach hdistinct).ordered _ C' hstep 3 secondClaim htrace
  exact ⟨C, C', hrun, hstep, htrace, hsettled _ hclaim (by simp) firstRow (by simp) rfl rfl⟩

end IdentityService
