import IdentityService.Concurrent.Flow
import IdentityService.Outbox.Repository
import IdentityService.RetryPolicy

/-!
# The relay

`OutboxRelayService.run_once`, `_publish_claimed`, `_schedule_retry` and
`_quarantine` as programs, and the machine any number of them run on. The
key streams that a pass gathers run concurrently, so each is a process of
its own: the pass puts its streams on a list, a stream process picks its
entry up, and the pass joins them; what a stream raises ends with it.

Every clock reading, publish outcome and stop signal is the outside's
choice, and so is every failure: of a unit of work before or after its
commit, or of the process between two awaits. Publications, redrives and
cleanups come at any time. Logging and the observer are left out.
-/

namespace IdentityService

open Concurrent

/-- What `OutboxRelayService` is constructed with. -/
structure RelayConfig where
  claimLease : Time
  policy : OutboxRetryPolicy
  leasePositive : 0 < claimLease

/-- The messages of one key, and the token they were claimed under. -/
structure KeyStream where
  messages : List OutboxMessage
  ownerToken : Uuid

/-! ## Effects -/

/-- The relay's units of work. -/
inductive RelayTx where
  | claimBatch (ownerToken : Uuid) (claimedAt claimExpiresAt : Time) (limit : Int)
  | finalizePublished (messageId ownerToken : Uuid) (publishedAt : Time)
  | scheduleRetry (messageId ownerToken : Uuid) (availableAt : Time) (errorClass : String)
  | quarantine (messageId ownerToken : Uuid) (quarantinedAt : Time) (errorClass : String)

@[reducible] def RelayTx.Resp : RelayTx → Type
  | .claimBatch _ _ _ _ => List OutboxMessage
  | .finalizePublished _ _ _ => Bool
  | .scheduleRetry _ _ _ _ => Bool
  | .quarantine _ _ _ _ => Bool

/-- The awaits of the relay. -/
inductive RelayEff where
  | tx (t : RelayTx)
  | now
  | uuid
  | jitter
  | publish (message : OutboxMessage)
  | stopped
  | spawn (streams : List KeyStream)
  | stream (n : Nat)
  | done (n : Nat)
  | join (first count : Nat)

@[reducible] def RelayEff.Resp : RelayEff → Type
  | .tx t => t.Resp
  | .now => Time
  | .uuid => Uuid
  | .jitter => ℚ
  | .publish _ => Unit
  | .stopped => Bool
  | .spawn _ => Nat
  | .stream _ => KeyStream
  | .done _ => Unit
  | .join _ _ => Unit

def relaySig : Sig := ⟨RelayEff, RelayEff.Resp⟩

abbrev Relay (α : Type) := Prog relaySig Exn α

namespace OutboxRelay

/-- Await one effect. -/
def await (e : RelayEff) : Relay e.Resp := Prog.perform (S := relaySig) e

/-! ## The service -/

variable (cfg : RelayConfig)

/-- `_quarantine`. -/
def quarantine (message : OutboxMessage) (ownerToken : Uuid) (errorClass : String) :
    Relay Unit := do
  let quarantinedAt ← await .now
  let _ ← await (.tx (.quarantine message.id ownerToken quarantinedAt errorClass))
  return ()

/-- `_schedule_retry`. -/
def scheduleRetry (message : OutboxMessage) (ownerToken : Uuid) (error : Exn) : Relay Unit := do
  let attempt := message.attempts + 1
  let jitterSample ← await .jitter
  let delay ← Prog.ofExcept (cfg.policy.delaySeconds attempt jitterSample)
  let now ← await .now
  let _ ← await (.tx (.scheduleRetry message.id ownerToken (now + (micros delay).toNat)
    error.className))
  return ()

/-- `_publish_claimed`. -/
def publishClaimed (message : OutboxMessage) (ownerToken : Uuid) : Relay Unit := do
  match ← (await (.publish message)).outcome with
  | .error .permanentPublish =>
    quarantine message ownerToken (Exn.className .permanentPublish)
  | .error x =>
    if x.isException then
      if cfg.policy.maxAttempts ≤ message.attempts + 1 then
        quarantine message ownerToken "RetryExhaustedError"
      else
        scheduleRetry cfg message ownerToken x
    else
      throw x
  | .ok _ => do
    let publishedAt ← await .now
    let _ ← await (.tx (.finalizePublished message.id ownerToken publishedAt))
    return ()

/-- `_process_key_stream`. -/
def processKeyStream (ownerToken : Uuid) : List OutboxMessage → Relay Unit
  | [] => return ()
  | message :: rest => do
    if ← await .stopped then
      return ()
    else
      publishClaimed cfg message ownerToken
      processKeyStream ownerToken rest

/-- `by_key`: the messages of each key in their order, the keys in order of
appearance. -/
def byKey (messages : List OutboxMessage) : List (List OutboxMessage) :=
  (messages.map OutboxMessage.key).eraseDups.map fun key => messages.filter fun m => m.key = key

/-- `run_once`. -/
def runOnce (batchSize : Int) : Relay Nat := do
  if batchSize ≤ 0 then
    throw (.valueError "batch_size must be positive")
  else
    let ownerToken ← await .uuid
    let claimedAt ← await .now
    let messages ← await (.tx (.claimBatch ownerToken claimedAt (claimedAt + cfg.claimLease)
      batchSize))
    if messages.isEmpty then return 0
    else
      let streams := (byKey messages).map fun key => (⟨key, ownerToken⟩ : KeyStream)
      let first ← await (.spawn streams)
      await (.join first streams.length)
      return messages.length

/-- A gathered key stream: `return_exceptions=True` keeps what it raises. -/
def gathered (n : Nat) : Relay Unit := do
  let stream ← await (.stream n)
  let _ ← (processKeyStream cfg stream.ownerToken stream.messages).outcome
  await (.done n)

end OutboxRelay

/-- What a process of the relay runs. -/
inductive RelayCallee where
  | runOnce (batchSize : Int)
  | stream (n : Nat)

inductive RelayResult where
  | processed (n : Nat)
  | done

def RelayCallee.program (cfg : RelayConfig) : RelayCallee → Relay RelayResult
  | .runOnce batchSize => do return .processed (← OutboxRelay.runOnce cfg batchSize)
  | .stream n => do
    OutboxRelay.gathered cfg n
    return .done

/-! ## The machine -/

/-- A claim that went through: its token, the messages as it left them, and
the rows inserted up to then. -/
structure RelayClaim where
  ownerToken : Uuid
  messages : List OutboxMessage
  inserted : List OutboxMessage

/-- The last three fields are history: the rows ever inserted, the claims,
and the ids of the rows ever quarantined. -/
structure RelayWorld where
  rows : List OutboxMessage
  streams : List KeyStream
  finished : Nat → Bool
  inserted : List OutboxMessage
  claims : List RelayClaim
  quarantined : List Uuid

/-- How the outside answers an await. -/
inductive RelayChoice where
  | go (locked : Uuid → Bool)
  | fault (x : Exn)
  | applied (locked : Uuid → Bool) (x : Exn)
  | time (t : Time)
  | uuid (u : Uuid)
  | jitter (sample : ℚ)
  | published (outcome : Except Exn Unit)
  | flag (b : Bool)

/-- The failures an await may be answered with, beyond those of `publish`. -/
def RelayEff.mayRaise : RelayEff → Exn → Bool
  | .tx _, x => x = .persistenceError || x = .persistenceUnavailable || x = .transactionConflict ||
      x = .persistenceIntegrity || x = .cancelled
  | .join _ _, x => x = .cancelled
  | _, _ => false

namespace RelayWorld

def start : RelayWorld := ⟨[], [], fun _ => false, [], [], []⟩

/-- A unit of work that the database does not fail. -/
def transact (w : RelayWorld) (locked : Uuid → Bool) :
    (t : RelayTx) → Except Exn t.Resp × RelayWorld
  | .claimBatch ownerToken claimedAt claimExpiresAt limit =>
    match Outbox.claimBatch w.rows locked ownerToken claimedAt claimExpiresAt limit with
    | .ok (batch, rows) =>
      (.ok batch, { w with rows := rows, claims := w.claims ++ [⟨ownerToken, batch, w.inserted⟩] })
    | .error x => (.error x, w)
  | .finalizePublished messageId ownerToken publishedAt =>
    let out := Outbox.finalizePublished w.rows messageId ownerToken publishedAt
    (.ok out.1, { w with rows := out.2 })
  | .scheduleRetry messageId ownerToken availableAt errorClass =>
    let out := Outbox.scheduleRetry w.rows messageId ownerToken availableAt errorClass
    (.ok out.1, { w with rows := out.2 })
  | .quarantine messageId ownerToken quarantinedAt errorClass =>
    let out := Outbox.quarantine w.rows messageId ownerToken quarantinedAt errorClass
    (.ok out.1, { w with
      rows := out.2
      quarantined := if out.1 then w.quarantined ++ [messageId] else w.quarantined })

/-- How an await is answered; `none` where it has to wait. -/
def exec (e : RelayEff) (c : RelayChoice) (w : RelayWorld) :
    Option (Except Exn e.Resp × RelayWorld) :=
  match e, c with
  | e, .fault x => if e.mayRaise x then some (.error x, w) else none
  | .tx t, .go locked => some (w.transact locked t)
  | .tx t, .applied locked x =>
    if (RelayEff.tx t).mayRaise x then some (.error x, (w.transact locked t).2) else none
  | .now, .time t => some (.ok t, w)
  | .uuid, .uuid u => some (.ok u, w)
  | .jitter, .jitter sample => some (.ok sample, w)
  | .publish _, .published outcome => some (outcome, w)
  | .stopped, .flag b => some (.ok b, w)
  | .spawn streams, .go _ => some (.ok w.streams.length, { w with streams := w.streams ++ streams })
  | .stream n, .go _ => w.streams[n]?.map fun s => (.ok s, w)
  | .done n, .go _ => some (.ok (), { w with finished := Function.update w.finished n true })
  | .join first count, .go _ =>
    if (List.range count).all fun k => w.finished (first + k) then some (.ok (), w) else none
  | _, _ => none

/-- What happens to the outbox outside the relay: publications, redrives,
and cleanups that pass over locked rows. -/
inductive Env where
  | publish (topic : String) (event : IntegrationEvent)
  | redriveQuarantined (messageId : Uuid) (availableAt : Time)
  | deleteTerminalBefore (locked : Uuid → Bool) (terminalAt : Time) (limit : Int)

/-- What happens besides: publications, redrives and the cleanup. -/
def env : Env → RelayWorld → Option RelayWorld
  | .publish topic event, w =>
    match Outbox.publish w.rows topic event with
    | .ok rows => some { w with
        rows := rows, inserted := w.inserted ++ rows.drop w.rows.length }
    | .error _ => none
  | .redriveQuarantined messageId availableAt, w =>
    some { w with rows := (Outbox.redriveQuarantined w.rows messageId availableAt).2 }
  | .deleteTerminalBefore locked terminalAt limit, w =>
    if limit ≤ 0 then none
    else
      let free := w.rows.filter fun m => !locked m.id
      let ids := (Outbox.removable free terminalAt limit.toNat).map OutboxMessage.id
      some { w with rows := w.rows.filter fun m => !ids.contains m.id }

end RelayWorld

/-- Any number of relays on one outbox. -/
def relayMachine : Machine relaySig Exn RelayWorld where
  Choice := RelayChoice
  Env := RelayWorld.Env
  exec _ := RelayWorld.exec
  env := RelayWorld.env
  kill _ w := w

abbrev RelayRecord := Traced relaySig Exn RelayWorld

abbrev RelayRun := Config relaySig Exn RelayRecord RelayResult

/-- Any number of processes on an empty outbox, nothing recorded. -/
def relayStart (cfg : RelayConfig) (callees : Nat → Option RelayCallee) : RelayRun :=
  ⟨⟨.start, []⟩, fun i => (callees i).map (RelayCallee.program cfg)⟩

abbrev RelayReach : RelayRun → RelayRun → Prop := relayMachine.traced.Reach fun _ _ => True

/-! ## What a relay process does, in order

A process publishes only messages of its stream, finalizes only what it has
published, and retries only below the limit. -/

/-- What a process knows from its own answers: the stream it works on, the
messages its last claim gave it and under which token, the messages whose
publication returned normally, and the UUIDs it has drawn and not spent. -/
structure RelayLocal where
  stream : Option KeyStream
  batch : Option KeyStream
  delivered : List OutboxMessage
  drawn : List Uuid

namespace RelayEff

/-- The stream that an answer gives a process. -/
def obtained : (e : RelayEff) → Except Exn e.Resp → Option KeyStream
  | .stream _, .ok s => some s
  | _, _ => none

/-- The batch that a claim answers with. -/
def batched : (e : RelayEff) → Except Exn e.Resp → Option KeyStream
  | .tx (.claimBatch ownerToken _ _ _), .ok messages => some ⟨messages, ownerToken⟩
  | _, _ => none

/-- The message that the broker has acknowledged. -/
def delivers : (e : RelayEff) → Except Exn e.Resp → Option OutboxMessage
  | .publish message, .ok _ => some message
  | _, _ => none

def draw : (e : RelayEff) → Except Exn e.Resp → Option Uuid
  | .uuid, .ok u => some u
  | _, _ => none

/-- The token a claim puts into rows. -/
def spend : RelayEff → Option Uuid
  | .tx (.claimBatch ownerToken _ _ _) => some ownerToken
  | _ => none

end RelayEff

namespace RelayLocal

def start : RelayLocal := ⟨none, none, [], []⟩

def next (l : RelayLocal) (e : RelayEff) (r : Except Exn e.Resp) : RelayLocal where
  stream := (e.obtained r).or l.stream
  batch := (e.batched r).or l.batch
  delivered := (e.delivers r).toList ++ l.delivered
  drawn :=
    match e.draw r with
    | some u => u :: l.drawn
    | none =>
      match e.spend with
      | some t => l.drawn.erase t
      | none => l.drawn

/-- The process works on this message under this token. -/
def Works (l : RelayLocal) (message : OutboxMessage) (ownerToken : Uuid) : Prop :=
  ∃ s, l.stream = some s ∧ s.ownerToken = ownerToken ∧ message ∈ s.messages

/-- Which effects are in order. -/
def Permits (maxAttempts : Nat) (l : RelayLocal) : RelayEff → Prop
  | .publish message => ∃ ownerToken, l.Works message ownerToken
  | .tx (.finalizePublished messageId ownerToken _) =>
      ∃ m, l.Works m ownerToken ∧ m.id = messageId ∧ m ∈ l.delivered
  | .tx (.scheduleRetry messageId ownerToken _ _) =>
      ∃ m, l.Works m ownerToken ∧ m.id = messageId ∧ m.attempts + 1 < maxAttempts
  | .tx (.claimBatch ownerToken _ _ _) => ownerToken ∈ l.drawn
  | .spawn streams => ∀ s ∈ streams, ∃ batch, l.batch = some batch ∧
      s.ownerToken = batch.ownerToken ∧ ∀ m ∈ s.messages, m ∈ batch.messages
  | _ => True

end RelayLocal

/-- What a process of the relay does, in order. -/
def relayFlow (cfg : RelayConfig) : Flow relaySig Exn where
  State := RelayLocal
  start := .start
  permits := RelayLocal.Permits cfg.policy.maxAttempts
  next := RelayLocal.next

/-- The owner tokens of the passes. -/
def relayTokens (cfg : RelayConfig) : Tokens (relayFlow cfg) Uuid where
  draw := RelayEff.draw
  spend := RelayEff.spend
  held l := RelayLocal.drawn l
  start := rfl
  drawn l e r t h := by simp [relayFlow, RelayLocal.next, h]
  spent l e r t h hs := by simp [relayFlow, RelayLocal.next, h, hs]
  idle l e r h hs := by simp [relayFlow, RelayLocal.next, h, hs]
  permitted l e t hp hs := by
    cases e with
    | tx tx =>
      cases tx with
      | claimBatch ownerToken claimedAt claimExpiresAt limit =>
        cases hs
        exact hp
      | _ => cases hs
    | _ => cases hs
  apart e r t h := by
    cases e with
    | uuid => rfl
    | _ => cases h

namespace OutboxRelay

variable {cfg : RelayConfig} {l : RelayLocal} {m : OutboxMessage} {ownerToken : Uuid}

/-- The stream stays what it is. -/
def Onward (s : Option KeyStream) {α : Type} (_ : Except Exn α) (l : RelayLocal) : Prop :=
  l.stream = s

theorem next_stream {e : RelayEff} {r : Except Exn e.Resp} (h : e.obtained r = none) :
    (l.next e r).stream = l.stream := by
  simp [RelayLocal.next, h]

theorem works_next {e : RelayEff} {r : Except Exn e.Resp} (hw : l.Works m ownerToken)
    (h : e.obtained r = none) : (l.next e r).Works m ownerToken := by
  obtain ⟨s, hs, hrest⟩ := hw
  exact ⟨s, (next_stream h).trans hs, hrest⟩

/-- One await that leaves the stream alone, and what comes after it. -/
theorem follows_await {β : Type} {s : Option KeyStream} {e : RelayEff} {f : e.Resp → Relay β}
    (hp : l.Permits cfg.policy.maxAttempts e) (hs : l.stream = s)
    (hquiet : ∀ r, e.obtained r = none)
    (hok : ∀ a, (relayFlow cfg).Follows (f a) (l.next e (.ok a)) (Onward s)) :
    (relayFlow cfg).Follows ((await e).bind f) l (Onward s) := by
  refine Flow.Follows.bind (Flow.Follows.perform hp fun r => rfl : (relayFlow cfg).Follows
    (await e) l fun r l' => l' = l.next e r) ?_ ?_
  · rintro a l' rfl
    exact hok a
  · rintro x l' rfl
    exact (next_stream (hquiet _)).trans hs

theorem quarantine_follows (errorClass : String) :
    (relayFlow cfg).Follows (quarantine m ownerToken errorClass) l (Onward l.stream) := by
  refine follows_await trivial rfl (fun _ => rfl) fun quarantinedAt => ?_
  refine follows_await trivial rfl (fun _ => rfl) fun _ => ?_
  exact rfl

theorem scheduleRetry_follows (hw : l.Works m ownerToken)
    (hmore : m.attempts + 1 < cfg.policy.maxAttempts) (error : Exn) :
    (relayFlow cfg).Follows (scheduleRetry cfg m ownerToken error) l (Onward l.stream) := by
  refine follows_await trivial rfl (fun _ => rfl) fun jitterSample => ?_
  cases cfg.policy.delaySeconds (m.attempts + 1) jitterSample with
  | error x => exact rfl
  | ok delay =>
    refine follows_await trivial rfl (fun _ => rfl) fun now => ?_
    refine follows_await ⟨m, ?_, rfl, hmore⟩ rfl (fun _ => rfl) fun _ => ?_
    · exact works_next (works_next hw rfl) rfl
    · exact rfl

theorem publishClaimed_follows (hw : l.Works m ownerToken) :
    (relayFlow cfg).Follows (publishClaimed cfg m ownerToken) l (Onward l.stream) := by
  have hcall : (relayFlow cfg).Follows (await (.publish m)) l
      fun r l' => l' = l.next (.publish m) r :=
    Flow.Follows.perform ⟨ownerToken, hw⟩ fun _ => rfl
  refine hcall.attempt fun r l' hl' => ?_
  subst hl'
  have hworks : (l.next (.publish m) r).Works m ownerToken := works_next hw rfl
  cases r with
  | ok a =>
    refine follows_await trivial rfl (fun _ => rfl) fun publishedAt => ?_
    refine follows_await ⟨m, works_next hworks rfl, rfl, ?_⟩ rfl (fun _ => rfl) fun _ => ?_
    · exact List.mem_cons_self
    · exact rfl
  | error x =>
    have hcaught : (relayFlow cfg).Follows
        (if x.isException then
          if cfg.policy.maxAttempts ≤ m.attempts + 1 then
            quarantine m ownerToken "RetryExhaustedError"
          else scheduleRetry cfg m ownerToken x
        else throw x) (l.next (.publish m) (.error x)) (Onward l.stream) := by
      split
      · split
        · exact quarantine_follows _
        · rename_i hmore
          exact scheduleRetry_follows hworks (Nat.lt_of_not_le hmore) x
      · exact rfl
    cases x with
    | permanentPublish => exact quarantine_follows _
    | _ => exact hcaught

theorem processKeyStream_follows {messages : List OutboxMessage} {s : KeyStream}
    (hs : l.stream = some s) (hsub : ∀ m ∈ messages, m ∈ s.messages) :
    (relayFlow cfg).Follows (processKeyStream cfg s.ownerToken messages) l
      (Onward (some s)) := by
  induction messages generalizing l with
  | nil => exact hs
  | cons m rest ih =>
    refine follows_await trivial hs (fun _ => rfl) fun stopped => ?_
    cases stopped with
    | true => exact hs
    | false =>
      have hstream : (l.next .stopped (.ok false)).stream = some s := hs
      have hworks : (l.next .stopped (.ok false)).Works m s.ownerToken :=
        ⟨s, hstream, rfl, hsub m (by simp)⟩
      refine (publishClaimed_follows hworks).bind (fun _ l' hl' => ?_) fun _ l' hl' => ?_
      · refine ih ?_ fun x hx => hsub x (by simp [hx])
        exact hl'.trans hstream
      · exact hl'.trans hstream

/-- A stream of a batch holds messages of the batch. -/
theorem mem_of_byKey {messages key : List OutboxMessage} (h : key ∈ byKey messages)
    (hm : m ∈ key) : m ∈ messages := by
  obtain ⟨k, -, rfl⟩ := List.mem_map.mp h
  exact (List.mem_filter.mp hm).1

theorem runOnce_follows (batchSize : Int) :
    (relayFlow cfg).Follows (runOnce cfg batchSize) l (Onward l.stream) := by
  simp only [runOnce]
  split
  · exact rfl
  · refine follows_await trivial rfl (fun _ => rfl) fun ownerToken => ?_
    refine follows_await trivial rfl (fun _ => rfl) fun claimedAt => ?_
    refine follows_await (List.mem_cons_self : ownerToken ∈ ownerToken :: l.drawn) rfl
      (fun _ => rfl) fun messages => ?_
    split
    · exact rfl
    · refine follows_await ?_ rfl (fun _ => rfl) fun first => ?_
      · intro s hs
        obtain ⟨key, hkey, rfl⟩ := List.mem_map.mp hs
        exact ⟨⟨messages, ownerToken⟩, rfl, rfl, fun m hm => mem_of_byKey hkey hm⟩
      · exact follows_await trivial rfl (fun _ => rfl) fun _ => rfl

theorem gathered_follows (n : Nat) :
    (relayFlow cfg).Follows (gathered cfg n) l fun _ _ => True := by
  refine ⟨trivial, fun r => ?_⟩
  cases r with
  | error x => exact trivial
  | ok s =>
    have hstream : (l.next (.stream n) (.ok s)).stream = some s := rfl
    refine (processKeyStream_follows hstream fun m hm => hm).attempt fun r l' _ => ?_
    exact Flow.Follows.perform trivial fun _ => trivial

theorem callee_follows (callee : RelayCallee) :
    (relayFlow cfg).Follows (callee.program cfg) .start fun _ _ => True := by
  cases callee with
  | runOnce batchSize =>
    exact (runOnce_follows batchSize).bind (fun _ _ _ => trivial) fun _ _ _ => trivial
  | stream n => exact (gathered_follows n).bind (fun _ _ _ => trivial) fun _ _ _ => trivial

end OutboxRelay

end IdentityService
