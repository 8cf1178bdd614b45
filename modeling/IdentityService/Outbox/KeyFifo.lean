import IdentityService.Concurrent.Record
import IdentityService.Outbox.Delivery
import Mathlib.Data.List.Induction

/-!
# The order within a key

What `run_once` does after its claim, for any claimed batch: the streams
of its keys, gathered, beside any other processes. A stream hands its
messages to the publisher in their order in the batch. It ends where
a finishing write fails, but goes on after it has scheduled a retry, so
a later message of the key may be published before an earlier one: only
when no message with a successor fails in that way is every message
settled before the next one of its key goes out.
-/

namespace IdentityService

open Concurrent

namespace RelayEff

def publishes : RelayEff → Option OutboxMessage
  | .publish m => some m
  | _ => none

/-- A finishing write that returned: the message is terminal, or the claim on
it was lost and the write answered `False`, which the relay does not read. -/
def settles : (e : RelayEff) → Except Exn e.Resp → Option Uuid
  | .tx (.finalizePublished messageId _ _), .ok _ => some messageId
  | .tx (.quarantine messageId _ _ _), .ok _ => some messageId
  | _, _ => none

/-- A message left non-terminal: for a retry, or because its finishing write
failed. -/
def leaves : (e : RelayEff) → Except Exn e.Resp → Option Uuid
  | .tx (.scheduleRetry messageId _ _ _), _ => some messageId
  | .tx (.finalizePublished messageId _ _), .error _ => some messageId
  | .tx (.quarantine messageId _ _ _), .error _ => some messageId
  | _, _ => none

/-- A publication that failed and is to be tried again. -/
def retries (cfg : RelayConfig) : (e : RelayEff) → Except Exn e.Resp → Bool
  | .publish m, .error x =>
    x.isException && x ≠ .permanentPublish && m.attempts + 1 < cfg.policy.maxAttempts
  | _, _ => false

end RelayEff

namespace OutboxRelay

/-- `_process_key_stream` as `gather` runs it. -/
def keyStream (cfg : RelayConfig) (ownerToken : Uuid) (key : List OutboxMessage) :
    Relay RelayResult := do
  let _ ← (processKeyStream cfg ownerToken key).outcome
  return .done

/-- `run_once` once it has gathered the streams of its batch, on any table
and with any other processes around it. -/
def passStart (cfg : RelayConfig) (ownerToken : Uuid) (messages : List OutboxMessage)
    (others : Nat → Option (Relay RelayResult)) (w : RelayWorld) : RelayRun :=
  ⟨⟨w, []⟩, fun i =>
    match (byKey messages)[i]? with
    | some key => some (keyStream cfg ownerToken key)
    | none => others i⟩

/-- After a claim, `run_once` gathers the streams of the claimed batch. -/
theorem runOnce_gathers (cfg : RelayConfig) {batchSize : Int} (hsize : 0 < batchSize)
    (ownerToken : Uuid) (claimedAt : Time) {messages : List OutboxMessage}
    (hmessages : messages ≠ []) :
    let streams := (byKey messages).map fun key => (⟨key, ownerToken⟩ : KeyStream)
    (runOnce cfg batchSize).Leaves
      [⟨.uuid, .ok ownerToken⟩, ⟨.now, .ok claimedAt⟩,
        ⟨.tx (.claimBatch ownerToken claimedAt (claimedAt + cfg.claimLease) batchSize),
          .ok messages⟩]
      ((await (.spawn streams)).bind fun first =>
        (await (.join first streams.length)).bind fun _ => .ret messages.length) := by
  intro streams
  have hsize' : ¬ batchSize ≤ 0 := by omega
  simp only [runOnce, if_neg hsize']
  refine .some (.some (.some ?_))
  have hempty : messages.isEmpty = false := by simpa using hmessages
  have hrest : (if messages.isEmpty then (.ret 0 : Relay Nat)
      else (await (.spawn streams)).bind fun first =>
        (await (.join first streams.length)).bind fun _ => .ret messages.length) =
      (await (.spawn streams)).bind fun first =>
        (await (.join first streams.length)).bind fun _ => .ret messages.length := by
    rw [hempty]
    rfl
  rw [← hrest]
  exact .none _

/-! ## What one stream does -/

/-- What a stream has done: the messages handed to the publisher, those
settled, those left non-terminal, and whether no retry was due before the
last message. -/
structure KeyLocal where
  handed : List OutboxMessage
  settled : List Uuid
  left : List Uuid
  spared : Bool

namespace KeyLocal

/-- Nothing has been handed to the broker. -/
def start : KeyLocal := ⟨[], [], [], true⟩

/-- How an answer changes what a stream knows. -/
def next (cfg : RelayConfig) (key : List OutboxMessage) (l : KeyLocal) (e : RelayEff)
    (r : Except Exn e.Resp) : KeyLocal where
  handed := l.handed ++ e.publishes.toList
  settled := l.settled ++ (e.settles r).toList
  left := l.left ++ (e.leaves r).toList
  spared := l.spared && !(e.retries cfg r && l.handed.length + 1 < key.length)

/-- Everything handed over is settled. -/
def Clear (l : KeyLocal) : Prop := l.settled = l.handed.map OutboxMessage.id ∧ l.left = []

/-- A message is handed over in its turn, and unless a retry was due
everything before it is settled. -/
def Permits (key : List OutboxMessage) (l : KeyLocal) : RelayEff → Prop
  | .publish m => l.handed ++ [m] <+: key ∧ (l.spared = true → l.Clear)
  | _ => True

end KeyLocal

/-- What a stream of one key does, in order. -/
def keyFlow (cfg : RelayConfig) (key : List OutboxMessage) : Flow relaySig Exn where
  State := KeyLocal
  start := .start
  permits := KeyLocal.Permits key
  next := KeyLocal.next cfg key

/-- What a stream has done, by its record. -/
def done (cfg : RelayConfig) (key : List OutboxMessage) (record : List (Answer relaySig Exn)) :
    KeyLocal :=
  (keyFlow cfg key).along KeyLocal.start record

theorem done_snoc (cfg : RelayConfig) (key : List OutboxMessage)
    (record : List (Answer relaySig Exn)) (a : Answer relaySig Exn) :
    done cfg key (record ++ [a]) = (done cfg key record).next cfg key a.op a.resp :=
  Flow.along_snoc _ _ _

section
variable {cfg : RelayConfig} {key rest : List OutboxMessage} {l : KeyLocal} {m : OutboxMessage}
  {ownerToken : Uuid}

/-- After a message: it was handed over, and is settled unless a retry was
due or it was the last. -/
def Past (rest : List OutboxMessage) (handed : List OutboxMessage) (r : Except Exn Unit)
    (l : KeyLocal) : Prop :=
  r = .ok () → l.handed = handed ∧ (rest ≠ [] → l.spared = true → l.Clear)

/-- An await that neither publishes nor writes. -/
theorem keyFollows_quiet {α : Type} {e : RelayEff} {f : e.Resp → Relay α}
    {Q : Except Exn α → KeyLocal → Prop}
    (hquiet : ∀ r, l.next cfg key e r = l) (hpermits : l.Permits key e)
    (hok : ∀ a, (keyFlow cfg key).Follows (f a) l Q) (herr : ∀ x, Q (.error x) l) :
    (keyFlow cfg key).Follows ((await e).bind f) l Q := by
  refine Flow.Follows.bind (Flow.Follows.perform hpermits hquiet : (keyFlow cfg key).Follows
    (await e) l fun _ l' => l' = l) ?_ ?_
  · intro a l' hl'
    rw [hl']
    exact hok a
  · intro x l' hl'
    rw [hl']
    exact herr x

theorem next_quiet {e : RelayEff} {r : Except Exn e.Resp} (hp : e.publishes = none)
    (hs : e.settles r = none) (hl : e.leaves r = none) (ht : e.retries cfg r = false) :
    l.next cfg key e r = l := by
  simp [KeyLocal.next, hp, hs, hl, ht]

/-- The last write of a message, after which it is settled if the write
returns. -/
theorem keyFollows_write {t : RelayTx} {f : t.Resp → Relay Unit}
    {Q : Except Exn Unit → KeyLocal → Prop}
    (hf : ∀ a, f a = .ret ())
    (hok : ∀ a, Q (.ok ()) (l.next cfg key (.tx t) (.ok a)))
    (herr : ∀ x, Q (.error x) (l.next cfg key (.tx t) (.error x))) :
    (keyFlow cfg key).Follows ((await (.tx t)).bind f) l Q := by
  refine Flow.Follows.bind (Flow.Follows.perform (by cases t <;> trivial) fun r => rfl :
    (keyFlow cfg key).Follows (await (.tx t)) l fun r l' => l' = l.next cfg key (.tx t) r) ?_ ?_
  · intro a l' hl'
    rw [hl', hf a]
    exact hok a
  · intro x l' hl'
    rw [hl']
    exact herr x

/-- The message handed over last is all that is not settled. -/
def Ready (m : OutboxMessage) (l : KeyLocal) : Prop :=
  l.spared = true → l.settled ++ [m.id] = l.handed.map OutboxMessage.id ∧ l.left = []

theorem quarantine_keyFollows (hready : Ready m l) (errorClass : String) :
    (keyFlow cfg key).Follows (quarantine m ownerToken errorClass) l (Past rest l.handed) := by
  refine keyFollows_quiet (fun r => next_quiet rfl rfl rfl rfl) trivial (fun quarantinedAt => ?_)
    fun x h => by cases h
  refine keyFollows_write (fun _ => rfl) (fun a _ => ?_) fun x h => by cases h
  refine ⟨by simp [KeyLocal.next, RelayEff.publishes], fun _ hspared => ?_⟩
  have hclear := hready (by simpa [KeyLocal.next, RelayEff.retries] using hspared)
  simpa [KeyLocal.Clear, KeyLocal.next, RelayEff.publishes, RelayEff.settles, RelayEff.leaves]
    using hclear

theorem finalize_keyFollows (hready : Ready m l) :
    (keyFlow cfg key).Follows
      ((await .now).bind fun publishedAt =>
        (await (.tx (.finalizePublished m.id ownerToken publishedAt))).bind fun _ => .ret ()) l
      (Past rest l.handed) := by
  refine keyFollows_quiet (fun r => next_quiet rfl rfl rfl rfl) trivial (fun publishedAt => ?_)
    fun x h => by cases h
  refine keyFollows_write (fun _ => rfl) (fun a _ => ?_) fun x h => by cases h
  refine ⟨by simp [KeyLocal.next, RelayEff.publishes], fun _ hspared => ?_⟩
  have hclear := hready (by simpa [KeyLocal.next, RelayEff.retries] using hspared)
  simpa [KeyLocal.Clear, KeyLocal.next, RelayEff.publishes, RelayEff.settles, RelayEff.leaves]
    using hclear

/-- A retry leaves the message behind; the stream goes on. -/
theorem scheduleRetry_keyFollows (hdue : rest ≠ [] → l.spared = false) (error : Exn) :
    (keyFlow cfg key).Follows (scheduleRetry cfg m ownerToken error) l (Past rest l.handed) := by
  refine keyFollows_quiet (fun r => next_quiet rfl rfl rfl rfl) trivial (fun jitterSample => ?_)
    fun x h => by cases h
  cases cfg.policy.delaySeconds (m.attempts + 1) jitterSample with
  | error x => exact fun h => by cases h
  | ok delay =>
    refine keyFollows_quiet (fun r => next_quiet rfl rfl rfl rfl) trivial (fun now => ?_)
      fun x h => by cases h
    refine keyFollows_write (fun _ => rfl) (fun a _ => ?_) fun x h => by cases h
    refine ⟨by simp [KeyLocal.next, RelayEff.publishes], fun hrest hspared => ?_⟩
    simp [KeyLocal.next, hdue hrest] at hspared

theorem publishClaimed_keyFollows (hkey : l.handed ++ m :: rest = key)
    (hclear : l.spared = true → l.Clear) :
    (keyFlow cfg key).Follows (publishClaimed cfg m ownerToken) l
      (Past rest (l.handed ++ [m])) := by
  have hpermits : l.Permits key (.publish m) := by
    refine ⟨?_, hclear⟩
    rw [← hkey]
    exact ⟨rest, by simp⟩
  have hcall : (keyFlow cfg key).Follows (await (.publish m)) l
      fun r l' => l' = l.next cfg key (.publish m) r :=
    Flow.Follows.perform hpermits fun _ => rfl
  refine hcall.attempt fun r l' hl' => ?_
  have hhanded : l'.handed = l.handed ++ [m] := by rw [hl']; rfl
  have hready : Ready m l' := by
    intro hspared
    subst hl'
    simp only [KeyLocal.next, Bool.and_eq_true] at hspared
    obtain ⟨hsettled, hleft⟩ := hclear hspared.1
    constructor
    · simp [KeyLocal.next, RelayEff.settles, RelayEff.publishes, hsettled]
    · simp [KeyLocal.next, RelayEff.leaves, hleft]
  rw [← hhanded]
  cases r with
  | ok a => exact finalize_keyFollows hready
  | error x =>
    have hcaught (hx : x ≠ .permanentPublish) : (keyFlow cfg key).Follows
        (if x.isException then
          if cfg.policy.maxAttempts ≤ m.attempts + 1 then
            quarantine m ownerToken "RetryExhaustedError"
          else scheduleRetry cfg m ownerToken x
        else throw x) l' (Past rest l'.handed) := by
      split
      · split
        · exact quarantine_keyFollows hready _
        · rename_i hexception hmore
          refine scheduleRetry_keyFollows (fun hrest => ?_) x
          -- the message has a successor, and a retry is due
          have hlast : l.handed.length + 1 < key.length := by
            have := List.length_pos_iff.mpr hrest
            rw [← hkey]
            simp only [List.length_append, List.length_cons]
            omega
          subst hl'
          simp [KeyLocal.next, RelayEff.retries, hexception, hx, hlast, Nat.lt_of_not_le hmore]
      · exact fun h => by cases h
    cases x with
    | permanentPublish => exact quarantine_keyFollows hready _
    | _ => exact hcaught (by simp)

theorem processKeyStream_keyFollows {messages : List OutboxMessage}
    (hkey : l.handed ++ messages = key)
    (hclear : messages ≠ [] → l.spared = true → l.Clear) :
    (keyFlow cfg key).Follows (processKeyStream cfg ownerToken messages) l fun _ _ => True := by
  induction messages generalizing l with
  | nil => exact trivial
  | cons m rest ih =>
    refine keyFollows_quiet (fun r => next_quiet rfl rfl rfl rfl) trivial (fun stopped => ?_)
      fun _ => trivial
    cases stopped with
    | true => exact trivial
    | false =>
      refine (publishClaimed_keyFollows hkey (hclear (by simp))).bind (fun a l' hl' => ?_)
        fun _ _ _ => trivial
      obtain ⟨hhanded, hclear'⟩ := hl' rfl
      exact ih (by rw [hhanded, ← hkey]; simp) hclear'

theorem keyStream_follows :
    (keyFlow cfg key).Follows (keyStream cfg ownerToken key) .start fun _ _ => True := by
  have hstream : (keyFlow cfg key).Follows (processKeyStream cfg ownerToken key) .start
      fun _ _ => True :=
    processKeyStream_keyFollows rfl fun _ _ => ⟨rfl, rfl⟩
  exact hstream.attempt fun _ _ _ => trivial

end

/-! ## What a pass does -/

/-- The messages of a key that the streams of a pass handed to the
publisher, in order. -/
def published (streams : Nat) (key : String) (trace : List (Event relaySig Exn)) :
    List OutboxMessage :=
  trace.filterMap fun e =>
    if e.pid < streams then (RelayEff.publishes e.op).filter fun m => m.key = key else none

/-- The messages a stream has settled. -/
def settledBy (i : Nat) (trace : List (Event relaySig Exn)) : List Uuid :=
  (own trace i).filterMap fun a => RelayEff.settles a.op a.resp

/-- The messages a stream has left non-terminal. -/
def leftBy (i : Nat) (trace : List (Event relaySig Exn)) : List Uuid :=
  (own trace i).filterMap fun a => RelayEff.leaves a.op a.resp

/-- Only the last message of its key in the batch is ever due for
a retry. -/
def Spared (cfg : RelayConfig) (messages : List OutboxMessage)
    (trace : List (Event relaySig Exn)) : Prop :=
  ∀ before i m x after, trace = before ++ ⟨i, .publish m, .error x⟩ :: after →
    i < (byKey messages).length → RelayEff.retries cfg (.publish m) (.error x) = true →
    published (byKey messages).length m.key before ++ [m] =
      messages.filter fun n => n.key = m.key

theorem spared_of_none {cfg : RelayConfig} {messages : List OutboxMessage}
    {trace : List (Event relaySig Exn)}
    (h : (trace.all fun e => !RelayEff.retries cfg e.op e.resp) = true) :
    Spared cfg messages trace := by
  intro before i m x after htrace _ hretry
  have hmem : ⟨i, .publish m, .error x⟩ ∈ trace := by rw [htrace]; simp
  have hnot : (!RelayEff.retries cfg (.publish m) (.error x)) = true :=
    List.all_eq_true.mp h _ hmem
  rw [hretry] at hnot
  cases hnot

theorem nodup_eraseDups {α : Type} [BEq α] [LawfulBEq α] (l : List α) : l.eraseDups.Nodup := by
  generalize hn : l.length = n
  induction n using Nat.strong_induction_on generalizing l with
  | _ n ih =>
    cases l with
    | nil => simp
    | cons a rest =>
      rw [List.eraseDups_cons, List.nodup_cons]
      have hshort := List.length_filter_le (fun b => !b == a) rest
      simp only [List.length_cons] at hn
      refine ⟨?_, ih _ (by omega) _ rfl⟩
      rw [List.mem_eraseDups]
      simp

section
variable {cfg : RelayConfig} {ownerToken : Uuid} {messages key : List OutboxMessage} {i : Nat}
  {trace : List (Event relaySig Exn)} {m : OutboxMessage}

theorem byKey_eq (h : (byKey messages)[i]? = some key) :
    ∃ k, (messages.map OutboxMessage.key).eraseDups[i]? = some k ∧
      key = messages.filter fun m => m.key = k := by
  simp only [byKey, List.getElem?_map, Option.map_eq_some_iff] at h
  obtain ⟨k, hk, rfl⟩ := h
  exact ⟨k, hk, rfl⟩

theorem byKey_filter (h : (byKey messages)[i]? = some key) (hm : m ∈ key) :
    key = messages.filter fun n => n.key = m.key := by
  obtain ⟨k, -, rfl⟩ := byKey_eq h
  simp only [List.mem_filter, decide_eq_true_eq] at hm
  rw [hm.2]

/-- Every message is in a stream. -/
theorem byKey_mem (hm : m ∈ messages) :
    ∃ (i : Nat) (key : List OutboxMessage), (byKey messages)[i]? = some key ∧ m ∈ key := by
  have hkey : m.key ∈ (messages.map OutboxMessage.key).eraseDups :=
    List.mem_eraseDups.mpr (List.mem_map_of_mem hm)
  obtain ⟨i, hi⟩ := List.mem_iff_getElem?.mp hkey
  refine ⟨i, messages.filter fun n => n.key = m.key, ?_, by simp [hm]⟩
  simp [byKey, hi]

/-- The streams have different keys. -/
theorem byKey_apart {j : Nat} {key' : List OutboxMessage} {m m' : OutboxMessage}
    (hi : (byKey messages)[i]? = some key) (hj : (byKey messages)[j]? = some key')
    (hm : m ∈ key) (hm' : m' ∈ key') (h : m.key = m'.key) : i = j := by
  obtain ⟨k, hk, rfl⟩ := byKey_eq hi
  obtain ⟨k', hk', rfl⟩ := byKey_eq hj
  simp only [List.mem_filter, decide_eq_true_eq] at hm hm'
  have hsame : k = k' := by rw [← hm.2, ← hm'.2, h]
  subst hsame
  obtain ⟨hlt, hget⟩ := List.getElem?_eq_some_iff.mp hk
  obtain ⟨hlt', hget'⟩ := List.getElem?_eq_some_iff.mp hk'
  exact (List.Nodup.getElem_inj_iff (nodup_eraseDups _)).mp (hget.trans hget'.symm)

/-- A stream publishes its own messages only. -/
def Keyed (messages : List OutboxMessage) (trace : List (Event relaySig Exn)) : Prop :=
  ∀ e ∈ trace, ∀ key, (byKey messages)[e.pid]? = some key → ∀ m,
    RelayEff.publishes e.op = some m → m ∈ key

/-- The publications of a key are those of its stream. -/
theorem published_eq (hkeyed : Keyed messages trace) (hi : (byKey messages)[i]? = some key)
    (hm : m ∈ key) :
    published (byKey messages).length m.key trace =
      (own trace i).filterMap fun a => RelayEff.publishes a.op := by
  rw [own, List.filterMap_filterMap]
  refine List.filterMap_congr fun e he => ?_
  by_cases hpid : e.pid = i
  · have hlt : i < (byKey messages).length := (List.getElem?_eq_some_iff.mp hi).1
    simp only [hpid, hlt, if_true, Option.bind_some]
    cases hp : RelayEff.publishes e.op with
    | none => rfl
    | some m' =>
      have hm' := hkeyed e he key (hpid ▸ hi) m' hp
      obtain ⟨k, -, rfl⟩ := byKey_eq hi
      simp only [List.mem_filter, decide_eq_true_eq] at hm hm'
      simp [Option.filter, hm.2, hm'.2]
  · simp only [hpid, if_false, Option.bind_none]
    split
    · rename_i hlt
      cases hp : RelayEff.publishes e.op with
      | none => rfl
      | some m' =>
        have hj := List.getElem?_eq_getElem hlt
        have hm' := hkeyed e he _ hj m' hp
        have hne : m'.key ≠ m.key := fun hsame => hpid (byKey_apart hj hi hm' hm hsame)
        simp [Option.filter, hne]
    · rfl

theorem Keyed.initial {before after : List (Event relaySig Exn)}
    (h : Keyed messages (before ++ after)) : Keyed messages before :=
  fun e he => h e (List.mem_append_left _ he)

/-- What the flow keeps of a record, read off the record. -/
theorem done_eq (cfg : RelayConfig) (key : List OutboxMessage)
    (record : List (Answer relaySig Exn)) :
    (done cfg key record).handed = record.filterMap (fun a => RelayEff.publishes a.op) ∧
      (done cfg key record).settled =
        record.filterMap (fun a => RelayEff.settles a.op a.resp) ∧
      (done cfg key record).left = record.filterMap (fun a => RelayEff.leaves a.op a.resp) := by
  induction record using List.reverseRecOn with
  | nil => exact ⟨rfl, rfl, rfl⟩
  | append_singleton record a ih =>
    obtain ⟨hhanded, hsettled, hleft⟩ := ih
    have hone {β : Type} (f : Answer relaySig Exn → Option β) :
        [a].filterMap f = (f a).toList := by
      cases h : f a <;> simp [h]
    simp only [done_snoc, List.filterMap_append, hone, ← hhanded, ← hsettled, ← hleft]
    exact ⟨rfl, rfl, rfl⟩

end

section Runs

variable {cfg : RelayConfig} {ownerToken : Uuid} {messages key : List OutboxMessage}
  {others : Nat → Option (Relay RelayResult)} {w : RelayWorld} {C : RelayRun} {i : Nat}

theorem stream_leaves (h : RelayReach (passStart cfg ownerToken messages others w) C)
    (hi : (byKey messages)[i]? = some key) :
    ∃ q, (keyStream cfg ownerToken key).Leaves (own C.shared.trace i) q := by
  have hp : (passStart cfg ownerToken messages others w).pool i =
      some (keyStream cfg ownerToken key) := by
    simp only [passStart, hi]
  obtain ⟨q, hleaves, -⟩ := Machine.own_leaves hp rfl h
  exact ⟨q, hleaves⟩

/-- Every publication of a stream was in its turn. -/
theorem stream_publishes (h : RelayReach (passStart cfg ownerToken messages others w) C)
    (hi : (byKey messages)[i]? = some key) {before after : List (Event relaySig Exn)}
    {m : OutboxMessage} {r : Except Exn Unit}
    (htrace : C.shared.trace = before ++ ⟨i, .publish m, r⟩ :: after) :
    (done cfg key (own before i)).Permits key (.publish m) := by
  obtain ⟨q, hleaves⟩ := stream_leaves h hi
  rw [htrace, own_append, own_cons_self (⟨i, .publish m, r⟩ : Event relaySig Exn)]
    at hleaves
  exact keyStream_follows.permitted hleaves

theorem publishes_eq {e : RelayEff} {m : OutboxMessage} (h : e.publishes = some m) :
    e = .publish m := by
  cases e with
  | publish m' =>
    cases h
    rfl
  | _ => cases h

theorem retries_eq {e : Event relaySig Exn} (h : RelayEff.retries cfg e.op e.resp = true) :
    ∃ (m : OutboxMessage) (x : Exn), e = ⟨e.pid, .publish m, .error x⟩ := by
  obtain ⟨pid, op, resp⟩ := e
  cases op with
  | publish m =>
    cases resp with
    | ok a => cases h
    | error x => exact ⟨m, x, rfl⟩
  | _ => cases h

theorem pass_keyed (h : RelayReach (passStart cfg ownerToken messages others w) C) :
    Keyed messages C.shared.trace := by
  intro e he key hkey m hm
  obtain ⟨before, after, htrace⟩ := List.append_of_mem he
  obtain ⟨pid, op, resp⟩ := e
  have hop : op = .publish m := publishes_eq hm
  subst hop
  have hturn := (stream_publishes h hkey htrace).1
  exact hturn.subset (by simp)

theorem stream_handed (h : RelayReach (passStart cfg ownerToken messages others w) C)
    (hi : (byKey messages)[i]? = some key) :
    (own C.shared.trace i).filterMap (fun a => RelayEff.publishes a.op) <+: key := by
  obtain ⟨q, hleaves⟩ := stream_leaves h hi
  generalize own C.shared.trace i = record at hleaves
  induction record using List.reverseRecOn generalizing q with
  | nil => simp
  | append_singleton record a ih =>
    obtain ⟨q', hbefore, -⟩ := hleaves.split
    have hpermits := keyStream_follows.permitted hleaves
    obtain ⟨op, resp⟩ := a
    rw [List.filterMap_append]
    cases hp : RelayEff.publishes op with
    | none => simpa [hp] using ih q' hbefore
    | some m =>
      have hop : op = .publish m := publishes_eq hp
      subst hop
      have hturn := hpermits.1
      have hdone : (done cfg key record).handed ++ [m] <+: key := hturn
      rw [(done_eq cfg key record).1] at hdone
      simpa [RelayEff.publishes] using hdone

/-- With no retry due before the last message, none of this stream was. -/
theorem stream_spared (h : RelayReach (passStart cfg ownerToken messages others w) C)
    (hi : (byKey messages)[i]? = some key) (hspared : Spared cfg messages C.shared.trace)
    {before after : List (Event relaySig Exn)} (htrace : C.shared.trace = before ++ after) :
    (done cfg key (own before i)).spared = true := by
  induction before using List.reverseRecOn generalizing after with
  | nil => rfl
  | append_singleton before e ih =>
    have htrace' : C.shared.trace = before ++ e :: after := by rw [htrace]; simp
    have hbefore := ih htrace'
    by_cases hpid : e.pid = i
    · subst hpid
      rw [own_append, own_cons_self, own_nil, done_snoc]
      simp only [KeyLocal.next, hbefore, Bool.true_and, Bool.not_eq_true', Bool.and_eq_false_iff]
      cases hretry : RelayEff.retries cfg e.op e.resp with
      | false => exact .inl rfl
      | true =>
        refine .inr ?_
        obtain ⟨m, x, he⟩ := retries_eq hretry
        rw [he] at htrace' hretry
        have hlt : e.pid < (byKey messages).length := (List.getElem?_eq_some_iff.mp hi).1
        have hlast := hspared before e.pid m x after htrace' hlt hretry
        -- what was handed over and this message are the whole stream
        have hm : m ∈ key := (stream_publishes h hi htrace').1.subset (by simp)
        have hkeyed : Keyed messages before := (htrace' ▸ pass_keyed h).initial
        rw [published_eq hkeyed hi hm, ← byKey_filter hi hm,
          ← (done_eq cfg key (own before e.pid)).1] at hlast
        have hlength := congrArg List.length hlast
        simp only [List.length_append, List.length_cons, List.length_nil] at hlength
        simp only [decide_eq_false_iff_not]
        omega
    · rw [own_append, own_cons_ne hpid, own_nil, List.append_nil]
      exact hbefore

theorem pass_order (h : RelayReach (passStart cfg ownerToken messages others w) C)
    (k : String) :
    published (byKey messages).length k C.shared.trace <+:
      messages.filter fun m => m.key = k := by
  by_cases hempty : ∃ m ∈ messages, m.key = k
  · obtain ⟨m, hm, rfl⟩ := hempty
    obtain ⟨i, key, hi, hmem⟩ := byKey_mem hm
    rw [published_eq (pass_keyed h) hi hmem, ← byKey_filter hi hmem]
    exact stream_handed h hi
  · -- a key of no message is no stream's
    have hnone : published (byKey messages).length k C.shared.trace = [] := by
      refine List.eq_nil_iff_forall_not_mem.mpr fun m hm => ?_
      obtain ⟨e, he, hpub⟩ := List.mem_filterMap.mp hm
      split at hpub
      · rename_i hlt
        obtain ⟨hpub, hkey⟩ := Option.filter_eq_some_iff.mp hpub
        have hi := List.getElem?_eq_getElem hlt
        obtain ⟨k', -, hfilter⟩ := byKey_eq hi
        have hmem := pass_keyed h e he _ hi m hpub
        rw [hfilter] at hmem
        exact hempty ⟨m, (List.mem_filter.mp hmem).1, by simpa using hkey⟩
      · cases hpub
    rw [hnone]
    exact List.nil_prefix

/-- Without a retry before the last message, nothing is handed over while an
earlier message of its key is not settled. -/
theorem pass_settled (h : RelayReach (passStart cfg ownerToken messages others w) C)
    (hspared : Spared cfg messages C.shared.trace) {before after : List (Event relaySig Exn)}
    {m : OutboxMessage} {r : Except Exn Unit}
    (htrace : C.shared.trace = before ++ ⟨i, .publish m, r⟩ :: after)
    (hlt : i < (byKey messages).length) :
    settledBy i before =
        (published (byKey messages).length m.key before).map OutboxMessage.id ∧
      leftBy i before = [] := by
  have hi := List.getElem?_eq_getElem hlt
  have hturn := stream_publishes h hi htrace
  obtain ⟨hsettled, hleft⟩ := hturn.2 (stream_spared h hi hspared htrace)
  obtain ⟨hover, hover', hover''⟩ := done_eq cfg (byKey messages)[i] (own before i)
  have hm : m ∈ (byKey messages)[i] := hturn.1.subset (by simp)
  have hkeyed : Keyed messages before := (htrace ▸ pass_keyed h).initial
  rw [published_eq hkeyed hi hm]
  rw [hover, hover'] at hsettled
  rw [hover''] at hleft
  exact ⟨hsettled, hleft⟩

end Runs

/-! ## Keys apart -/

end OutboxRelay

/-- The row a write is about. -/
def RelayTx.writes : RelayTx → Option Uuid
  | .claimBatch _ _ _ _ => none
  | .finalizePublished messageId _ _ => some messageId
  | .scheduleRetry messageId _ _ _ => some messageId
  | .quarantine messageId _ _ _ => some messageId

/-- The rows with an id. -/
def RelayWorld.rowOf (w : RelayWorld) (id : Uuid) : List OutboxMessage :=
  w.rows.filter fun m => m.id = id

/-- A finishing write reads and changes the row of its id only. -/
theorem Outbox.finish_apart {write : OutboxMessage → OutboxMessage}
    (hwrite : ∀ m, (write m).id = m.id) (rows : List OutboxMessage)
    (messageId ownerToken id : Uuid) :
    (Outbox.finish rows messageId ownerToken write).1 =
        (Outbox.finish (rows.filter fun m => m.id = messageId) messageId ownerToken write).1 ∧
      ((Outbox.finish rows messageId ownerToken write).2.filter fun m => m.id = id) =
        (Outbox.finish (rows.filter fun m => m.id = id) messageId ownerToken write).2 := by
  constructor
  · simp only [Outbox.finish, List.any_filter]
    congr 1
    funext m
    by_cases hid : m.id = messageId <;> simp [OutboxMessage.ownedBy, hid]
  · simp only [Outbox.finish, Table.update, List.filter_map]
    congr 2
    funext m
    by_cases howned : OutboxMessage.ownedBy messageId ownerToken m = true
    · simp [howned, hwrite]
    · simp [howned]

theorem Outbox.finish_other {write : OutboxMessage → OutboxMessage}
    (hwrite : ∀ m, (write m).id = m.id) (rows : List OutboxMessage) {messageId id : Uuid}
    (ownerToken : Uuid) (hid : id ≠ messageId) :
    ((Outbox.finish rows messageId ownerToken write).2.filter fun m => m.id = id) =
      rows.filter fun m => m.id = id := by
  rw [(Outbox.finish_apart hwrite rows messageId ownerToken id).2]
  refine Table.update_of_none fun m hm => ?_
  have hm : m.id = id := by simpa using (List.mem_filter.mp hm).2
  simp [OutboxMessage.ownedBy, hm, hid]

/-- What a write answers and leaves of its row depends on that row alone, and
the other rows stay as they are. -/
theorem RelayWorld.transact_apart {t : RelayTx} {messageId : Uuid} (ht : t.writes = some messageId)
    {w w' : RelayWorld} (hrow : w.rowOf messageId = w'.rowOf messageId)
    (locked locked' : Uuid → Bool) :
    (w.transact locked t).1 = (w'.transact locked' t).1 ∧
      (w.transact locked t).2.rowOf messageId = (w'.transact locked' t).2.rowOf messageId ∧
      ∀ id, id ≠ messageId → (w.transact locked t).2.rowOf id = w.rowOf id := by
  have hfilter : (w.rows.filter fun m => m.id = messageId) =
      w'.rows.filter fun m => m.id = messageId := hrow
  have hanswer {write : OutboxMessage → OutboxMessage} (hwrite : ∀ m, (write m).id = m.id)
      (ownerToken : Uuid) : (Outbox.finish w.rows messageId ownerToken write).1 =
        (Outbox.finish w'.rows messageId ownerToken write).1 := by
    rw [(Outbox.finish_apart hwrite w.rows messageId ownerToken messageId).1,
      (Outbox.finish_apart hwrite w'.rows messageId ownerToken messageId).1, hfilter]
  have hrows {write : OutboxMessage → OutboxMessage} (hwrite : ∀ m, (write m).id = m.id)
      (ownerToken : Uuid) :
      ((Outbox.finish w.rows messageId ownerToken write).2.filter fun m => m.id = messageId) =
        (Outbox.finish w'.rows messageId ownerToken write).2.filter fun m => m.id = messageId := by
    rw [(Outbox.finish_apart hwrite w.rows messageId ownerToken messageId).2,
      (Outbox.finish_apart hwrite w'.rows messageId ownerToken messageId).2, hfilter]
  cases t with
  | claimBatch ownerToken claimedAt claimExpiresAt limit => cases ht
  | finalizePublished id ownerToken publishedAt =>
    cases ht
    refine ⟨congrArg Except.ok (hanswer ?_ ownerToken), hrows ?_ ownerToken, fun id hid =>
      Outbox.finish_other ?_ w.rows ownerToken hid⟩ <;> exact fun m => rfl
  | scheduleRetry id ownerToken availableAt errorClass =>
    cases ht
    refine ⟨congrArg Except.ok (hanswer ?_ ownerToken), hrows ?_ ownerToken, fun id hid =>
      Outbox.finish_other ?_ w.rows ownerToken hid⟩ <;> exact fun m => rfl
  | quarantine id ownerToken quarantinedAt errorClass =>
    cases ht
    refine ⟨congrArg Except.ok (hanswer ?_ ownerToken), hrows ?_ ownerToken, fun id hid =>
      Outbox.finish_other ?_ w.rows ownerToken hid⟩ <;> exact fun m => rfl

namespace OutboxRelay

/-- The messages of one key go out in the order of the batch, and none while
an earlier one is not settled, provided only the last of a key is ever due
for a retry; the streams do not depend on each other. -/
structure KeyOrder (cfg : RelayConfig) (ownerToken : Uuid) (messages : List OutboxMessage)
    (trace : List (Event relaySig Exn)) : Prop where
  order : ∀ k, published (byKey messages).length k trace <+: messages.filter fun m => m.key = k
  /-- A message whose claim was lost counts as settled: the relay does not look
  at what its finishing write answers. -/
  settled : Spared cfg messages trace → ∀ before i m r after,
    trace = before ++ ⟨i, .publish m, r⟩ :: after → i < (byKey messages).length →
    settledBy i before = (published (byKey messages).length m.key before).map OutboxMessage.id ∧
      leftBy i before = []
  /-- In any two passes, whatever else is in their batches and goes on around
  them, two streams of the same messages part only at an answer of their own. -/
  alone : ∀ i key, (byKey messages)[i]? = some key → ∀ messages' others' w' C' j,
    RelayReach (passStart cfg ownerToken messages' others' w') C' →
    (byKey messages')[j]? = some key → Prog.Agree (own trace i) (own C'.shared.trace j)
  apart : ∀ t messageId, RelayTx.writes t = some messageId → ∀ (w w' : RelayWorld) locked locked',
    w.rowOf messageId = w'.rowOf messageId →
    (w.transact locked t).1 = (w'.transact locked' t).1 ∧
      (w.transact locked t).2.rowOf messageId = (w'.transact locked' t).2.rowOf messageId ∧
      ∀ id, id ≠ messageId → (w.transact locked t).2.rowOf id = w.rowOf id

theorem relay_key_order {cfg : RelayConfig} {ownerToken : Uuid} {messages : List OutboxMessage}
    {others : Nat → Option (Relay RelayResult)} {w : RelayWorld} {C : RelayRun}
    (h : RelayReach (passStart cfg ownerToken messages others w) C) :
    KeyOrder cfg ownerToken messages C.shared.trace where
  order k := pass_order h k
  settled hspared before i m r after htrace hlt := pass_settled h hspared htrace hlt
  alone i key hi messages' others' w' C' j h' hj := by
    obtain ⟨q, hleaves⟩ := stream_leaves h hi
    obtain ⟨q', hleaves'⟩ := stream_leaves h' hj
    exact hleaves.agree hleaves'
  apart t messageId ht w w' locked locked' hrow := RelayWorld.transact_apart ht hrow locked locked'

end OutboxRelay

namespace Sample

/-- Two messages of one key, claimed together. -/
def sameKey : List OutboxMessage := [firstRow.claim 7 35, secondRow.claim 7 35]

/-- A pass that has claimed two messages of one key. -/
def sameKeyPass : RelayRun :=
  OutboxRelay.passStart relay 7 sameKey (fun _ => none) { RelayWorld.start with rows := sameKey }

/-- Both are published; the second is about to be finalized. -/
def bothPublished : List relayMachine.traced.Label :=
  [.act 0 (.flag false), .act 0 (.published (.ok ())), .act 0 (.time 6),
    .act 0 (.go fun _ => false),
    .act 0 (.flag false), .act 0 (.published (.ok ()))]

/-- The first fails, is scheduled for a retry, and the second is
published. -/
def overtakenPass : List relayMachine.traced.Label :=
  [.act 0 (.flag false), .act 0 (.published (.error .transientPublish)), .act 0 (.jitter 0),
    .act 0 (.time 6), .act 0 (.go fun _ => false), .act 0 (.flag false),
    .act 0 (.published (.ok ()))]

end Sample

section
open Sample OutboxRelay

/-- A schedule of the pass above is a run of it. -/
theorem Sample.sameKey_reach {schedule : List relayMachine.traced.Label} {C : RelayRun}
    (h : relayMachine.traced.run (fun _ _ => true) sameKeyPass schedule = some C) :
    RelayReach sameKeyPass C := by
  have hany : ∀ s s' : Traced relaySig Exn RelayWorld, true = true → True := fun _ _ _ => trivial
  exact Machine.reach_of_run _ hany _ _ _ h

theorem relay_key_order_both :
    ∃ (C : RelayRun) (before : List (Event relaySig Exn)),
      RelayReach sameKeyPass C ∧
      C.shared.trace = before ++ [⟨0, .publish (secondRow.claim 7 35), .ok ()⟩] ∧
      settledBy 0 before = (published 1 "user" before).map OutboxMessage.id ∧
      published 1 "user" before = [firstRow.claim 7 35] := by
  obtain ⟨C, before, hrun, htrace, hpublished, hspared⟩ :
      ∃ (C : RelayRun) (before : List (Event relaySig Exn)),
        relayMachine.traced.run (fun _ _ => true) sameKeyPass bothPublished = some C ∧
        C.shared.trace = before ++ [⟨0, .publish (secondRow.claim 7 35), .ok ()⟩] ∧
        published 1 "user" before = [firstRow.claim 7 35] ∧
        Spared relay sameKey C.shared.trace := by
    refine ⟨_, [⟨0, .stopped, .ok false⟩, ⟨0, .publish (firstRow.claim 7 35), .ok ()⟩,
      ⟨0, .now, .ok (6 : Time)⟩, ⟨0, .tx (.finalizePublished 1 7 6), .ok true⟩,
      ⟨0, .stopped, .ok false⟩],
      by with_unfolding_all rfl, by with_unfolding_all rfl, by with_unfolding_all rfl, ?_⟩
    exact spared_of_none (by with_unfolding_all rfl)
  have hreach := sameKey_reach hrun
  have hsettled := (relay_key_order hreach).settled hspared before 0 _ _ [] htrace (by decide)
  exact ⟨C, before, hreach, htrace, hsettled.1, hpublished⟩

/-- A message goes out after an earlier one of its key was left for
a retry. -/
theorem relay_overtakes :
    ¬ ∀ (cfg : RelayConfig) (ownerToken : Uuid) (messages : List OutboxMessage) others w C,
      RelayReach (passStart cfg ownerToken messages others w) C →
      ∀ before i m r after, C.shared.trace = before ++ ⟨i, .publish m, r⟩ :: after →
        i < (byKey messages).length → leftBy i before = [] := by
  intro hclaim
  -- the run, seen through its last event and what was left before it
  have hcheck : (relayMachine.traced.run (fun _ _ => true) sameKeyPass overtakenPass).map (fun C =>
      (C.shared.trace.getLast?.map fun e => (e.pid, (RelayEff.publishes e.op).isSome),
        leftBy 0 C.shared.trace.dropLast)) = some (some (0, true), [1]) := by
    decide +kernel
  obtain ⟨C, hrun, hC⟩ := Option.map_eq_some_iff.mp hcheck
  obtain ⟨hlast, hleft⟩ := Prod.mk.inj hC
  obtain ⟨⟨pid, op, resp⟩, hget, hevent⟩ := Option.map_eq_some_iff.mp hlast
  obtain ⟨hpid, hsome⟩ := Prod.mk.inj hevent
  obtain ⟨m, hm⟩ := Option.isSome_iff_exists.mp hsome
  have hop : op = .publish m := publishes_eq hm
  subst hpid hop
  have htrace : C.shared.trace = C.shared.trace.dropLast ++ ⟨0, .publish m, resp⟩ :: [] :=
    (List.dropLast_append_getLast? _ hget).symm
  have hnone := hclaim relay 7 sameKey (fun _ => none) { RelayWorld.start with rows := sameKey } C
    (sameKey_reach hrun) _ 0 m resp [] htrace (by decide)
  rw [hleft] at hnone
  cases hnone

end

end IdentityService
