import IdentityService.Idempotency.HotStore
import IdentityService.Idempotency.ResultText
import Mathlib.Data.List.Induction

/-!
# The Valkey entry protocol

Any number of owners, each with a token of its own, call the four
operations of `ValkeyHotIdempotencyStore` in any order, and entries expire
or are evicted in between. A call is one atomic script; what the client
makes of its reply may be lost, but the reply itself is what the script
says. The results are the JSON texts of `_encode_completed`.
-/

namespace IdentityService

/-- A result as the callers of `complete` have it. -/
structure PlainResult where
  completed : CompletedIdempotencyResult
  payload : completed.PayloadProper

/-- What `ValkeyHotIdempotencyStore` is constructed with, and the JSON reader
of Pydantic. -/
structure ValkeyConfig where
  sha256 : List UInt8 → Digest
  keyNamespace : String
  reader : JsonReader

/-- `_storage_key`. -/
def ValkeyConfig.storageKey (cfg : ValkeyConfig) (identity : IdempotencyIdentity) : String :=
  let material := utf8 identity.subjectId ++ 0 :: utf8 identity.operation ++
    0 :: identity.keyHash.bytes
  cfg.keyNamespace ++ ":" ++ (cfg.sha256 material).hex

/-- The `HASH` at one storage key, if there is one. -/
abbrev Entry := Option (HotHash String)

/-- All of Valkey, by storage key. -/
abbrev Entries := String → Entry

/-- A call, or the end of an entry's time, or its eviction. -/
inductive HotEvent where
  | begin (identity : IdempotencyIdentity) (requestHash : Digest) (ownerToken : Uuid)
  | renew (identity : IdempotencyIdentity) (ownerToken : Uuid)
  | complete (identity : IdempotencyIdentity) (ownerToken : Uuid) (result : PlainResult)
  | abandon (identity : IdempotencyIdentity) (ownerToken : Uuid)
  | vanish (key : String)

section
variable (cfg : ValkeyConfig)

/-- The entry an event is about. -/
def HotEvent.key : HotEvent → String
  | .begin identity _ _ => cfg.storageKey identity
  | .renew identity _ => cfg.storageKey identity
  | .complete identity _ _ => cfg.storageKey identity
  | .abandon identity _ => cfg.storageKey identity
  | .vanish key => key

/-- What the event leaves of its entry. -/
def HotEvent.apply (entry : Entry) : HotEvent → Entry
  | .begin _ requestHash ownerToken => (HotHash.beginScript requestHash ownerToken entry).2
  | .renew _ ownerToken => (HotHash.renewScript ownerToken entry).2
  | .complete _ ownerToken result =>
    (HotHash.completeScript ownerToken (encodeCompleted result.completed)
      result.completed.requestHash entry).2
  | .abandon _ ownerToken => (HotHash.abandonScript ownerToken entry).2
  | .vanish _ => none

/-- An event concerns the entry at its storage key. -/
def Entries.step (entries : Entries) (event : HotEvent) : Entries :=
  Function.update entries (event.key cfg) (event.apply (entries (event.key cfg)))

/-- The entries after a run that begins with none. -/
def Entries.after (events : List HotEvent) : Entries :=
  events.foldl (Entries.step cfg) fun _ => none

/-- `begin` on the entries as they are. -/
def Entries.begin (entries : Entries) (identity : IdempotencyIdentity) (requestHash : Digest)
    (ownerToken : Uuid) : Except Exn BeginResult :=
  readBegin (decodeCompleted cfg.reader) requestHash
    (HotHash.beginScript requestHash ownerToken (entries (cfg.storageKey identity))).1

end

/-! ## The shapes of an entry -/

/-- What `_COMPLETE_SCRIPT` leaves of a processing entry. -/
def completedEntry (c : CompletedIdempotencyResult) : HotHash String :=
  ⟨some "1", some "completed", some c.requestHash, none, some (encodeCompleted c)⟩

/-- Absent; processing, with one owner, one request hash and no result; or
completed, with no owner and the text of a result of the same request that
`P` holds of. -/
inductive EntryShape (P : PlainResult → Prop) : Entry → Prop where
  | absent : EntryShape P none
  | processing (requestHash : Digest) (ownerToken : Uuid) :
      EntryShape P (some (.processing requestHash ownerToken))
  | completed (result : PlainResult) (origin : P result) :
      EntryShape P (some (completedEntry result.completed))

section
variable {cfg : ValkeyConfig} {P : PlainResult → Prop}

theorem beginScript_processing (requestHash h : Digest) (ownerToken o : Uuid) :
    HotHash.beginScript requestHash ownerToken (some (.processing h o : HotHash String)) =
      ((if h = requestHash then 4 else 3, none), some (.processing h o)) := by
  by_cases hh : h = requestHash
  · simp [HotHash.beginScript, HotHash.processing, hh]
  · simp [HotHash.beginScript, HotHash.processing, hh]

theorem beginScript_completed (requestHash : Digest) (ownerToken : Uuid)
    (c : CompletedIdempotencyResult) :
    HotHash.beginScript requestHash ownerToken (some (completedEntry c)) =
      (if c.requestHash = requestHash then (2, some (encodeCompleted c)) else (3, none),
        some (completedEntry c)) := by
  by_cases hh : c.requestHash = requestHash
  · simp [HotHash.beginScript, completedEntry, hh]
  · simp [HotHash.beginScript, completedEntry, hh]

/-- Renewing changes nothing but the time to live. -/
theorem renewScript_entry (ownerToken : Uuid) (entry : Entry) :
    (HotHash.renewScript ownerToken entry).2 = entry := by
  unfold HotHash.renewScript
  split
  · rfl
  · split_ifs <;> rfl

/-- What an event can make of a processing entry. -/
theorem apply_processing (h : Digest) (o : Uuid) (event : HotEvent) :
    event.apply (some (.processing h o)) = some (.processing h o) ∨
    (∃ identity result, event = .complete identity o result ∧ result.completed.requestHash = h ∧
      event.apply (some (.processing h o)) = some (completedEntry result.completed)) ∨
    ((∃ identity, event = .abandon identity o) ∨ ∃ key, event = .vanish key) ∧
      event.apply (some (.processing h o)) = none := by
  cases event with
  | begin identity requestHash ownerToken =>
      rw [HotEvent.apply, beginScript_processing]
      exact .inl rfl
  | renew identity ownerToken => exact .inl (renewScript_entry _ _)
  | complete identity ownerToken result =>
      by_cases hmatch : o = ownerToken ∧ h = result.completed.requestHash
      · obtain ⟨rfl, rfl⟩ := hmatch
        refine .inr (.inl ⟨identity, result, rfl, rfl, ?_⟩)
        simp [HotEvent.apply, HotHash.completeScript, HotHash.processing, completedEntry]
      · refine .inl ?_
        simp [HotEvent.apply, HotHash.completeScript, HotHash.processing, hmatch]
  | abandon identity ownerToken =>
      by_cases howner : o = ownerToken
      · subst howner
        refine .inr (.inr ⟨.inl ⟨identity, rfl⟩, ?_⟩)
        simp [HotEvent.apply, HotHash.abandonScript, HotHash.processing]
      · refine .inl ?_
        simp [HotEvent.apply, HotHash.abandonScript, HotHash.processing, howner]
  | vanish key => exact .inr (.inr ⟨.inr ⟨key, rfl⟩, rfl⟩)

/-- Only its end touches a completed entry. -/
theorem apply_completed (c : CompletedIdempotencyResult) (event : HotEvent)
    (hstays : ∀ key, event ≠ .vanish key) :
    event.apply (some (completedEntry c)) = some (completedEntry c) := by
  cases event with
  | begin identity requestHash ownerToken =>
      rw [HotEvent.apply, beginScript_completed]
  | renew identity ownerToken => exact renewScript_entry _ _
  | complete identity ownerToken result =>
      simp [HotEvent.apply, HotHash.completeScript, completedEntry]
  | abandon identity ownerToken => simp [HotEvent.apply, HotHash.abandonScript, completedEntry]
  | vanish key => exact absurd rfl (hstays key)

theorem apply_absent (event : HotEvent) :
    event.apply none = none ∨
      ∃ identity h o, event = .begin identity h o ∧ event.apply none = some (.processing h o) := by
  cases event with
  | begin identity h o => exact .inr ⟨identity, h, o, rfl, rfl⟩
  | renew identity o => exact .inl rfl
  | complete identity o result => exact .inl rfl
  | abandon identity o => exact .inl rfl
  | vanish key => exact .inl rfl

theorem EntryShape.mono {Q : PlainResult → Prop} {entry : Entry} (h : EntryShape P entry)
    (hPQ : ∀ r, P r → Q r) : EntryShape Q entry := by
  cases h with
  | absent => exact .absent
  | processing requestHash ownerToken => exact .processing requestHash ownerToken
  | completed result origin => exact .completed result (hPQ result origin)

/-- An event keeps the shape; the result of a completed entry comes from the
call that completed it. -/
theorem EntryShape.apply {entry : Entry} {event : HotEvent} (h : EntryShape P entry)
    (hP : ∀ identity o result, event = .complete identity o result →
      (HotHash.completeScript o (encodeCompleted result.completed)
        result.completed.requestHash entry).1 = true → P result) :
    EntryShape P (event.apply entry) := by
  cases h with
  | absent =>
      rcases apply_absent event with hnone | ⟨_, h, o, -, hbegin⟩
      · rw [hnone]
        exact .absent
      · rw [hbegin]
        exact .processing h o
  | processing h o =>
      rcases apply_processing h o event with
        hsame | ⟨identity, result, rfl, rfl, hdone⟩ | ⟨-, hnone⟩
      · rw [hsame]
        exact .processing h o
      · rw [hdone]
        refine .completed result (hP identity o result rfl ?_)
        simp [HotHash.completeScript, HotHash.processing]
      · rw [hnone]
        exact .absent
  | completed result origin =>
      by_cases hvanish : ∃ key, event = .vanish key
      · obtain ⟨key, rfl⟩ := hvanish
        exact .absent
      · rw [apply_completed _ event fun key heq => hvanish ⟨key, heq⟩]
        exact .completed result origin

/-! ## Runs -/

theorem after_concat (events : List HotEvent) (event : HotEvent) :
    Entries.after cfg (events ++ [event]) = (Entries.after cfg events).step cfg event := by
  simp [Entries.after]

theorem step_same (cfg : ValkeyConfig) (entries : Entries) (event : HotEvent) :
    entries.step cfg event (event.key cfg) = event.apply (entries (event.key cfg)) := by
  simp [Entries.step]

theorem step_other {key : String} {event : HotEvent} (entries : Entries)
    (h : event.key cfg ≠ key) : entries.step cfg event key = entries key := by
  simp [Entries.step, h.symm]

/-- Some call of `complete` on this entry passed the result and was told
that it took effect. -/
def CompletedBy (cfg : ValkeyConfig) (events : List HotEvent) (key : String)
    (result : PlainResult) : Prop :=
  ∃ before identity ownerToken later,
    events = before ++ .complete identity ownerToken result :: later ∧
    cfg.storageKey identity = key ∧
    (HotHash.completeScript ownerToken (encodeCompleted result.completed)
      result.completed.requestHash (Entries.after cfg before key)).1 = true

theorem CompletedBy.concat {events : List HotEvent} {key : String} {result : PlainResult}
    (h : CompletedBy cfg events key result) (event : HotEvent) :
    CompletedBy cfg (events ++ [event]) key result := by
  obtain ⟨before, identity, ownerToken, later, rfl, hkey, hdone⟩ := h
  exact ⟨before, identity, ownerToken, later ++ [event], by simp, hkey, hdone⟩

theorem shape_after (cfg : ValkeyConfig) (events : List HotEvent) (key : String) :
    EntryShape (CompletedBy cfg events key) (Entries.after cfg events key) := by
  induction events using List.reverseRecOn with
  | nil => exact .absent
  | append_singleton events event ih =>
      have hmono := ih.mono fun _ h => h.concat event
      rw [after_concat]
      by_cases hkey : event.key cfg = key
      · subst hkey
        rw [step_same]
        refine hmono.apply ?_
        rintro identity o result rfl hdone
        exact ⟨events, identity, o, [], rfl, rfl, hdone⟩
      · rw [step_other _ hkey]
        exact hmono

/-- `begin` reads a completed entry back, for the request it belongs to. -/
theorem begin_completed {entries : Entries} {identity : IdempotencyIdentity} {result : PlainResult}
    (hentry : entries (cfg.storageKey identity) = some (completedEntry result.completed))
    (requestHash : Digest) (ownerToken : Uuid) :
    entries.begin cfg identity requestHash ownerToken =
      .ok (if result.completed.requestHash = requestHash then .replay result.completed.sorted
        else .conflict) := by
  unfold Entries.begin
  rw [hentry, beginScript_completed]
  have hdecode := CompletedIdempotencyResult.decode_encodeCompleted cfg.reader result.payload
  by_cases hh : result.completed.requestHash = requestHash
  · simp [readBegin, hh, hdecode, CompletedIdempotencyResult.sorted_requestHash]
  · simp [readBegin, hh]

/-- What `begin` answers on an entry of a run. -/
theorem begin_answer {entries : Entries} {identity : IdempotencyIdentity} (requestHash : Digest)
    (ownerToken : Uuid) (h : EntryShape P (entries (cfg.storageKey identity))) :
    entries (cfg.storageKey identity) = none ∧
      entries.begin cfg identity requestHash ownerToken = .ok .acquired ∨
    (∃ hash o, entries (cfg.storageKey identity) = some (.processing hash o) ∧
      entries.begin cfg identity requestHash ownerToken =
        .ok (if hash = requestHash then .inProgress else .conflict)) ∨
    ∃ result, P result ∧
      entries (cfg.storageKey identity) = some (completedEntry result.completed) ∧
      entries.begin cfg identity requestHash ownerToken =
        .ok (if result.completed.requestHash = requestHash then .replay result.completed.sorted
          else .conflict) := by
  generalize hentry : entries (cfg.storageKey identity) = entry at h
  cases h with
  | absent =>
      refine .inl ⟨rfl, ?_⟩
      unfold Entries.begin
      rw [hentry]
      rfl
  | processing hash o =>
      refine .inr (.inl ⟨hash, o, rfl, ?_⟩)
      unfold Entries.begin
      rw [hentry, beginScript_processing]
      by_cases hh : hash = requestHash
      · simp [readBegin, hh]
      · simp [readBegin, hh]
  | completed result origin =>
      exact .inr (.inr ⟨result, origin, rfl, begin_completed hentry requestHash ownerToken⟩)

/-- The script never finds an entry corrupted. -/
theorem beginScript_code {entry : Entry} (h : EntryShape P entry) (requestHash : Digest)
    (ownerToken : Uuid) : (HotHash.beginScript requestHash ownerToken entry).1.1 ≠ 5 := by
  cases h with
  | absent => simp [HotHash.beginScript]
  | processing hash o =>
      rw [beginScript_processing]
      split_ifs <;> simp
  | completed result origin =>
      rw [beginScript_completed]
      split_ifs <;> simp

/-- The end of an owner's lease: it completes or abandons, or the entry is
gone. -/
def HotEvent.Releases (cfg : ValkeyConfig) (key : String) (owner : Uuid) : HotEvent → Prop
  | .complete identity ownerToken _ => cfg.storageKey identity = key ∧ ownerToken = owner
  | .abandon identity ownerToken => cfg.storageKey identity = key ∧ ownerToken = owner
  | .vanish k => k = key
  | _ => False

theorem processing_run {before later : List HotEvent} {key : String} {h : Digest} {o : Uuid}
    (hentry : Entries.after cfg before key = some (.processing h o))
    (hlater : ∀ e ∈ later, ¬ e.Releases cfg key o) :
    Entries.after cfg (before ++ later) key = some (.processing h o) := by
  induction later using List.reverseRecOn with
  | nil => simpa using hentry
  | append_singleton later event ih =>
      have hmid := ih fun e he => hlater e (List.mem_append_left _ he)
      have hlast := hlater event (by simp)
      rw [← List.append_assoc, after_concat]
      by_cases hkey : event.key cfg = key
      · subst hkey
        rw [step_same, hmid]
        rcases apply_processing h o event with
          hsame | ⟨identity, result, rfl, -, -⟩ | ⟨⟨identity, rfl⟩ | ⟨k, rfl⟩, -⟩
        · exact hsame
        · exact absurd ⟨rfl, rfl⟩ hlast
        · exact absurd ⟨rfl, rfl⟩ hlast
        · exact absurd rfl hlast
      · rw [step_other _ hkey, hmid]

theorem completed_run {before later : List HotEvent} {key : String}
    {c : CompletedIdempotencyResult}
    (hentry : Entries.after cfg before key = some (completedEntry c))
    (hlater : .vanish key ∉ later) :
    Entries.after cfg (before ++ later) key = some (completedEntry c) := by
  induction later using List.reverseRecOn with
  | nil => simpa using hentry
  | append_singleton later event ih =>
      have hmid := ih fun h => hlater (List.mem_append_left _ h)
      rw [← List.append_assoc, after_concat]
      by_cases hkey : event.key cfg = key
      · subst hkey
        rw [step_same, hmid]
        refine apply_completed c event fun k heq => hlater ?_
        subst heq
        simp [HotEvent.key]
      · rw [step_other _ hkey, hmid]

end

/-- Every entry of every run is absent, processing or completed, and the
operations answer as that asks: `begin` finds nothing corrupted, nobody
else acquires what an owner holds, a completed entry stays as it is, and a
replay carries what was passed to `complete`. -/
theorem entry_protocol (cfg : ValkeyConfig) (events : List HotEvent) :
    (∀ key, EntryShape (CompletedBy cfg events key) (Entries.after cfg events key)) ∧
    (∀ identity requestHash ownerToken,
      (HotHash.beginScript requestHash ownerToken
        (Entries.after cfg events (cfg.storageKey identity))).1.1 ≠ 5 ∧
      ∃ r, (Entries.after cfg events).begin cfg identity requestHash ownerToken = .ok r) ∧
    (∀ before identity h o between r identity' h' o' r',
      events = before ++ .begin identity h o :: between →
      (Entries.after cfg before).begin cfg identity h o = .ok r → r.action = .acquired →
      (∀ e ∈ between, ¬ e.Releases cfg (cfg.storageKey identity) o) →
      cfg.storageKey identity' = cfg.storageKey identity →
      (Entries.after cfg events).begin cfg identity' h' o' = .ok r' → r'.action ≠ .acquired) ∧
    (∀ before later key hash, events = before ++ later →
      Entries.after cfg before key = some hash → hash.state = some "completed" →
      .vanish key ∉ later → Entries.after cfg events key = some hash) ∧
    ∀ identity requestHash ownerToken r c,
      (Entries.after cfg events).begin cfg identity requestHash ownerToken = .ok r →
      r.completed = some c →
      ∃ result, CompletedBy cfg events (cfg.storageKey identity) result ∧
        c = result.completed.sorted ∧ c.requestHash = requestHash := by
  refine ⟨shape_after cfg events, ?_, ?_, ?_, ?_⟩
  · intro identity requestHash ownerToken
    have hshape := shape_after cfg events (cfg.storageKey identity)
    refine ⟨beginScript_code hshape requestHash ownerToken, ?_⟩
    rcases begin_answer requestHash ownerToken hshape with
      ⟨-, hr⟩ | ⟨_, _, -, hr⟩ | ⟨_, -, -, hr⟩
    · exact ⟨_, hr⟩
    · exact ⟨_, hr⟩
    · exact ⟨_, hr⟩
  · rintro before identity h o between r identity' h' o' r' rfl hr hacquired hbetween hkey hr'
    -- the entry was absent, so it is the owner's after the call
    have hbegin : Entries.after cfg (before ++ [.begin identity h o]) (cfg.storageKey identity) =
        some (.processing h o) := by
      rw [after_concat]
      have hstep := step_same cfg (Entries.after cfg before) (.begin identity h o)
      rw [HotEvent.key] at hstep
      rw [hstep]
      rcases begin_answer h o (shape_after cfg before (cfg.storageKey identity)) with
        ⟨hnone, -⟩ | ⟨hash, _, -, hanswer⟩ | ⟨result, -, -, hanswer⟩
      · rw [hnone]
        rfl
      · rw [hr] at hanswer
        cases hanswer
        by_cases hh : hash = h
        · simp [hh, BeginResult.inProgress] at hacquired
        · simp [hh, BeginResult.conflict] at hacquired
      · rw [hr] at hanswer
        cases hanswer
        by_cases hh : result.completed.requestHash = h
        · simp [hh, BeginResult.replay] at hacquired
        · simp [hh, BeginResult.conflict] at hacquired
    have hheld := processing_run hbegin hbetween
    rw [List.append_assoc, List.singleton_append] at hheld
    have hentry : Entries.after cfg (before ++ .begin identity h o :: between)
        (cfg.storageKey identity') = some (.processing h o) := by rw [hkey, hheld]
    have hanswer : (Entries.after cfg (before ++ .begin identity h o :: between)).begin cfg
        identity' h' o' = .ok (if h = h' then .inProgress else .conflict) := by
      unfold Entries.begin
      rw [hentry, beginScript_processing]
      by_cases hh : h = h'
      · simp [readBegin, hh]
      · simp [readBegin, hh]
    rw [hr'] at hanswer
    cases hanswer
    by_cases hh : h = h'
    · simp [hh, BeginResult.inProgress]
    · simp [hh, BeginResult.conflict]
  · rintro before later key hash rfl hentry hstate hlater
    have hshape := shape_after cfg before key
    rw [hentry] at hshape
    cases hshape with
    | processing h o => simp [HotHash.processing] at hstate
    | completed result origin => exact completed_run hentry hlater
  · intro identity requestHash ownerToken r c hr hc
    rcases begin_answer requestHash ownerToken
        (shape_after cfg events (cfg.storageKey identity)) with
      ⟨-, hanswer⟩ | ⟨hash, _, -, hanswer⟩ | ⟨result, horigin, -, hanswer⟩
    · rw [hr] at hanswer
      cases hanswer
      cases hc
    · rw [hr] at hanswer
      cases hanswer
      by_cases hh : hash = requestHash
      · simp [hh, BeginResult.inProgress] at hc
      · simp [hh, BeginResult.conflict] at hc
    · rw [hr] at hanswer
      cases hanswer
      by_cases hh : result.completed.requestHash = requestHash
      · simp only [hh, if_true, BeginResult.replay, Option.some.injEq] at hc
        subst hc
        exact ⟨result, horigin, rfl, hh⟩
      · simp [hh, BeginResult.conflict] at hc

namespace Sample

def valkey : ValkeyConfig := ⟨fun _ => digest 0, "idempotency", .strict⟩

theorem subject_size : 1 ≤ "subject".length ∧ "subject".length ≤ 255 := by decide

theorem operation_size : 1 ≤ "operation".length ∧ "operation".length ≤ 100 := by decide

def client : IdempotencyIdentity := ⟨"subject", "operation", digest 3, subject_size, operation_size⟩

theorem counterSet_size : 1 ≤ "counter.set".length ∧ "counter.set".length ≤ 100 := by decide

/-- A result with a payload whose keys are not in order. -/
def receipt : PlainResult where
  completed :=
    { resultType := "counter.set"
      resultPayload := some [("b", .int 2), ("a", .int 1)]
      resultVersion := 1
      resourceType := none
      resourceId := none
      resourceVersion := none
      resultTypeSize := counterSet_size
      resultVersionPos := Nat.one_pos
      resourceTypeSize := StoredResult.untyped
      resourceVersionPos := StoredResult.unversioned
      resourcePair := StoredResult.unpaired
      replayable := by simp
      versioned := StoredResult.unbound
      requestHash := digest 1 }
  payload := by
    intro fields hfields
    cases hfields
    refine .obj (by decide) fun f hf => ?_
    simp only [List.mem_cons, List.not_mem_nil, or_false] at hf
    rcases hf with rfl | rfl
    · exact .int 2
    · exact .int 1

/-- One owner begins and completes. -/
def served : List HotEvent := [.begin client (digest 1) 1, .complete client 1 receipt]

end Sample

/-- While the first owner works, a second one does not acquire; afterwards a
third is answered with a result that was passed to `complete`. -/
theorem entry_protocol_served :
    (∃ r, (Entries.after Sample.valkey [.begin Sample.client (Sample.digest 1) 1]).begin
      Sample.valkey Sample.client (Sample.digest 1) 2 = .ok r ∧ r.action ≠ .acquired) ∧
    ∃ r c, (Entries.after Sample.valkey Sample.served).begin Sample.valkey Sample.client
        (Sample.digest 1) 3 = .ok r ∧ r.completed = some c ∧
      ∃ result, CompletedBy Sample.valkey Sample.served
        (Sample.valkey.storageKey Sample.client) result ∧ c = result.completed.sorted := by
  constructor
  · obtain ⟨-, hbegin, hexclusive, -⟩ :=
      entry_protocol Sample.valkey [.begin Sample.client (Sample.digest 1) 1]
    obtain ⟨-, r, hr⟩ := hbegin Sample.client (Sample.digest 1) 2
    refine ⟨r, hr, hexclusive [] Sample.client (Sample.digest 1) 1 [] .acquired Sample.client
      (Sample.digest 1) 2 r rfl rfl rfl ?_ rfl hr⟩
    intro e he
    cases he
  · obtain ⟨-, -, -, -, hreplay⟩ := entry_protocol Sample.valkey Sample.served
    have hentry : Entries.after Sample.valkey Sample.served
        (Sample.valkey.storageKey Sample.client) =
          some (completedEntry Sample.receipt.completed) := by
      simp [Entries.after, Sample.served, Entries.step, HotEvent.key, HotEvent.apply,
        HotHash.beginScript, HotHash.completeScript, HotHash.processing, completedEntry,
        Sample.receipt]
    obtain ⟨r, c, hr, hc⟩ : ∃ r c, (Entries.after Sample.valkey Sample.served).begin Sample.valkey
        Sample.client (Sample.digest 1) 3 = .ok r ∧ r.completed = some c := by
      have hhash : Sample.receipt.completed.requestHash = Sample.digest 1 := rfl
      have hbegin := begin_completed hentry (Sample.digest 1) 3
      rw [if_pos hhash] at hbegin
      exact ⟨_, _, hbegin, rfl⟩
    obtain ⟨result, horigin, hsorted, -⟩ :=
      hreplay Sample.client (Sample.digest 1) 3 r c hr hc
    exact ⟨r, c, hr, hc, result, horigin, hsorted⟩

end IdentityService
