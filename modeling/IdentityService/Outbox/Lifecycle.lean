import IdentityService.Fencing

/-!
# The life of an outbox row

What a statement can make of a row is said once, as `OutboxMessage.Next`,
and `OutboxCall.turn` shows that every statement keeps to it. What rows
look like, and when they go, follows row by row: the pattern of columns that
the `CHECK` asks for, the order columns, the attempts.

`Outbox.Repository` leaves the `CHECK` out of the statements and the
validator out of the loads; here is why neither ever refuses.
-/

namespace IdentityService

open Concurrent

/-! ## The constraint and the validator -/

namespace OutboxMessage

/-- `ck_outbox_lifecycle`. -/
def lifecycle (m : OutboxMessage) : Bool :=
  match m.status with
  | .pending => m.claimToken.isNone && m.claimExpiresAt.isNone && m.terminalAt.isNone
  | .claimed => m.claimToken.isSome && m.claimExpiresAt.isSome && m.terminalAt.isNone
  | .success => m.claimToken.isNone && m.claimExpiresAt.isNone && m.terminalAt.isSome
  | .quarantined => m.claimToken.isNone && m.claimExpiresAt.isNone && m.terminalAt.isSome

/-- `validate_lifecycle`; stored timestamps are aware. -/
def validateLifecycle (m : OutboxMessage) : Except Exn Unit := do
  if m.claimToken.isSome ≠ m.claimExpiresAt.isSome then
    throw (.valueError "claim token and expiration must be set together")
  if m.status = .claimed then
    if m.claimToken.isNone || m.terminalAt.isSome then
      throw (.valueError "CLAIMED outbox message requires a live claim")
  else if m.claimToken.isSome then
    throw (.valueError "only CLAIMED outbox message may hold a claim")
  if m.status = .success ∨ m.status = .quarantined then
    if m.terminalAt.isNone then
      throw (.valueError "terminal outbox message requires terminal_at")
  else if m.terminalAt.isSome then
    throw (.valueError "nonterminal outbox message cannot have terminal_at")

/-- The table's constraint and the DTO's validator agree. -/
theorem validateLifecycle_ok (m : OutboxMessage) :
    m.validateLifecycle = .ok () ↔ m.lifecycle = true := by
  cases hs : m.status <;> cases ht : m.claimToken <;> cases he : m.claimExpiresAt <;>
    cases hd : m.terminalAt <;>
    simp [validateLifecycle, lifecycle, hs, ht, he, hd, pure, Except.pure, throw, throwThe,
      MonadExceptOf.throw, bind, Except.bind]

/-- From some time on a row with its lifecycle is claimable, if nobody
touches it. -/
theorem eligible_eventually {m : OutboxMessage} (h : m.lifecycle = true)
    (hopen : m.terminal = false) : ∃ due, ∀ t, due ≤ t → m.eligible t = true := by
  rcases open_iff.mp hopen with hs | hs
  · refine ⟨m.availableAt, fun t ht => ?_⟩
    simp [eligible, hs, ht]
  · simp only [lifecycle, hs, Bool.and_eq_true] at h
    obtain ⟨due, hdue⟩ := Option.isSome_iff_exists.mp h.1.2
    refine ⟨due, fun t ht => ?_⟩
    simp [eligible, hs, hdue, ht]

/-! ## What a statement makes of a row -/

/-- What a statement can make of a row. -/
inductive Next : OutboxCall → OutboxMessage → OutboxMessage → Prop where
  | same (c : OutboxCall) (m : OutboxMessage) : Next c m m
  | claim {m : OutboxMessage} (locked : Uuid → Bool) (ownerToken : Uuid)
      (claimedAt claimExpiresAt : Time) (limit : Int) (h : m.terminal = false) :
      Next (.claimBatch locked ownerToken claimedAt claimExpiresAt limit) m
        (m.claim ownerToken claimExpiresAt)
  | finalize {m : OutboxMessage} {messageId ownerToken : Uuid} (publishedAt : Time)
      (h : m.ownedBy messageId ownerToken = true) :
      Next (.finalizePublished messageId ownerToken publishedAt) m (m.finalizeRow publishedAt)
  | retry {m : OutboxMessage} {messageId ownerToken : Uuid} (availableAt : Time)
      (errorClass : String) (h : m.ownedBy messageId ownerToken = true) :
      Next (.scheduleRetry messageId ownerToken availableAt errorClass) m
        (m.retryRow availableAt errorClass)
  | quarantine {m : OutboxMessage} {messageId ownerToken : Uuid} (quarantinedAt : Time)
      (errorClass : String) (h : m.ownedBy messageId ownerToken = true) :
      Next (.quarantine messageId ownerToken quarantinedAt errorClass) m
        (m.quarantineRow quarantinedAt errorClass)
  | redrive {m : OutboxMessage} {messageId : Uuid} (availableAt : Time) (hid : m.id = messageId)
      (h : m.status = .quarantined) :
      Next (.redriveQuarantined messageId availableAt) m (m.redriveRow availableAt)

namespace Next

variable {c : OutboxCall} {m m' : OutboxMessage}

theorem sameColumns (h : Next c m m') : m'.Same m := by
  cases h <;> exact ⟨rfl, rfl, rfl⟩

theorem lifecycle_kept (h : Next c m m') (hlife : m.lifecycle = true) : m'.lifecycle = true := by
  cases h with
  | same => exact hlife
  | claim => rfl
  | finalize => rfl
  | retry => rfl
  | quarantine => rfl
  | redrive => rfl

/-- Only a redrive takes attempts back. -/
theorem attempts_le (h : Next c m m') :
    m.attempts ≤ m'.attempts ∨ ∃ availableAt, c = .redriveQuarantined m.id availableAt := by
  cases h with
  | same => exact .inl (Nat.le_refl _)
  | claim => exact .inl (Nat.le_refl _)
  | finalize => exact .inl (Nat.le_succ _)
  | retry => exact .inl (Nat.le_succ _)
  | quarantine => exact .inl (Nat.le_succ _)
  | redrive availableAt hid h => exact .inr ⟨availableAt, by rw [hid]⟩

/-- A row that turns SUCCESS is finalized by the owner of its claim. -/
theorem of_success (h : Next c m m') (hs : m'.status = .success) :
    m' = m ∨ ∃ ownerToken publishedAt, c = .finalizePublished m.id ownerToken publishedAt ∧
      m.status = .claimed ∧ m.claimToken = some ownerToken := by
  cases h with
  | same => exact .inl rfl
  | finalize publishedAt h =>
    obtain ⟨rfl, hclaimed, htoken⟩ := OrderInv.ownedBy_iff.mp h
    exact .inr ⟨_, publishedAt, rfl, hclaimed, htoken⟩
  | claim => cases hs
  | retry => cases hs
  | quarantine => cases hs
  | redrive => cases hs

/-- An open row is closed by the owner of its claim, one way or the other. -/
theorem of_open (h : Next c m m') (hopen : m.terminal = false) :
    m'.terminal = false ∨
    (∃ ownerToken publishedAt, c = .finalizePublished m.id ownerToken publishedAt ∧
      m.claimToken = some ownerToken) ∨
    ∃ ownerToken quarantinedAt errorClass,
      c = .quarantine m.id ownerToken quarantinedAt errorClass ∧
        m.ownedBy m.id ownerToken = true := by
  cases h with
  | same => exact .inl hopen
  | claim => exact .inl rfl
  | finalize publishedAt h =>
    obtain ⟨rfl, -, htoken⟩ := OrderInv.ownedBy_iff.mp h
    exact .inr (.inl ⟨_, publishedAt, rfl, htoken⟩)
  | retry => exact .inl rfl
  | quarantine quarantinedAt errorClass h =>
    obtain ⟨rfl, -, -⟩ := OrderInv.ownedBy_iff.mp h
    exact .inr (.inr ⟨_, quarantinedAt, errorClass, rfl, h⟩)
  | redrive => exact .inl rfl

/-- A new owner comes with the token of a claim. -/
theorem owner (h : Next c m m') : m' = m ∨ m'.claimToken = none ∨ m'.claimToken = c.issues := by
  cases h with
  | same => exact .inl rfl
  | claim => exact .inr (.inr rfl)
  | finalize => exact .inr (.inl rfl)
  | retry => exact .inr (.inl rfl)
  | quarantine => exact .inr (.inl rfl)
  | redrive => exact .inr (.inl rfl)

end Next

end OutboxMessage

/-- The row `publish` inserts. -/
def IntegrationEvent.row (topic : String) (event : IntegrationEvent) : OutboxMessage where
  id := event.eventId
  kind := .event
  topic := topic
  key := event.partitionKey
  type := event.eventType
  payload := event.envelope
  status := .pending
  attempts := 0
  lastErrorClass := none
  availableAt := event.occurredAt
  claimToken := none
  claimExpiresAt := none
  terminalAt := none
  redriveCount := 0
  createdAt := event.occurredAt

/-! ## What a statement can make of the table -/

/-- Every row comes from one before, or is newly published; and every row
stays, unless it was finished. -/
structure OutboxCall.Turn (c : OutboxCall) (rows rows' : List OutboxMessage) : Prop where
  old : ∀ x' ∈ rows', (∃ x ∈ rows, OutboxMessage.Next c x x') ∨
    ∃ topic event, c = .publish topic event ∧ x' = event.row topic ∧ ∀ x ∈ rows, x.id ≠ x'.id
  kept : ∀ x ∈ rows, (∃ x' ∈ rows', OutboxMessage.Next c x x') ∨ x.terminal = true

namespace OutboxCall

variable {c : OutboxCall} {rows rows' : List OutboxMessage}

theorem Turn.refl (c : OutboxCall) (rows : List OutboxMessage) : Turn c rows rows :=
  ⟨fun x hx => .inl ⟨x, hx, .same c x⟩, fun x hx => .inl ⟨x, hx, .same c x⟩⟩

/-- A rewriting, row by row. -/
theorem Turn.update {p : OutboxMessage → Bool} {f : OutboxMessage → OutboxMessage}
    (h : ∀ x ∈ rows, p x = true → OutboxMessage.Next c x (f x)) :
    Turn c rows (Table.update p f rows) := by
  refine ⟨fun x' hx' => ?_, fun x hx => ?_⟩
  · obtain ⟨x, hx, ⟨hp, rfl⟩ | ⟨-, rfl⟩⟩ := Table.mem_update.mp hx'
    · exact .inl ⟨x, hx, h x hx hp⟩
    · exact .inl ⟨_, hx, .same c _⟩
  · cases hp : p x with
    | true => exact .inl ⟨f x, Table.mem_update.mpr ⟨x, hx, .inl ⟨hp, rfl⟩⟩, h x hx hp⟩
    | false => exact .inl ⟨x, Table.mem_update.mpr ⟨x, hx, .inr ⟨hp, rfl⟩⟩, .same c x⟩

/-- A cleanup that selects among some of the rows. -/
theorem Turn.delete (hn : (rows.map OutboxMessage.id).Nodup) {free : List OutboxMessage}
    (hfree : ∀ x ∈ free, x ∈ rows) (terminalAt : Time) (limit : Nat) :
    Turn c rows (rows.filter fun m =>
      !((Outbox.removable free terminalAt limit).map OutboxMessage.id).contains m.id) := by
  refine ⟨fun x' hx' => .inl ⟨x', (List.mem_filter.mp hx').1, .same c x'⟩, fun x hx => ?_⟩
  cases hgone : ((Outbox.removable free terminalAt limit).map OutboxMessage.id).contains x.id with
  | false => exact .inl ⟨x, List.mem_filter.mpr ⟨hx, by rw [hgone]; rfl⟩, .same c x⟩
  | true =>
    obtain ⟨z, hz, hid⟩ := List.mem_map.mp (List.contains_iff_mem.mp hgone)
    obtain ⟨hmem, hdone⟩ := Table.mem_select hz
    have hzx : z = x := List.inj_on_of_nodup_map hn (hfree z hmem) hx hid
    rw [Bool.and_eq_true] at hdone
    exact .inr (hzx ▸ hdone.1)

theorem turn (hn : (rows.map OutboxMessage.id).Nodup) (c : OutboxCall) :
    c.Turn rows (c.on rows).rows := by
  cases c with
  | tick elapsed => exact .refl _ _
  | publish topic event =>
    simp only [on, OutboxState.step, Outbox.publish]
    split
    · rename_i rows' hrows
      split at hrows
      · cases hrows
      · rename_i hnew
        cases hrows
        refine ⟨fun x' hx' => ?_, fun x hx => ?_⟩
        · rcases List.mem_append.mp hx' with hx' | hx'
          · exact .inl ⟨x', hx', .same _ x'⟩
          · have hrow := List.mem_singleton.mp hx'
            refine .inr ⟨topic, event, rfl, hrow, fun x hx hid => hnew ?_⟩
            rw [hrow] at hid
            exact List.any_eq_true.mpr ⟨x, hx, by simpa using hid⟩
        · exact .inl ⟨x, List.mem_append_left _ hx, .same _ x⟩
    · exact .refl _ _
  | claimBatch locked ownerToken claimedAt claimExpiresAt limit =>
    simp only [on, OutboxState.step]
    split
    · rename_i batch rows' hc
      rw [(OrderInv.claimBatch_cases (s := ⟨rows, 0, [], fun _ => none, []⟩) hc).2]
      exact .update fun x hx hp => .claim _ _ _ _ _ (OrderInv.picked_open hn hx hp).1
    · exact .refl _ _
  | finalizePublished messageId ownerToken publishedAt =>
    exact .update fun x _ hp => .finalize publishedAt hp
  | scheduleRetry messageId ownerToken availableAt errorClass =>
    exact .update fun x _ hp => .retry availableAt errorClass hp
  | quarantine messageId ownerToken quarantinedAt errorClass =>
    exact .update fun x _ hp => .quarantine quarantinedAt errorClass hp
  | redriveQuarantined messageId availableAt =>
    refine .update fun x _ hp => ?_
    simp only [Bool.and_eq_true, decide_eq_true_eq] at hp
    exact .redrive availableAt hp.1.1 hp.1.2
  | deleteTerminalBefore terminalAt limit =>
    simp only [on, OutboxState.step, Outbox.deleteTerminalBefore]
    split
    · rename_i n rows' hrows
      split at hrows
      · cases hrows
      · cases hrows
        exact .delete hn (fun _ hx => hx) _ _
    · exact .refl _ _

/-- So no statement writes a row that the `CHECK` refuses. -/
theorem Turn.lifecycle (h : c.Turn rows rows') (hlife : ∀ x ∈ rows, x.lifecycle = true) :
    ∀ x ∈ rows', x.lifecycle = true := by
  intro x' hx'
  rcases h.old x' hx' with ⟨x, hx, hnext⟩ | ⟨topic, event, -, rfl, -⟩
  · exact hnext.lifecycle_kept (hlife x hx)
  · rfl

theorem Turn.fences (h : c.Turn rows rows') :
    ∀ x' ∈ rows', x' ∈ rows ∨ x'.claimToken = none ∨ x'.claimToken = c.issues := by
  intro x' hx'
  rcases h.old x' hx' with ⟨x, hx, hnext⟩ | ⟨topic, event, -, rfl, -⟩
  · rcases hnext.owner with rfl | hown
    · exact .inl hx
    · exact .inr hown
  · exact .inr (.inl rfl)

end OutboxCall

end IdentityService
