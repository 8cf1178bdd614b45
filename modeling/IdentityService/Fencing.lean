import IdentityService.Outbox.Order
import IdentityService.Registration.Operations

/-!
# Claims are fenced by their token

Workers act on snapshots they took before slow network calls. In both
tables a finishing write that takes place finds the row as the worker last
read it, whatever happened in between: the claim may have expired and been
taken over, the row retried, blocked and redriven, but never back to the
worker's own token.
-/

namespace IdentityService

open Concurrent

/-! ## Registrations -/

/-- The calls of `RegistrationOperationRepository` that write. -/
inductive RegistrationCall where
  | tryCreate (operation : RegistrationOperation)
  | claimByKeyHash (keyHash : Digest) (ownerToken : Uuid) (claimedAt claimExpiresAt : Time)
  | claimBatch (locked : Uuid → Bool) (ownerToken : Uuid) (claimedAt claimExpiresAt : Time)
      (limit : Int)
  | complete (operationId ownerToken : Uuid) (completedAt : Time)
  | scheduleRetry (operationId ownerToken : Uuid) (failedAt availableAt : Time)
      (errorClass : String)
  | block (operationId ownerToken : Uuid) (blockedAt : Time) (errorClass : String)
  | redriveBlocked (operationId : Uuid) (availableAt : Time)

namespace RegistrationCall

/-- The table a statement leaves: the one it was given if it raises. -/
def left {α : Type} (rows : List RegistrationOperation) :
    Except Exn (α × List RegistrationOperation) → List RegistrationOperation
  | .ok (_, rows') => rows'
  | .error _ => rows

/-- Whether a finishing write returned True. -/
def told : Except Exn (Bool × List RegistrationOperation) → Bool
  | .ok (b, _) => b
  | .error _ => false

/-- The table after a call. -/
def exec (c : RegistrationCall) (rows : List RegistrationOperation) : List RegistrationOperation :=
  match c with
  | .tryCreate operation => left rows (Registrations.tryCreate rows operation)
  | .claimByKeyHash keyHash ownerToken claimedAt claimExpiresAt =>
    left rows (Registrations.claimByKeyHash rows keyHash ownerToken claimedAt claimExpiresAt)
  | .claimBatch locked ownerToken claimedAt claimExpiresAt limit =>
    left rows (Registrations.claimBatch rows locked ownerToken claimedAt claimExpiresAt limit)
  | .complete operationId ownerToken completedAt =>
    left rows (Registrations.complete rows operationId ownerToken completedAt)
  | .scheduleRetry operationId ownerToken failedAt availableAt errorClass =>
    left rows (Registrations.scheduleRetry rows operationId ownerToken failedAt availableAt
      errorClass)
  | .block operationId ownerToken blockedAt errorClass =>
    left rows (Registrations.block rows operationId ownerToken blockedAt errorClass)
  | .redriveBlocked operationId availableAt =>
    left rows (Registrations.redriveBlocked rows operationId availableAt)

/-- The rows a call hands to its caller as claimed. -/
def claimed (c : RegistrationCall) (rows : List RegistrationOperation) :
    List RegistrationOperation :=
  match c with
  | .tryCreate operation =>
    match Registrations.tryCreate rows operation with
    | .ok (some created, _) => [created]
    | _ => []
  | .claimByKeyHash keyHash ownerToken claimedAt claimExpiresAt =>
    match Registrations.claimByKeyHash rows keyHash ownerToken claimedAt claimExpiresAt with
    | .ok (some o, _) => [o]
    | _ => []
  | .claimBatch locked ownerToken claimedAt claimExpiresAt limit =>
    match Registrations.claimBatch rows locked ownerToken claimedAt claimExpiresAt limit with
    | .ok (batch, _) => batch
    | .error _ => []
  | _ => []

/-- The token a call puts into rows; an operation is created claimed. -/
def issues : RegistrationCall → Option Uuid
  | .tryCreate operation => operation.claimToken
  | .claimByKeyHash _ ownerToken _ _ => some ownerToken
  | .claimBatch _ ownerToken _ _ _ => some ownerToken
  | _ => none

/-- The row and the token of a finishing write. -/
def finishes : RegistrationCall → Option (Uuid × Uuid)
  | .complete operationId ownerToken _ => some (operationId, ownerToken)
  | .scheduleRetry operationId ownerToken _ _ _ => some (operationId, ownerToken)
  | .block operationId ownerToken _ _ => some (operationId, ownerToken)
  | _ => none

/-- Whether a finishing write takes place. -/
def succeeds (c : RegistrationCall) (rows : List RegistrationOperation) : Bool :=
  match c with
  | .complete operationId ownerToken completedAt =>
    told (Registrations.complete rows operationId ownerToken completedAt)
  | .scheduleRetry operationId ownerToken failedAt availableAt errorClass =>
    told (Registrations.scheduleRetry rows operationId ownerToken failedAt availableAt errorClass)
  | .block operationId ownerToken blockedAt errorClass =>
    told (Registrations.block rows operationId ownerToken blockedAt errorClass)
  | _ => false

/-- Everything a call can do to the table. -/
theorem exec_cases (c : RegistrationCall) (rows : List RegistrationOperation) :
    c.exec rows = rows ∨
    (∃ operation, c = .tryCreate operation ∧ c.exec rows = rows ++ [operation] ∧
      ∀ o ∈ rows, operation.collides o = false) ∨
    ∃ p f, c.exec rows = Table.update p f rows ∧
      (∀ o, RegistrationOperation.SameIdentity (f o) o) ∧
      ∀ o, (f o).claimToken = none ∨ (f o).claimToken = c.issues := by
  cases c with
  | tryCreate operation =>
      simp only [exec]
      cases h : Registrations.tryCreate rows operation with
      | error x => exact .inl rfl
      | ok out =>
          obtain ⟨r, rows'⟩ := out
          rcases Registrations.tryCreate_cases h with ⟨-, rfl, -⟩ | ⟨-, rfl, -, hnew⟩
          · exact .inl rfl
          · exact .inr (.inl ⟨operation, rfl, rfl, hnew⟩)
  | claimByKeyHash keyHash ownerToken claimedAt claimExpiresAt =>
      simp only [exec]
      cases h : Registrations.claimByKeyHash rows keyHash ownerToken claimedAt claimExpiresAt with
      | error x => exact .inl rfl
      | ok out =>
          obtain ⟨r, rows'⟩ := out
          obtain ⟨rfl, -⟩ := Registrations.claimByKeyHash_cases h
          exact .inr (.inr ⟨_, _, rfl, fun _ => ⟨rfl, rfl, rfl, rfl, rfl⟩, fun _ => .inr rfl⟩)
  | claimBatch locked ownerToken claimedAt claimExpiresAt limit =>
      simp only [exec]
      cases h : Registrations.claimBatch rows locked ownerToken claimedAt claimExpiresAt limit with
      | error x => exact .inl rfl
      | ok out =>
          obtain ⟨batch, rows'⟩ := out
          obtain ⟨ids, -, rfl, -⟩ := Registrations.claimBatch_cases h
          exact .inr (.inr ⟨_, _, rfl, fun _ => ⟨rfl, rfl, rfl, rfl, rfl⟩, fun _ => .inr rfl⟩)
  | complete operationId ownerToken completedAt =>
      simp only [exec]
      cases h : Registrations.complete rows operationId ownerToken completedAt with
      | error x => exact .inl rfl
      | ok out =>
          obtain ⟨b, rows'⟩ := out
          obtain ⟨-, rfl, -⟩ := Registrations.finish_cases h
          exact .inr (.inr ⟨_, _, rfl, fun _ => ⟨rfl, rfl, rfl, rfl, rfl⟩, fun _ => .inl rfl⟩)
  | scheduleRetry operationId ownerToken failedAt availableAt errorClass =>
      simp only [exec]
      cases h : Registrations.scheduleRetry rows operationId ownerToken failedAt availableAt
          errorClass with
      | error x => exact .inl rfl
      | ok out =>
          obtain ⟨b, rows'⟩ := out
          obtain ⟨-, rfl, -⟩ := Registrations.finish_cases h
          exact .inr (.inr ⟨_, _, rfl, fun _ => ⟨rfl, rfl, rfl, rfl, rfl⟩, fun _ => .inl rfl⟩)
  | block operationId ownerToken blockedAt errorClass =>
      simp only [exec]
      cases h : Registrations.block rows operationId ownerToken blockedAt errorClass with
      | error x => exact .inl rfl
      | ok out =>
          obtain ⟨b, rows'⟩ := out
          obtain ⟨-, rfl, -⟩ := Registrations.finish_cases h
          exact .inr (.inr ⟨_, _, rfl, fun _ => ⟨rfl, rfl, rfl, rfl, rfl⟩, fun _ => .inl rfl⟩)
  | redriveBlocked operationId availableAt =>
      simp only [exec]
      cases h : Registrations.redriveBlocked rows operationId availableAt with
      | error x => exact .inl rfl
      | ok out =>
          obtain ⟨b, rows'⟩ := out
          obtain ⟨-, rfl⟩ := Registrations.redriveBlocked_cases h
          exact .inr (.inr ⟨_, _, rfl, fun _ => ⟨rfl, rfl, rfl, rfl, rfl⟩, fun _ => .inl rfl⟩)

/-- The three finishing writes are one statement, with the owner's guard. -/
theorem finishing {c : RegistrationCall} {i t : Uuid} (h : c.finishes = some (i, t)) :
    ∃ time f, (∀ o : RegistrationOperation, (f o).id = o.id ∧ (f o).claimToken = none) ∧
      ∀ rows, c.exec rows = left rows (Registrations.finish rows i t time f) ∧
        c.succeeds rows = told (Registrations.finish rows i t time f) := by
  cases c with
  | complete operationId ownerToken completedAt =>
      cases h
      refine ⟨_, _, ?_, fun _ => ⟨rfl, rfl⟩⟩
      exact fun _ => ⟨rfl, rfl⟩
  | scheduleRetry operationId ownerToken failedAt availableAt errorClass =>
      cases h
      refine ⟨_, _, ?_, fun _ => ⟨rfl, rfl⟩⟩
      exact fun _ => ⟨rfl, rfl⟩
  | block operationId ownerToken blockedAt errorClass =>
      cases h
      refine ⟨_, _, ?_, fun _ => ⟨rfl, rfl⟩⟩
      exact fun _ => ⟨rfl, rfl⟩
  | tryCreate | claimByKeyHash | claimBatch | redriveBlocked => cases h

theorem claimed_mem {c : RegistrationCall} {rows : List RegistrationOperation}
    {r : RegistrationOperation} (h : r ∈ c.claimed rows) :
    r ∈ c.exec rows ∧ r.claimToken = c.issues := by
  cases c with
  | tryCreate operation =>
      simp only [claimed] at h
      split at h
      · rename_i created rows' hc
        rw [List.mem_singleton] at h
        subst h
        obtain ⟨hr, -⟩ | ⟨hr, hrows, -⟩ := Registrations.tryCreate_cases hc
        · cases hr
        · cases hr
          simp [exec, hc, left, hrows, issues]
      · cases h
  | claimByKeyHash keyHash ownerToken claimedAt claimExpiresAt =>
      simp only [claimed] at h
      split at h
      · rename_i o rows' hc
        rw [List.mem_singleton] at h
        subst h
        obtain ⟨hrows, hr | ⟨x, hx, hk, he, hr⟩⟩ := Registrations.claimByKeyHash_cases hc
        · cases hr
        · cases hr
          refine ⟨?_, rfl⟩
          simp only [exec, hc, left, hrows]
          exact Table.mem_update.mpr ⟨x, hx, .inl ⟨by simp [hk, he], rfl⟩⟩
      · cases h
  | claimBatch locked ownerToken claimedAt claimExpiresAt limit =>
      simp only [claimed] at h
      split at h
      · rename_i batch rows' hc
        obtain ⟨ids, -, hrows, hbatch⟩ := Registrations.claimBatch_cases hc
        obtain ⟨x, hx, hid, rfl⟩ := hbatch r h
        refine ⟨?_, rfl⟩
        simp only [exec, hc, left, hrows]
        exact Table.mem_update.mpr ⟨x, hx, .inl ⟨hid, rfl⟩⟩
      · cases h
  | complete | scheduleRetry | block | redriveBlocked => cases h

section Told

variable {rows : List RegistrationOperation} {i t : Uuid} {time : Time}
  {f : RegistrationOperation → RegistrationOperation}

/-- True: the owner's row was there, and was rewritten. -/
theorem told_true (h : told (Registrations.finish rows i t time f) = true) :
    ∃ x ∈ rows, x.ownedBy i t time = true ∧
      left rows (Registrations.finish rows i t time f) =
        Table.update (RegistrationOperation.ownedBy i t time) f rows := by
  cases hx : Registrations.finish rows i t time f with
  | error x =>
      rw [hx] at h
      cases h
  | ok out =>
      obtain ⟨b, rows'⟩ := out
      rw [hx] at h
      obtain ⟨-, hrows, hb⟩ := Registrations.finish_cases hx
      have hany : rows.any (RegistrationOperation.ownedBy i t time) = true := hb ▸ h
      obtain ⟨x, hx, ho⟩ := List.any_eq_true.mp hany
      exact ⟨x, hx, ho, hrows⟩

/-- False: it was not, and nothing was. -/
theorem told_false (h : told (Registrations.finish rows i t time f) = false) :
    left rows (Registrations.finish rows i t time f) = rows := by
  cases hx : Registrations.finish rows i t time f with
  | error x => rfl
  | ok out =>
      obtain ⟨b, rows'⟩ := out
      rw [hx] at h
      obtain ⟨-, hrows, hb⟩ := Registrations.finish_cases hx
      have hany : rows.any (RegistrationOperation.ownedBy i t time) = false := hb ▸ h
      rw [List.any_eq_false] at hany
      rw [left, hrows]
      exact Table.update_of_none fun x hx => by simpa using hany x hx

end Told

/-- How the table of operations is worked on. -/
def claims : Table.Claims RegistrationOperation Uuid Uuid RegistrationCall :=
  ⟨RegistrationOperation.id, RegistrationOperation.claimToken, exec, issues, claimed, finishes,
    succeeds⟩

theorem disciplined : claims.Disciplined where
  fences c rows r hr := by
    change r ∈ c.exec rows at hr
    rcases exec_cases c rows with h | ⟨operation, rfl, h, -⟩ | ⟨p, f, h, -, hown⟩
    · exact .inl (h ▸ hr)
    · rw [h, List.mem_append, List.mem_singleton] at hr
      rcases hr with hr | rfl
      · exact .inl hr
      · exact .inr (.inr rfl)
    · rw [h] at hr
      obtain ⟨x, hx, ⟨-, rfl⟩ | ⟨-, rfl⟩⟩ := Table.mem_update.mp hr
      · exact .inr (hown x)
      · exact .inl hx
  ids c rows hn := by
    change ((c.exec rows).map RegistrationOperation.id).Nodup
    rcases exec_cases c rows with h | ⟨operation, rfl, h, hnew⟩ | ⟨p, f, h, hid, -⟩
    · rw [h]
      exact hn
    · rw [h, List.map_append, List.nodup_append]
      refine ⟨hn, by simp, ?_⟩
      intro a ha b hb
      rw [List.map_cons, List.map_nil, List.mem_singleton] at hb
      subst hb
      rintro rfl
      obtain ⟨x, hx, hxid⟩ := List.mem_map.mp ha
      have hcol := hnew x hx
      simp only [RegistrationOperation.collides, hxid] at hcol
      simp at hcol
    · rw [h, Table.map_update RegistrationOperation.id fun o => (hid o).id]
      exact hn
  claimed c rows r hr := claimed_mem hr
  named c rows i t hf hs := by
    obtain ⟨time, f, -, hc⟩ := finishing hf
    obtain ⟨x, hx, ho, -⟩ := told_true ((hc rows).2.symm.trans hs)
    obtain ⟨hid, -, htok, -⟩ := Registrations.ownedBy_iff.mp ho
    exact ⟨x, hx, hid, htok⟩
  released c rows i t hn hf hs y hy hid := by
    obtain ⟨time, f, hown, hc⟩ := finishing hf
    obtain ⟨x, hx, ho, hleft⟩ := told_true ((hc rows).2.symm.trans hs)
    change y ∈ c.exec rows at hy
    rw [(hc rows).1, hleft] at hy
    obtain ⟨z, hz, ⟨-, rfl⟩ | ⟨hno, rfl⟩⟩ := Table.mem_update.mp hy
    · exact (hown z).2
    · -- a row of that id that was not rewritten: there is only one
      have hxz : x = y :=
        List.inj_on_of_nodup_map hn hx hz ((Registrations.ownedBy_iff.mp ho).1.trans hid.symm)
      rw [← hxz, ho] at hno
      cases hno
  refused c rows hf hs := by
    obtain ⟨⟨i, t⟩, hit⟩ := Option.isSome_iff_exists.mp hf
    obtain ⟨time, f, -, hc⟩ := finishing hit
    change c.exec rows = rows
    rw [(hc rows).1]
    exact told_false ((hc rows).2.symm.trans hs)

end RegistrationCall

/-! ## The outbox -/

namespace OutboxCall

/-- A call on a table without history. -/
def on (c : OutboxCall) (rows : List OutboxMessage) : OutboxState :=
  OutboxState.step ⟨rows, 0, [], fun _ => none, []⟩ c

/-- The token that a claim puts into rows. -/
def issues : OutboxCall → Option Uuid
  | .claimBatch _ ownerToken _ _ _ => some ownerToken
  | _ => none

/-- The message and the token of a finishing write. -/
def finishes : OutboxCall → Option (Uuid × Uuid)
  | .finalizePublished messageId ownerToken _ => some (messageId, ownerToken)
  | .scheduleRetry messageId ownerToken _ _ => some (messageId, ownerToken)
  | .quarantine messageId ownerToken _ _ => some (messageId, ownerToken)
  | _ => none

/-- What a finishing write returns. -/
def succeeds (c : OutboxCall) (rows : List OutboxMessage) : Bool :=
  match c with
  | .finalizePublished messageId ownerToken publishedAt =>
    (Outbox.finalizePublished rows messageId ownerToken publishedAt).1
  | .scheduleRetry messageId ownerToken availableAt errorClass =>
    (Outbox.scheduleRetry rows messageId ownerToken availableAt errorClass).1
  | .quarantine messageId ownerToken quarantinedAt errorClass =>
    (Outbox.quarantine rows messageId ownerToken quarantinedAt errorClass).1
  | _ => false

/-- How the outbox is worked on. -/
def claims : Table.Claims OutboxMessage Uuid Uuid OutboxCall :=
  ⟨OutboxMessage.id, OutboxMessage.claimToken, fun c rows => (c.on rows).rows, issues,
    fun c rows => (c.on rows).claims, finishes, succeeds⟩

/-- Everything a call can do to the table. -/
theorem exec_cases (c : OutboxCall) (rows : List OutboxMessage) :
    (c.on rows).rows = rows ∨
    (∃ m : OutboxMessage, (c.on rows).rows = rows ++ [m] ∧ m.claimToken = none ∧
      ∀ o ∈ rows, o.id ≠ m.id) ∨
    (∃ p f, (c.on rows).rows = Table.update p f rows ∧ (∀ m, (f m).id = m.id) ∧
      ∀ m, (f m).claimToken = none ∨ (f m).claimToken = c.issues) ∨
    ∃ p, (c.on rows).rows = rows.filter p := by
  cases c with
  | tick elapsed => exact .inl rfl
  | publish topic event =>
      simp only [on, OutboxState.step, Outbox.publish]
      split
      · rename_i rows' hrows
        split at hrows
        · cases hrows
        · rename_i hnew
          cases hrows
          refine .inr (.inl ⟨_, rfl, rfl, fun o ho hid => hnew ?_⟩)
          exact List.any_eq_true.mpr ⟨o, ho, by simpa using hid⟩
      · exact .inl rfl
  | claimBatch locked ownerToken claimedAt claimExpiresAt limit =>
      simp only [on, OutboxState.step]
      split
      · rename_i batch rows' hc
        simp only [Outbox.claimBatch] at hc
        split at hc
        · cases hc
        · split at hc
          · cases hc
          · cases hc
            exact .inr (.inr (.inl ⟨_, _, rfl, fun _ => rfl, fun _ => .inr rfl⟩))
      · exact .inl rfl
  | finalizePublished messageId ownerToken publishedAt =>
      exact .inr (.inr (.inl ⟨_, _, rfl, fun _ => rfl, fun _ => .inl rfl⟩))
  | scheduleRetry messageId ownerToken availableAt errorClass =>
      exact .inr (.inr (.inl ⟨_, _, rfl, fun _ => rfl, fun _ => .inl rfl⟩))
  | quarantine messageId ownerToken quarantinedAt errorClass =>
      exact .inr (.inr (.inl ⟨_, _, rfl, fun _ => rfl, fun _ => .inl rfl⟩))
  | redriveQuarantined messageId availableAt =>
      exact .inr (.inr (.inl ⟨_, _, rfl, fun _ => rfl, fun _ => .inl rfl⟩))
  | deleteTerminalBefore terminalAt limit =>
      simp only [on, OutboxState.step, Outbox.deleteTerminalBefore]
      split
      · rename_i n rows' hrows
        split at hrows
        · cases hrows
        · cases hrows
          exact .inr (.inr (.inr ⟨_, rfl⟩))
      · exact .inl rfl

theorem finishing {c : OutboxCall} {i t : Uuid} (h : c.finishes = some (i, t)) :
    ∃ f, (∀ m : OutboxMessage, (f m).id = m.id ∧ (f m).claimToken = none) ∧
      ∀ rows, (c.on rows).rows = (Outbox.finish rows i t f).2 ∧
        c.succeeds rows = (Outbox.finish rows i t f).1 := by
  cases c with
  | finalizePublished messageId ownerToken publishedAt =>
      cases h
      refine ⟨_, ?_, fun _ => ⟨rfl, rfl⟩⟩
      exact fun _ => ⟨rfl, rfl⟩
  | scheduleRetry messageId ownerToken availableAt errorClass =>
      cases h
      refine ⟨_, ?_, fun _ => ⟨rfl, rfl⟩⟩
      exact fun _ => ⟨rfl, rfl⟩
  | quarantine messageId ownerToken quarantinedAt errorClass =>
      cases h
      refine ⟨_, ?_, fun _ => ⟨rfl, rfl⟩⟩
      exact fun _ => ⟨rfl, rfl⟩
  | tick | publish | claimBatch | redriveQuarantined | deleteTerminalBefore => cases h

theorem claimed_mem {c : OutboxCall} {rows : List OutboxMessage} {r : OutboxMessage}
    (h : r ∈ (c.on rows).claims) : r ∈ (c.on rows).rows ∧ r.claimToken = c.issues := by
  cases c with
  | claimBatch locked ownerToken claimedAt claimExpiresAt limit =>
      simp only [on, OutboxState.step] at h ⊢
      split at h
      · rename_i batch rows' hc
        obtain ⟨z, hz, hp, rfl⟩ := OrderInv.mem_batch (s := ⟨rows, 0, [], fun _ => none, []⟩) hc h
        refine ⟨?_, rfl⟩
        rw [(OrderInv.claimBatch_cases (s := ⟨rows, 0, [], fun _ => none, []⟩) hc).2]
        exact Table.mem_update.mpr ⟨z, hz, .inl ⟨hp, rfl⟩⟩
      · cases h
  | publish topic event =>
      simp only [on, OutboxState.step] at h
      split at h
      · cases h
      · cases h
  | deleteTerminalBefore terminalAt limit =>
      simp only [on, OutboxState.step] at h
      split at h
      · cases h
      · cases h
  | tick | finalizePublished | scheduleRetry | quarantine | redriveQuarantined => cases h

theorem disciplined : claims.Disciplined where
  fences c rows r hr := by
    change r ∈ (c.on rows).rows at hr
    rcases exec_cases c rows with h | ⟨m, h, hown, -⟩ | ⟨p, f, h, -, hown⟩ | ⟨p, h⟩
    · exact .inl (h ▸ hr)
    · rw [h, List.mem_append, List.mem_singleton] at hr
      rcases hr with hr | rfl
      · exact .inl hr
      · exact .inr (.inl hown)
    · rw [h] at hr
      obtain ⟨x, hx, ⟨-, rfl⟩ | ⟨-, rfl⟩⟩ := Table.mem_update.mp hr
      · exact .inr (hown x)
      · exact .inl hx
    · rw [h] at hr
      exact .inl (List.mem_filter.mp hr).1
  ids c rows hn := by
    change (((c.on rows).rows).map OutboxMessage.id).Nodup
    rcases exec_cases c rows with h | ⟨m, h, -, hnew⟩ | ⟨p, f, h, hid, -⟩ | ⟨p, h⟩
    · rw [h]
      exact hn
    · rw [h, List.map_append, List.nodup_append]
      refine ⟨hn, by simp, ?_⟩
      intro a ha b hb
      rw [List.map_cons, List.map_nil, List.mem_singleton] at hb
      subst hb
      rintro rfl
      obtain ⟨x, hx, hxid⟩ := List.mem_map.mp ha
      exact hnew x hx hxid
    · rw [h, Table.map_update OutboxMessage.id hid]
      exact hn
    · rw [h]
      exact hn.sublist ((List.filter_sublist).map _)
  claimed c rows r hr := claimed_mem hr
  named c rows i t hf hs := by
    obtain ⟨f, -, hc⟩ := finishing hf
    obtain ⟨x, hx, ho⟩ := List.any_eq_true.mp ((hc rows).2.symm.trans hs)
    obtain ⟨hid, -, htok⟩ := OrderInv.ownedBy_iff.mp ho
    exact ⟨x, hx, hid, htok⟩
  released c rows i t hn hf hs y hy hid := by
    obtain ⟨f, hown, hc⟩ := finishing hf
    obtain ⟨x, hx, ho⟩ := List.any_eq_true.mp ((hc rows).2.symm.trans hs)
    change y ∈ (c.on rows).rows at hy
    rw [(hc rows).1] at hy
    obtain ⟨z, hz, ⟨-, rfl⟩ | ⟨hno, rfl⟩⟩ := Table.mem_update.mp hy
    · exact (hown z).2
    · have hxz : x = y :=
        List.inj_on_of_nodup_map hn hx hz ((OrderInv.ownedBy_iff.mp ho).1.trans hid.symm)
      rw [← hxz, ho] at hno
      cases hno
  refused c rows hf hs := by
    obtain ⟨⟨i, t⟩, hit⟩ := Option.isSome_iff_exists.mp hf
    obtain ⟨f, -, hc⟩ := finishing hit
    change (c.on rows).rows = rows
    have hany := List.any_eq_false.mp ((hc rows).2.symm.trans hs)
    rw [(hc rows).1]
    exact Table.update_of_none fun x hx => by simpa using hany x hx

end OutboxCall

/-- **Claim fencing**, for registrations and for the outbox. -/
theorem claims_fenced : RegistrationCall.claims.Fenced ∧ OutboxCall.claims.Fenced :=
  ⟨RegistrationCall.disciplined.fenced, OutboxCall.disciplined.fenced⟩

namespace Sample

/-- An operation as its first worker has created it, claimed until 10. -/
def contested : RegistrationOperation where
  id := 1
  userId := 2
  email := "user@example.org"
  passwordHash := some "hash"
  keyHash := digest 1
  status := .claimed
  attempts := 0
  availableAt := 5
  claimToken := some 7
  claimExpiresAt := some 10
  lastErrorClass := none
  terminalAt := none
  redriveCount := 0
  createdAt := 5

/-- A second worker takes it over when the first claim has expired. -/
def takeover : RegistrationCall := .claimByKeyHash (digest 1) 8 20 30

/-- The first worker comes back. -/
def lateCompletion : RegistrationCall := .complete 1 7 25

/-- The second one gives up for now. -/
def givingUp : RegistrationCall := .scheduleRetry 1 8 26 40 "ProfileProvisioningUnavailableError"

end Sample

open RegistrationCall Sample in
/-- The late write of the first worker is refused and changes nothing; the
write of the second takes place, on the row as it was taken over. -/
theorem claims_fenced_contested :
    claims.succeeds givingUp (claims.after [.tryCreate contested, takeover, lateCompletion]) =
        true ∧
      contested.claim 8 30 ∈ claims.after [.tryCreate contested, takeover, lateCompletion] ∧
      claims.exec lateCompletion (claims.after [.tryCreate contested, takeover]) =
        claims.after [.tryCreate contested, takeover] := by
  have hclaimed : contested.claim 8 30 ∈
      claims.claimed takeover (claims.after [.tryCreate contested]) := by decide +kernel
  have hdone : claims.succeeds givingUp
      (claims.after ([.tryCreate contested] ++ takeover :: [lateCompletion])) = true := by
    decide +kernel
  have hsnapshot := claims_fenced.1.snapshot [.tryCreate contested] takeover [lateCompletion]
    givingUp (contested.claim 8 30) 8 (by decide) rfl hclaimed rfl hdone [lateCompletion]
    List.prefix_rfl
  exact ⟨hdone, hsnapshot.1, claims_fenced.1.refused lateCompletion _ rfl (by decide +kernel)⟩

end IdentityService
