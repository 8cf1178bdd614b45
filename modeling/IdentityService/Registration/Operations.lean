import IdentityService.Base
import IdentityService.Concurrent.Table

/-!
# The registration table

`RegistrationOperationRepository`, statement by statement, over the rows of
`registration_operations`. As for the outbox, guards are the `WHERE`
clauses and `updated_at`, which nothing reads, is left out. The table's
lifecycle `CHECK` and the validator a row passes on its way to a DTO are
both here: the first can refuse a write, the second a read.
-/

namespace IdentityService

open Concurrent

/-- `RegistrationStatus`. -/
inductive RegistrationStatus where
  | pending
  | claimed
  | completed
  | blocked
deriving DecidableEq

/-- A row of `registration_operations`, and the DTO read from it. -/
structure RegistrationOperation where
  id : Uuid
  userId : Uuid
  email : String
  passwordHash : Option String
  keyHash : Digest
  status : RegistrationStatus
  attempts : Nat
  availableAt : Time
  claimToken : Option Uuid
  claimExpiresAt : Option Time
  lastErrorClass : Option String
  terminalAt : Option Time
  redriveCount : Nat
  createdAt : Time
deriving DecidableEq

namespace RegistrationOperation

/-- `ck_registration_operations_lifecycle`. -/
def lifecycle (o : RegistrationOperation) : Bool :=
  match o.status with
  | .pending => o.passwordHash.isSome && o.claimToken.isNone && o.claimExpiresAt.isNone &&
      o.terminalAt.isNone
  | .claimed => o.passwordHash.isSome && o.claimToken.isSome && o.claimExpiresAt.isSome &&
      o.terminalAt.isNone
  | .completed => o.passwordHash.isNone && o.claimToken.isNone && o.claimExpiresAt.isNone &&
      o.terminalAt.isSome
  | .blocked => o.passwordHash.isSome && o.claimToken.isNone && o.claimExpiresAt.isNone &&
      o.terminalAt.isSome

/-- `validate_lifecycle`; stored timestamps are aware. -/
def validateLifecycle (o : RegistrationOperation) : Except Exn Unit := do
  if o.claimToken.isSome ≠ o.claimExpiresAt.isSome then
    throw (.valueError "claim token and expiration must be set together")
  if o.status = .claimed then
    if o.claimToken.isNone || o.terminalAt.isSome then
      throw (.valueError "CLAIMED registration requires a live claim")
  else if o.claimToken.isSome then
    throw (.valueError "only CLAIMED registration may hold a claim")
  if o.status = .completed ∨ o.status = .blocked then
    if o.terminalAt.isNone then
      throw (.valueError "terminal registration requires terminal_at")
  else if o.terminalAt.isSome then
    throw (.valueError "nonterminal registration cannot have terminal_at")
  if o.status = .completed then
    if o.passwordHash.isSome then
      throw (.valueError "completed registration must scrub password_hash")
  else if o.passwordHash.isNone then
    throw (.valueError "non-completed registration requires password_hash")

/-- The table's constraint and the DTO's validator agree. -/
theorem validateLifecycle_ok (o : RegistrationOperation) :
    o.validateLifecycle = .ok () ↔ o.lifecycle = true := by
  cases hs : o.status <;> cases hp : o.passwordHash <;> cases ht : o.claimToken <;>
    cases he : o.claimExpiresAt <;> cases hd : o.terminalAt <;>
    simp [validateLifecycle, lifecycle, hs, hp, ht, he, hd, pure, Except.pure, throw, throwThe,
      MonadExceptOf.throw, bind, Except.bind]

/-- `_to_domain`. -/
def toDomain (o : RegistrationOperation) : Except Exn RegistrationOperation :=
  match o.validateLifecycle with
  | .ok _ => .ok o
  | .error _ => .error .storedState

theorem toDomain_ok {o : RegistrationOperation} (h : o.lifecycle = true) : o.toDomain = .ok o := by
  rw [toDomain, (validateLifecycle_ok o).mpr h]

theorem toDomain_eq {o o' : RegistrationOperation} (h : o.toDomain = .ok o') : o' = o := by
  simp only [toDomain] at h
  split at h
  · cases h
    rfl
  · cases h

/-- Only a row of a legal lifecycle is read. -/
theorem toDomain_lifecycle {o o' : RegistrationOperation} (h : o.toDomain = .ok o') :
    o.lifecycle = true := by
  simp only [toDomain] at h
  split at h
  · rename_i hvalid
    exact (validateLifecycle_ok o).mp hvalid
  · cases h

/-- Not COMPLETED and not BLOCKED. -/
def nonterminal (o : RegistrationOperation) : Bool := o.status = .pending || o.status = .claimed

/-- `ORDER BY available_at, created_at, id`. -/
def dispatchBefore (a b : RegistrationOperation) : Bool :=
  a.availableAt < b.availableAt || (a.availableAt = b.availableAt &&
    (a.createdAt < b.createdAt || (a.createdAt = b.createdAt && a.id < b.id)))

/-- The order of a batch, ties included. -/
def dispatchLe (a b : RegistrationOperation) : Bool := !b.dispatchBefore a

/-- `_eligible`. -/
def eligible (claimedAt : Time) (o : RegistrationOperation) : Bool :=
  (o.status = .pending && o.availableAt ≤ claimedAt) ||
    (o.status = .claimed && o.claimExpiresAt.any (· ≤ claimedAt))

/-- The row of a claim. -/
def claim (ownerToken : Uuid) (claimExpiresAt : Time) (o : RegistrationOperation) :
    RegistrationOperation :=
  { o with
    status := .claimed
    claimToken := some ownerToken
    claimExpiresAt := some claimExpiresAt
    terminalAt := none }

/-- The row each finishing write leaves. -/
def completeRow (completedAt : Time) (o : RegistrationOperation) : RegistrationOperation :=
  { o with
    status := .completed
    attempts := o.attempts + 1
    passwordHash := none
    lastErrorClass := none
    claimToken := none
    claimExpiresAt := none
    terminalAt := some completedAt }

/-- The row of an operation that is to be tried again. -/
def retryRow (availableAt : Time) (errorClass : String) (o : RegistrationOperation) :
    RegistrationOperation :=
  { o with
    status := .pending
    attempts := o.attempts + 1
    lastErrorClass := some errorClass
    availableAt := availableAt
    claimToken := none
    claimExpiresAt := none
    terminalAt := none }

/-- The row of an operation that is given up. -/
def blockRow (blockedAt : Time) (errorClass : String) (o : RegistrationOperation) :
    RegistrationOperation :=
  { o with
    status := .blocked
    attempts := o.attempts + 1
    lastErrorClass := some errorClass
    claimToken := none
    claimExpiresAt := none
    terminalAt := some blockedAt }

/-- The row of an operation that is let off again. -/
def redriveRow (availableAt : Time) (o : RegistrationOperation) : RegistrationOperation :=
  { o with
    status := .pending
    attempts := 0
    lastErrorClass := none
    availableAt := availableAt
    claimToken := none
    claimExpiresAt := none
    terminalAt := none
    redriveCount := o.redriveCount + 1 }

/-- The guard of every finishing write: unlike the outbox, a claim that has
expired no longer counts. -/
def ownedBy (operationId ownerToken : Uuid) (time : Time) (o : RegistrationOperation) : Bool :=
  o.id = operationId && o.status = .claimed && o.claimToken = some ownerToken &&
    o.claimExpiresAt.any (time < ·)

/-- Rows that a unique index would not let stand together. -/
def collides (a b : RegistrationOperation) : Bool :=
  a.id = b.id || a.userId = b.userId || a.email = b.email || a.keyHash = b.keyHash

/-- The columns no statement changes. -/
structure SameIdentity (a b : RegistrationOperation) : Prop where
  id : a.id = b.id
  userId : a.userId = b.userId
  email : a.email = b.email
  keyHash : a.keyHash = b.keyHash
  createdAt : a.createdAt = b.createdAt

theorem SameIdentity.refl (a : RegistrationOperation) : SameIdentity a a :=
  ⟨rfl, rfl, rfl, rfl, rfl⟩

theorem SameIdentity.trans {a b c : RegistrationOperation} (h : SameIdentity a b)
    (h' : SameIdentity b c) : SameIdentity a c :=
  ⟨h.id.trans h'.id, h.userId.trans h'.userId, h.email.trans h'.email, h.keyHash.trans h'.keyHash,
    h.createdAt.trans h'.createdAt⟩

end RegistrationOperation

namespace Registrations

variable (rows : List RegistrationOperation)

/-- `UPDATE .. SET f WHERE p`, unless a row it writes breaks the `CHECK`. -/
def write (p : RegistrationOperation → Bool) (f : RegistrationOperation → RegistrationOperation) :
    Except Exn (List RegistrationOperation) :=
  if (rows.filter p).all fun o => (f o).lifecycle then .ok (Table.update p f rows)
  else .error (.database .integrity)

/-- `try_create`: `ON CONFLICT DO NOTHING` over all unique indexes. -/
def tryCreate (operation : RegistrationOperation) :
    Except Exn (Option RegistrationOperation × List RegistrationOperation) :=
  if !operation.lifecycle then .error (.database .integrity)
  else if rows.any operation.collides then .ok (none, rows)
  else do
    let created ← operation.toDomain
    return (some created, rows ++ [operation])

/-- `RegistrationOperationRepository.get_by_key_hash`. -/
def getByKeyHash (keyHash : Digest) : Except Exn (Option RegistrationOperation) :=
  match rows.find? fun o => o.keyHash = keyHash with
  | none => .ok none
  | some o => do return some (← o.toDomain)

/-- `_validate_claim_window`. -/
def validateClaimWindow (claimedAt claimExpiresAt : Time) : Except Exn Unit :=
  if claimExpiresAt ≤ claimedAt then
    .error (.valueError "claim expiration must be after claim time")
  else .ok ()

/-- `claim_by_key_hash`. -/
def claimByKeyHash (keyHash : Digest) (ownerToken : Uuid) (claimedAt claimExpiresAt : Time) :
    Except Exn (Option RegistrationOperation × List RegistrationOperation) := do
  validateClaimWindow claimedAt claimExpiresAt
  let target := fun (o : RegistrationOperation) => o.keyHash = keyHash && o.eligible claimedAt
  let rows' ← write rows target (.claim ownerToken claimExpiresAt)
  match rows.filter target with
  | [] => return (none, rows')
  | [o] => return (some (← (o.claim ownerToken claimExpiresAt).toDomain), rows')
  | _ => throw (.database .other)

/-- The ids `claim_batch` picks; `SKIP LOCKED` passes over rows another
transaction holds. -/
def claimableIds (locked : Uuid → Bool) (claimedAt : Time) (limit : Nat) : List Uuid :=
  (Table.select (fun o => o.eligible claimedAt && !locked o.id) RegistrationOperation.dispatchLe
    limit rows).map RegistrationOperation.id

/-- `RegistrationOperationRepository.claim_batch`. -/
def claimBatch (locked : Uuid → Bool) (ownerToken : Uuid) (claimedAt claimExpiresAt : Time)
    (limit : Int) : Except Exn (List RegistrationOperation × List RegistrationOperation) :=
  if limit ≤ 0 then .error (.valueError "claim limit must be positive")
  else do
    validateClaimWindow claimedAt claimExpiresAt
    let ids := claimableIds rows locked claimedAt limit.toNat
    let claim := RegistrationOperation.claim ownerToken claimExpiresAt
    let rows' ← write rows (fun o => ids.contains o.id) claim
    let claimed := ((rows.filter fun o => ids.contains o.id).map claim).mergeSort
      RegistrationOperation.dispatchLe
    return (← claimed.mapM RegistrationOperation.toDomain, rows')

/-- A finishing write by the owner of a live claim. -/
def finish (operationId ownerToken : Uuid) (time : Time)
    (f : RegistrationOperation → RegistrationOperation) :
    Except Exn (Bool × List RegistrationOperation) := do
  let rows' ← write rows (RegistrationOperation.ownedBy operationId ownerToken time) f
  return (rows.any (RegistrationOperation.ownedBy operationId ownerToken time), rows')

/-- `RegistrationOperationRepository.complete`. -/
def complete (operationId ownerToken : Uuid) (completedAt : Time) :
    Except Exn (Bool × List RegistrationOperation) :=
  finish rows operationId ownerToken completedAt (.completeRow completedAt)

/-- `RegistrationOperationRepository.schedule_retry`. -/
def scheduleRetry (operationId ownerToken : Uuid) (failedAt availableAt : Time)
    (errorClass : String) : Except Exn (Bool × List RegistrationOperation) :=
  finish rows operationId ownerToken failedAt (.retryRow availableAt errorClass)

/-- `RegistrationOperationRepository.block`. -/
def block (operationId ownerToken : Uuid) (blockedAt : Time) (errorClass : String) :
    Except Exn (Bool × List RegistrationOperation) :=
  finish rows operationId ownerToken blockedAt (.blockRow blockedAt errorClass)

/-- The guard of `redrive_blocked`. -/
def redrivable (operationId : Uuid) (o : RegistrationOperation) : Bool :=
  o.id = operationId && o.status = .blocked

/-- `RegistrationOperationRepository.redrive_blocked`. -/
def redriveBlocked (operationId : Uuid) (availableAt : Time) :
    Except Exn (Bool × List RegistrationOperation) := do
  let rows' ← write rows (redrivable operationId) (.redriveRow availableAt)
  return (rows.any (redrivable operationId), rows')

/-! ## What each statement can do -/

section Cases

variable {rows} {rows' : List RegistrationOperation} {p : RegistrationOperation → Bool}
  {f : RegistrationOperation → RegistrationOperation} {operationId ownerToken : Uuid}
  {claimedAt claimExpiresAt time : Time}

theorem write_ok : write rows p f = .ok rows' ↔
    (∀ o ∈ rows, p o = true → (f o).lifecycle = true) ∧ rows' = Table.update p f rows := by
  simp only [write]
  split
  · rename_i h
    simp only [List.all_eq_true, List.mem_filter, and_imp] at h
    simp only [Except.ok.injEq]
    exact ⟨fun heq => ⟨h, heq.symm⟩, fun hboth => hboth.2.symm⟩
  · rename_i h
    simp only [List.all_eq_true, List.mem_filter, and_imp] at h
    exact ⟨nofun, fun hboth => absurd hboth.1 h⟩

theorem tryCreate_cases {operation : RegistrationOperation} {r : Option RegistrationOperation}
    (h : tryCreate rows operation = .ok (r, rows')) :
    (r = none ∧ rows' = rows ∧ ∃ o ∈ rows, operation.collides o = true) ∨
    (r = some operation ∧ rows' = rows ++ [operation] ∧ operation.lifecycle = true ∧
      ∀ o ∈ rows, operation.collides o = false) := by
  simp only [tryCreate] at h
  split at h
  · cases h
  · rename_i hlife
    split at h
    · rename_i hany
      cases h
      exact .inl ⟨rfl, rfl, List.any_eq_true.mp hany⟩
    · rename_i hany
      have hlife' : operation.lifecycle = true := by simpa using hlife
      rw [RegistrationOperation.toDomain_ok hlife'] at h
      cases h
      refine .inr ⟨rfl, rfl, hlife', fun o ho => ?_⟩
      cases hc : operation.collides o with
      | false => rfl
      | true => exact absurd (List.any_eq_true.mpr ⟨o, ho, hc⟩) hany

theorem getByKeyHash_cases {keyHash : Digest} {r : Option RegistrationOperation}
    (h : getByKeyHash rows keyHash = .ok r) :
    (r = none ∧ ∀ o ∈ rows, o.keyHash ≠ keyHash) ∨
      ∃ o ∈ rows, o.keyHash = keyHash ∧ o.lifecycle = true ∧ r = some o := by
  simp only [getByKeyHash] at h
  split at h
  · rename_i hnone
    cases h
    refine .inl ⟨rfl, fun o ho => ?_⟩
    simpa using List.find?_eq_none.mp hnone o ho
  · rename_i o hsome
    cases hd : o.toDomain with
    | error x =>
        rw [hd] at h
        cases h
    | ok o' =>
        rw [hd] at h
        cases h
        have hlife := RegistrationOperation.toDomain_lifecycle hd
        obtain rfl := RegistrationOperation.toDomain_eq hd
        exact .inr ⟨o', List.mem_of_find?_eq_some hsome, by simpa using List.find?_some hsome,
          hlife, rfl⟩

theorem claimByKeyHash_cases {keyHash : Digest} {r : Option RegistrationOperation}
    (h : claimByKeyHash rows keyHash ownerToken claimedAt claimExpiresAt = .ok (r, rows')) :
    rows' = Table.update (fun o => o.keyHash = keyHash && o.eligible claimedAt)
        (.claim ownerToken claimExpiresAt) rows ∧
      (r = none ∨ ∃ o ∈ rows, o.keyHash = keyHash ∧ o.eligible claimedAt = true ∧
        r = some (o.claim ownerToken claimExpiresAt)) := by
  simp only [claimByKeyHash, bind_eq_ok] at h
  obtain ⟨-, -, written, hw, h⟩ := h
  rw [write_ok] at hw
  split at h
  · cases h
    exact ⟨hw.2, .inl rfl⟩
  · rename_i o hone
    simp only [bind_eq_ok] at h
    obtain ⟨o', hd, h⟩ := h
    cases h
    obtain rfl := RegistrationOperation.toDomain_eq hd
    obtain ⟨ho, hp⟩ := List.mem_filter.mp (hone ▸ List.mem_singleton.mpr rfl)
    simp only [Bool.and_eq_true, decide_eq_true_eq] at hp
    exact ⟨hw.2, .inr ⟨o, ho, hp.1, hp.2, rfl⟩⟩
  · cases h

theorem mapM_toDomain {l l' : List RegistrationOperation}
    (h : l.mapM RegistrationOperation.toDomain = .ok l') : l' = l := by
  induction l generalizing l' with
  | nil =>
      cases h
      rfl
  | cons o l ih =>
      simp only [List.mapM_cons, bind_eq_ok] at h
      obtain ⟨o', hd, l'', hl, h⟩ := h
      cases h
      rw [RegistrationOperation.toDomain_eq hd, ih hl]

theorem claimBatch_cases {locked : Uuid → Bool} {limit : Int} {batch : List RegistrationOperation}
    (h : claimBatch rows locked ownerToken claimedAt claimExpiresAt limit = .ok (batch, rows')) :
    ∃ ids, ids = claimableIds rows locked claimedAt limit.toNat ∧
      rows' = Table.update (fun o => ids.contains o.id) (.claim ownerToken claimExpiresAt) rows ∧
      ∀ m ∈ batch, ∃ o ∈ rows, ids.contains o.id = true ∧
        m = o.claim ownerToken claimExpiresAt := by
  simp only [claimBatch] at h
  split at h
  · cases h
  · simp only [bind_eq_ok] at h
    obtain ⟨-, -, written, hw, claimed, hm, h⟩ := h
    cases h
    rw [write_ok] at hw
    obtain rfl := mapM_toDomain hm
    refine ⟨_, rfl, hw.2, fun m hmem => ?_⟩
    rw [List.mem_mergeSort, List.mem_map] at hmem
    obtain ⟨o, ho, rfl⟩ := hmem
    obtain ⟨ho, hids⟩ := List.mem_filter.mp ho
    exact ⟨o, ho, hids, rfl⟩

theorem finish_cases {b : Bool} (h : finish rows operationId ownerToken time f = .ok (b, rows')) :
    (∀ o ∈ rows, o.ownedBy operationId ownerToken time = true → (f o).lifecycle = true) ∧
      rows' = Table.update (RegistrationOperation.ownedBy operationId ownerToken time) f rows ∧
      b = rows.any (RegistrationOperation.ownedBy operationId ownerToken time) := by
  simp only [finish, bind_eq_ok] at h
  obtain ⟨written, hw, h⟩ := h
  cases h
  rw [write_ok] at hw
  exact ⟨hw.1, hw.2, rfl⟩

theorem redriveBlocked_cases {availableAt : Time} {b : Bool}
    (h : redriveBlocked rows operationId availableAt = .ok (b, rows')) :
    (∀ o ∈ rows, redrivable operationId o = true → (o.redriveRow availableAt).lifecycle = true) ∧
      rows' = Table.update (redrivable operationId) (.redriveRow availableAt) rows := by
  simp only [redriveBlocked, bind_eq_ok] at h
  obtain ⟨written, hw, h⟩ := h
  cases h
  exact write_ok.mp hw

theorem ownedBy_iff {o : RegistrationOperation} : o.ownedBy operationId ownerToken time = true ↔
    o.id = operationId ∧ o.status = .claimed ∧ o.claimToken = some ownerToken ∧
      o.claimExpiresAt.any (time < ·) = true := by
  simp [RegistrationOperation.ownedBy, and_assoc]

end Cases

end Registrations

end IdentityService
