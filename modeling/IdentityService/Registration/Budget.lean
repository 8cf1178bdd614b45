import IdentityService.Registration.Claims

/-!
# Rows keep their lifecycle and their attempts

Every statement restores the pattern of columns its status asks for, so the
table's `CHECK` refuses none of them and the DTO's validator refuses no row.
The limit on attempts is the delicate part: `_retry_or_block` decides from
the worker's SNAPSHOT, while the counter grows in the row. It holds because
a retry takes place only under the worker's token, and while that stands the
row is the snapshot.
-/

namespace IdentityService

open Concurrent

/-! ## The rows a statement writes -/

namespace RegistrationOperation

variable {o : RegistrationOperation}

theorem lifecycle_claim (h : o.lifecycle = true) (hopen : o.nonterminal = true) (token : Uuid)
    (expires : Time) : (o.claim token expires).lifecycle = true := by
  cases hs : o.status with
  | pending => simp_all [lifecycle, claim]
  | claimed => simp_all [lifecycle, claim]
  | completed => simp [nonterminal, hs] at hopen
  | blocked => simp [nonterminal, hs] at hopen

theorem lifecycle_retryRow (h : o.lifecycle = true) (hs : o.status = .claimed) (time : Time)
    (errorClass : String) : (o.retryRow time errorClass).lifecycle = true := by
  simp_all [lifecycle, retryRow]

theorem lifecycle_blockRow (h : o.lifecycle = true) (hs : o.status = .claimed) (time : Time)
    (errorClass : String) : (o.blockRow time errorClass).lifecycle = true := by
  simp_all [lifecycle, blockRow]

theorem lifecycle_redriveRow (h : o.lifecycle = true) (hs : o.status = .blocked) (time : Time) :
    (o.redriveRow time).lifecycle = true := by
  simp_all [lifecycle, redriveRow]

end RegistrationOperation

namespace Registrations

/-- No statement on the table is refused by its `CHECK`, and no row it reads
by the validator: the only errors left are those about its arguments. -/
structure StatementsPass (rows : List RegistrationOperation) : Prop where
  tryCreate : ∀ operation, operation.lifecycle = true →
    ∃ out, Registrations.tryCreate rows operation = .ok out
  getByKeyHash : ∀ keyHash, ∃ out, Registrations.getByKeyHash rows keyHash = .ok out
  claimByKeyHash : ∀ keyHash ownerToken claimedAt claimExpiresAt, claimedAt < claimExpiresAt →
    ∃ out, Registrations.claimByKeyHash rows keyHash ownerToken claimedAt claimExpiresAt = .ok out
  claimBatch : ∀ locked ownerToken claimedAt claimExpiresAt limit, 0 < limit →
    claimedAt < claimExpiresAt →
    ∃ out, Registrations.claimBatch rows locked ownerToken claimedAt claimExpiresAt limit = .ok out
  complete : ∀ operationId ownerToken completedAt,
    ∃ out, Registrations.complete rows operationId ownerToken completedAt = .ok out
  scheduleRetry : ∀ operationId ownerToken failedAt availableAt errorClass,
    ∃ out, Registrations.scheduleRetry rows operationId ownerToken failedAt availableAt errorClass =
      .ok out
  block : ∀ operationId ownerToken blockedAt errorClass,
    ∃ out, Registrations.block rows operationId ownerToken blockedAt errorClass = .ok out
  redriveBlocked : ∀ operationId availableAt,
    ∃ out, Registrations.redriveBlocked rows operationId availableAt = .ok out

variable {rows : List RegistrationOperation} {p : RegistrationOperation → Bool}
  {f : RegistrationOperation → RegistrationOperation}

theorem write_passes (h : ∀ o ∈ rows, p o = true → (f o).lifecycle = true) :
    write rows p f = .ok (Table.update p f rows) := write_ok.mpr ⟨h, rfl⟩

theorem finish_passes {operationId ownerToken : Uuid} {time : Time}
    (h : ∀ o ∈ rows, o.status = .claimed → (f o).lifecycle = true) :
    ∃ out, finish rows operationId ownerToken time f = .ok out := by
  have hwrite := write_passes (p := RegistrationOperation.ownedBy operationId ownerToken time)
    fun o ho hown => h o ho (ownedBy_iff.mp hown).2.1
  exact ⟨_, by simp only [finish, hwrite]; rfl⟩

theorem mapM_passes {l : List RegistrationOperation} (h : ∀ o ∈ l, o.lifecycle = true) :
    l.mapM RegistrationOperation.toDomain = .ok l := by
  induction l with
  | nil => rfl
  | cons o l ih =>
    have hhead : o.toDomain = .ok o := RegistrationOperation.toDomain_ok (h o (by simp))
    have htail := ih fun x hx => h x (by simp [hx])
    rw [List.mapM_cons, hhead, htail]
    rfl

theorem window_passes {claimedAt claimExpiresAt : Time} (h : claimedAt < claimExpiresAt) :
    validateClaimWindow claimedAt claimExpiresAt = .ok () := by
  rw [validateClaimWindow, if_neg (Nat.not_le.mpr h)]

end Registrations

/-- In a table whose rows are unique and keep their lifecycle every statement
passes. -/
theorem Accounts.statementsPass {hasher : PasswordHasher} {issued : RegisterUserCommand → Prop}
    {db : RegistrationDb} (h : Accounts hasher issued db) :
    Registrations.StatementsPass db.operations where
  tryCreate operation hlife := by
    simp only [Registrations.tryCreate, hlife, Bool.not_true]
    split
    · rename_i hfalse
      cases hfalse
    · split
      · exact ⟨_, rfl⟩
      · rw [RegistrationOperation.toDomain_ok hlife]
        exact ⟨_, rfl⟩
  getByKeyHash keyHash := by
    simp only [Registrations.getByKeyHash]
    split
    · exact ⟨_, rfl⟩
    · rename_i o hfind
      rw [RegistrationOperation.toDomain_ok (h.lifecycle o (List.mem_of_find?_eq_some hfind))]
      exact ⟨_, rfl⟩
  claimByKeyHash keyHash ownerToken claimedAt claimExpiresAt hwindow := by
    obtain ⟨target, htarget⟩ : ∃ target : RegistrationOperation → Bool,
        target = fun o => o.keyHash = keyHash && o.eligible claimedAt := ⟨_, rfl⟩
    have hopen : ∀ o, target o = true → o.keyHash = keyHash ∧ o.nonterminal = true := by
      intro o ho
      rw [htarget, Bool.and_eq_true, decide_eq_true_eq] at ho
      exact ⟨ho.1, RegistrationTx.eligible_open ho.2⟩
    have hclaim : ∀ o ∈ db.operations, target o = true →
        (o.claim ownerToken claimExpiresAt).lifecycle = true := fun o ho hp =>
      RegistrationOperation.lifecycle_claim (h.lifecycle o ho) (hopen o hp).2 _ _
    simp only [Registrations.claimByKeyHash, Registrations.window_passes hwindow, ← htarget,
      Registrations.write_passes hclaim]
    -- the key is unique, so the statement returns at most one row
    have hunique : (db.operations.filter target).Pairwise fun a b => a.collides b = false :=
      h.unique.filter _
    have hmem : ∀ o ∈ db.operations.filter target, o ∈ db.operations ∧ target o = true :=
      fun o ho => List.mem_filter.mp ho
    cases hrows : db.operations.filter target with
    | nil => exact ⟨_, rfl⟩
    | cons o rest =>
      rw [hrows] at hunique hmem
      cases rest with
      | nil =>
        obtain ⟨ho, hp⟩ := hmem o (by simp)
        simp only [RegistrationOperation.toDomain_ok (hclaim o ho hp)]
        exact ⟨_, rfl⟩
      | cons o' rest =>
        have hkey := (hopen o (hmem o (by simp)).2).1
        have hkey' := (hopen o' (hmem o' (by simp)).2).1
        have hno := List.rel_of_pairwise_cons hunique (by simp : o' ∈ o' :: rest)
        rw [RegistrationOperation.collides_iff.mpr
          (.inr (.inr (.inr (hkey.trans hkey'.symm))))] at hno
        cases hno
  claimBatch locked ownerToken claimedAt claimExpiresAt limit hlimit hwindow := by
    have hclaim : ∀ o ∈ db.operations, (Registrations.claimableIds db.operations locked claimedAt
        limit.toNat).contains o.id = true →
        (o.claim ownerToken claimExpiresAt).lifecycle = true := fun o ho hp =>
      RegistrationOperation.lifecycle_claim (h.lifecycle o ho)
        (RegistrationTx.claimable_open h ho hp) _ _
    have hnot : ¬ limit ≤ 0 := by omega
    simp only [Registrations.claimBatch, if_neg hnot, Registrations.window_passes hwindow,
      Registrations.write_passes hclaim]
    have hloads := Registrations.mapM_passes (l := ((db.operations.filter fun o =>
      (Registrations.claimableIds db.operations locked claimedAt limit.toNat).contains o.id).map
        (RegistrationOperation.claim ownerToken claimExpiresAt)).mergeSort
          RegistrationOperation.dispatchLe) fun o ho => by
        rw [List.mem_mergeSort, List.mem_map] at ho
        obtain ⟨x, hx, rfl⟩ := ho
        obtain ⟨hx, hp⟩ := List.mem_filter.mp hx
        exact hclaim x hx hp
    exact ⟨_, by simp only [hloads, bind, Except.bind]; rfl⟩
  complete operationId ownerToken completedAt :=
    Registrations.finish_passes fun _ _ _ => rfl
  scheduleRetry operationId ownerToken failedAt availableAt errorClass :=
    Registrations.finish_passes fun o ho hs =>
      RegistrationOperation.lifecycle_retryRow (h.lifecycle o ho) hs _ _
  block operationId ownerToken blockedAt errorClass :=
    Registrations.finish_passes fun o ho hs =>
      RegistrationOperation.lifecycle_blockRow (h.lifecycle o ho) hs _ _
  redriveBlocked operationId availableAt := by
    have hwrite : ∀ o ∈ db.operations, Registrations.redrivable operationId o = true →
        (o.redriveRow availableAt).lifecycle = true := by
      intro o ho hp
      simp only [Registrations.redrivable, Bool.and_eq_true, decide_eq_true_eq] at hp
      exact RegistrationOperation.lifecycle_redriveRow (h.lifecycle o ho) hp.2 _
    exact ⟨_, by simp only [Registrations.redriveBlocked, Registrations.write_passes hwrite]; rfl⟩

/-! ## Attempts -/

/-- A finishing write, and what it leaves of the row. -/
inductive Finish (operationId ownerToken : Uuid) (time : Time) : RegistrationCall →
    (RegistrationOperation → RegistrationOperation) → Prop where
  | complete : Finish operationId ownerToken time (.complete operationId ownerToken time)
      (.completeRow time)
  | block (errorClass : String) : Finish operationId ownerToken time
      (.block operationId ownerToken time errorClass) (.blockRow time errorClass)
  | retry (availableAt : Time) (errorClass : String) : Finish operationId ownerToken time
      (.scheduleRetry operationId ownerToken time availableAt errorClass)
      (.retryRow availableAt errorClass)

/-- Everything a statement can do to the rows. -/
theorem RegistrationCall.exec_rows {hasher : PasswordHasher} {issued : RegisterUserCommand → Prop}
    {db : RegistrationDb} (h : Accounts hasher issued db) (c : RegistrationCall) :
    c.exec db.operations = db.operations ∨
    (∃ o, c = .tryCreate o ∧ c.exec db.operations = db.operations ++ [o] ∧
      ∀ x ∈ db.operations, o.collides x = false) ∨
    (∃ p token expires, c.exec db.operations =
      Table.update p (.claim token expires) db.operations ∧
      ∀ o ∈ db.operations, p o = true → o.nonterminal = true) ∨
    (∃ operationId ownerToken time f, Finish operationId ownerToken time c f ∧
      c.exec db.operations = Table.update
        (RegistrationOperation.ownedBy operationId ownerToken time) f db.operations) ∨
    ∃ operationId availableAt, c = .redriveBlocked operationId availableAt ∧
      c.exec db.operations = Table.update (Registrations.redrivable operationId)
        (.redriveRow availableAt) db.operations := by
  have hfinish : ∀ {operationId ownerToken time f}, Finish operationId ownerToken time c f →
      c.exec db.operations = left db.operations
        (Registrations.finish db.operations operationId ownerToken time f) →
      c.exec db.operations = db.operations ∨ c.exec db.operations = Table.update
        (RegistrationOperation.ownedBy operationId ownerToken time) f db.operations := by
    intro operationId ownerToken time f _ heq
    rw [heq]
    cases hr : Registrations.finish db.operations operationId ownerToken time f with
    | error x => exact .inl rfl
    | ok out =>
      obtain ⟨-, hrows, -⟩ := Registrations.finish_cases hr
      exact .inr hrows
  cases c with
  | tryCreate operation =>
    cases hr : Registrations.tryCreate db.operations operation with
    | error x => exact .inl (by simp only [exec, hr, left])
    | ok out =>
      obtain ⟨r, rows⟩ := out
      have hexec : exec (.tryCreate operation) db.operations = rows := by simp only [exec, hr, left]
      rw [hexec]
      rcases Registrations.tryCreate_cases hr with ⟨-, rfl, -⟩ | ⟨-, rfl, -, hnew⟩
      · exact .inl rfl
      · exact .inr (.inl ⟨operation, rfl, rfl, hnew⟩)
  | claimByKeyHash keyHash ownerToken claimedAt claimExpiresAt =>
    cases hr : Registrations.claimByKeyHash db.operations keyHash ownerToken claimedAt
        claimExpiresAt with
    | error x => exact .inl (by simp only [exec, hr, left])
    | ok out =>
      obtain ⟨hrows, -⟩ := Registrations.claimByKeyHash_cases hr
      refine .inr (.inr (.inl ⟨_, _, _, by simp only [exec, hr, left]; exact hrows, ?_⟩))
      intro o _ hp
      rw [Bool.and_eq_true] at hp
      exact RegistrationTx.eligible_open hp.2
  | claimBatch locked ownerToken claimedAt claimExpiresAt limit =>
    cases hr : Registrations.claimBatch db.operations locked ownerToken claimedAt claimExpiresAt
        limit with
    | error x => exact .inl (by simp only [exec, hr, left])
    | ok out =>
      obtain ⟨ids, rfl, hrows, -⟩ := Registrations.claimBatch_cases hr
      refine .inr (.inr (.inl ⟨_, _, _, by simp only [exec, hr, left]; exact hrows, ?_⟩))
      exact fun o ho hp => RegistrationTx.claimable_open h ho hp
  | complete operationId ownerToken completedAt =>
    rcases hfinish .complete rfl with hsame | hrows
    · exact .inl hsame
    · exact .inr (.inr (.inr (.inl ⟨_, _, _, _, .complete, hrows⟩)))
  | scheduleRetry operationId ownerToken failedAt availableAt errorClass =>
    rcases hfinish (.retry availableAt errorClass) rfl with hsame | hrows
    · exact .inl hsame
    · exact .inr (.inr (.inr (.inl ⟨_, _, _, _, .retry availableAt errorClass, hrows⟩)))
  | block operationId ownerToken blockedAt errorClass =>
    rcases hfinish (.block errorClass) rfl with hsame | hrows
    · exact .inl hsame
    · exact .inr (.inr (.inr (.inl ⟨_, _, _, _, .block errorClass, hrows⟩)))
  | redriveBlocked operationId availableAt =>
    cases hr : Registrations.redriveBlocked db.operations operationId availableAt with
    | error x => exact .inl (by simp only [exec, hr, left])
    | ok out =>
      obtain ⟨-, hrows⟩ := Registrations.redriveBlocked_cases hr
      exact .inr (.inr (.inr (.inr ⟨operationId, availableAt, rfl,
        by simp only [exec, hr, left]; exact hrows⟩)))

/-- The rows stay within the limit. -/
def WithinBudget (maxAttempts : Nat) (rows : List RegistrationOperation) : Prop :=
  ∀ o ∈ rows, o.attempts ≤ maxAttempts ∧ (o.nonterminal = true → o.attempts < maxAttempts)

/-- A rewriting whose new rows are within the limit. -/
theorem WithinBudget.update {maxAttempts : Nat} {rows : List RegistrationOperation}
    (h : WithinBudget maxAttempts rows) {p : RegistrationOperation → Bool}
    {f : RegistrationOperation → RegistrationOperation}
    (hf : ∀ o ∈ rows, p o = true → (f o).attempts ≤ maxAttempts ∧
      ((f o).nonterminal = true → (f o).attempts < maxAttempts)) :
    WithinBudget maxAttempts (Table.update p f rows) := by
  intro o ho
  obtain ⟨x, hx, ⟨hp, rfl⟩ | ⟨-, rfl⟩⟩ := Table.mem_update.mp ho
  · exact hf x hx hp
  · exact h _ hx

section Statements

variable {hasher : PasswordHasher} {issued : RegisterUserCommand → Prop} {db : RegistrationDb}
  {maxAttempts : Nat} {c : RegistrationCall}

/-- A statement keeps the limit, if a new operation starts at zero and a
retry takes place only while one attempt more stays below it. -/
theorem RegistrationCall.withinBudget (hacc : Accounts hasher issued db) (hpos : 0 < maxAttempts)
    (h : WithinBudget maxAttempts db.operations)
    (hnew : ∀ o, c = .tryCreate o → o.attempts = 0)
    (hretry : ∀ operationId ownerToken failedAt availableAt errorClass,
      c = .scheduleRetry operationId ownerToken failedAt availableAt errorClass →
      ∀ x ∈ db.operations, x.ownedBy operationId ownerToken failedAt = true →
        x.attempts + 1 < maxAttempts) :
    WithinBudget maxAttempts (c.exec db.operations) := by
  rcases c.exec_rows hacc with hsame | ⟨o, rfl, hrows, -⟩ | ⟨p, token, expires, hrows, hopen⟩ |
    ⟨operationId, ownerToken, time, f, hfinish, hrows⟩ | ⟨operationId, availableAt, -, hrows⟩
  · rw [hsame]
    exact h
  · rw [hrows]
    intro x hx
    rcases List.mem_append.mp hx with hx | hx
    · exact h x hx
    · rw [List.mem_singleton.mp hx, hnew o rfl]
      exact ⟨Nat.zero_le _, fun _ => hpos⟩
  · rw [hrows]
    refine h.update fun o ho hp => ?_
    have hless := (h o ho).2 (hopen o ho hp)
    exact ⟨Nat.le_of_lt hless, fun _ => hless⟩
  · rw [hrows]
    refine h.update fun o ho hown => ?_
    have hopen : o.nonterminal = true := by
      simp [RegistrationOperation.nonterminal, (Registrations.ownedBy_iff.mp hown).2.1]
    have hless := (h o ho).2 hopen
    cases hfinish with
    | complete => exact ⟨hless, fun hopen => by cases hopen⟩
    | block errorClass => exact ⟨hless, fun hopen => by cases hopen⟩
    | retry availableAt errorClass => exact ⟨hless, fun _ => hretry _ _ _ _ _ rfl o ho hown⟩
  · rw [hrows]
    exact h.update fun o _ _ => ⟨Nat.zero_le _, fun _ => hpos⟩

/-- Only a redrive takes attempts back. -/
theorem RegistrationCall.attempts_le (hacc : Accounts hasher issued db)
    {x x' : RegistrationOperation} (hx : x ∈ db.operations) (hx' : x' ∈ c.exec db.operations)
    (hid : x'.id = x.id) :
    x.attempts ≤ x'.attempts ∨ ∃ availableAt, c = .redriveBlocked x.id availableAt := by
  have hself : ∀ y ∈ db.operations, y.id = x.id → y = x := fun y hy heq =>
    hacc.eq_of_collides hy hx (RegistrationOperation.collides_iff.mpr (.inl heq))
  rcases c.exec_rows hacc with hsame | ⟨o, rfl, hrows, hfree⟩ | ⟨p, token, expires, hrows, -⟩ |
    ⟨operationId, ownerToken, time, f, hfinish, hrows⟩ | ⟨operationId, availableAt, rfl, hrows⟩
  · rw [hsame] at hx'
    exact .inl (by rw [hself x' hx' hid])
  · rw [hrows, List.mem_append, List.mem_singleton] at hx'
    rcases hx' with hx' | rfl
    · exact .inl (by rw [hself x' hx' hid])
    · have hno := hfree x hx
      rw [RegistrationOperation.collides_iff.mpr (.inl hid)] at hno
      cases hno
  · rw [hrows] at hx'
    obtain ⟨y, hy, ⟨-, rfl⟩ | ⟨-, rfl⟩⟩ := Table.mem_update.mp hx'
    · exact .inl (by rw [← hself y hy hid]; exact Nat.le_refl _)
    · exact .inl (by rw [hself _ hy hid])
  · rw [hrows] at hx'
    obtain ⟨y, hy, ⟨-, rfl⟩ | ⟨-, rfl⟩⟩ := Table.mem_update.mp hx'
    · refine .inl ?_
      cases hfinish with
      | complete => rw [← hself y hy hid]; exact Nat.le_succ _
      | block errorClass => rw [← hself y hy hid]; exact Nat.le_succ _
      | retry availableAt errorClass => rw [← hself y hy hid]; exact Nat.le_succ _
    · exact .inl (by rw [hself _ hy hid])
  · rw [hrows] at hx'
    obtain ⟨y, hy, ⟨hp, rfl⟩ | ⟨-, rfl⟩⟩ := Table.mem_update.mp hx'
    · simp only [Registrations.redrivable, Bool.and_eq_true, decide_eq_true_eq] at hp
      have hname : y.id = x.id := hid
      exact .inr ⟨availableAt, by rw [← hname, hp.1]⟩
    · exact .inl (by rw [hself _ hy hid])

end Statements

/-! ## Runs -/

section Runs

variable {cfg : RegistrationConfig} {clock : Time} {callees : Nat → Option RegistrationCallee}
  {C C' : RegistrationRun}

/-- The claims of a run, as rows and tokens. -/
def claimedRows (trace : List (Event registrationSig Exn)) : List (RegistrationOperation × Uuid) :=
  (handedOut trace).map fun t => (t.operation, t.ownerToken)

theorem issues_call {t : RegistrationTx} {locked : Uuid → Bool} {call : RegistrationCall}
    (h : t.call locked = some call) : call.issues = (RegistrationEff.tx t).spend := by
  cases t <;> cases h <;> rfl

theorem ids_nodup {hasher : PasswordHasher} {issued : RegisterUserCommand → Prop}
    {db : RegistrationDb} (h : Accounts hasher issued db) :
    (db.operations.map RegistrationOperation.id).Nodup := by
  rw [List.Nodup, List.pairwise_map]
  refine h.unique.imp fun {a b} hab heq => ?_
  rw [RegistrationOperation.collides_iff.mpr (.inl heq)] at hab
  cases hab

/-- While the token of a claim stands in the row, the row is the snapshot. -/
theorem recorded_held (h : RecordedReach cfg (recordedStart cfg clock callees) C)
    (hd : (registrationTokens cfg).Distinct C.shared.trace) :
    Table.Held RegistrationOperation.id RegistrationOperation.claimToken
      (claimedRows C.shared.trace) C.shared.state.db.operations := by
  induction h with
  | refl => exact nofun
  | tail hr hs ih =>
    rename_i D D'
    obtain ⟨l, hl, -⟩ := hs
    have hacc' := recorded_accounts (hr.tail ⟨l, hl, trivial⟩)
    rcases Machine.traced_step_cases hl with ⟨i, c, e, k, r, t, -, hp, hx, rfl⟩ |
      ⟨v, t, -, hv, rfl⟩ | ⟨i, e, k, -, -, rfl⟩
    · have hbefore := hd.initial (List.prefix_append _ _)
      have hheld := ih hbefore
      have hrows : claimedRows (D.shared.trace ++ [⟨i, e, r⟩]) = claimedRows D.shared.trace ++
          (RegistrationEff.handsOut e r).map fun t => (t.operation, t.ownerToken) := by
        rw [claimedRows, handedOut_append, List.map_append]
        rfl
      simp only [hrows]
      rcases exec_operations hx with ⟨hops, hnone⟩ | ⟨tx, locked, call, rfl, hcall, hops, hclaims⟩
      · simp only [hops, hnone, List.map_nil, List.append_nil]
        exact hheld
      · -- the token of a new claim is nobody's
        have hfresh : ∀ c ∈ claimedRows D.shared.trace, call.issues ≠ some c.2 := by
          intro c hc heq
          obtain ⟨task, htask, rfl⟩ := List.mem_map.mp hc
          have hspent := (recorded_handed hr).spent task htask
          rw [issues_call hcall] at heq
          have haccounted := Tokens.accounted_reach (recorded_kept .refl) rfl hr hbefore
          exact haccounted.unspent hbefore ((recorded_kept hr).permits hp) heq hspent
        have hkeep : Table.Held RegistrationOperation.id RegistrationOperation.claimToken
            (claimedRows D.shared.trace) t.db.operations := by
          rw [hops]
          exact hheld.rewrite (RegistrationCall.disciplined.fences call _) hfresh
        refine hkeep.claim (ids_nodup hacc') fun c hc => ?_
        obtain ⟨task, htask, rfl⟩ := List.mem_map.mp hc
        rw [hops]
        exact (RegistrationCall.claimed_mem (hclaims task htask).1).1
    · have hops : t.db.operations = D.shared.state.db.operations := by
        cases v <;> cases hv <;> rfl
      simp only [hops]
      exact ih hd
    · exact ih hd

/-- The limit on attempts. -/
theorem recorded_budget (h : RecordedReach cfg (recordedStart cfg clock callees) C)
    (hd : (registrationTokens cfg).Distinct C.shared.trace) :
    WithinBudget cfg.policy.maxAttempts C.shared.state.db.operations := by
  induction h with
  | refl => exact nofun
  | tail hr hs ih =>
    rename_i D D'
    obtain ⟨l, hl, -⟩ := hs
    rcases Machine.traced_step_cases hl with ⟨i, c, e, k, r, t, -, hp, hx, rfl⟩ |
      ⟨v, t, -, hv, rfl⟩ | ⟨i, e, k, -, -, rfl⟩
    · have hbefore := hd.initial (List.prefix_append _ _)
      rcases exec_operations hx with ⟨hops, -⟩ | ⟨tx, locked, call, rfl, hcall, hops, -⟩
      · simp only [hops]
        exact ih hbefore
      · simp only [hops]
        have hpermits := (recorded_kept hr).permits hp
        refine RegistrationCall.withinBudget (recorded_accounts hr) cfg.policy.attemptsPositive
          (ih hbefore) ?_ ?_
        · rintro o rfl
          cases tx with
          | tryCreate candidate =>
            cases hcall
            exact hpermits.2.2.1
          | _ => cases hcall
        · rintro operationId ownerToken failedAt availableAt errorClass rfl x hrow hown
          cases tx with
          | scheduleRetry operationId' ownerToken' failedAt' availableAt' errorClass' =>
            cases hcall
            obtain ⟨o, hworks, hid, hmore⟩ := hpermits
            have hmem : (⟨o, ownerToken⟩ : RegistrationTask) ∈ handedOut D.shared.trace :=
              (recorded_handed hr).claim i _ hworks
            obtain ⟨hxid, -, htoken, -⟩ := Registrations.ownedBy_iff.mp hown
            have hsnapshot : x = o := recorded_held hr hbefore (o, ownerToken)
              (List.mem_map.mpr ⟨_, hmem, rfl⟩) x hrow (hxid.trans hid.symm) htoken
            rw [hsnapshot]
            exact hmore
          | _ => cases hcall
    · have hops : t.db.operations = D.shared.state.db.operations := by
        cases v <;> cases hv <;> rfl
      simp only [hops]
      exact ih hd
    · exact ih hd

/-- What is promised of the registration table in a state of a run. -/
structure RegistrationRowsKept (cfg : RegistrationConfig) (C : RegistrationRun) : Prop where
  lifecycle : ∀ o ∈ C.shared.state.db.operations,
    o.lifecycle = true ∧ o.validateLifecycle = .ok ()
  passes : Registrations.StatementsPass C.shared.state.db.operations
  created : ∀ i candidate k, C.pool i = some (.op (.tx (.tryCreate candidate)) k) →
    candidate.lifecycle = true
  unfinished : ∀ o ∈ C.shared.state.db.operations, o.status = .pending ∨ o.status = .claimed →
    o.attempts < cfg.policy.maxAttempts
  terminal : ∀ o ∈ C.shared.state.db.operations, o.status = .completed ∨ o.status = .blocked →
    o.attempts ≤ cfg.policy.maxAttempts
  scrubbed : ∀ o ∈ C.shared.state.db.operations, o.passwordHash = none ↔ o.status = .completed
  /-- Attempts go down in a redrive of the row and in no other step. -/
  redriven : ∀ l C', (registrationMachine cfg).traced.step C l = some C' →
    ∀ o ∈ C.shared.state.db.operations, ∀ o' ∈ C'.shared.state.db.operations, o'.id = o.id →
      o'.attempts < o.attempts → ∃ i c availableAt k, l = .act i c ∧
        C.pool i = some (.op (.tx (.redriveBlocked o.id availableAt)) k)

theorem recorded_redriven (h : RecordedReach cfg (recordedStart cfg clock callees) C)
    {l : (registrationMachine cfg).traced.Label}
    (hl : (registrationMachine cfg).traced.step C l = some C') {o o' : RegistrationOperation}
    (ho : o ∈ C.shared.state.db.operations) (ho' : o' ∈ C'.shared.state.db.operations)
    (hid : o'.id = o.id) (hless : o'.attempts < o.attempts) :
    ∃ i c availableAt k, l = .act i c ∧
      C.pool i = some (.op (.tx (.redriveBlocked o.id availableAt)) k) := by
  have hacc := recorded_accounts h
  have hsame : ∀ rows, rows = C.shared.state.db.operations → o' ∈ rows → False := by
    rintro rows rfl hmem
    have hrow := hacc.eq_of_collides hmem ho (RegistrationOperation.collides_iff.mpr (.inl hid))
    rw [hrow] at hless
    exact Nat.lt_irrefl _ hless
  rcases Machine.traced_step_cases hl with ⟨i, c, e, k, r, t, rfl, hp, hx, rfl⟩ |
    ⟨v, t, -, hv, rfl⟩ | ⟨i, e, k, -, -, rfl⟩
  · rcases exec_operations hx with ⟨hops, -⟩ | ⟨tx, locked, call, rfl, hcall, hops, -⟩
    · exact (hsame _ hops ho').elim
    · simp only [hops] at ho'
      rcases RegistrationCall.attempts_le hacc ho ho' hid with hle | ⟨availableAt, rfl⟩
      · exact absurd hless (Nat.not_lt.mpr hle)
      · cases tx with
        | redriveBlocked operationId availableAt' =>
          cases hcall
          exact ⟨i, c, availableAt, k, rfl, hp⟩
        | _ => cases hcall
  · have hops : t.db.operations = C.shared.state.db.operations := by
      cases v <;> cases hv <;> rfl
    exact (hsame _ hops ho').elim
  · exact (hsame _ rfl ho').elim

theorem registrationRowsKept (h : RecordedReach cfg (recordedStart cfg clock callees) C)
    (hd : (registrationTokens cfg).Distinct C.shared.trace) : RegistrationRowsKept cfg C := by
  have hacc := recorded_accounts h
  have hbudget := recorded_budget h hd
  refine ⟨fun o ho => ?_, hacc.statementsPass, fun i candidate k hp => ?_, fun o ho hs => ?_,
    fun o ho _ => (hbudget o ho).1, fun o ho => hacc.passwordHash_none ho, ?_⟩
  · have hlife := hacc.lifecycle o ho
    exact ⟨hlife, (RegistrationOperation.validateLifecycle_ok o).mpr hlife⟩
  · exact ((recorded_kept h).permits hp).1
  · refine (hbudget o ho).2 ?_
    rcases hs with hs | hs
    · simp [RegistrationOperation.nonterminal, hs]
    · simp [RegistrationOperation.nonterminal, hs]
  · exact fun l C' hl o ho o' ho' hid hless => recorded_redriven h hl ho ho' hid hless

end Runs

end IdentityService
