import IdentityService.Outbox.Delivery
import IdentityService.Registration.Budget

/-!
# Both tables keep their rows' lifecycle and attempts

The outbox decides like the registrations: the relay compares the attempts
of its SNAPSHOT with the limit, and the row counts on its own. `worked_row`
makes the two agree, as `recorded_held` does for registrations.
-/

namespace IdentityService

open Concurrent

/-! ## The outbox -/

/-- The row stays within the limit. -/
def OutboxMessage.WithinBudget (maxAttempts : Nat) (m : OutboxMessage) : Prop :=
  m.attempts ≤ maxAttempts ∧ (m.terminal = false → m.attempts < maxAttempts)

/-- A statement keeps the limit, if a retry takes place only while one
attempt more stays below it. -/
theorem OutboxMessage.Next.withinBudget {c : OutboxCall} {m m' : OutboxMessage} {maxAttempts : Nat}
    (h : Next c m m') (hpos : 0 < maxAttempts) (hm : m.WithinBudget maxAttempts)
    (hretry : ∀ messageId ownerToken availableAt errorClass,
      c = .scheduleRetry messageId ownerToken availableAt errorClass →
      m.ownedBy messageId ownerToken = true → m.attempts + 1 < maxAttempts) :
    m'.WithinBudget maxAttempts := by
  have hclaimed : ∀ {messageId ownerToken}, m.ownedBy messageId ownerToken = true →
      m.attempts < maxAttempts := by
    intro messageId ownerToken hown
    exact hm.2 (open_iff.mpr (.inr (OrderInv.ownedBy_iff.mp hown).2.1))
  cases h with
  | same => exact hm
  | claim _ _ _ _ _ hopen => exact ⟨hm.1, fun _ => hm.2 hopen⟩
  | finalize _ hown => exact ⟨hclaimed hown, nofun⟩
  | retry _ _ hown => exact ⟨hclaimed hown, fun _ => hretry _ _ _ _ rfl hown⟩
  | quarantine _ _ hown => exact ⟨hclaimed hown, nofun⟩
  | redrive => exact ⟨Nat.zero_le _, fun _ => hpos⟩

section Runs

variable {cfg : RelayConfig} {callees : Nat → Option RelayCallee} {C C' : RelayRun}

/-- The limit on attempts. -/
theorem relay_budget (h : RelayReach (relayStart cfg callees) C)
    (hd : (relayTokens cfg).Distinct C.shared.trace) :
    ∀ m ∈ C.shared.state.rows, m.WithinBudget cfg.policy.maxAttempts := by
  induction h with
  | refl => exact nofun
  | tail hr hs ih =>
    rename_i D D'
    obtain ⟨l, hl, -⟩ := hs
    have hone : RelayReach D D' := .single ⟨l, hl, trivial⟩
    have hbefore := hd.initial (Machine.trace_prefix hone)
    have hpos := cfg.policy.attemptsPositive
    intro m' hm'
    rcases relay_turn hr hl with hrows | ⟨i, c, t, k, locked, -, hp, hturn⟩ | ⟨v, -, hturn⟩
    · exact ih hbefore m' (hrows ▸ hm')
    · rcases hturn.old m' hm' with ⟨m, hm, hnext⟩ | ⟨topic, event, -, rfl, -⟩
      · refine hnext.withinBudget hpos (ih hbefore m hm) ?_
        intro messageId ownerToken availableAt errorClass hcall hown
        cases t with
        | scheduleRetry messageId ownerToken availableAt errorClass =>
          cases hcall
          -- what the worker compared with the limit are the attempts of the row
          obtain ⟨snapshot, hworks, hid, hmore⟩ := (relay_kept hr).permits hp
          obtain ⟨hmid, -, htoken⟩ := OrderInv.ownedBy_iff.mp hown
          rw [worked_row hr hbefore hworks hm (hmid.trans hid.symm) htoken]
          exact hmore
        | _ => cases hcall
      · exact ⟨Nat.zero_le _, fun _ => hpos⟩
    · rcases hturn.old m' hm' with ⟨m, hm, hnext⟩ | ⟨topic, event, -, rfl, -⟩
      · refine hnext.withinBudget hpos (ih hbefore m hm) ?_
        intro _ _ _ _ hcall
        cases v <;> cases hcall
      · exact ⟨Nat.zero_le _, fun _ => hpos⟩

/-- What is promised of the outbox table in a state of a run. -/
structure OutboxRowsKept (cfg : RelayConfig) (C : RelayRun) : Prop where
  lifecycle : ∀ m ∈ C.shared.state.rows, m.lifecycle = true ∧ m.validateLifecycle = .ok ()
  /-- No statement, whatever its arguments, writes a row that the `CHECK`
  refuses, and none returns a row that the validator refuses. -/
  passes : ∀ c : OutboxCall, ∀ m ∈ (c.on C.shared.state.rows).rows, m.lifecycle = true
  loads : ∀ c : OutboxCall, ∀ m ∈ (c.on C.shared.state.rows).claims, m.validateLifecycle = .ok ()
  unfinished : ∀ m ∈ C.shared.state.rows, m.status = .pending ∨ m.status = .claimed →
    m.attempts < cfg.policy.maxAttempts
  terminal : ∀ m ∈ C.shared.state.rows, m.status = .success ∨ m.status = .quarantined →
    m.attempts ≤ cfg.policy.maxAttempts
  /-- Attempts go down in a redrive of the row and in no other step. -/
  redriven : ∀ l C', relayMachine.traced.step C l = some C' →
    ∀ m ∈ C.shared.state.rows, ∀ m' ∈ C'.shared.state.rows, m'.id = m.id →
      m'.attempts < m.attempts → ∃ availableAt, l = .env (.redriveQuarantined m.id availableAt)

theorem relay_redriven (h : RelayReach (relayStart cfg callees) C)
    {l : relayMachine.traced.Label} (hl : relayMachine.traced.step C l = some C')
    {m m' : OutboxMessage} (hm : m ∈ C.shared.state.rows) (hm' : m' ∈ C'.shared.state.rows)
    (hid : m'.id = m.id) (hless : m'.attempts < m.attempts) :
    ∃ availableAt, l = .env (.redriveQuarantined m.id availableAt) := by
  have hself : ∀ x ∈ C.shared.state.rows, x.id = m.id → x = m := fun x hx heq =>
    List.inj_on_of_nodup_map (relay_ids h) hx hm heq
  -- the statement that made `m'` out of `m` took attempts back
  have hback : ∀ {c : OutboxCall}, c.Turn C.shared.state.rows C'.shared.state.rows →
      ∃ availableAt, c = .redriveQuarantined m.id availableAt := by
    intro c hturn
    rcases hturn.old m' hm' with ⟨x, hx, hnext⟩ | ⟨topic, event, -, -, hnew⟩
    · have hxm := hself x hx (hnext.sameColumns.1.symm.trans hid)
      subst hxm
      rcases hnext.attempts_le with hle | hredrive
      · exact absurd hless (Nat.not_lt.mpr hle)
      · exact hredrive
    · exact absurd hid.symm (hnew m hm)
  rcases relay_turn h hl with hrows | ⟨i, c, t, k, locked, -, -, hturn⟩ | ⟨v, rfl, hturn⟩
  · rw [hself m' (hrows ▸ hm') hid] at hless
    exact absurd hless (Nat.lt_irrefl _)
  · obtain ⟨availableAt, hcall⟩ := hback hturn
    cases t <;> cases hcall
  · obtain ⟨availableAt, hcall⟩ := hback hturn
    cases v with
    | redriveQuarantined messageId at' =>
      cases hcall
      exact ⟨availableAt, rfl⟩
    | _ => cases hcall

theorem outboxRowsKept (h : RelayReach (relayStart cfg callees) C)
    (hd : (relayTokens cfg).Distinct C.shared.trace) : OutboxRowsKept cfg C := by
  have hlife := relay_lifecycle h
  have hbudget := relay_budget h hd
  have hpasses : ∀ c : OutboxCall, ∀ m ∈ (c.on C.shared.state.rows).rows, m.lifecycle = true :=
    fun c => (OutboxCall.turn (relay_ids h) c).lifecycle hlife
  refine ⟨fun m hm => ?_, hpasses, fun c m hm => ?_, fun m hm hs => ?_, fun m hm _ => ?_, ?_⟩
  · exact ⟨hlife m hm, (OutboxMessage.validateLifecycle_ok m).mpr (hlife m hm)⟩
  · refine (OutboxMessage.validateLifecycle_ok m).mpr (hpasses c m ?_)
    exact (OutboxCall.claimed_mem hm).1
  · exact (hbudget m hm).2 (OutboxMessage.open_iff.mpr hs)
  · exact (hbudget m hm).1
  · exact fun l C' hl m hm m' hm' hid hless => relay_redriven h hl hm hm' hid hless

end Runs

/-! ## Both tables -/

/-- **Lifecycle and budget.** In every state of every run of either table's
workers, given that UUIDs do not repeat. -/
theorem rows_kept (registration : RegistrationConfig) (relay : RelayConfig) (clock : Time)
    (handlers : Nat → Option RegistrationCallee) (workers : Nat → Option RelayCallee) :
    (∀ C, RecordedReach registration (recordedStart registration clock handlers) C →
      (registrationTokens registration).Distinct C.shared.trace →
      RegistrationRowsKept registration C) ∧
    ∀ C, RelayReach (relayStart relay workers) C → (relayTokens relay).Distinct C.shared.trace →
      OutboxRowsKept relay C :=
  ⟨fun _ h hd => registrationRowsKept h hd, fun _ h hd => outboxRowsKept h hd⟩

namespace Sample

/-- A registration from its lookup to its finalization, on record. -/
def registeredOnRecord : List (registrationMachine registration).traced.Label :=
  [.act 0 (.go fun _ => false), .act 0 (.salt "x"), .act 0 (.go fun _ => false), .act 0 (.uuid 7),
    .act 0 (.uuid 1), .act 0 (.uuid 2), .act 0 (.go fun _ => false), .act 0 (.go fun _ => false),
    .act 0 (.profile .created), .act 0 (.go fun _ => false), .act 0 (.uuid 11), .act 0 (.uuid 12),
    .act 0 (.go fun _ => false)]

/-- An event that the broker refuses for good. -/
def refused : List relayMachine.traced.Label :=
  [.env (.publish "identity" (registered 1 3)), .act 0 (.uuid 7), .act 0 (.time 5),
    .act 0 (.go fun _ => false), .act 0 (.go fun _ => false), .act 1 (.go fun _ => false),
    .act 1 (.flag false), .act 1 (.published (.error .permanentPublish)), .act 1 (.time 6),
    .act 1 (.go fun _ => false)]

end Sample

open Sample in
theorem rows_kept_completed_refused :
    ∃ (C : RegistrationRun) (D : RelayRun),
      (registrationMachine registration).traced.run (fun _ _ => true)
        (recordedStart registration 5 registering) registeredOnRecord = some C ∧
      relayMachine.traced.run (fun _ _ => true) (relayStart relay passes) refused = some D ∧
      (∃ o ∈ C.shared.state.db.operations, o.status = .completed ∧ o.passwordHash = none) ∧
      ∃ m ∈ D.shared.state.rows, m.status = .quarantined ∧ m.attempts ≤ 5 := by
  obtain ⟨C, o, hrun, hdistinct, ho, hs⟩ : ∃ (C : RegistrationRun) (o : RegistrationOperation),
      (registrationMachine registration).traced.run (fun _ _ => true)
        (recordedStart registration 5 registering) registeredOnRecord = some C ∧
      (registrationTokens registration).Distinct C.shared.trace ∧
      o ∈ C.shared.state.db.operations ∧ o.status = .completed := by
    refine ⟨_, _, rfl, ?_, List.mem_singleton.mpr rfl, rfl⟩
    exact (by decide : ([7, 1, 2, 11, 12] : List Nat).Nodup)
  obtain ⟨D, m, hrun', hdistinct', hm, hs'⟩ : ∃ (D : RelayRun) (m : OutboxMessage),
      relayMachine.traced.run (fun _ _ => true) (relayStart relay passes) refused = some D ∧
      (relayTokens relay).Distinct D.shared.trace ∧
      m ∈ D.shared.state.rows ∧ m.status = .quarantined := by
    refine ⟨_, _, by with_unfolding_all rfl, ?_, List.mem_singleton.mpr rfl, ?_⟩
    · exact (by decide : ([7] : List Nat).Nodup)
    · with_unfolding_all rfl
  have hany : ∀ s s' : RegistrationRecord, true = true → True := fun _ _ _ => trivial
  have hany' : ∀ s s' : RelayRecord, true = true → True := fun _ _ _ => trivial
  obtain ⟨hregistrations, houtbox⟩ := rows_kept registration relay 5 registering passes
  have hkept := hregistrations C (Machine.reach_of_run _ hany _ _ _ hrun) hdistinct
  have hkept' := houtbox D (Machine.reach_of_run _ hany' _ _ _ hrun') hdistinct'
  exact ⟨C, D, hrun, hrun', ⟨o, ho, hs, (hkept.scrubbed o ho).mpr hs⟩,
    m, hm, hs', hkept'.terminal m hm (.inr hs')⟩

end IdentityService
