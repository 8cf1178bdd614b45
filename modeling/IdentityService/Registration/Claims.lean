import IdentityService.Fencing
import IdentityService.Registration.ExactlyOnce
import IdentityService.Registration.Flow

/-!
# Claims of a recorded run

A run of the registration system with its record: which operations were
handed out to which token, and that a process works only on what was handed
out. The snapshot handed out stays true of the row's identity for good and,
as long as UUIDs do not repeat, of the whole row while its token stands.
-/

namespace IdentityService

open Concurrent

abbrev RegistrationRecord := Traced registrationSig Exn RegistrationWorld

abbrev RegistrationRun := Config registrationSig Exn RegistrationRecord RegistrationAnswer

/-- Any number of processes on an empty database, nothing recorded. -/
def recordedStart (cfg : RegistrationConfig) (clock : Time)
    (callees : Nat → Option RegistrationCallee) : RegistrationRun :=
  ⟨⟨.start clock, []⟩, fun i => (callees i).map (RegistrationCallee.program cfg)⟩

abbrev RecordedReach (cfg : RegistrationConfig) : RegistrationRun → RegistrationRun → Prop :=
  (registrationMachine cfg).traced.Reach fun _ _ => True

/-- The operations an answer hands out, with the token they are claimed
under. -/
def RegistrationEff.handsOut : (e : RegistrationEff) → Except Exn e.Resp → List RegistrationTask
  | .tx (.tryCreate candidate), .ok (some o) =>
    (candidate.claimToken.map fun t => (⟨o, t⟩ : RegistrationTask)).toList
  | .tx (.claimByKeyHash _ ownerToken _ _), .ok (some o) => [⟨o, ownerToken⟩]
  | .tx (.claimBatch ownerToken _ _ _), .ok operations => operations.map fun o => ⟨o, ownerToken⟩
  | _, _ => []

/-- The operations that a run has handed out. -/
def handedOut (trace : List (Event registrationSig Exn)) : List RegistrationTask :=
  trace.flatMap fun e => RegistrationEff.handsOut e.op e.resp

theorem handedOut_append (trace : List (Event registrationSig Exn))
    (e : Event registrationSig Exn) :
    handedOut (trace ++ [e]) = handedOut trace ++ RegistrationEff.handsOut e.op e.resp := by
  simp [handedOut]

/-! ## What a step does to the operations -/

/-- The statement of a unit of work that writes operations. -/
def RegistrationTx.call (locked : Uuid → Bool) : RegistrationTx → Option RegistrationCall
  | .tryCreate candidate => some (.tryCreate candidate)
  | .claimByKeyHash keyHash ownerToken claimedAt claimExpiresAt =>
    some (.claimByKeyHash keyHash ownerToken claimedAt claimExpiresAt)
  | .claimBatch ownerToken claimedAt claimExpiresAt limit =>
    some (.claimBatch locked ownerToken claimedAt claimExpiresAt limit)
  | .finalize operationId ownerToken completedAt _ _ _ =>
    some (.complete operationId ownerToken completedAt)
  | .scheduleRetry operationId ownerToken failedAt availableAt errorClass =>
    some (.scheduleRetry operationId ownerToken failedAt availableAt errorClass)
  | .block operationId ownerToken blockedAt errorClass =>
    some (.block operationId ownerToken blockedAt errorClass)
  | .redriveBlocked operationId availableAt => some (.redriveBlocked operationId availableAt)
  | _ => none

section Steps

variable {cfg : RegistrationConfig} {i : Nat} {w w' : RegistrationWorld} {fmt : EventFormat}
  {locked : Uuid → Bool} {db db' : RegistrationDb}

/-- A unit of work leaves the operations its statement leaves, and answers
with the rows that statement claimed. -/
theorem body_call {t : RegistrationTx} {a : t.Resp} (h : t.body fmt locked db = .ok (a, db')) :
    (t.call locked = none ∧ db'.operations = db.operations ∧
      RegistrationEff.handsOut (.tx t) (.ok a) = []) ∨
    ∃ c, t.call locked = some c ∧ db'.operations = c.exec db.operations ∧
      ∀ task ∈ RegistrationEff.handsOut (.tx t) (.ok a),
        task.operation ∈ c.claimed db.operations ∧
          (RegistrationEff.tx t).spend = some task.ownerToken := by
  cases t with
  | getByKeyHash keyHash =>
    simp only [RegistrationTx.body, bind_eq_ok] at h
    obtain ⟨r, -, h⟩ := h
    cases h
    exact .inl ⟨rfl, rfl, rfl⟩
  | getUserByEmail email =>
    cases h
    exact .inl ⟨rfl, rfl, rfl⟩
  | commit =>
    cases h
    exact .inl ⟨rfl, rfl, rfl⟩
  | getUser userId =>
    cases h
    exact .inl ⟨rfl, rfl, rfl⟩
  | tryCreate candidate =>
    simp only [RegistrationTx.body, bind_eq_ok] at h
    obtain ⟨⟨created, rows⟩, hc, h⟩ := h
    cases h
    refine .inr ⟨_, rfl, by simp [RegistrationCall.exec, hc, RegistrationCall.left], ?_⟩
    intro task htask
    cases created with
    | none => cases htask
    | some o =>
      simp only [RegistrationEff.handsOut, Option.mem_toList, Option.map_eq_some_iff] at htask
      obtain ⟨t, ht, rfl⟩ := htask
      exact ⟨by simp [RegistrationCall.claimed, hc], ht⟩
  | claimByKeyHash keyHash ownerToken claimedAt claimExpiresAt =>
    simp only [RegistrationTx.body, bind_eq_ok] at h
    obtain ⟨⟨claimed, rows⟩, hc, h⟩ := h
    cases h
    refine .inr ⟨_, rfl, by simp [RegistrationCall.exec, hc, RegistrationCall.left], ?_⟩
    intro task htask
    cases claimed with
    | none => cases htask
    | some o =>
      rw [List.mem_singleton.mp htask]
      exact ⟨by simp [RegistrationCall.claimed, hc], rfl⟩
  | claimBatch ownerToken claimedAt claimExpiresAt limit =>
    simp only [RegistrationTx.body, bind_eq_ok] at h
    obtain ⟨⟨batch, rows⟩, hc, h⟩ := h
    cases h
    refine .inr ⟨_, rfl, by simp [RegistrationCall.exec, hc, RegistrationCall.left], ?_⟩
    intro task htask
    obtain ⟨o, ho, rfl⟩ := List.mem_map.mp htask
    exact ⟨by simpa [RegistrationCall.claimed, hc] using ho, rfl⟩
  | finalize operationId ownerToken completedAt user eventId correlationId =>
    refine .inr ⟨_, rfl, ?_, fun _ htask => by cases htask⟩
    rcases RegistrationTx.finalizeBody_cases h with ⟨x, -, hx⟩ | ⟨rows, -, hx⟩ |
      ⟨rows, hc, ⟨hx, -⟩ | hx | ⟨outbox, hx⟩⟩
    · cases hx
    · cases hx
    · cases hx
    · cases hx
    · cases hx
      simp [RegistrationCall.exec, hc, RegistrationCall.left]
  | scheduleRetry operationId ownerToken failedAt availableAt errorClass =>
    simp only [RegistrationTx.body, bind_eq_ok] at h
    obtain ⟨⟨scheduled, rows⟩, hc, h⟩ := h
    cases h
    exact .inr ⟨_, rfl, by simp [RegistrationCall.exec, hc, RegistrationCall.left],
      fun _ htask => by cases htask⟩
  | block operationId ownerToken blockedAt errorClass =>
    simp only [RegistrationTx.body, bind_eq_ok] at h
    obtain ⟨⟨blocked, rows⟩, hc, h⟩ := h
    cases h
    exact .inr ⟨_, rfl, by simp [RegistrationCall.exec, hc, RegistrationCall.left],
      fun _ htask => by cases htask⟩
  | redriveBlocked operationId availableAt =>
    simp only [RegistrationTx.body, bind_eq_ok] at h
    obtain ⟨⟨redriven, rows⟩, hc, h⟩ := h
    cases h
    exact .inr ⟨_, rfl, by simp [RegistrationCall.exec, hc, RegistrationCall.left],
      fun _ htask => by cases htask⟩

/-- The same of one effect: it leaves the operations alone and hands nothing
out, or it is a unit of work whose statement went through. -/
theorem exec_operations {e : RegistrationEff} {c : RegistrationChoice} {r : Except Exn e.Resp}
    (h : RegistrationWorld.exec cfg i e c w = some (r, w')) :
    (w'.db.operations = w.db.operations ∧ e.handsOut r = []) ∨
    ∃ t locked call, e = .tx t ∧ t.call locked = some call ∧
      w'.db.operations = call.exec w.db.operations ∧
      ∀ task ∈ e.handsOut r, task.operation ∈ call.claimed w.db.operations ∧
        e.spend = some task.ownerToken := by
  cases e with
  | tx t =>
    have hlost : ∀ x, RegistrationEff.handsOut (.tx t) (.error x) = [] := by
      intro x
      cases t <;> rfl
    rcases exec_tx h with ⟨locked, a, db, hb, rfl, rfl⟩ | ⟨locked, a, db, x, hb, rfl, -, rfl⟩ |
      ⟨locked, x, hb, rfl, rfl⟩ | ⟨locked, x, y, hb, rfl, -, rfl⟩ | ⟨x, rfl, -, rfl⟩
    · rcases body_call hb with ⟨-, hdb, hnone⟩ | ⟨call, hcall, hdb, hout⟩
      · exact .inl ⟨hdb, hnone⟩
      · exact .inr ⟨t, locked, call, rfl, hcall, hdb, hout⟩
    · -- committed, and reported as failed
      rcases body_call hb with ⟨-, hdb, -⟩ | ⟨call, hcall, hdb, -⟩
      · exact .inl ⟨hdb, hlost x⟩
      · refine .inr ⟨t, locked, call, rfl, hcall, hdb, ?_⟩
        rw [hlost x]
        exact nofun
    · exact .inl ⟨rfl, hlost _⟩
    · exact .inl ⟨rfl, hlost _⟩
    · exact .inl ⟨rfl, hlost _⟩
  | spawn tasks =>
    cases c with
    | go locked =>
      cases h
      exact .inl ⟨rfl, rfl⟩
    | fault x =>
      obtain ⟨hx, -, -⟩ := exec_fault h
      cases hx
    | _ => cases h
  | _ =>
    obtain ⟨⟨hdb, -⟩, -⟩ := exec_quiet rfl h
    exact .inl ⟨by rw [hdb], rfl⟩

/-- The task list grows by what is spawned. -/
theorem exec_tasks {e : RegistrationEff} {c : RegistrationChoice} {r : Except Exn e.Resp}
    (h : RegistrationWorld.exec cfg i e c w = some (r, w')) :
    w'.tasks = w.tasks ∨ ∃ tasks, e = .spawn tasks ∧ w'.tasks = w.tasks ++ tasks := by
  cases e with
  | tx t =>
    rcases exec_tx h with ⟨locked, a, db, -, -, rfl⟩ | ⟨locked, a, db, x, -, -, -, rfl⟩ |
      ⟨locked, x, -, -, rfl⟩ | ⟨locked, x, y, -, -, -, rfl⟩ | ⟨x, -, -, rfl⟩
    all_goals exact .inl rfl
  | spawn tasks =>
    cases c with
    | go locked =>
      cases h
      exact .inr ⟨tasks, rfl, rfl⟩
    | fault x =>
      obtain ⟨hx, -, -⟩ := exec_fault h
      cases hx
    | _ => cases h
  | _ =>
    obtain ⟨⟨-, htasks, -⟩, -⟩ := exec_quiet rfl h
    exact .inl htasks

/-- Only a report adds to the reports. -/
theorem exec_finished {e : RegistrationEff} {c : RegistrationChoice} {r : Except Exn e.Resp}
    (h : RegistrationWorld.exec cfg i e c w = some (r, w')) {n : Nat}
    (hn : w'.finished n = true) : w.finished n = true ∨ e = .done n := by
  cases e with
  | tx t =>
    rcases exec_tx h with ⟨locked, a, db, -, -, rfl⟩ | ⟨locked, a, db, x, -, -, -, rfl⟩ |
      ⟨locked, x, -, -, rfl⟩ | ⟨locked, x, y, -, -, -, rfl⟩ | ⟨x, -, -, rfl⟩
    all_goals exact .inl hn
  | done m =>
    cases c with
    | go locked =>
      cases h
      by_cases heq : n = m
      · exact .inr (heq ▸ rfl)
      · exact .inl ((Function.update_of_ne heq _ _).symm.trans hn)
    | fault x =>
      obtain ⟨hx, -, -⟩ := exec_fault h
      cases hx
    | _ => cases h
  | task m =>
    cases c with
    | go locked =>
      obtain ⟨t, -, heq⟩ := Option.map_eq_some_iff.mp h
      cases heq
      exact .inl hn
    | fault x =>
      obtain ⟨hx, -, -⟩ := exec_fault h
      cases hx
    | _ => cases h
  | join first count =>
    cases c with
    | go locked =>
      simp only [RegistrationWorld.exec] at h
      split at h
      · cases h
        exact .inl hn
      · cases h
    | fault x =>
      obtain ⟨-, -, rfl⟩ := exec_fault h
      exact .inl hn
    | _ => cases h
  | _ =>
    cases c with
    | fault x =>
      obtain ⟨-, -, rfl⟩ := exec_fault h
      exact .inl hn
    | _ => cases h <;> exact .inl hn

/-- A task that is given is on the task list. -/
theorem exec_taken {e : RegistrationEff} {c : RegistrationChoice} {r : Except Exn e.Resp}
    (h : RegistrationWorld.exec cfg i e c w = some (r, w')) {n : Nat} (hn : e.taken r = some n) :
    n < w.tasks.length := by
  cases e with
  | task m =>
    cases c with
    | go locked =>
      obtain ⟨t, ht, heq⟩ := Option.map_eq_some_iff.mp h
      cases heq
      cases hn
      exact (List.getElem?_eq_some_iff.mp ht).1
    | fault x =>
      obtain ⟨hx, -, -⟩ := exec_fault h
      cases hx
    | _ => cases h
  | _ => cases hn

/-- What a process gets to work on was handed out by this answer, or is on
the task list. -/
theorem exec_obtained {e : RegistrationEff} {c : RegistrationChoice} {r : Except Exn e.Resp}
    (h : RegistrationWorld.exec cfg i e c w = some (r, w')) {task : RegistrationTask}
    (ht : e.obtained r = some task) : task ∈ e.handsOut r ∨ task ∈ w.tasks := by
  cases e with
  | tx t =>
    refine .inl ?_
    cases r with
    | error x => cases t <;> cases ht
    | ok a =>
      cases t with
      | tryCreate candidate =>
        cases a with
        | none => cases ht
        | some o => exact Option.mem_toList.mpr ht
      | claimByKeyHash keyHash ownerToken claimedAt claimExpiresAt =>
        cases a with
        | none => cases ht
        | some o =>
          cases ht
          exact List.mem_singleton.mpr rfl
      | _ => cases ht
  | task n =>
    refine .inr ?_
    cases c with
    | go locked =>
      obtain ⟨t, hn, heq⟩ := Option.map_eq_some_iff.mp h
      cases heq
      cases ht
      exact List.mem_of_getElem? hn
    | fault x =>
      obtain ⟨hx, -, -⟩ := exec_fault h
      cases hx
    | _ => cases h
  | _ => cases ht

/-- A batch is handed out. -/
theorem handsOut_of_batched {e : RegistrationEff} {r : Except Exn e.Resp}
    {batch : List RegistrationTask} (h : e.batched r = some batch) : e.handsOut r = batch := by
  cases e with
  | tx t =>
    cases r with
    | error x => cases t <;> cases h
    | ok a =>
      cases t with
      | claimBatch ownerToken claimedAt claimExpiresAt limit =>
        cases h
        rfl
      | _ => cases h
  | _ => cases h

end Steps

/-! ## What is handed out -/

section Runs

variable {cfg : RegistrationConfig} {clock : Time} {callees : Nat → Option RegistrationCallee}
  {C C' : RegistrationRun}

/-- Along every recorded run the handlers keep to their flow. -/
theorem recorded_kept (h : RecordedReach cfg (recordedStart cfg clock callees) C) :
    (registrationFlow cfg).Kept (fun _ => Anyhow) C := by
  refine Flow.follows_reach (fun i p hp => ?_) h
  obtain ⟨callee, -, rfl⟩ := Option.map_eq_some_iff.mp hp
  exact callee_follows callee

/-- Without its record it is a run of the system. -/
theorem recorded_good (h : RecordedReach cfg (recordedStart cfg clock callees) C) :
    (registrationSpec cfg (Issued callees)).Good (Promises callees)
      ((registrationMachine cfg).forget.config C) :=
  registration_good ((registrationMachine cfg).forget.reach h)

theorem recorded_accounts (h : RecordedReach cfg (recordedStart cfg clock callees) C) :
    Accounts cfg.hasher (Issued callees) C.shared.state.db :=
  (recorded_good h).inv.accounts

theorem recorded_progress (h : RecordedReach cfg (recordedStart cfg clock callees) C)
    {l : (registrationMachine cfg).traced.Label}
    (hl : (registrationMachine cfg).traced.step C l = some C') :
    Progress C.shared.state C'.shared.state := by
  obtain ⟨l', hl'⟩ := (registrationMachine cfg).forget.step hl
  exact ((recorded_good h).step closed_registration ⟨l', hl', trivial⟩).2

/-- Tasks, claims and batches come from what was handed out; it was handed
out under a spent token, and its identity is the row's. -/
structure Handed (cfg : RegistrationConfig) (s : RegistrationRecord) : Prop where
  tasks : ∀ t ∈ s.state.tasks, t ∈ handedOut s.trace
  claim : ∀ i t, ((registrationFlow cfg).after s.trace i).claim = some t → t ∈ handedOut s.trace
  batch : ∀ i, ∀ t ∈ ((registrationFlow cfg).after s.trace i).batch, t ∈ handedOut s.trace
  snapshot : ∀ t ∈ handedOut s.trace, Snapshot s.state.db t.operation
  spent : ∀ t ∈ handedOut s.trace, t.ownerToken ∈ (registrationTokens cfg).spends s.trace

theorem Handed.act {s : RegistrationRecord} (h : Handed cfg s) {i : Nat} {e : RegistrationEff}
    {c : RegistrationChoice} {r : Except Exn e.Resp} {w : RegistrationWorld}
    (hpermits : ((registrationFlow cfg).after s.trace i).Permits cfg.policy.maxAttempts e)
    (hx : RegistrationWorld.exec cfg i e c s.state = some (r, w))
    (hprog : Progress s.state w) : Handed cfg ⟨w, s.trace ++ [⟨i, e, r⟩]⟩ := by
  have hout : handedOut (s.trace ++ [⟨i, e, r⟩]) = handedOut s.trace ++ e.handsOut r :=
    handedOut_append s.trace ⟨i, e, r⟩
  have hself : (registrationFlow cfg).after (s.trace ++ [⟨i, e, r⟩]) i =
      ((registrationFlow cfg).after s.trace i).next e r :=
    Flow.after_append_self s.trace ⟨i, e, r⟩
  have hother : ∀ j, j ≠ i → (registrationFlow cfg).after (s.trace ++ [⟨i, e, r⟩]) j =
      (registrationFlow cfg).after s.trace j :=
    fun j hj => Flow.after_append_ne s.trace hj
  refine ⟨fun t ht => ?_, fun j t ht => ?_, fun j t ht => ?_, fun t ht => ?_, fun t ht => ?_⟩
  · simp only [hout, List.mem_append]
    rcases exec_tasks hx with htasks | ⟨tasks, rfl, htasks⟩
    · exact .inl (h.tasks t (htasks ▸ ht))
    · rw [htasks, List.mem_append] at ht
      rcases ht with ht | ht
      · exact .inl (h.tasks t ht)
      · exact .inl (h.batch i t (hpermits t ht))
  · simp only [hout, List.mem_append]
    by_cases hj : j = i
    · subst hj
      simp only [hself, RegistrationLocal.next, Option.or_eq_some_iff] at ht
      rcases ht with ht | ⟨-, ht⟩
      · rcases exec_obtained hx ht with hnew | hlist
        · exact .inr hnew
        · exact .inl (h.tasks t hlist)
      · exact .inl (h.claim j t ht)
    · simp only [hother j hj] at ht
      exact .inl (h.claim j t ht)
  · simp only [hout, List.mem_append]
    by_cases hj : j = i
    · subst hj
      simp only [hself, RegistrationLocal.next] at ht
      cases hb : e.batched r with
      | none =>
        rw [hb] at ht
        exact .inl (h.batch j t ht)
      | some batch =>
        rw [hb] at ht
        rw [handsOut_of_batched hb]
        exact .inr ht
    · simp only [hother j hj] at ht
      exact .inl (h.batch j t ht)
  · simp only [hout, List.mem_append] at ht
    rcases ht with ht | ht
    · exact (h.snapshot t ht).evolves hprog.db
    · rcases exec_operations hx with ⟨-, hnone⟩ | ⟨tx, locked, call, -, -, hops, hclaims⟩
      · rw [hnone] at ht
        cases ht
      · have hmem := (RegistrationCall.claimed_mem (hclaims t ht).1).1
        rw [← hops] at hmem
        exact .of_mem hmem (.refl _) rfl
  · simp only [hout, List.mem_append] at ht
    rw [Tokens.spends_append, List.mem_append]
    rcases ht with ht | ht
    · exact .inl (h.spent t ht)
    · refine .inr ?_
      rcases exec_operations hx with ⟨-, hnone⟩ | ⟨tx, locked, call, -, -, -, hclaims⟩
      · rw [hnone] at ht
        cases ht
      · exact Option.mem_toList.mpr (hclaims t ht).2

theorem recorded_handed (h : RecordedReach cfg (recordedStart cfg clock callees) C) :
    Handed cfg C.shared := by
  induction h with
  | refl =>
    refine ⟨fun t ht => ?_, fun i t ht => ?_, fun i t ht => ?_, fun t ht => ?_, fun t ht => ?_⟩
    all_goals cases ht
  | tail hr hs ih =>
    obtain ⟨l, hl, -⟩ := hs
    have hprog := recorded_progress hr hl
    rcases Machine.traced_step_cases hl with ⟨i, c, e, k, r, t, -, hp, hx, rfl⟩ |
      ⟨v, t, -, hv, rfl⟩ | ⟨i, e, k, -, -, rfl⟩
    · exact ih.act ((recorded_kept hr).permits hp) hx hprog
    · refine ⟨?_, ih.claim, ih.batch, fun task ht => (ih.snapshot task ht).evolves hprog.db,
        ih.spent⟩
      cases v with
      | tick d =>
        cases hv
        exact ih.tasks
      | relay rows =>
        cases hv
        exact ih.tasks
    · exact ⟨ih.tasks, ih.claim, ih.batch, ih.snapshot, ih.spent⟩

/-- Tasks are given, and reported, that are there. -/
structure Reporting (cfg : RegistrationConfig) (s : RegistrationRecord) : Prop where
  taken : ∀ i, ∀ n ∈ ((registrationFlow cfg).after s.trace i).taken, n < s.state.tasks.length
  finished : ∀ n, s.state.finished n = true → n < s.state.tasks.length

theorem Reporting.act {s : RegistrationRecord} (h : Reporting cfg s) {i : Nat}
    {e : RegistrationEff} {c : RegistrationChoice} {r : Except Exn e.Resp} {w : RegistrationWorld}
    (hpermits : ((registrationFlow cfg).after s.trace i).Permits cfg.policy.maxAttempts e)
    (hx : RegistrationWorld.exec cfg i e c s.state = some (r, w)) :
    Reporting cfg ⟨w, s.trace ++ [⟨i, e, r⟩]⟩ := by
  have hgrows : s.state.tasks.length ≤ w.tasks.length := by
    rcases exec_tasks hx with htasks | ⟨tasks, -, htasks⟩
    · rw [htasks]
    · rw [htasks, List.length_append]
      exact Nat.le_add_right _ _
  refine ⟨fun j n hn => Nat.lt_of_lt_of_le ?_ hgrows, fun n hn => Nat.lt_of_lt_of_le ?_ hgrows⟩
  · by_cases hj : j = i
    · subst hj
      have hself : (registrationFlow cfg).after (s.trace ++ [⟨j, e, r⟩]) j =
          ((registrationFlow cfg).after s.trace j).next e r :=
        Flow.after_append_self s.trace ⟨j, e, r⟩
      simp only [hself, RegistrationLocal.next, List.mem_append, Option.mem_toList] at hn
      rcases hn with hnew | hbefore
      · exact exec_taken hx hnew
      · exact h.taken j n hbefore
    · have hother : (registrationFlow cfg).after (s.trace ++ [⟨i, e, r⟩]) j =
          (registrationFlow cfg).after s.trace j := Flow.after_append_ne s.trace hj
      simp only [hother] at hn
      exact h.taken j n hn
  · rcases exec_finished hx hn with hbefore | rfl
    · exact h.finished n hbefore
    · exact h.taken i n hpermits

theorem recorded_reporting (h : RecordedReach cfg (recordedStart cfg clock callees) C) :
    Reporting cfg C.shared := by
  induction h with
  | refl =>
    refine ⟨fun i n hn => ?_, fun n hn => ?_⟩
    all_goals cases hn
  | tail hr hs ih =>
    obtain ⟨l, hl, -⟩ := hs
    rcases Machine.traced_step_cases hl with ⟨i, c, e, k, r, t, -, hp, hx, rfl⟩ |
      ⟨v, t, -, hv, rfl⟩ | ⟨i, e, k, -, -, rfl⟩
    · exact ih.act ((recorded_kept hr).permits hp) hx
    · cases v with
      | tick d =>
        cases hv
        exact ⟨ih.taken, ih.finished⟩
      | relay rows =>
        cases hv
        exact ⟨ih.taken, ih.finished⟩
    · exact ⟨ih.taken, ih.finished⟩

/-- In every reachable state only tasks that are there have been reported. -/
theorem reported_spawned
    {K : Config registrationSig Exn RegistrationWorld RegistrationAnswer}
    (h : RegistrationReach cfg (registrationStart cfg clock callees) K) {n : Nat}
    (hn : K.shared.finished n = true) : n < K.shared.tasks.length := by
  obtain ⟨trace, hr⟩ := Machine.reach_traced h []
  exact (recorded_reporting hr).finished n hn

end Runs

end IdentityService
