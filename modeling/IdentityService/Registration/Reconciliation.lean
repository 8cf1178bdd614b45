import Mathlib.Data.Nat.Pairing
import IdentityService.Registration.Recovery

/-!
# The reconciler finishes what was left behind

A pass claims the operations that have been due longest and runs each as a
task of its own. However the pass and its workers are interleaved, if nothing
else disturbs them all of these operations are completed when it returns,
whoever left them behind and however far they had got.

While the workers run, each is surely brought to its end by its own program
(`Working.busy`), since what one of them does is nothing to the others.
-/

namespace IdentityService

open Concurrent Concurrent.Machine

variable {cfg : RegistrationConfig} {issued : RegisterUserCommand → Prop} {i : Nat}
  {w w' : RegistrationWorld} {o : RegistrationOperation} {clock : Time}
  {callees : Nat → Option RegistrationCallee}
  {C : Config registrationSig Exn RegistrationWorld RegistrationAnswer}

/-! ## The selection -/

/-- What a pass selects in a state in which no rows are locked. -/
def dueIn (w : RegistrationWorld) (batchSize : Int) : List RegistrationOperation :=
  Table.select (fun o => o.eligible w.clock) RegistrationOperation.dispatchLe batchSize.toNat
    w.db.operations

/-- No UUID is drawn by two processes. -/
def UuidSupply.Apart (supply : UuidSupply) : Prop :=
  ∀ i j u, supply.own i u → supply.own j u → i = j

/-- A pool for each process. -/
def UuidSupply.paired : UuidSupply where
  own i u := u.unpair.1 = i
  plenty i used := by
    obtain ⟨n, hn⟩ := Infinite.exists_notMem_finset (used.map fun u => u.unpair.2).toFinset
    refine ⟨Nat.pair i n, fun hu => hn ?_, by simp⟩
    simpa using ⟨_, hu, by simp⟩

theorem UuidSupply.paired_apart : UuidSupply.paired.Apart :=
  fun _ _ _ hi hj => hi.symm.trans hj

/-- The statement of a pass takes what it selects. -/
theorem claimBatch_takes {db : RegistrationDb} (h : Accounts cfg.hasher issued db)
    (locked : Uuid → Bool) (ownerToken : Uuid) {claimedAt claimExpiresAt : Time} {limit : Int}
    (hlimit : 0 < limit) (hwindow : claimedAt < claimExpiresAt) : ∃ batch,
      Registrations.claimBatch db.operations locked ownerToken claimedAt claimExpiresAt limit =
        .ok (batch, Table.update (fun x => (Registrations.claimableIds db.operations locked
          claimedAt limit.toNat).contains x.id) (.claim ownerToken claimExpiresAt)
          db.operations) ∧
      (batch.map RegistrationOperation.id).Nodup ∧
      ∀ x, x ∈ batch ↔ ∃ o ∈ db.operations, (Registrations.claimableIds db.operations locked
        claimedAt limit.toNat).contains o.id = true ∧ x = o.claim ownerToken claimExpiresAt := by
  obtain ⟨ids, hids⟩ : ∃ ids, ids = Registrations.claimableIds db.operations locked claimedAt
      limit.toNat := ⟨_, rfl⟩
  obtain ⟨claim, hclaim⟩ : ∃ claim,
      claim = RegistrationOperation.claim ownerToken claimExpiresAt := ⟨_, rfl⟩
  have hlife : ∀ x ∈ db.operations, ids.contains x.id = true → (claim x).lifecycle = true := by
    intro x hx hid
    rw [hclaim]
    rw [hids] at hid
    exact RegistrationOperation.lifecycle_claim (h.lifecycle x hx)
      (RegistrationTx.claimable_open h hx hid) _ _
  have hmem : ∀ x, x ∈ ((db.operations.filter fun o => ids.contains o.id).map claim).mergeSort
      RegistrationOperation.dispatchLe ↔
      ∃ o ∈ db.operations, ids.contains o.id = true ∧ x = claim o := by
    intro x
    simp only [List.mem_mergeSort, List.mem_map, List.mem_filter]
    constructor
    · rintro ⟨o, ⟨ho, hid⟩, rfl⟩
      exact ⟨o, ho, hid, rfl⟩
    · rintro ⟨o, ho, hid, rfl⟩
      exact ⟨o, ⟨ho, hid⟩, rfl⟩
  have hread := Registrations.mapM_passes (l := ((db.operations.filter fun o =>
      ids.contains o.id).map claim).mergeSort RegistrationOperation.dispatchLe) fun x hx => by
    obtain ⟨o, ho, hid, rfl⟩ := (hmem x).mp hx
    exact hlife o ho hid
  have hwrite := Registrations.write_passes hlife
  rw [← hids, ← hclaim]
  refine ⟨_, ?_, ?_, hmem⟩
  · simp only [Registrations.claimBatch, if_neg (Int.not_le.mpr hlimit),
      Registrations.window_passes hwindow, ← hids, ← hclaim, hwrite]
    simp only [bind, Except.bind, hread]
    rfl
  · refine ((List.mergeSort_perm _ _).map _).nodup_iff.mpr ?_
    rw [List.map_map]
    have hsame : RegistrationOperation.id ∘ claim = RegistrationOperation.id := by
      rw [hclaim]
      rfl
    rw [hsame]
    exact (ids_nodup h).sublist (List.filter_sublist.map _)

/-! ## Passes -/

/-- A pass of the reconciler that is about to begin, and its run: the state
it sets out from and until when it goes, and who runs which task. -/
structure Pass where
  cfg : RegistrationConfig
  clock : Time
  callees : Nat → Option RegistrationCallee
  supply : UuidSupply
  start : Config registrationSig Exn RegistrationWorld RegistrationAnswer
  deadline : Time
  pid : Nat
  workers : Nat → Nat
  batchSize : Int

namespace Pass

variable {R : Pass} {j k : Nat}

/-- The place of the first task. -/
def first (R : Pass) : Nat := R.start.shared.tasks.length

/-- Who runs task `j` of the batch. -/
def worker (R : Pass) (j : Nat) : Nat := R.workers (R.first + j)

/-- The pass, and a worker for each task it may have. -/
def Moves (R : Pass) (j : Nat) : Prop :=
  j = R.pid ∨ ∃ n < R.batchSize.toNat, j = R.worker n

/-- The runs in which nothing else happens. -/
def runs (R : Pass) : (registrationMachine R.cfg).Calm :=
  calm R.cfg R.supply R.Moves R.start.shared R.deadline

/-- The run is one of the system, shorter than a lease, and everyone is
there. -/
structure Staffed (R : Pass) : Prop where
  reach : RegistrationReach R.cfg (registrationStart R.cfg R.clock R.callees) R.start
  supply : R.supply.Apart
  early : R.start.shared.clock < R.deadline
  lease : R.deadline ≤ R.start.shared.clock + R.cfg.claimLease
  size : 0 < R.batchSize
  pass : R.start.pool R.pid = some (RegistrationCallee.program R.cfg (.runOnce R.batchSize))
  worker : ∀ n < R.batchSize.toNat, R.start.pool (R.worker n) =
    some (RegistrationCallee.program R.cfg (.processTask (R.first + n)))

theorem Staffed.positive (h : R.Staffed) : 0 < R.cfg.claimLease :=
  Nat.pos_of_lt_add_right (Nat.lt_of_lt_of_le h.early h.lease)

/-- What a pass has after its first unit of work: a token and a batch. -/
structure Batched (R : Pass) (claimed : Uuid × List RegistrationOperation) (claimedAt : Time)
    (w : RegistrationWorld) : Prop where
  since : R.start.shared.clock ≤ claimedAt
  clock : claimedAt ≤ w.clock
  early : w.clock < R.deadline
  tasks : w.tasks = R.start.shared.tasks
  finished : w.finished = R.start.shared.finished
  outbox : w.db.outbox = R.start.shared.db.outbox
  ids : (claimed.2.map RegistrationOperation.id).Nodup
  length : claimed.2.length ≤ R.batchSize.toNat
  row : ∀ x ∈ claimed.2, x ∈ w.db.operations ∧ x.status = .claimed ∧
    x.claimToken = some claimed.1 ∧
    ∃ expires, x.claimExpiresAt = some expires ∧ R.deadline ≤ expires
  due : ∀ o ∈ dueIn { R.start.shared with clock := claimedAt } R.batchSize,
    ∃ x ∈ claimed.2, SameOperation x o

end Pass

/-! ## A pass up to its tasks -/

theorem Waits.trans {deadline : Time} {w₁ : RegistrationWorld} (h : Waits deadline w w₁)
    (h' : Waits deadline w₁ w') : Waits deadline w w' := by
  obtain ⟨d, -, rfl⟩ := h
  obtain ⟨d', hearly, rfl⟩ := h'
  exact ⟨d + d', by rwa [← Nat.add_assoc], by rw [← Nat.add_assoc]⟩

/-- What the pass does meanwhile: nothing to the clock or the tasks. -/
structure Unspawned (w w' : RegistrationWorld) : Prop where
  clock : w'.clock = w.clock
  tasks : w'.tasks = w.tasks

/-- The terms of a pass that has no workers yet. -/
def Pass.terms (R : Pass) : (registrationMachine R.cfg).Terms :=
  ⟨Favourable R.supply (eventIds R.start.shared) R.pid, Waits R.deadline, Unspawned⟩

/-- The awaits of a pass before it has tasks. -/
def claimDue (cfg : RegistrationConfig) (batchSize : Int) :
    Registration (Uuid × List RegistrationOperation) := do
  let ownerToken ← await .uuid
  let claimedAt ← await .now
  let operations ← await (.tx (.claimBatch ownerToken claimedAt (claimedAt + cfg.claimLease)
    batchSize))
  return (ownerToken, operations)

/-- The rest of it. -/
def gather (claimed : Uuid × List RegistrationOperation) : Registration Nat :=
  if claimed.2.isEmpty then return 0
  else do
    let first ← await (.spawn (claimed.2.map fun o => ⟨o, claimed.1⟩))
    await (.join first claimed.2.length)
    return claimed.2.length

theorem runOnce_eq {batchSize : Int} (hpos : 0 < batchSize) :
    runOnce cfg batchSize = (claimDue cfg batchSize).bind gather := by
  simp only [runOnce, claimDue, gather, if_neg (Int.not_le.mpr hpos), Prog.bind_eq, Prog.pure_eq,
    Prog.bind_assoc, Prog.ret_bind]

namespace Pass

variable {R : Pass}

/-- The claim of a pass at a time that it has read. -/
theorem Staffed.claimBatch_must (h : R.Staffed) (ownerToken : Uuid) {claimedAt : Time}
    (hsince : R.start.shared.clock ≤ claimedAt) :
    Brings R.terms R.pid (fun w => Waits R.deadline R.start.shared w ∧ claimedAt ≤ w.clock)
      (await (.tx (.claimBatch ownerToken claimedAt (claimedAt + R.cfg.claimLease) R.batchSize)))
      (Gives fun operations w => R.Batched (ownerToken, operations) claimedAt w) := by
  have hwindow : claimedAt < claimedAt + R.cfg.claimLease := Nat.lt_add_of_pos_right h.positive
  have hacc := (registration_good h.reach).inv.accounts
  obtain ⟨batch, hclaim, hids, hbatch⟩ :=
    claimBatch_takes hacc (fun _ => false) ownerToken h.size hwindow
  obtain ⟨ids, hidsEq⟩ : ∃ ids, ids = Registrations.claimableIds R.start.shared.db.operations
      (fun _ => false) claimedAt R.batchSize.toNat := ⟨_, rfl⟩
  rw [← hidsEq] at hclaim hbatch
  have hselect : ids = (dueIn { R.start.shared with clock := claimedAt } R.batchSize).map
      RegistrationOperation.id := by
    rw [hidsEq, Registrations.claimableIds, dueIn]
    simp only [Bool.not_false, Bool.and_true]
  obtain ⟨rows, hrows⟩ : ∃ rows, rows = Table.update (fun x => ids.contains x.id)
    (.claim ownerToken (claimedAt + R.cfg.claimLease)) R.start.shared.db.operations := ⟨_, rfl⟩
  rw [← hrows] at hclaim
  have hexec : ∀ w, Waits R.deadline R.start.shared w → RegistrationWorld.exec R.cfg R.pid
      (.tx (.claimBatch ownerToken claimedAt (claimedAt + R.cfg.claimLease) R.batchSize))
      (.go fun _ => false) w =
      some (.ok batch, w.commit R.pid { R.start.shared.db with operations := rows }) := by
    rintro w ⟨elapsed, -, rfl⟩
    simp only [RegistrationWorld.exec, RegistrationWorld.transact, RegistrationTx.body, hclaim]
    rfl
  have hlength : batch.length ≤ R.batchSize.toNat := by
    have hsubset : batch.map RegistrationOperation.id ⊆ ids := by
      intro id hid
      obtain ⟨x, hx, rfl⟩ := List.mem_map.mp hid
      obtain ⟨o, -, hclaimed, rfl⟩ := (hbatch x).mp hx
      exact List.contains_iff_mem.mp hclaimed
    calc
      batch.length = (batch.map RegistrationOperation.id).length := (List.length_map ..).symm
      _ ≤ ids.length := (hids.subperm hsubset).length_le
      _ ≤ R.batchSize.toNat := by
        rw [hselect, List.length_map]
        exact List.length_take_le _ _
  refine Brings.perform (fun w w' hw hwaits => ?_) (fun w hw => ?_) fun w c r w' hw hc hx => ?_
  · obtain ⟨hstart, hclock⟩ := hw
    refine ⟨hstart.trans hwaits, ?_⟩
    obtain ⟨elapsed, -, rfl⟩ := hwaits
    exact hclock.trans (Nat.le_add_right _ _)
  · exact ⟨.go fun _ => false, _, fun _ => rfl, hexec w hw.1⟩
  · cases c with
    | go locked =>
      obtain rfl : locked = fun _ => false := funext hc
      have heq := (hexec w hw.1).symm.trans hx
      cases heq
      obtain ⟨⟨elapsed, hearly, rfl⟩, hclock⟩ := hw
      refine ⟨⟨rfl, rfl⟩, hsince, hclock, hearly, rfl, rfl, rfl, hids, hlength, fun x hx => ?_,
        fun o ho => ?_⟩
      · obtain ⟨o, ho, hid, rfl⟩ := (hbatch x).mp hx
        refine ⟨?_, rfl, rfl, _, rfl, h.lease.trans (Nat.add_le_add_right hsince _)⟩
        show _ ∈ rows
        rw [hrows]
        exact Table.mem_update.mpr ⟨o, ho, .inl ⟨hid, rfl⟩⟩
      · refine ⟨_, (hbatch _).mpr ⟨o, (Table.mem_select ho).1, ?_, rfl⟩, ⟨rfl, rfl, rfl, rfl, rfl⟩,
          rfl⟩
        rw [hselect]
        exact List.contains_iff_mem.mpr (List.mem_map_of_mem ho)
    | fault x => exact hc.elim
    | applied locked x => exact hc.elim
    | _ => cases hx

theorem Staffed.claimDue_must (h : R.Staffed) :
    Brings R.terms R.pid (Waits R.deadline R.start.shared) (claimDue R.cfg R.batchSize)
    (Gives fun claimed w => ∃ claimedAt, R.Batched claimed claimedAt w) := by
  have hstable : R.terms.Stable (Waits R.deadline R.start.shared) :=
    fun _ _ hw hwaits => hw.trans hwaits
  have huuid : Brings R.terms R.pid (Waits R.deadline R.start.shared) (await .uuid)
      (Gives fun _ w => Waits R.deadline R.start.shared w) := by
    obtain ⟨u, hu⟩ := R.supply.plenty R.pid (eventIds R.start.shared)
    refine Brings.perform hstable (fun w _ => ⟨.uuid u, _, hu, rfl⟩) fun w c r w' hw hc hx => ?_
    cases c with
    | uuid u' =>
      cases hx
      exact ⟨⟨rfl, rfl⟩, hw⟩
    | fault x => exact hc.elim
    | applied locked x => exact hc.elim
    | _ => cases hx
  have hnow : Brings R.terms R.pid (Waits R.deadline R.start.shared) (await .now)
      (Gives fun claimedAt w => R.start.shared.clock ≤ claimedAt ∧
        Waits R.deadline R.start.shared w ∧ claimedAt ≤ w.clock) := by
    refine Brings.perform hstable (fun w _ => ⟨.go fun _ => false, _, fun _ => rfl, rfl⟩)
      fun w c r w' hw hc hx => ?_
    cases c with
    | go locked =>
      cases hx
      refine ⟨⟨rfl, rfl⟩, ?_, hw, Nat.le_refl _⟩
      obtain ⟨elapsed, -, rfl⟩ := hw
      exact Nat.le_add_right _ _
    | fault x => exact hc.elim
    | applied locked x => exact hc.elim
    | _ => cases hx
  unfold claimDue
  refine huuid.andThen fun ownerToken => hnow.andThen fun claimedAt => Brings.given fun hsince => ?_
  refine (h.claimBatch_must ownerToken hsince).andThen fun operations => ?_
  exact fun w hw => ⟨claimedAt, hw⟩

end Pass

/-! ## A worker -/

namespace Job

variable {J : Job} {ownerToken : Uuid} {n : Nat}

/-- The task of a worker, under a claim that lasts. -/
structure Tasked (J : Job) (o : RegistrationOperation) (ownerToken : Uuid) (n : Nat)
    (w : RegistrationWorld) : Prop where
  held : J.Held o ownerToken w
  task : w.tasks[n]? = some ⟨o, ownerToken⟩

theorem steady_tasked (hid : o.id = J.operationId) : J.Steady (J.Tasked o ownerToken n) where
  stable w w' h hm := ⟨(steady_held hid).stable w w' h.held hm, by rw [hm.tasks, h.task]⟩
  same w w' h hs := ⟨(steady_held hid).same w w' h.held hs, by rw [hs.tasks, h.task]⟩

/-- **An undisturbed worker reports its operation when it is completed.** -/
theorem processTask_must (hid : o.id = J.operationId)
    (hreports : ∀ db, Enrolled o db → J.reports n db) {passwordHash : String}
    (hhash : o.passwordHash = some passwordHash) :
    J.Must (J.Tasked o ownerToken n) (processTask J.cfg n) fun _ w => w.finished n = true := by
  have hsteady : J.Steady (J.Tasked o ownerToken n) := steady_tasked hid
  have htask : J.Must (J.Tasked o ownerToken n) (await (.task n)) fun t w =>
      t = ⟨o, ownerToken⟩ ∧ J.Tasked o ownerToken n w := by
    have hexec : ∀ w locked, J.Tasked o ownerToken n w →
        RegistrationWorld.exec J.cfg J.pid (.task n) (.go locked) w =
          some (.ok ⟨o, ownerToken⟩, w) := by
      intro w locked h
      simp only [RegistrationWorld.exec, h.task, Option.map_some]
    refine must_quiet hsteady (fun w h => ⟨.go fun _ => false, _, fun _ => rfl, hexec w _ h⟩)
      fun w c r w' h hc hx => ?_
    cases c with
    | go locked =>
      have heq := (hexec w locked h).symm.trans hx
      cases heq
      exact ⟨_, rfl, rfl, rfl, rfl, rfl, rfl⟩
    | fault x => exact hc.elim
    | applied locked x => exact hc.elim
    | _ => cases hx
  have hstable : J.terms.Stable fun w => Enrolled o w.db := fun w w' h hm => h.evolves hm.evolves
  have hreport : J.Must (fun w => Enrolled o w.db) (await (.done n)) fun _ w =>
      w.finished n = true := by
    refine Brings.perform hstable (fun w _ => ⟨.go fun _ => false, _, fun _ => rfl, rfl⟩)
      fun w c r w' h hc hx => ?_
    cases c with
    | go locked =>
      cases hx
      refine ⟨⟨rfl, fun _ hx _ => hx, fun m hm => .inl ⟨m, hm, rfl⟩, rfl, fun k hk => ?_,
        fun k hk => ?_⟩, Function.update_self ..⟩
      · show Function.update w.finished n true k = true
        by_cases heq : k = n
        · rw [heq, Function.update_self]
        · rw [Function.update_of_ne heq, hk]
      · by_cases heq : k = n
        · exact .inr (heq ▸ hreports _ h)
        · exact .inl ((Function.update_of_ne heq _ _).symm.trans hk)
    | fault x => exact hc.elim
    | applied locked x => exact hc.elim
    | _ => cases hx
  unfold processTask
  refine htask.andThen fun t => Brings.given ?_
  rintro rfl
  have hresume : J.Must (J.Tasked o ownerToken n) (resumeExecute J.cfg o ownerToken)
      fun result w => result = completedResult o.id o.userId ∧ Enrolled o w.db :=
    fun w h => resume_must hid hhash w h.held
  refine hresume.attempt fun result => ?_
  exact fun w h => hreport w h.2

/-- What one process does is nothing to another that works on another
operation. -/
theorem Keeps.meanwhile {J' : Job} (h : J.Keeps w w') (hid : J'.operationId ≠ J.operationId)
    (hsupply : J'.supply = J.supply) (hapart : J.supply.Apart) (hpid : J'.pid ≠ J.pid)
    (haccounts : Accounts J'.cfg.hasher J'.issued w'.db) (hevolves : Evolves w.db w'.db) :
    J'.Meanwhile w w' where
  clock := h.clock.ge
  early he := by rwa [h.clock]
  accounts _ := haccounts
  evolves := hevolves
  row o ho hown := h.others o ho (hown ▸ hid)
  outbox m hm hown := by
    refine (h.outbox m hm).resolve_right fun hmine => hpid ?_
    rw [hsupply] at hown
    exact hapart _ _ _ hown hmine
  tasks := h.tasks
  finished := h.still

end Job

/-! ## A pass and its workers -/

/-- The pass has returned, and what was due when it claimed is completed. -/
def Reconciled (i : Nat) (batchSize : Int) (w₀ : RegistrationWorld)
    (C : Config registrationSig Exn RegistrationWorld RegistrationAnswer) : Prop :=
  ∃ n claimedAt, C.pool i = some (.ret (.processed n)) ∧ w₀.clock ≤ claimedAt ∧
    claimedAt ≤ C.shared.clock ∧
    ∀ o ∈ dueIn { w₀ with clock := claimedAt } batchSize, Enrolled o C.shared.db

namespace Pass

variable {R : Pass} {claimed : Uuid × List RegistrationOperation} {claimedAt : Time} {j k : Nat}
  {x y : RegistrationOperation}

theorem processTask_inj {n n' : Nat}
    (h : RegistrationCallee.program cfg (.processTask n) =
      RegistrationCallee.program cfg (.processTask n')) : n = n' := by
  have hop : RegistrationEff.task n = RegistrationEff.task n' := (Prog.op.inj h).1
  exact RegistrationEff.task.inj hop

theorem Staffed.pass_eq (h : R.Staffed) : R.start.pool R.pid =
    some ((claimDue R.cfg R.batchSize).bind fun claimed => (gather claimed).bind fun n =>
      .ret (.processed n)) := by
  have hprogram : RegistrationCallee.program R.cfg (.runOnce R.batchSize) =
      (runOnce R.cfg R.batchSize).bind fun n => .ret (.processed n) := rfl
  rw [h.pass, hprogram, runOnce_eq h.size, Prog.bind_assoc]

/-- Everyone is another process. -/
theorem Staffed.other (h : R.Staffed) (hj : j < R.batchSize.toNat) : R.worker j ≠ R.pid := by
  intro heq
  have hprogram := h.worker j hj
  rw [heq, h.pass_eq] at hprogram
  cases (Prog.op.inj (Option.some.inj hprogram)).1

theorem Staffed.apart (h : R.Staffed) (hj : j < R.batchSize.toNat) (hk : k < R.batchSize.toNat)
    (heq : R.worker j = R.worker k) : j = k := by
  have hprogram := h.worker j hj
  rw [heq, h.worker k hk] at hprogram
  exact (Nat.add_left_cancel (processTask_inj (Option.some.inj hprogram))).symm

/-- Every task is another operation. -/
theorem Batched.apart (h : R.Batched claimed claimedAt w) (hx : claimed.2[j]? = some x)
    (hy : claimed.2[k]? = some y) (hid : x.id = y.id) : j = k := by
  have hxid : (claimed.2.map RegistrationOperation.id)[j]? = some x.id := by
    rw [List.getElem?_map, hx]
    rfl
  have hyid : (claimed.2.map RegistrationOperation.id)[k]? = some x.id := by
    rw [List.getElem?_map, hy, hid]
    rfl
  obtain ⟨hj, hjid⟩ := List.getElem?_eq_some_iff.mp hxid
  obtain ⟨hk, hkid⟩ := List.getElem?_eq_some_iff.mp hyid
  exact h.ids.getElem_inj_iff.mp (hjid.trans hkid.symm)

theorem Batched.place (h : R.Batched claimed claimedAt w) (hx : claimed.2[j]? = some x) :
    j < R.batchSize.toNat :=
  Nat.lt_of_lt_of_le (List.getElem?_eq_some_iff.mp hx).1 h.length

/-- The job of the worker with task `j`. -/
def job (R : Pass) (j : Nat) (x : RegistrationOperation) : Job :=
  ⟨R.cfg, Issued R.callees, R.supply, eventIds R.start.shared, R.deadline, R.worker j, x.id,
    fun n db => n = R.first + j ∧ Enrolled x db⟩

/-- The pass between its tasks and their end. -/
def joining (n : Nat) (first : Nat) : Registration RegistrationAnswer :=
  ((await (.join first n)).bind fun _ => .ret n).bind fun n => .ret (.processed n)

/-- The workers are at work on what was claimed, and the pass waits for
them. -/
structure Working (R : Pass) (claimed : Uuid × List RegistrationOperation) (claimedAt : Time)
    (C : Config registrationSig Exn RegistrationWorld RegistrationAnswer) : Prop where
  reach : RegistrationReach R.cfg (registrationStart R.cfg R.clock R.callees) C
  batched : ∃ w, R.Batched claimed claimedAt w
  early : C.shared.clock < R.deadline
  since : claimedAt ≤ C.shared.clock
  tasks : C.shared.tasks.length = R.first + claimed.2.length
  waits : C.pool R.pid = some (joining claimed.2.length R.first)
  busy : ∀ j x, claimed.2[j]? = some x → ∃ p, C.pool (R.worker j) = some p ∧
    Surely (R.job j x).terms (R.worker j) (Gives fun _ w => w.finished (R.first + j) = true) p
      C.shared
  reported : ∀ j x, claimed.2[j]? = some x → C.shared.finished (R.first + j) = true →
    Enrolled x C.shared.db
  spare : ∀ j, claimed.2.length ≤ j → j < R.batchSize.toNat → C.pool (R.worker j) =
    some (RegistrationCallee.program R.cfg (.processTask (R.first + j)))

/-- The pass has ended in time. -/
def Over (R : Pass) (C : Config registrationSig Exn RegistrationWorld RegistrationAnswer) : Prop :=
  Reconciled R.pid R.batchSize R.start.shared C ∧ C.shared.clock < R.deadline

/-- Until everyone has reported, somebody can go on. -/
theorem Working.goes (h : R.Working claimed claimedAt C) : ∃ C', R.runs.Step C C' := by
  obtain ⟨_, hbatched⟩ := h.batched
  have hnow : Waits R.deadline C.shared C.shared := waits_now h.early
  by_cases hall : ∀ j x, claimed.2[j]? = some x →
      C.shared.finished (R.first + j) = true
  · have hjoin : (List.range claimed.2.length).all
        (fun k => C.shared.finished (R.first + k)) = true := by
      refine List.all_eq_true.mpr fun k hk => ?_
      exact hall k _ (List.getElem?_eq_getElem (List.mem_range.mp hk))
    have hexec : RegistrationWorld.exec R.cfg R.pid
        (.join R.first claimed.2.length) (.go fun _ => false) C.shared =
        some (.ok (), C.shared) := by
      simp only [RegistrationWorld.exec, hjoin]
      rfl
    exact ⟨_, R.pid, .go fun _ => false, _, _, C.shared, _, C.shared, .inl rfl, fun _ => rfl,
      h.waits, hnow, hexec, rfl⟩
  · simp only [not_forall] at hall
    obtain ⟨j, x, hx, hopen⟩ := hall
    obtain ⟨p, hp, hsurely⟩ := h.busy j x hx
    cases p with
    | ret a => exact absurd hsurely hopen
    | throw e => exact hsurely.elim
    | op e f =>
      obtain ⟨⟨c, ⟨r, w'⟩, hc, hexec⟩, -⟩ := hsurely C.shared (.of_waits hnow)
      exact ⟨_, R.worker j, c, e, f, C.shared, r, w', .inr ⟨j, hbatched.place hx, rfl⟩, hc, hp,
        hnow, hexec, rfl⟩

/-- What a worker does keeps the others at work. -/
theorem Working.advance (h : R.Working claimed claimedAt C) (hstaffed : R.Staffed)
    (hx : claimed.2[j]? = some x)
    {e : RegistrationEff} {f : Except Exn e.Resp → Registration RegistrationAnswer}
    {c : RegistrationChoice} {r : Except Exn e.Resp} (hp : C.pool (R.worker j) = some (.op e f))
    (hc : Favourable R.supply (eventIds R.start.shared) (R.worker j) c)
    (hwaits : Waits R.deadline C.shared w)
    (hexec : RegistrationWorld.exec R.cfg (R.worker j) e c w = some (r, w')) :
    R.Working claimed claimedAt ⟨w', Function.update C.pool (R.worker j) (some (f r))⟩ := by
  obtain ⟨_, hbatched⟩ := h.batched
  have hstep : R.runs.Step C ⟨w', Function.update C.pool (R.worker j) (some (f r))⟩ :=
    ⟨_, c, e, f, w, r, w', .inr ⟨j, hbatched.place hx, rfl⟩, hc, hp, hwaits, hexec, rfl⟩
  have hreach' := calm_step hstep
  have hreach := h.reach.trans hreach'
  -- its own outline says what it has done
  obtain ⟨p, hp', hsurely⟩ := h.busy j x hx
  obtain rfl : p = .op e f := Option.some.inj (hp'.symm.trans hp)
  have hmeanwhile : (R.job j x).Meanwhile C.shared w := .of_waits hwaits
  obtain ⟨hkeeps, hrest⟩ := (hsurely w hmeanwhile).2 c r w' hc hexec
  have haccounts := (registration_good hreach).inv.accounts
  have hevolves : Evolves C.shared.db w'.db := (registration_progress h.reach hreach').db
  have hdb : w.db = C.shared.db := by
    obtain ⟨elapsed, -, rfl⟩ := hwaits
    rfl
  have hclock : C.shared.clock ≤ w'.clock := hmeanwhile.clock.trans hkeeps.clock.ge
  refine ⟨hreach, h.batched, ?_, h.since.trans hclock, ?_, ?_, fun k y hy => ?_,
    fun k y hy hfinished => ?_, fun k hk hbatch => ?_⟩
  · show w'.clock < R.deadline
    rw [hkeeps.clock]
    exact hmeanwhile.early h.early
  · show w'.tasks.length = _
    rw [hkeeps.tasks, hmeanwhile.tasks, h.tasks]
  · exact (Function.update_of_ne (hstaffed.other (hbatched.place hx)).symm _ _).trans h.waits
  · by_cases hkj : k = j
    · subst hkj
      obtain rfl : x = y := Option.some.inj (hx.symm.trans hy)
      exact ⟨_, Function.update_self .., hrest⟩
    · obtain ⟨q, hq, hother⟩ := h.busy k y hy
      have hne : R.worker k ≠ R.worker j := fun heq =>
        hkj (hstaffed.apart (hbatched.place hy) (hbatched.place hx) heq)
      refine ⟨q, (Function.update_of_ne hne _ _).trans hq, ?_⟩
      have hothers : (R.job k y).Meanwhile w w' :=
        hkeeps.meanwhile (fun hid => hkj (hbatched.apart hy hx hid)) rfl hstaffed.supply hne
          haccounts (hdb ▸ hevolves)
      refine hother.meanwhile (fun _ _ _ hm hm' => hm.trans hm') (fun r => ?_)
        (Job.Meanwhile.trans (.of_waits hwaits) hothers)
      cases r with
      | ok a => exact fun _ _ hdone hm => hm.finished _ hdone
      | error e => exact fun _ _ hdone _ => hdone
  · rcases hkeeps.reported _ hfinished with hbefore | ⟨hkj, henrolled⟩
    · obtain ⟨elapsed, -, rfl⟩ := hwaits
      exact (h.reported k y hy hbefore).evolves hevolves
    · obtain rfl : k = j := Nat.add_left_cancel hkj
      obtain rfl : x = y := Option.some.inj (hx.symm.trans hy)
      exact henrolled
  · refine (Function.update_of_ne (fun heq => ?_) _ _).trans (h.spare k hk hbatch)
    have hkj := hstaffed.apart hbatch (hbatched.place hx) heq
    have hj := (List.getElem?_eq_some_iff.mp hx).1
    omega

/-- A step of a run keeps them at work, or the pass is over. -/
theorem Working.step (h : R.Working claimed claimedAt C) (hstaffed : R.Staffed)
    {C' : Config registrationSig Exn RegistrationWorld RegistrationAnswer}
    (hstep : R.runs.Step C C') : R.Over C' ∨ R.Working claimed claimedAt C' := by
  obtain ⟨_, hbatched⟩ := h.batched
  obtain ⟨m, c, e, f, w, r, w', hm, hc, hp, hwaits, hexec, rfl⟩ := hstep
  rcases hm with rfl | ⟨j, hj, rfl⟩
  · -- the pass goes on when all have reported
    have hop := Option.some.inj (h.waits.symm.trans hp)
    cases hop
    obtain ⟨elapsed, hearly, rfl⟩ := hwaits
    cases c with
    | go locked =>
      have hjoin : (if (List.range claimed.2.length).all
          (fun k => C.shared.finished (R.first + k)) then
          some (.ok (), { C.shared with clock := C.shared.clock + elapsed }) else none) =
          some (r, w') := hexec
      split at hjoin
      · rename_i hall
        cases hjoin
        refine .inl ⟨⟨claimed.2.length, claimedAt, Function.update_self .., hbatched.since,
          h.since.trans (Nat.le_add_right _ _), fun o ho => ?_⟩, hearly⟩
        obtain ⟨x, hx, hsame⟩ := hbatched.due o ho
        obtain ⟨j, hj⟩ := List.mem_iff_getElem?.mp hx
        have hfinished := List.all_eq_true.mp hall j
          (List.mem_range.mpr (List.getElem?_eq_some_iff.mp hj).1)
        exact hsame.enrolled (h.reported j x hj hfinished)
      · cases hjoin
    | fault x => exact hc.elim
    | applied locked x => exact hc.elim
    | _ => cases hexec
  · by_cases hbatch : claimed.2.length ≤ j
    · -- there is no task for a spare worker
      have hop := Option.some.inj ((h.spare j hbatch hj).symm.trans hp)
      cases hop
      obtain ⟨elapsed, -, rfl⟩ := hwaits
      cases c with
      | go locked =>
        have hnone : C.shared.tasks[R.first + j]? = none := by
          refine List.getElem?_eq_none ?_
          rw [h.tasks]
          exact Nat.add_le_add_left hbatch _
        have htask : C.shared.tasks[R.first + j]?.map (fun t =>
            ((.ok t : Except Exn RegistrationTask),
              { C.shared with clock := C.shared.clock + elapsed })) = some (r, w') := hexec
        rw [hnone] at htask
        cases htask
      | fault x => exact hc.elim
      | applied locked x => exact hc.elim
      | _ => cases hexec
    · obtain ⟨x, hx⟩ : ∃ x, claimed.2[j]? = some x :=
        ⟨_, List.getElem?_eq_getElem (Nat.lt_of_not_le hbatch)⟩
      exact .inr (h.advance hstaffed hx hp hc hwaits hexec)

/-- **However the workers are interleaved, the pass completes its batch.** -/
theorem Working.inevitable (h : R.Working claimed claimedAt C) (hstaffed : R.Staffed) :
    Inevitable R.runs.Step R.Over C := by
  refine inevitable_of_invariant (I := R.Working claimed claimedAt) (fun C h => ?_) ?_ h
  · exact .inr ⟨h.goes, fun C' hs => h.step hstaffed hs⟩
  · refine Calm.step_acc
      (J := Insert.insert R.pid ((Finset.range R.batchSize.toNat).image R.worker))
      (fun j hj => ?_) C
    rcases hj with rfl | ⟨n, hn, rfl⟩
    · exact Finset.mem_insert_self _ _
    · exact Finset.mem_insert_of_mem (Finset.mem_image_of_mem _ (Finset.mem_range.mpr hn))

/-- The workers begin when the tasks are there. -/
theorem Batched.working (h : R.Staffed) (hbatched : R.Batched claimed claimedAt w)
    (htasks : C.shared.tasks = w.tasks ++ claimed.2.map fun o => ⟨o, claimed.1⟩)
    (hfinished : C.shared.finished = w.finished) (hdb : C.shared.db = w.db)
    (hclock : w.clock ≤ C.shared.clock) (hearly : C.shared.clock < R.deadline)
    (hreach : RegistrationReach R.cfg (registrationStart R.cfg R.clock R.callees) C)
    (hwaits : C.pool R.pid = some (joining claimed.2.length R.first))
    (hothers : ∀ j, j ≠ R.pid → C.pool j = R.start.pool j) : R.Working claimed claimedAt C := by
  have hacc := (registration_good hreach).inv.accounts
  have hworker : ∀ j, j < R.batchSize.toNat → C.pool (R.worker j) =
      some (RegistrationCallee.program R.cfg (.processTask (R.first + j))) :=
    fun j hj => (hothers _ (h.other hj)).trans (h.worker j hj)
  refine ⟨hreach, ⟨w, hbatched⟩, hearly, hbatched.clock.trans hclock, ?_, hwaits, fun j x hx => ?_,
    fun j x hx hreported => ?_, fun j _ hj => hworker j hj⟩
  · rw [htasks, hbatched.tasks, List.length_append, List.length_map, first]
  · obtain ⟨hrow, hs, htoken, hlease⟩ := hbatched.row x (List.mem_of_getElem? hx)
    rw [← hdb] at hrow
    obtain ⟨passwordHash, hhash⟩ : ∃ p, x.passwordHash = some p := by
      refine Option.ne_none_iff_exists'.mp fun hnone => ?_
      have hcompleted := (hacc.passwordHash_none hrow).mp hnone
      rw [hs] at hcompleted
      cases hcompleted
    have hheld : (R.job j x).Held x claimed.1 C.shared := by
      refine ⟨hacc, hrow, hs, htoken, hlease, hearly, fun m hm _ => ?_⟩
      rw [hdb, hbatched.outbox] at hm
      exact List.mem_map_of_mem hm
    have htask : C.shared.tasks[R.first + j]? = some ⟨x, claimed.1⟩ := by
      rw [htasks, hbatched.tasks, first, List.getElem?_append_right (Nat.le_add_right _ _),
        Nat.add_sub_cancel_left, List.getElem?_map, hx]
      rfl
    have hmust := Job.processTask_must (J := R.job j x) (n := R.first + j) rfl
      (fun db hdb => ⟨rfl, hdb⟩) hhash C.shared ⟨hheld, htask⟩
    exact ⟨_, hworker j (hbatched.place hx), hmust.bind (fun _ _ hdone => hdone)
      fun _ _ hx => hx.elim⟩
  · -- nobody has reported a task that was not there
    rw [hfinished, hbatched.finished] at hreported
    have hlt := reported_spawned h.reach hreported
    rw [first] at hlt
    omega

/-- Until there are tasks, no worker can go on. -/
theorem Staffed.blocked (h : R.Staffed) {e : RegistrationEff}
    {f : Except Exn e.Resp → Registration RegistrationAnswer} {c : RegistrationChoice}
    (hj : R.Moves j) (hne : j ≠ R.pid) (hpool : C.pool j = R.start.pool j)
    (hp : C.pool j = some (.op e f)) (hc : Favourable R.supply (eventIds R.start.shared) j c)
    (htasks : w.tasks.length = R.first) : RegistrationWorld.exec R.cfg j e c w = none := by
  obtain ⟨n, hn, rfl⟩ := hj.resolve_left hne
  have hop := Option.some.inj ((h.worker n hn).symm.trans (hpool.symm.trans hp))
  cases hop
  cases c with
  | go locked =>
    have hnone : w.tasks[R.first + n]? = none :=
      List.getElem?_eq_none (htasks ▸ Nat.le_add_right _ _)
    simp only [RegistrationWorld.exec, hnone]
    rfl
  | fault x => exact hc.elim
  | applied locked x => exact hc.elim
  | _ => rfl

/-- With its batch in hand, the pass completes it. -/
theorem Batched.inevitable (h : R.Staffed) (hbatched : R.Batched claimed claimedAt C.shared)
    (hreach : RegistrationReach R.cfg R.start C)
    (hpool : C.pool R.pid = some ((gather claimed).bind fun n => .ret (.processed n)))
    (hothers : ∀ j, j ≠ R.pid → C.pool j = R.start.pool j) :
    Inevitable R.runs.Step R.Over C := by
  cases hempty : claimed.2.isEmpty with
  | true =>
    simp only [gather, hempty] at hpool
    refine .now ⟨⟨0, claimedAt, hpool, hbatched.since, hbatched.clock, fun o ho => ?_⟩,
      hbatched.early⟩
    obtain ⟨x, hx, -⟩ := hbatched.due o ho
    rw [List.isEmpty_iff.mp hempty] at hx
    cases hx
  | false =>
    have hspawn : C.pool R.pid = some (((await (.spawn (claimed.2.map fun o =>
        ⟨o, claimed.1⟩))).bind fun first => (await (.join first claimed.2.length)).bind fun _ =>
        .ret claimed.2.length).bind fun n => .ret (.processed n)) := by
      simp only [gather, hempty] at hpool
      exact hpool
    have hstep : ∀ C', R.runs.Step C C' → R.Working claimed claimedAt C' := by
      rintro C' hs
      have hreach' := (h.reach.trans hreach).trans (calm_step hs)
      obtain ⟨j, c, e, f, w, r, w', hj, hc, hp, ⟨elapsed, hearly, rfl⟩, hexec, rfl⟩ := hs
      by_cases hjp : j = R.pid
      · subst hjp
        have hop := Option.some.inj (hspawn.symm.trans hp)
        cases hop
        cases c with
        | go locked =>
          cases hexec
          refine hbatched.working h rfl rfl rfl (Nat.le_add_right _ _) hearly hreach' ?_
            fun j hne => (Function.update_of_ne hne _ _).trans (hothers j hne)
          rw [first, ← hbatched.tasks]
          exact Function.update_self ..
        | fault x => exact hc.elim
        | applied locked x => exact hc.elim
        | _ => cases hexec
      · have htasks : ({ C.shared with clock := C.shared.clock + elapsed } :
            RegistrationWorld).tasks.length = R.first := by
          rw [first, ← hbatched.tasks]
        have hnone := h.blocked hj hjp (hothers j hjp) hp hc htasks
        cases hnone.symm.trans hexec
    refine .later ?_ fun C' hs => (hstep C' hs).inevitable h
    exact ⟨_, R.pid, .go fun _ => false, _, _, C.shared, _, _, .inl rfl, fun _ => rfl, hspawn,
      waits_now hbatched.early, rfl, rfl⟩

/-- **However a pass and its workers are interleaved, they complete what it
selects.** -/
theorem Staffed.inevitable (h : R.Staffed) :
    Inevitable R.runs.Step R.Over R.start := by
  have hclaims := h.claimDue_must R.start.shared (waits_now h.early)
  have hrun := hclaims.inevitable (K := R.runs)
    (B := fun w => w.clock < R.deadline ∧ w.tasks.length = R.first) h.pass_eq (.inl rfl)
    (fun _ => Iff.rfl) ⟨h.early, rfl⟩ (fun _ hw => waits_now hw.1) (fun w w' hw hwaits => ?_)
    (fun w w' hw hown => ?_) ?_
  · refine hrun.reached.trans ?_
    rintro C ⟨⟨⟨r, hr, hpool⟩, -, hothers⟩, hsteps⟩
    cases r with
    | error x => exact hr.elim
    | ok claimed =>
      obtain ⟨claimedAt, hbatched⟩ := hr
      exact hbatched.inevitable h (calm_reach hsteps) hpool hothers
  · refine ⟨?_, hwaits⟩
    obtain ⟨elapsed, hearly, rfl⟩ := hwaits
    exact ⟨hearly, hw.2⟩
  · rw [hown.clock, hown.tasks]
    exact hw
  · exact fun j e f c w hj hne hp hc hw => h.blocked hj hne rfl hp hc hw.2

end Pass

/-- **One pass of the reconciler completes what is due longest**, with
nobody asking for it: however the pass and its workers are interleaved and
however time passes short of the lease, if nothing else disturbs them the
pass returns, and the operations it has selected are completed and have their
accounts. With the clock standing still, those are the ones due at the
start. -/
theorem reconciler_recovers (cfg : RegistrationConfig) (hlease : 0 < cfg.claimLease)
    (clock : Time) (callees : Nat → Option RegistrationCallee)
    (C : Config registrationSig Exn RegistrationWorld RegistrationAnswer)
    (h : RegistrationReach cfg (registrationStart cfg clock callees) C)
    (i : Nat) (batchSize : Int) (hpos : 0 < batchSize)
    (hi : C.pool i = some (RegistrationCallee.program cfg (.runOnce batchSize)))
    (workers : Nat → Nat) (hworkers : ∀ n, n < batchSize.toNat →
      C.pool (workers (C.shared.tasks.length + n)) =
        some (RegistrationCallee.program cfg (.processTask (C.shared.tasks.length + n)))) :
    (∀ supply : UuidSupply, supply.Apart → Inevitable (calm cfg supply
      (fun j => j = i ∨ ∃ n < batchSize.toNat, j = workers (C.shared.tasks.length + n)) C.shared
      (C.shared.clock + cfg.claimLease)).Step (Reconciled i batchSize C.shared) C) ∧
    ∃ C', RegistrationReach cfg C C' ∧ (∃ n, C'.pool i = some (.ret (.processed n))) ∧
      ∀ o ∈ dueIn C.shared batchSize, Enrolled o C'.shared.db := by
  -- in time, whatever the deadline
  have hall : ∀ supply : UuidSupply, supply.Apart → ∀ deadline, C.shared.clock < deadline →
      deadline ≤ C.shared.clock + cfg.claimLease → Inevitable (calm cfg supply
        (fun j => j = i ∨ ∃ n < batchSize.toNat, j = workers (C.shared.tasks.length + n)) C.shared
        deadline).Step (fun C' => Reconciled i batchSize C.shared C' ∧ C'.shared.clock < deadline)
        C := by
    intro supply hsupply deadline hearly hle
    let R : Pass := ⟨cfg, clock, callees, supply, C, deadline, i, workers, batchSize⟩
    have hstaffed : R.Staffed := ⟨h, hsupply, hearly, hle, hpos, hi, hworkers⟩
    exact hstaffed.inevitable
  refine ⟨fun supply hsupply => ?_, ?_⟩
  · exact (hall supply hsupply _ (Nat.lt_add_of_pos_right hlease) (Nat.le_refl _)).mono
      fun _ hdone => hdone.1
  -- a run that takes no time
  · obtain ⟨C', hrun, ⟨n, claimedAt, hreturns, hsince, hclaimed, henrolled⟩, hearly⟩ :=
      (hall .paired UuidSupply.paired_apart (C.shared.clock + 1) (Nat.lt_succ_self _)
        (Nat.add_le_add_left hlease _)).reaches
    obtain rfl : C.shared.clock = claimedAt :=
      Nat.le_antisymm hsince (hclaimed.trans (Nat.le_of_lt_succ hearly))
    exact ⟨C', calm_reach hrun, ⟨n, hreturns⟩, henrolled⟩

namespace Sample

/-- A caller, a pass over one operation, and the worker of its task. -/
def reconciling : Nat → Option RegistrationCallee
  | 0 => some (.register command)
  | 1 => some (.runOnce 1)
  | 2 => some (.processTask 0)
  | _ => none

/-- Nobody retries the abandoned operation until its claim has expired. -/
def forgotten : List (registrationMachine registration).Label :=
  abandoned ++ [.env (.tick 30)]

end Sample

open Sample in
theorem reconciler_recovers_forgotten :
    ∃ C : Config registrationSig Exn RegistrationWorld RegistrationAnswer,
      (registrationMachine registration).run anyStep
        (registrationStart registration 5 reconciling) forgotten = some C ∧
      C.pool 0 = none ∧ dueIn C.shared 1 = [abandonedRow] ∧
      Inevitable (calm registration .paired
        (fun j => j = 1 ∨ ∃ n < (1 : Int).toNat, j = C.shared.tasks.length + n + 2) C.shared
        (C.shared.clock + 30)).Step (Reconciled 1 1 C.shared) C ∧
      ∃ C', RegistrationReach registration C C' ∧ (∃ n, C'.pool 1 = some (.ret (.processed n))) ∧
        Enrolled abandonedRow C'.shared.db := by
  obtain ⟨C, hrun, hnone, hdue, hpass, htasks, hworker⟩ :
      ∃ C : Config registrationSig Exn RegistrationWorld RegistrationAnswer,
        (registrationMachine registration).run anyStep
          (registrationStart registration 5 reconciling) forgotten = some C ∧
        C.pool 0 = none ∧ dueIn C.shared 1 = [abandonedRow] ∧
        C.pool 1 = some (RegistrationCallee.program registration (.runOnce 1)) ∧
        C.shared.tasks.length = 0 ∧
        C.pool 2 = some (RegistrationCallee.program registration (.processTask 0)) := by
    refine ⟨_, by with_unfolding_all rfl, rfl, by with_unfolding_all rfl, rfl, rfl, rfl⟩
  have hany : ∀ w w', anyStep w w' = true → True := fun _ _ _ => trivial
  have hreach := Machine.reach_of_run _ hany forgotten _ _ hrun
  obtain ⟨hinevitable, C', hreach', hreturns, henrolled⟩ := reconciler_recovers registration
    (by decide) 5 reconciling C hreach 1 1 (by decide) hpass (fun n => n + 2) fun n hn => by
      obtain rfl : n = 0 := by omega
      rw [htasks]
      exact hworker
  exact ⟨C, hrun, hnone, hdue, hinevitable .paired UuidSupply.paired_apart, C', hreach', hreturns,
    henrolled abandonedRow (by simp [hdue])⟩

end IdentityService
