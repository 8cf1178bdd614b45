import IdentityService.Registration.Claims
import IdentityService.Registration.Provisioner

/-!
# The profile comes before the account

No account is created for a user whose profile the Profile service has not
accepted, under the very claim that creates the account; all calls for one
operation are the same call; and none is made inside a unit of work.
-/

namespace IdentityService

open Concurrent

/-- A moment of a recorded run of the system with its HTTP client. -/
abbrev WiredRun :=
  Config registrationSig Exn (Traced registrationSig Exn WiredWorld) RegistrationAnswer

/-- Any number of processes on an empty database. -/
def wiredStart (cfg : RegistrationConfig) (clock : Time)
    (callees : Nat → Option RegistrationCallee) : WiredRun :=
  ⟨⟨⟨.start clock, []⟩, []⟩, fun i => (callees i).map (RegistrationCallee.program cfg)⟩

abbrev WiredReach (cfg : RegistrationConfig) (p : HTTPProfileProvisioner) :
    WiredRun → WiredRun → Prop :=
  (wiredMachine cfg p).traced.Reach fun _ _ => True

/-- The operation process `i` was last given to work on, and its claim
token. -/
def workingOn (trace : List (Event registrationSig Exn)) (i : Nat) : Option RegistrationTask :=
  trace.foldl (fun claim e =>
    if e.pid = i then (RegistrationEff.obtained e.op e.resp).or claim else claim) none

/-- Process `i` has a unit of work open. -/
def inUnit (trace : List (Event registrationSig Exn)) (i : Nat) : Bool :=
  trace.foldl (fun inUnit e =>
    if e.pid = i then RegistrationEff.unitOpen e.op e.resp inUnit else inUnit) false

/-- Process `i` is in a call of `create_profile`: it has made it, and the
call has not ended. -/
def Calling (C : WiredRun) (i : Nat) (userId : Uuid) (registeredAt : Time) : Prop :=
  ∃ k, C.pool i = some (.op (.createProfile userId registeredAt) k)

/-- The Profile service answered 204 to process `i`'s PUT of this profile. -/
def Accepted (p : HTTPProfileProvisioner) (C : WiredRun) (i : Nat) (userId : Uuid)
    (registeredAt : Time) : Prop :=
  ∃ response : HttpResponse, response.statusCode = 204 ∧
    ⟨i, .put (profilePath userId) (p.payload registeredAt), .ok response⟩ ∈
      C.shared.state.exchanges

/-- The step by which the account of `u` appears: process `i` finalizes the
operation of `task`, whose row carries its token. -/
def Finalizes (cfg : RegistrationConfig) (p : HTTPProfileProvisioner) (C : WiredRun)
    (l : (wiredMachine cfg p).traced.Label) (i : Nat) (task : RegistrationTask) (u : User) : Prop :=
  (∃ c completedAt eventId correlationId k, l = .act i c ∧
    C.pool i = some (.op (.tx (.finalize task.operation.id task.ownerToken completedAt u eventId
      correlationId)) k)) ∧
  ∃ row ∈ C.shared.state.world.db.operations, row.id = task.operation.id ∧
    row.status = .claimed ∧ row.claimToken = some task.ownerToken

/-! ## From the flow to the record -/

section Record

variable (cfg : RegistrationConfig) {trace : List (Event registrationSig Exn)} {i : Nat}

theorem workingOn_eq : workingOn trace i = ((registrationFlow cfg).after trace i).claim := by
  induction trace using List.reverseRecOn with
  | nil => rfl
  | append_singleton trace e ih =>
    by_cases hi : i = e.pid
    · subst hi
      rw [Flow.after_append_self]
      simp only [workingOn, List.foldl_append, List.foldl_cons, List.foldl_nil, if_true]
      exact congrArg _ ih
    · rw [Flow.after_append_ne trace hi, ← ih]
      simp [workingOn, Ne.symm hi]

theorem inUnit_eq : inUnit trace i = ((registrationFlow cfg).after trace i).inUnit := by
  induction trace using List.reverseRecOn with
  | nil => rfl
  | append_singleton trace e ih =>
    by_cases hi : i = e.pid
    · subst hi
      rw [Flow.after_append_self]
      simp only [inUnit, List.foldl_append, List.foldl_cons, List.foldl_nil, if_true]
      exact congrArg _ ih
    · rw [Flow.after_append_ne trace hi, ← ih]
      simp [inUnit, Ne.symm hi]

variable {cfg}

/-- Only a Profile call that returned leaves its mark, and the claim has not
changed since. -/
theorem profiled_after {userId : Uuid} {registeredAt : Time}
    (h : ((registrationFlow cfg).after trace i).profiled = some (userId, registeredAt)) :
    ∃ pre post, trace = pre ++ ⟨i, .createProfile userId registeredAt, .ok ()⟩ :: post ∧
      workingOn pre i = workingOn trace i := by
  induction trace using List.reverseRecOn with
  | nil => cases h
  | append_singleton trace e ih =>
    have hold : ((registrationFlow cfg).after trace i).profiled = some (userId, registeredAt) →
        workingOn (trace ++ [e]) i = workingOn trace i → ∃ pre post,
        trace ++ [e] = pre ++ ⟨i, .createProfile userId registeredAt, .ok ()⟩ :: post ∧
          workingOn pre i = workingOn (trace ++ [e]) i := by
      intro hl hsame
      obtain ⟨pre, post, rfl, hclaim⟩ := ih hl
      exact ⟨pre, post ++ [e], by simp, by rw [hsame, hclaim]⟩
    by_cases hi : i = e.pid
    · subst hi
      have hclaim : workingOn (trace ++ [e]) e.pid =
          (RegistrationEff.obtained e.op e.resp).or (workingOn trace e.pid) := by
        simp [workingOn]
      rw [Flow.after_append_self] at h
      obtain ⟨pid, op, resp⟩ := e
      simp only [registrationFlow, RegistrationLocal.next] at h
      cases hreturned : RegistrationEff.profileReturned op resp with
      | some pair =>
        cases op with
        | createProfile u a =>
          cases resp with
          | error x => cases hreturned
          | ok _ =>
            cases hreturned
            cases h
            exact ⟨trace, [], rfl, hclaim.symm⟩
        | _ => cases hreturned
      | none =>
        rw [hreturned] at h
        cases hobtained : RegistrationEff.obtained op resp with
        | some task =>
          rw [hobtained] at h
          cases h
        | none =>
          rw [hobtained] at h
          refine hold h ?_
          rw [hclaim]
          simp only [hobtained, Option.none_or]
    · refine hold (by rwa [Flow.after_append_ne trace hi] at h) ?_
      simp [workingOn, Ne.symm hi]

end Record

/-! ## Accounts -/

/-- An account appears by a finalization of a claimed row, and in no other
way. -/
theorem exec_new_user {cfg : RegistrationConfig} {i : Nat} {e : RegistrationEff}
    {c : RegistrationChoice} {w w' : RegistrationWorld} {r : Except Exn e.Resp} {u : User}
    (h : RegistrationWorld.exec cfg i e c w = some (r, w')) (hu : u ∈ w'.db.users)
    (hnew : u ∉ w.db.users) :
    ∃ operationId ownerToken completedAt eventId correlationId,
      e = .tx (.finalize operationId ownerToken completedAt u eventId correlationId) ∧
      ∃ row ∈ w.db.operations, row.ownedBy operationId ownerToken completedAt = true := by
  cases e with
  | tx t =>
    have hbody : ∃ locked a db, t.body cfg.format locked w.db = .ok (a, db) ∧ u ∈ db.users := by
      rcases exec_tx h with ⟨locked, a, db, hb, -, rfl⟩ | ⟨locked, a, db, x, hb, -, -, rfl⟩ |
        ⟨locked, x, -, -, rfl⟩ | ⟨locked, x, y, -, -, -, rfl⟩ | ⟨x, -, -, rfl⟩
      · exact ⟨locked, a, db, hb, hu⟩
      · exact ⟨locked, a, db, hb, hu⟩
      · exact absurd hu hnew
      · exact absurd hu hnew
      · exact absurd hu hnew
    obtain ⟨locked, a, db, hb, hmem⟩ := hbody
    cases t with
    | finalize operationId ownerToken completedAt user eventId correlationId =>
      rcases RegistrationTx.finalizeBody_cases hb with ⟨x, -, hx⟩ | ⟨rows, -, hx⟩ |
        ⟨rows, hc, ⟨hx, -⟩ | hx | ⟨outbox, hx⟩⟩
      · cases hx
      · cases hx
      · cases hx
      · cases hx
      · cases hx
        rcases List.mem_append.mp hmem with hold | hmine
        · exact absurd hold hnew
        · rw [List.mem_singleton] at hmine
          subst hmine
          obtain ⟨-, -, hany⟩ := Registrations.finish_cases hc
          exact ⟨_, _, _, _, _, rfl, List.any_eq_true.mp hany.symm⟩
    | getUserByEmail email =>
      cases hb
      exact absurd hmem hnew
    | getUser userId =>
      cases hb
      exact absurd hmem hnew
    | commit =>
      cases hb
      exact absurd hmem hnew
    | getByKeyHash | tryCreate | claimByKeyHash | claimBatch | scheduleRetry | block
    | redriveBlocked =>
      simp only [RegistrationTx.body, bind_eq_ok] at hb
      obtain ⟨out, -, hb⟩ := hb
      cases hb
      exact absurd hmem hnew
  | spawn tasks =>
    cases c with
    | go locked =>
      cases h
      exact absurd hu hnew
    | fault x =>
      obtain ⟨hx, -, -⟩ := exec_fault h
      cases hx
    | _ => cases h
  | _ =>
    obtain ⟨⟨hdb, -⟩, -⟩ := exec_quiet rfl h
    rw [hdb] at hu
    exact absurd hu hnew

section Runs

variable {cfg : RegistrationConfig} {p : HTTPProfileProvisioner} {clock : Time}
  {callees : Nat → Option RegistrationCallee} {C C' : WiredRun}

theorem wired_recorded (h : WiredReach cfg p (wiredStart cfg clock callees) C) :
    RecordedReach cfg (recordedStart cfg clock callees) ((unwired cfg p).config C) :=
  (unwired cfg p).reach h

/-- Every call that has returned normally was accepted. -/
theorem wired_accepted (h : WiredReach cfg p (wiredStart cfg clock callees) C) :
    ∀ i userId registeredAt, ⟨i, .createProfile userId registeredAt, .ok ()⟩ ∈ C.shared.trace →
      Accepted p C i userId registeredAt := by
  induction h with
  | refl => exact nofun
  | tail _ hs ih =>
    obtain ⟨l, hl, -⟩ := hs
    intro i userId registeredAt hmem
    rcases Machine.traced_step_cases hl with ⟨j, c, e, k, r, t, -, -, hx, rfl⟩ |
      ⟨v, t, -, hv, rfl⟩ | ⟨j, e, k, -, -, rfl⟩
    · obtain ⟨-, hpre, hcall⟩ := wired_exec_cases hx
      rcases List.mem_append.mp hmem with hmem | hmem
      · obtain ⟨response, hstatus, hput⟩ := ih i userId registeredAt hmem
        exact ⟨response, hstatus, hpre.subset hput⟩
      · cases List.mem_singleton.mp hmem
        exact hcall _ _ rfl rfl
    · obtain ⟨response, hstatus, hput⟩ := ih i userId registeredAt hmem
      obtain ⟨u, -, rfl⟩ := Option.map_eq_some_iff.mp hv
      exact ⟨response, hstatus, hput⟩
    · exact ih i userId registeredAt hmem

/-- What the flow says of a process in a Profile call. -/
theorem calling_works (h : WiredReach cfg p (wiredStart cfg clock callees) C) {i : Nat}
    {userId : Uuid} {registeredAt : Time} (hc : Calling C i userId registeredAt) :
    inUnit C.shared.trace i = false ∧ ∃ o t, workingOn C.shared.trace i = some ⟨o, t⟩ ∧
      userId = o.userId ∧ registeredAt = o.createdAt := by
  obtain ⟨k, hk⟩ := hc
  have hpermits := (recorded_kept (wired_recorded h)).permits (i := i) (k := k) hk
  obtain ⟨hunit, o, t, hworks, hu, ha⟩ := hpermits
  exact ⟨(inUnit_eq cfg).trans hunit, o, t, (workingOn_eq cfg).trans hworks, hu, ha⟩

/-- Two claims of one operation are of one user. -/
theorem handed_same_user {s : RegistrationRecord} (h : Handed cfg s)
    (hacc : Accounts cfg.hasher (Issued callees) s.state.db) {t t' : RegistrationTask}
    (ht : t ∈ handedOut s.trace) (ht' : t' ∈ handedOut s.trace)
    (hid : t.operation.id = t'.operation.id) :
    t.operation.userId = t'.operation.userId ∧ t.operation.createdAt = t'.operation.createdAt := by
  obtain ⟨x, hx, hsame, -⟩ := h.snapshot t ht
  obtain ⟨x', hx', hsame', -⟩ := h.snapshot t' ht'
  have hrow : x = x' := by
    refine hacc.eq_of_collides hx hx' (RegistrationOperation.collides_iff.mpr (.inl ?_))
    exact hsame.id.trans (hid.trans hsame'.id.symm)
  subst hrow
  exact ⟨hsame.userId.symm.trans hsame'.userId, hsame.createdAt.symm.trans hsame'.createdAt⟩

theorem handedOut_mono {trace trace' : List (Event registrationSig Exn)} (h : trace <+: trace')
    {t : RegistrationTask} (ht : t ∈ handedOut trace) : t ∈ handedOut trace' := by
  obtain ⟨rest, rfl⟩ := h
  rw [handedOut, List.flatMap_append]
  exact List.mem_append_left _ ht

/-- An account that appears was preceded by its Profile call, under the same
claim. -/
theorem account_after_profile (h : WiredReach cfg p (wiredStart cfg clock callees) C)
    {l : (wiredMachine cfg p).traced.Label} (hl : (wiredMachine cfg p).traced.step C l = some C')
    {u : User} (hu : u ∈ C'.shared.state.world.db.users)
    (hnew : u ∉ C.shared.state.world.db.users) :
    ∃ i task pre post, Finalizes cfg p C l i task u ∧
      C.shared.trace = pre ++ ⟨i, .createProfile u.id u.createdAt, .ok ()⟩ :: post ∧
      workingOn pre i = some task ∧ Accepted p C i u.id u.createdAt := by
  rcases Machine.traced_step_cases hl with ⟨i, c, e, k, r, t, rfl, hp, hx, rfl⟩ |
    ⟨v, t, -, hv, rfl⟩ | ⟨i, e, k, -, -, rfl⟩
  · obtain ⟨⟨c', hx'⟩, -, -⟩ := wired_exec_cases hx
    obtain ⟨operationId, ownerToken, completedAt, eventId, correlationId, rfl, row, hrow, hown⟩ :=
      exec_new_user hx' hu hnew
    -- the flow: the process has made the call, for the claim it still holds
    obtain ⟨hprofiled, o, hworks, rfl, -⟩ :=
      (recorded_kept (wired_recorded h)).permits (i := i) (k := k) hp
    obtain ⟨pre, post, htrace, hclaim⟩ := profiled_after hprofiled
    have htrace' : C.shared.trace =
        pre ++ ⟨i, .createProfile u.id u.createdAt, .ok ()⟩ :: post := htrace
    obtain ⟨hid, hstatus, htoken, -⟩ := Registrations.ownedBy_iff.mp hown
    refine ⟨i, ⟨o, ownerToken⟩, pre, post, ⟨⟨c, completedAt, eventId, correlationId, k, rfl, hp⟩,
      row, hrow, hid, hstatus, htoken⟩, htrace', ?_, ?_⟩
    · rw [hclaim, workingOn_eq cfg]
      exact hworks
    · refine wired_accepted h i u.id u.createdAt ?_
      rw [htrace']
      simp
  · obtain ⟨t', ht', rfl⟩ := Option.map_eq_some_iff.mp hv
    cases v with
    | tick d =>
      cases ht'
      exact absurd hu hnew
    | relay rows =>
      cases ht'
      exact absurd hu hnew
  · exact absurd hu hnew

/-- **Profile before account.** In every run: an account appears only after a
Profile call for it, made by the same process under the same claim token,
has returned; such a call returns only if the Profile service answered 204
to a PUT of that profile; the calls made for one operation are all for one
user and one instant; and none is made inside a unit of work. -/
theorem profile_before_account (cfg : RegistrationConfig) (p : HTTPProfileProvisioner)
    (clock : Time) (callees : Nat → Option RegistrationCallee) (C : WiredRun)
    (h : WiredReach cfg p (wiredStart cfg clock callees) C) :
    (∀ l C' u, (wiredMachine cfg p).traced.step C l = some C' →
      u ∈ C'.shared.state.world.db.users → u ∉ C.shared.state.world.db.users →
      ∃ i task pre post, Finalizes cfg p C l i task u ∧
        C.shared.trace = pre ++ ⟨i, .createProfile u.id u.createdAt, .ok ()⟩ :: post ∧
        workingOn pre i = some task ∧ Accepted p C i u.id u.createdAt) ∧
    (∀ i userId registeredAt,
      ⟨i, .createProfile userId registeredAt, .ok ()⟩ ∈ C.shared.trace →
      Accepted p C i userId registeredAt) ∧
    (∀ i userId registeredAt, Calling C i userId registeredAt →
      (∃ task, workingOn C.shared.trace i = some task) ∧ inUnit C.shared.trace i = false) ∧
    ∀ C', WiredReach cfg p C C' →
      ∀ i j userId registeredAt userId' registeredAt' task task',
        Calling C i userId registeredAt → workingOn C.shared.trace i = some task →
        Calling C' j userId' registeredAt' → workingOn C'.shared.trace j = some task' →
        task.operation.id = task'.operation.id →
        userId = userId' ∧ registeredAt = registeredAt' := by
  refine ⟨fun l C' u hl hu hnew => account_after_profile h hl hu hnew, wired_accepted h, ?_, ?_⟩
  · intro i userId registeredAt hc
    obtain ⟨hunit, o, t, hworks, -, -⟩ := calling_works h hc
    exact ⟨⟨_, hworks⟩, hunit⟩
  · intro C' hr i j userId registeredAt userId' registeredAt' task task' hc ht hc' ht' hid
    have h' := h.trans hr
    obtain ⟨-, o, t, hworks, rfl, rfl⟩ := calling_works h hc
    obtain ⟨-, o', t', hworks', rfl, rfl⟩ := calling_works h' hc'
    cases hworks.symm.trans ht
    cases hworks'.symm.trans ht'
    -- both claims are in the record of the later state
    have hhanded' := recorded_handed (wired_recorded h')
    have hmem := (recorded_handed (wired_recorded h)).claim i _ ((workingOn_eq cfg).symm.trans ht)
    have hmem' := hhanded'.claim j _ ((workingOn_eq cfg).symm.trans ht')
    exact handed_same_user hhanded' (recorded_accounts (wired_recorded h'))
      (handedOut_mono (Machine.trace_prefix hr) hmem) hmem' hid

end Runs

namespace Sample

/-- A client that does not wait between its attempts. -/
def provisioner : HTTPProfileProvisioner where
  configured := true
  retryDelaySeconds := 0
  retryMaxDelaySeconds := 1
  float := fun _ => none
  isoformat := fun _ => ""
  delayNonneg := by norm_num
  maxDelayPositive := patient.initialPositive
  delayLeMax := by norm_num

/-- An answer that does not come from the Profile service. -/
def plain (i : Nat) (c : RegistrationChoice) :
    (wiredMachine registration provisioner).traced.Label := .act i (.plain c)

/-- The caller registers; the Profile service is busy at first and accepts
the second PUT. -/
def provisioned : List (wiredMachine registration provisioner).traced.Label :=
  [plain 0 (.go fun _ => false), plain 0 (.salt "x"), plain 0 (.go fun _ => false),
    plain 0 (.uuid 7), plain 0 (.uuid 1), plain 0 (.uuid 2), plain 0 (.go fun _ => false),
    plain 0 (.go fun _ => false),
    .act 0 (.http [.admitted ⟨0, none⟩, .response ⟨503, none⟩, .done, .done, .admitted ⟨0, none⟩,
      .response ⟨204, none⟩, .done]),
    plain 0 (.go fun _ => false), plain 0 (.uuid 11), plain 0 (.uuid 12)]

end Sample

open Sample in
theorem profile_before_account_busy :
    ∃ (C C' : WiredRun) (u : User),
      (wiredMachine registration provisioner).traced.run (fun _ _ => true)
        (wiredStart registration 5 registering) provisioned = some C ∧
      (wiredMachine registration provisioner).traced.step C (plain 0 (.go fun _ => false)) =
        some C' ∧
      u ∈ C'.shared.state.world.db.users ∧ ∃ i, Accepted provisioner C i u.id u.createdAt := by
  obtain ⟨C, C', u, hrun, hstep, hu, hnew⟩ : ∃ (C C' : WiredRun) (u : User),
      (wiredMachine registration provisioner).traced.run (fun _ _ => true)
        (wiredStart registration 5 registering) provisioned = some C ∧
      (wiredMachine registration provisioner).traced.step C (plain 0 (.go fun _ => false)) =
        some C' ∧
      u ∈ C'.shared.state.world.db.users ∧ u ∉ C.shared.state.world.db.users :=
    ⟨_, _, _, rfl, rfl, List.mem_singleton.mpr rfl, List.not_mem_nil⟩
  have hany : ∀ s s' : Traced registrationSig Exn WiredWorld, true = true → True :=
    fun _ _ _ => trivial
  have hreach : WiredReach registration provisioner (wiredStart registration 5 registering) C :=
    Machine.reach_of_run _ hany _ _ _ hrun
  obtain ⟨i, task, pre, post, -, -, -, haccepted⟩ :=
    (profile_before_account registration provisioner 5 registering C hreach).1 _ C' u hstep hu hnew
  exact ⟨C, C', u, hrun, hstep, hu, i, haccepted⟩

end IdentityService
