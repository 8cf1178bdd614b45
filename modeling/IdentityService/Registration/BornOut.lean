import IdentityService.Concurrent.Answers
import IdentityService.Registration.Claims

/-!
# What the tables show of an answer

Rows of `registration_operations` keep their identity and accounts are never
deleted, so what a unit of work has told its handler can still be read off
the tables when the handler answers. Nothing is assumed about the tables a
run starts with.
-/

namespace IdentityService

open Concurrent

namespace RegistrationDb

/-- The table has the row `o` was read from, whatever became of it. -/
def Files (db : RegistrationDb) (o : RegistrationOperation) : Prop :=
  ∃ x ∈ db.operations, x.SameIdentity o

/-- The account is in the table of users. -/
def HasAccount (db : RegistrationDb) (userId : Uuid) : Prop := ∃ u ∈ db.users, u.id = userId

/-- No operation and no account is lost. -/
structure Retains (db db' : RegistrationDb) : Prop where
  operations : ∀ o ∈ db.operations, db'.Files o
  users : db.users ⊆ db'.users

/-- What the tables show of an answer: the row it handed out, the account it
found or created. -/
def BearsOut (db : RegistrationDb) : (e : RegistrationEff) → Except Exn e.Resp → Prop
  | .tx (.getByKeyHash keyHash), .ok (some o) =>
    o.keyHash = keyHash ∧ o.lifecycle = true ∧ db.Files o
  | .tx (.tryCreate candidate), .ok (some o) => o = candidate ∧ db.Files o
  | .tx (.claimByKeyHash keyHash _ _ _), .ok (some o) => o.keyHash = keyHash ∧ db.Files o
  | .tx (.getUser userId), .ok (some _) => db.HasAccount userId
  | .tx (.finalize _ _ _ user _ _), .ok created => created.id = user.id ∧ db.HasAccount user.id
  | _, _ => True

variable {db db' : RegistrationDb} {o : RegistrationOperation}

theorem Files.of_mem (h : o ∈ db.operations) : db.Files o := ⟨o, h, .refl o⟩

theorem Retains.of_eq (hoperations : db'.operations = db.operations)
    (husers : db'.users = db.users) : db.Retains db' where
  operations _ ho := .of_mem (hoperations ▸ ho)
  users _ hu := husers ▸ hu

theorem Files.later (h : db.Files o) (hr : db.Retains db') : db'.Files o := by
  obtain ⟨x, hx, hsame⟩ := h
  obtain ⟨y, hy, hyx⟩ := hr.operations x hx
  exact ⟨y, hy, hyx.trans hsame⟩

theorem HasAccount.later {userId : Uuid} (h : db.HasAccount userId) (hr : db.Retains db') :
    db'.HasAccount userId := by
  obtain ⟨u, hu, hid⟩ := h
  exact ⟨u, hr.users hu, hid⟩

/-- What is shown once is shown for good. -/
theorem BearsOut.later {e : RegistrationEff} {r : Except Exn e.Resp} (h : db.BearsOut e r)
    (hr : db.Retains db') : db'.BearsOut e r := by
  cases r with
  | error x =>
    cases e with
    | tx t => cases t <;> trivial
    | _ => trivial
  | ok a =>
    cases e with
    | tx t =>
      cases t with
      | getByKeyHash keyHash =>
        cases a with
        | none => trivial
        | some o => exact ⟨h.1, h.2.1, h.2.2.later hr⟩
      | tryCreate candidate =>
        cases a with
        | none => trivial
        | some o => exact ⟨h.1, h.2.later hr⟩
      | claimByKeyHash keyHash ownerToken claimedAt claimExpiresAt =>
        cases a with
        | none => trivial
        | some o => exact ⟨h.1, h.2.later hr⟩
      | getUser userId =>
        cases a with
        | none => trivial
        | some user => exact HasAccount.later h hr
      | finalize operationId ownerToken completedAt user eventId correlationId =>
        exact ⟨h.1, h.2.later hr⟩
      | _ => trivial
    | _ => trivial

end RegistrationDb

/-! ## Steps -/

section Steps

variable {cfg : RegistrationConfig} {i : Nat} {w w' : RegistrationWorld} {fmt : EventFormat}
  {locked : Uuid → Bool} {db db' : RegistrationDb}

open RegistrationDb

/-- No statement drops a row or changes the row's identity. -/
theorem RegistrationCall.exec_files (c : RegistrationCall) {rows : List RegistrationOperation}
    {o : RegistrationOperation} (ho : o ∈ rows) : ∃ x ∈ c.exec rows, x.SameIdentity o := by
  rcases c.exec_cases rows with h | ⟨operation, -, h, -⟩ | ⟨p, f, h, hsame, -⟩
  · exact ⟨o, by rwa [h], .refl o⟩
  · rw [h]
    exact ⟨o, List.mem_append_left _ ho, .refl o⟩
  · rw [h]
    cases hp : p o with
    | true => exact ⟨f o, Table.mem_update.mpr ⟨o, ho, .inl ⟨hp, rfl⟩⟩, hsame o⟩
    | false => exact ⟨o, Table.mem_update.mpr ⟨o, ho, .inr ⟨hp, rfl⟩⟩, .refl o⟩

/-- The users are added to by a finalization, and by nothing else. -/
theorem body_users {t : RegistrationTx} {a : t.Resp} (h : t.body fmt locked db = .ok (a, db')) :
    db.users ⊆ db'.users := by
  cases t with
  | finalize operationId ownerToken completedAt user eventId correlationId =>
    rcases RegistrationTx.finalizeBody_cases h with ⟨x, -, hx⟩ | ⟨rows, -, hx⟩ |
      ⟨rows, -, ⟨hx, -⟩ | hx | ⟨outbox, hx⟩⟩
    · cases hx
    · cases hx
    · cases hx
    · cases hx
    · cases hx
      exact List.subset_append_left _ _
  | getUserByEmail | commit | getUser =>
    cases h
    exact List.Subset.refl _
  | _ =>
    simp only [RegistrationTx.body, bind_eq_ok] at h
    obtain ⟨r, -, h⟩ := h
    cases h
    exact List.Subset.refl _

theorem body_retains {t : RegistrationTx} {a : t.Resp}
    (h : t.body fmt locked db = .ok (a, db')) : db.Retains db' := by
  refine ⟨fun o ho => ?_, body_users h⟩
  rcases body_call h with ⟨-, hops, -⟩ | ⟨c, -, hops, -⟩
  · exact .of_mem (hops ▸ ho)
  · obtain ⟨x, hx, hsame⟩ := c.exec_files ho
    exact ⟨x, hops ▸ hx, hsame⟩

/-- A statement shows what it answers. -/
theorem body_bearsOut {t : RegistrationTx} {a : t.Resp}
    (h : t.body fmt locked db = .ok (a, db')) : db'.BearsOut (.tx t) (.ok a) := by
  cases t with
  | getByKeyHash keyHash =>
    cases a with
    | none => trivial
    | some o =>
      simp only [RegistrationTx.body, bind_eq_ok] at h
      obtain ⟨r, hget, h⟩ := h
      cases h
      obtain ⟨hr, -⟩ | ⟨x, hx, hkey, hlife, hr⟩ := Registrations.getByKeyHash_cases hget
      · cases hr
      · cases hr
        exact ⟨hkey, hlife, .of_mem hx⟩
  | tryCreate candidate =>
    cases a with
    | none => trivial
    | some o =>
      simp only [RegistrationTx.body, bind_eq_ok] at h
      obtain ⟨⟨created, rows⟩, hc, h⟩ := h
      cases h
      rcases Registrations.tryCreate_cases hc with ⟨hr, -⟩ | ⟨hr, hrows, -⟩
      · cases hr
      · cases hr
        refine ⟨rfl, .of_mem ?_⟩
        simp [hrows]
  | claimByKeyHash keyHash ownerToken claimedAt claimExpiresAt =>
    cases a with
    | none => trivial
    | some o =>
      simp only [RegistrationTx.body, bind_eq_ok] at h
      obtain ⟨⟨claimed, rows⟩, hc, h⟩ := h
      cases h
      obtain ⟨hrows, hr | ⟨x, hx, hkey, heligible, hr⟩⟩ := Registrations.claimByKeyHash_cases hc
      · cases hr
      · cases hr
        refine ⟨hkey, .of_mem ?_⟩
        simp only [hrows]
        exact Table.mem_update.mpr ⟨x, hx, .inl ⟨by simp [hkey, heligible], rfl⟩⟩
  | getUser userId =>
    cases a with
    | none => trivial
    | some user =>
      simp only [RegistrationTx.body, Except.ok.injEq, Prod.mk.injEq] at h
      obtain ⟨hfind, rfl⟩ := h
      exact ⟨user, List.mem_of_find?_eq_some hfind, by simpa using List.find?_some hfind⟩
  | finalize operationId ownerToken completedAt user eventId correlationId =>
    rcases RegistrationTx.finalizeBody_cases h with ⟨x, -, hx⟩ | ⟨rows, -, hx⟩ |
      ⟨rows, -, ⟨hx, -⟩ | hx | ⟨outbox, hx⟩⟩
    · cases hx
    · cases hx
    · cases hx
    · cases hx
    · cases hx
      exact ⟨rfl, user, by simp, rfl⟩
  | _ => trivial

theorem exec_retains {e : RegistrationEff} {c : RegistrationChoice} {r : Except Exn e.Resp}
    (h : RegistrationWorld.exec cfg i e c w = some (r, w')) : w.db.Retains w'.db := by
  cases e with
  | tx t =>
    rcases exec_tx h with ⟨locked, a, db, hb, -, rfl⟩ | ⟨locked, a, db, x, hb, -, -, rfl⟩ |
      ⟨locked, x, -, -, rfl⟩ | ⟨locked, x, y, -, -, -, rfl⟩ | ⟨x, -, -, rfl⟩
    · exact body_retains hb
    · exact body_retains hb
    · exact .of_eq rfl rfl
    · exact .of_eq rfl rfl
    · exact .of_eq rfl rfl
  | spawn tasks =>
    cases c with
    | go locked =>
      cases h
      exact .of_eq rfl rfl
    | fault x =>
      obtain ⟨hx, -, -⟩ := exec_fault h
      cases hx
    | _ => cases h
  | _ =>
    obtain ⟨⟨hdb, -⟩, -⟩ := exec_quiet rfl h
    exact .of_eq (by rw [hdb]) (by rw [hdb])

theorem bearsOut_error (e : RegistrationEff) (x : Exn) : db.BearsOut e (.error x) := by
  cases e with
  | tx t => cases t <;> trivial
  | _ => trivial

theorem exec_bearsOut {e : RegistrationEff} {c : RegistrationChoice} {r : Except Exn e.Resp}
    (h : RegistrationWorld.exec cfg i e c w = some (r, w')) : w'.db.BearsOut e r := by
  cases r with
  | error x => exact bearsOut_error e x
  | ok a =>
    cases e with
    | tx t =>
      rcases exec_tx h with ⟨locked, a', db, hb, hr, rfl⟩ | ⟨_, _, _, _, _, hr, _⟩ |
        ⟨_, _, _, hr, _⟩ | ⟨_, _, _, _, hr, _⟩ | ⟨_, hr, _⟩
      · cases hr
        exact body_bearsOut hb
      all_goals cases hr
    | _ => trivial

/-- **Every answer of a run is borne out by its tables.** -/
theorem bearsOut_reach {α : Type} {con : RegistrationRecord → RegistrationRecord → Prop}
    {P P' : Config registrationSig Exn RegistrationRecord α}
    (hr : (registrationMachine cfg).traced.Reach con P P') (hfresh : P.shared.trace = []) :
    ∀ e ∈ P'.shared.trace, P'.shared.state.db.BearsOut e.op e.resp := by
  induction hr with
  | refl => simp [hfresh]
  | tail _ hs ih =>
    obtain ⟨l, hl, -⟩ := hs
    rcases Machine.traced_step_cases hl with ⟨j, c, e, k, r, t, -, -, hx, rfl⟩ |
      ⟨v, t, -, hv, rfl⟩ | ⟨j, e, k, -, -, rfl⟩
    · intro e' he'
      rcases List.mem_append.mp he' with hold | hnew
      · exact (ih e' hold).later (exec_retains hx)
      · obtain rfl := List.mem_singleton.mp hnew
        exact exec_bearsOut hx
    · cases v with
      | tick elapsed =>
        cases hv
        exact ih
      | relay rows =>
        -- the relay has the outbox to itself
        cases hv
        exact fun e he => (ih e he).later (.of_eq rfl rfl)
    · exact ih

end Steps

/-! ## Handlers -/

section Handlers

variable {cfg : RegistrationConfig} {db : RegistrationDb}

open RegistrationDb

/-- A result about operation `o`; a completed one has its account. -/
def Settles (db : RegistrationDb) (o : RegistrationOperation) :
    Except Exn RegistrationResult → Prop
  | .ok result => result.operationId = o.id ∧ result.userId = o.userId ∧
    (result.outcome = .completed → db.HasAccount o.userId)
  | .error _ => True

/-- A result about an operation of the key that the table has. -/
def SettlesKey (db : RegistrationDb) (keyHash : Digest) : Except Exn RegistrationResult → Prop
  | .ok result => ∃ o ∈ db.operations, o.keyHash = keyHash ∧ result.operationId = o.id ∧
    result.userId = o.userId ∧ (result.outcome = .completed → db.HasAccount o.userId)
  | .error _ => True

variable {o : RegistrationOperation} {ownerToken : Uuid}

theorem Settles.key {keyHash : Digest} {r : Except Exn RegistrationResult} (h : Settles db o r)
    (hkey : o.keyHash = keyHash) (ho : db.Files o) : SettlesKey db keyHash r := by
  cases r with
  | error x => trivial
  | ok result =>
    obtain ⟨x, hx, hsame⟩ := ho
    obtain ⟨hid, huser, hdone⟩ := h
    refine ⟨x, hx, hsame.keyHash.trans hkey, hid.trans hsame.id.symm,
      huser.trans hsame.userId.symm, fun hout => ?_⟩
    rw [hsame.userId]
    exact hdone hout

/-- An await whose answer does not matter. -/
theorem settles_await {α β : Type} {p : Registration α} {f : α → Registration β}
    {Q : Except Exn β → Prop} (hQ : ∀ x, Q (.error x))
    (hf : ∀ a, (f a).Given db.BearsOut Q) : (p.bind f).Given db.BearsOut Q :=
  (Prog.given_any p).bind (fun a _ => hf a) fun x _ => hQ x

theorem blockAndRaise_settles (error raised : Exn) :
    (blockAndRaise o ownerToken error raised).Given db.BearsOut (Settles db o) :=
  settles_await (fun _ => trivial) fun _ => trivial

theorem pendingResult_settles (now : Time) (retryAt : Option Time) :
    Settles db o (.ok (pendingResult o now retryAt)) :=
  ⟨rfl, rfl, nofun⟩

theorem retryOrBlock_settles (error : Exn) :
    (retryOrBlock cfg o ownerToken error).Given db.BearsOut (Settles db o) := by
  simp only [retryOrBlock]
  split
  · exact blockAndRaise_settles error _
  · refine settles_await (fun _ => trivial) fun failedAt => ?_
    refine settles_await (fun _ => trivial) fun jitterSample => ?_
    refine settles_await (fun _ => trivial) fun delay => ?_
    refine settles_await (fun _ => trivial) fun scheduled => ?_
    exact settles_await (fun _ => trivial) fun now => pendingResult_settles now _

/-- A finalization answers with the operation's account. -/
def FinalizedAs (db : RegistrationDb) (o : RegistrationOperation) : Except Exn User → Prop
  | .ok user => user.id = o.userId ∧ db.HasAccount o.userId
  | .error _ => True

theorem finalize_settles : (finalize o ownerToken).Given db.BearsOut (FinalizedAs db o) := by
  simp only [finalize]
  cases o.passwordHash with
  | none => trivial
  | some passwordHash =>
    refine settles_await (fun _ => trivial) fun completedAt => ?_
    refine settles_await (fun _ => trivial) fun eventId => ?_
    refine settles_await (fun _ => trivial) fun correlationId => ?_
    refine (Prog.given_perform _).mono fun r hr => ?_
    cases r with
    | ok user => exact hr
    | error x => trivial

variable (db o ownerToken) in
/-- An exception that is not handled here blocks the operation and goes on. -/
theorem otherwise_settles (x : Exn) :
    (if x.isException then blockAndRaise o ownerToken x x else throw x :
      Registration RegistrationResult).Given db.BearsOut (Settles db o) := by
  split
  · exact blockAndRaise_settles x x
  · trivial

theorem afterFinalize_settles {r : Except Exn User} (hr : FinalizedAs db o r) :
    (afterFinalize cfg o ownerToken r).Given db.BearsOut (Settles db o) := by
  cases r with
  | ok user => exact ⟨rfl, hr.1, fun _ => hr.2⟩
  | error x =>
    have hother := otherwise_settles db o ownerToken x
    cases x with
    | lostRegistrationClaim =>
      exact settles_await (fun _ => trivial) fun now => pendingResult_settles now _
    | registrationFinalizationConflict => exact blockAndRaise_settles _ _
    | persistenceUnavailable => exact retryOrBlock_settles _
    | transactionConflict => exact retryOrBlock_settles _
    | _ => exact hother

theorem afterProfile_settles (r : Except Exn Unit) :
    (afterProfile cfg o ownerToken r).Given db.BearsOut (Settles db o) := by
  cases r with
  | ok _ => exact finalize_settles.attempt fun r hr => afterFinalize_settles hr
  | error x =>
    have hother := otherwise_settles db o ownerToken x
    cases x with
    | profileProvisioningRejected => exact blockAndRaise_settles _ _
    | profileProvisioningUnavailable => exact retryOrBlock_settles _
    | _ => exact hother

theorem resumeExecute_settles :
    (resumeExecute cfg o ownerToken).Given db.BearsOut (Settles db o) := by
  simp only [resumeExecute]
  split
  · trivial
  · exact (Prog.given_any _).attempt fun r _ => afterProfile_settles r

/-- The hash is the row's own, or its account's. -/
theorem passwordHashOf_settles : (passwordHashOf o).Given db.BearsOut fun r =>
    ∀ h, r = .ok h → o.passwordHash = none → db.HasAccount o.userId := by
  simp only [passwordHashOf]
  cases hpw : o.passwordHash with
  | some passwordHash =>
    intro h _ hnone
    cases hnone
  | none =>
    refine (Prog.given_perform _).bind (fun user huser => ?_) fun x _ h hx => ?_
    · cases user with
      | none =>
        intro h hx
        cases hx
      | some user => exact fun _ _ _ => huser
    · cases hx

theorem claimExisting_settles (ho : db.Files o) :
    (claimExisting cfg o).Given db.BearsOut (SettlesKey db o.keyHash) := by
  refine settles_await (fun _ => trivial) fun now => ?_
  refine settles_await (fun _ => trivial) fun ownerToken => ?_
  refine (Prog.given_perform _).bind (fun claimed hclaimed => ?_) fun _ _ => trivial
  cases claimed with
  | none =>
    refine settles_await (fun _ => trivial) fun now => ?_
    exact (pendingResult_settles now none).key rfl ho
  | some claimed =>
    obtain ⟨hkey, hfiles⟩ := hclaimed
    exact resumeExecute_settles.mono fun r hr => hr.key hkey hfiles

theorem answerExisting_settles (ho : db.Files o)
    (haccount : o.status = .completed → db.HasAccount o.userId) :
    (answerExisting cfg o).Given db.BearsOut (SettlesKey db o.keyHash) := by
  simp only [answerExisting]
  cases hs : o.status with
  | completed =>
    have hresult : Settles db o (.ok (completedResult o.id o.userId)) :=
      ⟨rfl, rfl, fun _ => haccount hs⟩
    exact hresult.key rfl ho
  | blocked => trivial
  | pending => exact claimExisting_settles ho
  | claimed => exact claimExisting_settles ho

/-- A completed row that was read is scrubbed, so its account was looked
up. -/
theorem resumeExisting_settles (ho : db.Files o) (hlife : o.lifecycle = true)
    (email password : String) :
    (resumeExisting cfg o email password).Given db.BearsOut (SettlesKey db o.keyHash) := by
  have hscrubbed : o.status = .completed → o.passwordHash = none := by
    intro hs
    simp only [RegistrationOperation.lifecycle, hs, Bool.and_eq_true,
      Option.isNone_iff_eq_none] at hlife
    exact hlife.1.1.1
  simp only [resumeExisting]
  split
  · trivial
  · refine passwordHashOf_settles.bind (fun passwordHash hhash => ?_) fun _ _ => trivial
    refine settles_await (fun _ => trivial) fun verified => ?_
    split
    · trivial
    · exact answerExisting_settles ho fun hs => hhash passwordHash rfl (hscrubbed hs)

theorem load_settles {command : RegisterUserCommand}
    {f : Option RegistrationOperation → Registration RegistrationResult}
    (hnone : (f none).Given db.BearsOut (SettlesKey db command.keyHash))
    (hsome : ∀ o, f (some o) = resumeExisting cfg o command.email command.password) :
    ((await (.tx (.getByKeyHash command.keyHash))).bind f).Given db.BearsOut
      (SettlesKey db command.keyHash) := by
  refine (Prog.given_perform _).bind (fun existing hexisting => ?_) fun _ _ => trivial
  cases existing with
  | none => exact hnone
  | some existing =>
    obtain ⟨hkey, hlife, hfiles⟩ := hexisting
    rw [hsome, ← hkey]
    exact resumeExisting_settles hfiles hlife _ _

theorem createOperation_settles : (createOperation o).Given db.BearsOut fun r =>
    ∀ created, r = .ok (some created) → created = o ∧ db.Files o := by
  refine (Prog.given_any _).bind (fun user _ => ?_) fun _ _ => nofun
  cases user with
  | some user => exact (Prog.given_any _).bind (fun _ _ => nofun) fun _ _ => nofun
  | none =>
    refine (Prog.given_perform _).mono ?_
    rintro r hr created rfl
    obtain ⟨rfl, hfiles⟩ := hr
    exact ⟨rfl, hfiles⟩

theorem registerNew_settles (command : RegisterUserCommand) :
    (registerNew cfg command).Given db.BearsOut (SettlesKey db command.keyHash) := by
  refine settles_await (fun _ => trivial) fun passwordHash => ?_
  refine settles_await (fun _ => trivial) fun now => ?_
  refine settles_await (fun _ => trivial) fun ownerToken => ?_
  refine settles_await (fun _ => trivial) fun id => ?_
  refine settles_await (fun _ => trivial) fun userId => ?_
  refine createOperation_settles.bind (fun created hcreated => ?_) fun _ _ => trivial
  cases created with
  | some created =>
    obtain ⟨rfl, hfiles⟩ := hcreated created rfl
    exact resumeExecute_settles.mono fun r hr => hr.key rfl hfiles
  | none => exact load_settles trivial fun _ => rfl

/-- **A registration answers about an operation of its key**, and a completed
one about an operation that has its account. -/
theorem registerExecute_settles (command : RegisterUserCommand) :
    (registerExecute cfg command).Given db.BearsOut (SettlesKey db command.keyHash) :=
  load_settles (registerNew_settles command) fun _ => rfl

end Handlers

end IdentityService
