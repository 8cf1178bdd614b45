import Mathlib.Data.Fintype.EquivFin
import IdentityService.Concurrent.Undisturbed
import IdentityService.Registration.Budget
import IdentityService.Registration.Idempotent

/-!
# No registration is stuck

Whatever has failed before, and wherever it failed, an unfinished operation
can be finished: once its backoff or its lease has run out, and after a
redrive if it was blocked, a retry of the request that the outside does not
disturb completes it. Nothing else is needed, and nobody else has to move.

The outlines here are those of a process among others that work on other
operations: a retry has none, a worker of the reconciler has the other
workers.
-/

namespace IdentityService

open Concurrent Concurrent.Machine

/-! ## Undisturbed runs -/

/-- The UUIDs that each process draws from: there are always more. -/
structure UuidSupply where
  own : Nat → Uuid → Prop
  plenty : ∀ (i : Nat) (used : List Uuid), ∃ u, u ∉ used ∧ own i u

/-- One pool for all. -/
def UuidSupply.any : UuidSupply where
  own _ _ := True
  plenty _ used := by
    obtain ⟨u, hu⟩ := Infinite.exists_notMem_finset used.toFinset
    exact ⟨u, by simpa using hu, trivial⟩

/-- Nothing fails, no row is locked, Profile accepts, and a UUID that is drawn
is new. -/
def Favourable (supply : UuidSupply) (used : List Uuid) (i : Nat) : RegistrationChoice → Prop
  | .go locked => ∀ id, locked id = false
  | .uuid u => u ∉ used ∧ supply.own i u
  | .jitter _ => True
  | .salt _ => True
  | .profile reply => reply = .created
  | _ => False

/-- Time passes, short of the deadline. -/
def Waits (deadline : Time) (w w' : RegistrationWorld) : Prop :=
  ∃ elapsed, w.clock + elapsed < deadline ∧ w' = { w with clock := w.clock + elapsed }

/-- The ids that the events of later registrations must not have. -/
def eventIds (w : RegistrationWorld) : List Uuid := w.db.outbox.map OutboxMessage.id

/-- Runs from `w₀` in which only the processes of `moves` move, nothing
disturbs them, and the deadline is not reached. -/
def calm (cfg : RegistrationConfig) (supply : UuidSupply) (moves : Nat → Prop)
    (w₀ : RegistrationWorld) (deadline : Time) : (registrationMachine cfg).Calm where
  moves := moves
  fair := Favourable supply (eventIds w₀)
  between := Waits deadline

theorem waits_now {w : RegistrationWorld} {deadline : Time} (h : w.clock < deadline) :
    Waits deadline w w :=
  ⟨0, h, rfl⟩

/-- One step of a run: time passes, and a process is answered. -/
theorem calm_step {cfg : RegistrationConfig} {supply : UuidSupply} {moves : Nat → Prop}
    {w₀ : RegistrationWorld} {deadline : Time}
    {C C' : Config registrationSig Exn RegistrationWorld RegistrationAnswer}
    (h : (calm cfg supply moves w₀ deadline).Step C C') : RegistrationReach cfg C C' := by
  obtain ⟨j, c, e, k, _, r, w', -, -, hp, ⟨elapsed, -, rfl⟩, hx, rfl⟩ := h
  refine .head ⟨.env (.tick elapsed), rfl, trivial⟩ (.single ⟨.act j c, ?_, trivial⟩)
  show Machine.act (registrationMachine cfg) j c _ = _
  simp only [Machine.act, hp]
  exact congrArg (Option.map _) hx

theorem calm_reach {cfg : RegistrationConfig} {supply : UuidSupply} {moves : Nat → Prop}
    {w₀ : RegistrationWorld} {deadline : Time}
    {C C' : Config registrationSig Exn RegistrationWorld RegistrationAnswer}
    (h : Relation.ReflTransGen (calm cfg supply moves w₀ deadline).Step C C') :
    RegistrationReach cfg C C' := by
  induction h with
  | refl => exact .refl
  | tail _ hs ih => exact ih.trans (calm_step hs)

/-! ## One process at work -/

/-- What one process of an undisturbed run works on, and until when; `reports`
says which tasks it may call finished in which tables. -/
structure Job where
  cfg : RegistrationConfig
  issued : RegisterUserCommand → Prop
  supply : UuidSupply
  used : List Uuid
  deadline : Time
  pid : Nat
  operationId : Uuid
  reports : Nat → RegistrationDb → Prop

namespace Job

/-- What the process can see of the others: time passes, and they work on
other operations, under UUIDs of their own. -/
structure Meanwhile (J : Job) (w w' : RegistrationWorld) : Prop where
  clock : w.clock ≤ w'.clock
  early : w.clock < J.deadline → w'.clock < J.deadline
  accounts : Accounts J.cfg.hasher J.issued w.db → Accounts J.cfg.hasher J.issued w'.db
  evolves : Evolves w.db w'.db
  row : ∀ o ∈ w.db.operations, o.id = J.operationId → o ∈ w'.db.operations
  outbox : ∀ m ∈ w'.db.outbox, J.supply.own J.pid m.id → ∃ m' ∈ w.db.outbox, m'.id = m.id
  tasks : w'.tasks = w.tasks
  finished : ∀ n, w.finished n = true → w'.finished n = true

/-- What it leaves alone itself. -/
structure Keeps (J : Job) (w w' : RegistrationWorld) : Prop where
  clock : w'.clock = w.clock
  others : ∀ o ∈ w.db.operations, o.id ≠ J.operationId → o ∈ w'.db.operations
  outbox : ∀ m ∈ w'.db.outbox, (∃ m' ∈ w.db.outbox, m'.id = m.id) ∨ J.supply.own J.pid m.id
  tasks : w'.tasks = w.tasks
  still : ∀ n, w.finished n = true → w'.finished n = true
  reported : ∀ n, w'.finished n = true → w.finished n = true ∨ J.reports n w'.db

/-- The terms of the job. -/
def terms (J : Job) : (registrationMachine J.cfg).Terms :=
  ⟨Favourable J.supply J.used J.pid, J.Meanwhile, J.Keeps⟩

/-- From every state with `P` the process must bring `p` to a value with
`A`. -/
abbrev Must {α : Type} (J : Job) (P : RegistrationWorld → Prop) (p : Registration α)
    (A : α → RegistrationWorld → Prop) : Prop :=
  Brings J.terms J.pid P p (Gives A)

variable {J : Job} {w w' w'' : RegistrationWorld} {o : RegistrationOperation}
  {P : RegistrationWorld → Prop}

theorem Meanwhile.trans (h : J.Meanwhile w w') (h' : J.Meanwhile w' w'') : J.Meanwhile w w'' where
  clock := h.clock.trans h'.clock
  early he := h'.early (h.early he)
  accounts ha := h'.accounts (h.accounts ha)
  evolves := h.evolves.trans h'.evolves
  row o ho hid := h'.row o (h.row o ho hid) hid
  outbox m hm hown := by
    obtain ⟨m', hm', hid⟩ := h'.outbox m hm hown
    obtain ⟨m'', hm'', hid'⟩ := h.outbox m' hm' (by rwa [hid])
    exact ⟨m'', hm'', hid'.trans hid⟩
  tasks := h'.tasks.trans h.tasks
  finished n hn := h'.finished n (h.finished n hn)

/-- Nobody else publishes under a UUID of the process. -/
theorem Meanwhile.drawn (hm : J.Meanwhile w w')
    (h : ∀ m ∈ w.db.outbox, J.supply.own J.pid m.id → m.id ∈ J.used) :
    ∀ m ∈ w'.db.outbox, J.supply.own J.pid m.id → m.id ∈ J.used := by
  intro m hmem hown
  obtain ⟨m', hmem', hsame⟩ := hm.outbox m hmem hown
  rw [← hsame] at hown ⊢
  exact h m' hmem' hown

/-- Waiting is nothing else. -/
theorem Meanwhile.of_waits (h : Waits J.deadline w w') : J.Meanwhile w w' := by
  obtain ⟨elapsed, hearly, rfl⟩ := h
  exact ⟨Nat.le_add_right _ _, fun _ => hearly, id, .refl _, fun _ ho _ => ho,
    fun m hm _ => ⟨m, hm, rfl⟩, rfl, fun _ hn => hn⟩

/-- The tables, the clock and the tasks are as before. -/
structure Same (w w' : RegistrationWorld) : Prop where
  db : w'.db = w.db
  clock : w'.clock = w.clock
  tasks : w'.tasks = w.tasks
  finished : w'.finished = w.finished

theorem Keeps.of_same (h : Same w w') : J.Keeps w w' where
  clock := h.clock
  others o ho _ := h.db ▸ ho
  outbox m hm := .inl ⟨m, h.db ▸ hm, rfl⟩
  tasks := h.tasks
  still n hn := by rwa [h.finished]
  reported n hn := .inl (h.finished ▸ hn)

/-- An assertion that neither the others nor an await that writes nothing can
break. -/
structure Steady (J : Job) (P : RegistrationWorld → Prop) : Prop where
  stable : ∀ w w', P w → J.Meanwhile w w' → P w'
  same : ∀ w w', P w → Same w w' → P w'

/-! ### Awaits -/

/-- An await that writes nothing. -/
theorem must_quiet (hP : J.Steady P) {e : RegistrationEff} {R : e.Resp → Prop}
    (hgoes : ∀ w, P w → ∃ c out, Favourable J.supply J.used J.pid c ∧
      RegistrationWorld.exec J.cfg J.pid e c w = some out)
    (honly : ∀ w c r w', P w → Favourable J.supply J.used J.pid c →
      RegistrationWorld.exec J.cfg J.pid e c w = some (r, w') →
      ∃ a, r = .ok a ∧ R a ∧ Same w w') :
    J.Must P (await e) fun a w => R a ∧ P w := by
  refine Brings.perform hP.stable hgoes fun w c r w' hp hc hx => ?_
  obtain ⟨a, rfl, ha, hsame⟩ := honly w c r w' hp hc hx
  exact ⟨.of_same hsame, ha, hP.same w w' hp hsame⟩

theorem must_now (hP : J.Steady P) {R : Time → Prop} (hR : ∀ w, P w → R w.clock) :
    J.Must P (await .now) fun a w => R a ∧ P w := by
  refine must_quiet hP (fun w _ => ⟨.go fun _ => false, _, fun _ => rfl, rfl⟩)
    fun w c r w' hp hc hx => ?_
  cases c with
  | go locked =>
    cases hx
    exact ⟨_, rfl, hR w hp, rfl, rfl, rfl, rfl⟩
  | fault x => exact hc.elim
  | applied locked x => exact hc.elim
  | _ => cases hx

theorem must_verify (hP : J.Steady P) (password passwordHash : String) :
    J.Must P (await (.verify password passwordHash)) fun a w =>
      a = J.cfg.hasher.verify password passwordHash ∧ P w := by
  refine must_quiet hP (fun w _ => ⟨.go fun _ => false, _, fun _ => rfl, rfl⟩)
    fun w c r w' hp hc hx => ?_
  cases c with
  | go locked =>
    cases hx
    exact ⟨_, rfl, rfl, rfl, rfl, rfl, rfl⟩
  | fault x => exact hc.elim
  | applied locked x => exact hc.elim
  | _ => cases hx

theorem must_profile (hP : J.Steady P) (userId : Uuid) (registeredAt : Time) :
    J.Must P (await (.createProfile userId registeredAt)) fun _ w => True ∧ P w := by
  refine must_quiet hP (fun w _ => ⟨.profile .created, _, rfl, rfl⟩) fun w c r w' hp hc hx => ?_
  cases c with
  | profile reply =>
    obtain rfl : reply = .created := hc
    cases hx
    exact ⟨(), rfl, trivial, rfl, rfl, rfl, rfl⟩
  | fault x => exact hc.elim
  | applied locked x => exact hc.elim
  | _ => cases hx

theorem must_uuid (hP : J.Steady P) : J.Must P (await .uuid) fun u w =>
    (u ∉ J.used ∧ J.supply.own J.pid u) ∧ P w := by
  obtain ⟨u₀, hu₀⟩ := J.supply.plenty J.pid J.used
  refine must_quiet hP (fun w _ => ⟨.uuid u₀, _, hu₀, rfl⟩) fun w c r w' hp hc hx => ?_
  cases c with
  | uuid u =>
    cases hx
    exact ⟨u, rfl, hc, rfl, rfl, rfl, rfl⟩
  | fault x => exact hc.elim
  | applied locked x => exact hc.elim
  | _ => cases hx

/-- A unit of work that goes through. -/
theorem must_tx (hP : J.Steady P) {t : RegistrationTx} {A : t.Resp → RegistrationWorld → Prop}
    (h : ∀ w locked, P w → ∃ a db, t.body J.cfg.format locked w.db = .ok (a, db) ∧
      J.Keeps w (w.commit J.pid db) ∧ A a (w.commit J.pid db)) : J.Must P (await (.tx t)) A := by
  have hexec : ∀ w locked, P w → ∃ a w', RegistrationWorld.exec J.cfg J.pid (.tx t) (.go locked) w =
      some (.ok a, w') ∧ J.Keeps w w' ∧ A a w' := by
    intro w locked hp
    obtain ⟨a, db, hbody, hkeeps, hA⟩ := h w locked hp
    refine ⟨a, w.commit J.pid db, ?_, hkeeps, hA⟩
    simp only [RegistrationWorld.exec, RegistrationWorld.transact, hbody]
  refine Brings.perform hP.stable (fun w hp => ?_) fun w c r w' hp hc hx => ?_
  · obtain ⟨a, w', hx, -⟩ := hexec w (fun _ => false) hp
    exact ⟨.go fun _ => false, _, fun _ => rfl, hx⟩
  · cases c with
    | go locked =>
      obtain ⟨a, w₁, hx', hkeeps, hA⟩ := hexec w locked hp
      have heq : RegistrationWorld.exec J.cfg J.pid (.tx t) (.go locked) w = some (r, w') := hx
      rw [heq] at hx'
      cases hx'
      exact ⟨hkeeps, hA⟩
    | fault x => exact hc.elim
    | applied locked x => exact hc.elim
    | _ => cases hx

/-- A unit of work that only reads. -/
theorem must_read (hP : J.Steady P) {t : RegistrationTx} {a : t.Resp}
    (h : ∀ w locked, P w → t.body J.cfg.format locked w.db = .ok (a, w.db)) :
    J.Must P (await (.tx t)) fun b w => b = a ∧ P w := by
  refine must_tx hP fun w locked hp => ⟨a, w.db, h w locked hp, ?_⟩
  have hsame : Same w (w.commit J.pid w.db) := ⟨rfl, rfl, rfl, rfl⟩
  exact ⟨.of_same hsame, rfl, hP.same _ _ hp hsame⟩

end Job

/-! ## Finalizing -/

/-- The operation is completed, and has its account. -/
def Enrolled (o : RegistrationOperation) (db : RegistrationDb) : Prop :=
  (∃ x ∈ db.operations, x.SameIdentity o ∧ x.status = .completed) ∧
    ∃ u ∈ db.users, u.id = o.userId ∧ u.email = o.email ∧ o.passwordHash = some u.passwordHash

theorem Enrolled.evolves {o : RegistrationOperation} {db db' : RegistrationDb} (h : Enrolled o db)
    (he : Evolves db db') : Enrolled o db' := by
  obtain ⟨⟨x, hx, hsame, hs⟩, u, hu, hrest⟩ := h
  obtain ⟨x', hx', -, hkeep, -⟩ := he.kept x hx
  obtain rfl := hkeep hs
  exact ⟨⟨x', hx', hsame, hs⟩, u, he.users u hu, hrest⟩

/-- The same operation, as a later claim or redrive left it. -/
structure SameOperation (a b : RegistrationOperation) : Prop where
  identity : a.SameIdentity b
  passwordHash : a.passwordHash = b.passwordHash

theorem SameOperation.enrolled {a b : RegistrationOperation} {db : RegistrationDb}
    (h : SameOperation a b) (ha : Enrolled a db) : Enrolled b db := by
  obtain ⟨⟨x, hx, hsame, hs⟩, u, hu, hid, hemail, hhash⟩ := ha
  exact ⟨⟨x, hx, hsame.trans h.identity, hs⟩, u, hu, hid.trans h.identity.userId,
    hemail.trans h.identity.email, h.passwordHash.symm.trans hhash⟩

section Finalize

variable {cfg : RegistrationConfig} {issued : RegisterUserCommand → Prop} {db : RegistrationDb}
  {o : RegistrationOperation} {ownerToken : Uuid} {completedAt : Time}

/-- The rows of a live claim's guard are the one row. -/
theorem owned_row (h : Accounts cfg.hasher issued db) (ho : o ∈ db.operations)
    (hown : o.ownedBy o.id ownerToken completedAt = true) : ∀ x ∈ db.operations,
      x.ownedBy o.id ownerToken completedAt = decide (x.id = o.id) := by
  intro x hx
  by_cases hid : x.id = o.id
  · obtain rfl := h.eq_of_collides hx ho (RegistrationOperation.collides_iff.mpr (.inl hid))
    rw [decide_eq_true hid, hown]
  · rw [decide_eq_false hid]
    simp [RegistrationOperation.ownedBy, hid]

/-- A finalization under a live claim goes through: it completes the row and
inserts the account and the event. -/
theorem finalizeBody_enrolls (h : Accounts cfg.hasher issued db) (ho : o ∈ db.operations)
    (hown : o.ownedBy o.id ownerToken completedAt = true) (user : User) (hid : user.id = o.userId)
    (hemail : user.email = o.email) {eventId : Uuid} (hfresh : ∀ m ∈ db.outbox, m.id ≠ eventId)
    (correlationId : Uuid) : ∃ db',
      RegistrationTx.finalizeBody cfg.format db o.id ownerToken completedAt user eventId
        correlationId = .ok (user, db') ∧
      db'.operations = Table.update (fun x => x.id = o.id) (.completeRow completedAt)
        db.operations ∧
      db'.users = db.users ++ [user] ∧ ∀ m ∈ db'.outbox, m ∈ db.outbox ∨ m.id = eventId := by
  have hopen : o.status ≠ .completed := by
    rw [(Registrations.ownedBy_iff.mp hown).2.1]
    decide
  have hnone := (h.no_account ho hopen).1
  have hnoEmail : ¬ (db.users.any fun u => u.email = user.email) = true := by
    simpa [hemail] using fun u hu => (hnone u hu).2
  have hnoId : ¬ (db.users.any fun u => u.id = user.id) = true := by
    simpa [hid] using fun u hu => (hnone u hu).1
  have hnoEvent : ¬ (db.outbox.any fun m => m.id = eventId) = true := by
    simpa using hfresh
  -- the one row that the claim guards is completed
  obtain ⟨out, hout⟩ := h.statementsPass.complete o.id ownerToken completedAt
  obtain ⟨done, rows⟩ := out
  obtain ⟨-, rfl, rfl⟩ := Registrations.finish_cases hout
  have hupdate : Table.update (RegistrationOperation.ownedBy o.id ownerToken completedAt)
      (.completeRow completedAt) db.operations =
      Table.update (fun x => x.id = o.id) (.completeRow completedAt) db.operations :=
    Table.update_congr (owned_row h ho hown)
  have hany : db.operations.any (RegistrationOperation.ownedBy o.id ownerToken completedAt) =
      true :=
    List.any_eq_true.mpr ⟨o, ho, hown⟩
  rw [hupdate, hany] at hout
  obtain ⟨event, hevent⟩ : ∃ event : UserRegisteredEvent,
      event = ⟨user.id, user.createdAt, correlationId, none, eventId⟩ := ⟨_, rfl⟩
  have hpublish : ∃ m : OutboxMessage, m.id = eventId ∧ Outbox.publish db.outbox cfg.format.topic
      (event.integration cfg.format) = .ok (db.outbox ++ [m]) := by
    refine ⟨_, ?_, if_neg ?_⟩
    · rw [hevent]
      rfl
    · rw [hevent]
      exact hnoEvent
  obtain ⟨m, hm, hpublish⟩ := hpublish
  refine ⟨⟨Table.update (fun x => x.id = o.id) (.completeRow completedAt) db.operations,
    db.users ++ [user], db.outbox ++ [m], db.registered ++ [event]⟩, ?_, rfl, rfl, ?_⟩
  · subst hevent
    simp only [RegistrationTx.finalizeBody, hout, Users.createIfAbsent, if_neg hnoEmail,
      if_neg hnoId]
    simp [bind, Except.bind, hpublish, pure, Except.pure]
  · intro m' hm'
    rcases List.mem_append.mp hm' with hold | hnew
    · exact .inl hold
    · rw [List.mem_singleton.mp hnew]
      exact .inr hm

end Finalize

/-! ## Resuming -/

namespace Job

variable {J : Job} {o : RegistrationOperation} {ownerToken : Uuid} {passwordHash : String}

/-- A claim on the operation of the job, live until the deadline. -/
structure Held (J : Job) (o : RegistrationOperation) (ownerToken : Uuid) (w : RegistrationWorld) :
    Prop where
  accounts : Accounts J.cfg.hasher J.issued w.db
  row : o ∈ w.db.operations
  status : o.status = .claimed
  token : o.claimToken = some ownerToken
  lease : ∃ expires, o.claimExpiresAt = some expires ∧ J.deadline ≤ expires
  early : w.clock < J.deadline
  /-- What the process has drawn before this run is known. -/
  drawn : ∀ m ∈ w.db.outbox, J.supply.own J.pid m.id → m.id ∈ J.used

theorem Held.owned {w : RegistrationWorld} (h : J.Held o ownerToken w) {time : Time}
    (htime : time < J.deadline) : o.ownedBy o.id ownerToken time = true := by
  obtain ⟨expires, hexpires, hle⟩ := h.lease
  refine Registrations.ownedBy_iff.mpr ⟨rfl, h.status, h.token, ?_⟩
  rw [hexpires]
  simpa using Nat.lt_of_lt_of_le htime hle

theorem steady_held (hid : o.id = J.operationId) : J.Steady (J.Held o ownerToken) where
  stable _ _ h hm := ⟨hm.accounts h.accounts, hm.row o h.row hid, h.status, h.token, h.lease,
    hm.early h.early, hm.drawn h.drawn⟩
  same w w' h hs := by
    refine ⟨?_, ?_, h.status, h.token, h.lease, ?_, ?_⟩
    · rw [hs.db]
      exact h.accounts
    · rw [hs.db]
      exact h.row
    · rw [hs.clock]
      exact h.early
    · rw [hs.db]
      exact h.drawn

theorem finalize_must (hid : o.id = J.operationId) (hhash : o.passwordHash = some passwordHash) :
    J.Must (J.Held o ownerToken) (finalize o ownerToken) fun user w =>
      user.id = o.userId ∧ Enrolled o w.db := by
  have hsteady : J.Steady (J.Held o ownerToken) := steady_held hid
  unfold finalize
  rw [hhash]
  refine (must_now (R := (· < J.deadline)) hsteady fun _ h => h.early).andThen fun completedAt => ?_
  refine Brings.given fun hcompletedAt => ?_
  refine (must_uuid hsteady).andThen fun eventId => Brings.given fun hevent => ?_
  refine (must_uuid hsteady).andThen fun correlationId => Brings.given fun _ => ?_
  refine must_tx hsteady fun w locked h => ?_
  -- nobody else draws the id of the event
  have hfresh : ∀ m ∈ w.db.outbox, m.id ≠ eventId := by
    intro m hm heq
    rw [← heq] at hevent
    exact hevent.1 (h.drawn m hm hevent.2)
  obtain ⟨db, hbody, hoperations, husers, houtbox⟩ := finalizeBody_enrolls h.accounts h.row
    (h.owned hcompletedAt) ⟨o.userId, o.email, passwordHash, .user, .active, o.createdAt, none⟩
    rfl rfl hfresh correlationId
  refine ⟨_, db, hbody, ⟨rfl, fun x hx hne => ?_, fun m hm => ?_, rfl, fun _ hn => hn,
    fun _ hn => .inl hn⟩, rfl, ?_⟩
  · show x ∈ db.operations
    rw [hoperations]
    exact Table.mem_update.mpr ⟨x, hx, .inr ⟨decide_eq_false (hid ▸ hne), rfl⟩⟩
  · rcases houtbox m hm with hold | hnew
    · exact .inl ⟨m, hold, rfl⟩
    · exact .inr (hnew ▸ hevent.2)
  · refine ⟨⟨o.completeRow completedAt, ?_, ⟨rfl, rfl, rfl, rfl, rfl⟩, rfl⟩,
      ⟨o.userId, o.email, passwordHash, .user, .active, o.createdAt, none⟩, ?_, rfl, rfl, hhash⟩
    · show _ ∈ db.operations
      rw [hoperations]
      exact Table.mem_update.mpr ⟨o, h.row, .inl ⟨decide_eq_true rfl, rfl⟩⟩
    · show _ ∈ db.users
      rw [husers]
      exact List.mem_append_right _ (List.mem_singleton_self _)

/-- **An undisturbed attempt completes its operation.** -/
theorem resume_must (hid : o.id = J.operationId) (hhash : o.passwordHash = some passwordHash) :
    J.Must (J.Held o ownerToken) (resumeExecute J.cfg o ownerToken) fun result w =>
      result = completedResult o.id o.userId ∧ Enrolled o w.db := by
  have hsteady : J.Steady (J.Held o ownerToken) := steady_held hid
  intro w h
  unfold resumeExecute
  rw [if_neg (by simp [h.status, h.token])]
  refine (must_profile hsteady o.userId o.createdAt).attempt (fun _ => ?_) w h
  refine Brings.given fun _ => ?_
  -- what Profile has accepted is finalized
  refine (finalize_must hid hhash).attempt fun user => ?_
  rintro w' ⟨huser, henrolled⟩
  exact ⟨by rw [huser], henrolled⟩

end Job

/-! ## The retry -/

section Retry

variable {cfg : RegistrationConfig} {issued : RegisterUserCommand → Prop}
  {o : RegistrationOperation} {ownerToken : Uuid} {claimedAt claimExpiresAt : Time}

/-- The statement of a retry takes the operation of its key. -/
theorem claimByKeyHash_takes {db : RegistrationDb} (h : Accounts cfg.hasher issued db)
    (ho : o ∈ db.operations) (heligible : o.eligible claimedAt = true)
    (hwindow : claimedAt < claimExpiresAt) :
    Registrations.claimByKeyHash db.operations o.keyHash ownerToken claimedAt claimExpiresAt =
      .ok (some (o.claim ownerToken claimExpiresAt),
        Table.update (fun x => x.id = o.id) (.claim ownerToken claimExpiresAt) db.operations) := by
  obtain ⟨target, htarget⟩ : ∃ target : RegistrationOperation → Bool,
      target = fun x => x.keyHash = o.keyHash && x.eligible claimedAt := ⟨_, rfl⟩
  have hone : ∀ x ∈ db.operations, target x = true ↔ x = o := by
    intro x hx
    rw [htarget, Bool.and_eq_true, decide_eq_true_eq]
    constructor
    · rintro ⟨hkey, -⟩
      exact h.eq_of_collides hx ho
        (RegistrationOperation.collides_iff.mpr (.inr (.inr (.inr hkey))))
    · rintro rfl
      exact ⟨rfl, heligible⟩
  have hid : ∀ x ∈ db.operations, target x = decide (x.id = o.id) := by
    intro x hx
    rw [Bool.eq_iff_iff, hone x hx, decide_eq_true_eq]
    constructor
    · rintro rfl
      rfl
    · exact fun heq => h.eq_of_collides hx ho (RegistrationOperation.collides_iff.mpr (.inl heq))
  have hlife : (o.claim ownerToken claimExpiresAt).lifecycle = true :=
    RegistrationOperation.lifecycle_claim (h.lifecycle o ho)
      (RegistrationTx.eligible_open heligible) _ _
  have hwrite : Registrations.write db.operations target (.claim ownerToken claimExpiresAt) =
      .ok (Table.update target (.claim ownerToken claimExpiresAt) db.operations) := by
    refine Registrations.write_passes fun x hx hp => ?_
    rw [(hone x hx).mp hp]
    exact hlife
  have hfilter : db.operations.filter target = [o] :=
    Table.filter_one (List.Nodup.of_map _ (ids_nodup h)) ho hone
  rw [Table.update_congr hid] at hwrite
  simp only [Registrations.claimByKeyHash, Registrations.window_passes hwindow, ← htarget, hwrite,
    hfilter]
  simp only [bind, Except.bind, RegistrationOperation.toDomain_ok hlife]
  rfl

/-- What is due stays due. -/
theorem eligible_mono {time : Time} (h : o.eligible claimedAt = true) (hle : claimedAt ≤ time) :
    o.eligible time = true := by
  simp only [RegistrationOperation.eligible, Bool.or_eq_true, Bool.and_eq_true,
    decide_eq_true_eq] at h ⊢
  rcases h with ⟨hs, havailable⟩ | ⟨hs, hexpired⟩
  · exact .inl ⟨hs, havailable.trans hle⟩
  · refine .inr ⟨hs, ?_⟩
    cases hexpires : o.claimExpiresAt with
    | none => simp [hexpires] at hexpired
    | some expires =>
      simp only [hexpires, Option.any_some, decide_eq_true_eq] at hexpired ⊢
      exact hexpired.trans hle

/-- The request that an operation goes back to. -/
structure Presents (cfg : RegistrationConfig) (command : RegisterUserCommand)
    (o : RegistrationOperation) : Prop where
  key : command.keyHash = o.keyHash
  email : command.email = o.email
  password : ∀ h, o.passwordHash = some h → cfg.hasher.verify command.password h = true

theorem SameOperation.presents {a b : RegistrationOperation} {command : RegisterUserCommand}
    (h : SameOperation a b) (hb : Presents cfg command b) : Presents cfg command a :=
  ⟨hb.key.trans h.identity.keyHash.symm, hb.email.trans h.identity.email.symm,
    fun p hp => hb.password p (h.passwordHash ▸ hp)⟩

end Retry

namespace Job

variable {J : Job} {o : RegistrationOperation} {passwordHash : String} {start : Time}

/-- The operation of the job is due. -/
structure Due (J : Job) (start : Time) (o : RegistrationOperation) (w : RegistrationWorld) :
    Prop where
  accounts : Accounts J.cfg.hasher J.issued w.db
  row : o ∈ w.db.operations
  eligible : o.eligible w.clock = true
  since : start ≤ w.clock
  early : w.clock < J.deadline
  drawn : ∀ m ∈ w.db.outbox, J.supply.own J.pid m.id → m.id ∈ J.used

theorem steady_due (hid : o.id = J.operationId) : J.Steady (J.Due start o) where
  stable _ _ h hm := ⟨hm.accounts h.accounts, hm.row o h.row hid,
    eligible_mono h.eligible hm.clock, h.since.trans hm.clock, hm.early h.early,
    hm.drawn h.drawn⟩
  same w w' h hs := by
    refine ⟨?_, ?_, ?_, ?_, ?_, ?_⟩
    · rw [hs.db]
      exact h.accounts
    · rw [hs.db]
      exact h.row
    · rw [hs.clock]
      exact h.eligible
    · rw [hs.clock]
      exact h.since
    · rw [hs.clock]
      exact h.early
    · rw [hs.db]
      exact h.drawn

/-- The claim of a retry, which lasts until the deadline. -/
theorem claim_must (hid : o.id = J.operationId) (hpos : 0 < J.cfg.claimLease)
    (hlease : J.deadline ≤ start + J.cfg.claimLease) (ownerToken : Uuid) {claimedAt : Time}
    (heligible : o.eligible claimedAt = true) (hsince : start ≤ claimedAt) :
    J.Must (J.Due start o)
      (await (.tx (.claimByKeyHash o.keyHash ownerToken claimedAt (claimedAt + J.cfg.claimLease))))
      fun claimed w => ∃ x, claimed = some x ∧ SameOperation x o ∧ J.Held x ownerToken w := by
  have hsteady : J.Steady (J.Due start o) := steady_due hid
  have hwindow : claimedAt < claimedAt + J.cfg.claimLease := Nat.lt_add_of_pos_right hpos
  refine must_tx hsteady fun w locked h => ?_
  obtain ⟨claim, hclaim⟩ : ∃ claim, claim = RegistrationOperation.claim ownerToken
      (claimedAt + J.cfg.claimLease) := ⟨_, rfl⟩
  have hbody : RegistrationTx.body J.cfg.format locked w.db (.claimByKeyHash o.keyHash ownerToken
      claimedAt (claimedAt + J.cfg.claimLease)) = .ok (some (claim o), { w.db with
        operations := Table.update (fun x => x.id = o.id) claim w.db.operations }) := by
    simp only [RegistrationTx.body, claimByKeyHash_takes h.accounts h.row heligible hwindow, hclaim]
    rfl
  -- the tables are consistent as before
  have hopen : ∀ x ∈ w.db.operations, decide (x.id = o.id) = true → x.nonterminal = true := by
    intro x hx hsame
    obtain rfl := h.accounts.eq_of_collides hx h.row
      (RegistrationOperation.collides_iff.mpr (.inl (of_decide_eq_true hsame)))
    exact RegistrationTx.eligible_open heligible
  have hacc : Accounts J.cfg.hasher J.issued { w.db with
      operations := Table.update (fun x => x.id = o.id) claim w.db.operations } := by
    rw [hclaim]
    exact (RegistrationTx.claim_keeps h.accounts hopen).1
  refine ⟨_, _, hbody, ⟨rfl, fun x hx hne => ?_, fun m hm => .inl ⟨m, hm, rfl⟩, rfl,
    fun _ hn => hn, fun _ hn => .inl hn⟩, claim o, rfl, ?_, hacc, ?_, ?_, ?_,
    ⟨claimedAt + J.cfg.claimLease, ?_, ?_⟩, h.early, h.drawn⟩
  · exact Table.mem_update.mpr ⟨x, hx, .inr ⟨decide_eq_false (hid ▸ hne), rfl⟩⟩
  · rw [hclaim]
    exact ⟨⟨rfl, rfl, rfl, rfl, rfl⟩, rfl⟩
  · exact Table.mem_update.mpr ⟨o, h.row, .inl ⟨decide_eq_true rfl, rfl⟩⟩
  · rw [hclaim]
    rfl
  · rw [hclaim]
    rfl
  · rw [hclaim]
    rfl
  · exact hlease.trans (Nat.add_le_add_right hsince _)

theorem claimExisting_must (hid : o.id = J.operationId) (hpos : 0 < J.cfg.claimLease)
    (hlease : J.deadline ≤ start + J.cfg.claimLease) (hhash : o.passwordHash = some passwordHash) :
    J.Must (J.Due start o) (claimExisting J.cfg o) fun result w =>
      result = completedResult o.id o.userId ∧ Enrolled o w.db := by
  have hsteady : J.Steady (J.Due start o) := steady_due hid
  unfold claimExisting
  have hnow : J.Must (J.Due start o) (await .now) fun claimedAt w =>
      (o.eligible claimedAt = true ∧ start ≤ claimedAt) ∧ J.Due start o w :=
    must_now (R := fun claimedAt => o.eligible claimedAt = true ∧ start ≤ claimedAt) hsteady
      fun _ h => ⟨h.eligible, h.since⟩
  refine hnow.andThen fun claimedAt => Brings.given fun hclaimedAt => ?_
  refine (must_uuid hsteady).andThen fun ownerToken => Brings.given fun _ => ?_
  refine (claim_must hid hpos hlease ownerToken hclaimedAt.1 hclaimedAt.2).andThen fun claimed => ?_
  rintro w ⟨x, rfl, hsame, hheld⟩
  have hxid : x.id = J.operationId := hsame.identity.id.trans hid
  refine (resume_must hxid (hsame.passwordHash.trans hhash) w hheld).mono fun r w' hr => ?_
  cases r with
  | error y => exact hr
  | ok result =>
    refine ⟨?_, hsame.enrolled hr.2⟩
    rw [hr.1, hsame.identity.id, hsame.identity.userId]

/-- **An undisturbed retry completes the operation.** -/
theorem registerExecute_must {command : RegisterUserCommand} (hid : o.id = J.operationId)
    (hpos : 0 < J.cfg.claimLease) (hlease : J.deadline ≤ start + J.cfg.claimLease)
    (hcommand : Presents J.cfg command o) (hhash : o.passwordHash = some passwordHash) :
    J.Must (J.Due start o) (registerExecute J.cfg command) fun result w =>
      result = completedResult o.id o.userId ∧ Enrolled o w.db := by
  have hsteady : J.Steady (J.Due start o) := steady_due hid
  have hload : J.Must (J.Due start o) (await (.tx (.getByKeyHash command.keyHash)))
      fun existing w => existing = some o ∧ J.Due start o w := by
    refine must_read hsteady fun w locked h => ?_
    simp only [RegistrationTx.body, hcommand.key, getByKeyHash_eq h.accounts h.row]
    rfl
  unfold registerExecute
  refine hload.andThen fun existing => Brings.given ?_
  rintro rfl
  show J.Must (J.Due start o) (resumeExisting J.cfg o command.email command.password) _
  have hpassword : passwordHashOf o = .ret passwordHash := by
    simp only [passwordHashOf, hhash]
    rfl
  unfold resumeExisting
  rw [if_neg (by simp [hcommand.email]), hpassword]
  show J.Must (J.Due start o) ((await (.verify command.password passwordHash)).bind _) _
  refine (must_verify hsteady command.password passwordHash).andThen fun verified =>
    Brings.given fun hverified => ?_
  rw [hcommand.password passwordHash hhash] at hverified
  rw [hverified]
  show J.Must (J.Due start o) (answerExisting J.cfg o) _
  intro w h
  have hanswer : answerExisting J.cfg o = claimExisting J.cfg o := by
    have hopen := RegistrationTx.eligible_open h.eligible
    unfold answerExisting
    cases hs : o.status with
    | pending => rfl
    | claimed => rfl
    | completed => simp [RegistrationOperation.nonterminal, hs] at hopen
    | blocked => simp [RegistrationOperation.nonterminal, hs] at hopen
  rw [hanswer]
  exact claimExisting_must hid hpos hlease hhash w h

end Job

/-! ## Every reachable state -/

section Runs

variable {cfg : RegistrationConfig} {i : Nat} {o : RegistrationOperation} {clock : Time}
  {callees : Nat → Option RegistrationCallee} {w : RegistrationWorld} {α : Type}
  {C : Config registrationSig Exn RegistrationWorld RegistrationAnswer}

/-- Waiting for long enough. -/
theorem waits_reach (d : Nat) : RegistrationReach cfg C
    ⟨{ C.shared with clock := C.shared.clock + d }, C.pool⟩ :=
  .single ⟨.env (.tick d), rfl, trivial⟩

/-- One await that is answered. -/
theorem await_reach {e : RegistrationEff} {f : e.Resp → Registration RegistrationAnswer}
    {c : RegistrationChoice} {a : e.Resp} (hi : C.pool i = some ((await e).bind f))
    (hx : RegistrationWorld.exec cfg i e c C.shared = some (.ok a, w)) :
    RegistrationReach cfg C ⟨w, Function.update C.pool i (some (f a))⟩ := by
  refine .single ⟨.act i c, ?_, trivial⟩
  have hop : C.pool i = some (.op e fun r => (Prog.ofExcept r).bind f) := hi
  show Machine.act (registrationMachine cfg) i c C = _
  simp only [Machine.act, hop]
  exact congrArg (Option.map _) hx

/-- A redrive of a blocked operation makes it due at once. -/
theorem redrive_reach (h : RegistrationReach cfg (registrationStart cfg clock callees) C)
    (ho : o ∈ C.shared.db.operations) (hs : o.status = .blocked) {j : Nat}
    (hj : C.pool j = some (RegistrationCallee.program cfg (.redrive o.id))) :
    ∃ C', RegistrationReach cfg C C' ∧ (∀ k, k ≠ j → C'.pool k = C.pool k) ∧
      o.redriveRow C.shared.clock ∈ C'.shared.db.operations ∧
      C'.shared.clock = C.shared.clock := by
  have hacc := (registration_good h).inv.accounts
  -- the statement goes through, and blocked rows of that id are one
  obtain ⟨out, hout⟩ := hacc.statementsPass.redriveBlocked o.id C.shared.clock
  obtain ⟨redriven, rows⟩ := out
  obtain ⟨-, hrows⟩ := Registrations.redriveBlocked_cases hout
  have hmem : o.redriveRow C.shared.clock ∈ rows := by
    rw [hrows]
    refine Table.mem_update.mpr ⟨o, ho, .inl ⟨?_, rfl⟩⟩
    simp [Registrations.redrivable, hs]
  have hprogram : C.pool j = some ((await .now).bind fun availableAt =>
      (await (.tx (.redriveBlocked o.id availableAt))).bind fun b => .ret (.redriven b)) :=
    hj.trans (congrArg some (Prog.bind_assoc ..))
  have hnow := await_reach (c := .go fun _ => false) hprogram (rfl : RegistrationWorld.exec cfg j
    .now (.go fun _ => false) C.shared = some (.ok C.shared.clock, C.shared))
  have hexec : RegistrationWorld.exec cfg j (.tx (.redriveBlocked o.id C.shared.clock))
      (.go fun _ => false) C.shared =
      some (.ok redriven, C.shared.commit j { C.shared.db with operations := rows }) := by
    simp only [RegistrationWorld.exec, RegistrationWorld.transact, RegistrationTx.body, hout]
    rfl
  refine ⟨_, hnow.trans (await_reach (Function.update_self ..) hexec), fun k hk => ?_, hmem, rfl⟩
  simp only [Function.update_of_ne hk]

/-- An unfinished operation becomes due, at the latest after a redrive. -/
theorem comes_due (h : RegistrationReach cfg (registrationStart cfg clock callees) C)
    (ho : o ∈ C.shared.db.operations) (hopen : o.status ≠ .completed)
    (hredrive : o.status = .blocked → ∃ j, j ≠ i ∧
      C.pool j = some (RegistrationCallee.program cfg (.redrive o.id))) :
    ∃ C' o', RegistrationReach cfg C C' ∧ C'.pool i = C.pool i ∧
      o' ∈ C'.shared.db.operations ∧ SameOperation o' o ∧ o'.eligible C'.shared.clock = true := by
  have hacc := (registration_good h).inv.accounts
  have hlife := hacc.lifecycle o ho
  cases hs : o.status with
  | completed => exact absurd hs hopen
  | pending =>
    refine ⟨_, o, waits_reach o.availableAt, rfl, ho, ⟨.refl o, rfl⟩, ?_⟩
    simp [RegistrationOperation.eligible, hs]
  | claimed =>
    obtain ⟨expires, hexpires⟩ : ∃ expires, o.claimExpiresAt = some expires := by
      refine Option.isSome_iff_exists.mp ?_
      simp only [RegistrationOperation.lifecycle, hs] at hlife
      simp_all
    refine ⟨_, o, waits_reach expires, rfl, ho, ⟨.refl o, rfl⟩, ?_⟩
    simp [RegistrationOperation.eligible, hs, hexpires]
  | blocked =>
    obtain ⟨j, hj, hpool⟩ := hredrive hs
    obtain ⟨C', hreach, hothers, hrow, hclock⟩ := redrive_reach h ho hs hpool
    refine ⟨C', o.redriveRow C.shared.clock, hreach, hothers i hj.symm, hrow,
      ⟨⟨rfl, rfl, rfl, rfl, rfl⟩, rfl⟩, ?_⟩
    rw [hclock]
    simp [RegistrationOperation.eligible, RegistrationOperation.redriveRow]

/-- The retry has completed operation `o` and says so. -/
def Completed (i : Nat) (o : RegistrationOperation)
    (C : Config registrationSig Exn RegistrationWorld RegistrationAnswer) : Prop :=
  C.pool i = some (.ret (.result (completedResult o.id o.userId))) ∧ Enrolled o C.shared.db

/-- A retry that only time goes by completes what is due. -/
theorem retry_inevitable (h : RegistrationReach cfg (registrationStart cfg clock callees) C)
    (hlease : 0 < cfg.claimLease) {o' : RegistrationOperation}
    (ho' : o' ∈ C.shared.db.operations) (hsame : SameOperation o' o)
    (heligible : o'.eligible C.shared.clock = true) {command : RegisterUserCommand}
    (hi : C.pool i = some (RegistrationCallee.program cfg (.register command)))
    (hcommand : Presents cfg command o) (supply : UuidSupply) :
    Inevitable (calm cfg supply (· = i) C.shared
      (C.shared.clock + cfg.claimLease)).Step (Completed i o) C := by
  have hacc := (registration_good h).inv.accounts
  -- what is due is not completed, so its hash is there
  have hne := RegistrationTx.ne_completed_of_nonterminal (RegistrationTx.eligible_open heligible)
  obtain ⟨passwordHash, hhash⟩ : ∃ p, o'.passwordHash = some p := by
    refine Option.ne_none_iff_exists'.mp fun hnone => ?_
    exact hne ((hacc.passwordHash_none ho').mp hnone)
  let J : Job := ⟨cfg, Issued callees, supply, eventIds C.shared, C.shared.clock + cfg.claimLease,
    i, o'.id, fun _ _ => False⟩
  have hearly : C.shared.clock < C.shared.clock + cfg.claimLease := Nat.lt_add_of_pos_right hlease
  have hdue : J.Due C.shared.clock o' C.shared :=
    ⟨hacc, ho', heligible, Nat.le_refl _, hearly, fun m hm _ => List.mem_map_of_mem hm⟩
  have hmust := Job.registerExecute_must (J := J) rfl hlease (Nat.le_refl _)
    (hsame.presents hcommand) hhash C.shared hdue
  have hprogram : C.pool J.pid = some ((registerExecute J.cfg command).bind fun result =>
    .ret (.result result)) := hi
  have hrun := hmust.inevitable (B := fun w => w.clock < J.deadline)
    (K := calm cfg supply (· = i) C.shared (C.shared.clock + cfg.claimLease))
    hprogram rfl (fun _ => Iff.rfl) hearly
    (fun _ => waits_now) (fun w w' _ hw => ?_) (fun w w' hw hk => ?_) ?_
  · refine hrun.trans ?_
    rintro C' ⟨⟨r, hr, hpool⟩, -, -⟩
    cases r with
    | error x => exact hr.elim
    | ok result =>
      obtain ⟨rfl, henrolled⟩ := hr
      rw [hsame.identity.id, hsame.identity.userId] at hpool
      exact .now ⟨hpool, hsame.enrolled henrolled⟩
  · have hmeanwhile : J.Meanwhile w w' := .of_waits hw
    obtain ⟨elapsed, hlt, rfl⟩ := hw
    exact ⟨hlt, hmeanwhile⟩
  · rw [hk.clock]
    exact hw
  · exact fun j e k c s hj hji => absurd hj hji

/-- **No registration is stuck.** From every reachable state, an unfinished
operation becomes due, after a redrive if it is blocked, with the retry of
its request not begun. From there the retry inevitably completes it, whatever
it draws and however time passes short of the lease, if nothing disturbs it. -/
theorem registration_recoverable (cfg : RegistrationConfig) (hlease : 0 < cfg.claimLease)
    (clock : Time) (callees : Nat → Option RegistrationCallee)
    (C : Config registrationSig Exn RegistrationWorld RegistrationAnswer)
    (h : RegistrationReach cfg (registrationStart cfg clock callees) C)
    (o : RegistrationOperation) (ho : o ∈ C.shared.db.operations) (hopen : o.status ≠ .completed)
    (i : Nat) (command : RegisterUserCommand)
    (hi : C.pool i = some (RegistrationCallee.program cfg (.register command)))
    (hcommand : Presents cfg command o)
    (hredrive : o.status = .blocked → ∃ j, j ≠ i ∧
      C.pool j = some (RegistrationCallee.program cfg (.redrive o.id))) :
    ∃ C' o', RegistrationReach cfg C C' ∧ C'.pool i = C.pool i ∧
      o' ∈ C'.shared.db.operations ∧ SameOperation o' o ∧
      o'.eligible C'.shared.clock = true ∧
      (∀ supply : UuidSupply, Inevitable (calm cfg supply (· = i) C'.shared
        (C'.shared.clock + cfg.claimLease)).Step (Completed i o) C') ∧
      ∃ C'', RegistrationReach cfg C' C'' ∧ Completed i o C'' := by
  obtain ⟨C', o', hreach, hpool, ho', hsame, heligible⟩ := comes_due (i := i) h ho hopen hredrive
  have hretry : ∀ supply : UuidSupply, Inevitable (calm cfg supply (· = i) C'.shared
      (C'.shared.clock + cfg.claimLease)).Step (Completed i o) C' :=
    retry_inevitable (h.trans hreach) hlease ho' hsame heligible (hpool.trans hi) hcommand
  obtain ⟨C'', hrun, hdone⟩ := (hretry .any).reaches
  exact ⟨C', o', hreach, hpool, ho', hsame, heligible, hretry, C'', calm_reach hrun, hdone⟩

end Runs

namespace Sample

/-- A caller, and a retry with the same request. -/
def retrying : Nat → Option RegistrationCallee
  | 0 => some (.register command)
  | 1 => some (.register command)
  | _ => none

/-- The caller creates the operation, and its process ends there. -/
def abandoned : List (registrationMachine registration).Label :=
  registered₀.take 8 ++ [.crash 0]

/-- The operation that is left. -/
def abandonedRow : RegistrationOperation where
  id := 1
  userId := 2
  email := command.email
  passwordHash := some (hasher.hash command.password "x")
  keyHash := command.keyHash
  status := .claimed
  attempts := 0
  availableAt := 5
  claimToken := some 7
  claimExpiresAt := some 35
  lastErrorClass := none
  terminalAt := none
  redriveCount := 0
  createdAt := 5

theorem abandonedRow_presents : Presents registration command abandonedRow := by
  refine ⟨rfl, rfl, fun h hh => ?_⟩
  cases hh
  exact (hasher_correct command.password command.password "x").mpr rfl

end Sample

open Sample in
theorem registration_recoverable_abandoned :
    ∃ C : Config registrationSig Exn RegistrationWorld RegistrationAnswer,
      (registrationMachine registration).run anyStep
        (registrationStart registration 5 retrying) abandoned = some C ∧
      C.pool 0 = none ∧ C.shared.db.operations = [abandonedRow] ∧
      ∃ C' o', RegistrationReach registration C C' ∧ o' ∈ C'.shared.db.operations ∧
        o'.eligible C'.shared.clock = true ∧
        Inevitable (calm registration .any (· = 1) C'.shared (C'.shared.clock + 30)).Step
          (Completed 1 abandonedRow) C' := by
  obtain ⟨C, hrun, hnone, hrows, hretry⟩ :
      ∃ C : Config registrationSig Exn RegistrationWorld RegistrationAnswer,
        (registrationMachine registration).run anyStep
          (registrationStart registration 5 retrying) abandoned = some C ∧
        C.pool 0 = none ∧ C.shared.db.operations = [abandonedRow] ∧
        C.pool 1 = some (RegistrationCallee.program registration (.register command)) := by
    refine ⟨_, by with_unfolding_all rfl, rfl, by with_unfolding_all rfl, rfl⟩
  have hany : ∀ w w', anyStep w w' = true → True := fun _ _ _ => trivial
  have hreach := Machine.reach_of_run _ hany abandoned _ _ hrun
  obtain ⟨C', o', hreach', -, hrow, -, hdue, hinevitable, -⟩ := registration_recoverable
    registration (by decide) 5 retrying C hreach abandonedRow (by simp [hrows]) (by decide) 1
    command hretry abandonedRow_presents fun hblocked => by cases hblocked
  exact ⟨C, hrun, hnone, hrows, C', o', hreach', hrow, hdue, hinevitable .any⟩

end IdentityService
