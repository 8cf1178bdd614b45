import IdentityService.Registration.ExactlyOnce

/-!
# Registration is idempotent

One key stands for one operation and one user, whatever path a call comes
to it by: the first lookup, the insert it lost, or the email that was
taken. And a key that is reused for another email or another password is
refused without a trace.
-/

namespace IdentityService

open Concurrent

variable {cfg : RegistrationConfig} {issued : RegisterUserCommand → Prop} {i : Nat}
  {command : RegisterUserCommand}

/-- What is assumed of the password hasher. -/
def PasswordHasher.Correct (hasher : PasswordHasher) : Prop :=
  ∀ p q salt, hasher.verify p (hasher.hash q salt) = true ↔ p = q

/-- The key belongs to an operation of another email or another password. -/
def Mismatch (hasher : PasswordHasher) (command : RegisterUserCommand) (db : RegistrationDb) :
    Prop :=
  ∃ o ∈ db.operations, o.keyHash = command.keyHash ∧
    (command.email ≠ o.email ∨ ∃ password salt, command.password ≠ password ∧
      db.storedHash o = some (hasher.hash password salt))

theorem lasts_mismatch (hasher : PasswordHasher) (command : RegisterUserCommand) :
    Lasts fun w => Mismatch hasher command w.db := by
  rintro w w' hg ⟨o, ho, hk, hdiff⟩
  obtain ⟨o', ho', hsame, -, hhash⟩ := hg.db.kept o ho
  refine ⟨o', ho', hsame.keyHash.trans hk, ?_⟩
  rw [hhash, hsame.email]
  exact hdiff

/-! ## A refused call -/

/-- Since `before`, process `i` has changed nothing. -/
def Untouched (i : Nat) (before : List RegistrationChange) (w : RegistrationWorld) : Prop :=
  ∀ c ∈ w.history, c.pid = i → c ∈ before ∨ c.before = c.after

variable {before : List RegistrationChange}

theorem stable_untouched : (registrationSpec cfg issued).Stable i (Untouched i before) := by
  intro w w' _ _ _ _ hr hquiet c hc hpid
  exact hquiet c (hr.history c hc hpid) hpid

/-- The rules, with process `i` watched. -/
abbrev refusalSpec (cfg : RegistrationConfig) (issued : RegisterUserCommand → Prop) (i : Nat)
    (before : List RegistrationChange) : Spec registrationSig Exn RegistrationWorld :=
  (registrationSpec cfg issued).watch (Untouched i before)

/-- A value satisfies `A`, and an exception is an injected failure. -/
def Unfailed {α : Type} (i : Nat) (A : α → RegistrationWorld → Prop) :
    Except Exn α → RegistrationWorld → Prop
  | .ok a => A a
  | .error _ => fun w => w.failed i = true

theorem stable_unfailed {α : Type} {A : α → RegistrationWorld → Prop} (hA : ∀ a, Lasts (A a))
    (r : Except Exn α) : (refusalSpec cfg issued i before).Stable i (Unfailed i A r) := by
  cases r with
  | ok a => exact (hA a).stable.watch
  | error x => exact fun _ _ _ _ _ _ hr hf => hr.failed.trans hf

variable {P : RegistrationWorld → Prop}

theorem await_refused {e : RegistrationEff} {A : e.Resp → RegistrationWorld → Prop}
    (hA : ∀ a, Lasts (A a))
    (h : ∀ w c r w', RegistrationInv cfg issued w → Untouched i before w → P w →
      RegistrationWorld.exec cfg i e c w = some (r, w') →
      (registrationSpec cfg issued).Owes i w w' ∧ Untouched i before w' ∧ Unfailed i A r w') :
    (refusalSpec cfg issued i before).Safe i (await e) P (Unfailed i A) := by
  refine Spec.Safe.perform fun w c r w' hw hp hx _ => ?_
  obtain ⟨ho, hquiet, ha⟩ := h w c r w' hw.1 hw.2 hp hx
  exact ⟨ho.watch hquiet, Unfailed i A r, stable_unfailed hA r, ha, fun _ _ h => h⟩

/-- A read that cannot fail by itself. -/
theorem read_refused {t : RegistrationTx} {A : t.Resp → RegistrationWorld → Prop}
    (hA : ∀ a, Lasts (A a)) (hprep : ∀ db, t.Prepared cfg.hasher issued db)
    (hok : ∀ w, RegistrationInv cfg issued w → P w → ∀ locked, ∃ a,
      t.body cfg.format locked w.db = .ok (a, w.db) ∧ A a (w.commit i w.db)) :
    (refusalSpec cfg issued i before).Safe i (await (.tx t)) P (Unfailed i A) := by
  refine await_refused hA fun w c r w' hw hquiet hp hx => ?_
  refine ⟨(tx_owes hw (hprep w.db) hx).1, ?_⟩
  -- a read that goes through is recorded as a change of nothing
  have hcommit : Untouched i before (w.commit i w.db) := by
    intro c hc hpid
    rcases List.mem_append.mp hc with hc | hc
    · exact hquiet c hc hpid
    · rw [List.mem_singleton.mp hc]
      exact .inr rfl
  rcases exec_tx hx with ⟨locked, a, db, hb, rfl, rfl⟩ | ⟨locked, a, db, x, hb, rfl, -, rfl⟩ |
    ⟨locked, x, hb, rfl, rfl⟩ | ⟨locked, x, y, hb, rfl, -, rfl⟩ | ⟨x, rfl, -, rfl⟩
  · obtain ⟨a', hb', ha⟩ := hok w hw hp locked
    rw [hb] at hb'
    cases hb'
    exact ⟨hcommit, ha⟩
  · obtain ⟨a', hb', -⟩ := hok w hw hp locked
    rw [hb] at hb'
    cases hb'
    exact ⟨hcommit, fail_self⟩
  · obtain ⟨a', hb', -⟩ := hok w hw hp locked
    rw [hb] at hb'
    cases hb'
  · exact ⟨hquiet, fail_self⟩
  · exact ⟨hquiet, fail_self⟩

theorem verify_refused (password passwordHash : String) :
    (refusalSpec cfg issued i before).Safe i (await (.verify password passwordHash)) (fun _ => True)
      (Unfailed i fun b _ => b = cfg.hasher.verify password passwordHash) := by
  refine await_refused (fun _ => Lasts.const _) fun w c r w' hw hquiet _ hx => ?_
  obtain ⟨⟨hdb, htasks, hraised, hhist, hfail⟩, -⟩ := exec_quiet rfl hx
  refine ⟨owes_quiet hw hdb (by rw [htasks]; exact hw.tasks) (by rw [hraised]; exact hw.calm) hhist
    hfail, ?_, ?_⟩
  · intro c hc
    rw [hhist] at hc
    exact hquiet c hc
  · cases c with
    | go locked =>
        cases hx
        rfl
    | fault x =>
        obtain ⟨-, rfl, rfl⟩ := exec_fault hx
        exact fail_self
    | _ => cases hx

/-- The operation of the key, found by the one lookup there is. -/
theorem getByKeyHash_eq {db : RegistrationDb} (h : Accounts cfg.hasher issued db)
    {o : RegistrationOperation} (ho : o ∈ db.operations) :
    Registrations.getByKeyHash db.operations o.keyHash = .ok (some o) := by
  have hfind : (db.operations.find? fun x => x.keyHash = o.keyHash) = some o := by
    cases hf : db.operations.find? fun x => x.keyHash = o.keyHash with
    | none =>
        have hno := List.find?_eq_none.mp hf o ho
        simp at hno
    | some x =>
        have hk : x.keyHash = o.keyHash := by simpa using List.find?_some hf
        have hcol : x.collides o = true :=
          RegistrationOperation.collides_iff.mpr (.inr (.inr (.inr hk)))
        rw [h.eq_of_collides (List.mem_of_find?_eq_some hf) ho hcol]
  simp only [Registrations.getByKeyHash, hfind,
    RegistrationOperation.toDomain_ok (h.lifecycle o ho)]
  rfl

/-- What is known of the operation once it is loaded. -/
def Offends (hasher : PasswordHasher) (command : RegisterUserCommand) (o : RegistrationOperation)
    (w : RegistrationWorld) : Prop :=
  (o.passwordHash = none → o.status = .completed ∧ o ∈ w.db.operations) ∧
    (command.email ≠ o.email ∨ ∃ password salt, command.password ≠ password ∧
      w.db.storedHash o = some (hasher.hash password salt))

theorem lasts_offends (hasher : PasswordHasher) (o : RegistrationOperation) :
    Lasts (Offends hasher command o) := by
  rintro w w' hg ⟨hdone, hdiff⟩
  cases hpw : o.passwordHash with
  | some h =>
      refine ⟨fun hnone => ?_, ?_⟩
      · rw [hpw] at hnone
        cases hnone
      · simpa [RegistrationDb.storedHash, hpw] using hdiff
  | none =>
      obtain ⟨hs, ho⟩ := hdone hpw
      obtain ⟨o', ho', -, hkeep, hhash⟩ := hg.db.kept o ho
      obtain rfl := hkeep hs
      rw [← hhash] at hdiff
      exact ⟨fun _ => ⟨hs, ho'⟩, hdiff⟩

theorem load_refused : (refusalSpec cfg issued i before).Safe i
    (await (.tx (.getByKeyHash command.keyHash)))
    (fun w => Mismatch cfg.hasher command w.db)
    (Unfailed i fun r w => ∃ o, r = some o ∧ Offends cfg.hasher command o w) := by
  refine read_refused (fun r => ?_) (fun _ => trivial) ?_
  · exact fun w w' hg ⟨o, hr, ho⟩ => ⟨o, hr, lasts_offends _ o w w' hg ho⟩
  · rintro w hw ⟨o, ho, hk, hdiff⟩ locked
    refine ⟨some o, ?_, o, rfl, ?_, hdiff⟩
    · simp only [RegistrationTx.body, ← hk, getByKeyHash_eq hw.accounts ho]
      rfl
    · exact fun hnone => ⟨(hw.accounts.passwordHash_none ho).mp hnone, ho⟩

/-- The hash of a password other than the one presented. -/
def Foreign (hasher : PasswordHasher) (command : RegisterUserCommand) (passwordHash : String) :
    Prop :=
  ∃ password salt, command.password ≠ password ∧ passwordHash = hasher.hash password salt

theorem passwordHashOf_refused {o : RegistrationOperation} (he : o.email = command.email) :
    (refusalSpec cfg issued i before).Safe i (passwordHashOf o) (Offends cfg.hasher command o)
      (Unfailed i fun h _ => Foreign cfg.hasher command h) := by
  simp only [passwordHashOf]
  cases hpw : o.passwordHash with
  | some h =>
      rintro w - ⟨-, hemail | ⟨password, salt, hne, hh⟩⟩
      · exact absurd he.symm hemail
      · simp only [RegistrationDb.storedHash, hpw, Option.some.injEq] at hh
        exact ⟨password, salt, hne, hh⟩
  | none =>
      have hfound : (refusalSpec cfg issued i before).Safe i (await (.tx (.getUser o.userId)))
          (Offends cfg.hasher command o)
          (Unfailed i fun r _ => ∃ user, r = some user ∧
            Foreign cfg.hasher command user.passwordHash) := by
        refine read_refused (fun r => Lasts.const _) (fun _ => trivial) ?_
        rintro w hw ⟨-, hemail | ⟨password, salt, hne, hh⟩⟩ locked
        · exact absurd he.symm hemail
        · simp only [RegistrationDb.storedHash, hpw, Option.map_eq_some_iff] at hh
          obtain ⟨user, hfind, huser⟩ := hh
          exact ⟨some user, by simp [RegistrationTx.body, hfind], user, rfl, password, salt, hne,
            huser⟩
      refine hfound.bind (fun r => ?_) fun _ _ _ h => h
      refine Spec.Safe.assuming (fun _ _ h => h) ?_
      rintro ⟨user, rfl, hforeign⟩
      exact fun _ _ _ => hforeign

/-- How a refused call may end. -/
def RefusalEnds {α : Type} (i : Nat) (r : Except Exn α) (w : RegistrationWorld) : Prop :=
  r = .error .idempotencyKeyConflict ∨ w.failed i = true

theorem registerExecute_refused (hv : cfg.hasher.Correct) :
    (refusalSpec cfg issued i before).Safe i (registerExecute cfg command)
      (fun w => Mismatch cfg.hasher command w.db) (RefusalEnds i) := by
  refine load_refused.bind (fun existing => ?_) fun x _ _ h => .inr h
  refine Spec.Safe.assuming (φ := ∃ o, existing = some o) (fun _ _ ⟨o, ho, _⟩ => ⟨o, ho⟩) ?_
  rintro ⟨o, rfl⟩
  refine Spec.Safe.pre (P := Offends cfg.hasher command o) ?_ ?_
  · show (refusalSpec cfg issued i before).Safe i
      (resumeExisting cfg o command.email command.password) _ _
    simp only [resumeExisting]
    split
    · exact fun _ _ _ => .inl rfl
    · rename_i he
      refine (passwordHashOf_refused (not_not.mp he)).bind (fun h => ?_) fun x _ _ h => .inr h
      refine Spec.Safe.assuming (fun _ _ h => h) ?_
      rintro ⟨password, salt, hne, rfl⟩
      refine Spec.Safe.pre (P := fun _ => True) ?_ fun _ _ _ => trivial
      refine (verify_refused _ _).bind (fun verified => ?_) fun x _ _ h => .inr h
      refine Spec.Safe.assuming (fun _ _ h => h) ?_
      rintro rfl
      have hno : cfg.hasher.verify command.password (cfg.hasher.hash password salt) = false := by
        rw [← Bool.not_eq_true, hv]
        exact hne
      rw [hno]
      exact fun _ _ _ => .inl rfl
  · rintro w - ⟨o', ho', hoff⟩
    cases ho'
    exact hoff

/-! ### And it does end -/

section Ends

variable {w w' : RegistrationWorld}

/-- Process `i` on its own, with the database at its best. -/
abbrev Undisturbed (cfg : RegistrationConfig) (i : Nat) {α : Type} :
    Registration α → RegistrationWorld → Except Exn α → RegistrationWorld → Prop :=
  (registrationMachine cfg).Alone (fun _ => true) i

theorem undisturbed_await {e : RegistrationEff} {r : Except Exn e.Resp} (c : RegistrationChoice)
    (h : RegistrationWorld.exec cfg i e c w = some (r, w')) :
    Undisturbed cfg i (await e) w r w' := by
  refine ⟨c, r, w', rfl, h, ?_⟩
  cases r <;> exact ⟨rfl, rfl⟩

theorem undisturbed_bind {α β : Type} {p : Registration α} {f : α → Registration β} {a : α}
    {w₁ : RegistrationWorld} {r : Except Exn β} (h : Undisturbed cfg i p w (.ok a) w₁)
    (hf : Undisturbed cfg i (f a) w₁ r w') : Undisturbed cfg i (p >>= f) w r w' :=
  Machine.alone_bind.mpr ⟨_, _, h, hf⟩

theorem undisturbed_raise {α β : Type} {p : Registration α} {f : α → Registration β} {x : Exn}
    (h : Undisturbed cfg i p w (.error x) w') :
    Undisturbed cfg i (p >>= f) w (.error x) w' :=
  Machine.alone_bind.mpr ⟨_, _, h, rfl, rfl⟩

/-- The password check of an operation of another password. -/
theorem checkPassword_ends (hv : cfg.hasher.Correct) {o : RegistrationOperation}
    (he : o.email = command.email)
    {password salt : String} (hne : command.password ≠ password)
    (hh : w.db.storedHash o = some (cfg.hasher.hash password salt)) :
    ∃ w', Undisturbed cfg i (resumeExisting cfg o command.email command.password) w
      (.error .idempotencyKeyConflict) w' := by
  have hno : cfg.hasher.verify command.password (cfg.hasher.hash password salt) = false := by
    rw [← Bool.not_eq_true, hv]
    exact hne
  have hhash : ∃ w₁, Undisturbed cfg i (passwordHashOf o) w
      (.ok (cfg.hasher.hash password salt)) w₁ := by
    simp only [passwordHashOf]
    cases hpw : o.passwordHash with
    | some h =>
        simp only [RegistrationDb.storedHash, hpw, Option.some.injEq] at hh
        exact ⟨w, by rw [hh], rfl⟩
    | none =>
        simp only [RegistrationDb.storedHash, hpw, Option.map_eq_some_iff] at hh
        obtain ⟨user, hfind, huser⟩ := hh
        have hget : Undisturbed cfg i (await (.tx (.getUser o.userId))) w (.ok (some user))
            (w.commit i w.db) := by
          refine undisturbed_await (.go fun _ => false) ?_
          simp [RegistrationWorld.exec, RegistrationWorld.transact, RegistrationTx.body, hfind]
        refine ⟨w.commit i w.db, undisturbed_bind hget ?_⟩
        exact ⟨by rw [huser], rfl⟩
  obtain ⟨w₁, hw₁⟩ := hhash
  refine ⟨w₁, ?_⟩
  simp only [resumeExisting, he, ne_eq, not_true_eq_false, if_false]
  refine undisturbed_bind hw₁ (undisturbed_bind (a := false) ?_ ⟨rfl, rfl⟩)
  refine undisturbed_await (.go fun _ => false) ?_
  simp [RegistrationWorld.exec, hno]

theorem registerExecute_ends (hv : cfg.hasher.Correct) (hw : RegistrationInv cfg issued w)
    (hm : Mismatch cfg.hasher command w.db) :
    ∃ w', Undisturbed cfg i (registerExecute cfg command) w (.error .idempotencyKeyConflict)
      w' := by
  obtain ⟨o, ho, hk, hdiff⟩ := hm
  have hload : Undisturbed cfg i (await (.tx (.getByKeyHash command.keyHash))) w
      (.ok (some o)) (w.commit i w.db) := by
    refine undisturbed_await (.go fun _ => false) ?_
    simp only [RegistrationWorld.exec, RegistrationWorld.transact, RegistrationTx.body, ← hk,
      getByKeyHash_eq hw.accounts ho]
    rfl
  by_cases he : o.email = command.email
  · rcases hdiff with hne | ⟨password, salt, hne, hh⟩
    · exact absurd he.symm hne
    · obtain ⟨w', hw'⟩ := checkPassword_ends (w := w.commit i w.db) hv he hne hh
      exact ⟨w', undisturbed_bind hload hw'⟩
  · refine ⟨w.commit i w.db, undisturbed_bind hload ?_⟩
    simp only [resumeExisting, ne_eq, he, not_false_eq_true, if_true]
    exact ⟨rfl, rfl⟩

end Ends

/-! ## The theorem -/

/-- What calls may rely on, in a state `C` of a run. -/
structure IdempotentRegistration (cfg : RegistrationConfig)
    (callees : Nat → Option RegistrationCallee)
    (C : Config registrationSig Exn RegistrationWorld RegistrationAnswer) : Prop where
  /-- One key, one operation, one user. -/
  sameIds : ∀ i j command command' r r', callees i = some (.register command) →
    callees j = some (.register command') → command.keyHash = command'.keyHash →
    C.pool i = some (.ret (.result r)) → C.pool j = some (.ret (.result r')) →
    r.operationId = r'.operationId ∧ r.userId = r'.userId
  /-- COMPLETED is returned for completed operations. -/
  completed : ∀ i command r, callees i = some (.register command) →
    C.pool i = some (.ret (.result r)) → r.outcome = .completed →
    ∃ o ∈ C.shared.db.operations, o.id = r.operationId ∧ o.status = .completed
  /-- PENDING, for operations that were unfinished at one of the call's own steps. -/
  pending : ∀ i command r, callees i = some (.register command) →
    C.pool i = some (.ret (.result r)) → r.outcome = .pending → Witnessed i r.operationId C.shared
  /-- A call that begins now, with the key of another request, raises the
  conflict unless a failure hits it, and changes nothing. -/
  conflict : ∀ i command, callees i = some (.register command) →
    C.pool i = some (RegistrationCallee.program cfg (.register command)) →
    Mismatch cfg.hasher command C.shared.db →
    (∀ C', RegistrationReach cfg C C' → Untouched i C.shared.history C'.shared ∧
      ∀ r, C'.pool i = some (.ofExcept r) →
        r = .error .idempotencyKeyConflict ∨ C'.shared.failed i = true) ∧
    ∃ C', RegistrationReach cfg C C' ∧ C'.pool i = some (.throw .idempotencyKeyConflict)
  oneOperation : ∀ o ∈ C.shared.db.operations, ∀ o' ∈ C.shared.db.operations,
    o.email = o'.email → o = o'
  oneUser : ∀ u ∈ C.shared.db.users, ∀ u' ∈ C.shared.db.users, u.email = u'.email → u = u'
  /-- Every operation goes back to a call, whose password it keeps. -/
  origin : ∀ o ∈ C.shared.db.operations, ∃ i command salt, callees i = some (.register command) ∧
    command.keyHash = o.keyHash ∧ command.email = o.email ∧
    C.shared.db.storedHash o = some (cfg.hasher.hash command.password salt)

theorem refusal_reach (hv : cfg.hasher.Correct) {clock : Time}
    {callees : Nat → Option RegistrationCallee}
    {C C' : Config registrationSig Exn RegistrationWorld RegistrationAnswer}
    (h : RegistrationReach cfg (registrationStart cfg clock callees) C)
    (hpool : C.pool i = some (RegistrationCallee.program cfg (.register command)))
    (hm : Mismatch cfg.hasher command C.shared.db) (h' : RegistrationReach cfg C C') :
    Untouched i C.shared.history C'.shared ∧
      ∀ r, C'.pool i = some (.ofExcept r) → RefusalEnds i r C'.shared := by
  have hprogram : (refusalSpec cfg (Issued callees) i C.shared.history).Safe i
      (RegistrationCallee.program cfg (.register command))
      (fun w => Mismatch cfg.hasher command w.db) (RefusalEnds i) := by
    refine (registerExecute_refused hv).bind (fun r => ?_) ?_
    · exact fun _ _ hend => hend.imp (fun heq => nomatch heq) id
    · exact fun x _ _ hend => hend.imp (fun heq => by cases heq; rfl) id
  have hgood := (registration_good h).watch (U := Untouched i C.shared.history) stable_untouched
    (fun _ hc _ => .inl hc) (fun p hp => by
      rw [hpool] at hp
      cases hp
      exact ⟨_, (lasts_mismatch cfg.hasher command).stable.watch, hm, hprogram⟩)
  have hclosed : (refusalSpec cfg (Issued callees) i C.shared.history).Closed :=
    closed_registration.watch stable_untouched fun _ _ hU => hU
  have hgood' := hgood.reach hclosed h'
  refine ⟨hgood'.inv.2, fun r hr => ?_⟩
  have hend := hgood'.result hr
  rw [Function.update_self] at hend
  exact hend

/-- **Idempotent registration.** -/
theorem registration_idempotent (cfg : RegistrationConfig) (hv : cfg.hasher.Correct) (clock : Time)
    (callees : Nat → Option RegistrationCallee)
    (C : Config registrationSig Exn RegistrationWorld RegistrationAnswer)
    (h : RegistrationReach cfg (registrationStart cfg clock callees) C) :
    IdempotentRegistration cfg callees C := by
  have hgood := registration_good h
  have hacc := hgood.inv.accounts
  have hresult : ∀ {i command r}, callees i = some (.register command) →
      C.pool i = some (.ret (.result r)) → Registered i command r C.shared :=
    fun hc hp => hgood.result (r := .ok (.result _)) hp _ hc
  refine ⟨?_, ?_, ?_, ?_, ?_, ?_, ?_⟩
  · intro i j command command' r r' hi hj hk hp hp'
    obtain ⟨x, hx, hxk, hid, huser, -⟩ := hresult hi hp
    obtain ⟨y, hy, hyk, hid', huser', -⟩ := hresult hj hp'
    have hcol : x.collides y = true :=
      RegistrationOperation.collides_iff.mpr (.inr (.inr (.inr (hxk.trans (hk.trans hyk.symm)))))
    obtain rfl := hacc.eq_of_collides hx hy hcol
    exact ⟨hid.trans hid'.symm, huser.trans huser'.symm⟩
  · intro i command r hi hp ho
    obtain ⟨x, hx, -, hid, -, hdone, -⟩ := hresult hi hp
    exact ⟨x, hx, hid.symm, hdone ho⟩
  · intro i command r hi hp ho
    obtain ⟨x, hx, -, hid, -, -, hseen⟩ := hresult hi hp
    rw [hid]
    exact hseen ho
  · intro i command hi hp hm
    refine ⟨fun C' h' => refusal_reach hv h hp hm h', ?_⟩
    obtain ⟨w', hw'⟩ := registerExecute_ends (i := i) hv hgood.inv hm
    have hend : Undisturbed cfg i (RegistrationCallee.program cfg (.register command)) C.shared
        (.error .idempotencyKeyConflict) w' := undisturbed_raise hw'
    have hreach := hend.reach C.pool
    rw [← hp, Function.update_eq_self] at hreach
    exact ⟨_, hreach, Function.update_self ..⟩
  · intro o ho o' ho' he
    exact hacc.eq_of_collides ho ho'
      (RegistrationOperation.collides_iff.mpr (.inr (.inr (.inl he))))
  · intro u hu u' hu' he
    by_contra hne
    have : Std.Symm fun u v : User => u.id ≠ v.id ∧ u.email ≠ v.email :=
      ⟨fun _ _ huv => ⟨huv.1.symm, huv.2.symm⟩⟩
    exact (hacc.usersUnique.forall hu hu' hne).2 he
  · intro o ho
    obtain ⟨command, salt, ⟨i, hi⟩, hrest⟩ := hacc.origin o ho
    exact ⟨i, command, salt, hi, hrest⟩

namespace Sample

/-- The salt field of a sample hash ends at its second dollar. -/
theorem dropWhile_salt (n : Nat) (rest : List Char) :
    (List.replicate n 's' ++ '$' :: rest).dropWhile (fun c => decide (c = 's')) = '$' :: rest := by
  simp

theorem hasher_correct : hasher.Correct := by
  intro p q salt
  simp only [hasher, String.toList_ofList, List.drop_succ_cons, List.drop_zero, dropWhile_salt,
    decide_eq_true_eq, List.cons.injEq, true_and, String.toList_inj]
  exact eq_comm

/-- The key of `command`, under another password. -/
def retry : RegisterUserCommand := ⟨"a@b.c", "guess", digest 3⟩

/-- The caller of `registering`, and one who guesses. -/
def guessing : Nat → Option RegistrationCallee
  | 0 => some (.register Sample.command)
  | 1 => some (.register retry)
  | _ => none

end Sample

open Sample in
theorem registration_idempotent_sample :
    ∃ C : Config registrationSig Exn RegistrationWorld RegistrationAnswer,
      (registrationMachine registration).run anyStep
        (registrationStart registration 5 guessing) registered₀ = some C ∧
      C.pool 0 = some (.ret (.result (completedResult 1 2))) ∧
      Mismatch hasher retry C.shared.db ∧
      ∃ C', RegistrationReach registration C C' ∧
        C'.pool 1 = some (.throw .idempotencyKeyConflict) := by
  have hany : ∀ w w', anyStep w w' = true → True := fun _ _ _ => trivial
  refine ⟨_, rfl, rfl, ?_⟩
  have hm : Mismatch hasher retry ((((registrationMachine registration).run anyStep
      (registrationStart registration 5 guessing) registered₀).get rfl).shared.db) := by
    refine ⟨_, List.mem_singleton.mpr rfl, rfl, .inr ⟨"secret", "x", by decide, rfl⟩⟩
  refine ⟨hm, ?_⟩
  refine ((registration_idempotent registration hasher_correct 5 guessing _ ?_).conflict 1 retry rfl
    rfl hm).2
  exact Machine.reach_of_run _ hany registered₀ _ _ rfl

end IdentityService
