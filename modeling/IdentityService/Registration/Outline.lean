import IdentityService.Concurrent.RelyGuarantee
import IdentityService.Registration.Accounts

/-!
# Proof outlines of the registration handlers

What one process may assert between two awaits, whatever the others do.
Almost everything a handler knows LASTS: a snapshot stays a snapshot, a
completed operation stays completed, what was once in the table was there.
So the outlines carry lasting assertions from await to await, and each
handler has one lemma that its callers cite.
-/

namespace IdentityService

open Concurrent

variable {cfg : RegistrationConfig} {issued : RegisterUserCommand → Prop} {i : Nat}
  {w w' : RegistrationWorld}

/-! ## Rules -/

/-- The invariant: consistent tables, tasks that were operations, and no alarm. -/
structure RegistrationInv (cfg : RegistrationConfig) (issued : RegisterUserCommand → Prop)
    (w : RegistrationWorld) : Prop where
  accounts : Accounts cfg.hasher issued w.db
  tasks : ∀ t ∈ w.tasks, Snapshot w.db t.operation
  calm : ∀ x ∈ w.raised, x.ordinary = true

/-- What every step does. -/
structure Progress (w w' : RegistrationWorld) : Prop where
  db : Evolves w.db w'.db
  history : w.history ⊆ w'.history

/-- What a step of the others leaves alone. -/
structure Apart (i : Nat) (w w' : RegistrationWorld) : Prop where
  failed : w'.failed i = w.failed i
  history : ∀ c ∈ w'.history, c.pid = i → c ∈ w.history

/-- The invariant as terms of rely and guarantee. -/
def registrationSpec (cfg : RegistrationConfig) (issued : RegisterUserCommand → Prop) :
    Spec registrationSig Exn RegistrationWorld where
  machine := registrationMachine cfg
  inv := RegistrationInv cfg issued
  con _ _ := True
  guar := Progress
  rely := Apart

/-- An assertion that no step at all can break. -/
def Lasts (A : RegistrationWorld → Prop) : Prop := ∀ w w', Progress w w' → A w → A w'

theorem Lasts.and {A A' : RegistrationWorld → Prop} (h : Lasts A) (h' : Lasts A') :
    Lasts fun w => A w ∧ A' w :=
  fun w w' hp ha => ⟨h w w' hp ha.1, h' w w' hp ha.2⟩

theorem Lasts.const (p : Prop) : Lasts fun _ => p := fun _ _ _ h => h

theorem Lasts.stable {A : RegistrationWorld → Prop} (h : Lasts A) :
    (registrationSpec cfg issued).Stable i A :=
  fun w w' _ _ _ hg _ ha => h w w' hg ha

theorem lasts_snapshot (o : RegistrationOperation) : Lasts fun w => Snapshot w.db o :=
  fun _ _ hp h => h.evolves hp.db

theorem Progress.refl (w : RegistrationWorld) : Progress w w := ⟨.refl w.db, fun _ h => h⟩

/-- A step that leaves the tables and their history alone. -/
theorem owes_quiet (hw : RegistrationInv cfg issued w) (hdb : w'.db = w.db)
    (htasks : ∀ t ∈ w'.tasks, Snapshot w.db t.operation)
    (hraised : ∀ x ∈ w'.raised, x.ordinary = true) (hhist : w'.history = w.history)
    (hfail : ∀ j, j ≠ i → w'.failed j = w.failed j) :
    (registrationSpec cfg issued).Owes i w w' where
  inv := ⟨by rw [hdb]; exact hw.accounts, by rw [hdb]; exact htasks, hraised⟩
  guar := ⟨by rw [hdb]; exact .refl w.db, by rw [hhist]; exact fun _ h => h⟩
  rely j hj := ⟨hfail j hj, by rw [hhist]; exact fun _ h _ => h⟩

/-- A unit of work that goes through. -/
theorem owes_commit (hw : RegistrationInv cfg issued w) {db : RegistrationDb}
    (hacc : Accounts cfg.hasher issued db) (hev : Evolves w.db db)
    (hdb : w'.db = db) (htasks : w'.tasks = w.tasks) (hraised : w'.raised = w.raised)
    (hhist : w'.history = w.history ++ [⟨i, w.db, db⟩])
    (hfail : ∀ j, j ≠ i → w'.failed j = w.failed j) :
    (registrationSpec cfg issued).Owes i w w' where
  inv := by
    refine ⟨by rw [hdb]; exact hacc, ?_, by rw [hraised]; exact hw.calm⟩
    rw [hdb, htasks]
    exact fun t ht => (hw.tasks t ht).evolves hev
  guar := ⟨by rw [hdb]; exact hev, by rw [hhist]; exact List.subset_append_left _ _⟩
  rely j hj := by
    refine ⟨hfail j hj, fun c hc hpid => ?_⟩
    rw [hhist, List.mem_append, List.mem_singleton] at hc
    rcases hc with hc | rfl
    · exact hc
    · exact absurd hpid (Ne.symm hj)

theorem fail_ne {j : Nat} (hj : j ≠ i) : (w.fail i).failed j = w.failed j := by
  simp [RegistrationWorld.fail, hj]

@[simp] theorem fail_self : (w.fail i).failed i = true := by
  simp [RegistrationWorld.fail]

/-- Everything a unit of work can end in. -/
theorem exec_tx {t : RegistrationTx} {c : RegistrationChoice} {r : Except Exn t.Resp}
    (h : RegistrationWorld.exec cfg i (.tx t) c w = some (r, w')) :
    (∃ locked a db, t.body cfg.format locked w.db = .ok (a, db) ∧ r = .ok a ∧
      w' = w.commit i db) ∨
    (∃ locked a db x, t.body cfg.format locked w.db = .ok (a, db) ∧ r = .error x ∧
      (RegistrationEff.tx t).mayRaise x = true ∧ w' = (w.commit i db).fail i) ∨
    (∃ locked x, t.body cfg.format locked w.db = .error x ∧ r = .error x.unwound ∧
      w' = { w with raised := w.raised ++ [x] }) ∨
    (∃ locked x y, t.body cfg.format locked w.db = .error x ∧ r = .error y ∧
      (RegistrationEff.tx t).mayRaise y = true ∧
      w' = RegistrationWorld.fail { w with raised := w.raised ++ [x] } i) ∨
    ∃ x, r = .error x ∧ (RegistrationEff.tx t).mayRaise x = true ∧ w' = w.fail i := by
  cases c with
  | go locked =>
      simp only [RegistrationWorld.exec, RegistrationWorld.transact, Option.some.injEq] at h
      split at h
      · rename_i a db hb
        cases h
        exact .inl ⟨locked, a, db, hb, rfl, rfl⟩
      · rename_i x hb
        cases h
        exact .inr (.inr (.inl ⟨locked, x, hb, rfl, rfl⟩))
  | fault x =>
      simp only [RegistrationWorld.exec] at h
      split at h
      · rename_i hx
        cases h
        exact .inr (.inr (.inr (.inr ⟨x, rfl, hx, rfl⟩)))
      · cases h
  | applied locked x =>
      simp only [RegistrationWorld.exec, RegistrationWorld.transact] at h
      split at h
      · rename_i hx
        cases hb : t.body cfg.format locked w.db with
        | ok out =>
            rw [hb] at h
            cases h
            exact .inr (.inl ⟨locked, out.1, out.2, x, hb, rfl, hx, rfl⟩)
        | error y =>
            rw [hb] at h
            cases h
            exact .inr (.inr (.inr (.inl ⟨locked, y, x, hb, rfl, hx, rfl⟩)))
      · cases h
  | uuid u => cases h
  | jitter sample => cases h
  | salt s => cases h
  | profile reply => cases h

theorem ordinary_unwound {x : Exn} (h : x.ordinary = true) : x.unwound.ordinary = true := by
  cases x with
  | database d => cases d <;> rfl
  | _ => exact h

theorem ordinary_mayRaise {e : RegistrationEff} {x : Exn} (h : e.mayRaise x = true) :
    x.ordinary = true := by
  cases hx : x.ordinary with
  | true => rfl
  | false =>
      have halarm : x = .registrationFinalizationConflict ∨ x = .runtimeError noUser := by
        simp only [Exn.ordinary, Bool.and_eq_false_iff, decide_eq_false_iff_not, not_not] at hx
        exact hx
      rcases halarm with rfl | rfl <;> cases e <;> cases h

/-- A unit of work pays what it owes, however it ends. -/
theorem tx_owes (hw : RegistrationInv cfg issued w) {t : RegistrationTx}
    (hp : t.Prepared cfg.hasher issued w.db) {c : RegistrationChoice} {r : Except Exn t.Resp}
    (h : RegistrationWorld.exec cfg i (.tx t) c w = some (r, w')) :
    (registrationSpec cfg issued).Owes i w w' ∧ ∀ x, r = .error x → x.ordinary = true := by
  have hraise : ∀ locked x, t.body cfg.format locked w.db = .error x →
      ∀ y ∈ w.raised ++ [x], y.ordinary = true := by
    intro locked x hb y hy
    rcases List.mem_append.mp hy with hy | hy
    · exact hw.calm y hy
    · rw [List.mem_singleton.mp hy]
      exact RegistrationTx.body_tame hw.accounts hp x hb
  rcases exec_tx h with ⟨locked, a, db, hb, rfl, rfl⟩ | ⟨locked, a, db, x, hb, rfl, hx, rfl⟩ |
    ⟨locked, x, hb, rfl, rfl⟩ | ⟨locked, x, y, hb, rfl, hy, rfl⟩ | ⟨x, rfl, hx, rfl⟩
  · obtain ⟨hacc, hev⟩ := RegistrationTx.body_keeps hw.accounts hp hb
    exact ⟨owes_commit hw hacc hev rfl rfl rfl rfl fun _ _ => rfl, nofun⟩
  · obtain ⟨hacc, hev⟩ := RegistrationTx.body_keeps hw.accounts hp hb
    refine ⟨owes_commit hw hacc hev rfl rfl rfl rfl fun _ hj => fail_ne hj, ?_⟩
    rintro _ ⟨⟩
    exact ordinary_mayRaise hx
  · refine ⟨owes_quiet hw rfl hw.tasks (hraise locked x hb) rfl fun _ _ => rfl, ?_⟩
    rintro _ ⟨⟩
    exact ordinary_unwound (RegistrationTx.body_tame hw.accounts hp x hb)
  · refine ⟨owes_quiet hw rfl hw.tasks (hraise locked x hb) rfl fun _ hj => fail_ne hj, ?_⟩
    rintro _ ⟨⟩
    exact ordinary_mayRaise hy
  · refine ⟨owes_quiet hw rfl hw.tasks hw.calm rfl fun _ hj => fail_ne hj, ?_⟩
    rintro _ ⟨⟩
    exact ordinary_mayRaise hx

/-- What a value leaves behind; an exception is none of the alarms. -/
def Answered {α : Type} (A : α → RegistrationWorld → Prop) :
    Except Exn α → RegistrationWorld → Prop
  | .ok a => A a
  | .error x => fun _ => x.ordinary = true

theorem Lasts.answered {α : Type} {A : α → RegistrationWorld → Prop} (h : ∀ a, Lasts (A a))
    (r : Except Exn α) : Lasts (Answered A r) := by
  cases r with
  | ok a => exact h a
  | error x => exact Lasts.const _

section Await

variable {P : RegistrationWorld → Prop}

/-- One await. -/
theorem await_safe {e : RegistrationEff} {A : Except Exn e.Resp → RegistrationWorld → Prop}
    (hA : ∀ r, (registrationSpec cfg issued).Stable i (A r))
    (h : ∀ w c r w', RegistrationInv cfg issued w → P w →
      RegistrationWorld.exec cfg i e c w = some (r, w') →
      (registrationSpec cfg issued).Owes i w w' ∧ A r w') :
    (registrationSpec cfg issued).Safe i (await e) P A := by
  refine Spec.Safe.perform fun w c r w' hw hp hx _ => ?_
  obtain ⟨ho, ha⟩ := h w c r w' hw hp hx
  exact ⟨ho, A r, hA r, ha, fun _ _ h => h⟩

/-- A unit of work: `A a` is known when it answers `a`. -/
theorem tx_safe {t : RegistrationTx} {A : t.Resp → RegistrationWorld → Prop}
    (hA : ∀ a, Lasts (A a))
    (hprep : ∀ w, RegistrationInv cfg issued w → P w → t.Prepared cfg.hasher issued w.db)
    (hok : ∀ w locked a db, RegistrationInv cfg issued w → P w →
      t.body cfg.format locked w.db = .ok (a, db) → Progress w (w.commit i db) →
      A a (w.commit i db)) :
    (registrationSpec cfg issued).Safe i (await (.tx t)) P (Answered A) := by
  refine await_safe (fun r => (Lasts.answered hA r).stable) fun w c r w' hw hp hx => ?_
  obtain ⟨ho, herr⟩ := tx_owes hw (hprep w hw hp) hx
  refine ⟨ho, ?_⟩
  cases r with
  | error x => exact herr x rfl
  | ok a =>
      rcases exec_tx hx with ⟨locked, a', db, hb, hr, rfl⟩ | ⟨_, _, _, _, _, hr, _⟩ |
        ⟨_, _, _, hr, _⟩ | ⟨_, _, _, _, hr, _⟩ | ⟨_, hr, _⟩
      · cases hr
        exact hok w locked a db hw hp hb ho.guar
      all_goals cases hr

/-- The awaits that touch neither tables nor tasks. -/
def RegistrationEff.quiet : RegistrationEff → Bool
  | .tx _ => false
  | .spawn _ => false
  | _ => true

theorem exec_fault {e : RegistrationEff} {x : Exn} {r : Except Exn e.Resp}
    (h : RegistrationWorld.exec cfg i e (.fault x) w = some (r, w')) :
    e.mayRaise x = true ∧ r = .error x ∧ w' = w.fail i := by
  have hexec : RegistrationWorld.exec cfg i e (.fault x) w =
      if e.mayRaise x then some (.error x, w.fail i) else none := by
    cases e <;> rfl
  rw [hexec] at h
  split at h
  · rename_i hx
    cases h
    exact ⟨hx, rfl, rfl⟩
  · cases h

theorem exec_quiet {e : RegistrationEff} (he : e.quiet = true) {c : RegistrationChoice}
    {r : Except Exn e.Resp} (h : RegistrationWorld.exec cfg i e c w = some (r, w')) :
    (w'.db = w.db ∧ w'.tasks = w.tasks ∧ w'.raised = w.raised ∧ w'.history = w.history ∧
      ∀ j, j ≠ i → w'.failed j = w.failed j) ∧ ∀ x, r = .error x → x.ordinary = true := by
  cases c with
  | fault x =>
      obtain ⟨hx, rfl, rfl⟩ := exec_fault h
      refine ⟨⟨rfl, rfl, rfl, rfl, fun _ hj => fail_ne hj⟩, ?_⟩
      rintro _ ⟨⟩
      exact ordinary_mayRaise hx
  | profile reply =>
      cases e with
      | createProfile userId registeredAt =>
          cases h
          refine ⟨⟨rfl, rfl, rfl, rfl, fun _ _ => rfl⟩, ?_⟩
          cases reply <;> rintro _ ⟨⟩ <;> rfl
      | _ => cases h
  | go locked =>
      cases e with
      | tx t => cases he
      | spawn tasks => cases he
      | task n =>
          obtain ⟨t, -, ht⟩ := Option.map_eq_some_iff.mp h
          cases ht
          exact ⟨⟨rfl, rfl, rfl, rfl, fun _ _ => rfl⟩, nofun⟩
      | join first count =>
          simp only [RegistrationWorld.exec] at h
          split at h
          · cases h
            exact ⟨⟨rfl, rfl, rfl, rfl, fun _ _ => rfl⟩, nofun⟩
          · cases h
      | now | verify | done =>
          cases h
          exact ⟨⟨rfl, rfl, rfl, rfl, fun _ _ => rfl⟩, nofun⟩
      | uuid | jitter | hash | createProfile => cases h
  | applied locked x =>
      cases e with
      | tx t => cases he
      | _ => cases h
  | uuid u =>
      cases e with
      | uuid =>
          cases h
          exact ⟨⟨rfl, rfl, rfl, rfl, fun _ _ => rfl⟩, nofun⟩
      | _ => cases h
  | jitter sample =>
      cases e with
      | jitter =>
          cases h
          exact ⟨⟨rfl, rfl, rfl, rfl, fun _ _ => rfl⟩, nofun⟩
      | _ => cases h
  | salt s =>
      cases e with
      | hash password =>
          cases h
          exact ⟨⟨rfl, rfl, rfl, rfl, fun _ _ => rfl⟩, nofun⟩
      | _ => cases h

theorem quiet_safe {e : RegistrationEff} (he : e.quiet = true) (hP : Lasts P) :
    (registrationSpec cfg issued).Safe i (await e) P (Answered fun _ => P) := by
  refine await_safe (fun r => (Lasts.answered (fun _ => hP) r).stable) fun w c r w' hw hp hx => ?_
  obtain ⟨⟨hdb, htasks, hraised, hhist, hfail⟩, herr⟩ := exec_quiet he hx
  have ho : (registrationSpec cfg issued).Owes i w w' := by
    refine owes_quiet hw hdb ?_ ?_ hhist hfail
    · rw [htasks]
      exact hw.tasks
    · rw [hraised]
      exact hw.calm
  refine ⟨ho, ?_⟩
  cases r with
  | ok a => exact hP w w' ho.guar hp
  | error x => exact herr x rfl

end Await

/-! ## Resuming -/

section Resume

variable {P : RegistrationWorld → Prop} {o : RegistrationOperation} {ownerToken : Uuid}

theorem blockOperation_safe (hP : Lasts P) (error : Exn) :
    (registrationSpec cfg issued).Safe i (blockOperation o ownerToken error) P
      (Answered fun _ => P) := by
  refine (quiet_safe rfl hP).bind (fun blockedAt => ?_) fun _ _ _ h => h
  refine Spec.Safe.bind (Q := Answered fun _ => P) ?_ (fun _ => fun _ _ hp => hp) fun _ _ _ h => h
  refine tx_safe (fun _ => hP) (fun _ _ _ => trivial) ?_
  exact fun w _ _ db _ hp _ hg => hP w _ hg hp

/-- Whatever was wanted of the result, there is none. -/
theorem blockAndRaise_safe (hP : Lasts P) (error : Exn) {raised : Exn}
    (hr : raised.ordinary = true) (A : RegistrationResult → RegistrationWorld → Prop) :
    (registrationSpec cfg issued).Safe i (blockAndRaise o ownerToken error raised) P
      (Answered A) := by
  refine (blockOperation_safe hP error).bind (fun _ => ?_) fun _ _ _ h => h
  exact fun _ _ _ => hr

/-- A result about operation `o`, in a state where `P` holds. -/
def About (o : RegistrationOperation) (P : RegistrationWorld → Prop) (result : RegistrationResult)
    (w : RegistrationWorld) : Prop :=
  result.operationId = o.id ∧ result.userId = o.userId ∧ P w ∧
    (result.outcome = .completed → ∃ x ∈ w.db.operations, x.id = o.id ∧ x.status = .completed)

theorem retryOrBlock_safe (hP : Lasts P) (error : Exn) :
    (registrationSpec cfg issued).Safe i (retryOrBlock cfg o ownerToken error) P
      (Answered (About o P)) := by
  simp only [retryOrBlock]
  split
  · exact blockAndRaise_safe hP error rfl _
  · refine (quiet_safe rfl hP).bind (fun failedAt => ?_) fun _ _ _ h => h
    refine (quiet_safe rfl hP).bind (fun jitterSample => ?_) fun _ _ _ h => h
    cases hd : cfg.policy.delaySeconds (o.attempts + 1) jitterSample with
    | error x =>
        -- the float power overflowed
        have hx : x = .overflowError := by
          simp only [RegistrationRetryPolicy.delaySeconds, floatPow] at hd
          split at hd
          · cases hd
            rfl
          · cases hd
        subst hx
        exact fun _ _ _ => rfl
    | ok delay =>
        simp only [Prog.ofExcept, Prog.bind_eq, Prog.ret_bind]
        refine Spec.Safe.bind (Q := Answered fun _ => P) ?_ (fun _ => ?_) fun _ _ _ h => h
        · refine tx_safe (fun _ => hP) (fun _ _ _ => trivial) ?_
          exact fun w _ _ db _ hp _ hg => hP w _ hg hp
        · refine (quiet_safe rfl hP).bind (fun now => ?_) fun _ _ _ h => h
          exact fun _ _ hp => ⟨rfl, rfl, hp, nofun⟩

/-- What `_finalize` is known to have done. -/
def Finalized (o : RegistrationOperation) (P : RegistrationWorld → Prop) (user : User)
    (w : RegistrationWorld) : Prop :=
  user.id = o.userId ∧ P w ∧ ∃ x ∈ w.db.operations, x.id = o.id ∧ x.status = .completed

/-- `_finalize` with a snapshot in hand. -/
theorem finalize_safe (hP : Lasts P) (hsnap : ∀ w, P w → Snapshot w.db o) :
    (registrationSpec cfg issued).Safe i (finalize o ownerToken) P
      (Answered (Finalized o P)) := by
  simp only [finalize]
  cases hpw : o.passwordHash with
  | none => exact fun _ _ _ => rfl
  | some passwordHash =>
      refine (quiet_safe rfl hP).bind (fun completedAt => ?_) fun _ _ _ h => h
      refine (quiet_safe rfl hP).bind (fun eventId => ?_) fun _ _ _ h => h
      refine (quiet_safe rfl hP).bind (fun correlationId => ?_) fun _ _ _ h => h
      have hprep : ∀ w, P w → (RegistrationTx.finalize o.id ownerToken completedAt
          ⟨o.userId, o.email, passwordHash, .user, .active, o.createdAt, none⟩ eventId
          correlationId).Prepared cfg.hasher issued w.db :=
        fun w hp => ⟨o, hsnap w hp, rfl, rfl, rfl, hpw⟩
      refine tx_safe (fun user => ?_) (fun w _ hp => hprep w hp) ?_
      · refine (Lasts.const _).and (hP.and ?_)
        rintro w w' hg ⟨x, hx, hid, hs⟩
        obtain ⟨x', hx', -, hdone, -⟩ := hg.db.kept x hx
        obtain rfl := hdone hs
        exact ⟨x', hx', hid, hs⟩
      · intro w locked user db hw hp hb hg
        obtain ⟨-, -, rfl, x, hx, hid, hs⟩ :=
          RegistrationTx.finalize_keeps hw.accounts (hprep w hp) hb
        exact ⟨rfl, hP w _ hg hp, x, hx, hid, hs⟩

theorem afterFinalize_safe (hP : Lasts P) (finalized : Except Exn User) :
    (registrationSpec cfg issued).Safe i (afterFinalize cfg o ownerToken finalized)
      (fun w => Answered (Finalized o P) finalized w ∧ P w) (Answered (About o P)) := by
  cases finalized with
  | ok user => exact fun w _ hp => ⟨rfl, hp.1.1, hp.2, fun _ => hp.1.2.2⟩
  | error x =>
      refine Spec.Safe.assuming (φ := x.ordinary = true) (fun _ _ hp => hp.1) fun hx => ?_
      refine Spec.Safe.pre (P := P) ?_ fun _ _ hp => hp.2
      simp only [afterFinalize]
      split
      · rename_i heq
        cases heq
      · refine (quiet_safe rfl hP).bind (fun now => ?_) fun _ _ _ h => h
        exact fun _ _ hp => ⟨rfl, rfl, hp, nofun⟩
      · exact blockAndRaise_safe hP _ rfl _
      · exact retryOrBlock_safe hP _
      · exact retryOrBlock_safe hP _
      · rename_i y _ _ _ _ heq
        cases heq
        split
        · exact blockAndRaise_safe hP _ hx _
        · exact fun _ _ _ => hx

theorem afterProfile_safe (hP : Lasts P) (hsnap : ∀ w, P w → Snapshot w.db o)
    (profile : Except Exn Unit) :
    (registrationSpec cfg issued).Safe i (afterProfile cfg o ownerToken profile)
      (fun w => Answered (fun _ => P) profile w ∧ P w) (Answered (About o P)) := by
  cases profile with
  | ok _ =>
      refine Spec.Safe.pre (P := fun w => P w ∧ P w) ?_ fun _ _ hp => ⟨hp.2, hp.2⟩
      exact ((finalize_safe hP hsnap).frame hP).attempt (afterFinalize_safe hP)
  | error x =>
      refine Spec.Safe.assuming (φ := x.ordinary = true) (fun _ _ hp => hp.1) fun hx => ?_
      refine Spec.Safe.pre (P := P) ?_ fun _ _ hp => hp.2
      simp only [afterProfile]
      split
      · rename_i heq
        cases heq
      · exact blockAndRaise_safe hP _ rfl _
      · exact retryOrBlock_safe hP _
      · rename_i y _ _ heq
        cases heq
        split
        · exact blockAndRaise_safe hP _ hx _
        · exact fun _ _ _ => hx

/-- `ResumeRegistrationHandler.execute` on a snapshot. -/
theorem resumeExecute_safe (hP : Lasts P) (hsnap : ∀ w, P w → Snapshot w.db o) :
    (registrationSpec cfg issued).Safe i (resumeExecute cfg o ownerToken) P
      (Answered (About o P)) := by
  simp only [resumeExecute]
  split
  · exact fun _ _ _ => rfl
  · refine Spec.Safe.pre (P := fun w => P w ∧ P w) ?_ fun _ _ hp => ⟨hp, hp⟩
    exact ((quiet_safe rfl hP).frame hP).attempt (afterProfile_safe hP hsnap)

end Resume

/-! ## Registering -/

section Register

variable {command : RegisterUserCommand} {o : RegistrationOperation}

/-- Process `i` itself came across operation `id` unfinished. -/
def Witnessed (i : Nat) (id : Uuid) (w : RegistrationWorld) : Prop :=
  ∃ c ∈ w.history, c.pid = i ∧ ∃ x ∈ c.after.operations, x.id = id ∧ x.nonterminal = true

theorem lasts_witnessed (i : Nat) (id : Uuid) : Lasts (Witnessed i id) :=
  fun _ _ hg ⟨c, hc, hrest⟩ => ⟨c, hg.history hc, hrest⟩

/-- What a result for `command` means. -/
def Registered (i : Nat) (command : RegisterUserCommand) (result : RegistrationResult)
    (w : RegistrationWorld) : Prop :=
  ∃ x ∈ w.db.operations, x.keyHash = command.keyHash ∧ result.operationId = x.id ∧
    result.userId = x.userId ∧ (result.outcome = .completed → x.status = .completed) ∧
    (result.outcome = .pending → Witnessed i x.id w)

/-- An operation of the caller's key, claimed by the caller. -/
def Mine (i : Nat) (command : RegisterUserCommand) (o : RegistrationOperation)
    (w : RegistrationWorld) : Prop :=
  o.keyHash = command.keyHash ∧ Snapshot w.db o ∧ Witnessed i o.id w

theorem lasts_mine (o : RegistrationOperation) : Lasts (Mine i command o) :=
  (Lasts.const _).and ((lasts_snapshot o).and (lasts_witnessed i o.id))

theorem resumeMine_safe (ownerToken : Uuid) :
    (registrationSpec cfg issued).Safe i (resumeExecute cfg o ownerToken) (Mine i command o)
      (Answered (Registered i command)) := by
  refine (resumeExecute_safe (lasts_mine o) fun _ h => h.2.1).post ?_
  rintro (x | result) w hw h
  · exact h
  · obtain ⟨hid, huser, ⟨hk, ⟨x, hx, hsame, -⟩, hseen⟩, hdone⟩ := h
    refine ⟨x, hx, hsame.keyHash.trans hk, hid.trans hsame.id.symm, huser.trans hsame.userId.symm,
      fun ho => ?_, fun _ => ?_⟩
    · obtain ⟨y, hy, hyid, hys⟩ := hdone ho
      have hcol : y.collides x = true :=
        RegistrationOperation.collides_iff.mpr (.inl (hyid.trans hsame.id.symm))
      rw [← hw.accounts.eq_of_collides hy hx hcol]
      exact hys
    · rw [hsame.id]
      exact hseen

/-- An operation that was loaded under the caller's key. -/
def Loaded (i : Nat) (command : RegisterUserCommand) (o : RegistrationOperation)
    (w : RegistrationWorld) : Prop :=
  (o.keyHash = command.keyHash ∧ (o.passwordHash = none → o.status = .completed)) ∧
    Snapshot w.db o ∧ (o.status = .completed → o ∈ w.db.operations) ∧
    (o.nonterminal = true → Witnessed i o.id w)

theorem lasts_loaded (o : RegistrationOperation) : Lasts (Loaded i command o) := by
  refine (Lasts.const _).and ((lasts_snapshot o).and ?_)
  rintro w w' hg ⟨hdone, hseen⟩
  refine ⟨fun hs => ?_, fun hn => lasts_witnessed i o.id w w' hg (hseen hn)⟩
  obtain ⟨o', ho', -, hkeep, -⟩ := hg.db.kept o (hdone hs)
  rw [← hkeep hs]
  exact ho'

/-- `_load_by_key`. -/
theorem load_safe : (registrationSpec cfg issued).Safe i
    (await (.tx (.getByKeyHash command.keyHash))) (fun _ => True)
    (Answered fun r w => ∀ o, r = some o → Loaded i command o w) := by
  refine tx_safe (fun r => ?_) (fun _ _ _ => trivial) ?_
  · exact fun w w' hg h o ho => lasts_loaded o w w' hg (h o ho)
  · rintro w locked r db hw - hb - o rfl
    simp only [RegistrationTx.body, bind_eq_ok] at hb
    obtain ⟨r', hload, hb⟩ := hb
    cases hb
    obtain ⟨hr, -⟩ | ⟨x, hx, hk, -, hr⟩ := Registrations.getByKeyHash_cases hload
    · cases hr
    · cases hr
      refine ⟨⟨hk, (hw.accounts.passwordHash_none hx).mp⟩, .of_mem hx (.refl o) rfl,
        fun _ => hx, fun hn => ?_⟩
      exact ⟨⟨i, w.db, w.db⟩, List.mem_append_right _ (List.mem_singleton.mpr rfl), rfl, o, hx,
        rfl, hn⟩

/-- A completed operation has its account, so the hash is found. -/
theorem passwordHashOf_safe : (registrationSpec cfg issued).Safe i (passwordHashOf o)
    (Loaded i command o) (Answered fun _ => Loaded i command o) := by
  simp only [passwordHashOf]
  cases hpw : o.passwordHash with
  | some passwordHash => exact fun _ _ h => h
  | none =>
      have hfound : (registrationSpec cfg issued).Safe i (await (.tx (.getUser o.userId)))
          (Loaded i command o)
          (Answered fun user w => user.isSome = true ∧ Loaded i command o w) := by
        refine tx_safe (fun _ => (Lasts.const _).and (lasts_loaded o)) (fun _ _ _ => trivial) ?_
        intro w locked user db hw h hb hg
        cases hb
        refine ⟨?_, lasts_loaded o w _ hg h⟩
        have hs := h.1.2 hpw
        obtain ⟨u, hu, hid, -⟩ := hw.accounts.account o (h.2.2.1 hs) hs
        rw [List.find?_isSome]
        exact ⟨u, hu, by simpa using hid⟩
      refine hfound.bind (fun user => ?_) fun _ _ _ h => h
      cases user with
      | none => exact fun _ _ h => nomatch h.1
      | some user => exact fun _ _ h => h.2

theorem claimExisting_safe (hn : o.nonterminal = true) :
    (registrationSpec cfg issued).Safe i (claimExisting cfg o) (Loaded i command o)
      (Answered (Registered i command)) := by
  refine (quiet_safe rfl (lasts_loaded o)).bind (fun now => ?_) fun _ _ _ h => h
  refine (quiet_safe rfl (lasts_loaded o)).bind (fun ownerToken => ?_) fun _ _ _ h => h
  have hclaim : (registrationSpec cfg issued).Safe i
      (await (.tx (.claimByKeyHash o.keyHash ownerToken now (now + cfg.claimLease))))
      (Loaded i command o)
      (Answered fun r w => Loaded i command o w ∧ ∀ c, r = some c → Mine i command c w) := by
    refine tx_safe (fun r => (lasts_loaded o).and ?_) (fun _ _ _ => trivial) ?_
    · exact fun w w' hg h c hc => lasts_mine c w w' hg (h c hc)
    · intro w locked r db hw h hb hg
      refine ⟨lasts_loaded o w _ hg h, ?_⟩
      rintro c rfl
      simp only [RegistrationTx.body, bind_eq_ok] at hb
      obtain ⟨⟨r', rows⟩, hc, hb⟩ := hb
      cases hb
      obtain ⟨hrows, hr | ⟨x, hx, hk, he, hr⟩⟩ := Registrations.claimByKeyHash_cases hc
      · cases hr
      · cases hr
        have hmem : x.claim ownerToken (now + cfg.claimLease) ∈ rows := by
          rw [hrows]
          exact Table.mem_update.mpr ⟨x, hx, .inl ⟨by simp [hk, he], rfl⟩⟩
        refine ⟨hk.trans h.1.1, .of_mem hmem (.refl _) rfl, ?_⟩
        exact ⟨_, List.mem_append_right _ (List.mem_singleton.mpr rfl), rfl, _, hmem, rfl, rfl⟩
  refine hclaim.bind (fun claimed => ?_) fun _ _ _ h => h
  cases claimed with
  | some c => exact (resumeMine_safe ownerToken).pre fun _ _ h => h.2 c rfl
  | none =>
      refine Spec.Safe.pre (P := Loaded i command o) ?_ fun _ _ h => h.1
      refine (quiet_safe rfl (lasts_loaded o)).bind (fun now' => ?_) fun _ _ _ h => h
      intro w hw h
      obtain ⟨x, hx, hsame, -⟩ := h.2.1
      refine ⟨x, hx, hsame.keyHash.trans h.1.1, hsame.id.symm, hsame.userId.symm, ?_, ?_⟩
      · intro hdone
        cases hdone
      · intro _
        rw [hsame.id]
        exact h.2.2.2 hn

/-- Past the checks of `_resume_existing`. -/
theorem answerExisting_safe : (registrationSpec cfg issued).Safe i (answerExisting cfg o)
    (Loaded i command o) (Answered (Registered i command)) := by
  simp only [answerExisting]
  cases hs : o.status with
  | completed =>
      intro w _ h
      exact ⟨o, h.2.2.1 hs, h.1.1, rfl, rfl, fun _ => hs, nofun⟩
  | blocked => exact fun _ _ _ => rfl
  | pending => exact claimExisting_safe (by simp [RegistrationOperation.nonterminal, hs])
  | claimed => exact claimExisting_safe (by simp [RegistrationOperation.nonterminal, hs])

theorem resumeExisting_safe (email password : String) :
    (registrationSpec cfg issued).Safe i (resumeExisting cfg o email password)
      (Loaded i command o) (Answered (Registered i command)) := by
  simp only [resumeExisting]
  split
  · exact fun _ _ _ => rfl
  · refine passwordHashOf_safe.bind (fun passwordHash => ?_) fun _ _ _ h => h
    refine (quiet_safe rfl (lasts_loaded o)).bind (fun verified => ?_) fun _ _ _ h => h
    split
    · exact fun _ _ _ => rfl
    · exact answerExisting_safe

/-- The two statements that create an operation for `command`. -/
theorem createOperation_safe (hi : issued command) {salt : String} (hs : o.status = .claimed)
    (hk : o.keyHash = command.keyHash) (he : o.email = command.email)
    (hh : o.passwordHash = some (cfg.hasher.hash command.password salt)) :
    (registrationSpec cfg issued).Safe i (createOperation o) (fun _ => True)
      (Answered fun r w => ∀ c, r = some c → c = o ∧ Mine i command c w) := by
  have hlast : ∀ r : Option RegistrationOperation,
      Lasts fun w => ∀ c, r = some c → c = o ∧ Mine i command c w :=
    fun r w w' hg h c hc => ⟨(h c hc).1, lasts_mine c w w' hg (h c hc).2⟩
  refine Spec.Safe.bind (Q := Answered fun _ _ => True) ?_ (fun user => ?_) fun _ _ _ h => h
  · exact tx_safe (fun _ => Lasts.const _) (fun _ _ _ => trivial) fun _ _ _ _ _ _ _ _ => trivial
  · cases user with
    | some user =>
        refine Spec.Safe.bind (Q := Answered fun _ _ => True) ?_ (fun _ => ?_) fun _ _ _ h => h
        · exact tx_safe (fun _ => Lasts.const _) (fun _ _ _ => trivial)
            fun _ _ _ _ _ _ _ _ => trivial
        · exact fun _ _ _ => nofun
    | none =>
        refine tx_safe hlast (fun _ _ _ => ?_) ?_
        · refine ⟨by rw [hs]; simp, command, salt, hi, hk.symm, he.symm, hh⟩
        · rintro w locked r db hw - hb - c rfl
          simp only [RegistrationTx.body, bind_eq_ok] at hb
          obtain ⟨⟨r', rows⟩, hc, hb⟩ := hb
          cases hb
          rcases Registrations.tryCreate_cases hc with ⟨hr, -⟩ | ⟨hr, hrows, -⟩
          · cases hr
          · cases hr
            have hmem : o ∈ rows := by
              rw [hrows]
              exact List.mem_append_right _ (List.mem_singleton.mpr rfl)
            refine ⟨rfl, hk, .of_mem hmem (.refl o) rfl, ?_⟩
            exact ⟨_, List.mem_append_right _ (List.mem_singleton.mpr rfl), rfl, o, hmem, rfl,
              by simp [RegistrationOperation.nonterminal, hs]⟩

theorem hash_safe (password : String) :
    (registrationSpec cfg issued).Safe i (await (.hash password)) (fun _ => True)
      (Answered fun h _ => ∃ salt, h = cfg.hasher.hash password salt) := by
  refine await_safe (fun r => (Lasts.answered (fun _ => Lasts.const _) r).stable)
    fun w c r w' hw _ hx => ?_
  obtain ⟨⟨hdb, htasks, hraised, hhist, hfail⟩, herr⟩ := exec_quiet rfl hx
  refine ⟨owes_quiet hw hdb (by rw [htasks]; exact hw.tasks) (by rw [hraised]; exact hw.calm) hhist
    hfail, ?_⟩
  cases r with
  | error x => exact herr x rfl
  | ok h =>
      cases c with
      | salt s =>
          cases hx
          exact ⟨s, rfl⟩
      | fault x =>
          obtain ⟨-, hr, -⟩ := exec_fault hx
          cases hr
      | _ => cases hx

theorem registerNew_safe (hi : issued command) :
    (registrationSpec cfg issued).Safe i (registerNew cfg command) (fun _ => True)
      (Answered (Registered i command)) := by
  refine (hash_safe command.password).bind (fun passwordHash => ?_) fun _ _ _ h => h
  refine Spec.Safe.assuming (φ := ∃ salt, passwordHash = cfg.hasher.hash command.password salt)
    (fun _ _ h => h) ?_
  rintro ⟨salt, rfl⟩
  have htrue : Lasts fun _ => True := Lasts.const True
  refine Spec.Safe.pre (P := fun _ => True) ?_ fun _ _ _ => trivial
  refine (quiet_safe rfl htrue).bind (fun now => ?_) fun _ _ _ h => h
  refine (quiet_safe rfl htrue).bind (fun ownerToken => ?_) fun _ _ _ h => h
  refine (quiet_safe rfl htrue).bind (fun id => ?_) fun _ _ _ h => h
  refine (quiet_safe rfl htrue).bind (fun userId => ?_) fun _ _ _ h => h
  refine (createOperation_safe hi rfl rfl rfl rfl).bind (fun created => ?_) fun _ _ _ h => h
  cases created with
  | some c =>
      refine Spec.Safe.pre (resumeMine_safe ownerToken) fun _ _ h => ?_
      exact (h c rfl).2
  | none =>
      -- somebody was faster: their operation has the key, or the email alone
      refine (load_safe.pre fun _ _ _ => trivial).bind (fun existing => ?_) fun _ _ _ h => h
      cases existing with
      | none => exact fun _ _ _ => rfl
      | some o => exact (resumeExisting_safe _ _).pre fun _ _ h => h o rfl

theorem registerExecute_safe (hi : issued command) :
    (registrationSpec cfg issued).Safe i (registerExecute cfg command) (fun _ => True)
      (Answered (Registered i command)) := by
  refine load_safe.bind (fun existing => ?_) fun _ _ _ h => h
  cases existing with
  | some o => exact (resumeExisting_safe _ _).pre fun _ _ h => h o rfl
  | none => exact (registerNew_safe hi).pre fun _ _ _ => trivial

end Register

/-! ## The other processes -/

theorem runOnce_safe (batchSize : Int) :
    (registrationSpec cfg issued).Safe i (runOnce cfg batchSize) (fun _ => True)
      (Answered fun _ _ => True) := by
  have htrue : Lasts fun _ => True := Lasts.const True
  simp only [runOnce]
  split
  · exact fun _ _ _ => rfl
  · refine (quiet_safe rfl htrue).bind (fun ownerToken => ?_) fun _ _ _ h => h
    refine (quiet_safe rfl htrue).bind (fun claimedAt => ?_) fun _ _ _ h => h
    have hclaim : (registrationSpec cfg issued).Safe i (await (.tx (.claimBatch ownerToken claimedAt
        (claimedAt + cfg.claimLease) batchSize))) (fun _ => True)
        (Answered fun batch w => ∀ o ∈ batch, Snapshot w.db o) := by
      refine tx_safe (fun batch => ?_) (fun _ _ _ => trivial) ?_
      · exact fun w w' hg h o ho => (h o ho).evolves hg.db
      · intro w locked batch db hw _ hb _ o ho
        simp only [RegistrationTx.body, bind_eq_ok] at hb
        obtain ⟨⟨batch', rows⟩, hc, hb⟩ := hb
        cases hb
        obtain ⟨ids, -, hrows, hbatch⟩ := Registrations.claimBatch_cases hc
        obtain ⟨x, hx, hid, rfl⟩ := hbatch o ho
        have hmem : x.claim ownerToken (claimedAt + cfg.claimLease) ∈ rows := by
          rw [hrows]
          exact Table.mem_update.mpr ⟨x, hx, .inl ⟨hid, rfl⟩⟩
        exact .of_mem hmem (.refl _) rfl
    refine hclaim.bind (fun operations => ?_) fun _ _ _ h => h
    split
    · exact fun _ _ _ => trivial
    · have hspawn : (registrationSpec cfg issued).Safe i
          (await (.spawn (operations.map fun o => ⟨o, ownerToken⟩)))
          (fun w => ∀ o ∈ operations, Snapshot w.db o) (Answered fun _ _ => True) := by
        refine await_safe (fun r => (Lasts.answered (fun _ => htrue) r).stable)
          fun w c r w' hw h hx => ?_
        cases c with
        | go locked =>
            cases hx
            refine ⟨owes_quiet hw rfl (fun t ht => ?_) hw.calm rfl fun _ _ => rfl, trivial⟩
            rcases List.mem_append.mp ht with ht | ht
            · exact hw.tasks t ht
            · obtain ⟨o, ho, rfl⟩ := List.mem_map.mp ht
              exact h o ho
        | fault x =>
            obtain ⟨hx', -, -⟩ := exec_fault hx
            cases hx'
        | _ => cases hx
      refine hspawn.bind (fun first => ?_) fun _ _ _ h => h
      refine (quiet_safe rfl htrue).bind (fun _ => ?_) fun _ _ _ h => h
      exact fun _ _ _ => trivial

theorem processTask_safe (n : Nat) :
    (registrationSpec cfg issued).Safe i (processTask cfg n) (fun _ => True)
      (Answered fun _ _ => True) := by
  have htask : (registrationSpec cfg issued).Safe i (await (.task n)) (fun _ => True)
      (Answered fun t w => Snapshot w.db t.operation) := by
    refine await_safe (fun r => (Lasts.answered (fun t : RegistrationTask =>
      lasts_snapshot t.operation) r).stable) fun w c r w' hw _ hx => ?_
    obtain ⟨⟨hdb, htasks, hraised, hhist, hfail⟩, herr⟩ := exec_quiet rfl hx
    refine ⟨owes_quiet hw hdb (by rw [htasks]; exact hw.tasks)
      (by rw [hraised]; exact hw.calm) hhist hfail, ?_⟩
    cases r with
    | error x => exact herr x rfl
    | ok t =>
        cases c with
        | go locked =>
            obtain ⟨t', ht', heq⟩ := Option.map_eq_some_iff.mp hx
            cases heq
            exact hw.tasks t (List.mem_of_getElem? ht')
        | fault x =>
            obtain ⟨-, hr, -⟩ := exec_fault hx
            cases hr
        | _ => cases hx
  refine htask.bind (fun t => ?_) fun _ _ _ h => h
  refine (resumeExecute_safe (lasts_snapshot t.operation) fun _ h => h).attempt fun r => ?_
  have hdone : ∀ Q : RegistrationWorld → Prop, (registrationSpec cfg issued).Safe i
      (await (.done n)) Q (Answered fun _ _ => True) := by
    refine fun Q => Spec.Safe.pre (P := fun _ => True) ?_ fun _ _ _ => trivial
    exact quiet_safe rfl (Lasts.const True)
  cases r with
  | ok result => exact hdone _
  | error x =>
      simp only
      split
      · exact hdone _
      · exact fun _ _ h => h

theorem redriveExecute_safe (operationId : Uuid) :
    (registrationSpec cfg issued).Safe i (redriveExecute operationId) (fun _ => True)
      (Answered fun _ _ => True) := by
  refine (quiet_safe rfl (Lasts.const True)).bind (fun availableAt => ?_) fun _ _ _ h => h
  exact tx_safe (fun _ => Lasts.const _) (fun _ _ _ => trivial) fun _ _ _ _ _ _ _ _ => trivial

/-! ## The pool -/

/-- What each process promises of its answer. -/
def Promise (i : Nat) : RegistrationCallee → RegistrationAnswer → RegistrationWorld → Prop
  | .register command, .result r => Registered i command r
  | _, _ => fun _ => True

theorem callee_safe {callee : RegistrationCallee}
    (hi : ∀ command, callee = .register command → issued command) :
    (registrationSpec cfg issued).Safe i (callee.program cfg) (fun _ => True)
      (Answered (Promise i callee)) := by
  cases callee with
  | register command =>
      refine (registerExecute_safe (hi command rfl)).bind (fun r => ?_) fun _ _ _ h => h
      exact fun _ _ h => h
  | runOnce batchSize =>
      refine (runOnce_safe batchSize).bind (fun r => ?_) fun _ _ _ h => h
      exact fun _ _ _ => trivial
  | processTask n =>
      refine (processTask_safe n).bind (fun r => ?_) fun _ _ _ h => h
      exact fun _ _ _ => trivial
  | redrive operationId =>
      refine (redriveExecute_safe operationId).bind (fun r => ?_) fun _ _ _ h => h
      exact fun _ _ _ => trivial

theorem closed_registration : (registrationSpec cfg issued).Closed where
  env v w w' hw hv _ := by
    cases v with
    | tick d =>
        cases hv
        exact ⟨⟨hw.accounts, hw.tasks, hw.calm⟩, ⟨.refl _, fun _ h => h⟩,
          fun _ => ⟨rfl, fun _ h _ => h⟩⟩
    | relay rows =>
        cases hv
        have ha := hw.accounts
        refine ⟨⟨⟨ha.unique, ha.lifecycle, ha.account, ha.event, ha.accountOwned, ha.eventOwned,
          ha.usersUnique, ha.origin⟩, hw.tasks, hw.calm⟩, ⟨⟨?_, fun _ h => h, List.prefix_rfl⟩,
          fun _ h => h⟩, fun _ => ⟨rfl, fun _ h _ => h⟩⟩
        exact fun o ho => ⟨o, ho, .refl o, fun _ => rfl, rfl⟩
  kill i w hw _ := owes_quiet hw rfl hw.tasks hw.calm rfl fun _ _ => rfl

/-- The commands that have been given. -/
def Issued (callees : Nat → Option RegistrationCallee) (command : RegisterUserCommand) : Prop :=
  ∃ i, callees i = some (.register command)

/-- What a process of the pool has promised. -/
def Promises (callees : Nat → Option RegistrationCallee) (i : Nat) :
    Except Exn RegistrationAnswer → RegistrationWorld → Prop :=
  Answered fun a w => ∀ callee, callees i = some callee → Promise i callee a w

/-- Along every run the outlines stay in place. -/
theorem registration_good {clock : Time} {callees : Nat → Option RegistrationCallee}
    {C : Config registrationSig Exn RegistrationWorld RegistrationAnswer}
    (h : RegistrationReach cfg (registrationStart cfg clock callees) C) :
    (registrationSpec cfg (Issued callees)).Good (Promises callees) C := by
  have hstart : (registrationSpec cfg (Issued callees)).Good (Promises callees)
      (registrationStart cfg clock callees) := by
    refine ⟨⟨.empty, ?_, ?_⟩, fun i p hp => ?_⟩
    · simp [registrationStart, RegistrationWorld.start]
    · simp [registrationStart, RegistrationWorld.start]
    · obtain ⟨callee, hc, rfl⟩ := Option.map_eq_some_iff.mp hp
      refine ⟨fun _ => True, Spec.Stable.const _, trivial, ?_⟩
      have hsafe : (registrationSpec cfg (Issued callees)).Safe i (callee.program cfg)
          (fun _ => True) (Answered (Promise i callee)) := by
        refine callee_safe ?_
        rintro command rfl
        exact ⟨i, hc⟩
      refine hsafe.post ?_
      rintro (x | a) w - hq
      · exact hq
      · intro callee' hc'
        rw [hc] at hc'
        cases hc'
        exact hq
  exact hstart.reach closed_registration h

end IdentityService
