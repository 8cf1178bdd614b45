import IdentityService.Http.Responses
import IdentityService.Registration.Outline

/-!
# What a registration raises

Of the exceptions that have a response of their own, which can the handler end
with? The Profile service and the tables raise none but an unavailable
profile, and a result that is pending always says when to come back.
-/

namespace IdentityService

open Concurrent

variable {α : Type} {ts : List ErrorType}

/-! ## The tables -/

namespace Registrations

variable (rows : List RegistrationOperation)

theorem toDomain_fails (o : RegistrationOperation) : FailsWithin ts o.toDomain := by
  unfold RegistrationOperation.toDomain
  split
  · exact Prog.raises_ok _ _
  · exact fails_none rfl

theorem write_fails (p : RegistrationOperation → Bool)
    (f : RegistrationOperation → RegistrationOperation) : FailsWithin ts (write rows p f) := by
  unfold write
  split
  · exact Prog.raises_ok _ _
  · exact fails_none rfl

theorem finish_fails (operationId ownerToken : Uuid) (time : Time)
    (f : RegistrationOperation → RegistrationOperation) :
    FailsWithin ts (finish rows operationId ownerToken time f) :=
  Prog.raises_bind (write_fails rows _ f) fun _ => Prog.raises_ok _ _

theorem validateClaimWindow_fails (claimedAt claimExpiresAt : Time) :
    FailsWithin ts (validateClaimWindow claimedAt claimExpiresAt) := by
  unfold validateClaimWindow
  split
  · exact fails_none rfl
  · exact Prog.raises_ok _ _

theorem getByKeyHash_fails (keyHash : Digest) : FailsWithin ts (getByKeyHash rows keyHash) := by
  unfold getByKeyHash
  split
  · exact Prog.raises_ok _ _
  · exact Prog.raises_bind (toDomain_fails _) fun _ => Prog.raises_ok _ _

theorem tryCreate_fails (operation : RegistrationOperation) :
    FailsWithin ts (tryCreate rows operation) := by
  unfold tryCreate
  split
  · exact fails_none rfl
  split
  · exact Prog.raises_ok _ _
  · exact Prog.raises_bind (toDomain_fails _) fun _ => Prog.raises_ok _ _

theorem claimByKeyHash_fails (keyHash : Digest) (ownerToken : Uuid)
    (claimedAt claimExpiresAt : Time) :
    FailsWithin ts (claimByKeyHash rows keyHash ownerToken claimedAt claimExpiresAt) := by
  refine Prog.raises_bind (validateClaimWindow_fails _ _) fun _ => ?_
  refine Prog.raises_bind (write_fails rows _ _) fun rows' => ?_
  split
  · exact Prog.raises_ok _ _
  · exact Prog.raises_bind (toDomain_fails _) fun _ => Prog.raises_ok _ _
  · exact fails_none rfl

theorem mapM_toDomain_fails (claimed : List RegistrationOperation) :
    FailsWithin ts (claimed.mapM RegistrationOperation.toDomain) := by
  induction claimed with
  | nil => exact Prog.raises_ok _ _
  | cons o rest ih =>
    rw [List.mapM_cons]
    refine Prog.raises_bind (toDomain_fails o) fun _ => ?_
    exact Prog.raises_bind ih fun _ => Prog.raises_ok _ _

theorem claimBatch_fails (locked : Uuid → Bool) (ownerToken : Uuid)
    (claimedAt claimExpiresAt : Time) (limit : Int) :
    FailsWithin ts (claimBatch rows locked ownerToken claimedAt claimExpiresAt limit) := by
  unfold claimBatch
  split
  · exact fails_none rfl
  · refine Prog.raises_bind (validateClaimWindow_fails _ _) fun _ => ?_
    refine Prog.raises_bind (write_fails rows _ _) fun rows' => ?_
    exact Prog.raises_bind (mapM_toDomain_fails _) fun _ => Prog.raises_ok _ _

theorem redriveBlocked_fails (operationId : Uuid) (availableAt : Time) :
    FailsWithin ts (redriveBlocked rows operationId availableAt) :=
  Prog.raises_bind (write_fails rows _ _) fun _ => Prog.raises_ok _ _

end Registrations

theorem Users.createIfAbsent_fails (users : List User) (user : User) :
    FailsWithin ts (createIfAbsent users user) := by
  unfold createIfAbsent
  split
  · exact Prog.raises_ok _ _
  split
  · exact fails_none rfl
  · exact Prog.raises_ok _ _

theorem Outbox.publish_fails (rows : List OutboxMessage) (topic : String)
    (event : IntegrationEvent) : FailsWithin ts (publish rows topic event) := by
  unfold publish
  split
  · exact fails_none rfl
  · exact Prog.raises_ok _ _

namespace RegistrationTx

theorem finalizeBody_fails {fmt : EventFormat} {db : RegistrationDb}
    {operationId ownerToken : Uuid} {completedAt : Time} {user : User}
    {eventId correlationId : Uuid} : FailsWithin ts
      (finalizeBody fmt db operationId ownerToken completedAt user eventId correlationId) := by
  refine Prog.raises_bind (Registrations.finish_fails _ _ _ _ _) fun finished => ?_
  refine Prog.raises_ite (fails_none (x := .lostRegistrationClaim) rfl) ?_
  refine Prog.raises_bind (Users.createIfAbsent_fails _ _) fun inserted => ?_
  obtain ⟨created, users⟩ := inserted
  cases created with
  | none => exact fails_none (x := .registrationFinalizationConflict) rfl
  | some user => exact Prog.raises_bind (Outbox.publish_fails _ _ _) fun _ => Prog.raises_ok _ _

/-- No unit of work raises an exception that has a response. -/
theorem body_fails {fmt : EventFormat} {locked : Uuid → Bool} {db : RegistrationDb}
    (t : RegistrationTx) : FailsWithin ts (t.body fmt locked db) := by
  have hthen : ∀ {β γ : Type} {e : Except Exn β} {f : β → γ}, FailsWithin ts e →
      FailsWithin ts (e >>= fun b => .ok (f b)) :=
    fun he => Prog.raises_bind he fun _ => Prog.raises_ok _ _
  cases t with
  | getByKeyHash keyHash => exact hthen (Registrations.getByKeyHash_fails _ _)
  | getUserByEmail email => exact Prog.raises_ok _ _
  | tryCreate candidate => exact hthen (Registrations.tryCreate_fails _ _)
  | commit => exact Prog.raises_ok _ _
  | getUser userId => exact Prog.raises_ok _ _
  | claimByKeyHash => exact hthen (Registrations.claimByKeyHash_fails _ _ _ _ _)
  | claimBatch => exact hthen (Registrations.claimBatch_fails _ _ _ _ _ _)
  | finalize => exact finalizeBody_fails
  | scheduleRetry => exact hthen (Registrations.finish_fails _ _ _ _ _)
  | block => exact hthen (Registrations.finish_fails _ _ _ _ _)
  | redriveBlocked => exact hthen (Registrations.redriveBlocked_fails _ _ _)

end RegistrationTx

/-! ## The machine -/

/-- The Profile service may reject a profile or be unavailable; nothing else
that is awaited raises an exception with a response. -/
def registrationMay (_ : RegistrationEff) (x : Exn) : Prop :=
  x.within [.profileProvisioningUnavailable] = true

theorem unwound_within {x : Exn} (h : x.within ts = true) : x.unwound.within ts = true := by
  cases x with
  | database d => cases d <;> rfl
  | _ => exact h

theorem mayRaise_within {e : RegistrationEff} {x : Exn} (h : e.mayRaise x = true) :
    x.within ts = true := by
  refine Exn.within_of_none ?_
  cases hx : x.errorType with
  | none => rfl
  | some t => cases x <;> cases hx <;> cases e <;> cases h

/-- What a unit of work ends with has no response. -/
theorem tx_within {cfg : RegistrationConfig} {i : Nat} {t : RegistrationTx}
    {c : RegistrationChoice} {w w' : RegistrationWorld} {x : Exn}
    (h : RegistrationWorld.exec cfg i (.tx t) c w = some (.error x, w')) :
    x.within ts = true := by
  rcases exec_tx h with ⟨_, _, _, _, hr, _⟩ | ⟨_, _, _, y, _, hr, hy, _⟩ | ⟨_, y, hb, hr, _⟩ |
    ⟨_, _, y, _, hr, hy, _⟩ | ⟨y, hr, hy, _⟩
  · cases hr
  · cases hr
    exact mayRaise_within hy
  · cases hr
    exact unwound_within (RegistrationTx.body_fails t y hb)
  · cases hr
    exact mayRaise_within hy
  · cases hr
    exact mayRaise_within hy

theorem registration_refuses {cfg : RegistrationConfig} (i : Nat) (e : RegistrationEff)
    (c : RegistrationChoice) (w : RegistrationWorld) (x : Exn) (w' : RegistrationWorld)
    (h : RegistrationWorld.exec cfg i e c w = some (.error x, w')) : registrationMay e x := by
  cases c with
  | fault y =>
    obtain ⟨hy, hr, -⟩ := exec_fault h
    cases hr
    exact mayRaise_within hy
  | profile reply =>
    cases e with
    | createProfile userId registeredAt =>
      cases reply <;> cases h <;> rfl
    | _ => cases h
  | _ =>
    cases e with
    | tx t => exact tx_within h
    | task n =>
      first
      | cases h
      | obtain ⟨t, -, ht⟩ := Option.map_eq_some_iff.mp h
        cases ht
    | join first count =>
      first
      | cases h
      | simp only [RegistrationWorld.exec] at h
        split at h <;> cases h
    | _ => cases h

/-! ## The handler -/

/-- The documented errors that a registration can end with. -/
def registerFailures : List ErrorType :=
  [.userAlreadyExists, .profileProvisioningUnavailable, .idempotencyKeyConflict]

/-- The program raises only what a registration can end with. -/
abbrev RegistrationRaises (p : Registration α) : Prop :=
  p.Answers registrationMay (Prog.raises fun x => x.within registerFailures = true)

/-- A result that is pending says when to come back. -/
def Registers : Except Exn RegistrationResult → Prop
  | .ok result => result.outcome = .pending → 1 ≤ result.retryAfterSeconds.getD 0
  | .error x => x.within registerFailures = true

theorem await_raises (e : RegistrationEff) : RegistrationRaises (await e) := by
  refine Prog.answers_await fun x hx => ?_
  have hunavailable : x.within [.profileProvisioningUnavailable] = true := hx
  cases ht : x.errorType with
  | none => exact Exn.within_of_none ht
  | some t =>
    simp only [Exn.within, ht, Option.all_some, List.contains_iff_mem] at hunavailable ⊢
    rw [List.mem_singleton.mp hunavailable]
    decide

theorem registers_bind {p : Registration α} {f : α → Registration RegistrationResult}
    (h : RegistrationRaises p) (hf : ∀ a, (f a).Answers registrationMay Registers) :
    (p.bind f).Answers registrationMay Registers := by
  refine h.bind (fun a _ => hf a) fun x hx => ?_
  exact (Prog.raises_error _ x).mp hx

theorem registers_error {x : Exn} (h : x.errorType = none) : Registers (.error x) :=
  Exn.within_of_none h

theorem registers_pending (operation : RegistrationOperation) (now : Time)
    (retryAt : Option Time) : Registers (.ok (pendingResult operation now retryAt)) :=
  fun _ => le_max_left _ _

theorem registers_completed (operationId userId : Uuid) :
    Registers (.ok (completedResult operationId userId)) := by
  intro h
  cases h

section Handler

variable {cfg : RegistrationConfig} (operation : RegistrationOperation) (ownerToken : Uuid)

theorem blockAndRaise_registers (error : Exn) {raised : Exn}
    (h : raised.within registerFailures = true) :
    (blockAndRaise operation ownerToken error raised).Answers registrationMay Registers := by
  have hblock : RegistrationRaises (blockOperation operation ownerToken error) :=
    (await_raises _).andThen fun _ => (await_raises _).andThen fun _ => Prog.raises_ok _ _
  exact registers_bind hblock fun _ => h

theorem retryOrBlock_registers (error : Exn) :
    (retryOrBlock cfg operation ownerToken error).Answers registrationMay Registers := by
  unfold retryOrBlock
  simp only
  split
  · exact blockAndRaise_registers operation ownerToken error (by decide)
  · refine registers_bind (await_raises .now) fun failedAt => ?_
    refine registers_bind (await_raises .jitter) fun jitterSample => ?_
    have hdelay : FailsWithin registerFailures
        (cfg.policy.delaySeconds (operation.attempts + 1) jitterSample) := by
      rw [RegistrationRetryPolicy.delaySeconds_eq]
      split
      · exact fails_none rfl
      · exact Prog.raises_ok _ _
    refine registers_bind (Prog.answers_ofExcept hdelay) fun delay => ?_
    refine registers_bind (await_raises _) fun _ => ?_
    exact registers_bind (await_raises .now) fun now => registers_pending _ _ _

theorem finalize_raises : RegistrationRaises (finalize operation ownerToken) := by
  unfold finalize
  split
  · exact fails_none (x := .runtimeError noPasswordHash) rfl
  · refine (await_raises .now).andThen fun completedAt => ?_
    refine (await_raises .uuid).andThen fun eventId => ?_
    exact (await_raises .uuid).andThen fun correlationId => await_raises _

/-- An exception that is not handled here blocks the operation and goes on. -/
theorem otherwise_registers {x : Exn} (h : x.within registerFailures = true) :
    (if x.isException then blockAndRaise operation ownerToken x x else throw x :
      Registration RegistrationResult).Answers registrationMay Registers := by
  split
  · exact blockAndRaise_registers operation ownerToken x h
  · exact h

theorem afterFinalize_registers {r : Except Exn User} (hr : FailsWithin registerFailures r) :
    (afterFinalize cfg operation ownerToken r).Answers registrationMay Registers := by
  cases r with
  | ok user => exact registers_completed _ _
  | error x =>
    have hx : x.within registerFailures = true := by simpa using hr
    cases x with
    | lostRegistrationClaim =>
      exact registers_bind (await_raises .now) fun now => registers_pending _ _ _
    | registrationFinalizationConflict =>
      exact blockAndRaise_registers operation ownerToken _ (by decide)
    | persistenceUnavailable => exact retryOrBlock_registers operation ownerToken _
    | transactionConflict => exact retryOrBlock_registers operation ownerToken _
    | _ => exact otherwise_registers operation ownerToken hx

theorem afterProfile_registers {r : Except Exn Unit} (hr : FailsWithin registerFailures r) :
    (afterProfile cfg operation ownerToken r).Answers registrationMay Registers := by
  cases r with
  | ok _ =>
    exact (finalize_raises operation ownerToken).attempt fun r hr =>
      afterFinalize_registers operation ownerToken hr
  | error x =>
    have hx : x.within registerFailures = true := by simpa using hr
    cases x with
    | profileProvisioningRejected =>
      exact blockAndRaise_registers operation ownerToken _ (by decide)
    | profileProvisioningUnavailable => exact retryOrBlock_registers operation ownerToken _
    | _ => exact otherwise_registers operation ownerToken hx

theorem resumeExecute_registers :
    (resumeExecute cfg operation ownerToken).Answers registrationMay Registers := by
  unfold resumeExecute
  split
  · exact registers_error (x := .valueError notOwned) rfl
  · exact (await_raises _).attempt fun r hr => afterProfile_registers operation ownerToken hr

theorem passwordHashOf_raises : RegistrationRaises (passwordHashOf operation) := by
  unfold passwordHashOf
  split
  · exact Prog.raises_ok _ _
  · refine (await_raises _).andThen fun user => ?_
    cases user with
    | none => exact fails_none (x := .runtimeError noUser) rfl
    | some user => exact Prog.raises_ok _ _

theorem claimExisting_registers :
    (claimExisting cfg operation).Answers registrationMay Registers := by
  refine registers_bind (await_raises .now) fun now => ?_
  refine registers_bind (await_raises .uuid) fun ownerToken => ?_
  refine registers_bind (await_raises _) fun claimed => ?_
  cases claimed with
  | none => exact registers_bind (await_raises .now) fun now => registers_pending _ _ _
  | some claimed => exact resumeExecute_registers claimed ownerToken

theorem answerExisting_registers :
    (answerExisting cfg operation).Answers registrationMay Registers := by
  unfold answerExisting
  split
  · exact registers_completed _ _
  · exact (by decide : Exn.profileProvisioningUnavailable.within registerFailures = true)
  · exact claimExisting_registers operation
  · exact claimExisting_registers operation

theorem resumeExisting_registers (email password : String) :
    (resumeExisting cfg operation email password).Answers registrationMay Registers := by
  have hconflict : Exn.idempotencyKeyConflict.within registerFailures = true := by decide
  unfold resumeExisting
  split
  · exact hconflict
  · refine registers_bind (passwordHashOf_raises operation) fun passwordHash => ?_
    refine registers_bind (await_raises _) fun verified => ?_
    cases verified with
    | false => exact hconflict
    | true => exact answerExisting_registers operation

theorem createOperation_raises (candidate : RegistrationOperation) :
    RegistrationRaises (createOperation candidate) := by
  refine (await_raises (.tx (.getUserByEmail candidate.email))).andThen fun user => ?_
  cases user with
  | none => exact await_raises _
  | some _ => exact (await_raises _).andThen fun _ => Prog.raises_ok _ _

theorem registerNew_registers (command : RegisterUserCommand) :
    (registerNew cfg command).Answers registrationMay Registers := by
  refine registers_bind (await_raises (.hash command.password)) fun passwordHash => ?_
  refine registers_bind (await_raises .now) fun now => ?_
  refine registers_bind (await_raises .uuid) fun ownerToken => ?_
  refine registers_bind (await_raises .uuid) fun id => ?_
  refine registers_bind (await_raises .uuid) fun userId => ?_
  refine registers_bind (createOperation_raises _) fun created => ?_
  cases created with
  | some created => exact resumeExecute_registers created ownerToken
  | none =>
    refine registers_bind (await_raises (.tx (.getByKeyHash command.keyHash))) fun existing => ?_
    cases existing with
    | none => exact (by decide : Exn.userAlreadyExists.within registerFailures = true)
    | some existing => exact resumeExisting_registers existing _ _

theorem registerExecute_registers (command : RegisterUserCommand) :
    (registerExecute cfg command).Answers registrationMay Registers := by
  refine registers_bind (await_raises (.tx (.getByKeyHash command.keyHash))) fun existing => ?_
  cases existing with
  | some existing => exact resumeExisting_registers existing _ _
  | none => exact registerNew_registers command

end Handler

end IdentityService
