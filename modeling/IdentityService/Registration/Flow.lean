import IdentityService.Concurrent.Flow
import IdentityService.Registration.World

/-!
# What a registration process does, in order

Whatever answers it gets, a process calls the Profile service only for the
operation it has claimed and outside its units of work; it finalizes only
after that call has returned; it schedules a retry only below the limit;
every claim it makes is under a token drawn for it; and it reports no task but
its own. These are facts about the handlers' own code. The runs of the whole
system build on them.
-/

namespace IdentityService

open Concurrent

/-! ## The flow -/

/-- What a process knows from its own answers: the operation it works on and
the token it was claimed under, the Profile call that has returned for it,
whether a unit of work is open, the UUIDs it has drawn and not spent on a
claim, what its last batch gave it, and the tasks it has been given. -/
structure RegistrationLocal where
  claim : Option RegistrationTask
  profiled : Option (Uuid × Time)
  inUnit : Bool
  drawn : List Uuid
  batch : List RegistrationTask
  taken : List Nat

namespace RegistrationEff

/-- The operation an answer gives a process to work on. -/
def obtained : (e : RegistrationEff) → Except Exn e.Resp → Option RegistrationTask
  | .tx (.tryCreate candidate), .ok (some o) => candidate.claimToken.map fun t => ⟨o, t⟩
  | .tx (.claimByKeyHash _ ownerToken _ _), .ok (some o) => some ⟨o, ownerToken⟩
  | .task _, .ok t => some t
  | _, _ => none

/-- The batch a claim answers with. -/
def batched : (e : RegistrationEff) → Except Exn e.Resp → Option (List RegistrationTask)
  | .tx (.claimBatch ownerToken _ _ _), .ok operations =>
    some (operations.map fun o => ⟨o, ownerToken⟩)
  | _, _ => none

/-- The unit of work of a creation stays open between its two statements;
every other unit of work is one effect. -/
def unitOpen : (e : RegistrationEff) → Except Exn e.Resp → Bool → Bool
  | .tx (.getUserByEmail _), .ok _, _ => true
  | .tx _, _, _ => false
  | _, _, inUnit => inUnit

/-- The Profile call that has returned normally. -/
def profileReturned : (e : RegistrationEff) → Except Exn e.Resp → Option (Uuid × Time)
  | .createProfile userId registeredAt, .ok _ => some (userId, registeredAt)
  | _, _ => none

def draw : (e : RegistrationEff) → Except Exn e.Resp → Option Uuid
  | .uuid, .ok u => some u
  | _, _ => none

/-- The place of the task an answer gives. -/
def taken : (e : RegistrationEff) → Except Exn e.Resp → Option Nat
  | .task n, .ok _ => some n
  | _, _ => none

/-- The token a claim puts into rows. -/
def spend : RegistrationEff → Option Uuid
  | .tx (.tryCreate candidate) => candidate.claimToken
  | .tx (.claimByKeyHash _ ownerToken _ _) => some ownerToken
  | .tx (.claimBatch ownerToken _ _ _) => some ownerToken
  | _ => none

end RegistrationEff

namespace RegistrationLocal

def start : RegistrationLocal := ⟨none, none, false, [], [], []⟩

def next (l : RegistrationLocal) (e : RegistrationEff) (r : Except Exn e.Resp) :
    RegistrationLocal where
  claim := (e.obtained r).or l.claim
  profiled := (e.profileReturned r).or (if (e.obtained r).isSome then none else l.profiled)
  inUnit := e.unitOpen r l.inUnit
  drawn :=
    match e.draw r with
    | some u => u :: l.drawn
    | none =>
      match e.spend with
      | some t => l.drawn.erase t
      | none => l.drawn
  batch := (e.batched r).getD l.batch
  taken := (e.taken r).toList ++ l.taken

/-- The process works on operation `id` under this token. -/
def Works (l : RegistrationLocal) (operation : RegistrationOperation) (ownerToken : Uuid) : Prop :=
  l.claim = some ⟨operation, ownerToken⟩

/-- Which effects are in order. -/
def Permits (maxAttempts : Nat) (l : RegistrationLocal) : RegistrationEff → Prop
  | .createProfile userId registeredAt => l.inUnit = false ∧
      ∃ o t, l.Works o t ∧ userId = o.userId ∧ registeredAt = o.createdAt
  | .tx (.finalize operationId ownerToken _ user _ _) =>
      l.profiled = some (user.id, user.createdAt) ∧
        ∃ o, l.Works o ownerToken ∧ o.id = operationId ∧ user.id = o.userId
  | .tx (.scheduleRetry operationId ownerToken _ _ _) =>
      ∃ o, l.Works o ownerToken ∧ o.id = operationId ∧ o.attempts + 1 < maxAttempts
  | .tx (.tryCreate candidate) => candidate.lifecycle = true ∧ candidate.status = .claimed ∧
      candidate.attempts = 0 ∧ ∀ t, candidate.claimToken = some t → t ∈ l.drawn
  | .tx (.claimByKeyHash _ ownerToken _ _) => ownerToken ∈ l.drawn
  | .tx (.claimBatch ownerToken _ _ _) => ownerToken ∈ l.drawn
  | .spawn tasks => ∀ t ∈ tasks, t ∈ l.batch
  | .done n => n ∈ l.taken
  | _ => True

end RegistrationLocal

/-- What a registration process does, in order. -/
def registrationFlow (cfg : RegistrationConfig) : Flow registrationSig Exn where
  State := RegistrationLocal
  start := .start
  permits := RegistrationLocal.Permits cfg.policy.maxAttempts
  next := RegistrationLocal.next

/-- The owner tokens of the processes. -/
def registrationTokens (cfg : RegistrationConfig) : Tokens (registrationFlow cfg) Uuid where
  draw := RegistrationEff.draw
  spend := RegistrationEff.spend
  held l := RegistrationLocal.drawn l
  start := rfl
  drawn l e r t h := by simp [registrationFlow, RegistrationLocal.next, h]
  spent l e r t h hs := by simp [registrationFlow, RegistrationLocal.next, h, hs]
  idle l e r h hs := by simp [registrationFlow, RegistrationLocal.next, h, hs]
  permitted l e t hp hs := by
    cases e with
    | tx tx =>
      cases tx with
      | tryCreate candidate => exact hp.2.2.2 t hs
      | claimByKeyHash keyHash ownerToken claimedAt claimExpiresAt =>
        cases hs
        exact hp
      | claimBatch ownerToken claimedAt claimExpiresAt limit =>
        cases hs
        exact hp
      | _ => cases hs
    | _ => cases hs
  apart e r t h := by
    cases e with
    | uuid => rfl
    | _ => cases h

/-! ## The handlers keep to it -/

section Handlers

variable {cfg : RegistrationConfig} {l : RegistrationLocal} {o : RegistrationOperation}
  {ownerToken : Uuid}

/-- However the program ends. -/
def Anyhow {α : Type} (_ : Except Exn α) (_ : RegistrationLocal) : Prop := True

theorem RegistrationLocal.Works.next {e : RegistrationEff} {r : Except Exn e.Resp}
    (h : l.Works o ownerToken) (hnone : e.obtained r = none) : (l.next e r).Works o ownerToken := by
  simpa [RegistrationLocal.Works, RegistrationLocal.next, hnone] using h

/-- One await, and what comes after it. -/
theorem follows_await {β : Type} {e : RegistrationEff} {f : e.Resp → Registration β}
    (hp : l.Permits cfg.policy.maxAttempts e)
    (hok : ∀ a, (registrationFlow cfg).Follows (f a) (l.next e (.ok a)) Anyhow) :
    (registrationFlow cfg).Follows ((await e).bind f) l Anyhow := by
  refine Flow.Follows.bind (Flow.Follows.perform hp fun r => rfl : (registrationFlow cfg).Follows
    (await e) l fun r l' => l' = l.next e r) ?_ fun _ _ _ => trivial
  rintro a l' rfl
  exact hok a

theorem follows_last {e : RegistrationEff} (hp : l.Permits cfg.policy.maxAttempts e) :
    (registrationFlow cfg).Follows (await e) l Anyhow :=
  Flow.Follows.perform hp fun _ => trivial

theorem blockAndRaise_follows (error raised : Exn) :
    (registrationFlow cfg).Follows (blockAndRaise o ownerToken error raised) l Anyhow := by
  refine Flow.Follows.bind (Q := Anyhow) ?_ (fun _ _ _ => trivial) fun _ _ _ => trivial
  refine follows_await trivial fun blockedAt => ?_
  exact follows_await trivial fun _ => trivial

theorem retryOrBlock_follows (hw : l.Works o ownerToken) (error : Exn) :
    (registrationFlow cfg).Follows (retryOrBlock cfg o ownerToken error) l Anyhow := by
  simp only [retryOrBlock]
  split
  · exact blockAndRaise_follows _ _
  · rename_i hmore
    refine follows_await trivial fun failedAt => ?_
    refine follows_await trivial fun jitterSample => ?_
    cases cfg.policy.delaySeconds (o.attempts + 1) jitterSample with
    | error x => exact trivial
    | ok delay =>
      have hworks : ((l.next .now (.ok failedAt)).next .jitter (.ok jitterSample)).Works o
          ownerToken := (hw.next rfl).next rfl
      refine follows_await ⟨o, hworks, rfl, Nat.lt_of_not_le hmore⟩ fun _ => ?_
      exact follows_await trivial fun _ => trivial

/-- `_finalize` writes what the claim says, and leaves the claim alone. -/
theorem finalize_follows (hw : l.Works o ownerToken)
    (hprofiled : l.profiled = some (o.userId, o.createdAt)) :
    (registrationFlow cfg).Follows (finalize o ownerToken) l
      fun _ l' => l'.Works o ownerToken := by
  simp only [finalize]
  split
  · exact hw
  · rename_i passwordHash hhash
    -- the clock and the two ids change neither the claim nor what was called
    refine ⟨trivial, fun now => ?_⟩
    cases now with
    | error x => exact hw.next rfl
    | ok completedAt =>
      refine ⟨trivial, fun eventId => ?_⟩
      cases eventId with
      | error x => exact (hw.next rfl).next rfl
      | ok eventId =>
        refine ⟨trivial, fun correlationId => ?_⟩
        cases correlationId with
        | error x => exact ((hw.next rfl).next rfl).next rfl
        | ok correlationId =>
          have hworks := ((hw.next (r := .ok completedAt) (e := .now) rfl).next
            (r := .ok eventId) (e := .uuid) rfl).next (r := .ok correlationId) (e := .uuid) rfl
          refine Flow.Follows.perform ⟨?_, o, hworks, rfl, rfl⟩ fun r => ?_
          · exact hprofiled
          · cases r with
            | ok user => exact hworks.next rfl
            | error x => exact hworks.next rfl

theorem afterFinalize_follows (hw : l.Works o ownerToken) (r : Except Exn User) :
    (registrationFlow cfg).Follows (afterFinalize cfg o ownerToken r) l Anyhow := by
  unfold afterFinalize
  split
  · exact trivial
  · exact follows_await trivial fun _ => trivial
  · exact blockAndRaise_follows _ _
  · exact retryOrBlock_follows hw _
  · exact retryOrBlock_follows hw _
  · split
    · exact blockAndRaise_follows _ _
    · exact trivial

theorem afterProfile_follows (hw : l.Works o ownerToken) (r : Except Exn Unit)
    (hr : ∀ a, r = .ok a → l.profiled = some (o.userId, o.createdAt)) :
    (registrationFlow cfg).Follows (afterProfile cfg o ownerToken r) l Anyhow := by
  unfold afterProfile
  split
  · exact (finalize_follows hw (hr _ rfl)).attempt fun r l' hw' => afterFinalize_follows hw' r
  · exact blockAndRaise_follows _ _
  · exact retryOrBlock_follows hw _
  · split
    · exact blockAndRaise_follows _ _
    · exact trivial

theorem resumeExecute_follows (hw : l.Works o ownerToken) (hunit : l.inUnit = false) :
    (registrationFlow cfg).Follows (resumeExecute cfg o ownerToken) l Anyhow := by
  simp only [resumeExecute]
  split
  · exact trivial
  · have hcall : (registrationFlow cfg).Follows (await (.createProfile o.userId o.createdAt)) l
        fun r l' => l' = l.next (.createProfile o.userId o.createdAt) r :=
      Flow.Follows.perform ⟨hunit, o, ownerToken, hw, rfl, rfl⟩ fun _ => rfl
    refine hcall.attempt fun r l' hl' => ?_
    subst hl'
    cases r with
    | ok a => exact afterProfile_follows (hw.next rfl) _ fun _ _ => rfl
    | error x => exact afterProfile_follows (hw.next rfl) _ nofun

theorem claimExisting_follows (o : RegistrationOperation) :
    (registrationFlow cfg).Follows (claimExisting cfg o) l Anyhow := by
  refine follows_await trivial fun now => ?_
  refine follows_await trivial fun ownerToken => ?_
  refine follows_await (List.mem_cons_self : ownerToken ∈ ownerToken :: l.drawn) fun r => ?_
  cases r with
  | none => exact follows_await trivial fun _ => trivial
  | some claimed => exact resumeExecute_follows rfl rfl

theorem answerExisting_follows (o : RegistrationOperation) :
    (registrationFlow cfg).Follows (answerExisting cfg o) l Anyhow := by
  unfold answerExisting
  split
  · exact trivial
  · exact trivial
  · exact claimExisting_follows o
  · exact claimExisting_follows o

theorem passwordHashOf_follows (o : RegistrationOperation) :
    (registrationFlow cfg).Follows (passwordHashOf o) l Anyhow := by
  unfold passwordHashOf
  split
  · exact trivial
  · refine follows_await trivial fun user => ?_
    cases user with
    | none => exact trivial
    | some u => exact trivial

theorem resumeExisting_follows (o : RegistrationOperation) (email password : String) :
    (registrationFlow cfg).Follows (resumeExisting cfg o email password) l Anyhow := by
  simp only [resumeExisting]
  split
  · exact trivial
  · refine (passwordHashOf_follows o).bind (fun passwordHash l' _ => ?_) fun _ _ _ => trivial
    refine follows_await trivial fun verified => ?_
    split
    · exact trivial
    · exact answerExisting_follows o

theorem createOperation_follows {candidate : RegistrationOperation}
    (hlife : candidate.lifecycle = true) (hstatus : candidate.status = .claimed)
    (hattempts : candidate.attempts = 0) (htoken : candidate.claimToken = some ownerToken)
    (hdrawn : ownerToken ∈ l.drawn) :
    (registrationFlow cfg).Follows (createOperation candidate) l fun r l' =>
      ∀ created, r = .ok (some created) → l'.Works created ownerToken ∧ l'.inUnit = false := by
  refine ⟨trivial, fun found => ?_⟩
  cases found with
  | error x => exact nofun
  | ok found =>
    cases found with
    | some user =>
      refine ⟨trivial, fun r => ?_⟩
      cases r with
      | error x => exact nofun
      | ok _ => exact nofun
    | none =>
      have hmine : ∀ t, candidate.claimToken = some t → t ∈ l.drawn := by
        intro t ht
        rw [htoken] at ht
        cases ht
        exact hdrawn
      refine Flow.Follows.perform ⟨hlife, hstatus, hattempts, hmine⟩ fun r created hr => ?_
      subst hr
      have hgot : RegistrationEff.obtained (.tx (.tryCreate candidate)) (.ok (some created)) =
          some ⟨created, ownerToken⟩ := by
        simp [RegistrationEff.obtained, htoken]
      refine ⟨?_, rfl⟩
      simp [RegistrationLocal.Works, registrationFlow, RegistrationLocal.next, hgot]

theorem registerNew_follows (command : RegisterUserCommand) :
    (registrationFlow cfg).Follows (registerNew cfg command) l Anyhow := by
  refine follows_await trivial fun passwordHash => ?_
  refine follows_await trivial fun now => ?_
  refine follows_await trivial fun ownerToken => ?_
  refine follows_await trivial fun id => ?_
  refine follows_await trivial fun userId => ?_
  refine (createOperation_follows rfl rfl rfl (rfl : _ = some ownerToken) ?_).bind
    (fun created l' hl' => ?_) fun _ _ _ => trivial
  · exact List.mem_cons_of_mem _ (List.mem_cons_of_mem _ List.mem_cons_self)
  · cases created with
    | some created =>
      obtain ⟨hworks, hunit⟩ := hl' created rfl
      exact resumeExecute_follows hworks hunit
    | none =>
      refine follows_await trivial fun existing => ?_
      cases existing with
      | none => exact trivial
      | some existing => exact resumeExisting_follows _ _ _

theorem registerExecute_follows (command : RegisterUserCommand) :
    (registrationFlow cfg).Follows (registerExecute cfg command) l Anyhow := by
  refine follows_await trivial fun existing => ?_
  cases existing with
  | some existing => exact resumeExisting_follows _ _ _
  | none => exact registerNew_follows command

theorem runOnce_follows (batchSize : Int) :
    (registrationFlow cfg).Follows (runOnce cfg batchSize) l Anyhow := by
  simp only [runOnce]
  split
  · exact trivial
  · refine follows_await trivial fun ownerToken => ?_
    refine follows_await trivial fun claimedAt => ?_
    refine follows_await (List.mem_cons_self : ownerToken ∈ ownerToken :: l.drawn)
      fun operations => ?_
    split
    · exact trivial
    · refine follows_await (fun t ht => ht) fun first => ?_
      exact follows_await trivial fun _ => trivial

theorem processTask_follows (n : Nat) :
    (registrationFlow cfg).Follows (processTask cfg n) .start Anyhow := by
  refine follows_await trivial fun task => ?_
  have hworks : (RegistrationLocal.start.next (.task n) (.ok task)).Works task.operation
      task.ownerToken := rfl
  have hkept : ∀ (l : RegistrationLocal) e r, n ∈ l.taken → n ∈ (l.next e r).taken :=
    fun _ _ _ h => List.mem_append_right _ h
  have htaken : n ∈ (RegistrationLocal.start.next (.task n) (.ok task)).taken :=
    List.mem_singleton_self n
  refine ((resumeExecute_follows hworks rfl).keeping hkept htaken).attempt fun r l' hl' => ?_
  cases r with
  | ok result => exact follows_last hl'.2
  | error x =>
    simp only
    split
    · exact follows_last hl'.2
    · exact trivial

theorem redriveExecute_follows (operationId : Uuid) :
    (registrationFlow cfg).Follows (redriveExecute operationId) l Anyhow := by
  refine follows_await trivial fun availableAt => ?_
  exact follows_last trivial

theorem callee_follows (callee : RegistrationCallee) :
    (registrationFlow cfg).Follows (callee.program cfg) .start Anyhow := by
  cases callee with
  | register command =>
    exact (registerExecute_follows command).bind (fun _ _ _ => trivial) fun _ _ _ => trivial
  | runOnce batchSize =>
    exact (runOnce_follows batchSize).bind (fun _ _ _ => trivial) fun _ _ _ => trivial
  | processTask n =>
    exact (processTask_follows n).bind (fun _ _ _ => trivial) fun _ _ _ => trivial
  | redrive operationId =>
    exact (redriveExecute_follows operationId).bind (fun _ _ _ => trivial) fun _ _ _ => trivial

end Handlers

end IdentityService
