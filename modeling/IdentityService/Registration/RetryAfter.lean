import IdentityService.Concurrent.Record
import IdentityService.Registration.Budget

/-!
# How long a caller is told to wait

A PENDING result says after how many seconds the request is worth repeating.
It is computed from the operation the call HOLDS: the row as the call last
read, created or claimed it. `_resume_existing` still answers from the row it
loaded when its claim was refused, and a worker that lost its claim from the
row it had claimed, so the answer is right as long as each of the call's units
of work finds the row as the call holds it.
-/

namespace IdentityService

open Concurrent

/-! ## The wait -/

/-- What `pending_result` waits for. -/
def effectiveRetryAt (operation : RegistrationOperation) : Option Time → Time
  | some time => time
  | none =>
    if operation.status = .claimed then operation.claimExpiresAt.getD operation.availableAt
    else operation.availableAt

/-- The wait is rounded up: after it, that time has come. -/
theorem pendingResult_wait {o : RegistrationOperation} {now : Time} {retryAt : Option Time}
    {s : Int} (h : (pendingResult o now retryAt).retryAfterSeconds = some s) :
    (effectiveRetryAt o retryAt : Int) ≤ now + s * second := by
  have hwait : s = max 1 (-(-((effectiveRetryAt o retryAt : Int) - now) / second)) := by
    cases retryAt with
    | some time => exact (Option.some.inj h).symm
    | none =>
      by_cases hclaimed : o.status = .claimed
      · simpa [pendingResult, effectiveRetryAt, hclaimed] using h.symm
      · simpa [pendingResult, effectiveRetryAt, hclaimed] using h.symm
  have hround : -((effectiveRetryAt o retryAt : Int) - now) / second * second ≤
      -((effectiveRetryAt o retryAt : Int) - now) := Int.ediv_mul_le _ (by decide)
  have hle : -(-((effectiveRetryAt o retryAt : Int) - now) / second) ≤ s := by
    rw [hwait]
    exact le_max_right _ _
  have hscaled := Int.mul_le_mul_of_nonneg_right hle (by decide : (0 : Int) ≤ second)
  rw [Int.neg_mul] at hscaled
  omega

/-! ## What a call holds -/

namespace RegistrationEff

/-- The operation an answer hands the call. -/
def hands : (e : RegistrationEff) → Except Exn e.Resp → Option RegistrationOperation
  | .tx (.getByKeyHash _), .ok (some o) => some o
  | .tx (.tryCreate _), .ok (some o) => some o
  | .tx (.claimByKeyHash _ _ _ _), .ok (some o) => some o
  | .task _, .ok t => some t.operation
  | _, _ => none

def reading : (e : RegistrationEff) → Except Exn e.Resp → Option Time
  | .now, .ok time => some time
  | _, _ => none

/-- The clock and the source of UUIDs do not fail. -/
def calm : (e : RegistrationEff) → Except Exn e.Resp → Bool
  | .now, .error _ => false
  | .uuid, .error _ => false
  | _, _ => true

def isTx : RegistrationEff → Bool
  | .tx _ => true
  | _ => false

end RegistrationEff

/-- What a call knows from its own answers: the operation it holds, its last
unit of work with the operation it held then, and its last look at the
clock. -/
structure WaitLocal where
  held : Option RegistrationOperation
  last : Option (Option RegistrationOperation × Answer registrationSig Exn)
  reading : Option Time
  calm : Bool

namespace WaitLocal

def start : WaitLocal := ⟨none, none, none, true⟩

def next (l : WaitLocal) (e : RegistrationEff) (r : Except Exn e.Resp) : WaitLocal where
  held := (e.hands r).or l.held
  last := if e.isTx then some (l.held, ⟨e, r⟩) else l.last
  reading := (e.reading r).or l.reading
  calm := l.calm && e.calm r

theorem next_tx {l : WaitLocal} {held : Option RegistrationOperation} (h : l.held = held)
    (t : RegistrationTx) (r : Except Exn t.Resp) :
    (l.next (.tx t) r).last = some (held, ⟨.tx t, r⟩) := by
  rw [← h]
  rfl

end WaitLocal

/-- What the waiting times are computed from. -/
def waitFlow : Flow registrationSig Exn where
  State := WaitLocal
  start := .start
  permits _ _ := True
  next := WaitLocal.next

/-- How a call comes to answer PENDING: its last unit of work and the result
made of the operation it held then. -/
inductive Owed (l : WaitLocal) (result : RegistrationResult) : Prop where
  | refused {o : RegistrationOperation} {ownerToken : Uuid} {claimedAt claimExpiresAt now : Time}
      (last : l.last = some (some o,
        ⟨.tx (.claimByKeyHash o.keyHash ownerToken claimedAt claimExpiresAt), .ok none⟩))
      (unfinished : o.nonterminal = true) (reading : l.reading = some now)
      (result : result = pendingResult o now none)
  | lost {o : RegistrationOperation} {ownerToken : Uuid} {completedAt now : Time} {user : User}
      {eventId correlationId : Uuid}
      (last : l.last = some (some o,
        ⟨.tx (.finalize o.id ownerToken completedAt user eventId correlationId),
          .error .lostRegistrationClaim⟩))
      (claimed : o.status = .claimed) (reading : l.reading = some now)
      (result : result = pendingResult o now none)
  | scheduled {o : RegistrationOperation} {ownerToken : Uuid} {failedAt retryAt now : Time}
      {errorClass : String} {b : Bool}
      (last : l.last = some (some o,
        ⟨.tx (.scheduleRetry o.id ownerToken failedAt retryAt errorClass), .ok b⟩))
      (claimed : o.status = .claimed) (token : o.claimToken = some ownerToken)
      (later : failedAt ≤ retryAt) (reading : l.reading = some now)
      (result : result = pendingResult o now (some retryAt))

/-- A call that ends PENDING has come to it in one of these ways. -/
def Owes (r : Except Exn RegistrationResult) (l : WaitLocal) : Prop :=
  l.calm = true → ∀ result, r = .ok result → result.outcome = .pending → Owed l result

/-! ## The handlers -/

section Handlers

variable {cfg : RegistrationConfig} {l : WaitLocal} {o : RegistrationOperation} {ownerToken : Uuid}

theorem owes_error (x : Exn) : Owes (.error x) l := by
  intro _ result hresult
  cases hresult

theorem owes_completed (operationId userId : Uuid) :
    Owes (.ok (completedResult operationId userId)) l := by
  intro _ result hresult hpending
  cases hresult
  cases hpending

/-- One await, and what comes after it. -/
theorem owes_await {e : RegistrationEff} {f : e.Resp → Registration RegistrationResult}
    (hok : ∀ a, waitFlow.Follows (f a) (l.next e (.ok a)) Owes) :
    waitFlow.Follows ((await e).bind f) l Owes := by
  refine ⟨trivial, fun r => ?_⟩
  cases r with
  | ok a => exact hok a
  | error x => exact owes_error x

theorem blockAndRaise_owes (error raised : Exn) :
    waitFlow.Follows (blockAndRaise o ownerToken error raised) l Owes := by
  refine ⟨trivial, fun blockedAt => ?_⟩
  cases blockedAt with
  | error x => exact owes_error x
  | ok blockedAt =>
    refine ⟨trivial, fun r => ?_⟩
    cases r with
    | error x => exact owes_error x
    | ok b => exact owes_error raised

theorem retryOrBlock_owes (hheld : l.held = some o) (hclaimed : o.status = .claimed)
    (htoken : o.claimToken = some ownerToken) (error : Exn) :
    waitFlow.Follows (retryOrBlock cfg o ownerToken error) l Owes := by
  simp only [retryOrBlock]
  split
  · exact blockAndRaise_owes _ _
  · refine owes_await fun failedAt => owes_await fun jitterSample => ?_
    cases cfg.policy.delaySeconds (o.attempts + 1) jitterSample with
    | error x => exact owes_error x
    | ok delay =>
      refine owes_await fun scheduled => owes_await fun now => ?_
      intro _ result hresult _
      cases hresult
      have hkept : ((l.next .now (.ok failedAt)).next .jitter (.ok jitterSample)).held = some o :=
        hheld
      exact .scheduled (WaitLocal.next_tx hkept _ _) hclaimed htoken (Nat.le_add_right _ _) rfl rfl

/-- The operation a call holds and the answer of its finalization. -/
def FinalizedBy (o : RegistrationOperation) (ownerToken : Uuid) (r : Except Exn User)
    (l : WaitLocal) : Prop :=
  l.held = some o ∧ (l.calm = true → r = .error .lostRegistrationClaim →
    ∃ completedAt user eventId correlationId, l.last = some (some o,
      ⟨.tx (.finalize o.id ownerToken completedAt user eventId correlationId),
        .error .lostRegistrationClaim⟩))

theorem finalize_by (hheld : l.held = some o) :
    waitFlow.Follows (finalize o ownerToken) l (FinalizedBy o ownerToken) := by
  simp only [finalize]
  split
  · exact ⟨hheld, fun _ hlost => by cases hlost⟩
  · refine ⟨trivial, fun completedAt => ?_⟩
    cases completedAt with
    | error x =>
      refine ⟨hheld, fun hcalm _ => ?_⟩
      simp [waitFlow, WaitLocal.next, RegistrationEff.calm] at hcalm
    | ok completedAt =>
      refine ⟨trivial, fun eventId => ?_⟩
      cases eventId with
      | error x =>
        refine ⟨hheld, fun hcalm _ => ?_⟩
        simp [waitFlow, WaitLocal.next, RegistrationEff.calm] at hcalm
      | ok eventId =>
        refine ⟨trivial, fun correlationId => ?_⟩
        cases correlationId with
        | error x =>
          refine ⟨hheld, fun hcalm _ => ?_⟩
          simp [waitFlow, WaitLocal.next, RegistrationEff.calm] at hcalm
        | ok correlationId =>
          refine ⟨trivial, fun r => ?_⟩
          cases r with
          | ok user => exact ⟨hheld, fun _ hlost => by cases hlost⟩
          | error x =>
            refine ⟨hheld, fun hcalm hlost => ?_⟩
            cases hlost
            exact ⟨completedAt, _, eventId, correlationId, WaitLocal.next_tx hheld _ _⟩

theorem afterFinalize_owes {r : Except Exn User} (h : FinalizedBy o ownerToken r l)
    (hclaimed : o.status = .claimed) (htoken : o.claimToken = some ownerToken) :
    waitFlow.Follows (afterFinalize cfg o ownerToken r) l Owes := by
  unfold afterFinalize
  split
  · exact owes_completed _ _
  · refine owes_await fun now => ?_
    intro hcalm result hresult _
    cases hresult
    have hcalm' : l.calm = true := by
      simpa [WaitLocal.next, RegistrationEff.calm] using hcalm
    obtain ⟨completedAt, user, eventId, correlationId, hlast⟩ := h.2 hcalm' rfl
    exact .lost hlast hclaimed rfl rfl
  · exact blockAndRaise_owes _ _
  · exact retryOrBlock_owes h.1 hclaimed htoken _
  · exact retryOrBlock_owes h.1 hclaimed htoken _
  · split
    · exact blockAndRaise_owes _ _
    · exact owes_error _

theorem afterProfile_owes (hheld : l.held = some o) (hclaimed : o.status = .claimed)
    (htoken : o.claimToken = some ownerToken) (r : Except Exn Unit) :
    waitFlow.Follows (afterProfile cfg o ownerToken r) l Owes := by
  unfold afterProfile
  split
  · exact (finalize_by hheld).attempt fun r l' h => afterFinalize_owes h hclaimed htoken
  · exact blockAndRaise_owes _ _
  · exact retryOrBlock_owes hheld hclaimed htoken _
  · split
    · exact blockAndRaise_owes _ _
    · exact owes_error _

theorem resumeExecute_owes (hheld : l.held = some o) :
    waitFlow.Follows (resumeExecute cfg o ownerToken) l Owes := by
  simp only [resumeExecute]
  split
  · exact owes_error _
  · rename_i howned
    obtain ⟨hclaimed, htoken⟩ : o.status = .claimed ∧ o.claimToken = some ownerToken := by
      simpa using howned
    have hcall : waitFlow.Follows (await (.createProfile o.userId o.createdAt)) l
        fun _ l' => l'.held = some o := Flow.Follows.perform trivial fun _ => hheld
    exact hcall.attempt fun r l' hl' => afterProfile_owes hl' hclaimed htoken r

theorem claimExisting_owes (hheld : l.held = some o) (hopen : o.nonterminal = true) :
    waitFlow.Follows (claimExisting cfg o) l Owes := by
  refine owes_await fun claimedAt => owes_await fun ownerToken => owes_await fun claimed => ?_
  cases claimed with
  | some claimed => exact resumeExecute_owes rfl
  | none =>
    refine owes_await fun now => ?_
    intro _ result hresult _
    cases hresult
    have hkept : ((l.next .now (.ok claimedAt)).next .uuid (.ok ownerToken)).held = some o := hheld
    exact .refused (WaitLocal.next_tx hkept _ _) hopen rfl rfl

theorem answerExisting_owes (hheld : l.held = some o) :
    waitFlow.Follows (answerExisting cfg o) l Owes := by
  unfold answerExisting
  split
  · exact owes_completed _ _
  · exact owes_error _
  · rename_i hstatus
    exact claimExisting_owes hheld (by simp [RegistrationOperation.nonterminal, hstatus])
  · rename_i hstatus
    exact claimExisting_owes hheld (by simp [RegistrationOperation.nonterminal, hstatus])

theorem resumeExisting_owes (hheld : l.held = some o) (email password : String) :
    waitFlow.Follows (resumeExisting cfg o email password) l Owes := by
  have hhash : waitFlow.Follows (passwordHashOf o) l fun _ l' => l'.held = some o := by
    unfold passwordHashOf
    split
    · exact hheld
    · refine ⟨trivial, fun user => ?_⟩
      cases user with
      | error x => exact hheld
      | ok user => cases user <;> exact hheld
  simp only [resumeExisting]
  split
  · exact owes_error _
  · refine hhash.bind (fun passwordHash l' hl' => ?_) fun x l' _ => owes_error x
    refine owes_await fun verified => ?_
    split
    · exact owes_error _
    · exact answerExisting_owes hl'

theorem createOperation_holds (candidate : RegistrationOperation) :
    waitFlow.Follows (createOperation candidate) l fun r l' =>
      ∀ created, r = .ok (some created) → l'.held = some created := by
  refine ⟨trivial, fun found => ?_⟩
  cases found with
  | error x => exact nofun
  | ok found =>
    cases found with
    | some user =>
      refine ⟨trivial, fun r => ?_⟩
      cases r with
      | error x => exact nofun
      | ok _ => exact nofun
    | none =>
      refine Flow.Follows.perform trivial fun r created hr => ?_
      subst hr
      rfl

theorem registerNew_owes (command : RegisterUserCommand) :
    waitFlow.Follows (registerNew cfg command) l Owes := by
  refine owes_await fun passwordHash => owes_await fun now => owes_await fun ownerToken =>
    owes_await fun id => owes_await fun userId => ?_
  refine (createOperation_holds _).bind (fun created l' hl' => ?_) fun x l' _ => owes_error x
  cases created with
  | some created => exact resumeExecute_owes (hl' created rfl)
  | none =>
    refine owes_await fun existing => ?_
    cases existing with
    | none => exact owes_error _
    | some existing => exact resumeExisting_owes rfl _ _

theorem registerExecute_owes (command : RegisterUserCommand) :
    waitFlow.Follows (registerExecute cfg command) l Owes := by
  refine owes_await fun existing => ?_
  cases existing with
  | some existing => exact resumeExisting_owes rfl _ _
  | none => exact registerNew_owes command

end Handlers

/-! ## The row the last unit of work leaves -/

section Rows

variable {cfg : RegistrationConfig} {i : Nat} {w w' : RegistrationWorld} {c : RegistrationChoice}
  {hasher : PasswordHasher} {issued : RegisterUserCommand → Prop} {db : RegistrationDb}
  {o row : RegistrationOperation} {ownerToken : Uuid} {time claimedAt claimExpiresAt : Time}

/-- An open row may be claimed once its own time has come. -/
theorem eligible_at (hlife : o.lifecycle = true) (hopen : o.nonterminal = true)
    (h : effectiveRetryAt o none ≤ time) : o.eligible time = true := by
  cases hstatus : o.status with
  | pending =>
    have havailable : o.availableAt ≤ time := by simpa [effectiveRetryAt, hstatus] using h
    simp [RegistrationOperation.eligible, hstatus, havailable]
  | claimed =>
    obtain ⟨expires, hexpires⟩ : ∃ expires, o.claimExpiresAt = some expires := by
      simp only [RegistrationOperation.lifecycle, hstatus, Bool.and_eq_true] at hlife
      exact Option.isSome_iff_exists.mp hlife.1.2
    have hle : expires ≤ time := by simpa [effectiveRetryAt, hstatus, hexpires] using h
    simp [RegistrationOperation.eligible, hstatus, hexpires, hle]
  | completed => simp [RegistrationOperation.nonterminal, hstatus] at hopen
  | blocked => simp [RegistrationOperation.nonterminal, hstatus] at hopen

/-- A claim is refused when no row of the key is eligible. -/
theorem claimByKeyHash_none {rows rows' : List RegistrationOperation} {keyHash : Digest}
    (h : Registrations.claimByKeyHash rows keyHash ownerToken claimedAt claimExpiresAt =
      .ok (none, rows')) :
    ∀ o ∈ rows, (decide (o.keyHash = keyHash) && o.eligible claimedAt) = false := by
  simp only [Registrations.claimByKeyHash, bind_eq_ok] at h
  obtain ⟨-, -, written, -, h⟩ := h
  split at h
  · rename_i hnil
    intro o ho
    exact Bool.eq_false_iff.mpr (List.filter_eq_nil_iff.mp hnil o ho)
  · simp only [bind_eq_ok] at h
    obtain ⟨claimed, -, h⟩ := h
    cases h
  · cases h

/-- An eligible row is claimed by its key. -/
theorem claimByKeyHash_succeeds (h : Accounts hasher issued db) (hrow : row ∈ db.operations)
    (heligible : row.eligible claimedAt = true) (hwindow : claimedAt < claimExpiresAt) :
    ∃ rows, Registrations.claimByKeyHash db.operations row.keyHash ownerToken claimedAt
      claimExpiresAt = .ok (some (row.claim ownerToken claimExpiresAt), rows) := by
  obtain ⟨⟨r, rows⟩, hclaim⟩ :=
    h.statementsPass.claimByKeyHash row.keyHash ownerToken claimedAt claimExpiresAt hwindow
  refine ⟨rows, ?_⟩
  rw [hclaim]
  rcases (Registrations.claimByKeyHash_cases hclaim).2 with rfl | ⟨o, ho, hkey, -, rfl⟩
  · have hnot := claimByKeyHash_none hclaim row hrow
    simp [heligible] at hnot
  · have hsame : o.collides row = true :=
      RegistrationOperation.collides_iff.mpr (.inr (.inr (.inr hkey)))
    rw [h.eq_of_collides ho hrow hsame]

/-- A refused claim writes nothing. -/
theorem refused_rows {keyHash : Digest}
    (h : RegistrationWorld.exec cfg i (.tx (.claimByKeyHash keyHash ownerToken claimedAt
      claimExpiresAt)) c w = some (.ok none, w')) : w'.db.operations = w.db.operations := by
  rcases exec_tx h with ⟨locked, a, db, hb, ha, rfl⟩ | ⟨locked, a, db, x, -, hx, -⟩ |
    ⟨locked, x, -, hx, -⟩ | ⟨locked, x, y, -, hx, -⟩ | ⟨x, hx, -⟩
  · cases ha
    simp only [RegistrationTx.body, bind_eq_ok] at hb
    obtain ⟨⟨claimed, rows⟩, hclaim, hdb⟩ := hb
    cases hdb
    show rows = w.db.operations
    rw [(Registrations.claimByKeyHash_cases hclaim).1]
    exact Table.update_of_none (claimByKeyHash_none hclaim)
  all_goals cases hx

/-- A finalization that finds its claim lost writes nothing. -/
theorem lost_rows {operationId eventId correlationId : Uuid} {completedAt : Time} {user : User}
    (h : RegistrationWorld.exec cfg i (.tx (.finalize operationId ownerToken completedAt user
      eventId correlationId)) c w = some (.error .lostRegistrationClaim, w')) :
    w'.db.operations = w.db.operations := by
  rcases exec_tx h with ⟨locked, a, db, -, hx, -⟩ | ⟨locked, a, db, x, -, hx, hmay, -⟩ |
    ⟨locked, x, -, -, rfl⟩ | ⟨locked, x, y, -, hx, hmay, -⟩ | ⟨x, hx, hmay, -⟩
  · cases hx
  · cases hx
    cases hmay
  · rfl
  · cases hx
    cases hmay
  · cases hx
    cases hmay

/-- After a retry was scheduled the row is due at its time; where it was not,
the claim had expired before. -/
theorem scheduled_row {failedAt retryAt : Time} {errorClass : String} {b : Bool}
    (h : RegistrationWorld.exec cfg i (.tx (.scheduleRetry o.id ownerToken failedAt retryAt
      errorClass)) c w = some (.ok b, w'))
    (hacc : Accounts hasher issued w.db) (hheld : b = false → o ∈ w.db.operations)
    (hclaimed : o.status = .claimed) (htoken : o.claimToken = some ownerToken)
    (hlater : failedAt ≤ retryAt) (hrow : row ∈ w'.db.operations) (hid : row.id = o.id)
    (htime : retryAt ≤ time) : row.eligible time = true := by
  rcases exec_tx h with ⟨locked, a, db, hb, ha, rfl⟩ | ⟨locked, a, db, x, -, hx, -⟩ |
    ⟨locked, x, -, hx, -⟩ | ⟨locked, x, y, -, hx, -⟩ | ⟨x, hx, -⟩
  · cases ha
    simp only [RegistrationTx.body, bind_eq_ok] at hb
    obtain ⟨⟨scheduled, rows⟩, hfinish, hdb⟩ := hb
    cases hdb
    obtain ⟨-, hrows, htold⟩ := Registrations.finish_cases hfinish
    have hrow : row ∈ rows := hrow
    rw [hrows, Table.mem_update] at hrow
    obtain ⟨x, hx, ⟨-, rfl⟩ | ⟨hnot, rfl⟩⟩ := hrow
    · simp [RegistrationOperation.eligible, RegistrationOperation.retryRow, htime]
    · have hsame : ∀ y ∈ w.db.operations, y.id = o.id → y = row := fun y hy hyid =>
        hacc.eq_of_collides hy hx
          (RegistrationOperation.collides_iff.mpr (.inl (hyid.trans hid.symm)))
      cases scheduled with
      | true =>
        obtain ⟨y, hy, howned⟩ := List.any_eq_true.mp htold.symm
        obtain rfl := hsame y hy (Registrations.ownedBy_iff.mp howned).1
        rw [howned] at hnot
        cases hnot
      | false =>
        obtain rfl := hsame o (hheld rfl) rfl
        have heffective : effectiveRetryAt o none ≤ time := by
          obtain ⟨expires, hexpires⟩ : ∃ expires, o.claimExpiresAt = some expires := by
            have hlife := hacc.lifecycle o hx
            simp only [RegistrationOperation.lifecycle, hclaimed, Bool.and_eq_true] at hlife
            exact Option.isSome_iff_exists.mp hlife.1.2
          have hexpired : expires ≤ failedAt := by
            simpa [RegistrationOperation.ownedBy, hclaimed, htoken, hexpires] using hnot
          simpa [effectiveRetryAt, hclaimed, hexpires] using (hexpired.trans hlater).trans htime
        exact eligible_at (hacc.lifecycle o hx)
          (by simp [RegistrationOperation.nonterminal, hclaimed]) heffective
  all_goals cases hx

end Rows

/-- A unit of work that finds nothing to write. -/
def RegistrationEff.refused : (e : RegistrationEff) → Except Exn e.Resp → Bool
  | .tx (.claimByKeyHash _ _ _ _), .ok none => true
  | .tx (.finalize _ _ _ _ _ _), .error .lostRegistrationClaim => true
  | .tx (.scheduleRetry _ _ _ _ _), .ok false => true
  | _, _ => false

/-- **The last unit of work of a call that answers PENDING** leaves a row that
is due after the wait, if the row was the one the call holds where it was
refused. -/
theorem owed_eligible {cfg : RegistrationConfig} {i : Nat} {w w' : RegistrationWorld}
    {c : RegistrationChoice} {hasher : PasswordHasher} {issued : RegisterUserCommand → Prop}
    {l : WaitLocal} {result : RegistrationResult} {held : Option RegistrationOperation}
    {t : RegistrationTx} {r : Except Exn t.Resp} {row : RegistrationOperation} {s : Int}
    {now time : Time} (howed : Owed l result) (hlast : l.last = some (held, ⟨.tx t, r⟩))
    (hexec : RegistrationWorld.exec cfg i (.tx t) c w = some (r, w'))
    (hacc : Accounts hasher issued w.db)
    (hheld : RegistrationEff.refused (.tx t) r = true → ∀ o, held = some o → o ∈ w.db.operations)
    (hrow : row ∈ w'.db.operations) (hid : row.id = result.operationId)
    (hs : result.retryAfterSeconds = some s) (hreading : l.reading = some now)
    (htime : (now : Int) + s * second ≤ time) : row.eligible time = true := by
  -- a refused call answers from the row itself
  have hsame : ∀ o ∈ w.db.operations, w'.db.operations = w.db.operations → row.id = o.id →
      o.nonterminal = true → effectiveRetryAt o none ≤ time → row.eligible time = true := by
    intro o ho hrows hrowId hopen heffective
    rw [hrows] at hrow
    obtain rfl : row = o := hacc.eq_of_collides hrow ho
      (RegistrationOperation.collides_iff.mpr (.inl hrowId))
    exact eligible_at (hacc.lifecycle row ho) hopen heffective
  cases howed with
  | refused last hopen reading result =>
    rw [hlast] at last
    cases last
    obtain rfl := Option.some.inj (hreading.symm.trans reading)
    subst result
    have heffective := (pendingResult_wait hs).trans htime
    exact hsame _ (hheld rfl _ rfl) (refused_rows hexec) hid hopen (by exact_mod_cast heffective)
  | lost last hclaimed reading result =>
    rw [hlast] at last
    cases last
    obtain rfl := Option.some.inj (hreading.symm.trans reading)
    subst result
    have heffective := (pendingResult_wait hs).trans htime
    exact hsame _ (hheld rfl _ rfl) (lost_rows hexec) hid
      (by simp [RegistrationOperation.nonterminal, hclaimed]) (by exact_mod_cast heffective)
  | scheduled last hclaimed htoken hlater reading result =>
    rw [hlast] at last
    cases last
    obtain rfl := Option.some.inj (hreading.symm.trans reading)
    subst result
    have heffective := (pendingResult_wait hs).trans htime
    refine scheduled_row hexec hacc (fun hb => hheld ?_ _ rfl) hclaimed htoken hlater hrow hid
      (by exact_mod_cast heffective)
    subst hb
    rfl

/-! ## Runs -/

/-- What a call knows after a record of its answers. -/
def waitsOn (record : List (Answer registrationSig Exn)) : WaitLocal :=
  waitFlow.along WaitLocal.start record

/-- The same of process `i`, from its own part of a record. -/
def waits (trace : List (Event registrationSig Exn)) (i : Nat) : WaitLocal := waitsOn (own trace i)

theorem waitsOn_snoc (record : List (Answer registrationSig Exn)) (a : Answer registrationSig Exn) :
    waitsOn (record ++ [a]) = (waitsOn record).next a.op a.resp :=
  Flow.along_snoc _ _ _

theorem waits_snoc_self (trace : List (Event registrationSig Exn))
    (e : Event registrationSig Exn) :
    waits (trace ++ [e]) e.pid = (waits trace e.pid).next e.op e.resp := by
  rw [waits, own_append, own_cons_self, own_nil, waitsOn_snoc, waits]

theorem waits_snoc_ne (trace : List (Event registrationSig Exn))
    {e : Event registrationSig Exn} {i : Nat} (h : e.pid ≠ i) :
    waits (trace ++ [e]) i = waits trace i := by
  rw [waits, own_append, own_cons_ne h, own_nil, List.append_nil, waits]

/-- The unit of work that process `i` ended last stays the last while it
enters no other. -/
theorem waits_last_append (trace : List (Event registrationSig Exn))
    {more : List (Event registrationSig Exn)} {i : Nat}
    (h : ∀ e ∈ more, e.pid = i → RegistrationEff.isTx e.op = false) :
    (waits (trace ++ more) i).last = (waits trace i).last := by
  induction more generalizing trace with
  | nil => rw [List.append_nil]
  | cons e more ih =>
    have hsplit : trace ++ e :: more = trace ++ [e] ++ more := by simp
    rw [hsplit, ih (trace ++ [e]) fun e' he' => h e' (List.mem_cons_of_mem _ he')]
    by_cases hi : e.pid = i
    · subst hi
      rw [waits_snoc_self]
      simp [WaitLocal.next, h e (by simp) rfl]
    · rw [waits_snoc_ne trace hi]

section Runs

variable {cfg : RegistrationConfig} {clock : Time} {callees : Nat → Option RegistrationCallee}
  {con : RegistrationRecord → RegistrationRecord → Prop} {C C₁ : RegistrationRun} {i : Nat}

theorem exec_calm {w w' : RegistrationWorld} {e : RegistrationEff} {c : RegistrationChoice}
    {r : Except Exn e.Resp} (h : RegistrationWorld.exec cfg i e c w = some (r, w')) :
    e.calm r = true := by
  cases r with
  | ok a => cases e <;> rfl
  | error x =>
    cases e with
    | now => cases c <;> cases h
    | uuid => cases c <;> cases h
    | _ => rfl

theorem recorded_calm
    (h : (registrationMachine cfg).traced.Reach con (recordedStart cfg clock callees) C) :
    (waits C.shared.trace i).calm = true := by
  induction h with
  | refl => rfl
  | tail _ hs ih =>
    obtain ⟨l, hl, -⟩ := hs
    rcases Machine.traced_step_cases hl with ⟨j, c, e, k, r, t, -, -, hx, rfl⟩ | ⟨v, t, -, -, rfl⟩ |
      ⟨j, e, k, -, -, rfl⟩
    · by_cases hj : j = i
      · subst hj
        rw [waits_snoc_self _ ⟨j, e, r⟩]
        simp [WaitLocal.next, ih, exec_calm hx]
      · rw [waits_snoc_ne _ (e := ⟨j, e, r⟩) hj]
        exact ih
    · exact ih
    · exact ih

/-- The step that made the last event of a record. -/
theorem recorded_last
    (h : (registrationMachine cfg).traced.Reach con (recordedStart cfg clock callees) C)
    {before : List (Event registrationSig Exn)} {e : Event registrationSig Exn}
    (htrace : C.shared.trace = before ++ [e]) :
    ∃ C₀ c w, (registrationMachine cfg).traced.Reach con (recordedStart cfg clock callees) C₀ ∧
      C₀.shared.trace = before ∧
      RegistrationWorld.exec cfg e.pid e.op c C₀.shared.state = some (e.resp, w) ∧
      con C₀.shared ⟨w, before ++ [e]⟩ ∧
      w.db.operations = C.shared.state.db.operations := by
  induction h with
  | refl => simp [recordedStart] at htrace
  | tail hr hs ih =>
    rename_i C C'
    obtain ⟨l, hl, hcon⟩ := hs
    rcases Machine.traced_step_cases hl with ⟨j, c, e', k, r, t, -, -, hx, rfl⟩ |
      ⟨v, t, -, hv, rfl⟩ | ⟨j, e', k, -, -, rfl⟩
    · obtain ⟨hbefore, hevent⟩ := List.append_inj' htrace rfl
      obtain rfl := (List.cons.inj hevent).1
      subst hbefore
      exact ⟨C, c, t, hr, rfl, hx, hcon, rfl⟩
    · obtain ⟨C₀, c, w, hreach, hC₀, hexec, hstep, hops⟩ := ih htrace
      refine ⟨C₀, c, w, hreach, hC₀, hexec, hstep, ?_⟩
      cases v with
      | tick d =>
        cases hv
        exact hops
      | relay rows =>
        cases hv
        exact hops
    · obtain ⟨C₀, c, w, hreach, hC₀, hexec, hstep, hops⟩ := ih htrace
      exact ⟨C₀, c, w, hreach, hC₀, hexec, hstep, hops⟩

/-- Each refused unit of work of process `i` found the operation's row as the
process holds it. -/
def FindsHeld (i : Nat) (s s' : RegistrationRecord) : Prop :=
  ∀ e, s'.trace = s.trace ++ [e] → e.pid = i → RegistrationEff.refused e.op e.resp = true →
    ∀ o, (waits s.trace i).held = some o → o ∈ s.state.db.operations

/-- In the run so far, process `i` has got a result from one of the two
handlers and done nothing since: the caller's registration has returned, or
the handler that a reconciler's task runs. -/
inductive Returned (cfg : RegistrationConfig) (callees : Nat → Option RegistrationCallee)
    (trace : List (Event registrationSig Exn)) (i : Nat) (result : RegistrationResult) : Prop where
  | register {command : RegisterUserCommand} (callee : callees i = some (.register command))
      (ran : (registerExecute cfg command).Leaves (own trace i) (.ret result))
  | resume {n : Nat} {task : RegistrationTask} {record : List (Answer registrationSig Exn)}
      (callee : callees i = some (.processTask n))
      (picked : own trace i = ⟨.task n, .ok task⟩ :: record)
      (ran : (resumeExecute cfg task.operation task.ownerToken).Leaves record (.ret result))

theorem Returned.owes {trace : List (Event registrationSig Exn)} {result : RegistrationResult}
    (h : Returned cfg callees trace i result) : Owes (.ok result) (waits trace i) := by
  cases h with
  | register _ ran => exact (registerExecute_owes _).leaves ran
  | @resume n task record _ picked ran =>
    rw [waits, picked]
    have hheld : (WaitLocal.start.next (.task n) (.ok task)).held = some task.operation := rfl
    exact (resumeExecute_owes hheld).leaves ran

/-- A constrained run is a run. -/
theorem recorded_free {C C' : RegistrationRun}
    (h : (registrationMachine cfg).traced.Reach con C C') : RecordedReach cfg C C' := by
  induction h with
  | refl => exact .refl
  | tail _ hs ih =>
    obtain ⟨l, hl, -⟩ := hs
    exact ih.tail ⟨l, hl, trivial⟩

/-- **Retry-After is sufficient.** In every run in which the refused units of
work of process `i` find the operation as the process holds it: where its last
unit of work before a PENDING result left `row` and the row is still the same,
a claim that comes no sooner than the result said succeeds. -/
theorem retry_after_sufficient {result : RegistrationResult}
    {before more : List (Event registrationSig Exn)} {t : RegistrationTx} {r : Except Exn t.Resp}
    {s : Int} {now claimedAt claimExpiresAt : Time} {row : RegistrationOperation}
    {ownerToken : Uuid}
    (h₁ : (registrationMachine cfg).traced.Reach (FindsHeld i) (recordedStart cfg clock callees) C₁)
    (hlast : C₁.shared.trace = before ++ [⟨i, .tx t, r⟩])
    (h : (registrationMachine cfg).traced.Reach (FindsHeld i) C₁ C)
    (hmore : C.shared.trace = C₁.shared.trace ++ more)
    (hdone : ∀ e ∈ more, e.pid = i → RegistrationEff.isTx e.op = false)
    (hreturned : Returned cfg callees C.shared.trace i result)
    (hpending : result.outcome = .pending) (hs : result.retryAfterSeconds = some s)
    (hnow : (waits C.shared.trace i).reading = some now)
    (hrow₁ : row ∈ C₁.shared.state.db.operations) (hrow : row ∈ C.shared.state.db.operations)
    (hid : row.id = result.operationId) (hwait : (now : Int) + s * second ≤ claimedAt)
    (hwindow : claimedAt < claimExpiresAt) :
    ∃ rows, Registrations.claimByKeyHash C.shared.state.db.operations row.keyHash ownerToken
      claimedAt claimExpiresAt = .ok (some (row.claim ownerToken claimExpiresAt), rows) := by
  have howed := hreturned.owes (recorded_calm (h₁.trans h)) result rfl hpending
  obtain ⟨C₀, c, w, hreach, htrace, hexec, hfinds, hops⟩ := recorded_last h₁ hlast
  -- the last unit of work, and the operation held before it
  have hunit : (waits C.shared.trace i).last = some ((waits before i).held, ⟨.tx t, r⟩) := by
    rw [hmore, waits_last_append _ hdone, hlast, waits_snoc_self before ⟨i, .tx t, r⟩]
    rfl
  have hheld : RegistrationEff.refused (.tx t) r = true → ∀ o, (waits before i).held = some o →
      o ∈ C₀.shared.state.db.operations := by
    intro hrefused o ho
    exact hfinds ⟨i, .tx t, r⟩ (by rw [htrace]) rfl hrefused o (by rw [htrace]; exact ho)
  have heligible : row.eligible claimedAt = true :=
    owed_eligible howed hunit hexec (recorded_accounts (recorded_free hreach)) hheld
      (hops ▸ hrow₁) hid hs hnow hwait
  exact claimByKeyHash_succeeds (recorded_accounts (recorded_free (h₁.trans h))) hrow heligible
    hwindow

end Runs

/-! ## Two callers -/

namespace Sample

/-- Claims last half a minute. -/
def patientConfig : RegistrationConfig := { registration with claimLease := 30 * second }

/-- Three callers with the same request. -/
def repeating : Nat → Option RegistrationCallee
  | 0 => some (.register command)
  | 1 => some (.register command)
  | 2 => some (.register command)
  | _ => none

/-- `FindsHeld`, evaluated. -/
def findsHeld (i : Nat) (s s' : RegistrationRecord) : Bool :=
  match s'.trace.drop s.trace.length with
  | [e] => !(decide (e.pid = i) && RegistrationEff.refused e.op e.resp) ||
      (waits s.trace i).held.all fun o => decide (o ∈ s.state.db.operations)
  | _ => true

theorem findsHeld_sound {i : Nat} {s s' : RegistrationRecord} (h : findsHeld i s s' = true) :
    FindsHeld i s s' := by
  intro e htrace hpid hrefused o ho
  simpa [findsHeld, htrace, hpid, hrefused, ho] using h

/-- Caller 0 creates the operation and calls the Profile service. -/
def creating : List (registrationMachine patientConfig).traced.Label :=
  [.act 0 (.go fun _ => false), .act 0 (.salt "x"), .act 0 (.go fun _ => false), .act 0 (.uuid 7),
    .act 0 (.uuid 1), .act 0 (.uuid 2), .act 0 (.go fun _ => false), .act 0 (.go fun _ => false)]

/-- Meanwhile caller 1 finds the operation, and its claim is refused. -/
def asking : List (registrationMachine patientConfig).traced.Label :=
  [.act 1 (.go fun _ => false), .act 1 (.go fun _ => false), .act 1 (.go fun _ => false),
    .act 1 (.uuid 8), .act 1 (.go fun _ => false)]

/-- Caller 1 loads the claimed operation; when that claim has expired, caller 2
takes the operation over, and the claim of caller 1 is refused. -/
def overtaking : List (registrationMachine patientConfig).traced.Label :=
  creating ++ [.act 1 (.go fun _ => false), .act 1 (.go fun _ => false),
    .env (.tick (30 * second)), .act 2 (.go fun _ => false), .act 2 (.go fun _ => false),
    .act 2 (.go fun _ => false), .act 2 (.uuid 9), .act 2 (.go fun _ => false),
    .act 1 (.go fun _ => false), .act 1 (.uuid 8), .act 1 (.go fun _ => false)]

/-- The operation as caller 0 created it. -/
def createdRow : RegistrationOperation :=
  { id := 1
    userId := 2
    email := command.email
    passwordHash := some (hasher.hash command.password "x")
    keyHash := command.keyHash
    status := .claimed
    attempts := 0
    availableAt := 5
    claimToken := some 7
    claimExpiresAt := some (5 + 30 * second)
    lastErrorClass := none
    terminalAt := none
    redriveCount := 0
    createdAt := 5 }

/-- And as caller 2 has claimed it. -/
def overtakenRow : RegistrationOperation := createdRow.claim 9 (5 + 60 * second)

theorem patient_reach {con : RegistrationRecord → RegistrationRecord → Prop}
    {ok : RegistrationRecord → RegistrationRecord → Bool} (hok : ∀ s s', ok s s' = true → con s s')
    {C C' : RegistrationRun} {schedule : List (registrationMachine patientConfig).traced.Label}
    (h : (registrationMachine patientConfig).traced.run ok C schedule = some C') :
    (registrationMachine patientConfig).traced.Reach con C C' :=
  Machine.reach_of_run _ hok _ _ _ h

end Sample

section
open Sample

/-- A caller whose claim is refused is told to wait for the claim it has
seen. -/
theorem retry_after_sufficient_asking :
    ∃ (C : RegistrationRun) (rows : List RegistrationOperation),
      RecordedReach patientConfig (recordedStart patientConfig 5 repeating) C ∧
      Returned patientConfig repeating C.shared.trace 1 (pendingResult createdRow 5 none) ∧
      (pendingResult createdRow 5 none).retryAfterSeconds = some 30 ∧
      Registrations.claimByKeyHash C.shared.state.db.operations createdRow.keyHash 9
        (5 + 30 * second) (5 + 60 * second) = .ok (some overtakenRow, rows) := by
  obtain ⟨C₁, C, before, hrun₁, hrun, hlast, hmore, hown, hrow₁, hrow⟩ :
      ∃ (C₁ C : RegistrationRun) (before : List (Event registrationSig Exn)),
        (registrationMachine patientConfig).traced.run (findsHeld 1)
          (recordedStart patientConfig 5 repeating) (creating ++ asking) = some C₁ ∧
        (registrationMachine patientConfig).traced.run (findsHeld 1) C₁
          [.act 1 (.go fun _ => false)] = some C ∧
        C₁.shared.trace = before ++ [⟨1, .tx (.claimByKeyHash command.keyHash 8 5
          (5 + 30 * second)), .ok none⟩] ∧
        C.shared.trace = C₁.shared.trace ++ [⟨1, .now, .ok (5 : Time)⟩] ∧
        own C.shared.trace 1 = [⟨.tx (.getByKeyHash command.keyHash), .ok (some createdRow)⟩,
          ⟨.verify command.password (hasher.hash command.password "x"), .ok true⟩,
          ⟨.now, .ok (5 : Time)⟩, ⟨.uuid, .ok (8 : Uuid)⟩,
          ⟨.tx (.claimByKeyHash command.keyHash 8 5 (5 + 30 * second)), .ok none⟩,
          ⟨.now, .ok (5 : Time)⟩] ∧
        createdRow ∈ C₁.shared.state.db.operations ∧ createdRow ∈ C.shared.state.db.operations := by
    refine ⟨_, _, _, by with_unfolding_all rfl, by with_unfolding_all rfl,
      by with_unfolding_all rfl, by with_unfolding_all rfl, by with_unfolding_all rfl, ?_, ?_⟩
    · with_unfolding_all exact List.mem_singleton.mpr rfl
    · with_unfolding_all exact List.mem_singleton.mpr rfl
  have h₁ := patient_reach (fun _ _ => findsHeld_sound) hrun₁
  have h := patient_reach (fun _ _ => findsHeld_sound) hrun
  have hreturned : Returned patientConfig repeating C.shared.trace 1
      (pendingResult createdRow 5 none) := by
    refine .register rfl ?_
    rw [hown]
    with_unfolding_all
      exact .some (.some (.some (.some (.some (.some (.none _))))))
  have hnow : (waits C.shared.trace 1).reading = some 5 := by
    rw [waits, hown]
    rfl
  have hdone : ∀ e ∈ [(⟨1, .now, .ok (5 : Time)⟩ : Event registrationSig Exn)],
      e.pid = 1 → RegistrationEff.isTx e.op = false := by
    intro e he _
    rw [List.mem_singleton.mp he]
    rfl
  have hs : (pendingResult createdRow 5 none).retryAfterSeconds = some 30 := by decide
  obtain ⟨rows, hrows⟩ := retry_after_sufficient h₁ hlast h hmore hdone hreturned rfl hs hnow
    hrow₁ hrow rfl (show ((5 : Time) : Int) + 30 * second ≤ (5 + 30 * second : Time) by decide)
    (show 5 + 30 * second < 5 + 60 * second by decide)
  exact ⟨C, rows, recorded_free (h₁.trans h), hreturned, hs, hrows⟩

/-- Caller 1 of `overtaking` answers from the claim it loaded, which has
expired: it says one second, and the row is taken for another thirty. -/
theorem retry_after_overtaken :
    ∃ (C₁ C : RegistrationRun) (before : List (Event registrationSig Exn)),
      RecordedReach patientConfig (recordedStart patientConfig 5 repeating) C₁ ∧
      C₁.shared.trace = before ++ [⟨1, .tx (.claimByKeyHash command.keyHash 8 (5 + 30 * second)
        (5 + 60 * second)), .ok none⟩] ∧
      RecordedReach patientConfig C₁ C ∧
      C.shared.trace = C₁.shared.trace ++ [⟨1, .now, .ok (5 + 30 * second : Time)⟩] ∧
      Returned patientConfig repeating C.shared.trace 1
        (pendingResult createdRow (5 + 30 * second) none) ∧
      (pendingResult createdRow (5 + 30 * second) none).outcome = .pending ∧
      (pendingResult createdRow (5 + 30 * second) none).retryAfterSeconds = some 1 ∧
      overtakenRow ∈ C₁.shared.state.db.operations ∧ overtakenRow ∈ C.shared.state.db.operations ∧
      overtakenRow.id = (pendingResult createdRow (5 + 30 * second) none).operationId ∧
      overtakenRow.nonterminal = true ∧
      Registrations.claimByKeyHash C.shared.state.db.operations overtakenRow.keyHash 10
        (5 + 31 * second) (5 + 61 * second) = .ok (none, C.shared.state.db.operations) := by
  obtain ⟨C₁, C, before, hrun₁, hrun, hlast, hmore, hown, hrows₁, hrows⟩ :
      ∃ (C₁ C : RegistrationRun) (before : List (Event registrationSig Exn)),
        (registrationMachine patientConfig).traced.run (fun _ _ => true)
          (recordedStart patientConfig 5 repeating) overtaking = some C₁ ∧
        (registrationMachine patientConfig).traced.run (fun _ _ => true) C₁
          [.act 1 (.go fun _ => false)] = some C ∧
        C₁.shared.trace = before ++ [⟨1, .tx (.claimByKeyHash command.keyHash 8
          (5 + 30 * second) (5 + 60 * second)), .ok none⟩] ∧
        C.shared.trace = C₁.shared.trace ++ [⟨1, .now, .ok (5 + 30 * second : Time)⟩] ∧
        own C.shared.trace 1 = [⟨.tx (.getByKeyHash command.keyHash), .ok (some createdRow)⟩,
          ⟨.verify command.password (hasher.hash command.password "x"), .ok true⟩,
          ⟨.now, .ok (5 + 30 * second : Time)⟩, ⟨.uuid, .ok (8 : Uuid)⟩,
          ⟨.tx (.claimByKeyHash command.keyHash 8 (5 + 30 * second) (5 + 60 * second)), .ok none⟩,
          ⟨.now, .ok (5 + 30 * second : Time)⟩] ∧
        C₁.shared.state.db.operations = [overtakenRow] ∧
        C.shared.state.db.operations = [overtakenRow] := by
    refine ⟨_, _, _, by with_unfolding_all rfl, by with_unfolding_all rfl,
      by with_unfolding_all rfl, by with_unfolding_all rfl, by with_unfolding_all rfl,
      by with_unfolding_all rfl, by with_unfolding_all rfl⟩
  have hreturned : Returned patientConfig repeating C.shared.trace 1
      (pendingResult createdRow (5 + 30 * second) none) := by
    refine .register rfl ?_
    rw [hown]
    with_unfolding_all
      exact .some (.some (.some (.some (.some (.some (.none _))))))
  refine ⟨C₁, C, before, patient_reach (fun _ _ _ => trivial) hrun₁, hlast,
    patient_reach (fun _ _ _ => trivial) hrun, hmore, hreturned, rfl, by decide, ?_, ?_, rfl,
    by decide, ?_⟩
  · simp [hrows₁]
  · simp [hrows]
  · rw [hrows]
    with_unfolding_all rfl

end

end IdentityService
