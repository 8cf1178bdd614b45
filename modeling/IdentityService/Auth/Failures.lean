import IdentityService.Auth.ReplayProtector
import IdentityService.Concurrent.Answers
import IdentityService.Http.Responses
import IdentityService.Idempotency.OpenTransactions

/-!
# What the authentication handlers raise

Of the exceptions that have a response of their own, which can a handler end
with, whatever its awaits are answered? A hot store that cannot be reached is
not among them: the coordinator absorbs it.
-/

namespace IdentityService

open Concurrent

variable {B : Business} {α : Type} {ts : List ErrorType}

/-- The infrastructure raises no exception that has a response of its own,
but for a hot store that cannot be reached. -/
def callMay (e : Eff B) (x : Exn) : Prop :=
  x.errorType = none ∨ (e.isHot = true ∧ x = .idempotencyStorageUnavailable)

/-- No effect of an operation raises an exception that has a response. -/
def operationMay (_ : OpEff B) (x : Exn) : Prop := x.errorType = none

/-- The program raises only exceptions within `ts`. -/
abbrev Raises (ts : List ErrorType) (p : App B α) : Prop :=
  p.Answers callMay (Prog.raises fun x => x.within ts = true)

/-- All responses that the exceptions of `p` may have. -/
abbrev OperationRaises (ts : List ErrorType) (p : Operation B α) : Prop :=
  p.Answers operationMay (Prog.raises fun x => x.within ts = true)

/-! ## Units of work -/

theorem raises_ask {e : Eff B} (h : e.isHot = false) : Raises ts (ask e) := by
  refine Prog.answers_await fun x hx => ?_
  rcases hx with hnone | ⟨hhot, -⟩
  · exact Exn.within_of_none hnone
  · rw [h] at hhot
    cases hhot

theorem translateDatabaseError_within (d : DbError) :
    (translateDatabaseError d).within ts = true := by
  cases d <;> rfl

theorem raises_rollback : Raises ts (rollback : App B Unit) := raises_ask rfl

theorem unwind_raises {error : Exn} (h : error.within ts = true) :
    Raises ts (unwind error : App B Unit) := by
  have hother : Raises ts ((rollback : App B Unit).bind fun _ => .throw error) :=
    raises_rollback.andThen fun _ => fails_error (α := Unit) h
  cases error with
  | database d =>
    have hrollback : Raises ts (rollback : App B Unit) := raises_rollback
    refine hrollback.attempt fun r hr => ?_
    cases r with
    | ok _ => exact fails_error (α := Unit) (translateDatabaseError_within d)
    | error x =>
      cases x with
      | database _ => exact fails_error (α := Unit) (translateDatabaseError_within d)
      | _ => exact hr
  | _ => exact hother

theorem aexit_raises (exc : Option Exn) : Raises ts (aexit exc : App B Unit) := by
  have hend : Raises ts (if exc.isNone then commit else rollback : App B Unit) := by
    split
    · exact raises_ask rfl
    · exact raises_rollback
  refine Prog.Answers.attempt hend fun r hr => ?_
  cases r with
  | error error => exact unwind_raises (by simpa using hr)
  | ok _ =>
    rcases exc with _ | ⟨⟨⟩⟩
    case some.database d => exact fails_error (α := Unit) (translateDatabaseError_within d)
    all_goals exact Prog.raises_ok _ _

theorem uow_raises {body : App B α} (h : Raises ts body) : Raises ts (uow body) := by
  refine Prog.Answers.attempt h fun r hr => ?_
  cases r with
  | ok a => exact (aexit_raises none).andThen fun _ => Prog.raises_ok _ a
  | error x => exact (aexit_raises (some x)).andThen fun _ => hr

theorem run_raises {operation : Operation B α} (h : OperationRaises ts operation) :
    Raises ts operation.run := by
  refine h.lift fun e x hx => ?_
  rcases hx with hnone | ⟨hhot, -⟩
  · exact hnone
  · cases e <;> cases hhot

/-! ## Durable execution -/

section Durable

variable {retention : Retention} {identity : IdempotencyIdentity} {requestHash : Digest}
  {operation : Operation B StoredResult}

theorem getCompleted_raises : Raises ts (getCompleted identity : App B _) := by
  refine Prog.Answers.andThen (raises_ask rfl) fun row => ?_
  cases row with
  | none => exact Prog.raises_ok _ _
  | some row =>
    refine Prog.Answers.andThen (raises_ask rfl) fun now => ?_
    split
    · exact Prog.raises_ok _ _
    · exact Prog.raises_ok _ _

theorem findExisting_raises : Raises ts (findExisting identity requestHash : App B _) := by
  refine (uow_raises getCompleted_raises).andThen fun existing => ?_
  cases existing <;> exact Prog.raises_ok _ _

theorem fencedTransaction_raises (h : OperationRaises ts operation) :
    Raises ts (fencedTransaction retention identity requestHash operation) := by
  refine uow_raises ((run_raises h).andThen fun stored => ?_)
  have hadd : Raises ts (tryAddCompleted retention identity
      { stored with requestHash := requestHash } : App B Bool) :=
    Prog.Answers.andThen (raises_ask rfl) fun _ => raises_ask rfl
  refine hadd.andThen fun added => ?_
  cases added with
  | true => exact Prog.raises_ok _ _
  | false => exact fails_error (x := .concurrentWinnerCommitted) rfl

theorem afterTransaction_raises {r : Except Exn CompletedIdempotencyResult}
    (h : FailsWithin ts r) : Raises ts (afterTransaction identity requestHash r : App B _) := by
  cases r with
  | ok completed => exact Prog.raises_ok _ _
  | error x =>
    have hx : x.within ts = true := by simpa using h
    by_cases hlost : x = .concurrentWinnerCommitted
    · subst hlost
      refine findExisting_raises.andThen fun winner => ?_
      cases winner with
      | none => exact fails_error (x := .runtimeError noWinner) rfl
      | some winner => exact Prog.raises_ok _ _
    · rw [afterTransaction_error identity requestHash hlost]
      split
      · have hlookups : Raises ts (findExisting identity requestHash : App B _) :=
          findExisting_raises
        refine hlookups.attempt fun r hr => ?_
        cases r with
        | error lookupError =>
          have hlookup : lookupError.within ts = true := by simpa using hr
          simp only
          split
          · exact fails_error hx
          · exact fails_error hlookup
        | ok winner =>
          cases winner with
          | none => exact fails_error hx
          | some winner => exact Prog.raises_ok _ _
      · exact fails_error hx

theorem executeOnce_raises (h : OperationRaises ts operation) :
    Raises ts (executeOnce retention identity requestHash operation) := by
  refine findExisting_raises.andThen fun existing => ?_
  cases existing with
  | some existing => exact Prog.raises_ok _ _
  | none =>
    exact Prog.Answers.attempt (fencedTransaction_raises h) fun r hr => afterTransaction_raises hr

/-! ## The coordinator -/

theorem observe_raises (result : ExecutionResult) : Raises ts (observe result : App B _) :=
  Prog.Answers.andThen (raises_ask rfl) fun _ => Prog.raises_ok _ _

/-- A call of the hot store finds it out of reach, or raises something that
has no response. -/
def HotFailure (x : Exn) : Prop := x.errorType = none ∨ x = .idempotencyStorageUnavailable

theorem hot_outcome (e : Eff B) : (ask e).Answers callMay (Prog.raises HotFailure) :=
  Prog.answers_await fun _ hx => hx.imp id And.right

/-- **An unreachable hot store is absorbed.** -/
theorem tolerate_raises {stage : String} {call : App B Bool}
    (h : call.Answers callMay (Prog.raises HotFailure)) : Raises ts (tolerate stage call) := by
  refine Prog.Answers.attempt h fun r hr => ?_
  cases r with
  | ok b => exact Prog.raises_ok _ _
  | error x =>
    rcases (Prog.raises_error _ x).mp hr with hnone | rfl
    · cases x with
      | idempotencyStorageUnavailable => exact raises_ask rfl
      | _ => exact fails_error (Exn.within_of_none hnone)
    · exact raises_ask rfl

theorem releaseAndRaise_raises {ownerToken : Uuid} {error : Exn} (h : error.within ts = true) :
    Raises ts (releaseAndRaise identity ownerToken error : App B _) := by
  refine Prog.Answers.andThen (raises_ask rfl) fun lost => ?_
  cases lost with
  | true => exact fails_error h
  | false => exact (tolerate_raises (hot_outcome _)).andThen fun _ => fails_error h

theorem publish_raises {ownerToken : Uuid} (result : ExecutionResult) :
    Raises ts (publish identity ownerToken result : App B _) := by
  refine Prog.Answers.andThen (raises_ask rfl) fun lost => ?_
  cases lost with
  | true => exact Prog.Answers.andThen (raises_ask rfl) fun _ => observe_raises result
  | false =>
    cases result with
    | mk outcome completed decision =>
      cases completed with
      | some completed =>
        exact (tolerate_raises (hot_outcome _)).andThen fun _ => observe_raises _
      | none => exact (tolerate_raises (hot_outcome _)).andThen fun _ => observe_raises _

theorem executeLeased_raises {ownerToken : Uuid} (h : OperationRaises ts operation) :
    Raises ts (executeLeased retention identity requestHash operation ownerToken) := by
  refine Prog.Answers.attempt (executeOnce_raises h) fun r hr => ?_
  cases r with
  | error error => exact releaseAndRaise_raises (by simpa using hr)
  | ok result => exact publish_raises result

theorem executeDegraded_raises {stage : String} (h : OperationRaises ts operation) :
    Raises ts (executeDegraded stage retention identity requestHash operation) :=
  Prog.Answers.andThen (raises_ask rfl) fun _ => (executeOnce_raises h).andThen observe_raises

theorem afterBegin_raises {ownerToken : Uuid} (h : OperationRaises ts operation)
    {begun : Except Exn BeginResult} (hbegun : Prog.raises HotFailure begun) :
    Raises ts (afterBegin retention identity requestHash operation ownerToken begun) := by
  match begun with
  | .error x =>
    rcases (Prog.raises_error _ x).mp hbegun with hnone | rfl
    · cases x with
      | idempotencyStorageUnavailable => exact executeDegraded_raises h
      | _ => exact fails_error (Exn.within_of_none hnone)
    · exact executeDegraded_raises h
  | .ok ⟨.replay, completed, decision⟩ => exact observe_raises _
  | .ok ⟨.conflict, _, _⟩ => exact observe_raises _
  | .ok ⟨.inProgress, _, _⟩ =>
    refine findExisting_raises.andThen fun durable => ?_
    cases durable with
    | some result => exact observe_raises result
    | none => exact observe_raises _
  | .ok ⟨.acquired, _, _⟩ => exact executeLeased_raises h

/-- **The coordinator raises what its operation raises.** -/
theorem coordinatorExecute_raises {hotStore : Bool} {leaseSeconds : Int}
    (h : OperationRaises ts operation) : Raises ts
      (coordinatorExecute hotStore retention identity requestHash operation leaseSeconds) := by
  by_cases hlease : leaseSeconds ≤ 0
  · simp only [coordinatorExecute, if_pos hlease]
    exact fails_error (x := .valueError _) rfl
  · simp only [coordinatorExecute, if_neg hlease]
    cases hotStore with
    | false => exact executeDegraded_raises h
    | true =>
      refine Prog.Answers.andThen (raises_ask rfl) fun ownerToken => ?_
      exact Prog.Answers.attempt (hot_outcome _) fun begun hbegun => afterBegin_raises h hbegun

end Durable

/-! ## The aggregates -/

theorem RefreshToken.validate_fails (t : RefreshToken) : FailsWithin ts t.validate := by
  unfold RefreshToken.validate
  split
  · exact fails_none rfl
  · exact Prog.raises_ok _ _

namespace AuthSession

variable (s : AuthSession) (now : Time)

theorem validate_fails : FailsWithin ts s.validate := by
  unfold AuthSession.validate
  split
  · exact fails_none rfl
  split
  · exact fails_none rfl
  split
  · exact fails_none rfl
  split
  · exact fails_none rfl
  · exact Prog.raises_ok _ _

theorem validateTtl_fails (idleTtl : Int) : FailsWithin ts (validateTtl idleTtl) := by
  unfold validateTtl
  split
  · exact fails_none rfl
  · exact Prog.raises_ok _ _

theorem start_fails {sessionId tokenId userId : Uuid} {tokenHash : Digest} {idleTtl : Int} :
    FailsWithin ts (start sessionId tokenId userId tokenHash now idleTtl) := by
  refine Prog.raises_bind (validateTtl_fails idleTtl) fun _ => ?_
  exact Prog.raises_bind (RefreshToken.validate_fails _) fun _ => validate_fails _

theorem revoke_fails : FailsWithin ts (s.revoke now) := by
  unfold revoke
  split
  · exact Prog.raises_ok _ _
  · exact validate_fails _

section Refused

variable (hts : .invalidRefreshToken ∈ ts)

include hts

theorem fails_refused {x : Exn} (h : x.errorType = some .invalidRefreshToken) :
    FailsWithin ts (.error x : Except Exn α) :=
  fails_error (by simpa [Exn.within, h] using hts)

theorem requireToken_fails : FailsWithin ts s.requireToken := by
  unfold requireToken
  split
  · exact Prog.raises_ok _ _
  · exact fails_refused hts rfl

theorem acceptsRefresh_fails (userCanAuthenticate : Bool) :
    FailsWithin ts (s.acceptsRefresh now userCanAuthenticate) := by
  refine Prog.raises_bind (requireToken_fails s hts) fun token => ?_
  refine Prog.raises_ite ?_ (Prog.raises_ite ?_ (Prog.raises_ite ?_ ?_))
  · exact Prog.raises_bind (revoke_fails s now) fun _ => Prog.raises_ok _ _
  · exact fails_refused hts (x := .authSessionInactive) rfl
  · exact Prog.raises_bind (revoke_fails s now) fun _ => Prog.raises_ok _ _
  · exact Prog.raises_ok _ _

theorem rotate_fails {tokenId : Uuid} {idleTtl : Int} {tokenHash : Digest} :
    FailsWithin ts (s.rotate tokenId now idleTtl tokenHash) := by
  refine Prog.raises_bind (validateTtl_fails idleTtl) fun _ => ?_
  refine Prog.raises_ite (fails_refused hts (x := .authSessionInactive) rfl) ?_
  refine Prog.raises_bind (requireToken_fails s hts) fun token => ?_
  refine Prog.raises_ite (fails_refused hts (x := .refreshTokenReuse) rfl) ?_
  refine Prog.raises_bind (RefreshToken.validate_fails _) fun replacement => ?_
  have hconsumed : FailsWithin ts (token.consumed now) := by
    unfold RefreshToken.consumed
    split
    · exact fails_refused hts rfl
    · exact RefreshToken.validate_fails _
  exact Prog.raises_bind hconsumed fun used => validate_fails _

theorem canReplay_fails : FailsWithin ts (s.canReplay now) :=
  Prog.raises_bind (requireToken_fails s hts) fun _ => Prog.raises_ok _ _

end Refused

end AuthSession

/-! ## The repositories -/

theorem operation_ask (e : OpEff auth) : OperationRaises ts (AuthOp.ask e) :=
  Prog.answers_await fun _ hx => Exn.within_of_none hx

theorem operation_ofExcept {e : Except Exn α} (h : FailsWithin ts e) :
    OperationRaises (B := B) ts (Prog.ofExcept e) :=
  Prog.answers_ofExcept h

theorem loaded_fails (e : Except Exn α) : FailsWithin ts (loaded e) := by
  cases e with
  | ok a => exact Prog.raises_ok _ a
  | error _ => exact fails_none rfl

namespace AuthOp

variable (k : AuthKey) (row : k.Row)

theorem create_raises : OperationRaises ts (AuthOp.create k row) := by
  refine (operation_ask (.insert k row)).andThen fun added => ?_
  cases added with
  | true => exact Prog.raises_ok _ _
  | false => exact fails_none (x := .database .integrity) rfl

theorem update_raises : OperationRaises ts (AuthOp.update k row) := by
  refine (operation_ask (.lock k)).andThen fun found => ?_
  cases found with
  | none => exact fails_none (x := .entityNotFound) rfl
  | some _ => exact operation_ask _

end AuthOp

theorem UserRepository.getByEmail_raises (email : String) :
    OperationRaises ts (UserRepository.getByEmail email) := by
  refine (operation_ask (.read (.userEmail email))).andThen fun found => ?_
  cases found with
  | none => exact Prog.raises_ok _ _
  | some id => exact operation_ask _

namespace RefreshTokenRepository

theorem get_raises (id : Uuid) : OperationRaises ts (get id) := by
  refine (operation_ask (.read (.token id))).andThen fun found => ?_
  cases found with
  | none => exact Prog.raises_ok _ _
  | some row =>
    exact (operation_ofExcept (loaded_fails _)).andThen fun _ => Prog.raises_ok _ _

theorem getByHashForUpdate_raises (tokenHash : Digest) :
    OperationRaises ts (getByHashForUpdate tokenHash) := by
  refine (operation_ask (.read (.tokenHash tokenHash))).andThen fun found => ?_
  cases found with
  | none => exact Prog.raises_ok _ _
  | some id =>
    refine (operation_ask (.lock (.token id))).andThen fun locked => ?_
    cases locked with
    | none => exact Prog.raises_ok _ _
    | some row =>
      exact (operation_ofExcept (loaded_fails _)).andThen fun _ => Prog.raises_ok _ _

theorem create_raises (token : RefreshToken) : OperationRaises ts (create token) :=
  (AuthOp.create_raises _ _).andThen fun _ => AuthOp.create_raises _ _

end RefreshTokenRepository

namespace AuthSessionRepository

theorem create_raises (session : AuthSession) : OperationRaises ts (create session) := by
  refine (AuthOp.create_raises _ _).andThen fun _ => ?_
  cases session.refreshToken with
  | none => exact Prog.raises_ok _ _
  | some token => exact RefreshTokenRepository.create_raises token

theorem save_raises (session : AuthSession) : OperationRaises ts (save session) := by
  refine (AuthOp.update_raises _ _).andThen fun _ => ?_
  cases session.refreshToken with
  | none =>
    cases session.replacementToken with
    | none => exact Prog.raises_ok _ _
    | some replacement => exact RefreshTokenRepository.create_raises replacement
  | some token =>
    refine (AuthOp.update_raises _ _).andThen fun _ => ?_
    cases session.replacementToken with
    | none => exact Prog.raises_ok _ _
    | some replacement => exact RefreshTokenRepository.create_raises replacement

theorem getByRefreshHashForUpdate_raises (tokenHash : Digest) :
    OperationRaises ts (getByRefreshHashForUpdate tokenHash) := by
  refine (RefreshTokenRepository.getByHashForUpdate_raises tokenHash).andThen fun found => ?_
  cases found with
  | none => exact Prog.raises_ok _ _
  | some token =>
    refine (operation_ask (.lock (.session token.sessionId))).andThen fun locked => ?_
    cases locked with
    | none => exact Prog.raises_ok _ _
    | some row =>
      exact (operation_ofExcept (loaded_fails _)).andThen fun _ => Prog.raises_ok _ _

theorem getByRefreshId_raises (tokenId : Uuid) :
    OperationRaises ts (getByRefreshId tokenId) := by
  refine (RefreshTokenRepository.get_raises tokenId).andThen fun found => ?_
  cases found with
  | none => exact Prog.raises_ok _ _
  | some token =>
    refine (operation_ask (.read (.session token.sessionId))).andThen fun read => ?_
    cases read with
    | none => exact Prog.raises_ok _ _
    | some row =>
      exact (operation_ofExcept (loaded_fails _)).andThen fun _ => Prog.raises_ok _ _

end AuthSessionRepository

/-! ## The handlers -/

section Handlers

variable {cfg : AuthConfig}

theorem issueTokenPair_raises (user : User) (now : Time) :
    OperationRaises ts (issueTokenPair cfg user now) :=
  (operation_ask _).andThen fun _ => (operation_ask _).andThen fun _ => Prog.raises_ok _ _

section Login

variable (hts : .invalidCredentials ∈ ts)

include hts

theorem fails_credentials : FailsWithin ts (.error .invalidCredentials : Except Exn α) :=
  fails_error (by simpa [Exn.within, Exn.errorType] using hts)

theorem startSession_raises (candidateId : Uuid) (passwordHash : String) :
    OperationRaises ts (startSession cfg candidateId passwordHash) := by
  refine (operation_ask (.lock (.user candidateId))).andThen fun found => ?_
  cases found with
  | none => exact fails_credentials hts
  | some user =>
    simp only
    split
    · exact fails_credentials hts
    · refine (operation_ask .now).andThen fun now => ?_
      refine (issueTokenPair_raises user now).andThen fun issued => ?_
      refine (operation_ask (.ext .uuid7)).andThen fun sessionId => ?_
      refine (operation_ask (.ext .uuid7)).andThen fun tokenId => ?_
      refine (operation_ofExcept (AuthSession.start_fails now)).andThen fun session => ?_
      exact (AuthSessionRepository.create_raises session).andThen fun _ => Prog.raises_ok _ _

theorem loginExecute_raises (command : LoginCommand) :
    Raises ts (loginExecute cfg command) := by
  have hread : Raises ts (UserRepository.getByEmail command.email).run :=
    run_raises (UserRepository.getByEmail_raises command.email)
  refine (uow_raises hread).andThen fun candidate => ?_
  have hverify : ∀ passwordHash, Raises ts (verifyOrDummy command.password passwordHash) := by
    intro passwordHash
    cases passwordHash with
    | none => exact (run_raises (operation_ask _)).andThen fun _ => Prog.raises_ok _ _
    | some passwordHash => exact run_raises (operation_ask _)
  refine (hverify _).andThen fun verified => ?_
  split
  · exact uow_raises (run_raises (startSession_raises hts _ _))
  · exact fails_credentials hts

end Login

section Refresh

variable {identity : IdempotencyIdentity} {requestHash : Digest}

section Refused

variable (hts : .invalidRefreshToken ∈ ts)

include hts

theorem rotateSession_raises (session : AuthSession) (user : User) (now : Time) :
    OperationRaises ts (rotateSession cfg identity requestHash session user now) := by
  refine (issueTokenPair_raises user now).andThen fun issued => ?_
  refine (operation_ask (.ext .uuid7)).andThen fun tokenId => ?_
  refine (operation_ofExcept (AuthSession.rotate_fails session now hts)).andThen
    fun session => ?_
  refine (AuthSessionRepository.save_raises session).andThen fun _ => ?_
  exact (operation_ask (.ext .nonce)).andThen fun _ => Prog.raises_ok _ _

theorem refreshOperation_raises (rawToken : String) :
    OperationRaises ts (refreshOperation cfg rawToken identity requestHash) := by
  refine (AuthSessionRepository.getByRefreshHashForUpdate_raises _).andThen fun found => ?_
  cases found with
  | none => exact AuthSession.fails_refused hts rfl
  | some session =>
    refine (operation_ask (.read (.user session.userId))).andThen fun user => ?_
    refine (operation_ask .now).andThen fun now => ?_
    refine (operation_ofExcept (AuthSession.acceptsRefresh_fails session now hts _)).andThen
      fun verdict => ?_
    rcases verdict with ⟨_ | _, session⟩
    · exact (AuthSessionRepository.save_raises session).andThen fun _ => Prog.raises_ok _ _
    · cases user with
      | none => exact AuthSession.fails_refused hts rfl
      | some user => exact rotateSession_raises hts session user now

theorem checkReplay_raises (tokenId : Uuid) : Raises ts (checkReplay tokenId) := by
  refine uow_raises ?_
  refine (run_raises (AuthSessionRepository.getByRefreshId_raises tokenId)).andThen fun found => ?_
  cases found with
  | none => exact AuthSession.fails_refused hts rfl
  | some session =>
    refine Prog.Answers.andThen (raises_ask rfl) fun now => ?_
    refine (Prog.answers_ofExcept (AuthSession.canReplay_fails session now hts)).andThen
      fun replayable => ?_
    cases replayable with
    | true => exact Prog.raises_ok _ _
    | false => exact AuthSession.fails_refused hts rfl

end Refused

/-- The protector refuses an envelope only as a replay that is unavailable. -/
def ReplayResultProtector.Refuses (protector : ReplayResultProtector) : Prop :=
  ∀ envelope aad x, protector.restore envelope aad = .error x → x = .refreshReplayUnavailable

theorem aesGcmProtector_refuses (aead : Aead) (reader : JsonReader) (ring : ReplayKeyRing) :
    (aesGcmProtector aead reader ring).Refuses := by
  intro envelope aad x hx
  simp only [aesGcmProtector, AESGCMReplayResultProtector.restore] at hx
  split at hx
  · cases hx
  · cases hx
    rfl

/-- The documented errors that a refresh can end with. -/
def refreshFailures : List ErrorType :=
  [.invalidRefreshToken, .idempotencyKeyConflict, .idempotencyRequestInProgress,
    .refreshReplayUnavailable]

theorem resourceUuid_fails (resourceId : String) : FailsWithin ts (resourceUuid resourceId) := by
  unfold resourceUuid
  split
  · exact Prog.raises_ok _ _
  · exact fails_none rfl

theorem TokenPair.validate_fails (payload : List (String × String)) :
    FailsWithin ts (validate payload) := by
  unfold validate
  split
  · exact Prog.raises_ok _ _
  · exact fails_none rfl

-- reading a UUID is not unfolded on the way
attribute [local irreducible] resourceUuid

variable (hprotector : cfg.protector.Refuses)

include hprotector

theorem replayPair_raises (completed : CompletedIdempotencyResult)
    (payload : List (String × Json)) (resourceId : String) :
    Raises refreshFailures (replayPair cfg identity requestHash completed payload resourceId) := by
  have hrestored : FailsWithin refreshFailures (cfg.protector.restore payload
      (replayAad identity requestHash completed.resultType completed.resultVersion)) := by
    intro x hx
    rw [hprotector _ _ x hx]
    decide
  refine (Prog.answers_ofExcept (resourceUuid_fails resourceId)).andThen fun tokenId => ?_
  refine (checkReplay_raises (by decide) tokenId).andThen fun _ => ?_
  refine (Prog.answers_ofExcept hrestored).andThen fun restored => ?_
  exact Prog.answers_ofExcept (TokenPair.validate_fails restored)

theorem answerCompleted_raises (completed : CompletedIdempotencyResult) :
    Raises refreshFailures (answerCompleted cfg identity requestHash completed) := by
  have hunavailable : FailsWithin refreshFailures
      (.error .refreshReplayUnavailable : Except Exn TokenPair) := fails_error (by decide)
  unfold answerCompleted
  split
  · exact AuthSession.fails_refused (by decide) rfl
  split
  · exact hunavailable
  split
  · refine Prog.Answers.attempt (replayPair_raises hprotector _ _ _) fun r hr => ?_
    cases r with
    | ok pair => exact Prog.raises_ok _ _
    | error x =>
      cases x with
      | valueError _ => exact hunavailable
      | _ => exact hr
  · exact hunavailable

theorem refreshExecute_raises (hotStore : Bool) (command : RefreshCommand) :
    Raises refreshFailures (refreshExecute cfg hotStore command) := by
  refine (coordinatorExecute_raises (refreshOperation_raises (by decide) _)).andThen
    fun result => ?_
  obtain ⟨outcome, completed, decision⟩ := result
  cases outcome with
  | conflict => exact fails_error (x := .idempotencyKeyConflict) (by decide)
  | inProgress => exact fails_error (x := .idempotencyRequestInProgress) (by decide)
  | executed | replay =>
    cases completed with
    | none => exact fails_none (x := .runtimeError _) rfl
    | some completed => exact answerCompleted_raises hprotector completed

end Refresh

theorem logoutExecute_raises (command : LogoutCommand) : Raises ts (logoutExecute cfg command) := by
  unfold logoutExecute
  split
  · exact Prog.raises_ok _ _
  · refine uow_raises ?_
    refine (run_raises (AuthSessionRepository.getByRefreshHashForUpdate_raises _)).andThen
      fun found => ?_
    cases found with
    | none => exact Prog.raises_ok _ _
    | some session =>
      refine Prog.Answers.andThen (raises_ask rfl) fun now => ?_
      refine (Prog.answers_ofExcept (AuthSession.revoke_fails session now)).andThen
        fun session => ?_
      exact run_raises (AuthSessionRepository.save_raises session)

end Handlers

end IdentityService
