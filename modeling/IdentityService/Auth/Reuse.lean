import IdentityService.Auth.Runs

/-!
# Reuse of a refresh token

A token that is presented a second time revokes its whole session. The
revocation is staged in the transaction of the idempotent callback, so it
becomes true only if the record of the request can be inserted there. If
another record of the identity is in the way, the revocation is rolled back
and the call is answered from that record.

This needs the record to be readable. One that has expired, and has not
been deleted, is in the way of the insert and yet is not found by the
lookup that follows: the call ends in an error, and the revocation is lost.
`Unexpired` rules this out for as long as the callback has the token.
-/

namespace IdentityService

open Concurrent

variable {C : ResultCodec} {cfg : AuthConfig} {callees : Nat → Option AuthCallee}

/-- The promise to a call that has locked a used token. -/
def ReuseSettled (i : Nat) (identity : IdempotencyIdentity) (requestHash : Digest)
    (t : RefreshToken) (w : World auth C) : Prop :=
  (∃ s, (AuthTables.of w.store.rows).sessions t.sessionId = some s ∧ s.revokedAt.isSome) ∨
    FromRecord i identity requestHash w

/-- **Reuse is not forgotten**: a refresh whose callback has locked a used
token, and whose statements did not fail, leaves the session revoked or was
answered from a committed record of its identity. -/
theorem reuse_settled (users : List User) (clock : Time) {i : Nat} {hotStore : Bool}
    {command : RefreshCommand} (hi : callees i = some (.refresh hotStore command))
    {P : Config (sig auth) Exn (World auth C) AuthAnswer}
    (hr : (machine auth C).Reach (Unexpired i command.identity)
      (AuthCallee.start C cfg users clock callees) P)
    {r : Except Exn AuthAnswer} (hend : P.pool i = some (Prog.ofExcept r))
    (hok : P.shared.failed i = false) {id : Uuid} {t : RefreshToken}
    (hlocked : ⟨.biz (.token id), t⟩ ∈ P.shared.store.granted i) (hused : t.usedAt.isSome) :
    ReuseSettled i command.identity (command.requestHash cfg) t P.shared := by
  have hstart : (authRules cfg callees (Unexpired (C := C) i command.identity) False).spec.Good
      (Ended cfg callees fun j => j = i) (AuthCallee.start C cfg users clock callees) := by
    refine auth_good (fun h => h.elim) ?_ users clock
    intro j hotStore' command' hj hji
    subst hji
    rw [hi] at hj
    cases hj
    exact fun _ _ h => h
  have hgood := hstart.reach closed_auth hr
  rcases (hgood.result hend hotStore command hi).2 rfl with hfailed | hcleared | hrecord
  · rw [hok] at hfailed
    cases hfailed
  · exact .inl (hcleared id t hlocked hused)
  · exact .inr hrecord

namespace Sample

/-- A login, a refresh of its token, and a second refresh of it under the
given key. -/
def reused (key : UInt8) : Nat → Option AuthCallee
  | 0 => some (.login ⟨"user@example.org", "password"⟩)
  | 1 => some (.refresh false ⟨"r1", digest 1⟩)
  | 2 => some (.refresh false ⟨"r1", digest key⟩)
  | _ => none

/-- The second refresh has no row yet, or else nothing is stored under its
key before the step, and nothing expired after it. -/
def unrecorded (w w' : World auth codec) : Bool :=
  let identity := (RefreshCommand.mk "r1" (digest 2)).identity
  (w'.store.granted 2).isEmpty || ((w.store.rows (.record identity)).isNone &&
    (w'.store.rows (.record identity)).all fun r => decide (r.Live w'.clock))

theorem unrecorded_unexpired (w w' : World auth codec) (h : unrecorded w w' = true) :
    Unexpired 2 (RefreshCommand.mk "r1" (digest 2)).identity w w' := by
  rintro ⟨id, t, hm, -⟩
  simp only [unrecorded, Bool.or_eq_true, List.isEmpty_iff, Bool.and_eq_true,
    Option.isNone_iff_eq_none] at h
  rcases h with h | ⟨hnone, hlive⟩
  · rw [h] at hm
    cases hm
  refine ⟨fun r hr => ?_, fun r hr => ?_⟩
  · rw [hr] at hlive
    exact of_decide_eq_true hlive
  · rw [hnone] at hr
    cases hr

def usedToken : RefreshToken := ⟨6, 5, sha256 "r1", 5, some 5⟩

/-- The second refresh, under another key, is about to tell the observer
that it has been executed. -/
structure Reused (P : Config (sig auth) Exn (World auth codec) AuthAnswer) : Prop where
  run : (machine auth codec).run unrecorded
    (AuthCallee.start codec authConfig [account] 5 (reused 2))
    (loggedIn ++ refreshed ++ answered 2 (going 15)) = some P
  pool : ∃ k, P.pool 2 = some (.op (.observeOutcome .executed) k) ∧
    k (.ok ()) = Prog.ofExcept (.error .invalidRefreshToken)
  failed : P.shared.failed 2 = false
  granted : ⟨.biz (.token 6), usedToken⟩ ∈ P.shared.store.granted 2
  recorded : (P.shared.store.rows
    (.record (RefreshCommand.mk "r1" (digest 2)).identity)).all
      (fun r => decide (r.Live P.shared.clock)) = true

set_option maxRecDepth 4000 in
theorem exists_reused : ∃ P, Reused P := ⟨_, rfl, ⟨_, rfl, rfl⟩, rfl, .head _, rfl⟩

/-- The state after the last step. -/
theorem Reused.ended {P : Config (sig auth) Exn (World auth codec) AuthAnswer} (h : Reused P) :
    ∃ P', (machine auth codec).Reach (Unexpired 2 (RefreshCommand.mk "r1" (digest 2)).identity)
        (AuthCallee.start codec authConfig [account] 5 (reused 2)) P' ∧
      P'.pool 2 = some (Prog.ofExcept (.error .invalidRefreshToken)) ∧
      P'.shared.failed 2 = false ∧
      ⟨.biz (.token 6), usedToken⟩ ∈ P'.shared.store.granted 2 := by
  obtain ⟨k, hpool, hk⟩ := h.pool
  let told : World auth codec :=
    { P.shared with
      observed := Function.update P.shared.observed 2 (P.shared.observed 2 ++ [.executed]) }
  refine ⟨⟨told, Function.update P.pool 2 (some (k (.ok ())))⟩,
    (Machine.reach_of_run _ unrecorded_unexpired _ _ _ h.run).tail
      ⟨.act 2 (.fate .go), ?_, fun _ => ⟨?_, fun r hr => hr⟩⟩, ?_, h.failed, h.granted⟩
  · show Machine.act _ _ _ _ = _
    unfold Machine.act
    rw [hpool]
    rfl
  · intro r hr
    have hlive := h.recorded
    have hr : P.shared.store.rows (.record (RefreshCommand.mk "r1" (digest 2)).identity) =
      some r := hr
    rw [hr] at hlive
    exact of_decide_eq_true hlive
  · rw [← hk]
    simp

end Sample

theorem reuse_settled_reused :
    ∃ P : Config (sig auth) Exn (World auth Sample.codec) AuthAnswer,
      P.pool 2 = some (Prog.ofExcept (.error .invalidRefreshToken)) ∧
      ReuseSettled 2 (RefreshCommand.mk "r1" (Sample.digest 2)).identity
        ((RefreshCommand.mk "r1" (Sample.digest 2)).requestHash Sample.authConfig)
        Sample.usedToken P.shared := by
  obtain ⟨P, hP⟩ := Sample.exists_reused
  obtain ⟨P', hr, hend, hok, hlocked⟩ := hP.ended
  exact ⟨P', hend, reuse_settled [Sample.account] 5 rfl hr hend hok hlocked rfl⟩

/-! ## The lost revocation -/

namespace Sample

/-- The second refresh has the key of the first, whose record has expired
in between and is still stored. -/
structure Forgotten (P : Config (sig auth) Exn (World auth codec) AuthAnswer) : Prop where
  run : (machine auth codec).run (fun _ _ => true)
    (AuthCallee.start codec authConfig [account] 5 (reused 1))
    (loggedIn ++ refreshed ++ [.env (.tick 2000000)] ++ answered 2 (going 19)) = some P
  pool : P.pool 2 = some (Prog.ofExcept (.error (.runtimeError noWinner)))
  failed : P.shared.failed 2 = false
  granted : ⟨.biz (.token 6), usedToken⟩ ∈ P.shared.store.granted 2
  session : (AuthTables.of P.shared.store.rows).sessions 5 = some ⟨5, 1, 5, 1000005, none⟩
  observed : P.shared.observed 2 = []

set_option maxRecDepth 4000 in
theorem exists_forgotten : ∃ P, Forgotten P := ⟨_, rfl, rfl, rfl, .head _, rfl, rfl⟩

end Sample

/-- Behind an expired record of its identity, the revocation is lost. -/
theorem reuse_forgotten :
    ∃ P, (machine auth Sample.codec).Reach (fun _ _ => True)
        (AuthCallee.start Sample.codec Sample.authConfig [Sample.account] 5 (Sample.reused 1)) P ∧
      P.pool 2 = some (Prog.ofExcept (.error (.runtimeError noWinner))) ∧
      P.shared.failed 2 = false ∧
      ⟨.biz (.token 6), Sample.usedToken⟩ ∈ P.shared.store.granted 2 ∧
      ¬ ReuseSettled 2 (RefreshCommand.mk "r1" (Sample.digest 1)).identity
        ((RefreshCommand.mk "r1" (Sample.digest 1)).requestHash Sample.authConfig)
        Sample.usedToken P.shared := by
  obtain ⟨P, hP⟩ := Sample.exists_forgotten
  refine ⟨P, Machine.reach_of_run _ (fun _ _ _ => trivial) _ _ _ hP.run, hP.pool, hP.failed,
    hP.granted, ?_⟩
  rintro (⟨s, hs, hrevoked⟩ | ⟨c, -, houtcome⟩)
  · have hsession := hP.session.symm.trans hs
    cases hsession
    cases hrevoked
  · rw [hP.observed] at houtcome
    cases houtcome

end IdentityService
