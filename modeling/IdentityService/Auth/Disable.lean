import IdentityService.Auth.Runs

/-!
# Disabled accounts

A login locks the account before it issues a token, so it cannot miss that
the account was disabled. A refresh reads the account once, without a lock,
and commits some time later; a transaction that disables the account in
between is not noticed, and the disabled account gets another token.

Apart from that window nothing is issued to a disabled account: the window
is what `Guarded` rules out.
-/

namespace IdentityService

open Concurrent

variable {C : ResultCodec} {cfg : AuthConfig} {callees : Nat → Option AuthCallee}

/-- **No token for a disabled account**, in every run in which no account is
disabled between the read and the commit of a refresh. -/
theorem no_issue_after_disable (users : List User) (clock : Time)
    {P P' : Config (sig auth) Exn (World auth C) AuthAnswer}
    (hr : (machine auth C).Reach (Guarded callees) (AuthCallee.start C cfg users clock callees) P)
    (hr' : (machine auth C).Reach (Guarded callees) P P') :
    NoIssue (.of P.shared.store.rows) (.of P'.shared.store.rows) := by
  have hstart : (authRules cfg callees (Guarded (C := C) callees) True).spec.Good
      (Ended cfg callees fun _ => False) (AuthCallee.start C cfg users clock callees) :=
    auth_good (fun _ _ _ h => h) (fun _ _ _ _ h => h.elim) users clock
  exact (auth_later (hstart.reach closed_auth hr) hr').noIssue trivial

/-! ## An account that had tokens -/

namespace Sample

/-- A login, a transaction that disables the account, then a refresh with
the token of that login and another login. -/
def outlawed : Nat → Option AuthCallee
  | 0 => some (.login ⟨"user@example.org", "password"⟩)
  | 1 => some (.refresh false ⟨"r1", digest 1⟩)
  | 2 => some (.disable 1)
  | 3 => some (.login ⟨"user@example.org", "password"⟩)
  | _ => none

/-- A step is guarded if the refresh has not looked at any account, or if
the accounts stay as they are. -/
theorem guarded_outlawed {w w' : World auth codec}
    (h : (∀ id, w.store.seen 1 (.biz (.user id)) = false) ∨
      ∀ id, w'.store.rows (.biz (.user id)) = w.store.rows (.biz (.user id))) :
    Guarded outlawed w w' := by
  intro i hotStore command id u u' hi hseen hu hactive hu'
  rcases h with h | h
  · have h1 : i = 1 := by
      match i, hi with
      | 0, hi => cases hi
      | 1, _ => rfl
      | 2, hi => cases hi
      | 3, hi => cases hi
      | _ + 4, hi => cases hi
    subst h1
    rw [h] at hseen
    cases hseen
  · have heq : (AuthTables.of w'.store.rows).users id = (AuthTables.of w.store.rows).users id :=
      h id
    rw [heq, hu] at hu'
    cases hu'
    exact hactive

/-- A schedule, each step of which is guarded for one of these reasons. -/
def Guards : List (machine auth codec).Label →
    Config (sig auth) Exn (World auth codec) AuthAnswer →
    Config (sig auth) Exn (World auth codec) AuthAnswer → Prop
  | [], P, P' => P = P'
  | l :: ls, P, P' => ∃ P₁, (machine auth codec).step P l = some P₁ ∧
      ((∀ id, P.shared.store.seen 1 (.biz (.user id)) = false) ∨
        ∀ id, P₁.shared.store.rows (.biz (.user id)) = P.shared.store.rows (.biz (.user id))) ∧
      Guards ls P₁ P'

theorem Guards.reach {ls : List (machine auth codec).Label}
    {P P' : Config (sig auth) Exn (World auth codec) AuthAnswer} (h : Guards ls P P') :
    (machine auth codec).Reach (Guarded outlawed) P P' := by
  induction ls generalizing P with
  | nil =>
      cases h
      exact .refl
  | cons l ls ih =>
      obtain ⟨P₁, hstep, hguard, hrest⟩ := h
      exact .head ⟨l, hstep, guarded_outlawed hguard⟩ (ih hrest)

/-- The service with one account and these callers. -/
def outset : Config (sig auth) Exn (World auth codec) AuthAnswer :=
  AuthCallee.start codec authConfig [account] 5 outlawed

/-- The login, and then the disabling of its account. -/
def outlawing : List (machine auth codec).Label := loggedIn ++ answered 2 (going 5)

/-- What comes after it: a refresh of the first pair, and another login. -/
def refusing : List (machine auth codec).Label :=
  answered 1 (going 16) ++ answered 3 (going 3 ++ [issuing 0 ""])

/-- The login has its pair, and the account is disabled. -/
def disabledAt : Config (sig auth) Exn (World auth codec) AuthAnswer :=
  ((machine auth codec).run (fun _ _ => true) outset outlawing).get rfl

set_option maxRecDepth 4000 in
/-- The refresh and the second login have ended. -/
def refusedAt : Config (sig auth) Exn (World auth codec) AuthAnswer :=
  ((machine auth codec).run (fun _ _ => true) disabledAt refusing).get rfl

set_option maxRecDepth 4000 in
/-- The refresh has not begun when the account is disabled. -/
theorem guards_outlawing : Guards outlawing outset disabledAt := by
  iterate 19 refine ⟨_, rfl, .inl fun _ => rfl, ?_⟩
  rfl

set_option maxRecDepth 4000 in
/-- It reads the disabled account, and revokes the session. -/
theorem guards_refusing : Guards refusing disabledAt refusedAt := by
  iterate 20 refine ⟨_, rfl, .inr fun _ => rfl, ?_⟩
  rfl

/-- The active account is given token 6 of session 5; the disabled one is
refused, by the refresh of that token and by a login. -/
structure Outlawed (P P' : Config (sig auth) Exn (World auth codec) AuthAnswer) : Prop where
  served : P.pool 0 = some (.ret (.pair ⟨"access", "r1", "bearer"⟩))
  issued : ∃ t s, (AuthTables.of P.shared.store.rows).tokens 6 = some t ∧ t.sessionId = 5 ∧
    (AuthTables.of P.shared.store.rows).sessions 5 = some s ∧ s.userId = 1
  off : ∃ u, (AuthTables.of P.shared.store.rows).users 1 = some u ∧ u.status = .disabled
  refreshRefused : P'.pool 1 = some (.throw .invalidRefreshToken)
  loginRefused : P'.pool 3 = some (.throw .invalidCredentials)
  revoked : ∃ s, (AuthTables.of P'.shared.store.rows).sessions 5 = some s ∧ s.revokedAt.isSome

set_option maxRecDepth 4000 in
theorem outlawed_ends : Outlawed disabledAt refusedAt where
  served := rfl
  issued := ⟨_, _, rfl, rfl, rfl, rfl⟩
  off := ⟨_, rfl, rfl⟩
  refreshRefused := rfl
  loginRefused := rfl
  revoked := ⟨_, rfl, rfl⟩

end Sample

open Sample in
theorem no_issue_after_disable_refused :
    Outlawed disabledAt refusedAt ∧
      NoIssue (.of disabledAt.shared.store.rows) (.of refusedAt.shared.store.rows) :=
  ⟨outlawed_ends, no_issue_after_disable [account] 5 guards_outlawing.reach guards_refusing.reach⟩

/-! ## The window -/

namespace Sample

/-- A refresh that overlaps with the disabling. -/
def overtaken : Nat → Option AuthCallee
  | 0 => some (.login ⟨"user@example.org", "password"⟩)
  | 1 => some (.refresh false ⟨"r1", digest 1⟩)
  | 2 => some (.disable 1)
  | _ => none

/-- The refresh has read the account when it is disabled, and commits its
token, number 7, afterwards. -/
def Overtaken (P P' : Config (sig auth) Exn (World auth codec) AuthAnswer) : Prop :=
  (machine auth codec).run (fun _ _ => true)
      (AuthCallee.start codec authConfig [account] 5 overtaken)
      (loggedIn ++ answered 1 (going 7) ++ answered 2 (going 5)) = some P ∧
    (machine auth codec).run (fun _ _ => true) P
      (answered 1 (going 1 ++ [issuing 0 "", issuing 0 "r2", issuing 7 ""] ++ going 6 ++
        [issuing 0 ""] ++ going 3)) = some P'

set_option maxRecDepth 4000 in
theorem exists_overtaken : ∃ P P', Overtaken P P' ∧
    (∃ u, (AuthTables.of P.shared.store.rows).users 1 = some u ∧ u.status = .disabled) ∧
    (AuthTables.of P.shared.store.rows).tokens 7 = none ∧
    (∃ t, (AuthTables.of P'.shared.store.rows).tokens 7 = some t ∧ t.sessionId = 5) ∧
    ∃ s, (AuthTables.of P'.shared.store.rows).sessions 5 = some s ∧ s.userId = 1 :=
  ⟨_, _, ⟨rfl, rfl⟩, ⟨_, rfl, rfl⟩, rfl, ⟨_, rfl, rfl⟩, _, rfl, rfl⟩

end Sample

/-- A refresh that an account's disabling overtakes issues a token to it. -/
theorem issue_after_disable_overtaken :
    ∃ P P', (machine auth Sample.codec).Reach (fun _ _ => True)
        (AuthCallee.start Sample.codec Sample.authConfig [Sample.account] 5 Sample.overtaken) P ∧
      (machine auth Sample.codec).Reach (fun _ _ => True) P P' ∧
      ¬ NoIssue (.of P.shared.store.rows) (.of P'.shared.store.rows) := by
  obtain ⟨P, P', hrun, ⟨u, hu, hoff⟩, hnone, ⟨t, ht, htid⟩, s, hs, huser⟩ :=
    Sample.exists_overtaken
  refine ⟨P, P', Machine.reach_of_run _ (fun _ _ _ => trivial) _ _ _ hrun.1,
    Machine.reach_of_run _ (fun _ _ _ => trivial) _ _ _ hrun.2, fun hno => ?_⟩
  have hold := hno 1 u hu hoff 7 t s ht (by rw [htid]; exact hs) huser
  rw [hnone] at hold
  cases hold

end IdentityService
