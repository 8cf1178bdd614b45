import IdentityService.Auth.Revocation

/-!
# What a login costs and leaves

`LoginHandler.execute` refuses an unknown address, a disabled account, a
wrong password and an account that changed in between with one exception,
after one run of the password hash, and without a row written. If it
returns a pair, then one session was committed, whose token has the digest
of the refresh token handed out.

The call's own awaits tell all of this. Once one of them has raised, no pair
is returned and no credentials are refused, so that nothing more has to be
kept account of.
-/

namespace IdentityService

open Concurrent

variable {C : ResultCodec} {cfg : AuthConfig} {callees : Nat → Option AuthCallee} {α β : Type}

/-- A run of the password hash. -/
inductive PasswordRun where
  | hash (password : String)
  | verify (password passwordHash : String) (verified : Bool)
deriving DecidableEq

/-- The password that a run hashes or verifies. -/
def PasswordRun.password : PasswordRun → String
  | .hash password => password
  | .verify password _ _ => password

/-- What is kept of a call's answered awaits, in their order: the runs of
the password hash, the accounts read under a lock, and where a transaction
ended. -/
inductive LoginStep where
  | hashed (run : PasswordRun)
  | locked (id : Uuid) (user : Option User)
  | committed
  | rolledBack
deriving DecidableEq

/-- The run of the hash that a step is. -/
def LoginStep.passwordRun : LoginStep → Option PasswordRun
  | .hashed run => some run
  | _ => none

/-- The step that an answered effect is. -/
def loginStep : (e : Eff auth) → Except Exn e.Resp → Option LoginStep
  | .ext (.hash password), .ok _ => some (.hashed (.hash password))
  | .ext (.verify password passwordHash), .ok verified =>
    some (.hashed (.verify password passwordHash verified))
  | .db (.lock (.biz (.user id))), .ok user => some (.locked id user)
  | .db .commit, .ok _ => some .committed
  | .db .rollback, .ok _ => some .rolledBack
  | _, _ => none

/-- What a call has staged, what it has committed, and its steps. -/
structure LoginAccount where
  staged : AuthRows
  committed : List AuthRows
  steps : List LoginStep

namespace LoginAccount

/-- Nothing has happened yet. -/
def start : LoginAccount := ⟨noWrites, [], []⟩

/-- The runs of the password hash. -/
def runs (l : LoginAccount) : List PasswordRun := l.steps.filterMap LoginStep.passwordRun

/-- What an answer adds to the account. -/
def answered (l : LoginAccount) : (e : Eff auth) → e.Resp → LoginAccount
  | .db (.put k row), _ => { l with staged := Function.update l.staged k (some row) }
  | .db (.insert k row), true => { l with staged := Function.update l.staged k (some row) }
  | .db (.lock (.biz (.user id))), user => { l with steps := l.steps ++ [.locked id user] }
  | .db .commit, _ => ⟨noWrites, l.committed ++ [l.staged], l.steps ++ [.committed]⟩
  | .db .rollback, _ => ⟨noWrites, l.committed, l.steps ++ [.rolledBack]⟩
  | .ext (.hash password), _ => { l with steps := l.steps ++ [.hashed (.hash password)] }
  | .ext (.verify password passwordHash), verified =>
    { l with steps := l.steps ++ [.hashed (.verify password passwordHash verified)] }
  | _, _ => l

/-- The account's steps are those of the answers. -/
theorem answered_steps (l : LoginAccount) (e : Eff auth) (a : e.Resp) :
    (l.answered e a).steps = l.steps ++ (loginStep e (.ok a)).toList := by
  cases e with
  | db o =>
    cases o with
    | lock k =>
      cases k with
      | record identity => exact (List.append_nil _).symm
      | biz k =>
        cases k with
        | user id => rfl
        | _ => exact (List.append_nil _).symm
    | insert k row => cases a <;> exact (List.append_nil _).symm
    | commit => rfl
    | rollback => rfl
    | _ => exact (List.append_nil _).symm
  | ext x =>
    cases x with
    | hash password => rfl
    | verify password passwordHash => rfl
    | _ => exact (List.append_nil _).symm
  | _ => exact (List.append_nil _).symm

end LoginAccount

/-- An account is kept until an await raises. That one of them raised
`InvalidCredentials` itself, which is the handler's own, is told apart. -/
inductive Tally where
  | kept (l : LoginAccount)
  | failed
  | spoofed

/-- How an answer changes the tally. -/
def Tally.next : Tally → (e : Eff auth) → Except Exn e.Resp → Tally
  | .kept l, e, .ok a => .kept (l.answered e a)
  | t, _, .ok _ => t
  | .spoofed, _, .error _ => .spoofed
  | _, _, .error x => if x = .invalidCredentials then .spoofed else .failed

theorem Tally.next_kept {t : Tally} {e : Eff auth} {r : Except Exn e.Resp} {l : LoginAccount}
    (h : t.next e r = .kept l) : ∃ l₀ a, t = .kept l₀ ∧ r = .ok a ∧ l = l₀.answered e a := by
  cases t with
  | kept l₀ =>
    cases r with
    | ok a =>
      cases h
      exact ⟨l₀, a, rfl, rfl, rfl⟩
    | error x =>
      simp only [Tally.next] at h
      split at h <;> cases h
  | failed =>
    cases r with
    | ok a => cases h
    | error x =>
      simp only [Tally.next] at h
      split at h <;> cases h
  | spoofed => cases r <;> cases h

/-- Any program keeps to it: it is an account only. -/
def loginFlow : Flow (sig auth) Exn where
  State := Tally
  start := .kept .start
  permits _ _ := True
  next := Tally.next

theorem loginFlow_free (p : App auth α) (t : Tally) :
    loginFlow.Follows p t fun _ _ => True := by
  induction p generalizing t with
  | ret a => trivial
  | throw x => trivial
  | op e k ih => exact ⟨trivial, fun r => ih r _⟩

/-! ## Rules -/

/-- `A` of what is returned, and `E` of what is raised, as long as no await
has raised. After that nothing is returned, and no credentials are refused. -/
def Tallied (A : α → LoginAccount → Prop) (E : Exn → LoginAccount → Prop) :
    Except Exn α → Tally → Prop
  | .ok a, .kept l => A a l
  | .ok _, _ => False
  | .error x, .kept l => E x l
  | .error x, .failed => x ≠ .invalidCredentials
  | .error _, .spoofed => True

/-- An await has raised. -/
def HasRaised : Except Exn α → Tally → Prop := Tallied (fun _ _ => False) fun _ _ => False

section Rules

variable {A : α → LoginAccount → Prop} {E : Exn → LoginAccount → Prop} {l : LoginAccount}

theorem Tallied.mono {A' : α → LoginAccount → Prop} {E' : Exn → LoginAccount → Prop}
    {r : Except Exn α} {t : Tally} (h : Tallied A E r t) (hA : ∀ a l, A a l → A' a l)
    (hE : ∀ x l, E x l → E' x l) : Tallied A' E' r t := by
  cases r with
  | ok a =>
    cases t with
    | kept l => exact hA a l h
    | _ => exact h
  | error x =>
    cases t with
    | kept l => exact hE x l h
    | _ => exact h

theorem HasRaised.tallied {r : Except Exn α} {t : Tally} (h : HasRaised r t) : Tallied A E r t :=
  Tallied.mono h (fun _ _ => False.elim) fun _ _ => False.elim

theorem raised_next (t : Tally) (e : Eff auth) (x : Exn) :
    HasRaised (.error x : Except Exn α) (t.next e (.error x)) := by
  cases t with
  | spoofed => trivial
  | _ =>
    simp only [Tally.next]
    split
    · trivial
    · assumption

/-- What was raised may be replaced by another exception. -/
theorem HasRaised.replace {x y : Exn} {t : Tally} (h : HasRaised (.error x : Except Exn α) t)
    (hy : y ≠ .invalidCredentials) : HasRaised (.error y : Except Exn β) t := by
  cases t with
  | kept l => exact h
  | failed => exact hy
  | spoofed => trivial

theorem HasRaised.same {x : Exn} {t : Tally} (h : HasRaised (.error x : Except Exn α) t) :
    HasRaised (.error x : Except Exn β) t := by
  cases t <;> exact h

theorem tallied_bind {p : App auth α} {f : α → App auth β} {A' : β → LoginAccount → Prop}
    (h : loginFlow.Follows p (.kept l) (Tallied A E))
    (hf : ∀ a l', A a l' → loginFlow.Follows (f a) (.kept l') (Tallied A' E)) :
    loginFlow.Follows (p.bind f) (.kept l) (Tallied A' E) := by
  refine Flow.Follows.bind h (fun a t ht => ?_) fun x t ht => ?_
  · cases t with
    | kept l' => exact hf a l' ht
    | _ => exact ht.elim
  · cases t <;> exact ht

theorem tallied_run_bind {p : AuthOp α} {f : α → AuthOp β} {A' : β → LoginAccount → Prop}
    (h : loginFlow.Follows p.run (.kept l) (Tallied A E))
    (hf : ∀ a l', A a l' → loginFlow.Follows (f a).run (.kept l') (Tallied A' E)) :
    loginFlow.Follows (Operation.run (p.bind f)) (.kept l) (Tallied A' E) := by
  rw [Operation.run_bind]
  exact tallied_bind h hf

theorem translateDatabaseError_ne (d : DbError) :
    translateDatabaseError d ≠ .invalidCredentials := by
  cases d <;> decide

/-- A rollback after an await has raised. -/
theorem raised_rollback {x : Exn} {t : Tally} (h : HasRaised (.error x : Except Exn Unit) t) :
    loginFlow.Follows (rollback (B := auth)) t fun r t' =>
      (r = .ok () ∧ t' = t) ∨ ∃ y, r = .error y ∧ HasRaised r t' := by
  refine Flow.Follows.perform trivial fun r => ?_
  cases r with
  | error y => exact .inr ⟨y, rfl, raised_next t _ y⟩
  | ok a =>
    cases t with
    | kept l => exact h.elim
    | _ => exact .inl ⟨rfl, rfl⟩

/-- Once an await has raised, the end of a unit of work raises. -/
theorem unwind_raised {x : Exn} {t : Tally} (h : HasRaised (.error x : Except Exn Unit) t) :
    loginFlow.Follows (unwind (B := auth) x) t HasRaised := by
  cases x with
  | database d =>
    refine (raised_rollback h).attempt fun r t' ht => ?_
    rcases ht with ⟨rfl, rfl⟩ | ⟨y, rfl, hy⟩
    · exact h.replace (translateDatabaseError_ne d)
    · cases y with
      | database d' => exact hy.replace (translateDatabaseError_ne d)
      | _ => exact hy
  | _ =>
    refine (raised_rollback h).bind (fun _ t' ht => ?_) fun y t' ht => ?_
    · rcases ht with ⟨-, rfl⟩ | ⟨y, hr, -⟩
      · exact h
      · cases hr
    · rcases ht with ⟨hr, -⟩ | ⟨-, -, hy⟩
      · cases hr
      · exact hy

theorem commit_tallied {E : Exn → LoginAccount → Prop} :
    loginFlow.Follows (aexit (B := auth) none) (.kept l)
      (Tallied (fun _ l' => l' = l.answered (.db .commit) ()) E) := by
  have hcommit : loginFlow.Follows (commit (B := auth)) (.kept l) fun r t =>
      t = Tally.next (.kept l) (.db .commit) r :=
    Flow.Follows.perform trivial fun r => rfl
  refine hcommit.attempt fun r t ht => ?_
  subst ht
  cases r with
  | ok a => exact rfl
  | error x => exact Flow.Follows.mono (unwind_raised (raised_next (.kept l) _ x)) fun _ _ h =>
    HasRaised.tallied h

/-- The end of a unit of work whose body raised `x`. -/
theorem rollback_tallied {x : Exn} {t : Tally} {A' : β → LoginAccount → Prop}
    {E' : Exn → LoginAccount → Prop} (h : Tallied A E (.error x) t)
    (hE : ∀ x l', E x l' → E' x (l'.answered (.db .rollback) ()))
    (hdb : ∀ d l', E' (translateDatabaseError d) l') :
    loginFlow.Follows ((aexit (B := auth) (some x)).bind fun _ => .throw x) t
      (Tallied A' E') := by
  have hback : loginFlow.Follows (rollback (B := auth)) t fun r t' =>
      t' = Tally.next t (.db .rollback) r :=
    Flow.Follows.perform trivial fun r => rfl
  have hend : loginFlow.Follows (aexit (B := auth) (some x)) t fun r t' =>
      r = .ok () ∧ Tallied A' E' (.error x : Except Exn β) t' ∨
        ∃ y, r = .error y ∧ Tallied A' E' (.error y : Except Exn β) t' := by
    refine hback.attempt fun r t' ht => ?_
    subst ht
    cases r with
    | error y =>
      refine Flow.Follows.mono (unwind_raised (raised_next t _ y)) fun r t' hr => ?_
      cases r with
      | ok a => cases t' <;> exact hr.elim
      | error z => exact .inr ⟨z, rfl, HasRaised.tallied (HasRaised.same hr)⟩
    | ok a =>
      -- the tally goes on, and so does `x`, unless it is translated
      have hkeep : ∀ y, (y = x ∨ ∃ d, y = translateDatabaseError d) →
          Tallied A' E' (.error y : Except Exn β) (t.next (.db .rollback) (.ok a)) := by
        intro y hy
        cases t with
        | kept l =>
          rcases hy with rfl | ⟨d, rfl⟩
          · exact hE y l h
          · exact hdb d _
        | failed =>
          rcases hy with rfl | ⟨d, rfl⟩
          · exact h
          · exact translateDatabaseError_ne d
        | spoofed => trivial
      cases x with
      | database d => exact .inr ⟨_, rfl, hkeep _ (.inr ⟨d, rfl⟩)⟩
      | _ => exact .inl ⟨rfl, hkeep _ (.inl rfl)⟩
  refine hend.bind (fun _ t' ht => ?_) fun y t' ht => ?_
  · rcases ht with ⟨-, ht⟩ | ⟨y, hr, -⟩
    · exact ht
    · cases hr
  · rcases ht with ⟨hr, -⟩ | ⟨y', hr, ht⟩
    · cases hr
    · cases hr
      exact ht

/-- **The rule for a unit of work.** -/
theorem tallied_uow {body : App auth α} {A' : α → LoginAccount → Prop}
    {E' : Exn → LoginAccount → Prop} (h : loginFlow.Follows body (.kept l) (Tallied A E))
    (hA : ∀ a l', A a l' → A' a (l'.answered (.db .commit) ()))
    (hE : ∀ x l', E x l' → E' x (l'.answered (.db .rollback) ()))
    (hdb : ∀ d l', E' (translateDatabaseError d) l') :
    loginFlow.Follows (uow body) (.kept l) (Tallied A' E') := by
  refine h.attempt fun r t hr => ?_
  cases r with
  | ok a =>
    cases t with
    | kept l' =>
      refine tallied_bind commit_tallied fun _ l'' hl'' => ?_
      subst hl''
      exact hA a l' hr
    | _ => exact hr.elim
  | error x => exact rollback_tallied hr hE hdb

end Rules

/-! ## The handler -/

section Handler

variable {l : LoginAccount} {E : Exn → LoginAccount → Prop}

/-- A refusal: nothing but the empty transaction that read the account. -/
def LoginRefused (password : String) (x : Exn) (l : LoginAccount) : Prop :=
  x = .invalidCredentials → l.committed = [noWrites] ∧
    ∃ run : PasswordRun, l.runs = [run] ∧ run.password = password

/-- A session that was started for the pair. -/
structure LoginEstablished (cfg : AuthConfig) (password : String) (pair : TokenPair)
    (l : LoginAccount) : Prop where
  session : ∃ (id : Uuid) (u : User) (s : AuthSessionRow) (t : RefreshToken),
    l.committed = [noWrites, (Plan.start s t).writes] ∧
    l.steps = [.committed, .hashed (.verify password u.passwordHash true), .locked id (some u),
      .committed] ∧
    u.status = .active ∧ s.userId = u.id ∧ s.revokedAt = none ∧ t.sessionId = s.id ∧
    t.usedAt = none ∧ t.tokenHash = cfg.digest pair.refreshToken

theorem tallied_select {k : AuthKey} :
    loginFlow.Follows (AuthOp.select k).run (.kept l) (Tallied (fun _ l' => l' = l) E) := by
  refine ⟨trivial, fun r => ?_⟩
  cases r with
  | ok a => exact rfl
  | error x => exact (raised_next (.kept l) (.db (.read (.biz k))) x).tallied

theorem tallied_draw {o : AuthExt} {A : o.Resp → LoginAccount → Prop}
    (h : ∀ a, A a (l.answered (.ext o) a)) :
    loginFlow.Follows (AuthOp.draw o).run (.kept l) (Tallied A E) := by
  refine ⟨trivial, fun r => ?_⟩
  cases r with
  | ok a => exact h a
  | error x => exact (raised_next (.kept l) (.ext o) x).tallied

theorem tallied_clock :
    loginFlow.Follows AuthOp.clock.run (.kept l) (Tallied (fun _ l' => l' = l) E) := by
  refine ⟨trivial, fun r => ?_⟩
  cases r with
  | ok a => exact rfl
  | error x => exact (raised_next (.kept l) .now x).tallied

theorem tallied_lockUser (id : Uuid) :
    loginFlow.Follows (UserRepository.getForUpdate id).run (.kept l)
      (Tallied (fun user l' => l' = { l with steps := l.steps ++ [.locked id user] }) E) := by
  refine ⟨trivial, fun r => ?_⟩
  cases r with
  | ok a => exact rfl
  | error x => exact (raised_next (.kept l) (.db (.lock (.biz (.user id)))) x).tallied

theorem tallied_create {k : AuthKey} {row : k.Row} (hE : ∀ l, E (.database .integrity) l) :
    loginFlow.Follows (AuthOp.create k row).run (.kept l) (Tallied (fun _ l' =>
      l' = { l with staged := Function.update l.staged (.biz k) (some row) }) E) := by
  refine ⟨trivial, fun r => ?_⟩
  cases r with
  | error x => exact (raised_next (.kept l) (.db (.insert (.biz k) row)) x).tallied
  | ok added =>
    cases added with
    | true => exact rfl
    | false => exact hE _

theorem tallied_createSession (s : AuthSessionRow) (t : RefreshToken)
    (hstaged : l.staged = noWrites) (hE : ∀ l, E (.database .integrity) l) :
    loginFlow.Follows (AuthSessionRepository.create (s.bearing t)).run (.kept l)
      (Tallied (fun _ l' => l' = { l with staged := (Plan.start s t).writes }) E) := by
  obtain ⟨staged, committed, steps⟩ := l
  obtain rfl : staged = noWrites := hstaged
  refine tallied_run_bind (tallied_create (k := .session s.id) hE) fun _ l₁ hl₁ => ?_
  subst hl₁
  refine tallied_run_bind (tallied_create (k := .token t.id) hE) fun _ l₁ hl₁ => ?_
  subst hl₁
  exact tallied_create (k := .tokenHash t.tokenHash) hE

/-- The account before the second transaction. -/
structure Checked (password passwordHash : String) (l : LoginAccount) : Prop where
  staged : l.staged = noWrites
  committed : l.committed = [noWrites]
  steps : l.steps = [.committed, .hashed (.verify password passwordHash true)]

/-- Within it, once the user's row has been asked for under a lock. -/
structure Relocked (password passwordHash : String) (id : Uuid) (user : Option User)
    (l : LoginAccount) : Prop where
  staged : l.staged = noWrites
  committed : l.committed = [noWrites]
  steps : l.steps = [.committed, .hashed (.verify password passwordHash true), .locked id user]

theorem Relocked.refused {password passwordHash : String} {id : Uuid} {user : Option User}
    (h : Relocked password passwordHash id user l) (x : Exn) : LoginRefused password x l := by
  refine fun _ => ⟨h.committed, .verify password passwordHash true, ?_, rfl⟩
  rw [LoginAccount.runs, h.steps]
  rfl

/-- A rollback takes nothing back that was committed, and hashes nothing. -/
theorem LoginRefused.rollback {password : String} {x : Exn} (h : LoginRefused password x l) :
    LoginRefused password x (l.answered (.db .rollback) ()) := by
  intro hx
  obtain ⟨hcommitted, run, hruns, hpassword⟩ := h hx
  refine ⟨hcommitted, run, ?_, hpassword⟩
  rw [← hruns, LoginAccount.runs, LoginAccount.answered_steps, List.filterMap_append]
  exact List.append_nil _

/-- What the second transaction has when it commits. -/
def Establishing (cfg : AuthConfig) (password : String) (pair : TokenPair) (l : LoginAccount) :
    Prop :=
  ∃ (id : Uuid) (u : User) (s : AuthSessionRow) (t : RefreshToken),
    l.staged = (Plan.start s t).writes ∧ l.committed = [noWrites] ∧
    l.steps = [.committed, .hashed (.verify password u.passwordHash true), .locked id (some u)] ∧
    u.status = .active ∧ s.userId = u.id ∧ s.revokedAt = none ∧ t.sessionId = s.id ∧
    t.usedAt = none ∧ t.tokenHash = cfg.digest pair.refreshToken

theorem Establishing.commit {password : String} {pair : TokenPair}
    (h : Establishing cfg password pair l) :
    LoginEstablished cfg password pair (l.answered (.db .commit) ()) := by
  obtain ⟨id, u, s, t, hstaged, hcommitted, hsteps, hrest⟩ := h
  refine ⟨id, u, s, t, ?_, ?_, hrest⟩
  · show l.committed ++ [l.staged] = _
    rw [hcommitted, hstaged]
    rfl
  · rw [LoginAccount.answered_steps, hsteps]
    rfl

/-- Draws and the clock leave the account as it is. -/
theorem issue_tallied (user : User) (now : Time) :
    loginFlow.Follows (issueTokenPair cfg user now).run (.kept l) (Tallied (fun issued l' =>
      issued.refreshDigest = cfg.digest issued.pair.refreshToken ∧ l' = l) E) := by
  refine tallied_run_bind (tallied_draw (A := fun _ l' => l' = l) fun _ => rfl)
    fun access l' hl' => ?_
  subst hl'
  refine tallied_run_bind (tallied_draw (A := fun _ l₁ => l₁ = l') fun _ => rfl)
    fun refresh l₁ hl₁ => ?_
  subst hl₁
  exact ⟨rfl, rfl⟩

theorem startSession_tallied (password : String) {passwordHash : String} (candidateId : Uuid)
    (h : Checked password passwordHash l) :
    loginFlow.Follows (startSession cfg candidateId passwordHash).run (.kept l)
      (Tallied (Establishing cfg password) (LoginRefused password)) := by
  refine tallied_run_bind (tallied_lockUser candidateId) fun user l₁ hl₁ => ?_
  have hlocked : Relocked password passwordHash candidateId user l₁ := by
    subst hl₁
    refine ⟨h.staged, h.committed, ?_⟩
    show l.steps ++ _ = _
    rw [h.steps]
    rfl
  cases user with
  | none => exact hlocked.refused _
  | some u =>
    show loginFlow.Follows (Operation.run (if !u.canAuthenticate || u.passwordHash ≠ passwordHash
      then throw .invalidCredentials else _)) _ _
    split
    · exact hlocked.refused _
    rename_i haccepted
    have hactive : u.canAuthenticate = true ∧ u.passwordHash = passwordHash := by
      simpa using haccepted
    obtain ⟨hcan, rfl⟩ := hactive
    refine tallied_run_bind tallied_clock fun now l₂ hl₂ => ?_
    subst hl₂
    refine tallied_run_bind (issue_tallied u now) fun issued l₁ hl₁ => ?_
    obtain ⟨hdigest, rfl⟩ := hl₁
    refine tallied_run_bind (tallied_draw (A := fun _ l' => l' = l₁) fun _ => rfl)
      fun sessionId l₂ hl₂ => ?_
    subst hl₂
    refine tallied_run_bind (tallied_draw (A := fun _ l' => l' = l₂) fun _ => rfl)
      fun tokenId l₁ hl₁ => ?_
    subst hl₁
    show loginFlow.Follows (Operation.run (Prog.bind (Prog.ofExcept (AuthSession.start sessionId
      tokenId u.id issued.refreshDigest now cfg.sessionIdleTtl)) _)) _ _
    cases hstart : AuthSession.start sessionId tokenId u.id issued.refreshDigest now
        cfg.sessionIdleTtl with
    | error x => exact hlocked.refused x
    | ok session =>
      obtain ⟨-, rfl⟩ := start_ok hstart
      have hlost : ∀ l, LoginRefused password (.database .integrity) l :=
        fun l h => by cases h
      show loginFlow.Follows (Operation.run (Prog.bind (AuthSessionRepository.create _) _)) _ _
      refine tallied_run_bind (tallied_createSession _ _ hlocked.staged hlost) fun _ l₂ hl₂ => ?_
      subst hl₂
      have hactive : u.status = .active := by simpa [User.canAuthenticate] using hcan
      exact ⟨candidateId, u, _, _, rfl, hlocked.committed, hlocked.steps, hactive, rfl, rfl, rfl,
        rfl, hdigest⟩

/-- **The outline of `LoginHandler.execute`.** -/
theorem login_tallied (command : LoginCommand) :
    loginFlow.Follows (loginExecute cfg command) (.kept .start)
      (Tallied (LoginEstablished cfg command.password) (LoginRefused command.password)) := by
  have hother : ∀ d l, LoginRefused command.password (translateDatabaseError d) l := by
    intro d l h
    cases d <;> cases h
  -- the account is read, and nothing is written
  have hread : loginFlow.Follows (UserRepository.getByEmail command.email).run (.kept .start)
      (Tallied (fun _ l => l = .start) fun _ _ => False) := by
    refine tallied_run_bind tallied_select fun id l hl => ?_
    subst hl
    cases id with
    | none => exact rfl
    | some id => exact tallied_select
  have hfirst : loginFlow.Follows (uow (UserRepository.getByEmail command.email).run) (.kept .start)
      (Tallied (fun _ l => l = ⟨noWrites, [noWrites], [.committed]⟩)
        (LoginRefused command.password)) := by
    refine tallied_uow hread (fun _ l hl => ?_) (fun _ _ h => h.elim) hother
    subst hl
    rfl
  -- then the password is hashed once, against a stored hash or for nothing
  have hverify : ∀ hash, loginFlow.Follows (verifyOrDummy command.password hash)
      (.kept ⟨noWrites, [noWrites], [.committed]⟩) (Tallied (fun verified l =>
        (∃ run : PasswordRun, l = ⟨noWrites, [noWrites], [.committed, .hashed run]⟩ ∧
          run.password = command.password ∧
          ∀ h, hash = some h → run = .verify command.password h verified))
        (LoginRefused command.password)) := by
    intro hash
    cases hash with
    | none =>
      refine tallied_bind (tallied_draw (A := fun _ l =>
        l = ⟨noWrites, [noWrites], [.committed, .hashed (.hash command.password)]⟩)
          fun _ => rfl) fun _ l hl => ?_
      subst hl
      exact ⟨_, rfl, rfl, fun h hh => by cases hh⟩
    | some h =>
      refine tallied_draw fun verified => ⟨_, rfl, rfl, fun h' hh => ?_⟩
      cases hh
      rfl
  refine tallied_bind hfirst fun candidate l hl => ?_
  subst hl
  refine tallied_bind (hverify _) fun verified l hl => ?_
  obtain ⟨run, rfl, hpassword, hrun⟩ := hl
  split
  · rename_i candidate passwordHash hhash
    have hsecond : loginFlow.Follows (startSession cfg candidate.id passwordHash).run _ _ :=
      startSession_tallied (l := ⟨noWrites, [noWrites], [.committed, .hashed run]⟩)
        command.password candidate.id ⟨rfl, rfl, by rw [hrun _ hhash]⟩
    exact tallied_uow hsecond (fun _ _ h => h.commit) (fun _ _ h => h.rollback) hother
  · exact fun _ => ⟨rfl, run, rfl, hpassword⟩

end Handler

/-! ## Runs -/

/-- The write sets that process `i` has committed. -/
def committedBy (log : List AuthEntry) (i : Nat) : List AuthRows :=
  log.filterMap fun e =>
    match e with
    | .commit pid wr => if pid = i then some wr else none
    | .delete _ => none

/-- The steps of process `i`, in their order. -/
def loginSteps (trace : List (Event (sig auth) Exn)) (i : Nat) : List LoginStep :=
  trace.filterMap fun e => if e.pid = i then loginStep e.op e.resp else none

/-- The runs of the password hash that process `i` has waited for. -/
def passwordRuns (trace : List (Event (sig auth) Exn)) (i : Nat) : List PasswordRun :=
  (loginSteps trace i).filterMap LoginStep.passwordRun

section Runs

variable {i j : Nat} {l : LoginAccount} {w w' : World auth C}
  {trace : List (Event (sig auth) Exn)}

/-- The account agrees with the world and with the record. -/
structure LoginAccount.Right (l : LoginAccount) (i : Nat) (w : World auth C)
    (trace : List (Event (sig auth) Exn)) : Prop where
  staged : w.store.staged i = l.staged
  committed : committedBy w.store.log i = l.committed
  steps : loginSteps trace i = l.steps

theorem LoginAccount.Right.runs (h : l.Right i w trace) : passwordRuns trace i = l.runs := by
  rw [passwordRuns, h.steps]
  rfl

theorem committedBy_append (log : List AuthEntry) (e : AuthEntry) (i : Nat) :
    committedBy (log ++ [e]) i = committedBy log i ++ committedBy [e] i := by
  simp [committedBy]

theorem loginSteps_append (e : Event (sig auth) Exn) :
    loginSteps (trace ++ [e]) i = loginSteps trace i ++ loginSteps [e] i := by
  simp [loginSteps]

theorem loginSteps_singleton (e : Event (sig auth) Exn) :
    loginSteps [e] e.pid = (loginStep e.op e.resp).toList := by
  cases hstep : loginStep e.op e.resp <;> simp [loginSteps, hstep]

theorem exec_staged {e : Eff auth} {c : Choice auth} {a : e.Resp}
    (h : exec i e c w = some (.ok a, w')) (hstaged : w.store.staged i = l.staged) :
    w'.store.staged i = (l.answered e a).staged := by
  have hknown : Overlay.Known (some l.staged) (w.store.staged i) := by
    intro wr hwr
    cases hwr
    exact hstaged
  refine exec_known h hknown _ ?_
  cases e with
  | db o =>
    cases o with
    | read k => rfl
    | lock k =>
      cases k with
      | record identity => rfl
      | biz k => cases k <;> rfl
    | put k row => rfl
    | insert k row => cases a <;> rfl
    | commit => rfl
    | rollback => rfl
  | ext x => cases x <;> rfl
  | _ => rfl

theorem exec_committed {e : Eff auth} {c : Choice auth} {a : e.Resp}
    (h : exec i e c w = some (.ok a, w')) (hstaged : w.store.staged i = l.staged)
    (hcommitted : committedBy w.store.log i = l.committed) :
    committedBy w'.store.log i = (l.answered e a).committed := by
  by_cases he : e = .db .commit
  · subst he
    obtain ⟨f, st, hst, rfl⟩ := exec_db h
    rcases StoreOp.exec_commit hst with ⟨x, -, hx, -⟩ | ⟨-, -, rfl⟩ | ⟨x, -, hx, -⟩
    · cases hx
    · show committedBy (w.store.log ++ [.commit i (w.store.staged i)]) i = _
      rw [committedBy_append, hcommitted, hstaged]
      simp [committedBy, LoginAccount.answered]
    · cases hx
  · have hsame : (l.answered e a).committed = l.committed := by
      cases e with
      | db o =>
        cases o with
        | lock k =>
          cases k with
          | record identity => rfl
          | biz k => cases k <;> rfl
        | insert k row => cases a <;> rfl
        | commit => exact absurd rfl he
        | _ => rfl
      | ext x => cases x <;> rfl
      | _ => rfl
    rw [hsame, ← hcommitted]
    rcases exec_log h with hlog | ⟨heq, -⟩
    · rw [hlog]
    · exact absurd heq he

theorem LoginAccount.Right.own {e : Eff auth} {c : Choice auth} {a : e.Resp}
    (h : l.Right i w trace) (hx : exec i e c w = some (.ok a, w')) :
    (l.answered e a).Right i w' (trace ++ [⟨i, e, .ok a⟩]) where
  staged := exec_staged hx h.staged
  committed := exec_committed hx h.staged h.committed
  steps := by
    have hone : loginSteps [⟨i, e, .ok a⟩] i = (loginStep e (.ok a)).toList :=
      loginSteps_singleton ⟨i, e, .ok a⟩
    rw [loginSteps_append, h.steps, hone, LoginAccount.answered_steps]

/-- Steps of others, and of the outside. -/
theorem LoginAccount.Right.others (h : l.Right i w trace) (ho : Others i w w')
    {trace' : List (Event (sig auth) Exn)} (hlog : committedBy w'.store.log i =
      committedBy w.store.log i) (hsteps : loginSteps trace' i = loginSteps trace i) :
    l.Right i w' trace' where
  staged := ho.keeps.staged.trans h.staged
  committed := hlog.trans h.committed
  steps := hsteps.trans h.steps

theorem committedBy_others {e : Eff auth} {c : Choice auth} {r : Except Exn e.Resp}
    (hx : exec j e c w = some (r, w')) (hij : i ≠ j) :
    committedBy w'.store.log i = committedBy w.store.log i := by
  rcases exec_log hx with hlog | ⟨-, hlog, -⟩
  · rw [hlog]
  · rw [hlog, committedBy_append]
    simp [committedBy, Ne.symm hij]

end Runs

section Reach

variable {users : List User} {clock : Time}
  {P : Config (sig auth) Exn (Traced (sig auth) Exn (World auth C)) AuthAnswer}

theorem logins_right (hr : (machine auth C).traced.Reach (fun _ _ => True)
    (AuthCallee.recorded C cfg users clock callees) P) :
    P.shared.state.store.Locked ∧ ∀ i p l, P.pool i = some p →
      loginFlow.after P.shared.trace i = .kept l → l.Right i P.shared.state P.shared.trace := by
  induction hr with
  | refl =>
    refine ⟨Store.locked_quiet _, fun i p l _ hl => ?_⟩
    cases hl
    exact ⟨rfl, rfl, rfl⟩
  | @tail P P' hr hs ih =>
    obtain ⟨hlocked, hright⟩ := ih
    obtain ⟨lab, hl, -⟩ := hs
    rcases Machine.traced_step_cases hl with ⟨j, c, e, k, r, w, -, hp, hx, rfl⟩ |
      ⟨v, w, -, hv, rfl⟩ | ⟨j, e, k, -, hp, rfl⟩
    · obtain ⟨hlocked', hothers⟩ := exec_others hlocked hx
      refine ⟨hlocked', fun i p l hpool hl => ?_⟩
      by_cases hij : i = j
      · subst hij
        have hnext : Tally.next (loginFlow.after P.shared.trace i) e r = .kept l :=
          (loginFlow.after_append_self P.shared.trace ⟨i, e, r⟩).symm.trans hl
        obtain ⟨l₀, a, hbefore, rfl, rfl⟩ := Tally.next_kept hnext
        exact (hright i _ l₀ hp hbefore).own hx
      · have hsame : loginFlow.after P.shared.trace i = .kept l :=
          (loginFlow.after_append_ne P.shared.trace (e := ⟨j, e, r⟩) hij).symm.trans hl
        have hpool : P.pool i = some p := (Function.update_of_ne hij _ _).symm.trans hpool
        refine (hright i p l hpool hsame).others (hothers i hij) (committedBy_others hx hij) ?_
        rw [loginSteps_append]
        simp [loginSteps, Ne.symm hij]
    · obtain ⟨hlocked', hothers⟩ := envStep_others hlocked hv
      refine ⟨hlocked', fun i p l hpool hl => ?_⟩
      refine (hright i p l hpool hl).others (hothers i) ?_ rfl
      rcases envStep_cases hv with ⟨d, rfl⟩ | ⟨identity, rfl⟩ | ⟨cutoff, ids, st, -, hst, rfl⟩
      · rfl
      · rfl
      · obtain ⟨-, rfl⟩ := Store.delete_cases hst
        exact (committedBy_append _ _ _).trans (by simp [committedBy])
    · refine ⟨hlocked.close, fun i p l hpool hl => ?_⟩
      by_cases hij : i = j
      · subst hij
        have hgone : (none : Option (App auth AuthAnswer)) = some p :=
          (Function.update_self i _ P.pool).symm.trans hpool
        cases hgone
      · have hpool : P.pool i = some p := (Function.update_of_ne hij _ _).symm.trans hpool
        have hothers : Others i P.shared.state ((machine auth C).kill j P.shared.state) :=
          ⟨Store.Keeps.close hij, rfl, rfl⟩
        exact (hright i p l hpool hl).others hothers rfl rfl

/-- What a login promises at its end. -/
def LoginAnswers (cfg : AuthConfig) (password : String) :
    Except Exn AuthAnswer → Tally → Prop :=
  Tallied (fun answer l => ∀ pair, answer = .pair pair → LoginEstablished cfg password pair l)
    (LoginRefused password)

theorem logins_kept (hr : (machine auth C).traced.Reach (fun _ _ => True)
    (AuthCallee.recorded C cfg users clock callees) P) :
    loginFlow.Kept (fun i r t => ∀ command, callees i = some (.login command) →
      LoginAnswers cfg command.password r t) P := by
  refine Flow.follows_reach (fun j p hp => ?_) hr
  obtain ⟨callee, hj, rfl⟩ := Option.map_eq_some_iff.mp hp
  by_cases hlogin : ∃ command, callee = .login command
  · obtain ⟨command, rfl⟩ := hlogin
    have hall : loginFlow.Follows ((loginExecute cfg command).bind fun pair =>
        .ret (AuthAnswer.pair pair)) (.kept .start) (LoginAnswers cfg command.password) := by
      refine tallied_bind (login_tallied command) fun pair l hl pair' heq => ?_
      cases heq
      exact hl
    refine Flow.Follows.mono hall fun r t ht command' hj' => ?_
    rw [hj] at hj'
    cases hj'
    exact ht
  · refine Flow.Follows.mono (loginFlow_free _ _) fun r t _ command hj' => ?_
    rw [hj] at hj'
    cases hj'
    exact absurd ⟨command, rfl⟩ hlogin

/-- A login that returned a pair, with its account. -/
theorem login_established (hr : (machine auth C).traced.Reach (fun _ _ => True)
    (AuthCallee.recorded C cfg users clock callees) P) {i : Nat} {command : LoginCommand}
    (hi : callees i = some (.login command)) {pair : TokenPair}
    (hp : P.pool i = some (.ret (.pair pair))) :
    ∃ l, l.Right i P.shared.state P.shared.trace ∧
      LoginEstablished cfg command.password pair l := by
  have hend := logins_kept hr i _ hp command hi
  cases htally : loginFlow.after P.shared.trace i with
  | kept l =>
    rw [htally] at hend
    exact ⟨l, (logins_right hr).2 i _ l hp htally, hend pair rfl⟩
  | _ =>
    rw [htally] at hend
    exact hend.elim

end Reach

namespace Sample

end Sample

end IdentityService
