import IdentityService.Auth.Named
import IdentityService.Auth.Runs
import IdentityService.Idempotency.GuardedRuns

/-!
# The requests on several replicas

Every request is made of units of work, so what is true of runs behind the
circuit breakers is true of logins, refreshes and logouts on any number of
replicas. In particular refresh-token families stay linear there.
-/

namespace IdentityService

open Concurrent

variable {C : ResultCodec} {cfg : AuthConfig} {callees : Nat → Option AuthCallee}

section Requests

theorem rests_draw (x : AuthExt) :
    (openFlow auth).Rests (fun opened => opened = false) (AuthOp.draw x).run :=
  fun _ hl => ⟨fun _ => hl, fun r => by cases r <;> exact hl⟩

theorem login_rests (command : LoginCommand) :
    (openFlow auth).Rests (fun opened => opened = false) (loginExecute cfg command) := by
  have hread := uow_closes (rests_operation (UserRepository.getByEmail command.email))
  refine hread.rests.bind fun candidate => ?_
  have hverify : ∀ hash, (openFlow auth).Rests (fun opened => opened = false)
      (verifyOrDummy command.password hash) := by
    intro hash
    cases hash with
    | none => exact (rests_draw _).bind fun _ => Flow.rests_ret _
    | some passwordHash => exact rests_draw _
  refine (hverify _).bind fun verified => ?_
  split
  · exact (uow_closes (rests_operation _)).rests
  · exact Flow.rests_throw _

theorem checkReplay_rests (tokenId : Uuid) :
    (openFlow auth).Rests (fun opened => opened = false) (checkReplay tokenId) := by
  refine (uow_closes ((rests_operation _).bind fun found => ?_)).rests
  cases found with
  | none => exact Flow.rests_throw _
  | some session =>
    have hclock : (openFlow auth).Rests (fun _ => True) (utcNow (B := auth)) := rests_cold rfl
    refine hclock.bind fun now => (Flow.rests_ofExcept (session.canReplay now)).bind fun ok => ?_
    cases ok with
    | true => exact Flow.rests_ret _
    | false => exact Flow.rests_throw _

theorem logout_rests (command : LogoutCommand) :
    (openFlow auth).Rests (fun opened => opened = false) (logoutExecute cfg command) := by
  obtain ⟨token⟩ := command
  cases token with
  | none => exact Flow.rests_ret _
  | some token =>
    refine (uow_closes ((rests_operation _).bind fun found => ?_)).rests
    cases found with
    | none => exact Flow.rests_ret _
    | some session =>
      have hclock : (openFlow auth).Rests (fun _ => True) (utcNow (B := auth)) := rests_cold rfl
      exact hclock.bind fun now =>
        (Flow.rests_ofExcept (session.revoke now)).bind fun _ => rests_operation _

theorem disable_rests (userId : Uuid) :
    (openFlow auth).Rests (fun opened => opened = false) (disableUser userId) := by
  refine (uow_closes ((rests_operation _).bind fun found => ?_)).rests
  cases found with
  | none => exact Flow.rests_ret _
  | some user =>
    have hclock : (openFlow auth).Rests (fun _ => True) (utcNow (B := auth)) := rests_cold rfl
    exact hclock.bind fun now =>
      (Flow.rests_ofExcept (user.disable now)).bind fun _ => rests_operation _

/-- **Every request is made of units of work.** -/
theorem request_rests (callee : AuthCallee) :
    (openFlow auth).Rests (fun opened => opened = false) (callee.program cfg) := by
  cases callee with
  | login command => exact (login_rests command).bind fun _ => Flow.rests_ret _
  | refresh hotStore command =>
    exact (refresh_rests checkReplay_rests (between_openFlow _) hotStore).bind
      fun _ => Flow.rests_ret _
  | logout command => exact (logout_rests command).bind fun _ => Flow.rests_ret _
  | disable userId => exact (disable_rests userId).bind fun _ => Flow.rests_ret _

end Requests

theorem auth_unitsOfWork (users : List User) (clock : Time) :
    UnitsOfWork (AuthCallee.start C cfg users clock callees) where
  locked := Store.locked_quiet _
  idle _ _ _ := ⟨rfl, fun _ h => (by cases h), rfl⟩
  rests i p hp := by
    obtain ⟨callee, -, rfl⟩ := Option.map_eq_some_iff.mp hp
    exact request_rests callee

/-- By their own accounts, no request waits for Valkey with a transaction
open, not even one that has locked nothing; and none has ended with one. -/
theorem hot_calls_closed (users : List User) (clock : Time)
    {R : Config (sig auth) Exn (Traced (sig auth) Exn (World auth C)) AuthAnswer}
    (hr : (machine auth C).traced.Reach (fun _ _ => True)
      (AuthCallee.recorded C cfg users clock callees) R) :
    (∀ i (e : Eff auth) k, R.pool i = some (.op e k) → e.isHot = true →
      (openFlow auth).after R.shared.trace i = false) ∧
      ∀ i r, R.pool i = some (.ofExcept r) → (openFlow auth).after R.shared.trace i = false := by
  have hunits : UnitsOfWork (AuthCallee.start C cfg users clock callees) :=
    auth_unitsOfWork users clock
  refine ⟨fun i e k hp he => hunits.hot_closed hr hp he, fun i r hp => ?_⟩
  exact hunits.ended_closed hr hp (by cases r <;> trivial)

/-- **No request waits for Valkey with a transaction open**, so with row
locks in its hands; and none that has ended leaves one open. -/
theorem hot_calls_outside (users : List User) (clock : Time)
    {P : Config (sig auth) Exn (World auth C) AuthAnswer}
    (hr : (machine auth C).Reach (fun _ _ => True) (AuthCallee.start C cfg users clock callees) P) :
    (∀ i (e : Eff auth) k, P.pool i = some (.op e k) → e.isHot = true → Idle i P.shared) ∧
      ∀ i r, P.pool i = some (.ofExcept r) → Idle i P.shared := by
  have hunits : UnitsOfWork (AuthCallee.start C cfg users clock callees) :=
    auth_unitsOfWork users clock
  refine ⟨fun i e k hp he => hunits.hot_outside hr hp he, fun i r hp => ?_⟩
  exact hunits.ended_idle hr hp (by cases r <;> trivial)

variable {T : Type} [LE T] [Zero T] [Sub T] [DecidableLE T] {breaker : BreakerConfig T}
  {replica : Nat → Nat}

/-- **Requests cannot tell that there are breakers.** Whatever the replicas,
their breakers and their deaths make of a run, it has the database, the cache
and the answers of a run without them. -/
theorem replicas_refine (users : List User) (clock : Time)
    {G : Config (guardedSig auth) Exn (GuardedWorld auth C T) AuthAnswer}
    (hr : (guardedMachine breaker replica auth C).Reach (fun _ _ => True)
      (guardedStart T (AuthCallee.start C cfg users clock callees)) G) :
    ∃ P, (machine auth C).Reach (fun _ _ => True) (AuthCallee.start C cfg users clock callees) P ∧
      P.shared = G.shared.world ∧
      ∀ i r, G.pool i = some (.ofExcept r) → P.pool i = some (.ofExcept r) :=
  guarded_refines (auth_unitsOfWork users clock) hr

/-- Families stay linear on any number of replicas. -/
theorem replicas_linear (users : List User) (clock : Time)
    {G : Config (guardedSig auth) Exn (GuardedWorld auth C T) AuthAnswer}
    (hr : (guardedMachine breaker replica auth C).Reach (fun _ _ => True)
      (guardedStart T (AuthCallee.start C cfg users clock callees)) G) :
    LinearFamilies G.shared.world := by
  obtain ⟨P, hP, hworld, -⟩ := guarded_refines (auth_unitsOfWork users clock) hr
  have hstart : (authRules cfg callees (fun _ _ : World auth C => True) False).spec.Good
      (Ended cfg callees fun _ => False) (AuthCallee.start C cfg users clock callees) :=
    auth_good (fun h => h.elim) (fun _ _ _ _ h => h.elim) users clock
  rw [← hworld]
  exact (hstart.reach closed_auth hP).inv.2.linear

namespace Sample

/-- A login on one replica; on another one a refresh that cannot reach
Valkey, and a retry of it. -/
def degraded : Nat → Option AuthCallee
  | 0 => some (.login ⟨"user@example.org", "password"⟩)
  | 1 => some (.refresh true ⟨"r1", digest 1⟩)
  | 2 => some (.refresh true ⟨"r1", digest 1⟩)
  | _ => none

/-- The login runs on one replica, the rest on the other. -/
def onReplica : Nat → Nat
  | 0 => 0
  | _ => 1

/-- The service on these replicas. -/
abbrev replicaMachine :=
  guardedMachine (T := Int) BreakerSystem.Sample.breakerConfig onReplica auth codec

/-- Choices of process `i`, none of them at a breaker. -/
def unguarded (i : Nat) (choices : List (Choice auth)) : List replicaMachine.Label :=
  choices.map fun c => .act i (.plain c)

/-- The failure trips the breaker, which then refuses the retry. -/
def tripping : List replicaMachine.Label :=
  unguarded 0 (going 3 ++ [issuing 0 ""] ++ going 2 ++
    [issuing 0 "", issuing 0 "r1", issuing 5 "", issuing 6 ""] ++ going 4) ++
  unguarded 1 [.token 8] ++ [.act 1 (.at 0)] ++ unguarded 1 [.fate unreachable] ++
  [.act 1 (.at 1)] ++
  unguarded 1 (going 8 ++ [issuing 0 "", issuing 0 "r2", issuing 7 ""] ++ going 6 ++
    [issuing 0 ""] ++ going 8) ++
  unguarded 2 [.token 9] ++ [.act 2 (.at 2)] ++ unguarded 2 (going 9)

/-- The retry got the answer of the refresh from the database. -/
structure Tripped (G : Config (guardedSig auth) Exn (GuardedWorld auth codec Int) AuthAnswer) :
    Prop where
  run : replicaMachine.run (fun _ _ => true)
    (guardedStart Int (AuthCallee.start codec authConfig [account] 5 degraded)) tripping = some G
  opened : (G.shared.breakers 1).breaker.state = .opened
  first : G.pool 1 = some (.ofExcept (.ok (.pair ⟨"access", "r2", "bearer"⟩)))
  retry : G.pool 2 = some (.ofExcept (.ok (.pair ⟨"access", "r2", "bearer"⟩)))

set_option maxRecDepth 4000 in
theorem exists_tripped : ∃ G, Tripped G := ⟨_, rfl, rfl, rfl, rfl⟩

/-- The refresh waits for Valkey, behind its breaker and without one. -/
structure Waiting (G : Config (guardedSig auth) Exn (GuardedWorld auth codec Int) AuthAnswer)
    (P : Config (sig auth) Exn (World auth codec) AuthAnswer) : Prop where
  guarded : replicaMachine.run (fun _ _ => true)
    (guardedStart Int (AuthCallee.start codec authConfig [account] 5 degraded))
    (unguarded 1 [.token 8] ++ [.act 1 (.at 0)]) = some G
  waits : WaitsForValkey G 1
  plain : (machine auth codec).run (fun _ _ => true)
    (AuthCallee.start codec authConfig [account] 5 degraded) [.act 1 (.token 8)] = some P
  hot : ∃ (e : Eff auth) (k : Except Exn e.Resp → App auth AuthAnswer),
    P.pool 1 = some (.op e k) ∧ e.isHot = true

theorem exists_waiting : ∃ G P, Waiting G P :=
  ⟨_, _, rfl, ⟨_, _, rfl, rfl⟩, rfl, _, _, rfl, rfl⟩

end Sample

theorem hot_calls_admitted_waiting : ∃ G P, Sample.Waiting G P ∧
    ∃ call, Attended BreakerSystem.Sample.breakerConfig Sample.onReplica G call ∧
      ∃ a, (G.shared.breakers 1).calls (call 1) = .inFlight a := by
  obtain ⟨G, P, h⟩ := Sample.exists_waiting
  obtain ⟨call, hcall⟩ :=
    hot_calls_admitted (Machine.reach_of_run _ (fun _ _ _ => trivial) _ _ _ h.guarded)
  exact ⟨G, P, h, call, hcall, hcall.inFlight 1 h.waits⟩

theorem hot_calls_outside_waiting : ∃ G P, Sample.Waiting G P ∧ Idle 1 P.shared := by
  obtain ⟨G, P, h⟩ := Sample.exists_waiting
  obtain ⟨e, k, hp, he⟩ := h.hot
  exact ⟨G, P, h, (hot_calls_outside [Sample.account] 5
    (Machine.reach_of_run _ (fun _ _ _ => trivial) _ _ _ h.plain)).1 1 e k hp he⟩

theorem replicas_refine_tripped : ∃ G, Sample.Tripped G ∧
    ∃ P, (machine auth Sample.codec).Reach (fun _ _ => True)
      (AuthCallee.start Sample.codec Sample.authConfig [Sample.account] 5 Sample.degraded) P ∧
      P.shared = G.shared.world ∧ P.pool 2 = some (.ofExcept (.ok
        (.pair ⟨"access", "r2", "bearer"⟩))) := by
  obtain ⟨G, h⟩ := Sample.exists_tripped
  obtain ⟨P, hP, hworld, hanswers⟩ := replicas_refine [Sample.account] 5
    (Machine.reach_of_run _ (fun _ _ _ => trivial) _ _ _ h.run)
  exact ⟨G, h, P, hP, hworld, hanswers 2 _ h.retry⟩

end IdentityService
