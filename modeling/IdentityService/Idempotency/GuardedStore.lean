import IdentityService.Concurrent.Implementation
import IdentityService.Idempotency.Coordinator
import IdentityService.Resilience.CircuitBreaker

/-!
# The hot store behind its circuit breaker

`CircuitBreakingHotStore` puts `CircuitBreaker.call` in front of every call
of the hot store, and turns a `CircuitBreakerError` into
`IdempotencyStorageUnavailableError`. Each replica of the service has one
breaker, in its memory, for all its requests; database and Valkey are shared.

A call is three effects here: the breaker's first lock section, the call of
the inner store, and the second lock section. The heartbeat's renewals go
through the same breaker. They change only the time to live of an entry, so
they are steps of the outside which the breaker notices.

`is_failure` is the default, which counts every `Exception`. A replica dies
as a whole: its processes take no more steps, and its breaker is gone.
-/

namespace IdentityService

open Concurrent

/-- The awaits of application code whose hot store is guarded. -/
inductive GuardedEff (B : Business) where
  | plain (e : Eff B)
  | enter
  | settle (call : Nat) (ending : Ending)

/-- `enter` answers with the name of the call, and with what the breaker
said. -/
@[reducible] def GuardedEff.Resp {B : Business} : GuardedEff B → Type
  | .plain e => e.Resp
  | .enter => Nat × Except Refusal Admission
  | .settle _ _ => Unit

def guardedSig (B : Business) : Sig := ⟨GuardedEff B, GuardedEff.Resp⟩

/-- A program of a service with breakers. -/
abbrev GuardedApp (B : Business) (α : Type) := Prog (guardedSig B) Exn α

variable {B : Business} {C : ResultCodec}

/-! ## Programs -/

/-- Await one effect. -/
def awaitGuarded (e : GuardedEff B) : GuardedApp B e.Resp := Prog.perform (S := guardedSig B) e

/-- How the protected function ended, if it raised. -/
def Ending.ofError (error : Exn) : Ending :=
  if error.isException then .failure else .cancelled

/-- `CircuitBreaker.call`; a refusal stands for the `CircuitBreakerError`
that is raised. -/
def breakerCall {α : Type} (func : GuardedApp B α) : GuardedApp B (Except Refusal α) := do
  let (call, admitted) ← awaitGuarded .enter
  match admitted with
  | .error refusal => return .error refusal
  | .ok _ =>
    match ← func.outcome with
    | .ok result =>
      awaitGuarded (.settle call .success)
      return .ok result
    | .error error =>
      awaitGuarded (.settle call (.ofError error))
      throw error

/-- What every method of `CircuitBreakingHotStore` does with the method of
the inner store. -/
def unlessOpen {α : Type} (inner : GuardedApp B α) : GuardedApp B α := do
  match ← breakerCall inner with
  | .ok result => return result
  | .error _ => throw .idempotencyStorageUnavailable

namespace CircuitBreakingHotStore

/-- `CircuitBreakingHotStore.begin`. -/
def begin (identity : IdempotencyIdentity) (requestHash : Digest) (ownerToken : Uuid) :
    GuardedApp B BeginResult :=
  unlessOpen (awaitGuarded (.plain (.hotBegin identity requestHash ownerToken)))

/-- `CircuitBreakingHotStore.complete`. -/
def complete (identity : IdempotencyIdentity) (ownerToken : Uuid)
    (result : CompletedIdempotencyResult) : GuardedApp B Bool :=
  unlessOpen (awaitGuarded (.plain (.hotComplete identity ownerToken result)))

/-- `CircuitBreakingHotStore.abandon`. -/
def abandon (identity : IdempotencyIdentity) (ownerToken : Uuid) : GuardedApp B Bool :=
  unlessOpen (awaitGuarded (.plain (.hotAbandon identity ownerToken)))

end CircuitBreakingHotStore

/-- The wiring: calls of the hot store are those of the guarded one. -/
def behindBreaker : (e : Eff B) → GuardedApp B e.Resp
  | .hotBegin identity requestHash ownerToken =>
    CircuitBreakingHotStore.begin identity requestHash ownerToken
  | .hotComplete identity ownerToken result =>
    CircuitBreakingHotStore.complete identity ownerToken result
  | .hotAbandon identity ownerToken => CircuitBreakingHotStore.abandon identity ownerToken
  | e => awaitGuarded (.plain e)

/-! ## The machine -/

variable {T : Type}

/-- `calls` counts the calls that have come to a breaker, which names them;
`renewals` says which of them are renewals, and at which replica; `down` are
the replicas that have died. -/
structure GuardedWorld (B : Business) (C : ResultCodec) (T : Type) where
  world : World B C
  breakers : Nat → BreakerSystem T
  calls : Nat
  renewals : Nat → Option Nat
  down : Nat → Bool

/-- `now` is what the replica's `time.monotonic()` shows. -/
inductive GuardedChoice (B : Business) (T : Type) where
  | plain (c : Choice B)
  | at (now : T)

/-- The outside of the plain system, and the renewals of the heartbeats. -/
inductive GuardedEnv (T : Type) where
  | plain (v : EnvStep)
  | renew (replica : Nat) (now : T)
  | renewed (call : Nat) (ending : Ending) (now : T)

variable [LE T] [Zero T] [Sub T] [DecidableLE T] (cfg : BreakerConfig T) (replica : Nat → Nat)

namespace GuardedWorld

/-- One lock section at the breaker of replica `h`. -/
def lockSection (w : GuardedWorld B C T) (h : Nat) (section' : BreakerStep T) :
    Option (GuardedWorld B C T) :=
  ((w.breakers h).step cfg section').map fun s =>
    { w with breakers := Function.update w.breakers h s }

/-- The effects on a replica, as long as it is up. -/
def exec (i : Nat) : (e : GuardedEff B) → GuardedChoice B T → GuardedWorld B C T →
    Option (Except Exn e.Resp × GuardedWorld B C T)
  | .plain e, .plain c, w =>
    if w.down (replica i) then none
    else (IdentityService.exec i e c w.world).map fun out => (out.1, { w with world := out.2 })
  | .enter, .at now, w =>
    if w.down (replica i) then none
    else
      (w.lockSection cfg (replica i) (.enter w.calls now)).map fun w' =>
        (.ok (w.calls, ((w.breakers (replica i)).breaker.enter cfg now w.calls).1),
          { w' with calls := w.calls + 1 })
  | .settle call ending, .at now, w =>
    if w.down (replica i) then none
    else (w.lockSection cfg (replica i) (.leave call ending now)).map fun w' => (.ok (), w')
  | _, _, _ => none

/-- What happens besides: heartbeats renew through the breaker, replicas go
down. -/
def envStep : GuardedEnv T → GuardedWorld B C T → Option (GuardedWorld B C T)
  | .plain v, w => (IdentityService.envStep v w.world).map fun world => { w with world := world }
  | .renew h now, w =>
    if w.down h then none
    else
      (w.lockSection cfg h (.enter w.calls now)).map fun w' =>
        { w' with calls := w.calls + 1, renewals := Function.update w.renewals w.calls (some h) }
  | .renewed call ending now, w =>
    match w.renewals call with
    | some h =>
      if w.down h then none
      else
        (w.lockSection cfg h (.leave call ending now)).map fun w' =>
          { w' with renewals := Function.update w.renewals call none }
    | none => none

end GuardedWorld

/-- The machine of the wired service. -/
def guardedMachine (B : Business) (C : ResultCodec) :
    Machine (guardedSig B) Exn (GuardedWorld B C T) where
  Choice := GuardedChoice B T
  Env := GuardedEnv T
  exec := GuardedWorld.exec cfg replica
  env := GuardedWorld.envStep cfg
  kill i w :=
    { w with
      world := (machine B C).kill i w.world
      down := Function.update w.down (replica i) true }

/-! ## What the effects do -/

section Exec

variable {cfg : BreakerConfig T} {replica : Nat → Nat} {i : Nat} {c : GuardedChoice B T}
  {w w' : GuardedWorld B C T}

theorem lockSection_cases {h : Nat} {section' : BreakerStep T}
    (hx : w.lockSection cfg h section' = some w') :
    ∃ s, (w.breakers h).step cfg section' = some s ∧
      w' = { w with breakers := Function.update w.breakers h s } := by
  obtain ⟨s, hs, rfl⟩ := Option.map_eq_some_iff.mp hx
  exact ⟨s, hs, rfl⟩

theorem exec_plain {e : Eff B} {r : Except Exn e.Resp}
    (hx : GuardedWorld.exec cfg replica i (.plain e) c w = some (r, w')) :
    w.down (replica i) = false ∧ ∃ c' world,
      IdentityService.exec i e c' w.world = some (r, world) ∧ w' = { w with world := world } := by
  cases c with
  | «at» now => cases hx
  | plain c =>
    simp only [GuardedWorld.exec] at hx
    split at hx
    · cases hx
    · rename_i hup
      obtain ⟨⟨r', world⟩, hexec, heq⟩ := Option.map_eq_some_iff.mp hx
      cases heq
      exact ⟨by simpa using hup, c, world, hexec, rfl⟩

theorem exec_enter {r : Except Exn (GuardedEff.Resp (.enter : GuardedEff B))}
    (hx : GuardedWorld.exec cfg replica i .enter c w = some (r, w')) :
    w.down (replica i) = false ∧ ∃ now s,
      (w.breakers (replica i)).step cfg (.enter w.calls now) = some s ∧
      r = .ok (w.calls, ((w.breakers (replica i)).breaker.enter cfg now w.calls).1) ∧
      w' = { w with
        breakers := Function.update w.breakers (replica i) s
        calls := w.calls + 1 } := by
  cases c with
  | plain c => cases hx
  | «at» now =>
    simp only [GuardedWorld.exec] at hx
    split at hx
    · cases hx
    · rename_i hup
      obtain ⟨w₁, hlock, heq⟩ := Option.map_eq_some_iff.mp hx
      obtain ⟨s, hs, rfl⟩ := lockSection_cases hlock
      cases heq
      exact ⟨by simpa using hup, now, s, hs, rfl, rfl⟩

theorem exec_settle {call : Nat} {ending : Ending}
    {r : Except Exn (GuardedEff.Resp (.settle call ending : GuardedEff B))}
    (hx : GuardedWorld.exec cfg replica i (.settle call ending) c w = some (r, w')) :
    w.down (replica i) = false ∧ ∃ now s,
      (w.breakers (replica i)).step cfg (.leave call ending now) = some s ∧ r = .ok () ∧
      w' = { w with breakers := Function.update w.breakers (replica i) s } := by
  cases c with
  | plain c => cases hx
  | «at» now =>
    simp only [GuardedWorld.exec] at hx
    split at hx
    · cases hx
    · rename_i hup
      obtain ⟨w₁, hlock, heq⟩ := Option.map_eq_some_iff.mp hx
      obtain ⟨s, hs, rfl⟩ := lockSection_cases hlock
      cases heq
      exact ⟨by simpa using hup, now, s, hs, rfl, rfl⟩

/-- Only the plain steps of the outside change the world. -/
theorem guarded_envStep_world {v : GuardedEnv T}
    (hx : GuardedWorld.envStep cfg v w = some w') :
    w'.world = w.world ∨ ∃ v', IdentityService.envStep v' w.world = some w'.world := by
  cases v with
  | plain v =>
    obtain ⟨world, hv, rfl⟩ := Option.map_eq_some_iff.mp hx
    exact .inr ⟨v, hv⟩
  | renew h now =>
    simp only [GuardedWorld.envStep] at hx
    split at hx
    · cases hx
    · obtain ⟨w₁, hlock, rfl⟩ := Option.map_eq_some_iff.mp hx
      obtain ⟨s, -, rfl⟩ := lockSection_cases hlock
      exact .inl rfl
  | renewed call ending now =>
    simp only [GuardedWorld.envStep] at hx
    split at hx
    · split at hx
      · cases hx
      · obtain ⟨w₁, hlock, rfl⟩ := Option.map_eq_some_iff.mp hx
        obtain ⟨s, -, rfl⟩ := lockSection_cases hlock
        exact .inl rfl
    · cases hx

end Exec

/-! ## The guard adds nothing -/

section Refines

variable {cfg : BreakerConfig T} {replica : Nat → Nat}

theorem plain_toCome (e : Eff B) :
    ToCome (machine B C) (guardedMachine cfg replica B C) GuardedWorld.world e
      (awaitGuarded (.plain e)).outcome := by
  intro i c w r w' hx
  obtain ⟨-, c', world, hexec, rfl⟩ := exec_plain hx
  refine .inr ⟨r, c', hexec, ?_⟩
  cases r <;> rfl

/-- The store cannot be reached. -/
def unreachable : Fate Fault := .fault ⟨.idempotencyStorageUnavailable, by decide⟩

theorem hotCall_unreachable {α : Type} {i : Nat} {w : World B C} (identity : IdempotencyIdentity)
    (out : Except Exn α × Option (HotHash C.Blob)) :
    hotCall i w identity unreachable out = some (.error .idempotencyStorageUnavailable, w) := by
  simp [hotCall, unreachable, World.interrupt]

/-- A refusal is for the caller what an unreachable store is, and otherwise
the inner call is made. -/
theorem unlessOpen_toCome {e : Eff B}
    (hfails : ∀ i (w : World B C), ∃ c,
      exec i e c w = some (.error .idempotencyStorageUnavailable, w)) :
    ToCome (machine B C) (guardedMachine cfg replica B C) GuardedWorld.world e
      (unlessOpen (awaitGuarded (.plain e))).outcome := by
  -- the second lock section lets the answer through
  have hsettle : ∀ (call : Nat) (ending : Ending) (r : Except Exn e.Resp)
      (k : Except Exn Unit → Prog (guardedSig B) Exn (Except Exn e.Resp)), k (.ok ()) = .ret r →
      Silent (guardedMachine cfg replica B C) GuardedWorld.world r
        (.op (.settle call ending) k) := by
    intro call ending r k hk i c w r' w' hx
    obtain ⟨-, now, s, -, rfl, rfl⟩ := exec_settle hx
    refine ⟨rfl, ?_⟩
    show Silent _ _ r (k (.ok ()))
    rw [hk]
    rfl
  intro i c w r w' hx
  obtain ⟨-, now, s, -, rfl, rfl⟩ := exec_enter hx
  generalize ((w.breakers (replica i)).breaker.enter cfg now w.calls).1 = answer
  cases answer with
  | error refusal =>
    obtain ⟨c', hc'⟩ := hfails i w.world
    exact .inr ⟨_, c', hc', rfl⟩
  | ok admission =>
    refine .inl ⟨rfl, fun i c w r w' hx => ?_⟩
    obtain ⟨-, c', world, hexec, rfl⟩ := exec_plain hx
    refine .inr ⟨r, c', hexec, ?_⟩
    cases r with
    | ok a => exact hsettle _ .success (.ok a) _ rfl
    | error x => exact hsettle _ (.ofError x) (.error x) _ rfl

/-- **The guarded store implements the plain one.** -/
theorem guarded_implements :
    Implements (machine B C) (guardedMachine cfg replica B C) GuardedWorld.world behindBreaker where
  op e := by
    cases e with
    | hotBegin identity requestHash ownerToken =>
      exact unlessOpen_toCome fun i w =>
        ⟨.fate unreachable, by simp only [exec, hotCall_unreachable]⟩
    | hotComplete identity ownerToken result =>
      exact unlessOpen_toCome fun i w =>
        ⟨.fate unreachable, by simp only [exec, hotCall_unreachable]⟩
    | hotAbandon identity ownerToken =>
      exact unlessOpen_toCome fun i w =>
        ⟨.fate unreachable, by simp only [exec, hotCall_unreachable]⟩
    | _ => exact plain_toCome _
  env v w w' hv := guarded_envStep_world hv
  kill i w := rfl

end Refines

end IdentityService
