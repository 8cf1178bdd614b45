import IdentityService.Idempotency.GuardedStore
import IdentityService.Idempotency.OpenTransactions

/-!
# Runs behind the circuit breakers

Two facts about any number of requests on any number of replicas. The
breakers are invisible to the requests: a run of the wired service is a run
of the service without them in which Valkey is unreachable now and then
(`guarded_refines`). And they see every call: nobody waits for Valkey without
an admission of his own at the breaker of his replica (`hot_calls_admitted`).
-/

namespace IdentityService

open Concurrent

variable {B : Business} {C : ResultCodec} {T α : Type}

/-! ## Seen from the requests -/

theorem Idle.kill {i : Nat} {w : World B C} (h : Idle i w) : (machine B C).kill i w = w := by
  have hholder : (fun k => if w.store.holder k = some i then none else w.store.holder k) =
      w.store.holder := by
    funext k
    rw [if_neg (h.holder k)]
  have hclose : w.store.close i = w.store := by
    simp only [Store.close]
    rw [hholder, ← h.staged, ← h.seen, Function.update_eq_self, Function.update_eq_self]
  show { w with store := w.store.close i } = w
  rw [hclose]

theorem UnitsOfWork.leavesNothing {P₀ : Config (sig B) Exn (World B C) α} (h : UnitsOfWork P₀) :
    LeavesNothing (machine B C) P₀ :=
  fun _ hr _ _ hp hended => (h.ended_idle hr hp hended).kill

/-- The replicas have just come up. -/
def guardedStart (T : Type) (P₀ : Config (sig B) Exn (World B C) α) :
    Config (guardedSig B) Exn (GuardedWorld B C T) α :=
  ⟨⟨P₀.shared, fun _ => .start, 0, fun _ => none, fun _ => false⟩,
    fun i => (P₀.pool i).map (Prog.within behindBreaker)⟩

variable [LE T] [Zero T] [Sub T] [DecidableLE T] {cfg : BreakerConfig T} {replica : Nat → Nat}

theorem guardedStart_agrees (P₀ : Config (sig B) Exn (World B C) α) :
    Agrees (machine B C) (guardedMachine cfg replica B C) GuardedWorld.world behindBreaker
      (guardedStart T P₀) P₀ := by
  refine ⟨rfl, fun i => ?_⟩
  simp only [guardedStart]
  cases P₀.pool i with
  | none => exact .absent
  | some p => exact .between p

/-- **The breakers are invisible.** Every run of the wired service has the
database, the cache and the answers of a run without breakers, however many
replicas there are and whichever of them die. -/
theorem guarded_refines {P₀ : Config (sig B) Exn (World B C) α} (h : UnitsOfWork P₀)
    {G : Config (guardedSig B) Exn (GuardedWorld B C T) α}
    (hr : (guardedMachine cfg replica B C).Reach (fun _ _ => True) (guardedStart T P₀) G) :
    ∃ P, (machine B C).Reach (fun _ _ => True) P₀ P ∧ P.shared = G.shared.world ∧
      ∀ i r, G.pool i = some (.ofExcept r) → P.pool i = some (.ofExcept r) := by
  obtain ⟨P, hP, hagree⟩ :=
    guarded_implements.reach h.leavesNothing (guardedStart_agrees P₀) hr
  exact ⟨P, hP, hagree.shared, fun i r hp => hagree.result guarded_implements hp⟩

/-! ## Seen from the breakers -/

/-- The call a process has in flight after an answer. -/
def callNext (call : Option Nat) : (e : GuardedEff B) → Except Exn e.Resp → Option Nat
  | .enter, .ok (call, .ok _) => some call
  | .settle _ _, _ => none
  | _, _ => call

/-- The inner store is called only by a call in flight, which then leaves
the breaker before the next one comes. -/
def CallPermits (call : Option Nat) : GuardedEff B → Prop
  | .plain e => e.isHot = true → call.isSome = true
  | .enter => call = none
  | .settle n _ => call = some n

/-- The call of the breaker that a process is in. -/
def breakerFlow (B : Business) : Flow (guardedSig B) Exn where
  State := Option Nat
  start := none
  permits := CallPermits
  next := callNext

section Programs

theorem rests_unlessOpen (e : Eff B) :
    (breakerFlow B).Rests (fun call => call = none) (unlessOpen (awaitGuarded (.plain e))) := by
  have hsettle : ∀ n ending, (breakerFlow B).Follows (awaitGuarded (.settle n ending)) (some n)
      fun _ l => l = none := fun n ending => Flow.Follows.perform rfl fun _ => rfl
  have hinner : ∀ n, (breakerFlow B).Follows (awaitGuarded (.plain e)) (some n)
      fun _ l => l = some n := fun n => Flow.Follows.perform (fun _ => rfl) fun _ => rfl
  have hcall : (breakerFlow B).Rests (fun call => call = none)
      (breakerCall (awaitGuarded (.plain e))) := by
    intro l hl
    subst hl
    have henter : (breakerFlow B).Follows (awaitGuarded .enter) none fun r l =>
        l = callNext none .enter r := Flow.Follows.perform rfl fun _ => rfl
    refine henter.bind (fun answer l hl => ?_) fun x l hl => hl
    subst hl
    obtain ⟨n, admitted⟩ := answer
    cases admitted with
    | error refusal => exact rfl
    | ok admission =>
      refine (hinner n).attempt fun r l hl => ?_
      subst hl
      cases r with
      | ok result => exact (hsettle n .success).bind (fun _ _ h => h) fun _ _ h => h
      | error error => exact (hsettle n _).bind (fun _ _ h => h) fun _ _ h => h
  refine hcall.bind fun r => ?_
  cases r with
  | ok result => exact Flow.rests_ret _
  | error refusal => exact Flow.rests_throw _

theorem rests_guarded (e : Eff B) :
    (breakerFlow B).Rests (fun call => call = none) (behindBreaker e) := by
  have hplain : ∀ e : Eff B, e.isHot = false →
      (breakerFlow B).Rests (fun call => call = none) (awaitGuarded (.plain e)) := by
    refine fun e he => Flow.rests_perform fun l hl => ⟨fun hhot => ?_, fun r => hl⟩
    rw [he] at hhot
    cases hhot
  cases e with
  | hotBegin identity requestHash ownerToken => exact rests_unlessOpen _
  | hotComplete identity ownerToken result => exact rests_unlessOpen _
  | hotAbandon identity ownerToken => exact rests_unlessOpen _
  | _ => exact hplain _ rfl

theorem rests_within (p : App B α) :
    (breakerFlow B).Rests (fun call => call = none) (p.within behindBreaker) := by
  induction p with
  | ret a => exact Flow.rests_ret a
  | throw x => exact Flow.rests_throw x
  | op e k ih => exact (rests_guarded e).attempt ih

end Programs

/-! ### The breakers and their calls -/

section Guarding

variable {w : GuardedWorld B C T} {own : Nat → Option Nat} {i n : Nat} {now : T}
  {s : BreakerSystem T}

/-- Calls are named apart, whether they are a process's or a renewal's, and
each process has the call it thinks it has. -/
structure Guarding (cfg : BreakerConfig T) (replica : Nat → Nat) (w : GuardedWorld B C T)
    (own : Nat → Option Nat) : Prop where
  sound : ∀ h, (w.breakers h).Sound cfg
  fresh : ∀ h n, w.calls ≤ n → (w.breakers h).calls n = .waiting
  renewals : ∀ n h, w.renewals n = some h → n < w.calls
  mine : ∀ i n, own i = some n → n < w.calls ∧ w.renewals n = none ∧
    ∃ a, (w.breakers (replica i)).calls n = .inFlight a
  apart : ∀ i j n, own i = some n → own j = some n → i = j

omit [Sub T] [DecidableLE T] in
/-- Nobody has more calls than before, but for `i`, who may have `n`. -/
theorem Guarding.reown (h : Guarding cfg replica w own) {own' : Nat → Option Nat}
    (hown : ∀ j m, own' j = some m → own j = some m ∨
      (j = i ∧ m = n ∧ n < w.calls ∧ w.renewals n = none ∧ (∀ k, own k ≠ some n) ∧
        ∃ a, (w.breakers (replica i)).calls n = .inFlight a)) :
    Guarding cfg replica w own' where
  sound := h.sound
  fresh := h.fresh
  renewals := h.renewals
  mine j m hj := by
    rcases hown j m hj with hj | ⟨rfl, rfl, hlt, hnone, -, ha⟩
    · exact h.mine j m hj
    · exact ⟨hlt, hnone, ha⟩
  apart j k m hj hk := by
    rcases hown j m hj with hj | ⟨rfl, rfl, -, -, hnobody, -⟩
    · rcases hown k m hk with hk | ⟨rfl, rfl, -, -, hnobody, -⟩
      · exact h.apart j k m hj hk
      · exact absurd hj (hnobody j)
    · rcases hown k m hk with hk | ⟨rfl, -⟩
      · exact absurd hk (hnobody k)
      · rfl

/-- The lock section of one call leaves the others alone. -/
theorem step_calls {step : BreakerStep T} {s₀ : BreakerSystem T}
    (hstep : s₀.step cfg step = some s)
    (hn : step = .enter n now ∨ ∃ ending, step = .leave n ending now) {m : Nat} (hm : m ≠ n) :
    s.calls m = s₀.calls m := by
  rcases BreakerSystem.step_cases hstep with ⟨k, now', answer, rfl, -, -, hcalls⟩ |
    ⟨k, ending', now', a, rfl, -, -, hcalls⟩
  · rcases hn with heq | ⟨ending, heq⟩
    · cases heq
      rw [hcalls, Function.update_of_ne hm]
    · cases heq
  · rcases hn with heq | ⟨ending, heq⟩
    · cases heq
    · cases heq
      rw [hcalls, Function.update_of_ne hm]

theorem step_enter_calls {s₀ : BreakerSystem T}
    (hstep : s₀.step cfg (.enter n now) = some s) :
    s.calls n = .ofAnswer (s₀.breaker.enter cfg now n).1 := by
  cases hcall : s₀.calls n with
  | waiting =>
    simp only [BreakerSystem.step, hcall, Option.some.injEq] at hstep
    subst hstep
    exact Function.update_self _ _ _
  | _ => simp [BreakerSystem.step, hcall] at hstep

/-- A call that comes, at replica `h`, gets a name of its own. -/
theorem Guarding.enter (hg : Guarding cfg replica w own) {h : Nat}
    (hstep : (w.breakers h).step cfg (.enter w.calls now) = some s)
    (renewals : Nat → Option Nat) (hrenewals : ∀ n, n ≠ w.calls → renewals n = w.renewals n) :
    Guarding cfg replica { w with
      breakers := Function.update w.breakers h s
      calls := w.calls + 1
      renewals := renewals } own where
  sound h' := by
    by_cases hh : h' = h
    · subst hh
      simp only [Function.update_self]
      exact (hg.sound h').step hstep
    · simp only [Function.update_of_ne hh]
      exact hg.sound h'
  fresh h' n hn := by
    have hn : w.calls + 1 ≤ n := hn
    by_cases hh : h' = h
    · subst hh
      simp only [Function.update_self]
      rw [step_calls hstep (.inl rfl) (by omega)]
      exact hg.fresh h' n (by omega)
    · simp only [Function.update_of_ne hh]
      exact hg.fresh h' n (by omega)
  renewals n h' hn := by
    have hn : renewals n = some h' := hn
    show n < w.calls + 1
    by_cases hc : n = w.calls
    · omega
    · rw [hrenewals n hc] at hn
      have hlt := hg.renewals n h' hn
      omega
  mine i n hi := by
    obtain ⟨hlt, hnone, a, ha⟩ := hg.mine i n hi
    refine ⟨Nat.lt_succ_of_lt hlt, (hrenewals n (by omega)).trans hnone, a, ?_⟩
    by_cases hh : replica i = h
    · simp only [hh, Function.update_self]
      rw [step_calls hstep (.inl rfl) (by omega), ← hh]
      exact ha
    · simp only [Function.update_of_ne hh]
      exact ha
  apart := hg.apart

/-- A call that leaves, at replica `h`, was nobody else's. -/
theorem Guarding.leave (hg : Guarding cfg replica w own) {h : Nat} {ending : Ending}
    (hstep : (w.breakers h).step cfg (.leave n ending now) = some s)
    (hnobody : ∀ i, own i ≠ some n) (renewals : Nat → Option Nat)
    (hrenewals : ∀ m h, renewals m = some h → w.renewals m = some h) :
    Guarding cfg replica { w with
      breakers := Function.update w.breakers h s
      renewals := renewals } own where
  sound h' := by
    by_cases hh : h' = h
    · subst hh
      simp only [Function.update_self]
      exact (hg.sound h').step hstep
    · simp only [Function.update_of_ne hh]
      exact hg.sound h'
  fresh h' m hm := by
    have hm : w.calls ≤ m := hm
    by_cases hh : h' = h
    · subst hh
      simp only [Function.update_self]
      have hne : m ≠ n := by
        rintro rfl
        have hwaiting := hg.fresh h' m hm
        simp [BreakerSystem.step, hwaiting] at hstep
      rw [step_calls hstep (.inr ⟨ending, rfl⟩) hne]
      exact hg.fresh h' m hm
    · simp only [Function.update_of_ne hh]
      exact hg.fresh h' m hm
  renewals m h' hm := hg.renewals m h' (hrenewals m h' hm)
  mine i m hi := by
    obtain ⟨hlt, hnone, a, ha⟩ := hg.mine i m hi
    refine ⟨hlt, ?_, a, ?_⟩
    · cases hr : renewals m with
      | none => exact hr
      | some h' =>
        have hsome := hrenewals m h' hr
        rw [hnone] at hsome
        cases hsome
    · have hne : m ≠ n := by
        rintro rfl
        exact hnobody i hi
      by_cases hh : replica i = h
      · simp only [hh, Function.update_self]
        rw [step_calls hstep (.inr ⟨ending, rfl⟩) hne, ← hh]
        exact ha
      · simp only [Function.update_of_ne hh]
        exact ha
  apart := hg.apart

/-- The calls that the processes of a recorded run think they have. -/
def ownCalls (G : Config (guardedSig B) Exn (Traced (guardedSig B) Exn (GuardedWorld B C T)) α)
    (i : Nat) : Option Nat :=
  (G.pool i).bind fun _ => (breakerFlow B).after G.shared.trace i

variable
  {G G' : Config (guardedSig B) Exn (Traced (guardedSig B) Exn (GuardedWorld B C T)) α}

theorem Guarding.act {e : GuardedEff B} {k : Except Exn e.Resp → GuardedApp B α}
    (hg : Guarding cfg replica G.shared.state (ownCalls G)) (hp : G.pool i = some (.op e k))
    (hpermits : CallPermits ((breakerFlow B).after G.shared.trace i) e) {c : GuardedChoice B T}
    {r : Except Exn e.Resp} {w' : GuardedWorld B C T}
    (hx : GuardedWorld.exec cfg replica i e c G.shared.state = some (r, w'))
    {own' : Nat → Option Nat} (hothers : ∀ j, j ≠ i → own' j = ownCalls G j)
    (hself : own' i = callNext ((breakerFlow B).after G.shared.trace i) e r) :
    Guarding cfg replica w' own' := by
  have hi : ownCalls G i = (breakerFlow B).after G.shared.trace i := by
    rw [ownCalls, hp]
    rfl
  -- those who keep what they had
  have hkeep : own' i = ownCalls G i → ∀ j m, own' j = some m → ownCalls G j = some m := by
    intro hsame j m hj
    by_cases hji : j = i
    · subst hji
      exact hsame ▸ hj
    · exact hothers j hji ▸ hj
  cases e with
  | plain e =>
    obtain ⟨-, c', world, -, rfl⟩ := exec_plain hx
    have hsame : own' i = ownCalls G i := hself.trans hi.symm
    have hworld : Guarding cfg replica { G.shared.state with world := world } (ownCalls G) :=
      ⟨hg.sound, hg.fresh, hg.renewals, hg.mine, hg.apart⟩
    exact Guarding.reown (i := i) (n := 0) hworld fun j m hj => .inl (hkeep hsame j m hj)
  | enter =>
    obtain ⟨-, now, s, hs, rfl, rfl⟩ := exec_enter hx
    have hentered := hg.enter hs G.shared.state.renewals fun _ _ => rfl
    refine Guarding.reown (i := i) (n := G.shared.state.calls) hentered fun j m hj => ?_
    by_cases hji : j = i
    · subst hji
      rw [hself] at hj
      cases hanswer : ((G.shared.state.breakers (replica j)).breaker.enter cfg now
          G.shared.state.calls).1 with
      | error refusal =>
        rw [hanswer] at hj
        have hnone : (breakerFlow B).after G.shared.trace j = some m := hj
        exact .inl (hi.trans hnone)
      | ok a =>
        rw [hanswer] at hj
        obtain rfl : G.shared.state.calls = m := Option.some.inj hj
        refine .inr ⟨rfl, rfl, Nat.lt_succ_self _, ?_, fun k hk => ?_, a, ?_⟩
        · cases hr : G.shared.state.renewals G.shared.state.calls with
          | none => rfl
          | some h => exact absurd (hg.renewals _ h hr) (Nat.lt_irrefl _)
        · exact absurd (hg.mine k _ hk).1 (Nat.lt_irrefl _)
        · simp only [Function.update_self]
          rw [step_enter_calls hs, hanswer]
          rfl
    · exact .inl (hothers j hji ▸ hj)
  | settle n ending =>
    obtain ⟨-, now, s, hs, rfl, rfl⟩ := exec_settle hx
    have hn : ownCalls G i = some n := hi.trans hpermits
    -- the call is given up, and leaves
    have hgiven : Guarding cfg replica G.shared.state (Function.update (ownCalls G) i none) := by
      refine Guarding.reown (i := i) (n := 0) hg fun j m hj => .inl ?_
      by_cases hji : j = i
      · subst hji
        rw [Function.update_self] at hj
        cases hj
      · rwa [Function.update_of_ne hji] at hj
    have hleft := hgiven.leave hs (fun j hj => ?_) G.shared.state.renewals
      fun _ _ h => h
    · refine Guarding.reown (i := i) (n := 0) hleft fun j m hj => .inl ?_
      by_cases hji : j = i
      · subst hji
        rw [hself] at hj
        cases hj
      · rw [Function.update_of_ne hji]
        exact hothers j hji ▸ hj
    · by_cases hji : j = i
      · subst hji
        rw [Function.update_self] at hj
        cases hj
      · rw [Function.update_of_ne hji] at hj
        exact hji (hg.apart j i n hj hn)

theorem Guarding.env {own : Nat → Option Nat} (hg : Guarding cfg replica w own)
    {v : GuardedEnv T} {w' : GuardedWorld B C T} (hx : GuardedWorld.envStep cfg v w = some w') :
    Guarding cfg replica w' own := by
  cases v with
  | plain v =>
    obtain ⟨world, -, rfl⟩ := Option.map_eq_some_iff.mp hx
    exact ⟨hg.sound, hg.fresh, hg.renewals, hg.mine, hg.apart⟩
  | renew h now =>
    simp only [GuardedWorld.envStep] at hx
    split at hx
    · cases hx
    · obtain ⟨w₁, hlock, rfl⟩ := Option.map_eq_some_iff.mp hx
      obtain ⟨s, hs, rfl⟩ := lockSection_cases hlock
      exact hg.enter hs _ fun n hn => Function.update_of_ne hn _ _
  | renewed call ending now =>
    simp only [GuardedWorld.envStep] at hx
    split at hx
    · rename_i h hrenewal
      split at hx
      · cases hx
      · obtain ⟨w₁, hlock, rfl⟩ := Option.map_eq_some_iff.mp hx
        obtain ⟨s, hs, rfl⟩ := lockSection_cases hlock
        refine hg.leave hs (fun i hi => ?_) _ fun m h hm => ?_
        · obtain ⟨-, hnone, -⟩ := hg.mine i call hi
          rw [hrenewal] at hnone
          cases hnone
        · by_cases hmc : m = call
          · subst hmc
            rw [Function.update_self] at hm
            cases hm
          · rwa [Function.update_of_ne hmc] at hm
    · cases hx

theorem Guarding.step (hg : Guarding cfg replica G.shared.state (ownCalls G))
    {Q : Nat → Except Exn α → Option Nat → Prop} (hkept : (breakerFlow B).Kept Q G)
    {l : (guardedMachine cfg replica B C).traced.Label}
    (hl : (guardedMachine cfg replica B C).traced.step G l = some G') :
    Guarding cfg replica G'.shared.state (ownCalls G') := by
  rcases Machine.traced_step_cases hl with ⟨i, c, e, k, r, w, -, hp, hx, rfl⟩ |
    ⟨v, w, -, hv, rfl⟩ | ⟨i, e, k, -, hp, rfl⟩
  · refine hg.act hp (hkept.permits hp) hx (fun j hj => ?_) ?_
    · have hafter : (breakerFlow B).after (G.shared.trace ++ [⟨i, e, r⟩]) j =
          (breakerFlow B).after G.shared.trace j :=
        (breakerFlow B).after_append_ne G.shared.trace (e := ⟨i, e, r⟩) hj
      simp only [ownCalls, Function.update_of_ne hj, hafter]
    · have hafter : (breakerFlow B).after (G.shared.trace ++ [⟨i, e, r⟩]) i =
          callNext ((breakerFlow B).after G.shared.trace i) e r :=
        (breakerFlow B).after_append_self G.shared.trace ⟨i, e, r⟩
      simp only [ownCalls, Function.update_self, hafter]
      rfl
  · exact hg.env hv
  · have hworld : Guarding cfg replica
        ((guardedMachine cfg replica B C).kill i G.shared.state) (ownCalls G) :=
      ⟨hg.sound, hg.fresh, hg.renewals, hg.mine, hg.apart⟩
    refine Guarding.reown (i := i) (n := 0) hworld fun j m hj => .inl ?_
    by_cases hji : j = i
    · subst hji
      simp only [ownCalls, Function.update_self] at hj
      cases hj
    · simp only [ownCalls, Function.update_of_ne hji] at hj
      exact hj

theorem Guarding.reach {Q : Nat → Except Exn α → Option Nat → Prop}
    (hg : Guarding cfg replica G.shared.state (ownCalls G)) (hkept : (breakerFlow B).Kept Q G)
    {con : Traced (guardedSig B) Exn (GuardedWorld B C T) →
      Traced (guardedSig B) Exn (GuardedWorld B C T) → Prop}
    (hr : (guardedMachine cfg replica B C).traced.Reach con G G') :
    Guarding cfg replica G'.shared.state (ownCalls G') := by
  induction hr with
  | refl => exact hg
  | tail hr hs ih =>
    obtain ⟨l, hl, -⟩ := hs
    exact ih.step (Flow.follows_reach hkept hr) hl

end Guarding

section Admitted

variable {P₀ : Config (sig B) Exn (World B C) α}
  {G : Config (guardedSig B) Exn (GuardedWorld B C T) α} {i j : Nat}

/-- The process has called the hot store and waits for Valkey. -/
def WaitsForValkey (G : Config (guardedSig B) Exn (GuardedWorld B C T) α) (i : Nat) : Prop :=
  ∃ (e : Eff B) (k : Except Exn e.Resp → GuardedApp B α),
    G.pool i = some (.op (.plain e) k) ∧ e.isHot = true

/-- The two lock sections of a call. -/
def GuardedEff.IsLockSection : GuardedEff B → Prop
  | .plain _ => False
  | _ => True

/-- Who is there has the call that its program goes on with. -/
theorem guarding_reach
    (hr : (guardedMachine cfg replica B C).Reach (fun _ _ => True) (guardedStart T P₀) G) :
    ∃ own, Guarding cfg replica G.shared own ∧ ∀ i p, G.pool i = some p →
      (breakerFlow B).Follows p (own i) fun _ call => call = none := by
  obtain ⟨trace, hr⟩ := Machine.reach_traced hr []
  have hkept : (breakerFlow B).Kept (fun _ _ call => call = none)
      ⟨⟨(guardedStart T P₀).shared, []⟩, (guardedStart T P₀).pool⟩ := by
    intro i p hp
    obtain ⟨p, -, rfl⟩ := Option.map_eq_some_iff.mp hp
    exact rests_within p none rfl
  have hstart : Guarding cfg replica (guardedStart T P₀).shared
      (ownCalls ⟨⟨(guardedStart T P₀).shared, []⟩, (guardedStart T P₀).pool⟩) := by
    have hnone : ∀ i n, ownCalls ⟨⟨(guardedStart T P₀).shared, []⟩, (guardedStart T P₀).pool⟩ i ≠
        some n := by
      intro i n hn
      rw [ownCalls] at hn
      cases hp : (guardedStart T P₀).pool i <;> simp only [hp] at hn <;> cases hn
    exact ⟨fun _ => BreakerSystem.sound_start, fun _ _ _ => rfl, fun _ _ hn => (by cases hn),
      fun i n hi => absurd hi (hnone i n), fun i j n hi => absurd hi (hnone i n)⟩
  refine ⟨_, hstart.reach hkept hr, fun i p hp => ?_⟩
  have hown : ownCalls ⟨⟨G.shared, trace⟩, G.pool⟩ i = (breakerFlow B).after trace i := by
    simp only [ownCalls, hp]
    rfl
  rw [hown]
  exact Flow.follows_reach hkept hr i p hp

/-- What the breakers know of the processes. -/
structure Attended (cfg : BreakerConfig T) (replica : Nat → Nat)
    (G : Config (guardedSig B) Exn (GuardedWorld B C T) α) (call : Nat → Nat) : Prop where
  /-- Each breaker is in a state it can reach on its own. -/
  sound : ∀ h, (G.shared.breakers h).Sound cfg
  /-- Who waits for Valkey has a call in flight at the breaker of its replica. -/
  inFlight : ∀ i, WaitsForValkey G i →
    ∃ a, (G.shared.breakers (replica i)).calls (call i) = .inFlight a
  /-- No two processes have one call. -/
  apart : ∀ i j, WaitsForValkey G i → WaitsForValkey G j → call i = call j → i = j
  /-- At most one process of a replica waits for Valkey as the probe. -/
  probe : ∀ i j, WaitsForValkey G i → WaitsForValkey G j → replica i = replica j →
    (G.shared.breakers (replica i)).Probing (call i) →
    (G.shared.breakers (replica j)).Probing (call j) → i = j
  /-- Nobody is kept waiting at a lock section. -/
  passes : ∀ i (e : GuardedEff B) k now, G.pool i = some (.op e k) → e.IsLockSection →
    G.shared.down (replica i) = false →
    ((guardedMachine cfg replica B C).exec i e (.at now) G.shared).isSome = true

/-- **Every call of the hot store is admitted.** -/
theorem hot_calls_admitted
    (hr : (guardedMachine cfg replica B C).Reach (fun _ _ => True) (guardedStart T P₀) G) :
    ∃ call, Attended cfg replica G call := by
  obtain ⟨own, hg, hfollows⟩ := guarding_reach hr
  have hcall : ∀ i, WaitsForValkey G i → own i = some ((own i).getD 0) := by
    rintro i ⟨e, k, hp, he⟩
    have hsome : (own i).isSome = true := (hfollows i _ hp).1 he
    obtain ⟨n, hn⟩ := Option.isSome_iff_exists.mp hsome
    rw [hn]
    rfl
  have hapart : ∀ i j, WaitsForValkey G i → WaitsForValkey G j →
      (own i).getD 0 = (own j).getD 0 → i = j := by
    intro i j hi hj hsame
    refine hg.apart i j _ (hcall i hi) ?_
    rw [hsame]
    exact hcall j hj
  refine ⟨fun i => (own i).getD 0, hg.sound, fun i hi => (hg.mine i _ (hcall i hi)).2.2, hapart,
    fun i j hi hj hsame hpi hpj => ?_, fun i e k now hp he hup => ?_⟩
  · have hpi := (hg.sound _).holdsProbe_iff.mp ((hg.sound _).holdsProbe_of_probing hpi)
    have hpj := (hg.sound _).holdsProbe_iff.mp ((hg.sound _).holdsProbe_of_probing hpj)
    rw [← hsame, hpi] at hpj
    exact hapart i j hi hj (Option.some.inj hpj)
  · have hpermits : CallPermits (own i) e := (hfollows i _ hp).1
    cases e with
    | plain e => exact he.elim
    | enter =>
      have hwaiting := hg.fresh (replica i) G.shared.calls (Nat.le_refl _)
      simp only [guardedMachine, GuardedWorld.exec, hup, GuardedWorld.lockSection,
        BreakerSystem.step, hwaiting]
      rfl
    | settle n ending =>
      obtain ⟨-, -, a, ha⟩ := hg.mine i n hpermits
      simp only [guardedMachine, GuardedWorld.exec, hup, GuardedWorld.lockSection,
        BreakerSystem.step, ha]
      rfl

end Admitted

end IdentityService
