import Mathlib.Algebra.Ring.Int.Defs
import Mathlib.Order.Notation
import Mathlib.Logic.Function.Basic

/-!
# The circuit breaker

`CircuitBreaker.call` has two lock sections: one that admits the call or
refuses it, and one that takes note of how the protected function ended.
Nothing awaits inside a lock section, so each of them is one atomic step,
and any number of calls interleave at these steps.

The clock and the recovery timeout are of any type with a subtraction and a
comparison: all the breaker does with them is `now - opened_at >=
recovery_timeout`. A probe token is a new object, named here by the call
that creates it. Log lines and the texts of `CircuitBreakerError` are left
out.
-/

namespace IdentityService

/-- `CircuitState`. -/
inductive CircuitState where
  | closed
  | opened
  | halfOpen
deriving DecidableEq

/-- What the constructor accepts. -/
structure BreakerConfig (T : Type) [LE T] [Zero T] where
  failMax : Nat
  recoveryTimeout : T
  failMaxPositive : 0 < failMax
  recoveryTimeoutPositive : ¬ recoveryTimeout ≤ 0

/-- The attributes of `CircuitBreaker`. -/
structure Breaker (T : Type) where
  state : CircuitState
  failureCount : Nat
  openedAt : Option T
  probeInProgress : Bool
  probeToken : Option Nat
  generation : Nat

/-- What a call takes with it from its first lock section. -/
structure Admission where
  generation : Nat
  probeToken : Option Nat
deriving DecidableEq

/-- The two reasons for a `CircuitBreakerError`. -/
inductive Refusal where
  | stillOpen
  | probing
deriving DecidableEq

/-- How the protected function can end: it returns, or raises an exception
that `is_failure` counts, does not count or fails on, or it is cancelled, or
raises something that is no `Exception`. -/
inductive Ending where
  | success
  | failure
  | nonFailure
  | classifierRaised
  | cancelled
  | baseException
deriving DecidableEq

namespace Breaker

variable {T : Type}

def start : Breaker T := ⟨.closed, 0, none, false, none, 0⟩

/-- `_trip`. -/
def trip (now : T) (b : Breaker T) : Breaker T :=
  { b with
    state := .opened
    openedAt := some now
    probeInProgress := false
    probeToken := none
    generation := b.generation + 1 }

/-- The call holds the probe that the breaker waits for. -/
def isCurrentProbe (b : Breaker T) (a : Admission) : Bool :=
  a.probeToken.isSome && b.state = .halfOpen && b.probeToken = a.probeToken

/-- The call was admitted in the present CLOSED period. -/
def isCurrentClosedCall (b : Breaker T) (a : Admission) : Bool :=
  a.probeToken.isNone && b.state = .closed && b.generation = a.generation

/-- `_handle_success`. -/
def handleSuccess (a : Admission) (b : Breaker T) : Breaker T :=
  if b.isCurrentProbe a then
    { b with
      state := .closed
      failureCount := 0
      openedAt := none
      probeInProgress := false
      probeToken := none
      generation := b.generation + 1 }
  else if b.isCurrentClosedCall a then
    { b with failureCount := 0 }
  else
    b

/-- `_release_probe`. -/
def releaseProbe (a : Admission) (b : Breaker T) : Breaker T :=
  if b.isCurrentProbe a then { b with probeInProgress := false, probeToken := none } else b

variable [LE T] [Zero T] (cfg : BreakerConfig T)

/-- `_handle_failure`. -/
def handleFailure (now : T) (a : Admission) (b : Breaker T) : Breaker T :=
  if !b.isCurrentProbe a && !b.isCurrentClosedCall a then
    b
  else
    let counted := { b with failureCount := b.failureCount + 1 }
    if b.isCurrentClosedCall a then
      if cfg.failMax ≤ counted.failureCount then counted.trip now else counted
    else
      counted.trip now

/-- The second lock section of `call`. -/
def leave (now : T) (a : Admission) (ending : Ending) (b : Breaker T) : Breaker T :=
  match ending with
  | .success => b.handleSuccess a
  | .failure => b.handleFailure cfg now a
  | .nonFailure => b.handleSuccess a
  | .classifierRaised => b.releaseProbe a
  | .cancelled => b.releaseProbe a
  | .baseException => b.releaseProbe a

variable [Sub T] [DecidableLE T]

/-- The time since the breaker opened is at least the timeout. -/
def cooledDown (now : T) (b : Breaker T) : Bool :=
  b.openedAt.any fun openedAt => cfg.recoveryTimeout ≤ now - openedAt

/-- `_check_state`. -/
def checkState (now : T) (b : Breaker T) : Breaker T :=
  if b.state = .opened && b.cooledDown cfg now then { b with state := .halfOpen } else b

/-- The first lock section of `call`, for the call named `token`. -/
def enter (now : T) (token : Nat) (b : Breaker T) : Except Refusal Admission × Breaker T :=
  let b := b.checkState cfg now
  match b.state with
  | .opened => (.error .stillOpen, b)
  | .halfOpen =>
    if b.probeInProgress then
      (.error .probing, b)
    else
      (.ok ⟨b.generation, some token⟩, { b with probeInProgress := true, probeToken := some token })
  | .closed => (.ok ⟨b.generation, none⟩, b)

end Breaker

/-! ## Any number of calls -/

/-- A call that has not come yet, is waiting for its function, was refused,
or is over. -/
inductive CallState where
  | waiting
  | inFlight (admission : Admission)
  | refused (reason : Refusal)
  | ended
deriving DecidableEq

/-- A refused call invokes no function; an admitted one does. -/
def CallState.ofAnswer : Except Refusal Admission → CallState
  | .ok admission => .inFlight admission
  | .error reason => .refused reason

/-- A breaker and all calls that there will be. -/
structure BreakerSystem (T : Type) where
  breaker : Breaker T
  calls : Nat → CallState

/-- One lock section of one call, at the time its clock shows. -/
inductive BreakerStep (T : Type) where
  | enter (call : Nat) (now : T)
  | leave (call : Nat) (ending : Ending) (now : T)

namespace BreakerSystem

variable {T : Type} [LE T] [Zero T] [Sub T] [DecidableLE T] (cfg : BreakerConfig T)

def start : BreakerSystem T := ⟨.start, fun _ => .waiting⟩

/-- A lock section of a call, where the call is at it. -/
def step (s : BreakerSystem T) : BreakerStep T → Option (BreakerSystem T)
  | .enter i now =>
    match s.calls i with
    | .waiting =>
      let (answer, b) := s.breaker.enter cfg now i
      some ⟨b, Function.update s.calls i (.ofAnswer answer)⟩
    | _ => none
  | .leave i ending now =>
    match s.calls i with
    | .inFlight admission =>
      some ⟨s.breaker.leave cfg now admission ending, Function.update s.calls i .ended⟩
    | _ => none

/-- A run, lock section by lock section. -/
def run (s : BreakerSystem T) (steps : List (BreakerStep T)) : Option (BreakerSystem T) :=
  steps.foldlM (step cfg) s

end BreakerSystem

/-! ## What the lock sections can do -/

/-- The ending shows that the dependency is available. -/
def Ending.heals : Ending → Bool
  | .success => true
  | .nonFailure => true
  | _ => false

/-- The ending shows nothing. -/
def Ending.silent : Ending → Bool
  | .success => false
  | .failure => false
  | .nonFailure => false
  | _ => true

namespace Breaker

variable {T : Type} {b b' : Breaker T} {a : Admission} {now : T} {ending : Ending}

theorem isCurrentProbe_iff : b.isCurrentProbe a = true ↔
    ∃ t, a.probeToken = some t ∧ b.state = .halfOpen ∧ b.probeToken = some t := by
  cases h : a.probeToken with
  | none => simp [isCurrentProbe, h]
  | some t => simp [isCurrentProbe, h]

theorem isCurrentClosedCall_iff : b.isCurrentClosedCall a = true ↔
    a.probeToken = none ∧ b.state = .closed ∧ b.generation = a.generation := by
  simp [isCurrentClosedCall, and_assoc]

variable [LE T] [Zero T] {cfg : BreakerConfig T}

/-- Everything that the end of a call can do to the breaker. -/
inductive Left (cfg : BreakerConfig T) (now : T) (a : Admission) (b : Breaker T) :
    Ending → Breaker T → Prop where
  | closes {ending : Ending} (probe : b.isCurrentProbe a = true) (heals : ending.heals = true) :
      Left cfg now a b ending ⟨.closed, 0, none, false, none, b.generation + 1⟩
  | trips (due : b.isCurrentProbe a = true ∨
      b.isCurrentClosedCall a = true ∧ cfg.failMax ≤ b.failureCount + 1) :
      Left cfg now a b .failure
        ⟨.opened, b.failureCount + 1, some now, false, none, b.generation + 1⟩
  | releases {ending : Ending} (probe : b.isCurrentProbe a = true)
      (silent : ending.silent = true) :
      Left cfg now a b ending { b with probeInProgress := false, probeToken := none }
  | resets {ending : Ending} (current : b.isCurrentClosedCall a = true)
      (heals : ending.heals = true) : Left cfg now a b ending { b with failureCount := 0 }
  | counts (current : b.isCurrentClosedCall a = true) (below : b.failureCount + 1 < cfg.failMax) :
      Left cfg now a b .failure { b with failureCount := b.failureCount + 1 }
  | stays {ending : Ending} (other : b.isCurrentProbe a = false)
      (idle : b.isCurrentClosedCall a = false ∨ ending.silent = true) : Left cfg now a b ending b

theorem left_handleSuccess (hh : ending.heals = true) :
    Left cfg now a b ending (b.handleSuccess a) := by
  unfold handleSuccess
  by_cases hp : b.isCurrentProbe a = true
  · rw [if_pos hp]
    exact .closes hp hh
  · rw [if_neg hp]
    by_cases hc : b.isCurrentClosedCall a = true
    · rw [if_pos hc]
      exact .resets hc hh
    · rw [if_neg hc]
      exact .stays (by simpa using hp) (.inl (by simpa using hc))

theorem left_releaseProbe (hs : ending.silent = true) :
    Left cfg now a b ending (b.releaseProbe a) := by
  unfold releaseProbe
  by_cases hp : b.isCurrentProbe a = true
  · rw [if_pos hp]
    exact .releases hp hs
  · rw [if_neg hp]
    exact .stays (by simpa using hp) (.inr hs)

theorem left_handleFailure : Left cfg now a b .failure (b.handleFailure cfg now a) := by
  unfold handleFailure
  by_cases hc : b.isCurrentClosedCall a = true
  · rw [if_neg (by simp [hc])]
    simp only [hc, if_true]
    by_cases hmax : cfg.failMax ≤ b.failureCount + 1
    · rw [if_pos hmax]
      exact .trips (.inr ⟨hc, hmax⟩)
    · rw [if_neg hmax]
      exact .counts hc (by omega)
  · by_cases hp : b.isCurrentProbe a = true
    · rw [if_neg (by simp [hp])]
      simp only [hc]
      exact .trips (.inl hp)
    · rw [if_pos (by simp [hp, hc])]
      exact .stays (by simpa using hp) (.inl (by simpa using hc))

theorem left_leave (cfg : BreakerConfig T) (now : T) (a : Admission) (ending : Ending)
    (b : Breaker T) : Left cfg now a b ending (b.leave cfg now a ending) := by
  cases ending with
  | success => exact left_handleSuccess rfl
  | failure => exact left_handleFailure
  | nonFailure => exact left_handleSuccess rfl
  | classifierRaised => exact left_releaseProbe rfl
  | cancelled => exact left_releaseProbe rfl
  | baseException => exact left_releaseProbe rfl

variable [Sub T] [DecidableLE T]

/-- Everything that the start of a call can do. -/
inductive Entered (cfg : BreakerConfig T) (now : T) (token : Nat) (b : Breaker T) :
    Except Refusal Admission → Breaker T → Prop where
  | refused (opened : b.state = .opened) (hot : b.cooledDown cfg now = false) :
      Entered cfg now token b (.error .stillOpen) b
  | probing (waiting : b.state = .halfOpen ∨ b.state = .opened ∧ b.cooledDown cfg now = true)
      (busy : b.probeInProgress = true) :
      Entered cfg now token b (.error .probing) { b with state := .halfOpen }
  | probe (waiting : b.state = .halfOpen ∨ b.state = .opened ∧ b.cooledDown cfg now = true)
      (free : b.probeInProgress = false) :
      Entered cfg now token b (.ok ⟨b.generation, some token⟩)
        { b with state := .halfOpen, probeInProgress := true, probeToken := some token }
  | admitted (closed : b.state = .closed) : Entered cfg now token b (.ok ⟨b.generation, none⟩) b

theorem entered_enter (cfg : BreakerConfig T) (now : T) (token : Nat) (b : Breaker T) :
    Entered cfg now token b (b.enter cfg now token).1 (b.enter cfg now token).2 := by
  -- HALF_OPEN, before or after `_check_state`
  have hhalf : (b.state = .halfOpen ∨ b.state = .opened ∧ b.cooledDown cfg now = true) →
      b.checkState cfg now = { b with state := .halfOpen } →
      Entered cfg now token b (b.enter cfg now token).1 (b.enter cfg now token).2 := by
    intro hwait hcheck
    unfold enter
    simp only [hcheck]
    by_cases hbusy : b.probeInProgress = true
    · simp only [if_pos hbusy]
      exact .probing hwait hbusy
    · simp only [if_neg hbusy]
      exact .probe hwait (by simpa using hbusy)
  cases hstate : b.state with
  | closed =>
      have hcheck : b.checkState cfg now = b := by simp [checkState, hstate]
      unfold enter
      simp only [hcheck, hstate]
      exact .admitted hstate
  | halfOpen =>
      have hsame : { b with state := .halfOpen } = b := by rw [← hstate]
      refine hhalf (.inl hstate) ?_
      rw [hsame]
      simp [checkState, hstate]
  | opened =>
      by_cases hcool : b.cooledDown cfg now = true
      · exact hhalf (.inr ⟨hstate, hcool⟩) (by simp [checkState, hstate, hcool])
      · have hcheck : b.checkState cfg now = b := by simp [checkState, hcool]
        unfold enter
        simp only [hcheck, hstate]
        exact .refused hstate (by simpa using hcool)

end Breaker

/-! ## Probe safety -/

namespace BreakerSystem

variable {T : Type} [LE T] [Zero T] {cfg : BreakerConfig T} {s s' : BreakerSystem T}

/-- What every state keeps. A probe token in the hands of a call in flight
is the one the breaker waits for, and the other way round. -/
structure Sound (cfg : BreakerConfig T) (s : BreakerSystem T) : Prop where
  busy : s.breaker.probeInProgress = s.breaker.probeToken.isSome
  holder : ∀ t, s.breaker.probeToken = some t →
    s.breaker.state = .halfOpen ∧ ∃ g, s.calls t = .inFlight ⟨g, some t⟩
  held : ∀ i g t, s.calls i = .inFlight ⟨g, some t⟩ →
    t = i ∧ s.breaker.probeToken = some i ∧ g = s.breaker.generation
  closed : s.breaker.state = .closed →
    s.breaker.failureCount < cfg.failMax ∧ s.breaker.openedAt = none
  opened : s.breaker.state ≠ .closed → s.breaker.openedAt.isSome
  past : ∀ i a, s.calls i = .inFlight a → a.generation ≤ s.breaker.generation

theorem sound_start : (start : BreakerSystem T).Sound cfg := by
  refine ⟨rfl, ?_, ?_, fun _ => ⟨cfg.failMaxPositive, rfl⟩, fun h => absurd rfl h, ?_⟩
  · intro t h
    cases h
  · intro i g t h
    cases h
  · intro i a h
    cases h

/-- A call that leaves takes its token with it. -/
theorem Sound.leave (h : s.Sound cfg) {i : Nat} {ending : Ending} {now : T} {a : Admission}
    (hcall : s.calls i = .inFlight a) (hb : Breaker.Left cfg now a s.breaker ending s'.breaker)
    (hcalls : s'.calls = Function.update s.calls i .ended) : s'.Sound cfg := by
  obtain ⟨b', calls'⟩ := s'
  obtain rfl : calls' = Function.update s.calls i .ended := hcalls
  have hb : Breaker.Left cfg now a s.breaker ending b' := hb
  -- a call still in flight is another one, and was in flight before
  have hother : ∀ j a', Function.update s.calls i .ended j = .inFlight a' →
      j ≠ i ∧ s.calls j = .inFlight a' := by
    intro j a' hj
    by_cases hji : j = i
    · subst hji
      rw [Function.update_self] at hj
      cases hj
    · rw [Function.update_of_ne hji] at hj
      exact ⟨hji, hj⟩
  -- the token of the current probe is this call's own
  have hown : s.breaker.isCurrentProbe a = true →
      s.breaker.state = .halfOpen ∧ s.breaker.probeToken = some i := by
    intro hp
    obtain ⟨t, ht, hstate, htoken⟩ := Breaker.isCurrentProbe_iff.mp hp
    obtain ⟨g, t'⟩ := a
    obtain rfl : t' = some t := ht
    exact ⟨hstate, (h.held i g t hcall).2.1⟩
  -- without a token, no other call has one
  have hnone : s.breaker.probeToken = some i ∨ s.breaker.probeToken = none →
      ∀ j g t, Function.update s.calls i .ended j = .inFlight ⟨g, some t⟩ → False := by
    intro htoken j g t hj
    obtain ⟨hji, hj⟩ := hother j _ hj
    obtain ⟨-, hcurrent, -⟩ := h.held j g t hj
    rcases htoken with htoken | htoken
    · rw [htoken] at hcurrent
      exact hji (Option.some.inj hcurrent).symm
    · rw [htoken] at hcurrent
      cases hcurrent
  have hpast : ∀ j a', Function.update s.calls i .ended j = .inFlight a' →
      a'.generation ≤ s.breaker.generation :=
    fun j a' hj => h.past j a' (hother j a' hj).2
  -- if the call is not the current probe, the current probe is another call
  have hkeep : s.breaker.isCurrentProbe a = false → ∀ t, s.breaker.probeToken = some t →
      s.breaker.state = .halfOpen ∧
        ∃ g, Function.update s.calls i .ended t = .inFlight ⟨g, some t⟩ := by
    intro hp t ht
    obtain ⟨hstate, g, hg⟩ := h.holder t ht
    refine ⟨hstate, g, ?_⟩
    rw [Function.update_of_ne]
    · exact hg
    · rintro rfl
      rw [hcall] at hg
      cases hg
      have hcurrent : s.breaker.isCurrentProbe ⟨g, some t⟩ = true :=
        Breaker.isCurrentProbe_iff.mpr ⟨t, rfl, hstate, ht⟩
      rw [hp] at hcurrent
      cases hcurrent
  have hheld : ∀ j g t, Function.update s.calls i .ended j = .inFlight ⟨g, some t⟩ →
      t = j ∧ s.breaker.probeToken = some j ∧ g = s.breaker.generation :=
    fun j g t hj => h.held j g t (hother j _ hj).2
  -- a call of the CLOSED period is no probe
  have hplain : s.breaker.isCurrentClosedCall a = true →
      s.breaker.state = .closed ∧ s.breaker.isCurrentProbe a = false := by
    intro hc
    obtain ⟨htoken, hstate, -⟩ := Breaker.isCurrentClosedCall_iff.mp hc
    exact ⟨hstate, by simp [Breaker.isCurrentProbe, htoken]⟩
  cases hb with
  | closes probe heals =>
      refine ⟨rfl, fun t ht => (by cases ht), fun j g t hj => ?_,
        fun _ => ⟨cfg.failMaxPositive, rfl⟩, fun hne => absurd rfl hne, fun j a' hj => ?_⟩
      · exact (hnone (.inl (hown probe).2) j g t hj).elim
      · exact Nat.le_succ_of_le (hpast j a' hj)
  | trips due =>
      refine ⟨rfl, fun t ht => (by cases ht), fun j g t hj => ?_, fun hc => (by cases hc),
        fun _ => rfl, fun j a' hj => Nat.le_succ_of_le (hpast j a' hj)⟩
      rcases due with probe | ⟨current, -⟩
      · exact (hnone (.inl (hown probe).2) j g t hj).elim
      · refine (hnone (.inr ?_) j g t hj).elim
        cases htoken : s.breaker.probeToken with
        | none => rfl
        | some t' =>
            have hstate := (h.holder t' htoken).1
            rw [(hplain current).1] at hstate
            cases hstate
  | releases probe silent =>
      refine ⟨rfl, fun t ht => (by cases ht), fun j g t hj => ?_, h.closed, h.opened, hpast⟩
      exact (hnone (.inl (hown probe).2) j g t hj).elim
  | resets current heals =>
      exact ⟨h.busy, hkeep (hplain current).2, hheld,
        fun hc => ⟨cfg.failMaxPositive, (h.closed hc).2⟩, h.opened, hpast⟩
  | counts current below =>
      exact ⟨h.busy, hkeep (hplain current).2, hheld, fun hc => ⟨below, (h.closed hc).2⟩,
        h.opened, hpast⟩
  | stays other idle => exact ⟨h.busy, hkeep other, hheld, h.closed, h.opened, hpast⟩

/-- A call that is admitted as a probe finds nobody else probing. -/
theorem Sound.enter [Sub T] [DecidableLE T] (h : s.Sound cfg) {i : Nat} {now : T}
    {answer : Except Refusal Admission} (hcall : s.calls i = .waiting)
    (hb : Breaker.Entered cfg now i s.breaker answer s'.breaker)
    (hcalls : s'.calls = Function.update s.calls i (.ofAnswer answer)) : s'.Sound cfg := by
  obtain ⟨b', calls'⟩ := s'
  obtain rfl : calls' = Function.update s.calls i (.ofAnswer answer) := hcalls
  have hb : Breaker.Entered cfg now i s.breaker answer b' := hb
  -- whoever holds the token is in flight, and so is not the call that comes in
  have hholder : ∀ t, s.breaker.probeToken = some t → s.breaker.state = .halfOpen ∧
      ∃ g, Function.update s.calls i (.ofAnswer answer) t = .inFlight ⟨g, some t⟩ := by
    intro t ht
    obtain ⟨hstate, g, hg⟩ := h.holder t ht
    refine ⟨hstate, g, ?_⟩
    rw [Function.update_of_ne]
    · exact hg
    · rintro rfl
      rw [hcall] at hg
      cases hg
  -- a call in flight is the new one, or was in flight before
  have hflight : ∀ j a', Function.update s.calls i (.ofAnswer answer) j = .inFlight a' →
      j = i ∧ answer = .ok a' ∨ s.calls j = .inFlight a' := by
    intro j a' hj
    by_cases hji : j = i
    · subst hji
      rw [Function.update_self] at hj
      cases answer with
      | error reason => cases hj
      | ok admission =>
          cases hj
          exact .inl ⟨rfl, rfl⟩
    · rw [Function.update_of_ne hji] at hj
      exact .inr hj
  have hpast : (∀ a', answer = .ok a' → a'.generation ≤ s.breaker.generation) →
      ∀ j a', Function.update s.calls i (.ofAnswer answer) j = .inFlight a' →
        a'.generation ≤ s.breaker.generation := by
    intro hnew j a' hj
    rcases hflight j a' hj with ⟨-, hans⟩ | hj
    · exact hnew a' hans
    · exact h.past j a' hj
  have hheld : (∀ g t, answer ≠ .ok ⟨g, some t⟩) →
      ∀ j g t, Function.update s.calls i (.ofAnswer answer) j = .inFlight ⟨g, some t⟩ →
        t = j ∧ s.breaker.probeToken = some j ∧ g = s.breaker.generation := by
    intro hno j g t hj
    rcases hflight j _ hj with ⟨-, hans⟩ | hj
    · exact absurd hans (hno g t)
    · exact h.held j g t hj
  have hwaiting : (s.breaker.state = .halfOpen ∨
      s.breaker.state = .opened ∧ s.breaker.cooledDown cfg now = true) →
      s.breaker.state ≠ .closed := by
    rintro (hw | ⟨hw, -⟩)
    · simp [hw]
    · simp [hw]
  cases hb with
  | refused opened hot =>
      exact ⟨h.busy, hholder, hheld (fun g t heq => by cases heq), h.closed, h.opened,
        hpast fun a' heq => by cases heq⟩
  | probing waiting busy =>
      refine ⟨h.busy, fun t ht => ⟨rfl, (hholder t ht).2⟩, hheld (fun g t heq => by cases heq),
        fun hc => (by cases hc), fun _ => ?_, hpast fun a' heq => by cases heq⟩
      exact h.opened (hwaiting waiting)
  | probe waiting free =>
      -- no token was out before
      have hnone : s.breaker.probeToken = none := by
        have hbusy := h.busy
        rw [free] at hbusy
        exact Option.isNone_iff_eq_none.mp (by simpa using hbusy.symm)
      refine ⟨rfl, fun t ht => ?_, fun j g t hj => ?_, fun hc => (by cases hc), fun _ => ?_,
        hpast fun a' heq => by cases heq; exact Nat.le_refl _⟩
      · cases ht
        exact ⟨rfl, s.breaker.generation, Function.update_self ..⟩
      · rcases hflight j _ hj with ⟨rfl, hans⟩ | hj
        · cases hans
          exact ⟨rfl, rfl, rfl⟩
        · obtain ⟨-, htoken, -⟩ := h.held j g t hj
          rw [hnone] at htoken
          cases htoken
      · exact h.opened (hwaiting waiting)
  | admitted closed =>
      exact ⟨h.busy, hholder, hheld (fun g t heq => by cases heq), h.closed, h.opened,
        hpast fun a' heq => by cases heq; exact Nat.le_refl _⟩

/-- The call is in flight with a probe token. -/
def Probing (s : BreakerSystem T) (i : Nat) : Prop :=
  ∃ g t, s.calls i = .inFlight ⟨g, some t⟩

/-- The call is in flight with the token that the breaker waits for. -/
def HoldsProbe (s : BreakerSystem T) (i : Nat) : Prop :=
  ∃ g t, s.calls i = .inFlight ⟨g, some t⟩ ∧ s.breaker.probeToken = some t

theorem Sound.holdsProbe_iff (h : s.Sound cfg) {i : Nat} :
    s.HoldsProbe i ↔ s.breaker.probeToken = some i := by
  constructor
  · rintro ⟨g, t, hcall, htoken⟩
    rw [← (h.held i g t hcall).1]
    exact htoken
  · intro htoken
    obtain ⟨-, g, hcall⟩ := h.holder i htoken
    exact ⟨g, i, hcall, htoken⟩

theorem Sound.holdsProbe_of_probing (h : s.Sound cfg) {i : Nat} (hi : s.Probing i) :
    s.HoldsProbe i := by
  obtain ⟨g, t, hcall⟩ := hi
  exact h.holdsProbe_iff.mpr (h.held i g t hcall).2.1

theorem Sound.probe_iff (h : s.Sound cfg) :
    s.breaker.probeToken.isSome = true ↔
      s.breaker.state = .halfOpen ∧ ∃! i, s.HoldsProbe i := by
  constructor
  · intro hsome
    obtain ⟨t, ht⟩ := Option.isSome_iff_exists.mp hsome
    refine ⟨(h.holder t ht).1, t, h.holdsProbe_iff.mpr ht, ?_⟩
    intro j hj
    have hj := h.holdsProbe_iff.mp hj
    rw [ht] at hj
    exact (Option.some.inj hj).symm
  · rintro ⟨-, i, hi, -⟩
    exact Option.isSome_iff_exists.mpr ⟨i, h.holdsProbe_iff.mp hi⟩

variable [Sub T] [DecidableLE T]

/-- Everything a step can do. -/
theorem step_cases {step : BreakerStep T} (h : s.step cfg step = some s') :
    (∃ i now answer, step = .enter i now ∧ s.calls i = .waiting ∧
      Breaker.Entered cfg now i s.breaker answer s'.breaker ∧
      s'.calls = Function.update s.calls i (.ofAnswer answer)) ∨
    ∃ i ending now a, step = .leave i ending now ∧ s.calls i = .inFlight a ∧
      Breaker.Left cfg now a s.breaker ending s'.breaker ∧
      s'.calls = Function.update s.calls i .ended := by
  cases step with
  | enter i now =>
      refine .inl ⟨i, now, (s.breaker.enter cfg now i).1, rfl, ?_⟩
      cases hcall : s.calls i with
      | waiting =>
          simp only [BreakerSystem.step, hcall, Option.some.injEq] at h
          subst h
          exact ⟨rfl, Breaker.entered_enter cfg now i s.breaker, rfl⟩
      | _ => simp [BreakerSystem.step, hcall] at h
  | leave i ending now =>
      refine .inr ?_
      cases hcall : s.calls i with
      | inFlight a =>
          simp only [BreakerSystem.step, hcall, Option.some.injEq] at h
          subst h
          exact ⟨i, ending, now, a, rfl, hcall, Breaker.left_leave cfg now a ending s.breaker, rfl⟩
      | _ => simp [BreakerSystem.step, hcall] at h

theorem Sound.step {step : BreakerStep T} (h : s.Sound cfg) (hstep : s.step cfg step = some s') :
    s'.Sound cfg := by
  rcases step_cases hstep with
    ⟨i, now, answer, -, hcall, hb, hcalls⟩ | ⟨i, ending, now, a, -, hcall, hb, hcalls⟩
  · exact h.enter hcall hb hcalls
  · exact h.leave hcall hb hcalls

theorem run_cons {step : BreakerStep T} {steps : List (BreakerStep T)} :
    s.run cfg (step :: steps) = (s.step cfg step).bind fun s₁ => s₁.run cfg steps := rfl

theorem Sound.run {steps : List (BreakerStep T)} (h : s.Sound cfg)
    (hrun : s.run cfg steps = some s') : s'.Sound cfg := by
  induction steps generalizing s with
  | nil =>
      cases hrun
      exact h
  | cons step steps ih =>
      rw [run_cons] at hrun
      obtain ⟨s₁, hstep, hrest⟩ := Option.bind_eq_some_iff.mp hrun
      exact ih (h.step hstep) hrest

/-- Before the timeout is over, OPEN refuses and stays as it is. -/
theorem refused_of_opened {i : Nat} {now openedAt : T} (hopen : s.breaker.state = .opened)
    (hat : s.breaker.openedAt = some openedAt) (hhot : ¬ cfg.recoveryTimeout ≤ now - openedAt)
    (hstep : s.step cfg (.enter i now) = some s') :
    s'.breaker = s.breaker ∧ s'.calls = Function.update s.calls i (.refused .stillOpen) := by
  have hcool : s.breaker.cooledDown cfg now = false := by simp [Breaker.cooledDown, hat, hhot]
  rcases step_cases hstep with ⟨_, _, answer, heq, -, hb, hcalls⟩ | ⟨_, _, _, _, heq, -⟩
  · cases heq
    obtain ⟨b', calls'⟩ := s'
    obtain rfl : calls' = _ := hcalls
    have hb : Breaker.Entered cfg now i s.breaker answer b' := hb
    cases hb with
    | refused opened hot => exact ⟨rfl, rfl⟩
    | probing waiting busy => simp [hopen, hcool] at waiting
    | probe waiting free => simp [hopen, hcool] at waiting
    | admitted closed => simp [hopen] at closed
  · cases heq

/-- In every reachable state the probe flag, the probe token and the call
in flight that holds it belong together, the fields agree with the state,
and OPEN admits nobody before its timeout is over. -/
theorem breaker_probe_safe (cfg : BreakerConfig T) (steps : List (BreakerStep T))
    (s : BreakerSystem T) (hrun : start.run cfg steps = some s) :
    (s.breaker.probeInProgress = true ↔ s.breaker.probeToken.isSome = true) ∧
    (s.breaker.probeToken.isSome = true ↔
      s.breaker.state = .halfOpen ∧ ∃! i, s.HoldsProbe i) ∧
    (∀ i j, s.Probing i → s.Probing j → i = j) ∧
    (∀ i, s.Probing i → s.HoldsProbe i) ∧
    (s.breaker.state = .closed →
      s.breaker.failureCount < cfg.failMax ∧ s.breaker.openedAt = none) ∧
    (s.breaker.state = .opened ∨ s.breaker.state = .halfOpen →
      s.breaker.openedAt.isSome = true) ∧
    ∀ i now openedAt s', s.breaker.state = .opened → s.breaker.openedAt = some openedAt →
      ¬ cfg.recoveryTimeout ≤ now - openedAt → s.step cfg (.enter i now) = some s' →
      s'.breaker = s.breaker ∧ s'.calls = Function.update s.calls i (.refused .stillOpen) := by
  have h : s.Sound cfg := sound_start.run hrun
  refine ⟨?_, h.probe_iff, ?_, fun i => h.holdsProbe_of_probing, h.closed, ?_, ?_⟩
  · rw [h.busy]
  · intro i j hi hj
    have hi := h.holdsProbe_iff.mp (h.holdsProbe_of_probing hi)
    have hj := h.holdsProbe_iff.mp (h.holdsProbe_of_probing hj)
    rw [hi] at hj
    exact Option.some.inj hj
  · intro hstate
    refine h.opened fun hclosed => ?_
    simp [hclosed] at hstate
  · intro i now openedAt s' hopen hat hhot hstep
    exact refused_of_opened hopen hat hhot hstep

namespace Sample

/-- One failure trips, and five ticks later a probe may pass. -/
def breakerConfig : BreakerConfig Int where
  failMax := 1
  recoveryTimeout := 5
  failMaxPositive := Nat.one_pos
  recoveryTimeoutPositive := by decide

/-- A call fails, one is refused, one becomes the probe, and one comes
while the probe is in flight. -/
def probeSteps : List (BreakerStep Int) :=
  [.enter 0 0, .leave 0 .failure 1, .enter 1 3, .enter 2 7, .enter 3 8]

end Sample

theorem breaker_probe_safe_probing : ∃ s : BreakerSystem Int,
    start.run Sample.breakerConfig Sample.probeSteps = some s ∧
    s.breaker.state = .halfOpen ∧ ∃! i, s.HoldsProbe i := by
  obtain ⟨s, hrun, htoken⟩ : ∃ s : BreakerSystem Int,
      start.run Sample.breakerConfig Sample.probeSteps = some s ∧
        s.breaker.probeToken.isSome = true := ⟨_, rfl, rfl⟩
  have hsafe := breaker_probe_safe Sample.breakerConfig Sample.probeSteps s hrun
  exact ⟨s, hrun, hsafe.2.1.mp htoken⟩

end BreakerSystem

end IdentityService
