import IdentityService.Resilience.CircuitBreaker
import Mathlib.Data.List.Infix

/-!
# The periods of the circuit breaker

A trip or a close ends a period of the breaker. What a call admitted in an
earlier period brings back is ignored, so a run with such completions taken
out looks the same. Within a CLOSED period the failure count is the streak
of failures among the calls that were admitted in that period.
-/

namespace IdentityService

/-- The call whose lock section a step is. -/
def BreakerStep.call {T : Type} : BreakerStep T → Nat
  | .enter i _ => i
  | .leave i _ _ => i

namespace BreakerSystem

variable {T : Type}

/-- The step went to OPEN. -/
def Trips (s s' : BreakerSystem T) : Prop :=
  s.breaker.state ≠ .opened ∧ s'.breaker.state = .opened

/-- The step went to CLOSED. -/
def Closes (s s' : BreakerSystem T) : Prop :=
  s.breaker.state ≠ .closed ∧ s'.breaker.state = .closed

variable [LE T] [Zero T] [Sub T] [DecidableLE T]
  {cfg : BreakerConfig T} {s s' : BreakerSystem T}

theorem run_append {steps more : List (BreakerStep T)} :
    s.run cfg (steps ++ more) = (s.run cfg steps).bind fun s₁ => s₁.run cfg more := by
  unfold run
  rw [List.foldlM_append]
  rfl

theorem run_concat {steps : List (BreakerStep T)} {step : BreakerStep T} :
    s.run cfg (steps ++ [step]) = (s.run cfg steps).bind fun s₁ => s₁.step cfg step := by
  rw [run_append]
  congr 1
  funext s₁
  simp [run]

/-! ## Generations -/

/-- A step moves on to the next generation when it trips or closes the
breaker, and only then. -/
theorem generation_step {step : BreakerStep T} (hstep : s.step cfg step = some s') :
    (s.Trips s' ∨ s.Closes s') ∧ s'.breaker.generation = s.breaker.generation + 1 ∨
    ¬ (s.Trips s' ∨ s.Closes s') ∧ s'.breaker.generation = s.breaker.generation := by
  obtain ⟨b', calls'⟩ := s'
  rcases step_cases hstep with ⟨i, now, answer, -, -, hb, -⟩ | ⟨i, ending, now, a, -, -, hb, -⟩
  · have hb : Breaker.Entered cfg now i s.breaker answer b' := hb
    refine .inr ?_
    cases hb with
    | refused opened hot => simp [Trips, Closes]
    | probing waiting busy => simp [Trips, Closes]
    | probe waiting free => simp [Trips, Closes]
    | admitted closed => simp [Trips, Closes]
  · have hb : Breaker.Left cfg now a s.breaker ending b' := hb
    cases hb with
    | closes probe heals =>
        obtain ⟨-, -, hstate, -⟩ := Breaker.isCurrentProbe_iff.mp probe
        exact .inl ⟨.inr ⟨by simp [hstate], rfl⟩, rfl⟩
    | trips due =>
        refine .inl ⟨.inl ⟨?_, rfl⟩, rfl⟩
        rcases due with probe | ⟨current, -⟩
        · obtain ⟨-, -, hstate, -⟩ := Breaker.isCurrentProbe_iff.mp probe
          simp [hstate]
        · simp [(Breaker.isCurrentClosedCall_iff.mp current).2.1]
    | releases probe silent => simp [Trips, Closes]
    | resets current heals => simp [Trips, Closes]
    | counts current below => simp [Trips, Closes]
    | stays other idle => simp [Trips, Closes]

theorem generation_le_step {step : BreakerStep T} (hstep : s.step cfg step = some s') :
    s.breaker.generation ≤ s'.breaker.generation := by
  rcases generation_step hstep with ⟨-, hgen⟩ | ⟨-, hgen⟩
  · omega
  · omega

/-- A call that is in flight after a step was in flight before, with the
same admission, or came in with this step. -/
theorem inFlight_step {step : BreakerStep T} {i : Nat} {a : Admission}
    (hstep : s.step cfg step = some s') (hcall : s'.calls i = .inFlight a) :
    s.calls i = .inFlight a ∨
      (∃ now, step = .enter i now) ∧ s.calls i = .waiting ∧
        a.generation = s.breaker.generation ∧ s'.breaker.generation = s.breaker.generation ∧
        (s.breaker.state = .closed → a.probeToken = none) := by
  obtain ⟨b', calls'⟩ := s'
  rcases step_cases hstep with
    ⟨j, now, answer, rfl, hwait, hb, hcalls⟩ | ⟨j, ending, now, a', -, -, hb, hcalls⟩
  · obtain rfl : calls' = Function.update s.calls j (.ofAnswer answer) := hcalls
    have hb : Breaker.Entered cfg now j s.breaker answer b' := hb
    by_cases hij : i = j
    · subst hij
      refine .inr ⟨⟨now, rfl⟩, hwait, ?_⟩
      replace hcall : CallState.ofAnswer answer = .inFlight a := by simpa using hcall
      cases hb with
      | refused opened hot => cases hcall
      | probing waiting busy => cases hcall
      | probe waiting free =>
          cases hcall
          refine ⟨rfl, rfl, fun hclosed => ?_⟩
          simp [hclosed] at waiting
      | admitted closed =>
          cases hcall
          exact ⟨rfl, rfl, fun _ => rfl⟩
    · exact .inl (by simpa [hij] using hcall)
  · obtain rfl : calls' = Function.update s.calls j .ended := hcalls
    by_cases hij : i = j
    · subst hij
      simp at hcall
    · exact .inl (by simpa [hij] using hcall)

/-- A call of an earlier generation changes nothing when it ends. -/
theorem breaker_of_past {i : Nat} {ending : Ending} {now : T} {a : Admission} (h : s.Sound cfg)
    (hcall : s.calls i = .inFlight a) (hpast : a.generation < s.breaker.generation)
    (hstep : s.step cfg (.leave i ending now) = some s') : s'.breaker = s.breaker := by
  have hprobe : s.breaker.isCurrentProbe a = false := by
    by_contra hp
    obtain ⟨t, ht, -, -⟩ := Breaker.isCurrentProbe_iff.mp (by simpa using hp)
    obtain ⟨g, t'⟩ := a
    obtain rfl : t' = some t := ht
    have hg := (h.held i g t hcall).2.2
    simp only at hpast
    omega
  have hclosed : s.breaker.isCurrentClosedCall a = false := by
    by_contra hc
    obtain ⟨-, -, hg⟩ := Breaker.isCurrentClosedCall_iff.mp (by simpa using hc)
    omega
  obtain ⟨b', calls'⟩ := s'
  rcases step_cases hstep with ⟨_, _, _, heq, -⟩ | ⟨_, _, _, a', heq, hcall', hb, -⟩
  · cases heq
  · cases heq
    rw [hcall] at hcall'
    cases hcall'
    have hb : Breaker.Left cfg now a s.breaker ending b' := hb
    cases hb with
    | closes probe heals => simp [hprobe] at probe
    | trips due => simp [hprobe, hclosed] at due
    | releases probe silent => simp [hprobe] at probe
    | resets current heals => simp [hclosed] at current
    | counts current below => simp [hclosed] at current
    | stays other idle => rfl

/-! ## Stale completions -/

/-- The steps so far admitted the call, and tripped or closed the breaker
since. -/
def Stale (cfg : BreakerConfig T) (steps : List (BreakerStep T)) (i : Nat) : Prop :=
  ∃ before now between turn after s₁ s₂,
    steps = before ++ .enter i now :: between ++ turn :: after ∧
    start.run cfg (before ++ .enter i now :: between) = some s₁ ∧
    s₁.step cfg turn = some s₂ ∧ (s₁.Trips s₂ ∨ s₁.Closes s₂)

theorem not_waiting_step {step : BreakerStep T} {i : Nat} (hstep : s.step cfg step = some s')
    (hcall : s.calls i ≠ .waiting) : s'.calls i ≠ .waiting := by
  rcases step_cases hstep with
    ⟨j, now, answer, -, hwait, -, hcalls⟩ | ⟨j, ending, now, a, -, -, -, hcalls⟩
  · rw [hcalls]
    by_cases hij : i = j
    · subst hij
      exact absurd hwait hcall
    · simpa [hij] using hcall
  · rw [hcalls]
    by_cases hij : i = j
    · simp [hij]
    · simpa [hij] using hcall

theorem not_waiting_run {steps : List (BreakerStep T)} {i : Nat}
    (hrun : s.run cfg steps = some s') (hcall : s.calls i ≠ .waiting) :
    s'.calls i ≠ .waiting := by
  induction steps generalizing s with
  | nil =>
      cases hrun
      exact hcall
  | cons step steps ih =>
      rw [run_cons] at hrun
      obtain ⟨s₁, hstep, hrest⟩ := Option.bind_eq_some_iff.mp hrun
      exact ih hrest (not_waiting_step hstep hcall)

/-- A call that has come in keeps its admission as long as it is in
flight, and the generations only grow. -/
theorem inFlight_run {steps : List (BreakerStep T)} {i : Nat} {a : Admission}
    (hrun : s.run cfg steps = some s') (hcome : s.calls i ≠ .waiting)
    (hcall : s'.calls i = .inFlight a) :
    s.calls i = .inFlight a ∧ s.breaker.generation ≤ s'.breaker.generation := by
  induction steps generalizing s with
  | nil =>
      cases hrun
      exact ⟨hcall, Nat.le_refl _⟩
  | cons step steps ih =>
      rw [run_cons] at hrun
      obtain ⟨s₁, hstep, hrest⟩ := Option.bind_eq_some_iff.mp hrun
      obtain ⟨hmid, hgen⟩ := ih hrest (not_waiting_step hstep hcome)
      rcases inFlight_step hstep hmid with hfirst | ⟨-, hwait, -⟩
      · exact ⟨hfirst, Nat.le_trans (generation_le_step hstep) hgen⟩
      · exact absurd hwait hcome

theorem not_waiting_of_enter {i : Nat} {now : T} (hstep : s.step cfg (.enter i now) = some s') :
    s'.calls i ≠ .waiting := by
  rcases step_cases hstep with ⟨_, _, answer, heq, -, -, hcalls⟩ | ⟨_, _, _, _, heq, -⟩
  · cases heq
    rw [hcalls, Function.update_self]
    cases answer with
    | ok admission => simp [CallState.ofAnswer]
    | error reason => simp [CallState.ofAnswer]
  · cases heq

/-- A stale call in flight is of an earlier generation. -/
theorem Stale.past {steps : List (BreakerStep T)} {i : Nat} {a : Admission}
    (h : Stale cfg steps i) (hrun : start.run cfg steps = some s)
    (hcall : s.calls i = .inFlight a) : a.generation < s.breaker.generation := by
  obtain ⟨before, now, between, turn, after, s₁, s₂, rfl, hs₁, hturn, hends⟩ := h
  -- the run after the turning step
  rw [run_append, hs₁, Option.bind_some, run_cons, hturn, Option.bind_some] at hrun
  -- the call was in flight before the turning step, with the same admission
  have hcome : s₁.calls i ≠ .waiting := by
    rw [run_append] at hs₁
    obtain ⟨s₀, -, hrest⟩ := Option.bind_eq_some_iff.mp hs₁
    rw [run_cons] at hrest
    obtain ⟨s₀', henter, hbetween⟩ := Option.bind_eq_some_iff.mp hrest
    exact not_waiting_run hbetween (not_waiting_of_enter henter)
  obtain ⟨hcall₂, hgen⟩ := inFlight_run hrun (not_waiting_step hturn hcome) hcall
  have hcall₁ : s₁.calls i = .inFlight a := by
    rcases inFlight_step hturn hcall₂ with hfirst | ⟨-, hwait, -⟩
    · exact hfirst
    · exact absurd hwait hcome
  have hold : a.generation ≤ s₁.breaker.generation := (sound_start.run hs₁).past i a hcall₁
  rcases generation_step hturn with ⟨-, hnext⟩ | ⟨hno, -⟩
  · omega
  · exact absurd hends hno

/-- A completion of a call admitted before the latest trip or close changes
nothing. -/
theorem Stale.breaker_eq {steps : List (BreakerStep T)} {i : Nat} {ending : Ending} {now : T}
    (h : Stale cfg steps i) (hrun : start.run cfg steps = some s)
    (hstep : s.step cfg (.leave i ending now) = some s') : s'.breaker = s.breaker := by
  rcases step_cases hstep with ⟨_, _, _, heq, -⟩ | ⟨_, _, _, a, heq, hcall, -⟩
  · cases heq
  · cases heq
    exact breaker_of_past (sound_start.run hrun) hcall (h.past hrun hcall) hstep

/-! ## A run without its stale completions -/

/-- What a run shows at the steps marked `true`: the breaker after the step
and what became of the call whose step it is. -/
def watch (cfg : BreakerConfig T) :
    BreakerSystem T → List (Bool × BreakerStep T) → Option (List (Breaker T × CallState))
  | _, [] => some []
  | s, (kept, step) :: rest => do
    let s' ← s.step cfg step
    let later ← watch cfg s' rest
    return if kept then (s'.breaker, s'.calls step.call) :: later else later

/-- The steps that are not kept are stale completions, each at its place in
the run that begins with `past`. -/
def DropsStale (cfg : BreakerConfig T) :
    List (BreakerStep T) → List (Bool × BreakerStep T) → Prop
  | _, [] => True
  | past, (kept, step) :: rest =>
    (kept = false → ∃ i ending now, step = .leave i ending now ∧ Stale cfg past i) ∧
      DropsStale cfg (past ++ [step]) rest

/-- The run with the stale completions (`s`) and the one without: a call
that is over in the first may still be in flight in the second. -/
structure Ahead (s p : BreakerSystem T) : Prop where
  breaker : p.breaker = s.breaker
  calls : ∀ i, p.calls i = s.calls i ∨ s.calls i = .ended

/-- A kept step does the same in both runs. -/
theorem Ahead.step {p : BreakerSystem T} {step : BreakerStep T} (h : s.Ahead p)
    (hstep : s.step cfg step = some s') :
    ∃ p', p.step cfg step = some p' ∧ s'.Ahead p' ∧
      p'.calls step.call = s'.calls step.call := by
  obtain ⟨hbreaker, hcalls⟩ := h
  obtain ⟨b, calls⟩ := p
  obtain rfl : b = s.breaker := hbreaker
  -- whatever the step makes of its call, the calls agree after it
  have hupdate : ∀ i call j, Function.update calls i call j = Function.update s.calls i call j ∨
      Function.update s.calls i call j = .ended := by
    intro i call j
    by_cases hji : j = i
    · subst hji
      exact .inl (by simp)
    · simpa [hji] using hcalls j
  cases step with
  | enter i now =>
      cases hcall : s.calls i with
      | waiting =>
          have hp : calls i = .waiting := by simpa [hcall] using hcalls i
          simp only [BreakerSystem.step, hcall, Option.some.injEq] at hstep
          subst hstep
          refine ⟨⟨(s.breaker.enter cfg now i).2,
            Function.update calls i (.ofAnswer (s.breaker.enter cfg now i).1)⟩, ?_,
            ⟨rfl, hupdate i _⟩, ?_⟩
          · simp only [BreakerSystem.step, hp]
          · simp [BreakerStep.call]
      | _ => simp [BreakerSystem.step, hcall] at hstep
  | leave i ending now =>
      cases hcall : s.calls i with
      | inFlight a =>
          have hp : calls i = .inFlight a := by simpa [hcall] using hcalls i
          simp only [BreakerSystem.step, hcall, Option.some.injEq] at hstep
          subst hstep
          refine ⟨⟨s.breaker.leave cfg now a ending, Function.update calls i .ended⟩, ?_,
            ⟨rfl, hupdate i _⟩, ?_⟩
          · simp only [BreakerSystem.step, hp]
          · simp [BreakerStep.call]
      | _ => simp [BreakerSystem.step, hcall] at hstep

/-- A stale completion that is left out is not missed. -/
theorem Ahead.drop {p : BreakerSystem T} {i : Nat} {ending : Ending} {now : T} (h : s.Ahead p)
    (hstep : s.step cfg (.leave i ending now) = some s') (hsame : s'.breaker = s.breaker) :
    s'.Ahead p := by
  refine ⟨by rw [h.breaker, hsame], fun j => ?_⟩
  rcases step_cases hstep with ⟨_, _, _, heq, -⟩ | ⟨_, _, _, _, heq, -, -, hcalls⟩
  · cases heq
  · cases heq
    rw [hcalls]
    by_cases hji : j = i
    · simp [hji]
    · simpa [hji] using h.calls j

theorem watch_kept {past : List (BreakerStep T)} {marked : List (Bool × BreakerStep T)}
    {p : BreakerSystem T} {shown : List (Breaker T × CallState)}
    (hpast : start.run cfg past = some s) (hdrops : DropsStale cfg past marked)
    (hahead : s.Ahead p) (hwatch : watch cfg s marked = some shown) :
    watch cfg p (marked.filter (·.1)) = some shown := by
  induction marked generalizing s p past shown with
  | nil => exact hwatch
  | cons first rest ih =>
      obtain ⟨kept, step⟩ := first
      simp only [watch, Option.bind_eq_bind, Option.bind_eq_some_iff] at hwatch
      obtain ⟨s₁, hstep, later, hlater, hshown⟩ := hwatch
      have hpast₁ : start.run cfg (past ++ [step]) = some s₁ := by
        rw [run_concat, hpast]
        exact hstep
      cases kept with
      | true =>
          obtain ⟨p₁, hp₁, hahead₁, hcall⟩ := hahead.step hstep
          have hrest := ih hpast₁ hdrops.2 hahead₁ hlater
          simp only [List.filter_cons_of_pos, watch, hp₁, hrest, Option.bind_eq_bind,
            Option.bind_some, ← hshown, hcall, hahead₁.breaker]
      | false =>
          obtain ⟨i, ending, now, rfl, hstale⟩ := hdrops.1 rfl
          have hsame : s₁.breaker = s.breaker := hstale.breaker_eq hpast hstep
          have hrest := ih hpast₁ hdrops.2 (hahead.drop hstep hsame) hlater
          cases hshown
          simpa using hrest

end BreakerSystem

/-! ## The trip rule -/

namespace BreakerSystem

variable {T : Type} {s s' : BreakerSystem T}

/-- The calls that a CLOSED period has admitted so far, and how many of
those that are over failed in a row. -/
structure Period where
  admitted : List Nat
  streak : Nat

/-- What a step means to its period. -/
def Period.note (p : Period) : BreakerStep T → Period
  | .enter i _ => { p with admitted := i :: p.admitted }
  | .leave i ending _ =>
    if i ∈ p.admitted then
      match ending with
      | .failure => { p with streak := p.streak + 1 }
      | .success => { p with streak := 0 }
      | .nonFailure => { p with streak := 0 }
      | .classifierRaised => p
      | .cancelled => p
      | .baseException => p
    else
      p

/-- What the steps of a period come to. -/
def Period.ofSteps (steps : List (BreakerStep T)) : Period :=
  steps.foldl Period.note ⟨[], 0⟩

/-- The breaker counts the streak, and the generation tells the calls that
the period has admitted. -/
structure Period.Tracks (p : Period) (s : BreakerSystem T) : Prop where
  count : s.breaker.failureCount = p.streak
  current : ∀ i a, s.calls i = .inFlight a →
    (i ∈ p.admitted ↔ a.probeToken = none ∧ a.generation = s.breaker.generation)

theorem Period.note_silent {p : Period} {i : Nat} {ending : Ending} {now : T}
    (h : ending.silent = true) : p.note (.leave i ending now) = p := by
  unfold note
  cases ending with
  | success => cases h
  | failure => cases h
  | nonFailure => cases h
  | classifierRaised => simp
  | cancelled => simp
  | baseException => simp

theorem Period.note_heals {p : Period} {i : Nat} {ending : Ending} {now : T}
    (hi : i ∈ p.admitted) (h : ending.heals = true) :
    p.note (.leave i ending now) = { p with streak := 0 } := by
  unfold note
  cases ending with
  | success => simp [hi]
  | nonFailure => simp [hi]
  | failure => cases h
  | classifierRaised => cases h
  | cancelled => cases h
  | baseException => cases h

theorem Period.note_other {p : Period} {i : Nat} {ending : Ending} {now : T}
    (hi : i ∉ p.admitted) : p.note (.leave i ending now) = p := by
  simp [note, hi]

/-- In a CLOSED breaker, the call was admitted in this period exactly when
the breaker takes it for one of its own. -/
theorem Period.Tracks.current_iff {p : Period} {i : Nat} {a : Admission} (h : p.Tracks s)
    (hclosed : s.breaker.state = .closed) (hcall : s.calls i = .inFlight a) :
    s.breaker.isCurrentClosedCall a = true ↔ i ∈ p.admitted := by
  rw [h.current i a hcall, Breaker.isCurrentClosedCall_iff]
  simp [hclosed, eq_comm]

theorem Period.admitted_note_leave {p : Period} {i : Nat} {ending : Ending} {now : T} :
    (p.note (.leave i ending now)).admitted = p.admitted := by
  by_cases hi : i ∈ p.admitted
  · cases ending <;> simp [note, hi]
  · rw [note_other hi]

variable [LE T] [Zero T] {cfg : BreakerConfig T}

/-- What the end of a call can be within a CLOSED period. -/
theorem Period.Tracks.leave {p : Period} {i : Nat} {a : Admission} {ending : Ending} {now : T}
    {b' : Breaker T} (h : p.Tracks s) (hclosed : s.breaker.state = .closed)
    (hcall : s.calls i = .inFlight a) (hb : Breaker.Left cfg now a s.breaker ending b') :
    i ∈ p.admitted ∧ ending = .failure ∧ cfg.failMax ≤ p.streak + 1 ∧ b'.state = .opened ∨
    ¬ (i ∈ p.admitted ∧ ending = .failure ∧ cfg.failMax ≤ p.streak + 1) ∧
      b' = { s.breaker with failureCount := (p.note (.leave i ending now)).streak } := by
  have hcurrent := h.current_iff hclosed hcall
  have hprobe : s.breaker.isCurrentProbe a = false := by simp [Breaker.isCurrentProbe, hclosed]
  cases hb with
  | closes probe heals => simp [hprobe] at probe
  | releases probe silent => simp [hprobe] at probe
  | trips due =>
      rcases due with probe | ⟨current, hmax⟩
      · simp [hprobe] at probe
      · rw [h.count] at hmax
        exact .inl ⟨hcurrent.mp current, rfl, hmax, rfl⟩
  | resets current heals =>
      refine .inr ⟨?_, ?_⟩
      · rintro ⟨-, rfl, -⟩
        cases heals
      · rw [Period.note_heals (hcurrent.mp current) heals]
  | counts current below =>
      rw [h.count] at below ⊢
      refine .inr ⟨?_, ?_⟩
      · rintro ⟨-, -, hmax⟩
        omega
      · simp [Period.note, hcurrent.mp current]
  | stays other idle =>
      have hsame : p.note (.leave i ending now) = p := by
        rcases idle with hother | silent
        · refine Period.note_other fun hi => ?_
          rw [hcurrent.mpr hi] at hother
          cases hother
        · exact Period.note_silent silent
      refine .inr ⟨?_, ?_⟩
      · rintro ⟨hi, rfl, -⟩
        rcases idle with hother | silent
        · rw [hcurrent.mpr hi] at hother
          cases hother
        · cases silent
      · rw [hsame, ← h.count]

variable [Sub T] [DecidableLE T]

/-- A CLOSED period begins with the breaker, or when a probe closes it. -/
def PeriodBegins (cfg : BreakerConfig T) (s₀ : BreakerSystem T) : Prop :=
  s₀ = start ∨ ∃ steps s step, start.run cfg steps = some s ∧
    s.step cfg step = some s₀ ∧ s.Closes s₀

/-- The breaker is CLOSED all along. -/
def StaysClosed (cfg : BreakerConfig T) (s₀ : BreakerSystem T) (steps : List (BreakerStep T)) :
    Prop :=
  ∀ part s, part <+: steps → s₀.run cfg part = some s → s.breaker.state = .closed

theorem tracks_begin (h : PeriodBegins cfg s) : (⟨[], 0⟩ : Period).Tracks s := by
  rcases h with rfl | ⟨steps, s₀, step, hrun, hstep, hclose⟩
  · refine ⟨rfl, ?_⟩
    intro i a hcall
    cases hcall
  · have hsound : s₀.Sound cfg := sound_start.run hrun
    -- whoever is in flight came before the close
    have hold : ∀ i a, s.calls i = .inFlight a → a.generation < s.breaker.generation := by
      intro i a hcall
      rcases generation_step hstep with ⟨-, hnext⟩ | ⟨hno, -⟩
      · rcases inFlight_step hstep hcall with hfirst | ⟨-, -, -, hsame, -⟩
        · have hle := hsound.past i a hfirst
          omega
        · omega
      · exact absurd (.inr hclose) hno
    refine ⟨?_, fun i a hcall => ?_⟩
    · obtain ⟨b', calls'⟩ := s
      rcases step_cases hstep with
        ⟨i, now, answer, -, -, hb, -⟩ | ⟨i, ending, now, a, -, -, hb, -⟩
      · have hb : Breaker.Entered cfg now i s₀.breaker answer b' := hb
        cases hb with
        | refused opened hot => exact absurd hclose.2 hclose.1
        | probing waiting busy => cases hclose.2
        | probe waiting free => cases hclose.2
        | admitted closed => exact absurd closed hclose.1
      · have hb : Breaker.Left cfg now a s₀.breaker ending b' := hb
        cases hb with
        | closes probe heals => rfl
        | trips due => cases hclose.2
        | releases probe silent => exact absurd hclose.2 hclose.1
        | resets current heals => exact absurd hclose.2 hclose.1
        | counts current below => exact absurd hclose.2 hclose.1
        | stays other idle => exact absurd hclose.2 hclose.1
    · have hlt := hold i a hcall
      constructor
      · intro hi
        cases hi
      · rintro ⟨-, hgen⟩
        omega

/-- The period goes on with a step that leaves the breaker CLOSED. -/
theorem Period.Tracks.step {p : Period} {step : BreakerStep T} (h : p.Tracks s)
    (hclosed : s.breaker.state = .closed) (hstep : s.step cfg step = some s')
    (hclosed' : s'.breaker.state = .closed) : (p.note step).Tracks s' := by
  obtain ⟨b', calls'⟩ := s'
  rcases step_cases hstep with
    ⟨i, now, answer, rfl, hwait, hb, hcalls⟩ | ⟨i, ending, now, a, rfl, hcall, hb, hcalls⟩
  · obtain rfl : calls' = Function.update s.calls i (.ofAnswer answer) := hcalls
    have hb : Breaker.Entered cfg now i s.breaker answer b' := hb
    cases hb with
    | refused opened hot => simp [hclosed] at opened
    | probing waiting busy => simp [hclosed] at waiting
    | probe waiting free => simp [hclosed] at waiting
    | admitted closed =>
        -- a call in flight is the new one, or another that was in flight before
        have hflight : ∀ j a, Function.update s.calls i
            (.inFlight ⟨s.breaker.generation, none⟩) j = .inFlight a →
            j = i ∧ a = ⟨s.breaker.generation, none⟩ ∨ j ≠ i ∧ s.calls j = .inFlight a := by
          intro j a hj
          by_cases hji : j = i
          · subst hji
            rw [Function.update_self] at hj
            cases hj
            exact .inl ⟨rfl, rfl⟩
          · exact .inr ⟨hji, by simpa [hji] using hj⟩
        refine ⟨h.count, fun j a hj => ?_⟩
        rcases hflight j a hj with ⟨rfl, rfl⟩ | ⟨hji, hj⟩
        · simp [Period.note]
        · simpa [Period.note, hji] using h.current j a hj
  · obtain rfl : calls' = Function.update s.calls i .ended := hcalls
    have hb : Breaker.Left cfg now a s.breaker ending b' := hb
    -- a call still in flight is another one
    have hother : ∀ j a', Function.update s.calls i .ended j = .inFlight a' →
        s.calls j = .inFlight a' := by
      intro j a' hj
      by_cases hji : j = i
      · simp [hji] at hj
      · simpa [hji] using hj
    rcases h.leave hclosed hcall hb with ⟨-, -, -, hopen⟩ | ⟨-, rfl⟩
    · rw [show b'.state = .closed from hclosed'] at hopen
      cases hopen
    · refine ⟨rfl, fun j a' hj => ?_⟩
      rw [Period.admitted_note_leave]
      exact h.current j a' (hother j a' hj)

theorem tracks_run {s₀ : BreakerSystem T} {steps : List (BreakerStep T)}
    (hbegin : PeriodBegins cfg s₀) (hclosed : StaysClosed cfg s₀ steps)
    (hrun : s₀.run cfg steps = some s) : (Period.ofSteps steps).Tracks s := by
  induction steps using List.reverseRecOn generalizing s with
  | nil =>
      cases hrun
      exact tracks_begin hbegin
  | append_singleton steps step ih =>
      have hpart : StaysClosed cfg s₀ steps :=
        fun part s hpart => hclosed part s (hpart.trans (List.prefix_append steps [step]))
      have hend := hclosed (steps ++ [step]) s (List.prefix_refl _) hrun
      rw [run_concat] at hrun
      obtain ⟨s₁, hs₁, hstep⟩ := Option.bind_eq_some_iff.mp hrun
      have hmid := hpart steps s₁ (List.prefix_refl _) hs₁
      have hnote : Period.ofSteps (steps ++ [step]) = (Period.ofSteps steps).note step := by
        simp [Period.ofSteps]
      rw [hnote]
      exact (ih hpart hs₁).step hmid hstep hend

theorem PeriodBegins.sound {s₀ : BreakerSystem T} (h : PeriodBegins cfg s₀) : s₀.Sound cfg := by
  rcases h with rfl | ⟨steps, s, step, hrun, hstep, -⟩
  · exact sound_start
  · exact (sound_start.run hrun).step hstep

/-- Within a CLOSED period a completion trips the breaker when it is the
`fail_max`-th failure in a row, and only then. -/
theorem trips_iff {s₀ : BreakerSystem T} {steps : List (BreakerStep T)} {i : Nat}
    {ending : Ending} {now : T} (hbegin : PeriodBegins cfg s₀)
    (hclosed : StaysClosed cfg s₀ steps) (hrun : s₀.run cfg steps = some s)
    (hstep : s.step cfg (.leave i ending now) = some s') :
    s.Trips s' ↔ i ∈ (Period.ofSteps steps).admitted ∧ ending = .failure ∧
      (Period.ofSteps steps).streak + 1 = cfg.failMax := by
  have htracks := tracks_run hbegin hclosed hrun
  have hstate : s.breaker.state = .closed := hclosed steps s (List.prefix_refl _) hrun
  have hbelow : (Period.ofSteps steps).streak < cfg.failMax := by
    rw [← htracks.count]
    exact ((hbegin.sound.run hrun).closed hstate).1
  obtain ⟨b', calls'⟩ := s'
  rcases step_cases hstep with ⟨_, _, _, heq, -⟩ | ⟨_, _, _, a, heq, hcall, hb, -⟩
  · cases heq
  · cases heq
    have hb : Breaker.Left cfg now a s.breaker ending b' := hb
    rcases htracks.leave hstate hcall hb with ⟨hi, hfail, hmax, hopen⟩ | ⟨hno, hsame⟩
    · constructor
      · intro _
        exact ⟨hi, hfail, by omega⟩
      · intro _
        exact ⟨by simp [hstate], hopen⟩
    · constructor
      · rintro ⟨-, hopen⟩
        simp [hsame, hstate] at hopen
      · rintro ⟨hi, hfail, hmax⟩
        exact absurd ⟨hi, hfail, by omega⟩ hno

/-- Stale completions do not matter, and the trip rule is exact. -/
theorem breaker_periods_exact (cfg : BreakerConfig T) :
    (∀ steps s i ending now s', start.run cfg steps = some s → Stale cfg steps i →
      s.step cfg (.leave i ending now) = some s' → s'.breaker = s.breaker) ∧
    (∀ marked shown, DropsStale cfg [] marked → watch cfg start marked = some shown →
      watch cfg start (marked.filter (·.1)) = some shown) ∧
    ∀ s₀ steps s i ending now s', PeriodBegins cfg s₀ → StaysClosed cfg s₀ steps →
      s₀.run cfg steps = some s → s.step cfg (.leave i ending now) = some s' →
      (s.Trips s' ↔ i ∈ (Period.ofSteps steps).admitted ∧ ending = .failure ∧
        (Period.ofSteps steps).streak + 1 = cfg.failMax) := by
  refine ⟨?_, ?_, ?_⟩
  · intro steps s i ending now s' hrun hstale hstep
    exact hstale.breaker_eq hrun hstep
  · intro marked shown hdrops hwatch
    exact watch_kept rfl hdrops ⟨rfl, fun i => .inl rfl⟩ hwatch
  · intro s₀ steps s i ending now s' hbegin hclosed hrun hstep
    exact trips_iff hbegin hclosed hrun hstep

namespace Sample

/-- Two failures in a row trip. -/
def pairConfig : BreakerConfig Int where
  failMax := 2
  recoveryTimeout := 5
  failMaxPositive := by decide
  recoveryTimeoutPositive := breakerConfig.recoveryTimeoutPositive

/-- Three calls come in and two of them fail; a probe closes the breaker
again. -/
def slowSteps : List (BreakerStep Int) :=
  [.enter 0 0, .enter 1 0, .enter 2 0, .leave 0 .failure 1, .leave 1 .failure 2,
    .enter 3 8, .leave 3 .success 9]

theorem stale_slow : Stale pairConfig slowSteps 2 :=
  ⟨[.enter 0 0, .enter 1 0], 0, [.leave 0 .failure 1], .leave 1 .failure 2,
    [.enter 3 8, .leave 3 .success 9], _, _, rfl, rfl, rfl, .inl ⟨by decide, rfl⟩⟩

end Sample

/-- The third call fails after all that, and the run shows the same without
it; a first failure alone does not trip. -/
theorem breaker_periods_exact_slow :
    (∃ s s' : BreakerSystem Int,
      start.run Sample.pairConfig Sample.slowSteps = some s ∧
      s.step Sample.pairConfig (.leave 2 .failure 10) = some s' ∧ s'.breaker = s.breaker) ∧
    (∃ shown, watch Sample.pairConfig start
        (Sample.slowSteps.map (Prod.mk true) ++ [(false, .leave 2 .failure 10)]) = some shown ∧
      watch Sample.pairConfig start (Sample.slowSteps.map (Prod.mk true)) = some shown) ∧
    ∃ s s' : BreakerSystem Int,
      start.run Sample.pairConfig [.enter 0 0] = some s ∧
      s.step Sample.pairConfig (.leave 0 .failure 1) = some s' ∧ ¬ s.Trips s' := by
  obtain ⟨hstale, hdrop, htrip⟩ := breaker_periods_exact Sample.pairConfig
  refine ⟨?_, ?_, ?_⟩
  · exact ⟨_, _, rfl, rfl, hstale Sample.slowSteps _ 2 .failure 10 _ rfl Sample.stale_slow rfl⟩
  · obtain ⟨shown, hshown⟩ : ∃ shown, watch Sample.pairConfig start
        (Sample.slowSteps.map (Prod.mk true) ++ [(false, .leave 2 .failure 10)]) = some shown :=
      ⟨_, rfl⟩
    refine ⟨shown, hshown, hdrop _ shown ?_ hshown⟩
    simp only [Sample.slowSteps, List.map_cons, List.map_nil, List.cons_append, List.nil_append,
      DropsStale, Bool.true_eq_false, false_implies, true_and, true_implies, and_true]
    exact ⟨2, .failure, 10, rfl, Sample.stale_slow⟩
  · refine ⟨_, _, rfl, rfl, fun h => ?_⟩
    have hclosed : StaysClosed Sample.pairConfig start [.enter 0 0] := by
      intro part s hpart hrun
      rcases List.prefix_cons_iff.mp hpart with rfl | ⟨rest, rfl, hrest⟩
      · cases hrun
        rfl
      · rw [List.prefix_nil.mp hrest] at hrun
        cases hrun
        rfl
    have hstreak := (htrip start [.enter 0 0] _ 0 .failure 1 _ (.inl rfl) hclosed rfl rfl).mp h
    exact absurd hstreak.2.2 (by decide)

end BreakerSystem

end IdentityService
