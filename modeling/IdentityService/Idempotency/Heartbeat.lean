import IdentityService.Idempotency.Coordinator

/-!
# The heartbeat beside the coordinator

One `IdempotencyCoordinator.execute` is two tasks: the coordinator and, once
a lease is acquired, the heartbeat that renews it. They share two events,
`stop` and `lost_lease`, and take turns at their awaits, so each label below
is what one task does from one await to the next. The durable call and the
hot store answer as they like; a cancelled task may still get the answer it
waits for, when the awaited call holds the cancellation back.

Whatever the hot store does, the caller gets what `execute_once` gave.
-/

namespace IdentityService

/-- The call that ends a lease. -/
inductive HotAttempt where
  | complete (completed : CompletedIdempotencyResult)
  | abandon

/-- Which call ends the lease after `execute_once`: a result is published,
anything else gives the lease back. -/
def hotAttempt : Except Exn ExecutionResult → HotAttempt
  | .error _ => .abandon
  | .ok result =>
    match result.completed with
    | some completed =>
      if result.outcome = .executed ∨ result.outcome = .replay then .complete completed
      else .abandon
    | none => .abandon

/-! ## The two tasks -/

/-- Where `_heartbeat` is suspended. -/
inductive BeatAt where
  | created
  | sleeping
  | renewing
  | finished
deriving DecidableEq

/-- The heartbeat task, the two events, and history: `refused` says that a
`renew` it awaited failed or was refused. -/
structure Heartbeat where
  pos : BeatAt
  cancelled : Bool
  stop : Bool
  lostLease : Bool
  refused : Bool

/-- One await of the heartbeat, and its answer. -/
inductive BeatStep where
  | started
  | slept (answer : Except Exn Unit)
  | renewed (answer : Except Exn Bool)
  | interrupted

namespace Heartbeat

/-- `asyncio.create_task`: the heartbeat has not begun. -/
def create : Heartbeat := ⟨.created, false, false, false, false⟩

/-- The heartbeat is over. -/
def finish (h : Heartbeat) : Heartbeat := { h with pos := .finished }

/-- `lost_lease.set()` and `return`. -/
def lose (h : Heartbeat) : Heartbeat := { h with pos := .finished, lostLease := true }

/-- The test of the loop. -/
def loop (h : Heartbeat) : Heartbeat :=
  if h.stop then h.finish else { h with pos := .sleeping }

/-- The answer of `sleep`. -/
def slept (h : Heartbeat) : Except Exn Unit → Heartbeat
  | .ok _ => if h.stop then h.finish else { h with pos := .renewing }
  | .error x => if x.isException then h.lose else h.finish

/-- The answer of `renew`. -/
def renewed (h : Heartbeat) : Except Exn Bool → Heartbeat
  | .ok true => h.loop
  | .ok false => { h.lose with refused := true }
  | .error x => if x.isException then { h.lose with refused := true } else h.finish

/-- `_heartbeat` from one await to the next. A cancelled task is interrupted
at its await, also at the very first one. -/
def step (h : Heartbeat) : BeatStep → Option Heartbeat
  | .started => if h.pos = .created ∧ h.cancelled = false then some h.loop else none
  | .slept answer => if h.pos = .sleeping then some (h.slept answer) else none
  | .renewed answer => if h.pos = .renewing then some (h.renewed answer) else none
  | .interrupted => if h.pos ≠ .finished ∧ h.cancelled = true then some h.finish else none

/-- `_stop_heartbeat` up to its await. -/
def stopped (h : Heartbeat) : Heartbeat :=
  { h with stop := true, cancelled := h.cancelled || h.pos ≠ .finished }

end Heartbeat

/-- Where `execute` is suspended: in `begin`, in `find_existing`, in
`execute_once`, at the heartbeat it has stopped, in the call that ends the
lease, or at its end. -/
inductive CoordinatorAt where
  | beginning
  | finding
  | executing
  | stopping (out : Except Exn ExecutionResult)
  | finishing (out : Except Exn ExecutionResult)
  | done (out : Except Exn ExecutionResult)

/-- Both tasks, and history: how often `execute_once` was called, how it
ended, and the calls made to end the lease. -/
structure LeaseRun where
  main : CoordinatorAt
  beat : Option Heartbeat
  calls : Nat
  outcomes : List (Except Exn ExecutionResult)
  attempts : List HotAttempt

/-- One await of the coordinator or of its heartbeat, and its answer. -/
inductive LeaseStep where
  | begun (answer : Except Exn BeginResult)
  | found (answer : Except Exn (Option ExecutionResult))
  | executed (out : Except Exn ExecutionResult)
  | joined
  | attempted (answer : Except Exn Bool)
  | beat (b : BeatStep)

namespace LeaseRun

/-- A call of `execute` up to its first await. -/
def start (hotStore : Bool) (leaseSeconds : Int) : LeaseRun :=
  if leaseSeconds ≤ 0 then
    ⟨.done (.error (.valueError "lease_seconds must be positive")), none, 0, [], []⟩
  else if !hotStore then
    ⟨.executing, none, 1, [], []⟩
  else
    ⟨.beginning, none, 0, [], []⟩

/-- What `execute` does with the answer of `begin`. -/
def begun (s : LeaseRun) : Except Exn BeginResult → LeaseRun
  | .error .idempotencyStorageUnavailable => { s with main := .executing, calls := s.calls + 1 }
  | .error x => { s with main := .done (.error x) }
  | .ok ⟨.replay, completed, decision⟩ =>
    { s with main := .done (.ok ⟨.replay, completed, ExecutionResult.replayed decision⟩) }
  | .ok ⟨.conflict, _, _⟩ => { s with main := .done (.ok .conflict) }
  | .ok ⟨.inProgress, _, _⟩ => { s with main := .finding }
  | .ok ⟨.acquired, _, _⟩ =>
    { s with main := .executing, beat := some .create, calls := s.calls + 1 }

/-- The end of `execute_once`: without a lease that is the end, with one the
heartbeat is told to stop. -/
def executed (s : LeaseRun) (out : Except Exn ExecutionResult) : LeaseRun :=
  match s.beat with
  | none => { s with main := .done out, outcomes := s.outcomes ++ [out] }
  | some h =>
    { s with main := .stopping out, beat := some h.stopped, outcomes := s.outcomes ++ [out] }

/-- After `_stop_heartbeat`: a lost lease is left alone. -/
def joined (s : LeaseRun) (h : Heartbeat) (out : Except Exn ExecutionResult) : LeaseRun :=
  if h.lostLease then { s with main := .done out }
  else { s with main := .finishing out, attempts := s.attempts ++ [hotAttempt out] }

/-- After `complete` or `abandon`: only unavailability is caught. -/
def attempted (s : LeaseRun) (out : Except Exn ExecutionResult) : Except Exn Bool → LeaseRun
  | .ok _ => { s with main := .done out }
  | .error .idempotencyStorageUnavailable => { s with main := .done out }
  | .error x => { s with main := .done (.error x) }

/-- An answer, where it is awaited. -/
def step (s : LeaseRun) : LeaseStep → Option LeaseRun
  | .begun answer =>
    match s.main with
    | .beginning => some (s.begun answer)
    | _ => none
  | .found answer =>
    match s.main with
    | .finding => some { s with main := .done (answer.map fun found => found.getD .inProgress) }
    | _ => none
  | .executed out =>
    match s.main with
    | .executing => some (s.executed out)
    | _ => none
  | .joined =>
    match s.main, s.beat with
    | .stopping out, some h => if h.pos = .finished then some (s.joined h out) else none
    | _, _ => none
  | .attempted answer =>
    match s.main with
    | .finishing out => some (s.attempted out answer)
    | _ => none
  | .beat b =>
    match s.beat with
    | some h => (h.step b).map fun h' => { s with beat := some h' }
    | none => none

/-- A run of one call. -/
def run (s : LeaseRun) (steps : List LeaseStep) : Option LeaseRun := steps.foldlM step s

end LeaseRun

/-- The answers of a hot store that fails: `begin` acquires or is
unavailable, `renew` answers or raises an `Exception`, `complete` and
`abandon` answer or are unavailable. -/
def HotFault : LeaseStep → Prop
  | .begun (.ok answer) => answer.action = .acquired
  | .begun (.error x) => x = .idempotencyStorageUnavailable
  | .attempted (.error x) => x = .idempotencyStorageUnavailable
  | .beat (.slept (.error x)) => x.isException = true
  | .beat (.renewed (.error x)) => x.isException = true
  | _ => True

/-! ## The heartbeat on its own -/

namespace Heartbeat

variable {h h' : Heartbeat} {b : BeatStep}

/-- A refused renewal loses the lease, a lost lease ends the task, and a
task told to stop has ended or is cancelled. -/
structure Sound (h : Heartbeat) : Prop where
  refused : h.refused = true → h.lostLease = true
  lost : h.lostLease = true → h.pos = .finished
  stopped : h.stop = true → h.pos = .finished ∨ h.cancelled = true

theorem sound_create : create.Sound := ⟨by decide, by decide, by decide⟩

theorem step_pos (hstep : h.step b = some h') : h.pos ≠ .finished := by
  cases b with
  | started =>
    simp only [step, Option.ite_none_right_eq_some] at hstep
    simp [hstep.1.1]
  | slept answer =>
    simp only [step, Option.ite_none_right_eq_some] at hstep
    simp [hstep.1]
  | renewed answer =>
    simp only [step, Option.ite_none_right_eq_some] at hstep
    simp [hstep.1]
  | interrupted =>
    simp only [step, Option.ite_none_right_eq_some] at hstep
    exact hstep.1.1

/-- Everything one step of the heartbeat can do: it goes on, if it has not
been told to stop; it ends; or it ends with the lease lost. -/
theorem step_cases (hstep : h.step b = some h') :
    (h.stop = false ∧ ∃ pos, h' = { h with pos := pos }) ∨
    h' = h.finish ∨ h' = h.lose ∨ h' = { h.lose with refused := true } := by
  have hloop : (h.stop = false ∧ ∃ pos, h.loop = { h with pos := pos }) ∨ h.loop = h.finish := by
    unfold loop
    cases hstop : h.stop with
    | false => exact .inl ⟨rfl, _, rfl⟩
    | true => exact .inr rfl
  cases b with
  | started =>
    simp only [step, Option.ite_none_right_eq_some, Option.some.injEq] at hstep
    rw [← hstep.2]
    exact hloop.imp_right .inl
  | slept answer =>
    simp only [step, Option.ite_none_right_eq_some, Option.some.injEq] at hstep
    rw [← hstep.2]
    cases answer with
    | ok a =>
      cases hstop : h.stop with
      | false => exact .inl ⟨rfl, .renewing, by simp [slept, hstop]⟩
      | true => exact .inr (.inl (by simp [slept, hstop]))
    | error x =>
      by_cases hx : x.isException = true
      · exact .inr (.inr (.inl (by simp [slept, hx])))
      · exact .inr (.inl (by simp [slept, hx]))
  | renewed answer =>
    simp only [step, Option.ite_none_right_eq_some, Option.some.injEq] at hstep
    rw [← hstep.2]
    cases answer with
    | ok kept =>
      cases kept with
      | true => exact hloop.imp_right .inl
      | false => exact .inr (.inr (.inr rfl))
    | error x =>
      by_cases hx : x.isException = true
      · exact .inr (.inr (.inr (by simp [renewed, hx])))
      · exact .inr (.inl (by simp [renewed, hx]))
  | interrupted =>
    simp only [step, Option.ite_none_right_eq_some, Option.some.injEq] at hstep
    exact .inr (.inl hstep.2.symm)

theorem Sound.step (hs : h.Sound) (hstep : h.step b = some h') : h'.Sound := by
  have hkept : h.lostLease = false := by
    cases hlost : h.lostLease with
    | false => rfl
    | true => exact absurd (hs.lost hlost) (step_pos hstep)
  have hnot : h.refused = false := by
    cases hrefused : h.refused with
    | false => rfl
    | true => simp [hs.refused hrefused] at hkept
  rcases step_cases hstep with ⟨hstop, pos, rfl⟩ | rfl | rfl | rfl
  · exact ⟨by simp [hnot], by simp [hkept], by simp [hstop]⟩
  · exact ⟨by simp [finish, hnot], by simp [finish], by simp [finish]⟩
  · exact ⟨by simp [lose], by simp [lose], by simp [lose]⟩
  · exact ⟨by simp [lose], by simp [lose], by simp [lose]⟩

theorem Sound.stop (hs : h.Sound) : h.stopped.Sound := by
  refine ⟨hs.refused, hs.lost, fun _ => ?_⟩
  by_cases hpos : h.pos = .finished
  · exact .inl hpos
  · exact .inr (by simp [Heartbeat.stopped, hpos])

/-- A heartbeat that was told to stop makes one more step. -/
theorem step_of_stop (hstop : h.stop = true) (hstep : h.step b = some h') :
    h'.pos = .finished ∧ h'.stop = true := by
  rcases step_cases hstep with ⟨hgoes, -⟩ | rfl | rfl | rfl
  · simp [hstop] at hgoes
  · exact ⟨rfl, hstop⟩
  · exact ⟨rfl, hstop⟩
  · exact ⟨rfl, hstop⟩

end Heartbeat

/-! ## Runs -/

namespace LeaseRun

variable {s s' : LeaseRun} {l : LeaseStep}

/-- Where a run can be when only the hot store fails. -/
inductive Phase : LeaseRun → Prop where
  | beginning : Phase ⟨.beginning, none, 0, [], []⟩
  | executing {beat : Option Heartbeat} (sound : ∀ h, beat = some h → h.Sound) :
      Phase ⟨.executing, beat, 1, [], []⟩
  | stopping {h : Heartbeat} {out : Except Exn ExecutionResult} (sound : h.Sound)
      (stop : h.stop = true) : Phase ⟨.stopping out, some h, 1, [out], []⟩
  | finishing {h : Heartbeat} {out : Except Exn ExecutionResult} (ended : h.pos = .finished)
      (kept : h.refused = false) : Phase ⟨.finishing out, some h, 1, [out], [hotAttempt out]⟩
  | finished {h : Heartbeat} {out : Except Exn ExecutionResult} (ended : h.pos = .finished)
      (kept : h.refused = false) : Phase ⟨.done out, some h, 1, [out], [hotAttempt out]⟩
  | left {beat : Option Heartbeat} {out : Except Exn ExecutionResult}
      (ended : ∀ h, beat = some h → h.pos = .finished) : Phase ⟨.done out, beat, 1, [out], []⟩

theorem phase_start (hotStore : Bool) {leaseSeconds : Int} (hlease : 0 < leaseSeconds) :
    Phase (start hotStore leaseSeconds) := by
  have hle : ¬ leaseSeconds ≤ 0 := by omega
  cases hotStore with
  | false =>
    simp only [start, if_neg hle]
    exact .executing nofun
  | true =>
    simp only [start, if_neg hle]
    exact .beginning

theorem phase_begun {answer : Except Exn BeginResult} (hf : HotFault (.begun answer)) :
    Phase (begun ⟨.beginning, none, 0, [], []⟩ answer) := by
  cases answer with
  | error x =>
    have hx : x = .idempotencyStorageUnavailable := hf
    subst hx
    exact .executing nofun
  | ok answer =>
    obtain ⟨action, completed, decision⟩ := answer
    have haction : action = .acquired := hf
    subst haction
    refine .executing fun h hh => ?_
    cases hh
    exact Heartbeat.sound_create

theorem phase_executed {beat : Option Heartbeat} (hb : ∀ h, beat = some h → h.Sound)
    (out : Except Exn ExecutionResult) : Phase (executed ⟨.executing, beat, 1, [], []⟩ out) := by
  cases beat with
  | none => exact .left nofun
  | some h => exact .stopping (hb h rfl).stop rfl

theorem phase_joined {h : Heartbeat} (hs : h.Sound) (hpos : h.pos = .finished)
    (out : Except Exn ExecutionResult) :
    Phase (joined ⟨.stopping out, some h, 1, [out], []⟩ h out) := by
  unfold joined
  cases hlost : h.lostLease with
  | true => exact .left fun h' hh => by rw [← Option.some.inj hh]; exact hpos
  | false =>
    refine .finishing hpos ?_
    cases hrefused : h.refused with
    | false => rfl
    | true => simp [hs.refused hrefused] at hlost

theorem phase_attempted {h : Heartbeat} (hpos : h.pos = .finished) (hkept : h.refused = false)
    (out : Except Exn ExecutionResult) {answer : Except Exn Bool}
    (hf : HotFault (.attempted answer)) :
    Phase (attempted ⟨.finishing out, some h, 1, [out], [hotAttempt out]⟩ out answer) := by
  cases answer with
  | ok kept => exact .finished hpos hkept
  | error x =>
    have hx : x = .idempotencyStorageUnavailable := hf
    subst hx
    exact .finished hpos hkept

theorem Phase.beat {b : BeatStep} (hp : Phase s) (hstep : s.step (.beat b) = some s') :
    Phase s' := by
  have hidle : ∀ h h' : Heartbeat, h.pos = .finished → h.step b ≠ some h' :=
    fun h h' hpos hh => Heartbeat.step_pos hh hpos
  cases hp with
  | beginning => simp [step] at hstep
  | executing sound =>
    rename_i beat
    cases beat with
    | none => simp [step] at hstep
    | some h =>
      simp only [step, Option.map_eq_some_iff] at hstep
      obtain ⟨h', hh, rfl⟩ := hstep
      refine .executing fun h'' heq => ?_
      rw [← Option.some.inj heq]
      exact (sound h rfl).step hh
  | stopping sound stop =>
    simp only [step, Option.map_eq_some_iff] at hstep
    obtain ⟨h', hh, rfl⟩ := hstep
    exact .stopping (sound.step hh) (Heartbeat.step_of_stop stop hh).2
  | finishing ended kept =>
    simp only [step, Option.map_eq_some_iff] at hstep
    obtain ⟨h', hh, -⟩ := hstep
    exact absurd hh (hidle _ _ ended)
  | finished ended kept =>
    simp only [step, Option.map_eq_some_iff] at hstep
    obtain ⟨h', hh, -⟩ := hstep
    exact absurd hh (hidle _ _ ended)
  | left ended =>
    rename_i beat out
    cases beat with
    | none => simp [step] at hstep
    | some h =>
      simp only [step, Option.map_eq_some_iff] at hstep
      obtain ⟨h', hh, -⟩ := hstep
      exact absurd hh (hidle _ _ (ended h rfl))

/-- A step of either task keeps the phases apart. -/
theorem Phase.step (hp : Phase s) (hf : HotFault l) (hstep : s.step l = some s') : Phase s' := by
  cases l with
  | beat b => exact hp.beat hstep
  | begun answer =>
    cases hp with
    | beginning =>
      cases hstep
      exact phase_begun hf
    | _ => cases hstep
  | found answer => cases hp <;> cases hstep
  | executed out =>
    cases hp with
    | executing sound =>
      cases hstep
      exact phase_executed sound out
    | _ => cases hstep
  | joined =>
    cases hp with
    | stopping sound stop =>
      simp only [LeaseRun.step, Option.ite_none_right_eq_some, Option.some.injEq] at hstep
      rw [← hstep.2]
      exact phase_joined sound hstep.1 _
    | _ => cases hstep
  | attempted answer =>
    cases hp with
    | finishing ended kept =>
      cases hstep
      exact phase_attempted ended kept _ hf
    | _ => cases hstep

theorem Phase.run {steps : List LeaseStep} (hp : Phase s) (hf : ∀ l ∈ steps, HotFault l)
    (hrun : s.run steps = some s') : Phase s' := by
  induction steps generalizing s with
  | nil =>
    cases hrun
    exact hp
  | cons l steps ih =>
    simp only [LeaseRun.run, List.foldlM_cons, Option.bind_eq_bind, Option.bind_eq_some_iff] at hrun
    obtain ⟨t, hstep, hrest⟩ := hrun
    exact ih (hp.step (hf l (by simp)) hstep) (fun k hk => hf k (by simp [hk])) hrest

/-! ## What the caller gets -/

/-- How many steps both tasks still make once `execute_once` has ended. -/
def remaining (s : LeaseRun) : Nat :=
  match s.main, s.beat with
  | .stopping _, some h => if h.pos = .finished then 2 else 3
  | .finishing _, _ => 1
  | _, _ => 0

theorem remaining_le (s : LeaseRun) : s.remaining ≤ 3 := by
  unfold remaining
  split
  · split <;> omega
  · omega
  · omega

theorem remaining_step (hp : Phase s) (hf : HotFault l) (hended : s.outcomes ≠ [])
    (hstep : s.step l = some s') : s'.remaining < s.remaining ∧ s'.outcomes ≠ [] := by
  cases hp with
  | beginning => simp at hended
  | executing sound => simp at hended
  | stopping sound stop =>
    rename_i h out
    cases l with
    | joined =>
      simp only [LeaseRun.step, Option.ite_none_right_eq_some, Option.some.injEq] at hstep
      obtain ⟨hpos, rfl⟩ := hstep
      unfold joined
      split <;> simp [remaining, hpos]
    | beat b =>
      simp only [LeaseRun.step, Option.map_eq_some_iff] at hstep
      obtain ⟨h', hh, rfl⟩ := hstep
      simp [remaining, (Heartbeat.step_of_stop stop hh).1, Heartbeat.step_pos hh]
    | _ => cases hstep
  | finishing ended kept =>
    cases l with
    | attempted answer =>
      cases hstep
      unfold attempted
      split <;> simp [remaining]
    | beat b =>
      simp only [LeaseRun.step, Option.map_eq_some_iff] at hstep
      obtain ⟨h', hh, -⟩ := hstep
      exact absurd ended (Heartbeat.step_pos hh)
    | _ => cases hstep
  | finished ended kept =>
    cases l with
    | beat b =>
      simp only [LeaseRun.step, Option.map_eq_some_iff] at hstep
      obtain ⟨h', hh, -⟩ := hstep
      exact absurd ended (Heartbeat.step_pos hh)
    | _ => cases hstep
  | left ended =>
    cases l with
    | beat b =>
      rename_i beat out
      cases beat with
      | none => cases hstep
      | some h =>
        simp only [LeaseRun.step, Option.map_eq_some_iff] at hstep
        obtain ⟨h', hh, -⟩ := hstep
        exact absurd (ended h rfl) (Heartbeat.step_pos hh)
    | _ => cases hstep

/-- Once `execute_once` has ended, both tasks end too. -/
theorem steps_le_remaining {steps : List LeaseStep} (hp : Phase s)
    (hf : ∀ l ∈ steps, HotFault l) (hended : s.outcomes ≠ [])
    (hrun : s.run steps = some s') : steps.length ≤ s.remaining := by
  induction steps generalizing s with
  | nil => simp
  | cons l steps ih =>
    simp only [LeaseRun.run, List.foldlM_cons, Option.bind_eq_bind, Option.bind_eq_some_iff] at hrun
    obtain ⟨t, hstep, hrest⟩ := hrun
    have hl : HotFault l := hf l (by simp)
    obtain ⟨hlt, hstill⟩ := remaining_step hp hl hended hstep
    have hle := ih (hp.step hl hstep) (fun k hk => hf k (by simp [hk])) hstill hrest
    simp only [List.length_cons]
    omega

/-- Until `execute` has returned, one of the tasks can go on. -/
theorem Phase.enabled (hp : Phase s) (hopen : ∀ out, s.main ≠ .done out) :
    ∃ l s', HotFault l ∧ s.step l = some s' := by
  cases hp with
  | beginning => exact ⟨.begun (.ok .acquired), _, rfl, rfl⟩
  | executing sound => exact ⟨.executed (.ok .conflict), _, trivial, rfl⟩
  | stopping sound stop =>
    rename_i h out
    by_cases hpos : h.pos = .finished
    · exact ⟨.joined, _, trivial, if_pos hpos⟩
    · have hcancelled : h.cancelled = true := (sound.stopped stop).resolve_left hpos
      exact ⟨.beat .interrupted, _, trivial,
        by simp only [LeaseRun.step, Heartbeat.step, if_pos (And.intro hpos hcancelled)]; rfl⟩
  | finishing ended kept => exact ⟨.attempted (.ok true), _, trivial, rfl⟩
  | finished ended kept => exact absurd rfl (hopen _)
  | left ended => exact absurd rfl (hopen _)

/-- A publication is of the result that `execute_once` returned. -/
theorem hotAttempt_complete {out : Except Exn ExecutionResult} {c : CompletedIdempotencyResult}
    (h : hotAttempt out = .complete c) : ∃ r, out = .ok r ∧ r.completed = some c ∧
      (r.outcome = .executed ∨ r.outcome = .replay) := by
  cases out with
  | error x => cases h
  | ok r =>
    refine ⟨r, rfl, ?_⟩
    cases hc : r.completed with
    | none => simp [hotAttempt, hc] at h
    | some completed =>
      simp only [hotAttempt, hc] at h
      split at h
      · rename_i houtcome
        cases h
        exact ⟨rfl, houtcome⟩
      · cases h

/-- A lease is given back only where there is nothing to publish. -/
theorem hotAttempt_abandon {out : Except Exn ExecutionResult} (h : hotAttempt out = .abandon)
    {r : ExecutionResult} (hr : out = .ok r) : r.completed = none := by
  subst hr
  cases hc : r.completed with
  | none => rfl
  | some completed =>
    have houtcome : r.outcome = .executed ∨ r.outcome = .replay :=
      r.decision.mp (by simp [hc])
    simp [hotAttempt, hc, houtcome] at h

/-- What a caller and the hot store see of one `execute`. -/
structure Transparent (s : LeaseRun) : Prop where
  once : s.calls ≤ 1
  returned : ∀ out, s.main = .done out → s.calls = 1 ∧ s.outcomes = [out]
  attemptedOnce : s.attempts.length ≤ 1
  completes : ∀ c, .complete c ∈ s.attempts → ∃ r, s.outcomes = [.ok r] ∧ r.completed = some c ∧
    (r.outcome = .executed ∨ r.outcome = .replay)
  abandons : .abandon ∈ s.attempts → ∃ out, s.outcomes = [out] ∧
    ∀ r, out = .ok r → r.completed = none
  silent : ∀ h, s.beat = some h → h.refused = true → s.attempts = []

theorem transparent_of_attempt {main : CoordinatorAt} {h : Heartbeat}
    {out : Except Exn ExecutionResult} (hkept : h.refused = false)
    (hmain : ∀ out', main = .done out' → out' = out) :
    Transparent ⟨main, some h, 1, [out], [hotAttempt out]⟩ where
  once := Nat.le_refl 1
  returned out' hdone := ⟨rfl, by rw [hmain out' hdone]⟩
  attemptedOnce := Nat.le_refl 1
  completes c hc := by
    obtain ⟨r, rfl, hr⟩ := hotAttempt_complete (List.mem_singleton.mp hc).symm
    exact ⟨r, rfl, hr⟩
  abandons ha := ⟨out, rfl, fun r hr => hotAttempt_abandon (List.mem_singleton.mp ha).symm hr⟩
  silent h' heq hrefused := by
    cases heq
    simp [hkept] at hrefused

theorem transparent_of_none {main : CoordinatorAt} {beat : Option Heartbeat} {calls : Nat}
    {outcomes : List (Except Exn ExecutionResult)} (hcalls : calls ≤ 1)
    (hmain : ∀ out, main = .done out → calls = 1 ∧ outcomes = [out]) :
    Transparent ⟨main, beat, calls, outcomes, []⟩ where
  once := hcalls
  returned := hmain
  attemptedOnce := Nat.zero_le 1
  completes c hc := absurd hc (by simp)
  abandons ha := absurd ha (by simp)
  silent _ _ _ := rfl

theorem Phase.transparent (hp : Phase s) : s.Transparent := by
  cases hp with
  | beginning =>
    refine transparent_of_none (Nat.zero_le 1) fun out hdone => ?_
    cases hdone
  | executing sound =>
    refine transparent_of_none (Nat.le_refl 1) fun out hdone => ?_
    cases hdone
  | stopping sound stop =>
    refine transparent_of_none (Nat.le_refl 1) fun out hdone => ?_
    cases hdone
  | finishing ended kept =>
    refine transparent_of_attempt kept fun out hdone => ?_
    cases hdone
  | finished ended kept =>
    refine transparent_of_attempt kept fun out' hdone => ?_
    cases hdone
    rfl
  | left ended =>
    refine transparent_of_none (Nat.le_refl 1) fun out' hdone => ?_
    cases hdone
    exact ⟨rfl, rfl⟩

/-- Whatever the hot store and the heartbeat do, `execute` gives what its one
`execute_once` gave; the lease is ended at most once, by the call the
outcome asks for, and not at all after a refused renewal. It does end: until
it has, a task can go on, and after `execute_once` at most three steps are
left. -/
theorem hot_faults_transparent (hotStore : Bool) (leaseSeconds : Int) (hlease : 0 < leaseSeconds)
    (steps : List LeaseStep) (hfaults : ∀ l ∈ steps, HotFault l) (s : LeaseRun)
    (hrun : (start hotStore leaseSeconds).run steps = some s) :
    s.Transparent ∧
    ((∀ out, s.main ≠ .done out) → ∃ l s', HotFault l ∧ s.step l = some s') ∧
    (s.outcomes ≠ [] → ∀ more s', (∀ l ∈ more, HotFault l) → s.run more = some s' →
      more.length ≤ 3) := by
  have hp : Phase s := (phase_start hotStore hlease).run hfaults hrun
  refine ⟨hp.transparent, hp.enabled, ?_⟩
  intro hended more s' hmore hrest
  exact Nat.le_trans (steps_le_remaining hp hmore hended hrest) s.remaining_le

namespace Sample

/-- A lease is acquired and renewed once; the heartbeat is interrupted in its
second `sleep`, and the publication finds the store gone. -/
def leaseSteps : List LeaseStep :=
  [.begun (.ok .acquired), .beat .started, .beat (.slept (.ok ())), .beat (.renewed (.ok true)),
    .executed (.error .invalidCredentials), .beat .interrupted, .joined,
    .attempted (.error .idempotencyStorageUnavailable)]

end Sample

theorem hot_faults_transparent_abandoned : ∃ s,
    (start true 60).run Sample.leaseSteps = some s ∧
    s.main = .done (.error .invalidCredentials) ∧ s.outcomes = [.error .invalidCredentials] ∧
    s.attempts = [.abandon] := by
  obtain ⟨s, hrun, hdone, hattempts⟩ : ∃ s, (start true 60).run Sample.leaseSteps = some s ∧
      s.main = .done (.error .invalidCredentials) ∧ s.attempts = [.abandon] :=
    ⟨_, rfl, rfl, rfl⟩
  have hfaults : ∀ l ∈ Sample.leaseSteps, HotFault l := by
    simp [Sample.leaseSteps, HotFault, BeginResult.acquired]
  have h := hot_faults_transparent true 60 (by decide) Sample.leaseSteps hfaults s hrun
  exact ⟨s, hrun, hdone, (h.1.returned _ hdone).2, hattempts⟩

end LeaseRun

/-! ## The coordinator's program -/

variable {B : Business}

/-- The call that ends a lease, with the stage it is counted under. -/
def endLease (identity : IdempotencyIdentity) (ownerToken : Uuid) : HotAttempt → App B Unit
  | .complete completed => tolerate "complete" (ask (.hotComplete identity ownerToken completed))
  | .abandon => tolerate "abandon" (ask (.hotAbandon identity ownerToken))

/-- What `execute` returns or raises. -/
def conclude : Except Exn ExecutionResult → App B ExecutionResult
  | .ok result => observe result
  | .error x => throw x

/-- The coordinator's program does what the two tasks do: the outcome of
`execute_once` alone chooses the call that ends the lease, the flag of the
heartbeat alone decides whether it is made, and the outcome goes on. -/
theorem executeLeased_eq (retention : Retention) (identity : IdempotencyIdentity)
    (requestHash : Digest) (operation : Operation B StoredResult) (ownerToken : Uuid) :
    executeLeased retention identity requestHash operation ownerToken = (do
      let out ← (executeOnce retention identity requestHash operation).outcome
      let lost ← ask (.heartbeat identity ownerToken)
      if lost then
        if out.isOk then ask (.observeHotDegraded "lease")
      else
        endLease identity ownerToken (hotAttempt out)
      conclude out) := by
  refine congrArg (executeOnce retention identity requestHash operation).outcome.bind ?_
  funext out
  cases out with
  | error x =>
    refine congrArg (ask (.heartbeat identity ownerToken)).bind ?_
    funext lost
    cases lost with
    | false => rfl
    | true => rfl
  | ok result =>
    refine congrArg (ask (.heartbeat identity ownerToken)).bind ?_
    funext lost
    cases lost with
    | true => rfl
    | false =>
      cases hc : result.completed with
      | none => simp [hotAttempt, hc, endLease, conclude]
      | some completed =>
        have houtcome : result.outcome = .executed ∨ result.outcome = .replay :=
          result.decision.mp (by simp [hc])
        simp [hotAttempt, hc, houtcome, endLease, conclude]

end IdentityService
