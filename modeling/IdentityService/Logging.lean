import IdentityService.Graph.Path
import Mathlib.Logic.Function.Basic

/-!
# Exceptions in log events

`_safe_exception_info` replaces the `exc_info` of an event by the types and
frames of the logged exception and of those behind it. The exceptions are
the nodes of a finite graph in any shape; what a log must not show of them
(messages, arguments, frame locals) is kept apart, and the code meets it
only where it asks whether an exception is true.
-/

namespace IdentityService.Logging

open IdentityService.Path

/-- A frame, as the event shows it. -/
structure Frame where
  file : String
  line : Nat
  function : String
deriving DecidableEq

/-- An item of `exception_chain`. -/
structure ChainEntry where
  type : String
  frames : List Frame
deriving DecidableEq

/-- The exceptions of a process. `truth` is what `bool(error)` gives by the
`__bool__` or `__len__` of its class, which may look at the data of the
error; a class without them has true errors only. -/
structure Exceptions (ν δ : Type) where
  cause : ν → Option ν
  context : ν → Option ν
  suppressContext : ν → Bool
  typeName : ν → String
  traceback : ν → List Frame
  truth : ν → δ → Bool

/-- A value of an event: an exception, a triple as `sys.exc_info()` returns
it (by the exception in it, if it has one), a chain of this processor, or
any other value. -/
inductive Field (ν α : Type) where
  | exception (error : ν)
  | excInfo (value : Option ν)
  | chain (entries : List ChainEntry)
  | other (value : α)

/-- A log entry's fields. -/
abbrev EventDict (ν α : Type) := String → Option (Field ν α)

section
variable {ν δ α : Type} (g : Exceptions ν δ) (data : ν → δ) (truthy : α → Bool)

/-- `not info`, for an event that has the field. -/
def Field.truth : Field ν α → Bool
  | .exception error => g.truth error (data error)
  | .excInfo _ => true
  | .chain entries => !entries.isEmpty
  | .other value => truthy value

/-- `__cause__ or (None if __suppress_context__ else __context__)`. -/
def follow (error : ν) : Option ν :=
  match g.cause error with
  | some cause =>
    if g.truth cause (data cause) then some cause
    else if g.suppressContext error then none else g.context error
  | none => if g.suppressContext error then none else g.context error

def entry (error : ν) : ChainEntry := ⟨g.typeName error, g.traceback error⟩

/-- The loop, with the ids it has seen in the order it met them. -/
def chainLoop [Fintype ν] [DecidableEq ν] (error : Option ν) (seen : List ν)
    (chain : List ChainEntry) : List ν × List ChainEntry :=
  match error with
  | none => (seen, chain)
  | some e =>
    if e ∈ seen then (seen, chain)
    else chainLoop (follow g data e) (seen ++ [e]) (chain ++ [entry g e])
termination_by (Finset.univ.filter (· ∉ seen)).card
decreasing_by
  rename_i h
  exact card_unseen_lt h

/-- The exception `info` stands for; `current` is `sys.exc_info()[1]`. -/
def errorOf (current : Option ν) : Field ν α → Option ν
  | .exception error => some error
  | .excInfo value => value
  | .chain _ => current
  | .other _ => current

variable [Fintype ν] [DecidableEq ν] (current : Option ν)

/-- What the loop lists; nothing where it is not reached. -/
def listed (event : EventDict ν α) : List ν :=
  match event "exc_info" with
  | none => []
  | some info =>
    if info.truth g data truthy then (chainLoop g data (errorOf current info) [] []).1 else []

/-- `_safe_exception_info`. -/
def safeExceptionInfo (event : EventDict ν α) : EventDict ν α :=
  let popped := Function.update event "exc_info" none
  match event "exc_info" with
  | none => popped
  | some info =>
    if info.truth g data truthy then
      Function.update popped "exception_chain"
        (some (.chain (chainLoop g data (errorOf current info) [] []).2))
    else
      popped

end

section
variable {ν δ α : Type} (g : Exceptions ν δ) (data : ν → δ) (truthy : α → Bool)

/-! What the event should show. -/

/-- The exception behind another: its cause, or its context unless that is
suppressed. -/
def behind (error : ν) : Option ν :=
  match g.cause error with
  | some cause => some cause
  | none => if g.suppressContext error then none else g.context error

/-- The exception the code goes to when it passes over a cause. -/
def instead (error : ν) : Option ν :=
  if g.suppressContext error then none else g.context error

/-- Whether the event asks for an exception at all. -/
def Field.asks : Field ν α → Bool
  | .exception _ => true
  | .excInfo _ => true
  | .chain entries => !entries.isEmpty
  | .other value => truthy value

/-- The logged exception. -/
def logged (current : Option ν) (event : EventDict ν α) : Option ν :=
  match event "exc_info" with
  | none => none
  | some info => if info.asks truthy then errorOf current info else none

variable {g data}

theorem follow_of_false {error cause : ν} (hcause : g.cause error = some cause)
    (htruth : g.truth cause (data cause) = false) : follow g data error = instead g error := by
  simp [follow, instead, hcause, htruth]

theorem follow_cases (error : ν) :
    follow g data error = behind g error ∨
    ∃ cause, g.cause error = some cause ∧ g.truth cause (data cause) = false := by
  cases hcause : g.cause error with
  | none => exact Or.inl (by simp only [follow, behind, hcause])
  | some cause =>
    cases htruth : g.truth cause (data cause) with
    | true => exact Or.inl (by simp [follow, behind, hcause, htruth])
    | false => exact Or.inr ⟨cause, rfl, htruth⟩

theorem behind_of_cause {error cause : ν} (h : g.cause error = some cause) :
    behind g error = some cause := by
  simp only [behind, h]

/-- An exception is only not shown when it is false. -/
theorem asks_eq_truth (truthy : α → Bool) {info : Field ν α}
    (h : ∀ error, info = .exception error → g.truth error (data error)) :
    info.truth g data truthy = info.asks truthy := by
  cases info with
  | exception error => exact h error rfl
  | excInfo value => rfl
  | chain entries => rfl
  | other value => rfl

end

section
variable {ν δ α : Type} [Fintype ν] [DecidableEq ν] (g : Exceptions ν δ) (data data' : ν → δ)
  (truthy : α → Bool) (current : Option ν) (event : EventDict ν α)

/-- The event shows the logged exception and those behind it, each once, and
is otherwise the event that was passed in. -/
structure Sound : Prop where
  listing : Listing (behind g) (logged truthy current event) (listed g data truthy current event)
  shown : ∀ info, event "exc_info" = some info → info.asks truthy →
    safeExceptionInfo g data truthy current event "exception_chain" =
      some (.chain ((listed g data truthy current event).map (entry g)))
  popped : safeExceptionInfo g data truthy current event "exc_info" = none
  silent : (∀ info, event "exc_info" = some info → info.asks truthy = false) →
    safeExceptionInfo g data truthy current event "exception_chain" = event "exception_chain"
  others : ∀ key, key ≠ "exc_info" → key ≠ "exception_chain" →
    safeExceptionInfo g data truthy current event key = event key

/-- No false exception is passed over, unless that makes no difference: the
code comes to it as the context, or it was the end of the path anyway and
the code does not find a new exception there. -/
structure Harmless : Prop where
  start : ∀ error, event "exc_info" = some (.exception error) → g.truth error (data error)
  causes : ∀ path, path = walk (behind g) [] (logged truthy current event) →
    ∀ error ∈ path, ∀ cause, g.cause error = some cause → g.truth cause (data cause) = false →
      instead g error = some cause ∨
      (path.getLast? = some error ∧ ∀ d, instead g error = some d → d ∈ path)

variable {g data data' truthy current event}

theorem chainLoop_eq (error : Option ν) (seen : List ν) (chain : List ChainEntry) :
    chainLoop g data error seen chain =
      (seen ++ walk (follow g data) seen error,
        chain ++ (walk (follow g data) seen error).map (entry g)) := by
  fun_induction chainLoop g data error seen chain with
  | case1 seen chain => simp [walk_none]
  | case2 seen chain e h => simp [walk_seen h]
  | case3 seen chain e h ih => rw [ih, walk_fresh h]; simp

theorem listed_eq
    (h : ∀ error, event "exc_info" = some (.exception error) → g.truth error (data error)) :
    listed g data truthy current event =
      walk (follow g data) [] (logged truthy current event) := by
  cases hinfo : event "exc_info" with
  | none => simp only [listed, logged, hinfo, walk_none]
  | some info =>
    have hasks := asks_eq_truth truthy (fun error herror =>
      h error (hinfo.trans (congrArg some herror)))
    simp only [listed, logged, hinfo, hasks]
    cases info.asks truthy with
    | true => simp [chainLoop_eq]
    | false => simp [walk_none]

/-- The event, by what is listed. -/
theorem safeExceptionInfo_eq (truthy : α → Bool) (current : Option ν)
    (h : ∀ error, event "exc_info" = some (.exception error) → g.truth error (data error)) :
    safeExceptionInfo g data truthy current event =
      if (event "exc_info").any (Field.asks truthy) then
        Function.update (Function.update event "exc_info" none) "exception_chain"
          (some (.chain ((listed g data truthy current event).map (entry g))))
      else Function.update event "exc_info" none := by
  cases hinfo : event "exc_info" with
  | none => simp only [safeExceptionInfo, hinfo]; rfl
  | some info =>
    have hasks := asks_eq_truth truthy (fun error herror =>
      h error (hinfo.trans (congrArg some herror)))
    simp only [safeExceptionInfo, listed, hinfo, hasks, Option.any_some]
    cases info.asks truthy with
    | true => simp [chainLoop_eq]
    | false => simp

/-- Which code path is harmless: it lists what the path lists. -/
theorem Harmless.listed_eq_path (h : Harmless g data truthy current event) :
    listed g data truthy current event =
      walk (behind g) [] (logged truthy current event) := by
  rw [listed_eq h.start]
  have hpath : Listing (behind g) (logged truthy current event)
      (walk (behind g) [] (logged truthy current event)) := listing_walk _
  have hcode : Listing (follow g data) (logged truthy current event)
      (walk (behind g) [] (logged truthy current event)) := by
    refine (listing_transfer hpath).mpr ?_
    intro error herror
    rcases follow_cases error with hsame | ⟨cause, hcause, htruth⟩
    · exact Or.inl hsame
    · rw [follow_of_false hcause htruth, behind_of_cause hcause]
      exact h.causes _ rfl error herror cause hcause htruth
  exact (listing_iff.mp hcode).symm

theorem Harmless.sound (h : Harmless g data truthy current event) :
    Sound g data truthy current event := by
  have heq := safeExceptionInfo_eq truthy current h.start
  refine ⟨?_, ?_, ?_, ?_, ?_⟩
  · rw [h.listed_eq_path]
    exact listing_walk _
  · intro info hinfo hasks
    rw [heq, if_pos (by rw [hinfo]; exact hasks)]
    simp
  · rw [heq]
    split <;> simp
  · intro hsilent
    rw [heq, if_neg]
    · simp
    · cases hinfo : event "exc_info" with
      | none => simp
      | some info => simp [hsilent info hinfo]
  · intro key hinfo hchain
    rw [heq]
    split <;> simp [hinfo, hchain]

theorem Sound.start (h : Sound g data truthy current event) {error : ν}
    (herror : event "exc_info" = some (.exception error)) : g.truth error (data error) := by
  by_contra htruth
  have hhead := h.listing.head
  have hnone : listed g data truthy current event = [] := by
    simp [listed, herror, Field.truth, htruth]
  have hlogged : logged truthy current event = some error := by
    simp only [logged, herror, Field.asks, if_true, errorOf]
  rw [hnone, hlogged] at hhead
  cases hhead

theorem Sound.harmless (h : Sound g data truthy current event) :
    Harmless g data truthy current event := by
  refine ⟨fun error herror => h.start herror, ?_⟩
  intro path hpath error herror cause hcause htruth
  have hspec : Listing (behind g) (logged truthy current event) path := listing_iff.mpr hpath
  have hcode : Listing (follow g data) (logged truthy current event) path := by
    rw [hpath, ← listing_iff.mp h.listing, listed_eq fun error herror => h.start herror]
    exact listing_walk _
  have hagree := (listing_transfer hspec).mp hcode error herror
  rw [follow_of_false hcause htruth, behind_of_cause hcause] at hagree
  exact hagree

/-- What two sets of data for the same exceptions give, in both of which no
false exception is passed over. -/
theorem Harmless.same (h : Harmless g data truthy current event)
    (h' : Harmless g data' truthy current event) :
    safeExceptionInfo g data truthy current event =
      safeExceptionInfo g data' truthy current event := by
  rw [safeExceptionInfo_eq truthy current h.start, safeExceptionInfo_eq truthy current h'.start,
    h.listed_eq_path, h'.listed_eq_path]

/-- The logged chain is right, and shows nothing of the data, exactly when
no false exception is passed over. -/
theorem safe_exception_info_iff (g : Exceptions ν δ) (data data' : ν → δ) (truthy : α → Bool)
    (current : Option ν) (event : EventDict ν α) :
    (Sound g data truthy current event ∧ Sound g data' truthy current event ∧
      safeExceptionInfo g data truthy current event =
        safeExceptionInfo g data' truthy current event) ↔
    Harmless g data truthy current event ∧ Harmless g data' truthy current event := by
  constructor
  · rintro ⟨h, h', -⟩
    exact ⟨h.harmless, h'.harmless⟩
  · intro ⟨h, h'⟩
    exact ⟨h.sound, h'.sound, h.same h'⟩

end

/-- `raise RuntimeError from errors`, for an exception whose length is the
number of its arguments. -/
def Sample.raisedFrom : Exceptions Bool (List String) where
  cause error := if error then none else some true
  context error := if error then none else some true
  suppressContext error := !error
  typeName error := if error then "Errors" else "RuntimeError"
  traceback _ := [⟨"handler.py", 7, "execute"⟩]
  truth error args := !error || !args.isEmpty

/-- The event of `logger.exception`, in the handler of the error above. -/
def Sample.failed : EventDict Bool Bool :=
  Function.update (fun _ => none) "exc_info" (some (.other true))

/-- The cause has no arguments, so it is false, and is passed over; with an
argument it would be shown. -/
theorem false_cause_passed_over :
    ¬ Sound Sample.raisedFrom (fun _ => []) id (some false) Sample.failed ∧
    safeExceptionInfo Sample.raisedFrom (fun _ => []) id (some false) Sample.failed ≠
      safeExceptionInfo Sample.raisedFrom (fun _ => ["detail"]) id (some false) Sample.failed := by
  have hone : walk (follow Sample.raisedFrom fun _ => []) [] (some false) = [false] := by
    rw [walk_fresh (by simp)]
    exact congrArg _ (walk_none _)
  have htwo : walk (follow Sample.raisedFrom fun _ => ["detail"]) [] (some false) =
      [false, true] := by
    rw [walk_fresh (by simp), show follow Sample.raisedFrom (fun _ => ["detail"]) false =
      some true from rfl, walk_fresh (by simp)]
    exact congrArg _ (congrArg _ (walk_none _))
  constructor
  · intro hsound
    have hlisted : listed Sample.raisedFrom (fun _ => []) id (some false) Sample.failed =
        [false] := by
      simp [listed, Sample.failed, Field.truth, errorOf, chainLoop_eq, hone]
    have hstop := hsound.listing.stops false (by rw [hlisted]; rfl) true rfl
    rw [hlisted] at hstop
    exact absurd hstop (by decide)
  · intro hsame
    have hchain := congrFun hsame "exception_chain"
    simp [safeExceptionInfo, Sample.failed, Field.truth, errorOf, chainLoop_eq, hone, htwo]
      at hchain

end IdentityService.Logging
