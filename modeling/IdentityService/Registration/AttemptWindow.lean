import IdentityService.Concurrent.Record
import IdentityService.Registration.Provisioner

/-!
# A Profile call fits its lease

The settings bound what one `create_profile` can take: two PUTs, each within
the client's timeout, and a pause that no Retry-After header can make longer
than its maximum, together less than the lease of a registration claim.
Which answers come from the breaker is left open, so every state of it is
covered.
-/

namespace IdentityService

open Concurrent

/-! ## Settings -/

/-- The settings of the Profile call and the claim lease, as their validators
accept them. A NaN meets none of the bounds; only the lease may be infinite.
The sum of `validate_security_contract` is rounded. -/
structure ProfileSettings (R : Rounding) where
  token : Option String
  timeoutSeconds : ℚ
  retryDelaySeconds : ℚ
  retryMaxDelaySeconds : ℚ
  claimLeaseSeconds : PyFloat
  timeoutDouble : R.round timeoutSeconds = timeoutSeconds
  leaseDouble : ∀ x, claimLeaseSeconds = .finite x → R.round x = x
  timeoutBounds : 0 < timeoutSeconds ∧ timeoutSeconds ≤ 30
  retryDelayBounds : 0 ≤ retryDelaySeconds ∧ retryDelaySeconds ≤ 5
  retryMaxDelayBounds : 0 < retryMaxDelaySeconds ∧ retryMaxDelaySeconds ≤ 30
  leasePositive : PyFloat.lt (.finite 0) claimLeaseSeconds = true
  delayLeMax : retryDelaySeconds ≤ retryMaxDelaySeconds
  attemptFits : PyFloat.le claimLeaseSeconds
    (.finite (R.round (R.round (2 * timeoutSeconds) + retryMaxDelaySeconds))) = false

namespace ProfileSettings

variable {R : Rounding} (s : ProfileSettings R)

/-- `profile_provisioner`. -/
def provisioner (float : String → Option PyFloat) (isoformat : Time → String) :
    HTTPProfileProvisioner where
  configured := s.token.isSome
  retryDelaySeconds := s.retryDelaySeconds
  retryMaxDelaySeconds := s.retryMaxDelaySeconds
  float := float
  isoformat := isoformat
  delayNonneg := s.retryDelayBounds.1
  maxDelayPositive := s.retryMaxDelayBounds.1
  delayLeMax := s.delayLeMax

/-- The lease is longer than two timeouts and the longest pause. -/
theorem window_lt_lease {x : ℚ} (hx : x ≤ 2 * s.timeoutSeconds + s.retryMaxDelaySeconds) :
    PyFloat.lt (.finite x) s.claimLeaseSeconds = true := by
  have hfits := s.attemptFits
  have hpositive := s.leasePositive
  cases hlease : s.claimLeaseSeconds with
  | nan => simp [hlease, PyFloat.lt] at hpositive
  | negInf => simp [hlease, PyFloat.lt] at hpositive
  | posInf => rfl
  | finite lease =>
    have hdouble := s.leaseDouble lease hlease
    rw [hlease, R.twice _ s.timeoutDouble] at hfits
    simp only [PyFloat.le, decide_eq_false_iff_not, not_le] at hfits
    have hexact := R.lt_of_round_lt hdouble hfits
    simp only [PyFloat.lt, decide_eq_true_eq]
    linarith

end ProfileSettings

/-! ## What a call did -/

/-- A PUT and what came of it. -/
structure ProfilePut where
  path : String
  body : Json
  outcome : Except ProfileExn HttpResponse

/-- The status, where there was a response. -/
def ProfilePut.status? (put : ProfilePut) : Option Nat :=
  match put.outcome with
  | .ok response => some response.statusCode
  | .error _ => none

/-- The statuses after which a call is repeated. -/
def retryableStatuses : List Nat := [423, 429, 500, 502, 503, 504]

namespace ProfileEff

/-- The request that an effect sends, and its answer. -/
def asPut : (e : ProfileEff) → Except ProfileExn e.Resp → Option ProfilePut
  | .put path body, r => some ⟨path, body, r⟩
  | _, _ => none

def asSleep : ProfileEff → Option PyFloat
  | .sleep seconds => some seconds
  | _ => none

/-- The answers of the outside: the breaker lets the call in or not, a PUT
gets a response or fails in transport, and the rest returns. -/
def Plain : (e : ProfileEff) → Except ProfileExn e.Resp → Prop
  | .enter, .error x => x = .circuitBreakerError
  | .put _ _, .error x => x = .transportError
  | .leave _ _, .error _ => False
  | .sleep _, .error _ => False
  | _, .ok _ => True

/-- How long an exchange takes: a PUT no longer than the timeout, a pause
what it was asked for, the breaker no time. -/
def Takes (timeout : ℚ) : ProfileEff → ℚ → Prop
  | .put _ _, t => 0 ≤ t ∧ t ≤ timeout
  | .sleep seconds, t => seconds = .finite t
  | _, t => t = 0

end ProfileEff

/-- The PUTs of a call. -/
def putsOf (record : List (Answer profileSig ProfileExn)) : List ProfilePut :=
  record.filterMap fun a => ProfileEff.asPut a.op a.resp

/-- What is promised of a call that ended with `r` after these PUTs. -/
structure CallSpec (path : String) (body : Json) (puts : List ProfilePut)
    (r : Except ProfileExn Unit) : Prop where
  atMostTwo : puts.length ≤ 2
  same : ∀ put ∈ puts, put.path = path ∧ put.body = body
  returns : r = .ok () ↔ ∃ put, puts.getLast? = some put ∧ put.status? = some 204
  rejects : r = .error (.app .profileProvisioningRejected) ↔ ∃ put status,
    puts.getLast? = some put ∧ put.status? = some status ∧ status ≠ 204 ∧
      status ∉ retryableStatuses
  unavailable : r ≠ .ok () → r ≠ .error (.app .profileProvisioningRejected) →
    r = .error (.app .profileProvisioningUnavailable)

/-! ## The flow of a call -/

/-- What a call has done so far. -/
structure CallLocal where
  steps : Nat
  puts : List ProfilePut
  naps : List PyFloat
  plain : Prop

namespace CallLocal

def start : CallLocal := ⟨0, [], [], True⟩

def next (l : CallLocal) (e : ProfileEff) (r : Except ProfileExn e.Resp) : CallLocal where
  steps := l.steps + 1
  puts := l.puts ++ (e.asPut r).toList
  naps := l.naps ++ e.asSleep.toList
  plain := l.plain ∧ e.Plain r

end CallLocal

/-- Two attempts are seven exchanges. -/
def callFlow : Flow profileSig ProfileExn where
  State := CallLocal
  start := .start
  permits l _ := l.steps < 7
  next := CallLocal.next

/-- A PUT to be tried again. -/
def ProfilePut.Retry (put : ProfilePut) : Prop :=
  ∀ status, put.status? = some status → status ∈ retryableStatuses

namespace HTTPProfileProvisioner

variable {p : HTTPProfileProvisioner} {userId : Uuid} {payload : Json} {l : CallLocal}

/-- What one PUT shows. -/
inductive PutShows (put : ProfilePut) : Except ProfileExn Unit → Prop
  | accepted (h : put.status? = some 204) : PutShows put (.ok ())
  | retry (h : put.Retry) (retryAfter : Option PyFloat) :
      PutShows put (.error (.profileCallError true retryAfter))
  | rejected {status : Nat} (h : put.status? = some status) (hne : status ≠ 204)
      (hnot : status ∉ retryableStatuses) (retryAfter : Option PyFloat) :
      PutShows put (.error (.profileCallError false retryAfter))

/-- After a PUT behind the breaker. -/
def PutPast (path : String) (body : Json) (l : CallLocal) (r : Except ProfileExn Unit)
    (l' : CallLocal) : Prop :=
  l'.steps ≤ l.steps + 3 ∧
  (l'.plain → l.plain ∧ l'.naps = l.naps ∧
    ((r = .error .circuitBreakerError ∧ l'.puts = l.puts) ∨
      ∃ put, l'.puts = l.puts ++ [put] ∧ put.path = path ∧ put.body = body ∧ PutShows put r))

theorem putShows_response (userId : Uuid) (response : HttpResponse) (retryAfter : Option PyFloat)
    (hne : response.statusCode ≠ 204) :
    PutShows ⟨profilePath userId, payload, .ok response⟩
      (.error (.profileCallError (response.statusCode ∈ [423, 429, 500, 502, 503, 504])
        retryAfter)) := by
  by_cases hretry : response.statusCode ∈ retryableStatuses
  · have htrue : decide (response.statusCode ∈ [423, 429, 500, 502, 503, 504]) = true :=
      decide_eq_true hretry
    rw [htrue]
    refine .retry ?_ retryAfter
    intro status hstatus
    cases hstatus
    exact hretry
  · have hfalse : decide (response.statusCode ∈ [423, 429, 500, 502, 503, 504]) = false :=
      decide_eq_false hretry
    rw [hfalse]
    exact .rejected rfl hne hretry retryAfter

theorem putProfile_callFollows (hsteps : l.steps < 7) :
    callFlow.Follows (p.putProfile userId payload) l fun r l' =>
      ∃ answer, l' = l.next (.put (profilePath userId) payload) answer ∧
        (l'.plain → PutShows ⟨profilePath userId, payload, answer⟩ r) := by
  have hcall : callFlow.Follows (exchange (.put (profilePath userId) payload)) l
      fun r l' => l' = l.next (.put (profilePath userId) payload) r :=
    Flow.Follows.perform hsteps fun _ => rfl
  refine hcall.attempt fun answer l' hl' => ?_
  cases answer with
  | error x =>
    have hother (hx : x ≠ .transportError) (r : Except ProfileExn Unit) : l'.plain →
        PutShows ⟨profilePath userId, payload, .error x⟩ r := by
      intro hplain
      rw [hl'] at hplain
      exact absurd hplain.2 hx
    cases x with
    | transportError => exact ⟨_, hl', fun _ => .retry (fun _ h => by cases h) none⟩
    | circuitBreakerError => exact ⟨_, hl', hother (by simp) _⟩
    | profileCallError retryable retryAfter => exact ⟨_, hl', hother (by simp) _⟩
    | app x => exact ⟨_, hl', hother (by simp) _⟩
  | ok response =>
    show callFlow.Follows (if response.statusCode = 204 then _ else _) l' _
    by_cases hstatus : response.statusCode = 204
    · rw [if_pos hstatus]
      exact ⟨_, hl', fun _ => .accepted (congrArg some hstatus)⟩
    · rw [if_neg hstatus]
      exact ⟨_, hl', fun _ => putShows_response userId response _ hstatus⟩

theorem guarded_callFollows (hsteps : l.steps ≤ 4) :
    callFlow.Follows (guarded (p.putProfile userId payload)) l
      (PutPast (profilePath userId) payload l) := by
  refine ⟨by show l.steps < 7; omega, fun admission => ?_⟩
  cases admission with
  | error x =>
    refine ⟨by show l.steps + 1 ≤ _; omega, fun hplain => ⟨hplain.1, by simp [callFlow,
      CallLocal.next, ProfileEff.asSleep], .inl ⟨?_, by simp [callFlow, CallLocal.next,
      ProfileEff.asPut]⟩⟩⟩
    exact congrArg Except.error hplain.2
  | ok admission =>
    have hput : (l.next .enter (.ok admission)).steps < 7 := by
      show l.steps + 1 < 7
      omega
    refine (putProfile_callFollows hput).attempt fun r l' hl' => ?_
    obtain ⟨answer, rfl, hshows⟩ := hl'
    -- the section that the breaker runs after the call
    have hleave (ending : Ending) (left : Except ProfileExn Unit) (r' : Except ProfileExn Unit)
        (hr' : left = .ok () → r' = r) :
        PutPast (profilePath userId) payload l r'
          (((l.next .enter (.ok admission)).next (.put (profilePath userId) payload) answer).next
            (.leave admission ending) left) := by
      refine ⟨by show l.steps + 1 + 1 + 1 ≤ _; omega, fun hplain => ?_⟩
      cases left with
      | error x => exact hplain.2.elim
      | ok _ =>
        rw [hr' rfl]
        refine ⟨hplain.1.1.1, by simp [CallLocal.next, ProfileEff.asSleep], .inr
          ⟨⟨profilePath userId, payload, answer⟩, by simp [CallLocal.next, ProfileEff.asPut],
            rfl, rfl, hshows hplain.1⟩⟩
    cases r with
    | ok a =>
      refine ⟨by show l.steps + 1 + 1 < 7; omega, fun left => ?_⟩
      cases left with
      | ok _ => exact hleave .success (.ok ()) (.ok a) fun _ => rfl
      | error x => exact hleave .success (.error x) (.error x) fun h => by cases h
    | error x =>
      refine ⟨by show l.steps + 1 + 1 < 7; omega, fun left => ?_⟩
      cases left with
      | ok _ => exact hleave x.ending (.ok ()) (.error x) fun _ => rfl
      | error y => exact hleave x.ending (.error y) (.error y) fun h => by cases h

/-- Pauses that are few and short. -/
def Short (p : HTTPProfileProvisioner) (naps : List PyFloat) : Prop :=
  ∀ nap ∈ naps, ∃ y, nap = .finite y ∧ 0 ≤ y ∧ y ≤ p.retryMaxDelaySeconds

/-- Before an attempt, with `n` left: what came before is to be tried
again. -/
structure Pending (p : HTTPProfileProvisioner) (path : String) (body : Json) (n : Nat)
    (l : CallLocal) : Prop where
  puts : l.puts.length + n ≤ 2
  same : ∀ put ∈ l.puts, put.path = path ∧ put.body = body
  retry : ∀ put, l.puts.getLast? = some put → put.Retry
  naps : l.naps.length + n ≤ 2
  short : p.Short l.naps

/-- A call that has ended. -/
def Ended (p : HTTPProfileProvisioner) (path : String) (body : Json)
    (r : Except ProfileExn Unit) (l : CallLocal) : Prop :=
  l.plain → CallSpec path body l.puts r ∧ l.naps.length ≤ 1 ∧ p.Short l.naps

section
variable {path : String} {body : Json} {puts : List ProfilePut}

/-- With nothing accepted and nothing rejected, the service is
unavailable. -/
theorem callSpec_unavailable (hlength : puts.length ≤ 2)
    (hsame : ∀ put ∈ puts, put.path = path ∧ put.body = body)
    (hretry : ∀ put, puts.getLast? = some put → put.Retry) :
    CallSpec path body puts (.error (.app .profileProvisioningUnavailable)) := by
  refine ⟨hlength, hsame, ?_, ?_, fun _ _ => rfl⟩
  · constructor
    · intro h
      cases h
    · intro ⟨put, hlast, hstatus⟩
      exact absurd (hretry put hlast 204 hstatus) (by decide)
  · constructor
    · intro h
      cases h
    · intro ⟨put, status, hlast, hstatus, _, hnot⟩
      exact absurd (hretry put hlast status hstatus) hnot

theorem callSpec_returned {put : ProfilePut} (hlength : puts.length ≤ 2)
    (hsame : ∀ put ∈ puts, put.path = path ∧ put.body = body)
    (hlast : puts.getLast? = some put) (hstatus : put.status? = some 204) :
    CallSpec path body puts (.ok ()) := by
  refine ⟨hlength, hsame, ?_, ?_, fun h => absurd rfl h⟩
  · exact ⟨fun _ => ⟨put, hlast, hstatus⟩, fun _ => rfl⟩
  · constructor
    · intro h
      cases h
    · intro ⟨put', status, hlast', hstatus', hne, _⟩
      rw [hlast] at hlast'
      cases hlast'
      rw [hstatus] at hstatus'
      exact absurd (Option.some.inj hstatus').symm hne

theorem callSpec_rejected {put : ProfilePut} {status : Nat} (hlength : puts.length ≤ 2)
    (hsame : ∀ put ∈ puts, put.path = path ∧ put.body = body)
    (hlast : puts.getLast? = some put) (hstatus : put.status? = some status)
    (hne : status ≠ 204) (hnot : status ∉ retryableStatuses) :
    CallSpec path body puts (.error (.app .profileProvisioningRejected)) := by
  refine ⟨hlength, hsame, ?_, ?_, fun _ h => absurd rfl h⟩
  · constructor
    · intro h
      cases h
    · intro ⟨put', hlast', hstatus'⟩
      rw [hlast] at hlast'
      cases hlast'
      rw [hstatus] at hstatus'
      exact absurd (Option.some.inj hstatus') hne
  · exact ⟨fun _ => ⟨put, status, hlast, hstatus, hne, hnot⟩, fun _ => rfl⟩

/-- One more PUT of the same profile. -/
theorem Pending.putAgain {n : Nat} {put : ProfilePut} (h : Pending p path body (n + 1) l)
    (hpath : put.path = path) (hbody : put.body = body) :
    (l.puts ++ [put]).length + n ≤ 2 ∧
      ∀ put' ∈ l.puts ++ [put], put'.path = path ∧ put'.body = body := by
  constructor
  · have := h.puts
    simp only [List.length_append, List.length_cons, List.length_nil]
    omega
  · intro put' hput'
    rcases List.mem_append.mp hput' with hold | hnew
    · exact h.same put' hold
    · rw [List.mem_singleton.mp hnew]
      exact ⟨hpath, hbody⟩

/-- A call that ends without another pause. -/
theorem Pending.closes {n : Nat} {l' : CallLocal} {r : Except ProfileExn Unit}
    (h : Pending p path body (n + 1) l) (hnaps : l'.naps = l.naps)
    (hspec : CallSpec path body l'.puts r) :
    CallSpec path body l'.puts r ∧ l'.naps.length ≤ 1 ∧ p.Short l'.naps := by
  rw [hnaps]
  have := h.naps
  exact ⟨hspec, by omega, h.short⟩

/-- A PUT to be tried again, and the pause after it. -/
theorem Pending.napped {n : Nat} {l' : CallLocal} {put : ProfilePut}
    (h : Pending p path body (n + 1) l) (hputs : l'.puts = l.puts ++ [put])
    (hnaps : l'.naps = l.naps) (hpath : put.path = path) (hbody : put.body = body)
    (hretry : put.Retry) (retryAfter : PyFloat) :
    Pending p path body n (l'.next (.sleep (((PyFloat.finite p.retryDelaySeconds).max
      retryAfter).min (.finite p.retryMaxDelaySeconds))) (.ok ())) := by
  obtain ⟨hlength, hsame⟩ := h.putAgain hpath hbody
  obtain ⟨y, hy, hlow, hhigh⟩ := PyFloat.clamp_finite p.delayLeMax retryAfter
  generalize ((PyFloat.finite p.retryDelaySeconds).max retryAfter).min
    (.finite p.retryMaxDelaySeconds) = nap at hy
  have hputs' : (l'.next (.sleep nap) (.ok ())).puts = l.puts ++ [put] := by
    simp [CallLocal.next, ProfileEff.asPut, hputs]
  have hnaps' : (l'.next (.sleep nap) (.ok ())).naps = l.naps ++ [nap] := by
    simp [CallLocal.next, ProfileEff.asSleep, hnaps]
  refine ⟨hputs' ▸ hlength, hputs' ▸ hsame, ?_, ?_, ?_⟩
  · intro put' hput'
    rw [hputs', List.getLast?_concat] at hput'
    cases hput'
    exact hretry
  · have := h.naps
    rw [hnaps', List.length_append, List.length_singleton]
    omega
  · intro nap' hnap'
    rw [hnaps'] at hnap'
    rcases List.mem_append.mp hnap' with hold | hnew
    · exact h.short nap' hold
    · rw [List.mem_singleton.mp hnew]
      exact ⟨y, hy, p.delayNonneg.trans hlow, hhigh⟩

end

theorem attempts_callFollows {n : Nat} (hn : 0 < n) (hsteps : l.steps + 4 * n ≤ 8)
    (hpending : l.plain → Pending p (profilePath userId) payload n l) :
    callFlow.Follows (p.attempts userId payload n) l
      (Ended p (profilePath userId) payload) := by
  induction n generalizing l with
  | zero => omega
  | succ n ih =>
    refine (guarded_callFollows (by omega)).attempt fun r l' hl' => ?_
    obtain ⟨hsteps', hpast⟩ := hl'
    cases r with
    | ok a =>
      intro hplain
      obtain ⟨hbefore, hnaps, ⟨h, -⟩ | ⟨put, hputs, hpath, hbody, hshows⟩⟩ := hpast hplain
      · cases h
      · have h := hpending hbefore
        obtain ⟨hlength, hsame⟩ := h.putAgain hpath hbody
        cases hshows with
        | accepted hstatus =>
          refine h.closes hnaps ?_
          rw [hputs]
          exact callSpec_returned (by omega) hsame (by simp) hstatus
    | error x =>
      cases x with
      | circuitBreakerError =>
        intro hplain
        obtain ⟨hbefore, hnaps, ⟨-, hputs⟩ | ⟨put, -, -, -, hshows⟩⟩ := hpast hplain
        · have h := hpending hbefore
          refine h.closes hnaps ?_
          rw [hputs]
          exact callSpec_unavailable (by have := h.puts; omega) h.same h.retry
        · cases hshows
      | transportError =>
        intro hplain
        obtain ⟨-, -, ⟨h, -⟩ | ⟨put, -, -, -, hshows⟩⟩ := hpast hplain
        · cases h
        · cases hshows
      | app x =>
        intro hplain
        obtain ⟨-, -, ⟨h, -⟩ | ⟨put, -, -, -, hshows⟩⟩ := hpast hplain
        · cases h
        · cases hshows
      | profileCallError retryable retryAfterSeconds =>
        -- what is known when the PUT is not accepted
        have hput : l'.plain → l.plain ∧ l'.naps = l.naps ∧ ∃ put, l'.puts = l.puts ++ [put] ∧
            put.path = profilePath userId ∧ put.body = payload ∧
            PutShows put (.error (.profileCallError retryable retryAfterSeconds)) := by
          intro hplain
          obtain ⟨hbefore, hnaps, ⟨h, -⟩ | hshown⟩ := hpast hplain
          · cases h
          · exact ⟨hbefore, hnaps, hshown⟩
        cases retryable with
        | false =>
          intro hplain
          obtain ⟨hbefore, hnaps, put, hputs, hpath, hbody, hshows⟩ := hput hplain
          have h := hpending hbefore
          obtain ⟨hlength, hsame⟩ := h.putAgain hpath hbody
          cases hshows with
          | rejected hstatus hne hnot =>
            refine h.closes hnaps ?_
            rw [hputs]
            exact callSpec_rejected (by omega) hsame (by simp) hstatus hne hnot
        | true =>
          by_cases hlast : n = 0
          · subst hlast
            intro hplain
            obtain ⟨hbefore, hnaps, put, hputs, hpath, hbody, hshows⟩ := hput hplain
            have h := hpending hbefore
            obtain ⟨hlength, hsame⟩ := h.putAgain hpath hbody
            cases hshows with
            | retry hretry =>
              refine h.closes hnaps ?_
              rw [hputs]
              refine callSpec_unavailable (by omega) hsame fun put' hput' => ?_
              rw [List.getLast?_concat] at hput'
              cases hput'
              exact hretry
          · show callFlow.Follows
              (if n = 0 then throw (.app .profileProvisioningUnavailable)
              else (exchange (.sleep _)).bind fun _ => p.attempts userId payload n) l' _
            rw [if_neg hlast]
            refine ⟨by show l'.steps < 7; omega, fun slept => ?_⟩
            cases slept with
            | error x => exact fun hplain => hplain.2.elim
            | ok _ =>
              refine ih (by omega) (by show l'.steps + 1 + 4 * n ≤ 8; omega) fun hplain => ?_
              obtain ⟨hbefore, hnaps, put, hputs, hpath, hbody, hshows⟩ := hput hplain.1
              cases hshows with
              | retry hretry =>
                exact (hpending hbefore).napped hputs hnaps hpath hbody hretry _

theorem createProfile_callFollows (registeredAt : Time) :
    callFlow.Follows (p.createProfile userId registeredAt) .start
      (Ended p (profilePath userId) (p.payload registeredAt)) := by
  unfold createProfile
  split
  · intro _
    refine ⟨callSpec_unavailable (by decide) (by simp [CallLocal.start])
      (by simp [CallLocal.start]), by decide, by simp [Short, CallLocal.start]⟩
  · refine attempts_callFollows (by decide) (by decide) fun _ => ⟨by decide, ?_, ?_, by decide, ?_⟩
    · simp [CallLocal.start]
    · simp [CallLocal.start]
    · simp [Short, CallLocal.start]

end HTTPProfileProvisioner

/-! ## Time -/

/-- What a call has done, by its record. -/
def called (record : List (Answer profileSig ProfileExn)) : CallLocal :=
  callFlow.along CallLocal.start record

theorem called_snoc (record : List (Answer profileSig ProfileExn))
    (a : Answer profileSig ProfileExn) :
    called (record ++ [a]) = (called record).next a.op a.resp :=
  Flow.along_snoc _ _ _

theorem called_eq (record : List (Answer profileSig ProfileExn)) :
    (called record).steps = record.length ∧ (called record).puts = putsOf record ∧
      (called record).naps = (record.filterMap fun a => ProfileEff.asSleep a.op) ∧
      ((∀ a ∈ record, ProfileEff.Plain a.op a.resp) → (called record).plain) := by
  induction record using List.reverseRecOn with
  | nil => exact ⟨rfl, rfl, rfl, fun _ => trivial⟩
  | append_singleton record a ih =>
    obtain ⟨hsteps, hputs, hnaps, hplain⟩ := ih
    have hone {β : Type} (f : Answer profileSig ProfileExn → Option β) :
        [a].filterMap f = (f a).toList := by
      cases h : f a <;> simp [h]
    rw [called_snoc]
    refine ⟨?_, ?_, ?_, fun h => ⟨hplain fun b hb => h b (by simp [hb]), h a (by simp)⟩⟩
    · simp [CallLocal.next, hsteps]
    · simp [CallLocal.next, hputs, putsOf, List.filterMap_append, hone]
    · simp [CallLocal.next, hnaps, List.filterMap_append, hone]

/-- The exchanges of a call and how long each took. -/
abbrev TimedRecord := List (Answer profileSig ProfileExn × ℚ)

theorem elapsed_le {timeout maxDelay : ℚ} {timed : TimedRecord}
    (htime : ∀ a ∈ timed, ProfileEff.Takes timeout a.1.op a.2)
    (hshort : ∀ nap ∈ timed.filterMap fun a => ProfileEff.asSleep a.1.op,
      ∃ y, nap = .finite y ∧ 0 ≤ y ∧ y ≤ maxDelay) :
    (timed.map Prod.snd).sum ≤ ((putsOf (timed.map Prod.fst)).length : ℚ) * timeout +
      ((timed.filterMap fun a => ProfileEff.asSleep a.1.op).length : ℚ) * maxDelay := by
  induction timed with
  | nil => simp [putsOf]
  | cons a timed ih =>
    have htime' : ∀ b ∈ timed, ProfileEff.Takes timeout b.1.op b.2 :=
      fun b hb => htime b (by simp [hb])
    have hhead := htime a (by simp)
    obtain ⟨⟨op, resp⟩, t⟩ := a
    cases op with
    | put path body =>
      have hrest := ih htime' (by simpa [ProfileEff.asSleep] using hshort)
      simp only [putsOf, List.map_cons, List.sum_cons, List.filterMap_cons, ProfileEff.asPut,
        ProfileEff.asSleep, List.length_cons] at hrest ⊢
      push_cast
      have hput : t ≤ timeout := hhead.2
      linarith
    | sleep seconds =>
      have hsplit : ∀ nap ∈ seconds :: timed.filterMap fun a => ProfileEff.asSleep a.1.op,
          ∃ y, nap = .finite y ∧ 0 ≤ y ∧ y ≤ maxDelay := by
        simpa [ProfileEff.asSleep] using hshort
      have hrest := ih htime' fun nap hnap => hsplit nap (by simp [hnap])
      obtain ⟨y, hy, -, hle⟩ := hsplit seconds (by simp)
      have hseconds : seconds = .finite t := hhead
      rw [hseconds] at hy
      cases hy
      simp only [putsOf, List.map_cons, List.sum_cons, List.filterMap_cons, ProfileEff.asPut,
        ProfileEff.asSleep, List.length_cons] at hrest ⊢
      push_cast
      linarith
    | enter =>
      have hrest := ih htime' (by simpa [ProfileEff.asSleep] using hshort)
      have hzero : t = 0 := hhead
      simpa [putsOf, ProfileEff.asPut, ProfileEff.asSleep, hzero] using hrest
    | leave admission ending =>
      have hrest := ih htime' (by simpa [ProfileEff.asSleep] using hshort)
      have hzero : t = 0 := hhead
      simpa [putsOf, ProfileEff.asPut, ProfileEff.asSleep, hzero] using hrest

/-- Every call ends, within seven exchanges. -/
theorem createProfile_length {p : HTTPProfileProvisioner} {userId : Uuid} {registeredAt : Time}
    {record : List (Answer profileSig ProfileExn)} {q : Provisioning Unit}
    (h : (p.createProfile userId registeredAt).Leaves record q) : record.length ≤ 7 := by
  induction record using List.reverseRecOn generalizing q with
  | nil => simp
  | append_singleton record a ih =>
    have hpermits : (called record).steps < 7 :=
      (HTTPProfileProvisioner.createProfile_callFollows registeredAt).permitted h
    rw [(called_eq record).1] at hpermits
    simp only [List.length_append, List.length_cons, List.length_nil]
    omega

/-- **A Profile call fits its lease.** However the breaker stands and
whatever the service answers, the call ends as `CallSpec` says and in less
time than the lease. -/
theorem profile_attempt_fits {R : Rounding} (s : ProfileSettings R)
    (float : String → Option PyFloat) (isoformat : Time → String) (userId : Uuid)
    (registeredAt : Time) :
    (∀ record q, ((s.provisioner float isoformat).createProfile userId registeredAt).Leaves
      record q → record.length ≤ 7) ∧
    ∀ (timed : TimedRecord) (r : Except ProfileExn Unit),
      ((s.provisioner float isoformat).createProfile userId registeredAt).Leaves
        (timed.map Prod.fst) (Prog.ofExcept r) →
      (∀ a ∈ timed, ProfileEff.Plain a.1.op a.1.resp) →
      (∀ a ∈ timed, ProfileEff.Takes s.timeoutSeconds a.1.op a.2) →
      CallSpec (profilePath userId) ((s.provisioner float isoformat).payload registeredAt)
        (putsOf (timed.map Prod.fst)) r ∧
      PyFloat.lt (.finite (timed.map Prod.snd).sum) s.claimLeaseSeconds = true := by
  refine ⟨fun record q h => createProfile_length h, ?_⟩
  intro timed r hrun hplain htime
  have hplain' : ∀ a ∈ timed.map Prod.fst, ProfileEff.Plain a.op a.resp := by
    intro a ha
    obtain ⟨b, hb, rfl⟩ := List.mem_map.mp ha
    exact hplain b hb
  obtain ⟨-, hputs, hnaps, hl⟩ := called_eq (timed.map Prod.fst)
  have hend : HTTPProfileProvisioner.Ended (s.provisioner float isoformat) (profilePath userId)
      ((s.provisioner float isoformat).payload registeredAt) r (called (timed.map Prod.fst)) := by
    have hfollows :=
      (HTTPProfileProvisioner.createProfile_callFollows registeredAt).leaves hrun
    cases r with
    | ok a => exact hfollows
    | error x => exact hfollows
  obtain ⟨hspec, hfew, hshort⟩ := hend (hl hplain')
  rw [hputs] at hspec
  refine ⟨hspec, s.window_lt_lease ?_⟩
  have hnaps' : (called (timed.map Prod.fst)).naps =
      timed.filterMap fun a => ProfileEff.asSleep a.1.op := by
    rw [hnaps, List.filterMap_map]
    rfl
  rw [hnaps'] at hfew hshort
  have htotal := elapsed_le htime hshort
  have htwo : ((putsOf (timed.map Prod.fst)).length : ℚ) ≤ 2 := by
    exact_mod_cast hspec.atMostTwo
  have hone : ((timed.filterMap fun a => ProfileEff.asSleep a.1.op).length : ℚ) ≤ 1 := by
    exact_mod_cast hfew
  calc (timed.map Prod.snd).sum
      ≤ ((putsOf (timed.map Prod.fst)).length : ℚ) * s.timeoutSeconds +
        ((timed.filterMap fun a => ProfileEff.asSleep a.1.op).length : ℚ) *
          s.retryMaxDelaySeconds := htotal
    _ ≤ 2 * s.timeoutSeconds + 1 * s.retryMaxDelaySeconds :=
        add_le_add (mul_le_mul_of_nonneg_right htwo s.timeoutBounds.1.le)
          (mul_le_mul_of_nonneg_right hone s.retryMaxDelayBounds.1.le)
    _ = 2 * s.timeoutSeconds + s.retryMaxDelaySeconds := by rw [one_mul]

namespace Sample

/-- Nothing in the samples needs rounding. -/
def exactly : Rounding := ⟨id, fun _ _ h => h, fun _ _ => rfl⟩

/-- The defaults, with a token. -/
def profileSettings : ProfileSettings exactly where
  token := some "secret"
  timeoutSeconds := 3
  retryDelaySeconds := 1 / 10
  retryMaxDelaySeconds := 1
  claimLeaseSeconds := .finite 30
  timeoutDouble := rfl
  leaseDouble _ _ := rfl
  timeoutBounds := by norm_num
  retryDelayBounds := by norm_num
  retryMaxDelayBounds := by norm_num
  leasePositive := by decide
  delayLeMax := by norm_num
  attemptFits := by decide +kernel

/-- `float` on the header of the sample. -/
def float (header : String) : Option PyFloat := if header = "nan" then some .nan else none

def profileBody : Json := .obj [("registered_at", .str "2026-09-11T00:00:00+00:00")]

/-- A first PUT with a Retry-After of NaN, and a second one that is
accepted. -/
def retriedCall : TimedRecord :=
  [(⟨.enter, .ok ⟨0, none⟩⟩, 0),
    (⟨.put (profilePath 7) profileBody, .ok ⟨429, some "nan"⟩⟩, 3),
    (⟨.leave ⟨0, none⟩ .failure, .ok ()⟩, 0),
    (⟨.sleep (.finite (1 / 10)), .ok ()⟩, 1 / 10),
    (⟨.enter, .ok ⟨0, none⟩⟩, 0),
    (⟨.put (profilePath 7) profileBody, .ok ⟨204, none⟩⟩, 2),
    (⟨.leave ⟨0, none⟩ .success, .ok ()⟩, 0)]

theorem retriedCall_leaves :
    ((profileSettings.provisioner float
      fun _ => "2026-09-11T00:00:00+00:00").createProfile 7 0).Leaves
      (retriedCall.map Prod.fst) (Prog.ofExcept (.ok ())) := by
  with_unfolding_all exact .some (.some (.some (.some (.some (.some (.some (.none _)))))))

end Sample

open Sample in
theorem profile_attempt_fits_retried :
    (∀ a ∈ retriedCall, ProfileEff.Plain a.1.op a.1.resp) ∧
    (∀ a ∈ retriedCall, ProfileEff.Takes 3 a.1.op a.2) ∧
    CallSpec (profilePath 7) profileBody (putsOf (retriedCall.map Prod.fst)) (.ok ()) ∧
    PyFloat.lt (.finite (retriedCall.map Prod.snd).sum) (.finite 30) = true := by
  have hplain : ∀ a ∈ retriedCall, ProfileEff.Plain a.1.op a.1.resp := by
    simp [retriedCall, ProfileEff.Plain]
  have htime : ∀ a ∈ retriedCall, ProfileEff.Takes 3 a.1.op a.2 := by
    simp [retriedCall, ProfileEff.Takes]
    norm_num
  have hfits := (profile_attempt_fits profileSettings float
    (fun _ => "2026-09-11T00:00:00+00:00") 7 0).2 retriedCall (.ok ()) retriedCall_leaves hplain
    htime
  exact ⟨hplain, htime, hfits.1, hfits.2⟩

end IdentityService
