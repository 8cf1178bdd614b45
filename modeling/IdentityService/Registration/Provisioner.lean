import IdentityService.Concurrent.Flow
import IdentityService.Numeric.Float
import IdentityService.Registration.World
import IdentityService.Resilience.CircuitBreaker

/-!
# Provisioning a profile over HTTP

`HTTPProfileProvisioner`: a PUT, at most twice, each behind the circuit
breaker. The breaker's two lock sections and the Profile service answer as
they like here; what the breaker's answers can be is its own subject. The
client's exceptions other than `TransportError` go through.

`wiredMachine` is the registration system with this adapter behind its
Profile calls: the answer of a call is what the adapter makes of the answers
it gets, and every exchange is kept.
-/

namespace IdentityService

open Concurrent

/-! ## The adapter -/

/-- A response of the Profile service, as far as the client reads it. -/
structure HttpResponse where
  statusCode : Nat
  retryAfter : Option String

/-- The awaits of the client: the breaker's two ends, the request and the
pause. -/
inductive ProfileEff where
  | enter
  | leave (admission : Admission) (ending : Ending)
  | put (path : String) (payload : Json)
  | sleep (seconds : PyFloat)

@[reducible] def ProfileEff.Resp : ProfileEff → Type
  | .enter => Admission
  | .leave _ _ => Unit
  | .put _ _ => HttpResponse
  | .sleep _ => Unit

def profileSig : Sig := ⟨ProfileEff, ProfileEff.Resp⟩

/-- The exceptions inside the adapter: the breaker's refusal, its own
`_ProfileCallError`, the client's `TransportError`, and the rest. -/
inductive ProfileExn where
  | circuitBreakerError
  | profileCallError (retryable : Bool) (retryAfterSeconds : Option PyFloat)
  | transportError
  | app (x : Exn)

abbrev Provisioning (α : Type) := Prog profileSig ProfileExn α

def exchange (e : ProfileEff) : Provisioning e.Resp := Prog.perform (S := profileSig) e

/-- What the adapter is built with; `float` is the conversion of a header to
a number, `isoformat` writes instants. -/
structure HTTPProfileProvisioner where
  configured : Bool
  retryDelaySeconds : ℚ
  retryMaxDelaySeconds : ℚ
  float : String → Option PyFloat
  isoformat : Time → String
  delayNonneg : 0 ≤ retryDelaySeconds
  maxDelayPositive : 0 < retryMaxDelaySeconds
  delayLeMax : retryDelaySeconds ≤ retryMaxDelaySeconds

/-- The path of a user's profile. -/
def profilePath (userId : Uuid) : String := "/internal/v1/profiles/" ++ uuidText userId

/-- How the breaker reads the exception of a guarded call. -/
def ProfileExn.ending : ProfileExn → Ending
  | .app .cancelled => .cancelled
  | .profileCallError true _ => .failure
  | _ => .nonFailure

/-- `CircuitBreaker.call`. -/
def guarded {α : Type} (call : Provisioning α) : Provisioning α := do
  let admission ← exchange .enter
  match ← call.outcome with
  | .ok a => do
    exchange (.leave admission .success)
    return a
  | .error x => do
    exchange (.leave admission x.ending)
    throw x

namespace HTTPProfileProvisioner

variable (p : HTTPProfileProvisioner)

/-- `_put_profile`. -/
def putProfile (userId : Uuid) (payload : Json) : Provisioning Unit := do
  match ← (exchange (.put (profilePath userId) payload)).outcome with
  | .error .transportError => throw (.profileCallError true none)
  | .error x => throw x
  | .ok response =>
    if response.statusCode = 204 then
      return ()
    else
      let retryAfterSeconds :=
        if response.statusCode ∈ [423, 429] then
          (response.retryAfter.bind p.float).map fun seconds => seconds.max (.finite 0)
        else none
      throw (.profileCallError (response.statusCode ∈ [423, 429, 500, 502, 503, 504])
        retryAfterSeconds)

/-- The attempts of `create_profile`: `n` are left. -/
def attempts (userId : Uuid) (payload : Json) : Nat → Provisioning Unit
  | 0 => throw (.app .profileProvisioningUnavailable)
  | n + 1 => do
    match ← (guarded (p.putProfile userId payload)).outcome with
    | .ok _ => return ()
    | .error .circuitBreakerError => throw (.app .profileProvisioningUnavailable)
    | .error (.profileCallError retryable retryAfterSeconds) =>
      if !retryable then throw (.app .profileProvisioningRejected)
      else if n = 0 then throw (.app .profileProvisioningUnavailable)
      else do
        let retryAfter := (retryAfterSeconds.map (·.or (.finite 0))).getD (.finite 0)
        exchange (.sleep (((PyFloat.finite p.retryDelaySeconds).max retryAfter).min
          (.finite p.retryMaxDelaySeconds)))
        attempts userId payload n
    | .error x => throw x

def payload (registeredAt : Time) : Json :=
  .obj [("registered_at", .str (p.isoformat registeredAt))]

/-- `create_profile`. -/
def createProfile (userId : Uuid) (registeredAt : Time) : Provisioning Unit :=
  if !p.configured then throw (.app .profileProvisioningUnavailable)
  else p.attempts userId (p.payload registeredAt) 2

end HTTPProfileProvisioner

/-! ### Only a 204 lets it return -/

/-- The Profile service accepted this PUT. -/
def accepted (path : String) (payload : Json) :
    (e : ProfileEff) → Except ProfileExn e.Resp → Prop
  | .put q body, .ok response => q = path ∧ body = payload ∧ response.statusCode = 204
  | _, _ => False

/-- Whether it has, by the events so far. -/
def acceptance (path : String) (payload : Json) : Flow profileSig ProfileExn where
  State := Prop
  start := False
  permits _ _ := True
  next l e r := l ∨ accepted path payload e r

theorem acceptance_after {path : String} {payload : Json} {i : Nat}
    {trace : List (Event profileSig ProfileExn)} (h : (acceptance path payload).after trace i) :
    ∃ response : HttpResponse, response.statusCode = 204 ∧
      ⟨i, .put path payload, .ok response⟩ ∈ trace := by
  induction trace using List.reverseRecOn with
  | nil => exact h.elim
  | append_singleton trace e ih =>
    have hold : (acceptance path payload).after trace i → ∃ response : HttpResponse,
        response.statusCode = 204 ∧ ⟨i, .put path payload, .ok response⟩ ∈ trace ++ [e] := by
      intro hl
      obtain ⟨response, hstatus, hmem⟩ := ih hl
      exact ⟨response, hstatus, List.mem_append_left _ hmem⟩
    by_cases hi : i = e.pid
    · subst hi
      rw [Flow.after_append_self] at h
      rcases h with h | h
      · exact hold h
      · obtain ⟨pid, op, resp⟩ := e
        cases op with
        | put q body =>
          cases resp with
          | ok response =>
            obtain ⟨rfl, rfl, hstatus⟩ := h
            exact ⟨response, hstatus, by simp⟩
          | error x => exact h.elim
        | enter => exact h.elim
        | leave admission ending => exact h.elim
        | sleep seconds => exact h.elim
    · rw [Flow.after_append_ne trace hi] at h
      exact hold h

namespace HTTPProfileProvisioner

variable {p : HTTPProfileProvisioner} {userId : Uuid} {payload : Json} {l : Prop}

/-- A normal return, and what it shows. -/
def Shows (r : Except ProfileExn Unit) (l : Prop) : Prop := ∀ a, r = .ok a → l

theorem putProfile_follows :
    (acceptance (profilePath userId) payload).Follows (p.putProfile userId payload) l Shows := by
  refine ⟨trivial, fun r => ?_⟩
  cases r with
  | error x => cases x <;> exact nofun
  | ok response =>
    show (acceptance _ _).Follows (if response.statusCode = 204 then _ else _) _ Shows
    by_cases hstatus : response.statusCode = 204
    · rw [if_pos hstatus]
      exact fun _ _ => .inr ⟨rfl, rfl, hstatus⟩
    · rw [if_neg hstatus]
      exact nofun

theorem guarded_follows :
    (acceptance (profilePath userId) payload).Follows (guarded (p.putProfile userId payload)) l
      Shows := by
  refine ⟨trivial, fun admission => ?_⟩
  cases admission with
  | error x => exact nofun
  | ok admission =>
    refine putProfile_follows.attempt fun r l' hr => ?_
    cases r with
    | ok a =>
      refine ⟨trivial, fun left => ?_⟩
      cases left with
      | ok _ => exact fun _ _ => .inl (hr a rfl)
      | error x => exact nofun
    | error x =>
      refine ⟨trivial, fun left => ?_⟩
      cases left with
      | ok _ => exact nofun
      | error x => exact nofun

theorem attempts_follows (n : Nat) :
    (acceptance (profilePath userId) payload).Follows (p.attempts userId payload n) l Shows := by
  induction n generalizing l with
  | zero => exact nofun
  | succ n ih =>
    refine guarded_follows.attempt fun r l' hr => ?_
    cases r with
    | ok a => exact fun _ _ => hr a rfl
    | error x =>
      cases x with
      | circuitBreakerError => exact nofun
      | transportError => exact nofun
      | app x => exact nofun
      | profileCallError retryable retryAfterSeconds =>
        simp only
        split
        · exact nofun
        · split
          · exact nofun
          · refine ⟨trivial, fun slept => ?_⟩
            cases slept with
            | ok _ => exact ih
            | error x => exact nofun

end HTTPProfileProvisioner

/-! ## The wired system -/

/-- How the outside answers the adapter. -/
inductive ProfileAnswer where
  | admitted (a : Admission)
  | refused
  | response (r : HttpResponse)
  | transportError
  | raised (tag : Nat)
  | cancelled
  | done

/-- How an await is answered. -/
def profileExec (e : ProfileEff) (c : ProfileAnswer) : Option (Except ProfileExn e.Resp) :=
  match e, c with
  | _, .cancelled => some (.error (.app .cancelled))
  | .enter, .admitted a => some (.ok a)
  | .enter, .refused => some (.error .circuitBreakerError)
  | .leave _ _, .done => some (.ok ())
  | .put _ _, .response r => some (.ok r)
  | .put _ _, .transportError => some (.error .transportError)
  | .put _ _, .raised tag => some (.error (.app (.other tag)))
  | .sleep _, .done => some (.ok ())
  | _, _ => none

def profileMachine : Machine profileSig ProfileExn Unit where
  Choice := ProfileAnswer
  Env := Empty
  exec _ e c s := (profileExec e c).map fun r => (r, s)
  env v _ := nomatch v
  kill _ s := s

/-- What a Profile call comes to for the handler. -/
def ProfileReply.of : Except ProfileExn Unit → ProfileReply
  | .ok _ => .created
  | .error (.app .profileProvisioningRejected) => .rejected
  | .error (.app .profileProvisioningUnavailable) => .unavailable
  | .error (.app .cancelled) => .cancelled
  | .error (.app (.other tag)) => .failed tag
  | .error _ => .failed 0

/-- The registration system, and every exchange with the Profile service. -/
structure WiredWorld where
  world : RegistrationWorld
  exchanges : List (Event profileSig ProfileExn)

/-- How the outside answers: the Profile call through the client, the rest as
before. -/
inductive WiredChoice where
  | plain (c : RegistrationChoice)
  | http (answers : List ProfileAnswer)

namespace WiredWorld

variable (cfg : RegistrationConfig) (p : HTTPProfileProvisioner)

/-- A Profile call from its start to its end. -/
def call (i : Nat) (userId : Uuid) (registeredAt : Time) (answers : List ProfileAnswer)
    (w : WiredWorld) : Option (ProfileReply × List (Event profileSig ProfileExn)) :=
  (profileMachine.traced.play i (p.createProfile userId registeredAt) answers
    ⟨(), w.exchanges⟩).map fun out => (.of out.1, out.2.trace)

/-- The awaits of a handler, with the Profile call made by the client. -/
def exec (i : Nat) (e : RegistrationEff) (c : WiredChoice) (w : WiredWorld) :
    Option (Except Exn e.Resp × WiredWorld) :=
  match e, c with
  | .createProfile userId registeredAt, .http answers =>
    (w.call p i userId registeredAt answers).bind fun out =>
      (RegistrationWorld.exec cfg i (.createProfile userId registeredAt) (.profile out.1)
        w.world).map fun done => (done.1, ⟨done.2, out.2⟩)
  | .createProfile _ _, .plain _ => none
  | e, .plain c => (RegistrationWorld.exec cfg i e c w.world).map fun done =>
      (done.1, { w with world := done.2 })
  | _, .http _ => none

end WiredWorld

/-- The registration system with its HTTP client. -/
def wiredMachine (cfg : RegistrationConfig) (p : HTTPProfileProvisioner) :
    Machine registrationSig Exn WiredWorld where
  Choice := WiredChoice
  Env := RegistrationWorld.Env
  exec := WiredWorld.exec cfg p
  env v w := (RegistrationWorld.env v w.world).map fun t => { w with world := t }
  kill _ w := w

/-! ## What the wiring shows -/

section Wiring

variable {cfg : RegistrationConfig} {p : HTTPProfileProvisioner} {i : Nat}

theorem createProfile_follows {userId : Uuid} {registeredAt : Time} {l : Prop} :
    (acceptance (profilePath userId) (p.payload registeredAt)).Follows
      (p.createProfile userId registeredAt) l HTTPProfileProvisioner.Shows := by
  unfold HTTPProfileProvisioner.createProfile
  split
  · exact nofun
  · exact HTTPProfileProvisioner.attempts_follows 2

/-- A call that returns normally has had a PUT of the user's profile answered
with 204. -/
theorem call_accepted {userId : Uuid} {registeredAt : Time} {answers : List ProfileAnswer}
    {w : WiredWorld} {reply : ProfileReply} {exchanges : List (Event profileSig ProfileExn)}
    (h : w.call p i userId registeredAt answers = some (reply, exchanges)) :
    w.exchanges <+: exchanges ∧ (reply = .created → ∃ response : HttpResponse,
      response.statusCode = 204 ∧
        ⟨i, .put (profilePath userId) (p.payload registeredAt), .ok response⟩ ∈ exchanges) := by
  obtain ⟨⟨r, s⟩, hplay, heq⟩ := Option.map_eq_some_iff.mp h
  cases heq
  obtain ⟨hshows, hpre⟩ := createProfile_follows.play hplay
  refine ⟨hpre, fun hreply => ?_⟩
  cases r with
  | ok a => exact acceptance_after (hshows a rfl)
  | error x =>
    cases x with
    | app x => cases x <;> cases hreply
    | _ => cases hreply

/-- Everything a step of a process can do: a Profile call with its exchanges,
or what the registration system does. -/
theorem wired_exec_cases {e : RegistrationEff} {c : WiredChoice} {w w' : WiredWorld}
    {r : Except Exn e.Resp} (h : WiredWorld.exec cfg p i e c w = some (r, w')) :
    (∃ c', RegistrationWorld.exec cfg i e c' w.world = some (r, w'.world)) ∧
    w.exchanges <+: w'.exchanges ∧
    ∀ userId registeredAt, e = .createProfile userId registeredAt → r.isOk = true →
      ∃ response : HttpResponse, response.statusCode = 204 ∧
        ⟨i, .put (profilePath userId) (p.payload registeredAt), .ok response⟩ ∈ w'.exchanges := by
  cases c with
  | plain c =>
    have hplain : (RegistrationWorld.exec cfg i e c w.world).map
        (fun done => (done.1, { w with world := done.2 })) = some (r, w') ∧
        ∀ userId registeredAt, e ≠ .createProfile userId registeredAt := by
      cases e with
      | createProfile userId registeredAt => cases h
      | _ => exact ⟨h, nofun⟩
    obtain ⟨⟨a, t⟩, hx, heq⟩ := Option.map_eq_some_iff.mp hplain.1
    cases heq
    exact ⟨⟨c, hx⟩, List.prefix_rfl, fun u t he => absurd he (hplain.2 u t)⟩
  | http answers =>
    cases e with
    | createProfile userId registeredAt =>
      obtain ⟨⟨reply, exchanges⟩, hcall, hrest⟩ := Option.bind_eq_some_iff.mp h
      obtain ⟨⟨a, t⟩, hx, heq⟩ := Option.map_eq_some_iff.mp hrest
      cases heq
      obtain ⟨hpre, haccepted⟩ := call_accepted hcall
      refine ⟨⟨_, hx⟩, hpre, ?_⟩
      rintro u t ⟨⟩ hok
      cases hx
      refine haccepted ?_
      cases reply with
      | created => rfl
      | _ => cases hok
    | _ => cases h

/-- The recorded wired system, without its exchanges. -/
def unwired (cfg : RegistrationConfig) (p : HTTPProfileProvisioner) :
    Projection (wiredMachine cfg p).traced (registrationMachine cfg).traced where
  state s := ⟨s.state.world, s.trace⟩
  exec i e c s r s' h := by
    obtain ⟨hx, htrace⟩ := Machine.traced_exec.mp h
    obtain ⟨⟨c', hc'⟩, -, -⟩ := wired_exec_cases hx
    exact ⟨c', Machine.traced_exec.mpr ⟨hc', htrace⟩⟩
  env v s s' h := by
    obtain ⟨t, ht, rfl⟩ := Option.map_eq_some_iff.mp h
    obtain ⟨u, hu, rfl⟩ := Option.map_eq_some_iff.mp ht
    exact ⟨v, by simp [Machine.traced, registrationMachine, hu]⟩
  kill _ _ := rfl

end Wiring

end IdentityService
