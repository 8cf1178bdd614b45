import IdentityService.Auth.Failures
import IdentityService.Auth.Login
import IdentityService.Registration.BornOut
import IdentityService.Registration.ExactlyOnce
import IdentityService.Registration.Failures

/-!
# What the API answers

Every response is one the documentation of its route shows, or the safe
internal error; it is never cached; and its cookies are those of its status.
-/

namespace IdentityService

open Concurrent

variable {C : ResultCodec} {ts : List ErrorType}

/-! ## The contract -/

/-- The routes; a refresh with or without a token in its cookie. -/
inductive Endpoint where
  | register
  | login
  | refresh (presented : Bool)
  | logout

/-- The body of a 201. -/
def accountBody (userId : Uuid) : Json := .obj [("userId", .str (uuidText userId))]

/-- The body of a 202. -/
def pendingBody (registrationId userId : Uuid) : Json :=
  .obj [("registrationId", .str (uuidText registrationId)), ("userId", .str (uuidText userId)),
    ("status", .str "PENDING")]

/-- The two cookies of a pair. -/
def SignsIn (settings : SecuritySettings) (response : ApiResponse) : Prop :=
  ∃ pair : TokenPair, response.cookies =
    [authCookie settings "access_token" pair.accessToken settings.accessTokenTtlSeconds "/",
      authCookie settings "refresh_token" pair.refreshToken settings.authSessionIdleTtlSeconds
        "/api/v1/auth"]

/-- Both cookies are deleted, under the names and the paths they were set
with. -/
def SignsOut (settings : SecuritySettings) (response : ApiResponse) : Prop :=
  response.cookies = [authCookie settings "access_token" "" 0 "/",
    authCookie settings "refresh_token" "" 0 "/api/v1/auth"]

namespace Endpoint

/-- The arguments of the route's `openapi_error_responses`. -/
def documented : Endpoint → List ErrorType
  | .register =>
    [.userAlreadyExists, .profileProvisioningUnavailable, .idempotencyKeyConflict,
      .requestValidation]
  | .login => [.invalidCredentials, .requestValidation]
  | .refresh _ =>
    [.invalidRefreshToken, .requestValidation, .idempotencyKeyConflict,
      .idempotencyRequestInProgress, .idempotencyStorageUnavailable, .refreshReplayUnavailable]
  | .logout => []

/-- The errors that reach the exception handlers. A refresh answers a refused
token itself. -/
def failures : Endpoint → List ErrorType
  | .register => registerFailures
  | .login => [.invalidCredentials]
  | .refresh true =>
    [.idempotencyKeyConflict, .idempotencyRequestInProgress, .refreshReplayUnavailable]
  | .refresh false => [.invalidRefreshToken]
  | .logout => []

/-- A registration answers with the id of the account; one that waits, with
the ids of its operation, and says for how long. -/
def Succeeds (response : ApiResponse) : Endpoint → Prop
  | .register =>
    (response.statusCode = 201 ∧ ∃ userId, response.body = some (accountBody userId)) ∨
    (response.statusCode = 202 ∧
      (∃ registrationId userId, response.body = some (pendingBody registrationId userId)) ∧
      ∃ n : Int, 1 ≤ n ∧ ("Retry-After", toString n) ∈ response.headers)
  | _ => response.statusCode = 204 ∧ response.body = none

/-- The cookies that a response of the route carries. -/
def HasCookies (settings : SecuritySettings) (response : ApiResponse) : Endpoint → Prop
  | .register => response.cookies = []
  | .login => if response.statusCode = 204 then SignsIn settings response else response.cookies = []
  | .refresh presented =>
    if response.statusCode = 204 then SignsIn settings response
    else if response.statusCode = 401 ∧ presented then SignsOut settings response
    else response.cookies = []
  | .logout =>
    if response.statusCode = 204 then SignsOut settings response else response.cookies = []

end Endpoint

/-- The documentation shows the response: its body is an example of its
status, and all the headers it is given are there, its cookies apart. -/
def Documented (errors : List ErrorType) (response : ApiResponse) : Prop :=
  ∃ entry, openapiErrorResponses errors response.statusCode = some entry ∧
    (∃ e ∈ entry.examples, response.body = some e.2.value) ∧
    ∀ h ∈ response.headers, h.1 ∈ entry.headers

/-- What a response of a route must be. -/
structure Contract (settings : SecuritySettings) (retryAfterSeconds : Int) (endpoint : Endpoint)
    (response : ApiResponse) : Prop where
  shown : endpoint.Succeeds response ∨ Documented endpoint.documented response ∨
    response = createInternalErrorResponse
  noStore : ∀ h ∈ noStoreHeaders, h ∈ response.headers
  cookies : endpoint.HasCookies settings response
  /-- A request in progress says when to come back. -/
  retryAfter : response.statusCode = 423 →
    ("Retry-After", toString retryAfterSeconds) ∈ response.headers
  /-- An unreachable hot store is not reported. -/
  available : response.body ≠ some (errorBody (httpErrorSpecs .idempotencyStorageUnavailable))

theorem documented_of_mem {errors : List ErrorType} {t : ErrorType} {response : ApiResponse}
    (ht : t ∈ errors) (hstatus : response.statusCode = (httpErrorSpecs t).statusCode)
    (hbody : response.body = some (errorBody (httpErrorSpecs t)))
    (hheaders : ∀ h ∈ response.headers, h ∈ noStoreHeaders ∨
      t = .idempotencyRequestInProgress ∧ h.1 = "Retry-After") : Documented errors response := by
  obtain ⟨entry, hentry, hshows⟩ := openapiErrorResponses_shows ht
  refine ⟨entry, hstatus ▸ hentry, ?_, fun h hh => ?_⟩
  · obtain ⟨e, he, -, hvalue⟩ := hshows.shown
    exact ⟨e, he, by rw [hbody, hvalue]⟩
  · rcases hheaders h hh with hstore | ⟨hprogress, hname⟩
    · exact hshows.noStore h hstore
    · rw [hname]
      exact hshows.retryAfter hprogress

section Answers

variable (settings : SecuritySettings) (retryAfterSeconds : Int) (endpoint : Endpoint)

theorem Endpoint.failures_documented : ∀ t ∈ endpoint.failures, t ∈ endpoint.documented := by
  rcases endpoint with _ | _ | ⟨_ | _⟩ | _ <;> decide

theorem activeSpec_statusCode (t : ErrorType) :
    (activeSpec retryAfterSeconds t).statusCode = (httpErrorSpecs t).statusCode := by
  unfold activeSpec
  split <;> rfl

theorem activeSpec_body (t : ErrorType) :
    errorBody (activeSpec retryAfterSeconds t) = errorBody (httpErrorSpecs t) := by
  unfold activeSpec
  split <;> rfl

theorem httpErrorSpecs_headers (t : ErrorType) : (httpErrorSpecs t).headers = noStoreHeaders := by
  cases t <;> rfl

theorem mem_activeSpec_headers {t : ErrorType} {h : String × String} :
    h ∈ (activeSpec retryAfterSeconds t).headers ↔ h ∈ noStoreHeaders ∨
      t = .idempotencyRequestInProgress ∧ h = ("Retry-After", toString retryAfterSeconds) := by
  unfold activeSpec
  split
  · rename_i hprogress
    simp [httpErrorSpecs_headers, hprogress]
  · rename_i hprogress
    simp [httpErrorSpecs_headers, hprogress]

theorem errorBody_available {t : ErrorType} (h : t ≠ .idempotencyStorageUnavailable) :
    errorBody (httpErrorSpecs t) ≠ errorBody (httpErrorSpecs .idempotencyStorageUnavailable) := by
  cases t with
  | idempotencyStorageUnavailable => exact absurd rfl h
  | _ => simp [errorBody, httpErrorSpecs, validationErrorSpec, AuthApiErrorCode.value]

/-- No cookies, on an error. -/
theorem Endpoint.hasCookies_error {response : ApiResponse} (hcookies : response.cookies = [])
    (hstatus : response.statusCode ≠ 204)
    (hpresented : endpoint = .refresh true → response.statusCode ≠ 401) :
    endpoint.HasCookies settings response := by
  rcases endpoint with _ | _ | ⟨_ | _⟩ | _
  · exact hcookies
  · simpa [HasCookies, hstatus] using hcookies
  · simpa [HasCookies, hstatus] using hcookies
  · simpa [HasCookies, hstatus, hpresented rfl] using hcookies
  · simpa [HasCookies, hstatus] using hcookies

/-- What the exception handlers answer. -/
theorem contract_error {t : ErrorType} (ht : t ∈ endpoint.failures) :
    Contract settings retryAfterSeconds endpoint
      (responseFromSpec (activeSpec retryAfterSeconds t)) where
  shown := by
    refine .inr (.inl (documented_of_mem (endpoint.failures_documented t ht)
      (activeSpec_statusCode _ t) ?_ fun h hh => ?_))
    · simp only [responseFromSpec, activeSpec_body]
    · exact (mem_activeSpec_headers _).mp hh |>.imp id (And.imp id (congrArg Prod.fst))
  noStore h hh := (mem_activeSpec_headers _).mpr (.inl hh)
  cookies := by
    refine endpoint.hasCookies_error settings rfl ?_ ?_
    · rw [show (responseFromSpec _).statusCode = _ from activeSpec_statusCode _ t]
      cases t <;> decide
    · rintro rfl
      rw [show (responseFromSpec _).statusCode = _ from activeSpec_statusCode _ t]
      have hstatus : ∀ t ∈ (Endpoint.refresh true).failures, (httpErrorSpecs t).statusCode ≠ 401 :=
        by decide
      exact hstatus t ht
  retryAfter h := by
    rw [show (responseFromSpec _).statusCode = _ from activeSpec_statusCode _ t] at h
    refine (mem_activeSpec_headers _).mpr (.inr ⟨?_, rfl⟩)
    cases t <;> first | rfl | exact absurd h (by decide)
  available := by
    simp only [responseFromSpec, activeSpec_body, ne_eq, Option.some.injEq]
    refine errorBody_available ?_
    rintro rfl
    rcases endpoint with _ | _ | ⟨_ | _⟩ | _ <;> exact absurd ht (by decide)

theorem contract_internal :
    Contract settings retryAfterSeconds endpoint createInternalErrorResponse where
  shown := .inr (.inr rfl)
  noStore _ hh := hh
  cookies := endpoint.hasCookies_error settings rfl (by decide) fun _ => by decide
  retryAfter h := absurd h (by decide)
  available := by simp [createInternalErrorResponse, responseFromSpec, internalErrorSpec, errorBody,
    httpErrorSpecs, AuthApiErrorCode.value]

/-! ## What follows a route -/

variable {settings retryAfterSeconds endpoint}

/-- What a route leaves to the exception handlers. -/
def Routed (settings : SecuritySettings) (retryAfterSeconds : Int) (endpoint : Endpoint) :
    Except Exn ApiResponse → Prop
  | .ok response => Contract settings retryAfterSeconds endpoint response
  | .error x => x.within endpoint.failures = true

/-- A request is answered by the contract, unless it is cancelled. -/
def Replied (settings : SecuritySettings) (retryAfterSeconds : Int) (endpoint : Endpoint) :
    Except Exn ApiResponse → Prop
  | .ok response => Contract settings retryAfterSeconds endpoint response
  | .error x => x = .cancelled

theorem handlers_replied {S : Sig} {may : S.Op → Exn → Prop} {route : Prog S Exn ApiResponse}
    (h : route.Answers may (Routed settings retryAfterSeconds endpoint)) :
    (withExceptionHandlers retryAfterSeconds route).Answers may
      (Replied settings retryAfterSeconds endpoint) := by
  refine h.attempt fun r hr => ?_
  cases r with
  | ok response => exact hr
  | error x =>
    simp only
    split
    · rename_i hcancelled
      show x = .cancelled
      simpa [Exn.isException] using hcancelled
    · cases ht : x.errorType with
      | some t =>
        have hmem : t ∈ endpoint.failures := by simpa [Routed, Exn.within, ht] using hr
        exact contract_error settings retryAfterSeconds endpoint hmem
      | none => exact contract_internal settings retryAfterSeconds endpoint

theorem hashIdempotencyKey_fails (sha256 : String → Digest) (rawKey : String) :
    FailsWithin ts (hashIdempotencyKey sha256 rawKey) := by
  unfold hashIdempotencyKey
  split
  · exact fails_none rfl
  · exact Prog.raises_ok _ _

/-! ## Login, refresh and logout -/

section Auth

variable {cfg : AuthConfig}

theorem noStore_setNoStoreHeaders (response : ApiResponse) :
    ∀ h ∈ noStoreHeaders, h ∈ (setNoStoreHeaders response).headers := by
  intro h hh
  simp only [noStoreHeaders, List.mem_cons, List.not_mem_nil, or_false] at hh
  rcases hh with rfl | rfl
  · exact mem_assign_of_ne (mem_assign _ _ _) (by decide)
  · exact mem_assign _ _ _

/-- A success without content. -/
theorem contract_noContent {response : ApiResponse} (hstatus : response.statusCode = 204)
    (hbody : response.body = none) (hnoStore : ∀ h ∈ noStoreHeaders, h ∈ response.headers)
    (hsucceeds : endpoint ≠ .register) (hcookies : endpoint.HasCookies settings response) :
    Contract settings retryAfterSeconds endpoint response where
  shown := by
    cases endpoint with
    | register => exact absurd rfl hsucceeds
    | _ => exact .inl ⟨hstatus, hbody⟩
  noStore := hnoStore
  cookies := hcookies
  retryAfter h := by
    rw [hstatus] at h
    cases h
  available := by simp [hbody]

theorem contract_tokens (hsignsIn : endpoint = .login ∨ ∃ presented, endpoint = .refresh presented)
    (pair : TokenPair) :
    Contract settings retryAfterSeconds endpoint (setTokensCookies settings noContent pair) := by
  refine contract_noContent rfl rfl (noStore_setNoStoreHeaders _) ?_ ?_
  · rcases hsignsIn with rfl | ⟨presented, rfl⟩ <;> simp
  · rcases hsignsIn with rfl | ⟨presented, rfl⟩
    · exact ⟨pair, rfl⟩
    · exact ⟨pair, rfl⟩

theorem loginRoute_routed (command : LoginCommand) :
    (loginRoute cfg settings command).Answers callMay
      (Routed settings retryAfterSeconds .login) := by
  have hraises : Raises Endpoint.login.failures (loginExecute cfg command) :=
    loginExecute_raises (by decide) command
  refine hraises.bind (fun pair _ => contract_tokens (.inl rfl) pair) fun x hx => ?_
  simpa [Routed] using hx

theorem logoutRoute_routed (refreshToken : Option String) :
    (logoutRoute cfg settings refreshToken).Answers callMay
      (Routed settings retryAfterSeconds .logout) := by
  have hraises : Raises Endpoint.logout.failures (logoutExecute cfg ⟨refreshToken⟩) :=
    logoutExecute_raises _
  refine hraises.bind (fun _ _ => ?_) fun x hx => by simpa [Routed] using hx
  exact contract_noContent rfl rfl (noStore_setNoStoreHeaders _) (by simp) rfl

/-- The answer to a token that is refused is the documented one, with both
cookies deleted. -/
theorem contract_refused : Contract settings retryAfterSeconds (.refresh true)
    (deleteAuthCookies settings (createErrorResponse .invalidRefreshToken)) where
  shown := by
    refine .inr (.inl (documented_of_mem (t := .invalidRefreshToken) (by decide) rfl rfl ?_))
    intro h hh
    exact .inl hh
  noStore := noStore_setNoStoreHeaders _
  cookies := rfl
  retryAfter h := absurd (show 401 = 423 from h) (by decide)
  available := by simp [deleteAuthCookies, setNoStoreHeaders, createErrorResponse,
    responseFromSpec, errorBody, httpErrorSpecs, AuthApiErrorCode.value]

theorem answerRefresh_routed {r : Except Exn TokenPair} (hr : FailsWithin refreshFailures r) :
    (answerRefresh settings r).Answers callMay
      (Routed settings retryAfterSeconds (.refresh true)) := by
  cases r with
  | ok pair => exact contract_tokens (.inr ⟨true, rfl⟩) pair
  | error x =>
    have hx : x.within refreshFailures = true := by simpa using hr
    by_cases hrefused : x.errorType = some .invalidRefreshToken
    · simp only [answerRefresh, if_pos hrefused]
      exact contract_refused
    · simp only [answerRefresh, if_neg hrefused]
      show x.within (Endpoint.refresh true).failures = true
      cases ht : x.errorType with
      | none => exact Exn.within_of_none ht
      | some t =>
        have hmem : t ∈ refreshFailures := by simpa [Exn.within, ht] using hx
        rcases List.mem_cons.mp hmem with rfl | hrest
        · exact absurd ht hrefused
        · simp only [Exn.within, ht, Option.all_some, List.contains_iff_mem]
          exact hrest

theorem refreshRoute_routed (hprotector : cfg.protector.Refuses) (hotStore : Bool)
    (refreshToken : Option String) (idempotencyKey : String) :
    (refreshRoute cfg settings hotStore refreshToken idempotencyKey).Answers callMay
      (Routed settings retryAfterSeconds (.refresh refreshToken.isSome)) := by
  cases refreshToken with
  | none =>
    show Exn.within (Endpoint.refresh false).failures .invalidRefreshToken = true
    decide
  | some token =>
    have hkey : FailsWithin (Endpoint.refresh true).failures
        (hashIdempotencyKey cfg.sha256 (Text.strip idempotencyKey)) :=
      hashIdempotencyKey_fails _ _
    refine (Prog.answers_ofExcept hkey).bind (fun keyHash _ => ?_)
      fun x hx => by simpa [Routed] using hx
    exact (refreshExecute_raises hprotector hotStore _).attempt fun r hr => answerRefresh_routed hr

end Auth

/-! ## Registration -/

section Registration

variable {cfg : RegistrationConfig}

/-- Both answers of a registration that the handler accepts. -/
theorem contract_registered {result : RegistrationResult} (h : Registers (.ok result)) :
    Contract settings retryAfterSeconds .register (registerResponse result) := by
  cases houtcome : result.outcome with
  | completed =>
    simp only [registerResponse, houtcome]
    exact ⟨.inl (.inl ⟨rfl, _, rfl⟩), fun h hh => hh, rfl,
      fun h => absurd (show 201 = 423 from h) (by decide), by simp [errorBody]⟩
  | pending =>
    have hwait : 1 ≤ result.retryAfterSeconds.getD 0 := h houtcome
    have hpositive : result.retryAfterSeconds.getD 0 ≠ 0 := by omega
    simp only [registerResponse, houtcome, if_neg hpositive]
    refine ⟨.inl (.inr ⟨rfl, ⟨_, _, rfl⟩, _, hwait, mem_assign _ _ _⟩), fun x hx => ?_, rfl,
      fun h => absurd (show 202 = 423 from h) (by decide), by simp [errorBody]⟩
    refine mem_assign_of_ne hx ?_
    simp only [noStoreHeaders, List.mem_cons, List.not_mem_nil, or_false] at hx
    rcases hx with rfl | rfl <;> decide

theorem registerRoute_routed {sha256 : String → Digest} (email password idempotencyKey : String) :
    (registerRoute cfg sha256 email password idempotencyKey).Answers registrationMay
      (Routed settings retryAfterSeconds .register) := by
  have hkey : FailsWithin registerFailures (hashIdempotencyKey sha256 idempotencyKey) :=
    hashIdempotencyKey_fails _ _
  refine (Prog.answers_ofExcept hkey).bind (fun keyHash _ => ?_)
    fun x hx => (Prog.raises_error _ x).mp hx
  exact (registerExecute_registers _).bind (fun result h => contract_registered h) fun x hx => hx

/-- What the ids of a success are: those of an operation of the request's key
that the tables have. A 201 names an account they have as well. -/
structure NamesOperation (sha256 : String → Digest) (idempotencyKey : String)
    (db : RegistrationDb) (response : ApiResponse) : Prop where
  created : response.statusCode = 201 → ∃ o ∈ db.operations,
    hashIdempotencyKey sha256 idempotencyKey = .ok o.keyHash ∧ db.HasAccount o.userId ∧
      response.body = some (accountBody o.userId)
  accepted : response.statusCode = 202 → ∃ o ∈ db.operations,
    hashIdempotencyKey sha256 idempotencyKey = .ok o.keyHash ∧
      response.body = some (pendingBody o.id o.userId)

/-- An outcome whose response, if there is one, is about an operation of the
key. -/
def Names (sha256 : String → Digest) (idempotencyKey : String) (db : RegistrationDb)
    (r : Except Exn ApiResponse) : Prop :=
  ∀ response, r = .ok response → NamesOperation sha256 idempotencyKey db response

variable {sha256 : String → Digest} {idempotencyKey : String} {db : RegistrationDb}

/-- An error names nothing. -/
theorem names_error {response : ApiResponse} (hcreated : response.statusCode ≠ 201)
    (haccepted : response.statusCode ≠ 202) : Names sha256 idempotencyKey db (.ok response) := by
  rintro _ ⟨⟩
  exact ⟨fun h => absurd h hcreated, fun h => absurd h haccepted⟩

theorem names_registered {keyHash : Digest} {result : RegistrationResult}
    (hkey : hashIdempotencyKey sha256 idempotencyKey = .ok keyHash)
    (h : SettlesKey db keyHash (.ok result)) :
    Names sha256 idempotencyKey db (.ok (registerResponse result)) := by
  obtain ⟨o, ho, rfl, hid, huser, haccount⟩ := h
  rintro _ ⟨⟩
  cases houtcome : result.outcome with
  | completed =>
    simp only [registerResponse, houtcome]
    refine ⟨fun _ => ⟨o, ho, hkey, haccount houtcome, ?_⟩,
      fun h => absurd (show 201 = 202 from h) (by decide)⟩
    rw [huser]
    rfl
  | pending =>
    simp only [registerResponse, houtcome]
    refine ⟨fun h => absurd (show 202 = 201 from h) (by decide), fun _ => ⟨o, ho, hkey, ?_⟩⟩
    rw [hid, huser]
    rfl

theorem registerRoute_names (email password : String) :
    (registerRoute cfg sha256 email password idempotencyKey).Given db.BearsOut
      (Names sha256 idempotencyKey db) := by
  simp only [registerRoute]
  cases hkey : hashIdempotencyKey sha256 idempotencyKey with
  | error x => exact fun _ => nofun
  | ok keyHash =>
    refine (registerExecute_settles ⟨email, password, keyHash⟩).bind ?_ fun _ _ _ => nofun
    exact fun result hresult => names_registered hkey hresult

theorem handlers_names {route : Registration ApiResponse}
    (h : route.Given db.BearsOut (Names sha256 idempotencyKey db)) :
    (withExceptionHandlers retryAfterSeconds route).Given db.BearsOut
      (Names sha256 idempotencyKey db) := by
  refine h.attempt fun r hr => ?_
  cases r with
  | ok response => exact hr
  | error x =>
    simp only
    split
    · exact fun _ => nofun
    · cases ht : x.errorType with
      | some t =>
        have hstatus : (responseFromSpec (activeSpec retryAfterSeconds t)).statusCode =
          (httpErrorSpecs t).statusCode := activeSpec_statusCode retryAfterSeconds t
        refine names_error ?_ ?_
        · rw [hstatus]
          cases t <;> decide
        · rw [hstatus]
          cases t <;> decide
      | none => exact names_error (by decide) (by decide)

end Registration

end Answers

/-! ## Runs -/

variable {settings : SecuritySettings} {retryAfterSeconds : Int}

/-- A request, as far as FastAPI has validated it. -/
inductive AuthRequest where
  | login (command : LoginCommand)
  | refresh (hotStore : Bool) (refreshToken : Option String) (idempotencyKey : String)
  | logout (refreshToken : Option String)

namespace AuthRequest

/-- The route that a request goes to. -/
def endpoint : AuthRequest → Endpoint
  | .login _ => .login
  | .refresh _ refreshToken _ => .refresh refreshToken.isSome
  | .logout _ => .logout

/-- The route's function. -/
def route (cfg : AuthConfig) (settings : SecuritySettings) : AuthRequest → App auth ApiResponse
  | .login command => loginRoute cfg settings command
  | .refresh hotStore refreshToken idempotencyKey =>
    refreshRoute cfg settings hotStore refreshToken idempotencyKey
  | .logout refreshToken => logoutRoute cfg settings refreshToken

theorem route_routed {cfg : AuthConfig} (hprotector : cfg.protector.Refuses)
    (request : AuthRequest) : (request.route cfg settings).Answers callMay
      (Routed settings retryAfterSeconds request.endpoint) := by
  cases request with
  | login command => exact loginRoute_routed command
  | refresh hotStore refreshToken idempotencyKey =>
    exact refreshRoute_routed hprotector hotStore refreshToken idempotencyKey
  | logout refreshToken => exact logoutRoute_routed refreshToken

end AuthRequest

/-- **The authentication API answers as documented**, in every run from every
state: whatever the other processes do, and whatever fails underneath, as long
as the infrastructure raises no exception that has a response of its own. -/
theorem auth_contract {cfg : AuthConfig} (hprotector : cfg.protector.Refuses)
    {P P' : Config (sig auth) Exn (Traced (sig auth) Exn (World auth C)) ApiResponse}
    (hr : (machine auth C).traced.Reach (fun _ _ => True) P P') {i : Nat} {request : AuthRequest}
    (hstart : P.pool i =
      some (withExceptionHandlers retryAfterSeconds (request.route cfg settings)))
    (hrefused : Machine.Refused callMay P'.shared.trace i) {r : Except Exn ApiResponse}
    (hend : P'.pool i = some (Prog.ofExcept r)) :
    Replied settings retryAfterSeconds request.endpoint r := by
  have hanswers := Machine.answers_reach hr hstart
    (handlers_replied (AuthRequest.route_routed hprotector request)) hrefused hend
  cases r with
  | ok response => exact hanswers
  | error x => exact hanswers

namespace Sample

/-- The security settings of the sample service. -/
def securitySettings : SecuritySettings := ⟨true, .lax, 900, 1000000, by decide, by decide, by simp⟩

/-- A login, and one with an address that nobody has. -/
def requests : Nat → Option AuthRequest
  | 0 => some (.login ⟨"user@example.org", "password"⟩)
  | 1 => some (.login ⟨"nobody@example.org", "secret"⟩)
  | _ => none

/-- The sample service behind its routes. -/
def serving : Config (sig auth) Exn (Traced (sig auth) Exn (World auth codec)) ApiResponse :=
  ⟨(AuthCallee.recorded codec authConfig [account] 5 fun _ => none).shared, fun i =>
    (requests i).map fun request =>
      withExceptionHandlers 1 (request.route authConfig securitySettings)⟩

/-- A login has been answered, and one with a wrong password too. -/
structure Served
    (P : Config (sig auth) Exn (Traced (sig auth) Exn (World auth codec)) ApiResponse) :
    Prop where
  run : (machine auth codec).traced.run (fun _ _ => true) serving
    (onRecord (loggedIn ++ answered 1 (going 2 ++ [issuing 0 ""]))) = some P
  signedIn : P.pool 0 = some (.ret
    (setTokensCookies securitySettings noContent ⟨"access", "r1", "bearer"⟩))
  refused : P.pool 1 = some (.ret (createErrorResponse .invalidCredentials))
  granted : P.shared.trace.all (fun e =>
    match e.resp with
    | .ok _ => true
    | .error _ => false) = true

set_option maxRecDepth 4000 in
theorem exists_served : ∃ P, Served P := ⟨_, rfl, rfl, rfl, rfl⟩

theorem protector_refuses : authConfig.protector.Refuses := by
  intro envelope aad x hx
  cases hx

end Sample

theorem auth_contract_refused : ∃ P, Sample.Served P ∧
    Contract Sample.securitySettings 1 .login
      (setTokensCookies Sample.securitySettings noContent ⟨"access", "r1", "bearer"⟩) ∧
    Contract Sample.securitySettings 1 .login (createErrorResponse .invalidCredentials) := by
  obtain ⟨P, h⟩ := Sample.exists_served
  have hr := Machine.reach_of_run _ (fun _ _ _ => trivial) _ _ _ h.run
  have hrefused : ∀ i, Machine.Refused callMay P.shared.trace i := by
    intro i e he _ x hx
    have hok := List.all_eq_true.mp h.granted e he
    rw [hx] at hok
    cases hok
  have hserving : ∀ i request, Sample.requests i = some request → Sample.serving.pool i =
      some (withExceptionHandlers 1 (request.route Sample.authConfig Sample.securitySettings)) := by
    intro i request hi
    simp [Sample.serving, hi]
  refine ⟨P, h, ?_, ?_⟩
  · exact auth_contract Sample.protector_refuses hr (i := 0) (hserving 0 _ rfl) (hrefused 0)
      (r := .ok _) h.signedIn
  · exact auth_contract Sample.protector_refuses hr (i := 1) (hserving 1 _ rfl) (hrefused 1)
      (r := .ok _) h.refused

/-- **The registration API answers as documented**, in every run from every
state, and a success is about an operation of the request's key: a 201 has
the id of its account. -/
theorem register_contract {cfg : RegistrationConfig} {sha256 : String → Digest}
    {P P' : Config registrationSig Exn (Traced registrationSig Exn RegistrationWorld) ApiResponse}
    (hfresh : P.shared.trace = [])
    (hr : (registrationMachine cfg).traced.Reach (fun _ _ => True) P P') {i : Nat}
    {email password idempotencyKey : String}
    (hstart : P.pool i = some (withExceptionHandlers retryAfterSeconds
      (registerRoute cfg sha256 email password idempotencyKey)))
    {r : Except Exn ApiResponse} (hend : P'.pool i = some (Prog.ofExcept r)) :
    Replied settings retryAfterSeconds .register r ∧
      Names sha256 idempotencyKey P'.shared.state.db r := by
  have hrefused : Machine.Refused registrationMay P'.shared.trace i :=
    Machine.refused_reach registration_refuses hr hfresh i
  have hrouted : (registerRoute cfg sha256 email password idempotencyKey).Answers registrationMay
      (Routed settings retryAfterSeconds .register) := registerRoute_routed _ _ _
  have hanswers := Machine.answers_reach hr hstart (handlers_replied hrouted) hrefused hend
  have hnames := Machine.given_reach hr hstart (handlers_names (registerRoute_names email password))
    (fun e he _ => bearsOut_reach hr hfresh e he) hend
  cases r with
  | ok response => exact ⟨hanswers, hnames⟩
  | error x => exact ⟨hanswers, hnames⟩

namespace Sample

/-- The caller of `registering`. -/
def receiving :
    Config registrationSig Exn (Traced registrationSig Exn RegistrationWorld) ApiResponse :=
  ⟨⟨.start 5, []⟩, fun
    | 0 => some (withExceptionHandlers 1
        (registerRoute registration (fun _ => command.keyHash) "a@b.c" "secret" "registration-key"))
    | _ => none⟩

/-- A registration has been answered. -/
structure Received
    (P : Config registrationSig Exn (Traced registrationSig Exn RegistrationWorld) ApiResponse) :
    Prop where
  run : (registrationMachine registration).traced.run (fun _ _ => true) receiving
    (registered₀.map fun
      | .act i c => .act i c
      | .env v => .env v
      | .crash i => .crash i) = some P
  created : P.pool 0 = some (.ret (registerResponse (completedResult 1 2)))

theorem exists_received : ∃ P, Received P := ⟨_, rfl, rfl⟩

end Sample

theorem register_contract_created : ∃ P, Sample.Received P ∧
    Contract Sample.securitySettings 1 .register (registerResponse (completedResult 1 2)) ∧
    ∃ o ∈ P.shared.state.db.operations, P.shared.state.db.HasAccount o.userId ∧
      (registerResponse (completedResult 1 2)).body = some (accountBody o.userId) := by
  obtain ⟨P, h⟩ := Sample.exists_received
  have hr := Machine.reach_of_run _ (fun _ _ _ => trivial) _ _ _ h.run
  have hcontract : Replied Sample.securitySettings 1 .register
      (.ok (registerResponse (completedResult 1 2))) ∧ Names _ _ P.shared.state.db _ :=
    register_contract rfl hr (i := 0) rfl (r := .ok _) h.created
  obtain ⟨hreplied, hnames⟩ := hcontract
  obtain ⟨o, ho, -, haccount, hbody⟩ := (hnames _ rfl).created rfl
  exact ⟨P, h, hreplied, o, ho, haccount, hbody⟩

end IdentityService
