import IdentityService.Auth.Handlers
import IdentityService.Concurrent.Answers
import IdentityService.Registration.Handlers
import IdentityService.Text.Strip

/-!
# The responses of the API

The routes `register`, `login`, `refresh` and `logout` around their handlers,
the table that gives an exception its response, and the documentation that
`openapi_error_responses` makes of the same table. Requests are given as far
as FastAPI has validated them; the commands only check the same again. Header
names are kept as the source writes them, with the `Set-Cookie` fields apart
and without what the framework adds (the type and the length of the body).
-/

namespace IdentityService

open Concurrent

/-! ## Errors -/

/-- The keys of `_HTTP_ERROR_SPECS`. -/
inductive ErrorType where
  | invalidCommand
  | invalidEmail
  | invalidPassword
  | profileProvisioningUnavailable
  | requestValidation
  | userAlreadyExists
  | invalidCredentials
  | invalidToken
  | invalidRefreshToken
  | idempotencyKeyConflict
  | idempotencyRequestInProgress
  | idempotencyStorageUnavailable
  | refreshReplayUnavailable
  | userNotFound
deriving DecidableEq

/-- The handler of an exception is found along its bases. -/
def Exn.errorType : Exn → Option ErrorType
  | .profileProvisioningUnavailable => some .profileProvisioningUnavailable
  | .profileProvisioningRejected => some .profileProvisioningUnavailable
  | .userAlreadyExists => some .userAlreadyExists
  | .invalidCredentials => some .invalidCredentials
  | .invalidRefreshToken => some .invalidRefreshToken
  | .authSessionInactive => some .invalidRefreshToken
  | .refreshTokenReuse => some .invalidRefreshToken
  | .idempotencyKeyConflict => some .idempotencyKeyConflict
  | .idempotencyRequestInProgress => some .idempotencyRequestInProgress
  | .idempotencyStorageUnavailable => some .idempotencyStorageUnavailable
  | .refreshReplayUnavailable => some .refreshReplayUnavailable
  | _ => none

/-- `AuthApiErrorCode`, by its values. -/
inductive AuthApiErrorCode where
  | validationError
  | internalError
  | emailAlreadyExists
  | invalidCredentials
  | invalidToken
  | invalidRefreshToken
  | idempotencyKeyConflict
  | idempotencyRequestInProgress
  | idempotencyUnavailable
  | refreshReplayUnavailable
  | userNotFound
  | profileProvisioningUnavailable
deriving DecidableEq

/-- The text of a code. -/
def AuthApiErrorCode.value : AuthApiErrorCode → String
  | .validationError => "request.validation_error"
  | .internalError => "request.internal_error"
  | .emailAlreadyExists => "auth.email_already_exists"
  | .invalidCredentials => "auth.invalid_credentials"
  | .invalidToken => "auth.invalid_token"
  | .invalidRefreshToken => "auth.invalid_refresh_token"
  | .idempotencyKeyConflict => "auth.idempotency_key_conflict"
  | .idempotencyRequestInProgress => "auth.idempotency_request_in_progress"
  | .idempotencyUnavailable => "auth.idempotency_unavailable"
  | .refreshReplayUnavailable => "auth.refresh_replay_unavailable"
  | .userNotFound => "auth.user_not_found"
  | .profileProvisioningUnavailable => "auth.profile_provisioning_unavailable"

/-- `HttpErrorSpec`. -/
structure HttpErrorSpec where
  statusCode : Nat
  code : AuthApiErrorCode
  detail : String
  headers : List (String × String)

/-- The headers that forbid caching. -/
def noStoreHeaders : List (String × String) :=
  [("Cache-Control", "no-store"), ("Pragma", "no-cache")]

/-- The response to a request that fails validation. -/
def validationErrorSpec : HttpErrorSpec :=
  ⟨422, .validationError, "request validation failed", noStoreHeaders⟩

/-- `_HTTP_ERROR_SPECS`. -/
def httpErrorSpecs : ErrorType → HttpErrorSpec
  | .invalidCommand => validationErrorSpec
  | .invalidEmail => validationErrorSpec
  | .invalidPassword => validationErrorSpec
  | .profileProvisioningUnavailable =>
    ⟨503, .profileProvisioningUnavailable, "registration is temporarily unavailable",
      noStoreHeaders⟩
  | .requestValidation =>
    ⟨422, .validationError, "request validation failed", noStoreHeaders⟩
  | .userAlreadyExists =>
    ⟨409, .emailAlreadyExists, "user with this email already exists", noStoreHeaders⟩
  | .invalidCredentials =>
    ⟨401, .invalidCredentials, "invalid email or password", noStoreHeaders⟩
  | .invalidToken => ⟨401, .invalidToken, "invalid or expired token", noStoreHeaders⟩
  | .invalidRefreshToken =>
    ⟨401, .invalidRefreshToken, "refresh token is invalid", noStoreHeaders⟩
  | .idempotencyKeyConflict =>
    ⟨409, .idempotencyKeyConflict, "idempotency key was used with another request",
      noStoreHeaders⟩
  | .idempotencyRequestInProgress =>
    ⟨423, .idempotencyRequestInProgress,
      "request with this idempotency key is still processing", noStoreHeaders⟩
  | .idempotencyStorageUnavailable =>
    ⟨503, .idempotencyUnavailable, "request safety service is temporarily unavailable",
      noStoreHeaders⟩
  | .refreshReplayUnavailable =>
    ⟨503, .refreshReplayUnavailable, "refresh replay is temporarily unavailable",
      noStoreHeaders⟩
  | .userNotFound => ⟨404, .userNotFound, "user not found", noStoreHeaders⟩

/-- The response to an exception that has none of its own. -/
def internalErrorSpec : HttpErrorSpec :=
  ⟨500, .internalError, "internal server error", noStoreHeaders⟩

/-- The specification that `register_exception_handlers` registers. -/
def activeSpec (retryAfterSeconds : Int) (t : ErrorType) : HttpErrorSpec :=
  if t = .idempotencyRequestInProgress then
    { httpErrorSpecs t with
      headers := (httpErrorSpecs t).headers ++ [("Retry-After", toString retryAfterSeconds)] }
  else httpErrorSpecs t

/-! ## What fails how -/

section Failures

variable {α : Type} {ts : List ErrorType}

/-- If the exception has a response of its own, it is one of `ts`. -/
def Exn.within (ts : List ErrorType) (x : Exn) : Bool := x.errorType.all fun t => ts.contains t

theorem Exn.within_of_none {x : Exn} (h : x.errorType = none) : x.within ts = true := by
  simp [within, h]

/-- The computation fails only with exceptions within `ts`. -/
abbrev FailsWithin (ts : List ErrorType) (e : Except Exn α) : Prop :=
  Prog.raises (fun x => x.within ts = true) e

theorem fails_error {x : Exn} (h : x.within ts = true) :
    FailsWithin ts (.error x : Except Exn α) := by
  simpa using h

theorem fails_none {x : Exn} (h : x.errorType = none) :
    FailsWithin ts (.error x : Except Exn α) :=
  fails_error (Exn.within_of_none h)

end Failures

/-! ## Responses -/

/-- The `SameSite` attribute of a cookie. -/
inductive SameSite where
  | lax
  | strict
  | none
deriving DecidableEq

/-- What the routes read of `SecuritySettings`, as its validators accept it. -/
structure SecuritySettings where
  authCookieSecure : Bool
  authCookieSameSite : SameSite
  accessTokenTtlSeconds : Int
  authSessionIdleTtlSeconds : Int
  accessTokenTtlPositive : 0 < accessTokenTtlSeconds
  authSessionIdleTtlPositive : 0 < authSessionIdleTtlSeconds
  sameSiteNone : authCookieSameSite = .none → authCookieSecure = true

/-- A `Set-Cookie` field. -/
structure SetCookie where
  key : String
  value : String
  maxAge : Int
  path : String
  secure : Bool
  httpOnly : Bool
  sameSite : SameSite

/-- A response: status, headers, cookies and JSON body. -/
structure ApiResponse where
  statusCode : Nat
  headers : List (String × String)
  cookies : List SetCookie
  body : Option Json

/-- `entries[name] = value`, of a dictionary and of `MutableHeaders`: the first
entry of the name is overwritten where it stands, the others are deleted, and
a name that is not there goes to the end. -/
def assign {α : Type} (name : String) (value : α) : List (String × α) → List (String × α)
  | [] => [(name, value)]
  | (k, v) :: rest =>
    if k = name then (k, value) :: rest.filter fun h => h.1 ≠ name
    else (k, v) :: assign name value rest

theorem mem_assign {α : Type} (name : String) (value : α) (entries : List (String × α)) :
    (name, value) ∈ assign name value entries := by
  induction entries with
  | nil => simp [assign]
  | cons entry rest ih =>
    obtain ⟨k, v⟩ := entry
    by_cases hk : k = name
    · simp [assign, hk]
    · simp [assign, hk, ih]

theorem mem_assign_of_ne {α : Type} {name : String} {value : α} {entries : List (String × α)}
    {entry : String × α} (h : entry ∈ entries) (hne : entry.1 ≠ name) :
    entry ∈ assign name value entries := by
  induction entries with
  | nil => simp at h
  | cons first rest ih =>
    obtain ⟨k, v⟩ := first
    by_cases hk : k = name
    · have hrest : entry ∈ rest := by
        rcases List.mem_cons.mp h with rfl | hrest
        · exact absurd hk hne
        · exact hrest
      simp [assign, hk, hrest, hne]
    · rcases List.mem_cons.mp h with rfl | hrest
      · simp [assign, hk]
      · simp [assign, hk, ih hrest]

/-- `_set_no_store_headers`. -/
def setNoStoreHeaders (response : ApiResponse) : ApiResponse :=
  { response with
    headers := assign "Pragma" "no-cache"
      (assign "Cache-Control" "no-store" response.headers) }

/-- The body of `ApiErrorResponse`. -/
def errorBody (spec : HttpErrorSpec) : Json :=
  .obj [("code", .str spec.code.value), ("detail", .str spec.detail)]

/-- `_response_from_spec`. -/
def responseFromSpec (spec : HttpErrorSpec) : ApiResponse :=
  ⟨spec.statusCode, spec.headers, [], some (errorBody spec)⟩

/-- `create_error_response`. -/
def createErrorResponse (t : ErrorType) : ApiResponse := responseFromSpec (httpErrorSpecs t)

/-- `create_internal_error_response`. -/
def createInternalErrorResponse : ApiResponse := responseFromSpec internalErrorSpec

section Cookies

variable (settings : SecuritySettings)

/-- A cookie as both functions below write it. -/
def authCookie (key value : String) (maxAge : Int) (path : String) : SetCookie :=
  ⟨key, value, maxAge, path, settings.authCookieSecure, true, settings.authCookieSameSite⟩

/-- `_set_tokens_cookies`. -/
def setTokensCookies (response : ApiResponse) (pair : TokenPair) : ApiResponse :=
  setNoStoreHeaders { response with
    cookies := response.cookies ++
      [authCookie settings "access_token" pair.accessToken settings.accessTokenTtlSeconds "/",
        authCookie settings "refresh_token" pair.refreshToken settings.authSessionIdleTtlSeconds
          "/api/v1/auth"] }

/-- `_delete_auth_cookies`: Starlette sets an empty value with no time left. -/
def deleteAuthCookies (response : ApiResponse) : ApiResponse :=
  setNoStoreHeaders { response with
    cookies := response.cookies ++
      [authCookie settings "access_token" "" 0 "/",
        authCookie settings "refresh_token" "" 0 "/api/v1/auth"] }

end Cookies

/-- `Response(status_code=HTTP_204_NO_CONTENT)`. -/
def noContent : ApiResponse := ⟨204, [], [], none⟩

/-! ## Routes -/

/-- `hash_idempotency_key`. -/
def hashIdempotencyKey (sha256 : String → Digest) (rawKey : String) : Except Exn Digest :=
  if rawKey = "" then .error (.valueError "idempotency key must not be empty")
  else .ok (sha256 rawKey)

section Auth

variable (cfg : AuthConfig) (settings : SecuritySettings)

/-- `login`. -/
def loginRoute (command : LoginCommand) : App auth ApiResponse := do
  let pair ← loginExecute cfg command
  return setTokensCookies settings noContent pair

/-- What `refresh` makes of the handler's outcome. -/
def answerRefresh : Except Exn TokenPair → App auth ApiResponse
  | .ok pair => return setTokensCookies settings noContent pair
  | .error x =>
    if x.errorType = some .invalidRefreshToken then
      return deleteAuthCookies settings (createErrorResponse .invalidRefreshToken)
    else throw x

/-- `refresh`. -/
def refreshRoute (hotStore : Bool) (refreshToken : Option String) (idempotencyKey : String) :
    App auth ApiResponse :=
  match refreshToken with
  | none => throw .invalidRefreshToken
  | some token => do
    let keyHash ← Prog.ofExcept (hashIdempotencyKey cfg.sha256 (Text.strip idempotencyKey))
    let answered ← (refreshExecute cfg hotStore ⟨token, keyHash⟩).outcome
    answerRefresh settings answered

/-- `logout`. -/
def logoutRoute (refreshToken : Option String) : App auth ApiResponse := do
  logoutExecute cfg ⟨refreshToken⟩
  return deleteAuthCookies settings noContent

end Auth

/-- What `register` makes of the handler's result. -/
def registerResponse (result : RegistrationResult) : ApiResponse :=
  match result.outcome with
  | .pending =>
    -- `retry_after_seconds or 1`
    let seconds := if result.retryAfterSeconds.getD 0 = 0 then 1
      else result.retryAfterSeconds.getD 0
    ⟨202, assign "Retry-After" (toString seconds) noStoreHeaders, [],
      some (.obj [("registrationId", .str (uuidText result.operationId)),
        ("userId", .str (uuidText result.userId)), ("status", .str "PENDING")])⟩
  | .completed => ⟨201, noStoreHeaders, [], some (.obj [("userId", .str (uuidText result.userId))])⟩

/-- `register`. -/
def registerRoute (cfg : RegistrationConfig) (sha256 : String → Digest)
    (email password idempotencyKey : String) : Registration ApiResponse := do
  let keyHash ← Prog.ofExcept (hashIdempotencyKey sha256 idempotencyKey)
  let result ← registerExecute cfg ⟨email, password, keyHash⟩
  return registerResponse result

/-- The exception handlers, and the safe 500 of the middleware outside; a
cancelled request has no response. -/
def withExceptionHandlers {S : Sig} (retryAfterSeconds : Int) (route : Prog S Exn ApiResponse) :
    Prog S Exn ApiResponse := do
  match ← route.outcome with
  | .ok response => return response
  | .error x =>
    if !x.isException then throw x
    else
      match x.errorType with
      | some t => return responseFromSpec (activeSpec retryAfterSeconds t)
      | none => return createInternalErrorResponse

/-! ## Documentation -/

/-- One of the examples that the documentation shows for a status. -/
structure DocumentedExample where
  summary : String
  value : Json

/-- One entry of the dictionary `responses`, by the names of its headers and
the examples of its JSON content. -/
structure DocumentedResponse where
  headers : List String
  examples : List (String × DocumentedExample)

/-- One turn of the loop of `openapi_error_responses`, on the entry that
`setdefault` finds or makes. -/
def DocumentedResponse.add (t : ErrorType) (response : DocumentedResponse) : DocumentedResponse :=
  let spec := httpErrorSpecs t
  { headers :=
      if t = .idempotencyRequestInProgress ∧ "Retry-After" ∉ response.headers then
        response.headers ++ ["Retry-After"]
      else response.headers
    examples := assign spec.code.value ⟨spec.detail, errorBody spec⟩ response.examples }

/-- One turn of the loop of `openapi_error_responses`. -/
def documentError (responses : Nat → Option DocumentedResponse) (t : ErrorType) :
    Nat → Option DocumentedResponse :=
  let statusCode := (httpErrorSpecs t).statusCode
  let response := (responses statusCode).getD ⟨["Cache-Control", "Pragma"], []⟩
  Function.update responses statusCode (some (response.add t))

/-- `openapi_error_responses`: the entry under each status code. -/
def openapiErrorResponses (errors : List ErrorType) : Nat → Option DocumentedResponse :=
  errors.foldl documentError fun _ => none

/-- The entry has what is said of the error. -/
structure DocumentedResponse.Shows (t : ErrorType) (response : DocumentedResponse) : Prop where
  shown : ∃ e ∈ response.examples, e.1 = (httpErrorSpecs t).code.value ∧
    e.2.value = errorBody (httpErrorSpecs t)
  noStore : ∀ h ∈ noStoreHeaders, h.1 ∈ response.headers
  retryAfter : t = .idempotencyRequestInProgress → "Retry-After" ∈ response.headers

/-- Errors of one code have one body. -/
theorem errorBody_eq {t t' : ErrorType}
    (h : (httpErrorSpecs t).code.value = (httpErrorSpecs t').code.value) :
    errorBody (httpErrorSpecs t) = errorBody (httpErrorSpecs t') := by
  cases t <;> cases t' <;> first | rfl | exact absurd h (by decide)

namespace DocumentedResponse

variable {t t' : ErrorType} {response : DocumentedResponse}

theorem mem_add_headers {name : String} (h : name ∈ response.headers) :
    name ∈ (response.add t).headers := by
  simp only [add]
  split
  · exact List.mem_append_left _ h
  · exact h

theorem add_shows (h : ∀ h ∈ noStoreHeaders, h.1 ∈ response.headers) :
    (response.add t).Shows t := by
  refine ⟨⟨_, mem_assign _ _ _, rfl, rfl⟩, fun x hx => mem_add_headers (h x hx), fun ht => ?_⟩
  by_cases hmem : "Retry-After" ∈ response.headers
  · exact mem_add_headers hmem
  · simp [add, ht, hmem]

/-- What was shown before still is. -/
theorem Shows.add (h : response.Shows t') : (response.add t).Shows t' := by
  refine ⟨?_, fun x hx => mem_add_headers (h.noStore x hx), fun ht =>
    mem_add_headers (h.retryAfter ht)⟩
  obtain ⟨e, he, hcode, hvalue⟩ := h.shown
  by_cases hsame : e.1 = (httpErrorSpecs t).code.value
  · have hcodes : (httpErrorSpecs t).code.value = (httpErrorSpecs t').code.value := by
      rw [← hsame, hcode]
    exact ⟨_, mem_assign _ _ _, hcodes, errorBody_eq hcodes⟩
  · exact ⟨e, mem_assign_of_ne he hsame, hcode, hvalue⟩

end DocumentedResponse

/-- Every entry promises that nothing is cached. -/
def Uncached (responses : Nat → Option DocumentedResponse) : Prop :=
  ∀ statusCode entry, responses statusCode = some entry →
    ∀ h ∈ noStoreHeaders, h.1 ∈ entry.headers

theorem Uncached.documentError {responses : Nat → Option DocumentedResponse}
    (h : Uncached responses) (t : ErrorType) : Uncached (documentError responses t) ∧
      ∃ entry, documentError responses t (httpErrorSpecs t).statusCode = some entry ∧
        entry.Shows t := by
  have hblank : ∀ x ∈ noStoreHeaders, x.1 ∈ ((responses (httpErrorSpecs t).statusCode).getD
      ⟨["Cache-Control", "Pragma"], []⟩).headers := by
    cases hentry : responses (httpErrorSpecs t).statusCode with
    | none => decide
    | some entry => exact h _ entry hentry
  constructor
  · intro statusCode entry hentry x hx
    simp only [IdentityService.documentError] at hentry
    by_cases hstatus : statusCode = (httpErrorSpecs t).statusCode
    · rw [hstatus, Function.update_self] at hentry
      cases hentry
      exact DocumentedResponse.mem_add_headers (hblank x hx)
    · rw [Function.update_of_ne hstatus] at hentry
      exact h _ entry hentry x hx
  · refine ⟨_, Function.update_self .., ?_⟩
    exact DocumentedResponse.add_shows hblank

theorem documentError_keeps {responses : Nat → Option DocumentedResponse} {t t' : ErrorType}
    {entry : DocumentedResponse}
    (h : responses (httpErrorSpecs t').statusCode = some entry) (hshows : entry.Shows t') :
    ∃ entry, documentError responses t (httpErrorSpecs t').statusCode = some entry ∧
      entry.Shows t' := by
  simp only [documentError]
  by_cases hstatus : (httpErrorSpecs t').statusCode = (httpErrorSpecs t).statusCode
  · rw [← hstatus, Function.update_self, h]
    exact ⟨_, rfl, hshows.add⟩
  · rw [Function.update_of_ne hstatus]
    exact ⟨entry, h, hshows⟩

/-- **Each error of a route has its entry.** -/
theorem openapiErrorResponses_shows {errors : List ErrorType} {t : ErrorType} (h : t ∈ errors) :
    ∃ entry, openapiErrorResponses errors (httpErrorSpecs t).statusCode = some entry ∧
      entry.Shows t := by
  suffices hloop : ∀ responses : Nat → Option DocumentedResponse, Uncached responses →
      (t ∈ errors ∨ ∃ entry, responses (httpErrorSpecs t).statusCode = some entry ∧
        entry.Shows t) → ∃ entry, errors.foldl documentError responses
          (httpErrorSpecs t).statusCode = some entry ∧ entry.Shows t by
    refine hloop _ (fun _ _ hnone => ?_) (.inl h)
    cases hnone
  clear h
  induction errors with
  | nil =>
    rintro responses - (hmem | hentry)
    · simp at hmem
    · exact hentry
  | cons first rest ih =>
    intro responses huncached hcase
    obtain ⟨hnext, hfirst⟩ := huncached.documentError first
    refine ih _ hnext ?_
    rcases hcase with hmem | ⟨entry, hentry, hshows⟩
    · rcases List.mem_cons.mp hmem with rfl | hrest
      · exact .inr hfirst
      · exact .inl hrest
    · exact .inr (documentError_keeps hentry hshows)

end IdentityService
