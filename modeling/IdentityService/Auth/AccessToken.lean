import IdentityService.Datetime
import IdentityService.Domain
import IdentityService.Text.Strip
import IdentityService.Text.Uuid
import Mathlib.Data.Finset.Sort
import Mathlib.Data.String.Basic

/-!
# Access tokens, from the issuer to the verifier

`PyJWTAccessTokenIssuer` and `PyJWTAccessTokenVerifier`. The JWT library and
the model library are parameters, with what their documentation says of
the calls made here. Times are whole microseconds; a token carries whole
seconds.
-/

namespace IdentityService

/-- The exceptions of the security layer that the issuer and the verifier
raise. -/
inductive TokenExn where
  | invalidTokenConfiguration
  | invalidTokenSigningKey
  | tokenIssuance
  | tokenExpired
  | tokenMalformed
  | invalidTokenData
  | overflow
deriving DecidableEq

/-- `role.value`. -/
def UserRole.text : UserRole → String
  | .user => "USER"
  | .admin => "ADMIN"

/-- `UserRole(value)`. -/
def UserRole.ofText (s : String) : Option UserRole :=
  if s = "USER" then some .user else if s = "ADMIN" then some .admin else none

theorem UserRole.ofText_text (role : UserRole) : UserRole.ofText role.text = some role := by
  cases role <;> decide

/-- `AccessPrincipal`; a `UUID` has 128 bits. -/
structure AccessPrincipal where
  userId : Uuid
  role : UserRole
  wide : userId < 2 ^ 128

/-! ## The JWT library -/

/-- What is signed: the claims, with their times as datetimes. -/
structure JwtPayload where
  iss : String
  sub : String
  aud : List String
  iat : Datetime
  exp : Datetime
  jti : String
  role : String

/-- The claims as they are read back. -/
structure WirePayload where
  iss : String
  sub : String
  aud : List String
  iat : Int
  exp : Int
  jti : String
  role : String

/-- Datetimes are written as whole seconds. -/
def JwtPayload.wire (p : JwtPayload) : WirePayload :=
  ⟨p.iss, p.sub, p.aud, p.iat.timegm, p.exp.timegm, p.jti, p.role⟩

/-- The protected headers of an access token. -/
structure JwtHeaders where
  typ : String
  kid : String

/-- A header as it is read: `none` for a field that is missing or no
text. -/
structure JwtHeader where
  alg : Option String
  typ : Option String
  kid : Option String

/-- What PyJWT raises, as far as the verifier tells it apart. -/
inductive JwtError where
  | expiredSignature
  | other

/-- The arguments of `jwt.decode` that decide what it accepts. -/
structure DecodeOptions where
  algorithms : List String
  issuer : String
  audience : String
  leeway : Int
  require : List String

/-- The names of the claims of a payload. -/
def WirePayload.names : List String := ["iss", "sub", "aud", "iat", "exp", "jti", "role"]

/-- The checks of `jwt.decode` at time `t`, in microseconds since the
epoch. -/
def DecodeOptions.check (o : DecodeOptions) (t : Int) (p : WirePayload) : Except JwtError Unit :=
  if ¬ ∀ name ∈ o.require, name ∈ WirePayload.names then .error .other
  else if t + o.leeway < p.iat * 1000000 then .error .other
  else if p.exp * 1000000 ≤ t - o.leeway then .error .expiredSignature
  else if p.iss ≠ o.issuer then .error .other
  else if o.audience ∉ p.aud then .error .other
  else .ok ()

/-- PyJWT, on private keys `κ`, public keys `π` and tokens `τ`: a token that
was encoded shows its header, and decodes under a matching key. -/
structure PyJWT (κ π τ : Type) where
  encode : JwtPayload → κ → String → JwtHeaders → Option τ
  getUnverifiedHeader : τ → Option JwtHeader
  decode : τ → π → DecodeOptions → Int → Except JwtError WirePayload
  isEmpty : τ → Bool
  Matching : κ → π → Prop
  header_encode : ∀ payload key algorithm headers token,
    encode payload key algorithm headers = some token →
    isEmpty token = false ∧
      getUnverifiedHeader token = some ⟨some algorithm, some headers.typ, some headers.kid⟩
  decode_encode : ∀ payload key algorithm headers token publicKey o t,
    encode payload key algorithm headers = some token → Matching key publicKey →
    algorithm ∈ o.algorithms →
    decode token publicKey o t = (o.check t payload.wire).map fun _ => payload.wire

/-- What Pydantic does with the values of a payload. -/
structure Pydantic where
  uuid : String → Option Uuid
  stripWhitespace : String → String
  datetime : Int → Option Datetime
  uuid_text : ∀ u, u < 2 ^ 128 → uuid (uuidText u) = some u
  strip_stripped : ∀ s, Text.strip s = s → stripWhitespace s = s
  datetime_seconds : ∀ s d, Datetime.ofSeconds s = .ok d → datetime s = some d

/-! ## The issuer -/

/-- `PyJWTAccessTokenIssuer`; the TTL is in microseconds. -/
structure PyJWTAccessTokenIssuer (κ : Type) where
  privateKey : κ
  keyId : String
  issuer : String
  audiences : Finset String
  accessTokenTtl : Int

/-- The one signature algorithm of both sides. -/
def algorithm : String := "RS256"

/-- The `typ` header of an access token. -/
def tokenType : String := "at+jwt"

namespace PyJWTAccessTokenIssuer

variable {κ π τ : Type}

/-- `__init__`; the ttl is in microseconds. -/
def init (privateKey : κ) (keyId issuer : String) (audiences : Finset String)
    (accessTokenTtl : Int) : Except TokenExn (PyJWTAccessTokenIssuer κ) :=
  let keyId := Text.strip keyId
  let issuer := Text.strip issuer
  let audiences := audiences.image Text.strip
  if keyId = "" then .error .invalidTokenConfiguration
  else if issuer = "" then .error .invalidTokenConfiguration
  else if audiences = ∅ ∨ "" ∈ audiences then .error .invalidTokenConfiguration
  else if accessTokenTtl ≤ 0 then .error .invalidTokenConfiguration
  else .ok ⟨privateKey, keyId, issuer, audiences, accessTokenTtl⟩

/-- `issue`, with the token identifier it draws. -/
def issue (J : PyJWT κ π τ) (self : PyJWTAccessTokenIssuer κ) (principal : AccessPrincipal)
    (now : Datetime) (jti : Uuid) : Except TokenExn τ :=
  match now.utcoffset with
  | none => .error .tokenIssuance
  | some offset =>
    match now.astimezone offset with
    | .error _ => .error .overflow
    | .ok issuedAt =>
      match issuedAt.add self.accessTokenTtl with
      | .error _ => .error .overflow
      | .ok expiresAt =>
        let payload : JwtPayload :=
          { iss := self.issuer
            sub := uuidText principal.userId
            aud := self.audiences.sort (· ≤ ·)
            iat := issuedAt
            exp := expiresAt
            jti := uuidText jti
            role := principal.role.text }
        match J.encode payload self.privateKey algorithm ⟨tokenType, self.keyId⟩ with
        | none => .error .tokenIssuance
        | some token => .ok token

end PyJWTAccessTokenIssuer

/-! ## The verifier -/

/-- `AccessTokenClaims`, as the verifier reads them. -/
structure AccessTokenClaims where
  issuer : String
  userId : Uuid
  audiences : Finset String
  issuedAt : Datetime
  expiresAt : Datetime
  tokenId : Uuid
  role : UserRole

/-- `AccessTokenClaims.model_validate`, or `None` where it raises; the
window is checked last. -/
def AccessTokenClaims.modelValidate (P : Pydantic) (p : WirePayload) :
    Option AccessTokenClaims := do
  let issuer := P.stripWhitespace p.iss
  guard (issuer ≠ "")
  let userId ← P.uuid p.sub
  let audiences := (p.aud.map P.stripWhitespace).toFinset
  guard ("" ∉ audiences ∧ audiences ≠ ∅)
  let issuedAt ← P.datetime p.iat
  let expiresAt ← P.datetime p.exp
  let tokenId ← P.uuid p.jti
  let role ← UserRole.ofText p.role
  let late ← (expiresAt.le issuedAt).toOption
  guard (late = false)
  return ⟨issuer, userId, audiences, issuedAt, expiresAt, tokenId, role⟩

/-- `MIN_RSA_KEY_SIZE_BITS`. -/
def minRsaKeySizeBits : Nat := 2048

/-- `PyJWTAccessTokenVerifier`, with the public keys by key id. -/
structure PyJWTAccessTokenVerifier (π : Type) where
  publicKeys : List (String × π)
  issuer : String
  audience : String
  leeway : Int

namespace PyJWTAccessTokenVerifier

variable {κ π τ : Type}

/-- The loop over the public keys. -/
def normalizeKeys (keySize : π → Nat) (normalized : List (String × π)) :
    List (String × π) → Except TokenExn (List (String × π))
  | [] => .ok normalized
  | (keyId, publicKey) :: rest =>
    let keyId := Text.strip keyId
    if keyId = "" then .error .invalidTokenConfiguration
    else if keyId ∈ normalized.map Prod.fst then .error .invalidTokenConfiguration
    else if keySize publicKey < minRsaKeySizeBits then .error .invalidTokenSigningKey
    else normalizeKeys keySize (normalized ++ [(keyId, publicKey)]) rest

/-- `__init__`. -/
def init (keySize : π → Nat) (publicKeys : List (String × π)) (issuer audience : String)
    (leeway : Option Int) : Except TokenExn (PyJWTAccessTokenVerifier π) :=
  let effectiveLeeway := leeway.getD 0
  let issuer := Text.strip issuer
  let audience := Text.strip audience
  if issuer = "" ∨ audience = "" then .error .invalidTokenConfiguration
  else if effectiveLeeway < 0 then .error .invalidTokenConfiguration
  else if publicKeys = [] then .error .invalidTokenConfiguration
  else (normalizeKeys keySize [] publicKeys).map fun keys =>
    ⟨keys, issuer, audience, effectiveLeeway⟩

/-- The claims that must be there. -/
def requiredClaims : List String := ["iss", "sub", "aud", "iat", "exp", "jti", "role"]

/-- `_public_keys.get`. -/
def publicKey (self : PyJWTAccessTokenVerifier π) (keyId : String) : Option π :=
  (self.publicKeys.find? fun p => p.1 = keyId).map Prod.snd

/-- `_select_public_key`. -/
def selectPublicKey (J : PyJWT κ π τ) (self : PyJWTAccessTokenVerifier π) (token : τ) :
    Except TokenExn π :=
  if J.isEmpty token then .error .tokenMalformed
  else
    match J.getUnverifiedHeader token with
    | none => .error .tokenMalformed
    | some header =>
      if header.alg ≠ some algorithm then .error .tokenMalformed
      else if header.typ ≠ some tokenType then .error .tokenMalformed
      else
        match header.kid.bind self.publicKey with
        | none => .error .tokenMalformed
        | some key => .ok key

/-- `verify`, at time `t`. -/
def verify (J : PyJWT κ π τ) (P : Pydantic) (self : PyJWTAccessTokenVerifier π) (token : τ)
    (t : Int) : Except TokenExn AccessTokenClaims :=
  match self.selectPublicKey J token with
  | .error x => .error x
  | .ok key =>
    match J.decode token key ⟨[algorithm], self.issuer, self.audience, self.leeway,
      requiredClaims⟩ t with
    | .error .expiredSignature => .error .tokenExpired
    | .error .other => .error .tokenMalformed
    | .ok payload =>
      match AccessTokenClaims.modelValidate P payload with
      | none => .error .invalidTokenData
      | some claims => .ok claims

end PyJWTAccessTokenVerifier

/-! ## What the constructors leave -/

section
variable {κ π τ : Type}

/-- A configuration the issuer accepts. -/
structure PyJWTAccessTokenIssuer.Accepted (made : PyJWTAccessTokenIssuer κ) (privateKey : κ)
    (keyId issuer : String) (audiences : Finset String) (ttl : Int) : Prop where
  key : made.privateKey = privateKey
  kid : made.keyId = Text.strip keyId
  iss : made.issuer = Text.strip issuer
  issuerNonblank : made.issuer ≠ ""
  aud : made.audiences = audiences.image Text.strip
  audiencesNonempty : made.audiences ≠ ∅
  audiencesNonblank : "" ∉ made.audiences
  lifetime : made.accessTokenTtl = ttl
  positive : 0 < made.accessTokenTtl

theorem PyJWTAccessTokenIssuer.init_ok {self : PyJWTAccessTokenIssuer κ} {privateKey : κ}
    {keyId issuer : String} {audiences : Finset String} {ttl : Int}
    (h : PyJWTAccessTokenIssuer.init privateKey keyId issuer audiences ttl = .ok self) :
    self.Accepted privateKey keyId issuer audiences ttl := by
  unfold PyJWTAccessTokenIssuer.init at h
  simp only at h
  split at h
  · cases h
  split at h
  · cases h
  split at h
  · cases h
  split at h
  · cases h
  rename_i hissuer haudiences httl
  cases h
  obtain ⟨hsome, hblank⟩ := not_or.mp haudiences
  exact ⟨rfl, rfl, rfl, hissuer, rfl, hsome, hblank, rfl, Int.not_le.mp httl⟩

theorem PyJWTAccessTokenVerifier.init_ok {keySize : π → Nat} {publicKeys : List (String × π)}
    {issuer audience : String} {leeway : Option Int} {self : PyJWTAccessTokenVerifier π}
    (h : PyJWTAccessTokenVerifier.init keySize publicKeys issuer audience leeway = .ok self) :
    self.issuer = Text.strip issuer ∧ self.audience = Text.strip audience ∧
      self.leeway = leeway.getD 0 ∧ 0 ≤ self.leeway ∧
      normalizeKeys keySize [] publicKeys = .ok self.publicKeys := by
  unfold PyJWTAccessTokenVerifier.init at h
  simp only at h
  split at h
  · cases h
  split at h
  · cases h
  split at h
  · cases h
  rename_i hleeway _
  cases hkeys : normalizeKeys keySize [] publicKeys with
  | error x =>
    rw [hkeys] at h
    cases h
  | ok keys =>
    rw [hkeys] at h
    cases h
    exact ⟨rfl, rfl, rfl, by simpa using hleeway, rfl⟩

/-! ## What a token says -/

/-- The signed payload of a token. -/
def PyJWTAccessTokenIssuer.payload (self : PyJWTAccessTokenIssuer κ) (principal : AccessPrincipal)
    (jti : Uuid) (issuedAt expiresAt : Datetime) : JwtPayload :=
  { iss := self.issuer
    sub := uuidText principal.userId
    aud := self.audiences.sort (· ≤ ·)
    iat := issuedAt
    exp := expiresAt
    jti := uuidText jti
    role := principal.role.text }

theorem PyJWTAccessTokenIssuer.issue_ok {J : PyJWT κ π τ} {self : PyJWTAccessTokenIssuer κ}
    {principal : AccessPrincipal} {now : Datetime} {jti : Uuid} {token : τ}
    (h : self.issue J principal now jti = .ok token) :
    ∃ offset issuedAt expiresAt, now.utcoffset = some offset ∧
      now.astimezone offset = .ok issuedAt ∧ issuedAt.add self.accessTokenTtl = .ok expiresAt ∧
      J.encode (self.payload principal jti issuedAt expiresAt) self.privateKey algorithm
        ⟨tokenType, self.keyId⟩ = some token := by
  unfold PyJWTAccessTokenIssuer.issue at h
  cases hoffset : now.utcoffset with
  | none =>
    simp only [hoffset] at h
    cases h
  | some offset =>
    simp only [hoffset] at h
    cases hissued : now.astimezone offset with
    | error x =>
      simp only [hissued] at h
      cases h
    | ok issuedAt =>
      simp only [hissued] at h
      cases hexpires : issuedAt.add self.accessTokenTtl with
      | error x =>
        simp only [hexpires] at h
        cases h
      | ok expiresAt =>
        simp only [hexpires] at h
        refine ⟨offset, issuedAt, expiresAt, rfl, hissued, hexpires, ?_⟩
        cases hencode : J.encode (self.payload principal jti issuedAt expiresAt) self.privateKey
            algorithm ⟨tokenType, self.keyId⟩ with
        | none =>
          rw [payload] at hencode
          simp only [hencode] at h
          cases h
        | some token' =>
          rw [payload] at hencode
          simp only [hencode] at h
          cases h
          rfl

end

namespace Datetime

theorem ofWall_ok {wall : Int} {tzinfo : Option TzInfo} {d : Datetime}
    (h : ofWall wall tzinfo = .ok d) : d.wall = wall ∧ d.tzinfo = tzinfo := by
  unfold ofWall at h
  split at h
  · cases h
    exact ⟨rfl, rfl⟩
  · cases h

theorem timegm_utc {d : Datetime} (hutc : d.tzinfo = some utc) :
    d.timegm = (d.wall - epoch) / 1000000 := by
  simp [timegm, utcoffset, hutc, utc]

/-- The whole seconds of a UTC time are a time. -/
theorem ofSeconds_timegm {d : Datetime} (hutc : d.tzinfo = some utc) :
    ∃ d', ofSeconds d.timegm = .ok d' ∧ d'.wall = epoch + d.timegm * 1000000 ∧
      d'.tzinfo = some utc := by
  have hrange : 0 ≤ epoch + d.timegm * 1000000 ∧
      epoch + d.timegm * 1000000 < datetimeLimit := by
    have := d.inRange
    rw [timegm_utc hutc]
    simp only [epoch, datetimeLimit] at this ⊢
    omega
  exact ⟨⟨_, false, some utc, hrange⟩, by simp only [ofSeconds, ofWall, dif_pos hrange], rfl, rfl⟩

/-- Within UTC, wall times are compared. -/
theorem le_utc {a b : Datetime} (ha : a.tzinfo = some utc) (hb : b.tzinfo = some utc) :
    a.le b = .ok (decide (a.wall ≤ b.wall)) := by
  simp [le, operands, ha, hb, Except.map]

end Datetime

/-! ## What the verifier makes of it -/

/-- The claims of a payload whose texts need no stripping: all that is left
to fail is the window. -/
theorem AccessTokenClaims.modelValidate_eq {P : Pydantic} {p : WirePayload} {userId jti : Uuid}
    {issuedAt expiresAt : Datetime} {role : UserRole} (hstrip : Text.strip p.iss = p.iss)
    (hiss : p.iss ≠ "") (huser : P.uuid p.sub = some userId)
    (haud : ∀ a ∈ p.aud, Text.strip a = a) (hblank : "" ∉ p.aud.toFinset)
    (hsome : p.aud.toFinset ≠ ∅) (hiat : P.datetime p.iat = some issuedAt)
    (hexp : P.datetime p.exp = some expiresAt) (hjti : P.uuid p.jti = some jti)
    (hrole : UserRole.ofText p.role = some role) (hutc : issuedAt.tzinfo = some Datetime.utc)
    (hutc' : expiresAt.tzinfo = some Datetime.utc) :
    AccessTokenClaims.modelValidate P p =
      if expiresAt.wall ≤ issuedAt.wall then none
      else some ⟨p.iss, userId, p.aud.toFinset, issuedAt, expiresAt, jti, role⟩ := by
  have hmap : p.aud.map P.stripWhitespace = p.aud := by
    calc p.aud.map P.stripWhitespace
        = p.aud.map id := List.map_congr_left fun a ha => P.strip_stripped a (haud a ha)
      _ = p.aud := List.map_id _
  have hle := Datetime.le_utc hutc' hutc
  simp only [modelValidate, P.strip_stripped p.iss hstrip, huser, hmap, hiat, hexp, hjti, hrole,
    hle, Option.bind_eq_bind, Option.bind_some, Except.toOption]
  by_cases hwindow : expiresAt.wall ≤ issuedAt.wall
  · simp [hiss, hblank, hsome, hwindow]
  · simp [hiss, hblank, hsome, hwindow]

section
variable {κ π τ : Type}

/-- The checks of the JWT library pass. -/
theorem DecodeOptions.check_ok {o : DecodeOptions} {t : Int} {p : WirePayload}
    (hrequire : o.require = PyJWTAccessTokenVerifier.requiredClaims)
    (hiat : p.iat * 1000000 ≤ t + o.leeway) (hexp : t - o.leeway < p.exp * 1000000)
    (hiss : p.iss = o.issuer) (haud : o.audience ∈ p.aud) : o.check t p = .ok () := by
  have hnames : ∀ name ∈ o.require, name ∈ WirePayload.names := by
    rw [hrequire]
    decide
  rw [DecodeOptions.check, if_neg (not_not_intro hnames), if_neg (not_lt.mpr hiat),
    if_neg (not_le.mpr hexp), if_neg (not_not_intro hiss), if_neg (not_not_intro haud)]

/-- A key ring that holds the issuer's key selects it. -/
theorem PyJWTAccessTokenVerifier.selectPublicKey_ok {J : PyJWT κ π τ}
    {self : PyJWTAccessTokenVerifier π} {payload : JwtPayload} {key : κ} {keyId : String}
    {token : τ} {publicKey : π}
    (htoken : J.encode payload key algorithm ⟨tokenType, keyId⟩ = some token)
    (hkey : self.publicKey keyId = some publicKey) :
    self.selectPublicKey J token = .ok publicKey := by
  obtain ⟨hsome, hheader⟩ := J.header_encode _ _ _ _ _ htoken
  simp [selectPublicKey, hsome, hheader, hkey]

/-- The key ring holds every key under its stripped id, each id once. -/
theorem PyJWTAccessTokenVerifier.normalizeKeys_ok {keySize : π → Nat}
    {normalized publicKeys out : List (String × π)}
    (h : normalizeKeys keySize normalized publicKeys = .ok out)
    (hnodup : (normalized.map Prod.fst).Nodup) :
    out = normalized ++ publicKeys.map (fun p => (Text.strip p.1, p.2)) ∧
      (out.map Prod.fst).Nodup := by
  induction publicKeys generalizing normalized with
  | nil =>
    cases h
    exact ⟨by simp, hnodup⟩
  | cons p rest ih =>
    obtain ⟨keyId, publicKey⟩ := p
    unfold normalizeKeys at h
    simp only at h
    split at h
    · cases h
    split at h
    · cases h
    split at h
    · cases h
    rename_i hnew _
    obtain ⟨hout, hnodup'⟩ := ih h (by
      rw [List.map_append, List.nodup_append]
      refine ⟨hnodup, by simp, ?_⟩
      intro a ha b hb
      have hb : b = Text.strip keyId := by simpa using hb
      intro hab
      exact hnew (hb ▸ hab ▸ ha))
    exact ⟨by rw [hout]; simp, hnodup'⟩

theorem find_of_nodup {ring : List (String × π)} (hnodup : (ring.map Prod.fst).Nodup)
    {keyId : String} {publicKey : π} (h : (keyId, publicKey) ∈ ring) :
    ring.find? (fun p => p.1 = keyId) = some (keyId, publicKey) := by
  induction ring with
  | nil => cases h
  | cons p rest ih =>
    rw [List.map_cons, List.nodup_cons] at hnodup
    rcases List.mem_cons.mp h with rfl | hmem
    · simp
    · have hne : p.1 ≠ keyId := by
        intro hp
        exact hnodup.1 (hp ▸ List.mem_map_of_mem hmem)
      rw [List.find?_cons_of_neg (by simpa using hne)]
      exact ih hnodup.2 hmem

theorem PyJWTAccessTokenVerifier.publicKey_of_mem {keySize : π → Nat}
    {publicKeys : List (String × π)} {issuer audience : String} {leeway : Option Int}
    {self : PyJWTAccessTokenVerifier π}
    (h : PyJWTAccessTokenVerifier.init keySize publicKeys issuer audience leeway = .ok self)
    {keyId : String} {publicKey : π} (hmem : (keyId, publicKey) ∈ publicKeys) :
    self.publicKey (Text.strip keyId) = some publicKey := by
  obtain ⟨-, -, -, -, hkeys⟩ := init_ok h
  obtain ⟨hring, hnodup⟩ := normalizeKeys_ok hkeys (by simp)
  have hin : (Text.strip keyId, publicKey) ∈ self.publicKeys := by
    rw [hring, List.nil_append]
    exact List.mem_map.mpr ⟨_, hmem, rfl⟩
  simp only [PyJWTAccessTokenVerifier.publicKey, find_of_nodup hnodup hin, Option.map_some]

/-- The times on a token are UTC, and say the instants to the second. -/
theorem PyJWTAccessTokenIssuer.issue_times {J : PyJWT κ π τ} {self : PyJWTAccessTokenIssuer κ}
    {principal : AccessPrincipal} {now : Datetime} {jti : Uuid} {token : τ} {start : Int}
    (h : self.issue J principal now jti = .ok token) (hnow : now.instant = some start) :
    ∃ issued expires, J.encode (self.payload principal jti issued expires) self.privateKey algorithm
        ⟨tokenType, self.keyId⟩ = some token ∧
      issued.tzinfo = some Datetime.utc ∧ expires.tzinfo = some Datetime.utc ∧
      issued.timegm = start / 1000000 ∧
      expires.timegm = (start + self.accessTokenTtl) / 1000000 := by
  obtain ⟨offset, issued, expires, hoffset, hissued, hexpires, htoken⟩ := issue_ok h
  obtain ⟨hwall, hutc⟩ := Datetime.ofWall_ok hissued
  obtain ⟨hwall', hutc'⟩ := Datetime.ofWall_ok hexpires
  rw [hutc] at hutc'
  simp only [Datetime.instant, hoffset, Option.map_some, Option.some.injEq] at hnow
  refine ⟨issued, expires, htoken, hutc, hutc', ?_, ?_⟩
  · rw [Datetime.timegm_utc hutc, hwall]
    omega
  · rw [Datetime.timegm_utc hutc', hwall', hwall]
    omega

/-- What an accepted issuer writes is stripped, nonblank and nonempty, so of
the claims model only the window can object. -/
theorem PyJWTAccessTokenIssuer.Accepted.modelValidate {self : PyJWTAccessTokenIssuer κ}
    {privateKey : κ} {keyId issuer : String} {audiences : Finset String} {ttl : Int}
    (h : self.Accepted privateKey keyId issuer audiences ttl) {P : Pydantic}
    (principal : AccessPrincipal) {jti : Uuid} (hjti : jti < 2 ^ 128)
    {issued expires issuedAt expiresAt : Datetime} (hiat : P.datetime issued.timegm = some issuedAt)
    (hexp : P.datetime expires.timegm = some expiresAt)
    (hutc : issuedAt.tzinfo = some Datetime.utc) (hutc' : expiresAt.tzinfo = some Datetime.utc) :
    AccessTokenClaims.modelValidate P (self.payload principal jti issued expires).wire =
      if expiresAt.wall ≤ issuedAt.wall then none
      else some ⟨Text.strip issuer, principal.userId, audiences.image Text.strip, issuedAt,
        expiresAt, jti, principal.role⟩ := by
  have hset : (self.audiences.sort (· ≤ ·)).toFinset = self.audiences := Finset.sort_toFinset _ _
  have hissuer : Text.strip self.issuer = self.issuer := by rw [h.iss, Text.strip_strip]
  have hstripped : ∀ a ∈ self.audiences.sort (· ≤ ·), Text.strip a = a := by
    intro a ha
    have ha : a ∈ self.audiences := (Finset.mem_sort (· ≤ ·)).mp ha
    rw [h.aud] at ha
    obtain ⟨b, -, rfl⟩ := Finset.mem_image.mp ha
    exact Text.strip_strip b
  have hnonblank : "" ∉ (self.audiences.sort (· ≤ ·)).toFinset := by
    rw [hset]
    exact h.audiencesNonblank
  have hnonempty : (self.audiences.sort (· ≤ ·)).toFinset ≠ ∅ := by
    rw [hset]
    exact h.audiencesNonempty
  have hvalidate : AccessTokenClaims.modelValidate P
      (self.payload principal jti issued expires).wire = _ :=
    AccessTokenClaims.modelValidate_eq hissuer h.issuerNonblank (P.uuid_text _ principal.wide)
      hstripped hnonblank hnonempty hiat hexp (P.uuid_text _ hjti)
      (UserRole.ofText_text principal.role) hutc hutc'
  rw [hvalidate, ← h.iss, ← h.aud, ← hset]
  rfl

/-- **An issued token verifies until it expires, exactly when its two times
differ after they are cut to seconds.** -/
theorem access_token_verifies_iff (J : PyJWT κ π τ) (P : Pydantic) {keySize : π → Nat}
    {issuer : PyJWTAccessTokenIssuer κ} {verifier : PyJWTAccessTokenVerifier π}
    {privateKey : κ} {keyId issuerText : String} {audiences : Finset String} {ttl : Int}
    {publicKeys : List (String × π)} {verifierIssuer audience : String} {leeway : Option Int}
    (hissuer : PyJWTAccessTokenIssuer.init privateKey keyId issuerText audiences ttl = .ok issuer)
    (hverifier : PyJWTAccessTokenVerifier.init keySize publicKeys verifierIssuer audience leeway =
      .ok verifier)
    (hiss : Text.strip issuerText = Text.strip verifierIssuer)
    {keyId' : String} {publicKey : π} (hring : (keyId', publicKey) ∈ publicKeys)
    (hkid : Text.strip keyId' = Text.strip keyId) (hmatch : J.Matching privateKey publicKey)
    (haud : Text.strip audience ∈ audiences.image Text.strip) (principal : AccessPrincipal)
    {now : Datetime} {start : Int} (hnow : now.instant = some start) {jti : Uuid}
    (hjti : jti < 2 ^ 128) {token : τ} (hissue : issuer.issue J principal now jti = .ok token)
    {t : Int} (hstart : start ≤ t)
    (hend : t < (start + ttl) / 1000000 * 1000000 + leeway.getD 0) :
    ∃ issuedAt expiresAt, Datetime.ofSeconds (start / 1000000) = .ok issuedAt ∧
      Datetime.ofSeconds ((start + ttl) / 1000000) = .ok expiresAt ∧
      (verifier.verify J P token t = .ok ⟨Text.strip issuerText, principal.userId,
          audiences.image Text.strip, issuedAt, expiresAt, jti, principal.role⟩ ↔
        start / 1000000 < (start + ttl) / 1000000) := by
  have haccepted := PyJWTAccessTokenIssuer.init_ok hissuer
  obtain ⟨hviss, hvaud, hvleeway, hleeway, -⟩ := PyJWTAccessTokenVerifier.init_ok hverifier
  obtain ⟨issued, expires, htoken, hutc, hutc', hiat, hexp⟩ :=
    PyJWTAccessTokenIssuer.issue_times hissue hnow
  rw [haccepted.lifetime] at hexp
  obtain ⟨issuedAt, hread, hreadWall, hreadUtc⟩ := Datetime.ofSeconds_timegm hutc
  obtain ⟨expiresAt, hread', hreadWall', hreadUtc'⟩ := Datetime.ofSeconds_timegm hutc'
  have hvalidate := haccepted.modelValidate principal hjti (P.datetime_seconds _ _ hread)
    (P.datetime_seconds _ _ hread') hreadUtc hreadUtc'
  rw [hiat] at hread hreadWall
  rw [hexp] at hread' hreadWall'
  refine ⟨issuedAt, expiresAt, hread, hread', ?_⟩
  -- up to the claims model nothing can fail
  have hkey : verifier.publicKey issuer.keyId = some publicKey := by
    rw [haccepted.kid, ← hkid]
    exact PyJWTAccessTokenVerifier.publicKey_of_mem hverifier hring
  have hselect := PyJWTAccessTokenVerifier.selectPublicKey_ok htoken hkey
  have hdecode := J.decode_encode _ _ _ _ _ publicKey
    ⟨[algorithm], verifier.issuer, verifier.audience, verifier.leeway,
      PyJWTAccessTokenVerifier.requiredClaims⟩ t htoken (haccepted.key ▸ hmatch) (by simp)
  have hcheck : DecodeOptions.check ⟨[algorithm], verifier.issuer, verifier.audience,
      verifier.leeway, PyJWTAccessTokenVerifier.requiredClaims⟩ t
      (issuer.payload principal jti issued expires).wire = .ok () := by
    refine DecodeOptions.check_ok rfl ?_ ?_ ?_ ?_
    · show issued.timegm * 1000000 ≤ t + verifier.leeway
      rw [hiat]
      omega
    · show t - verifier.leeway < expires.timegm * 1000000
      rw [hexp, hvleeway]
      omega
    · show issuer.issuer = verifier.issuer
      rw [haccepted.iss, hviss, hiss]
    · show verifier.audience ∈ issuer.audiences.sort (· ≤ ·)
      rw [Finset.mem_sort, haccepted.aud, hvaud]
      exact haud
  rw [hcheck] at hdecode
  rw [PyJWTAccessTokenVerifier.verify, hselect]
  simp only [hdecode, Except.map, hvalidate]
  -- the claims model compares what is left of the two times
  have hwindow : expiresAt.wall ≤ issuedAt.wall ↔ ¬ start / 1000000 < (start + ttl) / 1000000 := by
    rw [hreadWall, hreadWall']
    omega
  by_cases hlate : expiresAt.wall ≤ issuedAt.wall
  · rw [if_pos hlate]
    constructor
    · intro h
      cases h
    · intro h
      exact absurd h (hwindow.mp hlate)
  · rw [if_neg hlate]
    constructor
    · intro _
      by_contra hcut
      exact hlate (hwindow.mpr hcut)
    · intro _
      rfl

end

namespace Sample

/-- Signatures by key number. -/
def jwt : PyJWT Nat Nat (JwtHeader × WirePayload × Nat) where
  encode payload key algorithm headers :=
    some (⟨some algorithm, some headers.typ, some headers.kid⟩, payload.wire, key)
  getUnverifiedHeader token := some token.1
  decode token publicKey o t :=
    if token.2.2 = publicKey ∧ token.1.alg ∈ o.algorithms.map some then
      (o.check t token.2.1).map fun _ => token.2.1
    else .error .other
  isEmpty _ := false
  Matching key publicKey := key = publicKey
  header_encode payload key algorithm headers token h := by
    cases h
    exact ⟨rfl, rfl⟩
  decode_encode payload key algorithm headers token publicKey o t h hkey halg := by
    cases h
    simp [hkey, halg]

/-- Pydantic's readers, by the standard library's. -/
def pydantic : Pydantic where
  uuid := uuidOfText
  stripWhitespace := Text.strip
  datetime seconds := (Datetime.ofSeconds seconds).toOption
  uuid_text u h := uuidOfText_uuidText h
  strip_stripped s h := h
  datetime_seconds s d h := by rw [h]; rfl

/-- Ten seconds after the epoch. -/
def tenSeconds : Datetime :=
  ⟨Datetime.epoch + 10000000, false, some Datetime.utc, by decide⟩

def principal : AccessPrincipal := ⟨7, .admin, by decide⟩

def tokenIssuer (ttl : Int) : PyJWTAccessTokenIssuer Nat :=
  ⟨1, "key-1", "issuer", {"api"}, ttl⟩

def tokenVerifier : PyJWTAccessTokenVerifier Nat :=
  ⟨[("key-1", 1)], "issuer", "api", 5000000⟩

theorem tokenIssuer_init {ttl : Int} (h : 0 < ttl) :
    PyJWTAccessTokenIssuer.init 1 " key-1" "issuer " {"api"} ttl = .ok (tokenIssuer ttl) := by
  have hkey : Text.strip " key-1" = "key-1" := by decide
  have hissuer : Text.strip "issuer " = "issuer" := by decide
  have haudience : Text.strip "api" = "api" := by decide
  simp [PyJWTAccessTokenIssuer.init, hkey, hissuer, haudience, tokenIssuer, h]

theorem tokenVerifier_init :
    PyJWTAccessTokenVerifier.init (fun _ => 2048) [("key-1", 1)] "issuer" "api" (some 5000000) =
      .ok tokenVerifier := by
  have hkey : Text.strip "key-1" = "key-1" := by decide
  have hissuer : Text.strip "issuer" = "issuer" := by decide
  have haudience : Text.strip "api" = "api" := by decide
  simp [PyJWTAccessTokenVerifier.init, PyJWTAccessTokenVerifier.normalizeKeys, hkey, hissuer,
    haudience, tokenVerifier, minRsaKeySizeBits, Except.map]

end Sample

section
open Sample

/-- A token of fifteen minutes, two seconds after it was issued. -/
theorem access_token_verifies_quarter :
    ∃ token issuedAt expiresAt,
      (tokenIssuer 900000000).issue jwt principal tenSeconds 8 = .ok token ∧
      Datetime.ofSeconds 10 = .ok issuedAt ∧ Datetime.ofSeconds 910 = .ok expiresAt ∧
      tokenVerifier.verify jwt pydantic token 12000000 =
        .ok ⟨Text.strip "issuer ", 7, ({"api"} : Finset String).image Text.strip, issuedAt,
          expiresAt, 8, .admin⟩ := by
  obtain ⟨token, htoken⟩ : ∃ token,
      (tokenIssuer 900000000).issue jwt principal tenSeconds 8 = .ok token := ⟨_, rfl⟩
  obtain ⟨issuedAt, expiresAt, hissued, hexpires, hiff⟩ :=
    access_token_verifies_iff jwt pydantic (tokenIssuer_init (by decide)) tokenVerifier_init
      (by decide) (List.mem_singleton.mpr rfl) (by decide) rfl (by decide) principal
      (by decide : tenSeconds.instant = some 10000000) (by decide) htoken
      (by decide : (10000000 : Int) ≤ 12000000) (by decide)
  exact ⟨token, issuedAt, expiresAt, htoken, hissued, hexpires, hiff.mpr (by decide)⟩

/-- A token of half a second within the leeway: both its times are cut to
the same second, and the verifier rejects it. -/
theorem short_token_rejected :
    PyJWTAccessTokenIssuer.init 1 " key-1" "issuer " {"api"} 500000 = .ok (tokenIssuer 500000) ∧
    PyJWTAccessTokenVerifier.init (fun _ => 2048) [("key-1", 1)] "issuer" "api" (some 5000000) =
      .ok tokenVerifier ∧
    tenSeconds.instant = some 10000000 ∧
    (12000000 : Int) < (10000000 + 500000) / 1000000 * 1000000 + 5000000 ∧
    ∃ token, (tokenIssuer 500000).issue jwt principal tenSeconds 8 = .ok token ∧
      ∀ claims, tokenVerifier.verify jwt pydantic token 12000000 ≠ .ok claims := by
  obtain ⟨token, htoken⟩ : ∃ token,
      (tokenIssuer 500000).issue jwt principal tenSeconds 8 = .ok token := ⟨_, rfl⟩
  have hnone : ((tokenIssuer 500000).issue jwt principal tenSeconds 8).toOption.map
      (fun token => (tokenVerifier.verify jwt pydantic token 12000000).toOption.isNone) =
        some true := by
    decide +kernel
  refine ⟨tokenIssuer_init (by decide), tokenVerifier_init, by decide, by decide, token, htoken, ?_⟩
  intro claims h
  rw [htoken] at hnone
  simp [Except.toOption, h] at hnone

end

end IdentityService
