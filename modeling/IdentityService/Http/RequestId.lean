import IdentityService.Http.Headers
import IdentityService.Text.Uuid

/-!
# The request id policy

`ValidatedRequestIdResolver`: a propagated id is kept when it is safe and
short enough, else one is generated, and a generated id passes the same
check. The default generator, `str(uuid4())`, always does.
-/

namespace IdentityService

/-- What the HTTP boundary raises. `cancelled` is the only one that
`except Exception` does not catch. -/
inductive HttpExn where
  | cancelled
  | osError
  | runtimeError (text : String)
  | valueError (text : String)
  | keyError (key : String)
  | typeError
  | exception (name : String)
deriving DecidableEq, Repr

/-- `[A-Za-z0-9]`. -/
def isAlphanumeric (c : Char) : Bool := c.isAlpha || c.isDigit

/-- `[A-Za-z0-9._:-]`. -/
def isRequestIdChar (c : Char) : Bool :=
  isAlphanumeric c || c = '.' || c = '_' || c = ':' || c = '-'

/-- `_SAFE_REQUEST_ID.fullmatch(value) is not None`. -/
def safeRequestId (value : String) : Bool :=
  match value.toList with
  | [] => false
  | c :: rest => isAlphanumeric c && rest.all isRequestIdChar

/-- `ValidatedRequestIdResolver`, with what its constructor checks. -/
structure ValidatedRequestIdResolver where
  maxLength : Int
  positive : 1 ≤ maxLength

namespace ValidatedRequestIdResolver

/-- `ValidatedRequestIdResolver(max_length)`. -/
def init (maxLength : Int) : Except HttpExn ValidatedRequestIdResolver :=
  if h : maxLength < 1 then .error (.valueError "max_length must be positive")
  else .ok ⟨maxLength, by omega⟩

/-- `ValidatedRequestIdResolver()`. -/
def default : ValidatedRequestIdResolver := ⟨128, by decide⟩

/-- `_is_valid`. -/
def isValid (resolver : ValidatedRequestIdResolver) (value : String) : Bool :=
  decide ((value.length : Int) ≤ resolver.maxLength) && safeRequestId value

/-- `resolve`; `generated` is what the generator would return. -/
def resolve (resolver : ValidatedRequestIdResolver) (generated : String)
    (candidate : Option String) : Except HttpExn String :=
  match candidate.filter resolver.isValid with
  | some candidate => .ok candidate
  | none =>
    if resolver.isValid generated then .ok generated
    else .error (.valueError "request id generator returned an unsafe value")

/-- An id that is returned passed the check. -/
theorem isValid_of_resolve {resolver : ValidatedRequestIdResolver} {generated requestId : String}
    {candidate : Option String} (h : resolver.resolve generated candidate = .ok requestId) :
    resolver.isValid requestId = true := by
  unfold resolve at h
  split at h
  · rename_i kept hkept
    obtain rfl := Except.ok.inj h
    exact (Option.filter_eq_some_iff.mp hkept).2
  · split at h
    · rename_i hgenerated
      obtain rfl := Except.ok.inj h
      exact hgenerated
    · cases h

/-- A generator of valid ids makes `resolve` total. -/
theorem resolve_total {resolver : ValidatedRequestIdResolver} {generated : String}
    (h : resolver.isValid generated = true) (candidate : Option String) :
    ∃ requestId, resolver.resolve generated candidate = .ok requestId := by
  unfold resolve
  split
  · exact ⟨_, rfl⟩
  · simp [h]

end ValidatedRequestIdResolver

/-! ## Safe ids -/

theorem isAlphanumeric_low {c : Char} (h : isAlphanumeric c = true) : c.toNat < 128 := by
  have hcases : (c.isUpper || c.isLower || c.isDigit) = true := h
  simp only [Bool.or_eq_true] at hcases
  show c.val.toNat < 128
  rcases hcases with (hupper | hlower) | hdigit
  · have hrange : 'A'.val ≤ c.val ∧ c.val ≤ 'Z'.val := of_decide_eq_true hupper
    exact Nat.lt_of_le_of_lt hrange.2 (by decide)
  · have hrange := (Bool.and_eq_true _ _).mp hlower
    exact Nat.lt_of_le_of_lt (of_decide_eq_true hrange.2) (by decide)
  · have hrange := (Bool.and_eq_true _ _).mp hdigit
    exact Nat.lt_of_le_of_lt (of_decide_eq_true hrange.2) (by decide)

theorem isRequestIdChar_low {c : Char} (h : isRequestIdChar c = true) : c.toNat < 128 := by
  simp only [isRequestIdChar, Bool.or_eq_true, decide_eq_true_eq] at h
  rcases h with (((h | rfl) | rfl) | rfl) | rfl
  · exact isAlphanumeric_low h
  all_goals decide

/-- A safe id is ASCII. -/
theorem safeRequestId_low {value : String} (h : safeRequestId value = true) :
    ∀ c ∈ value.toList, c.toNat < 128 := by
  unfold safeRequestId at h
  split at h
  · cases h
  · rename_i first rest hlist
    simp only [Bool.and_eq_true, List.all_eq_true] at h
    intro c hc
    rw [hlist, List.mem_cons] at hc
    rcases hc with rfl | hc
    · exact isRequestIdChar_low (by simp [isRequestIdChar, h.1])
    · exact isRequestIdChar_low (h.2 c hc)

/-! ## The default generator -/

theorem digit_alphanumeric {n : Nat} (h : n < 16) : isAlphanumeric (Hex.digit n) = true := by
  have hall : ∀ m : Fin 16, isAlphanumeric (Hex.digit m) = true := by decide
  exact hall ⟨n, h⟩

theorem length_uuidText (u : Uuid) : (uuidText u).length = 36 := by
  simp [uuidText, ← String.length_toList]

/-- `str(uuid)` is a safe id. -/
theorem safeRequestId_uuidText (u : Uuid) : safeRequestId (uuidText u) = true := by
  obtain ⟨c, rest, hlist, hfirst⟩ : ∃ c rest, (uuidText u).toList = c :: rest ∧
      isAlphanumeric c = true := by
    refine ⟨_, _, by rw [uuidText_toList]; rfl, ?_⟩
    exact digit_alphanumeric (Nat.mod_lt _ (by decide))
  have hrest : ∀ d ∈ rest, isRequestIdChar d = true := by
    intro d hd
    have hmem : d ∈ (uuidText u).toList := by rw [hlist]; exact List.mem_cons_of_mem _ hd
    rcases mem_uuidText hmem with rfl | ⟨n, hn, rfl⟩
    · decide
    · simp [isRequestIdChar, digit_alphanumeric hn]
  simp only [safeRequestId, hlist, hfirst, Bool.true_and, List.all_eq_true]
  exact hrest

theorem isValid_uuidText (u : Uuid) :
    ValidatedRequestIdResolver.default.isValid (uuidText u) = true := by
  simp [ValidatedRequestIdResolver.isValid, ValidatedRequestIdResolver.default, length_uuidText,
    safeRequestId_uuidText]

end IdentityService
