import IdentityService.Idempotency.Types
import IdentityService.Json.Reader

/-!
# The text of a completed result

`_encode_completed` writes a `CompletedIdempotencyResult` as compact JSON
with its request hash in hexadecimal, and `_decode_completed` reads and
validates it. The reading is up to the library (`JsonReader`). Of what
Pydantic accepts, only the types that the writer uses are accepted here.
-/

namespace IdentityService

/-! ## Writing -/

def optionalText : Option String → Json
  | none => .null
  | some s => .str s

def optionalNat : Option Nat → Json
  | none => .null
  | some n => .int n

def optionalObject : Option (List (String × Json)) → Json
  | none => .null
  | some fields => .obj fields

/-- `model_dump(mode="json")`, with the hash as text, in the order in which
the keys are written. -/
def CompletedIdempotencyResult.dump (c : CompletedIdempotencyResult) : List (String × Json) :=
  [("request_hash", .str c.requestHash.hex), ("resource_id", optionalText c.resourceId),
    ("resource_type", optionalText c.resourceType),
    ("resource_version", optionalNat c.resourceVersion),
    ("result_payload", optionalObject c.resultPayload), ("result_type", .str c.resultType),
    ("result_version", .int c.resultVersion)]

/-- `_encode_completed`. -/
def encodeCompleted (c : CompletedIdempotencyResult) : String :=
  String.ofList ((Json.obj c.dump).dumps false)

/-! ## Reading -/

def readText : Json → Option String
  | .str s => some s
  | _ => none

/-- A positive integer. -/
def readPositive : Json → Option Nat
  | .int (.ofNat n) => if 0 < n then some n else none
  | _ => none

def readObject : Json → Option (List (String × Json))
  | .obj fields => some fields
  | _ => none

/-- A field that may be missing or `None`. -/
def readOptional {α : Type} (read : Json → Option α) : Option Json → Option (Option α)
  | none => some none
  | some .null => some none
  | some v => (read v).map some

/-- The validators of `StoredResult` and `CompletedIdempotencyResult`. -/
def CompletedIdempotencyResult.validate (resultType : String)
    (resultPayload : Option (List (String × Json))) (resultVersion : Nat)
    (resourceType resourceId : Option String) (resourceVersion : Option Nat)
    (requestHash : List UInt8) : Option CompletedIdempotencyResult :=
  if h : (1 ≤ resultType.length ∧ resultType.length ≤ 100) ∧ 0 < resultVersion ∧
      (∀ t ∈ resourceType, 1 ≤ t.length ∧ t.length ≤ 100) ∧ (∀ v ∈ resourceVersion, 0 < v) ∧
      resourceType.isSome = resourceId.isSome ∧ (resultPayload.isSome ∨ resourceId.isSome) ∧
      (resourceVersion.isSome → resourceId.isSome) ∧ requestHash.length = 32 then
    some
      { resultType, resultPayload, resultVersion, resourceType, resourceId, resourceVersion
        resultTypeSize := h.1
        resultVersionPos := h.2.1
        resourceTypeSize := h.2.2.1
        resourceVersionPos := h.2.2.2.1
        resourcePair := h.2.2.2.2.1
        replayable := h.2.2.2.2.2.1
        versioned := h.2.2.2.2.2.2.1
        requestHash := ⟨requestHash, h.2.2.2.2.2.2.2⟩ }
  else
    none

/-- `CompletedIdempotencyResult.model_validate` on the fields of the text,
once the hash is read. -/
def CompletedIdempotencyResult.ofFields (fields : List (String × Json)) :
    Option CompletedIdempotencyResult := do
  let requestHash ← (fields.lookup "request_hash").bind readText
  let requestHash ← Hex.decode requestHash.toList
  let resultType ← (fields.lookup "result_type").bind readText
  let resultPayload ← readOptional readObject (fields.lookup "result_payload")
  let resultVersion ←
    match fields.lookup "result_version" with
    | none => some 1
    | some v => readPositive v
  let resourceType ← readOptional readText (fields.lookup "resource_type")
  let resourceId ← readOptional readText (fields.lookup "resource_id")
  let resourceVersion ← readOptional readPositive (fields.lookup "resource_version")
  CompletedIdempotencyResult.validate resultType resultPayload resultVersion resourceType
    resourceId resourceVersion requestHash

/-- `_decode_completed`. -/
def decodeCompleted (reader : JsonReader) (raw : String) : Option CompletedIdempotencyResult := do
  let value ← reader.read (utf8 raw)
  let fields ← readObject value
  CompletedIdempotencyResult.ofFields fields

/-! ## What is written reads back -/

/-- The fields of a payload in the order of their keys, at every depth. -/
def sortPayload (fields : List (String × Json)) : List (String × Json) :=
  Json.sortFields (Json.sortKeysFields fields)

namespace CompletedIdempotencyResult

/-- The payload is a dictionary of JSON values. -/
def PayloadProper (c : CompletedIdempotencyResult) : Prop :=
  ∀ fields, c.resultPayload = some fields → (Json.obj fields).Proper

/-- The result with its payload's keys in order, which is no difference to a
dictionary. -/
def sorted (c : CompletedIdempotencyResult) : CompletedIdempotencyResult :=
  { c with
    resultPayload := c.resultPayload.map sortPayload
    replayable := by simpa using c.replayable }

theorem sorted_requestHash (c : CompletedIdempotencyResult) :
    c.sorted.requestHash = c.requestHash := rfl

theorem validate_self (c : CompletedIdempotencyResult) :
    validate c.resultType c.resultPayload c.resultVersion c.resourceType c.resourceId
      c.resourceVersion c.requestHash.bytes = some c := by
  have hvalid : (1 ≤ c.resultType.length ∧ c.resultType.length ≤ 100) ∧ 0 < c.resultVersion ∧
      (∀ t ∈ c.resourceType, 1 ≤ t.length ∧ t.length ≤ 100) ∧
      (∀ v ∈ c.resourceVersion, 0 < v) ∧ c.resourceType.isSome = c.resourceId.isSome ∧
      (c.resultPayload.isSome ∨ c.resourceId.isSome) ∧
      (c.resourceVersion.isSome → c.resourceId.isSome) ∧ c.requestHash.bytes.length = 32 :=
    ⟨c.resultTypeSize, c.resultVersionPos, c.resourceTypeSize, c.resourceVersionPos,
      c.resourcePair, c.replayable, c.versioned, c.requestHash.size⟩
  rw [validate, dif_pos hvalid]

theorem readOptional_text (o : Option String) :
    readOptional readText (some (optionalText o)) = some o := by
  cases o <;> rfl

theorem readOptional_object (o : Option (List (String × Json))) :
    readOptional readObject (some (optionalObject o)) = some o := by
  cases o <;> rfl

theorem readPositive_nat {n : Nat} (h : 0 < n) : readPositive (.int n) = some n := by
  show (if 0 < n then some n else none) = some n
  rw [if_pos h]

theorem readOptional_nat {o : Option Nat} (h : ∀ v, o = some v → 0 < v) :
    readOptional readPositive (some (optionalNat o)) = some o := by
  cases o with
  | none => rfl
  | some n =>
      show (readPositive (.int n)).map some = some (some n)
      rw [readPositive_nat (h n rfl)]
      rfl

theorem keys_dump (c : CompletedIdempotencyResult) : c.dump.map Prod.fst =
    ["request_hash", "resource_id", "resource_type", "resource_version", "result_payload",
      "result_type", "result_version"] := rfl

theorem dump_proper {c : CompletedIdempotencyResult} (h : c.PayloadProper) :
    (Json.obj c.dump).Proper := by
  have htext : ∀ o, (optionalText o).Proper := by
    intro o
    cases o with
    | none => exact .null
    | some s => exact .str s
  have hnat : ∀ o, (optionalNat o).Proper := by
    intro o
    cases o with
    | none => exact .null
    | some n => exact .int n
  have hpayload : (optionalObject c.resultPayload).Proper := by
    cases hp : c.resultPayload with
    | none => exact .null
    | some fields => exact h fields hp
  refine .obj ?_ fun f hf => ?_
  · rw [keys_dump]
    decide
  · simp only [dump, List.mem_cons, List.not_mem_nil, or_false] at hf
    rcases hf with rfl | rfl | rfl | rfl | rfl | rfl | rfl
    · exact .str _
    · exact htext _
    · exact htext _
    · exact hnat _
    · exact hpayload
    · exact .str _
    · exact .int _

theorem sortKeys_dump (c : CompletedIdempotencyResult) :
    (Json.obj c.dump).sortKeys = .obj c.sorted.dump := by
  have hfields : Json.sortKeysFields c.dump = c.sorted.dump := by
    have htext : ∀ o, (optionalText o).sortKeys = optionalText o := by
      intro o
      cases o <;> rfl
    have hnat : ∀ o, (optionalNat o).sortKeys = optionalNat o := by
      intro o
      cases o <;> rfl
    have hobject : ∀ o, (optionalObject o).sortKeys = optionalObject (o.map sortPayload) := by
      intro o
      cases o <;> rfl
    simp only [dump, Json.sortKeysFields, Json.sortKeys, htext, hnat, hobject]
    rfl
  have horder : Json.InOrder c.sorted.dump := by
    have hkeys : (c.sorted.dump.map Prod.fst).Pairwise (· ≤ ·) := by
      rw [keys_dump]
      decide
    exact List.pairwise_map.mp hkeys
  rw [Json.sortKeys, hfields, Json.sortFields_of_inOrder horder]

theorem ofFields_dump (c : CompletedIdempotencyResult) : ofFields c.dump = some c := by
  have hhash : c.dump.lookup "request_hash" = some (.str c.requestHash.hex) := rfl
  have htype : c.dump.lookup "result_type" = some (.str c.resultType) := rfl
  have hpayload : c.dump.lookup "result_payload" = some (optionalObject c.resultPayload) := rfl
  have hversion : c.dump.lookup "result_version" = some (.int c.resultVersion) := rfl
  have hrtype : c.dump.lookup "resource_type" = some (optionalText c.resourceType) := rfl
  have hrid : c.dump.lookup "resource_id" = some (optionalText c.resourceId) := rfl
  have hrversion : c.dump.lookup "resource_version" = some (optionalNat c.resourceVersion) := rfl
  have hhex : Hex.decode c.requestHash.hex.toList = some c.requestHash.bytes := by
    rw [Digest.hex, String.toList_ofList, Hex.decode_encode]
  rw [ofFields, hhash, htype, hpayload, hversion, hrtype, hrid, hrversion]
  simp only [Option.bind_eq_bind, Option.bind_some, readText, hhex, readOptional_object,
    readPositive_nat c.resultVersionPos, readOptional_text, readOptional_nat c.resourceVersionPos,
    validate_self]

/-- What `_encode_completed` writes, `_decode_completed` reads. -/
theorem decode_encodeCompleted (reader : JsonReader) {c : CompletedIdempotencyResult}
    (h : c.PayloadProper) : decodeCompleted reader (encodeCompleted c) = some c.sorted := by
  rw [decodeCompleted, encodeCompleted, reader.read_dumps false (dump_proper h), sortKeys_dump]
  simp only [Option.bind_eq_bind, Option.bind_some, readObject, ofFields_dump]

end CompletedIdempotencyResult

end IdentityService
