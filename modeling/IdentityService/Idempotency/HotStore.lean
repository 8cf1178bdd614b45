import IdentityService.Idempotency.Types

/-!
# The Valkey hot store

One Valkey hash per identity, read and written only by four Lua scripts,
each of which runs atomically. The scripts are transcribed branch by
branch; `begin` then reads the script's reply as
`ValkeyHotIdempotencyStore.begin` does.

A hash field is absent or holds text. Two fields are kept by what they
stand for: `request_hash` by the digest its hexadecimal text spells, and
`owner_token` by its UUID. `result` is the JSON text written by
`_encode_completed`; only that it reads back is used here (`ResultCodec`).
Time to live is not counted: an entry may vanish at any moment.
-/

namespace IdentityService

/-- `_encode_completed` and `_decode_completed`: what is written for a
completed entry reads back. -/
structure ResultCodec where
  Blob : Type
  encode : CompletedIdempotencyResult → Blob
  decode : Blob → Option CompletedIdempotencyResult
  decode_encode : ∀ c, decode (encode c) = some c

/-- The hash stored under one key. -/
structure HotHash (Blob : Type) where
  formatVersion : Option String
  state : Option String
  requestHash : Option Digest
  ownerToken : Option Uuid
  result : Option Blob

namespace HotHash

variable {Blob : Type}

/-- The entry `_BEGIN_SCRIPT` writes for a new owner. -/
def processing (requestHash : Digest) (ownerToken : Uuid) : HotHash Blob :=
  ⟨some "1", some "processing", some requestHash, some ownerToken, none⟩

/-- `_BEGIN_SCRIPT`: the reply code, the result of a code 2, and the entry
left behind. -/
def beginScript (requestHash : Digest) (ownerToken : Uuid) (entry : Option (HotHash Blob)) :
    (Nat × Option Blob) × Option (HotHash Blob) :=
  match entry with
  | none => ((1, none), some (processing requestHash ownerToken))
  | some h =>
    match h.state with
    | none => ((5, none), entry)
    | some state =>
      if h.formatVersion ≠ some "1" ∨ h.requestHash = none then ((5, none), entry)
      else if state = "processing" ∧ (h.ownerToken = none ∨ h.result.isSome) then
        ((5, none), entry)
      else if state = "completed" ∧ (h.result.isNone ∨ h.ownerToken.isSome) then
        ((5, none), entry)
      else if h.requestHash ≠ some requestHash then ((3, none), entry)
      else if state = "completed" then ((2, h.result), entry)
      else if state = "processing" then ((4, none), entry)
      else ((5, none), entry)

/-- `_RENEW_SCRIPT`: only the time to live changes. -/
def renewScript (ownerToken : Uuid) (entry : Option (HotHash Blob)) :
    Bool × Option (HotHash Blob) :=
  match entry with
  | none => (false, none)
  | some h =>
    if h.formatVersion = some "1" ∧ h.state = some "processing" ∧
        h.ownerToken = some ownerToken ∧ h.requestHash.isSome then (true, entry)
    else (false, entry)

/-- `_COMPLETE_SCRIPT`. -/
def completeScript (ownerToken : Uuid) (result : Blob) (requestHash : Digest)
    (entry : Option (HotHash Blob)) : Bool × Option (HotHash Blob) :=
  match entry with
  | none => (false, none)
  | some h =>
    if h.formatVersion = some "1" ∧ h.state = some "processing" ∧
        h.ownerToken = some ownerToken ∧ h.requestHash = some requestHash then
      (true, some { h with state := some "completed", result := some result, ownerToken := none })
    else (false, entry)

/-- `_ABANDON_SCRIPT`. -/
def abandonScript (ownerToken : Uuid) (entry : Option (HotHash Blob)) :
    Bool × Option (HotHash Blob) :=
  match entry with
  | none => (false, none)
  | some h =>
    if h.formatVersion = some "1" ∧ h.state = some "processing" ∧
        h.ownerToken = some ownerToken then (true, none)
    else (false, entry)

end HotHash

/-- How `begin` reads the script's reply: a result must decode and answer
the same request, and any other code is a corrupted entry. -/
def readBegin {Blob : Type} (decode : Blob → Option CompletedIdempotencyResult)
    (requestHash : Digest) (reply : Nat × Option Blob) : Except Exn BeginResult :=
  if reply.1 = 1 then .ok .acquired
  else if reply.1 = 2 then
    match reply.2.bind decode with
    | some c => if c.requestHash = requestHash then .ok (.replay c)
        else .error .idempotencyStorageUnavailable
    | none => .error .idempotencyStorageUnavailable
  else if reply.1 = 3 then .ok .conflict
  else if reply.1 = 4 then .ok .inProgress
  else .error .idempotencyStorageUnavailable

/-- `ValkeyHotIdempotencyStore.begin` on the identity's entry. -/
def hotBegin (C : ResultCodec) (requestHash : Digest) (ownerToken : Uuid)
    (entry : Option (HotHash C.Blob)) : Except Exn BeginResult × Option (HotHash C.Blob) :=
  let out := HotHash.beginScript requestHash ownerToken entry
  (readBegin C.decode requestHash out.1, out.2)

/-! ## The shapes an entry takes

The scripts only ever leave three shapes behind; on these the checks for
corruption never fire and the answers are as simple as they should be. -/

/-- The entry `_COMPLETE_SCRIPT` leaves for a result. -/
def HotHash.completed (C : ResultCodec) (c : CompletedIdempotencyResult) : HotHash C.Blob :=
  ⟨some "1", some "completed", some c.requestHash, none, some (C.encode c)⟩

/-- Absent, processing for one owner and one request, or completed with a
result of the entry's own request. -/
inductive HotShape (C : ResultCodec) : Option (HotHash C.Blob) → Prop where
  | absent : HotShape C none
  | processing (requestHash : Digest) (ownerToken : Uuid) :
      HotShape C (some (.processing requestHash ownerToken))
  | completed (c : CompletedIdempotencyResult) : HotShape C (some (.completed C c))

variable {C : ResultCodec} (requestHash : Digest) (ownerToken : Uuid)

theorem hotBegin_absent :
    hotBegin C requestHash ownerToken none
      = (.ok .acquired, some (.processing requestHash ownerToken)) := rfl

/-- A lease of the same request is in progress, one of another request is a
conflict. -/
theorem hotBegin_processing (h' : Digest) (o' : Uuid) :
    hotBegin C requestHash ownerToken (some (.processing h' o'))
      = (.ok (if h' = requestHash then .inProgress else .conflict),
          some (.processing h' o')) := by
  by_cases hh : h' = requestHash
  · simp [hotBegin, HotHash.beginScript, HotHash.processing, readBegin, hh]
  · simp [hotBegin, HotHash.beginScript, HotHash.processing, readBegin, hh]

/-- A completed entry is replayed to its own request and a conflict to
every other. -/
theorem hotBegin_completed (c : CompletedIdempotencyResult) :
    hotBegin C requestHash ownerToken (some (.completed C c))
      = (.ok (if c.requestHash = requestHash then .replay c else .conflict),
          some (.completed C c)) := by
  by_cases hh : c.requestHash = requestHash
  · simp [hotBegin, HotHash.beginScript, HotHash.completed, readBegin, hh, C.decode_encode]
  · simp [hotBegin, HotHash.beginScript, HotHash.completed, readBegin, hh]

theorem completeScript_processing (h' : Digest) (o' : Uuid) (c : CompletedIdempotencyResult) :
    HotHash.completeScript ownerToken (C.encode c) c.requestHash (some (.processing h' o'))
      = if o' = ownerToken ∧ h' = c.requestHash then (true, some (.completed C c))
        else (false, some (.processing h' o')) := by
  by_cases hh : o' = ownerToken ∧ h' = c.requestHash
  · simp [HotHash.completeScript, HotHash.processing, HotHash.completed, hh]
  · simp [HotHash.completeScript, HotHash.processing, hh]

theorem abandonScript_processing (h' : Digest) (o' : Uuid) :
    HotHash.abandonScript ownerToken (some (.processing h' o' : HotHash C.Blob))
      = if o' = ownerToken then (true, none) else (false, some (.processing h' o')) := by
  by_cases hh : o' = ownerToken
  · simp [HotHash.abandonScript, HotHash.processing, hh]
  · simp [HotHash.abandonScript, HotHash.processing, hh]

/-- No script touches a completed entry. -/
theorem completeScript_completed (b : C.Blob) (c : CompletedIdempotencyResult) :
    HotHash.completeScript ownerToken b requestHash (some (.completed C c))
      = (false, some (.completed C c)) := by
  simp [HotHash.completeScript, HotHash.completed]

theorem abandonScript_completed (c : CompletedIdempotencyResult) :
    HotHash.abandonScript ownerToken (some (.completed C c))
      = (false, some (.completed C c)) := by
  simp [HotHash.abandonScript, HotHash.completed]

end IdentityService
