import IdentityService.Auth.Handlers
import IdentityService.Json.Reader
import IdentityService.Text.Base64

/-!
# Replay envelopes

`AESGCMReplayResultProtector` encrypts the payload of a replay under the
active key of its ring and binds it to the request by the bytes of
`replay_aad`. AES-GCM itself is ideal here (`Aead`), and the library that
reads the decrypted JSON follows the standard (`JsonReader`).
-/

namespace IdentityService

/-- An authenticated cipher that opens a ciphertext only under the key, the
nonce and the associated data it was sealed with. `none` is `InvalidTag`. -/
structure Aead where
  encrypt : (key nonce plaintext aad : List UInt8) → List UInt8
  decrypt : (key nonce ciphertext aad : List UInt8) → Option (List UInt8)
  opens : ∀ key nonce plaintext aad,
    decrypt key nonce (encrypt key nonce plaintext aad) aad = some plaintext
  binds : ∀ key nonce plaintext aad key' nonce' aad',
    ¬ (key' = key ∧ nonce' = nonce ∧ aad' = aad) →
    decrypt key' nonce' (encrypt key nonce plaintext aad) aad' = none

/-- A key ring the constructor accepts. -/
structure ReplayKeyRing where
  activeKeyId : String
  keys : List (String × List UInt8)
  distinct : (keys.map Prod.fst).Nodup
  active : (keys.lookup activeKeyId).isSome
  sizes : ∀ k ∈ keys, k.2.length = 32

/-- `self._keys[self._active_key_id]`. -/
def ReplayKeyRing.activeKey (ring : ReplayKeyRing) : List UInt8 :=
  (ring.keys.lookup ring.activeKeyId).get ring.active

/-- A `dict[str, str]`, as JSON. -/
def stringObject (payload : List (String × String)) : Json :=
  .obj (payload.map fun f => (f.1, .str f.2))

/-- What `validate_json` accepts as a `dict[str, str]`. -/
def stringFields : Json → Option (List (String × String))
  | .obj fields => fields.mapM fun f =>
    match f.2 with
    | .str s => some (f.1, s)
    | _ => none
  | _ => none

/-- `envelope.get("version") == 1`; `True` equals one. -/
def isVersionOne : Option Json → Bool
  | some (.int n) => n = 1
  | some (.bool b) => b
  | _ => false

/-- The `algorithm` field says what it must. -/
def isAesGcm : Option Json → Bool
  | some (.str s) => s = "AES-256-GCM"
  | _ => false

/-- `str(value)` of a scalar. Lists and mappings are not read: their text is
neither a key id nor base64. -/
def scalarText : Json → Option String
  | .null => some "None"
  | .bool true => some "True"
  | .bool false => some "False"
  | .int n => some (String.ofList (Json.intText n))
  | .str s => some s
  | _ => none

namespace AESGCMReplayResultProtector

variable (aead : Aead) (reader : JsonReader) (ring : ReplayKeyRing)

/-- The text that is encrypted. -/
def plaintext (payload : List (String × String)) : List UInt8 :=
  utf8 (String.ofList ((stringObject payload).dumps true))

/-- `protect`, with the nonce that `os.urandom` draws. -/
def protect (nonce : List UInt8) (payload : List (String × String)) (aad : List UInt8) :
    List (String × Json) :=
  let ciphertext := aead.encrypt ring.activeKey nonce (plaintext payload) aad
  [("version", .int 1), ("algorithm", .str "AES-256-GCM"), ("key_id", .str ring.activeKeyId),
    ("nonce", .str (String.ofList (Base64.encode nonce))),
    ("ciphertext", .str (String.ofList (Base64.encode ciphertext)))]

/-- The `try` block of `restore`; each of its exceptions is caught. -/
def tryRestore (envelope : List (String × Json)) (aad : List UInt8) :
    Option (List (String × String)) :=
  if isVersionOne (envelope.lookup "version") && isAesGcm (envelope.lookup "algorithm") then do
    let keyId ← (envelope.lookup "key_id").bind scalarText
    let key ← ring.keys.lookup keyId
    let nonce ← ((envelope.lookup "nonce").bind scalarText).bind fun s => Base64.decode s.toList
    let ciphertext ←
      ((envelope.lookup "ciphertext").bind scalarText).bind fun s => Base64.decode s.toList
    let plaintext ← aead.decrypt key nonce ciphertext aad
    let value ← reader.read plaintext
    stringFields value
  else
    none

/-- `AESGCMReplayResultProtector.restore`. -/
def restore (envelope : List (String × Json)) (aad : List UInt8) :
    Except Exn (List (String × String)) :=
  match tryRestore aead reader ring envelope aad with
  | some payload => .ok payload
  | none => .error .refreshReplayUnavailable

end AESGCMReplayResultProtector

/-- `replay_aad(..)`: the bytes of the object. -/
def aadBytes (aad : Json) : List UInt8 := utf8 (String.ofList (aad.dumps true))

/-- The protector that the handlers are given. -/
def aesGcmProtector (aead : Aead) (reader : JsonReader) (ring : ReplayKeyRing) :
    ReplayResultProtector where
  protect nonce payload aad :=
    AESGCMReplayResultProtector.protect aead ring nonce payload (aadBytes aad)
  restore envelope aad :=
    AESGCMReplayResultProtector.restore aead reader ring envelope (aadBytes aad)

/-! ## The associated data -/

/-- What `replay_aad` is made from. -/
structure ReplayContext where
  subjectId : String
  operation : String
  keyHash : Digest
  requestHash : Digest
  resultType : String
  resultVersion : Nat

/-- The dictionary in `replay_aad`. -/
def ReplayContext.fields (x : ReplayContext) : List (String × Json) :=
  [("format_version", .int 1), ("key_hash", .str x.keyHash.hex), ("operation", .str x.operation),
    ("request_hash", .str x.requestHash.hex), ("result_type", .str x.resultType),
    ("result_version", .int x.resultVersion), ("subject_id", .str x.subjectId)]

/-- The associated data of a context. -/
def ReplayContext.aad (x : ReplayContext) : List UInt8 := aadBytes (.obj x.fields)

theorem replayAad_eq (identity : IdempotencyIdentity) (requestHash : Digest) (resultType : String)
    (resultVersion : Nat) :
    aadBytes (replayAad identity requestHash resultType resultVersion) =
      ReplayContext.aad ⟨identity.subjectId, identity.operation, identity.keyHash, requestHash,
        resultType, resultVersion⟩ := rfl

theorem ReplayContext.proper_fields (x : ReplayContext) : (Json.obj x.fields).Proper := by
  refine .obj ?_ fun f hf => ?_
  · have hkeys : x.fields.map Prod.fst = ["format_version", "key_hash", "operation",
      "request_hash", "result_type", "result_version", "subject_id"] := rfl
    rw [hkeys]
    decide
  · simp only [fields, List.mem_cons, List.not_mem_nil, or_false] at hf
    rcases hf with rfl | rfl | rfl | rfl | rfl | rfl | rfl
    · exact .int 1
    · exact .str _
    · exact .str _
    · exact .str _
    · exact .str _
    · exact .int _
    · exact .str _

/-- The fields are listed in the order of their keys. -/
theorem ReplayContext.sortKeys_fields (x : ReplayContext) :
    (Json.obj x.fields).sortKeys = .obj x.fields := by
  have horder : Json.InOrder x.fields := by
    have hkeys : (x.fields.map Prod.fst).Pairwise (· ≤ ·) := by
      have hlist : x.fields.map Prod.fst = ["format_version", "key_hash", "operation",
        "request_hash", "result_type", "result_version", "subject_id"] := rfl
      rw [hlist]
      decide
    exact List.pairwise_map.mp hkeys
  have hfields : Json.sortKeysFields x.fields = x.fields := rfl
  rw [Json.sortKeys, hfields, Json.sortFields_of_inOrder horder]

theorem ReplayContext.aad_inj {x y : ReplayContext} (h : x.aad = y.aad) : x = y := by
  have htext := String.ofList_injective (utf8_inj h)
  rw [Json.dumps, Json.dumps, x.sortKeys_fields, y.sortKeys_fields] at htext
  have hobject := Json.write_inj x.proper_fields y.proper_fields htext
  simp only [fields, Json.obj.injEq, List.cons.injEq, Prod.mk.injEq, Json.str.injEq,
    Json.int.injEq, true_and, and_true, Int.natCast_inj] at hobject
  obtain ⟨hkey, hoperation, hrequest, htype, hversion, hsubject⟩ := hobject
  cases x
  cases y
  simp only [ReplayContext.mk.injEq]
  exact ⟨hsubject, hoperation, Digest.hex_inj hkey, Digest.hex_inj hrequest, htype, hversion⟩

/-! ## Restoring -/

theorem stringFields_strings (payload : List (String × String)) :
    stringFields (stringObject payload) = some payload := by
  have hmap : ∀ fields : List (String × String),
      (fields.map fun f => (f.1, Json.str f.2)).mapM (fun f : String × Json =>
        match f.2 with
        | .str s => some (f.1, s)
        | _ => none) = some fields := by
    intro fields
    induction fields with
    | nil => rfl
    | cons f fields ih => simp [List.mapM_cons, ih]
  exact hmap payload

theorem stringObject_proper {payload : List (String × String)}
    (hkeys : (payload.map Prod.fst).Nodup) : (stringObject payload).Proper := by
  refine .obj ?_ fun f hf => ?_
  · rw [List.map_map]
    exact hkeys
  · obtain ⟨g, -, rfl⟩ := List.mem_map.mp hf
    exact .str g.2

theorem sortKeys_stringObject (payload : List (String × String)) :
    (stringObject payload).sortKeys = stringObject (Json.sortFields payload) := by
  rw [stringObject, Json.sortKeys, Json.sortKeysFields_eq, List.map_map]
  have hsame : ((fun f : String × Json => (f.1, f.2.sortKeys)) ∘
      fun f : String × String => (f.1, Json.str f.2)) = fun f => (f.1, Json.str f.2) := rfl
  rw [hsame, Json.sortFields_map, stringObject]

namespace AESGCMReplayResultProtector

variable {aead : Aead} {reader : JsonReader} {ring ring' : ReplayKeyRing} {nonce : List UInt8}
  {payload : List (String × String)} {aad aad' : List UInt8}

/-- What `restore` makes of an envelope that `protect` built. -/
theorem tryRestore_protect :
    tryRestore aead reader ring' (protect aead ring nonce payload aad) aad' =
      (ring'.keys.lookup ring.activeKeyId).bind fun key =>
        (aead.decrypt key nonce
          (aead.encrypt ring.activeKey nonce (plaintext payload) aad) aad').bind fun bytes =>
            (reader.read bytes).bind stringFields := by
  have hversion : (protect aead ring nonce payload aad).lookup "version" = some (.int 1) := rfl
  have halgorithm : (protect aead ring nonce payload aad).lookup "algorithm" =
      some (.str "AES-256-GCM") := rfl
  have hkey : (protect aead ring nonce payload aad).lookup "key_id" =
      some (.str ring.activeKeyId) := rfl
  have hnonce : (protect aead ring nonce payload aad).lookup "nonce" =
      some (.str (String.ofList (Base64.encode nonce))) := rfl
  have hciphertext : (protect aead ring nonce payload aad).lookup "ciphertext" =
      some (.str (String.ofList (Base64.encode
        (aead.encrypt ring.activeKey nonce (plaintext payload) aad)))) := rfl
  rw [tryRestore, hversion, halgorithm, hkey, hnonce, hciphertext]
  simp only [isVersionOne, isAesGcm, scalarText, Option.bind_some, String.toList_ofList,
    Base64.decode_encode, decide_true, Bool.and_self, if_true, Option.bind_eq_bind]

theorem read_plaintext (hkeys : (payload.map Prod.fst).Nodup) :
    (reader.read (plaintext payload)).bind stringFields = some (Json.sortFields payload) := by
  rw [plaintext, reader.read_dumps true (stringObject_proper hkeys), Option.bind_some,
    sortKeys_stringObject, stringFields_strings]

/-- The right key and the right associated data. -/
theorem restore_same (hkeys : (payload.map Prod.fst).Nodup)
    (hring : ring'.keys.lookup ring.activeKeyId = some ring.activeKey) :
    restore aead reader ring' (protect aead ring nonce payload aad) aad =
      .ok (Json.sortFields payload) := by
  rw [restore, tryRestore_protect, hring, Option.bind_some, aead.opens, Option.bind_some,
    read_plaintext hkeys]

theorem restore_other (hother : ¬ (aad' = aad ∧
      ring'.keys.lookup ring.activeKeyId = some ring.activeKey)) :
    restore aead reader ring' (protect aead ring nonce payload aad) aad' =
      .error .refreshReplayUnavailable := by
  have hnone : tryRestore aead reader ring' (protect aead ring nonce payload aad) aad' = none := by
    rw [tryRestore_protect]
    cases hkey : ring'.keys.lookup ring.activeKeyId with
    | none => rfl
    | some key =>
        rw [Option.bind_some, aead.binds, Option.bind_none]
        rintro ⟨rfl, -, rfl⟩
        exact hother ⟨rfl, hkey⟩
  rw [restore, hnone]

end AESGCMReplayResultProtector

open AESGCMReplayResultProtector in
/-- The associated data determines its context, and an envelope opens only
in the context it was made for and under the key it was made with. -/
theorem replay_envelope_bound (aead : Aead) (reader : JsonReader) :
    (∀ x y : ReplayContext, x.aad = y.aad → x = y) ∧
    ∀ (ring ring' : ReplayKeyRing) (nonce : List UInt8) (payload : List (String × String))
      (x y : ReplayContext), (payload.map Prod.fst).Nodup →
      (x = y ∧ ring'.keys.lookup ring.activeKeyId = some ring.activeKey →
        ∃ restored, restored.Perm payload ∧
          restore aead reader ring' (protect aead ring nonce payload x.aad) y.aad =
            .ok restored) ∧
      (¬ (x = y ∧ ring'.keys.lookup ring.activeKeyId = some ring.activeKey) →
        restore aead reader ring' (protect aead ring nonce payload x.aad) y.aad =
          .error .refreshReplayUnavailable) := by
  refine ⟨fun x y => ReplayContext.aad_inj, ?_⟩
  intro ring ring' nonce payload x y hkeys
  constructor
  · rintro ⟨rfl, hring⟩
    exact ⟨Json.sortFields payload, Json.perm_sortFields payload, restore_same hkeys hring⟩
  · intro hother
    refine restore_other fun hsame => ?_
    exact hother ⟨(ReplayContext.aad_inj hsame.1).symm, hsame.2⟩

namespace Sample

/-- The length in unary, and the bytes. -/
def frame (bytes : List UInt8) : List UInt8 := List.replicate bytes.length 1 ++ 0 :: bytes

theorem frame_inj {xs ys r s : List UInt8} (h : frame xs ++ r = frame ys ++ s) :
    xs = ys ∧ r = s := by
  -- the zero tells the length
  have hcount : ∀ n m (cs ds : List UInt8), List.replicate n (1 : UInt8) ++ 0 :: cs =
      List.replicate m 1 ++ 0 :: ds → n = m ∧ cs = ds := by
    intro n
    induction n with
    | zero =>
        intro m cs ds heq
        cases m with
        | zero => simpa using heq
        | succ m => simp [List.replicate_succ] at heq
    | succ n ih =>
        intro m cs ds heq
        cases m with
        | zero => simp [List.replicate_succ] at heq
        | succ m =>
            simp only [List.replicate_succ, List.cons_append, List.cons.injEq, true_and] at heq
            obtain ⟨rfl, rfl⟩ := ih m cs ds heq
            exact ⟨rfl, rfl⟩
  simp only [frame, List.append_assoc, List.cons_append] at h
  obtain ⟨hlength, hrest⟩ := hcount _ _ _ _ h
  exact List.append_inj hrest hlength

/-- A cipher that hides nothing, and still opens only what was sealed. -/
def aead : Aead where
  encrypt key nonce plaintext aad := frame key ++ (frame nonce ++ (frame aad ++ plaintext))
  decrypt key nonce ciphertext aad :=
    let header := frame key ++ (frame nonce ++ frame aad)
    if header.isPrefixOf ciphertext then some (ciphertext.drop header.length) else none
  opens key nonce plaintext aad := by
    have happend : frame key ++ (frame nonce ++ (frame aad ++ plaintext)) =
        (frame key ++ (frame nonce ++ frame aad)) ++ plaintext := by simp
    rw [happend]
    simp
  binds key nonce plaintext aad key' nonce' aad' hother := by
    have hprefix : ¬ (frame key' ++ (frame nonce' ++ frame aad')).isPrefixOf
        (frame key ++ (frame nonce ++ (frame aad ++ plaintext))) = true := by
      rw [List.isPrefixOf_iff_prefix]
      rintro ⟨rest, hrest⟩
      simp only [List.append_assoc] at hrest
      obtain ⟨hkey, hrest⟩ := frame_inj hrest
      obtain ⟨hnonce, hrest⟩ := frame_inj hrest
      obtain ⟨haad, -⟩ := frame_inj hrest
      exact hother ⟨hkey, hnonce, haad⟩
    rw [if_neg hprefix]

/-- A key ring before the rotation of its key. -/
def oldRing : ReplayKeyRing where
  activeKeyId := "old"
  keys := [("old", List.replicate 32 1)]
  distinct := by decide
  active := by decide
  sizes := by decide

/-- The ring after a rotation. -/
def newRing : ReplayKeyRing where
  activeKeyId := "new"
  keys := [("old", List.replicate 32 1), ("new", List.replicate 32 2)]
  distinct := by decide
  active := by decide
  sizes := by decide

/-- The context of one request, for results of either type. -/
def context (resultType : String) : ReplayContext :=
  ⟨"public-refresh", "auth.refresh", digest 1, digest 2, resultType, 1⟩

def tokens : List (String × String) := [("token_type", "bearer"), ("refresh_token", "value")]

end Sample

open AESGCMReplayResultProtector Sample in
/-- The previous key still decrypts, and only in its own context. -/
theorem replay_envelope_bound_rotated :
    (∃ restored, restored.Perm tokens ∧
      restore Sample.aead .strict newRing (protect Sample.aead oldRing (List.replicate 12 7) tokens
        (Sample.context "auth.refresh.success").aad) (Sample.context "auth.refresh.success").aad =
          .ok restored) ∧
    restore Sample.aead .strict newRing (protect Sample.aead oldRing (List.replicate 12 7) tokens
      (Sample.context "auth.refresh.success").aad) (Sample.context "auth.refresh.rejected").aad =
        .error .refreshReplayUnavailable := by
  have hbound := replay_envelope_bound Sample.aead .strict
  have hkeys : (tokens.map Prod.fst).Nodup := by decide
  have hring : newRing.keys.lookup oldRing.activeKeyId = some oldRing.activeKey := by decide
  refine ⟨(hbound.2 _ _ _ _ _ _ hkeys).1 ⟨rfl, hring⟩, (hbound.2 _ _ _ _ _ _ hkeys).2 ?_⟩
  rintro ⟨hsame, -⟩
  have htype := congrArg ReplayContext.resultType hsame
  exact absurd htype (by decide)

end IdentityService
