import Mathlib.Data.List.Basic

/-!
# Raw headers

A header list as ASGI messages and Starlette's `Headers` hold it: pairs of
byte strings in order, the names compared as bytes. `getlist` looks a name
up, `setItem` is `MutableHeaders.__setitem__`: the first entry of the name is
overwritten where it stands, the others are deleted, and a name that is not
there goes to the end. Both encode their texts as Latin-1.
-/

namespace Http

/-- A header as ASGI has it: name and value in bytes. -/
abbrev RawHeader := List UInt8 × List UInt8

/-! ## Latin-1 -/

/-- `latin-1` for one character. -/
def encodeChar (c : Char) : Option UInt8 :=
  if c.toNat < 256 then some (UInt8.ofNat c.toNat) else none

/-- `s.encode("latin-1")`, `none` where it raises `UnicodeEncodeError`. -/
def encodeLatin1 (s : String) : Option (List UInt8) := s.toList.mapM encodeChar

/-- `b.decode("latin-1")`. -/
def decodeLatin1 (b : List UInt8) : String :=
  String.ofList (b.map fun x => Char.ofNat x.toNat)

theorem encodeChar_decode {c : Char} {x : UInt8} (h : encodeChar c = some x) :
    Char.ofNat x.toNat = c := by
  unfold encodeChar at h
  split at h
  · rename_i hc
    obtain rfl := Option.some.inj h
    have hx : (UInt8.ofNat c.toNat).toNat = c.toNat := by
      simp [UInt8.toNat_ofNat', Nat.mod_eq_of_lt hc]
    rw [hx, Char.ofNat_toNat]
  · cases h

theorem decode_encodeLatin1 {s : String} {b : List UInt8} (h : encodeLatin1 s = some b) :
    decodeLatin1 b = s := by
  have hchars : ∀ (chars : List Char) (bytes : List UInt8), chars.mapM encodeChar = some bytes →
      bytes.map (fun x => Char.ofNat x.toNat) = chars := by
    intro chars
    induction chars with
    | nil =>
      intro bytes hbytes
      simp at hbytes
      simp [hbytes]
    | cons c chars ih =>
      intro bytes hbytes
      simp only [List.mapM_cons, Option.bind_eq_bind, Option.bind_eq_some_iff, Option.pure_def,
        Option.some.injEq] at hbytes
      obtain ⟨x, hx, rest, hrest, rfl⟩ := hbytes
      simp [encodeChar_decode hx, ih rest hrest]
  simp [decodeLatin1, hchars _ _ h]

/-- A text of low characters can be encoded. -/
theorem encodeLatin1_of_low {s : String} (h : ∀ c ∈ s.toList, c.toNat < 256) :
    encodeLatin1 s = some (s.toList.map fun c => UInt8.ofNat c.toNat) := by
  have hchars : ∀ chars : List Char, (∀ c ∈ chars, c.toNat < 256) →
      chars.mapM encodeChar = some (chars.map fun c => UInt8.ofNat c.toNat) := by
    intro chars hlow
    induction chars with
    | nil => rfl
    | cons c chars ih =>
      have hc : c.toNat < 256 := hlow c (by simp)
      have hrest := ih fun d hd => hlow d (by simp [hd])
      simp [List.mapM_cons, encodeChar, hc, hrest]
  exact hchars _ h

/-! ## Names -/

/-- `s.lower()`, for texts that are ASCII. -/
def lower (s : String) : String := String.ofList (s.toList.map Char.toLower)

/-- A name as it is written in the list. -/
def headerKey (name : String) : Option (List UInt8) := encodeLatin1 (lower name)

/-- `Headers.getlist`, the values decoded; `none` where the name cannot be
encoded. -/
def getlist (name : String) (headers : List RawHeader) : Option (List String) :=
  (headerKey name).map fun key =>
    (headers.filter fun h => h.1 = key).map fun h => decodeLatin1 h.2

/-- The first entry of the name is overwritten, the others are deleted. -/
def setRaw (key value : List UInt8) : List RawHeader → List RawHeader
  | [] => [(key, value)]
  | (k, v) :: rest =>
    if k = key then (key, value) :: rest.filter fun h => h.1 ≠ key
    else (k, v) :: setRaw key value rest

/-- `MutableHeaders.__setitem__`. -/
def setItem (name value : String) (headers : List RawHeader) : Option (List RawHeader) := do
  let key ← headerKey name
  let value ← encodeLatin1 value
  return setRaw key value headers

/-! ## One entry after a write -/

theorem filter_setRaw (key value : List UInt8) (headers : List RawHeader) :
    ((setRaw key value headers).filter fun h => h.1 = key) = [(key, value)] := by
  induction headers with
  | nil => simp [setRaw]
  | cons h rest ih =>
    obtain ⟨k, v⟩ := h
    by_cases hk : k = key
    · simp [setRaw, hk, List.filter_filter]
    · simp [setRaw, hk, ih]

theorem mem_setRaw {key value : List UInt8} {headers : List RawHeader} {h : RawHeader}
    (hmem : h ∈ setRaw key value headers) : h = (key, value) ∨ h ∈ headers := by
  induction headers with
  | nil => exact .inl (by simpa [setRaw] using hmem)
  | cons first rest ih =>
    obtain ⟨k, v⟩ := first
    by_cases hk : k = key
    · simp only [setRaw, hk, if_true, List.mem_cons, List.mem_filter] at hmem
      rcases hmem with rfl | ⟨hrest, -⟩
      · exact .inl rfl
      · exact .inr (List.mem_cons_of_mem _ hrest)
    · simp only [setRaw, hk, if_false, List.mem_cons] at hmem
      rcases hmem with rfl | hrest
      · exact .inr (by simp)
      · rcases ih hrest with heq | hin
        · exact .inl heq
        · exact .inr (List.mem_cons_of_mem _ hin)

/-- **After `headers[name] = value`, looking the name up gives the one
value.** -/
theorem getlist_setItem {name value : String} {headers written : List RawHeader}
    (h : setItem name value headers = some written) : getlist name written = some [value] := by
  simp only [setItem, Option.bind_eq_bind, Option.bind_eq_some_iff, Option.pure_def,
    Option.some.injEq] at h
  obtain ⟨key, hkey, bytes, hbytes, rfl⟩ := h
  simp [getlist, hkey, filter_setRaw, decode_encodeLatin1 hbytes]

/-! ## Names up to case -/

/-- ASCII lower case. -/
def lowerByte (x : UInt8) : UInt8 := if 65 ≤ x.toNat ∧ x.toNat ≤ 90 then x + 32 else x

/-- The name has no capital letter, as ASGI asks of response headers. -/
def IsLower (name : List UInt8) : Prop := name.map lowerByte = name

/-- The entries whose name is `name` in any case. -/
def sameName (name : String) (headers : List RawHeader) : List RawHeader :=
  headers.filter fun h => some (h.1.map lowerByte) = headerKey name

theorem toLower_low {c : Char} (h : c.toNat < 128) :
    c.toLower.toNat < 256 ∧
      lowerByte (UInt8.ofNat c.toLower.toNat) = UInt8.ofNat c.toLower.toNat := by
  have hall : ∀ n : Fin 128, (Char.ofNat n).toLower.toNat < 256 ∧
      lowerByte (UInt8.ofNat (Char.ofNat n).toLower.toNat) =
        UInt8.ofNat (Char.ofNat n).toLower.toNat := by
    decide
  have hc := hall ⟨c.toNat, h⟩
  rwa [Char.ofNat_toNat] at hc

/-- The key of an ASCII name, which is in lower case. -/
theorem headerKey_ascii {name : String} (h : ∀ c ∈ name.toList, c.toNat < 128) :
    ∃ key, headerKey name = some key ∧ IsLower key := by
  have hlow : ∀ c ∈ (lower name).toList, c.toNat < 256 := by
    intro c hc
    simp only [lower, String.toList_ofList, List.mem_map] at hc
    obtain ⟨d, hd, rfl⟩ := hc
    exact (toLower_low (h d hd)).1
  refine ⟨_, encodeLatin1_of_low hlow, ?_⟩
  simp only [IsLower, lower, String.toList_ofList, List.map_map]
  apply List.map_congr_left
  intro c hc
  exact (toLower_low (h c hc)).2

/-- The written name is the only one in any case, where the other names are
in lower case. -/
theorem sameName_setItem {name value : String} {headers written : List RawHeader}
    (hname : ∀ c ∈ name.toList, c.toNat < 128) (hlower : ∀ h ∈ headers, IsLower h.1)
    (h : setItem name value headers = some written) :
    (sameName name written).map (fun h => decodeLatin1 h.2) = [value] := by
  obtain ⟨key, hkey, hkeyLower⟩ := headerKey_ascii hname
  simp only [setItem, hkey, Option.bind_eq_bind, Option.bind_some, Option.bind_eq_some_iff,
    Option.pure_def, Option.some.injEq] at h
  obtain ⟨bytes, hbytes, rfl⟩ := h
  have hsame : sameName name (setRaw key bytes headers) = [(key, bytes)] := by
    rw [sameName, hkey, ← filter_setRaw key bytes headers]
    apply List.filter_congr
    intro entry hentry
    have hentryLower : IsLower entry.1 := by
      rcases mem_setRaw hentry with rfl | hin
      · exact hkeyLower
      · exact hlower entry hin
    rw [hentryLower]
    simp
  rw [hsame]
  simp [decode_encodeLatin1 hbytes]

end Http
