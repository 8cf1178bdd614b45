import IdentityService.Json.Writer

/-!
# Reading JSON text

A reader for the JSON standard, less numbers with a fraction or an
exponent: it reads what the writer writes, so the text determines the
value. `fuel` bounds the recursion; the length of the text is enough.
-/

namespace IdentityService

namespace Json

def isSpace (c : Char) : Bool := c = ' ' || c = '\t' || c = '\n' || c = '\r'

def skipSpace (cs : List Char) : List Char := cs.dropWhile isSpace

/-- The four digits of `\u`. -/
def readHex4 : List Char → Option (Nat × List Char)
  | a :: b :: c :: d :: rest => do
    let a ← Hex.value a
    let b ← Hex.value b
    let c ← Hex.value c
    let d ← Hex.value d
    return (a * 4096 + b * 256 + c * 16 + d, rest)
  | _ => none

/-- What follows `\u`: one code unit, or the two of a surrogate pair. -/
def readUnicode (cs : List Char) : Option (Char × List Char) := do
  let (n, rest) ← readHex4 cs
  if 0xd800 ≤ n ∧ n < 0xdc00 then
    match rest with
    | '\\' :: 'u' :: rest =>
      let (m, rest) ← readHex4 rest
      if 0xdc00 ≤ m ∧ m < 0xe000 then
        return (Char.ofNat (0x10000 + (n - 0xd800) * 0x400 + (m - 0xdc00)), rest)
      else
        none
    | _ => none
  else if 0xdc00 ≤ n ∧ n < 0xe000 then
    none
  else
    return (Char.ofNat n, rest)

/-- What follows a backslash. -/
def readEscape : List Char → Option (Char × List Char)
  | [] => none
  | c :: rest =>
    if c = '\\' then some ('\\', rest)
    else if c = '"' then some ('"', rest)
    else if c = '/' then some ('/', rest)
    else if c = 'b' then some ('\x08', rest)
    else if c = 'f' then some ('\x0c', rest)
    else if c = 'n' then some ('\n', rest)
    else if c = 'r' then some ('\r', rest)
    else if c = 't' then some ('\t', rest)
    else if c = 'u' then readUnicode rest
    else none

/-- One character of a string. -/
def readChar : List Char → Option (Char × List Char)
  | [] => none
  | c :: rest =>
    if c = '\\' then readEscape rest
    else if c.toNat < 0x20 then none
    else some (c, rest)

/-- The rest of a string, up to its closing quote. -/
def readChars : Nat → List Char → Option (List Char × List Char)
  | 0, _ => none
  | _ + 1, [] => none
  | fuel + 1, c :: rest =>
    if c = '"' then
      some ([], rest)
    else do
      let (first, rest) ← readChar (c :: rest)
      let (later, rest) ← readChars fuel rest
      return (first :: later, rest)

/-- No digit, or a single zero, or no leading zero. -/
def natOfDigits (digits : List Char) : Option Nat :=
  match digits with
  | [] => none
  | ['0'] => some 0
  | '0' :: _ => none
  | digits => some (Nat.ofDigitChars 10 digits 0)

/-- An integer: a fraction or an exponent after it is not read. -/
def readInt (cs : List Char) : Option (Int × List Char) :=
  match cs with
  | '-' :: cs => do
    let n ← natOfDigits (cs.takeWhile Char.isDigit)
    return (-(n : Int), cs.dropWhile Char.isDigit)
  | cs => do
    let n ← natOfDigits (cs.takeWhile Char.isDigit)
    return ((n : Int), cs.dropWhile Char.isDigit)

/-- `d[key] = value` on a dictionary. -/
def setField (fields : List (String × Json)) (key : String) (v : Json) : List (String × Json) :=
  if key ∈ fields.map Prod.fst then
    fields.map fun f => if f.1 = key then (key, v) else f
  else
    fields ++ [(key, v)]

/-- The dictionary of the members read one after the other. -/
def ofMembers (members : List (String × Json)) : List (String × Json) :=
  members.foldl (fun fields m => setField fields m.1 m.2) []

mutual

/-- A value, with fuel for its depth and its length. -/
def readValue : Nat → List Char → Option (Json × List Char)
  | 0, _ => none
  | fuel + 1, cs =>
    match skipSpace cs with
    | 'n' :: 'u' :: 'l' :: 'l' :: rest => some (.null, rest)
    | 't' :: 'r' :: 'u' :: 'e' :: rest => some (.bool true, rest)
    | 'f' :: 'a' :: 'l' :: 's' :: 'e' :: rest => some (.bool false, rest)
    | '"' :: rest => (readChars fuel rest).map fun p => (.str (String.ofList p.1), p.2)
    | '[' :: rest =>
      match skipSpace rest with
      | ']' :: rest => some (.arr [], rest)
      | rest => (readItems fuel rest).map fun p => (.arr p.1, p.2)
    | '{' :: rest =>
      match skipSpace rest with
      | '}' :: rest => some (.obj [], rest)
      | rest => (readMembers fuel rest).map fun p => (.obj (ofMembers p.1), p.2)
    | cs => (readInt cs).map fun p => (.int p.1, p.2)

/-- The items of an array, up to its closing bracket. -/
def readItems : Nat → List Char → Option (List Json × List Char)
  | 0, _ => none
  | fuel + 1, cs => do
    let (v, rest) ← readValue fuel cs
    match skipSpace rest with
    | ',' :: rest =>
      let (vs, rest) ← readItems fuel rest
      return (v :: vs, rest)
    | ']' :: rest => return ([v], rest)
    | _ => none

/-- The members of an object, up to its closing brace. -/
def readMembers : Nat → List Char → Option (List (String × Json) × List Char)
  | 0, _ => none
  | fuel + 1, cs =>
    match skipSpace cs with
    | '"' :: rest => do
      let (key, rest) ← readChars fuel rest
      match skipSpace rest with
      | ':' :: rest =>
        let (v, rest) ← readValue fuel rest
        match skipSpace rest with
        | ',' :: rest =>
          let (members, rest) ← readMembers fuel rest
          return ((String.ofList key, v) :: members, rest)
        | '}' :: rest => return ([(String.ofList key, v)], rest)
        | _ => none
      | _ => none
    | _ => none

end

/-- A whole text: one value, with nothing but white space around it. -/
def parse (cs : List Char) : Option Json :=
  match readValue (cs.length + 1) cs with
  | some (v, rest) => if skipSpace rest = [] then some v else none
  | none => none

/-! ## Strings read back -/

theorem readHex4_digits {n : Nat} (h : n < 0x10000) (rest : List Char) :
    readHex4 (Hex.digit (n / 4096 % 16) :: Hex.digit (n / 256 % 16) :: Hex.digit (n / 16 % 16) ::
      Hex.digit (n % 16) :: rest) = some (n, rest) := by
  have hdigit : ∀ m, Hex.value (Hex.digit (m % 16)) = some (m % 16) :=
    fun m => Hex.value_digit (Nat.mod_lt m (by decide))
  have hsum : n / 4096 % 16 * 4096 + n / 256 % 16 * 256 + n / 16 % 16 * 16 + n % 16 = n := by
    omega
  simp only [readHex4, hdigit, Option.bind_eq_bind, Option.bind_some]
  rw [hsum]
  rfl

/-- A code point that is no surrogate. -/
theorem readUnicode_single {n : Nat} (h : n < 0x10000) (hs : n < 0xd800 ∨ 0xe000 ≤ n)
    (rest : List Char) :
    readUnicode (Hex.digit (n / 4096 % 16) :: Hex.digit (n / 256 % 16) ::
      Hex.digit (n / 16 % 16) :: Hex.digit (n % 16) :: rest) = some (Char.ofNat n, rest) := by
  rw [readUnicode, readHex4_digits h]
  simp only [Option.bind_eq_bind, Option.bind_some]
  rw [if_neg (by omega), if_neg (by omega)]
  rfl

theorem readUnicode_pair {a b : Nat} (ha : a < 0x400) (hb : b < 0x400) (rest : List Char) :
    readUnicode ((unicodeEscape (0xd800 + a)).drop 2 ++ (unicodeEscape (0xdc00 + b) ++ rest)) =
      some (Char.ofNat (0x10000 + a * 0x400 + b), rest) := by
  have hfirst : 0xd800 + a < 0x10000 := by omega
  have hsecond : 0xdc00 + b < 0x10000 := by omega
  rw [readUnicode]
  simp only [unicodeEscape, List.drop_succ_cons, List.drop_zero, List.cons_append,
    List.nil_append]
  rw [readHex4_digits hfirst]
  simp only [Option.bind_eq_bind, Option.bind_some]
  rw [if_pos (by omega), readHex4_digits hsecond]
  simp only [Option.bind_some]
  rw [if_pos (by omega), Nat.add_sub_cancel_left, Nat.add_sub_cancel_left]
  rfl

theorem Char.toNat_scalar (c : Char) :
    c.toNat < 0x110000 ∧ (c.toNat < 0xd800 ∨ 0xe000 ≤ c.toNat) := by
  have hvalid := c.valid
  unfold UInt32.isValidChar Nat.isValidChar at hvalid
  show c.val.toNat < _ ∧ (c.val.toNat < _ ∨ _ ≤ c.val.toNat)
  omega

theorem readChar_unicodeEscape {n : Nat} (rest : List Char) :
    readChar (unicodeEscape n ++ rest) = readUnicode ((unicodeEscape n).drop 2 ++ rest) := by
  simp [readChar, readEscape, unicodeEscape]

theorem readChar_asciiEscape (c : Char) (rest : List Char) :
    readChar (asciiEscape c.toNat ++ rest) = some (c, rest) := by
  obtain ⟨hmax, hscalar⟩ := Char.toNat_scalar c
  unfold asciiEscape
  by_cases hplane : c.toNat < 0x10000
  · rw [if_pos hplane, readChar_unicodeEscape]
    simpa [unicodeEscape] using readUnicode_single hplane hscalar rest
  · have hsum : 0x10000 + (c.toNat - 0x10000) / 0x400 * 0x400 + (c.toNat - 0x10000) % 0x400
        = c.toNat := by omega
    rw [if_neg hplane, List.append_assoc, readChar_unicodeEscape,
      readUnicode_pair (by omega) (by omega), hsum, Char.ofNat_toNat]

/-- An escaped character reads back. -/
theorem readChar_escape (ascii : Bool) (c : Char) (rest : List Char) :
    readChar (escape ascii c ++ rest) = some (c, rest) := by
  by_cases hbackslash : c = '\\'
  · subst hbackslash
    rfl
  by_cases hquote : c = '"'
  · subst hquote
    rfl
  by_cases hb : c = '\x08'
  · subst hb
    rfl
  by_cases hf : c = '\x0c'
  · subst hf
    rfl
  by_cases hn : c = '\n'
  · subst hn
    rfl
  by_cases hr : c = '\r'
  · subst hr
    rfl
  by_cases ht : c = '\t'
  · subst ht
    rfl
  simp only [escape, hbackslash, hquote, hb, hf, hn, hr, ht, if_false]
  by_cases hcontrol : c.toNat < 0x20
  · rw [if_pos hcontrol]
    have hsame : asciiEscape c.toNat = unicodeEscape c.toNat := if_pos (by omega)
    rw [← hsame]
    exact readChar_asciiEscape c rest
  · rw [if_neg hcontrol]
    by_cases hascii : ascii = true ∧ 0x7e < c.toNat
    · rw [if_pos hascii]
      exact readChar_asciiEscape c rest
    · rw [if_neg hascii]
      simp [readChar, hbackslash, hcontrol]

theorem asciiEscape_head (n : Nat) : ∃ ds, asciiEscape n = '\\' :: ds := by
  unfold asciiEscape
  by_cases hplane : n < 0x10000
  · rw [if_pos hplane]
    exact ⟨_, rfl⟩
  · rw [if_neg hplane]
    exact ⟨_, rfl⟩

/-- No escaped character looks like the closing quote. -/
theorem escape_head (ascii : Bool) (c : Char) :
    ∃ d ds, escape ascii c = d :: ds ∧ d ≠ '"' := by
  have hback : ∀ ds, ∃ d ds', '\\' :: ds = d :: ds' ∧ d ≠ '"' := fun ds => ⟨_, _, rfl, by decide⟩
  have hite : ∀ {p : Prop} [Decidable p] {a b : List Char}, (∃ d ds, a = d :: ds ∧ d ≠ '"') →
      (¬ p → ∃ d ds, b = d :: ds ∧ d ≠ '"') →
      ∃ d ds, (if p then a else b) = d :: ds ∧ d ≠ '"' := by
    intro p _ a b ha hb
    by_cases hp : p
    · rw [if_pos hp]
      exact ha
    · rw [if_neg hp]
      exact hb hp
  unfold escape
  -- every branch but the last begins with a backslash
  refine hite (hback _) fun _ => hite (hback _) fun hquote => hite (hback _) fun _ =>
    hite (hback _) fun _ => hite (hback _) fun _ => hite (hback _) fun _ => hite (hback _) fun _ =>
    hite (hback _) fun _ => hite ?_ fun _ => ⟨c, [], rfl, hquote⟩
  obtain ⟨ds, hds⟩ := asciiEscape_head c.toNat
  rw [hds]
  exact hback ds

theorem length_le_escape (ascii : Bool) (s : List Char) :
    s.length ≤ (s.flatMap (escape ascii)).length := by
  induction s with
  | nil => simp
  | cons c cs ih =>
      obtain ⟨d, ds, hd, -⟩ := escape_head ascii c
      simp only [List.flatMap_cons, hd, List.length_cons, List.cons_append, List.length_append]
      omega

theorem readChars_escape (ascii : Bool) {fuel : Nat} {s : List Char} (hfuel : s.length < fuel)
    (rest : List Char) :
    readChars fuel (s.flatMap (escape ascii) ++ '"' :: rest) = some (s, rest) := by
  induction s generalizing fuel with
  | nil =>
      obtain ⟨fuel, rfl⟩ : ∃ m, fuel = m + 1 := ⟨fuel - 1, by simp at hfuel; omega⟩
      simp [readChars]
  | cons c s ih =>
      obtain ⟨fuel, rfl⟩ : ∃ m, fuel = m + 1 := ⟨fuel - 1, by simp at hfuel; omega⟩
      have hrest := ih (by simpa using hfuel : s.length < fuel)
      obtain ⟨d, ds, hd, hne⟩ := escape_head ascii c
      have hchar := readChar_escape ascii c (s.flatMap (escape ascii) ++ '"' :: rest)
      rw [List.flatMap_cons, List.append_assoc]
      rw [hd, List.cons_append] at hchar ⊢
      simp [readChars, hne, hchar, hrest]

/-! ## Integers read back -/

/-- The text that follows a number does not go on with a digit. -/
def NoDigit (rest : List Char) : Prop := ∀ c cs, rest = c :: cs → c.isDigit = false

theorem noDigit_cons {c : Char} (h : c.isDigit = false) (cs : List Char) : NoDigit (c :: cs) := by
  intro c' cs' heq
  cases heq
  exact h

theorem isDigit_toDigits {n : Nat} : ∀ c ∈ Nat.toDigits 10 n, c.isDigit = true :=
  fun _ hc => Nat.isDigit_of_mem_toDigits (by decide) (by decide) hc

theorem takeWhile_digits {digits rest : List Char} (hd : ∀ c ∈ digits, c.isDigit = true)
    (hrest : NoDigit rest) : (digits ++ rest).takeWhile Char.isDigit = digits := by
  have hstop : rest.takeWhile Char.isDigit = [] := by
    cases rest with
    | nil => rfl
    | cons c cs => simp [hrest c cs rfl]
  rw [List.takeWhile_append_of_pos hd, hstop, List.append_nil]

theorem dropWhile_digits {digits rest : List Char} (hd : ∀ c ∈ digits, c.isDigit = true)
    (hrest : NoDigit rest) : (digits ++ rest).dropWhile Char.isDigit = rest := by
  rw [List.dropWhile_append_of_pos hd]
  cases rest with
  | nil => rfl
  | cons c cs => simp [hrest c cs rfl]

/-- Only zero is written with a leading zero. -/
theorem toDigits_head {n : Nat} (hn : 0 < n) : (Nat.toDigits 10 n).head? ≠ some '0' := by
  induction n using Nat.strongRecOn with
  | _ n ih =>
      by_cases hsmall : n < 10
      · rw [Nat.toDigits_of_lt_base hsmall]
        have hall : ∀ m : Fin 10, 0 < m.val → [m.val.digitChar].head? ≠ some '0' := by decide
        exact hall ⟨n, hsmall⟩ hn
      · rw [Nat.toDigits_of_base_le (by decide) (by omega)]
        have hrec := ih (n / 10) (by omega) (by omega)
        have hne : Nat.toDigits 10 (n / 10) ≠ [] := Nat.toDigits_ne_nil
        obtain ⟨d, ds, hds⟩ := List.exists_cons_of_ne_nil hne
        rw [hds] at hrec ⊢
        simpa using hrec

theorem natOfDigits_toDigits (n : Nat) : natOfDigits (Nat.toDigits 10 n) = some n := by
  by_cases hn : n = 0
  · subst hn
    rfl
  · have hhead := toDigits_head (Nat.pos_of_ne_zero hn)
    have hvalue : Nat.ofDigitChars 10 (Nat.toDigits 10 n) 0 = n :=
      Nat.ofDigitChars_toDigits (by decide) (by decide)
    unfold natOfDigits
    split
    · rename_i heq
      exact absurd heq Nat.toDigits_ne_nil
    · rename_i heq
      simp [heq] at hhead
    · rename_i heq
      simp [heq] at hhead
    · rw [hvalue]

theorem intText_head (n : Int) :
    ∃ c cs, intText n = c :: cs ∧ (c = '-' ∨ c.isDigit = true) := by
  cases n with
  | ofNat n =>
      obtain ⟨d, ds, hds⟩ := List.exists_cons_of_ne_nil (Nat.toDigits_ne_nil (n := n) (b := 10))
      have hmem : d ∈ Nat.toDigits 10 n := by
        rw [hds]
        exact List.mem_cons_self
      exact ⟨d, ds, hds, .inr (isDigit_toDigits d hmem)⟩
  | negSucc n => exact ⟨'-', _, rfl, .inl rfl⟩

theorem readInt_intText (n : Int) {rest : List Char} (hrest : NoDigit rest) :
    readInt (intText n ++ rest) = some (n, rest) := by
  cases n with
  | ofNat n =>
      obtain ⟨d, ds, hds⟩ := List.exists_cons_of_ne_nil (Nat.toDigits_ne_nil (n := n) (b := 10))
      have hd : d ≠ '-' := by
        rintro rfl
        have hmem : '-' ∈ Nat.toDigits 10 n := by
          rw [hds]
          exact List.mem_cons_self
        have hdigit := isDigit_toDigits '-' hmem
        cases hdigit
      have hread : readInt (Nat.toDigits 10 n ++ rest) =
          (natOfDigits ((Nat.toDigits 10 n ++ rest).takeWhile Char.isDigit)).bind fun m =>
            some ((m : Int), (Nat.toDigits 10 n ++ rest).dropWhile Char.isDigit) := by
        rw [hds]
        unfold readInt
        split
        · rename_i heq
          exact absurd (List.cons.inj heq).1 hd
        · rfl
      show readInt (Nat.toDigits 10 n ++ rest) = _
      rw [hread, takeWhile_digits isDigit_toDigits hrest,
        dropWhile_digits isDigit_toDigits hrest, natOfDigits_toDigits]
      rfl
  | negSucc n =>
      show readInt ('-' :: (Nat.toDigits 10 (n + 1) ++ rest)) = _
      simp only [readInt]
      rw [takeWhile_digits isDigit_toDigits hrest, dropWhile_digits isDigit_toDigits hrest,
        natOfDigits_toDigits]
      rfl

/-! ## Values read back -/

theorem skipSpace_cons {c : Char} (h : isSpace c = false) (cs : List Char) :
    skipSpace (c :: cs) = c :: cs := by
  simp [skipSpace, h]

/-- The first character of a value. -/
def Opens (c : Char) : Prop := isSpace c = false ∧ c ≠ ']' ∧ c ≠ '}'

theorem isDigit_opens {c : Char} (h : c.isDigit = true) : Opens c := by
  refine ⟨?_, ?_, ?_⟩
  · by_contra hspace
    simp only [isSpace, Bool.or_eq_true, decide_eq_true_eq, Bool.not_eq_false] at hspace
    rcases hspace with ((rfl | rfl) | rfl) | rfl <;> cases h
  · rintro rfl
    cases h
  · rintro rfl
    cases h

theorem write_head (ascii : Bool) (v : Json) : ∃ c cs, v.write ascii = c :: cs ∧ Opens c := by
  cases v with
  | null => exact ⟨'n', _, rfl, by decide, by decide, by decide⟩
  | bool b =>
      cases b with
      | true => exact ⟨'t', _, rfl, by decide, by decide, by decide⟩
      | false => exact ⟨'f', _, rfl, by decide, by decide, by decide⟩
  | int n =>
      obtain ⟨c, cs, hcs, hc⟩ := intText_head n
      refine ⟨c, cs, hcs, ?_⟩
      rcases hc with rfl | hc
      · exact ⟨by decide, by decide, by decide⟩
      · exact isDigit_opens hc
  | str s => exact ⟨'"', _, rfl, by decide, by decide, by decide⟩
  | arr items => exact ⟨'[', _, rfl, by decide, by decide, by decide⟩
  | obj fields => exact ⟨'{', _, rfl, by decide, by decide, by decide⟩

/-- Setting distinct keys one after the other collects them. -/
theorem ofMembers_eq {fields : List (String × Json)} (h : (fields.map Prod.fst).Nodup) :
    ofMembers fields = fields := by
  have hfold : ∀ (done todo : List (String × Json)), ((done ++ todo).map Prod.fst).Nodup →
      todo.foldl (fun fields m => setField fields m.1 m.2) done = done ++ todo := by
    intro done todo
    induction todo generalizing done with
    | nil =>
        intro _
        simp
    | cons m todo ih =>
        intro hkeys
        have hnew : m.1 ∉ done.map Prod.fst := by
          intro hm
          rw [List.map_append, List.map_cons] at hkeys
          exact (List.nodup_append.mp hkeys).2.2 m.1 hm m.1 List.mem_cons_self rfl
        rw [List.foldl_cons, setField, if_neg hnew, ih (done ++ [m]) (by simpa using hkeys)]
        simp
  exact hfold [] fields h

/-- What the reader makes of a value's text. -/
def ReadsBack (ascii : Bool) (v : Json) : Prop :=
  ∀ fuel rest, (v.write ascii).length < fuel → NoDigit rest →
    readValue fuel (v.write ascii ++ rest) = some (v, rest)

/-! What follows an opening character that leaves no choice. -/

theorem readValue_quote (fuel : Nat) (rest : List Char) :
    readValue (fuel + 1) ('"' :: rest) =
      (readChars fuel rest).map fun p => (.str (String.ofList p.1), p.2) := rfl

theorem readValue_noItems (fuel : Nat) (rest : List Char) :
    readValue (fuel + 1) ('[' :: ']' :: rest) = some (.arr [], rest) := rfl

theorem readValue_noMembers (fuel : Nat) (rest : List Char) :
    readValue (fuel + 1) ('{' :: '}' :: rest) = some (.obj [], rest) := rfl

theorem readValue_members (fuel : Nat) (rest : List Char) :
    readValue (fuel + 1) ('{' :: '"' :: rest) =
      (readMembers fuel ('"' :: rest)).map fun p => (.obj (ofMembers p.1), p.2) := rfl

theorem readsBack_int (ascii : Bool) (n : Int) : ReadsBack ascii (.int n) := by
  intro fuel rest hfuel hrest
  obtain ⟨fuel, rfl⟩ : ∃ m, fuel = m + 1 := ⟨fuel - 1, by omega⟩
  have hread := readInt_intText n hrest
  obtain ⟨c, cs, hcs, hc⟩ := intText_head n
  show readValue (fuel + 1) (intText n ++ rest) = _
  rw [hcs, List.cons_append] at hread ⊢
  -- neither a sign nor a digit starts any other kind of value
  have hspace : isSpace c = false := by
    rcases hc with rfl | hc
    · rfl
    · exact (isDigit_opens hc).1
  have hother : ∀ d, d ≠ '-' → d.isDigit = false → c ≠ d := by
    rintro d hminus hdigit rfl
    rcases hc with hc | hc
    · exact hminus hc
    · rw [hdigit] at hc
      cases hc
  rw [readValue, skipSpace_cons hspace]
  split
  all_goals rename_i heq
  · exact absurd (List.cons.inj heq).1 (hother _ (by decide) (by decide))
  · exact absurd (List.cons.inj heq).1 (hother _ (by decide) (by decide))
  · exact absurd (List.cons.inj heq).1 (hother _ (by decide) (by decide))
  · exact absurd (List.cons.inj heq).1 (hother _ (by decide) (by decide))
  · exact absurd (List.cons.inj heq).1 (hother _ (by decide) (by decide))
  · exact absurd (List.cons.inj heq).1 (hother _ (by decide) (by decide))
  · rw [hread]
    rfl

theorem readsBack_str (ascii : Bool) (s : String) : ReadsBack ascii (.str s) := by
  intro fuel rest hfuel hrest
  obtain ⟨fuel, rfl⟩ : ∃ m, fuel = m + 1 := ⟨fuel - 1, by omega⟩
  have hlen := length_le_escape ascii s.toList
  have hfuel : s.toList.length < fuel := by
    simp only [write, quote, List.length_cons, List.length_append] at hfuel
    omega
  have hchars := readChars_escape ascii hfuel rest
  simp only [write, quote, List.cons_append, List.append_assoc, List.nil_append, readValue_quote,
    hchars, Option.map_some, String.ofList_toList]

theorem commaSep_cons (part next : List Char) (parts : List (List Char)) :
    commaSep (part :: next :: parts) = part ++ ',' :: commaSep (next :: parts) := rfl

theorem readItems_write (ascii : Bool) {first : Json} {items : List Json}
    (hback : ∀ v ∈ first :: items, ReadsBack ascii v) (fuel : Nat) (rest : List Char)
    (hfuel : (commaSep ((first :: items).map (write ascii))).length + 1 < fuel) :
    readItems fuel (commaSep ((first :: items).map (write ascii)) ++ ']' :: rest) =
      some (first :: items, rest) := by
  obtain ⟨fuel, rfl⟩ : ∃ m, fuel = m + 1 := ⟨fuel - 1, by omega⟩
  have hfirst := hback first List.mem_cons_self
  induction items generalizing first fuel with
  | nil =>
      have hvalue := hfirst fuel (']' :: rest) (by simp [commaSep] at hfuel; omega)
        (noDigit_cons (by decide) rest)
      simp only [List.map_cons, List.map_nil, commaSep, readItems, hvalue, Option.bind_eq_bind,
        Option.bind_some, skipSpace_cons (show isSpace ']' = false by decide)]
      rfl
  | cons second items ih =>
      rw [List.map_cons, List.map_cons, commaSep_cons, List.length_append,
        List.length_cons] at hfuel
      have hlater : readItems fuel (commaSep ((second :: items).map (write ascii)) ++ ']' :: rest)
          = some (second :: items, rest) := by
        obtain ⟨fuel, rfl⟩ : ∃ m, fuel = m + 1 := ⟨fuel - 1, by omega⟩
        have hall : ∀ v ∈ second :: items, ReadsBack ascii v :=
          fun v hv => hback v (List.mem_cons_of_mem _ hv)
        exact ih hall fuel (by rw [List.map_cons]; omega) (hall second List.mem_cons_self)
      have hvalue := hfirst fuel
        (',' :: (commaSep ((second :: items).map (write ascii)) ++ ']' :: rest)) (by omega)
        (noDigit_cons (by decide) _)
      rw [List.map_cons, List.map_cons, commaSep_cons, List.append_assoc, List.cons_append,
        ← List.map_cons]
      simp only [readItems, hvalue, Option.bind_eq_bind, Option.bind_some, hlater,
        skipSpace_cons (show isSpace ',' = false by decide)]
      rfl

theorem readsBack_arr (ascii : Bool) {items : List Json}
    (hback : ∀ v ∈ items, ReadsBack ascii v) : ReadsBack ascii (.arr items) := by
  intro fuel rest hfuel hrest
  obtain ⟨fuel, rfl⟩ : ∃ m, fuel = m + 1 := ⟨fuel - 1, by omega⟩
  simp only [write, writeItems_eq, List.cons_append, List.length_cons, List.length_append,
    List.append_assoc, List.nil_append, List.length_nil] at hfuel ⊢
  cases items with
  | nil => exact readValue_noItems fuel rest
  | cons first items =>
      have hitems := readItems_write ascii hback fuel rest (by omega)
      -- the first item does not look like the end of the array
      obtain ⟨c, cs, hcs, hspace, hne, -⟩ := write_head ascii first
      obtain ⟨more, hmore⟩ : ∃ more,
          commaSep ((first :: items).map (write ascii)) ++ ']' :: rest = c :: more := by
        cases items with
        | nil => exact ⟨_, by rw [List.map_cons, List.map_nil, commaSep, hcs]; rfl⟩
        | cons second items =>
            exact ⟨_, by rw [List.map_cons, List.map_cons, commaSep_cons, hcs]; rfl⟩
      rw [hmore] at hitems ⊢
      simp only [readValue, skipSpace_cons (show isSpace '[' = false by decide),
        skipSpace_cons hspace]
      split
      · rename_i heq
        exact absurd (List.cons.inj heq).1 hne
      · rw [hitems]
        rfl

/-- The text of a field. -/
def member (ascii : Bool) (f : String × Json) : List Char :=
  quote ascii f.1 ++ ':' :: f.2.write ascii

theorem readMembers_write (ascii : Bool) {first : String × Json} {fields : List (String × Json)}
    (hback : ∀ f ∈ first :: fields, ReadsBack ascii f.2) (fuel : Nat) (rest : List Char)
    (hfuel : (commaSep ((first :: fields).map (member ascii))).length + 1 < fuel) :
    readMembers fuel (commaSep ((first :: fields).map (member ascii)) ++ '}' :: rest) =
      some (first :: fields, rest) := by
  obtain ⟨fuel, rfl⟩ : ∃ m, fuel = m + 1 := ⟨fuel - 1, by omega⟩
  -- the key and the value of one field, whatever comes after it
  have hone : ∀ (f : String × Json) fuel more, ReadsBack ascii f.2 →
      (member ascii f).length < fuel + 1 → NoDigit more →
      ∃ cs, member ascii f ++ more = '"' :: cs ∧
        readChars fuel cs = some (f.1.toList, ':' :: (f.2.write ascii ++ more)) ∧
        readValue fuel (f.2.write ascii ++ more) = some (f.2, more) := by
    intro f fuel more hf hlen hmore
    have hkey := length_le_escape ascii f.1.toList
    simp only [member, quote, List.cons_append, List.length_cons, List.length_append,
      List.length_nil] at hlen
    refine ⟨f.1.toList.flatMap (escape ascii) ++ '"' :: ':' :: (f.2.write ascii ++ more),
      ?_, ?_, ?_⟩
    · simp [member, quote]
    · exact readChars_escape ascii (by omega) _
    · exact hf fuel more (by omega) hmore
  have hfirst := hback first List.mem_cons_self
  induction fields generalizing first fuel with
  | nil =>
      obtain ⟨cs, hcs, hkey, hvalue⟩ := hone first fuel ('}' :: rest) hfirst
        (by simp [commaSep] at hfuel; omega) (noDigit_cons (by decide) rest)
      simp only [List.map_cons, List.map_nil, commaSep, hcs, readMembers, hkey, hvalue,
        Option.bind_eq_bind, Option.bind_some, skipSpace_cons (show isSpace '"' = false by decide),
        skipSpace_cons (show isSpace ':' = false by decide),
        skipSpace_cons (show isSpace '}' = false by decide), String.ofList_toList]
      rfl
  | cons second fields ih =>
      rw [List.map_cons, List.map_cons, commaSep_cons, List.length_append,
        List.length_cons] at hfuel
      have hlater : readMembers fuel
          (commaSep ((second :: fields).map (member ascii)) ++ '}' :: rest)
          = some (second :: fields, rest) := by
        obtain ⟨fuel, rfl⟩ : ∃ m, fuel = m + 1 := ⟨fuel - 1, by omega⟩
        have hall : ∀ f ∈ second :: fields, ReadsBack ascii f.2 :=
          fun f hf => hback f (List.mem_cons_of_mem _ hf)
        exact ih hall fuel (by rw [List.map_cons]; omega) (hall second List.mem_cons_self)
      obtain ⟨cs, hcs, hkey, hvalue⟩ := hone first fuel
        (',' :: (commaSep ((second :: fields).map (member ascii)) ++ '}' :: rest)) hfirst
        (by omega) (noDigit_cons (by decide) _)
      rw [List.map_cons, List.map_cons, commaSep_cons, List.append_assoc, List.cons_append,
        ← List.map_cons, hcs]
      simp only [readMembers, hkey, hvalue, hlater, Option.bind_eq_bind, Option.bind_some,
        skipSpace_cons (show isSpace '"' = false by decide),
        skipSpace_cons (show isSpace ':' = false by decide),
        skipSpace_cons (show isSpace ',' = false by decide), String.ofList_toList]
      rfl

theorem readsBack_obj (ascii : Bool) {fields : List (String × Json)}
    (hkeys : (fields.map Prod.fst).Nodup) (hback : ∀ f ∈ fields, ReadsBack ascii f.2) :
    ReadsBack ascii (.obj fields) := by
  intro fuel rest hfuel hrest
  obtain ⟨fuel, rfl⟩ : ∃ m, fuel = m + 1 := ⟨fuel - 1, by omega⟩
  have htext : writeFields ascii fields = fields.map (member ascii) := writeFields_eq ascii fields
  simp only [write, htext, List.cons_append, List.length_cons, List.length_append,
    List.append_assoc, List.nil_append, List.length_nil] at hfuel ⊢
  cases fields with
  | nil => exact readValue_noMembers fuel rest
  | cons first fields =>
      have hmembers := readMembers_write ascii hback fuel rest (by omega)
      -- the first key does not look like the end of the object
      obtain ⟨more, hmore⟩ : ∃ more,
          commaSep ((first :: fields).map (member ascii)) ++ '}' :: rest = '"' :: more := by
        cases fields with
        | nil => exact ⟨_, rfl⟩
        | cons second fields => exact ⟨_, rfl⟩
      rw [hmore] at hmembers ⊢
      rw [readValue_members, hmembers, Option.map_some, ofMembers_eq hkeys]

theorem readsBack (ascii : Bool) {v : Json} (h : v.Proper) : ReadsBack ascii v := by
  induction h with
  | null =>
      intro fuel rest hfuel _
      obtain ⟨fuel, rfl⟩ : ∃ m, fuel = m + 1 := ⟨fuel - 1, by omega⟩
      rfl
  | bool b =>
      intro fuel rest hfuel _
      obtain ⟨fuel, rfl⟩ : ∃ m, fuel = m + 1 := ⟨fuel - 1, by omega⟩
      cases b with
      | true => rfl
      | false => rfl
  | int n => exact readsBack_int ascii n
  | str s => exact readsBack_str ascii s
  | arr _ ih => exact readsBack_arr ascii ih
  | obj keys _ ih => exact readsBack_obj ascii keys ih

/-- The text of a value reads back as that value. -/
theorem parse_write (ascii : Bool) {v : Json} (h : v.Proper) : parse (v.write ascii) = some v := by
  have hend : NoDigit [] := by
    intro c cs hc
    cases hc
  have hread := readsBack ascii h ((v.write ascii).length + 1) [] (by omega) hend
  rw [List.append_nil] at hread
  rw [parse, hread]
  rfl

/-- What `json.dumps` writes reads back up to the order of the fields. -/
theorem parse_dumps (ascii : Bool) {v : Json} (h : v.Proper) :
    parse (v.dumps ascii) = some v.sortKeys :=
  parse_write ascii h.sortKeys

theorem write_inj {ascii : Bool} {v w : Json} (hv : v.Proper) (hw : w.Proper)
    (h : v.write ascii = w.write ascii) : v = w := by
  have hparse := congrArg parse h
  rw [parse_write ascii hv, parse_write ascii hw] at hparse
  exact Option.some.inj hparse

end Json

/-- The bytes of a text. -/
def utf8 (s : String) : List UInt8 := s.toUTF8.data.toList

theorem utf8_inj {s t : String} (h : utf8 s = utf8 t) : s = t := by
  have hdata : s.toUTF8.data = t.toUTF8.data := Array.toList_inj.mp h
  exact String.toByteArray_inj.mp (ByteArray.ext hdata)

/-- A library that reads JSON, `validate_json` for one: it follows the
standard wherever this says what a text means. -/
structure JsonReader where
  read : List UInt8 → Option Json
  standard : ∀ text v, Json.parse text = some v → read (utf8 (String.ofList text)) = some v

theorem JsonReader.read_dumps (reader : JsonReader) (ascii : Bool) {v : Json} (h : v.Proper) :
    reader.read (utf8 (String.ofList (v.dumps ascii))) = some v.sortKeys :=
  reader.standard _ _ (Json.parse_dumps ascii h)

/-- Nothing but the standard. -/
def JsonReader.strict : JsonReader where
  read bytes := (String.fromUTF8? ⟨bytes.toArray⟩).bind fun s => Json.parse s.toList
  standard text v h := by
    have hbytes : (⟨(utf8 (String.ofList text)).toArray⟩ : ByteArray) =
        (String.ofList text).toUTF8 := by simp [utf8]
    have hvalid : (String.ofList text).toUTF8.IsValidUTF8 := (String.ofList text).isValidUTF8
    have hread : String.fromUTF8? (String.ofList text).toUTF8 = some (String.ofList text) := by
      rw [String.fromUTF8?, dif_pos hvalid]
      rfl
    rw [hbytes, hread, Option.bind_some, String.toList_ofList, h]

end IdentityService
