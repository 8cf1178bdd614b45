import IdentityService.Json.Value
import IdentityService.Text.Hex

/-!
# Compact JSON text

`json.dumps(value, separators=(",", ":"), sort_keys=True)`, with
`ensure_ascii` as the flag `ascii`. Text is a list of characters here.
-/

namespace IdentityService

namespace Json

/-- `'\\u{0:04x}'`. -/
def unicodeEscape (n : Nat) : List Char :=
  ['\\', 'u', Hex.digit (n / 4096 % 16), Hex.digit (n / 256 % 16), Hex.digit (n / 16 % 16),
    Hex.digit (n % 16)]

/-- A character beyond the first plane is escaped as a surrogate pair. -/
def asciiEscape (n : Nat) : List Char :=
  if n < 0x10000 then
    unicodeEscape n
  else
    unicodeEscape (0xd800 + (n - 0x10000) / 0x400) ++
      unicodeEscape (0xdc00 + (n - 0x10000) % 0x400)

/-- A character inside a string, as `json.dumps` writes it. -/
def escape (ascii : Bool) (c : Char) : List Char :=
  if c = '\\' then ['\\', '\\']
  else if c = '"' then ['\\', '"']
  else if c = '\x08' then ['\\', 'b']
  else if c = '\x0c' then ['\\', 'f']
  else if c = '\n' then ['\\', 'n']
  else if c = '\r' then ['\\', 'r']
  else if c = '\t' then ['\\', 't']
  else if c.toNat < 0x20 then unicodeEscape c.toNat
  else if ascii ∧ 0x7e < c.toNat then asciiEscape c.toNat
  else [c]

/-- `py_encode_basestring`, or `py_encode_basestring_ascii`. -/
def quote (ascii : Bool) (s : String) : List Char :=
  '"' :: s.toList.flatMap (escape ascii) ++ ['"']

/-- `int.__repr__`. -/
def intText : Int → List Char
  | .ofNat n => Nat.toDigits 10 n
  | .negSucc n => '-' :: Nat.toDigits 10 (n + 1)

/-- `",".join(parts)`. -/
def commaSep : List (List Char) → List Char
  | [] => []
  | [part] => part
  | part :: parts => part ++ ',' :: commaSep parts

mutual

/-- The text of a value, with its fields as they stand. -/
def write (ascii : Bool) : Json → List Char
  | .null => ['n', 'u', 'l', 'l']
  | .bool true => ['t', 'r', 'u', 'e']
  | .bool false => ['f', 'a', 'l', 's', 'e']
  | .int n => intText n
  | .str s => quote ascii s
  | .arr items => '[' :: commaSep (writeItems ascii items) ++ [']']
  | .obj fields => '{' :: commaSep (writeFields ascii fields) ++ ['}']

def writeItems (ascii : Bool) : List Json → List (List Char)
  | [] => []
  | v :: vs => v.write ascii :: writeItems ascii vs

def writeFields (ascii : Bool) : List (String × Json) → List (List Char)
  | [] => []
  | (k, v) :: fs => (quote ascii k ++ ':' :: v.write ascii) :: writeFields ascii fs

end

/-- `json.dumps`. -/
def dumps (ascii : Bool) (v : Json) : List Char := v.sortKeys.write ascii

theorem writeItems_eq (ascii : Bool) (items : List Json) :
    writeItems ascii items = items.map (write ascii) := by
  induction items with
  | nil => rfl
  | cons v vs ih => rw [writeItems, ih, List.map_cons]

theorem writeFields_eq (ascii : Bool) (fields : List (String × Json)) :
    writeFields ascii fields = fields.map fun f => quote ascii f.1 ++ ':' :: f.2.write ascii := by
  induction fields with
  | nil => rfl
  | cons f fs ih => rw [writeFields, ih, List.map_cons]

example : dumps false (.obj [("b", .arr [.int (-12), .null]), ("a", .str "q\"\n")]) =
    ['{', '"', 'a', '"', ':', '"', 'q', '\\', '"', '\\', 'n', '"', ',', '"', 'b', '"', ':', '[',
      '-', '1', '2', ',', 'n', 'u', 'l', 'l', ']', '}'] := by decide +kernel

end Json

end IdentityService
