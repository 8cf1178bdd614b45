import Mathlib.Data.List.Basic

/-!
# Hexadecimal text

`bytes.hex()` writes two lower-case digits for each byte; `bytes.fromhex`
reads digits of either case and skips white space between the bytes.
-/

namespace Hex

/-- The digit of a number below sixteen. -/
def digit (n : Nat) : Char := "0123456789abcdef".toList.getD n '0'

def value (c : Char) : Option Nat :=
  if '0' ≤ c ∧ c ≤ '9' then some (c.toNat - '0'.toNat)
  else if 'a' ≤ c ∧ c ≤ 'f' then some (c.toNat - 'a'.toNat + 10)
  else if 'A' ≤ c ∧ c ≤ 'F' then some (c.toNat - 'A'.toNat + 10)
  else none

theorem value_digit {n : Nat} (h : n < 16) : value (digit n) = some n := by
  have hall : ∀ m : Fin 16, value (digit m) = some m.val := by decide
  exact hall ⟨n, h⟩

/-- White space to `bytes.fromhex`. -/
def isSpace (c : Char) : Bool :=
  c = ' ' || c = '\t' || c = '\n' || c = '\r' || c = '\x0b' || c = '\x0c'

theorem isSpace_digit {n : Nat} (h : n < 16) : isSpace (digit n) = false := by
  have hall : ∀ m : Fin 16, isSpace (digit m) = false := by decide
  exact hall ⟨n, h⟩

/-- `bytes.hex()`. -/
def encode (bytes : List UInt8) : List Char :=
  bytes.flatMap fun b => [digit (b.toNat / 16), digit (b.toNat % 16)]

/-- `bytes.fromhex`. -/
def decode : List Char → Option (List UInt8)
  | [] => some []
  | [c] => if isSpace c then some [] else none
  | c :: d :: rest =>
    if isSpace c then
      decode (d :: rest)
    else do
      let high ← value c
      let low ← value d
      let bytes ← decode rest
      return UInt8.ofNat (high * 16 + low) :: bytes

theorem decode_encode (bytes : List UInt8) : decode (encode bytes) = some bytes := by
  induction bytes with
  | nil => rfl
  | cons b bytes ih =>
      have hb : b.toNat < 256 := b.toNat_lt
      have hhigh : b.toNat / 16 < 16 := by omega
      have hlow : b.toNat % 16 < 16 := by omega
      have hbyte : UInt8.ofNat (b.toNat / 16 * 16 + b.toNat % 16) = b := by
        rw [Nat.div_add_mod']
        simp
      have hunfold : encode (b :: bytes)
          = digit (b.toNat / 16) :: digit (b.toNat % 16) :: encode bytes := rfl
      rw [hunfold, decode]
      simp only [isSpace_digit hhigh, value_digit hhigh, value_digit hlow, ih, hbyte,
        Bool.false_eq_true, if_false, Option.bind_eq_bind, Option.bind_some]
      rfl

theorem encode_inj {xs ys : List UInt8} (h : encode xs = encode ys) : xs = ys := by
  have hdecode := congrArg decode h
  rw [decode_encode, decode_encode] at hdecode
  exact Option.some.inj hdecode

end Hex
