import Mathlib.Data.List.Basic

/-!
# Base64 text

`base64.b64encode`, and `base64.b64decode(.., validate=True)`.
-/

namespace Base64

def alphabet : List Char :=
  "ABCDEFGHIJKLMNOPQRSTUVWXYZabcdefghijklmnopqrstuvwxyz0123456789+/".toList

/-- The digit of a number below sixty-four. -/
def digit (n : Nat) : Char := alphabet.getD n 'A'

def value (c : Char) : Option Nat := alphabet.idxOf? c

theorem value_digit {n : Nat} (h : n < 64) : value (digit n) = some n := by
  have hall : ∀ m : Fin 64, value (digit m) = some m.val := by decide +kernel
  exact hall ⟨n, h⟩

theorem digit_ne_pad {n : Nat} (h : n < 64) : digit n ≠ '=' := by
  have hall : ∀ m : Fin 64, digit m ≠ '=' := by decide +kernel
  exact hall ⟨n, h⟩

/-- `base64.b64encode`. -/
def encode : List UInt8 → List Char
  | [] => []
  | [a] => [digit (a.toNat / 4), digit (a.toNat % 4 * 16), '=', '=']
  | [a, b] =>
    [digit (a.toNat / 4), digit (a.toNat % 4 * 16 + b.toNat / 16), digit (b.toNat % 16 * 4), '=']
  | a :: b :: c :: rest =>
    digit (a.toNat / 4) :: digit (a.toNat % 4 * 16 + b.toNat / 16) ::
      digit (b.toNat % 16 * 4 + c.toNat / 64) :: digit (c.toNat % 64) :: encode rest

/-- Four characters at a time; padding only at the very end. -/
def decode : List Char → Option (List UInt8)
  | [] => some []
  | a :: b :: c :: d :: rest => do
    let a ← value a
    let b ← value b
    if c = '=' then
      if d = '=' ∧ rest = [] then some [UInt8.ofNat (a * 4 + b / 16)] else none
    else
      let c ← value c
      if d = '=' then
        if rest = [] then
          some [UInt8.ofNat (a * 4 + b / 16), UInt8.ofNat (b % 16 * 16 + c / 4)]
        else
          none
      else
        let d ← value d
        let bytes ← decode rest
        return UInt8.ofNat (a * 4 + b / 16) :: UInt8.ofNat (b % 16 * 16 + c / 4) ::
          UInt8.ofNat (c % 4 * 64 + d) :: bytes
  | _ => none

theorem ofNat_eq {b : UInt8} {n : Nat} (h : n = b.toNat) : UInt8.ofNat n = b := by
  rw [h]
  simp

theorem decode_encode (bytes : List UInt8) : decode (encode bytes) = some bytes := by
  induction bytes using encode.induct with
  | case1 => rfl
  | case2 a =>
      have ha := a.toNat_lt
      have h₁ : a.toNat / 4 < 64 := by omega
      have h₂ : a.toNat % 4 * 16 < 64 := by omega
      simp only [encode, decode, value_digit h₁, value_digit h₂, Option.bind_eq_bind,
        Option.bind_some, and_self, if_true, Option.some.injEq, List.cons.injEq, and_true]
      exact ofNat_eq (by omega)
  | case3 a b =>
      have ha := a.toNat_lt
      have hb := b.toNat_lt
      have h₁ : a.toNat / 4 < 64 := by omega
      have h₂ : a.toNat % 4 * 16 + b.toNat / 16 < 64 := by omega
      have h₃ : b.toNat % 16 * 4 < 64 := by omega
      simp only [encode, decode, value_digit h₁, value_digit h₂, value_digit h₃, digit_ne_pad h₃,
        Option.bind_eq_bind, Option.bind_some, if_true, if_false, Option.some.injEq,
        List.cons.injEq, and_true]
      exact ⟨ofNat_eq (by omega), ofNat_eq (by omega)⟩
  | case4 a b c rest ih =>
      have ha := a.toNat_lt
      have hb := b.toNat_lt
      have hc := c.toNat_lt
      have h₁ : a.toNat / 4 < 64 := by omega
      have h₂ : a.toNat % 4 * 16 + b.toNat / 16 < 64 := by omega
      have h₃ : b.toNat % 16 * 4 + c.toNat / 64 < 64 := by omega
      have h₄ : c.toNat % 64 < 64 := by omega
      have hone : UInt8.ofNat (a.toNat / 4 * 4 + (a.toNat % 4 * 16 + b.toNat / 16) / 16) = a :=
        ofNat_eq (by omega)
      have htwo : UInt8.ofNat ((a.toNat % 4 * 16 + b.toNat / 16) % 16 * 16 +
          (b.toNat % 16 * 4 + c.toNat / 64) / 4) = b := ofNat_eq (by omega)
      have hthree : UInt8.ofNat ((b.toNat % 16 * 4 + c.toNat / 64) % 4 * 64 + c.toNat % 64) = c :=
        ofNat_eq (by omega)
      simp only [encode, decode, value_digit h₁, value_digit h₂, value_digit h₃, value_digit h₄,
        digit_ne_pad h₃, digit_ne_pad h₄, ih, hone, htwo, hthree, Option.bind_eq_bind,
        Option.bind_some, if_false]
      rfl

end Base64
