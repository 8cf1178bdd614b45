import Mathlib.Algebra.Order.Field.Power
import Mathlib.Algebra.Order.Floor.Ring
import Mathlib.Data.Rat.Floor
import Mathlib.Tactic.FieldSimp
import Mathlib.Tactic.Linarith
import Mathlib.Tactic.Positivity
import Mathlib.Tactic.Ring

/-!
# Decimal numbers

Finite numbers of Python's `decimal` module: `normalize` under a context
that rounds half to even, and `format(.., "f")`. What `normalize` returns is
the number rounded to the context (`Finite.rounded`), and its text
determines that number and its sign.
-/

namespace PyDecimal

/-- The context that decimals are rounded in. -/
structure Context where
  prec : Nat
  emin : Int
  emax : Int
  precPos : 0 < prec

/-- `decimal.DefaultContext`. -/
def defaultContext : Context := ⟨28, -999999, 999999, by decide⟩

namespace Context

variable (ctx : Context)

/-- `Etiny()`: the exponent of the smallest subnormal number. -/
def etiny : Int := ctx.emin - ctx.prec + 1

/-- `Etop()`: the largest exponent of a number of full precision. -/
def etop : Int := ctx.emax - ctx.prec + 1

end Context

/-- A finite number, by its sign, its coefficient and its exponent. -/
structure Finite where
  negative : Bool
  coefficient : Nat
  exponent : Int
deriving DecidableEq

/-- The text of a coefficient. -/
def digits (c : Nat) : List Char := Nat.toDigits 10 c

/-- How many digits a coefficient has. -/
def numDigits (c : Nat) : Nat := (digits c).length

/-- The coefficient without its last `k` digits, rounded. -/
def roundHalfEven (c k : Nat) : Nat :=
  if 2 * (c % 10 ^ k) < 10 ^ k then c / 10 ^ k
  else if 10 ^ k < 2 * (c % 10 ^ k) then c / 10 ^ k + 1
  else if c / 10 ^ k % 2 = 0 then c / 10 ^ k
  else c / 10 ^ k + 1

/-- A coefficient that rounding made one digit too long loses it again. -/
def carry (prec c : Nat) (e : Int) : Nat × Int :=
  if prec < numDigits c then (c / 10, e + 1) else (c, e)

/-- Trailing zeros move into the exponent, as far as it may grow. -/
def strip (emax : Int) : Nat → Nat → Int → Nat × Int
  | 0, c, e => (c, e)
  | fuel + 1, c, e => if c % 10 = 0 ∧ e < emax then strip emax fuel (c / 10) (e + 1) else (c, e)

namespace Finite

variable (ctx : Context) (d : Finite)

/-- The least exponent that the precision leaves to the number. -/
def expMin : Int := numDigits d.coefficient + d.exponent - ctx.prec

/-- `_fix`: the number rounded to the context, or `Overflow`. -/
def fix : Option Finite :=
  if d.coefficient = 0 then
    some { d with exponent := min (max d.exponent ctx.etiny) ctx.emax }
  else if ctx.etop < d.expMin ctx then
    none
  else
    let expMin := max (d.expMin ctx) ctx.etiny
    if d.exponent < expMin then
      let rounded := carry ctx.prec
        (roundHalfEven d.coefficient (expMin - d.exponent).toNat) expMin
      if ctx.etop < rounded.2 then none else some ⟨d.negative, rounded.1, rounded.2⟩
    else
      some d

/-- `normalize()`. -/
def normalize : Option Finite :=
  match d.fix ctx with
  | none => none
  | some f =>
    if f.coefficient = 0 then
      some ⟨f.negative, 0, 0⟩
    else
      let stripped := strip ctx.emax (numDigits f.coefficient) f.coefficient f.exponent
      some ⟨f.negative, stripped.1, stripped.2⟩

end Finite

/-- The digits before and after the decimal point. -/
def parts (c : Nat) (e : Int) : List Char × List Char :=
  let text := digits c
  let dot := text.length + e
  if dot < 0 then
    (['0'], List.replicate (-dot).toNat '0' ++ text)
  else if text.length < dot then
    (text ++ List.replicate (dot - text.length).toNat '0', [])
  else
    (if text.take dot.toNat = [] then ['0'] else text.take dot.toNat, text.drop dot.toNat)

/-- Digits before and after the point. -/
def positional (whole fraction : List Char) : List Char :=
  whole ++ if fraction = [] then [] else '.' :: fraction

/-- `format(d, "f")`. A zero with a positive exponent is written as `0`. -/
def Finite.formatF (d : Finite) : List Char :=
  let e := if d.coefficient = 0 ∧ 0 < d.exponent then 0 else d.exponent
  let body := positional (parts d.coefficient e).1 (parts d.coefficient e).2
  if d.negative then '-' :: body else body

/-! ## Numbers -/

/-- The nearest integer, the even one of two. -/
def halfEven (q : ℚ) : ℤ :=
  if q - ⌊q⌋ < 1 / 2 then ⌊q⌋
  else if 1 / 2 < q - ⌊q⌋ then ⌊q⌋ + 1
  else if ⌊q⌋ % 2 = 0 then ⌊q⌋
  else ⌊q⌋ + 1

namespace Finite

variable (ctx : Context) (d : Finite)

def magnitude : ℚ := d.coefficient * 10 ^ d.exponent

def value : ℚ := if d.negative then -d.magnitude else d.magnitude

/-- Less than zero. -/
def isNegative : Bool := d.negative && d.coefficient ≠ 0

/-- The exponent of the last place that the context keeps. -/
def grid : Int := max (d.expMin ctx) ctx.etiny

/-- The magnitude rounded to the last place that the context keeps. -/
def rounded : ℚ := halfEven (d.magnitude / 10 ^ d.grid ctx) * 10 ^ d.grid ctx

/-- No more digits than the context keeps. -/
def Fits : Prop :=
  ∃ (m : Nat) (g : Int), m < 10 ^ ctx.prec ∧ ctx.etiny ≤ g ∧ d.magnitude = m * 10 ^ g

end Finite

theorem halfEven_intCast (n : ℤ) : halfEven n = n := by
  simp [halfEven]

theorem halfEven_div (c k : Nat) : halfEven ((c : ℚ) / 10 ^ k) = roundHalfEven c k := by
  have hpow : (0 : ℚ) < 10 ^ k := by positivity
  have hfloor : ⌊(c : ℚ) / 10 ^ k⌋ = (c / 10 ^ k : Nat) := by
    have h := Rat.floor_natCast_div_natCast c (10 ^ k)
    push_cast at h ⊢
    exact_mod_cast h
  -- the remainder, as a fraction
  have hfrac : (c : ℚ) / 10 ^ k - ⌊(c : ℚ) / 10 ^ k⌋ = (c % 10 ^ k : Nat) / 10 ^ k := by
    have hsplit : (c : ℚ) = 10 ^ k * (c / 10 ^ k : Nat) + (c % 10 ^ k : Nat) := by
      exact_mod_cast (Nat.div_add_mod c (10 ^ k)).symm
    rw [hfloor, Int.cast_natCast, eq_div_iff hpow.ne', sub_mul, div_mul_cancel₀ _ hpow.ne']
    linarith
  have hless : (c % 10 ^ k : Nat) / 10 ^ k < (1 : ℚ) / 2 ↔ 2 * (c % 10 ^ k) < 10 ^ k := by
    rw [div_lt_div_iff₀ hpow two_pos]
    constructor
    · intro h
      have h : ((2 * (c % 10 ^ k) : Nat) : ℚ) < ((10 ^ k : Nat) : ℚ) := by push_cast; linarith
      exact_mod_cast h
    · intro h
      have h : ((2 * (c % 10 ^ k) : Nat) : ℚ) < ((10 ^ k : Nat) : ℚ) := by exact_mod_cast h
      push_cast at h
      linarith
  have hmore : (1 : ℚ) / 2 < (c % 10 ^ k : Nat) / 10 ^ k ↔ 10 ^ k < 2 * (c % 10 ^ k) := by
    rw [div_lt_div_iff₀ two_pos hpow]
    constructor
    · intro h
      have h : ((10 ^ k : Nat) : ℚ) < ((2 * (c % 10 ^ k) : Nat) : ℚ) := by push_cast; linarith
      exact_mod_cast h
    · intro h
      have h : ((10 ^ k : Nat) : ℚ) < ((2 * (c % 10 ^ k) : Nat) : ℚ) := by exact_mod_cast h
      push_cast at h
      linarith
  have heven : ((c / 10 ^ k : Nat) : ℤ) % 2 = 0 ↔ c / 10 ^ k % 2 = 0 := by omega
  unfold halfEven roundHalfEven
  rw [hfrac, hfloor]
  simp only [hless, hmore, heven]
  split_ifs <;> push_cast <;> rfl

/-! ## Digits -/

theorem numDigits_pos (c : Nat) : 0 < numDigits c := Nat.length_toDigits_pos

theorem numDigits_le_iff {c k : Nat} (hk : 0 < k) : numDigits c ≤ k ↔ c < 10 ^ k :=
  Nat.length_toDigits_le_iff (by decide) hk

theorem lt_pow_numDigits (c : Nat) : c < 10 ^ numDigits c :=
  (numDigits_le_iff (numDigits_pos c)).mp (Nat.le_refl _)

theorem pow_le_of_pos {c : Nat} (hc : 0 < c) : 10 ^ (numDigits c - 1) ≤ c := by
  by_contra hlt
  have hlt : c < 10 ^ (numDigits c - 1) := by omega
  have hpos := numDigits_pos c
  by_cases hone : numDigits c = 1
  · rw [hone] at hlt
    omega
  · have hle := (numDigits_le_iff (by omega : 0 < numDigits c - 1)).mpr hlt
    omega

theorem digits_of_ten_le {c : Nat} (h : 10 ≤ c) :
    digits c = digits (c / 10) ++ [(c % 10).digitChar] :=
  Nat.toDigits_of_base_le (by decide) h

theorem numDigits_div {c : Nat} (h : 10 ≤ c) : numDigits c = numDigits (c / 10) + 1 := by
  rw [numDigits, digits_of_ten_le h, List.length_append]
  rfl

/-! ## Rounding -/

theorem roundHalfEven_le (c k : Nat) : roundHalfEven c k ≤ c / 10 ^ k + 1 := by
  unfold roundHalfEven
  split_ifs <;> omega

/-- Rounding away all but the leading digits yields a power of ten at most. -/
theorem roundHalfEven_le_pow {c k n : Nat} (h : numDigits c ≤ n + k) :
    roundHalfEven c k ≤ 10 ^ n := by
  have hc : c < 10 ^ k * 10 ^ n := by
    calc c < 10 ^ numDigits c := lt_pow_numDigits c
      _ ≤ 10 ^ (n + k) := Nat.pow_le_pow_right (by decide) h
      _ = 10 ^ k * 10 ^ n := by rw [Nat.pow_add, Nat.mul_comm]
  have hdiv := Nat.div_lt_of_lt_mul hc
  have hround := roundHalfEven_le c k
  omega

theorem carry_spec {prec c : Nat} {e : Int} (hprec : 0 < prec) (hc : c ≤ 10 ^ prec) :
    ((carry prec c e).1 : ℚ) * 10 ^ (carry prec c e).2 = c * 10 ^ e ∧
      numDigits (carry prec c e).1 ≤ prec := by
  unfold carry
  by_cases hlong : prec < numDigits c
  · have hnot : ¬ c < 10 ^ prec := by
      rw [← numDigits_le_iff hprec]
      omega
    obtain rfl : c = 10 ^ prec := by omega
    obtain ⟨n, rfl⟩ : ∃ n, prec = n + 1 := ⟨prec - 1, by omega⟩
    have hdiv : 10 ^ (n + 1) / 10 = 10 ^ n := by
      rw [Nat.pow_succ]
      exact Nat.mul_div_cancel _ (by decide)
    rw [if_pos hlong, hdiv]
    constructor
    · simp only [Nat.cast_pow, Nat.cast_ofNat]
      rw [zpow_add_one₀ (by norm_num), pow_succ]
      ring
    · rw [numDigits_le_iff hprec]
      exact Nat.pow_lt_pow_right (by decide) (by omega)
  · rw [if_neg hlong]
    exact ⟨rfl, Nat.le_of_not_lt hlong⟩

/-- Stripping keeps the number and leaves no trailing zero, if the number
is in range. -/
theorem strip_spec (emax : Int) {fuel c : Nat} {e : Int} (hc : 0 < c)
    (hfuel : numDigits c ≤ fuel) (hrange : numDigits c + e ≤ emax + 1) :
    ((strip emax fuel c e).1 : ℚ) * 10 ^ (strip emax fuel c e).2 = c * 10 ^ e ∧
      (strip emax fuel c e).1 % 10 ≠ 0 := by
  induction fuel generalizing c e with
  | zero =>
      have hpos := numDigits_pos c
      omega
  | succ fuel ih =>
      unfold strip
      by_cases hzero : c % 10 = 0
      · have hten : 10 ≤ c := by omega
        have hdigits := numDigits_div hten
        have hpos := numDigits_pos (c / 10)
        rw [if_pos ⟨hzero, by omega⟩]
        obtain ⟨hvalue, hlast⟩ := ih (c := c / 10) (e := e + 1) (by omega) (by omega)
          (by omega)
        refine ⟨?_, hlast⟩
        have hexact : ((c / 10 : Nat) : ℚ) * 10 = c := by
          exact_mod_cast Nat.div_mul_cancel (Nat.dvd_of_mod_eq_zero hzero)
        rw [hvalue, zpow_add_one₀ (by norm_num), mul_comm ((10 : ℚ) ^ e) 10, ← mul_assoc, hexact]
      · rw [if_neg (fun h => hzero h.1)]
        exact ⟨rfl, hzero⟩

namespace Finite

variable {ctx : Context} {d f : Finite}

theorem magnitude_div_pow (d : Finite) (g : Int) :
    d.magnitude / 10 ^ g = d.coefficient * 10 ^ (d.exponent - g) := by
  rw [magnitude, mul_div_assoc, ← zpow_sub₀ (by norm_num)]

/-- A multiple of the last place stays as it is. -/
theorem rounded_of_multiple {n : Int} {g : Int} (hgrid : d.grid ctx ≤ g)
    (h : d.magnitude = n * 10 ^ g) : d.rounded ctx = d.magnitude := by
  have hint : d.magnitude / 10 ^ d.grid ctx = ((n * 10 ^ (g - d.grid ctx).toNat : ℤ) : ℚ) := by
    have hsub : g - d.grid ctx = ((g - d.grid ctx).toNat : ℤ) :=
      (Int.toNat_of_nonneg (by omega)).symm
    rw [h, mul_div_assoc, ← zpow_sub₀ (by norm_num), hsub, zpow_natCast]
    push_cast
    rfl
  have hpow : (10 : ℚ) ^ d.grid ctx ≠ 0 := zpow_ne_zero _ (by norm_num)
  rw [rounded, hint, halfEven_intCast, ← hint, div_mul_cancel₀ _ hpow]

theorem rounded_of_zero (h : d.coefficient = 0) : d.rounded ctx = 0 := by
  have hzero : halfEven 0 = 0 := by
    have := halfEven_intCast 0
    simpa using this
  simp [rounded, magnitude, h, hzero]

/-- What `_fix` does to a number that is not zero. -/
theorem fix_spec (hc : d.coefficient ≠ 0) (h : d.fix ctx = some f) :
    f.negative = d.negative ∧ f.magnitude = d.rounded ctx ∧
      (numDigits f.coefficient : Int) + f.exponent ≤ ctx.emax + 1 := by
  rw [fix, if_neg hc] at h
  by_cases hover : ctx.etop < d.expMin ctx
  · rw [if_pos hover] at h
    cases h
  rw [if_neg hover] at h
  have hgrid : max (d.expMin ctx) ctx.etiny = d.grid ctx := rfl
  simp only [hgrid] at h
  by_cases hround : d.exponent < d.grid ctx
  · rw [if_pos hround] at h
    have hdigits : numDigits d.coefficient ≤ ctx.prec + (d.grid ctx - d.exponent).toNat := by
      have hmin : d.expMin ctx ≤ d.grid ctx := le_max_left _ _
      rw [expMin] at hmin
      omega
    obtain ⟨hcarry, hlen⟩ := carry_spec (e := d.grid ctx) ctx.precPos
      (roundHalfEven_le_pow hdigits)
    by_cases htop : ctx.etop <
        (carry ctx.prec (roundHalfEven d.coefficient (d.grid ctx - d.exponent).toNat)
          (d.grid ctx)).2
    · rw [if_pos htop] at h
      cases h
    · rw [if_neg htop] at h
      cases h
      refine ⟨rfl, ?_, ?_⟩
      · rw [magnitude, hcarry, rounded, magnitude_div_pow]
        have hexp : d.exponent - d.grid ctx = -((d.grid ctx - d.exponent).toNat : ℤ) := by omega
        rw [hexp, zpow_neg, zpow_natCast, ← div_eq_mul_inv, halfEven_div]
        push_cast
        rfl
      · rw [Context.etop] at htop
        simp only
        omega
  · rw [if_neg hround] at h
    cases h
    refine ⟨rfl, ?_, ?_⟩
    · refine (rounded_of_multiple (n := d.coefficient) (g := d.exponent) (by omega) ?_).symm
      rw [magnitude]
      push_cast
      rfl
    · rw [expMin, Context.etop] at hover
      omega

/-- Zero, or a number without a trailing zero. -/
def Reduced (d : Finite) : Prop :=
  d.coefficient = 0 ∧ d.exponent = 0 ∨ d.coefficient % 10 ≠ 0

theorem magnitude_eq_zero_iff : d.magnitude = 0 ↔ d.coefficient = 0 := by
  rw [magnitude, mul_eq_zero]
  constructor
  · rintro (h | h)
    · exact_mod_cast h
    · exact absurd h (zpow_ne_zero _ (by norm_num))
  · intro h
    exact .inl (by exact_mod_cast h)

/-- `normalize` rounds, and writes the result in one way only. -/
theorem normalize_spec (h : d.normalize ctx = some f) :
    f.negative = d.negative ∧ f.magnitude = d.rounded ctx ∧ f.Reduced := by
  unfold normalize at h
  cases hfix : d.fix ctx with
  | none =>
      rw [hfix] at h
      cases h
  | some g =>
      rw [hfix] at h
      by_cases hd : d.coefficient = 0
      · rw [fix, if_pos hd] at hfix
        cases hfix
        simp only [hd, if_true] at h
        cases h
        refine ⟨rfl, ?_, .inl ⟨rfl, rfl⟩⟩
        rw [rounded_of_zero hd, magnitude_eq_zero_iff]
      · obtain ⟨hneg, hmag, hrange⟩ := fix_spec hd hfix
        by_cases hg : g.coefficient = 0
        · simp only [hg, if_true] at h
          cases h
          refine ⟨hneg, ?_, .inl ⟨rfl, rfl⟩⟩
          rw [← hmag, magnitude_eq_zero_iff.mpr hg, magnitude_eq_zero_iff]
        · simp only [if_neg hg] at h
          cases h
          obtain ⟨hvalue, hlast⟩ := strip_spec ctx.emax
            (Nat.pos_of_ne_zero hg) (Nat.le_refl _) hrange
          exact ⟨hneg, hvalue.trans hmag, .inr hlast⟩

/-! ## What a number determines -/

theorem magnitude_nonneg (d : Finite) : 0 ≤ d.magnitude := by
  rw [magnitude]
  positivity

/-- Where the leading digit of a number stands. -/
theorem magnitude_bounds (hc : d.coefficient ≠ 0) :
    (10 : ℚ) ^ (numDigits d.coefficient + d.exponent - 1) ≤ d.magnitude ∧
      d.magnitude < 10 ^ (numDigits d.coefficient + d.exponent) := by
  have hten : (10 : ℚ) ≠ 0 := by norm_num
  have hpos := numDigits_pos d.coefficient
  have hpow : (0 : ℚ) < 10 ^ d.exponent := by positivity
  constructor
  · have hlow := pow_le_of_pos (Nat.pos_of_ne_zero hc)
    have hlow : ((10 ^ (numDigits d.coefficient - 1) : Nat) : ℚ) ≤ d.coefficient := by
      exact_mod_cast hlow
    have hexp : (numDigits d.coefficient : ℤ) + d.exponent - 1 =
        ((numDigits d.coefficient - 1 : Nat) : ℤ) + d.exponent := by omega
    rw [hexp, zpow_add₀ hten, zpow_natCast, magnitude]
    refine mul_le_mul_of_nonneg_right ?_ hpow.le
    exact_mod_cast hlow
  · have hhigh : (d.coefficient : ℚ) < ((10 ^ numDigits d.coefficient : Nat) : ℚ) := by
      exact_mod_cast lt_pow_numDigits d.coefficient
    rw [zpow_add₀ hten, zpow_natCast, magnitude]
    refine mul_lt_mul_of_pos_right ?_ hpow
    exact_mod_cast hhigh

theorem expMin_eq_of_magnitude {e : Finite} (hc : d.coefficient ≠ 0)
    (h : d.magnitude = e.magnitude) : d.expMin ctx = e.expMin ctx := by
  have hne : e.coefficient ≠ 0 := by
    intro he
    rw [← magnitude_eq_zero_iff, ← h, magnitude_eq_zero_iff] at he
    exact hc he
  obtain ⟨hlow, hhigh⟩ := magnitude_bounds hc
  obtain ⟨hlow', hhigh'⟩ := magnitude_bounds hne
  rw [h] at hlow hhigh
  have hlt := (zpow_lt_zpow_iff_right₀ (by norm_num : (1 : ℚ) < 10)).mp (hlow.trans_lt hhigh')
  have hlt' := (zpow_lt_zpow_iff_right₀ (by norm_num : (1 : ℚ) < 10)).mp (hlow'.trans_lt hhigh)
  rw [expMin, expMin]
  omega

theorem rounded_eq_of_magnitude {e : Finite} (h : d.magnitude = e.magnitude) :
    d.rounded ctx = e.rounded ctx := by
  by_cases hc : d.coefficient = 0
  · have he : e.coefficient = 0 := by
      rw [← magnitude_eq_zero_iff, ← h, magnitude_eq_zero_iff]
      exact hc
    rw [rounded_of_zero hc, rounded_of_zero he]
  · rw [rounded, rounded, grid, grid, expMin_eq_of_magnitude hc h, h]

/-- A number that fits the context is not rounded. -/
theorem rounded_of_fits (h : d.Fits ctx) : d.rounded ctx = d.magnitude := by
  obtain ⟨m, g, hm, htiny, hmag⟩ := h
  by_cases hc : d.coefficient = 0
  · rw [rounded_of_zero hc, magnitude_eq_zero_iff.mpr hc]
  · have hten : (10 : ℚ) ≠ 0 := by norm_num
    obtain ⟨hlow, -⟩ := magnitude_bounds hc
    have hhigh : d.magnitude < 10 ^ ((ctx.prec : ℤ) + g) := by
      have hm : (m : ℚ) < ((10 ^ ctx.prec : Nat) : ℚ) := by exact_mod_cast hm
      rw [hmag, zpow_add₀ hten, zpow_natCast]
      refine mul_lt_mul_of_pos_right ?_ (by positivity)
      exact_mod_cast hm
    have hlt := (zpow_lt_zpow_iff_right₀ (by norm_num : (1 : ℚ) < 10)).mp (hlow.trans_lt hhigh)
    have hgrid : d.grid ctx ≤ g := by
      rw [grid, expMin]
      exact max_le (by omega) htiny
    refine rounded_of_multiple (n := m) hgrid ?_
    rw [hmag]
    push_cast
    rfl

/-- Equal numbers have the same sign and the same magnitude. -/
theorem value_eq_iff {e : Finite} :
    d.value = e.value ↔ d.isNegative = e.isNegative ∧ d.magnitude = e.magnitude := by
  have hd := magnitude_nonneg d
  have he := magnitude_nonneg e
  -- zero has no sign
  have hsign : ∀ x : Finite, x.value = if x.isNegative then -x.magnitude else x.magnitude := by
    intro x
    by_cases hx : x.coefficient = 0
    · simp [value, isNegative, hx, magnitude_eq_zero_iff.mpr hx]
    · simp [value, isNegative, hx]
  have hpos : ∀ x : Finite, x.isNegative = true → 0 < x.magnitude := by
    intro x hx
    have hc : x.coefficient ≠ 0 := by
      simp only [isNegative, Bool.and_eq_true, decide_eq_true_eq] at hx
      exact hx.2
    exact lt_of_le_of_ne (magnitude_nonneg x) (Ne.symm (magnitude_eq_zero_iff.not.mpr hc))
  rw [hsign d, hsign e]
  constructor
  · intro h
    cases hdn : d.isNegative <;> cases hen : e.isNegative <;> simp only [hdn, hen, if_true] at h
    · exact ⟨rfl, by simpa using h⟩
    · have := hpos e hen
      simp at h
      linarith
    · have := hpos d hdn
      simp at h
      linarith
    · exact ⟨rfl, by linarith⟩
  · rintro ⟨hn, hm⟩
    rw [hn, hm]

/-- A reduced number is determined by its magnitude. -/
theorem Reduced.eq {e : Finite} (hd : d.Reduced) (he : e.Reduced)
    (h : d.magnitude = e.magnitude) :
    d.coefficient = e.coefficient ∧ d.exponent = e.exponent := by
  -- with the lower exponent first
  have hle : ∀ x y : Finite, x.coefficient % 10 ≠ 0 → x.exponent ≤ y.exponent →
      x.magnitude = y.magnitude → x.coefficient = y.coefficient ∧ x.exponent = y.exponent := by
    intro x y hlast hexp hmag
    have hten : (10 : ℚ) ≠ 0 := by norm_num
    obtain ⟨k, hk⟩ : ∃ k : Nat, y.exponent = x.exponent + k :=
      ⟨(y.exponent - x.exponent).toNat, by omega⟩
    have hpow : (10 : ℚ) ^ x.exponent ≠ 0 := zpow_ne_zero _ hten
    have hcoef : x.coefficient = y.coefficient * 10 ^ k := by
      rw [magnitude, magnitude, hk, zpow_add₀ hten, zpow_natCast, mul_comm ((10 : ℚ) ^ x.exponent),
        ← mul_assoc] at hmag
      have hcancel := mul_right_cancel₀ hpow hmag
      exact_mod_cast hcancel
    cases k with
    | zero => exact ⟨by simpa using hcoef, by omega⟩
    | succ k =>
        rw [Nat.pow_succ, ← Nat.mul_assoc] at hcoef
        omega
  rcases hd with ⟨hc, hx⟩ | hd
  · have hzero : e.coefficient = 0 := by
      rw [← magnitude_eq_zero_iff, ← h, magnitude_eq_zero_iff]
      exact hc
    rcases he with ⟨-, hy⟩ | he
    · exact ⟨by rw [hc, hzero], by rw [hx, hy]⟩
    · rw [hzero] at he
      exact absurd rfl he
  · rcases he with ⟨hzero, -⟩ | he
    · rw [← magnitude_eq_zero_iff, ← h, magnitude_eq_zero_iff] at hzero
      rw [hzero] at hd
      exact absurd rfl hd
    · rcases le_total d.exponent e.exponent with hexp | hexp
      · exact hle d e hd hexp h
      · obtain ⟨hcoef, hexp⟩ := hle e d he hexp h.symm
        exact ⟨hcoef.symm, hexp.symm⟩

end Finite

/-! ## The text of a number -/

/-- Nothing but digits. -/
def IsDigits (cs : List Char) : Prop := ∀ c ∈ cs, c.isDigit = true

theorem isDigits_digits (c : Nat) : IsDigits (digits c) :=
  fun _ h => Nat.isDigit_of_mem_toDigits (by decide) (by decide) h

theorem isDigits_zeros (n : Nat) : IsDigits (List.replicate n '0') := by
  intro c hc
  rw [(List.mem_replicate.mp hc).2]
  rfl

theorem IsDigits.append {cs ds : List Char} (hc : IsDigits cs) (hd : IsDigits ds) :
    IsDigits (cs ++ ds) := by
  intro c h
  rcases List.mem_append.mp h with h | h
  · exact hc c h
  · exact hd c h

theorem isDigits_parts (c : Nat) (e : Int) :
    IsDigits (parts c e).1 ∧ (parts c e).1 ≠ [] ∧ IsDigits (parts c e).2 := by
  have hzero : IsDigits ['0'] := isDigits_zeros 1
  have htext := isDigits_digits c
  unfold parts
  dsimp only
  split_ifs with hneg hlong hempty
  · exact ⟨hzero, by simp, (isDigits_zeros _).append htext⟩
  · refine ⟨htext.append (isDigits_zeros _), ?_, fun c hc => by cases hc⟩
    intro hnil
    exact Nat.toDigits_ne_nil (List.append_eq_nil_iff.mp hnil).1
  · exact ⟨hzero, by simp, fun c hc => htext c (List.mem_of_mem_drop hc)⟩
  · exact ⟨fun c hc => htext c (List.mem_of_mem_take hc), hempty,
      fun c hc => htext c (List.mem_of_mem_drop hc)⟩

/-- The digits, read as one number, and the place of the point. -/
theorem parts_spec (c : Nat) (e : Int) :
    (Nat.ofDigitChars 10 ((parts c e).1 ++ (parts c e).2) 0 : ℚ) =
      c * 10 ^ (e + (parts c e).2.length) := by
  have hvalue : Nat.ofDigitChars 10 (digits c) 0 = c :=
    Nat.ofDigitChars_toDigits (by decide) (by decide)
  have hlen : (digits c).length = numDigits c := rfl
  have hzero : Nat.ofDigitChars 10 ['0'] 0 = 0 := by decide
  unfold parts
  dsimp only
  split_ifs with hneg hlong hempty
  · rw [Nat.ofDigitChars_append, hzero, Nat.ofDigitChars_append,
      Nat.ofDigitChars_replicate_zero, Nat.mul_zero, hvalue, List.length_append,
      List.length_replicate]
    have hexp : e + (((-((digits c).length + e)).toNat + (digits c).length : Nat) : ℤ) = 0 := by
      omega
    rw [hexp, zpow_zero, mul_one]
  · rw [List.append_nil, Nat.ofDigitChars_append, hvalue, Nat.ofDigitChars_replicate_zero]
    have hexp : e + (([] : List Char).length : ℤ) =
        (((digits c).length + e - (digits c).length).toNat : ℤ) := by
      simp only [List.length_nil, Nat.cast_zero]
      omega
    rw [hexp, zpow_natCast]
    push_cast
    ring
  · rw [Nat.ofDigitChars_append, hzero, List.length_drop]
    have hdot : ((digits c).length + e).toNat = 0 := by
      have htake := List.take_eq_nil_iff.mp hempty
      rcases htake with htake | htake
      · exact htake
      · exact absurd htake Nat.toDigits_ne_nil
    rw [hdot, List.drop_zero, hvalue]
    have hexp : e + (((digits c).length - 0 : Nat) : ℤ) = 0 := by omega
    rw [hexp, zpow_zero, mul_one]
  · rw [List.take_append_drop, hvalue, List.length_drop]
    have hexp : e + (((digits c).length - ((digits c).length + e).toNat : Nat) : ℤ) = 0 := by
      omega
    rw [hexp, zpow_zero, mul_one]

theorem dot_not_mem {cs : List Char} (h : IsDigits cs) : '.' ∉ cs := by
  intro hmem
  have hdigit := h '.' hmem
  cases hdigit

/-- The text shows where the point is. -/
theorem positional_inj {w f w' f' : List Char} (hw : IsDigits w) (hw' : IsDigits w')
    (h : positional w f = positional w' f') : w = w' ∧ f = f' := by
  have hsplit : ∀ w f : List Char, IsDigits w →
      (positional w f).takeWhile (· ≠ '.') = w ∧
        ((positional w f).dropWhile (· ≠ '.')).drop 1 = f := by
    intro w f hw
    have hall : ∀ c ∈ w, (decide (c ≠ '.')) = true := by
      intro c hc
      simp only [decide_eq_true_eq]
      rintro rfl
      exact dot_not_mem hw hc
    unfold positional
    rw [List.takeWhile_append_of_pos hall, List.dropWhile_append_of_pos hall]
    by_cases hf : f = []
    · simp [hf]
    · simp [hf]
  obtain ⟨hone, htwo⟩ := hsplit w f hw
  obtain ⟨hone', htwo'⟩ := hsplit w' f' hw'
  rw [h] at hone htwo
  exact ⟨hone.symm.trans hone', htwo.symm.trans htwo'⟩

namespace Finite

variable {d e : Finite}

/-- The exponent with which a number is written. -/
def shownExponent (d : Finite) : Int :=
  if d.coefficient = 0 ∧ 0 < d.exponent then 0 else d.exponent

theorem magnitude_shown (d : Finite) :
    (d.coefficient : ℚ) * 10 ^ d.shownExponent = d.magnitude := by
  unfold shownExponent magnitude
  by_cases hc : d.coefficient = 0
  · simp [hc]
  · simp [hc]

/-- The text determines the sign and the magnitude. -/
theorem formatF_inj (h : d.formatF = e.formatF) :
    d.negative = e.negative ∧ d.magnitude = e.magnitude := by
  -- a minus sign is no digit
  have hminus : ∀ (x : Finite) cs, positional (parts x.coefficient x.shownExponent).1
      (parts x.coefficient x.shownExponent).2 ≠ '-' :: cs := by
    intro x cs hx
    obtain ⟨hdigits, hne, -⟩ := isDigits_parts x.coefficient x.shownExponent
    obtain ⟨c, rest, hcons⟩ := List.exists_cons_of_ne_nil hne
    rw [hcons] at hx hdigits
    rw [positional, List.cons_append] at hx
    have hdigit := hdigits c List.mem_cons_self
    rw [(List.cons.inj hx).1] at hdigit
    cases hdigit
  have hbody : d.negative = e.negative ∧
      positional (parts d.coefficient d.shownExponent).1 (parts d.coefficient d.shownExponent).2 =
        positional (parts e.coefficient e.shownExponent).1
          (parts e.coefficient e.shownExponent).2 := by
    have hd : d.formatF = if d.negative then
        '-' :: positional (parts d.coefficient d.shownExponent).1
          (parts d.coefficient d.shownExponent).2
        else positional (parts d.coefficient d.shownExponent).1
          (parts d.coefficient d.shownExponent).2 := rfl
    have he : e.formatF = if e.negative then
        '-' :: positional (parts e.coefficient e.shownExponent).1
          (parts e.coefficient e.shownExponent).2
        else positional (parts e.coefficient e.shownExponent).1
          (parts e.coefficient e.shownExponent).2 := rfl
    rw [hd, he] at h
    cases hdn : d.negative <;> cases hen : e.negative <;> rw [hdn, hen] at h
    · exact ⟨rfl, h⟩
    · exact absurd h (hminus d _)
    · exact absurd h.symm (hminus e _)
    · exact ⟨rfl, (List.cons.inj h).2⟩
  obtain ⟨hneg, hbody⟩ := hbody
  obtain ⟨hdw, -, -⟩ := isDigits_parts d.coefficient d.shownExponent
  obtain ⟨hew, -, -⟩ := isDigits_parts e.coefficient e.shownExponent
  obtain ⟨hwhole, hfraction⟩ := positional_inj hdw hew hbody
  have hdvalue := parts_spec d.coefficient d.shownExponent
  have hevalue := parts_spec e.coefficient e.shownExponent
  rw [hwhole, hfraction, hevalue] at hdvalue
  have hten : (10 : ℚ) ≠ 0 := by norm_num
  have hpow : (10 : ℚ) ^ ((parts e.coefficient e.shownExponent).2.length : ℤ) ≠ 0 :=
    zpow_ne_zero _ hten
  rw [zpow_add₀ hten, zpow_add₀ hten, ← mul_assoc, ← mul_assoc, magnitude_shown,
    magnitude_shown] at hdvalue
  exact ⟨hneg, (mul_right_cancel₀ hpow hdvalue).symm⟩

theorem formatF_eq (hn : d.negative = e.negative) (hc : d.coefficient = e.coefficient)
    (he : d.exponent = e.exponent) : d.formatF = e.formatF := by
  unfold formatF
  rw [hn, hc, he]

end Finite

end PyDecimal
