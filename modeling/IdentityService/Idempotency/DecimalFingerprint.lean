import IdentityService.Numeric.Decimal

/-!
# Decimals in request fingerprints

The branch of `_canonicalize` for `Decimal`. `normalize` rounds to the
precision of the context, so numbers that differ beyond it get the same
text; up to that precision the text tells numbers apart.
-/

namespace IdentityService

open PyDecimal

/-- `decimal.Decimal`. -/
inductive Decimal where
  | finite (d : Finite)
  | infinite (negative : Bool)
  | nan

/-- `ValueError("fingerprint decimals must be finite")`, or the `Overflow`
that the default context traps. -/
inductive DecimalError where
  | notFinite
  | overflow
deriving DecidableEq

/-- The `Decimal` branch of `_canonicalize`. -/
def canonicalizeDecimal : Decimal → Except DecimalError (List Char)
  | .infinite _ => .error .notFinite
  | .nan => .error .notFinite
  | .finite d =>
    if d.coefficient = 0 then
      .ok ['0']
    else
      match d.normalize defaultContext with
      | some normal => .ok normal.formatF
      | none => .error .overflow

/-- The text is that of a reduced number: the number that was given, rounded
to the context. -/
theorem canonicalizeDecimal_spec {d : Finite} {s : List Char}
    (h : canonicalizeDecimal (.finite d) = .ok s) :
    ∃ f : Finite, s = f.formatF ∧ f.negative = d.isNegative ∧
      f.magnitude = d.rounded defaultContext ∧ f.Reduced := by
  simp only [canonicalizeDecimal] at h
  by_cases hc : d.coefficient = 0
  · rw [if_pos hc] at h
    cases h
    refine ⟨⟨false, 0, 0⟩, by decide, ?_, ?_, .inl ⟨rfl, rfl⟩⟩
    · simp [Finite.isNegative, hc]
    · rw [Finite.rounded_of_zero hc, Finite.magnitude_eq_zero_iff]
  · rw [if_neg hc] at h
    cases hn : d.normalize defaultContext with
    | none =>
        rw [hn] at h
        cases h
    | some f =>
        rw [hn] at h
        cases h
        obtain ⟨hneg, hmag, hred⟩ := Finite.normalize_spec hn
        exact ⟨f, rfl, by simp [hneg, Finite.isNegative, hc], hmag, hred⟩

/-- Two decimals get the same text when they have the same sign and round to
the same number. -/
theorem canonicalizeDecimal_eq_iff {d e : Finite} {s t : List Char}
    (hd : canonicalizeDecimal (.finite d) = .ok s)
    (he : canonicalizeDecimal (.finite e) = .ok t) :
    s = t ↔ d.isNegative = e.isNegative ∧
      d.rounded defaultContext = e.rounded defaultContext := by
  obtain ⟨f, rfl, hfneg, hfmag, hfred⟩ := canonicalizeDecimal_spec hd
  obtain ⟨g, rfl, hgneg, hgmag, hgred⟩ := canonicalizeDecimal_spec he
  rw [← hfneg, ← hgneg, ← hfmag, ← hgmag]
  constructor
  · exact Finite.formatF_inj
  · rintro ⟨hneg, hmag⟩
    obtain ⟨hcoef, hexp⟩ := hfred.eq hgred hmag
    exact Finite.formatF_eq hneg hcoef hexp

/-- The text identifies a number exactly as far as the precision goes: it
does so for two decimals unless they are different numbers of one sign that
round to the same number. -/
theorem decimal_text_identifies (d e : Finite) (s t : List Char)
    (hd : canonicalizeDecimal (.finite d) = .ok s)
    (he : canonicalizeDecimal (.finite e) = .ok t) :
    ((s = t ↔ d.value = e.value) ↔
      d.value = e.value ∨ ¬ (d.isNegative = e.isNegative ∧
        d.rounded defaultContext = e.rounded defaultContext)) ∧
    (d.Fits defaultContext → e.Fits defaultContext → (s = t ↔ d.value = e.value)) := by
  have htext := canonicalizeDecimal_eq_iff hd he
  -- equal numbers always get the same text
  have hsame : d.value = e.value → s = t := by
    intro hvalue
    obtain ⟨hneg, hmag⟩ := Finite.value_eq_iff.mp hvalue
    exact htext.mpr ⟨hneg, Finite.rounded_eq_of_magnitude hmag⟩
  refine ⟨⟨?_, ?_⟩, ?_⟩
  · intro hlaw
    by_cases hvalue : d.value = e.value
    · exact .inl hvalue
    · exact .inr fun hround => hvalue (hlaw.mp (htext.mpr hround))
  · rintro (hvalue | hround)
    · exact ⟨fun _ => hvalue, hsame⟩
    · exact ⟨fun heq => absurd (htext.mp heq) hround, hsame⟩
  · intro hdfits hefits
    rw [htext, Finite.rounded_of_fits hdfits, Finite.rounded_of_fits hefits,
      Finite.value_eq_iff]

/-- `Decimal("1.50")` and `Decimal("1.5")`. -/
theorem decimal_text_identifies_amounts :
    canonicalizeDecimal (.finite ⟨false, 150, -2⟩) = .ok ['1', '.', '5'] ∧
    canonicalizeDecimal (.finite ⟨false, 15, -1⟩) = .ok ['1', '.', '5'] ∧
    (⟨false, 150, -2⟩ : Finite).value = (⟨false, 15, -1⟩ : Finite).value := by
  have hd : canonicalizeDecimal (.finite ⟨false, 150, -2⟩) = .ok ['1', '.', '5'] := by decide
  have he : canonicalizeDecimal (.finite ⟨false, 15, -1⟩) = .ok ['1', '.', '5'] := by decide
  have hdfits : (⟨false, 150, -2⟩ : Finite).Fits defaultContext :=
    ⟨150, -2, by decide, by decide, rfl⟩
  have hefits : (⟨false, 15, -1⟩ : Finite).Fits defaultContext :=
    ⟨15, -1, by decide, by decide, rfl⟩
  exact ⟨hd, he, ((decimal_text_identifies _ _ _ _ hd he).2 hdfits hefits).mp rfl⟩

/-- `10 ** 28 + 1` and `10 ** 28` are different numbers with one text. -/
theorem decimal_text_collides :
    ¬ (canonicalizeDecimal (.finite ⟨false, 10 ^ 28 + 1, 0⟩) =
        canonicalizeDecimal (.finite ⟨false, 10 ^ 28, 0⟩) ↔
      (⟨false, 10 ^ 28 + 1, 0⟩ : Finite).value = (⟨false, 10 ^ 28, 0⟩ : Finite).value) := by
  intro hlaw
  have htext : canonicalizeDecimal (.finite ⟨false, 10 ^ 28 + 1, 0⟩) =
      canonicalizeDecimal (.finite ⟨false, 10 ^ 28, 0⟩) := by decide +kernel
  have hvalue := hlaw.mp htext
  norm_num [Finite.value, Finite.magnitude] at hvalue

end IdentityService
