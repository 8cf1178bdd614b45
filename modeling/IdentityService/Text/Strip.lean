import Mathlib.Data.List.DropRight

/-!
# White space around a text

`str.strip()`: the characters `str.isspace` accepts, at both ends.
-/

namespace Text

/-- `c.isspace()`. -/
def isSpace (c : Char) : Bool :=
  let n := c.toNat
  (9 ≤ n ∧ n ≤ 13) || (28 ≤ n ∧ n ≤ 32) || n = 0x85 || n = 0xa0 || n = 0x1680 ||
    (0x2000 ≤ n ∧ n ≤ 0x200a) || n = 0x2028 || n = 0x2029 || n = 0x202f || n = 0x205f || n = 0x3000

/-- `str.strip`. -/
def strip (s : String) : String :=
  String.ofList ((s.toList.dropWhile isSpace).rdropWhile isSpace)

/-- A text that begins with no white space still does when its end is cut. -/
theorem dropWhile_rdropWhile {α : Type} (p : α → Bool) {l : List α} (h : l.dropWhile p = l) :
    (l.rdropWhile p).dropWhile p = l.rdropWhile p := by
  cases hcut : l.rdropWhile p with
  | nil => rfl
  | cons a rest =>
    have hprefix : a :: rest <+: l := hcut ▸ List.rdropWhile_prefix p l
    obtain ⟨back, hback⟩ := hprefix
    have ha : p a = false := by
      by_contra hpa
      have hpa : p a = true := by simpa using hpa
      rw [← hback] at h
      have hlength := congrArg List.length h
      have hshort := (List.dropWhile_sublist p (l := rest ++ back)).length_le
      simp only [List.cons_append, List.dropWhile_cons_of_pos hpa, List.length_cons] at hlength
      omega
    rw [List.dropWhile_cons_of_neg (by simp [ha])]

theorem strip_strip (s : String) : strip (strip s) = strip s := by
  have hfront : (s.toList.dropWhile isSpace).dropWhile isSpace = s.toList.dropWhile isSpace :=
    List.dropWhile_idempotent isSpace _
  simp only [strip, String.toList_ofList]
  rw [dropWhile_rdropWhile isSpace hfront, List.rdropWhile_idempotent]

end Text
