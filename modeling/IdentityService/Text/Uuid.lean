import IdentityService.Base

/-!
# UUID text

`UUID(str(u)) == u`: the canonical text has nothing that the reader would
remove, and its digits are those of the value.
-/

namespace IdentityService

/-- Nothing is removed where the first character of the part is missing. -/
theorem removeAll_of_not_mem {c : Char} {part : List Char} {fuel : Nat} {text : List Char}
    (h : c ∉ text) : removeAll (c :: part) fuel text = text := by
  induction fuel generalizing text with
  | zero => cases text <;> rfl
  | succ fuel ih =>
    cases text with
    | nil => rfl
    | cons d rest =>
      have hd : c ≠ d := fun hcd => h (by simp [hcd])
      have hrest : c ∉ rest := fun hmem => h (by simp [hmem])
      simp [removeAll, List.isPrefixOf, hd, ih hrest]

/-- The hexadecimal digits of a number, the highest first. -/
def hexDigits (count u : Nat) : List Nat :=
  (List.range count).map fun i => u / 16 ^ (count - 1 - i) % 16

theorem hexDigits_succ (count u : Nat) :
    hexDigits (count + 1) u = hexDigits count (u / 16) ++ [u % 16] := by
  rw [hexDigits, List.range_succ, List.map_append, hexDigits]
  congr 1
  · refine List.map_congr_left fun i hi => ?_
    have hi : i < count := List.mem_range.mp hi
    have hpow : count + 1 - 1 - i = (count - 1 - i) + 1 := by omega
    rw [hpow, pow_succ', ← Nat.div_div_eq_div_mul]
  · simp

theorem foldl_hexDigits (count u : Nat) :
    (hexDigits count u).foldl (fun n d => n * 16 + d) 0 = u % 16 ^ count := by
  induction count generalizing u with
  | zero => simp [hexDigits, Nat.mod_one]
  | succ count ih =>
    rw [hexDigits_succ, List.foldl_append, ih]
    simp only [List.foldl_cons, List.foldl_nil]
    rw [pow_succ', Nat.mod_mul]
    omega

theorem hexDigits_lt {count u d : Nat} (h : d ∈ hexDigits count u) : d < 16 := by
  obtain ⟨i, -, rfl⟩ := List.mem_map.mp h
  exact Nat.mod_lt _ (by decide)

/-- Reading digits. -/
theorem foldlM_digits {digits : List Nat} (h : ∀ d ∈ digits, d < 16) (n : Nat) :
    (digits.map Hex.digit).foldlM (fun n c => (Hex.value c).map fun d => n * 16 + d) n =
      some (digits.foldl (fun n d => n * 16 + d) n) := by
  induction digits generalizing n with
  | nil => rfl
  | cons d digits ih =>
    have hd : Hex.value (Hex.digit d) = some d := Hex.value_digit (h d (by simp))
    have hrest := ih (fun d' hd' => h d' (by simp [hd'])) (n * 16 + d)
    simp [hd, hrest]

/-- Characters a digit is not. -/
theorem digit_ne {n : Nat} (h : n < 16) :
    Hex.digit n ≠ 'u' ∧ Hex.digit n ≠ '-' ∧ isBrace (Hex.digit n) = false := by
  have hall : ∀ m : Fin 16,
      Hex.digit m ≠ 'u' ∧ Hex.digit m ≠ '-' ∧ isBrace (Hex.digit m) = false := by decide
  exact hall ⟨n, h⟩

theorem uuidText_toList (u : Uuid) : (uuidText u).toList =
    let hex := (hexDigits 32 u).map Hex.digit
    hex.take 8 ++ '-' :: (hex.drop 8).take 4 ++ '-' :: (hex.drop 12).take 4 ++
      '-' :: (hex.drop 16).take 4 ++ '-' :: hex.drop 20 := by
  simp [uuidText, hexDigits, List.map_map, Function.comp_def]

/-- The text is digits and hyphens. -/
theorem mem_uuidText {u : Uuid} {c : Char} (h : c ∈ (uuidText u).toList) :
    c = '-' ∨ ∃ n < 16, c = Hex.digit n := by
  rw [uuidText_toList] at h
  have hdigit : ∀ c ∈ (hexDigits 32 u).map Hex.digit, ∃ n < 16, c = Hex.digit n := by
    intro c hc
    obtain ⟨n, hn, rfl⟩ := List.mem_map.mp hc
    exact ⟨n, hexDigits_lt hn, rfl⟩
  simp only [List.mem_append, List.mem_cons] at h
  rcases h with (((h | h | h) | h | h) | h | h) | h | h
  · exact .inr (hdigit c (List.mem_of_mem_take h))
  · exact .inl h
  · exact .inr (hdigit c (List.mem_of_mem_drop (List.mem_of_mem_take h)))
  · exact .inl h
  · exact .inr (hdigit c (List.mem_of_mem_drop (List.mem_of_mem_take h)))
  · exact .inl h
  · exact .inr (hdigit c (List.mem_of_mem_drop (List.mem_of_mem_take h)))
  · exact .inl h
  · exact .inr (hdigit c (List.mem_of_mem_drop h))

/-- The five groups are the whole. -/
theorem groups_append {α : Type} (l : List α) :
    l.take 8 ++ (l.drop 8).take 4 ++ (l.drop 12).take 4 ++ (l.drop 16).take 4 ++ l.drop 20 = l := by
  have hgroup : ∀ n, (l.drop n).take 4 ++ l.drop (n + 4) = l.drop n := by
    intro n
    rw [← List.drop_drop, List.take_append_drop]
  rw [List.append_assoc, hgroup 16, List.append_assoc, hgroup 12, List.append_assoc, hgroup 8,
    List.take_append_drop]

/-- Without the hyphens, the digits are left. -/
theorem filter_uuidText (u : Uuid) :
    ((uuidText u).toList.filter fun c => c ≠ '-') = (hexDigits 32 u).map Hex.digit := by
  have hkeep : ∀ part : List Char, (∀ c ∈ part, c ∈ (hexDigits 32 u).map Hex.digit) →
      (part.filter fun c => c ≠ '-') = part := by
    intro part hpart
    refine List.filter_eq_self.mpr fun c hc => ?_
    obtain ⟨n, hn, rfl⟩ := List.mem_map.mp (hpart c hc)
    exact decide_eq_true (digit_ne (hexDigits_lt hn)).2.1
  rw [uuidText_toList]
  simp only [List.filter_append, List.filter_cons, ne_eq, not_true_eq_false, decide_false,
    Bool.false_eq_true, if_false]
  rw [hkeep _ fun c hc => List.mem_of_mem_take hc,
    hkeep _ fun c hc => List.mem_of_mem_drop (List.mem_of_mem_take hc),
    hkeep _ fun c hc => List.mem_of_mem_drop (List.mem_of_mem_take hc),
    hkeep _ fun c hc => List.mem_of_mem_drop (List.mem_of_mem_take hc),
    hkeep _ fun c hc => List.mem_of_mem_drop hc]
  exact groups_append _

theorem uuidOfText_uuidText {u : Uuid} (h : u < 2 ^ 128) : uuidOfText (uuidText u) = some u := by
  have hu : 'u' ∉ (uuidText u).toList := by
    intro hmem
    rcases mem_uuidText hmem with hc | ⟨n, hn, hc⟩
    · exact absurd hc (by decide)
    · exact (digit_ne hn).1 hc.symm
  have hbrace : ∀ c ∈ (uuidText u).toList, isBrace c = false := by
    intro c hmem
    rcases mem_uuidText hmem with rfl | ⟨n, hn, rfl⟩
    · decide
    · exact (digit_ne hn).2.2
  have hdrop : ∀ text : List Char, (∀ c ∈ text, isBrace c = false) →
      text.dropWhile isBrace = text := by
    intro text htext
    cases text with
    | nil => rfl
    | cons c rest => simp [htext c (by simp)]
  have hclean : (((uuidText u).toList.dropWhile isBrace).reverse.dropWhile isBrace).reverse =
      (uuidText u).toList := by
    rw [hdrop _ hbrace, hdrop _ fun c hc => hbrace c (List.mem_reverse.mp hc), List.reverse_reverse]
  have hlength : ((hexDigits 32 u).map Hex.digit).length = 32 := by simp [hexDigits]
  have hvalue : u % 16 ^ 32 = u := Nat.mod_eq_of_lt (by omega)
  simp only [uuidOfText, removeAll_of_not_mem hu, hclean, filter_uuidText, hlength, if_true]
  rw [foldlM_digits fun d hd => hexDigits_lt hd, foldl_hexDigits, hvalue]

end IdentityService
