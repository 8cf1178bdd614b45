import Mathlib.Data.List.Basic
import Mathlib.Data.List.Induction
import Mathlib.Data.List.Nodup

/-!
# Guarded statements on a table

A table is a list of rows; a statement rewrites it in one step. `update`
is `UPDATE .. SET f WHERE p`, `select` is `SELECT .. WHERE p ORDER BY le
LIMIT n`.

The second half is about OWNERSHIP TOKENS in the rows: if a statement only
ever leaves behind old rows, rows without an owner, and rows owned by the
token it was issued, then a row that still carries a token has not been
touched since that token was issued — there is no way to change it and
come back.
-/

namespace Concurrent.Table

variable {Row : Type}

/-- `UPDATE .. SET .. WHERE`. -/
def update (p : Row → Bool) (f : Row → Row) (rows : List Row) : List Row :=
  rows.map fun r => if p r then f r else r

/-- `SELECT .. WHERE .. ORDER BY .. LIMIT`. -/
def select (p : Row → Bool) (le : Row → Row → Bool) (limit : Nat) (rows : List Row) : List Row :=
  ((rows.filter p).mergeSort le).take limit

variable {p : Row → Bool} {f : Row → Row} {le : Row → Row → Bool} {n : Nat} {rows : List Row}
  {r x y : Row}

theorem mem_update : r ∈ update p f rows ↔
    ∃ x ∈ rows, (p x = true ∧ r = f x) ∨ (p x = false ∧ r = x) := by
  simp only [update, List.mem_map]
  constructor
  · rintro ⟨x, hx, rfl⟩
    refine ⟨x, hx, ?_⟩
    cases hp : p x with
    | true => exact .inl ⟨rfl, by simp⟩
    | false => exact .inr ⟨rfl, by simp⟩
  · rintro ⟨x, hx, ⟨hp, rfl⟩ | ⟨hp, rfl⟩⟩
    · exact ⟨x, hx, by simp [hp]⟩
    · exact ⟨r, hx, by simp [hp]⟩

/-- An update that meets one row. -/
theorem mem_update_one {p : Row → Bool} {f : Row → Row} {rows : List Row} {x : Row}
    (hx : x ∈ rows) (hp : ∀ r ∈ rows, p r = true ↔ r = x) {r : Row} :
    r ∈ update p f rows ↔ r = f x ∨ r ∈ rows ∧ r ≠ x := by
  constructor
  · intro hr
    obtain ⟨o, ho, ⟨hpo, rfl⟩ | ⟨hpo, rfl⟩⟩ := mem_update.mp hr
    · rw [(hp o ho).mp hpo]
      exact .inl rfl
    · refine .inr ⟨ho, fun heq => ?_⟩
      rw [(hp _ ho).mpr heq] at hpo
      cases hpo
  · rintro (rfl | ⟨hr, hne⟩)
    · exact mem_update.mpr ⟨x, hx, .inl ⟨(hp x hx).mpr rfl, rfl⟩⟩
    · refine mem_update.mpr ⟨r, hr, .inr ⟨?_, rfl⟩⟩
      rw [← Bool.not_eq_true, hp r hr]
      exact hne

/-- A statement whose condition no row meets changes nothing. -/
theorem update_of_none (h : ∀ x ∈ rows, p x = false) : update p f rows = rows := by
  have hmap : rows.map (fun r => if p r then f r else r) = rows.map id :=
    List.map_congr_left fun x hx => by simp [h x hx]
  simpa [update] using hmap

theorem update_congr {q : Row → Bool} (h : ∀ x ∈ rows, p x = q x) :
    update p f rows = update q f rows :=
  List.map_congr_left fun x hx => by rw [h x hx]

/-- What is selected when one row only meets the condition. -/
theorem filter_one (hnodup : rows.Nodup) (hx : x ∈ rows) (hp : ∀ r ∈ rows, p r = true ↔ r = x) :
    rows.filter p = [x] := by
  refine List.perm_singleton.mp ((List.perm_ext_iff_of_nodup (hnodup.filter p)
    (List.nodup_singleton x)).mpr fun r => ?_)
  rw [List.mem_filter, List.mem_singleton]
  constructor
  · rintro ⟨hr, hpr⟩
    exact (hp r hr).mp hpr
  · rintro rfl
    exact ⟨hx, (hp r hx).mpr rfl⟩

theorem map_update {β : Type} (g : Row → β) (hg : ∀ x, g (f x) = g x) :
    (update p f rows).map g = rows.map g := by
  rw [update, List.map_map]
  refine List.map_congr_left fun x _ => ?_
  show g (if p x then f x else x) = g x
  by_cases hp : p x = true
  · rw [if_pos hp, hg]
  · rw [if_neg hp]

theorem mem_select (h : r ∈ select p le n rows) : r ∈ rows ∧ p r = true := by
  have hsort := List.mem_of_mem_take h
  rw [List.mem_mergeSort, List.mem_filter] at hsort
  exact hsort

/-- `LIMIT` takes the first rows: what comes before a selected row is
selected as well. -/
theorem select_before (htrans : ∀ a b c, le a b = true → le b c = true → le a c = true)
    (htotal : ∀ a b, (le a b || le b a) = true) (hy : y ∈ select p le n rows) (hx : x ∈ rows)
    (hp : p x = true) (hxy : le y x = false) : x ∈ select p le n rows := by
  have hsorted := List.pairwise_mergeSort htrans htotal (rows.filter p)
  have hmem : x ∈ (rows.filter p).mergeSort le := by
    rw [List.mem_mergeSort, List.mem_filter]
    exact ⟨hx, hp⟩
  rw [← List.take_append_drop n ((rows.filter p).mergeSort le), List.pairwise_append] at hsorted
  rw [← List.take_append_drop n ((rows.filter p).mergeSort le), List.mem_append] at hmem
  rcases hmem with hmem | hmem
  · exact hmem
  · have hle := hsorted.2.2 y hy x hmem
    rw [hxy] at hle
    cases hle

/-! ## Ownership -/

section Ownership

variable {Token Call : Type} (owner : Row → Option Token) (exec : Call → List Row → List Row)
  (issues : Call → Option Token)

/-- What a call may leave behind. -/
def Fences : Prop :=
  ∀ c rows r, r ∈ exec c rows → r ∈ rows ∨ owner r = none ∨ owner r = issues c

/-- The table after a list of calls. -/
def run (calls : List Call) (rows : List Row) : List Row := calls.foldl (fun t c => exec c t) rows

@[simp] theorem run_append (l₁ l₂ : List Call) (rows : List Row) :
    run exec (l₁ ++ l₂) rows = run exec l₂ (run exec l₁ rows) := by
  simp [run]

@[simp] theorem run_cons (c : Call) (l : List Call) (rows : List Row) :
    run exec (c :: l) rows = run exec l (exec c rows) := rfl

@[simp] theorem run_nil (rows : List Row) : run exec [] rows = rows := rfl

variable {owner exec issues}

/-- **No way back**: a row that carries token `t` now was already there, as
it is, at every moment since `t` was last issued. -/
theorem owned_since (hf : Fences owner exec issues) {t : Token} (ht : owner r = some t) :
    ∀ l, (∀ c ∈ l, issues c ≠ some t) → r ∈ run exec l rows →
      ∀ l', l' <+: l → r ∈ run exec l' rows := by
  intro l
  induction l using List.reverseRecOn with
  | nil =>
      intro _ hr l' hl'
      rw [List.prefix_nil] at hl'
      subst hl'
      exact hr
  | append_singleton l c ih =>
      intro hc hr l' hl'
      -- the last call cannot have written the row
      have hback : r ∈ run exec l rows := by
        rw [run_append] at hr
        rcases hf c _ r hr with h | h | h
        · exact h
        · rw [ht] at h
          cases h
        · rw [ht] at h
          exact absurd h.symm (hc c (by simp))
      rcases List.prefix_concat_iff.mp hl' with rfl | hpre
      · exact hr
      · exact ih (fun c' hc' => hc c' (by simp [hc'])) hback l' hpre

/-- Where a row still carries the token of a claim, it is the row that was
claimed. -/
def Held {Id : Type} (id : Row → Id) (owner : Row → Option Token) (claims : List (Row × Token))
    (rows : List Row) : Prop :=
  ∀ c ∈ claims, ∀ x ∈ rows, id x = id c.1 → owner x = some c.2 → x = c.1

variable {Id : Type} {id : Row → Id} {claims : List (Row × Token)} {rows' : List Row}

/-- One statement that leaves behind old rows, rows without an owner and rows
of a token nobody has claimed under. -/
theorem Held.rewrite (h : Held id owner claims rows) {issued : Option Token}
    (hf : ∀ x ∈ rows', x ∈ rows ∨ owner x = none ∨ owner x = issued)
    (hfresh : ∀ c ∈ claims, issued ≠ some c.2) : Held id owner claims rows' := by
  intro c hc x hx hid hown
  rcases hf x hx with hx | hx | hx
  · exact h c hc x hx hid hown
  · rw [hown] at hx
    cases hx
  · exact absurd (hx.symm.trans hown) (hfresh c hc)

/-- The rows a claim hands out are the ones in the table. -/
theorem Held.claim (h : Held id owner claims rows) (hn : (rows.map id).Nodup)
    {given : List (Row × Token)} (hg : ∀ c ∈ given, c.1 ∈ rows) :
    Held id owner (claims ++ given) rows := by
  intro c hc x hx hid hown
  rcases List.mem_append.mp hc with hc | hc
  · exact h c hc x hx hid hown
  · exact List.inj_on_of_nodup_map hn hx (hg c hc) hid

end Ownership

/-! ## Claims

Workers claim rows under a token of their own, work on the rows as they
read them, and write the outcome back under the token. -/

/-- How a table is worked on: the calls, the token each hands out, the rows
it returns as claimed, and for a finishing write the row and the owner it
names and whether it takes place. -/
structure Claims (Row Id Token Call : Type) where
  id : Row → Id
  owner : Row → Option Token
  exec : Call → List Row → List Row
  issues : Call → Option Token
  claimed : Call → List Row → List Row
  finishes : Call → Option (Id × Token)
  succeeds : Call → List Row → Bool

namespace Claims

variable {Id Token Call : Type} (T : Claims Row Id Token Call)

/-- The table after a list of calls on the empty one. -/
def after (calls : List Call) : List Row := run T.exec calls []

/-- What fencing means for whole histories. A worker claimed `r` under its
token `t`, anything happened `between`, and then its finishing write takes
place. -/
structure Fenced : Prop where
  /-- All that time the row was there and was what the worker had read. -/
  snapshot : ∀ before claim between finish r t,
    ((before ++ claim :: between).filterMap T.issues).Nodup → T.issues claim = some t →
    r ∈ T.claimed claim (T.after before) → T.finishes finish = some (T.id r, t) →
    T.succeeds finish (T.after (before ++ claim :: between)) = true →
    ∀ l, l <+: between → r ∈ T.after (before ++ claim :: l) ∧
      ∀ x ∈ T.after (before ++ claim :: l), T.id x = T.id r → x = r
  /-- No other finishing write of that claim took place. -/
  once : ∀ before claim between finish r t,
    ((before ++ claim :: between).filterMap T.issues).Nodup → T.issues claim = some t →
    r ∈ T.claimed claim (T.after before) → T.finishes finish = some (T.id r, t) →
    T.succeeds finish (T.after (before ++ claim :: between)) = true →
    ∀ l earlier, l ++ [earlier] <+: between → T.finishes earlier = some (T.id r, t) →
      T.succeeds earlier (T.after (before ++ claim :: l)) = false
  /-- One that does not take place leaves the table alone. -/
  refused : ∀ c rows, (T.finishes c).isSome → T.succeeds c rows = false → T.exec c rows = rows

/-- What each call has to keep to. -/
structure Disciplined : Prop where
  fences : Fences T.owner T.exec T.issues
  ids : ∀ c rows, (rows.map T.id).Nodup → ((T.exec c rows).map T.id).Nodup
  claimed : ∀ c rows r, r ∈ T.claimed c rows → r ∈ T.exec c rows ∧ T.owner r = T.issues c
  named : ∀ c rows i t, T.finishes c = some (i, t) → T.succeeds c rows = true →
    ∃ x ∈ rows, T.id x = i ∧ T.owner x = some t
  released : ∀ c rows i t, (rows.map T.id).Nodup → T.finishes c = some (i, t) →
    T.succeeds c rows = true → ∀ x ∈ T.exec c rows, T.id x = i → T.owner x = none
  refused : ∀ c rows, (T.finishes c).isSome → T.succeeds c rows = false → T.exec c rows = rows

variable {T}

theorem Disciplined.nodup_run (h : T.Disciplined) {rows : List Row} (hn : (rows.map T.id).Nodup)
    (l : List Call) : ((run T.exec l rows).map T.id).Nodup := by
  induction l generalizing rows with
  | nil => exact hn
  | cons c l ih => exact ih (h.ids c rows hn)

theorem Disciplined.nodup_after (h : T.Disciplined) (l : List Call) :
    ((T.after l).map T.id).Nodup := by
  refine h.nodup_run ?_ l
  exact List.nodup_nil

/-- Tokens are handed out once: not again after the claim. -/
theorem issues_ne {before between : List Call} {claim : Call} {t : Token}
    (hd : ((before ++ claim :: between).filterMap T.issues).Nodup) (ht : T.issues claim = some t) :
    ∀ c ∈ between, T.issues c ≠ some t := by
  intro c hc hct
  rw [List.filterMap_append, List.filterMap_cons_some ht, List.nodup_append] at hd
  have hcons := hd.2.1
  rw [List.nodup_cons] at hcons
  exact hcons.1 (List.mem_filterMap.mpr ⟨c, hc, hct⟩)

/-- The row named by a successful write is the row claimed, as it was then
and at every moment since. -/
theorem Disciplined.since (h : T.Disciplined) {before between : List Call} {claim finish : Call}
    {r : Row} {t : Token} (hd : ((before ++ claim :: between).filterMap T.issues).Nodup)
    (ht : T.issues claim = some t) (hr : r ∈ T.claimed claim (T.after before))
    (hf : T.finishes finish = some (T.id r, t))
    (hs : T.succeeds finish (T.after (before ++ claim :: between)) = true) :
    ∀ l, l <+: between → r ∈ T.after (before ++ claim :: l) := by
  have hafter : ∀ l, T.after (before ++ claim :: l) =
      run T.exec l (T.exec claim (T.after before)) := by
    intro l
    simp [after]
  obtain ⟨x, hx, hid, hown⟩ := h.named finish _ _ _ hf hs
  rw [hafter] at hx
  have hback := owned_since h.fences hown between (issues_ne hd ht) hx
  -- right after the claim both `x` and `r` are there, under one id
  have hxr : x = r := by
    refine List.inj_on_of_nodup_map (h.ids claim _ (h.nodup_after before)) ?_ ?_ hid
    · exact hback [] List.nil_prefix
    · exact (h.claimed claim _ r hr).1
  intro l hl
  rw [hafter, ← hxr]
  exact hback l hl

theorem Disciplined.fenced (h : T.Disciplined) : T.Fenced where
  snapshot before claim between finish r t hd ht hr hf hs l hl := by
    have hmem := h.since hd ht hr hf hs l hl
    refine ⟨hmem, fun x hx hid => ?_⟩
    exact List.inj_on_of_nodup_map (h.nodup_after _) hx hmem hid
  once before claim between finish r t hd ht hr hf hs l earlier hl he := by
    cases hsucc : T.succeeds earlier (T.after (before ++ claim :: l)) with
    | false => rfl
    | true =>
        -- it would have taken the row out of the worker's hands
        have hmem := h.since hd ht hr hf hs _ hl
        have hstep : T.after (before ++ claim :: (l ++ [earlier])) =
            T.exec earlier (T.after (before ++ claim :: l)) := by
          simp [after]
        rw [hstep] at hmem
        have hnone := h.released earlier _ _ _ (h.nodup_after _) he hsucc r hmem rfl
        rw [(h.claimed claim _ r hr).2, ht] at hnone
        cases hnone
  refused := h.refused

end Claims

end Concurrent.Table
