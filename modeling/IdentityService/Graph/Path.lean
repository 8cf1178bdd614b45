import Mathlib.Data.Fintype.Card
import Mathlib.Data.List.Chain

/-!
# Following a link until it repeats

Nodes of a finite type with at most one link each, in any shape: the links
may form cycles, and a node may link to itself. A walk follows them from
a start and stops at the end or at a node it has met. `Listing` says what
such a walk lists without saying how; there is exactly one listing.
-/

namespace IdentityService.Path

variable {ν : Type} {next next' : ν → Option ν}

/-- The nodes from `start` on, one link after the other, each once, up to
where the links end or come back to one of them. -/
structure Listing (next : ν → Option ν) (start : Option ν) (nodes : List ν) : Prop where
  nodup : nodes.Nodup
  head : nodes.head? = start
  follows : nodes.IsChain fun a b => next a = some b
  stops : ∀ last, nodes.getLast? = some last → ∀ d, next last = some d → d ∈ nodes

/-- What bounds a walk: a node met for the first time is one less to meet. -/
theorem card_unseen_lt [Fintype ν] [DecidableEq ν] {seen : List ν} {e : ν} (h : e ∉ seen) :
    (Finset.univ.filter (· ∉ seen ++ [e])).card < (Finset.univ.filter (· ∉ seen)).card := by
  apply Finset.card_lt_card
  refine ⟨?_, ?_⟩
  · intro d hd
    simp only [List.mem_append, Finset.mem_filter, Finset.mem_univ, true_and] at hd ⊢
    intro hseen
    exact hd (Or.inl hseen)
  · intro hsub
    have hmem := @hsub e (by simp [h])
    simp at hmem

/-- Follow the links from a node, past the nodes already seen. -/
def walk [Fintype ν] [DecidableEq ν] (next : ν → Option ν) (seen : List ν) : Option ν → List ν
  | none => []
  | some e => if e ∈ seen then [] else e :: walk next (seen ++ [e]) (next e)
termination_by (Finset.univ.filter (· ∉ seen)).card
decreasing_by
  rename_i h
  exact card_unseen_lt h

section
variable [Fintype ν] [DecidableEq ν]

theorem walk_none (seen : List ν) : walk next seen none = [] := by
  rw [walk]

theorem walk_seen {seen : List ν} {e : ν} (h : e ∈ seen) : walk next seen (some e) = [] := by
  rw [walk, if_pos h]

theorem walk_fresh {seen : List ν} {e : ν} (h : e ∉ seen) :
    walk next seen (some e) = e :: walk next (seen ++ [e]) (next e) := by
  rw [walk, if_neg h]

end

/-- A listing that goes on from nodes already seen. -/
structure ListingFrom (next : ν → Option ν) (seen : List ν) (start : Option ν)
    (nodes : List ν) : Prop where
  nodup : nodes.Nodup
  fresh : ∀ e ∈ nodes, e ∉ seen
  head : nodes = [] → ∀ e, start = some e → e ∈ seen
  start : ∀ e, nodes.head? = some e → start = some e
  follows : nodes.IsChain fun a b => next a = some b
  stops : ∀ last, nodes.getLast? = some last → ∀ d, next last = some d → d ∈ seen ∨ d ∈ nodes

theorem listingFrom_nil {start : Option ν} {nodes : List ν} :
    ListingFrom next [] start nodes ↔ Listing next start nodes := by
  constructor
  · intro h
    refine ⟨h.nodup, ?_, h.follows, ?_⟩
    · cases nodes with
      | nil =>
        cases start with
        | none => rfl
        | some e => exact absurd (h.head rfl e rfl) (by simp)
      | cons e rest => exact (h.start e rfl).symm
    · intro last hlast d hd
      exact (h.stops last hlast d hd).resolve_left (by simp)
  · intro h
    refine ⟨h.nodup, by simp, ?_, ?_, h.follows, ?_⟩
    · intro hempty e he
      have := h.head
      simp [hempty, he] at this
    · intro e he
      rw [← h.head, he]
    · intro last hlast d hd
      exact Or.inr (h.stops last hlast d hd)

/-- The first node of a listing, and the listing that goes on from it. -/
theorem ListingFrom.tail {seen : List ν} {start : Option ν} {e : ν} {rest : List ν}
    (h : ListingFrom next seen start (e :: rest)) :
    ListingFrom next (seen ++ [e]) (next e) rest := by
  obtain ⟨hnotin, hnodup⟩ := List.nodup_cons.mp h.nodup
  refine ⟨hnodup, ?_, ?_, ?_, h.follows.tail, ?_⟩
  · intro d hd hseen
    rcases List.mem_append.mp hseen with hold | hnew
    · exact h.fresh d (List.mem_cons_of_mem _ hd) hold
    · exact hnotin (List.mem_singleton.mp hnew ▸ hd)
  · intro hempty d hd
    subst hempty
    have := h.stops e rfl d hd
    simpa using this
  · intro d hd
    cases rest with
    | nil => simp at hd
    | cons d' rest =>
      have hlink := (List.isChain_cons_cons.mp h.follows).1
      rw [hlink, ← hd]
      rfl
  · intro last hlast d hd
    have hlast' : (e :: rest).getLast? = some last := by
      rw [List.getLast?_cons, hlast]
      rfl
    have := h.stops last hlast' d hd
    simp only [List.mem_cons, List.mem_append, List.not_mem_nil, or_false] at this ⊢
    rw [or_assoc]
    exact this

section
variable [Fintype ν] [DecidableEq ν]

theorem listingFrom_walk (seen : List ν) (start : Option ν) :
    ListingFrom next seen start (walk next seen start) := by
  fun_induction walk next seen start with
  | case1 seen => exact ⟨by simp, by simp, by simp, by simp, by simp, by simp⟩
  | case2 seen e h => exact ⟨by simp, by simp, by simp [h], by simp, by simp, by simp⟩
  | case3 seen e h ih =>
    refine ⟨?_, ?_, by simp, by simp, ?_, ?_⟩
    · refine List.nodup_cons.mpr ⟨?_, ih.nodup⟩
      intro hmem
      exact ih.fresh e hmem (by simp)
    · intro d hd
      rcases List.mem_cons.mp hd with rfl | hd
      · exact h
      · intro hseen
        exact ih.fresh d hd (by simp [hseen])
    · cases hrest : walk next (seen ++ [e]) (next e) with
      | nil => simp
      | cons d rest =>
        refine List.isChain_cons_cons.mpr ⟨?_, ?_⟩
        · exact ih.start d (by rw [hrest]; rfl)
        · rw [← hrest]
          exact ih.follows
    · intro last hlast d hd
      cases hrest : (walk next (seen ++ [e]) (next e)).getLast? with
      | none =>
        -- nothing follows `e`: its link leads nowhere new
        have hempty := List.getLast?_eq_none_iff.mp hrest
        rw [List.getLast?_cons, hrest] at hlast
        have hlast : e = last := by simpa using hlast
        subst hlast
        have := ih.head hempty d hd
        simpa [hempty] using this
      | some last' =>
        rw [List.getLast?_cons, hrest] at hlast
        have hlast : last' = last := by simpa using hlast
        subst hlast
        have := ih.stops last' hrest d hd
        simp only [List.mem_cons, List.mem_append, List.not_mem_nil, or_false] at this ⊢
        rw [or_assoc] at this
        exact this

theorem ListingFrom.eq_walk {seen : List ν} {start : Option ν} {nodes : List ν}
    (h : ListingFrom next seen start nodes) : nodes = walk next seen start := by
  induction nodes generalizing seen start with
  | nil =>
    cases start with
    | none => rw [walk_none]
    | some e => rw [walk_seen (h.head rfl e rfl)]
  | cons e rest ih =>
    rw [h.start e rfl, walk_fresh (h.fresh e (by simp)), ← ih h.tail]

theorem listing_walk (start : Option ν) : Listing next start (walk next [] start) :=
  listingFrom_nil.mp (listingFrom_walk [] start)

theorem listing_iff {start : Option ν} {nodes : List ν} :
    Listing next start nodes ↔ nodes = walk next [] start := by
  constructor
  · intro h
    exact (listingFrom_nil.mpr h).eq_walk
  · intro h
    rw [h]
    exact listing_walk start

end

/-- What a second way to follow links must do to list the same nodes: take
the same link wherever the listing goes on, and lead nowhere new from its
last node. -/
theorem listing_transfer {start : Option ν} {nodes : List ν} (h : Listing next start nodes) :
    Listing next' start nodes ↔ ∀ e ∈ nodes,
      next' e = next e ∨ (nodes.getLast? = some e ∧ ∀ d, next' e = some d → d ∈ nodes) := by
  constructor
  · intro h' e he
    obtain ⟨front, back, rfl⟩ := List.append_of_mem he
    cases back with
    | nil => exact Or.inr ⟨by simp, h'.stops e (by simp)⟩
    | cons d back =>
      have hlink := (List.isChain_append_cons_cons.mp h.follows).2.1
      have hlink' := (List.isChain_append_cons_cons.mp h'.follows).2.1
      exact Or.inl (hlink'.trans hlink.symm)
  · intro hagree
    refine ⟨h.nodup, h.head, ?_, ?_⟩
    · rw [List.isChain_iff_getElem]
      intro i hi
      have hlink := List.isChain_iff_getElem.mp h.follows i hi
      rcases hagree nodes[i] (List.getElem_mem _) with hsame | ⟨hlast, -⟩
      · rw [hsame, hlink]
      · -- a node with a successor in the listing is not the last one
        exfalso
        rw [List.getLast?_eq_getElem?, List.getElem?_eq_getElem (by omega)] at hlast
        have heq := (List.Nodup.getElem_inj_iff h.nodup).mp (Option.some.inj hlast)
        omega
    · intro last hlast d hd
      rcases hagree last (List.mem_of_getLast? hlast) with hsame | ⟨-, hnew⟩
      · rw [hsame] at hd
        exact h.stops last hlast d hd
      · exact hnew d hd

end IdentityService.Path
