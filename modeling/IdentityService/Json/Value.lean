import Mathlib.Data.List.Sort
import Mathlib.Data.String.Basic

/-!
# JSON values

Values as Python holds them: a mapping is a list of fields with distinct
keys (`Json.Proper`), and two mappings are the same if they agree up to the
order of their fields, that is, once both are sorted (`Json.sortKeys`).
-/

namespace IdentityService

/-- A JSON value, without floating-point numbers. -/
inductive Json where
  | null
  | bool (b : Bool)
  | int (n : Int)
  | str (s : String)
  | arr (items : List Json)
  | obj (fields : List (String × Json))

namespace Json

/-- The keys of every mapping are distinct, as they are in a dictionary. -/
inductive Proper : Json → Prop where
  | null : Proper .null
  | bool (b : Bool) : Proper (.bool b)
  | int (n : Int) : Proper (.int n)
  | str (s : String) : Proper (.str s)
  | arr {items : List Json} (all : ∀ v ∈ items, v.Proper) : Proper (.arr items)
  | obj {fields : List (String × Json)} (keys : (fields.map Prod.fst).Nodup)
      (all : ∀ f ∈ fields, f.2.Proper) : Proper (.obj fields)

/-- `sorted(fields.items())`: strings compare by code points, and no two
keys are equal. -/
def sortFields {α : Type} (fields : List (String × α)) : List (String × α) :=
  fields.insertionSort fun a b => a.1 ≤ b.1

mutual

/-- Every mapping in the order of its keys. -/
def sortKeys : Json → Json
  | .null => .null
  | .bool b => .bool b
  | .int n => .int n
  | .str s => .str s
  | .arr items => .arr (sortKeysItems items)
  | .obj fields => .obj (sortFields (sortKeysFields fields))

def sortKeysItems : List Json → List Json
  | [] => []
  | v :: vs => v.sortKeys :: sortKeysItems vs

def sortKeysFields : List (String × Json) → List (String × Json)
  | [] => []
  | (k, v) :: fs => (k, v.sortKeys) :: sortKeysFields fs

end

theorem sortKeysItems_eq (items : List Json) : sortKeysItems items = items.map sortKeys := by
  induction items with
  | nil => rfl
  | cons v vs ih => rw [sortKeysItems, ih, List.map_cons]

theorem sortKeysFields_eq (fields : List (String × Json)) :
    sortKeysFields fields = fields.map fun f => (f.1, f.2.sortKeys) := by
  induction fields with
  | nil => rfl
  | cons f fs ih => rw [sortKeysFields, ih, List.map_cons]

/-! ## Sorted fields -/

section
variable {α β : Type} {fields fields' : List (String × α)}

theorem perm_sortFields (fields : List (String × α)) : (sortFields fields).Perm fields :=
  List.perm_insertionSort _ fields

theorem keys_sortFields_nodup (h : (fields.map Prod.fst).Nodup) :
    ((sortFields fields).map Prod.fst).Nodup :=
  ((perm_sortFields fields).map Prod.fst).nodup_iff.mpr h

theorem mem_sortFields {f : String × α} : f ∈ sortFields fields ↔ f ∈ fields :=
  List.mem_insertionSort _

/-- The fields are in order. -/
def InOrder (fields : List (String × α)) : Prop := fields.Pairwise fun a b => a.1 ≤ b.1

theorem inOrder_sortFields (fields : List (String × α)) : InOrder (sortFields fields) := by
  have htotal : Std.Total fun a b : String × α => a.1 ≤ b.1 := ⟨fun a b => le_total a.1 b.1⟩
  have htrans : IsTrans (String × α) fun a b => a.1 ≤ b.1 := ⟨fun _ _ _ => le_trans⟩
  exact List.pairwise_insertionSort _ fields

theorem sortFields_of_inOrder (h : InOrder fields) : sortFields fields = fields :=
  h.insertionSort_eq

/-- Distinct keys have only one order. -/
theorem sortFields_perm (hperm : fields.Perm fields') (hkeys : (fields.map Prod.fst).Nodup) :
    sortFields fields = sortFields fields' := by
  have hsorted : (sortFields fields).Perm (sortFields fields') :=
    (perm_sortFields fields).trans (hperm.trans (perm_sortFields fields').symm)
  refine hsorted.eq_of_pairwise ?_ (inOrder_sortFields fields) (inOrder_sortFields fields')
  intro a b ha hb hab hba
  have hkey : a.1 = b.1 := le_antisymm hab hba
  have ha : a ∈ fields := mem_sortFields.mp ha
  have hb : b ∈ fields := hperm.mem_iff.mpr (mem_sortFields.mp hb)
  exact List.inj_on_of_nodup_map hkeys ha hb hkey

theorem sortFields_map (f : α → β) (fields : List (String × α)) :
    sortFields (fields.map fun x => (x.1, f x.2)) = (sortFields fields).map fun x => (x.1, f x.2) :=
  (List.map_insertionSort (fun a b : String × α => a.1 ≤ b.1) (fun a b : String × β => a.1 ≤ b.1)
    (fun x => (x.1, f x.2)) fields fun _ _ _ _ => Iff.rfl).symm

end

theorem Proper.sortKeys {v : Json} (h : v.Proper) : v.sortKeys.Proper := by
  induction h with
  | null => exact .null
  | bool b => exact .bool b
  | int n => exact .int n
  | str s => exact .str s
  | @arr items _ ih =>
      rw [Json.sortKeys, sortKeysItems_eq]
      refine .arr fun v hv => ?_
      obtain ⟨w, hw, rfl⟩ := List.mem_map.mp hv
      exact ih w hw
  | @obj fields keys _ ih =>
      rw [Json.sortKeys, sortKeysFields_eq]
      refine .obj (keys_sortFields_nodup ?_) fun f hf => ?_
      · simpa [Function.comp_def] using keys
      · obtain ⟨g, hg, rfl⟩ := List.mem_map.mp (mem_sortFields.mp hf)
        exact ih g hg

end Json

end IdentityService
