import IdentityService.Json.Reader
import IdentityService.Base

/-!
# Request fingerprints

`_canonicalize` puts every mapping in the order of its keys, and the items
of a sequence whose path is declared unordered in the order of their own
compact text. `compute_request_hash` hashes the compact text of the result.
Two requests have the same text exactly when they differ only in what the
declared paths leave open.

Of the values `_canonicalize` takes, these are mappings, sequences, `None`,
booleans, integers and strings; decimals have a module of their own.
-/

namespace IdentityService

/-- `JsonPath`. -/
abbrev JsonPath := List String

/-- The compact text by which `_canonicalize` sorts unordered items. -/
def sortText (v : Json) : List Char := v.dumps false

section
variable (unordered : JsonPath → Bool)

/-- A sequence at a path is put in order if the path is declared unordered. -/
def arrange (path : JsonPath) (items : List Json) : List Json :=
  if unordered path then items.insertionSort fun a b => sortText a ≤ sortText b else items

mutual

/-- `_canonicalize`. -/
def canonicalize (path : JsonPath) : Json → Json
  | .null => .null
  | .bool b => .bool b
  | .int n => .int n
  | .str s => .str s
  | .arr items => .arr (arrange unordered path (canonicalizeItems (path ++ ["[]"]) items))
  | .obj fields => .obj (Json.sortFields (canonicalizeFields path fields))

/-- Item by item, at the path of the list. -/
def canonicalizeItems (path : JsonPath) : List Json → List Json
  | [] => []
  | v :: vs => canonicalize path v :: canonicalizeItems path vs

/-- Field by field, each at its own path. -/
def canonicalizeFields (path : JsonPath) : List (String × Json) → List (String × Json)
  | [] => []
  | (k, v) :: fs => (k, canonicalize (path ++ [k]) v) :: canonicalizeFields path fs

end

/-- What `compute_request_hash` hashes. -/
def requestBytes (payload : Json) : ByteArray :=
  (String.ofList ((canonicalize unordered [] payload).dumps false)).toUTF8

/-- `compute_request_hash`. -/
def computeRequestHash (sha256 : ByteArray → Digest) (payload : Json) : Digest :=
  sha256 (requestBytes unordered payload)

end

/-- A request that is equal but for the order of its mappings' keys and of
the sequences at the paths declared unordered: the least congruence with
these two rules, at the path where it is looked at. -/
inductive SameRequest (unordered : JsonPath → Bool) : JsonPath → Json → Json → Prop where
  | refl (path : JsonPath) (v : Json) : SameRequest unordered path v v
  | symm {path : JsonPath} {v w : Json} (h : SameRequest unordered path v w) :
      SameRequest unordered path w v
  | trans {path : JsonPath} {u v w : Json} (h : SameRequest unordered path u v)
      (h' : SameRequest unordered path v w) : SameRequest unordered path u w
  | item {path : JsonPath} {v w : Json} (before after : List Json)
      (h : SameRequest unordered (path ++ ["[]"]) v w) :
      SameRequest unordered path (.arr (before ++ v :: after)) (.arr (before ++ w :: after))
  | field {path : JsonPath} {v w : Json} (key : String) (before after : List (String × Json))
      (h : SameRequest unordered (path ++ [key]) v w) :
      SameRequest unordered path (.obj (before ++ (key, v) :: after))
        (.obj (before ++ (key, w) :: after))
  | keys {path : JsonPath} {fields fields' : List (String × Json)} (h : fields.Perm fields') :
      SameRequest unordered path (.obj fields) (.obj fields')
  | items {path : JsonPath} {items items' : List Json} (declared : unordered path = true)
      (h : items.Perm items') : SameRequest unordered path (.arr items) (.arr items')

/-! ## The canonical form -/

section
variable {unordered : JsonPath → Bool}

theorem canonicalizeItems_eq (path : JsonPath) (items : List Json) :
    canonicalizeItems unordered path items = items.map (canonicalize unordered path) := by
  induction items with
  | nil => rfl
  | cons v vs ih => rw [canonicalizeItems, ih, List.map_cons]

theorem canonicalizeFields_eq (path : JsonPath) (fields : List (String × Json)) :
    canonicalizeFields unordered path fields =
      fields.map fun f => (f.1, canonicalize unordered (path ++ [f.1]) f.2) := by
  induction fields with
  | nil => rfl
  | cons f fs ih => rw [canonicalizeFields, ih, List.map_cons]

theorem perm_arrange (path : JsonPath) (items : List Json) :
    (arrange unordered path items).Perm items := by
  unfold arrange
  by_cases hopen : unordered path = true
  · rw [if_pos hopen]
    exact List.perm_insertionSort _ items
  · rw [if_neg hopen]

theorem keys_canonicalizeFields (path : JsonPath) (fields : List (String × Json)) :
    (fields.map fun f => (f.1, canonicalize unordered (path ++ [f.1]) f.2)).map Prod.fst =
      fields.map Prod.fst := by
  rw [List.map_map]
  rfl

theorem canonicalize_proper {v : Json} (h : v.Proper) (path : JsonPath) :
    (canonicalize unordered path v).Proper := by
  induction h generalizing path with
  | null => exact .null
  | bool b => exact .bool b
  | int n => exact .int n
  | str s => exact .str s
  | @arr items _ ih =>
      rw [canonicalize, canonicalizeItems_eq]
      refine .arr fun v hv => ?_
      obtain ⟨w, hw, rfl⟩ := List.mem_map.mp ((perm_arrange path _).mem_iff.mp hv)
      exact ih w hw _
  | @obj fields keys _ ih =>
      rw [canonicalize, canonicalizeFields_eq]
      refine .obj (Json.keys_sortFields_nodup ?_) fun f hf => ?_
      · rw [keys_canonicalizeFields]
        exact keys
      · obtain ⟨g, hg, rfl⟩ := List.mem_map.mp (Json.mem_sortFields.mp hf)
        exact ih g hg _

/-- The keys of a canonical form are in order already. -/
theorem sortKeys_canonicalize {v : Json} (h : v.Proper) (path : JsonPath) :
    (canonicalize unordered path v).sortKeys = canonicalize unordered path v := by
  induction h generalizing path with
  | null => rfl
  | bool b => rfl
  | int n => rfl
  | str s => rfl
  | @arr items _ ih =>
      rw [canonicalize, canonicalizeItems_eq, Json.sortKeys, Json.sortKeysItems_eq]
      congr 1
      refine (List.map_congr_left fun v hv => ?_).trans (List.map_id _)
      obtain ⟨w, hw, rfl⟩ := List.mem_map.mp ((perm_arrange path _).mem_iff.mp hv)
      exact ih w hw _
  | @obj fields keys _ ih =>
      rw [canonicalize, canonicalizeFields_eq, Json.sortKeys, Json.sortKeysFields_eq]
      have hsame : ∀ f ∈ Json.sortFields
          (fields.map fun f => (f.1, canonicalize unordered (path ++ [f.1]) f.2)),
          (f.1, f.2.sortKeys) = f := by
        intro f hf
        obtain ⟨g, hg, rfl⟩ := List.mem_map.mp (Json.mem_sortFields.mp hf)
        rw [ih g hg]
      rw [(List.map_congr_left hsame).trans (List.map_id _),
        Json.sortFields_of_inOrder (Json.inOrder_sortFields _)]

theorem dumps_canonicalize {v : Json} (h : v.Proper) (path : JsonPath) :
    (canonicalize unordered path v).dumps false = (canonicalize unordered path v).write false := by
  rw [Json.dumps, sortKeys_canonicalize h]

/-! ## From the text to the request -/

theorem sameRequest_items {path : JsonPath} {f : Json → Json} {items : List Json}
    (h : ∀ v ∈ items, SameRequest unordered (path ++ ["[]"]) v (f v)) :
    SameRequest unordered path (.arr items) (.arr (items.map f)) := by
  -- one item after the other, behind those already replaced
  have hstep : ∀ done todo : List Json,
      (∀ v ∈ todo, SameRequest unordered (path ++ ["[]"]) v (f v)) →
      SameRequest unordered path (.arr (done ++ todo)) (.arr (done ++ todo.map f)) := by
    intro done todo
    induction todo generalizing done with
    | nil => exact fun _ => .refl path _
    | cons v todo ih =>
        intro htodo
        have hfirst := SameRequest.item done todo (htodo v List.mem_cons_self)
        have hrest := ih (done ++ [f v]) fun w hw => htodo w (List.mem_cons_of_mem _ hw)
        simp only [List.append_assoc, List.cons_append, List.nil_append] at hrest
        exact hfirst.trans hrest
  exact hstep [] items h

theorem sameRequest_fields {path : JsonPath} (f : String → Json → Json)
    {fields : List (String × Json)}
    (h : ∀ m ∈ fields, SameRequest unordered (path ++ [m.1]) m.2 (f m.1 m.2)) :
    SameRequest unordered path (.obj fields) (.obj (fields.map fun m => (m.1, f m.1 m.2))) := by
  have hstep : ∀ done todo : List (String × Json),
      (∀ m ∈ todo, SameRequest unordered (path ++ [m.1]) m.2 (f m.1 m.2)) →
      SameRequest unordered path (.obj (done ++ todo))
        (.obj (done ++ todo.map fun m => (m.1, f m.1 m.2))) := by
    intro done todo
    induction todo generalizing done with
    | nil => exact fun _ => .refl path _
    | cons m todo ih =>
        intro htodo
        have hfirst := SameRequest.field m.1 done todo (htodo m List.mem_cons_self)
        have hrest := ih (done ++ [(m.1, f m.1 m.2)])
          fun n hn => htodo n (List.mem_cons_of_mem _ hn)
        simp only [List.append_assoc, List.cons_append, List.nil_append] at hrest
        exact hfirst.trans hrest
  exact hstep [] fields h

theorem sameRequest_arrange (path : JsonPath) (items : List Json) :
    SameRequest unordered path (.arr items) (.arr (arrange unordered path items)) := by
  by_cases hopen : unordered path = true
  · exact .items hopen (perm_arrange path items).symm
  · rw [arrange, if_neg hopen]
    exact .refl path _

/-- The canonical form is the same request. -/
theorem sameRequest_canonicalize {v : Json} (h : v.Proper) (path : JsonPath) :
    SameRequest unordered path v (canonicalize unordered path v) := by
  induction h generalizing path with
  | null => exact .refl path _
  | bool b => exact .refl path _
  | int n => exact .refl path _
  | str s => exact .refl path _
  | @arr items _ ih =>
      rw [canonicalize, canonicalizeItems_eq]
      exact (sameRequest_items fun v hv => ih v hv _).trans (sameRequest_arrange path _)
  | @obj fields _ _ ih =>
      rw [canonicalize, canonicalizeFields_eq]
      have hfields : SameRequest unordered path (.obj fields)
          (.obj (fields.map fun m => (m.1, canonicalize unordered (path ++ [m.1]) m.2))) :=
        sameRequest_fields (fun k v => canonicalize unordered (path ++ [k]) v)
          fun m hm => ih m hm _
      exact hfields.trans (.keys (Json.perm_sortFields _).symm)

/-! ## From the request to the text -/

/-- The text of the canonical form. -/
def canonicalText (unordered : JsonPath → Bool) (path : JsonPath) (v : Json) : List Char :=
  (canonicalize unordered path v).write false

/-- Sorting items by their text sorts their texts. -/
theorem canonicalText_arr {path : JsonPath} {items : List Json} (h : ∀ v ∈ items, v.Proper) :
    canonicalText unordered path (.arr items) =
      '[' :: Json.commaSep
        (if unordered path then
          (items.map (canonicalText unordered (path ++ ["[]"]))).insertionSort (· ≤ ·)
        else
          items.map (canonicalText unordered (path ++ ["[]"]))) ++ [']'] := by
  rw [canonicalText, canonicalize, canonicalizeItems_eq, Json.write, Json.writeItems_eq, arrange]
  by_cases hopen : unordered path = true
  · have hkey : ∀ a ∈ items.map (canonicalize unordered (path ++ ["[]"])),
        sortText a = a.write false := by
      intro a ha
      obtain ⟨v, hv, rfl⟩ := List.mem_map.mp ha
      exact dumps_canonicalize (h v hv) _
    have hsort := List.map_insertionSort (fun a b : Json => sortText a ≤ sortText b)
      (fun a b : List Char => a ≤ b) (Json.write false)
      (items.map (canonicalize unordered (path ++ ["[]"])))
      (fun a ha b hb => by rw [hkey a ha, hkey b hb])
    rw [if_pos hopen, if_pos hopen, hsort, List.map_map]
    rfl
  · rw [if_neg hopen, if_neg hopen, List.map_map]
    rfl

theorem canonicalText_obj {path : JsonPath} {fields : List (String × Json)} :
    canonicalText unordered path (.obj fields) =
      '{' :: Json.commaSep ((Json.sortFields
        (fields.map fun f => (f.1, canonicalText unordered (path ++ [f.1]) f.2))).map
          fun f => Json.quote false f.1 ++ ':' :: f.2) ++ ['}'] := by
  have htexts : (fields.map fun f => (f.1, canonicalText unordered (path ++ [f.1]) f.2)) =
      (fields.map fun f => (f.1, canonicalize unordered (path ++ [f.1]) f.2)).map
        fun f => (f.1, f.2.write false) := by
    rw [List.map_map]
    rfl
  rw [canonicalText, canonicalize, canonicalizeFields_eq, Json.write, Json.writeFields_eq, htexts,
    Json.sortFields_map, List.map_map]
  rfl

theorem sort_perm {texts texts' : List (List Char)} (h : texts.Perm texts') :
    texts.insertionSort (· ≤ ·) = texts'.insertionSort (· ≤ ·) := by
  have hsorted : (texts.insertionSort (· ≤ ·)).Perm (texts'.insertionSort (· ≤ ·)) :=
    (List.perm_insertionSort _ texts).trans (h.trans (List.perm_insertionSort _ texts').symm)
  exact hsorted.eq_of_pairwise (fun _ _ _ _ => le_antisymm) (List.pairwise_insertionSort _ texts)
    (List.pairwise_insertionSort _ texts')

theorem proper_arr_iff {items : List Json} : (Json.arr items).Proper ↔ ∀ v ∈ items, v.Proper := by
  constructor
  · rintro ⟨⟩
    assumption
  · exact .arr

theorem proper_obj_iff {fields : List (String × Json)} :
    (Json.obj fields).Proper ↔ (fields.map Prod.fst).Nodup ∧ ∀ f ∈ fields, f.2.Proper := by
  constructor
  · rintro ⟨⟩
    constructor <;> assumption
  · rintro ⟨keys, all⟩
    exact .obj keys all

/-- A request and its equals are built of dictionaries alike. -/
theorem SameRequest.proper_iff {path : JsonPath} {v w : Json}
    (h : SameRequest unordered path v w) : v.Proper ↔ w.Proper := by
  induction h with
  | refl path v => rfl
  | symm _ ih => exact ih.symm
  | trans _ _ ih ih' => exact ih.trans ih'
  | item before after _ ih =>
      rw [proper_arr_iff, proper_arr_iff]
      simp only [List.mem_append, List.mem_cons, or_imp, forall_and, forall_eq, ih]
  | field key before after _ ih =>
      rw [proper_obj_iff, proper_obj_iff]
      simp only [List.map_append, List.map_cons, List.mem_append, List.mem_cons, or_imp,
        forall_and, forall_eq, ih]
  | keys hperm =>
      rw [proper_obj_iff, proper_obj_iff, (hperm.map Prod.fst).nodup_iff]
      simp only [hperm.mem_iff]
  | items _ hperm =>
      rw [proper_arr_iff, proper_arr_iff]
      simp only [hperm.mem_iff]

theorem SameRequest.canonicalText_eq {path : JsonPath} {v w : Json}
    (h : SameRequest unordered path v w) (hv : v.Proper) :
    canonicalText unordered path v = canonicalText unordered path w := by
  induction h with
  | refl path v => rfl
  | symm h ih => exact (ih (h.proper_iff.mpr hv)).symm
  | trans h _ ih ih' => exact (ih hv).trans (ih' (h.proper_iff.mp hv))
  | item before after h ih =>
      have hitems := proper_arr_iff.mp hv
      have hitem := ih (hitems _ (by simp))
      have hitems' := proper_arr_iff.mp ((SameRequest.item before after h).proper_iff.mp hv)
      rw [canonicalText_arr hitems, canonicalText_arr hitems']
      simp only [List.map_append, List.map_cons, hitem]
  | field key before after h ih =>
      have hfield := ih ((proper_obj_iff.mp hv).2 (key, _) (by simp))
      rw [canonicalText_obj, canonicalText_obj]
      simp only [List.map_append, List.map_cons, hfield]
  | keys hperm =>
      obtain ⟨hkeys, -⟩ := proper_obj_iff.mp hv
      rw [canonicalText_obj, canonicalText_obj, Json.sortFields_perm (hperm.map _)]
      rw [List.map_map]
      exact hkeys
  | items declared hperm =>
      have hitems := proper_arr_iff.mp hv
      have hitems' := proper_arr_iff.mp ((SameRequest.items declared hperm).proper_iff.mp hv)
      rw [canonicalText_arr hitems, canonicalText_arr hitems', if_pos declared, if_pos declared,
        sort_perm (hperm.map _)]

end

/-- A payload tree: what a caller can pass. -/
structure PayloadTree where
  value : Json
  proper : value.Proper

/-- What is hashed for two requests is equal exactly when they are the same
request. -/
theorem requestBytes_eq_iff (unordered : JsonPath → Bool) (p q : PayloadTree) :
    requestBytes unordered p.value = requestBytes unordered q.value ↔
      SameRequest unordered [] p.value q.value := by
  have htext : ∀ r : PayloadTree, requestBytes unordered r.value =
      (String.ofList (canonicalText unordered [] r.value)).toUTF8 := by
    intro r
    rw [requestBytes, dumps_canonicalize r.proper, canonicalText]
  rw [htext p, htext q]
  constructor
  · intro hbytes
    have hstring := String.toByteArray_inj.mp hbytes
    have hwrite := String.ofList_injective hstring
    have hcanon := Json.write_inj (canonicalize_proper p.proper [])
      (canonicalize_proper q.proper [])
      hwrite
    have hp : SameRequest unordered [] p.value _ := sameRequest_canonicalize p.proper []
    have hq : SameRequest unordered [] q.value _ := sameRequest_canonicalize q.proper []
    rw [hcanon] at hp
    exact hp.trans hq.symm
  · intro hsame
    rw [hsame.canonicalText_eq p.proper]

end IdentityService
