import IdentityService.Idempotency.EntryProtocol

/-!
# Storage keys and identities

`_storage_key` joins the subject, the operation and the key hash with zero
bytes. The model of an identity bounds the two texts but lets them contain
the separator, so the bytes can be cut at another zero: which identities
this gives a second reading, and that all the others have keys of their
own.
-/

namespace IdentityService

namespace IdempotencyIdentity

/-- What `_storage_key` feeds to SHA-256. -/
def storageMaterial (identity : IdempotencyIdentity) : List UInt8 :=
  utf8 identity.subjectId ++ 0 :: utf8 identity.operation ++ 0 :: identity.keyHash.bytes

/-- A zero in one of the two texts where another identity ends its subject:
after a nonempty part of the subject, the rest of which fits into an
operation, or before a nonempty part of the operation, the start of which
fits into a subject. -/
def Resplits (identity : IdempotencyIdentity) : Prop :=
  (∃ front back, identity.subjectId.toList = front ++ '\x00' :: back ∧ front ≠ [] ∧
    back.length + 1 + identity.operation.length ≤ 100) ∨
  (∃ front back, identity.operation.toList = front ++ '\x00' :: back ∧ back ≠ [] ∧
    identity.subjectId.length + 1 + front.length ≤ 255)

end IdempotencyIdentity

theorem ValkeyConfig.storageKey_eq (cfg : ValkeyConfig) (identity : IdempotencyIdentity) :
    cfg.storageKey identity =
      cfg.keyNamespace ++ ":" ++ (cfg.sha256 identity.storageMaterial).hex := rfl

theorem utf8_append (s t : String) : utf8 (s ++ t) = utf8 s ++ utf8 t := by
  simp [utf8]

theorem utf8_nul : utf8 "\x00" = [0] := by decide

theorem append_cons_cut {α : Type} {front back front' back' : List α} {c : α}
    (h : front ++ c :: back = front' ++ c :: back') :
    (front = front' ∧ back = back') ∨
    (∃ middle, front = front' ++ c :: middle ∧ back' = middle ++ c :: back) ∨
    (∃ middle, front' = front ++ c :: middle ∧ back = middle ++ c :: back') := by
  rcases List.append_eq_append_iff.mp h with ⟨between, hfront, hback⟩ | ⟨between, hfront, hback⟩
  · cases between with
    | nil =>
      simp only [List.nil_append, List.cons.injEq, true_and] at hback
      exact Or.inl ⟨by simpa using hfront.symm, hback⟩
    | cons d middle =>
      simp only [List.cons_append, List.cons.injEq] at hback
      obtain ⟨rfl, hback⟩ := hback
      exact Or.inr (Or.inr ⟨middle, hfront, hback⟩)
  · cases between with
    | nil =>
      simp only [List.nil_append, List.cons.injEq, true_and] at hback
      exact Or.inl ⟨by simpa using hfront, hback.symm⟩
    | cons d middle =>
      simp only [List.cons_append, List.cons.injEq] at hback
      obtain ⟨rfl, hback⟩ := hback
      exact Or.inr (Or.inl ⟨middle, hfront, hback⟩)

namespace IdempotencyIdentity

/-- The bytes are those of one text, up to the key hash. -/
theorem storageMaterial_eq (a : IdempotencyIdentity) :
    a.storageMaterial =
      utf8 (a.subjectId ++ "\x00" ++ a.operation ++ "\x00") ++ a.keyHash.bytes := by
  simp [storageMaterial, utf8_append, utf8_nul]

/-- The digest has a fixed length, so the bytes give it and the text before
it. -/
theorem storageMaterial_eq_iff (a b : IdempotencyIdentity) :
    a.storageMaterial = b.storageMaterial ↔
      a.subjectId.toList ++ '\x00' :: a.operation.toList =
        b.subjectId.toList ++ '\x00' :: b.operation.toList ∧ a.keyHash = b.keyHash := by
  rw [storageMaterial_eq, storageMaterial_eq]
  constructor
  · intro h
    obtain ⟨htext, hhash⟩ := List.append_inj' h (by rw [a.keyHash.size, b.keyHash.size])
    constructor
    · have hchars := congrArg String.toList (utf8_inj htext)
      simp only [String.toList_append] at hchars
      have hcut := List.append_inj_left' hchars rfl
      simpa using hcut
    · cases ha : a.keyHash
      cases hb : b.keyHash
      simpa [ha, hb] using hhash
  · rintro ⟨htext, hhash⟩
    have hstring : a.subjectId ++ "\x00" ++ a.operation = b.subjectId ++ "\x00" ++ b.operation := by
      apply String.toList_injective
      simpa using htext
    rw [hstring, hhash]

theorem ext_fields {a b : IdempotencyIdentity} (hsubject : a.subjectId = b.subjectId)
    (hoperation : a.operation = b.operation) (hhash : a.keyHash = b.keyHash) : a = b := by
  cases a
  cases b
  simp_all

/-- An identity whose bytes another one shares has a zero in the wrong
place. -/
theorem resplits_of_shared {a b : IdempotencyIdentity}
    (h : a.storageMaterial = b.storageMaterial) (hne : a ≠ b) : a.Resplits := by
  obtain ⟨htext, hhash⟩ := (storageMaterial_eq_iff a b).mp h
  rcases append_cons_cut htext with
    ⟨hsubject, hoperation⟩ | ⟨middle, hsubject, hoperation⟩ | ⟨middle, hsubject, hoperation⟩
  · exact absurd (ext_fields (String.toList_injective hsubject)
      (String.toList_injective hoperation) hhash) hne
  · -- `b` ends its subject at a zero of `a`'s subject
    refine Or.inl ⟨b.subjectId.toList, middle, hsubject, ?_, ?_⟩
    · intro hempty
      have := b.subjectIdSize.1
      rw [← String.length_toList, hempty] at this
      simp at this
    · have hlength := congrArg List.length hoperation
      have := b.operationSize.2
      simp only [String.length_toList, List.length_append, List.length_cons] at hlength
      omega
  · -- `b` ends its subject at a zero of `a`'s operation
    refine Or.inr ⟨middle, b.operation.toList, hoperation, ?_, ?_⟩
    · intro hempty
      have := b.operationSize.1
      rw [← String.length_toList, hempty] at this
      simp at this
    · have hlength := congrArg List.length hsubject
      have := b.subjectIdSize.2
      simp only [String.length_toList, List.length_append, List.length_cons] at hlength
      omega

/-- The identity that ends its subject at the other zero. -/
theorem Resplits.shared {a : IdempotencyIdentity} (h : a.Resplits) :
    ∃ b, a.storageMaterial = b.storageMaterial ∧ a ≠ b := by
  have hsubject := a.subjectIdSize
  have hoperation := a.operationSize
  rcases h with ⟨front, back, htext, hne, hsize⟩ | ⟨front, back, htext, hne, hsize⟩
  · have hlength := congrArg List.length htext
    have hfront := List.length_pos_iff.mpr hne
    simp only [String.length_toList, List.length_append, List.length_cons] at hlength
    let b : IdempotencyIdentity :=
      { subjectId := String.ofList front
        operation := String.ofList (back ++ '\x00' :: a.operation.toList)
        keyHash := a.keyHash
        subjectIdSize := by simp only [String.length_ofList]; omega
        operationSize := by
          simp only [String.length_ofList, List.length_append, List.length_cons,
            String.length_toList]
          omega }
    refine ⟨b, (storageMaterial_eq_iff a b).mpr ⟨?_, rfl⟩, ?_⟩
    · simp [b, htext]
    · intro hab
      have hshort : a.subjectId.length = front.length := by rw [hab]; simp [b]
      omega
  · have hlength := congrArg List.length htext
    have hback := List.length_pos_iff.mpr hne
    simp only [String.length_toList, List.length_append, List.length_cons] at hlength
    let b : IdempotencyIdentity :=
      { subjectId := String.ofList (a.subjectId.toList ++ '\x00' :: front)
        operation := String.ofList back
        keyHash := a.keyHash
        subjectIdSize := by
          simp only [String.length_ofList, List.length_append, List.length_cons,
            String.length_toList]
          omega
        operationSize := by simp only [String.length_ofList]; omega }
    refine ⟨b, (storageMaterial_eq_iff a b).mpr ⟨?_, rfl⟩, ?_⟩
    · simp [b, htext]
    · intro hab
      have hshort : a.operation.length = back.length := by rw [hab]; simp [b]
      omega

theorem separate_iff (a : IdempotencyIdentity) :
    (∀ b : IdempotencyIdentity, a.storageMaterial = b.storageMaterial ↔ a = b) ↔
      ¬ a.Resplits := by
  constructor
  · intro hseparate hresplits
    obtain ⟨b, hshared, hne⟩ := hresplits.shared
    exact hne ((hseparate b).mp hshared)
  · intro hresplits b
    constructor
    · intro hshared
      by_contra hne
      exact hresplits (resplits_of_shared hshared hne)
    · intro hab
      rw [hab]

end IdempotencyIdentity

/-- The identity a call is for. -/
def HotEvent.identity? : HotEvent → Option IdempotencyIdentity
  | .begin identity _ _ => some identity
  | .renew identity _ => some identity
  | .complete identity _ _ => some identity
  | .abandon identity _ => some identity
  | .vanish _ => none

theorem HotEvent.key_of_identity {cfg : ValkeyConfig} {event : HotEvent}
    {identity : IdempotencyIdentity} (h : event.identity? = some identity) :
    event.key cfg = cfg.storageKey identity := by
  cases event <;> simp only [HotEvent.identity?, Option.some.injEq, reduceCtorEq] at h <;>
    simp only [HotEvent.key, h]

namespace ValkeyConfig

/-- SHA-256 gives the bytes of this identity and other bytes one digest. -/
def Collides (cfg : ValkeyConfig) (a : IdempotencyIdentity) : Prop :=
  ∃ b : IdempotencyIdentity, a.storageMaterial ≠ b.storageMaterial ∧
    cfg.sha256 a.storageMaterial = cfg.sha256 b.storageMaterial

theorem storageKey_eq_iff {cfg : ValkeyConfig} {a : IdempotencyIdentity}
    (hsha : ¬ cfg.Collides a) (b : IdempotencyIdentity) :
    cfg.storageKey a = cfg.storageKey b ↔ a.storageMaterial = b.storageMaterial := by
  rw [storageKey_eq, storageKey_eq]
  constructor
  · intro h
    have hdigest := Digest.hex_inj (String.append_right_inj _ |>.mp h)
    by_contra hne
    exact hsha ⟨b, hne, hdigest⟩
  · intro h
    rw [h]

/-- With the bytes its own, an identity has an entry that no call for
another identity reads or writes. -/
theorem step_other_identity {cfg : ValkeyConfig} {a b : IdempotencyIdentity}
    (hsha : ¬ cfg.Collides a) (hresplits : ¬ a.Resplits) (hne : a ≠ b) {event : HotEvent}
    (hevent : event.identity? = some b) (entries : Entries) :
    entries.step cfg event (cfg.storageKey a) = entries (cfg.storageKey a) := by
  apply step_other entries
  rw [HotEvent.key_of_identity hevent]
  intro hkey
  have hshared := (storageKey_eq_iff hsha b).mp hkey.symm
  exact hne ((a.separate_iff.mpr hresplits b).mp hshared)

/-- Exactly the identities without a misplaced zero have bytes of their own,
and then, unless SHA-256 collides there, a key of their own and an entry
that calls for other identities leave alone. -/
theorem storage_keys_separate_iff (cfg : ValkeyConfig) (a : IdempotencyIdentity)
    (hsha : ¬ cfg.Collides a) :
    ((∀ b : IdempotencyIdentity, a.storageMaterial = b.storageMaterial ↔ a = b) ↔
      ¬ a.Resplits) ∧
    ((∀ b : IdempotencyIdentity, cfg.storageKey a = cfg.storageKey b ↔ a = b) ↔
      ¬ a.Resplits) ∧
    (¬ a.Resplits → ∀ (b : IdempotencyIdentity) (event : HotEvent) (entries : Entries),
      a ≠ b → event.identity? = some b →
      entries.step cfg event (cfg.storageKey a) = entries (cfg.storageKey a)) := by
  refine ⟨a.separate_iff, ?_, ?_⟩
  · simp only [storageKey_eq_iff hsha]
    exact a.separate_iff
  · intro hresplits b event entries hne hevent
    exact step_other_identity hsha hresplits hne hevent entries

end ValkeyConfig

section
open IdempotencyIdentity ValkeyConfig

/-- An identity under the key hash of 32 ones. -/
def Sample.scoped (subjectId operation : String)
    (hsubject : 1 ≤ subjectId.length ∧ subjectId.length ≤ 255)
    (hoperation : 1 ≤ operation.length ∧ operation.length ≤ 100) : IdempotencyIdentity :=
  ⟨subjectId, operation, Sample.digest 1, hsubject, hoperation⟩

def Sample.customer : IdempotencyIdentity :=
  Sample.scoped "customer-a" "create_order" (by decide) (by decide)

/-- SHA-256 on the bytes of the customer above; elsewhere it does not
matter. -/
def Sample.customerConfig : ValkeyConfig where
  sha256 material :=
    if material = Sample.customer.storageMaterial then
      ⟨[65, 172, 234, 72, 95, 94, 168, 237, 116, 50, 215, 94, 223, 146, 209, 18, 168, 42, 36,
      49, 70, 72, 58, 8, 190, 58, 114, 108, 92, 163, 64, 43], by decide⟩
    else
      Sample.digest 0
  keyNamespace := "idempotency"
  reader := JsonReader.strict

theorem Sample.customer_not_resplits : ¬ Sample.customer.Resplits := by
  rintro (⟨front, back, htext, -, -⟩ | ⟨front, back, htext, -, -⟩)
  · have hmem : '\x00' ∈ Sample.customer.subjectId.toList := by simp [htext]
    exact absurd hmem (by decide)
  · have hmem : '\x00' ∈ Sample.customer.operation.toList := by simp [htext]
    exact absurd hmem (by decide)

theorem Sample.customer_not_collides : ¬ Sample.customerConfig.Collides Sample.customer := by
  intro ⟨b, hne, hdigest⟩
  simp only [Sample.customerConfig, if_true, if_neg (Ne.symm hne)] at hdigest
  exact absurd hdigest (by decide)

theorem storage_keys_separate_customer :
    ¬ Sample.customerConfig.Collides Sample.customer ∧ ¬ Sample.customer.Resplits ∧
    ∀ b, Sample.customerConfig.storageKey Sample.customer = Sample.customerConfig.storageKey b ↔
      Sample.customer = b :=
  ⟨Sample.customer_not_collides, Sample.customer_not_resplits,
    (storage_keys_separate_iff Sample.customerConfig Sample.customer
      Sample.customer_not_collides).2.1.mpr Sample.customer_not_resplits⟩

/-- A zero in the subject of the one is the separator of the other. -/
theorem storage_material_shared :
    ¬ ∀ a b : IdempotencyIdentity, a.storageMaterial = b.storageMaterial ↔ a = b := by
  intro hseparate
  let a := Sample.scoped "a\x00b" "c" (by decide) (by decide)
  let b := Sample.scoped "a" "b\x00c" (by decide) (by decide)
  have hshared : a.storageMaterial = b.storageMaterial :=
    (storageMaterial_eq_iff a b).mpr ⟨by decide, rfl⟩
  have hsubject := congrArg IdempotencyIdentity.subjectId ((hseparate a b).mp hshared)
  exact absurd hsubject (by decide)

end

end IdentityService
