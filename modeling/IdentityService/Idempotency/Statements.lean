import IdentityService.Idempotency.Outline

/-!
# Inside a transaction

The rules of `Rules` for code that runs inside one open transaction, one
for each statement. What the transaction has staged and what it was granted
is tracked exactly (`InTx`); everything else it knows is a `Lasting` fact,
one that its own further statements do not touch and the others cannot.
The typical one is a row it holds the lock of (`Held`).
-/

namespace IdentityService

open Concurrent

variable {B : Business} {C : ResultCodec} {i : Nat} {w w' : World B C}

/-! ## Callbacks as programs -/

namespace Operation

theorem run_bind {α β : Type} (p : Operation B α) (f : α → Operation B β) :
    Operation.run (p.bind f) = (Operation.run p).bind fun a => Operation.run (f a) := by
  induction p with
  | ret a => rfl
  | throw x => rfl
  | op e k ih =>
      show Prog.op _ _ = Prog.op _ _
      congr
      funext r
      exact ih _

/-- One statement of a callback is one statement of its caller. -/
theorem run_perform (e : OpEff B) :
    Operation.run (Prog.perform (S := opSig B) e) =
      (ask e.toEff).bind fun a => .ret (e.ofResp a) := by
  show Prog.op _ _ = Prog.op _ _
  congr
  funext r
  cases r <;> rfl

end Operation

/-! ## What lasts -/

/-- A further statement of the same transaction. -/
structure Own (i : Nat) (w w' : World B C) : Prop where
  rows : w'.store.rows = w.store.rows
  log : w'.store.log = w.store.log
  clock : w'.clock = w.clock
  holder : ∀ k, w.store.holder k = some i → w'.store.holder k = some i
  seen : ∀ k, w.store.seen i k = true → w'.store.seen i k = true

theorem Own.note (k : Key B) : Own i w (w.withStore (w.store.note i k)) := by
  refine ⟨rfl, rfl, rfl, fun _ h => h, fun k' hk => ?_⟩
  simp only [withStore_store, Store.note, Function.update_self]
  by_cases hkk : k' = k
  · simp [hkk]
  · simpa [hkk] using hk

theorem Own.grant (k : Key B) (r : k.Row) : Own i w (w.withStore (w.store.grant i k r)) :=
  ⟨rfl, rfl, rfl, fun _ h => Store.acquire_holds h, fun _ h => h⟩

theorem Own.stage (k : Key B) (r : k.Row) : Own i w (w.withStore (w.store.stage i k r)) :=
  ⟨rfl, rfl, rfl, fun _ h => Store.acquire_holds h, fun _ h => h⟩

/-- A fact that neither the others nor the process itself breaks. -/
structure Lasting (R : Rules B C) (i : Nat) (F : World B C → Prop) : Prop where
  stable : R.spec.Stable i F
  own : ∀ w w', R.con w w' → Own i w w' → F w → F w'

/-- Transaction `i` holds key `k`, where it found `v`. -/
def Held (i : Nat) (k : Key B) (v : Option k.Row) (w : World B C) : Prop :=
  w.store.rows k = v ∧ w.store.holder k = some i

section Lasting

variable {R : Rules B C} {F G : World B C → Prop}

theorem Lasting.and (h : Lasting R i F) (h' : Lasting R i G) : Lasting R i fun w => F w ∧ G w :=
  ⟨h.stable.and h'.stable,
    fun w w' hc ho hf => ⟨h.own w w' hc ho hf.1, h'.own w w' hc ho hf.2⟩⟩

theorem Lasting.const (p : Prop) : Lasting R i fun _ => p :=
  ⟨Spec.Stable.const p, fun _ _ _ _ h => h⟩

theorem lasting_held (k : Key B) (v : Option k.Row) : Lasting R i (Held i k v) := by
  refine ⟨fun w w' _ _ _ _ ho h => ?_, fun w w' _ ho h => ?_⟩
  · exact ⟨(ho.keeps.rows k h.2).trans h.1, (ho.keeps.holder k).mpr h.2⟩
  · exact ⟨by rw [ho.rows]; exact h.1, ho.holder k h.2⟩

end Lasting

/-- Where the transaction stands: its write set, what it was granted, and
what it knows. -/
structure InTx (i : Nat) (wr : (k : Key B) → Option k.Row) (gr : List (Sigma (Key.Row (B := B))))
    (F : World B C → Prop) (w : World B C) : Prop where
  staged : w.store.staged i = wr
  granted : w.store.granted i = gr
  known : F w

/-- The database failed. -/
abbrev Failed (i : Nat) : Exn → World B C → Prop := Faulted i fun _ => True

/-- Something raised: the database, or else the transaction stands where it
stood. -/
def Stuck (i : Nat) (gr : List (Sigma (Key.Row (B := B)))) (x : Exn) (w : World B C) : Prop :=
  x.foreign = true ∧ (w.failed i = true ∨ w.store.granted i = gr)

section Rules

variable {R : Rules B C} {wr : (k : Key B) → Option k.Row} {gr : List (Sigma (Key.Row (B := B)))}
  {F : World B C → Prop}

theorem InTx.stable (hF : Lasting R i F) : R.spec.Stable i (InTx i wr gr F) :=
  fun w w' hw hw' hc hg ho h => ⟨ho.keeps.staged.trans h.staged, ho.keeps.granted.trans h.granted,
    hF.stable w w' hw hw' hc hg ho h.known⟩

theorem InTx.weaken {G : World B C → Prop} (h : InTx i wr gr F w) (hG : F w → G w) :
    InTx i wr gr G w :=
  ⟨h.staged, h.granted, hG h.known⟩

theorem steady_true : R.Steady i fun _ => True := .const True

/-- A plain SELECT of a key that is not staged. -/
theorem read_inTx {k : B.Key} {G : Option (B.Row k) → World B C → Prop} (hF : Lasting R i F)
    (hG : ∀ v, Lasting R i (G v)) (hwr : wr (.biz k) = none)
    (hgo : ∀ w, R.spec.inv w → F w →
      G (w.store.rows (.biz k)) (w.withStore (w.store.note i (.biz k)))) :
    R.spec.Safe i (Operation.run (Prog.perform (S := opSig B) (.read k))) (InTx i wr gr F)
      (Ends (fun v => InTx i wr gr fun w => F w ∧ G v w) (Failed i)) := by
  rw [Operation.run_perform]
  have hread : R.spec.Safe i (read (.biz k)) (InTx i wr gr F)
      (Ends (fun v => InTx i wr gr fun w => F w ∧ G v w) (Failed i)) := by
    refine Rules.read_safe (fun v => InTx.stable (hF.and (hG v))) steady_true
      (fun _ _ _ => trivial) fun w hw hc hp => ?_
    have hview : w.store.view i (.biz k) = w.store.rows (.biz k) :=
      Store.view_of_unstaged (by rw [hp.staged]; exact hwr)
    rw [hview]
    exact ⟨hp.staged, hp.granted, hF.own _ _ hc (.note _) hp.known, hgo w hw hp.known⟩
  exact hread.bind (fun v w _ h => h) fun x w _ h => h

/-- What `SELECT .. FOR UPDATE` leaves behind. -/
def LockedAs (i : Nat) (wr : (k : Key B) → Option k.Row) (gr : List (Sigma (Key.Row (B := B))))
    (F : World B C → Prop) (k : B.Key) : Option (B.Row k) → World B C → Prop
  | none => InTx i wr gr F
  | some r => InTx i wr (gr ++ [⟨.biz k, r⟩]) fun w => F w ∧ Held i (.biz k) (some r) w

theorem lock_inTx {k : B.Key} {G : Option (B.Row k) → Prop} (hF : Lasting R i F)
    (hwr : wr (.biz k) = none) (hG : ∀ w, R.spec.inv w → F w → G (w.store.rows (.biz k))) :
    R.spec.Safe i (Operation.run (Prog.perform (S := opSig B) (.lock k))) (InTx i wr gr F)
      (Ends (fun v w => G v ∧ LockedAs i wr gr F k v w) (Failed i)) := by
  rw [Operation.run_perform]
  have hview : ∀ w : World B C, InTx i wr gr F w →
      w.store.view i (.biz k) = w.store.rows (.biz k) :=
    fun w hp => Store.view_of_unstaged (by rw [hp.staged]; exact hwr)
  have hlock : R.spec.Safe i (ask (.db (.lock (.biz k)))) (InTx i wr gr F)
      (Ends (fun v w => G v ∧ LockedAs i wr gr F k v w) (Failed i)) := by
    refine Rules.lock_safe (fun v => (Spec.Stable.const _).and ?_) steady_true
      (fun _ _ _ => trivial) (fun w hw hp hv => ?_) fun w row hw hc hp hv hfree => ?_
    · cases v with
      | none => exact InTx.stable hF
      | some r => exact InTx.stable (hF.and (lasting_held _ _))
    · have hgot := hG w hw hp.known
      rw [← hview w hp, hv] at hgot
      exact ⟨hgot, hp⟩
    · have hgot := hG w hw hp.known
      rw [← hview w hp, hv] at hgot
      refine ⟨hgot, hp.staged, ?_, hF.own _ _ hc (.grant _ _) hp.known, ?_, ?_⟩
      · simp [hp.granted]
      · exact (hview w hp).symm.trans hv
      · simp
  exact hlock.bind (fun v w _ h => h) fun x w _ h => h

theorem put_inTx {k : B.Key} {row : B.Row k} (hF : Lasting R i F) :
    R.spec.Safe i (Operation.run (Prog.perform (S := opSig B) (.put k row))) (InTx i wr gr F)
      (Ends (fun _ => InTx i (Function.update wr (.biz k) (some row)) gr F) (Failed i)) := by
  rw [Operation.run_perform]
  have hput : R.spec.Safe i (ask (.db (.put (.biz k) row))) (InTx i wr gr F)
      (Ends (fun _ => InTx i (Function.update wr (.biz k) (some row)) gr F) (Failed i)) := by
    refine Rules.put_safe (InTx.stable hF) steady_true (fun _ _ _ => trivial)
      fun w hw hc hp hfree => ⟨?_, hp.granted, hF.own _ _ hc (.stage _ _) hp.known⟩
    rw [withStore_store, Store.stage_staged_self, hp.staged]
  exact hput.bind (fun v w _ h => h) fun x w _ h => h

/-- An INSERT takes the key, or finds it taken. -/
def InsertedAs (i : Nat) (wr : (k : Key B) → Option k.Row) (gr : List (Sigma (Key.Row (B := B))))
    (F : World B C → Prop) (k : B.Key) (row : B.Row k) : Bool → World B C → Prop
  | false => InTx i wr gr F
  | true => InTx i (Function.update wr (.biz k) (some row)) gr
      fun w => F w ∧ Held i (.biz k) none w

theorem insert_inTx {k : B.Key} {row : B.Row k} (hF : Lasting R i F) :
    R.spec.Safe i (Operation.run (Prog.perform (S := opSig B) (.insert k row))) (InTx i wr gr F)
      (Ends (InsertedAs i wr gr F k row) (Failed i)) := by
  rw [Operation.run_perform]
  have hinsert : R.spec.Safe i (insert (.biz k) row) (InTx i wr gr F)
      (Ends (InsertedAs i wr gr F k row) (Failed i)) := by
    refine Rules.insert_safe (fun added => ?_) steady_true (fun _ _ _ => trivial)
      (fun w _ hp _ => hp) fun w hw hc hp hv hfree => ?_
    · cases added with
      | false => exact InTx.stable hF
      | true => exact InTx.stable (hF.and (lasting_held _ _))
    · have hnone : w.store.rows (.biz k) = none := (Option.or_eq_none_iff.mp hv).2
      refine ⟨?_, hp.granted, hF.own _ _ hc (.stage _ _) hp.known, hnone, by simp⟩
      rw [withStore_store, Store.stage_staged_self, hp.staged]
  exact hinsert.bind (fun v w _ h => h) fun x w _ h => h

theorem now_inTx {G : Time → World B C → Prop} (hF : Lasting R i F)
    (hG : ∀ t, Lasting R i (G t)) (hgo : ∀ w, R.spec.inv w → F w → G w.clock w) :
    R.spec.Safe i utcNow (InTx i wr gr F)
      (Ends (fun t => InTx i wr gr fun w => F w ∧ G t w) fun _ _ => False) :=
  Rules.utcNow_safe (fun t => InTx.stable (hF.and (hG t)))
    fun w hw hp => ⟨hp.staged, hp.granted, hp.known, hgo w hw hp.known⟩

/-- A callback's own look at the clock. -/
theorem clock_inTx {G : Time → World B C → Prop} (hF : Lasting R i F)
    (hG : ∀ t, Lasting R i (G t)) (hgo : ∀ w, R.spec.inv w → F w → G w.clock w) :
    R.spec.Safe i (Operation.run (Prog.perform (S := opSig B) .now)) (InTx i wr gr F)
      (Ends (fun t => InTx i wr gr fun w => F w ∧ G t w) fun _ _ => False) := by
  rw [Operation.run_perform]
  exact (now_inTx hF hG hgo).bind (fun t w _ h => h) fun x w _ h => h

/-- An answer from outside; it may also be an exception. Either way the
world is as it was. -/
theorem ext_safe (x : B.Ext) {P : World B C → Prop} (hP : R.spec.Stable i P) :
    R.spec.Safe i (Operation.run (Prog.perform (S := opSig B) (.ext x))) P
      (Ends (fun _ => P) fun y w => y.foreign = true ∧ P w) := by
  rw [Operation.run_perform]
  have hext : R.spec.Safe i (ask (.ext x)) P
      (Ends (fun _ => P) fun y w => y.foreign = true ∧ P w) := by
    refine Rules.ask_safe fun w c r w' hw hp hx hc => ?_
    rcases c with (_ | y | y) | b | u | a
    case fate.fault =>
      cases hx
      exact ⟨Rules.owes_private hw hc Quiet.refl.toPrivate, _, (Spec.Stable.const _).and hP,
        ⟨y.foreign, hp⟩, fun _ _ h => h⟩
    case ext =>
      cases hx
      exact ⟨Rules.owes_private hw hc Quiet.refl.toPrivate, _, hP, hp, fun _ _ h => h⟩
    all_goals cases hx
  exact hext.bind (fun v w _ h => h) fun x w _ h => h

theorem ext_inTx (x : B.Ext) (hF : Lasting R i F) :
    R.spec.Safe i (Operation.run (Prog.perform (S := opSig B) (.ext x))) (InTx i wr gr F)
      (Ends (fun _ => InTx i wr gr F) (Stuck i gr)) := by
  refine (ext_safe x (InTx.stable hF)).post fun r w _ h => ?_
  cases r with
  | ok a => exact h
  | error y => exact ⟨h.1, .inr h.2.granted⟩

end Rules

end IdentityService
