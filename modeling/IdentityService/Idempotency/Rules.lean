import IdentityService.Idempotency.Durable

/-!
# Reasoning about units of work

The rely–guarantee rules for the statements of a transaction, stated once
for every invariant. A step of a process is `Private` when it only touches
the process's own transaction; every set of `Rules` must tolerate private
steps, so a proof outline has to argue about COMMITS only. `uow_safe` is
the rule for `async with self._uow`, error paths included.
-/

namespace IdentityService

open Concurrent

variable {B : Business} {C : ResultCodec} {i j : Nat} {w w' : World B C}

/-! ## What one process sees of the others -/

/-- The private state of process `i` is as it was. -/
structure Others (i : Nat) (w w' : World B C) : Prop where
  keeps : Store.Keeps i w.store w'.store
  observed : w'.observed i = w.observed i
  failed : w'.failed i = w.failed i

/-- A step of process `i` inside its own transaction: nothing is published
(an empty write set may be). -/
structure Private (i : Nat) (w w' : World B C) : Prop where
  rows : w'.store.rows = w.store.rows
  log : w'.store.log = w.store.log ∨ w'.store.log = w.store.log ++ [.commit i fun _ => none]
  clock : w'.clock = w.clock
  hot : w'.hot = w.hot
  observed : w'.observed = w.observed
  locked : w.store.Locked → w'.store.Locked
  others : ∀ j, j ≠ i → Others j w w'
  failed : w.failed i = true → w'.failed i = true

/-- A private step that takes no row under a lock. -/
structure Quiet (i : Nat) (w w' : World B C) : Prop extends Private i w w' where
  granted : w'.store.granted i = w.store.granted i

/-- Process `i` has no transaction open. -/
structure Idle (i : Nat) (w : World B C) : Prop where
  staged : w.store.staged i = fun _ => none
  holder : ∀ k, w.store.holder k ≠ some i
  seen : w.store.seen i = fun _ => false

theorem Idle.others (h : Idle i w) (ho : Others i w w') : Idle i w' := by
  refine ⟨ho.keeps.staged.trans h.staged, fun k hk => ?_, ho.keeps.seen.trans h.seen⟩
  exact h.holder k ((ho.keeps.holder k).mp hk)

theorem idle_close (f : Fate Fault) : Idle i ((w.settle i f).withStore (w.store.close i)) := by
  refine ⟨Store.close_staged_self _, fun k => Store.close_holder_self _ k, ?_⟩
  simp [World.withStore, Store.close]

theorem idle_commit (f : Fate Fault) : Idle i ((w.settle i f).withStore (w.store.commit i)) := by
  refine ⟨Store.close_staged_self _, fun k => Store.close_holder_self _ k, ?_⟩
  simp [World.withStore, Store.commit, Store.close]

@[simp] theorem settle_clock (f : Fate Fault) : (w.settle i f).clock = w.clock := by
  cases f <;> rfl

@[simp] theorem settle_hot (f : Fate Fault) : (w.settle i f).hot = w.hot := by
  cases f <;> rfl

@[simp] theorem settle_observed (f : Fate Fault) : (w.settle i f).observed = w.observed := by
  cases f <;> rfl

theorem settle_failed_ne (f : Fate Fault) (h : j ≠ i) :
    (w.settle i f).failed j = w.failed j := by
  cases f <;> simp [World.settle, World.hit, h]

theorem settle_failed (f : Fate Fault) (h : w.failed i = true) :
    (w.settle i f).failed i = true := by
  cases f <;> simp [World.settle, World.hit, h]

@[simp] theorem hit_failed : (w.hit i).failed i = true := by
  simp [World.hit]

@[simp] theorem interrupt_store (x : Exn) : (w.interrupt i x).store = w.store := by
  unfold World.interrupt
  split <;> rfl

@[simp] theorem interrupt_clock (x : Exn) : (w.interrupt i x).clock = w.clock := by
  unfold World.interrupt
  split <;> rfl

@[simp] theorem interrupt_hot (x : Exn) : (w.interrupt i x).hot = w.hot := by
  unfold World.interrupt
  split <;> rfl

@[simp] theorem interrupt_observed (x : Exn) : (w.interrupt i x).observed = w.observed := by
  unfold World.interrupt
  split <;> rfl

theorem interrupt_failed_ne (x : Exn) (h : j ≠ i) :
    (w.interrupt i x).failed j = w.failed j := by
  unfold World.interrupt
  split
  · rfl
  · simp [World.hit, h]

/-- Everything a hot-store call can do. -/
theorem hotCall_cases {α : Type} {identity : IdempotencyIdentity} {f : Fate Fault}
    {out : Except Exn α × Option (HotHash C.Blob)} {r : Except Exn α}
    (h : hotCall i w identity f out = some (r, w')) :
    (f = .go ∧ r = out.1 ∧ w' = w.withHot identity out.2) ∨
      ∃ x : Fault, r = .error x.exn ∧
        (w' = w.interrupt i x.exn ∨ w' = (w.withHot identity out.2).interrupt i x.exn) := by
  cases f with
  | go =>
      cases h
      exact .inl ⟨rfl, rfl, rfl⟩
  | fault x =>
      cases h
      exact .inr ⟨x, rfl, .inl rfl⟩
  | applied x =>
      cases h
      exact .inr ⟨x, rfl, .inr rfl⟩

@[simp] theorem withStore_store (st : Store (Key B) Key.Row) : (w.withStore st).store = st := rfl

@[simp] theorem withStore_clock (st : Store (Key B) Key.Row) :
    (w.withStore st).clock = w.clock := rfl

@[simp] theorem withStore_hot (st : Store (Key B) Key.Row) : (w.withStore st).hot = w.hot := rfl

@[simp] theorem withStore_observed (st : Store (Key B) Key.Row) :
    (w.withStore st).observed = w.observed := rfl

@[simp] theorem withStore_failed (st : Store (Key B) Key.Row) :
    (w.withStore st).failed = w.failed := rfl

/-- A statement that publishes nothing is private. -/
theorem Private.statement {st : Store (Key B) Key.Row} (f : Fate Fault)
    (hrows : st.rows = w.store.rows)
    (hlog : st.log = w.store.log ∨ st.log = w.store.log ++ [.commit i fun _ => none])
    (hlocked : w.store.Locked → st.Locked) (hkeeps : ∀ j, j ≠ i → Store.Keeps j w.store st) :
    Private i w ((w.settle i f).withStore st) where
  rows := hrows
  log := hlog
  clock := by simp
  hot := by simp
  observed := by simp
  locked := hlocked
  others j hj := ⟨hkeeps j hj, by simp, settle_failed_ne f hj⟩
  failed := settle_failed f

theorem Quiet.hit (x : Fault) : Quiet i w (w.hit i) :=
  ⟨.statement (.fault x) rfl (.inl rfl) id fun j _ => Store.Keeps.refl j _, rfl⟩

theorem Quiet.refl : Quiet i w w :=
  ⟨.statement .go rfl (.inl rfl) id fun j _ => Store.Keeps.refl j _, rfl⟩

theorem Quiet.note (k : Key B) : Quiet i w (w.withStore (w.store.note i k)) :=
  ⟨.statement .go rfl (.inl rfl) id fun _ hj => Store.Keeps.note hj k, rfl⟩

theorem Quiet.close (f : Fate Fault) : Quiet i w ((w.settle i f).withStore (w.store.close i)) :=
  ⟨.statement f rfl (.inl rfl) Store.Locked.close fun _ hj => Store.Keeps.close hj, rfl⟩

/-- Committing nothing is quiet. -/
theorem Quiet.commit (f : Fate Fault) (hl : w.store.Locked)
    (h : w.store.staged i = fun _ => none) :
    Quiet i w ((w.settle i f).withStore (w.store.commit i)) := by
  refine ⟨.statement f ?_ (.inr ?_) Store.Locked.commit fun _ hj => Store.Keeps.commit hl hj, rfl⟩
  · funext k
    exact Store.view_of_unstaged (by rw [h])
  · rw [Store.commit_log, h]

theorem Private.stage (k : Key B) (r : k.Row) (hf : w.store.free i k = true) :
    Private i w (w.withStore (w.store.stage i k r)) :=
  .statement .go rfl (.inl rfl) (fun h => h.stage r hf) fun _ hj => Store.Keeps.stage hj r hf

theorem Private.grant (k : Key B) (r : k.Row) (hf : w.store.free i k = true) :
    Private i w (w.withStore (w.store.grant i k r)) :=
  .statement .go rfl (.inl rfl) (fun h => h.grant r hf) fun _ hj => Store.Keeps.grant hj r hf

/-! ## Rules -/

/-- An invariant, the constraint on runs, and the guarantee, none of which
a private step can break. -/
structure Rules (B : Business) (C : ResultCodec) where
  inv : World B C → Prop
  con : World B C → World B C → Prop
  guar : World B C → World B C → Prop
  tolerant : ∀ i w w', inv w → w.store.Locked → con w w' → Private i w w' →
    inv w' ∧ guar w w'

namespace Rules

/-- The rules as terms of rely and guarantee. -/
def spec (R : Rules B C) : Spec (sig B) Exn (World B C) where
  machine := machine B C
  inv w := w.store.Locked ∧ R.inv w
  con := R.con
  guar := R.guar
  rely := Others

variable {R : Rules B C}

theorem owes_private (h : R.spec.inv w) (hc : R.con w w') (hp : Private i w w') :
    R.spec.Owes i w w' := by
  obtain ⟨hinv, hguar⟩ := R.tolerant i w w' h.2 h.1 hc hp
  exact ⟨⟨hp.locked h.1, hinv⟩, hguar, hp.others⟩

theorem inv_private (h : R.spec.inv w) (hc : R.con w w') (hp : Private i w w') :
    R.spec.inv w' := (owes_private h hc hp).inv

/-- An assertion that neither the others nor the process's own quiet steps
can break. -/
structure Steady (R : Rules B C) (i : Nat) (A : World B C → Prop) : Prop where
  stable : R.spec.Stable i A
  quiet : ∀ w w', R.spec.inv w → R.spec.inv w' → R.con w w' → Quiet i w w' → A w → A w'

variable {A A' P E : World B C → Prop}

theorem Steady.and (h : R.Steady i A) (h' : R.Steady i A') : R.Steady i fun w => A w ∧ A' w :=
  ⟨h.stable.and h'.stable, fun w w' hw hw' hc hq ha =>
    ⟨h.quiet w w' hw hw' hc hq ha.1, h'.quiet w w' hw hw' hc hq ha.2⟩⟩

theorem Steady.const (p : Prop) : R.Steady i fun _ => p :=
  ⟨Spec.Stable.const p, fun _ _ _ _ _ _ h => h⟩

theorem Steady.exists {γ : Type} {A : γ → World B C → Prop} (h : ∀ c, R.Steady i (A c)) :
    R.Steady i fun w => ∃ c, A c w :=
  ⟨Spec.Stable.exists fun c => (h c).stable, fun w w' hw hw' hc hq ⟨c, ha⟩ =>
    ⟨c, (h c).quiet w w' hw hw' hc hq ha⟩⟩

theorem stable_idle : R.spec.Stable i (Idle i) := fun _ _ _ _ _ _ ho h => h.others ho

theorem stable_failed : R.spec.Stable i fun w => w.failed i = true :=
  fun _ _ _ _ _ _ ho h => ho.failed.trans h

theorem steady_failed : R.Steady i fun w => w.failed i = true :=
  ⟨stable_failed, fun _ _ _ _ _ hq h => hq.failed h⟩

/-! ## Statements -/

end Rules

theorem Fate.map_inv {ε δ : Type} {g : ε → δ} {f : Fate ε} :
    (f.map g = .go → f = .go) ∧ (∀ x, f.map g = .fault x → ∃ y, f = .fault y ∧ g y = x) ∧
      ∀ x, f.map g = .applied x → ∃ y, f = .applied y ∧ g y = x := by
  cases f <;> simp [Fate.map]

theorem exec_db {o : StoreOp (Key B) Key.Row} {c : Choice B} {r : Except Exn o.Resp}
    (h : exec i (.db o) c w = some (r, w')) :
    ∃ f st, o.exec i (Fate.map Fault.exn f) w.store = some (r, st) ∧
      w' = (w.settle i f).withStore st := by
  cases c with
  | fate f =>
      obtain ⟨⟨r', st⟩, hx, he⟩ := Option.map_eq_some_iff.mp h
      cases he
      exact ⟨f, st, hx, rfl⟩
  | _ => cases h

/-- Whatever process `i` does, the staged writes stay under their locks, and
the others keep their private state. -/
theorem exec_others {e : Eff B} {c : Choice B} {r : Except Exn e.Resp}
    (hl : w.store.Locked) (h : exec i e c w = some (r, w')) :
    w'.store.Locked ∧ ∀ j, j ≠ i → Others j w w' := by
  have hsame : ∀ {w' : World B C}, w'.store = w.store → w'.observed = w.observed →
      (∀ j, j ≠ i → w'.failed j = w.failed j) →
      w'.store.Locked ∧ ∀ j, j ≠ i → Others j w w' := by
    intro w' hs ho hf
    exact ⟨by rw [hs]; exact hl, fun j hj => ⟨by rw [hs]; exact .refl j _, by rw [ho], hf j hj⟩⟩
  have hhot : ∀ {α : Type} {identity : IdempotencyIdentity} {f : Fate Fault}
      {out : Except Exn α × Option (HotHash C.Blob)} {r : Except Exn α},
      hotCall i w identity f out = some (r, w') →
      w'.store.Locked ∧ ∀ j, j ≠ i → Others j w w' := by
    intro α identity f out r hx
    rcases hotCall_cases hx with ⟨-, -, rfl⟩ | ⟨x, -, rfl | rfl⟩
    · exact hsame rfl rfl fun _ _ => rfl
    · exact hsame (by simp) (by simp) fun j hj => interrupt_failed_ne _ hj
    · exact hsame (by simp; rfl) (by simp; rfl) fun j hj => interrupt_failed_ne _ hj
  cases e with
  | db o =>
      obtain ⟨f, st, hst, rfl⟩ := exec_db h
      have hstep : st.Locked ∧ ∀ j, j ≠ i → Store.Keeps j w.store st := by
        have hrefl : w.store.Locked ∧ ∀ j, j ≠ i → Store.Keeps j w.store w.store :=
          ⟨hl, fun j _ => .refl j _⟩
        cases o with
        | read k =>
            rcases StoreOp.exec_read hst with ⟨x, -, -, rfl⟩ | ⟨-, -, rfl⟩
            · exact hrefl
            · exact ⟨hl, fun j hj => .note hj k⟩
        | lock k =>
            rcases StoreOp.exec_lock hst with ⟨x, -, -, rfl⟩ | ⟨-, -, -, rfl⟩ |
              ⟨row, -, -, -, hfree, rfl⟩
            · exact hrefl
            · exact hrefl
            · exact ⟨hl.grant row hfree, fun j hj => .grant hj row hfree⟩
        | put k row =>
            rcases StoreOp.exec_put hst with ⟨x, -, -, rfl⟩ | ⟨-, -, hfree, rfl⟩
            · exact hrefl
            · exact ⟨hl.stage row hfree, fun j hj => .stage hj row hfree⟩
        | insert k row =>
            rcases StoreOp.exec_insert hst with ⟨x, -, -, rfl⟩ | ⟨-, -, -, rfl⟩ |
              ⟨-, -, -, hfree, rfl⟩
            · exact hrefl
            · exact hrefl
            · exact ⟨hl.stage row hfree, fun j hj => .stage hj row hfree⟩
        | commit =>
            rcases StoreOp.exec_commit hst with ⟨x, -, -, rfl⟩ | ⟨-, -, rfl⟩ | ⟨x, -, -, rfl⟩
            · exact hrefl
            · exact ⟨hl.commit, fun j hj => .commit hl hj⟩
            · exact ⟨hl.commit, fun j hj => .commit hl hj⟩
        | rollback =>
            obtain ⟨rfl, -⟩ := StoreOp.exec_rollback hst
            exact ⟨hl.close, fun j hj => .close hj⟩
      exact ⟨hstep.1, fun j hj => ⟨hstep.2 j hj, by simp, settle_failed_ne f hj⟩⟩
  | observeOutcome outcome =>
      rcases c with (_ | x | x) | b | u | a
      · cases h
        exact ⟨hl, fun j hj => ⟨.refl j _, by simp [hj], rfl⟩⟩
      all_goals cases h
  | hotBegin identity requestHash ownerToken =>
      rcases c with f | b | u | a
      · exact hhot h
      all_goals cases h
  | hotComplete identity ownerToken result =>
      rcases c with f | b | u | a
      · exact hhot h
      all_goals cases h
  | hotAbandon identity ownerToken =>
      rcases c with f | b | u | a
      · exact hhot h
      all_goals cases h
  | _ =>
      rcases c with (_ | x | x) | b | u | a
      all_goals first
        | cases h
          exact hsame rfl rfl fun _ _ => rfl
        | cases h

/-- Everything the outside can do by itself. -/
theorem envStep_cases {v : EnvStep} (h : envStep v w = some w') :
    (∃ d, w' = { w with clock := w.clock + d }) ∨ (∃ identity, w' = w.withHot identity none) ∨
      ∃ (cutoff : Time) (ids : List IdempotencyIdentity) (st : Store (Key B) Key.Row),
        (∀ id ∈ ids, w.expired cutoff id = true) ∧
        w.store.delete (ids.map .record) = some st ∧ w' = w.withStore st := by
  cases v with
  | tick d =>
      cases h
      exact .inl ⟨d, rfl⟩
  | drop identity =>
      cases h
      exact .inr (.inl ⟨identity, rfl⟩)
  | deleteExpired cutoff ids =>
      simp only [envStep] at h
      split at h
      · rename_i hall
        obtain ⟨st, hst, rfl⟩ := Option.map_eq_some_iff.mp h
        exact .inr (.inr ⟨cutoff, ids, st, List.all_eq_true.mp hall, hst, rfl⟩)
      · cases h

theorem envStep_others {v : EnvStep} (hl : w.store.Locked) (h : envStep v w = some w') :
    w'.store.Locked ∧ ∀ j, Others j w w' := by
  rcases envStep_cases h with ⟨d, rfl⟩ | ⟨identity, rfl⟩ | ⟨cutoff, ids, st, -, hst, rfl⟩
  · exact ⟨hl, fun j => ⟨.refl j _, rfl, rfl⟩⟩
  · exact ⟨hl, fun j => ⟨.refl j _, rfl, rfl⟩⟩
  · exact ⟨hl.delete hst, fun j => ⟨.delete hst j, rfl, rfl⟩⟩

/-- What a value leaves behind, and what an exception does. -/
def Ends {α : Type} (A : α → World B C → Prop) (F : Exn → World B C → Prop) :
    Except Exn α → World B C → Prop
  | .ok a => A a
  | .error x => F x

/-- Process `i` met a failure of the outside, in a state satisfying `E`. -/
def Faulted (i : Nat) (E : World B C → Prop) (x : Exn) (w : World B C) : Prop :=
  x.foreign = true ∧ w.failed i = true ∧ E w

namespace Rules

variable {R : Rules B C} {P E : World B C → Prop}

theorem Steady.faulted (hE : R.Steady i E) (x : Exn) : R.Steady i (Faulted i E x) :=
  (Steady.const _).and (steady_failed.and hE)

/-- An effect that failed before it did anything. -/
theorem faulted_hit (hE : R.Steady i E) (x : Fault) (hw : R.spec.inv w)
    (hc : R.con w (w.hit i)) (h : E w) :
    R.spec.Owes i w (w.hit i) ∧ Faulted i E x.exn (w.hit i) := by
  have hq : Quiet i w (w.hit i) := .hit x
  have ho : R.spec.Owes i w (w.hit i) := owes_private hw hc hq.toPrivate
  exact ⟨ho, x.foreign, hit_failed, hE.quiet _ _ hw ho.inv hc hq h⟩

/-- One await: `A r` is the assertion the program goes on with after answer
`r`. -/
theorem ask_safe {e : Eff B} {A : Except Exn e.Resp → World B C → Prop}
    (h : ∀ w c r w', R.spec.inv w → P w → exec i e c w = some (r, w') → R.con w w' →
      R.spec.Owes i w w' ∧
        ∃ P', R.spec.Stable i P' ∧ P' w' ∧ ∀ t, R.spec.inv t → P' t → A r t) :
    R.spec.Safe i (ask e) P A :=
  Spec.Safe.perform h

theorem read_safe {k : Key B} {A : Option k.Row → World B C → Prop}
    (hA : ∀ v, R.spec.Stable i (A v)) (hE : R.Steady i E)
    (hPE : ∀ w, R.spec.inv w → P w → E w)
    (hgo : ∀ w, R.spec.inv w → R.con w (w.withStore (w.store.note i k)) → P w →
      A (w.store.view i k) (w.withStore (w.store.note i k))) :
    R.spec.Safe i (read k) P (Ends A (Faulted i E)) := by
  refine ask_safe fun w c r w' hw hp hx hc => ?_
  obtain ⟨f, st, hst, rfl⟩ := exec_db hx
  rcases StoreOp.exec_read hst with ⟨x, hf, rfl, rfl⟩ | ⟨hf, rfl, rfl⟩
  · obtain ⟨x, rfl, rfl⟩ := Fate.map_inv.2.1 _ hf
    obtain ⟨ho, hE'⟩ := faulted_hit hE x hw hc (hPE w hw hp)
    exact ⟨ho, _, (hE.faulted _).stable, hE', fun t _ h => h⟩
  · obtain rfl := Fate.map_inv.1 hf
    exact ⟨owes_private hw hc (Quiet.note k).toPrivate, _, hA _, hgo w hw hc hp, fun t _ h => h⟩

theorem lock_safe {k : Key B} {A : Option k.Row → World B C → Prop}
    (hA : ∀ v, R.spec.Stable i (A v)) (hE : R.Steady i E)
    (hPE : ∀ w, R.spec.inv w → P w → E w)
    (hnone : ∀ w, R.spec.inv w → P w → w.store.view i k = none → A none w)
    (hsome : ∀ w row, R.spec.inv w → R.con w (w.withStore (w.store.grant i k row)) → P w →
      w.store.view i k = some row → w.store.free i k = true →
      A (some row) (w.withStore (w.store.grant i k row))) :
    R.spec.Safe i (ask (.db (.lock k))) P (Ends A (Faulted i E)) := by
  refine ask_safe fun w c r w' hw hp hx hc => ?_
  obtain ⟨f, st, hst, rfl⟩ := exec_db hx
  rcases StoreOp.exec_lock hst with ⟨x, hf, rfl, rfl⟩ | ⟨hf, rfl, hv, rfl⟩ |
    ⟨row, hf, rfl, hv, hfree, rfl⟩
  · obtain ⟨x, rfl, rfl⟩ := Fate.map_inv.2.1 _ hf
    obtain ⟨ho, hE'⟩ := faulted_hit hE x hw hc (hPE w hw hp)
    exact ⟨ho, _, (hE.faulted _).stable, hE', fun t _ h => h⟩
  · obtain rfl := Fate.map_inv.1 hf
    exact ⟨owes_private hw hc Quiet.refl.toPrivate, _, hA _, hnone w hw hp hv, fun t _ h => h⟩
  · obtain rfl := Fate.map_inv.1 hf
    exact ⟨owes_private hw hc (.grant k row hfree), _, hA _, hsome w row hw hc hp hv hfree,
      fun t _ h => h⟩

theorem put_safe {k : Key B} {row : k.Row} {A : World B C → Prop}
    (hA : R.spec.Stable i A) (hE : R.Steady i E)
    (hPE : ∀ w, R.spec.inv w → P w → E w)
    (hgo : ∀ w, R.spec.inv w → R.con w (w.withStore (w.store.stage i k row)) → P w →
      w.store.free i k = true → A (w.withStore (w.store.stage i k row))) :
    R.spec.Safe i (ask (.db (.put k row))) P (Ends (fun _ => A) (Faulted i E)) := by
  refine ask_safe fun w c r w' hw hp hx hc => ?_
  obtain ⟨f, st, hst, rfl⟩ := exec_db hx
  rcases StoreOp.exec_put hst with ⟨x, hf, rfl, rfl⟩ | ⟨hf, rfl, hfree, rfl⟩
  · obtain ⟨x, rfl, rfl⟩ := Fate.map_inv.2.1 _ hf
    obtain ⟨ho, hE'⟩ := faulted_hit hE x hw hc (hPE w hw hp)
    exact ⟨ho, _, (hE.faulted _).stable, hE', fun t _ h => h⟩
  · obtain rfl := Fate.map_inv.1 hf
    exact ⟨owes_private hw hc (.stage k row hfree), _, hA, hgo w hw hc hp hfree, fun t _ h => h⟩

theorem insert_safe {k : Key B} {row : k.Row} {A : Bool → World B C → Prop}
    (hA : ∀ b, R.spec.Stable i (A b)) (hE : R.Steady i E)
    (hPE : ∀ w, R.spec.inv w → P w → E w)
    (hlost : ∀ w, R.spec.inv w → P w → (w.store.view i k).isSome → A false w)
    (hgo : ∀ w, R.spec.inv w → R.con w (w.withStore (w.store.stage i k row)) → P w →
      w.store.view i k = none → w.store.free i k = true →
      A true (w.withStore (w.store.stage i k row))) :
    R.spec.Safe i (insert k row) P (Ends A (Faulted i E)) := by
  refine ask_safe fun w c r w' hw hp hx hc => ?_
  obtain ⟨f, st, hst, rfl⟩ := exec_db hx
  rcases StoreOp.exec_insert hst with ⟨x, hf, rfl, rfl⟩ | ⟨hf, rfl, hv, rfl⟩ |
    ⟨hf, rfl, hv, hfree, rfl⟩
  · obtain ⟨x, rfl, rfl⟩ := Fate.map_inv.2.1 _ hf
    obtain ⟨ho, hE'⟩ := faulted_hit hE x hw hc (hPE w hw hp)
    exact ⟨ho, _, (hE.faulted _).stable, hE', fun t _ h => h⟩
  · obtain rfl := Fate.map_inv.1 hf
    exact ⟨owes_private hw hc Quiet.refl.toPrivate, _, hA _, hlost w hw hp hv, fun t _ h => h⟩
  · obtain rfl := Fate.map_inv.1 hf
    exact ⟨owes_private hw hc (.stage k row hfree), _, hA _, hgo w hw hc hp hv hfree,
      fun t _ h => h⟩

theorem utcNow_safe {A : Time → World B C → Prop} (hA : ∀ t, R.spec.Stable i (A t))
    (hgo : ∀ w, R.spec.inv w → P w → A w.clock w) :
    R.spec.Safe i utcNow P (Ends A fun _ _ => False) := by
  refine ask_safe fun w c r w' hw hp hx hc => ?_
  rcases c with (_ | x | x) | b | u | a
  · cases hx
    exact ⟨owes_private hw hc Quiet.refl.toPrivate, _, hA _, hgo w hw hp, fun t _ h => h⟩
  all_goals cases hx

/-- The end of a transaction that publishes something: the only statement
whose caller owes a proof to everybody. -/
theorem commit_safe {D : World B C → Prop} (hD : R.Steady i D) (hE : R.Steady i E)
    (hPE : ∀ w, R.spec.inv w → P w → E w)
    (hgo : ∀ w f, R.spec.inv w → P w → R.con w ((w.settle i f).withStore (w.store.commit i)) →
      R.spec.Owes i w ((w.settle i f).withStore (w.store.commit i)) ∧
        D ((w.settle i f).withStore (w.store.commit i))) :
    R.spec.Safe i commit P
      (Ends (fun _ w => Idle i w ∧ D w) (Faulted i fun w => E w ∨ D w)) := by
  have hED : R.Steady i fun w => E w ∨ D w :=
    ⟨fun s s' hs hs' hc hg hr h => h.imp (hE.stable s s' hs hs' hc hg hr)
        (hD.stable s s' hs hs' hc hg hr),
      fun s s' hs hs' hc hq h => h.imp (hE.quiet s s' hs hs' hc hq) (hD.quiet s s' hs hs' hc hq)⟩
  refine ask_safe fun w c r w' hw hp hx hc => ?_
  obtain ⟨f, st, hst, rfl⟩ := exec_db hx
  rcases StoreOp.exec_commit hst with ⟨x, hf, rfl, rfl⟩ | ⟨hf, rfl, rfl⟩ | ⟨x, hf, rfl, rfl⟩
  · obtain ⟨x, rfl, rfl⟩ := Fate.map_inv.2.1 _ hf
    obtain ⟨ho, hE'⟩ := faulted_hit hED x hw hc (.inl (hPE w hw hp))
    exact ⟨ho, _, (hED.faulted _).stable, hE', fun t _ h => h⟩
  · obtain rfl := Fate.map_inv.1 hf
    obtain ⟨ho, hd⟩ := hgo w .go hw hp hc
    exact ⟨ho, _, stable_idle.and hD.stable, ⟨idle_commit .go, hd⟩, fun t _ h => h⟩
  · obtain ⟨x, rfl, rfl⟩ := Fate.map_inv.2.2 _ hf
    obtain ⟨ho, hd⟩ := hgo w (.applied x) hw hp hc
    exact ⟨ho, _, (hED.faulted _).stable, ⟨x.foreign, hit_failed, .inr hd⟩, fun t _ h => h⟩

theorem rollback_safe (hE : R.Steady i E) (hPE : ∀ w, R.spec.inv w → P w → E w) :
    R.spec.Safe i rollback P
      (Ends (fun _ w => Idle i w ∧ E w) (Faulted i fun w => Idle i w ∧ E w)) := by
  refine ask_safe fun w c r w' hw hp hx hc => ?_
  obtain ⟨f, st, hst, rfl⟩ := exec_db hx
  obtain ⟨rfl, hr⟩ := StoreOp.exec_rollback hst
  have hq : Quiet i w ((w.settle i f).withStore (w.store.close i)) := .close f
  have ho := owes_private hw hc hq.toPrivate
  have hend : Idle i ((w.settle i f).withStore (w.store.close i)) ∧
      E ((w.settle i f).withStore (w.store.close i)) :=
    ⟨idle_close f, hE.quiet _ _ hw ho.inv hc hq (hPE w hw hp)⟩
  refine ⟨ho, ?_⟩
  rcases hr with ⟨hf, rfl⟩ | ⟨x, hf, rfl⟩
  · exact ⟨_, stable_idle.and hE.stable, hend, fun t _ h => h⟩
  · obtain ⟨x, rfl, rfl⟩ := Fate.map_inv.2.1 _ hf
    exact ⟨_, (Spec.Stable.const _).and (stable_failed.and (stable_idle.and hE.stable)),
      ⟨x.foreign, hit_failed, hend⟩, fun t _ h => h⟩

/-! ## Units of work -/

/-- What `try .. except` may inspect is the outcome itself. -/
theorem outcome_safe {α : Type} {p : App B α} {Q : Except Exn α → World B C → Prop}
    (h : R.spec.Safe i p P Q) :
    R.spec.Safe i p.outcome P (Ends Q fun _ _ => False) :=
  h.outcome fun _ _ _ h => h

theorem unwind_safe (hE : R.Steady i E) {x : Exn} (hx : x.foreign = true)
    (hPE : ∀ w, R.spec.inv w → P w → w.failed i = true ∧ E w) :
    R.spec.Safe i (unwind x) P
      (Ends (fun _ _ => False) (Faulted i fun w => Idle i w ∧ E w)) := by
  have hback := rollback_safe (P := P) (steady_failed.and hE) hPE
  cases x with
  | database d =>
      have ht := translateDatabaseError_foreign d
      refine (outcome_safe hback).bind (fun r => ?_) fun _ _ _ h => h.elim
      rcases r with y | _
      · cases y
        case database d' => exact fun w _ h => ⟨ht, h.2.1, h.2.2.1, h.2.2.2.2⟩
        all_goals exact fun w _ h => ⟨h.1, h.2.1, h.2.2.1, h.2.2.2.2⟩
      · exact fun w _ h => ⟨ht, h.2.1, h.1, h.2.2⟩
  | _ =>
      refine hback.bind (fun _ w _ h => ⟨hx, h.2.1, h.1, h.2.2⟩) fun y w _ h => ?_
      exact ⟨h.1, h.2.1, h.2.2.1, h.2.2.2.2⟩

variable {D : World B C → Prop}

/-- Leaving normally: everything staged is published, or the failure of the
commit is reported, whether or not it applied. -/
theorem aexit_none_safe (hD : R.Steady i D) (hE : R.Steady i E)
    (hPE : ∀ w, R.spec.inv w → P w → E w) (hDE : ∀ w, D w → E w)
    (hgo : ∀ w f, R.spec.inv w → P w → R.con w ((w.settle i f).withStore (w.store.commit i)) →
      R.spec.Owes i w ((w.settle i f).withStore (w.store.commit i)) ∧
        D ((w.settle i f).withStore (w.store.commit i))) :
    R.spec.Safe i (aexit none) P
      (Ends (fun _ w => Idle i w ∧ D w) (Faulted i fun w => Idle i w ∧ E w)) := by
  refine (outcome_safe (commit_safe hD hE hPE hgo)).bind (fun r => ?_) fun _ _ _ h => h.elim
  rcases r with x | _
  · refine Spec.Safe.assuming (φ := x.foreign = true) (fun w _ h => h.1) fun hx => ?_
    refine (unwind_safe hE hx fun w _ h => ⟨h.2.1, h.2.2.elim id (hDE w)⟩).post ?_
    rintro (y | _) w - h
    · exact h
    · exact h.elim
  · exact fun w _ h => h

/-- Leaving on an exception: nothing is published. The exception itself
goes on, translated if it is the driver's. -/
theorem aexit_some_safe (hE : R.Steady i E) (x : Exn) (hPE : ∀ w, R.spec.inv w → P w → E w) :
    R.spec.Safe i (aexit (some x)) P
      (Ends (fun _ w => Idle i w ∧ E w) fun y w => Idle i w ∧
        ((∃ d, x = .database d ∧ y = translateDatabaseError d ∧ E w) ∨ Faulted i E y w)) := by
  refine (outcome_safe (rollback_safe hE hPE)).bind (fun r => ?_) fun _ _ _ h => h.elim
  rcases r with y | _
  · refine Spec.Safe.assuming (φ := y.foreign = true) (fun w _ h => h.1) fun hy => ?_
    refine (unwind_safe hE hy fun w _ h => ⟨h.2.1, h.2.2.2⟩).post ?_
    rintro (z | _) w - h
    · exact ⟨h.2.2.1, .inr ⟨h.1, h.2.1, h.2.2.2⟩⟩
    · exact h.elim
  · cases x with
    | database d => exact fun w _ h => ⟨h.1, .inl ⟨d, rfl, rfl, h.2⟩⟩
    | _ => exact fun w _ h => h

/-- **The rule for a unit of work.** `A a` is what the body leaves
staged when it returns `a`, `D a` what its commit makes true; `F` describes
exceptions, and every failure of the outside in a state satisfying `E` must
be one of them. -/
theorem uow_safe {α : Type} {body : App B α} {A D : α → World B C → Prop}
    {F : Exn → World B C → Prop} (hbody : R.spec.Safe i body P (Ends A F))
    (hD : ∀ a, R.Steady i (D a)) (hE : R.Steady i E) (hF : ∀ x, R.Steady i (F x))
    (hAE : ∀ a w, R.spec.inv w → A a w → E w) (hDE : ∀ a w, D a w → E w)
    (hFE : ∀ x w, F x w → E w) (hfault : ∀ x w, Faulted i E x w → F x w)
    (hdb : ∀ d w, F (.database d) w → F (translateDatabaseError d) w)
    (hgo : ∀ a w f, R.spec.inv w → A a w →
      R.con w ((w.settle i f).withStore (w.store.commit i)) →
      R.spec.Owes i w ((w.settle i f).withStore (w.store.commit i)) ∧
        D a ((w.settle i f).withStore (w.store.commit i))) :
    R.spec.Safe i (uow body) P
      (Ends (fun a w => Idle i w ∧ D a w) fun x w => Idle i w ∧ F x w) := by
  refine (outcome_safe hbody).bind (fun r => ?_) fun _ _ _ h => h.elim
  rcases r with x | a
  · -- the body raised `x`
    refine (aexit_some_safe (hF x) x fun w _ h => h).bind (fun _ => fun w _ h => h) ?_
    rintro y w - ⟨hidle, ⟨d, rfl, rfl, h⟩ | h⟩
    · exact ⟨hidle, hdb d w h⟩
    · exact ⟨hidle, hfault y w ⟨h.1, h.2.1, hFE x w h.2.2⟩⟩
  · refine (aexit_none_safe (hD a) hE (hAE a) (hDE a) (hgo a)).bind (fun _ => fun w _ h => h) ?_
    rintro y w - h
    exact ⟨h.2.2.1, hfault y w ⟨h.1, h.2.1, h.2.2.2⟩⟩

end Rules

end IdentityService
