import IdentityService.Idempotency.ExactlyOnce

/-!
# Expired records

The reader takes an expired record for absent; the unique constraint that
fences the writer does not look at expiry. A caller all on its own, whose
database works, shows what follows: with an expired record still in the
table its callback is rolled back and a `RuntimeError` raised, whatever the
callback does.
-/

namespace IdentityService

open Concurrent

variable {B : Business} {C : ResultCodec} {i : Nat} {w w' : World B C}

/-- Choices under which nothing fails. -/
def Choice.faultless : Choice B → Bool
  | .fate .go => true
  | .fate _ => false
  | _ => true

/-- Process `i` runs `p` alone and without failures, at one instant. -/
abbrev Solo {α : Type} (i : Nat) (p : App B α) (w : World B C) (r : Except Exn α) (w' : World B C) :
    Prop :=
  (machine B C).Alone Choice.faultless i p w r w'

theorem solo_bind {α β : Type} {p : App B α} {f : α → App B β} {r : Except Exn β} :
    Solo i (p.bind f) w r w' ↔ ∃ r₁ w₁, Solo i p w r₁ w₁ ∧
      (machine B C).Onwards Choice.faultless i f r₁ w₁ r w' :=
  Machine.alone_bind

/-- `try p except ..` alone. -/
theorem solo_outcome_bind {α β : Type} {p : App B α} {f : Except Exn α → App B β}
    {r : Except Exn β} :
    Solo i (p.outcome.bind f) w r w' ↔ ∃ r₁ w₁, Solo i p w r₁ w₁ ∧ Solo i (f r₁) w₁ r w' := by
  rw [solo_bind]
  constructor
  · rintro ⟨r₁, w₁, h₁, h₂⟩
    obtain ⟨r₂, rfl, h⟩ := Machine.alone_outcome.mp h₁
    exact ⟨r₂, w₁, h, h₂⟩
  · rintro ⟨r₁, w₁, h₁, h₂⟩
    exact ⟨.ok r₁, w₁, Machine.alone_outcome.mpr ⟨r₁, rfl, h₁⟩, h₂⟩

theorem solo_ask {e : Eff B} {r : Except Exn e.Resp} :
    Solo i (ask e) w r w' ↔ ∃ c, Choice.faultless c = true ∧ exec i e c w = some (r, w') := by
  constructor
  · rintro ⟨c, a, w₁, hf, hx, h⟩
    refine ⟨c, hf, ?_⟩
    cases a with
    | ok a =>
        obtain ⟨rfl, rfl⟩ := h
        exact hx
    | error x =>
        obtain ⟨rfl, rfl⟩ := h
        exact hx
  · rintro ⟨c, hf, hx⟩
    refine ⟨c, r, w', hf, hx, ?_⟩
    cases r with
    | ok a => exact ⟨rfl, rfl⟩
    | error x => exact ⟨rfl, rfl⟩

/-- One statement alone: it goes through, or waits forever. -/
theorem solo_db {o : StoreOp (Key B) Key.Row} {r : Except Exn o.Resp} :
    Solo i (ask (.db o)) w r w' ↔ ∃ st, o.exec i .go w.store = some (r, st) ∧
      w' = w.withStore st := by
  refine solo_ask.trans ⟨?_, ?_⟩
  · rintro ⟨c, hf, hx⟩
    rcases c with (_ | x | x) | b | u | a
    · obtain ⟨⟨r', st⟩, hst, he⟩ := Option.map_eq_some_iff.mp hx
      cases he
      exact ⟨st, hst, rfl⟩
    · cases hf
    · cases hf
    · cases hx
    · cases hx
    · cases hx
  · rintro ⟨st, hst, rfl⟩
    exact ⟨.fate .go, rfl, Option.map_eq_some_iff.mpr ⟨(r, st), hst, rfl⟩⟩

theorem solo_read {k : Key B} {r : Except Exn (Option k.Row)} :
    Solo i (read k) w r w' ↔
      r = .ok (w.store.view i k) ∧ w' = w.withStore (w.store.note i k) := by
  refine solo_db.trans ⟨?_, ?_⟩
  · rintro ⟨st, ⟨⟩, rfl⟩
    exact ⟨rfl, rfl⟩
  · rintro ⟨rfl, rfl⟩
    exact ⟨_, rfl, rfl⟩

theorem solo_commit {r : Except Exn Unit} :
    Solo i commit w r w' ↔ r = .ok () ∧ w' = w.withStore (w.store.commit i) := by
  refine solo_db.trans ⟨?_, ?_⟩
  · rintro ⟨st, ⟨⟩, rfl⟩
    exact ⟨rfl, rfl⟩
  · rintro ⟨rfl, rfl⟩
    exact ⟨_, rfl, rfl⟩

theorem solo_rollback {r : Except Exn Unit} :
    Solo i rollback w r w' ↔ r = .ok () ∧ w' = w.withStore (w.store.close i) := by
  refine solo_db.trans ⟨?_, ?_⟩
  · rintro ⟨st, ⟨⟩, rfl⟩
    exact ⟨rfl, rfl⟩
  · rintro ⟨rfl, rfl⟩
    exact ⟨_, rfl, rfl⟩

theorem solo_utcNow {r : Except Exn Time} :
    Solo i utcNow w r w' ↔ r = .ok w.clock ∧ w' = w := by
  refine solo_ask.trans ⟨?_, ?_⟩
  · rintro ⟨c, hf, hx⟩
    rcases c with (_ | x | x) | b | u | a
    · cases hx
      exact ⟨rfl, rfl⟩
    all_goals cases hx
  · rintro ⟨rfl, rfl⟩
    exact ⟨.fate .go, rfl, rfl⟩

/-- An insert that meets a row, expired or not, changes nothing. -/
theorem solo_insert_present {k : Key B} {row : k.Row} {r : Except Exn Bool}
    (hv : (w.store.view i k).isSome) :
    Solo i (insert k row) w r w' ↔ r = .ok false ∧ w' = w := by
  refine solo_db.trans ⟨?_, ?_⟩
  · rintro ⟨st, hst, rfl⟩
    simp only [StoreOp.exec, hv, if_true] at hst
    cases hst
    exact ⟨rfl, rfl⟩
  · rintro ⟨rfl, rfl⟩
    exact ⟨w'.store, by simp [StoreOp.exec, hv], rfl⟩

theorem solo_insert_absent {k : Key B} {row : k.Row} {r : Except Exn Bool}
    (hv : w.store.view i k = none) (hf : w.store.free i k = true) :
    Solo i (insert k row) w r w' ↔ r = .ok true ∧ w' = w.withStore (w.store.stage i k row) := by
  refine solo_db.trans ⟨?_, ?_⟩
  · rintro ⟨st, hst, rfl⟩
    simp [StoreOp.exec, hv, hf] at hst
    obtain ⟨rfl, rfl⟩ := hst
    exact ⟨rfl, rfl⟩
  · rintro ⟨rfl, rfl⟩
    exact ⟨_, by simp [StoreOp.exec, hv, hf], rfl⟩

/-- The exception that leaves a unit of work. -/
def translated : Exn → Exn
  | .database d => translateDatabaseError d
  | x => x

/-- A unit of work alone: the body's writes are committed if it returns, and
dropped if it raises. -/
theorem solo_uow {α : Type} {body : App B α} {r : Except Exn α} :
    Solo i (uow body) w r w' ↔ ∃ r₁ w₁, Solo i body w r₁ w₁ ∧
      match r₁ with
      | .ok a => r = .ok a ∧ w' = w₁.withStore (w₁.store.commit i)
      | .error x => r = .error (translated x) ∧ w' = w₁.withStore (w₁.store.close i) := by
  refine solo_outcome_bind.trans ⟨?_, ?_⟩
  · rintro ⟨r₁, w₁, h₁, h₂⟩
    refine ⟨r₁, w₁, h₁, ?_⟩
    cases r₁ with
    | ok a =>
        obtain ⟨r₂, w₂, h₃, h₄⟩ := solo_bind.mp h₂
        obtain ⟨r₃, w₃, h₅, h₆⟩ := solo_outcome_bind.mp h₃
        obtain ⟨rfl, rfl⟩ := solo_commit.mp h₅
        obtain ⟨rfl, rfl⟩ := h₆
        exact h₄
    | error x =>
        obtain ⟨r₂, w₂, h₃, h₄⟩ := solo_bind.mp h₂
        obtain ⟨r₃, w₃, h₅, h₆⟩ := solo_outcome_bind.mp h₃
        obtain ⟨rfl, rfl⟩ := solo_rollback.mp h₅
        cases x with
        | database d =>
            obtain ⟨rfl, rfl⟩ := h₆
            exact h₄
        | _ =>
            obtain ⟨rfl, rfl⟩ := h₆
            exact h₄
  · rintro ⟨r₁, w₁, h₁, h₂⟩
    refine ⟨r₁, w₁, h₁, ?_⟩
    cases r₁ with
    | ok a =>
        refine solo_bind.mpr ⟨.ok (), _, solo_outcome_bind.mpr
          ⟨_, _, solo_commit.mpr ⟨rfl, rfl⟩, ⟨rfl, rfl⟩⟩, h₂⟩
    | error x =>
        cases x with
        | database d =>
            exact solo_bind.mpr ⟨.error _, _, solo_outcome_bind.mpr
              ⟨_, _, solo_rollback.mpr ⟨rfl, rfl⟩, ⟨rfl, rfl⟩⟩, h₂⟩
        | _ =>
            exact solo_bind.mpr ⟨.ok (), _, solo_outcome_bind.mpr
              ⟨_, _, solo_rollback.mpr ⟨rfl, rfl⟩, ⟨rfl, rfl⟩⟩, h₂⟩

/-! ## The service alone -/

/-- The world after a lookup: a read-only transaction has come and gone. -/
def World.looked (w : World B C) (i : Nat) (identity : IdempotencyIdentity) : World B C :=
  w.withStore ((w.store.note i (.record identity)).commit i)

/-- No live record: none at all, or an expired one. -/
def Dead (identity : IdempotencyIdentity) (w : World B C) : Prop :=
  ∀ r, w.store.rows (.record identity) = some r → r.expiresAt ≤ w.clock

variable {identity : IdempotencyIdentity} {requestHash : Digest}

/-- The reader finds nothing. -/
theorem solo_getCompleted (hs : w.store.staged i = fun _ => none) (hd : Dead identity w)
    {r : Except Exn (Option CompletedIdempotencyResult)} :
    Solo i (getCompleted identity) w r w' ↔
      r = .ok none ∧ w' = w.withStore (w.store.note i (.record identity)) := by
  have hview : w.store.view i (.record identity) = w.store.rows (.record identity) :=
    Store.view_of_unstaged (by rw [hs])
  refine solo_bind.trans ⟨?_, ?_⟩
  · rintro ⟨r₁, w₁, h₁, h₂⟩
    obtain ⟨rfl, rfl⟩ := solo_read.mp h₁
    rw [hview] at h₂
    cases hrow : w.store.rows (.record identity) with
    | none =>
        rw [hrow] at h₂
        exact h₂
    | some row =>
        rw [hrow] at h₂
        obtain ⟨r₃, w₃, h₃, h₄⟩ := solo_bind.mp h₂
        obtain ⟨rfl, rfl⟩ := solo_utcNow.mp h₃
        have hexp : row.expiresAt ≤ w.clock := hd row hrow
        simp only [Machine.Onwards, withStore_clock, hexp, if_true] at h₄
        exact h₄
  · rintro ⟨rfl, rfl⟩
    refine ⟨_, _, solo_read.mpr ⟨rfl, rfl⟩, ?_⟩
    rw [hview]
    cases hrow : w.store.rows (.record identity) with
    | none => exact ⟨rfl, rfl⟩
    | some row =>
        have hexp : row.expiresAt ≤ w.clock := hd row hrow
        refine solo_bind.mpr ⟨_, _, solo_utcNow.mpr ⟨rfl, rfl⟩, ?_⟩
        simp only [Machine.Onwards, withStore_clock, hexp, if_true]
        exact ⟨rfl, rfl⟩

theorem solo_findExisting (hs : w.store.staged i = fun _ => none) (hd : Dead identity w)
    {r : Except Exn (Option ExecutionResult)} :
    Solo i (findExisting identity requestHash) w r w' ↔
      r = .ok none ∧ w' = w.looked i identity := by
  refine solo_bind.trans ⟨?_, ?_⟩
  · rintro ⟨r₁, w₁, h₁, h₂⟩
    obtain ⟨r₂, w₂, h₃, h₄⟩ := solo_uow.mp h₁
    obtain ⟨rfl, rfl⟩ := (solo_getCompleted hs hd).mp h₃
    obtain ⟨rfl, rfl⟩ := h₄
    exact h₂
  · rintro ⟨rfl, rfl⟩
    exact ⟨.ok none, _, solo_uow.mpr ⟨_, _, (solo_getCompleted hs hd).mpr ⟨rfl, rfl⟩, rfl, rfl⟩,
      rfl, rfl⟩

/-- A callback leaves the committed rows, the clock and everything about
the records as it finds them. -/
theorem solo_operation {α : Type} {op : Operation B α} {r : Except Exn α}
    (h : Solo i op.run w r w') :
    w'.store.rows = w.store.rows ∧ w'.clock = w.clock ∧
      (∀ id, w'.store.staged i (.record id) = w.store.staged i (.record id)) ∧
      ∀ id, w'.store.holder (.record id) = w.store.holder (.record id) := by
  induction op generalizing w with
  | ret a =>
      obtain ⟨-, rfl⟩ := h
      exact ⟨rfl, rfl, fun _ => rfl, fun _ => rfl⟩
  | throw x =>
      obtain ⟨-, rfl⟩ := h
      exact ⟨rfl, rfl, fun _ => rfl, fun _ => rfl⟩
  | op e k ih =>
      obtain ⟨c, a, w₁, -, hx, hk⟩ := h
      obtain ⟨hstep, -⟩ := opEff_contained hx
      obtain ⟨hrows, hclock, hrec, hlock⟩ := ih _ hk
      refine ⟨hrows.trans hstep.rows, hclock.trans hstep.clock, fun id => ?_, fun id => ?_⟩
      · rw [hrec, hstep.records]
      · rw [hlock, hstep.locks]

/-- What a caller on its own starts from: no transaction is open anywhere
near its record, and the callback will return. -/
structure Ready (i : Nat) (identity : IdempotencyIdentity) (operation : Operation B StoredResult)
    (w : World B C) : Prop where
  idle : Idle i w
  unheld : w.store.holder (.record identity) = none
  dead : Dead identity w
  runs : ∃ r w₁, Solo i operation.run (w.looked i identity) r w₁
  returns : ∀ r w₁, Solo i operation.run (w.looked i identity) r w₁ → ∃ stored, r = .ok stored

/-- The rows after the callback's writes and its record are committed. -/
def fencedRows (retention : Retention) (identity : IdempotencyIdentity) (i : Nat)
    (completed : CompletedIdempotencyResult) (w₁ : World B C) : (k : Key B) → Option k.Row :=
  Function.update (w₁.store.view i) (.record identity)
    (some (completedRecord retention completed w₁.clock))

variable {operation : Operation B StoredResult} {retention : Retention}

theorem Ready.looked_rows (h : Ready i identity operation w) :
    (w.looked i identity).store.rows = w.store.rows := by
  funext k
  exact Store.view_of_unstaged (by rw [Store.note_staged, h.idle.staged])

theorem looked_staged : (w.looked i identity).store.staged i = fun _ => none :=
  Store.close_staged_self _

theorem Ready.looked_unheld (h : Ready i identity operation w) :
    (w.looked i identity).store.holder (.record identity) = none := by
  simp [World.looked, Store.close, h.unheld]

/-- The state the callback leaves for the insert. -/
theorem Ready.ran (h : Ready i identity operation w) {stored : StoredResult} {w₁ : World B C}
    (hrun : Solo i operation.run (w.looked i identity) (.ok stored) w₁) :
    w₁.store.view i (.record identity) = w.store.rows (.record identity) ∧
      w₁.store.free i (.record identity) = true ∧ w₁.store.rows = w.store.rows ∧
      w₁.clock = w.clock := by
  obtain ⟨hrows, hclock, hrec, hlock⟩ := solo_operation hrun
  have hst : w₁.store.staged i (.record identity) = none := by
    rw [hrec, looked_staged]
  refine ⟨?_, ?_, hrows.trans h.looked_rows, hclock⟩
  · rw [Store.view_of_unstaged hst, hrows, h.looked_rows]
  · simp [Store.free, hlock, h.looked_unheld]

/-- **No record**: the callback's writes and a record are committed. -/
theorem Ready.executed (h : Ready i identity operation w)
    (hrow : w.store.rows (.record identity) = none) {r : Except Exn ExecutionResult} :
    Solo i (executeOnce retention identity requestHash operation) w r w' ↔
      ∃ stored w₁, Solo i operation.run (w.looked i identity) (.ok stored) w₁ ∧
        r = .ok (.executed { stored with requestHash := requestHash }) ∧
        w' = w₁.withStore ((w₁.store.stage i (.record identity)
          (completedRecord retention { stored with requestHash := requestHash }
            w₁.clock)).commit i) := by
  refine solo_bind.trans ⟨?_, ?_⟩
  · rintro ⟨r₀, w₀, h₀, h₁⟩
    obtain ⟨rfl, rfl⟩ := (solo_findExisting h.idle.staged h.dead).mp h₀
    obtain ⟨r₁, w₁, h₂, h₃⟩ := solo_outcome_bind.mp h₁
    obtain ⟨r₂, w₂, h₄, h₅⟩ := solo_uow.mp h₂
    obtain ⟨r₃, w₃, h₆, h₇⟩ := solo_bind.mp h₄
    obtain ⟨stored, rfl⟩ := h.returns r₃ w₃ h₆
    obtain ⟨hview, hfree, -, -⟩ := h.ran h₆
    obtain ⟨r₄, w₄, h₈, h₉⟩ := solo_bind.mp h₇
    obtain ⟨r₅, w₅, h₁₀, h₁₁⟩ := solo_bind.mp h₈
    obtain ⟨rfl, rfl⟩ := solo_utcNow.mp h₁₀
    obtain ⟨rfl, rfl⟩ := (solo_insert_absent (hview.trans hrow) hfree).mp h₁₁
    obtain ⟨rfl, rfl⟩ := h₉
    obtain ⟨rfl, rfl⟩ := h₅
    obtain ⟨rfl, rfl⟩ := h₃
    exact ⟨stored, _, h₆, rfl, rfl⟩
  · rintro ⟨stored, w₁, hrun, rfl, rfl⟩
    obtain ⟨hview, hfree, -, -⟩ := h.ran hrun
    refine ⟨_, _, (solo_findExisting h.idle.staged h.dead).mpr ⟨rfl, rfl⟩, ?_⟩
    refine solo_outcome_bind.mpr ⟨_, _, solo_uow.mpr ⟨.ok _, w₁.withStore
      (w₁.store.stage i (.record identity) (completedRecord retention _ w₁.clock)),
      solo_bind.mpr ⟨_, _, hrun, ?_⟩, rfl, rfl⟩, rfl, rfl⟩
    refine solo_bind.mpr ⟨.ok true, _, solo_bind.mpr ⟨_, _, solo_utcNow.mpr ⟨rfl, rfl⟩, ?_⟩,
      rfl, rfl⟩
    exact (solo_insert_absent (hview.trans hrow) hfree).mpr ⟨rfl, rfl⟩

/-- **An expired record**: the insert is fenced by it, the callback is
rolled back, and the lookup for a winner finds nothing. -/
theorem Ready.poisoned (h : Ready i identity operation w)
    (hrow : (w.store.rows (.record identity)).isSome) {r : Except Exn ExecutionResult} :
    Solo i (executeOnce retention identity requestHash operation) w r w' ↔
      ∃ stored w₁, Solo i operation.run (w.looked i identity) (.ok stored) w₁ ∧
        r = .error (.runtimeError noWinner) ∧
        w' = (w₁.withStore (w₁.store.close i)).looked i identity := by
  have hlost : ∀ (stored : StoredResult) (w₁ : World B C),
      Solo i operation.run (w.looked i identity) (.ok stored) w₁ →
      (w₁.withStore (w₁.store.close i)).store.staged i = (fun _ => none) ∧
        Dead identity (w₁.withStore (w₁.store.close i)) := by
    intro stored w₁ hrun
    obtain ⟨-, -, hrows, hclock⟩ := h.ran hrun
    refine ⟨Store.close_staged_self _, fun row hr => ?_⟩
    have hr' : w.store.rows (.record identity) = some row := by
      rw [← hrows]
      exact hr
    rw [withStore_clock, hclock]
    exact h.dead row hr'
  refine solo_bind.trans ⟨?_, ?_⟩
  · rintro ⟨r₀, w₀, h₀, h₁⟩
    obtain ⟨rfl, rfl⟩ := (solo_findExisting h.idle.staged h.dead).mp h₀
    obtain ⟨r₁, w₁, h₂, h₃⟩ := solo_outcome_bind.mp h₁
    obtain ⟨r₂, w₂, h₄, h₅⟩ := solo_uow.mp h₂
    obtain ⟨r₃, w₃, h₆, h₇⟩ := solo_bind.mp h₄
    obtain ⟨stored, rfl⟩ := h.returns r₃ w₃ h₆
    obtain ⟨hview, -, -, -⟩ := h.ran h₆
    obtain ⟨r₄, w₄, h₈, h₉⟩ := solo_bind.mp h₇
    obtain ⟨r₅, w₅, h₁₀, h₁₁⟩ := solo_bind.mp h₈
    obtain ⟨rfl, rfl⟩ := solo_utcNow.mp h₁₀
    obtain ⟨rfl, rfl⟩ := (solo_insert_present (by rw [hview]; exact hrow)).mp h₁₁
    obtain ⟨rfl, rfl⟩ := h₉
    obtain ⟨rfl, rfl⟩ := h₅
    obtain ⟨hclean, hdead⟩ := hlost stored _ h₆
    obtain ⟨r₆, w₆, h₁₂, h₁₃⟩ := solo_bind.mp h₃
    obtain ⟨rfl, rfl⟩ := (solo_findExisting hclean hdead).mp h₁₂
    obtain ⟨rfl, rfl⟩ := h₁₃
    exact ⟨stored, _, h₆, rfl, rfl⟩
  · rintro ⟨stored, w₁, hrun, rfl, rfl⟩
    obtain ⟨hview, -, -, -⟩ := h.ran hrun
    obtain ⟨hclean, hdead⟩ := hlost stored w₁ hrun
    refine ⟨_, _, (solo_findExisting h.idle.staged h.dead).mpr ⟨rfl, rfl⟩, ?_⟩
    refine solo_outcome_bind.mpr ⟨.error .concurrentWinnerCommitted, _, solo_uow.mpr
      ⟨.error .concurrentWinnerCommitted, w₁, solo_bind.mpr ⟨_, _, hrun, ?_⟩, rfl, rfl⟩, ?_⟩
    · refine solo_bind.mpr ⟨.ok false, _, solo_bind.mpr ⟨_, _, solo_utcNow.mpr ⟨rfl, rfl⟩, ?_⟩,
        rfl, rfl⟩
      exact (solo_insert_present (by rw [hview]; exact hrow)).mpr ⟨rfl, rfl⟩
    · exact solo_bind.mpr ⟨_, _, (solo_findExisting hclean hdead).mpr ⟨rfl, rfl⟩, rfl, rfl⟩

/-- The call behaves as if no record were stored: it always comes to an
end, and it ends EXECUTED, with the callback's writes committed together
with a live record. -/
def RunsAfresh (retention : Retention) (i : Nat) (identity : IdempotencyIdentity)
    (requestHash : Digest) (operation : Operation B StoredResult) (w : World B C) : Prop :=
  (∃ r w', Solo i (executeOnce retention identity requestHash operation) w r w') ∧
    ∀ r w', Solo i (executeOnce retention identity requestHash operation) w r w' →
      ∃ stored w₁, Solo i operation.run (w.looked i identity) (.ok stored) w₁ ∧
        r = .ok (.executed { stored with requestHash := requestHash }) ∧
        w'.store.rows =
          fencedRows retention identity i { stored with requestHash := requestHash } w₁ ∧
        (completedRecord retention { stored with requestHash := requestHash } w₁.clock).Live
          w'.clock

/-- **Expired records poison their key.** A caller on its own, with no live
record of its identity, gets what an empty table would give it exactly if
the table is empty. -/
theorem executeOnce_afresh_iff (retention : Retention) (requestHash : Digest)
    (h : Ready i identity operation w) :
    RunsAfresh retention i identity requestHash operation w ↔
      w.store.rows (.record identity) = none := by
  obtain ⟨r₁, w₁, hrun⟩ := h.runs
  obtain ⟨stored, rfl⟩ := h.returns r₁ w₁ hrun
  constructor
  · rintro ⟨-, hall⟩
    cases hrow : w.store.rows (.record identity) with
    | none => rfl
    | some row =>
        have hsome : (w.store.rows (.record identity)).isSome := by simp [hrow]
        obtain ⟨_, _, -, hr, -⟩ := hall _ _ ((h.poisoned hsome).mpr ⟨stored, w₁, hrun, rfl, rfl⟩)
        cases hr
  · intro hrow
    refine ⟨⟨_, _, (h.executed hrow).mpr ⟨stored, w₁, hrun, rfl, rfl⟩⟩, fun r w' hsolo => ?_⟩
    obtain ⟨stored', w₂, hrun', rfl, rfl⟩ := (h.executed hrow).mp hsolo
    refine ⟨stored', w₂, hrun', rfl, ?_, ?_⟩
    · funext k
      by_cases hk : k = .record identity
      · subst hk
        rw [withStore_store, Store.commit_rows, fencedRows, Function.update_self]
        exact Store.view_of_staged (by simp)
      · rw [withStore_store, Store.commit_rows, fencedRows, Function.update_of_ne hk]
        simp [Store.view, Function.update_of_ne hk]
    · have hpos := retention.pos
      exact Nat.lt_add_of_pos_right (Nat.mul_pos hpos (by decide))

namespace Sample

/-- The counter's table of records, with one row for every identity, at time
10: expired since time 5. -/
def expired : World counter codec :=
  World.start (fun
    | .record _ => some ⟨completed, 1, 0, 0, 5⟩
    | .biz _ => none) 10

/-- A world in which nothing has been stored. -/
def empty : World counter codec := World.start (fun _ => none) 10

theorem callback_returns {w w₁ : World counter codec} {r : Except Exn StoredResult}
    (h : Solo 0 callback.body.run w r w₁) : ∃ stored, r = .ok stored := by
  obtain ⟨c, a, w', hf, hx, hk⟩ := h
  cases a with
  | ok a => exact ⟨stored, hk.1⟩
  | error x =>
      -- a faultless put does not answer with an error
      rcases c with (_ | x | x) | b | u | x
      · obtain ⟨⟨r', st⟩, hst, he⟩ := Option.map_eq_some_iff.mp hx
        cases he
        rcases StoreOp.exec_put hst with ⟨_, hgo, -⟩ | ⟨-, herr, -⟩
        · cases hgo
        · cases herr
      · cases hf
      · cases hf
      all_goals cases hx

theorem ready_expired : Ready 0 caller callback.body expired where
  idle := ⟨rfl, fun _ => by simp [expired, World.start, Store.quiet], rfl⟩
  unheld := rfl
  dead := by
    rintro r ⟨⟩
    decide
  runs := ⟨.ok stored, _, .fate .go, .ok (), _, rfl, rfl, rfl, rfl⟩
  returns _ _ := callback_returns

theorem ready_empty : Ready 0 caller callback.body empty where
  idle := ⟨rfl, fun _ => by simp [empty, World.start, Store.quiet], rfl⟩
  unheld := rfl
  dead := by
    rintro r ⟨⟩
  runs := ⟨.ok stored, _, .fate .go, .ok (), _, rfl, rfl, rfl, rfl⟩
  returns _ _ := callback_returns

end Sample

open Sample in
/-- With the expired row still stored the callback is rolled back. -/
theorem executeOnce_poisoned_sample : Ready 0 caller callback.body expired ∧
    (∀ r, expired.store.rows (.record caller) = some r → r.expiresAt ≤ expired.clock) ∧
    ¬ RunsAfresh Sample.retention 0 caller (digest 1) callback.body expired := by
  refine ⟨ready_expired, ready_expired.dead, fun h => ?_⟩
  obtain ⟨r₁, w₁, hrun⟩ := ready_expired.runs
  obtain ⟨stored, rfl⟩ := callback_returns hrun
  obtain ⟨_, _, -, hr, -⟩ := h.2 _ _ ((ready_expired.poisoned rfl).mpr ⟨stored, w₁, hrun, rfl, rfl⟩)
  cases hr

open Sample in
theorem executeOnce_afresh_sample : Ready 0 caller callback.body empty ∧
    RunsAfresh Sample.retention 0 caller (digest 1) callback.body empty :=
  ⟨ready_empty, (executeOnce_afresh_iff Sample.retention (digest 1) ready_empty).mpr rfl⟩

end IdentityService
