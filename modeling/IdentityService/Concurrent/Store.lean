import Mathlib.Data.List.Induction
import IdentityService.Concurrent.RelyGuarantee

/-!
# A transactional store with row locks

The database under READ COMMITTED, cut down to what row-level code can
see. A key names one row, or one entry of a unique index; `Row k` is the
type of what is stored there.

* Uncommitted writes live in a private overlay, `staged i`; a transaction
  sees its overlay over the COMMITTED rows of the moment (`view`), so two
  reads of one transaction may see different commits of others.
* `SELECT .. FOR UPDATE`, updates and inserts take the key's lock and hold
  it to the end of the transaction; a key held by somebody else makes the
  statement wait (the operation has no result in that state).
* An insert of a key that is present changes nothing and says so
  (`ON CONFLICT DO NOTHING`); one that meets an in-flight inserter waits
  for the outcome.
* A commit publishes the whole overlay at once. It may be reported as an
  error whether or not it applied.

`log`, `granted` and `seen` are history: the committed write sets in
order, the rows each process was handed under a lock, and the keys an open
transaction has read without one.
-/

namespace Concurrent

variable {K : Type} {Row : K → Type} {ε : Type}

/-- One entry of the commit history: a process's write set, or a bulk
delete. -/
inductive Entry (K : Type) (Row : K → Type) where
  | commit (pid : Nat) (writes : (k : K) → Option (Row k))
  | delete (keys : List K)

/-- The committed rows; for each process what it has staged, seen and been
granted; who holds which lock; and what has been committed. -/
structure Store (K : Type) (Row : K → Type) where
  rows : (k : K) → Option (Row k)
  staged : Nat → (k : K) → Option (Row k)
  holder : K → Option Nat
  seen : Nat → K → Bool
  granted : Nat → List (Sigma Row)
  log : List (Entry K Row)

namespace Store

variable (s : Store K Row) (i : Nat)

/-- No transaction is open, nothing has been committed yet. -/
def quiet (rows : (k : K) → Option (Row k)) : Store K Row :=
  ⟨rows, fun _ _ => none, fun _ => none, fun _ _ => false, fun _ => [], []⟩

/-- What transaction `i` sees under key `k`. -/
def view (k : K) : Option (Row k) := (s.staged i k).or (s.rows k)

/-- Nobody else holds `k`. -/
def free (k : K) : Bool := s.holder k = none || s.holder k = some i

/-- Close transaction `i`: overlay, locks and read set are gone. -/
def close : Store K Row :=
  { s with
    staged := Function.update s.staged i fun _ => none
    holder := fun k => if s.holder k = some i then none else s.holder k
    seen := Function.update s.seen i fun _ => false }

/-- The staged rows are committed, the locks released. -/
def commit : Store K Row :=
  { s.close i with rows := s.view i, log := s.log ++ [.commit i (s.staged i)] }

variable [DecidableEq K]

/-- The lock is taken. -/
def acquire (k : K) : Store K Row := { s with holder := Function.update s.holder k (some i) }

/-- Write `r` under `k` in the overlay of `i`, holding the key. -/
def stage (k : K) (r : Row k) : Store K Row :=
  { s.acquire i k with
    staged := Function.update s.staged i (Function.update (s.staged i) k (some r)) }

/-- Hand `r` out under the lock of `k`. -/
def grant (k : K) (r : Row k) : Store K Row :=
  { s.acquire i k with granted := Function.update s.granted i (s.granted i ++ [⟨k, r⟩]) }

/-- Note that transaction `i` has read `k` without a lock. -/
def note (k : K) : Store K Row :=
  { s with seen := Function.update s.seen i (Function.update (s.seen i) k true) }

/-- A bulk delete committed on its own: it skips locked rows, so it needs
every key unheld. -/
def delete (ks : List K) : Option (Store K Row) :=
  if ks.all fun k => s.holder k = none then
    some { s with rows := fun k => if k ∈ ks then none else s.rows k, log := s.log ++ [.delete ks] }
  else none

end Store

/-! ## The statements as effects -/

/-- The statements of a transaction. -/
inductive StoreOp (K : Type) (Row : K → Type) where
  | read (k : K)
  | lock (k : K)
  | put (k : K) (r : Row k)
  | insert (k : K) (r : Row k)
  | commit
  | rollback

/-- `read` and `lock` answer with the row, `insert` with whether it
inserted. -/
@[reducible] def StoreOp.Resp : StoreOp K Row → Type
  | .read k => Option (Row k)
  | .lock k => Option (Row k)
  | .put _ _ => Unit
  | .insert _ _ => Bool
  | .commit => Unit
  | .rollback => Unit

/-- How the outside lets a statement end: normally, as an error before it
did anything, or (a commit) as an error after it applied. -/
inductive Fate (ε : Type) where
  | go
  | fault (x : ε)
  | applied (x : ε)

/-- The same fate with another exception. -/
def Fate.map {δ : Type} (f : ε → δ) : Fate ε → Fate δ
  | .go => .go
  | .fault x => .fault (f x)
  | .applied x => .applied (f x)

/-- One statement of transaction `i`. A failed rollback still ends the
transaction: the connection is gone and the server discards it. -/
def StoreOp.exec [DecidableEq K] (i : Nat) : (o : StoreOp K Row) → Fate ε → Store K Row →
    Option (Except ε o.Resp × Store K Row)
  | .read k, .go, s => some (.ok (s.view i k), s.note i k)
  | .lock k, .go, s =>
    match s.view i k with
    | none => some (.ok none, s)
    | some r => if s.free i k then some (.ok (some r), s.grant i k r) else none
  | .put k r, .go, s => if s.free i k then some (.ok (), s.stage i k r) else none
  | .insert k r, .go, s =>
    if (s.view i k).isSome then some (.ok false, s)
    else if s.free i k then some (.ok true, s.stage i k r) else none
  | .commit, .go, s => some (.ok (), s.commit i)
  | .commit, .applied x, s => some (.error x, s.commit i)
  | .rollback, .go, s => some (.ok (), s.close i)
  | .rollback, .fault x, s => some (.error x, s.close i)
  | _, .fault x, s => some (.error x, s)
  | _, .applied _, _ => none

/-! ## Locks protect what they should -/

namespace Store

variable {s s' : Store K Row} {i j : Nat}

/-- Staged writes are protected by the lock on their key. -/
def Locked (s : Store K Row) : Prop := ∀ i k, (s.staged i k).isSome → s.holder k = some i

/-- What the other transactions leave alone: my overlay, my locks, my read
set, what I was granted, and the committed rows I hold. -/
structure Keeps (i : Nat) (s s' : Store K Row) : Prop where
  staged : s'.staged i = s.staged i
  holder : ∀ k, s'.holder k = some i ↔ s.holder k = some i
  rows : ∀ k, s.holder k = some i → s'.rows k = s.rows k
  seen : s'.seen i = s.seen i
  granted : s'.granted i = s.granted i

theorem Keeps.refl (i : Nat) (s : Store K Row) : Keeps i s s :=
  ⟨rfl, fun _ => Iff.rfl, fun _ _ => rfl, rfl, rfl⟩

theorem locked_quiet (rows : (k : K) → Option (Row k)) : (quiet rows).Locked := by
  intro i k h
  simp [quiet] at h

theorem view_of_unstaged {k : K} (h : s.staged i k = none) : s.view i k = s.rows k := by
  simp [view, h]

theorem view_of_staged {k : K} {r : Row k} (h : s.staged i k = some r) :
    s.view i k = some r := by
  simp [view, h]

@[simp] theorem close_rows (s : Store K Row) : (s.close i).rows = s.rows := rfl

@[simp] theorem close_log (s : Store K Row) : (s.close i).log = s.log := rfl

@[simp] theorem close_granted (s : Store K Row) : (s.close i).granted = s.granted := rfl

@[simp] theorem close_staged_self (s : Store K Row) : (s.close i).staged i = fun _ => none := by
  simp [close]

theorem close_staged_ne (s : Store K Row) (h : j ≠ i) : (s.close i).staged j = s.staged j := by
  simp [close, h]

theorem close_holder_self (s : Store K Row) (k : K) : (s.close i).holder k ≠ some i := by
  simp only [close]
  split
  · simp
  · assumption

theorem close_holder_ne (s : Store K Row) (k : K) (h : j ≠ i) :
    (s.close i).holder k = some j ↔ s.holder k = some j := by
  simp only [close]
  split
  · rename_i hk
    simp [hk, Ne.symm h]
  · rfl

@[simp] theorem commit_rows (s : Store K Row) : (s.commit i).rows = s.view i := rfl

@[simp] theorem commit_staged (s : Store K Row) : (s.commit i).staged = (s.close i).staged := rfl

@[simp] theorem commit_holder (s : Store K Row) : (s.commit i).holder = (s.close i).holder := rfl

@[simp] theorem commit_granted (s : Store K Row) : (s.commit i).granted = s.granted := rfl

@[simp] theorem commit_log (s : Store K Row) :
    (s.commit i).log = s.log ++ [.commit i (s.staged i)] := rfl

theorem Locked.close (h : s.Locked) : (s.close i).Locked := by
  intro j k hk
  by_cases hji : j = i
  · subst hji
    simp at hk
  · rw [close_staged_ne s hji] at hk
    rw [close_holder_ne s k hji]
    exact h j k hk

theorem Locked.commit (h : s.Locked) : (s.commit i).Locked := h.close (i := i)

theorem Keeps.close (hji : j ≠ i) : Keeps j s (s.close i) :=
  ⟨close_staged_ne s hji, fun k => close_holder_ne s k hji, fun _ _ => rfl,
    by simp [Store.close, hji], rfl⟩

/-- A commit changes only rows its own transaction holds. -/
theorem Keeps.commit (h : s.Locked) (hji : j ≠ i) : Keeps j s (s.commit i) := by
  refine ⟨close_staged_ne s hji, fun k => close_holder_ne s k hji, fun k hk => ?_,
    (Keeps.close hji).seen, rfl⟩
  have hun : s.staged i k = none := by
    cases hst : s.staged i k with
    | none => rfl
    | some r =>
        have hi := h i k (by simp [hst])
        rw [hk] at hi
        exact absurd (Option.some.inj hi) hji
  rw [commit_rows, view_of_unstaged hun]

variable [DecidableEq K]

@[simp] theorem acquire_rows (s : Store K Row) (k : K) : (s.acquire i k).rows = s.rows := rfl

@[simp] theorem acquire_staged (s : Store K Row) (k : K) :
    (s.acquire i k).staged = s.staged := rfl

@[simp] theorem acquire_log (s : Store K Row) (k : K) : (s.acquire i k).log = s.log := rfl

@[simp] theorem acquire_granted (s : Store K Row) (k : K) :
    (s.acquire i k).granted = s.granted := rfl

@[simp] theorem acquire_holder_self (s : Store K Row) (k : K) :
    (s.acquire i k).holder k = some i := by
  simp [acquire]

theorem acquire_holder_ne (s : Store K Row) {k k' : K} (h : k' ≠ k) :
    (s.acquire i k).holder k' = s.holder k' := by
  simp [acquire, h]

/-- Taking one more lock keeps the ones already held. -/
theorem acquire_holds {k k' : K} (h : s.holder k' = some i) :
    (s.acquire i k).holder k' = some i := by
  by_cases hkk : k' = k
  · subst hkk
    simp
  · rwa [acquire_holder_ne s hkk]

@[simp] theorem stage_rows (s : Store K Row) (k : K) (r : Row k) :
    (s.stage i k r).rows = s.rows := rfl

@[simp] theorem stage_log (s : Store K Row) (k : K) (r : Row k) :
    (s.stage i k r).log = s.log := rfl

@[simp] theorem stage_granted (s : Store K Row) (k : K) (r : Row k) :
    (s.stage i k r).granted = s.granted := rfl

@[simp] theorem stage_holder (s : Store K Row) (k : K) (r : Row k) :
    (s.stage i k r).holder = (s.acquire i k).holder := rfl

@[simp] theorem stage_staged_self (s : Store K Row) (k : K) (r : Row k) :
    (s.stage i k r).staged i = Function.update (s.staged i) k (some r) := by
  simp [stage]

theorem stage_staged_ne (s : Store K Row) (k : K) (r : Row k) (h : j ≠ i) :
    (s.stage i k r).staged j = s.staged j := by
  simp [stage, h]

@[simp] theorem note_rows (s : Store K Row) (k : K) : (s.note i k).rows = s.rows := rfl

@[simp] theorem note_staged (s : Store K Row) (k : K) : (s.note i k).staged = s.staged := rfl

@[simp] theorem note_holder (s : Store K Row) (k : K) : (s.note i k).holder = s.holder := rfl

@[simp] theorem note_log (s : Store K Row) (k : K) : (s.note i k).log = s.log := rfl

@[simp] theorem note_granted (s : Store K Row) (k : K) : (s.note i k).granted = s.granted := rfl

@[simp] theorem grant_rows (s : Store K Row) (k : K) (r : Row k) :
    (s.grant i k r).rows = s.rows := rfl

@[simp] theorem grant_staged (s : Store K Row) (k : K) (r : Row k) :
    (s.grant i k r).staged = s.staged := rfl

@[simp] theorem grant_holder (s : Store K Row) (k : K) (r : Row k) :
    (s.grant i k r).holder = (s.acquire i k).holder := rfl

@[simp] theorem grant_log (s : Store K Row) (k : K) (r : Row k) :
    (s.grant i k r).log = s.log := rfl

@[simp] theorem grant_granted (s : Store K Row) (k : K) (r : Row k) :
    (s.grant i k r).granted = Function.update s.granted i (s.granted i ++ [⟨k, r⟩]) := rfl

theorem Locked.acquire (h : s.Locked) {k : K} (hf : s.free i k = true) :
    (s.acquire i k).Locked := by
  intro j k' hk'
  have hj := h j k' hk'
  by_cases hkk : k' = k
  · subst hkk
    simp only [free, Bool.or_eq_true, decide_eq_true_eq, hj, reduceCtorEq, false_or,
      Option.some.injEq] at hf
    simp [hf]
  · rwa [acquire_holder_ne s hkk]

theorem Locked.stage (h : s.Locked) {k : K} (r : Row k) (hf : s.free i k = true) :
    (s.stage i k r).Locked := by
  intro j k' hk'
  rw [stage_holder]
  by_cases hji : j = i
  · subst hji
    by_cases hkk : k' = k
    · subst hkk
      simp
    · rw [stage_staged_self, Function.update_of_ne hkk] at hk'
      exact h.acquire hf j k' hk'
  · rw [stage_staged_ne s k r hji] at hk'
    exact h.acquire hf j k' hk'

theorem Keeps.acquire (hji : j ≠ i) {k : K} (hf : s.free i k = true) :
    Keeps j s (s.acquire i k) := by
  refine ⟨rfl, fun k' => ?_, fun _ _ => rfl, rfl, rfl⟩
  by_cases hkk : k' = k
  · subst hkk
    have hne : s.holder k' ≠ some j := by
      intro hj
      simp [free, hj] at hf
      exact hji hf
    simp [Ne.symm hji, hne]
  · rw [acquire_holder_ne s hkk]

theorem Keeps.stage (hji : j ≠ i) {k : K} (r : Row k) (hf : s.free i k = true) :
    Keeps j s (s.stage i k r) :=
  ⟨stage_staged_ne s k r hji, (Keeps.acquire hji hf).holder, fun _ _ => rfl, rfl, rfl⟩

theorem Locked.grant (h : s.Locked) {k : K} (r : Row k) (hf : s.free i k = true) :
    (s.grant i k r).Locked := h.acquire (i := i) hf

theorem Keeps.grant (hji : j ≠ i) {k : K} (r : Row k) (hf : s.free i k = true) :
    Keeps j s (s.grant i k r) :=
  ⟨rfl, (Keeps.acquire hji hf).holder, fun _ _ => rfl, rfl, by simp [hji]⟩

theorem Keeps.note (hji : j ≠ i) (k : K) : Keeps j s (s.note i k) :=
  ⟨rfl, fun _ => Iff.rfl, fun _ _ => rfl, by simp [Store.note, hji], rfl⟩

theorem delete_cases {ks : List K} (h : s.delete ks = some s') :
    (∀ k ∈ ks, s.holder k = none) ∧ s' = { s with
      rows := fun k => if k ∈ ks then none else s.rows k, log := s.log ++ [.delete ks] } := by
  simp only [delete] at h
  split at h
  · rename_i hall
    refine ⟨fun k hk => ?_, (Option.some.inj h).symm⟩
    simpa using List.all_eq_true.mp hall k hk
  · cases h

theorem Locked.delete (h : s.Locked) {ks : List K} (hd : s.delete ks = some s') :
    s'.Locked := by
  obtain ⟨-, rfl⟩ := delete_cases hd
  exact h

theorem Keeps.delete {ks : List K} (hd : s.delete ks = some s') (j : Nat) : Keeps j s s' := by
  obtain ⟨hall, rfl⟩ := delete_cases hd
  refine ⟨rfl, fun _ => Iff.rfl, fun k hk => ?_, rfl, rfl⟩
  have hnot : k ∉ ks := by
    intro hmem
    have hfree := hall k hmem
    rw [hk] at hfree
    cases hfree
  simp [hnot]

end Store

/-! ## The commit history determines the rows -/

variable [DecidableEq K]

/-- The rows after one entry of the history. -/
def Entry.apply (e : Entry K Row) (rows : (k : K) → Option (Row k)) : (k : K) → Option (Row k) :=
  match e with
  | .commit _ w => fun k => (w k).or (rows k)
  | .delete ks => fun k => if k ∈ ks then none else rows k

/-- The rows after a history, from `rows`. -/
def replay (rows : (k : K) → Option (Row k)) (log : List (Entry K Row)) :
    (k : K) → Option (Row k) :=
  log.foldl (fun r e => e.apply r) rows

theorem replay_append (rows : (k : K) → Option (Row k)) (log : List (Entry K Row))
    (e : Entry K Row) : replay rows (log ++ [e]) = e.apply (replay rows log) := by
  simp [replay]

/-- Whose commit an entry is. -/
def Entry.author : Entry K Row → Option Nat
  | .commit pid _ => some pid
  | .delete _ => none

/-- Entries that change nothing can be left out. -/
theorem replay_filter (rows : (k : K) → Option (Row k)) (keep : Entry K Row → Bool) :
    ∀ log : List (Entry K Row), (∀ e ∈ log, keep e = false → ∀ r, e.apply r = r) →
      replay rows (log.filter keep) = replay rows log := by
  intro log
  induction log using List.reverseRecOn with
  | nil => exact fun _ => rfl
  | append_singleton log e ih =>
      intro h
      have hlog := ih fun e' he' => h e' (List.mem_append_left _ he')
      rw [List.filter_append, replay_append]
      cases hk : keep e with
      | true => rw [List.filter_cons_of_pos hk, List.filter_nil, replay_append, hlog]
      | false =>
          rw [List.filter_cons_of_neg (by simp [hk]), List.filter_nil, List.append_nil, hlog]
          exact (h e (by simp) hk _).symm

/-! ## What one statement can do -/

namespace StoreOp

variable {s s' : Store K Row} {i : Nat} {c : Fate ε}

theorem exec_read {k : K} {r : Except ε (Option (Row k))}
    (h : (StoreOp.read k).exec i c s = some (r, s')) :
    (∃ x, c = .fault x ∧ r = .error x ∧ s' = s) ∨
      (c = .go ∧ r = .ok (s.view i k) ∧ s' = s.note i k) := by
  cases c <;> cases h
  · exact .inr ⟨rfl, rfl, rfl⟩
  · exact .inl ⟨_, rfl, rfl, rfl⟩

theorem exec_lock {k : K} {r : Except ε (Option (Row k))}
    (h : (StoreOp.lock k).exec i c s = some (r, s')) :
    (∃ x, c = .fault x ∧ r = .error x ∧ s' = s) ∨
      (c = .go ∧ r = .ok none ∧ s.view i k = none ∧ s' = s) ∨
      (∃ row, c = .go ∧ r = .ok (some row) ∧ s.view i k = some row ∧ s.free i k = true ∧
        s' = s.grant i k row) := by
  cases c with
  | go =>
      simp only [exec] at h
      split at h
      · rename_i hv
        cases h
        exact .inr (.inl ⟨rfl, rfl, hv, rfl⟩)
      · rename_i row hv
        split at h
        · rename_i hf
          cases h
          exact .inr (.inr ⟨row, rfl, rfl, hv, hf, rfl⟩)
        · cases h
  | fault x =>
      cases h
      exact .inl ⟨x, rfl, rfl, rfl⟩
  | applied x => cases h

theorem exec_put {k : K} {row : Row k} {r : Except ε Unit}
    (h : (StoreOp.put k row).exec i c s = some (r, s')) :
    (∃ x, c = .fault x ∧ r = .error x ∧ s' = s) ∨
      (c = .go ∧ r = .ok () ∧ s.free i k = true ∧ s' = s.stage i k row) := by
  cases c with
  | go =>
      simp only [exec] at h
      split at h
      · rename_i hf
        cases h
        exact .inr ⟨rfl, rfl, hf, rfl⟩
      · cases h
  | fault x =>
      cases h
      exact .inl ⟨x, rfl, rfl, rfl⟩
  | applied x => cases h

theorem exec_insert {k : K} {row : Row k} {r : Except ε Bool}
    (h : (StoreOp.insert k row).exec i c s = some (r, s')) :
    (∃ x, c = .fault x ∧ r = .error x ∧ s' = s) ∨
      (c = .go ∧ r = .ok false ∧ (s.view i k).isSome ∧ s' = s) ∨
      (c = .go ∧ r = .ok true ∧ s.view i k = none ∧ s.free i k = true ∧
        s' = s.stage i k row) := by
  cases c with
  | go =>
      simp only [exec] at h
      split at h
      · rename_i hv
        cases h
        exact .inr (.inl ⟨rfl, rfl, hv, rfl⟩)
      · rename_i hv
        split at h
        · rename_i hf
          cases h
          exact .inr (.inr ⟨rfl, rfl, by simpa using hv, hf, rfl⟩)
        · cases h
  | fault x =>
      cases h
      exact .inl ⟨x, rfl, rfl, rfl⟩
  | applied x => cases h

/-- A commit reported as an error may have applied. -/
theorem exec_commit {r : Except ε Unit}
    (h : (StoreOp.commit : StoreOp K Row).exec i c s = some (r, s')) :
    (∃ x, c = .fault x ∧ r = .error x ∧ s' = s) ∨ (c = .go ∧ r = .ok () ∧ s' = s.commit i) ∨
      (∃ x, c = .applied x ∧ r = .error x ∧ s' = s.commit i) := by
  cases c <;> cases h
  · exact .inr (.inl ⟨rfl, rfl, rfl⟩)
  · exact .inl ⟨_, rfl, rfl, rfl⟩
  · exact .inr (.inr ⟨_, rfl, rfl, rfl⟩)

theorem exec_rollback {r : Except ε Unit}
    (h : (StoreOp.rollback : StoreOp K Row).exec i c s = some (r, s')) :
    s' = s.close i ∧ ((c = .go ∧ r = .ok ()) ∨ ∃ x, c = .fault x ∧ r = .error x) := by
  cases c <;> cases h
  · exact ⟨rfl, .inl ⟨rfl, rfl⟩⟩
  · exact ⟨rfl, .inr ⟨_, rfl, rfl⟩⟩

end StoreOp

end Concurrent
