import IdentityService.Idempotency.Between
import IdentityService.Idempotency.Statements

/-!
# What a transaction commits

A process knows what it has staged in its open transaction: its own
statements, and their answers, say so. `writeFlow` keeps that account and
lets a process commit only a write set that `ok` accepts. If every program
of a pool keeps to it, every entry of the commit history is accepted,
whatever happens in between (`written_reach`).

A commit that raised may have applied, so nothing is known of the overlay
after it; all a unit of work does then is roll back.
-/

namespace IdentityService

open Concurrent

variable {B : Business} {C : ResultCodec} {α β : Type}

/-- The rows a process has staged; `none` while it cannot tell. -/
abbrev Overlay (B : Business) := Option ((k : Key B) → Option k.Row)

def unwritten : (k : Key B) → Option k.Row := fun _ => none

namespace Overlay

/-- One more row is staged. -/
def stage (l : Overlay B) (k : Key B) (row : k.Row) : Overlay B :=
  l.map fun wr => Function.update wr k (some row)

/-- What an answer says about the overlay. -/
def next (l : Overlay B) : (e : Eff B) → Except Exn e.Resp → Overlay B
  | .db (.put k row), .ok _ => l.stage k row
  | .db (.insert k row), .ok true => l.stage k row
  | .db .commit, .ok _ => some unwritten
  | .db .commit, .error _ => none
  | .db .rollback, _ => some unwritten
  | _, _ => l

/-- A commit is in order if its rows are. -/
def Permits (ok : ((k : Key B) → Option k.Row) → Prop) (l : Overlay B) : Eff B → Prop
  | .db .commit => ∃ wr, l = some wr ∧ ok wr
  | .db .rollback => True
  | .db _ => l.isSome
  | _ => True

end Overlay

/-- What each process commits is `ok`. -/
def writeFlow (ok : ((k : Key B) → Option k.Row) → Prop) : Flow (sig B) Exn where
  State := Overlay B
  start := some unwritten
  permits := Overlay.Permits ok
  next := Overlay.next

/-! ## The account is right -/

section Account

variable {ok : ((k : Key B) → Option k.Row) → Prop} {i : Nat} {l : Overlay B} {w w' : World B C}

/-- The overlay is the staged rows, as far as it is known. -/
def Overlay.Known (l : Overlay B) (staged : (k : Key B) → Option k.Row) : Prop :=
  ∀ wr, l = some wr → staged = wr

/-- Only statements reach the database. -/
theorem exec_store {e : Eff B} {c : Choice B} {r : Except Exn e.Resp} (he : ∀ o, e ≠ .db o)
    (h : exec i e c w = some (r, w')) : w'.store = w.store := by
  have hhot : ∀ {γ : Type} {identity : IdempotencyIdentity} {f : Fate Fault}
      {out : Except Exn γ × Option (HotHash C.Blob)} {r : Except Exn γ},
      hotCall i w identity f out = some (r, w') → w'.store = w.store := by
    intro γ identity f out r hx
    rcases hotCall_cases hx with ⟨-, -, rfl⟩ | ⟨x, -, rfl | rfl⟩
    · rfl
    · simp
    · simp
      rfl
  cases e with
  | db o => exact absurd rfl (he o)
  | hotBegin identity requestHash ownerToken =>
    rcases c with f | b | u | a
    · exact hhot h
    all_goals cases h
  | hotComplete identity ownerToken result =>
    rcases c with f | b | u | a
    · exact hhot h
    all_goals cases h
  | hotAbandon identity ownerToken =>
    rcases c with f | b | u | a
    · exact hhot h
    all_goals cases h
  | _ =>
    rcases c with (_ | x | x) | b | u | a
    all_goals first
      | cases h
        rfl
      | cases h

/-- The commit history grows by what a transaction has staged, and the rows
with it. -/
theorem exec_log {e : Eff B} {c : Choice B} {r : Except Exn e.Resp}
    (h : exec i e c w = some (r, w')) :
    w'.store.log = w.store.log ∨
      e = .db .commit ∧ w'.store.log = w.store.log ++ [.commit i (w.store.staged i)] ∧
        w'.store.rows = w.store.view i := by
  by_cases he : ∃ o, e = .db o
  · obtain ⟨o, rfl⟩ := he
    obtain ⟨f, st, hst, rfl⟩ := exec_db h
    simp only [withStore_store]
    cases o with
    | read k =>
      rcases StoreOp.exec_read hst with ⟨x, -, rfl, rfl⟩ | ⟨-, rfl, rfl⟩
      · exact .inl rfl
      · exact .inl rfl
    | lock k =>
      rcases StoreOp.exec_lock hst with ⟨x, -, rfl, rfl⟩ | ⟨-, rfl, -, rfl⟩ |
        ⟨row, -, rfl, -, -, rfl⟩
      all_goals exact .inl rfl
    | put k row =>
      rcases StoreOp.exec_put hst with ⟨x, -, rfl, rfl⟩ | ⟨-, rfl, -, rfl⟩
      · exact .inl rfl
      · exact .inl rfl
    | insert k row =>
      rcases StoreOp.exec_insert hst with ⟨x, -, rfl, rfl⟩ | ⟨-, rfl, -, rfl⟩ |
        ⟨-, rfl, -, -, rfl⟩
      all_goals exact .inl rfl
    | commit =>
      rcases StoreOp.exec_commit hst with ⟨x, -, rfl, rfl⟩ | ⟨-, rfl, rfl⟩ | ⟨x, -, rfl, rfl⟩
      · exact .inl rfl
      · exact .inr ⟨rfl, rfl, rfl⟩
      · exact .inr ⟨rfl, rfl, rfl⟩
    | rollback =>
      obtain ⟨rfl, ⟨-, rfl⟩ | ⟨x, -, rfl⟩⟩ := StoreOp.exec_rollback hst
      · exact .inl rfl
      · exact .inl rfl
  · rw [exec_store (fun o ho => he ⟨o, ho⟩) h]
    exact .inl rfl

/-- One effect keeps the account. -/
theorem exec_known {e : Eff B} {c : Choice B} {r : Except Exn e.Resp}
    (h : exec i e c w = some (r, w')) (hknown : l.Known (w.store.staged i)) :
    (l.next e r).Known (w'.store.staged i) := by
  have hstage : ∀ (k : Key B) (row : k.Row),
      (l.stage k row).Known ((w.store.stage i k row).staged i) := by
    intro k row wr hwr
    obtain ⟨wr₀, hl, rfl⟩ := Option.map_eq_some_iff.mp hwr
    rw [Store.stage_staged_self, hknown wr₀ hl]
  have hclean : Overlay.Known (some unwritten) ((w.store.close i).staged i) := by
    rintro wr ⟨⟩
    rw [Store.close_staged_self]
    rfl
  cases e with
  | db o =>
    obtain ⟨f, st, hst, rfl⟩ := exec_db h
    simp only [withStore_store]
    cases o with
    | read k =>
      rcases StoreOp.exec_read hst with ⟨x, -, rfl, rfl⟩ | ⟨-, rfl, rfl⟩
      · exact hknown
      · exact hknown
    | lock k =>
      rcases StoreOp.exec_lock hst with ⟨x, -, rfl, rfl⟩ | ⟨-, rfl, -, rfl⟩ |
        ⟨row, -, rfl, -, -, rfl⟩
      all_goals exact hknown
    | put k row =>
      rcases StoreOp.exec_put hst with ⟨x, -, rfl, rfl⟩ | ⟨-, rfl, -, rfl⟩
      · exact hknown
      · exact hstage k row
    | insert k row =>
      rcases StoreOp.exec_insert hst with ⟨x, -, rfl, rfl⟩ | ⟨-, rfl, -, rfl⟩ |
        ⟨-, rfl, -, -, rfl⟩
      · exact hknown
      · exact hknown
      · exact hstage k row
    | commit =>
      rcases StoreOp.exec_commit hst with ⟨x, -, rfl, rfl⟩ | ⟨-, rfl, rfl⟩ | ⟨x, -, rfl, rfl⟩
      · exact fun wr hwr => by cases hwr
      · exact hclean
      · exact fun wr hwr => by cases hwr
    | rollback =>
      obtain ⟨rfl, ⟨-, rfl⟩ | ⟨x, -, rfl⟩⟩ := StoreOp.exec_rollback hst
      · exact hclean
      · exact hclean
  | _ =>
    rw [exec_store (fun o ho => by cases ho) h]
    exact hknown

/-- What holds of a pool that keeps to the flow. -/
structure Written (ok : ((k : Key B) → Option k.Row) → Prop)
    (P : Config (sig B) Exn (Traced (sig B) Exn (World B C)) α) : Prop where
  locked : P.shared.state.store.Locked
  known : ∀ i p, P.pool i = some p →
    Overlay.Known ((writeFlow ok).after P.shared.trace i) (P.shared.state.store.staged i)
  log : ∀ pid wr, .commit pid wr ∈ P.shared.state.store.log → ok wr

variable {P P' : Config (sig B) Exn (Traced (sig B) Exn (World B C)) α}

theorem Written.step {Q : Nat → Except Exn α → Overlay B → Prop} (h : Written ok P)
    (hkept : (writeFlow ok).Kept Q P) {l : (machine B C).traced.Label}
    (hl : (machine B C).traced.step P l = some P') : Written ok P' := by
  rcases Machine.traced_step_cases hl with ⟨i, c, e, k, r, w, -, hp, hx, rfl⟩ |
    ⟨v, w, -, hv, rfl⟩ | ⟨i, e, k, -, hp, rfl⟩
  · obtain ⟨hlocked, hothers⟩ := exec_others h.locked hx
    have hmine := exec_known hx (h.known i _ hp)
    refine ⟨hlocked, fun j p hj => ?_, fun pid wr hmem => ?_⟩
    · by_cases hji : j = i
      · subst hji
        have hnext := (writeFlow ok).after_append_self P.shared.trace ⟨j, e, r⟩
        simp only at hnext
        rw [hnext]
        exact hmine
      · simp only [Function.update_of_ne hji] at hj
        rw [(writeFlow ok).after_append_ne P.shared.trace (e := ⟨i, e, r⟩) hji]
        show Overlay.Known _ (w.store.staged j)
        rw [(hothers j hji).keeps.staged]
        exact h.known j p hj
    · rcases exec_log hx with hsame | ⟨rfl, hgrown, -⟩
      · exact h.log pid wr (hsame ▸ hmem)
      · rw [hgrown, List.mem_append, List.mem_singleton] at hmem
        rcases hmem with hmem | hmem
        · exact h.log pid wr hmem
        · cases hmem
          obtain ⟨wr, hl, hok⟩ := hkept.permits hp
          rw [h.known i _ hp wr hl]
          exact hok
  · obtain ⟨hlocked, hothers⟩ := envStep_others h.locked hv
    refine ⟨hlocked, fun j p hj => ?_, fun pid wr hmem => h.log pid wr ?_⟩
    · show Overlay.Known _ (w.store.staged j)
      rw [(hothers j).keeps.staged]
      exact h.known j p hj
    · rcases envStep_cases hv with ⟨d, rfl⟩ | ⟨identity, rfl⟩ | ⟨cutoff, ids, st, -, hst, rfl⟩
      · exact hmem
      · exact hmem
      · obtain ⟨-, rfl⟩ := Store.delete_cases hst
        rcases List.mem_append.mp hmem with hmem | hmem
        · exact hmem
        · cases List.mem_singleton.mp hmem
  · refine ⟨h.locked.close, fun j p hj => ?_, h.log⟩
    by_cases hji : j = i
    · subst hji
      simp at hj
    · simp only [Function.update_of_ne hji] at hj
      show Overlay.Known _ ((P.shared.state.store.close i).staged j)
      rw [Store.close_staged_ne _ hji]
      exact h.known j p hj

/-- **Every committed write set is accepted**, along every recorded run of a
pool that keeps to the flow. -/
theorem written_reach {Q : Nat → Except Exn α → Overlay B → Prop}
    {con : Traced (sig B) Exn (World B C) → Traced (sig B) Exn (World B C) → Prop}
    (h : Written ok P) (hkept : (writeFlow ok).Kept Q P)
    (hr : (machine B C).traced.Reach con P P') : Written ok P' := by
  induction hr with
  | refl => exact h
  | tail hr hs ih =>
    obtain ⟨l, hl, -⟩ := hs
    exact ih.step (Flow.follows_reach hkept hr) hl

end Account

/-! ## The programs of the idempotency layer -/

section Programs

variable {ok : ((k : Key B) → Option k.Row) → Prop} {l : Overlay B}

/-- Between two units of work nothing is staged. -/
def Clean {γ : Type} (_ : Except Exn γ) (l : Overlay B) : Prop := l = some unwritten

theorem follows_ask {e : Eff B} {Q : Except Exn e.Resp → Overlay B → Prop}
    (hp : l.Permits ok e) (hQ : ∀ r, Q r (l.next e r)) : (writeFlow ok).Follows (ask e) l Q :=
  Flow.Follows.perform hp hQ

theorem unwind_follows (error : Exn) :
    (writeFlow ok).Follows (unwind (B := B) error) l Clean := by
  have hback : (writeFlow ok).Follows (rollback (B := B)) l Clean :=
    follows_ask trivial fun r => by cases r <;> rfl
  cases error with
  | database d =>
    refine hback.attempt fun r l' hl' => ?_
    cases r with
    | ok a => exact hl'
    | error x => cases x <;> exact hl'
  | _ => exact hback.bind (fun _ _ h => h) fun _ _ h => h

/-- `async with self._uow`: what the body leaves behind is committed if it
ends normally. -/
theorem uow_follows {γ : Type} {body : App B γ} {Q : Except Exn γ → Overlay B → Prop}
    (h : (writeFlow ok).Follows body l Q)
    (hok : ∀ a l', Q (.ok a) l' → ∃ wr, l' = some wr ∧ ok wr) :
    (writeFlow ok).Follows (uow body) l Clean := by
  refine h.attempt fun r l' hl' => ?_
  cases r with
  | ok a =>
    have hcommit : (writeFlow ok).Follows (commit (B := B)) l' fun r l'' =>
        r.isOk = true → l'' = some unwritten := by
      refine follows_ask (hok a l' hl') fun r hr => ?_
      cases r with
      | ok _ => rfl
      | error x => cases hr
    have hexit : (writeFlow ok).Follows (aexit (B := B) none) l' Clean := by
      refine hcommit.attempt fun r l'' hl'' => ?_
      cases r with
      | ok _ => exact hl'' rfl
      | error x => exact unwind_follows x
    exact hexit.bind (fun _ _ h => h) fun _ _ h => h
  | error x =>
    have hback : (writeFlow ok).Follows (rollback (B := B)) l' Clean :=
      follows_ask trivial fun r => by cases r <;> rfl
    have hexit : (writeFlow ok).Follows (aexit (B := B) (some x)) l' Clean := by
      refine hback.attempt fun r l'' hl'' => ?_
      cases r with
      | ok _ => cases x <;> exact hl''
      | error y => exact unwind_follows y
    exact hexit.bind (fun _ _ h => h) fun _ _ h => h

/-- A callback stages rows of its own tables, and no record. -/
theorem operation_follows {γ : Type} (op : Operation B γ)
    {records : IdempotencyIdentity → Option IdempotencyRecord} {wr : (k : Key B) → Option k.Row}
    (h : ∀ identity, wr (.record identity) = records identity) :
    (writeFlow ok).Follows op.run (some wr) fun _ l' =>
      ∃ wr', l' = some wr' ∧ ∀ identity, wr' (.record identity) = records identity := by
  induction op generalizing wr with
  | ret a => exact ⟨wr, rfl, h⟩
  | throw x => exact ⟨wr, rfl, h⟩
  | op e k ih =>
    have hstage : ∀ (k : B.Key) (row : B.Row k) identity,
        Function.update wr (.biz k) (some row) (.record identity) = records identity := by
      intro k row identity
      simpa using h identity
    cases e with
    | put key row =>
      refine ⟨rfl, fun r => ?_⟩
      cases r with
      | error x => exact ih _ h
      | ok a => exact ih _ (hstage key row)
    | insert key row =>
      refine ⟨rfl, fun r => ?_⟩
      cases r with
      | error x => exact ih _ h
      | ok added =>
        cases added with
        | false => exact ih _ h
        | true => exact ih _ (hstage key row)
    | read key => exact ⟨rfl, fun r => ih _ h⟩
    | lock key => exact ⟨rfl, fun r => ih _ h⟩
    | now => exact ⟨trivial, fun r => ih _ h⟩
    | ext x => exact ⟨trivial, fun r => ih _ h⟩

/-- What is no statement leaves the overlay alone. -/
theorem aside_follows {e : Eff B} (he : ∀ o, e ≠ .db o) :
    (writeFlow ok).Follows (ask e) l fun _ l' => l' = l := by
  cases e with
  | db o => exact absurd rfl (he o)
  | _ => exact follows_ask trivial fun r => by cases r <;> rfl

variable {identity : IdempotencyIdentity} {requestHash : Digest}

theorem getCompleted_follows :
    (writeFlow ok).Follows (getCompleted (B := B) identity) (some unwritten) Clean := by
  have hread : (writeFlow ok).Follows (read (B := B) (.record identity)) (some unwritten) Clean :=
    follows_ask rfl fun r => rfl
  refine hread.bind (fun row l' hl' => ?_) fun _ _ h => h
  cases row with
  | none => exact hl'
  | some row =>
    have hclock : (writeFlow ok).Follows (utcNow (B := B)) l' fun _ l'' => l'' = l' :=
      aside_follows fun o ho => by cases ho
    refine hclock.bind (fun now l'' hl'' => ?_) fun x l'' hl'' => hl''.trans hl'
    subst hl''
    show (writeFlow ok).Follows (if row.expiresAt ≤ now then pure none else _) _ _
    split
    · exact hl'
    · exact hl'

theorem findExisting_follows (hnone : ok (unwritten (B := B))) :
    (writeFlow ok).Follows (findExisting (B := B) identity requestHash) (some unwritten) Clean := by
  refine (uow_follows getCompleted_follows fun a l' hl' => ⟨_, hl', hnone⟩).bind
    (fun existing l' hl' => ?_) fun _ _ h => h
  cases existing with
  | none => exact hl'
  | some completed => exact hl'

/-- What a callback stages can be committed together with the record of its
result. -/
def Recordable (ok : ((k : Key B) → Option k.Row) → Prop) (identity : IdempotencyIdentity)
    (requestHash : Digest) (stored : StoredResult) (l : Overlay B) : Prop :=
  ∃ wr, l = some wr ∧ ∀ record : IdempotencyRecord,
    record.completed = { stored with requestHash := requestHash } →
      ok (Function.update wr (.record identity) (some record))

variable {retention : Retention} {operation : Operation B StoredResult}

section Fenced

variable (hnone : ok (unwritten (B := B)))
  (hop : (writeFlow ok).Follows operation.run (some unwritten)
    fun r l' => ∀ stored, r = .ok stored → Recordable ok identity requestHash stored l')

include hop

theorem fencedTransaction_follows :
    (writeFlow ok).Follows (fencedTransaction retention identity requestHash operation)
      (some unwritten) Clean := by
  have hbody : (writeFlow ok).Follows (do
      let stored ← operation.run
      let completed : CompletedIdempotencyResult := { stored with requestHash := requestHash }
      let added ← tryAddCompleted retention identity completed
      if !added then throw .concurrentWinnerCommitted
      pure completed : App B CompletedIdempotencyResult) (some unwritten)
      fun r l' => ∀ a, r = .ok a → ∃ wr, l' = some wr ∧ ok wr := by
    refine hop.bind (fun stored l' hl' => ?_) fun x l' _ a ha => by cases ha
    obtain ⟨wr, rfl, hok⟩ := hl' stored rfl
    show (writeFlow ok).Follows (((utcNow (B := B)).bind fun now =>
      insert (.record identity) (completedRecord retention
        { stored with requestHash := requestHash } now)).bind _) _ _
    refine Flow.Follows.bind (Q := fun r l' => r = .ok true → ∃ wr, l' = some wr ∧ ok wr) ?_
      (fun added l' hl' => ?_) fun x l' _ a ha => by cases ha
    · have hclock : (writeFlow ok).Follows (utcNow (B := B)) (some wr) fun _ l' => l' = some wr :=
        aside_follows fun o ho => by cases ho
      refine hclock.bind (fun now l' hl' => ?_) fun x l' _ hx => by cases hx
      subst hl'
      refine follows_ask rfl fun r hr => ?_
      subst hr
      exact ⟨_, rfl, hok _ rfl⟩
    · cases added with
      | false => exact fun a ha => by cases ha
      | true => exact fun a _ => hl' rfl
  exact uow_follows hbody fun a l' hl' => hl' a rfl

include hnone

/-- The idempotency layer is in order. -/
theorem between_writeFlow : Between (writeFlow ok) (fun l => l = some unwritten) retention identity
    requestHash operation := by
  refine ⟨fun he l hl => ?_, fun l hl => ?_, fun l hl => ?_⟩
  · subst hl
    exact aside_follows he
  · subst hl
    exact findExisting_follows hnone
  · subst hl
    exact fencedTransaction_follows hop

end Fenced

end Programs

end IdentityService
