import IdentityService.Idempotency.Outline

/-!
# Exactly once

Any number of `execute_once` calls, on any identities, interleaved at every
await and failing wherever the outside lets them fail. For an identity
whose record, once committed, neither expires nor is deleted, at most one
callback ever takes effect, with its record, and every answer given is that
record's.

The argument is one invariant on the commit history: the only commits of
these calls that write anything write the identity's record, and the record
was absent just before. A caller that lost is always able to find out.
-/

namespace IdentityService

open Concurrent

variable {B : Business} {C : ResultCodec}

/-- One call of `execute_once`. -/
structure Call (B : Business) where
  identity : IdempotencyIdentity
  requestHash : Digest
  callback : Callback B

/-- A call of `execute_once`. -/
def Call.program (call : Call B) (retention : Retention) : App B ExecutionResult :=
  executeOnce retention call.identity call.requestHash call.callback.body

/-- A world in which nothing has happened yet. -/
def World.start (rows : (k : Key B) → Option k.Row) (clock : Time) : World B C :=
  ⟨Store.quiet rows, clock, fun _ => none, fun _ => [], fun _ => false⟩

/-- The record of the identity, if there is one, satisfies `f`. -/
def Holds (identity : IdempotencyIdentity) (f : IdempotencyRecord → Prop) (w : World B C) : Prop :=
  ∃ r, w.store.rows (.record identity) = some r ∧ f r

/-- A step that does not delete the record of the identity. -/
def RecordKept (identity : IdempotencyIdentity) (w w' : World B C) : Prop :=
  ∀ r, w.store.rows (.record identity) = some r → w'.store.rows (.record identity) = some r

/-- A step across which the record of the identity is neither deleted nor
found expired. -/
def RecordStays (identity : IdempotencyIdentity) (w w' : World B C) : Prop :=
  (∀ r, w.store.rows (.record identity) = some r → w'.store.rows (.record identity) = some r) ∧
    ∀ r, w'.store.rows (.record identity) = some r → r.Live w'.clock

/-- The entry is a commit, by a call on the identity, that wrote
something. -/
def Effective (calls : Nat → Call B) (identity : IdempotencyIdentity)
    (e : Entry (Key B) Key.Row) : Prop :=
  ∃ p wr, e = .commit p wr ∧ (calls p).identity = identity ∧ ∃ k, (wr k).isSome

/-- What is promised of every state a run can reach. -/
structure ExactlyOnce (calls : Nat → Call B) (identity : IdempotencyIdentity)
    (rows₀ : (k : Key B) → Option k.Row) (K : Config (sig B) Exn (World B C) ExecutionResult) :
    Prop where
  /-- At most one callback's writes are ever committed. -/
  oneWriter : K.shared.store.log.Pairwise fun e e' =>
    ¬ (Effective calls identity e ∧ Effective calls identity e')
  /-- They commit together with exactly one record, which is still there. -/
  withRecord : ∀ p wr, .commit p wr ∈ K.shared.store.log → (calls p).identity = identity →
    (∃ k, (wr k).isSome) →
    (∀ other, other ≠ identity → wr (.record other) = none) ∧
      ∃ r, wr (.record identity) = some r ∧
        K.shared.store.rows (.record identity) = some r ∧
        r.completed.requestHash = (calls p).requestHash
  /-- An answer EXECUTED or REPLAY carries that record. -/
  answered : ∀ p res, (calls p).identity = identity → K.pool p = some (.ret res) →
    res.outcome = .executed ∨ res.outcome = .replay →
    ∃ r, K.shared.store.rows (.record identity) = some r ∧
      res.completed = some r.completed ∧ r.completed.requestHash = (calls p).requestHash
  /-- A call with another request gets CONFLICT, if it gets anything. -/
  refused : ∀ p res r, (calls p).identity = identity → K.pool p = some (.ret res) →
    K.shared.store.rows (.record identity) = some r →
    r.completed.requestHash ≠ (calls p).requestHash → res = .conflict
  /-- A call that committed nothing might as well not have run: the
  database is what the history of the others makes it. -/
  untouched : ∀ p, (∀ wr, .commit p wr ∈ K.shared.store.log → ∀ k, wr k = none) →
    K.shared.store.rows =
      replay rows₀ (K.shared.store.log.filter fun e => e.author ≠ some p)
  /-- A call that has ended holds nothing. -/
  released : ∀ p r, K.pool p = some (.ofExcept r) → Idle p K.shared
  explained : ∀ p, (calls p).identity = identity →
    K.pool p ≠ some (.throw (.runtimeError noWinner))

/-! ## The invariant -/

/-- The invariant: the log accounts for the rows, and at most one commit under
the identity took effect. -/
structure ExactlyOnceInv (calls : Nat → Call B) (identity : IdempotencyIdentity)
    (rows₀ : (k : Key B) → Option k.Row) (w : World B C) : Prop where
  history : w.store.rows = replay rows₀ w.store.log
  live : ∀ r, w.store.rows (.record identity) = some r → r.Live w.clock
  once : w.store.log.Pairwise fun e e' =>
    ¬ (Effective calls identity e ∧ Effective calls identity e')
  fenced : ∀ p wr, .commit p wr ∈ w.store.log → (calls p).identity = identity →
    (∃ k, (wr k).isSome) →
    (∀ other, other ≠ identity → wr (.record other) = none) ∧
      ∃ r, wr (.record identity) = some r ∧ w.store.rows (.record identity) = some r ∧
        r.completed.requestHash = (calls p).requestHash

variable {calls : Nat → Call B} {identity : IdempotencyIdentity}
  {rows₀ : (k : Key B) → Option k.Row} {w w' : World B C}

theorem ExactlyOnceInv.start {clock : Time}
    (hlive : ∀ r, rows₀ (.record identity) = some r → r.Live clock) :
    ExactlyOnceInv calls identity rows₀ (World.start rows₀ clock : World B C) where
  history := rfl
  live := hlive
  once := .nil
  fenced := by
    rintro p wr ⟨⟩

/-- An entry of the history that is not effective keeps the invariant, if
it leaves the record where it is. -/
theorem ExactlyOnceInv.append (h : ExactlyOnceInv calls identity rows₀ w)
    (hc : RecordStays identity w w') {e : Entry (Key B) Key.Row}
    (he : ¬ Effective calls identity e) (hlog : w'.store.log = w.store.log ++ [e])
    (hrows : w'.store.rows = e.apply w.store.rows) :
    ExactlyOnceInv calls identity rows₀ w' where
  history := by rw [hlog, replay_append, ← h.history, hrows]
  live := hc.2
  once := by
    rw [hlog, List.pairwise_append]
    refine ⟨h.once, List.pairwise_singleton _ _, fun a _ b hb hab => ?_⟩
    rw [List.mem_singleton] at hb
    subst hb
    exact he hab.2
  fenced := by
    intro p wr hm hp hk
    rw [hlog, List.mem_append, List.mem_singleton] at hm
    rcases hm with hm | rfl
    · obtain ⟨hother, r, hr, hrow, hh⟩ := h.fenced p wr hm hp hk
      exact ⟨hother, r, hr, hc.1 r hrow, hh⟩
    · exact absurd ⟨p, wr, rfl, hp, hk⟩ he

/-- Steps that add nothing to the history keep it too. -/
theorem ExactlyOnceInv.same (h : ExactlyOnceInv calls identity rows₀ w)
    (hc : RecordStays identity w w') (hlog : w'.store.log = w.store.log)
    (hrows : w'.store.rows = w.store.rows) : ExactlyOnceInv calls identity rows₀ w' where
  history := by rw [hlog, hrows, h.history]
  live := hc.2
  once := by rw [hlog]; exact h.once
  fenced := by rw [hlog, hrows]; exact h.fenced

variable (B C) (calls identity rows₀) in
/-- The rules of the game: nobody owes anything beyond the invariant. -/
def exactlyOnceRules : Rules B C where
  inv := ExactlyOnceInv calls identity rows₀
  con := RecordStays identity
  guar _ _ := True
  tolerant i w w' hinv _ hc hp := by
    refine ⟨?_, trivial⟩
    rcases hp.log with hlog | hlog
    · exact hinv.same hc hlog hp.rows
    · refine hinv.append hc ?_ hlog hp.rows
      rintro ⟨p, wr, he, -, k, hk⟩
      cases he
      simp at hk

/-! ## The outline of one call -/

/-- While the fence is held: the record is staged, the key is locked, and
no committed record is in the way. -/
structure Fencing (i : Nat) (call : Call B) (c : CompletedIdempotencyResult) (w : World B C) :
    Prop where
  request : c.requestHash = call.requestHash
  staged : ∃ r, w.store.staged i (.record call.identity) = some r ∧ r.completed = c
  others : ∀ other, other ≠ call.identity → w.store.staged i (.record other) = none
  held : w.store.holder (.record call.identity) = some i
  absent : w.store.rows (.record call.identity) = none

section Outline

variable {i : Nat}

theorem Fencing.others' {call : Call B} {c : CompletedIdempotencyResult} (h : Fencing i call c w)
    (ho : Others i w w') : Fencing i call c w' := by
  obtain ⟨r, hr, hc⟩ := h.staged
  refine ⟨h.request, ⟨r, ?_, hc⟩, fun other hne => ?_, (ho.keeps.holder _).mpr h.held, ?_⟩
  · rw [ho.keeps.staged, hr]
  · rw [ho.keeps.staged]
    exact h.others other hne
  · rw [ho.keeps.rows _ h.held]
    exact h.absent

/-- Inserting the record over an absent one raises the fence. -/
theorem Fencing.raise {call : Call B} {r : IdempotencyRecord}
    (hr : r.completed.requestHash = call.requestHash) (hu : Unfenced i w)
    (hv : w.store.view i (.record call.identity) = none) :
    Fencing i call r.completed (w.withStore (w.store.stage i (.record call.identity) r)) where
  request := hr
  staged := ⟨r, by simp, rfl⟩
  others other hne := by
    have hne' : (Key.record other : Key B) ≠ .record call.identity := by simpa using hne
    rw [withStore_store, Store.stage_staged_self, Function.update_of_ne hne']
    exact hu other
  held := by simp
  absent := by
    rw [Store.view_of_unstaged (hu call.identity)] at hv
    exact hv

/-- Facts about the record survive every step that does not delete it. -/
theorem RecordKept.steady {R : Rules B C} (hR : ∀ w w', R.con w w' → RecordKept identity w w')
    (p : Prop) (f : IdempotencyRecord → Prop) :
    R.Steady i fun w => p → Holds identity f w := by
  have hstep : ∀ w w' : World B C, RecordKept identity w w' → (p → Holds identity f w) →
      p → Holds identity f w' := by
    intro w w' hc h hp
    obtain ⟨r, hr, hf⟩ := h hp
    exact ⟨r, hc r hr, hf⟩
  exact ⟨fun w w' _ _ hc _ _ h => hstep w w' (hR w w' hc) h,
    fun w w' _ _ hc _ h => hstep w w' (hR w w' hc) h⟩

theorem steady_holds (p : Prop) (f : IdempotencyRecord → Prop) :
    (exactlyOnceRules B C calls identity rows₀).Steady i fun w => p → Holds identity f w :=
  RecordKept.steady (R := exactlyOnceRules B C calls identity rows₀) (fun _ _ hc => hc.1) p f

/-- **The commit of a fence**: the identity had no record, so no call on it
had committed anything; now this one has. -/
theorem commit_fencing {c : CompletedIdempotencyResult} (f : Fate Fault)
    (hw : (exactlyOnceRules B C calls identity rows₀).spec.inv w)
    (hf : Fencing i (calls i) c w)
    (hc : RecordStays identity w ((w.settle i f).withStore (w.store.commit i))) :
    (exactlyOnceRules B C calls identity rows₀).spec.Owes i w
        ((w.settle i f).withStore (w.store.commit i)) ∧
      ((calls i).identity = identity → Holds identity (fun r => r.completed = c ∧
        c.requestHash = (calls i).requestHash) ((w.settle i f).withStore (w.store.commit i))) := by
  obtain ⟨hlocked, hinv⟩ := hw
  obtain ⟨r, hst, hrc⟩ := hf.staged
  have hrow : w.store.view i (.record (calls i).identity) = some r := Store.view_of_staged hst
  have hothers : ∀ j, j ≠ i → Others j w ((w.settle i f).withStore (w.store.commit i)) :=
    fun j hj => ⟨Store.Keeps.commit hlocked hj, by simp, settle_failed_ne f hj⟩
  by_cases hme : (calls i).identity = identity
  · subst hme
    -- nothing was effective before: an effective entry leaves a record
    have hnone : ∀ e ∈ w.store.log, ¬ Effective calls (calls i).identity e := by
      rintro e he ⟨p, wr, rfl, hp, hk⟩
      obtain ⟨-, r', -, hr', -⟩ := hinv.fenced p wr he hp hk
      rw [hf.absent] at hr'
      cases hr'
    have hnew : ExactlyOnceInv calls (calls i).identity rows₀
        ((w.settle i f).withStore (w.store.commit i)) := by
      refine ⟨?_, hc.2, ?_, fun p wr hm hp hk => ?_⟩
      · show w.store.view i = replay rows₀ (w.store.log ++ [.commit i (w.store.staged i)])
        rw [replay_append, ← hinv.history]
        rfl
      · show List.Pairwise _ (w.store.log ++ [.commit i (w.store.staged i)])
        rw [List.pairwise_append]
        refine ⟨hinv.once, List.pairwise_singleton _ _, fun a ha b _ hab => ?_⟩
        exact hnone a ha hab.1
      · rw [withStore_store, Store.commit_log, List.mem_append, List.mem_singleton] at hm
        rcases hm with hm | hm
        · exact absurd ⟨p, wr, rfl, hp, hk⟩ (hnone _ hm)
        · cases hm
          exact ⟨hf.others, r, hst, hrow, by rw [hrc]; exact hf.request⟩
    exact ⟨⟨⟨hlocked.commit, hnew⟩, trivial, hothers⟩, fun _ => ⟨r, hrow, hrc, hf.request⟩⟩
  · have hnew : ExactlyOnceInv calls identity rows₀
        ((w.settle i f).withStore (w.store.commit i)) := by
      refine hinv.append hc (e := .commit i (w.store.staged i)) ?_ rfl rfl
      rintro ⟨p, wr, he, hp, -⟩
      cases he
      exact hme hp
    exact ⟨⟨⟨hlocked.commit, hnew⟩, trivial, hothers⟩, fun h => absurd h hme⟩

variable (retention : Retention)

/-- What a lookup of call `i` tells about the identity's record. -/
def Told (calls : Nat → Call B) (identity : IdempotencyIdentity) (i : Nat) :
    Option CompletedIdempotencyResult → World B C → Prop
  | none, _ => True
  | some c, w => (calls i).identity = identity → Holds identity (fun r => r.completed = c) w

theorem steady_told (o : Option CompletedIdempotencyResult) :
    (exactlyOnceRules B C calls identity rows₀).Steady i (Told calls identity i o) := by
  cases o with
  | none => exact .const True
  | some c => exact steady_holds _ _

/-- After a lost fence, finding nothing is impossible for a call on the
identity. -/
def ToldLost (calls : Nat → Call B) (identity : IdempotencyIdentity) (i : Nat) :
    Option CompletedIdempotencyResult → World B C → Prop
  | none, _ => (calls i).identity ≠ identity
  | some c, w => Told calls identity i (some c) w

theorem steady_toldLost (o : Option CompletedIdempotencyResult) :
    (exactlyOnceRules B C calls identity rows₀).Steady i (ToldLost calls identity i o) := by
  cases o with
  | none => exact .const _
  | some c => exact steady_told (some c)

variable (B C calls identity rows₀ i) in
/-- The fence of call `i`. -/
def exactlyOnceFence : Fence (exactlyOnceRules B C calls identity rows₀) i retention
    (calls i).identity (calls i).requestHash (calls i).callback.body fun _ => True where
  E _ := True
  Ran _ := Unfenced i
  Fenced := Fencing i (calls i)
  Done c w := (calls i).identity = identity →
    Holds identity (fun r => r.completed = c ∧ c.requestHash = (calls i).requestHash) w
  Lost w := (calls i).identity = identity → Holds identity (fun _ => True) w
  Raised x _ := x.foreign = true
  steady := .const True
  ranStable _ := stable_unfenced
  fencedStable _ := fun _ _ _ _ _ _ ho h => h.others' ho
  doneSteady _ := steady_holds _ _
  lostSteady := steady_holds _ _
  raisedSteady _ := .const _
  body := (operation_safe _ (calls i).callback.raises).pre fun w _ h identity => by
    rw [h.1.staged]
  raised x _ h := by
    rintro rfl
    revert h
    decide
  faulted _ _ h := h.1
  translated d _ _ := translateDatabaseError_foreign d
  ranE _ _ _ _ := trivial
  fencedE _ _ _ _ := trivial
  doneE _ _ _ := trivial
  lostE _ _ := trivial
  raisedE _ _ _ := trivial
  lose _ w _ hu hv := by
    rintro rfl
    rw [Store.view_of_unstaged (hu _)] at hv
    obtain ⟨r, hr⟩ := Option.isSome_iff_exists.mp hv
    exact ⟨r, hr, trivial⟩
  fence stored t w _ hu hv _ :=
    Fencing.raise (r := completedRecord retention { stored with requestHash := _ } t) rfl hu hv
  commit _ _ f hw hf hc := commit_fencing f hw hf hc

/-- The row a lookup of call `i` has read is the identity's record. -/
def Seen (calls : Nat → Call B) (identity : IdempotencyIdentity) (i : Nat)
    (r : IdempotencyRecord) (w : World B C) : Prop :=
  (calls i).identity = identity → Holds identity (· = r) w

/-- A record that is there is found: it is not expired, and it stays. -/
theorem lookup_found {Pre : World B C → Prop}
    (hpre : (exactlyOnceRules B C calls identity rows₀).Steady i Pre)
    {Got : Option CompletedIdempotencyResult → World B C → Prop}
    (hgot : ∀ o, (exactlyOnceRules B C calls identity rows₀).Steady i (Got o))
    (hnone : ∀ w, Pre w → ((calls i).identity = identity →
      w.store.rows (.record identity) = none) → Got none w)
    (hsome : ∀ c w, Told calls identity i (some c) w → Got (some c) w) :
    Lookup (exactlyOnceRules B C calls identity rows₀) i (calls i).identity Pre
      (Seen calls identity i) Got where
  steady := hpre
  seenSteady _ := steady_holds _ _
  gotSteady := hgot
  absent w _ hp hr := hnone w hp (by rintro rfl; exact hr)
  present w r _ _ hr := by
    rintro rfl
    exact ⟨r, hr, rfl⟩
  expired w r hw hp hs hl := by
    refine hnone w hp fun hme => ?_
    obtain ⟨r', hr', rfl⟩ := hs hme
    exact absurd (hw.2.live r' hr') hl
  live w r _ _ hs _ := by
    refine hsome _ w fun hme => ?_
    obtain ⟨r', hr', rfl⟩ := hs hme
    exact ⟨r', hr', rfl⟩

/-- How a call on the identity may end: with what its own commit made the
record, or with the record's answer. -/
def CallEnds (calls : Nat → Call B) (identity : IdempotencyIdentity) (i : Nat) :
    Except Exn ExecutionResult → World B C → Prop :=
  Ends
    (fun res w => Idle i w ∧ ((calls i).identity = identity → Holds identity (fun r =>
      (res = .executed r.completed ∧ r.completed.requestHash = (calls i).requestHash) ∨
        res = classify r.completed (calls i).requestHash) w))
    fun x w => Idle i w ∧ ((calls i).identity = identity → x ≠ .runtimeError noWinner)

theorem program_safe : (exactlyOnceRules B C calls identity rows₀).spec.Safe i
    ((calls i).program retention) (Idle i) (CallEnds calls identity i) := by
  let R := exactlyOnceRules B C calls identity rows₀
  let o := exactlyOnceFence B C calls identity rows₀ i retention
  have hfirst : Lookup R i (calls i).identity (fun _ => True) (Seen calls identity i)
      (Told calls identity i) :=
    lookup_found (.const True) steady_told (fun _ _ _ => trivial) fun _ _ h => h
  have hlost : Lookup R i (calls i).identity o.Lost (Seen calls identity i)
      (ToldLost calls identity i) := by
    refine lookup_found o.lostSteady steady_toldLost ?_ fun _ _ h => h
    intro w hl hrow hme
    obtain ⟨r, hr, -⟩ := hl hme
    rw [hrow hme] at hr
    cases hr
  have hraised : ∀ x, Lookup R i (calls i).identity (o.Raised x) (Seen calls identity i)
      (Told calls identity i) :=
    fun x => lookup_found (o.raisedSteady x) steady_told (fun _ _ _ => trivial) fun _ _ h => h
  have hmain := o.executeOnce_safe hfirst (fun _ _ _ _ => trivial) hlost hraised
  refine (hmain.pre fun w _ h => ⟨h, trivial⟩).post ?_
  rintro (x | res) w - h
  · refine ⟨h.1, fun hme => ?_⟩
    rintro rfl
    rcases h.2 with ⟨-, hne⟩ | ⟨hx, -⟩ | hx
    · exact hne hme
    · exact absurd hx (by decide)
    · have hforeign : (Exn.runtimeError noWinner).foreign = true := hx
      exact absurd hforeign (by decide)
  · refine ⟨h.1, fun hme => ?_⟩
    rcases h.2 with ⟨c, rfl, hdone⟩ | ⟨c, rfl, hgot⟩
    · obtain ⟨r, hr, rfl, hh⟩ := hdone hme
      exact ⟨r, hr, .inl ⟨rfl, hh⟩⟩
    · have htold : Told calls identity i (some c) w := hgot.elim id id
      obtain ⟨r, hr, rfl⟩ := htold hme
      exact ⟨r, hr, .inr rfl⟩

end Outline

/-! ## Whole runs -/

theorem closed_exactlyOnce : (exactlyOnceRules B C calls identity rows₀).spec.Closed where
  env v w w' hw hx hc := by
    obtain ⟨hlock, hothers⟩ := envStep_others hw.1 hx
    refine ⟨⟨hlock, ?_⟩, trivial, hothers⟩
    rcases envStep_cases hx with ⟨d, rfl⟩ | ⟨id, rfl⟩ | ⟨cutoff, ids, st, -, hst, rfl⟩
    · exact hw.2.same hc rfl rfl
    · exact hw.2.same hc rfl rfl
    · obtain ⟨-, rfl⟩ := Store.delete_cases hst
      refine hw.2.append hc (e := .delete (ids.map .record)) ?_ rfl rfl
      rintro ⟨p, wr, ⟨⟩, -⟩
  kill i w hw hc := Rules.owes_private hw hc (Quiet.close .go).toPrivate

/-- **Exactly once.** In every state of every run of any number of
`execute_once` calls, along which the identity's record is neither deleted
nor expired. -/
theorem executeOnce_exactly_once (calls : Nat → Call B) (identity : IdempotencyIdentity)
    (rows₀ : (k : Key B) → Option k.Row) (clock : Time) (retention : Retention)
    (hlive : ∀ r, rows₀ (.record identity) = some r → r.Live clock)
    {K : Config (sig B) Exn (World B C) ExecutionResult}
    (hrun : (machine B C).Reach (RecordStays identity)
      ⟨World.start rows₀ clock, fun i => some ((calls i).program retention)⟩ K) :
    ExactlyOnce calls identity rows₀ K := by
  let R := exactlyOnceRules B C calls identity rows₀
  have hstart : R.spec.Good (CallEnds calls identity)
      ⟨World.start rows₀ clock, fun i => some ((calls i).program retention)⟩ := by
    refine ⟨⟨Store.locked_quiet rows₀, .start hlive⟩, ?_⟩
    rintro i p ⟨⟩
    exact ⟨Idle i, Rules.stable_idle, ⟨rfl, fun _ => by simp [World.start, Store.quiet], rfl⟩,
      program_safe retention⟩
  have hgood : R.spec.Good (CallEnds calls identity) K := hstart.reach closed_exactlyOnce hrun
  have hinv := hgood.inv.2
  refine ⟨hinv.once, hinv.fenced, ?_, ?_, fun p hp => ?_, ?_, ?_⟩
  · intro p res hme hpool hout
    obtain ⟨r, hr, hres⟩ := (hgood.result (r := .ok res) hpool).2 hme
    refine ⟨r, hr, ?_⟩
    rcases hres with ⟨rfl, hh⟩ | rfl
    · exact ⟨rfl, hh⟩
    · rcases classify_eq r.completed (calls p).requestHash with ⟨hh, hcl⟩ | ⟨-, hcl⟩
      · rw [hcl]
        exact ⟨rfl, hh⟩
      · rw [hcl] at hout
        rcases hout with h | h <;> cases h
  · intro p res r hme hpool hr hne
    obtain ⟨r', hr', hres⟩ := (hgood.result (r := .ok res) hpool).2 hme
    rw [hr] at hr'
    cases hr'
    rcases hres with ⟨-, hh⟩ | rfl
    · exact absurd hh hne
    · rcases classify_eq r.completed (calls p).requestHash with ⟨hh, -⟩ | ⟨-, hcl⟩
      · exact absurd hh hne
      · exact hcl
  · rw [hinv.history, replay_filter]
    intro e he hauthor rows
    cases e with
    | delete ks => simp [Entry.author] at hauthor
    | commit q wr =>
        have hq : q = p := by simpa [Entry.author] using hauthor
        subst hq
        funext k
        simp [Entry.apply, hp wr he k]
  · rintro p (x | res) hpool
    · exact (hgood.result hpool).1
    · exact (hgood.result hpool).1
  · intro p hme hpool
    exact (hgood.result (r := .error (.runtimeError noWinner)) hpool).2 hme rfl

/-! ## A race

Two callers, the second of which has looked before the first committed. -/

namespace Sample

/-- One counter, and nothing besides. -/
def counter : Business := ⟨Unit, inferInstance, fun _ => Nat, Empty, Empty.elim⟩

def codec : ResultCodec := ⟨CompletedIdempotencyResult, id, some, fun _ => rfl⟩

def caller : IdempotencyIdentity := ⟨"subject", "operation", digest 0, by decide, by decide⟩

def stored : StoredResult :=
  ⟨"counter.set", some [], 1, none, none, none, by decide, Nat.one_pos, StoredResult.untyped,
    StoredResult.unversioned, StoredResult.unpaired, by simp, StoredResult.unbound⟩

def completed : CompletedIdempotencyResult := { stored with requestHash := digest 1 }

/-- Set the counter. -/
def callback : Callback counter where
  body := .op (.put () (1 : Nat)) fun
    | .ok _ => .ret stored
    | .error x => .throw x
  raises := ⟨fun _ => trivial, fun _ h => h⟩

def call : Call counter := ⟨caller, digest 1, callback⟩

def retention : Retention := ⟨300, by decide⟩

/-- The record is absent before each step, and live after it. -/
def fresh (w w' : World counter codec) : Bool :=
  (w.store.rows (.record caller)).isNone &&
    (w'.store.rows (.record caller)).all fun r => r.Live w'.clock

theorem fresh_stays (w w' : World counter codec) (h : fresh w w' = true) :
    RecordStays caller w w' := by
  simp only [fresh, Bool.and_eq_true, Option.isNone_iff_eq_none] at h
  refine ⟨fun r hr => ?_, fun r hr => ?_⟩
  · rw [h.1] at hr
    cases hr
  · have hall := h.2
    rw [hr] at hall
    simpa using hall

/-- Caller 1 looks, finds nothing; then caller 0 looks, sets the counter and
commits. -/
def race : List (machine counter codec).Label :=
  [.act 1 (.fate .go), .act 1 (.fate .go), .act 0 (.fate .go), .act 0 (.fate .go),
    .act 0 (.fate .go), .act 0 (.fate .go), .act 0 (.fate .go), .act 0 (.fate .go)]

end Sample

open Sample in
theorem executeOnce_exactly_once_race :
    ∃ K : Config (sig counter) Exn (World counter codec) ExecutionResult,
      (machine counter codec).run fresh
        ⟨World.start (fun _ => none) 0, fun _ => some (call.program retention)⟩ race = some K ∧
      K.pool 0 = some (.ret (.executed completed)) ∧
      ExactlyOnce (fun _ => call) caller (fun _ => none) K := by
  refine ⟨_, rfl, rfl, executeOnce_exactly_once (fun _ => call) caller (fun _ => none) 0
    retention (by simp) ?_⟩
  exact Machine.reach_of_run _ fresh_stays race _ _ rfl

end IdentityService
