import IdentityService.Idempotency.CoordinatorOutline

/-!
# What the hot path answers

The hot store may be out of step with the committed record: after an
eviction, a crash between `begin` and `complete`, or a lease taken by a
different request. A completed entry never is: coordinators publish what
`execute_once` returned, so as long as the identity's record is not
deleted, a completed entry carries that record's result (`Mirrors`). From
this, what the coordinator answers over a live record is known for every
hot entry its `begin` may meet.
-/

namespace IdentityService

open Concurrent

variable {B : Business} {C : ResultCodec} {i : Nat} {w w' : World B C}
  {identity : IdempotencyIdentity} {R : IdempotencyRecord} {requestHash : Digest}
  {operation : Operation B StoredResult} {retention : Retention}

/-! ## Hot results are those of the record -/

/-- A result may be published for the identity if its record carries it;
of other identities nothing is asked. -/
def Mirrors (identity : IdempotencyIdentity) : Publishable B := fun id c store =>
  id = identity → ∃ r, store.rows (.record identity) = some r ∧ r.completed = c

variable (B C identity) in
/-- Every completed entry of the identity mirrors its record, in runs that
do not delete the record. -/
def mirrorRules : Rules B C where
  inv w := HotShapes w ∧ ∀ id c, w.hot id = some (.completed C c) → Mirrors identity id c w.store
  con := RecordKept identity
  guar _ _ := True
  tolerant _ w w' hinv _ _ hp := by
    refine ⟨⟨fun id => ?_, fun id c hc => ?_⟩, trivial⟩
    · rw [hp.hot]
      exact hinv.1 id
    · rw [hp.hot] at hc
      unfold Mirrors
      rw [hp.rows]
      exact hinv.2 id c hc

theorem Mirrors.kept {id : IdempotencyIdentity} {c : CompletedIdempotencyResult}
    (h : Mirrors identity id c w.store) (hk : RecordKept identity w w') :
    Mirrors identity id c w'.store := by
  intro hid
  obtain ⟨r, hr, hc⟩ := h hid
  exact ⟨r, hk r hr, hc⟩

/-- A step that leaves the hot store alone keeps the mirror, whatever it
commits. -/
theorem mirror_kept (h : (mirrorRules B C identity).inv w) (hk : RecordKept identity w w')
    (hhot : w'.hot = w.hot) : (mirrorRules B C identity).inv w' := by
  refine ⟨fun id => ?_, fun id c hc => ?_⟩
  · rw [hhot]
    exact h.1 id
  · rw [hhot] at hc
    exact (h.2 id c hc).kept hk

theorem mirrorRules_hot : HotRules (mirrorRules B C identity) (Mirrors identity) where
  shapes _ h := h.1
  published w id c h hc := h.2 id c hc
  offstage w w' h _ ho := by
    refine ⟨⟨ho.shapes, fun id c hc => ?_⟩, trivial⟩
    rw [ho.store]
    exact (ho.published id c hc).elim (h.2 id c) fun hpub => hpub

theorem closed_mirror : (mirrorRules B C identity).spec.Closed where
  env v w w' hw hx hc := by
    obtain ⟨hlocked, hothers⟩ := envStep_others hw.1 hx
    refine ⟨⟨hlocked, ?_⟩, trivial, hothers⟩
    rcases envStep_cases hx with ⟨d, rfl⟩ | ⟨id, rfl⟩ | ⟨cutoff, ids, st, -, -, rfl⟩
    · exact mirror_kept hw.2 hc rfl
    · refine ⟨hw.2.1.withHot .absent, fun id' c hentry => hw.2.2 id' c ?_⟩
      by_cases hid : id' = id
      · subst hid
        simp [World.withHot] at hentry
      · simpa [World.withHot, hid] using hentry
    · exact mirror_kept hw.2 hc rfl
  kill i w hw hc := Rules.owes_private hw hc (Quiet.close .go).toPrivate

/-! ## The outline of one coordinator -/

/-- One call of the coordinator: the arguments of `execute`, with or
without a hot store. -/
structure CoordinatorCall (B : Business) extends Call B where
  hotStore : Bool
  leaseSeconds : Int

/-- The program of such a call. -/
def CoordinatorCall.run (call : CoordinatorCall B) (retention : Retention) :
    App B ExecutionResult :=
  coordinatorExecute call.hotStore retention call.identity call.requestHash call.callback.body
    call.leaseSeconds

variable {call : Call B}

/-- A fact about the record that the call is bound to, if that record is
the identity's. -/
theorem steady_mirror (p : Prop) (f : IdempotencyRecord → Prop) :
    (mirrorRules B C identity).Steady i fun w => p → Holds identity f w :=
  RecordKept.steady (R := mirrorRules B C identity) (fun _ _ hc => hc) p f

/-- The record is staged in the call's own transaction. -/
def RecordStaged (i : Nat) (call : Call B) (c : CompletedIdempotencyResult) (w : World B C) :
    Prop :=
  ∃ r, w.store.staged i (.record call.identity) = some r ∧ r.completed = c

/-- What a commit of the call, or a lookup that found something, tells. -/
def Carries (identity : IdempotencyIdentity) (call : Call B) (c : CompletedIdempotencyResult)
    (w : World B C) : Prop :=
  call.identity = identity → Holds identity (fun r => r.completed = c) w

/-- A staged record is what the commit leaves. -/
theorem RecordStaged.commit {c : CompletedIdempotencyResult} (h : RecordStaged i call c w)
    (f : Fate Fault) :
    Carries identity call c ((w.settle i f).withStore (w.store.commit i)) := by
  rintro rfl
  obtain ⟨r, hr, hc⟩ := h
  exact ⟨r, Store.view_of_staged hr, hc⟩

theorem RecordStaged.stage (r : IdempotencyRecord) : RecordStaged i call r.completed
    (w.withStore (w.store.stage i (.record call.identity) r)) :=
  ⟨r, by simp, rfl⟩

theorem owes_mirror (f : Fate Fault) (hw : (mirrorRules B C identity).spec.inv w)
    (hc : RecordKept identity w ((w.settle i f).withStore (w.store.commit i))) :
    (mirrorRules B C identity).spec.Owes i w ((w.settle i f).withStore (w.store.commit i)) := by
  have hothers : ∀ j, j ≠ i → Others j w ((w.settle i f).withStore (w.store.commit i)) :=
    fun j hj => ⟨Store.Keeps.commit hw.1 hj, by simp, settle_failed_ne f hj⟩
  have hinv := mirror_kept hw.2 hc (by simp)
  exact ⟨⟨hw.1.commit, hinv⟩, trivial, hothers⟩

theorem winner_not_foreign {x : Exn} (h : x.foreign = true) : x ≠ .concurrentWinnerCommitted := by
  rintro rfl
  revert h
  decide

theorem faulted_foreign {x : Exn} {w : World B C} (h : Faulted i (fun _ => True) x w) :
    x.foreign = true := h.1

variable (C identity i call retention) in
/-- The fence of one call under these rules. -/
def mirrorFence : Fence (mirrorRules B C identity) i retention call.identity call.requestHash
    call.callback.body fun _ => True where
  E _ := True
  Ran _ := Unfenced i
  Fenced := RecordStaged i call
  Done := Carries identity call
  Lost _ := True
  Raised x _ := x.foreign = true
  steady := .const True
  ranStable _ := stable_unfenced
  fencedStable _ := by
    rintro w w' - - - - ho ⟨r, hr, hc⟩
    exact ⟨r, by rw [ho.keeps.staged, hr], hc⟩
  doneSteady _ := steady_mirror _ _
  lostSteady := .const True
  raisedSteady _ := .const _
  body := (operation_safe _ call.callback.raises).pre fun w _ h id => by rw [h.1.staged]
  raised _ _ h := winner_not_foreign h
  faulted _ _ h := faulted_foreign h
  translated d _ _ := translateDatabaseError_foreign d
  ranE _ _ _ _ := trivial
  fencedE _ _ _ _ := trivial
  doneE _ _ _ := trivial
  lostE _ _ := trivial
  raisedE _ _ _ := trivial
  lose _ _ _ _ _ := trivial
  fence stored t _ _ _ _ _ :=
    .stage (completedRecord retention { stored with requestHash := call.requestHash } t)
  commit _ _ f hw hs hc := ⟨owes_mirror f hw hc, hs.commit f⟩

/-- What a lookup of the call tells: nothing, if it found nothing. -/
def Reads (identity : IdempotencyIdentity) (call : Call B) :
    Option CompletedIdempotencyResult → World B C → Prop
  | none, _ => True
  | some c, w => Carries identity call c w

theorem lookup_mirror {Pre : World B C → Prop} (hpre : (mirrorRules B C identity).Steady i Pre) :
    Lookup (mirrorRules B C identity) i call.identity Pre
      (fun r w => call.identity = identity → Holds identity (· = r) w)
      (Reads identity call) where
  steady := hpre
  seenSteady _ := steady_mirror _ _
  gotSteady o := by
    cases o with
    | none => exact .const True
    | some c => exact steady_mirror _ _
  absent _ _ _ _ := trivial
  present w r _ _ hr := by
    rintro rfl
    exact ⟨r, hr, rfl⟩
  expired _ _ _ _ _ _ := trivial
  live w r _ _ hs _ hid := by
    obtain ⟨r', hr', rfl⟩ := hs hid
    exact ⟨r', hr', rfl⟩

/-- What the call answers is the record's, if it carries a result. -/
def AnswersRecord (identity : IdempotencyIdentity) (call : Call B) (res : ExecutionResult)
    (w : World B C) : Prop :=
  ∀ c, res.completed = some c → Carries identity call c w

theorem lingers_answersRecord (res : ExecutionResult) :
    Lingers (mirrorRules B C identity) i (AnswersRecord identity call res) where
  stable w w' hw hw' hc hg hr h c hres :=
    (steady_mirror (i := i) _ _).stable w w' hw hw' hc hg hr (h c hres)
  aside w w' ha h c hres hid := by
    obtain ⟨r, hr, hcr⟩ := h c hres hid
    exact ⟨r, by rw [ha.store]; exact hr, hcr⟩

theorem executeOnce_mirror : (mirrorRules B C identity).spec.Safe i
    (executeOnce retention call.identity call.requestHash call.callback.body) (Idle i)
    (Ends (fun res w => Idle i w ∧ AnswersRecord identity call res w) fun _ w => Idle i w) := by
  let o := mirrorFence C i identity retention call
  have hfirst : Lookup (mirrorRules B C identity) i call.identity (fun _ => True)
      (fun r w => call.identity = identity → Holds identity (· = r) w) (Reads identity call) :=
    lookup_mirror (.const True)
  have hmain := o.executeOnce_safe hfirst (fun _ _ _ _ => trivial) (lookup_mirror o.lostSteady)
    fun x => lookup_mirror (o.raisedSteady x)
  refine (hmain.pre fun w _ h => ⟨h, trivial⟩).post ?_
  rintro (x | res) w - h
  · exact h.1
  · refine ⟨h.1, fun c hc => ?_⟩
    rcases h.2 with ⟨c', rfl, hdone⟩ | ⟨c', rfl, hgot⟩
    · cases hc
      exact hdone
    · obtain ⟨rfl, -⟩ := classify_completed hc
      exact hgot.elim id id

theorem findExisting_mirror : (mirrorRules B C identity).spec.Safe i
    (findExisting call.identity call.requestHash) (Idle i)
    (Ends (fun o w => Idle i w ∧ AnswersRecord identity call (o.getD .inProgress) w)
      fun _ w => Idle i w) := by
  have hlookup : Lookup (mirrorRules B C identity) i call.identity (fun _ => True)
      (fun r w => call.identity = identity → Holds identity (· = r) w) (Reads identity call) :=
    lookup_mirror (.const True)
  have hmain := hlookup.findExisting_safe call.requestHash
  refine (hmain.pre fun w _ h => ⟨h, trivial⟩).post ?_
  rintro (x | o) w - h
  · exact h.1
  · obtain ⟨hidle, -, c, rfl, hgot⟩ := h
    refine ⟨hidle, fun c' hc' => ?_⟩
    cases c with
    | none => cases hc'
    | some c =>
        obtain ⟨rfl, -⟩ := classify_completed hc'
        exact hgot

/-- All the coordinator's outline asks of the durable service. -/
theorem durably_mirror : HotRules.Durably (mirrorRules B C identity) (Mirrors identity) i retention
    call.identity call.requestHash call.callback.body (fun _ => True)
    (AnswersRecord identity call) fun _ _ => True where
  lingers := ⟨Spec.Stable.const True, fun _ _ _ _ => trivial⟩
  answers := lingers_answersRecord
  raises _ := ⟨Spec.Stable.const True, fun _ _ _ _ => trivial⟩
  publishable _ _ _ _ _ hc _ _ h := Mirrors.kept h hc
  executes := (executeOnce_mirror.pre fun _ _ h => h.1).post fun r w _ h => by
    cases r with
    | ok res => exact h
    | error x => exact ⟨h, trivial⟩
  finds := (findExisting_mirror.pre fun _ _ h => h.1).post fun r w _ h => by
    cases r with
    | ok res => exact h
    | error x => exact ⟨h, trivial⟩
  replays c w _ hpub _ c' hc' := by
    cases hc'
    exact hpub
  conflicts _ _ _ hc := nomatch hc
  publishes res c w h hc := h c hc
  failed _ _ _ := trivial
  refuses _ _ _ := trivial

theorem run_mirror (call : CoordinatorCall B) : (mirrorRules B C identity).spec.Safe i
    (call.run retention) (Idle i) fun _ _ => True :=
  ((mirrorRules_hot.coordinatorExecute_safe durably_mirror call.hotStore call.leaseSeconds).pre
    fun _ _ h => ⟨h, trivial⟩).post fun _ _ _ _ => trivial

/-- **The mirror**, in every state that coordinators reach without their
identity's record being deleted. -/
theorem mirror_reach {rows : (k : Key B) → Option k.Row} {clock : Time}
    {calls : Nat → Option (CoordinatorCall B)}
    {K : Config (sig B) Exn (World B C) ExecutionResult}
    (hreach : (machine B C).Reach (RecordKept identity)
      ⟨World.start rows clock, fun j => (calls j).map (·.run retention)⟩ K) :
    (mirrorRules B C identity).spec.inv K.shared := by
  have hgood : (mirrorRules B C identity).spec.Good (fun _ _ _ => True)
      ⟨World.start rows clock, fun j => (calls j).map (·.run retention)⟩ := by
    refine ⟨⟨Store.locked_quiet rows, fun _ => .absent, fun _ _ h => nomatch h⟩, ?_⟩
    intro j p hp
    obtain ⟨call, -, rfl⟩ := Option.map_eq_some_iff.mp hp
    exact ⟨Idle j, Rules.stable_idle, ⟨rfl, fun _ => by simp [World.start, Store.quiet], rfl⟩,
      run_mirror call⟩
  exact (hgood.reach closed_mirror hreach).inv

/-! ## The answer, by hot entry -/

/-- The entry is absent, a lease, or `R`'s own result. -/
def Reflects (C : ResultCodec) (R : IdempotencyRecord) (entry : Option (HotHash C.Blob)) : Prop :=
  entry = none ∨ (∃ other owner, entry = some (.processing other owner)) ∨
    entry = some (.completed C R.completed)

/-- What a call answers over the live record `R`, if its `begin` was let
through (`f = .go`) onto the hot entry, or not. -/
structure HotAnswer (C : ResultCodec) (R : IdempotencyRecord) (requestHash : Digest)
    (entry : Option (HotHash C.Blob)) (f : Fate Fault) (res : ExecutionResult) : Prop where
  /-- A completed entry is the record's own. -/
  shape : Reflects C R entry
  /-- Unless a lease of another request is met, the answer is that of
  `find_existing`: REPLAY carrying the record, or CONFLICT. -/
  byRecord : (f = .go → ∀ other owner, entry = some (.processing other owner) →
      other = requestHash) →
    (R.completed.requestHash = requestHash → res = .replay R.completed) ∧
      (R.completed.requestHash ≠ requestHash → res = .conflict)
  /-- A lease of another request is a conflict, whatever the record says. -/
  byLease : f = .go → ∀ other owner, other ≠ requestHash →
    entry = some (.processing other owner) → res = .conflict

theorem classify_replay {c : CompletedIdempotencyResult} (h : c.requestHash = requestHash) :
    classify c requestHash = .replay c := by
  simp [classify, h]

theorem classify_conflict {c : CompletedIdempotencyResult} (h : c.requestHash ≠ requestHash) :
    classify c requestHash = .conflict := by
  simp [classify, h]

/-- The record's own answer. -/
theorem HotAnswer.of_classify {entry : Option (HotHash C.Blob)} {f : Fate Fault}
    (hshape : Reflects C R entry)
    (hlease : f = .go → ∀ other owner, entry = some (.processing other owner) →
      other = requestHash) :
    HotAnswer C R requestHash entry f (classify R.completed requestHash) where
  shape := hshape
  byRecord _ := ⟨classify_replay, classify_conflict⟩
  byLease hf other owner hne hentry := absurd (hlease hf other owner hentry) hne

/-- The hot store's decision, read off its entry. -/
theorem hotAnswer_begin {entry : Option (HotHash C.Blob)}
    (hshape : Reflects C R entry) (ownerToken : Uuid) :
    HotAnswer C R requestHash entry .go
      (answerAfter R requestHash (hotBegin C requestHash ownerToken entry).1) := by
  rcases hshape with rfl | ⟨other, owner, rfl⟩ | rfl
  · exact .of_classify (.inl rfl) nofun
  · by_cases hother : other = requestHash
    · -- the caller's own lease: IN_PROGRESS, and the record is looked up
      subst hother
      rw [hotBegin_processing, if_pos rfl]
      exact .of_classify (.inr (.inl ⟨other, owner, rfl⟩)) fun _ _ _ h => by
        simpa [HotHash.processing] using congrArg (Option.map HotHash.requestHash) h.symm
    · rw [hotBegin_processing, if_neg hother]
      refine ⟨.inr (.inl ⟨other, owner, rfl⟩), fun h => ?_, fun _ _ _ _ _ => rfl⟩
      exact absurd (h rfl other owner rfl) hother
  · -- the entry is the record's own result: either way its answer
    have hrecord : HotAnswer C R requestHash (some (.completed C R.completed)) .go
        (classify R.completed requestHash) :=
      .of_classify (.inr (.inr rfl)) fun _ _ _ h => by
        simp [HotHash.processing, HotHash.completed] at h
    rw [hotBegin_completed]
    by_cases hh : R.completed.requestHash = requestHash
    · rw [classify_replay hh] at hrecord
      rw [if_pos hh]
      exact hrecord
    · rw [classify_conflict hh] at hrecord
      rw [if_neg hh]
      exact hrecord

theorem HotShape.mirrored {entry : Option (HotHash C.Blob)} (h : HotShape C entry)
    (hm : ∀ c, entry = some (.completed C c) → c = R.completed) : Reflects C R entry := by
  cases h with
  | absent => exact .inl rfl
  | processing other owner => exact .inr (.inl ⟨other, owner, rfl⟩)
  | completed c =>
      obtain rfl := hm c rfl
      exact .inr (.inr rfl)

theorem coordinatorExecute_hot {leaseSeconds : Int} (h : 0 < leaseSeconds) :
    coordinatorExecute true retention identity requestHash operation leaseSeconds =
      (ask .ownerToken).bind fun ownerToken =>
        (ask (.hotBegin identity requestHash ownerToken)).outcome.bind
          (afterBegin retention identity requestHash operation ownerToken) := by
  have hpos : ¬ leaseSeconds ≤ 0 := by omega
  simp only [coordinatorExecute, hpos, if_false]
  rfl

/-- Among any other programs, an outlined one ends as its outline says. -/
theorem result_record {pool : Nat → Option (App B ExecutionResult)} {p : App B ExecutionResult}
    {Q : Except Exn ExecutionResult → World B C → Prop}
    {K : Config (sig B) Exn (World B C) ExecutionResult}
    (hinv : (recordRules B C identity R).spec.inv w) (hidle : Idle i w)
    (hsafe : (recordRules B C identity R).spec.Safe i p (Idle i) Q)
    (hrun : (machine B C).Reach (fun _ w' => RecordIs identity R w')
      ⟨w, Function.update pool i (some p)⟩ K)
    {res : ExecutionResult} (hres : K.pool i = some (.ret res)) : Q (.ok res) K.shared := by
  have hgood : (recordRules B C identity R).spec.Good (fun j r w => j = i → Q r w)
      ⟨w, Function.update pool i (some p)⟩ := by
    refine ⟨hinv, fun j q hq => ?_⟩
    by_cases hji : j = i
    · subst hji
      simp only [Function.update_self, Option.some.injEq] at hq
      subst hq
      exact ⟨Idle j, Rules.stable_idle, hidle, hsafe.post fun _ _ _ h _ => h⟩
    · exact ⟨fun _ => True, Spec.Stable.const True, trivial,
        (safe_any q).post fun _ _ _ _ h => absurd h hji⟩
  exact (hgood.reach closed_record hrun).result (r := .ok res) hres rfl

/-- **The hot path.** In any state that any number of coordinators reach,
whatever the outside does to the hot store, over a live record that stays
in place while the call lasts: what `IdempotencyCoordinator.execute`
returns, if it returns, for every hot entry its `begin` may meet. -/
theorem coordinator_answers (rows : (k : Key B) → Option k.Row) (clock : Time)
    (calls : Nat → Option (CoordinatorCall B))
    {K K₁ K₂ K' : Config (sig B) Exn (World B C) ExecutionResult}
    (hreach : (machine B C).Reach (RecordKept identity)
      ⟨World.start rows clock, fun j => (calls j).map (·.run retention)⟩ K)
    (hidle : Idle i K.shared) (hrecord : RecordIs identity R K.shared)
    {leaseSeconds : Int} (hlease : 0 < leaseSeconds) (ownerToken : Uuid) (f : Fate Fault)
    (htoken : (machine B C).step
      ⟨K.shared, Function.update K.pool i (some
        (coordinatorExecute true retention identity requestHash operation leaseSeconds))⟩
      (.act i (.token ownerToken)) = some K₁)
    (hbegin : (machine B C).step K₁ (.act i (.fate f)) = some K₂)
    (hrun : (machine B C).Reach (fun _ w' => RecordIs identity R w') K₂ K')
    {res : ExecutionResult} (hres : K'.pool i = some (.ret res)) :
    HotAnswer C R requestHash (K.shared.hot identity) f res := by
  obtain ⟨hlocked, hshapes, hmirror⟩ := mirror_reach hreach
  have hshape := (hshapes identity).mirrored fun c hc => by
    obtain ⟨r, hr, hcr⟩ := hmirror identity c hc rfl
    rw [hrecord.1] at hr
    cases hr
    exact hcr.symm
  -- the owner token, then `begin`
  rw [coordinatorExecute_hot hlease] at htoken
  obtain ⟨r₁, w₁, hx₁, rfl⟩ := Machine.step_act (Function.update_self _ _ _) htoken
  cases hx₁
  obtain ⟨r₂, w₂, hx₂, rfl⟩ := Machine.step_act (Function.update_self _ _ _) hbegin
  have hx₂ : exec i (.hotBegin identity requestHash ownerToken) (.fate f) K.shared =
    some (r₂, w₂) := hx₂
  have hbegun : w₂.store = K.shared.store ∧ w₂.clock = K.shared.clock ∧
      HotAnswer C R requestHash (K.shared.hot identity) f (answerAfter R requestHash r₂) := by
    cases f with
    | go =>
        cases hx₂
        exact ⟨rfl, rfl, hotAnswer_begin hshape ownerToken⟩
    | fault x =>
        cases hx₂
        exact ⟨by simp, by simp, .of_classify hshape fun h => nomatch h⟩
    | applied x =>
        cases hx₂
        exact ⟨by simp; rfl, by simp; rfl, .of_classify hshape fun h => nomatch h⟩
  obtain ⟨hstore, hclock, hanswer⟩ := hbegun
  have hrec₂ : RecordIs identity R w₂ := by
    unfold RecordIs
    rw [hstore, hclock]
    exact hrecord
  have hidle₂ : Idle i w₂ := by
    refine ⟨?_, ?_, ?_⟩
    · rw [hstore]
      exact hidle.staged
    · rw [hstore]
      exact hidle.holder
    · rw [hstore]
      exact hidle.seen
  have hsafe : (recordRules B C identity R).spec.Safe i ((Prog.ofExcept r₂).outcome.bind
      (afterBegin retention identity requestHash operation ownerToken)) (Idle i)
      (Ends (fun res _ => res = answerAfter R requestHash r₂) fun _ _ => True) := by
    rw [Prog.outcome_ofExcept]
    exact afterBegin_record ownerToken r₂
  have hend := result_record ⟨by rw [hstore]; exact hlocked, hshapes.exec hx₂, hrec₂⟩ hidle₂
    hsafe hrun hres
  rw [show res = answerAfter R requestHash r₂ from hend]
  exact hanswer

/-! ## A lease in the way

The identity's record answers request 1. Its hot entry is gone, and a
caller with request 2 has taken the lease. The retry of request 1 is told
CONFLICT, where its record says REPLAY. -/

namespace Sample

def record : IdempotencyRecord := ⟨completed, 1, 0, 0, 500⟩

def recorded : (k : Key counter) → Option k.Row
  | .record _ => some record
  | .biz _ => none

/-- A request under the same key, with its own fingerprint. -/
def coordinate (requestHash : Digest) : CoordinatorCall counter :=
  ⟨⟨caller, requestHash, callback⟩, true, 30⟩

/-- Another caller, with request 2. -/
def coordinators : Nat → Option (CoordinatorCall counter)
  | 1 => some (coordinate (digest 2))
  | _ => none

/-- The other request acquires the lease. -/
def beginOther : List (machine counter codec).Label := [.act 1 (.token 7), .act 1 (.fate .go)]

def anything (_ _ : World counter codec) : Bool := true

/-- The start: the record, and a hot store that has lost its entry. -/
def cold : Config (sig counter) Exn (World counter codec) ExecutionResult :=
  ⟨World.start recorded 0, fun j => (coordinators j).map (·.run Sample.retention)⟩

/-- The other caller holds the lease. -/
def leased : Config (sig counter) Exn (World counter codec) ExecutionResult :=
  ((machine counter codec).run anything cold beginOther).get rfl

theorem leased_reach : (machine counter codec).Reach (RecordKept caller) cold leased :=
  .head ⟨.act 1 (.token 7), rfl, fun _ h => h⟩
    (.head ⟨.act 1 (.fate .go), rfl, fun _ h => h⟩ .refl)

/-- The retry of request 1 begins. -/
def askedAgain : Config (sig counter) Exn (World counter codec) ExecutionResult :=
  ⟨leased.shared, Function.update leased.pool 0
    (some ((coordinate (digest 1)).run Sample.retention))⟩

end Sample

open Sample in
/-- What the coordinator answers there is not what `find_existing` would. -/
theorem coordinator_conflict_over_record :
    (machine counter codec).Reach (RecordKept caller) cold leased ∧
      RecordIs caller record leased.shared ∧ Idle 0 leased.shared ∧
      (∃ K' : Config (sig counter) Exn (World counter codec) ExecutionResult,
        (machine counter codec).Reach (fun _ w' => RecordIs caller record w') askedAgain K' ∧
        K'.pool 0 = some (.ret .conflict)) ∧
      classify record.completed (digest 1) = .replay record.completed :=
  ⟨leased_reach, ⟨rfl, by decide⟩,
    ⟨rfl, fun k => nofun, rfl⟩,
    ⟨_, .head ⟨.act 0 (.token 8), rfl, rfl, by decide⟩
      (.head ⟨.act 0 (.fate .go), rfl, rfl, by decide⟩
        (.head ⟨.act 0 (.fate .go), rfl, rfl, by decide⟩ .refl)), rfl⟩, rfl⟩

open Sample in
theorem coordinator_answers_lease :
    HotAnswer codec record (digest 1) (leased.shared.hot caller) .go .conflict := by
  have htoken : (machine counter codec).step askedAgain (.act 0 (.token 8)) = some _ := rfl
  exact @coordinator_answers counter codec 0 caller record (digest 1) callback.body
    Sample.retention recorded 0 coordinators leased _ _ _
    leased_reach ⟨rfl, fun k => nofun, rfl⟩ ⟨rfl, by decide⟩ 30 (by decide) 8 .go htoken rfl
    (.head ⟨.act 0 (.fate .go), rfl, rfl, by decide⟩ .refl) _ rfl

end IdentityService
