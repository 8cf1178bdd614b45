import IdentityService.Idempotency.Coordinator
import IdentityService.Idempotency.ExactlyOnce

/-!
# The hot path over a live record

A hot entry has one of three shapes, whatever runs. Over a record that
stays live, the durable half of the coordinator answers from that record
whoever else is running, so the answer of the whole call is a function of
what its `begin` was told (`answerAfter`).
-/

namespace IdentityService

open Concurrent

variable {B : Business} {C : ResultCodec} {i : Nat} {w w' : World B C}

/-! ## The shapes of the hot entries are invariant -/

/-- Every hot entry has the shape that the scripts leave. -/
def HotShapes (w : World B C) : Prop := ∀ identity, HotShape C (w.hot identity)

theorem HotShape.begin {entry : Option (HotHash C.Blob)} (h : HotShape C entry)
    (requestHash : Digest) (ownerToken : Uuid) :
    HotShape C (hotBegin C requestHash ownerToken entry).2 := by
  cases h with
  | absent =>
      rw [hotBegin_absent]
      exact .processing _ _
  | processing h' o' =>
      rw [hotBegin_processing]
      exact .processing _ _
  | completed c =>
      rw [hotBegin_completed]
      exact .completed c

theorem HotShape.complete {entry : Option (HotHash C.Blob)} (h : HotShape C entry)
    (ownerToken : Uuid) (c : CompletedIdempotencyResult) :
    HotShape C (HotHash.completeScript ownerToken (C.encode c) c.requestHash entry).2 := by
  cases h with
  | absent => exact .absent
  | processing h' o' =>
      rw [completeScript_processing]
      split
      · exact .completed c
      · exact .processing h' o'
  | completed c' =>
      rw [completeScript_completed]
      exact .completed c'

theorem HotShape.abandon {entry : Option (HotHash C.Blob)} (h : HotShape C entry)
    (ownerToken : Uuid) : HotShape C (HotHash.abandonScript ownerToken entry).2 := by
  cases h with
  | absent => exact .absent
  | processing h' o' =>
      rw [abandonScript_processing]
      split
      · exact .absent
      · exact .processing h' o'
  | completed c' =>
      rw [abandonScript_completed]
      exact .completed c'

theorem HotShapes.withHot (h : HotShapes w) {identity : IdempotencyIdentity}
    {entry : Option (HotHash C.Blob)} (he : HotShape C entry) :
    HotShapes (w.withHot identity entry) := by
  intro id
  by_cases hid : id = identity
  · subst hid
    simpa [World.withHot] using he
  · simpa [World.withHot, hid] using h id

theorem HotShapes.hotCall {α : Type} (h : HotShapes w) {identity : IdempotencyIdentity}
    {f : Fate Fault} {out : Except Exn α × Option (HotHash C.Blob)} {r : Except Exn α}
    (hc : hotCall i w identity f out = some (r, w')) (he : HotShape C out.2) : HotShapes w' := by
  rcases hotCall_cases hc with ⟨-, -, rfl⟩ | ⟨x, -, rfl | rfl⟩
  · exact h.withHot he
  · simpa [HotShapes] using h
  · have hput : HotShapes (w.withHot identity out.2) := h.withHot he
    simpa [HotShapes] using hput

/-- No effect of any program leaves a fourth shape behind. -/
theorem HotShapes.exec {e : Eff B} {c : Choice B} {r : Except Exn e.Resp} (h : HotShapes w)
    (hx : exec i e c w = some (r, w')) : HotShapes w' := by
  cases e with
  | db o =>
      obtain ⟨f, st, -, rfl⟩ := exec_db hx
      simpa [HotShapes] using h
  | hotBegin identity requestHash ownerToken =>
      rcases c with f | b | u | a
      · exact h.hotCall hx ((h identity).begin requestHash ownerToken)
      all_goals cases hx
  | hotComplete identity ownerToken result =>
      rcases c with f | b | u | a
      · exact h.hotCall hx ((h identity).complete ownerToken result)
      all_goals cases hx
  | hotAbandon identity ownerToken =>
      rcases c with f | b | u | a
      · exact h.hotCall hx ((h identity).abandon ownerToken)
      all_goals cases hx
  | _ =>
      rcases c with (_ | x | x) | b | u | a
      all_goals first
        | cases hx
          exact h
        | cases hx

theorem HotShapes.env {v : EnvStep} (h : HotShapes w) (hx : envStep v w = some w') :
    HotShapes w' := by
  rcases envStep_cases hx with ⟨d, rfl⟩ | ⟨identity, rfl⟩ | ⟨cutoff, ids, st, -, -, rfl⟩
  · exact h
  · exact h.withHot .absent
  · exact h

/-! ## The coordinator over a live record -/

/-- The record stays in place and does not expire. -/
def RecordIs (identity : IdempotencyIdentity) (R : IdempotencyRecord) (w : World B C) : Prop :=
  w.store.rows (.record identity) = some R ∧ R.Live w.clock

variable {identity : IdempotencyIdentity} {R : IdempotencyRecord}

variable (B C identity R) in
/-- The rules of runs in which the record stays. -/
def recordRules : Rules B C where
  inv w := HotShapes w ∧ RecordIs identity R w
  con _ w' := RecordIs identity R w'
  guar _ _ := True
  tolerant _ w w' hinv _ hc hp := by
    refine ⟨⟨fun id => ?_, hc⟩, trivial⟩
    rw [hp.hot]
    exact hinv.1 id

/-- Nothing another program does can break these rules. -/
theorem owes_any {e : Eff B} {c : Choice B} {r : Except Exn e.Resp}
    (hw : (recordRules B C identity R).spec.inv w) (hx : exec i e c w = some (r, w'))
    (hc : (recordRules B C identity R).con w w') :
    (recordRules B C identity R).spec.Owes i w w' := by
  obtain ⟨hl, hothers⟩ := exec_others hw.1 hx
  exact ⟨⟨hl, hw.2.1.exec hx, hc⟩, trivial, hothers⟩

theorem safe_any {α : Type} (p : App B α) :
    (recordRules B C identity R).spec.Safe i p (fun _ => True) fun _ _ => True := by
  induction p with
  | ret a => exact fun _ _ _ => trivial
  | throw x => exact fun _ _ _ => trivial
  | op e k ih =>
      intro w c r w' hw _ hx hc
      exact ⟨owes_any hw hx hc, _, Spec.Stable.const True, trivial, ih r⟩

theorem closed_record : (recordRules B C identity R).spec.Closed where
  env v w w' hw hx hc := by
    obtain ⟨hl, hothers⟩ := envStep_others hw.1 hx
    exact ⟨⟨hl, hw.2.1.env hx, hc⟩, trivial, hothers⟩
  kill i w hw hc := Rules.owes_private hw hc (Quiet.close .go).toPrivate

variable {requestHash : Digest} {operation : Operation B StoredResult} {retention : Retention}

/-- Every lookup finds the record. -/
theorem lookup_record : Lookup (recordRules B C identity R) i identity (fun _ => True)
    (fun r _ => r = R) fun c _ => c = some R.completed where
  steady := .const True
  seenSteady _ := .const _
  gotSteady _ := .const _
  absent w hw _ hr := by
    rw [hw.2.2.1] at hr
    cases hr
  present w r hw _ hr := by
    rw [hw.2.2.1] at hr
    exact (Option.some.inj hr).symm
  expired w r hw _ hs hl := by
    subst hs
    exact absurd hw.2.2.2 hl
  live w r _ _ hs _ := by rw [hs]

/-- Answers given by the record. -/
def ByRecord (R : IdempotencyRecord) (requestHash : Digest) :
    Except Exn ExecutionResult → World B C → Prop :=
  Ends (fun res _ => res = classify R.completed requestHash) fun _ _ => True

theorem findExisting_record : (recordRules B C identity R).spec.Safe i
    (findExisting identity requestHash) (Idle i)
    (Ends (fun o _ => o = some (classify R.completed requestHash)) fun _ _ => True) := by
  refine ((lookup_record.findExisting_safe requestHash).pre fun w _ h => ⟨h, trivial⟩).post ?_
  rintro (x | o) w - h
  · trivial
  · obtain ⟨-, -, c, rfl, rfl⟩ := h
    rfl

/-- The callback is never run. -/
theorem executeOnce_record : (recordRules B C identity R).spec.Safe i
    (executeOnce retention identity requestHash operation) (Idle i)
    (ByRecord R requestHash) := by
  refine findExisting_record.bind (fun o => ?_) fun _ _ _ _ => trivial
  refine Spec.Safe.assuming (φ := o = some (classify R.completed requestHash)) (fun _ _ h => h)
    fun ho => ?_
  subst ho
  exact fun _ _ _ => rfl

/-- The rest of the coordinator hands the result on. -/
theorem observe_record (res : ExecutionResult) :
    (recordRules B C identity R).spec.Safe i (observe res) (fun _ => True)
      (Ends (fun res' _ => res' = res) fun _ _ => True) :=
  (safe_any (ask (.observeOutcome res.outcome))).bind (fun _ _ _ _ => rfl) fun _ _ _ _ => trivial

theorem publish_record (ownerToken : Uuid) (res : ExecutionResult) :
    (recordRules B C identity R).spec.Safe i (publish identity ownerToken res) (fun _ => True)
      (Ends (fun res' _ => res' = res) fun _ _ => True) := by
  refine (safe_any (ask (.heartbeat identity ownerToken))).bind (fun lost => ?_)
    fun _ _ _ _ => trivial
  cases lost with
  | true =>
      exact (safe_any (ask (.observeHotDegraded "lease"))).bind (fun _ => observe_record res)
        fun _ _ _ _ => trivial
  | false =>
      simp only [Bool.false_eq_true, if_false]
      split
      · exact (safe_any _).bind (fun _ => observe_record res) fun _ _ _ _ => trivial
      · exact (safe_any _).bind (fun _ => observe_record res) fun _ _ _ _ => trivial

theorem executeLeased_record (ownerToken : Uuid) : (recordRules B C identity R).spec.Safe i
    (executeLeased retention identity requestHash operation ownerToken) (Idle i)
    (ByRecord R requestHash) := by
  refine (Rules.outcome_safe executeOnce_record).bind (fun r => ?_) fun _ _ _ h => h.elim
  cases r with
  | ok res =>
      refine Spec.Safe.assuming (φ := res = classify R.completed requestHash) (fun _ _ h => h)
        fun hres => ?_
      subst hres
      exact (publish_record ownerToken _).pre fun _ _ _ => trivial
  | error x =>
      refine ((safe_any (ask (.heartbeat identity ownerToken))).pre fun _ _ _ => trivial).bind
        (fun lost => ?_) fun _ _ _ _ => trivial
      cases lost with
      | true => exact fun _ _ _ => trivial
      | false => exact (safe_any _).bind (fun _ _ _ _ => trivial) fun _ _ _ _ => trivial

theorem executeDegraded_record (stage : String) : (recordRules B C identity R).spec.Safe i
    (executeDegraded stage retention identity requestHash operation) (Idle i)
    (ByRecord R requestHash) := by
  have hidle : (recordRules B C identity R).spec.Safe i (ask (.observeHotDegraded stage)) (Idle i)
      (Ends (fun _ => Idle i) fun _ _ => True) := by
    refine Rules.ask_safe fun w c r w' hw hp hx hc => ?_
    rcases c with (_ | x | x) | b | u | a
    · cases hx
      exact ⟨owes_any (e := .observeHotDegraded stage) (c := .fate .go) hw rfl hc, Idle i,
        Rules.stable_idle, hp, fun _ _ h => h⟩
    all_goals cases hx
  refine hidle.bind (fun _ => ?_) fun _ _ _ _ => trivial
  refine executeOnce_record.bind (fun res => ?_) fun _ _ _ _ => trivial
  refine Spec.Safe.assuming (φ := res = classify R.completed requestHash) (fun _ _ h => h)
    fun hres => ?_
  subst hres
  exact (observe_record _).pre fun _ _ _ => trivial

/-- What the coordinator answers after `begin`: the hot store's decision
where there is one, else the record's. -/
def answerAfter (R : IdempotencyRecord) (requestHash : Digest) :
    Except Exn BeginResult → ExecutionResult
  | .ok ⟨.replay, completed, decision⟩ => ⟨.replay, completed, ExecutionResult.replayed decision⟩
  | .ok ⟨.conflict, _, _⟩ => .conflict
  | _ => classify R.completed requestHash

theorem afterBegin_record (ownerToken : Uuid) (begun : Except Exn BeginResult) :
    (recordRules B C identity R).spec.Safe i
      (afterBegin retention identity requestHash operation ownerToken begun) (Idle i)
      (Ends (fun res _ => res = answerAfter R requestHash begun) fun _ _ => True) := by
  rcases begun with x | ⟨action, completed, decision⟩
  · cases x with
    | idempotencyStorageUnavailable => exact executeDegraded_record "begin"
    | _ => exact fun _ _ _ => trivial
  · cases action with
    | acquired => exact executeLeased_record ownerToken
    | replay => exact (observe_record _).pre fun _ _ _ => trivial
    | conflict => exact (observe_record _).pre fun _ _ _ => trivial
    | inProgress =>
        refine findExisting_record.bind (fun o => ?_) fun _ _ _ _ => trivial
        refine Spec.Safe.assuming (φ := o = some (classify R.completed requestHash))
          (fun _ _ h => h) fun ho => ?_
        subst ho
        exact (observe_record _).pre fun _ _ _ => trivial

end IdentityService
