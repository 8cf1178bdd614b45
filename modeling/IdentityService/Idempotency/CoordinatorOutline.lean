import IdentityService.Idempotency.HotPath

/-!
# The proof outline of the coordinator

Around `execute_once` the coordinator only talks to the hot store and to
its observer. None of that touches the database, so an assertion about the
database `Lingers` through it; what has to be argued is that nothing
reaches the hot store that is not fit to be replayed (`HotRules`).
`coordinatorExecute_safe` turns an outline of `execute_once` into one of
the whole call.
-/

namespace IdentityService

open Concurrent

variable {B : Business} {C : ResultCodec} {i : Nat} {w w' : World B C}

/-! ## Which results the scripts leave behind -/

section Scripts

variable {entry : Option (HotHash C.Blob)} {requestHash : Digest} {ownerToken : Uuid}
  {c c' : CompletedIdempotencyResult}

theorem HotHash.completed_inj (h : HotHash.completed C c = .completed C c') : c = c' := by
  have hblob : C.encode c = C.encode c' := by
    simpa [HotHash.completed] using congrArg HotHash.result h
  have hdecode := congrArg C.decode hblob
  rw [C.decode_encode, C.decode_encode] at hdecode
  exact Option.some.inj hdecode

theorem hotBegin_leaves (h : HotShape C entry)
    (hc : (hotBegin C requestHash ownerToken entry).2 = some (.completed C c)) :
    entry = some (.completed C c) := by
  cases h with
  | absent => simp [hotBegin_absent, HotHash.processing, HotHash.completed] at hc
  | processing h' o' =>
      rw [hotBegin_processing] at hc
      exact hc
  | completed c' =>
      rw [hotBegin_completed] at hc
      exact hc

/-- A replay is the result of a completed entry of the same request. -/
theorem hotBegin_replays (h : HotShape C entry) {begun : BeginResult}
    (hb : (hotBegin C requestHash ownerToken entry).1 = .ok begun)
    (hc : begun.completed = some c) :
    entry = some (.completed C c) ∧ c.requestHash = requestHash := by
  cases h with
  | absent =>
      cases hb
      cases hc
  | processing h' o' =>
      rw [hotBegin_processing] at hb
      cases hb
      split at hc <;> cases hc
  | completed c' =>
      rw [hotBegin_completed] at hb
      cases hb
      split at hc
      · rename_i heq
        cases hc
        exact ⟨rfl, heq⟩
      · cases hc

theorem completeScript_leaves (h : HotShape C entry)
    (hc : (HotHash.completeScript ownerToken (C.encode c) c.requestHash entry).2 =
      some (.completed C c')) : entry = some (.completed C c') ∨ c' = c := by
  cases h with
  | absent => cases hc
  | processing h' o' =>
      rw [completeScript_processing] at hc
      split at hc
      · exact .inr (HotHash.completed_inj (Option.some.inj hc)).symm
      · exact .inl hc
  | completed c₁ =>
      rw [completeScript_completed] at hc
      exact .inl hc

theorem abandonScript_leaves (h : HotShape C entry)
    (hc : (HotHash.abandonScript ownerToken entry).2 = some (.completed C c)) :
    entry = some (.completed C c) := by
  cases h with
  | absent => cases hc
  | processing h' o' =>
      rw [abandonScript_processing] at hc
      split at hc
      · cases hc
      · exact hc
  | completed c₁ =>
      rw [abandonScript_completed] at hc
      exact hc

end Scripts

/-- Only a replay carries a result. -/
theorem classify_completed {c c' : CompletedIdempotencyResult} {requestHash : Digest}
    (h : (classify c requestHash).completed = some c') : c' = c ∧ c.requestHash = requestHash := by
  rcases classify_eq c requestHash with ⟨hhash, heq⟩ | ⟨-, heq⟩
  · rw [heq] at h
    cases h
    exact ⟨rfl, hhash⟩
  · rw [heq] at h
    cases h

/-! ## Steps outside the database -/

/-- When a result may be published, by what the database says. -/
abbrev Publishable (B : Business) :=
  IdempotencyIdentity → CompletedIdempotencyResult → Store (Key B) Key.Row → Prop

/-- A step outside the database: what it leaves in the hot store was there
already, or is a lease, or may be published. -/
structure Offstage (Pub : Publishable B) (w w' : World B C) : Prop where
  store : w'.store = w.store
  clock : w'.clock = w.clock
  shapes : HotShapes w'
  published : ∀ identity c, w'.hot identity = some (.completed C c) →
    w.hot identity = some (.completed C c) ∨ Pub identity c w.store

/-- Rules under which the hot store only ever holds results that may be
published. -/
structure HotRules (R : Rules B C) (Pub : Publishable B) : Prop where
  shapes : ∀ w, R.inv w → HotShapes w
  published : ∀ w identity c, R.inv w → w.hot identity = some (.completed C c) →
    Pub identity c w.store
  offstage : ∀ w w', R.inv w → R.con w w' → Offstage Pub w w' → R.inv w' ∧ R.guar w w'

/-- What such a step leaves to its own process. -/
structure Aside (i : Nat) (w w' : World B C) : Prop where
  store : w'.store = w.store
  failed : w.failed i = true → w'.failed i = true
  observed : ∀ outcome ∈ w.observed i, outcome ∈ w'.observed i

/-- An assertion that neither the others nor the process's own steps
outside the database can break. -/
structure Lingers (R : Rules B C) (i : Nat) (A : World B C → Prop) : Prop where
  stable : R.spec.Stable i A
  aside : ∀ w w', Aside i w w' → A w → A w'

section Lingers

variable {R : Rules B C} {A A' : World B C → Prop}

theorem Lingers.and (h : Lingers R i A) (h' : Lingers R i A') :
    Lingers R i fun w => A w ∧ A' w :=
  ⟨h.stable.and h'.stable, fun w w' hs ha => ⟨h.aside w w' hs ha.1, h'.aside w w' hs ha.2⟩⟩

theorem lingers_idle : Lingers R i (Idle i) := by
  refine ⟨Rules.stable_idle, fun w w' hs hidle => ⟨?_, ?_, ?_⟩⟩
  · rw [hs.store]
    exact hidle.staged
  · rw [hs.store]
    exact hidle.holder
  · rw [hs.store]
    exact hidle.seen

theorem lingers_failed : Lingers R i fun w => w.failed i = true :=
  ⟨Rules.stable_failed, fun _ _ hs h => hs.failed h⟩

theorem lingers_observed (outcome : ExecutionOutcome) :
    Lingers R i fun w => outcome ∈ w.observed i := by
  refine ⟨fun w w' _ _ _ _ ho h => ?_, fun w w' hs h => hs.observed outcome h⟩
  rw [ho.observed]
  exact h

end Lingers

theorem Aside.refl : Aside i w w := ⟨rfl, id, fun _ h => h⟩

theorem Aside.withHot (identity : IdempotencyIdentity) (entry : Option (HotHash C.Blob)) :
    Aside i w (w.withHot identity entry) := ⟨rfl, id, fun _ h => h⟩

theorem Aside.interrupt (h : Aside i w w') (x : Exn) : Aside i w (w'.interrupt i x) := by
  refine ⟨by simpa using h.store, fun hf => ?_, by simpa using h.observed⟩
  unfold World.interrupt
  split
  · exact h.failed hf
  · simp [World.hit]

/-- How a call of the hot store may fail: the store is not available, or
the caller was stopped. -/
def Degraded (i : Nat) (x : Exn) (w : World B C) : Prop :=
  x = .idempotencyStorageUnavailable ∨ w.failed i = true

theorem degraded_interrupt (x : Exn) : Degraded i x (w.interrupt i x) := by
  by_cases hx : x = .idempotencyStorageUnavailable
  · exact .inl hx
  · exact .inr (by simp [World.interrupt, hx, World.hit])

namespace HotRules

variable {R : Rules B C} {Pub : Publishable B} {identity : IdempotencyIdentity}
  {requestHash : Digest} {X : World B C → Prop}

theorem stable_degraded (x : Exn) : R.spec.Stable i (Degraded i x) :=
  fun w w' hw hw' hc hg hr h => h.imp_right (Rules.stable_failed w w' hw hw' hc hg hr)

/-- A step that leaves the hot store as it is. -/
theorem offstage_same (hot : HotRules R Pub) (hw : R.inv w) (hs : w'.store = w.store)
    (hc : w'.clock = w.clock) (hh : w'.hot = w.hot) : Offstage Pub w w' := by
  refine ⟨hs, hc, ?_, fun id c h => ?_⟩
  · unfold HotShapes
    rw [hh]
    exact hot.shapes w hw
  · rw [hh] at h
    exact .inl h

/-- A step that sets one entry. -/
theorem offstage_withHot (hot : HotRules R Pub) (hw : R.inv w)
    {entry : Option (HotHash C.Blob)} (he : HotShape C entry)
    (hpub : ∀ c, entry = some (.completed C c) →
      w.hot identity = some (.completed C c) ∨ Pub identity c w.store) :
    Offstage Pub w (w.withHot identity entry) := by
  refine ⟨rfl, rfl, (hot.shapes w hw).withHot he, fun id c h => ?_⟩
  by_cases hid : id = identity
  · subst hid
    simp only [World.withHot, Function.update_self] at h
    exact hpub c h
  · simp only [World.withHot, Function.update_of_ne hid] at h
    exact .inl h

theorem offstage_interrupt (h : Offstage Pub w w') (x : Exn) :
    Offstage Pub w (w'.interrupt i x) := by
  refine ⟨by simpa using h.store, by simpa using h.clock, ?_, by simpa using h.published⟩
  unfold HotShapes
  rw [interrupt_hot]
  exact h.shapes

/-- One await outside the database. -/
theorem aside_safe (hot : HotRules R Pub) (hX : Lingers R i X) {e : Eff B}
    {A : Except Exn e.Resp → World B C → Prop} (hA : ∀ r, R.spec.Stable i (A r))
    (hstep : ∀ w c r w', R.spec.inv w → X w → exec i e c w = some (r, w') →
      Offstage Pub w w' ∧ Aside i w w' ∧ A r w') :
    R.spec.Safe i (ask e) X fun r w => X w ∧ A r w := by
  refine Rules.ask_safe fun w c r w' hw hp hx hc => ?_
  obtain ⟨hoff, haside, hAr⟩ := hstep w c r w' hw hp hx
  obtain ⟨hlocked, hothers⟩ := exec_others hw.1 hx
  obtain ⟨hinv, hguar⟩ := hot.offstage w w' hw.2 hc hoff
  exact ⟨⟨⟨hlocked, hinv⟩, hguar, hothers⟩, _, hX.stable.and (hA r),
    ⟨hX.aside w w' haside hp, hAr⟩, fun _ _ h => h⟩

/-- A script call. -/
theorem hotCall_step (hot : HotRules R Pub) (hw : R.inv w) {α : Type} {f : Fate Fault}
    {out : Except Exn α × Option (HotHash C.Blob)} {r : Except Exn α}
    (hx : hotCall i w identity f out = some (r, w')) (he : HotShape C out.2)
    (hpub : ∀ c, out.2 = some (.completed C c) →
      w.hot identity = some (.completed C c) ∨ Pub identity c w.store) :
    Offstage Pub w w' ∧ Aside i w w' ∧ (r = out.1 ∨ ∃ x, r = .error x ∧ Degraded i x w') := by
  have hput : Offstage Pub w (w.withHot identity out.2) := hot.offstage_withHot hw he hpub
  have hsame : Offstage Pub w w := hot.offstage_same hw rfl rfl rfl
  rcases hotCall_cases hx with ⟨-, rfl, rfl⟩ | ⟨x, rfl, rfl | rfl⟩
  · exact ⟨hput, .withHot _ _, .inl rfl⟩
  · exact ⟨offstage_interrupt hsame _, Aside.refl.interrupt _, .inr ⟨_, rfl, degraded_interrupt _⟩⟩
  · exact ⟨offstage_interrupt hput _, (Aside.withHot _ _).interrupt _,
      .inr ⟨_, rfl, degraded_interrupt _⟩⟩

/-! ## The coordinator's own awaits -/

/-- A replay from the hot store carries a published result of the same
request. -/
def Begun (Pub : Publishable B) (identity : IdempotencyIdentity) (requestHash : Digest)
    (begun : BeginResult) (w : World B C) : Prop :=
  ∀ c, begun.completed = some c → Pub identity c w.store ∧ c.requestHash = requestHash

theorem hotBegin_safe (hot : HotRules R Pub) (hX : Lingers R i X)
    (hPub : ∀ c, R.spec.Stable i fun w => Pub identity c w.store) (ownerToken : Uuid) :
    R.spec.Safe i (ask (.hotBegin identity requestHash ownerToken)) X
      fun r w => X w ∧ Ends (Begun Pub identity requestHash) (Degraded i) r w := by
  refine hot.aside_safe hX ?_ ?_
  · rintro (x | begun)
    · exact stable_degraded x
    · exact fun w w' hw hw' hc hg hr h c hb =>
        ⟨hPub c w w' hw hw' hc hg hr (h c hb).1, (h c hb).2⟩
  · intro w c r w' hw hp hx
    rcases c with f | b | u | a
    · have hshape := hot.shapes w hw.2 identity
      obtain ⟨hoff, haside, hr⟩ := hot.hotCall_step hw.2 hx (hshape.begin requestHash ownerToken)
        fun c hc => .inl (hotBegin_leaves hshape hc)
      refine ⟨hoff, haside, ?_⟩
      rcases hr with rfl | ⟨x, rfl, hd⟩
      · cases hb : (hotBegin C requestHash ownerToken (w.hot identity)).1 with
        | ok begun =>
            intro c hc
            obtain ⟨hentry, hhash⟩ := hotBegin_replays hshape hb hc
            rw [haside.store]
            exact ⟨hot.published w identity c hw.2 hentry, hhash⟩
        | error x =>
            -- the script itself only reports an unusable entry
            refine .inl ?_
            revert hb
            simp only [hotBegin, readBegin]
            repeat' split
            all_goals intro hb
            all_goals cases hb
            all_goals rfl
      · exact hd
    all_goals cases hx

theorem hotComplete_safe (hot : HotRules R Pub) (hX : Lingers R i X) (ownerToken : Uuid)
    (c : CompletedIdempotencyResult) (hpub : ∀ w, X w → Pub identity c w.store) :
    R.spec.Safe i (ask (.hotComplete identity ownerToken c)) X
      fun r w => X w ∧ Ends (fun _ _ => True) (Degraded i) r w := by
  refine hot.aside_safe hX ?_ ?_
  · rintro (x | done)
    · exact stable_degraded x
    · exact Spec.Stable.const True
  · intro w c' r w' hw hp hx
    rcases c' with f | b | u | a
    · have hshape := hot.shapes w hw.2 identity
      obtain ⟨hoff, haside, hr⟩ := hot.hotCall_step hw.2 hx (hshape.complete ownerToken c)
        fun c₁ hc => (completeScript_leaves hshape hc).imp_right (by rintro rfl; exact hpub w hp)
      refine ⟨hoff, haside, ?_⟩
      rcases hr with rfl | ⟨x, rfl, hd⟩
      · trivial
      · exact hd
    all_goals cases hx

theorem hotAbandon_safe (hot : HotRules R Pub) (hX : Lingers R i X) (ownerToken : Uuid) :
    R.spec.Safe i (ask (.hotAbandon identity ownerToken)) X
      fun r w => X w ∧ Ends (fun _ _ => True) (Degraded i) r w := by
  refine hot.aside_safe hX ?_ ?_
  · rintro (x | done)
    · exact stable_degraded x
    · exact Spec.Stable.const True
  · intro w c' r w' hw hp hx
    rcases c' with f | b | u | a
    · have hshape := hot.shapes w hw.2 identity
      obtain ⟨hoff, haside, hr⟩ := hot.hotCall_step hw.2 hx (hshape.abandon ownerToken)
        fun c hc => .inl (abandonScript_leaves hshape hc)
      refine ⟨hoff, haside, ?_⟩
      rcases hr with rfl | ⟨x, rfl, hd⟩
      · trivial
      · exact hd
    all_goals cases hx

theorem heartbeat_safe (hot : HotRules R Pub) (hX : Lingers R i X) (ownerToken : Uuid) :
    R.spec.Safe i (ask (.heartbeat identity ownerToken)) X
      fun r w => X w ∧ Ends (fun _ _ => True) (fun _ _ => False) r w := by
  refine hot.aside_safe hX ?_ ?_
  · rintro (x | lost)
    · exact Spec.Stable.const False
    · exact Spec.Stable.const True
  · intro w c r w' hw hp hx
    rcases c with (_ | x | x) | b | u | a
    case flag =>
      cases hx
      exact ⟨hot.offstage_same hw.2 rfl rfl rfl, .refl, trivial⟩
    all_goals cases hx

theorem ownerToken_safe (hot : HotRules R Pub) (hX : Lingers R i X) :
    R.spec.Safe i (ask (.ownerToken : Eff B)) X
      fun r w => X w ∧ Ends (fun _ _ => True) (fun _ _ => False) r w := by
  refine hot.aside_safe hX ?_ ?_
  · rintro (x | lost)
    · exact Spec.Stable.const False
    · exact Spec.Stable.const True
  · intro w c r w' hw hp hx
    rcases c with (_ | x | x) | b | u | a
    case token =>
      cases hx
      exact ⟨hot.offstage_same hw.2 rfl rfl rfl, .refl, trivial⟩
    all_goals cases hx

theorem observeHotDegraded_safe (hot : HotRules R Pub) (hX : Lingers R i X) (stage : String) :
    R.spec.Safe i (ask (.observeHotDegraded stage)) X
      fun r w => X w ∧ Ends (fun _ _ => True) (fun _ _ => False) r w := by
  refine hot.aside_safe hX ?_ ?_
  · rintro (x | lost)
    · exact Spec.Stable.const False
    · exact Spec.Stable.const True
  · intro w c r w' hw hp hx
    rcases c with (_ | x | x) | b | u | a
    · cases hx
      exact ⟨hot.offstage_same hw.2 rfl rfl rfl, .refl, trivial⟩
    all_goals cases hx

/-- The observer hears the outcome that is handed on. -/
theorem observe_safe (hot : HotRules R Pub) (hX : Lingers R i X) (res : ExecutionResult) :
    R.spec.Safe i (observe res) X
      (Ends (fun res' w => res' = res ∧ X w ∧ res.outcome ∈ w.observed i) fun _ _ => False) := by
  have htell : R.spec.Safe i (ask (.observeOutcome res.outcome)) X
      fun r w => X w ∧ Ends (fun _ w => res.outcome ∈ w.observed i) (fun _ _ => False) r w := by
    refine hot.aside_safe hX ?_ ?_
    · rintro (x | told)
      · exact Spec.Stable.const False
      · exact (lingers_observed res.outcome).stable
    · intro w c r w' hw hp hx
      rcases c with (_ | x | x) | b | u | a
      · cases hx
        refine ⟨hot.offstage_same hw.2 rfl rfl rfl, ⟨rfl, id, ?_⟩, by simp [Ends]⟩
        intro outcome hm
        simp only [Function.update_self]
        exact List.mem_append_left _ hm
      all_goals cases hx
  exact htell.bind (fun _ w _ h => ⟨rfl, h.1, h.2⟩) fun _ _ _ h => h.2.elim

theorem tolerate_safe (hot : HotRules R Pub) (hX : Lingers R i X) (stage : String)
    {call : App B Bool} (hcall : R.spec.Safe i call X
      fun r w => X w ∧ Ends (fun _ _ => True) (Degraded i) r w) :
    R.spec.Safe i (tolerate stage call) X
      (Ends (fun _ => X) fun _ w => X w ∧ w.failed i = true) := by
  refine hcall.attempt fun r => ?_
  rcases r with x | done
  · by_cases hx : x = .idempotencyStorageUnavailable
    · subst hx
      refine ((hot.observeHotDegraded_safe hX stage).pre fun w _ h => h.1).post ?_
      rintro (y | _) w - h
      · exact h.2.elim
      · exact h.1
    · have hthrow : R.spec.Safe i (Prog.throw x : App B Unit)
          (fun w => X w ∧ Ends (fun _ _ => True) (Degraded i) (.error x : Except Exn Bool) w)
          (Ends (fun _ => X) fun _ w => X w ∧ w.failed i = true) :=
        fun w _ h => ⟨h.1, h.2.elim (fun h => absurd h hx) id⟩
      cases x
      case idempotencyStorageUnavailable => exact absurd rfl hx
      all_goals exact hthrow
  · exact fun w _ h => h.1

/-! ## The whole call -/

variable {A : ExecutionResult → World B C → Prop} {F : Exn → World B C → Prop}

/-- An answer, once the observer has been told. -/
def Answers (i : Nat) (A : ExecutionResult → World B C → Prop) (res : ExecutionResult)
    (w : World B C) : Prop :=
  Idle i w ∧ A res w ∧ res.outcome ∈ w.observed i

theorem observe_answers (hot : HotRules R Pub) (hA : ∀ res, Lingers R i (A res))
    (res : ExecutionResult) (G : Exn → World B C → Prop) :
    R.spec.Safe i (observe res) (fun w => Idle i w ∧ A res w) (Ends (Answers i A) G) := by
  refine (hot.observe_safe (lingers_idle.and (hA res)) res).post ?_
  rintro (y | res') w - h
  · exact h.elim
  · obtain ⟨rfl, hx, hm⟩ := h
    exact ⟨hx.1, hx.2, hm⟩

/-- Publishing a result and handing it on. -/
theorem publish_safe (hot : HotRules R Pub) (hA : ∀ res, Lingers R i (A res))
    (hpub : ∀ res c w, A res w → res.completed = some c → Pub identity c w.store)
    (ownerToken : Uuid) (res : ExecutionResult) :
    R.spec.Safe i (publish identity ownerToken res) (fun w => Idle i w ∧ A res w)
      (Ends (Answers i A) fun _ w => Idle i w ∧ w.failed i = true) := by
  have hX : Lingers R i fun w => Idle i w ∧ A res w := lingers_idle.and (hA res)
  have hobserve := hot.observe_answers hA res fun _ w => Idle i w ∧ w.failed i = true
  refine (hot.heartbeat_safe hX ownerToken).bind (fun lost => ?_) fun _ _ _ h => h.2.elim
  refine Spec.Safe.pre (P := fun w => Idle i w ∧ A res w) ?_ fun w _ h => h.1
  cases lost with
  | true =>
      refine ((hot.observeHotDegraded_safe hX "lease").bind (fun _ => ?_)
        fun _ _ _ h => h.2.elim)
      exact hobserve.pre fun w _ h => h.1
  | false =>
      simp only [Bool.false_eq_true, if_false]
      split
      · rename_i c hc
        refine (hot.tolerate_safe hX "complete" (hot.hotComplete_safe hX ownerToken c ?_)).bind
          (fun _ => hobserve) fun _ _ _ h => ⟨h.1.1, h.2⟩
        exact fun w h => hpub res c w h.2 hc
      · exact (hot.tolerate_safe hX "abandon" (hot.hotAbandon_safe hX ownerToken)).bind
          (fun _ => hobserve) fun _ _ _ h => ⟨h.1.1, h.2⟩

/-- Giving the lease back and raising on. -/
theorem releaseAndRaise_safe (hot : HotRules R Pub) (hF : ∀ x, Lingers R i (F x))
    (hfail : ∀ x w, w.failed i = true → F x w) (ownerToken : Uuid) (x : Exn) :
    R.spec.Safe i (releaseAndRaise identity ownerToken x) (fun w => Idle i w ∧ F x w)
      (Ends (fun _ _ => False) fun y w => Idle i w ∧ F y w) := by
  have hX : Lingers R i fun w => Idle i w ∧ F x w := lingers_idle.and (hF x)
  refine (hot.heartbeat_safe hX ownerToken).bind (fun lost => ?_) fun _ _ _ h => h.2.elim
  refine Spec.Safe.pre (P := fun w => Idle i w ∧ F x w) ?_ fun w _ h => h.1
  cases lost with
  | true => exact fun w _ h => h
  | false =>
      refine (hot.tolerate_safe hX "abandon" (hot.hotAbandon_safe hX ownerToken)).bind
        (fun _ => ?_) fun y w _ h => ⟨h.1.1, hfail y w h.2⟩
      exact fun w _ h => h

/-- What `coordinatorExecute_safe` asks of an outline of the durable
service: `A` of what it answers, `F` of what it raises, from `Pre`. -/
structure Durably (R : Rules B C) (Pub : Publishable B) (i : Nat) (retention : Retention)
    (identity : IdempotencyIdentity) (requestHash : Digest) (operation : Operation B StoredResult)
    (Pre : World B C → Prop) (A : ExecutionResult → World B C → Prop)
    (F : Exn → World B C → Prop) : Prop where
  lingers : Lingers R i Pre
  answers : ∀ res, Lingers R i (A res)
  raises : ∀ x, Lingers R i (F x)
  publishable : ∀ c, R.spec.Stable i fun w => Pub identity c w.store
  executes : R.spec.Safe i (executeOnce retention identity requestHash operation)
    (fun w => Idle i w ∧ Pre w)
    (Ends (fun res w => Idle i w ∧ A res w) fun x w => Idle i w ∧ F x w)
  finds : R.spec.Safe i (findExisting identity requestHash) (fun w => Idle i w ∧ Pre w)
    (Ends (fun o w => Idle i w ∧ A (o.getD .inProgress) w) fun x w => Idle i w ∧ F x w)
  replays : ∀ c w, Pre w → Pub identity c w.store → c.requestHash = requestHash → A (.replay c) w
  conflicts : ∀ w, Pre w → A .conflict w
  publishes : ∀ res c w, A res w → res.completed = some c → Pub identity c w.store
  failed : ∀ x w, w.failed i = true → F x w
  refuses : ∀ message w, Pre w → F (.valueError message) w

variable {retention : Retention} {operation : Operation B StoredResult} {Pre : World B C → Prop}

theorem executeDegraded_safe (hot : HotRules R Pub)
    (h : Durably R Pub i retention identity requestHash operation Pre A F) (stage : String) :
    R.spec.Safe i (executeDegraded stage retention identity requestHash operation)
      (fun w => Idle i w ∧ Pre w)
      (Ends (Answers i A) fun x w => Idle i w ∧ F x w) := by
  have hX : Lingers R i fun w => Idle i w ∧ Pre w := lingers_idle.and h.lingers
  refine (hot.observeHotDegraded_safe hX stage).bind (fun _ => ?_) fun _ _ _ h => h.2.elim
  refine (h.executes.pre fun w _ h => h.1).bind (fun res => ?_) fun _ _ _ h => h
  exact hot.observe_answers h.answers res _

theorem executeLeased_safe (hot : HotRules R Pub)
    (h : Durably R Pub i retention identity requestHash operation Pre A F) (ownerToken : Uuid) :
    R.spec.Safe i (executeLeased retention identity requestHash operation ownerToken)
      (fun w => Idle i w ∧ Pre w)
      (Ends (Answers i A) fun x w => Idle i w ∧ F x w) := by
  refine h.executes.attempt fun r => ?_
  rcases r with x | res
  · refine (hot.releaseAndRaise_safe h.raises h.failed ownerToken x).post ?_
    rintro (y | res) w - h
    · exact h
    · exact h.elim
  · refine (hot.publish_safe h.answers h.publishes ownerToken res).post ?_
    rintro (y | res) w - hend
    · exact ⟨hend.1, h.failed y w hend.2⟩
    · exact hend

theorem afterBegin_safe (hot : HotRules R Pub)
    (h : Durably R Pub i retention identity requestHash operation Pre A F) (ownerToken : Uuid)
    (begun : Except Exn BeginResult) :
    R.spec.Safe i (afterBegin retention identity requestHash operation ownerToken begun)
      (fun w => (Idle i w ∧ Pre w) ∧
        Ends (Begun Pub identity requestHash) (Degraded i) begun w)
      (Ends (Answers i A) fun x w => Idle i w ∧ F x w) := by
  have hobserve := fun res => hot.observe_answers h.answers res fun x w => Idle i w ∧ F x w
  rcases begun with x | ⟨action, completed, decision⟩
  · by_cases hx : x = .idempotencyStorageUnavailable
    · subst hx
      exact (hot.executeDegraded_safe h "begin").pre fun w _ h => h.1
    · have hthrow : R.spec.Safe i (Prog.throw x : App B ExecutionResult)
          (fun w => (Idle i w ∧ Pre w) ∧
            Ends (Begun Pub identity requestHash) (Degraded i) (.error x) w)
          (Ends (Answers i A) fun x w => Idle i w ∧ F x w) :=
        fun w _ hp => ⟨hp.1.1, h.failed x w (hp.2.elim (fun he => absurd he hx) id)⟩
      cases x
      case idempotencyStorageUnavailable => exact absurd rfl hx
      all_goals exact hthrow
  · cases action with
    | acquired => exact (hot.executeLeased_safe h ownerToken).pre fun w _ h => h.1
    | replay =>
        refine (hobserve _).pre fun w _ hp => ⟨hp.1.1, ?_⟩
        obtain ⟨c, rfl⟩ := Option.isSome_iff_exists.mp (decision.mpr rfl)
        obtain ⟨hpub, hhash⟩ := hp.2 c rfl
        exact h.replays c w hp.1.2 hpub hhash
    | conflict => exact (hobserve .conflict).pre fun w _ hp => ⟨hp.1.1, h.conflicts w hp.1.2⟩
    | inProgress =>
        refine (h.finds.pre fun w _ hp => hp.1).bind (fun o => ?_) fun _ _ _ h => h
        cases o with
        | none => exact hobserve .inProgress
        | some res => exact hobserve res

/-- **The outline of the coordinator**: whatever the hot store does, the
answer is one the durable service could have given, and the observer has
been told. -/
theorem coordinatorExecute_safe (hot : HotRules R Pub)
    (h : Durably R Pub i retention identity requestHash operation Pre A F) (hotStore : Bool)
    (leaseSeconds : Int) :
    R.spec.Safe i
      (coordinatorExecute hotStore retention identity requestHash operation leaseSeconds)
      (fun w => Idle i w ∧ Pre w)
      (Ends (Answers i A) fun x w => Idle i w ∧ F x w) := by
  have hX : Lingers R i fun w => Idle i w ∧ Pre w := lingers_idle.and h.lingers
  simp only [coordinatorExecute]
  split
  · exact fun w _ hp => ⟨hp.1, h.refuses _ w hp.2⟩
  · cases hotStore with
    | false => exact hot.executeDegraded_safe h "disabled"
    | true =>
        refine (hot.ownerToken_safe hX).bind (fun ownerToken => ?_) fun _ _ _ h => h.2.elim
        refine ((hot.hotBegin_safe hX h.publishable ownerToken).pre fun w _ h => h.1).attempt ?_
        exact fun begun => hot.afterBegin_safe h ownerToken begun

end HotRules

end IdentityService
