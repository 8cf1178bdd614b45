import IdentityService.Idempotency.Rules

/-!
# The proof outline of durable execution

`execute_once` has one shape and many uses: what its callback stages, what
the commit of the record makes true and what a lookup tells are parameters
of `Fence`, and `executeOnce_safe` is the argument common to all of them —
where the loser of a race is detected, and that each way out re-reads the
record after its own transaction is gone.
-/

namespace IdentityService

open Concurrent

variable {B : Business} {C : ResultCodec} {R : Rules B C} {i : Nat}

/-- What `get_completed` may conclude, from a state satisfying `Pre`: `Seen
r` of the row it read, `Got` of the answer it gives once it has looked at
the clock. -/
structure Lookup (R : Rules B C) (i : Nat) (identity : IdempotencyIdentity)
    (Pre : World B C → Prop) (Seen : IdempotencyRecord → World B C → Prop)
    (Got : Option CompletedIdempotencyResult → World B C → Prop) : Prop where
  steady : R.Steady i Pre
  seenSteady : ∀ r, R.Steady i (Seen r)
  gotSteady : ∀ c, R.Steady i (Got c)
  absent : ∀ w, R.spec.inv w → Pre w → w.store.rows (.record identity) = none → Got none w
  present : ∀ w r, R.spec.inv w → Pre w → w.store.rows (.record identity) = some r → Seen r w
  expired : ∀ w r, R.spec.inv w → Pre w → Seen r w → ¬ r.Live w.clock → Got none w
  live : ∀ w r, R.spec.inv w → Pre w → Seen r w → r.Live w.clock → Got (some r.completed) w

namespace Lookup

variable {identity : IdempotencyIdentity} {Pre : World B C → Prop}
  {Seen : IdempotencyRecord → World B C → Prop}
  {Got : Option CompletedIdempotencyResult → World B C → Prop}

theorem getCompleted_safe (h : Lookup R i identity Pre Seen Got) :
    R.spec.Safe i (getCompleted identity) (fun w => Idle i w ∧ Pre w)
      (Ends (fun c w => w.store.staged i = (fun _ => none) ∧ Pre w ∧ Got c w)
        (Faulted i Pre)) := by
  -- the transaction has staged nothing, so it sees the committed row
  let A : Option IdempotencyRecord → World B C → Prop := fun row w =>
    w.store.staged i = (fun _ => none) ∧ Pre w ∧ row.elim (Got none w) fun r => Seen r w
  have hclean : R.spec.Stable i fun w => w.store.staged i = fun _ => none :=
    fun _ _ _ _ _ _ ho hs => ho.keeps.staged.trans hs
  have hA : ∀ row, R.spec.Stable i (A row) := by
    rintro (_ | r)
    · exact hclean.and (h.steady.stable.and (h.gotSteady none).stable)
    · exact hclean.and (h.steady.stable.and (h.seenSteady r).stable)
  have hread : R.spec.Safe i (read (.record identity)) (fun w => Idle i w ∧ Pre w)
      (Ends A (Faulted i Pre)) := by
    refine Rules.read_safe hA h.steady (fun w _ hp => hp.2) fun w hw hc hp => ?_
    have hq : Quiet i w (w.withStore (w.store.note i (.record identity))) := .note _
    have hw' := Rules.inv_private hw hc hq.toPrivate
    have hview : w.store.view i (.record identity) = w.store.rows (.record identity) :=
      Store.view_of_unstaged (by rw [hp.1.staged])
    refine ⟨hp.1.staged, h.steady.quiet _ _ hw hw' hc hq hp.2, ?_⟩
    rw [hview]
    cases hrow : w.store.rows (.record identity) with
    | none => exact (h.gotSteady none).quiet _ _ hw hw' hc hq (h.absent w hw hp.2 hrow)
    | some r => exact (h.seenSteady r).quiet _ _ hw hw' hc hq (h.present w r hw hp.2 hrow)
  refine hread.bind (fun row => ?_) fun _ _ _ h => h
  cases row with
  | none => exact fun w _ ha => ha
  | some r =>
      have hnow : R.spec.Safe i utcNow (A (some r)) (Ends (fun t w =>
          w.store.staged i = (fun _ => none) ∧ Pre w ∧
            Got (if r.expiresAt ≤ t then none else some r.completed) w) fun _ _ => False) := by
        refine Rules.utcNow_safe (fun t => ?_) fun w hw ha => ⟨ha.1, ha.2.1, ?_⟩
        · exact hclean.and (h.steady.stable.and (h.gotSteady _).stable)
        · by_cases hlive : r.Live w.clock
          · rw [if_neg (Nat.not_le.mpr hlive)]
            exact h.live w r hw ha.2.1 ha.2.2 hlive
          · rw [if_pos (Nat.not_lt.mp hlive)]
            exact h.expired w r hw ha.2.1 ha.2.2 hlive
      refine hnow.bind (fun t => ?_) fun _ _ _ h => h.elim
      show R.spec.Safe i (if r.expiresAt ≤ t then _ else _) _ _
      by_cases ht : r.expiresAt ≤ t
      · rw [if_pos ht]
        intro w _ ha
        have hgot := ha.2.2
        rw [if_pos ht] at hgot
        exact ⟨ha.1, ha.2.1, hgot⟩
      · rw [if_neg ht]
        intro w _ ha
        have hgot := ha.2.2
        rw [if_neg ht] at hgot
        exact ⟨ha.1, ha.2.1, hgot⟩

/-- `find_existing` answers from a record it has seen, or the outside
failed it; either way its transaction is gone. -/
theorem findExisting_safe (h : Lookup R i identity Pre Seen Got) (requestHash : Digest) :
    R.spec.Safe i (findExisting identity requestHash) (fun w => Idle i w ∧ Pre w)
      (Ends (fun o w => Idle i w ∧ Pre w ∧ ∃ c, o = c.map (classify · requestHash) ∧ Got c w)
        fun x w => Idle i w ∧ Faulted i Pre x w) := by
  have huow : R.spec.Safe i (uow (getCompleted identity)) (fun w => Idle i w ∧ Pre w)
      (Ends (fun c w => Idle i w ∧ Pre w ∧ Got c w) fun x w => Idle i w ∧ Faulted i Pre x w) := by
    refine Rules.uow_safe h.getCompleted_safe (fun c => h.steady.and (h.gotSteady c)) h.steady
      (fun x => h.steady.faulted x) (fun c w _ hr => hr.2.1) (fun c w hd => hd.1)
      (fun x w hf => hf.2.2) (fun x w hf => hf)
      (fun d w hf => ⟨translateDatabaseError_foreign d, hf.2⟩) fun c w f hw hr hc => ?_
    have hq : Quiet i w ((w.settle i f).withStore (w.store.commit i)) := .commit f hw.1 hr.1
    have ho := Rules.owes_private hw hc hq.toPrivate
    exact ⟨ho, h.steady.quiet _ _ hw ho.inv hc hq hr.2.1,
      (h.gotSteady c).quiet _ _ hw ho.inv hc hq hr.2.2⟩
  refine huow.bind (fun c => ?_) fun _ _ _ h => h
  cases c with
  | none => exact fun w _ hw => ⟨hw.1, hw.2.1, none, rfl, hw.2.2⟩
  | some c => exact fun w _ hw => ⟨hw.1, hw.2.1, some c, rfl, hw.2.2⟩

end Lookup

/-! ## Any callback -/

/-- Nothing is staged for `idempotency_records`. -/
def Unfenced (i : Nat) (w : World B C) : Prop :=
  ∀ identity, w.store.staged i (.record identity) = none

theorem stable_unfenced : R.spec.Stable i (Unfenced i) := by
  intro w w' _ _ _ _ ho h identity
  rw [ho.keeps.staged]
  exact h identity

/-- A private step away from the records. -/
structure Contained (i : Nat) (w w' : World B C) : Prop extends Private i w w' where
  records : ∀ identity,
    w'.store.staged i (.record identity) = w.store.staged i (.record identity)
  locks : ∀ identity, w'.store.holder (.record identity) = w.store.holder (.record identity)

theorem Contained.stage {w : World B C} (k : B.Key) (row : Key.Row (.biz k))
    (hf : w.store.free i (.biz k) = true) :
    Contained i w (w.withStore (w.store.stage i (.biz k) row)) := by
  refine ⟨.stage (.biz k) row hf, fun identity => ?_, fun identity => ?_⟩
  · rw [withStore_store, Store.stage_staged_self, Function.update_of_ne (by simp)]
  · have hne : (Key.record identity : Key B) ≠ .biz k := by simp
    exact Store.acquire_holder_ne (i := i) w.store hne

/-- Whatever a callback asks for, the step stays in its transaction and
away from the records. -/
theorem opEff_contained {e : OpEff B} {c : Choice B} {r : Except Exn e.toEff.Resp}
    {w w' : World B C} (h : exec i e.toEff c w = some (r, w')) :
    Contained i w w' ∧ ∀ x, r = .error x → x.foreign = true := by
  have hquiet : ∀ {w' : World B C}, Quiet i w w' → w'.store.staged = w.store.staged →
      w'.store.holder = w.store.holder → Contained i w w' := by
    intro w' hq hs hh
    exact ⟨hq.toPrivate, fun _ => by rw [hs], fun _ => by rw [hh]⟩
  have hfault : ∀ (f : Fate Fault) (x : Exn), f.map Fault.exn = .fault x →
      Contained i w ((w.settle i f).withStore w.store) ∧ x.foreign = true := by
    intro f x hf
    obtain ⟨x, rfl, rfl⟩ := Fate.map_inv.2.1 _ hf
    exact ⟨hquiet (.hit x) rfl rfl, x.foreign⟩
  cases e with
  | read k =>
      obtain ⟨f, st, hst, rfl⟩ := exec_db h
      rcases StoreOp.exec_read hst with ⟨x, hf, rfl, rfl⟩ | ⟨hf, rfl, rfl⟩
      · obtain ⟨hp, hx⟩ := hfault f x hf
        exact ⟨hp, by rintro _ ⟨⟩; exact hx⟩
      · obtain rfl := Fate.map_inv.1 hf
        exact ⟨hquiet (.note _) rfl rfl, by rintro _ ⟨⟩⟩
  | lock k =>
      obtain ⟨f, st, hst, rfl⟩ := exec_db h
      rcases StoreOp.exec_lock hst with ⟨x, hf, rfl, rfl⟩ | ⟨hf, rfl, hv, rfl⟩ |
        ⟨row, hf, rfl, hv, hfree, rfl⟩
      · obtain ⟨hp, hx⟩ := hfault f x hf
        exact ⟨hp, by rintro _ ⟨⟩; exact hx⟩
      · obtain rfl := Fate.map_inv.1 hf
        exact ⟨hquiet .refl rfl rfl, by rintro _ ⟨⟩⟩
      · obtain rfl := Fate.map_inv.1 hf
        refine ⟨⟨.grant _ row hfree, fun _ => rfl, fun identity => ?_⟩, by rintro _ ⟨⟩⟩
        have hne : (Key.record identity : Key B) ≠ .biz k := by simp
        exact Store.acquire_holder_ne (i := i) w.store hne
  | put k row =>
      obtain ⟨f, st, hst, rfl⟩ := exec_db h
      rcases StoreOp.exec_put hst with ⟨x, hf, rfl, rfl⟩ | ⟨hf, rfl, hfree, rfl⟩
      · obtain ⟨hp, hx⟩ := hfault f x hf
        exact ⟨hp, by rintro _ ⟨⟩; exact hx⟩
      · obtain rfl := Fate.map_inv.1 hf
        exact ⟨.stage k row hfree, by rintro _ ⟨⟩⟩
  | insert k row =>
      obtain ⟨f, st, hst, rfl⟩ := exec_db h
      rcases StoreOp.exec_insert hst with ⟨x, hf, rfl, rfl⟩ | ⟨hf, rfl, hv, rfl⟩ |
        ⟨hf, rfl, hv, hfree, rfl⟩
      · obtain ⟨hp, hx⟩ := hfault f x hf
        exact ⟨hp, by rintro _ ⟨⟩; exact hx⟩
      · obtain rfl := Fate.map_inv.1 hf
        exact ⟨hquiet .refl rfl rfl, by rintro _ ⟨⟩⟩
      · obtain rfl := Fate.map_inv.1 hf
        exact ⟨.stage k row hfree, by rintro _ ⟨⟩⟩
  | now =>
      rcases c with (_ | x | x) | b | u | a
      · cases h
        exact ⟨hquiet .refl rfl rfl, by rintro _ ⟨⟩⟩
      all_goals cases h
  | ext e =>
      rcases c with (_ | x | x) | b | u | a
      · cases h
      · cases h
        exact ⟨hquiet .refl rfl rfl, by rintro _ ⟨⟩; exact x.foreign⟩
      · cases h
      · cases h
      · cases h
      · cases h
        exact ⟨hquiet .refl rfl rfl, by rintro _ ⟨⟩⟩

/-- **Any callback, of any length**: it ends with the records untouched,
and raises nothing of the service's own. -/
theorem operation_safe {α : Type} (op : Operation B α)
    (hop : op.RaisesOnly fun x => x.foreign = true) :
    R.spec.Safe i op.run (Unfenced i)
      (Ends (fun _ => Unfenced i) fun x _ => x.foreign = true) := by
  induction op with
  | ret a => exact fun w _ h => h
  | throw x => exact fun w _ _ => hop
  | op e k ih =>
      intro w c r w' hw hu hx hc
      obtain ⟨hp, herr⟩ := opEff_contained hx
      refine ⟨Rules.owes_private hw hc hp.toPrivate, _, stable_unfenced, fun identity => ?_,
        ih _ ?_⟩
      · rw [hp.records]
        exact hu identity
      cases r with
      | ok a => exact hop.1 _
      | error x => exact hop.2 x (herr x rfl)

/-! ## The fenced transaction -/

/-- The assertions of `execute_once` around its callback, and what is owed
for each. `Ran` is the callback's return, `Fenced` the staged record,
`Done` the commit of both; `Lost` is a fence lost to somebody, `Raised x`
any other exception. -/
structure Fence (R : Rules B C) (i : Nat) (retention : Retention)
    (identity : IdempotencyIdentity) (requestHash : Digest) (operation : Operation B StoredResult)
    (Pre : World B C → Prop) where
  E : World B C → Prop
  Ran : StoredResult → World B C → Prop
  Fenced : CompletedIdempotencyResult → World B C → Prop
  Done : CompletedIdempotencyResult → World B C → Prop
  Lost : World B C → Prop
  Raised : Exn → World B C → Prop
  steady : R.Steady i E
  ranStable : ∀ stored, R.spec.Stable i (Ran stored)
  fencedStable : ∀ c, R.spec.Stable i (Fenced c)
  doneSteady : ∀ c, R.Steady i (Done c)
  lostSteady : R.Steady i Lost
  raisedSteady : ∀ x, R.Steady i (Raised x)
  body : R.spec.Safe i operation.run (fun w => Idle i w ∧ Pre w) (Ends Ran Raised)
  raised : ∀ x w, Raised x w → x ≠ .concurrentWinnerCommitted
  faulted : ∀ x w, Faulted i E x w → Raised x w
  translated : ∀ d w, Raised (.database d) w → Raised (translateDatabaseError d) w
  ranE : ∀ stored w, R.spec.inv w → Ran stored w → E w
  fencedE : ∀ c w, R.spec.inv w → Fenced c w → E w
  doneE : ∀ c w, Done c w → E w
  lostE : ∀ w, Lost w → E w
  raisedE : ∀ x w, Raised x w → E w
  lose : ∀ stored w, R.spec.inv w → Ran stored w →
    (w.store.view i (.record identity)).isSome → Lost w
  fence : ∀ stored t w, R.spec.inv w → Ran stored w →
    w.store.view i (.record identity) = none → w.store.free i (.record identity) = true →
    Fenced { stored with requestHash := requestHash }
      (w.withStore (w.store.stage i (.record identity)
        (completedRecord retention { stored with requestHash := requestHash } t)))
  commit : ∀ c w f, R.spec.inv w → Fenced c w →
    R.con w ((w.settle i f).withStore (w.store.commit i)) →
    R.spec.Owes i w ((w.settle i f).withStore (w.store.commit i)) ∧
      Done c ((w.settle i f).withStore (w.store.commit i))

namespace Fence

variable {retention : Retention} {identity : IdempotencyIdentity} {requestHash : Digest}
  {operation : Operation B StoredResult} {Pre : World B C → Prop}

/-- Exceptions of the transaction: the private signal of a lost fence, or
something raised. -/
def Thrown (o : Fence R i retention identity requestHash operation Pre) (x : Exn)
    (w : World B C) : Prop :=
  (x = .concurrentWinnerCommitted ∧ o.Lost w) ∨ o.Raised x w

variable (o : Fence R i retention identity requestHash operation Pre)

theorem thrownSteady (x : Exn) : R.Steady i (o.Thrown x) := by
  have hl := (Rules.Steady.const (x = .concurrentWinnerCommitted)).and o.lostSteady
  have hr := o.raisedSteady x
  refine ⟨fun s s' hs hs' hc hg ho h => ?_, fun s s' hs hs' hc hq h => ?_⟩
  · exact h.imp (hl.stable s s' hs hs' hc hg ho) (hr.stable s s' hs hs' hc hg ho)
  · exact h.imp (hl.quiet s s' hs hs' hc hq) (hr.quiet s s' hs hs' hc hq)

theorem fencedTransaction_safe :
    R.spec.Safe i (fencedTransaction retention identity requestHash operation)
      (fun w => Idle i w ∧ Pre w)
      (Ends (fun c w => Idle i w ∧ o.Done c w) fun x w => Idle i w ∧ o.Thrown x w) := by
  refine Rules.uow_safe (A := o.Fenced) (D := o.Done) (F := o.Thrown) ?_ o.doneSteady o.steady
    o.thrownSteady o.fencedE o.doneE ?_ (fun x w h => .inr (o.faulted x w h)) ?_ o.commit
  · refine o.body.bind (fun stored => ?_) fun x w _ h => .inr h
    have hnow : R.spec.Safe i utcNow (o.Ran stored)
        (Ends (fun _ => o.Ran stored) fun _ _ => False) :=
      Rules.utcNow_safe (fun _ => o.ranStable stored) fun w _ h => h
    have hadd : R.spec.Safe i
        (tryAddCompleted retention identity { stored with requestHash := requestHash })
        (o.Ran stored) (Ends (fun added w => if added then
          o.Fenced { stored with requestHash := requestHash } w else o.Lost w)
          (Faulted i o.E)) := by
      refine hnow.bind (fun t => ?_) fun _ _ _ h => h.elim
      refine Rules.insert_safe (fun added => ?_) o.steady (fun w hw h => o.ranE stored w hw h)
        (fun w hw h hv => o.lose stored w hw h hv)
        fun w hw _ h hv hf => o.fence stored t w hw h hv hf
      cases added with
      | false => exact o.lostSteady.stable
      | true => exact o.fencedStable _
    refine hadd.bind (fun added => ?_) fun x w _ h => .inr (o.faulted x w h)
    cases added with
    | false => exact fun w _ h => .inl ⟨rfl, h⟩
    | true => exact fun w _ h => h
  · rintro x w (⟨-, h⟩ | h)
    · exact o.lostE w h
    · exact o.raisedE x w h
  · rintro d w (⟨h, -⟩ | h)
    · cases h
    · exact .inr (o.translated d w h)

variable {Seen : IdempotencyRecord → World B C → Prop}
  {Got GotL : Option CompletedIdempotencyResult → World B C → Prop}

theorem afterLostRace_safe (hlost : Lookup R i identity o.Lost Seen GotL) :
    R.spec.Safe i (afterLostRace identity requestHash) (fun w => Idle i w ∧ o.Lost w)
      (Ends (fun res w => Idle i w ∧ ∃ c, res = classify c requestHash ∧ GotL (some c) w)
        fun x w => Idle i w ∧ ((x = .runtimeError noWinner ∧ GotL none w) ∨
          (x.foreign = true ∧ w.failed i = true))) := by
  refine (hlost.findExisting_safe requestHash).bind (fun found => ?_)
    fun y w _ h => ⟨h.1, .inr ⟨h.2.1, h.2.2.1⟩⟩
  cases found with
  | none =>
      rintro w - ⟨hidle, -, c, hc, hgot⟩
      cases c with
      | none => exact ⟨hidle, .inl ⟨rfl, hgot⟩⟩
      | some c => cases hc
  | some res =>
      rintro w - ⟨hidle, -, c, hc, hgot⟩
      cases c with
      | none => cases hc
      | some c =>
          cases hc
          exact ⟨hidle, c, rfl, hgot⟩

theorem afterFailure_safe {x : Exn} (hraised : Lookup R i identity (o.Raised x) Seen Got) :
    R.spec.Safe i (afterFailure identity requestHash x) (fun w => Idle i w ∧ o.Raised x w)
      (Ends (fun res w => Idle i w ∧ ∃ c, res = classify c requestHash ∧ Got (some c) w)
        fun y w => Idle i w ∧ ((y.foreign = true ∧ w.failed i = true) ∨ o.Raised y w)) := by
  refine (Rules.outcome_safe (hraised.findExisting_safe requestHash)).bind (fun r => ?_)
    fun _ _ _ h => h.elim
  rcases r with y | found
  · show R.spec.Safe i (if y.isException then _ else _) _ _
    by_cases hy : y.isException
    · rw [if_pos hy]
      exact fun w _ h => ⟨h.1, .inr h.2.2.2⟩
    · rw [if_neg hy]
      exact fun w _ h => ⟨h.1, .inl ⟨h.2.1, h.2.2.1⟩⟩
  · cases found with
    | none => exact fun w _ h => ⟨h.1, .inr h.2.1⟩
    | some res =>
        rintro w - ⟨hidle, -, c, hc, hgot⟩
        cases c with
        | none => cases hc
        | some c =>
            cases hc
            exact ⟨hidle, c, rfl, hgot⟩

/-- **The outline of `execute_once`.** It returns what it committed, or the
answer of a record that a lookup found; `noWinner` is raised only if the
lookup after a lost fence finds nothing. -/
theorem executeOnce_safe {SeenL : IdempotencyRecord → World B C → Prop}
    {SeenR : Exn → IdempotencyRecord → World B C → Prop} {Start : World B C → Prop}
    (hfirst : Lookup R i identity Start Seen Got)
    (hstart : ∀ w, R.spec.inv w → Start w → Got none w → Pre w)
    (hlost : Lookup R i identity o.Lost SeenL GotL)
    (hraised : ∀ x, Lookup R i identity (o.Raised x) (SeenR x) Got) :
    R.spec.Safe i (executeOnce retention identity requestHash operation)
      (fun w => Idle i w ∧ Start w)
      (Ends (fun res w => Idle i w ∧ ((∃ c, res = .executed c ∧ o.Done c w) ∨
          ∃ c, res = classify c requestHash ∧ (Got (some c) w ∨ GotL (some c) w)))
        fun x w => Idle i w ∧ ((x = .runtimeError noWinner ∧ GotL none w) ∨
          (x.foreign = true ∧ w.failed i = true) ∨ o.Raised x w)) := by
  refine (hfirst.findExisting_safe requestHash).bind (fun found => ?_)
    fun x w _ h => ⟨h.1, .inr (.inl ⟨h.2.1, h.2.2.1⟩)⟩
  cases found with
  | some res =>
      rintro w - ⟨hidle, -, c, hc, hgot⟩
      cases c with
      | none => cases hc
      | some c =>
          cases hc
          exact ⟨hidle, .inr ⟨c, rfl, .inl hgot⟩⟩
  | none =>
      refine Spec.Safe.pre (P := fun w => Idle i w ∧ Pre w) ?_ fun w hw h => ?_
      · refine (Rules.outcome_safe o.fencedTransaction_safe).bind (fun r => ?_)
          fun _ _ _ h => h.elim
        rcases r with x | c
        · by_cases hx : x = .concurrentWinnerCommitted
          · subst hx
            refine ((o.afterLostRace_safe hlost).pre fun w _ h => ?_).post ?_
            · exact ⟨h.1, h.2.elim (·.2) fun h => absurd rfl (o.raised _ w h)⟩
            · rintro (y | res) w - h
              · exact ⟨h.1, h.2.imp_right .inl⟩
              · obtain ⟨c, hc, hgot⟩ := h.2
                exact ⟨h.1, .inr ⟨c, hc, .inr hgot⟩⟩
          · rw [afterTransaction_error identity requestHash hx]
            have hpre : ∀ w, R.spec.inv w → Idle i w ∧ o.Thrown x w →
                Idle i w ∧ o.Raised x w :=
              fun w _ h => ⟨h.1, h.2.elim (fun h => absurd h.1 hx) id⟩
            by_cases he : x.isException
            · rw [if_pos he]
              refine ((o.afterFailure_safe (hraised x)).pre hpre).post ?_
              rintro (y | res) w - h
              · exact ⟨h.1, .inr h.2⟩
              · obtain ⟨c, hc, hgot⟩ := h.2
                exact ⟨h.1, .inr ⟨c, hc, .inl hgot⟩⟩
            · rw [if_neg he]
              exact fun w hw h => ⟨h.1, .inr (.inr (hpre w hw h).2)⟩
        · exact fun w _ h => ⟨h.1, .inl ⟨c, rfl, h.2⟩⟩
      · obtain ⟨hidle, hst, c, hc, hgot⟩ := h
        cases c with
        | none => exact ⟨hidle, hstart w hw hst hgot⟩
        | some c => cases hc

end Fence

end IdentityService
