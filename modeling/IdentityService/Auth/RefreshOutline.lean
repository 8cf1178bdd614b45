import IdentityService.Auth.Outline

/-!
# The proof outline of a refresh

`RefreshHandler.execute` is the coordinator around one transaction, which
either rotates the presented token or revokes its session. Three things are
followed from the lock on the token to the end of the call: which plan the
transaction carries out, which record comes with it, and, if the presented
token had been used before, that its session is revoked in the end.

The last of these hangs on the record. A revocation that is only staged is
lost with the fence, and the call is then answered from the record that won
it, which must be there (`Unexpired`).
-/

namespace IdentityService

open Concurrent

variable {C : ResultCodec} {cfg : AuthConfig} {callees : Nat → Option AuthCallee} {i : Nat}
  {w w' : World auth C} {con : World auth C → World auth C → Prop} {φ ψ : Prop}
  {identity : IdempotencyIdentity}

/-! ## Reuse -/

/-- The callback of call `i` has locked a token that was used. -/
def Reuses (i : Nat) (w : World auth C) : Prop :=
  ∃ id t, (⟨.biz (.token id), t⟩ : Sigma (Key.Row (B := auth))) ∈ w.store.granted i ∧
    t.usedAt.isSome

/-- The session of every used token that call `i` has locked is revoked. -/
def Cleared (i : Nat) (w : World auth C) : Prop :=
  ∀ id t, (⟨.biz (.token id), t⟩ : Sigma (Key.Row (B := auth))) ∈ w.store.granted i →
    t.usedAt.isSome →
    ∃ s, (AuthTables.of w.store.rows).sessions t.sessionId = some s ∧ s.revokedAt.isSome

/-- Once call `i` has locked a used token, the record of its identity is
neither expired nor deleted. -/
def Unexpired (i : Nat) (identity : IdempotencyIdentity) (w w' : World auth C) : Prop :=
  Reuses i w' →
    (∀ r, w'.store.rows (.record identity) = some r → r.Live w'.clock) ∧
      ∀ r, w.store.rows (.record identity) = some r → w'.store.rows (.record identity) = some r

theorem Reuses.congr (h : Reuses i w) (hg : w'.store.granted i = w.store.granted i) :
    Reuses i w' := by
  obtain ⟨id, t, hm, hused⟩ := h
  exact ⟨id, t, by rw [hg]; exact hm, hused⟩

theorem Cleared.of_not_reuses (h : ¬ Reuses i w) : Cleared i w :=
  fun id t hm hused => absurd ⟨id, t, hm, hused⟩ h

theorem Cleared.later (h : Cleared i w) (hg : w'.store.granted i = w.store.granted i)
    (hc : Continues (.of w.store.rows) (.of w'.store.rows)) : Cleared i w' := by
  intro id t hm hused
  rw [hg] at hm
  obtain ⟨s, hs, hrev⟩ := h id t hm hused
  obtain ⟨r, hr⟩ := Option.isSome_iff_exists.mp hrev
  obtain ⟨s', hs', -, hkeep⟩ := hc.session _ s hs
  exact ⟨s', hs', by rw [hkeep r hr]; rfl⟩

theorem steady_cleared : (authRules cfg callees con φ).Steady i (Cleared i) := by
  refine ⟨fun w w' _ _ _ hg ho h => h.later ho.keeps.granted hg.continues, ?_⟩
  intro w w' _ _ _ hq h
  refine h.later hq.granted ?_
  rw [hq.rows]
  exact .refl _

/-- The record, if there is one, is live. -/
def Kept (ψ : Prop) (i : Nat) (identity : IdempotencyIdentity) (w : World auth C) : Prop :=
  ψ → Reuses i w → ∀ r, w.store.rows (.record identity) = some r → r.Live w.clock

section Kept

variable (hψ : ψ → ∀ w w', con w w' → Unexpired i identity w w')

include hψ

theorem lasting_kept : Lasting (authRules cfg callees con φ) i (Kept ψ i identity) :=
  ⟨fun w w' _ _ hc _ _ _ hp hr => (hψ hp w w' hc hr).1,
    fun w w' hc _ _ hp hr => (hψ hp w w' hc hr).1⟩

theorem steady_kept : (authRules cfg callees con φ).Steady i (Kept ψ i identity) :=
  ⟨(lasting_kept hψ).stable, fun w w' _ _ hc _ _ hp hr => (hψ hp w w' hc hr).1⟩

/-- What was stored under the identity is still stored. -/
theorem steady_stored (r : IdempotencyRecord) : (authRules cfg callees con φ).Steady i fun w =>
    ψ → Reuses i w → w.store.rows (.record identity) = some r := by
  refine ⟨fun w w' _ _ hc _ ho h hp hr => ?_, fun w w' _ _ _ hq h hp hr => ?_⟩
  · exact (hψ hp w w' hc hr).2 r (h hp (hr.congr ho.keeps.granted.symm))
  · rw [hq.rows]
    exact h hp (hr.congr hq.granted.symm)

end Kept

theorem steady_minted (c : CompletedIdempotencyResult) :
    (authRules cfg callees con φ).Steady i fun w => Minted identity c w.store := by
  refine ⟨fun w w' _ _ _ hg _ h => h.mono hg.log, fun w w' _ _ _ hq h => h.mono ?_⟩
  intro e he
  rcases hq.log with hlog | hlog
  · rw [hlog]
    exact he
  · rw [hlog]
    exact List.mem_append_left _ he

/-! ## What the callback leaves behind -/

/-- The plan revokes the session of every used token among the locked
rows. -/
def Revokes (gr : List (Sigma (Key.Row (B := auth)))) (p : Plan) : Prop :=
  ∀ id t, (⟨.biz (.token id), t⟩ : Sigma (Key.Row (B := auth))) ∈ gr → t.usedAt.isSome →
    ∃ s t' now, p = .revoke s t' now ∧ s.id = t.sessionId

/-- No token among the locked rows has been used. -/
def Unspent (gr : List (Sigma (Key.Row (B := auth)))) : Prop :=
  ∀ id t, (⟨.biz (.token id), t⟩ : Sigma (Key.Row (B := auth))) ∈ gr → t.usedAt = none

/-- The plan rotates a token with this hash. -/
def Rotated (d : Digest) (p : Plan) : Prop :=
  ∃ s t r now expires, p = .rotate s t r now expires ∧ t.tokenHash = d

section Granted

variable {s : AuthSessionRow} {t : RefreshToken}

theorem mem_granted {id : Uuid} {t' : RefreshToken}
    (h : (⟨.biz (.token id), t'⟩ : Sigma (Key.Row (B := auth))) ∈
      lockedRows s t ++ savedRows s t) : t' = t := by
  simp only [lockedRows, savedRows, List.mem_append, List.mem_cons, List.not_mem_nil, or_false,
    Sigma.mk.injEq, Key.biz.injEq, AuthKey.token.injEq, reduceCtorEq, false_and] at h
  rcases h with ⟨-, h⟩ | h | ⟨-, h⟩
  · exact eq_of_heq h
  · cases h
  · exact eq_of_heq h

theorem unspent_saved (h : t.usedAt = none) : Unspent (lockedRows s t ++ savedRows s t) := by
  intro id t' hm
  rw [mem_granted hm]
  exact h

theorem unspent_locked (h : t.usedAt = none) : Unspent (lockedRows s t) :=
  fun id t' hm => unspent_saved h id t' (List.mem_append_left _ hm)

theorem Unspent.revokes {gr : List (Sigma (Key.Row (B := auth)))} (h : Unspent gr) (p : Plan) :
    Revokes gr p := by
  intro id t hm hused
  rw [h id t hm] at hused
  cases hused

theorem Unspent.cleared {gr : List (Sigma (Key.Row (B := auth)))} (h : Unspent gr)
    (hgr : w.store.granted i = gr) : Cleared i w := by
  intro id t hm hused
  rw [hgr] at hm
  rw [h id t hm] at hused
  cases hused

theorem revokes_revoke (hb : Belongs s t) (now : Time) :
    Revokes (lockedRows s t ++ savedRows s t) (.revoke s t now) := by
  intro id t' hm _
  rw [mem_granted hm]
  exact ⟨s, t, now, rfl, hb.session.symm⟩

end Granted

/-- Exceptions of the callback. -/
def Raised (i : Nat) (x : Exn) (w : World auth C) : Prop :=
  x.foreign = true ∧ (w.failed i = true ∨ Cleared i w)

theorem Failed.raised {x : Exn} (h : Failed i x w) : Raised i x w := ⟨h.1, .inl h.2.1⟩

theorem Stuck.raised {x : Exn} {gr : List (Sigma (Key.Row (B := auth)))} (hgr : Unspent gr)
    (h : Stuck i gr x w) : Raised i x w :=
  ⟨h.1, h.2.imp_right hgr.cleared⟩

/-- The callback has returned: one plan is staged. -/
def Ran (callees : Nat → Option AuthCallee) (φ ψ : Prop) (i : Nat)
    (identity : IdempotencyIdentity) (d : Digest) (stored : StoredResult) (w : World auth C) :
    Prop :=
  ∃ p gr, (Revokes gr p ∧ (stored.resultType = successResult → Rotated d p)) ∧
    InTx i (Plan.writes p) gr (fun w => Due callees φ i p w ∧ Kept ψ i identity w) w

section Callback

variable {d : Digest} {requestHash : Digest} {F : World auth C → Prop} {s : AuthSessionRow}
  {t : RefreshToken} {now : Time} {user : Option User}

/-- A refusal saves the revocation. -/
theorem settleRejected_safe (hF : Lasting (authRules cfg callees con φ) i F)
    (hkept : ∀ w, F w → Kept ψ i identity w) (hbears : ∀ w, F w → Bears i s t w)
    (hb : Belongs s t) (hnow : s.createdAt ≤ now) :
    (authRules cfg callees con φ).spec.Safe i
      (settleRefresh cfg identity requestHash user now (false, (s.revoked now).bearing t)).run
      (InTx i noWrites (lockedRows s t) F)
      (Ends (Ran callees φ ψ i identity d) (Raised i)) := by
  show (authRules cfg callees con φ).spec.Safe i (Operation.run (Prog.bind _ _)) _ _
  rw [Operation.run_bind]
  refine (saveRevoked_safe hF hbears).bind (fun _ => ?_) fun x w _ h => h.raised
  intro w _ h
  refine ⟨.revoke s t now, _, ⟨revokes_revoke hb now, ?_⟩, h.weaken fun hk => ?_⟩
  · intro hsuccess
    exact absurd hsuccess (by decide)
  · exact ⟨due_revoke (hbears w hk) hnow, hkept w hk⟩

theorem due_rotate {r : RefreshToken} {expires : Time} (hbears : Bears i s t w) (hb : Belongs s t)
    (hr : Rotatable s t r now expires) (hfollows : r.sessionId = s.id)
    (hcreated : r.createdAt = now)
    (hfresh : r.usedAt = none) (hvouched : φ → Vouched callees i s.userId w)
    (ht : Held (B := auth) i (.biz (.token r.id)) none w)
    (hd : Held (B := auth) i (.biz (.tokenHash r.tokenHash)) none w) :
    Due callees φ i (.rotate s t r now expires) w := by
  refine ⟨.rotate hbears.session.1 hbears.token.1 ht.1 hd.1 hb.session hfollows ?_ hr.span
    hr.unrevoked hr.unused hfresh hr.past, ?_, ?_⟩
  · rw [hcreated]
    exact hr.age
  · intro k hk
    simp only [Plan.keys, List.mem_cons, List.not_mem_nil, or_false] at hk
    rcases hk with rfl | rfl | rfl | rfl
    · exact hbears.session.2
    · exact hbears.token.2
    · exact ht.2
    · exact hd.2
  · intro id hid
    obtain rfl := Option.some.inj hid
    exact hvouched

/-- Rotation, once the session accepts the token. -/
theorem rotateSession_safe {account : User} (hF : Lasting (authRules cfg callees con φ) i F)
    (hkept : ∀ w, F w → Kept ψ i identity w) (hbears : ∀ w, F w → Bears i s t w)
    (hvouched : ∀ w, F w → φ → Vouched callees i s.userId w) (hb : Belongs s t)
    (hunused : t.usedAt = none) (hd : t.tokenHash = d) :
    (authRules cfg callees con φ).spec.Safe i
      (rotateSession cfg identity requestHash (s.bearing t) account now).run
      (InTx i noWrites (lockedRows s t) F)
      (Ends (Ran callees φ ψ i identity d) (Raised i)) := by
  have hlocked : Unspent (lockedRows s t) := unspent_locked hunused
  have hsaved : Unspent (lockedRows s t ++ savedRows s t) := unspent_saved hunused
  show (authRules cfg callees con φ).spec.Safe i (Operation.run (Prog.bind _ _)) _ _
  rw [Operation.run_bind]
  refine (issueTokenPair_safe hF account now).bind (fun issued => ?_)
    fun x w _ h => h.raised hlocked
  show (authRules cfg callees con φ).spec.Safe i (Operation.run (Prog.bind _ _)) _ _
  rw [Operation.run_bind]
  refine (draw_safe .uuid7 hF).bind (fun tokenId => ?_) fun x w _ h => h.raised hlocked
  show (authRules cfg callees con φ).spec.Safe i (Operation.run (Prog.bind _ _)) _ _
  cases hrot : (s.bearing t).rotate tokenId now cfg.sessionIdleTtl issued.refreshDigest with
  | error x =>
      have hx := rotate_foreign _ _ _ _ _ x hrot
      exact fun w _ h => ⟨hx, .inr (hlocked.cleared h.granted)⟩
  | ok a =>
      obtain ⟨hr, rfl⟩ := rotate_ok hrot
      show (authRules cfg callees con φ).spec.Safe i
        (Operation.run ((AuthSessionRepository.save _).bind _)) _ _
      rw [Operation.run_bind]
      refine (saveRotated_safe hF hbears).bind (fun _ => ?_) fun x w _ h => h.raised hsaved
      show (authRules cfg callees con φ).spec.Safe i (Operation.run (Prog.bind _ _)) _ _
      rw [Operation.run_bind]
      refine (draw_safe .nonce ((hF.and (lasting_held _ _)).and (lasting_held _ _))).bind
        (fun nonce => ?_) fun x w _ h => h.raised hsaved
      intro w _ h
      refine ⟨_, _, ⟨hsaved.revokes _, fun _ => ⟨_, _, _, _, _, rfl, hd⟩⟩, h.weaken fun hk => ?_⟩
      obtain ⟨⟨hw, ht⟩, hhash⟩ := hk
      exact ⟨due_rotate (hbears w hw) hb hr rfl rfl rfl (hvouched w hw) ht hhash, hkept w hw⟩

/-- The account as a refresh has read it: if it was active, so it is
still. -/
def Trusted (callees : Nat → Option AuthCallee) (φ : Prop) (i : Nat) (id : Uuid)
    (account : Option User) (w : World auth C) : Prop :=
  account.any User.canAuthenticate = true → φ → Vouched callees i id w

theorem lasting_trusted (hφ : φ → ∀ w w', con w w' → Guarded callees w w') (id : Uuid)
    (account : Option User) :
    Lasting (authRules cfg callees con φ) i (Trusted callees φ i id account) := by
  have hv : Lasting (authRules cfg callees con φ) i fun w => φ → Vouched callees i id w :=
    lasting_vouched hφ id
  refine ⟨fun w w' hw hw' hc hg ho h hcan => ?_, fun w w' hc ho h hcan => ?_⟩
  · exact hv.stable w w' hw hw' hc hg ho (h hcan)
  · exact hv.own w w' hc ho (h hcan)

theorem readAccount_safe (hφ : φ → ∀ w w', con w w' → Guarded callees w w')
    (hF : Lasting (authRules cfg callees con φ) i F)
    {gr : List (Sigma (Key.Row (B := auth)))} {hotStore : Bool} {command : RefreshCommand}
    (hi : callees i = some (.refresh hotStore command)) (id : Uuid) :
    (authRules cfg callees con φ).spec.Safe i (UserRepository.get id).run (InTx i noWrites gr F)
      (Ends (fun v => InTx i noWrites gr fun w => F w ∧ Trusted callees φ i id v w)
        (Failed i)) := by
  refine select_safe (k := .user id) hF (lasting_trusted hφ id) rfl fun w _ _ hv _ => ?_
  cases hrow : w.store.rows (.biz (.user id)) with
  | none =>
      rw [hrow] at hv
      cases hv
  | some u =>
      rw [hrow] at hv
      have hactive : u.status = .active := by simpa [User.canAuthenticate] using hv
      refine ⟨⟨u, hrow, hactive⟩, .inr ⟨⟨hotStore, command, hi⟩, ?_⟩⟩
      simp [Store.note]

/-- **The outline of the callback.** -/
theorem refreshOperation_safe (hφ : φ → ∀ w w', con w w' → Guarded callees w w')
    (hψ : ψ → ∀ w w', con w w' → Unexpired i identity w w') {hotStore : Bool}
    {command : RefreshCommand} (hi : callees i = some (.refresh hotStore command))
    (rawToken : String) :
    (authRules cfg callees con φ).spec.Safe i
      (refreshOperation cfg rawToken identity requestHash).run
      (fun w => Idle i w ∧ w.store.granted i = [])
      (Ends (Ran callees φ ψ i identity (cfg.digest rawToken)) (Raised i)) := by
  have hK : Lasting (authRules cfg callees con φ) i (Kept ψ i identity) := lasting_kept hψ
  refine Spec.Safe.pre (P := InTx i noWrites [] (Kept ψ i identity)) ?_ fun w _ h => ?_
  · show (authRules cfg callees con φ).spec.Safe i (Operation.run (Prog.bind _ _)) _ _
    rw [Operation.run_bind]
    refine (getByRefreshHashForUpdate_safe hK).bind (fun o => ?_) fun x w _ h => h.raised
    cases o with
    | none =>
        intro w _ h
        refine ⟨by decide, .inr (.of_not_reuses ?_)⟩
        rintro ⟨id, t, hm, -⟩
        rw [h.granted] at hm
        cases hm
    | some a =>
        refine Spec.Safe.exists fun st => ?_
        obtain ⟨s, t⟩ := st
        refine Spec.Safe.assuming (fun w _ h => h.1) fun hst => ?_
        obtain ⟨rfl, hb, hd⟩ := hst
        refine Spec.Safe.pre (P := InTx i noWrites (lockedRows s t) fun w =>
          Kept ψ i identity w ∧ Bears i s t w) ?_ fun w _ h => h.2
        have hF := hK.and (lasting_bears s t)
        show (authRules cfg callees con φ).spec.Safe i (Operation.run (Prog.bind _ _)) _ _
        rw [Operation.run_bind]
        refine (readAccount_safe hφ hF hi s.userId).bind (fun user => ?_) fun x w _ h => h.raised
        have hread : Lasting (authRules cfg callees con φ) i fun w =>
            (Kept ψ i identity w ∧ Bears i s t w) ∧ Trusted callees φ i s.userId user w :=
          hF.and (lasting_trusted hφ s.userId user)
        show (authRules cfg callees con φ).spec.Safe i (Operation.run (Prog.bind _ _)) _ _
        rw [Operation.run_bind]
        have hage : ∀ now : Time, Lasting (authRules cfg callees con φ) i fun _ =>
            s.createdAt ≤ now := fun now => .const _
        refine (clock_safe hread hage ?_).bind (fun now => ?_) fun x w _ h => h.elim
        · intro w hw hk
          exact hw.2.families.sessionPast s.id s hk.1.2.session.1
        refine Spec.Safe.assuming (φ := s.createdAt ≤ now) (fun w _ h => h.known.2) fun hnow => ?_
        have hlast := hread.and (hage now)
        have hreject : ∀ d, (authRules cfg callees con φ).spec.Safe i
            (settleRefresh cfg identity requestHash user now (false, (s.revoked now).bearing t)).run
            _ (Ends (Ran callees φ ψ i identity d) (Raised i)) := fun d =>
          settleRejected_safe hlast (fun w hw => hw.1.1.1) (fun w hw => hw.1.1.2) hb hnow
        show (authRules cfg callees con φ).spec.Safe i
          (Operation.run (Prog.bind (Prog.ofExcept ((s.bearing t).acceptsRefresh now
            (user.any User.canAuthenticate))) _)) _ _
        rw [hb.acceptsRefresh hnow]
        by_cases hused : t.isUsed = true
        · -- reuse: the family is revoked
          rw [if_pos hused]
          exact hreject _
        rw [if_neg hused]
        have hunused : t.usedAt = none := by simpa [RefreshToken.isUsed] using hused
        by_cases hactive : (!(s.bearing t).isActive now) = true
        · rw [if_pos hactive]
          exact fun w _ h => ⟨by decide, .inr ((unspent_locked hunused).cleared h.granted)⟩
        rw [if_neg hactive]
        by_cases hcan : (!user.any User.canAuthenticate) = true
        · rw [if_pos hcan]
          exact hreject _
        rw [if_neg hcan]
        have hcan : user.any User.canAuthenticate = true := by simpa using hcan
        cases user with
        | none => cases hcan
        | some account =>
            exact rotateSession_safe hlast (fun w hw => hw.1.1.1) (fun w hw => hw.1.1.2)
              (fun w hw => hw.1.2 hcan) hb hunused hd
  · refine ⟨h.1.staged, h.2, fun _ hr => ?_⟩
    obtain ⟨id, t, hm, -⟩ := hr
    rw [h.2] at hm
    cases hm

end Callback

/-! ## The fence -/

/-- The record is staged beside the plan. -/
def Fenced (callees : Nat → Option AuthCallee) (φ ψ : Prop) (i : Nat)
    (identity : IdempotencyIdentity) (d requestHash : Digest) (c : CompletedIdempotencyResult)
    (w : World auth C) : Prop :=
  ∃ p gr, ∃ rec : IdempotencyRecord, (Revokes gr p ∧ (c.resultType = successResult → Rotated d p) ∧
      c.requestHash = requestHash ∧ rec.completed = c) ∧
    InTx i (Function.update (Plan.writes p) (.record identity) (some rec)) gr
      (fun w => Due callees φ i p w ∧ Kept ψ i identity w) w

/-- Both are committed. -/
def Done (i : Nat) (identity : IdempotencyIdentity) (requestHash : Digest)
    (c : CompletedIdempotencyResult) (w : World auth C) : Prop :=
  (Minted identity c w.store ∧ c.requestHash = requestHash) ∧ Cleared i w

/-- Somebody else's record is in the way. -/
def Lost (ψ : Prop) (i : Nat) (identity : IdempotencyIdentity) (w : World auth C) : Prop :=
  Kept ψ i identity w ∧ ∃ r, ψ → Reuses i w → w.store.rows (.record identity) = some r

theorem Revokes.cleared {p : Plan} {wr : AuthRows} (f : Fate Fault)
    (h : Revokes (w.store.granted i) p) (hstaged : w.store.staged i = wr)
    (hwr : ∀ k, wr (.biz k) = p.writes (.biz k)) :
    Cleared i ((w.settle i f).withStore (w.store.commit i)) := by
  intro id t hm hused
  obtain ⟨s, t', now, rfl, hs⟩ := h id t hm hused
  refine ⟨s.revoked now, ?_, rfl⟩
  show (w.store.staged i (.biz (.session t.sessionId))).or _ = _
  rw [hstaged, hwr, ← hs]
  simp [Plan.writes]

section Commit

variable {d requestHash : Digest} {c : CompletedIdempotencyResult} {hotStore : Bool}
  {command : RefreshCommand}

theorem Fenced.commit (f : Fate Fault) (hi : callees i = some (.refresh hotStore command))
    (hd : d = cfg.digest command.refreshToken) (hh : requestHash = command.requestHash cfg)
    (hw : (authRules cfg callees con φ).spec.inv w)
    (h : Fenced callees φ ψ i identity d requestHash c w) :
    (authRules cfg callees con φ).spec.Owes i w
        ((w.settle i f).withStore (w.store.commit i)) ∧
      Done i identity requestHash c ((w.settle i f).withStore (w.store.commit i)) := by
  obtain ⟨p, gr, rec, ⟨hrevokes, hrotated, hhash, hrec⟩, htx⟩ := h
  have hwr : ∀ k, Function.update (Plan.writes p) (.record identity) (some rec) (.biz k) =
      p.writes (.biz k) := by
    intro k
    rw [Function.update_of_ne (by simp)]
  have hrecord : ∀ (other : IdempotencyIdentity) (r : IdempotencyRecord),
      Function.update (Plan.writes p) (.record identity) (some rec) (.record other) = some r →
      other = identity ∧ r = rec := by
    intro other r hr
    by_cases hother : other = identity
    · subst hother
      rw [Function.update_self] at hr
      cases hr
      exact ⟨rfl, rfl⟩
    · rw [Function.update_of_ne (by simpa using hother), Plan.writes_record] at hr
      cases hr
  have hdue := htx.known.1
  refine ⟨owes_plan f hw hdue.enabled htx.staged hwr ?_ hdue.active, ⟨⟨?_, hhash⟩, ?_⟩⟩
  · -- a stored success is the record of this rotation
    intro other r hr hsuccess
    obtain ⟨rfl, rfl⟩ := hrecord other r hr
    rw [hrec] at hsuccess ⊢
    obtain ⟨s, t, r', now, expires, rfl, ht⟩ := hrotated hsuccess
    refine ⟨fun other ho => ?_, t.used now, r', hotStore, command,
      rotates_rotate hdue.enabled hwr, hi, ht.trans hd, hhash.trans hh⟩
    obtain ⟨r₁, hr₁⟩ := Option.isSome_iff_exists.mp ho
    exact (hrecord other r₁ hr₁).1
  · refine ⟨i, Function.update (Plan.writes p) (.record identity) (some rec), rec, ?_, ?_, hrec⟩
    · rw [withStore_store, Store.commit_log, htx.staged]
      exact List.mem_append_right _ (List.mem_singleton_self _)
    · rw [Function.update_self]
  · refine Revokes.cleared f ?_ htx.staged hwr
    rw [htx.granted]
    exact hrevokes

end Commit

/-! ## The whole call -/

theorem steady_raised (x : Exn) : (authRules cfg callees con φ).Steady i (Raised i x) := by
  have hf : (authRules cfg callees con φ).Steady i fun w => w.failed i = true :=
    Rules.steady_failed
  have hc : (authRules cfg callees con φ).Steady i (Cleared i) := steady_cleared
  refine (Rules.Steady.const _).and
    ⟨fun w w' hw hw' hk hg ho h => ?_, fun w w' hw hw' hk hq h => ?_⟩
  · exact h.imp (hf.stable w w' hw hw' hk hg ho) (hc.stable w w' hw hw' hk hg ho)
  · exact h.imp (hf.quiet w w' hw hw' hk hq) (hc.quiet w w' hw hw' hk hq)

/-- What a lookup finds was committed under the identity. -/
def GotMinted (identity : IdempotencyIdentity) (o : Option CompletedIdempotencyResult)
    (w : World auth C) : Prop :=
  ∀ c, o = some c → Minted identity c w.store

theorem steady_gotMinted (o : Option CompletedIdempotencyResult) :
    (authRules cfg callees con φ).Steady i (GotMinted identity o) := by
  refine ⟨fun w w' hw hw' hk hg ho h c hc => ?_, fun w w' hw hw' hk hq h c hc => ?_⟩
  · exact (steady_minted c).stable w w' hw hw' hk hg ho (h c hc)
  · exact (steady_minted c).quiet w w' hw hw' hk hq (h c hc)

/-- Any lookup, from any steady assertion. -/
theorem lookup_minted {Pre : World auth C → Prop}
    (hPre : (authRules cfg callees con φ).Steady i Pre) :
    Lookup (authRules cfg callees con φ) i identity Pre
      (fun r w => Minted identity r.completed w.store) (GotMinted identity) where
  steady := hPre
  seenSteady r := steady_minted r.completed
  gotSteady := steady_gotMinted
  absent w _ _ _ c hc := by cases hc
  present w r hw _ hr := hw.2.recorded identity r hr
  expired w r _ _ _ _ c hc := by cases hc
  live w r _ _ hs _ c hc := by
    cases hc
    exact hs

section Call

variable (hφ : φ → ∀ w w', con w w' → Guarded callees w w')
  (hψ : ψ → ∀ w w', con w w' → Unexpired i identity w w')

include hψ in
theorem steady_lost : (authRules cfg callees con φ).Steady i (Lost ψ i identity) :=
  (steady_kept hψ).and (Rules.Steady.exists fun r => steady_stored hψ r)

include hψ in
/-- The lookup after a lost fence finds the winner, if the fence was lost
with a revocation. -/
theorem lookup_lost :
    Lookup (authRules cfg callees con φ) i identity (Lost ψ i identity)
      (fun r w => Minted identity r.completed w.store ∧
        (ψ → Reuses i w → w.store.rows (.record identity) = some r))
      (fun o w => GotMinted identity o w ∧ (o = none → ψ → ¬ Reuses i w)) where
  steady := steady_lost hψ
  seenSteady r := (steady_minted r.completed).and (steady_stored hψ r)
  gotSteady o := by
    refine (steady_gotMinted o).and ⟨fun w w' _ _ _ _ ho h hn hp hr => ?_,
      fun w w' _ _ _ hq h hn hp hr => ?_⟩
    · exact h hn hp (hr.congr ho.keeps.granted.symm)
    · exact h hn hp (hr.congr hq.granted.symm)
  absent w _ hl hnone := by
    refine ⟨fun c hc => (by cases hc), fun _ hp hr => ?_⟩
    obtain ⟨-, r, hstored⟩ := hl
    rw [hnone] at hstored
    cases hstored hp hr
  present w r hw hl hr := ⟨hw.2.recorded identity r hr, fun _ _ => hr⟩
  expired w r _ hl hs hexpired := by
    refine ⟨fun c hc => (by cases hc), fun _ hp hr => ?_⟩
    exact hexpired (hl.1 hp hr r (hs.2 hp hr))
  live w r _ _ hs _ := by
    refine ⟨fun c hc => ?_, fun hn => by cases hn⟩
    cases hc
    exact hs.1

variable {d requestHash : Digest} {hotStore : Bool} {command : RefreshCommand}
  (retention : Retention)

/-- The assertions of `execute_once` around the refresh callback. -/
def refreshFence (hi : callees i = some (.refresh hotStore command))
    (hh : requestHash = command.requestHash cfg) :
    Fence (authRules cfg callees con φ) i retention identity requestHash
      (refreshOperation cfg command.refreshToken identity requestHash)
      (fun w => w.store.granted i = []) where
  E _ := True
  Ran := Ran callees φ ψ i identity (cfg.digest command.refreshToken)
  Fenced := Fenced callees φ ψ i identity (cfg.digest command.refreshToken) requestHash
  Done := Done i identity requestHash
  Lost := Lost ψ i identity
  Raised := Raised i
  steady := .const True
  ranStable stored := by
    refine Spec.Stable.exists fun p => Spec.Stable.exists fun gr => (Spec.Stable.const _).and ?_
    exact InTx.stable ((lasting_due hφ p).and (lasting_kept hψ))
  fencedStable c := by
    refine Spec.Stable.exists fun p => Spec.Stable.exists fun gr => Spec.Stable.exists fun rec =>
      (Spec.Stable.const _).and ?_
    exact InTx.stable ((lasting_due hφ p).and (lasting_kept hψ))
  doneSteady c := ((steady_minted c).and (.const _)).and steady_cleared
  lostSteady := steady_lost hψ
  raisedSteady := steady_raised
  body := refreshOperation_safe hφ hψ hi command.refreshToken
  raised x w h := by
    rintro rfl
    exact absurd h.1 (by decide)
  faulted x w h := Failed.raised h
  translated e w h := ⟨translateDatabaseError_foreign e, h.2⟩
  ranE _ _ _ _ := trivial
  fencedE _ _ _ _ := trivial
  doneE _ _ _ := trivial
  lostE _ _ := trivial
  raisedE _ _ _ := trivial
  lose stored w hw h hv := by
    obtain ⟨p, gr, -, htx⟩ := h
    refine ⟨htx.known.2, ?_⟩
    have hview : w.store.view i (.record identity) = w.store.rows (.record identity) := by
      refine Store.view_of_unstaged ?_
      rw [htx.staged, Plan.writes_record]
    rw [hview] at hv
    obtain ⟨r, hr⟩ := Option.isSome_iff_exists.mp hv
    exact ⟨r, fun _ _ => hr⟩
  fence stored t w hw h hv hfree := by
    obtain ⟨p, gr, ⟨hrevokes, hrotated⟩, htx⟩ := h
    refine ⟨p, gr, completedRecord retention { stored with requestHash := requestHash } t,
      ⟨hrevokes, hrotated, rfl, rfl⟩, ?_, htx.granted, ?_, ?_⟩
    · rw [withStore_store, Store.stage_staged_self, htx.staged]
    · exact htx.known.1.own (.stage _ _)
    · exact fun hp hr => htx.known.2 hp (hr.congr rfl)
  commit c w f hw h _ := h.commit f hi rfl hh hw

end Call

/-- The call was answered from a committed record. -/
def FromRecord (i : Nat) (identity : IdempotencyIdentity) (requestHash : Digest)
    (w : World auth C) : Prop :=
  ∃ c, Minted identity c w.store ∧ (classify c requestHash).outcome ∈ w.observed i

/-- What the durable service answers. -/
def Concludes (i : Nat) (identity : IdempotencyIdentity) (requestHash : Digest)
    (res : ExecutionResult) (w : World auth C) : Prop :=
  (∀ c, res.completed = some c → Minted identity c w.store ∧ c.requestHash = requestHash) ∧
    (Cleared i w ∨ ∃ c, Minted identity c w.store ∧ res = classify c requestHash)

/-- What it may raise. -/
def Excused (ψ : Prop) (i : Nat) (w : World auth C) : Prop :=
  ψ → w.failed i = true ∨ Cleared i w

section Durable

variable {requestHash : Digest}

/-- An answer from a committed record. -/
theorem concludes_classify {c : CompletedIdempotencyResult} (h : Minted identity c w.store) :
    Concludes i identity requestHash (classify c requestHash) w := by
  refine ⟨fun c' hc => ?_, .inr ⟨c, h, rfl⟩⟩
  obtain ⟨rfl, hhash⟩ := classify_completed hc
  exact ⟨h, hhash⟩

theorem lingers_cleared : Lingers (authRules cfg callees con φ) i (Cleared i) := by
  refine ⟨steady_cleared.stable, fun w w' hs h => h.later (by rw [hs.store]) ?_⟩
  rw [hs.store]
  exact .refl _

theorem lingers_minted (c : CompletedIdempotencyResult) :
    Lingers (authRules cfg callees con φ) i fun w => Minted identity c w.store := by
  refine ⟨(steady_minted c).stable, fun w w' hs h => ?_⟩
  rw [hs.store]
  exact h

theorem lingers_concludes (res : ExecutionResult) :
    Lingers (authRules cfg callees con φ) i (Concludes i identity requestHash res) := by
  have hm : ∀ c, Lingers (authRules cfg callees con φ) i fun w => Minted identity c w.store :=
    lingers_minted
  have hc : Lingers (authRules cfg callees con φ) i (Cleared i) := lingers_cleared
  refine ⟨fun w w' hw hw' hk hg ho h => ⟨fun c hr => ⟨?_, (h.1 c hr).2⟩, ?_⟩,
    fun w w' hs h => ⟨fun c hr => ⟨?_, (h.1 c hr).2⟩, ?_⟩⟩
  · exact (hm c).stable w w' hw hw' hk hg ho (h.1 c hr).1
  · refine h.2.imp (hc.stable w w' hw hw' hk hg ho) fun hans => ?_
    obtain ⟨c, hmint, hres⟩ := hans
    exact ⟨c, (hm c).stable w w' hw hw' hk hg ho hmint, hres⟩
  · exact (hm c).aside w w' hs (h.1 c hr).1
  · refine h.2.imp (hc.aside w w' hs) fun hans => ?_
    obtain ⟨c, hmint, hres⟩ := hans
    exact ⟨c, (hm c).aside w w' hs hmint, hres⟩

theorem lingers_excused : Lingers (authRules cfg callees con φ) i (Excused ψ i) := by
  have hf : Lingers (authRules cfg callees con φ) i fun w => w.failed i = true := lingers_failed
  have hc : Lingers (authRules cfg callees con φ) i (Cleared i) := lingers_cleared
  refine ⟨fun w w' hw hw' hk hg ho h hp => ?_, fun w w' hs h hp => ?_⟩
  · exact (h hp).imp (hf.stable w w' hw hw' hk hg ho) (hc.stable w w' hw hw' hk hg ho)
  · exact (h hp).imp (hf.aside w w' hs) (hc.aside w w' hs)

theorem lingers_ungranted : Lingers (authRules cfg callees con φ) i
    fun w => w.store.granted i = [] := by
  refine ⟨fun w w' _ _ _ _ ho h => ho.keeps.granted.trans h, fun w w' hs h => ?_⟩
  rw [hs.store]
  exact h

theorem cleared_ungranted (h : w.store.granted i = []) : Cleared i w := by
  intro id t hm
  rw [h] at hm
  cases hm

/-- **The outline of `execute_once` around a refresh.** -/
theorem refreshDurably (hφ : φ → ∀ w w', con w w' → Guarded callees w w')
    (hψ : ψ → ∀ w w', con w w' → Unexpired i identity w w') {hotStore : Bool}
    {command : RefreshCommand} (hi : callees i = some (.refresh hotStore command))
    (hh : requestHash = command.requestHash cfg) (retention : Retention) :
    HotRules.Durably (authRules cfg callees con φ) Minted i retention identity requestHash
      (refreshOperation cfg command.refreshToken identity requestHash)
      (fun w => w.store.granted i = []) (Concludes i identity requestHash)
      (fun _ => Excused ψ i) where
  lingers := lingers_ungranted
  answers := lingers_concludes
  raises _ := lingers_excused
  publishable c := (steady_minted c).stable
  executes := by
    have hungranted : (authRules cfg callees con φ).Steady i fun w => w.store.granted i = [] :=
      ⟨lingers_ungranted.stable, fun w w' _ _ _ hq h => hq.granted.trans h⟩
    refine ((refreshFence hφ hψ retention hi hh).executeOnce_safe (lookup_minted hungranted)
      (fun w _ h _ => h) (lookup_lost hψ) fun x => lookup_minted (steady_raised x)).post ?_
    intro r w _ h
    cases r with
    | ok res =>
        refine ⟨h.1, ?_⟩
        rcases h.2 with ⟨c, rfl, hdone⟩ | ⟨c, rfl, hgot⟩
        · refine ⟨fun c' hc => ?_, .inl hdone.2⟩
          cases hc
          exact hdone.1
        · exact concludes_classify (hgot.elim (fun hg => hg c rfl) fun hg => hg.1 c rfl)
    | error x =>
        refine ⟨h.1, fun hp => ?_⟩
        rcases h.2 with ⟨-, -, hnone⟩ | ⟨-, hfailed⟩ | hraised
        · exact .inr (.of_not_reuses (hnone rfl hp))
        · exact .inl hfailed
        · exact hraised.2
  finds := by
    have hungranted : (authRules cfg callees con φ).Steady i fun w => w.store.granted i = [] :=
      ⟨lingers_ungranted.stable, fun w w' _ _ _ hq h => hq.granted.trans h⟩
    refine ((lookup_minted hungranted).findExisting_safe requestHash).post fun r w _ h => ?_
    cases r with
    | ok o =>
        obtain ⟨hidle, hpre, c, rfl, hgot⟩ := h
        refine ⟨hidle, ?_⟩
        cases c with
        | none => exact ⟨fun c' hc => (by cases hc), .inl (cleared_ungranted hpre)⟩
        | some c => exact concludes_classify (hgot c rfl)
    | error x => exact ⟨h.1, fun _ => .inl h.2.2.1⟩
  replays c w hpre hm hhash := by
    refine ⟨fun c' hc => ?_, .inl (cleared_ungranted hpre)⟩
    cases hc
    exact ⟨hm, hhash⟩
  conflicts w hpre := ⟨fun c' hc => (by cases hc), .inl (cleared_ungranted hpre)⟩
  publishes res c w h hc := (h.1 c hc).1
  failed x w h := fun _ => .inl h
  refuses message w hpre := fun _ => .inr (cleared_ungranted hpre)

end Durable

/-! ## From the result to the pair -/

/-- The pair that a stored success stands for. -/
def Restores (cfg : AuthConfig) (identity : IdempotencyIdentity) (requestHash : Digest)
    (c : CompletedIdempotencyResult) (pair : TokenPair) : Prop :=
  c.resultType = successResult ∧ ∃ payload restored, c.resultPayload = some payload ∧
    cfg.protector.restore payload
      (replayAad identity requestHash c.resultType c.resultVersion) = .ok restored ∧
    TokenPair.validate restored = .ok pair

/-- A reused token is dealt with, in one way or the other. -/
def Accounted (ψ : Prop) (i : Nat) (identity : IdempotencyIdentity) (requestHash : Digest)
    (w : World auth C) : Prop :=
  ψ → w.failed i = true ∨ Cleared i w ∨ FromRecord i identity requestHash w

/-- What a refresh promises at its end. -/
def Refreshed (cfg : AuthConfig) (ψ : Prop) (i : Nat) (identity : IdempotencyIdentity)
    (requestHash : Digest) (r : Except Exn TokenPair) (w : World auth C) : Prop :=
  (∀ pair, r = .ok pair → ∃ c, Minted identity c w.store ∧ c.requestHash = requestHash ∧
    Restores cfg identity requestHash c pair) ∧ Accounted ψ i identity requestHash w

section Tail

variable {requestHash : Digest} {Z : World auth C → Prop}

theorem steady_accounted :
    (authRules cfg callees con φ).Steady i (Accounted ψ i identity requestHash) := by
  have hf : (authRules cfg callees con φ).Steady i fun w => w.failed i = true :=
    Rules.steady_failed
  have hc : (authRules cfg callees con φ).Steady i (Cleared i) := steady_cleared
  have hm : ∀ c, (authRules cfg callees con φ).Steady i fun w => Minted identity c w.store :=
    steady_minted
  refine ⟨fun w w' hw hw' hk hg ho h hp => ?_, fun w w' hw hw' hk hq h hp => ?_⟩
  · refine (h hp).imp (hf.stable w w' hw hw' hk hg ho) fun h => ?_
    refine h.imp (hc.stable w w' hw hw' hk hg ho) fun hans => ?_
    obtain ⟨c, hmint, hout⟩ := hans
    refine ⟨c, (hm c).stable w w' hw hw' hk hg ho hmint, ?_⟩
    rw [ho.observed]
    exact hout
  · refine (h hp).imp (hf.quiet w w' hw hw' hk hq) fun h => ?_
    refine h.imp (hc.quiet w w' hw hw' hk hq) fun hans => ?_
    obtain ⟨c, hmint, hout⟩ := hans
    refine ⟨c, (hm c).quiet w w' hw hw' hk hq hmint, ?_⟩
    rw [hq.observed]
    exact hout

/-- Reading is quiet: what is steady stays. -/
theorem select_steady (hZ : (authRules cfg callees con φ).Steady i Z) (k : AuthKey) :
    (authRules cfg callees con φ).spec.Safe i (AuthOp.select k).run
      (fun w => w.store.staged i = noWrites ∧ Z w)
      (Ends (fun _ w => w.store.staged i = noWrites ∧ Z w) fun _ => Z) := by
  have hclean : (authRules cfg callees con φ).spec.Stable i
      fun w => w.store.staged i = noWrites :=
    fun w w' _ _ _ _ ho h => ho.keeps.staged.trans h
  have hread : (authRules cfg callees con φ).spec.Safe i (read (B := auth) (.biz k))
      (fun w => w.store.staged i = noWrites ∧ Z w)
      (Ends (fun _ w => w.store.staged i = noWrites ∧ Z w) (Faulted i Z)) := by
    refine Rules.read_safe (fun _ => hclean.and hZ.stable) hZ (fun w _ h => h.2)
      fun w hw hc h => ⟨h.1, ?_⟩
    have hq : Quiet i w (w.withStore (w.store.note i (.biz k))) := .note _
    exact hZ.quiet w _ hw (Rules.inv_private hw hc hq.toPrivate) hc hq h.2
  show (authRules cfg callees con φ).spec.Safe i (Operation.run (Prog.perform _)) _ _
  rw [Operation.run_perform]
  exact hread.bind (fun v w _ h => h) fun x w _ h => h.2.2

theorem getByRefreshId_safe (hZ : (authRules cfg callees con φ).Steady i Z) (tokenId : Uuid) :
    (authRules cfg callees con φ).spec.Safe i (AuthSessionRepository.getByRefreshId tokenId).run
      (fun w => w.store.staged i = noWrites ∧ Z w)
      (Ends (fun _ w => w.store.staged i = noWrites ∧ Z w) fun _ => Z) := by
  have hget : (authRules cfg callees con φ).spec.Safe i (RefreshTokenRepository.get tokenId).run
      (fun w => w.store.staged i = noWrites ∧ Z w)
      (Ends (fun _ w => w.store.staged i = noWrites ∧ Z w) fun _ => Z) := by
    show (authRules cfg callees con φ).spec.Safe i (Operation.run (Prog.bind _ _)) _ _
    rw [Operation.run_bind]
    refine (select_steady hZ (.token tokenId)).bind (fun v => ?_) fun x w _ h => h
    cases v with
    | none => exact fun w _ h => h
    | some t =>
        show (authRules cfg callees con φ).spec.Safe i
          (Operation.run (Prog.bind (Prog.ofExcept (loaded (RefreshToken.validate t))) _)) _ _
        cases loaded (RefreshToken.validate t) with
        | ok t' => exact fun w _ h => h
        | error x => exact fun w _ h => h.2
  show (authRules cfg callees con φ).spec.Safe i (Operation.run (Prog.bind _ _)) _ _
  rw [Operation.run_bind]
  refine hget.bind (fun v => ?_) fun x w _ h => h
  cases v with
  | none => exact fun w _ h => h
  | some t =>
      show (authRules cfg callees con φ).spec.Safe i (Operation.run (Prog.bind _ _)) _ _
      rw [Operation.run_bind]
      refine (select_steady hZ (.session t.sessionId)).bind (fun v => ?_) fun x w _ h => h
      cases v with
      | none => exact fun w _ h => h
      | some row =>
          show (authRules cfg callees con φ).spec.Safe i
            (Operation.run (Prog.bind (Prog.ofExcept (AuthSessionRow.withToken row t)) _)) _ _
          cases AuthSessionRow.withToken row t with
          | ok a => exact fun w _ h => h
          | error x => exact fun w _ h => h.2

theorem checkReplay_safe (hZ : (authRules cfg callees con φ).Steady i Z) (tokenId : Uuid) :
    (authRules cfg callees con φ).spec.Safe i (checkReplay tokenId) (fun w => Idle i w ∧ Z w)
      (Ends (fun _ w => Idle i w ∧ Z w) fun _ w => Idle i w ∧ Z w) := by
  refine Rules.uow_safe (A := fun _ w => w.store.staged i = noWrites ∧ Z w) (D := fun _ => Z)
    (F := fun _ => Z) ?_ (fun _ => hZ) hZ (fun _ => hZ) (fun _ w _ h => h.2) (fun _ _ h => h)
    (fun _ _ h => h) (fun _ _ h => h.2.2) (fun _ _ h => h) fun _ w f hw h hc => ?_
  · refine ((getByRefreshId_safe hZ tokenId).pre fun w _ h => ⟨h.1.staged, h.2⟩).bind
      (fun v => ?_) fun x w _ h => h
    cases v with
    | none => exact fun w _ h => h.2
    | some session =>
        have hclean : (authRules cfg callees con φ).spec.Stable i
            fun w => w.store.staged i = noWrites :=
          fun w w' _ _ _ _ ho h => ho.keeps.staged.trans h
        refine (Rules.utcNow_safe (fun _ => hclean.and hZ.stable) fun w _ h => h).bind
          (fun now => ?_) fun x w _ h => h.elim
        show (authRules cfg callees con φ).spec.Safe i
          (Prog.bind (Prog.ofExcept (session.canReplay now)) _) _ _
        cases session.canReplay now with
        | error x => exact fun w _ h => h.2
        | ok replayable =>
            cases replayable with
            | true => exact fun w _ h => h
            | false => exact fun w _ h => h.2
  · have hq : Quiet i w ((w.settle i f).withStore (w.store.commit i)) := .commit f hw.1 h.1
    have ho := Rules.owes_private hw hc hq.toPrivate
    exact ⟨ho, hZ.quiet w _ hw ho.inv hc hq h.2⟩

theorem replayPair_safe (hZ : (authRules cfg callees con φ).Steady i Z)
    (c : CompletedIdempotencyResult) (payload : List (String × Json)) (resourceId : String) :
    (authRules cfg callees con φ).spec.Safe i
      (replayPair cfg identity requestHash c payload resourceId) (fun w => Idle i w ∧ Z w)
      (Ends (fun pair w => Z w ∧ ∃ restored, cfg.protector.restore payload
          (replayAad identity requestHash c.resultType c.resultVersion) = .ok restored ∧
          TokenPair.validate restored = .ok pair) fun _ => Z) := by
  show (authRules cfg callees con φ).spec.Safe i
    (Prog.bind (Prog.ofExcept (resourceUuid resourceId)) _) _ _
  cases resourceUuid resourceId with
  | error x => exact fun w _ h => h.2
  | ok tokenId =>
      refine (checkReplay_safe hZ tokenId).bind (fun _ => ?_) fun x w _ h => h.2
      show (authRules cfg callees con φ).spec.Safe i
        (Prog.bind (Prog.ofExcept (cfg.protector.restore payload
          (replayAad identity requestHash c.resultType c.resultVersion))) _) _ _
      cases cfg.protector.restore payload
          (replayAad identity requestHash c.resultType c.resultVersion) with
      | error x => exact fun w _ h => h.2
      | ok restored =>
          show (authRules cfg callees con φ).spec.Safe i
            (Prog.ofExcept (TokenPair.validate restored)) _ _
          cases hpair : TokenPair.validate restored with
          | error x => exact fun w _ h => h.2
          | ok pair => exact fun w _ h => ⟨h.2, restored, rfl, hpair⟩

-- how a text is read as a UUID does not matter here
attribute [local irreducible] resourceUuid

theorem answerCompleted_safe (c : CompletedIdempotencyResult) :
    (authRules cfg callees con φ).spec.Safe i (answerCompleted cfg identity requestHash c)
      (fun w => Idle i w ∧ (Minted identity c w.store ∧ c.requestHash = requestHash) ∧
        Accounted ψ i identity requestHash w)
      (Refreshed cfg ψ i identity requestHash) := by
  have hZ : (authRules cfg callees con φ).Steady i fun w =>
      (Minted identity c w.store ∧ c.requestHash = requestHash) ∧
        Accounted ψ i identity requestHash w :=
    ((steady_minted c).and (.const _)).and steady_accounted
  -- every way out but one raises
  have hraise : ∀ x, (authRules cfg callees con φ).spec.Safe i (Prog.throw x : App auth TokenPair)
      (fun w => (Minted identity c w.store ∧ c.requestHash = requestHash) ∧
        Accounted ψ i identity requestHash w) (Refreshed cfg ψ i identity requestHash) := by
    intro x w _ h
    exact ⟨fun pair hp => (by cases hp), h.2⟩
  unfold answerCompleted
  by_cases hrejected : c.resultType = rejectedResult
  · rw [if_pos hrejected]
    exact (hraise _).pre fun w _ h => h.2
  rw [if_neg hrejected]
  by_cases hsuccess : c.resultType = successResult
  swap
  · rw [if_pos hsuccess]
    exact (hraise _).pre fun w _ h => h.2
  rw [if_neg (not_not.mpr hsuccess)]
  cases hpayload : c.resultPayload with
  | none => exact (hraise _).pre fun w _ h => h.2
  | some payload =>
      cases c.resourceId with
      | none => exact (hraise _).pre fun w _ h => h.2
      | some resourceId =>
          refine (replayPair_safe hZ c payload resourceId).attempt fun r => ?_
          rcases r with x | pair
          · cases x
            all_goals exact hraise _
          · intro w _ h
            obtain ⟨hw, restored, hrestore, hvalid⟩ := h
            refine ⟨fun pair' hp => ?_, hw.2⟩
            cases hp
            exact ⟨c, hw.1.1, hw.1.2, hsuccess, payload, restored, hpayload, hrestore, hvalid⟩

/-- **The outline of `RefreshHandler.execute`.** -/
theorem refresh_safe {hotStore : Bool} {command : RefreshCommand}
    (hφ : φ → ∀ w w', con w w' → Guarded callees w w')
    (hψ : ψ → ∀ w w', con w w' → Unexpired i command.identity w w')
    (hi : callees i = some (.refresh hotStore command)) :
    (authRules cfg callees con φ).spec.Safe i (refreshExecute cfg hotStore command)
      (fun w => Idle i w ∧ w.store.granted i = [])
      (Refreshed cfg ψ i command.identity (command.requestHash cfg)) := by
  have hdurably : HotRules.Durably (authRules cfg callees con φ) Minted i cfg.retention
      command.identity (command.requestHash cfg) _ _ _ _ :=
    refreshDurably hφ hψ hi rfl cfg.retention
  have hcall := authRules_hot.coordinatorExecute_safe hdurably hotStore cfg.leaseSeconds
  refine hcall.bind (fun res => ?_) fun x w _ h => ?_
  · -- the answer accounts for a reuse
    have hend : ∀ w : World auth C,
        HotRules.Answers i (Concludes i command.identity (command.requestHash cfg)) res w →
        Accounted ψ i command.identity (command.requestHash cfg) w := by
      intro w h hp
      obtain ⟨-, ⟨-, hcleared | ⟨c, hm, rfl⟩⟩, hout⟩ := h
      · exact .inr (.inl hcleared)
      · exact .inr (.inr ⟨c, hm, hout⟩)
    have hraise : ∀ x, (authRules cfg callees con φ).spec.Safe i
        (Prog.throw x : App auth TokenPair)
        (HotRules.Answers i (Concludes i command.identity (command.requestHash cfg)) res)
        (Refreshed cfg ψ i command.identity (command.requestHash cfg)) := by
      intro x w _ h
      exact ⟨fun pair hp => (by cases hp), hend w h⟩
    have hanswer : ∀ c, res.completed = some c → (authRules cfg callees con φ).spec.Safe i
        (answerCompleted cfg command.identity (command.requestHash cfg) c)
        (HotRules.Answers i (Concludes i command.identity (command.requestHash cfg)) res)
        (Refreshed cfg ψ i command.identity (command.requestHash cfg)) := by
      intro c hc
      refine (answerCompleted_safe c).pre fun w _ h => ?_
      exact ⟨h.1, h.2.1.1 c hc, hend w h⟩
    obtain ⟨outcome, completed, decision⟩ := res
    cases outcome with
    | conflict => exact hraise _
    | inProgress => exact hraise _
    | executed =>
        cases completed with
        | none => exact hraise _
        | some c => exact hanswer c rfl
    | replay =>
        cases completed with
        | none => exact hraise _
        | some c => exact hanswer c rfl
  · refine ⟨fun pair hp => (by cases hp), fun hp => ?_⟩
    exact (h.2 hp).imp_right .inl

end Tail

end IdentityService
