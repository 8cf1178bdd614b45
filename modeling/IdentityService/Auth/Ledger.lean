import IdentityService.Auth.Handlers
import IdentityService.Auth.Sessions
import IdentityService.Idempotency.CoordinatorOutline

/-!
# The commit history of the authentication tables

A plan is carried out by one transaction, so its write set is one entry of
the commit history. The invariant ties the three together: the tables are
consistent families, each link of a family is an entry that rotated one
token into the next, and every stored success of a refresh, in the records
or in the hot store, came with such an entry.
-/

namespace IdentityService

open Concurrent

variable {C : ResultCodec}

/-- Entries of the commit history. -/
abbrev AuthEntry := Entry (Key auth) Key.Row

/-! ## Plans as write sets -/

/-- The rows of a transaction that has written nothing. -/
def noWrites : AuthRows := fun _ => none

namespace Plan

/-- The rows that a plan writes. -/
def writes : Plan → AuthRows
  | .start s t =>
    Function.update (Function.update (Function.update noWrites (.biz (.session s.id)) (some s))
      (.biz (.token t.id)) (some t)) (.biz (.tokenHash t.tokenHash)) (some t.id)
  | .revoke s t now =>
    Function.update (Function.update noWrites (.biz (.session s.id)) (some (s.revoked now)))
      (.biz (.token t.id)) (some t)
  | .rotate s t r now expires =>
    Function.update (Function.update (Function.update (Function.update noWrites
      (.biz (.session s.id)) (some (s.extended expires))) (.biz (.token t.id)) (some (t.used now)))
      (.biz (.token r.id)) (some r)) (.biz (.tokenHash r.tokenHash)) (some r.id)
  | .disable _ u' => Function.update noWrites (.biz (.user u'.id)) (some u')

/-- The keys on which it depends whether a plan is enabled. -/
def keys : Plan → List AuthKey
  | .start s t => [.session s.id, .token t.id, .tokenHash t.tokenHash]
  | .revoke s t _ => [.session s.id, .token t.id]
  | .rotate s t r _ _ => [.session s.id, .token t.id, .token r.id, .tokenHash r.tokenHash]
  | .disable u _ => [.user u.id]

end Plan

/-- The rows a transaction sees over the committed ones. -/
def overlay (wr rows : AuthRows) : AuthRows := fun k => (wr k).or (rows k)

section Overlay

variable {wr rows : AuthRows}

theorem overlay_update (k : Key auth) (r : k.Row) :
    overlay (Function.update wr k (some r)) rows =
      Function.update (overlay wr rows) k (some r) := by
  funext k'
  by_cases hk : k' = k
  · subst hk
    simp [overlay]
  · simp [overlay, hk]

theorem of_update_user (u : User) :
    AuthTables.of (Function.update rows (.biz (.user u.id)) (some u)) =
      (AuthTables.of rows).putUser u := by
  simp only [AuthTables.of, AuthTables.putUser, AuthTables.mk.injEq]
  refine ⟨?_, ?_, ?_, ?_⟩
  · funext id
    by_cases hid : id = u.id
    · subst hid
      simp
    · simp [hid]
  all_goals
    funext id
    simp

theorem of_update_session (s : AuthSessionRow) :
    AuthTables.of (Function.update rows (.biz (.session s.id)) (some s)) =
      (AuthTables.of rows).putSession s := by
  simp only [AuthTables.of, AuthTables.putSession, AuthTables.mk.injEq]
  refine ⟨?_, ?_, ?_, ?_⟩
  · funext id
    simp
  · funext id
    by_cases hid : id = s.id
    · subst hid
      simp
    · simp [hid]
  all_goals
    funext id
    simp

theorem of_update_token (t : RefreshToken) :
    AuthTables.of (Function.update rows (.biz (.token t.id)) (some t)) =
      (AuthTables.of rows).putToken t := by
  simp only [AuthTables.of, AuthTables.putToken, AuthTables.mk.injEq]
  refine ⟨?_, ?_, ?_, ?_⟩
  · funext id
    simp
  · funext id
    simp
  · funext id
    by_cases hid : id = t.id
    · subst hid
      simp
    · simp [hid]
  · funext id
    simp

theorem of_add_token (t : RefreshToken) :
    AuthTables.of (Function.update (Function.update rows (.biz (.token t.id)) (some t))
        (.biz (.tokenHash t.tokenHash)) (some t.id)) = (AuthTables.of rows).addToken t := by
  rw [AuthTables.addToken, ← of_update_token]
  simp only [AuthTables.of, AuthTables.mk.injEq]
  refine ⟨?_, ?_, ?_, ?_⟩
  · funext id
    simp
  · funext id
    simp
  · funext id
    simp
  · funext d
    by_cases hd : d = t.tokenHash
    · subst hd
      simp
    · simp [hd]

/-- A plan writes no record. -/
theorem Plan.writes_record (p : Plan) (identity : IdempotencyIdentity) :
    p.writes (.record identity) = none := by
  cases p <;> simp [Plan.writes, noWrites]

/-- **A write set carries out its plan.** -/
theorem of_writes (p : Plan) :
    AuthTables.of (overlay p.writes rows) = p.apply (AuthTables.of rows) := by
  have hnone : overlay noWrites rows = rows := by
    funext k
    simp [overlay, noWrites]
  cases p with
  | start s t =>
      unfold Plan.writes
      rw [overlay_update, overlay_update, overlay_update, hnone, of_add_token, of_update_session]
      rfl
  | revoke s t now =>
      unfold Plan.writes
      rw [overlay_update, overlay_update, hnone, of_update_token]
      exact congrArg (AuthTables.putToken · t) (of_update_session (s.revoked now))
  | rotate s t r now expires =>
      unfold Plan.writes
      rw [overlay_update, overlay_update, overlay_update, overlay_update, hnone, of_add_token]
      refine congrArg (AuthTables.addToken · r) ((of_update_token (t.used now)).trans ?_)
      exact congrArg (AuthTables.putToken · (t.used now)) (of_update_session (s.extended expires))
  | disable u u' =>
      unfold Plan.writes
      rw [overlay_update, hnone, of_update_user]
      rfl

/-- Two write sets that agree on the tables. -/
theorem of_overlay_congr {wr' : AuthRows} (h : ∀ k, wr (.biz k) = wr' (.biz k)) :
    AuthTables.of (overlay wr rows) = AuthTables.of (overlay wr' rows) := by
  simp [AuthTables.of, overlay, h]

theorem Plan.Enabled.of_keys {p : Plan} {rows' : AuthRows} {clock clock' : Time}
    (h : p.Enabled (.of rows) clock) (hkeys : ∀ k ∈ p.keys, rows' (.biz k) = rows (.biz k))
    (hclock : clock ≤ clock') : p.Enabled (.of rows') clock' := by
  cases h with
  | start newSession newToken newHash fits age span unrevoked unused past =>
      refine .start ?_ ?_ ?_ fits age span unrevoked unused (Nat.le_trans past hclock)
      · exact (hkeys _ (by simp [Plan.keys])).trans newSession
      · exact (hkeys _ (by simp [Plan.keys])).trans newToken
      · exact (hkeys _ (by simp [Plan.keys])).trans newHash
  | revoke session token age =>
      refine .revoke ?_ ?_ age
      · exact (hkeys _ (by simp [Plan.keys])).trans session
      · exact (hkeys _ (by simp [Plan.keys])).trans token
  | rotate session token newToken newHash fits follows age span unrevoked unused fresh past =>
      refine .rotate ?_ ?_ ?_ ?_ fits follows age span unrevoked unused fresh past
      · exact (hkeys _ (by simp [Plan.keys])).trans session
      · exact (hkeys _ (by simp [Plan.keys])).trans token
      · exact (hkeys _ (by simp [Plan.keys])).trans newToken
      · exact (hkeys _ (by simp [Plan.keys])).trans newHash
  | disable user same disabled =>
      exact .disable ((hkeys _ (by simp [Plan.keys])).trans user) same disabled

end Overlay

/-! ## The history -/

/-- The entry uses token `t` up, and adds `r` in its place. -/
structure Rotates (e : AuthEntry) (t r : RefreshToken) : Prop where
  writes : ∃ pid wr, e = .commit pid wr ∧ wr (.biz (.token t.id)) = some t ∧
    wr (.biz (.token r.id)) = some r
  used : t.usedAt.isSome
  unused : r.usedAt = none
  follows : r.sessionId = t.sessionId

/-- Some entry rotated token `a` into token `b`. -/
def Links (log : List AuthEntry) (a b : Uuid) : Prop :=
  ∃ e ∈ log, ∃ t r, Rotates e t r ∧ t.id = a ∧ r.id = b

/-- The result was committed as the record of the identity. -/
def Minted (identity : IdempotencyIdentity) (c : CompletedIdempotencyResult)
    (st : Store (Key auth) Key.Row) : Prop :=
  ∃ pid wr r, .commit pid wr ∈ st.log ∧ wr (.record identity) = some r ∧ r.completed = c

/-- Where a stored success comes from: one refresh, whose only record it
is, and which rotated the token it presented. -/
structure Source (cfg : AuthConfig) (callees : Nat → Option AuthCallee) (pid : Nat) (wr : AuthRows)
    (identity : IdempotencyIdentity) (c : CompletedIdempotencyResult) : Prop where
  only : ∀ other, (wr (.record other)).isSome → other = identity
  rotation : ∃ t r hotStore command, Rotates (.commit pid wr) t r ∧
    callees pid = some (.refresh hotStore command) ∧
    t.tokenHash = cfg.digest command.refreshToken ∧ c.requestHash = command.requestHash cfg

/-- The invariant of the service: consistent tables, linear families, and a log
that accounts for them. -/
structure AuthInv (cfg : AuthConfig) (callees : Nat → Option AuthCallee) (w : World auth C) :
    Prop where
  families : Families (.of w.store.rows) w.clock
  lined : Lined (.of w.store.rows) (Links w.store.log)
  spent : ∀ e ∈ w.store.log, ∀ t r, Rotates e t r →
    ∃ t', (AuthTables.of w.store.rows).tokens t.id = some t' ∧ t'.usedAt.isSome ∧
      t'.tokenHash = t.tokenHash
  once : w.store.log.Pairwise fun e e' =>
    ∀ t r t' r', Rotates e t r → Rotates e' t' r' → t.id ≠ t'.id
  sole : ∀ e ∈ w.store.log, ∀ t r t' r', Rotates e t r → Rotates e t' r' → t = t' ∧ r = r'
  success : ∀ pid wr identity r, .commit pid wr ∈ w.store.log → wr (.record identity) = some r →
    r.completed.resultType = successResult → Source cfg callees pid wr identity r.completed
  recorded : ∀ identity r, w.store.rows (.record identity) = some r →
    Minted identity r.completed w.store
  shapes : HotShapes w
  hot : ∀ identity c, w.hot identity = some (.completed C c) → Minted identity c w.store

/-- How the world may differ later on. If accounts are not disabled under a
refresh (`φ`), none that is disabled gets another token. -/
structure AuthStep (φ : Prop) (w w' : World auth C) : Prop where
  continues : Continues (.of w.store.rows) (.of w'.store.rows)
  log : ∀ e ∈ w.store.log, e ∈ w'.store.log
  clock : w.clock ≤ w'.clock
  noIssue : φ → NoIssue (.of w.store.rows) (.of w'.store.rows)

variable {cfg : AuthConfig} {callees : Nat → Option AuthCallee} {φ : Prop}
  {w w' : World auth C} {i : Nat} {p : Plan}

theorem AuthStep.of_rows (hrows : w'.store.rows = w.store.rows)
    (hlog : ∀ e ∈ w.store.log, e ∈ w'.store.log) (hclock : w.clock ≤ w'.clock) :
    AuthStep φ w w' := by
  refine ⟨?_, hlog, hclock, fun _ => ?_⟩
  · rw [hrows]
    exact .refl _
  · rw [hrows]
    exact .refl _

theorem Minted.mono {identity : IdempotencyIdentity} {c : CompletedIdempotencyResult}
    {st st' : Store (Key auth) Key.Row} (h : Minted identity c st)
    (hlog : ∀ e ∈ st.log, e ∈ st'.log) : Minted identity c st' := by
  obtain ⟨pid, wr, r, hm, hr, hc⟩ := h
  exact ⟨pid, wr, r, hlog _ hm, hr, hc⟩

theorem Links.mono {log log' : List AuthEntry} (hlog : ∀ e ∈ log, e ∈ log') (a b : Uuid)
    (h : Links log a b) : Links log' a b := by
  obtain ⟨e, he, hrest⟩ := h
  exact ⟨e, hlog e he, hrest⟩

/-- Entries that write no token rotate none. -/
theorem not_rotates {pid : Nat} {wr : AuthRows} (h : ∀ id, wr (.biz (.token id)) = none)
    {t r : RefreshToken} : ¬ Rotates (.commit pid wr) t r := by
  rintro ⟨⟨_, _, ⟨⟩, ht, -⟩, -, -, -⟩
  rw [h] at ht
  cases ht

theorem rotates_rotate {T : AuthTables} {clock : Time} {pid : Nat} {wr : AuthRows}
    {s : AuthSessionRow} {t r : RefreshToken} {now expires : Time}
    (hp : (Plan.rotate s t r now expires).Enabled T clock)
    (hwr : ∀ k, wr (.biz k) = (Plan.rotate s t r now expires).writes (.biz k)) :
    Rotates (.commit pid wr) (t.used now) r := by
  cases hp with
  | rotate session token newToken newHash fits follows age span unrevoked unused fresh past =>
      have hne : t.id ≠ r.id := by
        intro heq
        rw [← heq, token] at newToken
        cases newToken
      refine ⟨⟨pid, wr, rfl, ?_, ?_⟩, rfl, fresh, follows.trans fits.symm⟩
      · rw [hwr]
        simp [Plan.writes, RefreshToken.used, hne]
      · rw [hwr]
        simp [Plan.writes]

/-- Only the write set of a rotation rotates, and only its own token. -/
theorem rotates_plan {T : AuthTables} {clock : Time} {pid : Nat} {wr : AuthRows}
    (hp : p.Enabled T clock) (hwr : ∀ k, wr (.biz k) = p.writes (.biz k)) {t₁ r₁ : RefreshToken}
    (h : Rotates (.commit pid wr) t₁ r₁) :
    ∃ s t r now expires, p = .rotate s t r now expires ∧ t₁ = t.used now ∧ r₁ = r := by
  obtain ⟨⟨_, _, ⟨⟩, ht, hr⟩, hused, hunused, -⟩ := h
  have htables : ∀ id t, wr (.biz (.token id)) = some t →
      (p.apply (AuthTables.of noWrites)).tokens id = some t := by
    intro id t hid
    rw [← of_writes]
    show (p.writes (.biz (.token id))).or (noWrites (.biz (.token id))) = some t
    rw [← hwr, hid]
    rfl
  have ht := htables _ _ ht
  have hr := htables _ _ hr
  cases hp with
  | @start s t newSession newToken newHash fits age span unrevoked unused past =>
      rcases tokens_put ht with ⟨-, rfl⟩ | ⟨-, h₁⟩
      · rw [unused] at hused
        cases hused
      · cases h₁
  | @revoke s t now session token age =>
      rcases tokens_put ht with ⟨-, rfl⟩ | ⟨-, h₁⟩
      · rcases tokens_put hr with ⟨-, rfl⟩ | ⟨-, h₁⟩
        · rw [hunused] at hused
          cases hused
        · cases h₁
      · cases h₁
  | @rotate s t r now expires session token newToken newHash fits follows age span unrevoked
      unused fresh past =>
      refine ⟨s, t, r, now, expires, rfl, ?_, ?_⟩
      · rcases rotate_tokens.mp ht with ⟨-, rfl⟩ | ⟨-, -, rfl⟩ | ⟨-, -, h₁⟩
        · rw [fresh] at hused
          cases hused
        · rfl
        · cases h₁
      · rcases rotate_tokens.mp hr with ⟨-, rfl⟩ | ⟨-, -, rfl⟩ | ⟨-, -, h₁⟩
        · rfl
        · cases hunused
        · cases h₁
  | disable user same disabled => cases ht

/-! ## The invariant is kept -/

/-- An entry that rotates nothing and records nothing. -/
def Idles (e : AuthEntry) : Prop :=
  (∀ t r, ¬ Rotates e t r) ∧ ∀ pid wr identity, e = .commit pid wr → wr (.record identity) = none

/-- Steps that leave the tables alone. -/
theorem AuthInv.advance (h : AuthInv cfg callees w)
    (htables : AuthTables.of w'.store.rows = AuthTables.of w.store.rows)
    (hclock : w.clock ≤ w'.clock)
    (hlog : w'.store.log = w.store.log ∨ ∃ e, w'.store.log = w.store.log ++ [e] ∧ Idles e)
    (hrecords : ∀ identity r, w'.store.rows (.record identity) = some r →
      w.store.rows (.record identity) = some r)
    (hshapes : HotShapes w')
    (hhot : ∀ identity c, w'.hot identity = some (.completed C c) →
      w.hot identity = some (.completed C c) ∨ Minted identity c w.store) :
    AuthInv cfg callees w' := by
  have hsub : ∀ e ∈ w.store.log, e ∈ w'.store.log := by
    rcases hlog with hlog | ⟨e, hlog, -⟩
    · rw [hlog]
      exact fun _ h => h
    · rw [hlog]
      exact fun _ h => List.mem_append_left _ h
  have hold : ∀ e ∈ w'.store.log, e ∈ w.store.log ∨ Idles e := by
    rcases hlog with hlog | ⟨e, hlog, hidle⟩
    · rw [hlog]
      exact fun _ h => .inl h
    · rw [hlog]
      intro e' he'
      rw [List.mem_append, List.mem_singleton] at he'
      rcases he' with he' | rfl
      · exact .inl he'
      · exact .inr hidle
  refine ⟨?_, ?_, ?_, ?_, ?_, ?_, ?_, hshapes, ?_⟩
  · rw [htables]
    exact h.families.later hclock
  · rw [htables]
    intro id s hs
    obtain ⟨earlier, current, hline⟩ := h.lined id s hs
    exact ⟨earlier, current, hline.congr (fun _ _ _ => Iff.rfl) (Links.mono hsub)⟩
  · intro e he t r hr
    rw [htables]
    rcases hold e he with he | hidle
    · exact h.spent e he t r hr
    · exact absurd hr (hidle.1 t r)
  · rcases hlog with hlog | ⟨e, hlog, hidle⟩
    · rw [hlog]
      exact h.once
    · rw [hlog, List.pairwise_append]
      refine ⟨h.once, List.pairwise_singleton _ _, fun a _ b hb t r t' r' _ hr' => ?_⟩
      rw [List.mem_singleton] at hb
      subst hb
      exact absurd hr' (hidle.1 t' r')
  · intro e he t r t' r' hr hr'
    rcases hold e he with he | hidle
    · exact h.sole e he t r t' r' hr hr'
    · exact absurd hr (hidle.1 t r)
  · intro pid wr identity r hm hr hsuccess
    rcases hold _ hm with hm | hidle
    · exact h.success pid wr identity r hm hr hsuccess
    · rw [hidle.2 pid wr identity rfl] at hr
      cases hr
  · intro identity r hr
    exact (h.recorded identity r (hrecords identity r hr)).mono hsub
  · intro identity c hc
    rcases hhot identity c hc with hc | hc
    · exact (h.hot identity c hc).mono hsub
    · exact hc.mono hsub

section Commit

variable {wr : AuthRows} (f : Fate Fault)

/-- **Carrying out a plan keeps the invariant.** -/
theorem AuthInv.commit (h : AuthInv cfg callees w)
    (hp : p.Enabled (.of w.store.rows) w.clock) (hstaged : w.store.staged i = wr)
    (hwr : ∀ k, wr (.biz k) = p.writes (.biz k))
    (hsource : ∀ identity r, wr (.record identity) = some r →
      r.completed.resultType = successResult → Source cfg callees i wr identity r.completed) :
    AuthInv cfg callees ((w.settle i f).withStore (w.store.commit i)) := by
  have htables : AuthTables.of (w.store.view i) = p.apply (.of w.store.rows) := by
    rw [← of_writes, ← of_overlay_congr hwr, ← hstaged]
    rfl
  have hview : ∀ identity, w.store.view i (.record identity) =
      (wr (.record identity)).or (w.store.rows (.record identity)) := by
    intro identity
    rw [← hstaged]
    rfl
  have hlog : ((w.settle i f).withStore (w.store.commit i)).store.log =
      w.store.log ++ [.commit i wr] := by
    rw [withStore_store, Store.commit_log, hstaged]
  have hsub : ∀ e ∈ w.store.log, e ∈ w.store.log ++ [.commit i wr] :=
    fun _ he => List.mem_append_left _ he
  have hcontinues := Continues.step hp
  -- a rotation is of a token that was unused until now
  have hfresh : ∀ t₁ r₁, Rotates (.commit i wr) t₁ r₁ →
      (∃ t, (AuthTables.of w.store.rows).tokens t₁.id = some t ∧ t.usedAt = none) ∧
        (p.apply (.of w.store.rows)).tokens t₁.id = some t₁ := by
    intro t₁ r₁ hr
    obtain ⟨s, t, r, now, expires, rfl, rfl, rfl⟩ := rotates_plan hp hwr hr
    cases hp with
    | rotate session token newToken newHash fits follows age span unrevoked unused fresh past =>
        refine ⟨⟨t, token, unused⟩, rotate_tokens.mpr (.inr (.inl ⟨?_, rfl, rfl⟩))⟩
        intro heq
        have htoken : (AuthTables.of w.store.rows).tokens r₁.id = some t := by
          rw [← heq]
          exact token
        rw [newToken] at htoken
        cases htoken
  refine ⟨?_, ?_, ?_, ?_, ?_, ?_, ?_, ?_, ?_⟩
  · show Families (.of (w.store.view i)) _
    rw [htables, withStore_clock, settle_clock]
    exact h.families.step hp
  · rw [hlog]
    show Lined (.of (w.store.view i)) _
    rw [htables]
    refine h.lined.step h.families hp (Links.mono hsub) ?_
    rintro s t r now expires rfl
    exact ⟨_, List.mem_append_right _ (List.mem_singleton_self _), t.used now, r,
      rotates_rotate hp hwr, rfl, rfl⟩
  · rw [hlog]
    show ∀ e ∈ _, ∀ t r, Rotates e t r →
      ∃ t', (AuthTables.of (w.store.view i)).tokens t.id = some t' ∧ _
    rw [htables]
    intro e he t r hr
    rw [List.mem_append, List.mem_singleton] at he
    rcases he with he | rfl
    · obtain ⟨t', ht', hused, hhash⟩ := h.spent e he t r hr
      obtain ⟨t₂, ht₂, -, hhash₂, hused₂⟩ := hcontinues.token _ t' ht'
      obtain ⟨u, hu⟩ := Option.isSome_iff_exists.mp hused
      exact ⟨t₂, ht₂, by rw [hused₂ u hu]; rfl, hhash₂.trans hhash⟩
    · exact ⟨t, (hfresh t r hr).2, hr.used, rfl⟩
  · rw [hlog, List.pairwise_append]
    refine ⟨h.once, List.pairwise_singleton _ _, fun e he b hb t r t' r' hr hr' heq => ?_⟩
    rw [List.mem_singleton] at hb
    subst hb
    obtain ⟨t₂, ht₂, hused, -⟩ := h.spent e he t r hr
    obtain ⟨⟨t₃, ht₃, hunused⟩, -⟩ := hfresh t' r' hr'
    rw [heq, ht₃] at ht₂
    cases ht₂
    rw [hunused] at hused
    cases hused
  · rw [hlog]
    intro e he t r t' r' hr hr'
    rw [List.mem_append, List.mem_singleton] at he
    rcases he with he | rfl
    · exact h.sole e he t r t' r' hr hr'
    · obtain ⟨s, t₁, r₁, now, expires, rfl, rfl, rfl⟩ := rotates_plan hp hwr hr
      obtain ⟨s', t₂, r₂, now', expires', heq, rfl, rfl⟩ := rotates_plan hp hwr hr'
      cases heq
      exact ⟨rfl, rfl⟩
  · rw [hlog]
    intro pid wr' identity r hm hr hsuccess
    rw [List.mem_append, List.mem_singleton] at hm
    rcases hm with hm | hm
    · exact h.success pid wr' identity r hm hr hsuccess
    · cases hm
      exact hsource identity r hr hsuccess
  · intro identity r hr
    rw [withStore_store, Store.commit_rows, hview] at hr
    rcases Option.or_eq_some_iff.mp hr with hr | ⟨-, hr⟩
    · exact ⟨i, wr, r, by rw [hlog]; simp, hr, rfl⟩
    · exact (h.recorded identity r hr).mono (by rw [hlog]; exact hsub)
  · intro identity
    rw [withStore_hot, settle_hot]
    exact h.shapes identity
  · intro identity c hc
    rw [withStore_hot, settle_hot] at hc
    exact (h.hot identity c hc).mono (by rw [hlog]; exact hsub)

theorem AuthStep.commit (hp : p.Enabled (.of w.store.rows) w.clock)
    (hstaged : w.store.staged i = wr) (hwr : ∀ k, wr (.biz k) = p.writes (.biz k))
    (hactive : φ → ∀ id u, p.issuesTo = some id → (AuthTables.of w.store.rows).users id = some u →
      u.status = .active) :
    AuthStep φ w ((w.settle i f).withStore (w.store.commit i)) := by
  have htables : AuthTables.of (w.store.view i) = p.apply (.of w.store.rows) := by
    rw [← of_writes, ← of_overlay_congr hwr, ← hstaged]
    rfl
  refine ⟨?_, fun e he => List.mem_append_left _ he, ?_, fun hφ => ?_⟩
  · show Continues _ (.of (w.store.view i))
    rw [htables]
    exact .step hp
  · rw [withStore_clock, settle_clock]
  · show NoIssue _ (.of (w.store.view i))
    rw [htables]
    exact .step hp (hactive hφ)

end Commit

/-! ## The rules -/

variable (cfg callees) in
/-- `con` is what a theorem assumes of each step of the runs it speaks
about; under `φ`, it protects accounts while a refresh has read them. -/
def authRules (con : World auth C → World auth C → Prop) (φ : Prop) : Rules auth C where
  inv := AuthInv cfg callees
  con := con
  guar := AuthStep φ
  tolerant i w w' hinv _ _ hp := by
    have hlog : w'.store.log = w.store.log ∨
        ∃ e, w'.store.log = w.store.log ++ [e] ∧ Idles e := by
      rcases hp.log with hlog | hlog
      · exact .inl hlog
      · refine .inr ⟨_, hlog, fun t r => not_rotates fun _ => rfl, ?_⟩
        rintro pid wr identity ⟨⟩
        rfl
    refine ⟨hinv.advance (by rw [hp.rows]) (by rw [hp.clock]) hlog ?_ ?_ ?_, ?_⟩
    · rw [hp.rows]
      exact fun _ _ h => h
    · unfold HotShapes
      rw [hp.hot]
      exact hinv.shapes
    · rw [hp.hot]
      exact fun _ _ h => .inl h
    · refine .of_rows hp.rows (fun e he => ?_) (by rw [hp.clock])
      rcases hlog with hlog | ⟨_, hlog, -⟩
      · rw [hlog]
        exact he
      · rw [hlog]
        exact List.mem_append_left _ he

variable {con : World auth C → World auth C → Prop}

theorem authRules_hot : HotRules (authRules cfg callees con φ) Minted where
  shapes _ h := h.shapes
  published _ identity c h hc := h.hot identity c hc
  offstage w w' h _ hoff := by
    refine ⟨h.advance (by rw [hoff.store]) (by rw [hoff.clock]) (.inl (by rw [hoff.store])) ?_
      hoff.shapes hoff.published, .of_rows (by rw [hoff.store]) ?_ (by rw [hoff.clock])⟩
    · rw [hoff.store]
      exact fun _ _ h => h
    · rw [hoff.store]
      exact fun _ h => h

/-- What the commit of a plan owes to everybody is paid. -/
theorem owes_plan {wr : AuthRows} (f : Fate Fault)
    (hw : (authRules cfg callees con φ).spec.inv w)
    (hp : p.Enabled (.of w.store.rows) w.clock) (hstaged : w.store.staged i = wr)
    (hwr : ∀ k, wr (.biz k) = p.writes (.biz k))
    (hsource : ∀ identity r, wr (.record identity) = some r →
      r.completed.resultType = successResult → Source cfg callees i wr identity r.completed)
    (hactive : φ → ∀ id u, p.issuesTo = some id → (AuthTables.of w.store.rows).users id = some u →
      u.status = .active) :
    (authRules cfg callees con φ).spec.Owes i w
      ((w.settle i f).withStore (w.store.commit i)) :=
  ⟨⟨hw.1.commit, hw.2.commit f hp hstaged hwr hsource⟩, .commit f hp hstaged hwr hactive,
    fun _ hj => ⟨Store.Keeps.commit hw.1 hj, by simp, settle_failed_ne f hj⟩⟩

theorem closed_auth : (authRules cfg callees con φ).spec.Closed where
  env v w w' hw hx hc := by
    obtain ⟨hlock, hothers⟩ := envStep_others hw.1 hx
    have hshapes := hw.2.shapes.env hx
    rcases envStep_cases hx with ⟨d, rfl⟩ | ⟨identity, rfl⟩ | ⟨cutoff, ids, st, -, hst, rfl⟩
    · exact ⟨⟨hlock, hw.2.advance rfl (Nat.le_add_right _ _) (.inl rfl) (fun _ _ h => h) hshapes
        fun _ _ h => .inl h⟩, .of_rows rfl (fun _ h => h) (Nat.le_add_right _ _), hothers⟩
    · refine ⟨⟨hlock, hw.2.advance rfl (Nat.le_refl _) (.inl rfl) (fun _ _ h => h) hshapes
        fun id c h => ?_⟩, .of_rows rfl (fun _ h => h) (Nat.le_refl _), hothers⟩
      by_cases hid : id = identity
      · subst hid
        simp only [World.withHot, Function.update_self] at h
        cases h
      · simp only [World.withHot, Function.update_of_ne hid] at h
        exact .inl h
    · obtain ⟨-, rfl⟩ := Store.delete_cases hst
      have hbiz : ∀ k, (Key.biz k : Key auth) ∉ ids.map .record := by simp
      have htables : AuthTables.of (fun k => if k ∈ ids.map .record then none else w.store.rows k) =
          AuthTables.of w.store.rows := by
        simp [AuthTables.of, hbiz]
      refine ⟨⟨hlock, hw.2.advance htables (Nat.le_refl _) (.inr ⟨_, rfl, ?_, ?_⟩) ?_ hshapes
        fun _ _ h => .inl h⟩, ⟨?_, fun _ h => List.mem_append_left _ h, Nat.le_refl _, fun _ => ?_⟩,
        hothers⟩
      · rintro t r ⟨⟨_, _, ⟨⟩, -⟩, -⟩
      · rintro pid wr identity ⟨⟩
      · intro identity r hr
        simp only [withStore_store] at hr
        split at hr
        · cases hr
        · exact hr
      · show Continues _
          (AuthTables.of fun k => if k ∈ ids.map .record then none else w.store.rows k)
        rw [htables]
        exact .refl _
      · show NoIssue _ (AuthTables.of fun k => if k ∈ ids.map .record then none else w.store.rows k)
        rw [htables]
        exact .refl _
  kill i w hw hc := Rules.owes_private hw hc (Quiet.close .go).toPrivate

end IdentityService
