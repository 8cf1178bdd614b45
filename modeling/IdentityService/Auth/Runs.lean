import Mathlib.Data.Set.Operations
import IdentityService.Auth.RefreshOutline

/-!
# Runs of the authentication use cases

Any number of logins, refreshes, logouts and transactions that disable an
account, interleaved with each other, with failures, crashes and the
passing of time. The outlines of the handlers make every reachable state
consistent, and say of each refresh what its answer rests on.

The first consequence is that refresh-token families are linear: they never
branch, whichever requests present which of their tokens, and a presented
token has one answer.
-/

namespace IdentityService

open Concurrent

variable {C : ResultCodec} {cfg : AuthConfig} {callees : Nat → Option AuthCallee} {i : Nat}
  {w w' : World auth C} {con : World auth C → World auth C → Prop} {φ : Prop} {ψ : Nat → Prop}

/-- What a request that has ended promises; only refreshes promise
anything. -/
def Ended (cfg : AuthConfig) (callees : Nat → Option AuthCallee) (ψ : Nat → Prop) (i : Nat)
    (r : Except Exn AuthAnswer) (w : World auth C) : Prop :=
  ∀ hotStore command, callees i = some (.refresh hotStore command) →
    (∀ pair, r = .ok (.pair pair) → ∃ c, Minted command.identity c w.store ∧
      c.requestHash = command.requestHash cfg ∧
      Restores cfg command.identity (command.requestHash cfg) c pair) ∧
    Accounted (ψ i) i command.identity (command.requestHash cfg) w

/-- A service with users only is consistent. -/
theorem auth_start (users : List User) (clock : Time) :
    AuthInv cfg callees (AuthCallee.start C cfg users clock callees).shared := by
  refine ⟨?_, ?_, ?_, .nil, ?_, ?_, ?_, fun _ => .absent, ?_⟩
  · refine .of_users (fun id u hu => ?_) (fun _ => rfl) (fun _ => rfl) fun _ => rfl
    have hfind : users.find? (fun u => u.id = id) = some u := hu
    simpa using List.find?_some hfind
  · intro id s hs
    cases hs
  · intro e he
    cases he
  · intro e he
    cases he
  · intro pid wr identity r hm
    cases hm
  · intro identity r hr
    cases hr
  · intro identity c hc
    cases hc

section Pool

variable (hφ : φ → ∀ w w' : World auth C, con w w' → Guarded callees w w')
  (hψ : ∀ i hotStore command, callees i = some (.refresh hotStore command) → ψ i →
    ∀ w w' : World auth C, con w w' → Unexpired i command.identity w w')

include hφ hψ

/-- Every request has its outline. -/
theorem authCallee_safe {callee : AuthCallee} (hi : callees i = some callee) :
    (authRules cfg callees con φ).spec.Safe i (callee.program cfg)
      (fun w => Idle i w ∧ w.store.granted i = []) (Ended cfg callees ψ i) := by
  -- requests that are no refresh promise nothing
  have hother : ∀ {α : Type} {p : App auth α} (f : α → AuthAnswer),
      (∀ hotStore command, callee ≠ .refresh hotStore command) →
      (authRules cfg callees con φ).spec.Safe i p (Idle i)
        (Ends (fun _ => Idle i) fun _ => Idle i) →
      (authRules cfg callees con φ).spec.Safe i (p.bind fun a => .ret (f a))
        (fun w => Idle i w ∧ w.store.granted i = []) (Ended cfg callees ψ i) := by
    intro α p f hne hp
    have hnone : ∀ r w, Ended (C := C) cfg callees ψ i r w := by
      intro r w hotStore command hrefresh
      rw [hi] at hrefresh
      exact absurd (Option.some.inj hrefresh) (hne hotStore command)
    exact (hp.pre fun w _ h => h.1).bind (fun a w _ _ => hnone _ w) fun x w _ _ => hnone _ w
  cases callee with
  | login command => exact hother .pair (fun _ _ h => (by cases h)) (login_safe command)
  | logout command =>
      exact hother (fun _ => .done) (fun _ _ h => (by cases h)) (logout_safe command)
  | disable userId =>
      exact hother (fun _ => .done) (fun _ _ h => (by cases h)) (disable_safe userId)
  | refresh hotStore command =>
      refine (refresh_safe hφ (hψ i hotStore command hi) hi).bind (fun pair w _ h => ?_)
        fun x w _ h => ?_
      · intro hotStore' command' hrefresh
        rw [hi] at hrefresh
        cases hrefresh
        refine ⟨fun pair' hp => ?_, h.2⟩
        cases hp
        exact h.1 pair rfl
      · intro hotStore' command' hrefresh
        rw [hi] at hrefresh
        cases hrefresh
        exact ⟨fun pair hp => (by cases hp), h.2⟩

theorem auth_good (users : List User) (clock : Time) :
    (authRules cfg callees con φ).spec.Good (Ended cfg callees ψ)
      (AuthCallee.start C cfg users clock callees) := by
  refine ⟨⟨Store.locked_quiet _, auth_start users clock⟩, fun i p hp => ?_⟩
  obtain ⟨callee, hi, rfl⟩ := Option.map_eq_some_iff.mp hp
  refine ⟨_, Rules.stable_idle.and lingers_ungranted.stable, ?_, authCallee_safe hφ hψ hi⟩
  exact ⟨⟨rfl, fun k h => (by cases h), rfl⟩, rfl⟩

end Pool

/-- What holds between two states of a run. -/
theorem AuthStep.trans {w'' : World auth C} (h : AuthStep φ w w') (h' : AuthStep φ w' w'')
    (hF : Families (.of w'.store.rows) w'.clock) : AuthStep φ w w'' where
  continues := h.continues.trans h'.continues
  log e he := h'.log e (h.log e he)
  clock := Nat.le_trans h.clock h'.clock
  noIssue hp := (h.noIssue hp).trans (h'.noIssue hp) h.continues h'.continues hF

theorem auth_later {P P' : Config (sig auth) Exn (World auth C) AuthAnswer}
    {Q : Nat → Except Exn AuthAnswer → World auth C → Prop}
    (h : (authRules cfg callees con φ).spec.Good Q P) (hr : (machine auth C).Reach con P P') :
    AuthStep φ P.shared P'.shared := by
  refine h.guar_reach closed_auth hr (fun w _ => ?_) fun s t u _ ht _ h h' => ?_
  · exact .of_rows rfl (fun _ h => h) (Nat.le_refl _)
  · exact h.trans h' ht.2.families

/-! ## Linear families -/

/-- In a committed state, each session has one unused token, its tokens are
in a line, and the line has no branches. -/
structure LinearFamilies (w : World auth C) : Prop where
  unused : ∀ id s, (AuthTables.of w.store.rows).sessions id = some s →
    ∃! a, ∃ t, (AuthTables.of w.store.rows).tokens a = some t ∧ t.sessionId = id ∧ t.usedAt = none
  lined : Lined (.of w.store.rows) (Links w.store.log)
  once : w.store.log.Pairwise fun e e' =>
    ∀ t r t' r', Rotates e t r → Rotates e' t' r' → t.id ≠ t'.id
  unbranched : ∀ a b b', Links w.store.log a b → Links w.store.log a b' → b = b'

/-- Two commits that rotated one token are one commit. -/
theorem AuthInv.rotated_once (h : AuthInv cfg callees w) {e e' : AuthEntry}
    {t r t' r' : RefreshToken} (he : e ∈ w.store.log) (he' : e' ∈ w.store.log)
    (hr : Rotates e t r) (hr' : Rotates e' t' r') (hid : t.id = t'.id) : e = e' := by
  by_contra hne
  have hsymm : Std.Symm fun e e' : AuthEntry =>
      ∀ t r t' r', Rotates e t r → Rotates e' t' r' → t.id ≠ t'.id :=
    ⟨fun a b hab t r t' r' hr hr' heq => hab t' r' t r hr' hr heq.symm⟩
  exact h.once.forall he he' hne t r t' r' hr hr' hid

theorem AuthInv.linear (h : AuthInv cfg callees w) : LinearFamilies w where
  unused id s hs := by
    obtain ⟨earlier, current, hline⟩ := h.lined id s hs
    exact hline.one_unused
  lined := h.lined
  once := h.once
  unbranched a b b' hb hb' := by
    obtain ⟨e, he, t, r, hr, ha, hrb⟩ := hb
    obtain ⟨e', he', t', r', hr', ha', hrb'⟩ := hb'
    have heq := h.rotated_once he he' hr hr' (ha.trans ha'.symm)
    subst heq
    obtain ⟨-, rfl⟩ := h.sole e he t r t' r' hr hr'
    exact hrb.symm.trans hrb'

/-- The texts whose SHA-256 values tell refresh requests apart. -/
def fingerprints (cfg : AuthConfig) (callees : Nat → Option AuthCallee) : Set String :=
  { text | ∃ i hotStore command, callees i = some (.refresh hotStore command) ∧
    text = refreshFingerprint (cfg.digest command.refreshToken) }

/-- Two stored successes for one presented token are one: it was rotated
once, in one transaction, which left one record. -/
theorem AuthInv.one_success (h : AuthInv cfg callees w)
    (hinj : Set.InjOn cfg.sha256 (fingerprints cfg callees)) {j : Nat} {hotStore hotStore' : Bool}
    {command command' : RefreshCommand} (hi : callees i = some (.refresh hotStore command))
    (hj : callees j = some (.refresh hotStore' command'))
    (htoken : command.refreshToken = command'.refreshToken) {c c' : CompletedIdempotencyResult}
    (hm : Minted command.identity c w.store) (hm' : Minted command'.identity c' w.store)
    (hhash : c.requestHash = command.requestHash cfg)
    (hhash' : c'.requestHash = command'.requestHash cfg) (hs : c.resultType = successResult)
    (hs' : c'.resultType = successResult) : command.identity = command'.identity ∧ c = c' := by
  -- the digest of the token that the source of a success presented
  have hdigest : ∀ {pid : Nat} {hot : Bool} {source presented : RefreshCommand} {k : Nat}
      {hot' : Bool}, callees pid = some (.refresh hot source) →
      callees k = some (.refresh hot' presented) →
      source.requestHash cfg = presented.requestHash cfg →
      cfg.digest source.refreshToken = cfg.digest presented.refreshToken := by
    intro pid hot source presented k hot' hsource hpresented heq
    exact refreshFingerprint_inj (hinj ⟨pid, hot, source, hsource, rfl⟩
      ⟨k, hot', presented, hpresented, rfl⟩ heq)
  obtain ⟨pid, wr, rec, he, hrec, rfl⟩ := hm
  obtain ⟨pid', wr', rec', he', hrec', rfl⟩ := hm'
  obtain ⟨honly, t, r, hot, source, hrot, hpid, ht, hsource⟩ :=
    h.success pid wr command.identity rec he hrec hs
  obtain ⟨-, t', r', hot', source', hrot', hpid', ht', hsource'⟩ :=
    h.success pid' wr' command'.identity rec' he' hrec' hs'
  have hd := hdigest hpid hi (hsource.symm.trans hhash)
  have hd' := hdigest hpid' hj (hsource'.symm.trans hhash')
  -- both rotated the token with that digest
  obtain ⟨t₁, ht₁, -, hh₁⟩ := h.spent _ he t r hrot
  obtain ⟨t₂, ht₂, -, hh₂⟩ := h.spent _ he' t' r' hrot'
  have hid : t.id = t'.id := by
    refine h.families.token_unique ht₁ ht₂ ?_
    rw [hh₁, hh₂, ht, ht', hd, hd', htoken]
  have heq := h.rotated_once he he' hrot hrot' hid
  cases heq
  have hidentity := honly command'.identity (by rw [hrec']; rfl)
  refine ⟨hidentity.symm, ?_⟩
  rw [hidentity, hrec] at hrec'
  cases hrec'
  rfl

/-- All pairs that refreshes of one token returned are equal. -/
def OneAnswer (callees : Nat → Option AuthCallee)
    (P : Config (sig auth) Exn (World auth C) AuthAnswer) : Prop :=
  ∀ i j hotStore hotStore' command command' pair pair',
    callees i = some (.refresh hotStore command) → callees j = some (.refresh hotStore' command') →
    command.refreshToken = command'.refreshToken →
    P.pool i = some (.ret (.pair pair)) → P.pool j = some (.ret (.pair pair')) → pair = pair'

/-- **Refresh-token families are linear**, in every state of every run, and
what is used or revoked stays so. -/
theorem refresh_families_linear (users : List User) (clock : Time)
    (hinj : Set.InjOn cfg.sha256 (fingerprints cfg callees))
    {P : Config (sig auth) Exn (World auth C) AuthAnswer}
    (hr : (machine auth C).Reach (fun _ _ => True) (AuthCallee.start C cfg users clock callees) P) :
    LinearFamilies P.shared ∧
      (∀ P', (machine auth C).Reach (fun _ _ => True) P P' →
        Continues (.of P.shared.store.rows) (.of P'.shared.store.rows)) ∧
      OneAnswer callees P := by
  have hstart : (authRules cfg callees (fun _ _ : World auth C => True) False).spec.Good
      (Ended cfg callees fun _ => False) (AuthCallee.start C cfg users clock callees) :=
    auth_good (fun h => h.elim) (fun _ _ _ _ h => h.elim) users clock
  have hgood := hstart.reach closed_auth hr
  refine ⟨hgood.inv.2.linear, fun P' hr' => (auth_later hgood hr').continues, ?_⟩
  intro i j hotStore hotStore' command command' pair pair' hi hj htoken hpi hpj
  have hendi := hgood.result (i := i) (r := .ok (.pair pair)) hpi
  have hendj := hgood.result (i := j) (r := .ok (.pair pair')) hpj
  obtain ⟨c, hm, hhash, hs, payload, restored, hpay, hrestore, hvalid⟩ :=
    (hendi hotStore command hi).1 pair rfl
  obtain ⟨c', hm', hhash', hs', payload', restored', hpay', hrestore', hvalid'⟩ :=
    (hendj hotStore' command' hj).1 pair' rfl
  obtain ⟨hidentity, rfl⟩ :=
    hgood.inv.2.one_success hinj hi hj htoken hm hm' hhash hhash' hs hs'
  -- one payload, one context, one pair
  rw [hpay] at hpay'
  cases hpay'
  rw [← hidentity, ← hhash', hhash, hrestore] at hrestore'
  cases hrestore'
  rw [hvalid] at hvalid'
  exact Except.ok.inj hvalid'

namespace Sample

/-- Stands in for SHA-256 on the few texts of the samples. -/
def sha256 (text : String) : Digest :=
  digest (UInt8.ofNat (text.toList.foldl (fun n c => n + c.toNat) 0))

/-- A protector that leaves the payload readable. -/
def protector : ReplayResultProtector where
  protect _ payload _ := payload.map fun field => (field.1, .str field.2)
  restore envelope _ := .ok (envelope.filterMap fun field =>
    match field.2 with
    | .str value => some (field.1, value)
    | _ => none)

def authConfig : AuthConfig := ⟨sha256, protector, 1000000, ⟨1, Nat.one_pos⟩, 30⟩

def account : User := ⟨1, "user@example.org", "hash", .user, .active, 0, none⟩

/-- A login, a refresh of its token, and a retry of that refresh. -/
def retried : Nat → Option AuthCallee
  | 0 => some (.login ⟨"user@example.org", "password"⟩)
  | 1 => some (.refresh false ⟨"r1", digest 1⟩)
  | 2 => some (.refresh false ⟨"r1", digest 1⟩)
  | _ => none

/-- An outside that verifies every password and draws this id and this token. -/
def issuing (id : Uuid) (refreshToken : String) : Choice auth :=
  .ext fun
    | .verify _ _ => true
    | .hash _ => ""
    | .accessToken _ _ _ => "access"
    | .refreshToken => refreshToken
    | .uuid7 => id
    | .nonce => []

/-- The outside answers in the given order; everything else goes well. -/
def answered (i : Nat) (choices : List (Choice auth)) : List (machine auth codec).Label :=
  choices.map (.act i)

/-- Nothing fails `n` times. -/
def going (n : Nat) : List (Choice auth) := List.replicate n (.fate .go)

/-- The token "r1" of session 5 is token 6. -/
def loggedIn : List (machine auth codec).Label :=
  answered 0 (going 3 ++ [issuing 0 ""] ++ going 2 ++
    [issuing 0 "", issuing 0 "r1", issuing 5 "", issuing 6 ""] ++ going 4)

/-- Its replacement is token 7, "r2". -/
def refreshed : List (machine auth codec).Label :=
  answered 1 (going 8 ++ [issuing 0 "", issuing 0 "r2", issuing 7 ""] ++ going 6 ++
    [issuing 0 ""] ++ going 8)

/-- A retry that finds the record. -/
def replayed : List (machine auth codec).Label := answered 2 (going 9)

theorem sha256_injOn : Set.InjOn authConfig.sha256 (fingerprints authConfig retried) := by
  have hone : ∀ text, text ∈ fingerprints authConfig retried →
      text = refreshFingerprint (authConfig.digest "r1") := by
    rintro text ⟨i, hotStore, command, hi, rfl⟩
    match i, hi with
    | 1, hi =>
        cases hi
        rfl
    | 2, hi =>
        cases hi
        rfl
  intro a ha b hb _
  rw [hone a ha, hone b hb]

/-- Both refreshes return the same pair. -/
def Retried (P : Config (sig auth) Exn (World auth codec) AuthAnswer) : Prop :=
  (machine auth codec).run (fun _ _ => true)
      (AuthCallee.start codec authConfig [account] 5 retried)
      (loggedIn ++ refreshed ++ replayed) = some P ∧
    P.pool 1 = some (.ret (.pair ⟨"access", "r2", "bearer"⟩)) ∧
    P.pool 2 = some (.ret (.pair ⟨"access", "r2", "bearer"⟩))

set_option maxRecDepth 4000 in
theorem exists_retried : ∃ P, Retried P := ⟨_, rfl, rfl, rfl⟩

end Sample

theorem refresh_families_linear_retried :
    ∃ P, Sample.Retried P ∧ LinearFamilies P.shared ∧
      (∀ P', (machine auth Sample.codec).Reach (fun _ _ => True) P P' →
        Continues (.of P.shared.store.rows) (.of P'.shared.store.rows)) ∧
      OneAnswer Sample.retried P := by
  obtain ⟨P, hP⟩ := Sample.exists_retried
  refine ⟨P, hP, refresh_families_linear [Sample.account] 5 Sample.sha256_injOn ?_⟩
  exact Machine.reach_of_run _ (fun _ _ _ => trivial) _ _ _ hP.1

end IdentityService
