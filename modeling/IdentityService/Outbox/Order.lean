import Mathlib.Logic.Relation
import Mathlib.Data.List.Nodup
import IdentityService.Outbox.Repository

/-!
# Messages of one key keep their order

Any number of relay workers, with any leases, retries, redrives and
cleanups, each statement atomic. No two messages of a key are ever claimed
at once, none overtakes an earlier one, and a key never steps back behind a
message that has been claimed.

The last part is the delicate one. `redrive_quarantined` looks only at rows
that EXIST, so it would revive an early quarantined message if cleanup
could remove the later ones first. It cannot: cleanup removes by
`terminal_at`, and along a key `terminal_at` grows with the position.
-/

namespace IdentityService

open Concurrent

/-! ## Runs -/

/-- The table, the shared clock, and history: every row published, the
instant at which each owner's claim ran, and every row a claim returned. -/
structure OutboxState where
  rows : List OutboxMessage
  clock : Time
  published : List OutboxMessage
  claimedOn : Uuid → Option Time
  claims : List OutboxMessage

/-- A statement of the repository, or time passing. Statements are atomic, so
a cleanup finds no locked row to skip; a claim may skip any rows. -/
inductive OutboxCall where
  | tick (elapsed : Nat)
  | publish (topic : String) (event : IntegrationEvent)
  | claimBatch (locked : Uuid → Bool) (ownerToken : Uuid) (claimedAt claimExpiresAt : Time)
      (limit : Int)
  | finalizePublished (messageId ownerToken : Uuid) (publishedAt : Time)
  | scheduleRetry (messageId ownerToken : Uuid) (availableAt : Time) (errorClass : String)
  | quarantine (messageId ownerToken : Uuid) (quarantinedAt : Time) (errorClass : String)
  | redriveQuarantined (messageId : Uuid) (availableAt : Time)
  | deleteTerminalBefore (terminalAt : Time) (limit : Int)

namespace OutboxState

def start (clock : Time) : OutboxState := ⟨[], clock, [], fun _ => none, []⟩

/-- One call; a call that raises changes nothing. -/
def step (s : OutboxState) : OutboxCall → OutboxState
  | .tick d => { s with clock := s.clock + d }
  | .publish topic event =>
    match Outbox.publish s.rows topic event with
    | .ok rows => { s with rows := rows, published := s.published ++ rows.drop s.rows.length }
    | .error _ => s
  | .claimBatch locked ownerToken claimedAt claimExpiresAt limit =>
    match Outbox.claimBatch s.rows locked ownerToken claimedAt claimExpiresAt limit with
    | .ok (batch, rows) =>
      { s with
        rows := rows
        claimedOn := Function.update s.claimedOn ownerToken (some s.clock)
        claims := s.claims ++ batch }
    | .error _ => s
  | .finalizePublished messageId ownerToken publishedAt =>
    { s with rows := (Outbox.finalizePublished s.rows messageId ownerToken publishedAt).2 }
  | .scheduleRetry messageId ownerToken availableAt errorClass =>
    { s with rows := (Outbox.scheduleRetry s.rows messageId ownerToken availableAt errorClass).2 }
  | .quarantine messageId ownerToken quarantinedAt errorClass =>
    { s with rows := (Outbox.quarantine s.rows messageId ownerToken quarantinedAt errorClass).2 }
  | .redriveQuarantined messageId availableAt =>
    { s with rows := (Outbox.redriveQuarantined s.rows messageId availableAt).2 }
  | .deleteTerminalBefore terminalAt limit =>
    match Outbox.deleteTerminalBefore s.rows terminalAt limit with
    | .ok (_, rows) => { s with rows := rows }
    | .error _ => s

/-- An instant that owner `token` may stamp on a finished row: it reads the
clock after its claim and before its write. -/
def Stamp (s : OutboxState) (token : Uuid) (time : Time) : Prop :=
  time ≤ s.clock ∧ ∀ claimed, s.claimedOn token = some claimed → claimed ≤ time

/-- What callers keep to: the rows of one key are published in strictly
increasing position, every claim has a token of its own, and a finished row
is stamped from the clock. -/
def Allowed (s : OutboxState) : OutboxCall → Prop
  | .publish _ event => ∀ m ∈ s.published, m.key = event.partitionKey →
      m.createdAt < event.occurredAt ∨ (m.createdAt = event.occurredAt ∧ m.id < event.eventId)
  | .claimBatch _ ownerToken _ _ _ => s.claimedOn ownerToken = none
  | .finalizePublished _ ownerToken publishedAt => s.Stamp ownerToken publishedAt
  | .quarantine _ ownerToken quarantinedAt _ => s.Stamp ownerToken quarantinedAt
  | _ => True

/-- Runs of any length. -/
def Reach : OutboxState → OutboxState → Prop :=
  Relation.ReflTransGen fun s s' => ∃ c, s.Allowed c ∧ s' = s.step c

/-- Every call of the list is made in order. -/
def AllowedAll : OutboxState → List OutboxCall → Prop
  | _, [] => True
  | s, c :: l => s.Allowed c ∧ AllowedAll (s.step c) l

theorem reach_of_allowed {s : OutboxState} {l : List OutboxCall} (h : s.AllowedAll l) :
    Reach s (l.foldl step s) := by
  induction l generalizing s with
  | nil => exact .refl
  | cons c l ih => exact .head ⟨c, h.1, rfl⟩ (ih h.2)

end OutboxState

/-- What is promised of every reachable state. -/
structure OrderKept (s : OutboxState) : Prop where
  /-- A batch holds at most one message of each key. -/
  distinctKeys : ∀ locked ownerToken claimedAt claimExpiresAt limit batch rows,
    Outbox.claimBatch s.rows locked ownerToken claimedAt claimExpiresAt limit = .ok (batch, rows) →
    batch.Pairwise fun a b => a.key ≠ b.key
  /-- At most one message of a key is claimed. -/
  oneClaim : ∀ x ∈ s.rows, ∀ y ∈ s.rows, x.status = .claimed → y.status = .claimed →
    x.key = y.key → x = y
  /-- Everything before it is finished, or gone. -/
  earlierDone : ∀ x ∈ s.rows, ∀ y ∈ s.rows, y.status = .claimed → x.key = y.key →
    x.earlier y = true → x.terminal = true
  /-- No claim goes back behind a message claimed before. -/
  neverBack : ∀ locked ownerToken claimedAt claimExpiresAt limit batch rows,
    Outbox.claimBatch s.rows locked ownerToken claimedAt claimExpiresAt limit = .ok (batch, rows) →
    ∀ m ∈ batch, ∀ p ∈ s.claims, p.key = m.key → m.earlier p = false

/-! ## Positions -/

namespace OutboxMessage

variable {a b c : OutboxMessage}

/-- The columns no statement changes. -/
def Same (a b : OutboxMessage) : Prop := a.id = b.id ∧ a.key = b.key ∧ a.createdAt = b.createdAt

theorem Same.refl (a : OutboxMessage) : Same a a := ⟨rfl, rfl, rfl⟩

theorem Same.symm (h : Same a b) : Same b a := ⟨h.1.symm, h.2.1.symm, h.2.2.symm⟩

theorem Same.trans (h : Same a b) (h' : Same b c) : Same a c :=
  ⟨h.1.trans h'.1, h.2.1.trans h'.2.1, h.2.2.trans h'.2.2⟩

theorem earlier_iff : a.earlier b = true ↔
    a.createdAt < b.createdAt ∨ (a.createdAt = b.createdAt ∧ a.id < b.id) := by
  simp [earlier]

theorem earlier_same (ha : Same a b) : a.earlier c = b.earlier c := by
  simp [earlier, ha.1, ha.2.2]

theorem earlier_same_right (hb : Same a b) : c.earlier a = c.earlier b := by
  simp [earlier, hb.1, hb.2.2]

theorem not_earlier_of_same (h : Same a b) : a.earlier b = false := by
  simp [earlier, h.1, h.2.2]

/-- Two rows are in order, or at one position. -/
theorem earlier_total (h : a.earlier b = false) (h' : b.earlier a = false) : a.id = b.id := by
  rw [← Bool.not_eq_true, earlier_iff] at h h'
  lia

theorem terminalEarlier_iff : a.terminalEarlier b = true ↔
    a.terminalAt.getD 0 < b.terminalAt.getD 0 ∨
      (a.terminalAt.getD 0 = b.terminalAt.getD 0 ∧ a.earlier b = true) := by
  simp [terminalEarlier]

theorem terminalLe_total (a b : OutboxMessage) : (terminalLe a b || terminalLe b a) = true := by
  by_cases h : b.terminalEarlier a = true
  · have h' : a.terminalEarlier b = false := by
      rw [terminalEarlier_iff, earlier_iff] at h
      rw [← Bool.not_eq_true, terminalEarlier_iff, earlier_iff]
      lia
    simp [terminalLe, h']
  · simp [terminalLe, h]

theorem terminalLe_trans (a b c : OutboxMessage) (h : terminalLe a b = true)
    (h' : terminalLe b c = true) : terminalLe a c = true := by
  simp only [terminalLe, Bool.not_eq_true', ← Bool.not_eq_true, terminalEarlier_iff,
    earlier_iff] at *
  lia

/-- A claimable row is not finished. -/
theorem eligible_open {t : Time} (h : a.eligible t = true) : a.terminal = false := by
  simp only [eligible, Bool.or_eq_true, Bool.and_eq_true, decide_eq_true_eq] at h
  rcases h with ⟨h, -⟩ | ⟨h, -⟩
  · simp [terminal, h]
  · simp [terminal, h]

theorem open_iff : a.terminal = false ↔ (a.status = .pending ∨ a.status = .claimed) := by
  cases h : a.status <;> simp [terminal, h]

end OutboxMessage

/-! ## The invariant -/

/-- `x` was finished before `y` could be: before the claim that `y` is under,
and no later than `y` itself. -/
def FinishedBy (s : OutboxState) (x y : OutboxMessage) : Prop :=
  (∀ token claimed, y.status = .claimed → y.claimToken = some token →
    s.claimedOn token = some claimed → x.terminalAt.getD 0 ≤ claimed) ∧
  (y.terminal = true → x.terminalAt.getD 0 ≤ y.terminalAt.getD 0)

/-- The invariant of the outbox: what its rows, its claims and its clock have
to do with each other. -/
structure OrderInv (s : OutboxState) : Prop where
  ids : (s.rows.map OutboxMessage.id).Nodup
  known : ∀ x ∈ s.rows, ∃ m ∈ s.published, m.Same x
  claimsKnown : ∀ p ∈ s.claims, ∃ m ∈ s.published, m.Same p
  clock : ∀ x ∈ s.rows, x.terminalAt.getD 0 ≤ s.clock
  stamped : ∀ x ∈ s.rows, x.terminal = true → x.terminalAt.isSome
  issued : ∀ x ∈ s.rows, x.status = .claimed →
    ∃ token claimed, x.claimToken = some token ∧ s.claimedOn token = some claimed
  recorded : ∀ x ∈ s.rows, x.status = .claimed → ∃ p ∈ s.claims, p.Same x
  /-- Behind a claimed message everything that is left is finished, and as
  long as anything is left the message itself is. -/
  behind : ∀ p ∈ s.claims, ∀ x ∈ s.rows, x.key = p.key → x.earlier p = true →
    x.terminal = true ∧ ∃ y ∈ s.rows, y.Same p ∧ FinishedBy s x y

namespace OrderInv

variable {s : OutboxState}

theorem start (clock : Time) : OrderInv (.start clock) := by
  refine ⟨.nil, ?_, ?_, ?_, ?_, ?_, ?_, ?_⟩
  all_goals simp [OutboxState.start]

/-- Rows are told apart by their id. -/
theorem eq_of_id (h : OrderInv s) {x y : OutboxMessage} (hx : x ∈ s.rows) (hy : y ∈ s.rows)
    (hid : x.id = y.id) : x = y :=
  List.inj_on_of_nodup_map h.ids hx hy hid

/-- An open row has nothing claimed after it. -/
theorem front_of_open (h : OrderInv s) {x : OutboxMessage} (hx : x ∈ s.rows)
    (hopen : x.terminal = false) {p : OutboxMessage} (hp : p ∈ s.claims) (hkey : x.key = p.key) :
    x.earlier p = false := by
  cases he : x.earlier p with
  | false => rfl
  | true =>
      have hterm := (h.behind p hp x hx hkey he).1
      rw [hopen] at hterm
      cases hterm

/-- A statement that rewrites rows with nothing claimed after them, and
claims none. -/
theorem update (h : OrderInv s) {p : OutboxMessage → Bool} {f : OutboxMessage → OutboxMessage}
    (hsame : ∀ x, (f x).Same x)
    (hclock : ∀ x ∈ s.rows, p x = true → (f x).terminalAt.getD 0 ≤ s.clock)
    (hstamp : ∀ x, (f x).terminal = true → (f x).terminalAt.isSome)
    (hopen : ∀ x, (f x).status ≠ .claimed)
    (hfront : ∀ x ∈ s.rows, p x = true → ∀ q ∈ s.claims, x.key = q.key → x.earlier q = false)
    (hbound : ∀ x ∈ s.rows, ∀ y ∈ s.rows, p y = true → FinishedBy s x y →
      FinishedBy s x (f y)) :
    OrderInv { s with rows := Table.update p f s.rows } where
  ids := by
    rw [Table.map_update OutboxMessage.id fun x => (hsame x).1]
    exact h.ids
  known x' hx' := by
    obtain ⟨x, hx, ⟨-, rfl⟩ | ⟨-, rfl⟩⟩ := Table.mem_update.mp hx'
    · obtain ⟨m, hm, hmx⟩ := h.known x hx
      exact ⟨m, hm, hmx.trans (hsame x).symm⟩
    · exact h.known _ hx
  claimsKnown := h.claimsKnown
  clock x' hx' := by
    obtain ⟨x, hx, ⟨hp, rfl⟩ | ⟨-, rfl⟩⟩ := Table.mem_update.mp hx'
    · exact hclock x hx hp
    · exact h.clock _ hx
  stamped x' hx' := by
    obtain ⟨x, hx, ⟨-, rfl⟩ | ⟨-, rfl⟩⟩ := Table.mem_update.mp hx'
    · exact hstamp x
    · exact h.stamped _ hx
  issued x' hx' hcl := by
    obtain ⟨x, hx, ⟨-, rfl⟩ | ⟨-, rfl⟩⟩ := Table.mem_update.mp hx'
    · exact absurd hcl (hopen x)
    · exact h.issued _ hx hcl
  recorded x' hx' hcl := by
    obtain ⟨x, hx, ⟨-, rfl⟩ | ⟨-, rfl⟩⟩ := Table.mem_update.mp hx'
    · exact absurd hcl (hopen x)
    · exact h.recorded _ hx hcl
  behind q hq x' hx' hkey he := by
    obtain ⟨x, hx, ⟨hp, rfl⟩ | ⟨-, rfl⟩⟩ := Table.mem_update.mp hx'
    · rw [OutboxMessage.earlier_same (hsame x)] at he
      rw [(hsame x).2.1] at hkey
      rw [hfront x hx hp q hq hkey] at he
      cases he
    · obtain ⟨hterm, y, hy, hyq, hfin⟩ := h.behind q hq _ hx hkey he
      refine ⟨hterm, ?_⟩
      cases hpy : p y with
      | true =>
          exact ⟨f y, Table.mem_update.mpr ⟨y, hy, .inl ⟨hpy, rfl⟩⟩, (hsame y).trans hyq,
            hbound _ hx y hy hpy hfin⟩
      | false => exact ⟨y, Table.mem_update.mpr ⟨y, hy, .inr ⟨hpy, rfl⟩⟩, hyq, hfin⟩

theorem ownedBy_iff {messageId token : Uuid} {m : OutboxMessage} :
    m.ownedBy messageId token = true ↔
      m.id = messageId ∧ m.status = .claimed ∧ m.claimToken = some token := by
  simp [OutboxMessage.ownedBy, and_assoc]

/-- Finishing a claimed row, one way or another. -/
theorem finish (h : OrderInv s) {messageId token : Uuid} {f : OutboxMessage → OutboxMessage}
    (hsame : ∀ x, (f x).Same x) (hopen : ∀ x, (f x).status ≠ .claimed)
    (hstamp : ∀ x, (f x).terminal = true → ∃ time, (f x).terminalAt = some time ∧
      s.Stamp token time)
    (hpend : ∀ x, (f x).terminal = false → (f x).terminalAt = none) :
    OrderInv { s with rows := (Outbox.finish s.rows messageId token f).2 } := by
  refine h.update hsame (fun x hx _ => ?_) (fun x hterm => ?_) hopen (fun x hx hp q hq hkey => ?_)
    fun x hx y hy hp hfin => ?_
  · cases hterm : (f x).terminal with
    | true =>
        obtain ⟨time, htime, hs⟩ := hstamp x hterm
        rw [htime]
        exact hs.1
    | false =>
        rw [hpend x hterm]
        exact Nat.zero_le _
  · obtain ⟨time, htime, -⟩ := hstamp x hterm
    rw [htime]
    rfl
  · refine h.front_of_open hx ?_ hq hkey
    rw [OutboxMessage.open_iff]
    exact .inr (ownedBy_iff.mp hp).2.1
  · refine ⟨fun _ _ hcl => absurd hcl (hopen y), fun hterm => ?_⟩
    -- the stamp is not before the claim, and the claim not before `x`
    obtain ⟨-, hcl, htok⟩ := ownedBy_iff.mp hp
    obtain ⟨time, htime, hs⟩ := hstamp y hterm
    obtain ⟨token', claimed, htok', hclaimed⟩ := h.issued y hy hcl
    rw [htok] at htok'
    cases htok'
    rw [htime]
    exact Nat.le_trans (hfin.1 token claimed hcl htok hclaimed) (hs.2 claimed hclaimed)

theorem redrive (h : OrderInv s) (messageId : Uuid) (availableAt : Time) :
    OrderInv { s with rows := (Outbox.redriveQuarantined s.rows messageId availableAt).2 } := by
  refine h.update (fun _ => ⟨rfl, rfl, rfl⟩) (fun _ _ _ => Nat.zero_le _)
    (fun x hterm => by simp [OutboxMessage.terminal] at hterm) (fun x => by simp)
    (fun x hx hp q hq hkey => ?_) fun x _ y _ _ _ => ?_
  · -- a message claimed after `x` is still in the table, so the guard fails
    cases he : x.earlier q with
    | false => rfl
    | true =>
        obtain ⟨-, y, hy, hyq, -⟩ := h.behind q hq x hx hkey he
        simp only [Bool.and_eq_true, decide_eq_true_eq, Bool.not_eq_true'] at hp
        have hlater : Outbox.laterExists s.rows messageId = true := by
          simp only [Outbox.laterExists, List.any_eq_true, Bool.and_eq_true, decide_eq_true_eq]
          refine ⟨x, hx, hp.1.1, y, hy, ?_, ?_⟩
          · rw [hyq.2.1, hkey]
          · rw [OutboxMessage.earlier_same_right hyq]
            exact he
        rw [hp.2] at hlater
        cases hlater
  · exact ⟨(fun _ _ hcl => nomatch hcl), (fun hterm => nomatch hterm)⟩

theorem publish (h : OrderInv s) {topic : String} {event : IntegrationEvent}
    (ha : s.Allowed (.publish topic event)) : OrderInv (s.step (.publish topic event)) := by
  simp only [OutboxState.step, Outbox.publish]
  split
  · rename_i rows hrows
    split at hrows
    · cases hrows
    · rename_i hfresh
      cases hrows
      have hdrop : ∀ m : OutboxMessage, (s.rows ++ [m]).drop s.rows.length = [m] := by
        intro m
        simp
      simp only [hdrop]
      refine ⟨?_, ?_, ?_, ?_, ?_, ?_, ?_, ?_⟩
      · rw [List.map_append, List.nodup_append]
        refine ⟨h.ids, by simp, ?_⟩
        intro a hma b hmb
        rw [List.map_cons, List.map_nil, List.mem_singleton] at hmb
        subst hmb
        rintro rfl
        obtain ⟨x, hx, hid⟩ := List.mem_map.mp hma
        exact hfresh (List.any_eq_true.mpr ⟨x, hx, by simpa using hid⟩)
      · intro x hx
        rcases List.mem_append.mp hx with hx | hx
        · obtain ⟨m, hm, hmx⟩ := h.known x hx
          exact ⟨m, List.mem_append_left _ hm, hmx⟩
        · exact ⟨x, List.mem_append_right _ hx, .refl x⟩
      · intro q hq
        obtain ⟨m, hm, hmq⟩ := h.claimsKnown q hq
        exact ⟨m, List.mem_append_left _ hm, hmq⟩
      · intro x hx
        rcases List.mem_append.mp hx with hx | hx
        · exact h.clock x hx
        · rw [List.mem_singleton] at hx
          subst hx
          exact Nat.zero_le _
      · intro x hx hterm
        rcases List.mem_append.mp hx with hx | hx
        · exact h.stamped x hx hterm
        · rw [List.mem_singleton] at hx
          subst hx
          cases hterm
      · intro x hx hcl
        rcases List.mem_append.mp hx with hx | hx
        · exact h.issued x hx hcl
        · rw [List.mem_singleton] at hx
          subst hx
          cases hcl
      · intro x hx hcl
        rcases List.mem_append.mp hx with hx | hx
        · exact h.recorded x hx hcl
        · rw [List.mem_singleton] at hx
          subst hx
          cases hcl
      · intro q hq x hx hkey he
        rcases List.mem_append.mp hx with hx | hx
        · obtain ⟨hterm, y, hy, hyq, hfin⟩ := h.behind q hq x hx hkey he
          exact ⟨hterm, y, List.mem_append_left _ hy, hyq, hfin⟩
        · -- the new row comes after everything published under its key
          rw [List.mem_singleton] at hx
          subst hx
          obtain ⟨m, hm, hmq⟩ := h.claimsKnown q hq
          have hbefore := ha m hm (by rw [hmq.2.1, ← hkey])
          rw [hmq.1, hmq.2.2] at hbefore
          rw [OutboxMessage.earlier_iff] at he
          simp only at he
          exfalso
          lia
  · exact h

/-- Cleanup takes whatever finished earlier along with a row. -/
theorem delete (h : OrderInv s) (terminalAt : Time) (limit : Int) :
    OrderInv (s.step (.deleteTerminalBefore terminalAt limit)) := by
  simp only [OutboxState.step, Outbox.deleteTerminalBefore]
  split
  · rename_i n rows hrows
    split at hrows
    · cases hrows
    · cases hrows
      have hsub : ∀ x, x ∈ s.rows.filter (fun m => !((Outbox.removable s.rows terminalAt
          limit.toNat).map OutboxMessage.id).contains m.id) → x ∈ s.rows :=
        fun x hx => (List.mem_filter.mp hx).1
      refine ⟨?_, ?_, h.claimsKnown, ?_, ?_, ?_, ?_, ?_⟩
      · exact h.ids.sublist ((List.filter_sublist).map _)
      · exact fun x hx => h.known x (hsub x hx)
      · exact fun x hx => h.clock x (hsub x hx)
      · exact fun x hx => h.stamped x (hsub x hx)
      · exact fun x hx => h.issued x (hsub x hx)
      · exact fun x hx => h.recorded x (hsub x hx)
      · intro q hq x hx hkey he
        obtain ⟨hterm, y, hy, hyq, hfin⟩ := h.behind q hq x (hsub x hx) hkey he
        refine ⟨hterm, y, List.mem_filter.mpr ⟨hy, ?_⟩, hyq, hfin⟩
        -- were `y` removed, `x` would come before it and go too
        cases hcon : ((Outbox.removable s.rows terminalAt limit.toNat).map
            OutboxMessage.id).contains y.id with
        | false => rfl
        | true =>
            obtain ⟨z, hz, hzy⟩ := List.mem_map.mp (List.contains_iff_mem.mp hcon)
            obtain ⟨hzrows, hzp⟩ := Table.mem_select hz
            obtain rfl := h.eq_of_id hzrows hy hzy
            simp only [Bool.and_eq_true] at hzp
            have hxy : x.terminalAt.getD 0 ≤ z.terminalAt.getD 0 := hfin.2 hzp.1
            obtain ⟨tz, htz⟩ := Option.isSome_iff_exists.mp (h.stamped z hzrows hzp.1)
            obtain ⟨tx, htx⟩ := Option.isSome_iff_exists.mp (h.stamped x (hsub x hx) hterm)
            have hcut : tz < terminalAt := by simpa [htz] using hzp.2
            rw [htx, htz] at hxy
            simp only [Option.getD_some] at hxy
            have hcand : (x.terminal && x.terminalAt.any (· < terminalAt)) = true := by
              simp only [hterm, htx, Option.any_some, Bool.true_and, decide_eq_true_eq]
              exact Nat.lt_of_le_of_lt hxy hcut
            have hbefore : OutboxMessage.terminalLe z x = false := by
              have hez : x.earlier z = true := by
                rw [OutboxMessage.earlier_same_right hyq]
                exact he
              simp only [OutboxMessage.terminalLe, Bool.not_eq_false']
              rw [OutboxMessage.terminalEarlier_iff, htx, htz]
              simp only [Option.getD_some]
              rcases Nat.lt_or_eq_of_le hxy with hlt | heq
              · exact .inl hlt
              · exact .inr ⟨heq, hez⟩
            have hxsel := Table.select_before OutboxMessage.terminalLe_trans
              OutboxMessage.terminalLe_total hz (hsub x hx) hcand hbefore
            have hgone : ((Outbox.removable s.rows terminalAt limit.toNat).map
                OutboxMessage.id).contains x.id = true :=
              List.contains_iff_mem.mpr (List.mem_map.mpr ⟨x, hxsel, rfl⟩)
            have hkeep := (List.mem_filter.mp hx).2
            rw [hgone] at hkeep
            cases hkeep
  · exact h

theorem tick (h : OrderInv s) (d : Nat) : OrderInv (s.step (.tick d)) where
  ids := h.ids
  known := h.known
  claimsKnown := h.claimsKnown
  clock x hx := Nat.le_trans (h.clock x hx) (Nat.le_add_right _ _)
  stamped := h.stamped
  issued := h.issued
  recorded := h.recorded
  behind := h.behind

/-! ### Claims -/

section Claims

variable {locked : Uuid → Bool} {token : Uuid} {time expires : Time} {limit : Int}
  {batch rows : List OutboxMessage}

/-- The rows a claim takes, by the ids it selected. -/
def picked (rows : List OutboxMessage) (locked : Uuid → Bool) (time : Time) (limit : Int)
    (m : OutboxMessage) : Bool :=
  ((Outbox.claimable rows locked time limit.toNat).map OutboxMessage.id).contains m.id

theorem claimBatch_cases
    (hc : Outbox.claimBatch s.rows locked token time expires limit = .ok (batch, rows)) :
    batch = ((s.rows.filter (picked s.rows locked time limit)).map (.claim token expires)).mergeSort
        OutboxMessage.positionLe ∧
      rows = Table.update (picked s.rows locked time limit) (.claim token expires) s.rows := by
  simp only [Outbox.claimBatch] at hc
  split at hc
  · cases hc
  · split at hc
    · cases hc
    · cases hc
      exact ⟨rfl, rfl⟩

theorem mem_batch
    (hc : Outbox.claimBatch s.rows locked token time expires limit = .ok (batch, rows))
    {m : OutboxMessage} (hm : m ∈ batch) :
    ∃ z ∈ s.rows, picked s.rows locked time limit z = true ∧ m = z.claim token expires := by
  rw [(claimBatch_cases hc).1, List.mem_mergeSort, List.mem_map] at hm
  obtain ⟨z, hz, rfl⟩ := hm
  rw [List.mem_filter] at hz
  exact ⟨z, hz.1, hz.2, rfl⟩

/-- A row is taken only when it is open, and first among the open rows of its key. -/
theorem picked_open {table : List OutboxMessage} (hn : (table.map OutboxMessage.id).Nodup)
    {z : OutboxMessage} (hz : z ∈ table) (hp : picked table locked time limit z = true) :
    z.terminal = false ∧
      ∀ x ∈ table, x.key = z.key → x.earlier z = true → x.terminal = true := by
  obtain ⟨z', hz', hid⟩ := List.mem_map.mp (List.contains_iff_mem.mp hp)
  obtain ⟨hmem, hcond⟩ := Table.mem_select hz'
  have hsame : z' = z := List.inj_on_of_nodup_map hn hmem hz hid
  subst hsame
  simp only [Bool.and_eq_true, Bool.not_eq_true'] at hcond
  refine ⟨OutboxMessage.eligible_open hcond.1.1, fun x hx hkey he => ?_⟩
  cases hterm : x.terminal with
  | true => rfl
  | false =>
      have hany : z'.hasEarlierNonterminal table = true := by
        simp only [OutboxMessage.hasEarlierNonterminal, List.any_eq_true, Bool.and_eq_true,
          Bool.or_eq_true, decide_eq_true_eq]
        exact ⟨x, hx, ⟨hkey, OutboxMessage.open_iff.mp hterm⟩, he⟩
      rw [hany] at hcond
      exact nomatch hcond.1.2

/-- So no two rows of one key are taken together. -/
theorem picked_unique (h : OrderInv s) {x z : OutboxMessage} (hx : x ∈ s.rows) (hz : z ∈ s.rows)
    (hpx : picked s.rows locked time limit x = true)
    (hpz : picked s.rows locked time limit z = true)
    (hkey : x.key = z.key) : x = z := by
  have hxz : x.earlier z = false := by
    cases he : x.earlier z with
    | false => rfl
    | true =>
        have hterm := (picked_open h.ids hz hpz).2 x hx hkey he
        rw [(picked_open h.ids hx hpx).1] at hterm
        cases hterm
  have hzx : z.earlier x = false := by
    cases he : z.earlier x with
    | false => rfl
    | true =>
        have hterm := (picked_open h.ids hx hpx).2 z hz hkey.symm he
        rw [(picked_open h.ids hz hpz).1] at hterm
        cases hterm
  exact h.eq_of_id hx hz (OutboxMessage.earlier_total hxz hzx)

/-- Whatever is finished now is finished by the time of the claim. -/
theorem finishedBy_claim (h : OrderInv s) {x y : OutboxMessage} (hx : x ∈ s.rows) :
    FinishedBy { s with claimedOn := Function.update s.claimedOn token (some s.clock) } x
      (y.claim token expires) := by
  refine ⟨?_, fun hterm => nomatch hterm⟩
  intro token' claimed _ htok hclaimed
  have htok' : some token = some token' := htok
  cases htok'
  have hnow : some s.clock = some claimed := by simpa using hclaimed
  cases hnow
  exact h.clock x hx

/-- A new token leaves older claims alone. -/
theorem claimedOn_of_issued (hfresh : s.claimedOn token = none) {token' : Uuid} {claimed : Time}
    (hold : s.claimedOn token' = some claimed) :
    Function.update s.claimedOn token (some s.clock) token' = some claimed := by
  rw [Function.update_of_ne _]
  · exact hold
  · rintro rfl
    rw [hfresh] at hold
    cases hold

theorem finishedBy_old (h : OrderInv s) (hfresh : s.claimedOn token = none)
    {x y : OutboxMessage} (hy : y ∈ s.rows) (hfin : FinishedBy s x y) :
    FinishedBy { s with claimedOn := Function.update s.claimedOn token (some s.clock) } x y := by
  refine ⟨?_, hfin.2⟩
  intro token' claimed hcl htok hclaimed
  obtain ⟨issued, claimed', htok', hold⟩ := h.issued y hy hcl
  rw [htok] at htok'
  cases htok'
  obtain rfl : claimed' = claimed :=
    Option.some.inj ((claimedOn_of_issued hfresh hold).symm.trans hclaimed)
  exact hfin.1 token' claimed' hcl htok hold

theorem claim (h : OrderInv s) (ha : s.Allowed (.claimBatch locked token time expires limit)) :
    OrderInv (s.step (.claimBatch locked token time expires limit)) := by
  simp only [OutboxState.step]
  split
  · rename_i batch rows hc
    obtain ⟨rfl, rfl⟩ := claimBatch_cases hc
    have hsame : ∀ x : OutboxMessage, (x.claim token expires).Same x := fun _ => ⟨rfl, rfl, rfl⟩
    refine ⟨?_, ?_, ?_, ?_, ?_, ?_, ?_, ?_⟩
    · rw [Table.map_update OutboxMessage.id fun x => (hsame x).1]
      exact h.ids
    · intro x' hx'
      obtain ⟨x, hx, ⟨-, rfl⟩ | ⟨-, rfl⟩⟩ := Table.mem_update.mp hx'
      · obtain ⟨m, hm, hmx⟩ := h.known x hx
        exact ⟨m, hm, hmx.trans (hsame x).symm⟩
      · exact h.known _ hx
    · intro q hq
      rcases List.mem_append.mp hq with hq | hq
      · exact h.claimsKnown q hq
      · obtain ⟨z, hz, -, rfl⟩ := mem_batch hc hq
        obtain ⟨m, hm, hmz⟩ := h.known z hz
        exact ⟨m, hm, hmz.trans (hsame z).symm⟩
    · intro x' hx'
      obtain ⟨x, hx, ⟨-, rfl⟩ | ⟨-, rfl⟩⟩ := Table.mem_update.mp hx'
      · exact Nat.zero_le _
      · exact h.clock _ hx
    · intro x' hx' hterm
      obtain ⟨x, hx, ⟨-, rfl⟩ | ⟨-, rfl⟩⟩ := Table.mem_update.mp hx'
      · cases hterm
      · exact h.stamped _ hx hterm
    · intro x' hx' hcl
      obtain ⟨x, hx, ⟨-, rfl⟩ | ⟨-, rfl⟩⟩ := Table.mem_update.mp hx'
      · exact ⟨token, s.clock, rfl, by simp⟩
      · obtain ⟨token', claimed, htok, hold⟩ := h.issued _ hx hcl
        exact ⟨token', claimed, htok, claimedOn_of_issued ha hold⟩
    · intro x' hx' hcl
      obtain ⟨x, hx, ⟨hp, rfl⟩ | ⟨-, rfl⟩⟩ := Table.mem_update.mp hx'
      · refine ⟨x.claim token expires, List.mem_append_right _ ?_, .refl _⟩
        rw [List.mem_mergeSort]
        exact List.mem_map.mpr ⟨x, List.mem_filter.mpr ⟨hx, hp⟩, rfl⟩
      · obtain ⟨p, hp, hpx⟩ := h.recorded _ hx hcl
        exact ⟨p, List.mem_append_left _ hp, hpx⟩
    · intro q hq x' hx' hkey he
      obtain ⟨x, hx, ⟨hpx, rfl⟩ | ⟨-, rfl⟩⟩ := Table.mem_update.mp hx'
      · -- nothing was claimed after a row that is taken now, and nothing is with it
        exfalso
        rw [OutboxMessage.earlier_same (hsame x)] at he
        rw [(hsame x).2.1] at hkey
        rcases List.mem_append.mp hq with hq | hq
        · rw [h.front_of_open hx (picked_open h.ids hx hpx).1 hq hkey] at he
          cases he
        · obtain ⟨z, hz, hpz, rfl⟩ := mem_batch hc hq
          obtain rfl := h.picked_unique hx hz hpx hpz hkey
          rw [OutboxMessage.not_earlier_of_same (hsame x).symm] at he
          cases he
      · rcases List.mem_append.mp hq with hq | hq
        · obtain ⟨hterm, y, hy, hyq, hfin⟩ := h.behind q hq _ hx hkey he
          refine ⟨hterm, ?_⟩
          cases hpy : picked s.rows locked time limit y with
          | true =>
              exact ⟨_, Table.mem_update.mpr ⟨y, hy, .inl ⟨hpy, rfl⟩⟩, (hsame y).trans hyq,
                h.finishedBy_claim hx⟩
          | false =>
              exact ⟨y, Table.mem_update.mpr ⟨y, hy, .inr ⟨hpy, rfl⟩⟩, hyq,
                h.finishedBy_old ha hy hfin⟩
        · obtain ⟨z, hz, hpz, rfl⟩ := mem_batch hc hq
          rw [OutboxMessage.earlier_same_right (hsame z)] at he
          exact ⟨(picked_open h.ids hz hpz).2 _ hx hkey he, _,
            Table.mem_update.mpr ⟨z, hz, .inl ⟨hpz, rfl⟩⟩, .refl _, h.finishedBy_claim hx⟩
  · exact h

end Claims

/-! ### Every call -/

theorem step (h : OrderInv s) {c : OutboxCall} (ha : s.Allowed c) : OrderInv (s.step c) := by
  cases c with
  | tick d => exact h.tick d
  | publish topic event => exact h.publish ha
  | claimBatch locked token time expires limit => exact h.claim ha
  | finalizePublished messageId token publishedAt =>
      refine h.finish (fun _ => ⟨rfl, rfl, rfl⟩) (fun _ => by simp) (fun _ _ => ⟨_, rfl, ha⟩) ?_
      exact fun _ hterm => nomatch hterm
  | scheduleRetry messageId token availableAt errorClass =>
      refine h.finish (fun _ => ⟨rfl, rfl, rfl⟩) (fun _ => by simp) ?_ fun _ _ => rfl
      exact fun _ hterm => nomatch hterm
  | quarantine messageId token quarantinedAt errorClass =>
      refine h.finish (fun _ => ⟨rfl, rfl, rfl⟩) (fun _ => by simp) (fun _ _ => ⟨_, rfl, ha⟩) ?_
      exact fun _ hterm => nomatch hterm
  | redriveQuarantined messageId availableAt => exact h.redrive messageId availableAt
  | deleteTerminalBefore terminalAt limit => exact h.delete terminalAt limit

theorem reach {s' : OutboxState} (h : OrderInv s) (hr : OutboxState.Reach s s') : OrderInv s' := by
  induction hr with
  | refl => exact h
  | tail _ hstep ih =>
      obtain ⟨c, ha, rfl⟩ := hstep
      exact ih.step ha

/-! ### What it gives -/

theorem batch_keys (h : OrderInv s) {locked : Uuid → Bool} {token : Uuid} {time expires : Time}
    {limit : Int}
    {batch rows : List OutboxMessage}
    (hc : Outbox.claimBatch s.rows locked token time expires limit = .ok (batch, rows)) :
    batch.Pairwise fun a b => a.key ≠ b.key := by
  rw [(claimBatch_cases hc).1]
  refine (List.Perm.pairwise_iff (fun hne heq => hne heq.symm)
    (List.mergeSort_perm _ _)).mpr ?_
  rw [List.pairwise_map]
  have hnodup : (s.rows.filter (picked s.rows locked time limit)).Nodup :=
    (List.Nodup.of_map _ h.ids).filter _
  refine hnodup.imp_of_mem fun {a b} ha hb hne hkey => hne ?_
  obtain ⟨ha, hpa⟩ := List.mem_filter.mp ha
  obtain ⟨hb, hpb⟩ := List.mem_filter.mp hb
  exact h.picked_unique ha hb hpa hpb hkey

/-- No open row stands before a claimed one. -/
theorem not_before_claimed (h : OrderInv s) {x y : OutboxMessage} (hx : x ∈ s.rows)
    (hy : y ∈ s.rows) (hopen : x.terminal = false) (hcl : y.status = .claimed)
    (hkey : x.key = y.key) : x.earlier y = false := by
  obtain ⟨p, hp, hpy⟩ := h.recorded y hy hcl
  rw [← OutboxMessage.earlier_same_right hpy]
  exact h.front_of_open hx hopen hp (hkey.trans hpy.2.1.symm)

theorem orderKept (h : OrderInv s) : OrderKept s where
  distinctKeys _ _ _ _ _ _ _ hc := h.batch_keys hc
  oneClaim x hx y hy hclx hcly hkey := by
    have hopenx : x.terminal = false := OutboxMessage.open_iff.mpr (.inr hclx)
    have hopeny : y.terminal = false := OutboxMessage.open_iff.mpr (.inr hcly)
    exact h.eq_of_id hx hy (OutboxMessage.earlier_total
      (h.not_before_claimed hx hy hopenx hcly hkey)
      (h.not_before_claimed hy hx hopeny hclx hkey.symm))
  earlierDone x hx y hy hcl hkey he := by
    cases hterm : x.terminal with
    | true => rfl
    | false =>
        rw [h.not_before_claimed hx hy hterm hcl hkey] at he
        cases he
  neverBack _ _ _ _ _ batch rows hc m hm p hp hkey := by
    obtain ⟨z, hz, hpz, rfl⟩ := mem_batch hc hm
    exact h.front_of_open hz (picked_open h.ids hz hpz).1 hp hkey.symm

end OrderInv

/-- **Per-key order.** From the empty table, whatever the workers do: -/
theorem outbox_order_kept (clock : Time) {s : OutboxState}
    (h : OutboxState.Reach (.start clock) s) : OrderKept s :=
  ((OrderInv.start clock).reach h).orderKept

namespace Sample

/-- Two events of one user. -/
def registered (eventId : Uuid) (occurredAt : Time) : IntegrationEvent :=
  ⟨eventId, "user", "UserRegistered", .null, occurredAt⟩

/-- The first event is quarantined, the second claimed behind it. -/
def relayed : List OutboxCall :=
  [.publish "identity" (registered 1 3), .publish "identity" (registered 2 4),
    .claimBatch (fun _ => false) 7 5 9 10, .tick 2, .quarantine 1 7 6 "Refused",
    .claimBatch (fun _ => false) 8 7 9 10]

theorem relayed_reach : OutboxState.Reach (.start 5) (relayed.foldl .step (.start 5)) := by
  refine OutboxState.reach_of_allowed ?_
  simp [relayed, registered, OutboxState.AllowedAll, OutboxState.Allowed, OutboxState.Stamp,
    OutboxState.step, OutboxState.start, Outbox.publish, Outbox.claimBatch, Outbox.quarantine,
    Outbox.finish]

end Sample

theorem outbox_order_kept_relayed : OrderKept (Sample.relayed.foldl .step (.start 5)) :=
  outbox_order_kept 5 Sample.relayed_reach

end IdentityService
