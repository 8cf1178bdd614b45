import IdentityService.Registration.World
import Mathlib.Data.List.Pairwise

/-!
# Operations, accounts and events move together

The invariant of the three tables, and how every unit of work keeps it.
Each operation is the only one of its id, user, email and key; an account
or an event exists exactly for the COMPLETED ones. A worker's snapshot of an
operation stays true of the row in everything but its progress, so what it
writes at the end is the row's own account.
-/

namespace IdentityService

open Concurrent

namespace RegistrationOperation

variable {a b : RegistrationOperation}

theorem collides_iff : a.collides b = true ↔
    a.id = b.id ∨ a.userId = b.userId ∨ a.email = b.email ∨ a.keyHash = b.keyHash := by
  simp [collides, or_assoc]

theorem collides_comm (a b : RegistrationOperation) : a.collides b = b.collides a := by
  rw [Bool.eq_iff_iff, collides_iff, collides_iff]
  simp only [eq_comm]

theorem collides_same {a' b' : RegistrationOperation} (ha : SameIdentity a' a)
    (hb : SameIdentity b' b) : a'.collides b' = a.collides b := by
  simp [collides, ha.id, ha.userId, ha.email, ha.keyHash, hb.id, hb.userId, hb.email, hb.keyHash]

end RegistrationOperation

namespace RegistrationDb

/-- The hash an operation's password is kept under: in its own row, or in
the account's once the operation is completed. -/
def storedHash (db : RegistrationDb) (o : RegistrationOperation) : Option String :=
  match o.passwordHash with
  | some h => some h
  | none => (db.users.find? fun u => u.id = o.userId).map User.passwordHash

/-- The events that announce an account. -/
def eventsOf (db : RegistrationDb) (userId : Uuid) : List UserRegisteredEvent :=
  db.registered.filter fun e => e.userId = userId

end RegistrationDb

/-- The invariant; `issued` are the commands that have been given. -/
structure Accounts (hasher : PasswordHasher) (issued : RegisterUserCommand → Prop)
    (db : RegistrationDb) : Prop where
  unique : db.operations.Pairwise fun a b => a.collides b = false
  lifecycle : ∀ o ∈ db.operations, o.lifecycle = true
  account : ∀ o ∈ db.operations, o.status = .completed →
    ∃ u ∈ db.users, u.id = o.userId ∧ u.email = o.email
  event : ∀ o ∈ db.operations, o.status = .completed → (db.eventsOf o.userId).length = 1
  accountOwned : ∀ u ∈ db.users,
    ∃ o ∈ db.operations, o.status = .completed ∧ o.userId = u.id ∧ o.email = u.email
  eventOwned : ∀ e ∈ db.registered,
    ∃ o ∈ db.operations, o.status = .completed ∧ o.userId = e.userId
  usersUnique : db.users.Pairwise fun u v => u.id ≠ v.id ∧ u.email ≠ v.email
  origin : ∀ o ∈ db.operations, ∃ command salt, issued command ∧ command.keyHash = o.keyHash ∧
    command.email = o.email ∧ db.storedHash o = some (hasher.hash command.password salt)

/-- What no unit of work undoes. -/
structure Evolves (db db' : RegistrationDb) : Prop where
  kept : ∀ o ∈ db.operations, ∃ o' ∈ db'.operations, o'.SameIdentity o ∧
    (o.status = .completed → o' = o) ∧ db'.storedHash o' = db.storedHash o
  users : ∀ u ∈ db.users, u ∈ db'.users
  registered : db.registered <+: db'.registered

/-- A worker's copy of an operation, against the table. -/
def Snapshot (db : RegistrationDb) (o : RegistrationOperation) : Prop :=
  ∃ x ∈ db.operations, x.SameIdentity o ∧ ∀ h, o.passwordHash = some h → db.storedHash x = some h

theorem Evolves.refl (db : RegistrationDb) : Evolves db db :=
  ⟨fun o ho => ⟨o, ho, .refl o, fun _ => rfl, rfl⟩, fun _ h => h, List.prefix_rfl⟩

theorem Evolves.trans {db db' db'' : RegistrationDb} (h : Evolves db db') (h' : Evolves db' db'') :
    Evolves db db'' where
  kept o ho := by
    obtain ⟨o', ho', hsame, hdone, hhash⟩ := h.kept o ho
    obtain ⟨o'', ho'', hsame', hdone', hhash'⟩ := h'.kept o' ho'
    refine ⟨o'', ho'', hsame'.trans hsame, fun hs => ?_, hhash'.trans hhash⟩
    obtain rfl := hdone hs
    exact hdone' hs
  users u hu := h'.users u (h.users u hu)
  registered := h.registered.trans h'.registered

theorem Snapshot.evolves {db db' : RegistrationDb} {o : RegistrationOperation}
    (h : Snapshot db o) (he : Evolves db db') : Snapshot db' o := by
  obtain ⟨x, hx, hsame, hhash⟩ := h
  obtain ⟨x', hx', hsame', -, hhash'⟩ := he.kept x hx
  exact ⟨x', hx', hsame'.trans hsame, fun p hp => hhash'.trans (hhash p hp)⟩

/-- A row is a snapshot of itself, and so is every rewriting of it that
keeps the password hash. -/
theorem Snapshot.of_mem {db : RegistrationDb} {x o : RegistrationOperation}
    (hx : x ∈ db.operations) (hsame : x.SameIdentity o) (hhash : o.passwordHash = x.passwordHash) :
    Snapshot db o := by
  refine ⟨x, hx, hsame, fun h hp => ?_⟩
  rw [hhash] at hp
  simp [RegistrationDb.storedHash, hp]

namespace Accounts

variable {hasher : PasswordHasher} {issued : RegisterUserCommand → Prop} {db : RegistrationDb}

theorem empty : Accounts hasher issued ⟨[], [], [], []⟩ := by
  constructor
  all_goals simp

theorem eq_of_collides (h : Accounts hasher issued db) {x y : RegistrationOperation}
    (hx : x ∈ db.operations) (hy : y ∈ db.operations) (hc : x.collides y = true) : x = y := by
  by_contra hne
  have : Std.Symm fun a b : RegistrationOperation => a.collides b = false :=
    ⟨fun a b hab => by rw [RegistrationOperation.collides_comm]; exact hab⟩
  have hno := h.unique.forall hx hy hne
  rw [hc] at hno
  cases hno

/-- Scrubbed means completed, and the other way round. -/
theorem passwordHash_none (h : Accounts hasher issued db) {o : RegistrationOperation}
    (ho : o ∈ db.operations) : o.passwordHash = none ↔ o.status = .completed := by
  have hl := h.lifecycle o ho
  cases hs : o.status <;> cases hp : o.passwordHash <;>
    simp_all [RegistrationOperation.lifecycle]

/-! ### Progress -/

/-- Rows that keep their identity still do not collide. -/
theorem unique_update {p : RegistrationOperation → Bool}
    {f : RegistrationOperation → RegistrationOperation} {rows : List RegistrationOperation}
    (hunique : rows.Pairwise fun a b => a.collides b = false)
    (hsame : ∀ o ∈ rows, p o = true → (f o).SameIdentity o) :
    (Table.update p f rows).Pairwise fun a b => a.collides b = false := by
  have hg : ∀ o ∈ rows, RegistrationOperation.SameIdentity (if p o then f o else o) o := by
    intro o ho
    by_cases hp : p o = true
    · rw [if_pos hp]
      exact hsame o ho hp
    · rw [if_neg hp]
      exact .refl o
  simp only [Table.update, List.pairwise_map]
  refine hunique.imp_of_mem fun {a b} ha hb hab => ?_
  rw [RegistrationOperation.collides_same (hg a ha) (hg b hb)]
  exact hab

/-- A statement that rewrites unfinished rows and finishes none. -/
theorem rewrite (h : Accounts hasher issued db) {p : RegistrationOperation → Bool}
    {f : RegistrationOperation → RegistrationOperation} (hsame : ∀ o, (f o).SameIdentity o)
    (hhash : ∀ o, (f o).passwordHash = o.passwordHash)
    (hopen : ∀ o ∈ db.operations, p o = true → o.status ≠ .completed)
    (hunfinished : ∀ o, (f o).status ≠ .completed)
    (hlife : ∀ o ∈ db.operations, p o = true → (f o).lifecycle = true) :
    Accounts hasher issued { db with operations := Table.update p f db.operations } ∧
      Evolves db { db with operations := Table.update p f db.operations } := by
  have hstored : ∀ o, RegistrationDb.storedHash
      { db with operations := Table.update p f db.operations } o = db.storedHash o := fun _ => rfl
  have hrow : ∀ o, db.storedHash (f o) = db.storedHash o := by
    intro o
    simp [RegistrationDb.storedHash, hhash o, (hsame o).userId]
  -- the completed rows are the ones there were
  have hdone : ∀ o, o ∈ db.operations → o.status = .completed →
      o ∈ Table.update p f db.operations := by
    intro o ho hs
    refine Table.mem_update.mpr ⟨o, ho, .inr ⟨?_, rfl⟩⟩
    cases hp : p o with
    | false => rfl
    | true => exact absurd hs (hopen o ho hp)
  refine ⟨⟨?_, ?_, ?_, ?_, ?_, ?_, h.usersUnique, ?_⟩, ⟨?_, fun _ hu => hu, List.prefix_rfl⟩⟩
  · exact unique_update h.unique fun o _ _ => hsame o
  · intro o' ho'
    obtain ⟨o, ho, ⟨hp, rfl⟩ | ⟨-, rfl⟩⟩ := Table.mem_update.mp ho'
    · exact hlife o ho hp
    · exact h.lifecycle _ ho
  · intro o' ho' hs
    obtain ⟨o, ho, ⟨-, rfl⟩ | ⟨-, rfl⟩⟩ := Table.mem_update.mp ho'
    · exact absurd hs (hunfinished o)
    · exact h.account _ ho hs
  · intro o' ho' hs
    obtain ⟨o, ho, ⟨-, rfl⟩ | ⟨-, rfl⟩⟩ := Table.mem_update.mp ho'
    · exact absurd hs (hunfinished o)
    · exact h.event _ ho hs
  · intro u hu
    obtain ⟨o, ho, hs, hrest⟩ := h.accountOwned u hu
    exact ⟨o, hdone o ho hs, hs, hrest⟩
  · intro e he
    obtain ⟨o, ho, hs, hrest⟩ := h.eventOwned e he
    exact ⟨o, hdone o ho hs, hs, hrest⟩
  · intro o' ho'
    obtain ⟨o, ho, ⟨-, rfl⟩ | ⟨-, rfl⟩⟩ := Table.mem_update.mp ho'
    · obtain ⟨command, salt, hi, hk, he, hh⟩ := h.origin o ho
      refine ⟨command, salt, hi, hk.trans (hsame o).keyHash.symm, he.trans (hsame o).email.symm, ?_⟩
      rw [hstored, hrow]
      exact hh
    · exact h.origin _ ho
  · intro o ho
    cases hp : p o with
    | true =>
        refine ⟨f o, Table.mem_update.mpr ⟨o, ho, .inl ⟨hp, rfl⟩⟩, hsame o, ?_, ?_⟩
        · exact fun hs => absurd hs (hopen o ho hp)
        · rw [hstored, hrow]
    | false =>
        exact ⟨o, Table.mem_update.mpr ⟨o, ho, .inr ⟨hp, rfl⟩⟩, .refl o, fun _ => rfl, rfl⟩

/-! ### Creation -/

theorem create (h : Accounts hasher issued db) {o : RegistrationOperation}
    (hlife : o.lifecycle = true) (hopen : o.status ≠ .completed)
    (hnew : ∀ x ∈ db.operations, o.collides x = false) {command : RegisterUserCommand}
    {salt : String} (hi : issued command) (hk : command.keyHash = o.keyHash)
    (he : command.email = o.email)
    (hh : o.passwordHash = some (hasher.hash command.password salt)) :
    Accounts hasher issued { db with operations := db.operations ++ [o] } ∧
      Evolves db { db with operations := db.operations ++ [o] } := by
  have hold : ∀ {P : RegistrationOperation → Prop}, (∃ x ∈ db.operations, P x) →
      ∃ x ∈ db.operations ++ [o], P x :=
    fun ⟨x, hx, hP⟩ => ⟨x, List.mem_append_left _ hx, hP⟩
  refine ⟨⟨?_, ?_, ?_, ?_, fun u hu => hold (h.accountOwned u hu),
    fun e he => hold (h.eventOwned e he), h.usersUnique, ?_⟩,
    ⟨fun x hx => ?_, fun _ hu => hu, List.prefix_rfl⟩⟩
  · rw [List.pairwise_append]
    refine ⟨h.unique, List.pairwise_singleton _ _, fun a ha b hb => ?_⟩
    rw [List.mem_singleton] at hb
    subst hb
    rw [RegistrationOperation.collides_comm]
    exact hnew a ha
  · intro x hx
    rcases List.mem_append.mp hx with hx | hx
    · exact h.lifecycle x hx
    · rw [List.mem_singleton.mp hx]
      exact hlife
  · intro x hx hs
    rcases List.mem_append.mp hx with hx | hx
    · exact h.account x hx hs
    · rw [List.mem_singleton.mp hx] at hs
      exact absurd hs hopen
  · intro x hx hs
    rcases List.mem_append.mp hx with hx | hx
    · exact h.event x hx hs
    · rw [List.mem_singleton.mp hx] at hs
      exact absurd hs hopen
  · intro x hx
    rcases List.mem_append.mp hx with hx | hx
    · exact h.origin x hx
    · rw [List.mem_singleton.mp hx]
      exact ⟨command, salt, hi, hk, he, by simp [RegistrationDb.storedHash, hh]⟩
  · exact ⟨x, List.mem_append_left _ hx, .refl x, fun _ => rfl, rfl⟩

/-! ### Completion -/

section Completion

variable {x : RegistrationOperation} {user : User} {event : UserRegisteredEvent}

/-- The account of an unfinished operation does not exist, nor does any
account of its email, nor an event of its user. -/
theorem no_account (h : Accounts hasher issued db) (hx : x ∈ db.operations)
    (hopen : x.status ≠ .completed) :
    (∀ u ∈ db.users, u.id ≠ x.userId ∧ u.email ≠ x.email) ∧ db.eventsOf x.userId = [] := by
  have hown : ∀ o ∈ db.operations, o.status = .completed → o.collides x = false := by
    intro o ho hs
    cases hc : o.collides x with
    | false => rfl
    | true =>
        rw [h.eq_of_collides ho hx hc] at hs
        exact absurd hs hopen
  refine ⟨fun u hu => ?_, ?_⟩
  · obtain ⟨o, ho, hs, hid, hemail⟩ := h.accountOwned u hu
    have hno := hown o ho hs
    rw [← Bool.not_eq_true, RegistrationOperation.collides_iff] at hno
    refine ⟨fun heq => hno (.inr (.inl (hid.trans heq))), fun heq => ?_⟩
    exact hno (.inr (.inr (.inl (hemail.trans heq))))
  · rw [RegistrationDb.eventsOf, List.filter_eq_nil_iff]
    intro e he heq
    obtain ⟨o, ho, hs, hid⟩ := h.eventOwned e he
    have hno := hown o ho hs
    rw [← Bool.not_eq_true, RegistrationOperation.collides_iff] at hno
    exact hno (.inr (.inl (hid.trans (by simpa using heq))))

/-- The tables once `x` is rewritten to `y`, with its account and event. -/
def completing (db : RegistrationDb) (p : RegistrationOperation → Bool)
    (f : RegistrationOperation → RegistrationOperation) (user : User)
    (event : UserRegisteredEvent) (outbox : List OutboxMessage) : RegistrationDb :=
  ⟨Table.update p f db.operations, db.users ++ [user], outbox, db.registered ++ [event]⟩

variable {p : RegistrationOperation → Bool} {f : RegistrationOperation → RegistrationOperation}
  {outbox : List OutboxMessage}

/-- The other operations keep their hash: the completed ones have their
account already. -/
theorem completing_storedHash_ne (h : Accounts hasher issued db) {o : RegistrationOperation}
    (ho : o ∈ db.operations) :
    (completing db p f user event outbox).storedHash o = db.storedHash o := by
  cases hpw : o.passwordHash with
  | some hash => simp [RegistrationDb.storedHash, hpw]
  | none =>
      obtain ⟨u, hu, hid, -⟩ := h.account o ho ((h.passwordHash_none ho).mp hpw)
      have hfind : (db.users.find? fun u => u.id = o.userId).isSome := by
        rw [List.find?_isSome]
        exact ⟨u, hu, by simpa using hid⟩
      obtain ⟨v, hv⟩ := Option.isSome_iff_exists.mp hfind
      simp [RegistrationDb.storedHash, completing, hpw, List.find?_append, hv]

theorem completing_storedHash_self (h : Accounts hasher issued db) (hx : x ∈ db.operations)
    (hopen : x.status ≠ .completed) {y : RegistrationOperation} (hscrub : y.passwordHash = none)
    (hy : y.userId = x.userId) (hid : user.id = x.userId) :
    (completing db p f user event outbox).storedHash y = some user.passwordHash := by
  have hnone : db.users.find? (fun u => u.id = y.userId) = none := by
    rw [List.find?_eq_none]
    intro u hu heq
    exact ((h.no_account hx hopen).1 u hu).1 ((by simpa using heq : u.id = y.userId).trans hy)
  rw [hy] at hnone
  simp [RegistrationDb.storedHash, completing, hscrub, List.find?_append, hnone, hid, hy]

/-- Completing an operation together with its account and its event. -/
theorem complete (h : Accounts hasher issued db) (hx : x ∈ db.operations)
    (hopen : x.status ≠ .completed) (hp : ∀ o ∈ db.operations, p o = true ↔ o = x)
    (hsame : (f x).SameIdentity x) (hdone : (f x).status = .completed)
    (hlife : (f x).lifecycle = true) (hid : user.id = x.userId) (hemail : user.email = x.email)
    (hhash : db.storedHash x = some user.passwordHash) (hevent : event.userId = x.userId) :
    Accounts hasher issued (completing db p f user event outbox) ∧
      Evolves db (completing db p f user event outbox) := by
  obtain ⟨hnouser, hnoevent⟩ := h.no_account hx hopen
  have hscrub : (f x).passwordHash = none := by
    simp only [RegistrationOperation.lifecycle, hdone, Bool.and_eq_true, Option.isNone_iff_eq_none]
      at hlife
    exact hlife.1.1.1
  have hself : (completing db p f user event outbox).storedHash (f x) =
      some user.passwordHash :=
    h.completing_storedHash_self hx hopen hscrub hsame.userId hid
  -- a row afterwards is the completed one or another, untouched one
  have hrows {o : RegistrationOperation} :
      o ∈ Table.update p f db.operations ↔ o = f x ∨ o ∈ db.operations ∧ o ≠ x :=
    Table.mem_update_one hx hp
  have hcompleted : ∀ o ∈ db.operations, o.status = .completed → o ≠ x := by
    rintro o - hs rfl
    exact hopen hs
  refine ⟨⟨?_, ?_, ?_, ?_, ?_, ?_, ?_, ?_⟩, ⟨?_, ?_, ?_⟩⟩
  · refine unique_update h.unique fun o ho hpo => ?_
    rw [(hp o ho).mp hpo]
    exact hsame
  · intro o ho
    rcases hrows.mp ho with rfl | ⟨ho, -⟩
    · exact hlife
    · exact h.lifecycle o ho
  · intro o ho hs
    rcases hrows.mp ho with rfl | ⟨ho, -⟩
    · exact ⟨user, List.mem_append_right _ (List.mem_singleton.mpr rfl),
        hid.trans hsame.userId.symm, hemail.trans hsame.email.symm⟩
    · obtain ⟨u, hu, hrest⟩ := h.account o ho hs
      exact ⟨u, List.mem_append_left _ hu, hrest⟩
  · intro o ho hs
    simp only [RegistrationDb.eventsOf, completing, List.filter_append]
    rcases hrows.mp ho with rfl | ⟨ho, hne⟩
    · rw [hsame.userId]
      have hnone : db.registered.filter (fun e => e.userId = x.userId) = [] := hnoevent
      simp [hnone, hevent]
    · have hone : (db.registered.filter fun e => e.userId = o.userId).length = 1 :=
        h.event o ho hs
      have hforeign : ¬ event.userId = o.userId := by
        intro heq
        have hcol : o.collides x = true :=
          RegistrationOperation.collides_iff.mpr (.inr (.inl (heq.symm.trans hevent)))
        exact hne (h.eq_of_collides ho hx hcol)
      simp [hone, hforeign]
  · intro u hu
    rcases List.mem_append.mp hu with hu | hu
    · obtain ⟨o, ho, hs, hrest⟩ := h.accountOwned u hu
      exact ⟨o, hrows.mpr (.inr ⟨ho, hcompleted o ho hs⟩), hs, hrest⟩
    · rw [List.mem_singleton.mp hu]
      exact ⟨f x, hrows.mpr (.inl rfl), hdone, hsame.userId.trans hid.symm,
        hsame.email.trans hemail.symm⟩
  · intro e he
    rcases List.mem_append.mp he with he | he
    · obtain ⟨o, ho, hs, hrest⟩ := h.eventOwned e he
      exact ⟨o, hrows.mpr (.inr ⟨ho, hcompleted o ho hs⟩), hs, hrest⟩
    · rw [List.mem_singleton.mp he]
      exact ⟨f x, hrows.mpr (.inl rfl), hdone, hsame.userId.trans hevent.symm⟩
  · simp only [completing, List.pairwise_append]
    refine ⟨h.usersUnique, List.pairwise_singleton _ _, fun u hu v hv => ?_⟩
    rw [List.mem_singleton.mp hv, hid, hemail]
    exact hnouser u hu
  · intro o ho
    rcases hrows.mp ho with rfl | ⟨ho, -⟩
    · obtain ⟨command, salt, hi, hk, he, hh⟩ := h.origin x hx
      refine ⟨command, salt, hi, hk.trans hsame.keyHash.symm, he.trans hsame.email.symm, ?_⟩
      rw [hself, ← hhash]
      exact hh
    · obtain ⟨command, salt, hi, hk, he, hh⟩ := h.origin o ho
      exact ⟨command, salt, hi, hk, he, (h.completing_storedHash_ne ho).trans hh⟩
  · intro o ho
    by_cases heq : o = x
    · subst heq
      exact ⟨f o, hrows.mpr (.inl rfl), hsame, fun hs => absurd hs hopen, hself.trans hhash.symm⟩
    · exact ⟨o, hrows.mpr (.inr ⟨ho, heq⟩), .refl o, fun _ => rfl, h.completing_storedHash_ne ho⟩
  · exact fun u hu => List.mem_append_left _ hu
  · exact List.prefix_append _ _

end Completion

end Accounts

/-! ## Units of work -/

namespace RegistrationTx

variable {hasher : PasswordHasher} {issued : RegisterUserCommand → Prop} {db db' : RegistrationDb}
  {fmt : EventFormat} {locked : Uuid → Bool}

/-- What a handler sees to before it opens the unit of work. -/
def Prepared (hasher : PasswordHasher) (issued : RegisterUserCommand → Prop) (db : RegistrationDb) :
    RegistrationTx → Prop
  | .tryCreate o => o.status ≠ .completed ∧ ∃ command salt, issued command ∧
      command.keyHash = o.keyHash ∧ command.email = o.email ∧
      o.passwordHash = some (hasher.hash command.password salt)
  | .finalize operationId _ _ user _ _ => ∃ o, Snapshot db o ∧ o.id = operationId ∧
      user.id = o.userId ∧ user.email = o.email ∧ o.passwordHash = some user.passwordHash
  | _ => True

theorem eligible_open {o : RegistrationOperation} {time : Time} (h : o.eligible time = true) :
    o.nonterminal = true := by
  simp only [RegistrationOperation.eligible, Bool.or_eq_true, Bool.and_eq_true,
    decide_eq_true_eq] at h
  rcases h with ⟨h, -⟩ | ⟨h, -⟩
  · simp [RegistrationOperation.nonterminal, h]
  · simp [RegistrationOperation.nonterminal, h]

theorem ne_completed_of_nonterminal {o : RegistrationOperation} (h : o.nonterminal = true) :
    o.status ≠ .completed := by
  intro hs
  simp [RegistrationOperation.nonterminal, hs] at h

/-- Everything a claimed or finishing statement does is progress of
unfinished rows. -/
theorem claim_keeps (h : Accounts hasher issued db) {p : RegistrationOperation → Bool}
    {ownerToken : Uuid} {claimExpiresAt : Time}
    (hopen : ∀ o ∈ db.operations, p o = true → o.nonterminal = true) :
    Accounts hasher issued
        { db with operations := Table.update p (.claim ownerToken claimExpiresAt) db.operations } ∧
      Evolves db
        { db with
          operations := Table.update p (.claim ownerToken claimExpiresAt) db.operations } := by
  refine h.rewrite (fun _ => ⟨rfl, rfl, rfl, rfl, rfl⟩) (fun _ => rfl)
    (fun o ho hp => ne_completed_of_nonterminal (hopen o ho hp))
    (fun _ => by simp [RegistrationOperation.claim]) ?_
  intro o ho hp
  have hl := h.lifecycle o ho
  have hn := hopen o ho hp
  cases hs : o.status <;>
    simp_all [RegistrationOperation.lifecycle, RegistrationOperation.claim,
      RegistrationOperation.nonterminal]

/-- The ids a batch claims are those of claimable rows. -/
theorem claimable_open (h : Accounts hasher issued db) {time : Time} {limit : Nat}
    {o : RegistrationOperation} (ho : o ∈ db.operations)
    (hids : (Registrations.claimableIds db.operations locked time limit).contains o.id = true) :
    o.nonterminal = true := by
  obtain ⟨x, hx, hid⟩ := List.mem_map.mp (List.contains_iff_mem.mp hids)
  obtain ⟨hmem, hcond⟩ := Table.mem_select hx
  rw [Bool.and_eq_true] at hcond
  obtain rfl := h.eq_of_collides hmem ho (RegistrationOperation.collides_iff.mpr (.inl hid))
  exact eligible_open hcond.1

/-- A finishing write that does not complete: the claim is given up. -/
theorem finish_keeps (h : Accounts hasher issued db) {operationId ownerToken : Uuid} {time : Time}
    {f : RegistrationOperation → RegistrationOperation} {b : Bool}
    {rows : List RegistrationOperation}
    (hb : Registrations.finish db.operations operationId ownerToken time f = .ok (b, rows))
    (hsame : ∀ o, (f o).SameIdentity o) (hhash : ∀ o, (f o).passwordHash = o.passwordHash)
    (hnot : ∀ o, (f o).status ≠ .completed) :
    Accounts hasher issued { db with operations := rows } ∧
      Evolves db { db with operations := rows } := by
  obtain ⟨hlife, rfl, -⟩ := Registrations.finish_cases hb
  refine h.rewrite hsame hhash (fun o _ hp hs => ?_) hnot hlife
  rw [(Registrations.ownedBy_iff.mp hp).2.1] at hs
  cases hs

theorem redrive_keeps (h : Accounts hasher issued db) {operationId : Uuid} {availableAt : Time}
    {b : Bool} {rows : List RegistrationOperation}
    (hb : Registrations.redriveBlocked db.operations operationId availableAt = .ok (b, rows)) :
    Accounts hasher issued { db with operations := rows } ∧
      Evolves db { db with operations := rows } := by
  obtain ⟨hlife, rfl⟩ := Registrations.redriveBlocked_cases hb
  refine h.rewrite (fun _ => ⟨rfl, rfl, rfl, rfl, rfl⟩) (fun _ => rfl) (fun o _ hp hs => ?_)
    (fun _ => by simp [RegistrationOperation.redriveRow]) hlife
  simp only [Registrations.redrivable, Bool.and_eq_true, decide_eq_true_eq] at hp
  rw [hp.2] at hs
  cases hs

/-- The row a successful `complete` rewrites is the worker's own. -/
theorem owned_snapshot (h : Accounts hasher issued db) {o : RegistrationOperation}
    {ownerToken : Uuid} {time : Time} (hsnap : Snapshot db o)
    (hany : db.operations.any (RegistrationOperation.ownedBy o.id ownerToken time) = true) :
    ∃ x ∈ db.operations, x.SameIdentity o ∧ x.status = .claimed ∧
      (∀ hash, o.passwordHash = some hash → db.storedHash x = some hash) ∧
      ∀ y ∈ db.operations, y.ownedBy o.id ownerToken time = true ↔ y = x := by
  obtain ⟨x, hx, hsame, hhash⟩ := hsnap
  obtain ⟨y, hy, hown⟩ := List.any_eq_true.mp hany
  -- ids are unique, so every row the guard admits is `x`
  have honly : ∀ z ∈ db.operations, z.ownedBy o.id ownerToken time = true → z = x := by
    intro z hz hzo
    have hid : z.id = x.id := (Registrations.ownedBy_iff.mp hzo).1.trans hsame.id.symm
    exact h.eq_of_collides hz hx (RegistrationOperation.collides_iff.mpr (.inl hid))
  obtain rfl := honly y hy hown
  refine ⟨y, hx, hsame, (Registrations.ownedBy_iff.mp hown).2.1, hhash, fun z hz => ?_⟩
  exact ⟨honly z hz, fun heq => heq ▸ hown⟩

/-- `_finalize`'s unit of work: everything it can do. -/
theorem finalizeBody_cases {operationId ownerToken : Uuid} {completedAt : Time} {user : User}
    {eventId correlationId : Uuid} {r : Except Exn (User × RegistrationDb)}
    (hr : finalizeBody fmt db operationId ownerToken completedAt user eventId correlationId = r) :
    (∃ x, Registrations.complete db.operations operationId ownerToken completedAt = .error x ∧
      r = .error x) ∨
    (∃ rows, Registrations.complete db.operations operationId ownerToken completedAt =
      .ok (false, rows) ∧ r = .error .lostRegistrationClaim) ∨
    ∃ rows, Registrations.complete db.operations operationId ownerToken completedAt =
      .ok (true, rows) ∧
      ((r = .error .registrationFinalizationConflict ∧ ∃ u ∈ db.users, u.email = user.email) ∨
      r = .error (.database .integrity) ∨
      ∃ outbox, r = .ok (user, ⟨rows, db.users ++ [user], outbox, db.registered ++
        [⟨user.id, user.createdAt, correlationId, none, eventId⟩]⟩)) := by
  subst hr
  cases hc : Registrations.complete db.operations operationId ownerToken completedAt with
  | error x => exact .inl ⟨x, rfl, by simp only [finalizeBody, hc]; rfl⟩
  | ok out =>
      obtain ⟨done, rows⟩ := out
      cases done with
      | false => exact .inr (.inl ⟨rows, rfl, by simp only [finalizeBody, hc]; rfl⟩)
      | true =>
          refine .inr (.inr ⟨rows, rfl, ?_⟩)
          by_cases hemail : (db.users.any fun u => u.email = user.email) = true
          · refine .inl ⟨?_, ?_⟩
            · simp only [finalizeBody, hc, Users.createIfAbsent, if_pos hemail]
              rfl
            · obtain ⟨u, hu, heq⟩ := List.any_eq_true.mp hemail
              exact ⟨u, hu, by simpa using heq⟩
          · by_cases hid : (db.users.any fun u => u.id = user.id) = true
            · refine .inr (.inl ?_)
              simp only [finalizeBody, hc, Users.createIfAbsent, if_neg hemail, if_pos hid]
              rfl
            · cases hpub : Outbox.publish db.outbox fmt.topic (UserRegisteredEvent.integration fmt
                  ⟨user.id, user.createdAt, correlationId, none, eventId⟩) with
              | error x =>
                  have hx : x = .database .integrity := by
                    simp only [Outbox.publish] at hpub
                    split at hpub
                    · cases hpub
                      rfl
                    · cases hpub
                  refine .inr (.inl ?_)
                  simp only [finalizeBody, hc, Users.createIfAbsent, if_neg hemail, if_neg hid]
                  simp [bind, Except.bind, hpub, hx]
              | ok outbox =>
                  refine .inr (.inr ⟨outbox, ?_⟩)
                  simp only [finalizeBody, hc, Users.createIfAbsent, if_neg hemail, if_neg hid]
                  simp [bind, Except.bind, hpub, pure, Except.pure]

section Finalize

variable {operationId ownerToken : Uuid} {completedAt : Time} {user : User}
  {eventId correlationId : Uuid}

/-- A finalization that goes through creates the account and the event of
the operation it completes. -/
theorem finalize_keeps (h : Accounts hasher issued db)
    (hp : Prepared hasher issued db
      (.finalize operationId ownerToken completedAt user eventId correlationId)) {a : User}
    (hb : finalizeBody fmt db operationId ownerToken completedAt user eventId correlationId =
      .ok (a, db')) :
    Accounts hasher issued db' ∧ Evolves db db' ∧ a = user ∧
      ∃ o' ∈ db'.operations, o'.id = operationId ∧ o'.status = .completed := by
  obtain ⟨o, hsnap, rfl, hid, hemail, hhash⟩ := hp
  rcases finalizeBody_cases hb with
    ⟨x, -, hx⟩ | ⟨rows, -, hx⟩ | ⟨rows, hc, ⟨hx, -⟩ | hx | ⟨outbox, hx⟩⟩
  · cases hx
  · cases hx
  · cases hx
  · cases hx
  · cases hx
    obtain ⟨hlife, rfl, hany⟩ := Registrations.finish_cases hc
    obtain ⟨x, hx, hsame, hs, hstored, honly⟩ := owned_snapshot h hsnap hany.symm
    have hopen : x.status ≠ .completed := by
      rw [hs]
      simp
    have hown : x.ownedBy o.id ownerToken completedAt = true := (honly x hx).mpr rfl
    have huser : user.id = x.userId := hid.trans hsame.userId.symm
    have hevent : (⟨user.id, user.createdAt, correlationId, none, eventId⟩ :
        UserRegisteredEvent).userId = x.userId := huser
    obtain ⟨hacc, hev⟩ := h.complete hx hopen honly ⟨rfl, rfl, rfl, rfl, rfl⟩ rfl (hlife x hx hown)
      huser (hemail.trans hsame.email.symm) (hstored _ hhash) hevent
    refine ⟨hacc, hev, rfl, _, Table.mem_update.mpr ⟨x, hx, .inl ⟨hown, rfl⟩⟩, hsame.id, rfl⟩

end Finalize

/-- **Every unit of work keeps the accounts.** -/
theorem body_keeps (h : Accounts hasher issued db) {t : RegistrationTx}
    (hp : t.Prepared hasher issued db) {a : t.Resp}
    (hb : t.body fmt locked db = .ok (a, db')) :
    Accounts hasher issued db' ∧ Evolves db db' := by
  cases t with
  | getByKeyHash keyHash =>
      simp only [body, bind_eq_ok] at hb
      obtain ⟨r, -, hb⟩ := hb
      cases hb
      exact ⟨h, .refl db⟩
  | getUserByEmail email =>
      cases hb
      exact ⟨h, .refl db⟩
  | tryCreate candidate =>
      simp only [body, bind_eq_ok] at hb
      obtain ⟨⟨created, rows⟩, hc, hb⟩ := hb
      cases hb
      obtain ⟨hopen, command, salt, hi, hk, he, hh⟩ := hp
      rcases Registrations.tryCreate_cases hc with ⟨-, rfl, -⟩ | ⟨-, rfl, hlife, hnew⟩
      · exact ⟨h, .refl db⟩
      · exact h.create hlife hopen hnew hi hk he hh
  | commit =>
      cases hb
      exact ⟨h, .refl db⟩
  | getUser userId =>
      cases hb
      exact ⟨h, .refl db⟩
  | claimByKeyHash keyHash ownerToken claimedAt claimExpiresAt =>
      simp only [body, bind_eq_ok] at hb
      obtain ⟨⟨claimed, rows⟩, hc, hb⟩ := hb
      cases hb
      obtain ⟨rfl, -⟩ := Registrations.claimByKeyHash_cases hc
      refine claim_keeps h fun o _ ho => ?_
      rw [Bool.and_eq_true] at ho
      exact eligible_open ho.2
  | claimBatch ownerToken claimedAt claimExpiresAt limit =>
      simp only [body, bind_eq_ok] at hb
      obtain ⟨⟨claimed, rows⟩, hc, hb⟩ := hb
      cases hb
      obtain ⟨ids, rfl, rfl, -⟩ := Registrations.claimBatch_cases hc
      exact claim_keeps h fun o ho hids => claimable_open h ho hids
  | finalize operationId ownerToken completedAt user eventId correlationId =>
      obtain ⟨hacc, hev, -⟩ := finalize_keeps h hp hb
      exact ⟨hacc, hev⟩
  | scheduleRetry operationId ownerToken failedAt availableAt errorClass =>
      simp only [body, bind_eq_ok] at hb
      obtain ⟨⟨scheduled, rows⟩, hc, hb⟩ := hb
      cases hb
      exact finish_keeps h hc (fun _ => ⟨rfl, rfl, rfl, rfl, rfl⟩) (fun _ => rfl) (fun _ => nofun)
  | block operationId ownerToken blockedAt errorClass =>
      simp only [body, bind_eq_ok] at hb
      obtain ⟨⟨blocked, rows⟩, hc, hb⟩ := hb
      cases hb
      exact finish_keeps h hc (fun _ => ⟨rfl, rfl, rfl, rfl, rfl⟩) (fun _ => rfl) (fun _ => nofun)
  | redriveBlocked operationId availableAt =>
      simp only [body, bind_eq_ok] at hb
      obtain ⟨⟨redriven, rows⟩, hc, hb⟩ := hb
      cases hb
      exact redrive_keeps h hc

/-- Statements raise errors of their own, none of the handlers' alarms. -/
def Tame {α : Type} (r : Except Exn α) : Prop := ∀ x, r = .error x → x.ordinary = true

theorem tame_ok {α : Type} (a : α) : Tame (.ok a) := nofun

theorem tame_error {α : Type} {x : Exn} (h : x.ordinary = true) :
    Tame (.error x : Except Exn α) := by
  rintro _ ⟨⟩
  exact h

theorem Tame.bind {α β : Type} {r : Except Exn α} {f : α → Except Exn β} (hr : Tame r)
    (hf : ∀ a, Tame (f a)) : Tame (r >>= f) := by
  cases r with
  | error x =>
      rintro _ ⟨⟩
      exact hr x rfl
  | ok a => exact hf a

theorem tame_write {rows : List RegistrationOperation} {p : RegistrationOperation → Bool}
    {f : RegistrationOperation → RegistrationOperation} : Tame (Registrations.write rows p f) := by
  simp only [Registrations.write]
  split
  · exact tame_ok _
  · exact tame_error rfl

theorem tame_toDomain (o : RegistrationOperation) : Tame o.toDomain := by
  simp only [RegistrationOperation.toDomain]
  split
  · exact tame_ok _
  · exact tame_error rfl

theorem tame_mapM (l : List RegistrationOperation) :
    Tame (l.mapM RegistrationOperation.toDomain) := by
  induction l with
  | nil => exact tame_ok _
  | cons o l ih =>
      rw [List.mapM_cons]
      exact (tame_toDomain o).bind fun _ => ih.bind fun _ => tame_ok _

theorem tame_window (claimedAt claimExpiresAt : Time) :
    Tame (Registrations.validateClaimWindow claimedAt claimExpiresAt) := by
  simp only [Registrations.validateClaimWindow]
  split
  · exact tame_error rfl
  · exact tame_ok _

theorem tame_finish {rows : List RegistrationOperation} {operationId ownerToken : Uuid}
    {time : Time} {f : RegistrationOperation → RegistrationOperation} :
    Tame (Registrations.finish rows operationId ownerToken time f) :=
  tame_write.bind fun _ => tame_ok _

/-- `_finalize`'s unit of work never raises its conflict: an account of
the email would make the operation completed, and then it would not be
claimed. -/
theorem finalize_tame (h : Accounts hasher issued db) {operationId ownerToken : Uuid}
    {completedAt : Time} {user : User} {eventId correlationId : Uuid}
    (hp : Prepared hasher issued db
      (.finalize operationId ownerToken completedAt user eventId correlationId)) :
    Tame (finalizeBody fmt db operationId ownerToken completedAt user eventId correlationId) := by
  intro e hr
  obtain ⟨o, hsnap, rfl, hid, hemail, hhash⟩ := hp
  rcases finalizeBody_cases hr with ⟨x, hc, hx⟩ | ⟨rows, hc, hx⟩ | ⟨rows, hc, hrest⟩
  · cases hx
    exact tame_finish _ hc
  · cases hx
    rfl
  · rcases hrest with ⟨-, u, hu, heq⟩ | hx | ⟨outbox, hx⟩
    · obtain ⟨-, -, hany⟩ := Registrations.finish_cases hc
      obtain ⟨x, hx, hsame, hs, -, -⟩ := owned_snapshot h hsnap hany.symm
      have hopen : x.status ≠ .completed := by
        rw [hs]
        simp
      have hno := ((h.no_account hx hopen).1 u hu).2
      exact absurd (heq.trans (hemail.trans hsame.email.symm)) hno
    · cases hx
      rfl
    · cases hx

/-- No body raises the conflict of `_finalize`. -/
theorem body_tame (h : Accounts hasher issued db) {t : RegistrationTx}
    (hp : t.Prepared hasher issued db) : Tame (t.body fmt locked db) := by
  cases t with
  | getByKeyHash keyHash =>
      refine Tame.bind ?_ fun _ => tame_ok _
      simp only [Registrations.getByKeyHash]
      split
      · exact tame_ok _
      · exact (tame_toDomain _).bind fun _ => tame_ok _
  | getUserByEmail email => exact tame_ok _
  | tryCreate candidate =>
      refine Tame.bind ?_ fun _ => tame_ok _
      simp only [Registrations.tryCreate]
      split
      · exact tame_error rfl
      · split
        · exact tame_ok _
        · exact (tame_toDomain _).bind fun _ => tame_ok _
  | commit => exact tame_ok _
  | getUser userId => exact tame_ok _
  | claimByKeyHash keyHash ownerToken claimedAt claimExpiresAt =>
      refine Tame.bind ?_ fun _ => tame_ok _
      refine (tame_window _ _).bind fun _ => tame_write.bind fun _ => ?_
      split
      · exact tame_ok _
      · exact (tame_toDomain _).bind fun _ => tame_ok _
      · exact tame_error rfl
  | claimBatch ownerToken claimedAt claimExpiresAt limit =>
      refine Tame.bind ?_ fun _ => tame_ok _
      simp only [Registrations.claimBatch]
      split
      · exact tame_error rfl
      · exact (tame_window _ _).bind fun _ => tame_write.bind fun _ =>
          (tame_mapM _).bind fun _ => tame_ok _
  | finalize operationId ownerToken completedAt user eventId correlationId =>
      exact finalize_tame h hp
  | scheduleRetry operationId ownerToken failedAt availableAt errorClass =>
      exact tame_finish.bind fun _ => tame_ok _
  | block operationId ownerToken blockedAt errorClass => exact tame_finish.bind fun _ => tame_ok _
  | redriveBlocked operationId availableAt =>
      refine Tame.bind ?_ fun _ => tame_ok _
      exact tame_write.bind fun _ => tame_ok _

end RegistrationTx

end IdentityService
