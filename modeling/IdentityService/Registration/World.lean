import IdentityService.Registration.Handlers

/-!
# Runs of the registration system

The machine the handlers run on: the tables, the clock and the task list,
with the outside free to fail any unit of work (rolled back, or committed
and reported as failed all the same), to answer a Profile call in any way,
to draw any UUID, and to kill a process between two awaits.
-/

namespace IdentityService

open Concurrent

/-- A unit of work that went through: whose it was, and the tables before
and after. -/
structure RegistrationChange where
  pid : Nat
  before : RegistrationDb
  after : RegistrationDb

/-- A Profile call that has been answered. -/
structure ProfileCall where
  pid : Nat
  userId : Uuid
  registeredAt : Time
  returned : Bool

/-- The last four fields are history: the units of work that went through,
the exceptions raised inside one, the Profile calls, and who has met an
injected failure. -/
structure RegistrationWorld where
  db : RegistrationDb
  clock : Time
  tasks : List RegistrationTask
  finished : Nat → Bool
  history : List RegistrationChange
  raised : List Exn
  profiles : List ProfileCall
  failed : Nat → Bool

/-- What a Profile call comes to. -/
inductive ProfileReply where
  | created
  | rejected
  | unavailable
  | failed (tag : Nat)
  | cancelled
deriving DecidableEq

/-- What the handler sees of it. -/
def ProfileReply.answer : ProfileReply → Except Exn Unit
  | .created => .ok ()
  | .rejected => .error .profileProvisioningRejected
  | .unavailable => .error .profileProvisioningUnavailable
  | .failed tag => .error (.other tag)
  | .cancelled => .error .cancelled

/-- How the outside answers an await. -/
inductive RegistrationChoice where
  | go (locked : Uuid → Bool)
  | fault (x : Exn)
  | applied (locked : Uuid → Bool) (x : Exn)
  | uuid (u : Uuid)
  | jitter (sample : ℚ)
  | salt (s : String)
  | profile (reply : ProfileReply)

/-- The failures an await may be answered with: whatever
`translate_database_error` makes of a driver error, a hashing failure, a
cancellation. -/
def RegistrationEff.mayRaise : RegistrationEff → Exn → Bool
  | .tx _, x => x = .persistenceError || x = .persistenceUnavailable || x = .transactionConflict ||
      x = .persistenceIntegrity || x = .cancelled
  | .hash _, x => x = .passwordHashing || x = .cancelled
  | .verify _ _, x => x = .passwordHashing || x = .cancelled
  | .join _ _, x => x = .cancelled
  | _, _ => false

/-- What leaves a unit of work whose body raised `x`. -/
def Exn.unwound : Exn → Exn
  | .database d => translateDatabaseError d
  | x => x

namespace RegistrationWorld

def start (clock : Time) : RegistrationWorld :=
  ⟨⟨[], [], [], []⟩, clock, [], fun _ => false, [], [], [], fun _ => false⟩

/-- A process has met an injected failure. -/
def fail (w : RegistrationWorld) (i : Nat) : RegistrationWorld :=
  { w with failed := Function.update w.failed i true }

/-- A unit of work goes through. -/
def commit (w : RegistrationWorld) (i : Nat) (db : RegistrationDb) : RegistrationWorld :=
  { w with db := db, history := w.history ++ [⟨i, w.db, db⟩] }

variable (cfg : RegistrationConfig)

/-- A unit of work that the database does not fail. -/
def transact (i : Nat) (t : RegistrationTx) (locked : Uuid → Bool) (w : RegistrationWorld) :
    Except Exn t.Resp × RegistrationWorld :=
  match t.body cfg.format locked w.db with
  | .ok (a, db) => (.ok a, w.commit i db)
  | .error x => (.error x.unwound, { w with raised := w.raised ++ [x] })

/-- How an await of process `i` is answered; `none` where it has to wait. -/
def exec (i : Nat) (e : RegistrationEff) (c : RegistrationChoice) (w : RegistrationWorld) :
    Option (Except Exn e.Resp × RegistrationWorld) :=
  match e, c with
  | e, .fault x => if e.mayRaise x then some (.error x, w.fail i) else none
  | .tx t, .go locked => some (transact cfg i t locked w)
  | .tx t, .applied locked x =>
    if (RegistrationEff.tx t).mayRaise x then
      some (.error x, (transact cfg i t locked w).2.fail i)
    else none
  | .now, .go _ => some (.ok w.clock, w)
  | .uuid, .uuid u => some (.ok u, w)
  | .jitter, .jitter sample => some (.ok sample, w)
  | .hash password, .salt s => some (.ok (cfg.hasher.hash password s), w)
  | .verify password passwordHash, .go _ => some (.ok (cfg.hasher.verify password passwordHash), w)
  | .createProfile userId registeredAt, .profile reply =>
    some (reply.answer,
      { w with profiles := w.profiles ++ [⟨i, userId, registeredAt, reply = .created⟩] })
  | .spawn tasks, .go _ => some (.ok w.tasks.length, { w with tasks := w.tasks ++ tasks })
  | .task n, .go _ => w.tasks[n]?.map fun t => (.ok t, w)
  | .done n, .go _ => some (.ok (), { w with finished := Function.update w.finished n true })
  | .join first count, .go _ =>
    if (List.range count).all fun k => w.finished (first + k) then some (.ok (), w) else none
  | _, _ => none

/-- Time passes; the relay and the cleanup work on the outbox. -/
inductive Env where
  | tick (elapsed : Nat)
  | relay (rows : List OutboxMessage)

/-- What happens besides. -/
def env : Env → RegistrationWorld → Option RegistrationWorld
  | .tick d, w => some { w with clock := w.clock + d }
  | .relay rows, w => some { w with db := { w.db with outbox := rows } }

end RegistrationWorld

/-- The registration system. -/
def registrationMachine (cfg : RegistrationConfig) :
    Machine registrationSig Exn RegistrationWorld where
  Choice := RegistrationChoice
  Env := RegistrationWorld.Env
  exec := RegistrationWorld.exec cfg
  env := RegistrationWorld.env
  kill _ w := w

/-- Any number of processes on an empty database. -/
def registrationStart (cfg : RegistrationConfig) (clock : Time)
    (callees : Nat → Option RegistrationCallee) :
    Config registrationSig Exn RegistrationWorld RegistrationAnswer :=
  ⟨.start clock, fun i => (callees i).map (RegistrationCallee.program cfg)⟩

abbrev RegistrationReach (cfg : RegistrationConfig) :=
  (registrationMachine cfg).Reach (α := RegistrationAnswer) fun _ _ => True

end IdentityService
