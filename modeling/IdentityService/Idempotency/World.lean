import IdentityService.Concurrent.Store
import IdentityService.Idempotency.HotStore

/-!
# The world the idempotency layer runs in

PostgreSQL (a `Store` whose keys are the caller's own tables and the
identities of `idempotency_records`), the shared clock and Valkey, with
the effects the application code awaits. The business tables and the other
effects of a callback are a parameter, `Business`, so everything proved
about idempotent execution holds for every callback.

`uow` is `async with self._uow`: `SQLAlchemyAsyncUOW` opens a transaction
with its first statement and its `__aexit__` commits, or rolls back, and
translates driver errors.
-/

namespace IdentityService

open Concurrent

/-- What a callback works on: its tables, by key, and the effects it has
besides statements (fresh identifiers, token issuing). -/
structure Business where
  Key : Type
  keyEq : DecidableEq Key
  Row : Key → Type
  Ext : Type
  ExtResp : Ext → Type

variable (B : Business) (C : ResultCodec)

instance : DecidableEq B.Key := B.keyEq

/-- Rows of the business tables, and records by identity. The unique
constraint on `(subject_id, operation, key_hash)` makes an identity a
key. -/
inductive Key where
  | biz (k : B.Key)
  | record (identity : IdempotencyIdentity)
deriving DecidableEq

variable {B} in
/-- The row that a key stands for. -/
@[reducible] def Key.Row : Key B → Type
  | .biz k => B.Row k
  | .record _ => IdempotencyRecord

/-- The awaits of the application code. `heartbeat` stands for the renewal
task of one lease, reduced to the flag the coordinator reads when it stops
it: whether the lease was lost. -/
inductive Eff where
  | db (o : StoreOp (Key B) Key.Row)
  | now
  | ext (x : B.Ext)
  | ownerToken
  | hotBegin (identity : IdempotencyIdentity) (requestHash : Digest) (ownerToken : Uuid)
  | hotComplete (identity : IdempotencyIdentity) (ownerToken : Uuid)
      (result : CompletedIdempotencyResult)
  | hotAbandon (identity : IdempotencyIdentity) (ownerToken : Uuid)
  | heartbeat (identity : IdempotencyIdentity) (ownerToken : Uuid)
  | observeOutcome (outcome : ExecutionOutcome)
  | observeHotDegraded (stage : String)

variable {B} in
@[reducible] def Eff.Resp : Eff B → Type
  | .db o => o.Resp
  | .now => Time
  | .ext x => B.ExtResp x
  | .ownerToken => Uuid
  | .hotBegin _ _ _ => BeginResult
  | .hotComplete _ _ _ => Bool
  | .hotAbandon _ _ => Bool
  | .heartbeat _ _ => Bool
  | .observeOutcome _ => Unit
  | .observeHotDegraded _ => Unit

def sig : Sig := ⟨Eff B, Eff.Resp⟩

/-- The effects a callback has: statements on its own tables, the clock,
and its external ones. It can neither end the transaction nor touch the
records, as the service demands of it. -/
inductive OpEff where
  | read (k : B.Key)
  | lock (k : B.Key)
  | put (k : B.Key) (r : B.Row k)
  | insert (k : B.Key) (r : B.Row k)
  | now
  | ext (x : B.Ext)

variable {B} in
@[reducible] def OpEff.Resp : OpEff B → Type
  | .read k => Option (B.Row k)
  | .lock k => Option (B.Row k)
  | .put _ _ => Unit
  | .insert _ _ => Bool
  | .now => Time
  | .ext x => B.ExtResp x

/-- The effects of an operation inside its transaction. -/
def opSig : Sig := ⟨OpEff B, OpEff.Resp⟩

variable {B} in
/-- An operation's effect, in its process. -/
def OpEff.toEff : OpEff B → Eff B
  | .read k => .db (.read (.biz k))
  | .lock k => .db (.lock (.biz k))
  | .put k r => .db (.put (.biz k) r)
  | .insert k r => .db (.insert (.biz k) r)
  | .now => .now
  | .ext x => .ext x

variable {B} in
/-- The two signatures answer alike. -/
def OpEff.ofResp : (e : OpEff B) → e.toEff.Resp → e.Resp
  | .read _, r => r
  | .lock _, r => r
  | .put _ _, r => r
  | .insert _ _, r => r
  | .now, r => r
  | .ext _, r => r

/-- Operations run in processes. -/
def opEmbedding : Prog.Embedding (opSig B) (sig B) := ⟨OpEff.toEff, OpEff.ofResp⟩

/-- Application code. -/
abbrev App (α : Type) := Prog (sig B) Exn α

/-- `IdempotentOperation`: the body of a business transaction. -/
abbrev Operation (α : Type) := Prog (opSig B) Exn α

variable {B}

/-- Run a callback inside the transaction of its caller. -/
def Operation.run {α : Type} (op : Operation B α) : App B α := op.lift (opEmbedding B)

/-! ## The machine -/

variable (B)

/-- `observed` are the outcomes the idempotency observer was told, by
caller; `failed` says who has met a database failure, or was stopped in the
middle. -/
structure World where
  store : Store (Key B) Key.Row
  clock : Time
  hot : IdempotencyIdentity → Option (HotHash C.Blob)
  observed : Nat → List ExecutionOutcome
  failed : Nat → Bool

/-- How the outside resolves an effect. -/
inductive Choice where
  | fate (f : Fate Fault)
  | flag (b : Bool)
  | token (u : Uuid)
  | ext (answer : (x : B.Ext) → B.ExtResp x)

/-- Steps of the outside: time passes, a Valkey entry expires or is
evicted, `delete_expired` removes records whose expiry is not after its
cutoff (which of them, its ordering and limit decide). -/
inductive EnvStep where
  | tick (d : Nat)
  | drop (identity : IdempotencyIdentity)
  | deleteExpired (cutoff : Time) (identities : List IdempotencyIdentity)

variable {B C}

def World.withHot (w : World B C) (identity : IdempotencyIdentity)
    (entry : Option (HotHash C.Blob)) : World B C :=
  { w with hot := Function.update w.hot identity entry }

/-- Note that a statement of process `i` has failed. -/
def World.hit (w : World B C) (i : Nat) : World B C :=
  { w with failed := Function.update w.failed i true }

def World.withStore (w : World B C) (store : Store (Key B) Key.Row) : World B C :=
  { w with store := store }

/-- Note how a statement of process `i` ended. -/
def World.settle (w : World B C) (i : Nat) (f : Fate Fault) : World B C :=
  match f with
  | .go => w
  | _ => w.hit i

/-- A hot-store call that raised: the store's own unavailability is part of
the protocol, anything else (a cancellation) has cut the caller short. -/
def World.interrupt (w : World B C) (i : Nat) (x : Exn) : World B C :=
  if x = .idempotencyStorageUnavailable then w else w.hit i

/-- A script call: it may fail before it runs, or after. -/
def hotCall {α : Type} (i : Nat) (w : World B C) (identity : IdempotencyIdentity) (f : Fate Fault)
    (out : Except Exn α × Option (HotHash C.Blob)) : Option (Except Exn α × World B C) :=
  match f with
  | .go => some (out.1, w.withHot identity out.2)
  | .fault x => some (.error x.exn, w.interrupt i x.exn)
  | .applied x => some (.error x.exn, (w.withHot identity out.2).interrupt i x.exn)

/-- How an await of process `i` is answered; `none` where it has to wait. -/
def exec (i : Nat) : (e : Eff B) → Choice B → World B C → Option (Except Exn e.Resp × World B C)
  | .db o, .fate f, w =>
    (o.exec i (f.map Fault.exn) w.store).map fun out => (out.1, (w.settle i f).withStore out.2)
  | .now, .fate .go, w => some (.ok w.clock, w)
  | .ext x, .ext answer, w => some (.ok (answer x), w)
  | .ext _, .fate (.fault x), w => some (.error x.exn, w)
  | .ownerToken, .token u, w => some (.ok u, w)
  | .hotBegin identity requestHash ownerToken, .fate f, w =>
    hotCall i w identity f (hotBegin C requestHash ownerToken (w.hot identity))
  | .hotComplete identity ownerToken result, .fate f, w =>
    let out := HotHash.completeScript ownerToken (C.encode result) result.requestHash
      (w.hot identity)
    hotCall i w identity f (.ok out.1, out.2)
  | .hotAbandon identity ownerToken, .fate f, w =>
    let out := HotHash.abandonScript ownerToken (w.hot identity)
    hotCall i w identity f (.ok out.1, out.2)
  | .heartbeat _ _, .flag b, w => some (.ok b, w)
  | .observeOutcome outcome, .fate .go, w =>
    some (.ok (), { w with
      observed := Function.update w.observed i (w.observed i ++ [outcome]) })
  | .observeHotDegraded _, .fate .go, w => some (.ok (), w)
  | _, _, _ => none

/-- The records `delete_expired` may remove at this cutoff. -/
def World.expired (w : World B C) (cutoff : Time) (identity : IdempotencyIdentity) : Bool :=
  match w.store.rows (.record identity) with
  | some r => r.expiresAt ≤ cutoff
  | none => false

/-- What happens besides: time, evictions, and the cleanup of expired records. -/
def envStep : EnvStep → World B C → Option (World B C)
  | .tick d, w => some { w with clock := w.clock + d }
  | .drop identity, w => some (w.withHot identity none)
  | .deleteExpired cutoff ids, w =>
    if ids.all (w.expired cutoff) then
      (w.store.delete (ids.map .record)).map fun st => { w with store := st }
    else none

variable (B C)

/-- The interleaving machine. A dead process takes its open transaction
with it. -/
def machine : Machine (sig B) Exn (World B C) where
  Choice := Choice B
  Env := EnvStep
  exec := exec
  env := envStep
  kill i w := { w with store := w.store.close i }

variable {B C}

/-! ## Statements and units of work -/

/-- Await one effect. -/
def ask (e : Eff B) : App B e.Resp := Prog.perform (S := sig B) e

def read (k : Key B) : App B (Option k.Row) := ask (.db (.read k))

/-- `INSERT .. ON CONFLICT DO NOTHING`. -/
def insert (k : Key B) (r : k.Row) : App B Bool := ask (.db (.insert k r))

def commit : App B Unit := ask (.db .commit)

def rollback : App B Unit := ask (.db .rollback)

/-- `utc_now`. -/
def utcNow : App B Time := ask .now

/-- The two `except` clauses of `__aexit__`: roll back once more, with the
driver's own errors suppressed if it was a driver error to begin with. -/
def unwind (error : Exn) : App B Unit :=
  match error with
  | .database d => do
    match ← rollback.outcome with
    | .ok () => throw (translateDatabaseError d)
    | .error (.database _) => throw (translateDatabaseError d)
    | .error x => throw x
  | _ => do
    rollback
    throw error

/-- `SQLAlchemyAsyncUOW.__aexit__`. -/
def aexit (exc : Option Exn) : App B Unit := do
  match ← (if exc.isNone then commit else rollback).outcome with
  | .error error => unwind error
  | .ok () =>
    match exc with
    | some (.database d) => throw (translateDatabaseError d)
    | _ => pure ()

/-- `async with self._uow: body`. -/
def uow {α : Type} (body : App B α) : App B α := do
  match ← body.outcome with
  | .ok a =>
    aexit none
    pure a
  | .error x =>
    aexit (some x)
    throw x

end IdentityService
