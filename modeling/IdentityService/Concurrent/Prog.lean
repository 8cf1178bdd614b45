import Mathlib.Logic.Function.Basic
import Mathlib.Logic.Relation

/-!
# Programs over atomic effects

A coroutine is sequential code cut at its suspension points: between two
awaits it runs alone, and at an await it asks the outside for one ATOMIC
effect and goes on with the answer. `Prog` is that shape as data, so a
handler written in `do` notation is both readable beside its source and an
object one can interleave, step by step, with any number of others.

Every answer is an `Except`: the outside may refuse any effect with an
exception (a lost connection, a cancellation), and `try`/`catch` are
ordinary operations on programs.

* `Machine` gives the effects a meaning on a shared state; `Machine.step`
  interleaves a pool of programs, one effect at a time, with environment
  steps and crashes;
* `Machine.Steps` is the unlabelled step under a constraint on the shared
  states, and runs are its reflexive transitive closure;
* `Machine.traced` is the same machine with a history of the answers.
-/

namespace Concurrent

/-- The atomic effects a program may ask for, and the type of each answer. -/
structure Sig where
  Op : Type
  Resp : Op → Type

/-- Sequential code over the effects of `S`, raising exceptions of type `ε`. -/
inductive Prog (S : Sig) (ε α : Type) where
  | ret (a : α)
  | throw (x : ε)
  | op (e : S.Op) (k : Except ε (S.Resp e) → Prog S ε α)

namespace Prog

variable {S T : Sig} {ε α β γ : Type}

/-- Sequencing: exceptions skip the continuation. -/
def bind : Prog S ε α → (α → Prog S ε β) → Prog S ε β
  | .ret a, f => f a
  | .throw x, _ => .throw x
  | .op e k, f => .op e fun r => (k r).bind f

/-- `try p except x: h x`, for every exception. -/
def handle : Prog S ε α → (ε → Prog S ε α) → Prog S ε α
  | .ret a, _ => .ret a
  | .throw x, h => h x
  | .op e k, h => .op e fun r => (k r).handle h

/-- The outcome of `p` as a value: what a `try` statement with an `else`
branch inspects. -/
def outcome : Prog S ε α → Prog S ε (Except ε α)
  | .ret a => .ret (.ok a)
  | .throw x => .ret (.error x)
  | .op e k => .op e fun r => (k r).outcome

/-- A program from a settled outcome. -/
def ofExcept : Except ε α → Prog S ε α
  | .ok a => .ret a
  | .error x => .throw x

/-- Ask for one effect and return its answer. -/
def perform (e : S.Op) : Prog S ε (S.Resp e) := .op e ofExcept

instance : Monad (Prog S ε) where
  pure := .ret
  bind := bind

instance : MonadExceptOf ε (Prog S ε) where
  throw := .throw
  tryCatch := handle

@[simp] theorem pure_eq (a : α) : (pure a : Prog S ε α) = .ret a := rfl

@[simp] theorem bind_eq (p : Prog S ε α) (f : α → Prog S ε β) : p >>= f = p.bind f := rfl

@[simp] theorem throw_eq (x : ε) : (throw x : Prog S ε α) = .throw x := rfl

@[simp] theorem ret_bind (a : α) (f : α → Prog S ε β) : (Prog.ret a).bind f = f a := rfl

@[simp] theorem throw_bind (x : ε) (f : α → Prog S ε β) :
    (Prog.throw x).bind f = .throw x := rfl

theorem bind_assoc (p : Prog S ε α) (f : α → Prog S ε β) (g : β → Prog S ε γ) :
    (p.bind f).bind g = p.bind fun a => (f a).bind g := by
  induction p with
  | ret a => rfl
  | throw x => rfl
  | op e k ih => exact congrArg (Prog.op e) (funext ih)

@[simp] theorem outcome_ofExcept (r : Except ε α) :
    (ofExcept r : Prog S ε α).outcome = .ret r := by
  cases r <;> rfl

/-- Every exception that leaves the program satisfies `P`, if those the
outside injects do. -/
def RaisesOnly (P : ε → Prop) : Prog S ε α → Prop
  | .ret _ => True
  | .throw x => P x
  | .op _ k => (∀ a, (k (.ok a)).RaisesOnly P) ∧ ∀ x, P x → (k (.error x)).RaisesOnly P

/-- How one signature's effects are performed in another. -/
structure Embedding (S T : Sig) where
  op : S.Op → T.Op
  resp : (e : S.Op) → T.Resp (op e) → S.Resp e

/-- Run a program of `S` with the effects of `T`. -/
def lift (φ : Embedding S T) : Prog S ε α → Prog T ε α
  | .ret a => .ret a
  | .throw x => .throw x
  | .op e k => .op (φ.op e) fun r => (k (r.map (φ.resp e))).lift φ

end Prog

/-! ## Machines: what the effects do, and how programs interleave -/

/-- The meaning of a signature on a shared state. `exec i e c s` performs
`e` for process `i` under the outside's choice `c`: `none` when the effect
has to wait in `s` (or `c` does not fit), else the answer and the next
state. `env` are the steps no process takes, `kill i` is what is left of
the state when process `i` dies. -/
structure Machine (S : Sig) (ε σ : Type) where
  Choice : Type
  Env : Type
  exec : Nat → (e : S.Op) → Choice → σ → Option (Except ε (S.Resp e) × σ)
  env : Env → σ → Option σ
  kill : Nat → σ → σ

/-- The shared state and the rest of each process's program (`none`: the
process died). -/
structure Config (S : Sig) (ε σ α : Type) where
  shared : σ
  pool : Nat → Option (Prog S ε α)

namespace Machine

variable {S : Sig} {ε σ α : Type} (M : Machine S ε σ)

/-- One step of the interleaving: who moves, and how the outside answers. -/
inductive Label where
  | act (i : Nat) (c : M.Choice)
  | env (v : M.Env)
  | crash (i : Nat)

/-- Process `i` performs its next effect under choice `c`. -/
def act (i : Nat) (c : M.Choice) (C : Config S ε σ α) : Option (Config S ε σ α) :=
  match C.pool i with
  | some (.op e k) =>
    (M.exec i e c C.shared).map fun out =>
      ⟨out.2, Function.update C.pool i (some (k out.1))⟩
  | _ => none

/-- Process `i` dies in the middle of its program. -/
def crash (i : Nat) (C : Config S ε σ α) : Option (Config S ε σ α) :=
  match C.pool i with
  | some (.op _ _) => some ⟨M.kill i C.shared, Function.update C.pool i none⟩
  | _ => none

/-- What happens when a label is taken, if it can be. -/
def step (C : Config S ε σ α) : M.Label → Option (Config S ε σ α)
  | .act i c => M.act i c C
  | .env v => (M.env v C.shared).map fun s => ⟨s, C.pool⟩
  | .crash i => M.crash i C

/-- One step whose effect on the shared state satisfies `con`. -/
def Steps (con : σ → σ → Prop) (C C' : Config S ε σ α) : Prop :=
  ∃ l, M.step C l = some C' ∧ con C.shared C'.shared

/-- Runs under a constraint on each step. -/
def Reach (con : σ → σ → Prop) : Config S ε σ α → Config S ε σ α → Prop :=
  Relation.ReflTransGen (M.Steps con)

/-- A schedule, executed as long as every step passes the check `ok`. -/
def run (ok : σ → σ → Bool) (C : Config S ε σ α) (ls : List M.Label) : Option (Config S ε σ α) :=
  ls.foldlM (fun C l => (M.step C l).filter fun C' => ok C.shared C'.shared) C

/-- A schedule that succeeds is a run, if the check implies the
constraint. -/
theorem reach_of_run {con : σ → σ → Prop} {ok : σ → σ → Bool}
    (hok : ∀ s s', ok s s' = true → con s s') :
    ∀ (ls : List M.Label) (C C' : Config S ε σ α), M.run ok C ls = some C' → M.Reach con C C' := by
  intro ls
  induction ls with
  | nil =>
      intro C C' h
      cases h
      exact .refl
  | cons l ls ih =>
      intro C C' h
      simp only [run, List.foldlM_cons, Option.bind_eq_bind, Option.bind_eq_some_iff,
        Option.filter_eq_some_iff] at h
      obtain ⟨C₁, ⟨h₁, hc⟩, h₂⟩ := h
      exact .head ⟨l, h₁, hok _ _ hc⟩ (ih C₁ C' h₂)

variable {M}

/-- The step of a process that stands before effect `e`. -/
theorem step_act {C C' : Config S ε σ α} {i : Nat} {c : M.Choice} {e : S.Op}
    {k : Except ε (S.Resp e) → Prog S ε α} (hp : C.pool i = some (.op e k))
    (h : M.step C (.act i c) = some C') :
    ∃ r s, M.exec i e c C.shared = some (r, s) ∧
      C' = ⟨s, Function.update C.pool i (some (k r))⟩ := by
  simp only [step, act, hp, Option.map_eq_some_iff] at h
  obtain ⟨⟨r, s⟩, hx, rfl⟩ := h
  exact ⟨r, s, hx, rfl⟩

/-- Everything one step can do. -/
theorem step_cases {C C' : Config S ε σ α} {l : M.Label} (h : M.step C l = some C') :
    (∃ i c e k r s, l = .act i c ∧ C.pool i = some (.op e k) ∧
      M.exec i e c C.shared = some (r, s) ∧
      C' = ⟨s, Function.update C.pool i (some (k r))⟩) ∨
    (∃ v s, l = .env v ∧ M.env v C.shared = some s ∧ C' = ⟨s, C.pool⟩) ∨
    (∃ i e k, l = .crash i ∧ C.pool i = some (.op e k) ∧
      C' = ⟨M.kill i C.shared, Function.update C.pool i none⟩) := by
  cases l with
  | act i c =>
      refine .inl ?_
      simp only [step, act] at h
      split at h
      · rename_i e k hp
        simp only [Option.map_eq_some_iff] at h
        obtain ⟨⟨r, s⟩, hx, rfl⟩ := h
        exact ⟨i, c, e, k, r, s, rfl, hp, hx, rfl⟩
      · cases h
  | env v =>
      refine .inr (.inl ?_)
      simp only [step, Option.map_eq_some_iff] at h
      obtain ⟨s, hx, rfl⟩ := h
      exact ⟨v, s, rfl, hx, rfl⟩
  | crash i =>
      refine .inr (.inr ?_)
      simp only [step, crash] at h
      split at h
      · rename_i e k hp
        cases h
        exact ⟨i, e, k, rfl, hp, rfl⟩
      · cases h

end Machine

/-! ## One process on its own -/

namespace Machine

variable {S : Sig} {ε σ α β : Type} (M : Machine S ε σ)

/-- Process `i` runs `p` from `s` to its end, outcome `r` in state `s'`,
with nobody else moving and the outside's choices among the `fair` ones. -/
def Alone (fair : M.Choice → Bool) (i : Nat) :
    Prog S ε α → σ → Except ε α → σ → Prop
  | .ret a, s, r, s' => r = .ok a ∧ s' = s
  | .throw x, s, r, s' => r = .error x ∧ s' = s
  | .op e k, s, r, s' => ∃ c a s₁, fair c = true ∧ M.exec i e c s = some (a, s₁) ∧
      Alone fair i (k a) s₁ r s'

/-- How a sequence goes on after the outcome of its first part. -/
def Onwards (fair : M.Choice → Bool) (i : Nat) (f : α → Prog S ε β) :
    Except ε α → σ → Except ε β → σ → Prop
  | .ok a, s, r, s' => M.Alone fair i (f a) s r s'
  | .error x, s, r, s' => r = .error x ∧ s' = s

variable {M} {fair : M.Choice → Bool} {i : Nat} {s s' : σ}

theorem alone_bind {p : Prog S ε α} {f : α → Prog S ε β} {r : Except ε β} :
    M.Alone fair i (p.bind f) s r s' ↔
      ∃ r₁ s₁, M.Alone fair i p s r₁ s₁ ∧ M.Onwards fair i f r₁ s₁ r s' := by
  induction p generalizing s with
  | ret a =>
      constructor
      · exact fun h => ⟨_, _, ⟨rfl, rfl⟩, h⟩
      · rintro ⟨r₁, s₁, ⟨rfl, rfl⟩, h⟩
        exact h
  | throw x =>
      constructor
      · exact fun h => ⟨_, _, ⟨rfl, rfl⟩, h⟩
      · rintro ⟨r₁, s₁, ⟨rfl, rfl⟩, h⟩
        exact h
  | op e k ih =>
      constructor
      · rintro ⟨c, a, s₂, hf, hx, h⟩
        obtain ⟨r₁, s₁, h₁, h₂⟩ := (ih a).mp h
        exact ⟨r₁, s₁, ⟨c, a, s₂, hf, hx, h₁⟩, h₂⟩
      · rintro ⟨r₁, s₁, ⟨c, a, s₂, hf, hx, h₁⟩, h₂⟩
        exact ⟨c, a, s₂, hf, hx, (ih a).mpr ⟨r₁, s₁, h₁, h₂⟩⟩

theorem alone_outcome {p : Prog S ε α} {r : Except ε (Except ε α)} :
    M.Alone fair i p.outcome s r s' ↔ ∃ r₁, r = .ok r₁ ∧ M.Alone fair i p s r₁ s' := by
  induction p generalizing s with
  | ret a =>
      constructor
      · exact fun h => ⟨_, h.1, rfl, h.2⟩
      · rintro ⟨_, rfl, rfl, rfl⟩
        exact ⟨rfl, rfl⟩
  | throw x =>
      constructor
      · exact fun h => ⟨_, h.1, rfl, h.2⟩
      · rintro ⟨_, rfl, rfl, rfl⟩
        exact ⟨rfl, rfl⟩
  | op e k ih =>
      constructor
      · rintro ⟨c, a, s₂, hf, hx, h⟩
        obtain ⟨r₁, rfl, h₁⟩ := (ih a).mp h
        exact ⟨r₁, rfl, c, a, s₂, hf, hx, h₁⟩
      · rintro ⟨r₁, rfl, c, a, s₂, hf, hx, h₁⟩
        exact ⟨c, a, s₂, hf, hx, (ih a).mpr ⟨r₁, rfl, h₁⟩⟩

/-- A run on one's own is a run of the interleaving. -/
theorem Alone.reach {p : Prog S ε α} {r : Except ε α} (h : M.Alone fair i p s r s')
    (pool : Nat → Option (Prog S ε α)) :
    M.Reach (fun _ _ => True) ⟨s, Function.update pool i (some p)⟩
      ⟨s', Function.update pool i (some (.ofExcept r))⟩ := by
  induction p generalizing s with
  | ret a =>
      obtain ⟨rfl, rfl⟩ := h
      exact .refl
  | throw x =>
      obtain ⟨rfl, rfl⟩ := h
      exact .refl
  | op e k ih =>
      obtain ⟨c, a, s₁, -, hx, hk⟩ := h
      refine .head ⟨.act i c, ?_, trivial⟩ (ih a hk)
      simp [step, act, hx]

end Machine

/-! ## Histories -/

/-- Process `pid` asked for `op` and was answered `resp`. -/
structure Event (S : Sig) (ε : Type) where
  pid : Nat
  op : S.Op
  resp : Except ε (S.Resp op)

/-- A shared state with the history of every answer given so far. -/
structure Traced (S : Sig) (ε σ : Type) where
  state : σ
  trace : List (Event S ε)

namespace Machine

variable {S : Sig} {ε σ α : Type}

/-- The same machine, recording each answer. -/
def traced (M : Machine S ε σ) : Machine S ε (Traced S ε σ) where
  Choice := M.Choice
  Env := M.Env
  exec i e c s :=
    (M.exec i e c s.state).map fun out => (out.1, ⟨out.2, s.trace ++ [⟨i, e, out.1⟩]⟩)
  env v s := (M.env v s.state).map fun t => ⟨t, s.trace⟩
  kill i s := ⟨M.kill i s.state, s.trace⟩

variable {M : Machine S ε σ}

theorem traced_exec {i : Nat} {e : S.Op} {c : M.Choice} {s s' : Traced S ε σ}
    {r : Except ε (S.Resp e)} :
    M.traced.exec i e c s = some (r, s') ↔
      M.exec i e c s.state = some (r, s'.state) ∧ s'.trace = s.trace ++ [⟨i, e, r⟩] := by
  obtain ⟨t', tr'⟩ := s'
  simp only [traced, Option.map_eq_some_iff, Prod.mk.injEq, Traced.mk.injEq]
  constructor
  · rintro ⟨⟨r', t⟩, hx, rfl, rfl, rfl⟩
    exact ⟨hx, rfl⟩
  · rintro ⟨hx, rfl⟩
    exact ⟨(r, t'), hx, rfl, rfl, rfl⟩

end Machine

end Concurrent
