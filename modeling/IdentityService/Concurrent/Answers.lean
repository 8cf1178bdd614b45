import IdentityService.Concurrent.Flow

/-!
# What a program can answer

`p.Given told Q` says that every outcome of `p` satisfies `Q`, as long as
each effect is answered as `told` allows; `p.Answers may Q` is the case in
which only the exceptions are restricted. Both are specifications of values
and exceptions alone: no state and no other process is in them, so they hold
in every interleaving.
-/

namespace Concurrent

variable {S T : Sig} {ε σ α β : Type}

namespace Prog

/-- Every outcome satisfies `Q`, if each effect is answered as `told`
allows. -/
def Given (told : (e : S.Op) → Except ε (S.Resp e) → Prop) (Q : Except ε α → Prop) :
    Prog S ε α → Prop
  | .ret a => Q (.ok a)
  | .throw x => Q (.error x)
  | .op e k => ∀ r, told e r → (k r).Given told Q

section Given

variable {told told' : (e : S.Op) → Except ε (S.Resp e) → Prop} {Q : Except ε α → Prop}
  {R : Except ε β → Prop}

theorem given_any (p : Prog S ε α) : p.Given told fun _ => True := by
  induction p with
  | ret a => trivial
  | throw x => trivial
  | op e k ih => exact fun r _ => ih r

theorem given_perform (e : S.Op) : (perform e).Given told (told e) := by
  intro r hr
  cases r with
  | ok a => exact hr
  | error x => exact hr

theorem Given.mono {p : Prog S ε α} {Q' : Except ε α → Prop} (h : p.Given told Q)
    (hQ : ∀ r, Q r → Q' r) : p.Given told Q' := by
  induction p with
  | ret a => exact hQ _ h
  | throw x => exact hQ _ h
  | op e k ih => exact fun r hr => ih r (h r hr)

theorem Given.bind {p : Prog S ε α} {f : α → Prog S ε β} (h : p.Given told Q)
    (hok : ∀ a, Q (.ok a) → (f a).Given told R) (herror : ∀ x, Q (.error x) → R (.error x)) :
    (p.bind f).Given told R := by
  induction p with
  | ret a => exact hok a h
  | throw x => exact herror x h
  | op e k ih => exact fun r hr => ih r (h r hr)

/-- `try p` with branches for every outcome. -/
theorem Given.attempt {p : Prog S ε α} {f : Except ε α → Prog S ε β} (h : p.Given told Q)
    (hf : ∀ r, Q r → (f r).Given told R) : (p.outcome.bind f).Given told R := by
  induction p with
  | ret a => exact hf _ h
  | throw x => exact hf _ h
  | op e k ih => exact fun r hr => ih r (h r hr)

end Given

/-- Every outcome satisfies `Q`, if each effect `e` raises only what
`may e` allows. -/
def Answers (may : S.Op → ε → Prop) (Q : Except ε α → Prop) : Prog S ε α → Prop
  | .ret a => Q (.ok a)
  | .throw x => Q (.error x)
  | .op e k => (∀ a, (k (.ok a)).Answers may Q) ∧ ∀ x, may e x → (k (.error x)).Answers may Q

variable {may : S.Op → ε → Prop} {Q : Except ε α → Prop} {R : Except ε β → Prop}

/-- Only what is raised is restricted. -/
def refusing (may : S.Op → ε → Prop) (e : S.Op) (r : Except ε (S.Resp e)) : Prop :=
  ∀ x, r = .error x → may e x

theorem answers_given {p : Prog S ε α} : p.Answers may Q ↔ p.Given (refusing may) Q := by
  induction p with
  | ret a => exact Iff.rfl
  | throw x => exact Iff.rfl
  | op e k ih =>
    constructor
    · intro h r hr
      cases r with
      | ok a => exact (ih _).mp (h.1 a)
      | error x => exact (ih _).mp (h.2 x (hr x rfl))
    · intro h
      refine ⟨fun a => (ih _).mpr (h _ fun x hx => by cases hx), fun x hx => ?_⟩
      refine (ih _).mpr (h _ fun y hy => ?_)
      cases hy
      exact hx

theorem answers_ofExcept {r : Except ε α} (h : Q r) : (ofExcept r).Answers may Q := by
  cases r with
  | ok a => exact h
  | error x => exact h

theorem answers_perform {e : S.Op} {Q : Except ε (S.Resp e) → Prop} (hok : ∀ a, Q (.ok a))
    (herror : ∀ x, may e x → Q (.error x)) : (perform e).Answers may Q :=
  ⟨hok, herror⟩

theorem Answers.bind {p : Prog S ε α} {f : α → Prog S ε β} (h : p.Answers may Q)
    (hok : ∀ a, Q (.ok a) → (f a).Answers may R) (herror : ∀ x, Q (.error x) → R (.error x)) :
    (p.bind f).Answers may R :=
  answers_given.mpr ((answers_given.mp h).bind (fun a ha => answers_given.mp (hok a ha)) herror)

/-- `try p` with branches for every outcome. -/
theorem Answers.attempt {p : Prog S ε α} {f : Except ε α → Prog S ε β} (h : p.Answers may Q)
    (hf : ∀ r, Q r → (f r).Answers may R) : (p.outcome.bind f).Answers may R :=
  answers_given.mpr ((answers_given.mp h).attempt fun r hr => answers_given.mp (hf r hr))

theorem Answers.lift {φ : Embedding S T} {may' : T.Op → ε → Prop} {p : Prog S ε α}
    (h : p.Answers may Q) (hmay : ∀ e x, may' (φ.op e) x → may e x) :
    (p.lift φ).Answers may' Q := by
  induction p with
  | ret a => exact h
  | throw x => exact h
  | op e k ih =>
    constructor
    · intro a
      exact ih _ (h.1 (φ.resp e a))
    · intro x hx
      exact ih _ (h.2 x (hmay e x hx))

/-- An exception satisfies `P`. -/
def raises (P : ε → Prop) (r : Except ε α) : Prop := ∀ x, r = .error x → P x

@[simp] theorem raises_ok (P : ε → Prop) (a : α) : raises P (.ok a : Except ε α) := by
  simp [raises]

@[simp] theorem raises_error (P : ε → Prop) (x : ε) :
    raises P (.error x : Except ε α) ↔ P x := by
  simp [raises]

section Raises

variable {P : ε → Prop}

theorem raises_bind {e : Except ε α} {f : α → Except ε β} (he : raises P e)
    (hf : ∀ a, raises P (f a)) : raises P (e >>= f) := by
  cases e with
  | ok a => exact hf a
  | error x =>
    intro y hy
    cases hy
    exact he x rfl

theorem raises_ite {c : Prop} [Decidable c] {e e' : Except ε α} (he : raises P e)
    (he' : raises P e') : raises P (if c then e else e') := by
  split
  · exact he
  · exact he'

theorem answers_await {e : S.Op} (h : ∀ x, may e x → P x) :
    (perform e).Answers may (raises P) := by
  refine answers_perform (fun a => ?_) fun x hx => ?_
  · simp
  · simpa using h x hx

theorem Answers.andThen {p : Prog S ε α} {f : α → Prog S ε β} (h : p.Answers may (raises P))
    (hf : ∀ a, (f a).Answers may (raises P)) : (p.bind f).Answers may (raises P) := by
  refine h.bind (fun a _ => hf a) ?_
  intro x hx
  simpa using hx

end Raises

end Prog

/-! ## In runs -/

namespace Machine

variable {M : Machine S ε σ} {may : S.Op → ε → Prop}

/-- Process `i` was refused an effect only as `may` allows. -/
def Refused (may : S.Op → ε → Prop) (trace : List (Event S ε)) (i : Nat) : Prop :=
  ∀ e ∈ trace, e.pid = i → ∀ x, e.resp = .error x → may e.op x

/-- **The specification of a program holds of its outcome in every run**
that answers the program's effects as it assumes. -/
theorem given_reach {told : (e : S.Op) → Except ε (S.Resp e) → Prop} {Q : Except ε α → Prop}
    {con : Traced S ε σ → Traced S ε σ → Prop} {C C' : Config S ε (Traced S ε σ) α}
    (hr : M.traced.Reach con C C') {i : Nat} {p p' : Prog S ε α} (hp : C.pool i = some p)
    (h : p.Given told Q) (htold : ∀ e ∈ C'.shared.trace, e.pid = i → told e.op e.resp)
    (hp' : C'.pool i = some p') : p'.Given told Q := by
  induction hr generalizing p' with
  | refl =>
    rw [hp] at hp'
    cases hp'
    exact h
  | @tail D D' hD hs ih =>
    have hbegins := trace_prefix (.single hs)
    have hearlier : ∀ e ∈ D.shared.trace, e.pid = i → told e.op e.resp :=
      fun e he => htold e (hbegins.subset he)
    have hbefore := @ih
    obtain ⟨l, hl, -⟩ := hs
    rcases traced_step_cases hl with ⟨j, c, e, k, r, t, -, hpj, -, rfl⟩ | ⟨v, t, -, -, rfl⟩ |
      ⟨j, e, k, -, -, rfl⟩
    · by_cases hj : i = j
      · subst hj
        simp only [Function.update_self, Option.some.injEq] at hp'
        subst hp'
        exact hbefore hearlier hpj r (htold ⟨i, e, r⟩ (by simp) rfl)
      · simp only [Function.update_of_ne hj] at hp'
        exact hbefore hearlier hp'
    · exact hbefore hearlier hp'
    · by_cases hj : i = j
      · subst hj
        simp at hp'
      · simp only [Function.update_of_ne hj] at hp'
        exact hbefore hearlier hp'

theorem answers_reach {Q : Except ε α → Prop} {con : Traced S ε σ → Traced S ε σ → Prop}
    {C C' : Config S ε (Traced S ε σ) α} (hr : M.traced.Reach con C C') {i : Nat}
    {p p' : Prog S ε α} (hp : C.pool i = some p) (h : p.Answers may Q)
    (hrefused : Refused may C'.shared.trace i) (hp' : C'.pool i = some p') :
    p'.Answers may Q :=
  Prog.answers_given.mpr (given_reach hr hp (Prog.answers_given.mp h) hrefused hp')

/-- Where the machine itself refuses nothing else, no run does. -/
theorem refused_reach (hexec : ∀ i e c s x s', M.exec i e c s = some (.error x, s') → may e x)
    {con : Traced S ε σ → Traced S ε σ → Prop} {C C' : Config S ε (Traced S ε σ) α}
    (hr : M.traced.Reach con C C') (hstart : C.shared.trace = []) (i : Nat) :
    Refused may C'.shared.trace i := by
  induction hr with
  | refl => simp [Refused, hstart]
  | tail _ hs ih =>
    obtain ⟨l, hl, -⟩ := hs
    rcases traced_step_cases hl with ⟨j, c, e, k, r, t, -, -, hx, rfl⟩ | ⟨v, t, -, -, rfl⟩ |
      ⟨j, e, k, -, -, rfl⟩
    · intro e' he' hpid x hresp
      rcases List.mem_append.mp he' with hold | hnew
      · exact ih e' hold hpid x hresp
      · obtain rfl := List.mem_singleton.mp hnew
        have hrefusal : r = .error x := hresp
        subst hrefusal
        exact hexec j e c _ x t hx
    · exact ih
    · exact ih

end Machine

end Concurrent
