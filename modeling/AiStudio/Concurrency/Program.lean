/-!
# Programs over a transactional store

A process of a concurrent system is a finite program whose only effects are calls
to a store. Each call is one transaction: it commits a new store and returns a
value, or it raises an exception and leaves what `Interface.abort` says it leaves.
`Interface` fixes the calls, `Program` the programs over them, and `Program.eval`
runs one program with nothing else moving. Interleavings are in
`AiStudio.Concurrency.Schedule`.
-/

set_option autoImplicit false

namespace AiStudio.Concurrency

/-- The calls a program may make to a store of type `σ`, with exceptions `ε`.
`ready` is false while a call has to wait for a lock; `abort` is the store a
failed call leaves behind. -/
structure Interface (σ ε : Type) where
  Op : Type
  Res : Op → Type
  exec : (o : Op) → σ → Except ε (Res o × σ)
  ready : Op → σ → Bool := fun _ _ => true
  abort : Op → σ → σ := fun _ s => s

namespace Interface

variable {σ ε : Type}

/-- The calls of `I` on the first part of a state, beside those of `J` on all of it. -/
def beside {ρ : Type} (I : Interface σ ε) (J : Interface (σ × ρ) ε) : Interface (σ × ρ) ε where
  Op := I.Op ⊕ J.Op
  Res := Sum.elim I.Res J.Res
  exec
    | .inl o => fun s => (I.exec o s.1).map fun x => (x.1, (x.2, s.2))
    | .inr o => J.exec o
  ready
    | .inl o => fun s => I.ready o s.1
    | .inr o => J.ready o
  abort
    | .inl o => fun s => (I.abort o s.1, s.2)
    | .inr o => J.abort o

/-- A call on the first part leaves the second alone. -/
theorem exec_inl_eq_ok {ρ : Type} {I : Interface σ ε} {J : Interface (σ × ρ) ε} {o : I.Op}
    {s s' : σ × ρ} {r : I.Res o} (h : (I.beside J).exec (.inl o) s = .ok (r, s')) :
    I.exec o s.1 = .ok (r, s'.1) ∧ s'.2 = s.2 := by
  simp only [beside] at h
  cases hexec : I.exec o s.1 with
  | ok x =>
      rw [hexec] at h
      obtain ⟨hr, rfl⟩ := Prod.mk.inj (Except.ok.inj h)
      exact ⟨congrArg Except.ok (Prod.ext hr rfl), rfl⟩
  | error e =>
      rw [hexec] at h
      cases h

/-- The calls of `I`, each with what it is made for. -/
def tagged (I : Interface σ ε) (T : Type) : Interface σ ε where
  Op := T × I.Op
  Res o := I.Res o.2
  exec o := I.exec o.2
  ready o := I.ready o.2
  abort o := I.abort o.2

end Interface

/-- A program: a result, an exception, or a call with a continuation for each of
its outcomes. -/
inductive Program {σ ε : Type} (I : Interface σ ε) (α : Type) : Type where
  | ret (a : α)
  | throw (e : ε)
  | call (o : I.Op) (k : Except ε (I.Res o) → Program I α)

variable {σ ε : Type} {I : Interface σ ε} {α β γ : Type}

namespace Program

/-- Sequencing; an exception skips the rest. -/
def bind : Program I α → (α → Program I β) → Program I β
  | .ret a, f => f a
  | .throw e, _ => .throw e
  | .call o k, f => .call o fun r => bind (k r) f

instance : Monad (Program I) where
  pure := .ret
  bind := bind

/-- `try p except: handler`. -/
def tryCatch : Program I α → (ε → Program I α) → Program I α
  | .ret a, _ => .ret a
  | .throw e, h => h e
  | .call o k, h => .call o fun r => tryCatch (k r) h

instance : MonadExceptOf ε (Program I) where
  throw := .throw
  tryCatch := tryCatch

/-- `try p finally: fin`. An exception of `fin` replaces the outcome of `p`. -/
def tryFinally (p : Program I α) (fin : Program I Unit) : Program I α :=
  match p with
  | .ret a => fin.bind fun _ => .ret a
  | .throw e => fin.bind fun _ => .throw e
  | .call o k => .call o fun r => tryFinally (k r) fin

/-- The outcome of a program, an exception among them. -/
def attempt (p : Program I α) : Program I (Except ε α) :=
  tryCatch (p.bind fun a => .ret (.ok a)) fun e => .ret (.error e)

/-- One call, its exception raised in the program. -/
def op (o : I.Op) : Program I (I.Res o) :=
  .call o fun
    | .ok r => .ret r
    | .error e => .throw e

/-- A program over the first part of a state. -/
def inl {ρ : Type} {J : Interface (σ × ρ) ε} : Program I α → Program (I.beside J) α
  | .ret a => .ret a
  | .throw e => .throw e
  | .call o k => .call (I := I.beside J) (.inl o) fun r => inl (k r)

/-- A program all of whose calls are made for `t`. -/
def tag {T : Type} (t : T) : Program I α → Program (I.tagged T) α
  | .ret a => .ret a
  | .throw e => .throw e
  | .call o k => .call (I := I.tagged T) (t, o) fun r => tag t (k r)

/-- The program up to a number of calls: before the next one its process is killed. -/
def cut : Program I α → Nat → Program I (Option α)
  | .ret a, _ => .ret (some a)
  | .throw e, _ => .throw e
  | .call _ _, 0 => .ret none
  | .call o k, n + 1 => .call o fun r => cut (k r) n

/-- The call a program is about to make. -/
def head? : Program I α → Option I.Op
  | .call o _ => some o
  | _ => none

@[simp] theorem pure_eq (a : α) : (pure a : Program I α) = .ret a := rfl
@[simp] theorem bind_eq (p : Program I α) (f : α → Program I β) : p >>= f = p.bind f := rfl
@[simp] theorem map_eq (p : Program I α) (f : α → β) :
    f <$> p = p.bind fun a => .ret (f a) := rfl
@[simp] theorem throw_eq (e : ε) : (MonadExcept.throw e : Program I α) = .throw e := rfl
@[simp] theorem ret_bind (a : α) (f : α → Program I β) : (ret a).bind f = f a := rfl
@[simp] theorem throw_bind (e : ε) (f : α → Program I β) : (throw e).bind f = .throw e := rfl
@[simp] theorem call_bind (o : I.Op) (k : Except ε (I.Res o) → Program I α)
    (f : α → Program I β) : (call o k).bind f = .call o fun r => (k r).bind f := rfl
@[simp] theorem head?_ret (a : α) : (ret a : Program I α).head? = none := rfl
@[simp] theorem head?_throw (e : ε) : (throw e : Program I α).head? = none := rfl
@[simp] theorem head?_call (o : I.Op) (k : Except ε (I.Res o) → Program I α) :
    (call o k).head? = some o := rfl

/-- Sequencing is associative. -/
theorem bind_assoc (p : Program I α) (f : α → Program I β) (g : β → Program I γ) :
    (p.bind f).bind g = p.bind fun a => (f a).bind g := by
  induction p with
  | ret a => rfl
  | throw e => rfl
  | call o k ih => simp only [call_bind, ih]

theorem bind_ret (p : Program I α) : p.bind .ret = p := by
  induction p with
  | ret a => rfl
  | throw e => rfl
  | call o k ih => simp only [call_bind, ih]

/-- The outcome of a sequence: that of its second part, if the first returns. -/
theorem attempt_bind (p : Program I α) (f : α → Program I β) :
    (p.bind f).attempt = p.attempt.bind fun
      | .ok a => (f a).attempt
      | .error e => .ret (.error e) := by
  induction p with
  | ret a => rfl
  | throw e => rfl
  | call o k ih =>
      refine congrArg (call o) (funext fun r => ?_)
      exact ih r

/-- One call on the first part of a state. -/
theorem inl_op {ρ : Type} {J : Interface (σ × ρ) ε} (o : I.Op) :
    ((op o).inl : Program (I.beside J) (I.Res o)) = op (I := I.beside J) (.inl o) := by
  refine congrArg (call (I := I.beside J) (.inl o)) (funext fun r => ?_)
  cases r <;> rfl

/-- Run a program alone, every call of it ready. -/
def eval : Program I α → σ → Except ε α × σ
  | .ret a, s => (.ok a, s)
  | .throw e, s => (.error e, s)
  | .call o k, s =>
      match I.exec o s with
      | .ok (r, s') => eval (k (.ok r)) s'
      | .error e => eval (k (.error e)) (I.abort o s)

@[simp] theorem eval_ret (a : α) (s : σ) : (ret a : Program I α).eval s = (.ok a, s) := rfl
@[simp] theorem eval_throw (e : ε) (s : σ) :
    (throw e : Program I α).eval s = (.error e, s) := rfl

theorem eval_call_ok {o : I.Op} {k : Except ε (I.Res o) → Program I α} {s s' : σ}
    {r : I.Res o} (h : I.exec o s = .ok (r, s')) :
    (call o k).eval s = (k (.ok r)).eval s' := by
  simp only [eval, h]

theorem eval_call_error {o : I.Op} {k : Except ε (I.Res o) → Program I α} {s : σ}
    {e : ε} (h : I.exec o s = .error e) :
    (call o k).eval s = (k (.error e)).eval (I.abort o s) := by
  simp only [eval, h]

/-- Evaluating a sequence evaluates its parts one after the other. -/
theorem eval_bind (p : Program I α) (f : α → Program I β) (s : σ) :
    (p.bind f).eval s =
      match p.eval s with
      | (.ok a, s') => (f a).eval s'
      | (.error e, s') => (.error e, s') := by
  induction p generalizing s with
  | ret a => rfl
  | throw e => rfl
  | call o k ih =>
      cases h : I.exec o s with
      | ok x =>
          obtain ⟨r, s'⟩ := x
          rw [call_bind, eval_call_ok h, eval_call_ok h, ih]
      | error e => rw [call_bind, eval_call_error h, eval_call_error h, ih]

/-- Evaluating a sequence whose first part returns. -/
theorem eval_bind_ok {p : Program I α} {f : α → Program I β} {s s' : σ} {a : α}
    (h : p.eval s = (.ok a, s')) : (p.bind f).eval s = (f a).eval s' := by
  rw [eval_bind, h]

/-- Evaluating a sequence whose first part raises. -/
theorem eval_bind_error {p : Program I α} {f : α → Program I β} {s s' : σ} {e : ε}
    (h : p.eval s = (.error e, s')) : (p.bind f).eval s = (.error e, s') := by
  rw [eval_bind, h]

/-- A program that is followed by an answer ends where it ended. -/
theorem eval_bind_ret (p : Program I α) (f : α → β) (s : σ) :
    (p.bind fun a => .ret (f a)).eval s = ((p.eval s).1.map f, (p.eval s).2) := by
  rw [eval_bind]
  cases p.eval s with
  | mk r s' => cases r <;> rfl

theorem eval_op_ok {o : I.Op} {s s' : σ} {r : I.Res o} (h : I.exec o s = .ok (r, s')) :
    (op o).eval s = (.ok r, s') := by
  rw [op, eval_call_ok h, eval_ret]

theorem eval_op_error {o : I.Op} {s : σ} {e : ε} (h : I.exec o s = .error e) :
    (op o).eval s = (.error e, I.abort o s) := by
  rw [op, eval_call_error h, eval_throw]

/-- **A sequence that returns has both parts return.** -/
theorem eval_bind_cases {p : Program I α} {f : α → Program I β} {s s' : σ} {b : β}
    (h : (p.bind f).eval s = (.ok b, s')) :
    ∃ a s₁, p.eval s = (.ok a, s₁) ∧ (f a).eval s₁ = (.ok b, s') := by
  rw [eval_bind] at h
  cases hp : p.eval s with
  | mk r s₁ =>
      rw [hp] at h
      cases r with
      | ok a => exact ⟨a, s₁, rfl, h⟩
      | error e => cases h

/-- A call that returns has committed. -/
theorem eval_op_cases {o : I.Op} {s s' : σ} {r : I.Res o} (h : (op o).eval s = (.ok r, s')) :
    I.exec o s = .ok (r, s') := by
  cases hexec : I.exec o s with
  | ok x =>
      obtain ⟨r', s₁⟩ := x
      rw [eval_op_ok hexec] at h
      obtain ⟨h₁, rfl⟩ := Prod.mk.inj h
      rw [Except.ok.inj h₁]
  | error e =>
      rw [eval_op_error hexec] at h
      cases h

/-- A handler that only answers: whatever the program does, the sequence goes on. -/
theorem eval_tryCatch_ret_bind (p : Program I α) (a : α) (f : α → Program I β) (s : σ) :
    ∃ a', ((p.tryCatch fun _ => .ret a).bind f).eval s = (f a').eval (p.eval s).2 := by
  induction p generalizing s with
  | ret a' => exact ⟨a', rfl⟩
  | throw e => exact ⟨a, rfl⟩
  | call o k ih =>
      cases h : I.exec o s with
      | ok x =>
          obtain ⟨r, s'⟩ := x
          obtain ⟨a', ha'⟩ := ih (.ok r) s'
          refine ⟨a', ?_⟩
          rw [eval_call_ok h, ← ha', tryCatch, call_bind, eval_call_ok h]
      | error e =>
          obtain ⟨a', ha'⟩ := ih (.error e) (I.abort o s)
          refine ⟨a', ?_⟩
          rw [eval_call_error h, ← ha', tryCatch, call_bind, eval_call_error h]

/-- A handler runs where the program it guards has raised. -/
theorem eval_tryCatch (p : Program I α) (h : ε → Program I α) (s : σ) :
    (p.tryCatch h).eval s =
      match p.eval s with
      | (.ok a, s') => (.ok a, s')
      | (.error e, s') => (h e).eval s' := by
  induction p generalizing s with
  | ret a => rfl
  | throw e => rfl
  | call o k ih =>
      cases hexec : I.exec o s with
      | ok x =>
          obtain ⟨r, s'⟩ := x
          rw [tryCatch, eval_call_ok hexec, eval_call_ok hexec, ih]
      | error e => rw [tryCatch, eval_call_error hexec, eval_call_error hexec, ih]

/-- An attempt answers with the outcome. -/
theorem eval_attempt (p : Program I α) (s : σ) :
    p.attempt.eval s = (.ok (p.eval s).1, (p.eval s).2) := by
  rw [attempt, eval_tryCatch, eval_bind]
  cases hp : p.eval s with
  | mk r s' => cases r <;> rfl

/-- What stands under `finally` runs after the program, whatever its outcome. -/
theorem eval_tryFinally (p : Program I α) (fin : Program I Unit) (s : σ) :
    (p.tryFinally fin).eval s =
      match fin.eval (p.eval s).2 with
      | (.ok _, s') => ((p.eval s).1, s')
      | (.error e, s') => (.error e, s') := by
  induction p generalizing s with
  | ret a =>
      rw [tryFinally, eval_bind, eval_ret]
      cases fin.eval s with
      | mk r s' => cases r <;> rfl
  | throw e =>
      rw [tryFinally, eval_bind, eval_throw]
      cases fin.eval s with
      | mk r s' => cases r <;> rfl
  | call o k ih =>
      cases hexec : I.exec o s with
      | ok x =>
          obtain ⟨r, s'⟩ := x
          rw [tryFinally, eval_call_ok hexec, eval_call_ok hexec, ih]
      | error e => rw [tryFinally, eval_call_error hexec, eval_call_error hexec, ih]

/-- A program over the first part of a state leaves the second alone. -/
theorem eval_inl {ρ : Type} {J : Interface (σ × ρ) ε} (p : Program I α) (s : σ × ρ) :
    (p.inl : Program (I.beside J) α).eval s = ((p.eval s.1).1, ((p.eval s.1).2, s.2)) := by
  induction p generalizing s with
  | ret a => rfl
  | throw e => rfl
  | call o k ih =>
      cases hexec : I.exec o s.1 with
      | ok x =>
          obtain ⟨r, s'⟩ := x
          have hexec' : (I.beside J).exec (.inl o) s = .ok (r, (s', s.2)) := by
            simp only [Interface.beside, hexec, Except.map]
          rw [eval_call_ok hexec]
          exact (eval_call_ok (I := I.beside J) hexec').trans (ih (.ok r) (s', s.2))
      | error e =>
          have hexec' : (I.beside J).exec (.inl o) s = .error e := by
            simp only [Interface.beside, hexec, Except.map]
          rw [eval_call_error hexec]
          exact (eval_call_error (I := I.beside J) hexec').trans
            (ih (.error e) (I.abort o s.1, s.2))

/-- **What every call preserves, a whole program preserves.** -/
theorem eval_invariant (Inv : σ → Prop)
    (hok : ∀ o s r s', Inv s → I.exec o s = .ok (r, s') → Inv s')
    (habort : ∀ o s e, Inv s → I.exec o s = .error e → Inv (I.abort o s))
    (p : Program I α) (s : σ) (hs : Inv s) : Inv (p.eval s).2 := by
  induction p generalizing s with
  | ret a => exact hs
  | throw e => exact hs
  | call o k ih =>
      cases h : I.exec o s with
      | ok x =>
          obtain ⟨r, s'⟩ := x
          rw [eval_call_ok h]
          exact ih _ _ (hok o s r s' hs h)
      | error e =>
          rw [eval_call_error h]
          exact ih _ _ (habort o s e hs h)

/-! ## The calls of a program -/

/-- Every call the program can come to is one of `A`. -/
inductive Only (A : I.Op → Prop) : Program I α → Prop where
  | ret (a : α) : Only A (.ret a)
  | throw (e : ε) : Only A (.throw e)
  | call {o : I.Op} {k : Except ε (I.Res o) → Program I α} (ho : A o) (hk : ∀ r, Only A (k r)) :
      Only A (.call o k)

namespace Only

variable {A B : I.Op → Prop}

theorem mono {p : Program I α} (hAB : ∀ o, A o → B o) (h : p.Only A) : p.Only B := by
  induction h with
  | ret a => exact .ret a
  | throw e => exact .throw e
  | call ho _ ih => exact .call (hAB _ ho) ih

theorem bind {p : Program I α} {f : α → Program I β} (h : p.Only A) (hf : ∀ a, (f a).Only A) :
    (p.bind f).Only A := by
  induction h with
  | ret a => exact hf a
  | throw e => exact .throw e
  | call ho _ ih => exact .call ho ih

theorem tryCatch {p : Program I α} {f : ε → Program I α} (h : p.Only A) (hf : ∀ e, (f e).Only A) :
    (p.tryCatch f).Only A := by
  induction h with
  | ret a => exact .ret a
  | throw e => exact hf e
  | call ho _ ih => exact .call ho ih

theorem attempt {p : Program I α} (h : p.Only A) : p.attempt.Only A :=
  tryCatch (h.bind fun _ => .ret _) fun _ => .ret _

theorem op {o : I.Op} (h : A o) : (Program.op o).Only A := by
  refine .call h fun r => ?_
  cases r with
  | ok v => exact .ret v
  | error e => exact .throw e

/-- A program that has ended makes no call. -/
theorem of_head? {p : Program I α} (h : p.head? = none) : p.Only A := by
  cases p with
  | ret a => exact .ret a
  | throw e => exact .throw e
  | call o k => cases h

theorem ite {c : Prop} [Decidable c] {p q : Program I α} (hp : c → p.Only A) (hq : ¬ c → q.Only A) :
    (if c then p else q).Only A := by
  by_cases hc : c
  · rw [if_pos hc]
    exact hp hc
  · rw [if_neg hc]
    exact hq hc

theorem inl {ρ : Type} {J : Interface (σ × ρ) ε} {B : (I.beside J).Op → Prop} {p : Program I α}
    (hAB : ∀ o, A o → B (.inl o)) (h : p.Only A) :
    (p.inl : Program (I.beside J) α).Only B := by
  induction h with
  | ret a => exact .ret a
  | throw e => exact .throw e
  | call ho _ ih => exact .call (hAB _ ho) ih

theorem tag {T : Type} {t : T} {B : (I.tagged T).Op → Prop} {p : Program I α}
    (hAB : ∀ o, A o → B (t, o)) (h : p.Only A) : (p.tag t).Only B := by
  induction h with
  | ret a => exact .ret a
  | throw e => exact .throw e
  | call ho _ ih => exact .call (hAB _ ho) ih

/-- **What every call of a program preserves, its run preserves.** -/
theorem eval_invariant {p : Program I α} (hp : p.Only A) (Inv : σ → Prop)
    (hok : ∀ o s r s', A o → Inv s → I.exec o s = .ok (r, s') → Inv s')
    (habort : ∀ o s, A o → Inv s → Inv (I.abort o s)) {s : σ} (hs : Inv s) :
    Inv (p.eval s).2 := by
  induction hp generalizing s with
  | ret a => exact hs
  | throw e => exact hs
  | call ho _ ih =>
      rename_i o k _
      cases hexec : I.exec o s with
      | ok x =>
          obtain ⟨r, s'⟩ := x
          rw [eval_call_ok hexec]
          exact ih _ (hok o s r s' ho hs hexec)
      | error e =>
          rw [eval_call_error hexec]
          exact ih _ (habort o s ho hs)

end Only

/-- **The rule of two runs**: a relation that every call keeps, with the same outcome on both
sides, makes a program end alike on both sides. -/
theorem Only.eval_related {A : I.Op → Prop} {R : σ → σ → Prop}
    (hA : ∀ o s s', A o → R s s' →
      (∃ v s₁ s₁', I.exec o s = .ok (v, s₁) ∧ I.exec o s' = .ok (v, s₁') ∧ R s₁ s₁') ∨
        ∃ e, I.exec o s = .error e ∧ I.exec o s' = .error e ∧ R (I.abort o s) (I.abort o s'))
    {p : Program I α} (h : p.Only A) {s s' : σ} (hR : R s s') :
    (p.eval s).1 = (p.eval s').1 ∧ R (p.eval s).2 (p.eval s').2 := by
  induction h generalizing s s' with
  | ret a => exact ⟨rfl, hR⟩
  | throw e => exact ⟨rfl, hR⟩
  | call ho _ ih =>
      rcases hA _ s s' ho hR with ⟨v, s₁, s₁', hexec, hexec', hR'⟩ | ⟨e, hexec, hexec', hR'⟩
      · rw [eval_call_ok hexec, eval_call_ok hexec']
        exact ih _ hR'
      · rw [eval_call_error hexec, eval_call_error hexec']
        exact ih _ hR'


/-! ## The calls of a run -/

/-- The calls of a program that runs alone, each with the state it finds. -/
def trail : Program I α → σ → List (I.Op × σ)
  | .ret _, _ => []
  | .throw _, _ => []
  | .call o k, s =>
      (o, s) ::
        match I.exec o s with
        | .ok (r, s') => trail (k (.ok r)) s'
        | .error e => trail (k (.error e)) (I.abort o s)

@[simp] theorem trail_ret (a : α) (s : σ) : (ret a : Program I α).trail s = [] := rfl
@[simp] theorem trail_throw (e : ε) (s : σ) : (throw e : Program I α).trail s = [] := rfl

theorem trail_call_ok {o : I.Op} {k : Except ε (I.Res o) → Program I α} {s s' : σ}
    {r : I.Res o} (h : I.exec o s = .ok (r, s')) :
    (call o k).trail s = (o, s) :: (k (.ok r)).trail s' := by
  simp only [trail, h]

theorem trail_call_error {o : I.Op} {k : Except ε (I.Res o) → Program I α} {s : σ}
    {e : ε} (h : I.exec o s = .error e) :
    (call o k).trail s = (o, s) :: (k (.error e)).trail (I.abort o s) := by
  simp only [trail, h]

/-- The calls of a sequence are those of its parts. -/
theorem trail_bind (p : Program I α) (f : α → Program I β) (s : σ) :
    (p.bind f).trail s =
      p.trail s ++
        match p.eval s with
        | (.ok a, s') => (f a).trail s'
        | (.error _, _) => [] := by
  induction p generalizing s with
  | ret a => rfl
  | throw e => rfl
  | call o k ih =>
      cases h : I.exec o s with
      | ok x =>
          obtain ⟨r, s'⟩ := x
          rw [call_bind, trail_call_ok h, trail_call_ok h, eval_call_ok h, ih, List.cons_append]
      | error e =>
          rw [call_bind, trail_call_error h, trail_call_error h, eval_call_error h, ih,
            List.cons_append]

/-- One call, then an answer. -/
theorem trail_op_ret (o : I.Op) (g : I.Res o → β) (s : σ) :
    ((op o).bind fun r => .ret (g r)).trail s = [(o, s)] := by
  cases h : I.exec o s with
  | ok x =>
      obtain ⟨r, s'⟩ := x
      exact trail_call_ok h
  | error e => exact trail_call_error h

/-- The calls of a run are among those the program can come to. -/
theorem Only.trail {A : I.Op → Prop} {p : Program I α} (h : p.Only A) {s : σ} {c : I.Op × σ}
    (hc : c ∈ p.trail s) : A c.1 := by
  induction h generalizing s with
  | ret a => cases hc
  | throw e => cases hc
  | call ho _ ih =>
      rename_i o k _
      cases hexec : I.exec o s with
      | ok x =>
          rw [trail_call_ok hexec, List.mem_cons] at hc
          rcases hc with rfl | hc
          · exact ho
          · exact ih _ hc
      | error e =>
          rw [trail_call_error hexec, List.mem_cons] at hc
          rcases hc with rfl | hc
          · exact ho
          · exact ih _ hc

end Program

end AiStudio.Concurrency
