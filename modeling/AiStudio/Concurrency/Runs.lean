import AiStudio.Concurrency.Program

/-!
# Runs under given answers

`Program.eval` runs a program alone on a store that answers every call as its interface says.
`Runs A` runs it alone on a store that may answer as `A` says: a part outside the store, such as
a sink that is handed in, may fail at any call. One rule for each way to compose programs says
what the runs of the whole are.
-/

set_option autoImplicit false

namespace AiStudio.Concurrency

variable {σ ε : Type} {I : Interface σ ε} {α β : Type}

/-- How a call may be answered in a state, and in which state that leaves the store. -/
abbrev Answers (I : Interface σ ε) : Type := (o : I.Op) → σ → Except ε (I.Res o) → σ → Prop

namespace Program

variable {A : Answers I}

/-- A run of a program alone, from its first state to its outcome and its last state. -/
inductive Runs (A : Answers I) : Program I α → σ → Except ε α → σ → Prop where
  | ret (a : α) (s : σ) : Runs A (.ret a) s (.ok a) s
  | throw (e : ε) (s : σ) : Runs A (.throw e) s (.error e) s
  | call {o : I.Op} {k : Except ε (I.Res o) → Program I α} {s s₁ s' : σ} {r : Except ε (I.Res o)}
      {out : Except ε α} (hanswer : A o s r s₁) (hrest : Runs A (k r) s₁ out s') :
      Runs A (.call o k) s out s'

variable {s s' : σ} {p : Program I α}

theorem runs_ret_iff {a : α} {out : Except ε α} :
    Runs A (.ret a) s out s' ↔ out = .ok a ∧ s' = s := by
  constructor
  · rintro ⟨⟩
    exact ⟨rfl, rfl⟩
  · rintro ⟨rfl, rfl⟩
    exact .ret a s'

theorem runs_throw_iff {e : ε} {out : Except ε α} :
    Runs A (.throw e) s out s' ↔ out = .error e ∧ s' = s := by
  constructor
  · rintro ⟨⟩
    exact ⟨rfl, rfl⟩
  · rintro ⟨rfl, rfl⟩
    exact .throw e s'

theorem runs_call_iff {o : I.Op} {k : Except ε (I.Res o) → Program I α} {out : Except ε α} :
    Runs A (.call o k) s out s' ↔ ∃ r s₁, A o s r s₁ ∧ Runs A (k r) s₁ out s' := by
  constructor
  · intro h
    cases h with
    | call hanswer hrest => exact ⟨_, _, hanswer, hrest⟩
  · rintro ⟨r, s₁, hanswer, hrest⟩
    exact .call hanswer hrest

theorem runs_ite_iff {c : Prop} [Decidable c] {q : Program I α} {out : Except ε α} :
    Runs A (if c then p else q) s out s' ↔
      c ∧ Runs A p s out s' ∨ ¬ c ∧ Runs A q s out s' := by
  by_cases hc : c
  · simp [hc]
  · simp [hc]

/-- One call. -/
theorem runs_op_iff {o : I.Op} {out : Except ε (I.Res o)} :
    Runs A (op o) s out s' ↔ A o s out s' := by
  rw [op, runs_call_iff]
  constructor
  · rintro ⟨r, s₁, hanswer, hrest⟩
    cases r with
    | ok v =>
        obtain ⟨rfl, rfl⟩ := runs_ret_iff.1 hrest
        exact hanswer
    | error e =>
        obtain ⟨rfl, rfl⟩ := runs_throw_iff.1 hrest
        exact hanswer
  · intro hanswer
    cases out with
    | ok v => exact ⟨.ok v, s', hanswer, .ret v s'⟩
    | error e => exact ⟨.error e, s', hanswer, .throw e s'⟩

/-- One call on the first part of a state. -/
theorem runs_inl_op_iff {ρ : Type} {J : Interface (σ × ρ) ε} {A : Answers (I.beside J)} {o : I.Op}
    {s s' : σ × ρ} {out : Except ε (I.Res o)} :
    Runs A ((op o).inl : Program (I.beside J) (I.Res o)) s out s' ↔ A (.inl o) s out s' := by
  rw [inl_op]
  exact runs_op_iff (I := I.beside J)

/-- Sequencing. -/
theorem runs_bind_iff {f : α → Program I β} {out : Except ε β} :
    Runs A (p.bind f) s out s' ↔
      (∃ a s₁, Runs A p s (.ok a) s₁ ∧ Runs A (f a) s₁ out s') ∨
        ∃ e, out = .error e ∧ Runs A p s (.error e) s' := by
  induction p generalizing s with
  | ret a =>
      constructor
      · exact fun h => .inl ⟨a, s, .ret a s, h⟩
      · rintro (⟨a', s₁, hfirst, hrest⟩ | ⟨e, rfl, hfirst⟩)
        · obtain ⟨hok, rfl⟩ := runs_ret_iff.1 hfirst
          rw [Except.ok.inj hok] at hrest
          exact hrest
        · cases (runs_ret_iff.1 hfirst).1
  | throw e =>
      constructor
      · intro h
        obtain ⟨rfl, rfl⟩ := runs_throw_iff.1 h
        exact .inr ⟨e, rfl, .throw e s'⟩
      · rintro (⟨a', s₁, hfirst, -⟩ | ⟨e', rfl, hfirst⟩)
        · cases (runs_throw_iff.1 hfirst).1
        · obtain ⟨herror, rfl⟩ := runs_throw_iff.1 hfirst
          rw [Except.error.inj herror]
          exact .throw e s'
  | call o k ih =>
      rw [call_bind, runs_call_iff]
      constructor
      · rintro ⟨r, s₁, hanswer, hrest⟩
        rcases (ih r).1 hrest with ⟨a, s₂, hfirst, hthen⟩ | ⟨e, he, hfirst⟩
        · exact .inl ⟨a, s₂, .call hanswer hfirst, hthen⟩
        · exact .inr ⟨e, he, .call hanswer hfirst⟩
      · rintro (⟨a, s₂, hfirst, hthen⟩ | ⟨e, he, hfirst⟩)
        · obtain ⟨r, s₁, hanswer, hrest⟩ := runs_call_iff.1 hfirst
          exact ⟨r, s₁, hanswer, (ih r).2 (.inl ⟨a, s₂, hrest, hthen⟩)⟩
        · obtain ⟨r, s₁, hanswer, hrest⟩ := runs_call_iff.1 hfirst
          exact ⟨r, s₁, hanswer, (ih r).2 (.inr ⟨e, he, hrest⟩)⟩

/-- A sequence raises whose last part does. -/
theorem runs_bind_raises {f : α → Program I β}
    (hf : ∀ a s out s', Runs A (f a) s out s' → ∃ e, out = .error e) {out : Except ε β}
    (h : Runs A (p.bind f) s out s') : ∃ e, out = .error e := by
  rcases runs_bind_iff.1 h with ⟨a, s₁, -, hrest⟩ | ⟨e, he, -⟩
  · exact hf a s₁ out s' hrest
  · exact ⟨e, he⟩

theorem runs_throw_raises {e : ε} {out : Except ε α} (h : Runs A (.throw e) s out s') :
    ∃ e, out = .error e :=
  ⟨e, (runs_throw_iff.1 h).1⟩

/-- A handler runs after a program that has raised. -/
theorem runs_tryCatch_iff {h : ε → Program I α} {out : Except ε α} :
    Runs A (p.tryCatch h) s out s' ↔
      (∃ a, out = .ok a ∧ Runs A p s (.ok a) s') ∨
        ∃ e s₁, Runs A p s (.error e) s₁ ∧ Runs A (h e) s₁ out s' := by
  induction p generalizing s with
  | ret a =>
      constructor
      · intro hrun
        obtain ⟨rfl, rfl⟩ := runs_ret_iff.1 hrun
        exact .inl ⟨a, rfl, .ret a s'⟩
      · rintro (⟨a', rfl, hfirst⟩ | ⟨e, s₁, hfirst, -⟩)
        · exact hfirst
        · cases (runs_ret_iff.1 hfirst).1
  | throw e =>
      constructor
      · exact fun hrun => .inr ⟨e, s, .throw e s, hrun⟩
      · rintro (⟨a', rfl, hfirst⟩ | ⟨e', s₁, hfirst, hrest⟩)
        · cases (runs_throw_iff.1 hfirst).1
        · obtain ⟨herror, rfl⟩ := runs_throw_iff.1 hfirst
          rw [Except.error.inj herror] at hrest
          exact hrest
  | call o k ih =>
      rw [tryCatch, runs_call_iff]
      constructor
      · rintro ⟨r, s₁, hanswer, hrest⟩
        rcases (ih r).1 hrest with ⟨a, ha, hfirst⟩ | ⟨e, s₂, hfirst, hthen⟩
        · exact .inl ⟨a, ha, .call hanswer hfirst⟩
        · exact .inr ⟨e, s₂, .call hanswer hfirst, hthen⟩
      · rintro (⟨a, ha, hfirst⟩ | ⟨e, s₂, hfirst, hthen⟩)
        · obtain ⟨r, s₁, hanswer, hrest⟩ := runs_call_iff.1 hfirst
          exact ⟨r, s₁, hanswer, (ih r).2 (.inl ⟨a, ha, hrest⟩)⟩
        · obtain ⟨r, s₁, hanswer, hrest⟩ := runs_call_iff.1 hfirst
          exact ⟨r, s₁, hanswer, (ih r).2 (.inr ⟨e, s₂, hrest, hthen⟩)⟩

/-- An attempt answers with the outcome. -/
theorem runs_attempt_iff {out : Except ε (Except ε α)} :
    Runs A p.attempt s out s' ↔ ∃ r, out = .ok r ∧ Runs A p s r s' := by
  rw [attempt, runs_tryCatch_iff]
  constructor
  · rintro (⟨a, rfl, hrun⟩ | ⟨e, s₁, hrun, hhandler⟩)
    · rcases runs_bind_iff.1 hrun with ⟨a', s₁, hfirst, hrest⟩ | ⟨e, he, -⟩
      · obtain ⟨hok, rfl⟩ := runs_ret_iff.1 hrest
        exact ⟨.ok a', hok, hfirst⟩
      · cases he
    · obtain ⟨rfl, rfl⟩ := runs_ret_iff.1 hhandler
      rcases runs_bind_iff.1 hrun with ⟨a', s₁, hfirst, hrest⟩ | ⟨e', he, hfirst⟩
      · cases (runs_ret_iff.1 hrest).1
      · rw [Except.error.inj he]
        exact ⟨.error e', rfl, hfirst⟩
  · rintro ⟨r, rfl, hrun⟩
    cases r with
    | ok a => exact .inl ⟨.ok a, rfl, runs_bind_iff.2 (.inl ⟨a, s', hrun, .ret _ s'⟩)⟩
    | error e => exact .inr ⟨e, s', runs_bind_iff.2 (.inr ⟨e, rfl, hrun⟩), .ret _ s'⟩

/-- What stands under `finally` runs after the program, whatever its outcome. -/
theorem runs_tryFinally_iff {fin : Program I Unit} {out : Except ε α} :
    Runs A (p.tryFinally fin) s out s' ↔
      ∃ r s₁, Runs A p s r s₁ ∧
        (out = r ∧ Runs A fin s₁ (.ok ()) s' ∨ ∃ e, out = .error e ∧ Runs A fin s₁ (.error e) s') := by
  induction p generalizing s with
  | ret a =>
      rw [tryFinally, runs_bind_iff]
      constructor
      · rintro (⟨u, s₁, hfin, hrest⟩ | ⟨e, he, hfin⟩)
        · obtain ⟨rfl, rfl⟩ := runs_ret_iff.1 hrest
          exact ⟨.ok a, s, .ret a s, .inl ⟨rfl, hfin⟩⟩
        · exact ⟨.ok a, s, .ret a s, .inr ⟨e, he, hfin⟩⟩
      · rintro ⟨r, s₁, hfirst, hend⟩
        obtain ⟨rfl, rfl⟩ := runs_ret_iff.1 hfirst
        rcases hend with ⟨rfl, hfin⟩ | ⟨e, he, hfin⟩
        · exact .inl ⟨(), s', hfin, .ret a s'⟩
        · exact .inr ⟨e, he, hfin⟩
  | throw e =>
      rw [tryFinally, runs_bind_iff]
      constructor
      · rintro (⟨u, s₁, hfin, hrest⟩ | ⟨e', he, hfin⟩)
        · obtain ⟨rfl, rfl⟩ := runs_throw_iff.1 hrest
          exact ⟨.error e, s, .throw e s, .inl ⟨rfl, hfin⟩⟩
        · exact ⟨.error e, s, .throw e s, .inr ⟨e', he, hfin⟩⟩
      · rintro ⟨r, s₁, hfirst, hend⟩
        obtain ⟨rfl, rfl⟩ := runs_throw_iff.1 hfirst
        rcases hend with ⟨rfl, hfin⟩ | ⟨e', he, hfin⟩
        · exact .inl ⟨(), s', hfin, .throw e s'⟩
        · exact .inr ⟨e', he, hfin⟩
  | call o k ih =>
      rw [tryFinally, runs_call_iff]
      constructor
      · rintro ⟨r, s₁, hanswer, hrest⟩
        obtain ⟨r', s₂, hfirst, hend⟩ := (ih r).1 hrest
        exact ⟨r', s₂, .call hanswer hfirst, hend⟩
      · rintro ⟨r', s₂, hfirst, hend⟩
        obtain ⟨r, s₁, hanswer, hrest⟩ := runs_call_iff.1 hfirst
        exact ⟨r, s₁, hanswer, (ih r).2 ⟨r', s₂, hrest, hend⟩⟩

/-- **What every answer to a call of a program preserves, its runs preserve.** -/
theorem Runs.preserves {B : I.Op → Prop} {Inv : σ → Prop} (hp : p.Only B)
    (hB : ∀ o s r s', B o → A o s r s' → Inv s → Inv s') {out : Except ε α}
    (h : Runs A p s out s') (hs : Inv s) : Inv s' := by
  induction hp generalizing s with
  | ret a =>
      obtain ⟨-, rfl⟩ := runs_ret_iff.1 h
      exact hs
  | throw e =>
      obtain ⟨-, rfl⟩ := runs_throw_iff.1 h
      exact hs
  | call ho _ ih =>
      obtain ⟨r, s₁, hanswer, hrest⟩ := runs_call_iff.1 h
      exact ih r hrest (hB _ _ _ _ ho hanswer hs)

/-- A store that answers as its interface says runs a program as `eval` does. -/
theorem runs_eval (hok : ∀ o s r s', I.exec o s = .ok (r, s') → A o s (.ok r) s')
    (hfail : ∀ o s e, I.exec o s = .error e → A o s (.error e) (I.abort o s))
    (p : Program I α) (s : σ) : Runs A p s (p.eval s).1 (p.eval s).2 := by
  induction p generalizing s with
  | ret a => exact .ret a s
  | throw e => exact .throw e s
  | call o k ih =>
      cases hexec : I.exec o s with
      | ok x =>
          obtain ⟨r, s'⟩ := x
          rw [eval_call_ok hexec]
          exact .call (hok o s r s' hexec) (ih (.ok r) s')
      | error e =>
          rw [eval_call_error hexec]
          exact .call (hfail o s e hexec) (ih (.error e) _)

end Program

end AiStudio.Concurrency
