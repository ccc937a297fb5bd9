import AiStudio.Concurrency.Program

/-!
# Pre- and postconditions of a program that runs alone

`Triple P p Q`: a run of `p` from a state of `P` that returns ends in a state of `Q`. `Total P p Q`
says in addition that it returns. Both are about `Program.eval`, where nothing else moves.
-/

set_option autoImplicit false

namespace AiStudio.Concurrency.Program

variable {σ ε : Type} {I : Interface σ ε} {α β : Type}

/-! ## Partial correctness -/

/-- A run from a state of `P` that returns ends in a state of `Q`. -/
def Triple (P : σ → Prop) (p : Program I α) (Q : α → σ → Prop) : Prop :=
  ∀ s a s', P s → p.eval s = (.ok a, s') → Q a s'

section Triple

variable {P P' : σ → Prop} {p : Program I α} {Q Q' : α → σ → Prop} {R : β → σ → Prop}

theorem triple_ret {a : α} (h : ∀ s, P s → Q a s) : Triple P (.ret a : Program I α) Q := by
  intro s a' s' hP heval
  obtain ⟨hret, rfl⟩ := Prod.mk.inj heval
  rw [← Except.ok.inj hret]
  exact h s hP

theorem triple_throw (e : ε) : Triple P (.throw e : Program I α) Q := by
  intro s a s' _ heval
  cases (Prod.mk.inj heval).1

/-- Sequencing. -/
theorem triple_bind {f : α → Program I β} (hp : Triple P p Q) (hf : ∀ a, Triple (Q a) (f a) R) :
    Triple P (p.bind f) R := by
  intro s b s' hP heval
  obtain ⟨a, s₁, hfirst, hrest⟩ := eval_bind_cases heval
  exact hf a s₁ b s' (hp s a s₁ hP hfirst) hrest

/-- One call. -/
theorem triple_op {o : I.Op} {Q : I.Res o → σ → Prop}
    (h : ∀ s r s', P s → I.exec o s = .ok (r, s') → Q r s') : Triple P (op o) Q :=
  fun s r s' hP heval => h s r s' hP (eval_op_cases heval)

/-- Consequence. -/
theorem triple_weaken (hpre : ∀ s, P' s → P s) (hpost : ∀ a s, Q a s → Q' a s)
    (h : Triple P p Q) : Triple P' p Q' :=
  fun s a s' hP heval => hpost a s' (h s a s' (hpre s hP) heval)

/-- A precondition that does not depend on the state. -/
theorem triple_pure {φ : Prop} (h : φ → Triple P p Q) : Triple (fun s => φ ∧ P s) p Q :=
  fun s a s' hP heval => h hP.1 s a s' hP.2 heval

theorem triple_ite {c : Prop} [Decidable c] {q : Program I α} (hp : c → Triple P p Q)
    (hq : ¬ c → Triple P q Q) : Triple P (if c then p else q) Q := by
  split
  · exact hp ‹_›
  · exact hq ‹_›

/-- **What every call of a program preserves, the program preserves.** -/
theorem triple_only {A : I.Op → Prop} (hp : p.Only A)
    (hok : ∀ o s r s', A o → P s → I.exec o s = .ok (r, s') → P s')
    (habort : ∀ o s, A o → P s → P (I.abort o s)) : Triple P p fun _ => P := by
  intro s a s' hP heval
  have hend : P (p.eval s).2 := hp.eval_invariant P hok habort hP
  rwa [heval] at hend

end Triple

/-! ## Total correctness -/

/-- A run from a state of `P` returns, and ends in a state of `Q`. -/
def Total (P : σ → Prop) (p : Program I α) (Q : α → σ → Prop) : Prop :=
  ∀ s, P s → ∃ a s', p.eval s = (.ok a, s') ∧ Q a s'

section Total

variable {P : σ → Prop} {p : Program I α} {Q : α → σ → Prop} {R : β → σ → Prop}

theorem total_ret {a : α} (h : ∀ s, P s → Q a s) : Total P (.ret a : Program I α) Q :=
  fun s hP => ⟨a, s, rfl, h s hP⟩

/-- Sequencing. -/
theorem total_bind {f : α → Program I β} (hp : Total P p Q) (hf : ∀ a, Total (Q a) (f a) R) :
    Total P (p.bind f) R := by
  intro s hP
  obtain ⟨a, s₁, hfirst, hQ⟩ := hp s hP
  obtain ⟨b, s', hrest, hR⟩ := hf a s₁ hQ
  exact ⟨b, s', (eval_bind_ok hfirst).trans hrest, hR⟩

/-- One call. -/
theorem total_op {o : I.Op} {Q : I.Res o → σ → Prop}
    (h : ∀ s, P s → ∃ r s', I.exec o s = .ok (r, s') ∧ Q r s') : Total P (op o) Q := by
  intro s hP
  obtain ⟨r, s', hexec, hQ⟩ := h s hP
  exact ⟨r, s', eval_op_ok hexec, hQ⟩

end Total

/-! ## Runs with a known result -/

/-- A run from a state of `P` ends with `r`, in a state of `Q`. -/
def Ends (P : σ → Prop) (p : Program I α) (r : Except ε α) (Q : σ → Prop) : Prop :=
  ∀ s, P s → ∃ s', Q s' ∧ p.eval s = (r, s')

section Ends

variable {P Q R : σ → Prop} {p : Program I α}

theorem ends_ret (a : α) : Ends P (.ret a : Program I α) (.ok a) P := fun s hP => ⟨s, hP, rfl⟩

theorem ends_throw (e : ε) : Ends P (.throw e : Program I α) (.error e) P :=
  fun s hP => ⟨s, hP, rfl⟩

/-- Sequencing. -/
theorem ends_bind {f : α → Program I β} {a : α} {r : Except ε β} (hp : Ends P p (.ok a) Q)
    (hf : Ends Q (f a) r R) : Ends P (p.bind f) r R := by
  intro s hP
  obtain ⟨s₁, hQ, hfirst⟩ := hp s hP
  obtain ⟨s', hR, hrest⟩ := hf s₁ hQ
  exact ⟨s', hR, (eval_bind_ok hfirst).trans hrest⟩

/-- One call. -/
theorem ends_op {o : I.Op} {r : I.Res o} (h : ∀ s, P s → ∃ s', Q s' ∧ I.exec o s = .ok (r, s')) :
    Ends P (op o) (.ok r) Q := by
  intro s hP
  obtain ⟨s', hQ, hexec⟩ := h s hP
  exact ⟨s', hQ, eval_op_ok hexec⟩

theorem ends_ite {c : Prop} [Decidable c] {q : Program I α} {r : Except ε α}
    (hp : c → Ends P p r Q) (hq : ¬ c → Ends P q r Q) : Ends P (if c then p else q) r Q := by
  split
  · exact hp ‹_›
  · exact hq ‹_›

theorem ends_attempt {r : Except ε α} (hp : Ends P p r Q) : Ends P p.attempt (.ok r) Q := by
  intro s hP
  obtain ⟨s', hQ, heval⟩ := hp s hP
  exact ⟨s', hQ, by rw [eval_attempt, heval]⟩

theorem ends_tryFinally {fin : Program I Unit} {r : Except ε α} (hp : Ends P p r Q)
    (hfin : Ends Q fin (.ok ()) R) : Ends P (p.tryFinally fin) r R := by
  intro s hP
  obtain ⟨s₁, hQ, heval⟩ := hp s hP
  obtain ⟨s', hR, hrest⟩ := hfin s₁ hQ
  exact ⟨s', hR, by rw [eval_tryFinally, heval]; simp only [hrest]⟩

end Ends

end AiStudio.Concurrency.Program
