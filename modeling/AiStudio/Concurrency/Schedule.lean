import AiStudio.Concurrency.Program
import Mathlib.Logic.Function.Basic
import Mathlib.Data.List.Induction

/-!
# Interleavings of programs

A pool of processes runs against one store. At each turn the scheduler names a
process and whether its call is struck by a fault; the process makes its next call
or, when the call has to wait, stays where it is. `Reach c τ c'` says that the
steps `τ` lead from the configuration `c` to `c'`; it holds of every finite
interleaving, of every number of processes, and a process that is never scheduled
again has crashed. `run` and `trace` compute the interleaving a list of choices
gives, so that a schedule can be evaluated.

An `Outline` annotates programs with a local state per process. `Outline.track`
reads the local states off the steps taken, and `Outline.invariant` is the rule for
invariants that relate the store to the local states of all processes.
-/

set_option autoImplicit false

namespace AiStudio.Concurrency

variable {σ ε : Type}

namespace Interface

variable (I : Interface σ ε)

/-- One attempt at a call: `none` when it has to wait, else its outcome and the
store after it. A fault aborts the call with an exception. -/
def attempt (fault : Option ε) (o : I.Op) (s : σ) : Option (Except ε (I.Res o) × σ) :=
  match fault with
  | some e => some (.error e, I.abort o s)
  | none =>
      if I.ready o s then
        match I.exec o s with
        | .ok (r, s') => some (.ok r, s')
        | .error e => some (.error e, I.abort o s)
      else none

/-- **What an attempt can do**: the call commits, or it leaves what `abort` says. -/
theorem attempt_cases {fault : Option ε} {o : I.Op} {s s' : σ} {r : Except ε (I.Res o)}
    (h : I.attempt fault o s = some (r, s')) :
    (∃ v, r = .ok v ∧ I.ready o s = true ∧ I.exec o s = .ok (v, s')) ∨
      (∃ e, r = .error e ∧ s' = I.abort o s) := by
  cases fault with
  | some e =>
      simp only [attempt, Option.some.injEq, Prod.mk.injEq] at h
      exact Or.inr ⟨e, h.1.symm, h.2.symm⟩
  | none =>
      simp only [attempt] at h
      split at h
      · rename_i hready
        cases hx : I.exec o s with
        | ok x =>
            obtain ⟨v, s₁⟩ := x
            rw [hx] at h
            simp only [Option.some.injEq, Prod.mk.injEq] at h
            obtain ⟨rfl, rfl⟩ := h
            exact Or.inl ⟨v, rfl, hready, rfl⟩
        | error e =>
            rw [hx] at h
            simp only [Option.some.injEq, Prod.mk.injEq] at h
            exact Or.inr ⟨e, h.1.symm, h.2.symm⟩
      · simp at h

end Interface

/-- A store and the program each process still has to run. -/
structure Config (I : Interface σ ε) (P α : Type) where
  state : σ
  pool : P → Program I α

/-- One step of an interleaving: the process, its call and the outcome, and the
configurations before and after. -/
structure Step (I : Interface σ ε) (P α : Type) where
  pid : P
  op : I.Op
  out : Except ε (I.Res op)
  before : Config I P α
  after : Config I P α

/-- A turn of the scheduler: a process, and a fault that may strike its call. -/
abbrev Choice (P ε : Type) := P × Option ε

variable {I : Interface σ ε} {P α L : Type} [DecidableEq P]

namespace Config

/-- One turn. A finished or waiting process makes no step. -/
def move (c : Config I P α) (ch : Choice P ε) : Option (Step I P α × Config I P α) :=
  match c.pool ch.1 with
  | .call o k =>
      match I.attempt ch.2 o c.state with
      | some (r, s') =>
          let c' : Config I P α := ⟨s', Function.update c.pool ch.1 (k r)⟩
          some (⟨ch.1, o, r, c, c'⟩, c')
      | none => none
  | _ => none

/-- The configuration a schedule leads to. -/
def run (c : Config I P α) : List (Choice P ε) → Config I P α
  | [] => c
  | ch :: chs =>
      match c.move ch with
      | some (_, c') => run c' chs
      | none => run c chs

/-- The steps of a schedule, in order. -/
def trace (c : Config I P α) : List (Choice P ε) → List (Step I P α)
  | [] => []
  | ch :: chs =>
      match c.move ch with
      | some (st, c') => st :: trace c' chs
      | none => trace c chs

/-- A schedule runs its parts one after the other. -/
theorem run_append (c : Config I P α) (chs chs' : List (Choice P ε)) :
    c.run (chs ++ chs') = (c.run chs).run chs' := by
  induction chs generalizing c with
  | nil => rfl
  | cons ch chs ih =>
      cases hm : c.move ch with
      | none => simpa only [List.cons_append, run, hm] using ih c
      | some x => simpa only [List.cons_append, run, hm] using ih x.2

theorem trace_append (c : Config I P α) (chs chs' : List (Choice P ε)) :
    c.trace (chs ++ chs') = c.trace chs ++ (c.run chs).trace chs' := by
  induction chs generalizing c with
  | nil => rfl
  | cons ch chs ih =>
      cases hm : c.move ch with
      | none => simpa only [List.cons_append, trace, run, hm] using ih c
      | some x => simpa only [List.cons_append, trace, run, hm, List.cons_inj_right] using ih x.2

/-- **What a turn can do.** -/
theorem move_eq_some {c c' : Config I P α} {ch : Choice P ε} {st : Step I P α}
    (h : c.move ch = some (st, c')) :
    ∃ o k r s', c.pool ch.1 = .call o k ∧ I.attempt ch.2 o c.state = some (r, s') ∧
      c' = ⟨s', Function.update c.pool ch.1 (k r)⟩ ∧ st = ⟨ch.1, o, r, c, c'⟩ := by
  unfold move at h
  split at h
  · rename_i o k hp
    split at h
    · rename_i r s' ha
      simp only [Option.some.injEq, Prod.mk.injEq] at h
      obtain ⟨rfl, rfl⟩ := h
      exact ⟨o, k, r, s', hp, ha, rfl, rfl⟩
    · simp at h
  · simp at h

end Config

/-- The steps `τ` lead from `c` to the second configuration. -/
inductive Reach (c : Config I P α) : List (Step I P α) → Config I P α → Prop where
  | refl : Reach c [] c
  | tail {τ : List (Step I P α)} {c₁ c₂ : Config I P α} {ch : Choice P ε}
      {st : Step I P α} :
      Reach c τ c₁ → c₁.move ch = some (st, c₂) → Reach c (τ ++ [st]) c₂

/-- What a step of an interleaving is, whoever chose it. -/
structure Fires (st : Step I P α) : Prop where
  committed : (∃ v, st.out = .ok v ∧ I.ready st.op st.before.state = true ∧
      I.exec st.op st.before.state = .ok (v, st.after.state)) ∨
    (∃ e, st.out = .error e ∧ st.after.state = I.abort st.op st.before.state)
  called : ∃ k, st.before.pool st.pid = .call st.op k ∧
    st.after.pool = Function.update st.before.pool st.pid (k st.out)

theorem fires_of_move {c c' : Config I P α} {ch : Choice P ε} {st : Step I P α}
    (h : c.move ch = some (st, c')) : Fires st ∧ st.before = c ∧ st.after = c' := by
  obtain ⟨o, k, r, s', hp, ha, rfl, rfl⟩ := Config.move_eq_some h
  exact ⟨⟨I.attempt_cases ha, k, hp, rfl⟩, rfl, rfl⟩

/-- A step commits its call, or the call raises and is undone. -/
theorem Fires.outcome {st : Step I P α} (h : Fires st) :
    (∃ v, st.out = .ok v ∧ I.exec st.op st.before.state = .ok (v, st.after.state)) ∨
      ∃ e, st.out = .error e ∧ st.after.state = I.abort st.op st.before.state := by
  rcases h.committed with ⟨v, hout, -, hexec⟩ | habort
  · exact .inl ⟨v, hout, hexec⟩
  · exact .inr habort

/-- Other processes keep their programs. -/
theorem Fires.pool_ne {st : Step I P α} (h : Fires st) {p : P} (hp : p ≠ st.pid) :
    st.after.pool p = st.before.pool p := by
  obtain ⟨k, -, hk⟩ := h.called
  rw [hk, Function.update_of_ne hp]

/-- A committed call on the first part of a state leaves the other part alone. -/
theorem exec_of_inl {ρ : Type} {J : Interface (σ × ρ) ε} {pid : P} {o : I.Op} {v : I.Res o}
    {before after : Config (I.beside J) P α}
    (hf : Fires (⟨pid, .inl o, .ok v, before, after⟩ : Step (I.beside J) P α)) :
    I.exec o before.state.1 = .ok (v, after.state.1) ∧ after.state.2 = before.state.2 := by
  rcases hf.committed with ⟨v', hv, -, hexec⟩ | ⟨e, he, -⟩
  · obtain rfl : v = v' := Except.ok.inj hv
    exact Interface.exec_inl_eq_ok hexec
  · cases he

namespace Reach

variable {c c' : Config I P α} {τ : List (Step I P α)}

/-- One more turn at the front. -/
theorem cons {c₁ : Config I P α} {ch : Choice P ε} {st : Step I P α}
    (h : c.move ch = some (st, c₁)) (h' : Reach c₁ τ c') : Reach c (st :: τ) c' := by
  induction h' with
  | refl => exact Reach.tail (τ := []) .refl h
  | tail _ hmove ih => exact Reach.tail ih hmove

/-- **A schedule is an interleaving.** -/
theorem of_run (c : Config I P α) (chs : List (Choice P ε)) :
    Reach c (c.trace chs) (c.run chs) := by
  induction chs generalizing c with
  | nil => exact .refl
  | cons ch chs ih =>
      cases hm : c.move ch with
      | none => simpa only [Config.trace, Config.run, hm] using ih c
      | some x =>
          obtain ⟨st, c₁⟩ := x
          simpa only [Config.trace, Config.run, hm] using cons hm (ih c₁)

/-- Interleavings compose. -/
theorem append {c'' : Config I P α} {τ' : List (Step I P α)} (h : Reach c τ c')
    (h' : Reach c' τ' c'') : Reach c (τ ++ τ') c'' := by
  induction h' with
  | refl => simpa using h
  | tail _ hmove ih => rw [← List.append_assoc]; exact ih.tail hmove

/-- An interleaving splits at every step of it. -/
theorem split_at {st : Step I P α} {τ₁ τ₂ : List (Step I P α)}
    (h : Reach c (τ₁ ++ st :: τ₂) c') :
    Fires st ∧ Reach c τ₁ st.before ∧ Reach st.after τ₂ c' := by
  induction τ₂ using List.reverseRecOn generalizing c' with
  | nil =>
      generalize hτ : τ₁ ++ [st] = τ at h
      cases h with
      | refl => simp at hτ
      | tail hr hm =>
          obtain ⟨rfl, hst⟩ := List.append_inj' hτ rfl
          obtain rfl : st = _ := by simpa using hst
          obtain ⟨hf, hb, ha⟩ := fires_of_move hm
          subst hb ha
          exact ⟨hf, hr, .refl⟩
  | append_singleton τ₂ st' ih =>
      rw [← List.cons_append, ← List.append_assoc] at h
      generalize hτ : (τ₁ ++ st :: τ₂) ++ [st'] = τ at h
      cases h with
      | refl => simp at hτ
      | tail hr hm =>
          obtain ⟨rfl, hst⟩ := List.append_inj' hτ rfl
          obtain rfl : st' = _ := by simpa using hst
          obtain ⟨hf, hb, ha⟩ := ih hr
          exact ⟨hf, hb, ha.tail hm⟩

/-- Every step of an interleaving fires. -/
theorem fires {st : Step I P α} (h : Reach c τ c') (hst : st ∈ τ) : Fires st := by
  obtain ⟨τ₁, τ₂, rfl⟩ := List.append_of_mem hst
  exact (split_at h).1

/-- **A process makes only the calls of its program.** -/
theorem only {c c' : Config I P α} {τ : List (Step I P α)} {p : P} {A : I.Op → Prop}
    (h : Reach c τ c') (hp : (c.pool p).Only A) :
    (c'.pool p).Only A ∧ ∀ st ∈ τ, st.pid = p → A st.op := by
  induction h with
  | refl => exact ⟨hp, fun st hst => nomatch hst⟩
  | tail _ hm ih =>
      rename_i st _
      obtain ⟨hf, hb, ha⟩ := fires_of_move hm
      subst hb ha
      obtain ⟨hbefore, hcalls⟩ := ih
      obtain ⟨k, hcall, hpool⟩ := hf.called
      by_cases hpid : st.pid = p
      · subst hpid
        rw [hcall] at hbefore
        cases hbefore with
        | call ho hk =>
            refine ⟨by rw [hpool, Function.update_self]; exact hk st.out, fun st' hst' _ => ?_⟩
            rcases List.mem_append.1 hst' with hst' | hst'
            · exact hcalls st' hst' ‹_›
            · rw [List.mem_singleton.1 hst']
              exact ho
      · refine ⟨by rw [hf.pool_ne (Ne.symm hpid)]; exact hbefore, fun st' hst' hpid' => ?_⟩
        rcases List.mem_append.1 hst' with hst' | hst'
        · exact hcalls st' hst' hpid'
        · rw [List.mem_singleton.1 hst'] at hpid'
          exact absurd hpid' hpid

/-- Between two steps of an interleaving lies an interleaving. -/
theorem between {st st' : Step I P α} (h : Reach c τ c') (hsub : [st, st'].Sublist τ) :
    Fires st ∧ Fires st' ∧ ∃ τ', Reach st.after τ' st'.before := by
  obtain ⟨τ₁, τ₂, rfl, hst, hsub⟩ := List.cons_sublist_iff.1 hsub
  obtain ⟨τ₃, τ₄, rfl⟩ := List.append_of_mem (List.singleton_sublist.1 hsub)
  obtain ⟨τ₅, τ₆, rfl⟩ := List.append_of_mem hst
  rw [← List.append_assoc] at h
  obtain ⟨hf', hr, -⟩ := h.split_at
  rw [List.append_assoc, List.cons_append] at hr
  obtain ⟨hf, -, hmid⟩ := hr.split_at
  exact ⟨hf, hf', _, hmid⟩

/-- **The induction rule for interleavings.** -/
theorem induct {motive : List (Step I P α) → Config I P α → Prop} (h : Reach c τ c')
    (base : motive [] c)
    (step : ∀ (τ₁ : List (Step I P α)) (st : Step I P α), Reach c τ₁ st.before → Fires st →
      motive τ₁ st.before → motive (τ₁ ++ [st]) st.after) : motive τ c' := by
  induction h with
  | refl => exact base
  | tail hr hm ih =>
      obtain ⟨hf, hb, ha⟩ := fires_of_move hm
      subst hb ha
      exact step _ _ hr hf ih

/-- **The invariant rule**: what every step meeting a condition preserves holds
after every interleaving of such steps. -/
theorem invariant (Inv : Config I P α → Prop) (Cond : Step I P α → Prop) (h : Reach c τ c')
    (hcond : ∀ st ∈ τ, Cond st) (base : Inv c)
    (step : ∀ st, Fires st → Cond st → Inv st.before → Inv st.after) : Inv c' := by
  induction h with
  | refl => exact base
  | tail hr hm ih =>
      obtain ⟨hf, hb, ha⟩ := fires_of_move hm
      subst hb ha
      exact step _ hf (hcond _ (by simp)) (ih fun st hst => hcond st (by simp [hst]))

end Reach

/-! ## Outlines -/

/-- A proof outline: for each local state, the calls it allows, the local state
after each outcome of a call, and the results it may end with. -/
structure Outline (I : Interface σ ε) (L α : Type) where
  allows : L → I.Op → Prop
  next : L → (o : I.Op) → Except ε (I.Res o) → L
  ends : L → Except ε α → Prop

namespace Outline

variable (O : Outline I L α)

/-- The program follows the outline from the local state `l`. -/
def Holds : L → Program I α → Prop
  | l, .ret a => O.ends l (.ok a)
  | l, .throw e => O.ends l (.error e)
  | l, .call o k => O.allows l o ∧ ∀ r, Holds (O.next l o r) (k r)

/-- The local state of a process after one step of the pool. -/
def advance (ls : P → L) (st : Step I P α) : P → L :=
  Function.update ls st.pid (O.next (ls st.pid) st.op st.out)

/-- The local states after the steps `τ`. -/
def track (ls : P → L) (τ : List (Step I P α)) : P → L :=
  τ.foldl O.advance ls

@[simp] theorem track_nil (ls : P → L) : O.track ls [] = ls := rfl

@[simp] theorem track_concat (ls : P → L) (τ : List (Step I P α)) (st : Step I P α) :
    O.track ls (τ ++ [st]) = O.advance (O.track ls τ) st := by
  simp [track]

theorem advance_self (ls : P → L) (st : Step I P α) :
    O.advance ls st st.pid = O.next (ls st.pid) st.op st.out := by
  simp [advance]

theorem advance_ne (ls : P → L) (st : Step I P α) {p : P} (hp : p ≠ st.pid) :
    O.advance ls st p = ls p := by
  simp [advance, Function.update_of_ne hp]

variable {O}

/-- A step of a pool that follows its outlines is an allowed call, and the pool
follows them after it. -/
theorem holds_step {ls : P → L} {st : Step I P α} (hf : Fires st)
    (h : ∀ p, O.Holds (ls p) (st.before.pool p)) :
    O.allows (ls st.pid) st.op ∧ ∀ p, O.Holds (O.advance ls st p) (st.after.pool p) := by
  obtain ⟨k, hcall, hpool⟩ := hf.called
  have hpid := h st.pid
  rw [hcall] at hpid
  obtain ⟨hallow, hnext⟩ := hpid
  refine ⟨hallow, fun p => ?_⟩
  by_cases hp : p = st.pid
  · subst hp
    rw [advance_self, hpool, Function.update_self]
    exact hnext st.out
  · rw [O.advance_ne ls st hp, hf.pool_ne hp]
    exact h p

/-- **Programs keep following their outlines.** -/
theorem holds_reach {c c' : Config I P α} {τ : List (Step I P α)} {ls : P → L}
    (h : Reach c τ c') (h₀ : ∀ p, O.Holds (ls p) (c.pool p)) :
    ∀ p, O.Holds (O.track ls τ p) (c'.pool p) :=
  h.induct (motive := fun τ c' => ∀ p, O.Holds (O.track ls τ p) (c'.pool p)) h₀
    fun τ₁ st _ hf ih => by rw [track_concat]; exact (holds_step hf ih).2

/-- **The invariant rule of an outline**: an invariant of the store and the local
states, preserved by every allowed step that meets the condition, holds after
every interleaving of such steps. -/
theorem invariant {c c' : Config I P α} {τ : List (Step I P α)} {ls : P → L}
    (Inv : σ → (P → L) → Prop) (Cond : Step I P α → Prop) (h : Reach c τ c')
    (h₀ : ∀ p, O.Holds (ls p) (c.pool p)) (hcond : ∀ st ∈ τ, Cond st)
    (base : Inv c.state ls)
    (step : ∀ ls' st, Fires st → Cond st → (∀ p, O.Holds (ls' p) (st.before.pool p)) →
      O.allows (ls' st.pid) st.op → Inv st.before.state ls' →
      Inv st.after.state (O.advance ls' st)) :
    Inv c'.state (O.track ls τ) := by
  induction h with
  | refl => exact base
  | tail hr hm ih =>
      obtain ⟨hf, hb, ha⟩ := fires_of_move hm
      subst hb ha
      have hh := holds_reach hr h₀
      rw [track_concat]
      exact step _ _ hf (hcond _ (by simp)) hh (holds_step hf hh).1
        (ih fun st hst => hcond st (by simp [hst]))

/-- **What every allowed call preserves, a program that follows the outline preserves.** -/
theorem eval_invariant (Inv : σ → Prop)
    (hok : ∀ l o s r s', O.allows l o → Inv s → I.exec o s = .ok (r, s') → Inv s')
    (habort : ∀ l o s, O.allows l o → Inv s → Inv (I.abort o s)) {p : Program I α} {l : L}
    (h : O.Holds l p) {s : σ} (hs : Inv s) : Inv (p.eval s).2 := by
  induction p generalizing l s with
  | ret a => exact hs
  | throw e => exact hs
  | call o k ih =>
      obtain ⟨hallow, hnext⟩ := h
      cases hx : I.exec o s with
      | ok x =>
          obtain ⟨r, s'⟩ := x
          rw [Program.eval_call_ok hx]
          exact ih _ (hnext (.ok r)) (hok l o s r s' hallow hs hx)
      | error e =>
          rw [Program.eval_call_error hx]
          exact ih _ (hnext (.error e)) (habort l o s hallow hs)

/-- A sequence follows an outline when its first part does, up to the local states
from which the second part does. -/
theorem holds_bind {β : Type} {O' : Outline I L β} {p : Program I α} {f : α → Program I β}
    {l : L} (hallows : ∀ l o, O.allows l o → O'.allows l o)
    (hnext : ∀ l o r, O'.next l o r = O.next l o r)
    (hret : ∀ l a, O.ends l (.ok a) → O'.Holds l (f a))
    (hthrow : ∀ l e, O.ends l (.error e) → O'.ends l (.error e))
    (h : O.Holds l p) : O'.Holds l (p.bind f) := by
  induction p generalizing l with
  | ret a => exact hret l a h
  | throw e => exact hthrow l e h
  | call o k ih =>
      refine ⟨hallows l o h.1, fun r => ?_⟩
      rw [hnext]
      exact ih r (h.2 r)

/-- A program whose failure is dropped follows an outline of which any end will do. -/
theorem holds_tryCatch_bind {β : Type} {O' : Outline I L β} {p : Program I α}
    {a : α} {f : α → Program I β} {l : L} (hallows : ∀ l o, O.allows l o → O'.allows l o)
    (hnext : ∀ l o r, O'.next l o r = O.next l o r) (h : O.Holds l p)
    (hf : ∀ l a, O'.Holds l (f a)) : O'.Holds l ((p.tryCatch fun _ => .ret a).bind f) := by
  induction p generalizing l with
  | ret a => exact hf l a
  | throw e => exact hf l a
  | call o k ih =>
      refine ⟨hallows l o h.1, fun r => ?_⟩
      rw [hnext]
      exact ih r (h.2 r)

/-- A part whose calls keep the local state. -/
theorem holds_only_bind {β : Type} {O : Outline I L β} {A : I.Op → Prop} {p : Program I α}
    {f : α → Program I β} {l : L} (h : p.Only A)
    (hA : ∀ o, A o → O.allows l o ∧ ∀ r, O.next l o r = l) (hf : ∀ a, O.Holds l (f a))
    (hends : ∀ e, O.ends l (.error e)) : O.Holds l (p.bind f) := by
  induction h with
  | ret a => exact hf a
  | throw e => exact hends e
  | call ho _ ih =>
      refine ⟨(hA _ ho).1, fun r => ?_⟩
      rw [(hA _ ho).2]
      exact ih r

/-- A program with a handler follows an outline when its body does up to the local states at
which it raises, and the handler from there. -/
theorem holds_tryCatch {O O' : Outline I L α} {p : Program I α} {f : ε → Program I α} {l : L}
    (hallows : ∀ l o, O.allows l o → O'.allows l o) (hnext : ∀ l o r, O'.next l o r = O.next l o r)
    (hret : ∀ l a, O.ends l (.ok a) → O'.ends l (.ok a))
    (hthrow : ∀ l e, O.ends l (.error e) → O'.Holds l (f e)) (h : O.Holds l p) :
    O'.Holds l (p.tryCatch f) := by
  induction p generalizing l with
  | ret a => exact hret l a h
  | throw e => exact hthrow l e h
  | call o k ih =>
      refine ⟨hallows l o h.1, fun r => ?_⟩
      rw [hnext]
      exact ih r (h.2 r)

/-- The outcome of a program that follows an outline. -/
theorem holds_attempt {O : Outline I L α} {O' : Outline I L (Except ε α)} {p : Program I α} {l : L}
    (hallows : ∀ l o, O.allows l o → O'.allows l o) (hnext : ∀ l o r, O'.next l o r = O.next l o r)
    (hends : ∀ l r, O.ends l r → O'.ends l (.ok r)) (h : O.Holds l p) : O'.Holds l p.attempt := by
  induction p generalizing l with
  | ret a => exact hends l (.ok a) h
  | throw e => exact hends l (.error e) h
  | call o k ih =>
      refine ⟨hallows l o h.1, fun r => ?_⟩
      rw [hnext]
      exact ih r (h.2 r)

/-- A program with a last part follows an outline when its body does up to the local states at
which it ends, and the last part from there. -/
theorem holds_tryFinally {O O' : Outline I L α} {p : Program I α} {fin : Program I Unit} {l : L}
    (hallows : ∀ l o, O.allows l o → O'.allows l o) (hnext : ∀ l o r, O'.next l o r = O.next l o r)
    (hret : ∀ l a, O.ends l (.ok a) → O'.Holds l (fin.bind fun _ => .ret a))
    (hthrow : ∀ l e, O.ends l (.error e) → O'.Holds l (fin.bind fun _ => .throw e))
    (h : O.Holds l p) : O'.Holds l (p.tryFinally fin) := by
  induction p generalizing l with
  | ret a => exact hret l a h
  | throw e => exact hthrow l e h
  | call o k ih =>
      refine ⟨hallows l o h.1, fun r => ?_⟩
      rw [hnext]
      exact ih r (h.2 r)

/-- A program that is killed on the way follows the outline that far. -/
theorem holds_cut {O : Outline I L α} {O' : Outline I L (Option α)} {p : Program I α} {l : L}
    (hallows : ∀ l o, O.allows l o → O'.allows l o) (hnext : ∀ l o r, O'.next l o r = O.next l o r)
    (hends : ∀ l r, O.ends l r → O'.ends l (r.map some)) (hkilled : ∀ l, O'.ends l (.ok none))
    (h : O.Holds l p) (n : Nat) : O'.Holds l (p.cut n) := by
  induction p generalizing l n with
  | ret a => exact hends l (.ok a) h
  | throw e => exact hends l (.error e) h
  | call o k ih =>
      cases n with
      | zero => exact hkilled l
      | succ n =>
          refine ⟨hallows l o h.1, fun r => ?_⟩
          rw [hnext]
          exact ih r (h.2 r) n

/-- A program that branches. -/
theorem holds_ite {O : Outline I L α} {c : Prop} [Decidable c] {p q : Program I α} {l : L}
    (hp : c → O.Holds l p) (hq : ¬ c → O.Holds l q) : O.Holds l (if c then p else q) := by
  by_cases hc : c
  · rw [if_pos hc]
    exact hp hc
  · rw [if_neg hc]
    exact hq hc

/-- A program over the first part of a state. -/
theorem holds_inl {ρ : Type} {J : Interface (σ × ρ) ε} {O : Outline I L α}
    {O' : Outline (I.beside J) L α} {p : Program I α} {l : L}
    (hallows : ∀ l o, O.allows l o → O'.allows l (.inl o))
    (hnext : ∀ l o r, O'.next l (.inl o) r = O.next l o r)
    (hends : ∀ l r, O.ends l r → O'.ends l r) (h : O.Holds l p) : O'.Holds l p.inl := by
  induction p generalizing l with
  | ret a => exact hends l (.ok a) h
  | throw e => exact hends l (.error e) h
  | call o k ih =>
      refine ⟨hallows l o h.1, fun r => ?_⟩
      rw [hnext]
      exact ih r (h.2 r)

/-! ### Processes without an outline -/

/-- The outline for pools of which some processes are arbitrary: those have no local
state and may do anything. -/
def orFree (O : Outline I L α) : Outline I (Option L) α where
  allows l o := l.elim True (O.allows · o)
  next l o r := l.map (O.next · o r)
  ends l r := l.elim True (O.ends · r)

theorem holds_orFree_none (O : Outline I L α) (p : Program I α) : O.orFree.Holds none p := by
  induction p with
  | ret a => trivial
  | throw e => trivial
  | call o k ih => exact ⟨trivial, fun r => ih r⟩

theorem holds_orFree_some {p : Program I α} {l : L} (h : O.Holds l p) :
    O.orFree.Holds (some l) p := by
  induction p generalizing l with
  | ret a => exact h
  | throw e => exact h
  | call o k ih => exact ⟨h.1, fun r => ih r (h.2 r)⟩

/-- The outline for pools of which some processes are known by their calls only. -/
def orOnly (O : Outline I L α) (A : I.Op → Prop) : Outline I (Option L) α where
  allows l o := l.elim (A o) (O.allows · o)
  next l o r := l.map (O.next · o r)
  ends l r := l.elim True (O.ends · r)

theorem holds_orOnly_none (O : Outline I L α) {A : I.Op → Prop} {p : Program I α}
    (h : p.Only A) : (O.orOnly A).Holds none p := by
  induction h with
  | ret a => trivial
  | throw e => trivial
  | call ho _ ih => exact ⟨ho, fun r => ih r⟩

theorem holds_orOnly_some {A : I.Op → Prop} {p : Program I α} {l : L} (h : O.Holds l p) :
    (O.orOnly A).Holds (some l) p := by
  induction p generalizing l with
  | ret a => exact h
  | throw e => exact h
  | call o k ih => exact ⟨h.1, fun r => ih r (h.2 r)⟩

/-- A process has an outline from the start or never. -/
theorem track_orOnly_isSome (O : Outline I L α) {A : I.Op → Prop} (ls : P → Option L)
    (τ : List (Step I P α)) (p : P) :
    ((O.orOnly A).track ls τ p).isSome = (ls p).isSome := by
  induction τ using List.reverseRecOn with
  | nil => rfl
  | append_singleton τ st ih =>
      rw [track_concat]
      by_cases hp : p = st.pid
      · subst hp
        rw [advance_self, ← ih]
        exact Option.isSome_map ..
      · rw [advance_ne _ _ _ hp, ih]

end Outline

end AiStudio.Concurrency
