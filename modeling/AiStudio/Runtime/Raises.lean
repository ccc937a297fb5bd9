import AiStudio.Runtime.Calls

/-!
# Which blocked calls reach the human

A call over its cap asks for a higher one under a fingerprint that is fixed per scope and
period. `request_approval` reuses the open row of a fingerprint, and an approved row stays
open because nobody consumes it. So a block leaves a pending request exactly when the
request it reuses has not been answered with yes.
-/

set_option autoImplicit false

namespace AiStudio.Runtime

open AiStudio.Data AiStudio.Concurrency

/-! ## What a gated process has asked for -/

/-- How far a process is with a request: it has made none, it has an open row for the
fingerprint, or one of its calls has failed. -/
inductive AskPhase where
  | quiet
  | asked (fingerprint : String)
  | failed

/-- The phase after a call. -/
def AskPhase.next : AskPhase → (o : ledger.Op) → Except Exn (ledger.Res o) → AskPhase
  | .quiet, .inl (.selectOpenApproval fingerprint), .ok (some _) => .asked fingerprint
  | .quiet, .inl (.insertApproval _ a), .ok _ => .asked a.fingerprint
  | _, _, .error _ => .failed
  | l, _, .ok _ => l

/-- Every call is allowed; a process of which no call has failed ends as `post` says. -/
def askOutline {α : Type} (post : AskPhase → Except Exn α → Prop) : Outline ledger AskPhase α where
  allows _ _ := True
  next := AskPhase.next
  ends l r := l ≠ .failed → post l r

/-- The exception does not block a call as over its cap. -/
def Exn.Mild (e : Exn) : Prop := ∀ st, e = .overBudget st → st.zone ≠ .overCap

/-- A process that raises `OverBudget` in the zone `over` has asked for a higher cap. -/
def AskedBefore {α : Type} (sha256 : String → String) (l : AskPhase) (r : Except Exn α) : Prop :=
  ∀ st, r = .error (.overBudget st) → st.zone = .overCap →
    l = .asked (budgetFingerprint sha256 st.workstream st.period)

/-- The program asks for nothing and does not block as over a cap. -/
def Calm {α : Type} (p : Payer α) : Prop :=
  ∀ l, (askOutline fun l' (r : Except Exn α) => l' = l ∧ ∀ e, r = .error e → e.Mild).Holds l p

section Programs

variable {α β : Type}

theorem next_error (l : AskPhase) (o : ledger.Op) (e : Exn) : l.next o (.error e) = .failed := by
  cases o with
  | inr o => cases l <;> rfl
  | inl o => cases l <;> cases o <;> rfl

theorem next_failed (o : ledger.Op) (r : Except Exn (ledger.Res o)) :
    AskPhase.failed.next o r = .failed := by
  cases r with
  | error e => exact next_error _ o e
  | ok v => rfl

theorem holds_failed (post : AskPhase → Except Exn α → Prop) (p : Payer α) :
    (askOutline post).Holds .failed p := by
  induction p with
  | ret a => exact fun h => absurd rfl h
  | throw e => exact fun h => absurd rfl h
  | call o k ih =>
      refine ⟨trivial, fun r => ?_⟩
      change (askOutline post).Holds (AskPhase.failed.next o r) (k r)
      rw [next_failed]
      exact ih r

/-- The call asks for nothing. -/
def IsCalm : ledger.Op → Prop
  | .inl (.selectOpenApproval _) => False
  | .inl (.insertApproval ..) => False
  | _ => True

theorem next_of_calm {l : AskPhase} {o : ledger.Op} (ho : IsCalm o) (v : ledger.Res o) :
    l.next o (.ok v) = l := by
  cases o with
  | inr o => cases l <;> rfl
  | inl o =>
      cases o with
      | selectOpenApproval fingerprint => exact ho.elim
      | insertApproval id a => exact ho.elim
      | _ => cases l <;> rfl

namespace Calm

theorem ret (a : α) : Calm (.ret a : Payer α) := by
  intro l _
  exact ⟨rfl, fun e h => by cases h⟩

theorem throw {e : Exn} (h : e.Mild) : Calm (.throw e : Payer α) := by
  intro l _
  exact ⟨rfl, fun e' he => by rw [← Except.error.inj he]; exact h⟩

theorem bind {p : Payer α} {f : α → Payer β} (hp : Calm p) (hf : ∀ a, Calm (f a)) :
    Calm (p.bind f) := by
  intro l
  refine Outline.holds_bind (fun _ _ h => h) (fun _ _ _ => rfl) ?_ ?_ (hp l)
  · intro l' a hends
    by_cases hl : l' = .failed
    · subst hl
      exact holds_failed _ _
    · obtain ⟨rfl, -⟩ := hends hl
      exact hf a l'
  · intro l' e hends hl
    exact ⟨(hends hl).1, fun e' he => by
      rw [← Except.error.inj he]; exact (hends hl).2 e rfl⟩

theorem tryCatch {p : Payer α} {f : Exn → Payer α} (hp : Calm p)
    (hf : ∀ e, e.Mild → Calm (f e)) : Calm (p.tryCatch f) := by
  intro l
  refine Outline.holds_tryCatch (fun _ _ h => h) (fun _ _ _ => rfl) (fun _ _ h => h) ?_ (hp l)
  intro l' e hends
  by_cases hl : l' = .failed
  · subst hl
    exact holds_failed _ _
  · obtain ⟨rfl, hmild⟩ := hends hl
    exact hf e (hmild e rfl) l'

theorem tryFinally {p : Payer α} {fin : Payer Unit} (hp : Calm p) (hfin : Calm fin) :
    Calm (p.tryFinally fin) := by
  intro l
  refine Outline.holds_tryFinally (fun _ _ h => h) (fun _ _ _ => rfl) ?_ ?_ (hp l)
  · intro l' a hends
    by_cases hl : l' = .failed
    · subst hl
      exact holds_failed _ _
    · obtain ⟨rfl, -⟩ := hends hl
      exact (hfin.bind fun _ => .ret a) l'
  · intro l' e hends
    by_cases hl : l' = .failed
    · subst hl
      exact holds_failed _ _
    · obtain ⟨rfl, hmild⟩ := hends hl
      exact (hfin.bind fun _ => .throw (hmild e rfl)) l'

theorem call {o : ledger.Op} {k : Except Exn (ledger.Res o) → Payer α} (ho : IsCalm o)
    (hok : ∀ v, Calm (k (.ok v))) : Calm (.call o k) := by
  intro l
  refine ⟨trivial, fun r => ?_⟩
  cases r with
  | ok v =>
      change (askOutline _).Holds (l.next o (.ok v)) (k (.ok v))
      rw [next_of_calm ho]
      exact hok v l
  | error e =>
      change (askOutline _).Holds (l.next o (.error e)) (k (.error e))
      rw [next_error]
      exact holds_failed _ _

theorem ite {c : Prop} [Decidable c] {p q : Payer α} (hp : Calm p) (hq : Calm q) :
    Calm (if c then p else q) := by
  by_cases hc : c
  · rw [if_pos hc]
    exact hp
  · rw [if_neg hc]
    exact hq

end Calm

/-- A calm part keeps the phase. -/
theorem holds_calm_bind {post : AskPhase → Except Exn β → Prop} {p : Payer α} {f : α → Payer β}
    {l : AskPhase} (hp : Calm p) (hf : ∀ a, (askOutline post).Holds l (f a))
    (hpost : ∀ e, e.Mild → post l (.error e)) : (askOutline post).Holds l (p.bind f) := by
  refine Outline.holds_bind (fun _ _ h => h) (fun _ _ _ => rfl) ?_ ?_ (hp l)
  · intro l' a hends
    by_cases hl : l' = .failed
    · subst hl
      exact holds_failed _ _
    · obtain ⟨rfl, -⟩ := hends hl
      exact hf a
  · intro l' e hends hl
    obtain ⟨rfl, hmild⟩ := hends hl
    exact hpost e (hmild e rfl)

theorem askedBefore_of_mild {sha256 : String → String} {l : AskPhase} {e : Exn} (h : e.Mild) :
    AskedBefore sha256 l (.error e : Except Exn α) := by
  intro st hst hover
  exact absurd hover (h st (Except.error.inj hst))

end Programs

/-! ## The parts of a gated call -/

theorem mild_of_ne {e : Exn} (h : ∀ st, e ≠ .overBudget st) : e.Mild :=
  fun st hst => absurd hst (h st)

theorem calm_emitEvent (workstream : String) (taskId : Option Uuid) (payload : SinkPayload) :
    Calm ((emitEvent workstream taskId payload).inl : Payer Unit) := by
  unfold emitEvent requireWorkstream
  split
  · rename_i e he
    split at he
    · rw [← Except.error.inj he]
      exact .throw (mild_of_ne fun st h => by cases h)
    · cases he
  · exact .call (o := .inl (.emit taskId _ payload)) trivial fun _ => .ret ()

theorem calm_stmt (o : BudgetOp) : Calm (stmt o) :=
  .call (o := .inr o) trivial fun v => .ret v

theorem calm_releaseReservation (workstream : String) (estUsd : ℚ) (estTokens : Int) :
    Calm (releaseReservation workstream estUsd estTokens) := by
  exact .ite (.ret ()) (calm_stmt _)

namespace EnforceArgs

variable (a : EnforceArgs)

theorem calm_entries (tx : Nat) (rows : List (BudgetKey × BudgetRow)) :
    Calm (a.entries tx rows) := by
  induction rows with
  | nil => exact .ret []
  | cons row rows ih =>
      obtain ⟨k, row⟩ := row
      rw [entries]
      split
      · exact (calm_stmt _).bind fun spend => ih.bind fun rest => .ret _
      · exact ih

theorem calm_announce (entries : List BudgetStatus) : Calm (a.announce entries) := by
  induction entries with
  | nil => exact .ret ()
  | cons st entries ih =>
      rw [announce]
      unfold BudgetStatus.zoneEvent
      cases st.zone with
      | overCap => exact .throw (mild_of_ne fun st h => by cases h)
      | _ => exact (calm_emitEvent _ _ _).bind fun _ => ih

theorem calm_allow (didReserve : Bool) (entries : List BudgetStatus) :
    Calm (a.allow didReserve entries) := by
  refine .bind (.tryCatch (a.calm_announce _) fun e he => ?_) fun _ => .ret entries
  rw [undo]
  refine .bind ?_ fun _ => .throw he
  split
  · exact calm_releaseReservation _ _ _
  · exact .ret ()

/-- What `enforce` leaves behind: it asked before it blocked, and an allowed call has not. -/
def Leaves {α : Type} (l : AskPhase) (r : Except Exn α) : Prop :=
  AskedBefore a.sha256 l r ∧ ∀ v, r = .ok v → l = .quiet

theorem leaves_of_calm {α : Type} {p : Payer α} (h : Calm p) :
    (askOutline a.Leaves).Holds .quiet p := by
  rw [← Program.bind_ret p]
  refine holds_calm_bind h (fun v _ => ⟨fun st hst => (by cases hst), fun _ _ => rfl⟩) fun e he => ?_
  exact ⟨askedBefore_of_mild he, fun v hv => (by cases hv)⟩

theorem leaves_blockOver (st : BudgetStatus) :
    (askOutline a.Leaves).Holds .quiet (a.blockOver st) := by
  have hraise : (askOutline a.Leaves).Holds
      (.asked (budgetFingerprint a.sha256 st.workstream st.period))
      (.throw (.overBudget st) : Payer (List BudgetStatus)) := by
    refine fun _ => ⟨fun st' hst' _ => ?_, fun v hv => (by cases hv)⟩
    obtain rfl := Exn.overBudget.inj (Except.error.inj hst')
    rfl
  refine holds_calm_bind (calm_emitEvent _ _ _) (fun _ => ?_) fun e he =>
    ⟨askedBefore_of_mild he, fun v hv => (by cases hv)⟩
  refine ⟨trivial, fun r => ?_⟩
  cases r with
  | error e => exact holds_failed _ _
  | ok existing =>
      cases existing with
      | some row => exact hraise
      | none =>
          refine ⟨trivial, fun r => ?_⟩
          cases r with
          | error e => exact holds_failed _ _
          | ok row => exact hraise

theorem leaves_settle (tx : Nat) (entries : List BudgetStatus) :
    (askOutline a.Leaves).Holds .quiet (a.settle tx entries) := by
  have hmild : ∀ e : Exn, e.Mild → a.Leaves .quiet (.error e : Except Exn (List BudgetStatus)) :=
    fun e he => ⟨askedBefore_of_mild he, fun v hv => (by cases hv)⟩
  unfold settle
  split
  · exact holds_calm_bind (calm_stmt _) (fun _ => a.leaves_blockOver _) hmild
  · rename_i withheld hover hwithheld
    have hzone : withheld.zone = .reserve := by
      unfold withheld? at hwithheld
      split at hwithheld
      · cases hwithheld
      · simpa using List.find?_some hwithheld
    refine a.leaves_of_calm ((calm_stmt _).bind fun _ => (calm_emitEvent _ _ _).bind fun _ =>
      .throw fun st hst => ?_)
    rw [← Exn.overBudget.inj hst, hzone]
    decide
  · refine a.leaves_of_calm ?_
    split
    · exact (calm_stmt _).bind fun _ => .ret []
    · split
      · exact (calm_stmt _).bind fun _ => a.calm_allow _ _
      · exact (calm_stmt _).bind fun _ => a.calm_allow _ _

/-- **`enforce` asks before it blocks.** -/
theorem leaves_enforce : (askOutline a.Leaves).Holds .quiet a.enforce := by
  have hmild : ∀ e : Exn, e.Mild → a.Leaves .quiet (.error e : Except Exn (List BudgetStatus)) :=
    fun e he => ⟨askedBefore_of_mild he, fun v hv => (by cases hv)⟩
  unfold enforce
  split
  · exact a.leaves_of_calm (.throw (mild_of_ne fun st h => by cases h))
  · exact holds_calm_bind (calm_stmt _) (fun locked =>
      holds_calm_bind (a.calm_entries _ _) (fun entries => a.leaves_settle _ _) hmild) hmild

end EnforceArgs

namespace ModelCall

variable (c : ModelCall)

theorem calm_releaseAll (reservations : List (ℚ × Int)) : Calm (c.releaseAll reservations) := by
  induction reservations with
  | nil => exact .ret ()
  | cons reservation reservations ih =>
      obtain ⟨estUsd, estTokens⟩ := reservation
      exact (calm_releaseReservation _ _ _).bind fun _ => ih

theorem calm_record (spec : ModelSpec) (provider : Provider) (completion : Completion) :
    Calm (c.record spec provider completion) := by
  refine .bind (calm_emitEvent _ _ _) fun _ => ?_
  cases c.taskId with
  | none => exact .ret completion
  | some id =>
      exact .call (o := .inl (.addSpentTokens id completion.usage.totalTokens)) trivial fun _ =>
        .ret completion

theorem calm_fail (spec : ModelSpec) (provider : Provider) (errorType : String) {e : Exn}
    (he : e.Mild) : Calm (c.fail spec provider errorType e) :=
  (calm_emitEvent _ _ _).bind fun _ => .throw he

theorem calm_dispatchFallback (spec : ModelSpec) : Calm (c.dispatchFallback spec) := by
  unfold dispatchFallback
  dsimp only
  split
  · exact c.calm_record _ _ _
  · exact c.calm_fail _ _ _ (mild_of_ne fun st h => by cases h)
  · exact c.calm_fail _ _ _ (mild_of_ne fun st h => by cases h)

theorem asked_of_calm {α : Type} {p : Payer α} (h : Calm p) :
    (askOutline (AskedBefore c.sha256)).Holds .quiet p := by
  rw [← Program.bind_ret p]
  exact holds_calm_bind h (fun v _ st hst => by cases hst) fun e he => askedBefore_of_mild he

theorem asked_retry (routed spec : ModelSpec) :
    (askOutline (AskedBefore c.sha256)).Holds .quiet (c.retry routed spec) := by
  have hattempt : (askOutline fun l (r : Except Exn (Except Exn (List BudgetStatus))) =>
      ∃ r', r = .ok r' ∧ (c.gateArgs true spec).Leaves l r').Holds .quiet
        (c.gateArgs true spec).enforce.attempt :=
    Outline.holds_attempt (O := askOutline (c.gateArgs true spec).Leaves) (fun _ _ h => h)
      (fun _ _ _ => rfl) (fun _ r h hl => ⟨r, rfl, h hl⟩) (c.gateArgs true spec).leaves_enforce
  refine Outline.holds_bind (fun _ _ h => h) (fun _ _ _ => rfl) ?_ ?_ hattempt
  · intro l gated hends
    by_cases hl : l = .failed
    · subst hl
      exact holds_failed _ _
    · obtain ⟨r', hr', hleaves⟩ := hends hl
      obtain rfl := Except.ok.inj hr'
      cases gated with
      | error e =>
          refine holds_calm_bind (c.calm_releaseAll _) (fun _ _ => ?_) fun e' he' =>
            askedBefore_of_mild he'
          intro st hst hover
          obtain rfl := Except.error.inj hst
          exact hleaves.1 st rfl hover
      | ok entries =>
          obtain rfl := hleaves.2 entries rfl
          exact c.asked_of_calm ((c.calm_dispatchFallback spec).tryFinally (c.calm_releaseAll _))
  · intro l e hends hl
    obtain ⟨r', hr', -⟩ := hends hl
    cases hr'

theorem asked_dispatch (spec : ModelSpec) :
    (askOutline (AskedBefore c.sha256)).Holds .quiet (c.dispatch spec) := by
  unfold dispatch
  dsimp only
  split
  · exact c.asked_of_calm ((c.calm_record _ _ _).tryFinally (c.calm_releaseAll _))
  · exact c.asked_of_calm ((c.calm_fail _ _ _ (mild_of_ne fun st h => by cases h)).tryFinally
      (c.calm_releaseAll _))
  · split
    · exact c.asked_of_calm ((c.calm_releaseAll _).bind fun _ =>
        .throw (mild_of_ne fun st h => by cases h))
    · exact c.asked_retry _ _

/-- **A model call asks before it blocks.** -/
theorem asked_callModel : (askOutline (AskedBefore c.sha256)).Holds .quiet c.callModel := by
  have hmild : ∀ e : Exn, e.Mild → AskedBefore c.sha256 .quiet (.error e : Except Exn Completion) :=
    fun e he => askedBefore_of_mild he
  unfold callModel
  split
  · rename_i e he
    refine c.asked_of_calm (.throw (mild_of_ne fun st hst => ?_))
    rcases isRouting_of_routeDecision he with ⟨m, hm⟩ | ⟨m, hm⟩
    · rw [hm] at hst
      cases hst
    · rw [hm] at hst
      cases hst
  · rename_i decision _
    refine holds_calm_bind (calm_emitEvent _ _ _) (fun _ => ?_) hmild
    refine Outline.holds_bind (fun _ _ h => h) (fun _ _ _ => rfl) ?_ ?_
      (c.gateArgs false decision.model).leaves_enforce
    · intro l entries hends
      by_cases hl : l = .failed
      · subst hl
        exact holds_failed _ _
      · obtain rfl := (hends hl).2 entries rfl
        exact c.asked_dispatch _
    · intro l e hends hl st hst hover
      obtain rfl := Except.error.inj hst
      exact (hends hl).1 st rfl hover

end ModelCall

/-! ## Runs -/

/-- A process that is gated: a direct `enforce`, or a model call. -/
inductive Gated where
  | enforce (a : EnforceArgs)
  | callModel (c : ModelCall)

namespace Gated

/-- The program of a gated process; its result is not looked at. -/
def program : Gated → Payer Unit
  | enforce a => a.enforce.bind fun _ => .ret ()
  | callModel c => c.callModel.bind fun _ => .ret ()

def sha256 : Gated → String → String
  | enforce a => a.sha256
  | callModel c => c.sha256

theorem asked_program (g : Gated) :
    (askOutline (AskedBefore g.sha256)).Holds .quiet g.program := by
  have hends : ∀ {α : Type} (l : AskPhase) (r : Except Exn α), AskedBefore g.sha256 l r →
      AskedBefore g.sha256 l (r.map fun _ => ()) := by
    intro α l r h st hst hover
    cases r with
    | ok v => cases hst
    | error e => exact h st (congrArg Except.error (Except.error.inj hst)) hover
  cases g with
  | enforce a =>
      exact Outline.holds_bind (fun _ _ h => h) (fun _ _ _ => rfl)
        (fun l v h hl => hends l (.ok v) (h hl).1) (fun l e h hl => hends l (.error e) (h hl).1)
        a.leaves_enforce
  | callModel c =>
      exact Outline.holds_bind (O := askOutline (AskedBefore c.sha256)) (fun _ _ h => h)
        (fun _ _ _ => rfl) (fun l v h hl => hends l (.ok v) (h hl))
        (fun l e h hl => hends l (.error e) (h hl)) c.asked_callModel

end Gated

section Steps

variable {P : Type}

/-- Gated processes beside any other ones: humans, workers, those who set budgets. -/
def gatedPool (s : Books) (gated : P → Option Gated) (others : P → Payer Unit) :
    Config ledger P Unit where
  state := s
  pool p :=
    match gated p with
    | some g => g.program
    | none => others p

/-- The fingerprint for which a step has found or made an open request. With it the request of
a block is complete, and `enforce` raises. -/
def asked? (st : Step ledger P Unit) : Option String :=
  match st with
  | ⟨_, .inl (.selectOpenApproval fingerprint), .ok (some _), _, _⟩ => some fingerprint
  | ⟨_, .inl (.insertApproval _ a), .ok _, _, _⟩ => some a.fingerprint
  | _ => none

/-- The fingerprint for which a step has read the open requests. -/
def looked? (st : Step ledger P Unit) : Option String :=
  match st with
  | ⟨_, .inl (.selectOpenApproval fingerprint), .ok _, _, _⟩ => some fingerprint
  | _ => none

/-- A request under the fingerprint waits for the human. -/
def Books.Surfaced (s : Books) (fingerprint : String) : Prop :=
  ∃ id row, s.1.approvals.find? id = some row ∧ row.requestFingerprint = fingerprint ∧
    row.status = .pending

/-- A request under the fingerprint has been approved. Nothing consumes such a grant. -/
def Books.Granted (s : Books) (fingerprint : String) : Prop :=
  ∃ id row, s.1.approvals.find? id = some row ∧ row.requestFingerprint = fingerprint ∧
    row.status = .approved

variable [DecidableEq P] {st : Step ledger P Unit}

/-- The block of a step reaches the human exactly when the request it reuses still waits. -/
theorem surfaced_step (hf : Fires st) {fingerprint : String} (hask : asked? st = some fingerprint) :
    st.after.state.Surfaced fingerprint ↔ (looked? st = some fingerprint →
      ¬ (st.before.state.Granted fingerprint ∧ ¬ st.before.state.Surfaced fingerprint)) := by
  obtain ⟨pid, op, out, before, after⟩ := st
  cases op with
  | inr o => cases hask
  | inl o =>
      cases o with
      | selectOpenApproval fp =>
          cases out with
          | error e => cases hask
          | ok v =>
              cases v with
              | none => cases hask
              | some found =>
                  obtain ⟨id, row⟩ := found
                  obtain rfl : fp = fingerprint := Option.some.inj hask
                  have hexec : selectOpenApproval fp before.state.1 =
                      .ok (some (id, row), after.state.1) := (exec_of_inl (I := database) hf).1
                  obtain ⟨hrow, hfp, hopen, hsame⟩ := selectOpenApproval_eq_some hexec
                  have hiff : after.state.Surfaced fp ↔ before.state.Surfaced fp := by
                    simp only [Books.Surfaced, hsame]
                  constructor
                  · intro hsurfaced _ hgranted
                    exact hgranted.2 (hiff.1 hsurfaced)
                  · intro hheard
                    apply hiff.2
                    by_contra hnot
                    rcases hopen with hpending | happroved
                    · exact hnot ⟨id, row, hrow, hfp, hpending⟩
                    · exact hheard rfl ⟨⟨id, row, hrow, hfp, happroved⟩, hnot⟩
      | insertApproval id a =>
          cases out with
          | error e => cases hask
          | ok row =>
              obtain rfl : a.fingerprint = fingerprint := Option.some.inj hask
              have hexec : insertApproval id a before.state.1 = .ok (row, after.state.1) :=
                (exec_of_inl (I := database) hf).1
              obtain ⟨approvals, workstream, hrow, hins, hafter⟩ := insertApproval_cases hexec
              refine ⟨fun _ hlook => (by cases hlook), fun _ => ⟨id, row, ?_, ?_, ?_⟩⟩
              · change after.state.1.approvals.find? id = some row
                rw [hafter]
                exact (Table.find?_insert hins id).trans (if_pos rfl)
              · rw [hrow]
                rfl
              · rw [hrow]
                rfl
      | _ => cases hask

/-- A read that finds no open request finds none that is granted. -/
theorem asked_of_looked (hf : Fires st) {fingerprint : String}
    (hlook : looked? st = some fingerprint) :
    asked? st = some fingerprint ∨ ¬ st.before.state.Granted fingerprint := by
  obtain ⟨pid, op, out, before, after⟩ := st
  cases op with
  | inr o => cases hlook
  | inl o =>
      cases o with
      | selectOpenApproval fp =>
          cases out with
          | error e => cases hlook
          | ok v =>
              obtain rfl : fp = fingerprint := Option.some.inj hlook
              cases v with
              | some found => exact Or.inl rfl
              | none =>
                  have hexec : selectOpenApproval fp before.state.1 = .ok (none, after.state.1) :=
                    (exec_of_inl (I := database) hf).1
                  refine Or.inr ?_
                  rintro ⟨id, row, hrow, hfp, happroved⟩
                  exact (selectOpenApproval_eq_none hexec hrow hfp).2 happroved
      | _ => cases hlook

/-! ## The phase of a process -/

variable {τ : List (Step ledger P Unit)} {c' : Config ledger P Unit} {s : Books}
  {gated : P → Option Gated} {others : P → Payer Unit}

/-- What the trace shows of the phase a gated process is in. -/
def Shows (τ : List (Step ledger P Unit)) (p : P) : AskPhase → Prop
  | .quiet => True
  | .asked fingerprint => ∃ st ∈ τ, st.pid = p ∧ asked? st = some fingerprint
  | .failed => ∃ st ∈ τ, st.pid = p ∧ ∃ e, st.out = .error e

omit [DecidableEq P] in
theorem Shows.mono {τ' : List (Step ledger P Unit)} {p : P} {l : AskPhase} (h : Shows τ p l) :
    Shows (τ ++ τ') p l := by
  cases l with
  | quiet => trivial
  | asked fingerprint =>
      obtain ⟨st, hst, hask⟩ := h
      exact ⟨st, List.mem_append_left _ hst, hask⟩
  | failed =>
      obtain ⟨st, hst, hfail⟩ := h
      exact ⟨st, List.mem_append_left _ hst, hfail⟩

omit [DecidableEq P] in
theorem Shows.next {st : Step ledger P Unit} {l : AskPhase} (h : Shows τ st.pid l) :
    Shows (τ ++ [st]) st.pid (l.next st.op st.out) := by
  obtain ⟨pid, op, out, before, after⟩ := st
  cases out with
  | error e =>
      rw [next_error]
      exact ⟨_, by simp, rfl, e, rfl⟩
  | ok v =>
      by_cases hcalm : IsCalm op
      · rw [next_of_calm hcalm]
        exact h.mono
      · cases op with
        | inr o => exact absurd trivial hcalm
        | inl o =>
            cases o with
            | selectOpenApproval fp =>
                cases l with
                | quiet =>
                    cases v with
                    | none => exact trivial
                    | some found => exact ⟨_, by simp, rfl, rfl⟩
                | asked fingerprint => exact h.mono
                | failed => exact h.mono
            | insertApproval id a =>
                cases l with
                | quiet => exact ⟨_, by simp, rfl, rfl⟩
                | asked fingerprint => exact h.mono
                | failed => exact h.mono
            | _ => exact absurd trivial hcalm

/-- **A gated process that blocks as over a cap has asked for a higher one**, unless a call of it
has failed. -/
theorem asked_of_raised (h : Reach (gatedPool s gated others) τ c') {p : P} {g : Gated}
    (hg : gated p = some g) {status : BudgetStatus} (hraised : c'.pool p = .throw (.overBudget status))
    (hover : status.zone = .overCap) :
    (∃ st ∈ τ, st.pid = p ∧
        asked? st = some (budgetFingerprint g.sha256 status.workstream status.period)) ∨
      ∃ st ∈ τ, st.pid = p ∧ ∃ e, st.out = .error e := by
  let O := (askOutline (AskedBefore (α := Unit) g.sha256)).orFree
  let ls : P → Option AskPhase := fun q => if q = p then some .quiet else none
  have hholds : ∀ q, O.Holds (ls q) ((gatedPool s gated others).pool q) := by
    intro q
    by_cases hq : q = p
    · subst hq
      have hpool : (gatedPool s gated others).pool q = g.program := by simp only [gatedPool, hg]
      have hls : ls q = some .quiet := if_pos rfl
      rw [hpool, hls]
      exact Outline.holds_orFree_some g.asked_program
    · have hls : ls q = none := if_neg hq
      rw [hls]
      exact Outline.holds_orFree_none _ _
  have hshows : ∃ l, O.track ls τ p = some l ∧ Shows τ p l := by
    refine h.induct (motive := fun τ _ => ∃ l, O.track ls τ p = some l ∧ Shows τ p l) ?_ ?_
    · exact ⟨.quiet, if_pos rfl, trivial⟩
    · rintro τ₁ st - - ⟨l, hl, hshow⟩
      rw [Outline.track_concat]
      by_cases hpid : p = st.pid
      · subst hpid
        refine ⟨l.next st.op st.out, ?_, hshow.next⟩
        rw [Outline.advance_self, hl]
        rfl
      · rw [Outline.advance_ne _ _ _ hpid]
        exact ⟨l, hl, hshow.mono⟩
  obtain ⟨l, hl, hshow⟩ := hshows
  have hend := Outline.holds_reach h hholds p
  rw [hl, hraised] at hend
  have hend : l ≠ .failed → AskedBefore g.sha256 l (.error (.overBudget status) : Except Exn Unit) :=
    hend
  by_cases hfailed : l = .failed
  · subst hfailed
    exact Or.inr hshow
  · rw [hend hfailed status rfl hover] at hshow
    exact Or.inl hshow

/-- **Every block reaches the human exactly when no block reads a request that has been granted
while none waits**; every block as over a cap is one. -/
theorem surfaced_iff (h : Reach (gatedPool s gated others) τ c') :
    (∀ p g status, gated p = some g → c'.pool p = .throw (.overBudget status) →
        status.zone = .overCap →
        (∃ st ∈ τ, st.pid = p ∧
            asked? st = some (budgetFingerprint g.sha256 status.workstream status.period)) ∨
          ∃ st ∈ τ, st.pid = p ∧ ∃ e, st.out = .error e) ∧
      ((∀ st ∈ τ, ∀ fingerprint, (gated st.pid).isSome → asked? st = some fingerprint →
          st.after.state.Surfaced fingerprint) ↔
        ∀ st ∈ τ, ∀ fingerprint, (gated st.pid).isSome → looked? st = some fingerprint →
          ¬ (st.before.state.Granted fingerprint ∧ ¬ st.before.state.Surfaced fingerprint)) := by
  refine ⟨fun p g status hg hraised hover => asked_of_raised h hg hraised hover, ?_, ?_⟩
  · intro hall st hst fingerprint hgated hlook hgranted
    rcases asked_of_looked (h.fires hst) hlook with hask | hnone
    · exact (surfaced_step (h.fires hst) hask).1 (hall st hst fingerprint hgated hask) hlook hgranted
    · exact hnone hgranted.1
  · intro hheard st hst fingerprint hgated hask
    exact (surfaced_step (h.fires hst) hask).2 (hheard st hst fingerprint hgated)

end Steps

/-! ## A workstream that hits its cap again -/

/-- The rows the two blocks would draw. -/
def raiseId : Bool → Uuid
  | true => ⟨"0c8f1f5e-2f0b-4a39-9a70-3f4f0c1d2e61", by decide⟩
  | false => ⟨"0c8f1f5e-2f0b-4a39-9a70-3f4f0c1d2e62", by decide⟩

/-- A gate before a call of ten tokens. -/
def blockedGate (first : Bool) : EnforceArgs where
  workstream := "productivity"
  estTokens := 10
  sha256 := id
  approvalId := raiseId first

/-- A workstream whose cap is spent. -/
def spentOut : Books :=
  (Store.initial 0,
    { budgets := ⟨[(("productivity", .allTime),
        { budget := { capTokens := some 0 }, range := by decide, order := by decide,
          reserved_nonneg := BudgetRow.none_reserved })], List.nodup_singleton _⟩
      locks := []
      nextTx := 0
      calendar := ⟨id, id⟩ })

/-- Two gates, and the human who answers the request of the first. -/
inductive RaiseParty where
  | gate (first : Bool)
  | human
  deriving DecidableEq

/-- The gates. -/
def RaiseParty.gated : RaiseParty → Option Gated
  | gate first => some (.enforce (blockedGate first))
  | human => none

/-- The first gate blocks, the human approves, and the second gate blocks. -/
def hitAgain : Config ledger RaiseParty Unit :=
  gatedPool spentOut RaiseParty.gated fun _ =>
    (call (.resolveApproval (raiseId true) .approved "ana" "productivity")).inl.bind fun _ => .ret ()

/-- The calls of a gate that asks anew, the verdict, and those of a gate that does not. -/
def approvedOnce : List (Choice RaiseParty Exn) :=
  List.replicate 6 (.gate true, none) ++ (.human, none) :: List.replicate 5 (.gate false, none)

/-- **After a raise was approved, a further block asks nobody.** -/
theorem block_stays_silent :
    ¬ ∀ τ c', Reach hitAgain τ c' → ∀ st ∈ τ, ∀ fingerprint,
      (RaiseParty.gated st.pid).isSome → asked? st = some fingerprint →
        st.after.state.Surfaced fingerprint := by
  intro hall
  have hsilent : (hitAgain.trace approvedOnce).any (fun st =>
      st.pid = .gate false && (asked? st = some "budget|productivity|all_time" &&
        st.after.state.1.approvals.rows.all fun row => row.2.status ≠ .pending)) = true := by
    decide
  obtain ⟨st, hst, hsilent⟩ := List.any_eq_true.1 hsilent
  simp only [Bool.and_eq_true, decide_eq_true_eq, List.all_eq_true] at hsilent
  obtain ⟨hpid, hask, hnone⟩ := hsilent
  obtain ⟨id, row, hrow, -, hpending⟩ :=
    hall _ _ (Reach.of_run hitAgain approvedOnce) st hst _ (by rw [hpid]; rfl) hask
  exact hnone (id, row) ((Table.find?_eq_some_iff _ _ _).1 hrow) hpending

/-- The first block reaches the human. -/
theorem surfaced_iff_first :
    (∃ st ∈ hitAgain.trace (List.replicate 6 (.gate true, none)),
        asked? st = some "budget|productivity|all_time") ∧
      ∀ st ∈ hitAgain.trace (List.replicate 6 (.gate true, none)), ∀ fingerprint,
        (RaiseParty.gated st.pid).isSome → asked? st = some fingerprint →
          st.after.state.Surfaced fingerprint := by
  refine ⟨by decide, (surfaced_iff (Reach.of_run hitAgain _)).2.2 ?_⟩
  have hnone : (hitAgain.trace (List.replicate 6 (.gate true, none))).all (fun st =>
      st.before.state.1.approvals.rows.all fun row => row.2.status ≠ .approved) = true := by
    decide
  rintro st hst fingerprint - - ⟨⟨id, row, hrow, -, happroved⟩, -⟩
  have hrows := List.all_eq_true.1 (List.all_eq_true.1 hnone st hst) (id, row)
    ((Table.find?_eq_some_iff _ _ _).1 hrow)
  simp [happroved] at hrows

end AiStudio.Runtime
