import AiStudio.Concurrency.Runs
import AiStudio.Runtime.Calls

/-!
# Reservations of a model call

A gate that lets a call pass reserves the estimate on the capped rows of its scope, and
`call_model` gives every reservation back on its way out. Giving back lowers every row of the
scope, the uncapped ones included, on which the gate reserved nothing. So a call leaves every
row as it found it exactly if the uncapped rows have nothing to lose.

The runs here are those of a call alone on a database whose sink, and whose other tables, may
fail at every call.
-/

set_option autoImplicit false

namespace AiStudio.Runtime

open AiStudio.Data AiStudio.Concurrency
open AiStudio.Concurrency.Program (Runs)

/-! ## What the database may answer -/

/-- The database answers as it does, a call beside the budget rows may fail whatever it has done
there, and a sink may keep nothing of an event. -/
inductive Answered : Answers ledger where
  | done {o : ledger.Op} {s s' : Books} {v : ledger.Res o} (h : ledger.exec o s = .ok (v, s')) :
      Answered o s (.ok v) s'
  | failed {o : ledger.Op} {s : Books} {e : Exn} (h : ledger.exec o s = .error e) :
      Answered o s (.error e) (ledger.abort o s)
  | faulty {o : StoreOp} {s s' : Books} (e : Exn) (h : s'.2 = s.2) :
      Answered (.inl o) s (.error e) s'
  | dropped (taskId : Option Uuid) (workstream : Workstream) (payload : SinkPayload) (s : Books) :
      Answered (.inl (.emit taskId workstream payload)) s (.ok ()) s

variable {s s' : Books} {α : Type}

/-- The call is none on the budget rows. -/
def Beside (o : ledger.Op) : Prop := ∃ o', o = .inl o'

theorem accounts_of_answered {o : ledger.Op} {r : Except Exn (ledger.Res o)} (ho : Beside o)
    (h : Answered o s r s') : s'.2 = s.2 := by
  obtain ⟨o', rfl⟩ := ho
  cases h with
  | done h =>
      cases hexec : o'.exec s.1 with
      | error e =>
          have hraise : ledger.exec (.inl o') s = .error e := by
            change (o'.exec s.1).map _ = _
            rw [hexec]
            rfl
          rw [hraise] at h
          cases h
      | ok x =>
          have hcommit : ledger.exec (.inl o') s = .ok (x.1, (x.2, s.2)) := by
            change (o'.exec s.1).map _ = _
            rw [hexec]
            rfl
          rw [hcommit] at h
          obtain ⟨-, rfl⟩ := Prod.mk.inj (Except.ok.inj h)
          rfl
  | failed h => rfl
  | faulty e h => exact h
  | dropped => rfl

/-- A program beside the budget rows leaves them alone. -/
theorem accounts_of_runs {p : Payer α} {out : Except Exn α} (hp : p.Only Beside)
    (h : Runs Answered p s out s') : s'.2 = s.2 :=
  @Runs.preserves _ _ _ _ _ _ _ _ _ (fun s₁ => s₁.2 = s.2) hp
    (fun _ _ _ _ ho hanswer heq => (accounts_of_answered ho hanswer).trans heq) _ h rfl

theorem only_inl (p : Process α) : (p.inl : Payer α).Only Beside := by
  induction p with
  | ret a => exact .ret a
  | throw e => exact .throw e
  | call o k ih => exact .call ⟨o, rfl⟩ ih

theorem runs_stmt_iff {o : BudgetOp} {out : Except Exn o.Res} :
    Runs Answered (stmt o) s out s' ↔
      (∃ v, out = .ok v ∧ o.exec s = .ok (v, s')) ∨
        ∃ e, out = .error e ∧ o.exec s = .error e ∧ s' = o.abort s := by
  constructor
  · intro h
    have hanswer : Answered (.inr o) s out s' := Program.runs_op_iff.1 h
    cases hanswer with
    | done hexec => exact .inl ⟨_, rfl, hexec⟩
    | failed hexec => exact .inr ⟨_, rfl, hexec, rfl⟩
  · rintro (⟨v, rfl, h⟩ | ⟨e, rfl, h, rfl⟩)
    · exact Program.runs_op_iff (I := ledger).2 (.done h)
    · exact Program.runs_op_iff (I := ledger).2 (.failed h)

/-- Every program has a run. -/
theorem exists_runs (p : Payer α) (s : Books) : ∃ out s', Runs Answered p s out s' :=
  ⟨_, _, Program.runs_eval (fun _ _ _ _ h => .done h) (fun _ _ _ h => .failed h) p s⟩

/-! ## Accrued spend while a gate speaks -/

/-- Time stands still, and no `model.call` is recorded. -/
def Quiet (s s' : Store) : Prop :=
  s'.now = s.now ∧ ∃ added, s'.events = s.events ++ added ∧ ∀ e ∈ added, e.modelCall? = none

theorem Quiet.refl (s : Store) : Quiet s s := ⟨rfl, [], (List.append_nil _).symm, List.forall_mem_nil _⟩

theorem Quiet.trans {s s₁ s₂ : Store} (h₁ : Quiet s s₁) (h₂ : Quiet s₁ s₂) : Quiet s s₂ := by
  obtain ⟨hnow₁, added₁, hevents₁, hquiet₁⟩ := h₁
  obtain ⟨hnow₂, added₂, hevents₂, hquiet₂⟩ := h₂
  refine ⟨hnow₂.trans hnow₁, added₁ ++ added₂, ?_, ?_⟩
  · rw [hevents₂, hevents₁, List.append_assoc]
  · intro e he
    rcases List.mem_append.1 he with he | he
    · exact hquiet₁ e he
    · exact hquiet₂ e he

theorem spentInTx_of_quiet {s s' : Store} (h : Quiet s s') (calendar : Calendar)
    (workstream : Option String) (period : Period) :
    spentInTx calendar s' workstream period = spentInTx calendar s workstream period := by
  obtain ⟨hnow, added, hevents, hquiet⟩ := h
  have hcalls : countedCalls calendar s' workstream period =
      countedCalls calendar s workstream period := by
    rw [countedCalls, countedCalls, hevents, hnow, List.filter_append, List.filterMap_append]
    have hnone : ∀ e ∈ added.filter fun e => workstream.all (e.workstream.name = ·) &&
        calendar.inWindow period s.now e.ts, e.modelCall? = none :=
      fun e he => hquiet e (List.mem_of_mem_filter he)
    rw [List.filterMap_eq_nil_iff.2 hnone, List.append_nil]
  rw [spentInTx, spentInTx, hcalls]

/-- The payload records no `model.call`. -/
def SinkPayload.NoCall (payload : SinkPayload) : Prop := ∀ notice, payload ≠ .modelCall notice

theorem quiet_of_emitEvent {name : String} {taskId : Option Uuid} {payload : SinkPayload}
    {u : Unit} (hpayload : payload.NoCall)
    (h : Runs Answered ((emitEvent name taskId payload).inl : Payer Unit) s (.ok u) s') :
    Quiet s.1 s'.1 := by
  unfold emitEvent at h
  cases hname : requireWorkstream name with
  | error e =>
      rw [hname] at h
      cases (Program.runs_throw_iff.1 h).1
  | ok workstream =>
      rw [hname] at h
      have hanswer : Answered (.inl (.emit taskId workstream payload)) s (.ok u) s' :=
        Program.runs_inl_op_iff.1 h
      cases hanswer with
      | done hexec =>
          have hcommit : ledger.exec (.inl (.emit taskId workstream payload)) s =
              .ok ((), (s.1.appendEvent taskId workstream (.sink payload), s.2)) := rfl
          rw [hcommit] at hexec
          obtain ⟨-, rfl⟩ := Prod.mk.inj (Except.ok.inj hexec)
          refine ⟨rfl, _, rfl, fun e he => ?_⟩
          rw [List.mem_singleton.1 he]
          cases payload with
          | modelCall notice => exact absurd rfl (hpayload notice)
          | _ => rfl
      | dropped => exact Quiet.refl _

/-- A sink that keeps nothing. -/
theorem runs_emitEvent_dropped {name : String} (hname : name ≠ "") (taskId : Option Uuid)
    (payload : SinkPayload) (s : Books) :
    Runs Answered ((emitEvent name taskId payload).inl : Payer Unit) s (.ok ()) s := by
  unfold emitEvent requireWorkstream
  rw [dif_neg hname]
  exact Program.runs_inl_op_iff.2 (.dropped taskId ⟨name, hname⟩ payload s)

/-! ## What a gate does to a row -/

/-- The rows of a budget table. -/
abbrev BudgetRows := Table BudgetKey BudgetRow

namespace EnforceArgs

variable (a : EnforceArgs)

/-- The scope of the call. -/
abbrev scope : List String := gatedScope a.workstream

/-- A row after the reservation. -/
def reserveRow (k : BudgetKey) (row : BudgetRow) : BudgetRow :=
  (Accounts.raised a.scope a.estUsd a.estTokens k row).getD row

/-- A row after the release. -/
def giveBackRow (k : BudgetKey) (row : BudgetRow) : BudgetRow :=
  if a.scope.contains k.1 then row.sub a.estUsd a.estTokens else row

/-- The table after the reservation. -/
def reserve (t : BudgetRows) : BudgetRows := t.mapRows a.reserveRow

/-- The table after the release. -/
def giveBack (t : BudgetRows) : BudgetRows := t.mapRows a.giveBackRow

theorem find?_reserve (t : BudgetRows) (k : BudgetKey) :
    (a.reserve t).find? k = (t.find? k).map (a.reserveRow k) := Table.find?_mapRows _ _ _

theorem find?_giveBack (t : BudgetRows) (k : BudgetKey) :
    (a.giveBack t).find? k = (t.find? k).map (a.giveBackRow k) := Table.find?_mapRows _ _ _

/-- The statuses of some rows, in their order. -/
def statuses (s : Books) (rows : List (BudgetKey × BudgetRow)) : List BudgetStatus :=
  rows.filterMap fun x =>
    if x.2.budget.capped then
      some (a.status x.1 x.2 (spentInTx s.2.calendar s.1
        (if x.1.1 = orgWorkstream then none else some x.1.1) x.1.2))
    else none

/-- The statuses the gate reads. -/
def gateEntries (s : Books) : List BudgetStatus := a.statuses s (s.2.rowsOf a.scope)

/-- The verdict of the gate: the purpose is one, no cap is over, and none withholds the call. -/
def admits (s : Books) : Bool :=
  decide (a.purpose ∈ validPurposes) && ((over? (a.gateEntries s)).isNone &&
    (a.withheld? (a.gateEntries s)).isNone)

variable {a}

theorem admits_iff : a.admits s = true ↔ a.purpose ∈ validPurposes ∧
    over? (a.gateEntries s) = none ∧ a.withheld? (a.gateEntries s) = none := by
  simp [admits]

/-- The verdict reads the rows, the calendar and the accrued spend. -/
theorem admits_congr (hrows : s'.2.budgets = s.2.budgets) (hcalendar : s'.2.calendar = s.2.calendar)
    (hquiet : Quiet s.1 s'.1) : a.admits s' = a.admits s := by
  have hspent : ∀ workstream period, spentInTx s'.2.calendar s'.1 workstream period =
      spentInTx s.2.calendar s.1 workstream period := by
    intro workstream period
    rw [hcalendar]
    exact spentInTx_of_quiet hquiet _ _ _
  have hentries : a.gateEntries s' = a.gateEntries s := by
    simp only [gateEntries, statuses, Accounts.rowsOf, hrows, hspent]
  rw [admits, admits, hentries]

/-- The gate reads the statuses of the rows it has locked. -/
theorem runs_entries_iff {tx : Nat} {rows : List (BudgetKey × BudgetRow)}
    {out : Except Exn (List BudgetStatus)} :
    Runs Answered (a.entries tx rows) s out s' ↔ out = .ok (a.statuses s rows) ∧ s' = s := by
  induction rows generalizing out s' with
  | nil => exact Program.runs_ret_iff
  | cons x rows ih =>
      obtain ⟨k, row⟩ := x
      cases hcapped : row.budget.capped with
      | false =>
          have hentries : a.entries tx ((k, row) :: rows) = a.entries tx rows := by
            rw [entries, if_neg (by rw [hcapped]; exact Bool.false_ne_true)]
          have hstatuses : a.statuses s ((k, row) :: rows) = a.statuses s rows := by
            simp [statuses, hcapped]
          rw [hentries, hstatuses]
          exact ih
      | true =>
          have hstatuses : a.statuses s ((k, row) :: rows) =
              a.status k row (spentInTx s.2.calendar s.1
                (if k.1 = orgWorkstream then none else some k.1) k.2) :: a.statuses s rows := by
            simp [statuses, hcapped]
          rw [entries, if_pos hcapped, hstatuses, Program.runs_bind_iff]
          constructor
          · rintro (⟨spend, s₁, hspend, hrest⟩ | ⟨e, -, hspend⟩)
            · rcases runs_stmt_iff.1 hspend with ⟨v, hv, hexec⟩ | ⟨e, he, -⟩
              · obtain ⟨rfl, rfl⟩ := Prod.mk.inj (Except.ok.inj hexec)
                obtain rfl := Except.ok.inj hv
                rcases Program.runs_bind_iff.1 hrest with ⟨rest, s₂, htail, hret⟩ | ⟨e, -, htail⟩
                · obtain ⟨hread, rfl⟩ := ih.1 htail
                  obtain ⟨rfl, rfl⟩ := Program.runs_ret_iff.1 hret
                  rw [Except.ok.inj hread]
                  exact ⟨rfl, rfl⟩
                · cases (ih.1 htail).1
              · cases he
            · rcases runs_stmt_iff.1 hspend with ⟨v, hv, -⟩ | ⟨e', -, hexec, -⟩
              · cases hv
              · cases hexec
          · rintro ⟨rfl, rfl⟩
            refine .inl ⟨_, s', runs_stmt_iff.2 (.inl ⟨_, rfl, rfl⟩), ?_⟩
            exact Program.runs_bind_iff.2 (.inl ⟨_, s', ih.2 ⟨rfl, rfl⟩, .ret _ _⟩)

/-! ### The zone events -/

theorem only_emitEvent (taskId : Option Uuid) (payload : SinkPayload) (name : String) :
    ((emitEvent name taskId payload).inl : Payer Unit).Only Beside := only_inl _

theorem only_announce (entries : List BudgetStatus) : (a.announce entries).Only Beside := by
  induction entries with
  | nil => exact .ret ()
  | cons st entries ih =>
      rw [announce]
      cases st.zoneEvent a.purpose with
      | error e => exact .throw e
      | ok payload => exact (only_emitEvent _ _ _).bind fun _ => ih

theorem noCall_of_zoneEvent {st : BudgetStatus} {purpose : String} {payload : SinkPayload}
    (h : st.zoneEvent purpose = .ok payload) : payload.NoCall := by
  intro notice hcall
  subst hcall
  unfold BudgetStatus.zoneEvent at h
  cases hzone : st.zone with
  | overCap =>
      rw [hzone] at h
      cases h
  | _ =>
      rw [hzone] at h
      cases Except.ok.inj h

theorem quiet_of_announce {entries : List BudgetStatus} {u : Unit}
    (h : Runs Answered (a.announce entries) s (.ok u) s') : Quiet s.1 s'.1 := by
  induction entries generalizing s with
  | nil =>
      obtain ⟨-, rfl⟩ := Program.runs_ret_iff.1 h
      exact Quiet.refl _
  | cons st entries ih =>
      rw [announce] at h
      cases hzone : st.zoneEvent a.purpose with
      | error e =>
          rw [hzone] at h
          cases (Program.runs_throw_iff.1 h).1
      | ok payload =>
          rw [hzone] at h
          rcases Program.runs_bind_iff.1 h with ⟨u', s₁, hemit, hrest⟩ | ⟨e, he, -⟩
          · exact (quiet_of_emitEvent (noCall_of_zoneEvent hzone) hemit).trans (ih hrest)
          · cases he

/-- A sink that keeps nothing lets every call speak that is over no cap. -/
theorem runs_announce_dropped (hworkstream : a.workstream ≠ "") {entries : List BudgetStatus}
    (hover : ∀ st ∈ entries, st.zone ≠ .overCap) (s : Books) :
    Runs Answered (a.announce entries) s (.ok ()) s := by
  induction entries with
  | nil => exact .ret () s
  | cons st entries ih =>
      rw [List.forall_mem_cons] at hover
      obtain ⟨payload, hpayload⟩ : ∃ payload, st.zoneEvent a.purpose = .ok payload := by
        unfold BudgetStatus.zoneEvent
        cases hzone : st.zone with
        | overCap => exact absurd hzone hover.1
        | _ => exact ⟨_, rfl⟩
      rw [announce, hpayload]
      exact Program.runs_bind_iff.2
        (.inl ⟨(), s, runs_emitEvent_dropped hworkstream _ _ s, ih hover.2⟩)

/-! ### The release -/

theorem sub_zero_zero (row : BudgetRow) : row.sub 0 0 = row := by
  obtain ⟨budget, reservedUsd, reservedTokens, range, order, hnonneg⟩ := row
  simp only [BudgetRow.sub, sub_zero, BudgetRow.mk.injEq, true_and]
  exact ⟨max_eq_left hnonneg.1, max_eq_left hnonneg.2⟩

theorem add_zero_zero (row : BudgetRow) : row.add 0 0 = some row := by
  obtain ⟨budget, reservedUsd, reservedTokens, range, order, hnonneg⟩ := row
  simp [BudgetRow.add, hnonneg.1, hnonneg.2]

/-- A release always succeeds. -/
theorem runs_releaseReservation {out : Except Exn Unit}
    (h : Runs Answered (releaseReservation a.workstream a.estUsd a.estTokens) s out s') :
    out = .ok () ∧ s'.2.budgets = a.giveBack s.2.budgets := by
  rcases Program.runs_ite_iff.1 h with ⟨hzero, h⟩ | ⟨hzero, h⟩
  · obtain ⟨rfl, rfl⟩ := Program.runs_ret_iff.1 h
    refine ⟨rfl, (Table.mapRows_eq_self fun kr _ => ?_).symm⟩
    rw [giveBackRow, hzero.1, hzero.2, sub_zero_zero, ite_self]
  · rcases runs_stmt_iff.1 h with ⟨v, hv, hexec⟩ | ⟨e, -, hexec, -⟩
    · obtain ⟨-, rfl⟩ := Prod.mk.inj (Except.ok.inj hexec)
      exact ⟨hv, rfl⟩
    · cases hexec

/-! ### The gate -/

theorem reserveRow_of_not_gated {k : BudgetKey} {row : BudgetRow}
    (h : ¬ (a.scope.contains k.1 = true ∧ row.budget.capped = true)) :
    a.reserveRow k row = row := by
  rw [reserveRow, Accounts.raised, if_neg (by rwa [Bool.and_eq_true])]
  rfl

theorem reserveRow_of_gated {k : BudgetKey} {row : BudgetRow}
    (h : a.scope.contains k.1 = true ∧ row.budget.capped = true) :
    a.reserveRow k row = (row.add a.estUsd a.estTokens).getD row := by
  rw [reserveRow, Accounts.raised, if_pos (by rwa [Bool.and_eq_true])]

/-- Where the gate reads no status it has no row to reserve on. -/
theorem not_gated_of_gateEntries_nil (h : a.gateEntries s = []) {kr : BudgetKey × BudgetRow}
    (hkr : kr ∈ s.2.budgets.rows) :
    ¬ (a.scope.contains kr.1.1 = true ∧ kr.2.budget.capped = true) := by
  intro hgated
  have hrow : kr ∈ s.2.rowsOf a.scope :=
    (List.perm_insertionSort _ _).mem_iff.2 (List.mem_filter.2 ⟨hkr, hgated.1⟩)
  have hnone := List.filterMap_eq_nil_iff.1 h kr hrow
  rw [if_pos hgated.2] at hnone
  cases hnone

theorem reserve_of_gateEntries_nil (h : a.gateEntries s = []) :
    a.reserve s.2.budgets = s.2.budgets :=
  Table.mapRows_eq_self fun _ hkr => reserveRow_of_not_gated (not_gated_of_gateEntries_nil h hkr)

/-- A zero estimate reserves nothing. -/
theorem reserve_of_zero (h : a.estUsd = 0 ∧ a.estTokens = 0) (t : BudgetRows) :
    a.reserve t = t := by
  refine Table.mapRows_eq_self fun kr _ => ?_
  by_cases hgated : a.scope.contains kr.1.1 = true ∧ kr.2.budget.capped = true
  · rw [reserveRow_of_gated hgated, h.1, h.2, add_zero_zero]
    rfl
  · exact reserveRow_of_not_gated hgated

variable (a)

/-- The estimate can be added to every row it is reserved on. -/
def Adds (s : Books) : Prop :=
  ∀ k row, s.2.budgets.find? k = some row → a.scope.contains k.1 = true →
    row.budget.capped = true → ∃ row', row.add a.estUsd a.estTokens = some row'

/-- The gate has let the call pass: the estimate is reserved. -/
structure Passed (s s' : Books) : Prop where
  adds : a.Adds s
  budgets : s'.2.budgets = a.reserve s.2.budgets
  calendar : s'.2.calendar = s.2.calendar
  quiet : Quiet s.1 s'.1

variable {a}

/-- The end of an allowed call: every event is out, or the reservation is given back. -/
theorem runs_allow {didReserve : Bool} {entries : List BudgetStatus}
    {out : Except Exn (List BudgetStatus)}
    (h : Runs Answered (a.allow didReserve entries) s out s') :
    (∃ v, out = .ok v) ∧ s'.2 = s.2 ∧ Quiet s.1 s'.1 ∨
      (∃ e, out = .error e) ∧
        s'.2.budgets = if didReserve then a.giveBack s.2.budgets else s.2.budgets := by
  rcases Program.runs_bind_iff.1 h with ⟨u, s₁, hspoken, hret⟩ | ⟨e, he, hspoken⟩
  · obtain ⟨rfl, rfl⟩ := Program.runs_ret_iff.1 hret
    rcases Program.runs_tryCatch_iff.1 hspoken with ⟨u', -, hannounce⟩ | ⟨e, s₂, -, hundo⟩
    · exact .inl ⟨⟨entries, rfl⟩, accounts_of_runs (only_announce _) hannounce,
        quiet_of_announce hannounce⟩
    · obtain ⟨e', he'⟩ := Program.runs_bind_raises (fun _ _ _ _ => Program.runs_throw_raises) hundo
      cases he'
  · refine .inr ⟨⟨e, he⟩, ?_⟩
    rcases Program.runs_tryCatch_iff.1 hspoken with ⟨u', hok, -⟩ | ⟨e', s₂, hannounce, hundo⟩
    · cases hok
    · have hsame := accounts_of_runs (only_announce _) hannounce
      rcases Program.runs_bind_iff.1 hundo with ⟨u', s₃, hback, hthrow⟩ | ⟨e'', -, hback⟩
      · obtain ⟨-, rfl⟩ := Program.runs_throw_iff.1 hthrow
        cases didReserve with
        | true => rw [(runs_releaseReservation hback).2, hsame, if_pos rfl]
        | false =>
            obtain ⟨-, rfl⟩ := Program.runs_ret_iff.1 hback
            rw [hsame, if_neg Bool.false_ne_true]
      · cases didReserve with
        | true => cases (runs_releaseReservation hback).1
        | false => cases (Program.runs_ret_iff.1 hback).1

theorem runs_commit {tx : Nat} {out : Except Exn Unit}
    (h : Runs Answered (stmt (.commit tx)) s out s') : s' = (s.1, s.2.unlock tx) := by
  rcases runs_stmt_iff.1 h with ⟨v, -, hexec⟩ | ⟨e, -, hexec, -⟩
  · exact (Prod.mk.inj (Except.ok.inj hexec)).2.symm
  · cases hexec

/-- A refused call raises, and leaves the rows alone. -/
theorem runs_refused {tx : Nat} {p : Payer (List BudgetStatus)} (hp : p.Only Beside)
    (hraises : ∀ s out s', Runs Answered p s out s' → ∃ e, out = .error e)
    {out : Except Exn (List BudgetStatus)}
    (h : Runs Answered ((stmt (.commit tx)).bind fun _ => p) s out s') :
    (∃ e, out = .error e) ∧ s'.2.budgets = s.2.budgets := by
  refine ⟨Program.runs_bind_raises (fun _ => hraises) h, ?_⟩
  rcases Program.runs_bind_iff.1 h with ⟨u, s₁, hcommit, hrest⟩ | ⟨e, -, hcommit⟩
  · rw [accounts_of_runs hp hrest, runs_commit hcommit]
    rfl
  · rw [runs_commit hcommit]
    rfl

theorem only_blockOver (st : BudgetStatus) : (a.blockOver st).Only Beside :=
  (only_inl _).bind fun _ => (only_inl _).bind fun _ => .throw _

theorem only_withhold (st : BudgetStatus) : (a.withhold st).Only Beside :=
  (only_inl _).bind fun _ => .throw _

theorem blockOver_raises {st : BudgetStatus} {out : Except Exn (List BudgetStatus)}
    (h : Runs Answered (a.blockOver st) s out s') : ∃ e, out = .error e :=
  Program.runs_bind_raises (fun _ _ _ _ => Program.runs_bind_raises
    fun _ _ _ _ => Program.runs_throw_raises) h

theorem withhold_raises {st : BudgetStatus} {out : Except Exn (List BudgetStatus)}
    (h : Runs Answered (a.withhold st) s out s') : ∃ e, out = .error e :=
  Program.runs_bind_raises (fun _ _ _ _ => Program.runs_throw_raises) h

variable (a)

/-- How a gate ends: it passes and has reserved, or it raises and has not, or no more. -/
def Gated (s : Books) (out : Except Exn (List BudgetStatus)) (s' : Books) : Prop :=
  (∃ v, out = .ok v) ∧ a.admits s = true ∧ a.Passed s s' ∨
    (∃ e, out = .error e) ∧ (s'.2.budgets = s.2.budgets ∨
      a.admits s = true ∧ a.Adds s ∧ s'.2.budgets = a.giveBack (a.reserve s.2.budgets))

variable {a}

/-- What a gate reads it reads also before a quiet step. -/
theorem Gated.congr {s₁ : Books} {out : Except Exn (List BudgetStatus)} (h : a.Gated s₁ out s')
    (hbudgets : s₁.2.budgets = s.2.budgets) (hcalendar : s₁.2.calendar = s.2.calendar)
    (hquiet : Quiet s.1 s₁.1) : a.Gated s out s' := by
  have hadmits : a.admits s₁ = a.admits s := admits_congr hbudgets hcalendar hquiet
  rcases h with ⟨hok, hpass, hpassed⟩ | ⟨hraised, hkept⟩
  · refine .inl ⟨hok, hadmits ▸ hpass, ⟨?_, ?_, ?_, ?_⟩⟩
    · exact fun k row hrow => hpassed.adds k row (hbudgets ▸ hrow)
    · rw [hpassed.budgets, hbudgets]
    · rw [hpassed.calendar, hcalendar]
    · exact hquiet.trans hpassed.quiet
  · rw [hadmits, Adds, hbudgets] at hkept
    exact .inr ⟨hraised, hkept⟩

theorem execReserve_ok {tx : Nat} {keys : List BudgetKey}
    (h : BudgetOp.exec (.reserve tx (gatedScope a.workstream) a.estUsd a.estTokens) s =
      .ok (keys, s')) :
    a.Adds s ∧ s' = (s.1, (s.2.raise a.scope a.estUsd a.estTokens).unlock tx) := by
  change BudgetOp.execReserve tx a.scope a.estUsd a.estTokens s = _ at h
  unfold BudgetOp.execReserve at h
  split at h
  · cases h
  · rename_i hfits
    refine ⟨fun k row hrow hscope hcapped => ?_, (Prod.mk.inj (Except.ok.inj h)).2.symm⟩
    have hmem := (Table.find?_eq_some_iff _ k row).1 hrow
    rw [Bool.not_eq_true, List.any_eq_false] at hfits
    have hsome := hfits (k, row) hmem
    rw [Accounts.raised, if_pos (by rw [hscope, hcapped]; rfl)] at hsome
    cases hadd : row.add a.estUsd a.estTokens with
    | none => simp [hadd] at hsome
    | some row' => exact ⟨row', rfl⟩

/-- The gate's verdict on the entries it has read. -/
theorem runs_settle {tx : Nat} {out : Except Exn (List BudgetStatus)}
    (hpurpose : a.purpose ∈ validPurposes)
    (h : Runs Answered (a.settle tx (a.gateEntries s)) s out s') : a.Gated s out s' := by
  unfold settle at h
  cases hover : over? (a.gateEntries s) with
  | some st =>
      rw [hover] at h
      obtain ⟨hraised, hsame⟩ := runs_refused (only_blockOver st) (fun _ _ _ => blockOver_raises) h
      exact .inr ⟨hraised, .inl hsame⟩
  | none =>
      cases hwithheld : a.withheld? (a.gateEntries s) with
      | some st =>
          rw [hover, hwithheld] at h
          obtain ⟨hraised, hsame⟩ :=
            runs_refused (only_withhold st) (fun _ _ _ => withhold_raises) h
          exact .inr ⟨hraised, .inl hsame⟩
      | none =>
          have hadmits : a.admits s = true := admits_iff.2 ⟨hpurpose, hover, hwithheld⟩
          rw [hover, hwithheld] at h
          rcases Program.runs_ite_iff.1 h with ⟨hempty, h⟩ | ⟨-, h⟩
          · -- nothing to reserve on
            have hkeep := reserve_of_gateEntries_nil (List.isEmpty_iff.1 hempty)
            have hadds : a.Adds s := fun k row hrow hscope hcapped =>
              absurd ⟨hscope, hcapped⟩ (not_gated_of_gateEntries_nil (List.isEmpty_iff.1 hempty)
                (Table.find?_eq_some_iff _ k row |>.1 hrow))
            rcases Program.runs_bind_iff.1 h with ⟨u, s₁, hcommit, hret⟩ | ⟨e, -, hcommit⟩
            · obtain rfl := runs_commit hcommit
              obtain ⟨rfl, rfl⟩ := Program.runs_ret_iff.1 hret
              exact .inl ⟨⟨[], rfl⟩, hadmits, ⟨hadds, hkeep.symm, rfl, Quiet.refl _⟩⟩
            · rcases runs_stmt_iff.1 hcommit with ⟨v, hv, -⟩ | ⟨e', -, hexec, -⟩
              · cases hv
              · cases hexec
          · rcases Program.runs_ite_iff.1 h with ⟨hzero, h⟩ | ⟨-, h⟩
            · -- nothing to reserve
              have hkeep := reserve_of_zero hzero s.2.budgets
              have hadds : a.Adds s := fun _ row _ _ _ =>
                ⟨row, by rw [hzero.1, hzero.2, add_zero_zero]⟩
              rcases Program.runs_bind_iff.1 h with ⟨u, s₁, hcommit, hallow⟩ | ⟨e, he, hcommit⟩
              · obtain rfl := runs_commit hcommit
                rcases runs_allow hallow with ⟨hok, haccounts, hquiet⟩ | ⟨hraised, hsame⟩
                · refine .inl ⟨hok, hadmits, ⟨hadds, ?_, ?_, hquiet⟩⟩
                  · rw [haccounts, hkeep]
                    rfl
                  · rw [haccounts]
                    rfl
                · exact .inr ⟨hraised, .inl hsame⟩
              · rw [runs_commit hcommit]
                exact .inr ⟨⟨e, he⟩, .inl rfl⟩
            · rcases Program.runs_bind_iff.1 h with ⟨keys, s₁, hreserve, hallow⟩ | ⟨e, he, hreserve⟩
              · -- the reservation is committed
                rcases runs_stmt_iff.1 hreserve with ⟨v, -, hexec⟩ | ⟨e, he, -⟩
                · obtain ⟨hadds, rfl⟩ := execReserve_ok hexec
                  rcases runs_allow hallow with ⟨hok, haccounts, hquiet⟩ | ⟨hraised, hback⟩
                  · refine .inl ⟨hok, hadmits, ⟨hadds, ?_, ?_, hquiet⟩⟩
                    · rw [haccounts]
                      rfl
                    · rw [haccounts]
                      rfl
                  · exact .inr ⟨hraised, .inr ⟨hadmits, hadds, hback⟩⟩
                · cases he
              · rcases runs_stmt_iff.1 hreserve with ⟨v, hv, -⟩ | ⟨e', -, -, hs'⟩
                · cases hv
                · rw [hs']
                  exact .inr ⟨⟨e, he⟩, .inl rfl⟩

/-- **What a gate does.** -/
theorem runs_enforce {out : Except Exn (List BudgetStatus)}
    (h : Runs Answered a.enforce s out s') : a.Gated s out s' := by
  rcases Program.runs_ite_iff.1 h with ⟨-, h⟩ | ⟨hpurpose, h⟩
  · obtain ⟨rfl, rfl⟩ := Program.runs_throw_iff.1 h
    exact .inr ⟨⟨_, rfl⟩, .inl rfl⟩
  · rw [not_not] at hpurpose
    rcases Program.runs_bind_iff.1 h with ⟨locked, s₁, hlock, hrest⟩ | ⟨e, -, hlock⟩
    · rcases runs_stmt_iff.1 hlock with ⟨v, hv, hexec⟩ | ⟨e, he, -⟩
      · obtain rfl := Except.ok.inj hv
        obtain ⟨rfl, rfl⟩ := Prod.mk.inj (Except.ok.inj hexec)
        rcases Program.runs_bind_iff.1 hrest with ⟨entries, s₂, hread, hsettle⟩ | ⟨e, -, hread⟩
        · obtain ⟨hentries, rfl⟩ := runs_entries_iff.1 hread
          rw [Except.ok.inj hentries] at hsettle
          have hgated := runs_settle hpurpose hsettle
          exact hgated.congr rfl rfl (Quiet.refl _)
        · cases (runs_entries_iff.1 hread).1
      · cases he
    · rcases runs_stmt_iff.1 hlock with ⟨v, hv, -⟩ | ⟨e', -, hexec, -⟩
      · cases hv
      · cases hexec

/-- An estimate that is not negative can be added to every row. -/
theorem add_isSome (husd : 0 ≤ a.estUsd) (htokens : 0 ≤ a.estTokens) (row : BudgetRow) :
    ∃ row', row.add a.estUsd a.estTokens = some row' := by
  have hsum : 0 ≤ row.reservedUsd + a.estUsd ∧ 0 ≤ row.reservedTokens + a.estTokens :=
    ⟨add_nonneg row.reserved_nonneg.1 husd, add_nonneg row.reserved_nonneg.2 htokens⟩
  exact ⟨_, dif_pos hsum⟩

/-- The reservation of a call whose estimate is not negative succeeds. -/
theorem runs_reserve (husd : 0 ≤ a.estUsd) (htokens : 0 ≤ a.estTokens) (tx : Nat) (s : Books) :
    ∃ keys, Runs Answered (stmt (.reserve tx a.scope a.estUsd a.estTokens)) s (.ok keys)
      (s.1, (s.2.raise a.scope a.estUsd a.estTokens).unlock tx) := by
  refine ⟨(s.2.cappedOf a.scope).map Prod.fst, runs_stmt_iff.2 (.inl ⟨_, rfl, if_neg ?_⟩)⟩
  rw [Bool.not_eq_true, List.any_eq_false]
  intro row _
  obtain ⟨row', hrow'⟩ := add_isSome husd htokens row.2
  unfold Accounts.raised
  split <;> simp [hrow']

theorem not_over_of_over?_eq_none {entries : List BudgetStatus} (h : over? entries = none) :
    ∀ st ∈ ordered entries, st.zone ≠ .overCap := by
  intro st hst hzone
  have := List.find?_eq_none.1 h st hst
  simp [hzone] at this

/-- **A call that the gate admits passes** where the sink does not fail. -/
theorem exists_runs_enforce (hadmits : a.admits s = true) (hworkstream : a.workstream ≠ "")
    (husd : 0 ≤ a.estUsd) (htokens : 0 ≤ a.estTokens) :
    ∃ v s₁, Runs Answered a.enforce s (.ok v) s₁ ∧ s₁.1 = s.1 := by
  obtain ⟨hpurpose, hover, hwithheld⟩ := admits_iff.1 hadmits
  obtain ⟨locked, hlocked⟩ : ∃ locked : Books, Runs Answered (stmt (.lockRows a.scope)) s
      (.ok (s.2.nextTx, s.2.rowsOf a.scope)) locked ∧ locked.1 = s.1 ∧
        a.gateEntries s = a.statuses locked (s.2.rowsOf a.scope) :=
    ⟨_, runs_stmt_iff.2 (.inl ⟨_, rfl, rfl⟩), rfl, rfl⟩
  obtain ⟨hlock, hstore, hentries⟩ := hlocked
  have hspoken : ∀ s₁ : Books, Runs Answered (a.announce (ordered (a.gateEntries s))) s₁ (.ok ()) s₁ :=
    runs_announce_dropped hworkstream (not_over_of_over?_eq_none hover)
  have hallow : ∀ (didReserve : Bool) (s₁ : Books), Runs Answered
      (a.allow didReserve (a.gateEntries s)) s₁ (.ok (a.gateEntries s)) s₁ := by
    intro didReserve s₁
    exact Program.runs_bind_iff.2 (.inl ⟨(), s₁,
      Program.runs_tryCatch_iff.2 (.inl ⟨(), rfl, hspoken s₁⟩), .ret _ _⟩)
  have hcommit : Runs Answered (stmt (.commit s.2.nextTx)) locked (.ok ())
      (locked.1, locked.2.unlock s.2.nextTx) :=
    runs_stmt_iff.2 (.inl ⟨(), rfl, rfl⟩)
  have hsettle : ∃ v s₁, Runs Answered (a.settle s.2.nextTx (a.gateEntries s)) locked (.ok v) s₁ ∧
      s₁.1 = locked.1 := by
    unfold settle
    rw [hover, hwithheld]
    by_cases hempty : (a.gateEntries s).isEmpty = true
    · exact ⟨[], _, Program.runs_ite_iff.2 (.inl ⟨hempty,
        Program.runs_bind_iff.2 (.inl ⟨(), _, hcommit, .ret _ _⟩)⟩), rfl⟩
    · by_cases hzero : a.estUsd = 0 ∧ a.estTokens = 0
      · exact ⟨_, _, Program.runs_ite_iff.2 (.inr ⟨hempty, Program.runs_ite_iff.2 (.inl ⟨hzero,
          Program.runs_bind_iff.2 (.inl ⟨(), _, hcommit, hallow false _⟩)⟩)⟩), rfl⟩
      · obtain ⟨keys, hreserve⟩ := runs_reserve husd htokens s.2.nextTx locked
        exact ⟨_, _, Program.runs_ite_iff.2 (.inr ⟨hempty, Program.runs_ite_iff.2 (.inr ⟨hzero,
          Program.runs_bind_iff.2 (.inl ⟨keys, _, hreserve, hallow true _⟩)⟩)⟩), rfl⟩
  obtain ⟨v, s₁, hrest, hkept⟩ := hsettle
  refine ⟨v, s₁, ?_, hkept.trans hstore⟩
  refine Program.runs_ite_iff.2 (.inr ⟨not_not.2 hpurpose, ?_⟩)
  exact Program.runs_bind_iff.2 (.inl ⟨_, locked, hlock,
    Program.runs_bind_iff.2 (.inl ⟨_, locked, runs_entries_iff.2 ⟨rfl, rfl⟩, hentries ▸ hrest⟩)⟩)

/-! ### Reserving and giving back -/

theorem reserveRow_of_add {k : BudgetKey} {row row' : BudgetRow} (hscope : a.scope.contains k.1 = true)
    (hcapped : row.budget.capped = true) (hadd : row.add a.estUsd a.estTokens = some row') :
    a.reserveRow k row = row' := by
  rw [reserveRow_of_gated ⟨hscope, hcapped⟩, hadd]
  rfl

/-- What was added can be taken off again. -/
theorem sub_add {row row' : BudgetRow} {estUsd : ℚ} {estTokens : Int}
    (h : row.add estUsd estTokens = some row') : row'.sub estUsd estTokens = row := by
  obtain ⟨budget, reservedUsd, reservedTokens, range, order, hnonneg⟩ := row
  unfold BudgetRow.add at h
  split at h
  · rw [← Option.some.inj h]
    simp only [BudgetRow.sub, add_sub_cancel_right, BudgetRow.mk.injEq, true_and]
    exact ⟨max_eq_left hnonneg.1, max_eq_left hnonneg.2⟩
  · cases h

theorem budget_reserveRow (k : BudgetKey) (row : BudgetRow) :
    (a.reserveRow k row).budget = row.budget := by
  by_cases hgated : a.scope.contains k.1 = true ∧ row.budget.capped = true
  · rw [reserveRow_of_gated hgated, BudgetRow.add]
    split <;> rfl
  · rw [reserveRow_of_not_gated hgated]

variable (a)

/-- A release by this estimate takes nothing off the row that this call has not put there: the
row is capped, or it carries no reservation of a kind that the estimate has. -/
def SparesRow (k : BudgetKey) (row : BudgetRow) : Prop :=
  a.scope.contains k.1 = true → row.budget.capped = false →
    (row.reservedUsd = 0 ∨ a.estUsd = 0) ∧ (row.reservedTokens = 0 ∨ a.estTokens = 0)

/-- The release spares the uncapped rows of the scope. -/
def Spares (t : BudgetRows) : Prop := ∀ k row, t.find? k = some row → a.SparesRow k row

variable {a}

theorem floor_sub_eq {α : Type} [AddCommGroup α] [LinearOrder α] [IsOrderedAddMonoid α] {r x : α}
    (hr : 0 ≤ r) (hx : 0 ≤ x) (h : r = 0 ∨ x = 0) : max (r - x) 0 = r := by
  rcases h with rfl | rfl
  · rw [zero_sub, max_eq_right (neg_nonpos.2 hx)]
  · rw [sub_zero, max_eq_left hr]

/-- **What a call reserves and gives back leaves a spared row as it was.** -/
theorem giveBackRow_reserveRow {k : BudgetKey} {row : BudgetRow} (husd : 0 ≤ a.estUsd)
    (htokens : 0 ≤ a.estTokens) (h : a.SparesRow k row) :
    a.giveBackRow k (a.reserveRow k row) = row := by
  by_cases hscope : a.scope.contains k.1 = true
  · rw [giveBackRow, if_pos hscope]
    cases hcapped : row.budget.capped with
    | true =>
        obtain ⟨row', hadd⟩ := add_isSome husd htokens row
        rw [reserveRow_of_add hscope hcapped hadd, sub_add hadd]
    | false =>
        obtain ⟨hspareUsd, hspareTokens⟩ := h hscope hcapped
        rw [reserveRow_of_not_gated (fun hgated => by rw [hcapped] at hgated; cases hgated.2)]
        obtain ⟨budget, reservedUsd, reservedTokens, range, order, hnonneg⟩ := row
        simp only [BudgetRow.sub, BudgetRow.mk.injEq, true_and]
        exact ⟨floor_sub_eq hnonneg.1 husd hspareUsd, floor_sub_eq hnonneg.2 htokens hspareTokens⟩
  · rw [giveBackRow, if_neg hscope, reserveRow_of_not_gated fun hgated => hscope hgated.1]

/-- What a call reserves and gives back leaves the spared rows as they were. -/
theorem giveBack_reserve {t : BudgetRows} (husd : 0 ≤ a.estUsd) (htokens : 0 ≤ a.estTokens)
    (h : a.Spares t) : a.giveBack (a.reserve t) = t := by
  rw [giveBack, reserve, Table.mapRows_mapRows]
  exact Table.mapRows_eq_self fun kr hkr => giveBackRow_reserveRow husd htokens
    (h kr.1 kr.2 ((Table.find?_eq_some_iff _ _ _).2 hkr))

/-- A reservation does not touch what a release spares. -/
theorem SparesRow.reserveRow {b : EnforceArgs} {k : BudgetKey} {row : BudgetRow}
    (h : b.SparesRow k row) : b.SparesRow k (a.reserveRow k row) := by
  intro hscope hcapped
  rw [budget_reserveRow] at hcapped
  rw [reserveRow_of_not_gated fun hgated => by rw [hcapped] at hgated; cases hgated.2]
  exact h hscope hcapped

theorem Spares.reserve {b : EnforceArgs} {t : BudgetRows} (h : b.Spares t) :
    b.Spares (a.reserve t) := by
  intro k row hrow
  rw [find?_reserve] at hrow
  obtain ⟨row₀, hrow₀, rfl⟩ := Option.map_eq_some_iff.1 hrow
  exact (h k row₀ hrow₀).reserveRow

theorem floor_sub_comm {α : Type} [AddCommGroup α] [LinearOrder α] [IsOrderedAddMonoid α]
    {r x y : α} (hx : 0 ≤ x) (hy : 0 ≤ y) :
    max (max (r - x) 0 - y) 0 = max (max (r - y) 0 - x) 0 := by
  have hfloor : ∀ {u v : α}, 0 ≤ v → max (max u 0 - v) 0 = max (u - v) 0 := by
    intro u v hv
    rcases le_total u 0 with hu | hu
    · rw [max_eq_right hu, zero_sub, max_eq_right (neg_nonpos.2 hv),
        max_eq_right (sub_nonpos.2 (hu.trans hv))]
    · rw [max_eq_left hu]
  rw [hfloor hy, hfloor hx, sub_right_comm]

/-- What a release leaves alone it has nothing to take off. -/
theorem of_floor_sub {α : Type} [AddCommGroup α] [LinearOrder α] [IsOrderedAddMonoid α]
    {r x : α} (h : max (r - x) 0 = r) : r = 0 ∨ x = 0 := by
  rcases max_choice (r - x) 0 with hmax | hmax
  · rw [hmax] at h
    exact .inr (sub_eq_self.1 h)
  · rw [hmax] at h
    exact .inl h.symm

/-- What two releases leave alone each of them leaves alone. -/
theorem of_floor_sub_sub {α : Type} [AddCommGroup α] [LinearOrder α] [IsOrderedAddMonoid α]
    {r x y : α} (hr : 0 ≤ r) (hx : 0 ≤ x) (hy : 0 ≤ y) (h : max (max (r - x) 0 - y) 0 = r) :
    (r = 0 ∨ x = 0) ∧ (r = 0 ∨ y = 0) := by
  rcases hr.eq_or_lt with hzero | hpos
  · exact ⟨.inl hzero.symm, .inl hzero.symm⟩
  · have hpositive : ∀ {u v : α}, 0 < v → max u 0 = v → u = v := by
      intro u v hv hmax
      rcases max_choice u 0 with hmax' | hmax'
      · rw [← hmax, hmax']
      · rw [← hmax, hmax'] at hv
        exact absurd hv (lt_irrefl 0)
    have houter : max (r - x) 0 = r + y := sub_eq_iff_eq_add.1 (hpositive hpos h)
    have hinner : r - x = r + y := hpositive (add_pos_of_pos_of_nonneg hpos hy) houter
    have hsum : y + x = 0 := by
      rw [sub_eq_iff_eq_add, add_assoc] at hinner
      exact left_eq_add.1 hinner
    obtain ⟨hy₀, hx₀⟩ := (add_eq_zero_iff_of_nonneg hy hx).1 hsum
    exact ⟨.inr hx₀, .inr hy₀⟩

/-- Releases commute. -/
theorem giveBack_comm {b : EnforceArgs} (husd : 0 ≤ a.estUsd) (htokens : 0 ≤ a.estTokens)
    (husd' : 0 ≤ b.estUsd) (htokens' : 0 ≤ b.estTokens) (t : BudgetRows) :
    a.giveBack (b.giveBack t) = b.giveBack (a.giveBack t) := by
  obtain ⟨rows, hnodup⟩ := t
  simp only [giveBack, Table.mapRows, Table.mk.injEq, List.map_map]
  refine List.map_congr_left fun kr _ => ?_
  simp only [Function.comp_apply, Prod.mk.injEq, true_and, giveBackRow]
  split_ifs
  · simp only [BudgetRow.sub, BudgetRow.mk.injEq, true_and]
    exact ⟨floor_sub_comm husd' husd, floor_sub_comm htokens' htokens⟩
  all_goals rfl

/-- An uncapped row is not reserved on. -/
theorem find?_reserve_uncapped {t : BudgetRows} {k : BudgetKey} {row : BudgetRow}
    (hrow : t.find? k = some row) (hcapped : row.budget.capped = false) :
    (a.reserve t).find? k = some row := by
  rw [find?_reserve, hrow, Option.map_some,
    reserveRow_of_not_gated fun hgated => by rw [hcapped] at hgated; cases hgated.2]

/-- A row of the scope is released, whatever it is. -/
theorem find?_giveBack_scope {t : BudgetRows} {k : BudgetKey} {row : BudgetRow}
    (hrow : t.find? k = some row) (hscope : a.scope.contains k.1 = true) :
    (a.giveBack t).find? k = some (row.sub a.estUsd a.estTokens) := by
  rw [find?_giveBack, hrow, Option.map_some, giveBackRow, if_pos hscope]

variable (a)

/-- The estimate lies on every capped row of the scope if the gate returns, and on none if it
raises. -/
def ReservesIfReturns (s : Books) (out : Except Exn (List BudgetStatus)) (s' : Books) : Prop :=
  ∀ k row, s.2.budgets.find? k = some row → a.scope.contains k.1 = true →
    row.budget.capped = true → ∃ row', s'.2.budgets.find? k = some row' ∧
      ((∃ v, out = .ok v) → row'.reservedUsd = row.reservedUsd + a.estUsd ∧
        row'.reservedTokens = row.reservedTokens + a.estTokens) ∧
      ((∃ e, out = .error e) → row'.reservedUsd = row.reservedUsd ∧
        row'.reservedTokens = row.reservedTokens)

variable {a}

theorem reserved_of_add {row row' : BudgetRow} {estUsd : ℚ} {estTokens : Int}
    (h : row.add estUsd estTokens = some row') :
    row'.reservedUsd = row.reservedUsd + estUsd ∧
      row'.reservedTokens = row.reservedTokens + estTokens := by
  unfold BudgetRow.add at h
  split at h
  · rw [← Option.some.inj h]
    exact ⟨rfl, rfl⟩
  · cases h

theorem reservesIfReturns_of_gated {out : Except Exn (List BudgetStatus)}
    (h : a.Gated s out s') : a.ReservesIfReturns s out s' := by
  intro k row hrow hscope hcapped
  rcases h with ⟨⟨v, rfl⟩, -, hpassed⟩ | ⟨⟨e, rfl⟩, hsame | ⟨-, hadds, hundone⟩⟩
  · obtain ⟨row', hadd⟩ := hpassed.adds k row hrow hscope hcapped
    refine ⟨row', ?_, fun _ => reserved_of_add hadd, ?_⟩
    · rw [hpassed.budgets, find?_reserve, hrow, Option.map_some,
        reserveRow_of_add hscope hcapped hadd]
    · rintro ⟨e, he⟩
      cases he
  · refine ⟨row, by rw [hsame, hrow], ?_, fun _ => ⟨rfl, rfl⟩⟩
    rintro ⟨v, hv⟩
    cases hv
  · obtain ⟨row', hadd⟩ := hadds k row hrow hscope hcapped
    refine ⟨row, ?_, ?_, fun _ => ⟨rfl, rfl⟩⟩
    · rw [hundone, find?_giveBack, find?_reserve, hrow, Option.map_some, Option.map_some,
        reserveRow_of_add hscope hcapped hadd, giveBackRow, if_pos hscope, sub_add hadd]
    · rintro ⟨v, hv⟩
      cases hv

end EnforceArgs

/-! ## What a model call does to the rows -/

/-- Every row has the reservations it had. -/
def SameReserved (s s' : Books) : Prop :=
  ∀ k row, s.2.budgets.find? k = some row → ∃ row', s'.2.budgets.find? k = some row' ∧
    row'.reservedUsd = row.reservedUsd ∧ row'.reservedTokens = row.reservedTokens

/-- The books once a gate has reserved. -/
def Books.reserved (s : Books) (a : EnforceArgs) : Books :=
  (s.1, { s.2 with budgets := a.reserve s.2.budgets })

namespace ModelCall

variable (c : ModelCall)

/-- The failing provider makes the call fall to a model. -/
def FallsTo (spec next : ModelSpec) : Prop :=
  (∃ message, (c.selectProvider false spec).complete spec.id = .fallback message) ∧
    c.registry.nextCandidate spec.tier spec.id = some next

/-- Every gate that admits the call spares the uncapped rows. -/
def SparesUncapped (s : Books) : Prop :=
  ∀ d, routeDecision c.registry c.budgetCtx c.taskType c.quality = .ok d → c.workstream ≠ "" →
    (c.gateArgs false d.model).admits s = true →
      (c.gateArgs false d.model).Spares s.2.budgets ∧
        ∀ next, c.FallsTo d.model next →
          (c.gateArgs true next).admits (s.reserved (c.gateArgs false d.model)) = true →
            (c.gateArgs true next).Spares s.2.budgets

variable {c}

theorem only_fail (spec : ModelSpec) (provider : Provider) (errorType : String) (e : Exn) :
    (c.fail spec provider errorType e).Only Beside :=
  (only_inl _).bind fun _ => .throw e

theorem only_record (spec : ModelSpec) (provider : Provider) (completion : Completion) :
    (c.record spec provider completion).Only Beside := by
  refine (only_inl _).bind fun _ => ?_
  cases c.taskId with
  | none => exact .ret completion
  | some id => exact (only_inl _).bind fun _ => .ret completion

theorem only_dispatchFallback (spec : ModelSpec) : (c.dispatchFallback spec).Only Beside := by
  unfold dispatchFallback
  dsimp only
  split
  · exact only_record _ _ _
  · exact only_fail _ _ _ _
  · exact only_fail _ _ _ _

/-- The release of the reservation for a model. -/
theorem runs_releaseAll_cons {again : Bool} {spec : ModelSpec} {rest : List (ℚ × Int)}
    {out : Except Exn Unit}
    (h : Runs Answered (c.releaseAll (c.reservation spec :: rest)) s out s') :
    ∃ s₁, s₁.2.budgets = (c.gateArgs again spec).giveBack s.2.budgets ∧
      Runs Answered (c.releaseAll rest) s₁ out s' := by
  rcases Program.runs_bind_iff.1 h with ⟨u, s₁, hback, hrest⟩ | ⟨e, -, hback⟩
  · exact ⟨s₁, (EnforceArgs.runs_releaseReservation (a := c.gateArgs again spec) hback).2, hrest⟩
  · cases (EnforceArgs.runs_releaseReservation (a := c.gateArgs again spec) hback).1

theorem runs_releaseOne {spec : ModelSpec} {out : Except Exn Unit}
    (h : Runs Answered (c.releaseAll [c.reservation spec]) s out s') :
    out = .ok () ∧ s'.2.budgets = (c.gateArgs false spec).giveBack s.2.budgets := by
  obtain ⟨s₁, hbudgets, hrest⟩ := @runs_releaseAll_cons _ _ _ false _ _ _ h
  obtain ⟨rfl, rfl⟩ := Program.runs_ret_iff.1 hrest
  exact ⟨rfl, hbudgets⟩

theorem runs_releaseBoth {routed spec : ModelSpec} {out : Except Exn Unit}
    (h : Runs Answered (c.releaseAll [c.reservation routed, c.reservation spec]) s out s') :
    out = .ok () ∧ s'.2.budgets = (c.gateArgs true spec).giveBack
      ((c.gateArgs false routed).giveBack s.2.budgets) := by
  obtain ⟨s₁, hbudgets, hrest⟩ := @runs_releaseAll_cons _ _ _ false _ _ _ h
  obtain ⟨s₂, hbudgets', hrest'⟩ := @runs_releaseAll_cons _ _ _ true _ _ _ hrest
  obtain ⟨rfl, rfl⟩ := Program.runs_ret_iff.1 hrest'
  exact ⟨rfl, by rw [hbudgets', hbudgets]⟩

/-- A program beside the rows, and then a release that succeeds. -/
theorem runs_finally {p : Payer Completion} {fin : Payer Unit} {out : Except Exn Completion}
    (hp : p.Only Beside) (h : Runs Answered (p.tryFinally fin) s out s') :
    ∃ s₁ out', s₁.2 = s.2 ∧ Runs Answered fin s₁ out' s' := by
  obtain ⟨r, s₁, hrun, ⟨-, hfin⟩ | ⟨e, -, hfin⟩⟩ := Program.runs_tryFinally_iff.1 h
  · exact ⟨s₁, _, accounts_of_runs hp hrun, hfin⟩
  · exact ⟨s₁, _, accounts_of_runs hp hrun, hfin⟩

variable (c)

/-- What the dispatch leaves of the rows: the reservation is given back, and that of the fallback
has come and gone before or not. -/
def Returned (spec : ModelSpec) (s s' : Books) : Prop :=
  s'.2.budgets = (c.gateArgs false spec).giveBack s.2.budgets ∨
    ∃ next, c.FallsTo spec next ∧ (c.gateArgs true next).admits s = true ∧
      s'.2.budgets = (c.gateArgs false spec).giveBack
        ((c.gateArgs true next).giveBack ((c.gateArgs true next).reserve s.2.budgets))

variable {c}

theorem estimates_nonneg (again : Bool) (spec : ModelSpec) :
    0 ≤ (c.gateArgs again spec).estUsd ∧ 0 < (c.gateArgs again spec).estTokens :=
  ⟨c.estUsd_nonneg spec, c.estTokens_pos⟩

theorem giveBack_swap (routed next : ModelSpec) (t : BudgetRows) :
    (c.gateArgs true next).giveBack ((c.gateArgs false routed).giveBack t) =
      (c.gateArgs false routed).giveBack ((c.gateArgs true next).giveBack t) :=
  EnforceArgs.giveBack_comm (estimates_nonneg true next).1 (estimates_nonneg true next).2.le
    (estimates_nonneg false routed).1 (estimates_nonneg false routed).2.le t

/-- The retry. -/
theorem runs_retry {spec next : ModelSpec} {out : Except Exn Completion}
    (hfalls : c.FallsTo spec next) (h : Runs Answered (c.retry spec next) s out s') :
    c.Returned spec s s' := by
  rcases Program.runs_bind_iff.1 h with ⟨gated, s₁, hattempt, hrest⟩ | ⟨e, -, hattempt⟩
  · obtain ⟨r, hr, hgate⟩ := Program.runs_attempt_iff.1 hattempt
    obtain rfl := Except.ok.inj hr
    rcases EnforceArgs.runs_enforce hgate with ⟨⟨v, rfl⟩, hadmits, hpassed⟩ | ⟨⟨e, rfl⟩, hkept⟩
    · obtain ⟨s₂, out', hsame, hrelease⟩ := runs_finally (only_dispatchFallback next) hrest
      refine .inr ⟨next, hfalls, hadmits, ?_⟩
      rw [(runs_releaseBoth hrelease).2, hsame, hpassed.budgets, giveBack_swap]
    · rcases Program.runs_bind_iff.1 hrest with ⟨u, s₂, hrelease, hthrow⟩ | ⟨e', -, hrelease⟩
      · obtain ⟨-, rfl⟩ := Program.runs_throw_iff.1 hthrow
        have hback := (runs_releaseOne hrelease).2
        rcases hkept with hsame | ⟨hadmits, -, hundone⟩
        · exact .inl (by rw [hback, hsame])
        · exact .inr ⟨next, hfalls, hadmits, by rw [hback, hundone]⟩
      · cases (runs_releaseOne hrelease).1
  · obtain ⟨r, hr, -⟩ := Program.runs_attempt_iff.1 hattempt
    cases hr

/-- **What a dispatch leaves.** -/
theorem runs_dispatch {spec : ModelSpec} {out : Except Exn Completion}
    (h : Runs Answered (c.dispatch spec) s out s') : c.Returned spec s s' := by
  unfold dispatch at h
  cases hprovider : (c.selectProvider false spec).complete spec.id with
  | completed completion =>
      simp only [hprovider] at h
      obtain ⟨s₁, out', hsame, hrelease⟩ := runs_finally (only_record _ _ _) h
      exact .inl (by rw [(runs_releaseOne hrelease).2, hsame])
  | died errorType message =>
      simp only [hprovider] at h
      obtain ⟨s₁, out', hsame, hrelease⟩ := runs_finally (only_fail _ _ _ _) h
      exact .inl (by rw [(runs_releaseOne hrelease).2, hsame])
  | fallback message =>
      simp only [hprovider] at h
      cases hnext : c.registry.nextCandidate spec.tier spec.id with
      | none =>
          simp only [hnext] at h
          rcases Program.runs_bind_iff.1 h with ⟨u, s₁, hrelease, hthrow⟩ | ⟨e, -, hrelease⟩
          · obtain ⟨-, rfl⟩ := Program.runs_throw_iff.1 hthrow
            exact .inl (runs_releaseOne hrelease).2
          · cases (runs_releaseOne hrelease).1
      | some next =>
          simp only [hnext] at h
          exact runs_retry ⟨⟨message, hprovider⟩, hnext⟩ h

theorem workstream_ne_of_emitEvent {name : String} {taskId : Option Uuid} {payload : SinkPayload}
    {u : Unit} (h : Runs Answered ((emitEvent name taskId payload).inl : Payer Unit) s (.ok u) s') :
    name ≠ "" := by
  rintro rfl
  cases (Program.runs_throw_iff.1 h).1

/-- **What a model call leaves of the rows.** -/
theorem runs_callModel {out : Except Exn Completion} (h : Runs Answered c.callModel s out s') :
    s'.2.budgets = s.2.budgets ∨
      ∃ d, routeDecision c.registry c.budgetCtx c.taskType c.quality = .ok d ∧
        c.workstream ≠ "" ∧ (c.gateArgs false d.model).admits s = true ∧
        (s'.2.budgets = (c.gateArgs false d.model).giveBack
            ((c.gateArgs false d.model).reserve s.2.budgets) ∨
          ∃ s₁, (c.gateArgs false d.model).Passed s s₁ ∧ c.Returned d.model s₁ s') := by
  unfold callModel at h
  cases hroute : routeDecision c.registry c.budgetCtx c.taskType c.quality with
  | error e =>
      rw [hroute] at h
      obtain ⟨-, rfl⟩ := Program.runs_throw_iff.1 h
      exact .inl rfl
  | ok d =>
      rw [hroute] at h
      rcases Program.runs_bind_iff.1 h with ⟨u, s₀, hemit, hrest⟩ | ⟨e, -, hemit⟩
      · have hsame := accounts_of_runs (only_inl _) hemit
        have hquiet : Quiet s.1 s₀.1 := quiet_of_emitEvent (fun notice hcall => by cases hcall) hemit
        have hworkstream := workstream_ne_of_emitEvent hemit
        rcases Program.runs_bind_iff.1 hrest with ⟨v, s₁, hgate, hdispatch⟩ | ⟨e, -, hgate⟩
        · have hgated := (EnforceArgs.runs_enforce hgate).congr (s := s) (by rw [hsame])
            (by rw [hsame]) hquiet
          rcases hgated with ⟨-, hadmits, hpassed⟩ | ⟨⟨e, he⟩, -⟩
          · exact .inr ⟨d, rfl, hworkstream, hadmits,
              .inr ⟨s₁, hpassed, runs_dispatch hdispatch⟩⟩
          · cases he
        · have hgated := (EnforceArgs.runs_enforce hgate).congr (s := s) (by rw [hsame])
            (by rw [hsame]) hquiet
          rcases hgated with ⟨⟨v, hv⟩, -⟩ | ⟨-, hkept | ⟨hadmits, -, hundone⟩⟩
          · cases hv
          · exact .inl hkept
          · exact .inr ⟨d, rfl, hworkstream, hadmits, .inl hundone⟩
      · exact .inl (by rw [accounts_of_runs (only_inl _) hemit])

/-- Where the gates spare the uncapped rows the call leaves the table as it was. -/
theorem budgets_of_sparesUncapped {out : Except Exn Completion} (hspares : c.SparesUncapped s)
    (h : Runs Answered c.callModel s out s') : s'.2.budgets = s.2.budgets := by
  rcases runs_callModel h with hsame | ⟨d, hroute, hworkstream, hadmits, hleft⟩
  · exact hsame
  · obtain ⟨hfirst, hsecond⟩ := hspares d hroute hworkstream hadmits
    obtain ⟨husd, htokens⟩ := estimates_nonneg (c := c) false d.model
    have hreturn := EnforceArgs.giveBack_reserve husd htokens.le hfirst
    rcases hleft with hundone | ⟨s₁, hpassed, hback | ⟨next, hfalls, hadmits', hback⟩⟩
    · rw [hundone, hreturn]
    · rw [hback, hpassed.budgets, hreturn]
    · obtain ⟨husd', htokens'⟩ := estimates_nonneg (c := c) true next
      have hadmits'' : (c.gateArgs true next).admits (s.reserved (c.gateArgs false d.model)) = true := by
        rw [← hadmits']
        exact (EnforceArgs.admits_congr (s := s.reserved (c.gateArgs false d.model)) hpassed.budgets
          hpassed.calendar hpassed.quiet).symm
      have hspare := (hsecond next hfalls hadmits'').reserve (a := c.gateArgs false d.model)
      rw [hback, hpassed.budgets, EnforceArgs.giveBack_reserve husd' htokens'.le hspare, hreturn]

/-- A row that two releases leave alone is spared by both. -/
theorem sparesRow_of_returned {spec next : ModelSpec} {k : BudgetKey} {row : BudgetRow}
    (h : ((row.sub (c.estUsd next) c.estTokens).sub (c.estUsd spec) c.estTokens).reservedUsd =
        row.reservedUsd ∧
      ((row.sub (c.estUsd next) c.estTokens).sub (c.estUsd spec) c.estTokens).reservedTokens =
        row.reservedTokens) :
    (c.gateArgs false spec).SparesRow k row ∧ (c.gateArgs true next).SparesRow k row := by
  obtain ⟨husd, htokens⟩ := h
  have hspareUsd := EnforceArgs.of_floor_sub_sub row.reserved_nonneg.1 (c.estUsd_nonneg next)
    (c.estUsd_nonneg spec) husd
  have hspareTokens := EnforceArgs.of_floor_sub_sub row.reserved_nonneg.2 c.estTokens_pos.le
    c.estTokens_pos.le htokens
  exact ⟨fun _ _ => ⟨hspareUsd.2, hspareTokens.2⟩, fun _ _ => ⟨hspareUsd.1, hspareTokens.1⟩⟩

/-- The start of a run whose sink keeps nothing and whose gate admits the call. -/
theorem exists_runs_gate {d : RouteDecision}
    (hroute : routeDecision c.registry c.budgetCtx c.taskType c.quality = .ok d)
    (hworkstream : c.workstream ≠ "") (hadmits : (c.gateArgs false d.model).admits s = true) :
    ∃ s₁, (c.gateArgs false d.model).Passed s s₁ ∧ ∀ out s',
      Runs Answered (c.dispatch d.model) s₁ out s' → Runs Answered c.callModel s out s' := by
  obtain ⟨husd, htokens⟩ := estimates_nonneg (c := c) false d.model
  obtain ⟨v, s₁, hgate, -⟩ := EnforceArgs.exists_runs_enforce hadmits hworkstream husd htokens.le
  have hpassed : (c.gateArgs false d.model).Passed s s₁ := by
    rcases EnforceArgs.runs_enforce hgate with ⟨-, -, hpassed⟩ | ⟨⟨e, he⟩, -⟩
    · exact hpassed
    · cases he
  refine ⟨s₁, hpassed, fun out s' hdispatch => ?_⟩
  unfold callModel
  rw [hroute]
  exact Program.runs_bind_iff.2 (.inl ⟨(), s, runs_emitEvent_dropped hworkstream _ _ s,
    Program.runs_bind_iff.2 (.inl ⟨v, s₁, hgate, hdispatch⟩)⟩)

/-- A run of the retry whose gate admits the call. -/
theorem exists_runs_retry {spec next : ModelSpec} {s₁ : Books} (hfalls : c.FallsTo spec next)
    (hworkstream : c.workstream ≠ "") (hadmits : (c.gateArgs true next).admits s₁ = true) :
    ∃ out s', Runs Answered (c.dispatch spec) s₁ out s' ∧
      s'.2.budgets = (c.gateArgs false spec).giveBack
        ((c.gateArgs true next).giveBack ((c.gateArgs true next).reserve s₁.2.budgets)) := by
  obtain ⟨husd, htokens⟩ := estimates_nonneg (c := c) true next
  obtain ⟨v, s₂, hgate, -⟩ := EnforceArgs.exists_runs_enforce hadmits hworkstream husd htokens.le
  have hpassed : (c.gateArgs true next).Passed s₁ s₂ := by
    rcases EnforceArgs.runs_enforce hgate with ⟨-, -, hpassed⟩ | ⟨⟨e, he⟩, -⟩
    · exact hpassed
    · cases he
  obtain ⟨out, s₃, hserve⟩ := exists_runs (c.dispatchFallback next) s₂
  obtain ⟨out', s', hrelease⟩ :=
    exists_runs (c.releaseAll [c.reservation spec, c.reservation next]) s₃
  obtain ⟨rfl, hback⟩ := runs_releaseBoth hrelease
  have hretry : Runs Answered (c.retry spec next) s₁ out s' :=
    Program.runs_bind_iff.2 (.inl ⟨.ok v, s₂, Program.runs_attempt_iff.2 ⟨.ok v, rfl, hgate⟩,
      Program.runs_tryFinally_iff.2 ⟨out, s₃, hserve, .inl ⟨rfl, hrelease⟩⟩⟩)
  refine ⟨out, s', ?_, ?_⟩
  · obtain ⟨⟨message, hfallback⟩, hnext⟩ := hfalls
    unfold dispatch
    simp only [hfallback, hnext]
    exact hretry
  · rw [hback, accounts_of_runs (only_dispatchFallback next) hserve, hpassed.budgets, giveBack_swap]

/-- What a returned reservation does to an uncapped row of the scope. -/
theorem find?_returned {spec : ModelSpec} {t : BudgetRows} {k : BudgetKey} {row : BudgetRow}
    (hrow : t.find? k = some row) (hscope : (gatedScope c.workstream).contains k.1 = true)
    (hcapped : row.budget.capped = false) (next : ModelSpec) :
    ((c.gateArgs false spec).giveBack ((c.gateArgs true next).giveBack
      ((c.gateArgs true next).reserve ((c.gateArgs false spec).reserve t)))).find? k =
        some ((row.sub (c.estUsd next) c.estTokens).sub (c.estUsd spec) c.estTokens) :=
  EnforceArgs.find?_giveBack_scope (EnforceArgs.find?_giveBack_scope
    (EnforceArgs.find?_reserve_uncapped (EnforceArgs.find?_reserve_uncapped hrow hcapped) hcapped)
    hscope) hscope

/-- **Necessity.** A gate that admits the call and does not spare an uncapped row has a run that
takes something off it. -/
theorem sparesUncapped_of_neutral
    (hall : ∀ out s', Runs Answered c.callModel s out s' → SameReserved s s') :
    c.SparesUncapped s := by
  intro d hroute hworkstream hadmits
  obtain ⟨s₁, hpassed, hstart⟩ := exists_runs_gate hroute hworkstream hadmits
  constructor
  · intro k row hrow hscope hcapped
    obtain ⟨out, s', hdispatch⟩ := exists_runs (c.dispatch d.model) s₁
    obtain ⟨row', hrow', husd, htokens⟩ := hall _ _ (hstart _ _ hdispatch) k row hrow
    rcases runs_dispatch hdispatch with hback | ⟨next, -, -, hback⟩
    · rw [hback, hpassed.budgets, EnforceArgs.find?_giveBack_scope
        (EnforceArgs.find?_reserve_uncapped hrow hcapped) hscope] at hrow'
      obtain rfl := Option.some.inj hrow'
      exact ⟨EnforceArgs.of_floor_sub husd, EnforceArgs.of_floor_sub htokens⟩
    · rw [hback, hpassed.budgets, find?_returned hrow hscope hcapped next] at hrow'
      obtain rfl := Option.some.inj hrow'
      exact (sparesRow_of_returned ⟨husd, htokens⟩).1 hscope hcapped
  · intro next hfalls hadmits' k row hrow hscope hcapped
    have hadmits₁ : (c.gateArgs true next).admits s₁ = true := by
      rw [← hadmits']
      exact EnforceArgs.admits_congr (s := s.reserved (c.gateArgs false d.model)) hpassed.budgets
        hpassed.calendar hpassed.quiet
    obtain ⟨out, s', hretry, hback⟩ := exists_runs_retry hfalls hworkstream hadmits₁
    obtain ⟨row', hrow', husd, htokens⟩ := hall _ _ (hstart _ _ hretry) k row hrow
    rw [hback, hpassed.budgets, find?_returned hrow hscope hcapped next] at hrow'
    obtain rfl := Option.some.inj hrow'
    exact (sparesRow_of_returned ⟨husd, htokens⟩).2 hscope hcapped

/-- **One call and the reservations.** A call of a model leaves every row the reservations it had,
on every way out, exactly if the gates that admit it spare the uncapped rows. -/
theorem reservations_neutral_iff (c : ModelCall) (s : Books) :
    ((∀ out s', Runs Answered c.callModel s out s' → SameReserved s s') ↔ c.SparesUncapped s) ∧
      ∀ (a : EnforceArgs) out s', Runs Answered a.enforce s out s' → a.ReservesIfReturns s out s' := by
  refine ⟨⟨sparesUncapped_of_neutral, fun hspares out s' hrun k row hrow => ?_⟩,
    fun a out s' hrun => EnforceArgs.reservesIfReturns_of_gated (EnforceArgs.runs_enforce hrun)⟩
  exact ⟨row, by rw [budgets_of_sparesUncapped hspares hrun, hrow], rfl, rfl⟩

end ModelCall

/-! ## A row that has lost its cap -/

theorem inFlight_nonneg : (0 : ℚ) ≤ 0 ∧ (0 : Int) ≤ 500 := ⟨le_refl 0, by decide⟩

/-- A row whose cap was removed while another call had 500 tokens reserved on it. -/
def uncappedRow : BudgetRow where
  budget := {}
  reservedTokens := 500
  range := by decide
  order := by decide
  reserved_nonneg := inFlight_nonneg

/-- A database with that row only. -/
def uncappedBooks : Books :=
  (Store.initial 0, ⟨⟨[(("productivity", .monthly), uncappedRow)], List.nodup_singleton _⟩, [], 0,
    ⟨id, id⟩⟩)

theorem unpriced : (0 : ℚ) ≤ 0 := le_refl 0

/-- A catalog with one model. -/
def oneModel : Registry where
  models := [("claude-haiku-4-5", ⟨"claude-haiku-4-5", "anthropic", .cheap, 0, 0, 0, unpriced,
    unpriced⟩)]
  policy := { default := [("standard", "cheap")], tiers := [("cheap", ["claude-haiku-4-5"])] }

/-- A call that a provider answers. -/
def answeredCall : ModelCall where
  role := "pm"
  taskType := "summarize"
  messages := []
  registry := oneModel
  sha256 := id
  selectProvider _ _ := ⟨"dryrun", fun _ => .completed ⟨"done", {}⟩⟩
  approvalId _ := ⟨"6d0b3a4e-51c7-4a0e-9f0e-7a1d2c3b4e02", by decide⟩
  latencyMs := 0

/-- **A call that reserves nothing takes two tokens off another call's reservation.** -/
theorem uncapped_row_lowered :
    ∃ out s', Runs Answered answeredCall.callModel uncappedBooks out s' ∧
      (s'.2.budgets.find? ("productivity", .monthly)).map BudgetRow.reservedTokens = some 498 ∧
      ¬ SameReserved uncappedBooks s' := by
  have hlowered : ((answeredCall.callModel.eval uncappedBooks).2.2.budgets.find?
      ("productivity", .monthly)).map BudgetRow.reservedTokens = some 498 := by
    decide +kernel
  refine ⟨_, _, Program.runs_eval (fun _ _ _ _ h => .done h) (fun _ _ _ h => .failed h) _ _,
    hlowered, fun hsame => ?_⟩
  obtain ⟨row', hrow', -, htokens⟩ := hsame ("productivity", .monthly) uncappedRow
    ((Table.find?_eq_some_iff _ _ _).2 (List.mem_singleton_self _))
  rw [hrow', Option.map_some, htokens] at hlowered
  cases hlowered

end AiStudio.Runtime
