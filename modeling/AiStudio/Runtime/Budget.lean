import AiStudio.Runtime.Enforce

/-!
# Budgets and their gate

Embeds the table access and the gate of `runtime/budget.py`: `set_budget`, the accrued
spend, `enforce` and `release_reservation`. The budget rows lie beside the database, with
the row locks that open transactions hold; `enforce` reads under `SELECT ... FOR UPDATE`,
and between its statements other processes may move, as long as they leave the locked rows
alone.
-/

set_option autoImplicit false

namespace AiStudio.Runtime

open AiStudio.Data AiStudio.Concurrency

/-! ## Budget rows -/

/-- The caps of one `(workstream, period)` and their thresholds. -/
structure Budget where
  capUsd : Option ℚ := none
  capTokens : Option Int := none
  warnFrac : Option ℚ := none
  throttleFrac : Option ℚ := none
  reserveFrac : Option ℚ := none
  deriving DecidableEq

/-- Two optional bounds in order; a missing one is unordered. -/
def inOrder : Option ℚ → Option ℚ → Bool
  | some a, some b => a ≤ b
  | _, _ => true

namespace Budget

variable (b : Budget)

/-- The row constrains something. -/
def capped : Bool := b.capUsd.isSome || b.capTokens.isSome

/-- `budgets_fracs_range`. -/
def fracsRange : Bool :=
  [b.warnFrac, b.throttleFrac, b.reserveFrac].all fun frac => frac.all fun f => 0 < f && f < 1

/-- `budgets_fracs_order`. -/
def fracsOrder : Bool := inOrder b.warnFrac b.throttleFrac && inOrder b.throttleFrac b.reserveFrac

end Budget

/-- A row of `budgets`. The checks of its migrations are fields. -/
structure BudgetRow where
  budget : Budget
  reservedUsd : ℚ := 0
  reservedTokens : Int := 0
  range : budget.fracsRange = true
  order : budget.fracsOrder = true
  reserved_nonneg : 0 ≤ reservedUsd ∧ 0 ≤ reservedTokens

namespace BudgetRow

/-- The row with a reservation more; `budgets_reserved_nonneg` may refuse it. -/
def add (row : BudgetRow) (estUsd : ℚ) (estTokens : Int) : Option BudgetRow :=
  if h : 0 ≤ row.reservedUsd + estUsd ∧ 0 ≤ row.reservedTokens + estTokens then
    some { row with
      reservedUsd := row.reservedUsd + estUsd
      reservedTokens := row.reservedTokens + estTokens
      reserved_nonneg := h }
  else none

/-- The row with a reservation less, floored at zero. -/
def sub (row : BudgetRow) (estUsd : ℚ) (estTokens : Int) : BudgetRow :=
  { row with
    reservedUsd := max (row.reservedUsd - estUsd) 0
    reservedTokens := max (row.reservedTokens - estTokens) 0
    reserved_nonneg := ⟨le_max_right _ _, le_max_right _ _⟩ }

/-- The row under other caps. -/
def withBudget (row : BudgetRow) (b : Budget) : Option BudgetRow :=
  if h : b.fracsRange = true ∧ b.fracsOrder = true then
    some { row with budget := b, range := h.1, order := h.2 }
  else none

theorem none_reserved : (0 : ℚ) ≤ 0 ∧ (0 : Int) ≤ 0 := ⟨le_refl _, le_refl _⟩

/-- A new row. -/
def ofBudget (b : Budget) : Option BudgetRow :=
  if h : b.fracsRange = true ∧ b.fracsOrder = true then
    some { budget := b, range := h.1, order := h.2, reserved_nonneg := none_reserved }
  else none

end BudgetRow

/-- The key of a budget row. -/
abbrev BudgetKey := String × Period

/-- `date_trunc` in the time zone of the database. -/
structure Calendar where
  truncDay : Time → Time
  truncMonth : Time → Time

/-- `_window_clause`. -/
def Calendar.inWindow (calendar : Calendar) (period : Period) (now ts : Time) : Bool :=
  match period with
  | .daily => calendar.truncDay now ≤ ts
  | .monthly => calendar.truncMonth now ≤ ts
  | .rolling30d => now - 30 * 86400000000 ≤ ts
  | .allTime => true

/-- The budget rows, the row locks of open transactions, and the calendar. -/
structure Accounts where
  budgets : Table BudgetKey BudgetRow
  locks : List (Nat × BudgetKey)
  nextTx : Nat
  calendar : Calendar

/-- The database with its budgets. -/
abbrev Books := Store × Accounts

/-! ## Accrued spend -/

/-- The `model.call` an event records. -/
def Event.modelCall? (e : Event) : Option ModelCallNotice :=
  match e.payload with
  | .sink (.modelCall notice) => some notice
  | _ => none

/-- The calls a budget row counts: its workstream's, or everybody's under the org ceiling. -/
def countedCalls (calendar : Calendar) (s : Store) (workstream : Option String)
    (period : Period) : List ModelCallNotice :=
  (s.events.filter fun e => workstream.all (e.workstream.name = ·) &&
    calendar.inWindow period s.now e.ts).filterMap Event.modelCall?

/-- `_spent_in_tx`. -/
def spentInTx (calendar : Calendar) (s : Store) (workstream : Option String) (period : Period) :
    Spend :=
  let calls := countedCalls calendar s workstream period
  { costUsd := (calls.map (·.costUsd)).sum
    tokens := (calls.map fun call => call.inputTokens + call.outputTokens).sum
    calls := calls.length }

/-! ## The statements on the budget rows -/

namespace Accounts

variable (accounts : Accounts)

/-- Nobody else holds the row. -/
def free (tx : Option Nat) (k : BudgetKey) : Bool :=
  accounts.locks.all fun lock => lock.2 ≠ k || some lock.1 = tx

/-- The rows of some workstreams, in the order of `ORDER BY workstream, period`. -/
def rowsOf (workstreams : List String) : List (BudgetKey × BudgetRow) :=
  (accounts.budgets.select fun k _ => workstreams.contains k.1).insertionSort fun x y =>
    x.1.1 < y.1.1 ∨ (x.1.1 = y.1.1 ∧ x.1.2.value ≤ y.1.2.value)

/-- The rows of some workstreams that carry a cap. -/
def cappedOf (workstreams : List String) : List (BudgetKey × BudgetRow) :=
  accounts.budgets.select fun k row => workstreams.contains k.1 && row.budget.capped

/-- The end of a transaction. -/
def unlock (tx : Nat) : Accounts :=
  { accounts with locks := accounts.locks.filter (·.1 ≠ tx) }

/-- The reservation on one row: the capped rows of the workstreams are raised. -/
def raised (workstreams : List String) (estUsd : ℚ) (estTokens : Int) (k : BudgetKey)
    (row : BudgetRow) : Option BudgetRow :=
  if workstreams.contains k.1 && row.budget.capped then row.add estUsd estTokens else some row

/-- The reservation on all rows. -/
def raise (workstreams : List String) (estUsd : ℚ) (estTokens : Int) : Accounts :=
  { accounts with budgets := accounts.budgets.mapRows fun k row =>
      (raised workstreams estUsd estTokens k row).getD row }

/-- The release of a reservation, on every row of the workstreams. -/
def lower (workstreams : List String) (estUsd : ℚ) (estTokens : Int) : Accounts :=
  { accounts with
    budgets := accounts.budgets.modifyWhere (fun k _ => workstreams.contains k.1)
      (·.sub estUsd estTokens) }

end Accounts

/-- The statements on the budget rows. A statement of a transaction names the transaction. -/
inductive BudgetOp where
  | lockRows (workstreams : List String)
  | spentInTx (tx : Nat) (workstream : Option String) (period : Period)
  | reserve (tx : Nat) (workstreams : List String) (estUsd : ℚ) (estTokens : Int)
  | commit (tx : Nat)
  | release (workstreams : List String) (estUsd : ℚ) (estTokens : Int)
  | setBudget (workstream : String) (period : Period) (budget : Budget)

namespace BudgetOp

/-- What a statement returns. `reserve` returns the keys of the rows it updated. -/
def Res : BudgetOp → Type
  | lockRows .. => Nat × List (BudgetKey × BudgetRow)
  | spentInTx .. => Spend
  | reserve .. => List BudgetKey
  | commit .. => Unit
  | release .. => Unit
  | setBudget .. => Budget

/-- `SELECT ... FOR UPDATE`, which opens a transaction. -/
def execLockRows (workstreams : List String) (s : Books) :
    Except Exn ((Nat × List (BudgetKey × BudgetRow)) × Books) :=
  let rows := s.2.rowsOf workstreams
  .ok ((s.2.nextTx, rows), (s.1, { s.2 with
    locks := s.2.locks ++ rows.map fun row => (s.2.nextTx, row.1)
    nextTx := s.2.nextTx + 1 }))

/-- The reservation of `enforce`, and the end of its transaction. -/
def execReserve (tx : Nat) (workstreams : List String) (estUsd : ℚ) (estTokens : Int) (s : Books) :
    Except Exn (List BudgetKey × Books) :=
  if s.2.budgets.rows.any fun row =>
      (Accounts.raised workstreams estUsd estTokens row.1 row.2).isNone then
    .error (.integrityError "budgets_reserved_nonneg")
  else
    .ok ((s.2.cappedOf workstreams).map Prod.fst,
      (s.1, (s.2.raise workstreams estUsd estTokens).unlock tx))

/-- `set_budget`: an upsert that leaves the reservations alone. -/
def execSetBudget (k : BudgetKey) (b : Budget) (s : Books) : Except Exn (Budget × Books) :=
  let row? := match s.2.budgets.find? k with
    | some row => (row.withBudget b).map fun row => s.2.budgets.modify k fun _ => row
    | none => (BudgetRow.ofBudget b).bind (s.2.budgets.insert? k)
  match row? with
  | none => .error (.integrityError "budgets_fracs_range")
  | some budgets => .ok (b, (s.1, { s.2 with budgets := budgets }))

/-- The effect of a statement. -/
def exec : (o : BudgetOp) → Books → Except Exn (o.Res × Books)
  | lockRows workstreams => execLockRows workstreams
  | spentInTx _ workstream period => fun s =>
      .ok (Runtime.spentInTx s.2.calendar s.1 workstream period, s)
  | reserve tx workstreams estUsd estTokens => execReserve tx workstreams estUsd estTokens
  | commit tx => fun s => .ok ((), (s.1, s.2.unlock tx))
  | release workstreams estUsd estTokens => fun s =>
      .ok ((), (s.1, s.2.lower workstreams estUsd estTokens))
  | setBudget workstream period b => execSetBudget (workstream, period) b

/-- A statement that writes or locks a row waits while another transaction holds it. -/
def ready : BudgetOp → Books → Bool
  | lockRows workstreams => fun s => (s.2.rowsOf workstreams).all fun row => s.2.free none row.1
  | reserve tx workstreams _ _ => fun s =>
      (s.2.cappedOf workstreams).all fun row => s.2.free (some tx) row.1
  | release workstreams _ _ => fun s =>
      (s.2.rowsOf workstreams).all fun row => s.2.free none row.1
  | setBudget workstream period _ => fun s => s.2.free none (workstream, period)
  | _ => fun _ => true

/-- A failed statement of a transaction rolls the transaction back. -/
def abort : BudgetOp → Books → Books
  | spentInTx tx .. | reserve tx .. | commit tx => fun s => (s.1, s.2.unlock tx)
  | _ => fun s => s

end BudgetOp

/-- The statements on the budget rows, as calls. -/
abbrev budgetRows : Interface Books Exn where
  Op := BudgetOp
  Res := BudgetOp.Res
  exec := BudgetOp.exec
  ready := BudgetOp.ready
  abort := BudgetOp.abort

/-- The database with its budgets, as the processes see it. -/
abbrev ledger : Interface Books Exn := database.beside budgetRows

/-- A process that pays for what it does. -/
abbrev Payer (α : Type) := Program ledger α

/-- One statement on the budget rows. -/
abbrev stmt (o : BudgetOp) : Payer o.Res := Program.op (I := ledger) (.inr o)

/-! ## The gate -/

/-- `set_budget`. -/
def setBudget (workstream : String) (period : Period) (b : Budget) : Payer Budget :=
  stmt (.setBudget workstream period b)

/-- The workstreams whose rows gate a call: its own, and the org ceiling. -/
def gatedScope (workstream : String) : List String :=
  if workstream = orgWorkstream then [workstream] else [workstream, orgWorkstream]

/-- `release_reservation`; a zero estimate is a no-op. -/
def releaseReservation (workstream : String) (estUsd : ℚ) (estTokens : Int) : Payer Unit :=
  if estUsd = 0 ∧ estTokens = 0 then .ret ()
  else stmt (.release (gatedScope workstream) estUsd estTokens)

/-- `_budget_fingerprint`: one per scope and period, whatever the call. -/
def budgetFingerprint (sha256 : String → String) (workstream : String) (period : Period) : String :=
  sha256 ("budget|" ++ workstream ++ "|" ++ period.value)

/-- Allocations before the org ceiling, then by period. -/
def ordered (entries : List BudgetStatus) : List BudgetStatus :=
  entries.insertionSort fun x y =>
    if (x.workstream = orgWorkstream) ↔ (y.workstream = orgWorkstream) then
      x.period.value ≤ y.period.value
    else y.workstream = orgWorkstream

/-- `_ZONE_EVENT`, with its payload; a call that is over has none. -/
def BudgetStatus.zoneEvent (st : BudgetStatus) (purpose : String) : Except Exn SinkPayload :=
  match st.zone with
  | .ok => .ok (.budgetCheckpoint st.toPayload)
  | .warn => .ok (.budgetWarn (st.zonePayload (some purpose)))
  | .throttle => .ok (.budgetThrottle (st.zonePayload (some purpose)))
  | .reserve => .ok (.budgetReserve (st.zonePayload (some purpose)))
  | .overCap => .error (.runtimeError "KeyError")

/-- The arguments of `enforce`, with the row id a request would draw. -/
structure EnforceArgs where
  workstream : String
  estUsd : ℚ := 0
  estTokens : Int := 0
  purpose : String := "normal"
  role : String := "system"
  taskId : Option Uuid := none
  sha256 : String → String
  approvalId : Uuid

namespace EnforceArgs

variable (a : EnforceArgs)

/-- The status of a locked row. -/
def status (k : BudgetKey) (row : BudgetRow) (spend : Spend) : BudgetStatus where
  workstream := k.1
  period := k.2
  capUsd := row.budget.capUsd
  capTokens := row.budget.capTokens
  spentUsd := spend.costUsd
  spentTokens := spend.tokens
  estUsd := a.estUsd
  estTokens := a.estTokens
  warnFrac := row.budget.warnFrac
  throttleFrac := row.budget.throttleFrac
  reserveFrac := row.budget.reserveFrac
  reservedUsd := row.reservedUsd
  reservedTokens := row.reservedTokens

/-- The entries of the locked rows that carry a cap. -/
def entries (tx : Nat) : List (BudgetKey × BudgetRow) → Payer (List BudgetStatus)
  | [] => .ret []
  | (k, row) :: rows =>
      if row.budget.capped then
        (stmt (.spentInTx tx (if k.1 = orgWorkstream then none else some k.1) k.2)).bind
          fun spend => (entries tx rows).bind fun rest => .ret (a.status k row spend :: rest)
      else entries tx rows

/-- The entry that blocks the call as over its cap. -/
def over? (entries : List BudgetStatus) : Option BudgetStatus :=
  (ordered entries).find? (·.zone = .overCap)

/-- The entry that withholds a call of this purpose from a reserve. -/
def withheld? (entries : List BudgetStatus) : Option BudgetStatus :=
  if a.purpose ∈ reservePurposes then none else (ordered entries).find? (·.zone = .reserve)

/-- The request for a higher cap. -/
def raiseRequest (st : BudgetStatus) : RequestArgs where
  taskId := a.taskId
  role := a.role
  tool := "model.call"
  capabilities := []
  tier := raiseBudgetTier
  reason := "raise budget for " ++ st.workstream ++ " (" ++ st.period.value ++ "): " ++
    st.exceedReason
  workstream := a.workstream
  fingerprint := budgetFingerprint a.sha256 st.workstream st.period

/-- Over the cap: the event, the request, and the refusal. -/
def blockOver (st : BudgetStatus) : Payer (List BudgetStatus) :=
  (emitEvent a.workstream a.taskId (.budgetExceeded st.exceedReason st.toPayload)).inl.bind
    fun _ => (requestApproval a.approvalId (a.raiseRequest st)).inl.bind fun _ =>
      .throw (.overBudget st)

/-- In the reserve: the event, and the refusal. -/
def withhold (st : BudgetStatus) : Payer (List BudgetStatus) :=
  (emitEvent a.workstream a.taskId (.budgetReserve (st.zonePayload (some a.purpose)))).inl.bind
    fun _ => .throw (.overBudget st)

/-- The zone events of an allowed call. -/
def announce : List BudgetStatus → Payer Unit
  | [] => .ret ()
  | st :: entries =>
      match st.zoneEvent a.purpose with
      | .error e => .throw e
      | .ok payload =>
          (emitEvent a.workstream a.taskId payload).inl.bind fun _ => announce entries

/-- Give back what this call reserved, then raise. -/
def undo (didReserve : Bool) (e : Exn) : Payer Unit :=
  (if didReserve then releaseReservation a.workstream a.estUsd a.estTokens else .ret ()).bind
    fun _ => .throw e

/-- Allowed: the zone events; a failure among them gives the reservation back. -/
def allow (didReserve : Bool) (entries : List BudgetStatus) : Payer (List BudgetStatus) :=
  ((a.announce (ordered entries)).tryCatch (a.undo didReserve)).bind fun _ => .ret entries

/-- The verdict on the entries: the transaction ends, and then its consequences. -/
def settle (tx : Nat) (entries : List BudgetStatus) : Payer (List BudgetStatus) :=
  match over? entries, a.withheld? entries with
  | some st, _ => (stmt (.commit tx)).bind fun _ => a.blockOver st
  | none, some withheld => (stmt (.commit tx)).bind fun _ => a.withhold withheld
  | none, none =>
      if entries.isEmpty then (stmt (.commit tx)).bind fun _ => .ret []
      else if a.estUsd = 0 ∧ a.estTokens = 0 then
        (stmt (.commit tx)).bind fun _ => a.allow false entries
      else
        (stmt (.reserve tx (gatedScope a.workstream) a.estUsd a.estTokens)).bind fun _ =>
          a.allow true entries

/-- `enforce`. -/
def enforce : Payer (List BudgetStatus) :=
  if a.purpose ∉ validPurposes then
    .throw (.valueError ("invalid purpose '" ++ a.purpose ++
      "' (allowed: ('normal', 'wind_down', 'escalation'))"))
  else
    (stmt (.lockRows (gatedScope a.workstream))).bind fun locked =>
      (a.entries locked.1 locked.2).bind fun entries => a.settle locked.1 entries

end EnforceArgs

end AiStudio.Runtime
