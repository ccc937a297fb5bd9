import AiStudio.Concurrency.Escrow
import AiStudio.Runtime.Reservations

/-!
# What a call has of a budget row

A budget row under a cap is an escrow. A model call reads what is reserved and what is spent under
the lock of the row, reserves its estimate, records its cost and gives the reservation back;
`payOutline` follows what it has of the row meanwhile, for either of the two things a row caps.
`holds_callModel` says that `call_model` keeps to it, through both of its gates and on every way
out.
-/

set_option autoImplicit false

namespace AiStudio.Runtime

open AiStudio.Data AiStudio.Concurrency

/-! ## What a cap counts -/

/-- The two things a budget row caps. -/
inductive Meter where
  | usd
  | tokens

namespace Meter

/-- The cap of a row. -/
def cap : Meter → Budget → Option ℚ
  | usd, b => b.capUsd
  | tokens, b => b.capTokens.map Int.cast

/-- The reservations on a row. -/
def reserved : Meter → BudgetRow → ℚ
  | usd, row => row.reservedUsd
  | tokens, row => row.reservedTokens

/-- What is accrued. -/
def accrued : Meter → Spend → ℚ
  | usd, spend => spend.costUsd
  | tokens, spend => spend.tokens

/-- An estimate. -/
def est : Meter → ℚ → Int → ℚ
  | usd, estUsd, _ => estUsd
  | tokens, _, estTokens => estTokens

/-- A recorded call. -/
def paid : Meter → ModelCallNotice → ℚ
  | usd, notice => notice.costUsd
  | tokens, notice => (notice.inputTokens + notice.outputTokens : Int)

/-- The level of a row once a call has reserved its estimate. -/
def level : Meter → BudgetStatus → ℚ
  | usd, st => st.levelUsd
  | tokens, st => st.levelTokens

variable (m : Meter)

theorem level_status (a : EnforceArgs) (k : BudgetKey) (row : BudgetRow) (spend : Spend) :
    m.level (a.status k row spend) =
      m.accrued spend + m.reserved row + m.est a.estUsd a.estTokens := by
  cases m with
  | usd => rfl
  | tokens => simp [level, BudgetStatus.levelTokens, accrued, reserved, est, EnforceArgs.status]

theorem reserved_nonneg (row : BudgetRow) : 0 ≤ m.reserved row := by
  cases m with
  | usd => exact row.reserved_nonneg.1
  | tokens => exact Int.cast_nonneg row.reserved_nonneg.2

theorem est_nonneg {estUsd : ℚ} {estTokens : Int} (husd : 0 ≤ estUsd) (htokens : 0 ≤ estTokens) :
    0 ≤ m.est estUsd estTokens := by
  cases m with
  | usd => exact husd
  | tokens => exact Int.cast_nonneg htokens

theorem est_zero : m.est 0 0 = 0 := by cases m <;> simp [est]

theorem reserved_add {row row' : BudgetRow} {estUsd : ℚ} {estTokens : Int}
    (h : row.add estUsd estTokens = some row') :
    m.reserved row' = m.reserved row + m.est estUsd estTokens ∧ row'.budget = row.budget := by
  unfold BudgetRow.add at h
  split at h
  · rw [← Option.some.inj h]
    refine ⟨?_, rfl⟩
    cases m with
    | usd => rfl
    | tokens => exact Int.cast_add _ _
  · cases h

theorem reserved_sub (row : BudgetRow) (estUsd : ℚ) (estTokens : Int) :
    m.reserved (row.sub estUsd estTokens) = max (m.reserved row - m.est estUsd estTokens) 0 := by
  cases m with
  | usd => rfl
  | tokens => simp [reserved, BudgetRow.sub, est, Int.cast_max]

end Meter

/-- A gate for this purpose lets a call pass on a row of these caps up to the bound only. -/
def Bounds (m : Meter) (b : Budget) (purpose : String) (bound : ℚ) : Prop :=
  ∀ st : BudgetStatus, st.capUsd = b.capUsd → st.capTokens = b.capTokens →
    st.reserveFrac = b.reserveFrac → st.zone ≠ .overCap →
    (purpose ∉ reservePurposes → st.zone ≠ .reserve) → m.level st ≤ bound

theorem Bounds.mono {m : Meter} {b : Budget} {purpose : String} {bound bound' : ℚ}
    (h : Bounds m b purpose bound) (hle : bound ≤ bound') : Bounds m b purpose bound' :=
  fun st husd htokens hreserve hover hzone => (h st husd htokens hreserve hover hzone).trans hle

/-- Every call stays under the cap. -/
theorem bounds_cap {m : Meter} {b : Budget} {cap : ℚ} (hcap : m.cap b = some cap)
    (purpose : String) : Bounds m b purpose cap := by
  intro st husd htokens _ hover _
  cases m with
  | usd => exact (BudgetStatus.zone_fits hover).1 cap (husd.trans hcap)
  | tokens =>
      obtain ⟨capTokens, hcapTokens, rfl⟩ := Option.map_eq_some_iff.1 hcap
      have hfits := (BudgetStatus.zone_fits hover).2 capTokens (htokens.trans hcapTokens)
      exact Int.cast_le.2 hfits

/-- A call that may not draw on the reserve stays below it. -/
theorem bounds_reserve {m : Meter} {b : Budget} {cap frac : ℚ} (hcap : m.cap b = some cap)
    (hfrac : b.reserveFrac = some frac) (hone : frac ≤ 1) {purpose : String}
    (hpurpose : purpose ∉ reservePurposes) : Bounds m b purpose (frac * cap) := by
  intro st husd htokens hreserve hover hzone
  have hbelow := BudgetStatus.zone_below_reserve hover (hzone hpurpose) (hreserve.trans hfrac) hone
  cases m with
  | usd => exact hbelow.1 cap (husd.trans hcap)
  | tokens =>
      obtain ⟨capTokens, hcapTokens, rfl⟩ := Option.map_eq_some_iff.1 hcap
      exact hbelow.2 capTokens (htokens.trans hcapTokens)

theorem capped_of_cap {m : Meter} {b : Budget} {cap : ℚ} (h : m.cap b = some cap) :
    b.capped = true := by
  cases m with
  | usd => simp [Budget.capped, show b.capUsd = some cap from h]
  | tokens =>
      obtain ⟨capTokens, hcapTokens, -⟩ := Option.map_eq_some_iff.1 h
      simp [Budget.capped, hcapTokens]

/-! ## What a call does to one row -/

/-- What a process has of the row: its transaction, its purse, whether a release of its was
struck, and whether it was ever told that the row is not as it should be. -/
structure Payment where
  tx : Option Nat := none
  purse : Purse ℚ := .empty
  short : Bool := false
  astray : Bool := false

section Outline

variable (m : Meter) (k : BudgetKey) (b : Budget) (bound : ℚ)

/-- The row counts the calls of the workstream. -/
abbrev Counts (workstream : String) : Prop := (gatedScope workstream).contains k.1 = true

/-- The row is in the scope. -/
abbrev InScope (workstreams : List String) : Prop := workstreams.contains k.1 = true

/-- The calls of a process that keeps to its purse. -/
def mayPay (l : Payment) : ledger.Op → Prop
  | .inl (.emit _ workstream (.modelCall notice)) =>
      Counts k workstream.name → m.paid notice ≤ l.purse.live
  | .inl _ => True
  | .inr (.lockRows _) => l.tx = none ∧ l.purse.reading = .closed
  | .inr (.spentInTx tx _ _) => l.tx = some tx
  | .inr (.reserve tx workstreams estUsd estTokens) => l.tx = some tx ∧
      0 ≤ m.est estUsd estTokens ∧ (InScope k workstreams → ∃ r s,
        l.purse.reading = .both r s ∧ s + r + m.est estUsd estTokens ≤ bound)
  | .inr (.commit tx) => l.tx = some tx
  | .inr (.release workstreams estUsd estTokens) => l.tx = none ∧ l.purse.reading = .closed ∧
      (InScope k workstreams →
        0 ≤ m.est estUsd estTokens ∧ m.est estUsd estTokens ≤ l.purse.owed)
  | .inr (.setBudget ..) => False

/-- The end of a transaction. -/
def Payment.closed (l : Payment) : Payment :=
  { l with tx := none, purse := { l.purse with reading := .closed } }

/-- The row that a lock has returned. -/
def Payment.locked (l : Payment) (tx : Nat) (rows : List (BudgetKey × BudgetRow)) : Payment :=
  match rows.filter fun row => row.1 = k with
  | [(_, row)] =>
      if row.budget = b then
        { l with tx := some tx, purse := { l.purse with reading := .reserved (m.reserved row) } }
      else { l with tx := some tx, astray := true }
  | _ => { l with tx := some tx, astray := true }

/-- A reading of the accrued spend. -/
def Payment.counted (l : Payment) (spent : ℚ) : Payment :=
  match l.purse.reading with
  | .reserved r => { l with purse := { l.purse with reading := .both r spent } }
  | _ => l

/-- The workstream whose calls the row counts; none is everybody's. -/
def countedBy : Option String := if k.1 = orgWorkstream then none else some k.1

/-- What a process has after a call. -/
def nextPayment (l : Payment) : (o : ledger.Op) → Except Exn (ledger.Res o) → Payment
  | .inl (.emit _ workstream (.modelCall _)), _ =>
      if Counts k workstream.name then { l with purse := { l.purse with live := 0 } } else l
  | .inr (.lockRows workstreams), .ok (tx, rows) =>
      if InScope k workstreams then l.locked m k b tx rows else { l with tx := some tx }
  | .inr (.spentInTx _ workstream period), .ok spend =>
      if workstream = countedBy k ∧ period = k.2 then l.counted (m.accrued spend) else l
  | .inr (.spentInTx ..), .error _ => l.closed
  | .inr (.reserve _ workstreams estUsd estTokens), .ok _ =>
      if InScope k workstreams then
        { l.closed with purse :=
            ⟨.closed, m.est estUsd estTokens, l.purse.owed + m.est estUsd estTokens⟩ }
      else l.closed
  | .inr (.reserve ..), .error _ => l.closed
  | .inr (.commit _), _ => l.closed
  | .inr (.release workstreams estUsd estTokens), r =>
      { l with
        purse := if InScope k workstreams then
          ⟨.closed, 0, l.purse.owed - m.est estUsd estTokens⟩ else l.purse
        short := l.short || !r.isOk }
  | _, _ => l

/-- The outline of a process that pays. -/
def payOutline {α : Type} (Q : Payment → Except Exn α → Prop) : Outline ledger Payment α where
  allows l o := l.astray = true ∨ mayPay m k bound l o
  next := nextPayment m k b
  ends l r := l.astray = true ∨ Q l r

end Outline

/-! ## The programs of a call -/

section Programs

variable {m : Meter} {k : BudgetKey} {b : Budget} {bound : ℚ} {l : Payment} {α β : Type}
  {Q : Payment → Except Exn α → Prop} {R : Payment → Except Exn β → Prop}

theorem astray_locked (h : l.astray = true) (tx : Nat) (rows : List (BudgetKey × BudgetRow)) :
    (l.locked m k b tx rows).astray = true := by
  unfold Payment.locked
  split
  · split
    · exact h
    · rfl
  · rfl

theorem locked_of_filter {rows : List (BudgetKey × BudgetRow)} {row : BudgetRow}
    (hfilter : (rows.filter fun row => row.1 = k) = [(k, row)]) (hbudget : row.budget = b)
    (l : Payment) (tx : Nat) : l.locked m k b tx rows =
      { l with tx := some tx, purse := { l.purse with reading := .reserved (m.reserved row) } } := by
  simp only [Payment.locked, hfilter, if_pos hbudget]

theorem astray_counted (h : l.astray = true) (spent : ℚ) : (l.counted spent).astray = true := by
  unfold Payment.counted
  split <;> exact h

theorem astray_next (h : l.astray = true) (o : ledger.Op) (r : Except Exn (ledger.Res o)) :
    (nextPayment m k b l o r).astray = true := by
  rcases o with o | o
  · cases o with
    | emit taskId workstream payload =>
        cases payload with
        | modelCall notice =>
            change (if Counts k workstream.name then _ else l : Payment).astray = true
            split <;> exact h
        | _ => exact h
    | _ => exact h
  · cases o with
    | lockRows workstreams =>
        rcases r with e | ⟨tx, rows⟩
        · exact h
        · change (if InScope k workstreams then l.locked m k b tx rows
            else { l with tx := some tx } : Payment).astray = true
          split
          · exact astray_locked h tx rows
          · exact h
    | spentInTx tx workstream period =>
        rcases r with e | spend
        · exact h
        · change (if workstream = countedBy k ∧ period = k.2 then l.counted (m.accrued spend)
            else l : Payment).astray = true
          split
          · exact astray_counted h _
          · exact h
    | reserve tx workstreams estUsd estTokens =>
        rcases r with e | keys
        · exact h
        · change (if InScope k workstreams then _ else l.closed : Payment).astray = true
          split <;> exact h
    | commit tx => exact h
    | release workstreams estUsd estTokens => exact h
    | setBudget workstream period budget => exact h

/-- Of a process that was told wrong nothing is said. -/
theorem holds_astray (h : l.astray = true) (p : Payer α) : (payOutline m k b bound Q).Holds l p := by
  induction p generalizing l with
  | ret a => exact .inl h
  | throw e => exact .inl h
  | call o f ih => exact ⟨.inl h, fun r => ih r (astray_next h o r)⟩

/-- A call beside the budget rows that records no `model.call`. -/
def Elsewhere (o : ledger.Op) : Prop :=
  ∃ o', o = .inl o' ∧ ∀ taskId workstream notice, o' ≠ .emit taskId workstream (.modelCall notice)

theorem mayPay_of_elsewhere {o : ledger.Op} (h : Elsewhere o) : mayPay m k bound l o := by
  obtain ⟨o, rfl, hne⟩ := h
  cases o with
  | emit taskId workstream payload =>
      cases payload with
      | modelCall notice => exact absurd rfl (hne taskId workstream notice)
      | _ => exact trivial
  | _ => exact trivial

theorem nextPayment_of_elsewhere {o : ledger.Op} (h : Elsewhere o)
    (r : Except Exn (ledger.Res o)) : nextPayment m k b l o r = l := by
  obtain ⟨o, rfl, hne⟩ := h
  cases o with
  | emit taskId workstream payload =>
      cases payload with
      | modelCall notice => exact absurd rfl (hne taskId workstream notice)
      | _ => rfl
  | _ => rfl

theorem holds_elsewhere_bind {p : Payer α} {f : α → Payer β} (h : p.Only Elsewhere)
    (hf : ∀ a, (payOutline m k b bound R).Holds l (f a)) (hR : ∀ e, R l (.error e)) :
    (payOutline m k b bound R).Holds l (p.bind f) :=
  Outline.holds_only_bind h
    (fun _ ho => ⟨.inr (mayPay_of_elsewhere ho), nextPayment_of_elsewhere ho⟩) hf
    fun e => .inr (hR e)

theorem holds_elsewhere {p : Payer α} (h : p.Only Elsewhere) (hQ : ∀ r, Q l r) :
    (payOutline m k b bound Q).Holds l p := by
  rw [← Program.bind_ret p]
  exact holds_elsewhere_bind h (fun a => .inr (hQ (.ok a))) fun e => hQ (.error e)

theorem elsewhere_emitEvent {name : String} {taskId : Option Uuid} {payload : SinkPayload}
    (hpayload : payload.NoCall) :
    ((emitEvent name taskId payload).inl : Payer Unit).Only Elsewhere := by
  unfold emitEvent
  cases requireWorkstream name with
  | error e => exact .throw e
  | ok workstream =>
      refine .call ⟨_, rfl, ?_⟩ fun r => ?_
      · rintro taskId' workstream' notice h
        obtain ⟨-, -, h⟩ := StoreOp.emit.inj h
        exact hpayload notice h
      · cases r with
        | ok v => exact .ret v
        | error e => exact .throw e

theorem elsewhere_call {o : StoreOp}
    (h : ∀ taskId workstream notice, o ≠ .emit taskId workstream (.modelCall notice)) :
    ((call o).inl : Payer o.Res).Only Elsewhere := by
  refine .call ⟨o, rfl, h⟩ fun r => ?_
  cases r with
  | ok v => exact .ret v
  | error e => exact .throw e

theorem elsewhere_requestApproval (newId : Uuid) (a : RequestArgs) :
    ((requestApproval newId a).inl : Payer (Uuid × Approval)).Only Elsewhere := by
  refine .call ⟨.selectOpenApproval a.fingerprint, rfl, fun _ _ _ h => nomatch h⟩ fun r => ?_
  rcases r with e | (_ | row)
  · exact .throw e
  · refine .call ⟨.insertApproval newId a, rfl, fun _ _ _ h => nomatch h⟩ fun r => ?_
    cases r with
    | ok row => exact .ret _
    | error e => exact .throw e
  · exact .ret row

/-- A process without a transaction, that owes the row so much. -/
structure Idle (l : Payment) (owed : ℚ) : Prop where
  tx : l.tx = none
  reading : l.purse.reading = .closed
  owed : l.purse.owed = owed

theorem idle_closed (l : Payment) : Idle l.closed l.purse.owed := ⟨rfl, rfl, rfl⟩

/-- The part of an estimate that falls on the row. -/
def share (m : Meter) (k : BudgetKey) (workstreams : List String) (estUsd : ℚ) (estTokens : Int) : ℚ :=
  if InScope k workstreams then m.est estUsd estTokens else 0

/-- **A release** takes its share off what the process owes. -/
theorem holds_release_bind {workstream : String} {estUsd : ℚ} {estTokens : Int} {rest : ℚ}
    {f : Unit → Payer β} (hest : 0 ≤ m.est estUsd estTokens) (hrest : 0 ≤ rest)
    (hl : Idle l (share m k (gatedScope workstream) estUsd estTokens + rest))
    (hf : ∀ l', Idle l' rest → l'.short = l.short → (payOutline m k b bound R).Holds l' (f ()))
    (hR : ∀ l' e, Idle l' rest → l'.short = true → R l' (.error e)) :
    (payOutline m k b bound R).Holds l
      ((releaseReservation workstream estUsd estTokens).bind f) := by
  by_cases hzero : estUsd = 0 ∧ estTokens = 0
  · have hnone : releaseReservation workstream estUsd estTokens = .ret () := if_pos hzero
    rw [hnone]
    refine hf l ⟨hl.tx, hl.reading, ?_⟩ rfl
    rw [hl.owed, share, hzero.1, hzero.2, m.est_zero, ite_self, zero_add]
  · have hsome : releaseReservation workstream estUsd estTokens =
        stmt (.release (gatedScope workstream) estUsd estTokens) := if_neg hzero
    rw [hsome]
    have hafter : ∀ r : Except Exn Unit, Idle (nextPayment m k b l
        (.inr (.release (gatedScope workstream) estUsd estTokens)) r) rest := by
      intro r
      refine ⟨hl.tx, ?_, ?_⟩
      · change (if InScope k (gatedScope workstream) then
          (⟨.closed, 0, l.purse.owed - m.est estUsd estTokens⟩ : Purse ℚ) else l.purse).reading = _
        split
        · rfl
        · exact hl.reading
      · change (if InScope k (gatedScope workstream) then
          (⟨.closed, 0, l.purse.owed - m.est estUsd estTokens⟩ : Purse ℚ) else l.purse).owed = _
        have howed := hl.owed
        unfold share at howed
        split <;> rename_i hscope
        · rw [if_pos hscope] at howed
          simp [howed]
        · rw [if_neg hscope, zero_add] at howed
          exact howed
    refine ⟨.inr ⟨hl.tx, hl.reading, fun hscope => ⟨hest, ?_⟩⟩, fun r => ?_⟩
    · rw [hl.owed, share, if_pos hscope]
      exact le_add_of_nonneg_right hrest
    · cases r with
      | ok v => exact hf _ (hafter (.ok ())) (Bool.or_false _)
      | error e => exact .inr (hR _ e (hafter (.error e)) (Bool.or_true _))

theorem holds_pay_bind {p : Payer α} {f : α → Payer β} (h : (payOutline m k b bound Q).Holds l p)
    (hret : ∀ l a, Q l (.ok a) → (payOutline m k b bound R).Holds l (f a))
    (hthrow : ∀ l e, Q l (.error e) → R l (.error e)) :
    (payOutline m k b bound R).Holds l (p.bind f) :=
  Outline.holds_bind (O := payOutline m k b bound Q) (fun _ _ h => h) (fun _ _ _ => rfl)
    (fun l a h => h.elim (fun hastray => holds_astray hastray _) (hret l a))
    (fun l e h => h.imp_right (hthrow l e)) h

/-- One statement. -/
theorem holds_stmt_bind {o : BudgetOp} {f : o.Res → Payer β} (ho : mayPay m k bound l (.inr o))
    (hf : ∀ v, (payOutline m k b bound R).Holds (nextPayment m k b l (.inr o) (.ok v)) (f v))
    (hR : ∀ e, R (nextPayment m k b l (.inr o) (.error e)) (.error e)) :
    (payOutline m k b bound R).Holds l ((stmt o).bind f) := by
  refine ⟨.inr ho, fun r => ?_⟩
  cases r with
  | ok v => exact hf v
  | error e => exact .inr (hR e)

theorem holds_commit_bind {tx : Nat} {f : Unit → Payer β} (hl : l.tx = some tx)
    (hf : (payOutline m k b bound R).Holds l.closed (f ()))
    (hR : ∀ e, R l.closed (.error e)) :
    (payOutline m k b bound R).Holds l ((stmt (.commit tx)).bind f) :=
  holds_stmt_bind hl (fun _ => hf) hR

end Programs

/-! ### The gate -/

section Gate

variable {m : Meter} {k : BudgetKey} {b : Budget} {bound owed : ℚ} {l : Payment} {a : EnforceArgs}

theorem countedBy_inj {k k' : BudgetKey} (h : countedBy k = countedBy k') : k.1 = k'.1 := by
  unfold countedBy at h
  split_ifs at h with hk hk' hk'
  · rw [hk, hk']
  · exact Option.some.inj h

/-- How the reading of the rows ends: the row was read, if it was locked. -/
def RowsRead (m : Meter) (k : BudgetKey) (b : Budget) (a : EnforceArgs) (tx : Nat)
    (rows : List (BudgetKey × BudgetRow)) (l l' : Payment) :
    Except Exn (List BudgetStatus) → Prop
  | .ok entries => l'.tx = some tx ∧ l'.purse.owed = l.purse.owed ∧
      ((rows.filter fun row => row.1 = k) = [] → l'.purse.reading = l.purse.reading) ∧
      ∀ row, (rows.filter fun row => row.1 = k) = [(k, row)] → row.budget = b →
        l.purse.reading = .reserved (m.reserved row) →
        ∃ spend, a.status k row spend ∈ entries ∧
          l'.purse.reading = .both (m.reserved row) (m.accrued spend)
  | .error _ => Idle l' l.purse.owed

theorem counted_tx (l : Payment) (spent : ℚ) : (l.counted spent).tx = l.tx := by
  unfold Payment.counted
  split <;> rfl

theorem counted_owed (l : Payment) (spent : ℚ) : (l.counted spent).purse.owed = l.purse.owed := by
  unfold Payment.counted
  split <;> rfl

theorem counted_of_reserved {r : ℚ} (h : l.purse.reading = .reserved r) (spent : ℚ) :
    (l.counted spent).purse.reading = .both r spent := by
  simp only [Payment.counted, h]

theorem holds_entries (hcapped : b.capped = true) {tx : Nat} (hl : l.tx = some tx)
    (rows : List (BudgetKey × BudgetRow)) :
    (payOutline m k b bound (RowsRead m k b a tx rows l)).Holds l (a.entries tx rows) := by
  induction rows generalizing l with
  | nil => exact .inr ⟨hl, rfl, fun _ => rfl, fun row h => nomatch h⟩
  | cons x rows ih =>
      obtain ⟨k₁, row₁⟩ := x
      by_cases hk : k₁ = k
      · subst hk
        have hfilter : (((k₁, row₁) :: rows).filter fun row => row.1 = k₁) =
            (k₁, row₁) :: rows.filter fun row => row.1 = k₁ := by simp
        cases hrow : row₁.budget.capped with
        | false =>
            rw [EnforceArgs.entries, if_neg (by rw [hrow]; exact Bool.false_ne_true)]
            rw [← Program.bind_ret (a.entries tx rows)]
            refine holds_pay_bind (ih hl) (fun l' entries hread => .inr ?_) fun l' e h => h
            obtain ⟨htx, howed, -, -⟩ := hread
            refine ⟨htx, howed, fun h => ?_, fun row h hbudget => ?_⟩
            · rw [hfilter] at h
              cases h
            · rw [hfilter] at h
              obtain ⟨hhead, -⟩ := List.cons.inj h
              rw [← (Prod.mk.inj hhead).2] at hbudget
              rw [hbudget, hcapped] at hrow
              cases hrow
        | true =>
            rw [EnforceArgs.entries, if_pos hrow]
            refine holds_stmt_bind hl (fun spend => ?_) fun e => ⟨rfl, rfl, rfl⟩
            rw [show nextPayment m k₁ b l (.inr (.spentInTx tx
                (if k₁.1 = orgWorkstream then none else some k₁.1) k₁.2)) (.ok spend) =
                l.counted (m.accrued spend) from if_pos ⟨rfl, rfl⟩]
            refine holds_pay_bind (ih ((counted_tx l _).trans hl))
              (fun l' entries hread => .inr ?_) fun l' e h => ?_
            · obtain ⟨htx, howed, hnone, -⟩ := hread
              refine ⟨htx, howed.trans (counted_owed l _), fun h => ?_,
                fun row h hbudget hreading => ⟨spend, ?_, ?_⟩⟩
              · rw [hfilter] at h
                cases h
              · rw [hfilter] at h
                obtain ⟨hhead, -⟩ := List.cons.inj h
                rw [← (Prod.mk.inj hhead).2]
                exact List.mem_cons_self
              · rw [hfilter] at h
                obtain ⟨hhead, hrest⟩ := List.cons.inj h
                rw [hnone hrest]
                exact counted_of_reserved hreading _
            · exact ⟨h.tx, h.reading, h.owed.trans (counted_owed l _)⟩
      · have hfilter : (((k₁, row₁) :: rows).filter fun row => row.1 = k) =
            rows.filter fun row => row.1 = k := by simp [hk]
        have hread : ∀ (before : List BudgetStatus) l' (entries : List BudgetStatus),
            RowsRead m k b a tx rows l l' (.ok entries) →
            RowsRead m k b a tx ((k₁, row₁) :: rows) l l' (.ok (before ++ entries)) := by
          rintro before l' entries ⟨htx, howed, hnone, hone⟩
          rw [RowsRead, hfilter]
          refine ⟨htx, howed, hnone, fun row h hbudget hreading => ?_⟩
          obtain ⟨spend, hmem, hboth⟩ := hone row h hbudget hreading
          exact ⟨spend, List.mem_append_right _ hmem, hboth⟩
        cases hrow : row₁.budget.capped with
        | false =>
            rw [EnforceArgs.entries, if_neg (by rw [hrow]; exact Bool.false_ne_true)]
            rw [← Program.bind_ret (a.entries tx rows)]
            exact holds_pay_bind (ih hl) (fun l' entries h => .inr (hread [] l' entries h))
              fun l' e h => h
        | true =>
            rw [EnforceArgs.entries, if_pos hrow]
            refine holds_stmt_bind hl (fun spend => ?_) fun e => ⟨rfl, rfl, rfl⟩
            rw [show nextPayment m k b l (.inr (.spentInTx tx
                (if k₁.1 = orgWorkstream then none else some k₁.1) k₁.2)) (.ok spend) = l from
              if_neg fun h => hk (Prod.ext (countedBy_inj h.1) h.2)]
            exact holds_pay_bind (ih hl)
              (fun l' entries h => .inr (hread [_] l' entries h)) fun l' e h => h

/-- How a gate leaves the process: it has reserved the estimate, or nothing. -/
def Enforced (m : Meter) (k : BudgetKey) (a : EnforceArgs) (owed : ℚ) (l : Payment) :
    Except Exn (List BudgetStatus) → Prop
  | .ok _ => Idle l (share m k (gatedScope a.workstream) a.estUsd a.estTokens + owed) ∧
      (Counts k a.workstream → l.purse.live = m.est a.estUsd a.estTokens)
  | .error _ => Idle l owed

theorem mem_ordered {entries : List BudgetStatus} {st : BudgetStatus} :
    st ∈ ordered entries ↔ st ∈ entries :=
  (List.perm_insertionSort _ _).mem_iff

/-- No verdict blocks the call on any of the entries. -/
theorem zones_of_verdict {entries : List BudgetStatus} (hover : EnforceArgs.over? entries = none)
    (hwithheld : a.withheld? entries = none) {st : BudgetStatus} (hst : st ∈ entries) :
    st.zone ≠ .overCap ∧ (a.purpose ∉ reservePurposes → st.zone ≠ .reserve) := by
  refine ⟨EnforceArgs.not_over_of_over?_eq_none hover st (mem_ordered.2 hst), fun hpurpose hzone => ?_⟩
  rw [EnforceArgs.withheld?, if_neg hpurpose] at hwithheld
  have := List.find?_eq_none.1 hwithheld st (mem_ordered.2 hst)
  simp [hzone] at this

theorem elsewhere_announce (entries : List BudgetStatus) : (a.announce entries).Only Elsewhere := by
  induction entries with
  | nil => exact .ret ()
  | cons st entries ih =>
      rw [EnforceArgs.announce]
      cases hzone : st.zoneEvent a.purpose with
      | error e => exact .throw e
      | ok payload =>
          exact (elsewhere_emitEvent (EnforceArgs.noCall_of_zoneEvent hzone)).bind fun _ => ih

/-- A refusal raises. -/
theorem holds_blockOver (hl : Idle l owed) (st : BudgetStatus) :
    (payOutline m k b bound (Enforced m k a owed)).Holds l (a.blockOver st) :=
  holds_elsewhere_bind (elsewhere_emitEvent fun _ h => nomatch h)
    (fun _ => holds_elsewhere_bind (elsewhere_requestApproval _ _) (fun _ => .inr hl) fun _ => hl)
    fun _ => hl

theorem holds_withhold (hl : Idle l owed) (st : BudgetStatus) :
    (payOutline m k b bound (Enforced m k a owed)).Holds l (a.withhold st) :=
  holds_elsewhere_bind (elsewhere_emitEvent fun _ h => nomatch h) (fun _ => .inr hl) fun _ => hl

/-- How the zone events end: nothing has changed, or the reservation is given back. -/
def Spoken (l : Payment) (owed : ℚ) (l' : Payment) : Except Exn Unit → Prop
  | .ok _ => l' = l
  | .error _ => Idle l' owed

/-- An allowed call keeps its reservation, or gives it back and raises. -/
theorem holds_allow (hest : 0 ≤ m.est a.estUsd a.estTokens) (howed : 0 ≤ owed)
    (hl : Idle l (share m k (gatedScope a.workstream) a.estUsd a.estTokens + owed))
    (hlive : Counts k a.workstream → l.purse.live = m.est a.estUsd a.estTokens)
    (entries : List BudgetStatus) :
    (payOutline m k b bound (Enforced m k a owed)).Holds l (a.allow true entries) := by
  have hspeak : (payOutline m k b bound fun l' (_ : Except Exn Unit) => l' = l).Holds l
      (a.announce (ordered entries)) :=
    holds_elsewhere (elsewhere_announce _) fun _ => rfl
  have hundo : ∀ e, (payOutline m k b bound (Spoken l owed)).Holds l (a.undo true e) := by
    intro e
    refine holds_release_bind hest howed hl (fun l' hidle _ => .inr ?_) fun l' e' hidle _ => hidle
    exact hidle
  have htry : (payOutline m k b bound (Spoken l owed)).Holds l
      ((a.announce (ordered entries)).tryCatch (a.undo true)) := by
    refine Outline.holds_tryCatch (O := payOutline m k b bound fun l' _ => l' = l)
      (fun _ _ h => h) (fun _ _ _ => rfl) ?_ ?_ hspeak
    · rintro l' u (hastray | rfl)
      · exact .inl hastray
      · exact .inr rfl
    · rintro l' e (hastray | rfl)
      · exact holds_astray hastray _
      · exact hundo e
  refine holds_pay_bind htry (fun l' u h => .inr ?_) fun l' e h => h
  obtain rfl : l' = l := h
  exact ⟨hl, hlive⟩

/-- The reservation of a call that no verdict blocks, and what follows it. -/
theorem holds_reserve (hbounds : Bounds m b a.purpose bound)
    (hest : 0 ≤ m.est a.estUsd a.estTokens) (howed : 0 ≤ owed) {tx : Nat} (hl : l.tx = some tx)
    (hlowed : l.purse.owed = owed) {entries : List BudgetStatus}
    (hover : EnforceArgs.over? entries = none) (hwithheld : a.withheld? entries = none)
    (hread : Counts k a.workstream → ∃ row spend, row.budget = b ∧
      a.status k row spend ∈ entries ∧
      l.purse.reading = .both (m.reserved row) (m.accrued spend)) :
    (payOutline m k b bound (Enforced m k a owed)).Holds l
      ((stmt (.reserve tx (gatedScope a.workstream) a.estUsd a.estTokens)).bind fun _ =>
        a.allow true entries) := by
  refine holds_stmt_bind ⟨hl, hest, fun hscope => ?_⟩ (fun keys => ?_) fun e => ?_
  · obtain ⟨row, spend, rfl, hmem, hreading⟩ := hread hscope
    refine ⟨_, _, hreading, ?_⟩
    obtain ⟨hzone, hreserve⟩ := zones_of_verdict hover hwithheld hmem
    rw [← m.level_status a k row spend]
    exact hbounds _ rfl rfl rfl hzone hreserve
  · by_cases hscope : Counts k a.workstream
    · rw [show nextPayment m k b l (.inr (.reserve tx (gatedScope a.workstream) a.estUsd
          a.estTokens)) (.ok keys) = { l.closed with purse := ⟨.closed, m.est a.estUsd a.estTokens,
            l.purse.owed + m.est a.estUsd a.estTokens⟩ } from if_pos hscope]
      refine holds_allow hest howed ⟨rfl, rfl, ?_⟩ (fun _ => rfl) entries
      rw [share, if_pos hscope, hlowed, add_comm]
    · rw [show nextPayment m k b l (.inr (.reserve tx (gatedScope a.workstream) a.estUsd
          a.estTokens)) (.ok keys) = l.closed from if_neg hscope]
      refine holds_allow hest howed ⟨rfl, rfl, ?_⟩ (fun h => absurd h hscope) entries
      rw [share, if_neg hscope, zero_add]
      exact hlowed
  · exact hlowed ▸ idle_closed l

/-- A lock of the scope reads the row, if the row is in it. -/
theorem reading_of_lock {tx : Nat} {rows : List (BudgetKey × BudgetRow)} {l₁ : Payment}
    {workstreams : List String} (hl : Idle l owed)
    (hl₁ : nextPayment m k b l (.inr (.lockRows workstreams)) (.ok (tx, rows)) = l₁)
    (hastray : ¬ l₁.astray = true) : l₁.tx = some tx ∧ l₁.purse.owed = owed ∧
      (InScope k workstreams → ∃ row, (rows.filter fun row => row.1 = k) = [(k, row)] ∧
        row.budget = b ∧ l₁.purse.reading = .reserved (m.reserved row)) := by
  have hlock : (if InScope k workstreams then l.locked m k b tx rows
    else { l with tx := some tx }) = l₁ := hl₁
  split_ifs at hlock with hscope
  · unfold Payment.locked at hlock
    split at hlock
    · rename_i k' row hfilter
      have hk : k' = k := by
        have hmem : (k', row) ∈ rows.filter fun row => row.1 = k := by
          rw [hfilter]
          exact List.mem_cons_self
        simpa using (List.mem_filter.1 hmem).2
      subst hk
      split at hlock
      · rename_i hbudget
        subst hlock
        exact ⟨rfl, hl.owed, fun _ => ⟨row, hfilter, hbudget, rfl⟩⟩
      · exact absurd (hlock ▸ rfl) hastray
    · exact absurd (hlock ▸ rfl) hastray
  · subst hlock
    exact ⟨rfl, hl.owed, fun h => absurd h hscope⟩

/-- **A gate** reserves only what it has read to fit under the bound. -/
theorem holds_enforce (hcapped : b.capped = true) (hbounds : Bounds m b a.purpose bound)
    (husd : 0 ≤ a.estUsd) (htokens : 0 < a.estTokens) (howed : 0 ≤ owed) (hl : Idle l owed) :
    (payOutline m k b bound (Enforced m k a owed)).Holds l a.enforce := by
  have hest : 0 ≤ m.est a.estUsd a.estTokens := m.est_nonneg husd htokens.le
  unfold EnforceArgs.enforce
  refine Outline.holds_ite (fun _ => .inr hl) fun _ => ?_
  refine holds_stmt_bind ⟨hl.tx, hl.reading⟩ (fun locked => ?_) fun e => hl
  obtain ⟨tx, rows⟩ := locked
  generalize hl₁ : nextPayment m k b l (.inr (.lockRows (gatedScope a.workstream)))
    (.ok (tx, rows)) = l₁
  by_cases hastray : l₁.astray = true
  · exact holds_astray hastray _
  obtain ⟨htx, howed₁, hread⟩ := reading_of_lock hl hl₁ hastray
  refine holds_pay_bind (holds_entries hcapped htx rows) (fun l₂ entries hrows => ?_)
    fun l₂ e h => ⟨h.tx, h.reading, h.owed.trans howed₁⟩
  obtain ⟨htx₂, howed₂, -, hstatus⟩ := hrows
  have hlowed : l₂.purse.owed = owed := howed₂.trans howed₁
  have hstatus' : Counts k a.workstream → ∃ row spend, row.budget = b ∧
      a.status k row spend ∈ entries ∧
      l₂.purse.reading = .both (m.reserved row) (m.accrued spend) := by
    intro hscope
    obtain ⟨row, hfilter, hbudget, hreading⟩ := hread hscope
    obtain ⟨spend, hmem, hboth⟩ := hstatus row hfilter hbudget hreading
    exact ⟨row, spend, hbudget, hmem, hboth⟩
  have hidle : Idle l₂.closed owed := hlowed ▸ idle_closed l₂
  unfold EnforceArgs.settle
  split
  · exact holds_commit_bind htx₂ (holds_blockOver hidle _) fun e => hidle
  · exact holds_commit_bind htx₂ (holds_withhold hidle _) fun e => hidle
  · rename_i hover hwithheld
    refine Outline.holds_ite (fun hempty => ?_) fun _ => Outline.holds_ite (fun hzero => ?_)
      fun _ => holds_reserve hbounds hest howed htx₂ hlowed hover hwithheld hstatus'
    · -- nothing is read only where the row is not in the scope
      have hscope : ¬ Counts k a.workstream := by
        intro hscope
        obtain ⟨row, spend, -, hmem, -⟩ := hstatus' hscope
        rw [List.isEmpty_iff.1 hempty] at hmem
        cases hmem
      refine holds_commit_bind htx₂ (.inr ⟨?_, fun h => absurd h hscope⟩) fun e => hidle
      rw [share, if_neg hscope, zero_add]
      exact hidle
    · exact absurd hzero.2 htokens.ne'

end Gate

/-! ### The call -/

section Call

variable {m : Meter} {k : BudgetKey} {b : Budget} {bound owed : ℚ} {l : Payment} {c : ModelCall}
  {α : Type}

/-- Every completion of the call costs at most what was estimated for it. -/
def ModelCall.Estimated (m : Meter) (c : ModelCall) : Prop :=
  ∀ again spec completion,
    (c.selectProvider again spec).complete spec.id = .completed completion →
      m.paid (c.notice spec (c.selectProvider again spec) completion) ≤
        m.est (c.estUsd spec) c.estTokens

/-- The part of reservations that falls on the row. -/
def shareAll (m : Meter) (k : BudgetKey) (workstream : String) (reservations : List (ℚ × Int)) : ℚ :=
  (reservations.map fun r => share m k (gatedScope workstream) r.1 r.2).sum

theorem est_call_nonneg (m : Meter) (c : ModelCall) (spec : ModelSpec) :
    0 ≤ m.est (c.estUsd spec) c.estTokens :=
  m.est_nonneg (c.estUsd_nonneg spec) c.estTokens_pos.le

theorem share_nonneg {workstreams : List String} {estUsd : ℚ} {estTokens : Int}
    (h : 0 ≤ m.est estUsd estTokens) : 0 ≤ share m k workstreams estUsd estTokens := by
  unfold share
  split
  · exact h
  · exact le_refl _

theorem shareAll_nonneg {workstream : String} {reservations : List (ℚ × Int)}
    (h : ∀ r ∈ reservations, 0 ≤ m.est r.1 r.2) : 0 ≤ shareAll m k workstream reservations := by
  refine List.sum_nonneg fun x hx => ?_
  obtain ⟨r, hr, rfl⟩ := List.mem_map.1 hx
  exact share_nonneg (h r hr)

/-- The releases of a call give back all its reservations, or one of them is struck. -/
theorem holds_releaseAll_bind {reservations : List (ℚ × Int)}
    (hest : ∀ r ∈ reservations, 0 ≤ m.est r.1 r.2)
    (hl : Idle l (shareAll m k c.workstream reservations)) {f : Unit → Payer α}
    {R : Payment → Except Exn α → Prop}
    (hf : ∀ l', Idle l' 0 → (payOutline m k b bound R).Holds l' (f ()))
    (hR : ∀ l' e, l'.short = true → R l' (.error e)) :
    (payOutline m k b bound R).Holds l ((c.releaseAll reservations).bind f) := by
  induction reservations generalizing l with
  | nil => exact hf l hl
  | cons r reservations ih =>
      obtain ⟨estUsd, estTokens⟩ := r
      rw [ModelCall.releaseAll, Program.bind_assoc]
      have hrest : ∀ r ∈ reservations, 0 ≤ m.est r.1 r.2 :=
        fun r hr => hest r (List.mem_cons_of_mem _ hr)
      exact holds_release_bind (hest _ List.mem_cons_self) (shareAll_nonneg hrest) hl
        (fun l' hidle _ => ih hrest hidle) fun l' e _ hshort => hR l' e hshort

/-- A call that is over: it owes the row nothing, unless a release of its was struck. -/
def Cleared {α : Type} (l : Payment) (_ : Except Exn α) : Prop := l.short = true ∨ Idle l 0

/-- What stands before the releases. -/
theorem holds_released {p : Payer α} {reservations : List (ℚ × Int)}
    (hest : ∀ r ∈ reservations, 0 ≤ m.est r.1 r.2)
    (hp : (payOutline m k b bound fun l (_ : Except Exn α) =>
      Idle l (shareAll m k c.workstream reservations)).Holds l p) :
    (payOutline m k b bound Cleared).Holds l (p.tryFinally (c.releaseAll reservations)) := by
  refine Outline.holds_tryFinally (O := payOutline m k b bound fun l _ =>
    Idle l (shareAll m k c.workstream reservations)) (fun _ _ h => h) (fun _ _ _ => rfl) ?_ ?_ hp
  · rintro l' a (hastray | hidle)
    · exact holds_astray hastray _
    · exact holds_releaseAll_bind hest hidle (fun l'' h => .inr (.inr h)) fun l'' e h => .inl h
  · rintro l' e (hastray | hidle)
    · exact holds_astray hastray _
    · exact holds_releaseAll_bind hest hidle (fun l'' h => .inr (.inr h)) fun l'' e h => .inl h

/-- The record of a completion spends what the call has reserved. -/
theorem holds_record {spec : ModelSpec} {provider : Provider} {completion : Completion}
    (hl : Idle l owed) (hpaid : Counts k c.workstream →
      m.paid (c.notice spec provider completion) ≤ l.purse.live) :
    (payOutline m k b bound fun l _ => Idle l owed).Holds l (c.record spec provider completion) := by
  unfold ModelCall.record emitEvent
  cases hname : requireWorkstream c.workstream with
  | error e => exact .inr hl
  | ok workstream =>
      have hsame : workstream.name = c.workstream := requireWorkstream_name hname
      have hnext : ∀ r : Except Exn Unit, Idle (nextPayment m k b l (.inl (.emit c.taskId workstream
          (.modelCall (c.notice spec provider completion)))) r) owed := by
        intro r
        change Idle (if Counts k workstream.name then _ else l : Payment) owed
        split
        · exact ⟨hl.tx, hl.reading, hl.owed⟩
        · exact hl
      refine ⟨.inr fun hcounts => hpaid (hsame ▸ hcounts), fun r => ?_⟩
      cases r with
      | error e => exact .inr (hnext (.error e))
      | ok v =>
          refine holds_elsewhere ?_ fun _ => hnext (.ok v)
          cases c.taskId with
          | none => exact .ret _
          | some id => exact (elsewhere_call (by rintro _ _ _ ⟨⟩)).bind fun _ => .ret _

theorem elsewhere_fail (spec : ModelSpec) (provider : Provider) (errorType : String) (e : Exn) :
    (c.fail spec provider errorType e).Only Elsewhere :=
  (elsewhere_emitEvent (by rintro _ ⟨⟩)).bind fun _ => .throw e

theorem holds_dispatchFallback {spec : ModelSpec} (hestimated : c.Estimated m) (hl : Idle l owed)
    (hlive : Counts k c.workstream → l.purse.live = m.est (c.estUsd spec) c.estTokens) :
    (payOutline m k b bound fun l _ => Idle l owed).Holds l (c.dispatchFallback spec) := by
  unfold ModelCall.dispatchFallback
  cases houtcome : (c.selectProvider true spec).complete spec.id with
  | completed completion =>
      simp only [houtcome]
      exact holds_record hl fun hcounts =>
        (hestimated true spec completion houtcome).trans_eq (hlive hcounts).symm
  | fallback message =>
      simp only [houtcome]
      exact holds_elsewhere (elsewhere_fail _ _ _ _) fun _ => hl
  | died errorType message =>
      simp only [houtcome]
      exact holds_elsewhere (elsewhere_fail _ _ _ _) fun _ => hl

variable (hcapped : b.capped = true) (hbounds : Bounds m b c.purpose bound)
  (hestimated : c.Estimated m)

include hcapped hbounds hestimated

theorem holds_retry {routed spec : ModelSpec}
    (hl : Idle l (shareAll m k c.workstream [c.reservation routed])) :
    (payOutline m k b bound Cleared).Holds l (c.retry routed spec) := by
  have hrouted : ∀ r ∈ [c.reservation routed], 0 ≤ m.est r.1 r.2 := by
    intro r hr
    rw [List.mem_singleton.1 hr]
    exact est_call_nonneg m c routed
  have hboth : ∀ r ∈ [c.reservation routed, c.reservation spec], 0 ≤ m.est r.1 r.2 := by
    intro r hr
    rcases List.mem_cons.1 hr with rfl | hr
    · exact est_call_nonneg m c routed
    · rw [List.mem_singleton.1 hr]
      exact est_call_nonneg m c spec
  have hgate : (payOutline m k b bound (Enforced m k (c.gateArgs true spec)
      (shareAll m k c.workstream [c.reservation routed]))).Holds l (c.gateArgs true spec).enforce :=
    holds_enforce hcapped hbounds (c.estUsd_nonneg spec) c.estTokens_pos (shareAll_nonneg hrouted) hl
  have hattempt : (payOutline m k b bound fun l (r : Except Exn (Except Exn (List BudgetStatus))) =>
      ∃ gated, r = .ok gated ∧ Enforced m k (c.gateArgs true spec)
        (shareAll m k c.workstream [c.reservation routed]) l gated).Holds l
      (c.gateArgs true spec).enforce.attempt :=
    Outline.holds_attempt (O := payOutline m k b bound (Enforced m k (c.gateArgs true spec)
      (shareAll m k c.workstream [c.reservation routed]))) (fun _ _ h => h) (fun _ _ _ => rfl)
      (fun l r h => h.imp_right fun h => ⟨r, rfl, h⟩) hgate
  unfold ModelCall.retry
  refine holds_pay_bind hattempt (fun l' gated h => ?_) fun l' e h => ?_
  · obtain ⟨gated', hok, henforced⟩ := h
    obtain rfl := Except.ok.inj hok
    cases gated with
    | error e =>
        exact holds_releaseAll_bind hrouted henforced (fun l'' h => .inr (.inr h)) fun l'' e h => .inl h
    | ok entries =>
        obtain ⟨hidle, hlive⟩ := henforced
        refine holds_released hboth (holds_dispatchFallback hestimated ⟨hidle.tx, hidle.reading, ?_⟩
          hlive)
        rw [hidle.owed]
        simp [shareAll, ModelCall.reservation, ModelCall.gateArgs, add_comm]
  · obtain ⟨gated, hok, -⟩ := h
    cases hok

theorem holds_dispatch {spec : ModelSpec}
    (hl : Idle l (shareAll m k c.workstream [c.reservation spec]))
    (hlive : Counts k c.workstream → l.purse.live = m.est (c.estUsd spec) c.estTokens) :
    (payOutline m k b bound Cleared).Holds l (c.dispatch spec) := by
  have hest : ∀ r ∈ [c.reservation spec], 0 ≤ m.est r.1 r.2 := by
    intro r hr
    rw [List.mem_singleton.1 hr]
    exact est_call_nonneg m c spec
  unfold ModelCall.dispatch
  cases houtcome : (c.selectProvider false spec).complete spec.id with
  | completed completion =>
      simp only [houtcome]
      exact holds_released hest (holds_record hl fun hcounts =>
        (hestimated false spec completion houtcome).trans_eq (hlive hcounts).symm)
  | died errorType message =>
      simp only [houtcome]
      exact holds_released hest (holds_elsewhere (elsewhere_fail _ _ _ _) fun _ => hl)
  | fallback message =>
      simp only [houtcome]
      cases c.registry.nextCandidate spec.tier spec.id with
      | none => exact holds_releaseAll_bind hest hl (fun l' h => .inr (.inr h)) fun l' e h => .inl h
      | some fallback => exact holds_retry hcapped hbounds hestimated hl

omit hcapped hbounds hestimated in
theorem noCall_decision (decision : RouteDecision) : decision.toPayload.NoCall := by
  intro notice h
  cases h

/-- **A model call keeps to its purse.** -/
theorem holds_callModel : (payOutline m k b bound Cleared).Holds {} c.callModel := by
  have hidle : Idle {} 0 := ⟨rfl, rfl, rfl⟩
  unfold ModelCall.callModel
  cases routeDecision c.registry c.budgetCtx c.taskType c.quality with
  | error e => exact .inr (.inr hidle)
  | ok decision =>
      refine holds_elsewhere_bind (elsewhere_emitEvent (noCall_decision decision)) (fun _ => ?_)
        fun _ => .inr hidle
      refine holds_pay_bind (holds_enforce hcapped hbounds (c.estUsd_nonneg _) c.estTokens_pos
        (le_refl 0) hidle) (fun l' entries h => ?_) fun l' e h => .inr h
      exact holds_dispatch hcapped hbounds hestimated h.1 h.2

end Call

end AiStudio.Runtime
