import AiStudio.Runtime.Lifecycle
import AiStudio.Runtime.Recovery
import AiStudio.Runtime.Rows

/-!
# The window between a scan and its writes

A sweep scans once and writes later, one transaction a task. This module asks what a rung's
write re-validates: it looks at the status of the row, and the nudge at an open nudge, but
neither at the heartbeat nor at the claimant. So a heartbeat between the scan and the write
spares the task only where something else ends its claim too (`spared_iff`).
-/

set_option autoImplicit false

namespace AiStudio.Runtime

open AiStudio.Data AiStudio.Concurrency

/-- The call is the write of a rung on the task. -/
def StoreOp.climbs (o : StoreOp) (id : Uuid) : Bool :=
  match o with
  | .nudgeTask id' _ => id' = id
  | .rekickTask id' _ => id' = id
  | .escalateStuckTask id' .. => id' = id
  | .failExhausted id' .. => id' = id
  | _ => false

/-- What a rung's write re-validates fails for the row: the task is not held, or for a
nudge that one is open. -/
def StoreOp.skips (o : StoreOp) (row : Task) : Bool :=
  !row.status.isHeld ||
    match o with
    | .nudgeTask .. => row.nudgedAt.isSome
    | _ => false

/-! ## What a rung's write checks -/

variable {s s' : Store} {id : Uuid}

/-- A rung that skips leaves the row alone. -/
theorem climbs_skips {o : StoreOp} {r : o.Res} {row : Task} (hclimb : o.climbs id = true)
    (hskip : o.skips row = true) (hrow : s.tasks.find? id = some row)
    (h : o.exec s = .ok (r, s')) : s'.tasks.find? id = some row := by
  have hfree : ∀ row', s.tasks.find? id = some row' → row' = row := fun row' hrow' =>
    Option.some.inj (hrow'.symm.trans hrow)
  cases exec_rowEffect h id with
  | same hsame => rw [hsame, hrow]
  | created a ws op fresh hnew =>
      rw [hrow] at fresh
      cases fresh
  | wrote row₁ row' found rewrites hwrote =>
      obtain rfl := hfree row₁ found
      cases rewrites with
      | moved m hid makes admits plain =>
          cases o <;> first
            | exact makes.elim
            | exact absurd hclimb Bool.false_ne_true
            | exact absurd plain.1.symm Bool.false_ne_true
            | exact absurd plain.2.symm Bool.false_ne_true
      | beat workerId op => subst op; cases hclimb
      | spent tokens op => subst op; cases hclimb
      | patched status reason workTaskIds op => subst op; cases hclimb
      | nudged grace op held first =>
          subst op
          simp [StoreOp.skips, held, first] at hskip
      | rekicked made op held =>
          subst op
          simp [StoreOp.skips, held] at hskip
      | escalated reason count retries op held =>
          subst op
          simp [StoreOp.skips, held] at hskip
      | failed scanned maxRetries op held =>
          subst op
          simp [StoreOp.skips, held] at hskip

/-- A rung that does not skip writes the row. -/
theorem climbs_writes {o : StoreOp} {r : o.Res} {row : Task} (hclimb : o.climbs id = true)
    (hskip : o.skips row = false) (hrow : s.tasks.find? id = some row)
    (h : o.exec s = .ok (r, s')) : s'.tasks.find? id ≠ some row := by
  simp only [StoreOp.skips, Bool.or_eq_false_iff, Bool.not_eq_false'] at hskip
  obtain ⟨hheld, hfirst⟩ := hskip
  -- every rung but the nudge ends the hold
  have hends : ∀ {s₁ : Store} {row₁ : Task}, s₁.tasks.find? id = some row₁ →
      row₁.status.isHeld = false → s₁.tasks.find? id ≠ some row := by
    intro s₁ row₁ hrow₁ hended heq
    obtain rfl := Option.some.inj (hrow₁.symm.trans heq)
    rw [hheld] at hended
    cases hended
  cases o with
  | nudgeTask id' grace =>
      obtain rfl : id' = id := of_decide_eq_true hclimb
      have hnone : row.nudgedAt = none := by simpa using hfirst
      obtain ⟨r₁, s₁, hexec, hrow₁⟩ := nudgeTask_held grace hrow hheld hnone
      obtain ⟨-, rfl⟩ := Prod.mk.inj (Except.ok.inj (hexec.symm.trans h))
      intro heq
      have hopen := congrArg Task.nudgedAt (Option.some.inj (hrow₁.symm.trans heq))
      rw [hnone] at hopen
      cases hopen
  | rekickTask id' made =>
      obtain rfl : id' = id := of_decide_eq_true hclimb
      obtain ⟨r₁, s₁, row₁, hexec, hrow₁, hst⟩ := rekickTask_held made hrow hheld
      obtain ⟨-, rfl⟩ := Prod.mk.inj (Except.ok.inj (hexec.symm.trans h))
      exact hends hrow₁ (by rw [hst]; rfl)
  | escalateStuckTask id' reason count retries =>
      obtain rfl : id' = id := of_decide_eq_true hclimb
      obtain ⟨r₁, s₁, row₁, hexec, hrow₁, hst⟩ := escalateStuckTask_held reason count retries hrow hheld
      obtain ⟨-, rfl⟩ := Prod.mk.inj (Except.ok.inj (hexec.symm.trans h))
      exact hends hrow₁ (by rw [hst]; rfl)
  | failExhausted id' scanned maxRetries =>
      obtain rfl : id' = id := of_decide_eq_true hclimb
      obtain ⟨r₁, s₁, row₁, hexec, hrow₁, hst⟩ := failExhausted_held scanned maxRetries hrow hheld
      obtain ⟨-, rfl⟩ := Prod.mk.inj (Except.ok.inj (hexec.symm.trans h))
      exact hends hrow₁ (by rw [hst]; rfl)
  | _ => cases hclimb

/-! ## A heartbeat in the window -/

/-- The task a heartbeat refreshed. -/
def StoreOp.beaten : (o : StoreOp) → Except Exn o.Res → Option Uuid
  | .heartbeat id _, .ok (some _) => some id
  | _, _ => none

/-- A heartbeat that goes through is its claimant's, and leaves no nudge open. -/
theorem exec_beaten {o : StoreOp} {r : o.Res} (hbeat : o.beaten (.ok r) = some id)
    (h : o.exec s = .ok (r, s')) :
    ∃ workerId row, o = .heartbeat id workerId ∧ s.tasks.find? id = some row ∧
      row.claimedBy = some workerId ∧ row.status.isHeld = true ∧
      s'.tasks.find? id = some (row.beat s.now) := by
  cases o with
  | heartbeat id' workerId =>
      change heartbeat id' workerId s = .ok (r, s') at h
      unfold heartbeat at h
      split at h
      · obtain ⟨rfl, -⟩ := Prod.mk.inj (Except.ok.inj h)
        cases hbeat
      · rename_i hu
        obtain ⟨rfl, rfl⟩ := Prod.mk.inj (Except.ok.inj h)
        obtain rfl : id' = id := Option.some.inj hbeat
        obtain ⟨row, hrow, hguard, -, rfl⟩ := Store.updateTask_eq_some hu
        simp only [Bool.and_eq_true, decide_eq_true_eq] at hguard
        exact ⟨workerId, row, rfl, hrow, hguard.1, hguard.2, s.find?_setTask_self _ _ _ hrow⟩
  | _ => cases hbeat

variable {P : Type} [DecidableEq P]

/-- A sweep of the process `p` scans, a heartbeat of the task commits, and the sweep
commits the write of a rung on the task. -/
structure BeatenWindow (cfg : SweepConfig) (now : Time) (c : Config database P SweepResult)
    (τ : List (Step database P SweepResult)) (p : P) (id : Uuid) where
  scan : Step database P SweepResult
  beat : Step database P SweepResult
  write : Step database P SweepResult
  sweeps : c.pool p = cfg.sweep now
  order : [scan, beat, write].Sublist τ
  scans : scan.pid = p ∧ scan.op = .findStaleTasks cfg.threshold
  beats : beat.op.beaten beat.out = some id
  climbs : write.pid = p ∧ write.op.climbs id = true
  committed : ∃ v, write.out = .ok v

namespace BeatenWindow

variable {cfg : SweepConfig} {now : Time} {c c' : Config database P SweepResult}
  {τ : List (Step database P SweepResult)} {p : P}

/-- The rung neither nudges, re-kicks, escalates nor abandons the task. -/
def Spared (w : BeatenWindow cfg now c τ p id) : Prop :=
  w.write.after.state.tasks.find? id = w.write.before.state.tasks.find? id

end BeatenWindow

/-- **When a heartbeat in the window spares the task**: exactly when the write finds the
task no longer held, or the nudge finds another one open. Left alone after its heartbeat, a
task is never spared. -/
theorem spared_iff {cfg : SweepConfig} {now : Time} {c c' : Config database P SweepResult}
    {τ : List (Step database P SweepResult)} {p : P} (h : Reach c τ c')
    (w : BeatenWindow cfg now c τ p id) :
    (w.Spared ↔ ∃ row, w.write.before.state.tasks.find? id = some row ∧
      w.write.op.skips row = true) ∧
    (w.write.before.state.tasks.find? id = w.beat.after.state.tasks.find? id → ¬ w.Spared) := by
  obtain ⟨hbeat, hwrite, τ', hgap⟩ := h.between ((List.sublist_cons_self _ _).trans w.order)
  -- the heartbeat went through
  obtain ⟨row, hrow⟩ : ∃ row : Task,
      w.beat.after.state.tasks.find? id = some (row.beat w.beat.before.state.now) ∧
        row.status.isHeld = true := by
    rcases exec_or_abort hbeat with ⟨v, hv, hexec⟩ | ⟨e, he, -⟩
    · have hb := w.beats
      rw [hv] at hb
      obtain ⟨workerId, row, -, -, -, hheld, hrow⟩ := exec_beaten hb hexec
      exact ⟨row, hrow, hheld⟩
    · have hb := w.beats
      rw [he] at hb
      cases hop : w.beat.op <;> rw [hop] at hb <;> cases hb
  obtain ⟨v, hexec⟩ := exec_of_committed hwrite w.committed rfl
  have hiff : w.Spared ↔ ∃ row, w.write.before.state.tasks.find? id = some row ∧
      w.write.op.skips row = true := by
    obtain ⟨cur, hcur⟩ := Option.isSome_iff_exists.1
      (find?_isSome_reach hgap (by rw [hrow.1]; rfl : (w.beat.after.state.tasks.find? id).isSome))
    unfold BeatenWindow.Spared
    rw [hcur]
    constructor
    · intro hsame
      cases hskip : w.write.op.skips cur with
      | true => exact ⟨cur, rfl, hskip⟩
      | false => exact absurd hsame (climbs_writes w.climbs.2 hskip hcur hexec)
    · rintro ⟨row, hrow, hskip⟩
      obtain rfl := Option.some.inj hrow
      exact climbs_skips w.climbs.2 hskip hcur hexec
  refine ⟨hiff, fun halone hspared => ?_⟩
  obtain ⟨cur, hcur, hskip⟩ := hiff.1 hspared
  rw [halone, hrow.1] at hcur
  obtain rfl := Option.some.inj hcur
  simp only [StoreOp.skips, Bool.or_eq_true, Bool.not_eq_true'] at hskip
  rcases hskip with hfree | hopen
  · exact absurd hrow.2 (by rw [show row.status.isHeld = false from hfree]; exact nofun)
  · cases hop : w.write.op <;> rw [hop] at hopen <;> cases hopen

/-! ## A live worker is re-kicked -/

/-- A task held by a worker that has been silent since time 0, and was nudged then. -/
def silentTask : Store :=
  Store.single taskT
    { freshTask 0 with
      status := .inProgress
      claimedBy := some "w1"
      heartbeatAt := some 0
      nudgedAt := some 0 } 200000000

/-- A sweep, and the heartbeat of the claimant. -/
def racingSweep : Config database Bool SweepResult :=
  ⟨silentTask, fun
    | true => SweepConfig.sweep {} 200000000
    | false => (call (.heartbeat taskT "w1")).bind fun _ => .ret {}⟩

/-- The sweep scans, the claimant beats, the sweep measures progress and re-kicks. -/
def racingTurns : List (Choice Bool Exn) :=
  [(true, none), (false, none), (true, none), (true, none)]

theorem length_racingTrace : (racingSweep.trace racingTurns).length = 4 := by decide

/-- One step of the race. -/
def racingStep (n : Fin 4) : Step database Bool SweepResult :=
  (racingSweep.trace racingTurns).get (n.cast length_racingTrace.symm)

theorem racingOrder :
    [racingStep 0, racingStep 1, racingStep 3].Sublist (racingSweep.trace racingTurns) := by
  have hsorted : [Fin.cast length_racingTrace.symm 0, Fin.cast length_racingTrace.symm 1,
      Fin.cast length_racingTrace.symm 3].Pairwise (· < ·) := by decide
  exact List.map_getElem_sublist hsorted

/-- The heartbeat lies in the window of the re-kick. -/
def racingWindow :
    BeatenWindow {} 200000000 racingSweep (racingSweep.trace racingTurns) true taskT where
  scan := racingStep 0
  beat := racingStep 1
  write := racingStep 3
  sweeps := rfl
  order := racingOrder
  scans := ⟨rfl, rfl⟩
  beats := by decide
  climbs := by decide
  committed := ⟨_, rfl⟩

/-- **A sweep re-kicks a task whose claimant's heartbeat came in time.** -/
theorem live_task_is_rekicked :
    racingWindow.beat.op.beaten racingWindow.beat.out = some taskT ∧
      racingWindow.beat.after.state.status? taskT = some .inProgress ∧
      racingWindow.write.after.state.status? taskT = some .upForGrabs ∧
      ¬ racingWindow.Spared := by
  refine ⟨by decide, by decide, by decide, ?_⟩
  intro h
  have hst := congrArg (Option.map Task.status) h
  exact absurd hst (by decide)

theorem spared_iff_racingSweep : ¬ racingWindow.Spared :=
  (spared_iff (Reach.of_run racingSweep racingTurns) racingWindow).2 rfl

end AiStudio.Runtime
