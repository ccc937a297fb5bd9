import AiStudio.Runtime.Ladder
import AiStudio.Runtime.Prerequisites
import AiStudio.Runtime.Window
import Mathlib.Data.List.DropRight

/-!
# The nudge before a re-kick

The stall episode of a task is one column, `nudged_at`. A heartbeat and a measured re-kick
close it, while the moves that park a task and bring it back do not, and a rung's write does
not look at it again. So a task is recovered after a nudge of its own claim as long as every
grab finds the episode closed and every rung finds the episode its scan saw
(`nudgedBefore_of_reach`).
-/

set_option autoImplicit false

namespace AiStudio.Runtime

open AiStudio.Data AiStudio.Concurrency

/-- The open nudge of a task. -/
def Store.nudge? (s : Store) (id : Uuid) : Option Time := (s.tasks.find? id).bind Task.nudgedAt

theorem Store.nudge?_of_find? {s : Store} {id : Uuid} {row : Task}
    (h : s.tasks.find? id = some row) : s.nudge? id = row.nudgedAt := by
  rw [nudge?, h, Option.bind_some]

/-- The task a nudge marked. -/
def StoreOp.nudged : (o : StoreOp) → Except Exn o.Res → Option Uuid
  | .nudgeTask id _, .ok (some _) => some id
  | _, _ => none

/-- The task a rung above the nudge re-kicked, escalated or abandoned. -/
def StoreOp.recovered : (o : StoreOp) → Except Exn o.Res → Option Uuid
  | .rekickTask id _, .ok (some _) => some id
  | .escalateStuckTask id .., .ok (some _) => some id
  | .failExhausted id .., .ok (some _) => some id
  | _, _ => none

/-- A nudge is neither a grab nor a heartbeat. -/
theorem StoreOp.of_nudged {o : StoreOp} {out : Except Exn o.Res} {id : Uuid}
    (h : o.nudged out = some id) : o.grabbed out = none ∧ o.beaten out = none := by
  cases o with
  | nudgeTask id' grace => exact ⟨rfl, rfl⟩
  | _ => cases h

/-! ## What a step does to the nudge -/

/-- A nudge that marks the row reports it. -/
theorem nudgeTask_reports {id : Uuid} {grace : Time} {s s' : Store} {r : Option Task} {row : Task}
    (h : nudgeTask id grace s = .ok (r, s')) (hrow : s.tasks.find? id = some row)
    (hheld : row.status.isHeld = true) (hfirst : row.nudgedAt = none) : r.isSome := by
  have hu : s.updateTask id (fun row => row.status.isHeld && row.nudgedAt.isNone)
      (·.nudge s.now) = some (row.nudge s.now, s.setTask id (row.nudge s.now)) := by
    simp [Store.updateTask, hrow, hheld, hfirst]
  simp only [nudgeTask, hu] at h
  obtain ⟨rfl, -⟩ := Prod.mk.inj (Except.ok.inj h)
  rfl

variable {P α : Type} [DecidableEq P]

/-- A heartbeat closes the nudge. -/
theorem nudge?_of_beaten {st : Step database P α} (hf : Fires st) {id : Uuid}
    (hbeat : st.op.beaten st.out = some id) : st.after.state.nudge? id = none := by
  obtain ⟨pid, op, out, before, after⟩ := st
  have hcommit := exec_or_abort hf
  dsimp only at hbeat hcommit ⊢
  rcases hcommit with ⟨v, rfl, hexec⟩ | ⟨e, rfl, -⟩
  · obtain ⟨workerId, row, -, -, -, -, hrow⟩ := exec_beaten hbeat hexec
    rw [Store.nudge?_of_find? hrow]
    rfl
  · cases op <;> cases hbeat

/-- **What a step does to the nudge of a task**: close it, keep it, or open it. -/
theorem step_nudge {st : Step database P α} (hf : Fires st) (id : Uuid) :
    st.after.state.nudge? id = none ∨
      (st.after.state.nudge? id = st.before.state.nudge? id ∧ st.op.beaten st.out ≠ some id) ∨
      (st.op.nudged st.out = some id ∧
        st.after.state.nudge? id = some st.before.state.now) := by
  by_cases hbeat : st.op.beaten st.out = some id
  · exact Or.inl (nudge?_of_beaten hf hbeat)
  have hkeep : ∀ {row row' : Task}, st.before.state.tasks.find? id = some row →
      st.after.state.tasks.find? id = some row' → row'.nudgedAt = row.nudgedAt →
      st.after.state.nudge? id = st.before.state.nudge? id := by
    intro row row' hrow hrow' heq
    rw [Store.nudge?_of_find? hrow', Store.nudge?_of_find? hrow, heq]
  cases step_rowEffect hf id with
  | same hsame => exact Or.inr (Or.inl ⟨by rw [Store.nudge?, hsame, Store.nudge?], hbeat⟩)
  | created a ws op fresh hrow => exact Or.inl (Store.nudge?_of_find? hrow)
  | wrote row row' found rewrites hrow =>
      cases rewrites with
      | beat workerId op => exact Or.inl (Store.nudge?_of_find? hrow)
      | nudged grace op held first =>
          refine Or.inr (Or.inr ⟨?_, Store.nudge?_of_find? hrow⟩)
          obtain ⟨pid, op', out, before, after⟩ := st
          have hcommit := exec_or_abort hf
          dsimp only at op hcommit found hrow ⊢
          subst op
          rcases hcommit with ⟨v, rfl, hexec⟩ | ⟨e, -, hs⟩
          · obtain ⟨task, rfl⟩ := Option.isSome_iff_exists.1
              (nudgeTask_reports hexec found held first)
            rfl
          · -- an aborted call would have left the row without a nudge
            rw [hs, found] at hrow
            have hopen := congrArg Task.nudgedAt (Option.some.inj hrow)
            rw [first] at hopen
            cases hopen
      | rekicked made op held =>
          cases made with
          | none => exact Or.inr (Or.inl ⟨hkeep found hrow rfl, hbeat⟩)
          | some made => exact Or.inl (Store.nudge?_of_find? hrow)
      | _ => exact Or.inr (Or.inl ⟨hkeep found hrow rfl, hbeat⟩)

/-! ## The nudge records an event -/

/-- The steps since the last grab or heartbeat of the task. -/
def sinceAlive (id : Uuid) (τ : List (Step database P α)) : List (Step database P α) :=
  τ.rtakeWhile fun st => st.op.grabbed st.out ≠ some id && st.op.beaten st.out ≠ some id

/-- The task was nudged after its last grab, with no heartbeat since, at least the grace
before the step. -/
def NudgedBefore (cfg : SweepConfig) (id : Uuid) (τ : List (Step database P α))
    (st : Step database P α) : Prop :=
  ∃ nd ∈ sinceAlive id τ, nd.op.nudged nd.out = some id ∧
    nd.before.state.now + cfg.nudgeGrace ≤ st.before.state.now

instance (cfg : SweepConfig) (id : Uuid) (τ : List (Step database P α)) (st : Step database P α) :
    Decidable (NudgedBefore cfg id τ st) :=
  inferInstanceAs (Decidable (∃ nd ∈ sinceAlive id τ, _ ∧ _))

/-- Every grab of the task finds its stall episode closed. -/
def GrabsAfresh (id : Uuid) (st : Step database P α) : Prop :=
  st.op.grabbed st.out = some id → st.before.state.nudge? id = none

instance (id : Uuid) (st : Step database P α) : Decidable (GrabsAfresh id st) :=
  inferInstanceAs (Decidable (_ → _))

/-- **The column records an event**: an open nudge was made since the last grab or heartbeat. -/
theorem nudged_of_nudge? {c c' : Config database P α} {τ : List (Step database P α)} {id : Uuid}
    (h : Reach c τ c') (hfresh : c.state.nudge? id = none) (hgrabs : ∀ st ∈ τ, GrabsAfresh id st)
    {time : Time} (hnudge : c'.state.nudge? id = some time) :
    ∃ nd ∈ sinceAlive id τ, nd.op.nudged nd.out = some id ∧ nd.before.state.now = time := by
  have key : (∀ st ∈ τ, GrabsAfresh id st) → ∀ time, c'.state.nudge? id = some time →
      ∃ nd ∈ sinceAlive id τ, nd.op.nudged nd.out = some id ∧ nd.before.state.now = time := by
    refine h.induct (motive := fun (τ : List (Step database P α)) (c' : Config database P α) =>
      (∀ st ∈ τ, GrabsAfresh id st) → ∀ time, c'.state.nudge? id = some time →
      ∃ nd ∈ sinceAlive id τ, nd.op.nudged nd.out = some id ∧ nd.before.state.now = time) ?_ ?_
    · intro _ time hopen
      rw [hfresh] at hopen
      cases hopen
    · intro τ₁ st _ hf ih hgrabs time hopen
      rcases step_nudge hf id with hclosed | ⟨hsame, hbeat⟩ | ⟨hnd, hnow⟩
      · rw [hclosed] at hopen
        cases hopen
      · rw [hsame] at hopen
        have hgrab : st.op.grabbed st.out ≠ some id := by
          intro hgrab
          rw [hgrabs st (by simp) hgrab] at hopen
          cases hopen
        obtain ⟨nd, hmem, hnd, htime⟩ := ih
          (fun st' hst' => hgrabs st' (List.mem_append_left _ hst')) time hopen
        refine ⟨nd, ?_, hnd, htime⟩
        rw [sinceAlive, List.rtakeWhile_concat_pos _ _ _ (by simp [hgrab, hbeat])]
        exact List.mem_append_left _ hmem
      · rw [hnow] at hopen
        obtain ⟨hgrab, hbeat⟩ := StoreOp.of_nudged hnd
        refine ⟨st, ?_, hnd, Option.some.inj hopen⟩
        rw [sinceAlive, List.rtakeWhile_concat_pos _ _ _ (by simp [hgrab, hbeat])]
        exact List.mem_append_right _ (List.mem_singleton_self st)
  exact key hgrabs time hnudge

/-! ## The sweeps read the column -/

/-- The call scans for stale tasks. -/
def StoreOp.scans : StoreOp → Bool
  | .findStaleTasks _ => true
  | _ => false

/-- The rows a scan found. -/
def StoreOp.sighted : (o : StoreOp) → Except Exn o.Res → List (Uuid × Task)
  | .findStaleTasks _, .ok stale => stale
  | _, _ => []

/-- The rows a scan finds are rows of the table. -/
theorem step_sighted {st : Step database P α} (hf : Fires st) {id : Uuid} {row : Task}
    (h : (id, row) ∈ st.op.sighted st.out) :
    st.op.scans = true ∧
      st.before.state.tasks.find? id = some row := by
  obtain ⟨pid, op, out, before, after⟩ := st
  have hcommit := exec_or_abort hf
  dsimp only at h hcommit ⊢
  cases op with
  | findStaleTasks threshold =>
      rcases hcommit with ⟨v, rfl, hexec⟩ | ⟨e, rfl, -⟩
      · obtain ⟨rfl, -⟩ := Prod.mk.inj (Except.ok.inj hexec)
        exact ⟨rfl, ((Store.mem_staleTasks _ _ _ _).1 h).1⟩
      · cases h
  | _ => cases h

namespace SweepConfig

variable {cfg : SweepConfig} {id : Uuid} {c c' : Config database P SweepResult}
  {τ : List (Step database P SweepResult)} {p : P} {now : Time}

/-- The rows in hand are those of a scan; any other call only drops some. -/
theorem mem_scanned_next {due : Task → Prop} {l : Sighting} {o : StoreOp}
    {out : Except Exn o.Res} {e : Uuid × Task}
    (h : e ∈ ((cfg.outline (α := α) due).next l o out).scanned) :
    e ∈ l.scanned ∨ e ∈ o.sighted out := by
  cases o with
  | findStaleTasks threshold =>
      cases out with
      | error e => cases h
      | ok stale => exact Or.inr h
  | taskMadeProgress id' => cases out <;> exact Or.inl h
  | nudgeTask id' grace => cases out <;> exact Or.inl (List.mem_of_mem_eraseP h)
  | rekickTask id' made => cases out <;> exact Or.inl (List.mem_of_mem_eraseP h)
  | escalateStuckTask id' reason count retries =>
      cases out <;> exact Or.inl (List.mem_of_mem_eraseP h)
  | failExhausted id' scanned maxRetries => cases out <;> exact Or.inl (List.mem_of_mem_eraseP h)
  | _ => exact Or.inl h

/-- A rung above the nudge is allowed for a due row in hand. -/
theorem due_of_recovered {due : Task → Prop} {l : Sighting} {o : StoreOp}
    {out : Except Exn o.Res} (hallow : (cfg.outline (α := α) due).allows l o)
    (hrec : o.recovered out = some id) : ∃ row, (id, row) ∈ l.scanned ∧ due row := by
  cases o with
  | rekickTask id' made =>
      obtain ⟨row, -, hmem, hdue, -⟩ := hallow
      rcases out with e | (_ | task)
      · cases hrec
      · cases hrec
      · obtain rfl : id' = id := Option.some.inj hrec
        exact ⟨row, hmem, hdue⟩
  | escalateStuckTask id' reason count retries =>
      obtain ⟨row, hmem, hdue⟩ := hallow
      rcases out with e | (_ | task)
      · cases hrec
      · cases hrec
      · obtain rfl : id' = id := Option.some.inj hrec
        exact ⟨row, hmem, hdue⟩
  | failExhausted id' scanned maxRetries =>
      rcases out with e | (_ | task)
      · cases hrec
      · cases hrec
      · obtain rfl : id' = id := Option.some.inj hrec
        exact ⟨scanned, hallow.1, hallow.2⟩
  | _ => cases hrec

/-- **A rung above the nudge is written for a row of the sweep's scan that was due.** -/
theorem due_scan_of_recovered {st : Step database P SweepResult}
    (hsweep : c.pool st.pid = cfg.sweep now) (h : Reach c τ st.before) (hf : Fires st)
    (hrec : st.op.recovered st.out = some id) :
    ∃ sc ∈ τ, sc.pid = st.pid ∧ sc.op.scans = true ∧
      ∃ row, sc.before.state.tasks.find? id = some row ∧ cfg.Due now row := by
  let O : Outline database (Option Sighting) SweepResult := (cfg.outline (cfg.Due now)).orFree
  let ls₀ : P → Option Sighting := fun p => if p = st.pid then some {} else none
  have h₀ : ∀ p, O.Holds (ls₀ p) (c.pool p) := by
    intro p
    by_cases hp : p = st.pid
    · subst hp
      rw [hsweep, show ls₀ st.pid = some {} from if_pos rfl]
      exact Outline.holds_orFree_some (holds_sweep (fun _ hdue => hdue) {})
    · rw [show ls₀ p = none from if_neg hp]
      exact Outline.holds_orFree_none _ _
  -- the rows in hand are rows of a scan of the process
  have key : ∃ l, O.track ls₀ τ st.pid = some l ∧ ∀ row, (id, row) ∈ l.scanned →
      ∃ sc ∈ τ, sc.pid = st.pid ∧ sc.op.scans = true ∧
        sc.before.state.tasks.find? id = some row := by
    refine h.induct (motive := fun (τ : List (Step database P SweepResult))
        (_ : Config database P SweepResult) =>
      ∃ l, O.track ls₀ τ st.pid = some l ∧ ∀ row, (id, row) ∈ l.scanned →
        ∃ sc ∈ τ, sc.pid = st.pid ∧ sc.op.scans = true ∧
          sc.before.state.tasks.find? id = some row) ?_ ?_
    · exact ⟨{}, if_pos rfl, fun row hmem => nomatch hmem⟩
    · intro τ₁ sc hr hsc ⟨l, hl, ih⟩
      have hold : ∀ row, (id, row) ∈ l.scanned →
          ∃ sc' ∈ τ₁ ++ [sc], sc'.pid = st.pid ∧
            sc'.op.scans = true ∧
            sc'.before.state.tasks.find? id = some row := by
        intro row hmem
        obtain ⟨sc', hsc', hrest⟩ := ih row hmem
        exact ⟨sc', List.mem_append_left _ hsc', hrest⟩
      rw [Outline.track_concat]
      by_cases hpid : sc.pid = st.pid
      · refine ⟨(cfg.outline (α := SweepResult) (cfg.Due now)).next l sc.op sc.out, ?_, ?_⟩
        · rw [← hpid, Outline.advance_self, hpid, hl]
          rfl
        · intro row hmem
          rcases mem_scanned_next hmem with hmem | hmem
          · exact hold row hmem
          · obtain ⟨hop, hrow⟩ := step_sighted hsc hmem
            exact ⟨sc, by simp, hpid, hop, hrow⟩
      · refine ⟨l, ?_, hold⟩
        rw [O.advance_ne _ sc fun h => hpid h.symm, hl]
  obtain ⟨l, hl, hscan⟩ := key
  have hallow := (Outline.holds_step hf (Outline.holds_reach h h₀)).1
  rw [hl] at hallow
  obtain ⟨row, hmem, hdue⟩ := due_of_recovered (α := SweepResult) hallow hrec
  obtain ⟨sc, hsc, hpid, hop, hrow⟩ := hscan row hmem
  exact ⟨sc, hsc, hpid, hop, row, hrow, hdue⟩

/-! ## Nudge before every re-kick -/

/-- Sweeps interleaved with any other processes: which process sweeps, and the clock it read
before its scan. -/
structure Sweeping (cfg : SweepConfig) (c : Config database P SweepResult)
    (τ : List (Step database P SweepResult)) where
  clock : P → Option Time
  sweeps : ∀ p now, clock p = some now → c.pool p = cfg.sweep now
  /-- The clock read before the scan does not run ahead of the database. -/
  past : ∀ st ∈ τ, ∀ now ∈ clock st.pid, now ≤ st.before.state.now

/-- A rung of a sweep above the nudge finds the stall episode that its scan found. -/
def Sweeping.SameEpisode (sw : Sweeping cfg c τ) (id : Uuid) : Prop :=
  ∀ sc st, [sc, st].Sublist τ → sc.pid = st.pid → (sw.clock st.pid).isSome →
    sc.op.scans = true → st.op.recovered st.out = some id →
    st.before.state.nudge? id = sc.before.state.nudge? id

/-- **Nudge before every re-kick**, for the runs in which every grab finds the stall episode
closed and every rung finds the episode of its scan. -/
theorem nudgedBefore_of_reach (hgrace : 0 < cfg.nudgeGrace) (hfresh : c.state.nudge? id = none)
    (h : Reach c τ c') (sw : Sweeping cfg c τ) (hgrabs : ∀ st ∈ τ, GrabsAfresh id st)
    (hsame : sw.SameEpisode id) {τ₁ τ₂ : List (Step database P SweepResult)}
    {st : Step database P SweepResult} (hτ : τ = τ₁ ++ st :: τ₂)
    (hsweep : (sw.clock st.pid).isSome) (hrec : st.op.recovered st.out = some id) :
    NudgedBefore cfg id τ₁ st := by
  obtain ⟨now, hnow⟩ := Option.isSome_iff_exists.1 hsweep
  have hst : st ∈ τ := by rw [hτ]; simp
  have hpast := sw.past st hst now hnow
  rw [hτ] at h
  obtain ⟨hf, hr, -⟩ := h.split_at
  obtain ⟨sc, hsc, hpid, hop, row, hrow, hdue⟩ :=
    due_scan_of_recovered (sw.sweeps _ _ hnow) hr hf hrec
  obtain ⟨nudged, hnudged, hle⟩ := hdue hgrace
  have hsub : [sc, st].Sublist τ := by
    rw [hτ]
    exact (List.singleton_sublist.2 hsc).append (List.singleton_sublist.2 List.mem_cons_self)
  have hopen : st.before.state.nudge? id = some nudged := by
    rw [hsame sc st hsub hpid hsweep hop hrec, Store.nudge?_of_find? hrow, hnudged]
  obtain ⟨nd, hnd, hmarks, htime⟩ := nudged_of_nudge? hr hfresh
    (fun st' hst' => hgrabs st' (by rw [hτ]; exact List.mem_append_left _ hst')) hopen
  refine ⟨nd, hnd, hmarks, ?_⟩
  rw [htime]
  exact (Int.add_le_of_le_sub_left hle).trans hpast

/-! ## A claim with a nudge of its own, and one without -/

/-- Two sweeps, 200 s and 400 s after the start. -/
def sweepClock : Fin 3 → Option Time
  | 0 => none
  | 1 => some 200000000
  | 2 => some 400000000

/-- A worker beside the two sweeps. -/
def besideSweeps (worker : Process SweepResult) : Config database (Fin 3) SweepResult :=
  ⟨oneTask, fun
    | 0 => worker
    | 1 => sweep {} 200000000
    | 2 => sweep {} 400000000⟩

theorem besideSweeps_sweeps (worker : Process SweepResult) :
    ∀ p now, sweepClock p = some now → (besideSweeps worker).pool p = sweep {} now
  | 1, now, h => by
      obtain rfl : 200000000 = now := Option.some.inj h
      rfl
  | 2, now, h => by
      obtain rfl : 400000000 = now := Option.some.inj h
      rfl

/-- A worker claims a task and dies. -/
def dyingWorker : Process SweepResult := do
  let _ ← claimTask { workerId := "w1" } []
  let _ ← call (.tick 200000000)
  let _ ← call (.tick 200000000)
  return {}

/-- The first sweep nudges the claim, the second re-kicks it. -/
def dyingTurns : List (Choice (Fin 3) Exn) :=
  List.replicate 3 (0, none) ++ List.replicate 2 (1, none) ++ [(0, none)] ++
    List.replicate 2 (2, none)

/-- The sweeps of the run. -/
def dyingSweeping :
    Sweeping {} (besideSweeps dyingWorker) ((besideSweeps dyingWorker).trace
      (dyingTurns ++ [(2, none)])) where
  clock := sweepClock
  sweeps := besideSweeps_sweeps dyingWorker
  past := by decide

/-- The re-kick. -/
def dyingStep : Step database (Fin 3) SweepResult :=
  ((besideSweeps dyingWorker).trace (dyingTurns ++ [(2, none)])).get ⟨8, by decide⟩

theorem nudgedBefore_of_reach_dyingWorker :
    NudgedBefore {} taskT ((besideSweeps dyingWorker).trace dyingTurns) dyingStep := by
  have hpairs : ∀ st ∈ (besideSweeps dyingWorker).trace (dyingTurns ++ [(2, none)]),
      ∀ sc ∈ (besideSweeps dyingWorker).trace (dyingTurns ++ [(2, none)]), sc.pid = st.pid →
        sc.op.scans = true → st.op.recovered st.out = some taskT →
        st.before.state.nudge? taskT = sc.before.state.nudge? taskT := by
    decide
  have hsplit : (besideSweeps dyingWorker).trace (dyingTurns ++ [(2, none)]) =
      (besideSweeps dyingWorker).trace dyingTurns ++ dyingStep :: [] :=
    Config.trace_append _ _ _
  refine nudgedBefore_of_reach (by decide) rfl
    (Reach.of_run (besideSweeps dyingWorker) (dyingTurns ++ [(2, none)])) dyingSweeping
    (by decide) ?_ hsplit rfl (by decide)
  intro sc st hsub hpid _ hscan hrec
  exact hpairs st (hsub.subset (by simp)) sc (hsub.subset (by simp)) hpid hscan hrec

/-- A silent worker parks its task; the task comes back and is claimed again. -/
def parkingWorker : Process SweepResult := do
  let _ ← claimTask { workerId := "w1" } []
  let _ ← call (.tick 200000000)
  let _ ← blockTask taskT taskT ""
  let _ ← requeueBlockedTask taskT
  let _ ← claimTask { workerId := "w2" } []
  let _ ← call (.tick 200000000)
  return {}

/-- The first sweep nudges the first claim; the second scans the second claim. -/
def parkingTurns : List (Choice (Fin 3) Exn) :=
  List.replicate 3 (0, none) ++ List.replicate 2 (1, none) ++ List.replicate 5 (0, none) ++
    List.replicate 2 (2, none)

/-- The step after them. -/
def parkingStep : Step database (Fin 3) SweepResult :=
  ((besideSweeps parkingWorker).trace (parkingTurns ++ [(2, none)])).get ⟨12, by decide⟩

/-- **A sweep re-kicks a claim that was never nudged.** -/
theorem nudgedBefore_fails_of_parking :
    (besideSweeps parkingWorker).trace (parkingTurns ++ [(2, none)]) =
        (besideSweeps parkingWorker).trace parkingTurns ++ [parkingStep] ∧
      (sweepClock parkingStep.pid).isSome ∧
      parkingStep.op.recovered parkingStep.out = some taskT ∧
      ¬ NudgedBefore {} taskT ((besideSweeps parkingWorker).trace parkingTurns) parkingStep :=
  ⟨Config.trace_append _ _ _, rfl, by decide, by decide⟩

end SweepConfig

end AiStudio.Runtime
