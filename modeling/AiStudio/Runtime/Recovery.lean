import AiStudio.Runtime.Supervisor

/-!
# What sweeps do to a task

A sweep leaves the tasks that are not stale alone and moves each stale one up the ladder
(`round_stale`). A held task cannot stay held: the time until it is stale, and then the
grace of its nudge, run out (`held_ends`).
-/

set_option autoImplicit false

namespace AiStudio.Runtime

open AiStudio.Data AiStudio.Concurrency

/-! ## One task of a sweep -/

/-- The call handles the task `id` for the supervisor. -/
def StoreOp.recovers (o : StoreOp) (id : Uuid) : Prop :=
  match o with
  | .nudgeTask id' _ => id' = id
  | .taskMadeProgress id' => id' = id
  | .rekickTask id' _ => id' = id
  | .escalateStuckTask id' .. => id' = id
  | .failExhausted id' .. => id' = id
  | _ => False

namespace Store.SameTasksBut

variable {s s' s'' : Store} {id : Uuid}

protected theorem refl (s : Store) (id : Uuid) : s.SameTasksBut s id := fun _ _ => rfl

protected theorem trans (h : s.SameTasksBut s' id) (h' : s'.SameTasksBut s'' id) :
    s.SameTasksBut s'' id := fun id' hne => (h' id' hne).trans (h id' hne)

theorem emit (h : s.SameTasksBut s' id) (taskId : Option Uuid) (ws : Workstream) (p : Payload) :
    s.SameTasksBut (s'.appendEvent taskId ws p) id := h

theorem setTask (s : Store) (id : Uuid) (row : Task) : s.SameTasksBut (s.setTask id row) id :=
  fun _ hne => s.find?_setTask_ne id row hne

theorem updateTask {guard : Task → Bool} {f : Task → Task} {row : Task}
    (h : s.updateTask id guard f = some (row, s')) : s.SameTasksBut s' id := by
  obtain ⟨old, -, -, -, rfl⟩ := Store.updateTask_eq_some h
  exact setTask s id _

theorem transition {target : TaskStatus} {a : TransitionArgs} {r : Option Task}
    (h : Runtime.transition id target a s = .ok (r, s')) : s.SameTasksBut s' id := by
  rcases transition_cases h with ⟨-, rfl, -⟩ | ⟨row, -, -, rfl⟩
  · exact .refl _ _
  · exact fun _ hne => s.find?_recordTransition_ne id row target a hne

theorem transition_signal {target : TaskStatus} {a : TransitionArgs} {ws : Task → Workstream}
    {payload : Task → Payload} {r : Option Task}
    (h : (Runtime.transition id target a s).map (signal id ws payload) = .ok (r, s')) :
    s.SameTasksBut s' id := by
  cases ht : Runtime.transition id target a s with
  | error e =>
      rw [ht] at h
      cases h
  | ok x =>
      obtain ⟨t, s₁⟩ := x
      rw [ht] at h
      cases t with
      | none =>
          obtain ⟨-, rfl⟩ := Prod.mk.inj (Except.ok.inj h)
          exact transition ht
      | some task =>
          obtain ⟨-, rfl⟩ := Prod.mk.inj (Except.ok.inj h)
          exact (transition ht).emit _ _ _

end Store.SameTasksBut

theorem nudgeTask_others {id : Uuid} {grace : Time} {s s' : Store} {r : Option Task}
    (h : nudgeTask id grace s = .ok (r, s')) : s.SameTasksBut s' id := by
  unfold nudgeTask at h
  split at h
  · obtain ⟨-, rfl⟩ := Prod.mk.inj (Except.ok.inj h)
    exact .refl _ _
  · rename_i hu
    obtain ⟨-, rfl⟩ := Prod.mk.inj (Except.ok.inj h)
    exact (Store.SameTasksBut.updateTask hu).emit _ _ _

theorem escalateStuckTask_others {id : Uuid} {reason : String} {count retries : Nat}
    {s s' : Store} {r : Option Task}
    (h : escalateStuckTask id reason count retries s = .ok (r, s')) : s.SameTasksBut s' id := by
  unfold escalateStuckTask at h
  split at h
  · obtain ⟨-, rfl⟩ := Prod.mk.inj (Except.ok.inj h)
    exact .refl _ _
  · rename_i hu
    exact (Store.SameTasksBut.updateTask hu).trans (.transition_signal h)

theorem rekickTask_others {id : Uuid} {made : Option Bool} {s s' : Store} {r : Option Task}
    (h : rekickTask id made s = .ok (r, s')) : s.SameTasksBut s' id := by
  unfold rekickTask at h
  split at h
  · obtain ⟨-, rfl⟩ := Prod.mk.inj (Except.ok.inj h)
    exact .refl _ _
  · split at h
    · obtain ⟨-, rfl⟩ := Prod.mk.inj (Except.ok.inj h)
      exact .refl _ _
    · cases ht : transition id .upForGrabs rekickArgs s with
      | error e =>
          simp only [ht] at h
          cases h
      | ok x =>
          obtain ⟨t, s₁⟩ := x
          have hothers : s.SameTasksBut s₁ id := .transition ht
          simp only [ht, bind, Except.bind] at h
          split at h
          · obtain ⟨-, rfl⟩ := Prod.mk.inj (Except.ok.inj h)
            exact hothers
          · split at h
            · obtain ⟨-, rfl⟩ := Prod.mk.inj (Except.ok.inj h)
              exact hothers.emit _ _ _
            · obtain ⟨-, rfl⟩ := Prod.mk.inj (Except.ok.inj h)
              exact (hothers.trans (.setTask _ _ _)).emit _ _ _

/-- A call of the supervisor writes the row of its task and events, nothing else. -/
theorem recovers_others {o : StoreOp} {id : Uuid} (hrec : o.recovers id) {s s' : Store}
    {r : o.Res} (h : o.exec s = .ok (r, s')) : s.SameTasksBut s' id ∧ Frame [.tasks] s s' := by
  have hframe := exec_frame h
  cases o with
  | nudgeTask id' grace =>
      obtain rfl : id' = id := hrec
      exact ⟨nudgeTask_others h, hframe⟩
  | taskMadeProgress id' =>
      obtain ⟨-, rfl⟩ := Prod.mk.inj (Except.ok.inj h)
      exact ⟨.refl _ _, .refl _ _⟩
  | rekickTask id' made =>
      obtain rfl : id' = id := hrec
      exact ⟨rekickTask_others h, hframe⟩
  | escalateStuckTask id' reason count retries =>
      obtain rfl : id' = id := hrec
      exact ⟨escalateStuckTask_others h, hframe⟩
  | failExhausted id' scanned maxRetries =>
      obtain rfl : id' = id := hrec
      exact ⟨.transition_signal h, hframe⟩
  | _ => exact hrec.elim

/-- Programs that only handle the task `id` for the supervisor. -/
def recoveryOutline {α : Type} (id : Uuid) : Outline database Unit α where
  allows _ o := o.recovers id
  next _ _ _ := ()
  ends _ _ := True

namespace SweepConfig

variable (cfg : SweepConfig)

theorem holds_climb (now : Time) (id : Uuid) (row : Task) (result : SweepResult) :
    (recoveryOutline id).Holds () (cfg.climb now id row result) := by
  have hlast : ∀ (o : StoreOp) (f : o.Res → SweepResult), o.recovers id →
      (recoveryOutline id).Holds () ((call o).bind fun r => .ret (f r)) := fun o f ho =>
    ⟨ho, fun r => by cases r <;> trivial⟩
  unfold climb
  split
  · exact hlast (.nudgeTask id cfg.nudgeGrace) _ rfl
  · split
    · trivial
    · split
      · exact hlast (.escalateStuckTask id _ _ _) _ rfl
      · split
        · exact hlast (.failExhausted id row cfg.maxRetries) _ rfl
        · refine ⟨rfl, fun r => ?_⟩
          cases r with
          | error e => trivial
          | ok made => exact hlast (.rekickTask id (some made)) _ rfl

/-- **Handling a task leaves the others alone.** -/
theorem climb_others (now : Time) (id : Uuid) (row : Task) (result : SweepResult) (s : Store) :
    s.SameTasksBut ((cfg.climb now id row result).eval s).2 id ∧
      Frame [.tasks] s ((cfg.climb now id row result).eval s).2 := by
  refine Outline.eval_invariant (fun s' => s.SameTasksBut s' id ∧ Frame [.tasks] s s') ?_
    (fun _ _ _ _ h => h) (cfg.holds_climb now id row result) ⟨.refl s id, .refl _ s⟩
  intro _ o s₁ r s₂ ho h₁ hexec
  obtain ⟨hothers, hframe⟩ := recovers_others ho hexec
  exact ⟨h₁.1.trans hothers, h₁.2.trans hframe⟩

/-! ## The rungs -/

/-- What one rung does to a stale held row: open a nudge, wait, or end the attempt. -/
inductive Climbed (now : Time) (row row' : Task) : Prop where
  | nudged (grace : 0 < cfg.nudgeGrace) (first : row.nudgedAt = none) (h : row' = row.nudge now)
  | deferred (grace : 0 < cfg.nudgeGrace)
      (waiting : nudgeGraceElapsed row now cfg.nudgeGrace = false) (h : row' = row)
  | ended (h : row'.status = .upForGrabs ∨ row'.status = .abandoned)

end SweepConfig

/-- A held row can be abandoned. -/
theorem moves_abandonHeld {s : Store} {id : Uuid} {row : Task} {result : Doc}
    (hrow : s.tasks.find? id = some row) (hheld : row.status.isHeld = true) :
    Moves s id .abandoned (abandonHeld result) row := by
  refine ⟨hrow, ?_, ?_, Or.inr ?_, rfl⟩ <;>
    rcases (isHeld_iff _).1 hheld with hst | hst <;> rw [hst] <;> first | rfl | exact nofun

/-- The first nudge of a stall. -/
theorem nudgeTask_held {s : Store} {id : Uuid} {row : Task} (grace : Time)
    (hrow : s.tasks.find? id = some row) (hheld : row.status.isHeld = true)
    (hfirst : row.nudgedAt = none) :
    ∃ r s', nudgeTask id grace s = .ok (r, s') ∧
      s'.tasks.find? id = some (row.nudge s.now) := by
  have hu : s.updateTask id (fun row => row.status.isHeld && row.nudgedAt.isNone)
      (·.nudge s.now) = some (row.nudge s.now, s.setTask id (row.nudge s.now)) := by
    simp [Store.updateTask, hrow, hheld, hfirst]
  refine ⟨some (row.nudge s.now), (s.setTask id (row.nudge s.now)).appendEvent (some id)
    row.workstream (.taskNudge row.status grace), ?_, s.find?_setTask_self id row _ hrow⟩
  simp only [nudgeTask, hu]
  rfl

/-- A move that goes through, with its signal. -/
theorem Moves.signalled {s : Store} {id : Uuid} {target : TaskStatus} {a : TransitionArgs}
    {row : Task} (hm : Moves s id target a row) (ws : Task → Workstream)
    (payload : Task → Payload) :
    ∃ r s', (transition id target a s).map (signal id ws payload) = .ok (r, s') ∧
      s'.tasks.find? id = some (a.update s.now target row) := by
  rw [hm.transition_eq]
  exact ⟨_, _, rfl, s.find?_recordTransition_self id row target a hm.found⟩

theorem escalateStuckTask_held {s : Store} {id : Uuid} {row : Task} (reason : String)
    (count retries : Nat) (hrow : s.tasks.find? id = some row)
    (hheld : row.status.isHeld = true) :
    ∃ r s' row', escalateStuckTask id reason count retries s = .ok (r, s') ∧
      s'.tasks.find? id = some row' ∧ row'.status = .abandoned := by
  have hu : s.updateTask id (·.status.isHeld) (·.stall reason s.now) =
      some (row.stall reason s.now, s.setTask id (row.stall reason s.now)) := by
    simp [Store.updateTask, hrow, hheld]
  have hstalled := s.find?_setTask_self id row (row.stall reason s.now) hrow
  have hm : Moves (s.setTask id (row.stall reason s.now)) id .abandoned
    (abandonHeld (stuckResult reason count retries)) (row.stall reason s.now) :=
    moves_abandonHeld hstalled hheld
  obtain ⟨r, s', hexec, hrow'⟩ := hm.signalled (·.workstream) fun task =>
    .taskStuck task.status reason count retries
  refine ⟨r, s', _, ?_, hrow', rfl⟩
  simp only [escalateStuckTask, hu]
  exact hexec

theorem failExhausted_held {s : Store} {id : Uuid} {row : Task} (scanned : Task)
    (maxRetries : Nat) (hrow : s.tasks.find? id = some row) (hheld : row.status.isHeld = true) :
    ∃ r s' row', failExhausted id scanned maxRetries s = .ok (r, s') ∧
      s'.tasks.find? id = some row' ∧ row'.status = .abandoned := by
  have hm : Moves s id .abandoned (abandonHeld (exhaustedResult scanned.retries maxRetries)) row :=
    moves_abandonHeld hrow hheld
  obtain ⟨r, s', hexec, hrow'⟩ := hm.signalled (fun _ => scanned.workstream) fun _ =>
    .taskFailedExhausted .abandoned scanned.retries maxRetries
  exact ⟨r, s', _, hexec, hrow', rfl⟩

theorem rekickTask_held {s : Store} {id : Uuid} {row : Task} (made : Option Bool)
    (hrow : s.tasks.find? id = some row) (hheld : row.status.isHeld = true) :
    ∃ r s' row', rekickTask id made s = .ok (r, s') ∧
      s'.tasks.find? id = some row' ∧ row'.status = .upForGrabs := by
  have hm : Moves s id .upForGrabs rekickArgs row := by
    refine ⟨hrow, rfl, ?_, Or.inr ?_, rfl⟩ <;>
      rcases (isHeld_iff _).1 hheld with hst | hst <;> rw [hst] <;> first | rfl | exact nofun
  have hmoved := s.find?_recordTransition_self id row .upForGrabs rekickArgs hrow
  cases made with
  | none =>
      have hexec : ∃ r s', rekickTask id none s = .ok (r, s') ∧
          s'.tasks = (s.recordTransition id row .upForGrabs rekickArgs).tasks := by
        simp only [rekickTask, hrow, hheld, hm.transition_eq]
        exact ⟨_, _, rfl, rfl⟩
      obtain ⟨r, s', hexec, htasks⟩ := hexec
      exact ⟨r, s', _, hexec, by rw [htasks]; exact hmoved, rfl⟩
  | some made =>
      have hmarked := Store.find?_setTask_self _ _ _
        ((rekickArgs.update s.now .upForGrabs row).watermark made s.now) hmoved
      have hexec : ∃ r s', rekickTask id (some made) s = .ok (r, s') ∧
          s'.tasks = ((s.recordTransition id row .upForGrabs rekickArgs).setTask id
            ((rekickArgs.update s.now .upForGrabs row).watermark made s.now)).tasks := by
        simp only [rekickTask, hrow, hheld, hm.transition_eq]
        exact ⟨_, _, rfl, rfl⟩
      obtain ⟨r, s', hexec, htasks⟩ := hexec
      exact ⟨r, s', _, hexec, by rw [htasks]; exact hmarked, rfl⟩

namespace SweepConfig

variable (cfg : SweepConfig)

/-- **Handling a stale held task moves it up one rung.** -/
theorem climb_row {s : Store} {id : Uuid} {row : Task} (hrow : s.tasks.find? id = some row)
    (hheld : row.status.isHeld = true) (result : SweepResult) :
    ∃ row', ((cfg.climb s.now id row result).eval s).2.tasks.find? id = some row' ∧
      cfg.Climbed s.now row row' := by
  -- each rung is one call whose result only goes into the report
  have hlast : ∀ {o : StoreOp} {r : o.Res} {s₁ s' : Store} (f : o.Res → SweepResult),
      o.exec s₁ = .ok (r, s') →
      (((call o).bind fun r => .ret (f r)).eval s₁).2 = s' := fun f hexec => by
    rw [Program.eval_bind_ok (Program.eval_op_ok hexec), Program.eval_ret]
  unfold climb
  split
  · rename_i hnudge
    obtain ⟨r, s', hexec, hrow'⟩ := nudgeTask_held cfg.nudgeGrace hrow hheld hnudge.2
    refine ⟨_, ?_, .nudged hnudge.1 hnudge.2 rfl⟩
    rw [← hrow', ← hlast (o := .nudgeTask id cfg.nudgeGrace) _ hexec]
    rfl
  · split
    · rename_i hwait
      exact ⟨row, hrow, .deferred hwait.1 hwait.2 rfl⟩
    · split
      · obtain ⟨r, s', row', hexec, hrow', hst⟩ := escalateStuckTask_held
          (if row.stallReason.getD "" = "" then "no_progress" else row.stallReason.getD "")
          row.noProgressRekicks row.retries hrow hheld
        refine ⟨row', ?_, .ended (Or.inr hst)⟩
        rw [← hrow', ← hlast (o := .escalateStuckTask id _ _ _) _ hexec]
        rfl
      · split
        · obtain ⟨r, s', row', hexec, hrow', hst⟩ := failExhausted_held row
            cfg.maxRetries hrow hheld
          refine ⟨row', ?_, .ended (Or.inr hst)⟩
          rw [← hrow', ← hlast (o := .failExhausted id row cfg.maxRetries) _ hexec]
          rfl
        · obtain ⟨r, s', row', hexec, hrow', hst⟩ := rekickTask_held
            (some (s.madeProgress id)) hrow hheld
          refine ⟨row', ?_, .ended (Or.inl hst)⟩
          rw [← hrow', ← hlast (o := .rekickTask id (some (s.madeProgress id))) _ hexec]
          rfl

end SweepConfig

/-! ## A sweep -/

/-- The stale tasks have distinct ids. -/
theorem Store.nodup_staleTasks (s : Store) (threshold : Time) :
    ((s.staleTasks threshold).map Prod.fst).Nodup := by
  have hselect : ((s.tasks.select fun _ row => row.isStale s.now threshold).map Prod.fst).Nodup :=
    s.tasks.nodup.sublist (List.filter_sublist.map _)
  exact ((List.perm_insertionSort _ _).map _).nodup_iff.2 hselect

namespace SweepConfig

variable (cfg : SweepConfig)

/-- A sweep handles its tasks one after the other, whatever they raise. -/
theorem sweepEach_cons (now : Time) (id : Uuid) (row : Task) (rest : List (Uuid × Task))
    (result : SweepResult) (s : Store) :
    ∃ before after : SweepResult, (cfg.sweepEach now result ((id, row) :: rest)).eval s =
      (cfg.sweepEach now after rest).eval ((cfg.climb now id row before).eval s).2 := by
  obtain ⟨after, hafter⟩ := Program.eval_tryCatch_ret_bind
    (cfg.climb now id row { result with scanned := result.scanned + 1 })
    { result with scanned := result.scanned + 1 }
    (fun result => cfg.sweepEach now result rest) s
  exact ⟨_, after, hafter⟩

/-- A sweep writes tasks only. -/
theorem sweepEach_frame (now : Time) (tasks : List (Uuid × Task)) (result : SweepResult)
    (s : Store) : Frame [.tasks] s ((cfg.sweepEach now result tasks).eval s).2 := by
  induction tasks generalizing result s with
  | nil => exact .refl _ _
  | cons entry rest ih =>
      obtain ⟨id, row⟩ := entry
      obtain ⟨before, after, hcons⟩ := cfg.sweepEach_cons now id row rest result s
      rw [hcons]
      exact (cfg.climb_others now id row before s).2.trans (ih _ _)

/-- A sweep leaves the tasks it does not handle alone. -/
theorem sweepEach_others (now : Time) {tasks : List (Uuid × Task)} {id : Uuid}
    (hid : id ∉ tasks.map Prod.fst) (result : SweepResult) (s : Store) :
    ((cfg.sweepEach now result tasks).eval s).2.tasks.find? id = s.tasks.find? id := by
  induction tasks generalizing result s with
  | nil => rfl
  | cons entry rest ih =>
      obtain ⟨id', row⟩ := entry
      rw [List.map_cons, List.mem_cons, not_or] at hid
      obtain ⟨before, after, hcons⟩ := cfg.sweepEach_cons now id' row rest result s
      rw [hcons, ih hid.2]
      exact (cfg.climb_others now id' row before s).1 id hid.1

/-- **A sweep moves each task it handles up one rung.** -/
theorem sweepEach_row {tasks : List (Uuid × Task)} (hnodup : (tasks.map Prod.fst).Nodup)
    {id : Uuid} {row : Task} (hmem : (id, row) ∈ tasks) (hheld : row.status.isHeld = true)
    {s : Store} (hrow : s.tasks.find? id = some row) (result : SweepResult) :
    ∃ row', ((cfg.sweepEach s.now result tasks).eval s).2.tasks.find? id = some row' ∧
      cfg.Climbed s.now row row' := by
  have key : ∀ (now : Time) (tasks : List (Uuid × Task)) (result : SweepResult) (s : Store),
      (tasks.map Prod.fst).Nodup → (id, row) ∈ tasks → s.now = now →
      s.tasks.find? id = some row →
      ∃ row', ((cfg.sweepEach now result tasks).eval s).2.tasks.find? id = some row' ∧
        cfg.Climbed now row row' := by
    intro now tasks
    induction tasks with
    | nil => exact fun _ _ _ hmem => nomatch hmem
    | cons entry rest ih =>
        intro result s hnodup hmem hnow hrow
        obtain ⟨id', row'⟩ := entry
        rw [List.map_cons, List.nodup_cons] at hnodup
        obtain ⟨before, after, hcons⟩ := cfg.sweepEach_cons now id' row' rest result s
        rw [hcons]
        have hclimb := cfg.climb_others now id' row' before s
        by_cases hid : id = id'
        · subst hid
          have hrest : ∀ row, (id, row) ∉ rest := fun row h =>
            hnodup.1 (List.mem_map.2 ⟨(id, row), h, rfl⟩)
          obtain rfl : row = row' := by
            rcases List.mem_cons.1 hmem with heq | hin
            · exact (Prod.mk.inj heq).2
            · exact absurd hin (hrest row)
          subst hnow
          rw [cfg.sweepEach_others s.now hnodup.1]
          exact cfg.climb_row hrow hheld before
        · refine ih after _ hnodup.2 ?_ ?_ ?_
          · rcases List.mem_cons.1 hmem with heq | hin
            · exact absurd (Prod.mk.inj heq).1 hid
            · exact hin
          · rw [hclimb.2.clock rfl, hnow]
          · rw [hclimb.1 id hid, hrow]
  exact key s.now tasks result s hnodup hmem rfl hrow

/-! ## A round -/

/-- The state a round sweeps. -/
def later (elapsed : Nat) (s : Store) : Store := { s with now := s.now + elapsed }

theorem round_eq (elapsed : Nat) (s : Store) :
    cfg.round elapsed s = ((cfg.sweepEach (s.now + elapsed) {}
      ((later elapsed s).staleTasks cfg.threshold)).eval (later elapsed s)).2 := rfl

/-- A round writes tasks and the clock only. -/
theorem round_frame (elapsed : Nat) (s : Store) :
    (cfg.round elapsed s).now = s.now + elapsed ∧
      (cfg.round elapsed s).approvals = s.approvals ∧
      (cfg.round elapsed s).decisions = s.decisions := by
  have hframe := cfg.sweepEach_frame (s.now + elapsed)
    ((later elapsed s).staleTasks cfg.threshold) {} (later elapsed s)
  rw [round_eq]
  exact ⟨hframe.clock rfl, hframe.approvals rfl, (hframe.decisions rfl).1⟩

variable {cfg}

/-- A round leaves a task that is not stale alone. -/
theorem round_fresh {elapsed : Nat} {s : Store} {id : Uuid} {row : Task}
    (hrow : s.tasks.find? id = some row)
    (hfresh : row.isStale (s.now + elapsed) cfg.threshold = false) :
    (cfg.round elapsed s).tasks.find? id = some row := by
  rw [round_eq, sweepEach_others]
  · exact hrow
  · intro hmem
    obtain ⟨⟨id', row'⟩, hin, rfl⟩ := List.mem_map.1 hmem
    obtain ⟨hfound, hstale⟩ := (Store.mem_staleTasks _ _ _ _).1 hin
    obtain rfl := Option.some.inj (hrow.symm.trans hfound)
    cases hfresh.symm.trans hstale

/-- **A round moves a stale task up one rung.** -/
theorem round_stale {elapsed : Nat} {s : Store} {id : Uuid} {row : Task}
    (hrow : s.tasks.find? id = some row)
    (hstale : row.isStale (s.now + elapsed) cfg.threshold = true) :
    ∃ row', (cfg.round elapsed s).tasks.find? id = some row' ∧
      cfg.Climbed (s.now + elapsed) row row' := by
  have hheld : row.status.isHeld = true := by
    simp only [Task.isStale, Bool.and_eq_true] at hstale
    exact hstale.1
  have hmem : (id, row) ∈ (later elapsed s).staleTasks cfg.threshold :=
    (Store.mem_staleTasks _ _ _ _).2 ⟨hrow, hstale⟩
  exact cfg.sweepEach_row (s := later elapsed s) (Store.nodup_staleTasks _ _) hmem hheld hrow {}

/-! ## How long a task stays held -/

variable (cfg)

/-- How long a held task may wait for its rung: until it is stale, and then until the
grace of its nudge has run out. -/
def timeLeft (now : Time) (row : Task) : Nat :=
  (row.heartbeatAt.elim 0 fun beat => (beat + cfg.threshold + 1 - now).toNat) +
    if 0 < cfg.nudgeGrace then
      row.nudgedAt.elim (cfg.nudgeGrace.toNat + 1) fun nudged =>
        (nudged + cfg.nudgeGrace - now).toNat
    else 0

variable {cfg}

/-- Before it is stale, the first wait shortens, and the second does not grow. -/
theorem timeLeft_fresh {row : Task} (hheld : row.status.isHeld = true) {now elapsed : Int}
    (hpos : 1 ≤ elapsed) (hfresh : row.isStale (now + elapsed) cfg.threshold = false) :
    cfg.timeLeft (now + elapsed) row < cfg.timeLeft now row := by
  simp only [Task.isStale, hheld, Bool.true_and] at hfresh
  unfold timeLeft
  cases hbeat : row.heartbeatAt with
  | none =>
      rw [hbeat] at hfresh
      cases hfresh
  | some beat =>
      simp only [hbeat, Option.all_some, decide_eq_false_iff_not, not_lt] at hfresh
      have hbound : (now + elapsed - cfg.threshold : Int) ≤ beat := hfresh
      cases row.nudgedAt <;> simp only [Option.elim] <;> split <;> omega

/-- A first nudge shortens the second wait by one. -/
theorem timeLeft_nudge {row : Task} {now elapsed : Int} (hpos : 1 ≤ elapsed)
    (hgrace : 0 < cfg.nudgeGrace) (hfirst : row.nudgedAt = none) :
    cfg.timeLeft (now + elapsed) (row.nudge (now + elapsed)) < cfg.timeLeft now row := by
  simp only [timeLeft, Task.nudge, hfirst, if_pos hgrace, Option.elim]
  cases row.heartbeatAt <;> simp only <;> omega

/-- Within its grace, the second wait shortens. -/
theorem timeLeft_deferred {row : Task} {now elapsed : Int} (hpos : 1 ≤ elapsed)
    (hgrace : 0 < cfg.nudgeGrace)
    (hwaiting : nudgeGraceElapsed row (now + elapsed) cfg.nudgeGrace = false) :
    cfg.timeLeft (now + elapsed) row < cfg.timeLeft now row := by
  cases hnudged : row.nudgedAt with
  | none =>
      rw [nudgeGraceElapsed, hnudged] at hwaiting
      cases hwaiting
  | some nudged =>
      simp only [nudgeGraceElapsed, hnudged, Option.all_some, decide_eq_false_iff_not,
        not_le] at hwaiting
      have hbound : (now + elapsed - nudged : Int) < cfg.nudgeGrace := hwaiting
      simp only [timeLeft, hnudged, if_pos hgrace, Option.elim]
      cases row.heartbeatAt <;> simp only <;> omega

variable (cfg)

/-- **A round ends the attempt of a held task or shortens its wait.** -/
theorem round_held {elapsed : Nat} (hpos : 1 ≤ elapsed) {s : Store} {id : Uuid} {row : Task}
    (hrow : s.tasks.find? id = some row) (hheld : row.status.isHeld = true) :
    ∃ row', (cfg.round elapsed s).tasks.find? id = some row' ∧
      ((row'.status = .upForGrabs ∨ row'.status = .abandoned) ∨
        row'.status = row.status ∧
          cfg.timeLeft (cfg.round elapsed s).now row' < cfg.timeLeft s.now row) := by
  rw [(cfg.round_frame elapsed s).1]
  have helapsed : (1 : Int) ≤ elapsed := by exact_mod_cast hpos
  cases hstale : row.isStale (s.now + elapsed) cfg.threshold with
  | false =>
      exact ⟨row, round_fresh hrow hstale, Or.inr ⟨rfl, timeLeft_fresh hheld helapsed hstale⟩⟩
  | true =>
      obtain ⟨row', hrow', hclimbed⟩ := round_stale hrow hstale
      refine ⟨row', hrow', ?_⟩
      cases hclimbed with
      | ended h => exact Or.inl h
      | nudged grace first h =>
          subst h
          exact Or.inr ⟨rfl, timeLeft_nudge helapsed grace first⟩
      | deferred grace waiting h =>
          subst h
          exact Or.inr ⟨rfl, timeLeft_deferred helapsed grace waiting⟩

/-- A task that is not held stays as it is. -/
theorem rounds_notHeld {elapsed : Nat → Nat} {s : Store} {id : Uuid} {row : Task} {k : Nat}
    (hrow : (cfg.rounds elapsed s k).tasks.find? id = some row)
    (hheld : row.status.isHeld = false) {m : Nat} (hm : k ≤ m) :
    (cfg.rounds elapsed s m).tasks.find? id = some row := by
  induction m, hm using Nat.le_induction with
  | base => exact hrow
  | succ m _ ih =>
      refine round_fresh ih ?_
      rw [Task.isStale, hheld, Bool.false_and]

/-- Rounds leave approvals and decisions alone. -/
theorem rounds_frame (elapsed : Nat → Nat) (s : Store) (n : Nat) :
    (cfg.rounds elapsed s n).approvals = s.approvals ∧
      (cfg.rounds elapsed s n).decisions = s.decisions := by
  induction n with
  | zero => exact ⟨rfl, rfl⟩
  | succ n ih =>
      obtain ⟨-, happrovals, hdecisions⟩ := cfg.round_frame (elapsed n) (cfg.rounds elapsed s n)
      exact ⟨happrovals.trans ih.1, hdecisions.trans ih.2⟩

/-- **A held task does not stay held**: some round re-queues or abandons it. -/
theorem held_ends {elapsed : Nat → Nat} (hpos : ∀ n, 1 ≤ elapsed n) {s : Store} {id : Uuid}
    {row : Task} (hrow : s.tasks.find? id = some row) (hheld : row.status.isHeld = true) :
    ∃ n row', (cfg.rounds elapsed s n).tasks.find? id = some row' ∧
      (row'.status = .upForGrabs ∨ row'.status = .abandoned) := by
  -- induction on the time left, over the rounds from the `k`-th on
  have key : ∀ (left k : Nat) (row : Task),
      (cfg.rounds elapsed s k).tasks.find? id = some row → row.status.isHeld = true →
      cfg.timeLeft (cfg.rounds elapsed s k).now row ≤ left →
      ∃ n row', (cfg.rounds elapsed s n).tasks.find? id = some row' ∧
        (row'.status = .upForGrabs ∨ row'.status = .abandoned) := by
    intro left
    induction left with
    | zero =>
        intro k row hrow hheld hleft
        obtain ⟨row', hrow', hended | ⟨-, hlt⟩⟩ := cfg.round_held (hpos k) hrow hheld
        · exact ⟨k + 1, row', hrow', hended⟩
        · omega
    | succ left ih =>
        intro k row hrow hheld hleft
        obtain ⟨row', hrow', hended | ⟨hst, hlt⟩⟩ := cfg.round_held (hpos k) hrow hheld
        · exact ⟨k + 1, row', hrow', hended⟩
        · refine ih (k + 1) row' hrow' (by rw [hst]; exact hheld) ?_
          change cfg.timeLeft (cfg.round (elapsed k) (cfg.rounds elapsed s k)).now row' ≤ left
          omega
  exact key _ 0 row hrow hheld le_rfl

end SweepConfig

end AiStudio.Runtime
