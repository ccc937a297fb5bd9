import AiStudio.Runtime.Lifecycle
import AiStudio.Runtime.Recovery
import AiStudio.Runtime.Rows

/-!
# The ladder as a run of sweeps climbs it

An outline of the supervisor: which rungs it may write while it holds which scanned rows.
With one supervisor the counters of a scanned row are still those of the table when its rung
is written, so the order of the rungs bounds the re-kicks of every run (`recovery_bounded`).
-/

set_option autoImplicit false

namespace AiStudio.Runtime

open AiStudio.Data AiStudio.Concurrency

/-! ## The outline of the supervisor -/

/-- What a sweep has in hand: the scanned rows whose rungs it has not written, and the last
progress it measured. -/
structure Sighting where
  scanned : List (Uuid × Task) := []
  measured : Option (Uuid × Bool) := none

/-- The rung of a task is written. -/
def Sighting.drop (l : Sighting) (id : Uuid) : Sighting :=
  { l with scanned := l.scanned.eraseP (·.1 = id) }

namespace SweepConfig

variable (cfg : SweepConfig)

/-- The grace of a row's nudge is over, or there is none. -/
def Due (now : Time) (row : Task) : Prop :=
  0 < cfg.nudgeGrace → ∃ nudged, row.nudgedAt = some nudged ∧ cfg.nudgeGrace ≤ now - nudged

/-- The supervisor, while `due` holds of the rows that are past their grace. -/
def outline {α : Type} (due : Task → Prop) : Outline database Sighting α where
  allows l o :=
    match o with
    | .findStaleTasks threshold => threshold = cfg.threshold
    | .nudgeTask id _ => ∃ row, (id, row) ∈ l.scanned ∧ row.nudgedAt = none
    | .taskMadeProgress id => ∃ row, (id, row) ∈ l.scanned
    | .rekickTask id made => ∃ row b, (id, row) ∈ l.scanned ∧ due row ∧
        row.noProgressRekicks < cfg.stuckThreshold ∧ row.retries < cfg.maxRetries ∧
        made = some b ∧ l.measured = some (id, b)
    | .escalateStuckTask id .. => ∃ row, (id, row) ∈ l.scanned ∧ due row
    | .failExhausted id scanned _ => (id, scanned) ∈ l.scanned ∧ due scanned
    | _ => False
  next l o r :=
    match o, r with
    | .findStaleTasks _, .ok stale => { scanned := stale }
    | .findStaleTasks _, .error _ => {}
    | .taskMadeProgress id, .ok made => { l with measured := some (id, made) }
    | .nudgeTask id _, _ => l.drop id
    | .rekickTask id _, _ => l.drop id
    | .escalateStuckTask id .., _ => l.drop id
    | .failExhausted id .., _ => l.drop id
    | _, _ => l
  ends _ _ := True

variable {cfg} {α : Type} {due : Task → Prop}

/-- Writing the rung of the first row leaves the others in hand. -/
theorem drop_sublist {l : Sighting} {id : Uuid} {row : Task} {tasks : List (Uuid × Task)}
    (h : ((id, row) :: tasks).Sublist l.scanned) : tasks.Sublist (l.drop id).scanned := by
  have herase := h.eraseP (p := fun e => decide (e.1 = id))
  rwa [List.eraseP_cons_of_pos (by simp)] at herase

/-- The loop over the scanned rows follows the outline. -/
theorem holds_sweepEach {now : Time} (hdue : ∀ row, cfg.Due now row → due row)
    {k : SweepResult → Process α} (hk : ∀ l result, (cfg.outline due).Holds l (k result))
    {tasks : List (Uuid × Task)} {l : Sighting} (hl : tasks.Sublist l.scanned)
    (result : SweepResult) :
    (cfg.outline due).Holds l ((cfg.sweepEach now result tasks).bind k) := by
  induction tasks generalizing l result with
  | nil => exact hk l result
  | cons e rest ih =>
      obtain ⟨id, row⟩ := e
      have hmem : (id, row) ∈ l.scanned := hl.subset List.mem_cons_self
      rw [sweepEach, Program.bind_assoc]
      unfold handleStale climb
      split
      · rename_i hfirst
        refine ⟨⟨row, hmem, hfirst.2⟩, fun r => ?_⟩
        cases r <;> exact ih (drop_sublist hl) _
      · rename_i hopen
        split
        · exact ih (List.sublist_of_cons_sublist hl) _
        · rename_i hover
          have hrow : due row := by
            refine hdue row fun hgrace => ?_
            cases hn : row.nudgedAt with
            | none => exact absurd ⟨hgrace, hn⟩ hopen
            | some nudged =>
                refine ⟨nudged, rfl, ?_⟩
                by_contra hlt
                refine hover ⟨hgrace, ?_⟩
                simp only [nudgeGraceElapsed, hn, Option.all_some, decide_eq_false_iff_not]
                exact hlt
          split
          · refine ⟨⟨row, hmem, hrow⟩, fun r => ?_⟩
            cases r <;> exact ih (drop_sublist hl) _
          · rename_i hstuck
            split
            · refine ⟨⟨hmem, hrow⟩, fun r => ?_⟩
              cases r <;> exact ih (drop_sublist hl) _
            · rename_i hmax
              refine ⟨⟨row, hmem⟩, fun r => ?_⟩
              cases r with
              | error e => exact ih (List.sublist_of_cons_sublist hl) _
              | ok made =>
                  have hl' : ((id, row) :: rest).Sublist
                    { l with measured := some (id, made) : Sighting }.scanned := hl
                  refine ⟨⟨row, made, hmem, hrow, Nat.lt_of_not_le hstuck, Nat.lt_of_not_le hmax,
                    rfl, rfl⟩, fun r => ?_⟩
                  cases r <;> exact ih (drop_sublist hl') _

/-- A sweep follows the outline, from any local state. -/
theorem holds_sweep {now : Time} (hdue : ∀ row, cfg.Due now row → due row) (l : Sighting) :
    (cfg.outline due).Holds l (cfg.sweep now) := by
  refine ⟨rfl, fun r => ?_⟩
  cases r with
  | error e => trivial
  | ok stale =>
      have hret : ∀ l result, (cfg.outline due).Holds l
          (.ret result : Process SweepResult) := fun _ _ => trivial
      have h : (cfg.outline due).Holds { scanned := stale }
          ((cfg.sweepEach now {} stale).bind .ret) :=
        holds_sweepEach hdue hret (List.Sublist.refl _) {}
      rwa [Program.bind_ret] at h

/-- The supervisor follows the outline through all its sweeps. -/
theorem holds_run (hdue : ∀ now row, cfg.Due now row → due row) (clocks : List Time)
    (l : Sighting) : (cfg.outline due).Holds l (cfg.run clocks) := by
  induction clocks generalizing l with
  | nil => trivial
  | cons now clocks ih =>
      exact Outline.holds_tryCatch_bind (O := cfg.outline due) (fun _ _ h => h)
        (fun _ _ _ => rfl) (holds_sweep (hdue now) l) fun l _ => ih l

end SweepConfig

/-- Distinct ids leave no row of a task whose rung is written. -/
theorem not_mem_drop {l : Sighting} {id : Uuid} {row : Task}
    (h : (l.scanned.map Prod.fst).Nodup) : (id, row) ∉ (l.drop id).scanned := by
  intro hmem
  unfold Sighting.drop at hmem
  dsimp only at hmem
  generalize l.scanned = scanned at h hmem
  induction scanned with
  | nil => cases hmem
  | cons e rest ih =>
      rw [List.map_cons, List.nodup_cons] at h
      by_cases he : e.1 = id
      · rw [List.eraseP_cons_of_pos (by simpa using he)] at hmem
        exact h.1 (List.mem_map.2 ⟨_, hmem, he.symm⟩)
      · rw [List.eraseP_cons_of_neg (by simpa using he)] at hmem
        rcases List.mem_cons.1 hmem with rfl | hmem
        · exact he rfl
        · exact ih h.2 hmem

/-! ## The counters of a row -/

/-- The task a re-kick re-queued. -/
def StoreOp.rekicked : (o : StoreOp) → Except Exn o.Res → Option Uuid
  | .rekickTask id _, .ok (some _) => some id
  | _, _ => none

/-- The task whose progress a measurement saw. -/
def StoreOp.progressed : (o : StoreOp) → Except Exn o.Res → Option Uuid
  | .taskMadeProgress id, .ok true => some id
  | _, _ => none

/-- The call may count a re-kick of the task. -/
def StoreOp.recounts (o : StoreOp) (id : Uuid) : Bool :=
  match o with
  | .rekickTask id' _ => id' = id
  | .transition id' _ a => id' = id && a.incrementRetries
  | _ => false

/-- The counters of the recovery ladder. -/
def Task.counters (row : Task) : Nat × Nat := (row.retries, row.noProgressRekicks)

/-- **What a re-kick does to the counters' row.** -/
theorem rekickTask_row {id : Uuid} {made : Option Bool} {s s' : Store} {r : Option Task}
    (h : rekickTask id made s = .ok (r, s')) :
    (r = none ∧ s' = s) ∨ ∃ task row, r = some task ∧ s.tasks.find? id = some row ∧
      s'.tasks.find? id = some (row.rekick made s.now) := by
  rcases rekickTask_cases h with hnone | ⟨row, hm, hheld, hr, hs⟩
  · exact Or.inl hnone
  · refine Or.inr ⟨_, row, hr, hm.found, ?_⟩
    cases (rekickTask_rowEffect h : RowEffect _ s s' id) with
    | same hsame =>
        -- the task was re-queued, so its row cannot be the same
        have hcore := hs.core id
        rw [Store.core, hsame, ← Store.core, Store.core_of_find? hm.found,
          Store.core_of_find? (s.find?_recordTransition_self _ _ _ _ hm.found)] at hcore
        have hst : row.status = .upForGrabs := congrArg (TaskCore.status <$> ·) hcore |>
          Option.some.inj
        rw [hst] at hheld
        cases hheld
    | created a ws op => cases op
    | wrote row₁ row' found rewrites hwrote =>
        obtain rfl := Option.some.inj (hm.found.symm.trans found)
        cases rewrites with
        | rekicked made' op held =>
            obtain ⟨-, rfl⟩ := StoreOp.rekickTask.inj op
            exact hwrote
        | moved m hid makes admits plain => exact absurd plain.1.symm Bool.false_ne_true
        | beat workerId op => cases op
        | spent tokens op => cases op
        | patched status reason workTaskIds op => cases op
        | nudged grace op => cases op
        | escalated reason count retries op => cases op
        | failed scanned maxRetries op => cases op

/-- A re-kick of a held row changes it. -/
theorem Task.rekick_ne {row : Task} (hheld : row.status.isHeld = true) (made : Option Bool)
    (now : Time) : row.rekick made now ≠ row := by
  intro h
  have hst : (row.rekick made now).status = .upForGrabs := by cases made <;> rfl
  rw [h] at hst
  rw [hst] at hheld
  cases hheld

variable {P α : Type} [DecidableEq P]

/-- A step that re-kicks the task counts it. -/
theorem step_rekicked {st : Step database P α} (hf : Fires st) {id : Uuid}
    (h : st.op.rekicked st.out = some id) :
    ∃ made row, st.op = .rekickTask id made ∧ st.before.state.tasks.find? id = some row ∧
      st.after.state.tasks.find? id = some (row.rekick made st.before.state.now) := by
  obtain ⟨pid, op, out, before, after⟩ := st
  have hcommit := exec_or_abort hf
  dsimp only at h hcommit ⊢
  cases op with
  | rekickTask id' made =>
      rcases hcommit with ⟨v, rfl, hexec⟩ | ⟨e, rfl, -⟩
      · rcases rekickTask_row hexec with ⟨rfl, -⟩ | ⟨task, row, rfl, hrow, hrow'⟩
        · cases h
        · obtain rfl : id' = id := Option.some.inj h
          exact ⟨made, row, rfl, hrow, hrow'⟩
      · cases h
  | _ => cases h

/-- **Any other step leaves the counters alone**, or creates the row with both at zero. -/
theorem step_counters {st : Step database P α} (hf : Fires st) {id : Uuid}
    (hno : st.op.rekicked st.out ≠ some id)
    (hplain : st.op.isRekick = false → st.op.recounts id = false) :
    (st.after.state.tasks.find? id).map Task.counters =
        (st.before.state.tasks.find? id).map Task.counters ∨
      (∃ a, st.op = .enqueueTask id a) ∧ st.before.state.tasks.find? id = none ∧
        (st.after.state.tasks.find? id).map Task.counters = some (0, 0) := by
  cases step_rowEffect hf id with
  | same hsame => exact Or.inl (by rw [hsame])
  | created a ws op fresh hrow => exact Or.inr ⟨⟨a, op⟩, fresh, by rw [hrow]; rfl⟩
  | wrote row row' found rewrites hrow =>
      refine Or.inl ?_
      rw [hrow, found, Option.map_some, Option.map_some]
      cases rewrites with
      | moved m hid makes admits plain =>
          have hcount := hplain plain.1
          have hinc : m.args.incrementRetries = false := by
            cases hop : st.op with
            | transition id' target a =>
                rw [hop] at makes hcount
                obtain rfl : m = ⟨id', target, a⟩ := makes
                simpa [StoreOp.recounts, show id' = id from hid] using hcount
            | grabTask a locked =>
                rw [hop] at makes
                rw [makes.2.1]
                rfl
            | rekickTask id' made => rw [hop] at plain; exact absurd plain.1.symm Bool.false_ne_true
            | escalateStuckTask id' reason count retries =>
                rw [hop] at plain
                exact absurd plain.2.symm Bool.false_ne_true
            | failExhausted id' scanned maxRetries =>
                rw [hop] at plain
                exact absurd plain.2.symm Bool.false_ne_true
            | requestDecision d a => rw [hop] at makes; rw [makes.2.2]; rfl
            | answerDecision d answer resolver at? => rw [hop] at makes; rw [makes.2.2]; rfl
            | withdrawDecision d resolver at? => rw [hop] at makes; rw [makes.2.2]; rfl
            | _ => rw [hop] at makes; exact makes.elim
          simp [Task.counters, Move.apply, TransitionArgs.update, hinc]
      | rekicked made op held =>
          -- a re-kick that wrote the row reports it
          exfalso
          obtain ⟨pid, op', out, before, after⟩ := st
          have hcommit := exec_or_abort hf
          dsimp only at op hno hcommit found hrow
          subst op
          have hchanged : after.state ≠ before.state := by
            intro hs
            rw [hs, found] at hrow
            exact Task.rekick_ne held made _ (Option.some.inj hrow).symm
          rcases hcommit with ⟨v, rfl, hexec⟩ | ⟨e, -, hs⟩
          · rcases rekickTask_row hexec with ⟨-, hs⟩ | ⟨task, row₁, rfl, -, -⟩
            · exact hchanged hs
            · exact hno rfl
          · exact hchanged hs
      | _ => rfl

/-! ## The bound -/

/-- The re-kicks of a task among the steps. -/
def rekickCount (id : Uuid) (τ : List (Step database P α)) : Nat :=
  τ.countP fun st => st.op.rekicked st.out = some id

/-- The counters of a task are those of its re-kicks so far, within the bounds, and the rows
in hand carry them. Under `quiet` no measurement saw progress of the task. -/
structure Bounded (cfg : SweepConfig) (id : Uuid) (quiet : Prop) (s : Store) (l : Sighting)
    (count : Nat) : Prop where
  absent : s.tasks.find? id = none → count = 0
  counted : ∀ row, s.tasks.find? id = some row → row.retries = count
  retries : ∀ row, s.tasks.find? id = some row → row.retries ≤ cfg.maxRetries
  stuck : ∀ row, s.tasks.find? id = some row → row.noProgressRekicks ≤ cfg.stuckThreshold
  idle : quiet → ∀ row, s.tasks.find? id = some row → row.noProgressRekicks = count
  nodup : (l.scanned.map Prod.fst).Nodup
  seen : ∀ row, (id, row) ∈ l.scanned →
    (s.tasks.find? id).map Task.counters = some row.counters
  measured : quiet → l.measured ≠ some (id, true)

namespace Bounded

variable {cfg : SweepConfig} {id : Uuid} {quiet : Prop} {s s' : Store} {l l' : Sighting}
  {count : Nat}

/-- A step that leaves the counters alone. -/
theorem keep (h : Bounded cfg id quiet s l count)
    (hcount : (s'.tasks.find? id).map Task.counters = (s.tasks.find? id).map Task.counters)
    (hnodup : (l'.scanned.map Prod.fst).Nodup)
    (hseen : ∀ row, (id, row) ∈ l'.scanned →
      (s'.tasks.find? id).map Task.counters = some row.counters)
    (hmeasured : quiet → l'.measured ≠ some (id, true)) : Bounded cfg id quiet s' l' count := by
  have hback : ∀ row, s'.tasks.find? id = some row →
      ∃ old, s.tasks.find? id = some old ∧ old.retries = row.retries ∧
        old.noProgressRekicks = row.noProgressRekicks := by
    intro row hrow
    rw [hrow, Option.map_some] at hcount
    obtain ⟨old, hold, heq⟩ := Option.map_eq_some_iff.1 hcount.symm
    exact ⟨old, hold, congrArg Prod.fst heq, congrArg Prod.snd heq⟩
  refine ⟨?_, ?_, ?_, ?_, ?_, hnodup, hseen, hmeasured⟩
  · intro hnone
    rw [hnone, Option.map_none] at hcount
    exact h.absent (Option.map_eq_none_iff.1 hcount.symm)
  · intro row hrow
    obtain ⟨old, hold, hretries, -⟩ := hback row hrow
    rw [← hretries]
    exact h.counted old hold
  · intro row hrow
    obtain ⟨old, hold, hretries, -⟩ := hback row hrow
    rw [← hretries]
    exact h.retries old hold
  · intro row hrow
    obtain ⟨old, hold, -, hnp⟩ := hback row hrow
    rw [← hnp]
    exact h.stuck old hold
  · intro hq row hrow
    obtain ⟨old, hold, -, hnp⟩ := hback row hrow
    rw [← hnp]
    exact h.idle hq old hold

/-- A step that creates the row. -/
theorem create (h : Bounded cfg id quiet s l count) (hfresh : s.tasks.find? id = none)
    (hcount : (s'.tasks.find? id).map Task.counters = some (0, 0)) :
    Bounded cfg id quiet s' l count := by
  obtain ⟨row, hrow, hzero⟩ := Option.map_eq_some_iff.1 hcount
  obtain ⟨hretries, hidle⟩ := Prod.mk.inj hzero
  have hnone := h.absent hfresh
  have hall : ∀ row', s'.tasks.find? id = some row' → row' = row := fun row' hrow' =>
    Option.some.inj (hrow'.symm.trans hrow)
  refine ⟨?_, ?_, ?_, ?_, ?_, h.nodup, ?_, h.measured⟩
  · intro hgone
    exact hnone
  · intro row' hrow'
    rw [hall row' hrow', hretries, hnone]
  · intro row' hrow'
    rw [hall row' hrow', hretries]
    exact Nat.zero_le _
  · intro row' hrow'
    rw [hall row' hrow', hidle]
    exact Nat.zero_le _
  · intro _ row' hrow'
    rw [hall row' hrow', hidle, hnone]
  · intro row' hmem
    have hseen := h.seen row' hmem
    rw [hfresh] at hseen
    cases hseen

/-- **The re-kick of a row in hand.** -/
theorem rekick (h : Bounded cfg id quiet s l count) {row cur : Task} {made : Bool} {now : Time}
    (hmem : (id, row) ∈ l.scanned) (hstuck : row.noProgressRekicks < cfg.stuckThreshold)
    (hmax : row.retries < cfg.maxRetries) (hmade : l.measured = some (id, made))
    (hcur : s.tasks.find? id = some cur)
    (hafter : s'.tasks.find? id = some (cur.rekick (some made) now)) :
    Bounded cfg id quiet s' (l.drop id) (count + 1) := by
  have hseen := h.seen row hmem
  rw [hcur, Option.map_some] at hseen
  obtain ⟨hretries, hnp⟩ := Prod.mk.inj (Option.some.inj hseen)
  have hcount := h.counted cur hcur
  have hall : ∀ row', s'.tasks.find? id = some row' → row' = cur.rekick (some made) now :=
    fun row' hrow' => Option.some.inj (hrow'.symm.trans hafter)
  have hnew : (cur.rekick (some made) now).retries = cur.retries + 1 := rfl
  have hnew' : (cur.rekick (some made) now).noProgressRekicks =
      if made then 0 else cur.noProgressRekicks + 1 := rfl
  refine ⟨?_, ?_, ?_, ?_, ?_, ?_, ?_, h.measured⟩
  · intro hgone
    rw [hafter] at hgone
    cases hgone
  · intro row' hrow'
    rw [hall row' hrow', hnew, hcount]
  · intro row' hrow'
    rw [hall row' hrow', hnew, hretries]
    exact hmax
  · intro row' hrow'
    rw [hall row' hrow', hnew', hnp]
    split
    · exact Nat.zero_le _
    · exact hstuck
  · intro hq row' hrow'
    have hfalse : made = false := by
      cases made with
      | false => rfl
      | true => exact absurd hmade (h.measured hq)
    rw [hall row' hrow', hnew', hfalse, h.idle hq cur hcur]
    rfl
  · exact h.nodup.sublist (List.eraseP_sublist.map _)
  · intro row' hmem'
    exact absurd hmem' (not_mem_drop h.nodup)

/-- A step that writes the rung of some task, or none, and not a re-kick of this one. -/
theorem drop (h : Bounded cfg id quiet s l count) (id' : Uuid)
    (hcount : (s'.tasks.find? id).map Task.counters = (s.tasks.find? id).map Task.counters) :
    Bounded cfg id quiet s' (l.drop id') count :=
  h.keep hcount (h.nodup.sublist (List.eraseP_sublist.map _))
    (fun row hmem => hcount.trans (h.seen row (List.mem_of_mem_eraseP hmem))) h.measured

/-- Another process, which re-kicks no such task. -/
theorem step_other {st : Step database P α} (hf : Fires st)
    (h : Bounded cfg id quiet st.before.state l count) (hfree : st.op.recounts id = false) :
    st.op.rekicked st.out ≠ some id ∧ Bounded cfg id quiet st.after.state l count := by
  have hno : st.op.rekicked st.out ≠ some id := by
    intro hre
    obtain ⟨made, row, hop, -⟩ := step_rekicked hf hre
    rw [hop, StoreOp.recounts, decide_eq_false_iff_not] at hfree
    exact hfree rfl
  refine ⟨hno, ?_⟩
  rcases step_counters hf hno (fun _ => hfree) with hcount | ⟨-, hfresh, hcount⟩
  · exact h.keep hcount h.nodup (fun row hmem => hcount.trans (h.seen row hmem)) h.measured
  · exact h.create hfresh hcount

/-- **A step of the supervisor keeps the bound.** -/
theorem step_supervisor {due : Task → Prop} {st : Step database P α} (hf : Fires st)
    (h : Bounded cfg id quiet st.before.state l count)
    (hallow : (cfg.outline (α := α) due).allows l st.op)
    (hquiet : quiet → st.op.progressed st.out ≠ some id) :
    Bounded cfg id quiet st.after.state ((cfg.outline (α := α) due).next l st.op st.out)
      (count + if st.op.rekicked st.out = some id then 1 else 0) := by
  by_cases hre : st.op.rekicked st.out = some id
  · obtain ⟨made, cur, hop, hcur, hafter⟩ := step_rekicked hf hre
    rw [if_pos hre]
    obtain ⟨pid, op, out, before, after⟩ := st
    dsimp only at hop hallow hcur hafter ⊢
    subst hop
    obtain ⟨row, made, hmem, -, hstuck, hmax, rfl, hmade⟩ := hallow
    exact h.rekick hmem hstuck hmax hmade hcur hafter
  · rw [if_neg hre, Nat.add_zero]
    have hplain : st.op.isRekick = false → st.op.recounts id = false := by
      intro hplain
      cases hop : st.op with
      | transition id' target a => rw [hop] at hallow; exact hallow.elim
      | rekickTask id' made => rw [hop] at hplain; exact absurd hplain.symm Bool.false_ne_true
      | _ => rfl
    have hcount : (st.after.state.tasks.find? id).map Task.counters =
        (st.before.state.tasks.find? id).map Task.counters := by
      rcases step_counters hf hre hplain with hcount | ⟨⟨a, hop⟩, -⟩
      · exact hcount
      · rw [hop] at hallow
        exact hallow.elim
    have hcommit := exec_or_abort hf
    obtain ⟨pid, op, out, before, after⟩ := st
    dsimp only at hallow hquiet hcount hcommit h ⊢
    cases op with
    | findStaleTasks threshold =>
        cases out with
        | error e => exact h.keep hcount List.nodup_nil (fun row hmem => nomatch hmem) (fun _ => nofun)
        | ok stale =>
            rcases hcommit with ⟨v, hv, hexec⟩ | ⟨e, he, -⟩
            · obtain rfl := Except.ok.inj hv
              obtain ⟨rfl, hs⟩ := Prod.mk.inj (Except.ok.inj hexec)
              refine h.keep hcount (Store.nodup_staleTasks _ _) (fun row hmem => ?_) (fun _ => nofun)
              rw [hcount, ((Store.mem_staleTasks _ _ _ _).1 hmem).1]
              rfl
            · cases he
    | taskMadeProgress id' =>
        have hseen : ∀ row, (id, row) ∈ l.scanned →
            (after.state.tasks.find? id).map Task.counters = some row.counters :=
          fun row hmem => hcount.trans (h.seen row hmem)
        cases out with
        | error e => exact h.keep hcount h.nodup hseen h.measured
        | ok made =>
            refine h.keep hcount h.nodup hseen fun hq hmeasured => ?_
            obtain ⟨rfl, rfl⟩ := Prod.mk.inj (Option.some.inj hmeasured)
            exact hquiet hq rfl
    | nudgeTask id' grace => cases out <;> exact h.drop id' hcount
    | rekickTask id' made => cases out <;> exact h.drop id' hcount
    | escalateStuckTask id' reason count retries => cases out <;> exact h.drop id' hcount
    | failExhausted id' scanned maxRetries => cases out <;> exact h.drop id' hcount
    | _ => exact hallow.elim

end Bounded

/-! ## Runs with one supervisor -/

namespace SweepConfig

variable {cfg : SweepConfig} {id : Uuid} {c c' : Config database P SweepResult}
  {τ : List (Step database P SweepResult)} {sup : P} {clocks : List Time}

/-- **The counters stay bounded through every run with one supervisor.** -/
theorem bounded_of_reach {quiet : Prop} (hsup : c.pool sup = cfg.run clocks)
    (hfresh : ∀ row, c.state.tasks.find? id = some row → row.counters = (0, 0))
    (h : Reach c τ c') (hothers : ∀ st ∈ τ, st.pid ≠ sup → st.op.recounts id = false)
    (hquiet : quiet → ∀ st ∈ τ, st.op.progressed st.out ≠ some id) :
    ∃ l, Bounded cfg id quiet c'.state l (rekickCount id τ) := by
  let O : Outline database (Option Sighting) SweepResult := (cfg.outline fun _ => True).orFree
  let ls₀ : P → Option Sighting := fun p => if p = sup then some {} else none
  have h₀ : ∀ p, O.Holds (ls₀ p) (c.pool p) := by
    intro p
    by_cases hp : p = sup
    · subst hp
      rw [hsup, show ls₀ p = some {} from if_pos rfl]
      exact Outline.holds_orFree_some (holds_run (fun _ _ _ => trivial) clocks {})
    · rw [show ls₀ p = none from if_neg hp]
      exact Outline.holds_orFree_none _ _
  have key : (∀ st ∈ τ, st.pid ≠ sup → st.op.recounts id = false) →
      (quiet → ∀ st ∈ τ, st.op.progressed st.out ≠ some id) →
      ∃ ls : P → Option Sighting, (∀ p, O.Holds (ls p) (c'.pool p)) ∧
        ∃ l, ls sup = some l ∧ Bounded cfg id quiet c'.state l (rekickCount id τ) := by
    refine h.induct (motive := fun (τ : List (Step database P SweepResult))
        (c' : Config database P SweepResult) =>
      (∀ st ∈ τ, st.pid ≠ sup → st.op.recounts id = false) →
      (quiet → ∀ st ∈ τ, st.op.progressed st.out ≠ some id) →
      ∃ ls : P → Option Sighting, (∀ p, O.Holds (ls p) (c'.pool p)) ∧
        ∃ l, ls sup = some l ∧ Bounded cfg id quiet c'.state l (rekickCount id τ)) ?_ ?_
    · intro _ _
      refine ⟨ls₀, h₀, {}, if_pos rfl, ?_⟩
      have hzero : ∀ row, c.state.tasks.find? id = some row →
          row.retries = 0 ∧ row.noProgressRekicks = 0 := fun row hrow =>
        Prod.mk.inj (hfresh row hrow)
      exact
        { absent := fun _ => rfl
          counted := fun row hrow => (hzero row hrow).1
          retries := fun row hrow => by rw [(hzero row hrow).1]; exact Nat.zero_le _
          stuck := fun row hrow => by rw [(hzero row hrow).2]; exact Nat.zero_le _
          idle := fun _ row hrow => (hzero row hrow).2
          nodup := List.nodup_nil
          seen := fun row hmem => nomatch hmem
          measured := fun _ => nofun }
    · intro τ₁ st _ hf ih hothers hquiet
      obtain ⟨ls, hls, l, hl, hb⟩ := ih
        (fun st' hst' => hothers st' (List.mem_append_left _ hst'))
        (fun hq st' hst' => hquiet hq st' (List.mem_append_left _ hst'))
      obtain ⟨hallow, hls'⟩ := Outline.holds_step hf hls
      have hcount : rekickCount id (τ₁ ++ [st]) =
          rekickCount id τ₁ + if st.op.rekicked st.out = some id then 1 else 0 := by
        simp [rekickCount, List.countP_append, List.countP_singleton]
      refine ⟨_, hls', ?_⟩
      rw [hcount]
      by_cases hpid : st.pid = sup
      · rw [hpid, hl] at hallow
        have hb' := hb.step_supervisor hf hallow fun hq => hquiet hq st (by simp)
        refine ⟨_, ?_, hb'⟩
        rw [← hpid, Outline.advance_self, hpid, hl]
        rfl
      · obtain ⟨hno, hb'⟩ := hb.step_other hf (hothers st (by simp) hpid)
        rw [if_neg hno, Nat.add_zero]
        exact ⟨l, by rw [O.advance_ne ls st fun h => hpid h.symm, hl], hb'⟩
  obtain ⟨-, -, l, -, hb⟩ := key hothers hquiet
  exact ⟨l, hb⟩

/-- **The rung of a due row whose counters are used up** is terminal: it abandons the task
in every state in which the task is still held. -/
theorem climb_of_spent {now : Time} {row : Task} (hdue : cfg.Due now row)
    (hspent : cfg.stuckThreshold ≤ row.noProgressRekicks ∨ cfg.maxRetries ≤ row.retries)
    (result : SweepResult) :
    ∃ o : StoreOp, (cfg.climb now id row result).head? = some o ∧
      ∀ s cur, s.tasks.find? id = some cur → cur.status.isHeld = true →
        ∃ r s', o.exec s = .ok (r, s') ∧ s'.status? id = some .abandoned := by
  have hstatus : ∀ {s' : Store} {row' : Task}, s'.tasks.find? id = some row' →
      row'.status = .abandoned → s'.status? id = some .abandoned := by
    intro s' row' hrow' hst
    rw [Store.status?, Store.core_of_find? hrow', Option.map_some, Task.core, hst]
  have hnudge : ¬ (0 < cfg.nudgeGrace ∧ row.nudgedAt = none) := by
    rintro ⟨hgrace, hnone⟩
    obtain ⟨nudged, hsome, -⟩ := hdue hgrace
    rw [hnone] at hsome
    cases hsome
  have hover : ¬ (0 < cfg.nudgeGrace ∧ nudgeGraceElapsed row now cfg.nudgeGrace = false) := by
    rintro ⟨hgrace, helapsed⟩
    obtain ⟨nudged, hsome, hle⟩ := hdue hgrace
    simp only [nudgeGraceElapsed, hsome, Option.all_some, decide_eq_false_iff_not] at helapsed
    exact helapsed hle
  unfold climb
  rw [if_neg hnudge, if_neg hover]
  split
  · refine ⟨_, rfl, fun s cur hcur hheld => ?_⟩
    obtain ⟨r, s', row', hexec, hrow', hst⟩ := escalateStuckTask_held _ _ _ hcur hheld
    exact ⟨r, s', hexec, hstatus hrow' hst⟩
  · rename_i hstuck
    rw [if_pos (hspent.resolve_left hstuck)]
    refine ⟨_, rfl, fun s cur hcur hheld => ?_⟩
    obtain ⟨r, s', row', hexec, hrow', hst⟩ := failExhausted_held _ _ hcur hheld
    exact ⟨r, s', hexec, hstatus hrow' hst⟩

/-- A worker claims a task and dies, while time passes. -/
def silentWorker : Process SweepResult := do
  let _ ← claimTask { workerId := "w1" } []
  let _ ← call (.tick 200000000)
  let _ ← call (.tick 100000000)
  return {}

/-- The dead worker and the supervisor, which sweeps before and after the grace. -/
def silentRun : Config database Bool SweepResult :=
  ⟨oneTask, fun
    | true => run {} [200000000, 300000000]
    | false => silentWorker⟩

/-- The nudge comes after the first silence, the re-kick after the second. -/
def silentTurns : List (Choice Bool Exn) :=
  List.replicate 3 (false, none) ++ List.replicate 2 (true, none) ++ [(false, none)] ++
    List.replicate 3 (true, none)

end SweepConfig

end AiStudio.Runtime
