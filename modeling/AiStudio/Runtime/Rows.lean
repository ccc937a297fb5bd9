import AiStudio.Runtime.Effects

/-!
# What a call does to the whole row of a task

`AiStudio.Runtime.Effects` follows the lifecycle part of a row. The recovery ladder and
the dependency gate read more of it: the nudge, the heartbeat, the counters of re-kicks and
the prerequisites. `Rewrites` names every way a call can rewrite a row, and
`exec_rowEffect` says that there is no other.
-/

set_option autoImplicit false

namespace AiStudio.Runtime

open AiStudio.Data

/-- A re-kick of the task. -/
def StoreOp.isRekick : StoreOp → Bool
  | .rekickTask .. => true
  | _ => false

/-- A terminal rung of the recovery ladder. -/
def StoreOp.endsAttempt : StoreOp → Bool
  | .escalateStuckTask .. => true
  | .failExhausted .. => true
  | _ => false

/-- The row after a re-kick. -/
def Task.rekick (row : Task) (made : Option Bool) (now : Time) : Task :=
  let row := rekickArgs.update now .upForGrabs row
  match made with
  | none => row
  | some made => row.watermark made now

/-- The ways a call rewrites the row `row` of the task `id`. -/
inductive Rewrites (o : StoreOp) (s : Store) (id : Uuid) (row : Task) : Task → Prop where
  | moved (m : Move) (hid : m.id = id) (makes : o.Makes s m row) (admits : m.Admits s row)
      (plain : o.isRekick = false ∧ o.endsAttempt = false) :
      Rewrites o s id row (m.apply s row)
  | beat (workerId : String) (op : o = .heartbeat id workerId)
      (claimant : row.claimedBy = some workerId) (held : row.status.isHeld = true) :
      Rewrites o s id row (row.beat s.now)
  | spent (tokens : Int) (op : o = .addSpentTokens id tokens) :
      Rewrites o s id row (row.spend tokens s.now)
  | patched (status reason : String) (workTaskIds : Option (List String))
      (op : o = .setRequestStatus id status reason workTaskIds) :
      Rewrites o s id row (row.patch (requestPatch status reason workTaskIds) s.now)
  | nudged (grace : Time) (op : o = .nudgeTask id grace) (held : row.status.isHeld = true)
      (first : row.nudgedAt = none) : Rewrites o s id row (row.nudge s.now)
  | rekicked (made : Option Bool) (op : o = .rekickTask id made)
      (held : row.status.isHeld = true) : Rewrites o s id row (row.rekick made s.now)
  | escalated (reason : String) (count retries : Nat)
      (op : o = .escalateStuckTask id reason count retries) (held : row.status.isHeld = true) :
      Rewrites o s id row ((abandonHeld (stuckResult reason count retries)).update s.now
        .abandoned (row.stall reason s.now))
  | failed (scanned : Task) (maxRetries : Nat) (op : o = .failExhausted id scanned maxRetries)
      (held : row.status.isHeld = true) :
      Rewrites o s id row ((abandonHeld (exhaustedResult scanned.retries maxRetries)).update
        s.now .abandoned row)

/-- The effect of a call on the row of one task. -/
inductive RowEffect (o : StoreOp) (s s' : Store) (id : Uuid) : Prop where
  | same (row : s'.tasks.find? id = s.tasks.find? id)
  | created (a : EnqueueArgs) (ws : Workstream) (op : o = .enqueueTask id a)
      (fresh : s.tasks.find? id = none) (row : s'.tasks.find? id = some (a.row ws s.now))
  | wrote (row row' : Task) (found : s.tasks.find? id = some row)
      (rewrites : Rewrites o s id row row') (h : s'.tasks.find? id = some row')

namespace RowEffect

variable {o : StoreOp} {s s' : Store} {id : Uuid}

theorem of_tasks_eq (h : s'.tasks = s.tasks) : RowEffect o s s' id := .same (by rw [h])

/-- A row written under one id, seen from any. -/
theorem of_find? {id' : Uuid} {row row' : Task} (hrow : s.tasks.find? id' = some row)
    (hself : s'.tasks.find? id' = some row')
    (hne : ∀ id, id ≠ id' → s'.tasks.find? id = s.tasks.find? id)
    (hrew : Rewrites o s id' row row') : RowEffect o s s' id := by
  by_cases hid : id = id'
  · subst hid
    exact .wrote row row' hrow hrew hself
  · exact .same (hne id hid)

theorem of_updateTask {id' : Uuid} {guard : Task → Bool} {f : Task → Task} {row' : Task}
    {s₁ : Store} (h : s.updateTask id' guard f = some (row', s₁)) (hs : s'.tasks = s₁.tasks)
    (hrew : ∀ row, guard row = true → Rewrites o s id' row (f row)) : RowEffect o s s' id := by
  obtain ⟨row, hrow, hguard, rfl, rfl⟩ := Store.updateTask_eq_some h
  refine of_find? hrow ?_ ?_ (hrew row hguard)
  · rw [hs]
    exact s.find?_setTask_self _ _ _ hrow
  · intro id hne
    rw [hs]
    exact s.find?_setTask_ne _ _ hne

theorem of_moves {m : Move} {row : Task} (hmakes : o.Makes s m row) (hm : m.Admits s row)
    (hplain : o.isRekick = false ∧ o.endsAttempt = false)
    (h : s'.tasks = (m.record s row).tasks) : RowEffect o s s' id := by
  have hself : s'.tasks.find? m.id = some (m.apply s row) := by
    rw [h]
    exact s.find?_recordTransition_self m.id row m.target m.args hm.found
  have hothers : ∀ id, id ≠ m.id → s'.tasks.find? id = s.tasks.find? id := by
    intro id hne
    rw [h]
    exact s.find?_recordTransition_ne m.id row m.target m.args hne
  exact of_find? hm.found hself hothers (.moved m rfl hmakes hm hplain)

end RowEffect

/-! ## The effect of every call -/

variable {s s' : Store}

/-- A row a transition from a held state moves is held. -/
theorem Moves.held_of_abandonHeld {id : Uuid} {result : Doc} {row : Task}
    (h : Moves s id .abandoned (abandonHeld result) row) : row.status.isHeld = true := by
  have hadm : [TaskStatus.claimed, TaskStatus.inProgress].contains row.status = true := h.admitted
  rw [isHeld_iff]
  simpa using hadm

theorem transition_rowEffect {id id' : Uuid} {target : TaskStatus} {a : TransitionArgs}
    {r : Option Task} (h : transition id' target a s = .ok (r, s')) :
    RowEffect (.transition id' target a) s s' id := by
  rcases transition_cases h with ⟨-, rfl, -⟩ | ⟨row, hm, -, rfl⟩
  · exact .same rfl
  · exact .of_moves (m := ⟨id', target, a⟩) rfl hm ⟨rfl, rfl⟩ rfl

theorem grabTask_rowEffect {id : Uuid} {a : GrabArgs} {locked : List Uuid}
    {r : Option (Uuid × Task)} (h : grabTask a locked s = .ok (r, s')) :
    RowEffect (.grabTask a locked) s s' id := by
  rcases grabTask_cases h with ⟨-, rfl⟩ | ⟨id', row, hq, hpick, hm, -, rfl⟩
  · exact .same rfl
  · exact .of_moves (m := ⟨id', .claimed, a.claim⟩)
      ⟨rfl, rfl, hq, (GrabArgs.pick_eq_some hpick).2.1⟩ hm ⟨rfl, rfl⟩ rfl

theorem enqueueTask_rowEffect {id id' : Uuid} {a : EnqueueArgs} {r : Task}
    (h : enqueueTask id' a s = .ok (r, s')) : RowEffect (.enqueueTask id' a) s s' id := by
  obtain ⟨ws, tasks, rfl, -, hins, rfl⟩ := enqueueTask_cases h
  have hfind := Table.find?_insert hins id
  by_cases hid : id = id'
  · subst hid
    exact .created a ws rfl (Table.insert?_eq_some hins).1 (by simpa using hfind)
  · exact .same (by simpa [hid] using hfind)

theorem nudgeTask_rowEffect {id id' : Uuid} {grace : Time} {r : Option Task}
    (h : nudgeTask id' grace s = .ok (r, s')) : RowEffect (.nudgeTask id' grace) s s' id := by
  unfold nudgeTask at h
  split at h
  · obtain ⟨-, rfl⟩ := Prod.mk.inj (Except.ok.inj h)
    exact .same rfl
  · rename_i hu
    obtain ⟨-, rfl⟩ := Prod.mk.inj (Except.ok.inj h)
    refine .of_updateTask hu rfl fun row hguard => ?_
    simp only [Bool.and_eq_true, Option.isNone_iff_eq_none] at hguard
    exact .nudged grace rfl hguard.1 hguard.2

theorem heartbeat_rowEffect {id id' : Uuid} {workerId : String} {r : Option Task}
    (h : heartbeat id' workerId s = .ok (r, s')) :
    RowEffect (.heartbeat id' workerId) s s' id := by
  unfold heartbeat at h
  split at h
  · obtain ⟨-, rfl⟩ := Prod.mk.inj (Except.ok.inj h)
    exact .same rfl
  · rename_i hu
    obtain ⟨-, rfl⟩ := Prod.mk.inj (Except.ok.inj h)
    refine .of_updateTask hu rfl fun row hguard => ?_
    simp only [Bool.and_eq_true, decide_eq_true_eq] at hguard
    exact .beat workerId rfl hguard.1 hguard.2

theorem addSpentTokens_rowEffect {id id' : Uuid} {tokens : Int} {r : Option Task}
    (h : addSpentTokens id' tokens s = .ok (r, s')) :
    RowEffect (.addSpentTokens id' tokens) s s' id := by
  unfold addSpentTokens at h
  split at h
  · cases h
  · split at h
    · obtain ⟨-, rfl⟩ := Prod.mk.inj (Except.ok.inj h)
      exact .same rfl
    · rename_i hu
      obtain ⟨-, rfl⟩ := Prod.mk.inj (Except.ok.inj h)
      exact .of_updateTask hu rfl fun row _ => .spent tokens rfl

theorem setRequestStatus_rowEffect {id id' : Uuid} {status reason : String}
    {workTaskIds : Option (List String)} {r : Unit}
    (h : setRequestStatus id' status reason workTaskIds s = .ok (r, s')) :
    RowEffect (.setRequestStatus id' status reason workTaskIds) s s' id := by
  unfold setRequestStatus at h
  split at h
  · obtain ⟨-, rfl⟩ := Prod.mk.inj (Except.ok.inj h)
    exact .same rfl
  · rename_i hu
    obtain ⟨-, rfl⟩ := Prod.mk.inj (Except.ok.inj h)
    exact .of_updateTask hu rfl fun row _ => .patched status reason workTaskIds rfl

theorem rekickTask_rowEffect {id id' : Uuid} {made : Option Bool} {r : Option Task}
    (h : rekickTask id' made s = .ok (r, s')) : RowEffect (.rekickTask id' made) s s' id := by
  rcases rekickTask_cases h with ⟨-, rfl⟩ | ⟨row, hm, hheld, -, -⟩
  · exact .same rfl
  · have hmoved := s.find?_recordTransition_self id' row .upForGrabs rekickArgs hm.found
    have hothers : ∀ id, id ≠ id' →
        (s.recordTransition id' row .upForGrabs rekickArgs).tasks.find? id = s.tasks.find? id :=
      fun id hne => s.find?_recordTransition_ne id' row .upForGrabs rekickArgs hne
    unfold rekickTask at h
    simp only [hm.found, hheld, hm.transition_eq] at h
    cases made with
    | none =>
        obtain ⟨-, rfl⟩ := Prod.mk.inj (Except.ok.inj h)
        exact .of_find? hm.found hmoved hothers (.rekicked none rfl hheld)
    | some made =>
        obtain ⟨-, rfl⟩ := Prod.mk.inj (Except.ok.inj h)
        refine .of_find? hm.found (Store.find?_setTask_self _ _ _ _ hmoved) ?_
          (.rekicked (some made) rfl hheld)
        exact fun _ hne => (Store.find?_setTask_ne _ _ _ hne).trans (hothers _ hne)

/-- The move of a terminal rung, after the row was marked. -/
theorem abandon_rowEffect {o : StoreOp} {id id' : Uuid} {result : Doc} {s₁ : Store}
    {row marked : Task} {r : Option Task} {ws : Task → Workstream} {payload : Task → Payload}
    (hrow : s.tasks.find? id' = some row) (hmarked : s₁.tasks.find? id' = some marked)
    (hothers : ∀ id, id ≠ id' → s₁.tasks.find? id = s.tasks.find? id) (hnow : s₁.now = s.now)
    (hrew : row.status.isHeld = true →
      Rewrites o s id' row ((abandonHeld result).update s.now .abandoned marked))
    (hst : marked.status = row.status)
    (hquiet : row.status.isHeld = false → marked = row)
    (h : (transition id' .abandoned (abandonHeld result) s₁).map (signal id' ws payload) =
      .ok (r, s')) : RowEffect o s s' id := by
  cases ht : transition id' .abandoned (abandonHeld result) s₁ with
  | error e =>
      rw [ht] at h
      cases h
  | ok x =>
      obtain ⟨t, s₂⟩ := x
      rw [ht] at h
      rcases transition_cases ht with ⟨rfl, rfl, hno⟩ | ⟨row', hm, rfl, rfl⟩
      · obtain ⟨-, rfl⟩ := Prod.mk.inj (Except.ok.inj h)
        -- a held row would have moved
        have hheld : row.status.isHeld = false := by
          cases hheld : row.status.isHeld with
          | false => rfl
          | true =>
              rw [← hst] at hheld
              refine absurd ⟨hmarked, ?_, ?_, Or.inr ?_, rfl⟩ (hno marked) <;>
                rcases (isHeld_iff _).1 hheld with hst | hst <;> rw [hst] <;>
                first | rfl | exact nofun
        by_cases hid : id = id'
        · subst hid
          exact .same (by rw [hmarked, hrow, hquiet hheld])
        · exact .same (hothers id hid)
      · obtain ⟨-, rfl⟩ := Prod.mk.inj (Except.ok.inj h)
        obtain rfl : row' = marked := Option.some.inj (hm.found.symm.trans hmarked)
        have hheld := hm.held_of_abandonHeld
        rw [hst] at hheld
        refine .of_find? hrow (s₁.find?_recordTransition_self _ _ _ _ hm.found) ?_ ?_
        · exact fun _ hne => (s₁.find?_recordTransition_ne _ _ _ _ hne).trans (hothers _ hne)
        · rw [hnow]
          exact hrew hheld

theorem escalateStuckTask_rowEffect {id id' : Uuid} {reason : String} {count retries : Nat}
    {r : Option Task} (h : escalateStuckTask id' reason count retries s = .ok (r, s')) :
    RowEffect (.escalateStuckTask id' reason count retries) s s' id := by
  unfold escalateStuckTask at h
  split at h
  · obtain ⟨-, rfl⟩ := Prod.mk.inj (Except.ok.inj h)
    exact .same rfl
  · rename_i hu
    obtain ⟨row, hrow, hheld, -, rfl⟩ := Store.updateTask_eq_some hu
    refine abandon_rowEffect hrow (s.find?_setTask_self _ _ _ hrow)
      (fun _ hne => s.find?_setTask_ne _ _ hne) rfl
      (fun hheld => .escalated reason count retries rfl hheld) rfl ?_ h
    intro hfree
    rw [hfree] at hheld
    cases hheld

theorem failExhausted_rowEffect {id id' : Uuid} {scanned : Task} {maxRetries : Nat}
    {r : Option Task} (h : failExhausted id' scanned maxRetries s = .ok (r, s')) :
    RowEffect (.failExhausted id' scanned maxRetries) s s' id := by
  cases hrow : s.tasks.find? id' with
  | some row =>
      exact abandon_rowEffect hrow hrow (fun _ _ => rfl) rfl
        (fun hheld => .failed scanned maxRetries rfl hheld) rfl (fun _ => rfl) h
  | none =>
      unfold failExhausted at h
      rcases transition_signal_cases (fun _ => rfl) h with ⟨-, rfl, -⟩ | ⟨row, hm, -⟩
      · exact .same rfl
      · rw [hm.found] at hrow
        cases hrow

theorem requestDecision_rowEffect {id id' : Uuid} {a : DecisionArgs} {r : Decision}
    (h : requestDecision id' a s = .ok (r, s')) : RowEffect (.requestDecision id' a) s s' id := by
  obtain ⟨s₁, ws, hp, hrec⟩ := requestDecision_cases h
  obtain ⟨decisions, -, -, rfl⟩ := recordDecision_cases hrec
  rcases park_cases hp with ⟨-, rfl⟩ | ⟨taskId, row, hdep, hm, rfl⟩
  · exact .same rfl
  · exact .of_moves (m := ⟨taskId, .blocked, parkArgs id'⟩) ⟨hdep, rfl, rfl⟩ hm ⟨rfl, rfl⟩ rfl

theorem closeDecision_rowEffect {o : StoreOp} {id id' : Uuid} {f : Time → Decision → Decision}
    (hdep : ∀ now row, (f now row).dependentTaskId = row.dependentTaskId)
    (hplain : o.isRekick = false ∧ o.endsAttempt = false)
    (hmakes : ∀ m row, ((∃ dec, s.decisions.find? id' = some dec ∧ dec.status = .open ∧
      dec.dependentTaskId = some m.id) ∧ m.target = .upForGrabs ∧ m.args = resumeArgs) →
      o.Makes s m row) {r : Option Decision}
    (h : closeDecision id' f s = .ok (r, s')) : RowEffect o s s' id := by
  rcases closeDecision_cases h with ⟨-, rfl, -⟩ | ⟨dec, s₁, hdec, hopen, -, hr, rfl⟩
  · exact .same rfl
  · rcases resume_cases hr with ⟨rfl, -⟩ | ⟨taskId, row, htask, hm, rfl⟩
    · exact .same rfl
    · rw [hdep] at htask
      have hm' : Moves s taskId .upForGrabs resumeArgs row := hm.of_tasks_eq rfl
      exact .of_moves (m := ⟨taskId, .upForGrabs, resumeArgs⟩)
        (hmakes _ _ ⟨⟨dec, hdec, hopen, htask⟩, rfl, rfl⟩) hm' hplain rfl

/-- **Every call rewrites a row in one of the ways of `Rewrites`.** -/
theorem exec_rowEffect {o : StoreOp} {r : o.Res} (h : o.exec s = .ok (r, s')) (id : Uuid) :
    RowEffect o s s' id := by
  cases o with
  | enqueueTask id' a => exact enqueueTask_rowEffect h
  | grabTask a locked => exact grabTask_rowEffect h
  | transition id' target a => exact transition_rowEffect h
  | heartbeat id' workerId => exact heartbeat_rowEffect h
  | addSpentTokens id' tokens => exact addSpentTokens_rowEffect h
  | setRequestStatus id' status reason workTaskIds => exact setRequestStatus_rowEffect h
  | nudgeTask id' grace => exact nudgeTask_rowEffect h
  | rekickTask id' made => exact rekickTask_rowEffect h
  | escalateStuckTask id' reason count retries => exact escalateStuckTask_rowEffect h
  | failExhausted id' scanned maxRetries => exact failExhausted_rowEffect h
  | requestDecision d a => exact requestDecision_rowEffect h
  | answerDecision d answer resolver at? =>
      exact closeDecision_rowEffect (f := Decision.answerWith answer resolver at?)
        (fun _ _ => rfl) ⟨rfl, rfl⟩ (fun _ _ hm => hm) h
  | withdrawDecision d resolver at? =>
      exact closeDecision_rowEffect (f := Decision.withdrawBy resolver at?)
        (fun _ _ => rfl) ⟨rfl, rfl⟩ (fun _ _ hm => hm) h
  -- the rest does not write the queue
  | _ => exact .of_tasks_eq ((exec_frame h).tasks rfl).1

/-- **The effect of a step of the studio on the row of a task.** -/
theorem step_rowEffect {P α : Type} [DecidableEq P] {st : Concurrency.Step database P α}
    (h : Concurrency.Fires st) (id : Uuid) :
    RowEffect st.op st.before.state st.after.state id := by
  rcases exec_or_abort h with ⟨v, -, hexec⟩ | ⟨e, -, hs⟩
  · exact exec_rowEffect hexec id
  · rw [hs]
    exact .same rfl

/-! ## What no call changes -/

/-- A task never loses its row. -/
theorem find?_isSome_step {P α : Type} [DecidableEq P] {st : Concurrency.Step database P α}
    (hf : Concurrency.Fires st) {id : Uuid} (h : (st.before.state.tasks.find? id).isSome) :
    (st.after.state.tasks.find? id).isSome := by
  cases step_rowEffect hf id with
  | same hrow => rw [hrow]; exact h
  | created a ws op fresh hrow => rw [hrow]; rfl
  | wrote row row' found rewrites hrow => rw [hrow]; rfl

theorem find?_isSome_reach {P α : Type} [DecidableEq P] {c c' : Concurrency.Config database P α}
    {τ : List (Concurrency.Step database P α)} (h : Concurrency.Reach c τ c') {id : Uuid}
    (hrow : (c.state.tasks.find? id).isSome) : (c'.state.tasks.find? id).isSome :=
  h.invariant (fun c => (c.state.tasks.find? id).isSome) (fun _ => True)
    (fun _ _ => trivial) hrow fun _ hf _ hrow => find?_isSome_step hf hrow

/-- The prerequisites of a task are written once, by its enqueue. -/
theorem Rewrites.dependsOn {o : StoreOp} {id : Uuid} {row row' : Task}
    (h : Rewrites o s id row row') : row'.dependsOn = row.dependsOn := by
  cases h with
  | rekicked made => cases made <;> rfl
  | _ => rfl

end AiStudio.Runtime
