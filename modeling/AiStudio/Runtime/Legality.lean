import AiStudio.Runtime.Effects
import AiStudio.Runtime.Lifecycle

/-!
# Legality of the lifecycle

In every run of the studio in which no call forces a terminal task, the recorded
history of a task is a path of the state machine, terminal states are absorbing and
a task emits `task.finished` once it is terminal and not before
(`legal_of_reach`). `complete_task(force=True)` on a merged task breaks all three
(`legal_fails_of_forced_completion`).
-/

set_option autoImplicit false

namespace AiStudio.Runtime

open AiStudio.Data AiStudio.Concurrency

/-- The hops lead from the first status to the second, each starting where the last
one ended. -/
def IsPath : TaskStatus → List TaskTransition → TaskStatus → Prop
  | source, [], target => source = target
  | source, hop :: hops, target => hop.fromStatus = source ∧ IsPath hop.toStatus hops target

theorem IsPath.concat {source : TaskStatus} {hops : List TaskTransition} {hop : TaskTransition}
    (h : IsPath source hops hop.fromStatus) : IsPath source (hops ++ [hop]) hop.toStatus := by
  induction hops generalizing source with
  | nil => exact ⟨h.symm, rfl⟩
  | cons hop' hops ih => exact ⟨h.1, ih h.2⟩

/-- A call that forces its transition. -/
def StoreOp.isForced : StoreOp → Bool
  | .transition _ _ a => a.force
  | _ => false

variable {P α : Type}

/-- The lifecycle of a task is legal along the steps `τ`, which end in `s`. -/
structure Legal (τ : List (Step database P α)) (s : Store) (id : Uuid) : Prop where
  /-- The history is a path from `up_for_grabs` to the present status. -/
  path : ∃ status, s.status? id = some status ∧ IsPath .upForGrabs (s.history id) status
  /-- Every recorded hop is an edge of the state machine, or was forced out of a state
  that is not terminal. -/
  edges : ∀ st ∈ τ, ∀ hop, st.after.state.history id = st.before.state.history id ++ [hop] →
    canTransition hop.fromStatus hop.toStatus = true ∨
      (st.op.isForced = true ∧ hop.fromStatus.isTerminal = false)
  /-- Terminal states are absorbing. -/
  absorbing : ∀ st ∈ τ, ∀ status, st.before.state.status? id = some status →
    status.isTerminal = true → st.after.state.status? id = some status
  /-- One `task.finished` for a task in a terminal state, none for another. -/
  finished : ∀ status, s.status? id = some status →
    (s.finished id).length = if status.isTerminal then 1 else 0

/-- The task has just been enqueued. -/
structure Enqueued (s : Store) (id : Uuid) : Prop where
  status : s.status? id = some .upForGrabs
  history : s.history id = []
  finished : s.finished id = []

/-- The step does not force a terminal task to another state. -/
def SparesTerminal (st : Step database P α) : Prop :=
  ∀ id target a row, st.op = .transition id target a → a.force = true →
    st.before.state.tasks.find? id = some row → row.status.isTerminal = true →
    a.admits row.status = true → row.status = target

/-- A step that spares terminal tasks moves none. -/
theorem source_of_moved {st : Step database P α} (hspare : SparesTerminal st) {m : Move}
    {row : Task} (hmakes : st.op.Makes st.before.state m row)
    (hadmits : m.Admits st.before.state row) :
    row.status.isTerminal = false ∧
      (canTransition row.status m.target = true ∨ st.op.isForced = true) := by
  rcases hadmits.legal with hforce | hcan
  · have hop := hmakes.eq_transition hforce
    refine ⟨?_, Or.inr (by rw [hop]; exact hforce)⟩
    cases hterm : row.status.isTerminal with
    | false => rfl
    | true =>
        exact absurd (hspare _ _ _ _ hop hforce hadmits.found hterm hadmits.admitted)
          hadmits.differs
  · refine ⟨?_, Or.inl hcan⟩
    cases hterm : row.status.isTerminal with
    | false => rfl
    | true =>
        rw [canTransition_of_isTerminal hterm] at hcan
        exact absurd hcan (by simp)

/-- A call that forces nothing spares terminal tasks. -/
theorem sparesTerminal_of_not_isForced {st : Step database P α} (h : st.op.isForced = false) :
    SparesTerminal st := by
  intro id target a row hop hforce
  rw [hop, StoreOp.isForced, hforce] at h
  cases h

variable [DecidableEq P]

/-- **One step keeps the lifecycle legal.** -/
theorem Legal.step {τ : List (Step database P α)} {st : Step database P α} {id : Uuid}
    (hf : Fires st) (hspare : SparesTerminal st) (h : Legal τ st.before.state id) :
    Legal (τ ++ [st]) st.after.state id := by
  obtain ⟨status, hstatus, hpath⟩ := h.path
  -- what holds of the earlier steps is untouched, what holds of this one is `hedge`, `habs`
  have assemble : ∀ status',
      st.after.state.status? id = some status' →
      IsPath .upForGrabs (st.after.state.history id) status' →
      (∀ hop, st.after.state.history id = st.before.state.history id ++ [hop] →
        canTransition hop.fromStatus hop.toStatus = true ∨
          (st.op.isForced = true ∧ hop.fromStatus.isTerminal = false)) →
      (status.isTerminal = true → status' = status) →
      (st.after.state.finished id).length = (if status'.isTerminal then 1 else 0) →
      Legal (τ ++ [st]) st.after.state id := by
    intro status' hstatus' hpath' hedge habs hfin
    refine ⟨⟨status', hstatus', hpath'⟩, fun st' hst' => ?_, fun st' hst' => ?_, ?_⟩
    · rcases List.mem_append.1 hst' with hst' | hst'
      · exact h.edges st' hst'
      · obtain rfl := List.mem_singleton.1 hst'
        exact hedge
    · rcases List.mem_append.1 hst' with hst' | hst'
      · exact h.absorbing st' hst'
      · obtain rfl := List.mem_singleton.1 hst'
        intro s₀ hs₀ hterm
        rw [hstatus] at hs₀
        obtain rfl := Option.some.inj hs₀
        rw [hstatus', habs hterm]
    · intro s₀ hs₀
      rw [hstatus'] at hs₀
      obtain rfl := Option.some.inj hs₀
      exact hfin
  cases step_taskEffect hf id with
  | same core history finished =>
      refine assemble status (by rw [Store.status?, core]; exact hstatus)
        (by rw [history]; exact hpath) (fun hop hhop => ?_) (fun _ => rfl)
        (by rw [finished]; exact h.finished status hstatus)
      rw [history] at hhop
      simp at hhop
  | created a op fresh core history finished =>
      rw [Store.status?, fresh] at hstatus
      cases hstatus
  | moved m row hid hmakes hadmits core history finished =>
      subst hid
      have hrow : row.status = status := by
        rw [Store.status?, Store.core_of_find? hadmits.found] at hstatus
        exact Option.some.inj hstatus
      obtain ⟨hnonterm, hlegal⟩ := source_of_moved hspare hmakes hadmits
      have hhop : (st.before.state.hop m.id row m.target m.args).fromStatus = status := hrow
      refine assemble m.target (by rw [Store.status?, core]; rfl) ?_ (fun hop hhop' => ?_)
        (fun hterm => ?_) ?_
      · rw [history]
        exact IsPath.concat (by rw [hhop]; exact hpath)
      · rw [history] at hhop'
        obtain rfl := List.singleton_inj.1 (List.append_cancel_left hhop')
        exact hlegal.imp_right fun hforced => ⟨hforced, hnonterm⟩
      · rw [← hrow, hnonterm] at hterm
        cases hterm
      · rw [finished, h.finished status hstatus, ← hrow, hnonterm]
        simp

/-- **Every run that spares terminal tasks keeps the lifecycle legal.** -/
theorem legal_of_reach {c c' : Config database P α} {τ : List (Step database P α)} {id : Uuid}
    (h : Reach c τ c') (h₀ : Enqueued c.state id) (hspare : ∀ st ∈ τ, SparesTerminal st) :
    Legal τ c'.state id := by
  revert hspare
  refine h.induct (motive := fun τ c' => (∀ st ∈ τ, SparesTerminal st) → Legal τ c'.state id)
    (fun _ => ?_) fun τ₁ st _ hf ih hspare => ?_
  · refine ⟨⟨.upForGrabs, h₀.status, by rw [h₀.history]; rfl⟩, by simp, by simp, ?_⟩
    intro status hstatus
    rw [h₀.status] at hstatus
    obtain rfl := Option.some.inj hstatus
    rw [h₀.finished]
    rfl
  · exact (ih fun st' hst' => hspare st' (by simp [hst'])).step hf (hspare st (by simp))

/-! ## A run that forces a merged task -/

theorem enqueued_oneTask : Enqueued oneTask taskT := ⟨rfl, rfl, rfl⟩

/-- A worker claims the task and completes it; then, if `force`, it is abandoned by force. -/
def claimAndComplete (force : Bool) : Process Unit := do
  let _ ← claimTask { workerId := "worker-a" } []
  let _ ← completeTask taskT {}
  if force then
    let _ ← completeTask taskT { status := .abandoned, force := true }

/-- The run of one worker alone, of `n` turns. -/
def soloTurns (n : Nat) : List (Choice Unit Exn) := List.replicate n ((), none)

/-- The configuration with one worker. -/
def soloWorker (force : Bool) : Config database Unit Unit :=
  ⟨oneTask, fun _ => claimAndComplete force⟩

/-- **Forcing a merged task to `abandoned` breaks the lifecycle**: the run ends with
two `task.finished` events. -/
theorem legal_fails_of_forced_completion :
    Enqueued oneTask taskT ∧
      ¬ Legal ((soloWorker true).trace (soloTurns 6)) ((soloWorker true).run (soloTurns 6)).state
        taskT := by
  refine ⟨enqueued_oneTask, fun h => ?_⟩
  have hone := h.finished .abandoned (by decide)
  have htwo : (((soloWorker true).run (soloTurns 6)).state.finished taskT).length = 2 := by
    decide
  rw [htwo] at hone
  exact absurd hone (by decide)

/-- A worker that claims its task and completes it. -/
theorem legal_of_reach_soloWorker :
    Legal ((soloWorker false).trace (soloTurns 5)) ((soloWorker false).run (soloTurns 5)).state
      taskT := by
  have hall : ((soloWorker false).trace (soloTurns 5)).all (fun st => !st.op.isForced) = true := by
    decide
  refine legal_of_reach (Reach.of_run _ _) enqueued_oneTask fun st hst => ?_
  exact sparesTerminal_of_not_isForced (by simpa using List.all_eq_true.1 hall st hst)

end AiStudio.Runtime
