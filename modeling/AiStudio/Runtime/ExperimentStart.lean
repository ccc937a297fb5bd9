import AiStudio.Runtime.Experiments
import AiStudio.Runtime.Replan

/-!
# Starting an experiment

Embeds `start_experiment` of `runtime/experiment/api.py`: the experiment is read, its work items are
enqueued one transaction each, and a guarded update moves it to `running`. Any number of calls on
one experiment run beside each other, with failures at any call of the database.

- `StartLaw`: a call that raises leaves no task, and of the calls that return there is one, whose
  work items are enqueued once each.
- `startLaw_of_reach`: when that holds. The update comes behind the enqueues, so a call that raises
  between them leaves what it has enqueued.
-/

set_option autoImplicit false

namespace AiStudio.Runtime

open AiStudio.Data AiStudio.Concurrency

/-! ## Experiments -/

/-- `ExperimentStatus`. -/
inductive ExperimentStatus where
  | proposed
  | running
  | evaluated
  | kept
  | scaled
  | killed
  deriving DecidableEq, Repr

namespace ExperimentStatus

/-- The wire string of a status. -/
def value : ExperimentStatus → String
  | proposed => "proposed"
  | running => "running"
  | evaluated => "evaluated"
  | kept => "kept"
  | scaled => "scaled"
  | killed => "killed"

/-- `TRANSITIONS`, in the order of the names. -/
def transitions : ExperimentStatus → List ExperimentStatus
  | proposed => [killed, running]
  | running => [evaluated, killed]
  | evaluated => [kept, killed, scaled]
  | kept | scaled | killed => []

/-- `sorted(TRANSITIONS[frm]) or 'none — terminal'`. -/
def allowedText (source : ExperimentStatus) : String :=
  match source.transitions with
  | [] => "none — terminal"
  | targets => "[" ++ ", ".intercalate (targets.map fun target => "'" ++ target.value ++ "'") ++ "]"

/-- `assert_transition`. -/
def assertTransition (source target : ExperimentStatus) : Except Exn Unit :=
  if target ∈ source.transitions then .ok ()
  else .error (.valueError ("illegal transition '" ++ source.value ++ "' → '" ++ target.value ++
    "' (allowed: " ++ source.allowedText ++ ")"))

end ExperimentStatus

/-- A row of `experiments`. -/
structure Experiment where
  workstream : Workstream
  hypothesis : String
  successMetric : SuccessMetric FloatRepr
  budgetTokens : Option Int
  budgetUsd : Option FloatRepr
  status : ExperimentStatus
  decision : Option ExperimentDecision
  observedValue : Option FloatRepr
  spentTokens : Int
  spentUsd : FloatRepr
  createdAt : Time
  startedAt : Option Time
  evaluatedAt : Option Time

/-- The payload of `experiment.started`. -/
structure ExperimentStarted where
  experimentId : Uuid
  workstream : Workstream
  status : ExperimentStatus
  metricName : String
  target : FloatRepr
  comparator : String
  budgetTokens : Option Int
  budgetUsd : Option FloatRepr
  taskIds : List Uuid

/-- The experiments, and what the sink was handed. -/
structure Experiments where
  rows : Table Uuid Experiment
  started : List ExperimentStarted

/-- The row behind the update of `start_experiment`. -/
def Experiment.run (exp : Experiment) (now : Time) : Experiment :=
  { exp with status := .running, startedAt := some now }

/-- `_emit`, of `experiment.started`. -/
def Experiment.startedEvent (exp : Experiment) (id : Uuid) (taskIds : List Uuid) :
    ExperimentStarted where
  experimentId := id
  workstream := exp.workstream
  status := exp.status
  metricName := exp.successMetric.name
  target := exp.successMetric.target
  comparator := exp.successMetric.comparator
  budgetTokens := exp.budgetTokens
  budgetUsd := exp.budgetUsd
  taskIds := taskIds

/-- The calls on experiments. -/
inductive ExperimentOp where
  | get (id : Uuid)
  /-- The guarded update, and the event behind it. -/
  | markRunning (id : Uuid) (taskIds : List Uuid)

namespace ExperimentOp

/-- What a call returns. -/
def Res : ExperimentOp → Type
  | get _ => Option Experiment
  | markRunning .. => Experiment

/-- The transaction of a call. -/
def exec : (o : ExperimentOp) → Store × Experiments → Except Exn (o.Res × (Store × Experiments))
  | get id => fun s => .ok (s.2.rows.find? id, s)
  | markRunning id taskIds => fun s =>
      let lost : Exn := .valueError ("experiment " ++ id.text ++ " is no longer 'proposed'")
      match s.2.rows.find? id with
      | none => .error lost
      | some exp =>
          if exp.status = .proposed then
            let exp := exp.run s.1.now
            .ok (exp, (s.1, { rows := s.2.rows.modify id fun _ => exp
                              started := s.2.started ++ [exp.startedEvent id taskIds] }))
          else .error lost

end ExperimentOp

/-- The task queue beside the experiments. -/
abbrev laboratory : Interface (Store × Experiments) Exn :=
  database.beside { Op := ExperimentOp, Res := ExperimentOp.Res, exec := ExperimentOp.exec }

/-! ## The start -/

/-- What Python and the server make of the values of a work item. -/
structure ItemReading where
  truncate : FloatRepr → Except Exn Int
  /-- What a column of texts keeps of a parameter. -/
  text : Json Empty → Except Exn String
  /-- What a column of integers keeps of a parameter. -/
  integer : Json Empty → Except Exn (Option Int)
  traffic : Traffic

/-- `dict(value or {})`. -/
def dictOrEmpty (value : Json Empty) : Except Exn Doc :=
  if !value.truthy then .ok []
  else
    match value with
    | .obj fields => .ok fields
    | .arr items => items.foldlM (fun doc item =>
        match item with
        | .arr [.str key, value] => .ok (setKey doc key value)
        | _ => .error (.runtimeError "cannot convert dictionary update sequence element")) []
    | _ => .error (.runtimeError "object is not iterable")

variable (r : ItemReading)

/-- What a work item hands to `enqueue_task`. -/
def itemArgs (workstream : Workstream) (id : Uuid) (item : Doc) : Except Exn EnqueueArgs := do
  let payload ← dictOrEmpty (item.getD "payload" .null)
  let payload := setKey payload "experiment_id" (.str id.text)
  let type ← (item.lookup "type").elim (.error (.runtimeError "'type'")) .ok
  let priority ← pyInt r.truncate (item.getD "priority" (.int 0))
  return { workstream := workstream.name, type := ← r.text type, payload, priority
           budgetTokens := ← r.integer (item.getD "budget_tokens" .null), traffic := r.traffic }

/-- The loop over the work items, from the `k`-th on; `newId` are the ids the server draws. -/
def enqueueItems (exp : Experiment) (id : Uuid) (newId : ℕ → Uuid) :
    ℕ → List Doc → Program laboratory (List Uuid)
  | _, [] => .ret []
  | k, item :: items =>
      match itemArgs r exp.workstream id item with
      | .error e => .throw e
      | .ok a => do
          let _ ← Program.op (I := laboratory) (.inl (.enqueueTask (newId k) a))
          let ids ← enqueueItems exp id newId (k + 1) items
          return newId k :: ids

/-- `start_experiment`, behind the read. -/
def startFound (id : Uuid) (workItems : List Doc) (newId : ℕ → Uuid) (exp : Experiment) :
    Program laboratory Experiment :=
  match exp.status.assertTransition .running with
  | .error e => .throw e
  | .ok () => do
      let taskIds ← enqueueItems r exp id newId 0 workItems
      Program.op (I := laboratory) (.inr (.markRunning id taskIds))

/-- `start_experiment`. -/
def startExperiment (id : Uuid) (workItems : List Doc) (newId : ℕ → Uuid) :
    Program laboratory Experiment := do
  let found ← Program.op (I := laboratory) (.inr (.get id))
  match (found : Option Experiment) with
  | none => .throw (.valueError ("experiment " ++ id.text ++ " not found"))
  | some exp => startFound r id workItems newId exp

/-! ## The law -/

/-- The arguments of a call beside the experiment, and the ids the server draws for it. -/
structure StartCall where
  workItems : List Doc
  newId : ℕ → Uuid

/-- What a call returns. -/
abbrev LaboratoryRes (o : StoreOp ⊕ ExperimentOp) : Type := Sum.elim StoreOp.Res ExperimentOp.Res o

/-- The task a call enqueued. -/
def enqueuedTask : (o : StoreOp ⊕ ExperimentOp) → Except Exn (LaboratoryRes o) →
    Option (Uuid × EnqueueArgs)
  | .inl (.enqueueTask id a), .ok _ => some (id, a)
  | _, _ => none

/-- The experiment a call moved to `running`. -/
def startedBy : (o : StoreOp ⊕ ExperimentOp) → Except Exn (LaboratoryRes o) → Option Experiment
  | .inr (.markRunning _ _), .ok exp => some exp
  | _, _ => none

section Law

variable {P : Type} [DecidableEq P]

/-- The tasks a process enqueued, in order. -/
def enqueuedIn (τ : List (Step laboratory P Experiment)) (p : P) : List (Uuid × EnqueueArgs) :=
  τ.filterMap fun st => if st.pid = p then enqueuedTask st.op st.out else none

/-- The experiments a process moved to `running`. -/
def startedIn (τ : List (Step laboratory P Experiment)) (p : P) : List Experiment :=
  τ.filterMap fun st => if st.pid = p then startedBy st.op st.out else none

/-- **The law of the start**, of calls on one experiment, up to a configuration. -/
structure StartLaw (id : Uuid) (calls : P → StartCall) (s : Store × Experiments)
    (τ : List (Step laboratory P Experiment)) (c : Config laboratory P Experiment) : Prop where
  /-- A call that raises leaves no task and does not touch the experiment. -/
  raised : ∀ p e, c.pool p = .throw e → enqueuedIn τ p = [] ∧ startedIn τ p = []
  /-- A call that returns moved the experiment and enqueued its work items, once each. -/
  returned : ∀ p exp, c.pool p = .ret exp → startedIn τ p = [exp] ∧
    ∃ before, s.2.rows.find? id = some before ∧
      (calls p).workItems.map (itemArgs r before.workstream id) =
        (enqueuedIn τ p).map fun task => .ok task.2
  /-- When all calls have ended and one has returned, its work items are the tasks that are new. -/
  once : (∀ p, (c.pool p).head? = none) → ∀ p exp, c.pool p = .ret exp →
    c.state.1.tasks.rows.map Prod.fst =
      s.1.tasks.rows.map Prod.fst ++ (enqueuedIn τ p).map Prod.fst

end Law

/-! ## The outline of a call -/

/-- Where a call stands. -/
inductive Starting where
  | reading (workItems : List Doc)
  | enqueueing (workstream : Workstream) (done : List (Uuid × EnqueueArgs)) (left : List Doc)
  | failed
  | started (workstream : Workstream) (done : List (Uuid × EnqueueArgs)) (exp : Experiment)

variable (id : Uuid)

/-- The next call of the database. -/
def Starting.Allows : Starting → StoreOp ⊕ ExperimentOp → Prop
  | .reading _, .inr (.get id') => id' = id
  | .enqueueing workstream _ (item :: _), .inl (.enqueueTask _ a) =>
      itemArgs r workstream id item = .ok a
  | .enqueueing _ done [], .inr (.markRunning id' taskIds) =>
      id' = id ∧ taskIds = done.map Prod.fst
  | _, _ => False

/-- Where a call stands behind a call of the database. -/
def Starting.next :
    Starting → (o : StoreOp ⊕ ExperimentOp) → Except Exn (LaboratoryRes o) → Starting
  | .reading workItems, .inr (.get _), .ok (some exp) =>
      if .running ∈ exp.status.transitions then .enqueueing exp.workstream [] workItems else .failed
  | .enqueueing workstream done (_ :: left), .inl (.enqueueTask newId a), .ok _ =>
      .enqueueing workstream (done ++ [(newId, a)]) left
  | .enqueueing workstream done [], .inr (.markRunning _ _), .ok exp => .started workstream done exp
  | _, _, _ => .failed

/-- How a call may end. -/
def Starting.Ends : Starting → Except Exn Experiment → Prop
  | .enqueueing workstream _ (item :: _), .error e => itemArgs r workstream id item = .error e
  | .failed, .error _ => True
  | .started _ _ exp, out => out = .ok exp
  | _, _ => False

/-- The outline of a call. -/
def startOutline : Outline laboratory Starting Experiment where
  allows := Starting.Allows r id
  next := Starting.next
  ends := Starting.Ends r id

section Outlines

variable {r} {id} {newId : ℕ → Uuid}

theorem holds_enqueueItems (exp : Experiment) {items : List Doc} {k : ℕ}
    {done : List (Uuid × EnqueueArgs)} {f : List Uuid → Program laboratory Experiment}
    (hf : ∀ ids all, all.map Prod.fst = done.map Prod.fst ++ ids →
      (startOutline r id).Holds (.enqueueing exp.workstream all []) (f ids)) :
    (startOutline r id).Holds (.enqueueing exp.workstream done items)
      ((enqueueItems r exp id newId k items).bind f) := by
  induction items generalizing k done f with
  | nil => exact hf [] done (List.append_nil _).symm
  | cons item items ih =>
      rw [enqueueItems]
      cases hargs : itemArgs r exp.workstream id item with
      | error e => exact hargs
      | ok a =>
          refine ⟨hargs, fun out => ?_⟩
          cases out with
          | error e => exact trivial
          | ok row =>
              change (startOutline r id).Holds
                (.enqueueing exp.workstream (done ++ [(newId k, a)]) items)
                (((enqueueItems r exp id newId (k + 1) items).bind fun ids =>
                  .ret (newId k :: ids)).bind f)
              rw [Program.bind_assoc]
              exact ih fun ids all hall => hf (newId k :: ids) all (by simpa using hall)

theorem holds_startFound (exp : Experiment) (workItems : List Doc) :
    (startOutline r id).Holds
      (if .running ∈ exp.status.transitions then .enqueueing exp.workstream [] workItems
        else .failed)
      (startFound r id workItems newId exp) := by
  rw [startFound, ExperimentStatus.assertTransition]
  by_cases hlegal : .running ∈ exp.status.transitions
  · rw [if_pos hlegal, if_pos hlegal]
    refine holds_enqueueItems exp fun ids all hall => ⟨⟨rfl, hall.symm⟩, fun out => ?_⟩
    cases out with
    | error e => exact trivial
    | ok row => exact rfl
  · rw [if_neg hlegal, if_neg hlegal]
    exact trivial

/-- **A call follows its outline.** -/
theorem holds_startExperiment (workItems : List Doc) :
    (startOutline r id).Holds (.reading workItems) (startExperiment r id workItems newId) := by
  refine ⟨rfl, fun out => ?_⟩
  cases out with
  | error e => exact trivial
  | ok found =>
      cases found with
      | none => exact trivial
      | some exp => exact holds_startFound exp workItems

end Outlines

/-! ## How far a call has come -/

section Progress

variable {r} {id} {workItems : List Doc} {enqueued : List (Uuid × EnqueueArgs)}
  {moved : List Experiment}

/-- What a call has enqueued and moved, by where it stands. -/
def StartProgress (r : ItemReading) (id : Uuid) (workItems : List Doc)
    (enqueued : List (Uuid × EnqueueArgs)) (moved : List Experiment) : Starting → Prop
  | .reading items => items = workItems ∧ enqueued = [] ∧ moved = []
  | .enqueueing workstream done left => enqueued = done ∧ moved = [] ∧
      ∃ items, workItems = items ++ left ∧
        items.map (itemArgs r workstream id) = done.map fun task => .ok task.2
  | .failed => enqueued = [] ∧ moved = []
  | .started workstream done exp => enqueued = done ∧ moved = [exp] ∧
      workItems.map (itemArgs r workstream id) = done.map fun task => .ok task.2

/-- What is left when a call of the database raises: nothing, since it goes through when something
is enqueued. -/
theorem startProgress_failed {ε ρ : Type} {out : Except ε ρ} {e : ε} (hout : out = .error e)
    (hok : enqueued ≠ [] → out.isOk = true) (hmoved : moved = []) :
    StartProgress r id workItems (enqueued ++ []) (moved ++ []) .failed := by
  rw [List.append_nil, List.append_nil]
  refine ⟨by_contra fun hne => ?_, hmoved⟩
  have := hok hne
  rw [hout] at this
  cases this

/-- **A call of the database**, which goes through when something is enqueued. -/
theorem startProgress_next {l : Starting} {o : StoreOp ⊕ ExperimentOp}
    {out : Except Exn (LaboratoryRes o)} (h : StartProgress r id workItems enqueued moved l)
    (hallow : l.Allows r id o) (hok : enqueued ≠ [] → out.isOk = true) :
    StartProgress r id workItems (enqueued ++ (enqueuedTask o out).toList)
      (moved ++ (startedBy o out).toList) (l.next o out) := by
  cases l with
  | failed => cases hallow
  | started workstream done exp => cases hallow
  | reading items =>
      obtain ⟨rfl, rfl, rfl⟩ := h
      cases o with
      | inl o => cases hallow
      | inr o =>
          cases o with
          | markRunning id' taskIds => cases hallow
          | get id' =>
              cases out with
              | error e => exact ⟨rfl, rfl⟩
              | ok found =>
                  cases found with
                  | none => exact ⟨rfl, rfl⟩
                  | some exp =>
                      change StartProgress r id items [] [] (if .running ∈ exp.status.transitions
                        then .enqueueing exp.workstream [] items else .failed)
                      split
                      · exact ⟨rfl, rfl, [], rfl, rfl⟩
                      · exact ⟨rfl, rfl⟩
  | enqueueing workstream done left =>
      obtain ⟨rfl, rfl, items, rfl, hitems⟩ := h
      cases left with
      | nil =>
          cases o with
          | inl o => cases o <;> cases hallow
          | inr o =>
              cases o with
              | get id' => cases hallow
              | markRunning id' taskIds =>
                  cases out with
                  | error e => exact startProgress_failed rfl hok rfl
                  | ok exp =>
                      refine ⟨List.append_nil _, rfl, ?_⟩
                      rw [List.append_nil]
                      exact hitems
      | cons item left =>
          cases o with
          | inr o => cases o <;> cases hallow
          | inl o =>
              cases o with
              | enqueueTask newId a =>
                  have hargs : itemArgs r workstream id item = .ok a := hallow
                  cases out with
                  | error e => exact startProgress_failed rfl hok rfl
                  | ok row =>
                      refine ⟨rfl, rfl, items ++ [item], ?_, ?_⟩
                      · rw [List.append_assoc, List.singleton_append]
                      · rw [List.map_append, List.map_append, hitems, List.map_singleton,
                          List.map_singleton, hargs]
              | _ => cases hallow

end Progress

/-! ## The experiment -/

section Experiment

variable {r} {id} {s s' : Store × Experiments}

/-- The workstream a call has read. -/
def Starting.workstream? : Starting → Option Workstream
  | .enqueueing workstream _ _ => some workstream
  | .started workstream _ _ => some workstream
  | _ => none

/-- A call that has moved the experiment. -/
def Starting.HasStarted : Starting → Prop
  | .started _ _ _ => True
  | _ => False

/-- What the guarded update does. -/
theorem markRunning_eq_ok {exp : Experiment} {taskIds : List Uuid}
    (h : (ExperimentOp.markRunning id taskIds).exec s = .ok (exp, s')) :
    ∃ before, s.2.rows.find? id = some before ∧ before.status = .proposed ∧
      exp = before.run s.1.now ∧
      s' = (s.1, { rows := s.2.rows.modify id fun _ => exp
                   started := s.2.started ++ [exp.startedEvent id taskIds] }) := by
  dsimp only [ExperimentOp.exec] at h
  split at h
  · cases h
  rename_i before hbefore
  split at h
  · rename_i hproposed
    cases h
    exact ⟨before, hbefore, hproposed, rfl, rfl⟩
  · cases h

/-- A call whose next call of the database is a read. -/
theorem not_hasStarted_read {items : List Doc} {id' : Uuid}
    {out : Except Exn (LaboratoryRes (.inr (.get id')))} :
    ¬ (Starting.next (.reading items) (.inr (.get id')) out).HasStarted := by
  rcases out with e | _ | exp
  · exact fun h => h
  · exact fun h => h
  · change ¬ (if .running ∈ exp.status.transitions then
      Starting.enqueueing exp.workstream [] items else .failed).HasStarted
    split <;> exact fun h => h

/-- **What a call does to the experiment**: nothing, or it moves one that is proposed. -/
theorem start_effect {l : Starting} {o : StoreOp ⊕ ExperimentOp}
    {out : Except Exn (LaboratoryRes o)}
    (hallow : l.Allows r id o)
    (hout : (∃ v, out = .ok v ∧ laboratory.exec o s = .ok (v, s')) ∨
      ∃ e, out = .error e ∧ s' = s) :
    (s'.2 = s.2 ∧ ¬ (l.next o out).HasStarted) ∨
      ∃ exp, s.2.rows.find? id = some exp ∧ exp.status = .proposed ∧
        s'.2.rows = s.2.rows.modify id fun _ => exp.run s.1.now := by
  cases l with
  | failed => cases hallow
  | started workstream done exp => cases hallow
  | reading items =>
      cases o with
      | inl o => cases hallow
      | inr o =>
          cases o with
          | markRunning id' taskIds => cases hallow
          | get id' =>
              refine .inl ⟨?_, not_hasStarted_read⟩
              rcases hout with ⟨v, -, hexec⟩ | ⟨e, -, hsame⟩
              · obtain ⟨-, rfl⟩ := Prod.mk.inj (Except.ok.inj hexec)
                rfl
              · rw [hsame]
  | enqueueing workstream done left =>
      cases left with
      | nil =>
          cases o with
          | inl o => cases o <;> cases hallow
          | inr o =>
              cases o with
              | get id' => cases hallow
              | markRunning id' taskIds =>
                  obtain ⟨rfl, -⟩ := hallow
                  rcases hout with ⟨exp, rfl, hexec⟩ | ⟨e, rfl, hsame⟩
                  · obtain ⟨before, hbefore, hproposed, rfl, rfl⟩ := markRunning_eq_ok hexec
                    exact .inr ⟨before, hbefore, hproposed, rfl⟩
                  · exact .inl ⟨by rw [hsame], fun h => h⟩
      | cons item left =>
          cases o with
          | inr o => cases o <;> cases hallow
          | inl o =>
              cases o with
              | enqueueTask newId a =>
                  rcases hout with ⟨row, rfl, hexec⟩ | ⟨e, rfl, hsame⟩
                  · exact .inl ⟨(Interface.exec_inl_eq_ok hexec).2, fun h => h⟩
                  · exact .inl ⟨by rw [hsame], fun h => h⟩
              | _ => cases hallow

/-- What a call has read is the row of the experiment. -/
theorem workstream_next {l : Starting} {o : StoreOp ⊕ ExperimentOp}
    {out : Except Exn (LaboratoryRes o)} (hallow : l.Allows r id o)
    (hout : (∃ v, out = .ok v ∧ laboratory.exec o s = .ok (v, s')) ∨
      ∃ e, out = .error e ∧ s' = s) {workstream : Workstream}
    (h : (l.next o out).workstream? = some workstream) :
    l.workstream? = some workstream ∨
      ∃ exp, s.2.rows.find? id = some exp ∧ exp.workstream = workstream := by
  cases l with
  | failed => cases hallow
  | started workstream done exp => cases hallow
  | reading items =>
      cases o with
      | inl o => cases hallow
      | inr o =>
          cases o with
          | markRunning id' taskIds => cases hallow
          | get id' =>
              obtain rfl : id' = id := hallow
              rcases hout with ⟨found, rfl, hexec⟩ | ⟨e, rfl, -⟩
              · obtain ⟨hfound, -⟩ := Prod.mk.inj (Except.ok.inj hexec)
                cases found with
                | none => cases h
                | some exp =>
                    refine .inr ⟨exp, hfound, ?_⟩
                    change (if .running ∈ exp.status.transitions then
                      Starting.enqueueing exp.workstream [] items else .failed).workstream? = _ at h
                    split at h
                    · exact Option.some.inj h
                    · cases h
              · cases h
  | enqueueing ws done left =>
      cases left with
      | nil =>
          cases o with
          | inl o => cases o <;> cases hallow
          | inr o =>
              cases o with
              | get id' => cases hallow
              | markRunning id' taskIds =>
                  cases out with
                  | error e => cases h
                  | ok exp => exact .inl h
      | cons item left =>
          cases o with
          | inr o => cases o <;> cases hallow
          | inl o =>
              cases o with
              | enqueueTask newId a =>
                  cases out with
                  | error e => cases h
                  | ok row => exact .inl h
              | _ => cases hallow

/-- What a call does to the task queue: it adds the task it enqueues. -/
theorem tasks_effect {l : Starting} {o : StoreOp ⊕ ExperimentOp}
    {out : Except Exn (LaboratoryRes o)}
    (hallow : l.Allows r id o)
    (hout : (∃ v, out = .ok v ∧ laboratory.exec o s = .ok (v, s')) ∨
      ∃ e, out = .error e ∧ s' = s) :
    s'.1.tasks.rows.map Prod.fst =
      s.1.tasks.rows.map Prod.fst ++ ((enqueuedTask o out).map Prod.fst).toList := by
  rcases hout with ⟨v, rfl, hexec⟩ | ⟨e, rfl, rfl⟩
  · cases o with
    | inl o =>
        cases o with
        | enqueueTask newId a =>
            obtain ⟨workstream, tasks, -, -, htasks, hs'⟩ :=
              enqueueTask_cases (Interface.exec_inl_eq_ok hexec).1
            rw [hs']
            change tasks.rows.map Prod.fst = s.1.tasks.rows.map Prod.fst ++ [newId]
            rw [(Table.insert?_eq_some htasks).2, List.map_append]
            rfl
        | _ =>
            cases l with
            | failed => cases hallow
            | started workstream done exp => cases hallow
            | reading items => cases hallow
            | enqueueing workstream done left => cases left <;> cases hallow
    | inr o =>
        cases o with
        | get id' =>
            obtain ⟨-, rfl⟩ := Prod.mk.inj (Except.ok.inj hexec)
            exact (List.append_nil _).symm
        | markRunning id' taskIds =>
            obtain ⟨before, -, -, -, rfl⟩ := markRunning_eq_ok hexec
            exact (List.append_nil _).symm
  · have hnone : enqueuedTask o (.error e) = none := by
      rcases o with o | o
      · cases o <;> rfl
      · cases o <;> rfl
    rw [hnone]
    exact (List.append_nil _).symm

end Experiment

/-! ## Runs -/

section Runs

variable {r} {id} {P : Type} [DecidableEq P] {calls : P → StartCall} {s : Store × Experiments}
  {τ : List (Step laboratory P Experiment)} {c : Config laboratory P Experiment}
  {st : Step laboratory P Experiment}

/-- The calls on one experiment. -/
def starters (r : ItemReading) (id : Uuid) (calls : P → StartCall) :
    P → Program laboratory Experiment :=
  fun p => startExperiment r id (calls p).workItems (calls p).newId

/-- Where the calls stand at first. -/
def atRead (calls : P → StartCall) (p : P) : Starting := .reading (calls p).workItems

omit [DecidableEq P] in
theorem holds_starters (p : P) :
    (startOutline r id).Holds (atRead calls p) (starters r id calls p) :=
  holds_startExperiment (calls p).workItems

/-- A failed call of the database changes nothing. -/
theorem abort_laboratory (o : laboratory.Op) (s : Store × Experiments) :
    laboratory.abort o s = s := by
  cases o <;> rfl

/-- What a step is: its call goes through, or it changes nothing. -/
theorem laboratory_outcome (hf : Fires st) :
    (∃ v, st.out = .ok v ∧ laboratory.exec st.op st.before.state = .ok (v, st.after.state)) ∨
      ∃ e, st.out = .error e ∧ st.after.state = st.before.state := by
  rcases hf.outcome with hok | ⟨e, hout, hafter⟩
  · exact .inl hok
  · exact .inr ⟨e, hout, hafter.trans (abort_laboratory st.op st.before.state)⟩

/-- What holds of the experiment and of where the calls stand. -/
structure StartInv (id : Uuid) (s s' : Store × Experiments) (ls : P → Starting) : Prop where
  row : ∀ exp, s'.2.rows.find? id = some exp →
    ∃ before, s.2.rows.find? id = some before ∧ before.workstream = exp.workstream
  read : ∀ p workstream, (ls p).workstream? = some workstream →
    ∃ before, s.2.rows.find? id = some before ∧ before.workstream = workstream
  moved : ∀ p, (ls p).HasStarted → ∃ exp, s'.2.rows.find? id = some exp ∧ exp.status ≠ .proposed
  single : ∀ p q, (ls p).HasStarted → (ls q).HasStarted → p = q

/-- **A step keeps the invariant.** -/
theorem startInv_step {ls : P → Starting} (hf : Fires st)
    (hallow : (ls st.pid).Allows r id st.op) (hinv : StartInv id s st.before.state ls) :
    StartInv id s st.after.state ((startOutline r id).advance ls st) := by
  have hself : (startOutline r id).advance ls st st.pid = (ls st.pid).next st.op st.out :=
    Outline.advance_self _ ls st
  have hother : ∀ p, p ≠ st.pid → (startOutline r id).advance ls st p = ls p :=
    fun p hp => Outline.advance_ne _ ls st hp
  have hread : ∀ p workstream,
      ((startOutline r id).advance ls st p).workstream? = some workstream →
      ∃ before, s.2.rows.find? id = some before ∧ before.workstream = workstream := by
    intro p workstream hp
    by_cases hpid : p = st.pid
    · subst hpid
      rw [hself] at hp
      rcases workstream_next hallow (laboratory_outcome hf) hp with hkept | ⟨exp, hexp, rfl⟩
      · exact hinv.read st.pid workstream hkept
      · exact hinv.row exp hexp
    · rw [hother p hpid] at hp
      exact hinv.read p workstream hp
  rcases start_effect hallow (laboratory_outcome hf) with
    ⟨hsame, hnot⟩ | ⟨exp, hexp, hproposed, hrows⟩
  · have hstarted : ∀ p, ((startOutline r id).advance ls st p).HasStarted → (ls p).HasStarted := by
      intro p hp
      by_cases hpid : p = st.pid
      · subst hpid
        rw [hself] at hp
        exact absurd hp hnot
      · rwa [hother p hpid] at hp
    refine ⟨?_, hread, ?_, fun p q hp hq => hinv.single p q (hstarted p hp) (hstarted q hq)⟩
    · rw [hsame]
      exact hinv.row
    · rw [hsame]
      exact fun p hp => hinv.moved p (hstarted p hp)
  · -- Nobody has moved the experiment before, since it is proposed.
    have hnone : ∀ p, ¬ (ls p).HasStarted := by
      intro p hp
      obtain ⟨exp', hexp', hne⟩ := hinv.moved p hp
      obtain rfl := Option.some.inj (hexp.symm.trans hexp')
      exact hne hproposed
    have hfind : st.after.state.2.rows.find? id = some (exp.run st.before.state.1.now) := by
      rw [hrows, Table.find?_modify_self, hexp]
      rfl
    have hmover : ∀ p, ((startOutline r id).advance ls st p).HasStarted → p = st.pid := by
      intro p hp
      by_contra hpid
      rw [hother p hpid] at hp
      exact hnone p hp
    refine ⟨fun exp' hexp' => ?_, hread, fun p _ => ⟨_, hfind, fun h => by cases h⟩,
      fun p q hp hq => (hmover p hp).trans (hmover q hq).symm⟩
    obtain rfl := Option.some.inj (hfind.symm.trans hexp')
    exact hinv.row exp hexp

theorem startInv_of_reach (hrun : Reach ⟨s, starters r id calls⟩ τ c) :
    StartInv id s c.state ((startOutline r id).track (atRead calls) τ) := by
  refine Outline.invariant (StartInv id s) (fun _ => True) hrun holds_starters
    (fun _ _ => trivial) ⟨fun exp hexp => ⟨exp, hexp, rfl⟩, ?_, ?_, ?_⟩
    fun ls st hf _ _ hallow => startInv_step hf hallow
  · intro p workstream hp
    cases hp
  · intro p hp
    cases hp
  · intro p q hp
    cases hp

/-! ## The condition -/

/-- A failure of the database strikes a call that would go through. -/
def Struck (st : Step laboratory P Experiment) : Prop :=
  (∃ v s', laboratory.exec st.op st.before.state = .ok (v, s')) ∧ st.out.isOk = false

/-- The database does not fail the call, and an update finds the experiment proposed. -/
def Undisturbed (id : Uuid) (st : Step laboratory P Experiment) : Prop :=
  match st.op with
  | .inl _ => st.out.isOk = true
  | .inr (.get _) => st.out.isOk = true
  | .inr (.markRunning _ _) => ¬ Struck st ∧
      ∃ exp, st.before.state.2.rows.find? id = some exp ∧ exp.status = .proposed

/-- Behind its first enqueue every call is undisturbed. -/
def Unhindered (id : Uuid) (τ : List (Step laboratory P Experiment)) : Prop :=
  ∀ τ₁ st τ₂, τ = τ₁ ++ st :: τ₂ → enqueuedIn τ₁ st.pid ≠ [] → Undisturbed id st

omit [DecidableEq P] in
/-- The update of an experiment that is proposed goes through. -/
theorem exec_markRunning {o : StoreOp ⊕ ExperimentOp} {id' : Uuid} {taskIds : List Uuid}
    {exp : Experiment} {s : Store × Experiments} (hop : o = .inr (.markRunning id' taskIds))
    (hexp : s.2.rows.find? id' = some exp) (hproposed : exp.status = .proposed) :
    ∃ v s', laboratory.exec o s = .ok (v, s') := by
  subst hop
  refine ⟨exp.run s.1.now, (s.1, ⟨s.2.rows.modify id' fun _ => exp.run s.1.now,
    s.2.started ++ [(exp.run s.1.now).startedEvent id' taskIds]⟩), ?_⟩
  change ExperimentOp.exec (.markRunning id' taskIds) s = _
  dsimp only [ExperimentOp.exec]
  rw [hexp]
  exact if_pos hproposed

omit [DecidableEq P] in
/-- An undisturbed call goes through. -/
theorem isOk_of_undisturbed {l : Starting} (hallow : l.Allows r id st.op)
    (h : Undisturbed id st) : st.out.isOk = true := by
  unfold Undisturbed at h
  split at h
  · exact h
  · exact h
  · rename_i id' taskIds hop
    obtain ⟨hstruck, exp, hexp, hproposed⟩ := h
    have hid : id' = id := by
      rw [hop] at hallow
      cases l with
      | failed => cases hallow
      | started workstream done exp => cases hallow
      | reading items => cases hallow
      | enqueueing workstream done left =>
          cases left with
          | nil => exact hallow.1
          | cons item left => cases hallow
    subst hid
    by_contra hne
    exact hstruck ⟨exec_markRunning hop hexp hproposed, Bool.eq_false_iff.2 hne⟩

/-! ## The law holds -/

theorem enqueuedIn_concat (τ : List (Step laboratory P Experiment))
    (st : Step laboratory P Experiment) (p : P) :
    enqueuedIn (τ ++ [st]) p =
      enqueuedIn τ p ++ if st.pid = p then (enqueuedTask st.op st.out).toList else [] := by
  rw [enqueuedIn, List.filterMap_append, enqueuedIn]
  by_cases hp : st.pid = p
  · cases hop : enqueuedTask st.op st.out <;> simp [hp, hop]
  · simp [hp]

theorem startedIn_concat (τ : List (Step laboratory P Experiment))
    (st : Step laboratory P Experiment) (p : P) :
    startedIn (τ ++ [st]) p =
      startedIn τ p ++ if st.pid = p then (startedBy st.op st.out).toList else [] := by
  rw [startedIn, List.filterMap_append, startedIn]
  by_cases hp : st.pid = p
  · cases hop : startedBy st.op st.out <;> simp [hp, hop]
  · simp [hp]

/-- **How far the calls of such a run have come.** -/
theorem startProgress_of_reach (hrun : Reach ⟨s, starters r id calls⟩ τ c)
    (hunhindered : Unhindered id τ) (p : P) : StartProgress r id (calls p).workItems (enqueuedIn τ p) (startedIn τ p)
      ((startOutline r id).track (atRead calls) τ p) := by
  refine hrun.induct (motive := fun τ _ => Unhindered id τ →
    StartProgress r id (calls p).workItems (enqueuedIn τ p) (startedIn τ p)
      ((startOutline r id).track (atRead calls) τ p)) (fun _ => ⟨rfl, rfl, rfl⟩) ?_ hunhindered
  intro τ₁ st hr hf ih hunhindered
  have hprogress := ih fun τ₂ st' τ₃ heq =>
    hunhindered τ₂ st' (τ₃ ++ [st]) (by rw [heq, List.append_assoc, List.cons_append])
  rw [Outline.track_concat, enqueuedIn_concat, startedIn_concat]
  by_cases hpid : st.pid = p
  · subst hpid
    have hallow := (Outline.holds_step hf (Outline.holds_reach hr holds_starters)).1
    rw [if_pos rfl, if_pos rfl, Outline.advance_self]
    exact startProgress_next hprogress hallow fun hne =>
      isOk_of_undisturbed hallow (hunhindered τ₁ st [] rfl hne)
  · rw [if_neg hpid, if_neg hpid, List.append_nil, List.append_nil,
      Outline.advance_ne _ _ _ (Ne.symm hpid)]
    exact hprogress

/-- The tasks that are new are those the calls have enqueued. -/
theorem tasks_of_reach (hrun : Reach ⟨s, starters r id calls⟩ τ c) :
    c.state.1.tasks.rows.map Prod.fst = s.1.tasks.rows.map Prod.fst ++
      τ.filterMap fun st => (enqueuedTask st.op st.out).map Prod.fst := by
  refine hrun.induct (motive := fun τ c => c.state.1.tasks.rows.map Prod.fst =
    s.1.tasks.rows.map Prod.fst ++
      τ.filterMap fun st => (enqueuedTask st.op st.out).map Prod.fst)
    (List.append_nil _).symm ?_
  intro τ₁ st hr hf ih
  have hallow := (Outline.holds_step hf (Outline.holds_reach hr holds_starters)).1
  rw [tasks_effect hallow (laboratory_outcome hf), ih, List.filterMap_append, List.append_assoc]
  cases hop : (enqueuedTask st.op st.out).map Prod.fst <;> simp [hop]

/-- When one process has enqueued, and no other, the tasks that are new are its tasks. -/
theorem enqueuedIn_alone {p : P} (h : ∀ q, q ≠ p → enqueuedIn τ q = []) :
    (τ.filterMap fun st => (enqueuedTask st.op st.out).map Prod.fst) =
      (enqueuedIn τ p).map Prod.fst := by
  rw [enqueuedIn, List.map_filterMap]
  refine List.filterMap_congr fun st hst => ?_
  by_cases hpid : st.pid = p
  · rw [if_pos hpid]
  · rw [if_neg hpid]
    cases hop : enqueuedTask st.op st.out with
    | none => rfl
    | some task =>
        have hmem : task ∈ enqueuedIn τ st.pid :=
          List.mem_filterMap.2 ⟨st, hst, by rw [if_pos rfl, hop]⟩
        rw [h st.pid hpid] at hmem
        cases hmem

omit [DecidableEq P] in
/-- A call that has returned has moved the experiment. -/
theorem started_of_ret {l : Starting} {exp : Experiment}
    (h : (startOutline r id).Holds l (.ret exp)) :
    ∃ workstream done, l = .started workstream done exp := by
  cases l with
  | reading items => cases h
  | failed => cases h
  | started workstream done exp' =>
      have heq : (.ok exp : Except Exn Experiment) = .ok exp' := h
      obtain rfl := Except.ok.inj heq
      exact ⟨workstream, done, rfl⟩
  | enqueueing workstream done left => cases left <;> cases h

omit [DecidableEq P] in
/-- A call that has raised has failed, or it has come to an item that cannot be read. -/
theorem failed_of_throw {l : Starting} {e : Exn} (h : (startOutline r id).Holds l (.throw e)) :
    l = .failed ∨ ∃ workstream done item left, l = .enqueueing workstream done (item :: left) ∧
      itemArgs r workstream id item = .error e := by
  cases l with
  | reading items => cases h
  | failed => exact .inl rfl
  | started workstream done exp' => cases h
  | enqueueing workstream done left =>
      cases left with
      | nil => cases h
      | cons item left => exact .inr ⟨workstream, done, item, left, rfl, h⟩

/-- A call that raises has enqueued nothing. -/
theorem raised_of_reach (hrun : Reach ⟨s, starters r id calls⟩ τ c)
    (hitems : ∀ p, ∀ item ∈ (calls p).workItems.tail, ∀ workstream,
      (itemArgs r workstream id item).isOk = true)
    (hunhindered : Unhindered id τ) {p : P} {e : Exn} (hp : c.pool p = .throw e) :
    enqueuedIn τ p = [] ∧ startedIn τ p = [] := by
  have hprogress := startProgress_of_reach hrun hunhindered p
  have hholds := Outline.holds_reach hrun (holds_starters (r := r)) p
  rw [hp] at hholds
  rcases failed_of_throw hholds with hl | ⟨workstream, done, item, left, hl, hitem⟩
  · rw [hl] at hprogress
    exact hprogress
  · rw [hl] at hprogress
    obtain ⟨henqueued, hmoved, items, hall, hdone⟩ := hprogress
    refine ⟨?_, hmoved⟩
    cases items with
    | nil =>
        rw [henqueued]
        exact List.map_eq_nil_iff.1 hdone.symm
    | cons first items =>
        have hmem : item ∈ (calls p).workItems.tail := by
          rw [hall]
          exact List.mem_append_right items List.mem_cons_self
        have hok := hitems p item hmem workstream
        rw [hitem] at hok
        cases hok

/-- **The law of the start**: in every interleaving of calls on one experiment, with failures at any
call of the database, as long as behind its first enqueue no call meets an item that cannot be read,
a failure of the database, or an experiment that is not proposed any more. -/
theorem startLaw_of_reach (hrun : Reach ⟨s, starters r id calls⟩ τ c)
    (hitems : ∀ p, ∀ item ∈ (calls p).workItems.tail, ∀ workstream,
      (itemArgs r workstream id item).isOk = true)
    (hunhindered : Unhindered id τ) : StartLaw r id calls s τ c := by
  have hinv := startInv_of_reach hrun
  have hstarted : ∀ p exp, c.pool p = .ret exp → ∃ workstream done,
      (startOutline r id).track (atRead calls) τ p = .started workstream done exp := by
    intro p exp hp
    have hholds := Outline.holds_reach hrun (holds_starters (r := r)) p
    rw [hp] at hholds
    exact started_of_ret hholds
  refine ⟨fun p e => raised_of_reach hrun hitems hunhindered, fun p exp hp => ?_,
    fun hended p exp hp => ?_⟩
  · obtain ⟨workstream, done, hl⟩ := hstarted p exp hp
    have hprogress := startProgress_of_reach hrun hunhindered p
    obtain ⟨before, hbefore, hname⟩ := hinv.read p workstream (by rw [hl]; rfl)
    rw [hl] at hprogress
    obtain ⟨rfl, hmoved, hargs⟩ := hprogress
    exact ⟨hmoved, before, hbefore, hname ▸ hargs⟩
  · rw [tasks_of_reach hrun, enqueuedIn_alone fun q hq => ?_]
    cases hpool : c.pool q with
    | ret exp' =>
        obtain ⟨workstream, done, hl⟩ := hstarted p exp hp
        obtain ⟨workstream', done', hl'⟩ := hstarted q exp' hpool
        refine absurd (hinv.single q p ?_ ?_) hq
        · rw [hl']
          exact trivial
        · rw [hl]
          exact trivial
    | throw e => exact (raised_of_reach hrun hitems hunhindered hpool).1
    | call o k =>
        have := hended q
        rw [hpool] at this
        cases this

end Runs

/-! ## Two calls on one experiment -/

section Race

variable {P : Type}

/-- A step whose call goes through, an update one of a proposed experiment. -/
def calm (id : Uuid) (st : Step laboratory P Experiment) : Bool :=
  st.out.isOk &&
    match st.op with
    | .inr (.markRunning _ _) => (st.before.state.2.rows.find? id).any (·.status = .proposed)
    | _ => true

theorem undisturbed_of_calm {id : Uuid} {st : Step laboratory P Experiment}
    (h : calm id st = true) : Undisturbed id st := by
  unfold calm at h
  unfold Undisturbed
  rw [Bool.and_eq_true] at h
  obtain ⟨hok, hproposed⟩ := h
  split
  · exact hok
  · exact hok
  · rename_i id' taskIds hop
    rw [hop] at hproposed
    obtain ⟨exp, hexp, hstatus⟩ := (Option.any_eq_true _ _).1 hproposed
    exact ⟨fun hstruck => Bool.noConfusion (hok.symm.trans hstruck.2), exp, hexp,
      of_decide_eq_true hstatus⟩

/-- The exception a call has raised. -/
def thrown : Program laboratory Experiment → Option Exn
  | .throw e => some e
  | _ => none

theorem eq_throw_of_thrown {p : Program laboratory Experiment} {e : Exn} (h : thrown p = some e) :
    p = .throw e := by
  cases p with
  | ret exp => cases h
  | throw e' => exact congrArg _ (Option.some.inj h)
  | call o k => cases h

end Race

def bet : Uuid := ⟨"d1f0b6a4-3c58-4e27-8b9d-6a4c2e7f5b01", by decide⟩
def probe : Uuid := ⟨"d1f0b6a4-3c58-4e27-8b9d-6a4c2e7f5b02", by decide⟩
def otherProbe : Uuid := ⟨"d1f0b6a4-3c58-4e27-8b9d-6a4c2e7f5b03", by decide⟩

/-- Texts and integers are kept as they are. -/
def plainReading : ItemReading where
  truncate _ := .ok 0
  text value := value.asStr?.elim (.error (.dataError "type")) .ok
  integer _ := .ok none
  traffic := .prod

def zeroFloat : FloatRepr := ⟨"0.0".toList, by decide⟩

/-- A bet that is proposed. -/
def proposedBet : Experiment where
  workstream := ⟨"growth", by decide⟩
  hypothesis := "a bounded bet"
  successMetric := { name := "signal", target := zeroFloat }
  budgetTokens := none
  budgetUsd := none
  status := .proposed
  decision := none
  observedValue := none
  spentTokens := 0
  spentUsd := zeroFloat
  createdAt := 0
  startedAt := none
  evaluatedAt := none

/-- A database with the bet. -/
def withBet : Store × Experiments :=
  (.initial 0, ⟨⟨[(bet, proposedBet)], List.nodup_singleton bet⟩, []⟩)

/-- Two calls, each with one work item. -/
def probing (second : Bool) : StartCall where
  workItems := [[("type", .str "work.probe")]]
  newId _ := if second then otherProbe else probe

/-- The two calls on the bet. -/
def twoStarters : Config laboratory Bool Experiment := ⟨withBet, starters plainReading bet probing⟩

/-- Both calls read the bet before one of them moves it. -/
abbrev raceTurns : List (Choice Bool Exn) :=
  [(false, none), (true, none), (false, none), (true, none), (false, none), (true, none)]

/-- The call that loses the race raises, and its work item stays enqueued. -/
theorem loser_leaves_task :
    Reach twoStarters (twoStarters.trace raceTurns) (twoStarters.run raceTurns) ∧
      ¬ StartLaw plainReading bet probing withBet (twoStarters.trace raceTurns)
        (twoStarters.run raceTurns) := by
  have hraised : thrown ((twoStarters.run raceTurns).pool true) =
      some (.valueError ("experiment " ++ bet.text ++ " is no longer 'proposed'")) := by
    decide
  have henqueued : (enqueuedIn (twoStarters.trace raceTurns) true).isEmpty = false := by
    decide
  refine ⟨.of_run _ _, fun hlaw => ?_⟩
  rw [(hlaw.raised true _ (eq_throw_of_thrown hraised)).1] at henqueued
  cases henqueued

/-- One call after the other. -/
abbrev turnsInOrder : List (Choice Bool Exn) :=
  [(false, none), (false, none), (false, none), (true, none)]

/-- With one call after the other the law holds: the second one raises at once. -/
theorem startLaw_inOrder :
    StartLaw plainReading bet probing withBet (twoStarters.trace turnsInOrder)
      (twoStarters.run turnsInOrder) := by
  have hcalm : (twoStarters.trace turnsInOrder).all (calm bet) = true := by decide
  refine startLaw_of_reach (.of_run twoStarters turnsInOrder) (fun p item hitem => by cases hitem)
    fun τ₁ st τ₂ hsplit _ => undisturbed_of_calm (List.all_eq_true.1 hcalm st ?_)
  rw [hsplit]
  exact List.mem_append_right τ₁ List.mem_cons_self

end AiStudio.Runtime
