import AiStudio.Concurrency.Cursor
import AiStudio.Runtime.Intake
import AiStudio.Runtime.Legality
import AiStudio.Runtime.Origins

/-!
# The scheduler

Embeds `runtime/scheduler.py`: the loop that keeps one `pm.tick` alive and turns each `task.stuck`
signal into one `replan` task. The signals are numbered when they are written and become visible
when their transaction commits, in any order. The scheduler may fail at any call and be killed
between any two, and is started again with its cursor at 0.

- `scheduler_rule`: the rule for invariants of a run with one scheduler.
- `replans_of_reach`: it never enqueues two replans for one task.
- `pulses_of_reach`: there is at most one live pulse.
-/

set_option autoImplicit false

namespace AiStudio.Runtime

open AiStudio.Data AiStudio.Concurrency

/-! ## The signals -/

/-- What `dispatch_replans` reads of a `task.stuck` event. -/
structure StuckSignal where
  taskId : Option Uuid
  workstream : Workstream

/-- The `task.stuck` rows of the event log: the numbers drawn so far, the rows of transactions that
are still open, and the rows that are committed. -/
structure Signals where
  drawn : ℕ
  pending : List (ℕ × StuckSignal)
  committed : List (ℕ × StuckSignal)
  numbered : ((pending ++ committed).map Prod.fst).Nodup
  within : ∀ r ∈ pending ++ committed, 0 < r.1 ∧ r.1 ≤ drawn

namespace Signals

/-- A log without signals. -/
def initial : Signals := ⟨0, [], [], List.nodup_nil, fun _ h => nomatch h⟩

/-- An insert draws the next number; its transaction stays open. -/
def append (g : Signals) (signal : StuckSignal) : Signals where
  drawn := g.drawn + 1
  pending := (g.drawn + 1, signal) :: g.pending
  committed := g.committed
  numbered := by
    refine List.nodup_cons.2 ⟨fun hmem => ?_, g.numbered⟩
    obtain ⟨r, hr, hseq⟩ := List.mem_map.1 hmem
    have hle := (g.within r hr).2
    omega
  within := by
    intro r hr
    rcases List.mem_cons.1 hr with rfl | hr
    · exact ⟨Nat.succ_pos _, le_refl _⟩
    · exact ⟨(g.within r hr).1, (g.within r hr).2.trans (Nat.le_succ _)⟩

/-- An open transaction is rolled back. -/
def rollback (g : Signals) (seq : ℕ) : Signals where
  drawn := g.drawn
  pending := g.pending.filter fun r => r.1 ≠ seq
  committed := g.committed
  numbered := by
    refine g.numbered.sublist (List.Sublist.map _ ?_)
    exact List.filter_sublist.append (List.Sublist.refl _)
  within := by
    intro r hr
    refine g.within r ?_
    rcases List.mem_append.1 hr with hr | hr
    · exact List.mem_append_left _ (List.mem_filter.1 hr).1
    · exact List.mem_append_right _ hr

/-- An open transaction commits. -/
def commit (g : Signals) (seq : ℕ) : Signals where
  drawn := g.drawn
  pending := g.pending.filter fun r => r.1 ≠ seq
  committed := g.committed ++ g.pending.filter fun r => r.1 = seq
  numbered := by
    have hperm : (g.pending.filter (fun r => r.1 ≠ seq) ++
        (g.committed ++ g.pending.filter fun r => r.1 = seq)).Perm (g.pending ++ g.committed) := by
      have hparts := List.filter_append_perm (fun r : ℕ × StuckSignal => decide (r.1 ≠ seq)) g.pending
      have hnot : g.pending.filter (fun r => !decide (r.1 ≠ seq)) =
          g.pending.filter fun r => r.1 = seq :=
        List.filter_congr fun r _ => by simp
      rw [hnot] at hparts
      calc _
        List.Perm _ (g.pending.filter (fun r => r.1 ≠ seq) ++
            (g.pending.filter (fun r => r.1 = seq) ++ g.committed)) :=
          List.perm_append_comm.append_left _
        List.Perm _ _ := by
          rw [← List.append_assoc]
          exact hparts.append_right _
    exact (hperm.map _).nodup_iff.2 g.numbered
  within := by
    intro r hr
    refine g.within r ?_
    rcases List.mem_append.1 hr with hr | hr
    · exact List.mem_append_left _ (List.mem_filter.1 hr).1
    · rcases List.mem_append.1 hr with hr | hr
      · exact List.mem_append_right _ hr
      · exact List.mem_append_left _ (List.mem_filter.1 hr).1

end Signals

/-! ## The queries of the scheduler -/

/-- `REPLAN_TASK_TYPE`. -/
def replanTaskType : String := "replan"

/-- `PM_TICK_TYPE`. -/
def pmTickType : String := "pm.tick"

theorem Uuid.eq_of_text {id id' : Uuid} (h : id.text = id'.text) : id = id' := by
  cases id
  cases id'
  cases h
  rfl

/-- The row is the replan of a stuck task. -/
def Task.isReplanOf (row : Task) (id : Uuid) : Bool :=
  row.type = replanTaskType && row.payload.getStr? "stuck_task_id" = some id.text

/-- The row is a live pulse of a workstream. -/
def Task.isPulse (row : Task) (workstream : String) : Bool :=
  row.workstream.name = workstream && row.type = pmTickType && !row.status.isTerminal

/-- The calls on the signals, and the reads of the scheduler. -/
inductive SchedulerOp where
  | append (signal : StuckSignal)
  | commit (seq : ℕ)
  | rollback (seq : ℕ)
  | pmTickPending (workstream : String)
  | readStuck (sinceSeq lookback limit : ℕ)
  | hasReplanTask (id : Uuid)

namespace SchedulerOp

/-- What a call returns. -/
def Res : SchedulerOp → Type
  | append _ => ℕ
  | commit _ | rollback _ => Unit
  | pmTickPending _ | hasReplanTask _ => Bool
  | readStuck .. => List (ℕ × StuckSignal)

/-- The transaction of a call. -/
def exec : (o : SchedulerOp) → Store × Signals → Except Exn (o.Res × (Store × Signals))
  | append signal => fun s => .ok (s.2.drawn + 1, (s.1, s.2.append signal))
  | commit seq => fun s => .ok ((), (s.1, s.2.commit seq))
  | rollback seq => fun s => .ok ((), (s.1, s.2.rollback seq))
  | pmTickPending workstream => fun s =>
      .ok (!(s.1.tasks.select fun _ row => row.isPulse workstream).isEmpty, s)
  | readStuck sinceSeq lookback limit => fun s =>
      .ok (Cursor.page s.2.committed lookback limit sinceSeq, s)
  | hasReplanTask id => fun s =>
      .ok (!(s.1.tasks.select fun _ row => row.isReplanOf id).isEmpty, s)

end SchedulerOp

/-- The task queue beside the signals. -/
abbrev scheduling : Interface (Store × Signals) Exn :=
  database.beside { Op := SchedulerOp, Res := SchedulerOp.Res, exec := SchedulerOp.exec }

/-! ## The loop -/

/-- `DEFAULT_LOOKBACK`. -/
def defaultLookback : ℕ := 1000

/-- `REPLAN_DISPATCH_LIMIT`. -/
def replanDispatchLimit : ℕ := 200

/-- What the loop is started with, and the ids the database draws for what a pass enqueues. -/
structure Scheduler where
  workstream : String := "productivity"
  traffic : Traffic := .prod
  newId : ℕ → ℕ → Uuid

namespace Scheduler

/-- `_pm_tick_pending`. -/
def pmTickPending (workstream : String) : Program scheduling Bool :=
  .op (I := scheduling) (.inr (.pmTickPending workstream))

/-- `_has_replan_task`. -/
def hasReplanTask (id : Uuid) : Program scheduling Bool :=
  .op (I := scheduling) (.inr (.hasReplanTask id))

/-- `read_events`, of the `task.stuck` events. -/
def readStuck (sinceSeq lookback limit : ℕ) : Program scheduling (List (ℕ × StuckSignal)) :=
  .op (I := scheduling) (.inr (.readStuck sinceSeq lookback limit))

/-- `enqueue_task`; `id` is the id the database draws. -/
def enqueue (id : Uuid) (a : EnqueueArgs) : Program scheduling Task :=
  .op (I := scheduling) (.inl (.enqueueTask id a))

variable (c : Scheduler)

/-- The pulse of `tick_once`. -/
def pulse : EnqueueArgs where
  workstream := c.workstream
  type := pmTickType
  payload := [("kind", .str "pulse")]
  traffic := c.traffic

/-- The replan of a stuck task. -/
def replan (id : Uuid) (workstream : Workstream) : EnqueueArgs where
  workstream := workstream.name
  type := replanTaskType
  payload := [("stuck_task_id", .str id.text)]
  traffic := c.traffic

/-- `tick_once`. -/
def tickOnce (newId : Uuid) : Program scheduling (Option Task) := do
  let pending ← pmTickPending c.workstream
  if pending then return none
  else
    let task ← enqueue newId c.pulse
    return some task

/-- The loop of `dispatch_replans` over the events it has read. -/
def dispatchEvents (newId : ℕ → Uuid) :
    ℕ → ℕ → List (ℕ × StuckSignal) → Program scheduling (ℕ × List Uuid)
  | _, cursor, [] => return (cursor, [])
  | k, cursor, (seq, ev) :: events =>
      match ev.taskId with
      | none => dispatchEvents newId k (max cursor seq) events
      | some id => do
          let exists? ← hasReplanTask id
          if exists? then dispatchEvents newId k (max cursor seq) events
          else
            let _ ← enqueue (newId k) (c.replan id ev.workstream)
            let (cursor', ids) ← dispatchEvents newId (k + 1) (max cursor seq) events
            return (cursor', newId k :: ids)

/-- `dispatch_replans`. -/
def dispatchReplans (newId : ℕ → Uuid) (sinceSeq lookback limit : ℕ) :
    Program scheduling (ℕ × List Uuid) := do
  let events ← readStuck sinceSeq lookback limit
  c.dispatchEvents newId 0 sinceSeq events

/-- What `run` does in the `n`-th turn: a failure is logged, and the cursor stays. -/
def turn (n cursor : ℕ) : Program scheduling ℕ :=
  Program.tryCatch (do
    let _ ← c.tickOnce (c.newId n 0)
    let (cursor', _) ← c.dispatchReplans (fun k => c.newId n (k + 1)) cursor defaultLookback
      replanDispatchLimit
    return cursor') fun _ => .ret cursor

/-- Some turns of `run`, from the `n`-th on. -/
def run : ℕ → ℕ → ℕ → Program scheduling ℕ
  | _, 0, cursor => .ret cursor
  | n, turns + 1, cursor => (c.turn n cursor).bind (run (n + 1) turns)

/-- The scheduler: its process is killed after each of the given numbers of calls and started
again; a turn makes a call, so that no more turns are begun. The last process is not killed. -/
def lives : ℕ → List ℕ → ℕ → Program scheduling ℕ
  | n, [], turns => c.run n turns 0
  | n, calls :: kills, turns => ((c.run n calls 0).cut calls).bind fun _ =>
      lives (n + calls) kills turns

end Scheduler

/-! ## What the queue says -/

section Queue

/-- The stuck task has a replan. -/
def Store.HasReplan (s : Store) (id : Uuid) : Prop :=
  ∃ t row, s.tasks.find? t = some row ∧ row.isReplanOf id = true

/-- A task is the live pulse of a workstream. -/
def Store.Pulses (s : Store) (workstream : String) (t : Uuid) : Prop :=
  ∃ row, s.tasks.find? t = some row ∧ row.isPulse workstream = true

variable {s s' : Store} {o : StoreOp} {id : Uuid} {workstream : String} {row row' : Task}

theorem select_isEmpty {p : Uuid → Task → Bool} :
    (s.tasks.select p).isEmpty = true ↔ ∀ t row, s.tasks.find? t = some row → p t row = false := by
  rw [List.isEmpty_iff, List.eq_nil_iff_forall_not_mem]
  constructor
  · intro hnone t row hrow
    have hnot := hnone (t, row)
    rw [Table.mem_select, not_and, Bool.not_eq_true] at hnot
    exact hnot hrow
  · rintro hnone ⟨t, row⟩ hmem
    obtain ⟨hrow, hp⟩ := (Table.mem_select _ _ _ _).1 hmem
    rw [hnone t row hrow] at hp
    cases hp

theorem hasReplan_iff :
    (!(s.tasks.select fun _ row => row.isReplanOf id).isEmpty) = true ↔ s.HasReplan id := by
  rw [Bool.not_eq_true', ← Bool.not_eq_true, select_isEmpty]
  push Not
  simp only [Bool.not_eq_false, Store.HasReplan]

theorem pulses_iff :
    (!(s.tasks.select fun _ row => row.isPulse workstream).isEmpty) = true ↔
      ∃ t, s.Pulses workstream t := by
  rw [Bool.not_eq_true', ← Bool.not_eq_true, select_isEmpty]
  push Not
  simp only [Bool.not_eq_false, Store.Pulses]

/-- No rewrite of a row changes which task it replans. -/
theorem Rewrites.isReplanOf (h : Rewrites o s id row row') (stuck : Uuid) :
    row'.isReplanOf stuck = row.isReplanOf stuck := by
  have htype : row'.type = row.type := congrArg TaskOrigin.type h.origin
  have hlookup : row'.payload.lookup "stuck_task_id" = row.payload.lookup "stuck_task_id" := by
    cases h with
    | patched status reason workTaskIds =>
        refine lookup_mergeDoc fun kv hkv heq => ?_
        have hkey := key_of_requestPatch hkv
        rw [← heq] at hkey
        exact absurd hkey (by decide)
    | rekicked made => cases made <;> rfl
    | _ => rfl
  rw [Task.isReplanOf, Task.isReplanOf, htype, Doc.getStr?, Doc.getStr?, hlookup]

/-- A replan stays in the queue. -/
theorem Store.HasReplan.exec {r : o.Res} (h : o.exec s = .ok (r, s')) (hreplan : s.HasReplan id) :
    s'.HasReplan id := by
  obtain ⟨t, row, hrow, his⟩ := hreplan
  cases exec_rowEffect h t with
  | same hsame => exact ⟨t, row, hsame.trans hrow, his⟩
  | created a ws op fresh hnew =>
      rw [hrow] at fresh
      cases fresh
  | wrote old row' found rewrites hnew =>
      obtain rfl := Option.some.inj (found.symm.trans hrow)
      exact ⟨t, row', hnew, (rewrites.isReplanOf id).trans his⟩

/-- An enqueue of a replan is the replan of its task. -/
theorem isReplanOf_row {c : Scheduler} {stuck : Uuid} {ws ws' : Workstream} {now : Time} :
    ((c.replan stuck ws).row ws' now).isReplanOf stuck = true := by
  have hlookup : (tagPayload c.traffic [("stuck_task_id", .str stuck.text)]).lookup "stuck_task_id" =
      some (.str stuck.text) := by
    rw [tagPayload, lookup_setKey (by decide)]
    rfl
  have hpayload : ((c.replan stuck ws).row ws' now).payload =
      tagPayload c.traffic [("stuck_task_id", .str stuck.text)] := rfl
  rw [Task.isReplanOf, Doc.getStr?, hpayload, hlookup]
  simp [EnqueueArgs.row, Scheduler.replan, Json.asStr?]

/-- The replan that is enqueued is in the queue. -/
theorem hasReplan_of_enqueueTask {c : Scheduler} {stuck : Uuid} {ws : Workstream}
    (h : enqueueTask id (c.replan stuck ws) s = .ok (row, s')) : s'.HasReplan stuck := by
  obtain ⟨ws', tasks, rfl, -, hinsert, rfl⟩ := enqueueTask_cases h
  have hself := Table.find?_insert hinsert id
  rw [if_pos rfl] at hself
  exact ⟨id, _, hself, isReplanOf_row⟩

/-- No call but a forced one makes a live pulse of a row that is none. -/
theorem Rewrites.isPulse (hfree : o.isForced = false) (h : Rewrites o s id row row')
    (hpulse : row'.isPulse workstream = true) : row.isPulse workstream = true := by
  have hname : row'.workstream.name = row.workstream.name := by rw [h.workstream]
  have htype : row'.type = row.type := congrArg TaskOrigin.type h.origin
  simp only [Task.isPulse, hname, htype, Bool.and_eq_true, Bool.not_eq_true'] at hpulse ⊢
  refine ⟨hpulse.1, ?_⟩
  have hheld : row.status.isHeld = true → row.status.isTerminal = false := by
    rw [isHeld_iff]
    rintro (hst | hst) <;> rw [hst] <;> rfl
  cases h with
  | moved m hid makes admits plain =>
      rcases admits.legal with hforce | hcan
      · rw [makes.eq_transition hforce, StoreOp.isForced, hforce] at hfree
        cases hfree
      · cases hterm : row.status.isTerminal with
        | false => rfl
        | true =>
            rw [canTransition_of_isTerminal hterm] at hcan
            cases hcan
  | beat workerId op claimant held => exact hheld held
  | spent tokens op => exact hpulse.2
  | patched status reason workTaskIds op => exact hpulse.2
  | nudged grace op held first => exact hheld held
  | rekicked made op held => exact hheld held
  | escalated reason count retries op held => exact hheld held
  | failed scanned maxRetries op held => exact hheld held

/-- The call enqueues no pulse of the workstream, and forces nothing. -/
def StoreOp.keepsPulses (workstream : String) : StoreOp → Bool
  | .enqueueTask _ a => !(a.workstream = workstream && a.type = pmTickType)
  | o => !o.isForced

theorem StoreOp.isForced_of_keepsPulses (h : o.keepsPulses workstream = true) :
    o.isForced = false := by
  cases o with
  | transition id target a => simpa [StoreOp.keepsPulses] using h
  | _ => rfl

/-- Such a call makes no pulse. -/
theorem Store.Pulses.of_exec {r : o.Res} (h : o.exec s = .ok (r, s'))
    (hkeeps : o.keepsPulses workstream = true) {t : Uuid} (hpulse : s'.Pulses workstream t) :
    s.Pulses workstream t := by
  obtain ⟨row', hrow', his⟩ := hpulse
  cases exec_rowEffect h t with
  | same hsame => exact ⟨row', hsame.symm.trans hrow', his⟩
  | created a ws op fresh hnew =>
      subst op
      obtain rfl := Option.some.inj (hrow'.symm.trans hnew)
      have hname : r.workstream.name = a.workstream := enqueueTask_workstream h
      obtain ⟨ws', tasks, rfl, -, hinsert, rfl⟩ := enqueueTask_cases h
      have hself := Table.find?_insert hinsert t
      rw [if_pos rfl] at hself
      obtain hsame : a.row ws s.now = a.row ws' s.now := Option.some.inj (hnew.symm.trans hself)
      rw [hsame] at his
      simp only [StoreOp.keepsPulses, Bool.not_eq_true', Bool.and_eq_false_iff,
        decide_eq_false_iff_not] at hkeeps
      simp only [Task.isPulse, Bool.and_eq_true, decide_eq_true_eq] at his
      rcases hkeeps with hws | htype
      · exact absurd (hname.symm.trans his.1.1) hws
      · exact absurd his.1.2 htype
  | wrote row row₁ found rewrites hnew =>
      obtain rfl := Option.some.inj (hrow'.symm.trans hnew)
      exact ⟨row, found, rewrites.isPulse (StoreOp.isForced_of_keepsPulses hkeeps) his⟩

end Queue

/-! ## Where the scheduler stands -/

/-- A signal that names a task: its number, the task, and its workstream. -/
abbrev NamedSignal : Type := ℕ × Uuid × Workstream

/-- The signals of a page that name a task. -/
def named (rows : List (ℕ × StuckSignal)) : List NamedSignal :=
  rows.filterMap fun r => r.2.taskId.map fun id => (r.1, id, r.2.workstream)

/-- Where the scheduler stands: no later read starts above `cursor` unless the dispatch goes through
the signals of `rest`, which takes the cursor to `ahead`. The first of them has no replan when
`fresh` is set, and there is no live pulse when `clear` is. -/
structure Dispatch where
  cursor : ℕ
  ahead : ℕ
  rest : List NamedSignal := []
  fresh : Bool := false
  clear : Bool := false

namespace Dispatch

/-- Where a dispatch stands that fails, or whose process is killed. -/
def abandon (l : Dispatch) : Dispatch := { cursor := l.cursor, ahead := l.cursor }

/-- A dispatch with nothing left to look at has ended. -/
def settle (l : Dispatch) : Dispatch :=
  if l.rest = [] then { l with cursor := l.ahead } else l

/-- Behind a read. -/
def read (cursor : ℕ) (rows : List (ℕ × StuckSignal)) : Dispatch :=
  settle { cursor := cursor, ahead := Cursor.reached cursor rows, rest := named rows }

/-- Behind the first of the signals. -/
def pass (l : Dispatch) : Dispatch := settle { l with rest := l.rest.tail, fresh := false }

end Dispatch

/-- What a call returns. -/
abbrev SchedulingRes (o : StoreOp ⊕ SchedulerOp) : Type := Sum.elim StoreOp.Res SchedulerOp.Res o

section Outlines

variable (c : Scheduler)

/-- The next call of the scheduler. -/
def Dispatch.Allows (l : Dispatch) : StoreOp ⊕ SchedulerOp → Prop
  | .inr (.pmTickPending workstream) => workstream = c.workstream
  | .inr (.readStuck sinceSeq lookback limit) =>
      sinceSeq ≤ l.cursor ∧ lookback = defaultLookback ∧ limit = replanDispatchLimit
  | .inr (.hasReplanTask id) => ∃ x rest, l.rest = x :: rest ∧ id = x.2.1
  | .inl (.enqueueTask _ a) =>
      (l.fresh = true ∧ ∃ x rest, l.rest = x :: rest ∧ a = c.replan x.2.1 x.2.2) ∨
        (l.fresh = false ∧ l.clear = true ∧ a = c.pulse)
  | _ => False

/-- Where the scheduler stands behind a call. -/
def Dispatch.next (l : Dispatch) :
    (o : StoreOp ⊕ SchedulerOp) → Except Exn (SchedulingRes o) → Dispatch
  | _, .error _ => l.abandon
  | .inr (.pmTickPending _), .ok pending => { l.abandon with clear := !pending }
  | .inr (.readStuck sinceSeq _ _), .ok rows => .read sinceSeq rows
  | .inr (.hasReplanTask _), .ok true => l.pass
  | .inr (.hasReplanTask _), .ok false => { l with fresh := true }
  | .inl (.enqueueTask _ _), .ok _ => bif l.fresh then l.pass else { l with clear := false }
  | _, .ok _ => l

/-- The outline of a part of the scheduler. -/
def dispatching {α : Type} (ends : Dispatch → Except Exn α → Prop) :
    Outline scheduling Dispatch α where
  allows := Dispatch.Allows c
  next := Dispatch.next
  ends := ends

/-- The part ends with a cursor from which the next read may start. -/
def EndsBelow (l : Dispatch) (r : Except Exn ℕ) : Prop := ∀ cursor, r = .ok cursor → cursor ≤ l.cursor

/-- A turn ends with the cursor, or fails where it may start anew. -/
def EndsAt (cursor : ℕ) (l : Dispatch) : Except Exn ℕ → Prop
  | .ok cursor' => cursor' = l.cursor
  | .error _ => cursor ≤ l.cursor

variable {c} {α : Type} {ends : Dispatch → Except Exn α → Prop} {l : Dispatch} {newId : ℕ → Uuid}

/-- The loop over a page goes through its signals, and ends where it is settled. -/
theorem holds_dispatchEvents {base cursor k : ℕ} {events : List (ℕ × StuckSignal)}
    {f : ℕ × List Uuid → Program scheduling α}
    (hf : ∀ l ids, Cursor.reached cursor events = l.cursor →
      (dispatching c ends).Holds l (f (l.cursor, ids)))
    (hends : ∀ l e, base ≤ l.cursor → ends l (.error e)) :
    (dispatching c ends).Holds
      (Dispatch.settle { cursor := base, ahead := Cursor.reached cursor events, rest := named events })
      ((c.dispatchEvents newId k cursor events).bind f) := by
  induction events generalizing k cursor f with
  | nil => exact hf { cursor := cursor, ahead := cursor } [] rfl
  | cons r events ih =>
      obtain ⟨seq, taskId, workstream⟩ := r
      cases taskId with
      | none => exact ih hf
      | some id =>
          refine ⟨⟨_, _, rfl, rfl⟩, fun out => ?_⟩
          cases out with
          | error e => exact hends _ e (le_refl base)
          | ok has =>
              cases has with
              | true => exact ih hf
              | false =>
                  refine ⟨.inl ⟨rfl, _, _, rfl, rfl⟩, fun out => ?_⟩
                  cases out with
                  | error e => exact hends _ e (le_refl base)
                  | ok row =>
                      change (dispatching c ends).Holds _
                        (((c.dispatchEvents newId (k + 1) (max cursor seq) events).bind fun x =>
                          .ret (x.1, newId k :: x.2)).bind f)
                      rw [Program.bind_assoc]
                      exact ih fun l ids hl => hf l (newId k :: ids) hl

/-- The dispatch of a pass. -/
theorem holds_dispatchReplans {cursor : ℕ} {f : ℕ × List Uuid → Program scheduling α}
    (hl : cursor ≤ l.cursor)
    (hf : ∀ l ids, (dispatching c ends).Holds l (f (l.cursor, ids)))
    (hends : ∀ l e, cursor ≤ l.cursor → ends l (.error e)) :
    (dispatching c ends).Holds l
      ((c.dispatchReplans newId cursor defaultLookback replanDispatchLimit).bind f) := by
  refine ⟨⟨hl, rfl, rfl⟩, fun out => ?_⟩
  cases out with
  | error e => exact hends _ e hl
  | ok events => exact holds_dispatchEvents (fun l ids hl => hl ▸ hf l ids) hends

/-- **A turn ends with a cursor from which the next read may start**, however it goes. -/
theorem holds_turn {n cursor : ℕ} (hl : cursor ≤ l.cursor) :
    (dispatching c EndsBelow).Holds l (c.turn n cursor) := by
  have hdispatch : ∀ l : Dispatch, cursor ≤ l.cursor →
      (dispatching c (EndsAt cursor)).Holds l
        ((c.dispatchReplans (fun k => c.newId n (k + 1)) cursor defaultLookback
          replanDispatchLimit).bind fun x => .ret x.1) :=
    fun l hl => holds_dispatchReplans hl (fun l ids => rfl) fun l e h => h
  refine Outline.holds_tryCatch (O := dispatching c (EndsAt cursor)) (fun _ _ h => h)
    (fun _ _ _ => rfl) ?_ ?_ ?_
  · rintro l' cursor' rfl cursor'' hcursor
    exact (Except.ok.inj hcursor).symm.le
  · intro l' e h cursor'' hcursor
    exact (Except.ok.inj hcursor) ▸ h
  · refine ⟨rfl, fun out => ?_⟩
    cases out with
    | error e => exact hl
    | ok pending =>
        cases pending with
        | true => exact hdispatch _ hl
        | false =>
            refine ⟨.inr ⟨rfl, rfl, rfl⟩, fun out => ?_⟩
            cases out with
            | error e => exact hl
            | ok task => exact hdispatch _ hl

theorem holds_run {n turns cursor : ℕ} (hl : cursor ≤ l.cursor) :
    (dispatching c EndsBelow).Holds l (c.run n turns cursor) := by
  induction turns generalizing n cursor l with
  | zero => exact fun cursor' h => (Except.ok.inj h) ▸ hl
  | succ turns ih =>
      refine Outline.holds_bind (O := dispatching c EndsBelow) (fun _ _ h => h) (fun _ _ _ => rfl) ?_
        (fun l e _ cursor' h => by cases h) (holds_turn hl)
      exact fun l cursor' h => ih (h cursor' rfl)

/-- **The scheduler follows its outline**, however often it is killed. -/
theorem holds_lives {n turns : ℕ} {kills : List ℕ} :
    (dispatching c EndsBelow).Holds l (c.lives n kills turns) := by
  induction kills generalizing n l with
  | nil => exact holds_run (Nat.zero_le _)
  | cons calls kills ih =>
      refine Outline.holds_bind (O := dispatching c fun _ _ => True) (fun _ _ h => h)
        (fun _ _ _ => rfl) (fun l _ _ => ih) ?_ ?_
      · exact fun l e _ cursor' h => by cases h
      · exact Outline.holds_cut (fun _ _ h => h) (fun _ _ _ => rfl) (fun _ _ _ => trivial)
          (fun _ => trivial) (holds_run (Nat.zero_le _)) calls

end Outlines

/-! ## What a call of the scheduler does -/

section Calls

/-- The effect of a call of the scheduler on the state and on where it stands, and the signal whose
replan it enqueued. -/
inductive Dispatched (c : Scheduler) (l : Dispatch) (s : Store × Signals) :
    Store × Signals → Option NamedSignal → Dispatch → Prop where
  | failed : Dispatched c l s s none l.abandon
  | looked (pending : Bool) (live : pending = true ↔ ∃ t, s.1.Pulses c.workstream t) :
      Dispatched c l s s none { l.abandon with clear := !pending }
  | read (cursor : ℕ) (low : cursor ≤ l.cursor) :
      Dispatched c l s s none
        (.read cursor (Cursor.page s.2.committed defaultLookback replanDispatchLimit cursor))
  | answered (x : NamedSignal) (rest : List NamedSignal) (first : l.rest = x :: rest)
      (has : s.1.HasReplan x.2.1) : Dispatched c l s s none l.pass
  | unanswered (x : NamedSignal) (rest : List NamedSignal) (first : l.rest = x :: rest)
      (hasNot : ¬ s.1.HasReplan x.2.1) : Dispatched c l s s none { l with fresh := true }
  | replanned (x : NamedSignal) (rest : List NamedSignal) (first : l.rest = x :: rest)
      (fresh : l.fresh = true) (id : Uuid) (row : Task) (s' : Store)
      (enqueued : enqueueTask id (c.replan x.2.1 x.2.2) s.1 = .ok (row, s')) :
      Dispatched c l s (s', s.2) (some x) l.pass
  | pulsed (clear : l.clear = true) (id : Uuid) (row : Task) (s' : Store)
      (enqueued : enqueueTask id c.pulse s.1 = .ok (row, s')) :
      Dispatched c l s (s', s.2) none { l with clear := false }

/-- The stuck task and the workstream of the replan a call enqueued. -/
def replanned : (o : StoreOp ⊕ SchedulerOp) → Except Exn (SchedulingRes o) →
    Option (String × String)
  | .inl (.enqueueTask _ a), .ok _ =>
      if a.type = replanTaskType then
        (a.payload.getStr? "stuck_task_id").map fun id => (id, a.workstream)
      else none
  | _, _ => none

variable {c : Scheduler} {l : Dispatch} {s s' : Store × Signals}

/-- **A call the scheduler makes has one of these effects.** -/
theorem dispatched_of_allows {o : StoreOp ⊕ SchedulerOp} {out : Except Exn (SchedulingRes o)}
    (hallow : l.Allows c o)
    (hout : (∃ v, out = .ok v ∧ scheduling.exec o s = .ok (v, s')) ∨
      ∃ e, out = .error e ∧ s' = s) :
    ∃ made, Dispatched c l s s' made (l.next o out) ∧
      replanned o out = made.map fun x => (x.2.1.text, x.2.2.name) := by
  rcases hout with ⟨v, rfl, hexec⟩ | ⟨e, rfl, rfl⟩
  · cases o with
    | inl o =>
        obtain ⟨hexec, hsignals⟩ := Interface.exec_inl_eq_ok hexec
        obtain ⟨store, signals⟩ := s'
        obtain rfl : signals = s.2 := hsignals
        cases o with
        | enqueueTask id a =>
            rcases hallow with ⟨hfresh, x, rest, hfirst, rfl⟩ | ⟨hfresh, hclear, rfl⟩
            · have hnext : l.next (.inl (.enqueueTask id (c.replan x.2.1 x.2.2))) (.ok v) = l.pass := by
                rw [Dispatch.next, hfresh, cond_true]
              rw [hnext]
              exact ⟨some x, .replanned x rest hfirst hfresh id v store hexec, rfl⟩
            · have hnext : l.next (.inl (.enqueueTask id c.pulse)) (.ok v) =
                  { l with clear := false } := by
                rw [Dispatch.next, hfresh, cond_false]
              rw [hnext]
              exact ⟨none, .pulsed hclear id v store hexec, rfl⟩
        | _ => exact hallow.elim
    | inr o =>
        cases o with
        | pmTickPending workstream =>
            obtain rfl : workstream = c.workstream := hallow
            obtain ⟨rfl, rfl⟩ := Prod.mk.inj (Except.ok.inj hexec)
            exact ⟨none, .looked _ pulses_iff, rfl⟩
        | readStuck sinceSeq lookback limit =>
            obtain ⟨hlow, rfl, rfl⟩ := hallow
            obtain ⟨rfl, rfl⟩ := Prod.mk.inj (Except.ok.inj hexec)
            exact ⟨none, .read sinceSeq hlow, rfl⟩
        | hasReplanTask id =>
            obtain ⟨x, rest, hfirst, rfl⟩ := hallow
            obtain ⟨rfl, rfl⟩ := Prod.mk.inj (Except.ok.inj hexec)
            cases hhas : (!(s.1.tasks.select fun _ row => row.isReplanOf x.2.1).isEmpty) with
            | true => exact ⟨none, .answered x rest hfirst (hasReplan_iff.1 hhas), rfl⟩
            | false =>
                refine ⟨none, .unanswered x rest hfirst fun hreplan => ?_, rfl⟩
                rw [hasReplan_iff.2 hreplan] at hhas
                cases hhas
        | _ => exact hallow.elim
  · refine ⟨none, ?_, ?_⟩
    · have hnext : l.next o (.error e) = l.abandon := by
        cases o <;> rfl
      rw [hnext]
      exact .failed
    · cases o with
      | inl o => cases o <;> rfl
      | inr o => rfl

end Calls

/-! ## What any call does to the signals and the replans -/

section Anyone

variable {s s' : Store × Signals} {o : StoreOp ⊕ SchedulerOp} {v : SchedulingRes o}

theorem Signals.mem_committed_commit {g : Signals} {seq : ℕ} {r : ℕ × StuckSignal} :
    r ∈ (g.commit seq).committed ↔ r ∈ g.committed ∨ r ∈ g.pending ∧ r.1 = seq := by
  rw [Signals.commit, List.mem_append, List.mem_filter, decide_eq_true_eq]

/-- What a call leaves of the replans and of the signals. -/
structure Grows (s s' : Store × Signals) : Prop where
  replans : ∀ id, s.1.HasReplan id → s'.1.HasReplan id
  committed : ∀ r ∈ s.2.committed, r ∈ s'.2.committed
  drawn : s.2.drawn ≤ s'.2.drawn

theorem Grows.refl (s : Store × Signals) : Grows s s := ⟨fun _ h => h, fun _ h => h, le_refl _⟩

/-- **No call takes back a replan or a signal.** -/
theorem grows_of_exec (h : scheduling.exec o s = .ok (v, s')) : Grows s s' := by
  cases o with
  | inl o =>
      obtain ⟨hexec, hsignals⟩ := Interface.exec_inl_eq_ok h
      refine ⟨fun id hreplan => hreplan.exec hexec, ?_, ?_⟩
      · rw [hsignals]
        exact fun r hr => hr
      · rw [hsignals]
  | inr o =>
      cases o with
      | append signal =>
          obtain ⟨-, rfl⟩ := Prod.mk.inj (Except.ok.inj h)
          exact ⟨fun _ h => h, fun _ h => h, Nat.le_succ _⟩
      | commit seq =>
          obtain ⟨-, rfl⟩ := Prod.mk.inj (Except.ok.inj h)
          exact ⟨fun _ h => h, fun r hr => Signals.mem_committed_commit.2 (.inl hr), le_refl _⟩
      | rollback seq =>
          obtain ⟨-, rfl⟩ := Prod.mk.inj (Except.ok.inj h)
          exact ⟨fun _ h => h, fun _ h => h, le_refl _⟩
      | pmTickPending workstream =>
          obtain ⟨-, rfl⟩ := Prod.mk.inj (Except.ok.inj h)
          exact .refl _
      | readStuck sinceSeq lookback limit =>
          obtain ⟨-, rfl⟩ := Prod.mk.inj (Except.ok.inj h)
          exact .refl _
      | hasReplanTask id =>
          obtain ⟨-, rfl⟩ := Prod.mk.inj (Except.ok.inj h)
          exact .refl _

/-- Only a commit makes a signal visible. -/
theorem committed_of_exec (h : scheduling.exec o s = .ok (v, s')) {r : ℕ × StuckSignal}
    (hr : r ∈ s'.2.committed) :
    r ∈ s.2.committed ∨ o = .inr (.commit r.1) ∧ s'.2.drawn = s.2.drawn := by
  cases o with
  | inl o =>
      rw [(Interface.exec_inl_eq_ok h).2] at hr
      exact .inl hr
  | inr o =>
      cases o with
      | append signal =>
          obtain ⟨-, rfl⟩ := Prod.mk.inj (Except.ok.inj h)
          exact .inl hr
      | commit seq =>
          obtain ⟨-, rfl⟩ := Prod.mk.inj (Except.ok.inj h)
          rcases Signals.mem_committed_commit.1 hr with hold | ⟨-, rfl⟩
          · exact .inl hold
          · exact .inr ⟨rfl, rfl⟩
      | rollback seq =>
          obtain ⟨-, rfl⟩ := Prod.mk.inj (Except.ok.inj h)
          exact .inl hr
      | pmTickPending workstream =>
          obtain ⟨-, rfl⟩ := Prod.mk.inj (Except.ok.inj h)
          exact .inl hr
      | readStuck sinceSeq lookback limit =>
          obtain ⟨-, rfl⟩ := Prod.mk.inj (Except.ok.inj h)
          exact .inl hr
      | hasReplanTask id =>
          obtain ⟨-, rfl⟩ := Prod.mk.inj (Except.ok.inj h)
          exact .inl hr

end Anyone

/-! ## Runs -/

section Runs

variable {P : Type} [DecidableEq P] {c : Scheduler} {p₀ : P} {c₀ c' : Config scheduling P ℕ}
  {τ : List (Step scheduling P ℕ)} {st : Step scheduling P ℕ}

/-- The replans a process enqueued, in order: the stuck task of each and its workstream. -/
def replansIn (τ : List (Step scheduling P ℕ)) (p : P) : List (String × String) :=
  τ.filterMap fun st => if st.pid = p then replanned st.op st.out else none

theorem replansIn_concat (τ : List (Step scheduling P ℕ)) (st : Step scheduling P ℕ) (p : P) :
    replansIn (τ ++ [st]) p =
      replansIn τ p ++ (if st.pid = p then replanned st.op st.out else none).toList := by
  rw [replansIn, List.filterMap_append, replansIn]
  cases h : (if st.pid = p then replanned st.op st.out else none) <;> simp [h]

/-- A step commits its call, or it changes nothing. -/
theorem scheduling_outcome (hf : Fires st) :
    (∃ v, st.out = .ok v ∧ scheduling.exec st.op st.before.state = .ok (v, st.after.state)) ∨
      ∃ e, st.out = .error e ∧ st.after.state = st.before.state := by
  rcases hf.outcome with hok | ⟨e, hout, hafter⟩
  · exact .inl hok
  · refine .inr ⟨e, hout, hafter.trans ?_⟩
    cases st.op <;> rfl

theorem grows_of_fires (hf : Fires st) : Grows st.before.state st.after.state := by
  rcases scheduling_outcome hf with ⟨v, -, hexec⟩ | ⟨e, -, hsame⟩
  · exact grows_of_exec hexec
  · rw [hsame]
    exact .refl _

/-- **The rule of a run with one scheduler**: an invariant of where it stands, of the state and of
the replans it has enqueued, kept by its own calls and by the calls of everybody else. -/
theorem scheduler_rule (c : Scheduler) (Cond : Step scheduling P ℕ → Prop)
    (Inv : Dispatch → Store × Signals → List (String × String) → Prop) (l₀ : Dispatch)
    (hrun : Reach c₀ τ c')
    (hcond : ∀ st ∈ τ, Cond st) (h₀ : (dispatching c EndsBelow).Holds l₀ (c₀.pool p₀))
    (base : Inv l₀ c₀.state [])
    (own : ∀ st l l' made replans, Fires st → Cond st → st.pid = p₀ →
      Dispatched c l st.before.state st.after.state made l' → Inv l st.before.state replans →
      Inv l' st.after.state (replans ++ (made.map fun x => (x.2.1.text, x.2.2.name)).toList))
    (other : ∀ st l replans, Fires st → Cond st → st.pid ≠ p₀ → Inv l st.before.state replans →
      Inv l st.after.state replans) :
    ∃ l, (dispatching c EndsBelow).Holds l (c'.pool p₀) ∧ Inv l c'.state (replansIn τ p₀) := by
  have hall : (∀ st ∈ τ, Cond st) →
      ∃ l, (dispatching c EndsBelow).Holds l (c'.pool p₀) ∧ Inv l c'.state (replansIn τ p₀) := by
    refine hrun.induct (motive := fun τ c' => (∀ st ∈ τ, Cond st) →
      ∃ l, (dispatching c EndsBelow).Holds l (c'.pool p₀) ∧ Inv l c'.state (replansIn τ p₀))
      (fun _ => ⟨l₀, h₀, base⟩) ?_
    rintro τ₁ st - hf ih hcond
    obtain ⟨l, hholds, hinv⟩ := ih fun st' hst' => hcond st' (List.mem_append_left _ hst')
    have hst : Cond st := hcond st (List.mem_append_right _ (List.mem_singleton_self st))
    rw [replansIn_concat]
    by_cases hpid : st.pid = p₀
    · obtain ⟨k, hcall, hpool⟩ := hf.called
      rw [← hpid, hcall] at hholds
      obtain ⟨made, hdispatched, hmade⟩ := dispatched_of_allows hholds.1 (scheduling_outcome hf)
      refine ⟨l.next st.op st.out, ?_, ?_⟩
      · rw [hpool, ← hpid, Function.update_self]
        exact hholds.2 st.out
      · rw [if_pos hpid, hmade]
        exact own st l _ made _ hf hst hpid hdispatched hinv
    · refine ⟨l, ?_, ?_⟩
      · rw [hf.pool_ne (Ne.symm hpid)]
        exact hholds
      · rw [if_neg hpid, Option.toList_none, List.append_nil]
        exact other st l _ hf hst hpid hinv
  exact hall hcond

end Runs

/-! ## One replan for each stuck task -/

section Once

variable {P : Type} [DecidableEq P] {c : Scheduler} {p₀ : P} {c₀ c' : Config scheduling P ℕ}
  {τ : List (Step scheduling P ℕ)} {l l' : Dispatch} {s s' : Store × Signals}
  {made : Option NamedSignal} {replans : List (String × String)}

theorem mem_named {rows : List (ℕ × StuckSignal)} {x : NamedSignal} (h : x ∈ named rows) :
    (x.1, ⟨some x.2.1, x.2.2⟩) ∈ rows := by
  obtain ⟨⟨seq, taskId, workstream⟩, hr, hx⟩ := List.mem_filterMap.1 h
  obtain ⟨id, hid, rfl⟩ := Option.map_eq_some_iff.1 hx
  obtain rfl : taskId = some id := hid
  exact hr

theorem mem_named_of_mem {rows : List (ℕ × StuckSignal)} {r : ℕ × StuckSignal} {id : Uuid}
    (h : r ∈ rows) (hid : r.2.taskId = some id) : (r.1, id, r.2.workstream) ∈ named rows :=
  List.mem_filterMap.2 ⟨r, h, by rw [hid]; rfl⟩

@[simp] theorem Dispatch.settle_rest (l : Dispatch) : l.settle.rest = l.rest := by
  unfold Dispatch.settle
  split <;> rfl

@[simp] theorem Dispatch.settle_fresh (l : Dispatch) : l.settle.fresh = l.fresh := by
  unfold Dispatch.settle
  split <;> rfl

@[simp] theorem Dispatch.settle_clear (l : Dispatch) : l.settle.clear = l.clear := by
  unfold Dispatch.settle
  split <;> rfl

@[simp] theorem Dispatch.settle_ahead (l : Dispatch) : l.settle.ahead = l.ahead := by
  unfold Dispatch.settle
  split <;> rfl

/-- The replans the scheduler has enqueued: each for a committed signal and in its workstream, none
of them twice. -/
structure Unrepeated (l : Dispatch) (s : Store × Signals) (replans : List (String × String)) :
    Prop where
  rest : ∀ x ∈ l.rest, (x.1, ⟨some x.2.1, x.2.2⟩) ∈ s.2.committed
  fresh : l.fresh = true → ∀ x rest, l.rest = x :: rest → x.2.1.text ∉ replans.map Prod.fst
  once : (replans.map Prod.fst).Nodup
  signalled : ∀ x ∈ replans, ∃ r ∈ s.2.committed, ∃ id, r.2.taskId = some id ∧
    x = (id.text, r.2.workstream.name) ∧ s.1.HasReplan id

namespace Unrepeated

theorem grows (h : Unrepeated l s replans) (hgrows : Grows s s') : Unrepeated l s' replans := by
  refine ⟨fun x hx => hgrows.committed _ (h.rest x hx), h.fresh, h.once, fun x hx => ?_⟩
  obtain ⟨r, hr, id, hid, heq, hreplan⟩ := h.signalled x hx
  exact ⟨r, hgrows.committed r hr, id, hid, heq, hgrows.replans id hreplan⟩

/-- Other signals to look at, none of them checked. -/
theorem relook (h : Unrepeated l s replans) (l' : Dispatch)
    (hrest : ∀ x ∈ l'.rest, (x.1, ⟨some x.2.1, x.2.2⟩) ∈ s.2.committed) (hfresh : l'.fresh = false) :
    Unrepeated l' s replans := by
  refine ⟨hrest, fun hchecked => ?_, h.once, h.signalled⟩
  rw [hfresh] at hchecked
  cases hchecked

/-- A task without a replan has none of the scheduler's. -/
theorem not_mem_of_not_hasReplan (h : Unrepeated l s replans) {id : Uuid}
    (hnot : ¬ s.1.HasReplan id) : id.text ∉ replans.map Prod.fst := by
  intro hmem
  obtain ⟨x, hx, hid⟩ := List.mem_map.1 hmem
  obtain ⟨r, -, id', -, rfl, hreplan⟩ := h.signalled x hx
  obtain rfl : id' = id := Uuid.eq_of_text hid
  exact hnot hreplan

theorem step (h : Unrepeated l s replans) (hd : Dispatched c l s s' made l') (hgrows : Grows s s') :
    Unrepeated l' s' (replans ++ (made.map fun x => (x.2.1.text, x.2.2.name)).toList) := by
  have hpass : ∀ x ∈ l.pass.rest, (x.1, ⟨some x.2.1, x.2.2⟩) ∈ s.2.committed := by
    intro x hx
    rw [Dispatch.pass, Dispatch.settle_rest] at hx
    exact h.rest x (List.mem_of_mem_tail hx)
  cases hd with
  | failed => simpa using h.relook l.abandon (fun x hx => nomatch hx) rfl
  | looked pending live =>
      simpa using h.relook { l.abandon with clear := !pending } (fun x hx => nomatch hx) rfl
  | read cursor low =>
      refine (List.append_nil replans).symm ▸ h.relook _ ?_ (by rw [Dispatch.read]; simp)
      intro x hx
      rw [Dispatch.read, Dispatch.settle_rest] at hx
      exact (Cursor.mem_of_mem_page (mem_named hx)).1
  | answered x rest first has =>
      exact (List.append_nil replans).symm ▸ h.relook _ hpass (by rw [Dispatch.pass]; simp)
  | unanswered x rest first hasNot =>
      refine (List.append_nil replans).symm ▸ ⟨h.rest, fun _ x' rest' hfirst => ?_, h.once, h.signalled⟩
      have hfirst' : l.rest = x' :: rest' := hfirst
      rw [first] at hfirst'
      obtain ⟨rfl, -⟩ := List.cons.inj hfirst'
      exact h.not_mem_of_not_hasReplan hasNot
  | replanned x rest first fresh id row store enqueued =>
      have hreplan := hasReplan_of_enqueueTask enqueued
      have hnew := h.fresh fresh x rest first
      have hgrown := h.grows hgrows
      refine ⟨fun y hy => hgrows.committed _ (hpass y hy), fun hchecked => ?_, ?_, fun y hy => ?_⟩
      · rw [Dispatch.pass, Dispatch.settle_fresh] at hchecked
        cases hchecked
      · rw [List.map_append, List.nodup_append_comm]
        exact List.nodup_cons.2 ⟨hnew, h.once⟩
      · rcases List.mem_append.1 hy with hy | hy
        · exact hgrown.signalled y hy
        · obtain rfl := List.mem_singleton.1 hy
          exact ⟨_, hgrows.committed _ (h.rest x (first ▸ List.mem_cons_self)), x.2.1, rfl, rfl, hreplan⟩
  | pulsed clear id row store enqueued =>
      have hgrown := h.grows hgrows
      exact (List.append_nil replans).symm ▸ ⟨hgrown.rest, hgrown.fresh, hgrown.once, hgrown.signalled⟩

end Unrepeated

/-- **One replan for each stuck task.** In every run of one scheduler beside any other processes,
with failures at any call and however often the scheduler is killed and started again, it enqueues
at most one replan for a task, and only for a committed signal of the task and in its workstream. -/
theorem replans_of_reach {n turns : ℕ} {kills : List ℕ} (hrun : Reach c₀ τ c')
    (hstart : c₀.pool p₀ = c.lives n kills turns) :
    ((replansIn τ p₀).map Prod.fst).Nodup ∧
      ∀ x ∈ replansIn τ p₀, ∃ r ∈ c'.state.2.committed, ∃ id, r.2.taskId = some id ∧
        x = (id.text, r.2.workstream.name) ∧ c'.state.1.HasReplan id := by
  obtain ⟨l, -, hinv⟩ := scheduler_rule c (fun _ => True) Unrepeated
    { cursor := 0, ahead := 0 } hrun (fun _ _ => trivial) (hstart ▸ holds_lives)
    ⟨by simp, by simp, List.nodup_nil, by simp⟩
    (fun st l l' made replans hf _ _ hd hinv => hinv.step hd (grows_of_fires hf))
    fun st l replans hf _ _ hinv => hinv.grows (grows_of_fires hf)
  exact ⟨hinv.once, hinv.signalled⟩

end Once

/-! ## One live pulse -/

section Pulses

variable {P : Type} [DecidableEq P] {c : Scheduler} {p₀ : P} {c₀ c' : Config scheduling P ℕ}
  {τ : List (Step scheduling P ℕ)} {st : Step scheduling P ℕ} {l l' : Dispatch}
  {s s' : Store × Signals} {made : Option NamedSignal} {workstream : String}

/-- A call on the queue that makes no pulse, or a call on the signals. -/
theorem pulses_of_exec {o : StoreOp ⊕ SchedulerOp} {v : SchedulingRes o}
    (h : scheduling.exec o s = .ok (v, s'))
    (hkeeps : ∀ o', o = .inl o' → o'.keepsPulses workstream = true) {t : Uuid}
    (ht : s'.1.Pulses workstream t) : s.1.Pulses workstream t := by
  cases o with
  | inl o => exact ht.of_exec (Interface.exec_inl_eq_ok h).1 (hkeeps o rfl)
  | inr o =>
      have hsame : s'.1 = s.1 := by
        cases o <;> exact congrArg (fun x => x.2.1) (Except.ok.inj h).symm
      rwa [hsame] at ht

/-- At most one pulse is live, and none when the scheduler has just found none. -/
structure OnePulse (workstream : String) (l : Dispatch) (s : Store) : Prop where
  single : ∀ t t', s.Pulses workstream t → s.Pulses workstream t' → t = t'
  clear : l.clear = true → ∀ t, ¬ s.Pulses workstream t

namespace OnePulse

/-- Fewer pulses. -/
theorem anti {s s' : Store} (h : OnePulse workstream l s)
    (hback : ∀ t, s'.Pulses workstream t → s.Pulses workstream t) : OnePulse workstream l s' :=
  ⟨fun t t' ht ht' => h.single t t' (hback t ht) (hback t' ht'),
    fun hclear t ht => h.clear hclear t (hback t ht)⟩

theorem step (h : OnePulse c.workstream l s.1) (hd : Dispatched c l s s' made l') :
    OnePulse c.workstream l' s'.1 := by
  cases hd with
  | failed => exact ⟨h.single, fun hclear => by cases hclear⟩
  | looked pending live =>
      refine ⟨h.single, fun hclear t ht => ?_⟩
      rw [live.2 ⟨t, ht⟩] at hclear
      cases hclear
  | read cursor low =>
      refine ⟨h.single, fun hclear => ?_⟩
      rw [Dispatch.read, Dispatch.settle_clear] at hclear
      cases hclear
  | answered x rest first has =>
      refine ⟨h.single, fun hclear => h.clear ?_⟩
      rwa [Dispatch.pass, Dispatch.settle_clear] at hclear
  | unanswered x rest first hasNot => exact ⟨h.single, h.clear⟩
  | replanned x rest first fresh id row store enqueued =>
      have hkept := h.anti fun t ht => ht.of_exec (o := .enqueueTask id (c.replan x.2.1 x.2.2))
        (r := row) enqueued (by simp [StoreOp.keepsPulses, Scheduler.replan, replanTaskType, pmTickType])
      refine ⟨hkept.single, fun hclear => hkept.clear ?_⟩
      rwa [Dispatch.pass, Dispatch.settle_clear] at hclear
  | pulsed clear id row store enqueued =>
      -- the new pulse is the only one
      have honly : ∀ t, store.Pulses c.workstream t → t = id := by
        rintro t ⟨row', hrow', his⟩
        obtain ⟨ws, tasks, rfl, -, hinsert, rfl⟩ := enqueueTask_cases enqueued
        by_contra hne
        have hfind := Table.find?_insert hinsert t
        have hrow'' : tasks.find? t = some row' := hrow'
        rw [if_neg hne, hrow''] at hfind
        exact h.clear clear t ⟨row', hfind.symm, his⟩
      exact ⟨fun t t' ht ht' => (honly t ht).trans (honly t' ht').symm, fun hclear => by cases hclear⟩

/-- A call of another process that enqueues no pulse and forces nothing. -/
theorem fires (h : OnePulse workstream l st.before.state.1) (hf : Fires st)
    (hkeeps : ∀ o, st.op = .inl o → o.keepsPulses workstream = true) :
    OnePulse workstream l st.after.state.1 := by
  rcases scheduling_outcome hf with ⟨v, -, hexec⟩ | ⟨e, -, hsame⟩
  · exact h.anti fun t ht => pulses_of_exec hexec hkeeps ht
  · rw [hsame]
    exact h

end OnePulse

/-- **There is one live pulse at most.** In every run of one scheduler, whatever failed and however
often it was killed, as long as nobody else enqueues a pulse or forces a transition. -/
theorem pulses_of_reach {n turns : ℕ} {kills : List ℕ} (hrun : Reach c₀ τ c')
    (hothers : ∀ st ∈ τ, st.pid ≠ p₀ → ∀ o, st.op = .inl o → o.keepsPulses c.workstream = true)
    (hstart : c₀.pool p₀ = c.lives n kills turns)
    (hone : ∀ t t', c₀.state.1.Pulses c.workstream t → c₀.state.1.Pulses c.workstream t' → t = t') :
    ∀ t t', c'.state.1.Pulses c.workstream t → c'.state.1.Pulses c.workstream t' → t = t' := by
  obtain ⟨l, -, hinv⟩ := scheduler_rule c
    (fun st => st.pid ≠ p₀ → ∀ o, st.op = .inl o → o.keepsPulses c.workstream = true)
    (fun l s _ => OnePulse c.workstream l s.1)
    { cursor := 0, ahead := 0 } hrun hothers (hstart ▸ holds_lives)
    ⟨hone, fun hclear => by cases hclear⟩ (fun st l l' made replans _ _ _ hd hinv => hinv.step hd)
    fun st l replans hf hcond hpid hinv => hinv.fires hf (hcond hpid)
  exact hinv.single

end Pulses

/-! ## One killed scheduler -/

section Sample

/-- The ids a database draws for the scheduler below. -/
def drawnId : ℕ → ℕ → Uuid
  | 0, _ => ⟨"2b6d1c84-90f3-4a6e-8d57-c1e4f7a9b301", by decide⟩
  | 3, 0 => ⟨"2b6d1c84-90f3-4a6e-8d57-c1e4f7a9b302", by decide⟩
  | 3, _ => ⟨"2b6d1c84-90f3-4a6e-8d57-c1e4f7a9b303", by decide⟩
  | _, 0 => ⟨"2b6d1c84-90f3-4a6e-8d57-c1e4f7a9b304", by decide⟩
  | _, _ => ⟨"2b6d1c84-90f3-4a6e-8d57-c1e4f7a9b305", by decide⟩

/-- A scheduler with the defaults. -/
def pulser : Scheduler := { newId := drawnId }

theorem productivity_nonempty : "productivity" ≠ "" := by decide

/-- The signal that one task is stuck. -/
def stuckSignal : StuckSignal := ⟨some taskT, ⟨"productivity", productivity_nonempty⟩⟩

/-- A supervisor signals a stuck task; the scheduler is killed behind its first read. -/
def signalledOnce : Config scheduling Bool ℕ :=
  ⟨(Store.initial 0, Signals.initial), fun
    | true => pulser.lives 0 [3] 2
    | false => do
        let seq ← Program.op (I := scheduling) (.inr (.append stuckSignal))
        let _ ← Program.op (I := scheduling) (.inr (.commit seq))
        return 0⟩

/-- The signal, and the calls of the scheduler up to its death. -/
def untilKilled : List (Choice Bool Exn) :=
  List.replicate 2 (false, none) ++ List.replicate 3 (true, none)

/-- Those, and the calls of its second life. -/
def throughSecondLife : List (Choice Bool Exn) := untilKilled ++ List.replicate 4 (true, none)

theorem signalledOnce_scheduler : signalledOnce.pool true = pulser.lives 0 [3] 2 := rfl

theorem replans_of_reach_killed :
    replansIn (signalledOnce.trace throughSecondLife) true = [(taskT.text, "productivity")] ∧
      ((replansIn (signalledOnce.trace throughSecondLife) true).map Prod.fst).Nodup :=
  ⟨by decide,
    (replans_of_reach (Reach.of_run signalledOnce throughSecondLife) signalledOnce_scheduler).1⟩

theorem pulses_of_reach_killed :
    (signalledOnce.run throughSecondLife).state.1.tasks.rows.map (·.2.type) = ["pm.tick", "replan"] ∧
      ∀ t t', (signalledOnce.run throughSecondLife).state.1.Pulses "productivity" t →
        (signalledOnce.run throughSecondLife).state.1.Pulses "productivity" t' → t = t' := by
  have hothers : ∀ st ∈ signalledOnce.trace throughSecondLife,
      (st.pid || st.op.isRight) = true := by decide
  refine ⟨by decide, pulses_of_reach (Reach.of_run signalledOnce throughSecondLife)
    (fun st hst hpid o ho => ?_) signalledOnce_scheduler ?_⟩
  · have hst' := hothers st hst
    rw [ho, Bool.eq_false_iff.2 hpid] at hst'
    cases hst'
  · rintro t t' ⟨row, hrow, -⟩
    cases hrow

end Sample

end AiStudio.Runtime
