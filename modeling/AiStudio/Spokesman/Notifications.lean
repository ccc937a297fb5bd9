import AiStudio.Spokesman.Bridge
import AiStudio.Spokesman.Classify

/-!
# Notifications and status

Embeds `classify_event`, `poll_notifications` and `studio_status` of
`spokesman/runtime_bridge.py`, with `read_events` of `runtime/events.py`. A poll hides the
events of the workstreams that are noise, the status the tasks that `real_task_sql` excludes;
`announced_iff_counted` says for which approvals the two come to the same.
-/

set_option autoImplicit false

namespace AiStudio.Spokesman

open AiStudio.Data AiStudio.Runtime

/-! ## Items -/

/-- A notification that is ready to be sent. -/
structure NotificationItem where
  kind : NotifyKind
  text : String
  seq : Nat
  eventType : String
  taskId : Option Uuid
  approvalId : Option Uuid := none
  decisionId : Option Uuid := none

/-- `MAX_REASON_CHARS`. -/
def maxReasonChars : Nat := 240

/-- `_short`. -/
def short (value : String) : String := String.ofList (value.toList.take 8)

/-- A text that is cut at `maxReasonChars`. -/
def cut (text : String) : String :=
  let text := strip text
  if maxReasonChars < text.length then
    String.ofList ((text.toList.take maxReasonChars).rdropWhile isSpace) ++ "…"
  else text

/-- `_reason`, of a payload with one reason or with several. -/
def reasonText (reason : String) (reasons : List String) : String :=
  cut (if reason = "" then "; ".intercalate reasons else reason)

/-- `_render_decision`: the question is read from the row of the decision. -/
def renderDecision (s : Store) (notice : DecisionNotice) : String :=
  let id := notice.decisionId.text
  let row := s.decisions.find? notice.decisionId
  let question := row.elim "" fun d => cut d.question
  let options := (row.bind (·.options)).getD []
  "Decision needed [" ++ short id ++ "]" ++
    (if question ≠ "" then ": " ++ question else if notice.hasOptions then " (options)" else "") ++
    (if options = [] then "" else "\nOptions: " ++ " | ".intercalate options) ++
    (match row.bind (·.defaultChoice) with
      | none => ""
      | some choice => if choice = "" then "" else "\nDefault if unanswered: " ++ choice) ++
    "\nReply: decide " ++ id ++ " <answer>"

/-- The text of a request for an approval. -/
def approvalText (id : Uuid) (role tool tier reason : String) : String :=
  "Approval needed [" ++ short id.text ++ "]: " ++ role ++ " → " ++ tool ++ " (" ++ tier ++ ")" ++
    (if reason = "" then "" else " — " ++ reason) ++
    "\nReply: approve " ++ id.text ++ " | deny " ++ id.text

/-- How many signals a review had. -/
def signals (count : Nat) : String :=
  if count = 0 then "" else " (" ++ toString count ++ " signal(s))"

/-- `classify_event`: most events are not shown to the human. `brief` is what the prep cache
renders to, when it can be read. -/
def classifyEvent (s : Store) (brief : Option String) (seq : Nat) (e : Event) :
    Option NotificationItem :=
  match e.payload with
  | .sink (.reviewAlarm _ _ severity count reasons) =>
      let reason := reasonText "" reasons
      some
        { kind := .alarm, seq, eventType := "review.alarm", taskId := e.taskId
          text := "reviewer flagged " ++ severity ++ " risk" ++ signals count ++
            (if reason = "" then "" else ": " ++ reason) }
  | .approvalRequested n =>
      some
        { kind := .approve, seq, eventType := "approval.requested", taskId := e.taskId
          approvalId := some n.approvalId
          text := approvalText n.approvalId n.role n.tool n.tier (reasonText n.reason []) }
  | .sink (.approvalRequestedEphemeral id _ decision) =>
      some
        { kind := .approve, seq, eventType := "approval.requested", taskId := e.taskId
          approvalId := some id
          text := approvalText id decision.role decision.tool decision.tier.value
            (reasonText decision.reason []) }
  | .decisionRequested n =>
      some
        { kind := .approve, seq, eventType := "decision.requested", taskId := e.taskId
          decisionId := some n.decisionId
          text := renderDecision s n }
  -- the episode of a high severity has an alarm and an approval already
  | .sink (.reviewFlagged _ _ severity count reasons) =>
      if severity = "high" then none
      else
        let reason := reasonText "" reasons
        some
          { kind := .inform, seq, eventType := "review.flagged", taskId := e.taskId
            text := "Review flagged " ++ severity ++ " risk" ++ signals count ++
              (if reason = "" then "" else ": " ++ reason) }
  | .sink (.spokesmanPrepReady ..) =>
      some
        { kind := .inform, seq, eventType := "spokesman.prep_ready", taskId := e.taskId
          text := brief.elim "Prep ready — studio context refreshed." ("*Follow-up*\n" ++ ·) }
  | .taskFailedExhausted _ retries _ =>
      some
        { kind := .inform, seq, eventType := "task.failed_exhausted", taskId := e.taskId
          text := "Task " ++ short (e.taskId.elim "(none)" Uuid.text) ++
            " failed after exhausting retries (" ++ toString retries ++ ")" }
  | _ => none

/-! ## Polls -/

/-- `read_events(since_seq, lookback, limit)`, of the committed rows of the log. -/
def readEvents (rows : List (Nat × Event)) (sinceSeq lookback : Nat) (limit : Option Nat) :
    List (Nat × Event) :=
  let past := (rows.filter fun r => sinceSeq - lookback < r.1).insertionSort (·.1 ≤ ·.1)
  limit.elim past past.take

/-- The rows of the log: an event's place is its `seq`. -/
def eventRows (s : Store) : List (Nat × Event) := s.events.zipIdx.map fun e => (e.2 + 1, e.1)

/-- A batch of notifications, and the cursor to go on from. -/
structure NotificationBatch where
  items : List NotificationItem
  cursor : Nat

/-- The item an event is announced with, unless its workstream is noise. -/
def announce (s : Store) (brief : Option String) (r : Nat × Event) : Option NotificationItem :=
  if isNoiseWorkstream (some r.2.workstream.name) then none else classifyEvent s brief r.1 r.2

/-- `poll_notifications`: the cursor passes every event that was read. -/
def pollNotifications (s : Store) (brief : Option String) (rows : List (Nat × Event))
    (sinceCursor : Nat) (limit : Option Nat) : NotificationBatch :=
  let events := readEvents rows sinceCursor 0 limit
  { items := events.filterMap (announce s brief)
    cursor := (events.map Prod.fst).foldl max sinceCursor }

/-! ## Status -/

/-- `StudioStatus`. -/
structure StudioStatus where
  queued : Nat
  inProgress : Nat
  blocked : Nat
  done : Nat
  failed : Nat
  pendingApprovals : Nat
  spentTokens : Int

/-- `StudioStatus.open_tasks`. -/
def StudioStatus.openTasks (status : StudioStatus) : Nat := status.queued + status.inProgress

/-- `_workstream_scope`; an empty scope is no restriction. -/
def workstreamScope (workstream : Option String) (workstreams : List String) : List String :=
  ((workstream.toList ++ workstreams).filter (· ≠ "")).dedup.insertionSort (· ≤ ·)

/-- A row is in the scope. -/
def inScope (scope : List String) (row : Task) : Bool :=
  scope.isEmpty || scope.contains row.workstream.name

/-- The tasks the status counts. -/
def countedTasks (s : Store) (scope : List String) : List (Uuid × Task) :=
  s.tasks.select fun _ row => isReal row && inScope scope row

/-- `_pending_approvals_real`: an approval is joined with its task. -/
def pendingApprovalsReal (s : Store) (scope : List String) : List (Uuid × Approval) :=
  (s.approvals.select fun _ a => a.status = .pending &&
    (a.taskId.bind s.tasks.find?).any fun row => isReal row && inScope scope row).insertionSort
    fun x y => x.2.createdAt ≤ y.2.createdAt

/-- The states a status report calls in progress. -/
def inFlight : List TaskStatus := [.claimed, .inProgress, .readyForReview, .reviewerBlocked, .approved]

/-- `studio_status`. -/
def studioStatus (s : Store) (workstream : Option String) (workstreams : List String) :
    StudioStatus :=
  let scope := workstreamScope workstream workstreams
  let rows := countedTasks s scope
  let count := fun (statuses : List TaskStatus) =>
    (rows.filter fun r => statuses.contains r.2.status).length
  { queued := count [.upForGrabs]
    inProgress := count inFlight
    blocked := count [.blocked]
    done := count [.merged]
    failed := count [.abandoned]
    pendingApprovals := (pendingApprovalsReal s scope).length
    spentTokens := (rows.map (·.2.spentTokens)).sum }

/-! ## Announced and counted -/

/-- The event asks for the approval. -/
def Asks (id : Uuid) (e : Event) : Prop :=
  (∃ n, e.payload = .approvalRequested n ∧ n.approvalId = id) ∨
    ∃ keys decision, e.payload = .sink (.approvalRequestedEphemeral id keys decision)

section Agreement

variable (s : Store) (brief : Option String) (rows : List (Nat × Event)) (cursor : Nat) (id : Uuid)

/-- A poll of the rows past the cursor announces the approval. -/
def Announced : Prop :=
  ∃ item ∈ (pollNotifications s brief rows cursor none).items, item.approvalId = some id

/-- The status counts the approval as pending. -/
def Counted : Prop := ∃ a, (id, a) ∈ pendingApprovalsReal s []

/-- A pending approval is announced exactly if it is counted. -/
def ApprovalsAgree : Prop :=
  ∀ a, s.approvals.find? id = some a → a.status = .pending →
    (Announced s brief rows cursor id ↔ Counted s id)

/-- The two readings of a row agree. -/
def RowsAgree (workstream : Option String) (type : String) (payload : Doc) : Prop :=
  isNoiseTask workstream type (some payload) = true ↔ realTaskSql workstream type payload = false

/-- The approval is asked for past the cursor, in a workstream whose tidied name is no noise. -/
def AskedInEarnest : Prop :=
  ∃ r ∈ rows, cursor < r.1 ∧ Asks id r.2 ∧ markedName (tidyName r.2.workstream.name) = false

/-- The approval is for a task, and the texts of the task are no noise the way they are
written. -/
def ForRealTask (a : Approval) : Prop :=
  ∃ taskId row, a.taskId = some taskId ∧ s.tasks.find? taskId = some row ∧
    ¬ Marked (some row.workstream.name) row.type (row.payload.getStr? "traffic") ∧
      ¬ Respelt (some row.workstream.name)

variable {s brief rows cursor id}

theorem mem_readEvents {sinceSeq lookback : Nat} {r : Nat × Event} :
    r ∈ readEvents rows sinceSeq lookback none ↔ r ∈ rows ∧ sinceSeq - lookback < r.1 := by
  simp [readEvents, List.mem_insertionSort]

/-- The items that carry an approval are those of the events that ask for it. -/
theorem classifyEvent_approvalId {seq : Nat} {e : Event} :
    (∃ item, classifyEvent s brief seq e = some item ∧ item.approvalId = some id) ↔ Asks id e := by
  obtain ⟨ts, taskId, workstream, payload⟩ := e
  cases payload with
  | sink payload =>
      cases payload with
      | reviewFlagged target type severity count reasons =>
          by_cases hhigh : severity = "high" <;> simp [classifyEvent, Asks, hhigh]
      | _ => simp [classifyEvent, Asks]
  | _ => simp [classifyEvent, Asks]

theorem announced_iff :
    Announced s brief rows cursor id ↔ AskedInEarnest rows cursor id := by
  have hitem : ∀ r : Nat × Event, (∃ item, announce s brief r = some item ∧
      item.approvalId = some id) ↔
        Asks id r.2 ∧ markedName (tidyName r.2.workstream.name) = false := by
    intro r
    rw [announce, isNoiseWorkstream_eq, Option.all_some]
    cases hnoise : markedName (tidyName r.2.workstream.name) with
    | true => simp
    | false => simpa using classifyEvent_approvalId
  constructor
  · rintro ⟨item, hmem, hid⟩
    obtain ⟨r, hr, hann⟩ := List.mem_filterMap.1 hmem
    obtain ⟨hrow, hpast⟩ := mem_readEvents.1 hr
    obtain ⟨hasks, hname⟩ := (hitem r).1 ⟨item, hann, hid⟩
    exact ⟨r, hrow, hpast, hasks, hname⟩
  · rintro ⟨r, hrow, hpast, hasks, hname⟩
    obtain ⟨item, hann, hid⟩ := (hitem r).2 ⟨hasks, hname⟩
    exact ⟨item, List.mem_filterMap.2 ⟨r, mem_readEvents.2 ⟨hrow, hpast⟩, hann⟩, hid⟩

theorem isReal_iff {row : Task} :
    isReal row = true ↔
      ¬ Marked (some row.workstream.name) row.type (row.payload.getStr? "traffic") ∧
        ¬ Respelt (some row.workstream.name) := by
  rw [← not_or, ← realTaskSql_iff, Bool.not_eq_false]
  rfl

theorem counted_iff {a : Approval} (ha : s.approvals.find? id = some a)
    (hpending : a.status = .pending) : Counted s id ↔ ForRealTask s a := by
  have hjoin : ((a.taskId.bind s.tasks.find?).any fun row => isReal row && inScope [] row) = true ↔
      ForRealTask s a := by
    simp only [Option.any_eq_true, Option.bind_eq_some_iff, inScope, List.isEmpty_nil, Bool.true_or,
      Bool.and_true, isReal_iff, ForRealTask]
    constructor
    · rintro ⟨row, ⟨taskId, htask, hrow⟩, hreal⟩
      exact ⟨taskId, row, htask, hrow, hreal⟩
    · rintro ⟨taskId, row, htask, hrow, hreal⟩
      exact ⟨row, ⟨taskId, htask, hrow⟩, hreal⟩
  rw [← hjoin, Counted, pendingApprovalsReal]
  simp [List.mem_insertionSort, Table.mem_select, ha, hpending]

/-- **When notifications and status agree.** The two readings of a row agree exactly if tidying
its texts makes no noise of them that they do not read as already, a workstream that spells
`test` with capitals apart; and a pending approval is announced exactly if it is counted when
its request was logged in a workstream that is no noise exactly if it is for a real task. -/
theorem agree_iff (workstream : Option String) (type : String) (payload : Doc) :
    (RowsAgree workstream type payload ↔
      (TidyMarked workstream type (payload.getStr? "traffic") →
          Marked workstream type (payload.getStr? "traffic") ∨ Respelt workstream) ∧
        (Respelt workstream → TidyMarked workstream type (payload.getStr? "traffic"))) ∧
    (ApprovalsAgree s brief rows cursor id ↔
      ∀ a, s.approvals.find? id = some a → a.status = .pending →
        (AskedInEarnest rows cursor id ↔ ForRealTask s a)) := by
  refine ⟨noise_agree_iff workstream type payload, ?_⟩
  refine forall_congr' fun a => forall_congr' fun ha => forall_congr' fun hpending => ?_
  rw [announced_iff, counted_iff ha hpending]

end Agreement

/-! ## An approval without a task -/

/-- The approval of a scaled experiment. -/
def scaleApproval : Uuid := ⟨"5f6e6b0c-4d0e-4a51-9d2c-0d5a5a7a1f02", by decide⟩

/-- The request for it, which is for no task. -/
def scaleRequest : RequestArgs where
  taskId := none
  role := "experiment"
  tool := "experiment.scale"
  capabilities := ["budget.increase"]
  tier := "red"
  reason := "strongly met within budget"
  fingerprint := "scale"

/-- The database after the request. -/
def scaleRequested : Store :=
  ((requestApproval scaleApproval scaleRequest).eval (Store.initial 0)).2

/-- **The approval is announced and never counted.** Nor do the two readings agree on a
workstream with a blank before its name. -/
theorem announced_not_counted :
    ¬ ApprovalsAgree scaleRequested none (eventRows scaleRequested) 0 scaleApproval ∧
      ¬ RowsAgree (some " test-run") "work.doc" [] := by
  constructor
  · intro hagree
    have hrow : ∃ a, scaleRequested.approvals.find? scaleApproval = some a ∧ a.status = .pending ∧
        a.taskId = none := ⟨_, rfl, rfl, rfl⟩
    obtain ⟨a, ha, hpending, htask⟩ := hrow
    have hasked : AskedInEarnest (eventRows scaleRequested) 0 scaleApproval :=
      ⟨_, List.mem_singleton.2 rfl, by decide, .inl ⟨_, rfl, rfl⟩, by decide⟩
    have hcounted := (hagree a ha hpending).1 (announced_iff.2 hasked)
    obtain ⟨taskId, -, hfor, -⟩ := (counted_iff ha hpending).1 hcounted
    rw [htask] at hfor
    cases hfor
  · intro hagree
    have hnoise : isNoiseTask (some " test-run") "work.doc" (some []) = true := by decide
    have hreal : realTaskSql (some " test-run") "work.doc" [] = true := by decide
    have hexcluded := hagree.1 hnoise
    rw [hreal] at hexcluded
    cases hexcluded

end AiStudio.Spokesman
