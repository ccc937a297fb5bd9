import AiStudio.Gateway.Isolation

/-!
# What the lists reveal

Two databases that a token cannot tell apart by the rows of its own workstreams, and by where its
tasks wait for others. `lists_reveal_nothing` says that the list endpoints, the status and the feed
of events answer alike on both, over every session of such requests. The reading of one task by its
id is not among them: its 403 tells a foreign task from none.
-/

set_option autoImplicit false

namespace AiStudio.Gateway

open AiStudio.Data AiStudio.Concurrency AiStudio.Runtime AiStudio.Spokesman

/-! ## What a token can see -/

section Alike

variable (t : Token)

/-- The row is of a workstream of the token. -/
def covers (row : Task) : Bool := t.allowsWorkstream (some row.workstream.name)

/-- The two databases agree on what concerns the workstreams of the token: on the clock, on the
tasks, on the states of what these wait for, on the approvals of its tasks, and on the rows of the
log, whose places they share. -/
structure Alike (s s' : Store) : Prop where
  now : s'.now = s.now
  tasks : (s'.tasks.select fun _ row => covers t row) = s.tasks.select fun _ row => covers t row
  prerequisites : ∀ id row, s.tasks.find? id = some row → covers t row = true →
    ((s'.tasks.select fun id _ => row.dependsOn.contains id).map fun r => (r.1, r.2.status)) =
      (s.tasks.select fun id _ => row.dependsOn.contains id).map fun r => (r.1, r.2.status)
  approvals : (s'.approvals.select fun _ a => (a.taskId.bind s'.tasks.find?).any (covers t)) =
    s.approvals.select fun _ a => (a.taskId.bind s.tasks.find?).any (covers t)
  length : s'.events.length = s.events.length
  events : ((eventRows s').filter fun r => t.allowsWorkstream (some r.2.workstream.name)) =
    (eventRows s).filter fun r => t.allowsWorkstream (some r.2.workstream.name)

variable {t} {s s' : Store}

/-- A selection that looks only at rows the token sees. -/
theorem select_of_covers {κ ρ : Type} {tab tab' : Table κ ρ} {q q' p p' : κ → ρ → Bool}
    (h : tab'.select q' = tab.select q) (hp : ∀ k r, p k r = true → q k r = true)
    (hp' : ∀ k r, p' k r = true → q' k r = true)
    (hsame : ∀ kr ∈ tab.select q, p' kr.1 kr.2 = p kr.1 kr.2) : tab'.select p' = tab.select p := by
  have hsub : ∀ (tab : Table κ ρ) (p q : κ → ρ → Bool), (∀ k r, p k r = true → q k r = true) →
      tab.select p = (tab.select q).filter fun kr => p kr.1 kr.2 := by
    intro tab p q hq
    rw [Table.select, Table.select, List.filter_filter]
    congr 1
    funext kr
    cases hkr : p kr.1 kr.2 with
    | false => rfl
    | true => rw [hq kr.1 kr.2 hkr, Bool.and_self]
  rw [hsub tab p q hp, hsub tab' p' q' hp', h]
  exact List.filter_congr hsame

namespace Alike

theorem find?_of_covers (h : Alike t s s') {id : Uuid} {row : Task}
    (hrow : s.tasks.find? id = some row) (hcovers : covers t row = true) :
    s'.tasks.find? id = some row := by
  have hmem : (id, row) ∈ s'.tasks.select fun _ row => covers t row := by
    rw [h.tasks]
    exact (Table.mem_select _ _ _ _).2 ⟨hrow, hcovers⟩
  exact ((Table.mem_select _ _ _ _).1 hmem).1

/-- A selection of tasks that looks at covered rows, and at these alike. -/
theorem select_tasks (h : Alike t s s') {p p' : Uuid → Task → Bool}
    (hp : ∀ id row, p id row = true → covers t row = true)
    (hp' : ∀ id row, p' id row = true → covers t row = true)
    (hsame : ∀ id row, s.tasks.find? id = some row → covers t row = true →
      p' id row = p id row) : s'.tasks.select p' = s.tasks.select p := by
  refine select_of_covers h.tasks hp hp' fun kr hkr => ?_
  obtain ⟨hrow, hcovers⟩ := (Table.mem_select _ _ _ _).1 hkr
  exact hsame _ _ hrow hcovers

/-- What a covered task waits for is in the same state. -/
theorem status_of_prerequisite (h : Alike t s s') {id dep : Uuid} {row : Task}
    (hrow : s.tasks.find? id = some row) (hcovers : covers t row = true)
    (hdep : dep ∈ row.dependsOn) :
    (s'.tasks.find? dep).map Task.status = (s.tasks.find? dep).map Task.status := by
  have hmem : ∀ (s : Store) (status : TaskStatus),
      (s.tasks.find? dep).map Task.status = some status ↔ (dep, status) ∈
        (s.tasks.select fun id _ => row.dependsOn.contains id).map fun r => (r.1, r.2.status) := by
    intro s status
    rw [Option.map_eq_some_iff, List.mem_map]
    constructor
    · rintro ⟨r, hr, rfl⟩
      exact ⟨(dep, r), (Table.mem_select _ _ _ _).2 ⟨hr, by simpa using hdep⟩, rfl⟩
    · rintro ⟨⟨dep', r⟩, hr, heq⟩
      obtain ⟨rfl, rfl⟩ := Prod.mk.inj heq
      exact ⟨r, ((Table.mem_select _ _ _ _).1 hr).1, rfl⟩
  refine Option.ext fun status => ?_
  rw [hmem, hmem, h.prerequisites id row hrow hcovers]

theorem unmet (h : Alike t s s') {id : Uuid} {row : Task} (hrow : s.tasks.find? id = some row)
    (hcovers : covers t row = true) : s'.unmet row = s.unmet row := by
  unfold Store.unmet
  have hone : ∀ dep ∈ row.dependsOn, ((s'.tasks.find? dep).any (·.status ≠ .merged)) =
      (s.tasks.find? dep).any (·.status ≠ .merged) := by
    intro dep hdep
    have hstatus := h.status_of_prerequisite hrow hcovers hdep
    have hany : ∀ found : Option Task, found.any (·.status ≠ .merged) =
        (found.map Task.status).any (· ≠ .merged) := by
      intro found
      cases found <;> rfl
    rw [hany, hany, hstatus]
  rw [Bool.eq_iff_iff, List.any_eq_true, List.any_eq_true]
  constructor
  · rintro ⟨dep, hdep, hunmet⟩
    exact ⟨dep, hdep, hone dep hdep ▸ hunmet⟩
  · rintro ⟨dep, hdep, hunmet⟩
    exact ⟨dep, hdep, hone dep hdep ▸ hunmet⟩

theorem waitingTask (h : Alike t s s') {r : Uuid × Task} (hrow : s.tasks.find? r.1 = some r.2)
    (hcovers : covers t r.2 = true) : s'.waitingTask r = s.waitingTask r := by
  have hpend : ∀ s : Store,
      ((s.tasks.select fun id row => r.2.dependsOn.contains id && row.status ≠ .merged).map
        fun p => (p.1, p.2.status)) =
      ((s.tasks.select fun id _ => r.2.dependsOn.contains id).map fun p => (p.1, p.2.status)).filter
        fun p => p.2 ≠ .merged := by
    intro s
    rw [List.filter_map, Table.select, Table.select, List.filter_filter]
    congr 2
    funext kr
    exact Bool.and_comm _ _
  have hsame := (hpend s').trans ((h.prerequisites r.1 r.2 hrow hcovers) ▸ (hpend s).symm)
  have hids := congrArg (List.map Prod.fst) hsame
  have hany := congrArg (List.any · fun p => p.2 = .abandoned) hsame
  simp only [List.map_map, List.any_map] at hids hany
  unfold Store.waitingTask
  exact congrArg₂ (WaitingTask.mk r.1 r.2) hids hany

/-! ### The queries -/

/-- A row that a filter for an allowed workstream keeps is covered. -/
theorem covers_of_filter {workstream : Option String} (hw : t.allowsWorkstream workstream = true)
    {name : String} (hname : workstream.all (name = ·) = true) :
    t.allowsWorkstream (some name) = true := by
  cases workstream with
  | none =>
      have hempty : t.workstreams.isEmpty = true := by
        simpa [Token.allowsWorkstream] using hw
      simp [Token.allowsWorkstream, hempty]
  | some workstream =>
      have hsame : name = workstream := by simpa using hname
      rw [hsame]
      exact hw

variable {workstream : Option String}

theorem readyTasks (h : Alike t s s') (hw : t.allowsWorkstream workstream = true)
    (limit : Option Nat) :
    s'.readyTasks none workstream limit = s.readyTasks none workstream limit := by
  have hrows : (s'.tasks.select fun _ row =>
      row.status = .upForGrabs && Option.all (fun x => row.assignee.all (· = x)) none &&
        workstream.all (row.workstream.name = ·) && !s'.unmet row) =
      s.tasks.select fun _ row =>
        row.status = .upForGrabs && Option.all (fun x => row.assignee.all (· = x)) none &&
          workstream.all (row.workstream.name = ·) && !s.unmet row := by
    refine h.select_tasks (fun id row hp => ?_) (fun id row hp => ?_) fun id row hrow hcovers => ?_
    · simp only [Bool.and_eq_true] at hp
      exact covers_of_filter hw hp.1.2
    · simp only [Bool.and_eq_true] at hp
      exact covers_of_filter hw hp.1.2
    · rw [h.unmet hrow hcovers]
  simp only [Store.readyTasks, hrows]

theorem waitingTasks (h : Alike t s s') (hw : t.allowsWorkstream workstream = true) :
    s'.waitingTasks workstream = s.waitingTasks workstream := by
  have hrows : (s'.tasks.select fun _ row => row.status = .upForGrabs && 0 < row.dependsOn.length &&
      workstream.all (row.workstream.name = ·) && s'.unmet row) =
      s.tasks.select fun _ row => row.status = .upForGrabs && 0 < row.dependsOn.length &&
        workstream.all (row.workstream.name = ·) && s.unmet row := by
    refine h.select_tasks (fun id row hp => ?_) (fun id row hp => ?_) fun id row hrow hcovers => ?_
    · simp only [Bool.and_eq_true] at hp
      exact covers_of_filter hw hp.1.2
    · simp only [Bool.and_eq_true] at hp
      exact covers_of_filter hw hp.1.2
    · rw [h.unmet hrow hcovers]
  rw [Store.waitingTasks, Store.waitingTasks, hrows]
  refine List.map_congr_left fun r hr => ?_
  obtain ⟨hrow, hp⟩ := (Table.mem_select _ _ _ _).1 ((List.perm_insertionSort _ _).mem_iff.1 hr)
  simp only [Bool.and_eq_true] at hp
  exact h.waitingTask hrow (covers_of_filter hw hp.1.2)

theorem listForReview (h : Alike t s s') (hw : t.allowsWorkstream workstream = true) (limit : Nat) :
    Gateway.listForReview s' workstream limit = Gateway.listForReview s workstream limit := by
  have hcovers : ∀ (id : Uuid) (row : Task), (decide (row.status = .readyForReview) &&
      workstream.all (row.workstream.name = ·)) = true → covers t row = true := by
    intro id row hp
    rw [Bool.and_eq_true] at hp
    exact covers_of_filter hw hp.2
  rw [Gateway.listForReview, Gateway.listForReview,
    h.select_tasks hcovers hcovers fun _ _ _ _ => rfl]

theorem agents (h : Alike t s s') (hw : t.allowsWorkstream workstream = true) :
    Gateway.agents s' workstream = Gateway.agents s workstream := by
  have hcovers : ∀ (id : Uuid) (row : Task), (agentStates.contains row.status &&
      workstream.all (row.workstream.name = ·)) = true → covers t row = true := by
    intro id row hp
    rw [Bool.and_eq_true] at hp
    exact covers_of_filter hw hp.2
  rw [Gateway.agents, Gateway.agents, h.select_tasks hcovers hcovers fun _ _ _ _ => rfl]

theorem recentEvents (h : Alike t s s') (hw : t.allowsWorkstream workstream = true)
    (taskId : Option Uuid) (limit : Nat) :
    Gateway.recentEvents s' workstream taskId limit =
      Gateway.recentEvents s workstream taskId limit := by
  have hrows : ∀ s : Store, ((eventRows s).filter fun r =>
      workstream.all (r.2.workstream.name = ·) && taskId.all (r.2.taskId = some ·)) =
      ((eventRows s).filter fun r => t.allowsWorkstream (some r.2.workstream.name)).filter fun r =>
        workstream.all (r.2.workstream.name = ·) && taskId.all (r.2.taskId = some ·) := by
    intro s
    rw [List.filter_filter]
    refine List.filter_congr fun r _ => ?_
    cases hp : workstream.all (r.2.workstream.name = ·) with
    | false => rfl
    | true => rw [covers_of_filter hw hp, Bool.and_true]
  rw [Gateway.recentEvents, Gateway.recentEvents, hrows, hrows, h.events]

theorem mem_sorted {names : List String} {name : String} : name ∈ sorted names ↔ name ∈ names := by
  rw [sorted, (List.perm_insertionSort _ _).mem_iff, List.mem_dedup]

/-- What the status of a token counts is of its workstreams. -/
theorem covers_of_inScope {row : Task}
    (h : inScope (workstreamScope none (sorted t.workstreams)) row = true) : covers t row = true := by
  have hmem : ∀ name, name ∈ workstreamScope none (sorted t.workstreams) ↔ name ∈ t.workstreams := by
    intro name
    rw [workstreamScope, (List.perm_insertionSort _ _).mem_iff, List.mem_dedup, List.mem_filter,
      Option.toList_none, List.nil_append, mem_sorted]
    refine ⟨And.left, fun hname => ⟨hname, ?_⟩⟩
    have hnamed := t.named name hname
    simp only [ne_eq, decide_not, Bool.not_eq_eq_eq_not, Bool.not_true, decide_eq_false_iff_not]
    rintro rfl
    exact absurd hnamed (by decide)
  rw [inScope, Bool.or_eq_true, List.isEmpty_iff, List.contains_iff_mem] at h
  unfold covers Token.allowsWorkstream
  rcases h with hnone | hname
  · have hempty : t.workstreams = [] := by
      refine List.eq_nil_iff_forall_not_mem.2 fun name hname => ?_
      rw [← hmem, hnone] at hname
      cases hname
    simp [hempty]
  · simp [(hmem _).1 hname]

theorem studioStatus (h : Alike t s s') :
    Spokesman.studioStatus s' none (sorted t.workstreams) =
      Spokesman.studioStatus s none (sorted t.workstreams) := by
  have hcovers : ∀ row : Task,
      (isReal row && inScope (workstreamScope none (sorted t.workstreams)) row) = true →
        covers t row = true := by
    intro row hp
    rw [Bool.and_eq_true] at hp
    exact covers_of_inScope hp.2
  have htasks : countedTasks s' (workstreamScope none (sorted t.workstreams)) =
      countedTasks s (workstreamScope none (sorted t.workstreams)) :=
    h.select_tasks (fun _ => hcovers) (fun _ => hcovers) fun _ _ _ _ => rfl
  have hofTask : ∀ (s : Store) (a : Approval),
      ((a.taskId.bind s.tasks.find?).any fun row => isReal row &&
        inScope (workstreamScope none (sorted t.workstreams)) row) = true →
          (a.taskId.bind s.tasks.find?).any (covers t) = true := by
    intro s a hp
    obtain ⟨row, hrow, hreal⟩ := (Option.any_eq_true _ _).1 hp
    exact (Option.any_eq_true _ _).2 ⟨row, hrow, hcovers row hreal⟩
  have happrovals : pendingApprovalsReal s' (workstreamScope none (sorted t.workstreams)) =
      pendingApprovalsReal s (workstreamScope none (sorted t.workstreams)) := by
    refine congrArg (List.insertionSort _) (select_of_covers h.approvals (fun id a hp => ?_)
      (fun id a hp => ?_) fun r hr => ?_)
    · rw [Bool.and_eq_true] at hp
      exact hofTask s a hp.2
    · rw [Bool.and_eq_true] at hp
      exact hofTask s' a hp.2
    · -- the task of the approval is covered, so it is the same row
      obtain ⟨-, hcovered⟩ := (Table.mem_select _ _ _ _).1 hr
      obtain ⟨row, hrow, hrowCovers⟩ := (Option.any_eq_true _ _).1 hcovered
      obtain ⟨taskId, htaskId, hfind⟩ := Option.bind_eq_some_iff.1 hrow
      rw [htaskId, Option.bind_some, Option.bind_some, hfind, h.find?_of_covers hfind hrowCovers]
  rw [Spokesman.studioStatus, Spokesman.studioStatus, htasks, happrovals]

/-- The two logs grow alike. -/
theorem appendEvent (h : Alike t s s') (taskId : Option Uuid) (workstream : Workstream)
    (payload : Payload) :
    Alike t (s.appendEvent taskId workstream payload) (s'.appendEvent taskId workstream payload) where
  now := h.now
  tasks := h.tasks
  prerequisites := h.prerequisites
  approvals := h.approvals
  length := by simp [Store.appendEvent, h.length]
  events := by
    have hrows : ∀ s : Store, eventRows (s.appendEvent taskId workstream payload) =
        eventRows s ++ [(s.events.length + 1, ⟨s.now, taskId, workstream, payload⟩)] := by
      intro s
      simp [eventRows, Store.appendEvent, List.zipIdx_append]
    rw [hrows, hrows, List.filter_append, List.filter_append, h.events, h.length, h.now]

end Alike

end Alike

/-! ## Requests -/

section Requests

variable {t : Token} {server : Server} {α β : Type}

/-- The requests that list. -/
def Request.Lists : Request → Prop
  | .health | .whoami | .listReady .. | .listWaiting .. | .listReview .. | .agentsStatus ..
  | .studioStatus | .eventsRecent .. | .agentsEnv => True
  | _ => False

/-- The calls of a request of the token that lists. -/
def Looks (t : Token) : (service server).Op → Prop
  | .inl (.emit ..) => True
  | .inl _ => False
  | .inr (.readyTasks workstream _) => t.allowsWorkstream workstream = true
  | .inr (.waitingTasks workstream) => t.allowsWorkstream workstream = true
  | .inr (.listForReview workstream _) => t.allowsWorkstream workstream = true
  | .inr (.agents workstream) => t.allowsWorkstream workstream = true
  | .inr (.studioStatus workstreams) => workstreams = sorted t.workstreams
  | .inr (.recentEvents workstream _ _) => t.allowsWorkstream workstream = true
  | .inr _ => True

/-- The states of the service that the token cannot tell apart. -/
def AlikeService (t : Token) (s s' : Store × RateLimiter) : Prop := Alike t s.1 s'.1 ∧ s'.2 = s.2

/-- **Such a call answers alike**, and leaves states alike. -/
theorem looks_related (o : (service server).Op) (s s' : Store × RateLimiter) (ho : Looks t o)
    (h : AlikeService t s s') :
    (∃ v s₁ s₁', (service server).exec o s = .ok (v, s₁) ∧
        (service server).exec o s' = .ok (v, s₁') ∧ AlikeService t s₁ s₁') ∨
      ∃ e, (service server).exec o s = .error e ∧ (service server).exec o s' = .error e ∧
        AlikeService t ((service server).abort o s) ((service server).abort o s') := by
  obtain ⟨s, limiter⟩ := s
  obtain ⟨s', limiter'⟩ := s'
  obtain ⟨halike, rfl⟩ := h
  left
  rcases o with o | o
  · cases o with
    | emit taskId workstream payload =>
        exact ⟨(), (_, _), (_, _), rfl, rfl, halike.appendEvent taskId workstream (.sink payload), rfl⟩
    | _ => exact ho.elim
  · cases o with
    | authorize a now => exact ⟨_, (_, _), (_, _), rfl, rfl, halike, rfl⟩
    | connect => exact ⟨(), (_, _), (_, _), rfl, rfl, halike, rfl⟩
    | readyTasks workstream limit =>
        refine ⟨s.readyTasks none workstream (some limit), (s, _), (s', _), rfl, ?_, halike, rfl⟩
        rw [← halike.readyTasks ho]
        rfl
    | waitingTasks workstream =>
        refine ⟨s.waitingTasks workstream, (s, _), (s', _), rfl, ?_, halike, rfl⟩
        rw [← halike.waitingTasks ho]
        rfl
    | listForReview workstream limit =>
        refine ⟨listForReview s workstream limit, (s, _), (s', _), rfl, ?_, halike, rfl⟩
        rw [← halike.listForReview ho]
        rfl
    | agents workstream =>
        refine ⟨agents s workstream, (s, _), (s', _), rfl, ?_, halike, rfl⟩
        rw [← halike.agents ho]
        rfl
    | studioStatus workstreams =>
        obtain rfl : workstreams = sorted t.workstreams := ho
        refine ⟨Spokesman.studioStatus s none (sorted t.workstreams), (s, _), (s', _), rfl, ?_,
          halike, rfl⟩
        rw [← halike.studioStatus]
        rfl
    | recentEvents workstream taskId limit =>
        refine ⟨recentEvents s workstream taskId limit, (s, _), (s', _), rfl, ?_, halike, rfl⟩
        rw [← halike.recentEvents ho]
        rfl

theorem looks_audit {taskId : Option Uuid} {workstream : Option String} {payload : SinkPayload} :
    ((audit taskId workstream payload).inl : Serving server Unit).Only (Looks t) := by
  have honly : (audit taskId workstream payload).Only fun o : StoreOp =>
      ∃ taskId, o = .emit taskId (auditWorkstream workstream) payload :=
    (Program.Only.op ⟨taskId, rfl⟩).tryCatch fun _ => .ret ()
  refine honly.inl ?_
  rintro _ ⟨taskId, rfl⟩
  trivial

theorem looks_gatewayCall {o : GatewayOp} (ho : @Looks server t (.inr o)) :
    (@gatewayCall server o).Only (Looks t) := .op ho

theorem looks_connect : (@gatewayCall server .connect).Only (Looks t) :=
  .op (show @Looks server t (.inr .connect) from trivial)

theorem looks_openStore : (@openStore server).Only (Looks t) :=
  (looks_connect (t := t)).tryCatch fun _ => .throw _

theorem looks_auditAccess {allowed : Allowed} {verb scope : String} {taskId : Option Uuid}
    {workstream : Option String} :
    (@auditAccess server allowed verb scope taskId workstream).Only (Looks t) := looks_audit

theorem looks_auditDenied (denied : Denied) (verb scope : String) :
    (@auditDenied server denied verb scope).Only (Looks t) := by
  unfold auditDenied
  cases denied.identity with
  | none => exact .ret ()
  | some identity =>
      exact .tryCatch (.bind looks_connect fun _ => looks_audit) fun _ => .ret ()

/-- **The gate** lets on with what the token is admitted to. -/
theorem looks_gate {a : AuthArgs} {verb : String} {now : ℚ} {k : Token × Allowed → Serving server β}
    (hid : server.tokens.identify server.digest a.authorization = .ok t)
    (hk : ∀ allowed, a.admission t = .ok allowed → (k (t, allowed)).Only (Looks t)) :
    ((gate verb a now).bind k).Only (Looks t) := by
  unfold gate
  rw [Program.bind_assoc]
  refine .call (show @Looks server t (.inr (.authorize a now)) from trivial) fun r => ?_
  cases r with
  | error e => exact .throw e
  | ok decision =>
      have hdenied : ∀ denied, ((goOn verb a.scopeText (.error denied)).bind k).Only
          (@Looks server t) := by
        intro denied
        unfold goOn
        rw [Program.bind_assoc]
        exact .bind (looks_auditDenied _ _ _) fun _ => .throw _
      cases decision with
      | unknown denied h => exact hdenied _
      | limited token wait h => exact hdenied _
      | refused token denied h h' => exact hdenied _
      | admitted token allowed h h' =>
          obtain rfl : token = t := Except.ok.inj (h.symm.trans hid)
          exact hk allowed h'

theorem looks_serveList {verb : String} {authorization workstream : Option String} {now : ℚ}
    {query : Option String → Serving server α}
    (hid : server.tokens.identify server.digest authorization = .ok t)
    (hquery : ∀ workstream, t.allowsWorkstream workstream = true →
      (query workstream).Only (Looks t)) :
    (serveList verb authorization workstream now query).Only (Looks t) := by
  unfold serveList
  rw [Program.bind_eq]
  refine looks_gate hid fun allowed hadmit => ?_
  refine .bind looks_openStore fun _ => .bind (hquery _ (allows_of_admission hadmit rfl)) fun _ => ?_
  exact .bind looks_auditAccess fun _ => .ret _

/-- **A request that lists** asks only for what the token covers. -/
theorem looks_serve {request : Request} (hlists : request.Lists) {authorization : Option String}
    {now : ℚ} (hid : server.tokens.identify server.digest authorization = .ok t) :
    (serve request authorization now : Serving server Response).Only (Looks t) := by
  cases request with
  | health => exact .ret _
  | whoami => exact looks_gate hid fun allowed _ => .ret _
  | listReady workstream limit =>
      exact .bind (looks_serveList hid fun scope hscope => looks_gatewayCall hscope) fun _ => .ret _
  | listWaiting workstream =>
      exact .bind (looks_serveList hid fun scope hscope => looks_gatewayCall hscope) fun _ => .ret _
  | listReview workstream limit =>
      exact .bind (looks_serveList hid fun scope hscope => looks_gatewayCall hscope) fun _ => .ret _
  | agentsStatus workstream =>
      exact .bind (looks_serveList hid fun scope hscope => looks_gatewayCall hscope) fun _ => .ret _
  | studioStatus =>
      refine looks_gate hid fun allowed _ => .bind looks_openStore fun _ => ?_
      exact .bind (looks_gatewayCall rfl) fun _ => .bind looks_auditAccess fun _ => .ret _
  | eventsRecent limit workstream taskId =>
      refine looks_gate hid fun allowed hadmit => .bind looks_openStore fun _ => ?_
      cases eventTask taskId with
      | error e => exact .throw e
      | ok taskId =>
          exact .bind (looks_gatewayCall (allows_of_admission hadmit rfl)) fun _ =>
            .bind looks_auditAccess fun _ => .ret _
  | agentsEnv =>
      refine looks_gate hid fun allowed _ => .bind (.tryCatch ?_ fun _ => .ret ()) fun _ => .ret _
      exact .bind looks_openStore fun _ => looks_auditAccess
  | _ => exact hlists.elim

/-! ### Sessions -/

/-- The replies to some requests made one after the other, each at a reading of the clock. -/
def session (server : Server) (authorization : Option String) :
    List (Request × ℚ) → Store × RateLimiter → List (Except Exn Response)
  | [], _ => []
  | (request, now) :: requests, s =>
      let served := (@serve server request authorization now).eval s
      served.1 :: session server authorization requests served.2

/-- **The lists reveal nothing.** A token gets the same replies to every session of requests that
list, for its ready, waiting and submitted tasks, its agents, its events, its status and itself,
from any two databases that agree on the tasks, approvals and events of its workstreams, on the
states of what these tasks wait for, and on the length of the log. -/
theorem lists_reveal_nothing {authorization : Option String}
    (hid : server.tokens.identify server.digest authorization = .ok t)
    {requests : List (Request × ℚ)} (hlists : ∀ r ∈ requests, r.1.Lists)
    {s s' : Store} (h : Alike t s s') (limiter : RateLimiter) :
    session server authorization requests (s', limiter) =
      session server authorization requests (s, limiter) := by
  have hall : ∀ requests : List (Request × ℚ), (∀ r ∈ requests, r.1.Lists) →
      ∀ s s', AlikeService t s s' →
        session server authorization requests s' = session server authorization requests s := by
    intro requests
    induction requests with
    | nil => exact fun _ _ _ _ => rfl
    | cons r requests ih =>
        obtain ⟨request, now⟩ := r
        intro hlists s s' halike
        obtain ⟨hreply, hafter⟩ := (looks_serve (hlists _ List.mem_cons_self) hid).eval_related
          looks_related halike
        exact congrArg₂ List.cons hreply.symm
          (ih (fun r hr => hlists r (List.mem_cons_of_mem _ hr)) _ _ hafter)
  exact hall requests hlists _ _ ⟨h, rfl⟩

end Requests

/-! ### A foreign task -/

theorem coding_nonempty : "coding" ≠ "" := by decide

/-- A task of another workstream. -/
def foreignTask : Task := { freshTask 0 with workstream := ⟨"coding", coding_nonempty⟩ }

/-- The id of that task. -/
def foreignId : Uuid := ⟨"7c1f0a52-6b1d-4f0b-8a53-3f1e9d2c4b05", by decide⟩

/-- A database with a task of the agent's workstream, and one with the foreign task beside it. -/
def besideForeign : Store :=
  { Store.initial 0 with tasks := ⟨[(foreignId, foreignTask), (taskT, freshTask 0)], by decide⟩ }

theorem alike_besideForeign : Alike drafter (Store.single taskT (freshTask 0) 0) besideForeign where
  now := rfl
  tasks := by rfl
  prerequisites := by
    intro id row hrow _
    have hmem := (Table.find?_eq_some_iff _ id row).1 hrow
    obtain ⟨-, rfl⟩ := Prod.mk.inj (List.mem_singleton.1 hmem)
    rfl
  approvals := by rfl
  length := rfl
  events := by rfl

theorem lists_reveal_nothing_besideForeign :
    session onePin (some "Bearer drafter") [(.listReady none none, 0), (.studioStatus, 1)]
        (besideForeign, .new 60 5) =
      session onePin (some "Bearer drafter") [(.listReady none none, 0), (.studioStatus, 1)]
        (Store.single taskT (freshTask 0) 0, .new 60 5) := by
  refine lists_reveal_nothing (t := drafter) rfl (fun r hr => ?_) alike_besideForeign (.new 60 5)
  simp only [List.mem_cons, List.not_mem_nil, or_false] at hr
  rcases hr with rfl | rfl <;> trivial

end AiStudio.Gateway
