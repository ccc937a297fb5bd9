import AiStudio.Runtime.Recovery
import AiStudio.Runtime.Worker

/-!
# A worker that dies

A worker claims a task and dies at some call. If the supervisor goes on sweeping, the
task ends up re-queued, terminal, in review, or parked on an open request, unless the
worker died with the task `approved` or `reviewer_blocked`, which no sweep looks at
(`settles_iff`).
-/

set_option autoImplicit false

namespace AiStudio.Runtime

open AiStudio.Data AiStudio.Concurrency

/-! ## Settled tasks -/

/-- The approval waits for a human, or its grant is live. -/
def Store.OpenApproval (s : Store) (id : Uuid) : Prop :=
  ∃ a, s.approvals.find? id = some a ∧ (a.status = .pending ∨ a.status = .approved)

/-- The decision waits for a human. -/
def Store.OpenDecision (s : Store) (id : Uuid) : Prop :=
  ∃ d, s.decisions.find? id = some d ∧ d.status = .open

/-- The task is parked on the approval. -/
def Store.ParkedOnApproval (s : Store) (t id : Uuid) : Prop :=
  ∃ row, s.tasks.find? t = some row ∧ row.status = .blocked ∧
    row.blockedOnApproval = some id.text

/-- The task is parked on a request that a human can still decide. -/
def Store.Parked (s : Store) (t : Uuid) : Prop :=
  (∃ id, s.ParkedOnApproval t id ∧ s.OpenApproval id) ∨
    ∃ row id, s.tasks.find? t = some row ∧ row.status = .blocked ∧
      row.blockedOnDecision = some id.text ∧ s.OpenDecision id

/-- The task waits for someone, or for nothing. -/
def Store.Settled (s : Store) (t : Uuid) : Prop :=
  (∃ st, s.status? t = some st ∧
    (st = .upForGrabs ∨ st = .readyForReview ∨ st = .merged ∨ st = .abandoned)) ∨ s.Parked t

/-- The task is between two hops of a review. -/
def Store.MidReview (s : Store) (t : Uuid) : Prop :=
  s.status? t = some .approved ∨ s.status? t = some .reviewerBlocked

theorem Store.ParkedOnApproval.of_core_eq {s s' : Store} {t id : Uuid}
    (h : s.ParkedOnApproval t id) (hcore : s'.core t = s.core t) : s'.ParkedOnApproval t id := by
  obtain ⟨row, hrow, hstatus, happroval⟩ := h
  rw [Store.core_of_find? hrow, Store.core_eq_some] at hcore
  obtain ⟨row', hrow', hcore'⟩ := hcore
  have hs : row'.status = row.status := congrArg TaskCore.status hcore'
  have hr : row'.result = row.result := congrArg TaskCore.result hcore'
  refine ⟨row', hrow', hs.trans hstatus, ?_⟩
  rw [Task.blockedOnApproval, hr]
  exact happroval

/-! ## How a worker parks -/

/-- What a worker holds: an approval it asked for. A worker that has parked its task makes
no further call, and the bystanders of a run only let time pass. -/
inductive ParkPhase where
  | free
  | asked (id : Uuid)
  | parked
  | idle

/-- The worker has not parked its task yet. -/
def ParkPhase.Live (l : ParkPhase) : Prop := l = .free ∨ ∃ id, l = .asked id

/-- The call may park a task. -/
def StoreOp.parks : StoreOp → Bool
  | .transition _ .blocked _ => true
  | .requestDecision .. => true
  | _ => false

/-- A task is parked on the approval its worker asked for last. -/
def parkOutline {α : Type} (post : ParkPhase → α → Prop) : Outline database ParkPhase α where
  allows
    | .free, o => o.parks = false
    | .asked id, o => o.parks = false ∨
        ∃ t reason, o = .transition t .blocked (blockArgs id reason)
    | .parked, _ => False
    | .idle, .tick _ => True
    | .idle, _ => False
  next
    | .parked, _, _ => .parked
    | .idle, _, _ => .idle
    | _, .transition _ .blocked _, _ => .parked
    | _, .selectOpenApproval _, .ok (some (id, _)) => .asked id
    | _, .insertApproval id _, .ok _ => .asked id
    | .free, _, _ => .free
    | .asked id, o, _ => if o.footprint.contains .approvals then .free else .asked id
  ends
    | l, .ok a => post l a
    | _, .error _ => True

section Rules

variable {α β : Type}

/-- Sequencing. -/
theorem parks_bind {q : ParkPhase → α → Prop} {q' : ParkPhase → β → Prop} {l : ParkPhase}
    {p : Process α} {f : α → Process β} (hp : (parkOutline q).Holds l p)
    (hf : ∀ l a, q l a → (parkOutline q').Holds l (f a)) :
    (parkOutline q').Holds l (p.bind f) :=
  Outline.holds_bind (fun _ _ h => h) (fun _ _ _ => rfl) hf (fun _ _ _ => trivial) hp

theorem parks_weaken {post post' : ParkPhase → α → Prop} (h : ∀ l a, post l a → post' l a)
    {l : ParkPhase} {p : Process α} (hp : (parkOutline post).Holds l p) :
    (parkOutline post').Holds l p := by
  induction p generalizing l with
  | ret a => exact h l a hp
  | throw e => trivial
  | call o k ih => exact ⟨hp.1, fun r => ih r (hp.2 r)⟩

theorem parks_ite {c : Prop} [Decidable c] {post : ParkPhase → α → Prop} {l : ParkPhase}
    {p q : Process α} (hp : c → (parkOutline post).Holds l p)
    (hq : ¬ c → (parkOutline post).Holds l q) : (parkOutline post).Holds l (if c then p else q) := by
  split
  · exact hp ‹_›
  · exact hq ‹_›

theorem live_next {post : ParkPhase → α → Prop} {l : ParkPhase} (hl : l.Live) {o : StoreOp}
    (ho : o.parks = false) (r : Except Exn o.Res) :
    ((parkOutline post).next l o r).Live := by
  have hfree : ParkPhase.Live .free := Or.inl rfl
  have hasked : ∀ id, ParkPhase.Live (.asked id) := fun id => Or.inr ⟨id, rfl⟩
  cases o with
  | transition t target a =>
      rcases hl with rfl | ⟨id, rfl⟩ <;> cases target <;>
        first | exact hfree | exact hasked _ | cases ho
  | selectOpenApproval fp =>
      rcases hl with rfl | ⟨id, rfl⟩ <;> rcases r with e | _ | ⟨id', row⟩ <;>
        first | exact hfree | exact hasked _
  | insertApproval id' a =>
      rcases hl with rfl | ⟨id, rfl⟩ <;> rcases r with e | row <;>
        first | exact hfree | exact hasked _
  | requestDecision d a => cases ho
  | _ =>
      rcases hl with rfl | ⟨id, rfl⟩ <;> first | exact hfree | exact hasked _

theorem allows_live {post : ParkPhase → α → Prop} {l : ParkPhase} (hl : l.Live) {o : StoreOp}
    (ho : o.parks = false) : (parkOutline post).allows l o := by
  rcases hl with rfl | ⟨id, rfl⟩
  · exact ho
  · exact Or.inl ho

/-- A call that does not park. -/
theorem parks_call {l : ParkPhase} (hl : l.Live) {o : StoreOp} (ho : o.parks = false) :
    (parkOutline fun l' (_ : o.Res) => l'.Live).Holds l (call o) := by
  refine ⟨allows_live hl ho, fun r => ?_⟩
  cases r with
  | ok v => exact live_next hl ho _
  | error e => trivial

/-- A seam does not park. -/
theorem parks_seam {l : ParkPhase} (hl : l.Live) {p : Process α} (hp : roleOutline.Holds () p) :
    (parkOutline fun l' (_ : α) => l'.Live).Holds l p := by
  induction p generalizing l with
  | ret a => exact hl
  | throw e => trivial
  | call o k ih =>
      have ho : o.parks = false := by
        have hspares : o.sparesQueue = true := hp.1
        cases o <;> first | rfl | cases hspares
      exact ⟨allows_live hl ho, fun r => ih r (live_next hl ho r) (hp.2 r)⟩

/-- A call that leaves approvals alone. -/
theorem parks_asked {id : Uuid} {o : StoreOp} (ho : o.parks = false)
    (hfoot : o.footprint.contains .approvals = false) (hread : ∀ fp, o ≠ .selectOpenApproval fp) :
    (parkOutline fun l' (_ : o.Res) => l' = .asked id).Holds (.asked id) (call o) := by
  refine ⟨Or.inl ho, fun r => ?_⟩
  cases r with
  | error e => trivial
  | ok v =>
      cases o with
      | transition t target a =>
          cases target <;> first | exact rfl | cases ho
      | selectOpenApproval fp => exact absurd rfl (hread fp)
      | requestDecision d a => cases ho
      | _ => first | exact rfl | cases hfoot

/-- Asking for an approval. -/
theorem parks_requestApproval {l : ParkPhase} (hl : l.Live) (newId : Uuid) (a : RequestArgs) :
    (parkOutline fun l' (r : Uuid × Approval) => l' = .asked r.1).Holds l
      (requestApproval newId a) := by
  refine ⟨allows_live hl rfl, fun r => ?_⟩
  rcases r with e | _ | ⟨id, row⟩
  · trivial
  · refine ⟨allows_live (live_next hl rfl _) rfl, fun r => ?_⟩
    cases r with
    | error e => trivial
    | ok row => rcases hl with rfl | ⟨id, rfl⟩ <;> exact rfl
  · rcases hl with rfl | ⟨id', rfl⟩ <;> exact rfl

theorem parks_emitEvent {l : ParkPhase} (hl : l.Live) (workstream : String)
    (taskId : Option Uuid) (payload : SinkPayload) :
    (parkOutline fun l' (_ : Unit) => l'.Live).Holds l (emitEvent workstream taskId payload) := by
  unfold emitEvent
  cases requireWorkstream workstream with
  | error e => trivial
  | ok ws => exact parks_call hl rfl

/-- What an invocation leaves: the approval it asked for, if it is pending. -/
def Invoked (l : ParkPhase) (r : InvokeResult) : Prop :=
  l.Live ∧ (r.status = .pending → ∃ id, r.approvalId = some id ∧ l = .asked id)

theorem parks_execute {l : ParkPhase} (hl : l.Live) (a : InvokeArgs) (tool : Tool)
    (decision : Policy.Decision) (fingerprint : String) (approvalId : Option Uuid) :
    (parkOutline Invoked).Holds l (a.execute tool decision fingerprint approvalId) := by
  refine parks_bind (parks_emitEvent hl _ _ _) fun l₁ _ hl₁ => ?_
  refine parks_bind (parks_call hl₁ rfl) fun l₂ _ hl₂ => ?_
  unfold InvokeArgs.report
  cases tool.execute a.kwargs with
  | error e => trivial
  | ok result => exact ⟨hl₂, fun h => nomatch h⟩

theorem parks_pend {l : ParkPhase} (hl : l.Live) (a : InvokeArgs) (sha256 : String → String)
    (required : Finset Policy.Capability) (decision : Policy.Decision) (newId : Uuid) :
    (parkOutline Invoked).Holds l (a.pend sha256 required decision newId) := by
  refine parks_bind (parks_requestApproval hl newId _) fun l₁ r hl₁ => ?_
  subst hl₁
  exact ⟨Or.inr ⟨r.1, rfl⟩, fun _ => ⟨r.1, rfl, rfl⟩⟩

/-- **A pending invocation has asked for the approval it returns.** -/
theorem parks_invoke {l : ParkPhase} (hl : l.Live) {a : InvokeArgs} (hconn : a.conn = true)
    (sha256 : String → String) (registry : ToolRegistry) (config : Policy.PolicyConfig)
    (newId : Uuid) : (parkOutline Invoked).Holds l (a.invoke sha256 registry config newId) := by
  unfold InvokeArgs.invoke
  cases registry a.toolName with
  | none =>
      exact parks_bind (parks_emitEvent hl _ _ _) fun l₁ _ hl₁ => ⟨hl₁, fun h => nomatch h⟩
  | some tool =>
      refine parks_bind (parks_emitEvent hl _ _ _) fun l₁ _ hl₁ => ?_
      unfold InvokeArgs.act
      cases (Policy.decide (a.request (tool.capabilitiesFor a.kwargs)) config).effect with
      | deny => exact ⟨hl₁, fun h => nomatch h⟩
      | allow => exact parks_execute hl₁ a tool _ _ _
      | needsApproval =>
          simp only [hconn, if_true]
          refine parks_bind (parks_call hl₁ rfl) fun l₂ grant hl₂ => ?_
          rcases grant with _ | ⟨grantId, row⟩
          · exact parks_pend hl₂ a sha256 _ _ newId
          · refine parks_bind (parks_call hl₂ rfl) fun l₃ consumed hl₃ => ?_
            cases consumed with
            | none => exact parks_pend hl₃ a sha256 _ _ newId
            | some row => exact parks_execute hl₃ a tool _ _ _

/-- Finishing a task does not park it. -/
theorem parks_completeTask {l : ParkPhase} (hl : l.Live) (id : Uuid) (a : CompleteArgs) :
    (parkOutline fun l' (_ : Option Task) => l'.Live).Holds l (completeTask id a) := by
  obtain ⟨result, status, spentTokens, expectedFrom, force⟩ := a
  cases status with
  | merged =>
      refine parks_bind (parks_call hl rfl) fun l₁ submitted hl₁ => ?_
      cases submitted with
      | none => exact hl₁
      | some row =>
          refine parks_bind (parks_call hl₁ rfl) fun l₂ approved hl₂ => ?_
          cases approved with
          | none => exact hl₂
          | some row => exact parks_call hl₂ rfl
  | abandoned => exact parks_call hl rfl
  | _ => trivial

/-- Parking a task on the approval asked for. -/
theorem parks_blockTask (id t : Uuid) (reason : String) :
    (parkOutline fun _ (_ : Option Task) => True).Holds (.asked id) (blockTask t id reason) := by
  refine ⟨Or.inr ⟨t, reason, rfl⟩, fun r => ?_⟩
  cases r <;> trivial

end Rules

/-! ## Every handler follows the outline -/

namespace Worker

variable (w : Worker)

/-- A task is parked, or its worker goes on. -/
abbrev Ends {α : Type} (p : Process α) : Prop :=
  ∀ l : ParkPhase, l.Live → (parkOutline fun _ (_ : α) => True).Holds l p

theorem parks_beat {l : ParkPhase} (hl : l.Live) (id : Uuid) :
    (parkOutline fun l' (_ : Unit) => l'.Live).Holds l (w.beat id) :=
  parks_bind (parks_call hl rfl) fun _ _ hl₁ => hl₁

/-- A heartbeat keeps the approval asked for. -/
theorem parks_beat_asked (approvalId id : Uuid) :
    (parkOutline fun l' (_ : Unit) => l' = .asked approvalId).Holds (.asked approvalId)
      (w.beat id) :=
  parks_bind (parks_asked rfl rfl fun _ h => nomatch h) fun _ _ hl₁ => hl₁

theorem parks_maybeEnqueueReview {l : ParkPhase} (hl : l.Live) (id : Uuid) (row : Task)
    (outcome : RunOutcome) (exec : ExecutorResult) (mode : ReviewMode) :
    (parkOutline fun l' (_ : Unit) => l'.Live).Holds l
      (w.maybeEnqueueReview id row outcome exec mode) := by
  unfold maybeEnqueueReview
  refine parks_ite (fun _ => hl) fun _ => ?_
  exact parks_bind (parks_call hl rfl) fun _ _ hl₁ => parks_call hl₁ rfl

theorem parks_maybeEnqueueRetro {l : ParkPhase} (hl : l.Live) (id : Uuid) (row : Task)
    (outcome : RunOutcome) (detail : String) (mode : RetroMode) :
    (parkOutline fun l' (_ : Unit) => l'.Live).Holds l
      (w.maybeEnqueueRetro id row outcome detail mode) := by
  unfold maybeEnqueueRetro
  refine parks_ite (fun _ => hl) fun _ => ?_
  exact parks_bind (parks_call hl rfl) fun _ _ hl₁ => parks_call hl₁ rfl

theorem ends_passed (id : Uuid) (row : Task) (exec : ExecutorResult) (verdict : Verdict)
    (review : ReviewMode) (retro : RetroMode) :
    Ends (w.passed id row exec verdict review retro) := by
  intro l hl
  refine parks_bind (parks_call hl rfl) fun l₁ _ hl₁ => ?_
  refine parks_bind (parks_call hl₁ rfl) fun l₂ finished hl₂ => ?_
  refine parks_bind (w.parks_maybeEnqueueRetro hl₂ _ _ _ _ _) fun l₃ _ hl₃ => ?_
  exact parks_bind (w.parks_maybeEnqueueReview hl₃ _ _ _ _ _) fun _ _ _ => trivial

theorem ends_exhausted (id : Uuid) (row : Task) (exec : ExecutorResult) (verdict : Verdict)
    (attempt : Nat) (review : ReviewMode) (retro : RetroMode) :
    Ends (w.exhausted id row exec verdict attempt review retro) := by
  intro l hl
  refine parks_bind (parks_call hl rfl) fun l₁ finished hl₁ => ?_
  refine parks_bind (w.parks_maybeEnqueueRetro hl₁ _ _ _ _ _) fun l₂ _ hl₂ => ?_
  exact parks_bind (w.parks_maybeEnqueueReview hl₂ _ _ _ _ _) fun _ _ _ => trivial

/-- What a run of the executor leaves: the approval it asked for, if it is pending. -/
def Acted (l : ParkPhase) (exec : ExecutorResult) : Prop :=
  l.Live ∧ (exec.invokeStatus = .pending → ∃ id, exec.approvalId = some id ∧ l = .asked id)

/-- The event of the executor keeps what its call asked for. -/
theorem parks_executor {l : ParkPhase} (hl : l.Live) (newId id : Uuid) (row : Task) :
    (parkOutline Acted).Holds l (w.executor.run newId id row) := by
  unfold Executor.run
  refine parks_bind (parks_seam hl (w.executor.complete.spares id row)) fun l₁ text hl₁ => ?_
  refine parks_bind (parks_invoke hl₁ rfl _ _ _ _) fun l₂ result hl₂ => ?_
  cases (Executor.marker id row).asStr? with
  | none => trivial
  | some marker =>
      by_cases hpending : result.status = .pending
      · obtain ⟨approvalId, hid, rfl⟩ := hl₂.2 hpending
        refine parks_bind (parks_asked rfl rfl fun _ h => nomatch h) fun l₃ _ hl₃ => ?_
        refine ⟨Or.inr ⟨approvalId, hl₃⟩, fun _ => ⟨approvalId, ?_, hl₃⟩⟩
        simp only [Executor.report, hpending, if_true, hid]
      · refine parks_bind (parks_call hl₂.1 rfl) fun l₃ _ hl₃ => ⟨hl₃, fun h => ?_⟩
        exact absurd h hpending

/-- Parking a task on the approval its call waits for. -/
theorem ends_block (approvalId id : Uuid) :
    (parkOutline fun _ (_ : Option Task) => True).Holds (.asked approvalId)
      (block id (some approvalId)) := parks_blockTask _ _ _

theorem ends_attempts (id : Uuid) (row : Task) (review : ReviewMode) (retro : RetroMode)
    (attempt left : Nat) : Ends (w.attempts id row review retro attempt left) := by
  induction left generalizing attempt with
  | zero => exact fun _ _ => trivial
  | succ left ih =>
      intro l hl
      unfold attempts
      refine parks_bind (w.parks_beat hl id) fun l₁ _ hl₁ => ?_
      refine parks_bind (w.parks_executor hl₁ _ id row) fun l₂ exec hl₂ => ?_
      by_cases hpending : exec.invokeStatus = .pending
      · rw [if_pos hpending]
        obtain ⟨approvalId, hid, rfl⟩ := hl₂.2 hpending
        rw [hid]
        exact parks_bind (ends_block approvalId id) fun _ _ _ => trivial
      · rw [if_neg hpending]
        refine parks_bind (w.parks_beat hl₂.1 id) fun l₃ _ hl₃ => ?_
        refine parks_bind (parks_call hl₃ rfl) fun l₄ _ hl₄ => ?_
        refine parks_bind (parks_seam hl₄ ((w.verify exec).spares id row)) fun l₅ verdict hl₅ => ?_
        refine parks_bind (w.parks_beat hl₅ id) fun l₆ _ hl₆ => ?_
        cases verdict.passed with
        | true =>
            rw [if_pos rfl]
            exact parks_bind (w.ends_passed _ _ _ _ _ _ l₆ hl₆) fun _ _ _ => trivial
        | false =>
            rw [if_neg nofun]
            refine parks_bind (parks_call hl₆ rfl) fun l₇ _ hl₇ => ?_
            cases left with
            | zero => exact parks_bind (w.ends_exhausted _ _ _ _ _ _ _ l₇ hl₇) fun _ _ _ => trivial
            | succ left =>
                refine parks_bind (parks_call hl₇ rfl) fun l₈ _ hl₈ => ?_
                exact parks_bind (parks_call hl₈ rfl) fun l₉ _ hl₉ => ih (attempt + 1) l₉ hl₉

theorem ends_handleWork (id : Uuid) (row : Task) : Ends (w.handleWork id row) := fun _ hl =>
  parks_bind (parks_seam hl ((w.resolveIntensity _ _).spares id row)) fun l₁ _ hl₁ =>
    w.ends_attempts id row _ _ _ _ l₁ hl₁

theorem ends_complete (id : Uuid) (a : CompleteArgs) (result : RunResult) :
    Ends ((completeTask id a).bind fun _ => .ret result) := fun _ hl =>
  parks_bind (parks_completeTask hl id a) fun _ _ _ => trivial

theorem ends_finishCode (id : Uuid) (row : Task) (result : Option ToolResult) :
    Ends (finishCode id row result) := by
  intro l hl
  unfold finishCode
  dsimp only
  cases codeDoc (result.any (·.ok)) result with
  | none => trivial
  | some doc => exact ends_complete _ _ _ l hl

theorem ends_handleCode (id : Uuid) (row : Task) : Ends (w.handleCode id row) := by
  intro l hl
  unfold handleCode
  refine parks_bind (w.parks_beat hl id) fun l₁ _ hl₁ => ?_
  refine parks_bind (parks_invoke hl₁ rfl _ _ _ _) fun l₂ result hl₂ => ?_
  cases hstatus : result.status with
  | pending =>
      obtain ⟨approvalId, hid, rfl⟩ := hl₂.2 hstatus
      refine parks_bind (w.parks_beat_asked approvalId id) fun l₃ _ hl₃ => ?_
      subst hl₃
      rw [hid]
      exact parks_bind (ends_block approvalId id) fun _ _ _ => trivial
  | denied =>
      exact parks_bind (w.parks_beat hl₂.1 id) fun l₃ _ hl₃ => ends_complete _ _ _ l₃ hl₃
  | executed =>
      exact parks_bind (w.parks_beat hl₂.1 id) fun l₃ _ hl₃ => ends_finishCode _ _ _ l₃ hl₃

theorem ends_handleCommit (role : CommitRole) (id : Uuid) (row : Task) :
    Ends (w.handleCommit role id row) := by
  intro l hl
  refine parks_bind (w.parks_beat hl id) fun l₁ _ hl₁ => ?_
  refine parks_bind (parks_seam hl₁ ((w.commit role).spares id row)) fun l₂ doc hl₂ => ?_
  exact parks_bind (w.parks_beat hl₂ id) fun l₃ _ hl₃ => ends_complete _ _ _ l₃ hl₃

theorem ends_handleSpokesmanPrep (id : Uuid) (row : Task) :
    Ends (w.handleSpokesmanPrep id row) := by
  intro l hl
  refine parks_bind (w.parks_beat hl id) fun l₁ _ hl₁ => ?_
  exact parks_bind (parks_seam hl₁ (w.prep.spares id row)) fun l₂ doc hl₂ =>
    ends_complete _ _ _ l₂ hl₂

theorem ends_handleReplan (id : Uuid) (row : Task) : Ends (w.handleReplan id row) := by
  intro l hl
  unfold handleReplan
  refine parks_bind (w.parks_beat hl id) fun l₁ _ hl₁ => ?_
  cases (Doc.getStr? row.payload "stuck_task_id").map parseUuid with
  | none => exact ends_complete _ _ _ l₁ hl₁
  | some parsed =>
      cases parsed with
      | error e => exact ends_complete _ _ _ l₁ hl₁
      | ok stuckId =>
          refine parks_bind (parks_seam hl₁ ((w.replan stuckId).spares id row)) fun l₂ doc hl₂ => ?_
          exact parks_bind (w.parks_beat hl₂ id) fun l₃ _ hl₃ => ends_complete _ _ _ l₃ hl₃

/-- What a tick leaves: the approval of its pushback. -/
def Ticked (l : ParkPhase) (result : PlanResult) : Prop :=
  l.Live ∧ ∀ text, result.approvalId = some text → ∃ id : Uuid, id.text = text ∧ l = .asked id

theorem parks_gate {l : ParkPhase} (hl : l.Live) (plan : Plan) (newId id : Uuid) (row : Task) :
    (parkOutline Ticked).Holds l (w.pm.gate plan newId id row) := by
  unfold Pm.gate
  refine parks_ite (fun _ => ?_) fun _ => parks_ite (fun _ => ?_) fun _ => ?_
  · refine parks_bind (parks_call hl rfl) fun l₁ _ hl₁ => ?_
    refine parks_bind (parks_requestApproval hl₁ newId _) fun l₂ r hl₂ => ?_
    refine ⟨Or.inr ⟨r.1, hl₂⟩, fun text htext => ⟨r.1, ?_, hl₂⟩⟩
    exact Option.some.inj htext
  · exact parks_bind (parks_call hl rfl) fun l₁ _ hl₁ => ⟨hl₁, fun text h => nomatch h⟩
  · exact parks_bind (parks_seam hl ((w.pm.decompose plan).spares id row)) fun l₁ _ hl₁ =>
      ⟨hl₁, fun text h => nomatch h⟩

theorem parks_runTick {l : ParkPhase} (hl : l.Live) (newId id : Uuid) (row : Task) :
    (parkOutline Ticked).Holds l (w.pm.runTick newId id row) := by
  unfold Pm.runTick
  refine parks_bind (parks_seam hl (w.pm.obtainPlan.spares id row)) fun l₁ plan hl₁ => ?_
  refine parks_bind (parks_call hl₁ rfl) fun l₂ grant hl₂ => ?_
  cases grant with
  | none => exact w.parks_gate hl₂ plan newId id row
  | some found =>
      cases parseUuid (w.pm.pushbackFingerprint id row) with
      | error e => trivial
      | ok grantId =>
          exact parks_bind (parks_call hl₂ rfl) fun l₃ _ hl₃ => w.parks_gate hl₃ _ newId id row

/-- The text of an id is read back as that id. -/
theorem parseUuid_text (id : Uuid) : parseUuid id.text = .ok id := by
  obtain ⟨text, canonical⟩ := id
  simp [parseUuid, canonical]

theorem ends_handlePmTick (id : Uuid) (row : Task) : Ends (w.handlePmTick id row) := by
  intro l hl
  unfold handlePmTick
  refine parks_bind (w.parks_runTick hl _ id row) fun l₁ plan hl₁ => ?_
  cases hid : (if plan.decision = "pushback" then plan.approvalId else none) with
  | none =>
      exact parks_bind (w.parks_beat hl₁.1 id) fun l₂ _ hl₂ => ends_complete _ _ _ l₂ hl₂
  | some text =>
      have happroval : plan.approvalId = some text := by
        split at hid
        · exact hid
        · cases hid
      obtain ⟨approvalId, rfl, rfl⟩ := hl₁.2 text happroval
      refine parks_bind (w.parks_beat_asked approvalId id) fun l₂ _ hl₂ => ?_
      subst hl₂
      rw [Option.map_some, parseUuid_text]
      exact parks_bind (parks_blockTask approvalId id _) fun _ _ _ => trivial

theorem parks_record {l : ParkPhase} (hl : l.Live) (fromWs : String) (id : Uuid) (row : Task)
    (status : String) (decision : Option String) (reason : String)
    (workTaskIds : Option (List String)) (approvalId : Option String) :
    (parkOutline fun l' (_ : Unit) => l'.Live).Holds l
      (Triage.record fromWs id row status decision reason workTaskIds approvalId) :=
  parks_bind (parks_call hl rfl) fun _ _ hl₁ => parks_call hl₁ rfl

theorem ends_settle (fromWs : String) (decision : TriageDecision) (newId id : Uuid) (row : Task) :
    Ends (w.triage.settle fromWs decision newId id row) := by
  intro l hl
  obtain ⟨verdict, reason⟩ := decision
  cases verdict with
  | accept =>
      refine parks_bind (parks_seam hl (w.triage.decompose.spares id row)) fun l₁ ids hl₁ => ?_
      refine parks_bind (parks_record hl₁ _ _ _ _ _ _ _ _) fun l₂ _ hl₂ => ?_
      exact parks_bind (parks_completeTask hl₂ _ _) fun _ _ _ => trivial
  | decline =>
      refine parks_bind (parks_record hl _ _ _ _ _ _ _ _) fun l₁ _ hl₁ => ?_
      exact parks_bind (parks_completeTask hl₁ _ _) fun _ _ _ => trivial
  | clarify =>
      refine parks_bind (parks_record hl _ _ _ _ _ _ _ _) fun l₁ _ hl₁ => ?_
      exact parks_bind (parks_call hl₁ rfl) fun _ _ _ => trivial
  | escalate =>
      refine parks_bind (parks_requestApproval hl newId _) fun l₁ r hl₁ => ?_
      subst hl₁
      refine parks_bind (q := fun l' (_ : Unit) => l' = .asked r.1) ?_ fun l₂ _ hl₂ => ?_
      · refine parks_bind (parks_asked rfl rfl fun _ h => nomatch h) fun l₂ _ hl₂ => ?_
        subst hl₂
        exact parks_asked rfl rfl fun _ h => nomatch h
      · subst hl₂
        exact parks_bind (parks_blockTask r.1 id _) fun _ _ _ => trivial

theorem ends_handleFeatureRequest (id : Uuid) (row : Task) :
    Ends (w.handleFeatureRequest id row) := by
  intro l hl
  refine parks_bind (w.parks_beat hl id) fun l₁ _ hl₁ => ?_
  refine parks_bind (q := fun _ (_ : TriageVerdict) => True) ?_ fun _ _ _ => trivial
  unfold Triage.run
  cases w.triage.fromWorkstream row with
  | error e => trivial
  | ok fromWs =>
      refine parks_bind (q := fun l' (_ : Unit) => l'.Live) ?_ fun l₂ _ hl₂ => ?_
      · refine parks_bind (parks_call hl₁ rfl) fun l₂ _ hl₂ => ?_
        exact parks_bind (parks_call hl₂ rfl) fun l₃ _ hl₃ => hl₃
      · refine parks_bind (parks_record hl₂ _ _ _ _ _ _ _ _) fun l₃ _ hl₃ => ?_
        cases w.triage.evaluate row with
        | error e => trivial
        | ok decision => exact w.ends_settle fromWs decision _ id row l₃ hl₃

/-- **Every handler follows the outline.** -/
theorem ends_handle (id : Uuid) (row : Task) (handler : Handler) :
    Ends (w.handle id row handler) := by
  have hmap : ∀ {p : Process RunResult}, Ends p → Ends (p.bind fun r => .ret (some r)) :=
    fun hp l hl => parks_bind (hp l hl) fun _ _ _ => trivial
  cases handler with
  | pmTick => exact hmap (w.ends_handlePmTick id row)
  | spokesmanPrep => exact hmap (w.ends_handleSpokesmanPrep id row)
  | replan => exact hmap (w.ends_handleReplan id row)
  | featureRequest => exact hmap (w.ends_handleFeatureRequest id row)
  | commit role => exact hmap (w.ends_handleCommit role id row)
  | code => exact hmap (w.ends_handleCode id row)
  | work => exact w.ends_handleWork id row

theorem ends_runOnce (locked : List Uuid) : Ends (w.runOnce locked) := by
  intro l hl
  refine parks_bind (q := fun l' (_ : Option (Uuid × Task)) => l'.Live) ?_ fun l₁ claimed hl₁ => ?_
  · refine parks_bind (parks_call hl rfl) fun l₁ grabbed hl₁ => ?_
    rcases grabbed with _ | ⟨id, row⟩
    · exact hl₁
    · exact parks_bind (parks_call hl₁ rfl) fun _ _ hl₂ => hl₂
  · rcases claimed with _ | ⟨id, row⟩
    · trivial
    · dsimp only
      cases resolveHandler row.type with
      | some handler => exact w.ends_handle id row handler l₁ hl₁
      | none => exact parks_bind (ends_complete _ _ _ l₁ hl₁) fun _ _ _ => trivial

end Worker

/-! ## The state a dead worker leaves -/

/-- The worker, and the clock. -/
inductive Mover where
  | worker
  | clock
  deriving DecidableEq

/-- Time passes. -/
def clock {α : Type} (result : α) : List Nat → Process α
  | [] => .ret result
  | elapsed :: rest => (call (.tick elapsed)).bind fun _ => clock result rest

/-- One pass of a worker while time passes. A run of it may stop at any call, and a fault
may strike any call. -/
def dying (w : Worker) (locked : List Uuid) (ticks : List Nat) (s : Store) :
    Config database Mover (Option RunResult) where
  state := s
  pool
    | .worker => w.runOnce locked
    | .clock => clock none ticks

theorem parks_clock {α : Type} {post : ParkPhase → α → Prop} (result : α) (ticks : List Nat)
    (hpost : post .idle result) : (parkOutline post).Holds .idle (clock result ticks) := by
  induction ticks with
  | nil => exact hpost
  | cons elapsed rest ih =>
      refine ⟨trivial, fun r => ?_⟩
      cases r with
      | ok v => exact ih
      | error e => trivial

/-- The task has a row, and if it is parked it is parked by the worker, on the approval it
asked for. -/
structure ParkedByWorker (t : Uuid) (s : Store) (ls : Mover → ParkPhase) : Prop where
  clock : ls .clock = .idle
  asked : ∀ id, ls .worker = .asked id → s.OpenApproval id
  row : ∃ st, s.status? t = some st
  parked : s.status? t = some .blocked →
    ls .worker = .parked ∧ ∃ id, s.ParkedOnApproval t id ∧ s.OpenApproval id

section Steps

variable {α : Type}

/-- An approval stays open under a call that does not write approvals. -/
theorem Store.OpenApproval.of_frame {o : StoreOp} {s s' : Store} {id : Uuid}
    (h : s.OpenApproval id) (hframe : Frame o.footprint s s')
    (hfoot : o.footprint.contains .approvals = false) : s'.OpenApproval id := by
  rw [Store.OpenApproval, hframe.approvals hfoot]
  exact h

/-- An approval asked for is open. -/
theorem open_of_next {post : ParkPhase → α → Prop} {l : ParkPhase} {st : Step database Mover α}
    (hf : Fires st) (hasked : ∀ id, l = .asked id → st.before.state.OpenApproval id) {id : Uuid}
    (h : (parkOutline post).next l st.op st.out = .asked id) :
    st.after.state.OpenApproval id := by
  have hframe := step_frame hf
  obtain ⟨pid, op, out, before, after⟩ := st
  have hcommit := exec_or_abort hf
  dsimp only at hcommit hframe hasked h ⊢
  have hkept : ∀ id', l = .asked id' → ParkPhase.asked id' = .asked id →
      op.footprint.contains .approvals = false → after.state.OpenApproval id := by
    intro id' hl hid hfoot
    obtain rfl := ParkPhase.asked.inj hid
    exact (hasked id' hl).of_frame hframe hfoot
  cases op with
  | transition t target a =>
      cases l with
      | free => cases target <;> cases h
      | asked id' => cases target <;> first | exact hkept id' rfl h rfl | cases h
      | _ => cases h
  | selectOpenApproval fp =>
      rcases hcommit with ⟨v, rfl, hexec⟩ | ⟨e, rfl, -⟩
      · rcases v with _ | ⟨id', row⟩
        · cases l with
          | asked id' => exact hkept id' rfl h rfl
          | _ => cases h
        · obtain ⟨hrow, -, hopen, hs⟩ := selectOpenApproval_eq_some hexec
          cases l with
          | parked => cases h
          | idle => cases h
          | _ =>
              obtain rfl := ParkPhase.asked.inj h
              exact ⟨row, by rw [hs]; exact hrow, hopen⟩
      · cases l with
        | asked id' => exact hkept id' rfl h rfl
        | _ => cases h
  | insertApproval id' a =>
      rcases hcommit with ⟨v, rfl, hexec⟩ | ⟨e, rfl, -⟩
      · obtain ⟨approvals, ws, rfl, hins, hs⟩ := insertApproval_cases hexec
        have hfind := Table.find?_insert hins id
        cases l with
        | parked => cases h
        | idle => cases h
        | _ =>
            obtain rfl := ParkPhase.asked.inj h
            exact ⟨_, by rw [hs]; simpa using hfind, Or.inl rfl⟩
      · cases l <;> cases h
  | _ =>
      cases l with
      | asked id' => first | exact hkept id' rfl h rfl | cases h
      | _ => cases h

/-- The only call of the worker that parks is the one its outline names. -/
theorem block_of_moved {post : ParkPhase → α → Prop} {l : ParkPhase} {o : StoreOp} {s : Store}
    {m : Move} {row : Task} (hallow : (parkOutline post).allows l o) (hmakes : o.Makes s m row)
    (htarget : m.target = .blocked) :
    ∃ id reason, l = .asked id ∧ o = .transition m.id .blocked (blockArgs id reason) ∧
      m.args = blockArgs id reason := by
  have hparks : o.parks = true := by
    cases o with
    | transition t target a =>
        obtain rfl : m = ⟨t, target, a⟩ := hmakes
        subst htarget
        rfl
    | requestDecision d a => rfl
    | grabTask a locked => cases hmakes.1.symm.trans htarget
    | rekickTask t made =>
        obtain ⟨rfl, -⟩ := hmakes
        cases htarget
    | escalateStuckTask t reason count retries =>
        obtain rfl : m = _ := hmakes
        cases htarget
    | failExhausted t scanned maxRetries =>
        obtain rfl : m = _ := hmakes
        cases htarget
    | answerDecision d answer resolver at? => cases hmakes.2.1.symm.trans htarget
    | withdrawDecision d resolver at? => cases hmakes.2.1.symm.trans htarget
    | _ => exact hmakes.elim
  cases l with
  | free => cases hparks.symm.trans hallow
  | parked => exact hallow.elim
  | idle => cases o <;> first | exact False.elim hallow | cases hparks
  | asked id =>
      rcases hallow with hno | ⟨t, reason, rfl⟩
      · cases hparks.symm.trans hno
      · obtain rfl : m = ⟨t, .blocked, blockArgs id reason⟩ := hmakes
        exact ⟨id, reason, rfl, rfl, rfl⟩

end Steps

/-- A task keeps its row. -/
theorem status?_kept {o : StoreOp} {s s' : Store} {t : Uuid} (h : TaskEffect o s s' t)
    (hrow : ∃ st, s.status? t = some st) : ∃ st, s'.status? t = some st := by
  cases h with
  | same core history finished => rwa [Store.status?, core]
  | created a op fresh core history finished => exact ⟨_, by rw [Store.status?, core]; rfl⟩
  | moved m row hid makes admits core history finished =>
      exact ⟨_, by rw [Store.status?, core]; rfl⟩

/-- The clock touches no table. -/
theorem ParkedByWorker.step_clock {α : Type} {post : ParkPhase → α → Prop} {t : Uuid}
    {ls : Mover → ParkPhase} {st : Step database Mover α} (hf : Fires st)
    (hallow : (parkOutline post).allows (ls st.pid) st.op) (hpid : st.pid = .clock)
    (h : ParkedByWorker t st.before.state ls) :
    ParkedByWorker t st.after.state ((parkOutline post).advance ls st) := by
  have hframe := step_frame hf
  have hidle : ls st.pid = .idle := by rw [hpid]; exact h.clock
  rw [hidle] at hallow
  have hfoot : st.op.footprint = [.clock] := by
    generalize st.op = o at hallow
    cases o <;> first | rfl | exact False.elim hallow
  have hcore : st.after.state.core t = st.before.state.core t := by
    rw [hfoot] at hframe
    rw [Store.core, (hframe.tasks rfl).1, Store.core]
  have hopen : ∀ id, st.before.state.OpenApproval id → st.after.state.OpenApproval id :=
    fun id hid => hid.of_frame hframe (by rw [hfoot]; rfl)
  have hworker : (parkOutline post).advance ls st .worker = ls .worker :=
    Outline.advance_ne _ _ _ (by rw [hpid]; decide)
  refine ⟨?_, fun id hid => ?_, ?_, fun hblocked => ?_⟩
  · rw [← hpid, Outline.advance_self, hidle]
    rfl
  · rw [hworker] at hid
    exact hopen id (h.asked id hid)
  · rw [Store.status?, hcore]
    exact h.row
  · rw [Store.status?, hcore] at hblocked
    obtain ⟨hover, id, hparked, hid⟩ := h.parked hblocked
    exact ⟨hworker.trans hover, id, hparked.of_core_eq hcore, hopen id hid⟩

/-- A block parks its task on an approval that is open. -/
theorem ParkedByWorker.step_worker {α : Type} {post : ParkPhase → α → Prop} {t : Uuid}
    {ls : Mover → ParkPhase} {st : Step database Mover α} (hf : Fires st)
    (hallow : (parkOutline post).allows (ls st.pid) st.op) (hpid : st.pid = .worker)
    (h : ParkedByWorker t st.before.state ls) :
    ParkedByWorker t st.after.state ((parkOutline post).advance ls st) := by
  have hframe := step_frame hf
  have heffect := step_taskEffect hf t
  have hasked : ∀ id, ls st.pid = .asked id → st.before.state.OpenApproval id := by
    rw [hpid]
    exact h.asked
  refine ⟨?_, fun id hid => ?_, status?_kept heffect h.row, fun hblocked => ?_⟩
  · rw [Outline.advance_ne _ _ _ (by rw [hpid]; exact nofun)]
    exact h.clock
  · rw [← hpid, Outline.advance_self] at hid
    exact open_of_next hf hasked hid
  · cases heffect with
    | same core history finished =>
        -- a worker that has parked the task makes no further call
        rw [Store.status?, core] at hblocked
        have hover := (h.parked hblocked).1
        rw [hpid, hover] at hallow
        exact False.elim hallow
    | created a op fresh core history finished =>
        rw [Store.status?, core] at hblocked
        cases hblocked
    | moved m row hid makes admits core history finished =>
        have htarget : m.target = .blocked := by
          rw [Store.status?, core] at hblocked
          exact Option.some.inj hblocked
        obtain ⟨id, reason, hl, hop, hargs⟩ := block_of_moved hallow makes htarget
        refine ⟨?_, id, ?_, ?_⟩
        · rw [← hpid, Outline.advance_self, hl]
          generalize st.out = r
          revert r
          rw [hop]
          exact fun _ => rfl
        · rw [Store.core_eq_some] at core
          obtain ⟨row', hrow', hcore⟩ := core
          have hresult : row'.result = (m.apply st.before.state row).result :=
            congrArg TaskCore.result hcore
          refine ⟨row', hrow', (congrArg TaskCore.status hcore).trans htarget, ?_⟩
          rw [Task.blockedOnApproval, hresult, Move.apply, hargs]
          rfl
        · exact (hasked id hl).of_frame hframe (by rw [hop]; rfl)

/-- **What a dying worker has parked, it has parked on an open approval.** -/
theorem parkedByWorker_reach {w : Worker} {locked : List Uuid} {ticks : List Nat} {s : Store}
    {t : Uuid} (ht : s.status? t = some .upForGrabs)
    {τ : List (Step database Mover (Option RunResult))}
    {c' : Config database Mover (Option RunResult)} (h : Reach (dying w locked ticks s) τ c') :
    ∃ ls, ParkedByWorker t c'.state ls := by
  let ls : Mover → ParkPhase := fun | .worker => .free | .clock => .idle
  have h₀ : ∀ p, (parkOutline fun _ (_ : Option RunResult) => True).Holds (ls p)
      ((dying w locked ticks s).pool p) := by
    intro p
    cases p with
    | worker => exact w.ends_runOnce locked .free (Or.inl rfl)
    | clock => exact parks_clock none ticks trivial
  refine ⟨_, Outline.invariant (ParkedByWorker t) (fun _ => True) h h₀ (fun _ _ => trivial) ?_ ?_⟩
  · exact ⟨rfl, fun id hid => (nomatch hid), ⟨_, ht⟩, fun hblocked =>
      (nomatch ht.symm.trans hblocked)⟩
  · intro ls' st hf _ _ hallow hinv
    cases hpid : st.pid with
    | worker => exact hinv.step_worker hf hallow hpid
    | clock => exact hinv.step_clock hf hallow hpid

/-! ## Sweeps after the crash -/

/-- Sweeps settle nothing that is not held, and unsettle nothing. -/
theorem settled_rounds {cfg : SweepConfig} {elapsed : Nat → Nat} {s : Store} {t : Uuid}
    {row : Task} (hrow : s.tasks.find? t = some row) (hheld : row.status.isHeld = false) (m : Nat) :
    (cfg.rounds elapsed s m).Settled t ↔ s.Settled t := by
  have hsame : (cfg.rounds elapsed s m).tasks.find? t = s.tasks.find? t := by
    rw [cfg.rounds_notHeld (k := 0) hrow hheld (Nat.zero_le m), hrow]
  obtain ⟨happrovals, hdecisions⟩ := cfg.rounds_frame elapsed s m
  simp only [Store.Settled, Store.status?, Store.core, Store.Parked, Store.ParkedOnApproval,
    Store.OpenApproval, Store.OpenDecision, hsame, happrovals, hdecisions]

/-- A held task settles. -/
theorem settles_held {cfg : SweepConfig} {elapsed : Nat → Nat} (hpos : ∀ n, 1 ≤ elapsed n)
    {s : Store} {t : Uuid} {row : Task} (hrow : s.tasks.find? t = some row)
    (hheld : row.status.isHeld = true) :
    ∃ n, ∀ m, n ≤ m → (cfg.rounds elapsed s m).Settled t := by
  obtain ⟨n, row', hrow', hended⟩ := cfg.held_ends hpos hrow hheld
  refine ⟨n, fun m hm => Or.inl ⟨row'.status, ?_, ?_⟩⟩
  · refine Store.status?_of_find? (cfg.rounds_notHeld hrow' ?_ hm)
    rcases hended with hst | hst <;> rw [hst] <;> rfl
  · rcases hended with hst | hst
    · exact Or.inl hst
    · exact Or.inr (Or.inr (Or.inr hst))

/-- In the middle of a review a task waits for no one. -/
theorem not_settled_of_midReview {s : Store} {t : Uuid} (h : s.MidReview t) : ¬ s.Settled t := by
  have hne : ∀ st, s.status? t = some st → st = .approved ∨ st = .reviewerBlocked := by
    intro st hst
    rcases h with h | h
    · exact Or.inl (Option.some.inj (hst.symm.trans h))
    · exact Or.inr (Option.some.inj (hst.symm.trans h))
  have hblocked : ∀ row, s.tasks.find? t = some row → row.status ≠ .blocked := by
    intro row hrow hst
    rcases hne _ (Store.status?_of_find? hrow) with h | h <;> cases hst.symm.trans h
  rintro (⟨st, hst, hsettled⟩ | ⟨id, ⟨row, hrow, hst, -⟩, -⟩ | ⟨row, id, hrow, hst, -⟩)
  · rcases hne st hst with rfl | rfl <;> rcases hsettled with h | h | h | h <;> cases h
  · exact hblocked row hrow hst
  · exact hblocked row hrow hst

/-- **A task that a dying worker held settles, exactly if the worker did not die in the
middle of a review**: whatever the task, the handler, the call at which the worker died,
and the times of the sweeps. -/
theorem settles_iff {w : Worker} {locked : List Uuid} {ticks : List Nat} {s : Store} {t : Uuid}
    (ht : s.status? t = some .upForGrabs) {τ : List (Step database Mover (Option RunResult))}
    {c' : Config database Mover (Option RunResult)} (h : Reach (dying w locked ticks s) τ c')
    (cfg : SweepConfig) {elapsed : Nat → Nat} (hpos : ∀ n, 1 ≤ elapsed n) :
    (∃ n, ∀ m, n ≤ m → (cfg.rounds elapsed c'.state m).Settled t) ↔ ¬ c'.state.MidReview t := by
  obtain ⟨ls, hinv⟩ := parkedByWorker_reach ht h
  obtain ⟨row, hrow⟩ : ∃ row, c'.state.tasks.find? t = some row := by
    obtain ⟨status, hstatus⟩ := hinv.row
    obtain ⟨core, hcore, -⟩ := Option.map_eq_some_iff.1 hstatus
    obtain ⟨row, hrow, -⟩ := Store.core_eq_some.1 hcore
    exact ⟨row, hrow⟩
  have hstatus := Store.status?_of_find? hrow
  cases hheld : row.status.isHeld with
  | true =>
      refine iff_of_true (settles_held hpos hrow hheld) ?_
      rintro (hmid | hmid)
      · rw [Option.some.inj (hstatus.symm.trans hmid)] at hheld
        cases hheld
      · rw [Option.some.inj (hstatus.symm.trans hmid)] at hheld
        cases hheld
  | false =>
      -- the rounds leave the task as it is, so what counts is how the worker left it
      have hleft : (∃ n, ∀ m, n ≤ m → (cfg.rounds elapsed c'.state m).Settled t) ↔
          c'.state.Settled t := by
        constructor
        · rintro ⟨n, hn⟩
          exact (settled_rounds hrow hheld n).1 (hn n le_rfl)
        · exact fun hs => ⟨0, fun m _ => (settled_rounds hrow hheld m).2 hs⟩
      rw [hleft]
      refine ⟨fun hs hmid => not_settled_of_midReview hmid hs, fun hmid => ?_⟩
      cases hst : row.status with
      | upForGrabs => exact Or.inl ⟨_, hstatus, Or.inl hst⟩
      | readyForReview => exact Or.inl ⟨_, hstatus, Or.inr (Or.inl hst)⟩
      | merged => exact Or.inl ⟨_, hstatus, Or.inr (Or.inr (Or.inl hst))⟩
      | abandoned => exact Or.inl ⟨_, hstatus, Or.inr (Or.inr (Or.inr hst))⟩
      | blocked => exact Or.inr (Or.inl (hinv.parked (by rw [hstatus, hst])).2)
      | approved => exact absurd (Or.inl (by rw [hstatus, hst])) hmid
      | reviewerBlocked => exact absurd (Or.inr (by rw [hstatus, hst])) hmid
      | claimed => rw [hst] at hheld; cases hheld
      | inProgress => rw [hst] at hheld; cases hheld

/-! ## A worker that dies between `approved` and `merged` -/

/-- A tool that writes a file. -/
def writeTool : Tool where
  capabilitiesFor _ := {.fsWrite}
  execute _ := .ok { ok := true }

/-- A worker that may write files, and whose verifier passes everything. -/
def writer : Worker where
  workerId := "worker-a"
  sha256 := sampleHash
  str := fun value => value.asStr?.getD ""
  registry _ := some writeTool
  config _ := { roles := [("executor", {.fsWrite})] }
  approvalId _ := ⟨"0c8f1f5e-2f0b-4a39-9a70-3f4f0c1d2e53", by decide⟩
  retroId := ⟨"0c8f1f5e-2f0b-4a39-9a70-3f4f0c1d2e54", by decide⟩
  reviewId := ⟨"0c8f1f5e-2f0b-4a39-9a70-3f4f0c1d2e55", by decide⟩
  complete := .answer "written"
  verify _ := .answer ⟨true, "marker found"⟩
  resolveIntensity review retro := .answer (review, retro)
  commit _ := .answer []
  replan _ := .answer []
  prep := .answer []
  obtainPlan := .answer ⟨true, true, "", "", .null, .null⟩
  decompose _ := .answer []
  triage := ⟨sampleHash, fun _ => .ok "design", fun _ => .ok ⟨.accept, ""⟩, .answer []⟩

/-- The writer on the one task of a database. -/
def writing : Config database Mover (Option RunResult) := dying writer [] [1000000] oneTask

/-- The writer dies after its first `n` calls. -/
def diesAfter (n : Nat) : List (Choice Mover Exn) :=
  (.clock, none) :: List.replicate n (.worker, none)

/-- **The task stays `approved`, however often the supervisor sweeps.** -/
theorem settles_fails :
    ¬ ∃ n, ((({} : SweepConfig).rounds (fun _ => 30000000)
      (writing.run (diesAfter 11)).state n)).Settled taskT := by
  rintro ⟨n, hn⟩
  have hmid : (writing.run (diesAfter 11)).state.status? taskT = some .approved := by
    decide
  obtain ⟨core, hcore, hst⟩ := Option.map_eq_some_iff.1 hmid
  obtain ⟨row, hrow, rfl⟩ := Store.core_eq_some.1 hcore
  have hheld : row.status.isHeld = false := by
    rw [show row.status = .approved from hst]
    rfl
  exact not_settled_of_midReview (Or.inl hmid) ((settled_rounds hrow hheld n).1 hn)

/-- A writer that dies before it submits its work is recovered. -/
theorem settles_iff_writing :
    ∃ n, ∀ m, n ≤ m → ((({} : SweepConfig).rounds (fun _ => 30000000)
      (writing.run (diesAfter 7)).state m)).Settled taskT := by
  have hheld : (writing.run (diesAfter 7)).state.status? taskT = some .inProgress := by
    decide
  refine (settles_iff (t := taskT) rfl (Reach.of_run writing (diesAfter 7)) {}
    (fun _ => by decide)).2 ?_
  rintro (hmid | hmid)
  · cases hheld.symm.trans hmid
  · cases hheld.symm.trans hmid

end AiStudio.Runtime
