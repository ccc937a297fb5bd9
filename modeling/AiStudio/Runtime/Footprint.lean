import AiStudio.Runtime.Database

/-!
# The footprint of a call

Which tables a call may write and whose events it may append. `exec_frame` is the
frame rule of the database: a call leaves every table outside its footprint alone and
appends no event of another subsystem.
-/

set_option autoImplicit false

namespace AiStudio.Runtime

open AiStudio.Data

/-- The parts of the state that calls write. -/
inductive Region where
  | tasks
  | approvals
  | decisions
  | trust
  | claims
  | log
  | tools
  | clock
  deriving DecidableEq, Repr

/-- The subsystem an event belongs to. -/
def Payload.region : Payload → Region
  | .taskCreated .. | .taskTransition .. | .taskFinished .. | .taskNudge .. | .taskRekicked ..
  | .taskStuck .. | .taskFailedExhausted .. => .tasks
  | .approvalRequested .. | .approvalResolved .. => .approvals
  | .decisionRequested .. | .decisionAnswered .. => .decisions
  | .commsFabricationDetected .. | .trustStrike .. | .trustCapabilityRevoked .. => .trust
  | .commsClaimVerified .. | .commsClaimRejected .. | .commsProofRequested .. => .claims
  | .sink .. => .log

/-- Only the regions `w` differ between the two states. -/
structure Frame (w : List Region) (s s' : Store) : Prop where
  tasks : w.contains .tasks = false → s'.tasks = s.tasks ∧ s'.taskTransitions = s.taskTransitions
  approvals : w.contains .approvals = false → s'.approvals = s.approvals
  decisions : w.contains .decisions = false → s'.decisions = s.decisions ∧ s'.decisionSeq = s.decisionSeq
  trust : w.contains .trust = false → s'.identityTrust = s.identityTrust
  claims : w.contains .claims = false →
    s'.commsClaims = s.commsClaims ∧ s'.commsClaimsSeq = s.commsClaimsSeq
  tools : w.contains .tools = false → s'.toolRuns = s.toolRuns
  clock : w.contains .clock = false → s'.now = s.now
  steps : s'.trajectorySteps = s.trajectorySteps
  events : ∃ es, s'.events = s.events ++ es ∧ ∀ e ∈ es, w.contains e.payload.region = true

namespace Frame

variable {w : List Region} {s s' s'' : Store}

protected theorem refl (w : List Region) (s : Store) : Frame w s s :=
  ⟨fun _ => ⟨rfl, rfl⟩, fun _ => rfl, fun _ => ⟨rfl, rfl⟩, fun _ => rfl, fun _ => ⟨rfl, rfl⟩,
    fun _ => rfl, fun _ => rfl, rfl, [], by simp, by simp⟩

protected theorem trans (h : Frame w s s') (h' : Frame w s' s'') : Frame w s s'' := by
  obtain ⟨es, hes, hin⟩ := h.events
  obtain ⟨es', hes', hin'⟩ := h'.events
  refine ⟨fun hw => ?_, fun hw => ?_, fun hw => ?_, fun hw => ?_, fun hw => ?_, fun hw => ?_,
    fun hw => ?_, ?_, es ++ es', ?_, ?_⟩
  · rw [(h'.tasks hw).1, (h'.tasks hw).2]
    exact h.tasks hw
  · rw [h'.approvals hw, h.approvals hw]
  · rw [(h'.decisions hw).1, (h'.decisions hw).2]
    exact h.decisions hw
  · rw [h'.trust hw, h.trust hw]
  · rw [(h'.claims hw).1, (h'.claims hw).2]
    exact h.claims hw
  · rw [h'.tools hw, h.tools hw]
  · rw [h'.clock hw, h.clock hw]
  · rw [h'.steps, h.steps]
  · rw [hes', hes, List.append_assoc]
  · intro e he
    rcases List.mem_append.1 he with he | he
    · exact hin e he
    · exact hin' e he

/-- An event of a region of the footprint. -/
theorem emit (h : Frame w s s') {taskId : Option Uuid} {ws : Workstream} {p : Payload}
    (hp : w.contains p.region = true) : Frame w s (s'.appendEvent taskId ws p) := by
  refine h.trans ⟨fun _ => ⟨rfl, rfl⟩, fun _ => rfl, fun _ => ⟨rfl, rfl⟩, fun _ => rfl,
    fun _ => ⟨rfl, rfl⟩, fun _ => rfl, fun _ => rfl, rfl, _, rfl, ?_⟩
  intro e he
  obtain rfl := List.mem_singleton.1 he
  exact hp

/-- A write of the task table. -/
theorem write_tasks (hw : w.contains .tasks = true) (tasks : Table Uuid Task) :
    Frame w s { s with tasks := tasks } :=
  ⟨fun h => (nomatch hw.symm.trans h), fun _ => rfl, fun _ => ⟨rfl, rfl⟩, fun _ => rfl, fun _ => ⟨rfl, rfl⟩,
    fun _ => rfl, fun _ => rfl, rfl, [], by simp, by simp⟩

theorem write_approvals (hw : w.contains .approvals = true) (approvals : Table Uuid Approval) :
    Frame w s { s with approvals := approvals } :=
  ⟨fun _ => ⟨rfl, rfl⟩, fun h => (nomatch hw.symm.trans h), fun _ => ⟨rfl, rfl⟩, fun _ => rfl,
    fun _ => ⟨rfl, rfl⟩, fun _ => rfl, fun _ => rfl, rfl, [], by simp, by simp⟩

theorem write_decisions (hw : w.contains .decisions = true) (decisions : Table Uuid Decision) (seq : Nat) :
    Frame w s { s with decisions := decisions, decisionSeq := seq } :=
  ⟨fun _ => ⟨rfl, rfl⟩, fun _ => rfl, fun h => (nomatch hw.symm.trans h), fun _ => rfl, fun _ => ⟨rfl, rfl⟩,
    fun _ => rfl, fun _ => rfl, rfl, [], by simp, by simp⟩

theorem write_trust (hw : w.contains .trust = true) (identityTrust : Table String IdentityTrust) :
    Frame w s { s with identityTrust := identityTrust } :=
  ⟨fun _ => ⟨rfl, rfl⟩, fun _ => rfl, fun _ => ⟨rfl, rfl⟩, fun h => (nomatch hw.symm.trans h),
    fun _ => ⟨rfl, rfl⟩, fun _ => rfl, fun _ => rfl, rfl, [], by simp, by simp⟩

theorem write_claims (hw : w.contains .claims = true) (commsClaims : Table Uuid CommsClaim) (seq : Nat) :
    Frame w s { s with commsClaims := commsClaims, commsClaimsSeq := seq } :=
  ⟨fun _ => ⟨rfl, rfl⟩, fun _ => rfl, fun _ => ⟨rfl, rfl⟩, fun _ => rfl, fun h => (nomatch hw.symm.trans h),
    fun _ => rfl, fun _ => rfl, rfl, [], by simp, by simp⟩

/-- A guarded move. -/
theorem record (hw : w.contains .tasks = true) (id : Uuid) (row : Task) (target : TaskStatus)
    (a : TransitionArgs) : Frame w s (s.recordTransition id row target a) := by
  refine ⟨fun h => (nomatch hw.symm.trans h), fun _ => rfl, fun _ => ⟨rfl, rfl⟩, fun _ => rfl,
    fun _ => ⟨rfl, rfl⟩, fun _ => rfl, fun _ => rfl, rfl, _, rfl, fun e he => ?_⟩
  simp only [Store.transitionEvents, List.mem_cons] at he
  rcases he with rfl | he
  · exact hw
  · split at he
    · obtain rfl := List.mem_singleton.1 he
      exact hw
    · exact absurd he (by simp)

theorem updateTask (hw : w.contains .tasks = true) {id : Uuid} {guard : Task → Bool} {f : Task → Task}
    {row : Task} (h : s.updateTask id guard f = some (row, s')) : Frame w s s' := by
  obtain ⟨_, _, _, _, rfl⟩ := Store.updateTask_eq_some h
  exact write_tasks hw _

theorem transition (hw : w.contains .tasks = true) {id : Uuid} {target : TaskStatus} {a : TransitionArgs}
    {r : Option Task} (h : Runtime.transition id target a s = .ok (r, s')) : Frame w s s' := by
  rcases transition_cases h with ⟨-, rfl, -⟩ | ⟨row, -, -, rfl⟩
  · exact .refl _ _
  · exact record hw _ _ _ _

/-- A move and its signal. -/
theorem transition_signal (hw : w.contains .tasks = true) {id : Uuid} {target : TaskStatus}
    {a : TransitionArgs} {ws : Task → Workstream} {payload : Task → Payload} {r : Option Task}
    (hp : ∀ task, (payload task).region = .tasks)
    (h : (Runtime.transition id target a s).map (signal id ws payload) = .ok (r, s')) :
    Frame w s s' := by
  cases ht : Runtime.transition id target a s with
  | error e => rw [ht] at h; cases h
  | ok x =>
      obtain ⟨t, s₁⟩ := x
      rw [ht] at h
      have h₁ : Frame w s s₁ := transition hw ht
      cases t with
      | none =>
          obtain ⟨-, rfl⟩ := Prod.mk.inj (Except.ok.inj h)
          exact h₁
      | some t =>
          obtain ⟨-, rfl⟩ := Prod.mk.inj (Except.ok.inj h)
          exact h₁.emit (by rw [hp]; exact hw)

end Frame

/-- What a call may write. -/
def StoreOp.footprint : StoreOp → List Region
  | .enqueueTask .. | .grabTask .. | .transition .. | .heartbeat .. | .addSpentTokens ..
  | .setRequestStatus .. | .nudgeTask .. | .rekickTask .. | .escalateStuckTask .. | .failExhausted .. => [.tasks]
  | .insertApproval .. | .resolveApproval .. | .consumeGrant .. => [.approvals]
  | .requestDecision .. | .answerDecision .. | .withdrawDecision .. => [.tasks, .decisions]
  | .getTrust .. | .recordStrike .. => [.trust]
  | .recordClaim .. | .setClaimVerification .. | .recordProofRequest .. => [.claims]
  | .emit .. => [.log]
  | .executeTool .. => [.tools]
  | .tick .. => [.clock]
  | .getTask .. | .findBlockedTasks | .findStaleTasks .. | .taskMadeProgress ..
  | .selectOpenApproval .. | .getApproval .. | .findGrant .. | .getDecision .. => []

/-! ## The frame of every call -/

section Queue

variable {w : List Region} {s s' : Store} {r : Option Task}

theorem enqueueTask_frame {id : Uuid} {a : EnqueueArgs} {r : Task}
    (h : enqueueTask id a s = .ok (r, s')) : Frame [.tasks] s s' := by
  obtain ⟨ws, tasks, -, -, -, rfl⟩ := enqueueTask_cases h
  exact (Frame.write_tasks rfl tasks).emit rfl

theorem grabTask_frame {a : GrabArgs} {locked : List Uuid} {r : Option (Uuid × Task)}
    (h : grabTask a locked s = .ok (r, s')) : Frame [.tasks] s s' := by
  rcases grabTask_cases h with ⟨-, rfl⟩ | ⟨id, row, -, -, -, -, rfl⟩
  · exact .refl _ _
  · exact .record rfl _ _ _ _

theorem heartbeat_frame {id : Uuid} {workerId : String}
    (h : heartbeat id workerId s = .ok (r, s')) : Frame [.tasks] s s' := by
  unfold heartbeat at h
  split at h
  · obtain ⟨-, rfl⟩ := Prod.mk.inj (Except.ok.inj h)
    exact .refl _ _
  · rename_i hu
    obtain ⟨-, rfl⟩ := Prod.mk.inj (Except.ok.inj h)
    exact .updateTask rfl hu

theorem addSpentTokens_frame {id : Uuid} {tokens : Int}
    (h : addSpentTokens id tokens s = .ok (r, s')) : Frame [.tasks] s s' := by
  unfold addSpentTokens at h
  split at h
  · cases h
  · split at h
    · obtain ⟨-, rfl⟩ := Prod.mk.inj (Except.ok.inj h)
      exact .refl _ _
    · rename_i hu
      obtain ⟨-, rfl⟩ := Prod.mk.inj (Except.ok.inj h)
      exact .updateTask rfl hu

theorem setRequestStatus_frame {id : Uuid} {status reason : String}
    {workTaskIds : Option (List String)}
    (h : setRequestStatus id status reason workTaskIds s = .ok ((), s')) : Frame [.tasks] s s' := by
  unfold setRequestStatus at h
  split at h
  · obtain ⟨-, rfl⟩ := Prod.mk.inj (Except.ok.inj h)
    exact .refl _ _
  · rename_i hu
    obtain ⟨-, rfl⟩ := Prod.mk.inj (Except.ok.inj h)
    exact .updateTask rfl hu

theorem nudgeTask_frame {id : Uuid} {grace : Time} (h : nudgeTask id grace s = .ok (r, s')) :
    Frame [.tasks] s s' := by
  unfold nudgeTask at h
  split at h
  · obtain ⟨-, rfl⟩ := Prod.mk.inj (Except.ok.inj h)
    exact .refl _ _
  · rename_i hu
    obtain ⟨-, rfl⟩ := Prod.mk.inj (Except.ok.inj h)
    exact (Frame.updateTask rfl hu).emit rfl

theorem rekickTask_frame {id : Uuid} {made : Option Bool}
    (h : rekickTask id made s = .ok (r, s')) : Frame [.tasks] s s' := by
  unfold rekickTask at h
  split at h
  · obtain ⟨-, rfl⟩ := Prod.mk.inj (Except.ok.inj h)
    exact .refl _ _
  · split at h
    · obtain ⟨-, rfl⟩ := Prod.mk.inj (Except.ok.inj h)
      exact .refl _ _
    · cases ht : transition id .upForGrabs rekickArgs s with
      | error e => simp only [ht] at h; cases h
      | ok x =>
          obtain ⟨t, s₁⟩ := x
          have h₁ : Frame [.tasks] s s₁ := .transition rfl ht
          simp only [ht, bind, Except.bind] at h
          split at h
          · obtain ⟨-, rfl⟩ := Prod.mk.inj (Except.ok.inj h)
            exact h₁
          · cases made with
            | none =>
                obtain ⟨-, rfl⟩ := Prod.mk.inj (Except.ok.inj h)
                exact h₁.emit rfl
            | some made =>
                obtain ⟨-, rfl⟩ := Prod.mk.inj (Except.ok.inj h)
                exact (h₁.trans (.write_tasks rfl _)).emit rfl

theorem escalateStuckTask_frame {id : Uuid} {reason : String} {count retries : Nat}
    (h : escalateStuckTask id reason count retries s = .ok (r, s')) : Frame [.tasks] s s' := by
  unfold escalateStuckTask at h
  split at h
  · obtain ⟨-, rfl⟩ := Prod.mk.inj (Except.ok.inj h)
    exact .refl _ _
  · rename_i hu
    exact (Frame.updateTask rfl hu).trans
      (.transition_signal rfl (fun _ => rfl) h)

theorem failExhausted_frame {id : Uuid} {scanned : Task} {maxRetries : Nat}
    (h : failExhausted id scanned maxRetries s = .ok (r, s')) : Frame [.tasks] s s' :=
  .transition_signal rfl (fun _ => rfl) h

end Queue

section Approvals

variable {s s' : Store}

theorem insertApproval_frame {id : Uuid} {a : RequestArgs} {r : Approval}
    (h : insertApproval id a s = .ok (r, s')) : Frame [.approvals] s s' := by
  obtain ⟨approvals, ws, -, -, rfl⟩ := insertApproval_cases h
  exact (Frame.write_approvals rfl approvals).emit rfl

theorem resolveApproval_frame {id : Uuid} {decision : ApprovalStatus}
    {resolver workstream : String} {r : Option Approval}
    (h : resolveApproval id decision resolver workstream s = .ok (r, s')) :
    Frame [.approvals] s s' := by
  rcases resolveApproval_cases h with ⟨-, rfl⟩ | ⟨row, row', ws, -, -, -, -, -, rfl⟩
  · exact .refl _ _
  · exact (Frame.write_approvals rfl _).emit rfl

theorem consumeGrant_frame {id : Uuid} {r : Option Approval}
    (h : consumeGrant id s = .ok (r, s')) : Frame [.approvals] s s' := by
  rcases consumeGrant_cases h with ⟨-, rfl⟩ | ⟨row, -, -, -, rfl⟩
  · exact .refl _ _
  · exact .write_approvals rfl _

end Approvals

section Decisions

variable {s s' : Store}

theorem requestDecision_frame {id : Uuid} {a : DecisionArgs} {r : Decision}
    (h : requestDecision id a s = .ok (r, s')) : Frame [.tasks, .decisions] s s' := by
  obtain ⟨s₁, ws, hp, hrec⟩ := requestDecision_cases h
  obtain ⟨decisions, -, -, rfl⟩ := recordDecision_cases hrec
  have h₁ : Frame [.tasks, .decisions] s s₁ := by
    rcases park_cases hp with ⟨-, rfl⟩ | ⟨taskId, row, -, -, rfl⟩
    · exact .refl _ _
    · exact .record rfl _ _ _ _
  exact (h₁.trans (.write_decisions rfl decisions _)).emit rfl

theorem closeDecision_frame {id : Uuid} {f : Time → Decision → Decision} {r : Option Decision}
    (h : closeDecision id f s = .ok (r, s')) : Frame [.tasks, .decisions] s s' := by
  rcases closeDecision_cases h with ⟨-, rfl, -⟩ | ⟨dec, s₁, -, -, -, hr, rfl⟩
  · exact .refl _ _
  · have h₁ : Frame [.tasks, .decisions] s
        { s with decisions := s.decisions.modify id fun _ => f s.now dec } :=
      .write_decisions rfl _ s.decisionSeq
    rcases resume_cases hr with ⟨rfl, -⟩ | ⟨taskId, row, -, -, rfl⟩
    · exact h₁.emit rfl
    · exact (h₁.trans (.record rfl _ _ _ _)).emit rfl

end Decisions

section Trust

variable {s s' : Store}

theorem ensureTrust_frame (s : Store) (identity : String) :
    Frame [.trust] s (s.ensureTrust identity) := by
  unfold Store.ensureTrust
  split
  · exact .refl _ _
  · exact .write_trust rfl _

theorem getTrust_frame {identity : String} {r : IdentityTrust}
    (h : getTrust identity s = .ok (r, s')) : Frame [.trust] s s' := by
  unfold getTrust at h
  split at h
  · cases h
  · dsimp only at h
    split at h
    · cases h
    · obtain ⟨-, rfl⟩ := Prod.mk.inj (Except.ok.inj h)
      exact ensureTrust_frame s identity

theorem recordStrike_frame {identity : String} {claimId : Option String} {kind : String}
    {at? : Option Time} {r : IdentityTrust}
    (h : recordStrike identity claimId kind at? s = .ok (r, s')) : Frame [.trust] s s' := by
  obtain ⟨row, -, -, rfl⟩ := recordStrike_cases h
  have h₁ : Frame [.trust] s ((s.ensureTrust identity).setTrust identity r) :=
    (ensureTrust_frame s identity).trans (.write_trust rfl _)
  unfold Store.emitStrike
  split
  · exact ((h₁.emit rfl).emit rfl).emit rfl
  · exact h₁.emit rfl

theorem recordClaim_frame {id : Uuid} {a : ClaimArgs} (h : recordClaim id a s = .ok ((), s')) :
    Frame [.claims] s s' := by
  unfold recordClaim at h
  split at h
  · cases h
  · split at h
    · cases h
    · split at h
      · cases h
      · obtain ⟨-, rfl⟩ := Prod.mk.inj (Except.ok.inj h)
        exact .write_claims rfl _ _

theorem setClaimVerification_frame {id : Uuid} {status : VerificationStatus}
    {verifiedBy : String} {reason : Option String} {r : Option CommsClaim}
    (h : setClaimVerification id status verifiedBy reason s = .ok (r, s')) :
    Frame [.claims] s s' := by
  unfold setClaimVerification at h
  split at h
  · cases h
  · split at h
    · obtain ⟨-, rfl⟩ := Prod.mk.inj (Except.ok.inj h)
      exact .refl _ _
    · have h₁ := fun t => Frame.write_claims (s := s) (w := [.claims]) rfl t
        s.commsClaimsSeq
      cases status with
      | verified =>
          obtain ⟨-, rfl⟩ := Prod.mk.inj (Except.ok.inj h)
          exact (h₁ _).emit rfl
      | rejected =>
          obtain ⟨-, rfl⟩ := Prod.mk.inj (Except.ok.inj h)
          exact (h₁ _).emit rfl
      | unverifiable =>
          obtain ⟨-, rfl⟩ := Prod.mk.inj (Except.ok.inj h)
          exact h₁ _

theorem recordProofRequest_frame {identity : String} {claimId : Option String}
    (h : recordProofRequest identity claimId s = .ok ((), s')) : Frame [.claims] s s' := by
  unfold recordProofRequest at h
  split at h
  · cases h
  · obtain ⟨-, rfl⟩ := Prod.mk.inj (Except.ok.inj h)
    exact (Frame.refl _ s).emit rfl

end Trust

/-- A call that only reads. -/
theorem frame_of_read {α : Type} {v r : α} {s s' : Store}
    (h : (.ok (v, s) : Except Exn (α × Store)) = .ok (r, s')) : Frame [] s s' := by
  obtain ⟨-, rfl⟩ := Prod.mk.inj (Except.ok.inj h)
  exact .refl _ _

/-- **The frame rule**: a call changes only what its footprint names. -/
theorem exec_frame {o : StoreOp} {s s' : Store} {r : o.Res} (h : o.exec s = .ok (r, s')) :
    Frame o.footprint s s' := by
  cases o with
  | enqueueTask id a => exact enqueueTask_frame h
  | grabTask a locked => exact grabTask_frame h
  | transition id target a => exact Frame.transition (w := [.tasks]) rfl h
  | heartbeat id workerId => exact heartbeat_frame h
  | addSpentTokens id tokens => exact addSpentTokens_frame h
  | setRequestStatus id status reason workTaskIds => exact setRequestStatus_frame h
  | nudgeTask id grace => exact nudgeTask_frame h
  | rekickTask id made => exact rekickTask_frame h
  | escalateStuckTask id reason count retries => exact escalateStuckTask_frame h
  | failExhausted id scanned maxRetries => exact failExhausted_frame h
  | insertApproval id a => exact insertApproval_frame h
  | resolveApproval id decision resolver ws => exact resolveApproval_frame h
  | consumeGrant id => exact consumeGrant_frame h
  | requestDecision id a => exact requestDecision_frame h
  | answerDecision id answer resolver at? => exact closeDecision_frame h
  | withdrawDecision id resolver at? => exact closeDecision_frame h
  | getTrust identity => exact getTrust_frame h
  | recordStrike identity claimId kind at? => exact recordStrike_frame h
  | recordClaim id a => exact recordClaim_frame h
  | setClaimVerification id status verifiedBy reason => exact setClaimVerification_frame h
  | recordProofRequest identity claimId => exact recordProofRequest_frame h
  | emit taskId ws payload =>
      obtain ⟨-, rfl⟩ := Prod.mk.inj (Except.ok.inj h)
      exact (Frame.refl _ s).emit rfl
  | executeTool run =>
      obtain ⟨-, rfl⟩ := Prod.mk.inj (Except.ok.inj h)
      exact ⟨fun _ => ⟨rfl, rfl⟩, fun _ => rfl, fun _ => ⟨rfl, rfl⟩, fun _ => rfl,
        fun _ => ⟨rfl, rfl⟩, fun hw => (nomatch hw), fun _ => rfl, rfl, [],
        by simp, by simp⟩
  | tick elapsed =>
      obtain ⟨-, rfl⟩ := Prod.mk.inj (Except.ok.inj h)
      exact ⟨fun _ => ⟨rfl, rfl⟩, fun _ => rfl, fun _ => ⟨rfl, rfl⟩, fun _ => rfl,
        fun _ => ⟨rfl, rfl⟩, fun _ => rfl, fun hw => (nomatch hw), rfl, [],
        by simp, by simp⟩
  | getTask id => exact frame_of_read h
  | findBlockedTasks => exact frame_of_read h
  | findStaleTasks threshold => exact frame_of_read h
  | taskMadeProgress id => exact frame_of_read h
  | selectOpenApproval fingerprint => exact frame_of_read h
  | getApproval id => exact frame_of_read h
  | findGrant fingerprint => exact frame_of_read h
  | getDecision id => exact frame_of_read h

/-- **The frame rule of a step.** -/
theorem step_frame {P α : Type} [DecidableEq P] {st : Concurrency.Step database P α}
    (h : Concurrency.Fires st) : Frame st.op.footprint st.before.state st.after.state := by
  rcases exec_or_abort h with ⟨v, -, hexec⟩ | ⟨e, -, hs⟩
  · exact exec_frame hexec
  · rw [hs]
    exact .refl _ _

end AiStudio.Runtime
