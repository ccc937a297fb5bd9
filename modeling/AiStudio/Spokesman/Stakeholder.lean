import AiStudio.Runtime.Effects
import AiStudio.Spokesman.App

/-!
# Who decides through the webhook

A carrier signs what it delivers, whoever wrote it. The webhook checks the signature and
then obeys: it never compares the sender with the configured stakeholder. So the verdicts
that pass through it are the stakeholder's exactly when no message of another number finds
an approval pending or a decision open when its verdict is recorded.
-/

set_option autoImplicit false

namespace AiStudio.Spokesman

open AiStudio.Data AiStudio.Runtime AiStudio.Concurrency

/-- The message was sent from the configured number. -/
def Settings.isStakeholder (settings : Settings) (msg : InboundMessage) : Bool :=
  msg.sender.asStr? = some settings.stakeholderNumber

/-- A delivery, and the Spokesman it is delivered to. -/
structure Delivery where
  agent : Agent
  request : Request

variable {P : Type} [DecidableEq P]

/-- Deliveries handled beside any other processes of the studio. -/
def webhookPool (s : Store × Surface) (deliveries : P → Option Delivery)
    (others : P → Program webhook Response) : Config webhook P Response where
  state := s
  pool p :=
    match deliveries p with
    | some d => d.agent.receiveWebhook d.request
    | none => others p

/-- The status of an approval or of a decision differs. -/
inductive VerdictChanged (s s' : Store) : Prop where
  | approval {id : Uuid} {old new : Approval} (before : s.approvals.find? id = some old)
      (after : s'.approvals.find? id = some new) (status : new.status ≠ old.status)
  | decision {id : Uuid} {old new : Runtime.Decision} (before : s.decisions.find? id = some old)
      (after : s'.decisions.find? id = some new) (status : new.status ≠ old.status)

/-- The call resolves an approval that is pending, or answers a decision that is open. -/
def Decides (o : StoreOp) (s : Store) : Prop :=
  match o with
  | .resolveApproval id .. => ∃ row, s.approvals.find? id = some row ∧ row.status = .pending
  | .answerDecision id .. => ∃ row, s.decisions.find? id = some row ∧ row.status = .open
  | _ => False

/-- In a run `τ`, what changes status through the webhook does so for a message of the
stakeholder. -/
def OnlyStakeholder (deliveries : P → Option Delivery) (τ : List (Step webhook P Response)) :
    Prop :=
  ∀ st ∈ τ, ∀ d, deliveries st.pid = some d →
    VerdictChanged st.before.state.1 st.after.state.1 →
      ∃ msg, st.op.1 = some msg ∧ d.agent.settings.isStakeholder msg = true

/-- A message of another number comes too late: when the step commits its verdict, what the
message names is no longer pending or open. -/
def StrangerLate (deliveries : P → Option Delivery) (st : Step webhook P Response) : Prop :=
  (∃ v, st.out = .ok v) → ∀ d msg o, deliveries st.pid = some d → st.op = (some msg, .inl o) →
    d.agent.settings.isStakeholder msg = false → ¬ Decides o st.before.state.1

theorem not_verdictChanged_self (s : Store) : ¬ VerdictChanged s s := by
  rintro (⟨hold, hnew, hne⟩ | ⟨hold, hnew, hne⟩)
  · rw [hold] at hnew
    exact hne (congrArg Approval.status (Option.some.inj hnew.symm))
  · rw [hold] at hnew
    exact hne (congrArg Decision.status (Option.some.inj hnew.symm))

/-! ## One step -/

/-- A call that spares the verdicts leaves them. -/
theorem not_verdictChanged_of_spares {o : StoreOp} {s s' : Store} {r : o.Res}
    (h : o.exec s = .ok (r, s')) (hspares : sparesVerdicts o = true) : ¬ VerdictChanged s s' := by
  rintro (⟨hold, hnew, hne⟩ | ⟨hold, hnew, hne⟩)
  · rename_i id old new
    cases exec_approvalEffect h id with
    | same hrow =>
        rw [hrow, hold] at hnew
        exact hne (congrArg Approval.status (Option.some.inj hnew.symm))
    | requested a op fresh hrow => rw [fresh] at hold; cases hold
    | resolved _ _ _ _ op => rw [op] at hspares; cases hspares
    | consumed _ op => rw [op] at hspares; cases hspares
  · rename_i id old new
    cases exec_decisionEffect h id with
    | same hrow =>
        rw [hrow, hold] at hnew
        exact hne (congrArg Decision.status (Option.some.inj hnew.symm))
    | raised a _ op fresh => rw [fresh] at hold; cases hold
    | closed _ _ hcloses =>
        cases o with
        | answerDecision => cases hspares
        | withdrawDecision => cases hspares
        | _ => cases hcloses

/-- A committed verdict on a pending row is recorded. -/
theorem resolveApproval_of_pending {id : Uuid} {decision : ApprovalStatus}
    {resolver workstream : String} {s s' : Store} {r : Option Approval} {row : Approval}
    (h : resolveApproval id decision resolver workstream s = .ok (r, s'))
    (hrow : s.approvals.find? id = some row) (hpending : row.status = .pending) :
    VerdictChanged s s' := by
  have hfound : (s.approvals.find? id).filter (·.status = .pending) = some row := by
    rw [hrow, Option.filter_some, if_pos (by simpa using hpending)]
  unfold resolveApproval at h
  split at h
  · cases h
  · rename_i hverdict
    rw [hfound] at h
    cases hw : requireWorkstream workstream with
    | error e => simp only [hw] at h; cases h
    | ok ws =>
        simp only [hw] at h
        obtain ⟨-, rfl⟩ := Prod.mk.inj (Except.ok.inj h)
        refine .approval hrow (find?_setApproval_self _ hrow) fun hsame => hverdict ?_
        dsimp only at hsame
        rw [hsame, hpending]
        exact ⟨nofun, nofun⟩

/-- **A call for a message changes a status exactly when it decides something.** -/
theorem verdictChanged_iff {o : StoreOp} {s s' : Store} {r : o.Res}
    (h : o.exec s = .ok (r, s')) (hspoken : Spoken (.inl o)) :
    VerdictChanged s s' ↔ Decides o s := by
  cases hspoken with
  | quiet hquiet =>
      have hspares : sparesVerdicts o = true := hquiet
      refine iff_of_false (not_verdictChanged_of_spares h hspares) fun hdecides => ?_
      cases o with
      | resolveApproval => cases hspares
      | answerDecision => cases hspares
      | _ => exact hdecides
  | resolve id decision resolver =>
      refine ⟨fun hchanged => ?_, fun ⟨row, hrow, hpending⟩ =>
        resolveApproval_of_pending h hrow hpending⟩
      rcases resolveApproval_cases h with ⟨-, rfl⟩ | ⟨row, _, _, hrow, hpending, -⟩
      · exact absurd hchanged (not_verdictChanged_self _)
      · exact ⟨row, hrow, hpending⟩
  | answer id text resolver =>
      refine ⟨fun hchanged => ?_, fun ⟨row, hrow, hopen⟩ => ?_⟩
      · rcases closeDecision_cases h with ⟨-, rfl, -⟩ | ⟨row, _, hrow, hopen, -⟩
        · exact absurd hchanged (not_verdictChanged_self _)
        · exact ⟨row, hrow, hopen⟩
      · cases exec_decisionEffect (o := .answerDecision id text resolver none) h id with
        | same hsame hkept => exact absurd hopen (hkept (by simp [StoreOp.closes]) row hrow)
        | raised a _ op => cases op
        | closed old new _ hold hopened hnew hshut =>
            exact .decision hold hnew (by rw [hopened]; exact hshut)

variable {st : Step webhook P Response}

/-- A committed call on the database runs its transaction. -/
theorem exec_of_committed (hf : Fires st) (hok : ∃ v, st.out = .ok v)
    {made : Option InboundMessage} {o : StoreOp} (hop : st.op = (made, .inl o)) :
    ∃ r, o.exec st.before.state.1 = .ok (r, st.after.state.1) := by
  obtain ⟨pid, op, out, before, after⟩ := st
  dsimp only at hop hok ⊢
  subst hop
  rcases hf.committed with ⟨v, -, -, hexec⟩ | ⟨e, he, -⟩
  · have hexec : (o.exec before.state.1).map (fun x => (x.1, (x.2, before.state.2))) =
        .ok (v, after.state) := hexec
    cases hx : o.exec before.state.1 with
    | error e => rw [hx] at hexec; cases hexec
    | ok x =>
        rw [hx] at hexec
        have hafter := congrArg (·.2.1) (Except.ok.inj hexec)
        exact ⟨x.1, by rw [← hafter]⟩
  · obtain ⟨v, hv⟩ := hok
    rw [hv] at he
    cases he

/-- **What a step is to the database**: a committed transaction, or nothing. -/
theorem exec_or_same (hf : Fires st) :
    (∃ made o, st.op = (made, .inl o) ∧ ∃ v, st.out = .ok v) ∨
      st.after.state.1 = st.before.state.1 := by
  obtain ⟨pid, ⟨made, o⟩, out, before, after⟩ := st
  rcases hf.committed with ⟨v, hv, -, hexec⟩ | ⟨e, -, hs⟩
  · cases o with
    | inl o => exact Or.inl ⟨made, o, rfl, v, hv⟩
    | inr o => exact Or.inr (SurfaceOp.exec_store hexec)
  · refine Or.inr ?_
    dsimp only at hs ⊢
    rw [hs]
    cases o with
    | inl o => rfl
    | inr o => rfl

/-! ## Runs -/

/-- **Only the stakeholder decides through the webhook exactly when every other number comes
too late.** -/
theorem onlyStakeholder_iff {s : Store × Surface} {deliveries : P → Option Delivery}
    {others : P → Program webhook Response} {τ : List (Step webhook P Response)}
    {c' : Config webhook P Response} (h : Reach (webhookPool s deliveries others) τ c') :
    OnlyStakeholder deliveries τ ↔ ∀ st ∈ τ, StrangerLate deliveries st := by
  have htraced : ∀ st ∈ τ, ∀ d, deliveries st.pid = some d → Agent.Traced st.op := by
    intro st hst d hd
    have honly : ((webhookPool s deliveries others).pool st.pid).Only Agent.Traced := by
      simp only [webhookPool, hd]
      exact d.agent.receiveWebhook_only d.request
    exact (h.only honly).2 st hst rfl
  refine ⟨fun honly st hst hok d msg o hd hop hstranger hdecides => ?_,
    fun hlate st hst d hd hchanged => ?_⟩
  · obtain ⟨r, hexec⟩ := exec_of_committed (h.fires hst) hok hop
    have hspoken : Spoken (.inl o) := by
      have := htraced st hst d hd
      rw [hop] at this
      cases this with
      | quiet hquiet => exact .quiet hquiet
      | spoken hspoken => exact hspoken
    obtain ⟨msg', hmsg, hstakeholder⟩ :=
      honly st hst d hd ((verdictChanged_iff hexec hspoken).2 hdecides)
    rw [hop] at hmsg
    obtain rfl := Option.some.inj hmsg
    rw [hstranger] at hstakeholder
    cases hstakeholder
  · rcases exec_or_same (h.fires hst) with ⟨made, o, hop, hok⟩ | hsame
    · obtain ⟨r, hexec⟩ := exec_of_committed (h.fires hst) hok hop
      have := htraced st hst d hd
      rw [hop] at this
      cases this with
      | quiet hquiet => exact absurd hchanged (not_verdictChanged_of_spares hexec hquiet)
      | spoken hspoken =>
          rename_i msg
          refine ⟨msg, by rw [hop], ?_⟩
          by_contra hstranger
          exact hlate st hst hok d msg o hd hop (by simpa using hstranger)
            ((verdictChanged_iff hexec hspoken).1 hchanged)
    · rw [hsame] at hchanged
      exact absurd hchanged (not_verdictChanged_self _)

/-! ## A stranger with a signature -/

/-- The approval a human is asked for. -/
def askedApproval : Uuid := ⟨"0c8f1f5e-2f0b-4a39-9a70-3f4f0c1d2e03", by decide⟩

/-- A studio that waits for a human. -/
def waitingStudio : Store × Surface :=
  ({ Store.initial 0 with
    approvals := ⟨[(askedApproval,
      { taskId := none, role := "executor", tool := "filesystem", capabilities := ["fs.delete"],
        tier := "red", reason := "needs approval", requestFingerprint := "fp", status := .pending,
        createdAt := 0 })], List.nodup_singleton _⟩ }, .initial)

/-- A Spokesman on SMS. The texts it is asked to sign are those of the two deliveries below. -/
def smsAgent : Agent where
  settings :=
    { channel := .twilioSms, stakeholderNumber := "15559990000", appSecret := ""
      twilioAuthToken := "token", dryRun := false }
  sha256 := id
  hmacSha256 _ _ := ""
  hmacSha1 _ text :=
    if text = "https://studio.example/webhookBodyapprove 0c8f1f5e-2f0b-4a39-9a70-3f4f0c1d2e03" ++
        "From+15550001111MessageSidSM1" then "8ouXnKMv1E952g2xrdgnhzma/Wc="
    else "m6n1cgBNmKvMl5RPuHSNxncb63U="
  isDigit := Char.isDigit
  str _ := ""
  repr := id
  className _ := ""
  message _ := ""
  loads _ := none
  dumps _ := ""
  newId _ := askedApproval
  systemPrompt := ""
  studioStatus := .answer ""
  statusSummary := .answer ""
  brief := .answer ""
  refreshPrepCache := .answer ()
  callModel _ _ _ := .answer ""

/-- A signed delivery of an approval by text message. -/
def approveBySms (sender signature : String) : Delivery where
  agent := smsAgent
  request :=
    { body := [], hubSignature := none, twilioSignature := some signature
      form := [("Body", "approve 0c8f1f5e-2f0b-4a39-9a70-3f4f0c1d2e03"), ("From", sender),
        ("MessageSid", "SM1")]
      forwardedProto := none, forwardedHost := none, host := none, path := "/webhook"
      url := "https://studio.example/webhook", json := none }

/-- One delivery to the waiting studio. -/
def delivered (sender signature : String) : Config webhook Unit Response :=
  webhookPool waitingStudio (fun _ => some (approveBySms sender signature)) fun _ => .ret
    (.plain 200 "")

/-- The delivery records its message, connects, and records the verdict. -/
def threeSteps : List (Choice Unit Exn) := List.replicate 3 ((), none)

/-- **A stranger approves.** -/
theorem stranger_approves : ¬ ∀ τ c',
    Reach (delivered "+15550001111" "8ouXnKMv1E952g2xrdgnhzma/Wc=") τ c' →
      OnlyStakeholder (fun _ => some (approveBySms "+15550001111" "8ouXnKMv1E952g2xrdgnhzma/Wc="))
        τ := by
  intro honly
  have hrun := honly _ _ (Reach.of_run _ threeSteps)
  have hbreach : ((delivered "+15550001111" "8ouXnKMv1E952g2xrdgnhzma/Wc=").trace threeSteps).any
      (fun st => (st.before.state.1.approvals.find? askedApproval).any (·.status = .pending) &&
        (st.after.state.1.approvals.find? askedApproval).any (·.status = .approved) &&
        st.op.1.all (!smsAgent.settings.isStakeholder ·)) = true := by
    decide
  obtain ⟨st, hst, hbreach⟩ := List.any_eq_true.1 hbreach
  simp only [Bool.and_eq_true, Option.any_eq_true, decide_eq_true_eq] at hbreach
  obtain ⟨⟨⟨old, hold, hpending⟩, new, hnew, happroved⟩, hstranger⟩ := hbreach
  have hchanged : VerdictChanged st.before.state.1 st.after.state.1 :=
    .approval hold hnew (by rw [hpending, happroved]; decide)
  obtain ⟨msg, hmsg, hstakeholder⟩ := hrun st hst _ rfl hchanged
  rw [hmsg, Option.all_some] at hstranger
  have hstakeholder : smsAgent.settings.isStakeholder msg = true := hstakeholder
  rw [hstakeholder] at hstranger
  cases hstranger

/-- The stakeholder approves by the same text. -/
theorem onlyStakeholder_iff_delivered :
    OnlyStakeholder (fun _ => some (approveBySms "+15559990000" "m6n1cgBNmKvMl5RPuHSNxncb63U="))
        ((delivered "+15559990000" "m6n1cgBNmKvMl5RPuHSNxncb63U=").trace threeSteps) ↔
      ∀ st ∈ (delivered "+15559990000" "m6n1cgBNmKvMl5RPuHSNxncb63U=").trace threeSteps,
        StrangerLate
          (fun _ => some (approveBySms "+15559990000" "m6n1cgBNmKvMl5RPuHSNxncb63U=")) st :=
  onlyStakeholder_iff (Reach.of_run _ threeSteps)

end AiStudio.Spokesman
