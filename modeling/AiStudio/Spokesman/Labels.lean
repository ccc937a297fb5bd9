import AiStudio.Spokesman.Relay

/-!
# What is relayed is labelled

Line by line, a text that the gate hands to the notifier should be a verified fact or a marked
judgment. The mark stands before the statement of a judgment and not before its further lines,
so `relayed_iff` has a condition: of a batch that goes out, every line of a judgment after its
first is marked by the judgment itself or stands in a verified statement too.
-/

set_option autoImplicit false

namespace AiStudio.Spokesman

open AiStudio.Data AiStudio.Runtime AiStudio.Concurrency

/-! ## Lines -/

/-- The lines of a text. -/
def lines (s : String) : List String := (s.toList.splitOn '\n').map String.ofList

/-- The line begins with the marker of a judgment. -/
def IsMarked (line : String) : Prop := "[judgment]".toList.isPrefixOf line.toList = true

instance (line : String) : Decidable (IsMarked line) := inferInstanceAs (Decidable (_ = true))

/-- The lines of a joined text are those of its parts. -/
theorem lines_intercalate {texts : List String} (h : texts ≠ []) :
    lines ("\n".intercalate texts) = texts.flatMap lines := by
  have hjoin : ("\n".intercalate texts).toList = ['\n'].intercalate (texts.map String.toList) :=
    String.toList_intercalate
  rw [lines, hjoin, splitOn_intercalate_flatMap '\n' (by simpa using h), List.map_flatMap,
    List.flatMap_map]
  rfl

/-- A label without a line break stands before the first line. -/
theorem lines_label (label : List Char) (h : '\n' ∉ label) (s : String) :
    ∃ first, lines (String.ofList (label ++ s.toList)) =
      String.ofList (label ++ first) :: (lines s).tail := by
  have hsplit : (label ++ s.toList).splitOn '\n' =
      (s.toList.splitOn '\n').modifyHead (label ++ ·) := by
    induction label with
    | nil => cases h : ([] ++ s.toList).splitOn '\n' <;> rw [List.nil_append] at h <;> rw [h] <;> rfl
    | cons c label ih =>
        rw [List.mem_cons, not_or] at h
        rw [List.cons_append, List.splitOn_cons_eq_if_modifyHead, if_neg (by simpa using Ne.symm h.1),
          ih h.2, List.modifyHead_modifyHead]
        rfl
  obtain ⟨first, rest, hparts⟩ := List.exists_cons_of_ne_nil (List.splitOn_ne_nil '\n' s.toList)
  refine ⟨first, ?_⟩
  simp only [lines, String.toList_ofList, hsplit, hparts, List.modifyHead_cons, List.map_cons,
    List.tail_cons]

/-! ## What a run hands over -/

section Texts

variable (view : Store → SourceOfTruth)

/-- The texts among the calls, each with the identity whose claims make it up. -/
def texts (calls : List ((gate view).Op × (Store × Outbox))) : List (String × Option String) :=
  calls.filterMap fun c =>
    match c.1 with
    | .inr (.notify _ text source) => some (text, source)
    | _ => none

/-- The texts that a run hands to the notifier. -/
def handed (a : RelayArgs) (s : Store × Outbox) : List (String × Option String) :=
  texts view ((relayClaims view a).trail s)

/-- The claims of a batch, each with the database at which it is verified. -/
def turns (identity : String) (messageRef : Option String) :
    List (Uuid × Claim) → Store × Outbox → List (Claim × Store)
  | [], _ => []
  | (cid, claim) :: claims, s =>
      let recorded := (Relaying.call view (.recordClaim cid (claim.recordArgs identity messageRef))).eval s
      let done := (relayClaim view identity messageRef cid claim).eval s
      (claim, recorded.2.1) :: turns identity messageRef claims done.2

/-- The turns of a run, which has looked up its permission before. -/
def RelayArgs.turns (a : RelayArgs) (s : Store × Outbox) : List (Claim × Store) :=
  Spokesman.turns view a.originatingIdentity a.messageRef a.claims
    ((Relaying.call view (.getTrust a.originatingIdentity)).eval s).2

/-- The verdict on a claim at its turn; a judgment gets none. -/
def verdictAt (t : Claim × Store) : Option VerificationStatus :=
  if t.1.isJudgment then none else some ((view t.2).verifyClaim t.1).status

/-- The line stands in a statement of the run that is verified. -/
def InVerified (a : RelayArgs) (s : Store × Outbox) (line : String) : Prop :=
  ∃ t ∈ a.turns view s, verdictAt view t = some .verified ∧ line ∈ lines t.1.statement

/-- What is relayed is labelled: each line is one of a verified statement or marked, and of a
batch with a rejected claim nothing is handed over, only the alarm. -/
structure Relayed (a : RelayArgs) (s : Store × Outbox) : Prop where
  labelled : ∀ text identity, (text, some identity) ∈ handed view a s → ∀ line ∈ lines text,
    IsMarked line ∨ InVerified view a s line
  withheld : (∃ t ∈ a.turns view s, verdictAt view t = some .rejected) →
    ∀ h ∈ handed view a s, h = (fabricationAlarm a.originatingIdentity, none)

/-- The batch goes out: its identity may relay, no write fails, and no claim is rejected. -/
structure GoesOut (a : RelayArgs) (s : Store × Outbox) : Prop where
  permitted : ∃ row s₁, getTrust a.originatingIdentity s.1 = .ok (row, s₁) ∧ row.relayAllowed = true
  written : ∃ results s', (relayEach view a.originatingIdentity a.messageRef a.claims).eval
    ((Relaying.call view (.getTrust a.originatingIdentity)).eval s).2 = (.ok results, s')
  clean : ∀ t ∈ a.turns view s, verdictAt view t ≠ some .rejected

end Texts

/-! ## Verdicts and results -/

section Results

variable {view : Store → SourceOfTruth} {identity : String} {messageRef : Option String}

theorem eval_resolveRefs (refs : List EvidenceRef) (s : Store × Outbox) :
    (resolveRefs view refs).eval s = (.ok (refs.map (view s.1).resolveRef), s) := by
  induction refs with
  | nil => rfl
  | cons ref refs ih =>
      have hfirst : ((Relaying.stmt view (.resolveRef ref)).tryCatch fun _ =>
          .ret (ref.resolution .unresolved "resolution error: OperationalError")).eval s =
          (.ok ((view s.1).resolveRef ref), s) := rfl
      refine (Program.eval_bind_ok hfirst).trans ?_
      exact Program.eval_bind_ok ih

/-- The gate's program gives the verdict of the database it runs on. -/
theorem eval_verifyClaim (claim : Claim) (s : Store × Outbox) :
    (verifyClaim view claim).eval s = (.ok ((view s.1).verifyClaim claim), s) :=
  Program.eval_bind_ok (eval_resolveRefs claim.evidence s)

/-- The verdict that a result goes with. -/
def ClaimResult.verdict : ClaimResult → Option VerificationStatus
  | judgment _ => none
  | verified _ => some .verified
  | unverifiable _ => some .unverifiable
  | rejected _ _ => some .rejected

/-- **The result of a claim is the verdict on it**, at the database that has it recorded. -/
theorem verdict_relayClaim {cid : Uuid} {claim : Claim} {s s' : Store × Outbox}
    {result : ClaimResult}
    (h : (relayClaim view identity messageRef cid claim).eval s = (.ok result, s')) :
    result.verdict = verdictAt view (claim,
      ((Relaying.call view (.recordClaim cid (claim.recordArgs identity messageRef))).eval s).2.1) := by
  obtain ⟨_, s₁, hrecord, h⟩ := Program.eval_bind_cases h
  rw [hrecord, verdictAt]
  by_cases hjudgment : claim.isJudgment = true
  · rw [if_pos hjudgment] at h ⊢
    rw [← Except.ok.inj (Prod.mk.inj h).1]
    rfl
  · rw [if_neg hjudgment] at h ⊢
    obtain ⟨verdict, s₂, hverify, h⟩ := Program.eval_bind_cases h
    rw [eval_verifyClaim] at hverify
    obtain rfl := Except.ok.inj (Prod.mk.inj hverify).1
    obtain ⟨_, s₃, -, h⟩ := Program.eval_bind_cases h
    cases hstatus : ((view s₁.1).verifyClaim claim).status with
    | verified =>
        rw [hstatus] at h
        rw [← Except.ok.inj (Prod.mk.inj h).1]
        rfl
    | unverifiable =>
        rw [hstatus] at h
        obtain ⟨_, s₄, -, h⟩ := Program.eval_bind_cases h
        rw [← Except.ok.inj (Prod.mk.inj h).1]
        rfl
    | rejected =>
        rw [hstatus] at h
        obtain ⟨_, s₄, -, h⟩ := Program.eval_bind_cases h
        obtain ⟨_, s₅, -, h⟩ := Program.eval_bind_cases h
        rw [← Except.ok.inj (Prod.mk.inj h).1]
        rfl

/-- The results of a batch go with its turns, one by one. -/
theorem results_of_turns {claims : List (Uuid × Claim)} {s s' : Store × Outbox}
    {results : List ClaimResult}
    (h : (relayEach view identity messageRef claims).eval s = (.ok results, s')) :
    List.Forall₂ (fun t r => r.verdict = verdictAt view t)
        (turns view identity messageRef claims s) results ∧
      (turns view identity messageRef claims s).map Prod.fst = claims.map Prod.snd := by
  induction claims generalizing s s' results with
  | nil =>
      rw [← Except.ok.inj (Prod.mk.inj h).1]
      exact ⟨.nil, rfl⟩
  | cons head claims ih =>
      obtain ⟨cid, claim⟩ := head
      obtain ⟨result, s₁, hfirst, h⟩ := Program.eval_bind_cases h
      obtain ⟨rest, s₂, hrest, h⟩ := Program.eval_bind_cases h
      rw [← Except.ok.inj (Prod.mk.inj h).1]
      have hstate : ((relayClaim view identity messageRef cid claim).eval s).2 = s₁ := by rw [hfirst]
      obtain ⟨hverdicts, hclaims⟩ := ih hrest
      rw [← hstate] at hverdicts hclaims
      exact ⟨.cons (verdict_relayClaim hfirst) hverdicts, congrArg (claim :: ·) hclaims⟩

/-- A part that sends nothing hands over nothing. -/
theorem texts_silent {α : Type} {p : Relaying view α} (h : p.Only Silent) (s : Store × Outbox) :
    texts view (p.trail s) = [] := by
  rw [texts, List.filterMap_eq_nil_iff]
  intro c hc
  have hsilent := h.trail hc
  obtain ⟨o, s₁⟩ := c
  cases o with
  | inl o => rfl
  | inr o =>
      cases o with
      | notify kind text source => exact hsilent.elim
      | _ => rfl

theorem texts_append (calls calls' : List ((gate view).Op × (Store × Outbox))) :
    texts view (calls ++ calls') = texts view calls ++ texts view calls' :=
  List.filterMap_append

/-- The lines of a batch that may be sent. -/
def RelayArgs.sent (a : RelayArgs) (results : List ClaimResult) : List String :=
  (results.zip (a.claims.map Prod.snd)).filterMap sendable

/-- What a batch hands over, once its claims are judged. -/
theorem texts_relayBatch {a : RelayArgs} {s s' : Store × Outbox} {results : List ClaimResult}
    (h : (relayEach view a.originatingIdentity a.messageRef a.claims).eval s = (.ok results, s')) :
    texts view ((relayBatch view a).trail s) =
      if results.any ClaimResult.isRejected then [(fabricationAlarm a.originatingIdentity, none)]
      else if a.sent results = [] then []
      else [("\n".intercalate (a.sent results), some a.originatingIdentity)] := by
  rw [relayBatch, Program.bind_eq, Program.trail_bind, texts_append,
    texts_silent (silent_relayEach a.messageRef a.claims), h, List.nil_append]
  dsimp only
  split
  · exact congrArg (texts view) (Program.trail_op_ret (I := gate view) _ _ s')
  · by_cases hsent : a.sent results = []
    · rw [if_pos hsent]
      exact congrArg (fun p => texts view (Program.trail p s')) (if_pos hsent)
    · rw [if_neg hsent]
      refine (congrArg (fun p => texts view (Program.trail p s')) (if_neg hsent)).trans ?_
      exact congrArg (texts view) (Program.trail_op_ret (I := gate view) _ _ s')

theorem exec_getTrust {a : RelayArgs} {s : Store × Outbox} {row : IdentityTrust} {s₁ : Store}
    (h : getTrust a.originatingIdentity s.1 = .ok (row, s₁)) :
    (gate view).exec (.inl (.getTrust a.originatingIdentity)) s = .ok (row, (s₁, s.2)) := by
  change (getTrust a.originatingIdentity s.1).map _ = _
  rw [h]
  rfl

theorem eval_getTrust {a : RelayArgs} {s : Store × Outbox} {row : IdentityTrust} {s₁ : Store}
    (h : getTrust a.originatingIdentity s.1 = .ok (row, s₁)) :
    ((Relaying.call view (.getTrust a.originatingIdentity)).eval s).2 = (s₁, s.2) :=
  congrArg Prod.snd (Program.eval_op_ok (I := gate view) (exec_getTrust h))

/-- A run hands over what its batch does, if it is permitted. -/
theorem handed_eq {a : RelayArgs} {s : Store × Outbox} {row : IdentityTrust} {s₁ : Store}
    (h : getTrust a.originatingIdentity s.1 = .ok (row, s₁)) :
    handed view a s =
      if row.relayAllowed then texts view ((relayBatch view a).trail (s₁, s.2)) else [] := by
  have htrail : (relayClaims view a).trail s = (.inl (.getTrust a.originatingIdentity), s) ::
      (if !row.relayAllowed then .ret
        { blocked := true
          reason := some "originating identity is not permitted to relay" }
      else relayBatch view a : Relaying view RelaySummary).trail (s₁, s.2) :=
    Program.trail_call_ok (exec_getTrust h)
  rw [handed, htrail]
  cases row.relayAllowed with
  | true => rfl
  | false => rfl

/-- Who hands over a text has gone through its batch. -/
theorem written_of_handed {a : RelayArgs} {s : Store × Outbox} (h : handed view a s ≠ []) :
    ∃ row s₁ results s', getTrust a.originatingIdentity s.1 = .ok (row, s₁) ∧
      row.relayAllowed = true ∧
      (relayEach view a.originatingIdentity a.messageRef a.claims).eval (s₁, s.2) =
        (.ok results, s') := by
  cases htrust : getTrust a.originatingIdentity s.1 with
  | error e =>
      exfalso
      have hexec : (gate view).exec (.inl (.getTrust a.originatingIdentity)) s = .error e := by
        change (getTrust a.originatingIdentity s.1).map _ = _
        rw [htrust]
        rfl
      refine h ?_
      rw [handed]
      exact congrArg (texts view) (Program.trail_call_error hexec)
  | ok x =>
      obtain ⟨row, s₁⟩ := x
      rw [handed_eq htrust] at h
      by_cases hallowed : row.relayAllowed = true
      · rw [if_pos hallowed] at h
        cases heach : (relayEach view a.originatingIdentity a.messageRef a.claims).eval (s₁, s.2) with
        | mk r s' =>
            cases r with
            | ok results => exact ⟨row, s₁, results, s', rfl, hallowed, heach⟩
            | error e =>
                exfalso
                refine h ?_
                rw [relayBatch, Program.bind_eq, Program.trail_bind, texts_append,
                  texts_silent (silent_relayEach a.messageRef a.claims), heach]
                rfl
      · exact absurd (if_neg hallowed) h

/-! ## The lines of a batch -/

/-- What may be sent of a claim, by the verdict on it. -/
theorem sendable_iff {r : ClaimResult} {claim : Claim} {text : String} :
    sendable (r, claim) = some text ↔
      r.verdict = none ∧ text = "[judgment] " ++ claim.statement ∨
        r.verdict = some .verified ∧ text = claim.statement := by
  cases r <;> simp [sendable, ClaimResult.verdict, eq_comm]

/-- The results of a batch stand beside the claims of its turns. -/
theorem mem_zip_turns {ts : List (Claim × Store)} {results : List ClaimResult}
    (h : List.Forall₂ (fun t r => r.verdict = verdictAt view t) ts results) :
    (∀ x ∈ results.zip (ts.map Prod.fst), ∃ t ∈ ts, x.2 = t.1 ∧ x.1.verdict = verdictAt view t) ∧
      ∀ t ∈ ts, ∃ r, (r, t.1) ∈ results.zip (ts.map Prod.fst) ∧ r.verdict = verdictAt view t := by
  induction h with
  | nil => exact ⟨fun x hx => (by cases hx), fun t ht => by cases ht⟩
  | cons hhead _ ih =>
      rename_i t r ts results _
      refine ⟨fun x hx => ?_, fun t' ht' => ?_⟩
      · rcases List.mem_cons.1 hx with rfl | hx
        · exact ⟨t, List.mem_cons_self, rfl, hhead⟩
        · obtain ⟨t', ht', heq, hverdict⟩ := ih.1 x hx
          exact ⟨t', List.mem_cons_of_mem _ ht', heq, hverdict⟩
      · rcases List.mem_cons.1 ht' with rfl | ht'
        · exact ⟨r, List.mem_cons_self, hhead⟩
        · obtain ⟨r', hr', hverdict⟩ := ih.2 t' ht'
          exact ⟨r', List.mem_cons_of_mem _ hr', hverdict⟩

theorem verdictAt_none (view : Store → SourceOfTruth) {t : Claim × Store} :
    verdictAt view t = none ↔ t.1.isJudgment = true := by
  unfold verdictAt
  split <;> simp_all

section Batch

variable {a : RelayArgs} {s s₁ : Store × Outbox} {results : List ClaimResult}

/-- A text of the batch is a marked judgment or a verified statement, and every judgment and
every verified statement is one. -/
theorem mem_sent
    (h : (relayEach view a.originatingIdentity a.messageRef a.claims).eval s = (.ok results, s₁))
    {text : String} :
    text ∈ a.sent results ↔
      ∃ t ∈ turns view a.originatingIdentity a.messageRef a.claims s,
        t.1.isJudgment = true ∧ text = "[judgment] " ++ t.1.statement ∨
          verdictAt view t = some .verified ∧ text = t.1.statement := by
  obtain ⟨hverdicts, hclaims⟩ := results_of_turns h
  obtain ⟨hzip, hturns⟩ := mem_zip_turns hverdicts
  rw [RelayArgs.sent, ← hclaims, List.mem_filterMap]
  constructor
  · rintro ⟨⟨r, claim⟩, hx, hsend⟩
    obtain ⟨t, ht, rfl, hverdict⟩ := hzip _ hx
    refine ⟨t, ht, ?_⟩
    rw [← verdictAt_none view, ← hverdict]
    exact sendable_iff.1 hsend
  · rintro ⟨t, ht, hsend⟩
    obtain ⟨r, hr, hverdict⟩ := hturns t ht
    refine ⟨_, hr, sendable_iff.2 ?_⟩
    rwa [← verdictAt_none view, ← hverdict] at hsend

theorem any_rejected
    (h : (relayEach view a.originatingIdentity a.messageRef a.claims).eval s = (.ok results, s₁)) :
    results.any ClaimResult.isRejected = true ↔
      ∃ t ∈ turns view a.originatingIdentity a.messageRef a.claims s,
        verdictAt view t = some .rejected := by
  have hresult : ∀ r : ClaimResult, r.isRejected = true ↔ r.verdict = some .rejected := by
    intro r
    cases r <;> simp [ClaimResult.isRejected, ClaimResult.verdict]
  obtain ⟨hverdicts, -⟩ := results_of_turns h
  simp only [List.any_eq_true, hresult]
  generalize turns view a.originatingIdentity a.messageRef a.claims s = ts at hverdicts ⊢
  clear h
  induction hverdicts with
  | nil => simp
  | cons hhead _ ih => simp only [List.mem_cons, exists_eq_or_imp, ih, hhead]

/-- The first line of a judgment is marked, and the others are those of its statement. -/
theorem lines_judgment (statement : String) :
    ∃ first, IsMarked first ∧
      lines ("[judgment] " ++ statement) = first :: (lines statement).tail := by
  obtain ⟨first, hlines⟩ := lines_label "[judgment] ".toList (by decide) statement
  refine ⟨String.ofList ("[judgment] ".toList ++ first), ?_, ?_⟩
  · simp [IsMarked, List.isPrefixOf]
  · rw [← hlines, ← String.toList_append, String.ofList_toList]

end Batch

/-! ## The law -/

section Law

variable {a : RelayArgs} {s : Store × Outbox}

/-- A batch that goes out hands over its texts, if it has any. -/
theorem handed_of_goesOut (h : GoesOut view a s) :
    ∃ results s', (relayEach view a.originatingIdentity a.messageRef a.claims).eval
        ((Relaying.call view (.getTrust a.originatingIdentity)).eval s).2 = (.ok results, s') ∧
      (a.sent results ≠ [] →
        ("\n".intercalate (a.sent results), some a.originatingIdentity) ∈ handed view a s) := by
  obtain ⟨⟨row, s₁, htrust, hallowed⟩, ⟨results, s', heach⟩, hclean⟩ := h
  refine ⟨results, s', heach, fun hsent => ?_⟩
  have hkept : ¬ results.any ClaimResult.isRejected = true := by
    rw [any_rejected heach]
    rintro ⟨t, ht, hrejected⟩
    exact hclean t ht hrejected
  rw [eval_getTrust htrust] at heach
  rw [handed_eq htrust, if_pos hallowed, texts_relayBatch heach, if_neg hkept, if_neg hsent]
  exact List.mem_singleton_self _

/-- What is handed over is the alarm about a rejected claim, or the texts of a batch that goes
out. -/
theorem handed_cases {x : String × Option String} (h : x ∈ handed view a s) :
    ∃ results s', (relayEach view a.originatingIdentity a.messageRef a.claims).eval
        ((Relaying.call view (.getTrust a.originatingIdentity)).eval s).2 = (.ok results, s') ∧
      ((∃ t ∈ a.turns view s, verdictAt view t = some .rejected) ∧
          x = (fabricationAlarm a.originatingIdentity, none) ∨
        GoesOut view a s ∧ a.sent results ≠ [] ∧
          x = ("\n".intercalate (a.sent results), some a.originatingIdentity)) := by
  obtain ⟨row, s₁, results, s', htrust, hallowed, heach⟩ := written_of_handed (List.ne_nil_of_mem h)
  rw [handed_eq htrust, if_pos hallowed, texts_relayBatch heach] at h
  rw [← eval_getTrust htrust] at heach
  refine ⟨results, s', heach, ?_⟩
  by_cases hrejected : results.any ClaimResult.isRejected = true
  · rw [if_pos hrejected] at h
    exact Or.inl ⟨(any_rejected heach).1 hrejected, List.mem_singleton.1 h⟩
  · rw [if_neg hrejected] at h
    by_cases hsent : a.sent results = []
    · rw [if_pos hsent] at h
      cases h
    · rw [if_neg hsent] at h
      refine Or.inr ⟨⟨⟨row, s₁, htrust, hallowed⟩, ⟨results, s', heach⟩, ?_⟩, hsent,
        List.mem_singleton.1 h⟩
      intro t ht hbad
      exact hrejected ((any_rejected heach).2 ⟨t, ht, hbad⟩)

/-- **What is relayed is labelled exactly if the judgments of a batch that goes out are**: each
line of a judgment after the first is marked, or stands in a verified statement. -/
theorem relayed_iff :
    Relayed view a s ↔
      (GoesOut view a s → ∀ c ∈ a.claims, c.2.isJudgment = true →
        ∀ line ∈ (lines c.2.statement).tail, IsMarked line ∨ InVerified view a s line) := by
  constructor
  · intro h hgoes c hc hjudgment line hline
    obtain ⟨results, s', heach, hhanded⟩ := handed_of_goesOut hgoes
    obtain ⟨-, hclaims⟩ := results_of_turns heach
    have hturn : c.2 ∈ (a.turns view s).map Prod.fst := by
      rw [RelayArgs.turns, hclaims]
      exact List.mem_map_of_mem hc
    obtain ⟨t, ht, heq⟩ := List.mem_map.1 hturn
    have htext : "[judgment] " ++ c.2.statement ∈ a.sent results :=
      (mem_sent heach).2 ⟨t, ht, Or.inl ⟨by rwa [heq], by rw [heq]⟩⟩
    have hsent := List.ne_nil_of_mem htext
    refine h.labelled _ _ (hhanded hsent) line ?_
    rw [lines_intercalate hsent, List.mem_flatMap]
    obtain ⟨first, -, hlines⟩ := lines_judgment c.2.statement
    exact ⟨_, htext, hlines ▸ List.mem_cons_of_mem _ hline⟩
  · intro h
    refine ⟨fun text identity hhanded line hline => ?_, fun hrejected x hx => ?_⟩
    · obtain ⟨results, s', heach, ⟨-, halarm⟩ | ⟨hgoes, hsent, htext⟩⟩ := handed_cases hhanded
      · cases (Prod.mk.inj halarm).2
      · rw [(Prod.mk.inj htext).1, lines_intercalate hsent, List.mem_flatMap] at hline
        obtain ⟨part, hpart, hline⟩ := hline
        obtain ⟨t, ht, ⟨hjudgment, rfl⟩ | ⟨hverified, rfl⟩⟩ := (mem_sent heach).1 hpart
        · obtain ⟨first, hmarked, hlines⟩ := lines_judgment t.1.statement
          rw [hlines] at hline
          rcases List.mem_cons.1 hline with rfl | hline
          · exact Or.inl hmarked
          · obtain ⟨-, hclaims⟩ := results_of_turns heach
            have hclaim : t.1 ∈ a.claims.map Prod.snd := by
              rw [← hclaims]
              exact List.mem_map_of_mem ht
            obtain ⟨c, hc, heq⟩ := List.mem_map.1 hclaim
            exact h hgoes c hc (heq ▸ hjudgment) line (heq ▸ hline)
        · exact Or.inr ⟨t, ht, hverified, hline⟩
    · obtain ⟨results, s', heach, ⟨-, halarm⟩ | ⟨hgoes, -⟩⟩ := handed_cases hx
      · exact halarm
      · obtain ⟨t, ht, hbad⟩ := hrejected
        exact absurd hbad (hgoes.clean t ht)

end Law

end Results

/-! ## A judgment of two lines -/

/-- A judgment whose second line reads like a fact. -/
def twoLines : Claim where
  statement := "the build is in good shape\nall tests passed"
  isJudgment := true
  stated := by decide
  backed h := Bool.noConfusion h

/-- A batch with that judgment alone. -/
def twoLinesBatch : RelayArgs where
  kind := "inform"
  originatingIdentity := "agent-x"
  claims := [(claimId true, twoLines)]

/-- **The second line of the judgment goes out without a mark**, and no claim is verified. -/
theorem second_line_unmarked :
    ¬ Relayed (fun _ => sampleTruth) twoLinesBatch (Store.initial 0, ⟨[], []⟩) := by
  intro h
  have hhanded : ("[judgment] the build is in good shape\nall tests passed", some "agent-x") ∈
      handed (fun _ => sampleTruth) twoLinesBatch (Store.initial 0, ⟨[], []⟩) := by decide
  rcases h.labelled _ _ hhanded "all tests passed" (by decide) with hmarked | ⟨t, ht, hverified, -⟩
  · exact absurd hmarked (by decide)
  · have hnone : ∀ t ∈ twoLinesBatch.turns (fun _ => sampleTruth) (Store.initial 0, ⟨[], []⟩),
        t.1.isJudgment = true := List.forall_mem_iff_getElem.2 (by decide)
    rw [verdictAt, if_pos (hnone t ht)] at hverified
    cases hverified

end AiStudio.Spokesman
