import AiStudio.Spokesman.Labels

/-!
# Who is struck with a fabrication

The cascade looks for the tasks of a rejected claim with a parser of its own. It reads every
spelling of a task that the resolvers accept but one: a row named by a key column,
`tasks:id=<uuid>` or `tasks:title=<text>`. `cascadeComplete_iff` says that this and a blank name
among the approvers, at which the strikes stop, are the only ways to leave an approver out.
-/

set_option autoImplicit false

namespace AiStudio.Spokesman

open AiStudio.Data AiStudio.Runtime AiStudio.Concurrency

/-! ## The tasks of a claim and who approved them -/

/-- The table that a locator names. -/
def tableOf (locator : String) : String := strip (partition ':' (strip locator)).1

/-- The resolver of the reference finds the row of the task. -/
def SourceOfTruth.LocatesTask (env : SourceOfTruth) (ref : EvidenceRef) (id : Uuid) : Prop :=
  match ref.kind with
  | .task =>
      ∃ row, env.locateTask ref.locator = .ok (some row) ∧ row.lookup "id" = some (.uuid id)
  | .dbRow =>
      tableOf ref.locator = "tasks" ∧
        ∃ row, env.locateRow ref.locator = .ok (.ok row) ∧ row.lookup "id" = some (.uuid id)
  | _ => False

/-- The reference names its row by a key column. -/
def EvidenceRef.NamesKey (ref : EvidenceRef) : Prop :=
  ref.kind = .dbRow ∧ '=' ∈ (partition ':' (strip ref.locator)).2.toList

/-- The agent moved the task from review to approved. -/
def Approved (s : Store) (id : Uuid) (agent : String) : Prop :=
  ∃ t ∈ s.taskTransitions, t.taskId = id ∧ t.fromStatus = .readyForReview ∧
    t.toStatus = .approved ∧ t.agentId = some agent

/-- Every approver of a task that the claim refers to, the originator aside, has exactly one
strike more. -/
def CascadeComplete (env : SourceOfTruth) (identity : String) (claim : Claim) (s s' : Store) :
    Prop :=
  ∀ ref ∈ claim.evidence, ∀ id, env.LocatesTask ref id → ∀ agent, Approved s id agent →
    agent ≠ identity →
    (s'.strikeRecords agent).length = (s.strikeRecords agent).length + 1

/-- The cascade comes to the approvers of the tasks: those of a task named by a key approved a
task that the claim names by its id, and no blank name sorts before one of them. -/
structure Reaches (env : SourceOfTruth) (identity : String) (claim : Claim) (s : Store) : Prop where
  named : ∀ ref ∈ claim.evidence, ref.NamesKey → ∀ id, env.LocatesTask ref id →
    ∀ agent, Approved s id agent → agent ≠ identity → ∃ id' ∈ claim.taskIds, Approved s id' agent
  unblocked : ∀ ref ∈ claim.evidence, ∀ id, env.LocatesTask ref id → ∀ agent, Approved s id agent →
    agent ≠ identity → ∀ id' ∈ claim.taskIds, ∀ blank, Approved s id' blank →
    isBlank blank = true → blank ≠ identity → ¬ blank ≤ agent

theorem mem_approvers {s : Store} {ids : List Uuid} {agent : String} :
    agent ∈ GateOp.approvers s ids ↔ ∃ id ∈ ids, Approved s id agent := by
  simp only [GateOp.approvers, List.mem_dedup, List.mem_filterMap, List.mem_filter, Approved,
    Bool.and_eq_true, List.contains_eq_mem, decide_eq_true_eq]
  constructor
  · rintro ⟨t, ⟨ht, ⟨hid, hfrom⟩, hto⟩, hagent⟩
    exact ⟨t.taskId, hid, t, ht, rfl, hfrom, hto, hagent⟩
  · rintro ⟨id, hid, t, ht, rfl, hfrom, hto, hagent⟩
    exact ⟨t, ⟨ht, ⟨hid, hfrom⟩, hto⟩, hagent⟩

/-! ## The parser of the cascade -/

/-- What the server takes for an id spells that id. -/
def SourceOfTruth.ReadsIds (env : SourceOfTruth) : Prop :=
  ∀ id text, env.equals (.uuid id) text = .ok true → uuid? text = some id

theorem uuid_of_uuidOf {text : String} {id : Uuid} (h : uuidOf text = .ok id) :
    uuid? text = some id := by
  unfold uuidOf at h
  cases hid : uuid? text with
  | none => rw [hid] at h; cases h
  | some id' => rw [hid] at h; rw [Except.ok.inj h]

/-- **The parser reads the task of every reference that does not name a key.** -/
theorem mem_taskIds {env : SourceOfTruth} (hserver : env.ReadsIds) {claim : Claim}
    {ref : EvidenceRef} (hmem : ref ∈ claim.evidence) {id : Uuid} (h : env.LocatesTask ref id)
    (hkey : ¬ ref.NamesKey) : id ∈ claim.taskIds := by
  refine List.mem_filterMap.2 ⟨ref, hmem, ?_⟩
  unfold SourceOfTruth.LocatesTask at h
  cases hkind : ref.kind with
  | task =>
      rw [hkind] at h
      obtain ⟨row, hloc, hid⟩ := h
      obtain ⟨id', hread, hquery⟩ := exists_of_bind_ok hloc
      obtain ⟨-, hrow⟩ := SourceOfTruth.query_ok hquery
      have hfound : row.lookup "id" = some (.uuid id') := by
        simpa using List.find?_some (Except.ok.inj hrow)
      rw [hfound] at hid
      obtain rfl : id' = id := Cell.uuid.inj (Option.some.inj hid)
      exact uuid_of_uuidOf hread
  | dbRow =>
      rw [hkind] at h
      obtain ⟨htable, row, hloc, hid⟩ := h
      have hplain : '=' ∉ (partition ':' (strip ref.locator)).2.toList := fun hmem => hkey ⟨hkind, hmem⟩
      unfold SourceOfTruth.locateRow at hloc
      dsimp only at hloc ⊢
      split at hloc
      · cases hloc
      · split at hloc
        · cases hloc
        · rename_i hrest
          split at hloc
          · cases hloc
          · obtain ⟨found, hquery, hloc⟩ := exists_of_bind_ok hloc
            obtain ⟨-, hselect⟩ := SourceOfTruth.query_ok hquery
            cases found with
            | none => cases hloc
            | some found =>
                obtain rfl : found = row := Except.ok.inj (Except.ok.inj hloc)
                obtain ⟨-, hequals⟩ := SourceOfTruth.of_selectWhere hselect
                rw [SourceOfTruth.primaryKey, if_neg hplain] at hequals
                rw [hid] at hequals
                rw [if_pos ⟨htable, hrest, hplain⟩]
                exact hserver _ _ hequals
  | _ => rw [hkind] at h; exact h.elim

/-! ## The strikes -/

/-- A strike fails on a blank name only. -/
theorem recordStrike_fabrication (name : String) (claimId : Option String) (s : Store) :
    (isBlank name = true ∧ ∃ e, recordStrike name claimId strikeFabrication none s = .error e) ∨
      isBlank name = false ∧ ∃ row s', recordStrike name claimId strikeFabrication none s = .ok (row, s') := by
  have hkind : isBlank strikeFabrication = false := by decide
  cases hname : isBlank name with
  | true => exact Or.inl ⟨rfl, _, if_pos hname⟩
  | false =>
      refine Or.inr ⟨rfl, ?_⟩
      have hrow : (s.ensureTrust name).identityTrust.find? name =
          some ((s.identityTrust.find? name).getD { createdAt := s.now, updatedAt := s.now }) := by
        rw [Store.find?_ensureTrust, if_pos rfl]
      simp only [recordStrike, hname, hkind, hrow]
      exact ⟨_, _, rfl⟩

section Strikes

variable {view : Store → SourceOfTruth}

/-- **The strikes go down the list to the first blank name.** -/
theorem strikes_strikeAll (claimId : Uuid) (struck : List String) (s : Store × Outbox)
    (agent : String) :
    ((((strikeAll view claimId struck).eval s).2.1).strikeRecords agent).length =
      (s.1.strikeRecords agent).length + (struck.takeWhile fun name => !isBlank name).count agent := by
  induction struck generalizing s with
  | nil => rfl
  | cons name struck ih =>
      rcases recordStrike_fabrication name (some claimId.text) s.1 with
        ⟨hblank, e, herror⟩ | ⟨hblank, row, s₁, hok⟩
      · -- the first blank name ends the run, and nothing of its transaction stays
        have hexec : (gate view).exec
            (.inl (.recordStrike name (some claimId.text) strikeFabrication none)) s = .error e := by
          change (recordStrike name (some claimId.text) strikeFabrication none s.1).map _ = _
          rw [herror]
          rfl
        have heval : (strikeAll view claimId (name :: struck)).eval s = (.error e, s) :=
          Program.eval_bind_error (Program.eval_op_error (I := gate view) hexec)
        rw [heval, List.takeWhile_cons_of_neg (by simp [hblank]), List.count_nil, Nat.add_zero]
      · have hexec : (gate view).exec
            (.inl (.recordStrike name (some claimId.text) strikeFabrication none)) s =
              .ok (row, (s₁, s.2)) := by
          change (recordStrike name (some claimId.text) strikeFabrication none s.1).map _ = _
          rw [hok]
          rfl
        have heval : (strikeAll view claimId (name :: struck)).eval s =
            (strikeAll view claimId struck).eval (s₁, s.2) :=
          Program.eval_bind_ok (Program.eval_op_ok (I := gate view) hexec)
        rw [heval, ih, strikeRecords_recordStrike hok,
          List.takeWhile_cons_of_pos (by simp [hblank]), List.count_cons, beq_eq_decide]
        split <;> simp_all
        omega

end Strikes

/-- What stands in a sorted list before the first failure of a test. -/
theorem mem_takeWhile_of_sorted {α : Type} {r : α → α → Prop} [Std.Refl r] [Std.Antisymm r]
    {p : α → Bool} {l : List α} (h : l.Pairwise r) {a : α} :
    a ∈ l.takeWhile p ↔ a ∈ l ∧ ∀ b ∈ l, r b a → p b = true := by
  induction l with
  | nil => simp
  | cons x l ih =>
      have hle : ∀ y ∈ l, r x y := fun y hy => List.rel_of_pairwise_cons h hy
      by_cases hx : p x = true
      · rw [List.takeWhile_cons_of_pos hx]
        constructor
        · intro ha
          rcases List.mem_cons.1 ha with rfl | ha
          · refine ⟨List.mem_cons_self, fun b hb hba => ?_⟩
            rcases List.mem_cons.1 hb with rfl | hb
            · exact hx
            · rwa [Std.Antisymm.antisymm _ _ hba (hle _ hb)]
          · obtain ⟨hmem, hall⟩ := (ih h.of_cons).1 ha
            refine ⟨List.mem_cons_of_mem _ hmem, fun b hb hba => ?_⟩
            rcases List.mem_cons.1 hb with rfl | hb
            · exact hx
            · exact hall b hb hba
        · rintro ⟨ha, hall⟩
          rcases List.mem_cons.1 ha with rfl | ha
          · exact List.mem_cons_self
          · exact List.mem_cons_of_mem _
              ((ih h.of_cons).2 ⟨ha, fun b hb => hall b (List.mem_cons_of_mem _ hb)⟩)
      · rw [List.takeWhile_cons_of_neg hx]
        constructor
        · intro ha
          cases ha
        · rintro ⟨ha, hall⟩
          rcases List.mem_cons.1 ha with rfl | ha
          · exact absurd (hall _ List.mem_cons_self (Std.Refl.refl _)) hx
          · exact absurd (hall x List.mem_cons_self (hle _ ha)) hx

/-! ## The cascade -/

section Cascade

variable {view : Store → SourceOfTruth} {env : SourceOfTruth} {claim : Claim} {identity : String}

/-- The names that the cascade strikes, in its order. -/
def cascaded (s : Store) (claim : Claim) (identity : String) : List String :=
  ((GateOp.approvers s claim.taskIds).filter (· ≠ identity)).insertionSort (· ≤ ·)

theorem mem_cascaded {s : Store} {agent : String} :
    agent ∈ cascaded s claim identity ↔
      (∃ id ∈ claim.taskIds, Approved s id agent) ∧ agent ≠ identity := by
  rw [cascaded, (List.perm_insertionSort (· ≤ ·) _).mem_iff, List.mem_filter, mem_approvers,
    decide_eq_true_eq]

theorem nodup_cascaded (s : Store) : (cascaded s claim identity).Nodup := by
  rw [cascaded, (List.perm_insertionSort (· ≤ ·) _).nodup_iff]
  exact (List.nodup_dedup _).filter _

/-- **An approver that the cascade comes to has one strike more, and everyone else none.** -/
theorem strikes_cascadeStrike (claimId : Uuid) (s : Store × Outbox) (agent : String) :
    ((((cascadeStrike view claim claimId identity).eval s).2.1).strikeRecords agent).length =
      (s.1.strikeRecords agent).length +
        if agent ∈ (cascaded s.1 claim identity).takeWhile (fun name => !isBlank name) then 1
        else 0 := by
  have hfound : ((Relaying.stmt view (.selectApprovers claim.taskIds)).tryCatch fun _ =>
      .ret []).eval s = (.ok (GateOp.approvers s.1 claim.taskIds), s) := rfl
  have hstate : ((cascadeStrike view claim claimId identity).eval s).2 =
      ((strikeAll view claimId (cascaded s.1 claim identity)).eval s).2 := by
    have heval : (cascadeStrike view claim claimId identity).eval s =
        ((strikeAll view claimId (cascaded s.1 claim identity)).bind fun _ =>
          .ret (cascaded s.1 claim identity)).eval s := Program.eval_bind_ok hfound
    rw [heval, Program.eval_bind]
    cases hstrikes : (strikeAll view claimId (cascaded s.1 claim identity)).eval s with
    | mk r s' => cases r <;> rfl
  have hnodup : ((cascaded s.1 claim identity).takeWhile fun name => !isBlank name).Nodup :=
    (nodup_cascaded s.1).sublist (List.takeWhile_sublist _)
  rw [hstate, strikes_strikeAll]
  split
  · rw [List.count_eq_one_of_mem hnodup ‹_›]
  · rw [List.count_eq_zero_of_not_mem ‹_›]

/-- A claim that is rejected was contradicted, and the cascade is the end of its run. -/
theorem cascade_of_rejected {messageRef : Option String} {cid cid' : Uuid} {struck : List String}
    {s s' : Store × Outbox}
    (h : (relayClaim view identity messageRef cid claim).eval s = (.ok (.rejected cid' struck), s')) :
    ∃ s₁ s₂, ((view s₁).verifyClaim claim).status = .rejected ∧
      (cascadeStrike view claim cid identity).eval s₂ = (.ok struck, s') := by
  have hverdict := verdict_relayClaim h
  obtain ⟨_, s₁, hrecord, h⟩ := Program.eval_bind_cases h
  by_cases hjudgment : claim.isJudgment = true
  · rw [verdictAt, if_pos hjudgment] at hverdict
    cases hverdict
  rw [if_neg hjudgment] at h
  rw [hrecord, verdictAt, if_neg hjudgment] at hverdict
  have hrejected : ((view s₁.1).verifyClaim claim).status = .rejected :=
    (Option.some.inj hverdict).symm
  obtain ⟨verdict, s₂, hverify, h⟩ := Program.eval_bind_cases h
  rw [eval_verifyClaim] at hverify
  obtain rfl := Except.ok.inj (Prod.mk.inj hverify).1
  obtain ⟨_, s₃, -, h⟩ := Program.eval_bind_cases h
  rw [hrejected] at h
  obtain ⟨_, s₄, -, h⟩ := Program.eval_bind_cases h
  obtain ⟨struck', s₅, hcascade, h⟩ := Program.eval_bind_cases h
  obtain ⟨hret, rfl⟩ := Prod.mk.inj h
  cases hret
  exact ⟨s₁.1, s₄, hrejected, hcascade⟩

/-- **Every approver is struck exactly once, exactly if the cascade comes to them.** `env` is
what the claim was verified against. -/
theorem cascadeComplete_iff (hserver : env.ReadsIds) (claimId : Uuid) (s : Store × Outbox) :
    CascadeComplete env identity claim s.1
        ((cascadeStrike view claim claimId identity).eval s).2.1 ↔
      Reaches env identity claim s.1 := by
  have hsorted : (cascaded s.1 claim identity).Pairwise (· ≤ ·) := List.pairwise_insertionSort _ _
  have hstruck : ∀ agent,
      ((((cascadeStrike view claim claimId identity).eval s).2.1).strikeRecords agent).length =
          (s.1.strikeRecords agent).length + 1 ↔
        ((∃ id ∈ claim.taskIds, Approved s.1 id agent) ∧ agent ≠ identity) ∧
          ∀ name ∈ cascaded s.1 claim identity, name ≤ agent → isBlank name = false := by
    intro agent
    have hreached := mem_takeWhile_of_sorted (p := fun name => !isBlank name) hsorted (a := agent)
    simp only [Bool.not_eq_true'] at hreached
    rw [strikes_cascadeStrike, ← mem_cascaded, ← hreached]
    split <;> simp_all
  simp only [CascadeComplete, hstruck]
  constructor
  · intro h
    refine ⟨fun ref hmem _ id hloc agent happroved hne => ?_,
      fun ref hmem id hloc agent happroved hne id' hid' blank hblank hisBlank hblankne hle => ?_⟩
    · exact (h ref hmem id hloc agent happroved hne).1.1
    · have hname := (h ref hmem id hloc agent happroved hne).2 blank
        (mem_cascaded.2 ⟨⟨id', hid', hblank⟩, hblankne⟩) hle
      rw [hisBlank] at hname
      cases hname
  · intro h ref hmem id hloc agent happroved hne
    have htask : ∃ id' ∈ claim.taskIds, Approved s.1 id' agent := by
      by_cases hkey : ref.NamesKey
      · exact h.named ref hmem hkey id hloc agent happroved hne
      · exact ⟨id, mem_taskIds hserver hmem hloc hkey, happroved⟩
    refine ⟨⟨htask, hne⟩, fun name hname hle => ?_⟩
    obtain ⟨⟨id', hid', hblank⟩, hblankne⟩ := mem_cascaded.1 hname
    by_contra hisBlank
    exact h.unblocked ref hmem id hloc agent happroved hne id' hid' name hblank
      (by simpa using hisBlank) hblankne hle

end Cascade

/-! ## A task named by its key column -/

/-- The task of the claim. -/
def cascadeTask : Uuid := ⟨"5a0de5c1-7e6b-4b62-8d25-9d54c1b02e83", by decide⟩

/-- The row of the task, approved. -/
def approvedTaskRow : Row := [("id", .uuid cascadeTask), ("status", .text "approved")]

theorem named_approvedTask : ∀ c ∈ ["id", "status"], isColumnName c = true :=
  List.forall_mem_iff_getElem.2 (by decide)

theorem total_approvedTask : ∀ row ∈ [approvedTaskRow], row.map Prod.fst = ["id", "status"] :=
  fun _ hrow => List.mem_singleton.1 hrow ▸ rfl

theorem checked_approvedTask : ∀ row ∈ [approvedTaskRow], row.text "status" ∈ taskStatuses := by
  intro row hrow
  obtain rfl := List.mem_singleton.1 hrow
  decide

theorem named_noColumn : ∀ c ∈ ([] : List String), isColumnName c = true := List.forall_mem_nil _

theorem total_noRow : ∀ row ∈ ([] : List Row), row.map Prod.fst = [] := List.forall_mem_nil _

/-- A digest of one letter. -/
theorem digest_letters : (String.ofList (List.replicate 64 'f')).length = 64 ∧
    ∀ c ∈ (String.ofList (List.replicate 64 'f')).toList, isHexDigit c = true :=
  ⟨by decide, List.all_eq_true.1 (by decide)⟩

/-- A source of truth with that row. -/
def approvedTruth : SourceOfTruth where
  reachable := true
  autocommit := true
  relation name :=
    if name = "tasks" then
      ⟨["id", "status"], [approvedTaskRow], named_approvedTask, total_approvedTask⟩
    else ⟨[], [], named_noColumn, total_noRow⟩
  checked := checked_approvedTask
  equals
    | .uuid id, text => .ok (uuid? text = some id)
    | cell, text => .ok (cell.str = text)
  file _ := none
  sha256 _ := String.ofList (List.replicate 64 'f')
  digest _ := digest_letters
  repr := Cell.str
  isIdentifier := isColumnName

theorem readsIds_approvedTruth : approvedTruth.ReadsIds := by
  intro id text h
  have hread : decide (uuid? text = some id) = true := Except.ok.inj h
  exact of_decide_eq_true hread

/-- The database in which a reviewer approved the task. -/
def reviewedStore : Store :=
  { Store.initial 0 with
    taskTransitions := [
      { taskId := cascadeTask
        fromStatus := .readyForReview
        toStatus := .approved
        agentId := some "reviewer-1"
        agentType := none
        time := 0
        latencyMs := 0 }] }

/-- A claim that says the task is merged, the task named in the given way. -/
def mergedClaim (kind : EvidenceKind) (locator expected : String)
    (h : isBlank locator = false) : Claim where
  statement := "the task is merged"
  evidence := [{ kind, locator, expected := some expected, located := h }]
  stated := by decide
  backed := fun _ => List.cons_ne_nil _ _

/-- The task named by its key column. -/
def keyedClaim : Claim :=
  mergedClaim .dbRow "tasks:id=5a0de5c1-7e6b-4b62-8d25-9d54c1b02e83" "status=merged" (by decide)

/-- The task named by its id. -/
def plainClaim : Claim :=
  mergedClaim .task "task:5a0de5c1-7e6b-4b62-8d25-9d54c1b02e83" "merged" (by decide)

/-- **The claim is rejected and the reviewer of its task goes without a strike.** -/
theorem approver_not_struck :
    (approvedTruth.verifyClaim keyedClaim).status = .rejected ∧
      ¬ CascadeComplete approvedTruth "agent-x" keyedClaim reviewedStore
        ((cascadeStrike (fun _ => approvedTruth) keyedClaim (claimId true) "agent-x").eval
          (reviewedStore, ⟨[], []⟩)).2.1 := by
  refine ⟨by decide, fun h => ?_⟩
  have hloc : approvedTruth.LocatesTask (keyedClaim.evidence.head (by decide)) cascadeTask := by
    exact ⟨by decide, approvedTaskRow, by decide, rfl⟩
  have hstrikes := h _ List.mem_cons_self cascadeTask hloc "reviewer-1"
    ⟨_, List.mem_cons_self, rfl, rfl, rfl, rfl⟩ (by decide)
  revert hstrikes
  decide

/-- Named by its id, the task has its reviewer struck. -/
theorem cascadeComplete_plain :
    CascadeComplete approvedTruth "agent-x" plainClaim reviewedStore
      ((cascadeStrike (fun _ => approvedTruth) plainClaim (claimId true) "agent-x").eval
        (reviewedStore, ⟨[], []⟩)).2.1 := by
  refine (cascadeComplete_iff readsIds_approvedTruth (claimId true) (reviewedStore, ⟨[], []⟩)).2
    ⟨fun ref hmem hkey => ?_, fun ref hmem id hloc agent happroved hne id' hid' blank hblank hisBlank => ?_⟩
  · obtain rfl := List.mem_singleton.1 hmem
    exact absurd hkey.1 (by decide)
  · obtain ⟨t, ht, -, -, -, hagent⟩ := hblank
    obtain rfl := List.mem_singleton.1 ht
    obtain rfl := Option.some.inj hagent
    exact absurd hisBlank (by decide)

end AiStudio.Spokesman
