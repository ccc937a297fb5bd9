import AiStudio.Concurrency.Triple
import AiStudio.Runtime.Calls

/-!
# The fallback of a model call

When the provider of the routed model raises `ProviderFallback`, `call_model` walks on in a
fallback chain. The chain it walks is that of the tier the routed model is filed under, which
need not be the tier the request was routed at. `fallback_follows_iff` says for which registries
the two walks agree.
-/

set_option autoImplicit false

namespace AiStudio.Runtime

open AiStudio.Data AiStudio.Concurrency

/-! ## The next model of a chain -/

namespace Registry

variable (registry : Registry)

/-- The first model the catalog has after another in the chain of a tier. -/
def Follows (tier : Tier) (modelId : String) (next : ModelSpec) : Prop :=
  ∃ before between nextId rest,
    registry.policy.candidates tier = before ++ modelId :: (between ++ nextId :: rest) ∧
      modelId ∉ before ∧ (∀ id ∈ between, registry.get id = none) ∧
      registry.get nextId = some next

variable {registry}

/-- What lies behind the first occurrence of an id. -/
theorem dropWhile_ne_append {modelId : String} {before rest : List String}
    (h : modelId ∉ before) :
    ((before ++ modelId :: rest).dropWhile (· ≠ modelId)).drop 1 = rest := by
  induction before with
  | nil => simp
  | cons id before ih =>
      rw [List.mem_cons, not_or] at h
      have hne : id ≠ modelId := fun heq => h.1 heq.symm
      rw [List.cons_append, List.dropWhile_cons_of_pos (by simpa using hne)]
      exact ih h.2

/-- **The walk finds the next model of the chain.** -/
theorem nextCandidate_eq_some_iff {tier : Tier} {modelId : String} {next : ModelSpec} :
    registry.nextCandidate tier modelId = some next ↔ registry.Follows tier modelId next := by
  constructor
  · intro hnext
    obtain ⟨between, nextId, rest, hsplit, hget, hbetween⟩ := List.findSome?_eq_some_iff.1 hnext
    have hmem : modelId ∈ registry.policy.candidates tier := by
      by_contra hout
      have hdrop : (registry.policy.candidates tier).dropWhile (· ≠ modelId) = [] :=
        List.dropWhile_eq_nil_iff.2 fun id hid => by
          rw [decide_eq_true_eq]
          rintro rfl
          exact hout hid
      rw [hdrop] at hsplit
      simp at hsplit
    obtain ⟨before, after, hchain, hbefore⟩ := List.eq_append_cons_of_mem hmem
    refine ⟨before, between, nextId, rest, ?_, hbefore, hbetween, hget⟩
    rw [hchain, dropWhile_ne_append hbefore] at hsplit
    rw [hchain, hsplit]
  · rintro ⟨before, between, nextId, rest, hchain, hbefore, hbetween, hget⟩
    rw [nextCandidate, hchain, dropWhile_ne_append hbefore]
    exact List.findSome?_eq_some_iff.2 ⟨between, nextId, rest, rfl, hget, hbetween⟩

theorem nextCandidate_eq_none_iff {tier : Tier} {modelId : String} :
    registry.nextCandidate tier modelId = none ↔ ∀ next, ¬ registry.Follows tier modelId next := by
  rw [Option.eq_none_iff_forall_ne_some]
  exact forall_congr' fun next => not_congr nextCandidate_eq_some_iff

/-- Two walks agree exactly if they find the same models. -/
theorem nextCandidate_eq_iff {tier tier' : Tier} {modelId : String} :
    registry.nextCandidate tier modelId = registry.nextCandidate tier' modelId ↔
      ∀ next, registry.Follows tier modelId next ↔ registry.Follows tier' modelId next := by
  constructor
  · intro heq next
    rw [← nextCandidate_eq_some_iff, ← nextCandidate_eq_some_iff, heq]
  · intro hall
    refine Option.ext fun next => ?_
    rw [nextCandidate_eq_some_iff, nextCandidate_eq_some_iff]
    exact hall next

end Registry

/-! ## What a call comes to -/

namespace ModelCall

variable (c : ModelCall)

/-- A call up to its first gate, and what follows. -/
def routed (d : RouteDecision) (rest : Payer Completion) : Payer Completion :=
  (emitEvent c.workstream c.taskId d.toPayload).inl.bind fun _ =>
    (c.gateArgs false d.model).enforce.bind fun _ => rest

/-- The call gives its reservation back and raises the failure again. -/
def reraise (spec : ModelSpec) (message : String) : Payer Completion :=
  (c.releaseAll [c.reservation spec]).bind fun _ => .throw (.providerFallback message)

/-- A retry on the next model, or the failure again. -/
def fallTo (spec : ModelSpec) (message : String) : Option ModelSpec → Payer Completion
  | some next => c.retry spec next
  | none => c.reraise spec message

/-- The call retries on the first model the catalog has after the routed one, in the chain of
the tier the request was routed at, and raises the failure again where there is none. -/
structure FollowsRoutedTier (d : RouteDecision) (message : String) : Prop where
  retries : ∀ next, c.registry.Follows d.tier d.model.id next →
    c.callModel = c.routed d (c.retry d.model next)
  reraises : (∀ next, ¬ c.registry.Follows d.tier d.model.id next) →
    c.callModel = c.routed d (c.reraise d.model message)

variable {c}

theorem callModel_eq {d : RouteDecision} {message : String}
    (hroute : routeDecision c.registry c.budgetCtx c.taskType c.quality = .ok d)
    (hfails : (c.selectProvider false d.model).complete d.model.id = .fallback message) :
    c.callModel = c.routed d (c.fallTo d.model message
      (c.registry.nextCandidate d.model.tier d.model.id)) := by
  have hdispatch : c.dispatch d.model = c.fallTo d.model message
      (c.registry.nextCandidate d.model.tier d.model.id) := by
    rw [dispatch, hfails]
    cases c.registry.nextCandidate d.model.tier d.model.id <;> rfl
  simp only [callModel, hroute, hdispatch, routed]

theorem followsRoutedTier_iff {d : RouteDecision} {message : String} :
    c.FollowsRoutedTier d message ↔ c.callModel = c.routed d (c.fallTo d.model message
      (c.registry.nextCandidate d.tier d.model.id)) := by
  cases hnext : c.registry.nextCandidate d.tier d.model.id with
  | none =>
      have hnone := Registry.nextCandidate_eq_none_iff.1 hnext
      exact ⟨fun h => h.reraises hnone,
        fun h => ⟨fun next hfollows => absurd hfollows (hnone next), fun _ => h⟩⟩
  | some next =>
      have hsome := Registry.nextCandidate_eq_some_iff.1 hnext
      refine ⟨fun h => h.retries next hsome, fun h => ⟨fun next' hfollows => ?_, fun hnone => ?_⟩⟩
      · rw [Registry.nextCandidate_eq_some_iff.2 hfollows] at hnext
        rw [Option.some.inj hnext]
        exact h
      · exact absurd hsome (hnone next)

/-! ## Telling two fallbacks apart -/

/-- There is no budget row, so every gate is open. -/
def Unbudgeted (s : Books) : Prop := s.2.budgets = .empty

theorem rowsOf_of_unbudgeted {s : Books} (h : Unbudgeted s) (workstreams : List String) :
    s.2.rowsOf workstreams = [] := by
  rw [Accounts.rowsOf, h]
  rfl

theorem ends_emitEvent {name : String} (hname : name ≠ "") (taskId : Option Uuid)
    (payload : SinkPayload) :
    Program.Ends Unbudgeted ((emitEvent name taskId payload).inl : Payer Unit) (.ok ())
      Unbudgeted := by
  intro s hs
  refine ⟨(s.1.appendEvent taskId ⟨name, hname⟩ (.sink payload), s.2), hs, ?_⟩
  rw [Program.eval_inl, emitEvent, requireWorkstream, dif_neg hname]
  rfl

theorem ends_settle_nil (a : EnforceArgs) (tx : Nat) :
    Program.Ends Unbudgeted (a.settle tx []) (.ok []) Unbudgeted := by
  have hwithheld : a.withheld? [] = none := by
    unfold EnforceArgs.withheld?
    split <;> rfl
  have hsettle : a.settle tx [] = (stmt (.commit tx)).bind fun _ => .ret [] := by
    simp only [EnforceArgs.settle, hwithheld]
    rfl
  rw [hsettle]
  exact Program.ends_bind (Program.ends_op fun s hs => ⟨(s.1, s.2.unlock tx), hs, rfl⟩)
    (Program.ends_ret _)

theorem ends_enforce {a : EnforceArgs} (hpurpose : a.purpose ∈ validPurposes) :
    Program.Ends Unbudgeted a.enforce (.ok []) Unbudgeted := by
  intro s hs
  let opened : Books :=
    (s.1, { s.2 with locks := s.2.locks ++ [], nextTx := s.2.nextTx + 1 })
  have hlock : (stmt (.lockRows (gatedScope a.workstream))).eval s =
      (.ok (s.2.nextTx, []), opened) := by
    refine Program.eval_op_ok (I := ledger) ?_
    change BudgetOp.execLockRows _ s = _
    simp only [BudgetOp.execLockRows, rowsOf_of_unbudgeted hs, List.map_nil]
    rfl
  obtain ⟨s', hs', hrest⟩ := ends_settle_nil a s.2.nextTx opened hs
  refine ⟨s', hs', ?_⟩
  rw [EnforceArgs.enforce, if_neg (not_not.2 hpurpose)]
  exact (Program.eval_bind_ok hlock).trans hrest

theorem ends_releaseAll (reservations : List (ℚ × Int)) :
    Program.Ends Unbudgeted (c.releaseAll reservations) (.ok ()) Unbudgeted := by
  induction reservations with
  | nil => exact Program.ends_ret ()
  | cons r reservations ih =>
      obtain ⟨estUsd, estTokens⟩ := r
      refine Program.ends_bind (a := ()) (Program.ends_ite (fun _ => Program.ends_ret ())
        fun _ => Program.ends_op fun s hs => ⟨_, ?_, rfl⟩) ih
      change (s.2.lower _ estUsd estTokens).budgets = .empty
      rw [Accounts.lower, hs]
      rfl

/-- A call without budgets is what follows its gate. -/
theorem ends_routed {d : RouteDecision} {rest : Payer Completion}
    {r : Except Exn Completion} (hworkstream : c.workstream ≠ "")
    (hpurpose : c.purpose ∈ validPurposes) (hrest : Program.Ends Unbudgeted rest r Unbudgeted) :
    Program.Ends Unbudgeted (c.routed d rest) r Unbudgeted :=
  Program.ends_bind (ends_emitEvent hworkstream _ _)
    (Program.ends_bind (ends_enforce hpurpose) hrest)

/-- Without budgets a retry is the dispatch to the next model. -/
theorem ends_retry {spec next : ModelSpec} {r : Except Exn Completion}
    (hpurpose : c.purpose ∈ validPurposes)
    (hrest : Program.Ends Unbudgeted (c.dispatchFallback next) r Unbudgeted) :
    Program.Ends Unbudgeted (c.retry spec next) r Unbudgeted :=
  Program.ends_bind (Program.ends_attempt (ends_enforce hpurpose))
    (Program.ends_tryFinally hrest (ends_releaseAll _))

theorem ends_reraise (spec : ModelSpec) (message : String) :
    Program.Ends Unbudgeted (c.reraise spec message) (.error (.providerFallback message))
      Unbudgeted :=
  Program.ends_bind (ends_releaseAll _) (Program.ends_throw _)

/-! ## When the two chains agree -/

/-- A provider that tells one model from all others, whatever their ids. -/
def telling (wanted : ModelSpec → Bool) (again : Bool) (spec : ModelSpec) : Provider where
  name := "fake"
  complete _ :=
    if again then
      if wanted spec then .completed ⟨"wanted", {}⟩ else .died "RuntimeError" "other"
    else .fallback "hang"

/-- A call over a registry, whose routed model falls back. -/
def probe (registry : Registry) (budgetCtx : Option Policy.BudgetContext)
    (taskType quality : String) (wanted : ModelSpec → Bool) : ModelCall where
  role := "builder"
  taskType := taskType
  messages := []
  quality := quality
  registry := registry
  budgetCtx := budgetCtx
  sha256 := id
  selectProvider := telling wanted
  approvalId _ := ⟨"6d0b3a4e-51c7-4a0e-9f0e-7a1d2c3b4e01", by decide⟩
  latencyMs := 0

/-- How a probe ends that falls to `next?`. -/
def verdict (wanted : ModelSpec → Bool) : Option ModelSpec → Except Exn Completion
  | some next =>
      if wanted next then .ok ⟨"wanted", {}⟩ else .error (.runtimeError "other")
  | none => .error (.providerFallback "hang")

section Probe

variable {registry : Registry} {budgetCtx : Option Policy.BudgetContext}
  {taskType quality : String} {wanted : ModelSpec → Bool}

theorem normal_valid : "normal" ∈ validPurposes := by decide

theorem productivity_ne : "productivity" ≠ "" := by decide

theorem ends_dispatchFallback_probe (next : ModelSpec) :
    Program.Ends Unbudgeted
      ((probe registry budgetCtx taskType quality wanted).dispatchFallback next)
      (verdict wanted (some next)) Unbudgeted := by
  cases hwanted : wanted next with
  | true =>
      have hcomplete : (telling wanted true next).complete next.id = .completed ⟨"wanted", {}⟩ := by
        simp [telling, hwanted]
      simp only [dispatchFallback, probe, hcomplete, verdict, hwanted, if_true]
      exact Program.ends_bind (ends_emitEvent productivity_ne _ _) (Program.ends_ret _)
  | false =>
      have hcomplete : (telling wanted true next).complete next.id =
          .died "RuntimeError" "other" := by
        simp [telling, hwanted]
      simp only [dispatchFallback, probe, hcomplete, verdict, hwanted, Bool.false_eq_true, if_false]
      exact Program.ends_bind (ends_emitEvent productivity_ne _ _) (Program.ends_throw _)

/-- The end of a probe shows the model it fell to. -/
theorem ends_probe (d : RouteDecision) (next? : Option ModelSpec) :
    Program.Ends Unbudgeted ((probe registry budgetCtx taskType quality wanted).routed d
      ((probe registry budgetCtx taskType quality wanted).fallTo d.model "hang" next?))
      (verdict wanted next?) Unbudgeted := by
  refine ends_routed productivity_ne normal_valid ?_
  cases next? with
  | none => exact ends_reraise _ _
  | some next => exact ends_retry normal_valid (ends_dispatchFallback_probe next)

end Probe

/-- A database without rows. -/
def unwritten : Books := (Store.initial 0, ⟨.empty, [], 0, ⟨id, id⟩⟩)

/-- **The fallback follows the routed tier's chain exactly where the chain of the routed model's
own tier goes on to the same model.** -/
theorem fallback_follows_iff {registry : Registry} {budgetCtx : Option Policy.BudgetContext}
    {taskType quality : String} {d : RouteDecision}
    (hroute : routeDecision registry budgetCtx taskType quality = .ok d) :
    (∀ (c : ModelCall) (message : String), c.registry = registry → c.budgetCtx = budgetCtx →
        c.taskType = taskType → c.quality = quality →
        (c.selectProvider false d.model).complete d.model.id = .fallback message →
          c.FollowsRoutedTier d message) ↔
      ∀ next, registry.Follows d.model.tier d.model.id next ↔
        registry.Follows d.tier d.model.id next := by
  rw [← Registry.nextCandidate_eq_iff]
  constructor
  · intro hall
    classical
    -- a probe whose fallback only answers for the model that the code falls to
    let wanted : ModelSpec → Bool := fun next =>
      decide (registry.nextCandidate d.model.tier d.model.id = some next)
    have hfollows := hall (probe registry budgetCtx taskType quality wanted) "hang"
      rfl rfl rfl rfl rfl
    have hsame : (probe registry budgetCtx taskType quality wanted).routed d
        ((probe registry budgetCtx taskType quality wanted).fallTo d.model "hang"
          (registry.nextCandidate d.model.tier d.model.id)) =
        (probe registry budgetCtx taskType quality wanted).routed d
          ((probe registry budgetCtx taskType quality wanted).fallTo d.model "hang"
            (registry.nextCandidate d.tier d.model.id)) :=
      (callModel_eq (c := probe registry budgetCtx taskType quality wanted) hroute rfl).symm.trans
        (followsRoutedTier_iff.1 hfollows)
    obtain ⟨s₁, -, hactual⟩ := @ends_probe registry budgetCtx taskType quality wanted d
      (registry.nextCandidate d.model.tier d.model.id) unwritten rfl
    obtain ⟨s₂, -, hspec⟩ := @ends_probe registry budgetCtx taskType quality wanted d
      (registry.nextCandidate d.tier d.model.id) unwritten rfl
    rw [hsame, hspec] at hactual
    have hverdict := (Prod.mk.inj hactual).1
    cases hcode : registry.nextCandidate d.model.tier d.model.id with
    | none =>
        cases hchain : registry.nextCandidate d.tier d.model.id with
        | none => rfl
        | some next =>
            rw [hcode, hchain] at hverdict
            simp [verdict, wanted, hcode] at hverdict
    | some next =>
        rw [hcode] at hverdict
        cases hchain : registry.nextCandidate d.tier d.model.id with
        | none =>
            rw [hchain] at hverdict
            simp [verdict, wanted, hcode] at hverdict
        | some next' =>
            rw [hchain] at hverdict
            by_cases heq : next = next'
            · rw [heq]
            · simp [verdict, wanted, hcode, heq] at hverdict
  · intro hsame c message hregistry hbudget htype hquality hfails
    subst hregistry hbudget htype hquality
    rw [followsRoutedTier_iff, callModel_eq hroute hfails, hsame]

end ModelCall

/-! ## A model in the chain of another tier -/

theorem free_of_charge : (0 : ℚ) ≤ 0 := le_refl 0

/-- A catalog entry without a price. -/
def catalogEntry (id provider : String) (tier : Tier) : ModelSpec where
  id := id
  provider := provider
  tier := tier
  priceIn := 0
  priceOut := 0
  priceIn_nonneg := free_of_charge
  priceOut_nonneg := free_of_charge

def composer : ModelSpec := catalogEntry "cursor-composer" "cursor" .coding

def opus : ModelSpec := catalogEntry "claude-opus-4-8" "anthropic" .pm

def sonnet : ModelSpec := catalogEntry "claude-sonnet-5" "anthropic" .mid

/-- A registry whose `mid` chain starts with a model filed under `coding`. -/
def crossTier : Registry where
  models := [("cursor-composer", composer), ("claude-opus-4-8", opus), ("claude-sonnet-5", sonnet)]
  policy :=
    { taskTypes := [("agentic", [("standard", "coding")])]
      default := [("standard", "mid")]
      tiers := [("mid", ["cursor-composer", "claude-sonnet-5"]),
        ("coding", ["cursor-composer", "claude-opus-4-8"])] }

/-- The decision on a task of some type. -/
def composerRoute (taskType : String) (tier : Tier) : RouteDecision where
  model := composer
  tier := tier
  reason := "task_type='" ++ taskType ++ "' quality='standard' -> tier '" ++ tier.value ++ "'"
  taskType := taskType
  quality := "standard"

theorem routed_mid :
    routeDecision crossTier none "summarize" "standard" = .ok (composerRoute "summarize" .mid) :=
  rfl

theorem routed_coding :
    routeDecision crossTier none "agentic" "standard" = .ok (composerRoute "agentic" .coding) :=
  rfl

/-- A call over that registry whose routed model hangs. -/
def hanging (taskType : String) : ModelCall :=
  ModelCall.probe crossTier none taskType "standard" fun _ => true

/-- Under the chain of its own tier the routed model falls to the next of that chain. -/
theorem agentic_follows :
    (hanging "agentic").FollowsRoutedTier (composerRoute "agentic" .coding) "hang" :=
  (ModelCall.fallback_follows_iff routed_coding).2 (fun _ => Iff.rfl) (hanging "agentic") "hang"
    rfl rfl rfl rfl rfl

/-- The models the calls of a database went to. -/
def servedBy (s : Books) : List String :=
  (s.1.events.filterMap Event.modelCall?).map ModelCallNotice.model

/-- **Routed at `mid`, the call falls to the next model of the `coding` chain.** -/
theorem summarize_falls_elsewhere :
    routeDecision crossTier none "summarize" "standard" = .ok (composerRoute "summarize" .mid) ∧
      crossTier.Follows .mid composer.id sonnet ∧
      servedBy ((hanging "summarize").callModel.eval ModelCall.unwritten).2 =
        ["claude-opus-4-8"] ∧
      ¬ (hanging "summarize").FollowsRoutedTier (composerRoute "summarize" .mid) "hang" := by
  have hnext : crossTier.Follows .mid composer.id sonnet :=
    ⟨[], [], "claude-sonnet-5", [], rfl, List.not_mem_nil, fun _ h => (List.not_mem_nil h).elim,
      rfl⟩
  have hserved : servedBy ((hanging "summarize").callModel.eval ModelCall.unwritten).2 =
      ["claude-opus-4-8"] := by
    decide +kernel
  refine ⟨routed_mid, hnext, hserved, fun hfollows => ?_⟩
  have hretry : servedBy (((hanging "summarize").routed (composerRoute "summarize" .mid)
      ((hanging "summarize").retry composer sonnet)).eval ModelCall.unwritten).2 =
      ["claude-sonnet-5"] := by
    decide +kernel
  rw [hfollows.retries sonnet hnext] at hserved
  exact absurd (hserved.symm.trans hretry) (by decide)

end AiStudio.Runtime
