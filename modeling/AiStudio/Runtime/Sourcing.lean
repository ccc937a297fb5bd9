import AiStudio.Data.Number
import AiStudio.Data.Numerals
import AiStudio.Runtime.Registry

/-!
# The approval envelope of the sourcing role

Embeds `synthesize_candidate` and `classify_candidate` of `runtime/roles/sourcing.py`, with
`cost_usd` on the numbers a candidate's payload can hold: nothing checks that a price is finite, or
not negative. How the language reads a float and prints a value is an argument.
-/

set_option autoImplicit false

namespace AiStudio.Runtime.Sourcing

open AiStudio.Data AiStudio.Runtime

/-! ## Models -/

/-- `ModelSpec`. -/
structure ModelSpec where
  id : String
  provider : String
  tier : Tier
  priceIn : Number
  priceOut : Number
  contextWindow : Int := 0
  cacheReadMultiplier : Number := .finite (1 / 10)
  taskFit : List String := []
  provenance : String := ""
  provenanceDate : String := ""

/-- A model of the catalog the router reads. -/
def ModelSpec.ofListed (spec : Runtime.ModelSpec) : ModelSpec where
  id := spec.id
  provider := spec.provider
  tier := spec.tier
  priceIn := .finite spec.priceIn
  priceOut := .finite spec.priceOut
  cacheReadMultiplier := .finite spec.cacheReadMultiplier

/-- `cost_usd`. -/
def costUsd (spec : ModelSpec) (usage : Usage) : Number :=
  let cached := max 0 (min usage.cachedTokens usage.inputTokens)
  let freshIn := usage.inputTokens - cached
  let perMillion := (((Number.finite freshIn).mul spec.priceIn).add
    (((Number.finite cached).mul spec.priceIn).mul spec.cacheReadMultiplier)).add
    ((Number.finite usage.outputTokens).mul spec.priceOut)
  perMillion.div 1000000

/-- The loaded catalog. `from_dict` refuses a duplicate id. -/
structure Registry where
  models : List ModelSpec
  nodup : (models.map ModelSpec.id).Nodup

namespace Registry

variable (registry : Registry)

def get (modelId : String) : Option ModelSpec := registry.models.find? (·.id = modelId)

def byTier (tier : Tier) : List ModelSpec := registry.models.filter (·.tier = tier)

def providers : List String := registry.models.map ModelSpec.provider

end Registry

/-! ## Candidates -/

/-- How the language reads a float from a text, and the texts of its values: `str(value)` of a value
that is no string, `repr(text)`, and a float in a formatted string. -/
structure Texts where
  readFloat : String → Option Number
  str : Json Empty → String
  repr : String → String
  shown : Number → String

/-- A search hit. -/
structure SearchResult where
  url : String

/-- `_provenance_from`. -/
def provenanceFrom (results : List SearchResult) : List String :=
  ((results.take 5).map SearchResult.url).filter (· ≠ "")

/-- `int(x)`; a special value has no integer. -/
def truncate : Number → Option Int
  | .finite q => some (q.num.tdiv q.den)
  | .inf _ => none
  | .nan => none

section Candidate

variable (texts : Texts)

/-- `str(value)`. -/
def textOf : Json Empty → String
  | .str s => s
  | value => texts.str value

/-- `float(value)`. -/
def floatOf : Json Empty → Option Number
  | .bool b => some (.finite (if b then 1 else 0))
  | .int n => some (.finite n)
  | .float x => texts.readFloat (String.ofList x.text)
  | .str s => texts.readFloat s
  | _ => none

/-- `int(value or 0)`. -/
def intOf (value : Json Empty) : Option Int :=
  if !value.truthy then some 0
  else
    match value with
    | .bool _ => some 1
    | .int n => some n
    | .float x => (texts.readFloat (String.ofList x.text)).bind truncate
    | .str s => readInt (strip s)
    | _ => none

/-- `list(value or [])`, as a list of texts. -/
def namesOf (value : Json Empty) : Option (List String) :=
  if !value.truthy then some []
  else
    match value with
    | .str s => some (s.toList.map String.singleton)
    | .arr items => items.mapM Json.asStr?
    | .obj fields => some (fields.map Prod.fst)
    | _ => none

/-- `synthesize_candidate`. -/
def synthesizeCandidate (candidate : Doc) (results : List SearchResult) (sourcedOn : String) :
    Option ModelSpec := do
  let urls := provenanceFrom results
  let provenance := "sourcing: " ++
    (if urls.isEmpty then "(no corroborating source)" else "; ".intercalate (urls.take 3))
  let id ← candidate.lookup "id"
  let provider ← candidate.lookup "provider"
  let tier ← (candidate.lookup "tier").bind Json.asStr?
  let tier ← (Tier.ofName tier).toOption
  let priceIn ← (candidate.lookup "price_in").bind (floatOf texts)
  let priceOut ← (candidate.lookup "price_out").bind (floatOf texts)
  let contextWindow ← intOf texts (candidate.getD "context_window" (.int 0))
  let cacheReadMultiplier ←
    match candidate.lookup "cache_read_multiplier" with
    | some multiplier => floatOf texts multiplier
    | none => some (.finite (1 / 10))
  let taskFit ← namesOf (candidate.getD "task_fit" (.arr []))
  return {
    id := textOf texts id
    provider := textOf texts provider
    tier
    priceIn
    priceOut
    contextWindow
    cacheReadMultiplier
    taskFit
    provenance
    provenanceDate := sourcedOn }

end Candidate

/-! ## The envelope -/

/-- `price_in + price_out`. -/
def ModelSpec.listPrice (spec : ModelSpec) : Number := spec.priceIn.add spec.priceOut

/-- `min(specs, key=lambda s: s.price_in + s.price_out)`: the first that none is below. -/
def cheapest : List ModelSpec → Option ModelSpec
  | [] => none
  | spec :: specs =>
      some (specs.foldl (fun best s => if s.listPrice.lt best.listPrice then s else best) spec)

/-- The cheapest model of the candidate's provider and tier, or of its tier. -/
def Registry.cheapestLike (registry : Registry) (spec : ModelSpec) : Option ModelSpec :=
  (cheapest (registry.models.filter fun s => s.provider = spec.provider && s.tier = spec.tier)).or
    (cheapest (registry.byTier spec.tier))

/-- A list price is above the other's. -/
def raises (spec ref : ModelSpec) : Bool :=
  ref.priceIn.lt spec.priceIn || ref.priceOut.lt spec.priceOut

/-- What the envelope answers. -/
inductive Decision where
  | approval
  | autoadopt
  deriving DecidableEq

/-- `classify_candidate`. -/
def classifyCandidate (texts : Texts) (spec : ModelSpec) (registry : Registry)
    (scopeAffecting : Bool) : Decision × String :=
  if scopeAffecting then (.approval, spec.id ++ ": objective/scope-affecting change")
  else if spec.provider ∉ registry.providers then
    (.approval, spec.id ++ ": new provider " ++ texts.repr spec.provider ++ " (needs approval)")
  else
    match (registry.get spec.id).or (registry.cheapestLike spec) with
    | none =>
        (.approval, spec.id ++ ": introduces new tier " ++ texts.repr spec.tier.value ++ " (scope)")
    | some ref =>
        if raises spec ref then
          (.approval, spec.id ++ ": budget-increasing vs " ++ ref.id ++ " (in " ++
            texts.shown ref.priceIn ++ "->" ++ texts.shown spec.priceIn ++ ", out " ++
            texts.shown ref.priceOut ++ "->" ++ texts.shown spec.priceOut ++ ")")
        else
          (.autoadopt, spec.id ++ ": in-band swap within " ++ ref.id ++ "'s cost/quality band")

/-! ## The law -/

/-- The model a candidate is held against: that of its id, if it is in the candidate's tier; else
the cheapest like it. -/
def Registry.reference (registry : Registry) (spec : ModelSpec) : Option ModelSpec :=
  ((registry.get spec.id).filter (·.tier = spec.tier)).or (registry.cheapestLike spec)

/-- No token count is negative. -/
structure Counted (usage : Usage) : Prop where
  input : 0 ≤ usage.inputTokens
  output : 0 ≤ usage.outputTokens
  cached : 0 ≤ usage.cachedTokens

/-- Auto-adoption raises no cost, and introduces neither a provider nor a tier. -/
def EnvelopeLaw (texts : Texts) (spec : ModelSpec) (registry : Registry) (scopeAffecting : Bool) :
    Prop :=
  (classifyCandidate texts spec registry scopeAffecting).1 = .autoadopt →
    (∃ ref, registry.reference spec = some ref ∧
      ∀ usage, Counted usage → (costUsd spec usage).le (costUsd ref usage) = true) ∧
    spec.provider ∈ registry.providers ∧ spec.tier ∈ registry.models.map ModelSpec.tier

/-- All six numbers are finite, and neither list price nor the price of a cached token is above the
other's. -/
def Within (spec ref : ModelSpec) : Prop :=
  ∃ priceIn priceOut multiplier priceIn' priceOut' multiplier',
    spec.priceIn = .finite priceIn ∧ spec.priceOut = .finite priceOut ∧
    spec.cacheReadMultiplier = .finite multiplier ∧
    ref.priceIn = .finite priceIn' ∧ ref.priceOut = .finite priceOut' ∧
    ref.cacheReadMultiplier = .finite multiplier' ∧
    priceIn ≤ priceIn' ∧ priceOut ≤ priceOut' ∧ priceIn * multiplier ≤ priceIn' * multiplier'

/-- The candidate changes the scope, its provider is new, a list price is above that of the model of
its id (or, when there is none, of each cheapest model like it), or its numbers are within those of
its reference. -/
def Fits (spec : ModelSpec) (registry : Registry) (scopeAffecting : Bool) : Prop :=
  scopeAffecting = true ∨ spec.provider ∉ registry.providers ∨
    (∃ listed, registry.get spec.id = some listed ∧ raises spec listed = true) ∨
    (registry.get spec.id = none ∧
      ∀ ref, registry.cheapestLike spec = some ref → raises spec ref = true) ∨
    ∃ ref, registry.reference spec = some ref ∧ Within spec ref

/-! ## Costs -/

section Costs

variable {spec ref : ModelSpec} {usage : Usage}

/-- The cached tokens a call is charged for. -/
def cachedOf (usage : Usage) : Int := max 0 (min usage.cachedTokens usage.inputTokens)

/-- The numbers of a model are finite. -/
structure Finite (spec : ModelSpec) (priceIn priceOut multiplier : ℚ) : Prop where
  priceIn : spec.priceIn = .finite priceIn
  priceOut : spec.priceOut = .finite priceOut
  multiplier : spec.cacheReadMultiplier = .finite multiplier

/-- The cost of finite prices. -/
def cost (priceIn priceOut multiplier : ℚ) (usage : Usage) : ℚ :=
  ((usage.inputTokens - cachedOf usage : Int) * priceIn + cachedOf usage * priceIn * multiplier +
    usage.outputTokens * priceOut) / (1000000 : Nat)

theorem costUsd_finite {priceIn priceOut multiplier : ℚ}
    (hf : Finite spec priceIn priceOut multiplier) (usage : Usage) :
    costUsd spec usage = .finite (cost priceIn priceOut multiplier usage) := by
  simp only [costUsd, hf.priceIn, hf.priceOut, hf.multiplier, Number.finite_mul_finite,
    Number.finite_add_finite, Number.finite_div]
  rfl

/-- The catalog's own models cost what the call wrapper charges. -/
theorem costUsd_ofListed (spec : Runtime.ModelSpec) (usage : Usage) :
    costUsd (.ofListed spec) usage = .finite (Runtime.costUsd spec usage) := by
  have hfinite : Finite (.ofListed spec) _ _ _ := ⟨rfl, rfl, rfl⟩
  rw [costUsd_finite hfinite]
  simp only [cost, cachedOf, Runtime.costUsd, Int.cast_sub, Nat.cast_ofNat]

/-- A call of no tokens costs `nan` where a number of the model is not finite. -/
theorem exists_finite_of_costUsd (h : costUsd spec {} ≠ .nan) :
    ∃ priceIn priceOut multiplier, Finite spec priceIn priceOut multiplier := by
  have hzero : ((0 - max 0 (min 0 0) : Int) : ℚ) = 0 := by norm_num
  have hcached : ((max 0 (min 0 0) : Int) : ℚ) = 0 := by norm_num
  by_cases hin : spec.priceIn.isFinite = true
  · by_cases hout : spec.priceOut.isFinite = true
    · by_cases hmult : spec.cacheReadMultiplier.isFinite = true
      · obtain ⟨priceIn, hin⟩ := Number.exists_finite hin
        obtain ⟨priceOut, hout⟩ := Number.exists_finite hout
        obtain ⟨multiplier, hmult⟩ := Number.exists_finite hmult
        exact ⟨priceIn, priceOut, multiplier, hin, hout, hmult⟩
      · obtain ⟨priceIn, hin⟩ := Number.exists_finite hin
        refine absurd ?_ h
        simp only [costUsd, hzero, hcached, hin, Number.finite_mul_finite, zero_mul,
          Number.zero_mul_of_not_isFinite (Bool.not_eq_true _ ▸ hmult), Number.add_nan,
          Number.nan_add, Number.nan_div]
    · refine absurd ?_ h
      simp only [costUsd, Int.cast_zero,
        Number.zero_mul_of_not_isFinite (Bool.not_eq_true _ ▸ hout), Number.add_nan,
        Number.nan_div]
  · refine absurd ?_ h
    simp only [costUsd, hzero, hcached, Number.zero_mul_of_not_isFinite (Bool.not_eq_true _ ▸ hin),
      Number.nan_add, Number.nan_mul, Number.nan_div]

/-- Costs compare as list prices and prices of a cached token do. -/
theorem cost_le_cost {priceIn priceOut multiplier priceIn' priceOut' multiplier' : ℚ}
    (hin : priceIn ≤ priceIn') (hout : priceOut ≤ priceOut')
    (hcached : priceIn * multiplier ≤ priceIn' * multiplier') (hu : Counted usage) :
    cost priceIn priceOut multiplier usage ≤ cost priceIn' priceOut' multiplier' usage := by
  have hbounds : 0 ≤ cachedOf usage ∧ 0 ≤ usage.inputTokens - cachedOf usage := by
    have := hu.input
    unfold cachedOf
    omega
  have hfresh : (0 : ℚ) ≤ ((usage.inputTokens - cachedOf usage : Int) : ℚ) := by
    exact_mod_cast hbounds.2
  have hread : (0 : ℚ) ≤ (cachedOf usage : ℚ) := by
    exact_mod_cast hbounds.1
  have houtput : (0 : ℚ) ≤ (usage.outputTokens : ℚ) := by
    exact_mod_cast hu.output
  unfold cost
  rw [mul_assoc, mul_assoc]
  gcongr

/-- No call of the candidate costs more exactly when its numbers are within the other's. -/
theorem costUsd_le_iff :
    (∀ usage, Counted usage → (costUsd spec usage).le (costUsd ref usage) = true) ↔
      Within spec ref := by
  constructor
  · intro h
    have hfree := h {} ⟨le_refl _, le_refl _, le_refl _⟩
    have hspec : costUsd spec {} ≠ .nan := fun hnan => by simp [hnan] at hfree
    have href : costUsd ref {} ≠ .nan := fun hnan => by simp [hnan] at hfree
    obtain ⟨priceIn, priceOut, multiplier, hf⟩ := exists_finite_of_costUsd hspec
    obtain ⟨priceIn', priceOut', multiplier', hf'⟩ := exists_finite_of_costUsd href
    have hcost : ∀ usage, Counted usage →
        cost priceIn priceOut multiplier usage ≤ cost priceIn' priceOut' multiplier' usage := by
      intro usage hu
      have := h usage hu
      rwa [costUsd_finite hf, costUsd_finite hf', Number.finite_le_finite, decide_eq_true_iff]
        at this
    refine ⟨priceIn, priceOut, multiplier, priceIn', priceOut', multiplier', hf.priceIn,
      hf.priceOut, hf.multiplier, hf'.priceIn, hf'.priceOut, hf'.multiplier, ?_, ?_, ?_⟩
    · have := hcost { inputTokens := 1000000 } ⟨by decide, by decide, by decide⟩
      norm_num [cost, cachedOf] at this
      exact this
    · have := hcost { outputTokens := 1000000 } ⟨by decide, by decide, by decide⟩
      norm_num [cost, cachedOf] at this
      exact this
    · have := hcost { inputTokens := 1000000, cachedTokens := 1000000 }
        ⟨by decide, by decide, by decide⟩
      norm_num [cost, cachedOf] at this
      linarith
  · rintro ⟨priceIn, priceOut, multiplier, priceIn', priceOut', multiplier', hin, hout, hmult, hin',
      hout', hmult', hle, hle', hcached⟩ usage hu
    rw [costUsd_finite ⟨hin, hout, hmult⟩, costUsd_finite ⟨hin', hout', hmult'⟩,
      Number.finite_le_finite, decide_eq_true_iff]
    exact cost_le_cost hle hle' hcached hu

end Costs

/-! ## The cheapest of a list -/

section Cheapest

variable {specs : List ModelSpec} {spec : ModelSpec}

theorem foldl_cheaper_mem (specs : List ModelSpec) (spec : ModelSpec) :
    specs.foldl (fun best s => if s.listPrice.lt best.listPrice then s else best) spec ∈
      spec :: specs := by
  induction specs generalizing spec with
  | nil => exact List.mem_cons_self
  | cons s specs ih =>
      rw [List.foldl_cons]
      rcases List.mem_cons.1 (ih (if s.listPrice.lt spec.listPrice then s else spec)) with h | h
      · rw [h]
        split
        · exact List.mem_cons_of_mem _ List.mem_cons_self
        · exact List.mem_cons_self
      · exact List.mem_cons_of_mem _ (List.mem_cons_of_mem _ h)

theorem cheapest_mem (h : cheapest specs = some spec) : spec ∈ specs := by
  cases specs with
  | nil => exact absurd h.symm (Option.some_ne_none _)
  | cons s specs =>
      obtain rfl := Option.some.inj h
      exact foldl_cheaper_mem specs s

/-- Of finite list prices, none is below that of the one the fold keeps. -/
theorem foldl_cheaper_le {specs : List ModelSpec} {spec : ModelSpec} (price : ModelSpec → ℚ)
    (hprice : ∀ s ∈ spec :: specs, s.listPrice = .finite (price s)) :
    ∀ s ∈ spec :: specs, price
      (specs.foldl (fun best s => if s.listPrice.lt best.listPrice then s else best) spec) ≤
        price s := by
  induction specs generalizing spec with
  | nil =>
      intro s hs
      rw [List.mem_singleton.1 hs]
      exact le_refl _
  | cons s specs ih =>
      have hs := hprice s (List.mem_cons_of_mem _ List.mem_cons_self)
      have hspec := hprice spec List.mem_cons_self
      have hrest : ∀ t ∈ specs, t.listPrice = .finite (price t) := fun t ht =>
        hprice t (List.mem_cons_of_mem _ (List.mem_cons_of_mem _ ht))
      rw [List.foldl_cons]
      simp only [hs, hspec, Number.finite_lt_finite, decide_eq_true_eq]
      by_cases hlt : price s < price spec
      · rw [if_pos hlt]
        have hkept := ih (List.forall_mem_cons.2 ⟨hs, hrest⟩)
        exact List.forall_mem_cons.2 ⟨le_trans (hkept s List.mem_cons_self) hlt.le, hkept⟩
      · rw [if_neg hlt]
        have hkept := ih (List.forall_mem_cons.2 ⟨hspec, hrest⟩)
        have hbest := hkept spec List.mem_cons_self
        exact List.forall_mem_cons.2 ⟨hbest, List.forall_mem_cons.2
          ⟨le_trans hbest (not_lt.1 hlt), fun t ht => hkept t (List.mem_cons_of_mem _ ht)⟩⟩

/-- The cheapest has the least list price, where all of them are finite. -/
theorem cheapest_le (price : ModelSpec → ℚ)
    (hprice : ∀ s ∈ specs, s.listPrice = .finite (price s)) (h : cheapest specs = some spec) :
    ∀ s ∈ specs, price spec ≤ price s := by
  cases specs with
  | nil => exact fun s hs => absurd hs List.not_mem_nil
  | cons s specs =>
      obtain rfl := Option.some.inj h
      exact foldl_cheaper_le price hprice

theorem cheapestLike_mem {registry : Registry} {ref : ModelSpec}
    (h : registry.cheapestLike spec = some ref) : ref ∈ registry.models ∧ ref.tier = spec.tier := by
  rcases Option.or_eq_some_iff.1 h with h | ⟨-, h⟩
  · have := List.mem_filter.1 (cheapest_mem h)
    exact ⟨this.1, (by simpa using this.2 : _ ∧ ref.tier = spec.tier).2⟩
  · have := List.mem_filter.1 (cheapest_mem h)
    exact ⟨this.1, by simpa using this.2⟩

/-- The reference is a listed model of the candidate's tier. -/
theorem reference_mem {registry : Registry} {ref : ModelSpec}
    (h : registry.reference spec = some ref) : ref ∈ registry.models ∧ ref.tier = spec.tier := by
  rcases Option.or_eq_some_iff.1 h with h | ⟨-, h⟩
  · obtain ⟨hget, htier⟩ := Option.filter_eq_some_iff.1 h
    exact ⟨List.mem_of_find?_eq_some hget, by simpa using htier⟩
  · exact cheapestLike_mem h

end Cheapest

/-! ## What is adopted -/

section Adopted

variable {texts : Texts} {spec : ModelSpec} {registry : Registry} {scopeAffecting : Bool}

/-- When no approval is asked for. -/
theorem classifyCandidate_autoadopt :
    (classifyCandidate texts spec registry scopeAffecting).1 = .autoadopt ↔
      scopeAffecting = false ∧ spec.provider ∈ registry.providers ∧
        ∃ ref, (registry.get spec.id).or (registry.cheapestLike spec) = some ref ∧
          raises spec ref = false := by
  unfold classifyCandidate
  by_cases hscope : scopeAffecting = true
  · simp [hscope]
  · by_cases hprovider : spec.provider ∈ registry.providers
    · cases href : (registry.get spec.id).or (registry.cheapestLike spec) with
      | none => simp [hscope, hprovider]
      | some ref =>
          by_cases hraises : raises spec ref = true
          · simp [hscope, hprovider, hraises]
          · simp [hscope, hprovider, hraises]
    · simp [hscope, hprovider]

theorem envelopeLaw_of_fits (h : Fits spec registry scopeAffecting) :
    EnvelopeLaw texts spec registry scopeAffecting := by
  intro hauto
  obtain ⟨hscope, hprovider, compared, hcompared, hkept⟩ := classifyCandidate_autoadopt.1 hauto
  rcases h with h | h | ⟨listed, hget, h⟩ | ⟨hget, h⟩ | ⟨ref, href, hwithin⟩
  · exact absurd (hscope.symm.trans h) Bool.false_ne_true
  · exact absurd hprovider h
  · rw [hget] at hcompared
    obtain rfl := Option.some.inj hcompared
    exact absurd (hkept.symm.trans h) Bool.false_ne_true
  · rw [hget, Option.none_or] at hcompared
    exact absurd (hkept.symm.trans (h compared hcompared)) Bool.false_ne_true
  · obtain ⟨hmem, htier⟩ := reference_mem href
    refine ⟨⟨ref, href, costUsd_le_iff.2 hwithin⟩, hprovider, ?_⟩
    rw [← htier]
    exact List.mem_map_of_mem hmem

theorem fits_of_envelopeLaw (h : EnvelopeLaw texts spec registry scopeAffecting) :
    Fits spec registry scopeAffecting := by
  by_cases hscope : scopeAffecting = true
  · exact .inl hscope
  · by_cases hprovider : spec.provider ∈ registry.providers
    · refine .inr (.inr ?_)
      cases hcompared : (registry.get spec.id).or (registry.cheapestLike spec) with
      | none =>
          obtain ⟨hget, hlike⟩ := Option.or_eq_none_iff.1 hcompared
          refine .inr (.inl ⟨hget, fun ref href => ?_⟩)
          exact absurd (hlike.symm.trans href).symm (Option.some_ne_none _)
      | some ref =>
          by_cases hraises : raises spec ref = true
          · rcases Option.or_eq_some_iff.1 hcompared with hget | ⟨hget, hlike⟩
            · exact .inl ⟨ref, hget, hraises⟩
            · refine .inr (.inl ⟨hget, fun other hother => ?_⟩)
              obtain rfl := Option.some.inj (hlike.symm.trans hother)
              exact hraises
          · have hauto : (classifyCandidate texts spec registry scopeAffecting).1 = .autoadopt :=
              classifyCandidate_autoadopt.2
              ⟨Bool.not_eq_true _ ▸ hscope, hprovider, ref, hcompared, Bool.not_eq_true _ ▸ hraises⟩
            obtain ⟨⟨reference, href, hcost⟩, -, -⟩ := h hauto
            exact .inr (.inr ⟨reference, href, costUsd_le_iff.1 hcost⟩)
    · exact .inr (.inl hprovider)

end Adopted

/-- An accepted candidate obeys the envelope exactly when its specification fits. -/
theorem synthesizeCandidate_envelope (texts : Texts) (registry : Registry) (candidate : Doc)
    (results : List SearchResult) (sourcedOn : String) (scopeAffecting : Bool) :
    (∀ spec, synthesizeCandidate texts candidate results sourcedOn = some spec →
        EnvelopeLaw texts spec registry scopeAffecting) ↔
      ∀ spec, synthesizeCandidate texts candidate results sourcedOn = some spec →
        Fits spec registry scopeAffecting :=
  forall₂_congr fun _ _ => ⟨fits_of_envelopeLaw, envelopeLaw_of_fits⟩

/-- A catalog of one model. -/
def plannerOnly : Registry where
  models :=
    [{ id := "planner", provider := "anthropic", tier := .pm, priceIn := .finite 5
       priceOut := .finite 25 }]
  nodup := by decide

/-- The catalog's model at its own list prices, its cached tokens at the price of fresh ones. -/
def plannerUncached : Doc :=
  [("id", .str "planner"), ("provider", .str "anthropic"), ("tier", .str "pm"),
    ("price_in", .int 5), ("price_out", .int 25), ("cache_read_multiplier", .int 1)]

/-- The price of a cached token goes up tenfold, and no approval is asked for. -/
theorem cached_price_adopted :
    ¬∀ spec, synthesizeCandidate ⟨fun _ => none, fun _ => "", id, fun _ => ""⟩ plannerUncached []
        "2026-01-01" = some spec →
      EnvelopeLaw ⟨fun _ => none, fun _ => "", id, fun _ => ""⟩ spec plannerOnly false := by
  intro h
  obtain ⟨⟨ref, href, hcost⟩, -, -⟩ := h _ rfl (by decide)
  obtain rfl := Option.some.inj ((by rfl : plannerOnly.reference _ = _).symm.trans href)
  have := hcost { inputTokens := 1000000, cachedTokens := 1000000 }
    ⟨by decide, by decide, by decide⟩
  rw [costUsd_finite ⟨rfl, rfl, rfl⟩, costUsd_finite ⟨rfl, rfl, rfl⟩, Number.finite_le_finite,
    decide_eq_true_iff] at this
  norm_num [cost, cachedOf] at this

end AiStudio.Runtime.Sourcing
