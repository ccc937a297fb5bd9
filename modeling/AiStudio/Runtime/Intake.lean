import AiStudio.Runtime.Planning

/-!
# The intake of feature requests

Embeds `FeatureRequest` of `runtime/crossworkstream.py` and what `triage_request` of
`runtime/roles/pm.py` does with it: the keyless default lens, the work items of an accepted
request, and the loop that enqueues them. A request is read off the payload of its task, with
the keys the triage itself writes there left out.
-/

set_option autoImplicit false

namespace AiStudio.Runtime

open AiStudio.Data AiStudio.Concurrency

/-! ## The request -/

/-- A typed ask from one workstream to another. -/
structure FeatureRequest where
  fromWorkstream : String
  toWorkstream : String
  title : String
  problem : String
  desiredCapability : String
  successCriteria : List String
  impact : String
  priority : Int
  deadline : Option String
  contextRefs : List String

/-- A field of a model: its value as the reader has it, or its default. -/
def field {α : Type} (payload : Doc) (key expected : String) (read : Json Empty → Option α)
    (default : Option α) : Except Exn α :=
  match payload.lookup key with
  | none =>
      match default with
      | some value => .ok value
      | none => .error (.valueError (key ++ ": Field required"))
  | some raw =>
      match read raw with
      | some value => .ok value
      | none => .error (.valueError (key ++ ": Input should be " ++ expected))

/-- A list of texts. -/
def readTexts : Json Empty → Option (List String)
  | .arr items => items.mapM Json.asStr?
  | _ => none

/-- A text or nothing. -/
def readOptionalText : Json Empty → Option (Option String)
  | .null => some none
  | value => value.asStr?.map some

/-- `FeatureRequest.from_task`, for a task of the type; `readInteger` is what the model reads as
an integer. -/
def FeatureRequest.fromPayload (readInteger : Json Empty → Option Int) (payload : Doc) :
    Except Exn FeatureRequest := do
  let fromWorkstream ← field payload "from_workstream" "a valid string" Json.asStr? none
  let toWorkstream ← field payload "to_workstream" "a valid string" Json.asStr? none
  let title ← field payload "title" "a valid string" Json.asStr? none
  let problem ← field payload "problem" "a valid string" Json.asStr? none
  let desiredCapability ← field payload "desired_capability" "a valid string" Json.asStr? none
  let successCriteria ← field payload "success_criteria" "a valid list" readTexts (some [])
  let impact ← field payload "impact" "a valid string" Json.asStr? (some "")
  let priority ← field payload "priority" "a valid integer" readInteger (some 0)
  let deadline ← field payload "deadline" "a valid string" readOptionalText (some none)
  let contextRefs ← field payload "context_refs" "a valid list" readTexts (some [])
  return { fromWorkstream, toWorkstream, title, problem, desiredCapability, successCriteria
           impact, priority, deadline, contextRefs }

/-- The keys of a payload that belong to the triage and not to the contract. -/
def triageKeys : List String := ["request_status", "decision_reason", "work_task_ids"]

/-! ## The verdict -/

/-- The request states nothing checkable to build against. -/
def FeatureRequest.vague (request : FeatureRequest) : Bool :=
  request.successCriteria.isEmpty && strip request.desiredCapability = ""

/-- `_default_triage`: accept a well-specified request, else ask. -/
def defaultTriage (request : FeatureRequest) : TriageDecision :=
  if request.vague then
    { verdict := .clarify
      reason := "no success criteria or desired capability to build against" }
  else { verdict := .accept }

/-! ## The work of an accepted request -/

/-- `_items_for_accept`: the items of the decision, else one for each criterion, else one. -/
def itemsForAccept (items : List WorkItem) (request : FeatureRequest) : List WorkItem :=
  let instructions :=
    if request.desiredCapability = "" then request.problem else request.desiredCapability
  if !items.isEmpty then items
  else if !request.successCriteria.isEmpty then
    request.successCriteria.zipIdx.map fun (criterion, i) =>
      { title := request.title ++ ": criterion " ++ toString (i + 1)
        successCriterion := criterion, instructions := instructions }
  else
    [{ title := request.title, successCriterion := request.desiredCapability
       instructions := instructions }]

/-- The decomposition of an accepted request. An item without a title has that of the request. -/
def FeatureRequest.decomposition (request : FeatureRequest) (repr : String → String)
    (newId : Nat → Uuid) (id : Uuid) (items : List WorkItem) : Decomposition where
  items := items.map fun item : WorkItem =>
    { item with title := if item.title = "" then request.title else item.title }
  goal := if request.desiredCapability = "" then request.title else request.desiredCapability
  owner := "request-ok:" ++ id.text
  link := [("request_id", .str id.text), ("from_workstream", .str request.fromWorkstream)]
  repr := repr
  newId := newId

/-- `_decompose_request` from item `i` on. -/
def Decomposition.enqueueEach (d : Decomposition) (row : Task) (i : Nat) :
    List WorkItem → Process (List String)
  | [] => .ret []
  | item :: items => do
      let _ ← call (.enqueueTask (d.newId i) (d.args row none i item []))
      let ids ← enqueueEach d row (i + 1) items
      return (d.newId i).text :: ids

theorem Decomposition.enqueueEach_only (d : Decomposition) (row : Task) (i : Nat)
    (items : List WorkItem) : (d.enqueueEach row i items).Only fun o : StoreOp =>
      ∃ id a, o = .enqueueTask id a ∧ "work.".toList.isPrefixOf a.type.toList = true := by
  induction items generalizing i with
  | nil => exact .ret _
  | cons item items ih =>
      refine .bind (.op ⟨_, _, rfl, ?_⟩) fun _ => .bind (ih _) fun _ => .ret _
      dsimp only [Decomposition.args]
      split
      · assumption
      · decide

/-! ## The intake -/

/-- What a lens makes of a request: the verdict, and the work items it may come with. -/
structure LensDecision extends TriageDecision where
  items : List WorkItem := []

/-- What `triage_request` is given: the lens, and the ids the database draws for the work items. -/
structure Intake where
  sha256 : String → String
  repr : String → String
  readInteger : Json Empty → Option Int
  lens : Task → FeatureRequest → LensDecision := fun _ request => ⟨defaultTriage request, []⟩
  newId : Nat → Uuid

namespace Intake

variable (intake : Intake)

/-- The request of a task. -/
def request (row : Task) : Except Exn FeatureRequest :=
  FeatureRequest.fromPayload intake.readInteger row.payload

/-- Enqueue the work of an accepted request. -/
def decompose (id : Uuid) (row : Task) : Process (List String) :=
  match intake.request row with
  | .error e => .throw e
  | .ok request =>
      let d := request.decomposition intake.repr intake.newId id
        (itemsForAccept (intake.lens row request).items request)
      d.enqueueEach row 1 d.items

theorem decompose_only (id : Uuid) (row : Task) : (intake.decompose id row).Only fun o : StoreOp =>
    ∃ id a, o = .enqueueTask id a ∧ "work.".toList.isPrefixOf a.type.toList = true := by
  unfold decompose
  cases intake.request row with
  | error e => exact .throw e
  | ok request => exact Decomposition.enqueueEach_only _ _ _ _

/-- The parts of `triage_request` that depend on the lens. -/
def triage : Triage where
  sha256 := intake.sha256
  fromWorkstream row := (intake.request row).map FeatureRequest.fromWorkstream
  evaluate row := (intake.request row).map fun request => (intake.lens row request).toTriageDecision
  decompose := ⟨intake.decompose, fun id row => holds_roleOutline
    ((intake.decompose_only id row).mono fun o ⟨_, _, ho, _⟩ => by rw [ho]; rfl)⟩

end Intake

/-! ## A request that has been triaged before -/

/-- Another value under one key leaves the other keys alone. -/
theorem lookup_setKey {doc : Doc} {key key' : String} {value : Json Empty} (h : key' ≠ key) :
    (setKey doc key value).lookup key' = doc.lookup key' := by
  have hmap : (doc.map fun kv => if kv.1 = key then (key, value) else kv).lookup key' =
      doc.lookup key' := by
    induction doc with
    | nil => rfl
    | cons kv doc ih =>
        obtain ⟨k, v⟩ := kv
        by_cases hk : k = key
        · subst hk
          simp only [List.map_cons, if_true, List.lookup_cons, beq_false_of_ne h]
          exact ih
        · simp only [List.map_cons, if_neg hk, List.lookup_cons]
          rw [ih]
  unfold setKey
  split
  · exact hmap
  · rw [List.lookup_append, List.lookup_cons, beq_false_of_ne h]
    simp only [List.lookup_nil, Option.or_none]

theorem lookup_mergeDoc {doc patch : Doc} {key : String} (h : ∀ kv ∈ patch, key ≠ kv.1) :
    (mergeDoc doc patch).lookup key = doc.lookup key := by
  unfold mergeDoc
  induction patch generalizing doc with
  | nil => rfl
  | cons kv patch ih =>
      rw [List.foldl_cons, ih fun kv' hkv' => h kv' (List.mem_cons_of_mem _ hkv'),
        lookup_setKey (h kv List.mem_cons_self)]

/-- The keys that a triage writes. -/
theorem key_of_requestPatch {status reason : String} {workTaskIds : Option (List String)}
    {kv : String × Json Empty} (h : kv ∈ requestPatch status reason workTaskIds) :
    kv.1 ∈ triageKeys := by
  unfold requestPatch at h
  rcases List.mem_append.1 h with h | h
  · rcases List.mem_append.1 h with h | h
    · rw [List.mem_singleton.1 h]
      exact List.mem_cons_self
    · split at h
      · cases h
      · rw [List.mem_singleton.1 h]
        exact List.mem_cons_of_mem _ List.mem_cons_self
  · cases workTaskIds with
    | none => cases h
    | some ids =>
        rw [List.mem_singleton.1 h]
        exact List.mem_cons_of_mem _ (List.mem_cons_of_mem _ List.mem_cons_self)

/-- **What a triage writes into the payload does not change the request.** -/
theorem FeatureRequest.fromPayload_patch (readInteger : Json Empty → Option Int) (payload : Doc)
    (status reason : String) (workTaskIds : Option (List String)) :
    fromPayload readInteger (mergeDoc payload (requestPatch status reason workTaskIds)) =
      fromPayload readInteger payload := by
  have hlookup : ∀ key ∉ triageKeys,
      (mergeDoc payload (requestPatch status reason workTaskIds)).lookup key = payload.lookup key := by
    intro key hkey
    refine lookup_mergeDoc fun kv hkv heq => hkey ?_
    rw [heq]
    exact key_of_requestPatch hkv
  have hfield : ∀ {α : Type} {key : String}, key ∉ triageKeys → ∀ expected (read : Json Empty → Option α)
      default, field (mergeDoc payload (requestPatch status reason workTaskIds)) key expected read
        default = field payload key expected read default := by
    intro α key hkey expected read default
    unfold field
    rw [hlookup key hkey]
  unfold fromPayload
  rw [hfield (by decide), hfield (by decide), hfield (by decide), hfield (by decide),
    hfield (by decide), hfield (by decide), hfield (by decide), hfield (by decide),
    hfield (by decide), hfield (by decide)]

end AiStudio.Runtime
