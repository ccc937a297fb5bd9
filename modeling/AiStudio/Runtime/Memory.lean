import AiStudio.Concurrency.Schedule
import AiStudio.Data.Sql
import AiStudio.Data.Table
import AiStudio.Data.Text
import AiStudio.Runtime.Models

/-!
# The memory of the agents

Embeds `runtime/memory/models.py`, `PostgresVectorStore` of `vector.py` and `api.py`. Who may see
an item is written twice, as the `WHERE` of a query and as a predicate in Python; the two are one
on every scope a recall accepts (`selects_scopeWhere`). What a recall returns was written, at the
layer it asks for, by a call for its own scope, or it is a long-term item, or it was written for
the workstream `*`, which is the corpus of all (`memory_isolated`).

How a text becomes a vector and how two vectors compare is a parameter, and so is the order in
which the database returns rows.
-/

set_option autoImplicit false

namespace AiStudio.Runtime.Memory

open AiStudio.Data AiStudio.Data.Sql AiStudio.Concurrency

/-! ## Scopes and items -/

/-- `GLOBAL_WORKSTREAM`. -/
def globalWorkstream : String := "*"

/-- `MemoryLayer`. -/
inductive MemoryLayer where
  | episode
  | project
  | knowledge
  | longterm
  deriving DecidableEq, Repr

/-- The wire string of a layer. -/
def MemoryLayer.value : MemoryLayer → String
  | episode => "episode"
  | project => "project"
  | knowledge => "knowledge"
  | longterm => "longterm"

/-- `Scope`. -/
structure Scope where
  workstream : String
  project : Option String := none
  episode : Option String := none
  deriving DecidableEq

/-- `MemoryItem`, with an embedding over `V`; the id it is stored under is its key. -/
structure MemoryItem (V : Type) where
  layer : MemoryLayer
  workstream : String
  project : Option String
  episode : Option String
  text : String
  metadata : Doc
  embedding : List V

/-- The columns a scope constrains. -/
inductive Column where
  | layer
  | workstream
  | project
  | episode
  deriving DecidableEq

def Column.name : Column → String
  | layer => "layer"
  | workstream => "workstream"
  | project => "project"
  | episode => "episode"

variable {V : Type}

/-- The columns of a stored item. -/
def MemoryItem.columns (item : MemoryItem V) : Column → Option String
  | .layer => some item.layer.value
  | .workstream => some item.workstream
  | .project => item.project
  | .episode => item.episode

/-- `scope_where`. -/
def scopeWhere (layer : MemoryLayer) (scope : Scope) (includeGlobalKnowledge : Bool) :
    List (Clause Column) :=
  ⟨.layer, [some layer.value]⟩ ::
    match layer with
    | .episode =>
        [⟨.workstream, [some scope.workstream]⟩, ⟨.project, [scope.project]⟩,
          ⟨.episode, [scope.episode]⟩]
    | .project => [⟨.workstream, [some scope.workstream]⟩, ⟨.project, [scope.project]⟩]
    | .knowledge =>
        if includeGlobalKnowledge then
          [⟨.workstream, [some scope.workstream, some globalWorkstream]⟩]
        else [⟨.workstream, [some scope.workstream]⟩]
    | .longterm => []

/-- The text of the query's condition. -/
def whereText (clauses : List (Clause Column)) : String :=
  " AND ".intercalate (clauses.map (Clause.text Column.name))

example : whereText (scopeWhere .knowledge ⟨"alpha", none, none⟩ true) =
    "layer = %s AND workstream IN (%s, %s)" := by decide

/-- `in_scope`. -/
def inScope (item : MemoryItem V) (layer : MemoryLayer) (scope : Scope)
    (includeGlobalKnowledge : Bool) : Bool :=
  if item.layer ≠ layer then false
  else
    match layer with
    | .episode => item.workstream = scope.workstream && item.project = scope.project &&
        item.episode = scope.episode
    | .project => item.workstream = scope.workstream && item.project = scope.project
    | .knowledge =>
        if item.workstream = scope.workstream then true
        else includeGlobalKnowledge && item.workstream = globalWorkstream
    | .longterm => true

/-- `not scope.project`: there is none, or it is empty. -/
def missing (text : Option String) : Bool := text.getD "" = ""

/-- `_validate_for_read`. -/
def validateForRead (layer : MemoryLayer) (scope : Scope) : Except Exn Unit :=
  if scope.workstream = "" then .error (.valueError "scope.workstream is required")
  else if layer = .episode && (missing scope.project || missing scope.episode) then
    .error (.valueError "episode recall requires scope.project and scope.episode")
  else if layer = .project && missing scope.project then
    .error (.valueError "project recall requires scope.project")
  else .ok ()

/-- `_normalize_for_write`. -/
def normalizeForWrite (layer : MemoryLayer) (scope : Scope) : Except Exn Scope :=
  if scope.workstream = "" then .error (.valueError "scope.workstream is required")
  else
    match layer with
    | .episode =>
        if missing scope.project || missing scope.episode then
          .error (.valueError "episode layer requires scope.project and scope.episode")
        else .ok scope
    | .project =>
        if missing scope.project then .error (.valueError "project layer requires scope.project")
        else .ok { workstream := scope.workstream, project := scope.project }
    | .knowledge => .ok { workstream := scope.workstream }
    | .longterm => .ok { workstream := scope.workstream }

/-! ## The two readings of a scope -/

theorem MemoryLayer.value_injective : Function.Injective MemoryLayer.value := by
  intro layer layer' h
  cases layer <;> cases layer' <;> first | rfl | exact absurd h (by decide)

theorem exists_of_not_missing {text : Option String} (h : missing text = false) :
    ∃ x, text = some x := by
  cases text with
  | none => exact absurd h (by decide)
  | some x => exact ⟨x, rfl⟩

/-- What a recall at the episode layer has. -/
theorem episode_of_validate {scope : Scope} (h : validateForRead .episode scope = .ok ()) :
    (∃ project, scope.project = some project) ∧ ∃ episode, scope.episode = some episode := by
  unfold validateForRead at h
  split at h
  · cases h
  · split at h
    · cases h
    · rename_i hmissing
      simp only [decide_true, Bool.true_and, Bool.not_eq_true, Bool.or_eq_false_iff] at hmissing
      exact ⟨exists_of_not_missing hmissing.1, exists_of_not_missing hmissing.2⟩

/-- What a recall at the project layer has. -/
theorem project_of_validate {scope : Scope} (h : validateForRead .project scope = .ok ()) :
    ∃ project, scope.project = some project := by
  unfold validateForRead at h
  split at h
  · cases h
  · rw [if_neg (by simp)] at h
    split at h
    · cases h
    · rename_i hmissing
      simp only [decide_true, Bool.true_and, Bool.not_eq_true] at hmissing
      exact exists_of_not_missing hmissing

/-- **The query and the predicate select the same items**, on every scope a recall accepts. -/
theorem selects_scopeWhere {layer : MemoryLayer} {scope : Scope}
    (h : validateForRead layer scope = .ok ()) (includeGlobalKnowledge : Bool)
    (item : MemoryItem V) :
    Clause.selects item.columns (scopeWhere layer scope includeGlobalKnowledge) =
      inScope item layer scope includeGlobalKnowledge := by
  rw [Bool.eq_iff_iff, Clause.selects_iff]
  unfold scopeWhere inScope
  rw [List.forall_mem_cons]
  have hlayer : (∃ x, item.columns .layer = some x ∧ some x ∈ [some layer.value]) ↔
      item.layer = layer := by
    simp [MemoryItem.columns, MemoryLayer.value_injective.eq_iff]
  rw [hlayer]
  by_cases heq : item.layer = layer
  · rw [if_neg (not_not.2 heq)]
    simp only [heq, true_and]
    cases layer with
    | episode =>
        obtain ⟨⟨project, hproject⟩, episode, hepisode⟩ := episode_of_validate h
        simp [MemoryItem.columns, hproject, hepisode, and_assoc]
    | project =>
        obtain ⟨project, hproject⟩ := project_of_validate h
        simp [MemoryItem.columns, hproject]
    | knowledge =>
        cases includeGlobalKnowledge with
        | true => simp [MemoryItem.columns]
        | false => simp [MemoryItem.columns]
    | longterm => simp
  · simp [heq]

/-! ## Remembering and recalling -/

/-- The embeddings, and the order in which the database returns the rows of a query: the source
asks for none. -/
structure Backend (V : Type) where
  embed : String → Except Exn (List V)
  cosine : List V → List V → V
  le : V → V → Bool
  fetch : List (Uuid × MemoryItem V) → List (Uuid × MemoryItem V)
  perm_fetch : ∀ rows, (fetch rows).Perm rows

/-- An event of the memory. -/
structure MemoryEvent where
  workstream : String
  type : String
  payload : Doc

/-- `memory_items`, and the events about it. -/
structure Corpus (V : Type) where
  items : Table Uuid (MemoryItem V)
  events : List MemoryEvent

/-- A statement of the memory, each a transaction. -/
inductive MemoryOp (V : Type) where
  | insert (id : Uuid) (item : MemoryItem V)
  | select (clauses : List (Clause Column))
  | appendEvent (event : MemoryEvent)

def MemoryOp.Res : MemoryOp V → Type
  | insert .. => Unit
  | select _ => List (Uuid × MemoryItem V)
  | appendEvent _ => Unit

/-- The table as the statements see it; the database gives an item an id no other has. -/
def memory (b : Backend V) : Interface (Corpus V) Exn where
  Op := MemoryOp V
  Res := MemoryOp.Res
  exec
    | .insert id item => fun s =>
        match s.items.insert? id item with
        | none => .error (.integrityError "memory_items_pkey")
        | some items => .ok ((), { s with items := items })
    | .select clauses => fun s =>
        .ok (b.fetch (s.items.select fun _ item => Clause.selects item.columns clauses), s)
    | .appendEvent event => fun s => .ok ((), { s with events := s.events ++ [event] })

variable (b : Backend V)

/-- The item `remember` stores. -/
def rememberedItem (scope : Scope) (layer : MemoryLayer) (text : String) (metadata : Option Doc) :
    Except Exn (MemoryItem V) := do
  if strip text = "" then throw (.valueError "cannot remember empty text")
  let norm ← normalizeForWrite layer scope
  let vector ← b.embed text
  return { layer := layer, workstream := norm.workstream, project := norm.project
           episode := norm.episode, text := text, metadata := metadata.getD []
           embedding := vector }

/-- The event of a remembered item. -/
def rememberedEvent (id : Uuid) (item : MemoryItem V) (metadata : Option Doc) : MemoryEvent where
  workstream := item.workstream
  type := "memory.remembered"
  payload := [("layer", .str item.layer.value), ("workstream", .str item.workstream),
    ("project", .ofOption .str item.project), ("episode", .ofOption .str item.episode),
    ("item_id", .str id.text), ("dims", .int item.embedding.length),
    ("has_metadata", .bool (metadata.any fun doc => !doc.isEmpty))]

/-- `remember`, the database drawing `newId`. -/
def remember (newId : Uuid) (scope : Scope) (layer : MemoryLayer) (text : String)
    (metadata : Option Doc) : Program (memory b) (Uuid × MemoryItem V) :=
  match rememberedItem b scope layer text metadata with
  | .error e => .throw e
  | .ok item =>
      (Program.op (I := memory b) (.insert newId item)).bind fun _ =>
        (Program.op (I := memory b) (.appendEvent (rememberedEvent newId item metadata))).bind
          fun _ => .ret (newId, item)

/-- `search`: the candidates of the query, checked again, the best `k` of them with their
scores. -/
def search (layer : MemoryLayer) (scope : Scope) (queryVec : List V) (k : Int)
    (includeGlobalKnowledge : Bool) : Program (memory b) (List ((Uuid × MemoryItem V) × V)) :=
  (Program.op (I := memory b) (.select (scopeWhere layer scope includeGlobalKnowledge))).bind
    fun (rows : List (Uuid × MemoryItem V)) =>
      let visible := rows.filter fun row => inScope row.2 layer scope includeGlobalKnowledge
      let scored := visible.map fun row => (row, b.cosine queryVec row.2.embedding)
      .ret ((scored.mergeSort fun x y => b.le y.2 x.2).take k.toNat)

/-- The event of a recall. -/
def recalledEvent (scope : Scope) (layer : MemoryLayer) (k : Int) (count : Nat) : MemoryEvent where
  workstream := scope.workstream
  type := "memory.recalled"
  payload := [("layer", .str layer.value), ("workstream", .str scope.workstream),
    ("project", .ofOption .str scope.project), ("episode", .ofOption .str scope.episode),
    ("k", .int k), ("count", .int count)]

/-- `recall`. -/
def recallItems (scope : Scope) (layer : MemoryLayer) (query : String) (k : Int)
    (includeGlobalKnowledge : Bool) (minScore : Option V) :
    Program (memory b) (List (Uuid × MemoryItem V)) :=
  match validateForRead layer scope with
  | .error e => .throw e
  | .ok _ =>
      match b.embed query with
      | .error e => .throw e
      | .ok queryVec =>
          (search b layer scope queryVec k includeGlobalKnowledge).bind fun scored =>
            let kept := match minScore with
              | none => scored
              | some floor => scored.filter fun pair => b.le floor pair.2
            let items := kept.map Prod.fst
            (Program.op (I := memory b)
              (.appendEvent (recalledEvent scope layer k items.length))).bind fun _ => .ret items

/-- The metadata of a lesson. -/
def lessonMetadata (metadata : Option Doc) : Doc :=
  let given := metadata.getD []
  if (given.lookup "kind").isSome then given else given ++ [("kind", .str "lesson")]

/-- `add_lesson`. -/
def addLesson (newId : Uuid) (workstream text : String) (metadata : Option Doc)
    (globalLesson : Bool) : Program (memory b) (Uuid × MemoryItem V) :=
  remember b newId { workstream := if globalLesson then globalWorkstream else workstream }
    .knowledge text (some (lessonMetadata metadata))

/-- `recall_lessons`. -/
def recallLessons (workstream query : String) (k : Int) (includeGlobal : Bool)
    (minScore : Option V) : Program (memory b) (List (Uuid × MemoryItem V)) :=
  recallItems b { workstream := workstream } .knowledge query k includeGlobal minScore

/-! ## Who wrote what -/

/-- A call that writes. -/
inductive WriteCall where
  | remember (scope : Scope) (layer : MemoryLayer) (text : String) (metadata : Option Doc)
  | addLesson (workstream text : String) (metadata : Option Doc) (globalLesson : Bool)

namespace WriteCall

/-- The layer a call writes at. -/
def layer : WriteCall → MemoryLayer
  | remember _ layer _ _ => layer
  | addLesson .. => .knowledge

/-- The scope of a call; that of a global lesson is the corpus of all. -/
def scope : WriteCall → Scope
  | remember scope _ _ _ => scope
  | addLesson workstream _ _ globalLesson =>
      { workstream := if globalLesson then globalWorkstream else workstream }

/-- The call is a lesson for everybody. -/
def isGlobalLesson : WriteCall → Bool
  | addLesson _ _ _ globalLesson => globalLesson
  | remember .. => false

/-- The text and the metadata a call stores. -/
def content : WriteCall → String × Option Doc
  | remember _ _ text metadata => (text, metadata)
  | addLesson _ text metadata _ => (text, some (lessonMetadata metadata))

/-- The item a call stores. -/
def item (call : WriteCall) : Except Exn (MemoryItem V) :=
  rememberedItem b call.scope call.layer call.content.1 call.content.2

/-- The call itself. -/
def program (newId : Uuid) : WriteCall → Program (memory b) (Uuid × MemoryItem V)
  | remember scope layer text metadata => Memory.remember b newId scope layer text metadata
  | addLesson workstream text metadata globalLesson =>
      Memory.addLesson b newId workstream text metadata globalLesson

end WriteCall

/-- A process that writes through `remember` and `add_lesson`, whatever it makes of their
outcomes; each statement carries the call it is made for. -/
inductive Writes {α : Type} : Program ((memory b).tagged WriteCall) α → Prop where
  | ret (a : α) : Writes (.ret a)
  | throw (e : Exn) : Writes (.throw e)
  | call (call : WriteCall) (newId : Uuid)
      {k : Except Exn (Uuid × MemoryItem V) → Program ((memory b).tagged WriteCall) α}
      (next : ∀ r, Writes (k r)) : Writes (((call.program b newId).tag call).attempt.bind k)

variable {b}

/-- The statement, where it stores an item, stores that of its call. -/
def Faithful (b : Backend V) (o : WriteCall × MemoryOp V) : Prop :=
  ∀ id item, o.2 = .insert id item → o.1.item b = .ok item

theorem WriteCall.only_program (newId : Uuid) (call : WriteCall) :
    (call.program b newId).Only fun o => Faithful b (call, o) := by
  have hremember : call.program b newId =
      Memory.remember b newId call.scope call.layer call.content.1 call.content.2 := by
    cases call <;> rfl
  rw [hremember, Memory.remember]
  cases hitem : rememberedItem b call.scope call.layer call.content.1 call.content.2 with
  | error e => exact .throw e
  | ok item =>
      refine .bind (.op ?_) fun _ => .bind (.op ?_) fun _ => .ret _
      · intro id item' heq
        obtain ⟨-, rfl⟩ := MemoryOp.insert.inj heq
        exact hitem
      · intro id item' heq
        cases heq

theorem Writes.only {α : Type} {p : Program ((memory b).tagged WriteCall) α} (h : Writes b p) :
    p.Only (Faithful b) := by
  induction h with
  | ret a => exact .ret a
  | throw e => exact .throw e
  | call call newId next ih =>
      exact .bind (.attempt (.tag (fun _ h => h) (call.only_program newId))) ih

/-- **What a statement does to the items.** -/
theorem find?_exec {o : MemoryOp V} {out : Except Exn (MemoryOp.Res o)} {s s' : Corpus V}
    (h : (∃ v, out = .ok v ∧ (memory b).exec o s = .ok (v, s')) ∨ ∃ e, out = .error e ∧ s' = s)
    (id : Uuid) (item : MemoryItem V) :
    s'.items.find? id = some item ↔
      s.items.find? id = some item ∨ o = .insert id item ∧ ∃ v, out = .ok v := by
  rcases h with ⟨v, rfl, hexec⟩ | ⟨e, rfl, rfl⟩
  · cases o with
    | insert id' item' =>
        change (match s.items.insert? id' item' with
          | none => (Except.error (.integrityError "memory_items_pkey") : Except Exn (Unit × Corpus V))
          | some items => Except.ok ((), { s with items := items })) = .ok (v, s') at hexec
        cases hinsert : s.items.insert? id' item' with
        | none => rw [hinsert] at hexec; cases hexec
        | some items =>
            rw [hinsert] at hexec
            obtain rfl : { s with items := items } = s' := (Prod.mk.inj (Except.ok.inj hexec)).2
            obtain ⟨hfresh, -⟩ := Table.insert?_eq_some hinsert
            rw [Table.find?_insert hinsert]
            by_cases hid : id = id'
            · subst hid
              simp [hfresh, eq_comm]
            · simp [hid, Ne.symm hid]
    | select clauses =>
        obtain rfl : s = s' := (Prod.mk.inj (Except.ok.inj hexec)).2
        simp
    | appendEvent event =>
        obtain rfl : { s with events := s.events ++ [event] } = s' :=
          (Prod.mk.inj (Except.ok.inj hexec)).2
        simp
  · simp

section Runs

variable {P α : Type} [DecidableEq P]

/-- The step stores this item under this id. -/
def Stores (st : Step ((memory b).tagged WriteCall) P α) (id : Uuid) (item : MemoryItem V) :
    Prop :=
  st.op.2 = .insert id item ∧ ∃ v, st.out = .ok v

/-- **The items are those that were stored.** -/
theorem find?_reach {pool : P → Program ((memory b).tagged WriteCall) α} {events : List MemoryEvent}
    {τ : List (Step ((memory b).tagged WriteCall) P α)}
    {c' : Config ((memory b).tagged WriteCall) P α}
    (h : Reach ⟨⟨Table.empty, events⟩, pool⟩ τ c') (id : Uuid) (item : MemoryItem V) :
    c'.state.items.find? id = some item ↔ ∃ st ∈ τ, Stores st id item := by
  refine h.induct (motive := fun τ c' => c'.state.items.find? id = some item ↔
    ∃ st ∈ τ, Stores st id item) (by simp) ?_
  intro τ st hreach hf ih
  have hstep := @find?_exec V b st.op.2 st.out st.before.state st.after.state hf.outcome
    id item
  rw [hstep, ih]
  constructor
  · rintro (⟨st', hst', hstores⟩ | hstores)
    · exact ⟨st', List.mem_append_left _ hst', hstores⟩
    · exact ⟨st, List.mem_append_right _ (List.mem_singleton_self _), hstores⟩
  · rintro ⟨st', hst', hstores⟩
    rcases List.mem_append.1 hst' with hst' | hst'
    · exact .inl ⟨st', hst', hstores⟩
    · obtain rfl := List.mem_singleton.1 hst'
      exact .inr hstores

end Runs

/-! ## What a recall returns -/

/-- Two scopes agree on the columns a layer needs. -/
def Agrees : MemoryLayer → Scope → Scope → Prop
  | .episode, s, s' => s.workstream = s'.workstream ∧ s.project = s'.project ∧ s.episode = s'.episode
  | .project, s, s' => s.workstream = s'.workstream ∧ s.project = s'.project
  | .knowledge, s, s' => s.workstream = s'.workstream
  | .longterm, _, _ => True

/-- The scope a write is normalized to keeps what the layer needs. -/
theorem agrees_of_normalize {layer : MemoryLayer} {scope norm : Scope}
    (h : normalizeForWrite layer scope = .ok norm) :
    Agrees layer norm scope ∧ norm.workstream = scope.workstream := by
  unfold normalizeForWrite at h
  split at h
  · cases h
  · cases layer with
    | episode =>
        simp only at h
        split at h
        · cases h
        · obtain rfl := Except.ok.inj h
          exact ⟨⟨rfl, rfl, rfl⟩, rfl⟩
    | project =>
        simp only at h
        split at h
        · cases h
        · obtain rfl := Except.ok.inj h
          exact ⟨⟨rfl, rfl⟩, rfl⟩
    | knowledge =>
        obtain rfl := Except.ok.inj h
        exact ⟨rfl, rfl⟩
    | longterm =>
        obtain rfl := Except.ok.inj h
        exact ⟨trivial, rfl⟩

/-- The scope an item is stored under. -/
def MemoryItem.scope (item : MemoryItem V) : Scope where
  workstream := item.workstream
  project := item.project
  episode := item.episode

/-- What a call stores. -/
theorem WriteCall.item_eq {call : WriteCall} {item : MemoryItem V} (h : call.item b = .ok item) :
    item.layer = call.layer ∧ Agrees call.layer item.scope call.scope ∧
      item.workstream = call.scope.workstream := by
  unfold WriteCall.item rememberedItem at h
  by_cases hblank : strip call.content.1 = ""
  · rw [if_pos hblank] at h
    cases h
  · rw [if_neg hblank] at h
    cases hnorm : normalizeForWrite call.layer call.scope with
    | error e => rw [hnorm] at h; cases h
    | ok norm =>
        cases hembed : b.embed call.content.1 with
        | error e => rw [hnorm, hembed] at h; cases h
        | ok vector =>
            rw [hnorm, hembed] at h
            obtain rfl := Except.ok.inj h
            obtain ⟨hagrees, hworkstream⟩ := agrees_of_normalize hnorm
            exact ⟨rfl, hagrees, hworkstream⟩

/-- What a scope sees is stored under a scope that agrees with it, or is global. -/
theorem agrees_of_inScope {item : MemoryItem V} {layer : MemoryLayer} {scope : Scope}
    {includeGlobalKnowledge : Bool} (h : inScope item layer scope includeGlobalKnowledge = true) :
    item.layer = layer ∧ (Agrees layer scope item.scope ∨
      layer = .knowledge ∧ item.workstream = globalWorkstream) := by
  unfold inScope at h
  split at h
  · cases h
  · rename_i hlayer
    refine ⟨not_not.1 hlayer, ?_⟩
    cases layer with
    | episode =>
        simp only [Bool.and_eq_true, decide_eq_true_eq] at h
        obtain ⟨⟨hworkstream, hproject⟩, hepisode⟩ := h
        exact .inl ⟨hworkstream.symm, hproject.symm, hepisode.symm⟩
    | project =>
        simp only [Bool.and_eq_true, decide_eq_true_eq] at h
        obtain ⟨hworkstream, hproject⟩ := h
        exact .inl ⟨hworkstream.symm, hproject.symm⟩
    | knowledge =>
        simp only at h
        split at h
        · rename_i hworkstream
          exact .inl hworkstream.symm
        · rw [Bool.and_eq_true, decide_eq_true_eq] at h
          exact .inr ⟨rfl, h.2⟩
    | longterm => exact .inl trivial

theorem Agrees.trans {layer : MemoryLayer} {s s' s'' : Scope} (h : Agrees layer s s')
    (h' : Agrees layer s' s'') : Agrees layer s s'' := by
  cases layer with
  | episode => exact ⟨h.1.trans h'.1, h.2.1.trans h'.2.1, h.2.2.trans h'.2.2⟩
  | project => exact ⟨h.1.trans h'.1, h.2.trans h'.2⟩
  | knowledge => exact Eq.trans h h'
  | longterm => trivial

/-- What a search finds is stored, and in its scope. -/
theorem search_spec {layer : MemoryLayer} {scope : Scope} {queryVec : List V} {k : Int}
    {includeGlobalKnowledge : Bool} {s : Corpus V} :
    ∃ scored, (search b layer scope queryVec k includeGlobalKnowledge).eval s = (.ok scored, s) ∧
      ∀ pair ∈ scored, s.items.find? pair.1.1 = some pair.1.2 ∧
        inScope pair.1.2 layer scope includeGlobalKnowledge = true := by
  refine ⟨_, rfl, ?_⟩
  intro pair hpair
  have hscored := List.mem_mergeSort.1 (List.mem_of_mem_take hpair)
  obtain ⟨row, hrow, rfl⟩ := List.mem_map.1 hscored
  obtain ⟨hfetched, hvisible⟩ := List.mem_filter.1 hrow
  have hselected := ((b.perm_fetch _).mem_iff).1 hfetched
  exact ⟨((Table.mem_select _ _ _ _).1 hselected).1, hvisible⟩

/-- **What a recall returns** is stored, and in its scope. -/
theorem recall_spec {scope : Scope} {layer : MemoryLayer} {query : String} {k : Int}
    {includeGlobalKnowledge : Bool} {minScore : Option V} {s s' : Corpus V}
    {items : List (Uuid × MemoryItem V)}
    (h : (recallItems b scope layer query k includeGlobalKnowledge minScore).eval s = (.ok items, s')) :
    ∀ row ∈ items, s.items.find? row.1 = some row.2 ∧
      inScope row.2 layer scope includeGlobalKnowledge = true := by
  unfold recallItems at h
  cases hvalid : validateForRead layer scope with
  | error e => rw [hvalid] at h; cases h
  | ok u =>
      cases hembed : b.embed query with
      | error e => rw [hvalid, hembed] at h; cases h
      | ok queryVec =>
          simp only [hvalid, hembed] at h
          obtain ⟨scored, hsearch, hscored⟩ :=
            @search_spec V b layer scope queryVec k includeGlobalKnowledge s
          rw [Program.eval_bind_ok hsearch] at h
          obtain rfl := Except.ok.inj (congrArg Prod.fst h)
          intro row hrow
          obtain ⟨pair, hpair, rfl⟩ := List.mem_map.1 hrow
          refine hscored pair ?_
          cases minScore with
          | none => exact hpair
          | some floor => exact List.mem_of_mem_filter hpair

section Isolation

variable {P α : Type} [DecidableEq P]

/-- What may be returned to a scope at a layer: an item that was written there by a call for a
scope that agrees, a long-term item, or one of a call that writes for everybody; and no lesson for
another workstream by a call that does not. -/
structure Isolated (everybody : WriteCall → Prop) (τ : List (Step ((memory b).tagged WriteCall) P α))
    (scope : Scope) (layer : MemoryLayer) (items : List (Uuid × MemoryItem V)) : Prop where
  written : ∀ row ∈ items, ∃ st ∈ τ, Stores st row.1 row.2 ∧ st.op.1.layer = layer ∧
    (Agrees layer scope st.op.1.scope ∨ layer = .longterm ∨ everybody st.op.1)
  hidden : ∀ st ∈ τ, ∀ id item, Stores st id item → ∀ workstream text metadata,
    st.op.1 = .addLesson workstream text metadata false → workstream ≠ scope.workstream →
      ¬ everybody st.op.1 → id ∉ items.map Prod.fst

/-- The call writes knowledge for the workstream that stands for all. -/
def WriteCall.ForEverybody (call : WriteCall) : Prop :=
  call.layer = .knowledge ∧ call.scope.workstream = globalWorkstream

/-- What a scope sees of the items of a call. -/
theorem agrees_of_visible {call : WriteCall} {item : MemoryItem V} (hitem : call.item b = .ok item)
    {layer : MemoryLayer} {scope : Scope} {includeGlobalKnowledge : Bool}
    (h : inScope item layer scope includeGlobalKnowledge = true) :
    call.layer = layer ∧ (Agrees layer scope call.scope ∨ call.ForEverybody) := by
  obtain ⟨hlayer, hagrees, hworkstream⟩ := WriteCall.item_eq hitem
  obtain ⟨hseen, hscope⟩ := agrees_of_inScope h
  have hcall : call.layer = layer := hlayer.symm.trans hseen
  refine ⟨hcall, ?_⟩
  rcases hscope with hscope | ⟨hknowledge, hglobal⟩
  · rw [hcall] at hagrees
    exact .inl (hscope.trans hagrees)
  · exact .inr ⟨hcall.trans hknowledge, hworkstream.symm.trans hglobal⟩

/-- **What is stored and visible was written for the scope.** -/
theorem isolated_of_visible {pool : P → Program ((memory b).tagged WriteCall) α}
    {events : List MemoryEvent} {τ : List (Step ((memory b).tagged WriteCall) P α)}
    {c' : Config ((memory b).tagged WriteCall) P α} (h : Reach ⟨⟨Table.empty, events⟩, pool⟩ τ c')
    (hwrites : ∀ p, Writes b (pool p)) {scope : Scope} {layer : MemoryLayer}
    {includeGlobalKnowledge : Bool} {items : List (Uuid × MemoryItem V)}
    (hvisible : ∀ row ∈ items, c'.state.items.find? row.1 = some row.2 ∧
      inScope row.2 layer scope includeGlobalKnowledge = true) :
    Isolated WriteCall.ForEverybody τ scope layer items := by
  have hfaithful : ∀ st ∈ τ, ∀ id item, Stores st id item → st.op.1.item b = .ok item := by
    intro st hst id item hstores
    exact (h.only (hwrites st.pid).only).2 st hst rfl id item hstores.1
  constructor
  · intro row hrow
    obtain ⟨hfound, hseen⟩ := hvisible row hrow
    obtain ⟨st, hst, hstores⟩ := (find?_reach h row.1 row.2).1 hfound
    obtain ⟨hlayer, hscope⟩ := agrees_of_visible (hfaithful st hst _ _ hstores) hseen
    refine ⟨st, hst, hstores, hlayer, ?_⟩
    rcases hscope with hscope | heverybody
    · exact .inl hscope
    · exact .inr (.inr heverybody)
  · intro st hst id item hstores workstream text metadata hcall hother hnot hmem
    obtain ⟨row, hrow, rfl⟩ := List.mem_map.1 hmem
    obtain ⟨hfound, hseen⟩ := hvisible row hrow
    -- the id is that of one step, so the item returned is the one of the lesson
    have hsame := hfound.symm.trans ((find?_reach h row.1 item).2 ⟨st, hst, hstores⟩)
    rw [Option.some.inj hsame] at hseen
    obtain ⟨hlayer, hscope⟩ := agrees_of_visible (hfaithful st hst _ _ hstores) hseen
    rcases hscope with hscope | heverybody
    · rw [hcall] at hlayer hscope
      obtain rfl : MemoryLayer.knowledge = layer := hlayer
      exact hother (Eq.symm hscope)
    · exact hnot heverybody

/-- **Memory is isolated.** After any writes by any processes, what a recall returns was written
for its scope, is long-term, or was written for the workstream `*`; a lesson for another
workstream is not returned; and the query selects what the predicate accepts. -/
theorem memory_isolated {pool : P → Program ((memory b).tagged WriteCall) α}
    {events : List MemoryEvent} {τ : List (Step ((memory b).tagged WriteCall) P α)}
    {c' : Config ((memory b).tagged WriteCall) P α} (h : Reach ⟨⟨Table.empty, events⟩, pool⟩ τ c')
    (hwrites : ∀ p, Writes b (pool p)) :
    (∀ scope layer query k includeGlobalKnowledge minScore items s',
      (recallItems b scope layer query k includeGlobalKnowledge minScore).eval c'.state =
        (.ok items, s') → Isolated WriteCall.ForEverybody τ scope layer items) ∧
    (∀ workstream query k includeGlobal minScore items s',
      (recallLessons b workstream query k includeGlobal minScore).eval c'.state =
        (.ok items, s') →
          Isolated WriteCall.ForEverybody τ { workstream := workstream } .knowledge items) ∧
    ∀ scope layer includeGlobalKnowledge (item : MemoryItem V),
      validateForRead layer scope = .ok () →
        Clause.selects item.columns (scopeWhere layer scope includeGlobalKnowledge) =
          inScope item layer scope includeGlobalKnowledge := by
  refine ⟨?_, ?_, ?_⟩
  · intro scope layer query k includeGlobalKnowledge minScore items s' hrecall
    exact isolated_of_visible h hwrites (recall_spec hrecall)
  · intro workstream query k includeGlobal minScore items s' hrecall
    exact isolated_of_visible h hwrites (recall_spec hrecall)
  · intro scope layer includeGlobalKnowledge item hvalid
    exact selects_scopeWhere hvalid includeGlobalKnowledge item

end Isolation

/-! ## A lesson for the workstream `*` -/

/-- Texts that are all alike, in the order they were stored. -/
def alike : Backend Int where
  embed _ := .ok [1]
  cosine _ _ := 1
  le x y := x ≤ y
  fetch rows := rows
  perm_fetch rows := .refl rows

def lessonId : Uuid := ⟨"6d0b3a4e-51c7-4a0e-9f0e-7a1d2c3b4e11", by decide⟩

/-- A process that records a lesson of the workstream, not a global one. -/
def lessonOf (workstream : String) : Config ((memory alike).tagged WriteCall) Unit Unit :=
  ⟨⟨Table.empty, []⟩, fun _ =>
    (((WriteCall.addLesson workstream "run the migrations first" none false).program alike
      lessonId).tag (.addLesson workstream "run the migrations first" none false)).attempt.bind
        fun _ => .ret ()⟩

/-- What the workstream recalls of it. -/
def recalledBy (workstream reader : String) : Except Exn (List (Uuid × MemoryItem Int)) :=
  ((recallLessons alike reader "migrations" 5 true none).eval
    ((lessonOf workstream).run [((), none), ((), none)]).state).1

/-- **A lesson of the workstream `*` is everybody's**, global or not. -/
theorem starred_lesson_leaks :
    ¬ ∀ τ c', Reach (lessonOf "*") τ c' → ∀ items s',
      (recallLessons alike "alpha" "migrations" 5 true none).eval c'.state = (.ok items, s') →
        Isolated (fun call => call.isGlobalLesson = true) τ { workstream := "alpha" } .knowledge
          items := by
  intro hall
  have hrecalled : ((recalledBy "*" "alpha").toOption.any fun items => items.length = 1) = true := by
    decide +kernel
  have hcalls : ∀ st ∈ (lessonOf "*").trace [((), none), ((), none)],
      (!st.op.1.isGlobalLesson && st.op.1.scope.workstream ≠ "alpha") = true :=
    List.all_eq_true.1 (by decide)
  cases hitems : recalledBy "*" "alpha" with
  | error e =>
      rw [hitems] at hrecalled
      cases hrecalled
  | ok items =>
      rw [hitems] at hrecalled
      have hisolated := hall _ _ (Reach.of_run (lessonOf "*") [((), none), ((), none)]) items _
        (Prod.ext hitems rfl)
      obtain ⟨row, rfl⟩ := List.length_eq_one_iff.1 (of_decide_eq_true hrecalled)
      obtain ⟨st, hst, -, -, hscope⟩ := hisolated.written row (List.mem_singleton_self row)
      have hcall := hcalls st hst
      rw [Bool.and_eq_true, Bool.not_eq_true', decide_eq_true_eq] at hcall
      rcases hscope with hscope | hlong | hglobal
      · exact hcall.2 (Eq.symm hscope)
      · cases hlong
      · rw [hcall.1] at hglobal
        cases hglobal

/-- A lesson of its own workstream is recalled, and isolated. -/
theorem own_lesson_isolated :
    ∃ items, recalledBy "alpha" "alpha" = .ok items ∧ items.length = 1 ∧
      Isolated WriteCall.ForEverybody ((lessonOf "alpha").trace [((), none), ((), none)])
        { workstream := "alpha" } .knowledge items := by
  have hrecalled : ((recalledBy "alpha" "alpha").toOption.any fun items => items.length = 1) =
      true := by decide +kernel
  cases hitems : recalledBy "alpha" "alpha" with
  | error e =>
      rw [hitems] at hrecalled
      cases hrecalled
  | ok items =>
      rw [hitems] at hrecalled
      refine ⟨items, rfl, of_decide_eq_true hrecalled, ?_⟩
      exact (memory_isolated (Reach.of_run (lessonOf "alpha") [((), none), ((), none)])
        fun _ => .call _ _ fun _ => .ret ()).2.1 "alpha" "migrations" 5 true none items _
          (Prod.ext hitems rfl)

end AiStudio.Runtime.Memory
