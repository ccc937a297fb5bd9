import AiStudio.Data.JsonText
import AiStudio.Spokesman.Evidence

/-!
# No false verdict of fabrication

A claim is rejected exactly if one of its references is contradicted, so an honest identity is
struck exactly if the gate contradicts a reference that was rendered from the source of truth,
or one that asserts nothing it could check. `notRejected_iff` says when that does not happen: a
`db_row` reference must cite only values that survive being split at commas, stripped and
compared with Python's `str`, and an `event` reference to an existing event must name a type
some event may have.
-/

set_option autoImplicit false

namespace AiStudio.Spokesman

open AiStudio.Data AiStudio.Runtime

/-! ## Honest and ill-formed references -/

/-- The text shows the value of the cell: it is the `str` of the value, or how the server
writes a boolean or a number. -/
inductive Shows : Cell → String → Prop where
  | str (c : Cell) : Shows c c.str
  | bool (b : Bool) : Shows (.bool b) (if b then "true" else "false")
  | numeric (unscaled : Int) (scale : Nat) :
      Shows (.numeric unscaled scale) (plainDecimal unscaled scale)

/-- `col=value,...` for the columns and texts. -/
def citation (cited : List (String × String)) : String :=
  String.ofList ([','].intercalate (cited.map fun c => c.1.toList ++ '=' :: c.2.toList))

/-- The texts show the values that the row has in the columns. -/
def ShownIn (row : Row) (cited : List (String × String)) : Prop :=
  ∀ c ∈ cited, ∃ cell, row.lookup c.1 = some cell ∧ Shows cell c.2

namespace SourceOfTruth

variable (env : SourceOfTruth)

/-- What the reference expects was rendered from what its locator finds. -/
inductive Honest (ref : EvidenceRef) : Prop where
  | silent (expected : ref.expected = none)
  | event (row : Row) (kind : ref.kind = .event)
      (found : env.locateEvent ref.locator = .ok (some row))
      (expected : ref.expected = some (row.text "type"))
  | task (row : Row) (kind : ref.kind = .task)
      (found : env.locateTask ref.locator = .ok (some row))
      (expected : ref.expected = some (row.text "status"))
  | dbRow (row : Row) (cited : List (String × String)) (kind : ref.kind = .dbRow)
      (found : env.locateRow ref.locator = .ok (.ok row)) (shown : ShownIn row cited)
      (expected : ref.expected = some (citation cited))
  | metric (value : Nat) (kind : ref.kind = .metric)
      (found : env.metric? (strip ref.locator) = some value)
      (expected : ref.expected = some (toString value))
  | file (content : List UInt8) (kind : ref.kind = .file)
      (found : env.file (filePath ref.locator) = some (.ok content))
      (expected : ref.expected = some (env.sha256 content))

/-- The locator finds something to verify against. -/
def Finds (ref : EvidenceRef) : Prop :=
  match ref.kind with
  | .event => ∃ row, env.locateEvent ref.locator = .ok (some row)
  | .task => ∃ row, env.locateTask ref.locator = .ok (some row)
  | .dbRow => ∃ row, env.locateRow ref.locator = .ok (.ok row)
  | .metric => ∃ value, env.metric? (strip ref.locator) = some value
  | .file => ∃ content, env.file (filePath ref.locator) = some (.ok content)
  | .artifact => False

/-- The reference is not one of its kind: its locator leads nowhere, or what it expects is not
an assertion of the kind. `vocabulary` are the types an event may have. -/
inductive IllFormed (vocabulary : String → Prop) (ref : EvidenceRef) : Prop where
  | locator (nowhere : ¬ env.Finds ref)
  | event (e : String) (kind : ref.kind = .event) (expected : ref.expected = some e)
      (unknown : ¬ vocabulary e)
  | task (e : String) (kind : ref.kind = .task) (expected : ref.expected = some e)
      (unknown : strip e ∉ taskStatuses)
  | dbRow (e : String) (kind : ref.kind = .dbRow) (expected : ref.expected = some e)
      (unknown : ∀ row, env.locateRow ref.locator = .ok (.ok row) →
        ∀ field ∈ (parseExpectedFields (some e)).1, row.lookup field.1 = none)
  | metric (e : String) (kind : ref.kind = .metric) (expected : ref.expected = some e)
      (unknown : intOf e = .error "ValueError")
  | file (e : String) (kind : ref.kind = .file) (expected : ref.expected = some e)
      (unknown : isSha256Hex e = false)

/-- The cell is cited by a text that survives the parser: it is the `str` of the value, has no
comma, and no blanks around it. -/
structure Plain (cell : Cell) (text : String) : Prop where
  str : text = cell.str
  comma : ',' ∉ text.toList
  stripped : strip text = text

/-- The reference is safe from a false verdict. -/
structure Safe (vocabulary : String → Prop) (ref : EvidenceRef) : Prop where
  event : ref.kind = .event → env.Finds ref → ∀ e, ref.expected = some e → vocabulary e
  dbRow : ref.kind = .dbRow → ∀ row, env.locateRow ref.locator = .ok (.ok row) →
    ∀ cited, ShownIn row cited → ref.expected = some (citation cited) →
      ∀ c ∈ cited, ∀ cell, row.lookup c.1 = some cell → Plain cell c.2

end SourceOfTruth

/-- A sequence that succeeds does so at each of its steps. -/
theorem exists_of_bind_ok {ε α β : Type} {x : Except ε α} {f : α → Except ε β} {b : β}
    (h : x >>= f = .ok b) : ∃ a, x = .ok a ∧ f a = .ok b := by
  cases x with
  | error e => cases h
  | ok a => exact ⟨a, rfl, h⟩

/-! ## Citations -/

/-- Joined texts split into the pieces of each. -/
theorem splitOn_intercalate_flatMap {α : Type} [DecidableEq α] (a : α) {ls : List (List α)}
    (h : ls ≠ []) : ([a].intercalate ls).splitOn a = ls.flatMap (·.splitOn a) := by
  induction ls with
  | nil => exact absurd rfl h
  | cons l ls ih =>
      cases ls with
      | nil => simp
      | cons l' ls =>
          rw [List.intercalate_cons_cons, List.append_assoc, List.singleton_append,
            List.splitOn_append_cons_self, ih (by simp)]
          rfl

/-- The first piece of a citation of one column, and no other when its text has no comma. -/
theorem splitOn_segment {col t : List Char} (hcol : ',' ∉ col) :
    ∃ rest, (col ++ '=' :: t).splitOn ',' = (col ++ '=' :: t.takeWhile (· ≠ ',')) :: rest ∧
      (',' ∉ t → rest = []) := by
  by_cases ht : ',' ∈ t
  · obtain ⟨pre, post, rfl, hpre⟩ := List.eq_append_cons_of_mem ht
    have htake : (pre ++ ',' :: post).takeWhile (· ≠ ',') = pre := by
      rw [List.takeWhile_append_of_pos]
      · simp
      · intro c hc
        have hne : c ≠ ',' := fun h => hpre (h ▸ hc)
        simpa using hne
    refine ⟨post.splitOn ',', ?_, fun h => absurd ht h⟩
    rw [htake, ← List.cons_append, ← List.append_assoc, List.splitOn_append_cons_self,
      List.splitOn_eq_singleton (by simp [hcol, hpre]), List.singleton_append]
  · refine ⟨[], ?_, fun _ => rfl⟩
    have htake : t.takeWhile (· ≠ ',') = t := by
      rw [List.takeWhile_eq_self_iff]
      intro c hc
      have hne : c ≠ ',' := fun h => ht (h ▸ hc)
      simpa using hne
    rw [htake]
    refine List.splitOn_eq_singleton ?_
    simp [hcol, ht]

theorem isSpace_of_isAlphanum {c : Char} (h : c.isAlphanum = true ∨ c = '_') :
    isSpace c = false := by
  have hrange : 48 ≤ c.toNat ∧ c.toNat ≤ 122 := by
    rcases h with h | rfl
    · -- letters and digits are three ranges of code points
      change ((decide ('A'.val ≤ c.val ∧ c.val ≤ 'Z'.val) ||
        (decide ('a'.val ≤ c.val) && decide (c.val ≤ 'z'.val))) ||
        (decide ('0'.val ≤ c.val) && decide (c.val ≤ '9'.val))) = true at h
      simp only [Bool.or_eq_true, Bool.and_eq_true, decide_eq_true_eq, UInt32.le_iff_toNat_le] at h
      have hval : c.val.toNat = c.toNat := rfl
      simp only [hval] at h
      have h65 : 'A'.val.toNat = 65 := rfl
      have h90 : 'Z'.val.toNat = 90 := rfl
      have h97 : 'a'.val.toNat = 97 := rfl
      have h122 : 'z'.val.toNat = 122 := rfl
      have h48 : '0'.val.toNat = 48 := rfl
      have h57 : '9'.val.toNat = 57 := rfl
      omega
    · decide
  simp only [isSpace, Bool.or_eq_false_iff, Bool.and_eq_false_iff, decide_eq_false_iff_not]
  omega

/-- What a column may be named. -/
theorem isColumnName_iff {col : String} (h : isColumnName col = true) :
    col.toList ≠ [] ∧ ∀ c ∈ col.toList, c.isAlphanum = true ∨ c = '_' := by
  simp only [isColumnName, Bool.and_eq_true, Bool.not_eq_true', List.isEmpty_eq_false_iff,
    List.all_eq_true, Bool.or_eq_true, decide_eq_true_eq] at h
  exact h

theorem not_mem_of_isColumnName {col : String} (h : isColumnName col = true) {c : Char}
    (hc : c.isAlphanum = false) (hu : c ≠ '_') : c ∉ col.toList := by
  intro hmem
  rcases (isColumnName_iff h).2 c hmem with ha | rfl
  · rw [hc] at ha
    cases ha
  · exact hu rfl

/-- The parser reads back the column of a segment, and its value up to blanks. -/
theorem parseSegment_ok {col : String} (h : isColumnName col = true) (u : List Char) :
    parseSegment (String.ofList (col.toList ++ '=' :: u)) = .ok (col, strip (String.ofList u)) := by
  have heq : '=' ∉ col.toList := not_mem_of_isColumnName h (by decide) (by decide)
  have hall : ∀ c ∈ col.toList, (decide (c ≠ '=')) = true := by
    intro c hc
    have hne : c ≠ '=' := fun hceq => heq (hceq ▸ hc)
    simpa using hne
  have hstrip : strip col = col :=
    strip_of_forall fun c hc => isSpace_of_isAlphanum ((isColumnName_iff h).2 c hc)
  have hne : col ≠ "" := by
    rintro rfl
    exact (isColumnName_iff h).1 rfl
  have hhead : (partition '=' (String.ofList (col.toList ++ '=' :: u))) =
      (col, String.ofList u) := by
    rw [partition, String.toList_ofList, List.takeWhile_append_of_pos hall,
      List.dropWhile_append_of_pos hall]
    simp
  have hmem : '=' ∈ (String.ofList (col.toList ++ '=' :: u)).toList := by
    rw [String.toList_ofList]
    simp
  simp only [parseSegment, hmem, not_true_eq_false, if_false, hhead, hstrip, hne]

/-- The value the parser reads off a cited text: what stands before the first comma. -/
def readBack (text : String) : String := strip (String.ofList (text.toList.takeWhile (· ≠ ',')))

theorem citation_ne_empty {c : String × String} {cited : List (String × String)} :
    citation (c :: cited) ≠ "" := by
  intro h
  have hlist := congrArg String.toList h
  rw [citation, String.toList_ofList] at hlist
  cases cited <;> simp at hlist

/-- The pieces of a citation. -/
theorem splitCommas_citation {cited : List (String × String)} (h : cited ≠ []) :
    splitCommas (citation cited) =
      cited.flatMap fun c => ((c.1.toList ++ '=' :: c.2.toList).splitOn ',').map String.ofList := by
  rw [splitCommas, citation, String.toList_ofList,
    splitOn_intercalate_flatMap ',' (by simpa using h), List.map_flatMap, List.flatMap_map]

/-- A citation asserts of each column what is read back from its text. -/
theorem mem_fields_citation {cited : List (String × String)}
    (hnames : ∀ c ∈ cited, isColumnName c.1 = true) {c : String × String} (hc : c ∈ cited) :
    (c.1, readBack c.2) ∈ (parseExpectedFields (some (citation cited))).1 := by
  have hne : cited ≠ [] := List.ne_nil_of_mem hc
  obtain ⟨d, ds, rfl⟩ := List.exists_cons_of_ne_nil hne
  have hcomma : ',' ∉ c.1.toList := not_mem_of_isColumnName (hnames c hc) (by decide) (by decide)
  obtain ⟨rest, hsplit, -⟩ := splitOn_segment (t := c.2.toList) hcomma
  simp only [parseExpectedFields, Option.getD_some, citation_ne_empty, if_false]
  rw [splitCommas_citation hne, List.mem_filterMap]
  refine ⟨String.ofList (c.1.toList ++ '=' :: c.2.toList.takeWhile (· ≠ ',')), ?_, ?_⟩
  · rw [List.mem_flatMap]
    refine ⟨c, hc, List.mem_map.2 ⟨_, ?_, rfl⟩⟩
    rw [hsplit]
    exact List.mem_cons_self
  · rw [parseSegment_ok (hnames c hc)]
    rfl

/-- A citation of texts without commas and outer blanks is parsed back as it is. -/
theorem parse_citation {cited : List (String × String)}
    (hnames : ∀ c ∈ cited, isColumnName c.1 = true)
    (hplain : ∀ c ∈ cited, ',' ∉ c.2.toList ∧ strip c.2 = c.2) :
    parseExpectedFields (some (citation cited)) = (cited, []) := by
  have hpieces : ∀ c ∈ cited,
      ((c.1.toList ++ '=' :: c.2.toList).splitOn ',').map String.ofList =
        [String.ofList (c.1.toList ++ '=' :: c.2.toList)] := by
    intro c hc
    have hcomma : ',' ∉ c.1.toList := not_mem_of_isColumnName (hnames c hc) (by decide) (by decide)
    rw [List.splitOn_eq_singleton (by simp [hcomma, (hplain c hc).1])]
    rfl
  have hparse : ∀ c ∈ cited,
      parseSegment (String.ofList (c.1.toList ++ '=' :: c.2.toList)) = .ok c := by
    intro c hc
    rw [parseSegment_ok (hnames c hc), String.ofList_toList, (hplain c hc).2]
  have hparts : (if citation cited = "" then [] else splitCommas (citation cited)) =
      cited.map fun c => String.ofList (c.1.toList ++ '=' :: c.2.toList) := by
    cases cited with
    | nil => rfl
    | cons d ds =>
        rw [if_neg citation_ne_empty, splitCommas_citation (by simp), List.map_eq_flatMap]
        exact List.flatMap_congr hpieces
  simp only [parseExpectedFields, Option.getD_some, hparts, List.filterMap_map, Prod.mk.injEq]
  refine ⟨?_, ?_⟩
  · refine (List.filterMap_congr (g := some) fun c hc => ?_).trans List.filterMap_some
    rw [Function.comp_apply, hparse c hc]
    rfl
  · refine List.filterMap_eq_nil_iff.2 fun c hc => ?_
    rw [Function.comp_apply, hparse c hc]

/-! ## The scan of a row -/

/-- **The scan contradicts exactly if a field differs from the row.** -/
theorem scanFields_isLeft (row : Row) (fields : List (String × String)) (notes : List String) :
    (scanFields row fields notes).isLeft = true ↔
      ∃ field ∈ fields, ∃ got, row.lookup field.1 = some got ∧ got.str ≠ field.2 := by
  induction fields generalizing notes with
  | nil => simp [scanFields]
  | cons field fields ih =>
      obtain ⟨col, want⟩ := field
      simp only [scanFields, List.mem_cons, exists_eq_or_imp]
      cases hgot : row.lookup col with
      | none => simpa using ih _
      | some got =>
          by_cases hwant : got.str = want
          · simpa [hwant] using ih _
          · simp [hwant]

/-! ## What the verdict is -/

theorem judge_rejected {refs : List RefResolution} :
    (SourceOfTruth.judge refs).status = .rejected ↔ ∃ r ∈ refs, r.outcome = .contradicted := by
  unfold SourceOfTruth.judge
  cases hfind : refs.find? (·.outcome = .contradicted) with
  | some bad =>
      have hbad : bad.outcome = .contradicted := by simpa using List.find?_some hfind
      exact ⟨fun _ => ⟨bad, List.mem_of_find?_eq_some hfind, hbad⟩, fun _ => rfl⟩
  | none =>
      have hnone : ¬ ∃ r ∈ refs, r.outcome = .contradicted := by
        simpa using List.find?_eq_none.1 hfind
      dsimp only
      split
      · exact ⟨fun h => (by cases h), fun h => absurd h hnone⟩
      · split
        · exact ⟨fun h => (by cases h), fun h => absurd h hnone⟩
        · exact ⟨fun h => (by cases h), fun h => absurd h hnone⟩

namespace SourceOfTruth

variable {env : SourceOfTruth} {ref : EvidenceRef}

/-- **A claim is rejected exactly if one of its references is contradicted.** -/
theorem verifyClaim_rejected {claim : Claim} :
    (env.verifyClaim claim).status = .rejected ↔
      ∃ ref ∈ claim.evidence, (env.resolveRef ref).outcome = .contradicted := by
  rw [verifyClaim, judge_rejected]
  simp

/-- A contradiction comes from the resolver of the kind. -/
theorem resolver_of_contradicted (h : (env.resolveRef ref).outcome = .contradicted) :
    ∃ res, env.resolver ref = .ok res ∧ res.outcome = .contradicted := by
  cases hres : env.resolver ref with
  | error name =>
      simp [resolveRef, hres, bind, Except.bind, EvidenceRef.resolution] at h
  | ok res =>
      refine ⟨res, rfl, ?_⟩
      cases hauto : env.autocommit with
      | true => simpa [resolveRef, hres, hauto, bind, Except.bind, pure, Except.pure] using h
      | false =>
          cases hreach : env.reachable with
          | true => simpa [resolveRef, hres, hauto, hreach, query, bind, Except.bind] using h
          | false =>
              simp [resolveRef, hres, hauto, hreach, query, bind, Except.bind,
                EvidenceRef.resolution] at h

/-- What a resolver returns while the server is there is the resolution. -/
theorem resolveRef_eq {res : RefResolution} (hres : env.resolver ref = .ok res)
    (hreach : env.reachable = true) : env.resolveRef ref = res := by
  cases hauto : env.autocommit <;>
    simp [resolveRef, hres, hauto, hreach, query, bind, Except.bind, pure, Except.pure]

/-- A resolution that stands needed no transaction, or one that was committed. -/
theorem committed_of_contradicted (h : (env.resolveRef ref).outcome = .contradicted) :
    env.autocommit = true ∨ env.reachable = true := by
  by_contra hnot
  simp only [not_or, Bool.not_eq_true] at hnot
  cases hres : env.resolver ref with
  | error name => simp [resolveRef, hres, bind, Except.bind, EvidenceRef.resolution] at h
  | ok res =>
      simp [resolveRef, hres, hnot.1, hnot.2, query, bind, Except.bind, EvidenceRef.resolution] at h

theorem resolveRef_of_committed {res : RefResolution} (hres : env.resolver ref = .ok res)
    (hcommit : env.autocommit = true ∨ env.reachable = true) : env.resolveRef ref = res := by
  rcases hcommit with hauto | hreach
  · simp [resolveRef, hres, hauto, bind, Except.bind, pure, Except.pure]
  · exact resolveRef_eq hres hreach

theorem query_ok {α : Type} {a : Except String α} {x : α} (h : env.query a = .ok x) :
    env.reachable = true ∧ a = .ok x := by
  unfold query at h
  split at h
  · rename_i hreach
    exact ⟨hreach, h⟩
  · cases h

theorem mem_of_rowWith {table column : String} {value : Cell} {row : Row}
    (h : env.rowWith table column value = some row) : row ∈ (env.relation table).rows :=
  List.mem_of_find?_eq_some h

/-- The server has been reached for a row that was found. -/
theorem found_of_query {table column : String} {value : Cell} {row : Row}
    (h : env.query (.ok (env.rowWith table column value)) = .ok (some row)) :
    env.reachable = true ∧ row ∈ (env.relation table).rows := by
  obtain ⟨hreach, hrow⟩ := query_ok h
  exact ⟨hreach, mem_of_rowWith (Except.ok.inj hrow)⟩

/-- A located event is one of the log. -/
theorem found_of_locateEvent {locator : String} {row : Row}
    (h : env.locateEvent locator = .ok (some row)) :
    env.reachable = true ∧ row ∈ (env.relation "events").rows := by
  unfold locateEvent at h
  dsimp only at h
  split at h
  · obtain ⟨seq, -, hquery⟩ := exists_of_bind_ok h
    exact found_of_query hquery
  · split at h
    · obtain ⟨id, -, hquery⟩ := exists_of_bind_ok h
      exact found_of_query hquery
    · split at h
      · exact found_of_query h
      · obtain ⟨seq, -, hquery⟩ := exists_of_bind_ok h
        exact found_of_query hquery

/-- A located task is one of the queue. -/
theorem found_of_locateTask {locator : String} {row : Row}
    (h : env.locateTask locator = .ok (some row)) :
    env.reachable = true ∧ row ∈ (env.relation "tasks").rows := by
  obtain ⟨id, -, hquery⟩ := exists_of_bind_ok h
  exact found_of_query hquery

/-- A selected row is one of the table, with the value. -/
theorem of_selectWhere {table column text : String} {row : Row}
    (h : env.selectWhere table column text = .ok (some row)) :
    row ∈ (env.relation table).rows ∧
      env.equals ((row.lookup column).getD .null) text = .ok true := by
  unfold selectWhere at h
  split at h
  · generalize (env.relation table).rows = rows at h ⊢
    induction rows generalizing row with
    | nil => cases h
    | cons head tail ih =>
        rw [List.foldrM_cons] at h
        obtain ⟨found, htail, h⟩ := exists_of_bind_ok h
        obtain ⟨eq, heq, h⟩ := exists_of_bind_ok h
        obtain rfl | rfl := Bool.eq_false_or_eq_true eq
        · obtain rfl := Option.some.inj (Except.ok.inj h)
          exact ⟨List.mem_cons_self, heq⟩
        · obtain rfl : found = some row := Except.ok.inj h
          exact ⟨List.mem_cons_of_mem _ (ih htail).1, (ih htail).2⟩
  · cases h

/-- A located row is one of a table. -/
theorem found_of_locateRow {locator : String} {row : Row}
    (h : env.locateRow locator = .ok (.ok row)) :
    env.reachable = true ∧ ∃ table, row ∈ (env.relation table).rows := by
  unfold locateRow at h
  dsimp only at h
  split at h
  · cases h
  · split at h
    · cases h
    · split at h
      · cases h
      · obtain ⟨found, hquery, h⟩ := exists_of_bind_ok h
        obtain ⟨hreach, hselect⟩ := query_ok hquery
        cases found with
        | none => cases h
        | some found =>
            obtain rfl : found = row := Except.ok.inj (Except.ok.inj h)
            exact ⟨hreach, _, (of_selectWhere hselect).1⟩

/-- The columns of a row have plain names. -/
theorem isColumnName_of_lookup {table : String} {row : Row}
    (hrow : row ∈ (env.relation table).rows) {col : String} {cell : Cell}
    (hcell : row.lookup col = some cell) : isColumnName col = true := by
  refine (env.relation table).named col ?_
  rw [← (env.relation table).total row hrow]
  obtain ⟨pre, post, rfl, -⟩ := List.lookup_eq_some_iff.1 hcell
  simp

/-! ## Contradictions, kind by kind -/

theorem resolveEvent_contradicted :
    (∃ res, env.resolveEvent ref = .ok res ∧ res.outcome = .contradicted) ↔
      ∃ row e, env.locateEvent ref.locator = .ok (some row) ∧ ref.expected = some e ∧
        row.text "type" ≠ e := by
  unfold resolveEvent
  cases hloc : env.locateEvent ref.locator with
  | error name => simp [bind, Except.bind]
  | ok found =>
      cases found with
      | none => simp [bind, Except.bind, pure, Except.pure, EvidenceRef.resolution]
      | some row =>
          cases hexp : ref.expected with
          | none => simp [bind, Except.bind, pure, Except.pure, EvidenceRef.resolution]
          | some e =>
              by_cases he : row.text "type" = e <;>
                simp [bind, Except.bind, pure, Except.pure, EvidenceRef.resolution, he]

theorem resolveTask_contradicted :
    (∃ res, env.resolveTask ref = .ok res ∧ res.outcome = .contradicted) ↔
      ∃ row e, env.locateTask ref.locator = .ok (some row) ∧ ref.expected = some e ∧
        strip e ∈ taskStatuses ∧ row.text "status" ≠ strip e := by
  unfold resolveTask
  cases hloc : env.locateTask ref.locator with
  | error name => simp [bind, Except.bind]
  | ok found =>
      cases found with
      | none => simp [bind, Except.bind, pure, Except.pure, EvidenceRef.resolution]
      | some row =>
          cases hexp : ref.expected with
          | none => simp [bind, Except.bind, pure, Except.pure, EvidenceRef.resolution]
          | some e =>
              by_cases hknown : strip e ∈ taskStatuses <;> by_cases he : row.text "status" = strip e <;>
                simp [bind, Except.bind, pure, Except.pure, EvidenceRef.resolution, hknown, he]

theorem resolveDbRow_contradicted :
    (∃ res, env.resolveDbRow ref = .ok res ∧ res.outcome = .contradicted) ↔
      ∃ row, env.locateRow ref.locator = .ok (.ok row) ∧
        ∃ field ∈ (parseExpectedFields ref.expected).1,
          ∃ got, row.lookup field.1 = some got ∧ got.str ≠ field.2 := by
  unfold resolveDbRow
  cases hloc : env.locateRow ref.locator with
  | error name => simp [bind, Except.bind]
  | ok found =>
      cases found with
      | error note => simp [bind, Except.bind, pure, Except.pure, EvidenceRef.resolution]
      | ok row =>
          have hscan := scanFields_isLeft row (parseExpectedFields ref.expected).1
            (parseExpectedFields ref.expected).2
          simp only [Except.ok.injEq, exists_eq_left', ← hscan, bind, Except.bind, pure, Except.pure]
          cases scanFields row (parseExpectedFields ref.expected).1
              (parseExpectedFields ref.expected).2 with
          | inl bad => simp [EvidenceRef.resolution]
          | inr notes => cases notes <;> simp [EvidenceRef.resolution]

/-- A metric reference that gives the count is not contradicted. -/
theorem resolveMetric_contradicted {value : Nat} {res : RefResolution}
    (hvalue : env.metric? (strip ref.locator) = some value)
    (hexp : ref.expected = some (toString value) ∨ ∃ e, ref.expected = some e ∧
      intOf e = .error "ValueError") (h : env.resolveMetric ref = .ok res) :
    res.outcome ≠ .contradicted := by
  unfold resolveMetric at h
  simp only [hvalue] at h
  obtain ⟨actual, hactual, h⟩ := exists_of_bind_ok h
  obtain ⟨-, hactual⟩ := query_ok hactual
  obtain rfl := Except.ok.inj hactual
  rcases hexp with hexp | ⟨e, hexp, herr⟩
  · simp only [hexp] at h
    cases hint : intOf (toString value) with
    | error name =>
        simp only [hint, pure, Except.pure, Except.ok.injEq] at h
        subst h
        exact fun h => (by cases h)
    | ok n =>
        simp only [hint, bind, Except.bind, ne_eq, not_true_eq_false, if_false, pure, Except.pure,
          Except.ok.injEq] at h
        subst h
        exact fun h => (by cases h)
  · simp only [hexp, herr, pure, Except.pure, Except.ok.injEq] at h
    subst h
    exact fun h => (by cases h)

/-- Hexadecimal digits are neither blank nor upper case. -/
theorem of_isHexDigit {c : Char} (h : isHexDigit c = true) :
    isSpace c = false ∧ c.toLower = c := by
  have hall : ∀ d ∈ "0123456789abcdef".toList, (!isSpace d && d.toLower = d) = true :=
    List.all_eq_true.1 (by decide)
  have hc := hall c (by simpa [isHexDigit] using h)
  simpa using hc

/-- A digest is its own normal form. -/
theorem lower_digest (env : SourceOfTruth) (content : List UInt8) :
    String.ofList ((strip (env.sha256 content)).toList.map Char.toLower) = env.sha256 content := by
  have hhex := (env.digest content).2
  have hstrip : strip (env.sha256 content) = env.sha256 content :=
    strip_of_forall fun c hc => (of_isHexDigit (hhex c hc)).1
  have hlower : (env.sha256 content).toList.map Char.toLower = (env.sha256 content).toList :=
    (List.map_congr_left fun c hc => (of_isHexDigit (hhex c hc)).2).trans (List.map_id' _)
  rw [hstrip, hlower, String.ofList_toList]

/-- A file reference that gives the digest, or no digest at all, is not contradicted. -/
theorem resolveFile_contradicted {res : RefResolution}
    (hexp : (∃ content, env.file (filePath ref.locator) = some (.ok content) ∧
        ref.expected = some (env.sha256 content)) ∨
      ∃ e, ref.expected = some e ∧ isSha256Hex e = false)
    (h : env.resolveFile ref = .ok res) : res.outcome ≠ .contradicted := by
  unfold resolveFile at h
  rcases hexp with ⟨content, hfile, hexp⟩ | ⟨e, hexp, hhex⟩
  · simp only [hfile, hexp, lower_digest] at h
    split at h
    · obtain rfl := Except.ok.inj h
      exact fun h => (by cases h)
    · simp only [bind, Except.bind, ne_eq, not_true_eq_false, if_false, pure, Except.pure,
        Except.ok.injEq] at h
      subst h
      exact fun h => (by cases h)
  · cases hfile : env.file (filePath ref.locator) with
    | none =>
        simp only [hfile, Except.ok.injEq] at h
        subst h
        exact fun h => (by cases h)
    | some content =>
        simp only [hfile, hexp, hhex, Bool.not_false, if_true, Except.ok.injEq] at h
        subst h
        exact fun h => (by cases h)

/-- A reference that asserts nothing is not contradicted, whatever its kind. -/
theorem silent_not_contradicted {res : RefResolution} (hexp : ref.expected = none)
    (h : env.resolver ref = .ok res) : res.outcome ≠ .contradicted := by
  intro hcontra
  cases hkind : ref.kind with
  | event =>
      obtain ⟨row, e, -, he, -⟩ :=
        resolveEvent_contradicted.1 ⟨res, by simpa only [resolver, hkind] using h, hcontra⟩
      rw [hexp] at he
      cases he
  | task =>
      obtain ⟨row, e, -, he, -⟩ :=
        resolveTask_contradicted.1 ⟨res, by simpa only [resolver, hkind] using h, hcontra⟩
      rw [hexp] at he
      cases he
  | dbRow =>
      obtain ⟨row, -, field, hfield, -⟩ :=
        resolveDbRow_contradicted.1 ⟨res, by simpa only [resolver, hkind] using h, hcontra⟩
      rw [hexp] at hfield
      cases hfield
  | metric =>
      simp only [resolver, hkind, resolveMetric] at h
      cases hvalue : env.metric? (strip ref.locator) with
      | none =>
          simp only [hvalue, Except.ok.injEq] at h
          subst h
          cases hcontra
      | some value =>
          simp only [hvalue, hexp] at h
          obtain ⟨actual, -, h⟩ := exists_of_bind_ok h
          obtain rfl := Except.ok.inj h
          cases hcontra
  | file =>
      simp only [resolver, hkind, resolveFile] at h
      cases hfile : env.file (filePath ref.locator) with
      | none =>
          simp only [hfile, Except.ok.injEq] at h
          subst h
          cases hcontra
      | some content =>
          simp only [hfile, hexp, Except.ok.injEq] at h
          subst h
          cases hcontra
  | artifact =>
      simp only [resolver, hkind, resolveArtifact, Except.ok.injEq] at h
      subst h
      cases hcontra

/-- What is contradicted was found. -/
theorem finds_of_contradicted {res : RefResolution} (h : env.resolver ref = .ok res)
    (hcontra : res.outcome = .contradicted) : env.Finds ref := by
  unfold Finds
  cases hkind : ref.kind with
  | event =>
      obtain ⟨row, -, hloc, -⟩ :=
        resolveEvent_contradicted.1 ⟨res, by simpa only [resolver, hkind] using h, hcontra⟩
      exact ⟨row, hloc⟩
  | task =>
      obtain ⟨row, -, hloc, -⟩ :=
        resolveTask_contradicted.1 ⟨res, by simpa only [resolver, hkind] using h, hcontra⟩
      exact ⟨row, hloc⟩
  | dbRow =>
      obtain ⟨row, hloc, -⟩ :=
        resolveDbRow_contradicted.1 ⟨res, by simpa only [resolver, hkind] using h, hcontra⟩
      exact ⟨row, hloc⟩
  | metric =>
      simp only [resolver, hkind, resolveMetric] at h
      cases hvalue : env.metric? (strip ref.locator) with
      | none =>
          simp only [hvalue, Except.ok.injEq] at h
          subst h
          cases hcontra
      | some value => exact ⟨value, rfl⟩
  | file =>
      simp only [resolver, hkind, resolveFile] at h
      cases hfile : env.file (filePath ref.locator) with
      | none =>
          simp only [hfile, Except.ok.injEq] at h
          subst h
          cases hcontra
      | some read =>
          cases read with
          | ok content => exact ⟨content, rfl⟩
          | error name =>
              exfalso
              simp only [hfile] at h
              split at h
              · obtain rfl := Except.ok.inj h
                cases hcontra
              · split at h
                · obtain rfl := Except.ok.inj h
                  cases hcontra
                · cases h
  | artifact =>
      simp only [resolver, hkind, resolveArtifact, Except.ok.injEq] at h
      subst h
      cases hcontra

/-! ## The verdict on honest and ill-formed references -/

theorem mem_plainDecimal {unscaled : Int} {scale : Nat} {c : Char}
    (h : c ∈ (plainDecimal unscaled scale).toList) :
    c = '-' ∨ c = '.' ∨ c ∈ "0123456789".toList := by
  have hdigits : ∀ d ∈ (Nat.toDigits 10 unscaled.natAbs).leftpad (scale + 1) '0',
      d ∈ "0123456789".toList := by
    intro d hd
    rcases List.mem_append.1 hd with hd | hd
    · rw [(List.mem_replicate.1 hd).2]
      decide
    · exact Json.digit_mem (Nat.isDigit_of_mem_toDigits (by decide) (by decide) hd)
  rw [plainDecimal, String.toList_ofList, List.mem_append, List.mem_append] at h
  rcases h with (h | h) | h
  · unfold signText at h
    split at h
    · exact Or.inl (List.mem_singleton.1 h)
    · cases h
  · exact Or.inr (Or.inr (hdigits c (List.mem_of_mem_take h)))
  · split at h
    · cases h
    · rcases List.mem_cons.1 h with rfl | h
      · exact Or.inr (Or.inl rfl)
      · exact Or.inr (Or.inr (hdigits c (List.mem_of_mem_drop h)))

/-- A number in the server's notation has neither commas nor blanks. -/
theorem readBack_plainDecimal (unscaled : Int) (scale : Nat) :
    ',' ∉ (plainDecimal unscaled scale).toList ∧
      strip (plainDecimal unscaled scale) = plainDecimal unscaled scale := by
  have hall : ∀ c ∈ "0123456789".toList, (c ≠ ',' && !isSpace c : Bool) = true :=
    List.all_eq_true.1 (by decide)
  have hchar : ∀ c ∈ (plainDecimal unscaled scale).toList, c ≠ ',' ∧ isSpace c = false := by
    intro c hc
    rcases mem_plainDecimal hc with rfl | rfl | hdigit
    · decide
    · decide
    · simpa using hall c hdigit
  exact ⟨fun h => (hchar _ h).1 rfl, strip_of_forall fun c hc => (hchar c hc).2⟩

/-- A text that is read back as it is has neither commas nor outer blanks. -/
theorem plain_of_readBack_eq {text : String} (h : readBack text = text) :
    ',' ∉ text.toList ∧ strip text = text := by
  have hlength : text.toList.length ≤ (text.toList.takeWhile (· ≠ ',')).length := by
    have hle := length_strip_le (String.ofList (text.toList.takeWhile (· ≠ ',')))
    rw [String.toList_ofList] at hle
    change (readBack text).toList.length ≤ _ at hle
    rwa [h] at hle
  have htake : text.toList.takeWhile (· ≠ ',') = text.toList :=
    (List.takeWhile_prefix _).eq_of_length_le hlength
  refine ⟨fun hmem => ?_, ?_⟩
  · have hne := List.takeWhile_eq_self_iff.1 htake ',' hmem
    simp at hne
  · rwa [readBack, htake, String.ofList_toList] at h

theorem readBack_of_plain {text : String} (hcomma : ',' ∉ text.toList) (hstrip : strip text = text) :
    readBack text = text := by
  have htake : text.toList.takeWhile (· ≠ ',') = text.toList := by
    rw [List.takeWhile_eq_self_iff]
    intro c hc
    have hne : c ≠ ',' := fun h => hcomma (h ▸ hc)
    simpa using hne
  rw [readBack, htake, String.ofList_toList, hstrip]

/-- What is shown of a value is read back only if it is plain. -/
theorem plain_of_readBack {cell : Cell} {text : String} (hshow : Shows cell text)
    (hback : cell.str = readBack text) : Plain cell text := by
  cases hshow with
  | str =>
      obtain ⟨hcomma, hstrip⟩ := plain_of_readBack_eq hback.symm
      exact ⟨rfl, hcomma, hstrip⟩
  | bool b =>
      exfalso
      cases b
      · exact absurd hback (by decide)
      · exact absurd hback (by decide)
  | numeric unscaled scale =>
      obtain ⟨hcomma, hstrip⟩ := readBack_plainDecimal unscaled scale
      rw [readBack_of_plain hcomma hstrip] at hback
      exact ⟨hback.symm, hcomma, hstrip⟩

/-- A reference that is not contradicted is safe. -/
theorem safe_of_not_contradicted {vocabulary : String → Prop}
    (hvocab : ∀ row ∈ (env.relation "events").rows, vocabulary (row.text "type"))
    (h : (env.resolveRef ref).outcome ≠ .contradicted) : env.Safe vocabulary ref := by
  refine ⟨fun hkind hfinds e hexp => ?_, fun hkind row hloc cited hshown hexp c hc cell hcell => ?_⟩
  · unfold Finds at hfinds
    rw [hkind] at hfinds
    obtain ⟨row, hloc⟩ := hfinds
    obtain ⟨hreach, hmem⟩ := found_of_locateEvent hloc
    by_contra hunknown
    have hne : row.text "type" ≠ e := by
      rintro rfl
      exact hunknown (hvocab row hmem)
    obtain ⟨res, hres, hcontra⟩ := resolveEvent_contradicted.2 ⟨row, e, hloc, hexp, hne⟩
    refine h ?_
    rwa [resolveRef_eq (by simpa only [resolver, hkind] using hres) hreach]
  · obtain ⟨hreach, table, hmem⟩ := found_of_locateRow hloc
    have hnames : ∀ c ∈ cited, isColumnName c.1 = true := by
      intro c hc
      obtain ⟨cell, hcell, -⟩ := hshown c hc
      exact isColumnName_of_lookup hmem hcell
    have hshow : Shows cell c.2 := by
      obtain ⟨cell', hcell', hshow⟩ := hshown c hc
      rw [hcell] at hcell'
      obtain rfl := Option.some.inj hcell'
      exact hshow
    refine plain_of_readBack hshow ?_
    by_contra hne
    have hfield := mem_fields_citation hnames hc
    rw [← hexp] at hfield
    obtain ⟨res, hres, hcontra⟩ :=
      resolveDbRow_contradicted.2 ⟨row, hloc, _, hfield, cell, hcell, hne⟩
    refine h ?_
    rwa [resolveRef_eq (by simpa only [resolver, hkind] using hres) hreach]

theorem strip_taskStatus {status : String} (h : status ∈ taskStatuses) : strip status = status := by
  have hall : ∀ s ∈ taskStatuses, (strip s = s : Bool) = true := List.all_eq_true.1 (by decide)
  simpa using hall status h

/-- **A safe reference that is honest or ill-formed is not contradicted.** -/
theorem not_contradicted_of_safe {vocabulary : String → Prop}
    (hform : env.Honest ref ∨ env.IllFormed vocabulary ref) (hsafe : env.Safe vocabulary ref) :
    (env.resolveRef ref).outcome ≠ .contradicted := by
  intro h
  obtain ⟨res, hres, hcontra⟩ := resolver_of_contradicted h
  rcases hform with hhonest | hill
  · cases hhonest with
    | silent expected => exact silent_not_contradicted expected hres hcontra
    | event row kind found expected =>
        obtain ⟨row', e, hloc, hexp, hne⟩ :=
          resolveEvent_contradicted.1 ⟨res, by simpa only [resolver, kind] using hres, hcontra⟩
        rw [found] at hloc
        rw [expected] at hexp
        obtain rfl := Option.some.inj (Except.ok.inj hloc)
        exact hne (Option.some.inj hexp)
    | task row kind found expected =>
        obtain ⟨row', e, hloc, hexp, -, hne⟩ :=
          resolveTask_contradicted.1 ⟨res, by simpa only [resolver, kind] using hres, hcontra⟩
        rw [found] at hloc
        rw [expected] at hexp
        obtain rfl := Option.some.inj (Except.ok.inj hloc)
        obtain rfl := Option.some.inj hexp
        exact hne (strip_taskStatus (env.checked row (found_of_locateTask found).2)).symm
    | dbRow row cited kind found shown expected =>
        obtain ⟨row', hloc, field, hfield, got, hgot, hne⟩ :=
          resolveDbRow_contradicted.1 ⟨res, by simpa only [resolver, kind] using hres, hcontra⟩
        rw [found] at hloc
        obtain rfl := Except.ok.inj (Except.ok.inj hloc)
        obtain ⟨-, table, hmem⟩ := found_of_locateRow found
        have hplain := hsafe.dbRow kind row found cited shown expected
        have hnames : ∀ c ∈ cited, isColumnName c.1 = true := by
          intro c hc
          obtain ⟨cell, hcell, -⟩ := shown c hc
          exact isColumnName_of_lookup hmem hcell
        rw [expected, parse_citation hnames] at hfield
        · exact hne (hplain field hfield got hgot).str.symm
        · intro c hc
          obtain ⟨cell, hcell, -⟩ := shown c hc
          exact ⟨(hplain c hc cell hcell).comma, (hplain c hc cell hcell).stripped⟩
    | metric value kind found expected =>
        exact resolveMetric_contradicted found (Or.inl expected)
          (by simpa only [resolver, kind] using hres) hcontra
    | file content kind found expected =>
        exact resolveFile_contradicted (Or.inl ⟨content, found, expected⟩)
          (by simpa only [resolver, kind] using hres) hcontra
  · have hfinds := finds_of_contradicted hres hcontra
    cases hill with
    | locator nowhere => exact nowhere hfinds
    | event e kind expected unknown => exact unknown (hsafe.event kind hfinds e expected)
    | task e kind expected unknown =>
        obtain ⟨-, e', -, hexp, hknown, -⟩ :=
          resolveTask_contradicted.1 ⟨res, by simpa only [resolver, kind] using hres, hcontra⟩
        rw [expected] at hexp
        obtain rfl := Option.some.inj hexp
        exact unknown hknown
    | dbRow e kind expected unknown =>
        obtain ⟨row, hloc, field, hfield, got, hgot, -⟩ :=
          resolveDbRow_contradicted.1 ⟨res, by simpa only [resolver, kind] using hres, hcontra⟩
        rw [expected] at hfield
        rw [unknown row hloc field hfield] at hgot
        cases hgot
    | metric e kind expected unknown =>
        unfold Finds at hfinds
        rw [kind] at hfinds
        obtain ⟨value, hvalue⟩ := hfinds
        exact resolveMetric_contradicted hvalue (Or.inr ⟨e, expected, unknown⟩)
          (by simpa only [resolver, kind] using hres) hcontra
    | file e kind expected unknown =>
        exact resolveFile_contradicted (Or.inr ⟨e, expected, unknown⟩)
          (by simpa only [resolver, kind] using hres) hcontra

/-- **No false verdict of fabrication, exactly if the references are safe**: a claim whose
references are honest or ill-formed is not rejected if and only if each of them is safe. -/
theorem notRejected_iff {vocabulary : String → Prop}
    (hvocab : ∀ row ∈ (env.relation "events").rows, vocabulary (row.text "type")) (claim : Claim)
    (hform : ∀ ref ∈ claim.evidence, env.Honest ref ∨ env.IllFormed vocabulary ref) :
    (env.verifyClaim claim).status ≠ .rejected ↔
      ∀ ref ∈ claim.evidence, env.Safe vocabulary ref := by
  rw [Ne, verifyClaim_rejected, not_exists]
  refine ⟨fun h ref hmem => safe_of_not_contradicted hvocab fun hcontra => h ref ⟨hmem, hcontra⟩, ?_⟩
  rintro h ref ⟨hmem, hcontra⟩
  exact not_contradicted_of_safe (hform ref hmem) (h ref hmem) hcontra

end SourceOfTruth

/-! ## An honest identity that is struck -/

/-- An approval whose reason has a comma. -/
def approvalRow : Row :=
  [("id", .uuid ⟨"3c1d8f52-2f0b-4a39-9a70-3f4f0c1d2e71", by decide⟩), ("tier", .text "stop"),
    ("reason", .text "ship it, please")]

/-- The event of an enqueue. -/
def createdRow : Row := [("seq", .int 1), ("type", .text "task.created")]

/-- A source of truth with the approval and the event. -/
def sampleTruth : SourceOfTruth where
  reachable := true
  autocommit := true
  relation name :=
    if name = "approvals" then
      ⟨["id", "tier", "reason"], [approvalRow], List.forall_mem_iff_getElem.2 (by decide), by simp [approvalRow]⟩
    else if name = "events" then
      ⟨["seq", "type"], [createdRow], List.forall_mem_iff_getElem.2 (by decide), by simp [createdRow]⟩
    else ⟨[], [], by simp, by simp⟩
  checked := by simp
  equals cell text := .ok (cell.str = text)
  file _ := none
  sha256 _ := String.ofList (List.replicate 64 '0')
  digest _ := ⟨by decide, List.all_eq_true.1 (by decide)⟩
  repr := Cell.str
  isIdentifier := isColumnName

/-- The reference's pointer to the approval. -/
def approvalLocator : String := "approvals:3c1d8f52-2f0b-4a39-9a70-3f4f0c1d2e71"

theorem locateRow_approval :
    sampleTruth.locateRow approvalLocator = .ok (.ok approvalRow) := by decide

/-- A claim that cites columns of the approval. -/
def citing (cited : List (String × String)) : Claim where
  statement := "the approval was asked for"
  evidence :=
    [{ kind := .dbRow
       locator := approvalLocator
       expected := some (citation cited)
       located := by decide }]
  stated := by decide
  backed := fun _ => List.cons_ne_nil _ _

/-- A claim whose event reference is written as one to a row. -/
def misspelt : Claim where
  statement := "the task was created"
  evidence := [{ kind := .event, locator := "seq:1", expected := some "type=task.created"
                 located := by decide }]
  stated := by decide
  backed := fun _ => List.cons_ne_nil _ _

theorem honest_citing {cited : List (String × String)} (h : ShownIn approvalRow cited) :
    ∀ ref ∈ (citing cited).evidence, sampleTruth.Honest ref := by
  intro ref hmem
  obtain rfl := List.mem_singleton.1 hmem
  exact .dbRow approvalRow cited rfl locateRow_approval h rfl

/-- **An honest claim is rejected for the comma in the value it cites, and a claim with an
ill-formed event reference for the reference.** -/
theorem fabrication_verdict_is_false :
    (∀ ref ∈ (citing [("reason", "ship it, please")]).evidence, sampleTruth.Honest ref) ∧
      (sampleTruth.verifyClaim (citing [("reason", "ship it, please")])).status = .rejected ∧
      (∀ ref ∈ misspelt.evidence, sampleTruth.IllFormed (· = "task.created") ref) ∧
      (sampleTruth.verifyClaim misspelt).status = .rejected := by
  refine ⟨honest_citing ?_, by decide, fun ref hmem => ?_, by decide⟩
  · intro c hc
    obtain rfl := List.mem_singleton.1 hc
    exact ⟨_, rfl, Shows.str (.text "ship it, please")⟩
  · obtain rfl := List.mem_singleton.1 hmem
    exact .event _ rfl rfl (by decide)

/-- A claim that cites the tier of the approval. -/
theorem notRejected_citing_tier :
    (sampleTruth.verifyClaim (citing [("tier", "stop")])).status ≠ .rejected ∧
      ∀ ref ∈ (citing [("tier", "stop")]).evidence, sampleTruth.Safe (· = "task.created") ref := by
  have hshown : ShownIn approvalRow [("tier", "stop")] := by
    intro c hc
    obtain rfl := List.mem_singleton.1 hc
    exact ⟨_, rfl, Shows.str (.text "stop")⟩
  refine ⟨by decide, (SourceOfTruth.notRejected_iff ?_ _ fun ref hmem =>
    Or.inl (honest_citing hshown ref hmem)).1 (by decide)⟩
  intro row hrow
  obtain rfl : row = createdRow := List.mem_singleton.1 hrow
  rfl

end AiStudio.Spokesman
