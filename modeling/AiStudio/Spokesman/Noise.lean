import AiStudio.Spokesman.Inbound

/-!
# Test traffic

Embeds `spokesman/noise.py`. What is noise is written twice, once in Python
(`is_noise_task`) and once as a condition in SQL (`real_task_sql`). The Python reading
strips and folds its texts before it looks at them, the SQL reading takes them as they are:
`isNoiseTask` is `Marked` of the tidied texts and `realTaskSql` the negation of `Marked` of
the texts, but for a workstream that spells `test` with capitals. `noise_agree_iff` says for
which rows the two readings agree.
-/

set_option autoImplicit false

namespace AiStudio.Spokesman

open AiStudio.Data AiStudio.Runtime

/-! ## The two readings -/

/-- `_NOISE_WORKSTREAM_PREFIXES`; the alternatives of the expression in SQL are the same. -/
def noisePrefixes : List String :=
  ["test-", "test_", "test-spk-", "skilllc-", "curate-", "pm-research-", "traj-", "grnd-",
    "lesson-", "boot-", "glob-", "race-", "gw-", "cap-", "fail-", "worker-", "quality-", "dec-",
    "spk-", "gate-", "cleanup-"]

/-- `_NOISE_TASK_TYPES`; the array in SQL is the same. -/
def noiseTypes : List String :=
  ["work.demo", "work.probe", "work.stall", "work.stuck", "work.real", "t"]

/-- `[_-][0-9a-f]\x7b8,\x7d$`, of a reversed text: a `-` or `_` ends the longest run. -/
def endsInHex (reversed : List Char) : Bool :=
  let run := reversed.takeWhile isHexDigit
  8 ≤ run.length && (reversed.drop run.length).head?.any fun c => c = '-' || c = '_'

/-- `_HEX_SUFFIX_WS` finds an end in a lower-case text without a final line break. -/
def hexSuffix (text : List Char) : Bool :=
  let reversed := text.reverse
  endsInHex reversed || "-other".toList.reverse.isPrefixOf reversed && endsInHex (reversed.drop 6)

/-- A lower-case text begins or ends like the workstream of a test. -/
def noiseName (text : List Char) : Bool :=
  noisePrefixes.any (·.toList.isPrefixOf text) || hexSuffix text

/-- `is_noise_workstream`. -/
def isNoiseWorkstream (workstream : Option String) : Bool :=
  let ws := strip (workstream.getD "")
  ws = "" || ws = "test" || noiseName (lower ws).toList

/-- `is_noise_task_type`. -/
def isNoiseTaskType (type : String) : Bool := noiseTypes.contains (strip type)

/-- `is_noise_task`. Of the values of `traffic` only a string can read `test`. -/
def isNoiseTask (workstream : Option String) (type : String) (payload : Option Doc) : Bool :=
  (payload.bind (·.getStr? "traffic")).any (lower · = "test") || isNoiseWorkstream workstream ||
    isNoiseTaskType type

/-- `lower(text)`, and the case a `~*` ignores: a letter matches its two cases. -/
def sqlLower (text : String) : List Char := text.toList.map Char.toLower

/-- `real_task_sql`: a row without a workstream, or in one that is empty, is not shown. -/
def realTaskSql (workstream : Option String) (type : String) (payload : Doc) : Bool :=
  payload.getStr? "traffic" ≠ some "test" &&
    (workstream.any fun ws =>
      ws ≠ "" && sqlLower ws ≠ "test".toList && !noiseName (sqlLower ws)) &&
    !noiseTypes.contains type

/-! ## Both readings by one predicate -/

/-- The name of a workstream reads as noise the way it is written. -/
def markedName (workstream : String) : Bool :=
  workstream = "" || workstream = "test" || noiseName (sqlLower workstream)

/-- The texts of a task read as noise the way they are written. -/
def Marked (workstream : Option String) (type : String) (tag : Option String) : Prop :=
  tag = some "test" ∨ type ∈ noiseTypes ∨ workstream.all markedName = true

/-- The workstream spells `test` with capitals. -/
def Respelt (workstream : Option String) : Prop :=
  ∃ ws, workstream = some ws ∧ sqlLower ws = "test".toList ∧ ws ≠ "test"

/-- The name without blanks around it and with plain letters, the only other spelling of one
being the Kelvin sign. -/
def tidyName (workstream : String) : String :=
  String.ofList ((strip workstream).toList.map fun c => if c = '\u212A' then 'k' else c)

theorem sqlLower_tidyName (workstream : String) :
    sqlLower (tidyName workstream) = (lower (strip workstream)).toList := by
  rw [sqlLower, tidyName, lower, String.toList_ofList, String.toList_ofList, List.map_map]
  refine List.map_congr_left fun c _ => ?_
  change (if c = '\u212A' then 'k' else c).toLower = _
  split
  · rfl
  · rfl

/-- A name of other letters than `k` and the Kelvin sign has no other spelling. -/
theorem tidyName_eq_iff {workstream name : String}
    (h : ∀ c ∈ name.toList, c ≠ 'k' ∧ c ≠ '\u212A') :
    tidyName workstream = name ↔ strip workstream = name := by
  rw [tidyName, ← String.toList_inj, ← String.toList_inj, String.toList_ofList]
  generalize (strip workstream).toList = text
  generalize name.toList = chars at h
  induction text generalizing chars with
  | nil => rfl
  | cons c text ih =>
      cases chars with
      | nil => simp
      | cons d chars =>
          rw [List.forall_mem_cons] at h
          rw [List.map_cons, List.cons.injEq, List.cons.injEq, ih chars h.2]
          refine and_congr_left fun _ => ?_
          split
          · rename_i hc
            constructor
            · exact fun hd => absurd hd.symm h.1.1
            · exact fun hd => absurd (hd.symm.trans hc) h.1.2
          · exact Iff.rfl

/-- **The Python reading of a name.** -/
theorem isNoiseWorkstream_eq (workstream : Option String) :
    isNoiseWorkstream workstream = workstream.all fun ws => markedName (tidyName ws) := by
  cases workstream with
  | none => rfl
  | some ws =>
      have hempty : tidyName ws = "" ↔ strip ws = "" := tidyName_eq_iff (by simp)
      have htest : tidyName ws = "test" ↔ strip ws = "test" :=
        tidyName_eq_iff (List.forall_mem_iff_getElem.2 (by decide))
      simp only [isNoiseWorkstream, Option.getD_some, Option.all_some, markedName, hempty, htest,
        sqlLower_tidyName]

/-! ## Tidying does not hide noise -/

/-- `noiseName` looks at beginnings and ends of texts; `part` is one of them. -/
structure Telling (part : List Char) : Prop where
  ne_nil : part ≠ []
  head : ∀ c ∈ part.head?, isSpace c = false
  last : ∀ c ∈ part.getLast?, isSpace c = false
  plain : '\u212A' ∉ part

theorem isSpace_toLower {c : Char} (h : isSpace c.toLower = false) : isSpace c = false := by
  unfold Char.toLower at h
  split at h
  · rename_i hletter
    have hlow : 65 ≤ c.toNat := hletter.1
    have hhigh : c.toNat ≤ 90 := hletter.2
    simp only [isSpace, Bool.or_eq_false_iff, Bool.and_eq_false_iff, decide_eq_false_iff_not]
    omega
  · exact h

/-- Characters whose lower case is given. -/
theorem Telling.of_map {part : List Char} (h : Telling (part.map Char.toLower)) : Telling part where
  ne_nil hnil := h.ne_nil (by rw [hnil]; rfl)
  head c hc := isSpace_toLower (h.head c.toLower (by simp_all))
  last c hc := isSpace_toLower (h.last c.toLower (by simp_all))
  plain hk := h.plain (List.mem_map_of_mem (f := Char.toLower) hk)

theorem Telling.map_lower {part : List Char} (h : Telling (part.map Char.toLower)) :
    (part.map fun c => if c = '\u212A' then 'k' else c.toLower) = part.map Char.toLower := by
  refine List.map_congr_left fun c hc => ?_
  rw [if_neg]
  rintro rfl
  exact h.of_map.plain hc

/-- **A telling beginning or end survives stripping.** -/
theorem Telling.prefix_tidy {workstream : String} {part : List Char} (ht : Telling part)
    (h : part <+: sqlLower workstream) : part <+: sqlLower (tidyName workstream) := by
  obtain ⟨post, hpost⟩ := h
  obtain ⟨before, after, hsplit, rfl, -⟩ := List.map_eq_append_iff.1 hpost.symm
  obtain ⟨post', hstrip⟩ :=
    strip_of_prefix ht.of_map.ne_nil ht.of_map.head ht.of_map.last hsplit
  rw [sqlLower_tidyName, lower, String.toList_ofList, hstrip, List.map_append, ht.map_lower]
  exact List.prefix_append _ _

theorem Telling.suffix_tidy {workstream : String} {part : List Char} (ht : Telling part)
    (h : part <:+ sqlLower workstream) : part <:+ sqlLower (tidyName workstream) := by
  obtain ⟨pre, hpre⟩ := h
  obtain ⟨before, after, hsplit, -, rfl⟩ := List.map_eq_append_iff.1 hpre.symm
  obtain ⟨pre', hstrip⟩ :=
    strip_of_suffix ht.of_map.ne_nil ht.of_map.head ht.of_map.last hsplit
  rw [sqlLower_tidyName, lower, String.toList_ofList, hstrip, List.map_append, ht.map_lower]
  exact List.suffix_append _ _

/-- The ends `_HEX_SUFFIX_WS` finds. -/
def HexEnd (part : List Char) : Prop :=
  ∃ d run tail, part = d :: (run ++ tail) ∧ (d = '-' ∨ d = '_') ∧ 8 ≤ run.length ∧
    (∀ c ∈ run, isHexDigit c = true) ∧ (tail = [] ∨ tail = "-other".toList)

theorem endsInHex_iff {reversed : List Char} :
    endsInHex reversed = true ↔ ∃ d run rest, reversed = run ++ d :: rest ∧ (d = '-' ∨ d = '_') ∧
      8 ≤ run.length ∧ ∀ c ∈ run, isHexDigit c = true := by
  have hsplit : reversed.takeWhile isHexDigit ++ reversed.dropWhile isHexDigit = reversed :=
    List.takeWhile_append_dropWhile
  have hrest : reversed.drop (reversed.takeWhile isHexDigit).length =
      reversed.dropWhile isHexDigit := by
    conv_lhs => rw [← hsplit]
    exact List.drop_left' (by rw [hsplit])
  simp only [endsInHex, Bool.and_eq_true, decide_eq_true_eq, hrest]
  constructor
  · rintro ⟨hlen, hd⟩
    cases hdrop : reversed.dropWhile isHexDigit with
    | nil =>
        rw [hdrop] at hd
        cases hd
    | cons d rest =>
        rw [hdrop] at hd hsplit
        exact ⟨d, _, rest, hsplit.symm, by simpa using hd, hlen, fun c hc => List.mem_takeWhile_imp hc⟩
  · rintro ⟨d, run, rest, rfl, hd, hlen, hhex⟩
    have hstop : isHexDigit d = false := by
      rcases hd with rfl | rfl <;> rfl
    rw [List.takeWhile_append_of_pos hhex, List.dropWhile_append_of_pos hhex,
      List.takeWhile_cons_of_neg (by simp [hstop]), List.dropWhile_cons_of_neg (by simp [hstop])]
    simpa using ⟨hlen, hd⟩

theorem hexSuffix_iff {text : List Char} :
    hexSuffix text = true ↔ ∃ part, part <:+ text ∧ HexEnd part := by
  simp only [hexSuffix, Bool.or_eq_true, Bool.and_eq_true, endsInHex_iff, List.isPrefixOf_iff_prefix]
  constructor
  · rintro (⟨d, run, rest, hrev, hd, hlen, hhex⟩ | ⟨⟨more, hmore⟩, d, run, rest, hrev, hd, hlen, hhex⟩)
    · refine ⟨d :: (run.reverse ++ []), ⟨rest.reverse, ?_⟩, d, run.reverse, [], rfl, hd, ?_, ?_, .inl rfl⟩
      · rw [← List.reverse_inj, hrev]
        simp
      · simpa using hlen
      · simpa using hhex
    · rw [← hmore, List.drop_left' (by rfl)] at hrev
      refine ⟨d :: (run.reverse ++ "-other".toList), ⟨rest.reverse, ?_⟩, d, run.reverse, _, rfl, hd, ?_, ?_, .inr rfl⟩
      · rw [← List.reverse_inj, ← hmore, hrev]
        simp
      · simpa using hlen
      · simpa using hhex
  · rintro ⟨_, ⟨pre, rfl⟩, d, run, tail, rfl, hd, hlen, hhex, rfl | rfl⟩
    · exact .inl ⟨d, run.reverse, pre.reverse, by simp, hd, by simpa using hlen, by simpa using hhex⟩
    · refine .inr ⟨⟨run.reverse ++ d :: pre.reverse, by simp⟩, d, run.reverse, pre.reverse, ?_, hd,
        by simpa using hlen, by simpa using hhex⟩
      simp

theorem Telling.of_forall {part : List Char} (hne : part ≠ [])
    (h : ∀ c ∈ part, isSpace c = false ∧ c ≠ '\u212A') : Telling part where
  ne_nil := hne
  head c hc := (h c (List.mem_of_mem_head? hc)).1
  last c hc := (h c (List.mem_of_mem_getLast? hc)).1
  plain hk := (h _ hk).2 rfl

theorem HexEnd.telling {part : List Char} (h : HexEnd part) : Telling part := by
  obtain ⟨d, run, tail, rfl, hd, -, hhex, htail⟩ := h
  have hdigits : ∀ c ∈ "0123456789abcdef".toList, isSpace c = false ∧ c ≠ '\u212A' :=
    List.forall_mem_iff_getElem.2 (by decide)
  have hother : ∀ c ∈ "-other".toList, isSpace c = false ∧ c ≠ '\u212A' :=
    List.forall_mem_iff_getElem.2 (by decide)
  refine .of_forall (List.cons_ne_nil _ _) fun c hc => ?_
  rcases List.mem_cons.1 hc with rfl | hc
  · rcases hd with rfl | rfl <;> decide
  · rcases List.mem_append.1 hc with hc | hc
    · exact hdigits c (by simpa [isHexDigit] using hhex c hc)
    · rcases htail with rfl | rfl
      · cases hc
      · exact hother c hc

theorem telling_upTo {pre : String} (h : pre ∈ noisePrefixes) : Telling pre.toList := by
  have hall : ∀ pre ∈ noisePrefixes, pre.toList ≠ [] ∧
      (pre.toList.all fun c => !isSpace c && c != '\u212A') = true :=
    List.forall_mem_iff_getElem.2 (by decide)
  obtain ⟨hne, hplain⟩ := hall pre h
  refine .of_forall hne fun c hc => ?_
  simpa using List.all_eq_true.1 hplain c hc

/-- **What reads as noise the way it is written reads as noise when it is tidied.** -/
theorem markedName_tidyName {workstream : String} (h : markedName workstream = true) :
    markedName (tidyName workstream) = true := by
  simp only [markedName, noiseName, Bool.or_eq_true, decide_eq_true_eq, List.any_eq_true,
    List.isPrefixOf_iff_prefix, hexSuffix_iff] at h ⊢
  rcases h with (rfl | rfl) | ⟨pre, hpre, hprefix⟩ | ⟨part, hsuffix, hend⟩
  · exact .inl (.inl rfl)
  · exact .inl (.inr (by decide))
  · exact .inr (.inl ⟨pre, hpre, (telling_upTo hpre).prefix_tidy hprefix⟩)
  · exact .inr (.inr ⟨part, hend.telling.suffix_tidy hsuffix, hend⟩)

/-! ## When the two readings agree -/

/-- The texts of a task, tidied, read as noise. -/
def TidyMarked (workstream : Option String) (type : String) (tag : Option String) : Prop :=
  Marked (workstream.map tidyName) (strip type) (tag.map lower)

theorem isNoiseTask_iff {workstream : Option String} {type : String} {payload : Doc} :
    isNoiseTask workstream type (some payload) = true ↔
      TidyMarked workstream type (payload.getStr? "traffic") := by
  simp only [isNoiseTask, isNoiseWorkstream_eq, isNoiseTaskType, Option.bind_some, Bool.or_eq_true,
    TidyMarked, Marked, List.contains_iff_mem, Option.all_map, Option.map_eq_some_iff,
    Option.any_eq_true, decide_eq_true_eq]
  rw [or_assoc, or_congr_right or_comm]

theorem realTaskSql_iff {workstream : Option String} {type : String} {payload : Doc} :
    realTaskSql workstream type payload = false ↔
      Marked workstream type (payload.getStr? "traffic") ∨ Respelt workstream := by
  simp only [realTaskSql, Bool.and_eq_false_iff, Bool.not_eq_false', decide_eq_false_iff_not,
    not_not, List.contains_iff_mem, Marked]
  have hname : (workstream.any fun ws =>
        ws ≠ "" && sqlLower ws ≠ "test".toList && !noiseName (sqlLower ws)) = false ↔
      workstream.all markedName = true ∨ Respelt workstream := by
    cases workstream with
    | none => simp
    | some ws =>
        have htest : ws = "test" → sqlLower ws = "test".toList := by
          rintro rfl
          decide
        simp only [Option.any_some, Option.all_some, markedName, Respelt, Option.some.injEq,
          exists_eq_left', Bool.and_eq_false_iff, Bool.or_eq_true, decide_eq_true_eq,
          decide_eq_false_iff_not, not_not, Bool.not_eq_false']
        tauto
  rw [hname]
  tauto

theorem Marked.tidy {workstream : Option String} {type : String} {tag : Option String}
    (h : Marked workstream type tag) : TidyMarked workstream type tag := by
  have htest : lower "test" = "test" := by decide
  have hstrip : ∀ type ∈ noiseTypes, strip type = type :=
    List.forall_mem_iff_getElem.2 (by decide)
  rcases h with rfl | htype | hname
  · exact .inl (congrArg some htest)
  · exact .inr (.inl ((hstrip type htype).symm ▸ htype))
  · refine .inr (.inr ?_)
    cases workstream with
    | none => rfl
    | some ws =>
        rw [Option.all_some] at hname
        rw [Option.map_some, Option.all_some]
        exact markedName_tidyName hname

/-- **The two readings of a task agree exactly if tidying its texts makes no noise of them that
they do not read as already, but for a workstream that spells `test` with capitals, and the task
of such a workstream reads as noise anyway.** -/
theorem noise_agree_iff (workstream : Option String) (type : String) (payload : Doc) :
    (isNoiseTask workstream type (some payload) = true ↔
        realTaskSql workstream type payload = false) ↔
      (TidyMarked workstream type (payload.getStr? "traffic") →
          Marked workstream type (payload.getStr? "traffic") ∨ Respelt workstream) ∧
        (Respelt workstream → TidyMarked workstream type (payload.getStr? "traffic")) := by
  rw [isNoiseTask_iff, realTaskSql_iff]
  have htidy : Marked workstream type (payload.getStr? "traffic") →
      TidyMarked workstream type (payload.getStr? "traffic") := Marked.tidy
  constructor
  · exact fun h => ⟨h.1, fun hrespelt => h.2 (.inr hrespelt)⟩
  · rintro ⟨hnoise, hrespelt⟩
    exact ⟨hnoise, fun h => h.elim htidy hrespelt⟩

end AiStudio.Spokesman
