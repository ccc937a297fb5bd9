import AiStudio.Data.Pieces
import AiStudio.Data.Traverse
import AiStudio.Runtime.Grab
import Mathlib.Data.Set.List

/-!
# The sort clause

Embeds `_parse_sort_term` and `_build_sort` of `runtime/tasks.py`: the text of an ORDER BY clause
from a string, a list of terms, or anything else a caller may pass. The alias of the table is an
argument.

- `fragment_eq_ok_iff`: a fragment is the text of a term of the allowlists.
- `parseTerm_of_tuple`, `parseTerm_termOf`: the two syntaxes of a term agree.
-/

set_option autoImplicit false

namespace AiStudio.Runtime

open AiStudio.Data

/-- The name of a column of `_SORTABLE_COLUMNS`. -/
def SortColumn.name : SortColumn → String
  | .priority => "priority"
  | .createdAt => "created_at"
  | .updatedAt => "updated_at"
  | .claimedAt => "claimed_at"
  | .id => "id"
  | .workstream => "workstream"
  | .type => "type"
  | .agentType => "agent_type"

/-- `_SORTABLE_COLUMNS`, by name. -/
def SortColumn.all : List SortColumn :=
  [.agentType, .claimedAt, .createdAt, .id, .priority, .type, .updatedAt, .workstream]

theorem SortColumn.mem_all (c : SortColumn) : c ∈ SortColumn.all := by cases c <;> decide

namespace SortClause

/-! ## Values and texts -/

/-- What a caller may pass: `None`, a text, a list or tuple, or another object with its truth value
and its text. -/
inductive Value where
  | none
  | str (s : String)
  | seq (items : List Value)
  | other (truthy : Bool) (text : String)

/-- `bool(value)`. -/
def Value.truthy : Value → Bool
  | .none => false
  | .str s => s ≠ ""
  | .seq items => !items.isEmpty
  | .other truthy _ => truthy

/-- `str(value)`; `repr` is the text of a list. -/
def Value.text (repr : List Value → String) : Value → String
  | .none => "None"
  | .str s => s
  | .seq items => repr items
  | .other _ text => text

/-- What a character becomes in `s.upper()`, as far as it becomes letters of the English
alphabet. -/
def upperChar (c : Char) : List Char :=
  if c = 'ß' then ['S', 'S']
  else if c = 'ı' then ['I']
  else if c = 'ſ' then ['S']
  else if c = 'ﬀ' then ['F', 'F']
  else if c = 'ﬁ' then ['F', 'I']
  else if c = 'ﬂ' then ['F', 'L']
  else if c = 'ﬃ' then ['F', 'F', 'I']
  else if c = 'ﬄ' then ['F', 'F', 'L']
  else if c = 'ﬅ' || c = 'ﬆ' then ['S', 'T']
  else [c.toUpper]

/-- `s.upper()`. -/
def upper (s : String) : String := String.ofList (s.toList.flatMap upperChar)

/-- `s.split()`. -/
def words (s : String) : List String := (pieces isSpace s.toList).map String.ofList

/-! ## Terms -/

/-- `ValueError` or `TypeError`. -/
inductive SortError where
  | valueError (message : String)
  | typeError (message : String)

/-- `_SORT_DIRECTIONS`. -/
def sortDirections : List String := ["ASC", "DESC"]

/-- `_SORT_NULLS`. -/
def sortNulls : List String := ["NULLS FIRST", "NULLS LAST"]

section Build

variable (repr : List Value → String) (quote : String → String) (table : String)

/-- `sorted(_SORTABLE_COLUMNS)`, as a text. -/
def allowedColumns : String :=
  "[" ++ ", ".intercalate (SortColumn.all.map fun c => quote c.name) ++ "]"

/-- The checks of `_parse_sort_term`, and the fragment. -/
def fragment (col direction : String) (nulls : Option String) : Except SortError String :=
  if col ∉ SortColumn.all.map SortColumn.name then
    .error (.valueError s!"unsortable column {quote col} (allowed: {allowedColumns quote})")
  else if direction ∉ sortDirections then
    .error (.valueError s!"invalid sort direction {quote direction} (ASC/DESC only)")
  else
    let frag := table ++ "." ++ col ++ " " ++ direction
    match nulls with
    | none => .ok frag
    | some nulls =>
        if nulls ∉ sortNulls then
          .error (.valueError s!"invalid nulls ordering {quote nulls} (NULLS FIRST/LAST only)")
        else .ok (frag ++ " " ++ nulls)

/-- An optional part of a tuple, stripped and in upper case; an absent or false one is left out. -/
def part (value : Option Value) : Option String :=
  value.bind fun v => if v.truthy then some (upper (strip (v.text repr))) else none

/-- The tokens of a string term after its column: the direction, if there is one, and the rest. -/
def splitDirection : List String → String × List String
  | [] => ("ASC", [])
  | token :: rest =>
      if upper token ∈ sortDirections then (upper token, rest) else ("ASC", token :: rest)

/-- `_parse_sort_term`. -/
def parseTerm : Value → Except SortError String
  | .seq [] => .error (.valueError "empty sort term")
  | .seq (col :: parts) =>
      fragment quote table (strip (col.text repr)) ((part repr parts[0]?).getD "ASC")
        (part repr parts[1]?)
  | term =>
      match words (term.text repr) with
      | [] => .error (.valueError "empty sort term")
      | col :: tokens =>
          let (direction, rest) := splitDirection tokens
          fragment quote table col direction
            (if rest.isEmpty then none else some (upper (" ".intercalate rest)))

/-- `DEFAULT_SORT_TERMS`. -/
def defaultTerms : List Value :=
  [.seq [.str "priority", .str "DESC"], .seq [.str "created_at", .str "ASC"]]

/-- The terms of a comma-separated text. -/
def splitTerms (s : String) : List Value :=
  (((s.toList.splitOn ',').map String.ofList).filter fun t => !isBlank t).map .str

/-- The terms of `_build_sort`. -/
def sortTerms (sort : Value) : Except SortError (List Value) :=
  if !sort.truthy then .ok defaultTerms
  else
    match sort with
    | .str s => .ok (splitTerms s)
    | .seq items => .ok items
    | _ => .error (.typeError "sort must be None, a str, or a list of terms")

/-- `_build_sort`. -/
def buildSort (sort : Value) : Except SortError String := do
  let terms ← sortTerms sort
  let frags ← terms.mapM (parseTerm repr quote table)
  if frags.isEmpty then .error (.valueError "empty sort expression")
  else .ok (", ".intercalate frags)

end Build

/-! ## The clauses -/

/-- A term of the clause: a column, a direction, and where nulls go if the term says so. -/
structure OrderTerm where
  column : SortColumn
  descending : Bool
  nullsFirst : Option Bool

namespace OrderTerm

variable (t : OrderTerm)

/-- The token of the direction. -/
def direction : String := if t.descending then "DESC" else "ASC"

/-- The token of the nulls. -/
def nulls : Option String := t.nullsFirst.map fun first => if first then "NULLS FIRST" else "NULLS LAST"

/-- The text of the term. -/
def text (table : String) : String :=
  table ++ "." ++ t.column.name ++ " " ++ t.direction ++ t.nulls.elim "" (" " ++ ·)

/-- What the database sorts by. -/
def sortTerm : SortTerm where
  column := t.column
  descending := t.descending
  nullsFirst := t.nullsFirst.getD t.descending

end OrderTerm

section Fragment

variable {quote : String → String} {table : String}

/-- **A fragment is built from the allowlists.** -/
theorem fragment_eq_ok_iff {col direction frag : String} {nulls : Option String} :
    fragment quote table col direction nulls = .ok frag ↔
      ∃ t : OrderTerm, col = t.column.name ∧ direction = t.direction ∧ nulls = t.nulls ∧
        frag = t.text table := by
  unfold fragment
  constructor
  · intro h
    split at h
    · cases h
    next hcol =>
      split at h
      · cases h
      next hdirection =>
        obtain ⟨column, -, rfl⟩ := List.mem_map.1 (not_not.1 hcol)
        have hdescending : ∃ descending : Bool,
            direction = if descending then "DESC" else "ASC" := by
          have hmem : direction = "ASC" ∨ direction = "DESC" := by
            simpa [sortDirections] using not_not.1 hdirection
          rcases hmem with rfl | rfl
          · exact ⟨false, rfl⟩
          · exact ⟨true, rfl⟩
        obtain ⟨descending, rfl⟩ := hdescending
        cases nulls with
        | none =>
            refine ⟨⟨column, descending, none⟩, rfl, rfl, rfl, ?_⟩
            rw [← Except.ok.inj h, OrderTerm.text]
            exact (String.append_empty ..).symm
        | some nulls =>
            dsimp only at h
            split at h
            · cases h
            next hnulls =>
              have hmem : nulls = "NULLS FIRST" ∨ nulls = "NULLS LAST" := by
                simpa [sortNulls] using not_not.1 hnulls
              rcases hmem with rfl | rfl
              · refine ⟨⟨column, descending, some true⟩, rfl, rfl, rfl, ?_⟩
                rw [← Except.ok.inj h, String.append_assoc]
                rfl
              · refine ⟨⟨column, descending, some false⟩, rfl, rfl, rfl, ?_⟩
                rw [← Except.ok.inj h, String.append_assoc]
                rfl
  · rintro ⟨⟨column, descending, nullsFirst⟩, rfl, rfl, rfl, rfl⟩
    have hcol : column.name ∈ SortColumn.all.map SortColumn.name :=
      List.mem_map_of_mem (SortColumn.mem_all column)
    have hdirection : (if descending then "DESC" else "ASC") ∈ sortDirections := by
      cases descending <;> decide
    rw [if_neg (not_not.2 hcol), OrderTerm.direction, if_neg (not_not.2 hdirection)]
    cases nullsFirst with
    | none => exact congrArg Except.ok (String.append_empty ..).symm
    | some first =>
        cases first with
        | true => exact congrArg Except.ok (String.append_assoc ..)
        | false => exact congrArg Except.ok (String.append_assoc ..)

end Fragment

/-! ## Words -/

theorem upperChar_of_isSpace {c : Char} (h : isSpace c = true) : upperChar c = [c] := by
  have hlist : c.toNat ∈ [9, 10, 11, 12, 13, 28, 29, 30, 31, 32, 133, 160, 5760, 8192, 8193, 8194,
      8195, 8196, 8197, 8198, 8199, 8200, 8201, 8202, 8232, 8233, 8239, 8287, 12288] := by
    simp only [isSpace, Bool.or_eq_true, Bool.and_eq_true, decide_eq_true_eq] at h
    simp only [List.mem_cons, List.not_mem_nil, or_false]
    omega
  have hall : ∀ n ∈ [9, 10, 11, 12, 13, 28, 29, 30, 31, 32, 133, 160, 5760, 8192, 8193, 8194,
      8195, 8196, 8197, 8198, 8199, 8200, 8201, 8202, 8232, 8233, 8239, 8287, 12288],
      upperChar (Char.ofNat n) = [Char.ofNat n] := by decide
  simpa [Char.ofNat_toNat] using hall c.toNat hlist

theorem isSpace_toUpper {c : Char} (h : isSpace c = false) : isSpace c.toUpper = false := by
  by_cases hlower : 97 ≤ c.toNat ∧ c.toNat ≤ 122
  · have hall : ∀ n ∈ List.range' 97 26, isSpace (Char.ofNat n).toUpper = false := by decide
    have := hall c.toNat (List.mem_range'_1.2 (by omega))
    simpa [Char.ofNat_toNat] using this
  · have hsame : c.toUpper = c := dif_neg fun hval => hlower ⟨hval.1, hval.2⟩
    rwa [hsame]

/-- The capitals of the characters that have several, or one that is no letter of theirs. -/
def specialCapitals : List (List Char) :=
  [['S', 'S'], ['I'], ['S'], ['F', 'F'], ['F', 'I'], ['F', 'L'], ['F', 'F', 'I'], ['F', 'F', 'L'],
    ['S', 'T']]

theorem upperChar_cases (c : Char) : upperChar c ∈ specialCapitals ∨ upperChar c = [c.toUpper] := by
  unfold upperChar
  split_ifs <;> simp [specialCapitals]

theorem upperChar_of_not_isSpace {c : Char} (h : isSpace c = false) :
    upperChar c ≠ [] ∧ ∀ d ∈ upperChar c, isSpace d = false := by
  rcases upperChar_cases c with hspecial | hplain
  · have hall : ∀ l ∈ specialCapitals, l ≠ [] ∧ l.all (fun d => !isSpace d) = true := by decide
    obtain ⟨hne, hplain⟩ := hall _ hspecial
    exact ⟨hne, fun d hd => by simpa using List.all_eq_true.mp hplain d hd⟩
  · rw [hplain]
    refine ⟨List.cons_ne_nil _ _, fun d hd => ?_⟩
    rw [List.mem_singleton.1 hd]
    exact isSpace_toUpper h

theorem words_strip (s : String) : words (strip s) = words s := by
  rw [words, words, pieces_strip fun _ => id]

theorem words_upper (s : String) : words (upper s) = (words s).map upper := by
  rw [words, words, upper, String.toList_ofList,
    pieces_flatMap (fun _ => upperChar_of_isSpace) fun _ => upperChar_of_not_isSpace, List.map_map,
    List.map_map]
  refine List.map_congr_left fun piece _ => ?_
  rw [Function.comp_apply, Function.comp_apply, upper, String.toList_ofList]

theorem words_intercalate (parts : List String) :
    words (" ".intercalate parts) = parts.flatMap words := by
  have hspace : " ".toList = [' '] := rfl
  rw [words, String.toList_intercalate, hspace, pieces_intercalate (by decide), List.map_flatMap,
    List.flatMap_map]
  rfl

theorem of_mem_words {s w : String} (h : w ∈ words s) :
    w ≠ "" ∧ ∀ c ∈ w.toList, isSpace c = false := by
  obtain ⟨piece, hpiece, rfl⟩ := List.mem_map.1 h
  obtain ⟨hne, hplain⟩ := of_mem_pieces hpiece
  rw [String.toList_ofList]
  refine ⟨fun hempty => hne ?_, hplain⟩
  rw [← String.toList_ofList (l := piece), hempty]
  rfl

theorem words_of_plain {s : String} (hne : s ≠ "") (h : ∀ c ∈ s.toList, isSpace c = false) :
    words s = [s] := by
  rw [words, pieces_of_forall _ h, List.map_singleton, String.ofList_toList]
  intro hempty
  exact hne (String.toList_inj.1 hempty)

theorem words_eq_nil_of_isBlank {s : String} (h : isBlank s = true) : words s = [] := by
  rw [words, pieces_of_all (List.all_eq_true.1 h)]
  rfl

/-- A text of one upper-case word is one word. -/
theorem words_of_upper_strip {s token : String} (h : upper (strip s) = token)
    (htoken : words token = [token]) : ∃ w, words s = [w] ∧ upper w = token := by
  have hmap : (words s).map upper = [token] := by
    rw [← words_strip, ← words_upper, h, htoken]
  obtain ⟨w, hw, rfl⟩ := List.map_eq_singleton_iff.1 hmap
  exact ⟨w, hw, rfl⟩

/-! ## Two syntaxes of a term -/

/-- A term as a caller spells it. -/
structure TermText where
  column : String
  direction : Option String := none
  nulls : Option String := none

namespace TermText

variable (t : TermText)

/-- `(col, direction[, nulls])`. -/
def tuple : Value :=
  .seq (.str t.column ::
    match t.direction, t.nulls with
    | none, none => []
    | some direction, none => [.str direction]
    | direction, some nulls => [direction.elim .none .str, .str nulls])

/-- `"col [ASC|DESC] [NULLS FIRST|LAST]"`. -/
def string : String := " ".intercalate (t.column :: (t.direction.toList ++ t.nulls.toList))

end TermText

/-- The term of a text. -/
def termOf (s : String) : TermText :=
  let joined := fun rest : List String => if rest.isEmpty then none else some (" ".intercalate rest)
  match words s with
  | [] => ⟨"", none, none⟩
  | [col] => ⟨col, none, none⟩
  | col :: token :: rest =>
      if upper token ∈ sortDirections then ⟨col, some token, joined rest⟩
      else ⟨col, none, joined (token :: rest)⟩

/-- An optional token in upper case; an empty one is left out. -/
def spoken (value : Option String) : Option String :=
  value.bind fun s => if s ≠ "" then some (upper (strip s)) else none

section Syntaxes

variable {repr : List Value → String} {quote : String → String} {table : String}

theorem parseTerm_tuple (t : TermText) :
    parseTerm repr quote table t.tuple =
      fragment quote table (strip t.column) ((spoken t.direction).getD "ASC") (spoken t.nulls) := by
  obtain ⟨column, direction, nulls⟩ := t
  cases direction with
  | none =>
      cases nulls with
      | none => rfl
      | some nulls => simp [TermText.tuple, parseTerm, part, spoken, Value.truthy, Value.text]
  | some direction =>
      cases nulls with
      | none => simp [TermText.tuple, parseTerm, part, spoken, Value.truthy, Value.text]
      | some nulls => simp [TermText.tuple, parseTerm, part, spoken, Value.truthy, Value.text]

theorem parseTerm_str {s col : String} {tokens : List String} (h : words s = col :: tokens) :
    parseTerm repr quote table (.str s) =
      fragment quote table col (splitDirection tokens).1
        (if (splitDirection tokens).2.isEmpty then none
          else some (upper (" ".intercalate (splitDirection tokens).2))) := by
  rw [parseTerm, Value.text, h]
  · intro h
    cases h
  · intro _ _ h
    cases h

theorem name_ne_empty (c : SortColumn) : c.name ≠ "" ∧ ∀ d ∈ c.name.toList, isSpace d = false :=
  ⟨by cases c <;> decide, forall_mem_of_all (by cases c <;> decide)⟩

/-- The words of an optional direction that is one. -/
theorem words_of_direction {t : OrderTerm} {value : Option String}
    (h : (spoken value).getD "ASC" = t.direction) :
    (spoken value = none ∧ value.toList.flatMap words = [] ∧ t.direction = "ASC") ∨
      ∃ w, value.toList.flatMap words = [w] ∧ upper w = t.direction := by
  cases value with
  | none => exact .inl ⟨rfl, rfl, h.symm⟩
  | some s =>
      by_cases hempty : s = ""
      · subst hempty
        exact .inl ⟨rfl, by decide, h.symm⟩
      · refine .inr ?_
        have hspoken : spoken (some s) = some (upper (strip s)) := if_pos hempty
        rw [hspoken, Option.getD_some] at h
        have htoken : words t.direction = [t.direction] := by
          unfold OrderTerm.direction
          cases t.descending <;> decide
        obtain ⟨w, hw, hup⟩ := words_of_upper_strip h htoken
        exact ⟨w, by simp [hw], hup⟩

/-- The words of an optional order of nulls that is one. -/
theorem words_of_nulls {t : OrderTerm} {value : Option String} (h : spoken value = t.nulls) :
    (t.nulls = none ∧ value.toList.flatMap words = []) ∨
      ∃ v w, value.toList.flatMap words = [v, w] ∧ upper v = "NULLS" ∧
        t.nulls = some (upper v ++ " " ++ upper w) := by
  cases value with
  | none => exact .inl ⟨h.symm, rfl⟩
  | some s =>
      by_cases hempty : s = ""
      · subst hempty
        exact .inl ⟨h.symm, by decide⟩
      · refine .inr ?_
        have hspoken : spoken (some s) = some (upper (strip s)) := if_pos hempty
        rw [hspoken] at h
        cases hnulls : t.nullsFirst with
        | none =>
            rw [OrderTerm.nulls, hnulls] at h
            cases h
        | some first =>
            rw [OrderTerm.nulls, hnulls, Option.map_some, Option.some.injEq] at h
            have htwo : words (if first then "NULLS FIRST" else "NULLS LAST") =
                ["NULLS", if first then "FIRST" else "LAST"] := by cases first <;> decide
            have hmap : (words s).map upper = ["NULLS", if first then "FIRST" else "LAST"] := by
              rw [← words_strip, ← words_upper, h, htwo]
            cases hwords : words s with
            | nil =>
                rw [hwords] at hmap
                cases hmap
            | cons v rest =>
                rw [hwords, List.map_cons, List.cons.injEq] at hmap
                obtain ⟨w, rfl, hw⟩ := List.map_eq_singleton_iff.1 hmap.2
                refine ⟨v, w, by simp [hwords], hmap.1, ?_⟩
                rw [OrderTerm.nulls, hnulls, Option.map_some, hmap.1, hw]
                cases first <;> rfl

theorem upper_two (v w : String) : upper (" ".intercalate [v, w]) = upper v ++ " " ++ upper w := by
  have hjoin : (" ".intercalate [v, w]) = v ++ " " ++ w := by
    rw [← String.toList_inj]
    simp
  rw [hjoin, ← String.toList_inj]
  simp [upper, String.toList_append, List.flatMap_append]
  rfl

/-- **What a tuple is accepted as, its string form is.** -/
theorem parseTerm_of_tuple {t : TermText} {frag : String}
    (h : parseTerm repr quote table t.tuple = .ok frag) :
    parseTerm repr quote table (.str t.string) = .ok frag := by
  rw [parseTerm_tuple, fragment_eq_ok_iff] at h
  obtain ⟨o, hcol, hdirection, hnulls, rfl⟩ := h
  obtain ⟨hne, hplain⟩ := name_ne_empty o.column
  have hname : words t.column = [o.column.name] := by
    rw [← words_strip, hcol, words_of_plain hne hplain]
  have hwords : words t.string =
      o.column.name :: (t.direction.toList.flatMap words ++ t.nulls.toList.flatMap words) := by
    rw [TermText.string, words_intercalate, List.flatMap_cons, hname, List.flatMap_append]
    rfl
  rw [parseTerm_str hwords, fragment_eq_ok_iff]
  refine ⟨o, rfl, ?_⟩
  have hdirections : o.direction ∈ sortDirections := by
    unfold OrderTerm.direction
    cases o.descending <;> decide
  rcases words_of_direction hdirection with ⟨-, hnone, hasc⟩ | ⟨d, hd, hup⟩
  · rcases words_of_nulls hnulls with ⟨hnil, hempty⟩ | ⟨v, w, hvw, hv, hsome⟩
    · rw [hnone, hempty, hnil, hasc]
      exact ⟨rfl, rfl, rfl⟩
    · have hnot : upper v ∉ sortDirections := by
        rw [hv]
        decide
      rw [hnone, hvw, hsome, hasc, List.nil_append, splitDirection, if_neg hnot, upper_two]
      exact ⟨rfl, rfl, rfl⟩
  · have hin : upper d ∈ sortDirections := hup ▸ hdirections
    rcases words_of_nulls hnulls with ⟨hnil, hempty⟩ | ⟨v, w, hvw, -, hsome⟩
    · rw [hd, hempty, hnil, ← hup, List.append_nil, splitDirection, if_pos hin]
      exact ⟨rfl, rfl, rfl⟩
    · rw [hd, hvw, hsome, ← hup, List.singleton_append, splitDirection, if_pos hin, ← upper_two]
      exact ⟨rfl, rfl, rfl⟩

/-- Joined words neither begin nor end with a blank. -/
theorem strip_intercalate {parts : List String}
    (h : ∀ w ∈ parts, w ≠ "" ∧ ∀ c ∈ w.toList, isSpace c = false) :
    strip (" ".intercalate parts) = " ".intercalate parts := by
  have hne : ∀ w ∈ parts, w.toList ≠ [] := fun w hw hempty =>
    (h w hw).1 (String.toList_inj.1 hempty)
  have hlist : (" ".intercalate parts).toList = [' '].intercalate (parts.map String.toList) :=
    String.toList_intercalate
  refine strip_eq_self (fun c hc => ?_) fun c hc => ?_
  · cases parts with
    | nil => cases hc
    | cons w parts =>
        have hhead : ([' '].intercalate ((w :: parts).map String.toList)).head? = w.toList.head? := by
          obtain ⟨d, ds, hd⟩ := List.exists_cons_of_ne_nil (hne w (List.mem_cons_self ..))
          cases parts with
          | nil => simp
          | cons v parts => simp [List.intercalate_cons_cons, hd]
        rw [hlist, hhead] at hc
        exact (h w (List.mem_cons_self ..)).2 c (List.mem_of_mem_head? hc)
  · rw [hlist] at hc
    clear hlist
    induction parts with
    | nil => cases hc
    | cons w parts ih =>
        cases parts with
        | nil =>
            rw [List.map_singleton, List.intercalate_singleton] at hc
            exact (h w (List.mem_cons_self ..)).2 c (List.mem_of_mem_getLast? hc)
        | cons v parts =>
            have hrest : [' '].intercalate ((v :: parts).map String.toList) ≠ [] := by
              obtain ⟨d, ds, hd⟩ := List.exists_cons_of_ne_nil
                (hne v (List.mem_cons_of_mem _ (List.mem_cons_self ..)))
              cases parts with
              | nil => simp [hd]
              | cons u parts => simp [List.intercalate_cons_cons, hd]
            rw [List.map_cons, List.map_cons, List.intercalate_cons_cons, ← List.map_cons,
              List.getLast?_append_of_ne_nil _ hrest] at hc
            exact ih (fun u hu => h u (List.mem_cons_of_mem _ hu))
              (fun u hu => hne u (List.mem_cons_of_mem _ hu)) hc

theorem intercalate_ne_empty {w : String} (parts : List String) (h : w ≠ "") :
    " ".intercalate (w :: parts) ≠ "" := by
  intro hempty
  have hlist := congrArg String.toList hempty
  rw [String.toList_intercalate] at hlist
  obtain ⟨d, ds, hd⟩ := List.exists_cons_of_ne_nil
    (fun hnil => h (String.toList_inj.1 hnil) : w.toList ≠ [])
  cases parts with
  | nil => simp [hd] at hlist
  | cons v parts => simp [List.intercalate_cons_cons, hd] at hlist

theorem spoken_joined {parts : List String}
    (h : ∀ w ∈ parts, w ≠ "" ∧ ∀ c ∈ w.toList, isSpace c = false) :
    spoken (if parts.isEmpty then none else some (" ".intercalate parts)) =
      if parts.isEmpty then none else some (upper (" ".intercalate parts)) := by
  cases parts with
  | nil => rfl
  | cons w parts =>
      have hne := intercalate_ne_empty parts (h w (List.mem_cons_self ..)).1
      simp only [List.isEmpty_cons, Bool.false_eq_true, if_false]
      rw [spoken, Option.bind_some, if_pos hne, strip_intercalate h]

/-- **What a text is read as, its tuple is.** -/
theorem parseTerm_termOf {s : String} (h : isBlank s = false) :
    parseTerm repr quote table (termOf s).tuple = parseTerm repr quote table (.str s) := by
  have hwords : ∀ w ∈ words s, w ≠ "" ∧ ∀ c ∈ w.toList, isSpace c = false :=
    fun w hw => of_mem_words hw
  rw [parseTerm_tuple]
  cases hlist : words s with
  | nil =>
      obtain ⟨c, hc, hspace⟩ := List.all_eq_false.1 h
      have hnil : pieces isSpace s.toList = [] := List.map_eq_nil_iff.1 hlist
      exact absurd hnil (pieces_ne_nil hc (by simpa using hspace))
  | cons col tokens =>
      rw [hlist] at hwords
      have hcol : strip col = col := strip_of_forall (hwords col (List.mem_cons_self ..)).2
      rw [parseTerm_str hlist, termOf, hlist]
      cases tokens with
      | nil =>
          rw [hcol]
          rfl
      | cons token rest =>
          have htokens : ∀ w ∈ token :: rest, w ≠ "" ∧ ∀ c ∈ w.toList, isSpace c = false :=
            fun w hw => hwords w (List.mem_cons_of_mem _ hw)
          obtain ⟨hne, hplain⟩ := htokens token (List.mem_cons_self ..)
          by_cases hin : upper token ∈ sortDirections
          · have hspoken : spoken (some token) = some (upper token) := by
              rw [spoken, Option.bind_some, if_pos hne, strip_of_forall hplain]
            simp only [if_pos hin, splitDirection, hcol]
            rw [hspoken, spoken_joined fun w hw => htokens w (List.mem_cons_of_mem _ hw)]
            rfl
          · simp only [if_neg hin, splitDirection, hcol]
            rw [spoken_joined htokens]
            rfl

end Syntaxes

/-! ## The grammar -/

/-- The terms as a list of tuples. -/
def tupleForm (terms : List TermText) : Value := .seq (terms.map TermText.tuple)

/-- The terms as a comma-separated text. -/
def stringForm (terms : List TermText) : Value := .str (",".intercalate (terms.map TermText.string))

/-- The terms of a comma-separated text. -/
def termsOf (s : String) : List TermText :=
  (((s.toList.splitOn ',').map String.ofList).filter fun t => !isBlank t).map termOf

section Grammar

variable {repr : List Value → String} {quote : String → String} {table : String}

theorem sortTerms_str {s : String} (h : s ≠ "") : sortTerms (.str s) = .ok (splitTerms s) := by
  rw [sortTerms, Value.truthy, decide_eq_true h]
  rfl

theorem exists_text_of_parseTerm {term : Value} {frag : String}
    (h : parseTerm repr quote table term = .ok frag) : ∃ t : OrderTerm, t.text table = frag := by
  have hwords : ∀ s : String, parseTerm repr quote table (.str s) = .ok frag →
      ∃ t : OrderTerm, t.text table = frag := by
    intro s hs
    cases hlist : words s with
    | nil =>
        rw [parseTerm, Value.text, hlist] at hs
        · cases hs
        · intro h
          cases h
        · intro _ _ h
          cases h
    | cons col tokens =>
        rw [parseTerm_str hlist, fragment_eq_ok_iff] at hs
        obtain ⟨t, -, -, -, rfl⟩ := hs
        exact ⟨t, rfl⟩
  cases term with
  | none => exact hwords "None" h
  | str s => exact hwords s h
  | seq items =>
      cases items with
      | nil => cases h
      | cons col parts =>
          obtain ⟨t, -, -, -, rfl⟩ := fragment_eq_ok_iff.1 h
          exact ⟨t, rfl⟩
  | other truthy text => exact hwords text h

/-- The clause of terms that are all accepted. -/
theorem buildSort_of_terms {sort : Value} {terms : List Value} {clause : String}
    (hterms : sortTerms sort = .ok terms) :
    buildSort repr quote table sort = .ok clause ↔ ∃ frags, frags ≠ [] ∧
      List.Forall₂ (fun term frag => parseTerm repr quote table term = .ok frag) terms frags ∧
        clause = ", ".intercalate frags := by
  have hunfold : buildSort repr quote table sort =
      (terms.mapM (parseTerm repr quote table)).bind fun frags =>
        if frags.isEmpty then .error (.valueError "empty sort expression")
        else .ok (", ".intercalate frags) := by
    rw [buildSort, hterms]
    rfl
  rw [hunfold]
  cases hfrags : terms.mapM (parseTerm repr quote table) with
  | error e =>
      constructor
      · intro h
        cases h
      · rintro ⟨frags, -, hall, -⟩
        rw [mapM_eq_ok_iff.2 hall] at hfrags
        cases hfrags
  | ok frags =>
      have hall := mapM_eq_ok_iff.1 hfrags
      simp only [Except.bind]
      constructor
      · intro h
        split at h
        · cases h
        next hne =>
          exact ⟨frags, by simpa using hne, hall, (Except.ok.inj h).symm⟩
      · rintro ⟨frags', hne, hall', rfl⟩
        rw [mapM_eq_ok_iff.2 hall', Except.ok.injEq] at hfrags
        rw [← hfrags, if_neg (by simpa using hne)]

theorem comma_not_mem_upper_strip {s : String} (h : ',' ∈ s.toList) :
    ',' ∈ (upper (strip s)).toList := by
  rw [upper, String.toList_ofList, List.mem_flatMap]
  exact ⟨',', mem_strip h (by decide), by decide⟩

/-- The string form of an accepted tuple has no comma, and is not blank. -/
theorem string_of_accepted {t : TermText} {frag : String}
    (h : parseTerm repr quote table t.tuple = .ok frag) :
    ',' ∉ t.string.toList ∧ isBlank t.string = false := by
  have hstring := parseTerm_of_tuple h
  rw [parseTerm_tuple, fragment_eq_ok_iff] at h
  obtain ⟨o, hcol, hdirection, hnulls, -⟩ := h
  have hcomma : ∀ part ∈ t.column :: (t.direction.toList ++ t.nulls.toList), ',' ∉ part.toList := by
    intro part hpart hmem
    rcases List.mem_cons.1 hpart with rfl | hpart
    · have hname : ',' ∈ o.column.name.toList := hcol ▸ mem_strip hmem (by decide)
      revert hname
      cases o.column <;> decide
    · have hne : part ≠ "" := by
        rintro rfl
        cases hmem
      rcases List.mem_append.1 hpart with hpart | hpart
      · rw [Option.mem_toList.1 hpart] at hdirection
        have hspoken : spoken (some part) = some (upper (strip part)) := if_pos hne
        rw [hspoken, Option.getD_some] at hdirection
        have hupper := comma_not_mem_upper_strip hmem
        rw [hdirection] at hupper
        revert hupper
        unfold OrderTerm.direction
        cases o.descending <;> decide
      · rw [Option.mem_toList.1 hpart] at hnulls
        have hspoken : spoken (some part) = some (upper (strip part)) := if_pos hne
        have hupper := comma_not_mem_upper_strip hmem
        rw [hspoken, OrderTerm.nulls] at hnulls
        cases hfirst : o.nullsFirst with
        | none =>
            rw [hfirst] at hnulls
            cases hnulls
        | some first =>
            rw [hfirst, Option.map_some, Option.some.injEq] at hnulls
            rw [hnulls] at hupper
            revert hupper
            cases first <;> decide
  constructor
  · intro hmem
    rw [TermText.string, String.toList_intercalate] at hmem
    rcases mem_or_of_mem_intercalate hmem with hsep | ⟨part, hpart, hin⟩
    · revert hsep
      decide
    · obtain ⟨part, hpart', rfl⟩ := List.mem_map.1 hpart
      exact hcomma part hpart' hin
  · by_contra hblank
    rw [Bool.not_eq_false] at hblank
    rw [parseTerm, Value.text, words_eq_nil_of_isBlank hblank] at hstring
    · cases hstring
    · intro h
      cases h
    · intro _ _ h
      cases h

theorem splitTerms_stringForm {terms : List TermText} (hne : terms ≠ [])
    (h : ∀ t ∈ terms, ',' ∉ t.string.toList ∧ isBlank t.string = false) :
    splitTerms (",".intercalate (terms.map TermText.string)) =
      terms.map fun t => .str t.string := by
  have hcomma : ",".toList = [','] := rfl
  rw [splitTerms, String.toList_intercalate, hcomma, List.map_map, List.splitOn_intercalate]
  · have hback : (terms.map (String.toList ∘ TermText.string)).map String.ofList =
        terms.map TermText.string := by
      rw [List.map_map]
      exact List.map_congr_left fun t _ => String.ofList_toList
    rw [hback, List.filter_eq_self.2, List.map_map]
    · rfl
    · intro s hs
      obtain ⟨t, ht, rfl⟩ := List.mem_map.1 hs
      rw [(h t ht).2]
      rfl
  · intro l hl
    obtain ⟨t, ht, rfl⟩ := List.mem_map.1 hl
    exact (h t ht).1
  · simpa using hne

/-- The string form of accepted tuples gives their clause. -/
theorem buildSort_stringForm {terms : List TermText} {clause : String}
    (h : buildSort repr quote table (tupleForm terms) = .ok clause) :
    buildSort repr quote table (stringForm terms) = .ok clause := by
  cases terms with
  | nil => exact h
  | cons t terms =>
      have htuples : sortTerms (tupleForm (t :: terms)) =
          .ok ((t :: terms).map TermText.tuple) := rfl
      obtain ⟨frags, hne, hall, rfl⟩ := (buildSort_of_terms htuples).1 h
      rw [List.forall₂_map_left_iff] at hall
      have hgood : ∀ u ∈ t :: terms, ',' ∉ u.string.toList ∧ isBlank u.string = false := by
        intro u hu
        obtain ⟨frag, -, hfrag⟩ := exists_mem_of_forall₂ hall.flip hu
        exact string_of_accepted hfrag
      have hsplit := splitTerms_stringForm (List.cons_ne_nil t terms) hgood
      have hstrings : sortTerms (stringForm (t :: terms)) =
          .ok ((t :: terms).map fun u => .str u.string) := by
        rw [stringForm, sortTerms_str, hsplit]
        intro hempty
        rw [hempty] at hsplit
        cases hsplit
      refine (buildSort_of_terms hstrings).2 ⟨frags, hne, ?_, rfl⟩
      rw [List.forall₂_map_left_iff]
      exact hall.imp fun _ _ hfrag => parseTerm_of_tuple hfrag

/-- The tuples of an accepted text give its clause. -/
theorem buildSort_termsOf {s clause : String}
    (h : buildSort repr quote table (.str s) = .ok clause) :
    buildSort repr quote table (tupleForm (termsOf s)) = .ok clause := by
  by_cases hempty : s = ""
  · subst hempty
    exact h
  · obtain ⟨frags, hne, hall, rfl⟩ := (buildSort_of_terms (sortTerms_str hempty)).1 h
    rw [splitTerms, List.forall₂_map_left_iff] at hall
    have hterms : termsOf s ≠ [] := by
      rintro hnil
      rw [termsOf, List.map_eq_nil_iff] at hnil
      rw [hnil] at hall
      cases hall
      exact hne rfl
    have htuples : sortTerms (tupleForm (termsOf s)) = .ok ((termsOf s).map TermText.tuple) := by
      obtain ⟨t, rest, hcons⟩ := List.exists_cons_of_ne_nil hterms
      rw [hcons]
      rfl
    refine (buildSort_of_terms htuples).2 ⟨frags, hne, ?_, rfl⟩
    rw [termsOf, List.map_map, List.forall₂_map_left_iff]
    refine ((List.forall₂_and_left _ _).2 ⟨fun t ht => (List.mem_filter.1 ht).2, hall⟩).imp ?_
    rintro t frag ⟨hblank, hfrag⟩
    rw [Function.comp_apply, parseTerm_termOf (by simpa using hblank)]
    exact hfrag

/-- **Only the allowlists reach the clause.** -/
theorem clause_of_buildSort {sort : Value} {clause : String}
    (h : buildSort repr quote table sort = .ok clause) :
    ∃ terms : List OrderTerm, terms ≠ [] ∧
      clause = ", ".intercalate (terms.map fun t => t.text table) := by
  cases hterms : sortTerms sort with
  | error e =>
      rw [buildSort, hterms] at h
      cases h
  | ok values =>
      obtain ⟨frags, hne, hall, rfl⟩ := (buildSort_of_terms hterms).1 h
      have hfrag : ∀ frag ∈ frags, ∃ t : OrderTerm, t.text table = frag := by
        intro frag hfrag
        obtain ⟨value, -, hvalue⟩ := exists_mem_of_forall₂ hall hfrag
        obtain ⟨t, rfl⟩ := exists_text_of_parseTerm hvalue
        exact ⟨t, rfl⟩
      have hrange : frags ∈ Set.range (List.map fun t : OrderTerm => t.text table) := by
        rw [Set.range_list_map]
        exact hfrag
      obtain ⟨terms, rfl⟩ := hrange
      exact ⟨terms, fun hnil => hne (by rw [hnil]; rfl), rfl⟩


/-- **The sort grammar**: a sort is refused with `ValueError` or `TypeError`, or its clause is a list
of terms of the allowlists, and the two forms of a term list agree. -/
theorem sort_grammar (repr : List Value → String) (quote : String → String) :
    (∀ sort, (∃ message, buildSort repr quote "t" sort = .error (.valueError message)) ∨
      (∃ message, buildSort repr quote "t" sort = .error (.typeError message)) ∨
      ∃ terms : List OrderTerm, terms ≠ [] ∧
        buildSort repr quote "t" sort = .ok (", ".intercalate (terms.map fun t => t.text "t"))) ∧
    (∀ terms clause, buildSort repr quote "t" (tupleForm terms) = .ok clause →
      buildSort repr quote "t" (stringForm terms) = .ok clause) ∧
    ∀ s clause, buildSort repr quote "t" (.str s) = .ok clause →
      buildSort repr quote "t" (tupleForm (termsOf s)) = .ok clause := by
  refine ⟨fun sort => ?_, fun _ _ => buildSort_stringForm, fun _ _ => buildSort_termsOf⟩
  cases hsort : buildSort repr quote "t" sort with
  | error e =>
      cases e with
      | valueError message => exact .inl ⟨message, rfl⟩
      | typeError message => exact .inr (.inl ⟨message, rfl⟩)
  | ok clause =>
      obtain ⟨terms, hne, rfl⟩ := clause_of_buildSort hsort
      exact .inr (.inr ⟨terms, hne, rfl⟩)

/-- The default clause sorts by priority, the oldest first. -/
example : ([⟨.priority, true, none⟩, ⟨.createdAt, false, none⟩] : List OrderTerm).map
    OrderTerm.sortTerm = defaultSortTerms := by decide

end Grammar

end SortClause

end AiStudio.Runtime
