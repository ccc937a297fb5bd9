import AiStudio.Data.Lines
import AiStudio.Gateway.Tokens

/-!
# The secrets file

`read_dotenv_value`, `write_dotenv_value` and `mint` of `gateway/client.py`. The file is a text:
its mode, its encoding and its directory are left out. A key is the name of an environment
variable, so the patterns of the source have one way to match.
-/

set_option autoImplicit false

namespace AiStudio.Gateway

open AiStudio.Data

/-! ## Keys -/

/-- A character of the name of an environment variable. -/
def isNameChar (c : Char) : Bool := c.isAlphanum || c = '_'

/-- The name of an environment variable. -/
@[ext]
structure EnvName where
  name : String
  named : name.toList ≠ []
  plain : ∀ c ∈ name.toList, isNameChar c = true

/-- `ENV_TOKENS`. -/
def envTokens : EnvName where
  name := "TASK_GATEWAY_TOKENS"
  named := by decide
  plain := forall_mem_of_all (by decide)

/-- `[ \t]`. -/
def isGap (c : Char) : Bool := c = ' ' || c = '\t'

/-- What a line has after `^[ \t]*KEY[ \t]*=`. -/
def afterKey (key : EnvName) (line : List Char) : Option (List Char) :=
  ((line.dropWhile isGap).dropPrefix? key.name.toList).bind fun rest =>
    match rest.dropWhile isGap with
    | '=' :: value => some value
    | _ => none

/-- A line begins with `^[ \t]*#?[ \t]*KEY[ \t]*=`: it assigns the key, commented out or not. -/
def owns (key : EnvName) (line : List Char) : Bool :=
  (afterKey key line).isSome ||
    match line.dropWhile isGap with
    | '#' :: rest => (afterKey key rest).isSome
    | _ => false

/-! ## Reading and writing -/

/-- A value without the quotes around it. -/
def unquote (raw : String) : String :=
  match raw.toList with
  | quote :: c :: rest =>
      if (c :: rest).getLast? = some quote && "\"'".toList.contains quote then
        String.ofList (c :: rest).dropLast
      else raw
  | _ => raw

/-- The value a line gives the key. -/
def valueIn (key : EnvName) (line : String) : Option String :=
  (afterKey key line.toList).map fun raw => unquote (strip (String.ofList raw))

/-- `read_dotenv_value`, of a file that may be missing. -/
def readDotenvValue (file : Option String) (key : EnvName) : String :=
  match file with
  | none => ""
  | some text => ((splitLines (universalNewlines text)).findSome? (valueIn key)).getD ""

/-- `text.endswith("\n")`. -/
def endsNewline (text : String) : Bool := text.toList.getLast? = some '\n'

/-- `line if line.endswith("\n") else line + "\n"`. -/
def withNewline (line : String) : String := if endsNewline line then line else line ++ "\n"

/-- A line is one of those that `write_dotenv_value` replaces: `key_re.match(line.rstrip("\n\r"))`. -/
def isOwned (key : EnvName) (line : String) : Bool :=
  owns key (line.toList.rdropWhile fun c => c = '\n' || c = '\r')

/-- The lines the loop puts out, and whether it has found the key: the first assignment gives way
to the new one, the others are dropped. -/
def rewriteLines (key : EnvName) (assignment : String) : Bool → List String → List String × Bool
  | found, [] => ([], found)
  | found, line :: lines =>
      if isOwned key line then
        let (out, last) := rewriteLines key assignment true lines
        (if found then out else assignment :: out, last)
      else
        let (out, last) := rewriteLines key assignment found lines
        (withNewline line :: out, last)

/-- The lines before an assignment that is put at the end: a blank line separates it. -/
def separated (out : List String) : List String :=
  match out.getLast? with
  | none => out
  | some last =>
      let out := out.dropLast ++ [withNewline last]
      if isBlank (withNewline last) then out else out ++ ["\n"]

/-- `write_dotenv_value`: the text the file is left with. -/
def writeDotenvValue (file : Option String) (key : EnvName) (value : String) : String :=
  let text := universalNewlines (file.getD "")
  let hadTrailing := text = "" || endsNewline text
  let assignment := key.name ++ "=" ++ value ++ "\n"
  let (out, found) := rewriteLines key assignment false (keepLines text)
  let body := String.join (if found then out else separated out ++ [assignment])
  if hadTrailing && !endsNewline body then body ++ "\n" else body

/-! ## What the patterns match -/

section Keys

variable {key : EnvName} {line : List Char}

theorem isGap_of_isNameChar {c : Char} (h : isNameChar c = true) : isGap c = false := by
  cases hgap : isGap c with
  | false => rfl
  | true =>
      rw [isGap, Bool.or_eq_true, decide_eq_true_eq, decide_eq_true_eq] at hgap
      rcases hgap with rfl | rfl
      · revert h
        decide
      · revert h
        decide

theorem dropWhile_gap {gap rest : List Char} (hgap : ∀ c ∈ gap, isGap c = true)
    (hrest : ∀ c ∈ rest.head?, isGap c = false) : (gap ++ rest).dropWhile isGap = rest := by
  rw [List.dropWhile_append_of_pos hgap]
  cases rest with
  | nil => rfl
  | cons c rest => exact List.dropWhile_cons_of_neg (by simp [hrest c rfl])

theorem head?_name (key : EnvName) (rest : List Char) :
    ∀ c ∈ (key.name.toList ++ rest).head?, isGap c = false := by
  obtain ⟨c, name, hname⟩ := List.exists_cons_of_ne_nil key.named
  rw [hname]
  intro d hd
  obtain rfl := Option.some.inj hd
  exact isGap_of_isNameChar (key.plain c (by simp [hname]))

/-- The pattern of an assignment. -/
theorem afterKey_eq_some_iff {value : List Char} :
    afterKey key line = some value ↔
      ∃ gap gap', (∀ c ∈ gap, isGap c = true) ∧ (∀ c ∈ gap', isGap c = true) ∧
        line = gap ++ (key.name.toList ++ (gap' ++ '=' :: value)) := by
  have hequals : ∀ c ∈ ('=' :: value).head?, isGap c = false := by
    intro c hc
    obtain rfl := Option.some.inj hc
    decide
  constructor
  · intro h
    obtain ⟨rest, hrest, hmatch⟩ := Option.bind_eq_some_iff.1 h
    obtain ⟨name, hname, heq⟩ := List.dropPrefix?_eq_some_iff.1 hrest
    obtain rfl := eq_of_beq heq
    refine ⟨line.takeWhile isGap, rest.takeWhile isGap, ?_, ?_, ?_⟩
    · exact fun c hc => List.mem_takeWhile_imp hc
    · exact fun c hc => List.mem_takeWhile_imp hc
    · split at hmatch
      next found hfound =>
        obtain rfl := Option.some.inj hmatch
        rw [← hfound, List.takeWhile_append_dropWhile, ← hname, List.takeWhile_append_dropWhile]
      next => cases hmatch
  · rintro ⟨gap, gap', hgap, hgap', rfl⟩
    rw [afterKey, dropWhile_gap hgap (head?_name key _),
      List.dropPrefix?_append_of_beq _ (beq_self_eq_true _), Option.bind_some,
      dropWhile_gap hgap' hequals]
    rfl

/-- What the pattern of an assignment matches. -/
inductive Assigns (key : EnvName) : List Char → Prop where
  | plain {gap gap' : List Char} (hgap : ∀ c ∈ gap, isGap c = true)
      (hgap' : ∀ c ∈ gap', isGap c = true) :
      Assigns key (gap ++ (key.name.toList ++ (gap' ++ ['='])))

/-- What the pattern of an owned line matches. -/
inductive Leads (key : EnvName) : List Char → Prop where
  | plain {lead : List Char} (h : Assigns key lead) : Leads key lead
  | commented {gap lead : List Char} (hgap : ∀ c ∈ gap, isGap c = true) (h : Assigns key lead) :
      Leads key (gap ++ '#' :: lead)

theorem isSome_afterKey_iff :
    (afterKey key line).isSome = true ↔ ∃ lead value, Assigns key lead ∧ line = lead ++ value := by
  rw [Option.isSome_iff_exists]
  constructor
  · rintro ⟨value, h⟩
    obtain ⟨gap, gap', hgap, hgap', rfl⟩ := afterKey_eq_some_iff.1 h
    exact ⟨_, value, .plain hgap hgap', by simp⟩
  · rintro ⟨_, value, ⟨hgap, hgap'⟩, rfl⟩
    exact ⟨value, afterKey_eq_some_iff.2 ⟨_, _, hgap, hgap', by simp⟩⟩

theorem owns_iff : owns key line = true ↔ ∃ lead value, Leads key lead ∧ line = lead ++ value := by
  rw [owns, Bool.or_eq_true, isSome_afterKey_iff]
  constructor
  · rintro (⟨lead, value, hlead, rfl⟩ | hcommented)
    · exact ⟨lead, value, .plain hlead, rfl⟩
    · split at hcommented
      next rest hrest =>
        obtain ⟨lead, value, hlead, rfl⟩ := isSome_afterKey_iff.1 hcommented
        refine ⟨line.takeWhile isGap ++ '#' :: lead, value, ?_, ?_⟩
        · exact .commented (fun c hc => List.mem_takeWhile_imp hc) hlead
        · rw [List.append_assoc, List.cons_append, ← hrest, List.takeWhile_append_dropWhile]
      next => cases hcommented
  · rintro ⟨_, value, ⟨hlead⟩ | ⟨hgap, hlead⟩, rfl⟩
    · exact .inl ⟨_, value, hlead, rfl⟩
    · right
      rw [List.append_assoc, List.cons_append, dropWhile_gap hgap]
      · exact isSome_afterKey_iff.2 ⟨_, value, hlead, rfl⟩
      · intro c hc
        obtain rfl := Option.some.inj hc
        decide

theorem not_isLineBreak_of_isGap {c : Char} (h : isGap c = true) : isLineBreak c = false := by
  rw [isGap, Bool.or_eq_true, decide_eq_true_eq, decide_eq_true_eq] at h
  rcases h with rfl | rfl
  · decide
  · decide

theorem not_isLineBreak_of_isNameChar {c : Char} (h : isNameChar c = true) :
    isLineBreak c = false := by
  rw [isNameChar, Bool.or_eq_true, decide_eq_true_eq] at h
  rcases h with h | rfl
  · exact not_isLineBreak_of_isAlphanum h
  · decide

/-- No pattern goes over the end of a line. -/
theorem not_isLineBreak_of_leads {lead : List Char} (h : Leads key lead) :
    ∀ c ∈ lead, isLineBreak c = false := by
  have hassigns {lead : List Char} (h : Assigns key lead) : ∀ c ∈ lead, isLineBreak c = false := by
    obtain ⟨hgap, hgap'⟩ := h
    intro c hc
    simp only [List.mem_append, List.mem_singleton] at hc
    rcases hc with hc | hc | hc | rfl
    · exact not_isLineBreak_of_isGap (hgap c hc)
    · exact not_isLineBreak_of_isNameChar (key.plain c hc)
    · exact not_isLineBreak_of_isGap (hgap' c hc)
    · decide
  cases h with
  | plain h => exact hassigns h
  | commented hgap h =>
      intro c hc
      rcases List.mem_append.1 hc with hc | hc
      · exact not_isLineBreak_of_isGap (hgap c hc)
      · rcases List.mem_cons.1 hc with rfl | hc
        · decide
        · exact hassigns h c hc

/-- What ends a line does not decide whose it is. -/
theorem owns_append {ending : List Char} (hending : ∀ c ∈ ending, isLineBreak c = true) :
    owns key (line ++ ending) = owns key line := by
  rw [Bool.eq_iff_iff, owns_iff, owns_iff]
  constructor
  · rintro ⟨lead, value, hlead, heq⟩
    rcases List.append_eq_append_iff.1 heq with ⟨part, rfl, hpart⟩ | ⟨part, rfl, -⟩
    · cases part with
      | nil => exact ⟨line, [], by simpa using hlead, by simp⟩
      | cons c part =>
          have hplain := not_isLineBreak_of_leads hlead c (by simp)
          rw [hending c (by simp [hpart])] at hplain
          cases hplain
    · exact ⟨lead, part, hlead, rfl⟩
  · rintro ⟨lead, value, hlead, rfl⟩
    exact ⟨lead, value ++ ending, hlead, List.append_assoc ..⟩

theorem takeWhile_name (key : EnvName) {gap value : List Char} (hgap : ∀ c ∈ gap, isGap c = true) :
    (key.name.toList ++ (gap ++ '=' :: value)).takeWhile isNameChar = key.name.toList := by
  rw [List.takeWhile_append_of_pos key.plain]
  cases gap with
  | nil =>
      rw [List.nil_append, List.takeWhile_cons_of_neg (by decide), List.append_nil]
  | cons c gap =>
      have hc : ¬isNameChar c = true := by
        intro hname
        have hgapped := hgap c (List.mem_cons_self ..)
        rw [isGap_of_isNameChar hname] at hgapped
        cases hgapped
      rw [List.cons_append, List.takeWhile_cons_of_neg hc, List.append_nil]

/-- A line gives a value to one key only. -/
theorem afterKey_eq_none_of_owns {other : EnvName} (hne : other ≠ key) (h : owns key line = true) :
    afterKey other line = none := by
  by_contra hsome
  obtain ⟨value, hvalue⟩ := Option.ne_none_iff_exists'.1 hsome
  obtain ⟨gap, gap', hgap, hgap', heq⟩ := afterKey_eq_some_iff.1 hvalue
  have hrest : line.dropWhile isGap = other.name.toList ++ (gap' ++ '=' :: value) := by
    rw [heq, dropWhile_gap hgap (head?_name other _)]
  obtain ⟨lead, value', hlead, hline⟩ := owns_iff.1 h
  rw [hline] at hrest
  cases hlead with
  | plain hlead =>
      obtain ⟨hfirst, hsecond⟩ := hlead
      simp only [List.append_assoc, List.singleton_append] at hrest
      rw [dropWhile_gap hfirst (head?_name key _)] at hrest
      have hnames := congrArg (List.takeWhile isNameChar) hrest
      rw [takeWhile_name key hsecond, takeWhile_name other hgap'] at hnames
      exact hne (EnvName.ext (String.toList_injective hnames.symm))
  | commented hfirst hlead =>
      rw [List.append_assoc, List.cons_append, dropWhile_gap hfirst] at hrest
      · obtain ⟨c, name, hname⟩ := List.exists_cons_of_ne_nil other.named
        rw [hname] at hrest
        obtain ⟨rfl, -⟩ := List.cons.inj hrest
        have hplain := other.plain '#' (by simp [hname])
        revert hplain
        decide
      · intro c hc
        obtain rfl := Option.some.inj hc
        decide

end Keys

/-! ## What is written -/

/-- The lines of a text that are not empty. -/
def filledLines (text : String) : List String := (splitLines text).filter (· ≠ "")

theorem exists_newline (line : String) : ∃ cs, (withNewline line).toList = cs ++ ['\n'] := by
  unfold withNewline
  split
  next h =>
    rw [endsNewline, decide_eq_true_eq] at h
    exact ⟨_, (List.dropLast_append_getLast? _ h).symm⟩
  next => exact ⟨line.toList, String.toList_append⟩

/-- Texts that each end with a newline are read one after the other. -/
theorem filledLines_join {texts : List String}
    (h : ∀ text ∈ texts, ∃ cs, text.toList = cs ++ ['\n']) :
    filledLines (String.join texts) = texts.flatMap filledLines := by
  have hjoin := splitLines_join h ""
  have hempty : splitLines "" = [] := rfl
  rw [String.append_empty, hempty, List.append_nil] at hjoin
  rw [filledLines, hjoin, List.filter_flatMap]
  rfl

section Kept

variable {key : EnvName} {text line : String}

theorem exists_of_mem_keepLines (h : line ∈ keepLines text) :
    ∃ body ending, (∀ c ∈ body, isLineBreak c = false) ∧ LineEnd ending ∧
      line = String.ofList (body ++ ending) := by
  obtain ⟨ended, hended, rfl⟩ := List.mem_map.1 h
  obtain ⟨hbody, hending⟩ := of_mem_endedLines hended
  exact ⟨ended.1, ended.2, hbody, hending, rfl⟩

theorem firstLine_of_lineEnd {body ending : List Char} (hbody : ∀ c ∈ body, isLineBreak c = false)
    (hending : LineEnd ending) : firstLine (String.ofList (body ++ ending)) = String.ofList body := by
  apply String.toList_injective
  rw [firstLine_toList, String.toList_ofList, String.toList_ofList,
    List.takeWhile_append_of_pos fun c hc => by simp [hbody c hc]]
  cases hending with
  | missing => simp
  | single h => simp [h]
  | pair => simp [isLineBreak]

/-- The lines of a text are the first lines of what its loop goes over. -/
theorem map_firstLine_keepLines (text : String) : (keepLines text).map firstLine = splitLines text := by
  rw [keepLines, splitLines_eq_map, List.map_map]
  refine List.map_congr_left fun ended hended => ?_
  obtain ⟨hbody, hending⟩ := of_mem_endedLines hended
  exact firstLine_of_lineEnd hbody hending

theorem isOwned_of_mem_keepLines (h : line ∈ keepLines text) :
    isOwned key line = owns key (firstLine line).toList := by
  obtain ⟨body, ending, hbody, hending, rfl⟩ := exists_of_mem_keepLines h
  rw [isOwned, String.toList_ofList, firstLine_of_lineEnd hbody hending, String.toList_ofList]
  have hself : (body.rdropWhile fun c => c = '\n' || c = '\r') = body := by
    rw [List.rdropWhile_eq_self_iff]
    intro hne hlast
    have hplain := hbody _ (List.getLast_mem hne)
    rw [Bool.or_eq_true, decide_eq_true_eq, decide_eq_true_eq] at hlast
    rcases hlast with hlast | hlast
    · rw [hlast] at hplain
      cases hplain
    · rw [hlast] at hplain
      cases hplain
  cases hending with
  | missing => rw [List.append_nil, hself]
  | @single c hc =>
      rw [List.rdropWhile_concat]
      split
      · rw [hself]
      · exact owns_append (by simpa using hc)
  | pair =>
      have hsplit : body ++ ['\r', '\n'] = (body ++ ['\r']) ++ ['\n'] := by simp
      rw [hsplit, List.rdropWhile_concat, if_pos (by decide), List.rdropWhile_concat,
        if_pos (by decide), hself]

/-- A line that is kept is read as it was; a line break that is not `\n` leaves an empty line
behind it. -/
theorem filledLines_of_mem_keepLines (h : line ∈ keepLines text) :
    filledLines (withNewline line) = [firstLine line].filter (· ≠ "") := by
  obtain ⟨body, ending, hbody, hending, rfl⟩ := exists_of_mem_keepLines h
  rw [firstLine_of_lineEnd hbody hending]
  have hread {ending : List Char} (rest : String) (hrest : rest.toList = body ++ ending) :
      splitLines rest = linesFrom body.reverse ending := by
    rw [splitLines, hrest, linesFrom_append hbody, List.append_nil]
  have hnewline : linesFrom body.reverse ['\n'] = [String.ofList body] := by
    simp [linesFrom, isLineBreak]
  have hpair : linesFrom body.reverse ['\r', '\n'] = [String.ofList body] := by
    simp [linesFrom]
  cases hending with
  | missing =>
      have hopen : endsNewline (String.ofList (body ++ [])) = false := by
        rw [endsNewline, String.toList_ofList, List.append_nil, decide_eq_false_iff_not]
        intro hlast
        have := hbody _ (List.mem_of_getLast? hlast)
        revert this
        decide
      have hshut : ¬endsNewline (String.ofList (body ++ [])) = true := by
        rw [hopen]
        decide
      have hadded : (String.ofList (body ++ []) ++ "\n").toList = body ++ ['\n'] := by simp
      rw [withNewline, if_neg hshut, filledLines, hread _ hadded, hnewline]
  | @single c hc =>
      by_cases hc' : c = '\n'
      · subst hc'
        have hclosed : endsNewline (String.ofList (body ++ ['\n'])) = true := by
          simp [endsNewline]
        rw [withNewline, if_pos hclosed, filledLines, hread _ String.toList_ofList, hnewline]
      · have hopen : ¬endsNewline (String.ofList (body ++ [c])) = true := by
          simp [endsNewline, hc']
        have htext : (String.ofList (body ++ [c]) ++ "\n").toList = body ++ [c, '\n'] := by simp
        rw [withNewline, if_neg hopen, filledLines, hread _ htext]
        by_cases hr : c = '\r'
        · rw [hr, hpair]
        · have htwo : linesFrom body.reverse [c, '\n'] = [String.ofList body, ""] := by
            rw [linesFrom, if_pos hc]
            · simp [linesFrom, isLineBreak]
            · exact fun _ heq => absurd heq hr
          rw [htwo]
          simp [List.filter_cons]
  | pair =>
      have hclosed : endsNewline (String.ofList (body ++ ['\r', '\n'])) = true := by
        simp [endsNewline]
      rw [withNewline, if_pos hclosed, filledLines, hread _ String.toList_ofList, hpair]

end Kept

section Write

variable (key : EnvName) (assignment value : String)

/-- The lines that the writer keeps. -/
def keptLines (lines : List String) : List String := lines.filter fun line => !isOwned key line

/-- The loop keeps the lines of others in their order, and the assignment takes the place of the
first line of the key if there is one. -/
theorem exists_rewriteLines (lines : List String) :
    ∃ before after, before ++ after = keptLines key lines ∧
      (rewriteLines key assignment false lines =
          (before.map withNewline ++ assignment :: after.map withNewline, true) ∨
        after = [] ∧ rewriteLines key assignment false lines = (before.map withNewline, false)) := by
  have hfound (lines : List String) : rewriteLines key assignment true lines =
      ((keptLines key lines).map withNewline, true) := by
    induction lines with
    | nil => rfl
    | cons line lines ih =>
        rw [rewriteLines, ih]
        cases howned : isOwned key line with
        | true => simp [keptLines, howned]
        | false => simp [keptLines, howned]
  induction lines with
  | nil => exact ⟨[], [], rfl, .inr ⟨rfl, rfl⟩⟩
  | cons line lines ih =>
      cases howned : isOwned key line with
      | true =>
          refine ⟨[], keptLines key lines, ?_, .inl ?_⟩
          · simp [keptLines, howned]
          · simp [rewriteLines, howned, hfound]
      | false =>
          obtain ⟨before, after, hkept, hrewrite⟩ := ih
          refine ⟨line :: before, after, ?_, ?_⟩
          · rw [List.cons_append, hkept, keptLines, keptLines, List.filter_cons, howned]
            rfl
          · rw [rewriteLines, howned]
            rcases hrewrite with hrewrite | ⟨hnil, hrewrite⟩
            · exact .inl (by rw [hrewrite]; rfl)
            · exact .inr ⟨hnil, by rw [hrewrite]; rfl⟩

/-- Lines that are to be followed by an assignment are all ended, and at most a blank line is put
behind them. -/
theorem exists_separated (lines : List String) :
    ∃ blank, blank ⊆ ["\n"] ∧ separated (lines.map withNewline) = lines.map withNewline ++ blank := by
  cases hlast : (lines.map withNewline).getLast? with
  | none => exact ⟨[], List.nil_subset _, by rw [separated, hlast, List.append_nil]⟩
  | some last =>
      have hsame : withNewline last = last := by
        obtain ⟨line, -, rfl⟩ := List.mem_map.1 (List.mem_of_getLast? hlast)
        obtain ⟨cs, hcs⟩ := exists_newline line
        have hended : endsNewline (withNewline line) = true := by
          rw [endsNewline, hcs, List.getLast?_concat, decide_eq_true_eq]
        exact if_pos hended
      have hout : (lines.map withNewline).dropLast ++ [last] = lines.map withNewline :=
        List.dropLast_append_getLast? _ hlast
      rw [separated, hlast]
      dsimp only
      rw [hsame, hout]
      split
      · exact ⟨[], List.nil_subset _, (List.append_nil _).symm⟩
      · exact ⟨["\n"], fun _ h => h, rfl⟩

/-- The texts that are put together all end with a newline, and so does the file. -/
theorem endsNewline_join {texts : List String} (hne : texts ≠ [])
    (h : ∀ text ∈ texts, ∃ cs, text.toList = cs ++ ['\n']) :
    endsNewline (String.join texts) = true := by
  obtain ⟨first, last, rfl⟩ := (List.eq_nil_or_concat texts).resolve_left hne
  obtain ⟨cs, hcs⟩ := h last (by simp)
  rw [endsNewline, List.concat_eq_append, String.join_append, String.join_cons, String.join_nil,
    String.append_empty, String.toList_append, hcs, ← List.append_assoc, List.getLast?_concat,
    decide_eq_true_eq]

/-- The texts that a write puts together. -/
def written (before blank after : List String) : List String :=
  before.map withNewline ++ (blank ++
    (key.name ++ "=" ++ value ++ "\n") :: after.map withNewline)

theorem exists_newline_of_mem_written {before blank after : List String} (hblank : blank ⊆ ["\n"]) :
    ∀ text ∈ written key value before blank after, ∃ cs, text.toList = cs ++ ['\n'] := by
  have hended (lines : List String) : ∀ text ∈ lines.map withNewline,
      ∃ cs, text.toList = cs ++ ['\n'] := by
    intro text htext
    obtain ⟨line, -, rfl⟩ := List.mem_map.1 htext
    exact exists_newline line
  intro text htext
  simp only [written, List.mem_append, List.mem_cons] at htext
  rcases htext with htext | htext | rfl | htext
  · exact hended before text htext
  · obtain rfl := List.mem_singleton.1 (hblank htext)
    exact ⟨[], rfl⟩
  · exact ⟨(key.name ++ "=" ++ value).toList, String.toList_append⟩
  · exact hended after text htext

/-- The text that is written: the lines that are kept, with the assignment among them. -/
theorem exists_writeDotenvValue (file : Option String) :
    ∃ before after blank,
      before ++ after = keptLines key (keepLines (universalNewlines (file.getD ""))) ∧
      blank ⊆ ["\n"] ∧
      writeDotenvValue file key value = String.join (written key value before blank after) := by
  obtain ⟨before, after, hkept, hrewrite⟩ := exists_rewriteLines key
    (key.name ++ "=" ++ value ++ "\n") (keepLines (universalNewlines (file.getD "")))
  have hended {blank : List String} (hblank : blank ⊆ ["\n"]) :
      endsNewline (String.join (written key value before blank after)) = true :=
    endsNewline_join (by simp [written]) (exists_newline_of_mem_written key value hblank)
  rcases hrewrite with hrewrite | ⟨rfl, hrewrite⟩
  · refine ⟨before, after, [], hkept, List.nil_subset _, ?_⟩
    have hbody := hended (List.nil_subset _)
    rw [written, List.nil_append] at hbody
    rw [writeDotenvValue, hrewrite, written, List.nil_append]
    simp only [if_true, hbody, Bool.not_true, Bool.and_false, Bool.false_eq_true, if_false]
  · obtain ⟨blank, hblank, hseparated⟩ := exists_separated before
    refine ⟨before, [], blank, hkept, hblank, ?_⟩
    have hbody := hended hblank
    have hout : separated (before.map withNewline) ++ [key.name ++ "=" ++ value ++ "\n"] =
        written key value before blank [] := by
      rw [hseparated, written, List.append_assoc, List.map_nil]
    rw [writeDotenvValue, hrewrite]
    simp only [Bool.false_eq_true, if_false, hout, hbody, Bool.not_true, Bool.and_false]

/-- **What a write leaves**, empty lines apart: the lines of others as they were, with the
assignment among them. -/
theorem filledLines_writeDotenvValue (file : Option String) :
    ∃ before after,
      before ++ after = (filledLines (file.getD "")).filter (fun line => !owns key line.toList) ∧
      filledLines (writeDotenvValue file key value) =
        before ++ (filledLines (key.name ++ "=" ++ value ++ "\n") ++ after) := by
  obtain ⟨before, after, blank, hkept, hblank, hwrite⟩ := exists_writeDotenvValue key value file
  have hread {lines : List String} (h : lines ⊆ keepLines (universalNewlines (file.getD ""))) :
      (lines.map withNewline).flatMap filledLines = (lines.map firstLine).filter (· ≠ "") := by
    induction lines with
    | nil => rfl
    | cons line lines ih =>
        obtain ⟨hline, hlines⟩ := List.cons_subset.1 h
        rw [List.map_cons, List.flatMap_cons, filledLines_of_mem_keepLines hline, ih hlines,
          ← List.filter_append]
        rfl
  have hsubset : before ++ after ⊆ keepLines (universalNewlines (file.getD "")) := by
    rw [hkept]
    exact List.filter_subset_self _
  have hempty : blank.flatMap filledLines = [] := by
    rw [List.flatMap_eq_nil_iff]
    intro text htext
    obtain rfl := List.mem_singleton.1 (hblank htext)
    rfl
  refine ⟨(before.map firstLine).filter (· ≠ ""), (after.map firstLine).filter (· ≠ ""), ?_, ?_⟩
  · have howned : (keptLines key (keepLines (universalNewlines (file.getD "")))).map firstLine =
        (splitLines (file.getD "")).filter fun line => !owns key line.toList := by
      rw [← splitLines_universalNewlines, ← map_firstLine_keepLines, List.filter_map, keptLines]
      refine congrArg _ (List.filter_congr fun line hline => ?_)
      rw [isOwned_of_mem_keepLines hline]
      rfl
    rw [← List.filter_append, ← List.map_append, hkept, howned, filledLines, List.filter_comm]
  · rw [hwrite, filledLines_join (exists_newline_of_mem_written key value hblank), written,
      List.flatMap_append, List.flatMap_append, List.flatMap_cons, hempty, List.nil_append,
      hread (List.Subset.trans (List.subset_append_left ..) hsubset),
      hread (List.Subset.trans (List.subset_append_right ..) hsubset)]

end Write

/-! ## Read back -/

section Read

variable {key other : EnvName} {value : String}

theorem findSome?_filter {α β : Type} {f : α → Option β} {p : α → Bool} {l : List α}
    (h : ∀ a ∈ l, p a = false → f a = none) : (l.filter p).findSome? f = l.findSome? f := by
  induction l with
  | nil => rfl
  | cons a l ih =>
      have hrest := ih fun b hb => h b (List.mem_cons_of_mem _ hb)
      rw [List.filter_cons, List.findSome?_cons]
      cases hp : p a with
      | true => rw [if_pos rfl, List.findSome?_cons, hrest]
      | false => rw [if_neg (by simp), hrest, h a (List.mem_cons_self ..) hp]

/-- A file is read through its lines that are not empty. -/
theorem readDotenvValue_eq (file : Option String) (key : EnvName) :
    readDotenvValue file key = ((filledLines (file.getD "")).findSome? (valueIn key)).getD "" := by
  have hempty : valueIn key "" = none := by
    rw [valueIn, Option.map_eq_none_iff]
    by_contra hsome
    obtain ⟨rest, hrest⟩ := Option.ne_none_iff_exists'.1 hsome
    obtain ⟨gap, gap', -, -, heq⟩ := afterKey_eq_some_iff.1 hrest
    have hlength := congrArg List.length heq
    simp at hlength
  cases file with
  | none => rfl
  | some text =>
      rw [readDotenvValue, splitLines_universalNewlines, filledLines, findSome?_filter]
      · rfl
      · intro line _ hline
        rw [decide_eq_false_iff_not, not_not] at hline
        rw [hline, hempty]

theorem valueIn_assignment (key : EnvName) (value : String) :
    valueIn key (key.name ++ "=" ++ value) = some (unquote (strip value)) := by
  have hafter : afterKey key (key.name ++ "=" ++ value).toList = some value.toList :=
    afterKey_eq_some_iff.2 ⟨[], [], by simp, by simp, by simp⟩
  rw [valueIn, hafter, Option.map_some, String.ofList_toList]

theorem valueIn_of_not_owns {line : String} (h : owns key line.toList = false) :
    valueIn key line = none := by
  rw [owns, Bool.or_eq_false_iff, Option.isSome_eq_false_iff, Option.isNone_iff_eq_none] at h
  rw [valueIn, h.1, Option.map_none]

theorem owns_assignment (key : EnvName) (value : String) :
    owns key (key.name ++ "=" ++ value).toList = true := by
  cases howns : owns key (key.name ++ "=" ++ value).toList with
  | true => rfl
  | false =>
      have hnone := valueIn_of_not_owns howns
      rw [valueIn_assignment] at hnone
      cases hnone

/-- The lines of an assignment: the value goes on to its first line break. -/
theorem exists_filledLines_assignment (key : EnvName) (value : String) :
    ∃ rest, filledLines (key.name ++ "=" ++ value ++ "\n") =
        (key.name ++ "=" ++ firstLine value) :: rest ∧
      ((∀ c ∈ value.toList, isLineBreak c = false) → firstLine value = value ∧ rest = []) := by
  have hname : ∀ c ∈ (key.name ++ "=").toList, isLineBreak c = false := by
    intro c hc
    rw [String.toList_append, List.mem_append] at hc
    rcases hc with hc | hc
    · exact not_isLineBreak_of_isNameChar (key.plain c hc)
    · obtain rfl := List.mem_singleton.1 hc
      decide
  have hline : splitLines (key.name ++ "=" ++ value ++ "\n") =
      linesFrom (key.name ++ "=").toList.reverse (value.toList ++ ['\n']) := by
    have htext : (key.name ++ "=" ++ value ++ "\n").toList =
        (key.name ++ "=").toList ++ (value.toList ++ ['\n']) := by simp
    rw [splitLines, htext, linesFrom_append hname, List.append_nil]
  have hbreak : isLineBreak '\n' = true := rfl
  have hhead : (splitLines (key.name ++ "=" ++ value ++ "\n")).head? =
      some (key.name ++ "=" ++ firstLine value) := by
    rw [hline, head?_linesFrom, if_neg (by simp), List.reverse_reverse]
    refine congrArg some (String.toList_injective ?_)
    have hvalue : (value.toList ++ ['\n']).takeWhile (fun c => !isLineBreak c) =
        value.toList.takeWhile fun c => !isLineBreak c := by
      rw [List.takeWhile_append]
      split
      next hall =>
        rw [(List.takeWhile_prefix _).eq_of_length hall, List.takeWhile_cons_of_neg (by decide),
          List.append_nil]
      next => rfl
    rw [String.toList_ofList, hvalue, ← firstLine_toList, ← String.toList_append]
  obtain ⟨rest, hrest⟩ := List.head?_eq_some_iff.1 hhead
  refine ⟨rest.filter (· ≠ ""), ?_, fun hvalue => ?_⟩
  · rw [filledLines, hrest, List.filter_cons, if_pos (by simp)]
  · have hfirst : firstLine value = value := by
      apply String.toList_injective
      rw [firstLine_toList, List.takeWhile_eq_self_iff]
      exact fun c hc => by simp [hvalue c hc]
    have hone : linesFrom (key.name ++ "=").toList.reverse (value.toList ++ ['\n']) =
        [key.name ++ "=" ++ value] := by
      have hstart : (value.toList.reverse ++ (key.name ++ "=").toList.reverse).reverse =
          (key.name ++ "=" ++ value).toList := by simp
      rw [linesFrom_append hvalue, linesFrom, if_pos hbreak, hstart, String.ofList_toList]
      · rfl
      · exact fun _ heq => absurd heq (by decide)
    rw [hline, hone, hfirst] at hrest
    obtain ⟨-, rfl⟩ := List.cons.inj hrest
    exact ⟨hfirst, rfl⟩

/-- **What is written is read back**: the value up to its first line break, stripped and without
quotes around it. -/
theorem read_write (file : Option String) (key : EnvName) (value : String) :
    readDotenvValue (some (writeDotenvValue file key value)) key =
      unquote (strip (firstLine value)) := by
  obtain ⟨before, after, hkept, hwrite⟩ := filledLines_writeDotenvValue key value file
  obtain ⟨rest, hrest, -⟩ := exists_filledLines_assignment key value
  have hbefore : before.findSome? (valueIn key) = none := by
    rw [List.findSome?_eq_none_iff]
    intro line hline
    have hmem : line ∈ before ++ after := List.mem_append_left _ hline
    rw [hkept, List.mem_filter] at hmem
    exact valueIn_of_not_owns (by simpa using hmem.2)
  rw [readDotenvValue_eq, Option.getD_some, hwrite, hrest, List.findSome?_append, hbefore,
    Option.none_or, List.cons_append, List.findSome?_cons_of_isSome (by simp [valueIn_assignment]),
    valueIn_assignment, Option.getD_some]

/-- **A write is of one key**: no other key is read differently after it. -/
theorem read_write_of_ne (file : Option String) (hne : other ≠ key)
    (hvalue : ∀ c ∈ value.toList, isLineBreak c = false) :
    readDotenvValue (some (writeDotenvValue file key value)) other =
      readDotenvValue file other := by
  obtain ⟨before, after, hkept, hwrite⟩ := filledLines_writeDotenvValue key value file
  obtain ⟨rest, hrest, hone⟩ := exists_filledLines_assignment key value
  obtain ⟨hfirst, rfl⟩ := hone hvalue
  have hother {line : String} (h : owns key line.toList = true) : valueIn other line = none := by
    rw [valueIn, afterKey_eq_none_of_owns hne h, Option.map_none]
  have hassignment := hother (owns_assignment key value)
  rw [readDotenvValue_eq, readDotenvValue_eq, Option.getD_some, hwrite, hrest, hfirst,
    List.singleton_append, List.findSome?_append, List.findSome?_cons_of_isNone (by simp [hassignment]),
    ← List.findSome?_append, hkept, findSome?_filter]
  exact fun line _ hline => hother (by simpa using hline)

/-- **A write and the reads after it.** The key is read as the value, up to its first line break,
stripped and without quotes around it. With a value of one line every other key is read as before,
the lines of others stay as they are and in their order, and one line is left for the key. -/
theorem written_back (file : Option String) (key : EnvName) (value : String) :
    readDotenvValue (some (writeDotenvValue file key value)) key =
        unquote (strip (firstLine value)) ∧
      ((∀ c ∈ value.toList, isLineBreak c = false) →
        (∀ other, other ≠ key → readDotenvValue (some (writeDotenvValue file key value)) other =
          readDotenvValue file other) ∧
        ((filledLines (writeDotenvValue file key value)).filter fun line =>
            !owns key line.toList) =
          (filledLines (file.getD "")).filter (fun line => !owns key line.toList) ∧
        (filledLines (writeDotenvValue file key value)).countP (fun line => owns key line.toList) =
          1) := by
  refine ⟨read_write file key value, fun hvalue => ⟨fun other hne => read_write_of_ne file hne hvalue,
    ?_⟩⟩
  obtain ⟨before, after, hkept, hwrite⟩ := filledLines_writeDotenvValue key value file
  obtain ⟨rest, hrest, hone⟩ := exists_filledLines_assignment key value
  obtain ⟨hfirst, rfl⟩ := hone hvalue
  rw [hfirst] at hrest
  have howns := owns_assignment key value
  have hothers : ∀ line ∈ before ++ after, owns key line.toList = false := by
    intro line hline
    rw [hkept, List.mem_filter] at hline
    simpa using hline.2
  have hbefore : ∀ line ∈ before, owns key line.toList = false :=
    fun line hline => hothers line (List.mem_append_left _ hline)
  have hafter : ∀ line ∈ after, owns key line.toList = false :=
    fun line hline => hothers line (List.mem_append_right _ hline)
  rw [hwrite, hrest, ← hkept, List.singleton_append]
  constructor
  · rw [List.filter_append, List.filter_cons_of_neg (by rw [howns]; decide), ← List.filter_append,
      List.filter_eq_self]
    exact fun line hline => by simp [hothers line hline]
  · rw [List.countP_append, List.countP_cons, if_pos howns,
      List.countP_eq_zero.2 fun line hline => by simp [hbefore line hline],
      List.countP_eq_zero.2 fun line hline => by simp [hafter line hline]]

end Read

end AiStudio.Gateway
