import AiStudio.Data.Pieces

/-!
# Words of a shell command

How a POSIX shell splits the text of a simple command into words and removes the quotes. A text
with an expansion, an operator or a comment outside quotes is none of these commands, and neither
is one with a NUL, which no argument carries, or with a quote left open.

- `reads_quote`: a quoted text is read as one word, that text.
- `Reads.join`: texts with a blank between them are read one after the other.
-/

set_option autoImplicit false

namespace AiStudio.Data.Shell

/-- What separates the words of a command. -/
def isSep (c : Char) : Bool := c = ' ' || c = '\t'

/-- The characters that mean something to the shell outside quotes. -/
def isSpecial (c : Char) : Bool := "\n|&;<>()$\u0060*?[#~!\x7b\x7d".toList.contains c

/-- The characters that quote. -/
def isQuote (c : Char) : Bool := c = '\x27' || c = '"' || c = '\\'

/-- The characters that are part of a word as they are. -/
def isPlain (c : Char) : Bool := !isSep c && !isSpecial c && !isQuote c && c ≠ '\x00'

/-- Where in a command the next character stands. -/
inductive Mode where
  | plain
  | escaped
  | single
  | double
  | doubleEscaped
  deriving DecidableEq

/-- The words read, the word begun if there is one, and the mode. -/
structure Scan where
  words : List (List Char)
  word : Option (List Char)
  mode : Mode
  deriving DecidableEq

namespace Scan

/-- Before the first character. -/
def start : Scan := ⟨[], none, .plain⟩

/-- A character more in the word. -/
def put (s : Scan) (c : Char) : Scan := { s with word := some (s.word.getD [] ++ [c]) }

/-- The end of the word, if one was begun. -/
def endWord (s : Scan) : Scan := ⟨s.words ++ s.word.toList, none, .plain⟩

/-- Quotes that are opened or closed; they begin a word even if nothing stands in them. -/
def quoted (s : Scan) (mode : Mode) : Scan := ⟨s.words, some (s.word.getD []), mode⟩

/-- Outside quotes. -/
def stepPlain (s : Scan) (c : Char) : Option Scan :=
  if isSep c then some s.endWord
  else if c = '\x27' then some (s.quoted .single)
  else if c = '"' then some (s.quoted .double)
  else if c = '\\' then some { s with mode := .escaped }
  else if isSpecial c then none
  else some (s.put c)

/-- After a backslash outside quotes; an escaped end of line is dropped. -/
def stepEscaped (s : Scan) (c : Char) : Scan :=
  if c = '\n' then { s with mode := .plain } else { s.put c with mode := .plain }

/-- In double quotes. -/
def stepDouble (s : Scan) (c : Char) : Option Scan :=
  if c = '"' then some (s.quoted .plain)
  else if c = '\\' then some { s with mode := .doubleEscaped }
  else if c = '$' ∨ c = '\u0060' then none
  else some (s.put c)

/-- After a backslash in double quotes, which stays unless the next character needs it. -/
def stepDoubleEscaped (s : Scan) (c : Char) : Scan :=
  if c = '\n' then { s with mode := .double }
  else if c = '$' ∨ c = '\u0060' ∨ c = '"' ∨ c = '\\' then { s.put c with mode := .double }
  else { (s.put '\\').put c with mode := .double }

/-- One character. -/
def step (s : Scan) (c : Char) : Option Scan :=
  if c = '\x00' then none
  else
    match s.mode with
    | .plain => s.stepPlain c
    | .escaped => some (s.stepEscaped c)
    | .single => some (if c = '\x27' then s.quoted .plain else s.put c)
    | .double => s.stepDouble c
    | .doubleEscaped => some (s.stepDoubleEscaped c)

/-- The words of a whole text. -/
def finish (s : Scan) : Option (List (List Char)) :=
  if s.mode = .plain then some s.endWord.words else none

end Scan

open Scan

/-- The words of a command. -/
def split (command : String) : Option (List String) :=
  ((command.toList.foldlM step start).bind finish).map (List.map String.ofList)

/-- The characters that `shlex.quote` leaves without quotes. -/
def isSafe (c : Char) : Bool := c.isAlphanum || "_@%+=:,./-".toList.contains c

/-- `shlex.quote(s)`. -/
def quote (s : String) : String :=
  if s = "" then "''"
  else if s.toList.all isSafe then s
  else "'" ++ String.ofList (s.toList.flatMap fun c => if c = '\x27' then "'\"'\"'".toList else [c])
    ++ "'"

/-! ## Reading -/

/-- Whatever was read before, the text gives these words and a blank ends the last of them. -/
def Reads (text : List Char) (words : List (List Char)) : Prop :=
  ∀ done, (text ++ [' ']).foldlM step ⟨done, none, .plain⟩ = some ⟨done ++ words, none, .plain⟩

variable {text text' : List Char} {ws ws' : List (List Char)} {done : List (List Char)}
  {word : Option (List Char)} {c : Char}

/-- Texts with a blank between them are read one after the other. -/
theorem Reads.join (h : Reads text ws) (h' : Reads text' ws') :
    Reads (text ++ ' ' :: text') (ws ++ ws') := by
  intro done
  have htext : text ++ ' ' :: text' ++ [' '] = (text ++ [' ']) ++ (text' ++ [' ']) := by simp
  rw [htext, List.foldlM_append, h done, ← List.append_assoc done]
  exact h' (done ++ ws)

/-- A blank that ends a word stands outside quotes. -/
theorem mode_of_step_blank {s : Scan} (h : s.step ' ' = some ⟨ws, none, .plain⟩) :
    s.mode = .plain ∧ s.endWord.words = ws := by
  rw [step, if_neg (by decide)] at h
  cases hmode : s.mode with
  | plain =>
      rw [hmode] at h
      exact ⟨rfl, congrArg words (Option.some.inj h)⟩
  | escaped =>
      rw [hmode] at h
      cases h
  | single =>
      rw [hmode] at h
      cases h
  | double =>
      rw [hmode] at h
      cases h
  | doubleEscaped =>
      rw [hmode] at h
      cases h

/-- A command that is read gives its words. -/
theorem Reads.split_eq {command : String} (h : Reads command.toList ws) :
    split command = some (ws.map String.ofList) := by
  have hrun := h []
  rw [List.foldlM_append] at hrun
  obtain ⟨s, hs, hsep⟩ := Option.bind_eq_some_iff.mp hrun
  rw [List.foldlM_cons] at hsep
  obtain ⟨s', hstep, hnil⟩ := Option.bind_eq_some_iff.mp hsep
  cases hnil
  obtain ⟨hmode, hwords⟩ := mode_of_step_blank hstep
  rw [split, show start = ⟨[], none, .plain⟩ from rfl, hs, Option.bind_some, finish, if_pos hmode,
    hwords]
  rfl

/-! ## Plain words -/

theorem step_blank (h : isSep c = true) :
    step ⟨done, word, .plain⟩ c = some ⟨done ++ word.toList, none, .plain⟩ := by
  have hnul : c ≠ '\x00' := by
    rintro rfl
    exact absurd h (by decide)
  rw [step, if_neg hnul]
  exact if_pos h

theorem step_isPlain (h : isPlain c = true) :
    step ⟨done, word, .plain⟩ c = some ⟨done, some (word.getD [] ++ [c]), .plain⟩ := by
  simp only [isPlain, isQuote, Bool.and_eq_true, Bool.not_eq_true', Bool.or_eq_false_iff,
    decide_eq_false_iff_not, decide_eq_true_eq] at h
  obtain ⟨⟨⟨hsep, hspecial⟩, ⟨hsingle, hdouble⟩, hslash⟩, hnul⟩ := h
  rw [step, if_neg hnul]
  simp only [stepPlain, hsep, hspecial, if_neg hsingle, if_neg hdouble, if_neg hslash]
  rfl

/-- The word begun with these characters. -/
def begun (w : List Char) : Option (List Char) := if w = [] then none else some w

theorem begun_getD (w : List Char) : (begun w).getD [] = w := by
  unfold begun
  split
  · rename_i h
    exact h.symm
  · rfl

theorem begun_toList {w : List Char} (h : ∀ c ∈ w, isSep c = false) :
    (begun w).toList = pieces isSep w := by
  unfold begun
  split
  · rename_i hnil
    rw [hnil, pieces_nil]
    rfl
  · rename_i hne
    rw [pieces_of_forall hne h]
    rfl

theorem isSep_of_isPlain (h : isPlain c = true) : isSep c = false := by
  simp only [isPlain, Bool.and_eq_true, Bool.not_eq_true'] at h
  exact h.1.1.1

/-- The characters of a word are collected up to the next blank. -/
theorem foldlM_plain (h : ∀ c ∈ text, isSep c = true ∨ isPlain c = true) :
    ∀ done w, (∀ c ∈ w, isSep c = false) →
      (text ++ [' ']).foldlM step ⟨done, begun w, .plain⟩ =
        some ⟨done ++ pieces isSep (w ++ text), none, .plain⟩ := by
  induction text with
  | nil =>
      intro done w hw
      rw [List.nil_append, List.foldlM_cons, step_blank rfl, begun_toList hw, List.append_nil]
      rfl
  | cons c text ih =>
      intro done w hw
      have hrest := ih fun d hd => h d (List.mem_cons_of_mem _ hd)
      rw [List.cons_append, List.foldlM_cons]
      rcases h c (List.mem_cons_self ..) with hsep | hplain
      · rw [step_blank hsep, begun_toList hw, pieces_append_cons hsep, ← List.append_assoc]
        exact hrest (done ++ pieces isSep w) [] fun d hd => absurd hd (List.not_mem_nil)
      · have hbegun : some (w ++ [c]) = begun (w ++ [c]) :=
          (if_neg (List.append_ne_nil_of_right_ne_nil w (List.cons_ne_nil c []))).symm
        have hword : w ++ c :: text = w ++ [c] ++ text := List.append_cons w c text
        rw [step_isPlain hplain, begun_getD, hbegun, hword]
        refine hrest done (w ++ [c]) fun d hd => ?_
        rcases List.mem_append.mp hd with hd | hd
        · exact hw d hd
        · rw [List.mem_singleton.mp hd]
          exact isSep_of_isPlain hplain

/-- A text without quotes and special characters is read as its pieces between blanks. -/
theorem reads_pieces (h : ∀ c ∈ text, isSep c = true ∨ isPlain c = true) :
    Reads text (pieces isSep text) := fun done =>
  foldlM_plain h done [] fun _ hc => absurd hc List.not_mem_nil

theorem reads_word (hne : text ≠ []) (h : text.all isPlain = true) : Reads text [text] := by
  have hplain := List.all_eq_true.mp h
  have hreads := reads_pieces fun c hc => Or.inr (hplain c hc)
  rwa [pieces_of_forall hne fun c hc => isSep_of_isPlain (hplain c hc)] at hreads

/-! ## Quoted texts -/

theorem isPlain_of_isSafe (h : isSafe c = true) : isPlain c = true := by
  have hspecial : isSpecial c = false := by
    by_contra hmem
    have hc := List.contains_iff_mem.mp (eq_true_of_ne_false hmem)
    have hall : ∀ d ∈ "\n|&;<>()$\u0060*?[#~!\x7b\x7d".toList, isSafe d = false :=
      forall_mem_of_all (by decide)
    rw [hall c hc] at h
    cases h
  have hother : ∀ d ∈ [' ', '\t', '\x27', '"', '\\', '\x00'], c ≠ d := by
    rintro d hd rfl
    have hall : ∀ d ∈ [' ', '\t', '\x27', '"', '\\', '\x00'], isSafe d = false :=
      forall_mem_of_all (by decide)
    rw [hall c hd] at h
    cases h
  simp only [List.forall_mem_cons] at hother
  simp [isPlain, isSep, isQuote, hspecial, hother]

theorem step_single {w : List Char} (hnul : c ≠ '\x00') (hquote : c ≠ '\x27') :
    step ⟨done, some w, .single⟩ c = some ⟨done, some (w ++ [c]), .single⟩ := by
  rw [step, if_neg hnul]
  exact congrArg some (if_neg hquote)

/-- In single quotes everything but a NUL stands for itself. -/
theorem foldlM_single (hnul : '\x00' ∉ text) :
    ∀ w, (text.flatMap fun c => if c = '\x27' then "'\"'\"'".toList else [c]).foldlM step
      ⟨done, some w, .single⟩ = some ⟨done, some (w ++ text), .single⟩ := by
  induction text with
  | nil =>
      intro w
      rw [List.append_nil]
      rfl
  | cons c text ih =>
      intro w
      obtain ⟨hc, hrest⟩ := not_or.mp (mt List.mem_cons.mpr hnul)
      have hword : w ++ c :: text = w ++ [c] ++ text := List.append_cons w c text
      rw [List.flatMap_cons, List.foldlM_append, hword]
      by_cases hquote : c = '\x27'
      · subst hquote
        exact ih hrest (w ++ ['\x27'])
      · rw [if_neg hquote, List.foldlM_cons, step_single (Ne.symm hc) hquote]
        exact ih hrest (w ++ [c])

/-- A quoted text is read as one word, that text. -/
theorem reads_quote {s : String} (hnul : '\x00' ∉ s.toList) :
    Reads (quote s).toList [s.toList] := by
  unfold quote
  split
  · rename_i hempty
    subst hempty
    intro done
    rfl
  · rename_i hne
    split
    · rename_i hsafe
      refine reads_word (fun h => hne (String.toList_inj.mp h)) (List.all_eq_true.mpr fun c hc => ?_)
      exact isPlain_of_isSafe (List.all_eq_true.mp hsafe c hc)
    · intro done
      have htext (inner : List Char) : ("'" ++ String.ofList inner ++ "'").toList ++ [' '] =
          ['\x27'] ++ (inner ++ ['\x27', ' ']) := by simp
      have hopen : ['\x27'].foldlM step ⟨done, none, .plain⟩ =
          some ⟨done, some [], .single⟩ := rfl
      rw [htext, List.foldlM_append, hopen, Option.bind_eq_bind, Option.bind_some,
        List.foldlM_append, foldlM_single hnul]
      rfl

end AiStudio.Data.Shell
