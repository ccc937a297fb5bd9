import Mathlib.Data.List.TakeWhile

/-!
# Lines

`str.splitlines` with and without the ends of the lines, the first line of a text, and the one
spelling of line breaks that reading a file as text leaves.
-/

set_option autoImplicit false

namespace AiStudio.Data

/-- The characters `str.splitlines` breaks a line at. -/
def isLineBreak (c : Char) : Bool :=
  let n := c.toNat
  (10 ≤ n && n ≤ 13) || (28 ≤ n && n ≤ 30) || n = 133 || n = 8232 || n = 8233

/-- The lines of a text, after the reversed beginning of its first line. -/
def linesFrom : List Char → List Char → List String
  | line, [] => if line = [] then [] else [String.ofList line.reverse]
  | line, '\r' :: '\n' :: cs => String.ofList line.reverse :: linesFrom [] cs
  | line, c :: cs =>
      if isLineBreak c then String.ofList line.reverse :: linesFrom [] cs
      else linesFrom (c :: line) cs

/-- `s.splitlines()`. -/
def splitLines (s : String) : List String := linesFrom [] s.toList

/-- The first line of a text goes on to the first line break. -/
theorem head?_linesFrom (line cs : List Char) :
    (linesFrom line cs).head? =
      if line = [] ∧ cs = [] then none
      else some (String.ofList (line.reverse ++ cs.takeWhile fun c => !isLineBreak c)) := by
  induction line, cs using linesFrom.induct with
  | case1 => simp [linesFrom]
  | case2 line hline => simp [linesFrom, hline]
  | case3 line cs ih =>
      have hbreak : isLineBreak '\r' = true := by decide
      simp [linesFrom, hbreak]
  | case4 line c cs hnot hbreak ih => simp [linesFrom, hbreak]
  | case5 line c cs hnot hbreak ih =>
      rw [linesFrom, if_neg hbreak, ih]
      · simp [hbreak]
      · exact hnot

/-- `s.splitlines()[0] if s.splitlines() else s`: the text up to its first line break. -/
def firstLine (s : String) : String := (splitLines s).head?.getD s

theorem firstLine_toList (s : String) :
    (firstLine s).toList = s.toList.takeWhile fun c => !isLineBreak c := by
  rw [firstLine, splitLines, head?_linesFrom]
  by_cases hempty : s.toList = []
  · simp [hempty]
  · simp [hempty]

/-- Letters and digits break no line. -/
theorem not_isLineBreak_of_isAlphanum {c : Char} (h : c.isAlphanum = true) :
    isLineBreak c = false := by
  have hrange : 48 ≤ c.toNat ∧ c.toNat ≤ 122 := by
    -- Letters and digits are three ranges of code points.
    change ((decide ('A'.val ≤ c.val ∧ c.val ≤ 'Z'.val) ||
      (decide ('a'.val ≤ c.val) && decide (c.val ≤ 'z'.val))) ||
      (decide ('0'.val ≤ c.val) && decide (c.val ≤ '9'.val))) = true at h
    simp only [Bool.or_eq_true, Bool.and_eq_true, decide_eq_true_eq, UInt32.le_iff_toNat_le] at h
    have hval : c.val.toNat = c.toNat := rfl
    have hupper : 'A'.val.toNat = 65 ∧ 'Z'.val.toNat = 90 := ⟨rfl, rfl⟩
    have hlower : 'a'.val.toNat = 97 ∧ 'z'.val.toNat = 122 := ⟨rfl, rfl⟩
    have hdigit : '0'.val.toNat = 48 ∧ '9'.val.toNat = 57 := ⟨rfl, rfl⟩
    omega
  simp only [isLineBreak, Bool.or_eq_false_iff, Bool.and_eq_false_iff, decide_eq_false_iff_not]
  omega

/-! ## Ends of lines -/

/-- The lines of a text and what ends each, after the reversed beginning of its first line. -/
def endedLinesFrom : List Char → List Char → List (List Char × List Char)
  | line, [] => if line = [] then [] else [(line.reverse, [])]
  | line, '\r' :: '\n' :: cs => (line.reverse, ['\r', '\n']) :: endedLinesFrom [] cs
  | line, c :: cs =>
      if isLineBreak c then (line.reverse, [c]) :: endedLinesFrom [] cs
      else endedLinesFrom (c :: line) cs

/-- The lines of a text and what ends each. -/
def endedLines (s : String) : List (List Char × List Char) := endedLinesFrom [] s.toList

/-- `s.splitlines(keepends=True)`. -/
def keepLines (s : String) : List String :=
  (endedLines s).map fun line => String.ofList (line.1 ++ line.2)

/-- What ends a line; the last one may end with nothing. -/
inductive LineEnd : List Char → Prop where
  | missing : LineEnd []
  | single {c : Char} (h : isLineBreak c = true) : LineEnd [c]
  | pair : LineEnd ['\r', '\n']

theorem linesFrom_eq_map (line cs : List Char) :
    linesFrom line cs = (endedLinesFrom line cs).map fun line => String.ofList line.1 := by
  induction line, cs using linesFrom.induct with
  | case1 => simp [linesFrom, endedLinesFrom]
  | case2 line hline => simp [linesFrom, endedLinesFrom, hline]
  | case3 line cs ih => simp [linesFrom, endedLinesFrom, ih]
  | case4 line c cs hnot hbreak ih => simp [linesFrom, endedLinesFrom, hbreak, ih]
  | case5 line c cs hnot hbreak ih =>
      rw [linesFrom, endedLinesFrom, if_neg hbreak, if_neg hbreak, ih]
      · exact hnot
      · exact hnot

theorem splitLines_eq_map (s : String) :
    splitLines s = (endedLines s).map fun line => String.ofList line.1 :=
  linesFrom_eq_map [] s.toList

/-- A line has no break inside and ends with one, the last one perhaps with nothing. -/
theorem of_mem_endedLinesFrom {line cs : List Char} (hline : ∀ c ∈ line, isLineBreak c = false) :
    ∀ ended ∈ endedLinesFrom line cs,
      (∀ c ∈ ended.1, isLineBreak c = false) ∧ LineEnd ended.2 := by
  have hreverse {line : List Char} (hline : ∀ c ∈ line, isLineBreak c = false) :
      ∀ c ∈ line.reverse, isLineBreak c = false :=
    fun c hc => hline c (List.mem_reverse.1 hc)
  induction line, cs using linesFrom.induct with
  | case1 => simp [endedLinesFrom]
  | case2 line hne =>
      intro ended hended
      rw [endedLinesFrom, if_neg hne, List.mem_singleton] at hended
      subst hended
      exact ⟨hreverse hline, .missing⟩
  | case3 line cs ih =>
      intro ended hended
      rw [endedLinesFrom, List.mem_cons] at hended
      rcases hended with rfl | hended
      · exact ⟨hreverse hline, .pair⟩
      · exact ih (by simp) ended hended
  | case4 line c cs hnot hbreak ih =>
      intro ended hended
      rw [endedLinesFrom, if_pos hbreak, List.mem_cons] at hended
      · rcases hended with rfl | hended
        · exact ⟨hreverse hline, .single hbreak⟩
        · exact ih (by simp) ended hended
      · exact hnot
  | case5 line c cs hnot hbreak ih =>
      intro ended hended
      rw [endedLinesFrom, if_neg hbreak] at hended
      · refine ih ?_ ended hended
        intro d hd
        rcases List.mem_cons.1 hd with rfl | hd
        · simpa using hbreak
        · exact hline d hd
      · exact hnot

theorem of_mem_endedLines {s : String} {ended : List Char × List Char} (h : ended ∈ endedLines s) :
    (∀ c ∈ ended.1, isLineBreak c = false) ∧ LineEnd ended.2 :=
  of_mem_endedLinesFrom (by simp) ended h

/-! ## Texts put together -/

/-- Characters that break no line go on the line that is begun. -/
theorem linesFrom_append {body : List Char} (hbody : ∀ c ∈ body, isLineBreak c = false)
    (line cs : List Char) : linesFrom line (body ++ cs) = linesFrom (body.reverse ++ line) cs := by
  induction body generalizing line with
  | nil => rfl
  | cons c body ih =>
      have hc : isLineBreak c = false := hbody c (List.mem_cons_self ..)
      have hne : c ≠ '\r' := by
        rintro rfl
        revert hc
        decide
      rw [List.cons_append, linesFrom, if_neg (by simp [hc]),
        ih fun d hd => hbody d (List.mem_cons_of_mem _ hd), List.reverse_cons, List.append_assoc]
      · rfl
      · intro _ hr
        exact absurd hr hne

/-- A text that ends with a line break is read apart from what follows it. -/
theorem linesFrom_append_newline (line cs rest : List Char) :
    linesFrom line (cs ++ '\n' :: rest) = linesFrom line (cs ++ ['\n']) ++ linesFrom [] rest := by
  induction line, cs using linesFrom.induct with
  | case1 => simp [linesFrom, isLineBreak]
  | case2 line hline => simp [linesFrom, isLineBreak]
  | case3 line cs ih => simp [linesFrom, ih]
  | case4 line c cs hnot hbreak ih =>
      cases cs with
      | nil =>
          -- A return at the end of the first part is half of a pair.
          by_cases hc : c = '\r'
          · subst hc
            simp [linesFrom]
          · have hfirst {cs : List Char} : linesFrom line (c :: cs) =
                String.ofList line.reverse :: linesFrom [] cs := by
              rw [linesFrom, if_pos hbreak]
              exact fun _ hr => absurd hr hc
            rw [List.cons_append, List.cons_append, hfirst, hfirst, List.cons_append]
            exact congrArg _ ih
      | cons d cs =>
          have hfirst {ds : List Char} : linesFrom line (c :: d :: ds) =
              String.ofList line.reverse :: linesFrom [] (d :: ds) := by
            rw [linesFrom, if_pos hbreak]
            rintro ds' rfl heq
            obtain ⟨rfl, rfl⟩ := List.cons.inj heq
            exact hnot cs rfl rfl
          rw [List.cons_append, List.cons_append, List.cons_append, List.cons_append, hfirst, hfirst,
            List.cons_append]
          exact congrArg _ ih
  | case5 line c cs hnot hbreak ih =>
      have hc : c ≠ '\r' := by
        rintro rfl
        exact hbreak (by decide)
      have hfirst {ds : List Char} : linesFrom line (c :: ds) = linesFrom (c :: line) ds := by
        rw [linesFrom, if_neg hbreak]
        exact fun _ hr => absurd hr hc
      rw [List.cons_append, List.cons_append, hfirst, hfirst]
      exact ih

/-- Texts that each end with a line break are read one after the other. -/
theorem splitLines_join {texts : List String}
    (h : ∀ text ∈ texts, ∃ cs, text.toList = cs ++ ['\n']) (rest : String) :
    splitLines (String.join texts ++ rest) = texts.flatMap splitLines ++ splitLines rest := by
  induction texts with
  | nil => simp
  | cons text texts ih =>
      obtain ⟨cs, hcs⟩ := h text (List.mem_cons_self ..)
      have hrest := ih fun text htext => h text (List.mem_cons_of_mem _ htext)
      rw [splitLines] at hrest
      rw [String.join_cons, splitLines, String.append_assoc, String.toList_append, hcs,
        List.append_assoc, List.singleton_append, linesFrom_append_newline, hrest, ← hcs,
        List.flatMap_cons, List.append_assoc]
      rfl

/-! ## One spelling of the breaks -/

/-- The line breaks of a text as `\n`. -/
def unifyBreaks : List Char → List Char
  | [] => []
  | '\r' :: '\n' :: cs => '\n' :: unifyBreaks cs
  | c :: cs => (if c = '\r' then '\n' else c) :: unifyBreaks cs

/-- What `path.read_text()` makes of the text of a file. -/
def universalNewlines (s : String) : String := String.ofList (unifyBreaks s.toList)

theorem linesFrom_unifyBreaks (line cs : List Char) :
    linesFrom line (unifyBreaks cs) = linesFrom line cs := by
  induction line, cs using linesFrom.induct with
  | case1 => simp [unifyBreaks]
  | case2 line hline => simp [unifyBreaks]
  | case3 line cs ih => simp [unifyBreaks, linesFrom, isLineBreak, ih]
  | case4 line c cs hnot hbreak ih =>
      rw [unifyBreaks, linesFrom, linesFrom, if_pos hbreak, ih, if_pos]
      · split
        · decide
        · exact hbreak
      · exact hnot
      · intro _ hr
        split at hr
        · cases hr
        next hc => exact absurd hr hc
      · exact hnot
  | case5 line c cs hnot hbreak ih =>
      have hc : c ≠ '\r' := by
        rintro rfl
        exact hbreak (by decide)
      rw [unifyBreaks, if_neg hc, linesFrom, linesFrom, if_neg hbreak, if_neg hbreak, ih]
      · exact hnot
      · exact fun _ hr => absurd hr hc
      · exact hnot

/-- Reading a file as text leaves its lines. -/
theorem splitLines_universalNewlines (s : String) :
    splitLines (universalNewlines s) = splitLines s := by
  rw [splitLines, universalNewlines, String.toList_ofList]
  exact linesFrom_unifyBreaks [] s.toList

end AiStudio.Data
