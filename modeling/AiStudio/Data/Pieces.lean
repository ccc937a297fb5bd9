import AiStudio.Data.Text
import Mathlib.Algebra.GroupWithZero.Nat

/-!
# Pieces

A text taken apart at separators: the maximal runs of characters that are none. What is joined
with a separator comes apart into the pieces of each part, blanks at either end give no piece, and
no other character is lost.
-/

set_option autoImplicit false

namespace AiStudio.Data

variable {α : Type} (p : α → Bool)

/-- A property of the elements of a closed list is decided on each of them. -/
theorem forall_mem_of_all {P : α → Prop} [DecidablePred P] {l : List α}
    (h : l.all (fun a => decide (P a)) = true) : ∀ a ∈ l, P a := by
  intro a ha
  exact of_decide_eq_true (List.all_eq_true.mp h a ha)

/-- The maximal runs of elements that are no separators. -/
def pieces (l : List α) : List (List α) := (l.splitOnP p).filter fun piece => !piece.isEmpty

@[simp] theorem pieces_nil : pieces p [] = [] := by
  rw [pieces, List.splitOnP_nil]
  rfl

variable {p}

/-- A separator ends the pieces before it. -/
theorem pieces_append_cons {c : α} (hc : p c = true) (s t : List α) :
    pieces p (s ++ c :: t) = pieces p s ++ pieces p t := by
  rw [pieces, List.splitOnP_append_cons s t hc, List.filter_append]
  rfl

theorem pieces_cons {c : α} (hc : p c = true) (l : List α) : pieces p (c :: l) = pieces p l := by
  have h := pieces_append_cons hc [] l
  rwa [List.nil_append, pieces_nil, List.nil_append] at h

theorem pieces_concat {c : α} (hc : p c = true) (l : List α) :
    pieces p (l ++ [c]) = pieces p l := by
  rw [pieces_append_cons hc, pieces_nil, List.append_nil]

theorem pieces_of_all {l : List α} (h : ∀ c ∈ l, p c = true) : pieces p l = [] := by
  induction l with
  | nil => exact pieces_nil p
  | cons c l ih =>
      rw [pieces_cons (h c (List.mem_cons_self ..))]
      exact ih fun d hd => h d (List.mem_cons_of_mem _ hd)

/-- A text without a separator is one piece. -/
theorem pieces_of_forall {l : List α} (hne : l ≠ []) (h : ∀ c ∈ l, p c = false) :
    pieces p l = [l] := by
  rw [pieces, List.splitOnP_eq_singleton h]
  simp [hne]

/-- A piece is not empty and has no separator. -/
theorem of_mem_pieces {l piece : List α} (h : piece ∈ pieces p l) :
    piece ≠ [] ∧ ∀ c ∈ piece, p c = false := by
  induction hn : l.length using Nat.strong_induction_on generalizing l with
  | _ n ih =>
      by_cases hsep : ∃ c ∈ l, p c = true
      · obtain ⟨c, hmem, hc⟩ := hsep
        obtain ⟨s, t, rfl⟩ := List.append_of_mem hmem
        rw [pieces_append_cons hc, List.mem_append] at h
        rw [List.length_append, List.length_cons] at hn
        rcases h with h | h
        · exact ih s.length (by omega) h rfl
        · exact ih t.length (by omega) h rfl
      · have hall : ∀ c ∈ l, p c = false := fun c hc => by
          simpa using fun hpc => hsep ⟨c, hc, hpc⟩
        by_cases hne : l = []
        · rw [hne, pieces_nil] at h
          exact absurd h List.not_mem_nil
        · rw [pieces_of_forall hne hall, List.mem_singleton] at h
          exact h ▸ ⟨hne, hall⟩

/-- A text with an element that is no separator has a piece. -/
theorem pieces_ne_nil {l : List α} {c : α} (hmem : c ∈ l) (hc : p c = false) :
    pieces p l ≠ [] := by
  induction l with
  | nil => exact absurd hmem List.not_mem_nil
  | cons a l ih =>
      by_cases ha : p a = true
      · rw [pieces_cons ha]
        refine ih ((List.mem_cons.1 hmem).resolve_left ?_)
        rintro rfl
        rw [ha] at hc
        cases hc
      · rw [pieces, List.splitOnP_cons_eq_if_modifyHead, if_neg ha]
        cases hsplit : l.splitOnP p with
        | nil => exact absurd hsplit (List.splitOnP_ne_nil p l)
        | cons piece rest => simp

/-- The pieces of parts joined with a separator are those of the parts. -/
theorem pieces_intercalate {c : α} (hc : p c = true) (parts : List (List α)) :
    pieces p ([c].intercalate parts) = parts.flatMap (pieces p) := by
  induction parts with
  | nil => simp
  | cons part parts ih =>
      cases parts with
      | nil => simp
      | cons next parts =>
          rw [List.intercalate_cons_cons, List.append_assoc, List.singleton_append,
            pieces_append_cons hc, ih]
          simp only [List.flatMap_cons]

/-- What is in a joined text is in the separator or in a part. -/
theorem mem_or_of_mem_intercalate {a : α} {sep : List α} {parts : List (List α)}
    (h : a ∈ sep.intercalate parts) : a ∈ sep ∨ ∃ part ∈ parts, a ∈ part := by
  induction parts with
  | nil => simp at h
  | cons part parts ih =>
      cases parts with
      | nil =>
          rw [List.intercalate_singleton] at h
          exact .inr ⟨part, List.mem_cons_self .., h⟩
      | cons next parts =>
          rw [List.intercalate_cons_cons, List.mem_append, List.mem_append] at h
          rcases h with (h | h) | h
          · exact .inr ⟨part, List.mem_cons_self .., h⟩
          · exact .inl h
          · rcases ih h with h | ⟨p, hp, hin⟩
            · exact .inl h
            · exact .inr ⟨p, List.mem_cons_of_mem _ hp, hin⟩

/-- Separators dropped at the front give no piece. -/
theorem pieces_dropWhile {q : α → Bool} (hq : ∀ c, q c = true → p c = true) (l : List α) :
    pieces p (l.dropWhile q) = pieces p l := by
  induction l with
  | nil => rfl
  | cons a l ih =>
      rw [List.dropWhile_cons]
      split
      next ha => rw [ih, pieces_cons (hq a ha)]
      next => rfl

/-- Separators dropped at the end give no piece. -/
theorem pieces_rdropWhile {q : α → Bool} (hq : ∀ c, q c = true → p c = true) (l : List α) :
    pieces p (l.rdropWhile q) = pieces p l := by
  induction l using List.reverseRecOn with
  | nil => rw [List.rdropWhile_nil]
  | append_singleton l a ih =>
      by_cases ha : q a = true
      · rw [List.rdropWhile_concat_pos _ _ _ ha, ih, pieces_concat (hq a ha)]
      · rw [List.rdropWhile_concat_neg _ _ _ ha]

/-- Every element that is no separator is in a piece, as often as in the text. -/
theorem count_pieces [DecidableEq α] {a : α} (ha : p a = false) (l : List α) :
    ((pieces p l).map (List.count a)).sum = l.count a := by
  induction hn : l.length using Nat.strong_induction_on generalizing l with
  | _ n ih =>
      by_cases hsep : ∃ c ∈ l, p c = true
      · obtain ⟨c, hmem, hc⟩ := hsep
        obtain ⟨s, t, rfl⟩ := List.append_of_mem hmem
        have hca : c ≠ a := by
          rintro rfl
          rw [hc] at ha
          cases ha
        rw [List.length_append, List.length_cons] at hn
        rw [pieces_append_cons hc, List.map_append, List.sum_append, ih s.length (by omega) s rfl,
          ih t.length (by omega) t rfl, List.count_append, List.count_cons_of_ne hca]
      · have hall : ∀ c ∈ l, p c = false := fun c hc => by
          simpa using fun hpc => hsep ⟨c, hc, hpc⟩
        by_cases hne : l = []
        · rw [hne, pieces_nil]
          rfl
        · rw [pieces_of_forall hne hall]
          simp

/-- The pieces of a text whose characters are replaced, separators by themselves and the others by
texts without one. -/
theorem pieces_flatMap {f : α → List α} (hsep : ∀ c, p c = true → f c = [c])
    (hkeep : ∀ c, p c = false → f c ≠ [] ∧ ∀ d ∈ f c, p d = false) (l : List α) :
    pieces p (l.flatMap f) = (pieces p l).map (List.flatMap f) := by
  induction hn : l.length using Nat.strong_induction_on generalizing l with
  | _ n ih =>
      by_cases hex : ∃ c ∈ l, p c = true
      · obtain ⟨c, hmem, hc⟩ := hex
        obtain ⟨s, t, rfl⟩ := List.append_of_mem hmem
        rw [List.length_append, List.length_cons] at hn
        rw [List.flatMap_append, List.flatMap_cons, hsep c hc, List.singleton_append,
          pieces_append_cons hc, pieces_append_cons hc, ih s.length (by omega) s rfl,
          ih t.length (by omega) t rfl, List.map_append]
      · have hall : ∀ c ∈ l, p c = false := fun c hc => by
          simpa using fun hpc => hex ⟨c, hc, hpc⟩
        by_cases hne : l = []
        · rw [hne, List.flatMap_nil, pieces_nil]
          rfl
        · have hmap : l.flatMap f ≠ [] := by
            obtain ⟨c, rest, rfl⟩ := List.exists_cons_of_ne_nil hne
            rw [List.flatMap_cons]
            exact List.append_ne_nil_of_left_ne_nil (hkeep c (hall c (List.mem_cons_self ..))).1 _
          rw [pieces_of_forall hne hall, pieces_of_forall hmap]
          · rfl
          · intro d hd
            obtain ⟨c, hc, hin⟩ := List.mem_flatMap.1 hd
            exact (hkeep c (hall c hc)).2 d hin

/-! ## Fields

The fields between single separators. -/

section Fields

variable [DecidableEq α] (a : α) (l : List α)

theorem length_splitOn : (l.splitOn a).length = l.count a + 1 := by
  induction l with
  | nil => rfl
  | cons b l ih =>
      rw [List.splitOn_cons_eq_if_modifyHead]
      by_cases hb : b = a
      · rw [if_pos (by simp [hb]), List.length_cons, ih, hb, List.count_cons_self]
      · rw [if_neg (by simp [hb]), List.length_modifyHead, ih, List.count_cons_of_ne hb]

/-- The first field goes on to the first separator. -/
theorem head?_splitOn : (l.splitOn a).head? = some (l.takeWhile (· ≠ a)) := by
  induction l with
  | nil => rfl
  | cons b l ih =>
      rw [List.splitOn_cons_eq_if_modifyHead]
      by_cases hb : b = a
      · simp [hb]
      · rw [if_neg (by simp [hb]), List.head?_modifyHead, ih]
        simp [hb]

variable {a l}

/-- Every element that is no separator is in a field. -/
theorem exists_mem_splitOn {b : α} (hmem : b ∈ l) (hb : b ≠ a) :
    ∃ field ∈ l.splitOn a, b ∈ field := by
  induction l with
  | nil => exact absurd hmem List.not_mem_nil
  | cons d l ih =>
      rw [List.splitOn_cons_eq_if_modifyHead]
      by_cases hd : d = a
      · have hb' : b ∈ l := (List.mem_cons.1 hmem).resolve_left fun h => hb (h.trans hd)
        obtain ⟨field, hfield, hin⟩ := ih hb'
        rw [if_pos (by simp [hd])]
        exact ⟨field, List.mem_cons_of_mem _ hfield, hin⟩
      · rw [if_neg (by simp [hd])]
        obtain ⟨first, rest, hsplit⟩ := List.exists_cons_of_ne_nil (List.splitOn_ne_nil a l)
        rw [hsplit] at ih ⊢
        rcases List.mem_cons.1 hmem with rfl | hb'
        · exact ⟨b :: first, List.mem_cons_self .., List.mem_cons_self ..⟩
        · obtain ⟨field, hfield, hin⟩ := ih hb'
          rcases List.mem_cons.1 hfield with rfl | hfield
          · exact ⟨d :: field, List.mem_cons_self .., List.mem_cons_of_mem _ hin⟩
          · exact ⟨field, List.mem_cons_of_mem _ hfield, hin⟩

end Fields

/-! ## Stripped texts -/

theorem pieces_strip {p : Char → Bool} (hp : ∀ c, isSpace c = true → p c = true) (s : String) :
    pieces p (strip s).toList = pieces p s.toList := by
  rw [strip_toList, pieces_rdropWhile hp, pieces_dropWhile hp]

/-- A stripped text does not begin with a blank. -/
theorem isSpace_head_strip (s : String) : ∀ c ∈ (strip s).toList.head?, isSpace c = false := by
  intro c hc
  rw [strip_toList] at hc
  have hhead := List.head?_dropWhile_not isSpace s.toList
  obtain ⟨rest, hrest⟩ := List.rdropWhile_prefix isSpace (s.toList.dropWhile isSpace)
  rw [← hrest] at hhead
  cases hlist : (s.toList.dropWhile isSpace).rdropWhile isSpace with
  | nil =>
      rw [hlist] at hc
      cases hc
  | cons a l =>
      rw [hlist] at hc hhead
      obtain rfl := Option.some.inj hc
      simpa using hhead

/-- A stripped text does not end with a blank. -/
theorem isSpace_last_strip (s : String) : ∀ c ∈ (strip s).toList.getLast?, isSpace c = false := by
  intro c hc
  rw [strip_toList] at hc
  have hne := List.ne_nil_of_mem (List.mem_of_mem_getLast? hc)
  have hlast := List.rdropWhile_last_not isSpace (s.toList.dropWhile isSpace) hne
  rw [List.getLast?_eq_getLast_of_ne_nil hne, Option.mem_some_iff] at hc
  simpa [hc] using hlast

theorem strip_strip (s : String) : strip (strip s) = strip s :=
  strip_eq_self (isSpace_head_strip s) (isSpace_last_strip s)

/-- Only blanks are stripped. -/
theorem mem_strip {s : String} {c : Char} (hmem : c ∈ s.toList) (hc : isSpace c = false) :
    c ∈ (strip s).toList := by
  have hdrop : c ∈ s.toList.dropWhile isSpace := by
    rw [← List.takeWhile_append_dropWhile (p := isSpace) (l := s.toList), List.mem_append] at hmem
    refine hmem.resolve_left fun htake => ?_
    rw [List.mem_takeWhile_imp htake] at hc
    cases hc
  rw [strip_toList, List.rdropWhile, List.mem_reverse]
  rw [← List.mem_reverse,
    ← List.takeWhile_append_dropWhile (p := isSpace) (l := (s.toList.dropWhile isSpace).reverse),
    List.mem_append] at hdrop
  refine hdrop.resolve_left fun htake => ?_
  rw [List.mem_takeWhile_imp htake] at hc
  cases hc

/-! ## The first separator -/

/-- `s.partition(sep)`, without the separator. -/
def partition (sep : Char) (s : String) : String × String :=
  (String.ofList (s.toList.takeWhile (· ≠ sep)),
    String.ofList ((s.toList.dropWhile (· ≠ sep)).drop 1))

/-- A text is parted at the separator behind a head without one, whatever stands behind it. -/
theorem partition_append {sep : Char} {head s tail : String} (hs : s.toList = sep :: tail.toList)
    (hhead : sep ∉ head.toList) : partition sep (head ++ s) = (head, tail) := by
  have hall : ∀ c ∈ head.toList, decide (c ≠ sep) = true := by
    intro c hc
    exact decide_eq_true fun heq => hhead (heq ▸ hc)
  rw [partition, String.toList_append, List.takeWhile_append_of_pos hall,
    List.dropWhile_append_of_pos hall, hs]
  simp

end AiStudio.Data
