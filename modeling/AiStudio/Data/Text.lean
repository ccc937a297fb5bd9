import Mathlib.Data.List.DropRight

/-!
# Text

The string methods of Python that the runtime's guards use.
-/

set_option autoImplicit false

namespace AiStudio.Data

/-- The characters `str.strip` removes. -/
def isSpace (c : Char) : Bool :=
  let n := c.toNat
  (9 ≤ n && n ≤ 13) || (28 ≤ n && n ≤ 32) || n = 133 || n = 160 || n = 5760 ||
    (8192 ≤ n && n ≤ 8202) || n = 8232 || n = 8233 || n = 8239 || n = 8287 || n = 12288

/-- `s.strip()`. -/
def strip (s : String) : String :=
  String.ofList ((s.toList.dropWhile isSpace).rdropWhile isSpace)

/-- `not s or not s.strip()`. -/
def isBlank (s : String) : Bool := s.toList.all isSpace

/-- A lowercase hexadecimal digit. -/
def isHexDigit (c : Char) : Bool := "0123456789abcdef".toList.contains c

/-- The canonical text of a UUID: hexadecimal digits in groups of 8, 4, 4, 4 and 12. -/
def isUuidText (s : String) : Bool :=
  (s.toList.splitOn '-').map List.length = [8, 4, 4, 4, 12] &&
    s.toList.all fun c => c = '-' || isHexDigit c

/-! ## Stripped texts -/

theorem strip_toList (s : String) :
    (strip s).toList = (s.toList.dropWhile isSpace).rdropWhile isSpace := by
  rw [strip, String.toList_ofList]

theorem length_strip_le (s : String) : (strip s).toList.length ≤ s.toList.length := by
  rw [strip_toList]
  exact (List.rdropWhile_prefix _ _).length_le.trans (List.dropWhile_sublist _).length_le

/-- A text without a blank at either end is its own strip. -/
theorem strip_eq_self {s : String} (hhead : ∀ c ∈ s.toList.head?, isSpace c = false)
    (hlast : ∀ c ∈ s.toList.getLast?, isSpace c = false) : strip s = s := by
  have hdrop : s.toList.dropWhile isSpace = s.toList := by
    cases h : s.toList with
    | nil => rfl
    | cons c cs =>
        have hc : isSpace c = false := hhead c (by rw [h]; rfl)
        rw [List.dropWhile_cons, hc]
        rfl
  have hrdrop : s.toList.rdropWhile isSpace = s.toList := by
    rw [List.rdropWhile_eq_self_iff]
    intro hne
    have := hlast _ (List.getLast?_eq_getLast_of_ne_nil hne)
    simp [this]
  rw [strip, hdrop, hrdrop, String.ofList_toList]

/-- A text none of whose characters is a blank is its own strip. -/
theorem strip_of_forall {s : String} (h : ∀ c ∈ s.toList, isSpace c = false) : strip s = s :=
  strip_eq_self (fun c hc => h c (List.mem_of_mem_head? hc))
    fun c hc => h c (List.mem_of_mem_getLast? hc)

/-- What is dropped before a character that stays is before it. -/
theorem dropWhile_append_cons {α : Type} {p : α → Bool} {c : α} (hc : p c = false) (pre post : List α) :
    ∃ pre', (pre ++ c :: post).dropWhile p = pre' ++ c :: post := by
  induction pre with
  | nil => exact ⟨[], List.dropWhile_cons_of_neg (by simp [hc])⟩
  | cons a pre ih =>
      rw [List.cons_append, List.dropWhile_cons]
      split
      · exact ih
      · exact ⟨a :: pre, rfl⟩

section Around

variable {s : String} {part pre post : List Char} (hne : part ≠ [])
  (hhead : ∀ c ∈ part.head?, isSpace c = false) (hlast : ∀ c ∈ part.getLast?, isSpace c = false)

include hne hhead hlast

/-- Stripping a text leaves a beginning of it that neither begins nor ends with a blank. -/
theorem strip_of_prefix (h : s.toList = part ++ post) :
    ∃ post', (strip s).toList = part ++ post' := by
  obtain ⟨c, mid, rfl⟩ := List.exists_cons_of_ne_nil hne
  have hdrop : s.toList.dropWhile isSpace = (c :: mid) ++ post := by
    rw [h]
    exact List.dropWhile_cons_of_neg (by simp [hhead c rfl])
  obtain ⟨init, d, hd⟩ := List.eq_nil_or_concat (c :: mid) |>.resolve_left hne
  have hspace : isSpace d = false := hlast d (by rw [hd]; simp)
  obtain ⟨pre, hpre⟩ := dropWhile_append_cons hspace post.reverse init.reverse
  have hrev : (c :: mid).reverse = d :: init.reverse := by
    rw [hd, List.concat_eq_append, List.reverse_append]
    rfl
  refine ⟨pre.reverse, ?_⟩
  rw [strip_toList, hdrop, List.rdropWhile, List.reverse_append, hrev, hpre, ← hrev,
    List.reverse_append, List.reverse_reverse]

/-- Stripping a text leaves an end of it that neither begins nor ends with a blank. -/
theorem strip_of_suffix (h : s.toList = pre ++ part) :
    ∃ pre', (strip s).toList = pre' ++ part := by
  obtain ⟨c, mid, rfl⟩ := List.exists_cons_of_ne_nil hne
  obtain ⟨pre', hpre⟩ := dropWhile_append_cons (hhead c rfl) pre mid
  obtain ⟨init, d, hd⟩ := List.eq_nil_or_concat (c :: mid) |>.resolve_left hne
  have hspace : isSpace d = false := hlast d (by rw [hd]; simp)
  refine ⟨pre', ?_⟩
  rw [strip_toList, h, hpre, hd, List.concat_eq_append, ← List.append_assoc,
    List.rdropWhile_concat_neg _ _ _ (by simp [hspace])]

end Around

end AiStudio.Data
