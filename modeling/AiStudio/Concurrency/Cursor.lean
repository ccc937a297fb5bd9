import Mathlib.Data.List.Sort

/-!
# Consumers that page through a log

The rows of a log are numbered when they are written and become visible when they are committed,
so a row may appear below rows that are already there. A consumer keeps a cursor: it reads the
first `limit` rows from `lookback` numbers behind the cursor on, in the order of their numbers, and
moves the cursor to the last of them.

- `read_or_ahead`: a row of the window that is not read stays in the window of the next read.
- `read_of_sparse`: where no window holds `limit` rows up to its cursor, every row of the window is
  read after finitely many passes.
- `reached_of_full`: where a window does, the cursor stays where it is.
-/

set_option autoImplicit false

namespace AiStudio.Concurrency.Cursor

variable {ε : Type} (rows : List (ℕ × ε)) (lookback limit : ℕ)

/-- The rows past the bound, in order, and no more than `limit` of them. -/
def page (cursor : ℕ) : List (ℕ × ε) :=
  ((rows.filter fun r => cursor - lookback < r.1).insertionSort (·.1 ≤ ·.1)).take limit

/-- The cursor behind the rows that were read: it never moves back. -/
def reached (cursor : ℕ) (page : List (ℕ × ε)) : ℕ := (page.map Prod.fst).foldl max cursor

/-- The cursor after some passes over the same log. -/
def passes (cursor : ℕ) : ℕ → ℕ
  | 0 => cursor
  | n + 1 => reached (passes cursor n) (page rows lookback limit (passes cursor n))

/-- The rows of the window of a cursor that are not past it. -/
def behind (cursor : ℕ) : List (ℕ × ε) :=
  rows.filter fun r => cursor - lookback < r.1 ∧ r.1 ≤ cursor

/-- No window holds a whole page behind its cursor. -/
def Sparse : Prop := ∀ cursor, (behind rows lookback cursor).length < limit

variable {rows lookback limit} {cursor : ℕ} {r : ℕ × ε}

/-! ## Reading a page -/

section Page

theorem mem_of_mem_page (h : r ∈ page rows lookback limit cursor) :
    r ∈ rows ∧ cursor - lookback < r.1 := by
  have hmem := List.mem_of_mem_take h
  rw [List.mem_insertionSort, List.mem_filter] at hmem
  exact ⟨hmem.1, of_decide_eq_true hmem.2⟩

theorem length_page_le : (page rows lookback limit cursor).length ≤ rows.length := by
  refine (List.length_take_le' _ _).trans ?_
  rw [List.length_insertionSort]
  exact List.length_filter_le _ _

/-- A row past the bound is read, or a whole page of rows before it is. -/
theorem mem_page_or (h : r ∈ rows) (hpast : cursor - lookback < r.1) :
    r ∈ page rows lookback limit cursor ∨ (page rows lookback limit cursor).length = limit ∧
      ∀ x ∈ page rows lookback limit cursor, x.1 ≤ r.1 := by
  let sorted := (rows.filter fun r => cursor - lookback < r.1).insertionSort (·.1 ≤ ·.1)
  have hmem : r ∈ sorted :=
    (List.mem_insertionSort _).2 (List.mem_filter.2 ⟨h, decide_eq_true hpast⟩)
  have hsorted : sorted.Pairwise (·.1 ≤ ·.1) := List.pairwise_insertionSort ..
  change r ∈ sorted.take limit ∨ (sorted.take limit).length = limit ∧
    ∀ x ∈ sorted.take limit, x.1 ≤ r.1
  rw [← List.take_append_drop limit sorted] at hmem hsorted
  rcases List.mem_append.1 hmem with hread | hleft
  · exact .inl hread
  · refine .inr ⟨?_, ?_⟩
    · have hlength := List.length_pos_of_mem hleft
      rw [List.length_drop] at hlength
      rw [List.length_take]
      omega
    · intro x hx
      exact (List.pairwise_append.1 hsorted).2.2 x hx r hleft

theorem nodup_page (h : (rows.map Prod.fst).Nodup) :
    ((page rows lookback limit cursor).map Prod.fst).Nodup := by
  have hsub : (page rows lookback limit cursor).Sublist
      ((rows.filter fun r => cursor - lookback < r.1).insertionSort (·.1 ≤ ·.1)) :=
    List.take_sublist _ _
  have hperm := (List.perm_insertionSort (fun x y : ℕ × ε => x.1 ≤ y.1)
    (rows.filter fun r => cursor - lookback < r.1)).map Prod.fst
  exact (hperm.nodup_iff.2 (h.sublist (List.filter_sublist.map _))).sublist (hsub.map _)

end Page

/-! ## Moving the cursor -/

section Reached

variable {rows' : List (ℕ × ε)}

theorem le_reached : cursor ≤ reached cursor rows' := by
  unfold reached
  induction rows' generalizing cursor with
  | nil => exact le_refl _
  | cons x rows' ih => exact (le_max_left cursor x.1).trans ih

theorem le_reached_of_mem (h : r ∈ rows') : r.1 ≤ reached cursor rows' := by
  induction rows' generalizing cursor with
  | nil => cases h
  | cons x rows' ih =>
      rcases List.mem_cons.1 h with rfl | h
      · change r.1 ≤ reached (max cursor r.1) rows'
        exact (le_max_right cursor r.1).trans le_reached
      · change r.1 ≤ reached (max cursor x.1) rows'
        exact ih h

theorem reached_le {bound : ℕ} (hcursor : cursor ≤ bound) (h : ∀ r ∈ rows', r.1 ≤ bound) :
    reached cursor rows' ≤ bound := by
  unfold reached
  induction rows' generalizing cursor with
  | nil => exact hcursor
  | cons x rows' ih =>
      exact ih (max_le hcursor (h x List.mem_cons_self)) fun r hr => h r (List.mem_cons_of_mem x hr)

/-- **A row of the window is read, or it is in the window of the next read.** -/
theorem read_or_ahead (hlookback : 0 < lookback) (h : r ∈ rows) (hpast : cursor - lookback < r.1)
    (hahead : cursor < r.1 + lookback) :
    r ∈ page rows lookback limit cursor ∨
      reached cursor (page rows lookback limit cursor) < r.1 + lookback := by
  rcases mem_page_or h hpast with hread | ⟨-, hbefore⟩
  · exact .inl hread
  · right
    have hle : reached cursor (page rows lookback limit cursor) ≤ max cursor r.1 :=
      reached_le (le_max_left _ _) fun x hx => (hbefore x hx).trans (le_max_right _ _)
    omega

end Reached

/-! ## Passes over a log at rest -/

section Passes

theorem passes_succ (n : ℕ) :
    passes rows lookback limit cursor (n + 1) =
      passes rows lookback limit (reached cursor (page rows lookback limit cursor)) n := by
  induction n with
  | zero => rfl
  | succ n ih => rw [passes, ih, passes]

/-- A full page moves the cursor, when the window behind it is not full. -/
theorem lt_reached (hsparse : (behind rows lookback cursor).length < limit)
    (hnodup : (rows.map Prod.fst).Nodup)
    (hfull : (page rows lookback limit cursor).length = limit) :
    cursor < reached cursor (page rows lookback limit cursor) := by
  by_contra hstays
  -- else the whole page lies in the window behind the cursor
  have hwithin : page rows lookback limit cursor ⊆ behind rows lookback cursor := by
    intro x hx
    obtain ⟨hrow, hpast⟩ := mem_of_mem_page hx
    have hle : x.1 ≤ reached cursor (page rows lookback limit cursor) := le_reached_of_mem hx
    exact List.mem_filter.2 ⟨hrow, decide_eq_true ⟨hpast, by omega⟩⟩
  have hlength :=
    (List.subperm_of_subset (List.Nodup.of_map _ (nodup_page hnodup)) hwithin).length_le
  omega

/-- The rows past a cursor. -/
def past (rows : List (ℕ × ε)) (cursor : ℕ) : List (ℕ × ε) := rows.filter fun r => cursor < r.1

theorem past_length_lt {cursor' : ℕ} (hlt : cursor < cursor') {x : ℕ × ε} (hx : x ∈ rows)
    (hpast : cursor < x.1) (hle : x.1 ≤ cursor') :
    (past rows cursor').length < (past rows cursor).length := by
  have hsub : (past rows cursor').Sublist (past rows cursor) := by
    refine List.monotone_filter_right rows fun r hr => ?_
    exact decide_eq_true (hlt.trans (of_decide_eq_true hr))
  refine lt_of_le_of_ne hsub.length_le fun heq => ?_
  have hmem : x ∈ past rows cursor := List.mem_filter.2 ⟨hx, decide_eq_true hpast⟩
  rw [← hsub.eq_of_length heq] at hmem
  exact absurd (of_decide_eq_true (List.mem_filter.1 hmem).2) (by omega)

/-- **Every row of the window is read**, after no more passes than there are rows past the
cursor. -/
theorem read_of_sparse (hsparse : Sparse rows lookback limit) (hnodup : (rows.map Prod.fst).Nodup)
    (hlookback : 0 < lookback) (hpos : ∀ x ∈ rows, 0 < x.1) (h : r ∈ rows)
    (hahead : cursor < r.1 + lookback) :
    ∃ n ≤ (past rows cursor).length,
      r ∈ page rows lookback limit (passes rows lookback limit cursor n) := by
  -- on the rows past the cursor: a pass that does not read the row moves the cursor over one
  induction hlength : (past rows cursor).length using Nat.strong_induction_on generalizing cursor with
  | _ k ih =>
      have hpast : cursor - lookback < r.1 := by
        have := hpos r h
        omega
      have hpage : r ∈ page rows lookback limit cursor ∨ _ := mem_page_or h hpast
      rcases hpage with hread | ⟨hfull, -⟩
      · exact ⟨0, Nat.zero_le k, hread⟩
      · have hnext : r ∈ page rows lookback limit cursor ∨ _ :=
          read_or_ahead hlookback h hpast hahead
        rcases hnext with hread | hnext
        · exact ⟨0, Nat.zero_le k, hread⟩
        · have hmoves := lt_reached (hsparse cursor) hnodup hfull
          obtain ⟨x, hx, hover⟩ : ∃ x ∈ page rows lookback limit cursor, cursor < x.1 := by
            by_contra hnone
            push Not at hnone
            exact absurd (reached_le (le_refl cursor) hnone) (by omega)
          have hfewer := past_length_lt hmoves (mem_of_mem_page hx).1 hover (le_reached_of_mem hx)
          obtain ⟨n, hn, hread⟩ := ih _ (hlength ▸ hfewer) hnext rfl
          refine ⟨n + 1, by omega, ?_⟩
          rw [passes_succ]
          exact hread

/-- The rows behind a cursor fill its page when there are enough of them. -/
theorem page_of_full (hfull : limit ≤ (behind rows lookback cursor).length) {x : ℕ × ε}
    (hx : x ∈ page rows lookback limit cursor) : x.1 ≤ cursor := by
  by_contra hover
  let sorted := (rows.filter fun r => cursor - lookback < r.1).insertionSort (·.1 ≤ ·.1)
  have hsorted : sorted.Pairwise (·.1 ≤ ·.1) := List.pairwise_insertionSort ..
  obtain ⟨i, hi, rfl⟩ := List.getElem_of_mem hx
  have hi' : i < sorted.length := by
    have := hi
    rw [page, List.length_take] at this
    exact lt_of_lt_of_le this (min_le_right _ _)
  have hilimit : i < limit := by
    have := hi
    rw [page, List.length_take] at this
    exact lt_of_lt_of_le this (min_le_left _ _)
  have hget : (page rows lookback limit cursor)[i] = sorted[i] := List.getElem_take ..
  rw [hget] at hover
  -- the rows behind the cursor all stand before this one
  have hbehind : (behind rows lookback cursor).length =
      (sorted.filter fun r => r.1 ≤ cursor).length := by
    have hperm := (List.perm_insertionSort (fun x y : ℕ × ε => x.1 ≤ y.1)
      (rows.filter fun r => cursor - lookback < r.1)).filter fun r => r.1 ≤ cursor
    rw [hperm.length_eq, List.filter_filter, behind]
    refine congrArg List.length (List.filter_congr fun r _ => ?_)
    simp [and_comm]
  have hcount : (sorted.filter fun r => r.1 ≤ cursor).length ≤ i := by
    rw [← List.take_append_drop i sorted, List.filter_append, List.length_append]
    have hdrop : (sorted.drop i).filter (fun r => r.1 ≤ cursor) = [] := by
      rw [List.filter_eq_nil_iff]
      intro y hy hle
      obtain ⟨j, hj, rfl⟩ := List.getElem_of_mem hy
      rw [List.getElem_drop] at hle
      have hle' := of_decide_eq_true hle
      rcases Nat.eq_zero_or_pos j with rfl | hj0
      · simp only [Nat.add_zero] at hle'
        omega
      · have := List.pairwise_iff_getElem.1 hsorted i (i + j) hi'
          (by rw [List.length_drop] at hj; omega) (by omega)
        omega
    rw [hdrop, List.length_nil, Nat.add_zero]
    exact (List.length_filter_le _ _).trans (by rw [List.length_take]; exact min_le_left _ _)
  omega

/-- **A full window holds the cursor.** Whatever lies past it is never read. -/
theorem reached_of_full (hfull : limit ≤ (behind rows lookback cursor).length) :
    reached cursor (page rows lookback limit cursor) = cursor :=
  le_antisymm (reached_le (le_refl _) fun _ hx => page_of_full hfull hx) le_reached

end Passes

end AiStudio.Concurrency.Cursor
