import Mathlib.Data.List.Sort

/-!
# Framed text

When a text that is put together from parts determines the parts again. A part can be
ended by a separator that does not occur in it, or by the first character outside a
class of characters.
-/

set_option autoImplicit false

namespace AiStudio.Data

variable {α : Type}

/-- The first separator ends the first part. -/
theorem cut_left {sep : α} {x y r s : List α} (hx : sep ∉ x) (hy : sep ∉ y)
    (h : x ++ sep :: r = y ++ sep :: s) : x = y ∧ r = s := by
  induction x generalizing y with
  | nil =>
      cases y with
      | nil => exact ⟨rfl, (List.cons.inj h).2⟩
      | cons b y => exact absurd (by simp [(List.cons.inj h).1]) hy
  | cons a x ih =>
      cases y with
      | nil => exact absurd (by simp [(List.cons.inj h).1]) hx
      | cons b y =>
          obtain ⟨rfl, htail⟩ := List.cons.inj h
          obtain ⟨rfl, hr⟩ := ih (fun hm => hx (by simp [hm])) (fun hm => hy (by simp [hm])) htail
          exact ⟨rfl, hr⟩

/-- The last separator begins the last part. -/
theorem cut_right {sep : α} {x y r s : List α} (hr : sep ∉ r) (hs : sep ∉ s)
    (h : x ++ sep :: r = y ++ sep :: s) : x = y ∧ r = s := by
  have hrev : r.reverse ++ sep :: x.reverse = s.reverse ++ sep :: y.reverse := by
    simpa using congrArg List.reverse h
  obtain ⟨hrs, hxy⟩ := cut_left (by simpa using hr) (by simpa using hs) hrev
  exact ⟨List.reverse_inj.1 hxy, List.reverse_inj.1 hrs⟩

/-- The text is over, or goes on with a character outside the class. -/
def EndsClass (p : α → Bool) (r : List α) : Prop := ∀ a ∈ r.head?, p a = false

/-- The first character outside a class ends a part inside it. -/
theorem cut_class {p : α → Bool} {x y r s : List α} (hx : ∀ a ∈ x, p a = true)
    (hy : ∀ a ∈ y, p a = true) (hr : EndsClass p r) (hs : EndsClass p s)
    (h : x ++ r = y ++ s) : x = y ∧ r = s := by
  induction x generalizing y with
  | nil =>
      cases y with
      | nil => exact ⟨rfl, h⟩
      | cons b y =>
          have hb := hr b (by simp [show r = b :: (y ++ s) from h])
          rw [hy b (by simp)] at hb
          cases hb
  | cons a x ih =>
      cases y with
      | nil =>
          have ha := hs a (by simp [show s = a :: (x ++ r) from h.symm])
          rw [hx a (by simp)] at ha
          cases ha
      | cons b y =>
          obtain ⟨rfl, htail⟩ := List.cons.inj h
          obtain ⟨rfl, hrs⟩ :=
            ih (fun c hc => hx c (by simp [hc])) (fun c hc => hy c (by simp [hc])) htail
          exact ⟨rfl, hrs⟩

/-- Nonempty parts without the separator are determined by their join. -/
theorem intercalate_inj [DecidableEq α] {sep : α} {xs ys : List (List α)}
    (hx : ∀ x ∈ xs, sep ∉ x ∧ x ≠ []) (hy : ∀ y ∈ ys, sep ∉ y ∧ y ≠ [])
    (h : [sep].intercalate xs = [sep].intercalate ys) : xs = ys := by
  -- an empty join has no parts: one part is not empty, and two are separated
  have hnil : ∀ zs : List (List α), (∀ z ∈ zs, sep ∉ z ∧ z ≠ []) →
      [sep].intercalate zs = [] → zs = [] := by
    intro zs hz hjoin
    match zs with
    | [] => rfl
    | [z] => exact absurd (by simpa using hjoin) (hz z (by simp)).2
    | z :: z' :: zs => simp [List.intercalate_cons_cons] at hjoin
  by_cases hxs : xs = []
  · subst hxs
    exact (hnil ys hy h.symm).symm
  · have hys : ys ≠ [] := fun hys => hxs (hnil xs hx (by rw [h, hys]; rfl))
    have hsplit := congrArg (List.splitOn sep) h
    rwa [List.splitOn_intercalate sep (fun x hm => (hx x hm).1) hxs,
      List.splitOn_intercalate sep (fun y hm => (hy y hm).1) hys] at hsplit

/-- A join contains only its separator and what its parts contain. -/
theorem not_mem_intercalate {a sep : α} {xs : List (List α)} (ha : a ≠ sep)
    (h : ∀ x ∈ xs, a ∉ x) : a ∉ [sep].intercalate xs := by
  match xs with
  | [] => simp
  | [x] => simpa using h x (by simp)
  | x :: y :: xs =>
      have hrest : a ∉ [sep].intercalate (y :: xs) :=
        not_mem_intercalate ha fun z hz => h z (List.mem_cons_of_mem x hz)
      simp [List.intercalate_cons_cons, ha, h x (by simp), hrest]

/-- Lists that sort to one list have the same members. -/
theorem mem_iff_of_insertionSort_eq {r : α → α → Prop} [DecidableRel r] {xs ys : List α}
    (h : xs.insertionSort r = ys.insertionSort r) (a : α) : a ∈ xs ↔ a ∈ ys := by
  rw [← List.mem_insertionSort r, h, List.mem_insertionSort]

end AiStudio.Data
