import Mathlib.Data.List.Forall2

/-!
# Traversals

A fallible function over a list: it succeeds where it does on every element, and gives the results
in order.
-/

set_option autoImplicit false

namespace AiStudio.Data

theorem exists_mem_of_forall₂ {α β : Type} {R : α → β → Prop} {l : List α} {r : List β}
    (h : List.Forall₂ R l r) {b : β} (hb : b ∈ r) : ∃ a ∈ l, R a b := by
  induction h with
  | nil => exact absurd hb List.not_mem_nil
  | cons hfirst _ ih =>
      rcases List.mem_cons.1 hb with rfl | hb
      · exact ⟨_, List.mem_cons_self .., hfirst⟩
      · obtain ⟨a, ha, hR⟩ := ih hb
        exact ⟨a, List.mem_cons_of_mem _ ha, hR⟩

theorem mapM_eq_ok_iff {ε α β : Type} {f : α → Except ε β} {l : List α} {r : List β} :
    l.mapM f = .ok r ↔ List.Forall₂ (fun a b => f a = .ok b) l r := by
  induction l generalizing r with
  | nil =>
      rw [List.mapM_nil, List.forall₂_nil_left_iff]
      exact ⟨fun h => (Except.ok.inj h).symm, fun h => h ▸ rfl⟩
  | cons a l ih =>
      rw [List.mapM_cons]
      cases ha : f a with
      | error e =>
          constructor
          · intro h
            cases h
          · rintro (_ | ⟨hfirst, -⟩)
            rw [ha] at hfirst
            cases hfirst
      | ok b =>
          cases hrest : l.mapM f with
          | error e =>
              constructor
              · intro h
                cases h
              · rintro (_ | ⟨-, htail⟩)
                rw [ih.2 htail] at hrest
                cases hrest
          | ok bs =>
              constructor
              · intro h
                obtain rfl := Except.ok.inj h
                exact .cons ha (ih.1 hrest)
              · rintro (_ | ⟨hfirst, htail⟩)
                rw [ha] at hfirst
                rw [ih.2 htail] at hrest
                obtain rfl := Except.ok.inj hfirst
                obtain rfl := Except.ok.inj hrest
                rfl

theorem forall₂_of_mapM_eq_some {α β : Type} {f : α → Option β} {l : List α} {r : List β}
    (h : l.mapM f = some r) : List.Forall₂ (fun a b => f a = some b) l r := by
  induction l generalizing r with
  | nil =>
      rw [List.mapM_nil] at h
      obtain rfl := Option.some.inj h
      exact .nil
  | cons a l ih =>
      rw [List.mapM_cons] at h
      obtain ⟨b, hfirst, h⟩ := Option.bind_eq_some_iff.mp h
      obtain ⟨bs, hrest, h⟩ := Option.bind_eq_some_iff.mp h
      obtain rfl := Option.some.inj h
      exact .cons hfirst (ih hrest)

end AiStudio.Data
