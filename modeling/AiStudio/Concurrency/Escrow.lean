import Mathlib.Algebra.BigOperators.Group.Finset.Basic
import Mathlib.Algebra.Order.BigOperators.Group.Finset
import Mathlib.Algebra.Order.Group.Defs
import Mathlib.Tactic.Abel

/-!
# Escrow

Several parties spend from one pot under a cap. A party first reads, one after the other, what is
reserved and what is spent; it reserves an estimate if the two readings and the estimate fit under
the cap, spends at most the estimate, and gives the reservation back. Between its readings and
its reservation nobody else may reserve or give back, but everybody may spend.

* `Escrow.step`: each deal keeps what is spent and may still be spent under the cap, and the
  reservations the sum of what the parties owe.
-/

set_option autoImplicit false

namespace AiStudio.Concurrency

/-- What a party has read of the pot. -/
inductive Reading (G : Type) where
  | closed
  | reserved (r : G)
  | both (r s : G)

/-- What a party has: its reading, what it may still spend, and what it has to give back. -/
structure Purse (G : Type) where
  reading : Reading G
  live : G
  owed : G

/-- What is spent and reserved, and the reservations that were never given back. -/
structure Pot (G : Type) where
  spent : G
  reserved : G
  lost : G

variable {G : Type} [AddCommGroup G] [LinearOrder G]

/-- A party without a reservation. -/
def Purse.empty : Purse G := ⟨.closed, 0, 0⟩

/-- One deal of a party with the pot. -/
inductive Deal (cap : G) : Pot G → Purse G → Pot G → Purse G → Prop where
  | look {pot : Pot G} {l : Purse G} :
      Deal cap pot l pot { l with reading := .reserved pot.reserved }
  | count {pot : Pot G} {l : Purse G} {r : G} (hread : l.reading = .reserved r) :
      Deal cap pot l pot { l with reading := .both r pot.spent }
  | reserve {pot : Pot G} {l : Purse G} {r s e : G} (hread : l.reading = .both r s)
      (hfits : s + r + e ≤ cap) (he : 0 ≤ e) :
      Deal cap pot l { pot with reserved := pot.reserved + e } ⟨.closed, e, l.owed + e⟩
  | spend {pot : Pot G} {l : Purse G} {x : G} (hx : x ≤ l.live) :
      Deal cap pot l { pot with spent := pot.spent + x } { l with live := 0 }
  | giveBack {pot : Pot G} {l : Purse G} {e : G} (he : 0 ≤ e) (howed : e ≤ l.owed) :
      Deal cap pot l { pot with reserved := max (pot.reserved - e) 0 }
        ⟨.closed, 0, l.owed - e⟩
  | lose {pot : Pot G} {l : Purse G} {e : G} (he : 0 ≤ e) (howed : e ≤ l.owed) :
      Deal cap pot l { pot with lost := pot.lost + e } { l with live := 0, owed := l.owed - e }
  | forget {pot : Pot G} {l : Purse G} : Deal cap pot l pot { l with live := 0 }
  | close {pot : Pot G} {l : Purse G} : Deal cap pot l pot { l with reading := .closed }
  | rest {pot : Pot G} {l : Purse G} : Deal cap pot l pot l

variable {P : Type} [Fintype P]

/-- The invariant of a pot under a cap, of which `base` was reserved by nobody here. -/
structure Escrow (cap base : G) (pot : Pot G) (purses : P → Purse G) : Prop where
  fits : pot.spent + ∑ p, (purses p).live ≤ cap
  kept : pot.reserved = base + pot.lost + ∑ p, (purses p).owed
  live_nonneg : ∀ p, 0 ≤ (purses p).live
  live_le : ∀ p, (purses p).live ≤ (purses p).owed
  lost_nonneg : 0 ≤ pot.lost
  locked : ∀ p r, (purses p).reading = .reserved r → pot.reserved = r
  covered : ∀ p r s, (purses p).reading = .both r s → pot.spent + ∑ q, (purses q).live ≤ s + r

namespace Escrow

/-- Parties that have dealt with nothing yet. -/
theorem initial {cap spent reserved : G} (h : spent ≤ cap) :
    Escrow cap reserved ⟨spent, reserved, 0⟩ (fun _ : P => Purse.empty) where
  fits := by simpa [Purse.empty] using h
  kept := by simp [Purse.empty]
  live_nonneg _ := le_refl _
  live_le _ := le_refl _
  lost_nonneg := le_refl _
  locked _ _ h := nomatch h
  covered _ _ _ h := nomatch h

omit [LinearOrder G] in
/-- A total after one party has changed. -/
theorem total_update [DecidableEq P] (f : Purse G → G) (purses : P → Purse G) (p : P) (l : Purse G) :
    ∑ q, f (Function.update purses p l q) = ∑ q, f (purses q) - f (purses p) + f l := by
  rw [← Finset.add_sum_erase _ _ (Finset.mem_univ p),
    ← Finset.add_sum_erase _ (fun q => f (purses q)) (Finset.mem_univ p), Function.update_self]
  have hrest : ∑ q ∈ Finset.univ.erase p, f (Function.update purses p l q) =
      ∑ q ∈ Finset.univ.erase p, f (purses q) :=
    Finset.sum_congr rfl fun q hq => by rw [Function.update_of_ne (Finset.ne_of_mem_erase hq)]
  rw [hrest]
  abel

variable [IsOrderedAddMonoid G] {cap base : G} {pot pot' : Pot G} {purses : P → Purse G} {p : P}
  {l' : Purse G}

/-- What a party owes is reserved. -/
theorem owed_le (h : Escrow cap base pot purses) (hbase : 0 ≤ base) (p : P) :
    (purses p).owed ≤ pot.reserved := by
  have hone : (purses p).owed ≤ ∑ q, (purses q).owed :=
    Finset.single_le_sum (f := fun q => (purses q).owed)
      (fun q _ => (h.live_nonneg q).trans (h.live_le q)) (Finset.mem_univ p)
  rw [h.kept]
  exact hone.trans (le_add_of_nonneg_left (add_nonneg hbase h.lost_nonneg))

/-- What may still be spent is reserved. -/
theorem live_total_le (h : Escrow cap base pot purses) (hbase : 0 ≤ base) :
    ∑ q, (purses q).live ≤ pot.reserved := by
  have hsum : ∑ q, (purses q).live ≤ ∑ q, (purses q).owed :=
    Finset.sum_le_sum fun q _ => h.live_le q
  rw [h.kept]
  exact hsum.trans (le_add_of_nonneg_left (add_nonneg hbase h.lost_nonneg))

/-- **The spending stays under the cap.** -/
theorem spent_le (h : Escrow cap base pot purses) : pot.spent ≤ cap :=
  (le_add_of_nonneg_right (Finset.sum_nonneg fun q _ => h.live_nonneg q)).trans h.fits

end Escrow

/-! ## What a deal changes -/

namespace Deal

variable [IsOrderedAddMonoid G] {cap : G} {pot pot' : Pot G} {l l' : Purse G}

/-- Only a reservation raises the level, and it was read to fit. -/
theorem level (h : Deal cap pot l pot' l') (hlive : 0 ≤ l.live) :
    pot'.spent + l'.live ≤ pot.spent + l.live ∨
      ∃ r s e, l.reading = .both r s ∧ s + r + e ≤ cap ∧ pot'.spent = pot.spent ∧ l'.live = e ∧
        l'.reading = .closed ∧ pot'.reserved = pot.reserved + e := by
  cases h with
  | reserve hread hfits he => exact .inr ⟨_, _, _, hread, hfits, rfl, rfl, rfl, rfl⟩
  | spend hx =>
      left
      rw [add_assoc, add_zero]
      exact add_le_add_right hx _
  | giveBack => exact .inl (add_le_add_right hlive _)
  | lose => exact .inl (add_le_add_right hlive _)
  | forget => exact .inl (add_le_add_right hlive _)
  | _ => exact .inl (le_refl _)

/-- A party may spend no more than it owes. -/
theorem live_bounds (h : Deal cap pot l pot' l') (hlive : 0 ≤ l.live) (hle : l.live ≤ l.owed) :
    0 ≤ l'.live ∧ l'.live ≤ l'.owed := by
  cases h with
  | reserve hread hfits he => exact ⟨he, le_add_of_nonneg_left (hlive.trans hle)⟩
  | spend => exact ⟨le_refl _, hlive.trans hle⟩
  | giveBack he howed => exact ⟨le_refl _, sub_nonneg.2 howed⟩
  | lose he howed => exact ⟨le_refl _, sub_nonneg.2 howed⟩
  | forget => exact ⟨le_refl _, hlive.trans hle⟩
  | _ => exact ⟨hlive, hle⟩

/-- What is reserved changes by what the party owes, and by what is lost. -/
theorem conserves (h : Deal cap pot l pot' l') (howed : l.owed ≤ pot.reserved) :
    pot'.reserved - pot'.lost - l'.owed = pot.reserved - pot.lost - l.owed := by
  cases h with
  | reserve => simp only; abel
  | giveBack he hle =>
      have hmax := max_eq_left (sub_nonneg.2 (hle.trans howed))
      simp only [hmax]
      abel
  | lose => simp only; abel
  | _ => rfl

theorem lost_nonneg (h : Deal cap pot l pot' l') (hlost : 0 ≤ pot.lost) : 0 ≤ pot'.lost := by
  cases h with
  | lose he => exact add_nonneg hlost he
  | _ => exact hlost

omit [IsOrderedAddMonoid G] in
/-- A reading of the reservations is of the pot. -/
theorem reads_reserved (h : Deal cap pot l pot' l') {r : G} (hread : l'.reading = .reserved r) :
    pot'.reserved = r ∨ (l.reading = .reserved r ∧ pot'.reserved = pot.reserved) := by
  cases h with
  | look => exact .inl (Reading.reserved.inj hread)
  | count | reserve | giveBack | close => cases hread
  | _ => exact .inr ⟨hread, rfl⟩

omit [IsOrderedAddMonoid G] in
/-- A full reading is of the pot, or it was made before. -/
theorem reads_both (h : Deal cap pot l pot' l') {r s : G} (hread : l'.reading = .both r s) :
    l.reading = .both r s ∨ (l.reading = .reserved r ∧ s = pot.spent) := by
  cases h with
  | look | reserve | giveBack | close => cases hread
  | count hlooked =>
      obtain ⟨rfl, rfl⟩ := Reading.both.inj hread
      exact .inr ⟨hlooked, rfl⟩
  | _ => exact .inl hread

end Deal

namespace Escrow

variable [IsOrderedAddMonoid G] [DecidableEq P] {cap base : G} {pot pot' : Pot G}
  {purses : P → Purse G} {p : P} {l' : Purse G}

/-- **Every deal keeps the escrow**, as long as nobody else has read the pot while the reservations
change. -/
theorem step (h : Escrow cap base pot purses) (hbase : 0 ≤ base)
    (hd : Deal cap pot (purses p) pot' l')
    (hexcl : pot'.reserved = pot.reserved ∨ ∀ q, q ≠ p → (purses q).reading = .closed) :
    Escrow cap base pot' (Function.update purses p l') := by
  have hlives := total_update Purse.live purses p l'
  have howeds := total_update Purse.owed purses p l'
  have hbounds := hd.live_bounds (h.live_nonneg p) (h.live_le p)
  have hall : ∀ q, 0 ≤ (Function.update purses p l' q).live ∧
      (Function.update purses p l' q).live ≤ (Function.update purses p l' q).owed := by
    intro q
    by_cases hq : q = p
    · subst hq
      rw [Function.update_self]
      exact hbounds
    · rw [Function.update_of_ne hq]
      exact ⟨h.live_nonneg q, h.live_le q⟩
  -- a deal that is no reservation does not raise what is or may still be spent
  have hlower : pot'.spent + l'.live ≤ pot.spent + (purses p).live →
      pot'.spent + ∑ q, (Function.update purses p l' q).live ≤ pot.spent + ∑ q, (purses q).live := by
    intro hle
    rw [hlives]
    calc pot'.spent + (∑ q, (purses q).live - (purses p).live + l'.live)
        = pot'.spent + l'.live + (∑ q, (purses q).live - (purses p).live) := by abel
      _ ≤ pot.spent + (purses p).live + (∑ q, (purses q).live - (purses p).live) :=
          add_le_add_left hle _
      _ = pot.spent + ∑ q, (purses q).live := by abel
  refine ⟨?_, ?_, fun q => (hall q).1, fun q => (hall q).2, hd.lost_nonneg h.lost_nonneg, ?_, ?_⟩
  · rcases hd.level (h.live_nonneg p) with hle | ⟨r, s, e, hread, hfits, hspent, hlive, -, -⟩
    · exact (hlower hle).trans h.fits
    · rw [hlives, hspent, hlive]
      calc pot.spent + (∑ q, (purses q).live - (purses p).live + e)
          = pot.spent + ∑ q, (purses q).live - (purses p).live + e := by abel
        _ ≤ pot.spent + ∑ q, (purses q).live + e :=
            add_le_add_left (sub_le_self _ (h.live_nonneg p)) _
        _ ≤ s + r + e := add_le_add_left (h.covered p r s hread) _
        _ ≤ cap := hfits
  · have hcons := hd.conserves (h.owed_le hbase p)
    have hreserved : pot'.reserved =
        pot.reserved - pot.lost - (purses p).owed + l'.owed + pot'.lost := by
      rw [← hcons]
      abel
    rw [howeds, hreserved, h.kept]
    abel
  · intro q r hread
    by_cases hq : q = p
    · subst hq
      rw [Function.update_self] at hread
      rcases hd.reads_reserved hread with hnow | ⟨hbefore, hsame⟩
      · exact hnow
      · exact hsame.trans (h.locked q r hbefore)
    · rw [Function.update_of_ne hq] at hread
      rcases hexcl with hsame | hclosed
      · exact hsame.trans (h.locked q r hread)
      · rw [hclosed q hq] at hread
        cases hread
  · intro q r s hread
    have hbefore : pot.spent + ∑ q, (purses q).live ≤ s + r := by
      by_cases hq : q = p
      · subst hq
        rw [Function.update_self] at hread
        rcases hd.reads_both hread with hsame | ⟨hlooked, rfl⟩
        · exact h.covered q r s hsame
        · rw [← h.locked q r hlooked]
          exact add_le_add_right (h.live_total_le hbase) _
      · rw [Function.update_of_ne hq] at hread
        exact h.covered q r s hread
    refine (hlower ?_).trans hbefore
    rcases hd.level (h.live_nonneg p) with hle | ⟨r', s', e, -, -, hspent, hlive, hclosed, hres⟩
    · exact hle
    · -- a party that has read the pot keeps the others from reserving
      by_cases hq : q = p
      · subst hq
        rw [Function.update_self, hclosed] at hread
        cases hread
      · rw [Function.update_of_ne hq] at hread
        rcases hexcl with hsame | hothers
        · have he : e = 0 := by
            rw [hsame] at hres
            exact left_eq_add.1 hres
          rw [hspent, hlive, he]
          exact add_le_add_right (h.live_nonneg p) _
        · rw [hothers q hq] at hread
          cases hread

end Escrow

end AiStudio.Concurrency
