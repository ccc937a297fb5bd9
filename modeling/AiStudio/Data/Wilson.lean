import Mathlib.Algebra.Order.Round
import Mathlib.Analysis.Real.Sqrt
import Mathlib.Tactic.FieldSimp
import Mathlib.Tactic.Linarith
import Mathlib.Tactic.Positivity
import Mathlib.Tactic.Ring

/-!
# The Wilson interval

The score interval of a proportion `p` of `n` trials, over any ordered field with a square root.
It is taken around a center that lies between `p` and one half, and it holds `p`
(`lower_le`, `le_upper`). Where the square root is exact, its ends solve the score equation, and
grow with the proportion and with the sample (`low_mono`, `high_mono`, `low_mono_sample`).
-/

set_option autoImplicit false

namespace AiStudio.Data.Wilson

/-- The arithmetic of an interval: a square root, and a rounding that keeps the order and the
ends of the unit interval. -/
structure Arithmetic (K : Type) [Field K] [LinearOrder K] where
  sqrt : K → K
  round : K → K
  le_sqrt : ∀ {a x : K}, 0 ≤ a → a * a ≤ x → a ≤ sqrt x
  monotone_round : Monotone round
  round_zero : round 0 = 0
  round_one : round 1 = 1

variable {K : Type} [Field K] [LinearOrder K]

/-- The middle of the interval. -/
def center (z p n : K) : K := (p + z * z / (2 * n)) / (1 + z * z / n)

/-- Half its width. -/
def margin (a : Arithmetic K) (z p n : K) : K :=
  z / (1 + z * z / n) * a.sqrt (p * (1 - p) / n + z * z / (4 * n * n))

variable [IsStrictOrderedRing K] {a : Arithmetic K} {z p n : K}

/-- The center is off the proportion by this much. -/
theorem center_sub (hn : 0 < n) (hz : 0 ≤ z) :
    center z p n - p = z / (1 + z * z / n) * (z * (1 / 2 - p) / n) := by
  have hdenom : 1 + z * z / n ≠ 0 := by positivity
  have hn' : n ≠ 0 := hn.ne'
  rw [center]
  field_simp
  ring

/-- The distance of the proportion from one half, scaled, is below the root. -/
theorem scaled_le_sqrt (hn : 0 < n) (hz : 0 ≤ z) (hp : 0 ≤ p) (hp' : p ≤ 1) :
    |z * (1 / 2 - p) / n| ≤ a.sqrt (p * (1 - p) / n + z * z / (4 * n * n)) := by
  refine a.le_sqrt (abs_nonneg _) ?_
  rw [abs_mul_abs_self]
  have hsplit : z * (1 / 2 - p) / n * (z * (1 / 2 - p) / n) =
      z * z / (4 * n * n) - z * z * (p * (1 - p)) / (n * n) := by
    have hn' : n ≠ 0 := hn.ne'
    field_simp
    ring
  have hspread : 0 ≤ p * (1 - p) := mul_nonneg hp (sub_nonneg.2 hp')
  have hleft : 0 ≤ z * z * (p * (1 - p)) / (n * n) := by positivity
  have hright : 0 ≤ p * (1 - p) / n := by positivity
  rw [hsplit]
  linarith

/-- **The interval holds the proportion.** -/
theorem abs_center_sub_le (hn : 0 < n) (hz : 0 ≤ z) (hp : 0 ≤ p) (hp' : p ≤ 1) :
    |center z p n - p| ≤ margin a z p n := by
  have hscale : 0 ≤ z / (1 + z * z / n) := by positivity
  rw [center_sub hn hz, abs_mul, abs_of_nonneg hscale]
  exact mul_le_mul_of_nonneg_left (scaled_le_sqrt hn hz hp hp') hscale

/-- The rounded ends of the interval, cut to the unit interval. -/
def lower (a : Arithmetic K) (z p n : K) : K := a.round (max 0 (center z p n - margin a z p n))

def upper (a : Arithmetic K) (z p n : K) : K := a.round (min 1 (center z p n + margin a z p n))

omit [IsStrictOrderedRing K] in
theorem round_mem {x : K} (hx : 0 ≤ x) (hx' : x ≤ 1) : 0 ≤ a.round x ∧ a.round x ≤ 1 := by
  have hlow := a.monotone_round hx
  have hhigh := a.monotone_round hx'
  rw [a.round_zero] at hlow
  rw [a.round_one] at hhigh
  exact ⟨hlow, hhigh⟩

theorem lower_le (hn : 0 < n) (hz : 0 ≤ z) (hp : 0 ≤ p) (hp' : p ≤ 1) :
    0 ≤ lower a z p n ∧ lower a z p n ≤ a.round p := by
  have hclose := abs_le.1 (abs_center_sub_le (a := a) hn hz hp hp')
  have hends : max 0 (center z p n - margin a z p n) ≤ p := max_le hp (by linarith)
  exact ⟨(round_mem (le_max_left _ _) (hends.trans hp')).1, a.monotone_round hends⟩

theorem le_upper (hn : 0 < n) (hz : 0 ≤ z) (hp : 0 ≤ p) (hp' : p ≤ 1) :
    a.round p ≤ upper a z p n ∧ upper a z p n ≤ 1 := by
  have hclose := abs_le.1 (abs_center_sub_le (a := a) hn hz hp hp')
  have hends : p ≤ min 1 (center z p n + margin a z p n) := le_min hp' (by linarith)
  exact ⟨a.monotone_round hends, (round_mem (hp.trans hends) (min_le_left _ _)).2⟩

/-! ## The ends as solutions -/

/-- The square root is one. -/
structure Arithmetic.Exact (a : Arithmetic K) : Prop where
  sqrt_nonneg : ∀ x : K, 0 ≤ a.sqrt x
  mul_self_sqrt : ∀ {x : K}, 0 ≤ x → a.sqrt x * a.sqrt x = x

/-- The ends of the interval, before they are cut and rounded. -/
def low (a : Arithmetic K) (z p n : K) : K := center z p n - margin a z p n

def high (a : Arithmetic K) (z p n : K) : K := center z p n + margin a z p n

theorem low_le (hn : 0 < n) (hz : 0 ≤ z) (hp : 0 ≤ p) (hp' : p ≤ 1) : low a z p n ≤ p := by
  have hclose := abs_le.1 (abs_center_sub_le (a := a) hn hz hp hp')
  rw [low]
  linarith [hclose.2]

theorem margin_nonneg (ha : a.Exact) (hn : 0 < n) (hz : 0 ≤ z) : 0 ≤ margin a z p n := by
  have hscale : 0 ≤ z / (1 + z * z / n) := by positivity
  exact mul_nonneg hscale (ha.sqrt_nonneg _)

theorem margin_mul_self (ha : a.Exact) (hn : 0 < n) (hp : 0 ≤ p) (hp' : p ≤ 1) :
    margin a z p n * margin a z p n =
      z / (1 + z * z / n) * (z / (1 + z * z / n)) *
        (p * (1 - p) / n + z * z / (4 * n * n)) := by
  have hspread : 0 ≤ p * (1 - p) := mul_nonneg hp (sub_nonneg.2 hp')
  have hzz : 0 ≤ z * z := mul_self_nonneg z
  have hroot := ha.mul_self_sqrt (x := p * (1 - p) / n + z * z / (4 * n * n)) (by positivity)
  rw [margin, mul_mul_mul_comm, hroot]

/-- How far `q` is from the ends, and how far it is from solving the score equation. -/
theorem score_eq (ha : a.Exact) (hn : 0 < n) (hp : 0 ≤ p) (hp' : p ≤ 1) (q : K) :
    (n + z * z) * ((q - center z p n) * (q - center z p n) - margin a z p n * margin a z p n) =
      n * ((p - q) * (p - q)) - z * z * (q * (1 - q)) := by
  have hzz : 0 ≤ z * z := mul_self_nonneg z
  have hn' : n ≠ 0 := hn.ne'
  have hdenom : n + z * z ≠ 0 := by positivity
  have hdenom' : 1 + z * z / n ≠ 0 := by positivity
  rw [margin_mul_self ha hn hp hp', center]
  field_simp
  ring

/-- What solves the score inequality lies above the lower end. -/
theorem low_le_of_score (ha : a.Exact) (hn : 0 < n) (hz : 0 ≤ z) (hp : 0 ≤ p) (hp' : p ≤ 1) {q : K}
    (hq : n * ((p - q) * (p - q)) ≤ z * z * (q * (1 - q))) : low a z p n ≤ q := by
  have hscale : 0 < n + z * z := by positivity
  have hscore := score_eq ha hn hp hp' (z := z) q
  have hsquare : (q - center z p n) * (q - center z p n) ≤ margin a z p n * margin a z p n := by
    by_contra hlt
    have hpos := mul_pos hscale (sub_pos.2 (not_le.1 hlt))
    linarith
  have habs := abs_le_of_sq_le_sq (by simpa only [sq] using hsquare) (margin_nonneg ha hn hz)
  rw [low]
  linarith [(abs_le.1 habs).1]

/-- The lower end solves the score equation. -/
theorem score_low (ha : a.Exact) (hn : 0 < n) (hp : 0 ≤ p) (hp' : p ≤ 1) :
    n * ((p - low a z p n) * (p - low a z p n)) =
      z * z * (low a z p n * (1 - low a z p n)) := by
  have hscore := score_eq ha hn hp hp' (z := z) (low a z p n)
  have hzero : (low a z p n - center z p n) * (low a z p n - center z p n) -
      margin a z p n * margin a z p n = 0 := by
    rw [low]
    ring
  rw [hzero, mul_zero] at hscore
  linarith

/-- The lower end is in the unit interval: the cut of `lower` takes nothing away. -/
theorem low_nonneg (ha : a.Exact) (hn : 0 < n) (hz : 0 < z) (hp : 0 ≤ p) (hp' : p ≤ 1) :
    0 ≤ low a z p n := by
  have hscore := score_low ha hn hp hp' (z := z)
  have hle := (low_le (a := a) hn hz.le hp hp').trans hp'
  generalize low a z p n = x at hscore hle ⊢
  have hspread : 0 ≤ x * (1 - x) := by
    refine nonneg_of_mul_nonneg_right ?_ (mul_pos hz hz)
    rw [← hscore]
    exact mul_nonneg hn.le (mul_self_nonneg _)
  by_contra hneg
  nlinarith

/-- **The lower end grows with the proportion.** -/
theorem low_mono (ha : a.Exact) (hn : 0 < n) (hz : 0 ≤ z) (hp : 0 ≤ p) {p' : K} (hle : p ≤ p')
    (hp' : p' ≤ 1) : low a z p n ≤ low a z p' n := by
  have hscore := score_low ha hn (hp.trans hle) hp' (z := z)
  rcases le_or_gt p (low a z p' n) with habove | hbelow
  · exact (low_le hn hz hp (hle.trans hp')).trans habove
  · -- below `p` it is nearer to `p` than to `p'`
    refine low_le_of_score ha hn hz hp (hle.trans hp') ?_
    rw [← hscore]
    refine mul_le_mul_of_nonneg_left ?_ hn.le
    exact mul_self_le_mul_self (by linarith) (by linarith)

/-- **The lower end grows with the sample.** -/
theorem low_mono_sample (ha : a.Exact) (hn : 0 < n) (hz : 0 ≤ z) (hp : 0 ≤ p) (hp' : p ≤ 1) {n' : K}
    (hle : n ≤ n') : low a z p n ≤ low a z p n' := by
  have hscore := score_low ha (hn.trans_le hle) hp hp' (z := z)
  refine low_le_of_score ha hn hz hp hp' ?_
  rw [← hscore]
  exact mul_le_mul_of_nonneg_right hle (mul_self_nonneg _)

/-- The interval of the failures is the mirror image of the one of the successes. -/
theorem center_mirror (hn : 0 < n) : center z (1 - p) n = 1 - center z p n := by
  have hzz : 0 ≤ z * z := mul_self_nonneg z
  have hdenom : 1 + z * z / n ≠ 0 := by positivity
  have hn' : n ≠ 0 := hn.ne'
  rw [center, center]
  field_simp
  ring

omit [IsStrictOrderedRing K] in
theorem margin_mirror : margin a z (1 - p) n = margin a z p n := by
  rw [margin, margin, sub_sub_cancel, mul_comm (1 - p) p]

theorem low_mirror (hn : 0 < n) : low a z (1 - p) n = 1 - high a z p n := by
  rw [low, high, center_mirror hn, margin_mirror]
  ring

theorem high_mirror (hn : 0 < n) : high a z (1 - p) n = 1 - low a z p n := by
  rw [low, high, center_mirror hn, margin_mirror]
  ring

/-- **The upper end grows with the proportion**, as the lower end of the failures shrinks. -/
theorem high_mono (ha : a.Exact) (hn : 0 < n) (hz : 0 ≤ z) (hp : 0 ≤ p) {p' : K} (hle : p ≤ p')
    (hp' : p' ≤ 1) : high a z p n ≤ high a z p' n := by
  have hfailures := low_mono ha hn hz (sub_nonneg.2 hp') (sub_le_sub_left hle 1)
    (sub_le_self 1 hp)
  rw [low_mirror hn, low_mirror hn] at hfailures
  linarith

/-- The ends hold the proportion, within the unit interval. -/
theorem ends_mem (ha : a.Exact) (hn : 0 < n) (hz : 0 < z) (hp : 0 ≤ p) (hp' : p ≤ 1) :
    0 ≤ low a z p n ∧ low a z p n ≤ p ∧ p ≤ high a z p n ∧ high a z p n ≤ 1 := by
  have hq : (0 : K) ≤ 1 - p := sub_nonneg.2 hp'
  have hq' : 1 - p ≤ 1 := sub_le_self 1 hp
  have hfailures := low_le (a := a) hn hz.le hq hq'
  have hfailures' := low_nonneg ha hn hz hq hq'
  rw [low_mirror hn] at hfailures hfailures'
  exact ⟨low_nonneg ha hn hz hp hp', low_le hn hz.le hp hp', by linarith, by linarith⟩

/-! ## Real numbers -/

theorem monotone_roundTo (scale : ℝ) (hscale : 0 < scale) :
    Monotone fun x : ℝ => (round (x * scale) : ℝ) / scale := by
  intro x y hxy
  have hround : round (x * scale) ≤ round (y * scale) := by
    rw [round_eq, round_eq]
    exact Int.floor_mono (by nlinarith)
  exact div_le_div_of_nonneg_right (Int.cast_le.2 hround) hscale.le

theorem roundTo_zero (scale : ℝ) : (round (0 * scale) : ℝ) / scale = 0 := by
  rw [zero_mul, round_zero, Int.cast_zero, zero_div]

theorem tenThousandths : (round (1 * 10000 : ℝ) : ℝ) / 10000 = 1 := by
  rw [one_mul, round_ofNat]
  norm_num

theorem le_sqrt_of_mul_self_le {x y : ℝ} (_ : 0 ≤ x) (h : x * x ≤ y) : x ≤ Real.sqrt y :=
  Real.le_sqrt_of_sq_le (by rwa [sq])

theorem tenThousand_pos : (0 : ℝ) < 10000 := by norm_num

/-- The real numbers, rounded to four places. -/
noncomputable def fourPlaces : Arithmetic ℝ where
  sqrt := Real.sqrt
  round x := (round (x * 10000) : ℝ) / 10000
  le_sqrt := le_sqrt_of_mul_self_le
  monotone_round := monotone_roundTo 10000 tenThousand_pos
  round_zero := roundTo_zero 10000
  round_one := tenThousandths

/-- The square root of the real numbers. -/
theorem exact_of_sqrt {a : Arithmetic ℝ} (ha : a.sqrt = Real.sqrt) : a.Exact :=
  ⟨fun x => ha ▸ Real.sqrt_nonneg x, fun hx => ha ▸ Real.mul_self_sqrt hx⟩

end AiStudio.Data.Wilson
