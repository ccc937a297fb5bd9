import AiStudio.Runtime.Fixes

/-!
# Gates on a confidence interval

Embeds `wilson_interval` of `runtime/quality.py` at any confidence level, its bounds before they are
rounded, and the gates that look at its lower bound: `_fires` of `runtime/roles/failure_analyst.py`
and `_is_mature` of `runtime/roles/curator.py`.

- `bounds_law`: over the real numbers the bounds hold the proportion, grow with it and with the
  sample, and those of the failures are the mirror image of those of the successes.
- `gate_stays`: a gate that is open stays open.
-/

set_option autoImplicit false

namespace AiStudio.Runtime.Confidence

open AiStudio.Data.Wilson AiStudio.Runtime.Fixes

section Interval

variable {K : Type} [Field K] [LinearOrder K]

/-- `wilson_interval`, up to the rounding of its bounds. -/
def wilsonBounds (a : Arithmetic K) (z : K) (successes n : Int) : Except Exn (Option (K × K)) :=
  if n ≤ 0 then .ok none
  else if successes < 0 ∨ n < successes then
    .error (.valueError ("successes=" ++ toString successes ++ " out of range for n=" ++ toString n))
  else
    let p : K := successes / n
    .ok (some (max 0 (center z p n - margin a z p n), min 1 (center z p n + margin a z p n)))

/-- `wilson_interval`. -/
def wilsonInterval (a : Arithmetic K) (z : K) (successes n : Int) : Except Exn (Option (K × K)) :=
  (wilsonBounds a z successes n).map (Option.map fun ci => (a.round ci.1, a.round ci.2))

/-- At the confidence level of the reports, and for counts, it is the interval of their rates. -/
theorem wilsonInterval_confidence (a : Arithmetic K) (successes n : Nat) :
    wilsonInterval a confidence successes n = Runtime.wilsonInterval a successes n := by
  unfold wilsonInterval wilsonBounds Runtime.wilsonInterval
  by_cases hn : n = 0
  · rw [if_pos hn, if_pos (by omega)]
    rfl
  · rw [if_neg hn, if_neg (by omega)]
    by_cases hlt : n < successes
    · rw [if_pos hlt, if_pos (by omega)]
      rfl
    · rw [if_neg hlt, if_neg (by omega)]
      simp only [Int.cast_natCast]
      rfl

end Interval

/-! ## The bounds -/

section Bounds

variable {a : Arithmetic ℝ} {z : ℝ} {s n : ℤ}

theorem proportion_mem (hs : 0 ≤ s) (hle : s ≤ n) (hn : 0 < n) :
    0 ≤ (s : ℝ) / n ∧ (s : ℝ) / n ≤ 1 := by
  have hpos : (0 : ℝ) < n := by exact_mod_cast hn
  have hs' : (0 : ℝ) ≤ s := by exact_mod_cast hs
  have hle' : (s : ℝ) ≤ n := by exact_mod_cast hle
  exact ⟨div_nonneg hs' hpos.le, (div_le_one hpos).2 hle'⟩

/-- The bounds are the ends of the interval: the cuts take nothing away. -/
theorem wilsonBounds_eq (ha : a.Exact) (hz : 0 < z) (hs : 0 ≤ s) (hle : s ≤ n) (hn : 0 < n) :
    wilsonBounds a z s n = .ok (some (low a z (s / n) n, high a z (s / n) n)) := by
  have hpos : (0 : ℝ) < n := by exact_mod_cast hn
  obtain ⟨hp, hp'⟩ := proportion_mem hs hle hn
  obtain ⟨hnonneg, -, -, hle_one⟩ := ends_mem ha hpos hz hp hp'
  rw [low] at hnonneg
  rw [high] at hle_one
  rw [wilsonBounds, if_neg (by omega), if_neg (by omega)]
  simp only [max_eq_right hnonneg, min_eq_right hle_one]
  rfl

/-- What the bounds `lower` and `upper` of `s` successes among `n` are to keep. -/
structure BoundsLaw (a : Arithmetic ℝ) (z : ℝ) (s n : ℤ) (lower upper : ℝ) : Prop where
  nonneg : 0 ≤ lower
  lower_le : lower ≤ s / n
  le_upper : s / n ≤ upper
  upper_le : upper ≤ 1
  mirror : wilsonBounds a z (n - s) n = .ok (some (1 - upper, 1 - lower))
  mono : ∀ s', s ≤ s' → s' ≤ n → ∃ lower' upper',
    wilsonBounds a z s' n = .ok (some (lower', upper')) ∧ lower ≤ lower' ∧ upper ≤ upper'
  scale : ∀ k : ℤ, 1 ≤ k → ∃ lower' upper',
    wilsonBounds a z (k * s) (k * n) = .ok (some (lower', upper')) ∧ lower ≤ lower'

theorem bounds_law (ha : a.Exact) (hz : 0 < z) (hs : 0 ≤ s) (hle : s ≤ n) (hn : 0 < n) :
    BoundsLaw a z s n (low a z (s / n) n) (high a z (s / n) n) := by
  have hpos : (0 : ℝ) < n := by exact_mod_cast hn
  obtain ⟨hp, hp'⟩ := proportion_mem hs hle hn
  obtain ⟨hnonneg, hlower, hupper, hle_one⟩ := ends_mem ha hpos hz hp hp'
  refine ⟨hnonneg, hlower, hupper, hle_one, ?_, ?_, ?_⟩
  · have hmirror : ((n - s : ℤ) : ℝ) / n = 1 - s / n := by
      rw [Int.cast_sub, sub_div, div_self hpos.ne']
    rw [wilsonBounds_eq ha hz (by omega) (by omega) hn, hmirror, low_mirror hpos,
      high_mirror hpos]
  · intro s' hs' hle'
    obtain ⟨-, hp₁⟩ := proportion_mem (hs.trans hs') hle' hn
    have hgrows : (s : ℝ) / n ≤ s' / n := by
      refine div_le_div_of_nonneg_right ?_ hpos.le
      exact_mod_cast hs'
    exact ⟨_, _, wilsonBounds_eq ha hz (hs.trans hs') hle' hn, low_mono ha hpos hz.le hp hgrows hp₁,
      high_mono ha hpos hz.le hp hgrows hp₁⟩
  · intro k hk
    have hkpos : (0 : ℝ) < k := by exact_mod_cast hk
    have hsame : ((k * s : ℤ) : ℝ) / ((k * n : ℤ) : ℝ) = s / n := by
      rw [Int.cast_mul, Int.cast_mul, mul_div_mul_left _ _ hkpos.ne']
    have hsample : (n : ℝ) ≤ ((k * n : ℤ) : ℝ) := by
      exact_mod_cast le_mul_of_one_le_left hn.le hk
    refine ⟨_, _, wilsonBounds_eq ha hz (mul_nonneg (by omega) hs)
      (mul_le_mul_of_nonneg_left hle (by omega)) (mul_pos (by omega) hn), ?_⟩
    rw [hsame]
    exact low_mono_sample ha hpos hz.le hp hp' hsample

end Bounds

/-! ## The gates -/

section Gates

variable {K : Type} [Field K] [LinearOrder K]

/-- `_share`. -/
def share (a : Arithmetic K) (successes n : Nat) : Except Exn (RateCi K) := rateCi a successes n

/-- `_is_mature`. -/
def isMature (share : RateCi K) (floor : K) (minSample : Int) : Bool := fires share floor minSample

/-- A gate that is open for a share stays open when there are more successes, and when the sample is
multiplied. -/
def Stays (shareOf : Nat → Nat → Except Exn (RateCi K)) (isOpen : RateCi K → Bool) : Prop :=
  ∀ s n sample, shareOf s n = .ok sample → isOpen sample = true →
    (∀ s', s ≤ s' → s' ≤ n → ∃ sample', shareOf s' n = .ok sample' ∧ isOpen sample' = true) ∧
      ∀ k, 1 ≤ k → ∃ sample', shareOf (k * s) (k * n) = .ok sample' ∧ isOpen sample' = true

/-- A gate is open where the sample is large enough and the lower bound above the threshold. -/
theorem fires_rateCi_iff (a : Arithmetic K) {s n : Nat} {sample : RateCi K}
    (h : rateCi a s n = .ok sample) (threshold : K) (minSample : Int) :
    fires sample threshold minSample = true ↔
      minSample ≤ n ∧ 0 < n ∧ threshold < lower a confidence (s / n) n := by
  unfold rateCi Runtime.wilsonInterval at h
  by_cases hn : n = 0
  · rw [if_pos hn] at h
    obtain rfl := Except.ok.inj h
    simp [fires, hn]
  · rw [if_neg hn] at h
    by_cases hlt : n < s
    · rw [if_pos hlt] at h
      cases h
    · rw [if_neg hlt] at h
      obtain rfl := Except.ok.inj h
      simp [fires, Nat.pos_of_ne_zero hn]

theorem exists_rateCi (a : Arithmetic K) {s n : Nat} (hle : s ≤ n) :
    ∃ sample, rateCi a s n = .ok sample := by
  obtain ⟨-, hok⟩ | ⟨hrange, -⟩ := rateCi_cases a s n
  · exact hok
  · exact absurd (.inr hle) hrange

/-- The rounded lower bound grows as the end of the interval does. -/
theorem lower_mono {a : Arithmetic K} {z p n p' n' : K} (hle : low a z p n ≤ low a z p' n') :
    lower a z p n ≤ lower a z p' n' :=
  a.monotone_round (max_le_max le_rfl hle)

variable [IsStrictOrderedRing K]

/-- **An open gate stays open.** -/
theorem gate_stays {a : Arithmetic K} (ha : a.Exact) (threshold : K) (minSample : Int) :
    Stays (rateCi a) fun sample => fires sample threshold minSample := by
  intro s n sample hsample hopen
  obtain ⟨hmin, hn, hlower⟩ := (fires_rateCi_iff a hsample threshold minSample).1 hopen
  have hle : s ≤ n := by
    obtain ⟨hrange, -⟩ | ⟨-, e, herror⟩ := rateCi_cases a s n
    · omega
    · rw [hsample] at herror
      cases herror
  have hpos : (0 : K) < n := by exact_mod_cast hn
  have hz : (0 : K) ≤ confidence := by
    rw [confidence]
    positivity
  have hp : (0 : K) ≤ s / n := by positivity
  constructor
  · intro s' hs' hle'
    obtain ⟨sample', hsample'⟩ := exists_rateCi a hle'
    refine ⟨sample', hsample', (fires_rateCi_iff a hsample' threshold minSample).2
      ⟨hmin, hn, hlower.trans_le (lower_mono ?_)⟩⟩
    have hgrows : (s : K) / n ≤ s' / n := by
      refine div_le_div_of_nonneg_right ?_ hpos.le
      exact_mod_cast hs'
    refine low_mono ha hpos hz hp hgrows ((div_le_one hpos).2 ?_)
    exact_mod_cast hle'
  · intro k hk
    obtain ⟨sample', hsample'⟩ := exists_rateCi a (Nat.mul_le_mul_left k hle)
    have hsize : n ≤ k * n := Nat.le_mul_of_pos_left n hk
    refine ⟨sample', hsample', (fires_rateCi_iff a hsample' threshold minSample).2
      ⟨hmin.trans (by exact_mod_cast hsize), hn.trans_le hsize,
        hlower.trans_le (lower_mono ?_)⟩⟩
    have hkpos : (0 : K) < k := by exact_mod_cast hk
    have hsame : ((k * s : Nat) : K) / ((k * n : Nat) : K) = s / n := by
      rw [Nat.cast_mul, Nat.cast_mul, mul_div_mul_left _ _ hkpos.ne']
    rw [hsame]
    refine low_mono_sample ha hpos hz hp ((div_le_one hpos).2 ?_) ?_
    · exact_mod_cast hle
    · exact_mod_cast hsize

end Gates

/-- **The Wilson gate is sound and monotone**, over the real numbers and for any rounding that keeps
the order. -/
theorem wilson_gate {a : Arithmetic ℝ} (ha : a.sqrt = Real.sqrt) :
    (∀ (z : ℝ) (s n : ℤ), 0 < z → 0 ≤ s → s ≤ n → 0 < n → ∃ lower upper,
      wilsonBounds a z s n = .ok (some (lower, upper)) ∧ BoundsLaw a z s n lower upper) ∧
    (∀ threshold minSample, Stays (rateCi a) fun sample => fires sample threshold minSample) ∧
    ∀ floor minSample, Stays (share a) fun sample => isMature sample floor minSample := by
  have hexact := exact_of_sqrt ha
  refine ⟨?_, gate_stays hexact, gate_stays hexact⟩
  intro z s n hz hs hle hn
  exact ⟨_, _, wilsonBounds_eq hexact hz hs hle hn, bounds_law hexact hz hs hle hn⟩

theorem wilson_gate_fourPlaces :
    fourPlaces.sqrt = Real.sqrt ∧ ∃ lower upper,
      wilsonBounds fourPlaces 2 5 5 = .ok (some (lower, upper)) ∧
        BoundsLaw fourPlaces 2 5 5 lower upper :=
  ⟨rfl, (wilson_gate (a := fourPlaces) rfl).1 2 5 5 (by norm_num) (by norm_num) le_rfl
    (by norm_num)⟩

end AiStudio.Runtime.Confidence
