import AiStudio.Data.TokenBucket
import AiStudio.Gateway.Auth

/-!
# The rate limit

Every identity has a token bucket of its own in the limiter of `gateway/auth.py`, and `_gate` of
`gateway/app.py` turns the wait of a refusal into a whole number of seconds for its header.

- `RateLimiter.admitted_le`: what an identity is admitted in a stretch of time, and that the
  requests of the others have no part in it.
- `RateLimiter.retry_suffices_iff`: when a client that waits as the header says is admitted.
-/

set_option autoImplicit false

namespace AiStudio.Gateway

open AiStudio.Data

/-! ## Rounding -/

section Rounding

variable {x : ℚ} {n : ℤ}

theorem roundHalfEven_le (x : ℚ) : (roundHalfEven x : ℚ) ≤ x + 1 / 2 := by
  have hfloor := Int.floor_le x
  unfold roundHalfEven
  simp only
  split_ifs <;> push_cast <;> linarith

theorem le_roundHalfEven (x : ℚ) : x - 1 / 2 ≤ roundHalfEven x := by
  have hfloor := Int.lt_floor_add_one x
  unfold roundHalfEven
  simp only
  split_ifs <;> push_cast <;> linarith

/-- Half below an even number, the number is the neighbour. -/
theorem roundHalfEven_half (hn : n % 2 = 0) : roundHalfEven (n - 1 / 2) = n := by
  have hfloor : ⌊(n - 1 / 2 : ℚ)⌋ = n - 1 := by
    rw [Int.floor_eq_iff]
    push_cast
    constructor <;> linarith
  unfold roundHalfEven
  simp only [hfloor]
  have hodd : (n - 1) % 2 ≠ 0 := by omega
  push_cast
  rw [if_neg (by linarith), if_neg (by linarith), if_neg hodd]
  ring

/-- What is at most half below an even number rounds no lower. -/
theorem even_le_roundHalfEven (hn : n % 2 = 0) (hx : n - 1 / 2 ≤ x) : n ≤ roundHalfEven x := by
  rcases hx.eq_or_lt with rfl | hlt
  · exact (roundHalfEven_half hn).ge
  · have hround := le_roundHalfEven x
    have hcast : ((n - 1 : ℤ) : ℚ) < roundHalfEven x := by
      push_cast
      linarith
    have hint : n - 1 < roundHalfEven x := by exact_mod_cast hcast
    omega

/-- A wait in thousandths, cut to whole seconds, is long enough for what is at most a second, and
for what is at most half a thousandth short of a whole number of seconds. -/
theorem le_floor_round_iff (x : ℚ) :
    x ≤ ⌊max 1 (roundHalfEven (x * 1000) / 1000 : ℚ)⌋ ↔ x ≤ 1 ∨ ⌈x⌉ - x ≤ 1 / 2000 := by
  constructor
  · intro hfloor
    by_contra! hshort
    have hceil : (⌈x⌉ : ℚ) ≤ ⌊max 1 (roundHalfEven (x * 1000) / 1000 : ℚ)⌋ := by
      exact_mod_cast Int.ceil_le.2 hfloor
    have hround := roundHalfEven_le (x * 1000)
    rcases le_max_iff.1 (Int.floor_le (max 1 (roundHalfEven (x * 1000) / 1000 : ℚ))) with hle | hle
    · linarith
    · linarith
  · rintro (hx | hx)
    · refine hx.trans ?_
      exact_mod_cast Int.le_floor.2 (le_max_left 1 _)
    · -- A thousand times a whole number of seconds is even, so the tie goes up.
      have hround : 1000 * ⌈x⌉ ≤ roundHalfEven (x * 1000) := by
        refine even_le_roundHalfEven (by omega) ?_
        push_cast
        linarith
      have hcast : (⌈x⌉ : ℚ) ≤ roundHalfEven (x * 1000) / 1000 := by
        rw [le_div_iff₀ (by norm_num), mul_comm]
        exact_mod_cast hround
      refine (Int.le_ceil x).trans ?_
      exact_mod_cast Int.le_floor.2 (hcast.trans (le_max_right _ _))

end Rounding

/-! ## The headers of a refusal -/

/-- `int(x)`: towards zero. -/
def truncated (x : ℚ) : ℤ := if 0 ≤ x then ⌊x⌋ else ⌈x⌉

/-- The headers `_gate` adds to a refusal. -/
def Denied.headers (denied : Denied) : List (String × String) :=
  denied.retryAfter.elim [] fun wait => [("Retry-After", toString (truncated wait))]

/-- The refusal of an identity that has to wait. -/
def rateLimited (identity : String) (wait : ℚ) : Denied where
  status := 429
  reason := "rate_limited"
  identity := some identity
  retryAfter := some wait

theorem Decision.outcome_limited {a : AuthArgs} {registry : TokenRegistry}
    {digest : String → String} (token : Token) (wait : ℚ)
    (h : registry.identify digest a.authorization = .ok token) :
    (Decision.limited token wait h).outcome = .error (rateLimited token.identity wait) := rfl

namespace RateLimiter

/-! ## The bucket of an identity -/

variable (limiter : RateLimiter)

/-- The bucket of each identity. -/
def bucket : TokenBucket ℚ := ⟨limiter.burst, limiter.ratePerS⟩

theorem units_eq (identity : String) (now : ℚ) :
    limiter.units identity now = limiter.bucket.level (limiter.buckets identity) now := rfl

theorem working_new (ratePerMin burst : Int) : (new ratePerMin burst).bucket.Working where
  one_le := by
    change (1 : ℚ) ≤ (max 1 burst : Int)
    exact_mod_cast le_max_left 1 burst
  rate_nonneg := le_max_left 0 _

/-- The seconds a bucket with so many units has to wait. -/
def waitFor (units : ℚ) : ℚ :=
  if limiter.ratePerS ≤ 0 then 60
  else max 1 (roundHalfEven ((1 - units) / limiter.ratePerS * 1000) / 1000 : ℚ)

/-- The limiter with what is left in the bucket of an identity. -/
def settle (identity : String) (left now : ℚ) : RateLimiter :=
  { limiter with buckets := Function.update limiter.buckets identity (some (left, now)) }

@[simp] theorem bucket_settle (identity : String) (left now : ℚ) :
    (limiter.settle identity left now).bucket = limiter.bucket := rfl

@[simp] theorem buckets_settle (identity : String) (left now : ℚ) :
    (limiter.settle identity left now).buckets identity = some (left, now) :=
  Function.update_self _ _ _

theorem buckets_settle_of_ne {identity other : String} (left now : ℚ) (h : other ≠ identity) :
    (limiter.settle identity left now).buckets other = limiter.buckets other :=
  Function.update_of_ne h _ _

section Check

variable {limiter} {identity other : String} {now : ℚ}

theorem check_of_lt (h : limiter.units identity now < 1) : limiter.check identity now =
    (some (limiter.waitFor (limiter.units identity now)),
      limiter.settle identity (limiter.units identity now) now) := if_pos h

theorem check_of_le (h : 1 ≤ limiter.units identity now) : limiter.check identity now =
    (none, limiter.settle identity (limiter.units identity now - 1) now) := if_neg (not_lt.2 h)

/-- A check is a request to the bucket of its identity. -/
theorem check_eq (limiter : RateLimiter) (identity : String) (now : ℚ) :
    (limiter.check identity now).1.isNone =
        (limiter.bucket.request (limiter.buckets identity) now).1 ∧
      (limiter.check identity now).2.buckets identity =
        (limiter.bucket.request (limiter.buckets identity) now).2 := by
  have hunits := units_eq limiter identity now
  rcases lt_or_ge (limiter.units identity now) 1 with hlt | hle
  · rw [check_of_lt hlt, buckets_settle, TokenBucket.request_of_lt (hunits ▸ hlt), hunits]
    exact ⟨rfl, rfl⟩
  · rw [check_of_le hle, buckets_settle, TokenBucket.request_of_le (hunits ▸ hle), hunits]
    exact ⟨rfl, rfl⟩

/-- A check leaves the buckets of the others, and no bucket gets another capacity or rate. -/
theorem check_snd (limiter : RateLimiter) (identity : String) (now : ℚ) :
    (limiter.check identity now).2.bucket = limiter.bucket ∧
      ∀ other, other ≠ identity →
        (limiter.check identity now).2.buckets other = limiter.buckets other := by
  rcases lt_or_ge (limiter.units identity now) 1 with hlt | hle
  · rw [check_of_lt hlt]
    exact ⟨rfl, fun other h => limiter.buckets_settle_of_ne _ _ h⟩
  · rw [check_of_le hle]
    exact ⟨rfl, fun other h => limiter.buckets_settle_of_ne _ _ h⟩

end Check

/-! ## Requests one after the other -/

/-- A request: who makes it, and the clock reading. -/
abbrev Call := String × ℚ

/-- The requests with what `check` returns for each. -/
def answers (limiter : RateLimiter) : List Call → List (Call × Option ℚ)
  | [] => []
  | call :: calls =>
      (call, (limiter.check call.1 call.2).1) :: (limiter.check call.1 call.2).2.answers calls

/-- The limiter after the requests. -/
def after (limiter : RateLimiter) (calls : List Call) : RateLimiter :=
  calls.foldl (fun limiter call => (limiter.check call.1 call.2).2) limiter

/-- Two limiters treat an identity alike: the bucket is the same, and how it is settled. -/
def Alike (identity : String) (limiter limiter' : RateLimiter) : Prop :=
  limiter.bucket = limiter'.bucket ∧ limiter.buckets identity = limiter'.buckets identity

section Alike

variable {limiter limiter' : RateLimiter} {identity other : String} {now : ℚ}

/-- A check of another identity makes no difference. -/
theorem Alike.check_other (h : Alike identity limiter limiter') (hne : other ≠ identity) :
    Alike identity (limiter.check other now).2 limiter' :=
  ⟨(check_snd limiter other now).1.trans h.1,
    ((check_snd limiter other now).2 identity hne.symm).trans h.2⟩

/-- Alike limiters give the same answer, and stay alike. -/
theorem Alike.check_self (h : Alike identity limiter limiter') (now : ℚ) :
    (limiter.check identity now).1 = (limiter'.check identity now).1 ∧
      Alike identity (limiter.check identity now).2 (limiter'.check identity now).2 := by
  have hunits : limiter.units identity now = limiter'.units identity now := by
    rw [units_eq, units_eq, h.1, h.2]
  have hrate : limiter.ratePerS = limiter'.ratePerS := congrArg TokenBucket.rate h.1
  constructor
  · rcases lt_or_ge (limiter.units identity now) 1 with hlt | hle
    · rw [check_of_lt hlt, check_of_lt (hunits ▸ hlt), hunits, waitFor, waitFor, hrate]
    · rw [check_of_le hle, check_of_le (hunits ▸ hle)]
  · refine ⟨?_, ?_⟩
    · rw [(check_snd limiter identity now).1, (check_snd limiter' identity now).1, h.1]
    · rw [(check_eq limiter identity now).2, (check_eq limiter' identity now).2, h.1, h.2]

/-- Requests of the others make no difference. -/
theorem Alike.after_others {calls : List Call} (h : Alike identity limiter limiter')
    (hothers : ∀ call ∈ calls, call.1 ≠ identity) :
    Alike identity (limiter.after calls) limiter' := by
  induction calls generalizing limiter with
  | nil => exact h
  | cons call calls ih =>
      obtain ⟨hhead, htail⟩ := List.forall_mem_cons.1 hothers
      exact ih (h.check_other hhead) htail

/-- What an identity is told is what it would be told alone. -/
theorem Alike.answers_filter (h : Alike identity limiter limiter') (calls : List Call) :
    (limiter.answers calls).filter (fun a => a.1.1 = identity) =
      limiter'.answers (calls.filter fun call => call.1 = identity) := by
  induction calls generalizing limiter limiter' with
  | nil => rfl
  | cons call calls ih =>
      by_cases hcall : call.1 = identity
      · obtain ⟨caller, now⟩ := call
        obtain rfl : caller = identity := hcall
        obtain ⟨hanswer, hnext⟩ := h.check_self now
        simp only [answers, List.filter_cons, decide_true, if_true, hanswer]
        rw [ih hnext]
      · simp only [answers, List.filter_cons, hcall, decide_false, Bool.false_eq_true, if_false]
        exact ih (h.check_other hcall)

end Alike

/-! ## What a stretch of time admits -/

/-- How many requests of an identity were admitted between two times. -/
def admittedIn (answered : List (Call × Option ℚ)) (identity : String) (start finish : ℚ) : ℕ :=
  answered.countP fun a =>
    a.1.1 = identity ∧ start ≤ a.1.2 ∧ a.1.2 ≤ finish ∧ a.2 = none

/-- The requests of one identity are served by its bucket. -/
theorem serve_answers {identity : String} {calls : List Call}
    (hcalls : ∀ call ∈ calls, call.1 = identity) :
    (limiter.answers calls).map (fun a => (a.1.2, a.2.isNone)) =
      limiter.bucket.serve (limiter.buckets identity) (calls.map Prod.snd) := by
  induction calls generalizing limiter with
  | nil => rfl
  | cons call calls ih =>
      obtain ⟨caller, now⟩ := call
      obtain ⟨rfl, htail⟩ := List.forall_mem_cons.1 hcalls
      obtain ⟨hanswer, hsettled⟩ := check_eq limiter caller now
      rw [answers, List.map_cons, ih _ htail, List.map_cons, TokenBucket.serve_cons, hanswer,
        hsettled, (check_snd limiter caller now).1]

/-- The requests of an identity, counted in its bucket. -/
theorem admittedIn_eq (answered : List (Call × Option ℚ)) (identity : String) (start finish : ℚ) :
    admittedIn answered identity start finish =
      TokenBucket.admitted ((answered.filter fun a => a.1.1 = identity).map
        fun a => (a.1.2, a.2.isNone)) start finish := by
  rw [TokenBucket.admitted, List.countP_map, List.countP_filter, admittedIn]
  refine List.countP_congr fun a _ => ?_
  simp [and_comm]

/-- **The rate of an identity**: whatever the requests before and beside them, a stretch of time
admits no more of its requests than the burst and the rate over that time, and what it is told it
would be told alone. -/
theorem admitted_le (ratePerMin burst : Int) (calls : List Call)
    (hclock : calls.Pairwise fun earlier later => earlier.2 ≤ later.2) :
    (∀ identity start duration, 0 ≤ duration →
      (admittedIn ((new ratePerMin burst).answers calls) identity start (start + duration) : ℚ) ≤
        (new ratePerMin burst).burst + (new ratePerMin burst).ratePerS * duration) ∧
    ∀ identity, ((new ratePerMin burst).answers calls).filter (fun a => a.1.1 = identity) =
      (new ratePerMin burst).answers (calls.filter fun call => call.1 = identity) := by
  have halone : ∀ identity, ((new ratePerMin burst).answers calls).filter
      (fun a => a.1.1 = identity) =
        (new ratePerMin burst).answers (calls.filter fun call => call.1 = identity) :=
    fun identity => Alike.answers_filter ⟨rfl, rfl⟩ calls
  refine ⟨fun identity start duration hduration => ?_, halone⟩
  have hsorted : ((calls.filter fun call => call.1 = identity).map Prod.snd).Pairwise (· ≤ ·) :=
    List.pairwise_map.2 (hclock.sublist List.filter_sublist)
  have hcalls : ∀ call ∈ calls.filter (fun call => call.1 = identity), call.1 = identity := by
    intro call hmem
    simpa using (List.mem_filter.1 hmem).2
  have hfull : ∀ time ∈ ((calls.filter fun call => call.1 = identity).map Prod.snd).head?,
      TokenBucket.Sound (none : Option (ℚ × ℚ)) time := by
    intro time _ p hp
    cases hp
  have hbound := TokenBucket.admitted_le_refilled (working_new ratePerMin burst) hfull hsorted
    (le_add_of_nonneg_right hduration : start ≤ start + duration)
  rw [admittedIn_eq, halone, serve_answers _ hcalls]
  rw [add_sub_cancel_left, mul_comm] at hbound
  exact hbound

/-- Two requests at once of one identity and one of another, at one a minute: the first and the
third are admitted. -/
theorem admitted_le_oneAMinute :
    (admittedIn ((new 1 1).answers [("client", 0), ("client", 0), ("other", 1)]) "client" 0 (0 + 30) : ℚ) ≤
        (new 1 1).burst + (new 1 1).ratePerS * 30 :=
  (admitted_le 1 1 [("client", 0), ("client", 0), ("other", 1)] (by decide)).1 "client" 0 30
    (by norm_num)

/-! ## Waiting as the header says -/

/-- The seconds until the bucket of an identity has a unit. -/
def shortfall (identity : String) (now : ℚ) : ℚ :=
  (1 - limiter.units identity now) / limiter.ratePerS

/-- A refused client that waits the seconds of the header is admitted on its next request, when
meanwhile these requests were made. -/
def RetrySuffices (identity : String) (now : ℚ) (others : List Call) : Prop :=
  ∀ wait header seconds, (limiter.check identity now).1 = some wait →
    ("Retry-After", header) ∈ (rateLimited identity wait).headers →
    header.toInt? = some seconds →
    (((limiter.check identity now).2.after others).check identity (now + seconds)).1 = none

theorem waitFor_nonneg (units : ℚ) : 0 ≤ limiter.waitFor units := by
  unfold waitFor
  split
  · norm_num
  · exact zero_le_one.trans (le_max_left _ _)

/-- The header holds the whole seconds of the wait. -/
theorem header_iff (identity : String) {wait : ℚ} (hwait : 0 ≤ wait) {seconds : ℤ} :
    (∃ header, ("Retry-After", header) ∈ (rateLimited identity wait).headers ∧
      header.toInt? = some seconds) ↔ seconds = ⌊wait⌋ := by
  simp [Denied.headers, rateLimited, truncated, hwait, Int.toString_eq_repr, eq_comm]

/-- A bucket settled below one unit has one when the gain makes up for the rest. -/
theorem check_settle_iff (hburst : 1 ≤ limiter.burst) (identity : String) (units now : ℚ)
    (seconds : ℤ) :
    ((limiter.settle identity units now).check identity (now + seconds)).1 = none ↔
      1 ≤ units + seconds * limiter.ratePerS := by
  rw [check_eq_none_iff, permits, units_eq, buckets_settle, bucket_settle]
  simp [TokenBucket.level, bucket, hburst]

variable {limiter} {identity : String} {now : ℚ}

/-- The wait of a refused client is long enough: the seconds of the header bring a unit. -/
theorem retrySuffices_iff_units (hburst : 1 ≤ limiter.burst)
    (hrefused : limiter.units identity now < 1) {others : List Call}
    (hothers : ∀ call ∈ others, call.1 ≠ identity) :
    limiter.RetrySuffices identity now others ↔ 1 ≤ limiter.units identity now +
      ⌊limiter.waitFor (limiter.units identity now)⌋ * limiter.ratePerS := by
  have hcheck := check_of_lt hrefused
  have hwait := limiter.waitFor_nonneg (limiter.units identity now)
  rw [← limiter.check_settle_iff hburst identity (limiter.units identity now) now]
  -- What the others asked meanwhile makes no difference.
  have halike : ∀ seconds : ℤ,
      (((limiter.check identity now).2.after others).check identity (now + seconds)).1 =
        ((limiter.settle identity (limiter.units identity now) now).check identity
          (now + seconds)).1 := by
    intro seconds
    rw [hcheck]
    exact ((Alike.after_others ⟨rfl, rfl⟩ hothers).check_self _).1
  constructor
  · intro h
    obtain ⟨header, hmem, hheader⟩ := (header_iff identity hwait).2 rfl
    rw [← halike]
    exact h _ header _ (congrArg Prod.fst hcheck) hmem hheader
  · intro h wait header seconds hsome hmem hheader
    obtain rfl : limiter.waitFor (limiter.units identity now) = wait := by
      rw [hcheck] at hsome
      exact Option.some.inj hsome
    rw [halike, (header_iff identity hwait).1 ⟨header, hmem, hheader⟩]
    exact h

/-- **Waiting as the header says** is enough exactly when the bucket fills at all and the time it
needs is at most a second, or at most half a thousandth short of a whole number of seconds: the
wait is rounded to thousandths and cut to whole seconds. -/
theorem retry_suffices_iff (ratePerMin burst : Int) (limiter : RateLimiter)
    (hlimiter : limiter.bucket = (new ratePerMin burst).bucket) (identity : String) (now : ℚ)
    (others : List Call) (hrefused : (limiter.check identity now).1 ≠ none)
    (hothers : ∀ call ∈ others, call.1 ≠ identity) :
    limiter.RetrySuffices identity now others ↔
      0 < limiter.ratePerS ∧ (limiter.shortfall identity now ≤ 1 ∨
        ⌈limiter.shortfall identity now⌉ - limiter.shortfall identity now ≤ 1 / 2000) := by
  have hworking : limiter.bucket.Working := hlimiter ▸ working_new ratePerMin burst
  have hburst : 1 ≤ limiter.burst := hworking.one_le
  have hrate : 0 ≤ limiter.ratePerS := hworking.rate_nonneg
  have hunits : limiter.units identity now < 1 := by
    by_contra hle
    rw [check_of_le (not_lt.1 hle)] at hrefused
    exact hrefused rfl
  rw [retrySuffices_iff_units hburst hunits hothers]
  rcases hrate.eq_or_lt with hzero | hpos
  · simp [← hzero, hunits]
  · rw [waitFor, if_neg (not_le.2 hpos), ← shortfall, ← le_floor_round_iff, and_iff_right hpos,
      shortfall, div_le_iff₀ hpos, sub_le_iff_le_add']

/-- Forty a minute, and a burst of one. -/
def fortyAMinute : RateLimiter := new 40 1

theorem wait_fortyAMinute :
    ((fortyAMinute.check "client" 0).2.check "client" 0).1 = some (3 / 2) := by
  decide +kernel

/-- Forty a minute, after two requests at once: the second has to wait one second and a half, and
is told to wait one. -/
theorem retry_too_early :
    ¬ (fortyAMinute.check "client" 0).2.RetrySuffices "client" 0 [] := by
  intro h
  have hcut : truncated (3 / 2) = 1 := by decide +kernel
  have hheader : (toString (truncated (3 / 2))).toInt? = some 1 := by
    rw [hcut]
    exact Int.toInt?_repr 1
  have hadmitted := h (3 / 2) _ 1 wait_fortyAMinute (List.mem_singleton.2 rfl) hheader
  revert hadmitted
  decide +kernel

/-- At one a second the client is admitted after the second it is told. -/
theorem retry_suffices_oneASecond :
    ((new 60 1).check "client" 0).2.RetrySuffices "client" 0 [("other", 0)] :=
  (retry_suffices_iff 60 1 _ (check_snd _ _ _).1 "client" 0 [("other", 0)] (by decide +kernel)
    (by decide)).2 ⟨by decide +kernel, .inl (by decide +kernel)⟩

end RateLimiter

end AiStudio.Gateway
