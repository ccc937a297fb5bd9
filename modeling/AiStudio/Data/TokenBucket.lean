import Mathlib.Algebra.Order.Field.Basic
import Mathlib.Data.Nat.Cast.Order.Ring
import Mathlib.Tactic.GCongr
import Mathlib.Tactic.Linarith
import Mathlib.Tactic.Ring

/-!
# Token buckets

A bucket holds up to `capacity` tokens and gains `rate` of them in a unit of time; a request
takes one when one is left. The bucket is settled only at a request: it keeps the tokens that
were left then and the time, and the gain since is added when the next request comes.

- `admitted_le_refilled`: in a stretch of time no more requests are admitted than the bucket holds and
  gains in it, whatever came before the stretch.
-/

set_option autoImplicit false

namespace AiStudio.Data

universe u

/-- What a bucket holds, and what it gains in a unit of time. -/
structure TokenBucket (K : Type u) where
  capacity : K
  rate : K

namespace TokenBucket

variable {K : Type u} [Field K] [LinearOrder K] (b : TokenBucket K)

/-- The tokens at a time; a bucket is full at its first request. -/
def level (settled : Option (K × K)) (now : K) : K :=
  min b.capacity ((settled.getD (b.capacity, now)).1 +
    (now - (settled.getD (b.capacity, now)).2) * b.rate)

/-- A request: whether it took a token, and how the bucket is settled. -/
def request (settled : Option (K × K)) (now : K) : Bool × Option (K × K) :=
  if b.level settled now < 1 then (false, some (b.level settled now, now))
  else (true, some (b.level settled now - 1, now))

/-- The requests at a list of times, with what each was told. -/
def serve (settled : Option (K × K)) : List K → List (K × Bool)
  | [] => []
  | now :: times => (now, (b.request settled now).1) :: serve (b.request settled now).2 times

/-- How many requests were admitted between two times. -/
def admitted (log : List (K × Bool)) (start finish : K) : ℕ :=
  log.countP fun served => start ≤ served.1 ∧ served.1 ≤ finish ∧ served.2

variable {b} {settled : Option (K × K)} {now later start finish : K} {times : List K}

@[simp] theorem serve_nil : b.serve settled [] = [] := rfl

@[simp] theorem serve_cons : b.serve settled (now :: times) =
    (now, (b.request settled now).1) :: b.serve (b.request settled now).2 times := rfl

/-- Each time of the list is served once, in the order of the list. -/
theorem map_fst_serve (settled : Option (K × K)) (times : List K) :
    (b.serve settled times).map Prod.fst = times := by
  induction times generalizing settled with
  | nil => rfl
  | cons now times ih => simp [ih]

theorem request_of_lt (h : b.level settled now < 1) :
    b.request settled now = (false, some (b.level settled now, now)) := if_pos h

theorem request_of_le (h : 1 ≤ b.level settled now) :
    b.request settled now = (true, some (b.level settled now - 1, now)) := if_neg (not_lt.2 h)

/-- A request is admitted when a token is there. -/
theorem request_iff : (b.request settled now).1 = true ↔ 1 ≤ b.level settled now := by
  rcases lt_or_ge (b.level settled now) 1 with hlt | hle
  · simp [request_of_lt hlt, hlt]
  · simp [request_of_le hle, hle]

theorem level_le_capacity : b.level settled now ≤ b.capacity := min_le_left _ _

theorem level_some_le {tokens since : K} :
    b.level (some (tokens, since)) now ≤ tokens + (now - since) * b.rate := min_le_right _ _

omit [Field K] in
@[simp] theorem admitted_nil : admitted ([] : List (K × Bool)) start finish = 0 := rfl

/-- The tokens a request takes. -/
def cost (b : TokenBucket K) (settled : Option (K × K)) (now : K) : ℕ :=
  (b.request settled now).1.toNat

/-- A request leaves what it did not take, and the time passes on. -/
theorem request_snd : (b.request settled now).2 =
    some (b.level settled now - b.cost settled now, now) := by
  rcases lt_or_ge (b.level settled now) 1 with hlt | hle
  · simp [cost, request_of_lt hlt]
  · simp [cost, request_of_le hle]

/-- A request adds at most what it takes to the count of the admitted. -/
theorem admitted_cons_le : admitted (b.serve settled (now :: times)) start finish ≤
    admitted (b.serve (b.request settled now).2 times) start finish + b.cost settled now := by
  rw [serve_cons, admitted, List.countP_cons, ← admitted]
  refine Nat.add_le_add_left ?_ _
  cases hok : (b.request settled now).1 <;> simp [cost, hok]
  split <;> decide

/-- A request before the stretch is not counted. -/
theorem admitted_cons_of_lt (h : now < start) :
    admitted (b.serve settled (now :: times)) start finish =
      admitted (b.serve (b.request settled now).2 times) start finish := by
  rw [serve_cons, admitted, List.countP_cons, ← admitted]
  simp [not_le.2 h]

omit [Field K] in
/-- When the first of a sorted list is late, all are. -/
theorem after_sorted (hsorted : (now :: times).Pairwise (· ≤ ·)) (hlate : finish < now) :
    ∀ time ∈ now :: times, finish < time := by
  intro time htime
  rcases List.mem_cons.1 htime with rfl | htime
  · exact hlate
  · exact hlate.trans_le ((List.pairwise_cons.1 hsorted).1 time htime)

/-- No request after the stretch is counted. -/
theorem admitted_eq_zero (h : ∀ time ∈ times, finish < time) :
    admitted (b.serve settled times) start finish = 0 := by
  refine List.countP_eq_zero.2 fun served hmem => ?_
  have htime : served.1 ∈ times := by
    rw [← map_fst_serve settled times]
    exact List.mem_map_of_mem hmem
  simp [not_le.2 (h _ htime)]

/-! ## What a stretch of time admits -/

/-- The capacity admits one request, and the bucket never leaks. -/
structure Working (b : TokenBucket K) : Prop where
  one_le : 1 ≤ b.capacity
  rate_nonneg : 0 ≤ b.rate

/-- A settled bucket is in no debt, and was settled in the past. -/
def Sound (settled : Option (K × K)) (now : K) : Prop :=
  ∀ p ∈ settled, 0 ≤ p.1 ∧ p.2 ≤ now

section Bounds

variable [IsStrictOrderedRing K]

theorem level_nonneg (hb : b.Working) (hs : Sound settled now) : 0 ≤ b.level settled now := by
  have hcapacity : 0 ≤ b.capacity := zero_le_one.trans hb.one_le
  refine le_min hcapacity ?_
  cases settled with
  | none => simpa using hcapacity
  | some p =>
      obtain ⟨htokens, hsince⟩ := hs p rfl
      exact add_nonneg htokens (mul_nonneg (sub_nonneg.2 hsince) hb.rate_nonneg)

/-- A request takes no more than is there. -/
theorem cost_le_level (hb : b.Working) (hs : Sound settled now) :
    (b.cost settled now : K) ≤ b.level settled now := by
  rcases lt_or_ge (b.level settled now) 1 with hlt | hle
  · simpa [cost, request_of_lt hlt] using level_nonneg hb hs
  · simpa [cost, request_of_le hle] using hle

/-- A request leaves a sound bucket. -/
theorem sound_request (hb : b.Working) (hs : Sound settled now) (hlater : now ≤ later) :
    Sound (b.request settled now).2 later := by
  intro p hp
  rw [request_snd] at hp
  cases hp
  exact ⟨sub_nonneg.2 (cost_le_level hb hs), hlater⟩

/-- **The step of the count**: what a request takes and what is there at the next come from the
tokens before it and the gain in between. -/
theorem cost_add_level_le (b : TokenBucket K) (settled : Option (K × K)) (now later : K) :
    b.cost settled now + b.level (b.request settled now).2 later ≤
    b.level settled now + (later - now) * b.rate := by
  have hlevel : b.level (b.request settled now).2 later ≤
      b.level settled now - b.cost settled now + (later - now) * b.rate := by
    rw [request_snd]
    exact level_some_le
  linarith

theorem admitted_cons_cast_le (b : TokenBucket K) (settled : Option (K × K)) (now : K)
    (times : List K) (start finish : K) :
    (admitted (b.serve settled (now :: times)) start finish : K) ≤
      admitted (b.serve (b.request settled now).2 times) start finish + b.cost settled now := by
  rw [← Nat.cast_add]
  exact Nat.cast_le.2 admitted_cons_le

/-- From a first request on, no more are admitted than its tokens and the gain since. -/
theorem admitted_le_level (hb : b.Working) (hs : Sound settled now)
    (hsorted : (now :: times).Pairwise (· ≤ ·)) (hfinish : now ≤ finish) :
    (admitted (b.serve settled (now :: times)) start finish : K) ≤
      b.level settled now + (finish - now) * b.rate := by
  induction times generalizing settled now with
  | nil =>
      have hhead := admitted_cons_cast_le b settled now [] start finish
      rw [serve_nil, admitted_nil, Nat.cast_zero, zero_add] at hhead
      have hgain := mul_nonneg (sub_nonneg.2 hfinish) hb.rate_nonneg
      linarith [cost_le_level hb hs]
  | cons next times ih =>
      obtain ⟨hfirst, hrest⟩ := List.pairwise_cons.1 hsorted
      have hnow : now ≤ next := hfirst next List.mem_cons_self
      have hhead := admitted_cons_cast_le b settled now (next :: times) start finish
      rcases le_or_gt next finish with hnext | hlate
      · have hlater := ih (sound_request hb hs hnow) hrest hnext
        have hstep := cost_add_level_le b settled now next
        calc (admitted (b.serve settled (now :: next :: times)) start finish : K)
            ≤ b.level (b.request settled now).2 next + (finish - next) * b.rate +
                b.cost settled now := hhead.trans (by gcongr)
          _ ≤ b.level settled now + (next - now) * b.rate + (finish - next) * b.rate := by linarith
          _ = b.level settled now + (finish - now) * b.rate := by ring
      · rw [admitted_eq_zero (after_sorted hrest hlate), Nat.cast_zero, zero_add] at hhead
        have hgain := mul_nonneg (sub_nonneg.2 hfinish) hb.rate_nonneg
        linarith [cost_le_level hb hs]

/-- **The bound of a bucket**: a stretch of time admits no more requests than the bucket holds and
gains in it, at whatever requests came before. -/
theorem admitted_le_refilled (hb : b.Working) (hs : ∀ time ∈ times.head?, Sound settled time)
    (hsorted : times.Pairwise (· ≤ ·)) (hstretch : start ≤ finish) :
    (admitted (b.serve settled times) start finish : K) ≤
      b.capacity + (finish - start) * b.rate := by
  have hgain := mul_nonneg (sub_nonneg.2 hstretch) hb.rate_nonneg
  have hcapacity : 0 ≤ b.capacity := zero_le_one.trans hb.one_le
  induction times generalizing settled with
  | nil => simpa using add_nonneg hcapacity hgain
  | cons now times ih =>
      obtain ⟨hfirst, hrest⟩ := List.pairwise_cons.1 hsorted
      rcases lt_or_ge now start with hbefore | hstart
      · -- The stretch has not begun: the request only settles the bucket.
        rw [admitted_cons_of_lt hbefore]
        exact ih (fun time htime => sound_request hb (hs now rfl)
          (hfirst time (List.mem_of_mem_head? htime))) hrest
      · rcases le_or_gt now finish with hfinish | hlate
        · calc (admitted (b.serve settled (now :: times)) start finish : K)
              ≤ b.level settled now + (finish - now) * b.rate :=
                admitted_le_level hb (hs now rfl) hsorted hfinish
            _ ≤ b.capacity + (finish - start) * b.rate :=
                add_le_add level_le_capacity
                  (mul_le_mul_of_nonneg_right (by linarith) hb.rate_nonneg)
        · rw [admitted_eq_zero (after_sorted hsorted hlate), Nat.cast_zero]
          exact add_nonneg hcapacity hgain

end Bounds

end TokenBucket

end AiStudio.Data
