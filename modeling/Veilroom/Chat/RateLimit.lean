import Veilroom.Chat.Replay
import Mathlib.Tactic.Linarith
import Mathlib.Tactic.Positivity
import Mathlib.Tactic.Ring

/-!
The token bucket (`chat/ratelimit.rs`) over any sequence of calls: the level, the number of
messages allowed in a window, and the violations in a row.
-/
namespace Veilroom
namespace RateLimiter

/-- The limiter after calls at these instants and what each answered, both newest first. -/
def calls (burst rate : Nat) : List Duration → RateLimiter × List (Duration × Bool)
  | [] => (new burst rate, [])
  | now :: earlier =>
    let (limiter, log) := calls burst rate earlier
    let (limiter, allowed) := limiter.allow now
    (limiter, (now, allowed) :: log)

/-- The denials since the last allowed call. -/
def denials : List (Duration × Bool) → Nat
  | [] => 0
  | (_, allowed) :: log => if allowed then 0 else denials log + 1

/-- How many calls were allowed from `start` to `stop`. -/
def allowedWithin (start stop : Duration) (log : List (Duration × Bool)) : Nat :=
  log.countP fun call => call.2 && decide (start ≤ call.1) && decide (call.1 ≤ stop)

/-- A span of the clock in seconds. -/
def seconds (d : Duration) : ℚ := (d : ℚ) / 1000000000

variable {burst rate : Nat} {l : RateLimiter} {now : Duration}

/-- The limiter keeps its parameters, and its level stays between nothing and the burst. -/
structure Bounded (burst rate : Nat) (l : RateLimiter) : Prop where
  capacity : l.capacity = burst
  refillPerSecond : l.refillPerSecond = rate
  nonneg : 0 ≤ l.tokens
  le_burst : l.tokens ≤ burst

theorem bounded_new (burst rate : Nat) : Bounded burst rate (new burst rate) :=
  ⟨rfl, rfl, Nat.cast_nonneg burst, le_refl _⟩

/-- The level `refill` finds, whether any time has passed or not. -/
theorem tokens_refill (h : Bounded burst rate l) (now : Duration) :
    (l.refill now).tokens = min (l.tokens + seconds (now - l.lastRefill) * rate) burst := by
  unfold refill
  dsimp only
  split
  · rename_i hnone
    rw [hnone, seconds, Nat.cast_zero, zero_div, zero_mul, add_zero, min_eq_left h.le_burst]
  · rw [h.capacity, h.refillPerSecond]
    rfl

theorem Bounded.refill (h : Bounded burst rate l) (now : Duration) :
    Bounded burst rate (l.refill now) := by
  have htokens := tokens_refill h now
  have hnonneg : 0 ≤ l.tokens + seconds (now - l.lastRefill) * rate := by
    have hseconds : 0 ≤ seconds (now - l.lastRefill) := by unfold seconds; positivity
    have hrate : (0 : ℚ) ≤ rate := Nat.cast_nonneg rate
    have htokens := h.nonneg
    positivity
  refine ⟨?_, ?_, ?_, ?_⟩
  · rw [← h.capacity, RateLimiter.refill]
    dsimp only
    split <;> rfl
  · rw [← h.refillPerSecond, RateLimiter.refill]
    dsimp only
    split <;> rfl
  · rw [htokens]
    exact le_min hnonneg (Nat.cast_nonneg burst)
  · rw [htokens]
    exact min_le_right _ _

/-- The two answers of `allow`. -/
inductive Allows (l : RateLimiter) (now : Duration) : RateLimiter × Bool → Prop
  | allowed : 1 ≤ (l.refill now).tokens → Allows l now
      ({ l.refill now with tokens := (l.refill now).tokens - 1, consecutiveViolations := 0 }, true)
  | denied : (l.refill now).tokens < 1 → Allows l now
      ({ l.refill now with consecutiveViolations := l.consecutiveViolations + 1 }, false)

theorem consecutiveViolations_refill (l : RateLimiter) (now : Duration) :
    (l.refill now).consecutiveViolations = l.consecutiveViolations := by
  unfold refill
  dsimp only
  split <;> rfl

theorem allow_allows (l : RateLimiter) (now : Duration) : Allows l now (l.allow now) := by
  unfold allow
  dsimp only
  split
  · rename_i hfull
    exact .allowed hfull
  · rename_i hempty
    rw [consecutiveViolations_refill]
    exact .denied (not_le.mp hempty)

theorem Bounded.allow (h : Bounded burst rate l) (now : Duration) :
    Bounded burst rate (l.allow now).1 := by
  have hrefill := h.refill now
  have hallows := allow_allows l now
  generalize l.allow now = answer at hallows
  cases hallows with
  | allowed hfull =>
      refine ⟨hrefill.capacity, hrefill.refillPerSecond, by simpa using hfull, ?_⟩
      have hle := hrefill.le_burst
      change (l.refill now).tokens - 1 ≤ burst
      linarith
  | denied _ => exact ⟨hrefill.capacity, hrefill.refillPerSecond, hrefill.nonneg, hrefill.le_burst⟩

theorem calls_bounded (burst rate : Nat) (times : List Duration) :
    Bounded burst rate (calls burst rate times).1 := by
  induction times with
  | nil => exact bounded_new burst rate
  | cons now earlier ih => exact ih.allow now

theorem violations_allow (l : RateLimiter) (now : Duration) :
    (l.allow now).1.consecutiveViolations =
      if (l.allow now).2 then 0 else l.consecutiveViolations + 1 := by
  have hallows := allow_allows l now
  generalize l.allow now = answer at hallows
  cases hallows <;> rfl

theorem calls_violations (burst rate : Nat) (times : List Duration) :
    (calls burst rate times).1.consecutiveViolations = denials (calls burst rate times).2 := by
  induction times with
  | nil => rfl
  | cons now earlier ih =>
      have hstep := violations_allow (calls burst rate earlier).1 now
      rw [ih] at hstep
      exact hstep

/-! ### Windows -/

theorem lastRefill_allow (l : RateLimiter) (h : l.lastRefill ≤ now) :
    (l.allow now).1.lastRefill = now := by
  have hrefill : (l.refill now).lastRefill = now := by
    unfold refill
    dsimp only
    split
    · rename_i hnone
      exact Nat.le_antisymm h (Nat.sub_eq_zero_iff_le.mp hnone)
    · rfl
  have hallows := allow_allows l now
  generalize l.allow now = answer at hallows
  cases hallows <;> exact hrefill

theorem lastRefill_calls_le {times : List Duration} (hsorted : times.Pairwise (· ≥ ·))
    (h : ∀ t ∈ times, t ≤ now) : (calls burst rate times).1.lastRefill ≤ now := by
  induction times generalizing now with
  | nil => exact Nat.zero_le now
  | cons latest earlier ih =>
      obtain ⟨hlatest, hearlier⟩ := List.pairwise_cons.mp hsorted
      have hlast := lastRefill_allow _ (ih hearlier hlatest)
      exact hlast.trans_le (h latest (.head _))

theorem mem_calls {times : List Duration} {call : Duration × Bool}
    (h : call ∈ (calls burst rate times).2) : call.1 ∈ times := by
  induction times with
  | nil => cases h
  | cons now earlier ih =>
      cases h with
      | head => exact .head _
      | tail _ h => exact .tail _ (ih h)

theorem seconds_add {start middle stop : Duration} (h : start ≤ middle) (h' : middle ≤ stop) :
    seconds (middle - start) + seconds (stop - middle) = seconds (stop - start) := by
  have hspan : stop - start = (middle - start) + (stop - middle) := by
    rw [Nat.add_comm, Nat.sub_add_sub_cancel h' h]
  rw [hspan]
  unfold seconds
  push_cast
  ring

theorem seconds_nonneg (d : Duration) : 0 ≤ seconds d := by
  unfold seconds
  positivity

/-- How many calls were allowed since `start`. -/
def allowedSince (start : Duration) (log : List (Duration × Bool)) : Nat :=
  log.countP fun call => call.2 && decide (start ≤ call.1)

theorem allowedSince_eq_zero {start : Duration} {log : List (Duration × Bool)}
    (h : ∀ call ∈ log, call.1 < start) : allowedSince start log = 0 := by
  rw [allowedSince, List.countP_eq_zero]
  intro call hcall
  simp [h call hcall]

/-- An allowed message costs one token. -/
theorem allowedSince_add_tokens_allow {start : Duration} {earlier : List Duration}
    (h : start ≤ now) :
    (allowedSince start (calls burst rate (now :: earlier)).2 : ℚ) +
        (calls burst rate (now :: earlier)).1.tokens =
      allowedSince start (calls burst rate earlier).2 +
        ((calls burst rate earlier).1.refill now).tokens := by
  simp only [calls, allowedSince]
  have hallows := allow_allows (calls burst rate earlier).1 now
  generalize (calls burst rate earlier).1.allow now = answer at hallows
  cases hallows with
  | allowed _ =>
      rw [List.countP_cons_of_pos (by simpa using h)]
      push_cast
      ring
  | denied _ =>
      rw [List.countP_cons_of_neg (by simp)]

/-- The messages allowed since `start` and the level of the bucket together never exceed what
the burst and the time since `start` provide. -/
theorem allowedSince_add_tokens_le {times : List Duration} (hsorted : times.Pairwise (· ≥ ·))
    {start : Duration} (hnow : ∀ t ∈ times, t ≤ now) (hstart : start ≤ now) :
    (allowedSince start (calls burst rate times).2 : ℚ) +
        ((calls burst rate times).1.refill now).tokens ≤ burst + rate * seconds (now - start) := by
  have hspan : 0 ≤ rate * seconds (now - start) :=
    mul_nonneg (Nat.cast_nonneg rate) (seconds_nonneg _)
  induction times generalizing now with
  | nil =>
      have hle := ((bounded_new burst rate).refill now).le_burst
      rw [allowedSince_eq_zero (by simp [calls]), Nat.cast_zero, zero_add]
      exact hle.trans (le_add_of_nonneg_right hspan)
  | cons latest earlier ih =>
      obtain ⟨hlatest, hearlier⟩ := List.pairwise_cons.mp hsorted
      have hle : latest ≤ now := hnow latest (.head _)
      by_cases hbefore : latest < start
      · have hzero : allowedSince start (calls burst rate (latest :: earlier)).2 = 0 := by
          apply allowedSince_eq_zero
          intro call hcall
          have hmem := mem_calls hcall
          cases hmem with
          | head => exact hbefore
          | tail _ hmem => exact (hlatest _ hmem).trans_lt hbefore
        have hle := ((calls_bounded burst rate (latest :: earlier)).refill now).le_burst
        rw [hzero, Nat.cast_zero, zero_add]
        exact hle.trans (le_add_of_nonneg_right hspan)
      · have hsince : start ≤ latest := not_lt.mp hbefore
        have hprior := ih hearlier hlatest hsince
          (mul_nonneg (Nat.cast_nonneg rate) (seconds_nonneg _))
        have hbounded := calls_bounded burst rate (latest :: earlier)
        have hbefore : (calls burst rate earlier).1.lastRefill ≤ latest :=
          lastRefill_calls_le hearlier hlatest
        have hlast := lastRefill_allow _ hbefore
        have htokens := tokens_refill hbounded now
        have hrefilled : ((calls burst rate (latest :: earlier)).1.refill now).tokens ≤
            (calls burst rate (latest :: earlier)).1.tokens + seconds (now - latest) * rate := by
          rw [htokens]
          have hsame : (calls burst rate (latest :: earlier)).1.lastRefill = latest := hlast
          rw [hsame]
          exact min_le_left _ _
        have hstep : (allowedSince start (calls burst rate (latest :: earlier)).2 : ℚ) +
            (calls burst rate (latest :: earlier)).1.tokens =
              allowedSince start (calls burst rate earlier).2 +
                ((calls burst rate earlier).1.refill latest).tokens :=
          allowedSince_add_tokens_allow hsince
        have hsum := seconds_add hsince hle
        have hsplit : (rate : ℚ) * seconds (latest - start) + seconds (now - latest) * rate =
            rate * seconds (now - start) := by
          rw [← hsum]
          ring
        linarith

/-- In any window of a sorted sequence of calls, at most the burst and what flows in meanwhile
are allowed. -/
theorem allowedWithin_le {times : List Duration} (hsorted : times.Pairwise (· ≥ ·))
    {start stop : Duration} (hwindow : start ≤ stop) :
    (allowedWithin start stop (calls burst rate times).2 : ℚ) ≤
      burst + rate * seconds (stop - start) := by
  induction times with
  | nil =>
      have hnonneg := mul_nonneg (Nat.cast_nonneg (α := ℚ) rate) (seconds_nonneg (stop - start))
      have hburst := Nat.cast_nonneg (α := ℚ) burst
      simp only [calls, allowedWithin, List.countP_nil, Nat.cast_zero]
      linarith
  | cons latest earlier ih =>
      obtain ⟨hlatest, hearlier⟩ := List.pairwise_cons.mp hsorted
      by_cases hinside : latest ≤ stop
      · have hall : ∀ t ∈ latest :: earlier, t ≤ stop := by
          intro t ht
          cases ht with
          | head => exact hinside
          | tail _ ht => exact (hlatest t ht).trans hinside
        have hsame : allowedWithin start stop (calls burst rate (latest :: earlier)).2 =
            allowedSince start (calls burst rate (latest :: earlier)).2 := by
          apply List.countP_congr
          intro call hcall
          simp [hall _ (mem_calls hcall)]
        have hnonneg := ((calls_bounded burst rate (latest :: earlier)).refill stop).nonneg
        rw [hsame]
        exact (le_add_of_nonneg_right hnonneg).trans
          (allowedSince_add_tokens_le hsorted hall hwindow)
      · have hsame : allowedWithin start stop (calls burst rate (latest :: earlier)).2 =
            allowedWithin start stop (calls burst rate earlier).2 := by
          apply List.countP_cons_of_neg
          simp [hinside]
        rw [hsame]
        exact ih hearlier

end RateLimiter

end Veilroom
