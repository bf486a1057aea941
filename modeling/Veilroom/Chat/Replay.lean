import Veilroom.Basic
import Mathlib.Algebra.Order.Field.Rat

/-!
Replay tracking and chat rate limiting (`chat/replay.rs`, `chat/ratelimit.rs`).

The tracker's hash map is a function to `Option`. The token bucket counts in
rationals where the source counts in `f64`; which messages are limited is the
only thing that could differ, and no result below depends on it.
-/
namespace Veilroom

/-- The last accepted sequence per sender and epoch. -/
structure ReplayTracker where
  last : MemberId → Nat → Option Nat

namespace ReplayTracker

def new : ReplayTracker := ⟨fun _ _ => none⟩

/-- `ReplayTracker::last_accepted`. -/
def lastAccepted (t : ReplayTracker) (sender : MemberId) (epoch : Nat) : Option Nat :=
  t.last sender epoch

/-- The insertion of one key. -/
def record (t : ReplayTracker) (sender : MemberId) (epoch sequence : Nat) : ReplayTracker :=
  ⟨fun s e => if s = sender ∧ e = epoch then some sequence else t.last s e⟩

/-- `ReplayTracker::accept`. -/
def accept (t : ReplayTracker) (sender : MemberId) (epoch sequence : Nat) : ReplayTracker × Bool :=
  match t.last sender epoch with
  | some last => if sequence ≤ last then (t, false) else (t.record sender epoch sequence, true)
  | none => (t.record sender epoch sequence, true)

/-- `ReplayTracker::retain_epoch`. -/
def retainEpoch (t : ReplayTracker) (currentEpoch : Nat) : ReplayTracker :=
  ⟨fun s e => if e = currentEpoch then t.last s e else none⟩

/-- A sequence the tracker has not seen for this sender and epoch, nor anything above it. -/
def Fresh (t : ReplayTracker) (sender : MemberId) (epoch sequence : Nat) : Prop :=
  ∀ last, t.lastAccepted sender epoch = some last → last < sequence

instance (t : ReplayTracker) (sender : MemberId) (epoch sequence : Nat) :
    Decidable (t.Fresh sender epoch sequence) :=
  match h : t.lastAccepted sender epoch with
  | none => .isTrue (by simp [Fresh, h])
  | some last =>
    if hlt : last < sequence then .isTrue (by simpa [Fresh, h] using hlt)
    else .isFalse (by simpa [Fresh, h] using hlt)

@[simp] theorem lastAccepted_new (sender : MemberId) (epoch : Nat) :
    new.lastAccepted sender epoch = none := rfl

@[simp] theorem lastAccepted_record (t : ReplayTracker) (sender s : MemberId)
    (epoch sequence e : Nat) :
    (t.record sender epoch sequence).lastAccepted s e =
      if s = sender ∧ e = epoch then some sequence else t.lastAccepted s e := rfl

@[simp] theorem lastAccepted_retainEpoch (t : ReplayTracker) (current : Nat) (s : MemberId)
    (e : Nat) :
    (t.retainEpoch current).lastAccepted s e =
      if e = current then t.lastAccepted s e else none := rfl

/-- A fresh sequence is accepted and recorded. -/
theorem accept_of_fresh {t : ReplayTracker} {sender : MemberId} {epoch sequence : Nat}
    (h : t.Fresh sender epoch sequence) :
    t.accept sender epoch sequence = (t.record sender epoch sequence, true) := by
  unfold accept
  split
  · rename_i last hlast
    rw [if_neg (by have := h last hlast; omega)]
  · rfl

end ReplayTracker

/-- `RateLimiter`, with its `f64` fields read as exact rationals. -/
structure RateLimiter where
  capacity : ℚ
  tokens : ℚ
  refillPerSecond : ℚ
  lastRefill : Duration
  consecutiveViolations : Nat

namespace RateLimiter

def new (burst sustainedPerSecond : Nat) : RateLimiter where
  capacity := burst
  tokens := burst
  refillPerSecond := sustainedPerSecond
  lastRefill := 0
  consecutiveViolations := 0

/-- `RateLimiter::refill`. -/
def refill (l : RateLimiter) (now : Duration) : RateLimiter :=
  let elapsed := now - l.lastRefill
  if elapsed = 0 then l
  else
    let added := (elapsed : ℚ) / 1000000000 * l.refillPerSecond
    { l with lastRefill := now, tokens := min (l.tokens + added) l.capacity }

/-- `RateLimiter::allow`, without the rounding of `f64`. -/
def allow (l : RateLimiter) (now : Duration) : RateLimiter × Bool :=
  let l := l.refill now
  if 1 ≤ l.tokens then ({ l with tokens := l.tokens - 1, consecutiveViolations := 0 }, true)
  else ({ l with consecutiveViolations := l.consecutiveViolations + 1 }, false)

/-- `RateLimiter::is_abusive`. -/
def isAbusive (l : RateLimiter) (terminationThreshold : Nat) : Bool :=
  terminationThreshold ≤ l.consecutiveViolations

end RateLimiter

end Veilroom
