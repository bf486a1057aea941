import Veilroom.Host.Connection
import Mathlib.Order.Lattice.Nat
import Mathlib.Tactic.NormNum

/-!
The password guard (`admission/guard.rs`) on the machine's integers: `u32`
counters, a checked shift, a checked multiplication and a checked deadline.

`none` is a panic on overflow. The last instant the clock can represent is an
argument.
-/
namespace Veilroom

/-- `n += 1` on a `u32`. -/
def checkedSucc (n : UInt32) : Option UInt32 :=
  if n.toNat + 1 < 2 ^ 32 then some (n + 1) else none

/-- `u32::checked_shl`. -/
def checkedShl (n shift : UInt32) : Option UInt32 :=
  if shift < 32 then some (n <<< shift) else none

/-- `Duration::checked_mul`: the seconds of the product must fit a `u64`. -/
def Duration.checkedMul (d : Duration) (n : UInt32) : Option Duration :=
  if d * n.toNat < Duration.fromSecs (2 ^ 64) then some (d * n.toNat) else none

/-- `Instant::checked_add`. -/
def Duration.checkedAdd (latest now window : Duration) : Option Duration :=
  if now + window ≤ latest then some (now + window) else none

/-- `PasswordGuard` with its counters as words. -/
structure GuardWords where
  failures : UInt32
  lockouts : UInt32
  lockedUntil : Option Duration
deriving DecidableEq

namespace GuardWords

def new : GuardWords := ⟨0, 0, none⟩

/-- `PasswordGuard::next_window`. -/
def nextWindow (g : GuardWords) : Duration :=
  let shift := min g.lockouts 31
  let factor := (checkedShl 1 shift).getD 0xffffffff
  min ((passwordLockoutBase.checkedMul factor).getD passwordLockoutMax) passwordLockoutMax

/-- `PasswordGuard::record_failure`, with the window it starts. -/
def recordFailure (latest : Duration) (g : GuardWords) (now : Duration) :
    Option (GuardWords × Option Duration) :=
  match checkedSucc g.failures with
  | none => none
  | some failures =>
    let g := { g with failures }
    if failures.toNat % passwordFailureThreshold ≠ 0 then some (g, none)
    else
      let window := g.nextWindow
      match checkedSucc g.lockouts with
      | none => none
      | some lockouts =>
        let lockedUntil := (Duration.checkedAdd latest now window).or g.lockedUntil
        some ({ g with lockouts, lockedUntil }, some window)

/-- `PasswordGuard::is_locked`. -/
def isLocked (g : GuardWords) (now : Duration) : Bool :=
  g.lockedUntil.any fun deadline => now < deadline

/-- `PasswordGuard::remaining`. -/
def remaining (g : GuardWords) (now : Duration) : Option Duration :=
  (g.lockedUntil.filter fun deadline => now < deadline).map fun deadline => deadline - now

/-- The guard after failures at these instants, and the windows it started; both lists have the
newest first. -/
def recorded (latest : Duration) : List Duration → Option (GuardWords × List Duration)
  | [] => some (new, [])
  | now :: earlier =>
    match recorded latest earlier with
    | none => none
    | some (g, windows) =>
      match g.recordFailure latest now with
      | none => none
      | some (g, window) => some (g, window.toList ++ windows)

variable {latest now : Duration} {g : GuardWords} {past : List Duration}

/-- The length of the lockout that follows `k` earlier ones. -/
def lockoutWindow (k : Nat) : Duration := Duration.fromSecs (min (30 * 2 ^ k) 900)

theorem lockoutWindow_mono {k n : Nat} (h : k ≤ n) : lockoutWindow k ≤ lockoutWindow n := by
  unfold lockoutWindow Duration.fromSecs
  apply Nat.mul_le_mul_right
  apply min_le_min_right
  apply Nat.mul_le_mul_left
  exact Nat.pow_le_pow_right (by decide) h

/-- From the fifth doubling on the window is the longest one, clamped shift or not. -/
theorem lockoutWindow_of_le {k : Nat} (h : 5 ≤ k) : lockoutWindow k = passwordLockoutMax := by
  have hpow : 2 ^ 5 ≤ 2 ^ k := Nat.pow_le_pow_right (by decide) h
  have hmin : min (30 * 2 ^ k) 900 = 900 := by
    apply min_eq_right
    omega
  rw [lockoutWindow, hmin]
  rfl

theorem toNat_checkedShl (shift : UInt32) (h : shift.toNat ≤ 31) :
    ∃ factor, checkedShl 1 shift = some factor ∧ factor.toNat = 2 ^ shift.toNat := by
  have hlt : shift < 32 := UInt32.lt_iff_toNat_lt.mpr (by simpa using Nat.lt_succ_of_le h)
  have hpow : 2 ^ shift.toNat < 2 ^ 32 := Nat.pow_lt_pow_right (by decide) (by omega)
  refine ⟨_, if_pos hlt, ?_⟩
  rw [UInt32.toNat_shiftLeft, Nat.mod_eq_of_lt (by omega : shift.toNat < 32), UInt32.toNat_one,
    Nat.one_shiftLeft, Nat.mod_eq_of_lt hpow]

/-- No step of `next_window` falls back. -/
theorem nextWindow_clamped (g : GuardWords) :
    g.nextWindow = lockoutWindow (min g.lockouts.toNat 31) := by
  have hshift : (min g.lockouts 31).toNat = min g.lockouts.toNat 31 := by
    by_cases hle : g.lockouts ≤ 31
    · have hle' : g.lockouts.toNat ≤ 31 := UInt32.le_iff_toNat_le.mp hle
      rw [show min g.lockouts 31 = g.lockouts from if_pos hle, min_eq_left hle']
    · have hlt : 31 < g.lockouts.toNat := Nat.not_le.mp fun h => hle (UInt32.le_iff_toNat_le.mpr h)
      rw [show min g.lockouts 31 = 31 from if_neg hle, min_eq_right hlt.le]
      rfl
  obtain ⟨factor, hfactor, htoNat⟩ := toNat_checkedShl (min g.lockouts 31) (by omega)
  have hpow : 2 ^ min g.lockouts.toNat 31 ≤ 2 ^ 31 := Nat.pow_le_pow_right (by decide) (by omega)
  have hproduct : passwordLockoutBase.checkedMul factor =
      some (Duration.fromSecs (30 * 2 ^ min g.lockouts.toNat 31)) := by
    rw [Duration.checkedMul, htoNat, hshift, if_pos]
    · simp only [passwordLockoutBase, Duration.fromSecs]
      congr 1
      ring
    · have hfits : 30 * 1000000000 * 2 ^ min g.lockouts.toNat 31 < 2 ^ 64 * 1000000000 := by omega
      exact hfits
  simp only [nextWindow, hfactor, hproduct, Option.getD_some]
  exact Nat.mul_min_mul_right (30 * 2 ^ min g.lockouts.toNat 31) 900 1000000000

theorem nextWindow_eq (g : GuardWords) : g.nextWindow = lockoutWindow g.lockouts.toNat := by
  rw [nextWindow_clamped]
  by_cases hle : g.lockouts.toNat ≤ 31
  · rw [min_eq_left hle]
  · rw [lockoutWindow_of_le (by omega), lockoutWindow_of_le (by omega)]

/-! ### The schedule -/

/-- What holds of a guard after `past`: how many lockouts it started and how long each was, and
that no lockout reaches further than one starting at a later failure would. -/
structure Scheduled (past : List Duration) (g : GuardWords) (windows : List Duration) : Prop where
  failures : g.failures.toNat = past.length
  lockouts : g.lockouts.toNat = past.length / 5
  windows : windows = ((List.range (past.length / 5)).map lockoutWindow).reverse
  reach : ∀ now deadline, (∀ t ∈ past, t ≤ now) → g.lockedUntil = some deadline →
    deadline ≤ now + lockoutWindow (past.length / 5)

theorem Scheduled.new : Scheduled [] new [] := ⟨rfl, rfl, rfl, nofun⟩

private theorem checkedSucc_eq {n : UInt32} (h : n.toNat + 1 < 2 ^ 32) :
    ∃ m, checkedSucc n = some m ∧ m.toNat = n.toNat + 1 := by
  refine ⟨n + 1, if_pos h, ?_⟩
  rw [UInt32.toNat_add]
  exact Nat.mod_eq_of_lt h

/-- The two outcomes of a failure: the next in a row of five, or the fifth, which starts a lockout
whose deadline replaces the old one unless the clock cannot represent it. -/
inductive Records (latest : Duration) (g : GuardWords) (now : Duration) :
    GuardWords → Option Duration → Prop
  | counted {g' : GuardWords} : (g.failures.toNat + 1) % 5 ≠ 0 →
      g'.failures.toNat = g.failures.toNat + 1 → g'.lockouts = g.lockouts →
      g'.lockedUntil = g.lockedUntil → Records latest g now g' none
  | locked {g' : GuardWords} : (g.failures.toNat + 1) % 5 = 0 →
      g'.failures.toNat = g.failures.toNat + 1 → g'.lockouts.toNat = g.lockouts.toNat + 1 →
      g'.lockedUntil = (Duration.checkedAdd latest now g.nextWindow).or g.lockedUntil →
      Records latest g now g' (some g.nextWindow)

theorem recordFailure_records (latest now : Duration) (hfailures : g.failures.toNat + 1 < 2 ^ 32)
    (hlockouts : g.lockouts.toNat + 1 < 2 ^ 32) :
    ∃ g' window, g.recordFailure latest now = some (g', window) ∧
      Records latest g now g' window := by
  obtain ⟨failures, hfailed, hcount⟩ := checkedSucc_eq hfailures
  obtain ⟨lockouts, hlocked, hlockcount⟩ := checkedSucc_eq hlockouts
  by_cases hfifth : failures.toNat % passwordFailureThreshold ≠ 0
  · refine ⟨{ g with failures }, none, ?_, .counted ?_ hcount rfl rfl⟩
    · simp only [recordFailure, hfailed, if_pos hfifth]
    · rwa [hcount] at hfifth
  · refine ⟨{ g with
      failures, lockouts
      lockedUntil := (Duration.checkedAdd latest now g.nextWindow).or g.lockedUntil },
      some g.nextWindow, ?_, .locked ?_ hcount hlockcount rfl⟩
    · simp only [recordFailure, hfailed, if_neg hfifth, hlocked, nextWindow]
    · rw [not_not, hcount] at hfifth
      exact hfifth

private theorem length_div_succ {n : Nat} (h : (n + 1) % 5 ≠ 0) : (n + 1) / 5 = n / 5 := by omega

private theorem length_div_fifth {n : Nat} (h : (n + 1) % 5 = 0) : (n + 1) / 5 = n / 5 + 1 := by
  omega

theorem Scheduled.records {windows : List Duration} {g' : GuardWords} {window : Option Duration}
    (h : Scheduled past g windows) (hrecords : Records latest g now g' window) :
    Scheduled (now :: past) g' (window.toList ++ windows) := by
  have hcount := h.failures
  have hlockouts := h.lockouts
  cases hrecords with
  | counted hfifth hfailures hkept hdeadline =>
      rw [hcount] at hfifth hfailures
      have hdiv := length_div_succ hfifth
      refine ⟨hfailures, ?_, ?_, ?_⟩
      · rw [hkept, hlockouts, List.length_cons, hdiv]
      · rw [List.length_cons, hdiv]
        exact h.windows
      · intro later deadline hlater hsome
        rw [List.length_cons, hdiv]
        exact h.reach later deadline (fun t ht => hlater t (.tail _ ht)) (hdeadline ▸ hsome)
  | locked hfifth hfailures hlocked hdeadline =>
      rw [hcount] at hfifth hfailures
      have hdiv := length_div_fifth hfifth
      have hwindow : g.nextWindow = lockoutWindow (past.length / 5) := by
        rw [nextWindow_eq, hlockouts]
      have hmono : lockoutWindow (past.length / 5) ≤ lockoutWindow (past.length / 5 + 1) :=
        lockoutWindow_mono (Nat.le_succ _)
      refine ⟨hfailures, ?_, ?_, ?_⟩
      · rw [hlocked, hlockouts, List.length_cons, hdiv]
      · rw [List.length_cons, hdiv, List.range_succ, List.map_append, List.reverse_append,
          ← h.windows, hwindow]
        rfl
      · intro later deadline hlater hsome
        rw [List.length_cons, hdiv]
        rw [hdeadline, hwindow, Duration.checkedAdd] at hsome
        split at hsome
        · cases hsome
          exact Nat.add_le_add (hlater now (.head _)) hmono
        · have hreach := h.reach later deadline (fun t ht => hlater t (.tail _ ht)) hsome
          exact hreach.trans (Nat.add_le_add_left hmono _)

/-- Fewer than 2 ^ 32 failures overflow nothing and follow the schedule. -/
theorem recorded_scheduled (latest : Duration) (hcount : past.length < 2 ^ 32)
    (hsorted : past.Pairwise (· ≥ ·)) :
    ∃ g windows, recorded latest past = some (g, windows) ∧ Scheduled past g windows := by
  induction past with
  | nil => exact ⟨new, [], rfl, .new⟩
  | cons now earlier ih =>
      rw [List.length_cons] at hcount
      obtain ⟨hnow, hearlier⟩ := List.pairwise_cons.mp hsorted
      obtain ⟨g, windows, hrecorded, hscheduled⟩ := ih (by omega) hearlier
      have hfailures := hscheduled.failures
      have hlockouts := hscheduled.lockouts
      obtain ⟨g', window, hstep, hrecords⟩ := recordFailure_records latest now
        (g := g) (by omega) (by omega)
      refine ⟨g', window.toList ++ windows, ?_, hscheduled.records hrecords⟩
      simp only [recorded, hrecorded, hstep]

/-- One failure never moves the deadline earlier. -/
theorem Scheduled.deadline_mono {windows : List Duration} {g' : GuardWords}
    {window : Option Duration} (h : Scheduled past g windows) (hnow : ∀ t ∈ past, t ≤ now)
    (hrecords : Records latest g now g' window) {deadline : Duration}
    (hdeadline : g.lockedUntil = some deadline) :
    ∃ later, g'.lockedUntil = some later ∧ deadline ≤ later := by
  cases hrecords with
  | counted _ _ _ hkept => exact ⟨deadline, hkept.trans hdeadline, le_refl _⟩
  | locked _ _ _ hlocked =>
      rw [Duration.checkedAdd] at hlocked
      split at hlocked
      · refine ⟨now + g.nextWindow, hlocked, ?_⟩
        rw [nextWindow_eq, h.lockouts]
        exact h.reach now deadline hnow hdeadline
      · exact ⟨deadline, hlocked.trans hdeadline, le_refl _⟩

/-- The deadline after more failures is not earlier. -/
theorem deadline_mono {newer older : List Duration} (hcount : (newer ++ older).length < 2 ^ 32)
    (hsorted : (newer ++ older).Pairwise (· ≥ ·)) {g₀ g : GuardWords} {windows₀ windows}
    (hold : recorded latest older = some (g₀, windows₀))
    (hnew : recorded latest (newer ++ older) = some (g, windows)) {deadline : Duration}
    (hdeadline : g₀.lockedUntil = some deadline) :
    ∃ later, g.lockedUntil = some later ∧ deadline ≤ later := by
  induction newer generalizing g windows with
  | nil =>
      rw [List.nil_append, hold] at hnew
      cases hnew
      exact ⟨deadline, hdeadline, le_refl _⟩
  | cons now newer ih =>
      rw [List.cons_append, List.length_cons] at hcount
      rw [List.cons_append] at hsorted hnew
      obtain ⟨hnow, hearlier⟩ := List.pairwise_cons.mp hsorted
      obtain ⟨g₁, windows₁, hrecorded, hscheduled⟩ :=
        recorded_scheduled latest (by omega) hearlier
      obtain ⟨later, hlater, hle⟩ := ih (by omega) hearlier hrecorded
      have hfailures := hscheduled.failures
      have hlockouts := hscheduled.lockouts
      obtain ⟨g', window, hstep, hrecords⟩ := recordFailure_records latest now
        (g := g₁) (by omega) (by omega)
      simp only [recorded, hrecorded, hstep, Option.some.injEq, Prod.mk.injEq] at hnew
      obtain ⟨rfl, -⟩ := hnew
      obtain ⟨last, hlast, hle'⟩ := hscheduled.deadline_mono hnow hrecords hlater
      exact ⟨last, hlast, hle.trans hle'⟩

theorem isLocked_iff (g : GuardWords) (now : Duration) :
    g.isLocked now = true ↔ ∃ left, g.remaining now = some left ∧ 0 < left := by
  unfold isLocked remaining
  cases g.lockedUntil with
  | none => simp
  | some deadline =>
      by_cases h : now < deadline
      · simp [h, Option.filter_some]
      · simp [h, Option.filter_some]

/-- A fifth failure locks for the whole of its window. -/
theorem deadline_of_fifth {earlier : List Duration} (hcount : earlier.length + 1 < 2 ^ 32)
    (hsorted : (now :: earlier).Pairwise (· ≥ ·)) {windows : List Duration}
    (hrecorded : recorded latest (now :: earlier) = some (g, windows))
    (hfifth : (earlier.length + 1) % 5 = 0)
    (hlatest : now + lockoutWindow (earlier.length / 5) ≤ latest) :
    g.lockedUntil = some (now + lockoutWindow (earlier.length / 5)) := by
  obtain ⟨g₁, windows₁, hearlier, hscheduled⟩ :=
    recorded_scheduled latest (by omega) (List.pairwise_cons.mp hsorted).2
  have hfailures := hscheduled.failures
  have hlockouts := hscheduled.lockouts
  obtain ⟨g', window, hstep, hrecords⟩ := recordFailure_records latest now
    (g := g₁) (by omega) (by omega)
  simp only [recorded, hearlier, hstep, Option.some.injEq, Prod.mk.injEq] at hrecorded
  obtain ⟨rfl, -⟩ := hrecorded
  cases hrecords with
  | counted hother => exact absurd hfifth (by rwa [hfailures] at hother)
  | locked _ _ _ hdeadline =>
      rw [hdeadline, nextWindow_eq, hlockouts, Duration.checkedAdd, if_pos hlatest]
      rfl

/-- The lockouts of fewer than 2 ^ 32 failures, newest first: nothing overflows, every fifth one
starts a lockout of the length the schedule names, and the deadline never moves back. -/
theorem lockout_schedule (latest : Duration) (past : List Duration) (hcount : past.length < 2 ^ 32)
    (hsorted : past.Pairwise (· ≥ ·)) :
    ∃ g windows, recorded latest past = some (g, windows) ∧
      g.failures.toNat = past.length ∧ g.lockouts.toNat = past.length / 5 ∧
      windows = ((List.range (past.length / 5)).map lockoutWindow).reverse ∧
      (∀ now earlier, past = now :: earlier → past.length % 5 = 0 →
        now + lockoutWindow (earlier.length / 5) ≤ latest →
          g.lockedUntil = some (now + lockoutWindow (earlier.length / 5))) ∧
      (∀ newer older, past = newer ++ older → ∃ g₀ windows₀,
        recorded latest older = some (g₀, windows₀) ∧
          ∀ deadline, g₀.lockedUntil = some deadline →
            ∃ later, g.lockedUntil = some later ∧ deadline ≤ later) ∧
      ∀ now, g.isLocked now = true ↔ ∃ left, g.remaining now = some left ∧ 0 < left := by
  obtain ⟨g, windows, hrecorded, hscheduled⟩ := recorded_scheduled latest hcount hsorted
  refine ⟨g, windows, hrecorded, hscheduled.failures, hscheduled.lockouts, hscheduled.windows,
    ?_, ?_, isLocked_iff g⟩
  · rintro now earlier rfl hfifth hlatest
    exact deadline_of_fifth hcount hsorted hrecorded hfifth hlatest
  · rintro newer older rfl
    have hlength : (newer ++ older).length = newer.length + older.length := List.length_append
    obtain ⟨g₀, windows₀, hold, -⟩ := recorded_scheduled latest
      (by omega : older.length < 2 ^ 32) (List.pairwise_append.mp hsorted).2.1
    refine ⟨g₀, windows₀, hold, fun deadline hdeadline => ?_⟩
    exact deadline_mono hcount hsorted hold hrecorded hdeadline

/-- Six failures in the first six seconds of a clock that lasts a century. -/
theorem lockout_schedule_six :
    ∃ g windows, recorded (Duration.fromSecs (2 ^ 32)) [6, 5, 4, 3, 2, 1] = some (g, windows) ∧
      g.failures.toNat = 6 ∧ g.lockouts.toNat = 1 ∧ windows = [Duration.fromSecs 30] ∧
      g.lockedUntil = some (5 + Duration.fromSecs 30) := by
  obtain ⟨g, windows, hrecorded, hfailures, hlockouts, hwindows, -⟩ :=
    lockout_schedule (Duration.fromSecs (2 ^ 32)) [6, 5, 4, 3, 2, 1] (by decide) (by decide)
  have hcomputed : recorded (Duration.fromSecs (2 ^ 32)) [6, 5, 4, 3, 2, 1] =
      some (⟨6, 1, some (5 + Duration.fromSecs 30)⟩, [Duration.fromSecs 30]) := by
    decide +kernel
  have hsame := hrecorded.symm.trans hcomputed
  simp only [Option.some.injEq, Prod.mk.injEq] at hsame
  obtain ⟨rfl, rfl⟩ := hsame
  exact ⟨_, _, hrecorded, hfailures, hlockouts, rfl, rfl⟩

/-! ### The supervisor's guard -/

/-- The guard without the widths of its counters. -/
def toGuard (g : GuardWords) : PasswordGuard :=
  ⟨g.failures.toNat, g.lockouts.toNat, g.lockedUntil⟩

theorem nextWindow_toGuard (g : GuardWords) : g.toGuard.nextWindow = g.nextWindow := by
  rw [nextWindow_clamped]
  simp only [PasswordGuard.nextWindow, toGuard, passwordLockoutBase, passwordLockoutMax,
    lockoutWindow, Duration.fromSecs]
  rw [Nat.mul_right_comm, Nat.mul_min_mul_right]

/-- While nothing overflows, the words do what the supervisor's guard does. -/
theorem recordFailure_toGuard {window : Option Duration} {g' : GuardWords}
    (hrecords : Records latest g now g' window) (hlatest : now + g.nextWindow ≤ latest) :
    g.toGuard.recordFailure now = (g'.toGuard, window) := by
  have hwindow :
      (PasswordGuard.mk (g.failures.toNat + 1) g.lockouts.toNat g.lockedUntil).nextWindow =
        g.nextWindow := nextWindow_toGuard g
  unfold PasswordGuard.recordFailure passwordFailureThreshold toGuard
  dsimp only
  cases hrecords with
  | counted hother hfailures hlockouts hdeadline =>
      rw [if_pos hother, hfailures, hlockouts, hdeadline]
  | locked hfifth hfailures hlockouts hdeadline =>
      rw [if_neg (not_not.mpr hfifth), hwindow, hfailures, hlockouts, hdeadline,
        Duration.checkedAdd, if_pos hlatest]
      rfl

end GuardWords

end Veilroom
