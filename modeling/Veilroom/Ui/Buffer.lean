import Veilroom.Basic
import Mathlib.Data.List.Induction
import Mathlib.Order.Fin.Basic
import Mathlib.Order.MinMax

/-!
The message lines of a room view (`ui/buffer.rs`, `ui/room_view.rs`): how many are kept, and when
they expire.
-/
namespace Veilroom

/-- `std::time::Instant`: nanoseconds, up to the last one the clock represents. -/
abbrev Instant (latest : Nat) := Fin (latest + 1)

instance {latest : Nat} : Std.LawfulOrderMin (Instant latest) :=
  .of_le_min_iff (fun _ _ _ => le_min_iff) min_choice

/-- `Instant::checked_add`. -/
def Instant.checkedAdd {latest : Nat} (instant : Instant latest) (age : Duration) :
    Option (Instant latest) :=
  if h : instant.val + age < latest + 1 then some ⟨instant.val + age, h⟩ else none

/-- `GmtTimestamp`. -/
structure GmtTimestamp where
  secondsSinceMidnight : Fin 86400
deriving DecidableEq

/-- `LineStyle`. -/
inductive LineStyle
  | chat | notice | alert
  | palette (color : ColorChoice)
  | error | muted
deriving DecidableEq

/-- `NicknameSpan`. -/
structure NicknameSpan where
  text : String
  color : ColorChoice
deriving DecidableEq

/-- `MessageLine`. -/
structure MessageLine (latest : Nat) where
  text : String
  style : LineStyle
  nickname : Option NicknameSpan
  timestamp : GmtTimestamp
  createdAt : Instant latest
  expiresAt : Option (Instant latest)
deriving DecidableEq

variable {latest : Nat}

/-- The line as it was displayed, whenever it expires. -/
def MessageLine.undated (line : MessageLine latest) : MessageLine latest :=
  { line with expiresAt := none }

/-! ### The buffer -/

/-- `RenderBuffer`, never longer than its capacity. -/
structure RenderBuffer (latest : Nat) where
  lines : List (MessageLine latest)
  capacity : Nat
  bounded : lines.length ≤ capacity

namespace RenderBuffer

/-- `RenderBuffer::with_capacity`. -/
def withCapacity (capacity : Nat) : RenderBuffer latest := ⟨[], capacity, Nat.zero_le _⟩

/-- `RenderBuffer::push`. -/
def push (buffer : RenderBuffer latest) (line : MessageLine latest) : RenderBuffer latest :=
  if hzero : buffer.capacity = 0 then buffer
  else if hfull : buffer.lines.length = buffer.capacity then
    { buffer with
      lines := buffer.lines.tail ++ [line]
      bounded := by
        rw [List.length_append, List.length_tail, List.length_singleton]
        omega }
  else
    { buffer with
      lines := buffer.lines ++ [line]
      bounded := by
        have hbounded := buffer.bounded
        rw [List.length_append, List.length_singleton]
        omega }

/-- `RenderBuffer::clear`. -/
def clear (buffer : RenderBuffer latest) : RenderBuffer latest :=
  { buffer with lines := [], bounded := Nat.zero_le _ }

/-- `RenderBuffer::set_expiry`. -/
def setExpiry (buffer : RenderBuffer latest) (maxAge : Option Duration) : RenderBuffer latest :=
  { buffer with
    lines := buffer.lines.map fun line =>
      { line with expiresAt := maxAge.bind line.createdAt.checkedAdd }
    bounded := by
      rw [List.length_map]
      exact buffer.bounded }

/-- `RenderBuffer::expire_due`, with how many lines expired. -/
def expireDue (buffer : RenderBuffer latest) (now : Instant latest) : RenderBuffer latest × Nat :=
  let retained := buffer.lines.filter fun line => line.expiresAt.all (now < ·)
  ({ buffer with
      lines := retained
      bounded := Nat.le_trans (List.length_filter_le _ _) buffer.bounded },
    buffer.lines.length - retained.length)

/-- `RenderBuffer::next_expiry`. -/
def nextExpiry (buffer : RenderBuffer latest) : Option (Instant latest) :=
  (buffer.lines.filterMap MessageLine.expiresAt).min?

end RenderBuffer

/-! ### The view -/

/-- `RoomView`, as far as its message lines are concerned. -/
structure RoomView (latest : Nat) where
  messages : RenderBuffer latest
  messageTimeoutInterval : Option Nat

namespace RoomView

/-- `RoomView::new`, whose buffer has the default capacity. -/
def new : RoomView latest := ⟨.withCapacity 256, none⟩

/-- `RoomView::set_message_timeout`. -/
def setMessageTimeout (view : RoomView latest) (interval : Option Nat) : RoomView latest :=
  let interval := interval.filter (0 < ·)
  { messages := view.messages.setExpiry (interval.map Duration.fromSecs)
    messageTimeoutInterval := interval }

/-- `RoomView::tick_message_timeout`, with whether a line was removed. -/
def tickMessageTimeout (view : RoomView latest) (now : Instant latest) : RoomView latest × Bool :=
  if view.messageTimeoutInterval.isNone then (view, false)
  else ({ view with messages := (view.messages.expireDue now).1 },
    decide (0 < (view.messages.expireDue now).2))

/-- `RoomView::push_message`, with what its clocks read. -/
def pushMessage (view : RoomView latest) (text : String) (style : LineStyle)
    (nickname : Option NicknameSpan) (timestamp : GmtTimestamp) (createdAt : Instant latest) :
    RoomView latest :=
  let expiresAt := view.messageTimeoutInterval.bind fun seconds =>
    createdAt.checkedAdd (Duration.fromSecs seconds)
  { view with
    messages := view.messages.push ⟨text, style, nickname, timestamp, createdAt, expiresAt⟩ }

/-- `RoomView::clear_messages`. -/
def clearMessages (view : RoomView latest) : RoomView latest :=
  { view with messages := view.messages.clear }

/-- `RoomView::next_message_expiry`. -/
def nextMessageExpiry (view : RoomView latest) : Option (Instant latest) :=
  view.messages.nextExpiry

end RoomView

/-- What can happen to the message lines. -/
inductive LineEvent (latest : Nat)
  | push (text : String) (style : LineStyle) (nickname : Option NicknameSpan)
    (timestamp : GmtTimestamp) (createdAt : Instant latest)
  | timeout (interval : Option Nat)
  | clear
  | tick (now : Instant latest)

namespace RoomView

def apply (view : RoomView latest) : LineEvent latest → RoomView latest
  | .push text style nickname timestamp createdAt =>
    view.pushMessage text style nickname timestamp createdAt
  | .timeout interval => view.setMessageTimeout interval
  | .clear => view.clearMessages
  | .tick now => (view.tickMessageTimeout now).1

def run (view : RoomView latest) (events : List (LineEvent latest)) : RoomView latest :=
  events.foldl apply view

end RoomView

namespace LineEvent

/-- The instant a line is created at. -/
def createdAt? : LineEvent latest → Option (Instant latest)
  | .push _ _ _ _ createdAt => some createdAt
  | _ => none

/-- The lines pushed since the last clear. -/
def pushed (lines : List (MessageLine latest)) : LineEvent latest → List (MessageLine latest)
  | .push text style nickname timestamp createdAt =>
    lines ++ [⟨text, style, nickname, timestamp, createdAt, none⟩]
  | .clear => []
  | _ => lines

def pushedSince (events : List (LineEvent latest)) : List (MessageLine latest) :=
  events.foldl pushed []

end LineEvent

/-! ### One event -/

/-- In a list whose later entries pass a test once an earlier one does, what passes is a suffix. -/
private theorem filter_suffix {α : Type} {test : α → Bool} {entries : List α}
    (h : entries.Pairwise fun earlier later => test earlier = true → test later = true) :
    entries.filter test <:+ entries := by
  induction entries with
  | nil => exact List.suffix_rfl
  | cons entry entries ih =>
      obtain ⟨hlater, hrest⟩ := List.pairwise_cons.mp h
      by_cases hentry : test entry = true
      · have hall : entries.filter test = entries :=
          List.filter_eq_self.mpr fun later hmem => hlater later hmem hentry
        simp only [List.filter_cons_of_pos hentry, hall, List.suffix_rfl]
      · rw [List.filter_cons_of_neg hentry]
        exact (ih hrest).trans (List.suffix_cons _ _)

theorem Instant.checkedAdd_eq_some {instant deadline : Instant latest} {age : Duration} :
    instant.checkedAdd age = some deadline ↔ deadline.val = instant.val + age := by
  unfold Instant.checkedAdd
  split
  · rw [Option.some.injEq, Fin.ext_iff]
    exact eq_comm
  · have hdeadline := deadline.isLt
    simp only [reduceCtorEq, false_iff]
    omega

/-- A deadline past the last instant is never reached. -/
theorem Instant.all_checkedAdd (instant : Instant latest) (age : Duration) (now : Instant latest) :
    (instant.checkedAdd age).all (now < ·) = decide (now.val < instant.val + age) := by
  unfold Instant.checkedAdd
  split
  · rfl
  · have hnow := now.isLt
    simp only [Option.all_none]
    exact (decide_eq_true (by omega)).symm

namespace RoomView

/-- The deadline of a line under the interval in force. -/
def deadline (view : RoomView latest) (line : MessageLine latest) : Option (Instant latest) :=
  view.messageTimeoutInterval.bind fun seconds =>
    line.createdAt.checkedAdd (Duration.fromSecs seconds)

/-- What is known of a view: its lines are the last ones pushed, each with the deadline of the
interval in force. -/
structure Dated (view : RoomView latest) (pushed : List (MessageLine latest)) : Prop where
  suffix : view.messages.lines.map MessageLine.undated <:+ pushed
  dated : ∀ line ∈ view.messages.lines, line.expiresAt = view.deadline line

variable {view : RoomView latest} {pushed : List (MessageLine latest)}

/-- A tick keeps the lines younger than the interval. -/
theorem Dated.tick_lines (h : view.Dated pushed) {seconds : Nat}
    (hinterval : view.messageTimeoutInterval = some seconds) (now : Instant latest) :
    (view.tickMessageTimeout now).1.messages.lines = view.messages.lines.filter fun line =>
      decide (now.val < line.createdAt.val + Duration.fromSecs seconds) := by
  simp only [tickMessageTimeout, hinterval, Option.isNone_some, Bool.false_eq_true, if_false,
    RenderBuffer.expireDue]
  apply List.filter_congr
  intro line hline
  rw [h.dated line hline, deadline, hinterval, Option.bind_some, Instant.all_checkedAdd]

theorem tick_none (hinterval : view.messageTimeoutInterval = none) (now : Instant latest) :
    (view.tickMessageTimeout now).1 = view := by
  simp [tickMessageTimeout, hinterval]

@[simp] theorem interval_tick (now : Instant latest) :
    (view.tickMessageTimeout now).1.messageTimeoutInterval = view.messageTimeoutInterval := by
  unfold tickMessageTimeout
  split <;> rfl

theorem Dated.tick (h : view.Dated pushed)
    (hsorted : pushed.Pairwise fun earlier later => earlier.createdAt ≤ later.createdAt)
    (now : Instant latest) : (view.tickMessageTimeout now).1.Dated pushed := by
  cases hinterval : view.messageTimeoutInterval with
  | none => rwa [tick_none hinterval]
  | some seconds =>
      have hlines := h.tick_lines hinterval now
      have hages : view.messages.lines.Pairwise fun earlier later =>
          earlier.createdAt ≤ later.createdAt := by
        have hmap := hsorted.sublist h.suffix.sublist
        rwa [List.pairwise_map] at hmap
      constructor
      · rw [hlines]
        apply List.IsSuffix.trans _ h.suffix
        apply List.IsSuffix.map
        apply filter_suffix
        apply hages.imp
        intro earlier later hle hearlier
        have hle : earlier.createdAt.val ≤ later.createdAt.val := hle
        simp only [decide_eq_true_eq] at hearlier ⊢
        omega
      · intro line hline
        rw [hlines] at hline
        rw [deadline, interval_tick]
        exact h.dated line (List.mem_of_mem_filter hline)

theorem Dated.setMessageTimeout (h : view.Dated pushed) (interval : Option Nat) :
    (view.setMessageTimeout interval).Dated pushed := by
  constructor
  · have hundated : (view.setMessageTimeout interval).messages.lines.map MessageLine.undated =
        view.messages.lines.map MessageLine.undated := by
      simp [RoomView.setMessageTimeout, RenderBuffer.setExpiry, MessageLine.undated]
    rw [hundated]
    exact h.suffix
  · intro line hline
    simp only [RoomView.setMessageTimeout, RenderBuffer.setExpiry, List.mem_map] at hline
    obtain ⟨line, -, rfl⟩ := hline
    simp only [RoomView.setMessageTimeout, deadline, Option.bind_map]
    rfl

theorem Dated.clearMessages : view.clearMessages.Dated [] :=
  ⟨List.suffix_rfl, fun _ hline => absurd hline List.not_mem_nil⟩

theorem lines_push (buffer : RenderBuffer latest) (line : MessageLine latest) :
    ∃ kept, kept <:+ buffer.lines ∧
      ((buffer.push line).lines = kept ++ [line] ∨ (buffer.push line).lines = []) := by
  unfold RenderBuffer.push
  split
  · rename_i hzero
    have hbounded := buffer.bounded
    rw [hzero, Nat.le_zero_eq, List.length_eq_zero_iff] at hbounded
    exact ⟨_, List.suffix_rfl, .inr hbounded⟩
  split
  · exact ⟨_, List.tail_suffix _, .inl rfl⟩
  · exact ⟨_, List.suffix_rfl, .inl rfl⟩

theorem Dated.pushMessage (h : view.Dated pushed) (text : String) (style : LineStyle)
    (nickname : Option NicknameSpan) (timestamp : GmtTimestamp) (createdAt : Instant latest) :
    (view.pushMessage text style nickname timestamp createdAt).Dated
      (pushed ++ [⟨text, style, nickname, timestamp, createdAt, none⟩]) := by
  let line : MessageLine latest := ⟨text, style, nickname, timestamp, createdAt,
    view.messageTimeoutInterval.bind fun seconds =>
      createdAt.checkedAdd (Duration.fromSecs seconds)⟩
  obtain ⟨kept, hkept, hlines⟩ := lines_push view.messages line
  have hmessages : (view.pushMessage text style nickname timestamp createdAt).messages =
    view.messages.push line := rfl
  obtain hlines | hlines := hlines
  · constructor
    · rw [hmessages, hlines, List.map_append]
      exact List.suffix_append_self_iff.mpr ((hkept.map _).trans h.suffix)
    · intro line' hline
      rw [hmessages, hlines] at hline
      obtain hline | hline := List.mem_append.mp hline
      · exact h.dated line' (hkept.mem hline)
      · rw [List.mem_singleton.mp hline]
        rfl
  · constructor
    · rw [hmessages, hlines]
      exact List.nil_suffix
    · intro line' hline
      rw [hmessages, hlines] at hline
      exact absurd hline List.not_mem_nil

theorem Dated.expiresAt_eq_some (h : view.Dated pushed) {line : MessageLine latest}
    (hline : line ∈ view.messages.lines) {deadline : Instant latest} :
    line.expiresAt = some deadline ↔ ∃ seconds, view.messageTimeoutInterval = some seconds ∧
      deadline.val = line.createdAt.val + Duration.fromSecs seconds := by
  rw [h.dated line hline, RoomView.deadline, Option.bind_eq_some_iff]
  simp only [Instant.checkedAdd_eq_some]

/-- The next expiry is the first of the deadlines. -/
theorem Dated.next_first (h : view.Dated pushed) {next : Instant latest}
    (hnext : view.nextMessageExpiry = some next) :
    ∃ seconds, view.messageTimeoutInterval = some seconds ∧
      (∃ line ∈ view.messages.lines,
        next.val = line.createdAt.val + Duration.fromSecs seconds) ∧
      ∀ line ∈ view.messages.lines,
        next.val ≤ line.createdAt.val + Duration.fromSecs seconds := by
  rw [nextMessageExpiry, RenderBuffer.nextExpiry, List.min?_eq_some_iff] at hnext
  obtain ⟨hmem, hleast⟩ := hnext
  obtain ⟨line, hline, hexpires⟩ := List.mem_filterMap.mp hmem
  obtain ⟨seconds, hinterval, hdeadline⟩ := (h.expiresAt_eq_some hline).mp hexpires
  refine ⟨seconds, hinterval, ⟨line, hline, hdeadline⟩, fun other hother => ?_⟩
  by_cases hlatest : other.createdAt.val + Duration.fromSecs seconds < latest + 1
  · have hexpires' : other.expiresAt =
        some ⟨other.createdAt.val + Duration.fromSecs seconds, hlatest⟩ :=
      (h.expiresAt_eq_some hother).mpr ⟨seconds, hinterval, rfl⟩
    exact hleast _ (List.mem_filterMap.mpr ⟨other, hother, hexpires'⟩)
  · have hlt := next.isLt
    omega

/-- Without a next expiry no line has a deadline that the clock reaches. -/
theorem Dated.next_none (h : view.Dated pushed) (hnext : view.nextMessageExpiry = none)
    {seconds : Nat} (hinterval : view.messageTimeoutInterval = some seconds)
    {line : MessageLine latest} (hline : line ∈ view.messages.lines) :
    latest < line.createdAt.val + Duration.fromSecs seconds := by
  rw [nextMessageExpiry, RenderBuffer.nextExpiry, List.min?_eq_none_iff] at hnext
  by_contra hlatest
  have hexpires : line.expiresAt =
      some ⟨line.createdAt.val + Duration.fromSecs seconds, by omega⟩ :=
    (h.expiresAt_eq_some hline).mpr ⟨seconds, hinterval, rfl⟩
  exact List.ne_nil_of_mem (List.mem_filterMap.mpr ⟨line, hline, hexpires⟩) hnext

/-- Until the next expiry a tick removes nothing. -/
theorem Dated.tick_before (h : view.Dated pushed) {now : Instant latest}
    (hbefore : ∀ next, view.nextMessageExpiry = some next → now < next) :
    (view.tickMessageTimeout now).1.messages.lines = view.messages.lines := by
  cases hinterval : view.messageTimeoutInterval with
  | none => rw [tick_none hinterval]
  | some seconds =>
      rw [h.tick_lines hinterval, List.filter_eq_self]
      intro line hline
      rw [decide_eq_true_eq]
      cases hnext : view.nextMessageExpiry with
      | none =>
          have hlate := h.next_none hnext hinterval hline
          have hnow := now.isLt
          omega
      | some next =>
          obtain ⟨seconds', hinterval', -, hleast⟩ := h.next_first hnext
          rw [hinterval, Option.some.injEq] at hinterval'
          subst hinterval'
          exact Nat.lt_of_lt_of_le (hbefore next hnext) (hleast line hline)

end RoomView

/-! ### Whole runs -/

namespace LineEvent

theorem pushedSince_concat (events : List (LineEvent latest)) (event : LineEvent latest) :
    pushedSince (events ++ [event]) = pushed (pushedSince events) event := by
  rw [pushedSince, List.foldl_append]
  rfl

/-- The lines pushed since the last clear were created at the last of the instants. -/
theorem createdAt_pushedSince (events : List (LineEvent latest)) :
    (pushedSince events).map MessageLine.createdAt <:+ events.filterMap createdAt? := by
  induction events using List.reverseRecOn with
  | nil => exact List.suffix_rfl
  | append_singleton events event ih =>
      rw [pushedSince_concat, List.filterMap_append]
      cases event with
      | push text style nickname timestamp createdAt =>
          rw [pushed, List.map_append]
          exact List.suffix_append_self_iff.mpr ih
      | clear => exact List.nil_suffix
      | timeout interval =>
          change _ <:+ _ ++ []
          rwa [List.append_nil]
      | tick now =>
          change _ <:+ _ ++ []
          rwa [List.append_nil]

end LineEvent

namespace RoomView

theorem run_concat (view : RoomView latest) (events : List (LineEvent latest))
    (event : LineEvent latest) : view.run (events ++ [event]) = (view.run events).apply event := by
  rw [run, List.foldl_append]
  rfl

theorem Dated.run (capacity : Nat) {events : List (LineEvent latest)}
    (hclock : (events.filterMap LineEvent.createdAt?).Pairwise (· ≤ ·)) :
    (RoomView.run ⟨.withCapacity capacity, none⟩ events).Dated (LineEvent.pushedSince events) := by
  induction events using List.reverseRecOn with
  | nil => exact ⟨List.suffix_rfl, fun _ hline => absurd hline List.not_mem_nil⟩
  | append_singleton events event ih =>
      rw [List.filterMap_append] at hclock
      have hbefore := hclock.sublist (List.sublist_append_left _ _)
      have hdated := ih hbefore
      have hsorted := hbefore.sublist (LineEvent.createdAt_pushedSince events).sublist
      rw [List.pairwise_map] at hsorted
      rw [run_concat, LineEvent.pushedSince_concat]
      cases event with
      | push text style nickname timestamp createdAt => exact hdated.pushMessage ..
      | timeout interval => exact hdated.setMessageTimeout interval
      | clear => exact .clearMessages
      | tick now => exact hdated.tick hsorted now

theorem capacity_apply (view : RoomView latest) (event : LineEvent latest) :
    (view.apply event).messages.capacity = view.messages.capacity := by
  cases event with
  | push text style nickname timestamp createdAt =>
      simp only [apply, RoomView.pushMessage, RenderBuffer.push]
      split
      · rfl
      split <;> rfl
  | timeout interval => rfl
  | clear => rfl
  | tick now =>
      simp only [apply, tickMessageTimeout]
      split <;> rfl

theorem capacity_run (view : RoomView latest) (events : List (LineEvent latest)) :
    (view.run events).messages.capacity = view.messages.capacity := by
  induction events using List.reverseRecOn with
  | nil => rfl
  | append_singleton events event ih => rw [run_concat, capacity_apply, ih]

/-- Whatever is pushed, set, cleared and ticked: the lines are the last ones pushed since the last
clear, a tick keeps exactly those that are younger than the interval in force, and nothing is due
before the next expiry. -/
theorem messages_expire (capacity : Nat) {events : List (LineEvent latest)}
    (hclock : (events.filterMap LineEvent.createdAt?).Pairwise (· ≤ ·)) {view : RoomView latest}
    (hview : RoomView.run ⟨.withCapacity capacity, none⟩ events = view) :
    view.messages.lines.map MessageLine.undated <:+ LineEvent.pushedSince events ∧
    view.messages.lines.length ≤ capacity ∧
    (∀ seconds now, view.messageTimeoutInterval = some seconds →
      (view.tickMessageTimeout now).1.messages.lines = view.messages.lines.filter fun line =>
        decide (now.val < line.createdAt.val + Duration.fromSecs seconds)) ∧
    (view.messageTimeoutInterval = none → ∀ now, (view.tickMessageTimeout now).1 = view) ∧
    (∀ interval seconds now,
      (view.setMessageTimeout interval).messageTimeoutInterval = some seconds →
        ∀ line ∈ ((view.setMessageTimeout interval).tickMessageTimeout now).1.messages.lines,
          now.val < line.createdAt.val + Duration.fromSecs seconds) ∧
    (∀ next, view.nextMessageExpiry = some next → ∃ seconds,
      view.messageTimeoutInterval = some seconds ∧
        (∃ line ∈ view.messages.lines,
          next.val = line.createdAt.val + Duration.fromSecs seconds) ∧
        ∀ line ∈ view.messages.lines,
          next.val ≤ line.createdAt.val + Duration.fromSecs seconds) ∧
    ∀ now, (∀ next, view.nextMessageExpiry = some next → now < next) →
      (view.tickMessageTimeout now).1.messages.lines = view.messages.lines := by
  have hdated : view.Dated (LineEvent.pushedSince events) := hview ▸ Dated.run capacity hclock
  have hcapacity : view.messages.capacity = capacity := hview ▸ capacity_run _ events
  refine ⟨hdated.suffix, hcapacity ▸ view.messages.bounded, ?_, tick_none, ?_, ?_, ?_⟩
  · intro seconds now hinterval
    exact hdated.tick_lines hinterval now
  · intro interval seconds now hinterval line hline
    rw [(hdated.setMessageTimeout interval).tick_lines hinterval, List.mem_filter] at hline
    exact of_decide_eq_true hline.2
  · intro next hnext
    exact hdated.next_first hnext
  · intro now hbefore
    exact hdated.tick_before hbefore

/-- Two lines, an interval set after the first, and one shortened after both. -/
def ageing : List (LineEvent (Duration.fromSecs 100)) :=
  [.push "a" .notice none ⟨0⟩ ⟨Duration.fromSecs 1, by decide⟩, .timeout (some 9),
    .push "b" .notice none ⟨3⟩ ⟨Duration.fromSecs 4, by decide⟩, .timeout (some 3)]

/-- Five seconds in, the first line is gone and the second one is not. -/
theorem messages_expire_ageing :
    ((RoomView.new.run ageing).tickMessageTimeout
      ⟨Duration.fromSecs 5, by decide⟩).1.messages.lines.map MessageLine.text = ["b"] := by
  have hclock : (ageing.filterMap LineEvent.createdAt?).Pairwise (· ≤ ·) := by decide
  have hview : RoomView.run ⟨.withCapacity 256, none⟩ ageing = RoomView.new.run ageing := rfl
  obtain ⟨-, -, htick, -⟩ := messages_expire 256 hclock hview
  rw [htick 3 ⟨Duration.fromSecs 5, by decide⟩ rfl]
  decide

end RoomView
end Veilroom
