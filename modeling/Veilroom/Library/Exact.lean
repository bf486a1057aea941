import Mathlib.Data.List.Basic

/-!
Programs that write to a stream and read an exact number of items from it.

Such a program looks at no more of what comes than it asks for: what it comes to does not depend on
what comes after, and everything after it is still there for the next reader. Two of them may talk
to each other, each hearing what the other wrote in pieces of any size.
-/
namespace Exact
universe u v w x y

/-- A program over items of `β`, that fails with an `ε` or comes to an `α`. -/
inductive Script (β : Type u) (ε : Type v) (α : Type w)
  | fail (error : ε)
  | done (value : α)
  | write (items : List β) (next : Script β ε α)
  | read (count : Nat) (next : List β → Script β ε α)

/-- What a program wrote, what it left of its input, and its result; none while it waits. -/
structure Trace (β : Type u) (ε : Type v) (α : Type w) where
  written : List β
  rest : List β
  result : Option (Except ε α)

namespace Script
variable {β : Type u} {ε : Type v} {α : Type w}

/-- A program on everything that comes. -/
def run : Script β ε α → List β → Trace β ε α
  | fail error, input => ⟨[], input, some (.error error)⟩
  | done value, input => ⟨[], input, some (.ok value)⟩
  | write items next, input =>
    let t := next.run input
    { t with written := items ++ t.written }
  | read count next, input =>
    if count ≤ input.length then (next (input.take count)).run (input.drop count)
    else ⟨[], input, none⟩

variable {items input : List β} {next : Script β ε α} {count : Nat} {after : List β → Script β ε α}

@[simp] theorem run_write : (write items next).run input =
    { next.run input with written := items ++ (next.run input).written } :=
  rfl

theorem run_read {front back : List β} (h : front.length = count) :
    (read count after).run (front ++ back) = (after front).run back := by
  rw [run, if_pos (by simp [h]), ← h, List.take_left, List.drop_left]

theorem run_read_waits (h : input.length < count) :
    (read count after).run input = ⟨[], input, none⟩ := by
  rw [run, if_neg (by omega)]

/-- A program that reads waits, or goes on with what it asked for. -/
theorem run_read_cases (count : Nat) (after : List β → Script β ε α) (input : List β) :
    (read count after).run input = ⟨[], input, none⟩ ∨
      ∃ front back, input = front ++ back ∧ front.length = count ∧
        (read count after).run input = (after front).run back := by
  by_cases hcount : count ≤ input.length
  · refine .inr ⟨input.take count, input.drop count, (List.take_append_drop count input).symm,
      List.length_take_of_le hcount, ?_⟩
    rw [run, if_pos hcount]
  · exact .inl (run_read_waits (by omega))

/-- A result does not depend on what comes after it. -/
theorem run_append (s : Script β ε α) (input more : List β) {result : Except ε α}
    (h : (s.run input).result = some result) :
    s.run (input ++ more) = { s.run input with rest := (s.run input).rest ++ more } := by
  induction s generalizing input with
  | fail error => rfl
  | done value => rfl
  | write items next ih =>
      rw [run, run, ih input h]
  | read count after ih =>
      rw [run] at h
      by_cases hcount : count ≤ input.length
      · rw [if_pos hcount] at h
        rw [run, run, if_pos hcount, if_pos (by rw [List.length_append]; omega),
          List.take_append_of_le_length hcount, List.drop_append_of_le_length hcount]
        exact ih _ _ h
      · rw [if_neg hcount] at h
        cases h

/-- What was written stays written when more comes. -/
theorem written_prefix (s : Script β ε α) (input more : List β) :
    (s.run input).written <+: (s.run (input ++ more)).written := by
  induction s generalizing input with
  | fail error => exact List.prefix_rfl
  | done value => exact List.prefix_rfl
  | write items next ih => exact (List.prefix_append_right_inj items).mpr (ih input)
  | read count after ih =>
      by_cases hcount : count ≤ input.length
      · rw [run, run, if_pos hcount, if_pos (by rw [List.length_append]; omega),
          List.take_append_of_le_length hcount, List.drop_append_of_le_length hcount]
        exact ih _ _
      · rw [run, if_neg hcount]
        exact List.nil_prefix

theorem written_mono (s : Script β ε α) {first longer : List β} (h : first <+: longer) :
    (s.run first).written <+: (s.run longer).written := by
  obtain ⟨more, rfl⟩ := h
  exact s.written_prefix first more

end Script

/-! ### Two programs that talk to each other -/

/-- What each of two programs has heard of the other. -/
structure Heard (β : Type u) where
  client : List β
  server : List β

section Talk
variable {β : Type u} {ε : Type v} {α : Type w} {δ : Type x} {γ : Type y}

/-- What two programs can have heard, with any part of what one wrote on the way to the other. -/
inductive Talk (client : Script β ε α) (server : Script β δ γ) : Heard β → Prop
  | start : Talk client server ⟨[], []⟩
  | toClient {s : Heard β} {items : List β} (before : Talk client server s)
      (sent : s.client ++ items <+: (server.run s.server).written) :
      Talk client server { s with client := s.client ++ items }
  | toServer {s : Heard β} {items : List β} (before : Talk client server s)
      (sent : s.server ++ items <+: (client.run s.client).written) :
      Talk client server { s with server := s.server ++ items }

/-- Nothing is on the way. -/
def Heard.Quiet (client : Script β ε α) (server : Script β δ γ) (s : Heard β) : Prop :=
  s.client = (server.run s.server).written ∧ s.server = (client.run s.client).written

variable {client : Script β ε α} {server : Script β δ γ}

/-- Where two whole sides answer each other, no talk goes beyond them. -/
theorem Talk.heard_prefix {s : Heard β} {said answer : List β} (h : Talk client server s)
    (hsaid : (client.run answer).written = said) (hanswer : (server.run said).written = answer) :
    s.client <+: answer ∧ s.server <+: said := by
  induction h with
  | start => exact ⟨List.nil_prefix, List.nil_prefix⟩
  | toClient before sent ih =>
      refine ⟨sent.trans ?_, ih.2⟩
      rw [← hanswer]
      exact server.written_mono ih.2
  | toServer before sent ih =>
      refine ⟨ih.1, sent.trans ?_⟩
      rw [← hsaid]
      exact client.written_mono ih.1

end Talk
end Exact
