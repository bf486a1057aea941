import Mathlib.Data.List.Basic
import Mathlib.Data.List.Forall2
import Mathlib.Logic.Function.Basic

/-!
Incremental readers: one value is read off the front of the input as soon as it is
complete, and what comes after it is never looked at. Such a reader gives the same
values however the input is cut into chunks.
-/

structure Incremental (ε α β : Type*) where
  /-- The first value and the input after it, or `none` while it is incomplete. -/
  next : List β → Except ε (Option (α × List β))
  next_shrinks : ∀ {input value rest}, next input = .ok (some (value, rest)) →
    rest.length < input.length
  next_append : ∀ {input value rest} more, next input = .ok (some (value, rest)) →
    next (input ++ more) = .ok (some (value, rest ++ more))
  next_error : ∀ {input error} more, next input = .error error →
    next (input ++ more) = .error error

namespace Incremental

variable {ε α β : Type*} (r : Incremental ε α β)

/-- Everything complete in the input, and what is left of it. -/
def drain (input : List β) : Except ε (List β × List α) :=
  match h : r.next input with
  | .error error => .error error
  | .ok none => .ok (input, [])
  | .ok (some (value, rest)) =>
    have : rest.length < input.length := r.next_shrinks h
    match drain rest with
    | .error error => .error error
    | .ok (left, values) => .ok (left, value :: values)
termination_by input.length

variable {r} {input left rest : List β} {value : α} {values : List α} {error : ε}

theorem drain_error (h : r.next input = .error error) : r.drain input = .error error := by
  rw [drain]
  split <;> simp_all

theorem drain_none (h : r.next input = .ok none) : r.drain input = .ok (input, []) := by
  rw [drain]
  split <;> simp_all

theorem drain_some (h : r.next input = .ok (some (value, rest))) :
    r.drain input = match r.drain rest with
      | .error error => .error error
      | .ok (left, values) => .ok (left, value :: values) := by
  rw [drain]
  split <;> simp_all

/-- What is drained from an input does not depend on what comes after it. -/
theorem drain_append (r : Incremental ε α β) (input more : List β) :
    r.drain (input ++ more) = match r.drain input with
      | .error error => .error error
      | .ok (left, values) =>
        match r.drain (left ++ more) with
        | .error error => .error error
        | .ok (left, values') => .ok (left, values ++ values') := by
  induction hsize : input.length using Nat.strongRecOn generalizing input with
  | ind size ih =>
      cases hnext : r.next input with
      | error error => rw [drain_error hnext, drain_error (r.next_error more hnext)]
      | ok found =>
          cases found with
          | none =>
              rw [drain_none hnext]
              cases hmore : r.drain (input ++ more) <;> simp [hmore]
          | some found =>
              obtain ⟨value, rest⟩ := found
              have hshrinks : rest.length < size := hsize ▸ r.next_shrinks hnext
              rw [drain_some hnext, drain_some (r.next_append more hnext), ih _ hshrinks rest rfl]
              cases r.drain rest with
              | error error => rfl
              | ok drained =>
                  obtain ⟨left, values⟩ := drained
                  cases hmore : r.drain (left ++ more) <;> simp [hmore]

/-- What is left holds no complete value. -/
theorem next_left (h : r.drain input = .ok (left, values)) : r.next left = .ok none := by
  induction hsize : input.length using Nat.strongRecOn generalizing input values with
  | ind size ih =>
      cases hnext : r.next input with
      | error error => rw [drain_error hnext] at h; cases h
      | ok found =>
          cases found with
          | none =>
              rw [drain_none hnext] at h
              cases h
              exact hnext
          | some found =>
              obtain ⟨value, rest⟩ := found
              rw [drain_some hnext] at h
              split at h
              · cases h
              · rename_i hrest
                cases h
                exact ih _ (hsize ▸ r.next_shrinks hnext) hrest rfl

theorem drain_left (h : r.drain input = .ok (left, values)) : r.drain left = .ok (left, []) :=
  drain_none (next_left h)

/-- If a value is always read off one of its codes, the input is the codes of the values
drained from it and then what is left. -/
theorem drain_codes {Codes : α → List β → Prop}
    (hcodes : ∀ {input value rest}, r.next input = .ok (some (value, rest)) →
      ∃ code, Codes value code ∧ input = code ++ rest)
    (h : r.drain input = .ok (left, values)) :
    ∃ codes, List.Forall₂ Codes values codes ∧ input = codes.flatten ++ left := by
  induction hsize : input.length using Nat.strongRecOn generalizing input values with
  | ind size ih =>
      cases hnext : r.next input with
      | error error => rw [drain_error hnext] at h; cases h
      | ok found =>
          cases found with
          | none =>
              rw [drain_none hnext] at h
              cases h
              exact ⟨[], .nil, rfl⟩
          | some found =>
              obtain ⟨value, rest⟩ := found
              rw [drain_some hnext] at h
              split at h
              · cases h
              · rename_i hrest
                cases h
                obtain ⟨code, hcode, rfl⟩ := hcodes hnext
                obtain ⟨codes, hall, rfl⟩ := ih _ (hsize ▸ r.next_shrinks hnext) hrest rfl
                refine ⟨code :: codes, .cons hcode hall, ?_⟩
                simp only [List.flatten_cons, List.append_assoc]

/-- Codes from which their values are read back are drained to exactly these values. -/
theorem drain_flatten {Codes : α → List β → Prop} (hnil : r.next [] = .ok none)
    (hcodes : ∀ {value code} rest, Codes value code →
      r.next (code ++ rest) = .ok (some (value, rest)))
    {codes : List (List β)} (h : List.Forall₂ Codes values codes) :
    r.drain codes.flatten = .ok ([], values) := by
  induction h with
  | nil => exact drain_none hnil
  | cons hcode hall ih => rw [List.flatten_cons, drain_some (hcodes _ hcode), ih]

variable (r)

/-- Chunks fed one after the other, each to what the chunks before it left, up to the first
error. -/
def feeds (left : List β) : List (List β) → Except ε (List β × List α)
  | [] => .ok (left, [])
  | chunk :: chunks =>
    match r.drain (left ++ chunk) with
    | .error error => .error error
    | .ok (left, values) =>
      match feeds left chunks with
      | .error error => .error error
      | .ok (left, values') => .ok (left, values ++ values')

variable {r}

/-- However the input is cut, feeding its chunks drains the whole of it. -/
theorem feeds_eq_drain (chunks : List (List β)) (hleft : r.drain left = .ok (left, [])) :
    r.feeds left chunks = r.drain (left ++ chunks.flatten) := by
  induction chunks generalizing left with
  | nil => simp [feeds, hleft]
  | cons chunk chunks ih =>
      rw [List.flatten_cons, ← List.append_assoc, drain_append]
      cases h : r.drain (left ++ chunk) with
      | error error => simp only [feeds, h]
      | ok drained =>
          obtain ⟨left', values⟩ := drained
          simp only [feeds, h, ih (drain_left h)]

end Incremental
