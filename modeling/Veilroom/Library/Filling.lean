import Mathlib.Algebra.GroupWithZero.Nat
import Mathlib.Data.List.Chain
import Mathlib.Tactic.Common

/-!
Filling lines of a bounded width.

Items of a given cost are put on lines in order. A line takes the next item
when it still fits (`Filled`), so there is only one way to fill the lines.
-/
namespace Fill
universe u v
variable {α : Type u} {β : Type v}

/-- What the items of a line cost together. -/
def total (cost : α → Nat) (line : List α) : Nat := (line.map cost).sum

/-- The first item of the second line would not have fitted on the first one. -/
def Overflows (cost : α → Nat) (width : Nat) (line line' : List α) : Prop :=
  ∀ item ∈ line'.head?, width < total cost line + cost item

/-- The lines that the items fill. -/
structure Filled (cost : α → Nat) (width : Nat) (items : List α) (lines : List (List α)) :
    Prop where
  flatten : lines.flatten = items
  nonempty : ∀ line ∈ lines, line ≠ []
  fits : ∀ line ∈ lines, total cost line ≤ width
  overflows : lines.IsChain (Overflows cost width)

/-- The lines that the items fill so far, the last of them still open. -/
structure Filling (cost : α → Nat) (width : Nat) (items : List α) (lines : List (List α))
    (line : List α) : Prop where
  flatten : lines.flatten ++ line = items
  nonempty : ∀ line ∈ lines, line ≠ []
  fits : ∀ line ∈ lines, total cost line ≤ width
  fits_line : total cost line ≤ width
  overflows : (lines ++ [line]).IsChain (Overflows cost width)
  first : line = [] → lines = []

variable {cost : α → Nat} {width : Nat} {items : List α} {lines : List (List α)} {line : List α}

@[simp] theorem total_nil : total cost [] = 0 := rfl

@[simp] theorem total_cons (item : α) (line : List α) :
    total cost (item :: line) = cost item + total cost line := rfl

@[simp] theorem total_append (line line' : List α) :
    total cost (line ++ line') = total cost line + total cost line' := by
  simp [total]

theorem total_map (f : β → α) (line : List β) :
    total cost (line.map f) = total (cost ∘ f) line := by
  simp [total]

namespace Filling

theorem start : Filling cost width [] [] [] where
  flatten := rfl
  nonempty _ hmem := absurd hmem List.not_mem_nil
  fits _ hmem := absurd hmem List.not_mem_nil
  fits_line := Nat.zero_le _
  overflows := .singleton _
  first _ := rfl

/-- The next item still fits. -/
theorem extend (h : Filling cost width items lines line) {item : α}
    (hfits : total cost line + cost item ≤ width) :
    Filling cost width (items ++ [item]) lines (line ++ [item]) where
  flatten := by rw [← List.append_assoc, h.flatten]
  nonempty := h.nonempty
  fits := h.fits
  fits_line := by simpa using hfits
  overflows := by
    cases line with
    | nil =>
        rw [h.first rfl]
        exact .singleton _
    | cons head line =>
        have hchain := h.overflows
        rw [List.isChain_append] at hchain ⊢
        refine ⟨hchain.1, .singleton _, fun last hlast _ hhead item' hitem => ?_⟩
        cases hhead
        exact hchain.2.2 last hlast _ rfl item' hitem
  first hnil := by simp at hnil

/-- The open line is the last one. -/
theorem close (h : Filling cost width items lines line) (hline : line ≠ []) :
    Filled cost width items (lines ++ [line]) where
  flatten := by rw [List.flatten_append, List.flatten_singleton, h.flatten]
  nonempty := by
    intro line' hmem
    obtain hmem | hmem := List.mem_append.mp hmem
    · exact h.nonempty line' hmem
    · rw [List.mem_singleton.mp hmem]
      exact hline
  fits := by
    intro line' hmem
    obtain hmem | hmem := List.mem_append.mp hmem
    · exact h.fits line' hmem
    · rw [List.mem_singleton.mp hmem]
      exact h.fits_line
  overflows := h.overflows

/-- The next item does not fit and begins a line. -/
theorem wrap (h : Filling cost width items lines line) {item : α}
    (hover : width < total cost line + cost item) (hitem : cost item ≤ width) :
    Filling cost width (items ++ [item]) (lines ++ [line]) [item] := by
  have hline : line ≠ [] := by
    rintro rfl
    rw [total_nil, Nat.zero_add] at hover
    omega
  have hclosed := h.close hline
  refine ⟨by rw [hclosed.flatten], hclosed.nonempty, hclosed.fits,
    by simpa using hitem, ?_, by simp⟩
  rw [List.append_assoc, List.singleton_append, List.isChain_append_cons_cons]
  refine ⟨h.overflows, ?_, .singleton _⟩
  intro item' hhead
  cases hhead
  exact hover

end Filling

namespace Filled

theorem map {f : β → α} {items : List β} {lines : List (List β)}
    (h : Filled (cost ∘ f) width items lines) :
    Filled cost width (items.map f) (lines.map (List.map f)) where
  flatten := by rw [← h.flatten, List.map_flatten]
  nonempty := by
    intro line hmem
    obtain ⟨line, hline, rfl⟩ := List.mem_map.mp hmem
    simpa using h.nonempty line hline
  fits := by
    intro line hmem
    obtain ⟨line, hline, rfl⟩ := List.mem_map.mp hmem
    rw [total_map]
    exact h.fits line hline
  overflows := by
    rw [List.isChain_map]
    apply h.overflows.imp
    intro line line' hover item hhead
    rw [List.head?_map, Option.mem_def, Option.map_eq_some_iff] at hhead
    obtain ⟨item, hhead, rfl⟩ := hhead
    rw [total_map]
    exact hover item hhead

theorem tail (h : Filled cost width items (line :: lines)) :
    Filled cost width lines.flatten lines where
  flatten := rfl
  nonempty line' hmem := h.nonempty line' (List.mem_cons_of_mem _ hmem)
  fits line' hmem := h.fits line' (List.mem_cons_of_mem _ hmem)
  overflows := h.overflows.tail

/-- What follows the first line does not fit on it. -/
private theorem nothing_fits (h : Filled cost width items (line :: lines)) {more rest : List α}
    (hfits : total cost (line ++ more) ≤ width) (hrest : lines.flatten = more ++ rest) :
    more = [] := by
  cases more with
  | nil => rfl
  | cons item more =>
      cases lines with
      | nil => cases hrest
      | cons next lines =>
          have hnext : next ≠ [] := h.nonempty next (by simp)
          obtain ⟨first, next, rfl⟩ := List.exists_cons_of_ne_nil hnext
          have hover := (List.isChain_cons_cons.mp h.overflows).1 first rfl
          rw [List.flatten_cons, List.cons_append, List.cons_append] at hrest
          obtain ⟨rfl, -⟩ := List.cons.inj hrest
          rw [total_append, total_cons] at hfits
          omega

/-- There is one way to fill the lines. -/
theorem unique {lines' : List (List α)} (h : Filled cost width items lines)
    (h' : Filled cost width items lines') : lines = lines' := by
  induction lines generalizing items lines' with
  | nil =>
      cases lines' with
      | nil => rfl
      | cons line' lines' =>
          have hempty := h'.flatten.trans h.flatten.symm
          rw [List.flatten_cons, List.flatten_nil, List.append_eq_nil_iff] at hempty
          exact absurd hempty.1 (h'.nonempty line' List.mem_cons_self)
  | cons line lines ih =>
      cases lines' with
      | nil =>
          have hempty := h.flatten.trans h'.flatten.symm
          rw [List.flatten_cons, List.flatten_nil, List.append_eq_nil_iff] at hempty
          exact absurd hempty.1 (h.nonempty line List.mem_cons_self)
      | cons line' lines' =>
          have hsame := h.flatten.trans h'.flatten.symm
          have hfits := h.fits line List.mem_cons_self
          have hfits' := h'.fits line' List.mem_cons_self
          rw [List.flatten_cons, List.flatten_cons] at hsame
          obtain ⟨more, rfl, hrest⟩ | ⟨more, rfl, hrest⟩ := List.append_eq_append_iff.mp hsame
          · obtain rfl := h.nothing_fits hfits' hrest
            have htail : Filled cost width lines.flatten lines' := hrest ▸ h'.tail
            rw [List.append_nil, ih h.tail htail]
          · obtain rfl := h'.nothing_fits hfits hrest
            have htail : Filled cost width lines'.flatten lines := hrest ▸ h.tail
            rw [List.append_nil, ih htail h'.tail]

end Filled
end Fill
