import Mathlib.Data.List.Nodup

/-!
Logs: what is said of messages by the order they were sent in.
-/

/-! ### Guarded logs

A list is guarded when every element is good, except that as long as nothing has stopped it an
element may come early. -/

namespace List
universe u
variable {α : Type u} {stop good good' : α → Prop} {early early' : Prop} {l : List α} {x : α}

/-- Every element is good, but for those that may come early: no element before them stops it. -/
def Guarded (stop good : α → Prop) : Prop → List α → Prop
  | _, [] => True
  | early, x :: rest => (early ∨ good x) ∧ Guarded stop good (early ∧ ¬ stop x) rest

theorem Guarded.mono (h : Guarded stop good early l) (hearly : early → early')
    (hgood : ∀ x, good x → good' x) : Guarded stop good' early' l := by
  induction l generalizing early early' with
  | nil => trivial
  | cons x rest ih => exact ⟨h.1.imp hearly (hgood x), ih h.2 (And.imp_left hearly)⟩

theorem guarded_of_early (h : ∀ x ∈ l, ¬ stop x) (hearly : early) : Guarded stop good early l := by
  induction l generalizing early with
  | nil => trivial
  | cons x rest ih =>
      rw [List.forall_mem_cons] at h
      exact ⟨.inl hearly, ih h.2 ⟨hearly, h.1⟩⟩

theorem Guarded.concat (h : Guarded stop good early l)
    (hx : (early ∧ ∀ y ∈ l, ¬ stop y) ∨ good x) : Guarded stop good early (l ++ [x]) := by
  induction l generalizing early with
  | nil => exact ⟨hx.imp_left And.left, trivial⟩
  | cons y rest ih =>
      refine ⟨h.1, ih h.2 (hx.imp_left fun hx => ?_)⟩
      rw [List.forall_mem_cons] at hx
      exact ⟨⟨hx.1, hx.2.1⟩, hx.2.2⟩

end List

/-! ### Readers of one log

Each has read some of its entries, in its order; when no entry occurs twice they agree on which of
two comes first. -/

namespace Sublog

variable {α : Type}

/-- `x` stands before `y`. -/
def Before (x y : α) (l : List α) : Prop := [x, y].Sublist l

instance [DecidableEq α] (x y : α) (l : List α) : Decidable (Before x y l) :=
  inferInstanceAs (Decidable (List.Sublist _ _))

/-- A reader of a log has its entries in the order of the log. -/
theorem before_iff {log part : List α} (hnodup : log.Nodup) (hpart : part.Sublist log) {x y : α}
    (hx : x ∈ part) (hy : y ∈ part) : Before x y part ↔ Before x y log := by
  refine ⟨fun h => h.trans hpart, fun h => ?_⟩
  induction hpart with
  | slnil => exact h
  | @cons part log z hpart ih =>
      obtain ⟨hz, hnodup⟩ := List.nodup_cons.mp hnodup
      have hne : x ≠ z := fun heq => hz (heq ▸ hpart.subset hx)
      exact ih hnodup hx hy ((List.sublist_cons_iff.mp h).resolve_right (by
        rintro ⟨rest, heq, -⟩
        exact hne (List.cons.inj heq).1))
  | @cons_cons part log z hpart ih =>
      obtain ⟨hz, hnodup⟩ := List.nodup_cons.mp hnodup
      obtain h | ⟨rest, heq, hrest⟩ := List.sublist_cons_iff.mp h
      · have hkept : ∀ w ∈ [x, y], w ≠ z := fun w hw heq => hz (heq ▸ h.subset hw)
        have hx' := (List.mem_cons.mp hx).resolve_left (hkept x (.head _))
        have hy' := (List.mem_cons.mp hy).resolve_left (hkept y (.tail _ (.head _)))
        exact (ih hnodup hx' hy' h).cons z
      · obtain ⟨rfl, rfl⟩ := List.cons.inj heq
        have hy' : y ∈ part := by
          refine (List.mem_cons.mp hy).resolve_left fun heq => ?_
          exact hz (heq ▸ List.singleton_sublist.mp hrest)
        exact (List.singleton_sublist.mpr hy').cons_cons x

/-- Two readers of a log agree on the order of what both have read. -/
theorem before_congr {log part part' : List α} (hnodup : log.Nodup) (hpart : part.Sublist log)
    (hpart' : part'.Sublist log) {x y : α} (hx : x ∈ part) (hy : y ∈ part) (hx' : x ∈ part')
    (hy' : y ∈ part') : Before x y part ↔ Before x y part' :=
  (before_iff hnodup hpart hx hy).trans (before_iff hnodup hpart' hx' hy').symm

end Sublog

/-! ### Numbered broadcasts

An entry is a message with its receiver. A broadcast puts one message into the log once for each
receiver, under a number above every number before it; then each receiver sees its numbers strictly
increase, and a number names one message. -/

namespace Broadcasts
universe u v
variable {κ : Type u} {μ : Type v} {number : μ → Nat}

/-- The later entry has a greater number, or is the same message to another receiver. -/
def Follows (number : μ → Nat) (older newer : κ × μ) : Prop :=
  number older.2 < number newer.2 ∨ older.2 = newer.2 ∧ older.1 ≠ newer.1

/-- A log whose entries follow each other, with numbers up to `top`. -/
structure Numbered (number : μ → Nat) (top : Nat) (log : List (κ × μ)) : Prop where
  ordered : log.Pairwise (Follows number)
  bounded : ∀ entry ∈ log, number entry.2 ≤ top

variable {top : Nat} {log : List (κ × μ)}

theorem Numbered.nil : Numbered number top ([] : List (κ × μ)) := ⟨.nil, nofun⟩

theorem Numbered.mono (h : Numbered number top log) {later : Nat} (hle : top ≤ later) :
    Numbered number later log :=
  ⟨h.ordered, fun entry hmem => Nat.le_trans (h.bounded entry hmem) hle⟩

/-- A broadcast under a new number. -/
theorem Numbered.broadcast (h : Numbered number top log) {message : μ} {n : Nat}
    (hnumber : number message = n) (hnew : top < n) {receivers : List κ}
    (hnodup : receivers.Nodup) :
    Numbered number n (log ++ receivers.map fun receiver => (receiver, message)) := by
  subst hnumber
  have hbelow : ∀ entry ∈ log, number entry.2 < number message := fun entry hmem =>
    Nat.lt_of_le_of_lt (h.bounded entry hmem) hnew
  constructor
  · refine List.pairwise_append.mpr ⟨h.ordered, ?_, ?_⟩
    · apply List.pairwise_map.mpr
      exact hnodup.imp fun hne => .inr ⟨rfl, hne⟩
    · intro older holder newer hnewer
      obtain ⟨receiver, -, rfl⟩ := List.mem_map.mp hnewer
      exact .inl (hbelow older holder)
  · intro entry hmem
    obtain hmem | hmem := List.mem_append.mp hmem
    · exact Nat.le_of_lt (hbelow entry hmem)
    · obtain ⟨receiver, -, rfl⟩ := List.mem_map.mp hmem
      exact Nat.le_refl _

/-- To one receiver the numbers strictly increase. -/
theorem Numbered.increasing (h : Numbered number top log) (receiver : κ) :
    log.Pairwise fun older newer => older.1 = receiver → newer.1 = receiver →
      number older.2 < number newer.2 := by
  refine h.ordered.imp ?_
  rintro older newer (hlt | ⟨-, hne⟩) holder hnewer
  · exact hlt
  · exact absurd (holder.trans hnewer.symm) hne

/-- A number names one message. -/
theorem Numbered.eq_of_number (h : Numbered number top log) {x y : κ × μ} (hx : x ∈ log)
    (hy : y ∈ log) (heq : number x.2 = number y.2) : x.2 = y.2 := by
  have hpairs : log.Pairwise fun x y => number x.2 = number y.2 → x.2 = y.2 := by
    refine h.ordered.imp ?_
    rintro older newer (hlt | ⟨hsame, -⟩) heq
    · omega
    · exact hsame
  exact hpairs.forall_of_forall_of_flip (fun _ _ _ => rfl)
    (hpairs.imp fun hxy heq => (hxy heq.symm).symm) hx hy heq

end Broadcasts
