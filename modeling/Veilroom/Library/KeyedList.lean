import Mathlib.Data.List.Nodup
import Mathlib.Data.List.Pairwise

/-!
Lists whose elements carry a key: changing the first element found, and
searching and erasing by a key no two elements share.
-/
namespace List
universe u v
variable {α : Type u} {β : Type v}

def modifyFirst (p : α → Bool) (f : α → α) : List α → List α
  | [] => []
  | a :: rest => if p a then f a :: rest else a :: modifyFirst p f rest

/-- A projection the change leaves alone is left alone on the whole list. -/
theorem map_modifyFirst (p : α → Bool) (f : α → α) (g : α → β) (h : ∀ a, g (f a) = g a)
    (l : List α) : (l.modifyFirst p f).map g = l.map g := by
  induction l with
  | nil => rfl
  | cons a rest ih =>
      rw [modifyFirst]
      split
      · simp [h]
      · simp [ih]

theorem mem_modifyFirst {p : α → Bool} {f : α → α} {l : List α} {b : α}
    (h : b ∈ l.modifyFirst p f) : b ∈ l ∨ ∃ a ∈ l, b = f a := by
  induction l with
  | nil => cases h
  | cons a rest ih =>
      rw [modifyFirst] at h
      split at h
      · cases h with
        | head => exact .inr ⟨a, .head _, rfl⟩
        | tail _ h => exact .inl (.tail _ h)
      · cases h with
        | head => exact .inl (.head _)
        | tail _ h =>
            obtain h | ⟨a, ha, rfl⟩ := ih h
            · exact .inl (.tail _ h)
            · exact .inr ⟨a, .tail _ ha, rfl⟩

section
variable [DecidableEq β] {f : α → β} {l : List α} (nodup : (l.map f).Nodup)
include nodup

/-- With distinct keys, erasing the first element with a key erases all of them. -/
theorem eraseP_eq_filter_of_nodup (k : β) :
    l.eraseP (fun a => f a = k) = l.filter fun a => f a ≠ k := by
  induction l with
  | nil => rfl
  | cons a rest ih =>
      rw [map_cons, nodup_cons] at nodup
      by_cases h : f a = k
      · have hrest : ∀ b ∈ rest, f b ≠ k := by
          intro b hb hk
          exact nodup.1 (mem_map.mpr ⟨b, hb, hk.trans h.symm⟩)
        rw [eraseP_cons_of_pos (by simpa using h), filter_cons_of_neg (by simpa using h)]
        exact (filter_eq_self.mpr fun b hb => by simpa using hrest b hb).symm
      · rw [eraseP_cons_of_neg (by simpa using h), filter_cons_of_pos (by simpa using h),
          ih nodup.2]

theorem mem_eraseP_of_nodup {k : β} {a : α} :
    a ∈ l.eraseP (fun a => f a = k) ↔ a ∈ l ∧ f a ≠ k := by
  rw [eraseP_eq_filter_of_nodup nodup, mem_filter]
  simp

/-- With distinct keys, a search by key finds the element that has it. -/
theorem find?_eq_some_of_nodup {k : β} {a : α} :
    l.find? (fun a => f a = k) = some a ↔ a ∈ l ∧ f a = k := by
  constructor
  · intro h
    exact ⟨mem_of_find?_eq_some h, by simpa using find?_some h⟩
  · rintro ⟨ha, hk⟩
    cases hfind : l.find? (fun a => f a = k) with
    | none =>
        rw [find?_eq_none] at hfind
        exact absurd hk (by simpa using hfind a ha)
    | some b =>
        have hb : f b = k := by simpa using find?_some hfind
        rw [inj_on_of_nodup_map nodup (mem_of_find?_eq_some hfind) ha (hb.trans hk.symm)]

end

/-- A search by key fails exactly when no element has the key. -/
theorem find?_key_eq_none [DecidableEq β] {f : α → β} {l : List α} {k : β} :
    l.find? (fun a => f a = k) = none ↔ ∀ a ∈ l, f a ≠ k := by
  simp

/-- Two elements of the same image are one where no image comes twice. -/
theorem eq_of_filterMap_nodup {f : α → Option β} {l : List α}
    (h : (l.filterMap f).Nodup) {x y : α} {b : β} (hx : x ∈ l) (hy : y ∈ l) (hfx : f x = some b)
    (hfy : f y = some b) : x = y := by
  have hpairs : l.Pairwise fun x y => f x = some b → f y ≠ some b :=
    (List.pairwise_filterMap.mp h).imp fun hdiffer hx hy => hdiffer b hx b hy rfl
  have : Std.Symm fun x y => f x = some b → f y ≠ some b := ⟨fun _ _ h hy hx => h hx hy⟩
  by_contra hne
  exact hpairs.forall hx hy hne hfx hfy

theorem eq_singleton_of_nodup {l : List α} {a : α} (nodup : l.Nodup) (ha : a ∈ l)
    (h : ∀ b ∈ l, b = a) : l = [a] := by
  obtain ⟨before, after, rfl⟩ := append_of_mem ha
  rw [nodup_middle, nodup_cons, mem_append] at nodup
  have hbefore : before = [] := eq_nil_iff_forall_not_mem.mpr fun b hb =>
    nodup.1 (.inl (h b (mem_append_left _ hb) ▸ hb))
  have hafter : after = [] := eq_nil_iff_forall_not_mem.mpr fun b hb =>
    nodup.1 (.inr (h b (mem_append_right _ (.tail _ hb)) ▸ hb))
  rw [hbefore, hafter]
  rfl

end List
