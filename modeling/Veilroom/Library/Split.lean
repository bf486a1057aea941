import Mathlib.Data.List.Basic

/-!
Cutting a list at the first or the last place where a separator stands.
-/
namespace Split
variable {α : Type*} [DecidableEq α]

/-- What follows a prefix. -/
def stripPrefix (pattern text : List α) : Option (List α) :=
  if pattern.isPrefixOf text then some (text.drop pattern.length) else none

/-- What precedes a suffix. -/
def stripSuffix (pattern text : List α) : Option (List α) :=
  if pattern.isSuffixOf text then some (text.take (text.length - pattern.length)) else none

/-- The parts before and after the first place where the pattern stands. -/
def once (pattern : List α) : List α → Option (List α × List α)
  | [] => if pattern = [] then some ([], []) else none
  | x :: rest =>
    match stripPrefix pattern (x :: rest) with
    | some after => some ([], after)
    | none => (once pattern rest).map fun parts => (x :: parts.1, parts.2)

/-- The parts before and after the last place where the separator stands. -/
def last (separator : α) (text : List α) : Option (List α × List α) :=
  (once [separator] text.reverse).map fun parts => (parts.2.reverse, parts.1.reverse)

variable {pattern text before after : List α} {separator x : α}

theorem stripPrefix_eq_some {rest : List α} :
    stripPrefix pattern text = some rest ↔ text = pattern ++ rest := by
  unfold stripPrefix
  split
  · rename_i hprefix
    obtain ⟨rest', rfl⟩ := List.isPrefixOf_iff_prefix.mp hprefix
    simp
  · rename_i hprefix
    constructor
    · intro h
      cases h
    · rintro rfl
      exact absurd (List.isPrefixOf_iff_prefix.mpr ⟨rest, rfl⟩) hprefix

theorem stripSuffix_eq_some {rest : List α} :
    stripSuffix pattern text = some rest ↔ text = rest ++ pattern := by
  unfold stripSuffix
  split
  · rename_i hsuffix
    obtain ⟨rest', rfl⟩ := List.isSuffixOf_iff_suffix.mp hsuffix
    simp
  · rename_i hsuffix
    constructor
    · intro h
      cases h
    · rintro rfl
      exact absurd (List.isSuffixOf_iff_suffix.mpr ⟨rest, rfl⟩) hsuffix

theorem once_eq_some (h : once pattern text = some (before, after)) :
    text = before ++ pattern ++ after := by
  induction text generalizing before with
  | nil =>
      rw [once] at h
      split at h
      · rename_i hpattern
        cases h
        rw [hpattern]
        rfl
      · cases h
  | cons x rest ih =>
      rw [once] at h
      split at h
      · rename_i hstrip
        cases h
        exact stripPrefix_eq_some.mp hstrip
      · obtain ⟨parts, hparts, heq⟩ := Option.map_eq_some_iff.mp h
        cases heq
        rw [ih hparts, List.cons_append, List.cons_append]

/-- The text is cut at a pattern whose first element does not stand before it. -/
theorem once_append (hfresh : x ∉ before) :
    once (x :: pattern) (before ++ (x :: pattern) ++ after) = some (before, after) := by
  induction before with
  | nil =>
      have hstrip : stripPrefix (x :: pattern) (x :: (pattern ++ after)) = some after :=
        stripPrefix_eq_some.mpr rfl
      rw [List.nil_append, List.cons_append, once, hstrip]
  | cons y before ih =>
      rw [List.mem_cons, not_or] at hfresh
      have hstrip :
          stripPrefix (x :: pattern) (y :: (before ++ (x :: pattern) ++ after)) = none := by
        rw [Option.eq_none_iff_forall_ne_some]
        intro rest hrest
        exact hfresh.1 (List.cons.inj (stripPrefix_eq_some.mp hrest)).1.symm
      rw [List.cons_append, List.cons_append, once, hstrip, ih hfresh.2]
      rfl

theorem once_singleton_fresh (h : once [separator] text = some (before, after)) :
    separator ∉ before := by
  induction text generalizing before with
  | nil => cases h
  | cons x rest ih =>
      rw [once] at h
      split at h
      · cases h
        exact List.not_mem_nil
      · rename_i hstrip
        obtain ⟨parts, hparts, heq⟩ := Option.map_eq_some_iff.mp h
        cases heq
        rw [List.mem_cons, not_or]
        refine ⟨?_, ih hparts⟩
        rintro rfl
        rw [stripPrefix_eq_some.mpr (by rfl : separator :: rest = [separator] ++ rest)] at hstrip
        cases hstrip

theorem once_singleton :
    once [separator] text = some (before, after) ↔
      text = before ++ separator :: after ∧ separator ∉ before := by
  constructor
  · intro h
    have htext := once_eq_some h
    rw [List.append_assoc] at htext
    exact ⟨htext, once_singleton_fresh h⟩
  · rintro ⟨rfl, hfresh⟩
    have hcut : once [separator] (before ++ [separator] ++ after) = some (before, after) :=
      once_append hfresh
    rwa [List.append_assoc] at hcut

theorem once_singleton_none : once [separator] text = none ↔ separator ∉ text := by
  constructor
  · intro h hmem
    obtain ⟨before, after, rfl, hfresh⟩ := List.eq_append_cons_of_mem hmem
    rw [once_singleton.mpr ⟨rfl, hfresh⟩] at h
    cases h
  · intro h
    rw [Option.eq_none_iff_forall_ne_some]
    rintro ⟨before, after⟩ hcut
    rw [(once_singleton.mp hcut).1] at h
    exact h (List.mem_append_right _ (.head _))

theorem last_eq_some :
    last separator text = some (before, after) ↔
      text = before ++ separator :: after ∧ separator ∉ after := by
  unfold last
  constructor
  · intro h
    obtain ⟨⟨front, back⟩, hcut, heq⟩ := Option.map_eq_some_iff.mp h
    cases heq
    obtain ⟨htext, hfresh⟩ := once_singleton.mp hcut
    refine ⟨?_, by simpa using hfresh⟩
    rw [← List.reverse_reverse text, htext]
    simp
  · rintro ⟨rfl, hfresh⟩
    have hcut : once [separator] (before ++ separator :: after).reverse =
        some (after.reverse, before.reverse) :=
      once_singleton.mpr ⟨by simp, by simpa using hfresh⟩
    rw [hcut]
    simp

end Split
