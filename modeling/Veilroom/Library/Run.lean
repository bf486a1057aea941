import Mathlib.Data.List.Basic

/-!
Runs of a deterministic machine that keep their whole history.

A machine takes one input at a time. Which inputs the environment may offer can
depend on everything that happened before, so a run carries the list of its
past steps, newest first.
-/
namespace Machine
universe u v w
variable {σ : Type u} {ι : Type v} {ω : Type w}

/-- One step of the past: the state before it, its input, its output and the state after it. -/
structure Entry (σ : Type u) (ι : Type v) (ω : Type w) where
  before : σ
  input : ι
  output : ω
  after : σ

/-- `Run step allowed s₀ past s`: from `s₀` the machine reached `s` through the steps `past`,
and the environment was allowed every input when it offered it. -/
inductive Run (step : σ → ι → σ × ω) (allowed : List (Entry σ ι ω) → σ → ι → Prop) (s₀ : σ) :
    List (Entry σ ι ω) → σ → Prop
  | start : Run step allowed s₀ [] s₀
  | step {past s input} : Run step allowed s₀ past s → allowed past s input →
      Run step allowed s₀ (⟨s, input, (step s input).2, (step s input).1⟩ :: past)
        (step s input).1

variable {step : σ → ι → σ × ω} {allowed : List (Entry σ ι ω) → σ → ι → Prop} {s₀ : σ}
variable {past : List (Entry σ ι ω)} {s : σ}

/-- An invariant of states and their past that every allowed step keeps holds along every run. -/
theorem Run.invariant (Inv : List (Entry σ ι ω) → σ → Prop) (init : Inv [] s₀)
    (keep : ∀ past s input, Run step allowed s₀ past s → Inv past s → allowed past s input →
      Inv (⟨s, input, (step s input).2, (step s input).1⟩ :: past) (step s input).1)
    (run : Run step allowed s₀ past s) : Inv past s := by
  induction run with
  | start => exact init
  | step run ok ih => exact keep _ _ _ run ih ok

/-- A run stays a run when the environment is allowed more. -/
theorem Run.mono {allowed' : List (Entry σ ι ω) → σ → ι → Prop}
    (weaker : ∀ past s input, allowed past s input → allowed' past s input)
    (run : Run step allowed s₀ past s) : Run step allowed' s₀ past s := by
  induction run with
  | start => exact .start
  | step run ok ih => exact .step ih (weaker _ _ _ ok)

/-- Every entry of the past is a step of the machine, taken after the entries behind it. -/
theorem Run.split {newer older : List (Entry σ ι ω)} {entry : Entry σ ι ω}
    (run : Run step allowed s₀ (newer ++ entry :: older) s) :
    Run step allowed s₀ older entry.before ∧ allowed older entry.before entry.input ∧
      step entry.before entry.input = (entry.after, entry.output) ∧
      Run step allowed s₀ (entry :: older) entry.after := by
  induction newer generalizing s with
  | nil =>
      cases run with
      | step run ok => exact ⟨run, ok, rfl, .step run ok⟩
  | cons _ newer ih =>
      cases run with
      | step run ok => exact ih run

/-- The past of a run determines where it got to. -/
theorem Run.unique {t : σ} (run : Run step allowed s₀ past s) (run' : Run step allowed s₀ past t) :
    s = t := by
  cases run with
  | start => cases run'; rfl
  | step _ _ => cases run'; rfl

/-- A reflexive and transitive relation that every allowed step respects relates every state
of a run to every later one. -/
theorem Run.later (R : σ → σ → Prop) (refl : ∀ s, R s s)
    (trans : ∀ {s t u}, R s t → R t u → R s u)
    (keep : ∀ past s input, Run step allowed s₀ past s → allowed past s input →
      R s (step s input).1)
    (run : Run step allowed s₀ past s) {entry : Entry σ ι ω} (h : entry ∈ past) :
    R entry.before s ∧ R entry.after s := by
  induction run with
  | start => cases h
  | step run ok ih =>
      have hstep := keep _ _ _ run ok
      cases h with
      | head => exact ⟨hstep, refl _⟩
      | tail _ h => exact ⟨trans (ih h).1 hstep, trans (ih h).2 hstep⟩

/-! ### Counters -/

/-- What a step does to a counter and the number it emits: nothing, or it emits the counter's
new value, which is above the old one. -/
inductive Counts : Option Nat → Option Nat → Option Nat → Prop
  | kept (mark : Option Nat) : Counts mark mark none
  | raised {mark : Option Nat} {n : Nat} : (∀ m, mark = some m → m < n) →
      Counts mark (some n) (some n)

/-- The numbers emitted in the past, newest first. -/
def emissions (emitted : ω → Option Nat) (past : List (Entry σ ι ω)) : List Nat :=
  past.filterMap fun entry => emitted entry.output

/-- Numbers in decreasing order, each above what `first` says and at most what `last` says. -/
structure Ascent (first last : Option Nat) (numbers : List Nat) : Prop where
  sorted : numbers.Pairwise (· > ·)
  above : ∀ n ∈ numbers, ∀ m, first = some m → m < n
  below : ∀ n ∈ numbers, ∃ m, last = some m ∧ n ≤ m
  mono : ∀ m, first = some m → ∃ m', last = some m' ∧ m ≤ m'

theorem Ascent.counts {first mark mark' emitted : Option Nat} {numbers : List Nat}
    (h : Ascent first mark numbers) (hcounts : Counts mark mark' emitted) :
    Ascent first mark' (emitted.toList ++ numbers) := by
  cases hcounts with
  | kept => exact h
  | @raised n hlt =>
      have hbelow : ∀ n' ∈ numbers, n' < n := by
        intro n' hn'
        obtain ⟨m, hm, hle⟩ := h.below n' hn'
        exact Nat.lt_of_le_of_lt hle (hlt m hm)
      have habove : ∀ m, first = some m → m < n := by
        intro m hm
        obtain ⟨m', hm', hle⟩ := h.mono m hm
        exact Nat.lt_of_le_of_lt hle (hlt m' hm')
      constructor
      · exact List.pairwise_cons.mpr ⟨hbelow, h.sorted⟩
      · intro n' hn'
        cases hn' with
        | head => exact habove
        | tail _ hn' => exact h.above n' hn'
      · intro n' hn'
        cases hn' with
        | head => exact ⟨n, rfl, Nat.le_refl n⟩
        | tail _ hn' => exact ⟨n, rfl, Nat.le_of_lt (hbelow n' hn')⟩
      · exact fun m hm => ⟨n, rfl, Nat.le_of_lt (habove m hm)⟩

/-- A counter that every step counts ascends along every run. -/
theorem Run.ascent (mark : σ → Option Nat) (emitted : ω → Option Nat)
    (counts : ∀ s input, Counts (mark s) (mark (step s input).1) (emitted (step s input).2))
    (run : Run step allowed s₀ past s) : Ascent (mark s₀) (mark s) (emissions emitted past) := by
  induction run with
  | start => exact ⟨.nil, nofun, nofun, fun m hm => ⟨m, hm, Nat.le_refl m⟩⟩
  | @step past s input run ok ih =>
      have hnext := ih.counts (counts s input)
      cases hout : emitted (step s input).2 with
      | none => simpa [emissions, hout] using hnext
      | some n => simpa [emissions, hout] using hnext

/-! ### Ranks -/

/-- A step that pays for being counted out of a rank is counted at most as often as the rank
allows; `newer` is what happened after the run was at `t`. -/
theorem Run.count_le (rank : σ → Nat) (counted : Entry σ ι ω → Bool)
    {newer older : List (Entry σ ι ω)} {t : σ} (first : Run step allowed s₀ older t)
    (run : Run step allowed s₀ (newer ++ older) s)
    (pays : ∀ past s input, Run step allowed s₀ past s → allowed past s input →
      ⟨s, input, (step s input).2, (step s input).1⟩ ∈ newer →
      rank (step s input).1 +
        (if counted ⟨s, input, (step s input).2, (step s input).1⟩ then 1 else 0) ≤ rank s) :
    (newer.filter counted).length + rank s ≤ rank t := by
  induction newer generalizing s with
  | nil =>
      rw [run.unique first]
      simp
  | cons entry newer ih =>
      cases run with
      | step run ok =>
          have hstep := pays _ _ _ run ok (.head _)
          have hrest := ih run fun past s input run ok hmem =>
            pays past s input run ok (.tail _ hmem)
          rw [List.filter_cons]
          split at hstep
          · rename_i hcounted
            rw [if_pos hcounted, List.length_cons]
            omega
          · rename_i hcounted
            rw [if_neg hcounted]
            omega

/-! ### Order of events -/

/-- Something that is a `step` happened after a point where `before` held. -/
def Followed {ε : Type*} (before : List ε → Prop) (step : ε → Prop) : List ε → Prop
  | [] => False
  | entry :: older => Followed before step older ∨ step entry ∧ before older

/-- What the later event was to follow has happened too. -/
theorem Followed.before {ε : Type*} {before : List ε → Prop} {step : ε → Prop} {l : List ε}
    (hcons : ∀ entry l, before l → before (entry :: l)) (h : Followed before step l) :
    before l := by
  induction l with
  | nil => cases h
  | cons entry older ih =>
      apply hcons
      obtain h | ⟨-, h⟩ := h
      · exact ih h
      · exact h

/-! ### Scripts -/

/-- The run of a machine on a list of inputs, from a state with a past. -/
def exec (step : σ → ι → σ × ω) : List ι → List (Entry σ ι ω) → σ → List (Entry σ ι ω) × σ
  | [], past, s => (past, s)
  | input :: rest, past, s =>
    exec step rest (⟨s, input, (step s input).2, (step s input).1⟩ :: past) (step s input).1

/-- A run on a list of inputs adds its entries to the past, whatever that is. -/
theorem exec_past (inputs : List ι) (past : List (Entry σ ι ω)) (s : σ) :
    exec step inputs past s = ((exec step inputs [] s).1 ++ past, (exec step inputs [] s).2) := by
  induction inputs generalizing past s with
  | nil => rfl
  | cons input rest ih =>
      simp only [exec]
      rw [ih, ih [_]]
      simp

theorem exec_append (first rest : List ι) (past : List (Entry σ ι ω)) (s : σ) :
    exec step (first ++ rest) past s =
      exec step rest (exec step first past s).1 (exec step first past s).2 := by
  induction first generalizing past s with
  | nil => rfl
  | cons input first ih => exact ih _ _

/-- Inputs that are allowed wherever the run gets to form a run. -/
theorem Run.exec {inputs : List ι} (run : Run step allowed s₀ past s)
    (ok : ∀ done input rest past' s', inputs = done ++ input :: rest →
      Run step allowed s₀ past' s' → past'.map Entry.input = done.reverse ++ past.map Entry.input →
      allowed past' s' input) :
    Run step allowed s₀ (exec step inputs past s).1 (exec step inputs past s).2 := by
  induction inputs generalizing past s with
  | nil => exact run
  | cons input rest ih =>
      have hstep := Run.step run (ok [] input rest past s rfl run rfl)
      refine ih hstep fun done next rest' past' s' heq run' hpast => ?_
      refine ok (input :: done) next rest' past' s' (by rw [heq]; rfl) run' ?_
      rw [hpast, List.reverse_cons, List.append_assoc]
      rfl

/-- The check passes for every input, where the run on the inputs gets to. -/
def admits (step : σ → ι → σ × ω) (check : σ → ι → Bool) : List ι → σ → Bool
  | [], _ => true
  | input :: rest, s => check s input && admits step check rest (step s input).1

/-- Inputs that pass a check form a run, when the check and the inputs themselves say enough. -/
theorem Run.exec_of_admits (check : σ → ι → Bool) {inputs all : List ι}
    (run : Run step allowed s₀ past s) (hpast : ∀ entry ∈ past, entry.input ∈ all)
    (hinputs : ∀ input ∈ inputs, input ∈ all)
    (ok : ∀ past s input, (∀ entry ∈ past, entry.input ∈ all) → input ∈ all →
      check s input = true → allowed past s input)
    (h : admits step check inputs s = true) :
    Run step allowed s₀ (Machine.exec step inputs past s).1
      (Machine.exec step inputs past s).2 := by
  induction inputs generalizing past s with
  | nil => exact run
  | cons input rest ih =>
      rw [admits, Bool.and_eq_true] at h
      rw [List.forall_mem_cons] at hinputs
      have hstep := Run.step run (ok past s input hpast hinputs.1 h.1)
      apply ih hstep _ hinputs.2 h.2
      exact List.forall_mem_cons.mpr ⟨hinputs.1, hpast⟩

end Machine
