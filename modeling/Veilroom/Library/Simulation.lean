import Mathlib.Data.List.Basic

/-!
A machine that does what another one says, input by input.

The environment is told what it may offer by the machine that says what is meant. As long as it
keeps to that, the other machine gives the same outputs.
-/
namespace Machine
universe u v w x
variable {σ : Type u} {τ : Type x} {ι : Type v} {ω : Type w}

/-- What a machine puts out on a list of inputs. -/
def outputs (step : σ → ι → σ × ω) : List ι → σ → List ω
  | [], _ => []
  | input :: rest, s => (step s input).2 :: outputs step rest (step s input).1

/-- Where a machine gets to on a list of inputs. -/
def after (step : σ → ι → σ × ω) : List ι → σ → σ
  | [], s => s
  | input :: rest, s => after step rest (step s input).1

/-- Every input was allowed when it was offered. -/
def Offered (step : τ → ι → τ × ω) (allowed : τ → ι → Prop) : List ι → τ → Prop
  | [], _ => True
  | input :: rest, t => allowed t input ∧ Offered step allowed rest (step t input).1

theorem after_append (step : σ → ι → σ × ω) (first rest : List ι) (s : σ) :
    after step (first ++ rest) s = after step rest (after step first s) := by
  induction first generalizing s with
  | nil => rfl
  | cons input first ih => exact ih _

theorem length_outputs (step : σ → ι → σ × ω) (inputs : List ι) (s : σ) :
    (outputs step inputs s).length = inputs.length := by
  induction inputs generalizing s with
  | nil => rfl
  | cons input rest ih => rw [outputs, List.length_cons, ih, List.length_cons]

theorem outputs_append (step : σ → ι → σ × ω) (first rest : List ι) (s : σ) :
    outputs step (first ++ rest) s = outputs step first s ++
      outputs step rest (after step first s) := by
  induction first generalizing s with
  | nil => rfl
  | cons input first ih =>
      rw [List.cons_append, outputs, outputs, after, ih]
      rfl

theorem offered_append {step : τ → ι → τ × ω} {allowed : τ → ι → Prop}
    {first rest : List ι} {t : τ} :
    Offered step allowed (first ++ rest) t ↔
      Offered step allowed first t ∧ Offered step allowed rest (after step first t) := by
  induction first generalizing t with
  | nil => simp [Offered, after]
  | cons input first ih =>
      simp only [List.cons_append, Offered, after, ih, and_assoc]

/-- Related states give the same output on an allowed input, and stay related unless that output
loses the relation. -/
structure Simulates (step : σ → ι → σ × ω) (meant : τ → ι → τ × ω) (allowed : τ → ι → Prop)
    (loses : ω → Prop) (R : σ → τ → Prop) : Prop where
  output : ∀ {s t input}, R s t → allowed t input → (step s input).2 = (meant t input).2
  related : ∀ {s t input}, R s t → allowed t input → ¬ loses (step s input).2 →
    R (step s input).1 (meant t input).1

variable {step : σ → ι → σ × ω} {meant : τ → ι → τ × ω} {allowed : τ → ι → Prop}
variable {loses : ω → Prop} {R : σ → τ → Prop}

/-- As long as nothing is lost, the two machines do the same and end in related states. -/
theorem Simulates.run (h : Simulates step meant allowed loses R) (inputs : List ι) {s : σ} {t : τ}
    (hrelated : R s t) (hoffered : Offered meant allowed inputs t)
    (hkept : ∀ output ∈ outputs step inputs s, ¬ loses output) :
    outputs step inputs s = outputs meant inputs t ∧
      R (after step inputs s) (after meant inputs t) := by
  induction inputs generalizing s t with
  | nil => exact ⟨rfl, hrelated⟩
  | cons input rest ih =>
      rw [outputs, List.forall_mem_cons] at hkept
      obtain ⟨houtputs, hafter⟩ :=
        ih (h.related hrelated hoffered.1 hkept.1) hoffered.2 hkept.2
      rw [outputs, outputs, h.output hrelated hoffered.1, houtputs]
      exact ⟨rfl, hafter⟩

end Machine
