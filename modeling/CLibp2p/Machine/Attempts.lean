import Mathlib.Data.List.Induction

/-!
# Runs of a machine that may not come back

A step has no result where the machine does not come back from it. Then neither does the run.
-/

namespace Machine

variable {σ ι ο : Type} {step : σ → ι → Option σ} {out : σ → ι → List ο} {s s' s₁ : σ} {input : ι}
  {front inputs : List ι}

/-- One step after the other. -/
def attempts (step : σ → ι → Option σ) (s : σ) (inputs : List ι) : Option σ := inputs.foldlM step s

/-- What the steps put out, in order. -/
def emitted (step : σ → ι → Option σ) (out : σ → ι → List ο) : σ → List ι → List ο
  | _, [] => []
  | s, input :: inputs => out s input ++ (step s input).elim [] fun s' => emitted step out s' inputs

theorem attempts_append (s : σ) (front inputs : List ι) :
    attempts step s (front ++ inputs) = (attempts step s front).bind fun s₁ => attempts step s₁ inputs :=
  List.foldlM_append

theorem attempts_cons (s : σ) (input : ι) (inputs : List ι) :
    attempts step s (input :: inputs) = (step s input).bind fun s₁ => attempts step s₁ inputs :=
  List.foldlM_cons

theorem attempts_concat_eq_some_iff :
    attempts step s (front ++ [input]) = some s' ↔
      ∃ s₁, attempts step s front = some s₁ ∧ step s₁ input = some s' := by
  rw [attempts_append, Option.bind_eq_some_iff]
  apply exists_congr
  intro s₁
  rw [attempts_cons]
  apply and_congr_right
  intro _
  cases step s₁ input with
  | none => rfl
  | some s₂ => rfl

theorem emitted_append (hfront : attempts step s front = some s₁) (inputs : List ι) :
    emitted step out s (front ++ inputs) = emitted step out s front ++ emitted step out s₁ inputs := by
  induction front generalizing s with
  | nil =>
      obtain rfl := Option.some.inj hfront
      rfl
  | cons input front ih =>
      rw [attempts_cons, Option.bind_eq_some_iff] at hfront
      obtain ⟨s₂, hstep, hrest⟩ := hfront
      rw [List.cons_append, emitted, emitted, hstep, Option.elim_some, Option.elim_some, ih hrest, List.append_assoc]

theorem emitted_concat (hfront : attempts step s front = some s₁) (input : ι) :
    emitted step out s (front ++ [input]) = emitted step out s front ++ out s₁ input := by
  rw [emitted_append hfront, emitted]
  cases step s₁ input with
  | none => rw [Option.elim_none, List.append_nil]
  | some s₂ => rw [Option.elim_some, emitted, List.append_nil]

/-- What holds of the empty run and goes from every run to the one that is a step longer holds of every run. -/
theorem attempts_induction {motive : List ι → σ → Prop} (hnil : motive [] s)
    (hconcat : ∀ front s₁ input s₂, attempts step s front = some s₁ → motive front s₁ → step s₁ input = some s₂ →
      motive (front ++ [input]) s₂) :
    ∀ inputs s', attempts step s inputs = some s' → motive inputs s' := by
  intro inputs
  induction inputs using List.reverseRecOn with
  | nil =>
      intro s' hrun
      obtain rfl := Option.some.inj hrun
      exact hnil
  | append_singleton front input ih =>
      intro s' hrun
      obtain ⟨s₁, hfront, hstep⟩ := attempts_concat_eq_some_iff.mp hrun
      exact hconcat front s₁ input s' hfront (ih s₁ hfront) hstep

/-- What was put out was put out by a step. -/
theorem exists_of_mem_emitted {x : ο} (hrun : attempts step s inputs = some s') (hmem : x ∈ emitted step out s inputs) :
    ∃ front input rest s₁, inputs = front ++ input :: rest ∧ attempts step s front = some s₁ ∧ x ∈ out s₁ input := by
  induction inputs generalizing s with
  | nil => cases hmem
  | cons input inputs ih =>
      rw [attempts_cons, Option.bind_eq_some_iff] at hrun
      obtain ⟨s₁, hstep, hrest⟩ := hrun
      rw [emitted, hstep, Option.elim_some, List.mem_append] at hmem
      rcases hmem with hhere | hlater
      · exact ⟨[], input, inputs, s, rfl, rfl, hhere⟩
      · obtain ⟨front, input', rest, s₂, rfl, hfront, hout⟩ := ih hrest hlater
        refine ⟨input :: front, input', rest, s₂, rfl, ?_, hout⟩
        rw [attempts_cons, hstep, Option.bind_some, hfront]

end Machine
