import Mathlib.Data.List.Basic
import Mathlib.Tactic.Common

/-!
# Runs of a deterministic machine

A machine is a step function and a run is a list of inputs. `Along` puts a condition on every step of a
run, in the state that the step is taken in, and an invariant that such steps keep holds wherever such a
run ends. A prefix of a run is a run, so what holds where every run ends holds in every state reached.
-/

namespace Machine

variable {σ ι ο : Type} (step : σ → ι → σ)

def run (s : σ) (inputs : List ι) : σ := inputs.foldl step s

/-- Each step of the run meets the condition. -/
def Along (P : σ → ι → Prop) : σ → List ι → Prop
  | _, [] => True
  | s, input :: inputs => P s input ∧ Along P (step s input) inputs

/-- What the steps of a run put out, in order. -/
def outputs (out : σ → ι → List ο) : σ → List ι → List ο
  | _, [] => []
  | s, input :: inputs => out s input ++ outputs out (step s input) inputs

@[simp] theorem run_nil (s : σ) : run step s [] = s := rfl

@[simp] theorem run_cons (s : σ) (input : ι) (inputs : List ι) :
    run step s (input :: inputs) = run step (step s input) inputs := rfl

variable {step}

theorem along_append {P : σ → ι → Prop} {s : σ} {first second : List ι} :
    Along step P s (first ++ second) ↔
      Along step P s first ∧ Along step P (run step s first) second := by
  induction first generalizing s with
  | nil => simp [Along]
  | cons input inputs ih =>
      rw [List.cons_append, Along, Along, run_cons, ih, and_assoc]

/-- A machine that keeps a record beside another one runs as the other does. -/
theorem run_comap {τ : Type} {step' : τ → ι → τ} {f : σ → τ}
    (hf : ∀ s input, f (step s input) = step' (f s) input) (s : σ) (inputs : List ι) :
    f (run step s inputs) = run step' (f s) inputs := by
  induction inputs generalizing s with
  | nil => rfl
  | cons input inputs ih => rw [run_cons, run_cons, ih, hf]

theorem along_comap {τ : Type} {step' : τ → ι → τ} {f : σ → τ}
    (hf : ∀ s input, f (step s input) = step' (f s) input) {P : τ → ι → Prop} {s : σ}
    {inputs : List ι} :
    Along step (fun s input => P (f s) input) s inputs ↔ Along step' P (f s) inputs := by
  induction inputs generalizing s with
  | nil => exact Iff.rfl
  | cons input inputs ih => rw [Along, Along, ih, hf]

theorem Along.mono {P Q : σ → ι → Prop} (hPQ : ∀ s input, P s input → Q s input) {s : σ}
    {inputs : List ι} (hP : Along step P s inputs) : Along step Q s inputs := by
  induction inputs generalizing s with
  | nil => trivial
  | cons input inputs ih => exact ⟨hPQ s input hP.1, ih hP.2⟩

/-- An invariant that every step meeting the condition keeps holds at the end of the run. -/
theorem Along.invariant {P : σ → ι → Prop} {Inv : σ → Prop}
    (hstep : ∀ s input, Inv s → P s input → Inv (step s input)) {s : σ} {inputs : List ι}
    (hinit : Inv s) (hP : Along step P s inputs) : Inv (run step s inputs) := by
  induction inputs generalizing s with
  | nil => exact hinit
  | cons input inputs ih => exact ih (hstep s input hinit hP.1) hP.2

/-- An invariant that the steps of a run keep holds in the state each of them is taken in. -/
theorem Along.and_invariant {P : σ → ι → Prop} {Inv : σ → Prop}
    (hstep : ∀ s input, Inv s → P s input → Inv (step s input)) {s : σ} {inputs : List ι}
    (hinit : Inv s) (hP : Along step P s inputs) :
    Along step (fun s input => Inv s ∧ P s input) s inputs := by
  induction inputs generalizing s with
  | nil => trivial
  | cons input inputs ih => exact ⟨⟨hinit, hP.1⟩, ih (hstep s input hinit hP.1) hP.2⟩

/-- If the invariant gives what is wanted of a state, steps that meet the condition keep it and others
lose what is wanted, then the runs whose steps all meet the condition are those on which every state
reached is as wanted. -/
theorem along_iff_good (step : σ → ι → σ) {P : σ → ι → Prop} {Inv Good : σ → Prop}
    (hgood : ∀ s, Inv s → Good s)
    (hkeep : ∀ s input, Inv s → P s input → Inv (step s input))
    (hlose : ∀ s input, Inv s → ¬P s input → ¬Good (step s input)) {s : σ} {inputs : List ι}
    (hinit : Inv s) :
    (∀ reached, reached <+: inputs → Good (run step s reached)) ↔ Along step P s inputs := by
  constructor
  · intro hreached
    induction inputs generalizing s with
    | nil => trivial
    | cons input inputs ih =>
        have hnext : Good (step s input) := hreached [input] (by simp)
        have hP : P s input := by
          by_contra hnot
          exact hlose s input hinit hnot hnext
        refine ⟨hP, ih (hkeep s input hinit hP) fun reached hfront => ?_⟩
        exact hreached (input :: reached) ((List.prefix_cons_inj input).mpr hfront)
  · rintro hP reached ⟨rest, rfl⟩
    exact hgood _ ((along_append.mp hP).1.invariant hkeep hinit)

/-- The same where something is wanted of the steps too. -/
theorem along_iff_good_steps (step : σ → ι → σ) {P Q : σ → ι → Prop} {Inv Good : σ → Prop}
    (hgood : ∀ s, Inv s → Good s)
    (hkeep : ∀ s input, Inv s → P s input → Inv (step s input) ∧ Q s input)
    (hlose : ∀ s input, Inv s → ¬P s input → Q s input → ¬Good (step s input)) {s : σ}
    {inputs : List ι} (hinit : Inv s) :
    (Along step Q s inputs ∧ ∀ reached, reached <+: inputs → Good (run step s reached)) ↔
      Along step P s inputs := by
  constructor
  · rintro ⟨hsteps, hreached⟩
    induction inputs generalizing s with
    | nil => trivial
    | cons input inputs ih =>
        have hnext : Good (step s input) := hreached [input] (by simp)
        have hP : P s input := by
          by_contra hnot
          exact hlose s input hinit hnot hsteps.1 hnext
        refine ⟨hP, ih (hkeep s input hinit hP).1 hsteps.2 fun reached hfront => ?_⟩
        exact hreached (input :: reached) ((List.prefix_cons_inj input).mpr hfront)
  · intro hP
    constructor
    · induction inputs generalizing s with
      | nil => trivial
      | cons input inputs ih =>
          obtain ⟨hnext, hQ⟩ := hkeep s input hinit hP.1
          exact ⟨hQ, ih hnext hP.2⟩
    · rintro reached ⟨rest, rfl⟩
      exact hgood _ ((along_append.mp hP).1.invariant (fun s input hs h => (hkeep s input hs h).1) hinit)

/-- A machine that puts out what came in, in order, and keeps the rest: what it put out over a run and
what it keeps at the end are what it kept at the start and what came in since. -/
theorem outputs_append_kept {P : σ → ι → Prop} {out arrives : σ → ι → List ο} {kept : σ → List ο}
    (hstep : ∀ s input, P s input →
      out s input ++ kept (step s input) = kept s ++ arrives s input) {s : σ} {inputs : List ι}
    (hP : Along step P s inputs) :
    outputs step out s inputs ++ kept (run step s inputs) = kept s ++ outputs step arrives s inputs := by
  induction inputs generalizing s with
  | nil => simp [outputs]
  | cons input inputs ih =>
      calc outputs step out s (input :: inputs) ++ kept (run step s (input :: inputs))
          = out s input ++ (outputs step out (step s input) inputs ++
              kept (run step (step s input) inputs)) := by
            rw [outputs, run_cons, List.append_assoc]
        _ = out s input ++ kept (step s input) ++ outputs step arrives (step s input) inputs := by
            rw [ih hP.2, List.append_assoc]
        _ = kept s ++ outputs step arrives s (input :: inputs) := by
            rw [hstep s input hP.1, outputs, List.append_assoc]

end Machine
