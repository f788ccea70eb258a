import CLibp2p.Machine.Runs

/-!
# Queues

A queue takes items at its end and gives them away at its front, and a look at the front leaves it as it is.
A machine that may fail simulates another one if each of its steps gives the answer of the other's and
keeps a relation between the two states; then whole runs do.
-/

namespace Machine

/-! ### Simulation -/

section Simulation

variable {σ τ ι ρ : Type}

/-- The answers of a run, unless one of its steps fails. -/
def tryRun (step : σ → ι → Option (ρ × σ)) : σ → List ι → Option (List ρ × σ)
  | s, [] => some ([], s)
  | s, input :: inputs => do
      let (answer, s) ← step s input
      let (answers, s) ← tryRun step s inputs
      pure (answer :: answers, s)

theorem tryRun_of_simulates {step : σ → ι → Option (ρ × σ)} {next : τ → ι → τ} {answer : τ → ι → ρ}
    {Rel : σ → τ → Prop}
    (hstep : ∀ s t input, Rel s t → ∃ s', step s input = some (answer t input, s') ∧ Rel s' (next t input))
    {s : σ} {t : τ} (hrel : Rel s t) (inputs : List ι) :
    ∃ s', tryRun step s inputs = some (outputs next (fun t input => [answer t input]) t inputs, s') ∧
      Rel s' (run next t inputs) := by
  induction inputs generalizing s t with
  | nil => exact ⟨s, rfl, hrel⟩
  | cons input inputs ih =>
      obtain ⟨middle, hfirst, hmiddle⟩ := hstep s t input hrel
      obtain ⟨last, hrest, hlast⟩ := ih hmiddle
      refine ⟨last, ?_, hlast⟩
      simp [tryRun, hfirst, hrest, outputs]

end Simulation

/-! ### Queues -/

inductive QueueOp (α : Type) where
  | push (items : List α)
  | peek (count : Nat)
  | pop (count : Nat)
deriving Repr, DecidableEq

namespace QueueOp

variable {α : Type}

def next (queue : List α) : QueueOp α → List α
  | push items => queue ++ items
  | peek _ => queue
  | pop count => queue.drop count

def pushed (_ : List α) : QueueOp α → List α
  | push items => items
  | _ => []

def popped (queue : List α) : QueueOp α → List α
  | pop count => queue.take count
  | _ => []

/-- What was popped and what is left are what was pushed, in order. -/
theorem popped_append_queue (queue : List α) (ops : List (QueueOp α)) :
    outputs next popped queue ops ++ run next queue ops = queue ++ outputs next pushed queue ops := by
  have hevery : Along next (fun _ _ => True) queue ops := by
    induction ops generalizing queue with
    | nil => trivial
    | cons op ops ih => exact ⟨trivial, ih (next queue op)⟩
  have hstep : ∀ (queue : List α) op, True →
      popped queue op ++ id (next queue op) = id queue ++ pushed queue op := by
    intro queue op _
    cases op with
    | push items => rfl
    | peek count => exact (List.append_nil queue).symm
    | pop count => exact (List.take_append_drop count queue).trans (List.append_nil queue).symm
  exact outputs_append_kept hstep hevery

end QueueOp

end Machine
