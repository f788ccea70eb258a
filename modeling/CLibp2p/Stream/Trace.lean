import CLibp2p.Stream.Loop

/-!
# Traces and monitors

The trace of a run lists what the program did, in order. A monitor is an automaton that reads a trace and
stops at the first action it forbids. `Passes` says that a program is let through from a mode on whatever
the stream does, and in which modes and with which results it can end; its rules follow the shape of the
program, as those of a triple do.
-/

namespace Duplex

inductive Event (σ Q : Type) where
  | read (want : Nat) (chunk : List σ)
  | write (data : List σ) (ret : Int)
  | close
  | ask (query : Q)
deriving Repr, DecidableEq

namespace Prog

variable {σ Q A α β ρ τ μ : Type} [Inhabited A]

def trace : Prog σ Q A α → Wire σ Q A → List (Event σ Q)
  | .done _, _ => []
  | .read want next, w => .read want (w.read want).1 :: (next (w.read want).1).trace (w.read want).2
  | .write data next, w => .write data (w.write data).1 :: (next (w.write data).1).trace (w.write data).2
  | .close next, w => .close :: (next ()).trace w.close
  | .ask query next, w => .ask query :: (next (w.ask query).1).trace (w.ask query).2

theorem trace_bind (p : Prog σ Q A α) (f : α → Prog σ Q A β) (w : Wire σ Q A) :
    (p >>= f).trace w = p.trace w ++ (f (p.run w).1).trace (p.run w).2 := by
  induction p generalizing w with
  | done value => rfl
  | read want next ih => exact congrArg _ (ih _ _)
  | write data next ih => exact congrArg _ (ih _ _)
  | close next ih => exact congrArg _ (ih _ _)
  | ask query next ih => exact congrArg _ (ih _ _)

/-- The monitor lets the program through from `mode`, to a result and a mode as `Post` says. -/
def Passes (monitor : μ → Event σ Q → Option μ) (mode : μ) (p : Prog σ Q A α)
    (Post : α → μ → Prop) : Prop :=
  ∀ w, ∃ mode', (p.trace w).foldlM monitor mode = some mode' ∧ Post (p.run w).1 mode'

variable {monitor : μ → Event σ Q → Option μ} {mode mode' : μ} {Post : α → μ → Prop}

theorem Passes.done {value : α} (hpost : Post value mode) :
    Passes monitor mode (.done value : Prog σ Q A α) Post :=
  fun _ => ⟨mode, rfl, hpost⟩

theorem Passes.read {want : Nat} {next : List σ → Prog σ Q A α}
    (hmode : ∀ chunk, monitor mode (.read want chunk) = some mode')
    (hnext : ∀ chunk, Passes monitor mode' (next chunk) Post) :
    Passes monitor mode (.read want next) Post := by
  intro w
  obtain ⟨final, htrace, hpost⟩ := hnext (w.read want).1 (w.read want).2
  refine ⟨final, ?_, hpost⟩
  rw [trace, List.foldlM_cons, hmode]
  exact htrace

theorem Passes.send {data : List σ} (modes : Int → μ)
    (hmode : ∀ ret, monitor mode (.write data ret) = some (modes ret)) :
    Passes (A := A) monitor mode (send data) fun ret final => final = modes ret := by
  intro w
  refine ⟨modes (w.write data).1, ?_, rfl⟩
  rw [Prog.send, trace, List.foldlM_cons, hmode]
  rfl

theorem Passes.shut (hmode : monitor mode .close = some mode') :
    Passes (A := A) monitor mode shut fun _ final => final = mode' := by
  intro w
  refine ⟨mode', ?_, rfl⟩
  rw [Prog.shut, trace, List.foldlM_cons, hmode]
  rfl

theorem Passes.note {query : Q} (hmode : monitor mode (.ask query) = some mode') :
    Passes (A := A) monitor mode (note query) fun _ final => final = mode' := by
  intro w
  refine ⟨mode', ?_, rfl⟩
  rw [Prog.note, trace, List.foldlM_cons, hmode]
  rfl

theorem Passes.bind {Next : β → μ → Prop} {p : Prog σ Q A α} {f : α → Prog σ Q A β}
    (hp : Passes monitor mode p Post)
    (hf : ∀ value final, Post value final → Passes monitor final (f value) Next) :
    Passes monitor mode (p >>= f) Next := by
  intro w
  obtain ⟨middle, hfirst, hvalue⟩ := hp w
  obtain ⟨final, hrest, hnext⟩ := hf _ _ hvalue (p.run w).2
  refine ⟨final, ?_, ?_⟩
  · rw [trace_bind, List.foldlM_append, hfirst]
    exact hrest
  · rw [run_bind]
    exact hnext

/-- The rule of the loop: what holds before every pass. -/
theorem Passes.iterate {body : τ → Prog σ Q A (τ ⊕ ρ)} {Inv : τ → μ → Prop} {Left : ρ → μ → Prop}
    (hbody : ∀ state mode, Inv state mode → Passes monitor mode (body state)
      fun turn final => Sum.elim (fun state' => Inv state' final) (fun result => Left result final) turn)
    (fuel : Nat) (state : τ) (hinv : Inv state mode) :
    Passes monitor mode (iterate body fuel state)
      fun turn final => Sum.elim (fun state' => Inv state' final) (fun result => Left result final) turn := by
  induction fuel generalizing state mode with
  | zero => exact .done hinv
  | succ fuel ih =>
      rw [Prog.iterate]
      refine (hbody state mode hinv).bind fun turn final hturn => ?_
      cases turn with
      | inl state' => exact ih state' hturn
      | inr result => exact .done hturn

/-- A read loop passes where reads do not change the mode. -/
theorem Passes.readExactly (hmode : ∀ want chunk, monitor mode (.read want chunk) = some mode) (len : Nat) :
    Passes (A := A) monitor mode (readExactly len) fun _ final => final = mode := by
  have hloop : ∀ (fuel remaining : Nat) (got : List σ),
      Passes (A := A) monitor mode (readLoop fuel remaining got) fun _ final => final = mode := by
    intro fuel
    induction fuel with
    | zero => intro remaining got; cases remaining <;> exact .done rfl
    | succ fuel ih =>
        intro remaining got
        cases remaining with
        | zero => exact .done rfl
        | succ remaining =>
            refine .read (hmode (remaining + 1)) fun chunk => ?_
            split
            · exact .done rfl
            · exact ih _ _
  exact hloop len len []

end Prog

end Duplex
