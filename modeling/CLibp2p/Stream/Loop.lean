import CLibp2p.Stream.Prog

/-!
# Loops and what holds along a run

`Prog.iterate` is `for (;;)`: a body that either goes round again with a new state or leaves with a
result. The rules say what one needs about a single pass to know it about the loop. The log of a run
and the failure of its stream only ever grow, so a condition on everything logged by the end of a run
already held at every moment of it.
-/

namespace Duplex

namespace Prog

variable {σ Q A α ρ τ : Type}

/-- `for (;;) body`, for at most `fuel` passes; `Sum.inl` is a loop that has not left yet. -/
def iterate (body : τ → Prog σ Q A (τ ⊕ ρ)) : Nat → τ → Prog σ Q A (τ ⊕ ρ)
  | 0, state => .done (.inl state)
  | fuel + 1, state => body state >>= fun
      | .inl state' => iterate body fuel state'
      | .inr result => .done (.inr result)

variable [Inhabited A]

theorem run_iterate_succ (body : τ → Prog σ Q A (τ ⊕ ρ)) (fuel : Nat) (state : τ)
    (w : Wire σ Q A) :
    (iterate body (fuel + 1) state).run w =
      match (body state).run w with
      | (.inl state', w') => (iterate body fuel state').run w'
      | (.inr result, w') => (.inr result, w') := by
  rw [iterate, run_bind]
  rcases (body state).run w with ⟨turn, w'⟩
  cases turn <;> rfl

/-- After some passes the loop goes on as if it started where they got to. -/
theorem run_iterate_add {body : τ → Prog σ Q A (τ ⊕ ρ)} {passes : Nat} {state state' : τ}
    {w w' : Wire σ Q A} (hpasses : (iterate body passes state).run w = (.inl state', w'))
    (fuel : Nat) :
    (iterate body (passes + fuel) state).run w = (iterate body fuel state').run w' := by
  induction passes generalizing state w with
  | zero =>
      cases hpasses
      rw [Nat.zero_add]
  | succ passes ih =>
      rw [Nat.succ_add, run_iterate_succ]
      rw [run_iterate_succ] at hpasses
      split at hpasses
      · exact ih hpasses
      · cases hpasses

/-- When each pass that goes round again takes something, there are no more passes than symbols. -/
theorem passes_le_of_shrinks {body : τ → Prog σ Q A (τ ⊕ ρ)}
    (hshrink : ∀ state w state', ((body state).run w).1 = .inl state' →
      ((body state).run w).2.inbound.length < w.inbound.length)
    {passes : Nat} {state state' : τ} {w w' : Wire σ Q A}
    (hpasses : (iterate body passes state).run w = (.inl state', w')) :
    passes + w'.inbound.length ≤ w.inbound.length := by
  induction passes generalizing state w with
  | zero =>
      cases hpasses
      rw [Nat.zero_add]
  | succ passes ih =>
      rw [run_iterate_succ] at hpasses
      have hless := hshrink state w
      split at hpasses
      · rename_i state₁ w₁ hbody
        rw [hbody] at hless
        have hrest := ih hpasses
        have hfirst : w₁.inbound.length < w.inbound.length := hless state₁ rfl
        omega
      · cases hpasses

/-! ### What only grows -/

theorem asked_isPrefix_run (p : Prog σ Q A α) (w : Wire σ Q A) : w.asked <+: (p.run w).2.asked := by
  induction p generalizing w with
  | done value => exact List.prefix_rfl
  | read want next ih => exact ih (w.read want).1 (w.read want).2
  | write data next ih => exact ih (w.write data).1 (w.write data).2
  | close next ih => exact ih () w.close
  | ask query next ih =>
      exact (List.prefix_append _ _).trans (ih (w.ask query).1 (w.ask query).2)

theorem sent_isPrefix_run (p : Prog σ Q A α) (w : Wire σ Q A) : w.sent <+: (p.run w).2.sent := by
  induction p generalizing w with
  | done value => exact List.prefix_rfl
  | read want next ih => exact ih (w.read want).1 (w.read want).2
  | write data next ih =>
      exact (List.prefix_append _ _).trans (ih (w.write data).1 (w.write data).2)
  | close next ih => exact ih () w.close
  | ask query next ih => exact ih (w.ask query).1 (w.ask query).2

theorem failed_run (p : Prog σ Q A α) (w : Wire σ Q A) (hfailed : w.failed = true) :
    (p.run w).2.failed = true := by
  induction p generalizing w with
  | done value => exact hfailed
  | read want next ih => exact ih _ (w.read want).2 (by simp [Wire.read, hfailed])
  | write data next ih => exact ih _ (w.write data).2 hfailed
  | close next ih => exact ih () w.close hfailed
  | ask query next ih => exact ih _ (w.ask query).2 hfailed

theorem inbound_isSuffix_run (p : Prog σ Q A α) (w : Wire σ Q A) :
    (p.run w).2.inbound <:+ w.inbound := by
  induction p generalizing w with
  | done value => exact List.suffix_rfl
  | read want next ih =>
      exact (ih (w.read want).1 (w.read want).2).trans (List.drop_suffix _ _)
  | write data next ih => exact ih (w.write data).1 (w.write data).2
  | close next ih => exact ih () w.close
  | ask query next ih => exact ih (w.ask query).1 (w.ask query).2

/-- A stream that failed gives nothing any more, so nothing more is taken from it. -/
theorem inbound_run_of_failed (p : Prog σ Q A α) (w : Wire σ Q A) (hfailed : w.failed = true) :
    (p.run w).2.inbound = w.inbound := by
  induction p generalizing w with
  | done value => rfl
  | read want next ih =>
      have hread : (w.read want).2.inbound = w.inbound := by simp [Wire.read, hfailed]
      rw [← hread]
      exact ih (w.read want).1 (w.read want).2 (by simp [Wire.read, hfailed])
  | write data next ih => exact ih (w.write data).1 (w.write data).2 hfailed
  | close next ih => exact ih () w.close hfailed
  | ask query next ih => exact ih (w.ask query).1 (w.ask query).2 hfailed

end Prog

/-! ### Streams that do not fail -/

/-- The stream is open, and while something is inbound every coming read returns some of it. -/
structure Wire.Live {σ Q A : Type} (w : Wire σ Q A) : Prop where
  failed : w.failed = false
  closed : w.closed = false
  grants : 0 ∉ w.grants

section

variable {σ Q A : Type}

theorem Wire.Live.grant {w : Wire σ Q A} (hlive : w.Live) {want : Nat} (hwant : 0 < want) :
    0 < w.grants.headD want := by
  have hgrants := hlive.grants
  cases hcase : w.grants with
  | nil => exact hwant
  | cons grant rest =>
      rw [hcase, List.mem_cons, not_or] at hgrants
      exact Nat.pos_of_ne_zero (Ne.symm hgrants.1)

theorem Wire.Live.chunk {w : Wire σ Q A} (hlive : w.Live) (want : Nat) :
    (w.read want).1 = w.inbound.take (min (w.grants.headD want) want) := by
  simp [Wire.read, hlive.failed, hlive.closed]

theorem Wire.Live.read {w : Wire σ Q A} (hlive : w.Live) {want : Nat} (hwant : 0 < want)
    (hinbound : w.inbound ≠ []) : (w.read want).2.Live ∧ (w.read want).1 ≠ [] := by
  have hchunk : (w.read want).1 ≠ [] := by
    have hgrant := hlive.grant hwant
    rw [hlive.chunk, ← List.length_pos_iff, List.length_take]
    have hlength := List.length_pos_iff.mpr hinbound
    omega
  refine ⟨⟨?_, hlive.closed, fun hmem => hlive.grants (List.mem_of_mem_tail hmem)⟩, hchunk⟩
  change (w.failed || (w.read want).1.isEmpty) = false
  rw [hlive.failed, List.isEmpty_eq_false_iff.mpr hchunk]
  rfl

/-- Of a live stream a single symbol can be read while there is one. -/
theorem Wire.Live.read_one {w : Wire σ Q A} (hlive : w.Live) {symbol : σ} {rest : List σ}
    (hinbound : w.inbound = symbol :: rest) :
    (w.read 1).1 = [symbol] ∧ w.Took 1 (w.read 1).2 ∧ (w.read 1).2.Live := by
  have hne : w.inbound ≠ [] := by
    rw [hinbound]
    exact List.cons_ne_nil _ _
  obtain ⟨hnext, hchunk⟩ := hlive.read Nat.one_pos hne
  obtain ⟨hempty, -⟩ | ⟨n, hpos, hle, hread, htook⟩ := w.read_cases 1
  · exact absurd hempty hchunk
  · obtain rfl : n = 1 := by omega
    refine ⟨?_, htook, hnext⟩
    rw [hread, hinbound]
    rfl

variable [Inhabited A]

theorem Prog.run_readLoop_live (fuel remaining : Nat) (got : List σ) (w : Wire σ Q A)
    (hlive : w.Live) (henough : remaining ≤ w.inbound.length) :
    ((Prog.readLoop fuel remaining got).run w).2.Live := by
  induction fuel generalizing remaining got w with
  | zero => cases remaining <;> exact hlive
  | succ fuel ih =>
      cases remaining with
      | zero => exact hlive
      | succ remaining =>
          have hne : w.inbound ≠ [] := List.length_pos_iff.mp (by omega)
          obtain ⟨hnext, hchunk⟩ := hlive.read (Nat.succ_pos remaining) hne
          change ((if (w.read (remaining + 1)).1.isEmpty then Prog.done none else _).run
            (w.read (remaining + 1)).2).2.Live
          rw [List.isEmpty_eq_false_iff.mpr hchunk]
          apply ih _ _ _ hnext
          change _ ≤ (w.inbound.drop (w.read (remaining + 1)).1.length).length
          rw [List.length_drop]
          omega

/-- A read loop over a live stream gets what is there. -/
theorem Prog.run_readExactly_live {len : Nat} {w : Wire σ Q A} (hlive : w.Live)
    (henough : len ≤ w.inbound.length) :
    ∃ w', (Prog.readExactly len).run w = (some (w.inbound.take len), w') ∧ w.Took len w' ∧
      w'.Live := by
  have hafter := Prog.run_readLoop_live len len [] w hlive henough
  obtain ⟨w', hrun, htook⟩ | ⟨w', hrun, hbroke⟩ := Prog.run_readExactly len w
  · rw [Prog.readExactly] at hrun
    rw [hrun] at hafter
    exact ⟨w', hrun, htook, hafter⟩
  · rw [Prog.readExactly] at hrun
    rw [hrun] at hafter
    have hfailed := hafter.failed
    rw [hbroke.failed] at hfailed
    cases hfailed

end

end Duplex
