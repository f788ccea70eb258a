import CLibp2p.Stream.Prog

/-!
# Two programs over a FIFO channel

Two programs talk to each other through two queues of symbols. A write appends to the queue of the
peer. A read of an empty queue waits; otherwise it returns what is there, up to the length asked for,
and a read of more than `atom` symbols may return less. `Net.Ends` says that every run, under every
interleaving and every split, comes to an end with both programs done and a good pair of results. A
program that closes the channel has no step here.
-/

namespace Duplex

variable {σ Q A α β : Type}

/-- One action of a program: the queue it reads from before and after, and what it writes. -/
inductive Acts (atom : Nat) (answer : Q → A) :
    Prog σ Q A α → List σ → Prog σ Q A α → List σ → List σ → Prop where
  | read {want n : Nat} {next : List σ → Prog σ Q A α} {inbox : List σ} (hpos : 0 < n)
      (hbound : n ≤ min want inbox.length) (hall : n = min want inbox.length ∨ atom < want) :
      Acts atom answer (.read want next) inbox (next (inbox.take n)) (inbox.drop n) []
  | write {data inbox : List σ} {next : Int → Prog σ Q A α} :
      Acts atom answer (.write data next) inbox (next data.length) inbox data
  | ask {query : Q} {next : A → Prog σ Q A α} {inbox : List σ} :
      Acts atom answer (.ask query next) inbox (next (answer query)) inbox []

/-- The program waits for its peer, or is done. -/
def Idle (p : Prog σ Q A α) (inbox : List σ) : Prop :=
  (∃ value, p = .done value) ∨ ∃ want next, p = .read want next ∧ inbox = []

theorem Idle.not_acts {atom : Nat} {answer : Q → A} {p p' : Prog σ Q A α}
    {inbox inbox' out : List σ} (hidle : Idle p inbox) :
    ¬ Acts atom answer p inbox p' inbox' out := by
  intro hacts
  rcases hidle with ⟨value, rfl⟩ | ⟨want, next, rfl, rfl⟩
  · cases hacts
  · cases hacts with
    | read hpos hbound hall =>
        simp only [List.length_nil, Nat.min_zero] at hbound
        omega

structure Net (σ Q A α β : Type) where
  left : Prog σ Q A α
  right : Prog σ Q A β
  toLeft : List σ
  toRight : List σ

/-- The same network seen from the other side. -/
def Net.swap (net : Net σ Q A α β) : Net σ Q A β α :=
  ⟨net.right, net.left, net.toRight, net.toLeft⟩

inductive Net.Step (atom : Nat) (answerLeft answerRight : Q → A) :
    Net σ Q A α β → Net σ Q A α β → Prop where
  | left {p p' : Prog σ Q A α} {q : Prog σ Q A β} {toLeft toLeft' toRight out : List σ}
      (hacts : Acts atom answerLeft p toLeft p' toLeft' out) :
      Step atom answerLeft answerRight ⟨p, q, toLeft, toRight⟩ ⟨p', q, toLeft', toRight ++ out⟩
  | right {p : Prog σ Q A α} {q q' : Prog σ Q A β} {toLeft toRight toRight' out : List σ}
      (hacts : Acts atom answerRight q toRight q' toRight' out) :
      Step atom answerLeft answerRight ⟨p, q, toLeft, toRight⟩ ⟨p, q', toLeft ++ out, toRight'⟩

/-- Every run from here ends, with both programs done, nothing left in the queues, and good
results. -/
inductive Net.Ends (atom : Nat) (answerLeft answerRight : Q → A) (good : α → β → Prop) :
    Net σ Q A α β → Prop where
  | done {valueLeft : α} {valueRight : β} (hgood : good valueLeft valueRight) :
      Ends atom answerLeft answerRight good ⟨.done valueLeft, .done valueRight, [], []⟩
  | step {net : Net σ Q A α β}
      (hcan : ∃ net', Net.Step atom answerLeft answerRight net net')
      (hall : ∀ net', Net.Step atom answerLeft answerRight net net' →
        Ends atom answerLeft answerRight good net') :
      Ends atom answerLeft answerRight good net

section

variable {atom : Nat} {answerLeft answerRight : Q → A} {good : α → β → Prop}

theorem Net.Step.swap {net net' : Net σ Q A α β}
    (hstep : Net.Step atom answerLeft answerRight net net') :
    Net.Step atom answerRight answerLeft net.swap net'.swap := by
  cases hstep with
  | left hacts => exact .right hacts
  | right hacts => exact .left hacts

theorem Net.Ends.swap {net : Net σ Q A α β} (hends : net.Ends atom answerLeft answerRight good) :
    net.swap.Ends atom answerRight answerLeft fun valueRight valueLeft =>
      good valueLeft valueRight := by
  induction hends with
  | done hgood => exact .done hgood
  | step hcan hall ih =>
      obtain ⟨net', hstep⟩ := hcan
      exact .step ⟨net'.swap, hstep.swap⟩ fun next hnext => ih next.swap hnext.swap

theorem Net.Ends.of_swap {p : Prog σ Q A α} {q : Prog σ Q A β} {toLeft toRight : List σ}
    (hends : Net.Ends atom answerRight answerLeft (fun valueRight valueLeft =>
      good valueLeft valueRight) ⟨q, p, toRight, toLeft⟩) :
    Net.Ends atom answerLeft answerRight good ⟨p, q, toLeft, toRight⟩ :=
  hends.swap

/-- While the right program waits, only the left one acts. -/
theorem Net.Ends.left {p : Prog σ Q A α} {q : Prog σ Q A β} {toLeft toRight : List σ}
    (hidle : Idle q toRight)
    (hcan : ∃ p' toLeft' out, Acts atom answerLeft p toLeft p' toLeft' out)
    (hall : ∀ p' toLeft' out, Acts atom answerLeft p toLeft p' toLeft' out →
      Net.Ends atom answerLeft answerRight good ⟨p', q, toLeft', toRight ++ out⟩) :
    Net.Ends atom answerLeft answerRight good ⟨p, q, toLeft, toRight⟩ := by
  obtain ⟨p', toLeft', out, hacts⟩ := hcan
  refine .step ⟨_, .left hacts⟩ fun net' hstep => ?_
  cases hstep with
  | left hacts => exact hall _ _ _ hacts
  | right hacts => exact absurd hacts hidle.not_acts

theorem Net.Ends.left_write {data : List σ} {next : Int → Prog σ Q A α} {q : Prog σ Q A β}
    {toLeft toRight : List σ} (hidle : Idle q toRight)
    (hends : Net.Ends atom answerLeft answerRight good
      ⟨next data.length, q, toLeft, toRight ++ data⟩) :
    Net.Ends atom answerLeft answerRight good ⟨.write data next, q, toLeft, toRight⟩ := by
  refine .left hidle ⟨_, _, _, .write⟩ fun p' toLeft' out hacts => ?_
  cases hacts with
  | write => exact hends

theorem Net.Ends.left_ask {query : Q} {next : A → Prog σ Q A α} {q : Prog σ Q A β}
    {toLeft toRight : List σ} (hidle : Idle q toRight)
    (hends : Net.Ends atom answerLeft answerRight good
      ⟨next (answerLeft query), q, toLeft, toRight⟩) :
    Net.Ends atom answerLeft answerRight good ⟨.ask query next, q, toLeft, toRight⟩ := by
  refine .left hidle ⟨_, _, _, .ask⟩ fun p' toLeft' out hacts => ?_
  cases hacts with
  | ask => rwa [List.append_nil]

/-- A read loop gets everything it asks for when that is there, whatever the splits. -/
theorem Net.Ends.left_readLoop {γ : Type} (fuel : Nat) {remaining : Nat} {got : List σ}
    {next : Option (List σ) → Prog σ Q A γ} {good : γ → β → Prop} {q : Prog σ Q A β}
    {toLeft toRight : List σ}
    (hidle : Idle q toRight) (hfuel : remaining ≤ fuel) (henough : remaining ≤ toLeft.length)
    (hends : Net.Ends atom answerLeft answerRight good
      ⟨next (some (got ++ toLeft.take remaining)), q, toLeft.drop remaining, toRight⟩) :
    Net.Ends atom answerLeft answerRight good
      ⟨Prog.readLoop fuel remaining got >>= next, q, toLeft, toRight⟩ := by
  induction fuel generalizing remaining got toLeft with
  | zero =>
      obtain rfl : remaining = 0 := by omega
      simpa [Prog.readLoop] using hends
  | succ fuel ih =>
      cases remaining with
      | zero => simpa [Prog.readLoop] using hends
      | succ remaining =>
          have hmin : min (remaining + 1) toLeft.length = remaining + 1 := Nat.min_eq_left henough
          have hread : Prog.readLoop (fuel + 1) (remaining + 1) got >>= next =
              .read (remaining + 1) fun chunk =>
                (if chunk.isEmpty then .done none
                  else Prog.readLoop fuel (remaining + 1 - chunk.length) (got ++ chunk)) >>= next :=
            rfl
          rw [hread]
          refine .left hidle ⟨_, _, _, .read (Nat.succ_pos remaining) (le_of_eq hmin.symm)
            (Or.inl hmin.symm)⟩ fun p' toLeft' out hacts => ?_
          cases hacts with
          | read hpos hbound hall =>
              rename_i n
              have hlength : (toLeft.take n).length = n := by
                rw [List.length_take]
                omega
              have hnonempty : (toLeft.take n).isEmpty = false := by
                rw [List.isEmpty_eq_false_iff, ← List.length_pos_iff]
                omega
              dsimp only
              rw [hnonempty, if_neg Bool.false_ne_true, hlength, List.append_nil]
              apply ih (by omega) (by rw [List.length_drop]; omega)
              rwa [List.append_assoc, ← List.take_add, List.drop_drop,
                show n + (remaining + 1 - n) = remaining + 1 by omega]

end

end Duplex
