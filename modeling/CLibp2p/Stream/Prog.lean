import Mathlib.Data.List.TakeDrop
import Mathlib.Data.UInt
import Mathlib.Data.List.Infix
import Mathlib.Tactic.Common

/-!
# Programs over a duplex stream

Code that talks to its peer through a stream of symbols is a tree of calls: read at most so many
symbols, write these, close, or put a question to the caller's environment. `Prog.run` plays such a
tree against a `Wire`, which holds what the peer sends together with a plan of how the stream splits
reads and cuts writes short. Quantifying over wires is quantifying over everything the stream and
the peer can do, and a run is still a function that can be evaluated.
-/

namespace Duplex

/-- A sequential program over a stream of `σ`. Questions `Q` are answered in `A`; a question whose
answer is ignored is an annotation that only leaves its mark in the log of the run. -/
inductive Prog (σ Q A α : Type) where
  | done (value : α)
  | read (want : Nat) (next : List σ → Prog σ Q A α)
  | write (data : List σ) (next : Int → Prog σ Q A α)
  | close (next : Unit → Prog σ Q A α)
  | ask (query : Q) (next : A → Prog σ Q A α)

namespace Prog

variable {σ Q A α β : Type}

def bind : Prog σ Q A α → (α → Prog σ Q A β) → Prog σ Q A β
  | .done value, f => f value
  | .read want next, f => .read want fun chunk => (next chunk).bind f
  | .write data next, f => .write data fun ret => (next ret).bind f
  | .close next, f => .close fun u => (next u).bind f
  | .ask query next, f => .ask query fun answer => (next answer).bind f

instance : Monad (Prog σ Q A) where
  pure := .done
  bind := .bind

@[simp] theorem pure_eq_done (value : α) : (pure value : Prog σ Q A α) = .done value := rfl

@[simp] theorem done_bind (value : α) (f : α → Prog σ Q A β) : (.done value >>= f) = f value := rfl

@[simp] theorem read_bind (want : Nat) (next : List σ → Prog σ Q A α) (f : α → Prog σ Q A β) :
    (.read want next >>= f) = .read want fun chunk => next chunk >>= f := rfl

@[simp] theorem write_bind (data : List σ) (next : Int → Prog σ Q A α) (f : α → Prog σ Q A β) :
    (.write data next >>= f) = .write data fun ret => next ret >>= f := rfl

@[simp] theorem close_bind (next : Unit → Prog σ Q A α) (f : α → Prog σ Q A β) :
    (.close next >>= f) = .close fun u => next u >>= f := rfl

@[simp] theorem ask_bind (query : Q) (next : A → Prog σ Q A α) (f : α → Prog σ Q A β) :
    (.ask query next >>= f) = .ask query fun answer => next answer >>= f := rfl

theorem bind_assoc {γ : Type} (p : Prog σ Q A α) (f : α → Prog σ Q A β)
    (g : β → Prog σ Q A γ) : p >>= f >>= g = p >>= fun value => f value >>= g := by
  induction p with
  | done value => rfl
  | read want next ih => exact congrArg (Prog.read want) (funext ih)
  | write data next ih => exact congrArg (Prog.write data) (funext ih)
  | close next ih => exact congrArg Prog.close (funext ih)
  | ask query next ih => exact congrArg (Prog.ask query) (funext ih)

/-- One read of at most `want` symbols; the empty answer stands for every result below one. -/
def recv (want : Nat) : Prog σ Q A (List σ) := .read want .done

/-- One write, answered with the stream's return value. -/
def send (data : List σ) : Prog σ Q A Int := .write data .done

def shut : Prog σ Q A Unit := .close .done

def query (q : Q) : Prog σ Q A A := .ask q .done

/-- Leave `q` in the log of the run. -/
def note (q : Q) : Prog σ Q A Unit := .ask q fun _ => .done ()

/-- The read loop `while (total < len) { ret = read(buf + total, len - total); .. }`: `remaining`
symbols are still missing and `got` are in the buffer. A result below one ends it. -/
def readLoop : (fuel remaining : Nat) → (got : List σ) → Prog σ Q A (Option (List σ))
  | _, 0, got => .done (some got)
  | 0, _ + 1, _ => .done none
  | fuel + 1, remaining + 1, got => .read (remaining + 1) fun chunk =>
      if chunk.isEmpty then .done none
      else readLoop fuel (remaining + 1 - chunk.length) (got ++ chunk)

/-- Read exactly `len` symbols, in as many reads as it takes. Each successful read returns at least
one symbol, so `len` rounds are enough. -/
def readExactly (len : Nat) : Prog σ Q A (Option (List σ)) := readLoop len len []

end Prog

/-- What the stream does with one write: it takes `taken` symbols and reports either that number or
a failure (which may come after some symbols went out). -/
structure WriteOutcome where
  taken : Nat
  failed : Bool
deriving Repr, DecidableEq

/-- The environment of a run. `inbound` is what the peer sends and is not read yet, `grants` bounds
the coming reads (a grant of zero is a failing read), `outcomes` decides the coming writes and
`answers` the coming questions. A used-up plan means full reads, complete writes and the default
answer. `sent`, `asked` and `failed` record the run: what each write took, each question with its
answer, and whether a read failed. A stream that failed or was closed gives nothing any more. -/
structure Wire (σ Q A : Type) where
  inbound : List σ
  grants : List Nat
  outcomes : List WriteOutcome
  answers : List A
  sent : List (List σ)
  asked : List (Q × A)
  failed : Bool
  closed : Bool
deriving Repr, DecidableEq

namespace Wire

variable {σ Q A : Type}

/-- A stream on which nothing has happened yet. -/
def fresh (inbound : List σ) (grants : List Nat) (outcomes : List WriteOutcome)
    (answers : List A) : Wire σ Q A :=
  { inbound, grants, outcomes, answers, sent := [], asked := [], failed := false, closed := false }

/-- A read that fails fails from then on. -/
def read (w : Wire σ Q A) (want : Nat) : List σ × Wire σ Q A :=
  let chunk := if w.failed || w.closed then [] else w.inbound.take (min (w.grants.headD want) want)
  (chunk, { w with
    inbound := w.inbound.drop chunk.length
    grants := w.grants.tail
    failed := w.failed || chunk.isEmpty })

def write (w : Wire σ Q A) (data : List σ) : Int × Wire σ Q A :=
  let outcome := w.outcomes.headD ⟨data.length, false⟩
  let taken := if w.closed then [] else data.take outcome.taken
  (if outcome.failed || w.closed then -1 else taken.length, { w with
    outcomes := w.outcomes.tail
    sent := w.sent ++ [taken] })

def ask [Inhabited A] (w : Wire σ Q A) (q : Q) : A × Wire σ Q A :=
  let answer := w.answers.headD default
  (answer, { w with answers := w.answers.tail, asked := w.asked ++ [(q, answer)] })

def close (w : Wire σ Q A) : Wire σ Q A := { w with closed := true }

/-- Everything the writes of the run put on the stream. -/
def outbound (w : Wire σ Q A) : List σ := w.sent.flatten

end Wire

namespace Prog

variable {σ Q A α β : Type} [Inhabited A]

def run : Prog σ Q A α → Wire σ Q A → α × Wire σ Q A
  | .done value, w => (value, w)
  | .read want next, w => (next (w.read want).1).run (w.read want).2
  | .write data next, w => (next (w.write data).1).run (w.write data).2
  | .close next, w => (next ()).run w.close
  | .ask query next, w => (next (w.ask query).1).run (w.ask query).2

@[simp] theorem run_done (value : α) (w : Wire σ Q A) :
    (Prog.done value).run w = (value, w) := rfl

@[simp] theorem run_pure (value : α) (w : Wire σ Q A) :
    (pure value : Prog σ Q A α).run w = (value, w) := rfl

@[simp] theorem run_recv (want : Nat) (w : Wire σ Q A) :
    (recv want : Prog σ Q A _).run w = w.read want := rfl

@[simp] theorem run_send (data : List σ) (w : Wire σ Q A) :
    (send data : Prog σ Q A _).run w = w.write data := rfl

@[simp] theorem run_shut (w : Wire σ Q A) : (shut : Prog σ Q A _).run w = ((), w.close) := rfl

@[simp] theorem run_query (q : Q) (w : Wire σ Q A) : (query q).run w = w.ask q := rfl

@[simp] theorem run_note (q : Q) (w : Wire σ Q A) :
    (note q : Prog σ Q A _).run w = ((), (w.ask q).2) := rfl

@[simp] theorem run_bind (p : Prog σ Q A α) (f : α → Prog σ Q A β) (w : Wire σ Q A) :
    (p >>= f).run w = (f (p.run w).1).run (p.run w).2 := by
  induction p generalizing w with
  | done value => rfl
  | read want next ih => exact ih _ _
  | write data next ih => exact ih _ _
  | close next ih => exact ih _ _
  | ask query next ih => exact ih _ _

theorem run_bind_eq {p : Prog σ Q A α} {f : α → Prog σ Q A β} {w w' : Wire σ Q A} {result : β}
    (hrun : (p >>= f).run w = (result, w')) :
    ∃ value w₁, p.run w = (value, w₁) ∧ (f value).run w₁ = (result, w') := by
  rw [run_bind] at hrun
  exact ⟨_, _, rfl, hrun⟩

end Prog

/-! ### What a read loop does to the wire -/

namespace Wire

variable {σ Q A : Type}

/-- `w'` differs from `w` only in what was read. -/
structure SameOutput (w w' : Wire σ Q A) : Prop where
  outcomes : w'.outcomes = w.outcomes
  answers : w'.answers = w.answers
  sent : w'.sent = w.sent
  asked : w'.asked = w.asked
  closed : w'.closed = w.closed

theorem SameOutput.refl (w : Wire σ Q A) : w.SameOutput w := ⟨rfl, rfl, rfl, rfl, rfl⟩

theorem SameOutput.trans {w w' w'' : Wire σ Q A} (hfirst : w.SameOutput w')
    (hsecond : w'.SameOutput w'') : w.SameOutput w'' :=
  ⟨hsecond.outcomes.trans hfirst.outcomes, hsecond.answers.trans hfirst.answers,
    hsecond.sent.trans hfirst.sent, hsecond.asked.trans hfirst.asked,
    hsecond.closed.trans hfirst.closed⟩

/-- `w'` is `w` after exactly `n` inbound symbols were read. -/
structure Took (w : Wire σ Q A) (n : Nat) (w' : Wire σ Q A) : Prop extends SameOutput w w' where
  inbound : w'.inbound = w.inbound.drop n
  enough : n ≤ w.inbound.length
  failed : w'.failed = w.failed

/-- `w'` is `w` after a read failed. -/
structure Broke (w w' : Wire σ Q A) : Prop extends SameOutput w w' where
  failed : w'.failed = true

theorem Took.trans {w w' w'' : Wire σ Q A} {m n : Nat} (hfirst : w.Took m w') (hsecond : w'.Took n w'') :
    w.Took (m + n) w'' := by
  have henough := hsecond.enough
  rw [hfirst.inbound, List.length_drop] at henough
  have hfirstEnough := hfirst.enough
  refine ⟨hfirst.toSameOutput.trans hsecond.toSameOutput, ?_, by omega,
    hsecond.failed.trans hfirst.failed⟩
  rw [hsecond.inbound, hfirst.inbound, List.drop_drop]

/-- A write puts a part of the data on the stream and reports how much, or a failure. -/
theorem write_cases (w : Wire σ Q A) (data : List σ) :
    ∃ chunk, chunk <+: data ∧ (w.write data).2.sent = w.sent ++ [chunk] ∧
      ((w.write data).1 = -1 ∨ (w.write data).1 = chunk.length) := by
  refine ⟨if w.closed then [] else data.take (w.outcomes.headD ⟨data.length, false⟩).taken, ?_, rfl,
    ?_⟩
  · split
    · exact List.nil_prefix
    · exact List.take_prefix _ _
  · rw [write]
    by_cases hfailed : ((w.outcomes.headD ⟨data.length, false⟩).failed || w.closed) = true
    · exact Or.inl (if_pos hfailed)
    · exact Or.inr (if_neg hfailed)

theorem read_sameOutput (w : Wire σ Q A) (want : Nat) : w.SameOutput (w.read want).2 :=
  ⟨rfl, rfl, rfl, rfl, rfl⟩

theorem read_cases (w : Wire σ Q A) (want : Nat) :
    ((w.read want).1 = [] ∧ w.Broke (w.read want).2) ∨
      ∃ n, 0 < n ∧ n ≤ want ∧ (w.read want).1 = w.inbound.take n ∧ w.Took n (w.read want).2 := by
  by_cases hempty : (w.read want).1 = []
  · refine Or.inl ⟨hempty, read_sameOutput w want, ?_⟩
    have hchunk : (w.read want).1.isEmpty = true := by rw [hempty]; rfl
    change (w.failed || (w.read want).1.isEmpty) = true
    rw [hchunk, Bool.or_true]
  · have hlive : (w.failed || w.closed) = false := by
      by_contra hdead
      exact hempty (by simp [read, hdead])
    have hchunk : (w.read want).1 = w.inbound.take (min (w.grants.headD want) want) := by
      simp [read, hlive]
    refine Or.inr ⟨(w.read want).1.length, List.length_pos_iff.mpr hempty, ?_, ?_,
      read_sameOutput w want, rfl, ?_, ?_⟩
    · rw [hchunk, List.length_take]
      omega
    · rw [hchunk, List.length_take, List.take_eq_take_iff]
      omega
    · rw [hchunk, List.length_take]
      omega
    · have hnonempty : (w.read want).1.isEmpty = false := by simpa using hempty
      change (w.failed || (w.read want).1.isEmpty) = w.failed
      rw [hnonempty, Bool.or_false]

end Wire

namespace Prog

variable {σ Q A : Type} [Inhabited A]

theorem run_readLoop (fuel remaining : Nat) (got : List σ) (w : Wire σ Q A)
    (hfuel : remaining ≤ fuel) :
    (∃ w', (readLoop fuel remaining got).run w = (some (got ++ w.inbound.take remaining), w') ∧
        w.Took remaining w') ∨
      ∃ w', (readLoop fuel remaining got).run w = (none, w') ∧ w.Broke w' := by
  induction fuel generalizing remaining got w with
  | zero =>
      obtain rfl : remaining = 0 := by omega
      exact Or.inl ⟨w, by simp [readLoop], Wire.SameOutput.refl w, rfl, Nat.zero_le _, rfl⟩
  | succ fuel ih =>
      cases remaining with
      | zero =>
          exact Or.inl ⟨w, by simp [readLoop], Wire.SameOutput.refl w, rfl, Nat.zero_le _, rfl⟩
      | succ remaining =>
          have hrun : (readLoop (fuel + 1) (remaining + 1) got).run w =
              (if (w.read (remaining + 1)).1.isEmpty then Prog.done none
                else readLoop fuel (remaining + 1 - (w.read (remaining + 1)).1.length)
                  (got ++ (w.read (remaining + 1)).1)).run (w.read (remaining + 1)).2 := rfl
          rw [hrun]
          obtain ⟨hempty, hbroke⟩ | ⟨n, hpos, hle, hchunk, htook⟩ := w.read_cases (remaining + 1)
          · exact Or.inr ⟨_, by rw [hempty]; rfl, hbroke⟩
          · have hlength : (w.inbound.take n).length = n := by
              rw [List.length_take]
              have := htook.enough
              omega
            have hnonempty : (w.inbound.take n).isEmpty = false := by
              rw [List.isEmpty_eq_false_iff, ← List.length_pos_iff]
              omega
            rw [hchunk, hnonempty, hlength]
            simp only [Bool.false_eq_true, if_false]
            obtain ⟨w', hloop, hrest⟩ | ⟨w', hloop, hbroke⟩ :=
              ih (remaining + 1 - n) (got ++ w.inbound.take n) (w.read (remaining + 1)).2
                (by omega)
            · have hall : n + (remaining + 1 - n) = remaining + 1 := by omega
              have htotal := htook.trans hrest
              rw [hall] at htotal
              refine Or.inl ⟨w', ?_, htotal⟩
              rw [hloop, htook.inbound, List.append_assoc, ← List.take_add, hall]
            · exact Or.inr ⟨w', hloop, htook.toSameOutput.trans hbroke.toSameOutput, hbroke.failed⟩

/-- A stream that failed gives nothing any more. -/
theorem run_readExactly_of_failed {len : Nat} (w : Wire σ Q A) (hlen : 0 < len)
    (hfailed : w.failed = true) : ((readExactly len).run w).1 = none := by
  obtain ⟨len, rfl⟩ : ∃ n, len = n + 1 := ⟨len - 1, by omega⟩
  have hchunk : (w.read (len + 1)).1 = [] := by simp [Wire.read, hfailed]
  change ((if (w.read (len + 1)).1.isEmpty then Prog.done none else _).run
    (w.read (len + 1)).2).1 = none
  rw [hchunk]
  rfl

/-- A read loop returns the next `len` symbols whatever the splits, or the stream failed. -/
theorem run_readExactly (len : Nat) (w : Wire σ Q A) :
    (∃ w', (readExactly len).run w = (some (w.inbound.take len), w') ∧ w.Took len w') ∨
      ∃ w', (readExactly len).run w = (none, w') ∧ w.Broke w' := by
  simpa [readExactly] using run_readLoop len len [] w le_rfl

end Prog

end Duplex
