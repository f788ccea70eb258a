import CLibp2p.Utils.ThreadsafeBuffer

/-!
# The buffer is a queue

The block holds exactly what is in the queue, and there is no block exactly when there is nothing in it.
-/

namespace CLibp2p.Utils

open Duplex Machine

/-- The context holds these bytes. -/
def Holds (context : ThreadsafeBufferContext) (queue : Bytes) : Prop :=
  context.bufferSize = queue.length ∧ context.buffer = if queue = [] then none else some queue

/-- What a queue answers to the call. -/
def queueAnswer (queue : Bytes) : QueueOp UInt8 → BufferAnswer
  | .push bytes => ⟨bytes.length, []⟩
  | .peek resultsSize => ⟨min resultsSize queue.length, queue.take resultsSize⟩
  | .pop resultsSize => ⟨min resultsSize queue.length, queue.take resultsSize⟩

/-! ### Blocks -/

theorem copyFrom_append (front rest : Bytes) : copyFrom (front ++ rest) front.length rest.length = some rest := by
  rw [copyFrom, if_pos (Nat.le_of_eq List.length_append.symm), List.drop_left, List.take_length]

theorem length_realloc (memory : Nat → UInt8) (block : Option Bytes) (size : Nat) :
    (realloc memory block size).length = size := by
  rw [realloc, List.length_append, List.length_map, List.length_range, List.length_take]
  omega

theorem copyTo_new (memory : Nat → UInt8) (bytes : Bytes) :
    copyTo (realloc memory none bytes.length) 0 bytes = some bytes := by
  have hlength := length_realloc memory none bytes.length
  rw [copyTo, Nat.zero_add, hlength, if_pos (Nat.le_refl _), List.take_zero, List.nil_append,
    List.drop_of_length_le (Nat.le_of_eq hlength), List.append_nil]

theorem copyTo_grown (memory : Nat → UInt8) (block : Option Bytes) (bytes : Bytes) :
    copyTo (realloc memory block ((block.getD []).length + bytes.length)) (block.getD []).length bytes =
      some (block.getD [] ++ bytes) := by
  have hlength := length_realloc memory block ((block.getD []).length + bytes.length)
  rw [copyTo, hlength, if_pos (Nat.le_refl _), List.drop_of_length_le (Nat.le_of_eq hlength),
    List.append_nil, realloc, List.take_of_length_le (Nat.le_add_right _ _), List.take_left]

/-! ### Calls -/

variable {context : ThreadsafeBufferContext} {queue : Bytes}

theorem Holds.getD_buffer (hholds : Holds context queue) : context.buffer.getD [] = queue := by
  rw [hholds.2]
  split
  · rename_i hempty
    exact hempty.symm
  · rfl

theorem holds_nil : Holds .new [] := ⟨rfl, rfl⟩

theorem holds_of_ne_nil (hne : queue ≠ []) : Holds ⟨queue.length, some queue⟩ queue :=
  ⟨rfl, (if_neg hne).symm⟩

theorem peek_eq (hholds : Holds context queue) (resultsSize : Nat) :
    context.peek resultsSize = some ⟨min resultsSize queue.length, queue.take resultsSize⟩ := by
  obtain ⟨hsize, hbuffer⟩ := hholds
  rw [ThreadsafeBufferContext.peek, hbuffer]
  by_cases hempty : queue = []
  · rw [if_pos hempty, hempty, List.take_nil, List.length_nil, Nat.min_zero]
  · have hpos : 0 < queue.length := List.length_pos_of_ne_nil hempty
    have hcount : (if resultsSize < queue.length then resultsSize else queue.length) =
        min resultsSize queue.length := by
      split <;> omega
    rw [if_neg hempty]
    dsimp only
    rw [hsize, if_pos hpos, hcount, copyFrom, Nat.zero_add, if_pos (Nat.min_le_right _ _), List.drop_zero,
      ← List.take_eq_take_min]
    rfl

theorem read_eq (memory : Nat → UInt8) (hholds : Holds context queue) (resultsSize : Nat) :
    ∃ context', context.read memory resultsSize =
        some (⟨min resultsSize queue.length, queue.take resultsSize⟩, context') ∧
      Holds context' (queue.drop resultsSize) := by
  rw [ThreadsafeBufferContext.read, peek_eq hholds, Option.bind_eq_bind, Option.bind_some]
  dsimp only
  rw [ThreadsafeBufferContext.adjust, hholds.getD_buffer, hholds.1]
  by_cases hnone : min resultsSize queue.length = 0
  · -- nothing was asked for or nothing is held
    have hsame : queue.drop resultsSize = queue := by
      rcases Nat.eq_zero_or_pos resultsSize with hzero | hpos
      · rw [hzero, List.drop_zero]
      · have hempty : queue = [] := List.length_eq_zero_iff.mp (by omega)
        rw [hempty, List.drop_nil]
    rw [if_neg (by omega), hsame]
    exact ⟨context, rfl, hholds⟩
  · rw [if_pos (by omega)]
    by_cases hmore : resultsSize < queue.length
    · have hcount : min resultsSize queue.length = resultsSize := by omega
      have hrest : (queue.drop resultsSize).length = queue.length - resultsSize := List.length_drop
      have hne : queue.drop resultsSize ≠ [] := by
        rw [← List.length_pos_iff_ne_nil, hrest]
        omega
      have hcopy : copyFrom queue resultsSize (queue.drop resultsSize).length =
          some (queue.drop resultsSize) := by
        have hfront : (queue.take resultsSize).length = resultsSize :=
          List.length_take_of_le (Nat.le_of_lt hmore)
        have happend := copyFrom_append (queue.take resultsSize) (queue.drop resultsSize)
        rwa [List.take_append_drop, hfront] at happend
      rw [hcount, if_pos (by omega), ← hrest]
      simp only [hcopy, copyTo_new, Option.bind_eq_bind, Option.bind_some]
      exact ⟨_, rfl, holds_of_ne_nil hne⟩
    · have hrest : queue.drop resultsSize = [] := List.drop_of_length_le (Nat.not_lt.mp hmore)
      rw [if_neg (by omega), hrest]
      exact ⟨_, rfl, holds_nil⟩

theorem write_eq (memory : Nat → UInt8) (hholds : Holds context queue) (bytes : Bytes) :
    ∃ context', context.write memory bytes = some (⟨bytes.length, []⟩, context') ∧
      Holds context' (queue ++ bytes) := by
  rw [ThreadsafeBufferContext.write]
  by_cases hnone : bytes.length = 0
  · have hempty := List.length_eq_zero_iff.mp hnone
    rw [if_pos hnone, hnone, hempty, List.append_nil]
    exact ⟨context, rfl, hholds⟩
  · have hne : queue ++ bytes ≠ [] := by
      rw [← List.length_pos_iff_ne_nil, List.length_append]
      omega
    have hcopy := copyTo_grown memory context.buffer bytes
    rw [hholds.getD_buffer] at hcopy
    rw [if_neg hnone, hholds.1]
    dsimp only
    rw [hcopy, ← List.length_append]
    exact ⟨_, rfl, holds_of_ne_nil hne⟩

/-- One call does what it does to the queue. -/
theorem call_eq (memory : Nat → UInt8) (context : ThreadsafeBufferContext) (queue : Bytes)
    (op : QueueOp UInt8) (hholds : Holds context queue) :
    ∃ context', context.call memory op = some (queueAnswer queue op, context') ∧
      Holds context' (QueueOp.next queue op) := by
  cases op with
  | push bytes => exact write_eq memory hholds bytes
  | peek resultsSize =>
      refine ⟨context, ?_, hholds⟩
      rw [ThreadsafeBufferContext.call, peek_eq hholds]
      rfl
  | pop resultsSize => exact read_eq memory hholds resultsSize

/-- **The buffer.** Over any calls it answers as a queue does. What was read and what is held are what was
written, in order, and `buffer_size` counts what was written and not read. -/
theorem buffer_isQueue (memory : Nat → UInt8) (ops : List (QueueOp UInt8)) :
    ∃ context, tryRun (ThreadsafeBufferContext.call memory) .new ops =
        some (outputs QueueOp.next (fun queue op => [queueAnswer queue op]) [] ops, context) ∧
      Holds context (run QueueOp.next [] ops) ∧
      outputs QueueOp.next QueueOp.popped [] ops ++ run QueueOp.next [] ops =
        outputs QueueOp.next QueueOp.pushed [] ops ∧
      (context.bufferSize : Int) = (outputs QueueOp.next QueueOp.pushed [] ops).length -
        (outputs QueueOp.next QueueOp.popped [] ops).length := by
  obtain ⟨context, hcalls, hholds⟩ := tryRun_of_simulates (call_eq memory) holds_nil ops
  have hkept := QueueOp.popped_append_queue ([] : Bytes) ops
  rw [List.nil_append] at hkept
  refine ⟨context, hcalls, hholds, hkept, ?_⟩
  rw [hholds.1, ← hkept, List.length_append]
  omega

end CLibp2p.Utils
