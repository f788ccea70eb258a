import CLibp2p.Machine.Runs
import CLibp2p.Stream.Bytes

/-!
# The vector

`utils/vector.c`: an array of pointers that doubles when it is full and halves when a quarter of it is
in use.
-/

namespace CLibp2p.Utils

open Duplex

variable {α : Type}

/-- `struct Libp2pVector`. A pointer is `none` if it is NULL, as is a place not written yet. -/
structure Libp2pVector (α : Type) where
  items : List (Option α)
  capacity : Nat
  total : Nat
deriving Repr, DecidableEq

namespace Libp2pVector

/-- `libp2p_utils_vector_new`. -/
def new (α : Type) (initialSize : Nat) : Libp2pVector α :=
  ⟨List.replicate initialSize none, initialSize, 0⟩

/-- `libp2p_utils_vector_resize`, where `granted` says whether `realloc` has the memory. A capacity that
overflows is negative, and more than `realloc` ever has. -/
def resize (v : Libp2pVector α) (capacity : Nat) (granted : Bool) : Libp2pVector α :=
  if granted && decide (capacity < intBound) then
    { v with
      items := (v.items ++ List.replicate capacity none).take capacity
      capacity }
  else v

/-- `libp2p_utils_vector_add`. A write behind the array hits other memory. -/
def add (v : Libp2pVector α) (item : Option α) (granted : Bool) : Libp2pVector α :=
  let v := if v.capacity = v.total then v.resize (v.capacity * 2) granted else v
  { v with items := v.items.set v.total item, total := v.total + 1 }

def set (v : Libp2pVector α) (index : Int) (item : Option α) : Libp2pVector α :=
  if 0 ≤ index ∧ index < v.total then { v with items := v.items.set index.toNat item } else v

def get (v : Libp2pVector α) (index : Int) : Option α :=
  if 0 ≤ index ∧ index < v.total then v.items.getD index.toNat none else none

/-- The loop of `libp2p_utils_vector_delete`: `count` times, from the first place on, the next item
comes one place down. -/
def shiftDown (items : List (Option α)) (count : Nat) : List (Option α) :=
  (List.range count).foldl
    (fun items i => (items.set i (items.getD (i + 1) none)).set (i + 1) none) items

def delete (v : Libp2pVector α) (index : Int) (granted : Bool) : Libp2pVector α :=
  if index < 0 ∨ v.total ≤ index then v
  else
    let items := shiftDown (v.items.set index.toNat none) (v.total - 1)
    let v := { v with items, total := v.total - 1 }
    if 0 < v.total ∧ v.total = v.capacity / 4 then v.resize (v.capacity / 2) granted else v

def contents (v : Libp2pVector α) : List (Option α) := v.items.take v.total

end Libp2pVector

/-! ### Runs -/

/-- One call, with what `realloc` has to say should the call come to it. -/
inductive VectorCall (α : Type) where
  | add (item : Option α) (granted : Bool)
  | set (index : Int) (item : Option α)
  | get (index : Int)
  | delete (index : Int) (granted : Bool)
deriving Repr, DecidableEq

def Libp2pVector.call (v : Libp2pVector α) : VectorCall α → Libp2pVector α
  | .add item granted => v.add item granted
  | .set index item => v.set index item
  | .get _ => v
  | .delete index granted => v.delete index granted

def listCall (list : List (Option α)) : VectorCall α → List (Option α)
  | .add item _ => list ++ [item]
  | .set index item => if 0 ≤ index then list.set index.toNat item else list
  | .get _ => list
  | .delete index _ => if 0 ≤ index then list.eraseIdx index.toNat else list

/-- The vector with the list that the same calls make. -/
abbrev VectorRun (α : Type) := Libp2pVector α × List (Option α)

def VectorRun.call (run : VectorRun α) (call : VectorCall α) : VectorRun α :=
  (run.1.call call, listCall run.2 call)

def VectorRun.IsList (run : VectorRun α) : Prop :=
  run.1.total = run.2.length ∧ run.1.total ≤ run.1.capacity ∧
    ∀ index : Int, run.1.get index = if 0 ≤ index then run.2.getD index.toNat none else none

end CLibp2p.Utils
