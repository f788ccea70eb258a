import CLibp2p.Net.Multiaddr
import CLibp2p.Routing.Dht.Outbound

/-!
# Reading a message

`parse_message` of `routing/dht.c`. It is no parser of the encoding: it looks for the first place where a
key stands and reads what is behind it. A pointer into the message is what is left of it from there on.
-/

namespace CLibp2p.Routing.Dht

open Duplex Net

/-- What is left behind the first place where `dht_memmem` finds the key. -/
def behindKey (key : String) (buf : Bytes) : Option Bytes :=
  (buf.tails.find? fun tail => (ascii key).isPrefixOf tail).map fun tail => tail.drop (ascii key).length

def skipSign : Bytes → Bytes
  | [] => []
  | sign :: rest => if sign = '-'.toUInt8 ∨ sign = '+'.toUInt8 then rest else sign :: rest

/-- Where `strtol` stops reading. -/
def strtolEnd (text : Bytes) : Bytes :=
  let digits := skipSign (text.dropWhile isSpace)
  if digits.head?.any isDigit then digits.dropWhile isDigit else text

def colon : UInt8 := ':'.toUInt8

/-- A number, a character that has to stand behind it, and what is left. -/
def numberThen (stop : UInt8) (text : Bytes) : Option (Int × Bytes) :=
  match strtolEnd text with
  | [] => none
  | c :: rest => if c = stop then some (strtol text, rest) else none

inductive MessageType where
  | reply
  | error
  | ping
  | findNode
  | getPeers
  | announcePeer
deriving Repr, DecidableEq

/-- What a caller of `parse_message` finds in its variables. Each length is that of the bytes. -/
structure Message where
  tid : Bytes
  id : Hash
  infoHash : Hash
  target : Hash
  port : UInt16
  token : Bytes
  nodes : Bytes
  nodes6 : Bytes
  values : Bytes
  values6 : Bytes
  want : Want
deriving Repr, DecidableEq

/-- The macro `CHECK` and the copy behind it: `none` is the label `overflow`. -/
def checkedTake (rest : Bytes) (len : Nat) : Option Bytes := if len > rest.length then none else some (rest.take len)

/-- The 20 bytes behind a key, or zeroes. -/
def parseHash (key : String) (buf : Bytes) : Option Hash :=
  match behindKey key buf with
  | none => some zeroes
  | some rest => (checkedTake rest 20).map fun bytes => Vector.ofFn fun i : Fin 20 => bytes.getD i 0

/-- A text behind a key, with its length in front, if that is less than the room for it. -/
def parseString (key : String) (room : Nat) (absent : Bytes) (buf : Bytes) : Option Bytes :=
  match behindKey key buf with
  | none => some absent
  | some rest =>
      match numberThen colon rest with
      | none => some []
      | some (l, rest) => if 0 < l ∧ l < room then checkedTake rest l.toNat else some []

def parsePort (buf : Bytes) : UInt16 :=
  match behindKey "porti" buf with
  | none => 0
  | some rest =>
      match numberThen 'e'.toUInt8 rest with
      | none => 0
      | some (l, _) => if 0 < l ∧ l < 0x10000 then UInt16.ofNat l.toNat else 0

theorem length_skipSign_le (text : Bytes) : (skipSign text).length ≤ text.length := by
  cases text with
  | nil => exact Nat.le_refl _
  | cons sign rest =>
      rw [skipSign]
      split
      · exact Nat.le_succ _
      · exact Nat.le_refl _

theorem length_strtolEnd_le (text : Bytes) : (strtolEnd text).length ≤ text.length := by
  rw [strtolEnd]
  split
  · exact (List.dropWhile_sublist isDigit).length_le.trans
      ((length_skipSign_le _).trans (List.dropWhile_sublist isSpace).length_le)
  · exact Nat.le_refl _

theorem length_of_numberThen {stop : UInt8} {text rest : Bytes} {l : Int}
    (hnumber : numberThen stop text = some (l, rest)) : rest.length < text.length := by
  have hle := length_strtolEnd_le text
  rw [numberThen] at hnumber
  split at hnumber
  · cases hnumber
  · rename_i c tail heq
    rw [heq, List.length_cons] at hle
    split at hnumber
    · simp only [Option.some.injEq, Prod.mk.injEq] at hnumber
      rw [← hnumber.2]
      omega
    · cases hnumber

/-- The loop over the values: those of 6 and of 18 bytes, as far as there is room. -/
def valuesLoop (room : Nat) (text values values6 : Bytes) : Option (Bytes × Bytes) :=
  match h : numberThen colon text with
  | none => some (values, values6)
  | some (l, rest) =>
      if l ≤ 0 then some (values, values6)
      else if l.toNat > rest.length then none
      else
        let value := rest.take l.toNat
        if l = 6 then
          if values.length + 6 > room then valuesLoop room (rest.drop l.toNat) values values6
          else valuesLoop room (rest.drop l.toNat) (values ++ value) values6
        else if l = 18 then
          if values6.length + 18 > room then valuesLoop room (rest.drop l.toNat) values values6
          else valuesLoop room (rest.drop l.toNat) values (values6 ++ value)
        else valuesLoop room (rest.drop l.toNat) values values6
termination_by text.length
decreasing_by
  all_goals
    have hlength := length_of_numberThen h
    rw [List.length_drop]
    omega

def parseValues (room : Nat) (buf : Bytes) : Option (Bytes × Bytes) :=
  match behindKey "6:valuesl" buf with
  | none => some ([], [])
  | some rest => valuesLoop room rest [] []

/-- The loop over what is wanted: texts with a length of one digit. -/
def wantLoop (text : Bytes) (want : Want) : Option Want :=
  match text with
  | digit :: c :: rest =>
      let l := digit.toNat - '0'.toNat
      if digit > '0'.toUInt8 ∧ digit ≤ '9'.toUInt8 ∧ c = colon ∧ l < rest.length then
        if l > rest.length then none
        else
          let want :=
            if digit = '2'.toUInt8 ∧ rest.take 2 = ascii "n4" then (want.toInt32 ||| 1).toInt
            else if digit = '2'.toUInt8 ∧ rest.take 2 = ascii "n6" then (want.toInt32 ||| 2).toInt
            else want
          wantLoop (rest.drop l) want
      else some want
  | _ => some want
termination_by text.length
decreasing_by
  rw [List.length_drop, List.length_cons, List.length_cons]
  omega

def parseWant (buf : Bytes) : Option Want :=
  match behindKey "4:wantl" buf with
  | none => some (-1)
  | some rest => wantLoop rest 0

def parseType (buf : Bytes) : Option MessageType :=
  if (behindKey "1:y1:r" buf).isSome then some .reply
  else if (behindKey "1:y1:e" buf).isSome then some .error
  else if (behindKey "1:y1:q" buf).isNone then none
  else if (behindKey "1:q4:ping" buf).isSome then some .ping
  else if (behindKey "1:q9:find_node" buf).isSome then some .findNode
  else if (behindKey "1:q9:get_peers" buf).isSome then some .getPeers
  else if (behindKey "1:q13:announce_peer" buf).isSome then some .announcePeer
  else none

/-- The room that `dht_periodic` has for what a message brings. -/
def tidRoom : Nat := 16

def tokenRoom : Nat := 128

def nodesRoom : Nat := 26 * 16

def nodes6Room : Nat := 38 * 16

def valuesRoom : Nat := 2048

/-- `parse_message`, as `dht_periodic` calls it. Where no transaction id is found its variable keeps what
it happened to hold, at its full length. -/
def parseMessage (unset : Vector UInt8 tidRoom) (buf : Bytes) : Option (MessageType × Message) := do
  let tid ← parseString "1:t" tidRoom unset.toList buf
  let id ← parseHash "2:id20:" buf
  let infoHash ← parseHash "9:info_hash20:" buf
  let port := parsePort buf
  let target ← parseHash "6:target20:" buf
  let token ← parseString "5:token" tokenRoom [] buf
  let nodes ← parseString "5:nodes" (nodesRoom + 1) [] buf
  let nodes6 ← parseString "6:nodes6" (nodes6Room + 1) [] buf
  let (values, values6) ← parseValues valuesRoom buf
  let want ← parseWant buf
  let type ← parseType buf
  return (type,
    { tid := tid, id := id, infoHash := infoHash, target := target, port := port, token := token,
      nodes := nodes, nodes6 := nodes6, values := values, values6 := values6, want := want })

end CLibp2p.Routing.Dht
