import CLibp2p.Protobuf.Fields

/-!
# The identify message

The protobuf of `identify/identify.c`, whose two lists are arrays of pointers with a NULL at their end.
-/

namespace CLibp2p

open Duplex

abbrev CString := { text : Bytes // 0 ∉ text }

theorem zero_not_mem_cString (data : Bytes) : 0 ∉ cString data := by
  intro hzero
  have hne := List.mem_takeWhile_imp hzero
  simp at hne

/-- The string at the start of this memory. -/
def stringAt (data : Bytes) : CString := ⟨cString data, zero_not_mem_cString data⟩

/-- An array of pointers, with a NULL somewhere. -/
abbrev PointerArray := { pointers : List (Option CString) // none ∈ pointers }

/-- What a loop over the array sees. -/
def PointerArray.items (array : PointerArray) : List CString :=
  (array.val.takeWhile Option.isSome).reduceOption

def itemsOf (array : Option PointerArray) : List CString :=
  match array with
  | none => []
  | some array => array.items

/-- `libp2p_identify_array_add_item`. The count of an array that is there includes its NULL. -/
def arrayAddItem (array : Option PointerArray) (item : CString) : PointerArray :=
  match array with
  | none => ⟨[some item, none], by simp⟩
  | some array =>
      let count := array.val.findIdx Option.isNone + 1
      ⟨array.val.take count ++ [some item, none], by simp⟩

/-- The public key is a pointer to bytes that `PublicKeyLength` counts. -/
structure Identify where
  publicKey : Option Bytes
  publicKeyLength : Int32
  listenAddrs : Option PointerArray
  protocols : Option PointerArray
  observedAddr : Option CString
  protocolVersion : Option CString
  agentVersion : Option CString
  unrecognized : Option CString
deriving DecidableEq

def identifyProtocolVersion : CString := ⟨"ipfs/0.1.0".toUTF8.toList, by decide +kernel⟩

def identifyAgentVersion : CString := ⟨"c-ipfs/1.0".toUTF8.toList, by decide +kernel⟩

/-- `libp2p_identify_new`, which leaves `PublicKeyLength` as `malloc` gave it. -/
def Identify.new (uninitialized : Int32) : Identify :=
  ⟨none, uninitialized, none, none, none, some identifyProtocolVersion, some identifyAgentVersion, none⟩

def stringFields (fieldNo : Nat) (texts : List CString) : List (Nat × FieldValue) :=
  texts.map fun text => (fieldNo, .string text)

def Identify.fields (identify : Identify) : List (Nat × FieldValue) :=
  (identify.publicKey.toList.map fun key =>
      (1, .bytes (key.take (sizeOfInt identify.publicKeyLength.toInt)))) ++
    stringFields 2 (itemsOf identify.listenAddrs) ++ stringFields 3 (itemsOf identify.protocols) ++
    stringFields 4 identify.observedAddr.toList ++ stringFields 5 identify.protocolVersion.toList ++
    stringFields 6 identify.agentVersion.toList

/-- `libp2p_identify_protobuf_encode`. -/
def identifyEncode (lib : FieldLibrary) (identify : Identify) (maxOut : Nat) : Option Bytes :=
  lib.encode identify.fields maxOut

/-- What is appended to the unrecognized items, after a comma unless it is the first. -/
def addUnrecognized (unrecognized : Option CString) (item : CString) : CString :=
  match unrecognized with
  | none => item
  | some text => stringAt (text.val ++ [','.toUInt8] ++ item.val)

/-- A field with an unknown number is taken for a string. -/
def identifyField (lib : FieldLibrary) (fieldNo : Nat) (input : Bytes) (identify : Identify) :
    Option (Identify × Nat) :=
  match fieldNo with
  | 1 => stringField lib input fun data => { identify with publicKey := some data }
  | 2 => stringField lib input fun data =>
      { identify with listenAddrs := some (arrayAddItem identify.listenAddrs (stringAt data)) }
  | 3 => stringField lib input fun data =>
      { identify with protocols := some (arrayAddItem identify.protocols (stringAt data)) }
  | 4 => stringField lib input fun data => { identify with observedAddr := some (stringAt data) }
  | 5 => stringField lib input fun data => { identify with protocolVersion := some (stringAt data) }
  | 6 => stringField lib input fun data => { identify with agentVersion := some (stringAt data) }
  | _ => stringField lib input fun data =>
      { identify with unrecognized := some (addUnrecognized identify.unrecognized (stringAt data)) }

/-- `libp2p_identify_protobuf_decode`. -/
def identifyDecode (lib : FieldLibrary) (uninitialized : Int32) (input behind : Bytes) : Option Identify :=
  decodeBuffer lib.toProtobuf (identifyField lib) input behind (.new uninitialized)

end CLibp2p
