import CLibp2p.Protobuf.Fields

/-!
# The record

The protobuf of `record/record.c`: a key, a value, an author, a signature and a time.
-/

namespace CLibp2p.Record

open Duplex

/-- `struct Libp2pRecord`. A size is the length of its field. -/
structure Libp2pRecord where
  key : Bytes
  value : Bytes
  author : Bytes
  signature : Bytes
  timeReceived : Bytes
deriving Repr, DecidableEq

/-- `libp2p_record_new`. -/
def Libp2pRecord.new : Libp2pRecord := ⟨[], [], [], [], []⟩

def Libp2pRecord.fields (record : Libp2pRecord) : List (Nat × FieldValue) :=
  [(1, .bytes record.key), (2, .bytes record.value), (3, .bytes record.author),
    (4, .bytes record.signature), (5, .bytes record.timeReceived)]

/-- `libp2p_record_protobuf_encode_size`. -/
def recordEncodeSize (record : Libp2pRecord) : Nat := encodeSizes record.fields

/-- `libp2p_record_protobuf_encode`. -/
def recordEncode (lib : FieldLibrary) (record : Libp2pRecord) (maxOut : Nat) : Option Bytes :=
  lib.encode record.fields maxOut

/-- The size of the key is what `strlen` makes of it. -/
def recordField (lib : FieldLibrary) (fieldNo : Nat) (input : Bytes) (record : Libp2pRecord) :
    Option (Libp2pRecord × Nat) :=
  match fieldNo with
  | 1 => stringField lib input fun text => { record with key := cString text }
  | 2 => lengthDelimited lib.toProtobuf input fun data => { record with value := data }
  | 3 => lengthDelimited lib.toProtobuf input fun data => { record with author := data }
  | 4 => lengthDelimited lib.toProtobuf input fun data => { record with signature := data }
  | 5 => lengthDelimited lib.toProtobuf input fun data => { record with timeReceived := data }
  | _ => some (record, 0)

/-- `libp2p_record_protobuf_decode`. -/
def recordDecode (lib : FieldLibrary) (input behind : Bytes) : Option Libp2pRecord :=
  decodeBuffer lib.toProtobuf (recordField lib) input behind .new

end CLibp2p.Record
