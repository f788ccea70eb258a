import CLibp2p.Proof.ProtobufFields
import CLibp2p.Secio.Messages

/-!
# The secio messages decode to themselves

One induction over the list of fields serves the two messages: the decoder, started on the encoding of
a list of fields it knows, stores them one after the other. The buffers are large enough, so the
exchange, whose encoder may stop in the middle unnoticed, is complete too.
-/

namespace CLibp2p.Secio

open Duplex

section

variable {pb : Protobuf} {ρ : Type}

/-- `field` stores the data of these fields with `put`. -/
def Stores (pb : Protobuf) (field : Nat → Bytes → ρ → Option (ρ × Nat)) (put : Nat → Bytes → ρ → ρ)
    (fields : List (Nat × Bytes)) : Prop :=
  ∀ entry ∈ fields, 0 < entry.1 ∧ entry.1 < 16 ∧ ∀ input record,
    field entry.1 input record = lengthDelimited pb input fun data => put entry.1 data record

theorem encodeFields_cons {fieldNo maxOut : Nat} {data out : Bytes} {fields : List (Nat × Bytes)}
    (hencode : encodeFields pb ((fieldNo, data) :: fields) maxOut = (out, true)) :
    ∃ first more, pb.encodeLengthDelimited fieldNo data maxOut = some first ∧
      encodeFields pb fields (maxOut - first.length) = (more, true) ∧ out = first ++ more := by
  rw [encodeFields] at hencode
  split at hencode
  · cases hencode
  · rename_i first hfirst
    obtain ⟨hout, hcomplete⟩ := Prod.ext_iff.mp hencode
    exact ⟨first, _, hfirst, Prod.ext rfl hcomplete, hout.symm⟩

theorem fieldSteps_encodeFields (hlawful : pb.Lawful)
    {field : Nat → Bytes → ρ → Option (ρ × Nat)} {put : Nat → Bytes → ρ → ρ}
    {fields : List (Nat × Bytes)} (hstores : Stores pb field put fields) {maxOut : Nat}
    {out : Bytes} (hencode : encodeFields pb fields maxOut = (out, true)) (record : ρ) :
    FieldSteps pb field out record
      (fields.foldl (fun record entry => put entry.1 entry.2 record) record) := by
  induction fields generalizing maxOut out record with
  | nil =>
      cases hencode
      exact FieldSteps.nil record
  | cons entry fields ih =>
      obtain ⟨fieldNo, data⟩ := entry
      obtain ⟨first, more, hfirst, hmore, rfl⟩ := encodeFields_cons hencode
      obtain ⟨⟨hpos, hsmall, hfield⟩, hfields⟩ := List.forall_mem_cons.mp hstores
      refine FieldSteps.cons (fieldStep_lengthDelimited hlawful hpos hsmall hfirst ?_)
        (ih hfields hmore _)
      intro input count hread
      rw [hfield, lengthDelimited, hread]

theorem encodeFields_complete (hlawful : pb.Lawful) {fields : List (Nat × Bytes)}
    (hfields : ∀ entry ∈ fields, 0 < entry.1 ∧ entry.1 < 16) {maxOut : Nat}
    (hspace : encodeSize fields ≤ maxOut) (hmax : maxOut < 2 ^ 64) :
    (encodeFields pb fields maxOut).2 = true := by
  induction fields generalizing maxOut with
  | nil => rfl
  | cons entry fields ih =>
      obtain ⟨fieldNo, data⟩ := entry
      obtain ⟨hpos, hsmall⟩ := hfields (fieldNo, data) List.mem_cons_self
      rw [encodeSize] at hspace
      obtain ⟨out, hout⟩ := hlawful.encodes fieldNo data maxOut hpos hsmall hmax (by omega)
      have hlength := hlawful.header fieldNo data maxOut out hpos hsmall hout
      rw [encodeFields, hout]
      exact ih (fun entry hentry => hfields entry (List.mem_cons_of_mem _ hentry)) (by omega)
        (by omega)

/-- What is written fits the buffer, also where the encoder stops. -/
theorem length_encodeFields_le (hlawful : pb.Lawful) (fields : List (Nat × Bytes)) (maxOut : Nat) :
    (encodeFields pb fields maxOut).1.length ≤ maxOut := by
  induction fields generalizing maxOut with
  | nil => exact Nat.zero_le _
  | cons entry fields ih =>
      obtain ⟨fieldNo, data⟩ := entry
      rw [encodeFields]
      split
      · exact Nat.zero_le _
      · rename_i out hout
        have hfirst := hlawful.fits fieldNo data maxOut out hout
        have hmore := ih (maxOut - out.length)
        rw [List.length_append]
        omega

theorem encodeFields_length_pos (hlawful : pb.Lawful) {fieldNo maxOut : Nat} {data out : Bytes}
    {fields : List (Nat × Bytes)} (hpos : 0 < fieldNo) (hsmall : fieldNo < 16)
    (hencode : encodeFields pb ((fieldNo, data) :: fields) maxOut = (out, true)) :
    0 < out.length := by
  obtain ⟨first, more, hfirst, -, rfl⟩ := encodeFields_cons hencode
  obtain ⟨headerBytes, varintLength, hvarint, hlength, -⟩ :=
    hlawful.decodes fieldNo data maxOut first hpos hsmall hfirst
  rw [List.length_append]
  omega

end

section

variable {pb : Protobuf}

theorem proposeEncode_fields {propose : Propose} {out : Bytes}
    (hencode : proposeEncode pb propose = some out) :
    encodeFields pb propose.fields (encodeSize propose.fields) = (out, true) := by
  rw [proposeEncode] at hencode
  split at hencode
  · rename_i out' hfields
    cases hencode
    exact hfields
  · cases hencode

theorem proposeEncode_length_pos (hlawful : pb.Lawful) {propose : Propose} {out : Bytes}
    (hencode : proposeEncode pb propose = some out) : 0 < out.length :=
  encodeFields_length_pos hlawful (by decide) (by decide) (proposeEncode_fields hencode)

/-- What `propose_protobuf_decode` stores under a field number. -/
def putPropose (fieldNo : Nat) (data : Bytes) (record : Propose × Bool) : Propose × Bool :=
  match fieldNo with
  | 1 => ({ record.1 with rand := data }, true)
  | 2 => ({ record.1 with publicKey := data }, true)
  | 3 => ({ record.1 with exchanges := data }, true)
  | 4 => ({ record.1 with ciphers := data }, true)
  | _ => ({ record.1 with hashes := data }, true)

theorem proposeDecode_encode (hlawful : pb.Lawful) {propose : Propose} {out : Bytes}
    (hencode : proposeEncode pb propose = some out) (behind : Bytes) :
    proposeDecode pb out behind = some propose := by
  have hstores : Stores pb (proposeField pb) putPropose propose.fields := by
    intro entry hentry
    simp only [Propose.fields, List.mem_cons, List.not_mem_nil, or_false] at hentry
    rcases hentry with rfl | rfl | rfl | rfl | rfl <;>
      exact ⟨Nat.succ_pos _, by dsimp only; omega, fun input record => rfl⟩
  rw [proposeDecode,
    (fieldSteps_encodeFields hlawful hstores (proposeEncode_fields hencode) _).decodeBuffer]
  rfl

def putExchange (fieldNo : Nat) (data : Bytes) (record : Exchange) : Exchange :=
  match fieldNo with
  | 1 => { record with epubkey := data }
  | _ => { record with signature := data }

theorem exchangeDecode_encode (hlawful : pb.Lawful) {exchange : Exchange}
    (hsize : encodeSize exchange.fields < 2 ^ 64) (behind : Bytes) :
    0 < (exchangeEncode pb exchange).length ∧
      exchangeDecode pb (exchangeEncode pb exchange) behind = some exchange := by
  have hstores : Stores pb (exchangeField pb) putExchange exchange.fields := by
    intro entry hentry
    simp only [Exchange.fields, List.mem_cons, List.not_mem_nil, or_false] at hentry
    rcases hentry with rfl | rfl <;>
      exact ⟨Nat.succ_pos _, by dsimp only; omega, fun input record => rfl⟩
  have hcomplete : encodeFields pb exchange.fields (encodeSize exchange.fields) =
      (exchangeEncode pb exchange, true) :=
    Prod.ext rfl (encodeFields_complete hlawful (fun entry hentry =>
      ⟨(hstores entry hentry).1, (hstores entry hentry).2.1⟩) (Nat.le_refl _) hsize)
  refine ⟨encodeFields_length_pos hlawful (by decide) (by decide) hcomplete, ?_⟩
  rw [exchangeDecode, (fieldSteps_encodeFields hlawful hstores hcomplete _).decodeBuffer]
  rfl

end

end CLibp2p.Secio
