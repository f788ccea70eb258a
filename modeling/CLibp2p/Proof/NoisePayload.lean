import CLibp2p.Proof.NoiseAgreement
import Mathlib.Data.Fintype.Card

/-!
# The identity payload of an unknown peer

The cursor of `noise_payload_decode` moves on by a length that the peer chose, and the sum that is
compared with the size of the input wraps. Where every field ends before `2 ^ 64` the cursor only moves
forward and each slice ends before it. A sum that wraps takes the cursor back, for good perhaps, and its
slice is out of bounds.
-/

namespace CLibp2p.Noise

open Duplex

/-- The bytes that the library says it used were there. -/
structure Reads (pb : Protobuf) : Prop where
  field : ∀ input fieldNo wireType headerBytes,
    pb.decodeFieldAndType input = some (fieldNo, wireType, headerBytes) → headerBytes ≤ input.length
  varint : ∀ input, (pb.varintDecode input).2 ≤ input.length

/-- The end of the slice is past the end of the address space. -/
def Slice.wraps (slice : Slice) : Prop := 2 ^ 64 ≤ slice.offset.toNat + slice.length.toNat

def Slice.inside (slice : Slice) (input : Bytes) : Prop :=
  slice.offset.toNat + slice.length.toNat ≤ input.length

def Fields.slices (fields : Fields) : List Slice := fields.key.toList ++ fields.sig.toList

/-- What a pass of the loop finds at a position. -/
inductive PayloadPass where
  | finish
  | refuse
  | field (fieldNo : Nat) (slice : Slice)
deriving Repr, DecidableEq

def payloadPass (pb : Protobuf) (input : Bytes) (pos : UInt64) : PayloadPass :=
  if input.length ≤ pos.toNat then .finish
  else match pb.decodeFieldAndType (input.drop pos.toNat) with
    | none => .refuse
    | some (fieldNo, wireType, headerBytes) =>
        let pos := pos + UInt64.ofNat headerBytes
        let (dataLength, varintLength) := pb.varintDecode (input.drop pos.toNat)
        let start := pos + UInt64.ofNat varintLength
        if wireType ≠ wiretypeLengthDelimited then .refuse
        else if varintLength = 0 ∨ input.length < (start + dataLength).toNat then .refuse
        else .field fieldNo ⟨start, dataLength⟩

theorem payloadLoop_succ (pb : Protobuf) (input : Bytes) (fuel : Nat) (pos : UInt64) (fields : Fields) :
    payloadLoop pb input (fuel + 1) pos fields =
      match payloadPass pb input pos with
      | .finish => .fields fields
      | .refuse => .rejected
      | .field fieldNo slice =>
          payloadLoop pb input fuel (slice.offset + slice.length) (fields.set fieldNo slice) := by
  rw [payloadLoop, payloadPass]
  split
  · rfl
  cases pb.decodeFieldAndType (input.drop pos.toNat) with
  | none => rfl
  | some field =>
      obtain ⟨fieldNo, wireType, headerBytes⟩ := field
      dsimp only
      split
      · rfl
      split
      · rfl
      · rfl

/-- The cursor and the fields found so far, after so many passes. -/
inductive Comes (pb : Protobuf) (input : Bytes) : (passes : Nat) → (pos : UInt64) → Fields → Prop where
  | start : Comes pb input 0 0 ⟨none, none⟩
  | next {passes : Nat} {pos : UInt64} {fields : Fields} {fieldNo : Nat} {slice : Slice}
      (hcomes : Comes pb input passes pos fields) (hpass : payloadPass pb input pos = .field fieldNo slice) :
      Comes pb input (passes + 1) (slice.offset + slice.length) (fields.set fieldNo slice)

/-- A field that the cursor comes to has a sum that wraps. -/
def ComesToWrap (pb : Protobuf) (input : Bytes) : Prop :=
  ∃ passes pos fields fieldNo slice, Comes pb input passes pos fields ∧
    payloadPass pb input pos = .field fieldNo slice ∧ slice.wraps

/-- At a position of the input there is a field with bytes: where they start, and how many its length says
they are. -/
def FieldAt (pb : Protobuf) (input : Bytes) (pos start dataLength : Nat) : Prop :=
  pos < input.length ∧ ∃ fieldNo headerBytes value varintLength,
    pb.decodeFieldAndType (input.drop pos) = some (fieldNo, wiretypeLengthDelimited, headerBytes) ∧
      pb.varintDecode (input.drop (pos + headerBytes)) = (value, varintLength) ∧ varintLength ≠ 0 ∧
      start = pos + headerBytes + varintLength ∧ dataLength = value.toNat

/-- From the position on, behind fields that end in the input, there is one that ends at `2 ^ 64` or later. -/
inductive Overlong (pb : Protobuf) (input : Bytes) : (pos : Nat) → Prop where
  | here {pos start dataLength : Nat} (hfield : FieldAt pb input pos start dataLength)
      (hlong : 2 ^ 64 ≤ start + dataLength) : Overlong pb input pos
  | behind {pos start dataLength : Nat} (hfield : FieldAt pb input pos start dataLength)
      (hfits : start + dataLength ≤ input.length) (hlater : Overlong pb input (start + dataLength)) :
      Overlong pb input pos

section

variable {pb : Protobuf} {input : Bytes} {passes : Nat} {pos : UInt64} {fields : Fields}

/-! ### The passes -/

theorem Comes.payloadLoop (hcomes : Comes pb input passes pos fields) (fuel : Nat) :
    payloadLoop pb input (passes + fuel) 0 ⟨none, none⟩ = Noise.payloadLoop pb input fuel pos fields := by
  induction hcomes generalizing fuel with
  | start => rw [Nat.zero_add]
  | next hcomes hpass ih =>
      rw [Nat.add_assoc, Nat.add_comm 1, ih, payloadLoop_succ, hpass]

/-- A loop that ends does so at a position that it came to. -/
theorem comes_of_payloadLoop {fuel : Nat} {outcome : Decoded}
    (hloop : payloadLoop pb input fuel pos fields = outcome) (hends : outcome ≠ .endless)
    (hcomes : Comes pb input passes pos fields) :
    ∃ passes' pos' fields', Comes pb input passes' pos' fields' ∧
      ((payloadPass pb input pos' = .finish ∧ outcome = .fields fields') ∨
        (payloadPass pb input pos' = .refuse ∧ outcome = .rejected)) := by
  induction fuel generalizing passes pos fields with
  | zero => exact absurd hloop.symm hends
  | succ fuel ih =>
      rw [payloadLoop_succ] at hloop
      cases hpass : payloadPass pb input pos with
      | finish =>
          rw [hpass] at hloop
          exact ⟨passes, pos, fields, hcomes, Or.inl ⟨hpass, hloop.symm⟩⟩
      | refuse =>
          rw [hpass] at hloop
          exact ⟨passes, pos, fields, hcomes, Or.inr ⟨hpass, hloop.symm⟩⟩
      | field fieldNo slice =>
          rw [hpass] at hloop
          exact ih hloop (hcomes.next hpass)

/-- Where the cursor goes; at the end of its way it stays. -/
def advance (pb : Protobuf) (input : Bytes) (pos : UInt64) : UInt64 :=
  match payloadPass pb input pos with
  | .field _ slice => slice.offset + slice.length
  | _ => pos

theorem Comes.iterate (hcomes : Comes pb input passes pos fields) :
    (advance pb input)^[passes] 0 = pos := by
  induction hcomes with
  | start => rfl
  | next hcomes hpass ih =>
      rw [Function.iterate_succ_apply', ih, advance, hpass]

theorem Comes.field_of_lt (hcomes : Comes pb input passes pos fields) {earlier : Nat}
    (hless : earlier < passes) :
    ∃ fieldNo slice, payloadPass pb input ((advance pb input)^[earlier] 0) = .field fieldNo slice := by
  induction hcomes with
  | start => exact absurd hless (Nat.not_lt_zero _)
  | next hcomes hpass ih =>
      rcases Nat.lt_succ_iff_lt_or_eq.mp hless with hbefore | rfl
      · exact ih hbefore
      · rw [hcomes.iterate]
        exact ⟨_, _, hpass⟩

theorem pos_lt_of_field {fieldNo : Nat} {slice : Slice}
    (hpass : payloadPass pb input pos = .field fieldNo slice) : pos.toNat < input.length := by
  by_contra hend
  rw [payloadPass, if_pos (not_lt.mp hend)] at hpass
  cases hpass

/-- Before the cursor stops it is at no position twice, so there are as many passes as positions at
most. -/
theorem Comes.passes_le (hcomes : Comes pb input passes pos fields)
    (hstops : ∀ fieldNo slice, payloadPass pb input pos ≠ .field fieldNo slice) :
    passes ≤ input.length := by
  have hpositions : ∀ earlier : Fin passes,
      ((advance pb input)^[earlier] 0).toNat < input.length := by
    intro earlier
    obtain ⟨fieldNo, slice, hpass⟩ := hcomes.field_of_lt earlier.isLt
    exact pos_lt_of_field hpass
  have hdistinct : ∀ i j : Nat, i < j → j < passes →
      (advance pb input)^[i] 0 ≠ (advance pb input)^[j] 0 := by
    intro i j hij hj hsame
    -- from the first of the two the cursor would stop as early as from the second
    obtain ⟨fieldNo, slice, hpass⟩ := hcomes.field_of_lt (show passes - j + i < passes by omega)
    have hstop : (advance pb input)^[passes - j + i] 0 = pos := by
      rw [Function.iterate_add_apply, hsame, ← Function.iterate_add_apply, Nat.sub_add_cancel hj.le,
        hcomes.iterate]
    rw [hstop] at hpass
    exact hstops fieldNo slice hpass
  have hinjective : Function.Injective fun earlier : Fin passes =>
      (⟨((advance pb input)^[earlier] 0).toNat, hpositions earlier⟩ : Fin input.length) := by
    intro i j hsame
    have hnat : ((advance pb input)^[i] 0).toNat = ((advance pb input)^[j] 0).toNat :=
      Fin.mk.inj hsame
    have hposition := UInt64.toNat_inj.mp hnat
    rcases lt_trichotomy i j with hless | heq | hgreater
    · exact absurd hposition (hdistinct i j hless j.isLt)
    · exact heq
    · exact absurd hposition.symm (hdistinct j i hgreater i.isLt)
  simpa using Fintype.card_le_of_injective _ hinjective

theorem Comes.finish (hcomes : Comes pb input passes pos fields)
    (hpass : payloadPass pb input pos = .finish) : payloadDecode pb input = .fields fields := by
  have hbound := hcomes.passes_le (by simp [hpass])
  obtain ⟨spare, hspare⟩ : ∃ spare, input.length + 1 = passes + (spare + 1) :=
    ⟨input.length - passes, by omega⟩
  rw [payloadDecode, hspare, hcomes.payloadLoop, payloadLoop_succ, hpass]

theorem Comes.refuse (hcomes : Comes pb input passes pos fields)
    (hpass : payloadPass pb input pos = .refuse) : payloadDecode pb input = .rejected := by
  have hbound := hcomes.passes_le (by simp [hpass])
  obtain ⟨spare, hspare⟩ : ∃ spare, input.length + 1 = passes + (spare + 1) :=
    ⟨input.length - passes, by omega⟩
  rw [payloadDecode, hspare, hcomes.payloadLoop, payloadLoop_succ, hpass]

/-- A loop that the decoder gives up on never ends. -/
theorem payloadDecode_eq_endless_iff :
    payloadDecode pb input = .endless ↔
      ∀ fuel, payloadLoop pb input fuel 0 ⟨none, none⟩ = .endless := by
  constructor
  · intro hdecode fuel
    by_contra hends
    obtain ⟨passes, pos, fields, hcomes, ⟨hpass, -⟩ | ⟨hpass, -⟩⟩ :=
      comes_of_payloadLoop rfl hends .start
    · rw [hcomes.finish hpass] at hdecode
      cases hdecode
    · rw [hcomes.refuse hpass] at hdecode
      cases hdecode
  · intro hloop
    exact hloop _

/-! ### What the cursor passes over -/

/-- The bytes of a field start where they would without a bound on the cursor. -/
theorem toNat_start (hreads : Reads pb) (hsize : input.length < 2 ^ 64) (hpos : pos.toNat < input.length)
    {fieldNo wireType headerBytes varintLength : Nat} {value : UInt64}
    (hfield : pb.decodeFieldAndType (input.drop pos.toNat) = some (fieldNo, wireType, headerBytes))
    (hread : pb.varintDecode (input.drop (pos.toNat + headerBytes)) = (value, varintLength)) :
    (pos + UInt64.ofNat headerBytes).toNat = pos.toNat + headerBytes ∧
      (pos + UInt64.ofNat headerBytes + UInt64.ofNat varintLength).toNat =
        pos.toNat + headerBytes + varintLength ∧
      pos.toNat + headerBytes + varintLength ≤ input.length := by
  have hheader := hreads.field _ _ _ _ hfield
  have hvarint := hreads.varint (input.drop (pos.toNat + headerBytes))
  rw [List.length_drop] at hheader
  rw [hread, List.length_drop] at hvarint
  dsimp only at hvarint
  have hbody : (pos + UInt64.ofNat headerBytes).toNat = pos.toNat + headerBytes := by
    rw [UInt64.toNat_add, UInt64.toNat_ofNat', Nat.mod_eq_of_lt (show headerBytes < 2 ^ 64 by omega),
      Nat.mod_eq_of_lt (by omega)]
  refine ⟨hbody, ?_, by omega⟩
  rw [UInt64.toNat_add, UInt64.toNat_ofNat', Nat.mod_eq_of_lt (show varintLength < 2 ^ 64 by omega), hbody,
    Nat.mod_eq_of_lt (by omega)]

/-- A pass finds the field that is there. -/
theorem fieldAt_of_pass (hreads : Reads pb) (hsize : input.length < 2 ^ 64) {fieldNo : Nat} {slice : Slice}
    (hpass : payloadPass pb input pos = .field fieldNo slice) :
    FieldAt pb input pos.toNat slice.offset.toNat slice.length.toNat ∧ pos.toNat < slice.offset.toNat ∧
      slice.offset.toNat ≤ input.length ∧ (slice.offset + slice.length).toNat ≤ input.length := by
  have hpos := pos_lt_of_field hpass
  rw [payloadPass, if_neg (not_le.mpr hpos)] at hpass
  cases hfield : pb.decodeFieldAndType (input.drop pos.toNat) with
  | none =>
      rw [hfield] at hpass
      cases hpass
  | some field =>
      obtain ⟨number, wireType, headerBytes⟩ := field
      cases hread : pb.varintDecode (input.drop (pos.toNat + headerBytes)) with
      | mk dataLength varintLength =>
      obtain ⟨hbody, hstart, hleft⟩ := toNat_start hreads hsize hpos hfield hread
      simp only [hfield, hbody, hread] at hpass
      split at hpass
      · cases hpass
      rename_i hwire
      rw [not_not] at hwire
      split at hpass
      · cases hpass
      rename_i hchecked
      rw [not_or, not_lt] at hchecked
      cases hpass
      dsimp only
      rw [hstart]
      refine ⟨⟨hpos, fieldNo, headerBytes, dataLength, varintLength, ?_, hread, hchecked.1, rfl, rfl⟩, ?_, hleft,
        hchecked.2⟩
      · rw [hfield, hwire]
      · omega

/-- A field that ends in the input is taken, and so is one that ends at `2 ^ 64` or later. -/
theorem pass_of_fieldAt (hreads : Reads pb) (hsize : input.length < 2 ^ 64) {start dataLength : Nat}
    (hfield : FieldAt pb input pos.toNat start dataLength)
    (hsum : start + dataLength ≤ input.length ∨ 2 ^ 64 ≤ start + dataLength) :
    ∃ fieldNo slice, payloadPass pb input pos = .field fieldNo slice ∧ slice.offset.toNat = start ∧
      slice.length.toNat = dataLength := by
  obtain ⟨hpos, fieldNo, headerBytes, value, varintLength, hfield, hread, hvarint, rfl, rfl⟩ := hfield
  obtain ⟨hbody, hstart, hleft⟩ := toNat_start hreads hsize hpos hfield hread
  have hvalue : value.toNat < 2 ^ 64 := value.toNat_lt
  have hchecked : (pos + UInt64.ofNat headerBytes + UInt64.ofNat varintLength + value).toNat ≤ input.length := by
    rw [UInt64.toNat_add, hstart]
    omega
  refine ⟨fieldNo, ⟨pos + UInt64.ofNat headerBytes + UInt64.ofNat varintLength, value⟩, ?_, hstart, rfl⟩
  rw [payloadPass, if_neg (not_le.mpr hpos), hfield]
  simp only [hbody, hread]
  rw [if_neg (not_not.mpr rfl), if_neg]
  rw [not_or, not_lt]
  exact ⟨hvarint, hchecked⟩

theorem toNat_end_of_not_wraps {slice : Slice} (hwraps : ¬slice.wraps) :
    (slice.offset + slice.length).toNat = slice.offset.toNat + slice.length.toNat := by
  rw [UInt64.toNat_add, Nat.mod_eq_of_lt (not_le.mp hwraps)]

theorem mem_slices_set {fieldNo : Nat} {slice slice' : Slice}
    (hmem : slice' ∈ (fields.set fieldNo slice).slices) : slice' = slice ∨ slice' ∈ fields.slices := by
  simp only [Fields.slices, Fields.set, List.mem_append, Option.mem_toList] at hmem ⊢
  split at hmem
  · rcases hmem with hkey | hsig
    · exact Or.inl (Option.some.inj hkey).symm
    · exact Or.inr (Or.inr hsig)
  · rcases hmem with hkey | hsig
    · exact Or.inr (Or.inl hkey)
    · exact Or.inl (Option.some.inj hsig).symm
  · exact Or.inr hmem

/-- Each slice that is held was found at a position on the way. -/
theorem Comes.slices (hcomes : Comes pb input passes pos fields) {slice : Slice}
    (hmem : slice ∈ fields.slices) : ∃ passes' pos' fields' fieldNo,
      Comes pb input passes' pos' fields' ∧ payloadPass pb input pos' = .field fieldNo slice := by
  induction hcomes with
  | start => cases hmem
  | next hcomes hpass ih =>
      rcases mem_slices_set hmem with rfl | hmem
      · exact ⟨_, _, _, _, hcomes, hpass⟩
      · exact ih hmem

theorem Comes.not_overlong (hreads : Reads pb) (hsize : input.length < 2 ^ 64) (hnever : ¬Overlong pb input 0)
    (hcomes : Comes pb input passes pos fields) : ¬Overlong pb input pos.toNat := by
  induction hcomes with
  | start => exact hnever
  | next hcomes hpass ih =>
      obtain ⟨hfield, -, -, hend⟩ := fieldAt_of_pass hreads hsize hpass
      have hwraps : ¬Slice.wraps _ := fun hwraps => ih (.here hfield hwraps)
      rw [toNat_end_of_not_wraps hwraps] at hend ⊢
      exact fun hlater => ih (.behind hfield hend hlater)

/-- An overlong field is come to, and its check passes. -/
theorem Overlong.comesToWrap (hreads : Reads pb) (hsize : input.length < 2 ^ 64) {at' : Nat}
    (hlong : Overlong pb input at') (hcomes : Comes pb input passes pos fields) (hat : pos.toNat = at') :
    ComesToWrap pb input := by
  induction hlong generalizing passes pos fields with
  | here hfield hlong =>
      subst hat
      obtain ⟨fieldNo, slice, hpass, rfl, rfl⟩ := pass_of_fieldAt hreads hsize hfield (Or.inr hlong)
      exact ⟨passes, pos, fields, fieldNo, slice, hcomes, hpass, hlong⟩
  | behind hfield hfits hlater ih =>
      subst hat
      obtain ⟨fieldNo, slice, hpass, rfl, rfl⟩ := pass_of_fieldAt hreads hsize hfield (Or.inl hfits)
      have hwraps : ¬slice.wraps := not_le.mpr (lt_of_le_of_lt hfits hsize)
      exact ih (hcomes.next hpass) (toNat_end_of_not_wraps hwraps)

/-- The decoder ends, and when it succeeds each slice that it returns lies inside the input. -/
def DecodesInside (pb : Protobuf) (input : Bytes) : Prop :=
  payloadDecode pb input ≠ .endless ∧
    ∀ fields, payloadDecode pb input = .fields fields → ∀ slice ∈ fields.slices, slice.inside input

/-- Where no field is overlong the cursor moves on, and so it stops, with slices of the input alone. -/
theorem Comes.decodesInside (hreads : Reads pb) (hsize : input.length < 2 ^ 64) (hnever : ¬Overlong pb input 0)
    (hcomes : Comes pb input passes pos fields) : DecodesInside pb input := by
  induction hleft : input.length - pos.toNat using Nat.strongRecOn generalizing passes pos fields with
  | ind left ih =>
      cases hpass : payloadPass pb input pos with
      | refuse =>
          rw [DecodesInside, hcomes.refuse hpass]
          exact ⟨by simp, fun fields' hfields => by cases hfields⟩
      | finish =>
          rw [DecodesInside, hcomes.finish hpass]
          refine ⟨by simp, fun fields' hfields slice hmem => ?_⟩
          obtain rfl := Decoded.fields.inj hfields
          obtain ⟨passes', pos', fields', fieldNo, hcomes', hpass'⟩ := hcomes.slices hmem
          obtain ⟨hfield, -, -, hend⟩ := fieldAt_of_pass hreads hsize hpass'
          have hwraps : ¬slice.wraps := fun hwraps =>
            hcomes'.not_overlong hreads hsize hnever (.here hfield hwraps)
          rwa [toNat_end_of_not_wraps hwraps] at hend
      | field fieldNo slice =>
          obtain ⟨hfield, hstart, -, hend⟩ := fieldAt_of_pass hreads hsize hpass
          have hwraps : ¬slice.wraps := fun hwraps =>
            hcomes.not_overlong hreads hsize hnever (.here hfield hwraps)
          have hnext := toNat_end_of_not_wraps hwraps
          have hpos := pos_lt_of_field hpass
          exact ih _ (by omega) (hcomes.next hpass) rfl

end

/-- **The identity payload.** What is encoded comes back, for every key and every signature that fit. And
of all other bytes too the decoder makes an end and returns slices of the input alone, if no field in them
is overlong. An overlong field passes its check, and what the cursor does then is up to the bytes. -/
theorem payloadDecode_spec {pb : Protobuf} (hlawful : pb.Lawful) (hreads : Reads pb) :
    (∀ key sig payload maxOut, maxOut < 2 ^ 64 → payloadEncode pb key sig maxOut = some payload →
        ∃ fields, payloadDecode pb payload = .fields fields ∧ fields.keyBytes payload = key ∧
          fields.sigBytes payload = sig) ∧
      ∀ input : Bytes, input.length < 2 ^ 64 →
        (¬Overlong pb input 0 → DecodesInside pb input) ∧ (Overlong pb input 0 → ComesToWrap pb input) := by
  refine ⟨fun key sig payload maxOut hmax hencode => ?_, fun input hsize => ⟨fun hnever => ?_, fun hlong => ?_⟩⟩
  · have hlength := payloadEncode_length hlawful hencode
    exact payloadDecode_encode hlawful hencode (lt_of_le_of_lt hlength hmax)
  · exact Comes.start.decodesInside hreads hsize hnever
  · exact hlong.comesToWrap hreads hsize .start rfl

theorem varintRead_length_le {input : Bytes} {value count : Nat}
    (hread : varintRead input = some (value, count)) : count ≤ input.length := by
  induction input generalizing value count with
  | nil => cases hread
  | cons byte rest ih =>
      rw [varintRead] at hread
      split at hread
      · cases hread
        rw [List.length_cons]
        omega
      · cases hrest : varintRead rest with
        | none =>
            rw [hrest] at hread
            cases hread
        | some read =>
            obtain ⟨value', count'⟩ := read
            rw [hrest] at hread
            cases hread
            exact Nat.succ_le_succ (ih hrest)

theorem varints_reads : Reads .varints where
  field input fieldNo wireType headerBytes hfield := by
    simp only [Protobuf.varints] at hfield
    split at hfield
    · rename_i hread
      cases hfield
      exact varintRead_length_le hread
    · cases hfield
  varint input := by
    simp only [Protobuf.varints]
    split
    · rename_i hread
      exact varintRead_length_le hread
    · exact Nat.zero_le _

theorem payloadDecode_spec_varints :
    (∀ key sig payload maxOut, maxOut < 2 ^ 64 → payloadEncode .varints key sig maxOut = some payload →
        ∃ fields, payloadDecode .varints payload = .fields fields ∧ fields.keyBytes payload = key ∧
          fields.sigBytes payload = sig) ∧
      ∀ input : Bytes, input.length < 2 ^ 64 →
        (¬Overlong .varints input 0 → DecodesInside .varints input) ∧
          (Overlong .varints input 0 → ComesToWrap .varints input) :=
  payloadDecode_spec varints_lawful varints_reads

/-- A key of `2 ^ 64 - 11` bytes behind a header of eleven. -/
def wrappingPayload : Bytes := [10, 0xF5, 0xFF, 0xFF, 0xFF, 0xFF, 0xFF, 0xFF, 0xFF, 0xFF, 1]

/-- It takes the cursor back to the start, again and again. -/
theorem payloadDecode_endless :
    (∀ fuel, payloadLoop .varints wrappingPayload fuel 0 ⟨none, none⟩ = .endless) ∧
      ¬∀ pb : Protobuf, pb.Lawful → Reads pb → ∀ input : Bytes, input.length < 2 ^ 64 →
        DecodesInside pb input := by
  have hdecode : payloadDecode .varints wrappingPayload = .endless := by decide
  refine ⟨payloadDecode_eq_endless_iff.mp hdecode, fun hclaim => ?_⟩
  exact (hclaim .varints varints_lawful varints_reads wrappingPayload (by decide)).1 hdecode

end CLibp2p.Noise
