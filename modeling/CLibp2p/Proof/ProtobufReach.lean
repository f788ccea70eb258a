import CLibp2p.Proof.ProtobufFields

/-!
# What a decoder sees of the memory behind its buffer

`Reached` says where the loop of a decoder comes to on what is in the buffer. From there it ends, or a
field cannot be read, or what is left of the buffer is no tag, and only then does it look behind.
-/

namespace CLibp2p

open Duplex

/-- What a tag is depends on the bytes that are read for it alone, and bytes that are no tag yet can go on
without becoming one. -/
structure Protobuf.ReadsTags (pb : Protobuf) : Prop where
  consumes : ∀ input fieldNo type headerBytes,
    pb.decodeFieldAndType input = some (fieldNo, type, headerBytes) →
    0 < headerBytes ∧ headerBytes ≤ input.length ∧ ∀ rest,
      pb.decodeFieldAndType (input.take headerBytes ++ rest) = some (fieldNo, type, headerBytes)
  goesOn : ∀ input count, pb.decodeFieldAndType input = none →
    ∃ more, more.length = count ∧ pb.decodeFieldAndType (input ++ more) = none

section

variable {pb : Protobuf}

theorem Protobuf.ReadsTags.append (htags : pb.ReadsTags) {input : Bytes} {tag : Nat × Nat × Nat}
    (htag : pb.decodeFieldAndType input = some tag) (more : Bytes) :
    pb.decodeFieldAndType (input ++ more) = some tag := by
  obtain ⟨fieldNo, type, headerBytes⟩ := tag
  have hmore := (htags.consumes _ _ _ _ htag).2.2 (input.drop headerBytes ++ more)
  rwa [← List.append_assoc, List.take_append_drop] at hmore

/-- A tag that needs more bytes takes all that there are. -/
theorem Protobuf.ReadsTags.cut (htags : pb.ReadsTags) {input more : Bytes}
    {fieldNo type headerBytes : Nat} (hnone : pb.decodeFieldAndType input = none)
    (htag : pb.decodeFieldAndType (input ++ more) = some (fieldNo, type, headerBytes)) :
    input.length < headerBytes := by
  by_contra hle
  have hall := (htags.consumes _ _ _ _ htag).2.2 (input.drop headerBytes)
  rw [List.take_append_of_le_length (Nat.not_lt.mp hle), List.take_append_drop, hnone] at hall
  cases hall

theorem varintRead_consumes {input : Bytes} {value count : Nat}
    (hread : varintRead input = some (value, count)) :
    0 < count ∧ count ≤ input.length ∧ ∀ rest, varintRead (input.take count ++ rest) = some (value, count) := by
  induction input generalizing value count with
  | nil => cases hread
  | cons byte input ih =>
      rw [varintRead] at hread
      split at hread
      · rename_i hlast
        cases hread
        refine ⟨Nat.one_pos, by rw [List.length_cons]; omega, fun rest => ?_⟩
        rw [List.take_succ_cons, List.take_zero, List.singleton_append, varintRead, if_pos hlast]
      · rename_i hmore
        split at hread
        · rename_i value count hrest
          cases hread
          obtain ⟨-, hle, hwhole⟩ := ih hrest
          refine ⟨Nat.succ_pos _, by rw [List.length_cons]; omega, fun rest => ?_⟩
          rw [List.take_succ_cons, List.cons_append, varintRead, if_neg hmore, hwhole]
        · cases hread

theorem varintRead_goesOn {input : Bytes} (hnone : varintRead input = none) (count : Nat) :
    varintRead (input ++ List.replicate count 255) = none := by
  induction input with
  | nil =>
      rw [List.nil_append]
      induction count with
      | zero => rfl
      | succ count ih => rw [List.replicate_succ, varintRead, if_neg (by decide), ih]
  | cons byte input ih =>
      rw [varintRead] at hnone
      split at hnone
      · cases hnone
      · rename_i hmore
        cases hrest : varintRead input with
        | none => rw [List.cons_append, varintRead, if_neg hmore, ih hrest]
        | some result =>
            rw [hrest] at hnone
            cases hnone

theorem varints_readsTags : Protobuf.varints.ReadsTags where
  consumes input fieldNo type headerBytes htag := by
    simp only [Protobuf.varints] at htag
    split at htag
    · rename_i tag count hread
      cases htag
      obtain ⟨hpos, hle, hwhole⟩ := varintRead_consumes hread
      refine ⟨hpos, hle, fun rest => ?_⟩
      simp only [Protobuf.varints, hwhole]
    · cases htag
  goesOn input count hnone := by
    simp only [Protobuf.varints] at hnone
    split at hnone
    · cases hnone
    · rename_i hread
      refine ⟨List.replicate count 255, List.length_replicate, ?_⟩
      simp only [Protobuf.varints, varintRead_goesOn hread]

end

section

variable {pb : Protobuf} {ρ : Type} {field : (fieldNo : Nat) → Bytes → ρ → Option (ρ × Nat)}
  {input : Bytes} {start : ρ} {pos : Nat} {record : ρ}

/-- Where the loop comes to without looking behind the buffer. -/
inductive Reached (pb : Protobuf) (field : (fieldNo : Nat) → Bytes → ρ → Option (ρ × Nat)) (input : Bytes)
    (start : ρ) : Nat → ρ → Prop
  | start : Reached pb field input start 0 start
  | field {pos fieldNo type headerBytes count : Nat} {record record' : ρ}
      (before : Reached pb field input start pos record)
      (tag : pb.decodeFieldAndType (input.drop pos) = some (fieldNo, type, headerBytes))
      (read : field fieldNo (input.drop (pos + headerBytes)) record = some (record', count)) :
      Reached pb field input start (pos + headerBytes + count) record'

/-- The way to a place is the same for handlers that agree on inputs longer than what follows it. -/
theorem Reached.congr {field' : (fieldNo : Nat) → Bytes → ρ → Option (ρ × Nat)} {size : Nat}
    (hsame : ∀ fieldNo input record, size < input.length →
      field fieldNo input record = field' fieldNo input record)
    (hreached : Reached pb field input start pos record) (hsize : size < input.length - pos) :
    Reached pb field' input start pos record := by
  induction hreached with
  | start => exact .start
  | @field pos fieldNo _ headerBytes count record _ _ htag hread ih =>
      have hlong : size < (input.drop (pos + headerBytes)).length := by
        rw [List.length_drop]
        omega
      rw [hsame fieldNo _ record hlong] at hread
      exact (ih (by omega)).field htag hread

theorem tagWindow_at (hpos : pos ≤ input.length) (behind : Bytes) :
    ((input ++ behind).drop pos).take input.length = input.drop pos ++ behind.take pos := by
  have hlength : (input.take pos).length = pos := List.length_take_of_le hpos
  have hwindow := tagWindow (input.take pos) (input.drop pos) behind
  rwa [List.take_append_drop, hlength] at hwindow

theorem payloadWindow_at (hpos : pos ≤ input.length) {headerBytes : Nat}
    (hheader : headerBytes ≤ (input.drop pos).length) (behind : Bytes) :
    ((input ++ behind).drop (pos + headerBytes)).take (sizeLeft input.length (pos + headerBytes)) =
      input.drop (pos + headerBytes) := by
  have hlength : (input.take pos).length = pos := List.length_take_of_le hpos
  have hwindow := payloadWindow (input.take pos) (input.drop pos) behind hheader
  rwa [List.take_append_drop, hlength, List.drop_drop] at hwindow

theorem lt_length_of_tag (htags : pb.ReadsTags) {fieldNo type headerBytes : Nat}
    (htag : pb.decodeFieldAndType (input.drop pos) = some (fieldNo, type, headerBytes)) :
    pos < input.length := by
  obtain ⟨hpos, hle, -⟩ := htags.consumes _ _ _ _ htag
  rw [List.length_drop] at hle
  omega

theorem decodeLoop_tag (htags : pb.ReadsTags) {fieldNo type headerBytes : Nat}
    (htag : pb.decodeFieldAndType (input.drop pos) = some (fieldNo, type, headerBytes))
    (behind : Bytes) (fuel : Nat) :
    decodeLoop pb field (input ++ behind) input.length (fuel + 1) pos record =
      match field fieldNo (input.drop (pos + headerBytes)) record with
      | none => none
      | some (record, count) =>
          decodeLoop pb field (input ++ behind) input.length fuel (pos + headerBytes + count) record := by
  have hpos := lt_length_of_tag htags htag
  obtain ⟨-, hheader, -⟩ := htags.consumes _ _ _ _ htag
  rw [decodeLoop, if_neg (Nat.not_le.mpr hpos), tagWindow_at hpos.le,
    htags.append htag (behind.take pos)]
  dsimp only
  cases hfield : field fieldNo (input.drop (pos + headerBytes)) record with
  | none => rw [payloadWindow_at hpos.le hheader, hfield]
  | some result => rw [payloadWindow_at hpos.le hheader, hfield]

theorem Reached.decodeBuffer (htags : pb.ReadsTags) (hreached : Reached pb field input start pos record)
    (behind : Bytes) : ∃ fuel, input.length ≤ pos + fuel ∧
      decodeBuffer pb field input behind start =
        decodeLoop pb field (input ++ behind) input.length fuel pos record := by
  induction hreached with
  | start => exact ⟨input.length, by omega, rfl⟩
  | @field pos _ _ headerBytes count _ _ _ htag hread ih =>
      obtain ⟨fuel, hfuel, hbuffer⟩ := ih
      have hpos := lt_length_of_tag htags htag
      obtain ⟨hheader, -, -⟩ := htags.consumes _ _ _ _ htag
      obtain ⟨fuel, rfl⟩ : ∃ n, fuel = n + 1 := ⟨fuel - 1, by omega⟩
      refine ⟨fuel, by omega, ?_⟩
      rw [hbuffer, decodeLoop_tag htags htag, hread]

theorem Reached.decodeBuffer_end (htags : pb.ReadsTags)
    (hreached : Reached pb field input start pos record) (hend : input.length ≤ pos) (behind : Bytes) :
    CLibp2p.decodeBuffer pb field input behind start = some record := by
  obtain ⟨fuel, -, hbuffer⟩ := hreached.decodeBuffer htags behind
  rw [hbuffer]
  cases fuel <;> rw [decodeLoop, if_pos hend]

theorem Reached.decodeBuffer_field (htags : pb.ReadsTags)
    (hreached : Reached pb field input start pos record) {fieldNo type headerBytes : Nat}
    (htag : pb.decodeFieldAndType (input.drop pos) = some (fieldNo, type, headerBytes))
    (hfield : field fieldNo (input.drop (pos + headerBytes)) record = none) (behind : Bytes) :
    CLibp2p.decodeBuffer pb field input behind start = none := by
  obtain ⟨fuel, hfuel, hbuffer⟩ := hreached.decodeBuffer htags behind
  have hpos := lt_length_of_tag htags htag
  obtain ⟨fuel, rfl⟩ : ∃ n, fuel = n + 1 := ⟨fuel - 1, by omega⟩
  rw [hbuffer, decodeLoop_tag htags htag, hfield]

/-- Where the rest of the buffer is no tag, the bytes behind decide, and one more field is all there is. -/
theorem Reached.decodeBuffer_cut (htags : pb.ReadsTags)
    (hreached : Reached pb field input start pos record) (hpos : pos < input.length)
    (hnone : pb.decodeFieldAndType (input.drop pos) = none) (behind : Bytes) :
    CLibp2p.decodeBuffer pb field input behind start =
      match pb.decodeFieldAndType (input.drop pos ++ behind.take pos) with
      | none => none
      | some (fieldNo, _, headerBytes) =>
          (field fieldNo (((input ++ behind).drop (pos + headerBytes)).take
            (sizeLeft input.length (pos + headerBytes))) record).map Prod.fst := by
  obtain ⟨fuel, hfuel, hbuffer⟩ := hreached.decodeBuffer htags behind
  obtain ⟨fuel, rfl⟩ : ∃ n, fuel = n + 1 := ⟨fuel - 1, by omega⟩
  rw [hbuffer, decodeLoop, if_neg (Nat.not_le.mpr hpos), tagWindow_at hpos.le]
  cases htag : pb.decodeFieldAndType (input.drop pos ++ behind.take pos) with
  | none => rfl
  | some tag =>
      obtain ⟨fieldNo, type, headerBytes⟩ := tag
      have hcut := htags.cut hnone htag
      rw [List.length_drop] at hcut
      dsimp only
      cases field fieldNo (((input ++ behind).drop (pos + headerBytes)).take
          (sizeLeft input.length (pos + headerBytes))) record with
      | none => rfl
      | some result =>
          have hend : input.length ≤ pos + headerBytes + result.2 := by omega
          dsimp only
          rw [Option.map_some]
          cases fuel <;> rw [decodeLoop, if_pos hend]

/-- From where the loop comes to, it comes to one of its three ends, and what every field on the way keeps
holds there. -/
theorem Reached.exists_stop (htags : pb.ReadsTags) (keeps : Nat → ρ → Prop)
    (hkeeps : ∀ pos record fieldNo type headerBytes result, Reached pb field input start pos record →
      keeps pos record → pb.decodeFieldAndType (input.drop pos) = some (fieldNo, type, headerBytes) →
      field fieldNo (input.drop (pos + headerBytes)) record = some result →
      keeps (pos + headerBytes + result.2) result.1)
    (hreached : Reached pb field input start pos record) (hstart : keeps pos record) :
    ∃ pos record, Reached pb field input start pos record ∧ keeps pos record ∧ (input.length ≤ pos ∨
      (pos < input.length ∧ pb.decodeFieldAndType (input.drop pos) = none) ∨
      ∃ fieldNo type headerBytes,
        pb.decodeFieldAndType (input.drop pos) = some (fieldNo, type, headerBytes) ∧
        field fieldNo (input.drop (pos + headerBytes)) record = none) := by
  obtain ⟨left, hleft⟩ : ∃ left, input.length ≤ pos + left := ⟨input.length, by omega⟩
  induction left generalizing pos record with
  | zero => exact ⟨pos, record, hreached, hstart, Or.inl hleft⟩
  | succ left ih =>
      by_cases hend : input.length ≤ pos
      · exact ⟨pos, record, hreached, hstart, Or.inl hend⟩
      · cases htag : pb.decodeFieldAndType (input.drop pos) with
        | none => exact ⟨pos, record, hreached, hstart, Or.inr (Or.inl ⟨Nat.not_le.mp hend, htag⟩)⟩
        | some tag =>
            obtain ⟨fieldNo, type, headerBytes⟩ := tag
            cases hfield : field fieldNo (input.drop (pos + headerBytes)) record with
            | none =>
                exact ⟨pos, record, hreached, hstart,
                  Or.inr (Or.inr ⟨fieldNo, type, headerBytes, htag, hfield⟩)⟩
            | some result =>
                obtain ⟨hheader, -, -⟩ := htags.consumes _ _ _ _ htag
                exact ih (hreached.field htag hfield)
                  (hkeeps _ _ _ _ _ result hreached hstart htag hfield) (by omega)

theorem exists_stop (htags : pb.ReadsTags) (field : (fieldNo : Nat) → Bytes → ρ → Option (ρ × Nat))
    (input : Bytes) (start : ρ) :
    ∃ pos record, Reached pb field input start pos record ∧ (input.length ≤ pos ∨
      (pos < input.length ∧ pb.decodeFieldAndType (input.drop pos) = none) ∨
      ∃ fieldNo type headerBytes,
        pb.decodeFieldAndType (input.drop pos) = some (fieldNo, type, headerBytes) ∧
        field fieldNo (input.drop (pos + headerBytes)) record = none) := by
  have hbegin : Reached pb field input start 0 start := .start
  obtain ⟨pos, record, hreached, -, hstop⟩ :=
    hbegin.exists_stop htags (fun _ _ => True) (fun _ _ _ _ _ _ _ _ _ _ => trivial) trivial
  exact ⟨pos, record, hreached, hstop⟩

/-! ### Decoders that see only their buffer -/

/-- Whatever lies behind the buffer, as long as the bytes are there that the bound on a tag covers. -/
def PrefixOnly {τ : Type} (decode : (input behind : Bytes) → τ) (input : Bytes) : Prop :=
  ∀ behind behind', input.length ≤ behind.length → input.length ≤ behind'.length →
    decode input behind = decode input behind'

/-- The buffer ends within a tag, which some bytes behind it complete to one that the decoder accepts. -/
def CutOff (pb : Protobuf) (field : (fieldNo : Nat) → Bytes → ρ → Option (ρ × Nat)) (start : ρ)
    (accepts : (fieldNo : Nat) → ρ → Prop) (input : Bytes) : Prop :=
  ∃ pos record, Reached pb field input start pos record ∧ pos < input.length ∧
    pb.decodeFieldAndType (input.drop pos) = none ∧
    ∃ more fieldNo type headerBytes, more.length ≤ pos ∧
      pb.decodeFieldAndType (input.drop pos ++ more) = some (fieldNo, type, headerBytes) ∧
      accepts fieldNo record

end

section

variable {pb : Protobuf} {ρ τ : Type} {field : (fieldNo : Nat) → Bytes → ρ → Option (ρ × Nat)}
  {start : ρ} {accepts : (fieldNo : Nat) → ρ → Prop} {finish : ρ → Option τ} {input : Bytes}

/-- Bytes behind the buffer, as many as wanted, that make no tag of its end. -/
theorem Reached.exists_none (htags : pb.ReadsTags) {pos : Nat} {record : ρ}
    (hreached : Reached pb field input start pos record) (hpos : pos < input.length)
    (hnone : pb.decodeFieldAndType (input.drop pos) = none) (size : Nat) :
    ∃ behind, size ≤ behind.length ∧ CLibp2p.decodeBuffer pb field input behind start = none := by
  obtain ⟨more, hmore, hgoesOn⟩ := htags.goesOn _ pos hnone
  refine ⟨more ++ List.replicate size 0, ?_, ?_⟩
  · rw [List.length_append, List.length_replicate]
    omega
  · rw [hreached.decodeBuffer_cut htags hpos hnone, List.take_left' hmore, hgoesOn]

theorem CutOff.exists_none (htags : pb.ReadsTags) (hcut : CutOff pb field start accepts input)
    (size : Nat) : ∃ behind, size ≤ behind.length ∧ decodeBuffer pb field input behind start = none := by
  obtain ⟨pos, record, hreached, hpos, hnone, -⟩ := hcut
  exact hreached.exists_none htags hpos hnone size

theorem CutOff.exists_some (htags : pb.ReadsTags) (hsize : input.length < mallocBound)
    (hpayload : ∀ fieldNo record, accepts fieldNo record → ∃ payload, payload.length ≤ maxFieldHeader ∧
      ∀ rest, ∃ result, field fieldNo (payload ++ rest) record = some result ∧ (finish result.1).isSome)
    (hcut : CutOff pb field start accepts input) :
    ∃ behind, input.length ≤ behind.length ∧
      ((decodeBuffer pb field input behind start).bind finish).isSome := by
  obtain ⟨pos, record, hreached, hpos, hnone, more, fieldNo, type, headerBytes, hmore, htag, haccepts⟩ :=
    hcut
  obtain ⟨payload, hpayloadLength, hread⟩ := hpayload fieldNo record haccepts
  have hlong := htags.cut hnone htag
  obtain ⟨-, hheader, hwhole⟩ := htags.consumes _ _ _ _ htag
  have hdrop : (input.drop pos).length = input.length - pos := List.length_drop
  rw [List.length_append] at hheader
  -- the bytes of the tag that lie behind the buffer
  let rest := more.take (headerBytes - (input.drop pos).length)
  have hrest : rest.length = headerBytes - (input.drop pos).length :=
    List.length_take_of_le (by omega)
  have htake : (input.drop pos ++ more).take headerBytes = input.drop pos ++ rest := by
    rw [List.take_append, List.take_of_length_le hlong.le]
  rw [htake] at hwhole
  refine ⟨rest ++ (payload ++ List.replicate input.length 0), ?_, ?_⟩
  · rw [List.length_append, List.length_append, List.length_replicate]
    omega
  · have hwindow : (rest ++ (payload ++ List.replicate input.length 0)).take pos =
        rest ++ (payload ++ List.replicate input.length 0).take (pos - rest.length) := by
      rw [List.take_append, List.take_of_length_le (by omega)]
    have hbehind : (input ++ (rest ++ (payload ++ List.replicate input.length 0))).drop
        (pos + headerBytes) = payload ++ List.replicate input.length 0 := by
      rw [← List.append_assoc]
      exact List.drop_left' (by rw [List.length_append]; omega)
    have hleft : payload.length ≤ sizeLeft input.length (pos + headerBytes) := by
      rw [sizeLeft, if_neg (by omega)]
      rw [mallocBound] at hsize
      rw [maxFieldHeader] at hpayloadLength
      omega
    rw [hreached.decodeBuffer_cut htags hpos hnone, hwindow, ← List.append_assoc, hwhole]
    dsimp only
    rw [hbehind, List.take_append, List.take_of_length_le hleft]
    obtain ⟨result, hresult, hfinish⟩ := hread ((List.replicate input.length 0).take
      (sizeLeft input.length (pos + headerBytes) - payload.length))
    rw [hresult, Option.map_some, Option.bind_some]
    exact hfinish

variable (finish) in
/-- Without such an end, what lies behind the buffer does not matter. -/
theorem decodeBuffer_eq_of_not_cutOff (htags : pb.ReadsTags)
    (haccepts : ∀ fieldNo input record result, field fieldNo input record = some result →
      (finish result.1).isSome → accepts fieldNo record)
    (hcut : ¬ CutOff pb field start accepts input) (behind behind' : Bytes) :
    (decodeBuffer pb field input behind start).bind finish =
      (decodeBuffer pb field input behind' start).bind finish := by
  obtain ⟨pos, record, hreached, hend | ⟨hpos, hnone⟩ | hfield⟩ := exists_stop htags field input start
  · rw [hreached.decodeBuffer_end htags hend, hreached.decodeBuffer_end htags hend]
  · have hfails : ∀ behind, (decodeBuffer pb field input behind start).bind finish = none := by
      intro behind
      rw [hreached.decodeBuffer_cut htags hpos hnone]
      split
      · rfl
      · rename_i fieldNo type headerBytes htag
        rw [← Option.not_isSome_iff_eq_none]
        intro hsome
        cases hread : field fieldNo (((input ++ behind).drop (pos + headerBytes)).take
            (sizeLeft input.length (pos + headerBytes))) record with
        | none =>
            rw [hread] at hsome
            cases hsome
        | some result =>
            rw [hread] at hsome
            exact hcut ⟨pos, record, hreached, hpos, hnone, behind.take pos, fieldNo, type, headerBytes,
              List.length_take_le _ _, htag, haccepts _ _ _ _ hread hsome⟩
    rw [hfails, hfails]
  · obtain ⟨fieldNo, type, headerBytes, htag, hfield⟩ := hfield
    rw [hreached.decodeBuffer_field htags htag hfield, hreached.decodeBuffer_field htags htag hfield]

variable (start accepts finish) in
theorem prefixOnly_iff (htags : pb.ReadsTags) (hsize : input.length < mallocBound)
    (hpayload : ∀ fieldNo record, accepts fieldNo record → ∃ payload, payload.length ≤ maxFieldHeader ∧
      ∀ rest, ∃ result, field fieldNo (payload ++ rest) record = some result ∧ (finish result.1).isSome)
    (haccepts : ∀ fieldNo input record result, field fieldNo input record = some result →
      (finish result.1).isSome → accepts fieldNo record) :
    PrefixOnly (fun input behind => (decodeBuffer pb field input behind start).bind finish) input ↔
      ¬ CutOff pb field start accepts input := by
  constructor
  · intro hprefix hcut
    obtain ⟨behind, hlength, hsome⟩ := hcut.exists_some htags hsize hpayload
    obtain ⟨behind', hlength', hnone⟩ := hcut.exists_none htags input.length
    have hsame := hprefix behind behind' hlength hlength'
    dsimp only at hsame
    rw [hsame, hnone] at hsome
    cases hsome
  · exact fun hcut behind behind' _ _ => decodeBuffer_eq_of_not_cutOff finish htags haccepts hcut behind behind'

end

end CLibp2p
