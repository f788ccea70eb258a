import CLibp2p.Proof.YamuxCall

/-!
# A FIN that comes with a payload

The FIN flag of a DATA frame closes the stream at once, and a closed stream serves no more bytes, not
even those of the frame itself. So the payload must fit into the read that takes the frame.
-/

namespace CLibp2p.Yamux

open Duplex Duplex.Prog

/-- What successive reads of the stream return. -/
def readAll : Session → StreamContext → Wire → (counts : List Nat) → List (Option Bytes)
  | _, _, _, [] => []
  | session, ctx, w, count :: counts =>
      let ((ret, session, ctx), w) := (streamRead (w.inbound.length + 1) session ctx count).run w
      ret :: readAll session ctx w counts

/-- What the reads returned, up to the first that reports a closed stream or an error, goes on after
`payload`, if there is such a read. -/
def DeliversBeforeEnd (payload : Bytes) (replies : List (Option Bytes)) : Prop :=
  ∀ before reply after, replies = before ++ reply :: after → reply = none ∨ reply = some [] →
    payload <+: before.flatMap fun ret => ret.getD []

/-- An open stream has served all it had, and a DATA frame with FIN for it is next on a live wire. -/
structure FinNext (session : Session) (ctx : StreamContext) (w : Wire) (frame : Frame) : Prop where
  sessionOpen : session.closed = false
  streamOpen : ctx.closed = false
  served : ctx.readBuffer.length ≤ ctx.readBufferPos
  live : w.Live
  inbound : frame.encode <+: w.inbound
  version : frame.header.version = version
  data : frame.header.type = typeData
  fin : frame.header.has flagFin = true
  streamId : frame.header.streamId = ctx.streamId

/-- The pass that takes the frame closes the stream, and the read hands out what it asked for. -/
theorem FinNext.turn {session : Session} {ctx : StreamContext} {w : Wire} {frame : Frame}
    (hnext : FinNext session ctx w frame) (count : Nat) :
    ∃ ctx' w', (readTurn count (session, ctx)).run w =
        (.inr (some (frame.payload.take count), session, ctx'), w') ∧ ctx'.closed = true := by
  obtain ⟨rest, hrest⟩ := hnext.inbound
  rw [Frame.encode, List.append_assoc] at hrest
  have hheader : headerSize ≤ w.inbound.length := by
    rw [← hrest, List.length_append, Header.length_encode]
    omega
  obtain ⟨w₁, hread, htook, hlive₁⟩ := run_readExactly_live hnext.live hheader
  have htake : w.inbound.take headerSize = frame.header.encode := by
    rw [← hrest]
    exact List.take_left' (Header.length_encode _)
  have hinbound₁ : w₁.inbound = frame.payload ++ rest := by
    rw [htook.inbound, ← hrest]
    exact List.drop_left' (Header.length_encode _)
  have hopen : (session.closed || ctx.closed) = false := by
    rw [hnext.sessionOpen, hnext.streamOpen, Bool.or_false]
  have hreadHeader : readHeader.run w = (some frame.header, w₁) := by
    rw [readHeader, run_bind, readFull, hread, htake]
    dsimp only
    rw [Header.decode_encode]
    rfl
  generalize hw₂ : ((note (.received (.read ctx.handle ctx.streamId) session.queued frame.header) :
    Code Unit).run w₁).2 = w₂
  have hlive₂ : w₂.Live := by
    rw [← hw₂]
    exact ⟨hlive₁.failed, hlive₁.closed, hlive₁.grants⟩
  have hinbound₂ : w₂.inbound = frame.payload ++ rest := by
    rw [← hw₂]
    exact hinbound₁
  have hturn : (readTurn count (session, ctx)).run w =
      (readFrame count session ctx frame.header).run w₂ := by
    rw [readTurn, if_neg (by rw [hopen]; exact Bool.false_ne_true), if_neg (not_lt.mpr hnext.served),
      onHeader, run_bind, hreadHeader]
    dsimp only
    rw [run_bind, hw₂]
  have hlength := frame.payload_length
  rw [Header.payloadLength, if_pos hnext.data] at hlength
  rw [hturn, readFrame, if_neg (not_not.mpr hnext.version), if_neg (Header.not_control_of_data hnext.data),
    if_neg (Header.ne_window_of_data hnext.data), if_neg (not_not.mpr hnext.data),
    if_neg (not_not.mpr hnext.streamId)]
  by_cases hempty : frame.header.length = 0
  · have hnil : frame.payload = [] := List.eq_nil_of_length_eq_zero (by rw [hlength, hempty]; rfl)
    rw [if_pos hempty, if_pos hnext.fin, hnil, List.take_nil]
    exact ⟨_, w₂, rfl, rfl⟩
  · have henough : frame.header.length.toNat ≤ w₂.inbound.length := by
      rw [hinbound₂, List.length_append]
      omega
    obtain ⟨w₃, hpayload, -, -⟩ := run_readExactly_live hlive₂ henough
    rw [hinbound₂, List.take_left' hlength] at hpayload
    obtain ⟨window, notes, w₄, htakes, -, -⟩ := run_takePayload count session ctx
      (frame.header.has flagFin) frame.payload frame.header.length w₃
    refine ⟨{ ctx with
      recvWindow := window
      closed := ctx.closed || frame.header.has flagFin
      readBuffer := frame.payload
      readBufferPos := min count frame.header.length.toNat }, w₄, ?_, ?_⟩
    · rw [if_neg hempty, run_bind, readFull, hpayload]
      simp only [run_bind, htakes]
      rfl
    · exact Bool.or_eq_true_iff.mpr (Or.inr hnext.fin)

/-- A read that gets to the frame after some passes of its loop. -/
theorem FinNext.read {session session' : Session} {ctx ctx' : StreamContext} {w w' : Wire}
    {frame : Frame} {count passes : Nat}
    (hpasses : (iterate (readTurn count) passes (session, ctx)).run w = (.inl (session', ctx'), w'))
    (hnext : FinNext session' ctx' w' frame) :
    ∃ ctx'' w'', (streamRead (w.inbound.length + 1) session ctx count).run w =
        ((some (frame.payload.take count), session', ctx''), w'') ∧ ctx''.closed = true := by
  obtain ⟨ctx'', w'', hturn, hclosed⟩ := hnext.turn count
  have hbound := passes_le_of_shrinks (readTurn_shrinks count) hpasses
  obtain ⟨spare, hspare⟩ : ∃ spare, w.inbound.length + 1 = passes + (spare + 1) :=
    ⟨w.inbound.length - passes, by omega⟩
  refine ⟨ctx'', w'', ?_, hclosed⟩
  rw [streamRead, run_bind, hspare, run_iterate_add hpasses, run_iterate_succ, hturn]
  rfl

/-- A closed stream gives nothing to any read. -/
theorem readAll_closed {session : Session} {ctx : StreamContext} (hclosed : ctx.closed = true) (w : Wire)
    (counts : List Nat) : readAll session ctx w counts = counts.map fun _ => none := by
  induction counts with
  | nil => rfl
  | cons count counts ih =>
      have hread : (streamRead (w.inbound.length + 1) session ctx count).run w =
          ((none, session, ctx), w) := by
        rw [streamRead, run_bind, run_iterate_succ, readTurn, hclosed, Bool.or_true, if_pos rfl]
        rfl
      simp only [readAll, hread, ih, List.map_cons]

theorem deliversBeforeEnd_cons_iff {payload first : Bytes} {replies : List (Option Bytes)}
    (hfirst : first ≠ []) (hreplies : ∀ reply ∈ replies, reply = none) :
    DeliversBeforeEnd payload (some first :: replies) ↔ replies = [] ∨ payload <+: first := by
  constructor
  · intro hdelivers
    cases replies with
    | nil => exact Or.inl rfl
    | cons reply replies =>
        right
        have hnone := hreplies reply List.mem_cons_self
        simpa using hdelivers [some first] reply replies rfl (Or.inl hnone)
  · intro hcondition before reply after hsplit hend
    cases before with
    | nil =>
        have hreply := (List.cons.inj hsplit).1
        rcases hend with hnone | hempty
        · rw [hnone] at hreply
          cases hreply
        · rw [hempty] at hreply
          exact absurd (Option.some.inj hreply) hfirst
    | cons reply' before =>
        obtain ⟨hhead, htail⟩ := List.cons.inj hsplit
        rcases hcondition with hnil | hprefix
        · rw [hnil] at htail
          simp at htail
        · rw [← hhead, List.flatMap_cons]
          exact hprefix.trans (List.prefix_append _ _)

/-- **A FIN that comes with a payload.** Whatever the state of the session and of the stream, and however
many frames the read passes over before it: from the read that takes the frame on, the whole payload is
returned before the stream reports that it is closed, if and only if this read has room for the payload
or is the last. -/
theorem readAll_fin_iff {session session' : Session} {ctx ctx' : StreamContext} {w w' : Wire}
    {frame : Frame} {count passes : Nat} (hcount : 0 < count)
    (hpasses : (iterate (readTurn count) passes (session, ctx)).run w = (.inl (session', ctx'), w'))
    (hnext : FinNext session' ctx' w' frame) (counts : List Nat) :
    DeliversBeforeEnd frame.payload (readAll session ctx w (count :: counts)) ↔
      counts = [] ∨ frame.payload.length ≤ count := by
  obtain ⟨ctx'', w'', hread, hclosed⟩ := FinNext.read hpasses hnext
  have hall : readAll session ctx w (count :: counts) =
      some (frame.payload.take count) :: counts.map fun _ => none := by
    simp only [readAll, hread, readAll_closed hclosed]
  rw [hall]
  by_cases hempty : frame.payload = []
  · -- the FIN comes alone, and there is nothing to deliver
    have htrue : DeliversBeforeEnd frame.payload
        (some (frame.payload.take count) :: counts.map fun _ => none) := by
      intro before reply after hsplit hend
      rw [hempty]
      exact List.nil_prefix
    exact iff_of_true htrue (Or.inr (by simp [hempty]))
  · have hfirst : frame.payload.take count ≠ [] := by
      simp only [Ne, List.take_eq_nil_iff, not_or]
      exact ⟨hcount.ne', hempty⟩
    rw [deliversBeforeEnd_cons_iff hfirst (by simp), List.map_eq_nil_iff]
    refine or_congr_right ⟨fun hprefix => ?_, fun hroom => ?_⟩
    · have hle := hprefix.length_le
      rw [List.length_take] at hle
      omega
    · rw [List.take_of_length_le hroom]

/-- A frame of three bytes with FIN for stream 1. -/
def finFrame : Frame := ⟨⟨version, typeData, flagFin, 1, 3⟩, [4, 5, 6], rfl⟩

def finWire : Wire := Duplex.Wire.fresh finFrame.encode [] [] []

theorem finNext_finFrame : FinNext (sessionNew true) (newContext 0 1 true []) finWire finFrame :=
  ⟨rfl, rfl, by decide, ⟨rfl, rfl, by decide⟩, List.prefix_rfl, rfl, rfl, rfl, rfl⟩

/-- Two reads of three bytes; the first has room for the payload. -/
theorem readAll_fin_iff_three :
    DeliversBeforeEnd finFrame.payload
        (readAll (sessionNew true) (newContext 0 1 true []) finWire [3, 3]) ↔
      [3] = [] ∨ finFrame.payload.length ≤ 3 :=
  readAll_fin_iff (by decide) (show (iterate (readTurn 3) 0 (sessionNew true, newContext 0 1 true [])).run
    finWire = _ from rfl) finNext_finFrame [3]

/-- Byte by byte, the stream reports that it is closed after the first of three bytes. -/
theorem readAll_fin_byte_by_byte :
    ¬∀ (session : Session) (ctx : StreamContext) (w : Wire) (frame : Frame) (counts : List Nat),
      FinNext session ctx w frame → (∀ count ∈ counts, 0 < count) →
      DeliversBeforeEnd frame.payload (readAll session ctx w counts) := by
  intro hclaim
  have hdelivers := hclaim _ _ _ _ [1, 1, 1] finNext_finFrame (by decide)
  have hreplies : readAll (sessionNew true) (newContext 0 1 true []) finWire [1, 1, 1] =
      [some [4], none, none] := by
    decide
  rw [hreplies] at hdelivers
  exact absurd (hdelivers [some [4]] none [none] rfl (Or.inl rfl)) (by decide)

end CLibp2p.Yamux
