import CLibp2p.Proof.YamuxBoundary
import CLibp2p.Proof.YamuxAccept

/-!
# Delivery

What reads return for a stream, followed by what the session still holds for it, is exactly what the
DATA frames consumed so far carried for it. The session holds bytes in two places, the read buffer of
an open stream and the buffer of a stream that waits to be accepted. The statement is about a stream
whose id names no other stream, and about runs in which no loop misreads a header or drops DATA of the
stream while it is open or waiting.
-/

namespace CLibp2p.Yamux

open Duplex

def Frame.dataFor (streamId : UInt32) (frame : Frame) : Bytes :=
  if frame.header.type = typeData ∧ frame.header.streamId = streamId then frame.payload else []

/-- Everything the peer sends for a stream. -/
def payloadsFor (streamId : UInt32) (frames : List Frame) : Bytes :=
  frames.flatMap (Frame.dataFor streamId)

def Reply.bytesFor (streamId : UInt32) : Reply → Bytes
  | .bytes id (some data) => if id = streamId then data else []
  | _ => []

/-- Everything the reads of a run returned for a stream. -/
def delivered (streamId : UInt32) (replies : List Reply) : Bytes :=
  replies.flatMap (Reply.bytesFor streamId)

def unreadOf (streamId : UInt32) : Option StreamContext → List Bytes
  | some ctx => if ctx.streamId = streamId then [ctx.unread] else []
  | none => []

def waitingOf (streamId : UInt32) (pending : PendingInbound) : List Bytes :=
  if pending.streamId = streamId then [pending.data] else []

def unreadFor (streamId : UInt32) (streams : List (Option StreamContext)) : List Bytes :=
  streams.flatMap (unreadOf streamId)

def waitingFor (streamId : UInt32) (session : Session) : List Bytes :=
  session.pendingInbound.flatMap (waitingOf streamId)

/-- The buffers of all streams with this id, open or waiting. -/
def held (streamId : UInt32) (session : Session) (streams : List (Option StreamContext)) :
    List Bytes :=
  unreadFor streamId streams ++ waitingFor streamId session

/-- A stream gets this id: an own SYN goes out, or the SYN of the peer is accepted or queued. -/
def naming (streamId : UInt32) : Note → Nat
  | .emitted hdr =>
      if hdr.type = typeWindowUpdate ∧ hdr.has flagSyn = true ∧ hdr.streamId = streamId then 1 else 0
  | mark => acceptedSyn streamId mark + if queuedSyn streamId mark then 1 else 0

def namings (streamId : UInt32) (notes : List Note) : Nat := tally (naming streamId) notes

/-- DATA of the stream that the operation which consumed it throws away. -/
def drops (streamId : UInt32) : Note → Bool
  | .received op queued hdr =>
      hdr.type == typeData && hdr.streamId == streamId && hdr.length != 0 &&
        match op with
        | .read _ id => id != streamId && !queued.contains streamId
        | .open _ _ => !hdr.has flagSyn && !queued.contains streamId
        | .accept => !hdr.has flagSyn
        | .ping _ => true
  | _ => false

def Lossless (streamId : UInt32) (notes : List Note) : Prop :=
  ∀ mark ∈ notes, misreads mark = false ∧ drops streamId mark = false

/-! ### Buffers -/

/-- How the buffers of a stream change while `data` arrives for it, `gave` is handed to the caller and
the id is given out `named` times. Nothing is claimed about `data` unless `Clean`. -/
inductive Shift (gave data : Bytes) (named : Nat) (Clean : Prop) :
    List Bytes → List Bytes → Prop where
  | same {buffers : List Bytes} (hgave : gave = []) (hdata : Clean → data = []) :
      Shift gave data named Clean buffers buffers
  | moved {first rest : List Bytes} {buffer buffer' : Bytes}
      (hmoved : gave ++ buffer' = buffer ++ data) :
      Shift gave data named Clean (first ++ buffer :: rest) (first ++ buffer' :: rest)
  | lost {first rest : List Bytes} {buffer : Bytes} (hgave : gave = []) :
      Shift gave data named Clean (first ++ buffer :: rest) (first ++ rest)
  | gained {first rest : List Bytes} (hgave : gave = []) (hnamed : 0 < named) :
      Shift gave data named Clean (first ++ rest) (first ++ data :: rest)
  | missed {buffers : List Bytes} (hgave : gave = []) (hnamed : 0 < named) :
      Shift gave data named Clean buffers buffers

theorem Shift.replaced {gave data buffer buffer' : Bytes} {named : Nat} {Clean : Prop}
    (hmoved : gave ++ buffer' = buffer ++ data) : Shift gave data named Clean [buffer] [buffer'] := by
  rw [← List.nil_append [buffer], ← List.nil_append [buffer']]
  exact .moved hmoved

theorem Shift.emptied {data buffer : Bytes} {named : Nat} {Clean : Prop} :
    Shift [] data named Clean [buffer] [] := by
  have hlost : Shift [] data named Clean ([] ++ buffer :: []) ([] ++ []) := .lost rfl
  exact hlost

theorem Shift.first {gave data : Bytes} {named : Nat} {Clean : Prop} {buffers : List Bytes}
    (hgave : gave = []) (hnamed : 0 < named) :
    Shift gave data named Clean buffers ([data] ++ buffers) := by
  have hgained : Shift gave data named Clean ([] ++ buffers) ([] ++ data :: buffers) :=
    .gained hgave hnamed
  exact hgained

theorem Shift.length_le {gave data : Bytes} {named : Nat} {Clean : Prop}
    {before after : List Bytes} (hshift : Shift gave data named Clean before after) :
    after.length ≤ before.length + named := by
  cases hshift with
  | same hgave hdata => omega
  | moved hmoved => simp only [List.length_append, List.length_cons]; omega
  | lost hgave => simp only [List.length_append, List.length_cons]; omega
  | gained hgave hnamed => simp only [List.length_append, List.length_cons]; omega
  | missed hgave hnamed => omega

/-- While the id names one stream at most, nothing is lost, duplicated or reordered. -/
theorem Shift.flatten {gave data : Bytes} {named names : Nat} {Clean : Prop}
    {before after : List Bytes} (hshift : Shift gave data named Clean before after)
    (hlength : before.length ≤ names) (hunique : names + named ≤ 1) (hclean : Clean)
    (hlive : names + named = 0 ∨ after ≠ []) :
    (names = 0 ∨ before ≠ []) ∧ gave ++ after.flatten = before.flatten ++ data := by
  cases hshift with
  | same hgave hdata =>
      rw [hgave, hdata hclean, List.append_nil]
      exact ⟨hlive.imp (by omega) id, rfl⟩
  | moved hmoved =>
      rename_i first rest buffer buffer'
      simp only [List.length_append, List.length_cons] at hlength
      obtain rfl : first = [] := List.eq_nil_of_length_eq_zero (by omega)
      obtain rfl : rest = [] := List.eq_nil_of_length_eq_zero (by omega)
      exact ⟨Or.inr (by simp), by simpa using hmoved⟩
  | lost hgave =>
      rename_i first rest buffer
      simp only [List.length_append, List.length_cons] at hlength
      obtain rfl : first = [] := List.eq_nil_of_length_eq_zero (by omega)
      obtain rfl : rest = [] := List.eq_nil_of_length_eq_zero (by omega)
      rcases hlive with hlive | hlive
      · omega
      · exact absurd rfl hlive
  | gained hgave hnamed =>
      rename_i first rest
      simp only [List.length_append] at hlength
      obtain rfl : first = [] := List.eq_nil_of_length_eq_zero (by omega)
      obtain rfl : rest = [] := List.eq_nil_of_length_eq_zero (by omega)
      exact ⟨Or.inl (by omega), by simp [hgave]⟩
  | missed hgave hnamed =>
      obtain rfl : before = [] := List.eq_nil_of_length_eq_zero (by omega)
      rcases hlive with hlive | hlive
      · omega
      · exact absurd rfl hlive

theorem Shift.append {gave data : Bytes} {named : Nat} {Clean : Prop} {before after : List Bytes}
    (hshift : Shift gave data named Clean before after) (more : List Bytes) :
    Shift gave data named Clean (before ++ more) (after ++ more) := by
  cases hshift with
  | same hgave hdata => exact .same hgave hdata
  | moved hmoved => simpa using Shift.moved hmoved
  | lost hgave => simpa using Shift.lost hgave
  | gained hgave hnamed => simpa using Shift.gained hgave hnamed
  | missed hgave hnamed => exact .missed hgave hnamed

theorem Shift.prepend {gave data : Bytes} {named : Nat} {Clean : Prop} {before after : List Bytes}
    (hshift : Shift gave data named Clean before after) (more : List Bytes) :
    Shift gave data named Clean (more ++ before) (more ++ after) := by
  cases hshift with
  | same hgave hdata => exact .same hgave hdata
  | moved hmoved =>
      rw [← List.append_assoc, ← List.append_assoc]
      exact .moved hmoved
  | lost hgave =>
      rw [← List.append_assoc, ← List.append_assoc]
      exact .lost hgave
  | gained hgave hnamed =>
      rw [← List.append_assoc, ← List.append_assoc]
      exact .gained hgave hnamed
  | missed hgave hnamed => exact .missed hgave hnamed

theorem unreadFor_append (streamId : UInt32) (streams streams' : List (Option StreamContext)) :
    unreadFor streamId (streams ++ streams') =
      unreadFor streamId streams ++ unreadFor streamId streams' := by
  simp [unreadFor]

theorem unreadFor_cons (streamId : UInt32) (slot : Option StreamContext)
    (streams : List (Option StreamContext)) :
    unreadFor streamId (slot :: streams) = unreadOf streamId slot ++ unreadFor streamId streams := by
  simp [unreadFor]

theorem Shift.slot {gave data : Bytes} {named : Nat} {Clean : Prop} {streamId : UInt32}
    {slot slot' : Option StreamContext} {session : Session} (front back : List (Option StreamContext))
    (hshift : Shift gave data named Clean (unreadOf streamId slot) (unreadOf streamId slot')) :
    Shift gave data named Clean (held streamId session (front ++ slot :: back))
      (held streamId session (front ++ slot' :: back)) := by
  rw [held, held, unreadFor_append, unreadFor_append, unreadFor_cons, unreadFor_cons]
  exact ((hshift.append _).prepend _).append _

theorem Shift.set {gave data : Bytes} {named : Nat} {Clean : Prop} {streamId : UInt32}
    {streams : List (Option StreamContext)} {slot slot' : Option StreamContext} {session : Session}
    {handle : Nat} (hslot : streams[handle]? = some slot)
    (hshift : Shift gave data named Clean (unreadOf streamId slot) (unreadOf streamId slot')) :
    Shift gave data named Clean (held streamId session streams)
      (held streamId session (streams.set handle slot')) := by
  obtain ⟨hbound, hget⟩ := List.getElem?_eq_some_iff.mp hslot
  have hsplit : streams = streams.take handle ++ slot :: streams.drop (handle + 1) := by
    rw [← hget, List.cons_getElem_drop_succ, List.take_append_drop]
  have hset : streams.set handle slot' =
      streams.take handle ++ slot' :: streams.drop (handle + 1) := by
    rw [List.set_eq_take_append_cons_drop, if_pos hbound]
  rw [hset]
  have hmoved : Shift gave data named Clean
      (held streamId session (streams.take handle ++ slot :: streams.drop (handle + 1))) _ :=
    hshift.slot (streams.take handle) (streams.drop (handle + 1))
  rwa [← hsplit] at hmoved

theorem Shift.waiting {gave data : Bytes} {named : Nat} {Clean : Prop} {streamId : UInt32}
    {streams : List (Option StreamContext)} {session session' : Session}
    (hshift : Shift gave data named Clean (waitingFor streamId session)
      (waitingFor streamId session')) :
    Shift gave data named Clean (held streamId session streams) (held streamId session' streams) :=
  hshift.prepend _

theorem Shift.own {gave data : Bytes} {named : Nat} {Clean : Prop} {streamId : UInt32}
    {ctx ctx' : StreamContext} (hid : ctx'.streamId = ctx.streamId)
    (hmoved : ctx.streamId = streamId → gave ++ ctx'.unread = ctx.unread ++ data)
    (hother : ctx.streamId ≠ streamId → gave = [] ∧ data = []) :
    Shift gave data named Clean (unreadOf streamId (some ctx)) (unreadOf streamId (some ctx')) := by
  rw [unreadOf, unreadOf, hid]
  by_cases hself : ctx.streamId = streamId
  · rw [if_pos hself, if_pos hself]
    exact .replaced (hmoved hself)
  · rw [if_neg hself, if_neg hself]
    exact .same (hother hself).1 fun _ => (hother hself).2

/-- The bytes of a frame with this header that belong to the stream. -/
def dataIn (streamId : UInt32) (hdr : Header) (data : Bytes) : Bytes :=
  if hdr.type = typeData ∧ hdr.streamId = streamId then data else []

theorem dataIn_other {streamId : UInt32} {hdr : Header} {data : Bytes}
    (hother : hdr.type ≠ typeData ∨ hdr.streamId ≠ streamId) : dataIn streamId hdr data = [] :=
  if_neg fun h => hother.elim (fun htype => htype h.1) fun hid => hid h.2

theorem dataIn_empty {streamId : UInt32} {hdr : Header} {data : Bytes}
    (hlength : data.length = hdr.length.toNat) (hempty : hdr.length = 0) :
    dataIn streamId hdr data = [] := by
  have hnil : data = [] := List.eq_nil_of_length_eq_zero (by rw [hlength, hempty]; rfl)
  rw [dataIn, hnil, ite_self]

@[simp] theorem dataIn_nil (streamId : UInt32) (hdr : Header) : dataIn streamId hdr [] = [] := by
  rw [dataIn, ite_self]

theorem waiting_bufferFirst {named : Nat} {Clean : Prop} {streamId : UInt32} {hdr : Header}
    {data : Bytes} (htype : hdr.type = typeData) {pendings : List PendingInbound}
    (hmem : hdr.streamId ∈ pendings.map PendingInbound.streamId) :
    Shift [] (dataIn streamId hdr data) named Clean (pendings.flatMap (waitingOf streamId))
      ((bufferFirst hdr.streamId data pendings).flatMap (waitingOf streamId)) := by
  induction pendings with
  | nil => cases hmem
  | cons pending rest ih =>
      rw [bufferFirst]
      by_cases hid : pending.streamId = hdr.streamId
      · rw [if_pos hid, List.flatMap_cons, List.flatMap_cons]
        apply Shift.append
        by_cases hself : hdr.streamId = streamId
        · rw [dataIn, if_pos ⟨htype, hself⟩, waitingOf, waitingOf, if_pos (hid.trans hself),
            if_pos (hid.trans hself)]
          exact .replaced rfl
        · rw [dataIn_other (Or.inr hself), waitingOf, waitingOf]
          simp only [hid, hself, if_false]
          exact .same rfl fun _ => rfl
      · rw [if_neg hid, List.flatMap_cons, List.flatMap_cons]
        apply Shift.prepend
        apply ih
        rw [List.map_cons, List.mem_cons] at hmem
        exact hmem.resolve_left (Ne.symm hid)

theorem waitingFor_pendingBuffer {named : Nat} {Clean : Prop} {streamId : UInt32}
    {session : Session} {hdr : Header} {data : Bytes} (htype : hdr.type = typeData)
    (hqueued : pendingExists session hdr.streamId = true) :
    Shift [] (dataIn streamId hdr data) named Clean (waitingFor streamId session)
      (waitingFor streamId (pendingBuffer session hdr.streamId data)) :=
  waiting_bufferFirst htype (mem_queued_of_pendingExists hqueued)

theorem waitingFor_pendingAdd {named : Nat} {Clean : Prop} {streamId : UInt32} {session : Session}
    {hdr : Header} {data : Bytes} (hdata : hdr.type ≠ typeData → data = [])
    (hnamed : hdr.streamId = streamId → 0 < named) :
    Shift [] (dataIn streamId hdr data) named Clean (waitingFor streamId session)
      (waitingFor streamId
        (pendingBuffer (pendingAdd session hdr.streamId) hdr.streamId data)) := by
  have hnew : waitingFor streamId
      (pendingBuffer (pendingAdd session hdr.streamId) hdr.streamId data) =
      waitingOf streamId ⟨hdr.streamId, data⟩ ++ waitingFor streamId session := by
    simp [waitingFor, pendingBuffer, pendingAdd, bufferFirst]
  rw [hnew]
  by_cases hself : hdr.streamId = streamId
  · have hall : dataIn streamId hdr data = data := by
      by_cases htype : hdr.type = typeData
      · exact if_pos ⟨htype, hself⟩
      · rw [hdata htype, dataIn_nil]
    rw [hall, waitingOf, if_pos hself]
    exact .first rfl (hnamed hself)
  · rw [dataIn_other (Or.inr hself), waitingOf, if_neg hself]
    exact .same rfl fun _ => rfl

/-! ### What has been delivered -/

/-- What is taken from the wire in one go: nothing, a whole frame with `data` for the stream, or
something after which the wire fails. -/
inductive Takes (streamId : UInt32) (failed : Bool) : Bytes → Flow → Prop where
  | nothing : Takes streamId failed [] (.took [])
  | frame {head data : Bytes} {hdr : Header} (hlive : failed = false)
      (hdecode : Header.decode head = some hdr) (hhead : head.length = headerSize)
      (hdata : data.length = hdr.payloadLength) :
      Takes streamId failed (dataIn streamId hdr data) (.took (head ++ data))
  | failed (data : Bytes) : Takes streamId failed [] (.broke data)

def Transfer (streamId : UInt32) (failed : Bool) (gave : Bytes) (before after : List Bytes)
    (notes : List Note) (flow : Flow) : Prop :=
  ∃ data, Shift gave data (namings streamId notes) (Lossless streamId notes) before after ∧
    (Lossless streamId notes → Takes streamId failed data flow)

/-- The stream has received what the frames consumed so far carried for it. -/
structure Delivers (streamId : UInt32) (frames : List Frame) (session : Session)
    (streams : List (Option StreamContext)) (bytes : Bytes) (log : List Note) (past : Flow) :
    Prop where
  holders : (held streamId session streams).length ≤ namings streamId log
  exact : Lossless streamId log → namings streamId log ≤ 1 →
    namings streamId log = 0 ∨ held streamId session streams ≠ [] →
    past.data <+: encodeFrames frames →
    ∃ done, done <+: frames ∧ (past.failed = false → past.data = encodeFrames done) ∧
      bytes ++ (held streamId session streams).flatten = payloadsFor streamId done

theorem lossless_append {streamId : UInt32} {notes notes' : List Note} :
    Lossless streamId (notes ++ notes') ↔ Lossless streamId notes ∧ Lossless streamId notes' :=
  List.forall_mem_append

theorem namings_append (streamId : UInt32) (notes notes' : List Note) :
    namings streamId (notes ++ notes') = namings streamId notes + namings streamId notes' :=
  tally_append _ _ _

theorem encodeFrames_append (frames frames' : List Frame) :
    encodeFrames (frames ++ frames') = encodeFrames frames ++ encodeFrames frames' := by
  simp [encodeFrames]

theorem payloadsFor_append (streamId : UInt32) (frames frames' : List Frame) :
    payloadsFor streamId (frames ++ frames') =
      payloadsFor streamId frames ++ payloadsFor streamId frames' := by
  simp [payloadsFor]

/-- A header and as many bytes as it announces, read at the end of whole frames, are the next
frame. -/
theorem next_frame {done frames : List Frame} {head data : Bytes} {hdr : Header}
    (hdone : done <+: frames) (hdecode : Header.decode head = some hdr)
    (hhead : head.length = headerSize) (hdata : data.length = hdr.payloadLength)
    (hfront : encodeFrames done ++ (head ++ data) <+: encodeFrames frames) :
    ∃ frame : Frame, frame.header = hdr ∧ frame.payload = data ∧ head = hdr.encode ∧
      done ++ [frame] <+: frames := by
  obtain ⟨rest, rfl⟩ := hdone
  rw [encodeFrames_append, List.prefix_append_right_inj] at hfront
  obtain ⟨tail, htail⟩ := hfront
  cases rest with
  | nil =>
      rw [encodeFrames_nil, List.append_eq_nil_iff, List.append_eq_nil_iff] at htail
      rw [htail.1.1] at hhead
      cases hhead
  | cons frame rest =>
      rw [encodeFrames_cons, List.append_assoc] at htail
      obtain ⟨rfl, hrest⟩ := List.append_inj htail (by rw [hhead, Header.length_encode])
      rw [Header.decode_encode] at hdecode
      obtain rfl := Option.some.inj hdecode
      obtain ⟨hpayload, -⟩ := List.append_inj hrest (by rw [hdata, frame.payload_length])
      refine ⟨frame, rfl, hpayload.symm, rfl, rest, ?_⟩
      rw [List.append_assoc]
      rfl

theorem payloadsFor_singleton (streamId : UInt32) (frame : Frame) :
    payloadsFor streamId [frame] = dataIn streamId frame.header frame.payload := by
  rw [payloadsFor, List.flatMap_singleton]
  rfl

theorem Takes.advance {streamId : UInt32} {frames done : List Frame} {past flow : Flow}
    {data : Bytes} (htakes : Takes streamId past.failed data flow) (hdone : done <+: frames)
    (hpast : past.failed = false → past.data = encodeFrames done)
    (hfront : (past.andThen flow).data <+: encodeFrames frames) :
    ∃ done', done' <+: frames ∧
      ((past.andThen flow).failed = false → (past.andThen flow).data = encodeFrames done') ∧
      payloadsFor streamId done' = payloadsFor streamId done ++ data := by
  cases htakes with
  | nothing =>
      rw [andThen_took_nil]
      exact ⟨done, hdone, hpast, (List.append_nil _).symm⟩
  | failed taken =>
      refine ⟨done, hdone, fun hlive => ?_, (List.append_nil _).symm⟩
      rw [Flow.failed_andThen, Flow.failed, Bool.or_true] at hlive
      cases hlive
  | frame hlive hdecode hhead hdata =>
      cases past with
      | broke taken => cases hlive
      | took taken =>
          obtain rfl : taken = encodeFrames done := hpast hlive
          obtain ⟨frame, rfl, rfl, rfl, hnext⟩ := next_frame hdone hdecode hhead hdata hfront
          refine ⟨done ++ [frame], hnext, fun _ => ?_, ?_⟩
          · rw [encodeFrames_append, encodeFrames_cons, encodeFrames_nil, List.append_nil]
            rfl
          · rw [payloadsFor_append, payloadsFor_singleton]

theorem Delivers.transfer {streamId : UInt32} {frames : List Frame} {session session' : Session}
    {streams streams' : List (Option StreamContext)} {bytes gave : Bytes} {log notes : List Note}
    {past flow : Flow} (hbefore : Delivers streamId frames session streams bytes log past)
    (htransfer : Transfer streamId past.failed gave (held streamId session streams)
      (held streamId session' streams') notes flow) :
    Delivers streamId frames session' streams' (bytes ++ gave) (log ++ notes)
      (past.andThen flow) := by
  obtain ⟨data, hshift, htakes⟩ := htransfer
  refine ⟨?_, fun hclean hunique hlive hfront => ?_⟩
  · have hless := hshift.length_le
    have hholders := hbefore.holders
    rw [namings_append]
    omega
  · rw [lossless_append] at hclean
    rw [namings_append] at hunique hlive
    obtain ⟨hlive', hflatten⟩ := hshift.flatten hbefore.holders hunique hclean.2 hlive
    obtain ⟨done, hdone, hpast, hbytes⟩ := hbefore.exact hclean.1 (by omega) hlive'
      ((Flow.data_isPrefix_andThen past flow).trans hfront)
    obtain ⟨done', hdone', hpast', hpayloads⟩ := (htakes hclean.2).advance hdone hpast hfront
    refine ⟨done', hdone', hpast', ?_⟩
    rw [hpayloads, ← hbytes, List.append_assoc, hflatten, List.append_assoc]

/-! ### Passes -/

theorem lossless_cons {streamId : UInt32} {mark : Note} {notes : List Note}
    (hclean : Lossless streamId (mark :: notes)) : misreads mark = false ∧ drops streamId mark = false :=
  hclean mark List.mem_cons_self

theorem Transfer.quiet {streamId : UInt32} {failed : Bool} {buffers : List Bytes} {notes : List Note} :
    Transfer streamId failed [] buffers buffers notes (.took []) :=
  ⟨[], .same rfl fun _ => rfl, fun _ => .nothing⟩

/-- What a frame with this header brings for the stream; nothing when its payload is cut off. -/
def Flow.dataIn (streamId : UInt32) (hdr : Header) : Flow → Bytes
  | .took data => Yamux.dataIn streamId hdr data
  | .broke _ => []

theorem live_of_received {failed : Bool} {op : Operation} {queued : List UInt32} {hdr : Header}
    {notes : List Note} (hdeaf : failed = true → Deaf (.received op queued hdr :: notes)) :
    failed = false := by
  rw [Bool.eq_false_iff]
  intro hfailed
  have hheard := (deaf_cons.mp (hdeaf hfailed)).1
  cases hheard

theorem absurd_of_live {failed : Bool} {p : Prop} (hlive : failed = false)
    (hfailed : failed = true) : p := by
  rw [hlive] at hfailed
  cases hfailed

theorem transfer_received {streamId : UInt32} {failed : Bool} {gave head : Bytes}
    {before after : List Bytes} {op : Operation} {queued : List UInt32} {hdr : Header}
    {notes : List Note} {flow : Flow}
    (hdeaf : failed = true → Deaf (.received op queued hdr :: notes))
    (hdecode : Header.decode head = some hdr) (hhead : head.length = headerSize)
    (htakes : ∀ data, flow = .took data → misreads (.received op queued hdr) = false →
      data.length = hdr.payloadLength)
    (hshift : Shift gave (flow.dataIn streamId hdr)
      (namings streamId (.received op queued hdr :: notes))
      (Lossless streamId (.received op queued hdr :: notes)) before after) :
    Transfer streamId failed gave before after (.received op queued hdr :: notes)
      ((Flow.took head).andThen flow) := by
  refine ⟨_, hshift, fun hclean => ?_⟩
  cases flow with
  | broke data => exact .failed _
  | took data =>
      exact .frame (live_of_received hdeaf) hdecode hhead (htakes data rfl (lossless_cons hclean).1)

theorem transfer_failed {streamId : UInt32} {failed : Bool} {before after : List Bytes}
    {notes : List Note} {data : Bytes} (hshift : Shift [] [] (namings streamId notes)
      (Lossless streamId notes) before after) :
    Transfer streamId failed [] before after notes (.broke data) :=
  ⟨[], hshift, fun _ => .failed data⟩

/-- What a pass of a read hands over for the stream. -/
def givenBy (streamId : UInt32) (ctx : StreamContext) :
    (Session × StreamContext) ⊕ ReadResult → Bytes
  | .inr (some data, _, _) => if ctx.streamId = streamId then data else []
  | _ => []

theorem Control.waitingFor {session session' : Session} {hdr : Header} {ok : Bool}
    {notes : List Note} (hcontrol : Control session hdr ok session' notes) (streamId : UInt32) :
    waitingFor streamId session' = waitingFor streamId session := by
  cases hcontrol <;> rfl

theorem Shift.read {gave data : Bytes} {named : Nat} {Clean : Prop} {streamId : UInt32}
    {streams : List (Option StreamContext)} {ctx ctx' : StreamContext} {session session' : Session}
    {handle : Nat} (hctx : streams[handle]? = some (some ctx))
    (hsession : waitingFor streamId session' = waitingFor streamId session)
    (hshift : Shift gave data named Clean (unreadOf streamId (some ctx))
      (unreadOf streamId (some ctx'))) :
    Shift gave data named Clean (held streamId session streams)
      (held streamId session' (streams.set handle (some ctx'))) := by
  have hset : Shift gave data named Clean (held streamId session streams)
      (held streamId session (streams.set handle (some ctx'))) := hshift.set hctx
  rw [held, held] at hset ⊢
  rwa [hsession]

theorem Shift.read_same {flow : Flow} {named : Nat} {Clean : Prop} {streamId : UInt32}
    {streams : List (Option StreamContext)} {ctx ctx' : StreamContext} {session session' : Session}
    {handle : Nat} {hdr : Header} (hctx : streams[handle]? = some (some ctx))
    (hsession : waitingFor streamId session' = waitingFor streamId session)
    (hsame : unreadOf streamId (some ctx') = unreadOf streamId (some ctx))
    (hnothing : Clean → flow.dataIn streamId hdr = []) :
    Shift [] (flow.dataIn streamId hdr) named Clean (held streamId session streams)
      (held streamId session' (streams.set handle (some ctx'))) := by
  apply Shift.read hctx hsession
  rw [hsame]
  exact .same rfl hnothing

theorem drops_read {streamId : UInt32} {handle : Nat} {id : UInt32} {queued : List UInt32}
    {hdr : Header} (hkept : drops streamId (.received (.read handle id) queued hdr) = false)
    (htype : hdr.type = typeData) (hid : hdr.streamId = streamId) (hother : id ≠ streamId)
    (hunqueued : streamId ∉ queued) : hdr.length = 0 := by
  simpa [drops, htype, hid, hother, hunqueued] using hkept

theorem shift_readFrame {streamId : UInt32} {count handle : Nat} {session : Session}
    {streams : List (Option StreamContext)} {ctx : StreamContext} {hdr : Header}
    {turn : (Session × StreamContext) ⊕ ReadResult} {notes : List Note} {flow : Flow} {named : Nat}
    {Clean : Prop} (hctx : streams[handle]? = some (some ctx))
    (hread : ctx.readBuffer.length ≤ ctx.readBufferPos)
    (hclean : Clean → drops streamId
      (.received (.read ctx.handle ctx.streamId) session.queued hdr) = false)
    (hframe : ReadFrame count session ctx hdr turn notes flow) :
    Shift (givenBy streamId ctx turn) (flow.dataIn streamId hdr) named Clean
      (held streamId session streams)
      (held streamId (sessionAfterRead turn)
        (streams.set handle (some (contextAfterRead turn)))) := by
  cases hframe with
  | badVersion hversion => exact .read_same hctx rfl rfl fun _ => dataIn_nil streamId hdr
  | control htype hcontrol =>
      rename_i ok session'
      cases ok <;>
        exact .read_same hctx (hcontrol.waitingFor streamId) rfl fun _ => dataIn_nil streamId hdr
  | credit hversion htype hid => exact .read_same hctx rfl rfl fun _ => dataIn_nil streamId hdr
  | foreignCredit htype hid => exact .read_same hctx rfl rfl fun _ => dataIn_nil streamId hdr
  | unknown hversion hping hgoAway hwindow hdata hlength =>
      exact .read_same hctx rfl rfl fun _ => dataIn_other (Or.inl hdata)
  | buffered htype hid hqueued hlength ok =>
      rw [contextAfterRead, set_self_of_getElem? hctx]
      exact (waitingFor_pendingBuffer htype hqueued).waiting
  | dropped htype hid hunqueued hlength =>
      refine .read_same hctx rfl rfl fun hlossless => ?_
      by_cases hself : hdr.streamId = streamId
      · refine dataIn_empty hlength (hunqueued.elim (fun hunqueued => ?_) id)
        refine drops_read (hclean hlossless) htype hself (hself ▸ Ne.symm hid) fun hmem => ?_
        rw [hself, pendingExists_of_mem_queued hmem] at hunqueued
        cases hunqueued
      · exact dataIn_other (Or.inr hself)
  | finished htype hid hempty =>
      have hgave : givenBy streamId ctx (.inr (some [], session, { ctx with closed := true })) = [] :=
        ite_self []
      rw [hgave]
      exact .read_same hctx rfl rfl fun _ => dataIn_nil streamId hdr
  | empty htype hid hempty => exact .read_same hctx rfl rfl fun _ => dataIn_nil streamId hdr
  | delivered htype hid hfull hlength hreplenish =>
      rename_i data window
      refine Shift.read hctx rfl (.own rfl (fun hself => ?_) fun hself => ?_)
      · have hempty : ctx.unread = [] := List.drop_eq_nil_of_le hread
        have hall : (Flow.took data).dataIn streamId hdr = data := if_pos ⟨htype, hid.trans hself⟩
        rw [hempty, hall, givenBy, if_pos hself, List.nil_append, contextAfterRead,
          StreamContext.unread, ← hlength, ← List.length_take]
        exact List.prefix_iff_eq_append.mp (List.take_prefix count data)
      · exact ⟨if_neg hself, dataIn_other (Or.inr (hid ▸ hself))⟩
  | failedDiscard htype hother => exact .read_same hctx rfl rfl fun _ => rfl
  | failedBuffer htype hid ok => exact .read_same hctx rfl rfl fun _ => rfl
  | failed htype hid => exact .read_same hctx rfl rfl fun _ => rfl

theorem transfer_readTurn {streamId : UInt32} {failed : Bool} {count handle : Nat}
    {session : Session} {streams : List (Option StreamContext)} {ctx : StreamContext}
    {turn : (Session × StreamContext) ⊕ ReadResult} {notes : List Note} {flow : Flow}
    (hctx : streams[handle]? = some (some ctx)) (hdeaf : failed = true → Deaf notes)
    (hturn : ReadTurn count session ctx turn notes flow) :
    Transfer streamId failed (givenBy streamId ctx turn) (held streamId session streams)
      (held streamId (sessionAfterRead turn) (streams.set handle (some (contextAfterRead turn))))
      notes flow := by
  cases hturn with
  | closed hclosed =>
      rw [contextAfterRead, set_self_of_getElem? hctx]
      exact .quiet
  | served hbuffered =>
      refine ⟨[], Shift.read hctx rfl (.own rfl (fun hself => ?_) fun hself => ?_), fun _ => .nothing⟩
      · have hrest := List.prefix_iff_eq_append.mp (List.take_prefix count ctx.unread)
        rw [StreamContext.unread, List.drop_drop] at hrest
        rw [givenBy, if_pos hself, List.append_nil]
        exact hrest
      · exact ⟨if_neg hself, rfl⟩
  | headerFailed =>
      rw [contextAfterRead, set_self_of_getElem? hctx]
      exact transfer_failed (.same rfl fun _ => rfl)
  | frame hopen hread hdecode hlength hframe =>
      refine transfer_received hdeaf hdecode hlength (fun data hflow hclean => ?_)
        (shift_readFrame hctx hread (fun hclean => (lossless_cons hclean).2) hframe)
      subst hflow
      exact readFrame_takes_payload hclean hframe

theorem Shift.opening {named : Nat} {Clean : Prop} {streamId : UInt32} {ctx : StreamContext}
    {after : Option StreamContext} {data : Bytes}
    (hafter : after = none ∨ unreadOf streamId after = unreadOf streamId (some ctx))
    (hnothing : Clean → data = []) :
    Shift [] data named Clean (unreadOf streamId (some ctx)) (unreadOf streamId after) := by
  rcases hafter with rfl | hafter
  · rw [unreadOf]
    split
    · exact .emptied
    · exact .same rfl hnothing
  · rw [hafter]
    exact .same rfl hnothing

theorem Shift.open {named : Nat} {Clean : Prop} {streamId : UInt32} {data : Bytes}
    {streams : List (Option StreamContext)} {ctx : StreamContext} {after : Option StreamContext}
    {session session' : Session}
    (hsession : waitingFor streamId session' = waitingFor streamId session)
    (hafter : after = none ∨ unreadOf streamId after = unreadOf streamId (some ctx))
    (hnothing : Clean → data = []) :
    Shift [] data named Clean (held streamId session (streams ++ [some ctx]))
      (held streamId session' (streams ++ [after])) := by
  have hslot : Shift [] data named Clean (held streamId session (streams ++ some ctx :: []))
      (held streamId session (streams ++ after :: [])) :=
    (Shift.opening hafter hnothing).slot streams []
  rw [held, held] at hslot ⊢
  rwa [hsession]

theorem drops_open {streamId : UInt32} {handle : Nat} {id : UInt32} {queued : List UInt32}
    {hdr : Header} (hkept : drops streamId (.received (.open handle id) queued hdr) = false)
    (htype : hdr.type = typeData) (hid : hdr.streamId = streamId) (hopens : hdr.opensStream = false)
    (hunqueued : streamId ∉ queued) : hdr.length = 0 := by
  have hsyn : hdr.has flagSyn = false := by simpa [Header.opensStream, htype] using hopens
  simpa [drops, htype, hid, hsyn, hunqueued] using hkept

theorem naming_queued {streamId : UInt32} {session : Session} {ctx : StreamContext} {hdr : Header}
    {notes : List Note} (hown : ¬(hdr.type = typeWindowUpdate ∧ hdr.streamId = ctx.streamId))
    (hopens : hdr.opensStream = true) (hunqueued : pendingExists session hdr.streamId = false)
    (hself : hdr.streamId = streamId) :
    0 < namings streamId
      (.received (.open ctx.handle ctx.streamId) session.queued hdr :: notes) := by
  have hfresh : streamId ∉ session.queued := fun hmem => by
    rw [hself, pendingExists_of_mem_queued hmem] at hunqueued
    cases hunqueued
  have hother : ¬(hdr.type = typeWindowUpdate ∧ ctx.streamId = streamId) :=
    fun h => hown ⟨h.1, hself.trans h.2.symm⟩
  have hqueued : queuedSyn streamId
      (.received (.open ctx.handle ctx.streamId) session.queued hdr) = true := by
    simpa [queuedSyn, hopens, hself, hfresh] using not_and_or.mp hother
  have hone : 0 < naming streamId
      (.received (.open ctx.handle ctx.streamId) session.queued hdr) := by
    simp [naming, hqueued]
  rw [namings, tally_cons]
  omega

theorem shift_openFrame {streamId : UInt32} {session : Session}
    {streams : List (Option StreamContext)} {ctx : StreamContext} {hdr : Header}
    {turn : (Session × StreamContext) ⊕ OpenResult} {notes notes' : List Note} {flow : Flow}
    {Clean : Prop}
    (hclean : Clean → drops streamId
      (.received (.open ctx.handle ctx.streamId) session.queued hdr) = false)
    (hframe : OpenFrame session ctx hdr turn notes flow) :
    Shift [] (flow.dataIn streamId hdr)
      (namings streamId (.received (.open ctx.handle ctx.streamId) session.queued hdr :: notes'))
      Clean (held streamId session (streams ++ [some ctx]))
      (held streamId (sessionAfterOpen turn) (streams ++ [contextAfterOpen turn])) := by
  cases hframe with
  | control htype hcontrol =>
      rename_i ok session'
      cases ok with
      | true =>
          exact .open (hcontrol.waitingFor streamId) (Or.inr rfl) fun _ => dataIn_nil streamId hdr
      | false =>
          exact .open (hcontrol.waitingFor streamId) (Or.inl rfl) fun _ => dataIn_nil streamId hdr
  | acked htype hid => exact .open rfl (Or.inr rfl) fun _ => dataIn_nil streamId hdr
  | credit htype hid => exact .open rfl (Or.inr rfl) fun _ => dataIn_nil streamId hdr
  | requeued hown hopens hqueued => exact .open rfl (Or.inr rfl) fun _ => dataIn_nil streamId hdr
  | queued hown hopens hunqueued hlength ok =>
      refine (waitingFor_pendingAdd (fun htype => ?_) (naming_queued hown hopens hunqueued)).waiting
      exact List.eq_nil_of_length_eq_zero (hlength.trans (payloadLength_of_not_data htype))
  | buffered htype hopens hqueued hlength =>
      exact (waitingFor_pendingBuffer htype hqueued).waiting
  | discarded hping hgoAway hown hopens hunqueued hlength =>
      refine .open rfl (Or.inr rfl) fun hlossless => ?_
      by_cases hmine : hdr.type = typeData ∧ hdr.streamId = streamId
      · refine dataIn_empty hlength (drops_open (hclean hlossless) hmine.1 hmine.2 hopens ?_)
        intro hmem
        have hfresh := hunqueued hmine.1
        rw [hmine.2, pendingExists_of_mem_queued hmem] at hfresh
        cases hfresh
      · exact if_neg hmine
  | failedQueue htype hopens hunqueued ok =>
      have hown : ¬(hdr.type = typeWindowUpdate ∧ hdr.streamId = ctx.streamId) :=
        fun h => Header.ne_window_of_data htype h.1
      have hadded : Shift [] (dataIn streamId hdr [])
          (namings streamId (.received (.open ctx.handle ctx.streamId) session.queued hdr :: notes'))
          Clean (waitingFor streamId session)
          (waitingFor streamId
            (pendingBuffer (pendingAdd session hdr.streamId) hdr.streamId [])) :=
        waitingFor_pendingAdd (fun _ => rfl) (naming_queued hown hopens hunqueued)
      rw [pendingBuffer_nil, dataIn_nil] at hadded
      exact hadded.waiting
  | failedBuffer htype => exact .open rfl (Or.inr rfl) fun _ => rfl
  | failedDiscard hown => exact .open rfl (Or.inl rfl) fun _ => rfl

theorem transfer_openTurn {streamId : UInt32} {failed : Bool} {session : Session}
    {streams : List (Option StreamContext)} {ctx : StreamContext}
    {turn : (Session × StreamContext) ⊕ OpenResult} {notes : List Note} {flow : Flow}
    (hdeaf : failed = true → Deaf notes) (hturn : OpenTurn session ctx turn notes flow) :
    Transfer streamId failed [] (held streamId session (streams ++ [some ctx]))
      (held streamId (sessionAfterOpen turn) (streams ++ [contextAfterOpen turn])) notes flow := by
  cases hturn with
  | headerFailed => exact transfer_failed (.open rfl (Or.inl rfl) fun _ => rfl)
  | frame hdecode hlength hframe =>
      refine transfer_received hdeaf hdecode hlength (fun data hflow hclean => ?_)
        (shift_openFrame (fun hclean => (lossless_cons hclean).2) hframe)
      subst hflow
      exact openFrame_takes_payload hclean hframe

theorem Shift.session {named : Nat} {Clean : Prop} {streamId : UInt32} {data : Bytes}
    {streams : List (Option StreamContext)} {session session' : Session}
    (hsession : waitingFor streamId session' = waitingFor streamId session)
    (hnothing : Clean → data = []) :
    Shift [] data named Clean (held streamId session streams) (held streamId session' streams) := by
  rw [held, held, hsession]
  exact .same rfl hnothing

theorem shift_pingFrame {streamId value : UInt32} {session : Session} {queued : List UInt32}
    {streams : List (Option StreamContext)} {hdr : Header} {turn : Session ⊕ (Bool × Session)}
    {notes : List Note} {flow : Flow} {named : Nat} {Clean : Prop}
    (hclean : Clean → drops streamId (.received (.ping value) queued hdr) = false)
    (hframe : PingFrame value session hdr turn notes flow) :
    Shift [] (flow.dataIn streamId hdr) named Clean (held streamId session streams)
      (held streamId (turn.elim id Prod.snd) streams) := by
  cases hframe with
  | pong htype hack hvalue => exact .session rfl fun _ => dataIn_nil streamId hdr
  | stopped hcontrol =>
      exact .session (hcontrol.waitingFor streamId) fun _ => dataIn_nil streamId hdr
  | discarded hother hcontrol hlength =>
      refine .session (hcontrol.waitingFor streamId) fun hlossless => ?_
      by_cases hmine : hdr.type = typeData ∧ hdr.streamId = streamId
      · refine dataIn_empty hlength ?_
        simpa [drops, hmine.1, hmine.2] using hclean hlossless
      · exact if_neg hmine
  | failed hcontrol => exact .session (hcontrol.waitingFor streamId) fun _ => rfl

theorem transfer_pingTurn {streamId value : UInt32} {failed : Bool} {session : Session}
    {streams : List (Option StreamContext)} {turn : Session ⊕ (Bool × Session)} {notes : List Note}
    {flow : Flow} (hdeaf : failed = true → Deaf notes)
    (hturn : PingTurn value session turn notes flow) :
    Transfer streamId failed [] (held streamId session streams)
      (held streamId (turn.elim id Prod.snd) streams) notes flow := by
  cases hturn with
  | headerFailed => exact transfer_failed (.session rfl fun _ => rfl)
  | frame hdecode hlength hframe =>
      refine transfer_received hdeaf hdecode hlength (fun data hflow hclean => ?_)
        (shift_pingFrame (fun hclean => (lossless_cons hclean).2) hframe)
      subst hflow
      exact pingFrame_takes_payload hclean hframe

/-! ### Calls -/

theorem held_push_none (streamId : UInt32) (session : Session)
    (streams : List (Option StreamContext)) :
    held streamId session (streams ++ [none]) = held streamId session streams := by
  simp [held, unreadFor, unreadOf]

theorem Shift.pushed {data : Bytes} {named : Nat} {Clean : Prop} {streamId : UInt32}
    {session : Session} {streams : List (Option StreamContext)} {ctx : StreamContext}
    (hself : ctx.streamId = streamId → ctx.unread = data ∧ 0 < named)
    (hother : ctx.streamId ≠ streamId → data = []) :
    Shift [] data named Clean (held streamId session streams)
      (held streamId session (streams ++ [some ctx])) := by
  have hslot : Shift [] data named Clean (unreadOf streamId none) (unreadOf streamId (some ctx)) := by
    rw [unreadOf, unreadOf]
    by_cases hid : ctx.streamId = streamId
    · rw [if_pos hid, (hself hid).1]
      exact .first rfl (hself hid).2
    · rw [if_neg hid]
      exact .same rfl fun _ => hother hid
  have hpush : Shift [] data named Clean (held streamId session (streams ++ none :: [])) _ :=
    hslot.slot streams []
  rwa [held_push_none] at hpush

theorem naming_accepted {streamId : UInt32} {queued : List UInt32} {hdr : Header}
    {notes : List Note} (hopens : hdr.opensStream = true) (hid : hdr.streamId = streamId) :
    0 < namings streamId (.received .accept queued hdr :: notes) := by
  have hone : 0 < naming streamId (.received .accept queued hdr) := by
    rw [naming, acceptedSyn, if_pos ⟨hopens, hid⟩]
    · omega
    · simp
  rw [namings, tally_cons]
  omega

theorem naming_opened {streamId id : UInt32} (hid : id = streamId) :
    0 < namings streamId [.emitted (synHeader id)] := by
  have hone : naming streamId (.emitted (synHeader id)) = 1 :=
    if_pos ⟨rfl, show (flagSyn &&& flagSyn != 0) = true by decide, hid⟩
  rw [namings, tally_cons, hone]
  omega

theorem Shift.unanswered {data : Bytes} {Clean : Prop} {streamId : UInt32} {session : Session}
    {streams : List (Option StreamContext)} {queued : List UInt32} {hdr : Header}
    {notes : List Note} (hopens : hdr.opensStream = true)
    (hother : hdr.streamId ≠ streamId → data = []) :
    Shift [] data (namings streamId (.received .accept queued hdr :: notes)) Clean
      (held streamId session streams) (held streamId session (streams ++ [none])) := by
  rw [held_push_none]
  by_cases hid : hdr.streamId = streamId
  · exact .missed rfl (naming_accepted hopens hid)
  · exact .same rfl fun _ => hother hid

theorem dataIn_self {streamId : UInt32} {hdr : Header} {data : Bytes}
    (hid : hdr.streamId = streamId) (hlength : data.length = hdr.payloadLength) :
    data = dataIn streamId hdr data := by
  by_cases htype : hdr.type = typeData
  · exact (if_pos ⟨htype, hid⟩).symm
  · obtain rfl : data = [] :=
      List.eq_nil_of_length_eq_zero (hlength.trans (payloadLength_of_not_data htype))
    exact (dataIn_nil streamId hdr).symm

theorem shift_acknowledges {Clean : Prop} {streamId : UInt32} {session : Session}
    {streams : List (Option StreamContext)} {queued : List UInt32} {hdr : Header} {data : Bytes}
    {handle : Nat} {ctx : Option StreamContext} {notes : List Note} (hopens : hdr.opensStream = true)
    (hlength : data.length = hdr.payloadLength)
    (hack : Acknowledges session (newContext handle hdr.streamId true data) ctx notes) :
    Shift [] (dataIn streamId hdr data)
      (namings streamId (.received .accept queued hdr :: notes)) Clean
      (held streamId session streams) (held streamId session (streams ++ [ctx])) := by
  cases hack with
  | acked =>
      exact .pushed (fun hid => ⟨dataIn_self hid hlength, naming_accepted hopens hid⟩)
        fun hother => dataIn_other (Or.inr hother)
  | refused hcloses => exact .unanswered hopens fun hother => dataIn_other (Or.inr hother)

theorem shift_queued {named : Nat} {Clean : Prop} {streamId : UInt32} {session : Session}
    {streams : List (Option StreamContext)} {pending : PendingInbound} {rest : List PendingInbound}
    {handle : Nat} {ctx : Option StreamContext} {notes : List Note}
    (hpending : session.pendingInbound = pending :: rest)
    (hack : Acknowledges { session with pendingInbound := rest }
      (newContext handle pending.streamId true pending.data) ctx notes) :
    Shift [] [] named Clean (held streamId session streams)
      (held streamId { session with pendingInbound := rest } (streams ++ [ctx])) := by
  have hbefore : held streamId session streams = unreadFor streamId streams ++
      (waitingOf streamId pending ++ rest.flatMap (waitingOf streamId)) := by
    rw [held, waitingFor, hpending, List.flatMap_cons]
  have hafter : held streamId { session with pendingInbound := rest } (streams ++ [ctx]) =
      unreadFor streamId streams ++
        (unreadOf streamId ctx ++ rest.flatMap (waitingOf streamId)) := by
    rw [held, unreadFor_append, unreadFor_cons, List.append_assoc, List.append_assoc]
    rfl
  rw [hbefore, hafter]
  apply Shift.prepend
  apply Shift.append
  cases hack with
  | acked => exact .same rfl fun _ => rfl
  | refused hcloses =>
      rw [waitingOf, unreadOf]
      split
      · exact .emptied
      · exact .same rfl fun _ => rfl

/-- Where a pass of `yamux_wait_for_syn` leaves a stream: the payload of the SYN it returns has not
been read yet. -/
def DeliversSyn (streamId : UInt32) (frames : List Frame) (streams : List (Option StreamContext))
    (bytes : Bytes) : Session ⊕ (Option Header × Session) → List Note → Flow → Prop
  | .inr (some hdr, session), log, past =>
      ∃ queued log' past' head, log = log' ++ [.received .accept queued hdr] ∧
        past = past'.andThen (.took head) ∧ past'.failed = false ∧
        Header.decode head = some hdr ∧ head.length = headerSize ∧
        Delivers streamId frames session streams bytes log' past'
  | .inr (none, session), log, past => Delivers streamId frames session streams bytes log past
  | .inl session, log, past => Delivers streamId frames session streams bytes log past

section

variable {streamId : UInt32} {frames : List Frame} {session session' : Session}
variable {streams : List (Option StreamContext)} {bytes : Bytes} {log notes : List Note}
variable {past flow : Flow}

theorem Delivers.keeps {streams' : List (Option StreamContext)}
    (hbefore : Delivers streamId frames session streams bytes log past)
    (htransfer : Transfer streamId past.failed [] (held streamId session streams)
      (held streamId session' streams') notes flow) :
    Delivers streamId frames session' streams' bytes (log ++ notes) (past.andThen flow) := by
  have hafter := hbefore.transfer htransfer
  rwa [List.append_nil] at hafter

theorem Delivers.pushNone (hbefore : Delivers streamId frames session streams bytes log past) :
    Delivers streamId frames session (streams ++ [none]) bytes log past := by
  have hsame := held_push_none streamId session streams
  exact ⟨hsame ▸ hbefore.holders, hsame ▸ hbefore.exact⟩

theorem Delivers.synTurn {turn : Session ⊕ (Option Header × Session)}
    (hbefore : Delivers streamId frames session streams bytes log past)
    (hdeaf : past.failed = true → Deaf notes) (hturn : SynTurn session turn notes flow) :
    DeliversSyn streamId frames streams bytes turn (log ++ notes) (past.andThen flow) := by
  cases hturn with
  | headerFailed => exact hbefore.keeps (transfer_failed (.session rfl fun _ => rfl))
  | frame hdecode hlength hframe =>
      rename_i head hdr notes flow
      cases hframe with
      | control htype hcontrol =>
          rename_i ok session'
          have htransfer : Transfer streamId past.failed [] (held streamId session streams)
              (held streamId session' streams)
              (.received .accept session.queued hdr :: notes) ((Flow.took head).andThen (.took [])) :=
            transfer_received hdeaf hdecode hlength
              (fun data hflow _ => by cases hflow; exact (payloadLength_of_control htype).symm)
              (.session (hcontrol.waitingFor streamId) fun _ => dataIn_nil streamId hdr)
          cases ok <;> exact hbefore.keeps htransfer
      | opened hopens =>
          refine ⟨session.queued, log, past, head, rfl, ?_, live_of_received hdeaf, hdecode, hlength,
            hbefore⟩
          rw [andThen_took_nil]
      | discarded hping hgoAway hopens hdata =>
          refine hbefore.keeps (transfer_received hdeaf hdecode hlength (fun data hflow hclean => ?_)
            (.session rfl fun hlossless => ?_))
          · cases hflow
            exact synFrame_takes_payload hclean hping hgoAway hopens hdata
          · by_cases hmine : hdr.type = typeData ∧ hdr.streamId = streamId
            · have hsyn : hdr.has flagSyn = false := by
                simpa [Header.opensStream, hmine.1] using hopens
              refine dataIn_empty hdata ?_
              simpa [drops, hmine.1, hmine.2, hsyn] using (lossless_cons hlossless).2
            · exact if_neg hmine
      | failed hopens =>
          exact hbefore.keeps (transfer_received hdeaf hdecode hlength
            (fun data hflow _ => by cases hflow) (.session rfl fun _ => rfl))

theorem givenBy_reply (streamId : UInt32) (ctx ctx' : StreamContext) (ret : Option Bytes)
    (session : Session) :
    givenBy streamId ctx (.inr (ret, session, ctx')) =
      (Reply.bytes ctx.streamId ret).bytesFor streamId := by
  cases ret <;> rfl

theorem Delivers.readRan {count handle : Nat} {ctx ctx' : StreamContext} {ret : Option Bytes}
    (hbefore : Delivers streamId frames session streams bytes log past)
    (hdeaf : past.failed = true → Deaf notes) (hctx : streams[handle]? = some (some ctx))
    (hruns : ReadRuns count (session, ctx) (ret, session', ctx') notes flow) :
    Delivers streamId frames session' (streams.set handle (some ctx'))
      (bytes ++ (Reply.bytes ctx.streamId ret).bytesFor streamId) (log ++ notes)
      (past.andThen flow) := by
  refine hruns.readStreams hctx
    (fun session streams log past =>
      Delivers streamId frames session streams bytes log past ∧
        ∀ current, streams[handle]? = some (some current) → current.streamId = ctx.streamId)
    (fun ret session streams log past => Delivers streamId frames session streams
      (bytes ++ (Reply.bytes ctx.streamId ret).bytesFor streamId) log past)
    ?_ ?_ log past hdeaf ⟨hbefore, fun current hcurrent => ?_⟩
  · rintro session streams log past current session' current' notes flow ⟨hinv, hid⟩ hcurrent hturn
      hdeaf
    refine ⟨hinv.keeps (transfer_readTurn hcurrent hdeaf hturn), fun other hother => ?_⟩
    obtain ⟨hbound, -⟩ := List.getElem?_eq_some_iff.mp hcurrent
    rw [List.getElem?_set_self hbound, Option.some.injEq, Option.some.injEq] at hother
    rw [← hother, ← hid current hcurrent]
    exact ((Acts.read hturn).identity rfl).2
  · rintro session streams log past current ret session' current' notes flow ⟨hinv, hid⟩ hcurrent
      hturn hdeaf
    have hafter := hinv.transfer (transfer_readTurn hcurrent hdeaf hturn)
    rwa [givenBy_reply, hid current hcurrent] at hafter
  · rw [hctx, Option.some.injEq, Option.some.injEq] at hcurrent
    rw [hcurrent]

theorem Delivers.outcome {streams' : List (Option StreamContext)} {call : Call} {reply : Reply}
    (hbefore : Delivers streamId frames session streams bytes log past)
    (hdeaf : past.failed = true → Deaf notes)
    (houtcome : Outcome session streams call session' streams' reply notes flow) :
    Delivers streamId frames session' streams' (bytes ++ reply.bytesFor streamId) (log ++ notes)
      (past.andThen flow) := by
  have hsilent {session' : Session} {streams' : List (Option StreamContext)} {notes : List Note}
      (hheld : held streamId session' streams' = held streamId session streams) :
      Delivers streamId frames session' streams' (bytes ++ []) (log ++ notes)
        (past.andThen (.took [])) := by
    refine hbefore.transfer ?_
    rw [hheld]
    exact .quiet
  have hnone {session' : Session} (hsession : session'.pendingInbound = session.pendingInbound) :
      held streamId session' (streams ++ [none]) = held streamId session streams := by
    rw [held_push_none, held, held, waitingFor, waitingFor, hsession]
  have hsent (mark : Note) :
      Delivers streamId frames session.afterPing streams bytes (log ++ [mark]) past := by
    have hafter : Delivers streamId frames session.afterPing streams (bytes ++ []) (log ++ [mark])
        (past.andThen (.took [])) := hsilent rfl
    rwa [List.append_nil, andThen_took_nil] at hafter
  have hnothing {streams' : List (Option StreamContext)} {log : List Note} {past : Flow}
      (hafter : Delivers streamId frames session' streams' bytes log past) :
      Delivers streamId frames session' streams' (bytes ++ []) log past := by
    rwa [List.append_nil]
  have hsyn {result : Option Header × Session} {notes : List Note} {flow : Flow}
      (hruns : SynRuns session result notes flow) (hdeaf : past.failed = true → Deaf notes) :
      DeliversSyn streamId frames streams bytes (.inr result) (log ++ notes) (past.andThen flow) :=
    hruns.invariant (fun session => Delivers streamId frames session streams bytes)
      (fun result => DeliversSyn streamId frames streams bytes (.inr result))
      (fun hinv hturn hdeaf => hinv.synTurn hdeaf hturn)
      (fun hinv hturn hdeaf => hinv.synTurn hdeaf hturn) log past hdeaf hbefore
  cases houtcome with
  | openClosed hclosed => exact hsilent (hnone rfl)
  | openRefused => exact hsilent (hnone rfl)
  | openRan hruns =>
      have hopened : Delivers streamId frames session.afterOpen
          (streams ++ [some (newContext streams.length session.nextStreamId false [])]) bytes
          (log ++ [.emitted (synHeader session.nextStreamId)]) (past.andThen (.took [])) :=
        hbefore.keeps ⟨[], .pushed (fun hid => ⟨rfl, naming_opened hid⟩) fun _ => rfl,
          fun _ => .nothing⟩
      rw [andThen_took_nil] at hopened
      have hafter := hruns.openStreams
        (fun session streams => Delivers streamId frames session streams bytes)
        (fun session streams => Delivers streamId frames session streams bytes)
        (fun hinv hturn hdeaf => hinv.keeps (transfer_openTurn hdeaf hturn))
        (fun hinv hturn hdeaf => hinv.keeps (transfer_openTurn hdeaf hturn)) _ past
        (fun hfailed => (deaf_cons.mp (hdeaf hfailed)).2) hopened
      rw [List.append_assoc] at hafter
      exact hnothing hafter
  | acceptClosed hclosed => exact hsilent (hnone rfl)
  | acceptQueued hpending hack =>
      exact hbefore.transfer ⟨[], shift_queued hpending hack, fun _ => .nothing⟩
  | acceptNone hruns =>
      have hafter : Delivers streamId frames session' streams bytes _ _ := hsyn hruns hdeaf
      exact hnothing hafter.pushNone
  | acceptSyn hpending hruns hlength hack =>
      rename_i hdr data ctx notes notes' flow
      obtain ⟨queued, log', past', head, hlog, hpast, hlive, hdecode, hhead, hinv⟩ :=
        hsyn hruns fun hfailed => (deaf_append.mp (hdeaf hfailed)).1
      have htransfer : Transfer streamId past'.failed [] (held streamId session' streams)
          (held streamId session' (streams ++ [ctx])) (.received .accept queued hdr :: notes')
          ((Flow.took head).andThen (.took data)) :=
        transfer_received (absurd_of_live hlive) hdecode hhead
          (fun payload hflow _ => by cases hflow; exact hlength)
          (shift_acknowledges hruns.opens hlength hack)
      have hafter := hinv.transfer htransfer
      rw [← List.append_assoc, hlog, ← Flow.andThen_assoc, hpast, List.append_assoc,
        Flow.andThen_assoc]
      exact hafter
  | acceptLost hruns =>
      rename_i hdr notes flow
      obtain ⟨queued, log', past', head, hlog, hpast, hlive, hdecode, hhead, hinv⟩ :=
        hsyn hruns fun hfailed => (deaf_append.mp (hdeaf hfailed)).1
      have htransfer : Transfer streamId past'.failed [] (held streamId session' streams)
          (held streamId session' (streams ++ [none]))
          [.received .accept queued hdr, .truncated hdr] ((Flow.took head).andThen (.broke [])) :=
        transfer_received (absurd_of_live hlive) hdecode hhead
          (fun payload hflow _ => by cases hflow) (.unanswered hruns.opens fun _ => rfl)
      have hafter := hinv.transfer htransfer
      rw [← List.append_assoc, hlog, ← Flow.andThen_assoc, hpast, List.append_assoc,
        Flow.andThen_assoc]
      exact hafter
  | absent => exact hsilent rfl
  | readRan hctx hruns => exact hbefore.readRan hdeaf hctx hruns
  | wrote hctx hwrites =>
      rename_i ctx ctx' ret
      have hsame : unreadOf streamId (some ctx') = unreadOf streamId (some ctx) := by
        cases hwrites <;> rfl
      refine hbefore.transfer ⟨[], Shift.read hctx rfl ?_, fun _ => .nothing⟩
      rw [hsame]
      exact .same rfl fun _ => rfl
  | closed hctx hcloses =>
      have hslot : Shift [] [] (namings streamId notes) (Lossless streamId notes)
          (held streamId session streams) _ :=
        (Shift.opening (Or.inl rfl) fun _ => rfl).set hctx
      exact hbefore.transfer ⟨[], hslot, fun _ => .nothing⟩
  | pingClosed hclosed => exact hsilent rfl
  | pingRefused => exact hsilent rfl
  | pingRan hruns =>
      have hafter := hruns.invariant (fun session => Delivers streamId frames session streams bytes)
        (fun result => Delivers streamId frames result.2 streams bytes)
        (fun hinv hturn hdeaf => hinv.keeps (transfer_pingTurn hdeaf hturn))
        (fun hinv hturn hdeaf => hinv.keeps (transfer_pingTurn hdeaf hturn)) _ past
        (fun hfailed => (deaf_cons.mp (hdeaf hfailed)).2)
        (hsent (.emitted ⟨version, typePing, 0, 0, session.pingSeq⟩))
      rw [List.append_assoc] at hafter
      exact hnothing hafter
  | goawayClosed hclosed => exact hsilent rfl
  | goaway ok => exact hsilent rfl

end

/-! ### Runs -/

/-- The id names at most one stream, and while that stream is open or waiting nothing was misread and
none of its DATA thrown away. -/
def Intact (streamId : UInt32) (node : Node) : Prop :=
  namings streamId node.notes ≤ 1 ∧
    (held streamId node.session node.streams ≠ [] → Lossless streamId node.notes)

theorem Runs.readId {count : Nat} {session session' : Session} {ctx ctx' : StreamContext}
    {ret : Option Bytes} {notes : List Note} {flow : Flow}
    (hruns : ReadRuns count (session, ctx) (ret, session', ctx') notes flow) :
    ctx'.streamId = ctx.streamId :=
  hruns.invariant (fun state _ _ => state.2.streamId = ctx.streamId)
    (fun result _ _ => result.2.2.streamId = ctx.streamId)
    (fun hinv hturn _ => ((Acts.read hturn).identity rfl).2.trans hinv)
    (fun hinv hturn _ => ((Acts.read hturn).identity rfl).2.trans hinv) [] (.took [])
    (fun hfailed => by cases hfailed) rfl

theorem held_of_bytesFor {streamId : UInt32} {session session' : Session}
    {streams streams' : List (Option StreamContext)} {call : Call} {reply : Reply}
    {notes : List Note} {flow : Flow}
    (houtcome : Outcome session streams call session' streams' reply notes flow)
    (hbytes : reply.bytesFor streamId ≠ []) : held streamId session' streams' ≠ [] := by
  cases houtcome with
  | readRan hctx hruns =>
      rename_i handle count ctx ctx' ret
      have hid : ctx.streamId = streamId := by
        by_contra hother
        cases ret with
        | none => exact hbytes rfl
        | some data => exact hbytes (if_neg hother)
      obtain ⟨hbound, -⟩ := List.getElem?_eq_some_iff.mp hctx
      have hslot : some ctx' ∈ streams.set handle (some ctx') := List.mem_set hbound (some ctx')
      have hunread : ctx'.unread ∈ unreadOf streamId (some ctx') := by
        rw [unreadOf, if_pos (hruns.readId.trans hid)]
        exact List.mem_singleton_self _
      exact List.ne_nil_of_mem
        (List.mem_append_left _ (List.mem_flatMap.mpr ⟨_, hslot, hunread⟩))
  | _ => exact absurd rfl hbytes

theorem delivered_append (streamId : UInt32) (replies replies' : List Reply) :
    delivered streamId (replies ++ replies') =
      delivered streamId replies ++ delivered streamId replies' := by
  simp [delivered]

theorem payloadsFor_isPrefix {streamId : UInt32} {done frames : List Frame}
    (hdone : done <+: frames) : payloadsFor streamId done <+: payloadsFor streamId frames := by
  obtain ⟨rest, rfl⟩ := hdone
  exact ⟨payloadsFor streamId rest, (payloadsFor_append streamId done rest).symm⟩

/-- What a run has delivered so far, against what the frames carried. -/
def Delivered (streamId : UInt32) (frames : List Frame) (session : Session)
    (streams : List (Option StreamContext)) (replies : List Reply) (log : List Note) (past : Flow) :
    Prop :=
  Delivers streamId frames session streams (delivered streamId replies) log past ∧
    delivered streamId replies <+: payloadsFor streamId frames

theorem Delivered.step {streamId : UInt32} {frames : List Frame} {node node' : Node}
    {replies : List Reply} {call : Call} {reply : Reply} {notes : List Note} {past flow : Flow}
    (hbefore : Delivered streamId frames node.session node.streams replies node.notes past)
    (hintact : Intact streamId node')
    (houtcome : Outcome node.session node.streams call node'.session node'.streams reply notes flow)
    (hnotes : node'.notes = node.notes ++ notes)
    (hinbound : (past.andThen flow).data <+: encodeFrames frames)
    (hdeaf : past.failed = true → Deaf notes) :
    Delivered streamId frames node'.session node'.streams (replies ++ [reply]) node'.notes
      (past.andThen flow) := by
  have hafter := hbefore.1.outcome hdeaf houtcome
  have hdelivered : delivered streamId (replies ++ [reply]) =
      delivered streamId replies ++ reply.bytesFor streamId := by
    rw [delivered_append, delivered, delivered, List.flatMap_singleton]
  rw [← hnotes, ← hdelivered] at hafter
  refine ⟨hafter, ?_⟩
  by_cases hheld : held streamId node'.session node'.streams = []
  · have hnothing : reply.bytesFor streamId = [] := by
      by_contra hbytes
      exact held_of_bytesFor houtcome hbytes hheld
    rw [hdelivered, hnothing, List.append_nil]
    exact hbefore.2
  · obtain ⟨done, hdone, -, hbytes⟩ :=
      hafter.exact (hintact.2 hheld) hintact.1 (Or.inr hheld) hinbound
    exact (hbytes ▸ List.prefix_append _ _).trans (payloadsFor_isPrefix hdone)

/-- **Delivery.** In every run over whole frames in which the id names at most one stream, and in which
nothing is misread and none of its DATA thrown away while that stream is open or waiting, its reads
return a prefix of what the peer sent for it. As long as no raw read has failed, that is: one that fails is
taken to fail for good. -/
theorem delivered_isPrefix (isServer : Bool) (frames : List Frame) (grants : List Nat)
    (outcomes : List WriteOutcome) (calls : List Call) (streamId : UInt32)
    (hintact : ∀ part ∈ calls.inits,
      Intact streamId ((Node.start isServer (encodeFrames frames) grants outcomes).run part).1) :
    delivered streamId ((Node.start isServer (encodeFrames frames) grants outcomes).run calls).2 <+:
      payloadsFor streamId frames := by
  have hinit : Delivered streamId frames (sessionNew isServer) [] [] [] (.took []) :=
    ⟨⟨le_rfl, fun _ _ _ _ => ⟨[], List.nil_prefix, fun _ => rfl, rfl⟩⟩, List.nil_prefix⟩
  obtain ⟨past, -, hfront⟩ := Node.run_outcomes_while (Intact streamId)
    (Delivered streamId frames) isServer (encodeFrames frames) grants outcomes
    (fun _ hintact hbefore houtcome hnotes hinbound hdeaf =>
      hbefore.step hintact houtcome hnotes hinbound hdeaf) calls hintact hinit
  exact hfront

theorem noPayload : ([] : Bytes).length = 0 := List.length_nil

def synFrame2 : Frame := ⟨⟨version, typeWindowUpdate, flagSyn, 2, 0⟩, [], noPayload⟩
def dataFrame2 : Frame := ⟨⟨version, typeData, 0, 2, 2⟩, [5, 6], rfl⟩

/-- A client's open queues stream 2, its own stream's read buffers DATA for it, and then it is accepted
and read. -/
theorem delivered_isPrefix_queued :
    let frames := [synFrame2, ackFrame1, dataFrame2, dataFrame1]
    let run := (Node.start false (encodeFrames frames) [] []).run
      [.open, .read 0 2, .accept, .read 1 8]
    delivered 2 run.2 = [5, 6] ∧ delivered 2 run.2 <+: payloadsFor 2 frames := by
  refine ⟨by decide, delivered_isPrefix false
    [synFrame2, ackFrame1, dataFrame2, dataFrame1] [] [] [.open, .read 0 2, .accept, .read 1 8] 2 ?_⟩
  unfold Intact Lossless
  decide

def ackFrame3 : Frame := ⟨⟨version, typeWindowUpdate, flagAck, 3, 0⟩, [], noPayload⟩
def dataFrame3 (payload : UInt8) : Frame := ⟨⟨version, typeData, 0, 3, 1⟩, [payload], rfl⟩

/-- With two streams open, the read of stream 1 throws away DATA of stream 3. -/
theorem read_drops_other_stream :
    let frames := [ackFrame1, ackFrame3, dataFrame3 5, dataFrame1, dataFrame3 6]
    let run := (Node.start false (encodeFrames frames) [] []).run
      [.open, .open, .read 0 3, .read 1 3]
    run.2 = [.opened (some 1), .opened (some 3), .bytes 1 (some [7, 8, 9]), .bytes 3 (some [6])] ∧
      run.1.wire.failed = false ∧ ¬ delivered 3 run.2 <+: payloadsFor 3 frames := by
  decide

end CLibp2p.Yamux
