import CLibp2p.Machine.Runs
import CLibp2p.Secio.ReadRaw
import Mathlib.Data.List.ReduceOption

/-!
# Messages that are read in pieces

A raw read measures its buffer against the whole message and forgets the position it was at. So the
second read of a message has to take exactly what is left of it, or be the last one.
-/

namespace CLibp2p.Secio

open Duplex Machine

/-- The position of a message that is buffered is not behind its end. -/
def RawReader.Inside (reader : RawReader) : Prop :=
  ∀ message pos, reader.buffered = some (message, pos) → pos ≤ message.length

/-- The calls return the bytes that are expected, as far as they go, none of them reads behind the end of
a message and none of them leaves the position there. -/
structure ReadsFrom (reader : RawReader) (expected : Bytes) (bufferSizes : List Nat) : Prop where
  returned : outputs rawStep rawReturned reader bufferSizes <+: expected
  inside : Along rawStep (fun reader bufferSize =>
    (readRaw reader bufferSize).1 ≠ .overrun ∧ (rawStep reader bufferSize).Inside) reader bufferSizes

/-- The calls on a new context hand out the messages in order. -/
def ReadsInOrder (messages : List (Option Bytes)) (bufferSizes : List Nat) : Prop :=
  ReadsFrom (.start messages) messages.reduceOption.flatten bufferSizes

/-- Each message is taken whole, or by two calls of which the second asks for exactly what the first has
left. The last call of all may ask for less. -/
def SizesFit : (messageSizes : List (Option Nat)) → (bufferSizes : List Nat) → Prop
  | _, [] => True
  | [], _ :: _ => True
  | none :: messageSizes, _ :: bufferSizes => SizesFit messageSizes bufferSizes
  | some _ :: _, [_] => True
  | some messageSize :: messageSizes, bufferSize :: next :: bufferSizes =>
      if messageSize ≤ bufferSize then SizesFit messageSizes (next :: bufferSizes)
      else if bufferSize + next = messageSize then SizesFit messageSizes bufferSizes
      else bufferSize + next < messageSize ∧ bufferSizes = []

/-! ### One call -/

theorem readsFrom_cons_iff {reader : RawReader} {front rest : Bytes} {bufferSize : Nat}
    {bufferSizes : List Nat} (hreturned : rawReturned reader bufferSize = front)
    (hresult : (readRaw reader bufferSize).1 ≠ .overrun) (hinside : (rawStep reader bufferSize).Inside) :
    ReadsFrom reader (front ++ rest) (bufferSize :: bufferSizes) ↔
      ReadsFrom (rawStep reader bufferSize) rest bufferSizes := by
  constructor
  · rintro ⟨hout, -, hlater⟩
    rw [outputs, hreturned, List.prefix_append_right_inj] at hout
    exact ⟨hout, hlater⟩
  · rintro ⟨hout, hlater⟩
    refine ⟨?_, ⟨hresult, hinside⟩, hlater⟩
    rw [outputs, hreturned, List.prefix_append_right_inj]
    exact hout

theorem RawReader.inside_start (incoming : List (Option Bytes)) : (RawReader.start incoming).Inside :=
  fun _ _ hbuffered => nomatch hbuffered

theorem serve_of_fits {reader : RawReader} {message : Bytes} {pos bufferSize : Nat}
    (hle : pos + min message.length bufferSize ≤ message.length) :
    reader.serve message pos bufferSize =
      (.bytes ((message.drop pos).take (min message.length bufferSize)),
        { reader with
          buffered := if pos + min message.length bufferSize = message.length then none
            else some (message, min message.length bufferSize) }) := by
  have hmax : (if message.length < bufferSize then message.length else bufferSize) =
      min message.length bufferSize := by
    split_ifs <;> omega
  rw [RawReader.serve, hmax, if_pos hle]
  split_ifs <;> rfl

theorem serve_of_overrun {reader : RawReader} {message : Bytes} {pos bufferSize : Nat}
    (hlt : message.length < pos + min message.length bufferSize) :
    (reader.serve message pos bufferSize).1 = .overrun := by
  have hmax : (if message.length < bufferSize then message.length else bufferSize) =
      min message.length bufferSize := by
    split_ifs <;> omega
  rw [RawReader.serve, hmax, if_neg (Nat.not_le.mpr hlt)]
  split_ifs <;> rfl

/-- A call that is served inside the message: what it gives and where it leaves the reader. -/
theorem readsFrom_serve_iff {reader source : RawReader} {message rest : Bytes} {pos size bufferSize : Nat}
    {bufferSizes : List Nat} (hcall : readRaw reader bufferSize = source.serve message pos bufferSize)
    (hsize : min message.length bufferSize = size) (hle : pos + size ≤ message.length) :
    ReadsFrom reader (message.drop pos ++ rest) (bufferSize :: bufferSizes) ↔
      ReadsFrom { source with buffered := if pos + size = message.length then none else some (message, size) }
        (message.drop (pos + size) ++ rest) bufferSizes := by
  subst hsize
  have hserve := hcall.trans (serve_of_fits hle)
  have hreturned : rawReturned reader bufferSize =
      (message.drop pos).take (min message.length bufferSize) := by
    rw [rawReturned, hserve]
  have hstep : rawStep reader bufferSize = { source with
      buffered := if pos + min message.length bufferSize = message.length then none
        else some (message, min message.length bufferSize) } := congrArg Prod.snd hserve
  have hsplit : message.drop pos ++ rest =
      (message.drop pos).take (min message.length bufferSize) ++
        (message.drop (pos + min message.length bufferSize) ++ rest) := by
    rw [← List.append_assoc, ← List.drop_drop, List.take_append_drop]
  have hinside : (rawStep reader bufferSize).Inside := by
    rw [hstep]
    intro buffered position hbuffered
    dsimp only at hbuffered
    split_ifs at hbuffered
    cases hbuffered
    exact Nat.min_le_left _ _
  rw [hsplit, readsFrom_cons_iff hreturned (by rw [hserve]; simp) hinside, hstep]

/-! ### The calls on one message -/

variable {message rest : Bytes} {incoming : List (Option Bytes)} {bufferSize next : Nat}
  {bufferSizes : List Nat}

theorem readsFrom_whole_iff (hle : message.length ≤ bufferSize) :
    ReadsFrom (.start (some message :: incoming)) (message ++ rest) (bufferSize :: bufferSizes) ↔
      ReadsFrom (.start incoming) rest bufferSizes := by
  have hcall : readRaw (.start (some message :: incoming)) bufferSize =
      (RawReader.start incoming).serve message 0 bufferSize := rfl
  have hserve : ReadsFrom _ (message.drop 0 ++ rest) (bufferSize :: bufferSizes) ↔ _ :=
    readsFrom_serve_iff hcall (Nat.min_eq_left hle) (Nat.le_of_eq (Nat.zero_add _))
  rw [if_pos (Nat.zero_add _), Nat.zero_add, List.drop_length, List.drop_zero, List.nil_append] at hserve
  exact hserve

/-- The first of several calls on a message. -/
theorem readsFrom_first_iff (hless : bufferSize < message.length) :
    ReadsFrom (.start (some message :: incoming)) (message ++ rest) (bufferSize :: bufferSizes) ↔
      ReadsFrom ⟨incoming, some (message, bufferSize)⟩ (message.drop bufferSize ++ rest) bufferSizes := by
  have hcall : readRaw (.start (some message :: incoming)) bufferSize =
      (RawReader.start incoming).serve message 0 bufferSize := rfl
  have hserve : ReadsFrom _ (message.drop 0 ++ rest) (bufferSize :: bufferSizes) ↔ _ :=
    readsFrom_serve_iff hcall (Nat.min_eq_right hless.le) (by omega)
  rw [if_neg (by omega), Nat.zero_add, List.drop_zero] at hserve
  exact hserve

/-- The second call, if it takes what is left. -/
theorem readsFrom_second_iff (hsum : bufferSize + next = message.length) :
    ReadsFrom ⟨incoming, some (message, bufferSize)⟩ (message.drop bufferSize ++ rest)
        (next :: bufferSizes) ↔ ReadsFrom (.start incoming) rest bufferSizes := by
  have hcall : readRaw ⟨incoming, some (message, bufferSize)⟩ next =
      RawReader.serve ⟨incoming, some (message, bufferSize)⟩ message bufferSize next := rfl
  have hserve : ReadsFrom _ (message.drop bufferSize ++ rest) (next :: bufferSizes) ↔ _ :=
    readsFrom_serve_iff hcall (Nat.min_eq_right (by omega)) (by omega)
  rw [if_pos hsum, hsum, List.drop_length, List.nil_append] at hserve
  exact hserve

/-- The second call, if it takes less. The position is then what it has taken. -/
theorem readsFrom_short_iff (hsum : bufferSize + next < message.length) :
    ReadsFrom ⟨incoming, some (message, bufferSize)⟩ (message.drop bufferSize ++ rest)
        (next :: bufferSizes) ↔
      ReadsFrom ⟨incoming, some (message, next)⟩ (message.drop (bufferSize + next) ++ rest)
        bufferSizes := by
  have hcall : readRaw ⟨incoming, some (message, bufferSize)⟩ next =
      RawReader.serve ⟨incoming, some (message, bufferSize)⟩ message bufferSize next := rfl
  have hserve : ReadsFrom _ (message.drop bufferSize ++ rest) (next :: bufferSizes) ↔ _ :=
    readsFrom_serve_iff hcall (Nat.min_eq_right (by omega)) (by omega)
  rw [if_neg (by omega)] at hserve
  exact hserve

/-- The second call, if it asks for more than what is left. -/
theorem not_readsFrom_overrun (hpos : 0 < bufferSize) (hsum : message.length < bufferSize + next)
    {expected : Bytes} :
    ¬ReadsFrom ⟨incoming, some (message, bufferSize)⟩ expected (next :: bufferSizes) := by
  rintro ⟨-, ⟨hinside, -⟩, -⟩
  exact hinside (serve_of_overrun (by omega))

theorem readsFrom_nil (reader : RawReader) (expected : Bytes) : ReadsFrom reader expected [] :=
  ⟨List.nil_prefix, trivial⟩

theorem readsFrom_failed_iff (expected : Bytes) :
    ReadsFrom (.start (none :: incoming)) expected (bufferSize :: bufferSizes) ↔
      ReadsFrom (.start incoming) expected bufferSizes := by
  have hfailed : (readRaw (.start (none :: incoming)) bufferSize).1 ≠ .overrun := fun heq => nomatch heq
  have hcons : ReadsFrom (.start (none :: incoming)) ([] ++ expected) (bufferSize :: bufferSizes) ↔ _ :=
    readsFrom_cons_iff rfl hfailed (RawReader.inside_start incoming)
  exact hcons

/-- Without a message every call fails. -/
theorem readsFrom_start_nil (expected : Bytes) (bufferSizes : List Nat) :
    ReadsFrom (.start []) expected bufferSizes := by
  induction bufferSizes with
  | nil => exact readsFrom_nil _ _
  | cons bufferSize bufferSizes ih =>
      have hfailed : (readRaw (.start []) bufferSize).1 ≠ .overrun := fun heq => nomatch heq
      have hcons : ReadsFrom (.start []) ([] ++ expected) (bufferSize :: bufferSizes) ↔ _ :=
        readsFrom_cons_iff rfl hfailed (RawReader.inside_start [])
      exact hcons.mpr ih

/-- A message in which the byte that is due after two calls is the first that is not zero. -/
def markedMessage (taken left : Nat) : Bytes := List.replicate taken 0 ++ List.replicate left 1

theorem length_markedMessage (taken left : Nat) : (markedMessage taken left).length = taken + left := by
  rw [markedMessage, List.length_append, List.length_replicate, List.length_replicate]

/-- The third call on a message begins at the size of the second one, where there is a zero. -/
theorem not_readsFrom_third {left third : Nat} (hpos : 0 < bufferSize) (hleft : 0 < left)
    (hthird : 0 < third) :
    ¬ReadsFrom ⟨incoming, some (markedMessage (bufferSize + next) left, next)⟩
      ((markedMessage (bufferSize + next) left).drop (bufferSize + next) ++ rest)
      (third :: bufferSizes) := by
  intro hreads
  have hlength := length_markedMessage (bufferSize + next) left
  have hdue : (markedMessage (bufferSize + next) left).drop (bufferSize + next) =
      List.replicate left 1 := by
    rw [markedMessage, List.drop_left' List.length_replicate]
  have hthere : (markedMessage (bufferSize + next) left).drop next =
      List.replicate bufferSize 0 ++ List.replicate left 1 := by
    rw [markedMessage, List.drop_append_of_le_length (by simp), List.drop_replicate,
      Nat.add_sub_cancel]
  by_cases hover : (markedMessage (bufferSize + next) left).length <
      next + min (markedMessage (bufferSize + next) left).length third
  · exact hreads.inside.1.1 (serve_of_overrun hover)
  · have hserve : rawReturned ⟨incoming, some (markedMessage (bufferSize + next) left, next)⟩ third =
        ((markedMessage (bufferSize + next) left).drop next).take
          (min (markedMessage (bufferSize + next) left).length third) := by
      rw [rawReturned, readRaw]
      dsimp only
      rw [serve_of_fits (Nat.not_lt.mp hover)]
    have hout := hreads.returned
    rw [outputs, hserve, hthere, hdue] at hout
    obtain ⟨zeros, rfl⟩ := Nat.exists_eq_add_of_lt hpos
    obtain ⟨ones, rfl⟩ := Nat.exists_eq_add_of_lt hleft
    obtain ⟨size, hsize⟩ : ∃ size,
        min (markedMessage (0 + zeros + 1 + next) (0 + ones + 1)).length third = size + 1 :=
      ⟨min (markedMessage (0 + zeros + 1 + next) (0 + ones + 1)).length third - 1, by omega⟩
    rw [hsize, List.replicate_succ, List.replicate_succ, List.cons_append, List.take_succ_cons,
      List.cons_append, List.cons_append, List.cons_prefix_cons] at hout
    exact absurd hout.1 (by decide)

/-! ### All messages of given sizes -/

/-- What is in the messages does not matter as long as they have these sizes. -/
def OfSizes (messageSizes : List (Option Nat)) (P : List (Option Bytes) → Prop) : Prop :=
  ∀ messages, messages.map (Option.map List.length) = messageSizes → P messages

theorem ofSizes_none_iff {messageSizes : List (Option Nat)} {P : List (Option Bytes) → Prop} :
    OfSizes (none :: messageSizes) P ↔ OfSizes messageSizes fun incoming => P (none :: incoming) := by
  constructor
  · intro hall incoming hincoming
    exact hall (none :: incoming) (by rw [List.map_cons, hincoming]; rfl)
  · intro hall messages hmessages
    obtain ⟨message, incoming, rfl, hmessage, hincoming⟩ := List.map_eq_cons_iff.mp hmessages
    obtain rfl := Option.map_eq_none_iff.mp hmessage
    exact hall incoming hincoming

theorem ofSizes_some_iff {messageSize : Nat} {messageSizes : List (Option Nat)}
    {P : List (Option Bytes) → Prop} :
    OfSizes (some messageSize :: messageSizes) P ↔
      ∀ message : Bytes, message.length = messageSize →
        OfSizes messageSizes fun incoming => P (some message :: incoming) := by
  constructor
  · intro hall message hmessage incoming hincoming
    exact hall (some message :: incoming) (by rw [List.map_cons, hincoming, Option.map_some, hmessage])
  · intro hall messages hmessages
    obtain ⟨message, incoming, rfl, hmessage, hincoming⟩ := List.map_eq_cons_iff.mp hmessages
    obtain ⟨message, rfl, hmessage⟩ := Option.map_eq_some_iff.mp hmessage
    exact hall message (Option.some.inj hmessage) incoming hincoming

theorem exists_ofSizes (messageSizes : List (Option Nat)) :
    ∃ messages : List (Option Bytes), messages.map (Option.map List.length) = messageSizes := by
  refine ⟨messageSizes.map (Option.map fun size => List.replicate size 0), ?_⟩
  rw [List.map_map]
  refine (List.map_congr_left fun size _ => ?_).trans (List.map_id messageSizes)
  cases size with
  | none => rfl
  | some size => simp

/-- A message of which only the size matters. -/
theorem ofSizes_some_congr {messageSize : Nat} {messageSizes : List (Option Nat)}
    {P Q : List (Option Bytes) → Prop}
    (hsame : ∀ message : Bytes, message.length = messageSize →
      ∀ incoming, P (some message :: incoming) ↔ Q incoming) :
    OfSizes (some messageSize :: messageSizes) P ↔ OfSizes messageSizes Q := by
  rw [ofSizes_some_iff]
  constructor
  · intro hall incoming hincoming
    have hlength : (List.replicate messageSize (0 : UInt8)).length = messageSize :=
      List.length_replicate
    exact (hsame _ hlength incoming).mp (hall _ hlength incoming hincoming)
  · intro hall message hmessage incoming hincoming
    exact (hsame message hmessage incoming).mpr (hall incoming hincoming)

theorem readsInOrder_some (message : Bytes) (incoming : List (Option Bytes)) (bufferSizes : List Nat) :
    ReadsInOrder (some message :: incoming) bufferSizes ↔
      ReadsFrom (.start (some message :: incoming)) (message ++ incoming.reduceOption.flatten)
        bufferSizes := by
  rw [ReadsInOrder, List.reduceOption_cons_of_some, List.flatten_cons]

/-- **Raw reads.** Whatever is in the messages, calls with these buffer sizes hand them out in order and
read nothing behind their ends, if and only if the sizes fit. -/
theorem readsInOrder_iff_sizesFit (messageSizes : List (Option Nat)) {bufferSizes : List Nat}
    (hpositive : ∀ bufferSize ∈ bufferSizes, 0 < bufferSize) :
    (∀ messages : List (Option Bytes), messages.map (Option.map List.length) = messageSizes →
        ReadsInOrder messages bufferSizes) ↔ SizesFit messageSizes bufferSizes := by
  change (OfSizes messageSizes fun messages => ReadsInOrder messages bufferSizes) ↔ _
  induction messageSizes, bufferSizes using SizesFit.induct with
  | case1 messageSizes =>
      rw [SizesFit]
      exact iff_of_true (fun messages _ => readsFrom_nil _ _) trivial
  | case2 bufferSize bufferSizes =>
      rw [SizesFit]
      refine iff_of_true (fun messages hmessages => ?_) trivial
      obtain rfl := List.map_eq_nil_iff.mp hmessages
      exact readsFrom_start_nil _ _
  | case3 messageSizes bufferSize bufferSizes ih =>
      rw [SizesFit, ofSizes_none_iff, ← ih (List.forall_mem_cons.mp hpositive).2]
      refine forall₂_congr fun incoming _ => ?_
      exact readsFrom_failed_iff _
  | case4 messageSize messageSizes bufferSize =>
      rw [SizesFit, ofSizes_some_iff]
      refine iff_of_true (fun message _ incoming _ => ?_) trivial
      change ReadsInOrder (some message :: incoming) [bufferSize]
      rw [readsInOrder_some]
      by_cases hle : message.length ≤ bufferSize
      · exact (readsFrom_whole_iff hle).mpr (readsFrom_nil _ _)
      · exact (readsFrom_first_iff (Nat.not_le.mp hle)).mpr (readsFrom_nil _ _)
  | case5 messageSize messageSizes bufferSize next bufferSizes hle ih =>
      rw [SizesFit, if_pos hle, ← ih (List.forall_mem_cons.mp hpositive).2]
      refine ofSizes_some_congr fun message hmessage incoming => ?_
      rw [readsInOrder_some]
      exact readsFrom_whole_iff (by rwa [hmessage])
  | case6 messageSizes bufferSize next bufferSizes hless ih =>
      have hlater := (List.forall_mem_cons.mp (List.forall_mem_cons.mp hpositive).2).2
      rw [SizesFit, if_neg hless, if_pos rfl, ← ih hlater]
      refine ofSizes_some_congr fun message hmessage incoming => ?_
      rw [readsInOrder_some, readsFrom_first_iff (by omega)]
      exact readsFrom_second_iff hmessage.symm
  | case7 messageSize messageSizes bufferSize next bufferSizes hless hsum =>
      obtain ⟨hbuffer, hrest⟩ := List.forall_mem_cons.mp hpositive
      rw [SizesFit, if_neg hless, if_neg hsum, ofSizes_some_iff]
      constructor
      · intro hall
        obtain ⟨incoming, hincoming⟩ := exists_ofSizes messageSizes
        have hless' : bufferSize + next < messageSize := by
          by_contra hover
          have hlength : (List.replicate messageSize (0 : UInt8)).length = messageSize :=
            List.length_replicate
          have hreads : ReadsInOrder (some (List.replicate messageSize 0) :: incoming) _ :=
            hall _ hlength incoming hincoming
          rw [readsInOrder_some, readsFrom_first_iff (by omega)] at hreads
          exact not_readsFrom_overrun hbuffer (by omega) hreads
        refine ⟨hless', ?_⟩
        by_contra hmore
        obtain ⟨third, later, rfl⟩ := List.exists_cons_of_ne_nil hmore
        have hthird := (List.forall_mem_cons.mp (List.forall_mem_cons.mp hrest).2).1
        obtain ⟨left, hleft, rfl⟩ : ∃ left, 0 < left ∧ bufferSize + next + left = messageSize :=
          ⟨messageSize - (bufferSize + next), by omega, by omega⟩
        have hlength : (markedMessage (bufferSize + next) left).length = bufferSize + next + left :=
          length_markedMessage _ _
        have hreads : ReadsInOrder (some (markedMessage (bufferSize + next) left) :: incoming) _ :=
          hall _ hlength incoming hincoming
        rw [readsInOrder_some, readsFrom_first_iff (by omega), readsFrom_short_iff (by omega)] at hreads
        exact not_readsFrom_third hbuffer hleft hthird hreads
      · rintro ⟨hless', rfl⟩ message hmessage incoming -
        rw [readsInOrder_some, readsFrom_first_iff (by omega), readsFrom_short_iff (by omega)]
        exact readsFrom_nil _ _

/-- Two reads that take a message of three bytes between them. -/
theorem readsInOrder_iff_sizesFit_two : ReadsInOrder [some [1, 2, 3]] [1, 2] :=
  (readsInOrder_iff_sizesFit [some 3] (by decide)).mpr (by simp [SizesFit]) [some [1, 2, 3]] rfl

/-- A message of three bytes that is read byte by byte: the second byte comes again. -/
theorem not_readsInOrder_byByte :
    ¬∀ messages : List (Option Bytes), ∀ bufferSizes : List Nat,
      (∀ message ∈ messages.reduceOption, 0 < message.length) →
        (∀ bufferSize ∈ bufferSizes, 0 < bufferSize) → ReadsInOrder messages bufferSizes := by
  intro hall
  have hreads := hall [some [1, 2, 3]] [1, 1, 1] (by decide) (by decide)
  exact absurd hreads.returned (by decide)

end CLibp2p.Secio
