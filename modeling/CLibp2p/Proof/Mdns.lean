import CLibp2p.Net.Mdns

/-!
# What a service hears

A packet is cut at its newlines, and never behind the NUL that the receiver puts at its end.
-/

namespace CLibp2p.Mdns

open Duplex

/-- A string of at least one byte that has no newline. -/
abbrev Line (size : Nat) :=
  { text : Bytes // 0 < text.length ∧ text.length ≤ size ∧ 0 ∉ text ∧ newline ∉ text }

def Line.toCString {size : Nat} (line : Line size) : CString := ⟨line.val, line.property.2.2.1⟩

/-! ### Strings in memory -/

theorem cString_append {front : Bytes} (hfront : 0 ∉ front) (rest : Bytes) :
    cString (front ++ rest) = front ++ cString rest := by
  apply List.takeWhile_append_of_pos
  intro byte hbyte
  exact decide_eq_true fun hzero => hfront (hzero ▸ hbyte)

theorem cString_of_zero_not_mem {text : Bytes} (htext : 0 ∉ text) : cString text = text :=
  cString_eq_self_iff.mpr htext

theorem cString_append_nul (data behind : Bytes) : cString (data ++ 0 :: behind) = cString data := by
  induction data with
  | nil => rfl
  | cons byte data ih =>
      by_cases hbyte : byte = 0
      · rw [hbyte]
        rfl
      · have hfront : 0 ∉ [byte] := by
          rw [List.mem_singleton]
          exact Ne.symm hbyte
        calc cString (byte :: data ++ 0 :: behind) = [byte] ++ cString (data ++ 0 :: behind) :=
              cString_append hfront _
          _ = [byte] ++ cString data := by rw [ih]
          _ = cString (byte :: data) := (cString_append hfront data).symm

theorem cString_isPrefix (memory : Bytes) : cString memory <+: memory := List.takeWhile_prefix _

theorem stringAt_append_nul {text : Bytes} (htext : 0 ∉ text) (behind : Bytes) :
    stringAt (text ++ 0 :: behind) = ⟨text, htext⟩ := by
  apply Subtype.ext
  show cString (text ++ 0 :: behind) = text
  rw [cString_append_nul, cString_of_zero_not_mem htext]

/-- A character is found behind a part of the string that does not have it. -/
theorem strchr_eq_some_iff {memory : Bytes} {c : UInt8} (hc : c ≠ 0) {n : Nat} :
    strchr memory c = some n ↔
      ∃ front rest, memory = front ++ c :: rest ∧ front.length = n ∧ 0 ∉ front ∧ c ∉ front := by
  constructor
  · intro hfound
    rw [strchr, List.findIdx?_eq_some_iff_getElem] at hfound
    obtain ⟨hn, hat, hbefore⟩ := hfound
    rw [decide_eq_true_iff] at hat
    refine ⟨(cString memory).take n, (cString memory).drop (n + 1) ++ memory.drop (cString memory).length,
      ?_, List.length_take_of_le (Nat.le_of_lt hn), ?_, ?_⟩
    · calc memory = cString memory ++ memory.drop (cString memory).length :=
            (List.prefix_iff_eq_append.mp (cString_isPrefix memory)).symm
        _ = (cString memory).take n ++ (cString memory).drop n ++ memory.drop (cString memory).length := by
            rw [List.take_append_drop]
        _ = _ := by
            rw [← List.getElem_cons_drop hn, hat, List.append_assoc, List.cons_append]
    · intro hzero
      exact zero_not_mem_cString memory (List.mem_of_mem_take hzero)
    · intro hmem
      obtain ⟨i, hi, hget⟩ := List.mem_iff_getElem.mp hmem
      rw [List.length_take] at hi
      rw [List.getElem_take] at hget
      exact hbefore i (by omega) (decide_eq_true hget)
  · rintro ⟨front, rest, rfl, rfl, hnul, hfront⟩
    have hc' : 0 ∉ [c] := by
      rw [List.mem_singleton]
      exact Ne.symm hc
    have hstring : cString (front ++ c :: rest) = front ++ c :: cString rest := by
      rw [cString_append hnul, ← List.singleton_append, cString_append hc', List.singleton_append]
    rw [strchr, hstring, List.findIdx?_eq_some_iff_getElem]
    refine ⟨by simp, ?_, ?_⟩
    · rw [List.getElem_append_right (Nat.le_refl _)]
      simp
    · intro i hi hat
      rw [decide_eq_true_iff, List.getElem_append_left hi] at hat
      exact hfront (hat ▸ List.getElem_mem hi)

/-! ### What a packet announces -/

theorem strchr_getD_le (memory : Bytes) (c : UInt8) (maxlen : Nat) :
    (strchr memory c).getD (strnlen memory maxlen) ≤ (cString memory).length := by
  cases hfound : strchr memory c with
  | none =>
      rw [Option.getD_none, strnlen, cString, cString, ← List.take_takeWhile, List.length_take]
      exact Nat.min_le_right _ _
  | some n =>
      rw [strchr, List.findIdx?_eq_some_iff_getElem] at hfound
      exact Nat.le_of_lt hfound.1

theorem stringAt_take {memory : Bytes} {n : Nat} (hn : n ≤ (cString memory).length) :
    (stringAt (memory.take n ++ [0])).val = (cString memory).take n := by
  have hsame : memory.take n = (cString memory).take n := by
    obtain ⟨rest, hrest⟩ := cString_isPrefix memory
    have htake : (cString memory ++ rest).take n = (cString memory).take n :=
      List.take_append_of_le_length hn
    rwa [hrest] at htake
  have hnul : 0 ∉ memory.take n := by
    rw [hsame]
    exact fun hzero => zero_not_mem_cString memory (List.mem_of_mem_take hzero)
  rw [stringAt_append_nul hnul]
  exact hsame

theorem handlePacket_of_line (service : MdnsService) {id : Bytes} (hnul : 0 ∉ id) (hline : newline ∉ id)
    (multiaddr : Bytes) {len : Nat} (hlen : mdnsPrefix.length < len) :
    handlePacket service (mdnsPrefix ++ (id ++ newline :: multiaddr)) len =
      if id.length = 0 ∨ 128 ≤ id.length then []
      else if id = service.peerId.val then []
      else
        let addrLen := (strchr multiaddr newline).getD (strnlen multiaddr 255)
        if addrLen = 0 then []
        else [(⟨id, hnul⟩, stringAt (multiaddr.take (min addrLen 255) ++ [0]))] := by
  have hfound : strchr (id ++ newline :: multiaddr) newline = some id.length :=
    (strchr_eq_some_iff (by decide)).mpr ⟨id, multiaddr, rfl, rfl, hnul, hline⟩
  have hbehind : (id ++ newline :: multiaddr).drop (id.length + 1) = multiaddr := by
    rw [← List.drop_drop, List.drop_left, List.drop_one, List.tail_cons]
  have hhandled : ¬((len : Int) ≤ mdnsPrefix.length ∨ mdnsPrefix ≠ mdnsPrefix) := by
    rw [not_or, not_not]
    exact ⟨by omega, rfl⟩
  rw [handlePacket, if_neg (by omega), List.take_left, if_neg hhandled, List.drop_left]
  dsimp only
  rw [hfound]
  dsimp only
  rw [List.take_left, hbehind, stringAt_append_nul hnul]
  generalize (strchr multiaddr newline).getD (strnlen multiaddr 255) = addrLen
  have hcut : (if 256 ≤ addrLen then 255 else addrLen) = min addrLen 255 := by
    split <;> omega
  rw [hcut]

/-- Other packets are not handled. -/
theorem exists_line_of_mem {service : MdnsService} {packet : Bytes} {len : Nat} {call : CString × CString}
    (hcall : call ∈ handlePacket service packet len) :
    mdnsPrefix.length < len ∧ ∃ id multiaddr, packet = mdnsPrefix ++ (id ++ newline :: multiaddr) ∧
      0 ∉ id ∧ newline ∉ id := by
  rw [handlePacket] at hcall
  split at hcall
  · cases hcall
  · split at hcall
    · cases hcall
    · rename_i hstart
      rw [not_or, not_not] at hstart
      refine ⟨by omega, ?_⟩
      dsimp only at hcall
      split at hcall
      · cases hcall
      · rename_i peerLen hfound
        obtain ⟨id, multiaddr, hpeer, -, hnul, hline⟩ := (strchr_eq_some_iff (by decide)).mp hfound
        refine ⟨id, multiaddr, ?_, hnul, hline⟩
        rw [← hpeer]
        conv_lhs => rw [← List.take_append_drop mdnsPrefix.length packet, hstart.2]

/-- The packet announces the id and the address: they stand in it behind the prefix, in two lines. -/
def Announces (packet : Bytes) (call : CString × CString) : Prop :=
  (0 < call.1.val.length ∧ call.1.val.length ≤ 127) ∧
    (0 < call.2.val.length ∧ call.2.val.length ≤ 255) ∧
    mdnsPrefix ++ call.1.val ++ [newline] ++ call.2.val <+: packet

theorem cString_of_announcement {received behind id multiaddr : Bytes}
    (hpacket : received ++ 0 :: behind = mdnsPrefix ++ (id ++ newline :: multiaddr)) (hnul : 0 ∉ id) :
    cString received = mdnsPrefix ++ (id ++ newline :: cString multiaddr) := by
  have hprefix : 0 ∉ mdnsPrefix := by decide +kernel
  have hnewline : 0 ∉ [newline] := by decide
  rw [← cString_append_nul received behind, hpacket, cString_append hprefix, cString_append hnul,
    ← List.singleton_append, cString_append hnewline, List.singleton_append]

theorem announces_of_mem {service : MdnsService} {received behind : Bytes} {len : Nat}
    {call : CString × CString} (hcall : call ∈ handlePacket service (received ++ 0 :: behind) len) :
    Announces received call := by
  obtain ⟨hlen, id, multiaddr, hpacket, hnul, hline⟩ := exists_line_of_mem hcall
  rw [hpacket, handlePacket_of_line service hnul hline multiaddr hlen] at hcall
  split at hcall
  · cases hcall
  · rename_i hid
    split at hcall
    · cases hcall
    · have hle := strchr_getD_le multiaddr newline 255
      dsimp only at hcall
      generalize (strchr multiaddr newline).getD (strnlen multiaddr 255) = addrLen at hcall hle
      split at hcall
      · cases hcall
      · have hcut : min addrLen 255 ≤ (cString multiaddr).length := by omega
        have haddress := stringAt_take hcut
        rw [List.mem_singleton] at hcall
        subst hcall
        refine ⟨⟨by dsimp only; omega, by dsimp only; omega⟩, ?_, ?_⟩
        · dsimp only
          rw [haddress, List.length_take]
          omega
        · dsimp only
          rw [haddress]
          refine List.IsPrefix.trans ?_ (cString_isPrefix received)
          rw [cString_of_announcement hpacket hnul, List.append_assoc, List.append_assoc,
            List.prefix_append_right_inj, List.prefix_append_right_inj, List.singleton_append,
            List.prefix_cons_inj]
          exact List.take_prefix _ _

theorem handlePacket_announced (id : Line 127) (address : Line 255) (receiver : MdnsService)
    (behind : Bytes) {len : Nat} (hlen : mdnsPrefix.length < len) :
    handlePacket receiver
        (mdnsPrefix ++ (id.val ++ newline :: (address.val ++ newline :: behind))) len =
      if receiver.peerId.val = id.val then [] else [(id.toCString, address.toCString)] := by
  obtain ⟨id, hidPos, hidLen, hidNul, hidLine⟩ := id
  obtain ⟨address, hpos, hlength, hnul, hline⟩ := address
  have hfound : strchr (address ++ newline :: behind) newline = some address.length :=
    (strchr_eq_some_iff (by decide)).mpr ⟨address, behind, rfl, rfl, hnul, hline⟩
  have hsome : ¬address.length = 0 := by omega
  rw [handlePacket_of_line receiver hidNul hidLine _ hlen, if_neg (by omega), hfound]
  refine if_congr eq_comm rfl ?_
  dsimp only
  rw [Option.getD_some, if_neg hsome, Nat.min_eq_left hlength, List.take_left, stringAt_append_nul hnul]
  rfl

theorem snprintfString_eq {size bound : Nat} (hsize : 0 < size) (line : Line bound) (hfits : bound < size) :
    (snprintfString size hsize line.toCString).val = line.val :=
  List.take_of_length_le (Nat.le_sub_one_of_lt (Nat.lt_of_le_of_lt line.property.2.1 hfits))

/-- The packet of a service. -/
def announcement (service : MdnsService) : Bytes :=
  mdnsPrefix ++ (service.peerId.val ++ newline :: (service.multiaddr.val ++ [newline]))

theorem length_announcement (service : MdnsService) :
    mdnsPrefix.length < (announcement service).length ∧ (announcement service).length < mdnsMaxPacketSize := by
  have hprefix : mdnsPrefix.length = 10 := by decide +kernel
  have hid := service.peerId.property.2
  have hmultiaddr := service.multiaddr.property.2
  rw [announcement, mdnsMaxPacketSize]
  simp only [List.length_append, List.length_cons, List.length_nil]
  omega

/-- No packet is cut. -/
theorem buildPacket_eq (service : MdnsService) :
    buildPacket service mdnsMaxPacketSize = (announcement service ++ [0], (announcement service).length) := by
  have hsame : mdnsPrefix ++ service.peerId.val ++ [newline] ++ service.multiaddr.val ++ [newline] =
      announcement service := by
    rw [announcement]
    simp only [List.append_assoc, List.cons_append, List.nil_append]
  have hfits := (length_announcement service).2
  rw [buildPacket, if_neg (by decide), hsame]
  dsimp only
  rw [List.take_of_length_le (by omega)]

theorem handlePacket_announcement {sender : MdnsService} {id : Line 127} {address : Line 255}
    (hid : sender.peerId.val = id.val) (haddress : sender.multiaddr.val = address.val)
    (receiver : MdnsService) (behind : Bytes) :
    handlePacket receiver (announcement sender ++ behind) (announcement sender).length =
      if receiver.peerId.val = id.val then [] else [(id.toCString, address.toCString)] := by
  have hlength := (length_announcement sender).1
  have hpacket : announcement sender ++ behind =
      mdnsPrefix ++ (id.val ++ newline :: (address.val ++ newline :: behind)) := by
    rw [announcement, hid, haddress]
    simp only [List.append_assoc, List.cons_append, List.nil_append]
  rw [hpacket]
  exact handlePacket_announced id address receiver behind hlength

/-- What a running service sends, a running service that polls hears. -/
theorem poll_sendAnnouncement {sender : MdnsService} {id : Line 127} {address : Line 255}
    (hid : sender.peerId.val = id.val) (haddress : sender.multiaddr.val = address.val)
    (hsender : ¬(sender.sockfd < 0 ∨ sender.running = false)) (receiver : MdnsService)
    (uninitialized : Bytes) :
    ∃ packet, sendAnnouncement sender = some packet ∧
      poll receiver (some packet) uninitialized =
        if receiver.sockfd < 0 ∨ receiver.running = false then (-1, [])
        else (1, if receiver.peerId.val = id.val then [] else [(id.toCString, address.toCString)]) := by
  obtain ⟨hpos, hfits⟩ := length_announcement sender
  have hsome : ¬(announcement sender).length = 0 := by omega
  refine ⟨announcement sender, ?_, ?_⟩
  · rw [sendAnnouncement, if_neg hsender, buildPacket_eq]
    dsimp only
    rw [if_neg hsome, List.take_left]
  · rw [poll]
    refine if_congr Iff.rfl rfl ?_
    dsimp only
    rw [List.take_of_length_le (by omega), if_neg hsome,
      handlePacket_announcement hid haddress receiver]

/-- **What a service announces is heard, and what is heard was announced.** A receiver takes from the packet
of a sender its id and its address, unless the id is its own, and so does one that polls while both run. From
any packet it takes an id and an address that stand in it one behind the other, neither empty nor too long. -/
theorem handlePacket_spec :
    (∀ (id : Line 127) (address : Line 255), ∃ sender,
      mdnsServiceNew (some id.toCString) (some address.toCString) true = some sender ∧
        ∀ (receiver : MdnsService) (behind : Bytes),
          handlePacket receiver ((buildPacket sender mdnsMaxPacketSize).1 ++ behind)
              (buildPacket sender mdnsMaxPacketSize).2 =
            (if receiver.peerId.val = id.val then [] else [(id.toCString, address.toCString)]) ∧
          ∀ (sockfd : Nat) (uninitialized : Bytes),
            ∃ packet, sendAnnouncement { sender with sockfd := sockfd, running := true } = some packet ∧
              poll receiver (some packet) uninitialized =
                if receiver.sockfd < 0 ∨ receiver.running = false then (-1, [])
                else (1, if receiver.peerId.val = id.val then [] else [(id.toCString, address.toCString)])) ∧
      ∀ (receiver : MdnsService) (datagram uninitialized : Bytes),
        ∀ call ∈ (poll receiver (some datagram) uninitialized).2, Announces datagram call := by
  constructor
  · intro id address
    refine ⟨_, rfl, fun receiver behind => ⟨?_, fun sockfd uninitialized => ?_⟩⟩
    · rw [buildPacket_eq]
      dsimp only
      rw [List.append_assoc]
      exact handlePacket_announcement (snprintfString_eq (by decide) id (by decide))
        (snprintfString_eq (by decide) address (by decide)) receiver _
    · exact poll_sendAnnouncement (snprintfString_eq (by decide) id (by decide))
        (snprintfString_eq (by decide) address (by decide)) (by simp) receiver uninitialized
  · intro receiver datagram uninitialized call hcall
    rw [poll] at hcall
    split at hcall
    · cases hcall
    · dsimp only at hcall
      split at hcall
      · cases hcall
      · obtain ⟨hid, haddress, hplace⟩ := announces_of_mem hcall
        exact ⟨hid, haddress, hplace.trans (List.take_prefix _ _)⟩

end CLibp2p.Mdns
