import CLibp2p.Net.CanHandle

/-!
# The TLS handshake of v2

The functions of `v2/src/conn/tls.c` that read what a peer has sent: the choice among the protocols that a
client offers, and the key and signature in the extension of a certificate.
-/

namespace CLibp2p.Tls

open Duplex CanHandle

/-! ### The list of protocols -/

def tlsAlpn : Bytes := "libp2p".toUTF8.toList

/-- What the callback comes to: the offsets from `in` that it may have read, and `*out`, again as an
offset, with `*outlen`. A list that is not acknowledged selects nothing. -/
structure AlpnSelect where
  reads : List Nat
  selected : Option (Nat × UInt8)
deriving Repr, DecidableEq

theorem past_iff {remaining : UInt32} (hpos : remaining ≠ 0) (protoLen : UInt8) :
    remaining - 1 < protoLen.toUInt32 ↔ remaining.toNat ≤ protoLen.toNat := by
  have hnat : remaining.toNat ≠ 0 := fun hzero => hpos (UInt32.toNat_inj.mp hzero)
  have hbound := remaining.toNat_lt
  rw [UInt32.lt_iff_toNat_lt, UInt32.toNat_sub, UInt8.toNat_toUInt32, UInt32.toNat_one]
  omega

/-- The difference does not wrap around where the loop goes on. -/
theorem toNat_remaining {remaining : UInt32} {protoLen : UInt8} (hfits : protoLen.toNat < remaining.toNat) :
    (remaining - (1 + protoLen.toUInt32)).toNat = remaining.toNat - 1 - protoLen.toNat := by
  have hbyte := protoLen.toNat_lt
  have hbound := remaining.toNat_lt
  rw [UInt32.toNat_sub, UInt32.toNat_add, UInt8.toNat_toUInt32, UInt32.toNat_one]
  omega

/-- The loop. The logger prints the candidate, at most all of its bytes. -/
def alpnLoop (list : Memory) (p : Nat) (remaining : UInt32) : AlpnSelect :=
  if _hpos : remaining = 0 then ⟨[], none⟩
  else
    let protoLen := list p
    if _hpast : remaining - 1 < protoLen.toUInt32 then ⟨[p], none⟩
    else
      let candidate := (List.range protoLen.toNat).map (p + 1 + ·)
      if protoLen.toNat = tlsAlpn.length ∧ candidate.map list = tlsAlpn then
        ⟨p :: candidate, some (p + 1, protoLen)⟩
      else
        let rest := alpnLoop list (p + 1 + protoLen.toNat) (remaining - (1 + protoLen.toUInt32))
        ⟨p :: candidate ++ rest.reads, rest.selected⟩
termination_by remaining.toNat
decreasing_by
  have hfits := Nat.not_le.mp ((past_iff _hpos (list p)).not.mp _hpast)
  rw [toNat_remaining hfits]
  omega

/-- `tls_alpn_select_cb`. -/
def alpnSelectCb (list : Memory) (inlen : UInt32) : AlpnSelect := alpnLoop list 0 inlen

/-! ### The signed key -/

inductive Asn1Tag where
  | sequence
  | octetString
deriving Repr, DecidableEq

/-- `CBB` and `CBS`, which are not part of the repository: the bytes of an element that a `CBB` adds, and
the contents of the element that a `CBS` gets, with what is behind it. -/
structure Bytestring where
  addAsn1 : (tag : Asn1Tag) → (contents : Bytes) → Option Bytes
  getAsn1 : (tag : Asn1Tag) → (input : Bytes) → Option (Bytes × Bytes)

/-- `tls_build_signed_key`. -/
def buildSignedKey (lib : Bytestring) (pubkey sig : Bytes) : Option Bytes := do
  let key ← lib.addAsn1 .octetString pubkey
  let signature ← lib.addAsn1 .octetString sig
  lib.addAsn1 .sequence (key ++ signature)

/-- `tls_parse_signed_key`. It does not look at what is left of `cbs`. -/
def parseSignedKey (lib : Bytestring) (ext : Bytes) : Option (Bytes × Bytes) := do
  let (seq, _) ← lib.getAsn1 .sequence ext
  let (pubkey, seq) ← lib.getAsn1 .octetString seq
  let (sig, seq) ← lib.getAsn1 .octetString seq
  if seq.length ≠ 0 then none else pure (pubkey, sig)

end CLibp2p.Tls
