import CLibp2p.Asn1.Der
import CLibp2p.Conn.Tls

/-!
# The encodings of a signed key

The parser checks that nothing is left in the sequence, and not that nothing is behind it.
-/

namespace CLibp2p.Tls

open Duplex

/-- The library implements DER: what a `CBS` gets is the element that a `CBB` adds. -/
def Bytestring.ImplementsDer (lib : Bytestring) : Prop :=
  ∀ tag input contents rest, lib.getAsn1 tag input = some (contents, rest) ↔
    ∃ element, lib.addAsn1 tag contents = some element ∧ input = element ++ rest

variable {lib : Bytestring}

theorem Bytestring.ImplementsDer.get_append (hder : lib.ImplementsDer) {tag : Asn1Tag}
    {contents element : Bytes} (hadd : lib.addAsn1 tag contents = some element) (rest : Bytes) :
    lib.getAsn1 tag (element ++ rest) = some (contents, rest) :=
  (hder tag _ contents rest).mpr ⟨element, hadd, rfl⟩

/-- The parser accepts the encoding of a signed key with anything behind it. -/
theorem parseSignedKey_eq_some_iff (hder : lib.ImplementsDer) {ext pubkey sig : Bytes} :
    parseSignedKey lib ext = some (pubkey, sig) ↔
      ∃ der rest, buildSignedKey lib pubkey sig = some der ∧ ext = der ++ rest := by
  constructor
  · intro hparse
    simp only [parseSignedKey, Option.bind_eq_bind, Option.bind_eq_some_iff, Prod.exists] at hparse
    obtain ⟨seq, rest, hseq, key, seq', hkey, signature, left, hsig, hend⟩ := hparse
    split at hend
    · cases hend
    · rename_i hnone
      cases hend
      obtain ⟨outer, houter, rfl⟩ := (hder _ _ _ _).mp hseq
      obtain ⟨first, hfirst, rfl⟩ := (hder _ _ _ _).mp hkey
      obtain ⟨second, hsecond, rfl⟩ := (hder _ _ _ _).mp hsig
      have hempty : left = [] := List.length_eq_zero_iff.mp (not_not.mp hnone)
      rw [hempty, List.append_nil] at houter
      refine ⟨outer, rest, ?_, rfl⟩
      rw [buildSignedKey, hfirst, hsecond]
      exact houter
  · rintro ⟨der, rest, hbuild, rfl⟩
    simp only [buildSignedKey, Option.bind_eq_bind, Option.bind_eq_some_iff] at hbuild
    obtain ⟨first, hfirst, second, hsecond, houter⟩ := hbuild
    have hseq := hder.get_append houter rest
    have hkey := hder.get_append hfirst second
    have hsig := hder.get_append hsecond []
    rw [List.append_nil] at hsig
    simp [parseSignedKey, hseq, hkey, hsig]

/-- What is accepted is the one encoding of what it gives. -/
def OneEncoding (lib : Bytestring) (ext : Bytes) : Prop :=
  ∀ pubkey sig, parseSignedKey lib ext = some (pubkey, sig) →
    buildSignedKey lib pubkey sig = some ext

/-- No part of the string before its end is the encoding of a signed key. -/
def EndsWithKey (lib : Bytestring) (ext : Bytes) : Prop :=
  ∀ pubkey sig der rest, buildSignedKey lib pubkey sig = some der → ext = der ++ rest → rest = []

theorem oneEncoding_iff (hder : lib.ImplementsDer) (ext : Bytes) :
    OneEncoding lib ext ↔ EndsWithKey lib ext := by
  constructor
  · intro hone pubkey sig der rest hbuild hext
    have hparse := (parseSignedKey_eq_some_iff hder).mpr ⟨der, rest, hbuild, hext⟩
    have hwhole := hone pubkey sig hparse
    rw [hbuild, Option.some_inj] at hwhole
    rw [← hwhole] at hext
    exact List.append_right_eq_self.mp hext.symm
  · intro hends pubkey sig hparse
    obtain ⟨der, rest, hbuild, hext⟩ := (parseSignedKey_eq_some_iff hder).mp hparse
    rw [hext, hends pubkey sig der rest hbuild hext, List.append_nil]
    exact hbuild

/-- **Signed keys.** The parser gives back what was built, and it accepts no other encoding of it exactly
where the encoding of a signed key has nothing behind it. -/
theorem roundTrip_and_oneEncoding_iff (hder : lib.ImplementsDer) :
    (∀ pubkey sig der, buildSignedKey lib pubkey sig = some der →
      parseSignedKey lib der = some (pubkey, sig)) ∧
    ∀ ext, OneEncoding lib ext ↔ EndsWithKey lib ext := by
  refine ⟨fun pubkey sig der hbuild => ?_, oneEncoding_iff hder⟩
  exact (parseSignedKey_eq_some_iff hder).mpr ⟨der, [], hbuild, (List.append_nil der).symm⟩

/-! ### With the library -/

def Asn1Tag.byte : Asn1Tag → UInt8
  | .sequence => 0x30
  | .octetString => 0x04

/-- DER, with lengths of four bytes at most. -/
def Bytestring.der : Bytestring := ⟨fun tag => Der.element tag.byte, fun tag => Der.get tag.byte⟩

theorem implementsDer_der : Bytestring.der.ImplementsDer :=
  fun _ _ _ _ => Der.get_eq_some_iff

/-- The key `01 02` and the signature `03`. -/
theorem roundTrip_and_oneEncoding_iff_short :
    parseSignedKey .der [48, 7, 4, 2, 1, 2, 4, 1, 3] = some ([1, 2], [3]) ∧
      (OneEncoding .der [48, 7, 4, 2, 1, 2, 4, 1, 3] ↔ EndsWithKey .der [48, 7, 4, 2, 1, 2, 4, 1, 3]) := by
  obtain ⟨hround, hone⟩ := roundTrip_and_oneEncoding_iff implementsDer_der
  exact ⟨hround [1, 2] [3] _ (by decide +kernel), hone _⟩

/-- With one more byte it is accepted all the same. -/
theorem not_oneEncoding_trailing :
    ¬∀ lib : Bytestring, lib.ImplementsDer → ∀ ext, OneEncoding lib ext := by
  intro hall
  have hsame := hall .der implementsDer_der [48, 7, 4, 2, 1, 2, 4, 1, 3, 0] [1, 2] [3] (by decide +kernel)
  exact absurd hsame (by decide +kernel)

end CLibp2p.Tls
