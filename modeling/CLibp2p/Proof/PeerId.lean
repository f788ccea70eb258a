import CLibp2p.Crypto.PeerId
import CLibp2p.Protobuf.Fields
import Mathlib.Data.List.DropRight
import Mathlib.Data.Nat.Digits.Lemmas
import Mathlib.Tactic.NormNum

/-!
# When a peer id is the base58 of the whole multihash

`base58` says what base58 is, and the encoder of the repository computes it for every multihash.
`PrettyID` takes the length of the multihash with `strlen`, so a digest is cut at its first zero byte.
-/

namespace CLibp2p.Crypto

open Duplex Secio

/-! ### Base58 -/

/-- The number these bytes stand for, the first byte the highest. -/
def bigEndian (data : Bytes) : Nat := Nat.ofDigits 256 (data.reverse.map UInt8.toNat)

/-- Base58: a `1` for each zero byte at the start, and the number in the alphabet's digits. -/
def base58 (data : Bytes) : Bytes :=
  (data.takeWhile (· = 0)).map (fun _ => b58digitsOrdered.getD 0 0) ++
    (Nat.digits 58 (bigEndian data)).reverse.map fun digit => b58digitsOrdered.getD digit 0

theorem bigEndian_concat (data : Bytes) (byte : UInt8) :
    bigEndian (data ++ [byte]) = byte.toNat + 256 * bigEndian data := by
  rw [bigEndian, List.reverse_concat, List.map_cons, Nat.ofDigits_cons, bigEndian]

theorem bigEndian_lt (data : Bytes) : bigEndian data < 256 ^ data.length := by
  have hdigits : ∀ digit ∈ data.reverse.map UInt8.toNat, digit < 256 := by
    intro digit hdigit
    obtain ⟨byte, -, rfl⟩ := List.mem_map.mp hdigit
    exact byte.toNat_lt
  have hbound := Nat.ofDigits_lt_base_pow_length (by decide) hdigits
  rwa [List.length_map, List.length_reverse] at hbound

theorem digits_bigEndian {data : Bytes} (hhead : data.head? ≠ some 0) :
    Nat.digits 256 (bigEndian data) = data.reverse.map UInt8.toNat := by
  refine Nat.digits_ofDigits 256 (by decide) _ ?_ ?_
  · intro digit hdigit
    obtain ⟨byte, -, rfl⟩ := List.mem_map.mp hdigit
    exact byte.toNat_lt
  · intro hne hzero
    apply hhead
    cases data with
    | nil => simp at hne
    | cons byte data =>
        have hbyte : byte = 0 := UInt8.toNat_inj.mp (by simpa using hzero)
        rw [List.head?_cons, hbyte]

theorem takeWhile_zero_eq_nil {data : Bytes} (hhead : data.head? ≠ some 0) :
    data.takeWhile (· = 0) = [] := by
  cases data with
  | nil => rfl
  | cons byte data =>
      have hbyte : byte ≠ 0 := fun hzero => hhead (by rw [hzero, List.head?_cons])
      rw [List.takeWhile_cons_of_neg (by simpa using hbyte)]

theorem b58digitsOrdered_eq : b58digitsOrdered =
    [49, 50, 51, 52, 53, 54, 55, 56, 57, 65, 66, 67, 68, 69, 70, 71, 72, 74, 75, 76, 77, 78, 80, 81, 82, 83,
      84, 85, 86, 87, 88, 89, 90, 97, 98, 99, 100, 101, 102, 103, 104, 105, 106, 107, 109, 110, 111, 112, 113,
      114, 115, 116, 117, 118, 119, 120, 121, 122] := by
  decide +kernel

theorem idxOf_alphabet {digit : Nat} (hdigit : digit < 58) :
    b58digitsOrdered.idxOf (b58digitsOrdered.getD digit 0) = digit := by
  have hall : ∀ digit < 58, b58digitsOrdered.idxOf (b58digitsOrdered.getD digit 0) = digit := by
    rw [b58digitsOrdered_eq]
    decide
  exact hall digit hdigit

theorem idxOf_digits (number : Nat) :
    ((Nat.digits 58 number).reverse.map fun digit => b58digitsOrdered.getD digit 0).map
      b58digitsOrdered.idxOf = (Nat.digits 58 number).reverse := by
  rw [List.map_map]
  conv_rhs => rw [← List.map_id (Nat.digits 58 number).reverse]
  refine List.map_congr_left fun digit hdigit => idxOf_alphabet ?_
  exact Nat.digits_lt_base (by decide) (List.mem_reverse.mp hdigit)

/-- Base58 tells data without leading zero bytes apart. -/
theorem base58_injective {data other : Bytes} (hdata : data.head? ≠ some 0)
    (hother : other.head? ≠ some 0) (heq : base58 data = base58 other) : data = other := by
  rw [base58, base58, takeWhile_zero_eq_nil hdata, takeWhile_zero_eq_nil hother, List.map_nil,
    List.nil_append, List.nil_append] at heq
  have hdigits : Nat.digits 58 (bigEndian data) = Nat.digits 58 (bigEndian other) := by
    apply List.reverse_injective
    rw [← idxOf_digits, heq, idxOf_digits]
  have hnumber : bigEndian data = bigEndian other := Nat.digits_inj_iff.mp hdigits
  have hbytes : data.reverse.map UInt8.toNat = other.reverse.map UInt8.toNat := by
    rw [← digits_bigEndian hdata, ← digits_bigEndian hother, hnumber]
  exact List.reverse_injective
    (List.map_injective_iff.mpr (fun _ _ hbyte => UInt8.toNat_inj.mp hbyte) hbytes)

/-! ### The encoder -/

theorem length_carryInto (carry : Nat) (buf : List Nat) : (carryInto carry buf).length = buf.length := by
  induction buf generalizing carry with
  | nil => rfl
  | cons digit buf ih => rw [carryInto, List.length_cons, List.length_cons, ih]

theorem carryInto_lt (carry : Nat) (buf : List Nat) : ∀ digit ∈ carryInto carry buf, digit < 58 := by
  induction buf generalizing carry with
  | nil => exact fun digit hdigit => absurd hdigit List.not_mem_nil
  | cons digit buf ih => exact List.forall_mem_cons.mpr ⟨Nat.mod_lt _ (by decide), ih _⟩

/-- The inner loop multiplies by 256 and adds the carry, if there are enough digits for that. -/
theorem ofDigits_carryInto {carry : Nat} {buf : List Nat}
    (hfits : carry + 256 * Nat.ofDigits 58 buf < 58 ^ buf.length) :
    Nat.ofDigits 58 (carryInto carry buf) = carry + 256 * Nat.ofDigits 58 buf := by
  induction buf generalizing carry with
  | nil =>
      rw [Nat.ofDigits_nil, List.length_nil, Nat.pow_zero] at hfits
      rw [carryInto, Nat.ofDigits_nil]
      omega
  | cons digit buf ih =>
      rw [Nat.ofDigits_cons, List.length_cons, Nat.pow_succ] at hfits
      have hrest : (carry + 256 * digit) / 58 + 256 * Nat.ofDigits 58 buf < 58 ^ buf.length := by
        omega
      rw [carryInto, Nat.ofDigits_cons, Nat.ofDigits_cons, ih hrest]
      omega

theorem ofDigits_foldl {size : Nat} {data : Bytes} (hfits : 256 ^ data.length ≤ 58 ^ size) :
    let buf := data.foldl (fun buf byte => carryInto byte.toNat buf) (List.replicate size 0)
    buf.length = size ∧ (∀ digit ∈ buf, digit < 58) ∧ Nat.ofDigits 58 buf = bigEndian data := by
  induction data using List.reverseRecOn with
  | nil =>
      refine ⟨List.length_replicate, ?_, ?_⟩
      · intro digit hdigit
        rw [List.eq_of_mem_replicate hdigit]
        decide
      · have hzero := Nat.ofDigits_append_replicate_zero (b := 58) (k := size) []
        exact hzero
  | append_singleton data byte ih =>
      have hbound := bigEndian_lt (data ++ [byte])
      have hless : 256 ^ data.length ≤ 58 ^ size := by
        refine Nat.le_trans (Nat.pow_le_pow_right (by decide) ?_) hfits
        rw [List.length_append]
        omega
      obtain ⟨hlength, -, hvalue⟩ := ih hless
      rw [List.foldl_append, List.foldl_cons, List.foldl_nil]
      refine ⟨(length_carryInto _ _).trans hlength, carryInto_lt _ _, ?_⟩
      rw [bigEndian_concat, ← hvalue] at hbound ⊢
      refine ofDigits_carryInto ?_
      rw [hlength]
      exact Nat.lt_of_lt_of_le hbound hfits

/-- The digits of a number are what is left of more digits without the leading zeros. -/
theorem digits_of_buf {buf : List Nat} (hdigits : ∀ digit ∈ buf, digit < 58) :
    buf.reverse.dropWhile (· = 0) = (Nat.digits 58 (Nat.ofDigits 58 buf)).reverse := by
  have hstrip : Nat.ofDigits 58 (buf.rdropWhile (· = 0)) = Nat.ofDigits 58 buf := by
    have hzeros : buf.rtakeWhile (· = 0) = List.replicate (buf.rtakeWhile (· = 0)).length 0 :=
      List.eq_replicate_of_mem fun digit hdigit => by simpa using List.mem_rtakeWhile_imp hdigit
    conv_rhs => rw [← List.rdropWhile_append_rtakeWhile (l := buf) (p := (· = 0)), hzeros]
    rw [Nat.ofDigits_append_replicate_zero]
  have hunique : Nat.digits 58 (Nat.ofDigits 58 (buf.rdropWhile (· = 0))) = buf.rdropWhile (· = 0) := by
    refine Nat.digits_ofDigits 58 (by decide) _ ?_ ?_
    · exact fun digit hdigit => hdigits digit ((List.rdropWhile_prefix _ _).subset hdigit)
    · intro hne hzero
      exact List.rdropWhile_last_not _ _ hne (by simpa using hzero)
  rw [← hstrip, hunique, List.rdropWhile, List.reverse_reverse]

/-- The buffer has enough digits. -/
theorem pow_length_le (n : Nat) : 256 ^ n ≤ 58 ^ (n * 138 / 100 + 1) := by
  have hhundred : (256 : Nat) ^ 100 ≤ 58 ^ 138 := by norm_num
  have hdigits : n * 138 ≤ (n * 138 / 100 + 1) * 100 := by omega
  refine (Nat.pow_le_pow_iff_left (n := 100) (by decide)).mp ?_
  calc (256 ^ n) ^ 100 = (256 ^ 100) ^ n := by rw [← Nat.pow_mul, ← Nat.pow_mul, Nat.mul_comm]
    _ ≤ (58 ^ 138) ^ n := Nat.pow_le_pow_left hhundred n
    _ = 58 ^ (n * 138) := by rw [← Nat.pow_mul, Nat.mul_comm]
    _ ≤ 58 ^ ((n * 138 / 100 + 1) * 100) := Nat.pow_le_pow_right (by decide) hdigits
    _ = (58 ^ (n * 138 / 100 + 1)) ^ 100 := Nat.pow_mul 58 _ _

/-- The encoder computes base58 for data without leading zero bytes, if the text and a NUL fit. -/
theorem base58Encode_of_fits {data : Bytes} (hhead : data.head? ≠ some 0) {base58Size : Nat}
    (hsize : (base58 data).length < base58Size) : base58Encode data base58Size = some (base58 data) := by
  obtain ⟨-, hdigits, hvalue⟩ := ofDigits_foldl (pow_length_le data.length)
  have hbuf := digits_of_buf hdigits
  rw [hvalue] at hbuf
  rw [base58, takeWhile_zero_eq_nil hhead, List.map_nil, List.nil_append] at hsize ⊢
  rw [List.length_map] at hsize
  rw [base58Encode, if_neg hhead]
  dsimp only
  rw [hbuf, if_neg (Nat.not_le_of_lt hsize)]

theorem base58Encode_eq {data : Bytes} (hhead : data.head? ≠ some 0) {base58Size : Nat}
    (hsize : data.length * 138 / 100 + 1 < base58Size) :
    base58Encode data base58Size = some (base58 data) := by
  have hlength : (Nat.digits 58 (bigEndian data)).length ≤ data.length * 138 / 100 + 1 :=
    (Nat.digits_length_le_iff (by decide) _).mpr
      (Nat.lt_of_lt_of_le (bigEndian_lt data) (pow_length_le data.length))
  refine base58Encode_of_fits hhead (Nat.lt_of_le_of_lt ?_ hsize)
  rwa [base58, takeWhile_zero_eq_nil hhead, List.map_nil, List.nil_append, List.length_map,
    List.length_reverse]

/-! ### Peer ids -/

variable {prims : Primitives} {pb : Protobuf} {lib : IdLibrary}

/-- A sha2-256 multihash: the code, the length and the digest. -/
def sha256Multihash (digest : Bytes) : Bytes := mhSha2256.toUInt8 :: 32 :: digest

/-- What `mh_new` does with a digest of that length. -/
def IdLibrary.WrapsSha256 (lib : IdLibrary) : Prop :=
  ∀ digest, digest.length = 32 → lib.mhNew mhSha2256 digest = some (sha256Multihash digest)

def keyDigest (prims : Primitives) (pb : Protobuf) (lib : IdLibrary) (publicKey : PublicKey) : Bytes :=
  prims.sha256 (publicKeyEncode pb lib publicKey)

theorem cString_sha256Multihash (digest : Bytes) :
    cString (sha256Multihash digest) = sha256Multihash (cString digest) := by
  rw [cString, sha256Multihash, List.takeWhile_cons_of_pos (by decide),
    List.takeWhile_cons_of_pos (by decide), ← cString, sha256Multihash]

theorem sha256Multihash_injective {digest other : Bytes}
    (heq : base58 (sha256Multihash digest) = base58 (sha256Multihash other)) : digest = other := by
  have hhead : ∀ digest, (sha256Multihash digest).head? ≠ some 0 := by
    intro digest
    rw [sha256Multihash, List.head?_cons]
    decide
  have hcons := base58_injective (hhead digest) (hhead other) heq
  exact (List.cons.inj (List.cons.inj hcons).2).2

/-- The peer id stands for the digest up to its first zero byte. -/
theorem publicKeyToPeerId_eq (hwraps : lib.WrapsSha256) (hsha : ∀ data, (prims.sha256 data).length = 32)
    (publicKey : PublicKey) :
    publicKeyToPeerId prims pb lib publicKey =
      some (base58 (sha256Multihash (cString (keyDigest prims pb lib publicKey)))) := by
  have hlength : (cString (keyDigest prims pb lib publicKey)).length ≤ 32 :=
    Nat.le_trans (List.takeWhile_sublist _).length_le (Nat.le_of_eq (hsha _))
  have hhead : (sha256Multihash (cString (keyDigest prims pb lib publicKey))).head? ≠ some 0 := by
    rw [sha256Multihash, List.head?_cons]
    decide
  rw [publicKeyToPeerId, prettyId, hwraps _ (hsha _), ← keyDigest]
  dsimp only
  rw [← cString, cString_sha256Multihash]
  refine base58Encode_eq hhead ?_
  rw [sha256Multihash, List.length_cons, List.length_cons]
  omega

/-- **Peer ids.** A peer id is the base58 of the whole multihash exactly if the digest has no zero byte,
and two keys have the same peer id exactly if their digests agree up to the first zero byte. -/
theorem publicKeyToPeerId_eq_iff (hwraps : lib.WrapsSha256)
    (hsha : ∀ data, (prims.sha256 data).length = 32) :
    (∀ publicKey, publicKeyToPeerId prims pb lib publicKey =
        some (base58 (sha256Multihash (keyDigest prims pb lib publicKey))) ↔
      0 ∉ keyDigest prims pb lib publicKey) ∧
    ∀ publicKey other,
      (keyDigest prims pb lib publicKey ≠ keyDigest prims pb lib other →
        publicKeyToPeerId prims pb lib publicKey ≠ publicKeyToPeerId prims pb lib other) ↔
      (cString (keyDigest prims pb lib publicKey) = cString (keyDigest prims pb lib other) →
        keyDigest prims pb lib publicKey = keyDigest prims pb lib other) := by
  have hids : ∀ publicKey, publicKeyToPeerId prims pb lib publicKey =
      some (base58 (sha256Multihash (cString (keyDigest prims pb lib publicKey)))) :=
    publicKeyToPeerId_eq hwraps hsha
  constructor
  · intro publicKey
    rw [hids, ← cString_eq_self_iff, Option.some_inj]
    exact ⟨sha256Multihash_injective, fun hcut => by rw [hcut]⟩
  · intro publicKey other
    rw [hids, hids, not_imp_not, Option.some_inj]
    constructor
    · exact fun hsame hcut => hsame (by rw [hcut])
    · exact fun hsame heq => hsame (sha256Multihash_injective heq)

/-! ### Two keys -/

/-- Two RSA keys whose digests start with a zero byte. -/
def oneKey : PublicKey := ⟨keytypeRsa, [1, 174]⟩

def otherKey : PublicKey := ⟨keytypeRsa, [2, 152]⟩

def oneDigest : Bytes :=
  [0, 202, 240, 107, 70, 53, 50, 109, 160, 156, 230, 177, 217, 210, 104, 96, 44, 254, 5, 190, 109, 171,
    129, 176, 128, 22, 149, 122, 181, 48, 226, 130]

def otherDigest : Bytes :=
  [0, 234, 81, 3, 242, 132, 160, 227, 185, 209, 232, 53, 215, 16, 198, 199, 66, 112, 59, 59, 26, 55, 182,
    48, 35, 195, 188, 22, 138, 237, 161, 221]

/-- SHA-256 on the protobufs of the two keys. -/
def twoDigests : Primitives :=
  { Primitives.plain with
    sha256 := fun data =>
      if data = [8, 0, 18, 2, 1, 174] then oneDigest
      else if data = [8, 0, 18, 2, 2, 152] then otherDigest
      else List.replicate 32 0 }

/-- The multihash library on a digest that fits into one byte. -/
def IdLibrary.varints : IdLibrary where
  encodeVarint fieldNo value maxOut :=
    let out := varintEncode 10 (8 * fieldNo + wiretypeVarint) ++ varintEncode 10 value
    if out.length ≤ maxOut then some out else none
  mhNew code digest := some (code.toUInt8 :: digest.length.toUInt8 :: digest)

theorem varints_wrapsSha256 : IdLibrary.varints.WrapsSha256 := by
  intro digest hlength
  rw [sha256Multihash, IdLibrary.varints]
  dsimp only
  rw [hlength]
  rfl

theorem length_twoDigests (data : Bytes) : (twoDigests.sha256 data).length = 32 := by
  rw [twoDigests]
  dsimp only
  split_ifs
  · rfl
  · rfl
  · exact List.length_replicate

theorem publicKeyToPeerId_eq_iff_two :
    (∀ publicKey, publicKeyToPeerId twoDigests .varints .varints publicKey =
        some (base58 (sha256Multihash (keyDigest twoDigests .varints .varints publicKey))) ↔
      0 ∉ keyDigest twoDigests .varints .varints publicKey) ∧
    ∀ publicKey other,
      (keyDigest twoDigests .varints .varints publicKey ≠ keyDigest twoDigests .varints .varints other →
        publicKeyToPeerId twoDigests .varints .varints publicKey ≠
          publicKeyToPeerId twoDigests .varints .varints other) ↔
      (cString (keyDigest twoDigests .varints .varints publicKey) =
          cString (keyDigest twoDigests .varints .varints other) →
        keyDigest twoDigests .varints .varints publicKey =
          keyDigest twoDigests .varints .varints other) :=
  publicKeyToPeerId_eq_iff varints_wrapsSha256 length_twoDigests

/-- The two keys have different digests and the same peer id, which is not that of a whole digest. -/
theorem publicKeyToPeerId_eq_fails :
    keyDigest twoDigests .varints .varints oneKey = oneDigest ∧
      keyDigest twoDigests .varints .varints otherKey = otherDigest ∧
      publicKeyToPeerId twoDigests .varints .varints oneKey =
        publicKeyToPeerId twoDigests .varints .varints otherKey ∧
      publicKeyToPeerId twoDigests .varints .varints oneKey ≠ some (base58 (sha256Multihash oneDigest)) := by
  have hone : keyDigest twoDigests .varints .varints oneKey = oneDigest := by decide
  have hother : keyDigest twoDigests .varints .varints otherKey = otherDigest := by decide
  have hids : ∀ publicKey, publicKeyToPeerId twoDigests .varints .varints publicKey =
      some (base58 (sha256Multihash (cString (keyDigest twoDigests .varints .varints publicKey)))) :=
    publicKeyToPeerId_eq varints_wrapsSha256 length_twoDigests
  refine ⟨hone, hother, ?_, ?_⟩
  · rw [hids, hids, hone, hother]
    rfl
  · rw [hids, hone]
    intro heq
    have hcut := sha256Multihash_injective (Option.some.inj heq)
    exact absurd hcut (by decide)

end CLibp2p.Crypto
