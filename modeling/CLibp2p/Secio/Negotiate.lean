import CLibp2p.Stream.Bytes

/-!
# Negotiation in `secio/secio.c`

Each side hashes the public key of one side with the nonce of the other, in both combinations, and
compares the hashes. The sign decides whose list leads when the two choose a curve, a cipher and a
hash, and later who gets which of the two stretched keys.
-/

namespace CLibp2p.Secio

open Duplex

/-- What `mbedtls_aes_crypt_ctr` carries from call to call. -/
structure CtrState where
  offset : Nat
  counter : Bytes
  block : Bytes
deriving Repr, DecidableEq

/-- What the file calls in mbedTLS. `ecdhMakePublic` gives a length byte and the point. -/
structure Primitives where
  sha256 : Bytes → Bytes
  hmacSha256 : (key data : Bytes) → Bytes
  ecdhMakePublic : (curve secret : Bytes) → Option Bytes
  ecdhCalcSecret : (curve secret remotePublic : Bytes) → Option Bytes
  rsaSign : (privateKey data : Bytes) → Option Bytes
  rsaVerify : (publicKey data signature : Bytes) → Bool
  aesCtr : (key : Bytes) → CtrState → (data : Bytes) → Option (Bytes × CtrState)

/-- A stand-in to evaluate the model with: digests are sums, a shared secret is a product. -/
def Primitives.plain : Primitives where
  sha256 data := List.replicate 32 data.sum
  hmacSha256 key data := List.replicate 32 (key.sum + 3 * data.sum)
  ecdhMakePublic _ secret := some [1, secret.sum]
  ecdhCalcSecret _ secret remotePublic := some [secret.sum * remotePublic.getD 1 0]
  rsaSign privateKey data := some [privateKey.sum + data.sum]
  rsaVerify publicKey data signature := decide (signature = [publicKey.sum + data.sum])
  aesCtr key state data :=
    some (data.map fun byte => byte ^^^ (key.sum + state.counter.sum), state)

structure Propose where
  rand : Bytes
  publicKey : Bytes
  exchanges : Bytes
  ciphers : Bytes
  hashes : Bytes
deriving Repr, DecidableEq

def name (text : String) : Bytes := text.toUTF8.toList

def hash (prims : Primitives) (key nonce : Bytes) : Bytes := prims.sha256 (key ++ nonce)

/-- `libp2p_secio_bytes_compare`, on as many bytes as both have. -/
def bytesCompare : (a b : Bytes) → Int
  | x :: a, y :: b => if x < y then -1 else if y < x then 1 else bytesCompare a b
  | _, _ => 0

def determineOrder (prims : Primitives) (remote localSide : Propose) : Int :=
  bytesCompare (hash prims remote.publicKey localSide.rand) (hash prims localSide.publicKey remote.rand)

def comma : UInt8 := 44

/-- `libp2p_secio_split_list`. The copy it splits is a C string, and `strtok` skips empty pieces. -/
def splitList (list : Bytes) : List Bytes :=
  ((list.takeWhile (· ≠ 0)).splitOn comma).filter fun piece => !piece.isEmpty

/-- What `libp2p_secio_select_best` does: its result with a 1, a 0, or a read through `NULL`. -/
inductive Choice where
  | picked (name : Bytes)
  | noMatch
  | crash
deriving Repr, DecidableEq

/-- The two nested loops over leading and following list. -/
def firstMatch (lead follower : List Bytes) : Choice :=
  match lead.find? fun name => follower.contains name with
  | some name => .picked name
  | none => .noMatch

/-- `libp2p_secio_select_best`; equal orders take the shortcut to the head of the own list. -/
def selectBest (order : Int) (localList remoteList : Bytes) : Choice :=
  if order = 0 then
    match splitList localList with
    | name :: _ => .picked name
    | [] => .crash
  else if 0 < order then firstMatch (splitList localList) (splitList remoteList)
  else firstMatch (splitList remoteList) (splitList localList)

/-- The three calls of `libp2p_secio_select_best` in the handshake: curve, cipher and hash. -/
def chooseAll (order : Int) (localSide remote : Propose) : Choice × Choice × Choice :=
  (selectBest order localSide.exchanges remote.exchanges,
    selectBest order localSide.ciphers remote.ciphers,
    selectBest order localSide.hashes remote.hashes)

/-! ### Stretched keys -/

/-- `struct StretchedKey`; `macSize` is the length the MAC reads, whatever the buffer holds. -/
structure StretchedKey where
  iv : Bytes
  cipherKey : Bytes
  macKey : Bytes
  macSize : Nat
deriving Repr, DecidableEq

def hmacSize : Nat := 20

def seed : Bytes := name "key expansion"

/-- The lengths of IV and cipher key. -/
def cipherSizes (cipherType : Bytes) : Option (Nat × Nat) :=
  if cipherType = name "AES-128" then some (16, 16)
  else if cipherType = name "AES-256" then some (16, 32)
  else if cipherType = name "Blowfish" then some (8, 32)
  else none

/-- Blocks of 32 bytes, each from the running hash and the seed. -/
def keyBlocks (prims : Primitives) (secret : Bytes) : (count : Nat) → (a : Bytes) → Bytes
  | 0, _ => []
  | count + 1, a => prims.hmacSha256 secret (a ++ seed) ++
      keyBlocks prims secret count (prims.hmacSha256 secret a)

/-- One of the two keys, cut from the front of the result. -/
def cutKey (ivSize cipherSize : Nat) (result : Bytes) : StretchedKey where
  iv := result.take ivSize
  cipherKey := (result.drop ivSize).take cipherSize
  macKey := (result.drop (ivSize + cipherSize)).take hmacSize
  macSize := hmacSize

/-- `libp2p_secio_stretch_keys`. The buffer it fills is longer than the two keys; the hash type is not
looked at. -/
def stretchKeys (prims : Primitives) (cipherType secret : Bytes) :
    Option (StretchedKey × StretchedKey) :=
  match cipherSizes cipherType with
  | none => none
  | some (ivSize, cipherSize) =>
      let resultSize := 2 * (ivSize + cipherSize * hmacSize)
      let result := (keyBlocks prims secret ((resultSize + 31) / 32)
        (prims.hmacSha256 secret seed)).take resultSize
      some (cutKey ivSize cipherSize result,
        cutKey ivSize cipherSize (result.drop (ivSize + cipherSize + hmacSize)))

/-- `libp2p_secio_make_mac_and_cipher`. Its result is not looked at; what stays is the size of the
MAC. -/
def makeMacAndCipher (chosenHash : Bytes) (key : StretchedKey) : StretchedKey :=
  if chosenHash = name "SHA1" then { key with macSize := 40 }
  else if chosenHash = name "SHA512" then { key with macSize := 64 }
  else key

end CLibp2p.Secio
