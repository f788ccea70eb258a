import CLibp2p.Routing.Dht.Outbound

/-!
# Stored peers, secrets and the rate limit

The peers that `routing/dht.c` stores for each hash, the tokens that it asks for before it stores one, and
how many requests it answers.
-/

namespace CLibp2p.Routing.Dht

open Duplex

/-- `struct peer`, with as many bytes of its address as `len` says. -/
structure Peer where
  time : Int
  ip : Bytes
  port : UInt16
deriving Repr, DecidableEq

/-- `struct storage`, with as many of its peers as `numpeers` says. -/
structure Storage where
  id : Hash
  maxpeers : Nat
  peers : List Peer
deriving Repr, DecidableEq

def dhtMaxPeers : Nat := 2048

def dhtMaxHashes : Nat := 16384

structure Store where
  storage : List Storage
  numstorage : Int
deriving Repr, DecidableEq

namespace Storage

/-- The end of `storage_store`, and what it returns. -/
def storePeer (st : Storage) (now : Int) (ip : Bytes) (port : UInt16) : Storage × Int :=
  match st.peers.findIdx? fun p => p.port == port && p.ip == ip with
  | some i => ({ st with peers := st.peers.modify i fun p => { p with time := now } }, 0)
  | none =>
      let p : Peer := { time := now, ip := ip, port := port }
      if st.peers.length ≥ st.maxpeers then
        -- Need to expand the array.
        if st.maxpeers ≥ dhtMaxPeers then (st, 0)
        else
          let n := if st.maxpeers = 0 then 2 else 2 * st.maxpeers
          ({ st with maxpeers := min n dhtMaxPeers, peers := st.peers ++ [p] }, 1)
      else ({ st with peers := st.peers ++ [p] }, 1)

end Storage

def stale (now : Int) (p : Peer) : Bool := p.time < now - 32 * 60

/-- The last peer takes the place of this one. -/
def swapRemove (peers : List Peer) (i : Nat) : List Peer :=
  match peers.getLast? with
  | none => peers
  | some last => (if i ≠ peers.length - 1 then peers.set i last else peers).dropLast

theorem length_swapRemove_le (peers : List Peer) (i : Nat) :
    (swapRemove peers i).length ≤ peers.length - 1 := by
  rw [swapRemove]
  split
  · rename_i hnone
    rw [List.getLast?_eq_none_iff.mp hnone]
    exact Nat.zero_le _
  · split
    · rw [List.length_dropLast, List.length_set]
    · rw [List.length_dropLast]

/-- The loop over the peers of a hash. -/
def expirePeers (now : Int) (peers : List Peer) (i : Nat) : List Peer :=
  if h : i < peers.length then
    if stale now peers[i] then expirePeers now (swapRemove peers i) i
    else expirePeers now peers (i + 1)
  else peers
termination_by peers.length - i
decreasing_by
  · have hlength : (swapRemove peers i).length ≤ peers.length - 1 := length_swapRemove_le peers i
    omega
  · omega

namespace Store

def findStorage (s : Store) (id : Hash) : Option Nat := s.storage.findIdx? fun st => idCmp id st.id = .eq

/-- `storage_store`, and what it returns. -/
def storageStore (s : Store) (now : Int) (id : Hash) (sa : SockAddr) (port : UInt16) : Store × Int :=
  match s.findStorage id with
  | some i =>
      match s.storage[i]? with
      | none => (s, -1)
      | some st =>
          let (st, rc) := st.storePeer now sa.ip port
          ({ s with storage := s.storage.set i st }, rc)
  | none =>
      if s.numstorage ≥ dhtMaxHashes then (s, -1)
      else
        let (st, rc) := Storage.storePeer { id := id, maxpeers := 0, peers := [] } now sa.ip port
        ({ storage := st :: s.storage, numstorage := s.numstorage + 1 }, rc)

/-- The loop over the hashes. -/
def expireFrom (now : Int) : List Storage → Int → List Storage × Int
  | [], numstorage => ([], numstorage)
  | st :: rest, numstorage =>
      let peers := expirePeers now st.peers 0
      if peers.length = 0 then
        expireFrom now rest (if numstorage - 1 < 0 then 0 else numstorage - 1)
      else
        let (rest, numstorage) := expireFrom now rest numstorage
        ({ st with peers := peers } :: rest, numstorage)

def expireStorage (s : Store) (now : Int) : Store :=
  let (storage, numstorage) := expireFrom now s.storage s.numstorage
  { storage := storage, numstorage := numstorage }

end Store

/-! ### Tokens -/

def tokenSize : Nat := 8

abbrev Secret := Vector UInt8 8

/-- The secrets, and when they change. `urandom` has what `dht_random_bytes` is going to give. -/
structure Secrets where
  secret : Secret
  oldsecret : Secret
  rotateSecretsTime : Int
  urandom : Nat → Option Secret

namespace Secrets

/-- `rotate_secrets`, with the number that `random` gives, and whether it found a new secret. -/
def rotate (s : Secrets) (now : Int) (random : Nat) : Secrets × Bool :=
  let s' : Secrets :=
    { s with
      oldsecret := s.secret
      rotateSecretsTime := now + 900 + (random % 1800 : Nat)
      urandom := fun i => s.urandom (i + 1) }
  match s.urandom 0 with
  | none => (s', false)
  | some secret => ({ s' with secret := secret }, true)

end Secrets

/-- `dht_hash` of `routing/kademlia.c`, for the three parts that it is called with. -/
def dhtHash (sha256 : Bytes → Bytes) (hashSize : Nat) (v1 v2 v3 : Bytes) : Bytes :=
  (sha256 (v1 ++ v2 ++ v3)).take hashSize

/-- `make_token`, with the secret to use. -/
def makeToken (sha256 : Bytes → Bytes) (sa : SockAddr) (secret : Secret) : Bytes :=
  dhtHash sha256 tokenSize secret.toList sa.ip (hostShort sa.port)

def tokenMatch (sha256 : Bytes → Bytes) (s : Secrets) (token : Bytes) (sa : SockAddr) : Bool :=
  token.length == tokenSize &&
    (token == makeToken sha256 sa s.secret || token == makeToken sha256 sa s.oldsecret)

/-! ### Rate control for requests we receive -/

def maxTokenBucketTokens : Int := 400

structure RateLimit where
  tokenBucketTime : Int
  tokenBucketTokens : Int
deriving Repr, DecidableEq

/-- `token_bucket`, and whether the request is let in. -/
def RateLimit.tokenBucket (l : RateLimit) (now : Int) : RateLimit × Bool :=
  let l' : RateLimit :=
    if l.tokenBucketTokens = 0 then
      { tokenBucketTokens := (min maxTokenBucketTokens (100 * (now - l.tokenBucketTime))).toInt32.toInt
        tokenBucketTime := now }
    else l
  if l'.tokenBucketTokens = 0 then (l', false)
  else ({ l' with tokenBucketTokens := l'.tokenBucketTokens - 1 }, true)

end CLibp2p.Routing.Dht
