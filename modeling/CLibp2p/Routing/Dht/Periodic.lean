import CLibp2p.Machine.Attempts
import CLibp2p.Routing.Dht.Maintenance
import CLibp2p.Routing.Dht.Parse
import CLibp2p.Routing.Dht.Reply
import CLibp2p.Routing.Dht.Search

/-!
# The DHT as a whole

The globals of `routing/dht.c` and the functions that its users call. A function that calls `new_node` has
no result where that call does not come back.
-/

namespace CLibp2p.Routing.Dht

open Duplex Machine

structure Globals extends Tables where
  lookups : Searches
  searchTime : Int
  store : Store
  secrets : Secrets
  rateLimit : RateLimit
  confirmNodesTime : Int
  events : List Event

/-- What came in from the network: the message, whether there is a terminator behind it, who sent it, and
what the variable for its transaction id happens to hold. -/
structure Packet where
  buf : Bytes
  terminated : Bool
  sender : SockAddr
  unset : Vector UInt8 tidRoom

def tidMatch (tid : Bytes) (kind : String) : Bool := tid.take 2 == ascii kind

def tidSeqno (tid : Bytes) : UInt16 := (tid.getD 2 0).toUInt16 ||| (tid.getD 3 0).toUInt16 <<< 8

/-- A node in a reply, as `dht_periodic` unpacks it. -/
structure NodeInfo where
  id : Hash
  ss : SockAddr
deriving Repr, DecidableEq

def arrayAt (n : Nat) (bytes : Bytes) (i : Nat) : Vector UInt8 n := Vector.ofFn fun j : Fin n => bytes.getD (i + j) 0

def netPort (bytes : Bytes) (i : Nat) : UInt16 :=
  (bytes.getD i 0).toUInt16 <<< 8 ||| (bytes.getD (i + 1) 0).toUInt16

def nodeInfos (nodes : Bytes) : List NodeInfo :=
  (List.range (nodes.length / 26)).map fun i =>
    { id := arrayAt 20 nodes (26 * i)
      ss := .inet (arrayAt 4 nodes (26 * i + 20)) (netPort nodes (26 * i + 24)) }

def nodeInfos6 (nodes6 : Bytes) : List NodeInfo :=
  (List.range (nodes6.length / 38)).map fun i =>
    { id := arrayAt 20 nodes6 (38 * i)
      ss := .inet6 (arrayAt 16 nodes6 (38 * i + 20)) (netPort nodes6 (38 * i + 36)) 0 0 }

namespace Globals

variable (sha256 : Bytes → Bytes)

def withTables (s : Globals) (r : Tables) : Globals := { s with toTables := r }

def withOutbound (s : Globals) (o : Outbound) : Globals := s.withTables { s.toTables with toOutbound := o }

def newNode (s : Globals) (id : Hash) (sa : SockAddr) (confirm : Nat) : Option Globals :=
  (s.toTables.newNode id sa confirm).map fun p => s.withTables p.1

/-- The search at a place is now this one. -/
def putSearch (s : Globals) (i : Nat) (sr : Search) : Globals :=
  { s with lookups := { s.lookups with searches := s.lookups.searches.set i sr } }

def modifySearch (s : Globals) (i : Nat) (f : Search → Search) : Globals :=
  match s.lookups.searches[i]? with
  | none => s
  | some sr => s.putSearch i (f sr)

/-- Make the node easy to discard. -/
def spoil (r : Tables) (id : Hash) (af : Family) : Tables :=
  match r.findNode id af with
  | none => r
  | some (c, i) =>
      let b := c.here.modifyNode i fun n => { n with pinged := 3 }
      (r.put af c b).pinged af { c with here := b } i false

def blacklistNode (s : Globals) (id : Hash) (sa : SockAddr) : Globals :=
  let r := spoil s.toTables id sa.family
  let s := { s with
    lookups := { s.lookups with searches := s.lookups.searches.map (Search.discard id 0) } }
  s.withTables { r with toOutbound := r.blacklistAddress sa }

/-! ### Replies -/

/-- `search_send_get_peers(sr, NULL)`, for the search at a place. -/
def pushRequest (s : Globals) (i : Nat) : Globals :=
  match s.lookups.searches[i]? with
  | none => s
  | some sr =>
      let (sr, r) := sr.sendGetPeers s.toTables
      (s.withTables r).putSearch i sr

/-- The loop over the nodes in a reply. -/
def addNodes (sr : Option Nat) : List NodeInfo → Globals → Option Globals
  | [], s => some s
  | ni :: rest, s =>
      if idCmp ni.id s.myid = .eq then addNodes sr rest s
      else
        match s.newNode ni.id ni.ss 0 with
        | none => none
        | some s =>
            match sr with
            | none => addNodes sr rest s
            | some i =>
                addNodes sr rest (s.modifySearch i fun sr => sr.insertSearchNode s.now ni.id ni.ss false none)

def valueEvents (sr : Search) (m : Message) : List Event :=
  (if m.values.length > 0 then [{ event := .values, infoHash := sr.id, data := m.values }] else []) ++
    (if m.values6.length > 0 then [{ event := .values6, infoHash := sr.id, data := m.values6 }] else [])

/-- The node that replied, and the values that it had. -/
def replied (s : Globals) (sr : Option Nat) (sender : SockAddr) (m : Message) (callback : Bool) : Globals :=
  match sr with
  | none => s
  | some i =>
      match s.lookups.searches[i]? with
      | none => s
      | some sr =>
          let s := s.putSearch i (sr.insertSearchNode s.now m.id sender true (some m.token))
          if callback then { s with events := s.events ++ valueEvents sr m } else s

def onNodes (s : Globals) (sender : SockAddr) (m : Message) (callback : Bool) : Option Globals :=
  let gp := tidMatch m.tid "gp"
  let sr := if gp then s.lookups.findSearch (tidSeqno m.tid) sender.family else none
  if m.nodes.length % 26 ≠ 0 ∨ m.nodes6.length % 38 ≠ 0 then
    some ((s.blacklistNode m.id sender).replied sr sender m callback)
  else if gp ∧ sr = none then s.newNode m.id sender 1
  else do
    let s ← s.newNode m.id sender 2
    let s ← addNodes sr (nodeInfos m.nodes) s
    let s ← addNodes sr (nodeInfos6 m.nodes6) s
    let s := match sr with
      | none => s
      | some i => s.pushRequest i
    return s.replied sr sender m callback

/-- The first node of a search with the id has acknowledged. -/
def acknowledge (now : Int) (id : Hash) (sr : Search) : Search :=
  match sr.nodes.findIdx? fun n => idCmp n.id id = .eq with
  | none => sr
  | some i =>
      { sr with
        nodes := sr.nodes.modify i fun n =>
          { n with requestTime := 0, replyTime := now, acked := true, pinged := 0 } }

def onAnnounced (s : Globals) (sender : SockAddr) (m : Message) : Option Globals :=
  match s.lookups.findSearch (tidSeqno m.tid) sender.family with
  | none => s.newNode m.id sender 1
  | some i => do
      let s ← s.newNode m.id sender 2
      return (s.modifySearch i (acknowledge s.now m.id)).pushRequest i

def onReply (s : Globals) (sender : SockAddr) (m : Message) (callback : Bool) : Option Globals :=
  if m.tid.length ≠ 4 then some (s.blacklistNode m.id sender)
  else if tidMatch m.tid "pn" then s.newNode m.id sender 2
  else if tidMatch m.tid "fn" || tidMatch m.tid "gp" then s.onNodes sender m callback
  else if tidMatch m.tid "ap" then s.onAnnounced sender m
  else some s

/-! ### Requests -/

def onFindNode (s : Globals) (sender : SockAddr) (m : Message) : Option Globals := do
  let s ← s.newNode m.id sender 1
  return s.withOutbound (s.sendClosestNodes sender m.tid m.target m.want none none [])

def onGetPeers (s : Globals) (sender : SockAddr) (m : Message) : Option Globals := do
  let s ← s.newNode m.id sender 1
  if idCmp m.infoHash zeroes = .eq then
    return s.withOutbound (s.sendError sender m.tid 203 (ascii "Get_peers with no info_hash"))
  else
    let token := makeToken sha256 sender s.secrets.secret
    match (s.store.findStorage m.infoHash).bind fun i => s.store.storage[i]? with
    | some st =>
        if st.peers.length > 0 then
          return s.withOutbound
            (s.sendClosestNodes sender m.tid m.infoHash m.want (some sender.family) (some st) token)
        else return s.withOutbound (s.sendClosestNodes sender m.tid m.infoHash m.want none none token)
    | none => return s.withOutbound (s.sendClosestNodes sender m.tid m.infoHash m.want none none token)

def onAnnouncePeer (s : Globals) (sender : SockAddr) (m : Message) : Option Globals := do
  let s ← s.newNode m.id sender 1
  if idCmp m.infoHash zeroes = .eq then
    return s.withOutbound (s.sendError sender m.tid 203 (ascii "Announce_peer with no info_hash"))
  else if !tokenMatch sha256 s.secrets m.token sender then
    return s.withOutbound (s.sendError sender m.tid 203 (ascii "Announce_peer with wrong token"))
  else if m.port = 0 then
    return s.withOutbound (s.sendError sender m.tid 203 (ascii "Announce_peer with forbidden port number"))
  else
    let s := { s with store := (s.store.storageStore s.now m.infoHash sender m.port).1 }
    return s.withOutbound (s.sendPeerAnnounced sender m.tid)

def dispatch (s : Globals) (sender : SockAddr) (callback : Bool) (type : MessageType) (m : Message) : Option Globals :=
  match type with
  | .reply => s.onReply sender m callback
  | .error => some s
  | .ping => (s.newNode m.id sender 1).map fun s => s.withOutbound (s.sendPong sender m.tid)
  | .findNode => s.onFindNode sender m
  | .getPeers => onGetPeers sha256 s sender m
  | .announcePeer => onAnnouncePeer sha256 s sender m

/-- What is done with a message that was read. Requests are rate limited. -/
def receive (s : Globals) (sender : SockAddr) (callback : Bool) (type : MessageType) (m : Message) : Option Globals :=
  if type = .error ∨ idCmp m.id zeroes = .eq then some s
  else if idCmp m.id s.myid = .eq then some s
  else if type = .reply then dispatch sha256 s sender callback type m
  else
    let (rateLimit, ok) := s.rateLimit.tokenBucket s.now
    let s := { s with rateLimit := rateLimit }
    if ok then dispatch sha256 s sender callback type m else some s

/-! ### What is due -/

def rotateSecrets (s : Globals) : Globals :=
  let (n, r) := s.toTables.draw
  { s with toTables := r, secrets := (s.secrets.rotate s.now n).1 }

def expireStuff (s : Globals) : Globals :=
  { s with
    toTables := (s.toTables.expireBuckets .inet).expireBuckets .inet6
    store := s.store.expireStorage s.now
    lookups := s.lookups.expireSearches s.now }

/-- The loop that takes a step of each search that is due. -/
def stepLoop (callback : Bool) : List Search → Tables → List Search × Tables × List Event
  | [], r => ([], r, [])
  | sr :: rest, r =>
      if !sr.done ∧ sr.stepTime + 5 ≤ r.now then
        let (sr, r, events) := sr.searchStep r callback
        let (rest, r, events') := stepLoop callback rest r
        (sr :: rest, r, events ++ events')
      else
        let (rest, r, events) := stepLoop callback rest r
        (sr :: rest, r, events)

/-- The loop that finds out when the next search is due. -/
def dueLoop : List Search → Int → Tables → Int × Tables
  | [], searchTime, r => (searchTime, r)
  | sr :: rest, searchTime, r =>
      if sr.done then dueLoop rest searchTime r
      else
        let (n, r) := r.draw
        let tm := sr.stepTime + 15 + (n % 10 : Nat)
        dueLoop rest (if searchTime = 0 ∨ searchTime > tm then tm else searchTime) r

def stepSearches (s : Globals) (callback : Bool) : Globals :=
  let (searches, r, events) := stepLoop callback s.lookups.searches s.toTables
  let (searchTime, r) := dueLoop searches 0 r
  { s with
    toTables := r
    lookups := { s.lookups with searches := searches }
    searchTime := searchTime
    events := s.events ++ events }

def confirmNodes (s : Globals) : Globals :=
  let (r, soon) := s.toTables.bucketMaintenance .inet
  let (r, soon6) := r.bucketMaintenance .inet6
  let soon := soon || soon6
  let (r, soon) : Tables × Bool :=
    if soon then (r, true)
    else
      let (r, soon) := if r.mybucketGrowTime ≥ r.now - 150 then r.neighbourhoodMaintenance .inet else (r, false)
      let (r, soon6) :=
        if r.mybucket6GrowTime ≥ r.now - 150 then r.neighbourhoodMaintenance .inet6 else (r, false)
      (r, soon || soon6)
  let (n, r) := r.draw
  { s with
    toTables := r
    confirmNodesTime := if soon then r.now + 5 + (n % 20 : Nat) else r.now + 60 + (n % 120 : Nat) }

/-- The label `dontread` of `dht_periodic`. -/
def due (s : Globals) (callback : Bool) : Globals :=
  let s := if s.now ≥ s.secrets.rotateSecretsTime then s.rotateSecrets else s
  let s := if s.now ≥ s.expireStuffTime then s.expireStuff else s
  let s := if s.searchTime > 0 ∧ s.now ≥ s.searchTime then s.stepSearches callback else s
  if s.now ≥ s.confirmNodesTime then s.confirmNodes else s

/-- What `dht_periodic` puts into `tosleep`. -/
def tosleep (s : Globals) : Int :=
  let tosleep := if s.confirmNodesTime > s.now then s.confirmNodesTime - s.now else 0
  if s.searchTime > 0 then
    if s.searchTime ≤ s.now then 0
    else if tosleep > s.searchTime - s.now then s.searchTime - s.now
    else tosleep
  else tosleep

def dhtPeriodic (s : Globals) (now : Int) (packet : Option Packet) (callback : Bool) : Option Globals :=
  let s := s.withTables { s.toTables with now := now }
  match packet with
  | none => some (s.due callback)
  | some p =>
      if p.buf.length = 0 then some (s.due callback)
      else if isMartian p.sender then some (s.due callback)
      else if s.nodeBlacklisted p.sender then some (s.due callback)
      else if !p.terminated then some s
      else
        match parseMessage p.unset p.buf with
        | none => some (s.due callback)
        | some (type, m) => (receive sha256 s p.sender callback type m).map fun s => s.due callback

/-! ### What users ask for -/

def localEvents (st : Storage) (id : Hash) : List Event :=
  st.peers.filterMap fun p =>
    if p.ip.length = 4 then some { event := .values, infoHash := id, data := p.ip ++ netShort p.port }
    else if p.ip.length = 16 then some { event := .values6, infoHash := id, data := p.ip ++ netShort p.port }
    else none

/-- The buckets around the one of a search. -/
def fillAround (s : Globals) (c : Cursor Bucket) (sr : Search) : Search :=
  let sr := match nextBucket c with
    | none => sr
    | some next => sr.insertSearchBucket s.now next.here
  match previousBucket c with
  | none => sr
  | some p => sr.insertSearchBucket s.now p.here

/-- The buckets that `dht_search` takes nodes from. -/
def fillSearch (s : Globals) (c : Cursor Bucket) (sr : Search) : Search :=
  let sr := sr.insertSearchBucket s.now c.here
  let sr := if sr.nodes.length < searchNodes then s.fillAround c sr else sr
  if sr.nodes.length < searchNodes then
    match s.findBucket s.myid sr.af with
    | none => sr
    | some own => sr.insertSearchBucket s.now own.here
  else sr

/-- The search that `dht_search` uses: an old one for the same id, or a new one. -/
def openSearch (s : Globals) (id : Hash) (af : Family) : Option (Searches × Nat) :=
  match s.lookups.searches.findIdx? fun sr => sr.af == af && idCmp sr.id id == .eq with
  | some i =>
      some ({ s.lookups with
        searches := s.lookups.searches.modify i fun sr =>
          { sr with done := false, nodes := Search.again s.now sr.nodes } }, i)
  | none =>
      match s.lookups.newSearch s.now with
      | none => none
      | some (lookups, i) =>
          some ({ lookups with
            searches := lookups.searches.modify i fun sr =>
              { sr with af := af, tid := lookups.searchId, stepTime := 0, id := id, done := false, nodes := [] }
            searchId := lookups.searchId + 1 }, i)

/-- What is stored for the id is served first. -/
def serveLocal (s : Globals) (id : Hash) (callback : Bool) : Globals :=
  if callback then
    match (s.store.findStorage id).bind fun i => s.store.storage[i]? with
    | none => s
    | some st => { s with events := s.events ++ localEvents st id }
  else s

/-- The end of `dht_search`, for the search at a place among the searches. -/
def startSearch (s : Globals) (c : Cursor Bucket) (lookups : Searches) (i : Nat) (sr : Search) (callback : Bool) :
    Globals :=
  let (sr, r, events) := (s.fillSearch c sr).searchStep s.toTables callback
  { s with
    toTables := r
    lookups := { lookups with searches := lookups.searches.set i sr }
    searchTime := s.now
    events := s.events ++ events }

/-- `dht_search`, and what it returns. -/
def dhtSearch (s : Globals) (id : Hash) (port : Int) (af : Family) (callback : Bool) : Globals × Int :=
  match s.findBucket id af with
  | none => (s, -1)
  | some c =>
      let s := s.serveLocal id callback
      match s.openSearch id af with
      | none => (s, -1)
      | some (lookups, i) =>
          match lookups.searches[i]? with
          | none => (s, -1)
          | some sr => (s.startSearch c lookups i { sr with port := UInt16.ofInt port } callback, 1)

def dhtInsertNode (s : Globals) (id : Hash) (sa : SockAddr) : Option Globals :=
  if sa.family ≠ .inet then some s else s.newNode id sa 0

def dhtPingNode (s : Globals) (sa : SockAddr) : Globals := s.withOutbound (s.sendPing sa (makeTid "pn" 0))

def firstBucket (af : Family) : Bucket where
  af := af
  first := zeroes
  count := 0
  time := 0
  nodes := []
  cached := none

/-- The tables of `dht_init`, before `expire_buckets`. The static array `blacklist` is as it was. -/
def initTables (blacklist : Blacklist) (socket socket6 : Bool) (id : Hash) (v : Option (Vector UInt8 4)) (now : Int)
    (random : Nat → Nat) : Tables where
  myid := id
  myV := v
  dhtSocket := socket
  dhtSocket6 := socket6
  blacklist := blacklist
  nextBlacklisted := 0
  random := random
  sent := []
  now := now
  buckets := if socket then [firstBucket .inet] else []
  buckets6 := if socket6 then [firstBucket .inet6] else []
  mybucketGrowTime := now
  mybucket6GrowTime := now
  expireStuffTime := 0

/-- `dht_init`, with the blacklist that is there from before, the time and what `random` and `dht_random_bytes`
are going to give. The other globals are set here, those that are static with a time by `rotate_secrets` and
`expire_buckets`. -/
def dhtInit (blacklist : Blacklist) (socket socket6 : Bool) (id : Hash) (v : Option (Vector UInt8 4)) (now : Int)
    (random : Nat → Nat) (urandom : Nat → Option Secret) : Option Globals :=
  let zero : Secret := Vector.replicate 8 0
  let r := initTables blacklist socket socket6 id v now fun i => random (i + 3)
  let secrets : Secrets := { secret := zero, oldsecret := zero, rotateSecretsTime := 0, urandom := urandom }
  let (secrets, ok) := secrets.rotate now (random 2)
  if !ok then none
  else
    some
      { toTables := (r.expireBuckets .inet).expireBuckets .inet6
        lookups := { searches := [], numsearches := 0, searchId := UInt16.ofNat (random 1) }
        searchTime := 0
        store := { storage := [], numstorage := 0 }
        secrets := secrets
        rateLimit := { tokenBucketTime := now, tokenBucketTokens := maxTokenBucketTokens }
        confirmNodesTime := now + (random 0 % 3 : Nat)
        events := [] }

/-- A call of a function that users have. The time is what `gettimeofday` gives `dht_periodic`. -/
inductive Call where
  | periodic (now : Int) (packet : Option Packet) (callback : Bool)
  | search (id : Hash) (port : Int) (af : Family) (callback : Bool)
  | insertNode (id : Hash) (sa : SockAddr)
  | pingNode (sa : SockAddr)

def call (s : Globals) : Call → Option Globals
  | .periodic now packet callback => dhtPeriodic sha256 s now packet callback
  | .search id port af callback => some (s.dhtSearch id port af callback).1
  | .insertNode id sa => s.dhtInsertNode id sa
  | .pingNode sa => some (s.dhtPingNode sa)

/-- One call after the other. -/
def calls (s : Globals) (cs : List Call) : Option Globals := attempts (call sha256) s cs

/-- The states that calls lead to after a `dht_init` that succeeded, until `dht_uninit`. -/
inductive Reachable : Globals → Prop
  | init {s : Globals} (blacklist : Blacklist) (socket socket6 : Bool) (id : Hash) (v : Option (Vector UInt8 4))
      (now : Int) (random : Nat → Nat) (urandom : Nat → Option Secret)
      (hinit : dhtInit blacklist socket socket6 id v now random urandom = some s) : Reachable s
  | call {s s' : Globals} (hs : Reachable s) (c : Call) (hcall : s.call sha256 c = some s') : Reachable s'

end Globals

end CLibp2p.Routing.Dht
