import CLibp2p.Crypto.Base58
import CLibp2p.Os.Utils
import CLibp2p.Record.Message
import CLibp2p.Routing.DhtUtils
import CLibp2p.Utils.Vector

/-!
# The DHT protocol

The handlers of `routing/dht_protocol.c` over the peerstore, the provider store of
`peer/providerstore.c` and the datastore. A request is a message that has been decoded. Memory is always
granted. Where the code leaves the memory it may use, there is no result. The datastore, the filestore,
the hash and the multiaddress library are not part of the repository.
-/

namespace CLibp2p.Routing

open Duplex Peer Record Utils Crypto

/-! ### The messages that are handled -/

def kadId : CString := ⟨"/ipfs/kad".toUTF8.toList, by decide +kernel⟩

/-- `libp2p_routing_dht_can_handle`, where the search has a result. -/
def dhtCanHandle (msg : CanHandle.StreamMessage) : Option Bool :=
  match msg.data with
  | none => some false
  | some data =>
      if msg.dataSize = 0 then some false
      else if msg.dataSize < 8 then some false
      else
        match Os.strnstr data kadId msg.dataSize with
        | .found position => some (decide (position = 0))
        | .null => some false
        | .overflow => none

/-! ### Messages with whole peers -/

def connectionTypeCode : ConnectionType → UInt32
  | .notConnected => 0
  | .connected => 1
  | .canConnect => 2
  | .cannotConnect => 3

/-- `libp2p_peer_copy` of a peer in the peerstore, for a message. The session comes with it. -/
def copyOut (peer : Libp2pPeer) : GivenPeer where
  id := peer.id
  addrItems := peer.addresses.map some
  connectionType := peer.connectionType
  sessionContext := peer.sessionContext
  isLocal := peer.isLocal

def sentPeer (peer : GivenPeer) : SentPeer MultiAddress :=
  ⟨peer.id, peer.addrItems, connectionTypeCode peer.connectionType⟩

inductive MessageType where
  | putValue
  | getValue
  | addProvider
  | getProviders
  | findNode
  | ping
deriving Repr, DecidableEq

def MessageType.code : MessageType → UInt32
  | .putValue => 0
  | .getValue => 1
  | .addProvider => 2
  | .getProviders => 3
  | .findNode => 4
  | .ping => 5

/-- `struct KademliaMessage` in memory, where its peers have sessions. -/
structure DhtMessage where
  messageType : MessageType
  key : Option Bytes
  record : Option Libp2pRecord
  closerPeers : List GivenPeer
  providerPeers : List GivenPeer
  clusterLevelRaw : Int32
deriving DecidableEq

namespace DhtMessage

/-- The `key_size` bytes at `key`. -/
def keyBytes (message : DhtMessage) : Bytes := message.key.getD []

def sent (message : DhtMessage) : KademliaMessage MultiAddress where
  messageType := message.messageType.code
  key := message.key
  record := message.record
  closerPeers := message.closerPeers.map sentPeer
  providerPeers := message.providerPeers.map sentPeer
  clusterLevelRaw := message.clusterLevelRaw

end DhtMessage

/-! ### The stores -/

/-- What is not part of the repository, and whether the log class `dht_protocol` is watched. -/
structure DhtLibrary (δ : Type) where
  multiaddr : MultiaddrLibrary
  isIp : Option MultiAddress → Bool
  sha256 : Bytes → Bytes
  fields : FieldLibrary
  bytes : MultiaddrBytes MultiAddress
  datastoreGet : δ → Bytes → Bool
  datastorePut : δ → (key value : Bytes) → δ
  nodeGet : Bytes → Option Bytes
  watching : Bool

structure ProviderEntry where
  hash : Bytes
  peerId : Bytes
deriving Repr, DecidableEq

/-- `struct DhtContext`, with the id of the local peer in the provider store and with the sessions that
have been freed so far. -/
structure DhtContext (δ : Type) where
  peerStore : PeerEntries
  providers : Libp2pVector ProviderEntry
  localId : Bytes
  datastore : δ
  freed : List Nat

variable {δ : Type}

/-- `libp2p_providerstore_add`. A vector that cannot grow is written behind its end. -/
def providerstoreAdd (providers : Libp2pVector ProviderEntry) (entry : ProviderEntry) :
    Option (Libp2pVector ProviderEntry) :=
  if providers.total < providers.capacity ∨ providers.capacity * 2 < intBound then
    some (providers.add (some entry) true)
  else none

/-- `libp2p_providerstore_get`. -/
def providerstoreGet (lib : DhtLibrary δ) (context : DhtContext δ) (hash : Bytes) : Option Bytes :=
  if lib.datastoreGet context.datastore hash then some context.localId
  else
    (context.providers.contents.reduceOption.find? fun entry => entry.hash == hash).map
      ProviderEntry.peerId

/-! ### Handlers -/

/-- The message that was encoded and its bytes. -/
structure Reply where
  message : DhtMessage
  bytes : Bytes
deriving DecidableEq

/-- `libp2p_routing_dht_protobuf_message`. If it fails it leaves a pointer to freed memory in `*buffer`,
which its callers take for a result and free. -/
def protobufMessage (lib : DhtLibrary δ) (message : DhtMessage) : Option Reply :=
  (messageEncode lib.fields lib.bytes message.sent (messageEncodeSize lib.bytes message.sent)).map
    fun bytes => ⟨message, bytes⟩

/-- `libp2p_routing_dht_add_closer_peers`, for a message that has none yet. -/
def closerPeers (lib : DhtLibrary δ) (peerStore : PeerEntries) (targetKey : Bytes) : List GivenPeer :=
  (findClosestPeers lib.sha256 peerStore targetKey 3).map copyOut

/-- The peers that `libp2p_routing_dht_handle_get_providers` puts into the message. A key that nobody
provides is logged in base58. -/
def providersFor (lib : DhtLibrary δ) (context : DhtContext δ) (key : Bytes) :
    Option (List GivenPeer) :=
  if lib.datastoreGet context.datastore key then
    context.peerStore.getLocalPeer.map fun peer => [copyOut peer]
  else
    match providerstoreGet lib context key with
    | some peerId =>
        match getPeer context.peerStore.nodes peerId with
        | some i => do
            let peer ← context.peerStore.nodes[i]?
            let _ ← peerIdToString peer.id
            some [copyOut peer]
        | none => some []
    | none => if base58Strays key 100 then none else some []

/-- The message with these providers, and with the peers of the peerstore that are closer to its key. -/
def fillPeers (lib : DhtLibrary δ) (context : DhtContext δ) (message : DhtMessage)
    (providers : List GivenPeer) : DhtMessage :=
  { message with
    providerPeers := providers
    closerPeers := closerPeers lib context.peerStore message.keyBytes }

/-- `libp2p_routing_dht_handle_get_providers`. -/
def handleGetProviders (lib : DhtLibrary δ) (context : DhtContext δ) (message : DhtMessage) :
    Option Reply := do
  let providers ← providersFor lib context message.keyBytes
  protobufMessage lib (fillPeers lib context message providers)

/-- The log message about the first peer, for those who watch it. Nobody has looked whether there is one. -/
def logProvider (lib : DhtLibrary δ) (message : DhtMessage) : Option Unit :=
  if lib.watching then
    match message.providerPeers with
    | [] => none
    | peer :: _ => (peerIdToString peer.id).map fun _ => ()
  else some ()

/-- `libp2p_routing_dht_handle_add_provider`. -/
def handleAddProvider (lib : DhtLibrary δ) (context : DhtContext δ) (message : DhtMessage) :
    Option (DhtContext δ × Option Reply) := do
  let _ ← logProvider lib message
  match message.providerPeers with
  | [] => some (context, none)
  | peer :: _ =>
      match (peer.addrItems.find? lib.isIp).join with
      | none => some (context, none)
      | some _ => do
          let (peerStore, added) ← context.peerStore.addPeer lib.multiaddr peer
          if added then
            let providers ← providerstoreAdd context.providers ⟨message.keyBytes, peer.id⟩
            let reply ← protobufMessage lib message
            some ({ context with peerStore, providers }, some reply)
          else some ({ context with peerStore }, none)

/-- The message with the record that `libp2p_routing_dht_handle_get_value` makes. -/
def fillRecord (message : DhtMessage) (data : Bytes) : DhtMessage :=
  { message with record := some ⟨message.keyBytes, data, [], [], []⟩ }

/-- `libp2p_routing_dht_handle_get_value`. A key that is not there is logged in base58. -/
def handleGetValue (lib : DhtLibrary δ) (message : DhtMessage) : Option (Option Reply) :=
  match lib.nodeGet message.keyBytes with
  | none => if base58Strays message.keyBytes 100 then none else some none
  | some data => (protobufMessage lib (fillRecord message data)).map some

/-- `libp2p_routing_dht_handle_put_value`. -/
def handlePutValue (lib : DhtLibrary δ) (context : DhtContext δ) (message : DhtMessage) : DhtContext δ :=
  match message.record with
  | none => context
  | some record =>
      { context with datastore := lib.datastorePut context.datastore record.key record.value }

/-- The message as `libp2p_routing_dht_handle_find_node` fills it. -/
def findNodeMessage (lib : DhtLibrary δ) (context : DhtContext δ) (message : DhtMessage) : DhtMessage :=
  match getPeer context.peerStore.nodes message.keyBytes with
  | some i =>
      { message with
        providerPeers := context.peerStore.nodes[i]?.toList.map copyOut
        closerPeers := [] }
  | none => fillPeers lib context message []

/-- `libp2p_routing_dht_handle_find_node`. -/
def handleFindNode (lib : DhtLibrary δ) (context : DhtContext δ) (message : DhtMessage) :
    Option Reply :=
  protobufMessage lib (findNodeMessage lib context message)

/-- The sessions of closer peers that `libp2p_message_free` frees. Those of providers it leaves alone. -/
def freeSessions : (freed sessions : List Nat) → Option (List Nat)
  | freed, [] => some freed
  | freed, session :: sessions =>
      if session ∈ freed then none else freeSessions (session :: freed) sessions

/-- The `switch` of `libp2p_routing_dht_handle_message`. -/
def handleRequest (lib : DhtLibrary δ) (context : DhtContext δ) (message : DhtMessage) :
    Option (DhtContext δ × Option Reply) :=
  match message.messageType with
  | .putValue => some (handlePutValue lib context message, none)
  | .getValue => (handleGetValue lib message).map fun reply => (context, reply)
  | .addProvider => handleAddProvider lib context message
  | .getProviders => (handleGetProviders lib context message).map fun reply => (context, some reply)
  | .findNode => (handleFindNode lib context message).map fun reply => (context, some reply)
  | .ping => (protobufMessage lib message).map fun reply => (context, some reply)

/-- `libp2p_routing_dht_handle_message`, from the decoded message to `libp2p_message_free`. -/
def handleMessage (lib : DhtLibrary δ) (context : DhtContext δ) (message : DhtMessage) :
    Option (DhtContext δ × Option Reply) := do
  let (context, reply) ← handleRequest lib context message
  let message := (reply.map Reply.message).getD message
  let freed ← freeSessions context.freed (message.closerPeers.filterMap GivenPeer.sessionContext)
  some ({ context with freed }, reply)

end CLibp2p.Routing
