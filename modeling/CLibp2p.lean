import CLibp2p.Stream.Loop
import CLibp2p.Stream.Bytes
import CLibp2p.Stream.Net
import CLibp2p.Machine.Runs
import CLibp2p.Machine.SlotTable
import CLibp2p.Machine.ProbeTable
import CLibp2p.Protobuf
import CLibp2p.Yamux.Session
import CLibp2p.Proof.YamuxBoundary
import CLibp2p.Proof.YamuxSendWindow
import CLibp2p.Proof.YamuxAccept
import CLibp2p.Proof.YamuxRecvWindow
import CLibp2p.Proof.YamuxDelivery
import CLibp2p.YamuxV1.Run
import CLibp2p.Proof.YamuxV1Table
import CLibp2p.Proof.YamuxV1Slots
import CLibp2p.Proof.YamuxV1Backlog
import CLibp2p.Proof.YamuxV1Headers
import CLibp2p.Proof.YamuxV1States
import CLibp2p.Proof.YamuxV1Ids
import CLibp2p.Proof.YamuxV1Errors
import CLibp2p.Proof.YamuxV1Cuts
import CLibp2p.Noise.Handshake
import CLibp2p.Proof.NoiseNonce
import CLibp2p.Proof.NoiseReading
import CLibp2p.Proof.NoiseIdentity
import CLibp2p.Proof.NoiseAgreement
import CLibp2p.Secio.Handshake
import CLibp2p.Proof.SecioAgreement
import CLibp2p.Secio.Peers
import CLibp2p.Proof.SecioPeers
import CLibp2p.Net.Multistream
import CLibp2p.Proof.Multistream
import CLibp2p.Net.CanHandle
import CLibp2p.Proof.CanHandle
import CLibp2p.Utils.Vector
import CLibp2p.Proof.Vector
import CLibp2p.Secio.Cipher
import CLibp2p.Proof.SecioCipher
import CLibp2p.Secio.Socket
import CLibp2p.Proof.SecioSocket
import CLibp2p.Hashmap.Hashmap
import CLibp2p.Proof.Hashmap
import CLibp2p.Protobuf.Fields
import CLibp2p.Proof.ProtobufFields
import CLibp2p.Record.Record
import CLibp2p.Proof.Record
import CLibp2p.Peer.Peer
import CLibp2p.Record.Message
import CLibp2p.Proof.Message
import CLibp2p.Identify.Identify
import CLibp2p.Proof.Identify
import CLibp2p.Proof.PeerId
import CLibp2p.Crypto.Key
import CLibp2p.Proof.ProtobufReach
import CLibp2p.Proof.PrefixOnly
import CLibp2p.Proof.UnknownFields
import CLibp2p.Routing.Kademlia
import CLibp2p.Proof.Kademlia
import CLibp2p.Peer.PeerEntries
import CLibp2p.Proof.PeerEntries
import CLibp2p.Crypto.Base58
import CLibp2p.Proof.Base58
import CLibp2p.Routing.DhtUtils
import CLibp2p.Routing.DhtProtocol
import CLibp2p.Proof.DhtProtocol
import CLibp2p.Quic.Dial
import CLibp2p.Proof.QuicDial
import CLibp2p.Quic.Listen
import CLibp2p.Proof.QuicListenRefs
import CLibp2p.Proof.QuicListenStreams
import CLibp2p.Stream.Trace
import CLibp2p.Proof.YamuxControl
import CLibp2p.Proof.NoiseAdversary
import CLibp2p.Net.Multiaddr
import CLibp2p.Identify.IdentifyV2
import CLibp2p.Proof.IdentifyV2
import CLibp2p.Proof.SecioAdversary
import CLibp2p.Proof.YamuxFin
import CLibp2p.Proof.NoisePayload
import CLibp2p.Proof.MultistreamRead
import CLibp2p.Net.MultistreamV1
import CLibp2p.Proof.MultistreamFrames
import CLibp2p.Proof.YamuxV1Fin
import CLibp2p.Proof.YamuxV1Write
import CLibp2p.YamuxV1.ReadRaw
import CLibp2p.Proof.YamuxV1ReadRaw
import CLibp2p.Secio.EncryptedRead
import CLibp2p.Proof.SecioEncryptedRead
import CLibp2p.Machine.Window
import CLibp2p.Proof.DhtUtils
import CLibp2p.Routing.SearchKademlia
import CLibp2p.Proof.Backoff
import CLibp2p.Proof.EncodeSizes
import CLibp2p.Quic.PacketsOut
import CLibp2p.Proof.QuicPacketsOut
import CLibp2p.Secio.ReadRaw
import CLibp2p.Proof.SecioReadRaw
import CLibp2p.Stream.KeyStream
import CLibp2p.Secio.StreamV2
import CLibp2p.Proof.SecioStreamV2
import CLibp2p.Net.WsDial
import CLibp2p.Proof.WsDial
import CLibp2p.Proof.Base58Strings
import CLibp2p.Machine.Register
import CLibp2p.Proof.KademliaValues
import CLibp2p.Proof.SearchKademlia
import CLibp2p.Crypto.Base58Encode
import CLibp2p.Proof.Base58Encode
import CLibp2p.Os.Utils
import CLibp2p.Proof.Strnstr
import CLibp2p.Conn.Tls
import CLibp2p.Proof.Alpn
import CLibp2p.Asn1.Der
import CLibp2p.Proof.SignedKey
import CLibp2p.Machine.Queue
import CLibp2p.Utils.ThreadsafeBuffer
import CLibp2p.Proof.ThreadsafeBuffer
import CLibp2p.Utils.UrlEncode
import CLibp2p.Proof.UrlEncode
import CLibp2p.Net.ConnectionRead
import CLibp2p.Proof.ConnectionRead
import CLibp2p.Net.Mdns
import CLibp2p.Proof.Mdns
import CLibp2p.Proof.Multiaddr
import CLibp2p.Ip.Text
import CLibp2p.Discovery.PrivateAddress
import CLibp2p.Proof.PrivateAddress
import CLibp2p.Machine.Dyadic
import CLibp2p.Machine.Tiling
import CLibp2p.Routing.Dht.Ids
import CLibp2p.Proof.DhtBlacklist
import CLibp2p.Proof.DhtIds
import CLibp2p.Routing.Dht.Outbound
import CLibp2p.Routing.Dht.Table
import CLibp2p.Proof.DhtTable
import CLibp2p.Proof.DhtSplit
import CLibp2p.Proof.DhtNewNode
import CLibp2p.Routing.Dht.Storage
import CLibp2p.Routing.Dht.Search
import CLibp2p.Routing.Dht.Reply
import CLibp2p.Routing.Dht.Parse
import CLibp2p.Routing.Dht.Maintenance
import CLibp2p.Routing.Dht.Periodic
import CLibp2p.Proof.DhtMaintenance
import CLibp2p.Machine.Nearest
import CLibp2p.Proof.DhtSearch
import CLibp2p.Machine.Keyed
import CLibp2p.Proof.DhtStorage
import CLibp2p.Proof.DhtPeriodic
import CLibp2p.Proof.DhtReachable
import CLibp2p.Proof.DhtReply
import CLibp2p.Proof.DhtLookups
import CLibp2p.Machine.Attempts
import CLibp2p.Machine.Ring
import CLibp2p.Proof.DhtRuns
import CLibp2p.Proof.DhtStored
