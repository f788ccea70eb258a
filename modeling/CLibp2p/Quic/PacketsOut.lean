import CLibp2p.Stream.Bytes

/-!
# Sending the packets of lsquic

`quic_packets_out` of `v2/src/net/quic_dial.c` and `quic_listen_packets_out` of
`v2/src/net/quic_listen.c`, the two functions that lsquic hands its packets to.
-/

namespace CLibp2p.Quic

open Duplex

/-- `struct lsquic_out_spec`: the pieces of a packet and where it goes. -/
structure OutSpec where
  iov : List Bytes
  destSa : Bytes
deriving Repr, DecidableEq

/-- What a call of `sendto` comes to: it sent the datagram, or failed with `EAGAIN` or `EWOULDBLOCK`, or
failed otherwise. -/
inductive SendtoResult where
  | sent
  | wouldBlock
  | failed
deriving Repr, DecidableEq

/-- A datagram that was sent, with the place of its spec in the array. -/
structure Datagram where
  spec : Nat
  destSa : Bytes
  bytes : Bytes
deriving Repr, DecidableEq

/-- What has been sent, how many calls of `sendto` have sent something, and the result of the one that
did not. -/
structure PacketsOut where
  datagrams : List Datagram
  total : Nat
  stop : Option SendtoResult
deriving Repr, DecidableEq

/-- The inner loop. `sends` gives the result of each call of `sendto`. -/
def sendIovecs (sends : Nat → SendtoResult) (i : Nat) (destSa : Bytes) :
    (total : Nat) → (iov : List Bytes) → PacketsOut
  | total, [] => ⟨[], total, none⟩
  | total, iovec :: iov =>
      match sends total with
      | .sent =>
          let rest := sendIovecs sends i destSa (total + 1) iov
          { rest with datagrams := ⟨i, destSa, iovec⟩ :: rest.datagrams }
      | result => ⟨[], total, some result⟩

/-- The outer loop, from the spec with the index `i` on. -/
def sendSpecs (sends : Nat → SendtoResult) : (i total : Nat) → (specs : List OutSpec) → PacketsOut
  | _, total, [] => ⟨[], total, none⟩
  | i, total, spec :: specs =>
      let first := sendIovecs sends i spec.destSa total spec.iov
      if first.stop = none then
        let rest := sendSpecs sends (i + 1) first.total specs
        { rest with datagrams := first.datagrams ++ rest.datagrams }
      else first

/-- What is returned. It is counted in an `int`. -/
def PacketsOut.ret (out : PacketsOut) : Int :=
  if out.stop = some .failed then -1 else intOfSize out.total

/-- The body that the two functions share. They differ in the socket and in the name they log under. -/
def packetsOut (sends : Nat → SendtoResult) (specs : List OutSpec) : PacketsOut :=
  sendSpecs sends 0 0 specs

/-- `quic_packets_out`. -/
def quicPacketsOut (sends : Nat → SendtoResult) (specs : List OutSpec) : PacketsOut :=
  packetsOut sends specs

/-- `quic_listen_packets_out`. -/
def quicListenPacketsOut (sends : Nat → SendtoResult) (specs : List OutSpec) : PacketsOut :=
  packetsOut sends specs

end CLibp2p.Quic
