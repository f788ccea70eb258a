import CLibp2p.Machine.Runs
import CLibp2p.YamuxV1.Session

/-!
# Runs of the v1 multiplexer

The operations that its users and its reader call, each as one step of a session.
-/

namespace CLibp2p.YamuxV1

open Duplex

/-- A call with its arguments. Channel contexts and slots are given by position. -/
inductive Op where
  | channelNew (id : UInt32)
  | streamFree (slot : Nat)
  | handleMessage
  | decode (incoming : Bytes)
  | streamInit (channel : Nat)
  | streamWindowUpdate (channel : Nat) (delta : UInt32)
  | streamClose (channel : Nat)
  | streamCloseSession
  | streamReset (channel : Nat)
  | streamWrite (channel : Nat) (data : Bytes) (rounds : Nat)
  | write (channel : Nat) (message : Bytes)
  | writeSession (message : Bytes)
  | getNextId
  | handleUpgrade (channel : Nat)
  | sendGoAway (channel : Option Nat)
  | channelSendFin (channel : Nat)
  | sessionClose (err : UInt32)
  | sessionPing (value : UInt32) (pong : Bool)
deriving Repr, DecidableEq

/-- What a call leaves behind. -/
def step (env : Env) (ctx : Context) : Op → Context
  | .channelNew id => (channelNew ctx id).2
  | .streamFree slot => streamFree ctx slot
  | .handleMessage => (handleMessage ctx).2
  | .decode incoming => (decode env ctx incoming).2.2
  | .streamInit c => (streamInit env ctx c).2
  | .streamWindowUpdate c delta => (streamWindowUpdate env ctx c delta).2
  | .streamClose c => (streamClose env ctx c).2
  | .streamCloseSession => (streamCloseSession env ctx).2
  | .streamReset c => (streamReset env ctx c).2
  | .streamWrite c data rounds => (streamWrite env ctx c data rounds).2
  | .write c message => (yamuxWrite env ctx c message).2
  | .writeSession message => (yamuxWriteSession env ctx message).2
  | .getNextId => (getNextId ctx).2
  | .handleUpgrade c => (handleUpgrade ctx c).2
  | .sendGoAway channel? => sendGoAway env ctx channel?
  | .channelSendFin c => channelSendFin env ctx c
  | .sessionClose err => (sessionClose env ctx err).2
  | .sessionPing value pong => (sessionPing env ctx value pong).2

/-- A new session on a context in this state, whose parent stream will answer writes like this. -/
def sessionStart (acceptBacklog : Nat) (amServer : Bool) (state : StreamState)
    (outcomes : List Bool) : Context :=
  { sessionNew acceptBacklog amServer with state, outcomes }

end CLibp2p.YamuxV1
