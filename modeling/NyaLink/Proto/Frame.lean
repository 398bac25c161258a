import Mathlib.Algebra.Group.Nat.Defs
import Mathlib.Data.List.Basic

/-!
# Stream frames

The frames of the overlay protocol that carry stream state between two
sessions, with the bounds of the wire format that the session logic reads.
-/

namespace NyaLink

abbrev Bytes := List UInt8

def maxStreamPayload : Nat := 16 * 1024 - 16

def maxSackRanges : Nat := 8

/-- Largest value of a `u32` field. -/
def u32Max : Nat := 2 ^ 32 - 1

inductive ResetReason where
  | unknown
  | dialFailed
  | timeout
  | peerReset
  | sessionDead
  | protocol
  deriving DecidableEq, Repr

structure Target where
  host : String
  port : Nat
  deriving DecidableEq, Repr

structure StreamOpen where
  streamId : Nat
  target : Target
  deriving DecidableEq, Repr

structure StreamData where
  streamId : Nat
  offset : Nat
  data : Bytes
  deriving DecidableEq, Repr

/-- `sack` lists `[start, end)` byte ranges buffered past `ackedOffset`. -/
structure StreamAck where
  streamId : Nat
  ackedOffset : Nat
  window : Nat
  sack : List (Nat × Nat)
  deriving DecidableEq, Repr

def StreamAck.edge (ack : StreamAck) : Nat := ack.ackedOffset + ack.window

/-- `finalOffset` is `send_next` at FIN; old peers leave it out. -/
structure StreamClose where
  streamId : Nat
  finalOffset : Option Nat
  deriving DecidableEq, Repr

structure StreamReset where
  streamId : Nat
  reason : ResetReason
  deriving DecidableEq, Repr

inductive Frame where
  | streamOpen (body : StreamOpen)
  | streamData (body : StreamData)
  | streamAck (body : StreamAck)
  | streamClose (body : StreamClose)
  | streamReset (body : StreamReset)
  deriving DecidableEq, Repr

end NyaLink
