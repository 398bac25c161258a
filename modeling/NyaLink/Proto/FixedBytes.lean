import NyaLink.Proto.Frame

/-!
# Fixed-size fields

Byte arrays of a fixed length: session ids, nonces and proofs.
-/

namespace NyaLink

def sessionIdLen : Nat := 16

def nonceLen : Nat := 32

def proofLen : Nat := 32

/-- `[u8; n]`. -/
structure ByteArrayOf (n : Nat) where
  bytes : Bytes
  length_eq : bytes.length = n
  deriving DecidableEq

abbrev SessionId := ByteArrayOf sessionIdLen

/-- `[value; n]`. -/
def ByteArrayOf.replicate (n : Nat) (value : UInt8) : ByteArrayOf n :=
  ⟨List.replicate n value, List.length_replicate⟩

end NyaLink
