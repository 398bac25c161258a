import NyaLink.Library.Parse
import NyaLink.Proto.FixedBytes

/-!
# Frames on the wire

All thirteen frames with the widths of their fields, `encode`, `decode`, and the
round trip between them.  Encoder and decoder are translated separately.  A
string longer than its length prefix can say is cut by the encoder; the framing
refuses such a frame.
-/

namespace NyaLink.Wire

inductive ProtoError where
  | io
  | badLength (length : Nat)
  | truncated
  | unknownType (typ : UInt8)
  | invalid (field : String)
  | version (version : UInt8)
  deriving DecidableEq, Repr

structure Target where
  host : String
  port : UInt16
  deriving DecidableEq, Repr

structure Ping where
  seq : UInt64
  sentAtMs : UInt64
  deriving DecidableEq, Repr

structure Pong where
  seq : UInt64
  sentAtMs : UInt64
  deriving DecidableEq, Repr

structure CreateSession where
  version : UInt8
  userId : String
  nonce : ByteArrayOf nonceLen
  proof : ByteArrayOf proofLen
  /-- Empty when an old peer left it out. -/
  pathName : String
  deriving DecidableEq

structure CreateSessionOk where
  sessionId : SessionId
  deriving DecidableEq

structure JoinSession where
  sessionId : SessionId
  pathName : String
  proof : ByteArrayOf proofLen
  deriving DecidableEq

structure HandshakeErr where
  message : String
  deriving DecidableEq, Repr

structure StreamOpen where
  streamId : UInt32
  target : Target
  deriving DecidableEq, Repr

structure StreamData where
  streamId : UInt32
  offset : UInt64
  data : Bytes
  deriving DecidableEq, Repr

structure StreamAck where
  streamId : UInt32
  ackedOffset : UInt64
  window : UInt32
  sack : List (UInt64 × UInt64)
  deriving DecidableEq, Repr

structure StreamClose where
  streamId : UInt32
  finalOffset : Option UInt64
  deriving DecidableEq, Repr

structure StreamReset where
  streamId : UInt32
  reason : ResetReason
  deriving DecidableEq, Repr

inductive Frame where
  | ping (body : Ping)
  | pong (body : Pong)
  | createSession (body : CreateSession)
  | createSessionOk (body : CreateSessionOk)
  | joinSession (body : JoinSession)
  | joinSessionOk
  | handshakeErr (body : HandshakeErr)
  | streamOpen (body : StreamOpen)
  | streamData (body : StreamData)
  | streamAck (body : StreamAck)
  | streamClose (body : StreamClose)
  | streamReset (body : StreamReset)
  | sessionClose
  deriving DecidableEq

@[match_pattern] def tPing : UInt8 := 0x01
@[match_pattern] def tPong : UInt8 := 0x02
@[match_pattern] def tCreate : UInt8 := 0x03
@[match_pattern] def tCreateOk : UInt8 := 0x04
@[match_pattern] def tJoin : UInt8 := 0x05
@[match_pattern] def tJoinOk : UInt8 := 0x06
@[match_pattern] def tHsErr : UInt8 := 0x07
@[match_pattern] def tOpen : UInt8 := 0x08
@[match_pattern] def tData : UInt8 := 0x09
@[match_pattern] def tAck : UInt8 := 0x0a
@[match_pattern] def tClose : UInt8 := 0x0b
@[match_pattern] def tReset : UInt8 := 0x0c
@[match_pattern] def tSessClose : UInt8 := 0x0e

/-- Largest value of a `u16` field. -/
def u16Max : Nat := 2 ^ 16 - 1

/-! ## Encoding -/

def asBytes (s : String) : Bytes := s.toUTF8.data.toList

/-- A string longer than `u16Max` bytes is cut there. -/
def putStr (s : String) : Bytes :=
  let b := asBytes s
  let len := min b.length u16Max
  beBytes 2 len ++ b.take len

def u16Bytes (value : UInt16) : Bytes := beBytes 2 value.toNat

def u32Bytes (value : UInt32) : Bytes := beBytes 4 value.toNat

def u64Bytes (value : UInt64) : Bytes := beBytes 8 value.toNat

/-- `reason as u8`. -/
def reasonByte : ResetReason → UInt8
  | .unknown => 0
  | .dialFailed => 1
  | .timeout => 2
  | .peerReset => 3
  | .sessionDead => 4
  | .protocol => 5

def rangeBytes (range : UInt64 × UInt64) : Bytes := u64Bytes range.1 ++ u64Bytes range.2

/-- At most `maxSackRanges` ranges, after their count; nothing when there are none. -/
def putSack (sack : List (UInt64 × UInt64)) : Bytes :=
  if sack.isEmpty then []
  else
    let n := min sack.length maxSackRanges
    UInt8.ofNat n :: (sack.take n).flatMap rangeBytes

def encode : Frame → Bytes
  | .ping p => tPing :: (u64Bytes p.seq ++ u64Bytes p.sentAtMs)
  | .pong p => tPong :: (u64Bytes p.seq ++ u64Bytes p.sentAtMs)
  | .createSession c =>
      tCreate :: ([c.version] ++ (putStr c.userId ++ (c.nonce.bytes ++ (c.proof.bytes ++
        putStr c.pathName))))
  | .createSessionOk c => tCreateOk :: c.sessionId.bytes
  | .joinSession j => tJoin :: (j.sessionId.bytes ++ (putStr j.pathName ++ j.proof.bytes))
  | .joinSessionOk => [tJoinOk]
  | .handshakeErr e => tHsErr :: putStr e.message
  | .streamOpen s =>
      tOpen :: (u32Bytes s.streamId ++ (u16Bytes s.target.port ++ putStr s.target.host))
  | .streamData s => tData :: (u32Bytes s.streamId ++ (u64Bytes s.offset ++ s.data))
  | .streamAck s =>
      tAck :: (u32Bytes s.streamId ++ (u64Bytes s.ackedOffset ++ (u32Bytes s.window ++
        putSack s.sack)))
  | .streamClose s => tClose :: (u32Bytes s.streamId ++ (s.finalOffset.map u64Bytes).getD [])
  | .streamReset s => tReset :: (u32Bytes s.streamId ++ [reasonByte s.reason])
  | .sessionClose => [tSessClose]

/-! ## Decoding -/

abbrev Parser := ByteParser ProtoError

namespace Parser

def bytes (n : Nat) : Parser Bytes := ByteParser.take .truncated n

def u8 : Parser UInt8 := UInt8.ofNat <$> ByteParser.number .truncated 1

def u16 : Parser UInt16 := UInt16.ofNat <$> ByteParser.number .truncated 2

def u32 : Parser UInt32 := UInt32.ofNat <$> ByteParser.number .truncated 4

def u64 : Parser UInt64 := UInt64.ofNat <$> ByteParser.number .truncated 8

def str : Parser String := do
  let len ← u16
  let b ← bytes len.toNat
  match String.fromUTF8? ⟨b.toArray⟩ with
  | some s => pure s
  | none => throw (.invalid "utf8")

def rest : Parser Bytes := ByteParser.rest

/-- `copy_from_slice` of `n` bytes. -/
def array (n : Nat) : Parser (ByteArrayOf n) := do
  let b ← bytes n
  if width : b.length = n then pure ⟨b, width⟩ else throw .truncated

end Parser

/-- `ResetReason::from_u8`. -/
def reasonOf : UInt8 → ResetReason
  | 1 => .dialFailed
  | 2 => .timeout
  | 3 => .peerReset
  | 4 => .sessionDead
  | 5 => .protocol
  | _ => .unknown

def sackRange : Parser (UInt64 × UInt64) := do
  let a ← Parser.u64
  let b ← Parser.u64
  pure (a, b)

/-- Ranges after their count; an old peer leaves both out. -/
def trailingSack : Parser (List (UInt64 × UInt64)) := do
  let left ← Parser.rest
  if left.isEmpty then pure []
  else
    let n ← Parser.u8
    ByteParser.times sackRange (min n.toNat maxSackRanges)

def trailingName : Parser String := do
  let left ← Parser.rest
  if left.isEmpty then pure "" else Parser.str

def trailingOffset : Parser (Option UInt64) := do
  let left ← Parser.rest
  if 8 ≤ left.length then some <$> Parser.u64 else pure none

/-- The body of a frame of a type. -/
def decodeBody : UInt8 → Parser Frame
  | tPing => do
      let seq ← Parser.u64
      let sentAtMs ← Parser.u64
      pure (.ping ⟨seq, sentAtMs⟩)
  | tPong => do
      let seq ← Parser.u64
      let sentAtMs ← Parser.u64
      pure (.pong ⟨seq, sentAtMs⟩)
  | tCreate => do
      let version ← Parser.u8
      let userId ← Parser.str
      let nonce ← Parser.array nonceLen
      let proof ← Parser.array proofLen
      let pathName ← trailingName
      pure (.createSession ⟨version, userId, nonce, proof, pathName⟩)
  | tCreateOk => do
      let sessionId ← Parser.array sessionIdLen
      pure (.createSessionOk ⟨sessionId⟩)
  | tJoin => do
      let sessionId ← Parser.array sessionIdLen
      let pathName ← Parser.str
      let proof ← Parser.array proofLen
      pure (.joinSession ⟨sessionId, pathName, proof⟩)
  | tJoinOk => pure .joinSessionOk
  | tHsErr => do
      let message ← Parser.str
      pure (.handshakeErr ⟨message⟩)
  | tOpen => do
      let streamId ← Parser.u32
      let port ← Parser.u16
      let host ← Parser.str
      pure (.streamOpen ⟨streamId, host, port⟩)
  | tData => do
      let streamId ← Parser.u32
      let offset ← Parser.u64
      let data ← Parser.rest
      pure (.streamData ⟨streamId, offset, data⟩)
  | tAck => do
      let streamId ← Parser.u32
      let ackedOffset ← Parser.u64
      let window ← Parser.u32
      let sack ← trailingSack
      pure (.streamAck ⟨streamId, ackedOffset, window, sack⟩)
  | tClose => do
      let streamId ← Parser.u32
      let finalOffset ← trailingOffset
      pure (.streamClose ⟨streamId, finalOffset⟩)
  | tReset => do
      let streamId ← Parser.u32
      let reason ← Parser.u8
      pure (.streamReset ⟨streamId, reasonOf reason⟩)
  | tSessClose => pure .sessionClose
  | typ => throw (.unknownType typ)

def decode : Bytes → Except ProtoError Frame
  | [] => .error .truncated
  | typ :: body => (decodeBody typ).run' body

/-! ## What was encoded is decoded -/

open ByteParser (Reads Accepts)

theorem Parser.reads_u8 (value : UInt8) : Parser.u8.Reads [value] value := by
  have fits : value.toNat < 256 ^ 1 := UInt8.toNat_lt value
  have reads := (ByteParser.reads_number ProtoError.truncated fits).map UInt8.ofNat
  rw [UInt8.ofNat_toNat, beBytes, beBytes, Nat.pow_zero, Nat.div_one, UInt8.ofNat_toNat] at reads
  exact reads

theorem Parser.reads_u16 (value : UInt16) : Parser.u16.Reads (u16Bytes value) value := by
  have fits : value.toNat < 256 ^ 2 := UInt16.toNat_lt value
  have reads := (ByteParser.reads_number ProtoError.truncated fits).map UInt16.ofNat
  rwa [UInt16.ofNat_toNat] at reads

theorem Parser.reads_u32 (value : UInt32) : Parser.u32.Reads (u32Bytes value) value := by
  have fits : value.toNat < 256 ^ 4 := UInt32.toNat_lt value
  have reads := (ByteParser.reads_number ProtoError.truncated fits).map UInt32.ofNat
  rwa [UInt32.ofNat_toNat] at reads

theorem Parser.reads_u64 (value : UInt64) : Parser.u64.Reads (u64Bytes value) value := by
  have fits : value.toNat < 256 ^ 8 := UInt64.toNat_lt value
  have reads := (ByteParser.reads_number ProtoError.truncated fits).map UInt64.ofNat
  rwa [UInt64.ofNat_toNat] at reads

theorem Parser.reads_array {n : Nat} (value : ByteArrayOf n) :
    (Parser.array n).Reads value.bytes value :=
  (ByteParser.reads_take _ value.length_eq).bind_pure (dif_pos value.length_eq)

theorem fromUTF8?_asBytes (s : String) : String.fromUTF8? ⟨(asBytes s).toArray⟩ = some s := by
  unfold asBytes String.fromUTF8?
  rw [Array.toArray_toList]
  exact dif_pos s.isValidUTF8

theorem putStr_eq {s : String} (fits : (asBytes s).length ≤ u16Max) :
    putStr s = u16Bytes (UInt16.ofNat (asBytes s).length) ++ asBytes s := by
  have small : (asBytes s).length < 2 ^ 16 := Nat.lt_of_le_of_lt fits (by decide)
  have cut : min (asBytes s).length u16Max = (asBytes s).length := Nat.min_eq_left fits
  unfold putStr u16Bytes
  simp only [cut, List.take_length, UInt16.toNat_ofNat_of_lt' small]

theorem Parser.reads_str {s : String} (fits : (asBytes s).length ≤ u16Max) :
    Parser.str.Reads (putStr s) s := by
  rw [putStr_eq fits]
  have small : (asBytes s).length < 2 ^ 16 := Nat.lt_of_le_of_lt fits (by decide)
  refine (Parser.reads_u16 _).bind ?_
  rw [UInt16.toNat_ofNat_of_lt' small]
  refine (ByteParser.reads_take _ rfl).bind_pure ?_
  rw [fromUTF8?_asBytes]

theorem reasonOf_reasonByte (reason : ResetReason) : reasonOf (reasonByte reason) = reason := by
  cases reason <;> rfl

theorem reads_sackRange (range : UInt64 × UInt64) : sackRange.Reads (rangeBytes range) range :=
  (Parser.reads_u64 range.1).bind ((Parser.reads_u64 range.2).bind_pure rfl)

/-- What the peer reads: an ACK arrives with its first `maxSackRanges` ranges. -/
def clipSack : Frame → Frame
  | .streamAck s => .streamAck { s with sack := s.sack.take maxSackRanges }
  | frame => frame

def strings : Frame → List String
  | .createSession c => [c.userId, c.pathName]
  | .joinSession j => [j.pathName]
  | .handshakeErr e => [e.message]
  | .streamOpen s => [s.target.host]
  | _ => []

theorem length_putStr (s : String) :
    (putStr s).length = 2 + min (asBytes s).length u16Max := by
  unfold putStr
  rw [List.length_append, length_beBytes, List.length_take]
  omega

theorem putStr_isEmpty (s : String) : (putStr s).isEmpty = false := by
  have long := length_putStr s
  cases bytes : putStr s with
  | nil =>
      rw [bytes, List.length_nil] at long
      omega
  | cons => rfl

/-- The count of the ranges on the wire. -/
def sackCount (sack : List (UInt64 × UInt64)) : UInt8 :=
  UInt8.ofNat (min sack.length maxSackRanges)

theorem toNat_sackCount (sack : List (UInt64 × UInt64)) :
    min (sackCount sack).toNat maxSackRanges = (sack.take maxSackRanges).length := by
  have bound : min sack.length maxSackRanges < 2 ^ 8 :=
    Nat.lt_of_le_of_lt (Nat.min_le_right _ _) (by decide)
  rw [sackCount, UInt8.toNat_ofNat_of_lt' bound, List.length_take]
  omega

theorem putSack_of_ne_nil {sack : List (UInt64 × UInt64)} (some_range : sack ≠ []) :
    putSack sack = [sackCount sack] ++ (sack.take maxSackRanges).flatMap rangeBytes := by
  have same : sack.take (min sack.length maxSackRanges) = sack.take maxSackRanges := by
    rw [Nat.min_comm]
    exact List.take_eq_take_min.symm
  rw [putSack, if_neg (by simpa using some_range)]
  simp only [same, sackCount, List.singleton_append]

theorem accepts_trailingSack (sack : List (UInt64 × UInt64)) :
    Accepts trailingSack (putSack sack) (sack.take maxSackRanges) := by
  apply ByteParser.accepts_rest
  by_cases some_range : sack = []
  · subst some_range
    exact (ByteParser.reads_pure []).accepts
  · have ranges := ByteParser.reads_times rangeBytes reads_sackRange (sack.take maxSackRanges)
    rw [← toNat_sackCount] at ranges
    rw [putSack_of_ne_nil some_range]
    exact ((Parser.reads_u8 _).bind ranges).accepts

theorem accepts_trailingName {s : String} (fits : (asBytes s).length ≤ u16Max) :
    Accepts trailingName (putStr s) s := by
  apply ByteParser.accepts_rest
  rw [if_neg (by simp [putStr_isEmpty])]
  exact (Parser.reads_str fits).accepts

theorem accepts_trailingOffset (finalOffset : Option UInt64) :
    Accepts trailingOffset ((finalOffset.map u64Bytes).getD []) finalOffset := by
  apply ByteParser.accepts_rest
  cases finalOffset with
  | none => exact (ByteParser.reads_pure none).accepts
  | some offset =>
      have long : 8 ≤ (u64Bytes offset).length := Nat.le_of_eq (length_beBytes 8 offset.toNat).symm
      rw [Option.map_some, Option.getD_some, if_pos long]
      exact ((Parser.reads_u64 offset).map some).accepts

/-- The decoder reads the fields in the order in which the encoder wrote them. -/
theorem decode_encode {frame : Frame}
    (fits : ∀ s ∈ strings frame, (asBytes s).length ≤ u16Max) :
    decode (encode frame) = .ok (clipSack frame) := by
  cases frame with
  | ping p =>
      apply Accepts.bind (Parser.reads_u64 p.seq)
      exact (Parser.reads_u64 p.sentAtMs).accepts.bind_pure rfl
  | pong p =>
      apply Accepts.bind (Parser.reads_u64 p.seq)
      exact (Parser.reads_u64 p.sentAtMs).accepts.bind_pure rfl
  | createSession c =>
      apply Accepts.bind (Parser.reads_u8 c.version)
      apply Accepts.bind (Parser.reads_str (fits c.userId (by simp [strings])))
      apply Accepts.bind (Parser.reads_array c.nonce)
      apply Accepts.bind (Parser.reads_array c.proof)
      exact (accepts_trailingName (fits c.pathName (by simp [strings]))).bind_pure rfl
  | createSessionOk c => exact (Parser.reads_array c.sessionId).accepts.bind_pure rfl
  | joinSession j =>
      apply Accepts.bind (Parser.reads_array j.sessionId)
      apply Accepts.bind (Parser.reads_str (fits j.pathName (by simp [strings])))
      exact (Parser.reads_array j.proof).accepts.bind_pure rfl
  | joinSessionOk => exact ByteParser.accepts_pure [] _
  | handshakeErr e =>
      have reads := Parser.reads_str (fits e.message (by simp [strings]))
      exact reads.accepts.bind_pure rfl
  | streamOpen s =>
      apply Accepts.bind (Parser.reads_u32 s.streamId)
      apply Accepts.bind (Parser.reads_u16 s.target.port)
      have reads := Parser.reads_str (fits s.target.host (by simp [strings]))
      exact reads.accepts.bind_pure rfl
  | streamData s =>
      apply Accepts.bind (Parser.reads_u32 s.streamId)
      apply Accepts.bind (Parser.reads_u64 s.offset)
      apply ByteParser.accepts_rest
      exact ByteParser.accepts_pure s.data _
  | streamAck s =>
      apply Accepts.bind (Parser.reads_u32 s.streamId)
      apply Accepts.bind (Parser.reads_u64 s.ackedOffset)
      apply Accepts.bind (Parser.reads_u32 s.window)
      exact (accepts_trailingSack s.sack).bind_pure rfl
  | streamClose s =>
      apply Accepts.bind (Parser.reads_u32 s.streamId)
      exact (accepts_trailingOffset s.finalOffset).bind_pure rfl
  | streamReset s =>
      apply Accepts.bind (Parser.reads_u32 s.streamId)
      have reads := Parser.reads_u8 (reasonByte s.reason)
      refine reads.accepts.bind_pure ?_
      rw [reasonOf_reasonByte]
      rfl
  | sessionClose => exact ByteParser.accepts_pure [] _

theorem length_encode_of_string {frame : Frame} {s : String} (membership : s ∈ strings frame) :
    min (asBytes s).length u16Max < (encode frame).length := by
  cases frame with
  | createSession c =>
      simp only [strings, List.mem_cons, List.not_mem_nil, or_false] at membership
      rcases membership with rfl | rfl <;>
        simp only [encode, List.length_cons, List.length_append, length_putStr] <;> omega
  | joinSession j =>
      obtain rfl := List.mem_singleton.mp membership
      simp only [encode, List.length_cons, List.length_append, length_putStr]
      omega
  | handshakeErr e =>
      obtain rfl := List.mem_singleton.mp membership
      simp only [encode, List.length_cons, length_putStr]
      omega
  | streamOpen s =>
      obtain rfl := List.mem_singleton.mp membership
      simp only [encode, List.length_cons, List.length_append, length_putStr]
      omega
  | _ => cases membership

end NyaLink.Wire
