import NyaLink.Proto.Wire

/-!
# Framing

`write_frame` and `read_frame`: four bytes of length, then the frame.  A reader
that gets what was written, and anything after it, returns the frame and stops
where it ends.
-/

namespace NyaLink.Wire

/-- Maximum `length` field, type and body. -/
def maxFrameSize : Nat := 16 * 1024

/-- `w` is what was written before. -/
def writeFrame (w : Bytes) (frame : Frame) : Except ProtoError Unit × Bytes :=
  let payload := encode frame
  if maxFrameSize < payload.length then (.error (.badLength payload.length), w)
  else (.ok (), w ++ (beBytes 4 payload.length ++ payload))

def readExact (count : Nat) : Parser Bytes := ByteParser.take .io count

def readFrame : Parser Frame := do
  let lenb ← readExact 4
  let len := beValue lenb
  if len = 0 ∨ maxFrameSize < len then throw (.badLength len)
  else
    let buf ← readExact len
    match decode buf with
    | .ok frame => pure frame
    | .error failure => throw failure

theorem readFrame_reads {payload : Bytes} {frame : Frame} (nonempty : payload ≠ [])
    (fits : payload.length ≤ maxFrameSize) (decoded : decode payload = .ok frame) :
    readFrame.Reads (beBytes 4 payload.length ++ payload) frame := by
  have positive : 0 < payload.length := List.length_pos_iff.mpr nonempty
  have small : payload.length < 256 ^ 4 := Nat.lt_of_le_of_lt fits (by decide)
  refine (ByteParser.reads_take _ (length_beBytes 4 payload.length)).bind ?_
  rw [beValue_beBytes_of_lt small, if_neg (by omega)]
  refine (ByteParser.reads_take _ rfl).bind_pure ?_
  rw [decoded]

theorem encode_ne_nil (frame : Frame) : encode frame ≠ [] := by
  cases frame <;> exact List.cons_ne_nil _ _

theorem clipSack_eq_self {frame : Frame}
    (few : ∀ ack, frame = .streamAck ack → ack.sack.length ≤ maxSackRanges) :
    clipSack frame = frame := by
  cases frame with
  | streamAck ack =>
      have whole : ack.sack.take maxSackRanges = ack.sack := List.take_of_length_le (few ack rfl)
      rw [clipSack, whole]
  | _ => rfl

theorem strings_fit {frame : Frame} (fits : (encode frame).length ≤ maxFrameSize) :
    ∀ s ∈ strings frame, (asBytes s).length ≤ u16Max := by
  intro s membership
  have counted := length_encode_of_string membership
  have limits : maxFrameSize ≤ u16Max := by decide
  omega

/-- A frame within the limit is read as it was written, with at most `maxSackRanges` ranges, and
the reader stops at its end; one beyond the limit, as is any with a string too long for its prefix,
is refused with nothing written. -/
theorem write_read_frame (frame : Frame) :
    ((encode frame).length ≤ maxFrameSize → ∃ written,
      (∀ w, writeFrame w frame = (.ok (), w ++ written)) ∧
        ∀ suffix, readFrame.run (written ++ suffix) = .ok (clipSack frame, suffix)) ∧
      ((∀ ack, frame = .streamAck ack → ack.sack.length ≤ maxSackRanges) →
        clipSack frame = frame) ∧
      (maxFrameSize < (encode frame).length → ∀ w,
        writeFrame w frame = (.error (.badLength (encode frame).length), w)) ∧
      ((∃ s ∈ strings frame, u16Max < (asBytes s).length) →
        maxFrameSize < (encode frame).length) := by
  refine ⟨fun fits => ?_, clipSack_eq_self, fun large w => if_pos large, ?_⟩
  · have decoded := decode_encode (strings_fit fits)
    exact ⟨_, fun w => if_neg (Nat.not_lt.mpr fits),
      readFrame_reads (encode_ne_nil frame) fits decoded⟩
  · rintro ⟨s, membership, long⟩
    by_contra within
    exact Nat.not_le.mpr long (strings_fit (Nat.not_lt.mp within) s membership)

def nineRanges : StreamAck := ⟨1, 5, 128000, List.replicate 9 (100, 200)⟩

/-- A text of `2 ^ n` bytes. -/
def doubled : Nat → String
  | 0 => "a"
  | n + 1 => doubled n ++ doubled n

theorem length_doubled (n : Nat) : (asBytes (doubled n)).length = 2 ^ n := by
  induction n with
  | zero => rfl
  | succ n inductionHypothesis =>
      simp only [asBytes, doubled, String.toUTF8_eq_toByteArray, String.toByteArray_append,
        ByteArray.data_append, Array.toList_append, List.length_append] at inductionHypothesis ⊢
      omega

/-- Nine ranges arrive as eight; a message too long for its prefix is refused. -/
theorem write_read_frame_nine_ranges :
    (∃ written, writeFrame [] (.streamAck nineRanges) = (.ok (), written) ∧
      readFrame.run (written ++ [0xff]) =
        .ok (.streamAck { nineRanges with sack := List.replicate 8 (100, 200) }, [0xff])) ∧
      clipSack (.streamAck ⟨1, 5, 128000, [(100, 200)]⟩) =
        .streamAck ⟨1, 5, 128000, [(100, 200)]⟩ ∧
      ∃ failure, writeFrame [7] (.handshakeErr ⟨doubled 17⟩) = (.error failure, [7]) := by
  have within : (encode (.streamAck nineRanges)).length ≤ maxFrameSize := by decide +kernel
  obtain ⟨written, wrote, read⟩ := (write_read_frame (.streamAck nineRanges)).1 within
  have long : u16Max < (asBytes (doubled 17)).length := by
    rw [length_doubled]
    decide
  have refused := (write_read_frame (.handshakeErr ⟨doubled 17⟩)).2.2
  have large := refused.2 ⟨doubled 17, List.mem_singleton.mpr rfl, long⟩
  refine ⟨⟨written, wrote [], read [0xff]⟩, ?_, _, refused.1 large [7]⟩
  apply (write_read_frame (.streamAck ⟨1, 5, 128000, [(100, 200)]⟩)).2.1
  rintro _ ⟨⟩
  decide

end NyaLink.Wire

namespace NyaLink

/-! ## The frames of a stream -/

def Frame.toWire : Frame → Wire.Frame
  | .streamOpen body =>
      .streamOpen ⟨.ofNat body.streamId, body.target.host, .ofNat body.target.port⟩
  | .streamData body => .streamData ⟨.ofNat body.streamId, .ofNat body.offset, body.data⟩
  | .streamAck body =>
      .streamAck ⟨.ofNat body.streamId, .ofNat body.ackedOffset, .ofNat body.window,
        body.sack.map fun range => (.ofNat range.1, .ofNat range.2)⟩
  | .streamClose body => .streamClose ⟨.ofNat body.streamId, body.finalOffset.map .ofNat⟩
  | .streamReset body => .streamReset ⟨.ofNat body.streamId, body.reason⟩

def Frame.fromWire? : Wire.Frame → Option Frame
  | .streamOpen body =>
      some (.streamOpen ⟨body.streamId.toNat, body.target.host, body.target.port.toNat⟩)
  | .streamData body => some (.streamData ⟨body.streamId.toNat, body.offset.toNat, body.data⟩)
  | .streamAck body =>
      some (.streamAck ⟨body.streamId.toNat, body.ackedOffset.toNat, body.window.toNat,
        body.sack.map fun range => (range.1.toNat, range.2.toNat)⟩)
  | .streamClose body =>
      some (.streamClose ⟨body.streamId.toNat, body.finalOffset.map UInt64.toNat⟩)
  | .streamReset body => some (.streamReset ⟨body.streamId.toNat, body.reason⟩)
  | _ => none

def Frame.InWidth : Frame → Prop
  | .streamOpen body => body.streamId < 2 ^ 32 ∧ body.target.port < 2 ^ 16
  | .streamData body => body.streamId < 2 ^ 32 ∧ body.offset < 2 ^ 64
  | .streamAck body => body.streamId < 2 ^ 32 ∧ body.ackedOffset < 2 ^ 64 ∧ body.window < 2 ^ 32 ∧
      ∀ range ∈ body.sack, range.1 < 2 ^ 64 ∧ range.2 < 2 ^ 64
  | .streamClose body => body.streamId < 2 ^ 32 ∧ ∀ offset ∈ body.finalOffset, offset < 2 ^ 64
  | .streamReset body => body.streamId < 2 ^ 32

theorem Frame.fromWire?_toWire {frame : Frame} (inWidth : frame.InWidth) :
    fromWire? frame.toWire = some frame := by
  cases frame with
  | streamOpen body =>
      obtain ⟨streamId, port⟩ := inWidth
      simp only [toWire, fromWire?, UInt32.toNat_ofNat_of_lt' streamId,
        UInt16.toNat_ofNat_of_lt' port]
  | streamData body =>
      obtain ⟨streamId, offset⟩ := inWidth
      simp only [toWire, fromWire?, UInt32.toNat_ofNat_of_lt' streamId,
        UInt64.toNat_ofNat_of_lt' offset]
  | streamAck body =>
      obtain ⟨streamId, ackedOffset, window, ranges⟩ := inWidth
      have sack : (body.sack.map fun range => (UInt64.ofNat range.1, UInt64.ofNat range.2)).map
          (fun range => (range.1.toNat, range.2.toNat)) = body.sack := by
        rw [List.map_map]
        refine (List.map_congr_left fun range membership => ?_).trans (List.map_id _)
        obtain ⟨left, right⟩ := ranges range membership
        simp only [Function.comp_apply, UInt64.toNat_ofNat_of_lt' left,
          UInt64.toNat_ofNat_of_lt' right, id_eq]
      simp only [toWire, fromWire?, UInt32.toNat_ofNat_of_lt' streamId,
        UInt64.toNat_ofNat_of_lt' ackedOffset, UInt32.toNat_ofNat_of_lt' window, sack]
  | streamClose body =>
      obtain ⟨streamId, offset⟩ := inWidth
      have finalOffset : (body.finalOffset.map UInt64.ofNat).map UInt64.toNat =
          body.finalOffset := by
        cases final : body.finalOffset with
        | none => rfl
        | some value =>
            rw [Option.map_some, Option.map_some,
              UInt64.toNat_ofNat_of_lt' (offset value final)]
      simp only [toWire, fromWire?, UInt32.toNat_ofNat_of_lt' streamId, finalOffset]
  | streamReset body =>
      have streamId : body.streamId < 2 ^ 32 := inWidth
      simp only [toWire, fromWire?, UInt32.toNat_ofNat_of_lt' streamId]

/-- What one session writes about a stream, the other reads. -/
theorem Frame.read_toWire {frame : Frame} (inWidth : frame.InWidth)
    (few : ∀ ack, frame = .streamAck ack → ack.sack.length ≤ maxSackRanges)
    (fits : (Wire.encode frame.toWire).length ≤ Wire.maxFrameSize) (suffix : Bytes) :
    ∃ written, (∀ w, Wire.writeFrame w frame.toWire = (.ok (), w ++ written)) ∧
      ∃ read, Wire.readFrame.run (written ++ suffix) = .ok (read, suffix) ∧
        fromWire? read = some frame := by
  have decoded := Wire.decode_encode (Wire.strings_fit fits)
  have whole : Wire.clipSack frame.toWire = frame.toWire := by
    apply Wire.clipSack_eq_self
    intro ack equal
    cases frame with
    | streamAck body =>
        cases equal
        exact Nat.le_trans (Nat.le_of_eq (List.length_map _)) (few body rfl)
    | _ => cases equal
  rw [whole] at decoded
  refine ⟨_, fun w => if_neg (Nat.not_lt.mpr fits), frame.toWire, ?_,
    fromWire?_toWire inWidth⟩
  exact Wire.readFrame_reads (Wire.encode_ne_nil _) fits decoded suffix

end NyaLink
