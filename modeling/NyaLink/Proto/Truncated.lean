import NyaLink.Proto.Codec

/-!
# What the decoder accepts

Whatever `decode` accepts is encoded to bytes it accepts again, as the same frame.
Some frames end in a part that an old peer leaves out; without it they are read
with the field empty, and cut anywhere else they are refused.
-/

namespace NyaLink.Wire

open ByteParser (Accepts Ensures Truncates)

/-! ## What was decoded can be encoded -/

theorem asBytes_of_fromUTF8? {b : Bytes} {s : String}
    (valid : String.fromUTF8? ⟨b.toArray⟩ = some s) : asBytes s = b := by
  unfold String.fromUTF8? at valid
  split at valid
  · obtain rfl := Option.some.inj valid
    rfl
  · cases valid

theorem ensures_str : Parser.str.Ensures fun s => (asBytes s).length ≤ u16Max := by
  refine Ensures.skip fun len => (ByteParser.ensures_take _ len.toNat).bind fun b long => ?_
  split
  · rename_i s valid
    apply ByteParser.ensures_pure
    rw [asBytes_of_fromUTF8? valid, long]
    exact Nat.le_pred_of_lt (UInt16.toNat_lt len)
  · exact ByteParser.ensures_throw _ _

theorem ensures_trailingName : trailingName.Ensures fun s => (asBytes s).length ≤ u16Max := by
  refine Ensures.skip fun left => ?_
  split
  · exact ByteParser.ensures_pure (Nat.zero_le _)
  · exact ensures_str

theorem ensures_trailingSack : trailingSack.Ensures fun sack => sack.length ≤ maxSackRanges := by
  refine Ensures.skip fun left => ?_
  split
  · exact ByteParser.ensures_pure (Nat.zero_le _)
  · refine Ensures.skip fun n => ?_
    intro input sack rest run
    have long := ByteParser.ensures_times sackRange _ input sack rest run
    omega

/-- The frame has no string and no list of ranges that the encoder would cut. -/
structure Uncut (frame : Frame) : Prop where
  strings : ∀ s ∈ strings frame, (asBytes s).length ≤ u16Max
  ranges : ∀ ack, frame = .streamAck ack → ack.sack.length ≤ maxSackRanges

theorem uncut_of_strings {frame : Frame}
    (fits : ∀ s ∈ strings frame, (asBytes s).length ≤ u16Max)
    (notAck : ∀ ack, frame ≠ .streamAck ack) : Uncut frame :=
  ⟨fits, fun ack same => absurd same (notAck ack)⟩

theorem uncut_decodeBody (typ : UInt8) : (decodeBody typ).Ensures Uncut := by
  have plain : ∀ {frame : Frame}, strings frame = [] → (∀ ack, frame ≠ .streamAck ack) →
      ByteParser.Ensures (pure frame : Parser Frame) Uncut := by
    intro frame none_cut notAck
    refine ByteParser.ensures_pure (uncut_of_strings (fun s membership => ?_) notAck)
    rw [none_cut] at membership
    cases membership
  unfold decodeBody
  split
  · exact Ensures.skip fun seq => Ensures.skip fun sentAtMs => plain rfl (by simp)
  · exact Ensures.skip fun seq => Ensures.skip fun sentAtMs => plain rfl (by simp)
  · refine Ensures.skip fun version => ensures_str.bind fun userId userFits => ?_
    refine Ensures.skip fun nonce => Ensures.skip fun proof => ?_
    refine ensures_trailingName.bind fun pathName pathFits => ByteParser.ensures_pure ?_
    refine uncut_of_strings ?_ (by simp)
    simpa [strings] using ⟨userFits, pathFits⟩
  · exact Ensures.skip fun sessionId => plain rfl (by simp)
  · refine Ensures.skip fun sessionId => ensures_str.bind fun pathName pathFits => ?_
    refine Ensures.skip fun proof => ByteParser.ensures_pure (uncut_of_strings ?_ (by simp))
    simpa [strings] using pathFits
  · exact plain rfl (by simp)
  · refine ensures_str.bind fun message fits => ByteParser.ensures_pure ?_
    exact uncut_of_strings (by simpa [strings] using fits) (by simp)
  · refine Ensures.skip fun streamId => Ensures.skip fun port => ?_
    refine ensures_str.bind fun host fits => ByteParser.ensures_pure ?_
    exact uncut_of_strings (by simpa [strings] using fits) (by simp)
  · exact Ensures.skip fun streamId => Ensures.skip fun offset => Ensures.skip fun data =>
      plain rfl (by simp)
  · refine Ensures.skip fun streamId => Ensures.skip fun ackedOffset => ?_
    refine Ensures.skip fun window => ensures_trailingSack.bind fun sack few => ?_
    refine ByteParser.ensures_pure ⟨by simp [strings], ?_⟩
    intro ack same
    cases same
    exact few
  · exact Ensures.skip fun streamId => Ensures.skip fun finalOffset => plain rfl (by simp)
  · exact Ensures.skip fun streamId => Ensures.skip fun reason => plain rfl (by simp)
  · exact plain rfl (by simp)
  · exact ByteParser.ensures_throw _ _

theorem uncut_of_decode {b : Bytes} {frame : Frame} (decoded : decode b = .ok frame) :
    Uncut frame := by
  cases b with
  | nil => cases decoded
  | cons typ body => exact (uncut_decodeBody typ).of_accepts decoded

/-- What the decoder accepts, it accepts again after an encoding. -/
theorem decode_encode_of_decode {b : Bytes} {frame : Frame} (decoded : decode b = .ok frame) :
    decode (encode frame) = .ok frame := by
  have uncut := uncut_of_decode decoded
  rw [decode_encode uncut.strings, clipSack_eq_self uncut.ranges]

/-! ## The part an old peer leaves out -/

def hasTail : Frame → Bool
  | .createSession _ | .streamAck _ | .streamClose _ => true
  | _ => false

/-- The path name with its length, the ranges with their count, the final offset. -/
def tail : Frame → Bytes
  | .createSession c => putStr c.pathName
  | .streamAck s => putSack s.sack
  | .streamClose s => (s.finalOffset.map u64Bytes).getD []
  | _ => []

/-- The encoding with the tail cut off. -/
def withoutTail (frame : Frame) : Bytes :=
  (encode frame).take ((encode frame).length - (tail frame).length)

/-- The frame with the field of its tail empty. -/
def emptied : Frame → Frame
  | .createSession c => .createSession { c with pathName := "" }
  | .streamAck s => .streamAck { s with sack := [] }
  | .streamClose s => .streamClose { s with finalOffset := none }
  | frame => frame

theorem withoutTail_eq {frame : Frame} {front : Bytes}
    (parts : encode frame = front ++ tail frame) : withoutTail frame = front := by
  rw [withoutTail, parts, List.length_append, Nat.add_sub_cancel]
  exact List.take_left' rfl

theorem accepts_trailingName_nil : Accepts trailingName [] "" := rfl

theorem accepts_trailingSack_nil : Accepts trailingSack [] [] := rfl

theorem accepts_trailingOffset_short {bytes : Bytes} (short : bytes.length < 8) :
    Accepts trailingOffset bytes none := by
  apply ByteParser.accepts_rest
  rw [if_neg (Nat.not_le.mpr short)]
  exact ByteParser.accepts_pure bytes none

theorem decode_close_short (streamId : UInt32) {bytes : Bytes} (short : bytes.length < 8) :
    decode (tClose :: (u32Bytes streamId ++ bytes)) = .ok (.streamClose ⟨streamId, none⟩) := by
  apply Accepts.bind (Parser.reads_u32 streamId)
  exact (accepts_trailingOffset_short short).bind_pure rfl

theorem decode_withoutTail {frame : Frame} (old : hasTail frame = true)
    (fits : ∀ c, frame = .createSession c → (asBytes c.userId).length ≤ u16Max) :
    decode (withoutTail frame) = .ok (emptied frame) := by
  cases frame with
  | createSession c =>
      have parts : encode (.createSession c) = (tCreate :: ([c.version] ++ (putStr c.userId ++
          (c.nonce.bytes ++ (c.proof.bytes ++ []))))) ++ tail (.createSession c) := by
        simp only [encode, tail, List.append_assoc, List.cons_append, List.nil_append]
      rw [withoutTail_eq parts]
      apply Accepts.bind (Parser.reads_u8 c.version)
      apply Accepts.bind (Parser.reads_str (fits c rfl))
      apply Accepts.bind (Parser.reads_array c.nonce)
      apply Accepts.bind (Parser.reads_array c.proof)
      exact accepts_trailingName_nil.bind_pure rfl
  | streamAck s =>
      have parts : encode (.streamAck s) = (tAck :: (u32Bytes s.streamId ++
          (u64Bytes s.ackedOffset ++ (u32Bytes s.window ++ [])))) ++ tail (.streamAck s) := by
        simp only [encode, tail, List.append_assoc, List.cons_append, List.nil_append]
      rw [withoutTail_eq parts]
      apply Accepts.bind (Parser.reads_u32 s.streamId)
      apply Accepts.bind (Parser.reads_u64 s.ackedOffset)
      apply Accepts.bind (Parser.reads_u32 s.window)
      exact accepts_trailingSack_nil.bind_pure rfl
  | streamClose s =>
      have parts : encode (.streamClose s) =
          (tClose :: (u32Bytes s.streamId ++ [])) ++ tail (.streamClose s) := by
        simp only [encode, tail, List.append_assoc, List.cons_append, List.nil_append]
      rw [withoutTail_eq parts]
      exact decode_close_short s.streamId (Nat.zero_lt_succ 7)
  | _ => cases old

/-! ## Frames cut short -/

theorem truncates_u8 (value : UInt8) : Truncates .truncated Parser.u8 [value] 0 0 :=
  (ByteParser.truncates_number ProtoError.truncated (Eq.refl 1)).map UInt8.ofNat

theorem truncates_u16 (value : UInt16) : Truncates .truncated Parser.u16 (u16Bytes value) 0 0 :=
  (ByteParser.truncates_number ProtoError.truncated (length_beBytes 2 _)).map UInt16.ofNat

theorem truncates_u32 (value : UInt32) : Truncates .truncated Parser.u32 (u32Bytes value) 0 0 :=
  (ByteParser.truncates_number ProtoError.truncated (length_beBytes 4 _)).map UInt32.ofNat

theorem truncates_u64 (value : UInt64) : Truncates .truncated Parser.u64 (u64Bytes value) 0 0 :=
  (ByteParser.truncates_number ProtoError.truncated (length_beBytes 8 _)).map UInt64.ofNat

theorem truncates_array {n : Nat} (value : ByteArrayOf n) :
    Truncates .truncated (Parser.array n) value.bytes 0 0 :=
  (ByteParser.truncates_take ProtoError.truncated value.length_eq).bind_last

theorem truncates_str {s : String} (fits : (asBytes s).length ≤ u16Max) :
    Truncates .truncated Parser.str (putStr s) 0 0 := by
  rw [putStr_eq fits]
  have small : (asBytes s).length < 2 ^ 16 := Nat.lt_of_le_of_lt fits (by decide)
  apply Truncates.whole
  apply Truncates.bind (truncates_u16 _) (Parser.reads_u16 _)
  rw [UInt16.toNat_ofNat_of_lt' small]
  exact (ByteParser.truncates_take ProtoError.truncated rfl).bind_last

theorem truncates_trailingName {s : String} (fits : (asBytes s).length ≤ u16Max) :
    Truncates .truncated trailingName (putStr s) 0 1 := by
  intro n short outside
  have some_left : ((putStr s).take n).isEmpty = false := by
    rw [List.isEmpty_eq_false_iff, ← List.length_pos_iff, List.length_take]
    omega
  have run : trailingName.run ((putStr s).take n) = Parser.str.run ((putStr s).take n) := by
    change (if ((putStr s).take n).isEmpty then pure "" else Parser.str : Parser String).run _ = _
    rw [some_left]
    rfl
  rw [run]
  exact truncates_str fits n short (.inr (Nat.zero_le n))

theorem truncates_sackRange (range : UInt64 × UInt64) :
    Truncates .truncated sackRange (rangeBytes range) 0 0 := by
  apply Truncates.whole
  apply Truncates.bind (truncates_u64 range.1) (Parser.reads_u64 range.1)
  exact (truncates_u64 range.2).bind_last

theorem truncates_trailingSack (sack : List (UInt64 × UInt64)) :
    Truncates .truncated trailingSack (putSack sack) 0 1 := by
  by_cases some_range : sack = []
  · subst some_range
    exact fun n short _ => absurd short (Nat.not_lt_zero n)
  · rw [putSack_of_ne_nil some_range]
    have ranges := ByteParser.truncates_times rangeBytes reads_sackRange truncates_sackRange
      (sack.take maxSackRanges)
    rw [← toNat_sackCount] at ranges
    have counted : Truncates .truncated (do
        let n ← Parser.u8
        ByteParser.times sackRange (min n.toNat maxSackRanges))
        ([sackCount sack] ++ (sack.take maxSackRanges).flatMap rangeBytes) 0 0 := by
      apply Truncates.whole
      exact Truncates.bind (truncates_u8 _) (Parser.reads_u8 _) ranges
    intro n short outside
    obtain ⟨left, rfl⟩ : ∃ left, n = left + 1 := ⟨n - 1, by omega⟩
    exact counted (left + 1) short (.inr (Nat.zero_le _))

theorem truncates_trailingOffset (finalOffset : Option UInt64) :
    Truncates .truncated trailingOffset ((finalOffset.map u64Bytes).getD []) 0 8 := by
  intro n short outside
  cases finalOffset with
  | none => exact absurd short (Nat.not_lt_zero n)
  | some offset =>
      have long : (u64Bytes offset).length = 8 := length_beBytes 8 _
      simp only [Option.map_some, Option.getD_some, long] at short
      omega

theorem decode_take {typ : UInt8} {body : Bytes} {low high n : Nat}
    (short : n < (typ :: body).length)
    (truncates : Truncates .truncated (decodeBody typ) body low high)
    (outside : n < low + 1 ∨ high + 1 ≤ n) :
    decode ((typ :: body).take n) = .error .truncated := by
  cases n with
  | zero => rfl
  | succ n =>
      have refused := truncates n (Nat.lt_of_succ_lt_succ short) (by omega)
      change (decodeBody typ).run' (body.take n) = .error .truncated
      rw [StateT.run'_eq, refused]
      rfl

theorem decode_take_whole {typ : UInt8} {body : Bytes} {low n : Nat}
    (short : n < (typ :: body).length)
    (truncates : Truncates .truncated (decodeBody typ) body low low) :
    decode ((typ :: body).take n) = .error .truncated :=
  decode_take short truncates (Nat.lt_or_ge n (low + 1))

def isStreamData : Frame → Bool
  | .streamData _ => true
  | _ => false

/-- A StreamClose is cut inside its final offset. -/
def cutsOffset (frame : Frame) (n : Nat) : Bool :=
  match frame with
  | .streamClose _ => decide ((withoutTail frame).length < n)
  | _ => false

theorem length_withoutTail (frame : Frame) :
    (withoutTail frame).length = (encode frame).length - (tail frame).length := by
  rw [withoutTail, List.length_take]
  omega

/-- A frame is refused when it is cut, unless its tail is cut off, or cut inside its offset. -/
theorem decode_cut {frame : Frame} (fits : ∀ s ∈ strings frame, (asBytes s).length ≤ u16Max)
    (notData : isStreamData frame = false) {n : Nat} (short : n < (encode frame).length)
    (notTail : n ≠ (withoutTail frame).length) (notOffset : cutsOffset frame n = false) :
    decode ((encode frame).take n) = .error .truncated := by
  rw [length_withoutTail] at notTail
  cases frame with
  | ping p =>
      apply decode_take_whole short
      apply Truncates.bind (truncates_u64 p.seq) (Parser.reads_u64 p.seq)
      exact (truncates_u64 p.sentAtMs).bind_last
  | pong p =>
      apply decode_take_whole short
      apply Truncates.bind (truncates_u64 p.seq) (Parser.reads_u64 p.seq)
      exact (truncates_u64 p.sentAtMs).bind_last
  | createSession c =>
      apply decode_take short
      · apply Truncates.bind (truncates_u8 c.version) (Parser.reads_u8 c.version)
        have userFits := fits c.userId (by simp [strings])
        apply Truncates.bind (truncates_str userFits) (Parser.reads_str userFits)
        apply Truncates.bind (truncates_array c.nonce) (Parser.reads_array c.nonce)
        apply Truncates.bind (truncates_array c.proof) (Parser.reads_array c.proof)
        exact (truncates_trailingName (fits c.pathName (by simp [strings]))).bind_last
      · simp only [encode, tail, List.length_cons, List.length_append] at notTail ⊢
        omega
  | createSessionOk c =>
      apply decode_take_whole short
      exact (truncates_array c.sessionId).bind_last
  | joinSession j =>
      apply decode_take_whole short
      have pathFits := fits j.pathName (by simp [strings])
      apply Truncates.bind (truncates_array j.sessionId) (Parser.reads_array j.sessionId)
      apply Truncates.bind (truncates_str pathFits) (Parser.reads_str pathFits)
      exact (truncates_array j.proof).bind_last
  | joinSessionOk =>
      obtain rfl := Nat.lt_one_iff.mp short
      rfl
  | handshakeErr e =>
      apply decode_take_whole short
      exact (truncates_str (fits e.message (by simp [strings]))).bind_last
  | streamOpen s =>
      apply decode_take_whole short
      apply Truncates.bind (truncates_u32 s.streamId) (Parser.reads_u32 s.streamId)
      apply Truncates.bind (truncates_u16 s.target.port) (Parser.reads_u16 s.target.port)
      exact (truncates_str (fits s.target.host (by simp [strings]))).bind_last
  | streamData s => cases notData
  | streamAck s =>
      apply decode_take short
      · apply Truncates.bind (truncates_u32 s.streamId) (Parser.reads_u32 s.streamId)
        apply Truncates.bind (truncates_u64 s.ackedOffset) (Parser.reads_u64 s.ackedOffset)
        apply Truncates.bind (truncates_u32 s.window) (Parser.reads_u32 s.window)
        exact (truncates_trailingSack s.sack).bind_last
      · simp only [encode, tail, List.length_cons, List.length_append] at notTail ⊢
        omega
  | streamClose s =>
      apply decode_take short
      · apply Truncates.bind (truncates_u32 s.streamId) (Parser.reads_u32 s.streamId)
        exact (truncates_trailingOffset s.finalOffset).bind_last
      · have outside := of_decide_eq_false notOffset
        rw [length_withoutTail] at outside
        simp only [encode, tail, List.length_cons, List.length_append] at notTail outside ⊢
        omega
  | streamReset s =>
      apply decode_take_whole short
      apply Truncates.bind (truncates_u32 s.streamId) (Parser.reads_u32 s.streamId)
      exact (truncates_u8 (reasonByte s.reason)).bind_last
  | sessionClose =>
      obtain rfl := Nat.lt_one_iff.mp short
      rfl

theorem decode_cut_offset {frame : Frame} {n : Nat} (short : n < (encode frame).length)
    (inside : cutsOffset frame n = true) :
    decode ((encode frame).take n) = .ok (emptied frame) := by
  cases frame with
  | streamClose s =>
      have parts : encode (.streamClose s) =
          (tClose :: u32Bytes s.streamId) ++ tail (.streamClose s) := rfl
      have front : (tClose :: u32Bytes s.streamId).length < n := by
        rw [← withoutTail_eq parts]
        exact of_decide_eq_true inside
      have few : (tail (.streamClose s)).length ≤ 8 := by
        cases final : s.finalOffset with
        | none =>
            rw [tail, final]
            exact Nat.zero_le 8
        | some offset =>
            rw [tail, final]
            exact Nat.le_of_eq (length_beBytes 8 _)
      rw [parts, List.length_append] at short
      rw [parts, List.take_append, List.take_of_length_le (Nat.le_of_lt front)]
      apply decode_close_short s.streamId
      rw [List.length_take]
      omega
  | _ => cases inside

/-! ## The decoder as a whole -/

/-- What was decoded survives an encoding; a frame without the part an old peer leaves out is read
with that field empty; a frame cut anywhere else is refused, except inside a final offset. -/
theorem decoder_stable (frame : Frame) :
    (∀ b, decode b = .ok frame → decode (encode frame) = .ok frame) ∧
      (hasTail frame = true →
        (∀ c, frame = .createSession c → (asBytes c.userId).length ≤ u16Max) →
        decode (withoutTail frame) = .ok (emptied frame)) ∧
      ((encode frame).length ≤ maxFrameSize → isStreamData frame = false →
        ∀ n < (encode frame).length, n ≠ (withoutTail frame).length →
          decode ((encode frame).take n) =
            if cutsOffset frame n then .ok (emptied frame) else .error .truncated) := by
  refine ⟨fun b decoded => decode_encode_of_decode decoded, decode_withoutTail, ?_⟩
  intro fits notData n short notTail
  split
  · exact decode_cut_offset short ‹_›
  · exact decode_cut (strings_fit fits) notData short notTail (Bool.eq_false_iff.mpr ‹_›)

/-- A session is asked for by a user whose name takes one byte more than its length can say. -/
def longUser : CreateSession where
  version := 1
  userId := doubled 16
  nonce := ⟨List.replicate nonceLen 0, rfl⟩
  proof := ⟨List.replicate proofLen 0, rfl⟩
  pathName := "a"

/-- The name is cut, so the frame of an old peer is not read as it was. -/
theorem longUser_cut :
    decode (withoutTail (.createSession longUser)) ≠ .ok (emptied (.createSession longUser)) := by
  intro decoded
  have uncut := uncut_of_decode decoded
  have fits := uncut.strings (doubled 16) (by simp [strings, emptied, longUser])
  rw [length_doubled] at fits
  exact absurd fits (by decide)

/-- A StreamClose that an old peer wrote, and the same cut inside its offset and its id. -/
theorem decoder_stable_close :
    decode [tClose, 0, 0, 0, 7] = .ok (.streamClose ⟨7, none⟩) ∧
      decode [tClose, 0, 0, 0, 7, 0, 0] = .ok (.streamClose ⟨7, none⟩) ∧
      decode [tClose, 0, 0] = .error .truncated := by
  have stable := decoder_stable (.streamClose ⟨7, some 9⟩)
  have small : (encode (.streamClose ⟨7, some 9⟩)).length ≤ maxFrameSize := by decide
  have cuts := stable.2.2 small rfl
  have kind : ∀ c, Frame.streamClose ⟨7, some 9⟩ = .createSession c →
      (asBytes c.userId).length ≤ u16Max := by
    intro c impossible
    cases impossible
  exact ⟨stable.2.1 rfl kind, cuts 7 (by decide) (by decide), cuts 3 (by decide) (by decide)⟩

end NyaLink.Wire
