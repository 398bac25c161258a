import NyaLink.Server.Handshake

/-!
# The handshake of a client

`client_create_session` and `client_join_session` write one frame, with a proof
over the exporter of the connection, and read one.  They differ in the frame and
in the reply they wait for.

What a reader makes of the bytes that have arrived depends on the frame they
belong to alone: an incomplete frame fails.
-/

namespace NyaLink

open Wire (ProtoError asBytes)

/-- Length of the keying material exported from a TLS connection. -/
def exporterLen : Nat := 32

/-! ## What a client asks for -/

inductive Request where
  | create (nonce : ByteArrayOf nonceLen) (userId pathName : String)
  | join (sessionId : SessionId) (pathName : String)
  deriving DecidableEq

namespace Request

section

variable (digests : Digests) (psk : Bytes) (exporter : ByteArrayOf exporterLen)

def key : Request → Bytes
  | .create _ _ _ => psk
  | .join sessionId _ => (digests.sessionKey psk sessionId.bytes).bytes

def message : Request → Bytes
  | .create nonce userId _ =>
      asBytes "nya-create-v1" ++ exporter.bytes ++ nonce.bytes ++ asBytes userId
  | .join _ pathName => asBytes "nya-join-v1" ++ exporter.bytes ++ asBytes pathName

def proof (request : Request) : ByteArrayOf proofLen :=
  digests.hmac (request.key digests psk) (request.message exporter)

def frame (request : Request) : Wire.Frame :=
  match request with
  | .create nonce userId pathName =>
      .createSession ⟨protocolVersion, userId, nonce,
        digests.createProof psk exporter.bytes nonce.bytes (asBytes userId), pathName⟩
  | .join sessionId pathName =>
      .joinSession ⟨sessionId, pathName,
        digests.joinProof (digests.sessionKey psk sessionId.bytes).bytes exporter.bytes
          (asBytes pathName)⟩

end

/-- What is asked for in a frame, and the proof that comes with it. -/
def read? : Wire.Frame → Option (Request × ByteArrayOf proofLen)
  | .createSession c => some (.create c.nonce c.userId c.pathName, c.proof)
  | .joinSession j => some (.join j.sessionId j.pathName, j.proof)
  | _ => none

variable {digests : Digests} {psk : Bytes} {exporter : ByteArrayOf exporterLen}

theorem read?_frame (request : Request) :
    read? (request.frame digests psk exporter) =
      some (request, request.proof digests psk exporter) := by
  cases request <;> rfl

theorem clipSack_frame (request : Request) :
    Wire.clipSack (request.frame digests psk exporter) = request.frame digests psk exporter := by
  cases request <;> rfl

theorem create_ne_join {exporter other : ByteArrayOf exporterLen} {nonce : ByteArrayOf nonceLen}
    {userId pathName name : String} {sessionId : SessionId} :
    (Request.create nonce userId pathName).message exporter ≠
      (Request.join sessionId name).message other := by
  intro same
  have firsts := congrArg (List.take 5) same
  simp only [message, List.append_assoc] at firsts
  rw [List.take_append_of_le_length (by decide),
    List.take_append_of_le_length (by decide)] at firsts
  exact absurd firsts (by decide)

theorem exporter_eq_of_message {first second : Request} {exporter other : ByteArrayOf exporterLen}
    (same : first.message exporter = second.message other) : exporter = other := by
  have lengths : exporter.bytes.length = other.bytes.length :=
    exporter.length_eq.trans other.length_eq.symm
  have bytes : exporter.bytes = other.bytes := by
    cases first with
    | create nonce userId pathName =>
        cases second with
        | create nonce' userId' pathName' =>
            simp only [message, List.append_assoc] at same
            exact (List.append_inj (List.append_cancel_left same) lengths).1
        | join sessionId name => exact absurd same create_ne_join
    | join sessionId name =>
        cases second with
        | create nonce userId pathName => exact absurd same.symm create_ne_join
        | join sessionId' name' =>
            simp only [message, List.append_assoc] at same
            exact (List.append_inj (List.append_cancel_left same) lengths).1
  cases exporter
  cases other
  cases bytes
  rfl

end Request

/-! ## The two calls -/

/-- The client's end: a frame is written, and the reply is one that `welcome` knows or an error. -/
def readReply {Welcome : Type} (welcome : Wire.Frame → Option Welcome) (io : Peer) :
    Except HandshakeError Welcome × Peer :=
  match io.readFrame with
  | .error failure => (.error (.proto failure), io)
  | .ok (frame, io) =>
      match welcome frame with
      | some value => (.ok value, io)
      | none =>
          match frame with
          | .handshakeErr e =>
              (.error (if e.message = "unknown session" then .unknownSession
                else .rejected e.message), io)
          | _ => (.error .unexpected, io)

def clientHandshake {Welcome : Type} (frame : Wire.Frame) (welcome : Wire.Frame → Option Welcome)
    (io : Peer) : Except HandshakeError Welcome × Peer :=
  match io.writeFrame frame with
  | (.error failure, io) => (.error (.proto failure), io)
  | (.ok (), io) => readReply welcome io

def createOk : Wire.Frame → Option SessionId
  | .createSessionOk ok => some ok.sessionId
  | _ => none

def joinOk : Wire.Frame → Option Unit
  | .joinSessionOk => some ()
  | _ => none

/-- `nonce` is the nonce drawn. -/
def clientCreateSession (digests : Digests) (psk : Bytes) (exporter : ByteArrayOf exporterLen)
    (nonce : ByteArrayOf nonceLen) (userId pathName : String) :
    Peer → Except HandshakeError SessionId × Peer :=
  clientHandshake ((Request.create nonce userId pathName).frame digests psk exporter) createOk

def clientJoinSession (digests : Digests) (psk : Bytes) (exporter : ByteArrayOf exporterLen)
    (sessionId : SessionId) (pathName : String) : Peer → Except HandshakeError Unit × Peer :=
  clientHandshake ((Request.join sessionId pathName).frame digests psk exporter) joinOk

/-! ## Reading what has arrived -/

namespace Wire

/-- The bytes of a frame on the connection; none when it is too large to be written. -/
def written (frame : Frame) : Bytes := (writeFrame [] frame).2

theorem written_of_fits {frame : Frame} (fits : (encode frame).length ≤ maxFrameSize) :
    written frame = beBytes 4 (encode frame).length ++ encode frame := by
  unfold written writeFrame
  rw [if_neg (Nat.not_lt.mpr fits)]
  rfl

theorem written_of_not_fits {frame : Frame} (large : ¬ (encode frame).length ≤ maxFrameSize) :
    written frame = [] := by
  unfold written writeFrame
  rw [if_pos (Nat.not_le.mp large)]

theorem readFrame_short {payload : Bytes} (fits : payload.length ≤ maxFrameSize)
    (nonempty : payload ≠ []) {n : Nat} (short : n < 4 + payload.length) :
    readFrame.run ((beBytes 4 payload.length ++ payload).take n) = .error .io := by
  have positive : 0 < payload.length := List.length_pos_iff.mpr nonempty
  have small : payload.length < 256 ^ 4 := Nat.lt_of_le_of_lt fits (by decide)
  have header := ByteParser.truncates_take ProtoError.io (length_beBytes 4 payload.length)
  have reads := ByteParser.reads_take ProtoError.io (length_beBytes 4 payload.length)
  have cut : ByteParser.Truncates ProtoError.io readFrame (beBytes 4 payload.length ++ payload)
      ((beBytes 4 payload.length).length + 0) ((beBytes 4 payload.length).length + 0) := by
    refine header.bind reads ?_
    dsimp only
    rw [beValue_beBytes_of_lt small, if_neg (by omega)]
    exact (ByteParser.truncates_take ProtoError.io rfl).bind_last
  refine cut.whole n ?_ (.inr (Nat.zero_le n))
  rw [List.length_append, length_beBytes]
  exact short

theorem readFrame_of_prefix {frame read : Frame} {received left : Bytes}
    (arrived : received <+: written frame) (run : readFrame.run received = .ok (read, left)) :
    read = clipSack frame := by
  by_cases fits : (encode frame).length ≤ maxFrameSize
  · rw [written_of_fits fits] at arrived
    have taken := List.prefix_iff_eq_take.mp arrived
    by_cases short : received.length < 4 + (encode frame).length
    · rw [taken, readFrame_short fits (encode_ne_nil frame) short] at run
      cases run
    · have whole : received = beBytes 4 (encode frame).length ++ encode frame := by
        refine arrived.eq_of_length_le ?_
        rw [List.length_append, length_beBytes]
        exact Nat.not_lt.mp short
      have reads := readFrame_reads (encode_ne_nil frame) fits (decode_encode (strings_fit fits)) []
      rw [List.append_nil, ← whole, run] at reads
      cases reads
      rfl
  · rw [written_of_not_fits fits] at arrived
    obtain rfl := List.prefix_nil.mp arrived
    cases run

end Wire

namespace Peer

theorem writeFrame_prefix (io : Peer) (frame : Wire.Frame) :
    ∃ bytes, (io.writeFrame frame).2.sent = io.sent ++ bytes ∧ bytes <+: Wire.written frame := by
  unfold writeFrame
  by_cases fits : (Wire.encode frame).length ≤ Wire.maxFrameSize
  · rw [Wire.written_of_fits fits, Wire.writeFrame, if_neg (Nat.not_lt.mpr fits)]
    cases io.breaks with
    | none => exact ⟨_, rfl, List.prefix_rfl⟩
    | some n =>
        refine ⟨_, ?_, List.take_prefix n _⟩
        dsimp only
        rw [List.take_append, List.take_of_length_le (Nat.le_add_right _ n),
          Nat.add_sub_cancel_left]
  · rw [Wire.writeFrame, if_pos (Nat.not_le.mp fits)]
    exact ⟨[], (List.append_nil _).symm, List.nil_prefix⟩

theorem readFrame_eq_ok {io left : Peer} {frame : Wire.Frame}
    (read : io.readFrame = .ok (frame, left)) :
    Wire.readFrame.run io.received = .ok (frame, left.received) ∧ left.sent = io.sent := by
  unfold readFrame at read
  split at read
  · cases read
  · rename_i run
    cases read
    exact ⟨run, rfl⟩

end Peer

end NyaLink
