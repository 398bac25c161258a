import NyaLink.Stream.Steps

/-!
# The joint invariant of a link

`Flow sender receiver` is what holds between the send side of one endpoint and
the receive side of the other, in each direction, however their frames were
lost, duplicated or reordered.  It is shown to survive every step of either
endpoint, once with the endpoint as the sender and once as the receiver, and so
holds in every reachable state.
-/

namespace NyaLink

open StreamState

/-- The frame is one this endpoint can have sent: DATA carries one of its pieces, an ACK is
one it generated. -/
def Emitted (source : Endpoint) : Frame → Prop
  | .streamData data => SegmentAt source.pieces data.offset data.data
  | .streamAck ack => ack ∈ source.acks
  | _ => True

/-- A piece in the sender's `unacked` map contains the byte. -/
def Unacknowledged (sender : Endpoint) (position : Nat) : Prop :=
  ∃ offset u, sender.st.unacked.get? offset = some u ∧
    offset ≤ position ∧ position < offset + u.data.length

/-- The byte is in the piece that `send_data` cut last and has not put in `unacked`: it still
waits for a path with it, or has given up. -/
def InHand (sender : Endpoint) (position : Nat) : Prop :=
  ∃ offset piece, sender.phase.inHand = some (offset, piece) ∧
    offset ≤ position ∧ position < offset + piece.length

structure Flow (sender receiver : Endpoint) : Prop where
  nonempty : ∀ piece ∈ sender.pieces, piece ≠ []
  sent : sender.st.sendNext = sender.pieces.flatten.length
  wrote : sender.written = sender.pieces.flatten ++ sender.phase.rest
  unacked : ∀ offset u, sender.st.unacked.get? offset = some u →
    SegmentAt sender.pieces offset u.data
  inHand : ∀ offset piece, sender.phase.inHand = some (offset, piece) →
    SegmentAt sender.pieces offset piece
  receiving : Receiving sender.pieces receiver.appRead (receiver.taken.getD 0) receiver.st
  early : ∀ entry ∈ receiver.early, SegmentAt sender.pieces entry.2.offset entry.2.data
  justified : ∀ ack ∈ receiver.acks, receiver.st.Justifies ack
  acked : sender.st.sendAcked ≤ receiver.st.recvNext
  covered : sender.st.gone = false → ∀ position < sender.st.sendNext,
    Unacknowledged sender position ∨ receiver.st.Received position ∨ InHand sender position

/-- A step of endpoint `e` keeps the flows with its peer, in both directions. -/
structure Keeps (e peer : Endpoint) (result : Endpoint × Output) : Prop where
  asSender : Flow result.1 peer
  asReceiver : Flow peer result.1
  emitted : ∀ output ∈ result.2, Emitted result.1 output.2
  pieces : e.pieces <+: result.1.pieces
  advances : Advances e.st result.1.st
  acks : ∀ ack ∈ e.acks, ack ∈ result.1.acks
  initialWindow : result.1.st.initialWindow = e.st.initialWindow

theorem flow_new (isClient accepted : Bool) (id window chan : Nat) (otherClient other : Bool)
    (otherWindow otherChan : Nat) :
    Flow (.new isClient accepted id window chan)
      (.new otherClient other id otherWindow otherChan) where
  nonempty := by simp [Endpoint.new]
  sent := rfl
  wrote := rfl
  unacked := by simp [Endpoint.new, StreamState.new]
  inHand := by simp [Endpoint.new, SendPhase.inHand]
  receiving := receiving_new id otherWindow otherChan
  early := by simp [Endpoint.new]
  justified := by simp [Endpoint.new]
  acked := le_rfl
  covered := by
    intro _ position below
    simp [Endpoint.new, StreamState.new] at below

section

variable {sender receiver e peer : Endpoint}

/-! ## Changes of the sender -/

theorem Flow.senderKept {after : Endpoint} (flow : Flow sender receiver)
    (kept : SenderKept sender after) : Flow after receiver where
  nonempty := by rw [kept.pieces]; exact flow.nonempty
  sent := by rw [kept.sendNext, kept.pieces, flow.sent]
  wrote := by rw [kept.written, kept.pieces, kept.phase, flow.wrote]
  unacked := by
    intro offset u found
    rw [kept.pieces]
    rcases kept.held with ⟨-, same⟩ | ⟨-, emptied⟩
    · rw [same] at found
      exact flow.unacked offset u found
    · rw [emptied] at found
      cases found
  inHand := by rw [kept.phase, kept.pieces]; exact flow.inHand
  receiving := by rw [kept.pieces]; exact flow.receiving
  early := by rw [kept.pieces]; exact flow.early
  justified := flow.justified
  acked := by rw [kept.sendAcked]; exact flow.acked
  covered := by
    intro live position below
    rcases kept.held with ⟨sameGone, same⟩ | ⟨removed, -⟩
    · rw [Unacknowledged, InHand, same, kept.phase]
      rw [sameGone] at live
      rw [kept.sendNext] at below
      exact flow.covered live position below
    · rw [removed] at live
      cases live

/-- The send loop moved on with the same bytes. -/
theorem Flow.phase {phase : SendPhase} (flow : Flow sender receiver)
    (rest : phase.rest = sender.phase.rest) (inHand : phase.inHand = sender.phase.inHand) :
    Flow { sender with phase := phase } receiver :=
  { flow with
    wrote := flow.wrote.trans (by rw [rest])
    inHand := by
      show ∀ offset piece, phase.inHand = some (offset, piece) → _
      rw [inHand]
      exact flow.inHand
    covered := by
      intro live position below
      rw [InHand, inHand]
      exact flow.covered live position below }

theorem Flow.submit (flow : Flow sender receiver) (idle : sender.phase = .idle) (data : Bytes)
    {phase : SendPhase} (rest : phase.rest = data) (inHand : phase.inHand = none) :
    Flow { sender with written := sender.written ++ data, phase := phase } receiver :=
  { flow with
    wrote := by
      have wrote : sender.written = sender.pieces.flatten := by
        simpa [idle, SendPhase.rest] using flow.wrote
      show sender.written ++ data = sender.pieces.flatten ++ phase.rest
      rw [rest, wrote]
    inHand := by simp [inHand]
    covered := by
      intro live position below
      rcases flow.covered live position below with held | received | ⟨_, _, impossible, _⟩
      · exact .inl held
      · exact .inr (.inl received)
      · rw [idle] at impossible
        cases impossible }

theorem pieceLength_pos {rest : Bytes} (filled : rest ≠ []) (window : Nat) :
    0 < e.pieceLength rest window := by
  have positive := List.length_pos_iff.mpr filled
  simp only [Endpoint.pieceLength, maxStreamPayload]
  omega

theorem pieceLength_le (rest : Bytes) (window : Nat) :
    e.pieceLength rest window ≤ rest.length := by
  simp only [Endpoint.pieceLength]
  omega

theorem Flow.cutPiece {rest : Bytes} {window : Nat} (flow : Flow sender receiver)
    (loaded : sender.phase = .loaded rest window) (filled : rest ≠ []) :
    Flow (sender.cutPiece rest window) receiver := by
  have positive := pieceLength_pos (e := sender) filled window
  have bounded := pieceLength_le (e := sender) rest window
  have last : SegmentAt (sender.cutPiece rest window).pieces sender.st.sendNext
      (rest.take (sender.pieceLength rest window)) := by
    rw [flow.sent]
    exact SegmentAt.last _ _
  refine {
    nonempty := ?_
    sent := ?_
    wrote := ?_
    unacked := fun offset u found => (flow.unacked offset u found).append _
    inHand := ?_
    receiving := flow.receiving.append _
    early := fun entry membership => (flow.early entry membership).append _
    justified := flow.justified
    acked := flow.acked
    covered := ?_ }
  · intro piece membership
    rcases List.mem_append.mp membership with old | new
    · exact flow.nonempty piece old
    · rw [List.mem_singleton.mp new, ← List.length_pos_iff, List.length_take]
      omega
  · simp only [Endpoint.cutPiece, List.flatten_append, List.flatten_singleton, List.length_append,
      List.length_take, flow.sent]
    omega
  · have wrote := flow.wrote
    rw [loaded] at wrote
    simp [Endpoint.cutPiece, SendPhase.rest, wrote]
  · intro offset piece held
    cases held
    exact last
  · intro live position below
    by_cases old : position < sender.st.sendNext
    · rcases flow.covered live position old with held | received | ⟨_, _, impossible, _⟩
      · exact .inl held
      · exact .inr (.inl received)
      · rw [loaded] at impossible
        cases impossible
    · refine .inr (.inr ⟨sender.st.sendNext, _, rfl, not_lt.mp old, ?_⟩)
      simp only [Endpoint.cutPiece] at below
      rw [List.length_take]
      omega

theorem Flow.placePiece {offset : Nat} {piece rest : Bytes} (flow : Flow sender receiver)
    (placing : sender.phase = .placing offset piece rest) (path now : Nat) :
    Flow (sender.placePiece offset piece rest path now) receiver := by
  have segment := flow.inHand offset piece (by rw [placing]; rfl)
  refine { flow with
    wrote := ?_
    unacked := ?_
    inHand := by simp [Endpoint.placePiece]
    covered := ?_ }
  · have wrote : sender.written = sender.pieces.flatten ++ rest := by
      simpa [placing, SendPhase.rest] using flow.wrote
    show sender.written = sender.pieces.flatten ++ (SendPhase.next rest).rest
    rw [SendPhase.rest_next, wrote]
  · intro other u found
    simp only [Endpoint.placePiece, OrdMap.get?_insert] at found
    split at found
    · rename_i same
      cases found
      subst same
      exact segment
    · exact flow.unacked other u found
  · intro live position below
    rcases flow.covered live position below with
      ⟨other, u, found, within⟩ | received | ⟨_, _, held, within⟩
    · by_cases same : other = offset
      · subst same
        have equal : u.data = piece :=
          SegmentAt.eq_of_nonempty flow.nonempty (flow.unacked _ _ found) segment
        refine .inl ⟨other, _, OrdMap.get?_insert_self _ _ _, within.1, ?_⟩
        rw [← equal]
        exact within.2
      · exact .inl ⟨other, u, by rwa [Endpoint.placePiece, OrdMap.get?_insert_of_ne _ _ same],
          within⟩
    · exact .inr (.inl received)
    · rw [placing] at held
      cases held
      exact .inl ⟨_, _, OrdMap.get?_insert_self _ _ _, within⟩

/-- A re-send changes where a piece is assigned, not its bytes. -/
theorem Flow.reassign (flow : Flow sender receiver) (offset : Nat) {change : Unacked → Unacked}
    (sameData : ∀ u, (change u).data = u.data) :
    Flow { sender with st := { sender.st with
      unacked := sender.st.unacked.modify offset change } } receiver :=
  { flow with
    unacked := by
      intro other u found
      rcases OrdMap.get?_modify_cases found with ⟨-, before, held, rfl⟩ | ⟨-, held⟩
      · rw [sameData]
        exact flow.unacked other before held
      · exact flow.unacked other u held
    covered := by
      intro live position below
      refine (flow.covered live position below).imp ?_ id
      rintro ⟨other, u, found, within⟩
      by_cases same : other = offset
      · refine ⟨other, change u, ?_, by rwa [sameData]⟩
        rw [same] at found ⊢
        simp [found]
      · exact ⟨other, u, by rwa [OrdMap.get?_modify_of_ne _ _ same], within⟩ }

/-- An ACK the peer generated releases only pieces the peer holds. -/
theorem Flow.onAck {ack : StreamAck} (flow : Flow sender receiver)
    (generated : ack ∈ receiver.acks) (now : Nat) :
    Flow { sender with
      st := sender.st.onAck ack now, openPending := false, applied := some ack } receiver := by
  have justified := flow.justified ack generated
  have kept := ackKept_onAck sender.st ack now
  refine { flow with
    sent := by rw [kept.sendNext, flow.sent]
    unacked := ?_
    acked := ?_
    covered := ?_ }
  · intro offset u found
    rw [onAck_unacked, OrdMap.get?_filter_eq_some_iff] at found
    exact flow.unacked offset u found.1
  · rw [onAck_sendAcked]
    exact max_le flow.acked justified.cumulative
  · intro live position below
    rw [kept.gone] at live
    rw [kept.sendNext] at below
    rcases flow.covered live position below with ⟨offset, u, found, within⟩ | others
    · cases released : sender.st.releases ack offset u with
      | true => exact .inr (.inl (received_of_releases justified released within))
      | false =>
          refine .inl ⟨offset, u, ?_, within⟩
          rw [onAck_unacked, OrdMap.get?_filter_eq_some_iff]
          exact ⟨found, by rw [released]; rfl⟩
    · exact .inr others

/-! ## Changes of the receiver -/

/-- One rule for all receive steps: what the receive side has become, that it kept what was
received, and that new ACKs and early DATA are as they should be. -/
theorem Flow.receive {after : Endpoint} (flow : Flow sender receiver)
    (receiving : Receiving sender.pieces after.appRead (after.taken.getD 0) after.st)
    (advances : Advances receiver.st after.st)
    (acks : ∀ ack ∈ after.acks, ack ∈ receiver.acks ∨ after.st.Justifies ack)
    (early : ∀ entry ∈ after.early, entry ∈ receiver.early ∨
      SegmentAt sender.pieces entry.2.offset entry.2.data) : Flow sender after :=
  { flow with
    receiving := receiving
    early := fun entry membership =>
      (early entry membership).elim (flow.early entry) id
    justified := fun ack membership =>
      (acks ack membership).elim (fun old => (flow.justified ack old).advance advances) id
    acked := flow.acked.trans advances.recvNext
    covered := fun live position below =>
      (flow.covered live position below).imp id (Or.imp (advances.received position) id) }

theorem Flow.receiverKept {after : Endpoint} (flow : Flow sender receiver)
    (kept : ReceiverKept receiver after) : Flow sender after := by
  refine flow.receive ?_ kept.toRecvKept.advances ?_ ?_
  · rw [kept.appRead, kept.taken]
    exact flow.receiving.kept kept.toRecvKept
  · rw [kept.acks]
    exact fun ack membership => .inl membership
  · rw [kept.early]
    exact fun entry membership => .inl membership

theorem Flow.deliver {data : StreamData} (flow : Flow sender receiver) (path : Nat)
    (segment : SegmentAt sender.pieces data.offset data.data) (inputs : CapInputs) :
    Flow sender (receiver.deliver path data inputs).1 := by
  refine flow.receive ?_ ?_ ?_ fun entry membership => .inl membership
  · exact receiving_deliverData flow.receiving flow.nonempty path segment inputs
  · exact advances_deliverData flow.receiving flow.nonempty path segment inputs
  · intro ack membership
    rcases List.mem_append.mp membership with new | old
    · rw [Option.mem_toList, deliverData_ack] at new
      split at new
      · cases new
      · cases new
        exact .inr (justifies_ackFrame _)
    · exact .inl old

end

end NyaLink
