import NyaLink.Stream.Sound

/-!
# What a link never loses and never invents

Both flows and the honesty of the frames in flight hold in every reachable link.
From this: the inbound channel was given exactly the bytes below `recvNext`, and
every byte below `sendNext` is unacknowledged at the sender, received by the
peer, or in the one piece that `send_data` waits for a path with, unless it has
given up on such a piece.
-/

namespace NyaLink

open StreamState

/-- Both flows, and frames in flight that their sources can have sent. -/
structure Sound (link : Link) : Prop where
  flows : ∀ side, Flow (link.endAt side) (link.endAt side.other)
  flying : ∀ f ∈ link.flight, Emitted (link.endAt f.dest.other) f.frame

theorem Sound.toPeer {link : Link} (sound : Sound link) (side : Side) :
    Flow (link.endAt side.other) (link.endAt side) := by
  have flow := sound.flows side.other
  rwa [Side.other_other] at flow

theorem sound_initial {link : Link} (initial : Link.Initial link) : Sound link := by
  obtain ⟨id, openWindow, openChan, acceptWindow, acceptChan, -, -, rfl⟩ := initial
  refine ⟨?_, by simp⟩
  rintro (_ | _)
  · exact flow_new true true id openWindow openChan false false acceptWindow acceptChan
  · exact flow_new false false id acceptWindow acceptChan true true openWindow openChan

/-- Whatever one side does, it keeps the flows with its peer. -/
theorem Sound.keeps {link : Link} (sound : Sound link) {action : LinkAction} {side : Side}
    {result : Endpoint × Output} (acts : Link.Acts link action side result) :
    Keeps (link.endAt side) (link.endAt side.other) result := by
  cases acts with
  | alone stepped => exact keeps_step (sound.flows side) (sound.toPeer side) stepped
  | @arrival index now inputs f found =>
      exact keeps_handleFrame (sound.flows f.dest) (sound.toPeer f.dest) f.path
        (sound.flying f (List.mem_of_getElem? found)) now inputs

theorem sound_step {link next : Link} (sound : Sound link) {action : LinkAction}
    (taken : link.step action = some next) : Sound next := by
  refine ⟨Link.directional_step taken sound.flows (fun _ _ acts => (sound.keeps acts).asSender)
    (fun _ _ acts => (sound.keeps acts).asReceiver), ?_⟩
  intro f membership
  rcases Link.step_cases taken with ⟨side, result, acts, own, other, flight⟩ | ⟨same, flight⟩
  · have keeps := sound.keeps acts
    rcases flight f membership with old | ⟨output, produced, rfl⟩
    · have emitted := sound.flying f old
      by_cases isActor : f.dest.other = side
      · rw [isActor] at emitted ⊢
        rw [own]
        exact emitted.mono keeps.pieces keeps.acks
      · rw [Side.eq_other_of_ne isActor] at emitted ⊢
        rwa [other]
    · rw [Side.other_other, own]
      exact keeps.emitted output produced
  · obtain ⟨g, held, sameDest, sameFrame⟩ := flight f membership
    rw [same, sameDest, sameFrame]
    exact sound.flying g held

theorem sound_of_reachable {link : Link} (reachable : Link.machine.Reachable link) :
    Sound link := by
  refine reachable.invariant Sound ?_ ?_
  · exact fun _ initial => sound_initial initial
  · exact fun _ _ _ sound taken => sound_step sound taken

/-! ## A small link -/

def freshLink : Link where
  opener := .new true true 1 10 4
  acceptor := .new false false 1 10 4
  flight := []
  paths := []

theorem freshLink_started {good : Link → LinkAction → Prop} :
    Link.machine.ReachableWhen good freshLink :=
  .start ⟨1, 10, 4, 10, 4, by decide, by decide, rfl⟩

theorem freshLink_reachable : Link.machine.Reachable freshLink := freshLink_started

def openSchedule : List LinkAction :=
  [.act .opener (.sendOpen ⟨"origin", 80⟩ 1), .arrive 0 0 ⟨0, 0⟩]

/-- `send_data` of one buffer that fits one piece, up to the cut. -/
def cutSchedule (side : Side) (data : Bytes) : List LinkAction :=
  [.act side (.submit data), .act side .testWindow, .act side .loadWindow, .act side .cut]

/-- `send_data` of one buffer that fits one piece; its frame is left in flight on path 1. -/
def sendSchedule (side : Side) (data : Bytes) : List LinkAction :=
  cutSchedule side data ++ [.act side (.place 1 0)]

/-! ## In-order exact delivery -/

/-- In every reachable link the data chunks given to the inbound channel are the first
`recvNext` bytes the other side wrote. -/
theorem inbound_data_eq_take_written {link : Link} (reachable : Link.machine.Reachable link)
    (side : Side) :
    (link.endAt side.other).st.recvNext ≤ (link.endAt side).written.length ∧
      (link.endAt side.other).st.inbound.delivered =
        (link.endAt side).written.take (link.endAt side.other).st.recvNext := by
  have flow := (sound_of_reachable reachable).flows side
  have bounded := flow.receiving.cut.le_length
  rw [flow.receiving.inOrder, flow.wrote, List.take_append_of_le_length bounded]
  refine ⟨?_, rfl⟩
  rw [List.length_append]
  omega

theorem inbound_data_eq_take_written_two :
    ∃ link, Link.machine.Reachable link ∧ link.acceptor.st.recvNext = 2 ∧
      link.acceptor.st.inbound.delivered = link.opener.written.take 2 := by
  have reached : ∃ link, Link.machine.run freshLink
      (openSchedule ++ sendSchedule .opener [7, 8] ++ [.arrive 0 0 ⟨0, 0⟩]) = some link ∧
      link.acceptor.st.recvNext = 2 := ⟨_, rfl, rfl⟩
  obtain ⟨link, replayed, recvNext⟩ := reached
  have reachable := freshLink_reachable.run replayed
  have takenExactly := (inbound_data_eq_take_written reachable .opener).2
  rw [Side.other, Link.endAt, Link.endAt, recvNext] at takenExactly
  exact ⟨link, reachable, recvNext, takenExactly⟩

/-! ## No byte is lost -/

/-- The byte is in the piece that `send_data` waits for a path with. -/
def Waiting (sender : Endpoint) (position : Nat) : Prop :=
  ∃ offset piece rest, sender.phase = .placing offset piece rest ∧
    offset ≤ position ∧ position < offset + piece.length

/-- `send_data` returned an error while it waited for a path with a piece.  No step leaves this
phase. -/
def SendPhase.hasGivenUp : SendPhase → Bool
  | .gaveUp _ _ _ => true
  | _ => false

theorem InHand.waiting {sender : Endpoint} {position : Nat} (held : InHand sender position)
    (keeps : sender.phase.hasGivenUp = false) : Waiting sender position := by
  obtain ⟨offset, piece, inHand, within⟩ := held
  cases phase : sender.phase with
  | placing cut waiting rest =>
      rw [phase] at inHand
      cases inHand
      exact ⟨offset, piece, rest, phase, within⟩
  | gaveUp =>
      rw [phase] at keeps
      cases keeps
  | idle | window | room | loaded | stopped =>
      rw [phase] at inHand
      cases inHand

/-- Every byte below `sendNext` of a stream that its sender still holds, and has not given up on,
is unacknowledged, received by the peer, or in the piece that waits for a path; and the next ACK
to arrive releases only bytes the peer has received. -/
theorem sent_bytes_are_held {link : Link} (reachable : Link.machine.Reachable link)
    {side : Side} (live : (link.endAt side).st.gone = false)
    (keeps : (link.endAt side).phase.hasGivenUp = false) :
    (∀ position < (link.endAt side).st.sendNext,
      Unacknowledged (link.endAt side) position ∨
        (link.endAt side.other).st.Received position ∨ Waiting (link.endAt side) position) ∧
    ∀ f ∈ link.flight, f.dest = side → ∀ ack, f.frame = .streamAck ack →
      ∀ offset u, (link.endAt side).st.unacked.get? offset = some u →
        (link.endAt side).st.releases ack offset u = true →
        ∀ position, offset ≤ position ∧ position < offset + u.data.length →
          (link.endAt side.other).st.Received position := by
  have sound := sound_of_reachable reachable
  have flow := sound.flows side
  refine ⟨?_, ?_⟩
  · intro position below
    exact (flow.covered live position below).imp id (Or.imp id fun held => held.waiting keeps)
  intro f membership arriving ack carried offset u _ released position within
  have generated : ack ∈ (link.endAt side.other).acks := by
    have emitted := sound.flying f membership
    rwa [arriving, carried] at emitted
  exact received_of_releases (flow.justified ack generated) released within

/-- A placed byte is held, and the ACK of its arrival may release it. -/
theorem sent_bytes_are_held_one :
    ∃ link, Link.machine.Reachable link ∧ (link.endAt .opener).st.sendNext = 1 ∧
      (Unacknowledged (link.endAt .opener) 0 ∨ (link.endAt .acceptor).st.Received 0 ∨
        Waiting (link.endAt .opener) 0) := by
  have reached : ∃ link, Link.machine.run freshLink
      (openSchedule ++ sendSchedule .opener [7]) = some link ∧
      (link.endAt .opener).st.gone = false ∧ (link.endAt .opener).phase.hasGivenUp = false ∧
      (link.endAt .opener).st.sendNext = 1 :=
    ⟨_, rfl, rfl, rfl, rfl⟩
  obtain ⟨link, replayed, live, keeps, sent⟩ := reached
  have reachable := freshLink_reachable.run replayed
  have held := (sent_bytes_are_held reachable live keeps).1 0
  rw [sent] at held
  exact ⟨link, reachable, sent, held Nat.one_pos⟩

/-- While `send_data` waits for a path, the piece it has cut is nowhere else. -/
theorem sent_bytes_are_not_always_held :
    ¬ ∀ link, Link.machine.Reachable link → ∀ side,
      (link.endAt side).live = true → (link.endAt side.other).live = true →
      (link.endAt side).st.reset = false → (link.endAt side.other).st.reset = false →
      ∀ position < (link.endAt side).st.sendNext,
        Unacknowledged (link.endAt side) position ∨
          (link.endAt side.other).st.Received position := by
  intro always
  have reached : ∃ link, Link.machine.run freshLink
      (openSchedule ++ cutSchedule .opener [7]) = some link ∧
      link.opener.live = true ∧ link.acceptor.live = true ∧
      link.opener.st.reset = false ∧ link.acceptor.st.reset = false ∧
      link.opener.st.sendNext = 1 ∧ link.opener.st.unacked = .empty ∧
      link.acceptor.st.recvNext = 0 ∧ link.acceptor.st.recvBuf = .empty :=
    ⟨_, rfl, rfl, rfl, rfl, rfl, rfl, rfl, rfl, rfl⟩
  obtain ⟨link, replayed, live, peerLive, unreset, peerUnreset, sent, unacked, recvNext,
    recvBuf⟩ := reached
  have below : 0 < (link.endAt .opener).st.sendNext := by
    rw [Link.endAt, sent]
    exact Nat.one_pos
  rcases always link (freshLink_reachable.run replayed) .opener live peerLive unreset peerUnreset
    0 below with ⟨offset, u, found, -⟩ | received | ⟨offset, chunk, found, -⟩
  · rw [Link.endAt, unacked] at found
    cases found
  · rw [Side.other, Link.endAt, recvNext] at received
    cases received
  · rw [Side.other, Link.endAt, recvBuf] at found
    cases found

end NyaLink
