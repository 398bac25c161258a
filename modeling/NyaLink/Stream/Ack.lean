import NyaLink.Stream.Delivery

/-!
# Acknowledgement

`on_ack` on the sender, and why it may forget a piece: an ACK that truthfully
describes some earlier receive side only releases pieces the receiver holds.
-/

namespace NyaLink

def StreamAck.covers (ack : StreamAck) (offset : Nat) (u : Unacked) : Bool :=
  decide (offset + u.data.length ≤ ack.ackedOffset)

def StreamAck.sacks (ack : StreamAck) (offset : Nat) (u : Unacked) : Bool :=
  ack.sack.any fun range =>
    decide (range.1 ≤ offset) && decide (offset + u.data.length ≤ range.2)

namespace StreamState

/-- The cumulative part of `on_ack`. -/
def ackCumulative (st : StreamState) (ack : StreamAck) (now : Nat) : StreamState :=
  if st.sendAcked < ack.ackedOffset then
    { st with
      sendAcked := ack.ackedOffset
      lastAckMs := max (monoMs now) 1
      unacked := st.unacked.filter fun offset u => !ack.covers offset u }
  else st

/-- The selective part of `on_ack`. -/
def ackSelective (st : StreamState) (ack : StreamAck) (now : Nat) : StreamState :=
  if ack.sack.isEmpty then st
  else
    { st with
      unacked := st.unacked.filter fun offset u => !ack.sacks offset u
      lastSackMs :=
        if (st.unacked.filter ack.sacks).size = 0 then st.lastSackMs else max (monoMs now) 1 }

/-- `on_ack` on a stream of the table. -/
def onAck (st : StreamState) (ack : StreamAck) (now : Nat) : StreamState :=
  ({ st with sendWindow := ack.window }.ackCumulative ack now).ackSelective ack now

/-- `on_ack` gives this piece back to its path. -/
def releases (st : StreamState) (ack : StreamAck) (offset : Nat) (u : Unacked) : Bool :=
  decide (st.sendAcked < ack.ackedOffset) && ack.covers offset u || ack.sacks offset u

theorem sacks_of_isEmpty {ack : StreamAck} (empty : ack.sack.isEmpty = true) (offset : Nat)
    (u : Unacked) : ack.sacks offset u = false := by
  rw [List.isEmpty_iff] at empty
  simp [StreamAck.sacks, empty]

theorem onAck_unacked (st : StreamState) (ack : StreamAck) (now : Nat) :
    (st.onAck ack now).unacked = st.unacked.filter fun offset u => !st.releases ack offset u := by
  refine OrdMap.ext_get? fun offset => Option.ext fun u => ?_
  rw [OrdMap.get?_filter_eq_some_iff]
  simp only [onAck, ackSelective, ackCumulative, releases]
  by_cases newer : st.sendAcked < ack.ackedOffset
  · by_cases empty : ack.sack.isEmpty = true
    · simp [newer, empty, OrdMap.get?_filter_eq_some_iff, sacks_of_isEmpty empty]
    · simp [newer, empty, OrdMap.get?_filter_eq_some_iff, and_assoc]
  · by_cases empty : ack.sack.isEmpty = true
    · simp [newer, empty, sacks_of_isEmpty empty]
    · simp [newer, empty, OrdMap.get?_filter_eq_some_iff]

theorem onAck_sendAcked (st : StreamState) (ack : StreamAck) (now : Nat) :
    (st.onAck ack now).sendAcked = max st.sendAcked ack.ackedOffset := by
  simp only [onAck, ackSelective, ackCumulative]
  by_cases newer : st.sendAcked < ack.ackedOffset
  · simp only [newer, if_true]
    split <;> exact (max_eq_right newer.le).symm
  · simp only [newer, if_false]
    split <;> exact (max_eq_left (not_lt.mp newer)).symm

/-- Fields `on_ack` sets or leaves alone. -/
structure AckKept (before after : StreamState) : Prop extends RecvKept before after where
  id : after.id = before.id
  gone : after.gone = before.gone
  sendNext : after.sendNext = before.sendNext
  sendFinSent : after.sendFinSent = before.sendFinSent
  recvFin : after.recvFin = before.recvFin
  recvCloseOff : after.recvCloseOff = before.recvCloseOff
  reset : after.reset = before.reset

theorem ackKept_onAck (st : StreamState) (ack : StreamAck) (now : Nat) :
    AckKept st (st.onAck ack now) := by
  have windowed : AckKept st { st with sendWindow := ack.window } :=
    { RecvKept.refl st with
      id := rfl, gone := rfl, sendNext := rfl, sendFinSent := rfl, recvFin := rfl,
      recvCloseOff := rfl, reset := rfl }
  simp only [onAck, ackSelective, ackCumulative]
  split
  · split
    · exact { windowed with }
    · exact windowed
  · split
    · exact { windowed with }
    · exact { windowed with }

theorem onAck_sendWindow (st : StreamState) (ack : StreamAck) (now : Nat) :
    (st.onAck ack now).sendWindow = ack.window := by
  simp only [onAck, ackSelective, ackCumulative]
  split <;> split <;> rfl

/-! ## Only received pieces are released -/

/-- Everything the ACK acknowledges has been received. -/
structure Justifies (st : StreamState) (ack : StreamAck) : Prop where
  cumulative : ack.ackedOffset ≤ st.recvNext
  selective : ∀ range ∈ ack.sack, ∀ position,
    range.1 ≤ position ∧ position < range.2 → st.Received position

theorem justifies_ackFrame (st : StreamState) : st.Justifies st.ackFrame :=
  ⟨le_rfl, fun _ membership _ within => received_of_mem_sackRanges membership within⟩

theorem Justifies.advance {before after : StreamState} {ack : StreamAck}
    (justified : before.Justifies ack) (advances : Advances before after) :
    after.Justifies ack :=
  ⟨justified.cumulative.trans advances.recvNext, fun range membership position within =>
    advances.received position (justified.selective range membership position within)⟩

theorem received_of_releases {sender receiver : StreamState} {ack : StreamAck} {offset : Nat}
    {u : Unacked} (justified : receiver.Justifies ack)
    (released : sender.releases ack offset u = true) {position : Nat}
    (within : offset ≤ position ∧ position < offset + u.data.length) :
    receiver.Received position := by
  rcases Bool.or_eq_true_iff.mp released with cumulative | selective
  · have covered : offset + u.data.length ≤ ack.ackedOffset :=
      of_decide_eq_true (Bool.and_eq_true_iff.mp cumulative).2
    have acked := justified.cumulative
    exact .inl (by omega)
  · obtain ⟨range, membership, inside⟩ := List.any_eq_true.mp selective
    rw [Bool.and_eq_true_iff, decide_eq_true_iff, decide_eq_true_iff] at inside
    exact justified.selective range membership position (by omega)

end StreamState

end NyaLink
