import NyaLink.Stream.Receive

/-!
# In-order exact delivery of one stream

`Receiving` relates the receive side to the pieces the peer cut from its byte
string.  `Advances` says that received bytes stay received.  Both are shown for
the delivery of one chunk, carried through the drain loop, and then through
`deliver_data` and `note_app_read`; the ACK these send is always the frame of
the state they leave behind.
-/

namespace NyaLink.StreamState

/-- What a buffered chunk adds to `recvBuffered`. -/
def chunkLength (_ : Nat) (chunk : Bytes) : Nat := chunk.length

/-- The receive side against the pieces of the peer.  The application has reported
`appRead` bytes, and holds `pending` further bytes it has taken but not reported. -/
structure Receiving (pieces : List Bytes) (appRead pending : Nat) (st : StreamState) :
    Prop where
  cut : CutAt pieces st.recvNext
  buffered : ∀ offset chunk, st.recvBuf.get? offset = some chunk →
    st.recvNext ≤ offset ∧ SegmentAt pieces offset chunk
  inOrder : st.inbound.delivered = pieces.flatten.take st.recvNext
  counted : st.recvBuffered = st.recvBuf.total chunkLength
  credit : appRead + st.bufferedIn = st.recvNext
  owed : pending + st.inbound.queuedBytes ≤ st.bufferedIn

/-- Received bytes stay received. -/
structure Advances (before after : StreamState) : Prop where
  recvNext : before.recvNext ≤ after.recvNext
  received : ∀ position, before.Received position → after.Received position

theorem Advances.refl (st : StreamState) : Advances st st :=
  ⟨le_rfl, fun _ received => received⟩

theorem Advances.trans {first second third : StreamState} (earlier : Advances first second)
    (later : Advances second third) : Advances first third :=
  ⟨earlier.recvNext.trans later.recvNext,
    fun position received => later.received position (earlier.received position received)⟩

theorem RecvKept.advances {before after : StreamState} (kept : RecvKept before after) :
    Advances before after :=
  ⟨kept.recvNext.ge, fun position => (kept.received position).mpr⟩

section

variable {pieces : List Bytes} {appRead pending : Nat} {st : StreamState}

theorem receiving_new (id initialWindow chan : Nat) :
    Receiving [] 0 0 (StreamState.new id initialWindow chan) where
  cut := cutAt_zero []
  buffered := fun offset chunk found => by simp [StreamState.new] at found
  inOrder := rfl
  counted := rfl
  credit := rfl
  owed := le_rfl

theorem Receiving.kept {after : StreamState} (receiving : Receiving pieces appRead pending st)
    (kept : RecvKept st after) : Receiving pieces appRead pending after where
  cut := kept.recvNext.symm ▸ receiving.cut
  buffered := by
    rw [kept.recvBuf, kept.recvNext]
    exact receiving.buffered
  inOrder := by rw [kept.delivered, kept.recvNext, receiving.inOrder]
  counted := by rw [kept.recvBuffered, kept.recvBuf, receiving.counted]
  credit := by rw [kept.bufferedIn, kept.recvNext, receiving.credit]
  owed := by
    rw [kept.queuedBytes, kept.bufferedIn]
    exact receiving.owed

theorem Receiving.append (receiving : Receiving pieces appRead pending st)
    (more : List Bytes) : Receiving (pieces ++ more) appRead pending st :=
  { receiving with
    cut := receiving.cut.append more
    buffered := fun offset chunk found =>
      ⟨(receiving.buffered offset chunk found).1,
        (receiving.buffered offset chunk found).2.append more⟩
    inOrder := by
      rw [receiving.inOrder, List.flatten_append,
        List.take_append_of_le_length receiving.cut.le_length] }

/-- Bytes the pump took but never reports stay counted in `bufferedIn`. -/
theorem Receiving.unreported (receiving : Receiving pieces appRead pending st) :
    Receiving pieces appRead 0 st :=
  { receiving with
    owed := by
      have owed := receiving.owed
      omega }

/-! ## One chunk -/

theorem receiving_deliverHead {chunk : Bytes} {inbound : Inbox}
    (receiving : Receiving pieces appRead pending st)
    (head : st.recvBuf.get? st.recvNext = some chunk)
    (sent : st.inbound.trySend (.data chunk) = some inbound) :
    Receiving pieces appRead pending (st.deliverHead chunk inbound) := by
  have segment := (receiving.buffered _ _ head).2
  have accepted := Inbox.trySend_eq_some sent
  refine ⟨segment.cut_end, ?_, ?_, ?_, ?_, ?_⟩
  · intro offset other found
    obtain ⟨different, held⟩ := OrdMap.get?_erase_eq_some_iff.mp found
    have later := receiving.buffered offset other held
    refine ⟨?_, later.2⟩
    rcases segment.le_or_end_le_of_cut later.2.cut with before | behind
    · exact absurd (le_antisymm before later.1) different
    · exact behind
  · rw [deliverHead, segment.take_end, ← receiving.inOrder, accepted]
    simp [Inbox.delivered, Inbound.payload]
  · have erased := OrdMap.total_erase_of_some chunkLength head
    have counted := receiving.counted
    simp only [deliverHead, chunkLength] at erased ⊢
    omega
  · have credit := receiving.credit
    simp only [deliverHead]
    omega
  · have owed := receiving.owed
    have queued : inbound.queuedBytes = st.inbound.queuedBytes + chunk.length := by
      simp [accepted, Inbox.queuedBytes, Inbound.payload]
    simp only [deliverHead]
    omega

theorem advances_deliverHead {chunk : Bytes} (inbound : Inbox)
    (head : st.recvBuf.get? st.recvNext = some chunk) :
    Advances st (st.deliverHead chunk inbound) := by
  refine ⟨Nat.le_add_right _ _, ?_⟩
  rintro position (below | ⟨offset, other, found, within⟩)
  · exact .inl (Nat.lt_add_right _ below)
  · by_cases same : offset = st.recvNext
    · subst same
      rw [head] at found
      cases found
      exact .inl within.2
    · exact .inr ⟨offset, other, by rwa [deliverHead, OrdMap.get?_erase_of_ne _ same], within⟩

theorem replaceChunk_eq {offset : Nat} {old data : Bytes}
    (receiving : Receiving pieces appRead pending st) (nonempty : ∀ piece ∈ pieces, piece ≠ [])
    (found : st.recvBuf.get? offset = some old) (segment : SegmentAt pieces offset data) :
    st.replaceChunk offset old data = st := by
  have same : old = data :=
    SegmentAt.eq_of_nonempty nonempty (receiving.buffered _ _ found).2 segment
  subst same
  have part := OrdMap.weight_le_total chunkLength found
  have counted := receiving.counted
  simp only [chunkLength] at part
  have unchanged : st.recvBuffered - old.length + old.length = st.recvBuffered := by omega
  simp only [replaceChunk, OrdMap.insert_eq_self found, unchanged]

theorem receiving_bufferChunk {offset : Nat} {data : Bytes}
    (receiving : Receiving pieces appRead pending st) (ahead : st.recvNext ≤ offset)
    (missing : st.recvBuf.get? offset = none) (segment : SegmentAt pieces offset data) :
    Receiving pieces appRead pending (st.bufferChunk offset data) :=
  { receiving with
    buffered := by
      intro other chunk found
      simp only [bufferChunk, OrdMap.get?_insert] at found
      split at found
      · rename_i same
        cases found
        subst same
        exact ⟨ahead, segment⟩
      · exact receiving.buffered other chunk found
    counted := by
      have inserted := OrdMap.total_insert_of_none chunkLength data missing
      have counted := receiving.counted
      simp only [bufferChunk, chunkLength] at inserted ⊢
      omega }

theorem advances_bufferChunk {offset : Nat} (data : Bytes)
    (missing : st.recvBuf.get? offset = none) : Advances st (st.bufferChunk offset data) := by
  refine ⟨le_rfl, ?_⟩
  rintro position (below | ⟨other, chunk, found, within⟩)
  · exact .inl below
  · have different : other ≠ offset := by
      rintro rfl
      rw [missing] at found
      cases found
    exact .inr ⟨other, chunk, by rwa [bufferChunk, OrdMap.get?_insert_of_ne _ _ different],
      within⟩

/-! ## The drain -/

theorem receiving_drainLoop (receiving : Receiving pieces appRead pending st) (rounds : Nat) :
    Receiving pieces appRead pending (drainLoop rounds st) :=
  drainLoop_induction (fun _ _ _ held head sent => receiving_deliverHead held head sent)
    rounds receiving

theorem advances_drainLoop (st : StreamState) (rounds : Nat) :
    Advances st (drainLoop rounds st) :=
  drainLoop_induction (fun _ _ inbound held head _ =>
    held.trans (advances_deliverHead inbound head))
    rounds (Advances.refl st)

theorem receiving_drainRecv (receiving : Receiving pieces appRead pending st)
    (inputs : CapInputs) : Receiving pieces appRead pending (st.drainRecv inputs).1 := by
  obtain ⟨tuned, origin, result⟩ := drainRecv_eq st inputs
  rw [result]
  refine Receiving.kept ?_ (ending_tryFinishRecvClose tuned).toRecvKept
  have drained := receiving_drainLoop receiving st.recvBuf.size
  rcases origin with rfl | rfl
  · exact drained
  · exact { drained with }

theorem advances_drainRecv (st : StreamState) (inputs : CapInputs) :
    Advances st (st.drainRecv inputs).1 := by
  obtain ⟨tuned, origin, result⟩ := drainRecv_eq st inputs
  rw [result]
  refine Advances.trans ?_ (ending_tryFinishRecvClose tuned).toRecvKept.advances
  have drained := advances_drainLoop st st.recvBuf.size
  rcases origin with rfl | rfl
  · exact drained
  · exact { drained with }

theorem Ending.ackFrame {before after : StreamState} (ending : Ending before after) :
    after.ackFrame = before.ackFrame := by
  simp only [StreamState.ackFrame, advertisedWindow, sackRanges, newestRun, bufferedRuns,
    ending.id, ending.recvNext, ending.recvCap, ending.bufferedIn, ending.recvBuffered,
    ending.recvBuf, ending.lastHoleArrival]

theorem drainRecv_ack (st : StreamState) (inputs : CapInputs) :
    (st.drainRecv inputs).2 = (st.drainRecv inputs).1.ackFrame := by
  obtain ⟨tuned, -, result⟩ := drainRecv_eq st inputs
  rw [result]
  exact (ending_tryFinishRecvClose tuned).ackFrame.symm

/-! ## Arrival of DATA -/

/-- The ACK of `deliver_data` describes the state it leaves behind. -/
theorem deliverData_ack (st : StreamState) (path : Nat) (data : StreamData)
    (inputs : CapInputs) :
    (st.deliverData path data inputs).2 =
      if st.reset then none else some (st.deliverData path data inputs).1.ackFrame := by
  simp only [deliverData]
  split
  · rfl
  · split
    · rfl
    · split
      · rfl
      · split
        · rfl
        · exact congrArg some (drainRecv_ack _ inputs)

theorem receiving_deliverData (receiving : Receiving pieces appRead pending st)
    (nonempty : ∀ piece ∈ pieces, piece ≠ []) (path : Nat) {data : StreamData}
    (segment : SegmentAt pieces data.offset data.data) (inputs : CapInputs) :
    Receiving pieces appRead pending (st.deliverData path data inputs).1 := by
  have arrived : Receiving pieces appRead pending (st.noteArrival path) := { receiving with }
  simp only [deliverData]
  split
  · exact receiving
  · split
    · exact receiving
    · split
      · exact arrived
      · rename_i ahead
        split
        · rename_i old found
          rw [replaceChunk_eq arrived nonempty found segment]
          exact arrived
        · rename_i missing
          exact receiving_drainRecv
            (receiving_bufferChunk arrived (not_lt.mp ahead) missing segment) inputs

theorem advances_deliverData (receiving : Receiving pieces appRead pending st)
    (nonempty : ∀ piece ∈ pieces, piece ≠ []) (path : Nat) {data : StreamData}
    (segment : SegmentAt pieces data.offset data.data) (inputs : CapInputs) :
    Advances st (st.deliverData path data inputs).1 := by
  have arrived : Receiving pieces appRead pending (st.noteArrival path) := { receiving with }
  have noted : Advances st (st.noteArrival path) := { Advances.refl st with }
  simp only [deliverData]
  split
  · exact Advances.refl st
  · split
    · exact Advances.refl st
    · split
      · exact noted
      · split
        · rename_i old found
          rw [replaceChunk_eq arrived nonempty found segment]
          exact noted
        · rename_i missing
          exact (noted.trans (advances_bufferChunk data.data missing)).trans
            (advances_drainRecv _ inputs)

/-! ## The application reads -/

theorem receiving_noteAppRead (receiving : Receiving pieces appRead pending st)
    (inputs : CapInputs) :
    Receiving pieces (appRead + pending) 0 (st.noteAppRead pending inputs).1 := by
  refine receiving_drainRecv ?_ inputs
  have credit := receiving.credit
  have owed := receiving.owed
  exact { receiving with
    credit := by
      show appRead + pending + (st.bufferedIn - pending) = st.recvNext
      omega
    owed := by
      show 0 + st.inbound.queuedBytes ≤ st.bufferedIn - pending
      omega }

theorem advances_noteAppRead (st : StreamState) (n : Nat) (inputs : CapInputs) :
    Advances st (st.noteAppRead n inputs).1 := by
  have credited : Advances st { st with bufferedIn := st.bufferedIn - n } :=
    { Advances.refl st with }
  exact credited.trans (advances_drainRecv _ inputs)

theorem noteAppRead_ack (st : StreamState) (n : Nat) (inputs : CapInputs) :
    (st.noteAppRead n inputs).2 = (st.noteAppRead n inputs).1.ackFrame :=
  drainRecv_ack _ inputs

end

end NyaLink.StreamState
