import NyaLink.Session.Intake

/-!
# No addition overflows

Only what arrives can be too large: the end of a piece that the reorder buffer
takes in, or the volume the counters add up.  The chunks, offsets and pieces an
action finds in the stream are in range already, so every other sum stays below
the ends the buffer took, and a run is free of overflow exactly when everything
it brings fits.
-/

namespace NyaLink

theorem u32Max_lt_u64Max : u32Max < u64Max := by decide

namespace StreamState

/-- The numbers of a stream whose buffer took in nothing that ends beyond `u64`. -/
structure InRange (st : StreamState) : Prop where
  chunkEnd : ∀ offset chunk, st.recvBuf.get? offset = some chunk →
    offset + chunk.length ≤ u64Max
  unread : st.bufferedIn ≤ st.recvNext
  received : st.recvNext ≤ u64Max
  sent : st.sendNext ≤ u64Max
  pieceEnd : ∀ offset u, st.unacked.get? offset = some u →
    offset + u.data.length ≤ st.sendNext
  inflight : st.inflightSend ≤ u32Max
  window : st.sendWindow ≤ u32Max

theorem inRange_new (id chan : Nat) {initialWindow : Nat} (small : initialWindow ≤ u32Max) :
    (new id initialWindow chan).InRange where
  chunkEnd := fun _ _ found => by cases found
  unread := le_rfl
  received := Nat.zero_le _
  sent := Nat.zero_le _
  pieceEnd := fun _ _ found => by cases found
  inflight := Nat.zero_le _
  window := small

theorem InRange.ending {before after : StreamState} (inRange : before.InRange)
    (ending : Ending before after) : after.InRange where
  chunkEnd := by
    rw [ending.recvBuf]
    exact inRange.chunkEnd
  unread := by
    rw [ending.bufferedIn, ending.recvNext]
    exact inRange.unread
  received := ending.recvNext ▸ inRange.received
  sent := ending.sendNext ▸ inRange.sent
  pieceEnd := by
    intro offset u found
    rcases ending.held with ⟨_, same⟩ | ⟨_, emptied⟩
    · rw [same] at found
      rw [ending.sendNext]
      exact inRange.pieceEnd offset u found
    · rw [emptied] at found
      cases found
  inflight := by
    rw [inflightSend, ending.sendNext, ending.sendAcked]
    exact inRange.inflight
  window := ending.sendWindow ▸ inRange.window

/-! ### The receive side -/

theorem heldSums_le {entries : List (Nat × Bytes)}
    (ends : ∀ entry ∈ entries, entry.1 + entry.2.length ≤ u64Max) {next held : Nat}
    (behind : held ≤ next) : ∀ sum ∈ heldSums next held entries, sum ≤ u64Max := by
  induction entries generalizing next held with
  | nil =>
      intro sum membership
      cases membership
  | cons entry rest inductionHypothesis =>
      intro sum membership
      have endsHere : entry.1 + entry.2.length ≤ u64Max := ends entry (by simp)
      simp only [heldSums] at membership
      split at membership
      · rename_i atNext
        rcases List.mem_cons.mp membership with rfl | later
        · omega
        · rcases List.mem_cons.mp later with rfl | further
          · omega
          · exact inductionHypothesis (fun other inRest => ends other (by simp [inRest]))
              (by omega) sum further
      · cases membership

theorem add_contiguousFrom_le {entries : List (Nat × Bytes)}
    (ends : ∀ entry ∈ entries, entry.1 + entry.2.length ≤ u64Max) {next : Nat}
    (small : next ≤ u64Max) : next + contiguousFrom next entries ≤ u64Max := by
  induction entries generalizing next with
  | nil => exact small
  | cons entry rest inductionHypothesis =>
      have endsHere : entry.1 + entry.2.length ≤ u64Max := ends entry (by simp)
      simp only [contiguousFrom]
      split
      · rename_i atNext
        have inBound : next + entry.2.length ≤ u64Max := by omega
        have further := inductionHypothesis (fun other inRest => ends other (by simp [inRest]))
          inBound
        omega
      · exact small

variable {st : StreamState}

theorem InRange.entry_le (inRange : st.InRange) {entry : Nat × Bytes}
    (buffered : entry ∈ st.recvBuf.entries) : entry.1 + entry.2.length ≤ u64Max :=
  inRange.chunkEnd entry.1 entry.2 (OrdMap.get?_eq_some_iff.mpr buffered)

theorem InRange.sackSums_le (inRange : st.InRange) : ∀ sum ∈ st.sackSums, sum ≤ u64Max := by
  intro sum membership
  obtain ⟨entry, buffered, rfl⟩ := List.mem_map.mp membership
  exact inRange.entry_le buffered

theorem InRange.backlogSums_le (inRange : st.InRange) :
    ∀ sum ∈ st.backlogSums, sum ≤ u64Max := by
  have ends : ∀ entry ∈ st.recvBuf.entries.filter fun entry => st.recvNext ≤ entry.1,
      entry.1 + entry.2.length ≤ u64Max :=
    fun entry kept => inRange.entry_le (List.mem_filter.mp kept).1
  intro sum membership
  rcases List.mem_append.mp membership with held | backlog
  · exact heldSums_le ends (Nat.zero_le _) sum held
  · obtain rfl := List.mem_singleton.mp backlog
    have run := add_contiguousFrom_le ends inRange.received
    have unread := inRange.unread
    simp only [inOrderHeld]
    omega

theorem InRange.ackSums_le (inRange : st.InRange) : ∀ sum ∈ st.ackSums, sum ≤ u64Max := by
  intro sum membership
  rcases List.mem_append.mp membership with sack | evidence
  · exact inRange.sackSums_le sum sack
  · split at evidence
    · exact inRange.backlogSums_le sum evidence
    · cases evidence

theorem InRange.deliverHead (inRange : st.InRange) {chunk : Bytes} {inbound : Inbox}
    (head : st.recvBuf.get? st.recvNext = some chunk) : (st.deliverHead chunk inbound).InRange :=
  { inRange with
    chunkEnd := by
      intro offset other found
      exact inRange.chunkEnd offset other (OrdMap.get?_erase_eq_some_iff.mp found).2
    unread := Nat.add_le_add_right inRange.unread _
    received := inRange.chunkEnd _ _ head }

theorem InRange.drainLoop (inRange : st.InRange) (rounds : Nat) :
    (StreamState.drainLoop rounds st).InRange :=
  drainLoop_induction (fun _ _ _ inRange head _ => inRange.deliverHead head) rounds inRange

theorem InRange.drainTuned (inRange : st.InRange) (inputs : CapInputs) :
    (st.drainTuned inputs).InRange := by
  have drained := inRange.drainLoop st.recvBuf.size
  simp only [StreamState.drainTuned]
  split
  · exact { drained with }
  · exact drained

theorem InRange.drainLoopSums_le (inRange : st.InRange) (rounds : Nat) {delivered : Nat}
    (behind : delivered ≤ st.recvNext) :
    ∀ sum ∈ drainLoopSums rounds delivered st, sum ≤ u64Max := by
  induction rounds generalizing st delivered with
  | zero =>
      intro sum membership
      cases membership
  | succ rounds inductionHypothesis =>
      intro sum membership
      simp only [drainLoopSums] at membership
      split at membership
      · cases membership
      · rename_i chunk head
        split at membership
        · cases membership
        · rename_i inbound sent
          have chunkEnd := inRange.chunkEnd _ _ head
          have unread := inRange.unread
          rcases List.mem_cons.mp membership with rfl | later
          · exact chunkEnd
          · rcases List.mem_cons.mp later with rfl | later
            · omega
            · rcases List.mem_cons.mp later with rfl | later
              · omega
              · exact inductionHypothesis (inRange.deliverHead head)
                  (Nat.add_le_add_right behind _) sum later

theorem InRange.drainSums_le (inRange : st.InRange) (inputs : CapInputs) :
    ∀ sum ∈ st.drainSums inputs, sum ≤ u64Max := by
  intro sum membership
  rcases List.mem_append.mp membership with drained | acked
  · rcases List.mem_append.mp drained with delivered | held
    · exact inRange.drainLoopSums_le _ (Nat.zero_le _) sum delivered
    · exact (inRange.drainLoop _).backlogSums_le sum held
  · exact (inRange.drainTuned inputs).ackSums_le sum acked

/-- The end of a buffered chunk is computed by the drain: when the chunk is handed over, or
else for the ACK. -/
theorem chunkEnd_mem_drainLoopSums {offset : Nat} {chunk : Bytes} (rounds delivered : Nat)
    (found : st.recvBuf.get? offset = some chunk) :
    offset + chunk.length ∈ drainLoopSums rounds delivered st ∨
      (StreamState.drainLoop rounds st).recvBuf.get? offset = some chunk := by
  induction rounds generalizing st delivered with
  | zero => exact .inr found
  | succ rounds inductionHypothesis =>
      cases head : st.recvBuf.get? st.recvNext with
      | none =>
          rw [drainLoop_of_none rounds head]
          exact .inr found
      | some first =>
          cases sent : st.inbound.trySend (.data first) with
          | none =>
              rw [drainLoop_of_full rounds head sent]
              exact .inr found
          | some inbound =>
              simp only [drainLoopSums, head, sent, drainLoop_of_sent rounds head sent]
              by_cases atHead : offset = st.recvNext
              · rw [atHead, head] at found
                cases found
                exact .inl (by simp [atHead])
              · have still : (st.deliverHead first inbound).recvBuf.get? offset = some chunk :=
                  (OrdMap.get?_erase_of_ne st.recvBuf atHead).trans found
                rcases inductionHypothesis (delivered + first.length) still with later | left
                · exact .inl (by simp [later])
                · exact .inr left

theorem chunkEnd_mem_sackSums {offset : Nat} {chunk : Bytes}
    (found : st.recvBuf.get? offset = some chunk) : offset + chunk.length ∈ st.sackSums :=
  List.mem_map.mpr ⟨(offset, chunk), OrdMap.get?_eq_some_iff.mp found, rfl⟩

theorem chunkEnd_mem_drainSums {offset : Nat} {chunk : Bytes} (inputs : CapInputs)
    (found : st.recvBuf.get? offset = some chunk) :
    offset + chunk.length ∈ st.drainSums inputs := by
  rcases chunkEnd_mem_drainLoopSums st.recvBuf.size 0 found with delivered | left
  · exact List.mem_append.mpr (.inl (List.mem_append.mpr (.inl delivered)))
  · have tuned : (st.drainTuned inputs).recvBuf.get? offset = some chunk := by
      simp only [StreamState.drainTuned]
      split
      · exact left
      · exact left
    exact List.mem_append.mpr (.inr (List.mem_append.mpr (.inl (chunkEnd_mem_sackSums tuned))))

theorem InRange.noteArrival (inRange : st.InRange) (path : Nat) :
    (st.noteArrival path).InRange :=
  { inRange with }

/-- Chunk ends after a chunk was put into the buffer. -/
theorem InRange.insert_le (inRange : st.InRange) {offset : Nat} {data : Bytes}
    (fits : offset + data.length ≤ u64Max) :
    ∀ other chunk, (st.recvBuf.insert offset data).get? other = some chunk →
      other + chunk.length ≤ u64Max := by
  intro other chunk found
  rcases OrdMap.get?_insert_cases found with ⟨rfl, rfl⟩ | before
  · exact fits
  · exact inRange.chunkEnd other chunk before

theorem InRange.replaceChunk (inRange : st.InRange) {offset : Nat} {old data : Bytes}
    (fits : offset + data.length ≤ u64Max) : (st.replaceChunk offset old data).InRange :=
  { inRange with chunkEnd := inRange.insert_le fits }

theorem InRange.bufferChunk (inRange : st.InRange) {offset : Nat} {data : Bytes}
    (fits : offset + data.length ≤ u64Max) : (st.bufferChunk offset data).InRange :=
  { inRange with chunkEnd := inRange.insert_le fits }

theorem InRange.creditRead (inRange : st.InRange) (n : Nat) :
    { st with bufferedIn := st.bufferedIn - n }.InRange :=
  { inRange with unread := (Nat.sub_le _ _).trans inRange.unread }

/-! ### The send side -/

theorem InRange.unackedEnds_le (inRange : st.InRange) {unacked : OrdMap Nat Unacked}
    (fewer : ∀ offset u, unacked.get? offset = some u → st.unacked.get? offset = some u) :
    ∀ sum ∈ unacked.entries.map fun entry => entry.1 + entry.2.data.length, sum ≤ u64Max := by
  intro sum membership
  obtain ⟨entry, unackedEntry, rfl⟩ := List.mem_map.mp membership
  have piece := fewer entry.1 entry.2 (OrdMap.get?_eq_some_iff.mpr unackedEntry)
  exact (inRange.pieceEnd _ _ piece).trans inRange.sent

theorem unacked_ackCumulative (ack : StreamAck) (now : Nat) {offset : Nat} {u : Unacked}
    (found : (st.ackCumulative ack now).unacked.get? offset = some u) :
    st.unacked.get? offset = some u := by
  unfold ackCumulative at found
  split at found
  · exact (OrdMap.get?_filter_eq_some_iff.mp found).1
  · exact found

theorem InRange.ackedSums_le (inRange : st.InRange) (ack : StreamAck) (now : Nat) :
    ∀ sum ∈ st.ackedSums ack now, sum ≤ u64Max := by
  intro sum membership
  rcases List.mem_append.mp membership with cumulative | selective
  · split at cumulative
    · exact inRange.unackedEnds_le (fun _ _ found => found) sum cumulative
    · cases cumulative
  · split at selective
    · cases selective
    · exact inRange.unackedEnds_le (fun _ _ => unacked_ackCumulative ack now) sum selective

theorem InRange.onAck (inRange : st.InRange) {ack : StreamAck} (window : ack.window ≤ u32Max)
    (now : Nat) : (st.onAck ack now).InRange := by
  have kept := ackKept_onAck st ack now
  exact
    { chunkEnd := by
        rw [kept.recvBuf]
        exact inRange.chunkEnd
      unread := by
        rw [kept.bufferedIn, kept.recvNext]
        exact inRange.unread
      received := kept.recvNext ▸ inRange.received
      sent := kept.sendNext ▸ inRange.sent
      pieceEnd := by
        intro offset u found
        rw [onAck_unacked] at found
        rw [kept.sendNext]
        exact inRange.pieceEnd offset u (OrdMap.get?_filter_eq_some_iff.mp found).1
      inflight := by
        have before := inRange.inflight
        simp only [inflightSend] at before ⊢
        rw [kept.sendNext, onAck_sendAcked]
        omega
      window := by
        rw [onAck_sendWindow]
        exact window }

/-- The window a piece is cut for bounds what is in flight after it. -/
theorem InRange.advance (inRange : st.InRange) (available : Nat) (admitted : st.windowOk 1 = true)
    (fits : st.sendNext + st.cutLength available ≤ u64Max) :
    { st with sendNext := st.sendNext + st.cutLength available }.InRange := by
  have window := inRange.window
  have admits : st.inflightSend + 1 ≤ st.sendWindow := of_decide_eq_true admitted
  have cut : st.cutLength available ≤ max (st.sendWindow - st.inflightSend) 1 :=
    (Nat.min_le_left _ _).trans (Nat.min_le_right _ _)
  exact
    { inRange with
      sent := fits
      pieceEnd := fun offset u found =>
        (inRange.pieceEnd offset u found).trans (Nat.le_add_right _ _)
      inflight := by
        simp only [inflightSend] at admits cut ⊢
        omega }

theorem length_take_cutLength (st : StreamState) (available : Bytes) :
    (available.take (st.cutLength available.length)).length = st.cutLength available.length := by
  rw [List.length_take]
  exact Nat.min_eq_left ((Nat.min_le_left _ _).trans (Nat.min_le_left _ _))

/-- The piece that was cut waits for its ACK. -/
theorem InRange.hold (inRange : st.InRange) {piece : Bytes} {u : Unacked}
    (carries : u.data = piece)
    (advanced : { st with sendNext := st.sendNext + piece.length }.InRange) :
    { st with
      sendNext := st.sendNext + piece.length
      unacked := st.unacked.insert st.sendNext u }.InRange :=
  { advanced with
    chunkEnd := inRange.chunkEnd
    pieceEnd := by
      intro offset other found
      simp only [OrdMap.get?_insert] at found
      split at found
      · rename_i same
        cases found
        rw [same, carries]
      · exact (inRange.pieceEnd offset other found).trans (Nat.le_add_right _ _) }

end StreamState

namespace StreamTable

/-- `InRange` of every stream in the table. -/
structure InRange (t : StreamTable) : Prop where
  initialWindow : t.initialWindow ≤ u32Max
  streams : ∀ id st, t.getStream id = some st → st.InRange

variable {t : StreamTable}

theorem InRange.ending {after : StreamTable} (inRange : t.InRange) (ending : Ending t after) :
    after.InRange where
  initialWindow := ending.initialWindow ▸ inRange.initialWindow
  streams := by
    intro id st found
    obtain ⟨old, foundOld, ended⟩ := ending.streams id st found
    exact (inRange.streams id old foundOld).ending ended

theorem InRange.modifyStream (inRange : t.InRange) (id : Nat)
    {change : StreamState → StreamState}
    (kept : ∀ st, t.getStream id = some st → st.InRange → (change st).InRange) :
    (t.modifyStream id change).InRange where
  initialWindow := inRange.initialWindow
  streams := by
    intro other st found
    rcases OrdMap.get?_modify_cases found with ⟨rfl, old, foundOld, rfl⟩ | ⟨-, before⟩
    · exact kept old foundOld (inRange.streams other old foundOld)
    · exact inRange.streams other st before

theorem InRange.alloc (inRange : t.InRange) {id : Nat} {allocated : StreamTable}
    (allocates : t.tryAllocLocalStream id = some allocated) : allocated.InRange := by
  unfold tryAllocLocalStream at allocates
  split at allocates
  · cases allocates
  · cases allocates
    refine ⟨inRange.initialWindow, fun other st found => ?_⟩
    change (t.streams.insert id _).get? other = some st at found
    rcases OrdMap.get?_insert_cases found with ⟨-, rfl⟩ | before
    · exact StreamState.inRange_new id t.chan inRange.initialWindow
    · exact inRange.streams other st before

theorem InRange.openStream (inRange : t.InRange) {target : Target} {path : Nat}
    {opened : StreamTable} (opens : t.openStream target path = some opened) :
    opened.InRange := by
  unfold StreamTable.openStream at opens
  split at opens
  · obtain ⟨allocated, allocates, rfl⟩ := Option.map_eq_some_iff.mp opens
    have numbered : { t with nextStreamId := t.nextStreamId + 1 }.InRange :=
      inRange.ending (.of_same_streams rfl rfl)
    exact (numbered.alloc allocates).ending (.of_same_streams rfl rfl)
  · cases opens

theorem InRange.closeSend (inRange : t.InRange) (id : Nat) : (t.closeSend id).InRange := by
  unfold StreamTable.closeSend
  split
  · exact inRange
  · split
    · exact inRange
    · refine InRange.ending ?_ (ending_maybeCountGraceful _ id)
      exact inRange.modifyStream id fun st _ inRange => { inRange with }

theorem InRange.drainRecv (inRange : t.InRange) (id : Nat) (inputs : CapInputs) :
    (t.drainRecv id inputs).InRange := by
  refine InRange.ending ?_ (ending_tryFinishRecvClose _ id)
  exact inRange.modifyStream id fun st _ inRange => inRange.drainTuned inputs

theorem InRange.noteAppRead (inRange : t.InRange) (id n : Nat) (inputs : CapInputs) :
    (t.noteAppRead id n inputs).InRange := by
  apply InRange.drainRecv
  exact inRange.modifyStream id fun st _ inRange => inRange.creditRead n

theorem InRange.deliverData (inRange : t.InRange) (path : Nat) {data : StreamData}
    (inputs : CapInputs)
    (fits : ∀ st, t.getStream data.streamId = some st → st.takesIn data.offset = true →
      data.offset + data.data.length ≤ u64Max) : (t.deliverData path data inputs).InRange := by
  unfold StreamTable.deliverData
  split
  · exact inRange
  · rename_i st found
    split
    · exact inRange
    · rename_i accepted
      have seen : (if st.peerSeen then t.modifyStream data.streamId fun st => st.noteArrival path
          else (t.modifyStream data.streamId fun st => st.noteArrival path).forgetOpen
            data.streamId).InRange := by
        have arrived : (t.modifyStream data.streamId fun st => st.noteArrival path).InRange :=
          inRange.modifyStream data.streamId fun st _ inRange => inRange.noteArrival path
        split
        · exact arrived
        · exact arrived.ending (ending_forgetOpen _ _)
      simp only
      split
      · exact seen
      · rename_i fresh
        rw [Bool.or_eq_true_iff, not_or, Bool.not_eq_true, Bool.not_eq_true] at accepted
        have taken : st.takesIn data.offset = true := by
          simp only [StreamState.takesIn, accepted.1, accepted.2, Bool.not_false, Bool.true_and,
            decide_eq_true_eq]
          exact Nat.not_lt.mp fresh
        have small := fits st found taken
        split
        · exact seen.modifyStream data.streamId fun st _ inRange => inRange.replaceChunk small
        · apply InRange.drainRecv
          exact seen.modifyStream data.streamId fun st _ inRange => inRange.bufferChunk small

theorem InRange.onAck (inRange : t.InRange) {ack : StreamAck} (window : ack.window ≤ u32Max)
    (now : Nat) : (t.onAck ack now).InRange := by
  unfold StreamTable.onAck
  split
  · exact inRange
  · refine InRange.ending ?_ (ending_forgetOpen _ ack.streamId)
    exact inRange.modifyStream ack.streamId fun st _ inRange => inRange.onAck window now

end StreamTable

namespace Intake

/-- Every stream and every counter is in range. -/
structure InRange (i : Intake) : Prop where
  table : i.table.InRange
  dup : i.dataDupRxBytes ≤ u64Max
  afterFin : i.ackAfterFin ≤ u64Max
  sacked : i.dataSacked ≤ u64Max

variable {i : Intake}

theorem InRange.withTable (inRange : i.InRange) {table : StreamTable} (small : table.InRange) :
    { i with table := table }.InRange :=
  { inRange with table := small }

section

variable {st : StreamState} {data : StreamData}

/-- A refused piece has no end to fit. -/
theorem dataFits_of_refused (refused : st.takesIn data.offset = false) :
    i.DataFits st data ↔ i.dataDupRxBytes + st.dupBytes data ≤ u64Max ∧
      (st.reset = false → st.pastFinal data.offset = true → i.ackAfterFin + 1 ≤ u64Max) := by
  refine ⟨fun fits => ⟨fits.dup, fits.afterFin⟩, fun ⟨dup, afterFin⟩ => ⟨?_, ?_, dup, afterFin⟩⟩
  · intro taken
    cases refused.symm.trans taken
  · intro taken
    cases refused.symm.trans taken

theorem dataFits_of_taken (taken : st.takesIn data.offset = true) :
    i.DataFits st data ↔ data.offset + data.data.length ≤ u64Max ∧
      st.recvBuffered - st.replacedLength data.offset + data.data.length ≤ u64Max ∧
      i.dataDupRxBytes + st.replacedLength data.offset ≤ u64Max := by
  have parts : (st.reset = false ∧ st.pastFinal data.offset = false) ∧
      st.recvNext ≤ data.offset := by
    simpa [StreamState.takesIn] using taken
  have replaced : st.dupBytes data = st.replacedLength data.offset := by
    simp [StreamState.dupBytes, parts.1.1, taken]
  constructor
  · intro fits
    exact ⟨fits.pieceEnd taken, fits.buffered taken, replaced ▸ fits.dup⟩
  · rintro ⟨pieceEnd, buffered, dup⟩
    refine ⟨fun _ => pieceEnd, fun _ => buffered, ?_, ?_⟩
    · rw [replaced]
      exact dup
    · intro _ past
      cases parts.1.2.symm.trans past

/-- The piece comes after the receive side ended: it is counted and acknowledged. -/
theorem past_iff (inRange : st.InRange) (live : st.reset = false)
    (past : st.pastFinal data.offset = true) :
    (∀ sum ∈ (i.dataDupRxBytes + data.data.length) :: (i.ackAfterFin + 1) :: st.ackSums,
      sum ≤ u64Max) ↔ i.DataFits st data := by
  have refused : st.takesIn data.offset = false := by simp [StreamState.takesIn, past]
  have whole : st.dupBytes data = data.data.length := by
    simp [StreamState.dupBytes, live, refused]
  rw [dataFits_of_refused refused, whole]
  constructor
  · intro small
    exact ⟨small _ (by simp), fun _ _ => small _ (by simp)⟩
  · rintro ⟨dup, afterFin⟩ sum membership
    rcases List.mem_cons.mp membership with rfl | later
    · exact dup
    · rcases List.mem_cons.mp later with rfl | acked
      · exact afterFin live past
      · exact inRange.ackSums_le sum acked

/-- The piece lies below `recv_next`. -/
theorem behind_iff (inRange : st.InRange) (path : Nat) (live : st.reset = false)
    (open' : st.pastFinal data.offset = false) (behind : data.offset < st.recvNext) :
    (∀ sum ∈ (i.dataDupRxBytes + data.data.length) :: (st.noteArrival path).ackSums,
      sum ≤ u64Max) ↔ i.DataFits st data := by
  have refused : st.takesIn data.offset = false := by simp [StreamState.takesIn, behind]
  have whole : st.dupBytes data = data.data.length := by
    simp [StreamState.dupBytes, live, refused]
  rw [dataFits_of_refused refused, whole]
  constructor
  · intro small
    refine ⟨small _ (by simp), fun _ past => ?_⟩
    cases open'.symm.trans past
  · rintro ⟨dup, _⟩ sum membership
    rcases List.mem_cons.mp membership with rfl | acked
    · exact dup
    · exact (inRange.noteArrival path).ackSums_le sum acked

/-- The piece lands on an offset that is already buffered. -/
theorem replaced_iff (inRange : st.InRange) (path : Nat)
    (taken : st.takesIn data.offset = true) {old : Bytes}
    (held : st.recvBuf.get? data.offset = some old) :
    (∀ sum ∈ (i.dataDupRxBytes + old.length) ::
      (st.recvBuffered - old.length + data.data.length) ::
      ((st.noteArrival path).replaceChunk data.offset old data.data).ackSums, sum ≤ u64Max) ↔
      i.DataFits st data := by
  have oldLength : st.replacedLength data.offset = old.length := by
    simp [StreamState.replacedLength, held]
  rw [dataFits_of_taken taken, oldLength]
  constructor
  · intro small
    have computed : data.offset + data.data.length ∈
        ((st.noteArrival path).replaceChunk data.offset old data.data).sackSums :=
      StreamState.chunkEnd_mem_sackSums (OrdMap.get?_insert_self _ _ _)
    refine ⟨small _ ?_, small _ (by simp), small _ (by simp)⟩
    simp [StreamState.ackSums, computed]
  · rintro ⟨pieceEnd, buffered, dup⟩ sum membership
    rcases List.mem_cons.mp membership with rfl | later
    · exact dup
    · rcases List.mem_cons.mp later with rfl | acked
      · exact buffered
      · exact ((inRange.noteArrival path).replaceChunk pieceEnd).ackSums_le sum acked

/-- The piece is new to the buffer. -/
theorem fresh_iff (inRange : st.InRange) (path : Nat) (inputs : CapInputs)
    (counter : i.dataDupRxBytes ≤ u64Max) (taken : st.takesIn data.offset = true)
    (missing : st.recvBuf.get? data.offset = none) :
    (∀ sum ∈ (st.recvBuffered + data.data.length) ::
      ((st.noteArrival path).bufferChunk data.offset data.data).drainSums inputs,
      sum ≤ u64Max) ↔ i.DataFits st data := by
  have nothing : st.replacedLength data.offset = 0 := by
    simp [StreamState.replacedLength, missing]
  rw [dataFits_of_taken taken, nothing, Nat.sub_zero, Nat.add_zero]
  constructor
  · intro small
    have computed : data.offset + data.data.length ∈
        ((st.noteArrival path).bufferChunk data.offset data.data).drainSums inputs :=
      StreamState.chunkEnd_mem_drainSums inputs (OrdMap.get?_insert_self _ _ _)
    exact ⟨small _ (List.mem_cons_of_mem _ computed), small _ (by simp), counter⟩
  · rintro ⟨pieceEnd, buffered, _⟩ sum membership
    rcases List.mem_cons.mp membership with rfl | drained
    · exact buffered
    · exact ((inRange.noteArrival path).bufferChunk pieceEnd).drainSums_le inputs sum drained

end

/-- Without a stream there is no sum, and nothing to fit. -/
theorem noSums_iff {fits : StreamState → Prop} :
    (∀ sum ∈ ([] : List Nat), sum ≤ u64Max) ↔ ∀ st, none = some st → fits st := by
  constructor
  · intro _ st impossible
    cases impossible
  · intro _ sum membership
    cases membership

/-- The sums of a delivery fit exactly when the piece does. -/
theorem InRange.deliverDataSums_iff (inRange : i.InRange) (path : Nat) (data : StreamData)
    (inputs : CapInputs) :
    (∀ sum ∈ i.deliverDataSums data inputs path, sum ≤ u64Max) ↔ i.DeliveryFits data := by
  unfold deliverDataSums DeliveryFits
  cases found : i.table.getStream data.streamId with
  | none => exact noSums_iff
  | some st =>
      have streamInRange := inRange.table.streams _ st found
      have atThis : (∀ held, some st = some held → i.DataFits held data) ↔ i.DataFits st data :=
        ⟨fun all => all st rfl, fun this held same => Option.some.inj same ▸ this⟩
      rw [atThis]
      simp only
      split
      · rename_i reset
        have refused : st.takesIn data.offset = false := by simp [StreamState.takesIn, reset]
        have nothing : st.dupBytes data = 0 := if_pos reset
        rw [dataFits_of_refused refused, nothing]
        refine ⟨fun _ => ⟨inRange.dup, fun live => ?_⟩, fun _ _ membership => by cases membership⟩
        cases reset.symm.trans live
      · rename_i live
        rw [Bool.not_eq_true] at live
        split
        · rename_i past
          exact past_iff streamInRange live past
        · rename_i notPast
          rw [Bool.not_eq_true] at notPast
          split
          · rename_i behind
            exact behind_iff streamInRange path live notPast behind
          · rename_i fresh
            have reached : st.recvNext ≤ data.offset := Nat.not_lt.mp fresh
            have taken : st.takesIn data.offset = true := by
              simp [StreamState.takesIn, live, notPast, reached]
            split
            · rename_i old held
              exact replaced_iff streamInRange path taken held
            · rename_i missing
              exact fresh_iff streamInRange path inputs inRange.dup taken missing

theorem InRange.deliverData (inRange : i.InRange) (path : Nat) {data : StreamData}
    (inputs : CapInputs) (fits : i.DeliveryFits data) :
    (i.deliverData path data inputs).InRange := by
  unfold Intake.deliverData
  split
  · exact inRange
  · rename_i st found
    have streamFits := fits st found
    refine ⟨?_, streamFits.dup, ?_, inRange.sacked⟩
    · exact inRange.table.deliverData path inputs fun held foundHeld =>
        (fits held foundHeld).pieceEnd
    · simp only
      split
      · rename_i late
        rw [Bool.and_eq_true_iff, Bool.not_eq_true'] at late
        exact streamFits.afterFin late.1 late.2
      · exact inRange.afterFin

theorem InRange.onData (inRange : i.InRange) (path : Nat) {data : StreamData}
    (inputs : CapInputs) (fits : i.DeliveryFits data) : (i.onData path data inputs).InRange := by
  unfold Intake.onData
  split
  · rename_i unknown
    refine inRange.withTable (inRange.table.ending ?_)
    simp only [StreamTable.onData, unknown]
    exact .of_same_streams rfl rfl
  · exact inRange.deliverData path inputs fits

theorem InRange.deliverEarlySums_iff (inRange : i.InRange) (inputs : CapInputs)
    (early : List (Nat × StreamData)) :
    (∀ sum ∈ i.deliverEarlySums inputs early, sum ≤ u64Max) ↔ i.EarlyFits inputs early := by
  induction early generalizing i with
  | nil => exact ⟨fun _ => trivial, fun _ _ membership => by cases membership⟩
  | cons piece rest inductionHypothesis =>
      simp only [deliverEarlySums, EarlyFits, List.forall_mem_append,
        inRange.deliverDataSums_iff piece.1 piece.2 inputs]
      refine and_congr_right fun fits => ?_
      exact inductionHypothesis (inRange.deliverData piece.1 inputs fits)

theorem InRange.deliverEarly (inRange : i.InRange) (inputs : CapInputs)
    {early : List (Nat × StreamData)} (fits : i.EarlyFits inputs early) :
    (i.deliverEarly inputs early).InRange := by
  induction early generalizing i with
  | nil => exact inRange
  | cons piece rest inductionHypothesis =>
      exact inductionHypothesis (inRange.deliverData piece.1 inputs fits.1) fits.2

theorem InRange.allocated (inRange : i.InRange) {id : Nat} {early : List (Nat × StreamData)}
    {allocated : Intake} (allocates : i.allocated? id = some (early, allocated)) :
    allocated.InRange := by
  obtain ⟨table, begins, same⟩ := Option.map_eq_some_iff.mp allocates
  cases same
  exact inRange.withTable ((inRange.table.alloc begins).ending (.of_same_streams rfl rfl))

theorem InRange.acceptRemoteStream (inRange : i.InRange) (id : Nat) (inputs : CapInputs)
    (incoming : Incoming)
    (fits : ∀ early allocated, i.allocated? id = some (early, allocated) →
      allocated.EarlyFits inputs early) : (i.acceptRemoteStream id inputs incoming).InRange := by
  unfold Intake.acceptRemoteStream
  split
  · exact inRange
  · rename_i early allocated allocates
    have filled := (inRange.allocated allocates).deliverEarly inputs (fits _ _ allocates)
    cases incoming with
    | full => exact filled.withTable (filled.table.ending (StreamTable.ending_finishStream _ id _))
    | _ => exact filled

/-! ### Acknowledgements and the application -/

theorem InRange.onAckSums_iff (inRange : i.InRange) (ack : StreamAck) (now : Nat) :
    (∀ sum ∈ i.onAckSums ack now, sum ≤ u64Max) ↔
      ∀ st, i.table.getStream ack.streamId = some st →
        i.dataSacked + st.sackedCount ack now ≤ u64Max := by
  unfold onAckSums
  cases found : i.table.getStream ack.streamId with
  | none => exact noSums_iff
  | some st =>
      have released := (inRange.table.streams _ st found).ackedSums_le ack now
      simp only [List.forall_mem_append]
      constructor
      · rintro ⟨_, counted⟩ held same
        obtain rfl := Option.some.inj same
        split at counted
        · rename_i none'
          rw [none']
          exact inRange.sacked
        · exact counted _ (by simp)
      · intro fits
        refine ⟨released, fun sum membership => ?_⟩
        split at membership
        · cases membership
        · obtain rfl := List.mem_singleton.mp membership
          exact fits st rfl

theorem InRange.onAck (inRange : i.InRange) {ack : StreamAck} (window : ack.window ≤ u32Max)
    (now : Nat) (fits : ∀ st, i.table.getStream ack.streamId = some st →
      i.dataSacked + st.sackedCount ack now ≤ u64Max) : (i.onAck ack now).InRange := by
  unfold Intake.onAck
  split
  · exact inRange
  · rename_i st found
    exact { inRange with
      table := inRange.table.onAck window now
      sacked := fits st found }

theorem InRange.sender (inRange : i.InRange) {id : Nat} {available : Bytes} {st : StreamState}
    (found : i.sender? id available = some st) :
    i.table.getStream id = some st ∧ st.InRange := by
  have held := (Option.filter_eq_some_iff.mp found).1
  exact ⟨held, inRange.table.streams id st held⟩

theorem InRange.sendDataSums_iff (inRange : i.InRange) (id : Nat) (available : Bytes) :
    (∀ sum ∈ i.sendDataSums id available, sum ≤ u64Max) ↔
      ∀ st, i.sender? id available = some st → st.windowOk 1 = true →
        st.sendNext + st.cutLength available.length ≤ u64Max := by
  unfold sendDataSums
  cases found : i.sender? id available with
  | none => exact noSums_iff
  | some st =>
      have inflight := (inRange.sender found).2.inflight
      have wide := u32Max_lt_u64Max
      constructor
      · intro small held same admitted
        obtain rfl := Option.some.inj same
        exact small _ (by simp [admitted])
      · intro fits sum membership
        rcases List.mem_cons.mp membership with rfl | cut
        · omega
        · split at cut
          · rename_i admitted
            obtain rfl := List.mem_singleton.mp cut
            exact fits st rfl admitted
          · cases cut

theorem InRange.sendData (inRange : i.InRange) (id : Nat) (available : Bytes)
    (path : Option Nat) (now : Nat)
    (fits : ∀ st, i.sender? id available = some st → st.windowOk 1 = true →
      st.sendNext + st.cutLength available.length ≤ u64Max) :
    (i.sendData id available path now).InRange := by
  unfold Intake.sendData
  split
  · exact inRange
  · rename_i st found
    split
    · exact inRange
    · rename_i admitted
      rw [Bool.not_eq_true, Bool.not_eq_false'] at admitted
      obtain ⟨held, streamInRange⟩ := inRange.sender found
      have advanced := streamInRange.advance available.length admitted (fits st found admitted)
      apply inRange.withTable
      cases path with
      | none =>
          apply inRange.table.modifyStream
          intro other foundOther _
          obtain rfl := Option.some.inj (held.symm.trans foundOther)
          exact advanced
      | some path =>
          apply inRange.table.modifyStream
          intro other foundOther otherInRange
          obtain rfl := Option.some.inj (held.symm.trans foundOther)
          refine otherInRange.hold rfl ?_
          rw [StreamState.length_take_cutLength]
          exact advanced

/-! ## Runs -/

theorem window_le_of_streamFrame {frame : Bytes} {ack : StreamAck}
    (reads : streamFrame? frame = some (.streamAck ack)) : ack.window ≤ u32Max := by
  unfold streamFrame? at reads
  split at reads
  · rename_i wire _
    cases wire with
    | streamAck body =>
        cases reads
        have width := body.window.toNat_lt
        simp only [u32Max]
        omega
    | streamOpen body => cases reads
    | streamData body => cases reads
    | streamClose body => cases reads
    | streamReset body => cases reads
    | _ => cases reads
  · cases reads

/-- The sums of an action fit exactly when what it brings does. -/
theorem InRange.noOverflow_iff (inRange : i.InRange) (action : IntakeAction) :
    i.NoOverflow action ↔ i.Fits action := by
  unfold NoOverflow
  cases action with
  | arrive path frame inputs now =>
      simp only [sums, Fits]
      cases reads : streamFrame? frame with
      | none => simp
      | some read =>
          cases read with
          | streamData data => simpa using inRange.deliverDataSums_iff path data inputs
          | streamAck ack =>
              rw [inRange.onAckSums_iff ack now]
              constructor
              · intro fits
                constructor
                · intro data impossible
                  cases impossible
                · intro other st same
                  cases same
                  exact fits st
              · exact fun fits st => fits.2 ack st rfl
          | _ => simp
  | accept id inputs incoming =>
      simp only [sums, Fits]
      cases allocates : i.allocated? id with
      | none => simp
      | some taken =>
          have begun := inRange.allocated allocates
          refine (begun.deliverEarlySums_iff inputs taken.1).trans ⟨fun fits _ _ same => ?_, ?_⟩
          · cases same
            exact fits
          · exact fun fits => fits taken.1 taken.2 rfl
  | sendData id available path now => exact inRange.sendDataSums_iff id available
  | appRead id n inputs =>
      simp only [sums, Fits, iff_true]
      cases found : i.table.getStream id with
      | none =>
          intro sum membership
          cases membership
      | some st => exact ((inRange.table.streams id st found).creditRead n).drainSums_le inputs
  | _ => exact ⟨fun _ => trivial, fun _ _ membership => by cases membership⟩

theorem InRange.step (inRange : i.InRange) {action : IntakeAction} {next : Intake}
    (fits : i.Fits action) (taken : i.step action = some next) : next.InRange := by
  cases action with
  | arrive path frame inputs now =>
      simp only [Intake.step] at taken
      split at taken
      · rename_i data reads
        cases taken
        exact inRange.onData path inputs (fits.1 data reads)
      · rename_i ack reads
        cases taken
        exact inRange.onAck (window_le_of_streamFrame reads) now fun st =>
          fits.2 ack st reads
      · cases taken
        exact inRange.withTable (inRange.table.ending (StreamTable.ending_onPeerClose _ _))
      · cases taken
  | accept id inputs incoming =>
      simp only [Intake.step] at taken
      split at taken
      · cases taken
      · cases taken
        exact inRange.acceptRemoteStream id inputs incoming fits
  | sendData id available path now =>
      cases taken
      exact inRange.sendData id available path now fits
  | appRead id n inputs =>
      cases taken
      exact inRange.withTable (inRange.table.noteAppRead id n inputs)
  | openStream target path =>
      obtain ⟨table, opens, rfl⟩ := Option.map_eq_some_iff.mp taken
      exact inRange.withTable (inRange.table.openStream opens)
  | closeSend id =>
      cases taken
      exact inRange.withTable (inRange.table.closeSend id)
  | ending action =>
      simp only [Intake.step] at taken
      split at taken
      · rename_i quiet
        obtain ⟨table, ends, rfl⟩ := Option.map_eq_some_iff.mp taken
        exact inRange.withTable (inRange.table.ending (StreamTable.ending_step quiet ends))
      · cases taken

theorem inRange_of_reachable (reachable : machine.ReachableWhen Fits i) : i.InRange := by
  induction reachable with
  | start begins =>
      obtain ⟨⟨isClient, chan, initialWindow, small, fresh⟩, dup, afterFin, sacked⟩ := begins
      refine ⟨?_, dup, afterFin, sacked⟩
      rw [fresh]
      exact ⟨small, fun _ _ found => by cases found⟩
  | step _ fits taken inRange => exact inRange.step fits taken

instance (i : Intake) (action : IntakeAction) : Decidable (i.NoOverflow action) :=
  inferInstanceAs (Decidable (∀ sum ∈ i.sums action, sum ≤ u64Max))

/-- A session that has just begun. -/
def fresh : Intake := ⟨.new true 65536 8, 0, 0, 0⟩

theorem initial_fresh : Initial fresh :=
  ⟨⟨true, 8, 65536, by decide, rfl⟩, Nat.zero_le _, Nat.zero_le _, Nat.zero_le _⟩

/-- DATA on stream 1 with two bytes of payload. -/
def dataFrame (offset : Bytes) : Bytes := Wire.tData :: [0, 0, 0, 1] ++ offset ++ [7, 7]

/-- Two pieces out of order, a read, and a piece that ends exactly at the last offset. -/
def reordered : List IntakeAction :=
  [.openStream ⟨"a", 80⟩ 1, .arrive 1 (dataFrame [0, 0, 0, 0, 0, 0, 0, 2]) ⟨65536, 0⟩ 0,
    .arrive 1 (dataFrame [0, 0, 0, 0, 0, 0, 0, 0]) ⟨65536, 0⟩ 1, .appRead 1 2 ⟨65536, 0⟩,
    .arrive 1 (dataFrame [255, 255, 255, 255, 255, 255, 255, 253]) ⟨65536, 0⟩ 2]

/-- A piece at the last offset of `u64`, behind a hole: `sack_ranges` adds two to it. -/
def atTheEnd : List IntakeAction :=
  [.openStream ⟨"a", 80⟩ 1,
    .arrive 1 (dataFrame [255, 255, 255, 255, 255, 255, 255, 255]) ⟨65536, 0⟩ 0]

end Intake

end NyaLink
