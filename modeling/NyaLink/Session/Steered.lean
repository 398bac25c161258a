import NyaLink.Session.Resend

/-!
# What steering may change

Every operation of a session that is not about a new path, a new stream or a new
piece only moves pieces between paths of the table, marks them or forgets them.
`Steered` says so once, and here is one lemma for each of these operations.
-/

namespace NyaLink.Session

/-- No piece was added or changed its bytes; a piece that moved is on a path of the table. -/
structure StreamSteered (s : Session) (before after : StreamState) : Prop where
  sendNext : after.sendNext = before.sendNext
  gone : before.gone = true → after.gone = true
  reset : after.reset = true → before.reset = true ∨ after.gone = true
  released : after.gone = true → before.gone = true ∨ after.unacked = .empty
  pieces : ∀ offset u, after.unacked.get? offset = some u → ∃ v,
    before.unacked.get? offset = some v ∧ u.data = v.data ∧
      (u.pathId = v.pathId ∨ (s.getPath u.pathId).isSome = true)

structure Steered (s t : Session) : Prop where
  nextPathId : t.nextPathId = s.nextPathId
  senders : t.senders = s.senders
  paths : ∀ path, (t.getPath path).isSome = true → (s.getPath path).isSome = true
  streams : ∀ id after, t.streams.get? id = some after → ∃ before,
    s.streams.get? id = some before ∧ StreamSteered s before after

section

variable {cfg : SessionConfig} {s t : Session}

theorem StreamSteered.refl (s : Session) (st : StreamState) : StreamSteered s st st :=
  ⟨rfl, id, .inl, .inl, fun _ u found => ⟨u, found, rfl, .inl rfl⟩⟩

theorem Steered.refl (s : Session) : Steered s s :=
  ⟨rfl, rfl, fun _ => id, fun _ st found => ⟨st, found, StreamSteered.refl s st⟩⟩

theorem Steered.trans {u : Session} (earlier : Steered s t) (later : Steered t u) :
    Steered s u := by
  refine ⟨later.nextPathId.trans earlier.nextPathId, later.senders.trans earlier.senders,
    fun path found => earlier.paths path (later.paths path found), ?_⟩
  intro id final found
  obtain ⟨middle, foundMiddle, last⟩ := later.streams id final found
  obtain ⟨before, foundBefore, first⟩ := earlier.streams id middle foundMiddle
  refine ⟨before, foundBefore, last.sendNext.trans first.sendNext,
    fun gone => last.gone (first.gone gone), ?_, ?_, ?_⟩
  · intro reset
    rcases last.reset reset with resetMiddle | gone
    · exact (first.reset resetMiddle).imp_right last.gone
    · exact .inr gone
  · intro gone
    rcases last.released gone with goneMiddle | empty
    · rcases first.released goneMiddle with goneBefore | emptyMiddle
      · exact .inl goneBefore
      · apply Or.inr
        apply OrdMap.ext_get?
        intro offset
        cases held : final.unacked.get? offset with
        | none => rfl
        | some u =>
            obtain ⟨v, foundV, -⟩ := last.pieces offset u held
            rw [emptyMiddle] at foundV
            cases foundV
    · exact .inr empty
  · intro offset u held
    obtain ⟨v, heldMiddle, sameData, moved⟩ := last.pieces offset u held
    obtain ⟨w, heldBefore, sameBefore, movedBefore⟩ := first.pieces offset v heldMiddle
    refine ⟨w, heldBefore, sameData.trans sameBefore, ?_⟩
    rcases moved with stayed | known
    · rw [stayed]
      exact movedBefore
    · exact .inr (earlier.paths _ known)

/-- A piece of the later state is one of the earlier state, with the same bytes. -/
theorem Steered.pieceAt {id offset : Nat} {u : Unacked} (steered : Steered s t)
    (held : t.pieceAt id offset = some u) :
    ∃ v, s.pieceAt id offset = some v ∧ u.data = v.data := by
  obtain ⟨after, found, inMap⟩ := Option.bind_eq_some_iff.mp held
  obtain ⟨before, foundBefore, kept⟩ := steered.streams id after found
  obtain ⟨v, heldBefore, sameData, -⟩ := kept.pieces offset u inMap
  exact ⟨v, Option.bind_eq_some_iff.mpr ⟨before, foundBefore, heldBefore⟩, sameData⟩

/-! ## The small operations -/

theorem isSome_getPath_modifyPath (s : Session) (id path : Nat) (change : Path → Path) :
    ((s.modifyPath id change).getPath path).isSome = (s.getPath path).isSome := by
  rw [getPath_modifyPath]
  split
  · exact Option.isSome_map
  · rfl

theorem steered_modifyPath (s : Session) (id : Nat) (change : Path → Path) :
    Steered s (s.modifyPath id change) := by
  refine { Steered.refl s with paths := ?_ }
  intro path found
  rwa [isSome_getPath_modifyPath] at found

theorem steered_modifyStream (id : Nat) {change : StreamState → StreamState}
    (steered : ∀ st, s.streams.get? id = some st → StreamSteered s st (change st)) :
    Steered s (s.modifyStream id change) := by
  refine { Steered.refl s with streams := ?_ }
  intro other after found
  rcases OrdMap.get?_modify_cases found with ⟨rfl, st, foundBefore, rfl⟩ | ⟨-, foundBefore⟩
  · exact ⟨st, foundBefore, steered st foundBefore⟩
  · exact ⟨after, foundBefore, StreamSteered.refl s after⟩

theorem steered_modifyUnacked (s : Session) (id offset : Nat) {change : Unacked → Unacked}
    (data : ∀ u, (change u).data = u.data)
    (moved : ∀ u, (change u).pathId = u.pathId ∨ (s.getPath (change u).pathId).isSome = true) :
    Steered s (s.modifyUnacked id offset change) := by
  apply steered_modifyStream
  intro st _
  refine ⟨rfl, fun gone => gone, .inl, .inl, ?_⟩
  intro other u found
  rcases OrdMap.get?_modify_cases found with ⟨-, v, held, rfl⟩ | ⟨-, held⟩
  · exact ⟨v, held, data v, moved v⟩
  · exact ⟨u, held, rfl, .inl rfl⟩

/-- A piece is marked, nothing else. -/
theorem steered_markPiece (s : Session) (id offset : Nat) {change : Unacked → Unacked}
    (data : ∀ u, (change u).data = u.data) (path : ∀ u, (change u).pathId = u.pathId) :
    Steered s (s.modifyUnacked id offset change) :=
  steered_modifyUnacked s id offset data fun u => .inl (path u)

theorem steered_noteCarried (s : Session) (id offset : Nat) (sent : Bool) :
    Steered s (s.noteCarried id offset sent) :=
  steered_markPiece s id offset (fun _ => rfl) fun _ => rfl

theorem steered_markEnqueued (s : Session) (id : Nat) (wait : BulkWait) :
    Steered s (s.markEnqueued id wait) :=
  steered_markPiece s id wait.offset (fun _ => rfl) fun _ => rfl

theorem steered_sendOnPath (s : Session) (id : Nat) (frame : Frame) :
    Steered s (s.sendOnPath cfg id frame).1 := by
  rcases sendOnPath_cases cfg s id frame with ⟨p, urgent, -, -, -, taken⟩ | same | marked
  · rw [taken]
    exact { steered_modifyPath s id _ with }
  · rw [same]
    exact Steered.refl s
  · rw [marked]
    exact steered_modifyPath s id _

theorem steered_sendDataFrame (s : Session) (id offset : Nat) (data : Bytes) (path : Nat) :
    Steered s (s.sendDataFrame cfg id offset data path).1 :=
  steered_sendOnPath s path _

/-- Only a path of the table takes a frame. -/
theorem isSome_getPath_of_sent {id : Nat} {frame : Frame} {after : Session}
    (sent : s.sendOnPath cfg id frame = (after, true)) : (s.getPath id).isSome = true := by
  rcases sendOnPath_cases cfg s id frame with ⟨p, urgent, found, -⟩ | same | marked
  · exact Option.isSome_of_eq_some found
  · rw [same] at sent
    cases sent
  · rw [marked] at sent
    cases sent

theorem isSome_getPath_sendDataFrame (s : Session) (id offset : Nat) (data : Bytes)
    (path other : Nat) : ((s.sendDataFrame cfg id offset data path).1.getPath other).isSome =
      (s.getPath other).isSome := by
  unfold sendDataFrame
  rcases sendOnPath_cases cfg s path _ with ⟨p, urgent, -, -, -, taken⟩ | same | marked
  · rw [taken]
    exact isSome_getPath_modifyPath s path other _
  · rw [same]
  · rw [marked]
    exact isSome_getPath_modifyPath s path other _

theorem sendDataFrame_streams (s : Session) (id offset : Nat) (data : Bytes) (path : Nat) :
    (s.sendDataFrame cfg id offset data path).1.streams = s.streams := by
  unfold sendDataFrame
  rcases sendOnPath_cases cfg s path _ with ⟨p, urgent, -, -, -, taken⟩ | same | marked
  · rw [taken]
    rfl
  · rw [same]
  · rw [marked]
    rfl

theorem steered_xferInflight (s : Session) (source dest n : Nat) :
    Steered s (s.xferInflight source dest n) := by
  unfold xferInflight
  split
  · exact Steered.refl s
  · exact (steered_modifyPath s source _).trans (steered_modifyPath _ dest _)

theorem isSome_getPath_xferInflight (s : Session) (source dest n path : Nat) :
    ((s.xferInflight source dest n).getPath path).isSome = (s.getPath path).isSome := by
  unfold xferInflight
  split
  · rfl
  · exact (isSome_getPath_modifyPath _ dest path _).trans
      (isSome_getPath_modifyPath s source path _)

theorem steered_rehomeUnacked (s : Session) (id offset dest : Nat) (sent : Bool)
    (known : (s.getPath dest).isSome = true) :
    Steered s (s.rehomeUnacked id offset dest sent) := by
  unfold rehomeUnacked
  split
  · exact Steered.refl s
  · rename_i u _
    refine (steered_xferInflight s u.pathId dest u.data.length).trans ?_
    apply steered_modifyUnacked
    · exact fun _ => rfl
    · intro _
      apply Or.inr
      rw [isSome_getPath_xferInflight]
      exact known

theorem steered_noteDataDropped (s : Session) (id offset : Nat) :
    Steered s (s.noteDataDropped id offset) := by
  unfold noteDataDropped
  split
  · exact Steered.refl s
  · exact steered_markPiece s id offset (fun _ => rfl) fun _ => rfl

theorem steered_setSticky (s : Session) (id path : Nat) : Steered s (s.setSticky id path) := by
  unfold setSticky
  split
  · exact Steered.refl s
  · rename_i st _
    split
    · exact Steered.refl s
    · have stuck : Steered s (s.modifyStream id fun st => { st with sticky := path }) :=
        steered_modifyStream id fun st _ => { StreamSteered.refl s st with }
      refine stuck.trans ?_
      dsimp only
      split
      · exact steered_modifyPath _ path _
      · exact (steered_modifyPath _ st.sticky _).trans (steered_modifyPath _ path _)

theorem steered_noteStall (s : Session) (id : Nat) (stalled : Bool) :
    Steered s (s.noteStall id stalled) :=
  steered_modifyStream id fun st _ => { StreamSteered.refl s st with }

/-! ## Sending and re-sending -/

theorem isSome_getPath_setSticky (s : Session) (id path other : Nat) :
    ((s.setSticky id path).getPath other).isSome = (s.getPath other).isSome := by
  unfold setSticky
  split
  · rfl
  · rename_i st _
    split
    · rfl
    · dsimp only
      split
      · exact isSome_getPath_modifyPath _ path other _
      · exact (isSome_getPath_modifyPath _ path other _).trans
          (isSome_getPath_modifyPath _ st.sticky other _)

theorem steered_migrateSendBlocked (s : Session) (id path offset : Nat) (piece : Bytes) :
    Steered s (s.migrateSendBlocked cfg id path offset piece) := by
  unfold migrateSendBlocked
  split
  · exact steered_noteDataDropped s id offset
  · rename_i alt _
    have sending := @steered_sendDataFrame cfg s id offset piece alt
    split
    · rename_i after failed
      rw [failed] at sending
      exact sending.trans (steered_noteDataDropped after id offset)
    · rename_i after sent
      have known := isSome_getPath_of_sent sent
      have kept := @isSome_getPath_sendDataFrame cfg s id offset piece alt alt
      rw [sent] at sending kept
      refine sending.trans ((steered_setSticky after id alt).trans ?_)
      refine Steered.trans ?_ (steered_xferInflight _ path alt piece.length)
      apply steered_modifyUnacked
      · exact fun _ => rfl
      · intro _
        apply Or.inr
        rw [isSome_getPath_setSticky, kept]
        exact known

theorem steered_resendInteractive (s : Session) (id : Nat) (due : Due) :
    Steered s (s.resendInteractive cfg id due) := by
  unfold resendInteractive
  split
  · exact Steered.refl s
  · rename_i alt _
    split
    · exact Steered.refl s
    · have sending := @steered_sendDataFrame cfg s id due.offset due.data alt
      split
      · rename_i after sent
        have known := isSome_getPath_of_sent sent
        have kept := @isSome_getPath_sendDataFrame cfg s id due.offset due.data alt alt
        rw [sent] at sending kept
        rw [← kept] at known
        exact sending.trans (steered_rehomeUnacked after id due.offset alt true known)
      · rename_i after failed
        rw [failed] at sending
        exact sending.trans
          (steered_markPiece after id due.offset (fun _ => rfl) fun _ => rfl)

theorem steered_resendBulkOn (s : Session) (id : Nat) (due : Due) (alt : Nat) :
    Steered s (s.resendBulkOn cfg id due alt) := by
  unfold resendBulkOn
  have sending := @steered_sendDataFrame cfg s id due.offset due.data alt
  split
  · rename_i after sent
    have known := isSome_getPath_of_sent sent
    have kept := @isSome_getPath_sendDataFrame cfg s id due.offset due.data alt alt
    rw [sent] at sending kept
    rw [← kept] at known
    refine sending.trans ((steered_rehomeUnacked after id due.offset alt true known).trans ?_)
    exact steered_markPiece _ id due.offset (fun _ => rfl) fun _ => rfl
  · rename_i after failed
    rw [failed] at sending
    exact sending.trans (steered_markPiece after id due.offset (fun _ => rfl) fun _ => rfl)

theorem steered_resendBulkFresh (s : Session) (id : Nat) (due : Due) (picked : Option Nat) :
    Steered s (s.resendBulkFresh cfg id due picked) := by
  unfold resendBulkFresh
  split
  · exact Steered.refl s
  · split
    · exact steered_resendBulkOn s id due _
    · exact steered_markPiece s id due.offset (fun _ => rfl) fun _ => rfl

/-- A path of the table took the frame, or nothing but queues changed. -/
theorem steered_resendOnSource (s : Session) (id : Nat) (due : Due) :
    Steered s (s.resendOnSource cfg id due).1 ∧
      ((s.resendOnSource cfg id due).2 = true →
        ((s.resendOnSource cfg id due).1.getPath due.source).isSome = true) := by
  unfold resendOnSource
  split
  · refine ⟨steered_sendDataFrame s id due.offset due.data due.source, fun sent => ?_⟩
    rw [isSome_getPath_sendDataFrame]
    exact isSome_getPath_of_sent (Prod.ext rfl sent)
  · exact ⟨Steered.refl s, fun impossible => by cases impossible⟩

theorem steered_resendBulk (s : Session) (id : Nat) (due : Due) :
    Steered s (s.resendBulk cfg id due) := by
  unfold resendBulk
  split
  · obtain ⟨sending, known⟩ := @steered_resendOnSource cfg s id due
    dsimp only
    split
    · rename_i after sent
      rw [sent] at sending known
      refine sending.trans
        ((steered_rehomeUnacked after id due.offset due.source true (known rfl)).trans ?_)
      exact steered_markPiece _ id due.offset (fun _ => rfl) fun _ => rfl
    · rename_i after failed
      rw [failed] at sending
      exact sending.trans (steered_resendBulkFresh after id due _)
  · exact steered_resendBulkFresh s id due _

theorem steered_resendDue (id : Nat) (stalledLong : Bool) (s : Session) (due : Due) :
    Steered s (resendDue cfg id stalledLong s due) := by
  unfold resendDue
  split
  · exact Steered.refl s
  · split
    · exact Steered.refl s
    · split
      · exact steered_resendBulk s id due
      · exact steered_resendInteractive s id due

theorem steered_retryExpiredUnacked (s : Session) (id : Nat) :
    Steered s (s.retryExpiredUnacked cfg id) := by
  unfold retryExpiredUnacked
  split
  · exact Steered.refl s
  · split
    · exact Steered.refl s
    · apply List.foldlRecOn
      · exact Steered.refl s
      · intro reached steered due _
        exact steered.trans (steered_resendDue id _ reached due)

theorem isSome_getPath_rehomeUnacked (s : Session) (id offset dest : Nat) (sent : Bool)
    (path : Nat) :
    ((s.rehomeUnacked id offset dest sent).getPath path).isSome = (s.getPath path).isSome := by
  unfold rehomeUnacked
  split
  · rfl
  · exact isSome_getPath_xferInflight s _ dest _ path

theorem isSome_getPath_retransmitPiece (id dest : Nat) (s : Session) (piece : Nat × Unacked)
    (path : Nat) :
    ((retransmitPiece cfg id dest s piece).getPath path).isSome = (s.getPath path).isSome :=
  (isSome_getPath_sendDataFrame _ id piece.1 piece.2.data dest path).trans
    (isSome_getPath_rehomeUnacked s id piece.1 dest false path)

theorem steered_retransmitPiece (id dest : Nat) (s : Session) (piece : Nat × Unacked)
    (known : (s.getPath dest).isSome = true) :
    Steered s (retransmitPiece cfg id dest s piece) :=
  ((steered_rehomeUnacked s id piece.1 dest false known).trans
    (steered_sendDataFrame _ id piece.1 piece.2.data dest)).trans
    (steered_noteCarried _ id piece.1 _)

theorem steered_retransmitFromOn (s : Session) (id source dest : Nat)
    (known : (s.getPath dest).isSome = true) :
    Steered s (s.retransmitFromOn cfg id source dest) ∧
      ((s.retransmitFromOn cfg id source dest).getPath dest).isSome = true := by
  unfold retransmitFromOn
  split
  · exact ⟨Steered.refl s, known⟩
  · apply List.foldlRecOn
      (motive := fun reached : Session => Steered s reached ∧ (reached.getPath dest).isSome = true)
    · exact ⟨Steered.refl s, known⟩
    · intro reached steered piece _
      refine ⟨steered.1.trans (steered_retransmitPiece id dest reached piece steered.2), ?_⟩
      rw [isSome_getPath_retransmitPiece]
      exact steered.2

theorem steered_rehomeUnackedFrom (s : Session) (dead : Nat) (order : List Nat) :
    Steered s (s.rehomeUnackedFrom cfg dead order) := by
  unfold rehomeUnackedFrom
  split
  · exact Steered.refl s
  · rename_i alt picked
    obtain ⟨p, found, -⟩ := getPath_of_pickRetryPath picked
    have rehomed : Steered s (order.foldl (fun s id => s.retransmitFromOn cfg id dead alt) s) ∧
        ((order.foldl (fun s id => s.retransmitFromOn cfg id dead alt) s).getPath alt).isSome =
          true := by
      apply List.foldlRecOn
        (motive := fun reached : Session => Steered s reached ∧ (reached.getPath alt).isSome = true)
      · exact ⟨Steered.refl s, Option.isSome_of_eq_some found⟩
      · intro reached steered id _
        have next := @steered_retransmitFromOn cfg reached id dead alt steered.2
        exact ⟨steered.1.trans next.1, next.2⟩
    exact rehomed.1

theorem getPath_erasePath (s : Session) (path other : Nat) :
    ({ s with paths := s.paths.erase path } : Session).getPath other =
      if other = path then none else s.getPath other :=
  OrdMap.get?_erase s.paths path other

theorem steered_erasePath (s : Session) (path : Nat) :
    Steered s { s with paths := s.paths.erase path } := by
  refine ⟨rfl, rfl, ?_, (Steered.refl s).streams⟩
  intro other found
  rw [getPath_erasePath] at found
  split at found
  · cases found
  · exact found

theorem steered_pathFailed (s : Session) (path : Nat) (order : List Nat) :
    Steered s (s.pathFailed cfg path order) := by
  unfold pathFailed
  split
  · exact Steered.refl s
  · split
    · exact Steered.refl s
    · have marked : Steered s (s.markDown path) := steered_modifyPath s path _
      exact (marked.trans (steered_rehomeUnackedFrom _ path order)).trans
        (steered_erasePath _ path)

/-! ## Acknowledgement, ending, the writer task -/

theorem steered_releasePieces (s : Session) (pieces : List (Nat × Unacked)) :
    Steered s (s.releasePieces pieces) := by
  apply List.foldlRecOn
  · exact Steered.refl s
  · intro reached steered piece _
    exact steered.trans (steered_modifyPath reached piece.2.pathId _)

theorem releasePieces_streams (s : Session) (pieces : List (Nat × Unacked)) :
    (s.releasePieces pieces).streams = s.streams := by
  apply List.foldlRecOn
    (motive := fun reached : Session => reached.streams = s.streams)
  · rfl
  · intro reached same piece _
    exact same

theorem steered_onAck (s : Session) (ack : StreamAck) : Steered s (s.onAck ack) := by
  unfold onAck
  split
  · exact Steered.refl s
  · refine (steered_releasePieces s _).trans (steered_modifyStream ack.streamId ?_)
    intro st _
    have kept := st.ackKept_onAck ack s.now
    refine ⟨kept.sendNext, fun gone => kept.gone.trans gone,
      fun reset => .inl (kept.reset.symm.trans reset), fun gone => ?_, ?_⟩
    · exact .inl (kept.gone.symm.trans gone)
    · intro offset u found
      rw [StreamState.onAck_unacked, OrdMap.get?_filter_eq_some_iff] at found
      exact ⟨u, found.1, rfl, .inl rfl⟩

theorem streamSteered_apply (s : Session) (st : StreamState) (event : StreamEvent) :
    StreamSteered s st (event.apply st) := by
  obtain ⟨sendNext, held⟩ := event.apply_held st
  refine ⟨sendNext, ?_, event.apply_reset st, ?_, ?_⟩
  · intro gone
    rcases held with same | removed
    · exact same.1.trans gone
    · exact removed.1
  · intro gone
    rcases held with same | removed
    · exact .inl (same.1.symm.trans gone)
    · exact .inr removed.2
  · intro offset u found
    rcases held with same | removed
    · rw [same.2] at found
      exact ⟨u, found, rfl, .inl rfl⟩
    · rw [removed.2] at found
      cases found

/-- What an event does to the path table is a release and a stick count. -/
theorem steered_streamEvent (s : Session) (id : Nat) (event : StreamEvent) :
    Steered s (s.streamEvent id event) := by
  unfold streamEvent
  split
  · exact Steered.refl s
  · rename_i st stream
    have stored := (getStream_eq_some_iff.mp stream).1
    dsimp only
    have released : Steered s (if (event.apply st).gone then s.releasePieces st.unacked.entries
        else s) ∧ (if (event.apply st).gone then s.releasePieces st.unacked.entries
        else s).streams = s.streams := by
      split
      · exact ⟨steered_releasePieces s _, releasePieces_streams s _⟩
      · exact ⟨Steered.refl s, rfl⟩
    revert released
    generalize (if (event.apply st).gone then s.releasePieces st.unacked.entries else s) = mid
    rintro ⟨steered, same⟩
    have stored_of : ∀ {last : Session}, last.streams = s.streams → Steered s last →
        Steered s (last.modifyStream id fun _ => event.apply st) := by
      intro last unchanged reached
      refine reached.trans (steered_modifyStream id ?_)
      intro other found
      rw [unchanged, stored] at found
      cases found
      exact streamSteered_apply last st event
    split
    · exact stored_of same (steered.trans (steered_modifyPath mid st.sticky _))
    · exact stored_of same steered

theorem steered_parkStreamData (s : Session) (path : Nat) (data : StreamData) :
    Steered s (s.parkStreamData cfg path data) := by
  unfold parkStreamData
  split
  · exact Steered.refl s
  · split
    · exact steered_modifyPath s path _
    · refine Steered.trans ?_ (steered_noteDataDropped _ data.streamId data.offset)
      exact steered_markPiece s data.streamId data.offset (fun _ => rfl) fun _ => rfl

theorem steered_writeUrgent {path : Nat} (written : s.writeUrgent cfg path = some t) :
    Steered s t := by
  unfold writeUrgent at written
  split at written
  · cases written
  · split at written
    · cases written
    · rename_i p _ frame rest _
      have taken := steered_modifyPath s path fun p => { p with urgent := rest }
      dsimp only at written
      split at written
      · split at written
        · obtain rfl := Option.some.inj written
          exact taken.trans (steered_parkStreamData _ path _)
        · obtain rfl := Option.some.inj written
          exact taken
      · obtain rfl := Option.some.inj written
        exact taken

theorem steered_writeBulk {path : Nat} (written : s.writeBulk path = some t) : Steered s t := by
  unfold writeBulk at written
  split at written
  · cases written
  · split at written
    · obtain rfl := Option.some.inj written
      exact steered_modifyPath s path _
    · cases written

end

end NyaLink.Session
