import NyaLink.Session.Tidy

/-!
# Marks of a piece

A piece that is not marked dropped is expected to be on its way.  `Upkeep`
relates two states when every piece of the later one is either settled (marked
dropped, or its path has taken a frame for it), or marked as it was before; one
lemma for each operation that has this property.
-/

namespace NyaLink.Session

/-- A piece of a stream of the table. -/
def livePiece (s : Session) (id offset : Nat) : Option Unacked :=
  (s.getStream id).bind fun st => st.unacked.get? offset

/-- A queue of the path has taken a DATA frame for the offset. -/
def TookFrame (s : Session) (path id offset : Nat) : Prop :=
  ∃ data, (path, .streamData { streamId := id, offset := offset, data := data }) ∈ s.accepted

/-- The piece is marked dropped, or a queue of its path has taken a frame for it. -/
structure Settled (s : Session) (id offset : Nat) (u : Unacked) : Prop where
  taken : u.carried = true → s.TookFrame u.pathId id offset
  marked : u.dropped = true ∨ u.carried = true

/-- The piece is on the same path and as well marked as before. -/
structure AsBefore (before after : Unacked) : Prop where
  pathId : after.pathId = before.pathId
  carried : after.carried = true → before.carried = true
  dropped : after.dropped = false → before.dropped = false ∧ after.carried = before.carried

structure Upkeep (s t : Session) : Prop where
  alive : ∀ path, t.aliveAt path = true → s.aliveAt path = true
  accepted : s.accepted <+: t.accepted
  pieces : ∀ id offset u, t.livePiece id offset = some u →
    t.Settled id offset u ∨ ∃ v, s.livePiece id offset = some v ∧ AsBefore v u

section

variable {cfg : SessionConfig} {s t : Session}

theorem AsBefore.refl (u : Unacked) : AsBefore u u :=
  ⟨rfl, fun same => same, fun same => ⟨same, rfl⟩⟩

theorem TookFrame.extend {path id offset : Nat} (took : s.TookFrame path id offset)
    (accepted : s.accepted <+: t.accepted) : t.TookFrame path id offset := by
  obtain ⟨data, membership⟩ := took
  exact ⟨data, accepted.subset membership⟩

theorem Upkeep.refl (s : Session) : Upkeep s s :=
  ⟨fun _ alive => alive, List.prefix_rfl, fun _ _ u found => .inr ⟨u, found, AsBefore.refl u⟩⟩

theorem Upkeep.trans {u : Session} (earlier : Upkeep s t) (later : Upkeep t u) : Upkeep s u := by
  refine ⟨fun path alive => earlier.alive path (later.alive path alive),
    earlier.accepted.trans later.accepted, ?_⟩
  intro id offset final found
  rcases later.pieces id offset final found with settled | ⟨middle, foundMiddle, last⟩
  · exact .inl settled
  · rcases earlier.pieces id offset middle foundMiddle with settled | ⟨before, foundBefore, first⟩
    · apply Or.inl
      constructor
      · intro carried
        rw [last.pathId]
        exact (settled.taken (last.carried carried)).extend later.accepted
      · cases dropped : final.dropped with
        | true => exact .inl rfl
        | false =>
            obtain ⟨notDropped, same⟩ := last.dropped dropped
            rcases settled.marked with wasDropped | carried
            · rw [notDropped] at wasDropped
              cases wasDropped
            · exact .inr (same.trans carried)
    · apply Or.inr
      refine ⟨before, foundBefore, last.pathId.trans first.pathId,
        fun carried => first.carried (last.carried carried), ?_⟩
      intro dropped
      obtain ⟨notDropped, same⟩ := last.dropped dropped
      obtain ⟨notBefore, sameBefore⟩ := first.dropped notDropped
      exact ⟨notBefore, same.trans sameBefore⟩

/-! ## Lookups -/

theorem livePiece_eq_some_iff {id offset : Nat} {u : Unacked} :
    s.livePiece id offset = some u ↔ ∃ st, s.streams.get? id = some st ∧ st.gone = false ∧
      st.unacked.get? offset = some u := by
  unfold livePiece
  rw [Option.bind_eq_some_iff]
  constructor
  · rintro ⟨st, stream, held⟩
    obtain ⟨stored, live⟩ := getStream_eq_some_iff.mp stream
    exact ⟨st, stored, live, held⟩
  · rintro ⟨st, stored, live, held⟩
    exact ⟨st, getStream_eq_some_iff.mpr ⟨stored, live⟩, held⟩

theorem pieceAt_of_livePiece {id offset : Nat} {u : Unacked}
    (found : s.livePiece id offset = some u) : s.pieceAt id offset = some u := by
  obtain ⟨st, stored, -, held⟩ := livePiece_eq_some_iff.mp found
  exact Option.bind_eq_some_iff.mpr ⟨st, stored, held⟩

theorem livePiece_of_streams {id offset : Nat} (same : t.streams = s.streams) :
    t.livePiece id offset = s.livePiece id offset := by
  unfold livePiece getStream
  rw [same]

theorem livePiece_modifyStream {id : Nat} {change : StreamState → StreamState}
    (gone : ∀ st, (change st).gone = st.gone) (unacked : ∀ st, (change st).unacked = st.unacked)
    (other offset : Nat) :
    (s.modifyStream id change).livePiece other offset = s.livePiece other offset := by
  apply Option.ext
  intro u
  rw [livePiece_eq_some_iff, livePiece_eq_some_iff]
  change (∃ st, (s.streams.modify id change).get? other = some st ∧ _) ↔ _
  rw [OrdMap.get?_modify]
  split
  · constructor
    · rintro ⟨after, found, live, held⟩
      obtain ⟨st, stored, rfl⟩ := Option.map_eq_some_iff.mp found
      rw [gone] at live
      rw [unacked] at held
      exact ⟨st, stored, live, held⟩
    · rintro ⟨st, stored, live, held⟩
      refine ⟨change st, Option.map_eq_some_iff.mpr ⟨st, stored, rfl⟩, ?_, ?_⟩
      · rw [gone]
        exact live
      · rw [unacked]
        exact held
  · exact Iff.rfl

theorem livePiece_modifyUnacked (s : Session) (id offset : Nat) (change : Unacked → Unacked)
    (other position : Nat) :
    (s.modifyUnacked id offset change).livePiece other position =
      if other = id ∧ position = offset then (s.livePiece other position).map change
      else s.livePiece other position := by
  unfold livePiece getStream modifyUnacked modifyStream
  rw [OrdMap.get?_modify]
  by_cases here : other = id
  · subst here
    simp only [if_true, true_and]
    cases s.streams.get? other with
    | none => simp
    | some st =>
        cases gone : st.gone with
        | true =>
            simp only [Option.map_some, Option.filter_some, gone, Bool.not_true,
              Bool.false_eq_true, if_false, Option.bind_none, Option.map_none, ite_self]
        | false =>
            simp only [Option.map_some, Option.filter_some, gone, Bool.not_false, if_true,
              Option.bind_some]
            exact OrdMap.get?_modify st.unacked offset position change
  · simp only [here, if_false, false_and]

theorem aliveAt_modifyPath (s : Session) (id : Nat) {change : Path → Path}
    (kept : ∀ p, (change p).isAlive = p.isAlive) (path : Nat) :
    (s.modifyPath id change).aliveAt path = s.aliveAt path := by
  unfold aliveAt
  rw [getPath_modifyPath]
  split
  · rw [Option.any_map]
    congr 1
    funext p
    exact kept p
  · rfl

/-! ## The small operations -/

/-- Neither a piece nor the state of a path changed. -/
theorem upkeep_of_same (alive : ∀ path, t.aliveAt path = true → s.aliveAt path = true)
    (accepted : s.accepted <+: t.accepted)
    (pieces : ∀ id offset, t.livePiece id offset = s.livePiece id offset) : Upkeep s t := by
  refine ⟨alive, accepted, ?_⟩
  intro id offset u found
  rw [pieces] at found
  exact .inr ⟨u, found, AsBefore.refl u⟩

theorem upkeep_modifyPath (s : Session) (id : Nat) {change : Path → Path}
    (kept : ∀ p, (change p).isAlive = true → p.isAlive = true) :
    Upkeep s (s.modifyPath id change) := by
  apply upkeep_of_same
  · intro path alive
    unfold aliveAt at alive ⊢
    rw [getPath_modifyPath] at alive
    split at alive
    · rw [Option.any_map] at alive
      obtain ⟨p, found, living⟩ := (Option.any_eq_true _ _).mp alive
      exact (Option.any_eq_true _ _).mpr ⟨p, found, kept p living⟩
    · exact alive
  · exact List.prefix_rfl
  · intro other offset
    rfl

theorem upkeep_modifyStream (s : Session) (id : Nat) {change : StreamState → StreamState}
    (gone : ∀ st, (change st).gone = st.gone) (unacked : ∀ st, (change st).unacked = st.unacked) :
    Upkeep s (s.modifyStream id change) := by
  apply upkeep_of_same
  · exact fun _ alive => alive
  · exact List.prefix_rfl
  · exact livePiece_modifyStream gone unacked

/-- A piece is marked anew, and what it is marked with holds. -/
theorem upkeep_modifyUnacked (s : Session) (id offset : Nat) {change : Unacked → Unacked}
    (marked : ∀ u, s.livePiece id offset = some u →
      s.Settled id offset (change u) ∨ AsBefore u (change u)) :
    Upkeep s (s.modifyUnacked id offset change) := by
  refine ⟨fun _ alive => alive, List.prefix_rfl, ?_⟩
  intro other position u found
  rw [livePiece_modifyUnacked] at found
  split at found
  · rename_i here
    obtain ⟨rfl, rfl⟩ := here
    obtain ⟨v, before, rfl⟩ := Option.map_eq_some_iff.mp found
    rcases marked v before with settled | asBefore
    · exact .inl ⟨settled.taken, settled.marked⟩
    · exact .inr ⟨v, before, asBefore⟩
  · exact .inr ⟨u, found, AsBefore.refl u⟩

theorem upkeep_sendOnPath (s : Session) (id : Nat) (frame : Frame) :
    Upkeep s (s.sendOnPath cfg id frame).1 := by
  rcases sendOnPath_cases cfg s id frame with ⟨p, urgent, -, -, -, taken⟩ | same | marked
  · rw [taken]
    have queued : Upkeep s (s.modifyPath id fun p => p.enqueue urgent frame) := by
      apply upkeep_modifyPath
      intro p alive
      rwa [isAlive_enqueue] at alive
    exact ⟨queued.alive, List.prefix_append _ _, fun other offset u found =>
      .inr ⟨u, found, AsBefore.refl u⟩⟩
  · rw [same]
    exact Upkeep.refl s
  · rw [marked]
    exact upkeep_modifyPath s id fun _ alive => alive

theorem upkeep_of_sendDataFrame {id offset path : Nat} {data : Bytes} {sent : Bool}
    (result : s.sendDataFrame cfg id offset data path = (t, sent)) : Upkeep s t := by
  have sending := @upkeep_sendOnPath cfg s path
    (.streamData { streamId := id, offset := offset, data := data })
  change Upkeep s (s.sendDataFrame cfg id offset data path).1 at sending
  rwa [result] at sending

theorem tookFrame_of_sent {id offset path : Nat} {data : Bytes}
    (sent : s.sendDataFrame cfg id offset data path = (t, true)) : t.TookFrame path id offset := by
  unfold sendDataFrame at sent
  rcases sendOnPath_cases cfg s path
    (.streamData { streamId := id, offset := offset, data := data }) with
    ⟨p, urgent, -, -, -, taken⟩ | same | marked
  · rw [taken] at sent
    cases sent
    exact ⟨data, List.mem_append_right _ (List.mem_singleton_self _)⟩
  · rw [same] at sent
    cases sent
  · rw [marked] at sent
    cases sent

theorem upkeep_xferInflight (s : Session) (source dest n : Nat) :
    Upkeep s (s.xferInflight source dest n) := by
  unfold xferInflight
  split
  · exact Upkeep.refl s
  · refine Upkeep.trans ?_ (upkeep_modifyPath _ dest fun _ alive => alive)
    exact upkeep_modifyPath s source fun _ alive => alive

theorem upkeep_noteDataDropped (s : Session) (id offset : Nat) :
    Upkeep s (s.noteDataDropped id offset) := by
  unfold noteDataDropped
  split
  · exact Upkeep.refl s
  · apply upkeep_modifyUnacked
    intro u _
    exact .inr ⟨rfl, fun carried => carried, fun impossible => by cases impossible⟩

theorem upkeep_setSticky (s : Session) (id path : Nat) : Upkeep s (s.setSticky id path) := by
  unfold setSticky
  split
  · exact Upkeep.refl s
  · split
    · exact Upkeep.refl s
    · have stuck : Upkeep s (s.modifyStream id fun st => { st with sticky := path }) :=
        upkeep_modifyStream s id (fun _ => rfl) fun _ => rfl
      refine stuck.trans ?_
      dsimp only
      split
      · exact upkeep_modifyPath _ path fun _ alive => alive
      · refine Upkeep.trans ?_ (upkeep_modifyPath _ path fun _ alive => alive)
        exact upkeep_modifyPath _ _ fun _ alive => alive

/-- A piece goes to the path whose queue took a frame for it. -/
theorem upkeep_rehomeUnacked {id offset dest : Nat} (took : s.TookFrame dest id offset) :
    Upkeep s (s.rehomeUnacked id offset dest true) := by
  unfold rehomeUnacked
  split
  · exact Upkeep.refl s
  · rename_i u _
    have moved := upkeep_xferInflight s u.pathId dest u.data.length
    refine moved.trans (upkeep_modifyUnacked _ id offset ?_)
    intro v _
    exact .inl ⟨fun _ => took.extend moved.accepted, .inr rfl⟩

/-! ## Sending and re-sending -/

theorem upkeep_migrateSendBlocked (s : Session) (id path offset : Nat) (piece : Bytes) :
    Upkeep s (s.migrateSendBlocked cfg id path offset piece) := by
  unfold migrateSendBlocked
  split
  · exact upkeep_noteDataDropped s id offset
  · rename_i alt _
    split
    · rename_i after failed
      exact (upkeep_of_sendDataFrame failed).trans (upkeep_noteDataDropped after id offset)
    · rename_i after sent
      have stuck := upkeep_setSticky after id alt
      refine (upkeep_of_sendDataFrame sent).trans (stuck.trans ?_)
      refine Upkeep.trans ?_ (upkeep_xferInflight _ path alt piece.length)
      apply upkeep_modifyUnacked
      intro u _
      exact .inl ⟨fun _ => (tookFrame_of_sent sent).extend stuck.accepted, .inr rfl⟩

theorem upkeep_resendInteractive (s : Session) (id : Nat) (due : Due) :
    Upkeep s (s.resendInteractive cfg id due) := by
  unfold resendInteractive
  split
  · exact Upkeep.refl s
  · split
    · exact Upkeep.refl s
    · split
      · rename_i after sent
        exact (upkeep_of_sendDataFrame sent).trans (upkeep_rehomeUnacked (tookFrame_of_sent sent))
      · rename_i after failed
        refine (upkeep_of_sendDataFrame failed).trans (upkeep_modifyUnacked after id due.offset ?_)
        intro u _
        exact .inr ⟨rfl, fun carried => carried, fun impossible => by cases impossible⟩

/-- The next retry of a piece is put off. -/
theorem upkeep_defer (s : Session) (id offset : Nat) (retryNotBefore : Unacked → Nat) :
    Upkeep s (s.modifyUnacked id offset fun u =>
      { u with retryNotBefore := retryNotBefore u }) := by
  apply upkeep_modifyUnacked
  intro u _
  exact .inr ⟨rfl, fun carried => carried, fun same => ⟨same, rfl⟩⟩

theorem upkeep_resendBulkOn (s : Session) (id : Nat) (due : Due) (alt : Nat) :
    Upkeep s (s.resendBulkOn cfg id due alt) := by
  unfold resendBulkOn
  split
  · rename_i after sent
    refine (upkeep_of_sendDataFrame sent).trans
      ((upkeep_rehomeUnacked (tookFrame_of_sent sent)).trans ?_)
    exact upkeep_defer _ id due.offset _
  · rename_i after failed
    refine (upkeep_of_sendDataFrame failed).trans (upkeep_modifyUnacked after id due.offset ?_)
    intro u _
    exact .inr ⟨rfl, fun carried => carried, fun impossible => by cases impossible⟩

theorem upkeep_resendBulkFresh (s : Session) (id : Nat) (due : Due) (picked : Option Nat) :
    Upkeep s (s.resendBulkFresh cfg id due picked) := by
  unfold resendBulkFresh
  split
  · exact Upkeep.refl s
  · split
    · exact upkeep_resendBulkOn s id due _
    · exact upkeep_defer s id due.offset _

theorem upkeep_resendBulk (s : Session) (id : Nat) (due : Due) :
    Upkeep s (s.resendBulk cfg id due) := by
  unfold resendBulk
  split
  · dsimp only
    split
    · rename_i after sent
      unfold resendOnSource at sent
      split at sent
      · refine (upkeep_of_sendDataFrame sent).trans
          ((upkeep_rehomeUnacked (tookFrame_of_sent sent)).trans ?_)
        exact upkeep_defer _ id due.offset _
      · cases sent
    · rename_i after failed
      unfold resendOnSource at failed
      split at failed
      · exact (upkeep_of_sendDataFrame failed).trans (upkeep_resendBulkFresh after id due _)
      · cases failed
        exact upkeep_resendBulkFresh s id due _
  · exact upkeep_resendBulkFresh s id due _

theorem upkeep_retryExpiredUnacked (s : Session) (id : Nat) :
    Upkeep s (s.retryExpiredUnacked cfg id) := by
  unfold retryExpiredUnacked
  split
  · exact Upkeep.refl s
  · split
    · exact Upkeep.refl s
    · apply List.foldlRecOn
      · exact Upkeep.refl s
      · intro reached upkeep due _
        refine upkeep.trans ?_
        unfold resendDue
        split
        · exact Upkeep.refl reached
        · split
          · exact Upkeep.refl reached
          · split
            · exact upkeep_resendBulk reached id due
            · exact upkeep_resendInteractive reached id due

/-! ## Acknowledgement, ending, the writer task -/

theorem upkeep_releasePieces (s : Session) (pieces : List (Nat × Unacked)) :
    Upkeep s (s.releasePieces pieces) := by
  apply List.foldlRecOn
  · exact Upkeep.refl s
  · intro reached upkeep piece _
    exact upkeep.trans (upkeep_modifyPath reached piece.2.pathId fun _ alive => alive)

/-- A stream loses pieces, or leaves the table. -/
theorem upkeep_shrink (s : Session) {id : Nat} {change : StreamState → StreamState}
    (shrinks : ∀ st, s.streams.get? id = some st → (change st).gone = false → st.gone = false ∧
      ∀ offset u, (change st).unacked.get? offset = some u → st.unacked.get? offset = some u) :
    Upkeep s (s.modifyStream id change) := by
  refine ⟨fun _ alive => alive, List.prefix_rfl, ?_⟩
  intro other offset u found
  apply Or.inr
  obtain ⟨after, stored, live, held⟩ := livePiece_eq_some_iff.mp found
  refine ⟨u, livePiece_eq_some_iff.mpr ?_, AsBefore.refl u⟩
  rcases OrdMap.get?_modify_cases stored with ⟨rfl, st, before, rfl⟩ | ⟨-, before⟩
  · obtain ⟨wasLive, kept⟩ := shrinks st before live
    exact ⟨st, before, wasLive, kept offset u held⟩
  · exact ⟨after, before, live, held⟩

theorem upkeep_onAck (s : Session) (ack : StreamAck) : Upkeep s (s.onAck ack) := by
  unfold onAck
  split
  · exact Upkeep.refl s
  · refine (upkeep_releasePieces s _).trans (upkeep_shrink _ ?_)
    intro st _ live
    refine ⟨(st.ackKept_onAck ack s.now).gone.symm.trans live, ?_⟩
    intro offset u held
    rw [StreamState.onAck_unacked, OrdMap.get?_filter_eq_some_iff] at held
    exact held.1

theorem upkeep_streamEvent (s : Session) (id : Nat) (event : StreamEvent) :
    Upkeep s (s.streamEvent id event) := by
  unfold streamEvent
  split
  · exact Upkeep.refl s
  · rename_i st stream
    obtain ⟨stored, wasLive⟩ := getStream_eq_some_iff.mp stream
    dsimp only
    have released : Upkeep s (if (event.apply st).gone then s.releasePieces st.unacked.entries
        else s) ∧ (if (event.apply st).gone then s.releasePieces st.unacked.entries
        else s).streams = s.streams := by
      split
      · exact ⟨upkeep_releasePieces s _, releasePieces_streams s _⟩
      · exact ⟨Upkeep.refl s, rfl⟩
    revert released
    generalize (if (event.apply st).gone then s.releasePieces st.unacked.entries else s) = mid
    rintro ⟨upkeep, same⟩
    have stored_of : ∀ {last : Session}, last.streams = s.streams → Upkeep s last →
        Upkeep s (last.modifyStream id fun _ => event.apply st) := by
      intro last unchanged reached
      refine reached.trans (upkeep_shrink last ?_)
      intro other found live
      rw [unchanged, stored] at found
      cases found
      refine ⟨wasLive, ?_⟩
      rcases (event.apply_held st).2 with ⟨-, unacked⟩ | ⟨removed, -⟩
      · rw [unacked]
        exact fun _ _ held => held
      · rw [removed] at live
        cases live
    split
    · exact stored_of same (upkeep.trans (upkeep_modifyPath mid st.sticky fun _ alive => alive))
    · exact stored_of same upkeep

theorem upkeep_parkStreamData (s : Session) (path : Nat) (data : StreamData) :
    Upkeep s (s.parkStreamData cfg path data) := by
  unfold parkStreamData
  split
  · exact Upkeep.refl s
  · split
    · apply upkeep_modifyPath
      intro p alive
      rwa [isAlive_enqueue] at alive
    · unfold noteDataDropped
      split
      · rename_i absent
        apply upkeep_modifyUnacked
        intro u found
        have still := livePiece_modifyUnacked s data.streamId data.offset (fun u =>
          { u with carried := u.carried && decide (u.pathId ≠ path) }) data.streamId data.offset
        rw [if_pos ⟨rfl, rfl⟩, found] at still
        unfold livePiece at still
        rw [absent] at still
        cases still
      · refine ⟨fun _ alive => alive, List.prefix_rfl, ?_⟩
        intro id offset u found
        rw [livePiece_modifyUnacked, livePiece_modifyUnacked] at found
        split at found
        · rw [Option.map_map] at found
          obtain ⟨v, before, rfl⟩ := Option.map_eq_some_iff.mp found
          refine .inr ⟨v, before, rfl, ?_, fun impossible => by cases impossible⟩
          intro carried
          exact (Bool.and_eq_true_iff.mp carried).1
        · exact .inr ⟨u, found, AsBefore.refl u⟩

theorem upkeep_writeUrgent {path : Nat} (written : s.writeUrgent cfg path = some t) :
    Upkeep s t := by
  unfold writeUrgent at written
  split at written
  · cases written
  · split at written
    · cases written
    · rename_i p _ frame rest _
      have taken : Upkeep s (s.modifyPath path fun p => { p with urgent := rest }) :=
        upkeep_modifyPath s path fun _ alive => alive
      dsimp only at written
      split at written
      · split at written
        · obtain rfl := Option.some.inj written
          exact taken.trans (upkeep_parkStreamData _ path _)
        · obtain rfl := Option.some.inj written
          exact taken
      · obtain rfl := Option.some.inj written
        exact taken

theorem upkeep_writeBulk {path : Nat} (written : s.writeBulk path = some t) : Upkeep s t := by
  unfold writeBulk at written
  split at written
  · cases written
  · split at written
    · obtain rfl := Option.some.inj written
      exact upkeep_modifyPath s path fun _ alive => alive
    · cases written

theorem upkeep_cutPiece (s : Session) (id path : Nat) (piece : Bytes) (overflow : Bool) :
    Upkeep s (s.cutPiece cfg id path piece overflow) := by
  have cut : Upkeep s (s.modifyStream id fun st =>
      { st with
        sendNext := st.sendNext + piece.length
        bulk := st.bulk || decide (cfg.interactiveMax < piece.length) }) :=
    upkeep_modifyStream s id (fun _ => rfl) fun _ => rfl
  unfold cutPiece
  dsimp only
  split
  · exact cut
  · exact cut.trans (upkeep_setSticky _ id path)

theorem upkeep_markDown (s : Session) (path : Nat) : Upkeep s (s.markDown path) := by
  apply upkeep_modifyPath
  intro p alive
  cases alive

theorem upkeep_erasePath (s : Session) (path : Nat) :
    Upkeep s { s with paths := s.paths.erase path } := by
  apply upkeep_of_same
  · intro other alive
    unfold aliveAt at alive ⊢
    rw [getPath_erasePath] at alive
    split at alive
    · cases alive
    · exact alive
  · exact List.prefix_rfl
  · intro id offset
    rfl

end

end NyaLink.Session
