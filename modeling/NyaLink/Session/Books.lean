import NyaLink.Session.Tidy

/-!
# The books of a session

Each path counts the bytes assigned to it.  `Conserved` says that the counters
are the sums they stand for.  One lemma for each operation says that it keeps
the books: most change neither side, and moving, acknowledging or removing a
piece changes both sides alike.
-/

namespace NyaLink

def Unacked.bytesOn (u : Unacked) (path : Nat) : Nat :=
  if u.pathId = path then u.data.length else 0

/-- Bytes of a stream's pieces that are assigned to the path; none once it left the table. -/
def StreamState.bytesOn (st : StreamState) (path : Nat) : Nat :=
  if st.gone then 0 else st.unacked.total fun _ u => u.bytesOn path

namespace Session

/-- Bytes of all pieces of live streams that are assigned to the path. -/
def assigned (s : Session) (path : Nat) : Nat := s.streams.total fun _ st => st.bytesOn path

/-- Every path of the table counts the bytes assigned to it. -/
def Conserved (s : Session) : Prop :=
  ∀ path p, s.getPath path = some p → p.inflight = s.assigned path

/-- A removed stream has no pieces. -/
def Released (s : Session) : Prop :=
  ∀ id st, s.streams.get? id = some st → st.gone = true → st.unacked = .empty

structure Books (s : Session) : Prop where
  released : Released s
  conserved : Conserved s

/-- Neither a counter nor what it stands for changed. -/
structure BooksKept (s t : Session) : Prop where
  inflight : ∀ path, (t.getPath path).map Path.inflight = (s.getPath path).map Path.inflight
  assigned : ∀ path, t.assigned path = s.assigned path

section

variable {cfg : SessionConfig} {s t : Session}

theorem BooksKept.refl (s : Session) : BooksKept s s := ⟨fun _ => rfl, fun _ => rfl⟩

theorem BooksKept.trans {u : Session} (earlier : BooksKept s t) (later : BooksKept t u) :
    BooksKept s u :=
  ⟨fun path => (later.inflight path).trans (earlier.inflight path),
    fun path => (later.assigned path).trans (earlier.assigned path)⟩

theorem Conserved.keep (conserved : Conserved s) (kept : BooksKept s t) : Conserved t := by
  intro path p found
  have same := kept.inflight path
  rw [found, Option.map_some] at same
  obtain ⟨q, before, counter⟩ := Option.map_eq_some_iff.mp same.symm
  rw [kept.assigned, ← conserved path q before]
  exact counter.symm

theorem Released.steer (released : Released s) (steered : Steered s t) : Released t := by
  intro id after found gone
  obtain ⟨before, foundBefore, kept⟩ := steered.streams id after found
  rcases kept.released gone with goneBefore | empty
  · apply OrdMap.ext_get?
    intro offset
    cases held : after.unacked.get? offset with
    | none => rfl
    | some u =>
        obtain ⟨v, heldBefore, -⟩ := kept.pieces offset u held
        rw [released id before foundBefore goneBefore] at heldBefore
        cases heldBefore
  · exact empty

/-- A stream that still has a piece is in the table. -/
theorem Books.live_of_held (books : Books s) {id offset : Nat} {st : StreamState} {u : Unacked}
    (stored : s.streams.get? id = some st) (held : st.unacked.get? offset = some u) :
    st.gone = false := by
  rw [Bool.eq_false_iff]
  intro gone
  rw [books.released id st stored gone] at held
  cases held

theorem Books.keep (books : Books s) (steered : Steered s t) (kept : BooksKept s t) : Books t :=
  ⟨books.released.steer steered, books.conserved.keep kept⟩

/-! ## Neutral operations -/

theorem assigned_modifyStream_of_same (s : Session) (id : Nat)
    {change : StreamState → StreamState} (path : Nat)
    (same : ∀ st, (change st).bytesOn path = st.bytesOn path) :
    (s.modifyStream id change).assigned path = s.assigned path := by
  unfold assigned
  change (s.streams.modify id change).total _ = _
  unfold OrdMap.modify
  rw [OrdMap.total_mapValues]
  apply OrdMap.total_congr
  intro other st _
  split
  · exact same st
  · rfl

theorem booksKept_modifyStream (s : Session) (id : Nat) {change : StreamState → StreamState}
    (same : ∀ path st, (change st).bytesOn path = st.bytesOn path) :
    BooksKept s (s.modifyStream id change) :=
  ⟨fun _ => rfl, fun path => assigned_modifyStream_of_same s id path (same path)⟩

theorem booksKept_modifyPath (s : Session) (id : Nat) {change : Path → Path}
    (inflight : ∀ p, (change p).inflight = p.inflight) : BooksKept s (s.modifyPath id change) := by
  refine ⟨?_, fun _ => rfl⟩
  intro path
  rw [getPath_modifyPath]
  split
  · rw [Option.map_map]
    congr 1
    funext p
    exact inflight p
  · rfl

theorem booksKept_markPiece (s : Session) (id offset : Nat) {change : Unacked → Unacked}
    (data : ∀ u, (change u).data = u.data) (path : ∀ u, (change u).pathId = u.pathId) :
    BooksKept s (s.modifyUnacked id offset change) := by
  apply booksKept_modifyStream
  intro other st
  simp only [StreamState.bytesOn]
  split
  · rfl
  · unfold OrdMap.modify
    rw [OrdMap.total_mapValues]
    apply OrdMap.total_congr
    intro position u _
    split
    · simp only [Unacked.bytesOn, data, path]
    · rfl

theorem booksKept_noteCarried (s : Session) (id offset : Nat) (sent : Bool) :
    BooksKept s (s.noteCarried id offset sent) :=
  booksKept_markPiece s id offset (fun _ => rfl) fun _ => rfl

theorem booksKept_markEnqueued (s : Session) (id : Nat) (wait : BulkWait) :
    BooksKept s (s.markEnqueued id wait) :=
  booksKept_markPiece s id wait.offset (fun _ => rfl) fun _ => rfl

theorem inflight_enqueue (p : Path) (urgent : Bool) (frame : Frame) :
    (p.enqueue urgent frame).inflight = p.inflight := by
  unfold Path.enqueue
  split
  · rfl
  · rfl

theorem booksKept_sendOnPath (s : Session) (id : Nat) (frame : Frame) :
    BooksKept s (s.sendOnPath cfg id frame).1 := by
  rcases sendOnPath_cases cfg s id frame with ⟨p, urgent, -, -, -, taken⟩ | same | marked
  · rw [taken]
    have kept := booksKept_modifyPath s id fun p => inflight_enqueue p urgent frame
    exact ⟨kept.inflight, kept.assigned⟩
  · rw [same]
    exact BooksKept.refl s
  · rw [marked]
    exact booksKept_modifyPath s id fun _ => rfl

theorem booksKept_noteDataDropped (s : Session) (id offset : Nat) :
    BooksKept s (s.noteDataDropped id offset) := by
  unfold noteDataDropped
  split
  · exact BooksKept.refl s
  · exact booksKept_markPiece s id offset (fun _ => rfl) fun _ => rfl

theorem booksKept_setSticky (s : Session) (id path : Nat) :
    BooksKept s (s.setSticky id path) := by
  unfold setSticky
  split
  · exact BooksKept.refl s
  · split
    · exact BooksKept.refl s
    · have stuck : BooksKept s (s.modifyStream id fun st => { st with sticky := path }) :=
        booksKept_modifyStream s id fun _ _ => rfl
      refine stuck.trans ?_
      dsimp only
      split
      · exact booksKept_modifyPath _ path fun _ => rfl
      · refine BooksKept.trans ?_ (booksKept_modifyPath _ path fun _ => rfl)
        exact booksKept_modifyPath _ _ fun _ => rfl

theorem booksKept_cutPiece (s : Session) (id path : Nat) (piece : Bytes) (overflow : Bool) :
    BooksKept s (s.cutPiece cfg id path piece overflow) := by
  have cut : BooksKept s (s.modifyStream id fun st =>
      { st with
        sendNext := st.sendNext + piece.length
        bulk := st.bulk || decide (cfg.interactiveMax < piece.length) }) :=
    booksKept_modifyStream s id fun _ _ => rfl
  unfold cutPiece
  dsimp only
  split
  · exact cut
  · exact cut.trans (booksKept_setSticky _ id path)

theorem booksKept_parkStreamData (s : Session) (path : Nat) (data : StreamData) :
    BooksKept s (s.parkStreamData cfg path data) := by
  unfold parkStreamData
  split
  · exact BooksKept.refl s
  · split
    · exact booksKept_modifyPath s path fun p => inflight_enqueue p false _
    · refine BooksKept.trans ?_ (booksKept_noteDataDropped _ data.streamId data.offset)
      exact booksKept_markPiece s data.streamId data.offset (fun _ => rfl) fun _ => rfl

theorem booksKept_writeUrgent {path : Nat} (written : s.writeUrgent cfg path = some t) :
    BooksKept s t := by
  unfold writeUrgent at written
  split at written
  · cases written
  · split at written
    · cases written
    · rename_i p _ frame rest _
      have taken : BooksKept s (s.modifyPath path fun p => { p with urgent := rest }) :=
        booksKept_modifyPath s path fun _ => rfl
      dsimp only at written
      split at written
      · split at written
        · obtain rfl := Option.some.inj written
          exact taken.trans (booksKept_parkStreamData _ path _)
        · obtain rfl := Option.some.inj written
          exact taken
      · obtain rfl := Option.some.inj written
        exact taken

theorem booksKept_writeBulk {path : Nat} (written : s.writeBulk path = some t) :
    BooksKept s t := by
  unfold writeBulk at written
  split at written
  · cases written
  · split at written
    · obtain rfl := Option.some.inj written
      exact booksKept_modifyPath s path fun _ => rfl
    · cases written

/-! ## A piece moves with its bytes -/

theorem assigned_modifyStream {id : Nat} {st : StreamState} (change : StreamState → StreamState)
    (stored : s.streams.get? id = some st) (path : Nat) :
    (s.modifyStream id change).assigned path + st.bytesOn path =
      s.assigned path + (change st).bytesOn path :=
  OrdMap.total_modify_of_some (fun _ st => st.bytesOn path) change stored

theorem assigned_modifyUnacked {id offset : Nat} {st : StreamState} {u : Unacked}
    (change : Unacked → Unacked) (stored : s.streams.get? id = some st) (live : st.gone = false)
    (held : st.unacked.get? offset = some u) (path : Nat) :
    (s.modifyUnacked id offset change).assigned path + u.bytesOn path =
      s.assigned path + (change u).bytesOn path := by
  have outer := assigned_modifyStream (s := s) (fun st =>
    { st with unacked := st.unacked.modify offset change }) stored path
  have inner := OrdMap.total_modify_of_some (fun _ u => Unacked.bytesOn u path) change held
  simp only [StreamState.bytesOn, live, Bool.false_eq_true, if_false] at outer
  change (s.modifyStream id fun st =>
    { st with unacked := st.unacked.modify offset change }).assigned path + _ = _
  omega

/-- Counters after a transfer. -/
theorem inflight_xferInflight (s : Session) (source dest n path : Nat) :
    ((s.xferInflight source dest n).getPath path).map Path.inflight =
      (s.getPath path).map fun p =>
        if source = dest ∨ n = 0 then p.inflight
        else if path = dest then p.inflight + n
        else if path = source then p.inflight - n
        else p.inflight := by
  unfold xferInflight
  split
  · rfl
  · rename_i moves
    have different : source ≠ dest := fun same => moves (.inl same)
    unfold addInflight subInflight
    rw [getPath_modifyPath, getPath_modifyPath]
    by_cases atDest : path = dest
    · subst atDest
      simp only [if_true, if_neg different.symm, Option.map_map]
      rfl
    · by_cases atSource : path = source
      · subst atSource
        simp only [if_true, if_neg different, Option.map_map]
        rfl
      · simp only [if_neg atDest, if_neg atSource]

/-- The bytes a transfer takes from `source` were charged there, or nothing was charged for
them anywhere. -/
def ChargedOn (s : Session) (u : Unacked) (source : Nat) : Prop :=
  u.pathId = source ∨
    s.getPath u.pathId = none ∧ ∀ p, s.getPath source = some p → p.inflight = 0

theorem Conserved.move (conserved : Conserved s) {id offset : Nat} {st : StreamState} {u : Unacked}
    (stored : s.streams.get? id = some st) (live : st.gone = false)
    (held : st.unacked.get? offset = some u) {source dest : Nat} (charged : ChargedOn s u source)
    (elsewhere : u.pathId = source ∨ source ≠ dest) {change : Unacked → Unacked}
    (data : (change u).data = u.data) (moved : (change u).pathId = dest) :
    Conserved ((s.xferInflight source dest u.data.length).modifyUnacked id offset change) := by
  intro path p found
  have counter := inflight_xferInflight s source dest u.data.length path
  change (s.xferInflight source dest u.data.length).getPath path = some p at found
  rw [found, Option.map_some] at counter
  obtain ⟨q, before, value⟩ := Option.map_eq_some_iff.mp counter.symm
  have balance := assigned_modifyUnacked change stored live held path
  have same : (s.modifyUnacked id offset change).assigned path =
      ((s.xferInflight source dest u.data.length).modifyUnacked id offset change).assigned
        path := by
    unfold xferInflight
    split
    · rfl
    · rfl
  rw [same] at balance
  have sum := conserved path q before
  simp only [Unacked.bytesOn, data, moved] at balance
  rcases charged with here | ⟨unknown, drained⟩
  · rw [here] at balance
    split at value
    · rename_i still
      rcases still with rfl | empty
      · omega
      · split at balance
        · split at balance <;> omega
        · split at balance <;> omega
    · rename_i moves
      split at value
      · rename_i atDest
        rw [if_pos atDest.symm, if_neg fun same => moves (.inl (same.trans atDest))] at balance
        omega
      · rename_i notDest
        rw [if_neg (Ne.symm notDest)] at balance
        split at value
        · rename_i atSource
          rw [if_pos atSource.symm] at balance
          omega
        · rename_i notSource
          rw [if_neg (Ne.symm notSource)] at balance
          omega
  · have notHere : u.pathId ≠ path := by
      rintro rfl
      rw [unknown] at before
      cases before
    rw [if_neg notHere] at balance
    split at value
    · rename_i still
      rcases still with rfl | empty
      · have same : u.pathId = source := elsewhere.resolve_right fun different => different rfl
        rw [if_neg fun at_ => notHere (same.trans at_)] at balance
        omega
      · split at balance <;> omega
    · split at value
      · rename_i atDest
        rw [if_pos atDest.symm] at balance
        omega
      · rename_i notDest
        rw [if_neg (Ne.symm notDest)] at balance
        split at value
        · rename_i atSource
          rw [atSource] at before
          have empty := drained q before
          omega
        · omega

/-! ## The retry pass and a failing path -/

theorem Books.sendOnPath (books : Books s) (id : Nat) (frame : Frame) :
    Books (s.sendOnPath cfg id frame).1 :=
  books.keep (steered_sendOnPath s id frame) (booksKept_sendOnPath s id frame)

theorem Books.markPiece (books : Books s) (id offset : Nat) {change : Unacked → Unacked}
    (data : ∀ u, (change u).data = u.data) (path : ∀ u, (change u).pathId = u.pathId) :
    Books (s.modifyUnacked id offset change) :=
  books.keep (steered_markPiece s id offset data path) (booksKept_markPiece s id offset data path)

/-- Rehoming a piece moves its bytes along. -/
theorem Books.rehomeUnacked (books : Books s) (id offset : Nat) {dest : Nat} (sent : Bool)
    (known : (s.getPath dest).isSome = true) :
    Books (s.rehomeUnacked id offset dest sent) := by
  refine ⟨books.released.steer (steered_rehomeUnacked s id offset dest sent known), ?_⟩
  unfold Session.rehomeUnacked
  split
  · exact books.conserved
  · rename_i u found
    obtain ⟨st, stored, held⟩ := Option.bind_eq_some_iff.mp found
    exact books.conserved.move stored (books.live_of_held stored held) held (.inl rfl) (.inl rfl)
      rfl rfl

/-- A piece goes where its frame was taken. -/
theorem Books.sentAndRehomed (books : Books s) {id offset path : Nat} {data : Bytes}
    {after : Session} (sent : s.sendDataFrame cfg id offset data path = (after, true)) :
    Books (after.rehomeUnacked id offset path true) := by
  have sending := @Books.sendOnPath cfg s books path
    (.streamData { streamId := id, offset := offset, data := data })
  have known := isSome_getPath_of_sent sent
  rw [← @isSome_getPath_sendDataFrame cfg s id offset data path path, sent] at known
  change Books (s.sendDataFrame cfg id offset data path).1 at sending
  rw [sent] at sending
  exact sending.rehomeUnacked id offset true known

theorem Books.sendFailed (books : Books s) {id offset path : Nat} {data : Bytes} {taken : Bool}
    {after : Session} (sent : s.sendDataFrame cfg id offset data path = (after, taken)) :
    Books after := by
  have sending := @Books.sendOnPath cfg s books path
    (.streamData { streamId := id, offset := offset, data := data })
  change Books (s.sendDataFrame cfg id offset data path).1 at sending
  rwa [sent] at sending

theorem Books.resendInteractive (books : Books s) (id : Nat) (due : Due) :
    Books (s.resendInteractive cfg id due) := by
  unfold Session.resendInteractive
  split
  · exact books
  · split
    · exact books
    · split
      · rename_i after sent
        exact books.sentAndRehomed sent
      · rename_i after failed
        exact (books.sendFailed failed).markPiece id due.offset (fun _ => rfl) fun _ => rfl

theorem Books.resendBulkOn (books : Books s) (id : Nat) (due : Due) (alt : Nat) :
    Books (s.resendBulkOn cfg id due alt) := by
  unfold Session.resendBulkOn
  split
  · rename_i after sent
    exact (books.sentAndRehomed sent).markPiece id due.offset (fun _ => rfl) fun _ => rfl
  · rename_i after failed
    exact (books.sendFailed failed).markPiece id due.offset (fun _ => rfl) fun _ => rfl

theorem Books.resendBulkFresh (books : Books s) (id : Nat) (due : Due) (picked : Option Nat) :
    Books (s.resendBulkFresh cfg id due picked) := by
  unfold Session.resendBulkFresh
  split
  · exact books
  · split
    · exact books.resendBulkOn id due _
    · exact books.markPiece id due.offset (fun _ => rfl) fun _ => rfl

theorem Books.resendBulk (books : Books s) (id : Nat) (due : Due) :
    Books (s.resendBulk cfg id due) := by
  unfold Session.resendBulk
  split
  · dsimp only
    split
    · rename_i after sent
      unfold resendOnSource at sent
      split at sent
      · exact (books.sentAndRehomed sent).markPiece id due.offset (fun _ => rfl) fun _ => rfl
      · cases sent
    · rename_i after failed
      unfold resendOnSource at failed
      split at failed
      · exact (books.sendFailed failed).resendBulkFresh id due _
      · cases failed
        exact books.resendBulkFresh id due _
  · exact books.resendBulkFresh id due _

theorem Books.resendDue (books : Books s) (id : Nat) (stalledLong : Bool) (due : Due) :
    Books (resendDue cfg id stalledLong s due) := by
  unfold Session.resendDue
  split
  · exact books
  · split
    · exact books
    · split
      · exact books.resendBulk id due
      · exact books.resendInteractive id due

theorem Books.retryExpiredUnacked (books : Books s) (id : Nat) :
    Books (s.retryExpiredUnacked cfg id) := by
  unfold Session.retryExpiredUnacked
  split
  · exact books
  · split
    · exact books
    · apply List.foldlRecOn
      · exact books
      · intro reached kept due _
        exact kept.resendDue id _ due

theorem Books.retransmitPiece (books : Books s) (id : Nat) {dest : Nat} (piece : Nat × Unacked)
    (known : (s.getPath dest).isSome = true) : Books (retransmitPiece cfg id dest s piece) :=
  (((books.rehomeUnacked id piece.1 false known).sendOnPath dest _).keep
    (steered_noteCarried _ id piece.1 _) (booksKept_noteCarried _ id piece.1 _))

theorem Books.retransmitFromOn (books : Books s) (id source : Nat) {dest : Nat}
    (known : (s.getPath dest).isSome = true) : Books (s.retransmitFromOn cfg id source dest) := by
  unfold Session.retransmitFromOn
  split
  · exact books
  · rename_i st _
    have all : Books ((st.unacked.entries.filter fun piece => piece.2.pathId = source).foldl
        (Session.retransmitPiece cfg id dest) s) ∧
        (((st.unacked.entries.filter fun piece => piece.2.pathId = source).foldl
          (Session.retransmitPiece cfg id dest) s).getPath dest).isSome = true := by
      apply List.foldlRecOn
        (motive := fun reached : Session => Books reached ∧ (reached.getPath dest).isSome = true)
      · exact ⟨books, known⟩
      · intro reached kept piece _
        refine ⟨kept.1.retransmitPiece id piece kept.2, ?_⟩
        rw [isSome_getPath_retransmitPiece]
        exact kept.2
    exact all.1

theorem Books.rehomeUnackedFrom (books : Books s) (dead : Nat) (order : List Nat) :
    Books (s.rehomeUnackedFrom cfg dead order) := by
  unfold Session.rehomeUnackedFrom
  split
  · exact books
  · rename_i alt picked
    obtain ⟨p, found, -⟩ := getPath_of_pickRetryPath picked
    have all : Books (order.foldl (fun s id => s.retransmitFromOn cfg id dead alt) s) ∧
        ((order.foldl (fun s id => s.retransmitFromOn cfg id dead alt) s).getPath alt).isSome =
          true := by
      apply List.foldlRecOn
        (motive := fun reached : Session => Books reached ∧ (reached.getPath alt).isSome = true)
      · exact ⟨books, Option.isSome_of_eq_some found⟩
      · intro reached kept id _
        exact ⟨kept.1.retransmitFromOn id dead kept.2,
          (@steered_retransmitFromOn cfg reached id dead alt kept.2).2⟩
    exact all.1

theorem Books.pathFailed (books : Books s) (path : Nat) (order : List Nat) :
    Books (s.pathFailed cfg path order) := by
  refine ⟨books.released.steer (steered_pathFailed s path order), ?_⟩
  unfold Session.pathFailed
  split
  · exact books.conserved
  · split
    · exact books.conserved
    · have marked : Books (s.markDown path) :=
        books.keep (steered_modifyPath s path _) (booksKept_modifyPath s path fun _ => rfl)
      have rehomed := @Books.rehomeUnackedFrom cfg _ marked path order
      intro other p found
      rw [getPath_erasePath] at found
      split at found
      · cases found
      · exact rehomed.conserved other p found

/-! ## Pieces leave -/

theorem inflight_releasePieces (s : Session) (pieces : List (Nat × Unacked)) (path : Nat) :
    ((s.releasePieces pieces).getPath path).map Path.inflight =
      (s.getPath path).map fun p =>
        p.inflight - (pieces.map fun piece => piece.2.bytesOn path).sum := by
  unfold releasePieces
  induction pieces generalizing s with
  | nil => rfl
  | cons piece rest inductionHypothesis =>
      rw [List.foldl_cons, inductionHypothesis]
      unfold subInflight
      rw [getPath_modifyPath]
      simp only [List.map_cons, List.sum_cons, Unacked.bytesOn]
      by_cases here : piece.2.pathId = path
      · subst here
        simp only [if_true, Option.map_map]
        congr 1
        funext p
        exact Nat.sub_sub _ _ _
      · simp only [if_neg here, if_neg (Ne.symm here), Nat.zero_add]

/-- What leaves a stream leaves the counters. -/
theorem Conserved.free (conserved : Conserved s) {mid : Session} {freed : Nat → Nat}
    (streams : mid.streams = s.streams)
    (inflight : ∀ path, (mid.getPath path).map Path.inflight =
      (s.getPath path).map fun p => p.inflight - freed path)
    {id : Nat} {st : StreamState} {change : StreamState → StreamState}
    (stored : s.streams.get? id = some st)
    (balance : ∀ path, st.bytesOn path = (change st).bytesOn path + freed path) :
    Conserved (mid.modifyStream id change) := by
  intro path p found
  have counter := inflight path
  change mid.getPath path = some p at found
  rw [found, Option.map_some] at counter
  obtain ⟨q, before, value⟩ := Option.map_eq_some_iff.mp counter.symm
  have sum := conserved path q before
  rw [← streams] at stored
  have moved := assigned_modifyStream change stored path
  have same : mid.assigned path = s.assigned path := by
    unfold assigned
    rw [streams]
  have bytes := balance path
  omega

theorem Books.onAck (books : Books s) (ack : StreamAck) : Books (s.onAck ack) := by
  refine ⟨books.released.steer (steered_onAck s ack), ?_⟩
  unfold Session.onAck
  split
  · exact books.conserved
  · rename_i st stream
    obtain ⟨stored, live⟩ := getStream_eq_some_iff.mp stream
    apply books.conserved.free (releasePieces_streams s _) (inflight_releasePieces s _) stored
    intro path
    have kept := st.ackKept_onAck ack s.now
    simp only [StreamState.bytesOn, kept.gone, live, Bool.false_eq_true, if_false,
      StreamState.onAck_unacked]
    have parts := OrdMap.total_filter_add (fun _ u => Unacked.bytesOn u path) (st.releases ack)
      st.unacked
    rw [← parts, Nat.add_comm]
    rfl

theorem Books.streamEvent (books : Books s) (id : Nat) (event : StreamEvent) :
    Books (s.streamEvent id event) := by
  refine ⟨books.released.steer (steered_streamEvent s id event), ?_⟩
  unfold Session.streamEvent
  split
  · exact books.conserved
  · rename_i st stream
    obtain ⟨stored, live⟩ := getStream_eq_some_iff.mp stream
    dsimp only
    have unstuck : ∀ (mid : Session) (freed : Nat → Nat), mid.streams = s.streams →
        (∀ path, (mid.getPath path).map Path.inflight =
          (s.getPath path).map fun p => p.inflight - freed path) →
        (∀ path, st.bytesOn path = (event.apply st).bytesOn path + freed path) →
        Conserved ((if st.sticky ≠ 0 ∧ (event.apply st).sticky = 0 then mid.dropSticky st.sticky
          else mid).modifyStream id fun _ => event.apply st) := by
      intro mid freed streams inflight balance
      split
      · have kept : BooksKept mid (mid.dropSticky st.sticky) :=
          booksKept_modifyPath mid st.sticky fun _ => rfl
        exact @Conserved.free s books.conserved (mid.dropSticky st.sticky) freed streams
          (fun path => (kept.inflight path).trans (inflight path)) id st _ stored balance
      · exact books.conserved.free streams inflight stored balance
    obtain ⟨-, held⟩ := event.apply_held st
    cases gone : (event.apply st).gone with
    | true =>
        apply unstuck _ _ (releasePieces_streams s _) (inflight_releasePieces s _)
        intro path
        simp only [StreamState.bytesOn, live, gone, Bool.false_eq_true, if_false, if_true,
          Nat.zero_add]
        rfl
    | false =>
        rcases held with ⟨-, unacked⟩ | ⟨removed, -⟩
        · apply unstuck s (fun _ => 0) rfl
          · intro path
            rfl
          · intro path
            simp only [StreamState.bytesOn, live, gone, unacked]
            rfl
        · rw [gone] at removed
          cases removed

/-! ## A new piece -/

theorem Books.placePiece (books : Books s) {id path offset : Nat} (piece : Bytes)
    {st : StreamState} (stored : s.streams.get? id = some st) (live : st.gone = false)
    (fresh : st.unacked.get? offset = none) : Books (s.placePiece id path offset piece) := by
  constructor
  · intro other after found gone
    rw [getStream_placePiece] at found
    split at found
    · rename_i same
      rw [same, stored, Option.map_some] at found
      cases found
      rw [live] at gone
      cases gone
    · exact books.released other after found gone
  · intro other p found
    have moved := assigned_modifyStream (s := s) (fun st =>
      { st with unacked := st.unacked.insert offset (Endpoint.newUnacked piece path s.now) })
      stored other
    have grown := OrdMap.total_insert_of_none (fun _ u => Unacked.bytesOn u other)
      (Endpoint.newUnacked piece path s.now) fresh
    simp only [StreamState.bytesOn, live, Bool.false_eq_true, if_false] at moved
    change ((s.modifyStream id _).addInflight path piece.length).getPath other = some p at found
    unfold addInflight at found
    rw [getPath_modifyPath] at found
    change p.inflight = (s.modifyStream id fun st =>
      { st with
        unacked := st.unacked.insert offset (Endpoint.newUnacked piece path s.now) }).assigned other
    change (if other = path then (s.getPath other).map _ else s.getPath other) = some p at found
    split at found
    · rename_i here
      obtain ⟨q, before, rfl⟩ := Option.map_eq_some_iff.mp found
      have sum := books.conserved other q before
      have placed : (Endpoint.newUnacked piece path s.now).bytesOn other = piece.length :=
        if_pos here.symm
      simp only
      omega
    · rename_i elsewhere
      have sum := books.conserved other p found
      have placed : (Endpoint.newUnacked piece path s.now).bytesOn other = 0 :=
        if_neg (Ne.symm elsewhere)
      omega

end

end Session

end NyaLink
