import NyaLink.Session.Books

/-!
# Inflight conservation

The counters stay right in every run, except where a suspended sender wakes up
and moves bytes that its piece has already taken elsewhere, or where a piece is
put on a stream that has left the table.
-/

namespace NyaLink.Session

section

variable {cfg : SessionConfig} {s t : Session}

theorem pieceAt_of_streams {id offset : Nat} (same : t.streams = s.streams) :
    t.pieceAt id offset = s.pieceAt id offset := by
  unfold pieceAt
  rw [same]

theorem pieceAt_setSticky (s : Session) (id path other offset : Nat) :
    (s.setSticky id path).pieceAt other offset = s.pieceAt other offset := by
  rcases setSticky_streams s id path with same | stuck
  · exact pieceAt_of_streams same
  · unfold pieceAt
    rw [stuck, OrdMap.get?_modify]
    split
    · rw [Option.bind_map]
      rfl
    · rfl

theorem ChargedOn.keep {u : Unacked} {source : Nat} (charged : ChargedOn s u source)
    (kept : BooksKept s t) : ChargedOn t u source := by
  rcases charged with here | ⟨unknown, drained⟩
  · exact .inl here
  · refine .inr ⟨?_, ?_⟩
    · have same := kept.inflight u.pathId
      rw [unknown] at same
      exact Option.map_eq_none_iff.mp same
    · intro p found
      have same := kept.inflight source
      rw [found, Option.map_some] at same
      obtain ⟨q, before, counter⟩ := Option.map_eq_some_iff.mp same.symm
      rw [← counter]
      exact drained q before

theorem modifyUnacked_xferInflight (s : Session) (id offset : Nat) (change : Unacked → Unacked)
    (source dest n : Nat) : (s.modifyUnacked id offset change).xferInflight source dest n =
      (s.xferInflight source dest n).modifyUnacked id offset change := by
  unfold xferInflight
  split
  · rfl
  · rfl

/-! ## A blocked send goes elsewhere -/

theorem Books.migrateSendBlocked (books : Books s) {id path offset : Nat} {piece : Bytes}
    (charged : ∀ alt after, s.pickRetry cfg path = some alt →
      s.sendDataFrame cfg id offset piece alt = (after, true) →
      ∃ u, s.pieceAt id offset = some u ∧ u.data = piece ∧ s.ChargedOn u path) :
    Books (s.migrateSendBlocked cfg id path offset piece) := by
  refine ⟨books.released.steer (steered_migrateSendBlocked s id path offset piece), ?_⟩
  unfold Session.migrateSendBlocked
  split
  · exact books.conserved.keep (booksKept_noteDataDropped s id offset)
  · rename_i alt picked
    split
    · rename_i after failed
      exact (books.sendFailed failed).conserved.keep (booksKept_noteDataDropped after id offset)
    · rename_i after sent
      obtain ⟨u, found, data, chargedOn⟩ := charged alt after picked sent
      have streams := @sendDataFrame_streams cfg s id offset piece alt
      have kept := @booksKept_sendOnPath cfg s alt
        (.streamData { streamId := id, offset := offset, data := piece })
      change BooksKept s (s.sendDataFrame cfg id offset piece alt).1 at kept
      rw [sent] at streams kept
      have stuck := booksKept_setSticky after id alt
      have books := (books.sendFailed sent).keep (steered_setSticky after id alt) stuck
      have held : (after.setSticky id alt).pieceAt id offset = some u := by
        rw [pieceAt_setSticky, pieceAt_of_streams streams]
        exact found
      obtain ⟨st, stored, inMap⟩ := Option.bind_eq_some_iff.mp held
      rw [modifyUnacked_xferInflight, ← data]
      apply books.conserved.move stored (books.live_of_held stored inMap) inMap
        (chargedOn.keep (kept.trans stuck))
      · exact .inr (Ne.symm (pickRetryPath_ne picked))
      · rfl
      · rfl

theorem Books.setSenders (books : Books s) (senders : OrdMap Nat Sender) :
    Books { s with senders := senders } :=
  ⟨books.released, books.conserved⟩

theorem Books.sendInserted (books : Books s) {id path offset : Nat} {u : Unacked}
    (found : s.pieceAt id offset = some u) (onPath : u.pathId = path) (rest : Bytes)
    (bulk : Bool) : Books (s.sendInserted cfg id path offset u.data rest bulk) := by
  unfold Session.sendInserted
  split
  · rename_i after sent
    exact ((books.sendFailed sent).keep (steered_noteCarried after id offset true)
      (booksKept_noteCarried after id offset true)).setSenders _
  · rename_i after failed
    have books := books.sendFailed failed
    have streams := @sendDataFrame_streams cfg s id offset u.data path
    rw [failed] at streams
    have migrated : Books (after.migrateSendBlocked cfg id path offset u.data) := by
      apply books.migrateSendBlocked
      intro _ _ _ _
      rw [pieceAt_of_streams streams]
      exact ⟨u, found, rfl, .inl onPath⟩
    split
    · split
      · apply Books.setSenders
        exact books.markPiece id offset (fun _ => rfl) fun _ => rfl
      · exact migrated.setSenders _
    · exact migrated.setSenders _

theorem Books.cutPiece (books : Books s) (id path : Nat) (piece : Bytes) (overflow : Bool) :
    Books (s.cutPiece cfg id path piece overflow) := by
  refine ⟨?_, books.conserved.keep (booksKept_cutPiece s id path piece overflow)⟩
  intro other after stored gone
  obtain ⟨st, before, unacked, sameGone, -⟩ := getStream_cutPiece stored
  rw [unacked]
  exact books.released other st before (sameGone.symm.trans gone)

theorem pieceAt_placePiece_self {id : Nat} {st : StreamState} (path offset : Nat) (piece : Bytes)
    (stored : s.streams.get? id = some st) :
    (s.placePiece id path offset piece).pieceAt id offset =
      some (Endpoint.newUnacked piece path s.now) := by
  unfold pieceAt
  rw [getStream_placePiece, if_pos rfl, stored]
  exact OrdMap.get?_insert_self _ _ _

theorem Books.sendPiece (books : Books s) (tidy : Tidy s) {id path : Nat} {overflow : Bool}
    (live : (s.getStream id).isSome = true)
    (sent : s.sendPiece cfg id path overflow = some t) : Books t := by
  obtain ⟨rest, st, p, sender, stored, found, -, rfl⟩ := sendPiece_eq_some sent
  obtain ⟨same, stream⟩ := Option.isSome_iff_exists.mp live
  obtain ⟨sameStored, notGone⟩ := getStream_eq_some_iff.mp stream
  rw [stored] at sameStored
  cases sameStored
  generalize rest.take (st.pieceLength rest) = piece
  have cut : Books (s.cutPiece cfg id path piece overflow) := books.cutPiece id path piece overflow
  have remains := Option.isSome_of_eq_some stored
  rw [← @isSome_getStream_cutPiece cfg s id path piece overflow id] at remains
  obtain ⟨mid, inCut⟩ := Option.isSome_iff_exists.mp remains
  obtain ⟨before, storedBefore, unacked, gone, -⟩ := getStream_cutPiece inCut
  rw [stored] at storedBefore
  cases storedBefore
  have fresh : mid.unacked.get? st.sendNext = none := by
    rw [unacked]
    cases held : st.unacked.get? st.sendNext with
    | none => rfl
    | some u => exact absurd (tidy.pieces id st stored st.sendNext u held).2 (lt_irrefl _)
  have placed := @Books.placePiece _ cut id path st.sendNext piece mid inCut (gone.trans notGone)
    fresh
  exact placed.sendInserted (pieceAt_placePiece_self path st.sendNext piece inCut) rfl _ _

/-! ## Resuming a suspended sender -/

/-- The path whose queue takes the frame when `wait_bulk_send` gives up on its own path now. -/
def migratesTo (cfg : SessionConfig) (s : Session) (id : Nat) (wait : BulkWait) : Option Nat :=
  if (s.getPath wait.pathId).any Path.isAlive && decide (s.now < wait.deadline) then none
  else
    match s.sendDataFrame cfg id wait.offset wait.piece wait.pathId with
    | (_, true) => none
    | (after, false) =>
        (after.pickRetry cfg wait.pathId).filter fun alt =>
          (after.sendDataFrame cfg id wait.offset wait.piece alt).2

/-- The piece is still in `unacked` and assigned to the waited path (or nothing is charged for
it to any path of the table). -/
def stillCharged (s : Session) (id : Nat) (wait : BulkWait) : Bool :=
  (s.pieceAt id wait.offset).any fun u =>
    decide (u.pathId = wait.pathId) ||
      ((s.getPath u.pathId).isNone && (s.getPath wait.pathId).all fun p => p.inflight == 0)

/-- A piece is put on a stream of the table only, and a sender that moves its piece to another
path finds it where it left it. -/
def accountable (cfg : SessionConfig) (s : Session) : SessionAction → Bool
  | .sendPiece id _ _ => (s.getStream id).isSome
  | .resumeWait id =>
      match s.senders.get? id with
      | some { rest := _, waiting := some wait } =>
          (s.streams.get? id).any StreamState.reset || (s.migratesTo cfg id wait).isNone ||
            s.stillCharged id wait
      | _ => true
  | _ => true

theorem chargedOn_of_stillCharged {id : Nat} {wait : BulkWait}
    (charged : s.stillCharged id wait = true) :
    ∃ u, s.pieceAt id wait.offset = some u ∧ s.ChargedOn u wait.pathId := by
  obtain ⟨u, found, here⟩ := (Option.any_eq_true _ _).mp charged
  refine ⟨u, found, ?_⟩
  rw [Bool.or_eq_true, decide_eq_true_iff, Bool.and_eq_true, Option.isNone_iff_eq_none,
    Option.all_eq_true] at here
  rcases here with onPath | ⟨unknown, drained⟩
  · exact .inl onPath
  · exact .inr ⟨unknown, fun p at_ => beq_iff_eq.mp (drained p at_)⟩

theorem Books.resumeWait (books : Books s) (tidy : Tidy s) {id : Nat}
    (accounted : s.accountable cfg (.resumeWait id) = true)
    (resumed : s.resumeWait cfg id = some t) : Books t := by
  obtain ⟨rest, wait, st, sender, stored, went⟩ := resumed_of_resumeWait resumed
  cases went with
  | ended reset => exact books.setSenders _
  | @enqueued after live sent =>
      exact ((books.sendFailed sent).keep (steered_markEnqueued after id wait)
        (booksKept_markEnqueued after id wait)).setSenders _
  | @migrated after live givenUp failed =>
      apply Books.setSenders
      apply (books.sendFailed failed).migrateSendBlocked
      intro alt final picked sent
      have streams := @sendDataFrame_streams cfg s id wait.offset wait.piece wait.pathId
      have kept := @booksKept_sendOnPath cfg s wait.pathId
        (.streamData { streamId := id, offset := wait.offset, data := wait.piece })
      change BooksKept s (s.sendDataFrame cfg id wait.offset wait.piece wait.pathId).1 at kept
      rw [failed] at streams kept
      have moves : s.migratesTo cfg id wait = some alt := by
        have elapsed : ((s.getPath wait.pathId).any Path.isAlive &&
            decide (s.now < wait.deadline)) = false := by
          rw [Bool.or_eq_true, Bool.not_eq_true', decide_eq_true_iff] at givenUp
          rcases givenUp with dead | late
          · rw [dead, Bool.false_and]
          · rw [decide_eq_false (not_lt.mpr late), Bool.and_false]
        rw [migratesTo, elapsed, failed]
        simp only [Bool.false_eq_true, if_false, picked, sent, Option.filter_some, if_true]
      simp only [accountable, sender, stored, live, moves, Option.any_some,
        Option.isNone_some, Bool.or_false, Bool.false_or] at accounted
      obtain ⟨u, found, charged⟩ := chargedOn_of_stillCharged accounted
      refine ⟨u, ?_, tidy.waits id _ wait sender rfl u found, charged.keep kept⟩
      rw [pieceAt_of_streams streams]
      exact found
  | waits live failed => exact books.sendFailed failed

theorem Books.pathAdd (books : Books s) (tidy : Tidy s) (link : String) :
    Books { s with
      nextPathId := s.nextPathId + 1
      paths := s.paths.insert s.nextPathId (newPath link s.now) } := by
  refine ⟨books.released, ?_⟩
  intro path p found
  change (s.paths.insert s.nextPathId (newPath link s.now)).get? path = some p at found
  rcases OrdMap.get?_insert_cases found with ⟨rfl, rfl⟩ | before
  · apply Eq.symm
    apply OrdMap.total_eq_zero
    intro id st stored
    unfold StreamState.bytesOn
    split
    · rfl
    · apply OrdMap.total_eq_zero
      intro offset u held
      apply if_neg
      have known := (tidy.pieces id st stored offset u held).1
      omega
  · exact books.conserved path p before

theorem Books.addStream (books : Books s) {id : Nat} {st : StreamState}
    (new : s.streams.get? id = none) (empty : st.unacked = .empty) :
    Books { s with streams := s.streams.insert id st } := by
  constructor
  · intro other after stored gone
    change (s.streams.insert id st).get? other = some after at stored
    rcases OrdMap.get?_insert_cases stored with ⟨-, rfl⟩ | before
    · exact empty
    · exact books.released other after before gone
  · intro path p found
    have grown := OrdMap.total_insert_of_none (fun _ st => StreamState.bytesOn st path) st new
    have none_charged : st.bytesOn path = 0 := by
      unfold StreamState.bytesOn
      rw [empty]
      split
      · rfl
      · rfl
    rw [none_charged] at grown
    exact (books.conserved path p found).trans grown.symm

theorem Books.step (books : Books s) (tidy : Tidy s) {action : SessionAction}
    (accounted : s.accountable cfg action = true) (taken : s.step cfg action = some t) :
    Books t := by
  have marked : ∀ {path : Nat} {change : Path → Path}, (∀ p, (change p).inflight = p.inflight) →
      Books (s.modifyPath path change) := fun inflight =>
    books.keep (steered_modifyPath s _ _) (booksKept_modifyPath s _ inflight)
  cases action with
  | tick us =>
      obtain rfl := Option.some.inj taken
      exact ⟨books.released, books.conserved⟩
  | pathAdd link =>
      obtain rfl := Option.some.inj taken
      exact books.pathAdd tidy link
  | pathFailed path order =>
      simp only [Session.step] at taken
      split at taken
      · obtain rfl := Option.some.inj taken
        exact books.pathFailed path order
      · cases taken
  | recordRtt path sample =>
      obtain rfl := Option.some.inj taken
      exact marked fun _ => rfl
  | touchRx path =>
      obtain rfl := Option.some.inj taken
      exact marked fun _ => rfl
  | markDegraded path =>
      obtain rfl := Option.some.inj taken
      exact marked fun _ => rfl
  | setWriteStalled path stalled =>
      obtain rfl := Option.some.inj taken
      exact marked fun _ => rfl
  | writeUrgent path => exact books.keep (steered_writeUrgent taken) (booksKept_writeUrgent taken)
  | writeBulk path => exact books.keep (steered_writeBulk taken) (booksKept_writeBulk taken)
  | control path frame =>
      simp only [Session.step] at taken
      split at taken
      · cases taken
      · obtain rfl := Option.some.inj taken
        exact books.sendOnPath path frame
  | addStream id =>
      simp only [Session.step] at taken
      split at taken
      · cases taken
      · rename_i new
        obtain rfl := Option.some.inj taken
        exact books.addStream (by simpa using new) rfl
  | beginSend id data =>
      simp only [Session.step, Session.beginSend] at taken
      split at taken
      · split at taken
        · cases taken
        · obtain rfl := Option.some.inj taken
          exact books.setSenders _
      · cases taken
  | sendPiece id path overflow => exact books.sendPiece tidy accounted taken
  | resumeWait id => exact books.resumeWait tidy accounted taken
  | endSend id =>
      simp only [Session.step, Session.endSend] at taken
      split at taken
      · obtain rfl := Option.some.inj taken
        exact books.setSenders _
      · cases taken
  | restick id path =>
      obtain rfl := Option.some.inj taken
      exact books.keep (steered_setSticky s id path) (booksKept_setSticky s id path)
  | noteStall id stalled =>
      obtain rfl := Option.some.inj taken
      exact books.keep (steered_noteStall s id stalled)
        (booksKept_modifyStream s id fun _ _ => rfl)
  | onAck ack =>
      obtain rfl := Option.some.inj taken
      exact books.onAck ack
  | retry id =>
      obtain rfl := Option.some.inj taken
      exact books.retryExpiredUnacked id
  | streamEvent id event =>
      obtain rfl := Option.some.inj taken
      exact books.streamEvent id event

end

/-- Queues of one slot; every piece is bulk. -/
def tinyQueues : SessionConfig := { SessionConfig.standard with chan := 1, interactiveMax := 0 }

/-- The second piece waits for room on path 1 when that path fails: both pieces go to path 2. -/
def failWhileWaiting : List SessionAction :=
  [.pathAdd "a", .pathAdd "b", .addStream 1, .beginSend 1 [7], .sendPiece 1 1 false,
    .beginSend 1 [8], .sendPiece 1 1 false, .pathFailed 1 [1]]

end NyaLink.Session
