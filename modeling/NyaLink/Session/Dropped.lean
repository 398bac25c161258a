import NyaLink.Session.Inflight
import NyaLink.Session.Upkeep

/-!
# The dropped flag

A piece that is not marked dropped, on a living path and not waited on by its
sender, has been taken by a queue of that path.  Two operations may break this:
the re-sends of a failed path, whose results nobody looks at, and a suspended
sender that clears the mark of a piece which is somewhere else by now.
-/

namespace NyaLink.Session

/-- The stream's sender is suspended on this piece. -/
def waitsOn (s : Session) (id offset : Nat) : Bool :=
  (s.senders.get? id).any fun sender => sender.waiting.any fun wait => wait.offset == offset

/-- Apart from the exempt pieces, every piece that is not marked dropped and whose path is alive
has been taken by a queue of that path. -/
structure HonestExcept (exempt : Nat → Nat → Prop) (s : Session) : Prop where
  taken : ∀ id offset u, s.livePiece id offset = some u → u.carried = true →
    s.TookFrame u.pathId id offset
  carried : ∀ id offset u, s.livePiece id offset = some u → u.dropped = false →
    s.aliveAt u.pathId = true → ¬ exempt id offset → u.carried = true

/-- All pieces but those that senders wait on. -/
def Honest (s : Session) : Prop := HonestExcept (fun id offset => s.waitsOn id offset = true) s

section

variable {cfg : SessionConfig} {s t : Session} {exempt : Nat → Nat → Prop}

theorem HonestExcept.upkeep (honest : HonestExcept exempt s) (upkeep : Upkeep s t) :
    HonestExcept exempt t := by
  constructor
  · intro id offset u found carried
    rcases upkeep.pieces id offset u found with settled | ⟨v, before, same⟩
    · exact settled.taken carried
    · rw [same.pathId]
      exact (honest.taken id offset v before (same.carried carried)).extend upkeep.accepted
  · intro id offset u found dropped alive notExempt
    rcases upkeep.pieces id offset u found with settled | ⟨v, before, same⟩
    · rcases settled.marked with wasDropped | carried
      · rw [dropped] at wasDropped
        cases wasDropped
      · exact carried
    · obtain ⟨notDropped, sameCarried⟩ := same.dropped dropped
      rw [same.pathId] at alive
      rw [sameCarried]
      exact honest.carried id offset v before notDropped (upkeep.alive _ alive) notExempt

/-- A piece that is fine needs no exemption. -/
theorem HonestExcept.settle (honest : HonestExcept exempt s) {id offset : Nat}
    (fine : ∀ u, s.livePiece id offset = some u → u.dropped = false →
      s.aliveAt u.pathId = true → u.carried = true) :
    HonestExcept (fun other position => exempt other position ∧ ¬ (other = id ∧ position = offset))
      s := by
  refine ⟨honest.taken, ?_⟩
  intro other position u found dropped alive notExempt
  by_cases here : other = id ∧ position = offset
  · obtain ⟨rfl, rfl⟩ := here
    exact fine u found dropped alive
  · exact honest.carried other position u found dropped alive fun isExempt =>
      notExempt ⟨isExempt, here⟩

theorem HonestExcept.weaken {fewer : Nat → Nat → Prop} (honest : HonestExcept fewer s)
    (implies : ∀ id offset, fewer id offset → exempt id offset) : HonestExcept exempt s :=
  ⟨honest.taken, fun id offset u found dropped alive notExempt =>
    honest.carried id offset u found dropped alive fun isFewer =>
      notExempt (implies id offset isFewer)⟩

/-- The senders changed, nothing else. -/
theorem HonestExcept.setSenders (honest : HonestExcept exempt s) (senders : OrdMap Nat Sender) :
    HonestExcept exempt { s with senders := senders } :=
  ⟨honest.taken, honest.carried⟩

theorem Honest.upkeep (honest : Honest s) (upkeep : Upkeep s t) (senders : t.senders = s.senders) :
    Honest t := by
  have kept := HonestExcept.upkeep honest upkeep
  apply kept.weaken
  intro id offset waited
  unfold waitsOn at waited ⊢
  rwa [senders]

theorem waitsOn_proceed_of_ne {id other : Nat} (different : other ≠ id) (rest : Bytes)
    (offset : Nat) : (s.proceed id rest).waitsOn other offset = s.waitsOn other offset := by
  unfold waitsOn proceed
  dsimp only
  split
  · rw [OrdMap.get?_erase_of_ne _ different]
  · rw [OrdMap.get?_insert_of_ne _ _ different]

/-- After the sender has gone on, its piece counts again. -/
theorem honest_proceed (honest : HonestExcept (fun id offset => s.waitsOn id offset = true) t)
    (senders : t.senders = s.senders) {id offset : Nat}
    (waits : ∀ position, s.waitsOn id position = true → position = offset)
    (fine : ∀ u, t.livePiece id offset = some u → u.dropped = false →
      t.aliveAt u.pathId = true → u.carried = true) (rest : Bytes) :
    Honest (t.proceed id rest) := by
  have settled := honest.settle fine
  apply (settled.setSenders _).weaken
  rintro other position ⟨waited, elsewhere⟩
  have different : other ≠ id := by
    rintro rfl
    exact elsewhere ⟨rfl, waits position waited⟩
  rw [waitsOn_proceed_of_ne different]
  unfold waitsOn at waited ⊢
  rwa [senders]

/-! ## A new piece -/

theorem livePiece_placePiece {id path offset : Nat} {piece : Bytes} {other position : Nat}
    {u : Unacked} (found : (s.placePiece id path offset piece).livePiece other position = some u) :
    other = id ∧ position = offset ∧ u = Endpoint.newUnacked piece path s.now ∨
      s.livePiece other position = some u := by
  obtain ⟨after, stored, live, held⟩ := livePiece_eq_some_iff.mp found
  rw [getStream_placePiece] at stored
  split at stored
  · rename_i same
    obtain ⟨st, before, rfl⟩ := Option.map_eq_some_iff.mp stored
    rcases OrdMap.get?_insert_cases held with ⟨here, new⟩ | old
    · exact .inl ⟨same, here, new⟩
    · exact .inr (livePiece_eq_some_iff.mpr ⟨st, before, live, old⟩)
  · exact .inr (livePiece_eq_some_iff.mpr ⟨after, stored, live, held⟩)

theorem HonestExcept.placePiece (honest : HonestExcept exempt s) (id path offset : Nat)
    (piece : Bytes) : HonestExcept
      (fun other position => exempt other position ∨ other = id ∧ position = offset)
      (s.placePiece id path offset piece) := by
  have alive : ∀ other, (s.placePiece id path offset piece).aliveAt other = s.aliveAt other :=
    aliveAt_modifyPath (s.modifyStream id _) path fun _ => rfl
  constructor
  · intro other position u found carried
    rcases livePiece_placePiece found with ⟨-, -, rfl⟩ | before
    · cases carried
    · exact honest.taken other position u before carried
  · intro other position u found dropped living notExempt
    rcases livePiece_placePiece found with ⟨same, here, -⟩ | before
    · exact absurd (.inr ⟨same, here⟩) notExempt
    · rw [alive] at living
      exact honest.carried other position u before dropped living fun isExempt =>
        notExempt (.inl isExempt)

/-- What a blocked send does with its piece: it is elsewhere, or marked dropped. -/
theorem settled_migrateSendBlocked (s : Session) {id path offset : Nat} {piece : Bytes}
    {u : Unacked}
    (found : (s.migrateSendBlocked cfg id path offset piece).livePiece id offset = some u) :
    u.dropped = true ∨ u.carried = true := by
  have dropped : ∀ (mid : Session) {v : Unacked},
      (mid.noteDataDropped id offset).livePiece id offset = some v → v.dropped = true := by
    intro mid v here
    unfold noteDataDropped at here
    split at here
    · rename_i absent
      unfold livePiece at here
      rw [absent] at here
      cases here
    · rw [livePiece_modifyUnacked, if_pos ⟨rfl, rfl⟩] at here
      obtain ⟨w, -, rfl⟩ := Option.map_eq_some_iff.mp here
      rfl
  unfold migrateSendBlocked at found
  split at found
  · exact .inl (dropped _ found)
  · split at found
    · exact .inl (dropped _ found)
    · apply Or.inr
      rw [livePiece_of_streams (xferInflight_streams _ path _ piece.length),
        livePiece_modifyUnacked, if_pos ⟨rfl, rfl⟩] at found
      obtain ⟨w, -, rfl⟩ := Option.map_eq_some_iff.mp found
      rfl

theorem sendDataFrame_senders (s : Session) (id offset : Nat) (data : Bytes) (path : Nat) :
    (s.sendDataFrame cfg id offset data path).1.senders = s.senders :=
  (steered_sendDataFrame s id offset data path).senders

/-- The first send of a piece that its sender does not wait on yet. -/
theorem honest_sendInserted {id path offset : Nat} {piece : Bytes}
    (honest : HonestExcept (fun other position =>
      s.waitsOn other position = true ∨ other = id ∧ position = offset) s)
    (idle : ∀ position, s.waitsOn id position = false)
    (placed : ∀ u, s.livePiece id offset = some u → u.pathId = path) (rest : Bytes) (bulk : Bool) :
    Honest (s.sendInserted cfg id path offset piece rest bulk) := by
  have exempt_only : ∀ {t : Session}, t.senders = s.senders → HonestExcept (fun other position =>
      s.waitsOn other position = true ∨ other = id ∧ position = offset) t →
      (∀ u, t.livePiece id offset = some u → u.dropped = true ∨ u.carried = true) →
      Honest (t.proceed id rest) := by
    intro t senders kept marked
    refine @honest_proceed s t ?_ senders id offset ?_ ?_ rest
    · apply (@HonestExcept.settle _ _ kept id offset ?_).weaken
      · rintro other position ⟨waited | here, elsewhere⟩
        · exact waited
        · exact absurd here elsewhere
      · intro u found dropped _
        rcases marked u found with wasDropped | carried
        · rw [dropped] at wasDropped
          cases wasDropped
        · exact carried
    · intro position waited
      rw [idle] at waited
      cases waited
    · intro u found dropped _
      rcases marked u found with wasDropped | carried
      · rw [dropped] at wasDropped
        cases wasDropped
      · exact carried
  have migrated : ∀ {after : Session},
      s.sendDataFrame cfg id offset piece path = (after, false) →
      Honest ((after.migrateSendBlocked cfg id path offset piece).proceed id rest) := by
    intro after failed
    have senders := @sendDataFrame_senders cfg s id offset piece path
    rw [failed] at senders
    apply exempt_only
    · exact (steered_migrateSendBlocked after id path offset piece).senders.trans senders
    · exact honest.upkeep
        ((upkeep_of_sendDataFrame failed).trans
          (upkeep_migrateSendBlocked after id path offset piece))
    · exact fun u found => settled_migrateSendBlocked after found
  unfold sendInserted
  split
  · rename_i after sent
    have senders := @sendDataFrame_senders cfg s id offset piece path
    have streams := @sendDataFrame_streams cfg s id offset piece path
    rw [sent] at senders streams
    have carries : Upkeep after (after.noteCarried id offset true) := by
      apply upkeep_modifyUnacked
      intro u found
      rw [livePiece_of_streams streams] at found
      refine .inl ⟨fun _ => ?_, .inr rfl⟩
      have onPath := placed u found
      subst onPath
      exact tookFrame_of_sent sent
    apply exempt_only
    · exact senders
    · exact honest.upkeep ((upkeep_of_sendDataFrame sent).trans carries)
    · intro u found
      unfold noteCarried at found
      rw [livePiece_modifyUnacked, if_pos ⟨rfl, rfl⟩] at found
      obtain ⟨v, -, rfl⟩ := Option.map_eq_some_iff.mp found
      exact .inr rfl
  · rename_i after failed
    have senders := @sendDataFrame_senders cfg s id offset piece path
    rw [failed] at senders
    split
    · rename_i p _
      split
      · have kept := honest.upkeep ((upkeep_of_sendDataFrame failed).trans
          (upkeep_defer after id offset fun _ => after.now + downTimeoutFor cfg p))
        apply (kept.setSenders _).weaken
        intro other position exempted
        unfold waitsOn
        dsimp only
        by_cases here : other = id
        · subst here
          rw [OrdMap.get?_insert_self]
          rcases exempted with waited | ⟨-, rfl⟩
          · rw [idle] at waited
            cases waited
          · simp
        · rw [OrdMap.get?_insert_of_ne _ _ here]
          rcases exempted with waited | ⟨same, -⟩
          · unfold waitsOn at waited
            rw [← senders] at waited
            exact waited
          · exact absurd same here
      · exact migrated failed
    · exact migrated failed

theorem honest_sendPiece (honest : Honest s) (tidy : Tidy s) {id path : Nat} {overflow : Bool}
    (sent : s.sendPiece cfg id path overflow = some t) : Honest t := by
  obtain ⟨rest, st, p, sender, stored, -, -, rfl⟩ := sendPiece_eq_some sent
  generalize rest.take (st.pieceLength rest) = piece
  have cut : HonestExcept (fun other position => s.waitsOn other position = true)
      (s.cutPiece cfg id path piece overflow) :=
    HonestExcept.upkeep honest (upkeep_cutPiece s id path piece overflow)
  have same : ∀ other position,
      ((s.cutPiece cfg id path piece overflow).placePiece id path st.sendNext piece).waitsOn other
        position = s.waitsOn other position := by
    intro other position
    unfold waitsOn
    change (((s.cutPiece cfg id path piece overflow).senders).get? other).any _ = _
    rw [cutPiece_senders]
  apply honest_sendInserted
  · apply (cut.placePiece id path st.sendNext piece).weaken
    intro other position exempted
    rwa [same]
  · intro position
    rw [same]
    unfold waitsOn
    rw [sender]
    rfl
  · intro u found
    rcases livePiece_placePiece found with ⟨-, -, rfl⟩ | before
    · rfl
    · obtain ⟨after, inCut, -, held⟩ := livePiece_eq_some_iff.mp before
      obtain ⟨first, storedFirst, unacked, -⟩ := getStream_cutPiece inCut
      rw [stored] at storedFirst
      cases storedFirst
      rw [unacked] at held
      exact absurd (tidy.pieces id st stored st.sendNext u held).2 (lt_irrefl _)

/-! ## Resuming a suspended sender -/

/-- When the waited path takes the frame at last, the piece is still there, or its own path has
taken one, or is dead. -/
def clearsRightly (cfg : SessionConfig) (s : Session) (id : Nat) (wait : BulkWait) : Bool :=
  !(s.sendDataFrame cfg id wait.offset wait.piece wait.pathId).2 ||
    (s.livePiece id wait.offset).all fun u =>
      decide (u.pathId = wait.pathId) || u.carried || !s.aliveAt u.pathId

theorem honest_markEnqueued (honest : HonestExcept exempt s) {id : Nat} {wait : BulkWait}
    (sent : s.sendDataFrame cfg id wait.offset wait.piece wait.pathId = (t, true))
    (waited : exempt id wait.offset) : HonestExcept exempt (t.markEnqueued id wait) := by
  have upkeep := upkeep_of_sendDataFrame sent
  have kept := honest.upkeep upkeep
  constructor
  · intro other position u found carried
    unfold markEnqueued at found
    rw [livePiece_modifyUnacked] at found
    split at found
    · rename_i here
      obtain ⟨rfl, rfl⟩ := here
      obtain ⟨v, before, rfl⟩ := Option.map_eq_some_iff.mp found
      rw [Bool.or_eq_true, decide_eq_true_iff] at carried
      rcases carried with already | onPath
      · exact kept.taken _ _ v before already
      · change t.TookFrame v.pathId _ _
        rw [onPath]
        exact tookFrame_of_sent sent
    · exact kept.taken other position u found carried
  · intro other position u found dropped alive notExempt
    unfold markEnqueued at found
    rw [livePiece_modifyUnacked] at found
    split at found
    · rename_i here
      rw [here.1, here.2] at notExempt
      exact absurd waited notExempt
    · exact kept.carried other position u found dropped alive notExempt

theorem honest_resumeWait (honest : Honest s) (tidy : Tidy s) {id : Nat}
    (clears : ∀ sender wait, s.senders.get? id = some sender → sender.waiting = some wait →
      s.clearsRightly cfg id wait = true)
    (resumed : s.resumeWait cfg id = some t) : Honest t := by
  obtain ⟨rest, wait, st, sender, stored, went⟩ := resumed_of_resumeWait resumed
  have waits : ∀ position, s.waitsOn id position = true ↔ position = wait.offset := by
    intro position
    unfold waitsOn
    rw [sender]
    simp only [Option.any_some, beq_iff_eq]
    exact eq_comm
  have senders := @sendDataFrame_senders cfg s id wait.offset wait.piece wait.pathId
  cases went with
  | ended reset =>
      apply honest_proceed honest rfl fun position => (waits position).mp
      intro u found
      obtain ⟨same, storedSame, live, -⟩ := livePiece_eq_some_iff.mp found
      rw [stored] at storedSame
      cases storedSame
      rw [tidy.reset id st stored reset] at live
      cases live
  | enqueued live sent =>
      have streams := @sendDataFrame_streams cfg s id wait.offset wait.piece wait.pathId
      have clear := clears _ wait sender rfl
      unfold clearsRightly at clear
      rw [sent] at senders streams clear
      apply honest_proceed (honest_markEnqueued honest sent ((waits _).mpr rfl)) senders
        (fun position => (waits position).mp)
      intro u found _ alive
      unfold markEnqueued at found
      rw [livePiece_modifyUnacked, if_pos ⟨rfl, rfl⟩, livePiece_of_streams streams] at found
      obtain ⟨v, before, rfl⟩ := Option.map_eq_some_iff.mp found
      rw [before] at clear
      simp only [Bool.not_true, Bool.false_or, Option.all_some, Bool.or_eq_true,
        decide_eq_true_iff, Bool.not_eq_true'] at clear
      rw [Bool.or_eq_true, decide_eq_true_iff]
      rcases clear with (onPath | carried) | dead
      · exact .inr onPath
      · exact .inl carried
      · have living := (upkeep_of_sendDataFrame sent).alive _ alive
        rw [dead] at living
        cases living
  | @migrated after live givenUp failed =>
      rw [failed] at senders
      have migrated := (upkeep_of_sendDataFrame failed).trans
        (@upkeep_migrateSendBlocked cfg after id wait.pathId wait.offset wait.piece)
      apply honest_proceed (HonestExcept.upkeep honest migrated)
        ((steered_migrateSendBlocked after id wait.pathId wait.offset wait.piece).senders.trans
          senders) fun position => (waits position).mp
      intro u found dropped _
      rcases settled_migrateSendBlocked after found with wasDropped | carried
      · rw [dropped] at wasDropped
        cases wasDropped
      · exact carried
  | waits live failed =>
      rw [failed] at senders
      exact honest.upkeep (upkeep_of_sendDataFrame failed) senders

/-! ## The re-sends of a failed path -/

/-- What the path's queues look like after a send. -/
def afterSend (cfg : SessionConfig) (p : Path) (frame : Frame) : Path :=
  if p.hasRoom cfg (goesUrgent cfg p frame) then p.enqueue (goesUrgent cfg p frame) frame else p

/-- DATA of a live stream that is assigned to the path. -/
def dataOn (s : Session) (path id : Nat) : List StreamData :=
  match s.getStream id with
  | none => []
  | some st => (st.unacked.entries.filter fun piece => piece.2.pathId = path).map fun piece =>
      { streamId := id, offset := piece.1, data := piece.2.data }

/-- The queues of the path have room for these frames one after the other, the exempt ones
apart. -/
def takesAll (cfg : SessionConfig) (exempt : Nat → Nat → Bool) : Path → List StreamData → Bool
  | _, [] => true
  | p, data :: rest =>
      (exempt data.streamId data.offset || p.hasRoom cfg (goesUrgent cfg p (.streamData data))) &&
        takesAll cfg exempt (afterSend cfg p (.streamData data)) rest

/-- The path is alive and, for what a send looks at, like `p`. -/
structure QueuesLike (s : Session) (id : Nat) (p : Path) : Prop where
  like : ∃ q, s.getPath id = some q ∧ q.isAlive = true ∧ q.urgent = p.urgent ∧
    q.writer = p.writer ∧ q.rttKnown = p.rttKnown ∧ q.writeStalled = p.writeStalled

theorem hasRoom_of_like {p q : Path} (urgent : q.urgent = p.urgent) (writer : q.writer = p.writer)
    (isUrgent : Bool) : q.hasRoom cfg isUrgent = p.hasRoom cfg isUrgent := by
  unfold Path.hasRoom
  rw [urgent, writer]

theorem goesUrgent_of_like {p q : Path} (known : q.rttKnown = p.rttKnown)
    (stalled : q.writeStalled = p.writeStalled) (frame : Frame) :
    goesUrgent cfg q frame = goesUrgent cfg p frame := by
  unfold goesUrgent
  rw [known, stalled]

theorem QueuesLike.send {id : Nat} {p : Path} (queues : QueuesLike s id p) (frame : Frame) :
    (s.sendOnPath cfg id frame).2 = p.hasRoom cfg (goesUrgent cfg p frame) ∧
      QueuesLike (s.sendOnPath cfg id frame).1 id (afterSend cfg p frame) := by
  obtain ⟨q, found, alive, urgent, writer, known, stalled⟩ := queues.like
  have sameRoom := @hasRoom_of_like cfg p q urgent writer (goesUrgent cfg p frame)
  have sameQueue := @goesUrgent_of_like cfg p q known stalled frame
  unfold sendOnPath afterSend
  simp only [found, alive, sameQueue, sameRoom, Bool.not_true, Bool.false_eq_true, if_false]
  cases room : p.hasRoom cfg (goesUrgent cfg p frame) with
  | true =>
      simp only [if_true]
      refine ⟨trivial, ⟨q.enqueue (goesUrgent cfg p frame) frame, ?_, ?_, ?_⟩⟩
      · change (s.modifyPath id _).getPath id = _
        rw [getPath_modifyPath, if_pos rfl, found]
        rfl
      · rw [isAlive_enqueue]
        exact alive
      · unfold Path.enqueue
        split
        · exact ⟨congrArg (· ++ [frame]) urgent, writer, known, stalled⟩
        · exact ⟨urgent, congrArg (· ++ [frame]) writer, known, stalled⟩
  | false =>
      simp only [Bool.false_eq_true, if_false]
      split
      · refine ⟨rfl, ⟨{ q with congested := true }, ?_, alive, urgent, writer, known, stalled⟩⟩
        change (s.modifyPath id _).getPath id = _
        rw [getPath_modifyPath, if_pos rfl, found]
        rfl
      · exact ⟨rfl, queues⟩

theorem QueuesLike.rehomeUnacked {dest : Nat} {p : Path} (queues : QueuesLike s dest p)
    (id offset : Nat) (sent : Bool) : QueuesLike (s.rehomeUnacked id offset dest sent) dest p := by
  obtain ⟨q, found, like⟩ := queues.like
  unfold Session.rehomeUnacked
  split
  · exact queues
  · rename_i u _
    have counted : ∀ {mid : Session} {source : Nat} {change : Path → Nat} {r : Path},
        mid.getPath dest = some r → r.isAlive = true ∧ r.urgent = p.urgent ∧ r.writer = p.writer ∧
          r.rttKnown = p.rttKnown ∧ r.writeStalled = p.writeStalled →
        ∃ r, (mid.modifyPath source fun p => { p with inflight := change p }).getPath dest =
          some r ∧ r.isAlive = true ∧ r.urgent = p.urgent ∧ r.writer = p.writer ∧
          r.rttKnown = p.rttKnown ∧ r.writeStalled = p.writeStalled := by
      intro mid source change r before same
      rw [getPath_modifyPath, before]
      split
      · exact ⟨_, rfl, same⟩
      · exact ⟨r, rfl, same⟩
    constructor
    change ∃ r, (s.xferInflight u.pathId dest u.data.length).getPath dest = some r ∧ _
    unfold xferInflight
    split
    · exact ⟨q, found, like⟩
    · obtain ⟨r, after, same⟩ := counted found like
      exact counted after same

theorem livePiece_rehomeUnacked (s : Session) (id offset dest : Nat) (sent : Bool)
    (other position : Nat) : (s.rehomeUnacked id offset dest sent).livePiece other position =
      if other = id ∧ position = offset then (s.livePiece other position).map fun u =>
        { u with
          pathId := dest
          lastSent := s.now
          retryNotBefore := s.now
          dropped := false
          tried := pushTried u.tried dest
          carried := sent }
      else s.livePiece other position := by
  unfold rehomeUnacked
  cases found : s.pieceAt id offset with
  | none =>
      dsimp only
      split
      · rename_i here
        obtain ⟨rfl, rfl⟩ := here
        cases live : s.livePiece other position with
        | none => rfl
        | some u =>
            rw [pieceAt_of_livePiece live] at found
            cases found
      · rfl
  | some u =>
      dsimp only
      rw [livePiece_modifyUnacked, livePiece_of_streams (xferInflight_streams s _ _ _)]

theorem aliveAt_rehomeUnacked (s : Session) (id offset dest : Nat) (sent : Bool) (path : Nat) :
    (s.rehomeUnacked id offset dest sent).aliveAt path = s.aliveAt path := by
  unfold rehomeUnacked
  split
  · rfl
  · rename_i u _
    change (s.xferInflight u.pathId dest u.data.length).aliveAt path = _
    rw [aliveAt_eq_settled, settled_xferInflight, ← aliveAt_eq_settled]

/-- One re-send: the piece is on the queue of the alternative, or it is exempt. -/
theorem HonestExcept.retransmitPiece (honest : HonestExcept exempt s) {id dest : Nat}
    {piece : Nat × Unacked} {p : Path} (queues : QueuesLike s dest p)
    (fits : exempt id piece.1 ∨ p.hasRoom cfg (goesUrgent cfg p (.streamData
      { streamId := id, offset := piece.1, data := piece.2.data })) = true) :
    HonestExcept exempt (retransmitPiece cfg id dest s piece) := by
  have sent := (@QueuesLike.send cfg _ _ _ (queues.rehomeUnacked id piece.1 false)
    (.streamData { streamId := id, offset := piece.1, data := piece.2.data })).1
  unfold Session.retransmitPiece
  dsimp only
  obtain ⟨after, taken, result⟩ : ∃ after taken, (s.rehomeUnacked id piece.1 dest
      false).sendDataFrame cfg id piece.1 piece.2.data dest = (after, taken) := ⟨_, _, rfl⟩
  rw [result]
  change ((s.rehomeUnacked id piece.1 dest false).sendDataFrame cfg id piece.1 piece.2.data
    dest).2 = _ at sent
  have streams := @sendDataFrame_streams cfg (s.rehomeUnacked id piece.1 dest false) id piece.1
    piece.2.data dest
  rw [result] at sent streams
  dsimp only at sent streams
  change HonestExcept exempt (after.noteCarried id piece.1 taken)
  have upkeep := upkeep_of_sendDataFrame result
  have accepted : s.accepted <+: after.accepted := by
    have same : (s.rehomeUnacked id piece.1 dest false).accepted = s.accepted := by
      unfold rehomeUnacked
      split
      · rfl
      · exact (xferInflight_now s _ dest _).2
    rw [← same]
    exact upkeep.accepted
  have pieces : ∀ {other position : Nat} {u : Unacked},
      (after.noteCarried id piece.1 taken).livePiece other position = some u →
      (other = id ∧ position = piece.1 ∧ u.pathId = dest ∧ u.carried = taken) ∨
        s.livePiece other position = some u := by
    intro other position u found
    unfold noteCarried at found
    rw [livePiece_modifyUnacked, livePiece_of_streams streams, livePiece_rehomeUnacked] at found
    split at found
    · rename_i here
      rw [Option.map_map] at found
      obtain ⟨v, -, rfl⟩ := Option.map_eq_some_iff.mp found
      exact .inl ⟨here.1, here.2, rfl, rfl⟩
    · exact .inr found
  constructor
  · intro other position u found carried
    rcases pieces found with ⟨rfl, rfl, onPath, same⟩ | before
    · rw [same] at carried
      rw [carried] at result
      rw [onPath]
      change after.TookFrame dest other piece.1
      exact tookFrame_of_sent result
    · exact (honest.taken other position u before carried).extend accepted
  · intro other position u found dropped alive notExempt
    rcases pieces found with ⟨rfl, rfl, -, same⟩ | before
    · rw [same, sent]
      exact fits.resolve_left notExempt
    · have living := upkeep.alive _ alive
      rw [aliveAt_rehomeUnacked] at living
      exact honest.carried other position u before dropped living notExempt

theorem QueuesLike.retransmitPiece {dest : Nat} {p : Path} (queues : QueuesLike s dest p) (id : Nat)
    (piece : Nat × Unacked) : QueuesLike (retransmitPiece cfg id dest s piece) dest
      (afterSend cfg p (.streamData { streamId := id, offset := piece.1, data := piece.2.data })) :=
  ⟨((queues.rehomeUnacked id piece.1 false).send _).2.like⟩

theorem getStream_retransmitPiece (s : Session) (id dest : Nat) (piece : Nat × Unacked)
    {other : Nat} (different : other ≠ id) :
    (retransmitPiece cfg id dest s piece).getStream other = s.getStream other := by
  have modified : ∀ (mid : Session) (change : Unacked → Unacked),
      (mid.modifyUnacked id piece.1 change).getStream other = mid.getStream other := by
    intro mid change
    unfold getStream modifyUnacked modifyStream
    rw [OrdMap.get?_modify_of_ne _ _ different]
  have same : ∀ {mid : Session}, mid.streams = s.streams →
      mid.getStream other = s.getStream other := by
    intro mid streams
    unfold getStream
    rw [streams]
  have rehomed : (s.rehomeUnacked id piece.1 dest false).getStream other = s.getStream other := by
    unfold rehomeUnacked
    split
    · rfl
    · rw [modified]
      exact same (xferInflight_streams s _ _ _)
  unfold Session.retransmitPiece noteCarried
  dsimp only
  rw [modified, ← rehomed]
  unfold getStream
  rw [sendDataFrame_streams]

/-- The re-sends of one stream, and what they leave of the room. -/
theorem honest_retransmitAll {exempt : Nat → Nat → Bool} (id : Nat) {dest : Nat}
    (pieces : List (Nat × Unacked)) (more : List StreamData) {s : Session} {p : Path}
    (honest : HonestExcept (fun id offset => exempt id offset = true) s)
    (queues : QueuesLike s dest p)
    (takes : takesAll cfg exempt p (pieces.map (fun piece =>
      { streamId := id, offset := piece.1, data := piece.2.data }) ++ more) = true) :
    HonestExcept (fun id offset => exempt id offset = true)
      (pieces.foldl (retransmitPiece cfg id dest) s) ∧
    (∀ other, other ≠ id → (pieces.foldl (retransmitPiece cfg id dest) s).getStream other =
      s.getStream other) ∧
    ∃ q, QueuesLike (pieces.foldl (retransmitPiece cfg id dest) s) dest q ∧
      takesAll cfg exempt q more = true := by
  induction pieces generalizing s p with
  | nil => exact ⟨honest, fun _ _ => rfl, p, queues, takes⟩
  | cons piece rest inductionHypothesis =>
      simp only [List.map_cons, List.cons_append, takesAll, Bool.and_eq_true, Bool.or_eq_true]
        at takes
      obtain ⟨kept, others, later⟩ := inductionHypothesis
        (honest.retransmitPiece queues takes.1) (queues.retransmitPiece id piece) takes.2
      refine ⟨kept, ?_, later⟩
      intro other different
      rw [List.foldl_cons, others other different]
      exact getStream_retransmitPiece s id dest piece different

theorem honest_rehomeAll {exempt : Nat → Nat → Bool} {source dest : Nat} (order : List Nat)
    (nodup : order.Nodup) {s : Session} {p : Path}
    (honest : HonestExcept (fun id offset => exempt id offset = true) s)
    (queues : QueuesLike s dest p)
    (takes : takesAll cfg exempt p (order.flatMap (s.dataOn source)) = true) :
    HonestExcept (fun id offset => exempt id offset = true)
      (order.foldl (fun s id => s.retransmitFromOn cfg id source dest) s) := by
  induction order generalizing s p with
  | nil => exact honest
  | cons id rest inductionHypothesis =>
      obtain ⟨notLater, nodupRest⟩ := List.nodup_cons.mp nodup
      rw [List.flatMap_cons] at takes
      have visited : HonestExcept (fun id offset => exempt id offset = true)
          (s.retransmitFromOn cfg id source dest) ∧
          (∀ other, other ≠ id →
            (s.retransmitFromOn cfg id source dest).getStream other = s.getStream other) ∧
          ∃ q, QueuesLike (s.retransmitFromOn cfg id source dest) dest q ∧
            takesAll cfg exempt q (rest.flatMap (s.dataOn source)) = true := by
        unfold retransmitFromOn
        cases stream : s.getStream id with
        | none =>
            have nothing : s.dataOn source id = [] := by
              unfold dataOn
              rw [stream]
            rw [nothing] at takes
            exact ⟨honest, fun _ _ => rfl, p, queues, takes⟩
        | some st =>
            have pieces : s.dataOn source id =
                (st.unacked.entries.filter fun piece => piece.2.pathId = source).map fun piece =>
                  { streamId := id, offset := piece.1, data := piece.2.data } := by
              unfold dataOn
              rw [stream]
            rw [pieces] at takes
            exact honest_retransmitAll id _ _ honest queues takes
      obtain ⟨kept, others, q, nextQueues, remaining⟩ := visited
      rw [List.foldl_cons]
      apply inductionHypothesis nodupRest kept nextQueues
      rw [← remaining]
      congr 1
      apply List.flatMap_congr
      intro other later
      unfold dataOn
      rw [others other fun same => notLater (same ▸ later)]

/-- With room for all of them, the re-sends of a failing path are all taken (those of pieces that
senders wait on apart). -/
def rehomesAll (cfg : SessionConfig) (s : Session) (path : Nat) (order : List Nat) : Bool :=
  match (s.markDown path).pickRetry cfg path with
  | none => true
  | some alt => (s.getPath alt).all fun p =>
      takesAll cfg s.waitsOn p (order.flatMap (s.dataOn path))

theorem nodup_liveIds (s : Session) : s.liveIds.Nodup := by
  unfold liveIds
  apply List.pairwise_map.mpr
  exact (s.streams.sorted.filter _).imp fun below => ne_of_lt below

theorem honest_pathFailed (honest : Honest s) {path : Nat} {order : List Nat}
    (visits : order.Perm s.liveIds) (rehomes : s.rehomesAll cfg path order = true) :
    Honest (s.pathFailed cfg path order) := by
  have senders := (@steered_pathFailed cfg s path order).senders
  have exempted : HonestExcept (fun id offset => s.waitsOn id offset = true)
      (s.pathFailed cfg path order) := by
    unfold pathFailed
    split
    · exact honest
    · split
      · exact honest
      · refine HonestExcept.upkeep ?_ (upkeep_erasePath _ path)
        have marked : HonestExcept (fun id offset => s.waitsOn id offset = true)
            (s.markDown path) := HonestExcept.upkeep honest (upkeep_markDown s path)
        unfold rehomeUnackedFrom
        unfold rehomesAll at rehomes
        split
        · exact marked
        · rename_i alt picked
          obtain ⟨q, found, alive⟩ := getPath_of_pickRetryPath picked
          have other := pickRetryPath_ne picked
          have same : s.getPath alt = some q := by
            rw [← found]
            unfold markDown
            rw [getPath_modifyPath, if_neg other]
          rw [picked] at rehomes
          simp only [same, Option.all_some] at rehomes
          refine honest_rehomeAll order ?_ marked ?_ rehomes
          · exact visits.nodup_iff.mpr (nodup_liveIds s)
          · exact ⟨q, found, alive, rfl, rfl, rfl, rfl⟩
  apply exempted.weaken
  intro id offset waited
  unfold waitsOn at waited ⊢
  rwa [senders]

/-! ## Every step -/

/-- Re-sends of a failed path find room, and a suspended sender clears the mark of its piece only
when the piece is on its way. -/
def marksHonestly (cfg : SessionConfig) (s : Session) : SessionAction → Bool
  | .pathFailed path order => s.rehomesAll cfg path order
  | .resumeWait id =>
      match s.senders.get? id with
      | some { rest := _, waiting := some wait } => s.clearsRightly cfg id wait
      | _ => true
  | _ => true

theorem honest_pathAdd (honest : Honest s) (tidy : Tidy s) (link : String) :
    Honest { s with
      nextPathId := s.nextPathId + 1
      paths := s.paths.insert s.nextPathId (newPath link s.now) } := by
  refine ⟨honest.taken, ?_⟩
  intro id offset u found dropped alive notWaited
  apply honest.carried id offset u found dropped ?_ notWaited
  obtain ⟨st, stored, -, held⟩ := livePiece_eq_some_iff.mp found
  have known := (tidy.pieces id st stored offset u held).1
  unfold aliveAt at alive ⊢
  change ((s.paths.insert s.nextPathId _).get? u.pathId).any _ = true at alive
  rwa [OrdMap.get?_insert_of_ne _ _ known.ne] at alive

theorem honest_addStream (honest : Honest s) {id : Nat} {st : StreamState}
    (empty : st.unacked = .empty) : Honest { s with streams := s.streams.insert id st } := by
  have pieces : ∀ {other offset : Nat} {u : Unacked},
      ({ s with streams := s.streams.insert id st } : Session).livePiece other offset = some u →
      s.livePiece other offset = some u := by
    intro other offset u found
    obtain ⟨after, stored, live, held⟩ := livePiece_eq_some_iff.mp found
    change (s.streams.insert id st).get? other = some after at stored
    rcases OrdMap.get?_insert_cases stored with ⟨-, rfl⟩ | before
    · rw [empty] at held
      cases held
    · exact livePiece_eq_some_iff.mpr ⟨after, before, live, held⟩
  exact ⟨fun other offset u found => honest.taken other offset u (pieces found),
    fun other offset u found => honest.carried other offset u (pieces found)⟩

/-- A path that turns from one living status to another was alive before. -/
theorem isAlive_of_turn {p turned : Path} {old new : PathStatus} (living : old ≠ .down)
    (turns : turned.status = if p.status = old then new else p.status)
    (alive : turned.isAlive = true) : p.isAlive = true := by
  by_cases same : p.status = old
  · cases old with
    | up => simp [Path.isAlive, same]
    | degraded => simp [Path.isAlive, same]
    | down => exact absurd rfl living
  · rw [if_neg same] at turns
    rwa [Path.isAlive, turns] at alive

theorem honest_step (honest : Honest s) (tidy : Tidy s) {action : SessionAction}
    (marks : s.marksHonestly cfg action = true) (taken : s.step cfg action = some t) :
    Honest t := by
  have marked : ∀ {path : Nat} {change : Path → Path},
      (∀ p, (change p).isAlive = true → p.isAlive = true) → Honest (s.modifyPath path change) :=
    fun alive => honest.upkeep (upkeep_modifyPath s _ alive) rfl
  have idle : ∀ {senders : OrdMap Nat Sender}, (∀ id offset, s.waitsOn id offset = true →
      ({ s with senders := senders } : Session).waitsOn id offset = true) →
      Honest { s with senders := senders } :=
    fun implies => (HonestExcept.setSenders honest _).weaken implies
  cases action with
  | tick us =>
      obtain rfl := Option.some.inj taken
      exact ⟨honest.taken, honest.carried⟩
  | pathAdd link =>
      obtain rfl := Option.some.inj taken
      exact honest_pathAdd honest tidy link
  | pathFailed path order =>
      simp only [Session.step] at taken
      split at taken
      · rename_i visits
        obtain rfl := Option.some.inj taken
        exact honest_pathFailed honest visits marks
      · cases taken
  | recordRtt path sample =>
      obtain rfl := Option.some.inj taken
      exact marked fun _ alive => alive
  | touchRx path =>
      obtain rfl := Option.some.inj taken
      exact marked fun p alive => isAlive_of_turn (by decide) rfl alive
  | markDegraded path =>
      obtain rfl := Option.some.inj taken
      exact marked fun p alive => isAlive_of_turn (by decide) rfl alive
  | setWriteStalled path stalled =>
      obtain rfl := Option.some.inj taken
      exact marked fun _ alive => alive
  | writeUrgent path =>
      exact honest.upkeep (upkeep_writeUrgent taken) (steered_writeUrgent taken).senders
  | writeBulk path =>
      exact honest.upkeep (upkeep_writeBulk taken) (steered_writeBulk taken).senders
  | control path frame =>
      simp only [Session.step] at taken
      split at taken
      · cases taken
      · obtain rfl := Option.some.inj taken
        exact honest.upkeep (upkeep_sendOnPath s path frame)
          (steered_sendOnPath s path frame).senders
  | addStream id =>
      simp only [Session.step] at taken
      split at taken
      · cases taken
      · obtain rfl := Option.some.inj taken
        exact honest_addStream honest rfl
  | beginSend id data =>
      simp only [Session.step, Session.beginSend] at taken
      split at taken
      · rename_i absent
        split at taken
        · cases taken
        · obtain rfl := Option.some.inj taken
          apply idle
          intro other offset waited
          unfold waitsOn at waited ⊢
          dsimp only
          by_cases here : other = id
          · rw [here, absent] at waited
            cases waited
          · rwa [OrdMap.get?_insert_of_ne _ _ here]
      · cases taken
  | sendPiece id path overflow => exact honest_sendPiece honest tidy taken
  | resumeWait id =>
      apply honest_resumeWait honest tidy ?_ taken
      intro sender wait found waiting
      obtain ⟨rest, waits⟩ := sender
      obtain rfl : waits = some wait := waiting
      simpa only [marksHonestly, found] using marks
  | endSend id =>
      simp only [Session.step, Session.endSend] at taken
      split at taken
      · rename_i found
        obtain rfl := Option.some.inj taken
        apply idle
        intro other offset waited
        unfold waitsOn at waited ⊢
        dsimp only
        by_cases here : other = id
        · rw [here, found] at waited
          cases waited
        · rwa [OrdMap.get?_erase_of_ne _ here]
      · cases taken
  | restick id path =>
      obtain rfl := Option.some.inj taken
      exact honest.upkeep (upkeep_setSticky s id path) (steered_setSticky s id path).senders
  | noteStall id stalled =>
      obtain rfl := Option.some.inj taken
      exact honest.upkeep (upkeep_modifyStream s id (fun _ => rfl) fun _ => rfl) rfl
  | onAck ack =>
      obtain rfl := Option.some.inj taken
      exact honest.upkeep (upkeep_onAck s ack) (steered_onAck s ack).senders
  | retry id =>
      obtain rfl := Option.some.inj taken
      exact honest.upkeep (upkeep_retryExpiredUnacked s id)
        (steered_retryExpiredUnacked s id).senders
  | streamEvent id event =>
      obtain rfl := Option.some.inj taken
      exact honest.upkeep (upkeep_streamEvent s id event) (steered_streamEvent s id event).senders

end

/-- Path 1 fails with two pieces on it; the queue of path 2 has one slot. -/
def failOntoFullQueue : List SessionAction :=
  [.pathAdd "a", .pathAdd "b", .recordRtt 1 ⟨1, 1, 1, 1⟩, .addStream 1, .beginSend 1 [7],
    .sendPiece 1 1 false, .writeBulk 1, .beginSend 1 [8], .sendPiece 1 1 false,
    .pathFailed 1 [1]]

end NyaLink.Session
