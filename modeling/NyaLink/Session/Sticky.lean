import NyaLink.Session.Moves
import NyaLink.Session.Steered
import NyaLink.Session.Controls

/-!
# Sticky streams

A stream names the path it is stuck to, and the path counts the streams stuck to it.
The invariant is that the two agree: `StickyCounted` speaks of the whole path table,
and of the streams that may not name a path any more.
-/

namespace NyaLink

/-- What the stickiness of a stream depends on. -/
structure Stick where
  sticky : Nat
  gone : Bool
  sendFinSent : Bool
  recvFin : Bool
  deriving DecidableEq

/-- A stream of the table counts for the path it is stuck to. -/
def Stick.weight (stick : Stick) (path : Nat) : Nat :=
  if stick.gone = false ∧ stick.sticky = path then 1 else 0

/-- The stream has left the table or has seen a FIN. -/
def Stick.ended (stick : Stick) : Bool := stick.gone || stick.sendFinSent || stick.recvFin

def StreamState.stick (st : StreamState) : Stick :=
  ⟨st.sticky, st.gone, st.sendFinSent, st.recvFin⟩

namespace StreamState

/-! ## What an event does to the stick -/

/-- The stream keeps its stick, or is stuck to no path. -/
def Looser (before after : StreamState) : Prop :=
  after.sticky = 0 ∨ after.stick = before.stick

theorem Looser.refl (st : StreamState) : Looser st st := .inr rfl

theorem Looser.trans {first second third : StreamState} (earlier : Looser first second)
    (later : Looser second third) : Looser first third := by
  rcases later with loose | kept
  · exact .inl loose
  · rcases earlier with loose | same
    · exact .inl ((congrArg Stick.sticky kept).trans loose)
    · exact .inr (kept.trans same)

theorem Looser.loose {before after : StreamState} (looser : Looser before after)
    (loose : before.sticky = 0) : after.sticky = 0 := by
  rcases looser with freed | kept
  · exact freed
  · exact (congrArg Stick.sticky kept).trans loose

theorem looser_removeHeldStream (st : StreamState) : Looser st st.removeHeldStream := by
  unfold removeHeldStream
  split
  · exact .refl st
  · exact .inl rfl

theorem stick_countClose (st : StreamState) : st.countClose.stick = st.stick := by
  unfold countClose observeStreamEnd
  split
  · rfl
  · split <;> rfl

theorem looser_countClose (st : StreamState) : Looser st st.countClose :=
  .inr (stick_countClose st)

theorem looser_maybeCountGraceful (st : StreamState) : Looser st st.maybeCountGraceful := by
  unfold maybeCountGraceful
  split
  · exact .refl st
  · exact (looser_countClose st).trans (looser_removeHeldStream _)

theorem sticky_applyRecvFin (st : StreamState) : st.applyRecvFin.sticky = 0 :=
  (looser_maybeCountGraceful st.setRecvFin.unstick).loose rfl

theorem looser_tryFinishRecvClose (st : StreamState) : Looser st st.tryFinishRecvClose := by
  unfold tryFinishRecvClose
  split
  · exact .refl st
  · split
    · exact .refl st
    · exact .inl (sticky_applyRecvFin st)

theorem looser_drainRecv (st : StreamState) (inputs : CapInputs) :
    Looser st (st.drainRecv inputs).1 := by
  obtain ⟨tuned, origin, result⟩ := drainRecv_eq st inputs
  have drained : (drainLoop st.recvBuf.size st).stick = st.stick :=
    @drainLoop_induction (fun reached => reached.stick = st.stick) (fun _ _ _ same _ _ => same)
      st.recvBuf.size st rfl
  have kept : Looser st tuned := by
    rcases origin with rfl | rfl
    · exact .inr drained
    · exact .inr drained
  rw [result]
  exact kept.trans (looser_tryFinishRecvClose tuned)

theorem looser_setReset (st : StreamState) (reason : ResetReason) (openPending : Bool) :
    Looser st (st.setReset reason openPending) := by
  unfold setReset
  split
  · exact .refl st
  · split
    · exact .inr rfl
    · exact .inr rfl

theorem looser_finishStream (st : StreamState) (reason : ResetReason) (openPending : Bool) :
    Looser st (st.finishStream reason openPending) :=
  ((looser_setReset st reason openPending).trans (looser_countClose _)).trans
    (looser_removeHeldStream _)

theorem Reaped.looser {st after : StreamState} {openPending : Bool}
    (reaped : Reaped st openPending after) (live : st.gone = false) : Looser st after := by
  cases reaped with
  | kept => exact .refl st
  | removed => exact looser_removeHeldStream st
  | counted => exact looser_maybeCountGraceful st
  | quiet =>
      apply Or.inl
      have held : st.countClose.gone = false :=
        (congrArg Stick.gone (stick_countClose st)).trans live
      have running : st.countClose.setRecvFin.gone = false := by
        unfold setRecvFin
        split
        · exact held
        · exact held
      rw [removeHeldStream, if_neg (by rw [running]; decide)]
  | reset => exact looser_finishStream st _ _

end StreamState

open StreamState in
/-- No event sticks a stream to a path. -/
theorem StreamEvent.looser (event : StreamEvent) {st : StreamState} (live : st.gone = false) :
    Looser st (event.apply st) := by
  cases event with
  | data path body inputs =>
      simp only [apply, deliverData]
      split
      · exact .refl st
      · split
        · exact .refl st
        · split
          · exact .inr rfl
          · split
            · exact .inr rfl
            · exact Looser.trans (.inr rfl)
                (looser_drainRecv ((st.noteArrival path).bufferChunk body.offset body.data) inputs)
  | appRead n inputs =>
      exact Looser.trans (.inr rfl)
        (looser_drainRecv { st with bufferedIn := st.bufferedIn - n } inputs)
  | closeSend =>
      simp only [apply, StreamState.closeSend]
      split
      · exact .refl st
      · have closed := looser_maybeCountGraceful (unstick { st with sendFinSent := true })
        exact .inl (closed.loose rfl)
  | peerClose close =>
      simp only [apply, onPeerClose]
      split
      · exact looser_tryFinishRecvClose st
      · exact Looser.trans (.inr rfl) (looser_tryFinishRecvClose
          { st with recvCloseOff := some (close.finalOffset.getD st.recvNext) })
  | expireRecvClose => exact looser_tryFinishRecvClose st
  | reset reason openPending => exact looser_finishStream st reason openPending
  | reapHalfClosed isClient openPending =>
      exact (st.reaped_reapHalfClosed isClient openPending).looser live
  | reapStream openPending => exact (st.reaped_reapStream openPending).looser live

namespace Session

/-- How many streams of the table are stuck to a path. -/
def stuckStreams (s : Session) (path : Nat) : Nat :=
  s.streams.total fun _ st => st.stick.weight path

/-- The paths count the streams stuck to them, and what a stream is stuck to is, or was, a path. -/
structure StickyCounted (s : Session) : Prop where
  counted : ∀ path p, s.getPath path = some p → p.stickyStreams = s.stuckStreams path
  positive : 0 < s.nextPathId
  allocated : ∀ path p, s.getPath path = some p → 0 < path ∧ path < s.nextPathId
  known : ∀ id st, s.streams.get? id = some st → st.sticky < s.nextPathId
  loose : ∀ id st, s.streams.get? id = some st → st.stick.ended = true → st.sticky = 0

/-- No path counts otherwise, and no stream sticks otherwise. -/
structure SticksKept (s t : Session) : Prop where
  nextPathId : t.nextPathId = s.nextPathId
  paths : ∀ path p, t.getPath path = some p →
    ∃ q, s.getPath path = some q ∧ p.stickyStreams = q.stickyStreams
  streams : ∀ id, (t.streams.get? id).map StreamState.stick =
    (s.streams.get? id).map StreamState.stick

section

variable {cfg : SessionConfig} {s t : Session}

theorem SticksKept.refl (s : Session) : SticksKept s s :=
  ⟨rfl, fun _ p found => ⟨p, found, rfl⟩, fun _ => rfl⟩

theorem SticksKept.trans {u : Session} (earlier : SticksKept s t) (later : SticksKept t u) :
    SticksKept s u := by
  refine ⟨later.nextPathId.trans earlier.nextPathId, ?_,
    fun id => (later.streams id).trans (earlier.streams id)⟩
  intro path p found
  obtain ⟨q, middle, same⟩ := later.paths path p found
  obtain ⟨r, before, sameBefore⟩ := earlier.paths path q middle
  exact ⟨r, before, same.trans sameBefore⟩

theorem sticksKept_modifyPath (s : Session) (id : Nat) {change : Path → Path}
    (kept : ∀ p, (change p).stickyStreams = p.stickyStreams) :
    SticksKept s (s.modifyPath id change) := by
  refine { SticksKept.refl s with paths := ?_ }
  intro path p found
  rcases OrdMap.get?_modify_cases found with ⟨-, q, before, rfl⟩ | ⟨-, before⟩
  · exact ⟨q, before, kept q⟩
  · exact ⟨p, before, rfl⟩

theorem sticksKept_modifyStream (s : Session) (id : Nat) {change : StreamState → StreamState}
    (kept : ∀ st, (change st).stick = st.stick) : SticksKept s (s.modifyStream id change) := by
  refine { SticksKept.refl s with streams := ?_ }
  intro other
  rw [modifyStream, OrdMap.get?_modify]
  split
  · rw [Option.map_map]
    exact congrArg (fun f => (s.streams.get? other).map f) (funext kept)
  · rfl

theorem sticksKept_of_moved (moved : Moved s t) : SticksKept s t := by
  refine ⟨moved.nextPathId, ?_, ?_⟩
  · intro path p found
    have same := moved.getPath path
    rw [found, Option.map_some] at same
    obtain ⟨q, before, unloaded⟩ := Option.map_eq_some_iff.mp same.symm
    exact ⟨q, before, (congrArg Path.stickyStreams unloaded).symm⟩
  · intro id
    have same := congrArg (Option.map StreamState.stick) (moved.streams id)
    rwa [Option.map_map, Option.map_map] at same

theorem sticksKept_erasePath (s : Session) (path : Nat) :
    SticksKept s { s with paths := s.paths.erase path } := by
  refine { SticksKept.refl s with paths := ?_ }
  intro other p found
  exact ⟨p, (OrdMap.get?_erase_eq_some_iff.mp found).2, rfl⟩

theorem sticksKept_pathFailed (s : Session) (path : Nat) (order : List Nat) :
    SticksKept s (s.pathFailed cfg path order) := by
  unfold pathFailed
  split
  · exact .refl s
  · split
    · exact .refl s
    · have marked : SticksKept s (s.markDown path) := sticksKept_modifyPath s path fun _ => rfl
      exact (marked.trans (sticksKept_of_moved (moved_rehomeUnackedFrom _ path order))).trans
        (sticksKept_erasePath _ path)

theorem sticksKept_onAck (s : Session) (ack : StreamAck) : SticksKept s (s.onAck ack) := by
  unfold onAck
  split
  · exact .refl s
  · refine (sticksKept_of_moved (moved_releasePieces s _)).trans
      (sticksKept_modifyStream _ ack.streamId fun st => ?_)
    have kept := st.ackKept_onAck ack s.now
    simp only [StreamState.stick, kept.gone, kept.sendFinSent, kept.recvFin, Stick.mk.injEq,
      and_true]
    simp only [StreamState.onAck, StreamState.ackSelective, StreamState.ackCumulative]
    split_ifs <;> rfl

/-! ## The invariant -/

theorem stuckStreams_of_kept (kept : SticksKept s t) (path : Nat) :
    t.stuckStreams path = s.stuckStreams path :=
  OrdMap.total_of_view kept.streams fun _ stick => stick.weight path

theorem StickyCounted.kept (counted : StickyCounted s) (kept : SticksKept s t) :
    StickyCounted t := by
  have before : ∀ {id st}, t.streams.get? id = some st →
      ∃ old, s.streams.get? id = some old ∧ old.stick = st.stick := by
    intro id st stored
    have same := kept.streams id
    rw [stored, Option.map_some] at same
    exact Option.map_eq_some_iff.mp same.symm
  refine ⟨?_, ?_, ?_, ?_, ?_⟩
  · intro path p found
    obtain ⟨q, old, same⟩ := kept.paths path p found
    rw [same, counted.counted path q old, stuckStreams_of_kept kept]
  · rw [kept.nextPathId]
    exact counted.positive
  · intro path p found
    obtain ⟨q, old, -⟩ := kept.paths path p found
    rw [kept.nextPathId]
    exact counted.allocated path q old
  · intro id st stored
    obtain ⟨old, storedBefore, same⟩ := before stored
    rw [kept.nextPathId, ← show old.sticky = st.sticky from congrArg Stick.sticky same]
    exact counted.known id old storedBefore
  · intro id st stored ended
    obtain ⟨old, storedBefore, same⟩ := before stored
    rw [← show old.sticky = st.sticky from congrArg Stick.sticky same]
    exact counted.loose id old storedBefore (by rw [same]; exact ended)

theorem StickyCounted.weight_le (counted : StickyCounted s) {path : Nat} {p : Path}
    (found : s.getPath path = some p) {id : Nat} {st : StreamState}
    (stored : s.streams.get? id = some st) : st.stick.weight path ≤ p.stickyStreams := by
  rw [counted.counted path p found]
  exact OrdMap.weight_le_total (fun _ st => st.stick.weight path) stored

/-- One stream changes its stick, and the paths count it where it is now. -/
theorem StickyCounted.move (counted : StickyCounted s) {id : Nat} {st : StreamState}
    (after : StreamState) (stored : s.streams.get? id = some st)
    (streams : t.streams = s.streams.modify id fun _ => after)
    (nextPathId : t.nextPathId = s.nextPathId)
    (paths : ∀ path p, t.getPath path = some p → ∃ q, s.getPath path = some q ∧
      p.stickyStreams + st.stick.weight path = q.stickyStreams + after.stick.weight path)
    (known : after.sticky < s.nextPathId) (loose : after.stick.ended = true → after.sticky = 0) :
    StickyCounted t := by
  have cases_of : ∀ {other final}, t.streams.get? other = some final →
      final = after ∨ s.streams.get? other = some final := by
    intro other final found
    rw [streams] at found
    rcases OrdMap.get?_modify_cases found with ⟨-, _, -, rfl⟩ | ⟨-, before⟩
    · exact .inl rfl
    · exact .inr before
  refine ⟨?_, nextPathId ▸ counted.positive, ?_, ?_, ?_⟩
  · intro path p found
    obtain ⟨q, before, moved⟩ := paths path p found
    have old := counted.counted path q before
    have total := OrdMap.total_modify_of_some (fun _ st => st.stick.weight path)
      (fun _ => after) stored
    simp only [stuckStreams, streams] at old ⊢
    omega
  · intro path p found
    obtain ⟨q, before, -⟩ := paths path p found
    rw [nextPathId]
    exact counted.allocated path q before
  · intro other final found
    rw [nextPathId]
    rcases cases_of found with rfl | before
    · exact known
    · exact counted.known other final before
  · intro other final found
    rcases cases_of found with rfl | before
    · exact loose
    · exact counted.loose other final before

theorem getPath_dropSticky (s : Session) (id path : Nat) :
    (s.dropSticky id).getPath path =
      if path = id then
        (s.getPath path).map fun p => { p with stickyStreams := p.stickyStreams - 1 }
      else s.getPath path :=
  getPath_modifyPath s id path _

/-- The path a stream arrives at counts one more. -/
theorem counts_addSticky {path other : Nat} {p : Path}
    (found : (s.addSticky path).getPath other = some p) :
    ∃ q, s.getPath other = some q ∧
      p.stickyStreams = q.stickyStreams + if path = other then 1 else 0 := by
  rcases OrdMap.get?_modify_cases found with ⟨same, q, before, rfl⟩ | ⟨different, before⟩
  · exact ⟨q, before, by rw [if_pos same.symm]⟩
  · exact ⟨p, before, by rw [if_neg fun equal => different equal.symm]; rfl⟩

/-- The path a stream leaves counts one less, if it is in the table. -/
theorem StickyCounted.leave (counted : StickyCounted s) {id : Nat} {st : StreamState}
    (stored : s.streams.get? id = some st) (path : Nat) {p : Path}
    (found : (if st.sticky = 0 then s else s.dropSticky st.sticky).getPath path = some p) :
    ∃ q, s.getPath path = some q ∧ p.stickyStreams + st.stick.weight path = q.stickyStreams := by
  have live : st.sticky ≠ 0 → st.gone = false := by
    intro stuck
    by_contra gone
    exact stuck (counted.loose id st stored (by simp [Stick.ended, StreamState.stick, gone]))
  by_cases stuck : st.sticky = 0
  · rw [if_pos stuck] at found
    have positive := (counted.allocated path p found).1
    refine ⟨p, found, ?_⟩
    rw [Stick.weight, if_neg]
    · rfl
    · rintro ⟨-, rfl⟩
      exact absurd stuck positive.ne'
  · rw [if_neg stuck, getPath_dropSticky] at found
    split at found
    · rename_i same
      subst same
      obtain ⟨q, before, rfl⟩ := Option.map_eq_some_iff.mp found
      have counts := counted.weight_le before stored
      have one : st.stick.weight st.sticky = 1 := if_pos ⟨live stuck, rfl⟩
      refine ⟨q, before, ?_⟩
      simp only [one] at counts ⊢
      omega
    · rename_i different
      refine ⟨p, found, ?_⟩
      rw [Stick.weight, if_neg fun held => different held.2.symm]
      rfl

theorem modifyStream_of_stored {id : Nat} {st : StreamState} (stored : s.streams.get? id = some st)
    (change : StreamState → StreamState) :
    s.modifyStream id change = s.modifyStream id fun _ => change st := by
  rw [modifyStream, modifyStream, OrdMap.modify_eq_insert change stored,
    OrdMap.modify_eq_insert (fun _ => change st) stored]

theorem StickyCounted.setSticky (counted : StickyCounted s) {path : Nat}
    (allocated : path < s.nextPathId) (id : Nat) : StickyCounted (s.setSticky id path) := by
  unfold Session.setSticky
  split
  · exact counted
  · rename_i st stream
    obtain ⟨stored, live⟩ := getStream_eq_some_iff.mp stream
    split
    · exact counted
    · rename_i moves
      simp only [Bool.or_eq_true, not_or, Bool.not_eq_true', Bool.not_eq_false, beq_iff_eq] at moves
      simp only [StreamState.isSteerable, Bool.and_eq_true, Bool.not_eq_true'] at moves
      obtain ⟨⟨⟨-, sendOpen⟩, recvOpen⟩, -⟩ := moves
      rw [modifyStream_of_stored stored]
      refine counted.move { st with sticky := path } stored ?_ ?_ ?_ allocated ?_
      · dsimp only
        split <;> rfl
      · dsimp only
        split <;> rfl
      · intro other p found
        obtain ⟨q, middle, arrived⟩ := counts_addSticky found
        have left :
            (if st.sticky = 0 then s else s.dropSticky st.sticky).getPath other = some q := by
          rw [← middle]
          split <;> rfl
        obtain ⟨r, before, counts⟩ := counted.leave stored other left
        have weight : (StreamState.stick { st with sticky := path }).weight other =
            if path = other then 1 else 0 := by
          simp only [Stick.weight, StreamState.stick, live, true_and]
        refine ⟨r, before, ?_⟩
        omega
      · intro ended
        simp [Stick.ended, StreamState.stick, live, sendOpen, recvOpen] at ended

/-- A stream that has left its path, or never was on one. -/
theorem StickyCounted.release (counted : StickyCounted s) {id : Nat} {st after : StreamState}
    (stored : s.streams.get? id = some st) (loose : after.sticky = 0) :
    StickyCounted ((if st.sticky = 0 then s else s.dropSticky st.sticky).modifyStream id
      fun _ => after) := by
  refine counted.move after stored ?_ ?_ ?_ (loose ▸ counted.positive) fun _ => loose
  · split <;> rfl
  · split <;> rfl
  · intro path p found
    have left : (if st.sticky = 0 then s else s.dropSticky st.sticky).getPath path = some p := found
    obtain ⟨q, before, counts⟩ := counted.leave stored path left
    have weight : after.stick.weight path = 0 := by
      rw [Stick.weight, if_neg]
      rintro ⟨-, same⟩
      have stuck : after.sticky = path := same
      have allocated := (counted.allocated path q before).1
      omega
    exact ⟨q, before, by rw [counts, weight]; rfl⟩

theorem StickyCounted.unstick (counted : StickyCounted s) {id : Nat} {st : StreamState}
    (stored : s.streams.get? id = some st) : StickyCounted (Controls.unstick s id st) := by
  have kept : (if st.sticky = 0 then s else s.dropSticky st.sticky).streams.get? id = some st := by
    split <;> exact stored
  rw [Controls.unstick, modifyStream_of_stored kept]
  exact counted.release stored rfl

/-- What an event does to the path table is a release and a stick count. -/
theorem StickyCounted.streamEvent (counted : StickyCounted s) (id : Nat) (event : StreamEvent) :
    StickyCounted (s.streamEvent id event) := by
  unfold Session.streamEvent
  split
  · exact counted
  · rename_i st stream
    obtain ⟨stored, live⟩ := getStream_eq_some_iff.mp stream
    have released : SticksKept s
        (if (event.apply st).gone then s.releasePieces st.unacked.entries else s) ∧
        (if (event.apply st).gone then s.releasePieces st.unacked.entries else s).streams =
          s.streams := by
      split
      · exact ⟨sticksKept_of_moved (moved_releasePieces s _), releasePieces_streams s _⟩
      · exact ⟨.refl s, rfl⟩
    dsimp only
    revert released
    generalize (if (event.apply st).gone then s.releasePieces st.unacked.entries else s) = mid
    rintro ⟨kept, same⟩
    have storedMid : mid.streams.get? id = some st := by rw [same, stored]
    have countedMid := counted.kept kept
    rcases event.looser live with loose | sticks
    · have freed := countedMid.release storedMid loose
      by_cases stuck : st.sticky = 0
      · rw [if_neg fun frees => frees.1 stuck]
        rwa [if_pos stuck] at freed
      · rw [if_pos ⟨stuck, loose⟩]
        rwa [if_neg stuck] at freed
    · have stays : (event.apply st).sticky = st.sticky := congrArg Stick.sticky sticks
      rw [if_neg fun frees => frees.1 (stays.symm.trans frees.2)]
      refine countedMid.move (event.apply st) storedMid rfl rfl ?_ ?_ ?_
      · intro path p found
        exact ⟨p, found, by rw [sticks]⟩
      · rw [stays]
        exact countedMid.known id st storedMid
      · rw [sticks, stays]
        exact countedMid.loose id st storedMid

/-! ## Sending moves the stickiness -/

theorem StickyCounted.moved (counted : StickyCounted s) (moved : Moved s t) : StickyCounted t :=
  counted.kept (sticksKept_of_moved moved)

theorem StickyCounted.setSenders (counted : StickyCounted s) (senders : OrdMap Nat Sender) :
    StickyCounted { s with senders := senders } :=
  { counted with }

theorem StickyCounted.migrateSendBlocked (counted : StickyCounted s) (id path offset : Nat)
    (piece : Bytes) : StickyCounted (s.migrateSendBlocked cfg id path offset piece) := by
  unfold Session.migrateSendBlocked
  split
  · exact counted.moved (moved_noteDataDropped s id offset)
  · rename_i alt picked
    obtain ⟨p, found, -⟩ := getPath_of_pickRetryPath picked
    split
    · rename_i failed
      exact counted.moved ((moved_sent s failed).trans (moved_noteDataDropped _ id offset))
    · rename_i after sent
      have sending := moved_sent s sent
      have allocated : alt < after.nextPathId := by
        rw [sending.nextPathId]
        exact (counted.allocated alt p found).2
      refine ((counted.moved sending).setSticky allocated id).moved ?_
      exact (Moved.refl.piece id offset _).trans (moved_xferInflight _ path alt piece.length)

theorem StickyCounted.cutPiece (counted : StickyCounted s) (id path : Nat) (piece : Bytes)
    (overflow : Bool) {p : Path} (found : s.getPath path = some p) :
    StickyCounted (s.cutPiece cfg id path piece overflow) := by
  unfold Session.cutPiece
  dsimp only
  split
  · exact counted.kept (sticksKept_modifyStream s id fun _ => rfl)
  · refine StickyCounted.setSticky ?_ ?_ id
    · exact counted.kept (sticksKept_modifyStream s id fun _ => rfl)
    · exact (counted.allocated path p found).2

theorem StickyCounted.placePiece (counted : StickyCounted s) (id path offset : Nat)
    (piece : Bytes) : StickyCounted (s.placePiece id path offset piece) := by
  unfold Session.placePiece
  refine StickyCounted.kept ?_ (sticksKept_modifyPath _ path fun _ => rfl)
  exact counted.kept (sticksKept_modifyStream s id fun _ => rfl)

theorem StickyCounted.sendInserted (counted : StickyCounted s) (id path offset : Nat)
    (piece rest : Bytes) (bulk : Bool) :
    StickyCounted (s.sendInserted cfg id path offset piece rest bulk) := by
  unfold Session.sendInserted
  split
  · rename_i sent
    exact ((counted.moved (moved_sent s sent)).moved (Moved.refl.piece id offset _)).setSenders _
  · rename_i after failed
    have sending := counted.moved (moved_sent s failed)
    split
    · split
      · exact (sending.moved (Moved.refl.piece id offset _)).setSenders _
      · exact (sending.migrateSendBlocked id path offset piece).setSenders _
    · exact (sending.migrateSendBlocked id path offset piece).setSenders _

theorem StickyCounted.sendPiece (counted : StickyCounted s) {id path : Nat} {overflow : Bool}
    (sent : s.sendPiece cfg id path overflow = some t) : StickyCounted t := by
  unfold Session.sendPiece at sent
  split at sent
  · rename_i p _ _ found
    dsimp only at sent
    split at sent
    · obtain rfl := Option.some.inj sent
      exact ((counted.cutPiece id path _ overflow found).placePiece id path _ _).sendInserted
        id path _ _ _ _
    · cases sent
  · cases sent

theorem StickyCounted.resumeWait (counted : StickyCounted s) {id : Nat}
    (resumed : s.resumeWait cfg id = some t) : StickyCounted t := by
  obtain ⟨rest, wait, st, -, -, way⟩ := resumed_of_resumeWait resumed
  cases way with
  | ended => exact counted.setSenders _
  | enqueued live sent =>
      exact ((counted.moved (moved_sent s sent)).moved
        (Moved.refl.piece id wait.offset _)).setSenders _
  | migrated live givenUp failed =>
      exact ((counted.moved (moved_sent s failed)).migrateSendBlocked id wait.pathId wait.offset
        wait.piece).setSenders _
  | waits live failed => exact counted.moved (moved_sent s failed)

/-! ## New paths and streams -/

/-- No stream is stuck to a path before the path exists. -/
theorem StickyCounted.stuckStreams_next (counted : StickyCounted s) :
    s.stuckStreams s.nextPathId = 0 := by
  apply OrdMap.total_eq_zero
  intro id st stored
  rw [Stick.weight, if_neg]
  rintro ⟨-, same⟩
  exact absurd same (counted.known id st stored).ne

theorem StickyCounted.pathAdd (counted : StickyCounted s) (link : String) :
    StickyCounted { s with
      nextPathId := s.nextPathId + 1
      paths := s.paths.insert s.nextPathId (newPath link s.now) } := by
  refine ⟨?_, Nat.succ_pos _, ?_, ?_, counted.loose⟩
  · intro path p found
    rcases OrdMap.get?_insert_cases found with ⟨rfl, rfl⟩ | before
    · exact counted.stuckStreams_next.symm
    · exact counted.counted path p before
  · intro path p found
    rcases OrdMap.get?_insert_cases found with ⟨rfl, -⟩ | before
    · exact ⟨counted.positive, Nat.lt_succ_self _⟩
    · have old := counted.allocated path p before
      exact ⟨old.1, Nat.lt_succ_of_lt old.2⟩
  · intro id st stored
    exact Nat.lt_succ_of_lt (counted.known id st stored)

/-- A new stream, under an id that no stream of the table has, is stuck to no path. -/
theorem stuckStreams_insert {id : Nat} (vacant : s.getStream id = none) {st : StreamState}
    (loose : st.sticky = 0) {path : Nat} (positive : 0 < path) :
    ({ s with streams := s.streams.insert id st } : Session).stuckStreams path =
      s.stuckStreams path := by
  have weightless : st.stick.weight path = 0 := by
    rw [Stick.weight, if_neg]
    rintro ⟨-, same⟩
    exact absurd (loose.symm.trans same) positive.ne
  simp only [stuckStreams, OrdMap.total_insert, weightless, Nat.add_zero]
  cases found : s.streams.get? id with
  | none => rw [OrdMap.erase_eq_self found]
  | some old =>
      have gone : old.gone = true := by
        simpa [getStream, found, Option.filter] using vacant
      have erased := OrdMap.total_erase_of_some (fun _ st => st.stick.weight path) found
      have oldWeight : old.stick.weight path = 0 := by
        simp [Stick.weight, StreamState.stick, gone]
      simpa only [oldWeight, Nat.add_zero] using erased

theorem StickyCounted.addStream (counted : StickyCounted s) {id : Nat}
    (vacant : s.getStream id = none) (initialWindow chan : Nat) :
    StickyCounted { s with streams := s.streams.insert id (.new id initialWindow chan) } := by
  have cases_of : ∀ {other st},
      (s.streams.insert id (.new id initialWindow chan)).get? other = some st →
      st.sticky = 0 ∨ s.streams.get? other = some st := by
    intro other st stored
    exact (OrdMap.get?_insert_cases stored).imp_left fun new => congrArg StreamState.sticky new.2
  refine ⟨?_, counted.positive, counted.allocated, ?_, ?_⟩
  · intro path p found
    have positive := (counted.allocated path p found).1
    have loose : (StreamState.new id initialWindow chan).sticky = 0 := rfl
    rw [stuckStreams_insert vacant loose positive]
    exact counted.counted path p found
  · intro other st stored
    rcases cases_of stored with loose | before
    · rw [loose]
      exact counted.positive
    · exact counted.known other st before
  · intro other st stored ended
    rcases cases_of stored with loose | before
    · exact loose
    · exact counted.loose other st before ended

theorem stickyCounted_new : StickyCounted new := by
  have noPath : ∀ {path p}, new.getPath path = some p → False := by
    intro path p found
    cases found
  have noStream : ∀ {id st}, new.streams.get? id = some st → False := by
    intro id st stored
    cases stored
  exact ⟨fun _ _ found => (noPath found).elim, Nat.one_pos, fun _ _ found => (noPath found).elim,
    fun _ _ stored => (noStream stored).elim, fun _ _ stored => (noStream stored).elim⟩

/-- A session step moves a stream to a path that is, or was, in the table. -/
def KnownPath (s : Session) : SessionAction → Prop
  | .restick _ path => path < s.nextPathId
  | _ => True

instance (s : Session) (action : SessionAction) : Decidable (KnownPath s action) := by
  cases action <;> simp only [KnownPath] <;> infer_instance

theorem StickyCounted.step (counted : StickyCounted s) {action : SessionAction}
    (known : KnownPath s action) (taken : s.step cfg action = some t) : StickyCounted t := by
  cases action with
  | tick us =>
      obtain rfl := Option.some.inj taken
      exact { counted with }
  | pathAdd link =>
      obtain rfl := Option.some.inj taken
      exact counted.pathAdd link
  | pathFailed path order =>
      simp only [Session.step] at taken
      split at taken
      · obtain rfl := Option.some.inj taken
        exact counted.kept (sticksKept_pathFailed s path order)
      · cases taken
  | recordRtt path sample =>
      obtain rfl := Option.some.inj taken
      exact counted.kept (sticksKept_modifyPath s path fun _ => rfl)
  | touchRx path =>
      obtain rfl := Option.some.inj taken
      exact counted.kept (sticksKept_modifyPath s path fun _ => rfl)
  | markDegraded path =>
      obtain rfl := Option.some.inj taken
      exact counted.kept (sticksKept_modifyPath s path fun _ => rfl)
  | setWriteStalled path stalled =>
      obtain rfl := Option.some.inj taken
      exact counted.kept (sticksKept_modifyPath s path fun _ => rfl)
  | writeUrgent path => exact counted.moved (moved_writeUrgent taken)
  | writeBulk path => exact counted.moved (moved_writeBulk taken)
  | control path frame =>
      simp only [Session.step] at taken
      split at taken
      · cases taken
      · obtain rfl := Option.some.inj taken
        exact counted.moved (moved_sendOnPath s path frame)
  | addStream id =>
      simp only [Session.step] at taken
      split at taken
      · cases taken
      · rename_i vacant
        obtain rfl := Option.some.inj taken
        have missing : s.streams.get? id = none := by simpa using vacant
        exact counted.addStream (by rw [getStream, missing]; rfl) _ _
  | beginSend id data =>
      simp only [Session.step, Session.beginSend] at taken
      split at taken
      · split at taken
        · cases taken
        · obtain rfl := Option.some.inj taken
          exact counted.setSenders _
      · cases taken
  | sendPiece id path overflow => exact counted.sendPiece taken
  | resumeWait id => exact counted.resumeWait taken
  | endSend id =>
      simp only [Session.step, Session.endSend] at taken
      split at taken
      · obtain rfl := Option.some.inj taken
        exact counted.setSenders _
      · cases taken
  | restick id path =>
      obtain rfl := Option.some.inj taken
      exact counted.setSticky known id
  | noteStall id stalled =>
      obtain rfl := Option.some.inj taken
      exact counted.kept (sticksKept_modifyStream s id fun _ => rfl)
  | onAck ack =>
      obtain rfl := Option.some.inj taken
      exact counted.kept (sticksKept_onAck s ack)
  | retry id =>
      obtain rfl := Option.some.inj taken
      exact counted.moved (moved_retryExpiredUnacked s id)
  | streamEvent id event =>
      obtain rfl := Option.some.inj taken
      exact counted.streamEvent id event

end

end Session

/-! ## Every run -/

/-- What changes the stickiness of streams, or the table they are counted in. -/
inductive StickyAction where
  | session (action : SessionAction)
  /-- By any task that holds the stream, whether or not the table does. -/
  | unstick (id : Nat)
  /-- A stream begins under the id of one that has left the table. -/
  | addAgain (id : Nat)

namespace StickyAction

variable (cfg : SessionConfig)

def step (s : Session) : StickyAction → Option Session
  | .session action => s.step cfg action
  | .unstick id => (s.streams.get? id).map (Controls.unstick s id)
  | .addAgain id =>
      if (s.getStream id).isSome then none
      else
        some { s with
          streams := s.streams.insert id (.new id cfg.initialWindow cfg.chan)
          senders := s.senders.erase id }

def machine : Machine Session StickyAction := ⟨fun s => s = .new, step cfg⟩

/-- Streams are stuck to paths that are, or were, in the table. -/
def KnownPath (s : Session) : StickyAction → Prop
  | .session action => s.KnownPath action
  | _ => True

instance (s : Session) (action : StickyAction) : Decidable (KnownPath s action) := by
  cases action <;> simp only [KnownPath] <;> infer_instance

end StickyAction

/-- Two paths and three streams; the path of two of them fails, one moves to the other path,
one stays with the path that has gone, and the third is closed. -/
def stickySchedule : List StickyAction :=
  [.session (.pathAdd "a"), .session (.pathAdd "b"), .session (.addStream 1),
    .session (.addStream 2), .session (.addStream 3), .session (.restick 1 1),
    .session (.restick 2 1), .session (.restick 3 2), .session (.pathFailed 1 [1, 2, 3]),
    .session (.restick 1 2), .session (.streamEvent 3 .closeSend), .session (.restick 3 2)]

end NyaLink
