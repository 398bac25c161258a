import NyaLink.Session.Steered

/-!
# Tidy sessions

What every reachable session keeps: path ids and piece offsets are fresh when
they are taken, a reset stream has left the table, and a suspended sender holds
the bytes of the piece it waits for.
-/

namespace NyaLink.Session

structure Tidy (s : Session) : Prop where
  paths : ∀ path, (s.getPath path).isSome = true → path < s.nextPathId
  pieces : ∀ id st, s.streams.get? id = some st → ∀ offset u,
    st.unacked.get? offset = some u → u.pathId < s.nextPathId ∧ offset < st.sendNext
  reset : ∀ id st, s.streams.get? id = some st → st.reset = true → st.gone = true
  idle : ∀ id sender, s.senders.get? id = some sender → sender.waiting = none → sender.rest ≠ []
  waits : ∀ id sender wait, s.senders.get? id = some sender → sender.waiting = some wait →
    ∀ u, s.pieceAt id wait.offset = some u → u.data = wait.piece

section

variable {cfg : SessionConfig} {s t : Session}

theorem tidy_new : Tidy new := by
  constructor
  · intro path found
    cases found
  · intro id st found
    cases found
  · intro id st found
    cases found
  · intro id sender found
    cases found
  · intro id sender wait found
    cases found

theorem Tidy.steer (tidy : Tidy s) (steered : Steered s t) : Tidy t := by
  constructor
  · intro path found
    rw [steered.nextPathId]
    exact tidy.paths path (steered.paths path found)
  · intro id after found offset u held
    obtain ⟨before, foundBefore, kept⟩ := steered.streams id after found
    obtain ⟨v, heldBefore, -, moved⟩ := kept.pieces offset u held
    have fresh := tidy.pieces id before foundBefore offset v heldBefore
    rw [steered.nextPathId, kept.sendNext]
    refine ⟨?_, fresh.2⟩
    rcases moved with stayed | known
    · rw [stayed]
      exact fresh.1
    · exact tidy.paths _ known
  · intro id after found reset
    obtain ⟨before, foundBefore, kept⟩ := steered.streams id after found
    rcases kept.reset reset with resetBefore | gone
    · exact kept.gone (tidy.reset id before foundBefore resetBefore)
    · exact gone
  · intro id sender found
    rw [steered.senders] at found
    exact tidy.idle id sender found
  · intro id sender wait found waiting u held
    rw [steered.senders] at found
    obtain ⟨v, heldBefore, sameData⟩ := steered.pieceAt held
    rw [sameData]
    exact tidy.waits id sender wait found waiting v heldBefore

/-! ## Senders -/

/-- One sender goes on or starts. -/
theorem Tidy.insertSender (tidy : Tidy s) (id : Nat) (sender : Sender)
    (idle : sender.waiting = none → sender.rest ≠ [])
    (waits : ∀ wait, sender.waiting = some wait → ∀ u, s.pieceAt id wait.offset = some u →
      u.data = wait.piece) : Tidy { s with senders := s.senders.insert id sender } := by
  refine ⟨tidy.paths, tidy.pieces, tidy.reset, ?_, ?_⟩
  · intro other found inserted
    rcases OrdMap.get?_insert_cases inserted with ⟨-, rfl⟩ | before
    · exact idle
    · exact tidy.idle other found before
  · intro other found wait inserted waiting
    rcases OrdMap.get?_insert_cases inserted with ⟨rfl, rfl⟩ | before
    · exact waits wait waiting
    · exact tidy.waits other found wait before waiting

theorem Tidy.eraseSender (tidy : Tidy s) (id : Nat) :
    Tidy { s with senders := s.senders.erase id } := by
  refine ⟨tidy.paths, tidy.pieces, tidy.reset, ?_, ?_⟩
  · intro other sender found
    exact tidy.idle other sender (OrdMap.get?_erase_eq_some_iff.mp found).2
  · intro other sender wait found
    exact tidy.waits other sender wait (OrdMap.get?_erase_eq_some_iff.mp found).2

theorem Tidy.proceed (tidy : Tidy s) (id : Nat) (rest : Bytes) : Tidy (s.proceed id rest) := by
  unfold Session.proceed
  split
  · exact tidy.eraseSender id
  · rename_i nonempty
    apply tidy.insertSender
    · exact fun _ => nonempty
    · intro wait waiting
      cases waiting

/-! ## A new piece -/

theorem setSticky_streams (s : Session) (id path : Nat) :
    (s.setSticky id path).streams = s.streams ∨
      (s.setSticky id path).streams = s.streams.modify id fun st => { st with sticky := path } := by
  unfold setSticky
  split
  · exact .inl rfl
  · split
    · exact .inl rfl
    · dsimp only
      split
      · exact .inr rfl
      · exact .inr rfl

theorem Tidy.raise (tidy : Tidy s) (id : Nat) {change : StreamState → StreamState}
    (unacked : ∀ st, (change st).unacked = st.unacked)
    (sendNext : ∀ st, st.sendNext ≤ (change st).sendNext)
    (reset : ∀ st, (change st).reset = st.reset) (gone : ∀ st, (change st).gone = st.gone) :
    Tidy (s.modifyStream id change) := by
  refine { tidy with pieces := ?_, reset := ?_, waits := ?_ }
  · intro other after found offset u held
    rcases OrdMap.get?_modify_cases found with ⟨-, st, stored, rfl⟩ | ⟨-, stored⟩
    · rw [unacked] at held
      have fresh := tidy.pieces other st stored offset u held
      exact ⟨fresh.1, fresh.2.trans_le (sendNext st)⟩
    · exact tidy.pieces other after stored offset u held
  · intro other after found wasReset
    rcases OrdMap.get?_modify_cases found with ⟨-, st, stored, rfl⟩ | ⟨-, stored⟩
    · rw [reset] at wasReset
      rw [gone]
      exact tidy.reset other st stored wasReset
    · exact tidy.reset other after stored wasReset
  · intro other sender wait found waiting u held
    apply tidy.waits other sender wait found waiting
    obtain ⟨after, stored, inMap⟩ := Option.bind_eq_some_iff.mp held
    apply Option.bind_eq_some_iff.mpr
    rcases OrdMap.get?_modify_cases stored with ⟨-, st, before, rfl⟩ | ⟨-, before⟩
    · rw [unacked] at inMap
      exact ⟨st, before, inMap⟩
    · exact ⟨after, before, inMap⟩

theorem Tidy.cutPiece (tidy : Tidy s) (id path : Nat) (piece : Bytes) (overflow : Bool) :
    Tidy (s.cutPiece cfg id path piece overflow) := by
  unfold Session.cutPiece
  have raised : Tidy (s.modifyStream id fun st =>
      { st with
        sendNext := st.sendNext + piece.length
        bulk := st.bulk || decide (cfg.interactiveMax < piece.length) }) := by
    apply tidy.raise
    · exact fun _ => rfl
    · exact fun st => Nat.le_add_right st.sendNext piece.length
    · exact fun _ => rfl
    · exact fun _ => rfl
  dsimp only
  split
  · exact raised
  · exact raised.steer (steered_setSticky _ id path)

theorem getStream_placePiece (s : Session) (id path offset : Nat) (piece : Bytes) (other : Nat) :
    (s.placePiece id path offset piece).streams.get? other =
      if other = id then (s.streams.get? other).map fun st =>
        { st with unacked := st.unacked.insert offset (Endpoint.newUnacked piece path s.now) }
      else s.streams.get? other :=
  OrdMap.get?_modify s.streams id other _

theorem pieceAt_placePiece {id path offset : Nat} {piece : Bytes} {other position : Nat}
    {u : Unacked} (held : (s.placePiece id path offset piece).pieceAt other position = some u) :
    other = id ∧ position = offset ∧ u = Endpoint.newUnacked piece path s.now ∨
      s.pieceAt other position = some u := by
  obtain ⟨after, stored, inMap⟩ := Option.bind_eq_some_iff.mp held
  rw [getStream_placePiece] at stored
  split at stored
  · rename_i same
    obtain ⟨st, before, rfl⟩ := Option.map_eq_some_iff.mp stored
    rcases OrdMap.get?_insert_cases inMap with ⟨here, new⟩ | old
    · exact .inl ⟨same, here, new⟩
    · exact .inr (Option.bind_eq_some_iff.mpr ⟨st, before, old⟩)
  · exact .inr (Option.bind_eq_some_iff.mpr ⟨after, stored, inMap⟩)

theorem Tidy.placePiece (tidy : Tidy s) {id path offset : Nat} (piece : Bytes)
    (below : ∀ st, s.streams.get? id = some st → offset < st.sendNext)
    (known : (s.getPath path).isSome = true)
    (idle : ∀ sender, s.senders.get? id = some sender → sender.waiting = none) :
    Tidy (s.placePiece id path offset piece) := by
  constructor
  · intro other found
    apply tidy.paths
    rw [← isSome_getPath_modifyPath s path other fun p =>
      { p with inflight := p.inflight + piece.length }]
    exact found
  · intro other after found position u held
    rw [getStream_placePiece] at found
    split at found
    · rename_i same
      subst same
      obtain ⟨st, stored, rfl⟩ := Option.map_eq_some_iff.mp found
      rcases OrdMap.get?_insert_cases held with ⟨rfl, rfl⟩ | before
      · exact ⟨tidy.paths path known, below st stored⟩
      · exact tidy.pieces other st stored position u before
    · exact tidy.pieces other after found position u held
  · intro other after found wasReset
    rw [getStream_placePiece] at found
    split at found
    · obtain ⟨st, stored, rfl⟩ := Option.map_eq_some_iff.mp found
      exact tidy.reset other st stored wasReset
    · exact tidy.reset other after found wasReset
  · exact tidy.idle
  · intro other sender wait found waiting u held
    rcases pieceAt_placePiece held with ⟨rfl, -, -⟩ | before
    · rw [idle sender found] at waiting
      cases waiting
    · exact tidy.waits other sender wait found waiting u before

theorem Tidy.sendInserted (tidy : Tidy s) {id path offset : Nat} {piece : Bytes}
    (inserted : ∀ u, s.pieceAt id offset = some u → u.data = piece) (rest : Bytes) (bulk : Bool) :
    Tidy (s.sendInserted cfg id path offset piece rest bulk) := by
  have sending := @steered_sendDataFrame cfg s id offset piece path
  unfold Session.sendInserted
  split
  · rename_i after sent
    rw [sent] at sending
    exact (tidy.steer (sending.trans (steered_noteCarried after id offset true))).proceed id rest
  · rename_i after failed
    rw [failed] at sending
    split
    · rename_i p _
      split
      · have marked : Steered s (after.modifyUnacked id offset fun u =>
            { u with retryNotBefore := after.now + downTimeoutFor cfg p }) :=
          sending.trans (steered_markPiece after id offset (fun _ => rfl) fun _ => rfl)
        apply (tidy.steer marked).insertSender
        · intro waiting
          cases waiting
        · intro wait waiting u held
          cases waiting
          obtain ⟨v, before, sameData⟩ := marked.pieceAt held
          rw [sameData]
          exact inserted v before
      · exact (tidy.steer
          (sending.trans (steered_migrateSendBlocked after id path offset piece))).proceed id rest
    · exact (tidy.steer
        (sending.trans (steered_migrateSendBlocked after id path offset piece))).proceed id rest

theorem pieceLength_pos {st : StreamState} {rest : Bytes} (nonempty : rest ≠ []) :
    0 < st.pieceLength rest := by
  have long := List.length_pos_iff.mpr nonempty
  have payload : 0 < maxStreamPayload := by decide
  unfold StreamState.pieceLength
  omega

theorem length_take_pieceLength (st : StreamState) (rest : Bytes) :
    (rest.take (st.pieceLength rest)).length = st.pieceLength rest := by
  rw [List.length_take]
  unfold StreamState.pieceLength
  omega

/-- What `sendPiece` did when it was enabled. -/
theorem sendPiece_eq_some {id path : Nat} {overflow : Bool}
    (sent : s.sendPiece cfg id path overflow = some t) :
    ∃ rest st p, s.senders.get? id = some { rest := rest, waiting := none } ∧
      s.streams.get? id = some st ∧ s.getPath path = some p ∧ p.isAlive = true ∧
      t = ((s.cutPiece cfg id path (rest.take (st.pieceLength rest)) overflow).placePiece id path
        st.sendNext (rest.take (st.pieceLength rest))).sendInserted cfg id path st.sendNext
        (rest.take (st.pieceLength rest)) (rest.drop (st.pieceLength rest))
        (st.bulk || decide (cfg.interactiveMax < (rest.take (st.pieceLength rest)).length)) := by
  unfold Session.sendPiece at sent
  split at sent
  · rename_i rest st p sender stored found
    split at sent
    · rename_i allowed
      rw [Bool.and_eq_true] at allowed
      exact ⟨rest, st, p, sender, stored, found, allowed.2, (Option.some.inj sent).symm⟩
    · cases sent
  · cases sent

theorem cutPiece_senders (s : Session) (id path : Nat) (piece : Bytes) (overflow : Bool) :
    (s.cutPiece cfg id path piece overflow).senders = s.senders := by
  unfold Session.cutPiece
  dsimp only
  split
  · rfl
  · exact (steered_setSticky _ id path).senders

/-- A stream right after the cut. -/
theorem getStream_cutPiece {id path : Nat} {piece : Bytes} {overflow : Bool} {other : Nat}
    {after : StreamState}
    (stored : (s.cutPiece cfg id path piece overflow).streams.get? other = some after) :
    ∃ st, s.streams.get? other = some st ∧ after.unacked = st.unacked ∧ after.gone = st.gone ∧
      after.sendNext = if other = id then st.sendNext + piece.length else st.sendNext := by
  unfold Session.cutPiece at stored
  dsimp only at stored
  have cut : ∀ {mid}, (s.modifyStream id fun st =>
      { st with
        sendNext := st.sendNext + piece.length
        bulk := st.bulk || decide (cfg.interactiveMax < piece.length) }).streams.get? other =
        some mid → ∃ st, s.streams.get? other = some st ∧ mid.unacked = st.unacked ∧
        mid.gone = st.gone ∧
        mid.sendNext = if other = id then st.sendNext + piece.length else st.sendNext := by
    intro mid found
    rcases OrdMap.get?_modify_cases found with ⟨same, st, before, rfl⟩ | ⟨different, before⟩
    · exact ⟨st, before, rfl, rfl, (if_pos same).symm⟩
    · exact ⟨mid, before, rfl, rfl, (if_neg different).symm⟩
  split at stored
  · exact cut stored
  · rcases setSticky_streams _ id path with same | stuck
    · rw [same] at stored
      exact cut stored
    · rw [stuck] at stored
      rcases OrdMap.get?_modify_cases stored with ⟨-, mid, found, rfl⟩ | ⟨-, found⟩
      · obtain ⟨st, before, unacked, gone, sendNext⟩ := cut found
        exact ⟨st, before, unacked, gone, sendNext⟩
      · exact cut found

theorem isSome_getStream_cutPiece (s : Session) (id path : Nat) (piece : Bytes) (overflow : Bool)
    (other : Nat) : ((s.cutPiece cfg id path piece overflow).streams.get? other).isSome =
      (s.streams.get? other).isSome := by
  have kept : ∀ (map : OrdMap Nat StreamState) (change : StreamState → StreamState),
      ((map.modify id change).get? other).isSome = (map.get? other).isSome := by
    intro map change
    rw [OrdMap.get?_modify]
    split
    · exact Option.isSome_map
    · rfl
  unfold Session.cutPiece
  dsimp only
  split
  · exact kept _ _
  · rcases setSticky_streams _ id path with same | stuck
    · rw [same]
      exact kept _ _
    · rw [stuck, kept]
      exact kept _ _

theorem isSome_getPath_cutPiece (s : Session) (id path : Nat) (piece : Bytes) (overflow : Bool)
    (other : Nat) : ((s.cutPiece cfg id path piece overflow).getPath other).isSome =
      (s.getPath other).isSome := by
  unfold Session.cutPiece
  dsimp only
  split
  · rfl
  · exact isSome_getPath_setSticky _ id path other

theorem Tidy.sendPiece (tidy : Tidy s) {id path : Nat} {overflow : Bool}
    (sent : s.sendPiece cfg id path overflow = some t) : Tidy t := by
  obtain ⟨rest, st, p, sender, stored, found, -, rfl⟩ := sendPiece_eq_some sent
  have nonempty := tidy.idle id _ sender rfl
  have long := @pieceLength_pos st rest nonempty
  generalize piece_eq : rest.take (st.pieceLength rest) = piece
  have cut : Tidy (s.cutPiece cfg id path piece overflow) := tidy.cutPiece id path piece overflow
  have placed : Tidy ((s.cutPiece cfg id path piece overflow).placePiece id path st.sendNext
      piece) := by
    apply cut.placePiece
    · intro after inCut
      obtain ⟨same, sameStored, -, -, advanced⟩ := getStream_cutPiece inCut
      rw [stored] at sameStored
      cases sameStored
      rw [advanced, if_pos rfl, ← piece_eq, length_take_pieceLength]
      omega
    · rw [isSome_getPath_cutPiece]
      exact Option.isSome_of_eq_some found
    · intro other foundSender
      rw [cutPiece_senders, sender] at foundSender
      cases foundSender
      rfl
  · apply placed.sendInserted
    intro u held
    rcases pieceAt_placePiece held with ⟨-, -, rfl⟩ | before
    · rfl
    · obtain ⟨after, inCut, inMap⟩ := Option.bind_eq_some_iff.mp before
      obtain ⟨same, sameStored, unacked, -⟩ := getStream_cutPiece inCut
      rw [stored] at sameStored
      cases sameStored
      rw [unacked] at inMap
      exact absurd (tidy.pieces id st stored st.sendNext u inMap).2 (lt_irrefl _)

/-! ## Every step -/

theorem Tidy.resumeWait (tidy : Tidy s) {id : Nat} (resumed : s.resumeWait cfg id = some t) :
    Tidy t := by
  obtain ⟨rest, wait, st, -, -, went⟩ := resumed_of_resumeWait resumed
  have sending := @steered_sendDataFrame cfg s id wait.offset wait.piece wait.pathId
  cases went with
  | ended reset => exact tidy.proceed id rest
  | @enqueued after live sent =>
      rw [sent] at sending
      exact (tidy.steer (sending.trans (steered_markEnqueued after id wait))).proceed id rest
  | @migrated after live givenUp failed =>
      rw [failed] at sending
      exact (tidy.steer (sending.trans
        (steered_migrateSendBlocked after id wait.pathId wait.offset wait.piece))).proceed id rest
  | waits live failed =>
      rw [failed] at sending
      exact tidy.steer sending

theorem Tidy.pathAdd (tidy : Tidy s) (link : String) :
    Tidy { s with
      nextPathId := s.nextPathId + 1
      paths := s.paths.insert s.nextPathId (newPath link s.now) } := by
  refine { tidy with paths := ?_, pieces := ?_ }
  · intro path found
    change ((s.paths.insert s.nextPathId _).get? path).isSome = true at found
    rw [OrdMap.get?_insert] at found
    change path < s.nextPathId + 1
    split at found
    · omega
    · exact Nat.lt_succ_of_lt (tidy.paths path found)
  · intro id st stored offset u held
    have fresh := tidy.pieces id st stored offset u held
    exact ⟨Nat.lt_succ_of_lt fresh.1, fresh.2⟩

theorem Tidy.addStream (tidy : Tidy s) {id : Nat} (st : StreamState)
    (empty : st.unacked = .empty) (unreset : st.reset = false) :
    Tidy { s with streams := s.streams.insert id st } := by
  have none_held : ∀ offset u, st.unacked.get? offset = some u → False := by
    intro offset u held
    rw [empty] at held
    cases held
  refine { tidy with pieces := ?_, reset := ?_, waits := ?_ }
  · intro other after found offset u held
    change (s.streams.insert id st).get? other = some after at found
    rcases OrdMap.get?_insert_cases found with ⟨-, rfl⟩ | before
    · exact (none_held offset u held).elim
    · exact tidy.pieces other after before offset u held
  · intro other after found wasReset
    change (s.streams.insert id st).get? other = some after at found
    rcases OrdMap.get?_insert_cases found with ⟨-, rfl⟩ | before
    · rw [unreset] at wasReset
      cases wasReset
    · exact tidy.reset other after before wasReset
  · intro other sender wait found waiting u held
    obtain ⟨after, stored, inMap⟩ := Option.bind_eq_some_iff.mp held
    change (s.streams.insert id st).get? other = some after at stored
    rcases OrdMap.get?_insert_cases stored with ⟨-, rfl⟩ | before
    · exact (none_held wait.offset u inMap).elim
    · exact tidy.waits other sender wait found waiting u
        (Option.bind_eq_some_iff.mpr ⟨after, before, inMap⟩)

theorem Tidy.step (tidy : Tidy s) {action : SessionAction}
    (taken : s.step cfg action = some t) : Tidy t := by
  cases action with
  | tick us =>
      obtain rfl := Option.some.inj taken
      exact { tidy with }
  | pathAdd link =>
      obtain rfl := Option.some.inj taken
      exact tidy.pathAdd link
  | pathFailed path order =>
      simp only [Session.step] at taken
      split at taken
      · obtain rfl := Option.some.inj taken
        exact tidy.steer (steered_pathFailed s path order)
      · cases taken
  | recordRtt path sample =>
      obtain rfl := Option.some.inj taken
      exact tidy.steer (steered_modifyPath s path _)
  | touchRx path =>
      obtain rfl := Option.some.inj taken
      exact tidy.steer (steered_modifyPath s path _)
  | markDegraded path =>
      obtain rfl := Option.some.inj taken
      exact tidy.steer (steered_modifyPath s path _)
  | setWriteStalled path stalled =>
      obtain rfl := Option.some.inj taken
      exact tidy.steer (steered_modifyPath s path _)
  | writeUrgent path => exact tidy.steer (steered_writeUrgent taken)
  | writeBulk path => exact tidy.steer (steered_writeBulk taken)
  | control path frame =>
      simp only [Session.step] at taken
      split at taken
      · cases taken
      · obtain rfl := Option.some.inj taken
        exact tidy.steer (steered_sendOnPath s path frame)
  | addStream id =>
      simp only [Session.step] at taken
      split at taken
      · cases taken
      · obtain rfl := Option.some.inj taken
        exact tidy.addStream _ rfl rfl
  | beginSend id data =>
      simp only [Session.step, Session.beginSend] at taken
      split at taken
      · split at taken
        · cases taken
        · rename_i allowed
          obtain rfl := Option.some.inj taken
          apply tidy.insertSender
          · rintro - rfl
            simp at allowed
          · intro wait waiting
            cases waiting
      · cases taken
  | sendPiece id path overflow => exact tidy.sendPiece taken
  | resumeWait id => exact tidy.resumeWait taken
  | endSend id =>
      simp only [Session.step, Session.endSend] at taken
      split at taken
      · obtain rfl := Option.some.inj taken
        exact tidy.eraseSender id
      · cases taken
  | restick id path =>
      obtain rfl := Option.some.inj taken
      exact tidy.steer (steered_setSticky s id path)
  | noteStall id stalled =>
      obtain rfl := Option.some.inj taken
      exact tidy.steer (steered_noteStall s id stalled)
  | onAck ack =>
      obtain rfl := Option.some.inj taken
      exact tidy.steer (steered_onAck s ack)
  | retry id =>
      obtain rfl := Option.some.inj taken
      exact tidy.steer (steered_retryExpiredUnacked s id)
  | streamEvent id event =>
      obtain rfl := Option.some.inj taken
      exact tidy.steer (steered_streamEvent s id event)

/-- Every reachable session is tidy. -/
theorem tidy_of_reachable {good : Session → SessionAction → Prop}
    (reachable : (machine cfg).ReachableWhen good s) : Tidy s := by
  apply reachable.reachable.invariant
  · rintro start rfl
    exact tidy_new
  · intro before action after tidy taken
    exact tidy.step taken

end

end NyaLink.Session
