import NyaLink.Session.Table

/-!
# The stream scorecard

Every stream that begins is counted as opened, and its end is counted once:
closed or reset, whichever of the ways to end it comes first.  What keeps the
count is the latch `counted_close`: only a stream whose latch is set leaves the
table, and only the winner of the latch observes the end.
-/

namespace NyaLink

inductive TableAction where
  | openStream (target : Target) (path : Nat)
  | acceptRemoteStream (id : Nat) (inputs : CapInputs) (incoming : Incoming)
  | sendPiece (id : Nat) (piece : Bytes) (path now : Nat)
  | data (path : Nat) (body : StreamData) (inputs : CapInputs)
  | ack (body : StreamAck) (now : Nat)
  | appRead (id n : Nat) (inputs : CapInputs)
  | closeSend (id : Nat)
  | peerClose (close : StreamClose)
  | peerReset (reset : StreamReset)
  | resetStream (id : Nat) (reason : ResetReason)
  | resetAll (reason : ResetReason)
  | expireRecvClose (id : Nat)
  | expireEarlyData (count : Nat)
  | lingerReap (id : Nat)
  | residual (id : Nat)
  | reapClosedStreams (expired : List Nat)
  | reapStream (id : Nat)
  | markDead
  | dropSession
  deriving DecidableEq, Repr

namespace StreamTable

/-- One operation of the session; a client ignores StreamOpen. -/
def step (t : StreamTable) : TableAction → Option StreamTable
  | .openStream target path => t.openStream target path
  | .acceptRemoteStream id inputs incoming =>
      if t.isClient then none else some (t.acceptRemoteStream id inputs incoming).1
  | .sendPiece id piece path now => some (t.sendPiece id piece path now)
  | .data path body inputs => some (t.onData path body inputs)
  | .ack body now => some (t.onAck body now)
  | .appRead id n inputs => some (t.noteAppRead id n inputs)
  | .closeSend id => some (t.closeSend id)
  | .peerClose close => some (t.onPeerClose close)
  | .peerReset reset => some (t.finishStream reset.streamId reset.reason)
  | .resetStream id reason => some (t.finishStream id reason)
  | .resetAll reason => some (t.resetAll reason)
  | .expireRecvClose id => some (t.tryFinishRecvClose id)
  | .expireEarlyData count => some { t with pendingEarly := t.pendingEarly.drop count }
  | .lingerReap id => some (t.lingerReapProgressFine id)
  | .residual id => some (t.residualDClient id)
  | .reapClosedStreams expired => some (t.reapClosedStreams expired)
  | .reapStream id => some (t.reapStream id)
  | .markDead => some t.markDead
  | .dropSession => some t.dropSession

def Initial (t : StreamTable) : Prop :=
  ∃ isClient initialWindow chan, t = .new isClient initialWindow chan

def machine : Machine StreamTable TableAction := ⟨Initial, step⟩

/-- Streams of the table whose end is not counted yet. -/
def uncounted (t : StreamTable) : Nat :=
  t.streams.total fun _ st => if st.countedClose then 0 else 1

end StreamTable

/-! ## The counters -/

namespace Scorecard

structure Consistent (card : Scorecard) : Prop where
  byReason : card.streamResets = card.resetsByReason
  linger : card.streamReapsLinger ≤ card.streamsClosed

theorem Consistent.observeEnd {card : Scorecard} (consistent : card.Consistent) (fine : Bool)
    (reason : Option ResetReason) : (card.observeEnd fine reason).Consistent := by
  obtain ⟨byReason, linger⟩ := consistent
  simp only [resetsByReason] at byReason
  cases reason with
  | none => exact ⟨byReason, Nat.le_succ_of_le linger⟩
  | some why =>
      simp only [Scorecard.observeEnd]
      split
      · exact ⟨byReason, Nat.succ_le_succ linger⟩
      · cases why <;> constructor <;> simp only [countReset, resetsByReason] <;> omega

theorem streamsOpened_observeEnd (card : Scorecard) (fine : Bool)
    (reason : Option ResetReason) :
    (card.observeEnd fine reason).streamsOpened = card.streamsOpened := by
  cases reason with
  | none => rfl
  | some why =>
      simp only [Scorecard.observeEnd]
      split
      · rfl
      · cases why <;> rfl

/-- An end is counted once, as closed or as reset. -/
theorem ends_observeEnd (card : Scorecard) (fine : Bool) (reason : Option ResetReason) :
    (card.observeEnd fine reason).streamsClosed + (card.observeEnd fine reason).streamResets =
      card.streamsClosed + card.streamResets + 1 := by
  cases reason with
  | none =>
      simp only [Scorecard.observeEnd]
      omega
  | some why =>
      simp only [Scorecard.observeEnd]
      split
      · simp only
        omega
      · cases why <;> simp only [countReset] <;> omega

end Scorecard

namespace StreamTable

/-! ## The invariant -/

/-- What the scorecard, the history and the table say of each other. -/
structure Balanced (t : StreamTable) : Prop where
  consistent : t.metrics.Consistent
  opened : t.metrics.streamsOpened =
    t.metrics.streamsClosed + t.metrics.streamResets + t.uncounted
  ends : t.ended.length = t.metrics.streamsClosed + t.metrics.streamResets
  once : t.ended.Nodup
  past : ∀ id k, (id, k) ∈ t.ended → k ≤ t.begun.count id
  running : ∀ id st, t.getStream id = some st → st.countedClose = false →
    (id, t.begun.count id) ∉ t.ended

/-- A reset stream that is still in the table has been counted. -/
def Settled (t : StreamTable) : Prop :=
  ∀ id st, t.getStream id = some st → st.reset = true → st.countedClose = true

/-- The ledger of beginnings and ends is the same. -/
structure SameLedger (before after : StreamTable) : Prop where
  metrics : after.metrics = before.metrics
  begun : after.begun = before.begun
  ended : after.ended = before.ended

theorem getStream_modifyStream (t : StreamTable) (id other : Nat)
    (change : StreamState → StreamState) :
    (t.modifyStream id change).getStream other =
      if other = id then (t.getStream other).map change else t.getStream other :=
  OrdMap.get?_modify t.streams id other change

/-- A change of the table that keeps every latch keeps the balance. -/
theorem Balanced.of_same {before after : StreamTable} (balanced : before.Balanced)
    (ledger : SameLedger before after) (uncounted : after.uncounted = before.uncounted)
    (latches : ∀ id st, after.getStream id = some st → st.countedClose = false →
      ∃ old, before.getStream id = some old ∧ old.countedClose = false) : after.Balanced where
  consistent := ledger.metrics ▸ balanced.consistent
  opened := by
    rw [ledger.metrics, uncounted]
    exact balanced.opened
  ends := by
    rw [ledger.metrics, ledger.ended]
    exact balanced.ends
  once := ledger.ended ▸ balanced.once
  past := by
    rw [ledger.ended, ledger.begun]
    exact balanced.past
  running := by
    intro id st found isOpen
    obtain ⟨old, foundOld, openOld⟩ := latches id st found isOpen
    rw [ledger.ended, ledger.begun]
    exact balanced.running id old foundOld openOld

theorem Balanced.of_same_streams {before after : StreamTable} (balanced : before.Balanced)
    (ledger : SameLedger before after) (streams : after.streams = before.streams) :
    after.Balanced := by
  have sameGet : ∀ id, after.getStream id = before.getStream id := fun id =>
    congrArg (fun m => OrdMap.get? m id) streams
  apply balanced.of_same ledger
  · exact congrArg (fun m => OrdMap.total _ m) streams
  · intro id st found isOpen
    exact ⟨st, (sameGet id).symm.trans found, isOpen⟩

theorem uncounted_modifyStream (t : StreamTable) (id : Nat) {change : StreamState → StreamState}
    (kept : ∀ st, t.getStream id = some st → (change st).countedClose = st.countedClose) :
    (t.modifyStream id change).uncounted = t.uncounted := by
  cases found : t.streams.get? id with
  | none =>
      have same : t.streams.modify id change = t.streams := OrdMap.modify_eq_self change found
      exact congrArg (fun m => OrdMap.total _ m) same
  | some st =>
      have moved := OrdMap.total_modify_of_some
        (fun _ st : _ => if st.countedClose then 0 else 1) change found
      simp only [kept st found] at moved
      exact Nat.add_right_cancel moved

theorem Balanced.modifyStream {t : StreamTable} (balanced : t.Balanced) (id : Nat)
    {change : StreamState → StreamState}
    (kept : ∀ st, t.getStream id = some st → (change st).countedClose = st.countedClose) :
    (t.modifyStream id change).Balanced := by
  refine Balanced.of_same balanced ⟨rfl, rfl, rfl⟩ (uncounted_modifyStream t id kept) ?_
  intro other st found isOpen
  rcases OrdMap.get?_modify_cases found with ⟨rfl, old, foundOld, rfl⟩ | ⟨-, foundOld⟩
  · exact ⟨old, foundOld, (kept old foundOld).symm.trans isOpen⟩
  · exact ⟨st, foundOld, isOpen⟩

theorem Settled.modifyStream {t : StreamTable} (settled : t.Settled) (id : Nat)
    {change : StreamState → StreamState}
    (kept : ∀ st, t.getStream id = some st → (change st).countedClose = st.countedClose ∧
      (change st).reset = st.reset) :
    (t.modifyStream id change).Settled := by
  intro other st found reset
  rcases OrdMap.get?_modify_cases found with ⟨rfl, old, foundOld, rfl⟩ | ⟨-, foundOld⟩
  · obtain ⟨sameLatch, sameReset⟩ := kept old foundOld
    rw [sameLatch]
    exact settled other old foundOld (sameReset.symm.trans reset)
  · exact settled other st foundOld reset

theorem countedClose_countClose (st : StreamState) : st.countClose.countedClose = true := by
  unfold StreamState.countClose StreamState.observeStreamEnd
  split
  · assumption
  · split
    · rfl
    · rfl

/-- The loser of the latch changes nothing; the winner observes the end. -/
theorem countClose_cases (t : StreamTable) (id : Nat) (reason : Option ResetReason) :
    (t.countClose id reason = t ∧
      ∀ st, t.getStream id = some st → st.countedClose = true) ∨
    ∃ st, t.getStream id = some st ∧ st.countedClose = false ∧
      t.countClose id reason =
        (t.modifyStream id StreamState.countClose).observeStreamEnd id st reason := by
  unfold countClose
  cases found : t.getStream id with
  | none => exact .inl ⟨rfl, fun st impossible => by cases impossible⟩
  | some st =>
      cases latch : st.countedClose with
      | true =>
          refine .inl ⟨by simp only [latch, if_true], ?_⟩
          rintro _ ⟨⟩
          exact latch
      | false => exact .inr ⟨st, rfl, latch, by simp only [latch, Bool.false_eq_true, if_false]⟩

/-- After the latch was tried it is set. -/
theorem counted_of_countClose {t : StreamTable} {id : Nat} {reason : Option ResetReason}
    {st : StreamState} (found : (t.countClose id reason).getStream id = some st) :
    st.countedClose = true := by
  rcases countClose_cases t id reason with ⟨same, counted⟩ | ⟨old, _, _, same⟩
  · rw [same] at found
    exact counted st found
  · rw [same] at found
    have changed : (t.modifyStream id StreamState.countClose).getStream id = some st := found
    rw [getStream_modifyStream, if_pos rfl] at changed
    obtain ⟨_, _, rfl⟩ := Option.map_eq_some_iff.mp changed
    exact countedClose_countClose _

theorem getStream_countClose_of_ne (t : StreamTable) {id other : Nat}
    (reason : Option ResetReason) (different : other ≠ id) :
    (t.countClose id reason).getStream other = t.getStream other := by
  rcases countClose_cases t id reason with ⟨same, _⟩ | ⟨_, _, _, same⟩
  · rw [same]
  · rw [same]
    exact (getStream_modifyStream t id other _).trans (if_neg different)

theorem uncounted_countClose {t : StreamTable} {id : Nat} {st : StreamState}
    (found : t.getStream id = some st) (latch : st.countedClose = false) :
    (t.modifyStream id StreamState.countClose).uncounted + 1 = t.uncounted := by
  have moved := OrdMap.total_modify_of_some
    (fun _ st : _ => if st.countedClose then 0 else 1) StreamState.countClose found
  simp only [latch, countedClose_countClose, if_true, Bool.false_eq_true, if_false,
    Nat.add_zero] at moved
  exact moved

theorem Balanced.countClose {t : StreamTable} (balanced : t.Balanced) (id : Nat)
    (reason : Option ResetReason) : (t.countClose id reason).Balanced := by
  rcases countClose_cases t id reason with ⟨same, _⟩ | ⟨st, found, latch, same⟩
  · rw [same]
    exact balanced
  · have fewer := uncounted_countClose found latch
    have oneMore := Scorecard.ends_observeEnd t.metrics (t.progressFine id st) reason
    have opened := balanced.opened
    have notYet := balanced.running id st found latch
    rw [same]
    constructor
    · exact balanced.consistent.observeEnd _ _
    · have sameOpened := Scorecard.streamsOpened_observeEnd t.metrics (t.progressFine id st) reason
      change (t.metrics.observeEnd (t.progressFine id st) reason).streamsOpened =
        (t.metrics.observeEnd (t.progressFine id st) reason).streamsClosed +
          (t.metrics.observeEnd (t.progressFine id st) reason).streamResets +
          (t.modifyStream id _).uncounted
      omega
    · exact (congrArg (· + 1) balanced.ends).trans oneMore.symm
    · exact List.nodup_cons.mpr ⟨notYet, balanced.once⟩
    · intro other k membership
      rcases List.mem_cons.mp membership with this | earlier
      · cases this
        exact le_rfl
      · exact balanced.past other k earlier
    · intro other running foundRunning isOpen membership
      rcases OrdMap.get?_modify_cases foundRunning with ⟨-, _, -, rfl⟩ | ⟨different, before⟩
      · rw [countedClose_countClose] at isOpen
        cases isOpen
      · rcases List.mem_cons.mp membership with this | earlier
        · exact different (congrArg Prod.fst this)
        · exact balanced.running other running before isOpen earlier

theorem Settled.countClose {t : StreamTable} (id : Nat) (reason : Option ResetReason)
    (others : ∀ other st, other ≠ id → t.getStream other = some st → st.reset = true →
      st.countedClose = true) : (t.countClose id reason).Settled := by
  intro other st found reset
  by_cases same : other = id
  · subst same
    exact counted_of_countClose found
  · rw [getStream_countClose_of_ne t reason same] at found
    exact others other st same found reset

/-! ## Leaving the table -/

theorem getStream_removeHeldStream (t : StreamTable) (id other : Nat) :
    (t.removeHeldStream id).getStream other = if other = id then none else t.getStream other := by
  unfold removeHeldStream
  split
  · rename_i missing
    by_cases same : other = id
    · rw [if_pos same, same]
      exact missing
    · rw [if_neg same]
  · exact OrdMap.get?_erase t.streams id other

theorem Balanced.removeHeldStream {t : StreamTable} (balanced : t.Balanced) {id : Nat}
    (counted : ∀ st, t.getStream id = some st → st.countedClose = true) :
    (t.removeHeldStream id).Balanced := by
  refine Balanced.of_same balanced ?_ ?_ ?_
  · unfold StreamTable.removeHeldStream
    split
    · exact ⟨rfl, rfl, rfl⟩
    · exact ⟨rfl, rfl, rfl⟩
  · unfold StreamTable.removeHeldStream
    split
    · rfl
    · rename_i st found
      have without := OrdMap.total_erase_of_some
        (fun _ st : _ => if st.countedClose then 0 else 1) found
      simp only [counted st found, if_true, Nat.add_zero] at without
      exact without
  · intro other st found isOpen
    rw [getStream_removeHeldStream] at found
    split at found
    · cases found
    · exact ⟨st, found, isOpen⟩

theorem Settled.removeHeldStream {t : StreamTable} {id : Nat}
    (others : ∀ other st, other ≠ id → t.getStream other = some st → st.reset = true →
      st.countedClose = true) : (t.removeHeldStream id).Settled := by
  intro other st found reset
  rw [getStream_removeHeldStream] at found
  split at found
  · cases found
  · rename_i different
    exact others other st different found reset

/-! ## Every operation -/

/-- The invariant of a session at rest. -/
structure Accounted (t : StreamTable) : Prop where
  balanced : t.Balanced
  settled : t.Settled

/-- The change touches neither the latch nor the reset mark. -/
def KeepsLatch (change : StreamState → StreamState) : Prop :=
  ∀ st, (change st).countedClose = st.countedClose ∧ (change st).reset = st.reset

variable {t : StreamTable}

theorem Accounted.modifyStream (accounted : t.Accounted) (id : Nat)
    {change : StreamState → StreamState} (kept : KeepsLatch change) :
    (t.modifyStream id change).Accounted where
  balanced := accounted.balanced.modifyStream id fun st _ => (kept st).1
  settled := accounted.settled.modifyStream id fun st _ => kept st

theorem Accounted.of_same_streams {before after : StreamTable} (accounted : before.Accounted)
    (ledger : SameLedger before after) (streams : after.streams = before.streams) :
    after.Accounted where
  balanced := accounted.balanced.of_same_streams ledger streams
  settled := fun id st found =>
    accounted.settled id st ((congrArg (fun m => OrdMap.get? m id) streams).symm.trans found)

theorem Accounted.forgetOpen (accounted : t.Accounted) (id : Nat) :
    (t.forgetOpen id).Accounted :=
  accounted.of_same_streams ⟨rfl, rfl, rfl⟩ rfl

/-- A new stream is one more beginning, and one more stream whose end is still to come. -/
theorem Accounted.alloc (accounted : t.Accounted) {id : Nat} {allocated : StreamTable}
    (allocates : t.tryAllocLocalStream id = some allocated) : allocated.noteOpened.Accounted := by
  unfold tryAllocLocalStream at allocates
  split at allocates
  · cases allocates
  · rename_i held
    cases allocates
    have fresh : t.streams.get? id = none := Option.not_isSome_iff_eq_none.mp held
    have opened := accounted.balanced.opened
    have oneMore := OrdMap.total_insert_of_none
      (fun _ st : _ => if st.countedClose then 0 else 1) (.new id t.initialWindow t.chan) fresh
    constructor
    · constructor
      · exact ⟨accounted.balanced.consistent.byReason, accounted.balanced.consistent.linger⟩
      · change t.metrics.streamsOpened + 1 = t.metrics.streamsClosed + t.metrics.streamResets +
          (t.streams.insert id _).total _
        rw [oneMore, opened]
        rfl
      · exact accounted.balanced.ends
      · exact accounted.balanced.once
      · intro other k membership
        exact (accounted.balanced.past other k membership).trans (List.count_le_count_cons)
      · intro other st found isOpen membership
        have before := accounted.balanced.past _ _ membership
        change (t.streams.insert id _).get? other = some st at found
        rw [OrdMap.get?_insert] at found
        split at found
        · -- the end of the new stream would be one past all beginnings of its id so far
          rename_i same
          subst same
          change List.count other (other :: t.begun) ≤ List.count other t.begun at before
          rw [List.count_cons_self] at before
          omega
        · rename_i different
          change (other, List.count other (id :: t.begun)) ∈ t.ended at membership
          rw [List.count_cons_of_ne (Ne.symm different)] at membership
          exact accounted.balanced.running other st found isOpen membership
    · intro other st found reset
      change (t.streams.insert id _).get? other = some st at found
      rcases OrdMap.get?_insert_cases found with ⟨-, rfl⟩ | before
      · cases reset
      · exact accounted.settled other st before reset

/-- Winning or losing the latch and leaving the table; the reset mark of the leaving stream may
be ahead of its latch. -/
theorem Balanced.leave (balanced : t.Balanced) {id : Nat} (reason : Option ResetReason)
    (others : ∀ other st, other ≠ id → t.getStream other = some st → st.reset = true →
      st.countedClose = true) : ((t.countClose id reason).removeHeldStream id).Accounted where
  balanced := (balanced.countClose id reason).removeHeldStream fun _ found =>
    counted_of_countClose found
  settled := by
    apply Settled.removeHeldStream
    intro other st different found
    rw [getStream_countClose_of_ne t reason different] at found
    exact others other st different found

theorem Accounted.leave (accounted : t.Accounted) (id : Nat) (reason : Option ResetReason) :
    ((t.countClose id reason).removeHeldStream id).Accounted :=
  accounted.balanced.leave reason fun other st _ => accounted.settled other st

theorem countedClose_setReset (st : StreamState) (reason : ResetReason) (openPending : Bool) :
    (st.setReset reason openPending).countedClose = st.countedClose := by
  unfold StreamState.setReset
  split
  · rfl
  · split
    · rfl
    · rfl

theorem Accounted.finishStream (accounted : t.Accounted) (id : Nat) (reason : ResetReason) :
    (t.finishStream id reason).Accounted := by
  apply Balanced.leave
  · exact accounted.balanced.modifyStream id fun st _ => countedClose_setReset st _ _
  · intro other st different found
    rw [getStream_modifyStream, if_neg different] at found
    exact accounted.settled other st found

theorem Accounted.maybeCountGraceful (accounted : t.Accounted) (id : Nat) :
    (t.maybeCountGraceful id).Accounted := by
  unfold StreamTable.maybeCountGraceful
  split
  · exact accounted
  · split
    · exact accounted
    · exact accounted.leave id none

theorem keepsLatch_setRecvFin : KeepsLatch StreamState.setRecvFin := by
  intro st
  unfold StreamState.setRecvFin
  split
  · exact ⟨rfl, rfl⟩
  · exact ⟨rfl, rfl⟩

theorem Accounted.closeSend (accounted : t.Accounted) (id : Nat) : (t.closeSend id).Accounted := by
  unfold StreamTable.closeSend
  split
  · exact accounted
  · split
    · exact accounted
    · apply Accounted.maybeCountGraceful
      exact accounted.modifyStream id fun _ => ⟨rfl, rfl⟩

theorem Accounted.tryFinishRecvClose (accounted : t.Accounted) (id : Nat) :
    (t.tryFinishRecvClose id).Accounted := by
  unfold StreamTable.tryFinishRecvClose
  split
  · exact accounted
  · split
    · exact accounted
    · split
      · exact accounted
      · apply Accounted.maybeCountGraceful
        exact accounted.modifyStream id fun st => keepsLatch_setRecvFin st

theorem Accounted.onPeerClose (accounted : t.Accounted) (close : StreamClose) :
    (t.onPeerClose close).Accounted := by
  apply Accounted.tryFinishRecvClose
  apply accounted.modifyStream
  intro st
  simp only [StreamState.announceFinal]
  split
  · exact ⟨rfl, rfl⟩
  · exact ⟨rfl, rfl⟩

/-- The end of a stream without a reset: count it, tell the application, take it out. -/
theorem Accounted.closeQuietly (accounted : t.Accounted) (id : Nat) :
    (((t.countClose id (some .timeout)).modifyStream id
      StreamState.setRecvFin).removeHeldStream id).Accounted where
  balanced := by
    apply Balanced.removeHeldStream
    · exact (accounted.balanced.countClose id _).modifyStream id
        fun st _ => (keepsLatch_setRecvFin st).1
    · intro st found
      rw [getStream_modifyStream, if_pos rfl] at found
      obtain ⟨old, foundOld, rfl⟩ := Option.map_eq_some_iff.mp found
      exact (keepsLatch_setRecvFin old).1.trans (counted_of_countClose foundOld)
  settled := by
    apply Settled.removeHeldStream
    intro other st different found
    rw [getStream_modifyStream, if_neg different, getStream_countClose_of_ne t _ different] at found
    exact accounted.settled other st found

theorem Accounted.lingerReapProgressFine (accounted : t.Accounted) (id : Nat) :
    (t.lingerReapProgressFine id).Accounted := by
  unfold StreamTable.lingerReapProgressFine
  split
  · exact accounted
  · split
    · exact accounted.finishStream id _
    · split
      · exact accounted
      · exact accounted.closeQuietly id

theorem Accounted.residualDClient (accounted : t.Accounted) (id : Nat) :
    (t.residualDClient id).Accounted := by
  unfold StreamTable.residualDClient
  split
  · exact accounted
  · split
    · split
      · exact accounted.lingerReapProgressFine id
      · exact accounted.finishStream id _
    · split
      · exact accounted
      · exact accounted.closeQuietly id

theorem Accounted.reapTimeout (accounted : t.Accounted) (id : Nat) :
    (t.reapTimeout id).Accounted := by
  unfold StreamTable.reapTimeout
  split
  · exact accounted
  · split
    · split
      · exact accounted.lingerReapProgressFine id
      · exact accounted.residualDClient id
    · exact accounted.finishStream id _

theorem Accounted.removeHeldStream (accounted : t.Accounted) {id : Nat}
    (dropped : ∀ st, t.getStream id = some st → dropId st = true) :
    (t.removeHeldStream id).Accounted where
  balanced := accounted.balanced.removeHeldStream fun st found =>
    (Bool.or_eq_true_iff.mp (dropped st found)).elim (fun counted => counted)
      (accounted.settled _ st found)
  settled := Settled.removeHeldStream fun other st _ => accounted.settled other st

/-- A loop over stream ids keeps what each of its rounds keeps. -/
theorem Accounted.foldl (accounted : t.Accounted) {round : StreamTable → Nat → StreamTable}
    (keeps : ∀ {t : StreamTable}, t.Accounted → ∀ id, (round t id).Accounted) (ids : List Nat) :
    (ids.foldl round t).Accounted := by
  induction ids generalizing t with
  | nil => exact accounted
  | cons id rest inductionHypothesis => exact inductionHypothesis (keeps accounted id)

theorem mem_idsWhere {keep : Nat → StreamState → Bool} {id : Nat} {st : StreamState}
    (membership : id ∈ t.idsWhere keep) (found : t.getStream id = some st) :
    keep id st = true := by
  obtain ⟨⟨other, held⟩, inTable, rfl⟩ := List.mem_map.mp membership
  have kept := OrdMap.get?_filter_eq_some_iff.mp (OrdMap.get?_eq_some_iff.mpr inTable)
  obtain rfl : st = held := Option.some.inj (found.symm.trans kept.1)
  exact kept.2

/-- Removing streams only removes streams, so those still to be dropped stay droppable. -/
theorem Accounted.dropStreams (accounted : t.Accounted) (ids : List Nat)
    (dropped : ∀ id ∈ ids, ∀ st, t.getStream id = some st → dropId st = true) :
    (ids.foldl StreamTable.removeHeldStream t).Accounted := by
  induction ids generalizing t with
  | nil => exact accounted
  | cons id rest inductionHypothesis =>
      apply inductionHypothesis (accounted.removeHeldStream (dropped id (by simp)))
      intro other inRest st found
      rw [getStream_removeHeldStream] at found
      split at found
      · cases found
      · exact dropped other (by simp [inRest]) st found

theorem Accounted.reapClosedStreams (accounted : t.Accounted) (expired : List Nat) :
    (t.reapClosedStreams expired).Accounted := by
  apply Accounted.foldl
  · apply accounted.dropStreams
    intro id membership st found
    exact mem_idsWhere membership found
  · exact fun accounted id => accounted.reapTimeout id

theorem Accounted.reapStream (accounted : t.Accounted) (id : Nat) :
    (t.reapStream id).Accounted := by
  unfold StreamTable.reapStream
  split
  · exact accounted
  · rename_i st found
    split
    · rename_i counted
      apply accounted.removeHeldStream
      intro held foundHeld
      obtain rfl : held = st := Option.some.inj (foundHeld.symm.trans found)
      exact Bool.or_eq_true_iff.mpr (.inl counted)
    · split
      · exact accounted.maybeCountGraceful id
      · split
        · exact accounted
        · exact accounted.finishStream id _

theorem Accounted.resetAll (accounted : t.Accounted) (reason : ResetReason) :
    (t.resetAll reason).Accounted :=
  accounted.foldl (fun accounted id => accounted.finishStream id reason) _

theorem Accounted.markDead (accounted : t.Accounted) : t.markDead.Accounted := by
  unfold StreamTable.markDead
  split
  · exact accounted
  · apply Accounted.resetAll
    exact accounted.of_same_streams ⟨rfl, rfl, rfl⟩ rfl

theorem Accounted.dropStream (accounted : t.Accounted) (id : Nat) :
    (t.dropStream id).Accounted where
  balanced := by
    apply Balanced.countClose
    exact accounted.balanced.modifyStream id fun _ _ => rfl
  settled := by
    apply Settled.countClose
    intro other st different found
    rw [getStream_modifyStream, if_neg different] at found
    exact accounted.settled other st found

theorem Accounted.dropSession (accounted : t.Accounted) : t.dropSession.Accounted := by
  unfold StreamTable.dropSession
  split
  · exact accounted
  · apply Accounted.foldl
    · exact accounted.of_same_streams ⟨rfl, rfl, rfl⟩ rfl
    · exact fun accounted id => accounted.dropStream id

theorem keepsLatch_drainTuned (inputs : CapInputs) :
    KeepsLatch fun st => st.drainTuned inputs := by
  intro st
  have drained : (StreamState.drainLoop st.recvBuf.size st).countedClose = st.countedClose ∧
      (StreamState.drainLoop st.recvBuf.size st).reset = st.reset :=
    @StreamState.drainLoop_induction
      (fun reached => reached.countedClose = st.countedClose ∧ reached.reset = st.reset)
      (fun _ _ _ same _ _ => same) st.recvBuf.size st ⟨rfl, rfl⟩
  simp only [StreamState.drainTuned]
  split
  · exact drained
  · exact drained

theorem Accounted.drainRecv (accounted : t.Accounted) (id : Nat) (inputs : CapInputs) :
    (t.drainRecv id inputs).Accounted := by
  apply Accounted.tryFinishRecvClose
  exact accounted.modifyStream id (keepsLatch_drainTuned inputs)

theorem Accounted.noteAppRead (accounted : t.Accounted) (id n : Nat) (inputs : CapInputs) :
    (t.noteAppRead id n inputs).Accounted := by
  apply Accounted.drainRecv
  exact accounted.modifyStream id fun _ => ⟨rfl, rfl⟩

theorem Accounted.deliverData (accounted : t.Accounted) (path : Nat) (data : StreamData)
    (inputs : CapInputs) : (t.deliverData path data inputs).Accounted := by
  unfold StreamTable.deliverData
  split
  · exact accounted
  · rename_i st found
    split
    · exact accounted
    · have arrived : (t.modifyStream data.streamId fun st => st.noteArrival path).Accounted :=
        accounted.modifyStream data.streamId fun _ => ⟨rfl, rfl⟩
      have seen : (if st.peerSeen then t.modifyStream data.streamId fun st => st.noteArrival path
          else (t.modifyStream data.streamId fun st => st.noteArrival path).forgetOpen
            data.streamId).Accounted := by
        split
        · exact arrived
        · exact arrived.forgetOpen data.streamId
      simp only
      split
      · exact seen
      · split
        · exact seen.modifyStream data.streamId fun _ => ⟨rfl, rfl⟩
        · apply Accounted.drainRecv
          exact seen.modifyStream data.streamId fun _ => ⟨rfl, rfl⟩

theorem Accounted.onData (accounted : t.Accounted) (path : Nat) (data : StreamData)
    (inputs : CapInputs) : (t.onData path data inputs).Accounted := by
  unfold StreamTable.onData
  split
  · exact accounted.of_same_streams ⟨rfl, rfl, rfl⟩ rfl
  · exact accounted.deliverData path data inputs

theorem keepsLatch_onAck (ack : StreamAck) (now : Nat) :
    KeepsLatch fun st => st.onAck ack now := by
  intro st
  simp only [StreamState.onAck, StreamState.ackSelective, StreamState.ackCumulative]
  split
  · split
    · exact ⟨rfl, rfl⟩
    · exact ⟨rfl, rfl⟩
  · split
    · exact ⟨rfl, rfl⟩
    · exact ⟨rfl, rfl⟩

theorem Accounted.onAck (accounted : t.Accounted) (ack : StreamAck) (now : Nat) :
    (t.onAck ack now).Accounted := by
  unfold StreamTable.onAck
  split
  · exact accounted
  · exact (accounted.modifyStream ack.streamId (keepsLatch_onAck ack now)).forgetOpen ack.streamId

theorem Accounted.acceptRemoteStream (accounted : t.Accounted) (id : Nat) (inputs : CapInputs)
    (incoming : Incoming) : (t.acceptRemoteStream id inputs incoming).1.Accounted := by
  unfold StreamTable.acceptRemoteStream
  split
  · exact accounted
  · rename_i allocated allocates
    have replayed : ((allocated.noteOpened.takeEarlyData id).1.foldl
        (fun t piece => t.deliverData piece.1 piece.2 inputs)
        (allocated.noteOpened.takeEarlyData id).2).Accounted := by
      have begins : (allocated.noteOpened.takeEarlyData id).2.Accounted :=
        (accounted.alloc allocates).of_same_streams ⟨rfl, rfl, rfl⟩ rfl
      exact List.foldlRecOn _ _ begins fun _ accounted piece _ =>
        accounted.deliverData piece.1 piece.2 inputs
    cases incoming with
    | absent => exact replayed
    | room => exact replayed
    | full => exact replayed.finishStream id .protocol

theorem Accounted.openStream (accounted : t.Accounted) {target : Target} {path : Nat}
    {opened : StreamTable} (opens : t.openStream target path = some opened) :
    opened.Accounted := by
  unfold StreamTable.openStream at opens
  split at opens
  · obtain ⟨allocated, allocates, rfl⟩ := Option.map_eq_some_iff.mp opens
    have next : { t with nextStreamId := t.nextStreamId + 1 }.Accounted :=
      accounted.of_same_streams ⟨rfl, rfl, rfl⟩ rfl
    exact (next.alloc allocates).of_same_streams ⟨rfl, rfl, rfl⟩ rfl
  · cases opens

/-- Every operation keeps the account. -/
theorem Accounted.step (accounted : t.Accounted) {action : TableAction} {next : StreamTable}
    (taken : t.step action = some next) : next.Accounted := by
  cases action with
  | openStream target path => exact accounted.openStream taken
  | acceptRemoteStream id inputs incoming =>
      simp only [StreamTable.step] at taken
      split at taken
      · cases taken
      · cases taken
        exact accounted.acceptRemoteStream id inputs incoming
  | sendPiece id piece path now =>
      cases taken
      exact accounted.modifyStream id fun _ => ⟨rfl, rfl⟩
  | data path body inputs =>
      cases taken
      exact accounted.onData path body inputs
  | ack body now =>
      cases taken
      exact accounted.onAck body now
  | appRead id n inputs =>
      cases taken
      exact accounted.noteAppRead id n inputs
  | closeSend id =>
      cases taken
      exact accounted.closeSend id
  | peerClose close =>
      cases taken
      exact accounted.onPeerClose close
  | peerReset reset =>
      cases taken
      exact accounted.finishStream reset.streamId reset.reason
  | resetStream id reason =>
      cases taken
      exact accounted.finishStream id reason
  | resetAll reason =>
      cases taken
      exact accounted.resetAll reason
  | expireRecvClose id =>
      cases taken
      exact accounted.tryFinishRecvClose id
  | expireEarlyData count =>
      cases taken
      exact accounted.of_same_streams ⟨rfl, rfl, rfl⟩ rfl
  | lingerReap id =>
      cases taken
      exact accounted.lingerReapProgressFine id
  | residual id =>
      cases taken
      exact accounted.residualDClient id
  | reapClosedStreams expired =>
      cases taken
      exact accounted.reapClosedStreams expired
  | reapStream id =>
      cases taken
      exact accounted.reapStream id
  | markDead =>
      cases taken
      exact accounted.markDead
  | dropSession =>
      cases taken
      exact accounted.dropSession

theorem accounted_new (isClient : Bool) (initialWindow chan : Nat) :
    (new isClient initialWindow chan).Accounted where
  balanced :=
    { consistent := ⟨rfl, le_rfl⟩
      opened := rfl
      ends := rfl
      once := List.nodup_nil
      past := fun _ _ membership => absurd membership List.not_mem_nil
      running := fun _ _ _ _ => List.not_mem_nil }
  settled := fun _ _ found => by cases found

theorem accounted_of_reachable (reachable : machine.Reachable t) : t.Accounted := by
  refine reachable.invariant Accounted ?_ fun _ _ _ accounted taken => accounted.step taken
  rintro _ ⟨isClient, initialWindow, chan, rfl⟩
  exact accounted_new isClient initialWindow chan

/-- Conservation: every stream ever opened is closed, reset, or in the table and not counted yet;
the resets are the sum of their reasons, linger reaps are closes, and of no stream two ends
were counted. -/
theorem scorecard_conserved (reachable : machine.Reachable t) :
    t.metrics.streamsOpened =
        t.metrics.streamsClosed + t.metrics.streamResets + t.uncounted ∧
      t.metrics.streamResets = t.metrics.resetsByReason ∧
      t.metrics.streamReapsLinger ≤ t.metrics.streamsClosed ∧
      t.ended.length = t.metrics.streamsClosed + t.metrics.streamResets ∧ t.ended.Nodup := by
  have balanced := (accounted_of_reachable reachable).balanced
  exact ⟨balanced.opened, balanced.consistent.byReason, balanced.consistent.linger,
    balanced.ends, balanced.once⟩

/-- Both FINs, a timeout before the StreamOpen was answered, a linger reap, and one stream that
goes on. -/
def fourStreams : List TableAction :=
  [.openStream ⟨"a", 80⟩ 1, .openStream ⟨"b", 80⟩ 1, .openStream ⟨"c", 80⟩ 1,
    .openStream ⟨"d", 80⟩ 1, .closeSend 1, .peerClose ⟨1, some 0⟩, .resetStream 2 .timeout,
    .ack ⟨3, 0, 65536, []⟩ 5, .closeSend 3, .reapClosedStreams [3], .resetStream 3 .unknown]

theorem scorecard_conserved_four_streams : ∃ t,
    machine.run (new true 65536 8) fourStreams = some t ∧
      (t.metrics.streamsClosed = 2 ∧ t.metrics.streamReapsLinger = 1 ∧
        t.metrics.streamResetsTimeout = 1 ∧ t.uncounted = 1) ∧
      t.metrics.streamsOpened =
        t.metrics.streamsClosed + t.metrics.streamResets + t.uncounted ∧
      t.ended.Nodup := by
  have replayed : ∃ t, machine.run (new true 65536 8) fourStreams = some t ∧
      (t.metrics.streamsClosed = 2 ∧ t.metrics.streamReapsLinger = 1 ∧
        t.metrics.streamResetsTimeout = 1 ∧ t.uncounted = 1) :=
    ⟨_, rfl, rfl, rfl, rfl, rfl⟩
  obtain ⟨t, replay, counts⟩ := replayed
  have begins : machine.Reachable (new true 65536 8) := .start ⟨true, 65536, 8, rfl⟩
  have conserved := scorecard_conserved (begins.run replay)
  exact ⟨t, replay, counts, conserved.1, conserved.2.2.2.2⟩

end StreamTable

end NyaLink
