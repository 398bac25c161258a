import NyaLink.Session.Scorecard

/-!
# Ending streams of the table

The table's counterpart of `StreamState.Ending`.  Closing, resetting and reaping
take streams out of the table or set their flags; the streams that stay have the
bytes and the offsets they had.
-/

namespace NyaLink.StreamTable

/-- Every stream of `after` was in `before`, and only ended since. -/
structure Ending (before after : StreamTable) : Prop where
  initialWindow : after.initialWindow = before.initialWindow
  streams : ∀ id st, after.getStream id = some st →
    ∃ old, before.getStream id = some old ∧ StreamState.Ending old st

variable {t : StreamTable}

theorem Ending.refl (t : StreamTable) : Ending t t :=
  ⟨rfl, fun _ st found => ⟨st, found, StreamState.Ending.refl st⟩⟩

theorem Ending.trans {first second third : StreamTable} (earlier : Ending first second)
    (later : Ending second third) : Ending first third where
  initialWindow := later.initialWindow.trans earlier.initialWindow
  streams := by
    intro id st found
    obtain ⟨middle, foundMiddle, laterEnding⟩ := later.streams id st found
    obtain ⟨old, foundOld, earlierEnding⟩ := earlier.streams id middle foundMiddle
    exact ⟨old, foundOld, earlierEnding.trans laterEnding⟩

/-- A change beside the streams. -/
theorem Ending.of_same_streams {before after : StreamTable}
    (streams : after.streams = before.streams)
    (initialWindow : after.initialWindow = before.initialWindow) : Ending before after where
  initialWindow := initialWindow
  streams := by
    intro id st found
    have sameGet : before.getStream id = after.getStream id :=
      congrArg (fun m => OrdMap.get? m id) streams.symm
    exact ⟨st, sameGet.trans found, StreamState.Ending.refl st⟩

theorem ending_modifyStream (t : StreamTable) (id : Nat) {change : StreamState → StreamState}
    (ends : ∀ st, StreamState.Ending st (change st)) : Ending t (t.modifyStream id change) where
  initialWindow := rfl
  streams := by
    intro other st found
    rcases OrdMap.get?_modify_cases found with ⟨-, old, foundOld, rfl⟩ | ⟨-, foundOld⟩
    · exact ⟨old, foundOld, ends old⟩
    · exact ⟨st, foundOld, StreamState.Ending.refl st⟩

theorem ending_forgetOpen (t : StreamTable) (id : Nat) : Ending t (t.forgetOpen id) :=
  .of_same_streams rfl rfl

theorem ending_removeHeldStream (t : StreamTable) (id : Nat) :
    Ending t (t.removeHeldStream id) where
  initialWindow := by
    unfold StreamTable.removeHeldStream
    split
    · rfl
    · rfl
  streams := by
    intro other st found
    rw [getStream_removeHeldStream] at found
    split at found
    · cases found
    · exact ⟨st, found, StreamState.Ending.refl st⟩

theorem ending_countClose (t : StreamTable) (id : Nat) (reason : Option ResetReason) :
    Ending t (t.countClose id reason) := by
  unfold StreamTable.countClose
  split
  · exact .refl t
  · split
    · exact .refl t
    · exact (ending_modifyStream t id StreamState.ending_countClose).trans
        (.of_same_streams rfl rfl)

theorem ending_leave (t : StreamTable) (id : Nat) (reason : Option ResetReason) :
    Ending t ((t.countClose id reason).removeHeldStream id) :=
  (ending_countClose t id reason).trans (ending_removeHeldStream _ id)

theorem ending_maybeCountGraceful (t : StreamTable) (id : Nat) :
    Ending t (t.maybeCountGraceful id) := by
  unfold StreamTable.maybeCountGraceful
  split
  · exact .refl t
  · split
    · exact .refl t
    · exact ending_leave t id none

theorem ending_finishStream (t : StreamTable) (id : Nat) (reason : ResetReason) :
    Ending t (t.finishStream id reason) := by
  apply Ending.trans (ending_modifyStream t id ?_) (ending_leave _ id _)
  exact fun st => StreamState.ending_setReset st reason _

theorem ending_applyRecvFin (t : StreamTable) (id : Nat) : Ending t (t.applyRecvFin id) := by
  apply Ending.trans (ending_modifyStream t id ?_) (ending_maybeCountGraceful _ id)
  exact fun st => (StreamState.ending_setRecvFin st).trans (StreamState.ending_unstick _)

theorem ending_tryFinishRecvClose (t : StreamTable) (id : Nat) :
    Ending t (t.tryFinishRecvClose id) := by
  unfold StreamTable.tryFinishRecvClose
  split
  · exact .refl t
  · split
    · exact .refl t
    · split
      · exact .refl t
      · exact ending_applyRecvFin t id

theorem ending_announceFinal (st : StreamState) (close : StreamClose) :
    StreamState.Ending st (st.announceFinal close) := by
  unfold StreamState.announceFinal
  split
  · exact .refl st
  · exact { StreamState.Ending.refl st with }

theorem ending_onPeerClose (t : StreamTable) (close : StreamClose) :
    Ending t (t.onPeerClose close) := by
  apply Ending.trans (ending_modifyStream t close.streamId ?_) (ending_tryFinishRecvClose _ _)
  exact fun st => ending_announceFinal st close

/-- The end of a stream without a reset. -/
theorem ending_closeQuietly (t : StreamTable) (id : Nat) :
    Ending t (((t.countClose id (some .timeout)).modifyStream id
      StreamState.setRecvFin).removeHeldStream id) := by
  have counted := ending_countClose t id (some .timeout)
  have told := counted.trans (ending_modifyStream _ id StreamState.ending_setRecvFin)
  exact told.trans (ending_removeHeldStream _ id)

theorem ending_lingerReapProgressFine (t : StreamTable) (id : Nat) :
    Ending t (t.lingerReapProgressFine id) := by
  unfold StreamTable.lingerReapProgressFine
  split
  · exact .refl t
  · split
    · exact ending_finishStream t id .timeout
    · split
      · exact .refl t
      · exact ending_closeQuietly t id

theorem ending_residualDClient (t : StreamTable) (id : Nat) : Ending t (t.residualDClient id) := by
  unfold StreamTable.residualDClient
  split
  · exact .refl t
  · split
    · split
      · exact ending_lingerReapProgressFine t id
      · exact ending_finishStream t id .timeout
    · split
      · exact .refl t
      · exact ending_closeQuietly t id

theorem ending_reapTimeout (t : StreamTable) (id : Nat) : Ending t (t.reapTimeout id) := by
  unfold StreamTable.reapTimeout
  split
  · exact .refl t
  · split
    · split
      · exact ending_lingerReapProgressFine t id
      · exact ending_residualDClient t id
    · exact ending_finishStream t id .timeout

theorem ending_reapStream (t : StreamTable) (id : Nat) : Ending t (t.reapStream id) := by
  unfold StreamTable.reapStream
  split
  · exact .refl t
  · split
    · exact ending_removeHeldStream t id
    · split
      · exact ending_maybeCountGraceful t id
      · split
        · exact .refl t
        · exact ending_finishStream t id .timeout

/-- A loop over stream ids only ends streams when each of its rounds does. -/
theorem ending_foldl {round : StreamTable → Nat → StreamTable}
    (ends : ∀ t id, Ending t (round t id)) (ids : List Nat) (t : StreamTable) :
    Ending t (ids.foldl round t) := by
  induction ids generalizing t with
  | nil => exact .refl t
  | cons id rest inductionHypothesis => exact (ends t id).trans (inductionHypothesis (round t id))

theorem ending_reapClosedStreams (t : StreamTable) (expired : List Nat) :
    Ending t (t.reapClosedStreams expired) := by
  have dropped := ending_foldl ending_removeHeldStream (t.idsWhere fun _ st => dropId st) t
  exact dropped.trans (ending_foldl ending_reapTimeout _ _)

theorem ending_resetAll (t : StreamTable) (reason : ResetReason) : Ending t (t.resetAll reason) :=
  ending_foldl (fun t id => ending_finishStream t id reason) _ t

theorem ending_markDead (t : StreamTable) : Ending t t.markDead := by
  unfold StreamTable.markDead
  split
  · exact .refl t
  · have marked : Ending t { t with dead := true } := .of_same_streams rfl rfl
    exact marked.trans (ending_resetAll _ .sessionDead)

theorem ending_dropStream (t : StreamTable) (id : Nat) : Ending t (t.dropStream id) := by
  apply Ending.trans (ending_modifyStream t id ?_) (ending_countClose _ id _)
  intro st
  have flagged : StreamState.Ending st { st with reset := true } :=
    { StreamState.Ending.refl st with reset := fun _ => rfl }
  exact flagged.offer rfl

theorem ending_dropSession (t : StreamTable) : Ending t t.dropSession := by
  unfold StreamTable.dropSession
  split
  · exact .refl t
  · have marked : Ending t { t with dead := true } := .of_same_streams rfl rfl
    exact marked.trans (ending_foldl ending_dropStream _ _)

/-- The operations that neither begin a stream nor move a byte of one. -/
def endsOnly : TableAction → Bool
  | .peerClose _ | .peerReset _ | .resetStream _ _ | .resetAll _ | .expireRecvClose _
  | .expireEarlyData _ | .lingerReap _ | .residual _ | .reapClosedStreams _ | .reapStream _
  | .markDead | .dropSession => true
  | _ => false

theorem ending_step {action : TableAction} {next : StreamTable} (quiet : endsOnly action = true)
    (taken : t.step action = some next) : Ending t next := by
  cases action with
  | peerClose close =>
      cases taken
      exact ending_onPeerClose t close
  | peerReset reset =>
      cases taken
      exact ending_finishStream t reset.streamId reset.reason
  | resetStream id reason =>
      cases taken
      exact ending_finishStream t id reason
  | resetAll reason =>
      cases taken
      exact ending_resetAll t reason
  | expireRecvClose id =>
      cases taken
      exact ending_tryFinishRecvClose t id
  | expireEarlyData count =>
      cases taken
      exact .of_same_streams rfl rfl
  | lingerReap id =>
      cases taken
      exact ending_lingerReapProgressFine t id
  | residual id =>
      cases taken
      exact ending_residualDClient t id
  | reapClosedStreams expired =>
      cases taken
      exact ending_reapClosedStreams t expired
  | reapStream id =>
      cases taken
      exact ending_reapStream t id
  | markDead =>
      cases taken
      exact ending_markDead t
  | dropSession =>
      cases taken
      exact ending_dropSession t
  | _ => cases quiet

end NyaLink.StreamTable
