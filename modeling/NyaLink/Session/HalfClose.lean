import NyaLink.Session.TriedOnce

/-!
# A half-closed stream and its record

A stream whose FIN was sent and whose peer has not finished.  `Keeps` says what
an operation leaves of the record of its close: the mark, and the entry until
the linger.  One lemma for each operation but `close_send`.
-/

namespace NyaLink

namespace StreamState

/-- While the stream stays in the table and the peer has not finished, its end is not counted. -/
structure StaysOpen (before after : StreamState) : Prop where
  gone : before.gone = true → after.gone = true
  flags : after.gone = false → after.recvFin = false →
    before.recvFin = false ∧ after.countedClose = before.countedClose

theorem StaysOpen.of_same {before after : StreamState} (gone : after.gone = before.gone)
    (recvFin : after.recvFin = before.recvFin)
    (counted : after.countedClose = before.countedClose) : StaysOpen before after :=
  ⟨fun removed => gone.trans removed, fun _ unfinished => ⟨recvFin.symm.trans unfinished, counted⟩⟩

theorem StaysOpen.refl (st : StreamState) : StaysOpen st st := .of_same rfl rfl rfl

theorem StaysOpen.trans {first second third : StreamState} (earlier : StaysOpen first second)
    (later : StaysOpen second third) : StaysOpen first third where
  gone removed := later.gone (earlier.gone removed)
  flags := by
    intro present unfinished
    obtain ⟨between, sameLater⟩ := later.flags present unfinished
    have presentBetween : second.gone = false := by
      cases gone : second.gone with
      | false => rfl
      | true => exact absurd ((later.gone gone).symm.trans present) Bool.true_eq_false_eq_False
    obtain ⟨before, sameEarlier⟩ := earlier.flags presentBetween between
    exact ⟨before, sameLater.trans sameEarlier⟩

theorem staysOpen_of_gone {before after : StreamState} (gone : after.gone = true) :
    StaysOpen before after :=
  ⟨fun _ => gone, fun present => absurd (gone.symm.trans present) (by decide)⟩

theorem staysOpen_maybeCountGraceful (st : StreamState) : StaysOpen st st.maybeCountGraceful := by
  unfold maybeCountGraceful
  split
  · exact .refl st
  · exact staysOpen_of_gone (gone_removeHeldStream _)

theorem gone_setRecvFin (st : StreamState) : st.setRecvFin.gone = st.gone := by
  unfold setRecvFin
  split
  · rfl
  · rfl

theorem recvFin_setRecvFin (st : StreamState) : st.setRecvFin.recvFin = true := by
  unfold setRecvFin
  split
  · assumption
  · rfl

theorem staysOpen_setRecvFin (st : StreamState) : StaysOpen st st.setRecvFin :=
  ⟨fun gone => (gone_setRecvFin st).trans gone,
    fun _ unfinished => absurd ((recvFin_setRecvFin st).symm.trans unfinished) (by decide)⟩

theorem staysOpen_tryFinishRecvClose (st : StreamState) : StaysOpen st st.tryFinishRecvClose := by
  unfold tryFinishRecvClose
  split
  · exact .refl st
  · split
    · exact .refl st
    · have unstuck : StaysOpen st.setRecvFin st.setRecvFin.unstick := .of_same rfl rfl rfl
      exact ((staysOpen_setRecvFin st).trans unstuck).trans (staysOpen_maybeCountGraceful _)

theorem staysOpen_drainRecv (st : StreamState) (inputs : CapInputs) :
    StaysOpen st (st.drainRecv inputs).1 := by
  obtain ⟨tuned, origin, result⟩ := drainRecv_eq st inputs
  have drained : StaysOpen st (drainLoop st.recvBuf.size st) :=
    @drainLoop_induction (fun reached => StaysOpen st reached)
      (fun reached _ _ stays _ _ => stays.trans (.of_same rfl rfl rfl)) st.recvBuf.size st
        (.refl st)
  rw [result]
  rcases origin with rfl | rfl
  · exact drained.trans (staysOpen_tryFinishRecvClose _)
  · have capped : StaysOpen st ((drainLoop st.recvBuf.size st).tuneRecvCap inputs) :=
      drained.trans (.of_same rfl rfl rfl)
    exact capped.trans (staysOpen_tryFinishRecvClose _)

theorem Reaped.staysOpen {st after : StreamState} {openPending : Bool}
    (reaped : Reaped st openPending after) : StaysOpen st after := by
  cases reaped with
  | kept => exact .refl st
  | removed => exact staysOpen_of_gone (gone_removeHeldStream st)
  | counted => exact staysOpen_maybeCountGraceful st
  | quiet => exact staysOpen_of_gone (gone_removeHeldStream _)
  | reset => exact staysOpen_of_gone (gone_finishStream st _ _)

end StreamState

open StreamState

theorem StreamEvent.staysOpen (event : StreamEvent) (st : StreamState) :
    StaysOpen st (event.apply st) := by
  cases event with
  | data path body inputs =>
      simp only [apply, deliverData]
      split
      · exact .refl st
      · split
        · exact .refl st
        · split
          · exact .of_same rfl rfl rfl
          · split
            · exact .of_same rfl rfl rfl
            · have buffered : StaysOpen st
                  ((st.noteArrival path).bufferChunk body.offset body.data) := .of_same rfl rfl rfl
              exact buffered.trans (staysOpen_drainRecv _ inputs)
  | appRead n inputs =>
      have read : StaysOpen st { st with bufferedIn := st.bufferedIn - n } := .of_same rfl rfl rfl
      exact read.trans (staysOpen_drainRecv _ inputs)
  | closeSend =>
      simp only [apply, StreamState.closeSend]
      split
      · exact .refl st
      · have latched : StaysOpen st { st with sendFinSent := true }.unstick := .of_same rfl rfl rfl
        exact latched.trans (staysOpen_maybeCountGraceful _)
  | peerClose close =>
      simp only [apply, onPeerClose]
      split
      · exact staysOpen_tryFinishRecvClose st
      · have announced : StaysOpen st { st with
            recvCloseOff := some (close.finalOffset.getD st.recvNext) } := .of_same rfl rfl rfl
        exact announced.trans (staysOpen_tryFinishRecvClose _)
  | expireRecvClose => exact staysOpen_tryFinishRecvClose st
  | reset reason openPending => exact staysOpen_of_gone (gone_finishStream st reason openPending)
  | reapHalfClosed isClient openPending =>
      exact (st.reaped_reapHalfClosed isClient openPending).staysOpen
  | reapStream openPending => exact (st.reaped_reapStream openPending).staysOpen

/-- Only `close_send` sends the FIN. -/
theorem StreamEvent.sendFinSent_apply {event : StreamEvent} (other : event ≠ .closeSend)
    (st : StreamState) : (event.apply st).sendFinSent = st.sendFinSent := by
  cases event with
  | data path body inputs => exact (st.sendKept_deliverData path body inputs).sendFinSent
  | appRead n inputs => exact (st.sendKept_noteAppRead n inputs).sendFinSent
  | closeSend => exact absurd rfl other
  | peerClose close => exact (st.ending_onPeerClose close).sendFinSent
  | expireRecvClose => exact st.ending_tryFinishRecvClose.sendFinSent
  | reset reason openPending => exact (st.ending_finishStream reason openPending).sendFinSent
  | reapHalfClosed isClient openPending =>
      exact (st.reaped_reapHalfClosed isClient openPending).ending.sendFinSent
  | reapStream openPending => exact (st.reaped_reapStream openPending).ending.sendFinSent

namespace Session

theorem now_releasePieces (s : Session) (pieces : List (Nat × Unacked)) :
    (s.releasePieces pieces).now = s.now := by
  apply List.foldlRecOn
    (motive := fun reached : Session => reached.now = s.now)
  · rfl
  · intro reached same piece _
    exact same

/-- An event replaces its stream and leaves the clock. -/
theorem streamEvent_streams {s : Session} {id : Nat} {st : StreamState} (event : StreamEvent)
    (found : s.getStream id = some st) :
    (s.streamEvent id event).now = s.now ∧
      (s.streamEvent id event).streams = s.streams.modify id fun _ => event.apply st := by
  have released : ∀ after : StreamState,
      (if after.gone then s.releasePieces st.unacked.entries else s).now = s.now ∧
      (if after.gone then s.releasePieces st.unacked.entries else s).streams = s.streams := by
    intro after
    split
    · exact ⟨now_releasePieces s _, releasePieces_streams s _⟩
    · exact ⟨rfl, rfl⟩
  obtain ⟨now, streams⟩ := released (event.apply st)
  simp only [Session.streamEvent, found]
  split
  · exact ⟨now, by rw [← streams]; rfl⟩
  · exact ⟨now, by rw [← streams]; rfl⟩

end Session

namespace Controls

variable {cfg : PickConfig} {id : Nat}

/-- The stream is in the table with its FIN sent, and the peer has not finished. -/
def HalfClosed (c : Controls) (id : Nat) : Prop :=
  ∃ st, c.session.getStream id = some st ∧ st.sendFinSent = true ∧ st.recvFin = false

/-- What an operation leaves of the record of a half-closed stream. -/
structure Keeps (cfg : PickConfig) (id : Nat) (c after : Controls) : Prop where
  time : c.session.now ≤ after.session.now
  before : after.HalfClosed id → c.HalfClosed id
  mark : after.HalfClosed id → after.closedAt.get? id = c.closedAt.get? id
  entry : after.HalfClosed id → ∀ o, c.closes.get? id = some o →
    after.session.now - o.startedAt < cfg.closeLingerMs * 1000 →
    ∃ o', after.closes.get? id = some o' ∧ o'.startedAt = o.startedAt ∧
      o'.body.finalOffset = o.body.finalOffset

theorem Keeps.trans {c between after : Controls} (earlier : Keeps cfg id c between)
    (later : Keeps cfg id between after) : Keeps cfg id c after where
  time := earlier.time.trans later.time
  before halfClosed := earlier.before (later.before halfClosed)
  mark halfClosed := (later.mark halfClosed).trans (earlier.mark (later.before halfClosed))
  entry := by
    intro halfClosed o found recent
    have laterTime := later.time
    obtain ⟨o', foundBetween, started, final⟩ :=
      earlier.entry (later.before halfClosed) o found (by omega)
    obtain ⟨o'', foundAfter, startedAfter, finalAfter⟩ :=
      later.entry halfClosed o' foundBetween (by rwa [started])
    exact ⟨o'', foundAfter, startedAfter.trans started, finalAfter.trans final⟩

theorem halfClosed_congr {c after : Controls}
    (streams : after.session.streams.get? id = c.session.streams.get? id) :
    after.HalfClosed id ↔ c.HalfClosed id := by
  simp only [HalfClosed, Session.getStream, streams]

theorem Keeps.of_same {c after : Controls} (time : c.session.now ≤ after.session.now)
    (streams : after.session.streams.get? id = c.session.streams.get? id)
    (closes : after.closes.get? id = c.closes.get? id)
    (closedAt : after.closedAt.get? id = c.closedAt.get? id) : Keeps cfg id c after where
  time := time
  before := (halfClosed_congr streams).mp
  mark _ := closedAt
  entry _ o found _ := ⟨o, closes.trans found, rfl, rfl⟩

theorem Keeps.refl (c : Controls) : Keeps cfg id c c := .of_same le_rfl rfl rfl rfl

/-- Frames were offered to paths. -/
theorem keeps_of_offers {c after : Controls} {n : Nat}
    (offers : Session.Offers c.session after.session n)
    (closes : after.closes.get? id = c.closes.get? id)
    (closedAt : after.closedAt = c.closedAt) : Keeps cfg id c after :=
  .of_same offers.now.ge (by rw [offers.streams]) closes (by rw [closedAt])

/-- A change of the stream that its flags do not show. -/
theorem keeps_modifyStream (c : Controls) (other : Nat) {change : StreamState → StreamState}
    (gone : ∀ st, (change st).gone = st.gone)
    (sent : ∀ st, (change st).sendFinSent = st.sendFinSent)
    (recvFin : ∀ st, (change st).recvFin = st.recvFin) :
    Keeps cfg id c { c with session := c.session.modifyStream other change } := by
  by_cases same : id = other
  · subst same
    refine ⟨le_rfl, ?_, fun _ => rfl, fun _ o found _ => ⟨o, found, rfl, rfl⟩⟩
    rintro ⟨after, present, finSent, unfinished⟩
    obtain ⟨stored, live⟩ := Session.getStream_eq_some_iff.mp present
    change (c.session.streams.modify id change).get? id = some after at stored
    rw [OrdMap.get?_modify_self] at stored
    obtain ⟨st, before, rfl⟩ := Option.map_eq_some_iff.mp stored
    refine ⟨st, Session.getStream_eq_some_iff.mpr ⟨before, ?_⟩, ?_, ?_⟩
    · exact (gone st).symm.trans live
    · exact (sent st).symm.trans finSent
    · exact (recvFin st).symm.trans unfinished
  · exact .of_same le_rfl (OrdMap.get?_modify_of_ne _ _ same) rfl rfl

/-! ## Events of the streams -/

theorem closes_followStream_of_ne (c : Controls) {other : Nat} (different : id ≠ other)
    (before after : StreamState) :
    (c.followStream other before after).closes.get? id = c.closes.get? id := by
  unfold followStream
  split
  · split
    · exact OrdMap.get?_erase_of_ne c.closes different
    · exact OrdMap.get?_erase_of_ne c.closes different
  · split
    · rfl
    · rfl

theorem followStream_rest (c : Controls) (other : Nat) (before after : StreamState) :
    (c.followStream other before after).session = c.session ∧
      (c.followStream other before after).closedAt = c.closedAt := by
  unfold followStream
  split
  · split
    · exact ⟨rfl, rfl⟩
    · exact ⟨rfl, rfl⟩
  · split
    · exact ⟨rfl, rfl⟩
    · exact ⟨rfl, rfl⟩

/-- Without a FIN and without a counted end, the close stays remembered. -/
theorem closes_followStream_of_open (c : Controls) {before after : StreamState}
    (unfinished : after.recvFin = false) (counted : after.countedClose = before.countedClose) :
    (c.followStream id before after).closes = c.closes := by
  have quiet : ((!before.recvFin && after.recvFin) ||
      (!before.countedClose && after.countedClose)) = false := by
    rw [unfinished, counted]
    cases before.countedClose with
    | false => simp
    | true => simp
  unfold followStream
  rw [quiet]
  simp only [Bool.false_eq_true, if_false]
  split
  · rfl
  · rfl

theorem getStream_streamEvent_self {c : Controls} {st : StreamState} (event : StreamEvent)
    (found : c.session.getStream id = some st) :
    (c.session.streamEvent id event).streams.get? id = some (event.apply st) := by
  rw [(Session.streamEvent_streams event found).2, OrdMap.get?_modify_self,
    (Session.getStream_eq_some_iff.mp found).1]
  rfl

theorem keeps_streamEvent_of_ne (c : Controls) {other : Nat} (different : id ≠ other)
    (event : StreamEvent) : Keeps cfg id c (c.streamEvent other event) := by
  unfold streamEvent
  split
  · exact .refl c
  · rename_i st found
    obtain ⟨now, streams⟩ := Session.streamEvent_streams event found
    obtain ⟨session, closedAt⟩ := followStream_rest
      { c with session := c.session.streamEvent other event } other st (event.apply st)
    refine .of_same ?_ ?_ (closes_followStream_of_ne _ different _ _) (by rw [closedAt])
    · rw [session]
      exact now.ge
    · rw [session, streams]
      exact OrdMap.get?_modify_of_ne _ _ different

theorem keeps_streamEvent (c : Controls) (other : Nat) {event : StreamEvent}
    (notClose : event ≠ .closeSend) : Keeps cfg id c (c.streamEvent other event) := by
  by_cases same : id = other
  · subst same
    cases found : c.session.getStream id with
    | none =>
        simp only [streamEvent, found]
        exact .refl c
    | some st =>
        simp only [streamEvent, found]
        obtain ⟨now, streams⟩ := Session.streamEvent_streams event found
        obtain ⟨session, closedAt⟩ := followStream_rest
          { c with session := c.session.streamEvent id event } id st (event.apply st)
        have flags : ∀ {after : Controls}, after.session = c.session.streamEvent id event →
            after.HalfClosed id → (event.apply st).gone = false ∧
              (event.apply st).sendFinSent = true ∧ (event.apply st).recvFin = false := by
          rintro after rest ⟨last, present, finSent, unfinished⟩
          obtain ⟨stored, live⟩ := Session.getStream_eq_some_iff.mp present
          rw [rest, getStream_streamEvent_self event found] at stored
          cases stored
          exact ⟨live, finSent, unfinished⟩
        refine ⟨?_, ?_, ?_, ?_⟩
        · rw [session]
          exact now.ge
        · intro halfClosed
          obtain ⟨live, finSent, unfinished⟩ := flags session halfClosed
          have opened := ((event.staysOpen st).flags live unfinished).1
          exact ⟨st, found, (StreamEvent.sendFinSent_apply notClose st).symm.trans finSent, opened⟩
        · intro _
          rw [closedAt]
        · intro halfClosed o held _
          obtain ⟨live, _, unfinished⟩ := flags session halfClosed
          have counted := ((event.staysOpen st).flags live unfinished).2
          refine ⟨o, ?_, rfl, rfl⟩
          rw [closes_followStream_of_open _ unfinished counted]
          exact held
  · exact keeps_streamEvent_of_ne c same event

/-! ## The retries -/

theorem HalfClosed.runs {c : Controls} (halfClosed : c.HalfClosed id)
    (o : Outstanding CloseBody) : c.closeRuns id o := by
  obtain ⟨st, found, _, unfinished⟩ := halfClosed
  exact ⟨st, found, fun _ => unfinished⟩

/-- A visit of a close that runs leaves its beginning and its final offset. -/
theorem kept_of_visit {c : Controls} {eligible : List Nat → Nat → Prop}
    {due : Session → Outstanding CloseBody → Bool}
    {refused : Nat → Outstanding CloseBody → Outstanding CloseBody} {slots : Nat}
    {w after : Work CloseBody} {o : Outstanding CloseBody} (halfClosed : c.HalfClosed id)
    (session : w.session = c.session)
    (visit : Work.Visit cfg.toSessionConfig (closeRules cfg.toSessionConfig) eligible due refused
      slots w after id o)
    (keeps : ∀ alt o, (refused alt o).startedAt = o.startedAt ∧ (refused alt o).body = o.body) :
    ∃ o', after.table.get? id = some o' ∧ o'.startedAt = o.startedAt ∧
      o'.body.finalOffset = o.body.finalOffset := by
  have running : (closeRules cfg.toSessionConfig).forget c.session id o = false :=
    forget_of_closeRuns (halfClosed.runs o)
  rw [← session] at running
  cases visit with
  | idle copies kept nowhere =>
      rcases kept with same | ⟨stopped, _⟩
      · exact ⟨o, same, rfl, rfl⟩
      · exact absurd (running.symm.trans stopped) (by decide)
  | tried attempt only alive fits running clock kept =>
      refine ⟨_, kept, ?_⟩
      split
      · exact ⟨rfl, rfl⟩
      · obtain ⟨started, body⟩ := keeps attempt.path o
        exact ⟨started, by rw [body]⟩

theorem keeps_retryCloses (c : Controls) : Keeps cfg id c (c.retryCloses cfg) := by
  have offers := @Work.offers_retryCloses cfg.toSessionConfig ⟨c.session, c.closes, c.attempts⟩
  have same : (c.retryCloses cfg).HalfClosed id ↔ c.HalfClosed id :=
    halfClosed_congr (congrArg (fun streams => streams.get? id) offers.streams)
  refine ⟨offers.now.ge, same.mp, fun _ => rfl, ?_⟩
  intro halfClosed o found recent
  have young : Work.young cfg.toSessionConfig c.session o = true := by
    have now : (c.retryCloses cfg).session.now = c.session.now := offers.now
    rw [now] at recent
    exact decide_eq_true recent
  have visit := @Work.retryCloses_visit cfg.toSessionConfig ⟨c.session, c.closes, c.attempts⟩
    id o found young
  exact kept_of_visit (same.mp halfClosed) rfl visit fun _ _ => ⟨rfl, rfl⟩

theorem keeps_retryCloseFrom (c : Controls) (dead : Nat) :
    Keeps cfg id c (c.retryCloseFrom cfg dead) := by
  have passed := @Work.passed_foldl CloseBody cfg.toSessionConfig
    (closeRules cfg.toSessionConfig) (fun _ _ => true) (fun _ o => o) steady_always
    (c.closes.entries.filter fun entry => decide (entry.2.pathId = dead))
    ⟨c.session, c.closes, c.attempts⟩
  have same : (c.retryCloseFrom cfg dead).HalfClosed id ↔ c.HalfClosed id :=
    halfClosed_congr (congrArg (fun streams => streams.get? id) passed.offers.streams)
  refine ⟨passed.offers.now.ge, same.mp, fun _ => rfl, ?_⟩
  intro halfClosed o found recent
  cases selected : decide (o.pathId = dead) with
  | true =>
      have visit := @Work.retryAll_visit CloseBody cfg.toSessionConfig
        (closeRules cfg.toSessionConfig) _ (fun _ _ => true) (fun _ o => o) (follows_closeRules _)
        steady_always (fun o => decide (o.pathId = dead)) ⟨c.session, c.closes, c.attempts⟩ id o
        found selected
      exact kept_of_visit (same.mp halfClosed) rfl visit fun _ _ => ⟨rfl, rfl⟩
  | false =>
      refine ⟨o, ?_, rfl, rfl⟩
      have outside := @Work.not_mem_snapshot CloseBody c.closes
        (fun o => decide (o.pathId = dead)) id
      refine (passed.others id (outside ?_)).trans found
      intro held inTable
      obtain rfl : held = o := Option.some.inj (inTable.symm.trans found)
      exact selected

/-! ## First sends and endings -/

theorem keeps_sendReset (c : Controls) (other : Nat) (why : ResetReason) :
    Keeps cfg id c (c.sendReset cfg other why) := by
  obtain ⟨s, resets, same, sends, _⟩ := @sendReset_eq cfg c other why
  rw [same]
  exact keeps_of_offers sends rfl rfl

theorem keeps_forgetReset (c : Controls) (other : Nat) : Keeps cfg id c (c.forgetReset other) :=
  .of_same le_rfl rfl rfl rfl

theorem keeps_forgetLingerReset (c : Controls) (other : Nat) (st : StreamState)
    (reason : ResetReason) : Keeps cfg id c (c.forgetLingerReset other st reason) := by
  unfold forgetLingerReset
  split
  · exact keeps_forgetReset c other
  · exact .refl c

theorem keeps_finishStream (c : Controls) (other : Nat) (reason : ResetReason)
    (sendFrame : Bool) : Keeps cfg id c (c.finishStream cfg other reason sendFrame) := by
  unfold finishStream
  split
  · exact .refl c
  · have announced : ∀ {reached : Controls}, Keeps cfg id c reached → ∀ st openPending,
        Keeps cfg id c ((reached.forgetLingerReset other st reason).streamEvent other
          (.reset reason openPending)) := by
      intro reached keeps st openPending
      refine (keeps.trans (keeps_forgetLingerReset reached other st reason)).trans
        (keeps_streamEvent _ other ?_)
      intro impossible
      cases impossible
    apply announced
    split
    · exact .refl c
    · split
      · exact keeps_sendReset c other reason
      · exact keeps_forgetReset c other

theorem keeps_reapHalfClosed (c : Controls) (other : Nat) :
    Keeps cfg id c (c.reapHalfClosed cfg other) := by
  unfold reapHalfClosed
  split
  · exact .refl c
  · dsimp only
    split
    · exact keeps_finishStream c other .timeout true
    · refine Keeps.trans ?_ (keeps_streamEvent _ other ?_)
      · split
        · exact .refl c
        · split
          · exact keeps_forgetReset c other
          · split
            · exact keeps_sendReset c other .timeout
            · exact .refl c
      · intro impossible
        cases impossible

theorem keeps_reapStream (c : Controls) (other : Nat) :
    Keeps cfg id c (c.reapStream cfg other) := by
  unfold reapStream
  split
  · exact .refl c
  · split
    · exact keeps_finishStream c other .timeout true
    · apply keeps_streamEvent
      intro impossible
      cases impossible

theorem keeps_onPeerReset (c : Controls) (other : Nat) (reason : ResetReason) :
    Keeps cfg id c (c.onPeerReset cfg other reason) :=
  (keeps_forgetReset c other).trans (keeps_finishStream _ other reason false)

/-- A stream that was finished is not in the table. -/
theorem not_halfClosed_finishStream (c : Controls) (reason : ResetReason) (sendFrame : Bool) :
    ¬ (c.finishStream cfg id reason sendFrame).HalfClosed id := by
  have gone : ∀ (reached : Controls) openPending,
      ¬ (reached.streamEvent id (.reset reason openPending)).HalfClosed id := by
    intro reached openPending
    unfold streamEvent
    split
    · rename_i missing
      rintro ⟨st, present, _⟩
      cases missing.symm.trans present
    · rename_i st found
      rintro ⟨after, present, _⟩
      obtain ⟨stored, live⟩ := Session.getStream_eq_some_iff.mp present
      rw [(followStream_rest _ id st _).1, getStream_streamEvent_self _ found] at stored
      cases stored
      exact absurd ((gone_finishStream st reason openPending).symm.trans live) (by decide)
  unfold finishStream
  split
  · rename_i missing
    rintro ⟨st, present, _⟩
    cases missing.symm.trans present
  · exact gone _ _

theorem not_halfClosed_foldl_finishStream (ids : List Nat) (reason : ResetReason)
    (sendFrames : Bool) (c : Controls) (covered : c.HalfClosed id → id ∈ ids) :
    ¬ (ids.foldl (fun c id => c.finishStream cfg id reason sendFrames) c).HalfClosed id := by
  induction ids generalizing c with
  | nil => exact fun halfClosed => absurd (covered halfClosed) List.not_mem_nil
  | cons other rest inductionHypothesis =>
      apply inductionHypothesis
      intro halfClosed
      rcases List.mem_cons.mp (covered ((keeps_finishStream c other reason sendFrames).before
        halfClosed)) with rfl | later
      · exact absurd halfClosed (not_halfClosed_finishStream c reason sendFrames)
      · exact later

theorem HalfClosed.mem_liveIds {c : Controls} (halfClosed : c.HalfClosed id) :
    id ∈ c.session.liveIds := by
  obtain ⟨st, found, _⟩ := halfClosed
  obtain ⟨stored, live⟩ := Session.getStream_eq_some_iff.mp found
  refine List.mem_map.mpr ⟨(id, st), List.mem_filter.mpr ⟨OrdMap.get?_eq_some_iff.mp stored, ?_⟩,
    rfl⟩
  simp [live]

/-- After `mark_dead` no stream is left, or the session was dead before. -/
theorem markDead_cases (c : Controls) (sendFrames : Bool) :
    c.markDead cfg sendFrames = c ∨ ¬ (c.markDead cfg sendFrames).HalfClosed id := by
  unfold markDead
  split
  · exact .inl rfl
  · right
    dsimp only
    have ended := @not_halfClosed_foldl_finishStream cfg id c.session.liveIds .sessionDead
      sendFrames { c with dead := true, closes := .empty } HalfClosed.mem_liveIds
    exact fun halfClosed => ended ((halfClosed_congr rfl).mp halfClosed)

/-! ## Beginnings -/

theorem keeps_setSticky (c : Controls) (other path : Nat) :
    Keeps cfg id c { c with session := c.session.setSticky other path } := by
  have time : (c.session.setSticky other path).now = c.session.now := by
    unfold Session.setSticky
    split
    · rfl
    · split
      · rfl
      · dsimp only
        split
        · rfl
        · rfl
  rcases Session.setSticky_streams c.session other path with same | stuck
  · exact .of_same time.ge (by rw [same]) rfl rfl
  · have moved := @keeps_modifyStream cfg id c other (fun st => { st with sticky := path })
      (fun _ => rfl) (fun _ => rfl) fun _ => rfl
    exact moved.trans (.of_same time.ge (by rw [stuck]; rfl) rfl rfl)

theorem keeps_beginStream (c : Controls) (other path : Nat) :
    Keeps cfg id c (c.beginStream cfg other path) := by
  have begun : Keeps cfg id c { c with
      session := { c.session with
        streams := c.session.streams.insert other (.new other cfg.initialWindow cfg.chan)
        senders := c.session.senders.erase other }
      closedAt := c.closedAt.erase other } := by
    by_cases same : id = other
    · subst same
      have fresh : ∀ {after : Controls}, after.session.streams.get? id =
          some (.new id cfg.initialWindow cfg.chan) → ¬ after.HalfClosed id := by
        rintro after stored ⟨st, present, finSent, _⟩
        cases stored.symm.trans (Session.getStream_eq_some_iff.mp present).1
        cases finSent
      have stored := OrdMap.get?_insert_self c.session.streams id
        (StreamState.new id cfg.initialWindow cfg.chan)
      exact ⟨le_rfl, fun halfClosed => absurd halfClosed (fresh stored),
        fun halfClosed => absurd halfClosed (fresh stored),
        fun halfClosed => absurd halfClosed (fresh stored)⟩
    · exact .of_same le_rfl (OrdMap.get?_insert_of_ne _ _ same) rfl
        (OrdMap.get?_erase_of_ne _ same)
  exact begun.trans (keeps_setSticky _ other path)

theorem keeps_openStream {c next : Controls} {other : Nat} {target : Target}
    (opened : c.openStream cfg other target = some next) : Keeps cfg id c next := by
  unfold openStream at opened
  split at opened
  · cases opened
  · obtain ⟨path, _, rfl⟩ := Option.map_eq_some_iff.mp opened
    refine (keeps_beginStream c other path).trans ?_
    have first := @Session.offers_sendOnPath cfg.toSessionConfig
      (c.beginStream cfg other path).session path (.streamOpen ⟨other, target⟩)
    dsimp only
    split
    · rename_i s sent
      rw [sent] at first
      exact keeps_of_offers first rfl rfl
    · rename_i s failed
      rw [failed] at first
      split
      · exact keeps_of_offers first rfl rfl
      · rename_i alt _
        have second := @Session.offers_sendOnPath cfg.toSessionConfig s alt
          (.streamOpen ⟨other, target⟩)
        split
        · rename_i last sentThere
          rw [sentThere] at second
          have offered : Keeps cfg id (c.beginStream cfg other path)
              { c.beginStream cfg other path with session := last } :=
            keeps_of_offers (first.trans second) rfl rfl
          exact (offered.trans (keeps_setSticky _ other alt)).trans (.of_same le_rfl rfl rfl rfl)
        · rename_i last failedThere
          rw [failedThere] at second
          exact keeps_of_offers (first.trans second) rfl rfl

end Controls

end NyaLink
