import NyaLink.Session.HalfClose

/-!
# The record of a FIN

`close_send` latches the FIN before it looks for a path, and remembers the
StreamClose only when there is one.  A close that found a path stays in `closes`
with its final offset for as long as the stream is in the table, the peer has
not finished and the linger lasts, and the retry pass sends it.
-/

namespace NyaLink

namespace Controls

variable {cfg : PickConfig} {id : Nat}

/-! ## The close itself -/

theorem offers_sendClose (c : Controls) (other : Nat) (body : CloseBody) :
    Session.Offers c.session (c.sendClose cfg other body).session 2 := by
  obtain ⟨s, closes, same, sends, _⟩ := @sendClose_eq cfg c other body
  rw [same]
  exact sends

theorem closedAt_sendClose (c : Controls) (other : Nat) (body : CloseBody) :
    (c.sendClose cfg other body).closedAt = c.closedAt := by
  obtain ⟨s, closes, same, _, _⟩ := @sendClose_eq cfg c other body
  rw [same]

theorem closes_sendClose_of_ne (c : Controls) {other : Nat} (different : id ≠ other)
    (body : CloseBody) : (c.sendClose cfg other body).closes.get? id = c.closes.get? id := by
  obtain ⟨s, closes, same, _, noted⟩ := @sendClose_eq cfg c other body
  rw [same]
  change closes.get? id = c.closes.get? id
  clear same
  induction noted with
  | nothing => rfl
  | @path closes before path now inductionHypothesis =>
      refine Eq.trans ?_ inductionHypothesis
      exact OrdMap.get?_insert_of_ne closes _ different

/-- The record of a close that began now. -/
def BeginsWith (closes : OrdMap Nat (Outstanding CloseBody)) (id now : Nat) (body : CloseBody) :
    Prop :=
  ∃ o, closes.get? id = some o ∧ o.startedAt = now ∧ o.body.finalOffset = body.finalOffset

theorem beginsWith_fresh {closes : OrdMap Nat (Outstanding CloseBody)}
    (fresh : closes.get? id = none) (path now : Nat) (body : CloseBody) :
    BeginsWith (rememberClose closes id path now body) id now body := by
  refine ⟨.first path now body, ?_, rfl, rfl⟩
  rw [rememberClose, fresh, OrdMap.get?_insert_self]

theorem BeginsWith.again {closes : OrdMap Nat (Outstanding CloseBody)} {now : Nat}
    {body : CloseBody} (begins : BeginsWith closes id now body) (path later : Nat) :
    BeginsWith (rememberClose closes id path later body) id now body := by
  obtain ⟨o, found, started, final⟩ := begins
  refine ⟨{ o.follow path later with
    body := { o.body with finalOffset := o.body.finalOffset.or body.finalOffset } },
    ?_, started, ?_⟩
  · rw [rememberClose, found, OrdMap.get?_insert_self]
  · rw [← final]
    exact Option.or_self

theorem beginsWith_sendClose {c : Controls} (fresh : c.closes.get? id = none)
    (path : ∃ entry ∈ c.session.paths.entries, entry.2.isAlive = true) (body : CloseBody) :
    BeginsWith (c.sendClose cfg id body).closes id c.session.now body := by
  obtain ⟨alt, picked⟩ := Option.isSome_iff_exists.mp
    ((@pickPathPref_isSome cfg c.session.now .any c.session.paths.entries).mpr path)
  have found : c.pickPref cfg .any = some alt := picked
  simp only [sendClose, found]
  split
  · exact beginsWith_fresh fresh alt c.session.now body
  · split
    · exact beginsWith_fresh fresh alt c.session.now body
    · exact (beginsWith_fresh fresh alt c.session.now body).again _ _

theorem offers_unstick (s : Session) (st : StreamState) :
    ∃ t, Session.Offers s t 1 ∧ unstick s id st = t.modifyStream id StreamState.unstick := by
  unfold unstick
  split
  · exact ⟨s, (Session.Offers.refl s).weaken (Nat.zero_le 1), rfl⟩
  · exact ⟨s.dropSticky st.sticky, Session.offers_modifyPath (fun _ => rfl) (fun _ => rfl)
      fun p => Nat.le_succ _, rfl⟩

theorem keeps_closeSend_of_ne (c : Controls) {other : Nat} (different : id ≠ other) :
    Keeps cfg id c (c.closeSend cfg other) := by
  unfold closeSend
  split
  · exact .refl c
  · rename_i st _
    split
    · exact .refl c
    · dsimp only
      refine Keeps.trans ?_ (keeps_streamEvent_of_ne _ different .closeSend)
      obtain ⟨t, offers, result⟩ := @offers_unstick other c.session st
      have marked : Keeps cfg id c { c with
          session := unstick c.session other st
          closedAt := c.closedAt.insert other ⟨st.sendNext, c.session.now⟩ } := by
        rw [result]
        refine .of_same offers.now.ge ?_ rfl (OrdMap.get?_insert_of_ne _ _ different)
        exact (OrdMap.get?_modify_of_ne t.streams _ different).trans (by rw [offers.streams])
      exact marked.trans (keeps_of_offers (offers_sendClose _ other _)
        (closes_sendClose_of_ne _ different _) (closedAt_sendClose _ other _))

/-! ## The record over a run -/

/-- The close of a stream whose peer has not finished finds an alive path, and no close that an
earlier stream left under the id. -/
def CloseFinds (c : Controls) : ControlAction → Prop
  | .closeSend id => ∀ st ∈ c.session.getStream id, st.sendFinSent = false → st.recvFin = false →
      (∃ entry ∈ c.session.paths.entries, entry.2.isAlive = true) ∧ c.closes.get? id = none
  | _ => True

/-- While the linger lasts, the close of a half-closed stream is remembered as it was
announced. -/
def MarkedAt (cfg : PickConfig) (c : Controls) (id : Nat) : Prop :=
  c.HalfClosed id → ∃ mark, c.closedAt.get? id = some mark ∧
    (c.session.now - mark.time < cfg.closeLingerMs * 1000 →
      ∃ o, c.closes.get? id = some o ∧ o.startedAt = mark.time ∧
        o.body.finalOffset = some mark.finalOffset)

theorem MarkedAt.keep {c after : Controls} (marked : MarkedAt cfg c id)
    (keeps : Keeps cfg id c after) : MarkedAt cfg after id := by
  intro halfClosed
  obtain ⟨mark, found, recorded⟩ := marked (keeps.before halfClosed)
  have time := keeps.time
  refine ⟨mark, (keeps.mark halfClosed).trans found, fun recent => ?_⟩
  obtain ⟨o, held, started, final⟩ := recorded (by omega)
  obtain ⟨o', kept, sameStart, sameFinal⟩ := keeps.entry halfClosed o held (by rwa [started])
  exact ⟨o', kept, sameStart.trans started, sameFinal.trans final⟩

/-- The FIN is latched after the StreamClose was offered. -/
theorem markedAt_latch {c : Controls} {st : StreamState} {final : Nat}
    (found : c.session.getStream id = some st)
    (mark : c.closedAt.get? id = some ⟨final, c.session.now⟩)
    (recorded : st.recvFin = false →
      BeginsWith c.closes id c.session.now ⟨st.recvFin, some final⟩) :
    MarkedAt cfg (c.streamEvent id .closeSend) id := by
  intro halfClosed
  simp only [streamEvent, found] at halfClosed ⊢
  obtain ⟨session, kept⟩ := followStream_rest
    { c with session := c.session.streamEvent id .closeSend } id st
    (StreamEvent.closeSend.apply st)
  obtain ⟨last, present, _, unfinished⟩ := halfClosed
  obtain ⟨stored, live⟩ := Session.getStream_eq_some_iff.mp present
  rw [session, getStream_streamEvent_self _ found] at stored
  cases stored
  obtain ⟨opened, counted⟩ := (StreamEvent.closeSend.staysOpen st).flags live unfinished
  refine ⟨⟨final, c.session.now⟩, ?_, fun _ => ?_⟩
  · rw [kept]
    exact mark
  · rw [closes_followStream_of_open _ unfinished counted]
    exact recorded opened

theorem exists_alive_of_offers {s t : Session} {n : Nat} (offers : Session.Offers s t n)
    (path : ∃ entry ∈ s.paths.entries, entry.2.isAlive = true) :
    ∃ entry ∈ t.paths.entries, entry.2.isAlive = true := by
  obtain ⟨⟨alt, p⟩, membership, alive⟩ := path
  have aliveHere : s.aliveAt alt = true := Session.aliveAt_iff_entry.mpr ⟨p, membership, alive⟩
  obtain ⟨q, there, living⟩ := Session.aliveAt_iff_entry.mp ((offers.alive alt).trans aliveHere)
  exact ⟨(alt, q), there, living⟩

theorem markedAt_closeSend {c : Controls} (marked : MarkedAt cfg c id)
    (finds : c.CloseFinds (.closeSend id)) : MarkedAt cfg (c.closeSend cfg id) id := by
  unfold closeSend
  split
  · exact marked
  · rename_i st found
    split
    · exact marked
    · rename_i unsent
      dsimp only
      obtain ⟨t, unstuck, result⟩ := @offers_unstick id c.session st
      rw [result]
      -- what the StreamClose finds: the stream left its path, and the mark is set
      generalize beginning : ({ c with
        session := t.modifyStream id StreamState.unstick
        closedAt := c.closedAt.insert id ⟨st.sendNext, c.session.now⟩ } : Controls) = base
      have sent := @offers_sendClose cfg base id ⟨st.recvFin, some st.sendNext⟩
      have closedAt := @closedAt_sendClose cfg base id ⟨st.recvFin, some st.sendNext⟩
      have begins := @beginsWith_sendClose cfg id base
      have now : base.session.now = c.session.now := by
        rw [← beginning]
        exact unstuck.now
      have stuck : base.session.getStream id = some st.unstick := by
        obtain ⟨stored, live⟩ := Session.getStream_eq_some_iff.mp found
        refine Session.getStream_eq_some_iff.mpr ⟨?_, live⟩
        rw [← beginning]
        change (t.streams.modify id StreamState.unstick).get? id = _
        rw [unstuck.streams, OrdMap.get?_modify_self, stored]
        rfl
      have mark : base.closedAt.get? id = some ⟨st.sendNext, c.session.now⟩ := by
        rw [← beginning]
        exact OrdMap.get?_insert_self _ _ _
      refine @markedAt_latch cfg id _ st.unstick st.sendNext ((sent.getStream id).trans stuck) ?_ ?_
      · rw [closedAt, mark, sent.now, now]
      · intro opened
        obtain ⟨path, fresh⟩ := finds st found (Bool.of_not_eq_true unsent) opened
        rw [sent.now]
        refine begins ?_ ?_ _
        · rw [← beginning]
          exact fresh
        · rw [← beginning]
          exact @exists_alive_of_offers c.session t 1 unstuck path

theorem markedAt_step {c next : Controls} {action : ControlAction} (marked : MarkedAt cfg c id)
    (finds : c.CloseFinds action) (taken : step cfg c action = some next) :
    MarkedAt cfg next id := by
  cases action with
  | tick us =>
      cases taken
      exact marked.keep (.of_same (Nat.le_add_right _ us) rfl rfl rfl)
  | pool paths =>
      cases taken
      exact marked.keep (.of_same le_rfl rfl rfl rfl)
  | openStream other target => exact marked.keep (keeps_openStream taken)
  | accept other path =>
      simp only [step, accept] at taken
      split at taken
      · cases taken
      · cases taken
        exact marked.keep (keeps_beginStream c other path)
  | sendPiece other piece path =>
      cases taken
      exact marked.keep (keeps_modifyStream c other (fun _ => rfl) (fun _ => rfl) fun _ => rfl)
  | ack body =>
      cases taken
      apply marked.keep
      unfold onAck
      split
      · exact .refl c
      · have acked := fun st : StreamState => st.ackKept_onAck body c.session.now
        have moved := @keeps_modifyStream cfg id c body.streamId
          (fun st => st.onAck body c.session.now) (fun st => (acked st).gone)
          (fun st => (acked st).sendFinSent) fun st => (acked st).recvFin
        exact moved.trans (.of_same le_rfl rfl rfl rfl)
  | arrival other event =>
      simp only [step] at taken
      split at taken
      · rename_i arrives
        cases taken
        refine marked.keep (keeps_streamEvent c other ?_)
        rintro rfl
        cases arrives
      · cases taken
  | closeSend other =>
      cases taken
      by_cases same : id = other
      · subst same
        exact markedAt_closeSend marked finds
      · exact marked.keep (keeps_closeSend_of_ne c same)
  | resetStream other reason =>
      cases taken
      exact marked.keep (keeps_finishStream c other reason true)
  | peerReset reset =>
      cases taken
      exact marked.keep (keeps_onPeerReset c reset.streamId reset.reason)
  | reapHalfClosed other =>
      cases taken
      exact marked.keep (keeps_reapHalfClosed c other)
  | reapStream other =>
      cases taken
      exact marked.keep (keeps_reapStream c other)
  | markDead sendFrames =>
      cases taken
      rcases @markDead_cases cfg id c sendFrames with same | ended
      · rw [same]
        exact marked
      · exact fun halfClosed => absurd halfClosed ended
  | retryOpens =>
      cases taken
      exact marked.keep (keeps_of_offers
        (@Work.offers_retryOpens cfg.toSessionConfig ⟨c.session, c.opens, c.attempts⟩) rfl rfl)
  | retryCloses =>
      cases taken
      exact marked.keep (keeps_retryCloses c)
  | retryResets =>
      cases taken
      exact marked.keep (keeps_of_offers
        (@Work.offers_retryResets cfg.toSessionConfig ⟨c.session, c.resets, c.attempts⟩) rfl rfl)
  | retryOpenFrom dead =>
      cases taken
      have passed := @Work.passed_foldl Target cfg.toSessionConfig
        (openRules cfg.toSessionConfig) (fun _ _ => true) (fun _ o => o) steady_always
        (c.opens.entries.filter fun entry => decide (entry.2.pathId = dead))
        ⟨c.session, c.opens, c.attempts⟩
      exact marked.keep (keeps_of_offers passed.offers rfl rfl)
  | retryCloseFrom dead =>
      cases taken
      exact marked.keep (keeps_retryCloseFrom c dead)
  | retryResetFrom dead =>
      cases taken
      have passed := @Work.passed_foldl ResetReason cfg.toSessionConfig
        (resetRules cfg.toSessionConfig) (fun _ _ => true) (fun _ o => o) steady_always
        (c.resets.entries.filter fun entry =>
          decide (entry.2.pathId = dead) || decide (entry.2.pathId = 0))
        ⟨c.session, c.resets, c.attempts⟩
      exact marked.keep (keeps_of_offers passed.offers rfl rfl)

/-- Until its linger, the close of a half-closed stream is remembered with the offset it
announced, and the pass that finds its clock passed and a path sends it. -/
def FinRecorded (cfg : PickConfig) (c : Controls) : Prop :=
  ∀ id, c.HalfClosed id → ∃ mark, c.closedAt.get? id = some mark ∧
    (c.session.now - mark.time < cfg.closeLingerMs * 1000 →
      ∃ o, c.closes.get? id = some o ∧ o.body.finalOffset = some mark.finalOffset ∧
        (isDue cfg.toSessionConfig c.session o = true →
          c.PathReady cfg (fun alt => alt ∉ o.tried) →
          c.Lands cfg (fun alt => alt ∉ o.tried) (.streamClose ⟨id, some mark.finalOffset⟩)))

/-- In a run whose closes all find a path, every FIN is recorded. -/
theorem fin_recorded_when_found (cfg : PickConfig) {c : Controls}
    (reachable : (machine cfg).ReachableWhen CloseFinds c) : c.FinRecorded cfg := by
  have marked : ∀ id, MarkedAt cfg c id := by
    intro id
    refine reachable.invariant_of (fun c => MarkedAt cfg c id) (fun _ _ => trivial) ?_ ?_
    · rintro _ ⟨isClient, rfl⟩ ⟨st, present, _⟩
      cases present
    · intro c action next _ marked finds taken
      exact markedAt_step marked finds taken
  intro id halfClosed
  obtain ⟨mark, found, recorded⟩ := marked id halfClosed
  refine ⟨mark, found, fun recent => ?_⟩
  obtain ⟨o, held, started, final⟩ := recorded recent
  refine ⟨o, held, final, fun clock ready => ?_⟩
  have young : Work.young cfg.toSessionConfig c.session o = true := by
    rw [Work.young, started]
    exact decide_eq_true recent
  have lands := close_lands held (halfClosed.runs o) young clock ready
  rwa [final] at lands

instance (c : Controls) (action : ControlAction) : Decidable (c.CloseFinds action) := by
  unfold CloseFinds
  split
  · infer_instance
  · infer_instance

/-- A path is there at the close. -/
def closedOnPath : List ControlAction :=
  [.pool (poolOf [1, 2] []), .accept 1 1, .closeSend 1, .tick 50000]

theorem fin_recorded_when_found_on_path : ∃ c : Controls,
    (machine .standard).ReachableWhen CloseFinds c ∧ c.HalfClosed 1 ∧ c.FinRecorded .standard := by
  have replayed : ∃ c st, (machine .standard).runWhen CloseFinds (.new false) closedOnPath =
      some c ∧ c.session.getStream 1 = some st ∧ st.sendFinSent = true ∧ st.recvFin = false :=
    ⟨_, _, rfl, rfl, rfl, rfl⟩
  obtain ⟨c, st, replay, found, sent, unfinished⟩ := replayed
  have begins : (machine .standard).ReachableWhen CloseFinds (.new false) := .start ⟨false, rfl⟩
  have reachable := begins.runWhen replay
  exact ⟨c, reachable, ⟨st, found, sent, unfinished⟩, fin_recorded_when_found .standard reachable⟩

/-- Every path is down at the close; then one comes back. -/
def closedInOutage : List ControlAction :=
  [.pool (poolOf [1] []), .accept 1 1, .pool .empty, .closeSend 1, .pool (poolOf [2] []),
    .tick 50000]

/-- The FIN was never recorded, and no pass sends it. -/
theorem fin_lost_in_outage : ∃ c, (machine .standard).Reachable c ∧ c.HalfClosed 1 ∧
    c.closes.get? 1 = none ∧ (∃ entry ∈ c.session.paths.entries, entry.2.isAlive = true) ∧
    (∀ entry ∈ c.takenInPass .standard, entry.2 ≠ .streamClose ⟨1, some 0⟩) ∧
    ¬ c.FinRecorded .standard := by
  have replayed : ∃ c st mark, (machine .standard).run (.new false) closedInOutage = some c ∧
      c.session.getStream 1 = some st ∧ st.sendFinSent = true ∧ st.recvFin = false ∧
      c.closes.get? 1 = none ∧ c.closedAt.get? 1 = some mark ∧
      c.session.now - mark.time < 1000 * 1000 ∧
      (∃ entry ∈ c.session.paths.entries, entry.2.isAlive = true) ∧
      ∀ entry ∈ c.takenInPass .standard, entry.2 ≠ .streamClose ⟨1, some 0⟩ := by
    refine ⟨_, _, _, rfl, rfl, rfl, rfl, rfl, rfl, ?_, ?_, ?_⟩
    all_goals decide +kernel
  obtain ⟨c, st, mark, replay, found, sent, unfinished, missing, announced, recent, path, taken⟩ :=
    replayed
  refine ⟨c, (reachable_new .standard false).run replay, ⟨st, found, sent, unfinished⟩, missing,
    path, taken, fun recorded => ?_⟩
  obtain ⟨other, same, held⟩ := recorded 1 ⟨st, found, sent, unfinished⟩
  obtain rfl : other = mark := Option.some.inj (same.symm.trans announced)
  obtain ⟨o, present, _⟩ := held recent
  cases missing.symm.trans present

end Controls

end NyaLink
