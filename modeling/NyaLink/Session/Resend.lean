import NyaLink.Session.Steps

/-!
# Lost pieces are re-sent

What one retry pass does for a piece with nothing on a living path.  With room
for every frame of the pass, no send fails, so the paths stay as usable as they
were while the pass works through its pieces; then a living path takes a frame
for each piece that the pass does not skip.
-/

namespace NyaLink

/-- A path that can take this many more frames on either queue, and is fresh by both clocks. -/
structure Ready (cfg : SessionConfig) (now : Nat) (p : Path) (room : Nat) : Prop where
  schedulable : p.isSchedulable = true
  lossFresh : isLossFresh cfg now p = true
  quietFresh : isQuietFresh cfg now p = true
  urgent : p.urgent.length + room ≤ cfg.chan
  writer : p.writer.length + room ≤ cfg.chan

/-- The path without its inflight counter, which no choice of the pass depends on for being
made. -/
def Path.settled (p : Path) : Path := { p with inflight := 0 }

section

variable {cfg : SessionConfig} {room : Nat}

theorem Ready.settled {now : Nat} {p : Path} :
    Ready cfg now p.settled room ↔ Ready cfg now p room :=
  ⟨fun ready => { ready with }, fun ready => { ready with }⟩

theorem Ready.weaken {now : Nat} {p : Path} (ready : Ready cfg now p (room + 1)) :
    Ready cfg now p room :=
  { ready with
    urgent := (Nat.le_succ _).trans ready.urgent
    writer := (Nat.le_succ _).trans ready.writer }

theorem Ready.hasRoom {now : Nat} {p : Path} (ready : Ready cfg now p (room + 1))
    (urgent : Bool) : p.hasRoom cfg urgent = true := by
  have urgentRoom := ready.urgent
  have writerRoom := ready.writer
  unfold Path.hasRoom
  apply decide_eq_true
  split <;> omega

theorem Ready.enqueue {now : Nat} {p : Path} (ready : Ready cfg now p (room + 1))
    (urgent : Bool) (frame : Frame) : Ready cfg now (p.enqueue urgent frame) room := by
  have urgentRoom := ready.urgent
  have writerRoom := ready.writer
  have schedulable := ready.schedulable
  unfold Path.enqueue
  split
  · refine { ready.weaken with schedulable := ?_, urgent := ?_ }
    · simp only [Path.isSchedulable, Path.isUp, Bool.and_eq_true] at schedulable ⊢
      exact ⟨⟨schedulable.1.1, rfl⟩, schedulable.2⟩
    · simp only [List.length_append, List.length_singleton]
      omega
  · refine { ready.weaken with writer := ?_ }
    simp only [List.length_append, List.length_singleton]
    omega

theorem Ready.not_writeStalled {now : Nat} {p : Path} (ready : Ready cfg now p room) :
    p.writeStalled = false := by
  have schedulable := ready.schedulable
  simp only [Path.isSchedulable, Bool.and_eq_true, Bool.not_eq_true'] at schedulable
  exact schedulable.2

end

namespace Session

/-- The path is in the table and alive. -/
def aliveAt (s : Session) (id : Nat) : Bool := (s.getPath id).any Path.isAlive

/-- During the pass: the same paths are alive, each is ready for `room` more frames, and
everything accepted before still is. -/
structure PassKept (cfg : SessionConfig) (start s : Session) (room : Nat) : Prop where
  now : s.now = start.now
  alive : ∀ id, s.aliveAt id = start.aliveAt id
  ready : ∀ id p, s.getPath id = some p → p.isAlive = true → Ready cfg s.now p room
  accepted : start.accepted <+: s.accepted

section

variable {cfg : SessionConfig} {start s : Session} {room id : Nat}

theorem freshDest_of_ready {p : Path} (ready : Ready cfg s.now p room) :
    s.freshDest cfg p = true := by
  unfold Session.freshDest
  rw [ready.quietFresh, ready.schedulable]
  rfl

/-! ## The pass keeps the paths ready -/

theorem isAlive_enqueue (p : Path) (urgent : Bool) (frame : Frame) :
    (p.enqueue urgent frame).isAlive = p.isAlive := by
  unfold Path.enqueue
  split <;> rfl

theorem PassKept.refl (ready : ∀ id p, s.getPath id = some p → p.isAlive = true →
    Ready cfg s.now p room) : PassKept cfg s s room :=
  ⟨rfl, fun _ => rfl, ready, List.prefix_rfl⟩

theorem PassKept.weaken (kept : PassKept cfg start s (room + 1)) : PassKept cfg start s room :=
  { kept with ready := fun id p found alive => (kept.ready id p found alive).weaken }

theorem aliveAt_eq_true_iff :
    s.aliveAt id = true ↔ ∃ p, s.getPath id = some p ∧ p.isAlive = true := by
  simp [aliveAt, Option.any_eq_true]

theorem aliveAt_eq_settled (s : Session) (id : Nat) :
    s.aliveAt id = ((s.getPath id).map Path.settled).any Path.isAlive := by
  rw [Option.any_map]
  rfl

/-- Only inflight counters and pieces changed. -/
theorem PassKept.settle {after : Session} (kept : PassKept cfg start s room)
    (now : after.now = s.now) (accepted : after.accepted = s.accepted)
    (paths : ∀ id, (after.getPath id).map Path.settled = (s.getPath id).map Path.settled) :
    PassKept cfg start after room := by
  refine ⟨now.trans kept.now, ?_, ?_, ?_⟩
  · intro id
    rw [← kept.alive id, aliveAt_eq_settled, aliveAt_eq_settled, paths]
  · intro id p found alive
    have same := paths id
    rw [found, Option.map_some] at same
    obtain ⟨q, before, settled⟩ := Option.map_eq_some_iff.mp same.symm
    have aliveBefore : q.isAlive = true := by
      have status : p.settled.isAlive = true := alive
      rw [← settled] at status
      exact status
    rw [now, ← Ready.settled, ← settled, Ready.settled]
    exact kept.ready id q before aliveBefore
  · rw [accepted]
    exact kept.accepted

theorem settled_modifyPath_inflight (s : Session) (target : Nat) (change : Path → Nat) (id : Nat) :
    ((s.modifyPath target fun p => { p with inflight := change p }).getPath id).map Path.settled =
      (s.getPath id).map Path.settled := by
  rw [getPath_modifyPath]
  split
  · rw [Option.map_map]
    rfl
  · rfl

theorem settled_xferInflight (s : Session) (source dest n id : Nat) :
    ((s.xferInflight source dest n).getPath id).map Path.settled =
      (s.getPath id).map Path.settled := by
  unfold xferInflight
  split
  · rfl
  · exact (settled_modifyPath_inflight _ _ _ _).trans (settled_modifyPath_inflight _ _ _ _)

theorem xferInflight_now (s : Session) (source dest n : Nat) :
    (s.xferInflight source dest n).now = s.now ∧
      (s.xferInflight source dest n).accepted = s.accepted := by
  unfold xferInflight
  split
  · exact ⟨rfl, rfl⟩
  · exact ⟨rfl, rfl⟩

theorem PassKept.modifyUnacked (kept : PassKept cfg start s room) (offset : Nat)
    (change : Unacked → Unacked) : PassKept cfg start (s.modifyUnacked id offset change) room :=
  kept.settle rfl rfl fun _ => rfl

theorem PassKept.rehomeUnacked (kept : PassKept cfg start s room) (offset dest : Nat)
    (sent : Bool) : PassKept cfg start (s.rehomeUnacked id offset dest sent) room := by
  unfold Session.rehomeUnacked
  split
  · exact kept
  · rename_i u found
    have same := xferInflight_now s u.pathId dest u.data.length
    refine PassKept.settle kept same.1 same.2 fun path => ?_
    exact settled_xferInflight s u.pathId dest u.data.length path

/-- No send of the pass fails on a path that is alive. -/
theorem PassKept.send (kept : PassKept cfg start s (room + 1)) (id : Nat) (frame : Frame) :
    (s.sendOnPath cfg id frame).2 = start.aliveAt id ∧
      PassKept cfg start (s.sendOnPath cfg id frame).1 room ∧
      (start.aliveAt id = true →
        (s.sendOnPath cfg id frame).1.accepted = s.accepted ++ [(id, frame)]) := by
  unfold sendOnPath
  cases found : s.getPath id with
  | none =>
      have dead : start.aliveAt id = false := by
        rw [← kept.alive id, aliveAt, found]
        rfl
      refine ⟨dead.symm, kept.weaken, ?_⟩
      intro alive
      rw [dead] at alive
      cases alive
  | some p =>
      cases alive : p.isAlive with
      | false =>
          have dead : start.aliveAt id = false := by
            rw [← kept.alive id, aliveAt, found]
            exact alive
          simp only [alive, Bool.not_false, if_true]
          refine ⟨dead.symm, kept.weaken, ?_⟩
          intro living
          rw [dead] at living
          cases living
      | true =>
          have living : start.aliveAt id = true := by
            rw [← kept.alive id, aliveAt, found]
            exact alive
          have ready := kept.ready id p found alive
          simp only [alive, Bool.not_true, Bool.false_eq_true, if_false, ready.hasRoom, if_true]
          refine ⟨living.symm, ⟨kept.now, ?_, ?_, ?_⟩, fun _ => trivial⟩
          · intro other
            rw [← kept.alive other]
            change ((s.modifyPath id _).getPath other).any _ = (s.getPath other).any _
            rw [getPath_modifyPath]
            split
            · rw [Option.any_map]
              congr 1
              funext q
              exact isAlive_enqueue q _ frame
            · rfl
          · intro other q foundOther aliveOther
            rcases OrdMap.get?_modify_cases foundOther with
              ⟨-, before, foundBefore, rfl⟩ | ⟨-, foundBefore⟩
            · rw [isAlive_enqueue] at aliveOther
              exact (kept.ready other before foundBefore aliveOther).enqueue _ frame
            · exact (kept.ready other q foundBefore aliveOther).weaken
          · exact kept.accepted.trans (List.prefix_append _ _)

/-! ## One piece -/

/-- A piece of the pass was taken by a queue of a living path, the pass goes on. -/
structure Resent (cfg : SessionConfig) (start s after : Session) (id : Nat) (due : Due)
    (room : Nat) : Prop extends PassKept cfg start after room where
  taken : ∃ path, start.aliveAt path = true ∧ after.accepted =
    s.accepted ++ [(path, .streamData { streamId := id, offset := due.offset, data := due.data })]

/-- The pass goes on; what is sent to a living path is taken. -/
theorem PassKept.sendDataFrame (kept : PassKept cfg start s (room + 1)) (id : Nat) (due : Due)
    {path : Nat} (alive : start.aliveAt path = true) :
    ∃ after, s.sendDataFrame cfg id due.offset due.data path = (after, true) ∧
      Resent cfg start s after id due room := by
  obtain ⟨sent, pass, taken⟩ := kept.send path
    (.streamData { streamId := id, offset := due.offset, data := due.data })
  rw [alive] at sent
  exact ⟨_, Prod.ext rfl sent, { pass with taken := ⟨path, alive, taken alive⟩ }⟩

theorem Resent.rehomed {after : Session} {due : Due} (resent : Resent cfg start s after id due room)
    (dest : Nat) :
    Resent cfg start s (after.rehomeUnacked id due.offset dest true) id due room := by
  refine { resent.toPassKept.rehomeUnacked due.offset dest true with taken := ?_ }
  obtain ⟨path, alive, taken⟩ := resent.taken
  refine ⟨path, alive, ?_⟩
  rw [← taken]
  unfold Session.rehomeUnacked
  split
  · rfl
  · exact (xferInflight_now after _ dest _).2

theorem Resent.modified {after : Session} {due : Due}
    (resent : Resent cfg start s after id due room)
    (change : Unacked → Unacked) :
    Resent cfg start s (after.modifyUnacked id due.offset change) id due room :=
  { resent.toPassKept.modifyUnacked due.offset change with taken := resent.taken }

theorem PassKept.alive_of_picked (kept : PassKept cfg start s room) {tried : List Nat} {alt : Nat}
    (picked : pickRetryPath cfg s.now s.paths.entries tried = some alt) :
    start.aliveAt alt = true := by
  rw [← kept.alive alt]
  exact aliveAt_eq_true_iff.mpr (getPath_of_pickRetryPath picked)

theorem resendInteractive_of_picked (kept : PassKept cfg start s (room + 1)) (due : Due)
    {alt : Nat} (picked : pickRetryPath cfg s.now s.paths.entries
      (pushTried due.tried due.source) = some alt) :
    Resent cfg start s (s.resendInteractive cfg id due) id due room := by
  have alive := kept.alive_of_picked picked
  obtain ⟨p, found, living⟩ := getPath_of_pickRetryPath picked
  have flowing := (kept.ready alt p found living).not_writeStalled
  obtain ⟨after, sent, resent⟩ := kept.sendDataFrame id due alive
  simp only [resendInteractive, picked, found, Option.any_some, flowing, Bool.false_eq_true,
    if_false, sent]
  exact resent.rehomed alt

theorem resendBulkFresh_of_alive (kept : PassKept cfg start s (room + 1)) (due : Due)
    {alt : Nat} (alive : start.aliveAt alt = true) :
    Resent cfg start s (s.resendBulkFresh cfg id due (some alt)) id due room := by
  have living := alive
  rw [← kept.alive alt] at living
  obtain ⟨p, found, isAlive⟩ := aliveAt_eq_true_iff.mp living
  have fresh := freshDest_of_ready (kept.ready alt p found isAlive)
  obtain ⟨after, sent, resent⟩ := kept.sendDataFrame id due alive
  simp only [resendBulkFresh, found, Option.any_some, fresh, if_true, resendBulkOn, sent]
  exact (resent.rehomed alt).modified _

/-- A dropped piece goes back on its source if that is alive. -/
theorem resendOnSource_of_alive (kept : PassKept cfg start s (room + 1)) (id : Nat) (due : Due)
    (alive : start.aliveAt due.source = true) :
    ∃ after, s.resendOnSource cfg id due = (after, true) ∧
      Resent cfg start s after id due room := by
  have living := alive
  rw [← kept.alive due.source] at living
  obtain ⟨p, found, isAlive⟩ := aliveAt_eq_true_iff.mp living
  have ready := kept.ready due.source p found isAlive
  have fresh := freshDest_of_ready ready
  have room := ready.writer
  have filling : p.queuedBulk < cfg.chan := by
    unfold Path.queuedBulk
    omega
  simp only [resendOnSource, found, Option.any_some, fresh, filling, decide_true, Bool.and_self,
    if_true]
  exact kept.sendDataFrame id due alive

theorem resendOnSource_of_dead (kept : PassKept cfg start s (room + 1)) (due : Due)
    (dead : start.aliveAt due.source = false) : s.resendOnSource cfg id due = (s, false) := by
  rw [← kept.alive due.source] at dead
  unfold resendOnSource
  apply if_neg
  intro usable
  obtain ⟨p, found, fresh⟩ := (Option.any_eq_true _ _).mp usable
  simp only [freshDest, Bool.and_eq_true] at fresh
  have alive : s.aliveAt due.source = true :=
    aliveAt_eq_true_iff.mpr ⟨p, found, Path.isAlive_of_isSchedulable fresh.1.2⟩
  rw [dead] at alive
  cases alive

/-- The candidates of a dropped bulk piece, apart from its source. -/
theorem aliveAt_of_pickMinRx (kept : PassKept cfg start s room) {source alt : Nat}
    (picked : pickMinRx cfg s.now (s.paths.entries.filter fun entry =>
      entry.2.isAlive && entry.2.isSchedulable && decide (entry.1 ≠ source)) = some alt) :
    start.aliveAt alt = true := by
  obtain ⟨p, membership⟩ := pickMinRx_mem picked
  rw [List.mem_filter] at membership
  simp only [Bool.and_eq_true] at membership
  rw [← kept.alive alt]
  exact aliveAt_eq_true_iff.mpr ⟨p, mem_entries_iff_getPath.mp membership.1, membership.2.1.1⟩

/-- Every piece of the pass leaves the paths ready for the frames that are still to come. -/
theorem PassKept.resendDue (kept : PassKept cfg start s (room + 1)) (stalledLong : Bool)
    (due : Due) : PassKept cfg start (resendDue cfg id stalledLong s due) room := by
  unfold Session.resendDue
  split
  · exact kept.weaken
  · split
    · exact kept.weaken
    · split
      · have fresh : ∀ picked, (∀ alt, picked = some alt → start.aliveAt alt = true) →
            PassKept cfg start (s.resendBulkFresh cfg id due picked) room := by
          intro picked alive
          cases picked with
          | none => exact kept.weaken
          | some alt => exact (resendBulkFresh_of_alive kept due (alive alt rfl)).toPassKept
        unfold resendBulk
        split
        · cases alive : start.aliveAt due.source with
          | true =>
              obtain ⟨after, sent, resent⟩ := resendOnSource_of_alive kept id due alive
              simp only [sent]
              exact ((resent.rehomed due.source).modified _).toPassKept
          | false =>
              simp only [resendOnSource_of_dead kept due alive]
              exact fresh _ fun alt picked => aliveAt_of_pickMinRx kept picked
        · exact fresh _ fun alt picked => kept.alive_of_picked picked
      · cases picked : pickRetryPath cfg s.now s.paths.entries (pushTried due.tried due.source) with
        | none =>
            simp only [resendInteractive, picked]
            exact kept.weaken
        | some alt => exact (resendInteractive_of_picked kept due picked).toPassKept

theorem allTried_iff {tried : List Nat} :
    s.allTried tried = true ↔ ∀ id, s.aliveAt id = true → id ∈ tried := by
  simp only [allTried, List.all_eq_true, Prod.forall, mem_entries_iff_getPath, aliveAt_eq_true_iff,
    Bool.or_eq_true, Bool.not_eq_true', List.contains_iff_mem]
  constructor
  · rintro all id ⟨p, found, alive⟩
    rcases all id p found with dead | membership
    · rw [dead] at alive
      cases alive
    · exact membership
  · intro all id p found
    cases alive : p.isAlive with
    | false => exact .inl rfl
    | true => exact .inr (all id ⟨p, found, alive⟩)

/-- A path other than the source can be picked. -/
theorem pickRetryPath_of_other (kept : PassKept cfg start s room) (due : Due) {path : Nat}
    (alive : start.aliveAt path = true) (other : path ≠ due.source) :
    ∃ alt, pickRetryPath cfg s.now s.paths.entries (pushTried due.tried due.source) = some alt := by
  rw [← kept.alive path] at alive
  obtain ⟨p, found, isAlive⟩ := aliveAt_eq_true_iff.mp alive
  apply Option.isSome_iff_exists.mp
  apply pickRetryPath_isSome (mem_entries_iff_getPath.mpr found) isAlive
  rw [getLast?_pushTried]
  intro same
  exact other (Option.some.inj same).symm

/-- A piece with nothing on a living path is taken by one. -/
theorem resent_of_lost (kept : PassKept cfg start s (room + 1)) {stalledLong : Bool} {due : Due}
    (lost : due.dropped = true ∨ start.aliveAt due.source = false)
    (untried : ¬ (stalledLong = true ∧ start.allTried due.tried = true))
    {path : Nat} (alive : start.aliveAt path = true)
    (elsewhere : due.dropped = true → due.bulk = false → path ≠ due.source) :
    Resent cfg start s (resendDue cfg id stalledLong s due) id due room := by
  have tried : (stalledLong && s.allTried due.tried) = false := by
    rw [Bool.eq_false_iff]
    intro both
    rw [Bool.and_eq_true, allTried_iff] at both
    refine untried ⟨both.1, allTried_iff.mpr fun id living => both.2 id ?_⟩
    rw [kept.alive id]
    exact living
  have flowing : s.stalledSource due = false := by
    rcases lost with dropped | dead
    · simp [stalledSource, dropped]
    · rw [← kept.alive due.source] at dead
      unfold stalledSource
      cases found : s.getPath due.source with
      | none => simp
      | some p =>
          have gone : p.isAlive = false := by simpa [aliveAt, found] using dead
          simp [gone]
  simp only [Session.resendDue, tried, flowing, Bool.false_eq_true, if_false]
  cases bulk : due.bulk with
  | false =>
      have other : path ≠ due.source := by
        rcases lost with dropped | dead
        · exact elsewhere dropped bulk
        · rintro rfl
          rw [dead] at alive
          cases alive
      obtain ⟨alt, picked⟩ := pickRetryPath_of_other kept due alive other
      exact resendInteractive_of_picked kept due picked
  | true =>
      unfold resendBulk
      cases dropped : due.dropped with
      | false =>
          have other : path ≠ due.source := by
            rintro rfl
            rcases lost with wasDropped | dead
            · rw [dropped] at wasDropped
              cases wasDropped
            · rw [dead] at alive
              cases alive
          obtain ⟨alt, picked⟩ := pickRetryPath_of_other kept due alive other
          simp only [if_true, picked, Bool.false_eq_true, if_false]
          exact resendBulkFresh_of_alive kept due (kept.alive_of_picked picked)
      | true =>
          simp only [if_true]
          cases source : start.aliveAt due.source with
          | true =>
              obtain ⟨after, sent, resent⟩ := resendOnSource_of_alive kept id due source
              simp only [sent]
              exact (resent.rehomed due.source).modified _
          | false =>
              simp only [resendOnSource_of_dead kept due source]
              have living := alive
              rw [← kept.alive path] at living
              obtain ⟨p, found, isAlive⟩ := aliveAt_eq_true_iff.mp living
              have other : path ≠ due.source := by
                rintro rfl
                rw [source] at alive
                cases alive
              have candidate : (path, p) ∈ s.paths.entries.filter fun entry =>
                  entry.2.isAlive && entry.2.isSchedulable && decide (entry.1 ≠ due.source) := by
                rw [List.mem_filter]
                refine ⟨mem_entries_iff_getPath.mpr found, ?_⟩
                simp [isAlive, (kept.ready path p found isAlive).schedulable, other]
              obtain ⟨alt, picked⟩ := Option.isSome_iff_exists.mp
                (@pickMinRx_isSome cfg s.now _ _ candidate)
              simp only [picked]
              exact resendBulkFresh_of_alive kept due (aliveAt_of_pickMinRx kept picked)

/-! ## The whole pass -/

theorem PassKept.foldl (id : Nat) (dues : List Due) (stalledLong : Bool) {s : Session}
    (kept : PassKept cfg start s (dues.length + room)) :
    PassKept cfg start (dues.foldl (Session.resendDue cfg id stalledLong) s) room := by
  induction dues generalizing s with
  | nil => simpa using kept
  | cons due rest inductionHypothesis =>
      apply inductionHypothesis
      apply PassKept.resendDue
      rw [List.length_cons] at kept
      have reordered : rest.length + 1 + room = rest.length + room + 1 := by omega
      rwa [reordered] at kept

theorem dueOf_of_lost {st : StreamState} {offset : Nat} {u : Unacked}
    (lost : u.dropped = true ∨ s.aliveAt u.pathId = false) (passed : u.retryNotBefore ≤ s.now) :
    ∃ due, s.dueOf cfg st offset u = some due ∧ due.offset = offset ∧ due.source = u.pathId ∧
      due.data = u.data ∧ due.tried = u.tried ∧ due.dropped = u.dropped ∧
      due.bulk = isBulkPiece cfg st u := by
  have known : ∃ why, s.resendWhy cfg st u = some why := by
    unfold resendWhy
    cases dropped : u.dropped with
    | true => exact ⟨_, rfl⟩
    | false =>
        have dead : s.aliveAt u.pathId = false := by
          rcases lost with wasDropped | dead
          · rw [dropped] at wasDropped
            cases wasDropped
          · exact dead
        unfold aliveAt at dead
        cases found : s.getPath u.pathId with
        | none => exact ⟨_, rfl⟩
        | some p =>
            rw [found, Option.any_some] at dead
            exact ⟨.down, by simp [dead]⟩
  obtain ⟨why, known⟩ := known
  refine ⟨{
    offset := offset, source := u.pathId, data := u.data, tried := u.tried
    dropped := u.dropped, bulk := isBulkPiece cfg st u, why := why }, ?_, rfl, rfl, rfl, rfl, rfl,
    rfl⟩
  rw [dueOf, if_neg (not_lt.mpr passed), known]
  rfl

/-- One retry pass has a frame accepted by a living path for every piece of a steerable stream
that is marked dropped or whose path is not alive, if every living path is ready for all frames
of the pass, the stream has not been stalled past the linger with every living path tried, and
a dropped interactive piece has a living path other than its own. -/
theorem frame_accepted_of_lost {id offset : Nat} {st : StreamState} {u : Unacked}
    (stream : s.getStream id = some st) (steerable : st.isSteerable = true)
    (held : st.unacked.get? offset = some u)
    (lost : u.dropped = true ∨ s.aliveAt u.pathId = false) (passed : u.retryNotBefore ≤ s.now)
    (ready : ∀ path p, s.getPath path = some p → p.isAlive = true →
      Ready cfg s.now p (s.dues cfg st).length)
    (untried : ¬ (s.stalledLong cfg st = true ∧ s.allTried u.tried = true))
    {path : Nat} (alive : s.aliveAt path = true)
    (elsewhere : u.dropped = true → isBulkPiece cfg st u = false → path ≠ u.pathId) :
    ∃ sent, (s.retryExpiredUnacked cfg id).accepted = s.accepted ++ sent ∧
      ∃ dest, s.aliveAt dest = true ∧
        (dest, .streamData { streamId := id, offset := offset, data := u.data }) ∈ sent := by
  obtain ⟨due, found, atOffset, source, data, tried, dropped, bulk⟩ :=
    @dueOf_of_lost cfg s st offset u lost passed
  rw [← source] at lost elsewhere
  rw [← dropped] at lost elsewhere
  rw [← bulk] at elsewhere
  rw [← tried] at untried
  have membership : due ∈ s.dues cfg st :=
    List.mem_filterMap.mpr ⟨(offset, u), OrdMap.get?_eq_some_iff.mp held, found⟩
  obtain ⟨earlier, later, split⟩ := List.append_of_mem membership
  have kept : PassKept cfg s s (earlier.length + (later.length + 1)) := by
    refine PassKept.refl fun path p known living => ?_
    have all := ready path p known living
    rw [split, List.length_append, List.length_cons] at all
    exact all
  have reached := kept.foldl id earlier (s.stalledLong cfg st)
  have resent :=
    @resent_of_lost _ _ _ _ id reached (s.stalledLong cfg st) due lost untried path alive
    elsewhere
  have rest : PassKept cfg _ _ (later.length + 0) := PassKept.refl resent.ready
  have last := rest.foldl id later (s.stalledLong cfg st)
  obtain ⟨before, prior⟩ := reached.accepted
  obtain ⟨after, final⟩ := last.accepted
  obtain ⟨dest, living, taken⟩ := resent.taken
  rw [atOffset, data] at taken
  refine ⟨before ++ [(dest, .streamData { streamId := id, offset := offset, data := u.data })] ++
    after, ?_, dest, living, ?_⟩
  · simp only [retryExpiredUnacked, stream, steerable, Bool.not_true, Bool.false_eq_true, if_false,
      split, List.foldl_append, List.foldl_cons]
    rw [← final, taken, ← prior]
    simp only [List.append_assoc]
  · simp

end

end Session

end NyaLink
