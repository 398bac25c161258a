import NyaLink.Session.PickerContract
import NyaLink.Session.Tidy

/-!
# A retry never goes in place

`pick_retry_path` leaves the path tried last, the retry pass therefore never puts a
piece that is on its way where it already is, and the list of tried paths stays
short and free of duplicates over every run.  A pass over a stream is one step:
the path table and the queues change by its own frames only.
-/

namespace NyaLink

/-! ## The list of tried paths -/

/-- At most eight paths, none twice. -/
structure TriedOk (tried : List Nat) : Prop where
  nodup : tried.Nodup
  short : tried.length ≤ 8

theorem TriedOk.pushTried {tried : List Nat} (ok : TriedOk tried) (id : Nat) :
    TriedOk (pushTried tried id) := by
  by_cases last : tried.getLast? = some id
  · rw [NyaLink.pushTried, if_pos last]
    exact ok
  · rw [NyaLink.pushTried, if_neg last]
    have keptNodup : (tried.filter fun other => other ≠ id).Nodup := ok.nodup.filter _
    have keptShort : (tried.filter fun other => other ≠ id).length ≤ 8 :=
      (List.length_filter_le _ _).trans ok.short
    have absent : id ∉ tried.filter fun other => other ≠ id := by
      intro present
      simpa using (List.mem_filter.mp present).2
    revert keptNodup keptShort absent
    generalize (tried.filter fun other => other ≠ id) = kept
    intro keptNodup keptShort absent
    by_cases full : kept.length = 8
    · dsimp only
      rw [if_pos full]
      refine ⟨?_, by simp [full]⟩
      rw [List.nodup_append_comm, List.singleton_append, List.nodup_cons]
      exact ⟨fun present => absent (List.mem_of_mem_tail present), keptNodup.tail⟩
    · dsimp only
      rw [if_neg full]
      refine ⟨?_, by simp; omega⟩
      rw [List.nodup_append_comm, List.singleton_append, List.nodup_cons]
      exact ⟨absent, keptNodup⟩

theorem triedOk_singleton (path : Nat) : TriedOk [path] :=
  ⟨List.nodup_singleton path, Nat.succ_le_succ (Nat.zero_le 7)⟩

/-! ## What a retry picks -/

section

variable {cfg : SessionConfig} {now : Nat}

/-- Not on the link of the path tried last, if that path is still there. -/
def OnOtherLink (paths : List (Nat × Path)) (tried : List Nat) (entry : Nat × Path) : Prop :=
  ∀ last p, tried.getLast? = some last → (last, p) ∈ paths → entry.2.link ≠ p.link

theorem isOnOtherLink_iff {paths : List (Nat × Path)} (distinct : (paths.map Prod.fst).Nodup)
    (tried : List Nat) (entry : Nat × Path) :
    isOnOtherLink (lastTriedLink paths tried) entry = true ↔ OnOtherLink paths tried entry := by
  unfold lastTriedLink OnOtherLink isOnOtherLink
  cases tried.getLast? with
  | none => simp
  | some last =>
      simp only [Option.bind_some, Option.all_map]
      constructor
      · rintro elsewhere id p ⟨⟩ membership
        rw [(find?_eq_some_iff distinct).mpr ⟨membership, rfl⟩] at elsewhere
        simpa using elsewhere
      · intro elsewhere
        cases found : paths.find? fun other => other.1 = last with
        | none => rfl
        | some first =>
            obtain ⟨membership, rfl⟩ := (find?_eq_some_iff distinct).mp found
            simpa using elsewhere first.1 first.2 rfl membership

/-- What `pick_retry_path` promises about its choice. -/
structure RetryPicked (cfg : SessionConfig) (now : Nat) (paths : List (Nat × Path))
    (tried : List Nat) (id : Nat) (p : Path) : Prop where
  present : (id, p) ∈ paths
  alive : p.isAlive = true
  moved : tried.getLast? ≠ some id
  untried : (∃ entry ∈ paths, entry.2.isAlive = true ∧ entry.1 ∉ tried) → id ∉ tried
  fresh : (∃ entry ∈ paths, entry.1 ∉ tried ∧ isLossFresh cfg now entry.2 = true ∧
      entry.2.isSchedulable = true ∧ OnOtherLink paths tried entry) →
    id ∉ tried ∧ isLossFresh cfg now p = true ∧ p.isSchedulable = true ∧
      OnOtherLink paths tried (id, p)

theorem isUntried_iff (tried : List Nat) (entry : Nat × Path) :
    isUntried tried entry = true ↔ entry.1 ∉ tried := by
  simp [isUntried]

theorem isFreshUntried_iff (tried : List Nat) (entry : Nat × Path) :
    isFreshUntried cfg now tried entry = true ↔
      entry.1 ∉ tried ∧ isLossFresh cfg now entry.2 = true ∧ entry.2.isSchedulable = true := by
  rw [isFreshUntried, Bool.and_eq_true, Bool.and_eq_true, isUntried_iff, and_assoc]

theorem retryPicked {paths : List (Nat × Path)} (distinct : (paths.map Prod.fst).Nodup)
    {tried : List Nat} {id : Nat} (picked : pickRetryPath cfg now paths tried = some id) :
    ∃ p, RetryPicked cfg now paths tried id p := by
  rw [pickRetryPath_eq] at picked
  obtain ⟨p, membership, -⟩ := pickMinRx_least picked
  obtain ⟨present, rung⟩ := mem_retryCandidates membership
  have movedOfUntried : id ∉ tried → tried.getLast? ≠ some id :=
    fun untried last => untried (List.mem_of_getLast? last)
  refine ⟨p, ?_⟩
  rcases rung with ⟨fresh, elsewhere⟩ | ⟨noneElsewhere, ⟨untried, alive⟩ | ⟨noneUntried, other⟩⟩
  · rw [isFreshUntried_iff] at fresh
    rw [isOnOtherLink_iff distinct] at elsewhere
    obtain ⟨untried, lossFresh, schedulable⟩ := fresh
    exact ⟨present, Path.isAlive_of_isSchedulable schedulable, movedOfUntried untried,
      fun _ => untried, fun _ => ⟨untried, lossFresh, schedulable, elsewhere⟩⟩
  all_goals
    have noFresh : ¬ ∃ entry ∈ paths, entry.1 ∉ tried ∧ isLossFresh cfg now entry.2 = true ∧
        entry.2.isSchedulable = true ∧ OnOtherLink paths tried entry := by
      rintro ⟨entry, inTable, untried, lossFresh, schedulable, elsewhere⟩
      have same := noneElsewhere entry inTable
        ((isFreshUntried_iff tried entry).mpr ⟨untried, lossFresh, schedulable⟩)
      rw [(isOnOtherLink_iff distinct tried entry).mpr elsewhere] at same
      cases same
  · rw [isUntried_iff] at untried
    exact ⟨present, alive, movedOfUntried untried, fun _ => untried,
      fun fresh => absurd fresh noFresh⟩
  · rw [isOtherThanLast, Bool.and_eq_true] at other
    obtain ⟨alive, moved⟩ := other
    refine ⟨present, alive, ?_, ?_, fun fresh => absurd fresh noFresh⟩
    · intro last
      rw [last] at moved
      simp at moved
    · rintro ⟨entry, inTable, living, untried⟩
      have dead := noneUntried entry inTable ((isUntried_iff tried entry).mpr untried)
      rw [living] at dead
      cases dead

theorem pickRetryPath_isSome_iff {paths : List (Nat × Path)}
    (distinct : (paths.map Prod.fst).Nodup) {tried : List Nat} :
    (pickRetryPath cfg now paths tried).isSome = true ↔
      ∃ entry ∈ paths, entry.2.isAlive = true ∧ tried.getLast? ≠ some entry.1 := by
  constructor
  · intro some
    obtain ⟨id, picked⟩ := Option.isSome_iff_exists.mp some
    obtain ⟨p, chosen⟩ := retryPicked distinct picked
    exact ⟨(id, p), chosen.present, chosen.alive, chosen.moved⟩
  · rintro ⟨entry, membership, alive, moved⟩
    exact pickRetryPath_isSome membership alive moved

/-- The path tried last is left, also without distinct ids. -/
theorem pickRetryPath_moved {paths : List (Nat × Path)} {tried : List Nat} {id : Nat}
    (picked : pickRetryPath cfg now paths tried = some id) : tried.getLast? ≠ some id := by
  rw [pickRetryPath_eq] at picked
  obtain ⟨p, membership, -⟩ := pickMinRx_least picked
  obtain ⟨-, ⟨fresh, -⟩ | ⟨-, ⟨untried, -⟩ | ⟨-, other⟩⟩⟩ := mem_retryCandidates membership
  · exact fun last => ((isFreshUntried_iff tried _).mp fresh).1 (List.mem_of_getLast? last)
  · exact fun last => (isUntried_iff tried _).mp untried (List.mem_of_getLast? last)
  · intro last
    rw [isOtherThanLast, last, Bool.and_eq_true] at other
    simp at other

end

/-! ## The tried lists of a session -/

namespace Session

/-- Every piece of every stream keeps its list short and free of duplicates. -/
def TriedSound (s : Session) : Prop :=
  ∀ id st, s.streams.get? id = some st → ∀ offset u, st.unacked.get? offset = some u →
    TriedOk u.tried

section

variable {cfg : SessionConfig} {s t : Session}

theorem TriedSound.of_streams (sound : TriedSound s) (same : t.streams = s.streams) :
    TriedSound t := by
  intro id st found
  rw [same] at found
  exact sound id st found

theorem TriedSound.modifyStream (sound : TriedSound s) (id : Nat)
    {change : StreamState → StreamState}
    (kept : ∀ st, s.streams.get? id = some st → ∀ offset u,
      (change st).unacked.get? offset = some u → TriedOk u.tried) :
    TriedSound (s.modifyStream id change) := by
  intro other st found
  rcases OrdMap.get?_modify_cases found with ⟨rfl, before, stored, rfl⟩ | ⟨-, stored⟩
  · exact kept before stored
  · exact sound other st stored

/-- The pieces stay, or are fewer. -/
theorem TriedSound.modifyStream_sub (sound : TriedSound s) (id : Nat)
    {change : StreamState → StreamState}
    (sub : ∀ st offset u, (change st).unacked.get? offset = some u →
      st.unacked.get? offset = some u) : TriedSound (s.modifyStream id change) :=
  sound.modifyStream id fun st stored offset u held => sound id st stored offset u
    (sub st offset u held)

theorem TriedSound.modifyUnacked (sound : TriedSound s) (id offset : Nat)
    {change : Unacked → Unacked} (kept : ∀ u, TriedOk u.tried → TriedOk (change u).tried) :
    TriedSound (s.modifyUnacked id offset change) := by
  apply sound.modifyStream
  intro st stored other u held
  rcases OrdMap.get?_modify_cases held with ⟨-, before, heldBefore, rfl⟩ | ⟨-, heldBefore⟩
  · exact kept before (sound id st stored other before heldBefore)
  · exact sound id st stored other u heldBefore

/-- A piece is marked, its list of tried paths stays. -/
theorem TriedSound.markPiece (sound : TriedSound s) (id offset : Nat)
    {change : Unacked → Unacked} (same : ∀ u, (change u).tried = u.tried) :
    TriedSound (s.modifyUnacked id offset change) :=
  sound.modifyUnacked id offset fun u ok => by rwa [same]

theorem TriedSound.noteCarried (sound : TriedSound s) (id offset : Nat) (sent : Bool) :
    TriedSound (s.noteCarried id offset sent) :=
  sound.markPiece id offset fun _ => rfl

theorem TriedSound.markEnqueued (sound : TriedSound s) (id : Nat) (wait : BulkWait) :
    TriedSound (s.markEnqueued id wait) :=
  sound.markPiece id wait.offset fun _ => rfl

theorem TriedSound.sendDataFrame (sound : TriedSound s) (id offset : Nat) (data : Bytes)
    (path : Nat) : TriedSound (s.sendDataFrame cfg id offset data path).1 :=
  sound.of_streams (sendDataFrame_streams s id offset data path)

theorem TriedSound.sent (sound : TriedSound s) {id offset path : Nat} {data : Bytes}
    {after : Session} {taken : Bool}
    (sent : s.sendDataFrame cfg id offset data path = (after, taken)) : TriedSound after := by
  have streams := @sendDataFrame_streams cfg s id offset data path
  rw [sent] at streams
  exact sound.of_streams streams

theorem TriedSound.rehomeUnacked (sound : TriedSound s) (id offset dest : Nat) (sent : Bool) :
    TriedSound (s.rehomeUnacked id offset dest sent) := by
  unfold Session.rehomeUnacked
  split
  · exact sound
  · rename_i u _
    have moved := sound.of_streams (xferInflight_streams s u.pathId dest u.data.length)
    exact moved.modifyUnacked id offset fun u ok => ok.pushTried dest

theorem TriedSound.noteDataDropped (sound : TriedSound s) (id offset : Nat) :
    TriedSound (s.noteDataDropped id offset) := by
  unfold Session.noteDataDropped
  split
  · exact sound
  · exact sound.markPiece id offset fun _ => rfl

theorem TriedSound.setSticky (sound : TriedSound s) (id path : Nat) :
    TriedSound (s.setSticky id path) := by
  rcases setSticky_streams s id path with same | stuck
  · exact sound.of_streams same
  · have marked : TriedSound (s.modifyStream id fun st => { st with sticky := path }) :=
      sound.modifyStream_sub id fun _ _ _ held => held
    exact marked.of_streams stuck

theorem TriedSound.proceed (sound : TriedSound s) (id : Nat) (rest : Bytes) :
    TriedSound (s.proceed id rest) :=
  sound.of_streams rfl

theorem TriedSound.migrateSendBlocked (sound : TriedSound s) (id path offset : Nat)
    (piece : Bytes) : TriedSound (s.migrateSendBlocked cfg id path offset piece) := by
  unfold Session.migrateSendBlocked
  split
  · exact sound.noteDataDropped id offset
  · rename_i alt _
    split
    · rename_i after failed
      exact (sound.sent failed).noteDataDropped id offset
    · rename_i after sent
      refine TriedSound.of_streams ?_ (xferInflight_streams _ path alt piece.length)
      exact ((sound.sent sent).setSticky id alt).modifyUnacked id offset
        fun u ok => ok.pushTried alt

/-! ## The retry pass -/

theorem TriedSound.resendInteractive (sound : TriedSound s) (id : Nat) (due : Due) :
    TriedSound (s.resendInteractive cfg id due) := by
  unfold Session.resendInteractive
  split
  · exact sound
  · rename_i alt _
    split
    · exact sound
    · split
      · rename_i after sent
        exact (sound.sent sent).rehomeUnacked id due.offset alt true
      · rename_i after failed
        exact (sound.sent failed).modifyUnacked id due.offset fun u ok => ok.pushTried alt

theorem TriedSound.resendBulkOn (sound : TriedSound s) (id : Nat) (due : Due) (alt : Nat) :
    TriedSound (s.resendBulkOn cfg id due alt) := by
  unfold Session.resendBulkOn
  split
  · rename_i after sent
    exact ((sound.sent sent).rehomeUnacked id due.offset alt true).markPiece id due.offset
      fun _ => rfl
  · rename_i after failed
    exact (sound.sent failed).markPiece id due.offset fun _ => rfl

theorem TriedSound.resendBulkFresh (sound : TriedSound s) (id : Nat) (due : Due)
    (picked : Option Nat) : TriedSound (s.resendBulkFresh cfg id due picked) := by
  unfold Session.resendBulkFresh
  split
  · exact sound
  · split
    · exact sound.resendBulkOn id due _
    · exact sound.markPiece id due.offset fun _ => rfl

theorem TriedSound.resendOnSource (sound : TriedSound s) (id : Nat) (due : Due) :
    TriedSound (s.resendOnSource cfg id due).1 := by
  unfold Session.resendOnSource
  split
  · exact sound.sendDataFrame id due.offset due.data due.source
  · exact sound

theorem TriedSound.resendBulk (sound : TriedSound s) (id : Nat) (due : Due) :
    TriedSound (s.resendBulk cfg id due) := by
  unfold Session.resendBulk
  split
  · have tried := @TriedSound.resendOnSource cfg s sound id due
    dsimp only
    split
    · rename_i after sent
      rw [sent] at tried
      exact (tried.rehomeUnacked id due.offset due.source true).markPiece id due.offset
        fun _ => rfl
    · rename_i after failed
      rw [failed] at tried
      exact tried.resendBulkFresh id due _
  · exact sound.resendBulkFresh id due _

theorem TriedSound.resendDue (sound : TriedSound s) (id : Nat) (stalledLong : Bool) (due : Due) :
    TriedSound (Session.resendDue cfg id stalledLong s due) := by
  unfold Session.resendDue
  split
  · exact sound
  · split
    · exact sound
    · split
      · exact sound.resendBulk id due
      · exact sound.resendInteractive id due

theorem TriedSound.retryExpiredUnacked (sound : TriedSound s) (id : Nat) :
    TriedSound (s.retryExpiredUnacked cfg id) := by
  unfold Session.retryExpiredUnacked
  split
  · exact sound
  · split
    · exact sound
    · apply List.foldlRecOn
      · exact sound
      · intro reached soundReached due _
        exact soundReached.resendDue id _ due

/-! ## Every other step -/

theorem TriedSound.retransmitFromOn (sound : TriedSound s) (id source dest : Nat) :
    TriedSound (s.retransmitFromOn cfg id source dest) := by
  unfold Session.retransmitFromOn
  split
  · exact sound
  · apply List.foldlRecOn
    · exact sound
    · intro reached soundReached piece _
      exact ((soundReached.rehomeUnacked id piece.1 dest false).sendDataFrame id piece.1
        piece.2.data dest).noteCarried id piece.1 _

theorem TriedSound.pathFailed (sound : TriedSound s) (path : Nat) (order : List Nat) :
    TriedSound (s.pathFailed cfg path order) := by
  unfold Session.pathFailed
  split
  · exact sound
  · split
    · exact sound
    · have marked : TriedSound (s.markDown path) := sound.of_streams rfl
      have rehomed : TriedSound ((s.markDown path).rehomeUnackedFrom cfg path order) := by
        unfold Session.rehomeUnackedFrom
        split
        · exact marked
        · rename_i alt _
          apply List.foldlRecOn
          · exact marked
          · intro reached soundReached id _
            exact soundReached.retransmitFromOn id path alt
      exact rehomed.of_streams rfl

theorem TriedSound.onAck (sound : TriedSound s) (ack : StreamAck) :
    TriedSound (s.onAck ack) := by
  unfold Session.onAck
  split
  · exact sound
  · refine (sound.of_streams (releasePieces_streams s _)).modifyStream_sub ack.streamId ?_
    intro st offset u held
    rw [StreamState.onAck_unacked, OrdMap.get?_filter_eq_some_iff] at held
    exact held.1

theorem TriedSound.streamEvent (sound : TriedSound s) (id : Nat) (event : StreamEvent) :
    TriedSound (s.streamEvent id event) := by
  unfold Session.streamEvent
  split
  · exact sound
  · rename_i st stream
    have stored := (getStream_eq_some_iff.mp stream).1
    dsimp only
    have released : ∀ after : StreamState,
        (if after.gone then s.releasePieces st.unacked.entries else s).streams = s.streams := by
      intro after
      split
      · exact releasePieces_streams s _
      · rfl
    have replaced : ∀ last : Session, last.streams = s.streams →
        TriedSound (last.modifyStream id fun _ => event.apply st) := by
      intro last same
      apply (sound.of_streams same).modifyStream
      intro _ _ offset u held
      rcases (event.apply_held st).2 with ⟨-, kept⟩ | ⟨-, empty⟩
      · rw [kept] at held
        exact sound id st stored offset u held
      · rw [empty] at held
        cases held
    split
    · exact replaced _ (released _)
    · exact replaced _ (released _)

theorem TriedSound.parkStreamData (sound : TriedSound s) (path : Nat) (data : StreamData) :
    TriedSound (s.parkStreamData cfg path data) := by
  unfold Session.parkStreamData
  split
  · exact sound
  · split
    · exact sound.of_streams rfl
    · refine TriedSound.noteDataDropped ?_ data.streamId data.offset
      exact sound.markPiece data.streamId data.offset fun _ => rfl

theorem TriedSound.writeUrgent (sound : TriedSound s) {path : Nat}
    (written : s.writeUrgent cfg path = some t) : TriedSound t := by
  unfold Session.writeUrgent at written
  split at written
  · cases written
  · split at written
    · cases written
    · rename_i frame rest _
      have taken : TriedSound (s.modifyPath path fun p => { p with urgent := rest }) :=
        sound.of_streams rfl
      dsimp only at written
      split at written
      · split at written
        · obtain rfl := Option.some.inj written
          exact taken.parkStreamData path _
        · obtain rfl := Option.some.inj written
          exact taken
      · obtain rfl := Option.some.inj written
        exact taken

theorem TriedSound.writeBulk (sound : TriedSound s) {path : Nat}
    (written : s.writeBulk path = some t) : TriedSound t := by
  unfold Session.writeBulk at written
  split at written
  · cases written
  · split at written
    · obtain rfl := Option.some.inj written
      exact sound.of_streams rfl
    · cases written

theorem TriedSound.cutPiece (sound : TriedSound s) (id path : Nat) (piece : Bytes)
    (overflow : Bool) : TriedSound (s.cutPiece cfg id path piece overflow) := by
  have cut : TriedSound (s.modifyStream id fun st =>
      { st with
        sendNext := st.sendNext + piece.length
        bulk := st.bulk || decide (cfg.interactiveMax < piece.length) }) :=
    sound.modifyStream_sub id fun _ _ _ held => held
  unfold Session.cutPiece
  dsimp only
  split
  · exact cut
  · exact cut.setSticky id path

theorem TriedSound.placePiece (sound : TriedSound s) (id path offset : Nat) (piece : Bytes) :
    TriedSound (s.placePiece id path offset piece) := by
  have inserted : TriedSound (s.modifyStream id fun st =>
      { st with unacked :=
          st.unacked.insert offset (Endpoint.newUnacked piece path s.now) }) := by
    apply sound.modifyStream
    intro st stored other u held
    rcases OrdMap.get?_insert_cases held with ⟨-, rfl⟩ | before
    · exact triedOk_singleton path
    · exact sound id st stored other u before
  exact inserted.of_streams rfl

theorem TriedSound.sendInserted (sound : TriedSound s) (id path offset : Nat)
    (piece rest : Bytes) (bulk : Bool) :
    TriedSound (s.sendInserted cfg id path offset piece rest bulk) := by
  unfold Session.sendInserted
  split
  · rename_i after sent
    exact ((sound.sent sent).noteCarried id offset true).proceed id rest
  · rename_i after failed
    have reached := sound.sent failed
    split
    · split
      · rename_i p _ _
        have waiting : TriedSound (after.modifyUnacked id offset fun u =>
            { u with retryNotBefore := after.now + downTimeoutFor cfg p }) :=
          reached.markPiece id offset fun _ => rfl
        exact waiting.of_streams rfl
      · exact (reached.migrateSendBlocked id path offset piece).proceed id rest
    · exact (reached.migrateSendBlocked id path offset piece).proceed id rest

theorem TriedSound.resumeWait (sound : TriedSound s) {id : Nat}
    (resumed : s.resumeWait cfg id = some t) : TriedSound t := by
  obtain ⟨rest, wait, st, -, -, went⟩ := resumed_of_resumeWait resumed
  cases went with
  | ended reset => exact sound.proceed id rest
  | enqueued live sent => exact ((sound.sent sent).markEnqueued id wait).proceed id rest
  | migrated live givenUp failed =>
      exact ((sound.sent failed).migrateSendBlocked id wait.pathId wait.offset
        wait.piece).proceed id rest
  | waits live failed => exact sound.sent failed

theorem TriedSound.step (sound : TriedSound s) {action : SessionAction}
    (taken : s.step cfg action = some t) : TriedSound t := by
  cases action with
  | tick us =>
      obtain rfl := Option.some.inj taken
      exact sound.of_streams rfl
  | pathAdd link =>
      obtain rfl := Option.some.inj taken
      exact sound.of_streams rfl
  | pathFailed path order =>
      simp only [Session.step] at taken
      split at taken
      · obtain rfl := Option.some.inj taken
        exact sound.pathFailed path order
      · cases taken
  | recordRtt path sample =>
      obtain rfl := Option.some.inj taken
      exact sound.of_streams rfl
  | touchRx path =>
      obtain rfl := Option.some.inj taken
      exact sound.of_streams rfl
  | markDegraded path =>
      obtain rfl := Option.some.inj taken
      exact sound.of_streams rfl
  | setWriteStalled path stalled =>
      obtain rfl := Option.some.inj taken
      exact sound.of_streams rfl
  | writeUrgent path => exact sound.writeUrgent taken
  | writeBulk path => exact sound.writeBulk taken
  | control path frame =>
      simp only [Session.step] at taken
      split at taken
      · cases taken
      · obtain rfl := Option.some.inj taken
        rcases sendOnPath_cases cfg s path frame with ⟨p, urgent, -, -, -, sent⟩ | same | marked
        · rw [sent]
          exact sound.of_streams rfl
        · rw [same]
          exact sound
        · rw [marked]
          exact sound.of_streams rfl
  | addStream id =>
      simp only [Session.step] at taken
      split at taken
      · cases taken
      · obtain rfl := Option.some.inj taken
        intro other st found
        change (s.streams.insert id _).get? other = some st at found
        rcases OrdMap.get?_insert_cases found with ⟨-, rfl⟩ | before
        · intro offset u held
          cases held
        · exact sound other st before
  | beginSend id data =>
      simp only [Session.step, Session.beginSend] at taken
      split at taken
      · split at taken
        · cases taken
        · obtain rfl := Option.some.inj taken
          exact sound.of_streams rfl
      · cases taken
  | sendPiece id path overflow =>
      obtain ⟨rest, st, p, -, -, -, -, rfl⟩ := sendPiece_eq_some taken
      exact ((sound.cutPiece id path _ overflow).placePiece id path _ _).sendInserted id path _ _
        _ _
  | resumeWait id => exact sound.resumeWait taken
  | endSend id =>
      simp only [Session.step, Session.endSend] at taken
      split at taken
      · obtain rfl := Option.some.inj taken
        exact sound.of_streams rfl
      · cases taken
  | restick id path =>
      obtain rfl := Option.some.inj taken
      exact sound.setSticky id path
  | noteStall id stalled =>
      obtain rfl := Option.some.inj taken
      exact sound.modifyStream_sub id fun _ _ _ held => held
  | onAck ack =>
      obtain rfl := Option.some.inj taken
      exact sound.onAck ack
  | retry id =>
      obtain rfl := Option.some.inj taken
      exact sound.retryExpiredUnacked id
  | streamEvent id event =>
      obtain rfl := Option.some.inj taken
      exact sound.streamEvent id event

theorem triedSound_of_reachable (reachable : (machine cfg).Reachable s) : TriedSound s := by
  apply reachable.invariant
  · rintro start rfl id st found
    cases found
  · intro before action after sound taken
    exact sound.step taken

/-! ## Where the retry pass sends -/

/-- The queues took only frames of this kind. -/
def SendsOnly (allowed : Nat × Frame → Prop) (s t : Session) : Prop :=
  ∃ sent, t.accepted = s.accepted ++ sent ∧ ∀ entry ∈ sent, allowed entry

theorem SendsOnly.of_accepted {allowed : Nat × Frame → Prop} (same : t.accepted = s.accepted) :
    SendsOnly allowed s t := by
  refine ⟨[], ?_, ?_⟩
  · rw [same, List.append_nil]
  · intro entry impossible
    cases impossible

theorem SendsOnly.trans {allowed : Nat × Frame → Prop} {u : Session}
    (first : SendsOnly allowed s t) (second : SendsOnly allowed t u) :
    SendsOnly allowed s u := by
  obtain ⟨sent, accepted, allowedSent⟩ := first
  obtain ⟨more, acceptedMore, allowedMore⟩ := second
  refine ⟨sent ++ more, ?_, ?_⟩
  · rw [acceptedMore, accepted, List.append_assoc]
  · intro entry membership
    exact (List.mem_append.mp membership).elim (allowedSent entry) (allowedMore entry)

theorem SendsOnly.mono {allowed weaker : Nat × Frame → Prop} (sends : SendsOnly allowed s t)
    (implies : ∀ entry, allowed entry → weaker entry) : SendsOnly weaker s t := by
  obtain ⟨sent, accepted, allowedSent⟩ := sends
  exact ⟨sent, accepted, fun entry membership => implies entry (allowedSent entry membership)⟩

theorem sendsOnly_sendOnPath {allowed : Nat × Frame → Prop} {path : Nat} {frame : Frame}
    (fits : allowed (path, frame)) : SendsOnly allowed s (s.sendOnPath cfg path frame).1 := by
  rcases sendOnPath_cases cfg s path frame with ⟨p, urgent, -, -, -, sent⟩ | same | marked
  · rw [sent]
    refine ⟨[(path, frame)], rfl, ?_⟩
    intro entry membership
    obtain rfl := List.mem_singleton.mp membership
    exact fits
  · rw [same]
    exact .of_accepted rfl
  · rw [marked]
    exact .of_accepted rfl

theorem rehomeUnacked_accepted (s : Session) (id offset dest : Nat) (sent : Bool) :
    (s.rehomeUnacked id offset dest sent).accepted = s.accepted := by
  unfold Session.rehomeUnacked
  split
  · rfl
  · exact (xferInflight_now s _ dest _).2

/-- The frame of a piece, on its way to a path it is not on unless it was dropped. -/
def MovesDue (id : Nat) (due : Due) (entry : Nat × Frame) : Prop :=
  entry.2 = .streamData { streamId := id, offset := due.offset, data := due.data } ∧
    (due.dropped = false → entry.1 ≠ due.source)

theorem pickRetryPath_ne_source {due : Due} {alt : Nat}
    (picked : pickRetryPath cfg s.now s.paths.entries (pushTried due.tried due.source) =
      some alt) : alt ≠ due.source := by
  have moved := pickRetryPath_moved picked
  rw [getLast?_pushTried] at moved
  exact fun same => moved (by rw [same])

theorem sendsOnly_sendDue {id path : Nat} {due : Due} {after : Session} {taken : Bool}
    (moved : due.dropped = false → path ≠ due.source)
    (sent : s.sendDataFrame cfg id due.offset due.data path = (after, taken)) :
    SendsOnly (MovesDue id due) s after := by
  have sends := @sendsOnly_sendOnPath cfg s (MovesDue id due) path _ ⟨rfl, moved⟩
  change SendsOnly _ s (s.sendDataFrame cfg id due.offset due.data path).1 at sends
  rwa [sent] at sends

theorem sendsOnly_resendInteractive (s : Session) (id : Nat) (due : Due) :
    SendsOnly (MovesDue id due) s (s.resendInteractive cfg id due) := by
  unfold Session.resendInteractive
  split
  · exact .of_accepted rfl
  · rename_i alt picked
    have moved : due.dropped = false → alt ≠ due.source := fun _ => pickRetryPath_ne_source picked
    split
    · exact .of_accepted rfl
    · split
      · rename_i after sent
        exact (sendsOnly_sendDue moved sent).trans
          (.of_accepted (rehomeUnacked_accepted after id due.offset alt true))
      · rename_i after failed
        exact (sendsOnly_sendDue moved failed).trans (.of_accepted rfl)

theorem sendsOnly_resendBulkFresh (s : Session) (id : Nat) (due : Due) {picked : Option Nat}
    (moved : due.dropped = false → ∀ alt, picked = some alt → alt ≠ due.source) :
    SendsOnly (MovesDue id due) s (s.resendBulkFresh cfg id due picked) := by
  unfold Session.resendBulkFresh
  split
  · exact .of_accepted rfl
  · rename_i alt
    have away : due.dropped = false → alt ≠ due.source := fun kept => moved kept alt rfl
    split
    · unfold Session.resendBulkOn
      split
      · rename_i after sent
        refine (sendsOnly_sendDue away sent).trans ?_
        exact .of_accepted (rehomeUnacked_accepted after id due.offset alt true)
      · rename_i after failed
        exact (sendsOnly_sendDue away failed).trans (.of_accepted rfl)
    · exact .of_accepted rfl

theorem sendsOnly_resendBulk (s : Session) (id : Nat) (due : Due) :
    SendsOnly (MovesDue id due) s (s.resendBulk cfg id due) := by
  unfold Session.resendBulk
  split
  · rename_i dropped
    have free : ∀ {path : Nat}, due.dropped = false → path ≠ due.source := by
      intro path kept
      rw [dropped] at kept
      cases kept
    have onSource : SendsOnly (MovesDue id due) s (s.resendOnSource cfg id due).1 := by
      unfold Session.resendOnSource
      split
      · exact sendsOnly_sendOnPath ⟨rfl, free⟩
      · exact .of_accepted rfl
    dsimp only
    split
    · rename_i after sent
      rw [sent] at onSource
      refine onSource.trans ?_
      exact .of_accepted (rehomeUnacked_accepted after id due.offset due.source true)
    · rename_i after failed
      rw [failed] at onSource
      exact onSource.trans
        (sendsOnly_resendBulkFresh after id due fun kept _ _ => free kept)
  · exact sendsOnly_resendBulkFresh s id due fun _ _ picked => pickRetryPath_ne_source picked

theorem sendsOnly_resendDue (id : Nat) (stalledLong : Bool) (s : Session) (due : Due) :
    SendsOnly (MovesDue id due) s (Session.resendDue cfg id stalledLong s due) := by
  unfold Session.resendDue
  split
  · exact .of_accepted rfl
  · split
    · exact .of_accepted rfl
    · split
      · exact sendsOnly_resendBulk s id due
      · exact sendsOnly_resendInteractive s id due

/-- A due piece is one of the stream's, as it was when the pass began. -/
theorem pieceAt_of_due {id : Nat} {st : StreamState} {due : Due}
    (stored : s.streams.get? id = some st) (membership : due ∈ s.dues cfg st) :
    ∃ u, s.pieceAt id due.offset = some u ∧ due.data = u.data ∧ due.dropped = u.dropped ∧
      due.source = u.pathId := by
  obtain ⟨⟨offset, u⟩, inMap, dueOf⟩ := List.mem_filterMap.mp membership
  have held : st.unacked.get? offset = some u := OrdMap.get?_eq_some_iff.mpr inMap
  unfold Session.dueOf at dueOf
  split at dueOf
  · cases dueOf
  · obtain ⟨why, -, rfl⟩ := Option.map_eq_some_iff.mp dueOf
    exact ⟨u, Option.bind_eq_some_iff.mpr ⟨st, stored, held⟩, rfl, rfl, rfl⟩

/-- A frame of a piece of the stream, not to the path the piece is on unless it was dropped. -/
def MovesPiece (s : Session) (id : Nat) (entry : Nat × Frame) : Prop :=
  ∃ offset u, s.pieceAt id offset = some u ∧
    entry.2 = .streamData { streamId := id, offset := offset, data := u.data } ∧
    (u.dropped = false → entry.1 ≠ u.pathId)

theorem sendsOnly_retryExpiredUnacked (s : Session) (id : Nat) :
    SendsOnly (MovesPiece s id) s (s.retryExpiredUnacked cfg id) := by
  unfold Session.retryExpiredUnacked
  split
  · exact .of_accepted rfl
  · rename_i st stream
    have stored := (getStream_eq_some_iff.mp stream).1
    split
    · exact .of_accepted rfl
    · apply List.foldlRecOn
        (motive := fun reached : Session => SendsOnly (MovesPiece s id) s reached)
      · exact .of_accepted rfl
      · intro reached sends due membership
        obtain ⟨u, held, sameData, sameDropped, sameSource⟩ := pieceAt_of_due stored membership
        refine sends.trans ((sendsOnly_resendDue id _ reached due).mono ?_)
        rintro entry ⟨frame, moved⟩
        rw [sameData] at frame
        rw [sameDropped, sameSource] at moved
        exact ⟨due.offset, u, held, frame, moved⟩

end

/-- A retry picks an alive path other than the one tried last, an untried one and a fresh one
on another link when it can; the retry pass moves what it re-sends; and no list of tried paths
grows beyond eight or repeats a path. -/
theorem retry_moves (cfg : SessionConfig) :
    (∀ now paths tried, (paths.map Prod.fst).Nodup →
      ((pickRetryPath cfg now paths tried).isSome = true ↔
        ∃ entry ∈ paths, entry.2.isAlive = true ∧ tried.getLast? ≠ some entry.1) ∧
      ∀ id, pickRetryPath cfg now paths tried = some id →
        ∃ p, RetryPicked cfg now paths tried id p) ∧
    ∀ s, (machine cfg).Reachable s →
      TriedSound s ∧ ∀ id, SendsOnly (MovesPiece s id) s (s.retryExpiredUnacked cfg id) := by
  constructor
  · intro now paths tried distinct
    exact ⟨pickRetryPath_isSome_iff distinct, fun id picked => retryPicked distinct picked⟩
  · intro s reachable
    exact ⟨triedSound_of_reachable reachable, fun id => sendsOnly_retryExpiredUnacked s id⟩

/-- A byte is sent on the first of two living paths and is not acknowledged for half a second. -/
def agedSchedule : List SessionAction :=
  [.pathAdd "a", .pathAdd "b", .addStream 1, .beginSend 1 [7], .sendPiece 1 1 false, .tick 500000]

/-- The pass puts the byte on the other path. -/
theorem retry_moves_sibling :
    (∃ p, RetryPicked .standard 0 [(1, BudgetedPath.steadyPath), (2, BudgetedPath.steadyPath)]
      [1] 2 p) ∧
    ∃ s, (machine .standard).run new agedSchedule = some s ∧ s.aliveAt 1 = true ∧
      (s.pieceAt 1 0).map (fun u => (u.pathId, u.dropped)) = some (1, false) ∧
      (s.retryExpiredUnacked .standard 1).accepted =
        s.accepted ++ [(2, .streamData { streamId := 1, offset := 0, data := [7] })] ∧
      TriedSound s ∧ SendsOnly (MovesPiece s 1) s (s.retryExpiredUnacked .standard 1) := by
  obtain ⟨picks, runs⟩ := retry_moves .standard
  have distinct : ([(1, BudgetedPath.steadyPath), (2, BudgetedPath.steadyPath)].map
      Prod.fst).Nodup := by decide
  have history : ((machine .standard).run new agedSchedule).map (fun s =>
      (s.aliveAt 1, (s.pieceAt 1 0).map (fun u => (u.pathId, u.dropped)),
        decide ((s.retryExpiredUnacked .standard 1).accepted = s.accepted ++
          [(2, .streamData { streamId := 1, offset := 0, data := [7] })]))) =
        some (true, some (1, false), true) := by decide +kernel
  obtain ⟨s, ran, made⟩ := Option.map_eq_some_iff.mp history
  obtain ⟨alive, rest⟩ := Prod.mk.inj made
  obtain ⟨piece, accepted⟩ := Prod.mk.inj rest
  obtain ⟨sound, moves⟩ := runs s (Machine.Reachable.run (.start rfl) ran)
  exact ⟨(picks 0 _ [1] distinct).2 2 (by decide), s, ran, alive, piece, of_decide_eq_true accepted,
    sound, moves 1⟩

end Session

end NyaLink
