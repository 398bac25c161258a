import NyaLink.Session.RetryPass

/-!
# Control frames are retried

The pass of one `maintain` tick over the three tables.  An entry whose clock has
passed gets its frame onto the queue of an alive path as long as there is one
that its picker does not exclude: for a StreamOpen any path but the one tried
last, for a StreamClose and a StreamReset the paths not tried yet.  A pass is one
step: nothing else acts while it works through its snapshot.
-/

namespace NyaLink

section

variable {cfg : SessionConfig}

theorem steady_isDue {Body : Type} (s t : Session) (n : Nat) (o : Outstanding Body)
    (offers : Session.Offers s t n) : isDue cfg t o = isDue cfg s o := by
  rw [isDue, isDue, offers.clock, offers.now]

theorem steady_always {Body : Type} (s t : Session) (n : Nat) (_o : Outstanding Body)
    (_offers : Session.Offers s t n) : true = true := rfl

end

namespace Work

variable {cfg : SessionConfig} {Body : Type}

/-- Entries of the table whose clock has passed. -/
def dueEntries (cfg : SessionConfig) (w : Work Body) : Nat :=
  dueCount (isDue cfg) w.session w.table.entries

theorem dueCount_always (s : Session) (entries : List (Nat × Outstanding Body)) :
    dueCount (fun _ _ => true) s entries = entries.length := by
  simp [dueCount]

theorem offers_retryOpens (w : Work Target) :
    Session.Offers w.session (w.retryOpens cfg).session (w.dueEntries cfg) := by
  have passed := @passed_foldl Target cfg (openRules cfg) (fun _ _ => true)
    (fun alt o => o.burn alt w.session.now) steady_always
    (w.table.entries.filter fun entry => isDue cfg w.session entry.2) w
  rw [dueCount_always] at passed
  exact passed.offers

theorem dueCount_reap_le (w : Work Body) :
    dueCount (isDue cfg) (w.reap cfg).session
      ((w.reap cfg).table.entries.filter fun _ => true) ≤ w.dueEntries cfg := by
  have fewer : ((w.reap cfg).table.entries.filter fun _ => true).Sublist w.table.entries :=
    List.filter_sublist.trans List.filter_sublist
  exact (fewer.filter fun entry => isDue cfg w.session entry.2).length_le

theorem offers_timer (rules : RetryRules Body) (w : Work Body) :
    Session.Offers w.session ((w.reap cfg).retryAll cfg rules (isDue cfg)
      (fun _ o => o.postpone w.session.now) fun _ => true).session (w.dueEntries cfg) := by
  have passed := @passed_foldl Body cfg rules (isDue cfg) (fun _ o => o.postpone w.session.now)
    steady_isDue ((w.reap cfg).table.entries.filter fun _ => true) (w.reap cfg)
  exact passed.offers.weaken w.dueCount_reap_le

theorem offers_retryCloses (w : Work CloseBody) :
    Session.Offers w.session (w.retryCloses cfg).session (w.dueEntries cfg) :=
  offers_timer (closeRules cfg) w

theorem offers_retryResets (w : Work ResetReason) :
    Session.Offers w.session (w.retryResets cfg).session (w.dueEntries cfg) :=
  offers_timer (resetRules cfg) w

/-! ## The entry of each table -/

theorem retryOpens_visit {w : Work Target} {id : Nat} {o : Outstanding Target}
    (found : w.table.get? id = some o) (clock : isDue cfg w.session o = true) :
    Visit cfg (openRules cfg) (fun tried alt => tried.getLast? ≠ some alt) (fun _ _ => true)
      (fun alt o => o.burn alt w.session.now) (w.dueEntries cfg) w (w.retryOpens cfg) id o := by
  have visit := @retryAll_visit Target cfg (openRules cfg) _ (fun _ _ => true)
    (fun alt o => o.burn alt w.session.now) (follows_openRules cfg) steady_always
    (isDue cfg w.session) w id o found clock
  rw [dueCount_always] at visit
  exact visit

def young (cfg : SessionConfig) (s : Session) (o : Outstanding Body) : Bool :=
  decide (s.now - o.startedAt < cfg.closeLingerMs * 1000)

theorem get?_reap {w : Work Body} {id : Nat} {o : Outstanding Body}
    (found : w.table.get? id = some o) (recent : young cfg w.session o = true) :
    (w.reap cfg).table.get? id = some o :=
  OrdMap.get?_filter_eq_some_iff.mpr ⟨found, recent⟩

theorem Visit.weaken {rules : RetryRules Body} {eligible : List Nat → Nat → Prop}
    {due : Session → Outstanding Body → Bool}
    {refused : Nat → Outstanding Body → Outstanding Body} {slots more : Nat}
    {w after : Work Body} {id : Nat} {o : Outstanding Body}
    (visit : Visit cfg rules eligible due refused slots w after id o) (fewer : slots ≤ more) :
    Visit cfg rules eligible due refused more w after id o := by
  cases visit with
  | idle copies kept nowhere => exact .idle copies kept nowhere
  | tried attempt only alive fits running clock kept accepted room =>
      refine .tried attempt only alive fits running clock kept accepted ?_
      exact fun p found free => room p found (by omega)

theorem timer_visit {rules : RetryRules Body} {eligible : List Nat → Nat → Prop}
    (follows : rules.Follows eligible) {w : Work Body} {id : Nat} {o : Outstanding Body}
    (found : w.table.get? id = some o) (recent : young cfg w.session o = true) :
    Visit cfg rules eligible (isDue cfg) (fun _ o => o.postpone w.session.now) (w.dueEntries cfg)
      (w.reap cfg) ((w.reap cfg).retryAll cfg rules (isDue cfg)
        (fun _ o => o.postpone w.session.now) fun _ => true) id o := by
  have visit := @retryAll_visit Body cfg rules eligible (isDue cfg)
    (fun _ o => o.postpone w.session.now) follows steady_isDue (fun _ => true) (w.reap cfg) id o
    (get?_reap found recent) rfl
  exact visit.weaken w.dueCount_reap_le

theorem retryCloses_visit {w : Work CloseBody} {id : Nat} {o : Outstanding CloseBody}
    (found : w.table.get? id = some o) (recent : young cfg w.session o = true) :
    Visit cfg (closeRules cfg) (fun tried alt => alt ∉ tried) (isDue cfg)
      (fun _ o => o.postpone w.session.now) (w.dueEntries cfg) (w.reap cfg) (w.retryCloses cfg)
      id o :=
  timer_visit (follows_closeRules cfg) found recent

theorem retryResets_visit {w : Work ResetReason} {id : Nat} {o : Outstanding ResetReason}
    (found : w.table.get? id = some o) (recent : young cfg w.session o = true) :
    Visit cfg (resetRules cfg) (fun tried alt => alt ∉ tried) (isDue cfg)
      (fun _ o => o.postpone w.session.now) (w.dueEntries cfg) (w.reap cfg) (w.retryResets cfg)
      id o :=
  timer_visit (follows_resetRules cfg) found recent

theorem Visit.frame_taken {rules : RetryRules Body} {eligible : List Nat → Nat → Prop}
    {due : Session → Outstanding Body → Bool}
    {refused : Nat → Outstanding Body → Outstanding Body} {slots : Nat}
    {w after : Work Body} {id : Nat} {o : Outstanding Body}
    (visit : Visit cfg rules eligible due refused slots w after id o)
    (running : rules.forget w.session id o = false) (clock : due w.session o = true)
    (path : ∃ alt, w.session.aliveAt alt = true ∧ eligible o.tried alt)
    (room : ∀ alt p, w.session.getPath alt = some p → p.isAlive = true → eligible o.tried alt →
      p.urgent.length + slots ≤ cfg.chan) :
    ∃ alt, w.session.aliveAt alt = true ∧ eligible o.tried alt ∧
      (alt, rules.frame id o.body) ∈ taken w after := by
  cases visit with
  | idle copies kept nowhere =>
      obtain ⟨alt, alive, fits⟩ := path
      exact absurd fits (nowhere running clock alt alive)
  | tried attempt only alive fits _ _ kept accepted free =>
      obtain ⟨p, found, living⟩ := Session.aliveAt_eq_true_iff.mp alive
      have success := free p found (room attempt.path p found living fits)
      exact ⟨attempt.path, alive, fits, accepted success⟩

theorem Visit.frame_taken_after {rules : RetryRules Body} {eligible : List Nat → Nat → Prop}
    {due : Session → Outstanding Body → Bool}
    {refused : Nat → Outstanding Body → Outstanding Body} {n slots : Nat} {s : Session}
    {w after : Work Body} {id : Nat} {o : Outstanding Body}
    (visit : Visit cfg rules eligible due refused slots w after id o)
    (offers : Session.Offers s w.session n)
    (running : rules.forget w.session id o = false) (clock : due w.session o = true)
    (path : ∃ alt, s.aliveAt alt = true ∧ eligible o.tried alt)
    (room : ∀ alt p, s.getPath alt = some p → p.isAlive = true → eligible o.tried alt →
      p.urgent.length + (n + slots) ≤ cfg.chan) :
    ∃ alt, s.aliveAt alt = true ∧ eligible o.tried alt ∧
      (alt, rules.frame id o.body) ∈ taken w after := by
  have pathHere : ∃ alt, w.session.aliveAt alt = true ∧ eligible o.tried alt := by
    obtain ⟨alt, alive, fits⟩ := path
    exact ⟨alt, (offers.alive alt).trans alive, fits⟩
  have roomHere : ∀ alt q, w.session.getPath alt = some q → q.isAlive = true →
      eligible o.tried alt → q.urgent.length + slots ≤ cfg.chan := by
    intro alt q present living fits
    obtain ⟨p, before, grown⟩ := offers.urgent alt q present
    have aliveBefore : s.aliveAt alt = true :=
      (offers.alive alt).symm.trans (Session.aliveAt_eq_true_iff.mpr ⟨q, present, living⟩)
    obtain ⟨same, foundSame, livingBefore⟩ := Session.aliveAt_eq_true_iff.mp aliveBefore
    obtain rfl : same = p := Option.some.inj (foundSame.symm.trans before)
    have free := room alt same before livingBefore fits
    omega
  obtain ⟨alt, alive, fits, membership⟩ := visit.frame_taken running clock pathHere roomHere
  exact ⟨alt, (offers.alive alt).symm.trans alive, fits, membership⟩

theorem dueEntries_of_offers {s : Session} {w : Work Body} {n : Nat}
    (offers : Session.Offers s w.session n) :
    w.dueEntries cfg = ({ w with session := s } : Work Body).dueEntries cfg := by
  unfold dueEntries dueCount
  rw [List.filter_congr fun entry _ => steady_isDue _ _ _ entry.2 offers]

theorem young_of_offers {s t : Session} {n : Nat} (offers : Session.Offers s t n)
    (o : Outstanding Body) : young cfg t o = young cfg s o := by
  rw [young, young, offers.now]

end Work

/-! ## The pass -/

namespace Controls

variable (cfg : PickConfig) (c : Controls)

def passFrames : Nat :=
  (⟨c.session, c.opens, c.attempts⟩ : Work Target).dueEntries cfg.toSessionConfig +
    (⟨c.session, c.closes, c.attempts⟩ : Work CloseBody).dueEntries cfg.toSessionConfig +
    (⟨c.session, c.resets, c.attempts⟩ : Work ResetReason).dueEntries cfg.toSessionConfig

/-- The frames that queues took in the pass. -/
def takenInPass : List (Nat × Frame) :=
  (c.retryPass cfg).session.accepted.drop c.session.accepted.length

/-- An eligible path is alive, and every one has room for the frames of the pass. -/
structure PathReady (eligible : Nat → Prop) : Prop where
  path : ∃ alt, c.session.aliveAt alt = true ∧ eligible alt
  room : ∀ alt p, c.session.getPath alt = some p → p.isAlive = true → eligible alt →
    p.urgent.length + c.passFrames cfg ≤ cfg.chan

variable {cfg c} in
theorem PathReady.of_entries {eligible : Nat → Prop}
    (path : ∃ entry ∈ c.session.paths.entries, entry.2.isAlive = true ∧ eligible entry.1)
    (room : ∀ entry ∈ c.session.paths.entries, entry.2.isAlive = true → eligible entry.1 →
      entry.2.urgent.length + c.passFrames cfg ≤ cfg.chan) : c.PathReady cfg eligible where
  path := by
    obtain ⟨⟨alt, p⟩, membership, alive, fits⟩ := path
    exact ⟨alt, Session.aliveAt_iff_entry.mpr ⟨p, membership, alive⟩, fits⟩
  room alt p found := room (alt, p) (Session.mem_entries_iff_getPath.mpr found)

/-- A frame of the pass went to an alive path that is eligible. -/
def Lands (eligible : Nat → Prop) (frame : Frame) : Prop :=
  ∃ alt, c.session.aliveAt alt = true ∧ eligible alt ∧ (alt, frame) ∈ c.takenInPass cfg

/-- The stop condition of a close is not met. -/
def closeRuns (id : Nat) (o : Outstanding CloseBody) : Prop :=
  ∃ st, c.session.getStream id = some st ∧ (o.body.secondCloser = false → st.recvFin = false)

variable {cfg c}

theorem forget_of_closeRuns {id : Nat} {o : Outstanding CloseBody} (runs : c.closeRuns id o) :
    (closeRules cfg.toSessionConfig).forget c.session id o = false := by
  obtain ⟨st, found, isOpen⟩ := runs
  simp only [closeRules, found]
  cases second : o.body.secondCloser with
  | true => rfl
  | false => simp [isOpen second]

theorem mem_drop_append {first second third : List (Nat × Frame)} {x : Nat × Frame}
    (earlier : first <+: second) (later : second <+: third)
    (membership : x ∈ third.drop second.length) : x ∈ third.drop first.length := by
  have shorter := earlier.length_le
  obtain ⟨rest, rfl⟩ := later
  rw [List.drop_left] at membership
  rw [List.drop_append]
  exact List.mem_append_right _ (by rwa [Nat.sub_eq_zero_of_le shorter, List.drop_zero])

theorem open_lands {id : Nat} {o : Outstanding Target} (found : c.opens.get? id = some o)
    (clock : isDue cfg.toSessionConfig c.session o = true)
    (ready : c.PathReady cfg fun alt => o.tried.getLast? ≠ some alt) :
    c.Lands cfg (fun alt => o.tried.getLast? ≠ some alt) (.streamOpen ⟨id, o.body⟩) := by
  have visit := @Work.retryOpens_visit cfg.toSessionConfig ⟨c.session, c.opens, c.attempts⟩ id o
    found clock
  obtain ⟨alt, alive, fits, membership⟩ := visit.frame_taken rfl rfl ready.path
    fun alt p present living eligible => by
      have slots := ready.room alt p present living eligible
      simp only [passFrames] at slots
      omega
  have closes := @Work.offers_retryCloses cfg.toSessionConfig
    ⟨(c.retryOpens cfg).session, (c.retryOpens cfg).closes, (c.retryOpens cfg).attempts⟩
  have resets := @Work.offers_retryResets cfg.toSessionConfig
    ⟨((c.retryOpens cfg).retryCloses cfg).session, ((c.retryOpens cfg).retryCloses cfg).resets,
      ((c.retryOpens cfg).retryCloses cfg).attempts⟩
  exact ⟨alt, alive, fits,
    Work.mem_drop_of_prefix (closes.accepted.trans resets.accepted) membership⟩

theorem close_lands {id : Nat} {o : Outstanding CloseBody} (found : c.closes.get? id = some o)
    (runs : c.closeRuns id o) (recent : Work.young cfg.toSessionConfig c.session o = true)
    (clock : isDue cfg.toSessionConfig c.session o = true)
    (ready : c.PathReady cfg fun alt => alt ∉ o.tried) :
    c.Lands cfg (fun alt => alt ∉ o.tried) (.streamClose ⟨id, o.body.finalOffset⟩) := by
  have opens := @Work.offers_retryOpens cfg.toSessionConfig ⟨c.session, c.opens, c.attempts⟩
  have closes := @Work.offers_retryCloses cfg.toSessionConfig
    ⟨(c.retryOpens cfg).session, c.closes, (c.retryOpens cfg).attempts⟩
  have resets := @Work.offers_retryResets cfg.toSessionConfig
    ⟨((c.retryOpens cfg).retryCloses cfg).session, c.resets,
      ((c.retryOpens cfg).retryCloses cfg).attempts⟩
  have visit := @Work.retryCloses_visit cfg.toSessionConfig
    ⟨(c.retryOpens cfg).session, c.closes, (c.retryOpens cfg).attempts⟩ id o found
    ((Work.young_of_offers opens o).trans recent)
  have room : ∀ alt p, c.session.getPath alt = some p → p.isAlive = true → alt ∉ o.tried →
      p.urgent.length + ((⟨c.session, c.opens, c.attempts⟩ : Work Target).dueEntries
        cfg.toSessionConfig + (⟨(c.retryOpens cfg).session, c.closes,
          (c.retryOpens cfg).attempts⟩ : Work CloseBody).dueEntries cfg.toSessionConfig) ≤
        cfg.chan := by
    intro alt p present living eligible
    have slots := ready.room alt p present living eligible
    rw [Work.dueEntries_of_offers (w := ⟨(c.retryOpens cfg).session, c.closes, _⟩) opens]
    simp only [passFrames] at slots
    simp only [Work.dueEntries] at slots ⊢
    omega
  obtain ⟨alt, alive, fits, membership⟩ := visit.frame_taken_after opens
    ((follows_closeRules _).forget _ _ _ id o opens ▸ forget_of_closeRuns runs)
    ((steady_isDue _ _ _ o opens).trans clock) ready.path room
  exact ⟨alt, alive, fits, mem_drop_append opens.accepted (closes.accepted.trans resets.accepted)
    (Work.mem_drop_of_prefix resets.accepted membership)⟩

theorem reset_lands {id : Nat} {o : Outstanding ResetReason} (found : c.resets.get? id = some o)
    (recent : Work.young cfg.toSessionConfig c.session o = true)
    (clock : isDue cfg.toSessionConfig c.session o = true)
    (ready : c.PathReady cfg fun alt => alt ∉ o.tried) :
    c.Lands cfg (fun alt => alt ∉ o.tried) (.streamReset ⟨id, o.body⟩) := by
  have opens := @Work.offers_retryOpens cfg.toSessionConfig ⟨c.session, c.opens, c.attempts⟩
  have closes := @Work.offers_retryCloses cfg.toSessionConfig
    ⟨(c.retryOpens cfg).session, c.closes, (c.retryOpens cfg).attempts⟩
  have before := opens.trans closes
  have resets := @Work.offers_retryResets cfg.toSessionConfig
    ⟨((c.retryOpens cfg).retryCloses cfg).session, c.resets,
      ((c.retryOpens cfg).retryCloses cfg).attempts⟩
  have visit := @Work.retryResets_visit cfg.toSessionConfig
    ⟨((c.retryOpens cfg).retryCloses cfg).session, c.resets,
      ((c.retryOpens cfg).retryCloses cfg).attempts⟩ id o found
    ((Work.young_of_offers before o).trans recent)
  have room : ∀ alt p, c.session.getPath alt = some p → p.isAlive = true → alt ∉ o.tried →
      p.urgent.length + ((⟨c.session, c.opens, c.attempts⟩ : Work Target).dueEntries
        cfg.toSessionConfig + (⟨(c.retryOpens cfg).session, c.closes,
          (c.retryOpens cfg).attempts⟩ : Work CloseBody).dueEntries cfg.toSessionConfig +
        (⟨((c.retryOpens cfg).retryCloses cfg).session, c.resets,
          ((c.retryOpens cfg).retryCloses cfg).attempts⟩ : Work ResetReason).dueEntries
          cfg.toSessionConfig) ≤ cfg.chan := by
    intro alt p present living eligible
    have slots := ready.room alt p present living eligible
    rw [Work.dueEntries_of_offers (w := ⟨(c.retryOpens cfg).session, c.closes, _⟩) opens,
      Work.dueEntries_of_offers
        (w := ⟨((c.retryOpens cfg).retryCloses cfg).session, c.resets, _⟩) before]
    simp only [passFrames] at slots
    simp only [Work.dueEntries] at slots ⊢
    omega
  obtain ⟨alt, alive, fits, membership⟩ := visit.frame_taken_after before
    ((follows_resetRules _).forget _ _ _ id o before)
    ((steady_isDue _ _ _ o before).trans clock) ready.path room
  exact ⟨alt, alive, fits, mem_drop_append before.accepted resets.accepted membership⟩

/-- The next pass gets a remembered control frame onto the queue of an alive path that its picker
does not exclude. -/
theorem control_frame_lands (cfg : PickConfig) (c : Controls) :
    (∀ id o, c.opens.get? id = some o → isDue cfg.toSessionConfig c.session o = true →
      c.PathReady cfg (fun alt => o.tried.getLast? ≠ some alt) →
      c.Lands cfg (fun alt => o.tried.getLast? ≠ some alt) (.streamOpen ⟨id, o.body⟩)) ∧
    (∀ id o, c.closes.get? id = some o → c.closeRuns id o →
      Work.young cfg.toSessionConfig c.session o = true →
      isDue cfg.toSessionConfig c.session o = true →
      c.PathReady cfg (fun alt => alt ∉ o.tried) →
      c.Lands cfg (fun alt => alt ∉ o.tried) (.streamClose ⟨id, o.body.finalOffset⟩)) ∧
    ∀ id o, c.resets.get? id = some o → Work.young cfg.toSessionConfig c.session o = true →
      isDue cfg.toSessionConfig c.session o = true →
      c.PathReady cfg (fun alt => alt ∉ o.tried) →
      c.Lands cfg (fun alt => alt ∉ o.tried) (.streamReset ⟨id, o.body⟩) :=
  ⟨fun _ _ found clock ready => open_lands found clock ready,
    fun _ _ found runs recent clock ready => close_lands found runs recent clock ready,
    fun _ _ found recent clock ready => reset_lands found recent clock ready⟩

def poolOf (ids : List Nat) (urgent : List Frame) : OrdMap Nat Path :=
  ids.foldl (fun paths id =>
    paths.insert id { BudgetedPath.steadyPath with urgent := urgent }) .empty

/-- One frame of each kind was sent on the only path; then another one joins. -/
def joinedLater : List ControlAction :=
  [.pool (poolOf [1] []), .openStream 1 ⟨"a", 80⟩, .openStream 2 ⟨"a", 80⟩, .closeSend 1,
    .resetStream 2 .timeout, .pool (poolOf [1, 2] []), .tick 50000]

theorem control_frame_lands_joined : ∃ c : Controls, (machine .standard).Reachable c ∧
    c.Lands .standard (fun alt => [1].getLast? ≠ some alt) (.streamOpen ⟨1, ⟨"a", 80⟩⟩) ∧
    c.Lands .standard (fun alt => alt ∉ [1]) (.streamClose ⟨1, some 0⟩) ∧
    c.Lands .standard (fun alt => alt ∉ [1]) (.streamReset ⟨2, .timeout⟩) := by
  have replayed : ∃ c, (machine .standard).run (.new true) joinedLater = some c ∧
      c.opens.get? 1 = some (.first 1 0 ⟨"a", 80⟩) ∧
      c.closes.get? 1 = some (.first 1 0 ⟨false, some 0⟩) ∧
      c.resets.get? 2 = some (.first 1 0 .timeout) ∧
      c.session.getStream 1 ≠ none ∧ (∀ st ∈ c.session.getStream 1, st.recvFin = false) ∧
      c.session.now = 50000 ∧ c.session.retryAfter SessionConfig.standard 1 = 40000 ∧
      (∃ entry ∈ c.session.paths.entries, entry.2.isAlive = true ∧ entry.1 ∉ [1]) ∧
      ∀ entry ∈ c.session.paths.entries, entry.2.isAlive = true → entry.1 ∉ [1] →
        entry.2.urgent.length + c.passFrames .standard ≤ 64 := by
    refine ⟨_, rfl, ?_⟩
    decide +kernel
  obtain ⟨c, replay, opened, closed, reset, present, unfinished, now, clock, path, room⟩ := replayed
  obtain ⟨opens, closes, resets⟩ := control_frame_lands .standard c
  have due : ∀ {Body : Type} (body : Body),
      isDue SessionConfig.standard c.session (.first 1 0 body) = true := by
    intro Body body
    simp only [isDue, Outstanding.first, clock, now]
    decide
  have recent : ∀ {Body : Type} (body : Body),
      Work.young SessionConfig.standard c.session (.first 1 0 body) = true := by
    intro Body body
    simp only [Work.young, Outstanding.first, now]
    decide
  obtain ⟨st, found⟩ := Option.ne_none_iff_exists'.mp present
  refine ⟨c, (reachable_new .standard true).run replay, ?_, ?_, ?_⟩
  · refine opens 1 _ opened (due _) (.of_entries ?_ ?_)
    · obtain ⟨entry, membership, alive, other⟩ := path
      exact ⟨entry, membership, alive, fun last => other (List.mem_of_getLast? last)⟩
    · intro entry membership alive moved
      refine room entry membership alive fun same => moved ?_
      rw [List.mem_singleton.mp same]
      rfl
  · exact closes 1 _ closed ⟨st, found, fun _ => unfinished st found⟩ (recent _) (due _)
      (.of_entries path room)
  · exact resets 2 _ reset (recent _) (due _) (.of_entries path room)

/-- No queue has taken the frame, an alive path is there and each has a free slot, and yet the
pass does not send it. -/
structure PassedOver (cfg : PickConfig) (c : Controls) (frame : Frame) : Prop where
  refused : ∀ entry ∈ c.session.accepted, entry.2 ≠ frame
  path : ∃ entry ∈ c.session.paths.entries, entry.2.isAlive = true
  room : ∀ entry ∈ c.session.paths.entries, entry.2.isAlive = true →
    entry.2.urgent.length < cfg.chan
  missed : ∀ entry ∈ c.takenInPass cfg, entry.2 ≠ frame

/-- The queue of the only path was full at the close and has drained since. -/
def refusedThenDrained : List ControlAction :=
  [.accept 1 1, .pool (poolOf [1] (List.replicate 64 (.streamReset ⟨9, .timeout⟩))), .closeSend 1,
    .pool (poolOf [1] []), .tick 50000]

/-- Two streams were reset without a path; the one that joins has a single slot. -/
def oneSlotForTwo : List ControlAction :=
  [.accept 1 0, .accept 2 0, .resetStream 1 .timeout, .resetStream 2 .timeout,
    .pool (poolOf [1] (List.replicate 63 (.streamReset ⟨9, .timeout⟩))), .tick 50000]

/-- The path that refused the first StreamClose is not tried again, and the slot of the only path
goes to the first of two StreamResets. -/
theorem refused_frame_passed_over :
    (∃ c o, (machine .standard).Reachable c ∧ c.closes.get? 1 = some o ∧ c.closeRuns 1 o ∧
      Work.young SessionConfig.standard c.session o = true ∧
      isDue SessionConfig.standard c.session o = true ∧
      PassedOver .standard c (.streamClose ⟨1, o.body.finalOffset⟩)) ∧
    ∃ c o, (machine .standard).Reachable c ∧ c.resets.get? 2 = some o ∧
      Work.young SessionConfig.standard c.session o = true ∧
      isDue SessionConfig.standard c.session o = true ∧
      PassedOver .standard c (.streamReset ⟨2, o.body⟩) := by
  constructor
  · have replayed : ∃ c o st, (machine .standard).run (.new false) refusedThenDrained = some c ∧
        c.closes.get? 1 = some o ∧ c.session.getStream 1 = some st ∧ st.recvFin = false ∧
        Work.young SessionConfig.standard c.session o = true ∧
        isDue SessionConfig.standard c.session o = true ∧
        PassedOver .standard c (.streamClose ⟨1, o.body.finalOffset⟩) := by
      refine ⟨_, _, _, rfl, rfl, rfl, rfl, ?_, ?_, ⟨?_, ?_, ?_, ?_⟩⟩
      all_goals decide +kernel
    obtain ⟨c, o, st, replay, entry, found, unfinished, passedOver⟩ := replayed
    exact ⟨c, o, (reachable_new .standard false).run replay, entry,
      ⟨st, found, fun _ => unfinished⟩, passedOver⟩
  · have replayed : ∃ c o, (machine .standard).run (.new false) oneSlotForTwo = some c ∧
        c.resets.get? 2 = some o ∧ Work.young SessionConfig.standard c.session o = true ∧
        isDue SessionConfig.standard c.session o = true ∧
        PassedOver .standard c (.streamReset ⟨2, o.body⟩) := by
      refine ⟨_, _, rfl, rfl, ?_, ?_, ⟨?_, ?_, ?_, ?_⟩⟩
      all_goals decide +kernel
    obtain ⟨c, o, replay, passedOver⟩ := replayed
    exact ⟨c, o, (reachable_new .standard false).run replay, passedOver⟩

end Controls

end NyaLink
