import NyaLink.Session.Controls
import NyaLink.Session.RetryChoice

/-!
# What a retry pass does for one entry

The entries of a snapshot are worked through one after the other.  The frames
offered meanwhile leave every clock, every stream and the life of every path as
they were and take at most a slot each of the urgent queues, so what happens to
one entry is decided by the state the pass began in.
-/

namespace NyaLink

namespace Session

/-- `t` is `s` after at most `n` control frames were offered to its paths. -/
structure Offers (s t : Session) (n : Nat) : Prop where
  now : t.now = s.now
  streams : t.streams = s.streams
  alive : ∀ id, t.aliveAt id = s.aliveAt id
  clock : ∀ cfg id, t.retryAfter cfg id = s.retryAfter cfg id
  urgent : ∀ id q, t.getPath id = some q → ∃ p, s.getPath id = some p ∧
    q.urgent.length ≤ p.urgent.length + n
  accepted : s.accepted <+: t.accepted

theorem Offers.refl (s : Session) : Offers s s 0 :=
  ⟨rfl, rfl, fun _ => rfl, fun _ _ => rfl, fun _ q found => ⟨q, found, le_rfl⟩, List.prefix_refl _⟩

theorem Offers.weaken {s t : Session} {n m : Nat} (offers : Offers s t n) (fewer : n ≤ m) :
    Offers s t m := by
  refine { offers with urgent := ?_ }
  intro id q found
  obtain ⟨p, before, grown⟩ := offers.urgent id q found
  exact ⟨p, before, by omega⟩

theorem Offers.trans {s t u : Session} {n m : Nat} (earlier : Offers s t n)
    (later : Offers t u m) : Offers s u (n + m) where
  now := later.now.trans earlier.now
  streams := later.streams.trans earlier.streams
  alive := fun id => (later.alive id).trans (earlier.alive id)
  clock := fun cfg id => (later.clock cfg id).trans (earlier.clock cfg id)
  urgent := by
    intro id r found
    obtain ⟨q, between, laterGrown⟩ := later.urgent id r found
    obtain ⟨p, before, earlierGrown⟩ := earlier.urgent id q between
    exact ⟨p, before, by omega⟩
  accepted := earlier.accepted.trans later.accepted

theorem Offers.getStream {s t : Session} {n : Nat} (offers : Offers s t n) (id : Nat) :
    t.getStream id = s.getStream id := by
  rw [Session.getStream, Session.getStream, offers.streams]

/-! ## One control frame -/

section

variable {cfg : SessionConfig} {s : Session}

/-- A change of one path that its clocks and its life do not show. -/
theorem offers_modifyPath {id : Nat} {change : Path → Path}
    (alive : ∀ p, (change p).isAlive = p.isAlive)
    (clock : ∀ p, (change p).rttEwmaUs = p.rttEwmaUs)
    (urgent : ∀ p, (change p).urgent.length ≤ p.urgent.length + 1) :
    Offers s (s.modifyPath id change) 1 := by
  have known : ∀ p, (change p).rttKnown = p.rttKnown := fun p => by
    simp only [Path.rttKnown, clock]
  have rtt : ∀ p, (change p).rttUs = p.rttUs := fun p => by simp only [Path.rttUs, clock]
  have least : minAliveFastRtt (s.modifyPath id change).paths.entries =
      minAliveFastRtt s.paths.entries := by
    simp only [minAliveFastRtt, Session.modifyPath, OrdMap.modify, OrdMap.mapValues,
      List.filter_map, List.map_map]
    have sameFilter : ∀ entry : Nat × Path,
        ((fun entry : Nat × Path => entry.2.isAlive && entry.2.rttKnown) ∘ fun entry =>
          (entry.1, if entry.1 = id then change entry.2 else entry.2)) entry =
        (entry.2.isAlive && entry.2.rttKnown) := by
      intro entry
      simp only [Function.comp_apply]
      split
      · rw [alive, known]
      · rfl
    have sameRtt : ∀ entry : Nat × Path,
        ((fun entry : Nat × Path => entry.2.rttUs) ∘ fun entry =>
          (entry.1, if entry.1 = id then change entry.2 else entry.2)) entry =
        entry.2.rttUs := by
      intro entry
      simp only [Function.comp_apply]
      split
      · rw [rtt]
      · rfl
    rw [List.filter_congr fun entry _ => sameFilter entry,
      List.map_congr_left fun entry _ => sameRtt entry]
  refine ⟨rfl, rfl, fun other => ?_, fun cfg other => ?_, fun other q found => ?_,
    List.prefix_refl _⟩
  · rw [aliveAt, aliveAt, getPath_modifyPath]
    split
    · rw [Option.any_map]
      congr 1
      exact funext alive
    · rfl
  · simp only [retryAfter, least, getPath_modifyPath]
    cases minAliveFastRtt s.paths.entries with
    | some rtt => rfl
    | none =>
        by_cases same : other = id
        · rw [if_pos same]
          cases s.getPath other with
          | none => rfl
          | some p => simp only [Option.map_some, rtt]
        · rw [if_neg same]
  · rcases OrdMap.get?_modify_cases found with ⟨-, p, before, rfl⟩ | ⟨-, before⟩
    · exact ⟨p, before, urgent p⟩
    · exact ⟨q, before, Nat.le_add_right _ _⟩

theorem offers_sendOnPath (s : Session) (id : Nat) (frame : Frame) :
    Offers s (s.sendOnPath cfg id frame).1 1 := by
  rcases s.sendOnPath_cases cfg id frame with ⟨p, urgent, _, _, _, taken⟩ | same | congested
  · rw [taken]
    have enqueued : Offers s (s.modifyPath id fun p => p.enqueue urgent frame) 1 := by
      apply offers_modifyPath
      · exact fun p => isAlive_enqueue p urgent frame
      · intro p
        unfold Path.enqueue
        split
        · rfl
        · rfl
      · intro p
        unfold Path.enqueue
        split
        · simp
        · simp
    exact { enqueued with accepted := List.prefix_append _ _ }
  · rw [same]
    exact (Offers.refl s).weaken (Nat.zero_le 1)
  · rw [congested]
    exact offers_modifyPath (fun _ => rfl) (fun _ => rfl) fun p => Nat.le_add_right _ _

/-- The queue of an alive path with a free slot takes a control frame. -/
theorem sendOnPath_of_room {id : Nat} {p : Path} {frame : Frame}
    (control : frame.isData = false) (found : s.getPath id = some p) (alive : p.isAlive = true)
    (room : p.urgent.length < cfg.chan) : (s.sendOnPath cfg id frame).2 = true := by
  have interactive : frameIsInteractive cfg frame = true := by
    cases frame with
    | streamData data => cases control
    | _ => rfl
  have urgent : goesUrgent cfg p frame = true := by
    rw [goesUrgent, control, Bool.false_and, if_neg Bool.false_ne_true, interactive]
  have free : p.hasRoom cfg true = true := by simp [Path.hasRoom, room]
  simp only [sendOnPath, found, alive, urgent, free, Bool.not_true, Bool.false_eq_true, if_false,
    if_true]

theorem accepted_sendOnPath (s : Session) (id : Nat) (frame : Frame) :
    (s.sendOnPath cfg id frame).1.accepted =
      if (s.sendOnPath cfg id frame).2 then s.accepted ++ [(id, frame)] else s.accepted := by
  rcases s.sendOnPath_cases cfg id frame with ⟨p, urgent, _, _, _, taken⟩ | same | congested
  · rw [taken, if_pos rfl]
  · rw [same]
    rfl
  · rw [congested]
    rfl

/-! ## The choice of a retry -/

theorem aliveAt_iff_entry {id : Nat} :
    s.aliveAt id = true ↔ ∃ p, (id, p) ∈ s.paths.entries ∧ p.isAlive = true := by
  rw [aliveAt_eq_true_iff]
  exact exists_congr fun p => and_congr_left fun _ => mem_entries_iff_getPath.symm

theorem pickRetryTried_spec {tried : List Nat} {alt : Nat}
    (picked : s.pickRetryTried cfg tried = some alt) :
    s.aliveAt alt = true ∧ tried.getLast? ≠ some alt := by
  obtain ⟨p, chosen⟩ := retryPicked s.paths.nodup_keys picked
  exact ⟨aliveAt_iff_entry.mpr ⟨p, chosen.present, chosen.alive⟩, chosen.moved⟩

theorem pickRetryTried_isSome {tried : List Nat} {alt : Nat} (alive : s.aliveAt alt = true)
    (moved : tried.getLast? ≠ some alt) : (s.pickRetryTried cfg tried).isSome = true := by
  obtain ⟨p, membership, living⟩ := aliveAt_iff_entry.mp alive
  exact pickRetryPath_isSome membership living moved

theorem pickRetryUntried_spec {tried : List Nat} {alt : Nat}
    (picked : s.pickRetryUntried cfg tried = some alt) :
    s.aliveAt alt = true ∧ alt ∉ tried := by
  unfold pickRetryUntried at picked
  split at picked
  · cases picked
  · rename_i candidate chosen
    split at picked
    · cases picked
    · rename_i untried
      cases picked
      exact ⟨(pickRetryTried_spec chosen).1, by simpa using untried⟩

theorem pickRetryUntried_isSome {tried : List Nat} {alt : Nat} (alive : s.aliveAt alt = true)
    (untried : alt ∉ tried) : (s.pickRetryUntried cfg tried).isSome = true := by
  have moved : tried.getLast? ≠ some alt := fun last => untried (List.mem_of_getLast? last)
  have found : (s.pickRetryTried cfg tried).isSome = true := pickRetryTried_isSome alive moved
  obtain ⟨choice, picked⟩ := Option.isSome_iff_exists.mp found
  obtain ⟨p, chosen⟩ := retryPicked s.paths.nodup_keys picked
  obtain ⟨q, membership, living⟩ := aliveAt_iff_entry.mp alive
  have fresh : choice ∉ tried := chosen.untried ⟨(alt, q), membership, living, untried⟩
  simp only [pickRetryUntried, picked]
  simp [fresh]

end

end Session

/-! ## One entry -/

/-- `rules` sends control frames, sends to exactly the alive paths that are eligible, and is not
disturbed by frames that are offered. -/
structure RetryRules.Follows {Body : Type} (rules : RetryRules Body)
    (eligible : List Nat → Nat → Prop) : Prop where
  forget : ∀ s t n id o, Session.Offers s t n → rules.forget t id o = rules.forget s id o
  picks : ∀ s tried alt, rules.pick s tried = some alt →
    s.aliveAt alt = true ∧ eligible tried alt
  finds : ∀ s tried alt, s.aliveAt alt = true → eligible tried alt →
    (rules.pick s tried).isSome = true
  control : ∀ id body, (rules.frame id body).isData = false
  frame : ∀ id other body otherBody, rules.frame id body = rules.frame other otherBody →
    id = other

theorem follows_openRules (cfg : SessionConfig) :
    (openRules cfg).Follows fun tried alt => tried.getLast? ≠ some alt where
  forget _ _ _ _ _ _ := rfl
  picks _ _ _ picked := Session.pickRetryTried_spec picked
  finds _ _ _ alive moved := Session.pickRetryTried_isSome alive moved
  control _ _ := rfl
  frame _ _ _ _ same := by
    simp only [openRules, Frame.streamOpen.injEq, StreamOpen.mk.injEq] at same
    exact same.1

theorem follows_closeRules (cfg : SessionConfig) :
    (closeRules cfg).Follows fun tried alt => alt ∉ tried where
  forget _ _ _ id _ offers := by simp only [closeRules, offers.getStream id]
  picks _ _ _ picked := Session.pickRetryUntried_spec picked
  finds _ _ _ alive untried := Session.pickRetryUntried_isSome alive untried
  control _ _ := rfl
  frame _ _ _ _ same := by
    simp only [closeRules, Frame.streamClose.injEq, StreamClose.mk.injEq] at same
    exact same.1

theorem follows_resetRules (cfg : SessionConfig) :
    (resetRules cfg).Follows fun tried alt => alt ∉ tried where
  forget _ _ _ _ _ _ := rfl
  picks _ _ _ picked := Session.pickRetryUntried_spec picked
  finds _ _ _ alive untried := Session.pickRetryUntried_isSome alive untried
  control _ _ := rfl
  frame _ _ _ _ same := by
    simp only [resetRules, Frame.streamReset.injEq, StreamReset.mk.injEq] at same
    exact same.1

namespace Work

variable {Body : Type} {cfg : SessionConfig} {rules : RetryRules Body}
  {eligible : List Nat → Nat → Prop} {due : Session → Outstanding Body → Bool}
  {refused : Nat → Outstanding Body → Outstanding Body}

/-- The work went on for the entries with these ids, with at most `n` sends. -/
structure Passed (rules : RetryRules Body) (w after : Work Body) (ids : List Nat) (n : Nat) :
    Prop where
  offers : Session.Offers w.session after.session n
  others : ∀ id, id ∉ ids → after.table.get? id = w.table.get? id
  attempts : ∃ made, after.attempts = w.attempts ++ made ∧
    ∀ attempt ∈ made, ∃ id ∈ ids, ∃ body, attempt.frame = rules.frame id body

theorem Passed.refl (w : Work Body) (ids : List Nat) : Passed rules w w ids 0 :=
  ⟨Session.Offers.refl _, fun _ _ => rfl, [], by simp, fun _ impossible => by cases impossible⟩

theorem Passed.trans {w between after : Work Body} {first second : List Nat} {n m : Nat}
    (earlier : Passed rules w between first n) (later : Passed rules between after second m) :
    Passed rules w after (first ++ second) (n + m) where
  offers := earlier.offers.trans later.offers
  others := by
    intro id outside
    rw [List.mem_append, not_or] at outside
    exact (later.others id outside.2).trans (earlier.others id outside.1)
  attempts := by
    obtain ⟨made, sent, known⟩ := earlier.attempts
    obtain ⟨more, sentMore, knownMore⟩ := later.attempts
    refine ⟨made ++ more, by rw [sentMore, sent, List.append_assoc], ?_⟩
    intro attempt membership
    rcases List.mem_append.mp membership with early | late
    · obtain ⟨id, inFirst, body, same⟩ := known attempt early
      exact ⟨id, by simp [inFirst], body, same⟩
    · obtain ⟨id, inSecond, body, same⟩ := knownMore attempt late
      exact ⟨id, by simp [inSecond], body, same⟩

theorem passed_send (w : Work Body) (id alt : Nat) (body : Body) :
    Passed rules w (w.send cfg refused id alt (rules.frame id body)) [id] 1 where
  offers := Session.offers_sendOnPath w.session alt _
  others := by
    intro other different
    exact OrdMap.get?_modify_of_ne w.table _ (by simpa using different)
  attempts := ⟨_, rfl, by simp⟩

/-- Numbers of sends an entry may take. -/
def cost (due : Session → Outstanding Body → Bool) (s : Session) (o : Outstanding Body) : Nat :=
  if due s o then 1 else 0

/-- What becomes of an entry of the snapshot. -/
inductive Retried (cfg : SessionConfig) (rules : RetryRules Body)
    (due : Session → Outstanding Body → Bool)
    (refused : Nat → Outstanding Body → Outstanding Body) (w : Work Body) (id : Nat)
    (o : Outstanding Body) : Work Body → Prop where
  | forgotten (stopped : rules.forget w.session id o = true) :
      Retried cfg rules due refused w id o { w with table := w.table.erase id }
  | waits (early : due w.session o = false) : Retried cfg rules due refused w id o w
  | nowhere (picked : rules.pick w.session o.tried = none) : Retried cfg rules due refused w id o w
  | sent {alt : Nat} (running : rules.forget w.session id o = false)
      (clock : due w.session o = true) (picked : rules.pick w.session o.tried = some alt) :
      Retried cfg rules due refused w id o (w.send cfg refused id alt (rules.frame id o.body))

theorem retried_entry (w : Work Body) (id : Nat) (o : Outstanding Body) :
    Retried cfg rules due refused w id o (retryEntry cfg rules due refused w (id, o)) := by
  unfold retryEntry
  split
  · rename_i stopped
    exact .forgotten stopped
  · rename_i running
    split
    · rename_i early
      exact .waits (by simpa using early)
    · rename_i clock
      split
      · rename_i picked
        exact .nowhere picked
      · rename_i picked
        exact .sent (Bool.eq_false_of_not_eq_true running) (by simpa using clock) picked

theorem passed_retryEntry (w : Work Body) (id : Nat) (o : Outstanding Body) :
    Passed rules w (retryEntry cfg rules due refused w (id, o)) [id] (cost due w.session o) := by
  have went := @retried_entry Body cfg rules due refused w id o
  generalize retryEntry cfg rules due refused w (id, o) = after at went
  have stays : Passed rules w w [id] (cost due w.session o) :=
    { Passed.refl w [id] with offers := (Session.Offers.refl _).weaken (Nat.zero_le _) }
  cases went with
  | forgotten stopped =>
      refine { stays with others := ?_ }
      intro other different
      exact OrdMap.get?_erase_of_ne w.table (by simpa using different)
  | waits early => exact stays
  | nowhere picked => exact stays
  | sent running clock picked =>
      rw [cost, clock, if_pos rfl]
      exact passed_send w id _ o.body

/-- Entries of a list that are due. -/
def dueCount (due : Session → Outstanding Body → Bool) (s : Session)
    (entries : List (Nat × Outstanding Body)) : Nat :=
  (entries.filter fun entry => due s entry.2).length

theorem dueCount_cons (s : Session) (entry : Nat × Outstanding Body)
    (rest : List (Nat × Outstanding Body)) :
    dueCount due s (entry :: rest) = cost due s entry.2 + dueCount due s rest := by
  unfold dueCount cost
  rw [List.filter_cons]
  split
  · simp [Nat.add_comm]
  · simp

theorem dueCount_append (s : Session) (first second : List (Nat × Outstanding Body)) :
    dueCount due s (first ++ second) = dueCount due s first + dueCount due s second := by
  simp [dueCount, List.filter_append]

theorem passed_foldl
    (steady : ∀ s t n o, Session.Offers s t n → due t o = due s o)
    (entries : List (Nat × Outstanding Body)) (w : Work Body) :
    Passed rules w (entries.foldl (retryEntry cfg rules due refused) w) (entries.map Prod.fst)
      (dueCount due w.session entries) := by
  induction entries generalizing w with
  | nil => exact Passed.refl w []
  | cons entry rest inductionHypothesis =>
      have here := @passed_retryEntry Body cfg rules due refused w entry.1 entry.2
      have later := inductionHypothesis (retryEntry cfg rules due refused w entry)
      have sameCount : dueCount due (retryEntry cfg rules due refused w entry).session rest =
          dueCount due w.session rest := by
        unfold dueCount
        rw [List.filter_congr fun other _ => steady _ _ _ other.2 here.offers]
      rw [sameCount] at later
      rw [dueCount_cons]
      exact here.trans later

/-- A pass comes to a selected entry with what it had at the beginning, and leaves it alone
afterwards. -/
theorem retryAll_reaches
    (steady : ∀ s t n o, Session.Offers s t n → due t o = due s o)
    {select : Outstanding Body → Bool} {w : Work Body} {id : Nat} {o : Outstanding Body}
    (found : w.table.get? id = some o) (selected : select o = true) :
    ∃ reached before after n m,
      Passed rules w reached before n ∧
      Passed rules (retryEntry cfg rules due refused reached (id, o))
        (w.retryAll cfg rules due refused select) after m ∧
      id ∉ before ∧ id ∉ after ∧
      n + cost due w.session o + m =
        dueCount due w.session (w.table.entries.filter fun entry => select entry.2) := by
  have listed : (id, o) ∈ w.table.entries.filter fun entry => select entry.2 :=
    List.mem_filter.mpr ⟨OrdMap.get?_eq_some_iff.mp found, selected⟩
  obtain ⟨earlier, later, split⟩ := List.append_of_mem listed
  have distinct : ((earlier ++ (id, o) :: later).map Prod.fst).Nodup := by
    rw [← split]
    exact w.table.nodup_keys.sublist (List.filter_sublist.map _)
  rw [List.map_append, List.map_cons, List.nodup_append, List.nodup_cons] at distinct
  obtain ⟨_, ⟨notLater, _⟩, apart⟩ := distinct
  have first := @passed_foldl Body cfg rules due refused steady earlier w
  have second := @passed_foldl Body cfg rules due refused steady later
    (retryEntry cfg rules due refused
      (earlier.foldl (retryEntry cfg rules due refused) w) (id, o))
  have throughEntry := first.offers.trans
    (@passed_retryEntry Body cfg rules due refused
      (earlier.foldl (retryEntry cfg rules due refused) w) id o).offers
  refine ⟨_, _, _, _, dueCount due w.session later, first, ?_, ?_, notLater, ?_⟩
  · have sameCount : dueCount due (retryEntry cfg rules due refused
        (earlier.foldl (retryEntry cfg rules due refused) w) (id, o)).session later =
        dueCount due w.session later := by
      unfold dueCount
      rw [List.filter_congr fun other _ => steady _ _ _ other.2 throughEntry]
    rw [sameCount] at second
    rw [retryAll, split, List.foldl_append, List.foldl_cons]
    exact second
  · intro inEarlier
    exact apart id inEarlier id (List.mem_cons_self) rfl
  · rw [split, dueCount_append, dueCount_cons]
    exact Nat.add_assoc _ _ _

/-- An entry that is not selected is not in the snapshot. -/
theorem not_mem_snapshot {table : OrdMap Nat (Outstanding Body)} {select : Outstanding Body → Bool}
    {id : Nat} (outside : ∀ o, table.get? id = some o → select o = false) :
    id ∉ (table.entries.filter fun entry => select entry.2).map Prod.fst := by
  intro membership
  obtain ⟨⟨other, held⟩, listed, rfl⟩ := List.mem_map.mp membership
  obtain ⟨inTable, selected⟩ := List.mem_filter.mp listed
  have unselected := outside held (OrdMap.get?_eq_some_iff.mpr inTable)
  exact Bool.false_ne_true (unselected.symm.trans selected)

/-! ## The visit of an entry -/

/-- The sends of a call. -/
def made (w after : Work Body) : List Attempt := after.attempts.drop w.attempts.length

/-- The frames the queues took in a call. -/
def taken (w after : Work Body) : List (Nat × Frame) :=
  after.session.accepted.drop w.session.accepted.length

/-- What a call of a retry function does for one entry of its snapshot. -/
inductive Visit (cfg : SessionConfig) (rules : RetryRules Body)
    (eligible : List Nat → Nat → Prop) (due : Session → Outstanding Body → Bool)
    (refused : Nat → Outstanding Body → Outstanding Body) (slots : Nat) (w after : Work Body)
    (id : Nat) (o : Outstanding Body) : Prop where
  | idle (copies : ∀ attempt ∈ made w after, attempt.frame ≠ rules.frame id o.body)
      (kept : after.table.get? id = some o ∨
        rules.forget w.session id o = true ∧ after.table.get? id = none)
      (nowhere : rules.forget w.session id o = false → due w.session o = true →
        ∀ alt, w.session.aliveAt alt = true → ¬ eligible o.tried alt)
  | tried (attempt : Attempt)
      (only : (made w after).filter (fun made => made.frame = rules.frame id o.body) = [attempt])
      (alive : w.session.aliveAt attempt.path = true) (fits : eligible o.tried attempt.path)
      (running : rules.forget w.session id o = false) (clock : due w.session o = true)
      (kept : after.table.get? id = some (if attempt.taken then o.follow attempt.path w.session.now
        else refused attempt.path o))
      (accepted : attempt.taken = true → (attempt.path, rules.frame id o.body) ∈ taken w after)
      (room : ∀ p, w.session.getPath attempt.path = some p → p.urgent.length + slots ≤ cfg.chan →
        attempt.taken = true)

theorem made_eq {w after : Work Body} {attempts : List Attempt}
    (same : after.attempts = w.attempts ++ attempts) : made w after = attempts := by
  rw [made, same, List.drop_left]

theorem mem_drop_of_prefix {Alpha : Type} {first second : List Alpha} {x : Alpha} {n : Nat}
    (grows : first <+: second) (membership : x ∈ first.drop n) : x ∈ second.drop n := by
  obtain ⟨rest, rfl⟩ := grows
  rw [List.drop_append]
  exact List.mem_append_left _ membership

/-- The frames of other entries are not copies of this one. -/
theorem Passed.no_copy {w after : Work Body} {ids : List Nat} {n : Nat}
    (follows : rules.Follows eligible) (passed : Passed rules w after ids n) {id : Nat}
    (outside : id ∉ ids) (body : Body) :
    ∃ sent, after.attempts = w.attempts ++ sent ∧
      ∀ attempt ∈ sent, attempt.frame ≠ rules.frame id body := by
  obtain ⟨sent, same, known⟩ := passed.attempts
  refine ⟨sent, same, ?_⟩
  intro attempt membership copy
  obtain ⟨other, inIds, otherBody, frame⟩ := known attempt membership
  obtain rfl := follows.frame _ _ _ _ (copy.symm.trans frame)
  exact outside inIds

/-- Without a send of its own, a pass sends no copy of the entry's frame. -/
theorem no_copy_made {w reached between final : Work Body} {before after : List Nat} {n m : Nat}
    (follows : rules.Follows eligible) (earlier : Passed rules w reached before n)
    (later : Passed rules between final after m) (same : between.attempts = reached.attempts)
    {id : Nat} (notBefore : id ∉ before) (notAfter : id ∉ after) (body : Body) :
    ∀ attempt ∈ made w final, attempt.frame ≠ rules.frame id body := by
  obtain ⟨sentBefore, attemptsBefore, othersBefore⟩ := earlier.no_copy follows notBefore body
  obtain ⟨sentAfter, attemptsAfter, othersAfter⟩ := later.no_copy follows notAfter body
  have all : made w final = sentBefore ++ sentAfter :=
    made_eq (by rw [attemptsAfter, same, attemptsBefore, List.append_assoc])
  rw [all]
  intro attempt membership
  rcases List.mem_append.mp membership with early | late
  · exact othersBefore attempt early
  · exact othersAfter attempt late

theorem only_copy_made {w reached between final : Work Body} {before after : List Nat} {n m : Nat}
    (follows : rules.Follows eligible) (earlier : Passed rules w reached before n)
    (later : Passed rules between final after m) {attempt : Attempt}
    (sends : between.attempts = reached.attempts ++ [attempt]) {id : Nat} {body : Body}
    (copy : attempt.frame = rules.frame id body) (notBefore : id ∉ before)
    (notAfter : id ∉ after) :
    (made w final).filter (fun made => made.frame = rules.frame id body) = [attempt] := by
  obtain ⟨sentBefore, attemptsBefore, othersBefore⟩ := earlier.no_copy follows notBefore body
  obtain ⟨sentAfter, attemptsAfter, othersAfter⟩ := later.no_copy follows notAfter body
  have all : made w final = sentBefore ++ attempt :: sentAfter := by
    apply made_eq
    rw [attemptsAfter, sends, attemptsBefore]
    simp
  have noneBefore : sentBefore.filter (fun made => made.frame = rules.frame id body) = [] :=
    List.filter_eq_nil_iff.mpr fun other early => by simpa using othersBefore other early
  have noneAfter : sentAfter.filter (fun made => made.frame = rules.frame id body) = [] :=
    List.filter_eq_nil_iff.mpr fun other late => by simpa using othersAfter other late
  rw [all, List.filter_append, noneBefore, List.filter_cons, noneAfter]
  simp [copy]

theorem visit_of_sent (follows : rules.Follows eligible) {w reached final : Work Body}
    {before after : List Nat} {n m id alt : Nat} {o : Outstanding Body}
    (earlier : Passed rules w reached before n)
    (later : Passed rules (reached.send cfg refused id alt (rules.frame id o.body)) final after m)
    (notBefore : id ∉ before) (notAfter : id ∉ after) (held : reached.table.get? id = some o)
    (running : rules.forget w.session id o = false) (clock : due w.session o = true)
    (picked : rules.pick reached.session o.tried = some alt) :
    Visit cfg rules eligible due refused (n + 1 + m) w final id o := by
  obtain ⟨alive, fits⟩ := follows.picks _ _ _ picked
  refine .tried ⟨alt, rules.frame id o.body, (reached.session.sendOnPath cfg alt
    (rules.frame id o.body)).2⟩ ?_ ?_ fits running clock ?_ ?_ ?_
  · exact only_copy_made follows earlier later rfl rfl notBefore notAfter
  · exact (earlier.offers.alive alt).symm.trans alive
  · rw [later.others id notAfter, send, OrdMap.get?_modify_self, held, earlier.offers.now]
    rfl
  · intro success
    have inSend : (alt, rules.frame id o.body) ∈
        (reached.session.sendOnPath cfg alt (rules.frame id o.body)).1.accepted.drop
          w.session.accepted.length := by
      rw [Session.accepted_sendOnPath, if_pos success]
      obtain ⟨more, grows⟩ := earlier.offers.accepted
      rw [← grows, List.append_assoc, List.drop_left]
      simp
    exact mem_drop_of_prefix later.offers.accepted inSend
  · intro p present slots
    obtain ⟨q, foundQ, aliveQ⟩ := Session.aliveAt_eq_true_iff.mp alive
    obtain ⟨old, foundOld, grown⟩ := earlier.offers.urgent alt q foundQ
    obtain rfl : old = p := Option.some.inj (foundOld.symm.trans present)
    refine Session.sendOnPath_of_room (follows.control id o.body) foundQ aliveQ ?_
    omega

theorem retryAll_visit (follows : rules.Follows eligible)
    (steady : ∀ s t n o, Session.Offers s t n → due t o = due s o)
    {select : Outstanding Body → Bool} {w : Work Body} {id : Nat} {o : Outstanding Body}
    (found : w.table.get? id = some o) (selected : select o = true) :
    Visit cfg rules eligible due refused
      (dueCount due w.session (w.table.entries.filter fun entry => select entry.2)) w
      (w.retryAll cfg rules due refused select) id o := by
  obtain ⟨reached, before, after, n, m, earlier, later, notBefore, notAfter, total⟩ :=
    @retryAll_reaches Body cfg rules due refused steady select w id o found selected
  have held : reached.table.get? id = some o := (earlier.others id notBefore).trans found
  have outcome := later.others id notAfter
  have sameForget := follows.forget _ _ _ id o earlier.offers
  have sameDue := steady _ _ _ o earlier.offers
  have went := @retried_entry Body cfg rules due refused reached id o
  generalize w.retryAll cfg rules due refused select = final at *
  generalize retryEntry cfg rules due refused reached (id, o) = between at *
  cases went with
  | forgotten stopped =>
      have stoppedBefore := sameForget.symm.trans stopped
      refine .idle (no_copy_made follows earlier later rfl notBefore notAfter o.body)
        (.inr ⟨stoppedBefore, outcome.trans (OrdMap.get?_erase_self _ _)⟩) ?_
      intro running
      cases stoppedBefore.symm.trans running
  | waits early =>
      refine .idle (no_copy_made follows earlier later rfl notBefore notAfter o.body)
        (.inl (outcome.trans held)) ?_
      intro _ clock
      cases (sameDue.symm.trans early).symm.trans clock
  | nowhere picked =>
      refine .idle (no_copy_made follows earlier later rfl notBefore notAfter o.body)
        (.inl (outcome.trans held)) ?_
      intro _ _ alt alive fits
      have some := follows.finds reached.session o.tried alt
        ((earlier.offers.alive alt).trans alive) fits
      rw [picked] at some
      cases some
  | sent running clock picked =>
      have clockBefore := sameDue.symm.trans clock
      rw [cost, clockBefore, if_pos rfl] at total
      rw [← total]
      exact visit_of_sent follows earlier later notBefore notAfter held
        (sameForget.symm.trans running) clockBefore picked

end Work

end NyaLink
