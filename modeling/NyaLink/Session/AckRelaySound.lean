import NyaLink.Session.AckRelay

/-!
# What every relay board is like

Who wins a place that two ACKs of a stream meet in, and the invariant of the
board: every ACK in a place was accepted and lies under its own stream, and the
ACK of a store that got the lock is later than what the lock guards.
-/

namespace NyaLink

/-! ## Who wins a place -/

/-- The order of generation is an order of offsets, and a number belongs to one ACK. -/
structure Numbered (generated : List GenAck) : Prop where
  monotone : AckBoard.Monotone generated
  unique : ∀ a ∈ generated, ∀ b ∈ generated, a.gen = b.gen → a = b

variable {generated : List GenAck}

theorem Numbered.later_of_offset (numbered : Numbered generated) {a b : GenAck}
    (inA : a ∈ generated) (inB : b ∈ generated) (same : a.ack.streamId = b.ack.streamId)
    (behind : a.ack.ackedOffset < b.ack.ackedOffset) : a.gen < b.gen := by
  by_contra notLater
  exact absurd (numbered.monotone.offsets b inB a inA same.symm (Nat.le_of_not_lt notLater))
    (Nat.not_le.mpr behind)

theorem Numbered.later_or_same (numbered : Numbered generated) {a b : GenAck}
    (inA : a ∈ generated) (inB : b ∈ generated) (older : a.gen ≤ b.gen) : a.gen < b.gen ∨ a = b :=
  (Nat.lt_or_eq_of_le older).imp_right (numbered.unique a inA b inB)

/-- `x` is in the map, or a later ACK of its stream is. -/
def HeldOrLater (acks : OrdMap Nat GenAck) (x : GenAck) : Prop :=
  acks.get? x.ack.streamId = some x ∨
    ∃ b, acks.get? x.ack.streamId = some b ∧ x.gen < b.gen

/-- Where two ACKs of a stream meet, the one that stays is the later one. -/
structure Wins (generated : List GenAck) (before after : OrdMap Nat GenAck) (a winner : GenAck) :
    Prop where
  inGenerated : winner ∈ generated
  found : after.get? a.ack.streamId = some winner
  own : a.gen ≤ winner.gen
  former : ∀ old, before.get? a.ack.streamId = some old → old.gen ≤ winner.gen

theorem Wins.held (numbered : Numbered generated) {before after : OrdMap Nat GenAck}
    (known : KnownMap generated before) {a winner : GenAck} (inGenerated : a ∈ generated)
    (wins : Wins generated before after a winner)
    (others : ∀ stream, stream ≠ a.ack.streamId → after.get? stream = before.get? stream)
    {x : GenAck} (held : before.get? x.ack.streamId = some x ∨ x = a) : HeldOrLater after x := by
  by_cases same : x.ack.streamId = a.ack.streamId
  · have contest : x ∈ generated ∧ x.gen ≤ winner.gen := by
      rcases held with first | rfl
      · exact ⟨(known _ x first).1, wins.former x (same ▸ first)⟩
      · exact ⟨inGenerated, wins.own⟩
    have found : after.get? x.ack.streamId = some winner := same ▸ wins.found
    rcases numbered.later_or_same contest.1 wins.inGenerated contest.2 with later | rfl
    · exact .inr ⟨winner, found, later⟩
    · exact .inl found
  · rcases held with first | rfl
    · exact .inl ((others _ same).trans first)
    · exact absurd rfl same

/-! ## `merge_ack` and the second take -/

theorem get?_mergeAck_of_ne (pending : OrdMap Nat GenAck) (a : GenAck) {stream : Nat}
    (different : stream ≠ a.ack.streamId) :
    (mergeAck pending a).get? stream = pending.get? stream := by
  unfold mergeAck
  split
  · exact OrdMap.get?_insert_of_ne _ _ different
  · split
    · rfl
    · exact OrdMap.get?_insert_of_ne _ _ different

theorem mergeAck_wins (numbered : Numbered generated) {pending : OrdMap Nat GenAck}
    (known : KnownMap generated pending) {a : GenAck} (inGenerated : a ∈ generated)
    (fresh : AckBoard.tieFresh (pending.get? a.ack.streamId) a = true) :
    ∃ winner, Wins generated pending (mergeAck pending a) a winner := by
  unfold mergeAck
  split
  · rename_i absent
    refine ⟨a, inGenerated, OrdMap.get?_insert_self _ _ _, le_rfl, ?_⟩
    intro old there
    cases absent.symm.trans there
  · rename_i held there
    obtain ⟨heldGenerated, stream⟩ := known _ held there
    split
    · rename_i behind
      refine ⟨held, heldGenerated, there, ?_, ?_⟩
      · exact (numbered.later_of_offset inGenerated heldGenerated stream.symm behind).le
      · intro old again
        exact (congrArg GenAck.gen (Option.some.inj (again.symm.trans there))).le
    · rename_i reached
      refine ⟨a, inGenerated, OrdMap.get?_insert_self _ _ _, le_rfl, ?_⟩
      intro old again
      obtain rfl : held = old := Option.some.inj (there.symm.trans again)
      rw [there, AckBoard.tieFresh, Option.all_some, Bool.or_eq_true, decide_eq_true_eq,
        decide_eq_true_eq] at fresh
      rcases fresh with different | older
      · exact (numbered.later_of_offset heldGenerated inGenerated stream (by omega)).le
      · exact older

theorem mergeAck_held (numbered : Numbered generated) {pending : OrdMap Nat GenAck}
    (known : KnownMap generated pending) {a : GenAck} (inGenerated : a ∈ generated)
    (fresh : AckBoard.tieFresh (pending.get? a.ack.streamId) a = true) {x : GenAck}
    (held : pending.get? x.ack.streamId = some x ∨ x = a) :
    HeldOrLater (mergeAck pending a) x := by
  obtain ⟨winner, wins⟩ := mergeAck_wins numbered known inGenerated fresh
  exact wins.held numbered known inGenerated (fun _ => get?_mergeAck_of_ne pending a) held

/-- What `take_acks` does not take stays. -/
theorem takeAcks_held (streams : List Nat) {pending : OrdMap Nat GenAck} {stream : Nat}
    {a : GenAck} (held : pending.get? stream = some a) :
    a ∈ (takeAcks pending streams).1 ∨ (takeAcks pending streams).2.get? stream = some a := by
  induction streams generalizing pending with
  | nil => exact .inr held
  | cons head rest inductionHypothesis =>
      by_cases same : stream = head
      · subst same
        left
        exact List.mem_append_left _ (Option.mem_toList.mpr held)
      · have kept : (pending.erase head).get? stream = some a := by
          rw [OrdMap.get?_erase_of_ne _ same]
          exact held
        exact (inductionHypothesis kept).imp_left (List.mem_append_right _)

theorem get?_collectAck_of_ne (taken : OrdMap Nat GenAck) (a : GenAck) {stream : Nat}
    (different : stream ≠ a.ack.streamId) :
    (collectAck taken (a.ack.streamId, a)).get? stream = taken.get? stream := by
  unfold collectAck
  split
  · exact OrdMap.get?_insert_of_ne _ _ different
  · split
    · rfl
    · exact OrdMap.get?_insert_of_ne _ _ different

theorem collectAck_wins (numbered : Numbered generated) {taken : OrdMap Nat GenAck}
    (known : KnownMap generated taken) {a : GenAck} (inGenerated : a ∈ generated)
    (fresh : AckRelay.collectFresh taken (a.ack.streamId, a) = true) :
    ∃ winner, Wins generated taken (collectAck taken (a.ack.streamId, a)) a winner := by
  unfold collectAck
  split
  · rename_i absent
    refine ⟨a, inGenerated, OrdMap.get?_insert_self _ _ _, le_rfl, ?_⟩
    intro old there
    cases absent.symm.trans there
  · rename_i held there
    obtain ⟨heldGenerated, stream⟩ := known _ held there
    split
    · rename_i reached
      refine ⟨held, heldGenerated, there, ?_, ?_⟩
      · simp only [AckRelay.collectFresh, there, Option.all_some, Bool.or_eq_true,
          decide_eq_true_eq] at fresh
        rcases fresh with different | older
        · have behind : a.ack.ackedOffset < held.ack.ackedOffset :=
            Nat.lt_of_le_of_ne reached (Ne.symm different)
          exact (numbered.later_of_offset inGenerated heldGenerated stream.symm behind).le
        · exact older
      · intro old again
        exact (congrArg GenAck.gen (Option.some.inj (again.symm.trans there))).le
    · rename_i behind
      refine ⟨a, inGenerated, OrdMap.get?_insert_self _ _ _, le_rfl, ?_⟩
      intro old again
      obtain rfl : held = old := Option.some.inj (there.symm.trans again)
      exact (numbered.later_of_offset heldGenerated inGenerated stream
        (Nat.lt_of_not_le behind)).le

/-- One ACK that `path_failed` takes the second time. -/
theorem collectAck_held (numbered : Numbered generated) {taken : OrdMap Nat GenAck}
    (known : KnownMap generated taken) {a : GenAck} (inGenerated : a ∈ generated)
    (fresh : AckRelay.collectFresh taken (a.ack.streamId, a) = true) {x : GenAck}
    (held : taken.get? x.ack.streamId = some x ∨ x = a) :
    HeldOrLater (collectAck taken (a.ack.streamId, a)) x := by
  obtain ⟨winner, wins⟩ := collectAck_wins numbered known inGenerated fresh
  exact wins.held numbered known inGenerated (fun _ => get?_collectAck_of_ne taken a) held

theorem knownMap_collectAck {known : List GenAck} {taken : OrdMap Nat GenAck}
    (sound : KnownMap known taken) {a : GenAck} (inKnown : a ∈ known) :
    KnownMap known (collectAck taken (a.ack.streamId, a)) := by
  unfold collectAck
  split
  · exact knownMap_insert sound inKnown
  · split
    · exact sound
    · exact knownMap_insert sound inKnown

theorem HeldOrLater.of_later {acks : OrdMap Nat GenAck} {x b : GenAck}
    (held : HeldOrLater acks b) (same : b.ack.streamId = x.ack.streamId)
    (later : x.gen < b.gen) : HeldOrLater acks x := by
  rcases held with found | ⟨c, found, last⟩
  · exact .inr ⟨b, same ▸ found, later⟩
  · exact .inr ⟨c, same ▸ found, later.trans last⟩

/-- All that `path_failed` takes the second time; every stream comes once. -/
theorem foldl_collectAck_held (numbered : Numbered generated) (entries : List (Nat × GenAck))
    {taken : OrdMap Nat GenAck} (known : KnownMap generated taken)
    (entriesKnown : ∀ entry ∈ entries, entry.2 ∈ generated ∧ entry.2.ack.streamId = entry.1)
    (distinct : (entries.map Prod.fst).Nodup)
    (fresh : ∀ entry ∈ entries, AckRelay.collectFresh taken entry = true) {x : GenAck}
    (held : taken.get? x.ack.streamId = some x ∨ (x.ack.streamId, x) ∈ entries) :
    HeldOrLater (entries.foldl collectAck taken) x ∧
      KnownMap generated (entries.foldl collectAck taken) := by
  induction entries generalizing taken x with
  | nil => exact ⟨.inl (held.resolve_right List.not_mem_nil), known⟩
  | cons entry rest inductionHypothesis =>
      obtain ⟨stream, a⟩ := entry
      obtain ⟨inGenerated, own⟩ := entriesKnown (stream, a) List.mem_cons_self
      have same : a.ack.streamId = stream := own
      subst same
      obtain ⟨notLater, distinctRest⟩ := List.nodup_cons.mp distinct
      have knownNext := knownMap_collectAck known inGenerated
      have restKnown : ∀ entry ∈ rest,
          entry.2 ∈ generated ∧ entry.2.ack.streamId = entry.1 :=
        fun entry membership => entriesKnown entry (List.mem_cons_of_mem _ membership)
      have freshRest : ∀ entry ∈ rest,
          AckRelay.collectFresh (collectAck taken (a.ack.streamId, a)) entry = true := by
        intro entry membership
        have different : entry.1 ≠ a.ack.streamId := by
          intro same
          exact notLater (List.mem_map.mpr ⟨entry, membership, same⟩)
        have before := fresh entry (List.mem_cons_of_mem _ membership)
        rw [AckRelay.collectFresh] at before ⊢
        rwa [get?_collectAck_of_ne taken a different]
      have later : ∀ y : GenAck,
          ((collectAck taken (a.ack.streamId, a)).get? y.ack.streamId = some y ∨
            (y.ack.streamId, y) ∈ rest) →
          HeldOrLater (rest.foldl collectAck (collectAck taken (a.ack.streamId, a))) y ∧
            KnownMap generated
              (rest.foldl collectAck (collectAck taken (a.ack.streamId, a))) :=
        fun y inPlace =>
          inductionHypothesis knownNext restKnown distinctRest freshRest inPlace
      have here : ∀ y, (taken.get? y.ack.streamId = some y ∨ y = a) →
          HeldOrLater (rest.foldl collectAck (collectAck taken (a.ack.streamId, a))) y ∧
            KnownMap generated
              (rest.foldl collectAck (collectAck taken (a.ack.streamId, a))) := by
        intro y inPlace
        rcases collectAck_held numbered known inGenerated
          (fresh (a.ack.streamId, a) List.mem_cons_self) inPlace with found | ⟨b, found, newer⟩
        · exact later y (.inl found)
        · have stream := (knownNext _ b found).2
          obtain ⟨last, knownLast⟩ := later b (.inl (stream ▸ found))
          exact ⟨last.of_later stream newer, knownLast⟩
      rcases held with first | membership
      · exact here x (.inl first)
      · rcases List.mem_cons.mp membership with same | inRest
        · exact here x (.inr (congrArg Prod.snd same))
        · exact later x (.inr inRest)

/-! ## The places of a path -/

/-- What `path_failed` holds of the path. -/
def FailPhase.Holds (a : GenAck) : FailPhase → Prop
  | .taken acks | .removed acks => acks.get? a.ack.streamId = some a
  | .merging handover => a ∈ handover.acks
  | _ => False

def FailPhase.Known (known : List GenAck) : FailPhase → Prop
  | .taken acks | .removed acks => KnownMap known acks
  | .merging handover => ∀ a ∈ handover.acks, a ∈ known
  | _ => True

namespace RelayPath

/-- The ACK is in a register that is still taken from, or with the writer, or on its way. -/
inductive Holds (p : RelayPath) (a : GenAck) : Prop where
  | pending (attended : p.attended = true) (found : p.pendingAcks.get? a.ack.streamId = some a)
  | inFlight (found : p.inFlight = some a)
  | rest (found : a ∈ p.rest)
  | failing (found : p.failing.Holds a)
  | exit (handover : Handover) (exited : p.exit = some handover) (found : a ∈ handover.acks)

theorem attended_of_running {p : RelayPath} (running : p.exit = none) : p.attended = true := by
  simp [attended, running]

structure Known (accepted generated : List GenAck) (p : RelayPath) : Prop where
  pending : KnownMap accepted p.pendingAcks
  inFlight : ∀ a, p.inFlight = some a → a ∈ accepted
  rest : ∀ a ∈ p.rest, a ∈ accepted
  failing : p.failing.Known accepted
  exit : ∀ handover, p.exit = some handover → ∀ a ∈ handover.acks, a ∈ accepted
  /-- The ACK about to be stored is later than what its lock guards, and `path_failed` waits for
  the lock. -/
  storing : ∀ a, p.storing = some a → a ∈ generated ∧ (p.alive = true ∨ p.failing = .down) ∧
    ∀ stream b, p.pendingAcks.get? stream = some b → b.gen < a.gen
  alive : p.alive = true → p.listed = true ∧ p.failing = .idle ∧ p.exit = none
  guard : p.exit ≠ none → p.inFlight = none ∧ p.rest = []
  writer : p.writing = false → p.inFlight = none ∧ p.rest = []

theorem known_new (accepted generated : List GenAck) : Known accepted generated .new where
  pending := knownMap_empty accepted
  inFlight _ impossible := by cases impossible
  rest _ impossible := absurd impossible List.not_mem_nil
  failing := trivial
  exit _ impossible := by cases impossible
  storing _ impossible := by cases impossible
  alive _ := ⟨rfl, rfl, rfl⟩
  guard exited := absurd rfl exited
  writer _ := ⟨rfl, rfl⟩

theorem Known.mono {accepted generated more moreGenerated : List GenAck} {p : RelayPath}
    (known : Known accepted generated p) (grows : ∀ a ∈ accepted, a ∈ more)
    (growsGenerated : ∀ a ∈ generated, a ∈ moreGenerated) : Known more moreGenerated p where
  pending stream a found := (known.pending stream a found).imp_left (grows a)
  inFlight a found := grows a (known.inFlight a found)
  rest a found := grows a (known.rest a found)
  failing := by
    have failing := known.failing
    cases phase : p.failing with
    | idle => exact trivial
    | down => exact trivial
    | taken acks =>
        rw [phase] at failing
        exact fun stream a found => (failing stream a found).imp_left (grows a)
    | removed acks =>
        rw [phase] at failing
        exact fun stream a found => (failing stream a found).imp_left (grows a)
    | merging handover =>
        rw [phase] at failing
        exact fun a membership => grows a (failing a membership)
  exit handover exited a membership := grows a (known.exit handover exited a membership)
  storing a found := (known.storing a found).imp_left (growsGenerated a)
  alive := known.alive
  guard := known.guard
  writer := known.writer

variable {accepted : List GenAck} {p : RelayPath}

theorem Known.popGuard (known : Known accepted generated p) {rest : RelayPath} {a : GenAck}
    (popped : p.popGuard = some (a, rest)) : a ∈ accepted ∧ Known accepted generated rest := by
  unfold RelayPath.popGuard at popped
  split at popped
  · rename_i inFlight
    cases popped
    refine ⟨known.inFlight _ inFlight, { known with inFlight := ?_, guard := ?_, writer := ?_ }⟩
    · intro _ impossible
      cases impossible
    · exact fun exited => ⟨rfl, (known.guard exited).2⟩
    · exact fun unwritten => ⟨rfl, (known.writer unwritten).2⟩
  · rename_i inFlight behind
    cases popped
    refine ⟨known.rest _ (by simp [behind]), { known with
      rest := ?_
      guard := fun exited => absurd behind (by simp [known.guard exited])
      writer := fun unwritten => absurd behind (by simp [known.writer unwritten]) }⟩
    exact fun b membership => known.rest b (by simp [behind, membership])
  · cases popped

theorem popGuard_same {rest : RelayPath} {a : GenAck} (popped : p.popGuard = some (a, rest)) :
    rest.pendingAcks = p.pendingAcks ∧ rest.exit = p.exit ∧ rest.failing = p.failing ∧
      rest.storing = p.storing ∧
      ∀ x, p.inFlight = some x ∨ x ∈ p.rest → x = a ∨ rest.inFlight = some x ∨ x ∈ rest.rest := by
  unfold RelayPath.popGuard at popped
  split at popped
  · rename_i inFlight
    cases popped
    refine ⟨rfl, rfl, rfl, rfl, ?_⟩
    rintro x (first | behind)
    · exact .inl (Option.some.inj (first.symm.trans inFlight))
    · exact .inr (.inr behind)
  · rename_i inFlight behind
    cases popped
    refine ⟨rfl, rfl, rfl, rfl, ?_⟩
    rintro x (impossible | membership)
    · cases inFlight.symm.trans impossible
    · rw [behind] at membership
      rcases List.mem_cons.mp membership with rfl | later
      · exact .inl rfl
      · exact .inr (.inr later)
  · cases popped

theorem alive_of_popGuard {rest : RelayPath} {a : GenAck} (popped : p.popGuard = some (a, rest)) :
    rest.alive = p.alive := by
  unfold RelayPath.popGuard at popped
  split at popped
  · cases popped
    rfl
  · cases popped
    rfl
  · cases popped

/-- A merge under a free lock. -/
theorem Known.mergeAck (known : Known accepted generated p) (free : p.storing = none)
    {a : GenAck} (inAccepted : a ∈ accepted) :
    Known accepted generated { p with pendingAcks := NyaLink.mergeAck p.pendingAcks a } :=
  { known with
    pending := knownMap_mergeAck known.pending inAccepted
    storing := fun b found => by cases free.symm.trans found }

/-- The register a store is about to write to is still taken from. -/
theorem Known.attended_of_storing (known : Known accepted generated p) {a : GenAck}
    (storing : p.storing = some a) : p.attended = true := by
  rcases (known.storing a storing).2.1 with alive | down
  · exact attended_of_running (known.alive alive).2.2
  · simp [attended, down, FailPhase.takes]

theorem failing_of_handover {handover : Handover}
    (running : p.handover .pathFailed = some handover) : p.failing = .merging handover := by
  unfold RelayPath.handover at running
  dsimp only at running
  split at running
  · rename_i same phase
    cases running
    exact phase
  · cases running

theorem Known.handover (known : Known accepted generated p) {mover : Mover} {handover : Handover}
    (running : p.handover mover = some handover) : ∀ a ∈ handover.acks, a ∈ accepted := by
  cases mover with
  | pathFailed =>
      have failing := known.failing
      rw [failing_of_handover running] at failing
      exact failing
  | ioTask => exact known.exit handover running

/-- Only a failed path has a handover. -/
theorem Known.not_alive_of_handover (known : Known accepted generated p) {mover : Mover}
    {handover : Handover} (running : p.handover mover = some handover) : p.alive = false := by
  cases alive : p.alive with
  | false => rfl
  | true =>
      obtain ⟨_, idle, notExited⟩ := known.alive alive
      cases mover with
      | pathFailed =>
          simp only [RelayPath.handover, idle] at running
          cases running
      | ioTask => cases notExited.symm.trans running

theorem Known.setHandover (known : Known accepted generated p) {mover : Mover}
    {handover after : Handover} (running : p.handover mover = some handover)
    (fewer : ∀ a ∈ after.acks, a ∈ accepted) :
    Known accepted generated (p.setHandover mover after) := by
  have failed := known.not_alive_of_handover running
  cases mover with
  | pathFailed =>
      refine { known with failing := fewer, storing := ?_, alive := ?_ }
      · intro a found
        rcases (known.storing a found).2.1 with alive | down
        · cases failed.symm.trans alive
        · cases down.symm.trans (failing_of_handover running)
      · exact fun alive => absurd (failed.symm.trans alive) (by decide)
  | ioTask =>
      have exited : p.exit = some handover := running
      refine { known with exit := ?_, alive := ?_, guard := ?_ }
      · rintro _ ⟨⟩
        exact fewer
      · exact fun alive => absurd (failed.symm.trans alive) (by decide)
      · exact fun _ => known.guard (by simp [exited])

end RelayPath

namespace AckRelay

/-! ## The invariant -/

/-- What every reachable board is like. -/
structure Sound (s : AckRelay) : Prop where
  numbered : Numbered s.generated
  reached : ∀ a ∈ s.generated, a.ack.ackedOffset ≤ s.offsetOf a.ack.streamId
  accepted : ∀ a ∈ s.accepted, a ∈ s.generated
  paths : ∀ path p, s.paths.get? path = some p → p.Known s.accepted s.generated

theorem Sound.setPath {s : AckRelay} (sound : s.Sound) {path : Nat} {p : RelayPath}
    (known : p.Known s.accepted s.generated) : (s.setPath path p).Sound :=
  { sound with
    paths := by
      intro other q found
      change (s.paths.insert path p).get? other = some q at found
      rcases OrdMap.get?_insert_cases found with ⟨-, rfl⟩ | before
      · exact known
      · exact sound.paths other q before }

/-- The target's register changes; the handover is the one that was there. -/
theorem handover_again {s : AckRelay} {path alt : Nat} {mover : Mover} {p q again : RelayPath}
    {handover : Handover} {pending : OrdMap Nat GenAck} (found : s.paths.get? path = some p)
    (running : p.handover mover = some handover) (target : s.paths.get? alt = some q)
    (foundAgain : (s.setPath alt { q with pendingAcks := pending }).paths.get? path = some again) :
    again.handover mover = some handover := by
  change (s.paths.insert alt { q with pendingAcks := pending }).get? path = some again at foundAgain
  rcases OrdMap.get?_insert_cases foundAgain with ⟨rfl, rfl⟩ | before
  · obtain rfl : q = p := Option.some.inj (target.symm.trans found)
    rw [← running]
    cases mover with
    | pathFailed => rfl
    | ioTask => rfl
  · obtain rfl : p = again := Option.some.inj (found.symm.trans before)
    exact running

/-- The ACK of a store that got the lock is the newest, and says the most. -/
theorem Sound.generate {s : AckRelay} (sound : s.Sound) (stream window : Nat)
    (sack : List (Nat × Nat)) :
    { s with generated :=
        ⟨s.generated.length, ⟨stream, s.offsetOf stream, window, sack⟩⟩ :: s.generated }.Sound where
  numbered := by
    refine ⟨sound.numbered.monotone.cons rfl fun b inB same =>
      (sound.reached b inB).trans_eq (congrArg s.offsetOf same), ?_⟩
    intro a inA b inB same
    rcases List.mem_cons.mp inA with rfl | inA
    · rcases List.mem_cons.mp inB with rfl | inB
      · rfl
      · exact absurd same (sound.numbered.monotone.numbered b inB).ne'
    · rcases List.mem_cons.mp inB with rfl | inB
      · exact absurd same (sound.numbered.monotone.numbered a inA).ne
      · exact sound.numbered.unique a inA b inB same
  reached := by
    intro a membership
    rcases List.mem_cons.mp membership with rfl | earlier
    · exact le_rfl
    · exact sound.reached a earlier
  accepted := fun a membership => List.mem_cons_of_mem _ (sound.accepted a membership)
  paths := fun path p found =>
    (sound.paths path p found).mono (fun _ => id) fun _ => List.mem_cons_of_mem _

theorem Sound.testAlive {s : AckRelay} (sound : s.Sound) {stream path window : Nat}
    {sack : List (Nat × Nat)} {p : RelayPath} {a : GenAck} (found : s.paths.get? path = some p)
    (alive : p.alive = true)
    (new : a = ⟨s.generated.length, ⟨stream, s.offsetOf stream, window, sack⟩⟩) :
    ({ s with generated := a :: s.generated }.setPath path { p with storing := some a }).Sound := by
  subst new
  have generated := sound.generate stream window sack
  have known := generated.paths path p found
  refine generated.setPath { known with storing := ?_ }
  rintro _ ⟨⟩
  refine ⟨List.mem_cons_self, .inl alive, fun other b held => ?_⟩
  exact sound.numbered.monotone.numbered b
    (sound.accepted b (((sound.paths path p found).pending other b held).1))

/-- The lock is let go. -/
theorem Sound.insertAck {s : AckRelay} (sound : s.Sound) {path : Nat} {p : RelayPath} {a : GenAck}
    (found : s.paths.get? path = some p) (storing : p.storing = some a) :
    ({ s with accepted := a :: s.accepted }.setPath path
      { p with storing := none, pendingAcks := p.pendingAcks.insert a.ack.streamId a }).Sound := by
  have known := sound.paths path p found
  have accepted : { s with accepted := a :: s.accepted }.Sound :=
    { sound with
      accepted := by
        intro b membership
        rcases List.mem_cons.mp membership with rfl | earlier
        · exact (known.storing b storing).1
        · exact sound.accepted b earlier
      paths := fun other q there =>
        (sound.paths other q there).mono (fun _ => List.mem_cons_of_mem _) fun _ => id }
  have more : p.Known (a :: s.accepted) s.generated :=
    known.mono (fun _ => List.mem_cons_of_mem _) fun _ => id
  exact accepted.setPath { more with
    pending := knownMap_insert more.pending List.mem_cons_self
    storing := fun _ impossible => by cases impossible }

theorem mem_values_iff {acks : OrdMap Nat GenAck} {a : GenAck} :
    a ∈ acks.entries.map Prod.snd ↔ ∃ stream, acks.get? stream = some a := by
  constructor
  · intro membership
    obtain ⟨⟨stream, b⟩, listed, rfl⟩ := List.mem_map.mp membership
    exact ⟨stream, OrdMap.get?_eq_some_iff.mpr listed⟩
  · rintro ⟨stream, found⟩
    exact List.mem_map.mpr ⟨(stream, a), OrdMap.get?_eq_some_iff.mp found, rfl⟩

/-- What the second take adds is known. -/
theorem known_collected {accepted : List GenAck} {acks pending : OrdMap Nat GenAck}
    (first : KnownMap accepted acks) (second : KnownMap accepted pending) :
    ∀ a ∈ (pending.entries.foldl collectAck acks).entries.map Prod.snd, a ∈ accepted := by
  intro a membership
  obtain ⟨stream, found⟩ := mem_values_iff.mp membership
  refine AckBoard.foldl_collectAck_known pending.entries
    (fun stream b held => (first stream b held).1) ?_ stream a found
  intro entry listed
  exact (second entry.1 entry.2 (OrdMap.get?_eq_some_iff.mpr listed)).1

theorem Sound.advance {s : AckRelay} (sound : s.Sound) (stream n : Nat) :
    { s with recvNext := s.recvNext.insert stream (s.offsetOf stream + n) }.Sound :=
  { sound with reached := fun a membership =>
      (sound.reached a membership).trans (offset_le_advanced s.recvNext stream n _) }

/-- A handover goes on with no more than its ACKs. -/
theorem Sound.handover {s : AckRelay} (sound : s.Sound) {path : Nat} {mover : Mover}
    {p : RelayPath} {handover after : Handover} (found : s.paths.get? path = some p)
    (running : p.handover mover = some handover) (fewer : ∀ a ∈ after.acks, a ∈ handover.acks) :
    (s.setPath path (p.setHandover mover after)).Sound := by
  have known := sound.paths path p found
  exact sound.setPath (known.setHandover running fun a membership =>
    known.handover running a (fewer a membership))

theorem Sound.step {s next : AckRelay} (sound : s.Sound) {action : RelayAction}
    (taken : s.step action = some next) : next.Sound := by
  cases took_of_step taken with
  | addPath absent => exact sound.setPath (RelayPath.known_new _ _)
  | advance => exact sound.advance _ _
  | testAlive found alive new => exact sound.testAlive found alive new
  | insertAck found storing => exact sound.insertAck found storing
  | startWriter found =>
      have known := sound.paths _ _ found
      exact sound.setPath { known with writer := fun impossible => by cases impossible }
  | takeAcks found writing running free empty =>
      have known := sound.paths _ _ found
      refine sound.setPath { known with
        pending := ?_
        rest := ?_
        storing := ?_
        guard := fun exited => absurd running exited
        writer := ?_ }
      · exact fun stream a held => known.pending stream a (AckBoard.takeAcks_pending _ held)
      · intro a membership
        obtain ⟨stream, held⟩ := AckBoard.takeAcks_taken _ membership
        exact (known.pending stream a held).1
      · exact fun a storing => by cases free.symm.trans storing
      · intro unwritten
        cases writing.symm.trans unwritten
  | popFront found idle behind =>
      have known := sound.paths _ _ found
      refine sound.setPath { known with
        inFlight := ?_
        rest := ?_
        guard := fun exited => absurd behind (by simp [known.guard exited])
        writer := fun unwritten => absurd behind (by simp [known.writer unwritten]) }
      · rintro _ ⟨⟩
        exact known.rest _ (by simp [behind])
      · exact fun b membership => known.rest b (by simp [behind, membership])
  | @sent path p a found inFlight =>
      have known := sound.paths _ _ found
      have written : { s with written := a :: s.written }.Sound := { sound with }
      refine written.setPath { known with
        inFlight := ?_
        guard := fun exited => ⟨rfl, (known.guard exited).2⟩
        writer := fun unwritten => ⟨rfl, (known.writer unwritten).2⟩ }
      intro _ impossible
      cases impossible
  | restoreAck found free popped =>
      obtain ⟨inAccepted, knownRest⟩ := (sound.paths _ _ found).popGuard popped
      exact sound.setPath
        (knownRest.mergeAck ((RelayPath.popGuard_same popped).2.2.2.1.trans free) inAccepted)
  | swapDown found alive =>
      have known := sound.paths _ _ found
      exact sound.setPath { known with
        failing := trivial
        storing := fun a storing =>
          (known.storing a storing).imp_right fun holds => ⟨.inr rfl, holds.2⟩
        alive := fun impossible => by cases impossible }
  | takeAllAcks found down free =>
      have known := sound.paths _ _ found
      refine sound.setPath { known with
        pending := knownMap_empty _
        failing := known.pending
        storing := ?_
        alive := ?_ }
      · exact fun a storing => by cases free.symm.trans storing
      · intro alive
        cases down.symm.trans (known.alive alive).2.1
  | removePath found phase =>
      have known := sound.paths _ _ found
      have failing := known.failing
      rw [phase] at failing
      refine sound.setPath { known with failing := failing, storing := ?_, alive := ?_ }
      · intro a storing
        rcases (known.storing a storing).2.1 with alive | down
        · exact absurd (phase.symm.trans (known.alive alive).2.1) (by simp)
        · cases down.symm.trans phase
      · intro alive
        cases phase.symm.trans (known.alive alive).2.1
  | takeAgain found phase free =>
      have known := sound.paths _ _ found
      have failing := known.failing
      rw [phase] at failing
      refine sound.setPath { known with
        pending := knownMap_empty _
        failing := known_collected failing known.pending
        storing := ?_
        alive := ?_ }
      · exact fun a storing => by cases free.symm.trans storing
      · intro alive
        cases phase.symm.trans (known.alive alive).2.1
  | finalTake found failed running free guard =>
      have known := sound.paths _ _ found
      refine sound.setPath { known with
        pending := knownMap_empty _
        exit := ?_
        storing := ?_
        alive := ?_
        guard := fun _ => guard }
      · rintro _ ⟨⟩ a membership
        obtain ⟨stream, held⟩ := mem_values_iff.mp membership
        exact (known.pending stream a held).1
      · exact fun a storing => by cases free.symm.trans storing
      · intro alive
        cases failed.symm.trans alive
  | flushFailed found unwritten failed running =>
      have known := sound.paths _ _ found
      refine sound.setPath { known with
        exit := ?_
        alive := ?_
        guard := fun _ => known.writer unwritten }
      · rintro _ ⟨⟩ a impossible
        cases impossible
      · intro alive
        cases failed.symm.trans alive
  | picked found running => exact sound.handover found running fun _ => id
  | unpicked found running nowhere =>
      exact sound.handover found running fun _ impossible => absurd impossible List.not_mem_nil
  | gotPath found running => exact sound.handover found running fun _ => id
  | lostPath found running stage unlisted =>
      exact sound.handover found running fun _ impossible => absurd impossible List.not_mem_nil
  | @mergeAck path alt index mover p q again handover a found running stage listed target free
      foundAgain =>
      have inAccepted := (sound.paths path p found).handover running a
        (List.mem_of_getElem? listed)
      have merged := @Sound.setPath s sound alt _
        ((sound.paths alt q target).mergeAck free inAccepted)
      exact merged.handover foundAgain (handover_again found running target foundAgain)
        fun _ => List.mem_of_mem_eraseIdx

theorem sound_of_reachable {home : Nat} {s : AckRelay} (reachable : (machine home).Reachable s) :
    s.Sound := by
  refine reachable.invariant Sound ?_ ?_
  · rintro _ rfl
    refine ⟨⟨⟨?_, ?_⟩, ?_⟩, ?_, ?_, ?_⟩
    · exact fun _ impossible => absurd impossible List.not_mem_nil
    · exact fun _ impossible => absurd impossible List.not_mem_nil
    · exact fun _ impossible => absurd impossible List.not_mem_nil
    · exact fun _ impossible => absurd impossible List.not_mem_nil
    · exact fun _ impossible => absurd impossible List.not_mem_nil
    · intro path p found
      change (OrdMap.empty.insert home RelayPath.new).get? path = some p at found
      rcases OrdMap.get?_insert_cases found with ⟨-, rfl⟩ | impossible
      · exact RelayPath.known_new _ _
      · cases impossible
  · intro s action next sound taken
    simp only [machine] at taken
    split at taken
    · cases taken
    · exact sound.step taken

end AckRelay

end NyaLink
