import NyaLink.Session.AckRelaySound

/-!
# No accepted ACK is stranded

An ACK that was accepted is written, superseded, or in one of the places that a
step takes ACKs from: a register that the writer, `path_failed` or the IO task
still takes from, the guard of the writer, what `path_failed` has taken, or a
handover.  Every step moves ACKs between these places, as long as a handover
meets such a register and the rules for equal offsets keep the later ACK.
-/

namespace NyaLink

namespace AckRelay

/-! ## Where an accepted ACK is -/

def Kept (s : AckRelay) (a : GenAck) : Prop :=
  a ∈ s.written ∨ s.Superseded a ∨ ∃ path p, s.paths.get? path = some p ∧ p.Holds a

theorem Superseded.mono {s next : AckRelay} {a : GenAck} (superseded : s.Superseded a)
    (accepted : ∀ b ∈ s.accepted, b ∈ next.accepted) : next.Superseded a := by
  obtain ⟨b, inAccepted, same, later⟩ := superseded
  exact ⟨b, accepted b inAccepted, same, later⟩

/-- One path changes. -/
theorem Kept.setPath {s next : AckRelay} {path : Nat} {p after : RelayPath} {a : GenAck}
    (kept : s.Kept a) (found : s.paths.get? path = some p)
    (paths : next.paths = s.paths.insert path after)
    (written : ∀ b ∈ s.written, b ∈ next.written)
    (accepted : ∀ b ∈ s.accepted, b ∈ next.accepted)
    (moves : p.Holds a → after.Holds a ∨ a ∈ next.written ∨ next.Superseded a) : next.Kept a := by
  have here : next.paths.get? path = some after := by
    rw [paths]
    exact OrdMap.get?_insert_self _ _ _
  rcases kept with inWritten | superseded | ⟨other, q, there, holds⟩
  · exact .inl (written a inWritten)
  · exact .inr (.inl (superseded.mono accepted))
  · by_cases same : other = path
    · subst same
      obtain rfl : q = p := Option.some.inj (there.symm.trans found)
      rcases moves holds with stays | inWritten | superseded
      · exact .inr (.inr ⟨other, after, here, stays⟩)
      · exact .inl inWritten
      · exact .inr (.inl superseded)
    · refine .inr (.inr ⟨other, q, ?_, holds⟩)
      rw [paths, OrdMap.get?_insert_of_ne _ _ same]
      exact there

/-- The same for a change of one path alone. -/
theorem Kept.onPath {s : AckRelay} {path : Nat} {p after : RelayPath} {a : GenAck}
    (kept : s.Kept a) (found : s.paths.get? path = some p)
    (moves : p.Holds a → after.Holds a ∨ s.Superseded a) : (s.setPath path after).Kept a :=
  kept.setPath found rfl (fun _ => id) (fun _ => id) fun holds =>
    (moves holds).imp_right .inr

/-- What is held or later in a map of accepted ACKs is held or superseded. -/
theorem superseded_of_later {s : AckRelay} {acks : OrdMap Nat GenAck}
    (known : KnownMap s.accepted acks) {x : GenAck} (held : HeldOrLater acks x) :
    acks.get? x.ack.streamId = some x ∨ s.Superseded x := by
  rcases held with found | ⟨b, found, later⟩
  · exact .inl found
  · obtain ⟨inAccepted, same⟩ := known _ b found
    exact .inr ⟨b, inAccepted, same, later⟩

theorem Sound.generatedMap {s : AckRelay} (sound : s.Sound) {acks : OrdMap Nat GenAck}
    (known : KnownMap s.accepted acks) : KnownMap s.generated acks :=
  fun stream a found => (known stream a found).imp_left (sound.accepted a)

/-- A merge keeps what the register holds and what comes in. -/
theorem Sound.merge_held {s : AckRelay} (sound : s.Sound) {pending : OrdMap Nat GenAck}
    (known : KnownMap s.accepted pending) {a : GenAck} (inAccepted : a ∈ s.accepted)
    (fresh : AckBoard.tieFresh (pending.get? a.ack.streamId) a = true) {x : GenAck}
    (held : pending.get? x.ack.streamId = some x ∨ x = a) :
    (mergeAck pending a).get? x.ack.streamId = some x ∨ s.Superseded x :=
  superseded_of_later (knownMap_mergeAck known inAccepted)
    (mergeAck_held sound.numbered (sound.generatedMap known) (sound.accepted a inAccepted) fresh
      held)

/-- Steps that leave the guard and the IO task alone move an ACK only out of the register, or of
`path_failed`. -/
theorem holds_aside {p after : RelayPath} {a : GenAck} {gone : Prop} (holds : p.Holds a)
    (inFlight : after.inFlight = p.inFlight) (rest : after.rest = p.rest)
    (exit : after.exit = p.exit)
    (pending : p.attended = true → p.pendingAcks.get? a.ack.streamId = some a →
      after.Holds a ∨ gone)
    (failing : p.failing.Holds a → after.Holds a ∨ gone) : after.Holds a ∨ gone := by
  rcases holds with ⟨attended, held⟩ | held | held | held | ⟨handover, exited, held⟩
  · exact pending attended held
  · exact .inl (.inFlight (inFlight.trans held))
  · exact .inl (.rest (rest ▸ held))
  · exact failing held
  · exact .inl (.exit handover (exit.trans exited) held)

theorem kept_testAlive {s : AckRelay} {path : Nat} {p : RelayPath} {new a : GenAck}
    (kept : s.Kept a) (found : s.paths.get? path = some p) :
    ({ s with generated := new :: s.generated }.setPath path
      { p with storing := some new }).Kept a := by
  refine kept.setPath found rfl (fun _ => id) (fun _ => id) fun holds => ?_
  refine holds_aside holds rfl rfl rfl ?_ ?_
  · exact fun attended held => .inl (.pending attended held)
  · exact fun held => .inl (.failing held)

theorem kept_insertAck {s : AckRelay} (sound : s.Sound) (kept : ∀ a ∈ s.accepted, s.Kept a)
    {path : Nat} {p : RelayPath} {a : GenAck} (found : s.paths.get? path = some p)
    (storing : p.storing = some a) :
    ∀ x ∈ a :: s.accepted, ({ s with accepted := a :: s.accepted }.setPath path
      { p with storing := none, pendingAcks := p.pendingAcks.insert a.ack.streamId a }).Kept x := by
  have known := sound.paths path p found
  obtain ⟨_, _, newest⟩ := known.storing a storing
  intro x membership
  rcases List.mem_cons.mp membership with rfl | earlier
  · refine .inr (.inr ⟨path, _, OrdMap.get?_insert_self _ _ _,
      .pending (known.attended_of_storing storing) ?_⟩)
    exact OrdMap.get?_insert_self _ _ _
  · refine (kept x earlier).setPath found rfl (fun _ => id) (fun _ => List.mem_cons_of_mem _) ?_
    intro holds
    refine holds_aside holds rfl rfl rfl ?_ ?_
    · intro attended held
      by_cases same : x.ack.streamId = a.ack.streamId
      · exact .inr (.inr ⟨a, List.mem_cons_self, same.symm, newest _ x held⟩)
      · refine .inl (.pending attended ?_)
        rw [OrdMap.get?_insert_of_ne _ _ same]
        exact held
    · exact fun held => .inl (.failing held)

theorem kept_startWriter {s : AckRelay} {path : Nat} {p : RelayPath} {a : GenAck}
    (kept : s.Kept a) (found : s.paths.get? path = some p) :
    (s.setPath path { p with writing := true }).Kept a := by
  refine kept.onPath found fun holds => holds_aside holds rfl rfl rfl ?_ ?_
  · exact fun attended held => .inl (.pending attended held)
  · exact fun held => .inl (.failing held)

theorem kept_takeAcks {s : AckRelay} {path : Nat} {p : RelayPath} {streams : List Nat}
    {a : GenAck} (kept : s.Kept a) (found : s.paths.get? path = some p) (empty : p.rest = []) :
    (s.setPath path { p with
      pendingAcks := (takeAcks p.pendingAcks streams).2
      rest := (takeAcks p.pendingAcks streams).1 }).Kept a := by
  refine kept.onPath found ?_
  rintro (⟨attended, held⟩ | held | held | held | ⟨handover, exited, held⟩)
  · rcases takeAcks_held streams held with inHand | stays
    · exact .inl (.rest inHand)
    · exact .inl (.pending attended stays)
  · exact .inl (.inFlight held)
  · rw [empty] at held
    cases held
  · exact .inl (.failing held)
  · exact .inl (.exit handover exited held)

theorem kept_popFront {s : AckRelay} {path : Nat} {p : RelayPath} {first a : GenAck}
    {rest : List GenAck} (kept : s.Kept a) (found : s.paths.get? path = some p)
    (idle : p.inFlight = none) (behind : p.rest = first :: rest) :
    (s.setPath path { p with inFlight := some first, rest := rest }).Kept a := by
  refine kept.onPath found ?_
  rintro (⟨attended, held⟩ | held | held | held | ⟨handover, exited, held⟩)
  · exact .inl (.pending attended held)
  · cases idle.symm.trans held
  · rw [behind] at held
    rcases List.mem_cons.mp held with rfl | later
    · exact .inl (.inFlight rfl)
    · exact .inl (.rest later)
  · exact .inl (.failing held)
  · exact .inl (.exit handover exited held)

theorem kept_sent {s : AckRelay} {path : Nat} {p : RelayPath} {sent a : GenAck}
    (kept : s.Kept a) (found : s.paths.get? path = some p) (inFlight : p.inFlight = some sent) :
    ({ s with written := sent :: s.written }.setPath path { p with inFlight := none }).Kept a := by
  refine kept.setPath found rfl (fun _ => List.mem_cons_of_mem _) (fun _ => id) ?_
  rintro (⟨attended, held⟩ | held | held | held | ⟨handover, exited, held⟩)
  · exact .inl (.pending attended held)
  · obtain rfl : sent = a := Option.some.inj (inFlight.symm.trans held)
    exact .inr (.inl List.mem_cons_self)
  · exact .inl (.rest held)
  · exact .inl (.failing held)
  · exact .inl (.exit handover exited held)

theorem kept_restoreAck {s : AckRelay} (sound : s.Sound) {path : Nat} {p rest : RelayPath}
    {back a : GenAck} (kept : s.Kept a) (found : s.paths.get? path = some p)
    (popped : p.popGuard = some (back, rest))
    (fresh : AckBoard.tieFresh (p.pendingAcks.get? back.ack.streamId) back = true) :
    (s.setPath path { rest with pendingAcks := mergeAck rest.pendingAcks back }).Kept a := by
  have known := sound.paths path p found
  obtain ⟨inAccepted, knownRest⟩ := known.popGuard popped
  obtain ⟨pending, exit, failing, _, others⟩ := RelayPath.popGuard_same popped
  have running : p.inFlight = some a ∨ a ∈ p.rest → p.exit = none := by
    intro inGuard
    by_contra exited
    obtain ⟨inFlight, empty⟩ := known.guard exited
    rw [inFlight, empty] at inGuard
    rcases inGuard with impossible | impossible
    · cases impossible
    · cases impossible
  have merged := fun held => @Sound.merge_held s sound p.pendingAcks known.pending back inAccepted
    fresh a held
  rw [pending]
  refine kept.onPath found ?_
  have inGuard : p.inFlight = some a ∨ a ∈ p.rest →
      ({ rest with pendingAcks := mergeAck p.pendingAcks back } : RelayPath).Holds a ∨
        s.Superseded a := by
    intro held
    rcases others a held with rfl | first | behind
    · exact (merged (.inr rfl)).imp_left
        (.pending (RelayPath.attended_of_running (exit.trans (running held))))
    · exact .inl (.inFlight first)
    · exact .inl (.rest behind)
  rintro (⟨attended, held⟩ | held | held | held | ⟨handover, exited, held⟩)
  · refine (merged (.inl held)).imp_left (.pending ?_)
    change (rest.exit.isNone || rest.failing.takes) = true
    rw [exit, failing]
    exact attended
  · exact inGuard (.inl held)
  · exact inGuard (.inr held)
  · refine .inl (.failing ?_)
    change rest.failing.Holds a
    rw [failing]
    exact held
  · exact .inl (.exit handover (exit.trans exited) held)

/-! ## A failing path -/

theorem kept_swapDown {s : AckRelay} (sound : s.Sound) {path : Nat} {p : RelayPath} {a : GenAck}
    (kept : s.Kept a) (found : s.paths.get? path = some p) (alive : p.alive = true) :
    (s.setPath path { p with alive := false, failing := .down }).Kept a := by
  obtain ⟨_, idle, running⟩ := (sound.paths path p found).alive alive
  refine kept.onPath found fun holds => holds_aside holds rfl rfl rfl ?_ ?_
  · exact fun _ held => .inl (.pending (RelayPath.attended_of_running running) held)
  · intro held
    rw [idle] at held
    cases held

theorem kept_takeAllAcks {s : AckRelay} {path : Nat} {p : RelayPath} {a : GenAck}
    (kept : s.Kept a) (found : s.paths.get? path = some p) (down : p.failing = .down) :
    (s.setPath path { p with failing := .taken p.pendingAcks, pendingAcks := .empty }).Kept a := by
  refine kept.onPath found fun holds => holds_aside holds rfl rfl rfl ?_ ?_
  · exact fun _ held => .inl (.failing held)
  · intro held
    rw [down] at held
    cases held

theorem kept_removePath {s : AckRelay} {path : Nat} {p : RelayPath} {acks : OrdMap Nat GenAck}
    {a : GenAck} (kept : s.Kept a) (found : s.paths.get? path = some p)
    (phase : p.failing = .taken acks) :
    (s.setPath path { p with listed := false, failing := .removed acks }).Kept a := by
  refine kept.onPath found fun holds => holds_aside holds rfl rfl rfl ?_ ?_
  · exact fun _ held => .inl (.pending (by simp [RelayPath.attended, FailPhase.takes]) held)
  · intro held
    rw [phase] at held
    exact .inl (.failing held)

/-- What the second take makes of both takes. -/
theorem collected_held {s : AckRelay} (sound : s.Sound) {acks pending : OrdMap Nat GenAck}
    (first : KnownMap s.accepted acks) (second : KnownMap s.accepted pending)
    (fresh : pending.entries.all (collectFresh acks) = true) {a : GenAck}
    (held : acks.get? a.ack.streamId = some a ∨ pending.get? a.ack.streamId = some a) :
    a ∈ (pending.entries.foldl collectAck acks).entries.map Prod.snd ∨ s.Superseded a := by
  have listed : ∀ entry ∈ pending.entries,
      entry.2 ∈ s.accepted ∧ entry.2.ack.streamId = entry.1 :=
    fun entry membership => second entry.1 entry.2 (OrdMap.get?_eq_some_iff.mpr membership)
  obtain ⟨last, known⟩ := foldl_collectAck_held sound.numbered pending.entries
    (sound.generatedMap first)
    (fun entry membership => (listed entry membership).imp_left (sound.accepted entry.2))
    pending.nodup_keys (fun entry membership => List.all_eq_true.mp fresh entry membership)
    (held.imp_right OrdMap.get?_eq_some_iff.mp)
  rcases last with found | ⟨b, found, later⟩
  · exact .inl (mem_values_iff.mpr ⟨_, found⟩)
  · right
    exact ⟨b, known_collected first second b (mem_values_iff.mpr ⟨_, found⟩),
      (known _ b found).2, later⟩

theorem kept_takeAgain {s : AckRelay} (sound : s.Sound) {path : Nat} {p : RelayPath}
    {acks : OrdMap Nat GenAck} {a : GenAck} (kept : s.Kept a)
    (found : s.paths.get? path = some p) (phase : p.failing = .removed acks)
    (fresh : p.pendingAcks.entries.all (collectFresh acks) = true) :
    (s.setPath path { p with
      pendingAcks := .empty
      failing := .merging ⟨.pickRetry,
        (p.pendingAcks.entries.foldl collectAck acks).entries.map Prod.snd⟩ }).Kept a := by
  have known := sound.paths path p found
  have first := known.failing
  rw [phase] at first
  have collected := fun held => @collected_held s sound acks p.pendingAcks first known.pending
    fresh a held
  refine kept.onPath found fun holds => holds_aside holds rfl rfl rfl ?_ ?_
  · exact fun _ held => (collected (.inr held)).imp_left .failing
  · intro held
    rw [phase] at held
    exact (collected (.inl held)).imp_left .failing

theorem kept_finalTake {s : AckRelay} {path : Nat} {p : RelayPath} {a : GenAck}
    (kept : s.Kept a) (found : s.paths.get? path = some p) (running : p.exit = none) :
    (s.setPath path { p with
      pendingAcks := .empty
      exit := some ⟨.pickRetry, p.pendingAcks.entries.map Prod.snd⟩ }).Kept a := by
  refine kept.onPath found ?_
  rintro (⟨_, held⟩ | held | held | held | ⟨handover, exited, held⟩)
  · exact .inl (.exit _ rfl (mem_values_iff.mpr ⟨_, held⟩))
  · exact .inl (.inFlight held)
  · exact .inl (.rest held)
  · exact .inl (.failing held)
  · cases running.symm.trans exited

/-- An IO task that goes without a final take. -/
theorem kept_flushFailed {s : AckRelay} {path : Nat} {p : RelayPath} {a : GenAck}
    (kept : s.Kept a) (found : s.paths.get? path = some p) (running : p.exit = none)
    (taken : (p.failing.takes || p.pendingAcks.entries.isEmpty) = true) :
    (s.setPath path { p with exit := some ⟨.pickRetry, []⟩ }).Kept a := by
  refine kept.onPath found ?_
  rintro (⟨_, held⟩ | held | held | held | ⟨handover, exited, held⟩)
  · have takes : p.failing.takes = true := by
      refine (Bool.or_eq_true_iff.mp taken).resolve_right fun empty => ?_
      have listed := OrdMap.get?_eq_some_iff.mp held
      rw [List.isEmpty_iff.mp empty] at listed
      cases listed
    exact .inl (.pending (by simp [RelayPath.attended, takes]) held)
  · exact .inl (.inFlight held)
  · exact .inl (.rest held)
  · exact .inl (.failing held)
  · cases running.symm.trans exited

/-! ## A handover -/

theorem holds_moved (p : RelayPath) (mover : Mover) {after : Handover} {a : GenAck}
    (membership : a ∈ after.acks) : (p.setHandover mover after).Holds a := by
  cases mover with
  | pathFailed => exact .failing membership
  | ioTask => exact .exit after rfl membership

theorem pendingAcks_setHandover (p : RelayPath) (mover : Mover) (after : Handover) :
    (p.setHandover mover after).pendingAcks = p.pendingAcks := by
  cases mover with
  | pathFailed => rfl
  | ioTask => rfl

/-- A register that is taken from stays one. -/
theorem attended_setHandover {p : RelayPath} {mover : Mover} {handover : Handover}
    (running : p.handover mover = some handover) (attended : p.attended = true)
    (after : Handover) : (p.setHandover mover after).attended = true := by
  cases mover with
  | pathFailed =>
      have phase := RelayPath.failing_of_handover running
      simp only [RelayPath.attended, phase, FailPhase.takes, Bool.or_false] at attended
      simp only [RelayPath.attended, RelayPath.setHandover, attended, Bool.true_or]
  | ioTask =>
      have own : p.exit = some handover := running
      simp only [RelayPath.attended, own, Option.isNone_some, Bool.false_or] at attended
      simp only [RelayPath.attended, RelayPath.setHandover, attended, Bool.or_true]

/-- Only the ACKs of the handover itself may leave. -/
theorem holds_setHandover {p : RelayPath} {mover : Mover} {handover : Handover} {a : GenAck}
    (running : p.handover mover = some handover) (holds : p.Holds a) (after : Handover) :
    (p.setHandover mover after).Holds a ∨ a ∈ handover.acks := by
  rcases holds with ⟨attended, held⟩ | held | held | held | ⟨other, exited, held⟩
  · left
    refine .pending (attended_setHandover running attended after) ?_
    rw [pendingAcks_setHandover]
    exact held
  · left
    cases mover with
    | pathFailed => exact .inFlight held
    | ioTask => exact .inFlight held
  · left
    cases mover with
    | pathFailed => exact .rest held
    | ioTask => exact .rest held
  · cases mover with
    | pathFailed =>
        rw [RelayPath.failing_of_handover running] at held
        exact .inr held
    | ioTask => exact .inl (.failing held)
  · cases mover with
    | pathFailed => exact .inl (.exit other exited held)
    | ioTask =>
        have own : p.exit = some handover := running
        obtain rfl : handover = other := Option.some.inj (own.symm.trans exited)
        exact .inr held

/-- A handover that goes on with its ACKs. -/
theorem kept_handover {s : AckRelay} {path : Nat} {p : RelayPath} {mover : Mover}
    {handover after : Handover} {a : GenAck} (kept : s.Kept a)
    (found : s.paths.get? path = some p) (running : p.handover mover = some handover)
    (same : ∀ b ∈ handover.acks, b ∈ after.acks) :
    (s.setPath path (p.setHandover mover after)).Kept a := by
  refine kept.onPath found fun holds => .inl ?_
  rcases holds_setHandover running holds after with stays | membership
  · exact stays
  · exact holds_moved p mover (same a membership)

theorem mem_eraseIdx_or_eq {acks : List GenAck} {index : Nat} {a x : GenAck}
    (listed : acks[index]? = some a) (membership : x ∈ acks) : x ∈ acks.eraseIdx index ∨ x = a := by
  induction acks generalizing index with
  | nil => cases membership
  | cons head rest inductionHypothesis =>
      cases index with
      | zero =>
          obtain rfl : head = a := Option.some.inj listed
          rcases List.mem_cons.mp membership with rfl | later
          · exact .inr rfl
          · exact .inl later
      | succ index =>
          rcases List.mem_cons.mp membership with rfl | later
          · exact .inl List.mem_cons_self
          · exact (inductionHypothesis listed later).imp_left (List.mem_cons_of_mem _)

/-- One `merge_ack`: the target's register has the ACK, or a later one, before the handover lets
it go. -/
theorem kept_mergeAck {s : AckRelay} (sound : s.Sound) {path alt index : Nat} {mover : Mover}
    {p q again : RelayPath} {handover : Handover} {a x : GenAck}
    (found : s.paths.get? path = some p) (running : p.handover mover = some handover)
    (listed : handover.acks[index]? = some a) (target : s.paths.get? alt = some q)
    (foundAgain : (s.setPath alt { q with
      pendingAcks := mergeAck q.pendingAcks a }).paths.get? path = some again)
    (attended : q.attended = true)
    (fresh : AckBoard.tieFresh (q.pendingAcks.get? a.ack.streamId) a = true) (kept : s.Kept x) :
    ((s.setPath alt { q with pendingAcks := mergeAck q.pendingAcks a }).setPath path
      (again.setHandover mover ⟨.merge alt, handover.acks.eraseIdx index⟩)).Kept x := by
  have known := sound.paths alt q target
  have inAccepted := (sound.paths path p found).handover running a (List.mem_of_getElem? listed)
  have here := handover_again found running target foundAgain
  have merged := fun held => @Sound.merge_held s sound q.pendingAcks known.pending a inAccepted
    fresh x held
  have inTarget : (s.setPath alt { q with pendingAcks := mergeAck q.pendingAcks a }).Kept x := by
    refine kept.onPath target fun holds => holds_aside holds rfl rfl rfl ?_ ?_
    · exact fun _ held => (merged (.inl held)).imp_left (.pending attended)
    · exact fun held => .inl (.failing held)
  by_cases moved : x = a
  · subst moved
    rcases merged (.inr rfl) with held | superseded
    · refine .inr (.inr ?_)
      by_cases same : alt = path
      · subst same
        obtain rfl := Option.some.inj ((OrdMap.get?_insert_self _ _ _).symm.trans foundAgain)
        refine ⟨alt, _, OrdMap.get?_insert_self _ _ _,
          .pending (attended_setHandover here attended _) ?_⟩
        rw [pendingAcks_setHandover]
        exact held
      · refine ⟨alt, { q with pendingAcks := mergeAck q.pendingAcks x }, ?_,
          .pending attended held⟩
        exact (OrdMap.get?_insert_of_ne _ _ same).trans (OrdMap.get?_insert_self _ _ _)
    · exact .inr (.inl superseded)
  · refine inTarget.onPath foundAgain fun holds => .inl ?_
    rcases holds_setHandover here holds _ with stays | membership
    · exact stays
    · exact holds_moved _ _ ((mem_eraseIdx_or_eq listed membership).resolve_right moved)

/-! ## The path that stays alive -/

def HomeAlive (home : Nat) (s : AckRelay) : Prop :=
  ∃ p, s.paths.get? home = some p ∧ p.alive = true

theorem HomeAlive.setPath {home path : Nat} {s : AckRelay} {p after : RelayPath}
    (homeAlive : s.HomeAlive home) (found : s.paths.get? path = some p)
    (stays : path = home → p.alive = true → after.alive = true) :
    (s.setPath path after).HomeAlive home := by
  obtain ⟨atHome, foundHome, alive⟩ := homeAlive
  by_cases same : home = path
  · subst same
    obtain rfl : p = atHome := Option.some.inj (found.symm.trans foundHome)
    exact ⟨after, OrdMap.get?_insert_self _ _ _, stays rfl alive⟩
  · exact ⟨atHome, (OrdMap.get?_insert_of_ne _ _ same).trans foundHome, alive⟩

theorem alive_setHandover (p : RelayPath) (mover : Mover) (after : Handover) :
    (p.setHandover mover after).alive = p.alive := by
  cases mover with
  | pathFailed => rfl
  | ioTask => rfl

/-- Only `swapDown` takes the life of a path. -/
theorem HomeAlive.step {home : Nat} {s next : AckRelay} (homeAlive : s.HomeAlive home)
    {action : RelayAction} (spared : action ≠ .swapDown home)
    (taken : s.step action = some next) : next.HomeAlive home := by
  have handedOver : ∀ {path : Nat} {p : RelayPath} (mover : Mover) (after : Handover),
      s.paths.get? path = some p → (s.setPath path (p.setHandover mover after)).HomeAlive home :=
    fun {_ p} mover after found =>
      homeAlive.setPath found fun _ alive => (alive_setHandover p mover after).trans alive
  cases took_of_step taken with
  | @addPath path absent =>
      obtain ⟨atHome, foundHome, alive⟩ := homeAlive
      have different : home ≠ path := by
        rintro rfl
        cases absent.symm.trans foundHome
      exact ⟨atHome, (OrdMap.get?_insert_of_ne _ _ different).trans foundHome, alive⟩
  | advance => exact homeAlive
  | @testAlive stream path window sack p a found alive new =>
      exact @HomeAlive.setPath home path _ p _ homeAlive found fun _ => id
  | @insertAck path p a found storing =>
      exact @HomeAlive.setPath home path _ p _ homeAlive found fun _ => id
  | startWriter found => exact homeAlive.setPath found fun _ => id
  | takeAcks found writing running free empty => exact homeAlive.setPath found fun _ => id
  | popFront found idle behind => exact homeAlive.setPath found fun _ => id
  | @sent path p a found inFlight =>
      exact @HomeAlive.setPath home path _ p _ homeAlive found fun _ => id
  | restoreAck found free popped =>
      exact homeAlive.setPath found fun _ alive =>
        (RelayPath.alive_of_popGuard popped).trans alive
  | swapDown found alive =>
      exact homeAlive.setPath found fun same => absurd (congrArg RelayAction.swapDown same) spared
  | takeAllAcks found down free => exact homeAlive.setPath found fun _ => id
  | removePath found phase => exact homeAlive.setPath found fun _ => id
  | takeAgain found phase free => exact homeAlive.setPath found fun _ => id
  | finalTake found failed running free guard => exact homeAlive.setPath found fun _ => id
  | flushFailed found unwritten failed running => exact homeAlive.setPath found fun _ => id
  | picked found running => exact handedOver _ _ found
  | unpicked found running nowhere => exact handedOver _ _ found
  | gotPath found running => exact handedOver _ _ found
  | lostPath found running stage unlisted => exact handedOver _ _ found
  | @mergeAck path alt index mover p q again handover a found running stage listed target free
      foundAgain =>
      have merged := @HomeAlive.setPath home alt s q
        { q with pendingAcks := mergeAck q.pendingAcks a } homeAlive target fun _ => id
      exact merged.setPath foundAgain fun _ alive => (alive_setHandover _ _ _).trans alive

theorem homeAlive_of_reachable {home : Nat} {s : AckRelay}
    (reachable : (machine home).Reachable s) : s.HomeAlive home := by
  refine reachable.invariant (HomeAlive home) ?_ ?_
  · rintro _ rfl
    exact ⟨.new, OrdMap.get?_insert_self _ _ _, rfl⟩
  · intro s action next homeAlive taken
    simp only [machine] at taken
    split at taken
    · cases taken
    · rename_i spared
      exact homeAlive.step spared taken

/-- As long as the path lives, `pick_retry` finds a path for everyone who hands ACKs over. -/
theorem HomeAlive.pick {home path : Nat} {s : AckRelay} (homeAlive : s.HomeAlive home)
    (sound : s.Sound) {p : RelayPath} {mover : Mover} {handover : Handover}
    (found : s.paths.get? path = some p) (running : p.handover mover = some handover) :
    s.mayPick path none = false := by
  obtain ⟨atHome, foundHome, alive⟩ := homeAlive
  have listed := ((sound.paths home atHome foundHome).alive alive).1
  have different : home ≠ path := by
    rintro rfl
    obtain rfl : p = atHome := Option.some.inj (found.symm.trans foundHome)
    have failed := (sound.paths home p found).not_alive_of_handover running
    cases failed.symm.trans alive
  rw [mayPick, List.all_eq_false]
  refine ⟨(home, atHome), OrdMap.get?_eq_some_iff.mp foundHome, ?_⟩
  simp [different, RelayPath.eligible, listed, alive]

/-! ## Whole runs -/

theorem kept_addPath {s : AckRelay} {path : Nat} {a : GenAck} (kept : s.Kept a)
    (absent : s.paths.get? path = none) : (s.setPath path .new).Kept a := by
  rcases kept with inWritten | superseded | ⟨other, p, found, holds⟩
  · exact .inl inWritten
  · exact .inr (.inl superseded)
  · have different : other ≠ path := by
      rintro rfl
      cases absent.symm.trans found
    exact .inr (.inr ⟨other, p, (OrdMap.get?_insert_of_ne _ _ different).trans found, holds⟩)

/-- A step that lands safely loses no ACK. -/
theorem kept_step {home : Nat} {s next : AckRelay} (sound : s.Sound)
    (homeAlive : s.HomeAlive home) (kept : ∀ a ∈ s.accepted, s.Kept a) {action : RelayAction}
    (safe : s.landsSafely action = true) (taken : s.step action = some next) :
    ∀ a ∈ next.accepted, next.Kept a := by
  cases took_of_step taken with
  | addPath absent => exact fun a membership => kept_addPath (kept a membership) absent
  | advance => exact kept
  | testAlive found alive new => exact fun a membership => kept_testAlive (kept a membership) found
  | insertAck found storing => exact kept_insertAck sound kept found storing
  | startWriter found => exact fun a membership => kept_startWriter (kept a membership) found
  | takeAcks found writing running free empty =>
      exact fun a membership => kept_takeAcks (kept a membership) found empty
  | popFront found idle behind =>
      exact fun a membership => kept_popFront (kept a membership) found idle behind
  | sent found inFlight => exact fun a membership => kept_sent (kept a membership) found inFlight
  | restoreAck found free popped =>
      simp only [landsSafely, found, Option.all_some, popped] at safe
      exact fun a membership => kept_restoreAck sound (kept a membership) found popped safe
  | swapDown found alive =>
      exact fun a membership => kept_swapDown sound (kept a membership) found alive
  | takeAllAcks found down free =>
      exact fun a membership => kept_takeAllAcks (kept a membership) found down
  | removePath found phase =>
      exact fun a membership => kept_removePath (kept a membership) found phase
  | takeAgain found phase free =>
      simp only [landsSafely, found, Option.all_some, phase] at safe
      exact fun a membership => kept_takeAgain sound (kept a membership) found phase safe
  | finalTake found failed running free guard =>
      exact fun a membership => kept_finalTake (kept a membership) found running
  | flushFailed found unwritten failed running =>
      simp only [landsSafely, found, Option.all_some] at safe
      exact fun a membership => kept_flushFailed (kept a membership) found running safe
  | picked found running =>
      exact fun a membership => kept_handover (kept a membership) found running fun _ => id
  | unpicked found running nowhere =>
      -- `pick_retry` always finds a path: the one that stays alive.
      exact absurd nowhere (by simp [homeAlive.pick sound found running])
  | gotPath found running =>
      exact fun a membership => kept_handover (kept a membership) found running fun _ => id
  | lostPath found running stage unlisted =>
      -- Only a handover without ACKs may miss its target.
      simp only [landsSafely, found, Option.bind_some, running, Option.all_some, stage,
        unlisted, Bool.or_false, List.isEmpty_iff] at safe
      refine fun a membership => kept_handover (kept a membership) found running ?_
      rw [safe]
      exact fun _ => id
  | mergeAck found running stage listed target free foundAgain =>
      simp only [landsSafely, found, Option.bind_some, running, Option.all_some, stage, listed,
        target, Bool.and_eq_true] at safe
      exact fun x membership => kept_mergeAck sound found running listed target foundAgain
        safe.1 safe.2 (kept x membership)

theorem kept_of_reachable {home : Nat} {s : AckRelay}
    (reachable : (machine home).ReachableWhen (fun s action => s.landsSafely action = true) s) :
    ∀ a ∈ s.accepted, s.Kept a := by
  have known : ∀ s, (machine home).ReachableWhen (fun s action => s.landsSafely action = true) s →
      s.Sound ∧ s.HomeAlive home :=
    fun s reachable =>
      ⟨sound_of_reachable reachable.reachable, homeAlive_of_reachable reachable.reachable⟩
  refine reachable.invariant_of (fun s => ∀ a ∈ s.accepted, s.Kept a) known ?_ ?_
  · rintro _ rfl a impossible
    exact absurd impossible List.not_mem_nil
  · rintro s action next ⟨sound, homeAlive⟩ kept safe taken
    simp only [machine] at taken
    split at taken
    · cases taken
    · exact kept_step sound homeAlive kept safe taken

/-- A path at rest holds ACKs in its register alone, and only while it is alive. -/
theorem pending_of_atRest {p : RelayPath} (atRest : AtRest p) {a : GenAck} (holds : p.Holds a) :
    p.alive = true ∧ p.pendingAcks.get? a.ack.streamId = some a := by
  rcases holds with ⟨attended, held⟩ | held | held | held | ⟨handover, exited, held⟩
  · refine ⟨?_, held⟩
    have idle : p.failing.takes = false := by
      have failing := atRest.failing
      cases phase : p.failing with
      | idle => rfl
      | merging handover => rfl
      | down | taken | removed =>
          rw [phase] at failing
          cases failing
    simp only [RelayPath.attended, idle, Bool.or_false] at attended
    refine atRest.exited.resolve_right fun exited => ?_
    rw [Option.isNone_iff_eq_none.mp attended] at exited
    cases exited
  · cases atRest.inFlight.symm.trans held
  · rw [atRest.rest] at held
    cases held
  · have failing := atRest.failing
    cases phase : p.failing with
    | merging handover =>
        rw [phase] at failing held
        have merged : a ∈ handover.acks := held
        rw [List.isEmpty_iff.mp failing] at merged
        cases merged
    | idle | down =>
        rw [phase] at held
        cases held
    | taken | removed =>
        rw [phase] at failing
        cases failing
  · have moved := atRest.moved
    rw [exited, Option.all_some, List.isEmpty_iff] at moved
    rw [moved] at held
    cases held

/-- While every handover lands safely, no ACK is stranded. -/
theorem noneStranded_of_landsSafely {home : Nat} {s : AckRelay}
    (reachable : (machine home).ReachableWhen (fun s action => s.landsSafely action = true) s) :
    s.NoneStranded := by
  intro quiescent a inAccepted notWritten notSuperseded
  have sound := sound_of_reachable reachable.reachable
  rcases kept_of_reachable reachable a inAccepted with written | superseded |
    ⟨path, p, found, holds⟩
  · exact absurd written notWritten
  · exact absurd superseded notSuperseded
  · obtain ⟨alive, held⟩ := pending_of_atRest
      (quiescent (path, p) (OrdMap.get?_eq_some_iff.mp found))
      holds
    exact ⟨path, p, found, ((sound.paths path p found).alive alive).1, held⟩

/-- Path 1 goes down with an ACK, and has chosen path 2 for it. -/
def failsHolding : List RelayAction :=
  [.addPath 1, .addPath 2, .startWriter 1, .startWriter 2, .advance 7 10,
    .testAlive 7 1 100 [], .insertAck 1, .swapDown 1, .takeAllAcks 1, .removePath 1,
    .takeAgain 1, .pickRetry 1 .pathFailed (some 2), .getPath 1 .pathFailed]

theorem noneStranded_of_landsSafely_merged : ∃ s,
    (machine 3).run (.new 3) (failsHolding ++ [.mergeAck 1 .pathFailed 0, .finalTake 1]) = some s ∧
      s.NoneStranded ∧ s.Quiescent ∧ s.accepted ≠ [] := by
  have replayed : ∃ s,
      (machine 3).run (.new 3) (failsHolding ++ [.mergeAck 1 .pathFailed 0, .finalTake 1]) =
        some s ∧
      (machine 3).runWhen (fun s action => s.landsSafely action = true) (.new 3)
        (failsHolding ++ [.mergeAck 1 .pathFailed 0, .finalTake 1]) = some s ∧
      s.Quiescent ∧ s.accepted ≠ [] := ⟨_, rfl, rfl, by decide, by decide⟩
  obtain ⟨s, replay, safe, quiescent, accepted⟩ := replayed
  have begins : (machine 3).ReachableWhen (fun s action => s.landsSafely action = true)
      (.new 3) := .start rfl
  exact ⟨s, replay, noneStranded_of_landsSafely (begins.runWhen safe), quiescent, accepted⟩

/-- Path 2 fails before the merge, and its IO task exits: the register it is merged into is taken
from by nobody. -/
theorem stranded_on_failed_target : ∃ s, (machine 3).Reachable s ∧ ¬ s.NoneStranded ∧
    (machine 3).run (.new 3) (failsHolding ++ [.swapDown 2, .takeAllAcks 2, .removePath 2,
      .takeAgain 2, .finalTake 2, .mergeAck 1 .pathFailed 0, .finalTake 1]) = some s := by
  have replayed : ∃ s a, (machine 3).run (.new 3) (failsHolding ++ [.swapDown 2, .takeAllAcks 2,
        .removePath 2, .takeAgain 2, .finalTake 2, .mergeAck 1 .pathFailed 0, .finalTake 1]) =
      some s ∧ s.Quiescent ∧ s.accepted = [a] ∧ s.written = [] ∧
      ∀ entry ∈ s.paths.entries,
        ¬ (entry.2.listed = true ∧ entry.2.pendingAcks.get? a.ack.streamId = some a) :=
    ⟨_, _, rfl, by decide, rfl, rfl, by decide⟩
  obtain ⟨s, a, replay, quiescent, accepted, written, nowhere⟩ := replayed
  have begins : (machine 3).Reachable (.new 3) := .start rfl
  refine ⟨s, begins.run replay, ?_, replay⟩
  intro noneStranded
  obtain ⟨path, p, found, listed, held⟩ := noneStranded quiescent a (by simp [accepted])
    (by simp [written]) (by simp [Superseded, accepted])
  exact nowhere (path, p) (OrdMap.get?_eq_some_iff.mp found) ⟨listed, held⟩

end AckRelay

end NyaLink
