import NyaLink.Library.Notify
import NyaLink.Session.PathWriter

/-!
# The wait for room on a bulk queue

A bulk stream's send that finds the queue of its path full waits in `wait_bulk_send` on the path's
notifier: each bulk frame the writer takes off wakes one such wait, once its gauge is lowered.  A
wait that was woken tests the gauge and tries its path again; one whose other branches win drops
its future and begins again.  The writer and the senders are those of the path; whether the writer
has lowered the bulk gauge and is about to notify is kept beside them.  A writer that ends destroys
its queue and notifies nobody: what waits then has only the timer.
-/

namespace NyaLink

/-- Where a call of `wait_bulk_send` is. -/
inductive QueueWaitPhase where
  | top
  | asleep
  /-- The notifier was first; about to test the gauge. -/
  | awake
  /-- In `send_on_path`. -/
  | offering
  | returned
  deriving DecidableEq

structure QueueWait where
  io : PathIo
  notifier : Notifier Nat
  waits : List QueueWaitPhase
  /-- The writer is in `note_dequeue`, between the gauge and `notify_one`. -/
  owes : Bool

inductive QueueWaitAction where
  | io (action : WriterAction)
  /-- A send is refused, and waits. -/
  | block (call : Nat)
  | notifyOne
  | await (wait : Nat)
  | resume (wait : Nat)
  /-- The timer, or the stream's own notifier, is first. -/
  | cancel (wait : Nat)
  | testGauge (wait : Nat) (frame : Wire.Frame)
  | sent (wait : Nat)
  | unsent (wait : Nat)
  | leave (wait : Nat)
  deriving DecidableEq

def EnqueuePhase.notedBulk : EnqueuePhase → Bool
  | .noted false _ => true
  | _ => false

def EnqueuePhase.refusedBulk : EnqueuePhase → Bool
  | .refused false => true
  | _ => false

namespace PathIo

/-- The writer is about to lower the bulk gauge. -/
def lowersBulk (s : PathIo) (action : WriterAction) : Bool :=
  match action, s.writer with
  | .noteDequeue, .received false _ => true
  | _, _ => false

/-- The call finds its queue full, or its receiver gone. -/
def blocks (cfg : SessionConfig) (s : PathIo) (call : Nat) : Bool :=
  match s.senders[call]? with
  | some (.noted urgent _) => !s.accepts cfg urgent
  | _ => false

def onBulk (s : PathIo) (call : Nat) : Bool :=
  match s.senders[call]? with
  | some (.noted false _) => true
  | _ => false

/-- Calls on the bulk queue that are about to try it. -/
def notedCalls (s : PathIo) : Nat := s.senders.countP EnqueuePhase.notedBulk

/-- Calls on the bulk queue that were refused and have not lowered the gauge yet. -/
def refusedCalls (s : PathIo) : Nat := s.senders.countP EnqueuePhase.refusedBulk

/-- The writer has a bulk frame that the gauge still counts. -/
def received (s : PathIo) : Nat :=
  match s.writer with
  | .received false _ => 1
  | _ => 0

/-- Bulk frames that will be taken off and notified of, or will be refused by a full queue. -/
def pendingBulk (s : PathIo) : Nat :=
  (s.lane false).queue.length + s.notedCalls + s.received

end PathIo

namespace QueueWait

variable (cfg : SessionConfig)

def goTo (s : QueueWait) (wait : Nat) (phase : QueueWaitPhase) : QueueWait :=
  { s with waits := s.waits.set wait phase }

/-- One step of a wait, from the phase it is in. -/
def advance (s : QueueWait) (wait : Nat) : QueueWaitPhase → QueueWaitAction → Option QueueWait
  | .top, .await _ =>
      if s.notifier.permit then
        some { s.goTo wait .awake with notifier := { s.notifier with permit := false } }
      else some { s.goTo wait .asleep with notifier := s.notifier.wait wait }
  | .top, .leave _ => some (s.goTo wait .returned)
  | .asleep, .resume _ =>
      if s.notifier.isWoken wait then
        some { s.goTo wait .awake with notifier := s.notifier.resume wait }
      else none
  | .asleep, .cancel _ => some { s.goTo wait .top with notifier := s.notifier.drop wait }
  | .awake, .testGauge _ frame =>
      if cfg.chan ≤ (s.io.lane false).queued then some (s.goTo wait .top)
      else if s.io.alive then
        (s.io.step cfg (.offer frame)).map fun io => { s.goTo wait .offering with io := io }
      else some (s.goTo wait .top)
  | .offering, .sent _ => some (s.goTo wait .returned)
  | .offering, .unsent _ => some (s.goTo wait .top)
  | _, _ => none

end QueueWait

def QueueWaitAction.wait : QueueWaitAction → Nat
  | .await wait | .resume wait | .cancel wait | .testGauge wait _ | .sent wait | .unsent wait
  | .leave wait => wait
  | _ => 0

namespace QueueWait

variable (cfg : SessionConfig)

def step (s : QueueWait) : QueueWaitAction → Option QueueWait
  | .io action =>
      -- The writer goes on once it has notified.
      if s.owes && action = .begin_ then none
      else
        (s.io.step cfg action).map fun io =>
          { s with io := io, owes := s.owes || s.io.lowersBulk action }
  | .block call =>
      if s.io.blocks cfg call then
        (s.io.step cfg (.trySend call)).map fun io =>
          { s with io := io, waits := s.waits ++ [.top] }
      else none
  | .notifyOne =>
      if s.owes then some { s with owes := false, notifier := s.notifier.notifyOne } else none
  | action => (s.waits[action.wait]?).bind fun phase => s.advance cfg action.wait phase action

def Initial (s : QueueWait) : Prop :=
  PathIo.Initial s.io ∧ s.notifier = .new ∧ s.waits = [] ∧ s.owes = false

def machine : Machine QueueWait QueueWaitAction := ⟨Initial, step cfg⟩

end QueueWait

/-! ## What is pending on the bulk queue -/

namespace PathIo

variable {cfg : SessionConfig} {s t : PathIo}

theorem countP_bulk (senders : List EnqueuePhase) :
    (senders.countP fun sender => sender.urgent == false) =
      senders.countP EnqueuePhase.notedBulk + senders.countP EnqueuePhase.refusedBulk := by
  induction senders with
  | nil => rfl
  | cons head rest inductionHypothesis =>
      simp only [List.countP_cons, inductionHypothesis]
      rcases head with ⟨urgent, frame⟩ | urgent <;> cases urgent <;>
        simp [EnqueuePhase.urgent, EnqueuePhase.notedBulk, EnqueuePhase.refusedBulk] <;> omega

theorem queued_eq (reachable : (machine cfg).Reachable s) (running : s.writer ≠ .closed) :
    (s.lane false).queued = s.pendingBulk + s.refusedCalls := by
  have gauge := (served_of_reachable reachable false).gauge
  have intact := (ending_of_reachable reachable).running running false
  have notParking := (proven_of_reachable reachable).notParking
  have ahead : s.writer.ahead false = s.received := by
    unfold received
    cases writer : s.writer with
    | received urgent frame => cases urgent <;> rfl
    | parking frame => exact absurd writer (notParking.1 frame)
    | unparking => exact absurd writer notParking.2
    | _ => rfl
  rw [gauge, countP_bulk, ahead, intact]
  unfold pendingBulk notedCalls refusedCalls
  simp only [List.length_nil]
  omega

theorem pending_same (queue : (t.lane false).queue = (s.lane false).queue)
    (senders : t.senders = s.senders) (received : s.received ≤ t.received) :
    s.pendingBulk ≤ t.pendingBulk := by
  unfold pendingBulk notedCalls
  rw [queue, senders]
  omega

theorem full_of_refused {urgent : Bool} (running : s.writer ≠ .closed)
    (refused : s.accepts cfg urgent = false) : cfg.chan ≤ (s.lane urgent).queue.length := by
  simpa [accepts, running] using refused

theorem pending_pushed {call : Nat} {urgent congested : Bool} {frame : Wire.Frame}
    (found : s.senders[call]? = some (.noted urgent frame)) :
    s.pendingBulk ≤ pendingBulk { s.setLane urgent (·.push frame) with
      senders := s.senders.eraseIdx call
      congested := congested } := by
  have erased := countP_eraseIdx EnqueuePhase.notedBulk found
  cases urgent with
  | true =>
      simp only [EnqueuePhase.notedBulk, Bool.false_eq_true, if_false, Nat.add_zero] at erased
      show _ ≤ (s.lane false).queue.length +
        (s.senders.eraseIdx call).countP EnqueuePhase.notedBulk + s.received
      rw [erased]
      exact le_rfl
  | false =>
      simp only [EnqueuePhase.notedBulk, if_true] at erased
      show (s.lane false).queue.length + s.notedCalls + s.received ≤
        ((s.lane false).queue ++ [frame]).length +
          (s.senders.eraseIdx call).countP EnqueuePhase.notedBulk + s.received
      rw [notedCalls, ← erased, List.length_append, List.length_singleton]
      omega

theorem pending_refused (positive : 0 < cfg.chan) (running : s.writer ≠ .closed) {call : Nat}
    {urgent : Bool} {frame : Wire.Frame}
    (found : s.senders[call]? = some (.noted urgent frame))
    (refused : s.accepts cfg urgent = false)
    (set : t = { s with senders := s.senders.set call (.refused urgent) }) :
    s.pendingBulk ≤ t.pendingBulk ∨ 0 < t.pendingBulk := by
  subst set
  have full := full_of_refused running refused
  have moved := Machine.countP_set_of_some EnqueuePhase.notedBulk (.refused urgent) found
  cases urgent with
  | true =>
      simp only [EnqueuePhase.notedBulk, Bool.false_eq_true, if_false, Nat.add_zero] at moved
      refine .inl ?_
      show _ ≤ (s.lane false).queue.length +
        (s.senders.set call (.refused true)).countP EnqueuePhase.notedBulk + s.received
      rw [moved]
      exact le_rfl
  | false =>
      refine .inr ?_
      show 0 < (s.lane false).queue.length + _ + _
      omega

theorem pending_undone {call : Nat} {urgent congested : Bool}
    (found : s.senders[call]? = some (.refused urgent)) :
    s.pendingBulk ≤ pendingBulk { s.setLane urgent Lane.lower with
      senders := s.senders.eraseIdx call
      congested := congested } := by
  have erased := countP_eraseIdx EnqueuePhase.notedBulk found
  simp only [EnqueuePhase.notedBulk, Bool.false_eq_true, if_false, Nat.add_zero] at erased
  have queue : ((s.setLane urgent Lane.lower).lane false).queue = (s.lane false).queue := by
    apply queue_setLane
    intro l
    rfl
  show _ ≤ ((s.setLane urgent Lane.lower).lane false).queue.length +
    (s.senders.eraseIdx call).countP EnqueuePhase.notedBulk + s.received
  rw [queue, erased]
  exact le_rfl

/-- While the writer holds no bulk frame it has just received, any step of its own that leaves the
bulk queue alone keeps what is pending. -/
theorem pending_writer (queue : (t.lane false).queue = (s.lane false).queue)
    (senders : t.senders = s.senders) (none : s.received = 0) :
    s.pendingBulk ≤ t.pendingBulk :=
  pending_same queue senders (none ▸ Nat.zero_le _)

theorem Turn.received {phase : WriterPhase} (turn : s.Turn phase) : s.received = 0 := by
  cases turn with
  | own holds | polls holds | repolls holds | begins holds | stalls holds | flushes holds
  | empties holds => simp [PathIo.received, holds]
  | closes loops => rcases loops with holds | holds <;> simp [PathIo.received, holds]

theorem Done.received {source : Option Bool} {frame : Wire.Frame} {fate : Fate}
    {phase : WriterPhase} (done : s.Done source frame fate phase) : s.received = 0 := by
  cases done with
  | sent holds | cut holds | flushed holds | givesUp holds | drops holds =>
      simp [PathIo.received, holds]

theorem pending_receives {action : WriterAction} {urgent : Bool}
    {phase : Wire.Frame → WriterPhase} {frame : Wire.Frame} {rest : List Wire.Frame}
    (receives : s.Receives action urgent phase)
    (waiting : (s.lane urgent).queue = frame :: rest) :
    s.pendingBulk ≤ pendingBulk { s.setLane urgent fun l => { l with queue := rest } with
      writer := phase frame } := by
  cases receives with
  | urgent holds | flush holds => exact pending_writer rfl rfl (by simp [received, holds])
  | bulk polled known =>
      have none : s.received = 0 := by simp [received, polled]
      show (s.lane false).queue.length + s.notedCalls + s.received ≤
        rest.length + s.notedCalls + 1
      rw [none, waiting, List.length_cons]
      omega

/-- Until the writer ends, a frame that the gauge still counts is let go of where the gauge is
lowered, and only there. -/
theorem pending_step (positive : 0 < cfg.chan) {action : WriterAction}
    (taken : s.step cfg action = some t) (running : t.writer ≠ .closed) :
    s.pendingBulk ≤ t.pendingBulk + (s.lowersBulk action).toNat ∨ 0 < t.pendingBulk := by
  have least : ∀ {u : PathIo}, s.pendingBulk ≤ u.pendingBulk →
      s.pendingBulk ≤ u.pendingBulk + (s.lowersBulk action).toNat ∨ 0 < u.pendingBulk :=
    fun kept => .inl (kept.trans (Nat.le_add_right _ _))
  have before := running_of_step taken running
  cases took_of_step taken with
  | offer frame =>
      refine least ?_
      show (s.lane false).queue.length + s.notedCalls + s.received ≤
        ((s.setLane (s.choosesUrgent cfg frame) Lane.raise).lane false).queue.length +
          (s.senders ++ [_]).countP EnqueuePhase.notedBulk + s.received
      have queue : ((s.setLane (s.choosesUrgent cfg frame) Lane.raise).lane false).queue =
          (s.lane false).queue := by
        apply queue_setLane
        intro l
        rfl
      rw [queue, List.countP_append, notedCalls]
      omega
  | pushed found room congested => exact least (pending_pushed found)
  | refused found full =>
      exact (pending_refused positive before found full rfl).imp_left
        fun kept => kept.trans (Nat.le_add_right _ _)
  | undone found congested => exact least (pending_undone found)
  | flags alive closing stays apart => exact least le_rfl
  | turns turn writeStalled => exact least (pending_writer rfl rfl turn.received)
  | receives receives waiting => exact least (pending_receives receives waiting)
  | @lowers _ urgent _ lowers =>
      cases lowers with
      | notes holds =>
          cases urgent with
          | true => exact least (pending_writer rfl rfl (by simp [received, holds]))
          | false =>
              refine .inl ?_
              simp [pendingBulk, notedCalls, received, holds, lowersBulk, Lane.lower]
      | unparks holds | flushNotes holds =>
          exact least (pending_writer rfl rfl (by simp [received, holds]))
  | holds inHand held => exact least (pending_writer rfl rfl (by simp [received, inHand]))
  | @parks _ frame parking =>
      have none : s.received = 0 := by simp [received, parking]
      refine least ?_
      show (s.lane false).queue.length + s.notedCalls + s.received ≤
        ((s.lane false).queue ++ [frame]).length + s.notedCalls + 0
      rw [none, List.length_append]
      omega
  | ends done writeStalled => exact least (pending_writer rfl rfl done.received)
  | fails | quits => exact absurd rfl running

end PathIo

/-! ## No wait sleeps on an idle queue -/

def QueueWaitPhase.attends : QueueWaitPhase → Bool
  | .top | .offering => true
  | _ => false

namespace QueueWait

variable {cfg : SessionConfig} {s t : QueueWait}

/-- The steps of the path's senders and its writer, and nothing else, move the path. -/
theorem io_of_step {action : QueueWaitAction} (taken : s.step cfg action = some t) :
    t.io = s.io ∨ ∃ action, s.io.step cfg action = some t.io := by
  have advanced : ∀ {wait : Nat} {phase : QueueWaitPhase},
      s.advance cfg wait phase action = some t →
        t.io = s.io ∨ ∃ action, s.io.step cfg action = some t.io := by
    intro wait phase taken
    unfold advance at taken
    split at taken
    · split at taken <;> cases taken <;> exact .inl rfl
    · cases taken
      exact .inl rfl
    · split at taken
      · cases taken
        exact .inl rfl
      · cases taken
    · cases taken
      exact .inl rfl
    · split at taken
      · cases taken
        exact .inl rfl
      · split at taken
        · obtain ⟨io, offered, rfl⟩ := Option.map_eq_some_iff.mp taken
          exact .inr ⟨_, offered⟩
        · cases taken
          exact .inl rfl
    · cases taken
      exact .inl rfl
    · cases taken
      exact .inl rfl
    · cases taken
  unfold step at taken
  split at taken
  · split at taken
    · cases taken
    · obtain ⟨io, moved, rfl⟩ := Option.map_eq_some_iff.mp taken
      exact .inr ⟨_, moved⟩
  · split at taken
    · obtain ⟨io, moved, rfl⟩ := Option.map_eq_some_iff.mp taken
      exact .inr ⟨_, moved⟩
    · cases taken
  · split at taken
    · cases taken
      exact .inl rfl
    · cases taken
  · obtain ⟨phase, -, moved⟩ := Option.bind_eq_some_iff.mp taken
    exact advanced moved

theorem running_of_step {action : QueueWaitAction} (taken : s.step cfg action = some t)
    (running : t.io.writer ≠ .closed) : s.io.writer ≠ .closed := by
  rcases io_of_step taken with same | ⟨action, moved⟩
  · exact same ▸ running
  · exact PathIo.running_of_step moved running

theorem io_reachable {good : QueueWait → QueueWaitAction → Prop}
    (reachable : (machine cfg).ReachableWhen good s) : (PathIo.machine cfg).Reachable s.io := by
  induction reachable with
  | start begins => exact .start begins.1
  | step _ _ taken inductionHypothesis =>
      rcases io_of_step taken with same | ⟨action, moved⟩
      · rw [same]
        exact inductionHypothesis
      · exact .step inductionHypothesis trivial moved

def awakeCount (s : QueueWait) : Nat := s.waits.countP fun phase => phase = .awake

/-- What is about to take room on the queue or to notify of it: bulk frames on their way through
the queue, the writer before its notification, wakes under way, and waits about to try. -/
def stirring (s : QueueWait) : Nat :=
  s.io.pendingBulk + s.owes.toNat + s.notifier.woken.length + s.awakeCount

/-- A wait begins at the bulk queue.  When it is woken the path is alive, its frame goes to the bulk
queue again, and the gauge it tests is not made up of calls that were refused. -/
def triesBulk (cfg : SessionConfig) (s : QueueWait) : QueueWaitAction → Prop
  | .block call => s.io.onBulk call = true
  | .testGauge _ frame => s.io.refusedCalls < cfg.chan ∧
      ((s.io.lane false).queued < cfg.chan →
        s.io.alive = true ∧ s.io.choosesUrgent cfg frame = false)
  | _ => True

instance (cfg : SessionConfig) (s : QueueWait) (action : QueueWaitAction) :
    Decidable (s.triesBulk cfg action) :=
  match action with
  | .block call => inferInstanceAs (Decidable (s.io.onBulk call = true))
  | .testGauge _ frame => inferInstanceAs (Decidable (s.io.refusedCalls < cfg.chan ∧
      ((s.io.lane false).queued < cfg.chan →
        s.io.alive = true ∧ s.io.choosesUrgent cfg frame = false)))
  | .io _ | .notifyOne | .await _ | .resume _ | .cancel _ | .sent _ | .unsent _ | .leave _ =>
      isTrue trivial

/-- Whoever waits, or is about to, has a permit or something stirring. -/
structure Stirs (s : QueueWait) : Prop where
  permit : s.notifier.PermitKept
  ones : s.notifier.OnesOnly
  registered : ∀ wait : Nat, s.waits[wait]? = some .asleep → s.notifier.Registered wait
  stirs : (s.notifier.waiting ≠ [] ∨ ∃ phase ∈ s.waits, phase.attends = true) →
    s.notifier.permit = true ∨ 0 < s.stirring

theorem Stirs.registered_set (stirs : s.Stirs) {wait : Nat} {phase : QueueWaitPhase}
    (notAsleep : phase ≠ .asleep) {other : Nat}
    (asleep : (s.waits.set wait phase)[other]? = some .asleep) :
    other ≠ wait ∧ s.notifier.Registered other := by
  rw [List.getElem?_set] at asleep
  split at asleep
  · split at asleep
    · exact absurd (Option.some.inj asleep) notAsleep
    · cases asleep
  · rename_i different
    exact ⟨fun same => different same.symm, stirs.registered other asleep⟩

theorem awakeCount_goTo {wait : Nat} {phase : QueueWaitPhase} (after : QueueWaitPhase)
    (found : s.waits[wait]? = some phase) :
    (s.goTo wait after).awakeCount + (if phase = .awake then 1 else 0) =
      s.awakeCount + if after = .awake then 1 else 0 := by
  have moved := Machine.countP_set_of_some (fun phase : QueueWaitPhase => decide (phase = .awake))
    after found
  simp only [decide_eq_true_eq] at moved
  exact moved

theorem Stirs.quiet (stirs : s.Stirs) (notifier : t.notifier = s.notifier)
    (waits : ∀ wait : Nat, t.waits[wait]? = some .asleep → s.waits[wait]? = some .asleep)
    (attends : ∀ phase ∈ t.waits, phase.attends = true →
      ∃ phase ∈ s.waits, phase.attends = true)
    (stirring : s.stirring ≤ t.stirring ∨ 0 < t.stirring) : t.Stirs := by
  refine ⟨?_, ?_, fun wait asleep => ?_, fun someone => ?_⟩
  · rw [notifier]
    exact stirs.permit
  · rw [notifier]
    exact stirs.ones
  · rw [notifier]
    exact stirs.registered wait (waits wait asleep)
  · rw [notifier]
    have before := stirs.stirs (someone.imp (fun waiting => by rwa [notifier] at waiting)
      fun ⟨phase, present, attending⟩ => attends phase present attending)
    rcases stirring with kept | positive
    · exact before.imp_right fun positive => positive.trans_le kept
    · exact .inr positive

theorem Stirs.io (stirs : s.Stirs) (positive : 0 < cfg.chan) {action : WriterAction}
    {io : PathIo} (moved : s.io.step cfg action = some io) (running : io.writer ≠ .closed) :
    Stirs { s with io := io, owes := s.owes || s.io.lowersBulk action } := by
  refine stirs.quiet rfl (fun _ asleep => asleep) (fun phase present attending =>
    ⟨phase, present, attending⟩) ?_
  unfold stirring awakeCount
  dsimp only
  rcases PathIo.pending_step positive moved running with kept | pending
  · have owed : (s.io.lowersBulk action).toNat ≤ (s.owes || s.io.lowersBulk action).toNat := by
      cases s.owes <;> cases s.io.lowersBulk action <;> decide
    have still : s.owes.toNat ≤ (s.owes || s.io.lowersBulk action).toNat := by
      cases s.owes <;> cases s.io.lowersBulk action <;> decide
    cases lowers : s.io.lowersBulk action with
    | false =>
        rw [lowers, Bool.toNat_false] at kept
        simp only [Bool.or_false]
        omega
    | true =>
        refine .inr ?_
        simp only [Bool.or_true, Bool.toNat_true]
        omega
  · exact .inr (by omega)

theorem Stirs.block (stirs : s.Stirs) (positive : 0 < cfg.chan)
    (running : s.io.writer ≠ .closed) {call : Nat} {io : PathIo}
    (blocks : s.io.blocks cfg call = true) (onBulk : s.io.onBulk call = true)
    (moved : s.io.trySend cfg call = some io) :
    Stirs { s with io := io, waits := s.waits ++ [.top] } := by
  have full : 0 < io.pendingBulk := by
    unfold PathIo.onBulk at onBulk
    split at onBulk
    · rename_i frame found
      have refused : s.io.accepts cfg false = false := by
        simpa [PathIo.blocks, found] using blocks
      have full := PathIo.full_of_refused running refused
      unfold PathIo.trySend at moved
      rw [found] at moved
      simp only [refused, Bool.false_eq_true, if_false] at moved
      cases moved
      show 0 < (s.io.lane false).queue.length + _ + _
      omega
    · cases onBulk
  refine ⟨stirs.permit, stirs.ones, fun wait asleep => stirs.registered wait ?_, fun _ => .inr ?_⟩
  · rcases Nat.lt_or_ge wait s.waits.length with within | beyond
    · rwa [List.getElem?_append_left within] at asleep
    · rw [List.getElem?_append_right beyond] at asleep
      cases place : wait - s.waits.length with
      | zero =>
          rw [place] at asleep
          cases asleep
      | succ more =>
          rw [place] at asleep
          cases asleep
  · unfold stirring
    dsimp only
    omega

theorem Stirs.notifyOne (stirs : s.Stirs) :
    Stirs { s with owes := false, notifier := s.notifier.notifyOne } := by
  refine ⟨stirs.permit.notifyOne, stirs.ones.notifyOne,
    fun wait asleep => (stirs.registered wait asleep).notifyOne, fun _ => ?_⟩
  rcases s.notifier.notifyOne_wakes with permit | woke
  · exact .inl permit
  · refine .inr ?_
    unfold stirring
    dsimp only
    omega

theorem Stirs.await (cfg : SessionConfig) (stirs : s.Stirs) {wait : Nat}
    (found : s.waits[wait]? = some .top)
    (taken : s.advance cfg wait .top (.await wait) = some t) : t.Stirs := by
  simp only [advance] at taken
  have present := List.mem_of_getElem? found
  split at taken
  · rename_i permit
    cases taken
    have awake := awakeCount_goTo .awake found
    have nobody := stirs.permit permit
    refine ⟨fun left => (by cases left), stirs.ones, fun other asleep => ?_, fun _ => .inr ?_⟩
    · exact (stirs.registered_set (by decide) asleep).2
    · show 0 < s.io.pendingBulk + s.owes.toNat + s.notifier.woken.length +
        (s.goTo wait .awake).awakeCount
      simp only [reduceCtorEq, if_false, if_true] at awake
      omega
  · rename_i noPermit
    cases taken
    have before := (stirs.stirs (.inr ⟨_, present, rfl⟩)).resolve_left noPermit
    have awake := awakeCount_goTo .asleep found
    refine ⟨fun permit => absurd permit noPermit, stirs.ones, fun other asleep => ?_,
      fun _ => .inr ?_⟩
    · by_cases same : other = wait
      · subst same
        exact .inl (List.mem_append_right _ List.mem_cons_self)
      · have earlier : s.waits[other]? = some .asleep := by
          rwa [show (s.goTo wait .asleep).waits = s.waits.set wait .asleep from rfl,
            List.getElem?_set_ne (Ne.symm same)] at asleep
        exact (stirs.registered other earlier).imp (List.mem_append_left _) id
    · show 0 < s.io.pendingBulk + s.owes.toNat + s.notifier.woken.length +
        (s.goTo wait .asleep).awakeCount
      simp only [reduceCtorEq, if_false, Nat.add_zero] at awake
      unfold stirring at before
      omega

theorem Stirs.resume (cfg : SessionConfig) (stirs : s.Stirs) {wait : Nat}
    (found : s.waits[wait]? = some .asleep)
    (taken : s.advance cfg wait .asleep (.resume wait) = some t) : t.Stirs := by
  simp only [advance] at taken
  split at taken
  · rename_i woken
    cases taken
    have awake := awakeCount_goTo .awake found
    simp only [reduceCtorEq, if_false, if_true] at awake
    refine ⟨stirs.permit, stirs.ones.resume wait, fun other asleep => ?_, fun _ => .inr ?_⟩
    · obtain ⟨different, registered⟩ := stirs.registered_set (by decide) asleep
      exact registered.resume different
    · show 0 < s.io.pendingBulk + s.owes.toNat + (s.notifier.resume wait).woken.length +
        (s.goTo wait .awake).awakeCount
      omega
  · cases taken

theorem Stirs.cancel (stirs : s.Stirs) {wait : Nat} (found : s.waits[wait]? = some .asleep) :
    Stirs { s.goTo wait .top with notifier := s.notifier.drop wait } := by
  have awake := awakeCount_goTo .top found
  simp only [reduceCtorEq, if_false, Nat.add_zero] at awake
  have others : ∀ other : Nat, (s.goTo wait .top).waits[other]? = some .asleep →
      (s.notifier.drop wait).Registered other := by
    intro other asleep
    obtain ⟨different, registered⟩ := stirs.registered_set (by decide) asleep
    exact registered.drop different
  by_cases woken : s.notifier.isWoken wait = true
  · have passed := Notifier.drop_woken stirs.ones woken
    refine ⟨stirs.permit.drop wait, ?_, others, fun _ => ?_⟩
    · show (s.notifier.drop wait).OnesOnly
      rw [passed]
      exact (stirs.ones.resume wait).notifyOne
    · show (s.notifier.drop wait).permit = true ∨ 0 < s.io.pendingBulk + s.owes.toNat +
        (s.notifier.drop wait).woken.length + (s.goTo wait .top).awakeCount
      rw [passed]
      exact (s.notifier.resume wait).notifyOne_wakes.imp_right fun woke => by omega
  · rw [Bool.not_eq_true] at woken
    have waiting := (stirs.registered wait found).resolve_right (by rw [woken]; decide)
    have some_ : s.notifier.waiting ≠ [] := List.ne_nil_of_mem waiting
    have before := (stirs.stirs (.inl some_)).resolve_left fun permit =>
      some_ (stirs.permit permit)
    have left := Notifier.drop_waiting woken
    refine ⟨stirs.permit.drop wait, ?_, others, fun _ => .inr ?_⟩
    · show (s.notifier.drop wait).OnesOnly
      rw [left]
      exact stirs.ones
    · show 0 < s.io.pendingBulk + s.owes.toNat + (s.notifier.drop wait).woken.length +
        (s.goTo wait .top).awakeCount
      rw [left, awake]
      exact before

theorem Stirs.testGauge (stirs : s.Stirs) (reachable : (PathIo.machine cfg).Reachable s.io)
    (running : s.io.writer ≠ .closed) {wait : Nat} {frame : Wire.Frame}
    (tries : s.triesBulk cfg (.testGauge wait frame))
    (taken : s.advance cfg wait .awake (.testGauge wait frame) = some t) : t.Stirs := by
  have gauge := PathIo.queued_eq reachable running
  simp only [advance] at taken
  split at taken
  · rename_i full
    cases taken
    refine ⟨stirs.permit, stirs.ones,
      fun other asleep => (stirs.registered_set (by decide) asleep).2, fun _ => .inr ?_⟩
    have fewer := tries.1
    show 0 < s.io.pendingBulk + _ + _ + _
    omega
  · rename_i room
    obtain ⟨alive, bulk⟩ := tries.2 (Nat.lt_of_not_le room)
    rw [if_pos alive] at taken
    obtain ⟨io, offered, rfl⟩ := Option.map_eq_some_iff.mp taken
    refine ⟨stirs.permit, stirs.ones,
      fun other asleep => (stirs.registered_set (by decide) asleep).2, fun _ => .inr ?_⟩
    simp only [PathIo.step, alive, if_true, bulk] at offered
    cases offered
    show 0 < (_ + (s.io.senders ++ [_]).countP EnqueuePhase.notedBulk + _) + _ + _ + _
    simp only [List.countP_append, List.countP_singleton, EnqueuePhase.notedBulk, if_true]
    omega

theorem Stirs.goTo (stirs : s.Stirs) {wait : Nat} {phase after : QueueWaitPhase}
    (found : s.waits[wait]? = some phase) (attends : phase.attends = true)
    (notAsleep : after ≠ .asleep) (notAwake : after ≠ .awake) : (s.goTo wait after).Stirs := by
  have present := List.mem_of_getElem? found
  have awake := awakeCount_goTo after found
  have notWoken : phase ≠ .awake := by
    rintro rfl
    cases attends
  rw [if_neg notWoken, if_neg notAwake] at awake
  refine stirs.quiet rfl (fun other asleep => ?_) (fun _ _ _ => ⟨phase, present, attends⟩) (.inl ?_)
  · rwa [show (s.goTo wait after).waits = s.waits.set wait after from rfl,
      List.getElem?_set_ne (stirs.registered_set notAsleep asleep).1.symm] at asleep
  · unfold stirring
    have same : s.awakeCount = (s.goTo wait after).awakeCount := by omega
    rw [same]
    exact le_rfl

theorem Stirs.advance (stirs : s.Stirs) (reachable : (PathIo.machine cfg).Reachable s.io)
    (running : s.io.writer ≠ .closed) {action : QueueWaitAction} {phase : QueueWaitPhase}
    (found : s.waits[action.wait]? = some phase)
    (tries : s.triesBulk cfg action) (taken : s.advance cfg action.wait phase action = some t) :
    t.Stirs := by
  unfold QueueWait.advance at taken
  split at taken
  · rename_i wait
    exact stirs.await cfg found taken
  · cases taken
    exact stirs.goTo found rfl (by decide) (by decide)
  · exact stirs.resume cfg found taken
  · cases taken
    exact stirs.cancel found
  · exact stirs.testGauge reachable running tries taken
  · cases taken
    exact stirs.goTo found rfl (by decide) (by decide)
  · cases taken
    exact stirs.goTo found rfl (by decide) (by decide)
  · cases taken

theorem Stirs.step (stirs : s.Stirs) (positive : 0 < cfg.chan)
    (reachable : (PathIo.machine cfg).Reachable s.io) {action : QueueWaitAction}
    (tries : s.triesBulk cfg action) (taken : s.step cfg action = some t)
    (running : t.io.writer ≠ .closed) : t.Stirs := by
  have before := running_of_step taken running
  unfold QueueWait.step at taken
  split at taken
  · split at taken
    · cases taken
    · obtain ⟨io, moved, rfl⟩ := Option.map_eq_some_iff.mp taken
      exact stirs.io positive moved running
  · split at taken
    · rename_i blocks
      obtain ⟨io, moved, rfl⟩ := Option.map_eq_some_iff.mp taken
      exact stirs.block positive before blocks tries moved
    · cases taken
  · split at taken
    · cases taken
      exact stirs.notifyOne
    · cases taken
  · obtain ⟨phase, found, moved⟩ := Option.bind_eq_some_iff.mp taken
    exact stirs.advance reachable before found tries moved

theorem stirs_of_reachable (positive : 0 < cfg.chan)
    (reachable : (machine cfg).ReachableWhen (triesBulk cfg) s) (running : s.io.writer ≠ .closed) :
    s.Stirs := by
  revert running
  refine reachable.invariant_of (fun s => s.io.writer ≠ .closed → s.Stirs)
    (fun _ => io_reachable) ?_ fun s action next known stirs tries taken running =>
      (stirs (running_of_step taken running)).step positive known tries taken running
  rintro s ⟨-, notifier, waits, -⟩ -
  refine ⟨?_, ?_, ?_, ?_⟩
  · rw [notifier]
    intro permit
    cases permit
  · rw [notifier]
    intro wake present
    cases present
  · rw [waits]
    intro wait asleep
    cases asleep
  · rw [notifier, waits]
    rintro (waiting | ⟨phase, present, -⟩)
    · exact absurd rfl waiting
    · cases present

/-- In every run in which waits begin at the bulk queue and, once woken, offer their frames to the
bulk queue of a live path, and in which the gauge they test is not made up of refused calls: while
the writer is in its loop, whoever sleeps in `wait_bulk_send` without having been woken has a bulk
frame ahead that is yet to be notified of, a wake under way or another wait about to try. -/
theorem never_stranded (positive : 0 < cfg.chan)
    (reachable : (machine cfg).ReachableWhen (triesBulk cfg) s)
    (inLoop : s.io.writer.leaving = false) {wait : Nat}
    (asleep : s.waits[wait]? = some .asleep) (unwoken : s.notifier.isWoken wait = false) :
    0 < s.stirring := by
  have running : s.io.writer ≠ .closed := by
    intro closed
    rw [closed] at inLoop
    cases inLoop
  have stirs := stirs_of_reachable positive reachable running
  have waiting := (stirs.registered wait asleep).resolve_right (by rw [unwoken]; decide)
  have someone : s.notifier.waiting ≠ [] := List.ne_nil_of_mem waiting
  exact (stirs.stirs (.inl someone)).resolve_left fun permit => someone (stirs.permit permit)

/-- One slot; a piece of more than a byte goes to the bulk queue. -/
def oneSlot : SessionConfig := { SessionConfig.standard with chan := 1, interactiveMax := 1 }

def idle : QueueWait := ⟨.fresh, .new, [], false⟩

def bulkPiece : Wire.Frame := .streamData ⟨1, 0, [7, 8]⟩

def smallPiece : Wire.Frame := .streamData ⟨2, 0, [7]⟩

/-- Two waits begin while the queue is full, and the writer empties it before either registers: the
one permit that is left serves the first. -/
def onePermit : List QueueWaitAction :=
  [.io .rttMeasured, .io (.offer bulkPiece), .io (.trySend 0), .io (.offer bulkPiece), .block 0,
    .io (.undo 0), .io (.offer bulkPiece), .block 0, .io (.undo 0), .io .pollUrgent,
    .io (.recv false), .io .noteDequeue, .notifyOne, .await 0, .await 1, .testGauge 0 bulkPiece,
    .io (.trySend 0), .sent 0]

theorem never_stranded_onePermit :
    ∃ s, (machine oneSlot).runWhen (triesBulk oneSlot) idle onePermit = some s ∧
      s.waits = [.returned, .asleep] ∧ 0 < s.stirring := by
  have history : ((machine oneSlot).runWhen (triesBulk oneSlot) idle onePermit).map
      (fun s => (s.waits, s.notifier, s.io.writer.leaving)) =
        some ([.returned, .asleep], ⟨false, [1], []⟩, false) := by
    decide +kernel
  obtain ⟨s, ran, made⟩ := Option.map_eq_some_iff.mp history
  obtain ⟨waits, rest⟩ := Prod.mk.inj made
  obtain ⟨notifier, inLoop⟩ := Prod.mk.inj rest
  have begins : (machine oneSlot).ReachableWhen (triesBulk oneSlot) idle :=
    .start ⟨⟨false, rfl⟩, rfl, rfl, rfl⟩
  have asleep : s.waits[1]? = some .asleep := by
    rw [waits]
    rfl
  have unwoken : s.notifier.isWoken 1 = false := by
    rw [notifier]
    rfl
  exact ⟨s, ran, waits, never_stranded (by decide) (begins.runWhen ran) inLoop asleep unwoken⟩

/-- The urgent queue refuses a small piece of a bulk stream, which then waits for bulk frames. -/
def smallRefused : List QueueWaitAction :=
  [.io .rttMeasured, .io (.offer smallPiece), .io (.trySend 0), .io (.offer smallPiece), .block 0,
    .io (.undo 0), .await 0]

/-- A gauge that counts another refused call turns the only woken wait away. -/
def gaugeMadeUp : List QueueWaitAction :=
  [.io .rttMeasured, .io (.offer bulkPiece), .io (.trySend 0), .io (.offer bulkPiece), .block 0,
    .io (.undo 0), .io (.offer bulkPiece), .block 0, .io .pollUrgent, .io (.recv false),
    .io .noteDequeue, .notifyOne, .await 0, .testGauge 0 bulkPiece, .await 0, .io (.undo 0),
    .await 1]

/-- The writer fails and destroys the piece that a wait sleeps for. -/
def queueDestroyed : List QueueWaitAction :=
  [.io .rttMeasured, .io (.offer bulkPiece), .io (.trySend 0), .io .pollUrgent, .io (.recv false),
    .io .noteDequeue, .notifyOne, .io .begin_, .io (.offer bulkPiece), .io (.trySend 0),
    .io (.offer bulkPiece), .block 0, .io (.undo 0), .await 0, .testGauge 0 bulkPiece, .await 0,
    .io .failed]

/-- Without the conditions a wait can sleep on an idle queue, until its timer. -/
theorem stranded :
    ((machine oneSlot).run idle smallRefused).map (fun s => (s.waits, s.stirring)) =
      some ([.asleep], 0) ∧
    ((machine oneSlot).run idle gaugeMadeUp).map (fun s => (s.waits, s.stirring)) =
      some ([.asleep, .asleep], 0) ∧
    ((machine oneSlot).run idle queueDestroyed).map (fun s => (s.waits, s.stirring)) =
      some ([.asleep], 0) := by
  decide +kernel

end QueueWait

end NyaLink
