import Mathlib.Algebra.BigOperators.Group.List.Basic
import NyaLink.Library.Ledger
import NyaLink.Session.WindowMax

/-!
# The ACK clock of a path

A piece remembers what its path had delivered when it went out, and when; its ACK turns the
difference into a rate over the longer of the send-side and the ACK-side interval.  Pieces of
several streams share the path.  Every call is one step; what was stamped and acknowledged, and
the samples taken, are history.  A stamp books its piece whether or not a queue takes the frame.
-/

namespace NyaLink

/-- The clock fields of an `Unacked` piece that is in flight on the path. -/
structure ClockedPiece where
  len : Nat
  hedged : Bool
  lastSent : Nat
  deliveredAtSend : Nat
  deliveredTimeAtSendUs : Nat
  sentUs : Nat
  firstTxAtSendUs : Nat
  deriving DecidableEq

/-- What the piece measures was measured on another path. -/
def ClockedPiece.stampedAs (u stamps : ClockedPiece) : ClockedPiece :=
  { stamps with len := u.len, hedged := u.hedged }

/-- A delivery-rate sample, with what it was computed from. -/
structure RateSample where
  takenUs : Nat
  sentUs : Nat
  dt : Nat
  minRttUs : Nat
  rate : Nat
  deriving DecidableEq

/-- The flights are in the order in which this path stamped them. -/
structure AckClock where
  now : Nat
  budgeted : BudgetedPath
  deliveredAtUs : Nat
  firstTxUs : Nat
  flights : List ClockedPiece
  stamped : Ledger Nat
  acks : Ledger Nat
  samples : List RateSample
  deriving DecidableEq

inductive ClockAction where
  | elapse (us : Nat)
  /-- A new piece of `send_data`, put into `unacked` some time ago. -/
  | send (len lastSent : Nat)
  /-- `mark_enqueued` of a piece that had to wait for room. -/
  | enqueued (index : Nat)
  | rehome (len : Nat)
  /-- `migrate_send_blocked` brings a piece here. -/
  | migrate (len : Nat)
  | resend (index : Nat)
  /-- `mark_enqueued` of a piece that has been acknowledged, or moved to another path, meanwhile;
  `len` is what the path's clocks are compared with. -/
  | strayStamp (len : Nat)
  | foreignStamp (index : Nat) (stamps : ClockedPiece)
  | leave (index : Nat)
  /-- `xfer_inflight` of a piece that is not on the path, or has been acknowledged. -/
  | charge (inflight : Nat)
  | ack (index : Nat)
  | recordRtt (sample : Nat) (path : Path)
  | budgetLimited
  /-- Whatever else is measured on the path. -/
  | observe (path : Path)
  deriving DecidableEq

namespace AckClock

variable (cfg : SessionConfig)

def nowUs (s : AckClock) : Nat := max s.now 1

def delivered (s : AckClock) : Nat := s.budgeted.budget.delivered

def inflight (s : AckClock) : Nat := s.budgeted.path.inflight

def setInflight (s : AckClock) (n : Nat) : AckClock :=
  { s with budgeted := { s.budgeted with path := { s.budgeted.path with inflight := n } } }

def changeBudget (s : AckClock) (change : PathBudget → PathBudget) : AckClock :=
  { s with budgeted := { s.budgeted with budget := change s.budgeted.budget } }

def stamp (s : AckClock) (u : ClockedPiece) : AckClock :=
  { s with
    flights := s.flights ++ [{ u with
      deliveredAtSend := s.delivered
      deliveredTimeAtSendUs := s.deliveredAtUs
      sentUs := s.nowUs
      firstTxAtSendUs := s.firstTxUs }]
    stamped := s.stamped ++ [(s.nowUs, u.len)] }

/-- Both clocks start again when the pipe was empty. -/
def restartIfEmpty (s : AckClock) (len : Nat) : AckClock :=
  if s.inflight ≤ len then { s with firstTxUs := s.nowUs, deliveredAtUs := s.nowUs } else s

def stampDelivered (s : AckClock) (u : ClockedPiece) : AckClock := (s.restartIfEmpty u.len).stamp u

def unstamped (len : Nat) (hedged : Bool) (lastSent : Nat) : ClockedPiece :=
  ⟨len, hedged, lastSent, 0, 0, 0, 0⟩

/-- The interval of the sample of a piece, and the bytes delivered in it. -/
def sampleSpan (s : AckClock) (u : ClockedPiece) (sample : Nat) : Nat × Nat :=
  let ackUs := if u.deliveredTimeAtSendUs = 0 then sample else s.nowUs - u.deliveredTimeAtSendUs
  let sndUs := u.sentUs - u.firstTxAtSendUs
  (max ackUs sndUs, s.delivered - u.deliveredAtSend)

/-- No sample over less than a quarter of the least RTT. -/
def rateSample (s : AckClock) (u : ClockedPiece) (sample : Nat) : Option RateSample :=
  let (dt, dd) := s.sampleSpan u sample
  let minRttUs := (s.budgeted.budget.minRtt s.budgeted.path s.now).getD unknownRttUs
  if 0 < dd ∧ minRttUs / 4 ≤ dt ∧ 0 < dt then
    some ⟨s.nowUs, u.sentUs, dt, minRttUs, min (dd * 1000000 / dt) u64Max⟩
  else none

def noteBwSample (s : AckClock) (x : RateSample) : AckClock :=
  { s.changeBudget fun b => b.noteBwSample s.budgeted.path x.rate x.takenUs s.now with
    samples := s.samples ++ [x] }

def noteLoopRtt (s : AckClock) (sample : Nat) : AckClock :=
  s.changeBudget fun b =>
    { b with minRttFilter := b.minRttFilter.updateMin (max sample 1) s.nowUs minRttWinUs }

def recordAckRtt (s : AckClock) (sample : Nat) : AckClock :=
  { s with budgeted := s.budgeted.recordAckRtt sample s.now }

def takeSamples (s : AckClock) (u : ClockedPiece) (sample : Nat) : AckClock :=
  let s := (s.rateSample u sample).elim s s.noteBwSample
  let s := s.noteLoopRtt sample
  let s := if cfg.interactiveMax < u.len then s.recordAckRtt sample else s
  { s with firstTxUs := max s.firstTxUs u.sentUs }

def noteAckClock (s : AckClock) (u : ClockedPiece) (sample : Nat) : AckClock :=
  let s := s.changeBudget fun b => { b with delivered := (b.delivered + u.len) % 2 ^ 64 }
  let s := if u.hedged then s else s.takeSamples cfg u sample
  { s with deliveredAtUs := s.nowUs }

/-- `release_piece`, up to its RTT sample. -/
def releasePiece (s : AckClock) (u : ClockedPiece) : AckClock :=
  let s := s.setInflight (s.inflight - u.len)
  { s.noteAckClock cfg u (s.now - u.lastSent) with acks := s.acks ++ [(s.nowUs, u.len)] }

def removeFlight (s : AckClock) (index : Nat) : AckClock :=
  { s with flights := s.flights.eraseIdx index }

def observe (s : AckClock) (path : Path) : Option AckClock :=
  if path.inflight = s.inflight then
    some { s with budgeted := { s.budgeted with path := path } }
  else none

def step (s : AckClock) : ClockAction → Option AckClock
  | .elapse us => some { s with now := s.now + us }
  | .send len lastSent =>
      if 0 < len ∧ lastSent ≤ s.now then
        some ((s.setInflight (s.inflight + len)).stampDelivered (unstamped len false lastSent))
      else none
  | .enqueued index => do
      let u ← s.flights[index]?
      some ((s.removeFlight index).stampDelivered { u with lastSent := s.now })
  | .rehome len =>
      if 0 < len then
        some ((s.setInflight (s.inflight + len)).stamp (unstamped len true s.now))
      else none
  | .migrate len =>
      if 0 < len then
        some ((s.setInflight (s.inflight + len)).stampDelivered (unstamped len true s.now))
      else none
  | .resend index => do
      let u ← s.flights[index]?
      some ((s.removeFlight index).stamp { u with lastSent := s.now })
  | .strayStamp len => some (s.restartIfEmpty len)
  | .foreignStamp index stamps => do
      let u ← s.flights[index]?
      if u.hedged then some { s with flights := s.flights.set index (u.stampedAs stamps) } else none
  | .leave index => do
      let u ← s.flights[index]?
      some ((s.removeFlight index).setInflight (s.inflight - u.len))
  | .charge inflight => some (s.setInflight inflight)
  | .ack index => do
      let u ← s.flights[index]?
      some ((s.removeFlight index).releasePiece cfg u)
  | .recordRtt sample path => (s.noteLoopRtt sample).observe path
  | .budgetLimited => some (s.changeBudget fun b => { b with roundLimited := true })
  | .observe path => s.observe path

/-- A new path. -/
def Initial (s : AckClock) : Prop :=
  ∃ now path floor ceil, path.inflight = 0 ∧
    s = ⟨now, ⟨path, .new floor ceil⟩, 0, 0, [], [], [], []⟩

def machine : Machine AckClock ClockAction := ⟨Initial, step cfg⟩

/-! ## What the calls do -/

variable {cfg} {s t : AckClock}

def bwFilter (s : AckClock) : MinMax3 := s.budgeted.budget.bwFilter

@[simp]
theorem inflight_setInflight (s : AckClock) (n : Nat) : (s.setInflight n).inflight = n := rfl

@[simp]
theorem now_restartIfEmpty (s : AckClock) (len : Nat) : (s.restartIfEmpty len).now = s.now := by
  unfold restartIfEmpty
  split <;> rfl

def sampled (s : AckClock) (u : ClockedPiece) : Option RateSample :=
  if u.hedged then none
  else (s.changeBudget fun b => { b with delivered := (b.delivered + u.len) % 2 ^ 64 }).rateSample u
    (s.now - u.lastSent)

/-- What `release_piece` does to the clocks of a path. -/
structure Released (s t : AckClock) (u : ClockedPiece) : Prop where
  now : t.now = s.now
  inflight : t.inflight = s.inflight - u.len
  delivered : t.delivered = (s.delivered + u.len) % 2 ^ 64
  deliveredAt : t.deliveredAtUs = s.nowUs
  firstTx : t.firstTxUs = if u.hedged then s.firstTxUs else max s.firstTxUs u.sentUs
  flights : t.flights = s.flights
  stamped : t.stamped = s.stamped
  acks : t.acks = s.acks ++ [(s.nowUs, u.len)]
  samples : t.samples = s.samples ++ (s.sampled u).toList
  filter : ∀ slot, t.bwFilter.Has slot →
    s.bwFilter.Has slot ∨ ∃ x ∈ s.sampled u, x.rate = slot.v

theorem delivered_allow (b : PathBudget) (r : Round) : (b.allow r).delivered = b.delivered := by
  simp only [PathBudget.allow]
  split_ifs <;> rfl

theorem delivered_closeRound (b : PathBudget) (r : Round) :
    (b.closeRound r).delivered = b.delivered := by
  simp only [PathBudget.closeRound]
  split_ifs <;> simp only [delivered_allow]

theorem delivered_noteBwSample (b : PathBudget) (p : Path) (bytesS now mono : Nat) :
    (b.noteBwSample p bytesS now mono).delivered = b.delivered := by
  simp only [PathBudget.noteBwSample]
  split_ifs
  · rfl
  · rfl
  · simp only [PathBudget.endBudgetRound, delivered_closeRound]
    rfl

theorem has_noteBwSample {s : AckClock} {x : RateSample} {slot : Slot}
    (has : (s.noteBwSample x).bwFilter.Has slot) : s.bwFilter.Has slot ∨ x.rate = slot.v := by
  change (s.budgeted.budget.noteBwSample s.budgeted.path x.rate x.takenUs s.now).bwFilter.Has slot
    at has
  rw [PathBudget.bwFilter_noteBwSample] at has
  rcases @MinMax3.has_update _ ⟨x.rate, x.takenUs⟩ _ _ has with rfl | ⟨_, kept⟩
  · exact .inr rfl
  · exact .inl kept

/-- What the samples of a piece leave as it was, and what they add. -/
structure Sampled (s t : AckClock) (u : ClockedPiece) (x : Option RateSample) : Prop where
  now : t.now = s.now
  inflight : t.inflight = s.inflight
  delivered : t.delivered = s.delivered
  firstTx : t.firstTxUs = max s.firstTxUs u.sentUs
  flights : t.flights = s.flights
  stamped : t.stamped = s.stamped
  acks : t.acks = s.acks
  samples : t.samples = s.samples ++ x.toList
  filter : ∀ slot, t.bwFilter.Has slot → s.bwFilter.Has slot ∨ ∃ y ∈ x, y.rate = slot.v

theorem takeSamples_sampled (s : AckClock) (u : ClockedPiece) (sample : Nat) :
    Sampled s (s.takeSamples cfg u sample) u (s.rateSample u sample) := by
  unfold takeSamples
  cases s.rateSample u sample with
  | none =>
      split
      · exact ⟨rfl, rfl, rfl, rfl, rfl, rfl, rfl, (List.append_nil _).symm, fun _ => .inl⟩
      · exact ⟨rfl, rfl, rfl, rfl, rfl, rfl, rfl, (List.append_nil _).symm, fun _ => .inl⟩
  | some x =>
      have counted : (s.noteBwSample x).delivered = s.delivered := delivered_noteBwSample _ _ _ _ _
      have fed : ∀ slot, (s.noteBwSample x).bwFilter.Has slot →
          s.bwFilter.Has slot ∨ ∃ y ∈ some x, y.rate = slot.v :=
        fun slot has => (has_noteBwSample has).imp_right fun rate => ⟨x, rfl, rate⟩
      split
      · exact ⟨rfl, rfl, counted, rfl, rfl, rfl, rfl, rfl, fed⟩
      · exact ⟨rfl, rfl, counted, rfl, rfl, rfl, rfl, rfl, fed⟩

theorem releasePiece_released (s : AckClock) (u : ClockedPiece) :
    Released s (s.releasePiece cfg u) u := by
  obtain
    ⟨len, hedged, lastSent, deliveredAtSend, deliveredTimeAtSendUs, sentUs, firstTxAtSendUs⟩ := u
  cases hedged with
  | true =>
      exact ⟨rfl, rfl, rfl, rfl, rfl, rfl, rfl, rfl, (List.append_nil _).symm, fun _ => .inl⟩
  | false =>
      let u : ClockedPiece :=
        ⟨len, false, lastSent, deliveredAtSend, deliveredTimeAtSendUs, sentUs, firstTxAtSendUs⟩
      let counted := (s.setInflight (s.inflight - len)).changeBudget fun b =>
        { b with delivered := (b.delivered + len) % 2 ^ 64 }
      have taken := @takeSamples_sampled cfg counted u (s.now - lastSent)
      have clock : (counted.takeSamples cfg u (s.now - lastSent)).nowUs = s.nowUs :=
        congrArg (max · 1) taken.now
      exact ⟨taken.now, taken.inflight, taken.delivered, clock, taken.firstTx, taken.flights,
        taken.stamped, rfl, taken.samples, taken.filter⟩

theorem rateSample_spec {u : ClockedPiece} {sample : Nat} {x : RateSample}
    (taken : s.rateSample u sample = some x) :
    x.takenUs = s.nowUs ∧ x.sentUs = u.sentUs ∧ 0 < x.dt ∧ x.minRttUs / 4 ≤ x.dt ∧
      x.dt = (s.sampleSpan u sample).1 ∧
      x.rate * x.dt ≤ 1000000 * (s.delivered - u.deliveredAtSend) := by
  unfold rateSample at taken
  dsimp only at taken
  split at taken
  · rename_i enough
    cases taken
    refine ⟨rfl, rfl, enough.2.2, enough.2.1, rfl, ?_⟩
    calc _ ≤ (s.sampleSpan u sample).2 * 1000000 / (s.sampleSpan u sample).1 *
          (s.sampleSpan u sample).1 := Nat.mul_le_mul_right _ (Nat.min_le_left _ _)
      _ ≤ (s.sampleSpan u sample).2 * 1000000 := Nat.div_mul_le_self _ _
      _ = 1000000 * (s.delivered - u.deliveredAtSend) := Nat.mul_comm _ _
  · cases taken

theorem sampled_spec {u : ClockedPiece} {x : RateSample} (taken : x ∈ s.sampled u) :
    u.hedged = false ∧ x.takenUs = s.nowUs ∧ x.sentUs = u.sentUs ∧ 0 < x.dt ∧
      x.minRttUs / 4 ≤ x.dt ∧ x.dt = (s.sampleSpan u (s.now - u.lastSent)).1 ∧
      x.rate * x.dt ≤ 1000000 * (s.delivered + u.len - u.deliveredAtSend) := by
  unfold sampled at taken
  split at taken
  · cases taken
  · rename_i unhedged
    obtain ⟨takenUs, sentUs, positive, long, span, rate⟩ := rateSample_spec taken
    refine ⟨by simpa using unhedged, takenUs, sentUs, positive, long, span, rate.trans ?_⟩
    exact Nat.mul_le_mul_left _ (Nat.sub_le_sub_right (Nat.mod_le _ _) _)

/-! ## The budget controller is fed as it expects -/

theorem reachable_after {b next : BudgetedPath} (reached : BudgetedPath.machine.Reachable b)
    (action : BudgetAction) (taken : b.step action = some next) :
    BudgetedPath.machine.Reachable next := .step reached trivial taken

/-- The budget of `t` is reached in a run of the controller if that of `s` is. -/
def Feeds (s t : AckClock) : Prop :=
  BudgetedPath.machine.Reachable s.budgeted → BudgetedPath.machine.Reachable t.budgeted

theorem feeds_setInflight (s : AckClock) (n : Nat) : Feeds s (s.setInflight n) :=
  fun reached => reachable_after reached (.path { s.budgeted.path with inflight := n }) rfl

theorem feeds_takeSamples (s : AckClock) (u : ClockedPiece) (sample : Nat) :
    Feeds s (s.takeSamples cfg u sample) := by
  intro reached
  have sampled : BudgetedPath.machine.Reachable
      ((s.rateSample u sample).elim s s.noteBwSample).budgeted := by
    cases s.rateSample u sample with
    | none => exact reached
    | some x => exact reachable_after reached (.bwSample x.rate x.takenUs s.now) rfl
  unfold takeSamples
  generalize (s.rateSample u sample).elim s s.noteBwSample = t at sampled
  have looped : BudgetedPath.machine.Reachable (t.noteLoopRtt sample).budgeted :=
    reachable_after sampled (.loopRtt sample t.now) rfl
  dsimp only
  split
  · exact reachable_after looped (.ackRtt sample (t.noteLoopRtt sample).now) rfl
  · exact looped

theorem feeds_releasePiece (s : AckClock) (u : ClockedPiece) : Feeds s (s.releasePiece cfg u) := by
  intro reached
  have moved := feeds_setInflight s (s.inflight - u.len) reached
  unfold releasePiece noteAckClock
  generalize s.setInflight (s.inflight - u.len) = t at moved
  have counted : BudgetedPath.machine.Reachable (t.changeBudget fun b =>
      { b with delivered := (b.delivered + u.len) % 2 ^ 64 }).budgeted :=
    reachable_after moved (.delivered u.len) rfl
  dsimp only
  split
  · exact counted
  · exact feeds_takeSamples _ u _ counted

theorem feeds_restartIfEmpty (s : AckClock) (len : Nat) : Feeds s (s.restartIfEmpty len) := by
  unfold restartIfEmpty
  split
  · exact id
  · exact id

theorem feeds_observe {path : Path} (taken : s.observe path = some t) : Feeds s t := by
  unfold observe at taken
  split at taken
  · cases taken
    exact fun reached => reachable_after reached (.path path) rfl
  · cases taken

theorem feeds_step {action : ClockAction} (taken : s.step cfg action = some t) : Feeds s t := by
  cases action with
  | elapse us =>
      cases taken
      exact id
  | send len lastSent =>
      simp only [AckClock.step] at taken
      split at taken
      · cases taken
        exact fun reached => feeds_restartIfEmpty _ _ (feeds_setInflight s _ reached)
      · cases taken
  | enqueued index =>
      simp only [AckClock.step, Option.bind_eq_bind, Option.bind_eq_some_iff] at taken
      obtain ⟨u, -, restamped⟩ := taken
      cases restamped
      exact feeds_restartIfEmpty (s.removeFlight index) _
  | rehome len =>
      simp only [AckClock.step] at taken
      split at taken
      · cases taken
        exact feeds_setInflight s _
      · cases taken
  | leave index =>
      simp only [AckClock.step, Option.bind_eq_bind, Option.bind_eq_some_iff] at taken
      obtain ⟨u, -, left⟩ := taken
      cases left
      exact feeds_setInflight (s.removeFlight index) _
  | charge inflight =>
      cases taken
      exact feeds_setInflight s _
  | migrate len =>
      simp only [AckClock.step] at taken
      split at taken
      · cases taken
        exact fun reached => feeds_restartIfEmpty _ _ (feeds_setInflight s _ reached)
      · cases taken
  | resend index =>
      simp only [AckClock.step, Option.bind_eq_bind, Option.bind_eq_some_iff] at taken
      obtain ⟨u, -, restamped⟩ := taken
      cases restamped
      exact id
  | strayStamp len =>
      cases taken
      exact feeds_restartIfEmpty s len
  | foreignStamp index stamps =>
      simp only [AckClock.step, Option.bind_eq_bind, Option.bind_eq_some_iff] at taken
      obtain ⟨u, -, restamped⟩ := taken
      split at restamped
      · cases restamped
        exact id
      · cases restamped
  | ack index =>
      simp only [AckClock.step, Option.bind_eq_bind, Option.bind_eq_some_iff] at taken
      obtain ⟨u, -, acked⟩ := taken
      cases acked
      exact feeds_releasePiece (s.removeFlight index) u
  | recordRtt sample path =>
      intro reached
      exact feeds_observe taken (reachable_after reached (.loopRtt sample s.now) rfl)
  | budgetLimited =>
      cases taken
      exact fun reached => reachable_after reached .limited rfl
  | observe path => exact feeds_observe taken

/-- What the ACKs of a path do to its budget is a run of the budget controller. -/
theorem budgeted_of_reachable (reachable : (machine cfg).Reachable s) :
    BudgetedPath.machine.Reachable s.budgeted := by
  refine reachable.invariant (fun s => BudgetedPath.machine.Reachable s.budgeted) ?_
    fun _ _ _ reached taken => feeds_step taken reached
  rintro _ ⟨now, path, floor, ceil, -, rfl⟩
  exact .start ⟨floor, ceil, rfl⟩

/-! ## No sample is beyond the rate of the ACKs -/

/-- The ACK-side interval of a sample of the piece begins here. -/
def clockStart (u : ClockedPiece) : Nat :=
  if u.deliveredTimeAtSendUs = 0 then max u.lastSent 1 else u.deliveredTimeAtSendUs

/-- `rate` bytes a second for `dt` are no more than were booked up to `taken`. -/
def Covered (ledger : Ledger Nat) (rate dt taken : Nat) : Prop :=
  rate * dt ≤ 1000000 * ledger.between (taken - dt) taken

theorem Covered.book {ledger : Ledger Nat} {rate dt taken : Nat}
    (covered : Covered ledger rate dt taken) (time amount : Nat) :
    Covered (ledger ++ [(time, amount)]) rate dt taken :=
  covered.trans (Nat.mul_le_mul_left _ (ledger.total_le_book _ _ _))

/-- What a path has delivered since a piece that may sample went out was acknowledged in the time
that its sample will span. -/
structure AckSide (s : AckClock) : Prop where
  past : ∀ entry ∈ s.acks, entry.1 ≤ s.nowUs
  deliveredAt : s.deliveredAtUs ≤ s.nowUs
  started : ∀ u ∈ s.flights, u.hedged = false → clockStart u ≤ s.nowUs
  counted : ∀ u ∈ s.flights, u.hedged = false →
    s.delivered ≤ u.deliveredAtSend + Ledger.since s.acks (clockStart u)
  samples : ∀ x ∈ s.samples, 0 < x.dt ∧ x.minRttUs / 4 ≤ x.dt ∧
    Covered s.acks x.rate x.dt x.takenUs
  filter : ∀ slot, s.bwFilter.Has slot → slot.v = 0 ∨ ∃ x ∈ s.samples, x.rate = slot.v

theorem AckSide.setInflight (side : s.AckSide) (n : Nat) : (s.setInflight n).AckSide :=
  ⟨side.past, side.deliveredAt, side.started, side.counted, side.samples, side.filter⟩

theorem AckSide.removeFlight (side : s.AckSide) (index : Nat) : (s.removeFlight index).AckSide :=
  ⟨side.past, side.deliveredAt, fun u kept => side.started u (List.mem_of_mem_eraseIdx kept),
    fun u kept => side.counted u (List.mem_of_mem_eraseIdx kept), side.samples, side.filter⟩

theorem AckSide.restartIfEmpty (side : s.AckSide) (len : Nat) : (s.restartIfEmpty len).AckSide := by
  unfold AckClock.restartIfEmpty
  split
  · exact ⟨side.past, Nat.le_refl _, side.started, side.counted, side.samples, side.filter⟩
  · exact side

theorem AckSide.stamp (side : s.AckSide) {u : ClockedPiece} (sent : u.lastSent ≤ s.now) :
    (s.stamp u).AckSide := by
  refine ⟨side.past, side.deliveredAt, fun v present unhedged => ?_,
    fun v present unhedged => ?_, side.samples, side.filter⟩
  · rcases List.mem_append.mp present with earlier | new
    · exact side.started v earlier unhedged
    · obtain rfl := List.mem_singleton.mp new
      simp only [clockStart]
      split
      · exact max_le_max sent (Nat.le_refl 1)
      · exact side.deliveredAt
  · rcases List.mem_append.mp present with earlier | new
    · exact side.counted v earlier unhedged
    · obtain rfl := List.mem_singleton.mp new
      exact Nat.le_add_right _ _

theorem AckSide.observe (side : s.AckSide) {path : Path} (taken : s.observe path = some t) :
    t.AckSide := by
  unfold AckClock.observe at taken
  split at taken
  · cases taken
    exact ⟨side.past, side.deliveredAt, side.started, side.counted, side.samples, side.filter⟩
  · cases taken

theorem span_covers {u : ClockedPiece} (started : clockStart u ≤ s.nowUs) :
    s.nowUs - (s.sampleSpan u (s.now - u.lastSent)).1 ≤ clockStart u := by
  have ackSide : (if u.deliveredTimeAtSendUs = 0 then s.now - u.lastSent
      else s.nowUs - u.deliveredTimeAtSendUs) ≤ (s.sampleSpan u (s.now - u.lastSent)).1 :=
    le_max_left _ _
  unfold clockStart at started ⊢
  simp only [nowUs] at *
  split at ackSide
  · rename_i unset
    rw [if_pos unset]
    omega
  · rename_i set
    rw [if_neg set] at started ⊢
    omega

theorem AckSide.release (side : s.AckSide) {index : Nat} {u : ClockedPiece}
    (found : s.flights[index]? = some u) :
    ((s.removeFlight index).releasePiece cfg u).AckSide := by
  have released := @releasePiece_released cfg (s.removeFlight index) u
  generalize (s.removeFlight index).releasePiece cfg u = t at released
  have present := List.mem_of_getElem? found
  have clock : t.nowUs = s.nowUs := congrArg (max · 1) released.now
  have acks : t.acks = s.acks ++ [(s.nowUs, u.len)] := released.acks
  have delivered : t.delivered = (s.delivered + u.len) % 2 ^ 64 := released.delivered
  -- The ACK is booked for every piece that has begun to count.
  have counted : ∀ v, clockStart v ≤ s.nowUs →
      s.delivered ≤ v.deliveredAtSend + Ledger.since s.acks (clockStart v) →
      t.delivered ≤ v.deliveredAtSend + Ledger.since t.acks (clockStart v) := by
    intro v started before
    rw [acks, Ledger.since_book _ _ started, delivered]
    have wrapped := Nat.mod_le (s.delivered + u.len) (2 ^ 64)
    omega
  have past : ∀ entry ∈ t.acks, entry.1 ≤ t.nowUs := by
    rw [acks, clock]
    intro entry booked
    rcases List.mem_append.mp booked with earlier | new
    · exact side.past entry earlier
    · obtain rfl := List.mem_singleton.mp new
      exact Nat.le_refl _
  refine ⟨past, ?_, fun v kept unhedged => ?_, fun v kept unhedged => ?_, fun x taken => ?_,
    fun slot has => ?_⟩
  · rw [released.deliveredAt, clock]
    exact Nat.le_refl _
  · rw [released.flights] at kept
    rw [clock]
    exact side.started v (List.mem_of_mem_eraseIdx kept) unhedged
  · rw [released.flights] at kept
    have earlier := List.mem_of_mem_eraseIdx kept
    exact counted v (side.started v earlier unhedged) (side.counted v earlier unhedged)
  · rw [released.samples] at taken
    rcases List.mem_append.mp taken with earlier | new
    · obtain ⟨positive, long, covered⟩ := side.samples x earlier
      rw [acks]
      exact ⟨positive, long, covered.book _ _⟩
    · obtain ⟨unhedged, takenUs, -, positive, long, span, rate⟩ :=
        sampled_spec (Option.mem_toList.mp new)
      have started := side.started u present unhedged
      refine ⟨positive, long, ?_⟩
      calc x.rate * x.dt ≤ 1000000 * (s.delivered + u.len - u.deliveredAtSend) := rate
        _ ≤ 1000000 * Ledger.since t.acks (clockStart u) := by
          have before := side.counted u present unhedged
          rw [acks, Ledger.since_book _ _ started]
          omega
        _ ≤ 1000000 * Ledger.between t.acks (clockStart u) x.takenUs := by
          rw [takenUs]
          exact Nat.mul_le_mul_left _ (Ledger.since_le_between fun entry booked =>
            clock ▸ past entry booked)
        _ ≤ 1000000 * Ledger.between t.acks (x.takenUs - x.dt) x.takenUs := by
          refine Nat.mul_le_mul_left _ (Ledger.between_antitone _ ?_ _)
          rw [span, takenUs]
          exact @span_covers s u started
  · rw [released.samples]
    rcases released.filter slot has with kept | ⟨x, taken, rate⟩
    · exact (side.filter slot kept).imp_right fun ⟨x, earlier, rate⟩ =>
        ⟨x, List.mem_append_left _ earlier, rate⟩
    · exact .inr ⟨x, List.mem_append_right _ (Option.mem_toList.mpr taken), rate⟩

theorem AckSide.step (side : s.AckSide) {action : ClockAction}
    (taken : s.step cfg action = some t) : t.AckSide := by
  cases action with
  | elapse us =>
      cases taken
      have later : s.nowUs ≤ max (s.now + us) 1 := max_le_max (Nat.le_add_right _ _) (Nat.le_refl 1)
      exact ⟨fun entry booked => (side.past entry booked).trans later, side.deliveredAt.trans later,
        fun u present unhedged => (side.started u present unhedged).trans later, side.counted,
        side.samples, side.filter⟩
  | send len lastSent =>
      simp only [AckClock.step] at taken
      split at taken
      · rename_i stamped
        cases taken
        refine ((side.setInflight _).restartIfEmpty _).stamp ?_
        rw [now_restartIfEmpty]
        exact stamped.2
      · cases taken
  | enqueued index =>
      simp only [AckClock.step, Option.bind_eq_bind, Option.bind_eq_some_iff] at taken
      obtain ⟨u, -, restamped⟩ := taken
      cases restamped
      refine ((side.removeFlight index).restartIfEmpty _).stamp ?_
      rw [now_restartIfEmpty]
      exact Nat.le_refl _
  | rehome len =>
      simp only [AckClock.step] at taken
      split at taken
      · cases taken
        exact (side.setInflight _).stamp (Nat.le_refl _)
      · cases taken
  | leave index =>
      simp only [AckClock.step, Option.bind_eq_bind, Option.bind_eq_some_iff] at taken
      obtain ⟨u, -, left⟩ := taken
      cases left
      exact (side.removeFlight index).setInflight _
  | charge inflight =>
      cases taken
      exact side.setInflight _
  | migrate len =>
      simp only [AckClock.step] at taken
      split at taken
      · cases taken
        refine ((side.setInflight _).restartIfEmpty _).stamp ?_
        rw [now_restartIfEmpty]
        exact Nat.le_refl _
      · cases taken
  | resend index =>
      simp only [AckClock.step, Option.bind_eq_bind, Option.bind_eq_some_iff] at taken
      obtain ⟨u, -, restamped⟩ := taken
      cases restamped
      exact (side.removeFlight index).stamp (Nat.le_refl _)
  | strayStamp len =>
      cases taken
      exact side.restartIfEmpty len
  | foreignStamp index stamps =>
      simp only [AckClock.step, Option.bind_eq_bind, Option.bind_eq_some_iff] at taken
      obtain ⟨u, -, restamped⟩ := taken
      split at restamped
      · rename_i hedged
        cases restamped
        have known : ∀ v ∈ s.flights.set index (u.stampedAs stamps), v.hedged = false →
            v ∈ s.flights := by
          intro v present unhedged
          rcases List.mem_or_eq_of_mem_set present with kept | rfl
          · exact kept
          · exact Bool.noConfusion (hedged.symm.trans unhedged)
        exact ⟨side.past, side.deliveredAt,
          fun v present unhedged => side.started v (known v present unhedged) unhedged,
          fun v present unhedged => side.counted v (known v present unhedged) unhedged,
          side.samples, side.filter⟩
      · cases restamped
  | ack index =>
      simp only [AckClock.step, Option.bind_eq_bind, Option.bind_eq_some_iff] at taken
      obtain ⟨u, found, acked⟩ := taken
      cases acked
      exact side.release found
  | recordRtt sample path =>
      have fed : (s.noteLoopRtt sample).AckSide :=
        ⟨side.past, side.deliveredAt, side.started, side.counted, side.samples, side.filter⟩
      exact fed.observe taken
  | budgetLimited =>
      cases taken
      exact ⟨side.past, side.deliveredAt, side.started, side.counted, side.samples, side.filter⟩
  | observe path => exact side.observe taken

theorem ackSide_of_reachable (reachable : (machine cfg).Reachable s) : s.AckSide := by
  refine reachable.invariant AckSide ?_ fun _ _ _ side taken => side.step taken
  rintro _ ⟨now, path, floor, ceil, -, rfl⟩
  refine ⟨by simp, Nat.zero_le _, by simp, by simp, by simp, fun slot has => .inl ?_⟩
  rcases has with rfl | rfl | rfl <;> rfl

/-- Whatever happens on the path, in any order: a rate sample spans at least a quarter of the
least RTT and is no more than was acknowledged on the path in the interval it spans; and the
bandwidth the path reports, if any, is the rate of a sample taken. -/
theorem rate_samples_acked (reachable : (machine cfg).Reachable s) :
    (∀ x ∈ s.samples, 0 < x.dt ∧ x.minRttUs / 4 ≤ x.dt ∧
      x.rate * x.dt ≤ 1000000 * s.acks.between (x.takenUs - x.dt) x.takenUs) ∧
    ∀ now window, s.bwFilter.get now window = 0 ∨
      ∃ x ∈ s.samples, x.rate = s.bwFilter.get now window := by
  have side := ackSide_of_reachable reachable
  refine ⟨side.samples, fun now window => ?_⟩
  unfold MinMax3.get
  split
  · exact .inl rfl
  · exact side.filter _ (.inl rfl)

/-- A path up for a second, with nothing in flight. -/
def quiet : AckClock :=
  ⟨1000000, ⟨⟨"a", .up, 0, 0, false, false, 9000, 9000, 9000, 0, 1000000, [], []⟩,
    .new 65536 65536⟩, 0, 0, [], [], [], []⟩

/-- Two pieces, the second sent while the first is in flight and both acknowledged at once. -/
def coalesced : List ClockAction :=
  [.send 10000 1000000, .elapse 4000, .send 10000 1004000, .elapse 8000, .ack 0, .ack 0]

theorem rate_samples_acked_coalesced :
    ∃ s, (machine .standard).run quiet coalesced = some s ∧
      s.samples.map RateSample.rate = [833333, 1666666] ∧
      ∀ x ∈ s.samples, x.rate * x.dt ≤ 1000000 * s.acks.between (x.takenUs - x.dt) x.takenUs := by
  have history : ((machine .standard).run quiet coalesced).map
      (fun s => s.samples.map RateSample.rate) = some [833333, 1666666] := by decide +kernel
  obtain ⟨s, ran, rates⟩ := Option.map_eq_some_iff.mp history
  have reachable : (machine .standard).Reachable s :=
    Machine.Reachable.run (.start ⟨_, _, _, _, rfl, rfl⟩) ran
  exact ⟨s, ran, rates, fun x taken => ((rate_samples_acked reachable).1 x taken).2.2⟩

/-! ## Nor beyond the rate of stamping, as long as ACKs come in order -/

/-- With `base` delivered before the pieces of the list: if they are acknowledged in this order,
each will have counted no more than was stamped in its send-side interval. -/
def Counted (stamped : Ledger Nat) : Nat → List ClockedPiece → Prop
  | _, [] => True
  | base, u :: rest =>
      base + u.len ≤ u.deliveredAtSend + stamped.between u.firstTxAtSendUs u.sentUs ∧
        Counted stamped (base + u.len) rest

section Counted

variable {stamped : Ledger Nat} {pieces : List ClockedPiece} {base less : Nat}

theorem Counted.mono (counted : Counted stamped base pieces) (fewer : less ≤ base) :
    Counted stamped less pieces := by
  induction pieces generalizing base less with
  | nil => trivial
  | cons u rest inductionHypothesis =>
      exact ⟨(Nat.add_le_add_right fewer _).trans counted.1,
        inductionHypothesis counted.2 (Nat.add_le_add_right fewer _)⟩

theorem Counted.eraseIdx (counted : Counted stamped base pieces) (index : Nat) :
    Counted stamped base (pieces.eraseIdx index) := by
  induction pieces generalizing base index with
  | nil => trivial
  | cons u rest inductionHypothesis =>
      cases index with
      | zero => exact counted.2.mono (Nat.le_add_right _ _)
      | succ index => exact ⟨counted.1, inductionHypothesis counted.2 index⟩

theorem Counted.book (counted : Counted stamped base pieces) (time amount : Nat) :
    Counted (stamped ++ [(time, amount)]) base pieces := by
  induction pieces generalizing base with
  | nil => trivial
  | cons u rest inductionHypothesis =>
      exact ⟨counted.1.trans (Nat.add_le_add_left (stamped.total_le_book _ _ _) _),
        inductionHypothesis counted.2⟩

theorem Counted.append (counted : Counted stamped base pieces) {u : ClockedPiece}
    (last : base + (pieces.map ClockedPiece.len).sum + u.len ≤
      u.deliveredAtSend + stamped.between u.firstTxAtSendUs u.sentUs) :
    Counted stamped base (pieces ++ [u]) := by
  induction pieces generalizing base with
  | nil => exact ⟨last, trivial⟩
  | cons v rest inductionHypothesis =>
      refine ⟨counted.1, inductionHypothesis counted.2 ?_⟩
      rw [List.map_cons, List.sum_cons] at last
      omega

end Counted

def outstanding (s : AckClock) : Ledger Nat := s.flights.map fun u => (u.sentUs, u.len)

theorem since_outstanding {low : Nat} (after : ∀ u ∈ s.flights, low ≤ u.sentUs) :
    s.outstanding.since low = (s.flights.map ClockedPiece.len).sum := by
  unfold outstanding Ledger.since
  generalize s.flights = flights at after
  induction flights with
  | nil => rfl
  | cons u rest inductionHypothesis =>
      have later := inductionHypothesis fun v inRest => after v (List.mem_cons_of_mem _ inRest)
      rw [List.map_cons, Ledger.total_cons, later, List.map_cons, List.sum_cons,
        decide_eq_true (after u List.mem_cons_self), if_pos rfl]

/-- `pending` bytes are counted in flight that are not stamped. -/
structure SendSide (s : AckClock) (pending : Nat) : Prop where
  positive : ∀ u ∈ s.flights, 0 < u.len
  inflight : (s.flights.map ClockedPiece.len).sum + pending ≤ s.inflight
  past : ∀ entry ∈ s.stamped, entry.1 ≤ s.nowUs
  clock : s.firstTxUs ≤ s.nowUs
  sorted : s.flights.Pairwise fun earlier later => earlier.sentUs ≤ later.sentUs
  sent : ∀ u ∈ s.flights, s.firstTxUs ≤ u.sentUs ∧ u.sentUs ≤ s.nowUs
  booked : ∀ low, s.outstanding.since low ≤ s.stamped.since low
  counted : Counted s.stamped s.delivered s.flights
  samples : ∀ x ∈ s.samples, Covered s.stamped x.rate x.dt x.sentUs

theorem SendSide.setInflight (side : s.SendSide 0) (n : Nat) :
    (s.setInflight (s.inflight + n)).SendSide n := by
  refine ⟨side.positive, ?_, side.past, side.clock, side.sorted, side.sent, side.booked,
    side.counted, side.samples⟩
  rw [inflight_setInflight]
  exact Nat.add_le_add_right side.inflight n

theorem sum_eraseIdx {index : Nat} {u : ClockedPiece} {pieces : List ClockedPiece}
    (found : pieces[index]? = some u) :
    ((pieces.eraseIdx index).map ClockedPiece.len).sum + u.len =
      (pieces.map ClockedPiece.len).sum := by
  obtain ⟨bound, rfl⟩ := List.getElem?_eq_some_iff.mp found
  have inMap : index < (pieces.map ClockedPiece.len).length := by rwa [List.length_map]
  rw [← List.CommMonoid.add_sum_eraseIdx inMap, List.getElem_map, List.eraseIdx_map]
  exact Nat.add_comm _ _

theorem SendSide.removeFlight (side : s.SendSide 0) {index : Nat} {u : ClockedPiece}
    (found : s.flights[index]? = some u) : (s.removeFlight index).SendSide u.len := by
  have kept : ∀ v ∈ s.flights.eraseIdx index, v ∈ s.flights :=
    fun _ => List.mem_of_mem_eraseIdx
  refine ⟨fun v present => side.positive v (kept v present), ?_, side.past, side.clock,
    side.sorted.sublist (List.eraseIdx_sublist _ _), fun v present => side.sent v (kept v present),
    fun low => ?_, side.counted.eraseIdx index, side.samples⟩
  · change ((s.flights.eraseIdx index).map ClockedPiece.len).sum + u.len ≤ s.inflight
    rw [sum_eraseIdx found]
    exact side.inflight
  · refine le_trans (Ledger.total_sublist ?_ _) (side.booked low)
    exact (List.eraseIdx_sublist _ _).map _

theorem SendSide.restartIfEmpty {len : Nat} (side : s.SendSide len) :
    (s.restartIfEmpty len).SendSide len := by
  unfold AckClock.restartIfEmpty
  split
  · rename_i empty
    have none : s.flights = [] := by
      cases flights : s.flights with
      | nil => rfl
      | cons u rest =>
          have positive := side.positive u (flights ▸ List.mem_cons_self)
          have sum := side.inflight
          rw [flights, List.map_cons, List.sum_cons] at sum
          omega
    refine ⟨side.positive, side.inflight, side.past, Nat.le_refl _, side.sorted, ?_, side.booked,
      side.counted, side.samples⟩
    intro u present
    rw [none] at present
    cases present
  · exact side

theorem SendSide.stamp {u : ClockedPiece} (side : s.SendSide u.len) (positive : 0 < u.len) :
    (s.stamp u).SendSide 0 := by
  have all := since_outstanding fun v inFlight => (side.sent v inFlight).1
  have past : ∀ entry ∈ (s.stamp u).stamped, entry.1 ≤ s.nowUs := by
    intro entry present
    rcases List.mem_append.mp present with earlier | new
    · exact side.past entry earlier
    · obtain rfl := List.mem_singleton.mp new
      exact Nat.le_refl _
  refine ⟨fun v present => ?_, ?_, past, side.clock, ?_, fun v present => ?_, fun low => ?_, ?_,
    fun x taken => (side.samples x taken).book _ _⟩
  · rcases List.mem_append.mp present with earlier | new
    · exact side.positive v earlier
    · obtain rfl := List.mem_singleton.mp new
      exact positive
  · change _ ≤ s.inflight
    simpa [AckClock.stamp] using side.inflight
  · refine List.pairwise_append.mpr ⟨side.sorted, List.pairwise_singleton _ _, ?_⟩
    intro v earlier w new
    obtain rfl := List.mem_singleton.mp new
    exact (side.sent v earlier).2
  · rcases List.mem_append.mp present with earlier | new
    · exact side.sent v earlier
    · obtain rfl := List.mem_singleton.mp new
      exact ⟨side.clock, Nat.le_refl _⟩
  · simp only [outstanding, AckClock.stamp, List.map_append, List.map_singleton, Ledger.since,
      Ledger.total_book]
    exact Nat.add_le_add_right (side.booked low) _
  · refine (side.counted.book _ _).append ?_
    -- What is in flight before the piece was all stamped since the clock of the path.
    have spans := side.booked s.firstTxUs
    rw [all] at spans
    have booked : Ledger.since s.stamped s.firstTxUs + u.len ≤
        Ledger.between (s.stamp u).stamped s.firstTxUs s.nowUs := by
      rw [← Ledger.since_book s.stamped u.len side.clock]
      exact Ledger.since_le_between past
    simp only [AckClock.stamp] at booked ⊢
    omega

theorem SendSide.release (side : s.SendSide 0) {u : ClockedPiece}
    (oldest : s.flights[0]? = some u) :
    ((s.removeFlight 0).releasePiece cfg u).SendSide 0 := by
  have removed := side.removeFlight oldest
  have released := @releasePiece_released cfg (s.removeFlight 0) u
  generalize (s.removeFlight 0).releasePiece cfg u = t at released
  have clock : t.nowUs = s.nowUs := congrArg (max · 1) released.now
  have stamped : t.stamped = s.stamped := released.stamped
  have present := List.mem_of_getElem? oldest
  obtain ⟨rest, flights⟩ : ∃ rest, s.flights = u :: rest := by
    cases flights : s.flights with
    | nil => rw [flights] at oldest; cases oldest
    | cons v rest =>
        rw [flights] at oldest
        exact ⟨rest, by rw [Option.some.inj oldest]⟩
  have later : t.flights = rest := by
    rw [released.flights]
    change s.flights.eraseIdx 0 = rest
    rw [flights]
    rfl
  have counted := side.counted
  rw [flights] at counted
  have sorted := side.sorted
  rw [flights, List.pairwise_cons] at sorted
  have first : ∀ bound, s.firstTxUs ≤ bound → u.sentUs ≤ bound → t.firstTxUs ≤ bound := by
    intro bound before after
    rw [released.firstTx]
    split
    · exact before
    · exact max_le before after
  refine ⟨?_, ?_, ?_, ?_, ?_, ?_, ?_, ?_, fun x taken => ?_⟩
  · rw [later]
    exact fun v kept => side.positive v (flights ▸ List.mem_cons_of_mem _ kept)
  · rw [released.inflight, released.flights]
    exact Nat.le_sub_of_add_le removed.inflight
  · rw [stamped, clock]
    exact side.past
  · rw [clock]
    exact first _ side.clock (side.sent u present).2
  · rw [later]
    exact sorted.2
  · rw [later, clock]
    intro v kept
    have bounds := side.sent v (flights ▸ List.mem_cons_of_mem _ kept)
    exact ⟨first _ bounds.1 (sorted.1 v kept), bounds.2⟩
  · intro low
    have before := removed.booked low
    simp only [outstanding] at before ⊢
    rw [released.flights, stamped]
    exact before
  · rw [later, stamped, released.delivered]
    exact counted.2.mono (Nat.mod_le _ _)
  · rw [stamped]
    rw [released.samples] at taken
    rcases List.mem_append.mp taken with earlier | new
    · exact side.samples x earlier
    · obtain ⟨-, -, sentUs, -, -, span, rate⟩ := sampled_spec (Option.mem_toList.mp new)
      have reaches : x.sentUs - x.dt ≤ u.firstTxAtSendUs := by
        have sendSide : u.sentUs - u.firstTxAtSendUs ≤ x.dt := span ▸ le_max_right _ _
        omega
      calc x.rate * x.dt ≤ 1000000 * (s.delivered + u.len - u.deliveredAtSend) := rate
        _ ≤ 1000000 * s.stamped.between u.firstTxAtSendUs u.sentUs :=
          Nat.mul_le_mul_left _ (Nat.sub_le_iff_le_add'.mpr counted.1)
        _ ≤ 1000000 * s.stamped.between (x.sentUs - x.dt) x.sentUs := by
          rw [sentUs] at reaches ⊢
          exact Nat.mul_le_mul_left _ (Ledger.between_antitone _ reaches _)

/-- An ACK takes the piece that was stamped first, no wait for the queue ends on a piece that was
moved meanwhile, and what is charged to the path covers the pieces in flight on it. -/
def acksInOrder (s : AckClock) : ClockAction → Prop
  | .ack index => index = 0
  | .charge inflight => (s.flights.map ClockedPiece.len).sum ≤ inflight
  | .strayStamp len => len = 0
  | .foreignStamp _ _ => False
  | _ => True

instance (s : AckClock) (action : ClockAction) : Decidable (s.acksInOrder action) := by
  cases action <;> unfold acksInOrder <;> infer_instance

theorem SendSide.observe (side : s.SendSide 0) {path : Path} (taken : s.observe path = some t) :
    t.SendSide 0 := by
  unfold AckClock.observe at taken
  split at taken
  · rename_i same
    cases taken
    exact ⟨side.positive, side.inflight.trans_eq same.symm, side.past, side.clock, side.sorted,
      side.sent, side.booked, side.counted, side.samples⟩
  · cases taken

theorem SendSide.step (side : s.SendSide 0) {action : ClockAction}
    (inOrder : s.acksInOrder action) (taken : s.step cfg action = some t) : t.SendSide 0 := by
  cases action with
  | elapse us =>
      cases taken
      have later : s.nowUs ≤ max (s.now + us) 1 := max_le_max (Nat.le_add_right _ _) (Nat.le_refl 1)
      exact ⟨side.positive, side.inflight, fun entry booked => (side.past entry booked).trans later,
        side.clock.trans later, side.sorted,
        fun u present => ⟨(side.sent u present).1, (side.sent u present).2.trans later⟩,
        side.booked, side.counted, side.samples⟩
  | send len lastSent =>
      simp only [AckClock.step] at taken
      split at taken
      · rename_i stamped
        cases taken
        exact SendSide.stamp (u := unstamped len false lastSent)
          (side.setInflight len).restartIfEmpty
          stamped.1
      · cases taken
  | enqueued index =>
      simp only [AckClock.step, Option.bind_eq_bind, Option.bind_eq_some_iff] at taken
      obtain ⟨u, found, restamped⟩ := taken
      cases restamped
      exact SendSide.stamp (u := { u with lastSent := s.now })
        (side.removeFlight found).restartIfEmpty (side.positive u (List.mem_of_getElem? found))
  | rehome len =>
      simp only [AckClock.step] at taken
      split at taken
      · rename_i positive
        cases taken
        exact SendSide.stamp (u := unstamped len true s.now) (side.setInflight len) positive
      · cases taken
  | leave index =>
      simp only [AckClock.step, Option.bind_eq_bind, Option.bind_eq_some_iff] at taken
      obtain ⟨u, found, left⟩ := taken
      cases left
      have removed := side.removeFlight found
      refine ⟨removed.positive, ?_, removed.past, removed.clock, removed.sorted, removed.sent,
        removed.booked, removed.counted, removed.samples⟩
      exact Nat.le_sub_of_add_le removed.inflight
  | charge inflight =>
      cases taken
      exact ⟨side.positive, inOrder, side.past, side.clock, side.sorted, side.sent, side.booked,
        side.counted, side.samples⟩
  | migrate len =>
      simp only [AckClock.step] at taken
      split at taken
      · rename_i positive
        cases taken
        exact SendSide.stamp (u := unstamped len true s.now) (side.setInflight len).restartIfEmpty
          positive
      · cases taken
  | resend index =>
      simp only [AckClock.step, Option.bind_eq_bind, Option.bind_eq_some_iff] at taken
      obtain ⟨u, found, restamped⟩ := taken
      cases restamped
      have removed := side.removeFlight found
      exact SendSide.stamp (u := { u with lastSent := s.now }) removed
        (side.positive u (List.mem_of_getElem? found))
  | strayStamp len =>
      obtain rfl : len = 0 := inOrder
      cases taken
      exact side.restartIfEmpty
  | foreignStamp => cases inOrder
  | ack index =>
      obtain rfl : index = 0 := inOrder
      simp only [AckClock.step, Option.bind_eq_bind, Option.bind_eq_some_iff] at taken
      obtain ⟨u, found, acked⟩ := taken
      cases acked
      exact side.release found
  | recordRtt sample path =>
      have fed : (s.noteLoopRtt sample).SendSide 0 :=
        ⟨side.positive, side.inflight, side.past, side.clock, side.sorted, side.sent, side.booked,
          side.counted, side.samples⟩
      exact fed.observe taken
  | budgetLimited =>
      cases taken
      exact ⟨side.positive, side.inflight, side.past, side.clock, side.sorted, side.sent,
        side.booked, side.counted, side.samples⟩
  | observe path => exact side.observe taken

theorem sendSide_of_inOrder (reachable : (machine cfg).ReachableWhen acksInOrder s) :
    s.SendSide 0 := by
  refine reachable.invariant_of (fun s => s.SendSide 0) (fun _ _ => trivial) ?_
    fun _ _ _ _ side inOrder taken => side.step inOrder taken
  rintro _ ⟨now, path, floor, ceil, -, rfl⟩
  exact ⟨by simp, Nat.zero_le _, by simp, Nat.zero_le _, .nil, by simp, fun _ => Nat.le_refl _,
    trivial, by simp⟩

/-- As long as `acksInOrder` holds of a path's steps, hedged, moved away and waiting pieces among
them, no rate sample is more than was stamped on the path in an interval as long as the sample's,
up to the stamp of its piece. -/
theorem rate_samples_stamped (reachable : (machine cfg).ReachableWhen acksInOrder s) :
    ∀ x ∈ s.samples, x.rate * x.dt ≤ 1000000 * s.stamped.between (x.sentUs - x.dt) x.sentUs :=
  (sendSide_of_inOrder reachable).samples

theorem rate_samples_stamped_coalesced :
    ∃ s, (machine .standard).runWhen acksInOrder quiet coalesced = some s ∧
      s.samples.map RateSample.rate = [833333, 1666666] ∧
      ∀ x ∈ s.samples, x.rate * x.dt ≤ 1000000 * s.stamped.between (x.sentUs - x.dt) x.sentUs := by
  have history : ((machine .standard).runWhen acksInOrder quiet coalesced).map
      (fun s => s.samples.map RateSample.rate) = some [833333, 1666666] := by decide +kernel
  obtain ⟨s, ran, rates⟩ := Option.map_eq_some_iff.mp history
  have begins : (machine .standard).ReachableWhen acksInOrder quiet :=
    .start ⟨_, _, _, _, rfl, rfl⟩
  exact ⟨s, ran, rates, rate_samples_stamped (begins.runWhen ran)⟩

/-- A large piece held back by a hole of its stream is acknowledged after a later small one: the
next sample counts it, though its interval begins with the small one. -/
def heldBack : List ClockAction :=
  [.send 10000 1000000, .elapse 100000, .send 100 1100000, .elapse 9000, .ack 1,
    .elapse 10000, .send 100 1119000, .elapse 1000, .ack 0, .elapse 5000, .ack 0]

theorem rate_beyond_sending :
    ∃ s, (machine .standard).run quiet heldBack = some s ∧ ∃ x ∈ s.samples,
      1000000 * s.stamped.between (x.sentUs - x.dt) x.sentUs < x.rate * x.dt := by
  have history : ((machine .standard).run quiet heldBack).map (fun s => (s.samples, s.stamped)) =
      some ([⟨1109000, 1100000, 109000, 9000, 917⟩, ⟨1120000, 1000000, 120000, 9000, 84166⟩,
        ⟨1125000, 1119000, 19000, 9000, 531578⟩],
        [(1000000, 10000), (1100000, 100), (1119000, 100)]) := by decide +kernel
  obtain ⟨s, ran, made⟩ := Option.map_eq_some_iff.mp history
  obtain ⟨samples, stamped⟩ := Prod.mk.inj made
  refine ⟨s, ran, ⟨1125000, 1119000, 19000, 9000, 531578⟩, by simp [samples], ?_⟩
  rw [stamped]
  decide

end AckClock

end NyaLink
