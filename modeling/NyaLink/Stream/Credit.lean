import NyaLink.Library.Machine
import NyaLink.Stream.EndOfFile

/-!
# Window credit

`buffered_in` counts the bytes the inbound channel was given and the application
has not read.  The drain raises it after the chunk is in the channel, the pump
lowers it after it took the chunk out, and the two tasks are not ordered: every
atomic access is a step of its own here.  The drains of one stream exclude each
other by the lock on `recv_buf`.
-/

namespace NyaLink

/-- Where the drain that holds the lock on `recv_buf` is. -/
inductive DrainPhase where
  | unlocked
  | locked
  | sent (n : Nat)
  /-- `recv_buffered` and `recv_next` are moved past the chunk. -/
  | advanced (n : Nat)
  deriving DecidableEq, Repr

/-- Bytes in the channel that `buffered_in` does not count yet. -/
def DrainPhase.pending : DrainPhase → Nat
  | .sent n => n
  | .advanced n => n
  | _ => 0

structure Crediting where
  st : StreamState
  drain : DrainPhase
  taken : Option Nat
  deriving DecidableEq

inductive CreditAction where
  | arrive (path : Nat) (data : StreamData)
  | lock
  | sendChunk
  | advance
  | credit
  | unlock
  | tune (inputs : CapInputs)
  | take
  /-- The saturating subtraction of `note_app_read`. -/
  | report
  deriving DecidableEq, Repr

namespace Crediting

def new (id initialWindow chan : Nat) : Crediting := ⟨.new id initialWindow chan, .unlocked, none⟩

def drainStops (st : StreamState) : Bool :=
  match st.recvBuf.get? st.recvNext with
  | none => true
  | some chunk => (st.inbound.trySend (.data chunk)).isNone

def sendChunk (s : Crediting) : Option Crediting :=
  match s.drain, s.st.recvBuf.get? s.st.recvNext with
  | .locked, some chunk =>
      (s.st.inbound.trySend (.data chunk)).map fun inbound =>
        { s with
          st := { s.st with recvBuf := s.st.recvBuf.erase s.st.recvNext, inbound := inbound }
          drain := .sent chunk.length }
  | _, _ => none

def advance (s : Crediting) : Option Crediting :=
  match s.drain with
  | .sent n =>
      some { s with
        st := { s.st with recvBuffered := s.st.recvBuffered - n, recvNext := s.st.recvNext + n }
        drain := .advanced n }
  | _ => none

def credit (s : Crediting) : Option Crediting :=
  match s.drain with
  | .advanced n =>
      some { s with st := { s.st with bufferedIn := s.st.bufferedIn + n }, drain := .locked }
  | _ => none

def take (s : Crediting) : Option Crediting :=
  match s.taken, s.st.inbound.queue with
  | none, .data bytes :: rest =>
      some { s with
        st := { s.st with inbound := { s.st.inbound with queue := rest } }
        taken := some bytes.length }
  | _, _ => none

def report (s : Crediting) : Option Crediting :=
  match s.taken with
  | some n => some { s with st := { s.st with bufferedIn := s.st.bufferedIn - n }, taken := none }
  | none => none

def step (s : Crediting) : CreditAction → Option Crediting
  | .arrive path data =>
      if s.drain = .unlocked then some { s with st := s.st.bufferArrival path data } else none
  | .lock => if s.drain = .unlocked then some { s with drain := .locked } else none
  | .sendChunk => s.sendChunk
  | .advance => s.advance
  | .credit => s.credit
  | .unlock =>
      if s.drain = .locked ∧ drainStops s.st = true then some { s with drain := .unlocked }
      else none
  | .tune inputs => some { s with st := s.st.tuneRecvCap inputs }
  | .take => s.take
  | .report => s.report

def Initial (s : Crediting) : Prop :=
  ∃ id initialWindow chan, 1 ≤ initialWindow ∧ initialWindow ≤ u32Max ∧ 1 ≤ chan ∧
    s = new id initialWindow chan

def machine : Machine Crediting CreditAction := ⟨Initial, step⟩

/-- The channel is empty, and neither a drain nor the pump is between its two steps. -/
def AtRest (s : Crediting) : Prop :=
  s.st.inbound.queue = [] ∧ (s.drain = .unlocked ∨ s.drain = .locked) ∧ s.taken = none

def countedFirst (s : Crediting) : CreditAction → Bool
  | .report => s.taken.all fun n => decide (n ≤ s.st.bufferedIn)
  | _ => true

/-! ## What is counted and what waits -/

def counted (s : Crediting) : Nat := s.st.bufferedIn + s.drain.pending

/-- Bytes between the drain and the end of `note_app_read`. -/
def waiting (s : Crediting) : Nat := s.st.inbound.queuedBytes + s.taken.getD 0

theorem counted_of_atRest {s : Crediting} (rest : s.AtRest) : s.counted = s.st.bufferedIn := by
  rcases rest.2.1 with drain | drain
  · simp [counted, drain, DrainPhase.pending]
  · simp [counted, drain, DrainPhase.pending]

theorem waiting_of_atRest {s : Crediting} (rest : s.AtRest) : s.waiting = 0 := by
  simp [waiting, Inbox.queuedBytes, rest.1, rest.2.2]

/-- The bounds of the receive cap, which never leaves the range of a window on the wire. -/
structure Bounded (st : StreamState) : Prop where
  ceil : st.initialWindow ≤ st.capCeil
  cap : st.recvCap ≤ u32Max

theorem Bounded.of_same {before after : StreamState} (bounded : Bounded before)
    (window : after.initialWindow = before.initialWindow) (cap : after.recvCap = before.recvCap)
    (capacity : after.inbound.capacity = before.inbound.capacity) : Bounded after := by
  obtain ⟨ceil, held⟩ := bounded
  constructor
  · rw [StreamState.capCeil, window, capacity]
    exact ceil
  · rw [cap]
    exact held

theorem bufferArrival_same (st : StreamState) (path : Nat) (data : StreamData) :
    (st.bufferArrival path data).bufferedIn = st.bufferedIn ∧
      (st.bufferArrival path data).inbound = st.inbound ∧
      (st.bufferArrival path data).initialWindow = st.initialWindow ∧
      (st.bufferArrival path data).recvCap = st.recvCap := by
  simp only [StreamState.bufferArrival]
  split
  · exact ⟨rfl, rfl, rfl, rfl⟩
  · split
    · exact ⟨rfl, rfl, rfl, rfl⟩
    · split
      · exact ⟨rfl, rfl, rfl, rfl⟩
      · exact ⟨rfl, rfl, rfl, rfl⟩

/-- What a step does to the account: nothing but the report of a chunk that was not counted yet
moves the two sides apart. -/
theorem step_account {s next : Crediting} {action : CreditAction}
    (taken : s.step action = some next) :
    next.counted + s.waiting = next.waiting + s.counted ∨
      ∃ n, action = .report ∧ s.taken = some n ∧ next.waiting + n = s.waiting ∧
        next.counted = s.st.bufferedIn - n + s.drain.pending := by
  cases action with
  | arrive path data =>
      simp only [step] at taken
      split at taken
      · cases taken
        obtain ⟨bufferedIn, inbound, _, _⟩ := bufferArrival_same s.st path data
        apply Or.inl
        simp only [counted, waiting, bufferedIn, inbound]
        omega
      · cases taken
  | lock =>
      simp only [step] at taken
      split at taken
      · rename_i drain
        cases taken
        apply Or.inl
        simp only [counted, waiting, drain, DrainPhase.pending]
        omega
      · cases taken
  | sendChunk =>
      simp only [step, sendChunk] at taken
      split at taken
      · rename_i chunk drain head
        obtain ⟨inbound, sent, rfl⟩ := Option.map_eq_some_iff.mp taken
        obtain rfl := Inbox.trySend_eq_some sent
        apply Or.inl
        simp [counted, waiting, drain, DrainPhase.pending, Inbox.queuedBytes, Inbound.payload]
        omega
      · cases taken
  | advance =>
      simp only [step, advance] at taken
      split at taken
      · rename_i n drain
        cases taken
        apply Or.inl
        simp only [counted, waiting, drain, DrainPhase.pending]
        omega
      · cases taken
  | credit =>
      simp only [step, credit] at taken
      split at taken
      · rename_i n drain
        cases taken
        apply Or.inl
        simp only [counted, waiting, drain, DrainPhase.pending]
        omega
      · cases taken
  | unlock =>
      simp only [step] at taken
      split at taken
      · rename_i stops
        cases taken
        apply Or.inl
        simp only [counted, waiting, stops.1, DrainPhase.pending]
        omega
      · cases taken
  | tune inputs =>
      cases taken
      apply Or.inl
      simp only [counted, waiting, StreamState.tuneRecvCap]
      omega
  | take =>
      simp only [step, take] at taken
      split at taken
      · rename_i bytes rest idle queue
        cases taken
        apply Or.inl
        simp [counted, waiting, Inbox.queuedBytes, queue, idle, Inbound.payload]
        omega
      · cases taken
  | report =>
      simp only [step, report] at taken
      split at taken
      · rename_i n held
        cases taken
        refine .inr ⟨n, rfl, held, ?_, rfl⟩
        simp only [waiting, held, Option.getD_none, Option.getD_some]
        omega
      · cases taken

theorem bounded_step {s next : Crediting} {action : CreditAction} (bounded : Bounded s.st)
    (taken : s.step action = some next) : Bounded next.st := by
  cases action with
  | arrive path data =>
      simp only [step] at taken
      split at taken
      · cases taken
        obtain ⟨_, inbound, window, cap⟩ := bufferArrival_same s.st path data
        exact bounded.of_same window cap (congrArg Inbox.capacity inbound)
      · cases taken
  | lock =>
      simp only [step] at taken
      split at taken
      · cases taken
        exact bounded
      · cases taken
  | sendChunk =>
      simp only [step, sendChunk] at taken
      split at taken
      · obtain ⟨inbound, sent, rfl⟩ := Option.map_eq_some_iff.mp taken
        obtain rfl := Inbox.trySend_eq_some sent
        exact bounded.of_same rfl rfl rfl
      · cases taken
  | advance =>
      simp only [step, advance] at taken
      split at taken
      · cases taken
        exact bounded.of_same rfl rfl rfl
      · cases taken
  | credit =>
      simp only [step, credit] at taken
      split at taken
      · cases taken
        exact bounded.of_same rfl rfl rfl
      · cases taken
  | unlock =>
      simp only [step] at taken
      split at taken
      · cases taken
        exact bounded
      · cases taken
  | tune inputs =>
      cases taken
      have clamped := StreamState.recvCap_tuneRecvCap_le bounded.ceil inputs
      exact ⟨bounded.ceil, clamped.trans (min_le_right _ _)⟩
  | take =>
      simp only [step, take] at taken
      split at taken
      · cases taken
        exact bounded.of_same rfl rfl rfl
      · cases taken
  | report =>
      simp only [step, report] at taken
      split at taken
      · cases taken
        exact bounded.of_same rfl rfl rfl
      · cases taken

theorem bounded_of_reachable {s : Crediting} (reachable : machine.Reachable s) :
    Bounded s.st := by
  refine reachable.invariant (fun s => Bounded s.st) ?_ fun _ _ _ bounded taken =>
    bounded_step bounded taken
  rintro _ ⟨id, initialWindow, chan, positive, fits, slots, rfl⟩
  constructor
  · exact le_min (Nat.le_mul_of_pos_right initialWindow slots) fits
  · exact fits

/-! ## No credit is lost -/

theorem balanced_step {s next : Crediting} {action : CreditAction}
    (balanced : s.counted = s.waiting) (inOrder : s.countedFirst action = true)
    (taken : s.step action = some next) : next.counted = next.waiting := by
  rcases step_account taken with moved | ⟨n, rfl, held, lighter, credited⟩
  · omega
  · simp only [countedFirst, held, Option.all_some, decide_eq_true_eq] at inOrder
    simp only [counted] at balanced
    omega

/-- While every chunk is counted before it is reported, an empty channel with no task between
its steps means that no byte of the window is held back. -/
theorem credit_returned {s : Crediting}
    (reachable : machine.ReachableWhen (fun s action => s.countedFirst action = true) s)
    (rest : s.AtRest) :
    s.st.bufferedIn = 0 ∧ s.st.advertisedWindow = s.st.recvCap - s.st.recvBuffered := by
  have balanced : s.counted = s.waiting := by
    clear rest
    induction reachable with
    | start begins =>
        obtain ⟨id, initialWindow, chan, _, _, _, rfl⟩ := begins
        rfl
    | step _ inOrder taken inductionHypothesis =>
        exact balanced_step inductionHypothesis inOrder taken
  have nothing : s.st.bufferedIn = 0 := by
    rw [← counted_of_atRest rest, balanced, waiting_of_atRest rest]
  have cap := (bounded_of_reachable reachable.reachable).cap
  refine ⟨nothing, ?_⟩
  simp only [StreamState.advertisedWindow, nothing]
  omega

/-- A chunk arrives, is drained, taken and reported, in the order the code is written in. -/
def inTurn : List CreditAction :=
  [.arrive 1 ⟨7, 0, [97]⟩, .lock, .sendChunk, .advance, .credit, .unlock, .take, .report]

theorem credit_returned_in_turn : ∃ s,
    machine.runWhen (fun s action => s.countedFirst action = true) (new 7 65536 4) inTurn =
      some s ∧ s.st.recvNext = 1 ∧ s.st.advertisedWindow = s.st.recvCap - s.st.recvBuffered := by
  have replayed : ∃ s, machine.runWhen (fun s action => s.countedFirst action = true)
      (new 7 65536 4) inTurn = some s ∧ s.st.recvNext = 1 ∧ s.AtRest :=
    ⟨_, rfl, rfl, rfl, .inl rfl, rfl⟩
  obtain ⟨s, replay, delivered, rest⟩ := replayed
  have begins : machine.ReachableWhen (fun s action => s.countedFirst action = true)
      (new 7 65536 4) := .start ⟨7, 65536, 4, by decide, by decide, by decide, rfl⟩
  exact ⟨s, replay, delivered, (credit_returned (begins.runWhen replay) rest).2⟩

/-- The pump takes and reports the chunk before the drain counts it. -/
theorem credit_leaks : ∃ s, machine.Reachable s ∧ s.AtRest ∧ s.st.bufferedIn = 1 ∧
    s.st.advertisedWindow + 1 = s.st.recvCap - s.st.recvBuffered := by
  have replayed : ∃ s, machine.run (new 7 65536 4) [.arrive 1 ⟨7, 0, [97]⟩, .lock, .sendChunk,
      .take, .report, .advance, .credit, .unlock] = some s ∧ s.AtRest ∧ s.st.bufferedIn = 1 ∧
      s.st.advertisedWindow + 1 = s.st.recvCap - s.st.recvBuffered :=
    ⟨_, rfl, ⟨rfl, .inl rfl, rfl⟩, rfl, rfl⟩
  obtain ⟨s, replay, rest, leaked, narrower⟩ := replayed
  have begins : machine.Reachable (new 7 65536 4) :=
    .start ⟨7, 65536, 4, by decide, by decide, by decide, rfl⟩
  exact ⟨s, begins.run replay, rest, leaked, narrower⟩

/-! ## A saturated subtraction is never made up for -/

theorem leak_step {s next : Crediting} {action : CreditAction} (leaked : s.waiting < s.counted)
    (taken : s.step action = some next) : next.waiting < next.counted := by
  rcases step_account taken with moved | ⟨n, rfl, held, lighter, credited⟩
  · omega
  · simp only [counted] at leaked
    omega

theorem leak_run {schedule : List CreditAction} {s final : Crediting}
    (leaked : s.waiting < s.counted) (replayed : machine.run s schedule = some final) :
    final.waiting < final.counted := by
  induction schedule generalizing s with
  | nil =>
      cases replayed
      exact leaked
  | cons action rest inductionHypothesis =>
      obtain ⟨next, taken, remaining⟩ := Option.bind_eq_some_iff.mp replayed
      exact inductionHypothesis (leak_step leaked taken) remaining

/-- After the first chunk that is reported before it was counted, no later state at rest has the
whole window again. -/
theorem credit_lost {s next final : Crediting} {action : CreditAction}
    {schedule : List CreditAction} (balanced : s.counted = s.waiting)
    (early : s.countedFirst action = false) (taken : s.step action = some next)
    (later : machine.run next schedule = some final) (rest : final.AtRest) :
    0 < final.st.bufferedIn := by
  have leaked : next.waiting < next.counted := by
    rcases step_account taken with moved | ⟨n, rfl, held, lighter, credited⟩
    · exfalso
      cases action with
      | report =>
          simp only [step, report] at taken
          split at taken
          · rename_i n held
            cases taken
            simp only [countedFirst, held, Option.all_some, decide_eq_false_iff_not] at early
            simp only [counted, waiting, held, Option.getD_none, Option.getD_some] at moved balanced
            omega
          · cases taken
      | _ => simp [countedFirst] at early
    · simp only [countedFirst, held, Option.all_some, decide_eq_false_iff_not] at early
      simp only [counted] at balanced
      omega
  have still := leak_run leaked later
  rw [counted_of_atRest rest, waiting_of_atRest rest] at still
  exact still

end Crediting

end NyaLink
