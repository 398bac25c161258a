import NyaLink.Library.Machine
import NyaLink.Session.Scheduler

/-!
# The memory guard of the receive caps

The receive-cap controller over all streams of a session.  The streams share one
sum of what their caps hold above the floor; the tuning of a stream moves the sum
by what it moves the cap, and the last holder of a stream's state gives its share
back.  A stream's share is counted as long as its state is not dropped, whether or
not the stream is still in the table.
-/

namespace NyaLink

/-- The stream states that are not dropped yet, and the sum the guard keeps of them. -/
structure CapGuard where
  floor : Nat
  chan : Nat
  streams : OrdMap Nat StreamState
  recvCapExtra : Nat
  deriving DecidableEq

inductive CapAction where
  | add (id : Nat)
  | change (id : Nat) (after : StreamState)
  /-- `tune_recv_cap`, with this target and so many alive paths. -/
  | tune (id target alive : Nat)
  | drop (id : Nat)
  deriving DecidableEq

namespace CapGuard

def ceil (g : CapGuard) : Nat := min (g.floor * g.chan) u32Max

def addStream (g : CapGuard) (id : Nat) : Option CapGuard :=
  match g.streams.get? id with
  | some _ => none
  | none => some { g with streams := g.streams.insert id (.new id g.floor g.chan) }

def changeStream (g : CapGuard) (id : Nat) (after : StreamState) : Option CapGuard :=
  match g.streams.get? id with
  | none => none
  | some st =>
      if after.recvCap = st.recvCap ∧ after.initialWindow = st.initialWindow ∧
          after.inbound.capacity = st.inbound.capacity then
        some { g with streams := g.streams.modify id fun _ => after }
      else none

def sessionRoom (g : CapGuard) (st : StreamState) (alive : Nat) : Nat :=
  satMul alive st.capCeil - g.recvCapExtra

/-- `tune_recv_cap_sampled`, with the target it computed. -/
def tuneRecvCap (g : CapGuard) (id target alive : Nat) : Option CapGuard :=
  match g.streams.get? id with
  | none => none
  | some st =>
      if g.floor ≤ target ∧ target ≤ g.ceil then
        let tuned := st.tuneRecvCap ⟨target, g.sessionRoom st alive⟩
        let old := clamp st.recvCap st.initialWindow st.capCeil
        some { g with
          streams := g.streams.modify id fun _ => tuned
          recvCapExtra :=
            if old < tuned.recvCap then g.recvCapExtra + (tuned.recvCap - old)
            else g.recvCapExtra - (old - tuned.recvCap) }
      else none

/-- `Drop for StreamState`. -/
def dropStream (g : CapGuard) (id : Nat) : Option CapGuard :=
  match g.streams.get? id with
  | none => none
  | some st =>
      some { g with
        streams := g.streams.erase id
        recvCapExtra := g.recvCapExtra - (st.recvCap - st.initialWindow) }

def step (g : CapGuard) : CapAction → Option CapGuard
  | .add id => g.addStream id
  | .change id after => g.changeStream id after
  | .tune id target alive => g.tuneRecvCap id target alive
  | .drop id => g.dropStream id

/-- A session without streams: the window is a `u32`, and so is the depth of its channels. -/
def Initial (g : CapGuard) : Prop :=
  g.floor ≤ u32Max ∧ 0 < g.chan ∧ g.chan ≤ u32Max ∧ g.streams = .empty ∧ g.recvCapExtra = 0

def machine : Machine CapGuard CapAction := ⟨Initial, step⟩

/-! ## One stream -/

/-- A stream of this session, with its cap within the bounds. -/
structure Bounded (g : CapGuard) (st : StreamState) : Prop where
  initialWindow : st.initialWindow = g.floor
  capacity : st.inbound.capacity = g.chan
  above : g.floor ≤ st.recvCap
  below : st.recvCap ≤ g.ceil

theorem Bounded.capCeil {g : CapGuard} {st : StreamState} (bounded : Bounded g st) :
    st.capCeil = g.ceil := by
  rw [StreamState.capCeil, bounded.initialWindow, bounded.capacity, ceil]

theorem clamp_eq_self {value low high : Nat} (above : low ≤ value) (below : value ≤ high) :
    clamp value low high = value := by
  simp only [clamp]
  split_ifs <;> omega

theorem Bounded.clamped {g : CapGuard} {st : StreamState} (bounded : Bounded g st) :
    clamp st.recvCap st.initialWindow st.capCeil = st.recvCap := by
  apply clamp_eq_self
  · rw [bounded.initialWindow]
    exact bounded.above
  · rw [bounded.capCeil]
    exact bounded.below

theorem ceil_le_u32Max (g : CapGuard) : g.ceil ≤ u32Max := min_le_right _ _

/-- What one tuning does to a cap. -/
structure Tuned (g : CapGuard) (st : StreamState) (target room cap : Nat) : Prop where
  above : g.floor ≤ cap
  below : cap ≤ g.ceil
  granted : cap ≤ st.recvCap + room
  held : min st.recvCap (st.bufferedIn + st.recvBuffered) ≤ cap
  behind : cap < st.recvCap → st.recvCap < 2 * (st.bufferedIn + st.inOrderHeld)

theorem Bounded.tuned {g : CapGuard} {st : StreamState} (bounded : Bounded g st) {target : Nat}
    (room : Nat) (low : g.floor ≤ target) (high : target ≤ g.ceil) :
    Tuned g st target room (st.tuneRecvCap ⟨target, room⟩).recvCap := by
  have above := bounded.above
  have below := bounded.below
  have fits := g.ceil_le_u32Max
  simp only [StreamState.tuneRecvCap, bounded.clamped]
  rw [bounded.initialWindow, bounded.capCeil]
  by_cases behind : st.recvCap / 2 < st.bufferedIn + st.inOrderHeld
  · -- The application is behind: the cap may shrink, not below what is held.
    rw [if_pos behind]
    constructor <;> simp only [clamp] <;> split_ifs <;> omega
  · rw [if_neg behind]
    constructor <;> simp only [clamp] <;> split_ifs <;> omega

/-! ## The shared sum -/

def capExtra (g : CapGuard) : Nat := g.streams.total fun _ st => st.recvCap - g.floor

structure Sound (g : CapGuard) : Prop where
  ordered : g.floor ≤ g.ceil
  bounded : ∀ id st, g.streams.get? id = some st → Bounded g st
  sum : g.recvCapExtra = g.capExtra

theorem sound_initial {g : CapGuard} (begins : Initial g) : Sound g := by
  obtain ⟨window, deep, -, streams, extra⟩ := begins
  refine ⟨?_, ?_, ?_⟩
  · exact le_min (Nat.le_mul_of_pos_right g.floor deep) window
  · intro id st found
    rw [streams] at found
    cases found
  · rw [extra, capExtra, streams, OrdMap.total_empty]

theorem bounded_new {g : CapGuard} (ordered : g.floor ≤ g.ceil) (id : Nat) :
    Bounded g (.new id g.floor g.chan) :=
  ⟨rfl, rfl, le_refl _, ordered⟩

theorem Sound.replace {g : CapGuard} (sound : Sound g) {id : Nat} {st after : StreamState}
    {extra : Nat} (found : g.streams.get? id = some st) (bounded : Bounded g after)
    (moved : extra + (st.recvCap - g.floor) = g.recvCapExtra + (after.recvCap - g.floor)) :
    Sound { g with
      streams := g.streams.modify id fun _ => after
      recvCapExtra := extra } := by
  refine ⟨sound.ordered, ?_, ?_⟩
  · intro other st' found'
    rcases OrdMap.get?_modify_cases found' with ⟨-, -, -, rfl⟩ | ⟨-, before⟩
    · exact ⟨bounded.initialWindow, bounded.capacity, bounded.above, bounded.below⟩
    · have kept := sound.bounded other st' before
      exact ⟨kept.initialWindow, kept.capacity, kept.above, kept.below⟩
  · have total := OrdMap.total_modify_of_some (fun _ st => st.recvCap - g.floor)
      (fun _ => after) found
    have sum := sound.sum
    unfold capExtra at sum ⊢
    dsimp only at total ⊢
    omega

theorem sound_step {g next : CapGuard} {action : CapAction} (sound : Sound g)
    (taken : g.step action = some next) : Sound next := by
  cases action with
  | add id =>
      simp only [step, addStream] at taken
      split at taken
      · cases taken
      · rename_i missing
        obtain rfl := Option.some.inj taken
        have fresh := bounded_new sound.ordered id
        refine ⟨sound.ordered, ?_, ?_⟩
        · intro other st found
          rcases OrdMap.get?_insert_cases found with ⟨-, rfl⟩ | before
          · exact ⟨fresh.initialWindow, fresh.capacity, fresh.above, fresh.below⟩
          · have kept := sound.bounded other st before
            exact ⟨kept.initialWindow, kept.capacity, kept.above, kept.below⟩
        · have sum := sound.sum
          unfold capExtra at sum ⊢
          rw [OrdMap.total_insert_of_none _ _ missing]
          simp only [StreamState.new, Nat.sub_self, Nat.add_zero]
          exact sum
  | change id after =>
      simp only [step, changeStream] at taken
      split at taken
      · cases taken
      · rename_i st found
        split at taken
        · rename_i kept
          obtain ⟨sameCap, sameWindow, sameDepth⟩ := kept
          obtain rfl := Option.some.inj taken
          have before := sound.bounded id st found
          apply sound.replace found
          · exact ⟨sameWindow.trans before.initialWindow, sameDepth.trans before.capacity,
              sameCap ▸ before.above, sameCap ▸ before.below⟩
          · rw [sameCap]
        · cases taken
  | tune id target alive =>
      simp only [step, tuneRecvCap] at taken
      split at taken
      · cases taken
      · rename_i st found
        split at taken
        · rename_i between
          obtain rfl := Option.some.inj taken
          have before := sound.bounded id st found
          have tuned := before.tuned (g.sessionRoom st alive) between.1 between.2
          have kept : Bounded g (st.tuneRecvCap ⟨target, g.sessionRoom st alive⟩) :=
            ⟨before.initialWindow, before.capacity, tuned.above, tuned.below⟩
          have share : st.recvCap - g.floor ≤ g.recvCapExtra := by
            rw [sound.sum]
            exact OrdMap.weight_le_total (fun _ st => st.recvCap - g.floor) found
          have above := before.above
          have aboveTuned := tuned.above
          apply sound.replace found kept
          rw [before.clamped]
          split_ifs <;> omega
        · cases taken
  | drop id =>
      simp only [step, dropStream] at taken
      split at taken
      · cases taken
      · rename_i st found
        obtain rfl := Option.some.inj taken
        have before := sound.bounded id st found
        refine ⟨sound.ordered, ?_, ?_⟩
        · intro other st' found'
          have kept := sound.bounded other st' (OrdMap.get?_erase_eq_some_iff.mp found').2
          exact ⟨kept.initialWindow, kept.capacity, kept.above, kept.below⟩
        · have erased := OrdMap.total_erase_of_some (fun _ st => st.recvCap - g.floor) found
          have sum := sound.sum
          unfold capExtra at sum ⊢
          rw [before.initialWindow]
          dsimp only at erased ⊢
          omega

theorem sound_of_reachable {g : CapGuard} (reachable : machine.Reachable g) : Sound g :=
  reachable.invariant Sound (fun _ begins => sound_initial begins)
    fun _ _ _ sound taken => sound_step sound taken

theorem tune_spec {g next : CapGuard} (sound : Sound g) {id target alive : Nat}
    (taken : g.step (.tune id target alive) = some next) :
    next.recvCapExtra ≤ max g.recvCapExtra (alive * g.ceil) ∧
      ∀ other st after, g.streams.get? other = some st → next.streams.get? other = some after →
        min st.recvCap (st.bufferedIn + st.recvBuffered) ≤ after.recvCap ∧
        (after.recvCap < st.recvCap → st.recvCap < 2 * (st.bufferedIn + st.inOrderHeld)) := by
  simp only [step, tuneRecvCap] at taken
  split at taken
  · cases taken
  · rename_i tunedSt found
    split at taken
    · rename_i between
      obtain rfl := Option.some.inj taken
      have before := sound.bounded id tunedSt found
      have tuned := before.tuned (g.sessionRoom tunedSt alive) between.1 between.2
      constructor
      · have granted := tuned.granted
        have room : g.sessionRoom tunedSt alive ≤ alive * g.ceil - g.recvCapExtra := by
          rw [sessionRoom, before.capCeil]
          exact Nat.sub_le_sub_right (min_le_left _ _) _
        rw [before.clamped]
        dsimp only
        split_ifs <;> omega
      · intro other st after foundOther foundAfter
        rcases OrdMap.get?_modify_cases foundAfter with ⟨rfl, -, -, rfl⟩ | ⟨-, foundBefore⟩
        · obtain rfl : tunedSt = st := Option.some.inj (found.symm.trans foundOther)
          exact ⟨tuned.held, tuned.behind⟩
        · obtain rfl : st = after := Option.some.inj (foundOther.symm.trans foundBefore)
          exact ⟨min_le_left _ _, fun lower => absurd lower (lt_irrefl _)⟩
    · cases taken

/-- The caps stay within their bounds, the sum is what they hold above the floor, and a tuning
respects the guard and what the stream holds. -/
theorem recv_cap_guarded {g : CapGuard} (reachable : machine.Reachable g) :
    (∀ id st, g.streams.get? id = some st → g.floor ≤ st.recvCap ∧ st.recvCap ≤ g.ceil) ∧
    g.recvCapExtra = (g.streams.total fun _ st => st.recvCap - g.floor) ∧
    ∀ id target alive next, g.step (.tune id target alive) = some next →
      next.recvCapExtra ≤ max g.recvCapExtra (alive * g.ceil) ∧
      ∀ other st after, g.streams.get? other = some st →
        next.streams.get? other = some after →
        min st.recvCap (st.bufferedIn + st.recvBuffered) ≤ after.recvCap ∧
        (after.recvCap < st.recvCap → st.recvCap < 2 * (st.bufferedIn + st.inOrderHeld)) := by
  have sound := sound_of_reachable reachable
  refine ⟨fun id st found => ?_, sound.sum, fun id target alive next taken => ?_⟩
  · have bounded := sound.bounded id st found
    exact ⟨bounded.above, bounded.below⟩
  · exact tune_spec sound taken

/-- Of two streams under one alive path, the first takes what the guard allows. -/
theorem recv_cap_guarded_shared : ∃ g, machine.run ⟨1000, 64, .empty, 0⟩
    [.add 1, .add 2, .tune 1 64000 1, .tune 2 3000 1] = some g ∧
    g.recvCapExtra = (g.streams.total fun _ st => st.recvCap - g.floor) ∧
    g.recvCapExtra = 64000 := by
  have replayed : ∃ g, machine.run ⟨1000, 64, .empty, 0⟩
      [.add 1, .add 2, .tune 1 64000 1, .tune 2 3000 1] = some g ∧ g.recvCapExtra = 64000 :=
    ⟨_, rfl, by decide⟩
  obtain ⟨g, replay, extra⟩ := replayed
  have begins : machine.Reachable ⟨1000, 64, .empty, 0⟩ :=
    .start ⟨by decide, by decide, by decide, rfl, rfl⟩
  exact ⟨g, replay, (recv_cap_guarded (begins.run replay)).2.1, extra⟩

end CapGuard

end NyaLink
