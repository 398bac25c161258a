import NyaLink.Library.Machine
import NyaLink.Library.OrdMap
import NyaLink.Proto.Frame

/-!
# ACK registers

Every path keeps one pending ACK a stream.  `store_ack` puts a new ACK in, the
writer takes some out, an interrupted write puts them back, and a failed path
hands its ACKs to another.  Every access to a register is one step, as the lock
on `pending_acks` makes it.

A stream is its `recv_next` here; the window and the SACK ranges of a new ACK
are left open, as is the choice of paths.  The number of a generation is
history.
-/

namespace NyaLink

/-- An ACK with the time it was generated at. -/
structure GenAck where
  gen : Nat
  ack : StreamAck
  deriving DecidableEq, Repr

structure AckPath where
  listed : Bool
  alive : Bool
  pendingAcks : OrdMap Nat GenAck
  inFlight : Option GenAck
  rest : List GenAck
  /-- What a running `path_failed` has taken. -/
  taken : Option (OrdMap Nat GenAck)
  deriving DecidableEq

/-- `moving` are the ACKs `merge_pending_acks` has not merged into their new path yet. -/
structure AckBoard where
  recvNext : OrdMap Nat Nat
  paths : OrdMap Nat AckPath
  moving : List (Nat × GenAck)
  generated : List GenAck
  deriving DecidableEq

inductive AckAction where
  | addPath (path : Nat)
  | advance (stream n : Nat)
  | sendAck (stream path window : Nat) (sack : List (Nat × Nat)) (fallback : List Nat)
  | takeAcks (path : Nat) (streams : List Nat)
  | popFront (path : Nat)
  | sent (path : Nat)
  | restoreAck (path : Nat)
  | pathFailed (path : Nat)
  /-- The second half of `path_failed`, once the path has left the table. -/
  | collectAcks (path : Nat) (alt : Option Nat)
  | pathExit (path : Nat) (alt : Option Nat)
  | mergeAck (index : Nat)
  deriving DecidableEq, Repr

/-- `merge_ack` on one register map. -/
def mergeAck (pending : OrdMap Nat GenAck) (a : GenAck) : OrdMap Nat GenAck :=
  match pending.get? a.ack.streamId with
  | none => pending.insert a.ack.streamId a
  | some held =>
      if a.ack.ackedOffset < held.ack.ackedOffset then pending
      else pending.insert a.ack.streamId a

/-- `path_failed` adds what it takes the second time to what it took first. -/
def collectAck (taken : OrdMap Nat GenAck) (entry : Nat × GenAck) : OrdMap Nat GenAck :=
  match taken.get? entry.1 with
  | none => taken.insert entry.1 entry.2
  | some held =>
      if entry.2.ack.ackedOffset ≤ held.ack.ackedOffset then taken
      else taken.insert entry.1 entry.2

/-- `take_acks` of these streams: the ACKs, and what stays. -/
def takeAcks (pending : OrdMap Nat GenAck) : List Nat → List GenAck × OrdMap Nat GenAck
  | [] => ([], pending)
  | stream :: rest =>
      let others := takeAcks (pending.erase stream) rest
      ((pending.get? stream).toList ++ others.1, others.2)

/-- Every ACK of the map comes from the list and is kept under its own stream. -/
def KnownMap (known : List GenAck) (acks : OrdMap Nat GenAck) : Prop :=
  ∀ stream a, acks.get? stream = some a → a ∈ known ∧ a.ack.streamId = stream

theorem knownMap_empty (known : List GenAck) : KnownMap known .empty := by
  intro stream a impossible
  cases impossible

theorem knownMap_insert {known : List GenAck} {acks : OrdMap Nat GenAck}
    (sound : KnownMap known acks) {a : GenAck} (inKnown : a ∈ known) :
    KnownMap known (acks.insert a.ack.streamId a) := by
  intro stream b found
  rcases OrdMap.get?_insert_cases found with ⟨same, rfl⟩ | before
  · exact ⟨inKnown, same.symm⟩
  · exact sound stream b before

theorem knownMap_mergeAck {known : List GenAck} {pending : OrdMap Nat GenAck}
    (sound : KnownMap known pending) {a : GenAck} (inKnown : a ∈ known) :
    KnownMap known (mergeAck pending a) := by
  unfold mergeAck
  split
  · exact knownMap_insert sound inKnown
  · split
    · exact sound
    · exact knownMap_insert sound inKnown

theorem offset_le_advanced (recvNext : OrdMap Nat Nat) (stream n other : Nat) :
    (recvNext.get? other).getD 0 ≤
      ((recvNext.insert stream ((recvNext.get? stream).getD 0 + n)).get? other).getD 0 := by
  by_cases same : other = stream
  · rw [same, OrdMap.get?_insert_self, Option.getD_some]
    exact Nat.le_add_right _ n
  · rw [OrdMap.get?_insert_of_ne _ _ same]

namespace AckPath

def new : AckPath := ⟨true, true, .empty, none, [], none⟩

/-- The ACK the dropped guard puts back first, and the guard without it. -/
def popGuard (p : AckPath) : Option (GenAck × AckPath) :=
  match p.inFlight, p.rest with
  | some a, _ => some (a, { p with inFlight := none })
  | none, a :: rest => some (a, { p with rest := rest })
  | none, [] => none

end AckPath

namespace AckBoard

def offsetOf (s : AckBoard) (stream : Nat) : Nat := (s.recvNext.get? stream).getD 0

def register (s : AckBoard) (path stream : Nat) : Option GenAck :=
  (s.paths.get? path).bind fun p => p.pendingAcks.get? stream

def setPath (s : AckBoard) (path : Nat) (p : AckPath) : AckBoard :=
  { s with paths := s.paths.insert path p }

/-- `store_ack` succeeds on a path that is listed and alive. -/
def storeAck (s : AckBoard) (path : Nat) (a : GenAck) : Option AckBoard :=
  match s.paths.get? path with
  | none => none
  | some p =>
      if p.listed && p.alive then
        some (s.setPath path { p with pendingAcks := p.pendingAcks.insert a.ack.streamId a })
      else none

/-- `send_ack`: the first of these paths that takes the ACK. -/
def storeFirst (s : AckBoard) (a : GenAck) : List Nat → AckBoard
  | [] => s
  | path :: others => (s.storeAck path a).getD (s.storeFirst a others)

def sendAck (s : AckBoard) (stream path window : Nat) (sack : List (Nat × Nat))
    (fallback : List Nat) : AckBoard :=
  let a : GenAck := ⟨s.generated.length, ⟨stream, s.offsetOf stream, window, sack⟩⟩
  { s with generated := a :: s.generated }.storeFirst a (path :: fallback)

def onPath (s : AckBoard) (path : Nat) (change : AckPath → Option AckPath) : Option AckBoard :=
  (s.paths.get? path).bind fun p => (change p).map fun after => s.setPath path after

/-- `merge_pending_acks` picks the path the ACKs go to, or drops them. -/
def mergePendingAcks (s : AckBoard) (alt : Option Nat) (acks : OrdMap Nat GenAck) : AckBoard :=
  match alt with
  | none => s
  | some dest => { s with moving := s.moving ++ acks.entries.map fun entry => (dest, entry.2) }

def step (s : AckBoard) : AckAction → Option AckBoard
  | .addPath path => if (s.paths.get? path).isSome then none else some (s.setPath path .new)
  | .advance stream n =>
      some { s with recvNext := s.recvNext.insert stream (s.offsetOf stream + n) }
  | .sendAck stream path window sack fallback =>
      some (s.sendAck stream path window sack fallback)
  | .takeAcks path streams => s.onPath path fun p =>
      if p.inFlight = none ∧ p.rest = [] then
        let result := takeAcks p.pendingAcks streams
        some { p with pendingAcks := result.2, rest := result.1 }
      else none
  | .popFront path => s.onPath path fun p =>
      match p.inFlight, p.rest with
      | none, a :: rest => some { p with inFlight := some a, rest := rest }
      | _, _ => none
  | .sent path => s.onPath path fun p => some { p with inFlight := none }
  | .restoreAck path => s.onPath path fun p => p.popGuard.map fun popped =>
      { popped.2 with pendingAcks := mergeAck popped.2.pendingAcks popped.1 }
  | .pathFailed path => s.onPath path fun p =>
      if p.alive then
        some { p with alive := false, taken := some p.pendingAcks, pendingAcks := .empty }
      else none
  | .collectAcks path alt =>
      (s.paths.get? path).bind fun p => p.taken.map fun taken =>
        (s.setPath path { p with listed := false, taken := none, pendingAcks := .empty
          }).mergePendingAcks alt (p.pendingAcks.entries.foldl collectAck taken)
  | .pathExit path alt =>
      (s.paths.get? path).map fun p =>
        (s.setPath path { p with pendingAcks := .empty }).mergePendingAcks alt p.pendingAcks
  | .mergeAck index =>
      match s.moving[index]? with
      | none => none
      | some (dest, a) =>
          ({ s with moving := s.moving.eraseIdx index }.onPath dest fun p =>
            some { p with pendingAcks := mergeAck p.pendingAcks a })

def Initial (s : AckBoard) : Prop := s = ⟨.empty, .empty, [], []⟩

def machine : Machine AckBoard AckAction := ⟨Initial, step⟩

/-- No register holds an older ACK of a stream than it held before. -/
def Forward (before after : AckBoard) : Prop :=
  ∀ path stream held now, before.register path stream = some held →
    after.register path stream = some now → held.gen ≤ now.gen

/-- At the same offset, the register does not hold a newer ACK than the one merged into it. -/
def tieFresh (held : Option GenAck) (a : GenAck) : Bool :=
  held.all fun held =>
    decide (held.ack.ackedOffset ≠ a.ack.ackedOffset) || decide (held.gen ≤ a.gen)

/-- A merge meets no newer ACK at its own offset. -/
def mergesFresh (s : AckBoard) : AckAction → Bool
  | .restoreAck path => (s.paths.get? path).all fun p => p.popGuard.all fun popped =>
      tieFresh (p.pendingAcks.get? popped.1.ack.streamId) popped.1
  | .mergeAck index => s.moving[index]?.all fun move =>
      tieFresh (s.register move.1 move.2.ack.streamId) move.2
  | _ => true

/-! ## Where the ACKs of the board come from -/

/-- The order of generation is an order of offsets. -/
structure Monotone (generated : List GenAck) : Prop where
  offsets : ∀ a ∈ generated, ∀ b ∈ generated, a.ack.streamId = b.ack.streamId → a.gen ≤ b.gen →
    a.ack.ackedOffset ≤ b.ack.ackedOffset
  numbered : ∀ a ∈ generated, a.gen < generated.length

/-- Every ACK of the path was generated, and is pending under its own stream. -/
structure Known (generated : List GenAck) (p : AckPath) : Prop where
  pending : ∀ stream a, p.pendingAcks.get? stream = some a →
    a ∈ generated ∧ a.ack.streamId = stream
  inFlight : ∀ a, p.inFlight = some a → a ∈ generated
  rest : ∀ a ∈ p.rest, a ∈ generated
  taken : ∀ taken, p.taken = some taken → ∀ stream a, taken.get? stream = some a → a ∈ generated

structure Ordered (s : AckBoard) : Prop where
  monotone : Monotone s.generated
  reached : ∀ a ∈ s.generated, a.ack.ackedOffset ≤ s.offsetOf a.ack.streamId
  paths : ∀ path p, s.paths.get? path = some p → Known s.generated p
  moving : ∀ move ∈ s.moving, move.2 ∈ s.generated

theorem known_new (generated : List GenAck) : Known generated .new where
  pending := fun _ _ found => by cases found
  inFlight := fun _ found => by cases found
  rest := fun _ membership => absurd membership List.not_mem_nil
  taken := fun _ found => by cases found

theorem Known.mono {generated more : List GenAck} {p : AckPath} (known : Known generated p)
    (grows : ∀ a ∈ generated, a ∈ more) : Known more p where
  pending := fun stream a found => (known.pending stream a found).imp (grows a) id
  inFlight := fun a found => grows a (known.inFlight a found)
  rest := fun a membership => grows a (known.rest a membership)
  taken := fun taken found stream a held => grows a (known.taken taken found stream a held)

theorem mergeAck_eq_some {pending : OrdMap Nat GenAck} {a b : GenAck} {stream : Nat}
    (found : (mergeAck pending a).get? stream = some b) :
    stream = a.ack.streamId ∧ b = a ∨ pending.get? stream = some b := by
  unfold mergeAck at found
  split at found
  · exact OrdMap.get?_insert_cases found
  · split at found
    · exact .inr found
    · exact OrdMap.get?_insert_cases found

theorem Known.mergeAck {generated : List GenAck} {p : AckPath} (known : Known generated p)
    {a : GenAck} (fromGenerated : a ∈ generated) :
    Known generated { p with pendingAcks := NyaLink.mergeAck p.pendingAcks a } :=
  { known with pending := knownMap_mergeAck known.pending fromGenerated }

theorem takeAcks_pending (streams : List Nat) {pending : OrdMap Nat GenAck} {stream : Nat}
    {a : GenAck} (found : (takeAcks pending streams).2.get? stream = some a) :
    pending.get? stream = some a := by
  induction streams generalizing pending with
  | nil => exact found
  | cons head rest inductionHypothesis =>
      exact (OrdMap.get?_erase_eq_some_iff.mp (inductionHypothesis found)).2

theorem takeAcks_taken (streams : List Nat) {pending : OrdMap Nat GenAck} {a : GenAck}
    (membership : a ∈ (takeAcks pending streams).1) :
    ∃ stream, pending.get? stream = some a := by
  induction streams generalizing pending with
  | nil => cases membership
  | cons head rest inductionHypothesis =>
      rcases List.mem_append.mp membership with first | later
      · exact ⟨head, Option.mem_toList.mp first⟩
      · obtain ⟨stream, found⟩ := inductionHypothesis later
        exact ⟨stream, (OrdMap.get?_erase_eq_some_iff.mp found).2⟩

theorem collectAck_known {generated : List GenAck} {taken : OrdMap Nat GenAck}
    (known : ∀ stream a, taken.get? stream = some a → a ∈ generated) {entry : Nat × GenAck}
    (fromGenerated : entry.2 ∈ generated) (stream : Nat) (a : GenAck)
    (found : (collectAck taken entry).get? stream = some a) : a ∈ generated := by
  have inserted : (taken.insert entry.1 entry.2).get? stream = some a → a ∈ generated := by
    intro found
    rcases OrdMap.get?_insert_cases found with ⟨-, rfl⟩ | before
    · exact fromGenerated
    · exact known stream a before
  unfold collectAck at found
  split at found
  · exact inserted found
  · split at found
    · exact known stream a found
    · exact inserted found

theorem foldl_collectAck_known {generated : List GenAck} {taken : OrdMap Nat GenAck}
    (entries : List (Nat × GenAck))
    (known : ∀ stream a, taken.get? stream = some a → a ∈ generated)
    (fromGenerated : ∀ entry ∈ entries, entry.2 ∈ generated) (stream : Nat) (a : GenAck)
    (found : (entries.foldl collectAck taken).get? stream = some a) : a ∈ generated := by
  induction entries generalizing taken with
  | nil => exact known stream a found
  | cons entry rest inductionHypothesis =>
      apply inductionHypothesis _
        (fun later membership => fromGenerated later (by simp [membership]))
        found
      exact collectAck_known known (fromGenerated entry (by simp))

theorem Ordered.setPath {s : AckBoard} (ordered : s.Ordered) {path : Nat} {p : AckPath}
    (known : Known s.generated p) : (s.setPath path p).Ordered :=
  { ordered with
    paths := by
      intro other q found
      change (s.paths.insert path p).get? other = some q at found
      rcases OrdMap.get?_insert_cases found with ⟨-, rfl⟩ | before
      · exact known
      · exact ordered.paths other q before }

theorem Ordered.onPath {s next : AckBoard} (ordered : s.Ordered) {path : Nat}
    {change : AckPath → Option AckPath}
    (keeps : ∀ p after, Known s.generated p → change p = some after → Known s.generated after)
    (taken : s.onPath path change = some next) : next.Ordered := by
  obtain ⟨p, found, mapped⟩ := Option.bind_eq_some_iff.mp taken
  obtain ⟨after, changed, rfl⟩ := Option.map_eq_some_iff.mp mapped
  exact ordered.setPath (keeps p after (ordered.paths path p found) changed)

theorem Ordered.mergePendingAcks {s : AckBoard} (ordered : s.Ordered) (alt : Option Nat)
    {acks : OrdMap Nat GenAck}
    (known : ∀ stream a, acks.get? stream = some a → a ∈ s.generated) :
    (s.mergePendingAcks alt acks).Ordered := by
  cases alt with
  | none => exact ordered
  | some dest =>
      refine { ordered with moving := ?_ }
      intro move membership
      rcases List.mem_append.mp membership with old | new
      · exact ordered.moving move old
      · obtain ⟨entry, inAcks, rfl⟩ := List.mem_map.mp new
        exact known entry.1 entry.2 (OrdMap.get?_eq_some_iff.mpr inAcks)

theorem storeAck_eq_some {s next : AckBoard} {path : Nat} {a : GenAck}
    (stored : s.storeAck path a = some next) : ∃ p, s.paths.get? path = some p ∧
      next = s.setPath path { p with pendingAcks := p.pendingAcks.insert a.ack.streamId a } := by
  unfold storeAck at stored
  split at stored
  · cases stored
  · rename_i p found
    split at stored
    · cases stored
      exact ⟨p, found, rfl⟩
    · cases stored

theorem storeFirst_cases (s : AckBoard) (a : GenAck) (paths : List Nat) :
    s.storeFirst a paths = s ∨ ∃ path p, s.paths.get? path = some p ∧ s.storeFirst a paths =
      s.setPath path { p with pendingAcks := p.pendingAcks.insert a.ack.streamId a } := by
  induction paths with
  | nil => exact .inl rfl
  | cons path others inductionHypothesis =>
      cases stored : s.storeAck path a with
      | none =>
          simp only [storeFirst, stored, Option.getD_none]
          exact inductionHypothesis
      | some next =>
          obtain ⟨p, found, same⟩ := storeAck_eq_some stored
          simp only [storeFirst, stored, Option.getD_some]
          exact .inr ⟨path, p, found, same⟩

theorem Known.insert {generated : List GenAck} {p : AckPath} (known : Known generated p)
    {a : GenAck} (fromGenerated : a ∈ generated) :
    Known generated { p with pendingAcks := p.pendingAcks.insert a.ack.streamId a } :=
  { known with pending := knownMap_insert known.pending fromGenerated }

theorem Monotone.cons {generated : List GenAck} (monotone : Monotone generated) {a : GenAck}
    (number : a.gen = generated.length)
    (most : ∀ b ∈ generated, b.ack.streamId = a.ack.streamId →
      b.ack.ackedOffset ≤ a.ack.ackedOffset) : Monotone (a :: generated) where
  offsets := by
    intro b inB c inC same older
    rcases List.mem_cons.mp inB with rfl | earlier
    · rcases List.mem_cons.mp inC with rfl | before
      · exact le_rfl
      · exact absurd (number ▸ older) (Nat.not_le.mpr (monotone.numbered c before))
    · rcases List.mem_cons.mp inC with rfl | before
      · exact most b earlier same
      · exact monotone.offsets b earlier c before same older
  numbered := by
    intro b membership
    rcases List.mem_cons.mp membership with rfl | earlier
    · exact number ▸ Nat.lt_succ_self _
    · exact Nat.lt_succ_of_lt (monotone.numbered b earlier)

theorem Ordered.generate {s : AckBoard} (ordered : s.Ordered) (stream window : Nat)
    (sack : List (Nat × Nat)) :
    { s with generated :=
        ⟨s.generated.length, ⟨stream, s.offsetOf stream, window, sack⟩⟩ ::
          s.generated }.Ordered where
  monotone := ordered.monotone.cons rfl fun b inB same =>
    (ordered.reached b inB).trans_eq (congrArg s.offsetOf same)
  reached := by
    intro a membership
    rcases List.mem_cons.mp membership with rfl | earlier
    · exact le_rfl
    · exact ordered.reached a earlier
  paths := fun path p found => (ordered.paths path p found).mono fun _ => List.mem_cons_of_mem _
  moving := fun move membership => List.mem_cons_of_mem _ (ordered.moving move membership)

theorem Ordered.sendAck {s : AckBoard} (ordered : s.Ordered) (stream path window : Nat)
    (sack : List (Nat × Nat)) (fallback : List Nat) :
    (s.sendAck stream path window sack fallback).Ordered := by
  have generated := ordered.generate stream window sack
  rcases storeFirst_cases _ ⟨s.generated.length, ⟨stream, s.offsetOf stream, window, sack⟩⟩
    (path :: fallback) with same | ⟨dest, p, found, same⟩
  · exact (congrArg Ordered same).mpr generated
  · refine (congrArg Ordered same).mpr (generated.setPath ?_)
    exact (generated.paths dest p found).insert (by simp)

theorem known_popGuard {generated : List GenAck} {p rest : AckPath} {a : GenAck}
    (known : Known generated p) (popped : p.popGuard = some (a, rest)) :
    a ∈ generated ∧ Known generated rest ∧ rest.pendingAcks = p.pendingAcks := by
  unfold AckPath.popGuard at popped
  split at popped
  · rename_i inFlight
    cases popped
    exact ⟨known.inFlight _ inFlight, { known with inFlight := fun _ none => by cases none }, rfl⟩
  · rename_i behind
    cases popped
    exact ⟨known.rest _ (by simp [behind]), { known with
      rest := fun b membership => known.rest b (by simp [behind, membership]) }, rfl⟩
  · cases popped

theorem Ordered.step {s next : AckBoard} (ordered : s.Ordered) {action : AckAction}
    (taken : s.step action = some next) : next.Ordered := by
  cases action with
  | addPath path =>
      simp only [AckBoard.step] at taken
      split at taken
      · cases taken
      · cases taken
        exact ordered.setPath (known_new _)
  | advance stream n =>
      cases taken
      exact { ordered with reached := fun a membership =>
        (ordered.reached a membership).trans (offset_le_advanced s.recvNext stream n _) }
  | sendAck stream path window sack fallback =>
      cases taken
      exact ordered.sendAck stream path window sack fallback
  | takeAcks path streams =>
      refine ordered.onPath ?_ taken
      intro p after known changed
      split at changed
      · cases changed
        refine { known with pending := ?_, rest := ?_ }
        · exact fun stream a found => known.pending stream a (takeAcks_pending streams found)
        · intro a membership
          obtain ⟨stream, found⟩ := takeAcks_taken streams membership
          exact (known.pending stream a found).1
      · cases changed
  | popFront path =>
      refine ordered.onPath ?_ taken
      intro p after known changed
      split at changed
      · rename_i a rest _ behind
        cases changed
        refine { known with inFlight := ?_, rest := ?_ }
        · rintro _ ⟨⟩
          exact known.rest a (by simp [behind])
        · exact fun b membership => known.rest b (by simp [behind, membership])
      · cases changed
  | sent path =>
      refine ordered.onPath ?_ taken
      intro p after known changed
      cases changed
      exact { known with inFlight := fun _ none => by cases none }
  | restoreAck path =>
      refine ordered.onPath ?_ taken
      intro p after known changed
      obtain ⟨⟨a, rest⟩, popped, rfl⟩ := Option.map_eq_some_iff.mp changed
      obtain ⟨fromGenerated, knownRest, _⟩ := known_popGuard known popped
      exact knownRest.mergeAck fromGenerated
  | pathFailed path =>
      refine ordered.onPath ?_ taken
      intro p after known changed
      split at changed
      · cases changed
        refine { known with pending := ?_, taken := ?_ }
        · exact fun _ _ found => by cases found
        · rintro _ ⟨⟩ stream a found
          exact (known.pending stream a found).1
      · cases changed
  | collectAcks path alt =>
      obtain ⟨p, found, mapped⟩ := Option.bind_eq_some_iff.mp taken
      obtain ⟨collected, holds, rfl⟩ := Option.map_eq_some_iff.mp mapped
      have known := ordered.paths path p found
      have emptied : Known s.generated
          { p with listed := false, taken := none, pendingAcks := .empty } :=
        { known with
          pending := fun _ _ found => by cases found
          taken := fun _ found => by cases found }
      refine (ordered.setPath emptied).mergePendingAcks alt fun stream a inTaken => ?_
      refine foldl_collectAck_known _ (known.taken collected holds) ?_ stream a inTaken
      intro entry membership
      exact (known.pending entry.1 entry.2 (OrdMap.get?_eq_some_iff.mpr membership)).1
  | pathExit path alt =>
      obtain ⟨p, found, rfl⟩ := Option.map_eq_some_iff.mp taken
      have known := ordered.paths path p found
      have emptied : Known s.generated { p with pendingAcks := .empty } :=
        { known with pending := fun _ _ found => by cases found }
      exact (ordered.setPath emptied).mergePendingAcks alt fun stream a held =>
        (known.pending stream a held).1
  | mergeAck index =>
      simp only [AckBoard.step] at taken
      split at taken
      · cases taken
      · rename_i dest a moved
        have others : { s with moving := s.moving.eraseIdx index }.Ordered :=
          { ordered with moving := fun move membership =>
              ordered.moving move (List.mem_of_mem_eraseIdx membership) }
        refine others.onPath ?_ taken
        intro p after known changed
        cases changed
        exact known.mergeAck (ordered.moving _ (List.mem_of_getElem? moved))

theorem ordered_of_reachable {s : AckBoard} (reachable : machine.Reachable s) : s.Ordered := by
  refine reachable.invariant Ordered ?_ fun _ _ _ ordered taken => ordered.step taken
  rintro _ rfl
  exact {
    monotone := ⟨fun _ membership => absurd membership List.not_mem_nil,
      fun _ membership => absurd membership List.not_mem_nil⟩
    reached := fun _ membership => absurd membership List.not_mem_nil
    paths := fun _ _ found => by cases found
    moving := fun _ membership => absurd membership List.not_mem_nil }

/-! ## Which way a register goes -/

/-- The same for one register map. -/
def PendingForward (before after : OrdMap Nat GenAck) : Prop :=
  ∀ stream held now, before.get? stream = some held → after.get? stream = some now →
    held.gen ≤ now.gen

theorem register_setPath (s : AckBoard) (path other stream : Nat) (p : AckPath) :
    (s.setPath path p).register other stream =
      if other = path then p.pendingAcks.get? stream else s.register other stream := by
  change ((s.paths.insert path p).get? other).bind _ = _
  rw [OrdMap.get?_insert]
  split
  · rfl
  · rfl

theorem forward_setPath {s : AckBoard} {path : Nat} {p after : AckPath}
    (found : s.paths.get? path = some p) :
    Forward s (s.setPath path after) ↔ PendingForward p.pendingAcks after.pendingAcks := by
  have own : ∀ stream, s.register path stream = p.pendingAcks.get? stream := by
    intro stream
    simp only [register, found, Option.bind_some]
  constructor
  · intro forward stream held now before later
    apply forward path stream held now ((own stream).trans before)
    rw [register_setPath, if_pos rfl]
    exact later
  · intro forward other stream held now before later
    rw [register_setPath] at later
    split at later
    · rename_i same
      subst same
      exact forward stream held now ((own stream).symm.trans before) later
    · rw [before] at later
      cases later
      exact le_rfl

theorem pendingForward_of_subset {before after : OrdMap Nat GenAck}
    (kept : ∀ stream a, after.get? stream = some a → before.get? stream = some a) :
    PendingForward before after := by
  intro stream held now wasHeld isHeld
  rw [kept stream now isHeld] at wasHeld
  cases wasHeld
  exact le_rfl

/-- A merge goes forward exactly when it meets no newer ACK at its own offset: with different
offsets, the larger one was generated later. -/
theorem pendingForward_mergeAck {generated : List GenAck} (monotone : Monotone generated)
    {p : AckPath} (known : Known generated p) {a : GenAck} (fromGenerated : a ∈ generated) :
    PendingForward p.pendingAcks (mergeAck p.pendingAcks a) ↔
      tieFresh (p.pendingAcks.get? a.ack.streamId) a = true := by
  cases found : p.pendingAcks.get? a.ack.streamId with
  | none =>
      simp only [tieFresh, Option.all_none, iff_true]
      intro stream held now before after
      rcases mergeAck_eq_some after with ⟨rfl, rfl⟩ | same
      · rw [found] at before
        cases before
      · rw [before] at same
        cases same
        exact le_rfl
  | some old =>
      obtain ⟨oldGenerated, sameStream⟩ := known.pending _ old found
      simp only [tieFresh, Option.all_some, Bool.or_eq_true, decide_eq_true_eq]
      by_cases behind : a.ack.ackedOffset < old.ack.ackedOffset
      · have unchanged : mergeAck p.pendingAcks a = p.pendingAcks := by
          simp only [mergeAck, found, behind, if_true]
        rw [unchanged]
        exact iff_of_true (pendingForward_of_subset fun _ _ held => held) (.inl behind.ne')
      · have replaced : mergeAck p.pendingAcks a = p.pendingAcks.insert a.ack.streamId a := by
          simp only [mergeAck, found, behind, if_false]
        rw [replaced]
        constructor
        · intro forward
          exact .inr (forward _ old a found (OrdMap.get?_insert_self _ _ _))
        · intro fresh stream held now before after
          rcases OrdMap.get?_insert_cases after with ⟨rfl, rfl⟩ | kept
          · rw [found] at before
            cases before
            -- an ACK generated later than `a` would not acknowledge less
            by_contra newer
            have covers := monotone.offsets _ fromGenerated _ oldGenerated sameStream.symm
              (Nat.le_of_not_le newer)
            rcases fresh with different | older
            · omega
            · exact newer older
          · rw [before] at kept
            cases kept
            exact le_rfl

theorem onPath_eq_some {s next : AckBoard} {path : Nat} {change : AckPath → Option AckPath}
    (taken : s.onPath path change = some next) : ∃ p after, s.paths.get? path = some p ∧
      change p = some after ∧ next = s.setPath path after := by
  obtain ⟨p, found, mapped⟩ := Option.bind_eq_some_iff.mp taken
  obtain ⟨after, changed, rfl⟩ := Option.map_eq_some_iff.mp mapped
  exact ⟨p, after, found, changed, rfl⟩

theorem forward_refl (s : AckBoard) : Forward s s := by
  intro path stream held now before after
  rw [before] at after
  cases after
  exact le_rfl

theorem register_mergePendingAcks (s : AckBoard) (alt : Option Nat) (acks : OrdMap Nat GenAck)
    (path stream : Nat) :
    (s.mergePendingAcks alt acks).register path stream = s.register path stream := by
  cases alt <;> rfl

theorem forward_emptied {s : AckBoard} {path : Nat} {p after : AckPath}
    (found : s.paths.get? path = some p) (emptied : after.pendingAcks = .empty)
    (alt : Option Nat) (acks : OrdMap Nat GenAck) :
    Forward s ((s.setPath path after).mergePendingAcks alt acks) := by
  have forward : Forward s (s.setPath path after) := by
    rw [forward_setPath found, emptied]
    exact pendingForward_of_subset fun _ _ impossible => by cases impossible
  intro other stream held now before later
  rw [register_mergePendingAcks] at later
  exact forward other stream held now before later

theorem forward_sendAck {s : AckBoard} (ordered : s.Ordered) (stream path window : Nat)
    (sack : List (Nat × Nat)) (fallback : List Nat) :
    Forward s (s.sendAck stream path window sack fallback) := by
  have grown := ordered.generate stream window sack
  rcases storeFirst_cases { s with generated :=
      ⟨s.generated.length, ⟨stream, s.offsetOf stream, window, sack⟩⟩ :: s.generated }
    ⟨s.generated.length, ⟨stream, s.offsetOf stream, window, sack⟩⟩ (path :: fallback)
    with same | ⟨dest, p, found, same⟩
  · exact (congrArg (Forward s) same).mpr (forward_refl s)
  · refine (congrArg (Forward s) same).mpr ((forward_setPath (s := s) found).mpr ?_)
    intro other held now before after
    rcases OrdMap.get?_insert_cases after with ⟨-, rfl⟩ | kept
    · have numbered := ordered.monotone.numbered held
        ((ordered.paths dest p found).pending other held before).1
      exact numbered.le
    · rw [before] at kept
      cases kept
      exact le_rfl

theorem forward_iff_mergesFresh {s next : AckBoard} {action : AckAction} (ordered : s.Ordered)
    (taken : s.step action = some next) :
    Forward s next ↔ s.mergesFresh action = true := by
  cases action with
  | addPath path =>
      refine iff_of_true ?_ rfl
      simp only [AckBoard.step] at taken
      split at taken
      · cases taken
      · rename_i absent
        cases taken
        have missing : s.paths.get? path = none := Option.not_isSome_iff_eq_none.mp absent
        intro other stream held now before after
        rw [register_setPath] at after
        split at after
        · cases after
        · rw [before] at after
          cases after
          exact le_rfl
  | advance stream n =>
      cases taken
      exact iff_of_true (forward_refl s) rfl
  | sendAck stream path window sack fallback =>
      cases taken
      exact iff_of_true (forward_sendAck ordered stream path window sack fallback) rfl
  | takeAcks path streams =>
      obtain ⟨p, after, found, changed, rfl⟩ := onPath_eq_some taken
      refine iff_of_true ((forward_setPath found).mpr ?_) rfl
      split at changed
      · cases changed
        exact pendingForward_of_subset fun _ _ => takeAcks_pending streams
      · cases changed
  | popFront path =>
      obtain ⟨p, after, found, changed, rfl⟩ := onPath_eq_some taken
      refine iff_of_true ((forward_setPath found).mpr ?_) rfl
      split at changed
      · cases changed
        exact pendingForward_of_subset fun _ _ held => held
      · cases changed
  | sent path =>
      obtain ⟨p, after, found, changed, rfl⟩ := onPath_eq_some taken
      refine iff_of_true ((forward_setPath found).mpr ?_) rfl
      cases changed
      exact pendingForward_of_subset fun _ _ held => held
  | restoreAck path =>
      obtain ⟨p, after, found, changed, rfl⟩ := onPath_eq_some taken
      obtain ⟨⟨a, rest⟩, popped, rfl⟩ := Option.map_eq_some_iff.mp changed
      obtain ⟨fromGenerated, known, same⟩ := known_popGuard (ordered.paths path p found) popped
      simp only [mergesFresh, found, popped, Option.all_some]
      rw [forward_setPath found, ← same]
      exact pendingForward_mergeAck ordered.monotone known fromGenerated
  | pathFailed path =>
      obtain ⟨p, after, found, changed, rfl⟩ := onPath_eq_some taken
      refine iff_of_true ((forward_setPath found).mpr ?_) rfl
      split at changed
      · cases changed
        exact pendingForward_of_subset fun _ _ impossible => by cases impossible
      · cases changed
  | collectAcks path alt =>
      obtain ⟨p, found, mapped⟩ := Option.bind_eq_some_iff.mp taken
      obtain ⟨collected, holds, rfl⟩ := Option.map_eq_some_iff.mp mapped
      exact iff_of_true (forward_emptied found rfl alt _) rfl
  | pathExit path alt =>
      obtain ⟨p, found, rfl⟩ := Option.map_eq_some_iff.mp taken
      exact iff_of_true (forward_emptied found rfl alt _) rfl
  | mergeAck index =>
      simp only [AckBoard.step] at taken
      split at taken
      · cases taken
      · rename_i dest a moved
        obtain ⟨p, after, found, changed, rfl⟩ := onPath_eq_some taken
        cases changed
        have held : s.paths.get? dest = some p := found
        have own : s.register dest a.ack.streamId = p.pendingAcks.get? a.ack.streamId := by
          simp only [register, held, Option.bind_some]
        simp only [mergesFresh, moved, Option.all_some, own]
        refine Iff.trans (forward_setPath (s := s) held) ?_
        exact pendingForward_mergeAck ordered.monotone (ordered.paths dest p held)
          (ordered.moving _ (List.mem_of_getElem? moved))

/-- From a reachable state on, a run never takes a register back to an older ACK exactly when each
of its steps merges only ACKs that meet no newer one at their offset. -/
theorem ack_register_forward {start : AckBoard} (reachable : machine.Reachable start)
    (schedule : List AckAction) :
    machine.Throughout (fun s _ next => Forward s next) start schedule ↔
      machine.Throughout (fun s action _ => s.mergesFresh action = true) start schedule := by
  refine Machine.Reachable.throughout_iff ?_ reachable schedule
  exact fun s action next reached taken =>
    forward_iff_mergesFresh (ordered_of_reachable reached) taken

/-- A write is interrupted after the stream acknowledged more, and after it only widened its
window. -/
def interrupted (n : Nat) : List AckAction :=
  [.addPath 1, .sendAck 7 1 100 [] [], .takeAcks 1 [7], .popFront 1, .advance 7 n,
    .sendAck 7 1 200 [] []]

theorem ack_register_forward_interrupted :
    machine.Throughout (fun s _ next => Forward s next) ⟨.empty, .empty, [], []⟩
      (interrupted 10 ++ [.restoreAck 1]) ∧
    ∃ s, machine.run ⟨.empty, .empty, [], []⟩ (interrupted 10 ++ [.restoreAck 1]) = some s ∧
      (s.register 1 7).map GenAck.gen = some 1 := by
  have replayed : ∃ s, machine.run ⟨.empty, .empty, [], []⟩
      (interrupted 10 ++ [.restoreAck 1]) = some s ∧
      machine.runWhen (fun s action => s.mergesFresh action = true) ⟨.empty, .empty, [], []⟩
        (interrupted 10 ++ [.restoreAck 1]) = some s ∧
      (s.register 1 7).map GenAck.gen = some 1 := ⟨_, rfl, rfl, rfl⟩
  obtain ⟨s, replay, fresh, newest⟩ := replayed
  have begins : machine.Reachable ⟨.empty, .empty, [], []⟩ := .start rfl
  exact ⟨(ack_register_forward begins _).mpr (Machine.throughout_of_runWhen fresh),
    s, replay, newest⟩

theorem ack_register_back : ∃ s next, machine.Reachable s ∧
    s.step (.restoreAck 1) = some next ∧ ¬ Forward s next ∧
    (s.register 1 7).map (fun a => (a.gen, a.ack.window)) = some (1, 200) ∧
    (next.register 1 7).map (fun a => (a.gen, a.ack.window)) = some (0, 100) := by
  have replayed : ∃ s next held now,
      machine.run ⟨.empty, .empty, [], []⟩ (interrupted 0) = some s ∧
      s.step (.restoreAck 1) = some next ∧ s.register 1 7 = some held ∧
      next.register 1 7 = some now ∧ now.gen < held.gen ∧
      (held.gen, held.ack.window) = (1, 200) ∧ (now.gen, now.ack.window) = (0, 100) :=
    ⟨_, _, _, _, rfl, rfl, rfl, rfl, by decide, rfl, rfl⟩
  obtain ⟨s, next, held, now, replay, taken, before, after, older, newWindow, oldWindow⟩ := replayed
  have begins : machine.Reachable ⟨.empty, .empty, [], []⟩ := .start rfl
  refine ⟨s, next, begins.run replay, taken, ?_, ?_, ?_⟩
  · intro forward
    exact Nat.not_le.mpr older (forward 1 7 held now before after)
  · rw [before]
    exact congrArg some newWindow
  · rw [after]
    exact congrArg some oldWindow

end AckBoard

end NyaLink
