import NyaLink.Library.Machine
import NyaLink.Stream.Ack

/-!
# One stream over two endpoints

The two ends of one stream, the frames between them and the paths that carry
these.  Every session operation is one step; `send_data` is split at the places
where it waits or reads an atomic, so that anything may happen in between.
Frames in flight include those in writer queues and ACK registers.  They arrive
in any order, and may be lost, duplicated and moved to another path at any time.
Path choice is left open, and a removed stream is not opened a second time.
-/

namespace NyaLink

open StreamState

def interactiveMax : Nat := 1500

inductive Side where
  | opener
  | acceptor
  deriving DecidableEq, Repr

def Side.other : Side → Side
  | .opener => .acceptor
  | .acceptor => .opener

@[simp]
theorem Side.other_other (side : Side) : side.other.other = side := by
  cases side <;> rfl

@[simp]
theorem Side.other_ne (side : Side) : side.other ≠ side := by
  cases side <;> decide

theorem Side.eq_other_of_ne {first second : Side} (different : first ≠ second) :
    first = second.other := by
  cases first <;> cases second <;> first | rfl | exact absurd rfl different

/-- Where the pump's send loop is.  `rest` are the bytes of the current buffer that
`send_data` has not cut yet. -/
inductive SendPhase where
  | idle
  | window (rest : Bytes)
  | room (rest : Bytes)
  /-- `send_window` has been read for the room computation. -/
  | loaded (rest : Bytes) (window : Nat)
  /-- A piece is cut and `send_next` advanced; waiting for a path. -/
  | placing (offset : Nat) (piece rest : Bytes)
  | stopped (rest : Bytes)
  /-- `send_data` returned an error while it waited for a path. -/
  | gaveUp (offset : Nat) (piece rest : Bytes)
  deriving DecidableEq, Repr

namespace SendPhase

def rest : SendPhase → Bytes
  | .idle => []
  | .window rest => rest
  | .room rest => rest
  | .loaded rest _ => rest
  | .placing _ _ rest => rest
  | .stopped rest => rest
  | .gaveUp _ _ rest => rest

/-- The piece that was cut and never put in `unacked`. -/
def inHand : SendPhase → Option (Nat × Bytes)
  | .placing offset piece _ => some (offset, piece)
  | .gaveUp offset piece _ => some (offset, piece)
  | _ => none

/-- `send_data` goes on with the next piece, or returns. -/
def next (rest : Bytes) : SendPhase := if rest = [] then .idle else .window rest

@[simp]
theorem rest_next (rest : Bytes) : (next rest).rest = rest := by
  simp only [next]
  split
  · simp_all [SendPhase.rest]
  · rfl

@[simp]
theorem inHand_next (rest : Bytes) : (next rest).inHand = none := by
  simp only [next]
  split <;> rfl

end SendPhase

/-- One end of the stream.  The members from `written` on are history. -/
structure Endpoint where
  isClient : Bool
  st : StreamState
  accepted : Bool
  /-- The `opens` table still holds the stream. -/
  openPending : Bool
  /-- `pending_early`: DATA that arrived while the table did not hold the stream. -/
  early : List (Nat × StreamData)
  phase : SendPhase
  taken : Option Nat
  written : Bytes
  pieces : List Bytes
  appRead : Nat
  acks : List StreamAck
  applied : Option StreamAck
  deriving DecidableEq

abbrev Output := List (Nat × Frame)

namespace Endpoint

/-- `get_stream` finds the stream. -/
def live (e : Endpoint) : Bool := e.accepted && !e.st.gone

/-- The stream state after an operation, and the ACK that operation sent on `path`. -/
def acknowledge (e : Endpoint) (path : Nat) (result : StreamState × Option StreamAck) :
    Endpoint × Output :=
  ({ e with st := result.1, acks := result.2.toList ++ e.acks },
    result.2.toList.map fun ack => (path, .streamAck ack))

/-- The stream state after an operation, and the Reset that operation sent on `path`. -/
def finish (e : Endpoint) (path : Nat) (result : StreamState × Option StreamReset) :
    Endpoint × Output :=
  ({ e with st := result.1 }, result.2.toList.map fun reset => (path, .streamReset reset))

/-- `deliver_data`; the first DATA from the peer ends the retry of StreamOpen. -/
def deliver (e : Endpoint) (path : Nat) (data : StreamData) (inputs : CapInputs) :
    Endpoint × Output :=
  let result := e.st.deliverData path data inputs
  { e with openPending := e.openPending && !result.1.peerSeen }.acknowledge path result

/-- Replay of `take_early_data` in arrival order. -/
def replayEarly (inputs : CapInputs) : List (Nat × StreamData) → Endpoint → Endpoint × Output
  | [], e => (e, [])
  | (path, data) :: rest, e =>
      let first := if e.live then e.deliver path data inputs else (e, [])
      let others := replayEarly inputs rest first.1
      (others.1, first.2 ++ others.2)

/-- `accept_remote_stream` on a server; a client ignores StreamOpen, and a stream that the
table holds is a duplicate. -/
def acceptRemoteStream (e : Endpoint) (inputs : CapInputs) : Endpoint × Output :=
  if e.isClient || e.accepted then (e, [])
  else replayEarly inputs e.early { e with accepted := true, early := [] }

/-- `handle_frame` for a frame of this stream. -/
def handleFrame (e : Endpoint) (path : Nat) (frame : Frame) (now : Nat) (inputs : CapInputs) :
    Endpoint × Output :=
  match frame with
  | .streamOpen _ => e.acceptRemoteStream inputs
  | .streamData data =>
      if e.live then e.deliver path data inputs
      else ({ e with early := e.early ++ [(path, data)] }, [])
  | .streamAck ack =>
      if e.live then
        ({ e with st := e.st.onAck ack now, openPending := false, applied := some ack }, [])
      else (e, [])
  | .streamClose close =>
      if e.live then ({ e with st := e.st.onPeerClose close }, []) else (e, [])
  | .streamReset reset =>
      if e.live then ({ e with st := e.st.finishStream reset.reason e.openPending }, [])
      else (e, [])

/-- Length of the next piece: what is left, the room in the window (at least one byte), and
the largest payload, whichever is least. -/
def pieceLength (e : Endpoint) (rest : Bytes) (window : Nat) : Nat :=
  min (min rest.length (max (window - e.st.inflightSend) 1)) maxStreamPayload

def cutPiece (e : Endpoint) (rest : Bytes) (window : Nat) : Endpoint :=
  let n := e.pieceLength rest window
  { e with
    st := { e.st with sendNext := e.st.sendNext + n }
    phase := .placing e.st.sendNext (rest.take n) (rest.drop n)
    pieces := e.pieces ++ [rest.take n] }

def newUnacked (data : Bytes) (path now : Nat) : Unacked where
  data := data
  pathId := path
  lastSent := now
  firstSent := now
  tried := [path]
  retryNotBefore := now
  dropped := false
  carried := false

def placePiece (e : Endpoint) (offset : Nat) (piece rest : Bytes) (path now : Nat) : Endpoint :=
  { e with
    st := { e.st with
      bulk := e.st.bulk || decide (interactiveMax < piece.length)
      unacked := e.st.unacked.insert offset (newUnacked piece path now) }
    phase := .next rest }

end Endpoint

inductive LocalAction where
  /-- The pump read a buffer and calls `send_data`. -/
  | submit (data : Bytes)
  | testWindow
  | loadWindow
  | cut
  | place (path now : Nat)
  /-- `send_data` returns an error: reset, session dead, or no path for too long. -/
  | giveUp
  | transmit (index path now : Nat)
  | closeSend (path : Nat)
  | resendClose (path : Nat)
  | sendOpen (target : Target) (path : Nat)
  | appTake
  | appRead (inputs : CapInputs)
  | appGone
  | tuneRecvCap (inputs : CapInputs)
  | expireRecvCloses
  | expireEarlyData (count : Nat)
  | resetStream (reason : ResetReason) (path : Nat)
  | reapHalfClosed (path : Nat)
  | reapStream (path : Nat)
  deriving DecidableEq, Repr

namespace Endpoint

def submit (e : Endpoint) (data : Bytes) : Option (Endpoint × Output) :=
  match e.phase with
  | .idle =>
      if data = [] ∨ maxStreamPayload < data.length then none
      else if e.live && !e.st.reset then
        some ({ e with written := e.written ++ data, phase := .window data }, [])
      else some ({ e with written := e.written ++ data, phase := .stopped data }, [])
  | _ => none

def testWindow (e : Endpoint) : Option (Endpoint × Output) :=
  match e.phase with
  | .window rest =>
      if e.st.windowOk 1 then some ({ e with phase := .room rest }, [])
      else if e.st.reset then some ({ e with phase := .stopped rest }, [])
      else none
  | _ => none

def loadWindow (e : Endpoint) : Option (Endpoint × Output) :=
  match e.phase with
  | .room rest => some ({ e with phase := .loaded rest e.st.sendWindow }, [])
  | _ => none

def cut (e : Endpoint) : Option (Endpoint × Output) :=
  match e.phase with
  | .loaded rest window => if rest = [] then none else some (e.cutPiece rest window, [])
  | _ => none

def place (e : Endpoint) (path now : Nat) : Option (Endpoint × Output) :=
  match e.phase with
  | .placing offset piece rest =>
      some (e.placePiece offset piece rest path now,
        [(path, .streamData { streamId := e.st.id, offset := offset, data := piece })])
  | _ => none

def giveUp (e : Endpoint) : Option (Endpoint × Output) :=
  match e.phase with
  | .window rest => some ({ e with phase := .stopped rest }, [])
  | .placing offset piece rest => some ({ e with phase := .gaveUp offset piece rest }, [])
  | _ => none

/-- Any piece that was put in `unacked` once: `wait_bulk_send` holds its frame, and may send
it after the piece was acknowledged or moved. -/
def transmit (e : Endpoint) (index path now : Nat) : Option (Endpoint × Output) :=
  match e.pieces[index]? with
  | none => none
  | some piece =>
      let offset := (e.pieces.take index).flatten.length
      if e.phase.inHand = some (offset, piece) then none
      else
        some ({ e with st := { e.st with
            unacked := e.st.unacked.modify offset fun u =>
              { u with pathId := path, lastSent := now } } },
          [(path, .streamData { streamId := e.st.id, offset := offset, data := piece })])

def closeSend (e : Endpoint) (path : Nat) : Option (Endpoint × Output) :=
  match e.phase with
  | .idle =>
      if e.live then
        match e.st.closeSend with
        | some (st, close) =>
            some ({ e with st := st, phase := .stopped [] }, [(path, .streamClose close)])
        | none => some ({ e with phase := .stopped [] }, [])
      else some ({ e with phase := .stopped [] }, [])
  | _ => none

def resendClose (e : Endpoint) (path : Nat) : Option (Endpoint × Output) :=
  if e.live && e.st.sendFinSent then
    some (e, [(path, .streamClose { streamId := e.st.id, finalOffset := some e.st.sendNext })])
  else none

def sendOpen (e : Endpoint) (target : Target) (path : Nat) : Option (Endpoint × Output) :=
  if e.live && e.openPending then
    some (e, [(path, .streamOpen { streamId := e.st.id, target := target })])
  else none

def appTake (e : Endpoint) : Option (Endpoint × Output) :=
  match e.st.inbound.closed, e.taken, e.st.inbound.queue with
  | false, none, .data bytes :: rest =>
      some ({ e with
        st := { e.st with inbound := { e.st.inbound with queue := rest } }
        taken := some bytes.length }, [])
  | false, none, _ :: rest =>
      some ({ e with
        st := { e.st with inbound := { e.st.inbound with queue := rest, closed := true } } }, [])
  | _, _, _ => none

def reportRead (e : Endpoint) (inputs : CapInputs) : Option (Endpoint × Output) :=
  match e.taken with
  | some n =>
      if e.live then
        let result := e.st.noteAppRead n inputs
        some ({ e with taken := none, appRead := e.appRead + n }.acknowledge e.st.lastRecvPath
          (result.1, some result.2))
      else some ({ e with taken := none }, [])
  | none => none

def appGone (e : Endpoint) : Option (Endpoint × Output) :=
  match e.taken with
  | some _ =>
      some ({ e with
        st := { e.st with inbound := { e.st.inbound with closed := true } }
        taken := none }, [])
  | none => none

def pumpDone (e : Endpoint) : Bool :=
  e.st.inbound.closed &&
    match e.phase with
    | .stopped _ => true
    | .gaveUp _ _ _ => true
    | _ => false

def step (e : Endpoint) : LocalAction → Option (Endpoint × Output)
  | .submit data => e.submit data
  | .testWindow => e.testWindow
  | .loadWindow => e.loadWindow
  | .cut => e.cut
  | .place path now => e.place path now
  | .giveUp => e.giveUp
  | .transmit index path now => e.transmit index path now
  | .closeSend path => e.closeSend path
  | .resendClose path => e.resendClose path
  | .sendOpen target path => e.sendOpen target path
  | .appTake => e.appTake
  | .appRead inputs => e.reportRead inputs
  | .appGone => e.appGone
  | .tuneRecvCap inputs =>
      if e.live then some ({ e with st := e.st.tuneRecvCap inputs }, []) else none
  | .expireRecvCloses =>
      if e.live then some ({ e with st := e.st.tryFinishRecvClose }, []) else none
  | .expireEarlyData count => some ({ e with early := e.early.drop count }, [])
  | .resetStream reason path =>
      if e.live then
        some (e.finish path (e.st.finishStream reason e.openPending, some ⟨e.st.id, reason⟩))
      else none
  | .reapHalfClosed path =>
      if e.live then some (e.finish path (e.st.reapHalfClosed e.isClient e.openPending)) else none
  | .reapStream path =>
      if e.live && e.pumpDone then some (e.finish path (e.st.reapStream e.openPending)) else none

def new (isClient accepted : Bool) (id initialWindow chan : Nat) : Endpoint where
  isClient := isClient
  st := .new id initialWindow chan
  accepted := accepted
  openPending := accepted
  early := []
  phase := .idle
  taken := none
  written := []
  pieces := []
  appRead := 0
  acks := []
  applied := none

end Endpoint

structure Flight where
  dest : Side
  path : Nat
  frame : Frame
  deriving DecidableEq, Repr

structure Link where
  opener : Endpoint
  acceptor : Endpoint
  flight : List Flight
  paths : List Nat
  deriving DecidableEq

inductive LinkAction where
  | act (side : Side) (action : LocalAction)
  | arrive (index now : Nat) (inputs : CapInputs)
  | lose (index : Nat)
  | duplicate (index : Nat)
  | reroute (index path : Nat)
  | pathUp (path : Nat)
  | pathDown (path : Nat)
  deriving DecidableEq, Repr

namespace Link

def endAt (link : Link) : Side → Endpoint
  | .opener => link.opener
  | .acceptor => link.acceptor

def setEnd (link : Link) (side : Side) (e : Endpoint) : Link :=
  match side with
  | .opener => { link with opener := e }
  | .acceptor => { link with acceptor := e }

def commit (link : Link) (side : Side) (result : Endpoint × Output) : Link :=
  let sent := result.2.map fun output => Flight.mk side.other output.1 output.2
  { link.setEnd side result.1 with flight := link.flight ++ sent }

def step (link : Link) : LinkAction → Option Link
  | .act side action => ((link.endAt side).step action).map (link.commit side)
  | .arrive index now inputs =>
      match link.flight[index]? with
      | none => none
      | some f =>
          some ({ link with flight := link.flight.eraseIdx index }.commit f.dest
            ((link.endAt f.dest).handleFrame f.path f.frame now inputs))
  | .lose index =>
      if index < link.flight.length then
        some { link with flight := link.flight.eraseIdx index }
      else none
  | .duplicate index =>
      match link.flight[index]? with
      | none => none
      | some f => some { link with flight := link.flight ++ [f] }
  | .reroute index path =>
      match link.flight[index]? with
      | none => none
      | some f =>
          some { link with flight := link.flight.eraseIdx index ++ [{ f with path := path }] }
  | .pathUp path =>
      if path ∈ link.paths then none else some { link with paths := link.paths ++ [path] }
  | .pathDown path =>
      some { link with
        paths := link.paths.filter fun other => other ≠ path
        flight := link.flight.filter fun f => f.path ≠ path }

/-- A stream just opened by the client, under the tuning of each side. -/
def Initial (link : Link) : Prop :=
  ∃ id openWindow openChan acceptWindow acceptChan,
    (1 ≤ openWindow ∧ openWindow ≤ u32Max ∧ 1 ≤ openChan) ∧
    (1 ≤ acceptWindow ∧ acceptWindow ≤ u32Max ∧ 1 ≤ acceptChan) ∧
    link = {
      opener := .new true true id openWindow openChan
      acceptor := .new false false id acceptWindow acceptChan
      flight := []
      paths := [] }

def machine : Machine Link LinkAction := ⟨Initial, step⟩

/-! ## What a step of the link does -/

@[simp]
theorem endAt_commit_self (link : Link) (side : Side) (result : Endpoint × Output) :
    (link.commit side result).endAt side = result.1 := by
  cases side <;> rfl

@[simp]
theorem endAt_commit_other (link : Link) (side : Side) (result : Endpoint × Output) :
    (link.commit side result).endAt side.other = link.endAt side.other := by
  cases side <;> rfl

theorem flight_commit (link : Link) (side : Side) (result : Endpoint × Output) :
    (link.commit side result).flight =
      link.flight ++ result.2.map fun output => ⟨side.other, output.1, output.2⟩ := by
  cases side <;> rfl

/-- The endpoint on one side takes a step of its own, or handles an arriving frame. -/
inductive Acts (link : Link) : LinkAction → Side → Endpoint × Output → Prop where
  | alone {side action result} : (link.endAt side).step action = some result →
      Acts link (.act side action) side result
  | arrival {index now inputs f} : link.flight[index]? = some f →
      Acts link (.arrive index now inputs) f.dest
        ((link.endAt f.dest).handleFrame f.path f.frame now inputs)

theorem Acts.endAt {link next : Link} {action : LinkAction} {side : Side}
    {result : Endpoint × Output} (acts : Acts link action side result)
    (taken : link.step action = some next) : next.endAt side = result.1 := by
  cases acts with
  | alone stepped =>
      simp only [step, stepped, Option.map_some] at taken
      cases taken
      exact endAt_commit_self _ _ _
  | arrival found =>
      simp only [step, found] at taken
      cases taken
      exact endAt_commit_self _ _ _

theorem step_cases {link next : Link} {action : LinkAction}
    (taken : link.step action = some next) :
    (∃ side result, Acts link action side result ∧ next.endAt side = result.1 ∧
      next.endAt side.other = link.endAt side.other ∧
      ∀ f ∈ next.flight, f ∈ link.flight ∨
        ∃ output ∈ result.2, f = ⟨side.other, output.1, output.2⟩) ∨
    ((∀ side, next.endAt side = link.endAt side) ∧
      ∀ f ∈ next.flight, ∃ g ∈ link.flight, f.dest = g.dest ∧ f.frame = g.frame) := by
  have only : ∀ (flight : List Flight) (paths : List Nat),
      (∀ f ∈ flight, ∃ g ∈ link.flight, f.dest = g.dest ∧ f.frame = g.frame) →
      (∀ side, ({ link with flight := flight, paths := paths } : Link).endAt side =
        link.endAt side) ∧
      ∀ f ∈ flight, ∃ g ∈ link.flight, f.dest = g.dest ∧ f.frame = g.frame :=
    fun _ _ known => ⟨fun side => by cases side <;> rfl, known⟩
  cases action with
  | act side action =>
      obtain ⟨result, stepped, rfl⟩ := Option.map_eq_some_iff.mp taken
      refine .inl ⟨side, result, .alone stepped, endAt_commit_self _ _ _,
        endAt_commit_other _ _ _, ?_⟩
      intro f membership
      rw [flight_commit] at membership
      refine (List.mem_append.mp membership).imp id fun new => ?_
      obtain ⟨output, produced, rfl⟩ := List.mem_map.mp new
      exact ⟨output, produced, rfl⟩
  | arrive index now inputs =>
      simp only [step] at taken
      split at taken
      · cases taken
      · rename_i f found
        cases taken
        refine .inl ⟨f.dest, _, .arrival found, endAt_commit_self _ _ _, ?_, ?_⟩
        · rw [endAt_commit_other]
          cases f.dest.other <;> rfl
        · intro g membership
          rw [flight_commit] at membership
          refine (List.mem_append.mp membership).imp List.mem_of_mem_eraseIdx fun new => ?_
          obtain ⟨output, produced, rfl⟩ := List.mem_map.mp new
          exact ⟨output, produced, rfl⟩
  | lose index =>
      simp only [step] at taken
      split at taken
      · cases taken
        exact .inr (only _ _ fun g membership =>
          ⟨g, List.mem_of_mem_eraseIdx membership, rfl, rfl⟩)
      · cases taken
  | duplicate index =>
      simp only [step] at taken
      split at taken
      · cases taken
      · rename_i f found
        cases taken
        refine .inr (only _ _ fun g membership => ?_)
        rcases List.mem_append.mp membership with old | new
        · exact ⟨g, old, rfl, rfl⟩
        · rw [List.mem_singleton.mp new]
          exact ⟨f, List.mem_of_getElem? found, rfl, rfl⟩
  | reroute index path =>
      simp only [step] at taken
      split at taken
      · cases taken
      · rename_i f found
        cases taken
        refine .inr (only _ _ fun g membership => ?_)
        rcases List.mem_append.mp membership with old | new
        · exact ⟨g, List.mem_of_mem_eraseIdx old, rfl, rfl⟩
        · rw [List.mem_singleton.mp new]
          exact ⟨f, List.mem_of_getElem? found, rfl, rfl⟩
  | pathUp path =>
      simp only [step] at taken
      split at taken
      · cases taken
      · cases taken
        exact .inr (only _ _ fun g membership => ⟨g, membership, rfl, rfl⟩)
  | pathDown path =>
      cases taken
      exact .inr (only _ _ fun g membership => ⟨g, List.mem_of_mem_filter membership, rfl, rfl⟩)

/-- A relation of sender and receiver, in both directions, is kept by a step of the link if the
side that acts keeps it in either role. -/
theorem directional_step {relation : Endpoint → Endpoint → Prop} {link next : Link}
    {action : LinkAction} (taken : link.step action = some next)
    (held : ∀ side, relation (link.endAt side) (link.endAt side.other))
    (sends : ∀ side result, Acts link action side result →
      relation result.1 (link.endAt side.other))
    (receives : ∀ side result, Acts link action side result →
      relation (link.endAt side.other) result.1) (side : Side) :
    relation (next.endAt side) (next.endAt side.other) := by
  rcases step_cases taken with ⟨actor, result, acts, own, other, -⟩ | ⟨same, -⟩
  · by_cases isActor : side = actor
    · subst isActor
      rw [own, other]
      exact sends side result acts
    · obtain rfl := Side.eq_other_of_ne isActor
      rw [Side.other_other, own, other]
      exact receives actor result acts
  · rw [same, same]
    exact held side

end Link

end NyaLink
