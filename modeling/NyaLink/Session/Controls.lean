import NyaLink.Session.Picker
import NyaLink.Session.Steps

/-!
# Control frames until they are answered

StreamOpen, StreamClose and StreamReset are remembered when they are sent first
and sent again by the maintenance pass and when a path fails, until the peer
shows that it has them.  What happens to the paths besides is left open, and so
is the DATA that the queues carry; a stream that was removed may begin again
under its id.

`recorded`, `attempts` and `closedAt` are history: the paths ever noted for an
entry, the sends of the retries, and what `close_send` announced.
-/

namespace NyaLink

/-- An entry of `opens`, `closes` or `resets`; `startedAt` of an open is not read. -/
structure Outstanding (Body : Type) where
  pathId : Nat
  sentAt : Nat
  startedAt : Nat
  tried : List Nat
  body : Body
  recorded : List Nat
  deriving DecidableEq, Repr

structure CloseBody where
  secondCloser : Bool
  finalOffset : Option Nat
  deriving DecidableEq, Repr

/-- A send of one of the retry functions, and whether the queue took the frame. -/
structure Attempt where
  path : Nat
  frame : Frame
  taken : Bool
  deriving DecidableEq, Repr

/-- What `close_send` announced, and when. -/
structure CloseMark where
  finalOffset : Nat
  time : Nat
  deriving DecidableEq, Repr

namespace Outstanding

variable {Body : Type}

def note (recorded : List Nat) (path : Nat) : List Nat :=
  if path ∈ recorded then recorded else path :: recorded

def first (path now : Nat) (body : Body) : Outstanding Body :=
  ⟨path, now, now, [path], body, [path]⟩

def follow (o : Outstanding Body) (path now : Nat) : Outstanding Body :=
  { o with
    pathId := path
    sentAt := now
    tried := pushTried o.tried path
    recorded := note o.recorded path }

def postpone (o : Outstanding Body) (now : Nat) : Outstanding Body := { o with sentAt := now }

def burn (o : Outstanding Body) (path now : Nat) : Outstanding Body :=
  { o with
    sentAt := now
    tried := pushTried o.tried path
    recorded := note o.recorded path }

end Outstanding

/-! ## Remembering -/

def rememberOpen (opens : OrdMap Nat (Outstanding Target)) (id path now : Nat) (target : Target) :
    OrdMap Nat (Outstanding Target) :=
  opens.insert id <| match opens.get? id with
    | some o => { o.follow path now with body := target }
    | none => .first path now target

def rememberClose (closes : OrdMap Nat (Outstanding CloseBody)) (id path now : Nat)
    (body : CloseBody) : OrdMap Nat (Outstanding CloseBody) :=
  closes.insert id <| match closes.get? id with
    | some c =>
        { c.follow path now with
          body := { c.body with finalOffset := c.body.finalOffset.or body.finalOffset } }
    | none => .first path now body

def rememberReset (resets : OrdMap Nat (Outstanding ResetReason)) (id path now : Nat)
    (reason : ResetReason) : OrdMap Nat (Outstanding ResetReason) :=
  resets.insert id <| match resets.get? id with
    | some r =>
        if path = 0 then { r with pathId := 0, sentAt := now, body := reason }
        else { r.follow path now with body := reason }
    | none => if path = 0 then ⟨0, now, now, [], reason, []⟩ else .first path now reason

/-! ## Retrying -/

/-- What a retry function works on: the paths, one of the tables and the history. -/
structure Work (Body : Type) where
  session : Session
  table : OrdMap Nat (Outstanding Body)
  attempts : List Attempt

/-- How the frames of one table are retried. -/
structure RetryRules (Body : Type) where
  forget : Session → Nat → Outstanding Body → Bool
  pick : Session → List Nat → Option Nat
  frame : Nat → Body → Frame

section

variable (cfg : SessionConfig) {Body : Type}

def Session.pickRetryTried (s : Session) (tried : List Nat) : Option Nat :=
  pickRetryPath cfg s.now s.paths.entries tried

/-- `pick_retry_untried`: without the rung that goes back to tried paths. -/
def Session.pickRetryUntried (s : Session) (tried : List Nat) : Option Nat :=
  match s.pickRetryTried cfg tried with
  | none => none
  | some alt => if tried.contains alt then none else some alt

def isDue (s : Session) (o : Outstanding Body) : Bool :=
  decide (s.retryAfter cfg o.pathId ≤ s.now - o.sentAt)

namespace Work

/-- The entry's frame goes to `alt`; `refused` is what a full queue makes of the entry. -/
def send (refused : Nat → Outstanding Body → Outstanding Body) (w : Work Body) (id alt : Nat)
    (frame : Frame) : Work Body :=
  let sent := w.session.sendOnPath cfg alt frame
  { session := sent.1
    table := w.table.modify id fun o =>
      if sent.2 then o.follow alt w.session.now else refused alt o
    attempts := w.attempts ++ [⟨alt, frame, sent.2⟩] }

def retryEntry (rules : RetryRules Body) (due : Session → Outstanding Body → Bool)
    (refused : Nat → Outstanding Body → Outstanding Body) (w : Work Body)
    (entry : Nat × Outstanding Body) : Work Body :=
  if rules.forget w.session entry.1 entry.2 then { w with table := w.table.erase entry.1 }
  else if !due w.session entry.2 then w
  else
    match rules.pick w.session entry.2.tried with
    | none => w
    | some alt => w.send cfg refused entry.1 alt (rules.frame entry.1 entry.2.body)

def retryAll (rules : RetryRules Body) (due : Session → Outstanding Body → Bool)
    (refused : Nat → Outstanding Body → Outstanding Body) (select : Outstanding Body → Bool)
    (w : Work Body) : Work Body :=
  (w.table.entries.filter fun entry => select entry.2).foldl (retryEntry cfg rules due refused) w

/-- `reap_closes` and `reap_resets`. -/
def reap (w : Work Body) : Work Body :=
  { w with table := w.table.filter fun _ o =>
      decide (w.session.now - o.startedAt < cfg.closeLingerMs * 1000) }

end Work

def openRules : RetryRules Target where
  forget _ _ _ := false
  pick := Session.pickRetryTried cfg
  frame id target := .streamOpen ⟨id, target⟩

def closeRules : RetryRules CloseBody where
  forget s id c :=
    match s.getStream id with
    | none => true
    | some st => !c.body.secondCloser && st.recvFin
  pick := Session.pickRetryUntried cfg
  frame id body := .streamClose ⟨id, body.finalOffset⟩

def resetRules : RetryRules ResetReason where
  forget _ _ _ := false
  pick := Session.pickRetryUntried cfg
  frame id reason := .streamReset ⟨id, reason⟩

namespace Work

/-- `retry_opens` takes its snapshot of the entries that are due. -/
def retryOpens (w : Work Target) : Work Target :=
  w.retryAll cfg (openRules cfg) (fun _ _ => true) (fun alt o => o.burn alt w.session.now)
    (isDue cfg w.session)

def retryOpenFrom (dead : Nat) (w : Work Target) : Work Target :=
  w.retryAll cfg (openRules cfg) (fun _ _ => true) (fun _ o => o)
    (fun o => decide (o.pathId = dead))

def retryCloses (w : Work CloseBody) : Work CloseBody :=
  (w.reap cfg).retryAll cfg (closeRules cfg) (isDue cfg) (fun _ o => o.postpone w.session.now)
    (fun _ => true)

def retryCloseFrom (dead : Nat) (w : Work CloseBody) : Work CloseBody :=
  w.retryAll cfg (closeRules cfg) (fun _ _ => true) (fun _ o => o)
    (fun o => decide (o.pathId = dead))

def retryResets (w : Work ResetReason) : Work ResetReason :=
  (w.reap cfg).retryAll cfg (resetRules cfg) (isDue cfg) (fun _ o => o.postpone w.session.now)
    (fun _ => true)

def retryResetFrom (dead : Nat) (w : Work ResetReason) : Work ResetReason :=
  w.retryAll cfg (resetRules cfg) (fun _ _ => true) (fun _ o => o)
    (fun o => decide (o.pathId = dead) || decide (o.pathId = 0))

end Work

end

/-! ## The session with its control tables -/

structure Controls where
  session : Session
  isClient : Bool
  dead : Bool
  opens : OrdMap Nat (Outstanding Target)
  closes : OrdMap Nat (Outstanding CloseBody)
  resets : OrdMap Nat (Outstanding ResetReason)
  attempts : List Attempt
  closedAt : OrdMap Nat CloseMark
  deriving DecidableEq

namespace Controls

def openPending (c : Controls) (id : Nat) : Bool := (c.opens.get? id).isSome

def forgetOpen (c : Controls) (id : Nat) : Controls := { c with opens := c.opens.erase id }

def forgetClose (c : Controls) (id : Nat) : Controls := { c with closes := c.closes.erase id }

def forgetReset (c : Controls) (id : Nat) : Controls := { c with resets := c.resets.erase id }

/-- Run a function of one table on the session. -/
def onOpens (c : Controls) (run : Work Target → Work Target) : Controls :=
  let w := run ⟨c.session, c.opens, c.attempts⟩
  { c with session := w.session, opens := w.table, attempts := w.attempts }

def onCloses (c : Controls) (run : Work CloseBody → Work CloseBody) : Controls :=
  let w := run ⟨c.session, c.closes, c.attempts⟩
  { c with session := w.session, closes := w.table, attempts := w.attempts }

def onResets (c : Controls) (run : Work ResetReason → Work ResetReason) : Controls :=
  let w := run ⟨c.session, c.resets, c.attempts⟩
  { c with session := w.session, resets := w.table, attempts := w.attempts }

section

variable (cfg : PickConfig)

def retryOpens (c : Controls) : Controls := c.onOpens (Work.retryOpens cfg.toSessionConfig)

def retryCloses (c : Controls) : Controls := c.onCloses (Work.retryCloses cfg.toSessionConfig)

def retryResets (c : Controls) : Controls := c.onResets (Work.retryResets cfg.toSessionConfig)

def retryOpenFrom (dead : Nat) (c : Controls) : Controls :=
  c.onOpens (Work.retryOpenFrom cfg.toSessionConfig dead)

def retryCloseFrom (dead : Nat) (c : Controls) : Controls :=
  c.onCloses (Work.retryCloseFrom cfg.toSessionConfig dead)

def retryResetFrom (dead : Nat) (c : Controls) : Controls :=
  c.onResets (Work.retryResetFrom cfg.toSessionConfig dead)

/-- The retries of one `maintain` tick. -/
def retryPass (c : Controls) : Controls :=
  ((c.retryOpens cfg).retryCloses cfg).retryResets cfg

/-! ## First sends -/

def pickPref (c : Controls) (pref : PickPref) : Option Nat :=
  pickPathPref cfg c.session.now pref c.session.paths.entries

/-- The flags and tables after an event of one stream: its FIN and its counted end forget the
close, its first DATA and its removal forget the open. -/
def followStream (c : Controls) (id : Nat) (before after : StreamState) : Controls :=
  let c :=
    if (!before.recvFin && after.recvFin) || (!before.countedClose && after.countedClose) then
      c.forgetClose id
    else c
  if (!before.peerSeen && after.peerSeen) || after.gone then c.forgetOpen id else c

def streamEvent (c : Controls) (id : Nat) (event : StreamEvent) : Controls :=
  match c.session.getStream id with
  | none => c
  | some st =>
      { c with session := c.session.streamEvent id event }.followStream id st (event.apply st)

def unstick (s : Session) (id : Nat) (st : StreamState) : Session :=
  (if st.sticky = 0 then s else s.dropSticky st.sticky).modifyStream id StreamState.unstick

def sendClose (c : Controls) (id : Nat) (body : CloseBody) : Controls :=
  match c.pickPref cfg .any with
  | none => c
  | some path =>
      let c := { c with closes := rememberClose c.closes id path c.session.now body }
      match c.session.sendOnPath cfg.toSessionConfig path (.streamClose ⟨id, body.finalOffset⟩) with
      | (s, true) => { c with session := s }
      | (s, false) =>
          match s.pickRetry cfg.toSessionConfig path with
          | none => { c with session := s }
          | some alt =>
              { c with
                closes := rememberClose c.closes id alt s.now body
                session := (s.sendOnPath cfg.toSessionConfig alt
                  (.streamClose ⟨id, body.finalOffset⟩)).1 }

def closeSend (c : Controls) (id : Nat) : Controls :=
  match c.session.getStream id with
  | none => c
  | some st =>
      if st.sendFinSent then c
      else
        let c := { c with
          session := unstick c.session id st
          closedAt := c.closedAt.insert id ⟨st.sendNext, c.session.now⟩ }
        (c.sendClose cfg id ⟨st.recvFin, some st.sendNext⟩).streamEvent id .closeSend

def sendReset (c : Controls) (id : Nat) (why : ResetReason) : Controls :=
  match c.pickPref cfg .any with
  | none => { c with resets := rememberReset c.resets id 0 c.session.now why }
  | some path =>
      let c := { c with resets := rememberReset c.resets id path c.session.now why }
      match c.session.sendOnPath cfg.toSessionConfig path (.streamReset ⟨id, why⟩) with
      | (s, true) => { c with session := s }
      | (s, false) =>
          match s.pickRetry cfg.toSessionConfig path with
          | none => { c with session := s }
          | some alt =>
              { c with
                resets := rememberReset c.resets id alt s.now why
                session := (s.sendOnPath cfg.toSessionConfig alt (.streamReset ⟨id, why⟩)).1 }

/-- What `observe_stream_end` forgets of a stream that ends by the linger. -/
def forgetLingerReset (c : Controls) (id : Nat) (st : StreamState) (reason : ResetReason) :
    Controls :=
  if reason = .timeout ∧ st.overlayProgressFine (c.openPending id) = true ∧ st.recvFin = true ∧
      st.countedClose = false then c.forgetReset id
  else c

def finishStream (c : Controls) (id : Nat) (reason : ResetReason) (sendFrame : Bool) : Controls :=
  match c.session.getStream id with
  | none => c
  | some st =>
      let c :=
        if st.reset then c
        else if sendFrame && !c.dead then c.sendReset cfg id reason
        else c.forgetReset id
      let c := c.forgetLingerReset id st reason
      c.streamEvent id (.reset reason (c.openPending id))

def onPeerReset (c : Controls) (id : Nat) (reason : ResetReason) : Controls :=
  (c.forgetReset id).finishStream cfg id reason false

/-- One stream in `reap_closed_streams`; the residual of a client sends a StreamReset. -/
def reapHalfClosed (c : Controls) (id : Nat) : Controls :=
  match c.session.getStream id with
  | none => c
  | some st =>
      let ended := st.countedClose || st.reset
      if !ended && (st.sendFinSent || st.recvFin) &&
          !st.overlayProgressFine (c.openPending id) then
        c.finishStream cfg id .timeout true
      else
        let c :=
          if ended || !(st.sendFinSent || st.recvFin) then c
          else if st.recvFin then c.forgetReset id
          else if c.isClient then c.sendReset cfg id .timeout
          else c
        c.streamEvent id (.reapHalfClosed c.isClient (c.openPending id))

/-- `reap_stream`, when both loops of the pump have ended. -/
def reapStream (c : Controls) (id : Nat) : Controls :=
  match c.session.getStream id with
  | none => c
  | some st =>
      if !st.countedClose && !(st.sendFinSent && st.recvFin) &&
          !st.overlayProgressFine (c.openPending id) then
        c.finishStream cfg id .timeout true
      else c.streamEvent id (.reapStream (c.openPending id))

def markDead (c : Controls) (sendFrames : Bool) : Controls :=
  if c.dead then c
  else
    let c := { c with dead := true, closes := .empty }
    let c := c.session.liveIds.foldl (fun c id => c.finishStream cfg id .sessionDead sendFrames) c
    { c with resets := .empty }

/-! ## Beginnings -/

def beginStream (c : Controls) (id path : Nat) : Controls :=
  { c with
    session :=
      { c.session with
        streams := c.session.streams.insert id (.new id cfg.initialWindow cfg.chan)
        senders := c.session.senders.erase id }.setSticky id path
    closedAt := c.closedAt.erase id }

/-- `open_stream`: the other path is remembered only when its queue took the frame. -/
def openStream (c : Controls) (id : Nat) (target : Target) : Option Controls :=
  if !c.isClient || (c.session.getStream id).isSome then none
  else
    (c.pickPref cfg .interactive).map fun path =>
      let c := c.beginStream cfg id path
      let c := { c with opens := rememberOpen c.opens id path c.session.now target }
      match c.session.sendOnPath cfg.toSessionConfig path (.streamOpen ⟨id, target⟩) with
      | (s, true) => { c with session := s }
      | (s, false) =>
          match s.pickRetry cfg.toSessionConfig path with
          | none => { c with session := s }
          | some alt =>
              match s.sendOnPath cfg.toSessionConfig alt (.streamOpen ⟨id, target⟩) with
              | (s, true) =>
                  { c with
                    session := s.setSticky id alt
                    opens := rememberOpen c.opens id alt s.now target }
              | (s, false) => { c with session := s }

/-- `accept_remote_stream`; early DATA is delivered by events of its own. -/
def accept (c : Controls) (id path : Nat) : Option Controls :=
  if c.isClient || (c.session.getStream id).isSome then none else some (c.beginStream cfg id path)

end

end Controls

/-! ## The transition system -/

def StreamEvent.isArrival : StreamEvent → Bool
  | .data _ _ _ | .appRead _ _ | .peerClose _ | .expireRecvClose => true
  | _ => false

inductive ControlAction where
  | tick (us : Nat)
  | pool (paths : OrdMap Nat Path)
  | openStream (id : Nat) (target : Target)
  | accept (id path : Nat)
  | sendPiece (id : Nat) (piece : Bytes) (path : Nat)
  | ack (body : StreamAck)
  | arrival (id : Nat) (event : StreamEvent)
  | closeSend (id : Nat)
  | resetStream (id : Nat) (reason : ResetReason)
  | peerReset (reset : StreamReset)
  | reapHalfClosed (id : Nat)
  | reapStream (id : Nat)
  | markDead (sendFrames : Bool)
  | retryOpens
  | retryCloses
  | retryResets
  | retryOpenFrom (dead : Nat)
  | retryCloseFrom (dead : Nat)
  | retryResetFrom (dead : Nat)
  deriving DecidableEq

namespace Controls

/-- `send_data` cuts a piece. -/
def sendPiece (c : Controls) (id : Nat) (piece : Bytes) (path : Nat) : Controls :=
  { c with session := c.session.modifyStream id fun st => { st with
      sendNext := st.sendNext + piece.length
      unacked := st.unacked.insert st.sendNext (Endpoint.newUnacked piece path c.session.now) } }

def onAck (c : Controls) (ack : StreamAck) : Controls :=
  match c.session.getStream ack.streamId with
  | none => c
  | some _ =>
      { c with session := c.session.modifyStream ack.streamId fun st =>
          st.onAck ack c.session.now }.forgetOpen ack.streamId

def step (cfg : PickConfig) (c : Controls) : ControlAction → Option Controls
  | .tick us => some { c with session := { c.session with now := c.session.now + us } }
  | .pool paths => some { c with session := { c.session with paths := paths } }
  | .openStream id target => c.openStream cfg id target
  | .accept id path => c.accept cfg id path
  | .sendPiece id piece path => some (c.sendPiece id piece path)
  | .ack body => some (c.onAck body)
  | .arrival id event => if event.isArrival then some (c.streamEvent id event) else none
  | .closeSend id => some (c.closeSend cfg id)
  | .resetStream id reason => some (c.finishStream cfg id reason true)
  | .peerReset reset => some (c.onPeerReset cfg reset.streamId reset.reason)
  | .reapHalfClosed id => some (c.reapHalfClosed cfg id)
  | .reapStream id => some (c.reapStream cfg id)
  | .markDead sendFrames => some (c.markDead cfg sendFrames)
  | .retryOpens => some (c.retryOpens cfg)
  | .retryCloses => some (c.retryCloses cfg)
  | .retryResets => some (c.retryResets cfg)
  | .retryOpenFrom dead => some (c.retryOpenFrom cfg dead)
  | .retryCloseFrom dead => some (c.retryCloseFrom cfg dead)
  | .retryResetFrom dead => some (c.retryResetFrom cfg dead)

def new (isClient : Bool) : Controls where
  session := .new
  isClient := isClient
  dead := false
  opens := .empty
  closes := .empty
  resets := .empty
  attempts := []
  closedAt := .empty

def machine (cfg : PickConfig) : Machine Controls ControlAction :=
  ⟨fun c => ∃ isClient, c = new isClient, step cfg⟩

theorem reachable_new (cfg : PickConfig) (isClient : Bool) :
    (machine cfg).Reachable (new isClient) :=
  .start ⟨isClient, rfl⟩

end Controls

end NyaLink
