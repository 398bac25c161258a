import NyaLink.Client.Handshake

/-!
# Handshakes over many connections

Clients with the key, strangers, the server, and servers that only look like it
meet over TLS connections.  Both ends of a connection export the same bytes, and
no other connection does.  A stranger sends what it likes, a proof it has seen
on another connection included; it cannot compute one.  Bytes between a client
and the server arrive in order, up to where the connection breaks.
-/

namespace NyaLink

open Wire (ProtoError asBytes)

/-! ## What the server answers -/

/-- The path name of a CreateSession; an old peer has none. -/
def orInit (pathName : String) : String := if pathName.isEmpty then "init" else pathName

/-- The frame at the front of what has arrived. -/
def Wire.front? (received : Bytes) : Option Wire.Frame :=
  match Wire.readFrame.run received with
  | .ok (frame, _) => some frame
  | .error _ => none

/-- The bytes of a reply, if there is one. -/
def replyBytes (reply : Option Wire.Frame) : Bytes := reply.elim [] Wire.written

section

variable (digests : Digests) (psk : Bytes) (exporter : ByteArrayOf exporterLen)
  (sessionId : SessionId) (t : SessionTable)

/-- A frame is read, and what comes of it: the reply, what the server returns and the table. -/
inductive Answers (read : Option Wire.Frame) (accepted : Accepted) : Option Wire.Frame → Prop
  | created (nonce : ByteArrayOf nonceLen) (userId pathName : String) :
      read = some ((Request.create nonce userId pathName).frame digests psk exporter) →
      accepted.table = t.letIn sessionId →
      (accepted.outcome = .ok (.created t.created.length sessionId (orInit pathName)) ∨
        accepted.outcome = .error (.proto .io)) →
      Answers read accepted (some (.createSessionOk ⟨sessionId⟩))
  | joined (id : SessionId) (pathName : String) (session : Nat) :
      read = some ((Request.join id pathName).frame digests psk exporter) →
      (t.getSession id).1 = some session → accepted.table = (t.getSession id).2 →
      (accepted.outcome = .ok (.joined session pathName) ∨
        accepted.outcome = .error (.proto .io)) →
      Answers read accepted (some .joinSessionOk)
  | refused (message : String) (failure : HandshakeError) :
      accepted.outcome = .error failure →
      (accepted.table = t ∨ ∃ id, accepted.table = (t.getSession id).2) →
      (message = "unknown session" → failure = .unknownSession) →
      Answers read accepted (some (.handshakeErr ⟨message⟩))
  | silent (failure : HandshakeError) :
      accepted.outcome = .error failure → accepted.table = t → Answers read accepted none

end

section

variable {digests : Digests} {psk : Bytes} {exporter : ByteArrayOf exporterLen}
  {sessionId : SessionId} {t : SessionTable} {io : Peer}

theorem version_message_ne (version : String) :
    "unsupported version " ++ version ≠ "unknown session" := by
  intro same
  have characters := congrArg (fun s : String => s.toList.take 3) same
  simp only [String.toList_append] at characters
  rw [List.take_append_of_le_length (by decide)] at characters
  exact absurd characters (by decide)

theorem sent_writeFrame (fresh : io.sent = []) (reply : Wire.Frame) :
    (io.writeFrame reply).2.sent <+: replyBytes (some reply) := by
  obtain ⟨bytes, sent, part⟩ := io.writeFrame_prefix reply
  rw [sent, fresh, List.nil_append]
  exact part

theorem writeFrame_failure {frame : Wire.Frame} {failure : ProtoError} {left : Peer}
    (fits : (Wire.encode frame).length ≤ Wire.maxFrameSize)
    (wrote : io.writeFrame frame = (.error failure, left)) : failure = .io := by
  have result := io.writeFrame_fst fits
  rw [wrote] at result
  split at result <;> cases result
  rfl

theorem acceptCreate_answers (fresh : io.sent = []) (c : Wire.CreateSession) :
    ∃ reply, (acceptCreate digests psk exporter.bytes sessionId io t c).io.sent <+:
        replyBytes reply ∧
      Answers digests psk exporter sessionId t (some (.createSession c))
        (acceptCreate digests psk exporter.bytes sessionId io t c) reply := by
  unfold acceptCreate
  by_cases version : c.version = protocolVersion
  · rw [if_neg (not_not_intro version)]
    by_cases proof : c.proof =
        digests.createProof psk exporter.bytes c.nonce.bytes (asBytes c.userId)
    · simp only [(proofsEqual_bytes _ _).mpr proof]
      by_cases closed : t.closed = true
      · have none_created : t.createWithIncoming sessionId = none := if_pos closed
        simp only [none_created]
        exact ⟨_, sent_writeFrame fresh _, .refused _ _ rfl (.inl rfl) (by decide)⟩
      · have created : t.createWithIncoming sessionId =
            some (t.created.length, t.letIn sessionId) := if_neg closed
        have asked : Wire.Frame.createSession c =
            (Request.create c.nonce c.userId c.pathName).frame digests psk exporter := by
          rw [Request.frame, ← version, ← proof]
        have sent := sent_writeFrame fresh (.createSessionOk ⟨sessionId⟩)
        simp only [created]
        cases wrote : io.writeFrame (.createSessionOk ⟨sessionId⟩) with
        | mk result left =>
            rw [wrote] at sent
            cases result with
            | error failure =>
                obtain rfl := writeFrame_failure (length_createSessionOk sessionId) wrote
                exact ⟨_, sent, .created _ _ _ (congrArg some asked) rfl (.inr rfl)⟩
            | ok written =>
                exact ⟨_, sent, .created _ _ _ (congrArg some asked) rfl (.inl rfl)⟩
    · have differs := Bool.eq_false_iff.mpr (mt (proofsEqual_bytes _ _).mp proof)
      simp only [differs]
      exact ⟨_, sent_writeFrame fresh _, .refused _ _ rfl (.inl rfl) (by decide)⟩
  · rw [if_pos version]
    exact ⟨_, sent_writeFrame fresh _, .refused _ _ rfl (.inl rfl)
      fun same => absurd same (version_message_ne _)⟩

theorem acceptJoin_answers (fresh : io.sent = []) (j : Wire.JoinSession) :
    ∃ reply, (acceptJoin digests psk exporter.bytes io t j).io.sent <+: replyBytes reply ∧
      Answers digests psk exporter sessionId t (some (.joinSession j))
        (acceptJoin digests psk exporter.bytes io t j) reply := by
  unfold acceptJoin
  cases found : t.getSession j.sessionId with
  | mk session left =>
      have table : left = (t.getSession j.sessionId).2 := by rw [found]
      cases session with
      | none =>
          exact ⟨_, sent_writeFrame fresh _, .refused _ _ rfl (.inr ⟨_, table⟩) fun _ => rfl⟩
      | some session =>
          dsimp only
          split
          · exact ⟨_, sent_writeFrame fresh _, .refused _ _ rfl (.inr ⟨_, table⟩) (by decide)⟩
          · rename_i equal
            have proof := (proofsEqual_bytes _ _).mp (by simpa using equal)
            have asked : Wire.Frame.joinSession j =
                (Request.join j.sessionId j.pathName).frame digests psk exporter := by
              rw [Request.frame, ← proof]
            have known : (t.getSession j.sessionId).1 = some session := by rw [found]
            have sent := sent_writeFrame fresh .joinSessionOk
            cases wrote : io.writeFrame .joinSessionOk with
            | mk result left' =>
                rw [wrote] at sent
                cases result with
                | error failure =>
                    obtain rfl := writeFrame_failure (by decide) wrote
                    exact ⟨_, sent, .joined _ _ _ (congrArg some asked) known table (.inr rfl)⟩
                | ok written =>
                    exact ⟨_, sent, .joined _ _ _ (congrArg some asked) known table (.inl rfl)⟩

variable (digests psk exporter sessionId t) in
/-- Whatever a new peer sends, the server answers it once. -/
theorem serverAcceptHandshake_answers (fresh : io.sent = []) :
    ∃ reply, (serverAcceptHandshake digests psk exporter.bytes sessionId io t).io.sent <+:
        replyBytes reply ∧
      Answers digests psk exporter sessionId t (Wire.front? io.received)
        (serverAcceptHandshake digests psk exporter.bytes sessionId io t) reply := by
  unfold serverAcceptHandshake
  cases read : io.readFrame with
  | error failure => exact ⟨none, fresh ▸ List.nil_prefix, .silent _ rfl rfl⟩
  | ok result =>
      obtain ⟨frame, left⟩ := result
      obtain ⟨run, sent⟩ := Peer.readFrame_eq_ok read
      have front : Wire.front? io.received = some frame := by
        rw [Wire.front?, run]
      rw [front]
      have fresh' : left.sent = [] := sent.trans fresh
      cases frame with
      | createSession c => exact acceptCreate_answers fresh' c
      | joinSession j => exact acceptJoin_answers fresh' j
      | _ => exact ⟨none, fresh' ▸ List.nil_prefix, .silent _ rfl rfl⟩

end

/-! ## The table between handshakes -/

namespace SessionTable

/-- What happens to the table apart from the handshakes. -/
def upkeep : ServerAction → Bool
  | .get _ | .die _ | .removeSlot _ | .testAgain _ | .setClosed | .drain | .shutdownNext => true
  | _ => false

/-- The sessions are the same, dead or alive, and no slot was filled. -/
structure Follows (t next : SessionTable) : Prop where
  ids : ∀ session, next.idOf session = t.idOf session
  length : next.created.length = t.created.length
  slots : ∀ key session, next.sessions.get? key = some session → t.sessions.get? key = some session

/-- A slot holds a session with the id of the slot. -/
def Named (t : SessionTable) : Prop :=
  ∀ key session, t.sessions.get? key = some session → t.idOf session = some key

variable {t next : SessionTable}

theorem Follows.refl (t : SessionTable) : t.Follows t := ⟨fun _ => rfl, rfl, fun _ _ => id⟩

theorem Follows.congr {other : SessionTable} (follows : t.Follows next)
    (created : other.created = next.created) (sessions : other.sessions = next.sessions) :
    t.Follows other := by
  refine ⟨fun session => ?_, (congrArg List.length created).trans follows.length, ?_⟩
  · rw [idOf, created]
    exact follows.ids session
  · rw [sessions]
    exact follows.slots

theorem Named.follows (named : t.Named) (follows : t.Follows next) : next.Named := by
  intro key session found
  rw [follows.ids]
  exact named key session (follows.slots key session found)

theorem follows_markDead (t : SessionTable) (session : Nat) : t.Follows (t.markDead session) := by
  refine ⟨fun other => ?_, List.length_modify .., fun _ _ => id⟩
  unfold idOf markDead
  rw [List.getElem?_modify]
  cases t.created[other]? with
  | none => rfl
  | some entry =>
      by_cases same : session = other
      · simp [same]
      · simp [same]

theorem follows_get (t : SessionTable) (key : Nat) : t.Follows (t.get key) := by
  unfold SessionTable.get
  split
  · exact .refl t
  · split
    · exact ⟨fun _ => rfl, rfl, fun _ _ found => (OrdMap.get?_erase_eq_some_iff.mp found).2⟩
    · exact .refl t

theorem follows_getSession (t : SessionTable) (id : SessionId) :
    t.Follows (t.getSession id).2 := by
  unfold getSession
  split
  · exact .refl t
  · exact t.follows_get id.slot

theorem follows_step {action : ServerAction} (kept : upkeep action = true)
    (taken : t.step action = some next) : t.Follows next := by
  cases action with
  | get key =>
      cases taken
      exact t.follows_get key
  | die session =>
      cases taken
      exact t.follows_markDead session
  | removeSlot session =>
      simp only [step, removeSlot] at taken
      split at taken
      · obtain ⟨key, _, rfl⟩ := Option.map_eq_some_iff.mp taken
        exact ⟨fun _ => rfl, rfl, fun _ _ found => (OrdMap.get?_erase_eq_some_iff.mp found).2⟩
      · cases taken
  | testAgain connection =>
      simp only [step, testAgain] at taken
      split at taken
      · rename_i session _
        cases taken
        have ended : t.Follows (if t.closed then t.markDead session else t) := by
          split
          · exact t.follows_markDead session
          · exact .refl t
        exact ended.congr rfl rfl
      · cases taken
  | setClosed =>
      simp only [step] at taken
      split at taken
      · cases taken
        exact (Follows.refl t).congr rfl rfl
      · cases taken
  | drain =>
      simp only [step, drain] at taken
      split at taken
      · cases taken
        refine ⟨fun _ => rfl, rfl, fun key session found => ?_⟩
        cases found
      · cases taken
  | shutdownNext =>
      simp only [step, shutdownNext] at taken
      split at taken
      · cases taken
        exact (t.follows_markDead _).congr rfl rfl
      · cases taken
  | _ => cases kept

theorem length_letIn (t : SessionTable) (id : SessionId) :
    (t.letIn id).created.length = t.created.length + 1 := List.length_append

theorem idOf_letIn_self (t : SessionTable) (id : SessionId) :
    (t.letIn id).idOf t.created.length = some id.slot := by
  simp [idOf, letIn]

theorem idOf_letIn_of_some (id : SessionId) {session key : Nat}
    (known : t.idOf session = some key) : (t.letIn id).idOf session = some key := by
  obtain ⟨entry, found, same⟩ := Option.map_eq_some_iff.mp known
  have within : session < t.created.length := (List.getElem?_eq_some_iff.mp found).1
  have located : (t.letIn id).created[session]? = some entry :=
    (List.getElem?_append_left within).trans found
  rw [idOf, located, ← same]
  rfl

theorem Named.letIn (named : t.Named) (id : SessionId) : (t.letIn id).Named := by
  intro key session found
  rcases OrdMap.get?_insert_cases found with ⟨own, rfl⟩ | before
  · rw [own]
    exact t.idOf_letIn_self id
  · exact idOf_letIn_of_some id (named key session before)

theorem Named.getSession (named : t.Named) {id : SessionId} {session : Nat}
    (found : (t.getSession id).1 = some session) : t.idOf session = some id.slot :=
  named _ _ (mem_liveSlots.mp (mem_liveSlots_of_getSession found)).1

end SessionTable

/-! ## Connections -/

/-- A TLS connection with what has happened at both ends. -/
structure TlsConnection where
  exporter : ByteArrayOf exporterLen
  /-- The client has the key; otherwise it is a stranger. -/
  clientOurs : Bool
  /-- The server is the one with the key; otherwise it is a stranger. -/
  serverOurs : Bool
  request : Option Request
  toServer : Bytes
  /-- What `server_accept_handshake` returned. -/
  outcome : Option (Except HandshakeError HandshakeResult)
  toClient : Bytes
  /-- What the client was told; a join that was accepted has no id to tell. -/
  heard : Option (Except HandshakeError (Option SessionId))

structure HandshakeNet where
  connections : List TlsConnection
  table : SessionTable
  /-- The connection that each session was let in on. -/
  owners : List Nat

inductive HandshakeAction where
  | connect (exporter : ByteArrayOf exporterLen) (clientOurs serverOurs : Bool)
  | ask (connection : Nat) (request : Request) (breaks : Option Nat)
  /-- `received` is what arrives before the connection ends. -/
  | serve (connection : Nat) (received : Bytes) (breaks : Option Nat) (sessionId : SessionId)
  | hear (connection : Nat) (received : Bytes)
  | other (action : ServerAction)

/-- What a client makes of the reply to its request. -/
def Request.hear (request : Request) (io : Peer) : Except HandshakeError (Option SessionId) :=
  match request with
  | .create _ _ _ => (readReply createOk io).1.map some
  | .join _ _ => (readReply joinOk io).1.map fun _ => none

theorem readReply_fst {Welcome : Type} (welcome : Wire.Frame → Option Welcome) (io : Peer) :
    (readReply welcome io).1 = (readReply welcome ⟨io.received, [], none⟩).1 := by
  unfold readReply Peer.readFrame
  cases Wire.readFrame.run io.received with
  | error failure => rfl
  | ok result =>
      obtain ⟨frame, left⟩ := result
      dsimp only
      cases welcome frame with
      | some value => rfl
      | none => cases frame <;> rfl

/-- A call of the client is its request and, if that was written, what it hears. -/
theorem clientHandshake_fst {Welcome : Type} (frame : Wire.Frame)
    (welcome : Wire.Frame → Option Welcome) (received : Bytes) (breaks : Option Nat) :
    (clientHandshake frame welcome ⟨received, [], breaks⟩).1 =
      match ((Peer.mk [] [] breaks).writeFrame frame).1 with
      | .error failure => .error (.proto failure)
      | .ok () => (readReply welcome ⟨received, [], none⟩).1 := by
  unfold clientHandshake Peer.writeFrame Wire.writeFrame
  by_cases large : Wire.maxFrameSize < (Wire.encode frame).length
  · simp only [if_pos large]
  · simp only [if_neg large]
    cases breaks with
    | some n => rfl
    | none => exact readReply_fst welcome _

theorem client_asks_then_hears (digests : Digests) (psk : Bytes)
    (exporter : ByteArrayOf exporterLen) (request : Request) (received : Bytes)
    (breaks : Option Nat) :
    (match request with
      | .create nonce userId pathName =>
          (clientCreateSession digests psk exporter nonce userId pathName
            ⟨received, [], breaks⟩).1.map some
      | .join sessionId pathName =>
          (clientJoinSession digests psk exporter sessionId pathName
            ⟨received, [], breaks⟩).1.map fun _ => none) =
      match ((Peer.mk [] [] breaks).writeFrame (request.frame digests psk exporter)).1 with
      | .error failure => .error (.proto failure)
      | .ok () => request.hear ⟨received, [], none⟩ := by
  cases request with
  | create nonce userId pathName =>
      dsimp only
      rw [clientCreateSession, clientHandshake_fst]
      split <;> rfl
  | join sessionId pathName =>
      dsimp only
      rw [clientJoinSession, clientHandshake_fst]
      split <;> rfl

namespace HandshakeNet

section

variable (digests : Digests) (psk : Bytes)

def connect (net : HandshakeNet) (exporter : ByteArrayOf exporterLen)
    (clientOurs serverOurs : Bool) : HandshakeNet :=
  { net with
    connections := net.connections ++
      [⟨exporter, clientOurs, serverOurs, none, [], none, [], none⟩] }

def ask (net : HandshakeNet) (connection : Nat) (request : Request) (breaks : Option Nat) :
    Option HandshakeNet :=
  net.connections[connection]?.bind fun c =>
    if c.clientOurs = true ∧ c.request = none then
      let wrote := (Peer.mk [] [] breaks).writeFrame (request.frame digests psk c.exporter)
      let heard := match wrote.1 with
        | .error failure => some (.error (.proto failure))
        | .ok () => none
      let asked := { c with request := some request, toServer := wrote.2.sent, heard }
      some { net with connections := net.connections.set connection asked }
    else none

/-- From a client with the key comes what it wrote; a stranger sends what it likes. -/
def serve (net : HandshakeNet) (connection : Nat) (received : Bytes) (breaks : Option Nat)
    (sessionId : SessionId) : Option HandshakeNet :=
  net.connections[connection]?.bind fun c =>
    if c.serverOurs = true ∧ c.outcome = none ∧
        (c.clientOurs = true → received <+: c.toServer) then
      let accepted := serverAcceptHandshake digests psk c.exporter.bytes sessionId
        ⟨received, [], breaks⟩ net.table
      let served := { c with outcome := some accepted.outcome, toClient := accepted.io.sent }
      let letIn := accepted.table.created.length - net.table.created.length
      some {
        connections := net.connections.set connection served
        table := accepted.table
        owners := net.owners ++ List.replicate letIn connection }
    else none

def hear (net : HandshakeNet) (connection : Nat) (received : Bytes) : Option HandshakeNet :=
  net.connections[connection]?.bind fun c =>
    c.request.bind fun request =>
      if c.heard = none ∧ (c.serverOurs = true → received <+: c.toClient) then
        let told := { c with heard := some (request.hear ⟨received, [], none⟩) }
        some { net with connections := net.connections.set connection told }
      else none

def step (net : HandshakeNet) : HandshakeAction → Option HandshakeNet
  | .connect exporter clientOurs serverOurs => some (net.connect exporter clientOurs serverOurs)
  | .ask connection request breaks => net.ask digests psk connection request breaks
  | .serve connection received breaks sessionId =>
      net.serve digests psk connection received breaks sessionId
  | .hear connection received => net.hear connection received
  | .other action =>
      if SessionTable.upkeep action then
        (net.table.step action).map fun table => { net with table }
      else none

def empty : HandshakeNet := ⟨[], .new, []⟩

def machine : Machine HandshakeNet HandshakeAction := ⟨fun net => net = empty, step digests psk⟩

/-- A client with the key has made a proof over the message. -/
def Signed (net : HandshakeNet) (key message : Bytes) : Prop :=
  ∃ c ∈ net.connections, ∃ request, c.request = some request ∧
    request.key digests psk = key ∧ request.message c.exporter = message

/-- No two connections export the same bytes, and a proof that is right and comes from a stranger
was made by a client. -/
def Assumed (net : HandshakeNet) : HandshakeAction → Prop
  | .connect exporter _ _ => ∀ c ∈ net.connections, c.exporter ≠ exporter
  | .serve connection received _ _ =>
      ∀ c frame request, net.connections[connection]? = some c → c.clientOurs = false →
        Wire.front? received = some frame →
        Request.read? frame = some (request, request.proof digests psk c.exporter) →
        net.Signed digests psk (request.key digests psk) (request.message c.exporter)
  | _ => True

end

/-- What the ends of a connection believe is so. -/
structure Agreed (net : HandshakeNet) (i : Nat) (c : TlsConnection) : Prop where
  stranger : c.clientOurs = false → ∀ result, c.outcome ≠ some (.ok result)
  created : ∀ session id pathName, c.outcome = some (.ok (.created session id pathName)) →
    ∃ nonce userId asked, c.request = some (.create nonce userId asked) ∧
      pathName = orInit asked ∧ net.owners[session]? = some i ∧
      net.table.idOf session = some id.slot
  joined : ∀ session pathName, c.outcome = some (.ok (.joined session pathName)) →
    ∃ id, c.request = some (.join id pathName) ∧ net.table.idOf session = some id.slot
  toldCreated : c.serverOurs = true → ∀ id, c.heard = some (.ok (some id)) →
    ∃ session, net.owners[session]? = some i ∧ net.table.idOf session = some id.slot
  toldJoined : c.serverOurs = true → c.heard = some (.ok none) →
    ∃ id pathName session, c.request = some (.join id pathName) ∧
      net.table.idOf session = some id.slot ∧
      (c.outcome = some (.ok (.joined session pathName)) ∨
        c.outcome = some (.error (.proto .io)))
  toldUnknown : c.serverOurs = true → c.heard = some (.error .unknownSession) →
    c.outcome = some (.error .unknownSession)

/-- Both ends of every connection agree, and each session is one that a client asked for on a
connection of its own. -/
structure Agreement (net : HandshakeNet) : Prop where
  agreed : ∀ i c, net.connections[i]? = some c → net.Agreed i c
  owned : net.owners.length = net.table.created.length
  once : net.owners.Nodup
  asked : ∀ i ∈ net.owners, ∃ c nonce userId pathName, net.connections[i]? = some c ∧
    c.clientOurs = true ∧ c.request = some (.create nonce userId pathName)

/-! ## What holds of each connection -/

/-- What a connection's state says about the reply the server wrote on it. -/
inductive Settled (net : HandshakeNet) (i : Nat) (c : TlsConnection) : Option Wire.Frame → Prop
  | created (session : Nat) (id : SessionId) (nonce : ByteArrayOf nonceLen)
      (userId pathName : String) :
      c.request = some (.create nonce userId pathName) → net.owners[session]? = some i →
      net.table.idOf session = some id.slot →
      (c.outcome = some (.ok (.created session id (orInit pathName))) ∨
        c.outcome = some (.error (.proto .io))) →
      Settled net i c (some (.createSessionOk ⟨id⟩))
  | joined (session : Nat) (id : SessionId) (pathName : String) :
      c.request = some (.join id pathName) → net.table.idOf session = some id.slot →
      (c.outcome = some (.ok (.joined session pathName)) ∨
        c.outcome = some (.error (.proto .io))) →
      Settled net i c (some .joinSessionOk)
  | refused (message : String) (failure : HandshakeError) :
      c.outcome = some (.error failure) →
      (message = "unknown session" → failure = .unknownSession) →
      Settled net i c (some (.handshakeErr ⟨message⟩))
  | silent (failure : HandshakeError) :
      c.outcome = some (.error failure) → Settled net i c none

/-- What a client was told by the server is so. -/
structure Told (net : HandshakeNet) (i : Nat) (c : TlsConnection) : Prop where
  created : c.serverOurs = true → ∀ id, c.heard = some (.ok (some id)) →
    ∃ session, net.owners[session]? = some i ∧ net.table.idOf session = some id.slot
  joined : c.serverOurs = true → c.heard = some (.ok none) →
    ∃ id pathName session, c.request = some (.join id pathName) ∧
      net.table.idOf session = some id.slot ∧
      (c.outcome = some (.ok (.joined session pathName)) ∨
        c.outcome = some (.error (.proto .io)))
  unknown : c.serverOurs = true → c.heard = some (.error .unknownSession) →
    c.outcome = some (.error .unknownSession)

section

variable (digests : Digests) (psk : Bytes)

structure Bound (net : HandshakeNet) (i : Nat) (c : TlsConnection) : Prop where
  ours : ∀ request, c.request = some request → c.clientOurs = true
  asked : c.toServer <+: replyBytes (c.request.map (·.frame digests psk c.exporter))
  served : c.outcome = none ∧ c.toClient = [] ∨
    ∃ reply, c.toClient <+: replyBytes reply ∧ Settled net i c reply
  told : Told net i c

structure Sound (net : HandshakeNet) : Prop where
  bound : ∀ i c, net.connections[i]? = some c → Bound digests psk net i c
  exporters : ∀ (i j : Nat) (c d : TlsConnection), net.connections[i]? = some c →
    net.connections[j]? = some d → c.exporter = d.exporter → i = j
  owned : net.owners.length = net.table.created.length
  once : net.owners.Nodup
  owners : ∀ i ∈ net.owners, ∃ c nonce userId pathName, net.connections[i]? = some c ∧
    c.outcome ≠ none ∧ c.request = some (.create nonce userId pathName)
  named : net.table.Named

end

variable {digests : Digests} {psk : Bytes} {net next : HandshakeNet} {i : Nat}
  {c : TlsConnection} {reply : Option Wire.Frame}

/-- Owners stay, and so do the ids of sessions. -/
structure Extends (net next : HandshakeNet) : Prop where
  owners : net.owners <+: next.owners
  ids : ∀ session key, net.table.idOf session = some key → next.table.idOf session = some key

theorem Extends.owner (grows : net.Extends next) {session : Nat}
    (owner : net.owners[session]? = some i) : next.owners[session]? = some i := by
  obtain ⟨more, same⟩ := grows.owners
  rw [← same]
  exact (List.getElem?_append_left (List.getElem?_eq_some_iff.mp owner).1).trans owner

theorem Settled.mono (settled : net.Settled i c reply) (grows : net.Extends next) :
    next.Settled i c reply := by
  cases settled with
  | created session id nonce userId pathName request owner named outcome =>
      exact .created session id nonce userId pathName request (grows.owner owner)
        (grows.ids session _ named) outcome
  | joined session id pathName request named outcome =>
      exact .joined session id pathName request (grows.ids session _ named) outcome
  | refused message failure outcome unknown => exact .refused message failure outcome unknown
  | silent failure outcome => exact .silent failure outcome

theorem Told.mono (told : net.Told i c) (grows : net.Extends next) : next.Told i c := by
  refine ⟨fun ours id heard => ?_, fun ours heard => ?_, told.unknown⟩
  · obtain ⟨session, owner, named⟩ := told.created ours id heard
    exact ⟨session, grows.owner owner, grows.ids session _ named⟩
  · obtain ⟨id, pathName, session, request, named, outcome⟩ := told.joined ours heard
    exact ⟨id, pathName, session, request, grows.ids session _ named, outcome⟩

theorem Bound.mono (bound : Bound digests psk net i c) (grows : net.Extends next) :
    Bound digests psk next i c := by
  refine ⟨bound.ours, bound.asked, ?_, bound.told.mono grows⟩
  rcases bound.served with unserved | ⟨reply, part, settled⟩
  · exact .inl unserved
  · exact .inr ⟨reply, part, settled.mono grows⟩

/-- A client that has been told of an error other than an unknown session knows nothing. -/
theorem Told.of_heard (ok : ∀ value, c.heard ≠ some (.ok value))
    (unknown : c.heard ≠ some (.error .unknownSession)) : net.Told i c :=
  ⟨fun _ _ heard => absurd heard (ok _), fun _ heard => absurd heard (ok _),
    fun _ heard => absurd heard unknown⟩

/-! ## Reading a reply -/

theorem front?_of_prefix {frame read : Wire.Frame} {received : Bytes}
    (arrived : received <+: Wire.written frame) (front : Wire.front? received = some read) :
    read = Wire.clipSack frame := by
  unfold Wire.front? at front
  split at front
  · rename_i run
    cases front
    exact Wire.readFrame_of_prefix arrived run
  · cases front

theorem front?_of_replyBytes {received : Bytes} {read : Wire.Frame}
    (arrived : received <+: replyBytes reply) (front : Wire.front? received = some read) :
    ∃ frame, reply = some frame ∧ read = Wire.clipSack frame := by
  cases reply with
  | none =>
      obtain rfl := List.prefix_nil.mp arrived
      cases front
  | some frame => exact ⟨frame, rfl, front?_of_prefix arrived front⟩

theorem readReply_cases {Welcome : Type} (welcome : Wire.Frame → Option Welcome) (io : Peer) :
    (∃ frame value, Wire.front? io.received = some frame ∧ welcome frame = some value ∧
      (readReply welcome io).1 = .ok value) ∨
    (∃ e, Wire.front? io.received = some (.handshakeErr e) ∧ e.message = "unknown session" ∧
      (readReply welcome io).1 = .error .unknownSession) ∨
    ∃ failure, failure ≠ .unknownSession ∧ (readReply welcome io).1 = .error failure := by
  unfold readReply
  cases read : io.readFrame with
  | error failure => exact .inr (.inr ⟨_, by simp, rfl⟩)
  | ok result =>
      obtain ⟨frame, left⟩ := result
      have front : Wire.front? io.received = some frame := by
        rw [Wire.front?, (Peer.readFrame_eq_ok read).1]
      dsimp only
      cases welcomed : welcome frame with
      | some value => exact .inl ⟨frame, value, front, welcomed, rfl⟩
      | none =>
          cases frame with
          | handshakeErr e =>
              dsimp only
              by_cases unknown : e.message = "unknown session"
              · rw [if_pos unknown]
                exact .inr (.inl ⟨e, front, unknown, rfl⟩)
              · rw [if_neg unknown]
                exact .inr (.inr ⟨_, by simp, rfl⟩)
          | _ => exact .inr (.inr ⟨_, by simp, rfl⟩)

theorem hear_cases (request : Request) (received : Bytes) :
    (∃ id, Wire.front? received = some (.createSessionOk ⟨id⟩) ∧
      request.hear ⟨received, [], none⟩ = .ok (some id)) ∨
    (Wire.front? received = some .joinSessionOk ∧
      request.hear ⟨received, [], none⟩ = .ok none) ∨
    (∃ e, Wire.front? received = some (.handshakeErr e) ∧ e.message = "unknown session" ∧
      request.hear ⟨received, [], none⟩ = .error .unknownSession) ∨
    ∃ failure, failure ≠ .unknownSession ∧
      request.hear ⟨received, [], none⟩ = .error failure := by
  cases request with
  | create nonce userId pathName =>
      rcases readReply_cases createOk ⟨received, [], none⟩ with
        ⟨frame, id, front, welcomed, result⟩ | ⟨e, front, message, result⟩ |
        ⟨failure, other, result⟩
      · cases frame with
        | createSessionOk ok =>
            cases welcomed
            exact .inl ⟨ok.sessionId, front, by rw [Request.hear, result]; rfl⟩
        | _ => cases welcomed
      · exact .inr (.inr (.inl ⟨e, front, message, by rw [Request.hear, result]; rfl⟩))
      · exact .inr (.inr (.inr ⟨failure, other, by rw [Request.hear, result]; rfl⟩))
  | join sessionId pathName =>
      rcases readReply_cases joinOk ⟨received, [], none⟩ with
        ⟨frame, accepted, front, welcomed, result⟩ | ⟨e, front, message, result⟩ |
        ⟨failure, other, result⟩
      · cases frame with
        | joinSessionOk => exact .inr (.inl ⟨front, by rw [Request.hear, result]; rfl⟩)
        | _ => cases welcomed
      · exact .inr (.inr (.inl ⟨e, front, message, by rw [Request.hear, result]; rfl⟩))
      · exact .inr (.inr (.inr ⟨failure, other, by rw [Request.hear, result]; rfl⟩))

theorem settled_of_front {received : Bytes} {read : Wire.Frame}
    (served : c.outcome = none ∧ c.toClient = [] ∨
      ∃ reply, c.toClient <+: replyBytes reply ∧ Settled net i c reply)
    (arrived : received <+: c.toClient) (front : Wire.front? received = some read) :
    Settled net i c (some read) := by
  rcases served with ⟨_, nothing⟩ | ⟨reply, part, settled⟩
  · rw [nothing] at arrived
    obtain rfl := List.prefix_nil.mp arrived
    cases front
  · obtain ⟨frame, rfl, rfl⟩ := front?_of_replyBytes (arrived.trans part) front
    cases settled with
    | created session id nonce userId pathName request owner named outcome =>
        exact .created session id nonce userId pathName request owner named outcome
    | joined session id pathName request named outcome =>
        exact .joined session id pathName request named outcome
    | refused message failure outcome unknown => exact .refused message failure outcome unknown

/-- A client that hears from the server is told what the server has settled. -/
theorem told_hear (request : Request) {received : Bytes}
    (served : c.outcome = none ∧ c.toClient = [] ∨
      ∃ reply, c.toClient <+: replyBytes reply ∧ Settled net i c reply)
    (arrived : c.serverOurs = true → received <+: c.toClient) :
    net.Told i { c with heard := some (request.hear ⟨received, [], none⟩) } := by
  rcases hear_cases request received with
    ⟨id, front, result⟩ | ⟨front, result⟩ | ⟨e, front, message, result⟩ |
    ⟨failure, other, result⟩
  · rw [result]
    constructor
    · intro ours told heard
      cases heard
      cases settled_of_front served (arrived ours) front with
      | created session id nonce userId pathName request owner named outcome =>
          exact ⟨session, owner, named⟩
    · intro ours heard
      cases heard
    · intro ours heard
      cases heard
  · rw [result]
    constructor
    · intro ours told heard
      cases heard
    · intro ours heard
      cases settled_of_front served (arrived ours) front with
      | joined session id pathName request named outcome =>
          exact ⟨id, pathName, session, request, named, outcome⟩
    · intro ours heard
      cases heard
  · rw [result]
    constructor
    · intro ours told heard
      cases heard
    · intro ours heard
      cases heard
    · intro ours heard
      cases settled_of_front served (arrived ours) front with
      | refused message' failure outcome unknown =>
          obtain rfl := unknown message
          exact outcome
  · rw [result]
    refine .of_heard (fun value heard => ?_) fun heard => ?_
    · cases heard
    · exact other (Except.error.inj (Option.some.inj heard))

/-! ## One connection moves on -/

theorem Settled.congr {other : TlsConnection} (settled : net.Settled i c reply)
    (request : other.request = c.request) (outcome : other.outcome = c.outcome) :
    net.Settled i other reply := by
  cases settled with
  | created session id nonce userId pathName asked owner named result =>
      exact .created session id nonce userId pathName (request.trans asked) owner named
        (outcome ▸ result)
  | joined session id pathName asked named result =>
      exact .joined session id pathName (request.trans asked) named (outcome ▸ result)
  | refused message failure result unknown =>
      exact .refused message failure (outcome.trans result) unknown
  | silent failure result => exact .silent failure (outcome.trans result)

theorem getElem?_set_cases {position other : Nat} {connections : List TlsConnection}
    {changed found : TlsConnection}
    (located : (connections.set position changed)[other]? = some found) :
    other = position ∧ found = changed ∨ other ≠ position ∧ connections[other]? = some found := by
  by_cases same : position = other
  · rw [List.getElem?_set, if_pos same] at located
    split at located
    · exact .inl ⟨same.symm, (Option.some.inj located).symm⟩
    · cases located
  · rw [List.getElem?_set_ne same] at located
    exact .inr ⟨fun equal => same equal.symm, located⟩

theorem Extends.same (net : HandshakeNet) (connections : List TlsConnection) :
    net.Extends { net with connections } := ⟨List.prefix_rfl, fun _ _ => id⟩

theorem Sound.replace {changed : TlsConnection} {table : SessionTable} {owners : List Nat}
    (sound : Sound digests psk net) (found : net.connections[i]? = some c)
    (grows : net.Extends ⟨net.connections.set i changed, table, owners⟩)
    (exporter : changed.exporter = c.exporter)
    (bound : Bound digests psk ⟨net.connections.set i changed, table, owners⟩ i changed)
    (keeps : c.outcome ≠ none → ∀ request, c.request = some request →
      changed.outcome ≠ none ∧ changed.request = some request)
    (owned : owners.length = table.created.length) (once : owners.Nodup)
    (origin : ∀ k ∈ owners, k ∈ net.owners ∨ k = i ∧ changed.outcome ≠ none ∧
      ∃ nonce userId pathName, changed.request = some (.create nonce userId pathName))
    (named : table.Named) :
    Sound digests psk ⟨net.connections.set i changed, table, owners⟩ := by
  have within : i < net.connections.length := (List.getElem?_eq_some_iff.mp found).1
  have located : (net.connections.set i changed)[i]? = some changed :=
    List.getElem?_set_self within
  refine ⟨fun j d at_j => ?_, fun j k d e at_j at_k same => ?_, owned, once, fun k owner => ?_,
    named⟩
  · rcases getElem?_set_cases at_j with ⟨rfl, rfl⟩ | ⟨_, before⟩
    · exact bound
    · exact (sound.bound j d before).mono grows
  · rcases getElem?_set_cases at_j with ⟨rfl, rfl⟩ | ⟨_, first⟩
    · rcases getElem?_set_cases at_k with ⟨rfl, _⟩ | ⟨_, second⟩
      · rfl
      · exact sound.exporters _ _ _ _ found second (exporter.symm.trans same)
    · rcases getElem?_set_cases at_k with ⟨rfl, rfl⟩ | ⟨_, second⟩
      · exact sound.exporters _ _ _ _ first found (same.trans exporter)
      · exact sound.exporters _ _ _ _ first second same
  · rcases origin k owner with earlier | ⟨rfl, served, nonce, userId, pathName, asked⟩
    · obtain ⟨d, nonce, userId, pathName, at_k, served, asked⟩ := sound.owners k earlier
      by_cases own : k = i
      · subst own
        obtain rfl := Option.some.inj (found.symm.trans at_k)
        obtain ⟨served, asked⟩ := keeps served _ asked
        exact ⟨changed, nonce, userId, pathName, located, served, asked⟩
      · refine ⟨d, nonce, userId, pathName, ?_, served, asked⟩
        exact (List.getElem?_set_ne fun equal => own equal.symm).trans at_k
    · exact ⟨changed, nonce, userId, pathName, located, served, asked⟩

/-! ## Each step -/

theorem Sound.connect (sound : Sound digests psk net) {exporter : ByteArrayOf exporterLen}
    (fresh : ∀ c ∈ net.connections, c.exporter ≠ exporter) (clientOurs serverOurs : Bool) :
    Sound digests psk (net.connect exporter clientOurs serverOurs) := by
  have grown : ∀ {j : Nat} {d : TlsConnection},
      (net.connect exporter clientOurs serverOurs).connections[j]? = some d →
      net.connections[j]? = some d ∨
        j = net.connections.length ∧
          d = ⟨exporter, clientOurs, serverOurs, none, [], none, [], none⟩ := by
    intro j d located
    rcases Nat.lt_trichotomy j net.connections.length with below | equal | above
    · exact .inl ((List.getElem?_append_left below).symm.trans located)
    · subst equal
      exact .inr ⟨rfl, (Option.some.inj (List.getElem?_concat_length.symm.trans located)).symm⟩
    · have outside : (net.connect exporter clientOurs serverOurs).connections[j]? = none := by
        rw [List.getElem?_eq_none_iff, HandshakeNet.connect, List.length_append]
        exact above
      rw [outside] at located
      cases located
  refine ⟨fun j d at_j => ?_, fun j k d e at_j at_k same => ?_, sound.owned, sound.once,
    fun k owner => ?_, sound.named⟩
  · rcases grown at_j with before | ⟨rfl, rfl⟩
    · exact (sound.bound j d before).mono (.same net _)
    · refine ⟨fun request asked => ?_, List.nil_prefix, .inl ⟨rfl, rfl⟩, .of_heard ?_ ?_⟩
      · cases asked
      · intro value heard
        cases heard
      · intro heard
        cases heard
  · rcases grown at_j with first | ⟨rfl, rfl⟩
    · rcases grown at_k with second | ⟨rfl, rfl⟩
      · exact sound.exporters _ _ _ _ first second same
      · exact absurd same (fresh d (List.mem_of_getElem? first))
    · rcases grown at_k with second | ⟨rfl, _⟩
      · exact absurd same.symm (fresh e (List.mem_of_getElem? second))
      · rfl
  · obtain ⟨d, nonce, userId, pathName, at_k, served, asked⟩ := sound.owners k owner
    have within : k < net.connections.length := (List.getElem?_eq_some_iff.mp at_k).1
    exact ⟨d, nonce, userId, pathName, (List.getElem?_append_left within).trans at_k, served, asked⟩

theorem Sound.ask (sound : Sound digests psk net) {request : Request} {breaks : Option Nat}
    (taken : net.ask digests psk i request breaks = some next) : Sound digests psk next := by
  obtain ⟨c, found, taken⟩ := Option.bind_eq_some_iff.mp taken
  split at taken
  · rename_i enabled
    obtain ⟨ours, unasked⟩ := enabled
    cases taken
    have bound := sound.bound i c found
    refine sound.replace found (.same net _) ?_ ⟨?_, ?_, ?_, ?_⟩ ?_ sound.owned sound.once
      (fun k owner => .inl owner) sound.named
    · rfl
    · exact fun _ _ => ours
    · exact sent_writeFrame rfl _
    · rcases bound.served with unserved | ⟨reply, part, settled⟩
      · exact .inl unserved
      · refine .inr ⟨reply, part, ?_⟩
        cases settled with
        | created session id nonce userId pathName asked =>
            rw [unasked] at asked
            cases asked
        | joined session id pathName asked =>
            rw [unasked] at asked
            cases asked
        | refused message failure outcome unknown =>
            exact .refused message failure outcome unknown
        | silent failure outcome => exact .silent failure outcome
    · refine .of_heard (fun value heard => ?_) fun heard => ?_
      all_goals
        dsimp only at heard
        split at heard <;> cases heard
    · intro _ request' asked
      rw [unasked] at asked
      cases asked
  · cases taken

theorem Sound.hear (sound : Sound digests psk net) {received : Bytes}
    (taken : net.hear i received = some next) : Sound digests psk next := by
  obtain ⟨c, found, taken⟩ := Option.bind_eq_some_iff.mp taken
  obtain ⟨request, asked, taken⟩ := Option.bind_eq_some_iff.mp taken
  split at taken
  · rename_i enabled
    cases taken
    have bound := sound.bound i c found
    refine sound.replace found (.same net _) ?_ ⟨bound.ours, bound.asked, ?_, ?_⟩ ?_ sound.owned
      sound.once (fun k owner => .inl owner) sound.named
    · rfl
    · rcases bound.served with unserved | ⟨reply, part, settled⟩
      · exact .inl unserved
      · exact .inr ⟨reply, part, (settled.mono (.same net _)).congr rfl rfl⟩
    · exact (told_hear request bound.served enabled.2).mono (.same net _)
    · exact fun served _ same => ⟨served, same⟩
  · cases taken

/-- A request with a right proof is the one that the client of the connection made. -/
theorem Sound.request_of_front (sound : Sound digests psk net) {received : Bytes}
    {breaks : Option Nat} {sessionId : SessionId} {request : Request}
    (assumed : net.Assumed digests psk (.serve i received breaks sessionId))
    (found : net.connections[i]? = some c)
    (arrived : c.clientOurs = true → received <+: c.toServer)
    (front : Wire.front? received = some (request.frame digests psk c.exporter)) :
    c.request = some request := by
  have bound := sound.bound i c found
  by_cases ours : c.clientOurs = true
  · obtain ⟨frame, made, same⟩ := front?_of_replyBytes ((arrived ours).trans bound.asked) front
    obtain ⟨request', asked, rfl⟩ := Option.map_eq_some_iff.mp made
    rw [Request.clipSack_frame] at same
    have read := congrArg Request.read? same
    rw [Request.read?_frame, Request.read?_frame] at read
    obtain rfl := (Prod.mk.inj (Option.some.inj read)).1
    exact asked
  · have stranger := Bool.eq_false_iff.mpr ours
    obtain ⟨other, membership, request', asked, -, message⟩ :=
      assumed c _ request found stranger front (Request.read?_frame request)
    obtain ⟨j, located⟩ := List.mem_iff_getElem?.mp membership
    obtain rfl := sound.exporters j i other c located found (Request.exporter_eq_of_message message)
    obtain rfl := Option.some.inj (found.symm.trans located)
    exact absurd ((sound.bound j c found).ours request' asked) ours

/-- Nothing was told by a server that had not answered, except that it let somebody in. -/
theorem Told.answered (told : net.Told i c) (unserved : c.outcome = none)
    (outcome : Except HandshakeError HandshakeResult) (toClient : Bytes) :
    net.Told i { c with outcome := some outcome, toClient } := by
  refine ⟨told.created, fun ours heard => ?_, fun ours heard => ?_⟩
  · obtain ⟨_, _, _, _, _, answered⟩ := told.joined ours heard
    rw [unserved] at answered
    rcases answered with impossible | impossible <;> cases impossible
  · have answered := told.unknown ours heard
    rw [unserved] at answered
    cases answered

theorem Sound.answer {accepted : Accepted} {owners : List Nat} (sound : Sound digests psk net)
    (found : net.connections[i]? = some c) (unserved : c.outcome = none)
    (part : accepted.io.sent <+: replyBytes reply)
    (grows : net.Extends ⟨net.connections.set i
      { c with outcome := some accepted.outcome, toClient := accepted.io.sent },
      accepted.table, owners⟩)
    (settled : Settled ⟨net.connections.set i
      { c with outcome := some accepted.outcome, toClient := accepted.io.sent },
      accepted.table, owners⟩ i
      { c with outcome := some accepted.outcome, toClient := accepted.io.sent } reply)
    (owned : owners.length = accepted.table.created.length) (once : owners.Nodup)
    (origin : ∀ k ∈ owners, k ∈ net.owners ∨ k = i ∧
      ∃ nonce userId pathName, c.request = some (.create nonce userId pathName))
    (named : accepted.table.Named) :
    Sound digests psk ⟨net.connections.set i
      { c with outcome := some accepted.outcome, toClient := accepted.io.sent },
      accepted.table, owners⟩ := by
  have bound := sound.bound i c found
  refine sound.replace found grows ?_ ⟨bound.ours, bound.asked, .inr ⟨reply, part, settled⟩, ?_⟩ ?_
    owned once (fun k owner => ?_) named
  · rfl
  · exact (bound.told.answered unserved _ _).mono grows
  · exact fun served => absurd unserved served
  · rcases origin k owner with earlier | ⟨same, asked⟩
    · exact .inl earlier
    · exact .inr ⟨same, Option.some_ne_none _, asked⟩

theorem Sound.answer_follows {accepted : Accepted} (sound : Sound digests psk net)
    (found : net.connections[i]? = some c) (unserved : c.outcome = none)
    (part : accepted.io.sent <+: replyBytes reply) (follows : net.table.Follows accepted.table)
    (settled : Settled net i
      { c with outcome := some accepted.outcome, toClient := accepted.io.sent } reply) :
    Sound digests psk ⟨net.connections.set i
      { c with outcome := some accepted.outcome, toClient := accepted.io.sent },
      accepted.table, net.owners ++
        List.replicate (accepted.table.created.length - net.table.created.length) i⟩ := by
  have nobody : accepted.table.created.length - net.table.created.length = 0 := by
    rw [follows.length, Nat.sub_self]
  rw [nobody, List.replicate_zero, List.append_nil]
  have grows : net.Extends ⟨net.connections.set i
      { c with outcome := some accepted.outcome, toClient := accepted.io.sent },
      accepted.table, net.owners⟩ :=
    ⟨List.prefix_rfl, fun session key known => (follows.ids session).trans known⟩
  exact sound.answer found unserved part grows (settled.mono grows)
    (sound.owned.trans follows.length.symm) sound.once (fun k owner => .inl owner)
    (sound.named.follows follows)

theorem Sound.answer_letIn {accepted : Accepted} {sessionId : SessionId}
    {nonce : ByteArrayOf nonceLen} {userId pathName : String} (sound : Sound digests psk net)
    (found : net.connections[i]? = some c) (unserved : c.outcome = none)
    (asked : c.request = some (.create nonce userId pathName))
    (part : accepted.io.sent <+: replyBytes (some (.createSessionOk ⟨sessionId⟩)))
    (table : accepted.table = net.table.letIn sessionId)
    (outcome : accepted.outcome =
        .ok (.created net.table.created.length sessionId (orInit pathName)) ∨
      accepted.outcome = .error (.proto .io)) :
    Sound digests psk ⟨net.connections.set i
      { c with outcome := some accepted.outcome, toClient := accepted.io.sent },
      accepted.table, net.owners ++
        List.replicate (accepted.table.created.length - net.table.created.length) i⟩ := by
  have one : accepted.table.created.length - net.table.created.length = 1 := by
    rw [table, SessionTable.length_letIn, Nat.add_sub_cancel_left]
  rw [one, List.replicate_one]
  have grows : net.Extends ⟨net.connections.set i
      { c with outcome := some accepted.outcome, toClient := accepted.io.sent },
      accepted.table, net.owners ++ [i]⟩ := by
    refine ⟨List.prefix_append _ _, fun session key known => ?_⟩
    dsimp only
    rw [table]
    exact SessionTable.idOf_letIn_of_some sessionId known
  have first : i ∉ net.owners := by
    intro owner
    obtain ⟨d, _, _, _, located, served, _⟩ := sound.owners i owner
    obtain rfl := Option.some.inj (found.symm.trans located)
    exact served unserved
  refine sound.answer found unserved part grows ?_ ?_ ?_ (fun k owner => ?_) ?_
  · refine .created net.table.created.length sessionId nonce userId pathName asked ?_ ?_ ?_
    · rw [← sound.owned]
      exact List.getElem?_concat_length
    · dsimp only
      rw [table]
      exact net.table.idOf_letIn_self sessionId
    · rcases outcome with same | same <;> simp [same]
  · rw [table, SessionTable.length_letIn, List.length_append, sound.owned]
    rfl
  · exact List.nodup_append.mpr ⟨sound.once, List.pairwise_singleton _ i, by
      intro k owner other membership same
      exact first (List.mem_singleton.mp membership ▸ same ▸ owner)⟩
  · rcases List.mem_append.mp owner with earlier | last
    · exact .inl earlier
    · exact .inr ⟨List.mem_singleton.mp last, nonce, userId, pathName, asked⟩
  · rw [table]
    exact sound.named.letIn sessionId

theorem Sound.serve (sound : Sound digests psk net) {received : Bytes} {breaks : Option Nat}
    {sessionId : SessionId}
    (assumed : net.Assumed digests psk (.serve i received breaks sessionId))
    (taken : net.serve digests psk i received breaks sessionId = some next) :
    Sound digests psk next := by
  obtain ⟨c, found, taken⟩ := Option.bind_eq_some_iff.mp taken
  split at taken
  · rename_i enabled
    obtain ⟨-, unserved, arrived⟩ := enabled
    cases taken
    have fresh : (Peer.mk received [] breaks).sent = [] := rfl
    obtain ⟨reply, part, answers⟩ := serverAcceptHandshake_answers digests psk c.exporter
      sessionId net.table fresh
    cases answers with
    | created nonce userId pathName read table outcome =>
        have asked := sound.request_of_front assumed found arrived read
        exact sound.answer_letIn found unserved asked part table outcome
    | joined id pathName session read known table outcome =>
        have asked := sound.request_of_front assumed found arrived read
        refine sound.answer_follows found unserved part ?_ ?_
        · rw [table]
          exact net.table.follows_getSession id
        · refine .joined session id pathName asked (sound.named.getSession known) ?_
          rcases outcome with same | same <;> simp [same]
    | refused message failure outcome table unknown =>
        refine sound.answer_follows found unserved part ?_ ?_
        · rcases table with same | ⟨id, same⟩ <;> rw [same]
          · exact .refl net.table
          · exact net.table.follows_getSession id
        · exact .refused message failure (congrArg some outcome) unknown
    | silent failure outcome table =>
        refine sound.answer_follows found unserved part ?_ ?_
        · rw [table]
          exact .refl net.table
        · exact .silent failure (congrArg some outcome)
  · cases taken

theorem Sound.other (sound : Sound digests psk net) {table : SessionTable}
    (follows : net.table.Follows table) : Sound digests psk { net with table } := by
  have grows : net.Extends { net with table } :=
    ⟨List.prefix_rfl, fun session key known => (follows.ids session).trans known⟩
  refine ⟨fun j d located => (sound.bound j d located).mono grows, sound.exporters,
    sound.owned.trans follows.length.symm, sound.once, sound.owners, sound.named.follows follows⟩

theorem sound_of_reachable
    (reachable : (machine digests psk).ReachableWhen (Assumed digests psk) net) :
    Sound digests psk net := by
  induction reachable with
  | start begins =>
      subst begins
      refine ⟨fun j d located => ?_, fun j k d e located => ?_, rfl, List.nodup_nil,
        fun k owner => ?_, fun key session found => ?_⟩
      · cases located
      · cases located
      · cases owner
      · cases found
  | @step net action next earlier assumed taken inductionHypothesis =>
      cases action with
      | connect exporter clientOurs serverOurs =>
          cases taken
          exact inductionHypothesis.connect assumed clientOurs serverOurs
      | ask connection request breaks => exact inductionHypothesis.ask taken
      | serve connection received breaks sessionId => exact inductionHypothesis.serve assumed taken
      | hear connection received => exact inductionHypothesis.hear taken
      | other action =>
          simp only [machine, step] at taken
          split at taken
          · rename_i kept
            obtain ⟨table, moved, rfl⟩ := Option.map_eq_some_iff.mp taken
            exact inductionHypothesis.other (SessionTable.follows_step kept moved)
          · cases taken

/-! ## Agreement -/

theorem Settled.of_ok {result : HandshakeResult} (settled : net.Settled i c reply)
    (served : c.outcome = some (.ok result)) :
    (∃ session id nonce userId pathName, result = .created session id (orInit pathName) ∧
      c.request = some (.create nonce userId pathName) ∧ net.owners[session]? = some i ∧
      net.table.idOf session = some id.slot) ∨
    ∃ session id pathName, result = .joined session pathName ∧
      c.request = some (.join id pathName) ∧ net.table.idOf session = some id.slot := by
  cases settled with
  | created session id nonce userId pathName asked owner named outcome =>
      rw [served] at outcome
      rcases outcome with same | same <;> cases same
      exact .inl ⟨session, id, nonce, userId, pathName, rfl, asked, owner, named⟩
  | joined session id pathName asked named outcome =>
      rw [served] at outcome
      rcases outcome with same | same <;> cases same
      exact .inr ⟨session, id, pathName, rfl, asked, named⟩
  | refused message failure outcome =>
      rw [served] at outcome
      cases outcome
  | silent failure outcome =>
      rw [served] at outcome
      cases outcome

theorem Bound.agreed (bound : Bound digests psk net i c) : net.Agreed i c := by
  have settled : ∀ outcome, c.outcome = some outcome → ∃ reply, Settled net i c reply := by
    intro outcome served
    rcases bound.served with ⟨unserved, _⟩ | ⟨reply, _, settled⟩
    · rw [unserved] at served
      cases served
    · exact ⟨reply, settled⟩
  refine ⟨fun stranger result served => ?_, fun session id pathName served => ?_,
    fun session pathName served => ?_, bound.told.created, bound.told.joined, bound.told.unknown⟩
  · obtain ⟨reply, settled⟩ := settled _ served
    have asked : ∃ request, c.request = some request := by
      rcases settled.of_ok served with ⟨_, _, _, _, _, _, asked, _⟩ | ⟨_, _, _, _, asked, _⟩
      · exact ⟨_, asked⟩
      · exact ⟨_, asked⟩
    obtain ⟨request, asked⟩ := asked
    rw [bound.ours request asked] at stranger
    cases stranger
  · obtain ⟨reply, settled⟩ := settled _ served
    rcases settled.of_ok served with
      ⟨_, _, nonce, userId, asked, same, request, owner, named⟩ | ⟨_, _, _, same, _⟩
    · cases same
      exact ⟨nonce, userId, asked, request, rfl, owner, named⟩
    · cases same
  · obtain ⟨reply, settled⟩ := settled _ served
    rcases settled.of_ok served with ⟨_, _, _, _, _, same, _⟩ | ⟨_, id, _, same, request, named⟩
    · cases same
    · cases same
      exact ⟨id, request, named⟩

/-! ## A handshake that nothing disturbs -/

theorem front?_written {frame : Wire.Frame}
    (fits : (Wire.encode frame).length ≤ Wire.maxFrameSize) :
    Wire.readFrame.run (Wire.written frame) = .ok (Wire.clipSack frame, []) := by
  have reads := Wire.readFrame_reads (Wire.encode_ne_nil frame) fits
    (Wire.decode_encode (Wire.strings_fit fits)) []
  rwa [List.append_nil, ← Wire.written_of_fits fits] at reads

theorem writeFrame_whole (received : Bytes) {frame : Wire.Frame}
    (fits : (Wire.encode frame).length ≤ Wire.maxFrameSize) :
    (Peer.mk received [] none).writeFrame frame =
      (.ok (), ⟨received, Wire.written frame, none⟩) := by
  unfold Peer.writeFrame
  rw [Wire.written_of_fits fits, Wire.writeFrame, if_neg (Nat.not_lt.mpr fits)]
  rfl

theorem readFrame_whole {frame : Wire.Frame} (sent : Bytes)
    (fits : (Wire.encode frame).length ≤ Wire.maxFrameSize) :
    (Peer.mk (Wire.written frame) sent none).readFrame =
      .ok (Wire.clipSack frame, ⟨[], sent, none⟩) := by
  rw [Peer.readFrame, front?_written fits]

/-- A client with the key that asks an open table for a session is let in. -/
theorem accepts_create {t : SessionTable} (opened : t.closed = false)
    {exporter : ByteArrayOf exporterLen} {nonce : ByteArrayOf nonceLen} {userId pathName : String}
    (sessionId : SessionId)
    (fits : (Wire.encode ((Request.create nonce userId pathName).frame digests psk exporter)).length
      ≤ Wire.maxFrameSize) :
    serverAcceptHandshake digests psk exporter.bytes sessionId
        ⟨Wire.written ((Request.create nonce userId pathName).frame digests psk exporter), [], none⟩
        t =
      ⟨.ok (.created t.created.length sessionId (orInit pathName)),
        ⟨[], Wire.written (.createSessionOk ⟨sessionId⟩), none⟩, t.letIn sessionId⟩ := by
  have read := readFrame_whole [] fits
  rw [Request.clipSack_frame] at read
  have created : t.createWithIncoming sessionId = some (t.created.length, t.letIn sessionId) :=
    if_neg (Bool.eq_false_iff.mp opened)
  have reply := writeFrame_whole [] (length_createSessionOk sessionId)
  have proof : ∀ made : ByteArrayOf 32, proofsEqual made.bytes made.bytes = true :=
    fun made => (proofsEqual_bytes made made).mpr rfl
  rw [serverAcceptHandshake, read]
  dsimp only [Request.frame]
  unfold acceptCreate
  rw [if_neg (not_not_intro rfl)]
  simp only [proof, created, reply]
  rfl

/-- A proof made for another connection is not accepted. -/
theorem refuses_replay (t : SessionTable) {exporter other : ByteArrayOf exporterLen}
    {nonce : ByteArrayOf nonceLen} {userId pathName : String} (sessionId : SessionId)
    (fits : (Wire.encode ((Request.create nonce userId pathName).frame digests psk other)).length
      ≤ Wire.maxFrameSize)
    (differs : (Request.create nonce userId pathName).proof digests psk other ≠
      (Request.create nonce userId pathName).proof digests psk exporter) :
    (serverAcceptHandshake digests psk exporter.bytes sessionId
      ⟨Wire.written ((Request.create nonce userId pathName).frame digests psk other), [], none⟩
        t).outcome = .error (.rejected "auth") := by
  have read := readFrame_whole [] fits
  rw [Request.clipSack_frame] at read
  have refused : proofsEqual
      ((Request.create nonce userId pathName).proof digests psk exporter).bytes
      ((Request.create nonce userId pathName).proof digests psk other).bytes = false :=
    Bool.eq_false_iff.mpr fun equal => differs ((proofsEqual_bytes _ _).mp equal)
  rw [serverAcceptHandshake, read]
  dsimp only [Request.frame]
  unfold acceptCreate
  rw [if_neg (not_not_intro rfl)]
  dsimp only
  rw [if_pos]
  rw [Bool.not_eq_true']
  exact refused

theorem ask_whole (found : net.connections[i]? = some c) (ours : c.clientOurs = true)
    (unasked : c.request = none) {request : Request}
    (fits : (Wire.encode (request.frame digests psk c.exporter)).length ≤ Wire.maxFrameSize) :
    ∃ next, net.ask digests psk i request none = some next ∧ next.table = net.table ∧
      next.connections = net.connections.set i { c with
        request := some request
        toServer := Wire.written (request.frame digests psk c.exporter)
        heard := none } := by
  rw [ask, found, Option.bind_some, if_pos ⟨ours, unasked⟩, writeFrame_whole [] fits]
  exact ⟨_, rfl, rfl, rfl⟩

theorem serve_whole (found : net.connections[i]? = some c) (ours : c.serverOurs = true)
    (unserved : c.outcome = none) {received : Bytes} (allowed : c.clientOurs = true →
      received <+: c.toServer) (breaks : Option Nat) (sessionId : SessionId) {accepted : Accepted}
    (accepts : serverAcceptHandshake digests psk c.exporter.bytes sessionId
      ⟨received, [], breaks⟩ net.table = accepted) :
    ∃ next, net.serve digests psk i received breaks sessionId = some next ∧
      next.connections = net.connections.set i { c with
        outcome := some accepted.outcome
        toClient := accepted.io.sent } := by
  rw [serve, found, Option.bind_some, if_pos ⟨ours, unserved, allowed⟩, accepts]
  exact ⟨_, rfl, rfl⟩

theorem hear_whole (found : net.connections[i]? = some c) {request : Request}
    (asked : c.request = some request) (unheard : c.heard = none) :
    ∃ next, net.hear i c.toClient = some next ∧ next.connections = net.connections.set i { c with
      heard := some (request.hear ⟨c.toClient, [], none⟩) } := by
  rw [hear, found, Option.bind_some, asked, Option.bind_some,
    if_pos ⟨unheard, fun _ => List.prefix_rfl⟩]
  exact ⟨_, rfl, rfl⟩

theorem set_last (connections : List TlsConnection) (last changed : TlsConnection) :
    (connections ++ [last]).set connections.length changed = connections ++ [changed] := by
  rw [List.set_append_right _ _ (Nat.le_refl _), Nat.sub_self]
  rfl

theorem hear_created (nonce : ByteArrayOf nonceLen) (userId pathName : String)
    (sessionId : SessionId) :
    (Request.create nonce userId pathName).hear
      ⟨Wire.written (.createSessionOk ⟨sessionId⟩), [], none⟩ = .ok (some sessionId) := by
  rw [Request.hear, readReply, readFrame_whole [] (length_createSessionOk sessionId)]
  rfl

/-- When the client has the key and nothing breaks, both ends get the session. -/
theorem handshake_completes
    (reachable : (machine digests psk).ReachableWhen (Assumed digests psk) net)
    (opened : net.table.closed = false) {exporter : ByteArrayOf exporterLen}
    (fresh : ∀ c ∈ net.connections, c.exporter ≠ exporter) {nonce : ByteArrayOf nonceLen}
    {userId pathName : String} (sessionId : SessionId)
    (fits : (Wire.encode ((Request.create nonce userId pathName).frame digests psk exporter)).length
      ≤ Wire.maxFrameSize) :
    ∃ final c, (machine digests psk).ReachableWhen (Assumed digests psk) final ∧
      final.connections = net.connections ++ [c] ∧
      c.outcome = some (.ok (.created net.table.created.length sessionId (orInit pathName))) ∧
      c.heard = some (.ok (some sessionId)) := by
  have reached : ∀ {before after : HandshakeNet} (action : HandshakeAction),
      (machine digests psk).ReachableWhen (Assumed digests psk) before →
      before.Assumed digests psk action → before.step digests psk action = some after →
      (machine digests psk).ReachableWhen (Assumed digests psk) after :=
    fun _ earlier allowed taken => .step earlier allowed taken
  have opening : (net.connect exporter true true).connections[net.connections.length]? =
      some ⟨exporter, true, true, none, [], none, [], none⟩ := List.getElem?_concat_length
  obtain ⟨asking, asks, table, asked⟩ := ask_whole opening rfl rfl fits
  rw [connect, set_last] at asked
  have afterAsking := asked ▸ List.getElem?_concat_length
  obtain ⟨serving, serves, served⟩ := serve_whole afterAsking rfl rfl (fun _ => List.prefix_rfl)
    none sessionId (accepts_create (table ▸ opened) sessionId fits)
  rw [asked, set_last] at served
  obtain ⟨hearing, hears, heard⟩ := hear_whole (served ▸ List.getElem?_concat_length) rfl rfl
  rw [served, set_last] at heard
  have connected := reached (.connect exporter true true) reachable fresh rfl
  have afterAsk := reached (.ask _ _ none) connected trivial asks
  have afterServe := by
    refine reached (.serve _ _ none sessionId) afterAsk ?_ serves
    intro c frame request found stranger
    obtain rfl := Option.some.inj (afterAsking.symm.trans found)
    cases stranger
  have afterHear := reached (.hear _ _) afterServe trivial hears
  refine ⟨hearing, _, afterHear, heard, ?_, ?_⟩
  · exact congrArg (fun t : SessionTable =>
      some (Except.ok (HandshakeResult.created t.created.length sessionId (orInit pathName)))) table
  · exact congrArg some (hear_created nonce userId pathName sessionId)

/-- Whatever strangers do, both ends of every handshake agree on what was asked for and what came of
it, and every session is one that a client with the key asked for on a connection of its own. -/
theorem handshakes_agree (digests : Digests) (psk : Bytes) {net : HandshakeNet}
    (reachable : (machine digests psk).ReachableWhen (Assumed digests psk) net) :
    net.Agreement := by
  have sound := sound_of_reachable reachable
  refine ⟨fun j d located => (sound.bound j d located).agreed, sound.owned, sound.once, ?_⟩
  intro k owner
  obtain ⟨d, nonce, userId, pathName, located, _, asked⟩ := sound.owners k owner
  exact ⟨d, nonce, userId, pathName, located, (sound.bound k d located).ours _ asked, asked⟩

/-- The request of the default user. -/
def askDefault : Request := .create (.replicate 32 0) "default" "soy#0"

/-- The proof of the default user for an exporter of eights. -/
def eightsProof : ByteArrayOf 32 :=
  ⟨[
      0x84, 0x94, 0xf6, 0x52, 0xa1, 0x94, 0xfc, 0x84,
      0x6c, 0x5b, 0xdc, 0xb1, 0x85, 0x50, 0x4a, 0x34,
      0x96, 0x9f, 0xeb, 0x9b, 0x35, 0x77, 0x4c, 0x7e,
      0xb1, 0x37, 0x96, 0xa7, 0x73, 0x6c, 0xfd, 0x40], rfl⟩

/-- The digests of the default user's request, for exporters of sevens and of eights. -/
def pairDigests : Digests where
  hmac _ message :=
    if message = askDefault.message (.replicate 32 8) then eightsProof else defaultProof
  hkdf _ _ _ := .replicate 32 0

/-- One client asks for a session and gets it; a stranger sends the same frame on a connection of
its own and is refused. -/
theorem handshakes_agree_default : ∃ (net : HandshakeNet) (stranger c : TlsConnection),
    net.connections = [stranger, c] ∧ stranger.clientOurs = false ∧
      stranger.outcome = some (.error (.rejected "auth")) ∧
      c.heard = some (.ok (some (.replicate 16 9))) ∧ net.Agreement := by
  have fits : (Wire.encode (askDefault.frame pairDigests (asBytes "psk")
      (.replicate 32 7))).length ≤ Wire.maxFrameSize := by
    decide +kernel
  have differs : askDefault.proof pairDigests (asBytes "psk") (.replicate 32 7) ≠
      askDefault.proof pairDigests (asBytes "psk") (.replicate 32 8) := by
    decide +kernel
  have begun : (machine pairDigests (asBytes "psk")).ReachableWhen
      (Assumed pairDigests (asBytes "psk")) (empty.connect (.replicate 32 8) false true) := by
    have opens : (machine pairDigests (asBytes "psk")).step empty
        (.connect (.replicate 32 8) false true) =
          some (empty.connect (.replicate 32 8) false true) := rfl
    refine .step (.start rfl) ?_ opens
    intro c membership
    cases membership
  have unused : ∀ c ∈ (empty.connect (.replicate 32 8) false true).connections,
      c.exporter ≠ .replicate 32 7 := by
    intro c membership
    obtain rfl := List.mem_singleton.mp membership
    exact fun same => absurd (congrArg ByteArrayOf.bytes same) (by decide)
  obtain ⟨net, c, reachable, connections, _, heard⟩ :=
    handshake_completes begun rfl unused (.replicate 16 9) fits
  have opening : net.connections[0]? =
      some ⟨.replicate 32 8, false, true, none, [], none, [], none⟩ := by
    rw [connections]
    rfl
  obtain ⟨served, serves, after⟩ := serve_whole opening rfl rfl (fun ours => by cases ours)
    none (.replicate 16 10) (rfl : serverAcceptHandshake pairDigests (asBytes "psk") _ _
      ⟨Wire.written (askDefault.frame pairDigests (asBytes "psk") (.replicate 32 7)), [], none⟩ _ =
        _)
  have refused := refuses_replay net.table (.replicate 16 10) fits differs
  rw [connections] at after
  have replayed : (machine pairDigests (asBytes "psk")).ReachableWhen
      (Assumed pairDigests (asBytes "psk")) served := by
    have taken : (machine pairDigests (asBytes "psk")).step net (.serve 0
        (Wire.written (askDefault.frame pairDigests (asBytes "psk") (.replicate 32 7))) none
        (.replicate 16 10)) = some served := serves
    refine .step reachable ?_ taken
    intro d frame request found _ front read
    obtain rfl := Option.some.inj (opening.symm.trans found)
    rw [Wire.front?, front?_written fits] at front
    obtain rfl := Option.some.inj front
    obtain ⟨rfl, same⟩ := Prod.mk.inj (Option.some.inj read)
    exact absurd same differs
  exact ⟨served, _, c, after, rfl, congrArg some refused, heard,
    handshakes_agree pairDigests (asBytes "psk") replayed⟩

end HandshakeNet

end NyaLink
