import NyaLink.Server.SessionTable
import NyaLink.Proto.Codec

/-!
# The handshake of a server

`server_accept_handshake` reads one frame, checks it, lets the session in or
looks it up, and writes one reply.  The HMAC and the HKDF are parameters.  A
connection may end before the frame is read, and a write may fail.

A session enters the table before the reply is written.  When that write fails
the caller gets an error, and the session stays.
-/

namespace NyaLink

open Wire (ProtoError asBytes)

/-! ## Proofs -/

def protocolVersion : UInt8 := 2

/-- `Hmac<Sha256>` of a key and a message, and `Hkdf<Sha256>` of a salt, a key and an info. -/
structure Digests where
  hmac : Bytes → Bytes → ByteArrayOf 32
  hkdf : Bytes → Bytes → Bytes → ByteArrayOf 32

namespace Digests

variable (digests : Digests)

def createProof (psk exporter nonce userId : Bytes) : ByteArrayOf 32 :=
  digests.hmac psk (asBytes "nya-create-v1" ++ exporter ++ nonce ++ userId)

def sessionKey (psk sessionId : Bytes) : ByteArrayOf 32 :=
  digests.hkdf sessionId psk (asBytes "nya-session-v1")

def joinProof (sessionKey exporter pathName : Bytes) : ByteArrayOf 32 :=
  digests.hmac sessionKey (asBytes "nya-join-v1" ++ exporter ++ pathName)

end Digests

/-- Every pair of bytes is looked at, wherever the first difference is. -/
def proofsEqual (a b : Bytes) : Bool :=
  if a.length ≠ b.length then false
  else (a.zip b).foldl (fun d pair => d ||| (pair.1 ^^^ pair.2)) 0 == 0

theorem foldl_or_eq_zero_iff (a b : Bytes) (d : UInt8) (sameLength : a.length = b.length) :
    (a.zip b).foldl (fun d pair => d ||| (pair.1 ^^^ pair.2)) d = 0 ↔ d = 0 ∧ a = b := by
  induction a generalizing b d with
  | nil => simp [List.length_eq_zero_iff.mp sameLength.symm]
  | cons x xs inductionHypothesis =>
      cases b with
      | nil => cases sameLength
      | cons y ys =>
          rw [List.zip_cons_cons, List.foldl_cons,
            inductionHypothesis ys _ (Nat.succ.inj sameLength), UInt8.or_eq_zero_iff,
            UInt8.xor_eq_zero_iff, List.cons.injEq, and_assoc]

theorem proofsEqual_iff (a b : Bytes) : proofsEqual a b = true ↔ a = b := by
  unfold proofsEqual
  by_cases sameLength : a.length = b.length
  · rw [if_neg (not_not_intro sameLength), beq_iff_eq, foldl_or_eq_zero_iff a b 0 sameLength]
    exact and_iff_right rfl
  · rw [if_pos sameLength]
    refine iff_of_false Bool.false_ne_true ?_
    rintro rfl
    exact sameLength rfl

theorem proofsEqual_bytes {n : Nat} (a b : ByteArrayOf n) :
    proofsEqual a.bytes b.bytes = true ↔ b = a := by
  rw [proofsEqual_iff]
  cases a
  cases b
  rw [ByteArrayOf.mk.injEq]
  exact eq_comm

/-! ## The connection -/

/-- What the peer sends until the connection ends, what was written to it, and after how many
bytes of the next write the connection fails, if it does. -/
structure Peer where
  received : Bytes
  sent : Bytes
  breaks : Option Nat

namespace Peer

def readFrame (io : Peer) : Except ProtoError (Wire.Frame × Peer) :=
  match Wire.readFrame.run io.received with
  | .error failure => .error failure
  | .ok (frame, left) => .ok (frame, { io with received := left })

def writeFrame (io : Peer) (frame : Wire.Frame) : Except ProtoError Unit × Peer :=
  match Wire.writeFrame io.sent frame with
  | (.error failure, _) => (.error failure, io)
  | (.ok (), sent) =>
      match io.breaks with
      | none => (.ok (), { io with sent })
      | some n => (.error .io, { io with sent := sent.take (io.sent.length + n) })

theorem readFrame_of_run {io : Peer} {frame : Wire.Frame} {left : Bytes}
    (run : Wire.readFrame.run io.received = .ok (frame, left)) :
    io.readFrame = .ok (frame, { io with received := left }) := by
  rw [readFrame, run]

theorem breaks_of_readFrame {io left : Peer} {frame : Wire.Frame}
    (read : io.readFrame = .ok (frame, left)) : left.breaks = io.breaks := by
  unfold readFrame at read
  split at read
  · cases read
  · cases read
    rfl

theorem writeFrame_fst (io : Peer) {frame : Wire.Frame}
    (fits : (Wire.encode frame).length ≤ Wire.maxFrameSize) :
    (io.writeFrame frame).1 = if io.breaks.isSome then .error .io else .ok () := by
  unfold writeFrame Wire.writeFrame
  rw [if_neg (Nat.not_lt.mpr fits)]
  cases io.breaks <;> rfl

end Peer

/-! ## The table -/

def SessionId.slot (id : SessionId) : Nat := beValue id.bytes

theorem SessionId.slot_injective {first second : SessionId} (same : first.slot = second.slot) :
    first = second := by
  have bytes := eq_of_beValue_eq (first.length_eq.trans second.length_eq.symm) same
  cases first
  cases second
  cases bytes
  rfl

namespace SessionTable

def isLive (t : SessionTable) (session : Nat) : Bool :=
  t.created[session]?.any fun entry => !entry.dead

def liveSlots (t : SessionTable) : List (Nat × Nat) :=
  t.sessions.entries.filter fun slot => t.isLive slot.2

/-- `create_with_incoming` in one piece, past its test of the flag. -/
def letIn (t : SessionTable) (id : SessionId) : SessionTable :=
  { t with
    created := t.created ++ [⟨id.slot, false⟩]
    sessions := t.sessions.insert id.slot t.created.length
    removers := t.created.length :: t.removers
    connections := t.connections ++ [.returned t.created.length] }

def createWithIncoming (t : SessionTable) (id : SessionId) : Option (Nat × SessionTable) :=
  if t.closed then none else some (t.created.length, t.letIn id)

/-- `get` in one piece: the session, and the table without the slot if its session was dead. -/
def getSession (t : SessionTable) (id : SessionId) : Option Nat × SessionTable :=
  if t.closed then (none, t)
  else ((t.sessions.get? id.slot).filter t.isLive, t.get id.slot)

theorem mem_liveSlots {t : SessionTable} {key session : Nat} :
    (key, session) ∈ t.liveSlots ↔
      t.sessions.get? key = some session ∧ t.isLive session = true := by
  rw [OrdMap.get?_eq_some_iff]
  exact List.mem_filter

theorem isLive_of_isDead {t : SessionTable} {session : Nat} (dead : t.isDead session = true) :
    t.isLive session = false := by
  unfold isDead at dead
  unfold isLive
  cases found : t.created[session]? with
  | none => rfl
  | some entry =>
      rw [found] at dead
      rw [Option.any_some, show entry.dead = true from dead]
      rfl

theorem liveSlots_get (t : SessionTable) (key : Nat) : (t.get key).liveSlots = t.liveSlots := by
  unfold SessionTable.get
  split
  · rfl
  · rename_i session located
    split
    · rename_i dead
      change (t.sessions.entries.filter _).filter _ = _
      rw [List.filter_filter]
      refine List.filter_congr fun slot membership => ?_
      by_cases own : slot.1 = key
      · have found : t.sessions.get? key = some slot.2 :=
          OrdMap.get?_eq_some_iff.mpr (own ▸ membership)
        obtain rfl : session = slot.2 := Option.some.inj (located.symm.trans found)
        have gone : t.isLive slot.2 = false := isLive_of_isDead dead
        change (t.isLive slot.2 && _) = t.isLive slot.2
        rw [gone, Bool.false_and]
      · change (t.isLive slot.2 && decide (slot.1 ≠ key)) = t.isLive slot.2
        rw [decide_eq_true own, Bool.and_true]
    · rfl

theorem liveSlots_getSession (t : SessionTable) (id : SessionId) :
    (t.getSession id).2.liveSlots = t.liveSlots := by
  unfold getSession
  split
  · rfl
  · exact t.liveSlots_get id.slot

theorem mem_liveSlots_of_getSession {t : SessionTable} {id : SessionId} {session : Nat}
    (found : (t.getSession id).1 = some session) : (id.slot, session) ∈ t.liveSlots := by
  unfold getSession at found
  split at found
  · cases found
  · exact mem_liveSlots.mpr (Option.filter_eq_some_iff.mp found)

theorem liveSlots_letIn_ne (t : SessionTable) (id : SessionId) :
    (t.letIn id).liveSlots ≠ t.liveSlots := by
  intro same
  have present : (id.slot, t.created.length) ∈ (t.letIn id).liveSlots := by
    refine mem_liveSlots.mpr ⟨OrdMap.get?_insert_self .., ?_⟩
    simp [isLive, letIn]
  rw [same] at present
  have alive := (mem_liveSlots.mp present).2
  rw [isLive, List.getElem?_eq_none (Nat.le_refl _)] at alive
  cases alive

theorem mem_liveSlots_letIn {t : SessionTable} {id other : SessionId} (different : other ≠ id)
    {session : Nat} (within : session < t.created.length) :
    (other.slot, session) ∈ (t.letIn id).liveSlots ↔ (other.slot, session) ∈ t.liveSlots := by
  have slots : other.slot ≠ id.slot := fun same => different (SessionId.slot_injective same)
  have entry : (t.letIn id).created[session]? = t.created[session]? :=
    List.getElem?_append_left within
  rw [mem_liveSlots, mem_liveSlots, isLive, isLive, entry]
  rw [show (t.letIn id).sessions.get? other.slot = t.sessions.get? other.slot from
    OrdMap.get?_insert_of_ne _ _ slots]

/-- `create_with_incoming` in one piece is its four steps with nothing between them. -/
theorem run_letIn {t : SessionTable} (opened : t.closed = false) (id : SessionId) :
    machine.run t [.connect id.slot, .testClosed t.connections.length,
      .build t.connections.length, .insert t.connections.length,
      .spawnRemover t.connections.length] = some (t.letIn id) := by
  simp [Machine.run, machine, step, testClosed, build, insert, spawnRemover, moveTo, idOf, letIn,
    opened]

end SessionTable

/-! ## The handshake -/

inductive HandshakeError where
  | proto (failure : ProtoError)
  | rejected (reason : String)
  | unexpected
  | unknownSession
  deriving DecidableEq

inductive HandshakeResult where
  | created (session : Nat) (sessionId : SessionId) (pathName : String)
  | joined (session : Nat) (pathName : String)
  deriving DecidableEq

/-- What a handshake returned, and what it left behind. -/
structure Accepted where
  outcome : Except HandshakeError HandshakeResult
  io : Peer
  table : SessionTable

section

variable (digests : Digests) (psk exporter : Bytes) (sessionId : SessionId)

/-- A CreateSession frame; `sessionId` is the id drawn for it. -/
def acceptCreate (io : Peer) (t : SessionTable) (c : Wire.CreateSession) : Accepted :=
  if c.version ≠ protocolVersion then
    let message := "unsupported version " ++ toString c.version.toNat
    ⟨.error (.rejected "version"), (io.writeFrame (.handshakeErr ⟨message⟩)).2, t⟩
  else
    let expect := digests.createProof psk exporter c.nonce.bytes (asBytes c.userId)
    if !proofsEqual expect.bytes c.proof.bytes then
      ⟨.error (.rejected "auth"), (io.writeFrame (.handshakeErr ⟨"auth failed"⟩)).2, t⟩
    else
      match t.createWithIncoming sessionId with
      | none =>
          let reply := io.writeFrame (.handshakeErr ⟨"session table closed"⟩)
          ⟨.error (.rejected "closed"), reply.2, t⟩
      | some (session, t) =>
          match io.writeFrame (.createSessionOk ⟨sessionId⟩) with
          | (.error failure, io) => ⟨.error (.proto failure), io, t⟩
          | (.ok (), io) =>
              let pathName := if c.pathName.isEmpty then "init" else c.pathName
              ⟨.ok (.created session sessionId pathName), io, t⟩

def acceptJoin (io : Peer) (t : SessionTable) (j : Wire.JoinSession) : Accepted :=
  match t.getSession j.sessionId with
  | (none, t) =>
      ⟨.error .unknownSession, (io.writeFrame (.handshakeErr ⟨"unknown session"⟩)).2, t⟩
  | (some session, t) =>
      let key := digests.sessionKey psk j.sessionId.bytes
      let expect := digests.joinProof key.bytes exporter (asBytes j.pathName)
      if !proofsEqual expect.bytes j.proof.bytes then
        ⟨.error (.rejected "auth"), (io.writeFrame (.handshakeErr ⟨"auth failed"⟩)).2, t⟩
      else
        match io.writeFrame .joinSessionOk with
        | (.error failure, io) => ⟨.error (.proto failure), io, t⟩
        | (.ok (), io) => ⟨.ok (.joined session j.pathName), io, t⟩

def serverAcceptHandshake (io : Peer) (t : SessionTable) : Accepted :=
  match io.readFrame with
  | .error failure => ⟨.error (.proto failure), io, t⟩
  | .ok (.createSession c, io) => acceptCreate digests psk exporter sessionId io t c
  | .ok (.joinSession j, io) => acceptJoin digests psk exporter io t j
  | .ok (_, io) => ⟨.error .unexpected, io, t⟩

/-- The version and the proof of a CreateSession are right. -/
def AuthenticCreate (c : Wire.CreateSession) : Prop :=
  c.version = protocolVersion ∧
    c.proof = digests.createProof psk exporter c.nonce.bytes (asBytes c.userId)

def AuthenticJoin (j : Wire.JoinSession) : Prop :=
  j.proof = digests.joinProof (digests.sessionKey psk j.sessionId.bytes).bytes exporter
    (asBytes j.pathName)

/-- Only a peer with a right proof gets a session, and a handshake that fails lets none in and
puts none out. -/
structure Atomic (io : Peer) (t : SessionTable) (accepted : Accepted) : Prop where
  created : ∀ session id pathName, accepted.outcome = .ok (.created session id pathName) →
    ∃ c left, io.readFrame = .ok (.createSession c, left) ∧ AuthenticCreate digests psk exporter c
  joined : ∀ session pathName, accepted.outcome = .ok (.joined session pathName) →
    ∃ j left, io.readFrame = .ok (.joinSession j, left) ∧ j.pathName = pathName ∧
      (j.sessionId.slot, session) ∈ t.liveSlots ∧ AuthenticJoin digests psk exporter j
  failed : ∀ failure, accepted.outcome = .error failure → accepted.table.liveSlots = t.liveSlots

/-- A session is let in, and the connection fails before the peer is told. -/
def ReplyLost (io : Peer) (t : SessionTable) : Prop :=
  ∃ c left, io.readFrame = .ok (.createSession c, left) ∧ AuthenticCreate digests psk exporter c ∧
    t.closed = false ∧ io.breaks.isSome = true

end

/-! ## What a frame leads to -/

section

variable {digests : Digests} {psk exporter : Bytes} {sessionId : SessionId} {io : Peer}
  {t : SessionTable}

theorem acceptCreate_refused (sessionId : SessionId) (io : Peer) {c : Wire.CreateSession}
    (refused : AuthenticCreate digests psk exporter c → t.closed = true) :
    ∃ failure reply, acceptCreate digests psk exporter sessionId io t c =
      ⟨.error failure, reply, t⟩ := by
  unfold acceptCreate
  by_cases version : c.version = protocolVersion
  · rw [if_neg (not_not_intro version)]
    by_cases proof : c.proof = digests.createProof psk exporter c.nonce.bytes (asBytes c.userId)
    · have closed : t.closed = true := refused ⟨version, proof⟩
      have none_created : t.createWithIncoming sessionId = none := if_pos closed
      simp only [(proofsEqual_bytes _ _).mpr proof, none_created]
      exact ⟨_, _, rfl⟩
    · have differs := Bool.eq_false_iff.mpr (mt (proofsEqual_bytes _ _).mp proof)
      simp only [differs]
      exact ⟨_, _, rfl⟩
  · rw [if_pos version]
    exact ⟨_, _, rfl⟩

theorem length_createSessionOk (id : SessionId) :
    (Wire.encode (.createSessionOk ⟨id⟩)).length ≤ Wire.maxFrameSize := by
  rw [Wire.encode, List.length_cons, id.length_eq]
  decide

theorem acceptCreate_letIn (sessionId : SessionId) (io : Peer) {c : Wire.CreateSession}
    (authentic : AuthenticCreate digests psk exporter c) (opened : t.closed = false) :
    (acceptCreate digests psk exporter sessionId io t c).table = t.letIn sessionId ∧
      (acceptCreate digests psk exporter sessionId io t c).outcome =
        if io.breaks.isSome then .error (.proto .io)
        else .ok (.created t.created.length sessionId
          (if c.pathName.isEmpty then "init" else c.pathName)) := by
  obtain ⟨version, proof⟩ := authentic
  have created : t.createWithIncoming sessionId = some (t.created.length, t.letIn sessionId) :=
    if_neg (Bool.eq_false_iff.mp opened)
  have reply := Peer.writeFrame_fst io (length_createSessionOk sessionId)
  unfold acceptCreate
  rw [if_neg (not_not_intro version)]
  simp only [(proofsEqual_bytes _ _).mpr proof, created]
  cases wrote : io.writeFrame (.createSessionOk ⟨sessionId⟩) with
  | mk result left =>
      rw [wrote] at reply
      by_cases fails : io.breaks.isSome = true
      · rw [if_pos fails] at reply ⊢
        obtain rfl : result = .error .io := reply
        exact ⟨rfl, rfl⟩
      · rw [if_neg fails] at reply ⊢
        obtain rfl : result = .ok () := reply
        exact ⟨rfl, rfl⟩

theorem acceptJoin_table (j : Wire.JoinSession) :
    (acceptJoin digests psk exporter io t j).table = (t.getSession j.sessionId).2 := by
  unfold acceptJoin
  cases found : t.getSession j.sessionId with
  | mk session left =>
      cases session with
      | none => rfl
      | some session =>
          dsimp only
          split
          · rfl
          · split <;> rfl

theorem acceptJoin_joined {j : Wire.JoinSession} {result : HandshakeResult}
    (joined : (acceptJoin digests psk exporter io t j).outcome = .ok result) :
    ∃ session, result = .joined session j.pathName ∧
      (t.getSession j.sessionId).1 = some session ∧ AuthenticJoin digests psk exporter j := by
  unfold acceptJoin at joined
  cases found : t.getSession j.sessionId with
  | mk session left =>
      rw [found] at joined
      cases session with
      | none => cases joined
      | some session =>
          dsimp only at joined
          split at joined
          · cases joined
          · rename_i equal
            have proof := (proofsEqual_bytes _ _).mp (by simpa using equal)
            split at joined
            · cases joined
            · cases joined
              exact ⟨session, rfl, rfl, proof⟩

/-! ## Every frame -/

theorem Atomic.of_failed {accepted : Accepted} {failure : HandshakeError}
    (failed : accepted.outcome = .error failure)
    (same : accepted.table.liveSlots = t.liveSlots) :
    Atomic digests psk exporter io t accepted := by
  constructor
  · intro session id pathName made
    rw [failed] at made
    cases made
  · intro session pathName made
    rw [failed] at made
    cases made
  · exact fun _ _ => same

theorem atomic_create_iff {c : Wire.CreateSession} {left : Peer}
    (read : io.readFrame = .ok (.createSession c, left)) :
    Atomic digests psk exporter io t (acceptCreate digests psk exporter sessionId left t c) ↔
      ¬ ReplyLost digests psk exporter io t := by
  have breaks := Peer.breaks_of_readFrame read
  by_cases letIn : AuthenticCreate digests psk exporter c ∧ t.closed = false
  · obtain ⟨table, outcome⟩ := acceptCreate_letIn sessionId left letIn.1 letIn.2
    rw [breaks] at outcome
    by_cases fails : io.breaks.isSome = true
    · rw [if_pos fails] at outcome
      refine iff_of_false (fun atomic => ?_)
        (not_not_intro ⟨c, left, read, letIn.1, letIn.2, fails⟩)
      have same := atomic.failed _ outcome
      rw [table] at same
      exact SessionTable.liveSlots_letIn_ne t sessionId same
    · rw [if_neg fails] at outcome
      refine iff_of_true ⟨fun _ _ _ _ => ⟨c, left, read, letIn.1⟩, ?_, ?_⟩ ?_
      · intro session pathName made
        rw [outcome] at made
        cases made
      · intro failure failed
        rw [outcome] at failed
        cases failed
      · rintro ⟨_, _, _, _, _, broken⟩
        exact fails broken
  · have refused : AuthenticCreate digests psk exporter c → t.closed = true :=
      fun authentic => by simpa [authentic] using letIn
    obtain ⟨failure, reply, accepted⟩ := acceptCreate_refused sessionId left refused
    rw [accepted]
    refine iff_of_true (.of_failed rfl rfl) ?_
    rintro ⟨c', left', read', authentic, opened, _⟩
    rw [read] at read'
    cases read'
    exact letIn ⟨authentic, opened⟩

theorem atomic_join {j : Wire.JoinSession} {left : Peer}
    (read : io.readFrame = .ok (.joinSession j, left)) :
    Atomic digests psk exporter io t (acceptJoin digests psk exporter left t j) := by
  constructor
  · intro session id pathName made
    obtain ⟨_, impossible, _⟩ := acceptJoin_joined made
    cases impossible
  · intro session pathName made
    obtain ⟨found, same, known, authentic⟩ := acceptJoin_joined made
    cases same
    exact ⟨j, left, read, rfl, SessionTable.mem_liveSlots_of_getSession known, authentic⟩
  · intro failure failed
    rw [acceptJoin_table]
    exact t.liveSlots_getSession j.sessionId

end

/-- A session is had only with the right proof, and a handshake that fails leaves the live sessions
as they were, unless it fails because the reply to an authentic CreateSession is not written. -/
theorem handshake_atomic_iff (digests : Digests) (psk exporter : Bytes) (sessionId : SessionId)
    (io : Peer) (t : SessionTable) :
    Atomic digests psk exporter io t (serverAcceptHandshake digests psk exporter sessionId io t) ↔
      ¬ ReplyLost digests psk exporter io t := by
  have unrelated : ∀ {left frame}, io.readFrame = .ok (frame, left) →
      (∀ c, frame ≠ .createSession c) → ¬ ReplyLost digests psk exporter io t := by
    rintro left frame read other ⟨c, left', read', _⟩
    rw [read] at read'
    cases read'
    exact other c rfl
  unfold serverAcceptHandshake
  cases read : io.readFrame with
  | error failure =>
      refine iff_of_true (.of_failed rfl rfl) ?_
      rintro ⟨c, left, impossible, _⟩
      rw [read] at impossible
      cases impossible
  | ok result =>
      obtain ⟨frame, left⟩ := result
      cases frame with
      | createSession c => exact atomic_create_iff read
      | joinSession j =>
          exact iff_of_true (atomic_join read) (unrelated read (by simp))
      | _ => exact iff_of_true (.of_failed rfl rfl) (unrelated read (by simp))

/-! ## The table after a handshake -/

section

variable (digests : Digests) (psk exporter : Bytes) (sessionId : SessionId) (io : Peer)
  {t : SessionTable}

theorem table_accepted :
    (serverAcceptHandshake digests psk exporter sessionId io t).table = t ∨
      (∃ key, (serverAcceptHandshake digests psk exporter sessionId io t).table = t.get key) ∨
      (t.closed = false ∧
        (serverAcceptHandshake digests psk exporter sessionId io t).table = t.letIn sessionId) := by
  unfold serverAcceptHandshake
  cases read : io.readFrame with
  | error failure => exact .inl rfl
  | ok result =>
      obtain ⟨frame, left⟩ := result
      cases frame with
      | createSession c =>
          by_cases letIn : AuthenticCreate digests psk exporter c ∧ t.closed = false
          · exact .inr (.inr ⟨letIn.2, (acceptCreate_letIn sessionId left letIn.1 letIn.2).1⟩)
          · have refused : AuthenticCreate digests psk exporter c → t.closed = true :=
              fun authentic => by simpa [authentic] using letIn
            obtain ⟨failure, reply, accepted⟩ := acceptCreate_refused sessionId left refused
            dsimp only
            rw [accepted]
            exact .inl rfl
      | joinSession j =>
          dsimp only
          rw [acceptJoin_table, SessionTable.getSession]
          split
          · exact .inl rfl
          · exact .inr (.inl ⟨_, rfl⟩)
      | _ => exact .inl rfl

/-- A handshake is a run of the table. -/
theorem reachable_accepted (reachable : SessionTable.machine.Reachable t) :
    SessionTable.machine.Reachable
      (serverAcceptHandshake digests psk exporter sessionId io t).table := by
  rcases table_accepted digests psk exporter sessionId io with same | ⟨key, freed⟩ | ⟨opened, made⟩
  · rw [same]
    exact reachable
  · have taken : SessionTable.machine.step t (.get key) = some (t.get key) := rfl
    rw [freed]
    exact .step reachable trivial taken
  · rw [made]
    exact reachable.run (SessionTable.run_letIn opened sessionId)

theorem mem_liveSlots_accepted {other : SessionId} (different : other ≠ sessionId) {session : Nat}
    (within : session < t.created.length) :
    (other.slot, session) ∈
        (serverAcceptHandshake digests psk exporter sessionId io t).table.liveSlots ↔
      (other.slot, session) ∈ t.liveSlots := by
  rcases table_accepted digests psk exporter sessionId io with same | ⟨key, freed⟩ | ⟨_, made⟩
  · rw [same]
  · rw [freed, SessionTable.liveSlots_get]
  · rw [made]
    exact SessionTable.mem_liveSlots_letIn different within

end

/-! ## A peer that drops -/

def Peer.sending (frame : Wire.Frame) (breaks : Option Nat) : Peer :=
  ⟨beBytes 4 (Wire.encode frame).length ++ Wire.encode frame, [], breaks⟩

theorem Peer.readFrame_sending {frame : Wire.Frame} (breaks : Option Nat)
    (fits : (Wire.encode frame).length ≤ Wire.maxFrameSize) :
    (sending frame breaks).readFrame = .ok (Wire.clipSack frame, ⟨[], [], breaks⟩) := by
  have decoded := Wire.decode_encode (Wire.strings_fit fits)
  have read := Wire.readFrame_reads (Wire.encode_ne_nil frame) fits decoded []
  rw [List.append_nil] at read
  exact readFrame_of_run read

/-- The proof of user "default" under the key "psk", for an exporter of sevens and a nonce of
zeros. -/
def defaultProof : ByteArrayOf 32 :=
  ⟨[
      0x8b, 0x6e, 0x11, 0x72, 0xc6, 0xdc, 0xbf, 0xb3,
      0xa2, 0xf8, 0x0e, 0x7b, 0x89, 0x3d, 0x82, 0x51,
      0xae, 0x45, 0xd0, 0x64, 0xb6, 0x70, 0x48, 0xb3,
      0x07, 0xfc, 0x83, 0xc0, 0x3a, 0x19, 0x53, 0x75], rfl⟩

def defaultDigests : Digests := ⟨fun _ _ => defaultProof, fun _ _ _ => .replicate 32 0⟩

def createDefault : Wire.CreateSession :=
  ⟨protocolVersion, "default", .replicate 32 0, defaultProof, "soy#0"⟩

/-- The peer asks for a session and is gone before the first byte of the reply: the caller gets an
error, and the table has one live session more. -/
theorem handshake_orphan :
    SessionTable.machine.Reachable .new ∧
      ¬ Atomic defaultDigests (asBytes "psk") (List.replicate 32 7)
        (.sending (.createSession createDefault) (some 0)) .new
        (serverAcceptHandshake defaultDigests (asBytes "psk") (List.replicate 32 7)
          (.replicate 16 9) (.sending (.createSession createDefault) (some 0)) .new) := by
  refine ⟨.start rfl, fun atomic => ?_⟩
  have fits : (Wire.encode (.createSession createDefault)).length ≤ Wire.maxFrameSize := by
    decide +kernel
  have read := Peer.readFrame_sending (some 0) fits
  rw [Wire.clipSack_eq_self (by simp)] at read
  unfold serverAcceptHandshake at atomic
  rw [read] at atomic
  exact (atomic_create_iff read).mp atomic ⟨_, _, read, ⟨rfl, rfl⟩, rfl, rfl⟩

end NyaLink
