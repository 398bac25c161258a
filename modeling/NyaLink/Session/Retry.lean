import NyaLink.Session.State

/-!
# The retry pass

`retry_expired_unacked` collects the pieces of one stream that are due and
re-sends each of them once, on a path the scheduler picks.  With every alive path
fresh and with room for the whole pass, a piece with nothing on a living path is
taken by a queue of one; the exceptions are stated with the theorem.
-/

namespace NyaLink

inductive ResendWhy where
  | dropped
  | gone
  | down
  | age
  | silence
  | belt
  deriving DecidableEq, Repr

/-- A piece the pass re-sends, as it was when the pass began. -/
structure Due where
  offset : Nat
  source : Nat
  data : Bytes
  tried : List Nat
  dropped : Bool
  bulk : Bool
  why : ResendWhy
  deriving DecidableEq, Repr

namespace Session

section

variable (cfg : SessionConfig)

/-! ## Clocks of the pass -/

def retryAfter (s : Session) (id : Nat) : Nat :=
  match minAliveFastRtt s.paths.entries, s.getPath id with
  | some rtt, _ => cfg.lossTimeout rtt
  | none, some p => cfg.lossTimeout p.rttUs
  | none, none => cfg.lossTimeoutFloor

/-- `down_timeout` of a path, from its stable RTT and its probe interval. -/
def downTimeoutFor (p : Path) : Nat := cfg.downTimeout p.stableRtt (probeIntervalFor cfg p)

def retryAfterBulk (s : Session) (id : Nat) (p : Path) : Nat :=
  let low := max (s.retryAfter cfg id) (degradeFor cfg p)
  match p.ackRtt with
  | some loop => clamp (loop * 2) low (max (downTimeoutFor cfg p) low)
  | none => low

def retryAfterBulkId (s : Session) (id : Nat) : Nat :=
  match s.getPath id with
  | some p => s.retryAfterBulk cfg id p
  | none => s.retryAfter cfg id

def beltShift (tries : Nat) : Nat := clamp tries 1 5 - 1

def hedgeBelt (p : Path) (tries : Nat) : Nat :=
  min (downTimeoutFor cfg p * 2 ^ beltShift tries) cfg.downTimeoutCeil

/-! ## Which pieces are due -/

/-- Milliseconds since the last progress of an ACK; `none` when there was none. -/
def ackStalledMs (s : Session) (st : StreamState) : Option Nat :=
  let last := max st.lastAckMs st.lastSackMs
  if last = 0 then none else some (monoMs s.now - last)

def isBulkPiece (st : StreamState) (u : Unacked) : Bool :=
  st.bulk || decide (cfg.interactiveMax < u.data.length)

def resendWhy (s : Session) (st : StreamState) (u : Unacked) : Option ResendWhy :=
  let age := s.now - u.lastSent
  if u.dropped then some .dropped
  else
    match s.getPath u.pathId with
    | none => some .gone
    | some p =>
        if !p.isAlive then some .down
        else if !isBulkPiece cfg st u then
          if s.retryAfter cfg u.pathId ≤ age then some .age else none
        else
          let quiet := s.retryAfterBulk cfg u.pathId p
          let belt := hedgeBelt cfg p u.tried.length
          if quiet ≤ p.lastRxAgo s.now ∧ quiet ≤ age then some .silence
          else if belt ≤ age ∧ (s.ackStalledMs st).all fun stalled => belt / 1000 ≤ stalled then
            some .belt
          else none

def dueOf (s : Session) (st : StreamState) (offset : Nat) (u : Unacked) : Option Due :=
  if s.now < u.retryNotBefore then none
  else
    (s.resendWhy cfg st u).map fun why =>
      { offset := offset
        source := u.pathId
        data := u.data
        tried := u.tried
        dropped := u.dropped
        bulk := isBulkPiece cfg st u
        why := why }

def dues (s : Session) (st : StreamState) : List Due :=
  st.unacked.entries.filterMap fun entry => s.dueOf cfg st entry.1 entry.2

/-! ## Re-sending one piece -/

def freshDest (s : Session) (p : Path) : Bool := isQuietFresh cfg s.now p && p.isSchedulable

def resendInteractive (s : Session) (id : Nat) (due : Due) : Session :=
  match pickRetryPath cfg s.now s.paths.entries (pushTried due.tried due.source) with
  | none => s
  | some alt =>
      if (s.getPath alt).any Path.writeStalled then s
      else
        match s.sendDataFrame cfg id due.offset due.data alt with
        | (s, true) => s.rehomeUnacked id due.offset alt true
        | (s, false) =>
            s.modifyUnacked id due.offset fun u =>
              { u with
                tried := pushTried u.tried alt
                dropped := true
                retryNotBefore := s.now + s.retryAfter cfg due.source }

def deferPiece (s : Session) (id offset delay : Nat) : Session :=
  s.modifyUnacked id offset fun u => { u with retryNotBefore := s.now + delay }

def resendBulkOn (s : Session) (id : Nat) (due : Due) (alt : Nat) : Session :=
  match s.sendDataFrame cfg id due.offset due.data alt with
  | (s, true) =>
      (s.rehomeUnacked id due.offset alt true).modifyUnacked id due.offset fun u =>
        { u with retryNotBefore :=
            if due.why = .belt then
              let base := ((s.getPath due.source).map (s.retryAfterBulk cfg due.source)).getD 0
              u.lastSent + min (base * 2 ^ beltShift u.tried.length) cfg.downTimeoutCeil
            else u.lastSent + s.retryAfterBulkId cfg alt }
  | (s, false) =>
      -- The queue is full: the path stays a candidate.
      s.modifyUnacked id due.offset fun u =>
        { u with dropped := true, retryNotBefore := s.now + s.retryAfter cfg alt }

def resendBulkFresh (s : Session) (id : Nat) (due : Due) (picked : Option Nat) : Session :=
  match picked with
  | none => s
  | some alt =>
      if (s.getPath alt).any (s.freshDest cfg) then s.resendBulkOn cfg id due alt
      else s.deferPiece id due.offset (s.retryAfter cfg due.source)

def resendOnSource (s : Session) (id : Nat) (due : Due) : Session × Bool :=
  if (s.getPath due.source).any fun p => s.freshDest cfg p && decide (p.queuedBulk < cfg.chan) then
    s.sendDataFrame cfg id due.offset due.data due.source
  else (s, false)

def resendBulk (s : Session) (id : Nat) (due : Due) : Session :=
  if due.dropped then
    let others := s.paths.entries.filter fun entry =>
      entry.2.isAlive && entry.2.isSchedulable && decide (entry.1 ≠ due.source)
    match s.resendOnSource cfg id due with
    | (s, true) =>
        (s.rehomeUnacked id due.offset due.source true).modifyUnacked id due.offset fun u =>
          { u with retryNotBefore := u.lastSent + s.retryAfterBulkId cfg due.source }
    | (s, false) => s.resendBulkFresh cfg id due (pickMinRx cfg s.now others)
  else
    s.resendBulkFresh cfg id due
      (pickRetryPath cfg s.now s.paths.entries (pushTried due.tried due.source))

def allTried (s : Session) (tried : List Nat) : Bool :=
  s.paths.entries.all fun entry => !entry.2.isAlive || tried.contains entry.1

/-- The source is alive but its writes stall, and the piece was not dropped. -/
def stalledSource (s : Session) (due : Due) : Bool :=
  !due.dropped && (s.getPath due.source).any fun p => p.isAlive && p.writeStalled

def resendDue (id : Nat) (stalledLong : Bool) (s : Session) (due : Due) : Session :=
  if stalledLong && s.allTried due.tried then s
  else if s.stalledSource due then s
  else if due.bulk then s.resendBulk cfg id due
  else s.resendInteractive cfg id due

def stalledLong (s : Session) (st : StreamState) : Bool :=
  st.stalled && st.stallFromMs != 0 && decide (cfg.closeLingerMs ≤ monoMs s.now - st.stallFromMs)

/-- `retry_expired_unacked` on a stream of the table. -/
def retryExpiredUnacked (s : Session) (id : Nat) : Session :=
  match s.getStream id with
  | none => s
  | some st =>
      if !st.isSteerable then s
      else (s.dues cfg st).foldl (resendDue cfg id (s.stalledLong cfg st)) s

end

end Session

end NyaLink
