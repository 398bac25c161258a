import NyaLink.Library.Machine
import NyaLink.Library.OrdMap

/-!
# The session table of a server and its shutdown

`create_with_incoming` tests the closed flag and inserts under the lock of the
table; `shutdown_all` sets the flag and drains the table under that lock.  The
test and the insert are not one step, so a session may enter the table after the
drain.  Who asked for it tests the flag once more and shuts it down.

A session is named by the order of its creation, and its id is a number.
-/

namespace NyaLink

/-- One session.  `dead` is its latch. -/
structure SessionEntry where
  id : Nat
  dead : Bool
  deriving DecidableEq, Repr

/-- Where an accepted connection is. -/
inductive CreatePhase where
  /-- In `create_with_incoming`, about to test the flag. -/
  | testing (id : Nat)
  | building (id : Nat)
  | inserting (session : Nat)
  | spawning (session : Nat)
  /-- `create_with_incoming` has returned; about to test the flag again. -/
  | returned (session : Nat)
  | finished
  deriving DecidableEq, Repr

namespace CreatePhase

def session? : CreatePhase → Option Nat
  | .inserting session => some session
  | .spawning session => some session
  | .returned session => some session
  | _ => none

def filed? : CreatePhase → Option Nat
  | .spawning session => some session
  | .returned session => some session
  | _ => none

end CreatePhase

/-- Where `shutdown_all` is. -/
inductive ShutdownPhase where
  | notCalled
  | closing
  | ending (sessions : List Nat)
  deriving DecidableEq, Repr

structure SessionTable where
  closed : Bool
  sessions : OrdMap Nat Nat
  created : List SessionEntry
  connections : List CreatePhase
  removers : List Nat
  shutdown : ShutdownPhase
  deriving DecidableEq

inductive ServerAction where
  | connect (id : Nat)
  | testClosed (connection : Nat)
  | build (connection : Nat)
  | insert (connection : Nat)
  | spawnRemover (connection : Nat)
  | testAgain (connection : Nat)
  /-- `get`, past its test of the flag. -/
  | get (id : Nat)
  | die (session : Nat)
  | removeSlot (session : Nat)
  | setClosed
  | drain
  | shutdownNext
  deriving DecidableEq, Repr

namespace SessionTable

def isDead (t : SessionTable) (session : Nat) : Bool :=
  t.created[session]?.any SessionEntry.dead

def markDead (t : SessionTable) (session : Nat) : SessionTable :=
  { t with created := t.created.modify session fun entry => { entry with dead := true } }

def moveTo (t : SessionTable) (connection : Nat) (phase : CreatePhase) : SessionTable :=
  { t with connections := t.connections.set connection phase }

def idOf (t : SessionTable) (session : Nat) : Option Nat :=
  t.created[session]?.map SessionEntry.id

/-- `get` finds the slot of a dead session and frees it. -/
def get (t : SessionTable) (id : Nat) : SessionTable :=
  match t.sessions.get? id with
  | none => t
  | some session => if t.isDead session then { t with sessions := t.sessions.erase id } else t

def testClosed (t : SessionTable) (connection : Nat) : Option SessionTable :=
  match t.connections[connection]? with
  | some (.testing id) => some (t.moveTo connection (if t.closed then .finished else .building id))
  | _ => none

def build (t : SessionTable) (connection : Nat) : Option SessionTable :=
  match t.connections[connection]? with
  | some (.building id) =>
      let built : SessionTable := { t with created := t.created ++ [⟨id, false⟩] }
      some (built.moveTo connection (.inserting t.created.length))
  | _ => none

def insert (t : SessionTable) (connection : Nat) : Option SessionTable :=
  match t.connections[connection]? with
  | some (.inserting session) =>
      (t.idOf session).map fun id =>
        let filed : SessionTable := { t with sessions := t.sessions.insert id session }
        filed.moveTo connection (.spawning session)
  | _ => none

def spawnRemover (t : SessionTable) (connection : Nat) : Option SessionTable :=
  match t.connections[connection]? with
  | some (.spawning session) =>
      let spawned : SessionTable := { t with removers := session :: t.removers }
      some (spawned.moveTo connection (.returned session))
  | _ => none

/-- `serve_one` after the handshake. -/
def testAgain (t : SessionTable) (connection : Nat) : Option SessionTable :=
  match t.connections[connection]? with
  | some (.returned session) =>
      some ((if t.closed then t.markDead session else t).moveTo connection .finished)
  | _ => none

/-- The task removes whatever holds the slot of its session. -/
def removeSlot (t : SessionTable) (session : Nat) : Option SessionTable :=
  if session ∈ t.removers ∧ t.isDead session = true then
    (t.idOf session).map fun id =>
      { t with
        sessions := t.sessions.erase id
        removers := t.removers.erase session }
  else none

def drain (t : SessionTable) : Option SessionTable :=
  match t.shutdown with
  | .closing =>
      some { t with
        sessions := .empty
        shutdown := .ending (t.sessions.entries.map Prod.snd) }
  | _ => none

def shutdownNext (t : SessionTable) : Option SessionTable :=
  match t.shutdown with
  | .ending (session :: rest) => some { t.markDead session with shutdown := .ending rest }
  | _ => none

def step (t : SessionTable) : ServerAction → Option SessionTable
  | .connect id => some { t with connections := t.connections ++ [.testing id] }
  | .testClosed connection => t.testClosed connection
  | .build connection => t.build connection
  | .insert connection => t.insert connection
  | .spawnRemover connection => t.spawnRemover connection
  | .testAgain connection => t.testAgain connection
  | .get id => some (t.get id)
  | .die session => some (t.markDead session)
  | .removeSlot session => t.removeSlot session
  | .setClosed =>
      if t.shutdown = .notCalled then some { t with closed := true, shutdown := .closing }
      else none
  | .drain => t.drain
  | .shutdownNext => t.shutdownNext

def new : SessionTable := ⟨false, .empty, [], [], [], .notCalled⟩

def machine : Machine SessionTable ServerAction := ⟨fun t => t = new, step⟩

def freshId (t : SessionTable) : ServerAction → Bool
  | .build connection =>
      match t.connections[connection]? with
      | some (.building id) => t.created.all fun entry => decide (entry.id ≠ id)
      | _ => true
  | _ => true

/-- Every call of `create_with_incoming` has returned, and so has `shutdown_all`. -/
def Returned (t : SessionTable) : Prop :=
  (∀ phase ∈ t.connections, phase = .finished ∨ ∃ session, phase = .returned session) ∧
    t.shutdown = .ending []

/-- Every connection has also tested the flag again. -/
def Served (t : SessionTable) : Prop :=
  (∀ phase ∈ t.connections, phase = .finished) ∧ t.shutdown = .ending []

/-- No session is alive, in the table or out of it. -/
def AllDead (t : SessionTable) : Prop :=
  (∀ entry ∈ t.created, entry.dead = true) ∧
    ∀ id session, t.sessions.get? id = some session → t.isDead session = true

/-! ## Where a live session is -/

def Live (t : SessionTable) (session id : Nat) : Prop :=
  t.created[session]? = some ⟨id, false⟩

def Held (t : SessionTable) (session : Nat) : Prop :=
  ∃ phase ∈ t.connections, phase.session? = some session

/-- The drained sessions still to be shut down. -/
def Ending (t : SessionTable) (session : Nat) : Prop :=
  ∃ rest, t.shutdown = .ending rest ∧ session ∈ rest

def Drained (t : SessionTable) : Prop := ∃ rest, t.shutdown = .ending rest

/-- In the table, where the drain will find it. -/
def Filed (t : SessionTable) (session id : Nat) : Prop :=
  ¬ t.Drained ∧ t.sessions.get? id = some session

structure Tracked (t : SessionTable) : Prop where
  distinct : ∀ (first second : Nat) (one other : SessionEntry), t.created[first]? = some one →
    t.created[second]? = some other → one.id = other.id → first = second
  within : ∀ id session, t.sessions.get? id = some session → session < t.created.length
  known : ∀ phase ∈ t.connections, ∀ session, phase.session? = some session →
    session < t.created.length
  closed_of : t.shutdown ≠ .notCalled → t.closed = true
  filed : ∀ phase ∈ t.connections, ∀ session id, phase.filed? = some session →
    t.Live session id → ¬ t.Drained → t.sessions.get? id = some session
  kept : ∀ session id, t.Live session id →
    t.Held session ∨ t.Filed session id ∨ t.Ending session

theorem Tracked.eq_of_id {t : SessionTable} (tracked : t.Tracked) {first second id : Nat}
    (live : t.Live first id) (named : t.idOf second = some id) : first = second := by
  obtain ⟨entry, found, same⟩ := Option.map_eq_some_iff.mp named
  exact tracked.distinct first second _ _ live found same.symm

/-! ## One step -/

theorem live_markDead {t : SessionTable} {session other id : Nat} :
    (t.markDead session).Live other id ↔ t.Live other id ∧ other ≠ session := by
  unfold Live markDead
  simp only [List.getElem?_modify, Option.map_eq_map, Option.map_eq_some_iff]
  constructor
  · rintro ⟨entry, found, changed⟩
    by_cases same : session = other
    · simp [same] at changed
    · rw [if_neg same] at changed
      exact ⟨changed ▸ found, fun equal => same equal.symm⟩
  · rintro ⟨found, different⟩
    exact ⟨_, found, if_neg fun equal => different equal.symm⟩

theorem held_moveTo {t : SessionTable} {connection : Nat} {old next : CreatePhase} {session : Nat}
    (found : t.connections[connection]? = some old) (held : t.Held session)
    (moved : old.session? = some session → next.session? = some session) :
    (t.moveTo connection next).Held session := by
  obtain ⟨phase, membership, names⟩ := held
  obtain ⟨position, located⟩ := List.mem_iff_getElem?.mp membership
  have within : connection < t.connections.length := (List.getElem?_eq_some_iff.mp found).1
  by_cases same : connection = position
  · subst same
    obtain rfl : old = phase := Option.some.inj (found.symm.trans located)
    exact ⟨next, List.mem_iff_getElem?.mpr ⟨connection, List.getElem?_set_self within⟩,
      moved names⟩
  · refine ⟨phase, List.mem_iff_getElem?.mpr ⟨position, ?_⟩, names⟩
    exact (List.getElem?_set_ne same).trans located

theorem Tracked.moveTo {t : SessionTable} (tracked : t.Tracked) {connection : Nat}
    {old next : CreatePhase} (found : t.connections[connection]? = some old)
    (known : ∀ session, next.session? = some session → old.session? = some session)
    (filed : ∀ session id, next.filed? = some session → t.Live session id → ¬ t.Drained →
      t.sessions.get? id = some session)
    (kept : ∀ session id, old.session? = some session → t.Live session id →
      next.session? = some session ∨ t.Filed session id ∨ t.Ending session) :
    (t.moveTo connection next).Tracked where
  distinct := tracked.distinct
  within := tracked.within
  closed_of := tracked.closed_of
  known := by
    intro phase membership session names
    rcases List.mem_or_eq_of_mem_set membership with earlier | rfl
    · exact tracked.known phase earlier session names
    · exact tracked.known old (List.mem_of_getElem? found) session (known session names)
  filed := by
    intro phase membership session id names live undrained
    rcases List.mem_or_eq_of_mem_set membership with earlier | rfl
    · exact tracked.filed phase earlier session id names live undrained
    · exact filed session id names live undrained
  kept := by
    intro session id live
    rcases tracked.kept session id live with held | elsewhere
    · by_cases own : old.session? = some session
      · rcases kept session id own live with carried | elsewhere
        · exact .inl (held_moveTo found held fun _ => carried)
        · exact .inr elsewhere
      · exact .inl (held_moveTo found held fun own' => absurd own' own)
    · exact .inr elsewhere

theorem Tracked.markDead {t : SessionTable} (tracked : t.Tracked) (session : Nat) :
    (t.markDead session).Tracked where
  distinct := by
    intro first second one other foundFirst foundSecond same
    simp only [SessionTable.markDead, List.getElem?_modify, Option.map_eq_map,
      Option.map_eq_some_iff] at foundFirst foundSecond
    obtain ⟨one', foundFirst, changedFirst⟩ := foundFirst
    obtain ⟨other', foundSecond, changedSecond⟩ := foundSecond
    refine tracked.distinct first second one' other' foundFirst foundSecond ?_
    have idFirst : one.id = one'.id := by
      rw [← changedFirst]
      split <;> rfl
    have idSecond : other.id = other'.id := by
      rw [← changedSecond]
      split <;> rfl
    rw [← idFirst, ← idSecond, same]
  within := by
    intro id other found
    exact (List.length_modify ..).symm ▸ tracked.within id other found
  known := by
    intro phase membership other names
    exact (List.length_modify ..).symm ▸ tracked.known phase membership other names
  closed_of := tracked.closed_of
  filed := fun phase membership other id names live undrained =>
    tracked.filed phase membership other id names (live_markDead.mp live).1 undrained
  kept := fun other id live => tracked.kept other id (live_markDead.mp live).1

theorem Tracked.build {t next : SessionTable} (tracked : t.Tracked) {connection : Nat}
    (fresh : t.freshId (.build connection) = true) (taken : t.build connection = some next) :
    next.Tracked := by
  unfold SessionTable.build at taken
  split at taken
  · rename_i id found
    cases taken
    simp only [freshId, found, List.all_eq_true, decide_eq_true_eq] at fresh
    have grown : ∀ {session : Nat} {entry : SessionEntry},
        (t.created ++ [⟨id, false⟩])[session]? = some entry →
        t.created[session]? = some entry ∨ session = t.created.length ∧ entry = ⟨id, false⟩ := by
      intro session entry located
      rcases Nat.lt_trichotomy session t.created.length with below | equal | above
      · exact .inl ((List.getElem?_append_left below).symm.trans located)
      · subst equal
        rw [List.getElem?_concat_length] at located
        exact .inr ⟨rfl, (Option.some.inj located).symm⟩
      · rw [List.getElem?_eq_none (by simp; omega)] at located
        cases located
    have within : connection < t.connections.length := (List.getElem?_eq_some_iff.mp found).1
    have longer : (t.created ++ [SessionEntry.mk id false]).length = t.created.length + 1 :=
      List.length_append
    constructor
    · intro first second one other foundFirst foundSecond same
      rcases grown foundFirst with foundFirst | ⟨rfl, rfl⟩ <;>
        rcases grown foundSecond with foundSecond | ⟨rfl, rfl⟩
      · exact tracked.distinct first second one other foundFirst foundSecond same
      · exact absurd same (fresh one (List.mem_of_getElem? foundFirst))
      · exact absurd same.symm (fresh other (List.mem_of_getElem? foundSecond))
      · rfl
    · intro id' session located
      exact longer ▸ Nat.lt_succ_of_lt (tracked.within id' session located)
    · intro phase membership session names
      rcases List.mem_or_eq_of_mem_set membership with earlier | rfl
      · exact longer ▸ Nat.lt_succ_of_lt (tracked.known phase earlier session names)
      · cases names
        exact longer ▸ Nat.lt_succ_self _
    · exact tracked.closed_of
    · intro phase membership session id' names live undrained
      rcases List.mem_or_eq_of_mem_set membership with earlier | rfl
      · rcases grown live with live | ⟨rfl, _⟩
        · exact tracked.filed phase earlier session id' names live undrained
        · have named : phase.session? = some t.created.length := by
            cases phase <;> first | exact names | cases names
          exact absurd (tracked.known phase earlier _ named) (Nat.lt_irrefl _)
      · cases names
    · intro session id' live
      rcases grown live with live | ⟨rfl, _⟩
      · rcases tracked.kept session id' live with held | elsewhere
        · have still : (t.moveTo connection (.inserting t.created.length)).Held session := by
            apply held_moveTo found held
            intro impossible
            cases impossible
          exact .inl still
        · exact .inr elsewhere
      · exact .inl ⟨.inserting t.created.length,
          List.mem_iff_getElem?.mpr ⟨connection, List.getElem?_set_self within⟩, rfl⟩
  · cases taken

theorem Tracked.insert {t next : SessionTable} (tracked : t.Tracked) {connection : Nat}
    (taken : t.insert connection = some next) : next.Tracked := by
  unfold SessionTable.insert at taken
  split at taken
  · rename_i session found
    obtain ⟨id, named, rfl⟩ := Option.map_eq_some_iff.mp taken
    -- no other live session has this id, so the insert displaces none
    have kept : ∀ other id', t.Live other id' → t.sessions.get? id' = some other →
        (t.sessions.insert id session).get? id' = some other := by
      intro other id' live located
      rw [OrdMap.get?_insert]
      split
      · rename_i same
        subst same
        rw [tracked.eq_of_id live named]
      · exact located
    have holder : CreatePhase.inserting session ∈ t.connections := List.mem_of_getElem? found
    have filed : ({ t with sessions := t.sessions.insert id session } : SessionTable).Tracked := by
      constructor
      · exact tracked.distinct
      · intro id' other located
        rcases OrdMap.get?_insert_cases located with ⟨-, rfl⟩ | before
        · exact tracked.known _ holder _ rfl
        · exact tracked.within id' other before
      · exact tracked.known
      · exact tracked.closed_of
      · intro phase membership other id' names live undrained
        exact kept other id' live (tracked.filed phase membership other id' names live undrained)
      · intro other id' live
        rcases tracked.kept other id' live with held | ⟨undrained, located⟩ | ending
        · exact .inl held
        · exact .inr (.inl ⟨undrained, kept other id' live located⟩)
        · exact .inr (.inr ending)
    refine filed.moveTo found (fun _ names => names) ?_ fun _ _ names _ => .inl names
    intro other id' names live _
    cases names
    have same : id = id' := by
      obtain ⟨entry, located, equal⟩ := Option.map_eq_some_iff.mp named
      rw [show t.created[session]? = some ⟨id', false⟩ from live] at located
      rw [← equal, ← Option.some.inj located]
    rw [OrdMap.get?_insert, if_pos same.symm]
  · cases taken

theorem Tracked.free {t : SessionTable} (tracked : t.Tracked) {id : Nat} (removers : List Nat)
    (dead : ∀ session, t.sessions.get? id = some session → ¬ t.Live session id) :
    ({ t with sessions := t.sessions.erase id, removers } : SessionTable).Tracked := by
  have stays : ∀ {session id' : Nat}, t.Live session id' → t.sessions.get? id' = some session →
      (t.sessions.erase id).get? id' = some session := by
    intro session id' alive located
    have different : id' ≠ id := by
      rintro rfl
      exact dead session located alive
    rw [OrdMap.get?_erase_of_ne _ different]
    exact located
  constructor
  · exact tracked.distinct
  · intro id' session located
    exact tracked.within id' session (OrdMap.get?_erase_eq_some_iff.mp located).2
  · exact tracked.known
  · exact tracked.closed_of
  · intro phase membership session id' names alive undrained
    exact stays alive (tracked.filed phase membership session id' names alive undrained)
  · intro session id' alive
    rcases tracked.kept session id' alive with held | ⟨undrained, located⟩ | ending
    · exact .inl held
    · exact .inr (.inl ⟨undrained, stays alive located⟩)
    · exact .inr (.inr ending)

theorem not_live_of_isDead {t : SessionTable} {session id : Nat}
    (dead : t.isDead session = true) : ¬ t.Live session id := by
  intro live
  rw [isDead, show t.created[session]? = some ⟨id, false⟩ from live] at dead
  cases dead

theorem Tracked.get {t : SessionTable} (tracked : t.Tracked) (id : Nat) : (t.get id).Tracked := by
  unfold SessionTable.get
  split
  · exact tracked
  · rename_i session located
    split
    · rename_i dead
      refine tracked.free t.removers fun other found => ?_
      obtain rfl : session = other := Option.some.inj (located.symm.trans found)
      exact not_live_of_isDead dead
    · exact tracked

theorem Tracked.removeSlot {t next : SessionTable} (tracked : t.Tracked) {session : Nat}
    (taken : t.removeSlot session = some next) : next.Tracked := by
  unfold SessionTable.removeSlot at taken
  split at taken
  · rename_i ready
    obtain ⟨id, named, rfl⟩ := Option.map_eq_some_iff.mp taken
    refine tracked.free _ fun other _ live => ?_
    rw [tracked.eq_of_id live named] at live
    exact not_live_of_isDead ready.2 live
  · cases taken

theorem Tracked.drain {t next : SessionTable} (tracked : t.Tracked)
    (taken : t.drain = some next) : next.Tracked := by
  unfold SessionTable.drain at taken
  split at taken
  · rename_i closing
    cases taken
    constructor
    · exact tracked.distinct
    · intro id session located
      cases located
    · exact tracked.known
    · intro _
      exact tracked.closed_of (by rw [closing]; exact nofun)
    · intro phase _ session id _ _ undrained
      exact absurd ⟨_, rfl⟩ undrained
    · intro session id live
      rcases tracked.kept session id live with held | ⟨_, located⟩ | ⟨rest, ending, _⟩
      · exact .inl held
      · have listed := OrdMap.get?_eq_some_iff.mp located
        exact .inr (.inr ⟨_, rfl, List.mem_map.mpr ⟨(id, session), listed, rfl⟩⟩)
      · rw [closing] at ending
        cases ending
  · cases taken

theorem Tracked.shutdownNext {t next : SessionTable} (tracked : t.Tracked)
    (taken : t.shutdownNext = some next) : next.Tracked := by
  unfold SessionTable.shutdownNext at taken
  split at taken
  · rename_i session rest ending
    cases taken
    have marked := tracked.markDead session
    constructor
    · exact marked.distinct
    · exact marked.within
    · exact marked.known
    · intro _
      exact tracked.closed_of (by rw [ending]; exact nofun)
    · intro phase _ other id _ _ undrained
      exact absurd ⟨_, rfl⟩ undrained
    · intro other id live
      obtain ⟨alive, different⟩ := live_markDead.mp live
      rcases tracked.kept other id alive with held | ⟨undrained, _⟩ | ⟨listed, same, membership⟩
      · exact .inl held
      · exact absurd ⟨_, ending⟩ undrained
      · rw [ending] at same
        cases same
        exact .inr (.inr ⟨rest, rfl, (List.mem_cons.mp membership).resolve_left different⟩)
  · cases taken

theorem Tracked.testAgain {t next : SessionTable} (tracked : t.Tracked) {connection : Nat}
    (taken : t.testAgain connection = some next) : next.Tracked := by
  unfold SessionTable.testAgain at taken
  split at taken
  · rename_i session found
    cases taken
    by_cases closed : t.closed = true
    · rw [if_pos closed]
      refine (tracked.markDead session).moveTo found (fun _ names => nomatch names)
        (fun _ _ names => nomatch names) fun other id names live => ?_
      cases names
      exact absurd rfl (live_markDead.mp live).2
    · rw [if_neg closed]
      refine tracked.moveTo found (fun _ names => nomatch names)
        (fun _ _ names => nomatch names) fun other id names live => ?_
      cases names
      have undrained : ¬ t.Drained := by
        rintro ⟨rest, drained⟩
        exact closed (tracked.closed_of (by rw [drained]; exact nofun))
      have located := tracked.filed _ (List.mem_of_getElem? found) session id rfl live undrained
      exact .inr (.inl ⟨undrained, located⟩)
  · cases taken

theorem Tracked.testClosed {t next : SessionTable} (tracked : t.Tracked) {connection : Nat}
    (taken : t.testClosed connection = some next) : next.Tracked := by
  unfold SessionTable.testClosed at taken
  split at taken
  · rename_i id found
    cases taken
    refine tracked.moveTo found ?_ ?_ fun _ _ names => nomatch names
    · intro session names
      split at names <;> cases names
    · intro session id' names
      split at names <;> cases names
  · cases taken

theorem Tracked.spawnRemover {t next : SessionTable} (tracked : t.Tracked) {connection : Nat}
    (taken : t.spawnRemover connection = some next) : next.Tracked := by
  unfold SessionTable.spawnRemover at taken
  split at taken
  · rename_i session found
    cases taken
    have spawned : ({ t with removers := session :: t.removers } : SessionTable).Tracked :=
      ⟨tracked.distinct, tracked.within, tracked.known, tracked.closed_of, tracked.filed,
        tracked.kept⟩
    refine spawned.moveTo found (fun _ names => names) ?_ fun _ _ names _ => .inl names
    intro other id names live undrained
    exact tracked.filed _ (List.mem_of_getElem? found) other id names live undrained
  · cases taken

theorem Tracked.connect {t : SessionTable} (tracked : t.Tracked) (id : Nat) :
    ({ t with connections := t.connections ++ [.testing id] } : SessionTable).Tracked where
  distinct := tracked.distinct
  within := tracked.within
  closed_of := tracked.closed_of
  known := by
    intro phase membership session names
    rcases List.mem_append.mp membership with earlier | added
    · exact tracked.known phase earlier session names
    · rw [List.mem_singleton.mp added] at names
      cases names
  filed := by
    intro phase membership session id' names live undrained
    rcases List.mem_append.mp membership with earlier | added
    · exact tracked.filed phase earlier session id' names live undrained
    · rw [List.mem_singleton.mp added] at names
      cases names
  kept := by
    intro session id' live
    rcases tracked.kept session id' live with ⟨phase, membership, names⟩ | elsewhere
    · exact .inl ⟨phase, List.mem_append_left _ membership, names⟩
    · exact .inr elsewhere

/-! ## A whole run -/

theorem tracked_step {t next : SessionTable} {action : ServerAction} (tracked : t.Tracked)
    (fresh : t.freshId action = true) (taken : t.step action = some next) : next.Tracked := by
  cases action with
  | connect id =>
      cases taken
      exact tracked.connect id
  | testClosed connection => exact tracked.testClosed taken
  | build connection => exact tracked.build fresh taken
  | insert connection => exact tracked.insert taken
  | spawnRemover connection => exact tracked.spawnRemover taken
  | testAgain connection => exact tracked.testAgain taken
  | get id =>
      cases taken
      exact tracked.get id
  | die session =>
      cases taken
      exact tracked.markDead session
  | removeSlot session => exact tracked.removeSlot taken
  | setClosed =>
      simp only [step] at taken
      split at taken
      · rename_i idle
        cases taken
        refine ⟨tracked.distinct, tracked.within, tracked.known, fun _ => rfl, ?_, ?_⟩
        · intro phase membership session id names live _
          refine tracked.filed phase membership session id names live ?_
          rintro ⟨rest, drained⟩
          rw [idle] at drained
          cases drained
        · intro session id live
          rcases tracked.kept session id live with held | ⟨_, located⟩ | ⟨rest, ending, _⟩
          · exact .inl held
          · exact .inr (.inl ⟨fun ⟨_, drained⟩ => (nomatch drained), located⟩)
          · rw [idle] at ending
            cases ending
      · cases taken
  | drain => exact tracked.drain taken
  | shutdownNext => exact tracked.shutdownNext taken

theorem tracked_of_reachable {t : SessionTable}
    (reachable : machine.ReachableWhen (fun t action => t.freshId action = true) t) :
    t.Tracked := by
  induction reachable with
  | start begins =>
      cases begins
      exact ⟨nofun, nofun, nofun, fun isOpen => absurd rfl isOpen, nofun, nofun⟩
  | step _ fresh taken inductionHypothesis => exact tracked_step inductionHypothesis fresh taken

/-- Once `shutdown_all` has returned, a live session is one whose connection has yet to test the
flag again; when every connection has, none is alive. -/
theorem shutdown_final {t : SessionTable}
    (reachable : machine.ReachableWhen (fun t action => t.freshId action = true) t)
    (ended : t.shutdown = .ending []) :
    (∀ session id, t.Live session id → t.Held session) ∧ (t.Served → t.AllDead) := by
  have tracked := tracked_of_reachable reachable
  have held : ∀ session id, t.Live session id → t.Held session := by
    intro session id live
    rcases tracked.kept session id live with held | ⟨undrained, _⟩ | ⟨rest, ending, membership⟩
    · exact held
    · exact absurd ⟨[], ended⟩ undrained
    · rw [ended] at ending
      cases ending
      cases membership
  refine ⟨held, fun served => ?_⟩
  have dead : ∀ entry ∈ t.created, entry.dead = true := by
    intro entry membership
    obtain ⟨session, found⟩ := List.mem_iff_getElem?.mp membership
    cases alive : entry.dead with
    | true => rfl
    | false =>
        have live : t.Live session entry.id := by
          unfold Live
          rw [found, ← alive]
        obtain ⟨phase, listed, names⟩ := held session entry.id live
        rw [served.1 phase listed] at names
        cases names
  refine ⟨dead, fun id session located => ?_⟩
  have found := List.getElem?_eq_getElem (tracked.within id session located)
  rw [isDead, found]
  exact dead _ (List.getElem_mem _)

/-- One session is drained; another enters the table after the drain, and its connection shuts it
down. -/
def closedTwice : List ServerAction :=
  [.connect 1, .testClosed 0, .build 0, .insert 0, .spawnRemover 0, .testAgain 0, .connect 2,
    .testClosed 1, .setClosed, .drain, .build 1, .insert 1, .spawnRemover 1, .shutdownNext,
    .testAgain 1, .removeSlot 1]

theorem shutdown_final_drained : ∃ t,
    machine.runWhen (fun t action => t.freshId action = true) new closedTwice = some t ∧
      t.created.length = 2 ∧ t.AllDead := by
  have replayed : ∃ t,
      machine.runWhen (fun t action => t.freshId action = true) new closedTwice = some t ∧
        t.created.length = 2 ∧ t.shutdown = .ending [] ∧
        t.connections = [.finished, .finished] := ⟨_, rfl, rfl, rfl, rfl⟩
  obtain ⟨t, replay, two, ended, finished⟩ := replayed
  have begins : machine.ReachableWhen (fun t action => t.freshId action = true) new := .start rfl
  have reachable := begins.runWhen replay
  refine ⟨t, replay, two, (shutdown_final reachable ended).2 ⟨fun phase membership => ?_, ended⟩⟩
  rw [finished] at membership
  exact List.eq_of_mem_replicate (n := 2) membership

/-- The flag is set and the table drained between the first test and the insert. -/
def overtaken : List ServerAction :=
  [.connect 1, .testClosed 0, .setClosed, .drain, .build 0, .insert 0, .spawnRemover 0]

def sameId : List ServerAction :=
  [.connect 1, .testClosed 0, .build 0, .insert 0, .spawnRemover 0, .testAgain 0, .connect 1,
    .testClosed 1, .build 1, .insert 1, .spawnRemover 1, .testAgain 1, .setClosed, .drain,
    .shutdownNext]

/-- All calls have returned, and a session is alive and in the table; and with two sessions of one
id the first outlives even the second tests. -/
theorem shutdown_overtaken :
    (∃ t, machine.Reachable t ∧ t.Returned ∧ t.Live 0 1 ∧ t.sessions.get? 1 = some 0) ∧
      ∃ t, machine.Reachable t ∧ t.Served ∧ t.Live 0 1 := by
  have begins : machine.Reachable new := .start rfl
  have first : ∃ t, machine.run new overtaken = some t ∧ t.connections = [.returned 0] ∧
      t.shutdown = .ending [] ∧ t.Live 0 1 ∧ t.sessions.get? 1 = some 0 :=
    ⟨_, rfl, rfl, rfl, rfl, rfl⟩
  have second : ∃ t, machine.run new sameId = some t ∧
      t.connections = [.finished, .finished] ∧ t.shutdown = .ending [] ∧ t.Live 0 1 :=
    ⟨_, rfl, rfl, rfl, rfl⟩
  constructor
  · obtain ⟨t, replay, returned, ended, live, slot⟩ := first
    refine ⟨t, begins.run replay, ⟨fun phase membership => ?_, ended⟩, live, slot⟩
    rw [returned] at membership
    exact .inr ⟨0, List.mem_singleton.mp membership⟩
  · obtain ⟨t, replay, finished, ended, live⟩ := second
    refine ⟨t, begins.run replay, ⟨fun phase membership => ?_, ended⟩, live⟩
    rw [finished] at membership
    exact List.eq_of_mem_replicate (n := 2) membership

end SessionTable

end NyaLink
