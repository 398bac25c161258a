import Mathlib.Data.List.Basic

/-!
# A notifier and its futures

Futures wait in the order of registration.  `notifyOne` wakes the first that waits and leaves a
permit when none does; a future that registers takes the permit.  One that is dropped after such a
wake passes it on.  `notifyWaiters` wakes all that wait and leaves no permit.
-/

universe u

/-- `woken` lists the futures that were woken and have not been resumed, each with whether
`notifyOne` did it. -/
structure Notifier (Ticket : Type u) where
  permit : Bool
  waiting : List Ticket
  woken : List (Ticket × Bool)
  deriving DecidableEq

namespace Notifier

variable {Ticket : Type u}

def new : Notifier Ticket := ⟨false, [], []⟩

def notifyOne (n : Notifier Ticket) : Notifier Ticket :=
  match n.waiting with
  | [] => { n with permit := true }
  | first :: rest => { n with waiting := rest, woken := n.woken ++ [(first, true)] }

def notifyWaiters (n : Notifier Ticket) : Notifier Ticket :=
  { n with waiting := [], woken := n.woken ++ n.waiting.map fun ticket => (ticket, false) }

def wait (n : Notifier Ticket) (ticket : Ticket) : Notifier Ticket :=
  { n with waiting := n.waiting ++ [ticket] }

def PermitKept (n : Notifier Ticket) : Prop := n.permit = true → n.waiting = []

/-- Every wake under way is one of `notifyOne`. -/
def OnesOnly (n : Notifier Ticket) : Prop := ∀ wake ∈ n.woken, wake.2 = true

variable {n : Notifier Ticket}

theorem notifyOne_cases (n : Notifier Ticket) :
    (n.waiting = [] ∧ n.notifyOne = { n with permit := true }) ∨
      ∃ first rest, n.waiting = first :: rest ∧
        n.notifyOne = { n with waiting := rest, woken := n.woken ++ [(first, true)] } := by
  unfold notifyOne
  cases waits : n.waiting with
  | nil => exact .inl ⟨rfl, rfl⟩
  | cons first rest => exact .inr ⟨first, rest, rfl, rfl⟩

/-- The number of wakes under way grows by one, or a permit is left. -/
theorem notifyOne_wakes (n : Notifier Ticket) :
    n.notifyOne.permit = true ∨ n.notifyOne.woken.length = n.woken.length + 1 := by
  rcases n.notifyOne_cases with ⟨-, left⟩ | ⟨first, rest, -, woke⟩
  · exact .inl (by rw [left])
  · exact .inr (by rw [woke, List.length_append, List.length_singleton])

theorem PermitKept.notifyOne (kept : n.PermitKept) : n.notifyOne.PermitKept := by
  rcases n.notifyOne_cases with ⟨nobody, left⟩ | ⟨first, rest, waits, woke⟩
  · rw [left]
    exact fun _ => nobody
  · rw [woke]
    intro permit
    rw [kept permit] at waits
    cases waits

theorem OnesOnly.notifyOne (ones : n.OnesOnly) : n.notifyOne.OnesOnly := by
  rcases n.notifyOne_cases with ⟨-, left⟩ | ⟨first, rest, -, woke⟩
  · rw [left]
    exact ones
  · rw [woke]
    intro wake present
    rcases List.mem_append.mp present with earlier | new
    · exact ones wake earlier
    · rw [List.mem_singleton.mp new]

/-! ## Futures by their tickets -/

variable [DecidableEq Ticket]

def isWoken (n : Notifier Ticket) (ticket : Ticket) : Bool :=
  n.woken.any fun wake => decide (wake.1 = ticket)

def resume (n : Notifier Ticket) (ticket : Ticket) : Notifier Ticket :=
  { n with woken := n.woken.eraseP fun wake => decide (wake.1 = ticket) }

def drop (n : Notifier Ticket) (ticket : Ticket) : Notifier Ticket :=
  if n.isWoken ticket then
    let passesOn := n.woken.any fun wake => decide (wake = (ticket, true))
    if passesOn then (n.resume ticket).notifyOne else n.resume ticket
  else { n with waiting := n.waiting.erase ticket }

def Registered (n : Notifier Ticket) (ticket : Ticket) : Prop :=
  ticket ∈ n.waiting ∨ n.isWoken ticket = true

variable {ticket other : Ticket}

theorem isWoken_iff : n.isWoken ticket = true ↔ ∃ one, (ticket, one) ∈ n.woken := by
  simp [isWoken]

theorem PermitKept.drop (kept : n.PermitKept) (ticket : Ticket) : (n.drop ticket).PermitKept := by
  unfold Notifier.drop
  dsimp only
  split
  · split
    · exact PermitKept.notifyOne (n := n.resume ticket) kept
    · exact kept
  · intro permit
    rw [show (n.waiting.erase ticket) = [] from by rw [kept permit]; rfl]

theorem isWoken_resume (woken : n.isWoken ticket = true) (different : ticket ≠ other) :
    (n.resume other).isWoken ticket = true := by
  obtain ⟨one, present⟩ := isWoken_iff.mp woken
  refine isWoken_iff.mpr ⟨one, ?_⟩
  exact (List.mem_eraseP_of_neg (by simpa using different)).mpr present

theorem isWoken_drop (woken : n.isWoken ticket = true) (different : ticket ≠ other) :
    (n.drop other).isWoken ticket = true := by
  unfold Notifier.drop
  dsimp only
  split
  · split
    · obtain ⟨one, present⟩ := isWoken_iff.mp (isWoken_resume woken different)
      rcases (n.resume other).notifyOne_cases with ⟨-, left⟩ | ⟨first, rest, -, woke⟩
      · rw [left]
        exact isWoken_iff.mpr ⟨one, present⟩
      · rw [woke]
        exact isWoken_iff.mpr ⟨one, List.mem_append_left _ present⟩
    · exact isWoken_resume woken different
  · exact woken

theorem Registered.resume (registered : n.Registered ticket) (different : ticket ≠ other) :
    (n.resume other).Registered ticket := by
  exact registered.imp id fun woken => isWoken_resume woken different

theorem Registered.notifyOne (registered : n.Registered ticket) :
    n.notifyOne.Registered ticket := by
  rcases n.notifyOne_cases with ⟨-, left⟩ | ⟨first, rest, waits, woke⟩
  · rw [left]
    exact registered
  · rw [woke]
    rcases registered with waiting | woken
    · rw [waits] at waiting
      rcases List.mem_cons.mp waiting with rfl | later
      · exact .inr (isWoken_iff.mpr ⟨true, by simp⟩)
      · exact .inl later
    · obtain ⟨one, present⟩ := isWoken_iff.mp woken
      exact .inr (isWoken_iff.mpr ⟨one, List.mem_append_left _ present⟩)

theorem Registered.drop (registered : n.Registered ticket) (different : ticket ≠ other) :
    (n.drop other).Registered ticket := by
  unfold Notifier.drop
  dsimp only
  split
  · split
    · exact (registered.resume different).notifyOne
    · exact registered.resume different
  · exact registered.imp (fun waiting => (List.mem_erase_of_ne different).mpr waiting) id

theorem OnesOnly.resume (ones : n.OnesOnly) (ticket : Ticket) : (n.resume ticket).OnesOnly :=
  fun wake present => ones wake (List.mem_of_mem_eraseP present)

/-- A future that `notifyOne` woke passes the wake on. -/
theorem drop_woken (ones : n.OnesOnly) (woken : n.isWoken ticket = true) :
    n.drop ticket = (n.resume ticket).notifyOne := by
  obtain ⟨one, present⟩ := isWoken_iff.mp woken
  obtain rfl : one = true := ones _ present
  unfold Notifier.drop
  rw [if_pos woken]
  dsimp only
  rw [if_pos]
  exact List.any_eq_true.mpr ⟨_, present, decide_eq_true rfl⟩

theorem drop_waiting (notWoken : n.isWoken ticket = false) :
    n.drop ticket = { n with waiting := n.waiting.erase ticket } := by
  unfold Notifier.drop
  rw [if_neg (by rw [notWoken]; exact Bool.false_ne_true)]

theorem isWoken_notifyWaiters (registered : n.Registered ticket) :
    n.notifyWaiters.isWoken ticket = true := by
  rcases registered with waiting | woken
  · exact isWoken_iff.mpr ⟨false, List.mem_append_right _ (List.mem_map_of_mem waiting)⟩
  · obtain ⟨one, present⟩ := isWoken_iff.mp woken
    exact isWoken_iff.mpr ⟨one, List.mem_append_left _ present⟩

theorem Registered.wait (registered : n.Registered ticket) (other : Ticket) :
    (n.wait other).Registered ticket := registered.imp_left (List.mem_append_left _)

end Notifier
