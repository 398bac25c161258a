import Mathlib.Data.List.Basic

/-!
# Bounded pipes

A bounded queue of items from a writer to a reader, with all that was ever put
into it and all that was ever taken out: the reader has seen what was put up to
what is still buffered, and everything once the buffer is empty.
-/

universe u

structure Pipe (Item : Type u) where
  capacity : Nat
  buffered : List Item
  /-- The writer is done. -/
  shut : Bool
  put : List Item
  seen : List Item
  conserved : seen ++ buffered = put

namespace Pipe

variable {Item : Type u}

def new (capacity : Nat) : Pipe Item := ⟨capacity, [], false, [], [], rfl⟩

def hasRoom (p : Pipe Item) (count : Nat) : Bool :=
  decide (p.buffered.length + count ≤ p.capacity)

def write (p : Pipe Item) (items : List Item) : Pipe Item where
  capacity := p.capacity
  buffered := p.buffered ++ items
  shut := p.shut
  put := p.put ++ items
  seen := p.seen
  conserved := by rw [← p.conserved, List.append_assoc]

def read (p : Pipe Item) (count : Nat) : Pipe Item where
  capacity := p.capacity
  buffered := p.buffered.drop count
  shut := p.shut
  put := p.put
  seen := p.seen ++ p.buffered.take count
  conserved := by rw [List.append_assoc, List.take_append_drop, p.conserved]

def shutDown (p : Pipe Item) : Pipe Item := { p with shut := true }

@[simp]
theorem put_write (p : Pipe Item) (items : List Item) : (p.write items).put = p.put ++ items := rfl

theorem seen_prefix (p : Pipe Item) : p.seen <+: p.put := ⟨p.buffered, p.conserved⟩

theorem seen_eq_put {p : Pipe Item} (drained : p.buffered = []) : p.seen = p.put := by
  have conserved := p.conserved
  rwa [drained, List.append_nil] at conserved

end Pipe
