import Switchyard.Pool

/-!
# Loans

A pool with the buffers that it has lent. They lie in named slots, and each has the number under which it was made. A
plain holder owns its buffer: dropped, the buffer is gone. A guard owes its buffer to the pool: dropped, whether its
scope ends or a panic unwinds it, it gives the buffer back, and only once.

Filling a slot that is filled drops what it held after the new buffer was obtained.
-/

namespace Switchyard.Pool

variable {α : Type}

/-- A buffer with its number among those that were made. -/
structure Numbered (α : Type) where
  number : Nat
  value : α

instance [Recyclable α] : Recyclable (Numbered α) where
  key buffer := Recyclable.key buffer.value
  recycle buffer := { buffer with value := Recyclable.recycle buffer.value }

/-- Who answers for a buffer out of the pool. -/
inductive Holder (α : Type) where
  | plain (buffer : Numbered α)
  | guard (buffer : Numbered α)

namespace Holder

def buffer : Holder α → Numbered α
  | .plain buffer => buffer
  | .guard buffer => buffer

def isGuard : Holder α → Bool
  | .plain _ => false
  | .guard _ => true

/-- The same holder with its buffer changed. -/
def edit (f : α → α) : Holder α → Holder α
  | .plain buffer => .plain { buffer with value := f buffer.value }
  | .guard buffer => .guard { buffer with value := f buffer.value }

/-- The buffer is no longer owed to the pool. -/
def detach (holder : Holder α) : Holder α :=
  .plain holder.buffer

/-- What becomes of the pool when a holder gives its buffer back. -/
def put [Recyclable α] (pool : Pool (Numbered α)) (holder : Holder α) : Pool (Numbered α) :=
  pool.put holder.buffer

/-- What becomes of the pool when a holder is dropped. -/
def drop [Recyclable α] (pool : Pool (Numbered α)) : Holder α → Pool (Numbered α)
  | .plain _ => pool
  | .guard buffer => pool.put buffer

end Holder

/-- A pool, the slots that hold its buffers, and the number of buffers made so far. -/
structure Loans (α : Type) where
  pool : Pool (Numbered α)
  slots : List (String × Holder α) := []
  made : Nat := 0

namespace Loans

/-- One thing done with a pool and its loans. -/
inductive Op (α : Type) where
  /-- Takes a buffer for a plain holder, with how to make one. -/
  | take (slot : String) (make : Nat → α)
  /-- Takes a buffer under a guard. -/
  | acquire (slot : String) (make : Nat → α)
  /-- Brings a buffer that was made without the pool. -/
  | bring (slot : String) (value : α)
  /-- Changes a held buffer in whatever way, its key included. -/
  | edit (slot : String) (f : α → α)
  /-- Gives a buffer back: a plain one by hand, one under a guard by dropping the guard. -/
  | put (slot : String)
  /-- Takes a buffer out of its guard. -/
  | detach (slot : String)
  /-- Drops a holder, at the end of its scope or by unwinding. -/
  | drop (slot : String)
  | setKey (key : Nat)

def holder? (l : Loans α) (slot : String) : Option (Holder α) :=
  l.slots.lookup slot

/-- The slots with one of them emptied, and nothing dropped. -/
def emptied (l : Loans α) (slot : String) : Loans α :=
  { l with slots := l.slots.filter (·.1 != slot) }

/-- Puts a holder into a slot in the place of what was there. -/
def place (l : Loans α) (slot : String) (holder : Holder α) : Loans α :=
  { l with slots := (slot, holder) :: (l.emptied slot).slots }

/-- Changes the holder in a slot, if there is one. -/
def change (l : Loans α) (slot : String) (f : Holder α → Holder α) : Loans α :=
  (l.holder? slot).elim l fun holder => l.place slot (f holder)

variable [Recyclable α]

/-- Obtains a buffer, idle or new; a new one gets the next number. -/
def obtain (l : Loans α) (make : Nat → α) : Numbered α × Loans α :=
  let (buffer, pool) := l.pool.take fun key => ⟨l.made + 1, make key⟩
  (buffer, { l with pool, made := max l.made buffer.number })

/-- Empties a slot and drops what it held. -/
def drop (l : Loans α) (slot : String) : Loans α :=
  { l.emptied slot with pool := (l.holder? slot).elim l.pool (Holder.drop l.pool) }

/-- Empties a slot and gives back what it held. -/
def put (l : Loans α) (slot : String) : Loans α :=
  { l.emptied slot with pool := (l.holder? slot).elim l.pool (Holder.put l.pool) }

def perform (l : Loans α) : Op α → Loans α
  | .take slot make => ((l.obtain make).2.drop slot).place slot (.plain (l.obtain make).1)
  | .acquire slot make => ((l.obtain make).2.drop slot).place slot (.guard (l.obtain make).1)
  | .bring slot value =>
    (Loans.drop { l with made := l.made + 1 } slot).place slot (.plain ⟨l.made + 1, value⟩)
  | .edit slot f => l.change slot (Holder.edit f)
  | .put slot => l.put slot
  | .detach slot => l.change slot Holder.detach
  | .drop slot => l.drop slot
  | .setKey key => { l with pool := l.pool.setKey key }

end Loans

end Switchyard.Pool
