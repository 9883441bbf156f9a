/-!
# Pools of reusable buffers

Every buffer has a key: the size it was made for. A pool lends buffers of its current key only. An idle buffer is
empty; the one given back last is lent first. A buffer of another key, or one too many, is dropped when it comes
back.

- `take` lends a buffer of the key of the pool (`key_take`).
-/

namespace Switchyard

/-- A value that can be emptied and used again; emptying keeps its key. -/
class Recyclable (α : Type) where
  key : α → Nat
  recycle : α → α

/-- Idle buffers, the one to be lent first in front. -/
structure Pool (α : Type) where
  key : Nat := 0
  maxIdle : Nat := 1024
  idle : List α := []

namespace Pool

variable {α : Type} [Recyclable α]

/-- The first idle buffer of the current key, if there is one; those before it are dropped. -/
def lend? (pool : Pool α) : Option α × Pool α :=
  match pool.idle.dropWhile fun buffer => Recyclable.key buffer != pool.key with
  | buffer :: rest => (some buffer, { pool with idle := rest })
  | [] => (none, { pool with idle := [] })

/-- Lends an idle buffer of the current key, or a new one. -/
def take (make : Nat → α) (pool : Pool α) : α × Pool α :=
  let (buffer?, lent) := pool.lend?
  (buffer?.getD (make pool.key), lent)

/-- Takes a buffer back. -/
def put (buffer : α) (pool : Pool α) : Pool α :=
  if Recyclable.key buffer != pool.key then pool
  else if pool.idle.length < pool.maxIdle then { pool with idle := Recyclable.recycle buffer :: pool.idle }
  else pool

omit [Recyclable α] in
/-- Gives the pool a new key; the buffers of the old one are dropped. -/
def setKey (key : Nat) (pool : Pool α) : Pool α :=
  if key = pool.key then pool else { pool with key, idle := [] }

/-! ## Keys -/

theorem key_of_lend? {buffer : α} {pool : Pool α} (h : pool.lend?.1 = some buffer) :
    Recyclable.key buffer = pool.key := by
  unfold lend? at h
  split at h
  · next b rest heq =>
    have hb := List.head?_dropWhile_not (fun x => Recyclable.key x != pool.key) pool.idle
    rw [heq] at hb
    cases h
    simpa using hb
  · cases h

theorem key_take {make : Nat → α} {pool : Pool α} (h : ∀ key, Recyclable.key (make key) = key) :
    Recyclable.key (pool.take make).1 = pool.key := by
  cases hl : pool.lend?.1 with
  | none => simp [take, hl, h]
  | some buffer => simpa [take, hl] using key_of_lend? hl

end Pool

end Switchyard
