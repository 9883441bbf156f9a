import Switchyard.Pool

/-!
# Idle buffers are as good as new

A pool is fresh when each idle buffer is what `make` gives for the key of the pool. Every operation of a pool keeps
that (`fresh_take`, `fresh_put`, `fresh_setKey`), whatever was done to a buffer before it comes back, as long as
emptying a buffer gives what `make` gives for its key. A fresh pool lends what an empty one would make (`take_fresh`).
-/

namespace Switchyard.Pool

variable {α : Type} {make : Nat → α}

/-- Every idle buffer is what would be made for the key. -/
def Fresh (make : Nat → α) (pool : Pool α) : Prop :=
  ∀ buffer ∈ pool.idle, buffer = make pool.key

theorem fresh_of_empty {pool : Pool α} (h : pool.idle = []) : pool.Fresh make := by
  intro buffer hb
  rw [h] at hb
  cases hb

theorem fresh_setKey {pool : Pool α} (h : pool.Fresh make) (key : Nat) : (pool.setKey key).Fresh make := by
  unfold setKey
  split
  · exact h
  · exact fresh_of_empty rfl

theorem key_setKey (pool : Pool α) (key : Nat) : (pool.setKey key).key = key := by
  unfold setKey
  split
  · rename_i h
    exact h.symm
  · rfl

variable [Recyclable α]

theorem key_put (pool : Pool α) (buffer : α) : (pool.put buffer).key = pool.key := by
  unfold put
  split
  · rfl
  · split <;> rfl

theorem key_lend? (pool : Pool α) : pool.lend?.2.key = pool.key := by
  unfold lend?
  split <;> rfl

/-- What is left idle was idle before. -/
theorem mem_of_mem_lend? {pool : Pool α} {buffer : α} (h : buffer ∈ pool.lend?.2.idle) : buffer ∈ pool.idle := by
  unfold lend? at h
  split at h
  · rename_i b rest heq
    have hmem : buffer ∈ b :: rest := List.mem_cons_of_mem b h
    rw [← heq] at hmem
    exact (List.dropWhile_suffix _).subset hmem
  · cases h

/-- What is lent was idle. -/
theorem mem_of_lend? {pool : Pool α} {buffer : α} (h : pool.lend?.1 = some buffer) : buffer ∈ pool.idle := by
  unfold lend? at h
  split at h
  · rename_i b rest heq
    obtain rfl := Option.some.inj h
    have hmem : b ∈ b :: rest := List.mem_cons_self
    rw [← heq] at hmem
    exact (List.dropWhile_suffix _).subset hmem
  · cases h

theorem fresh_take {pool : Pool α} (h : pool.Fresh make) : (pool.take make).2.Fresh make := by
  intro buffer hb
  have hkey : (pool.take make).2.key = pool.key := key_lend? pool
  rw [hkey]
  exact h buffer (mem_of_mem_lend? hb)

/-- **A fresh pool lends a buffer that is as good as new.** -/
theorem take_fresh {pool : Pool α} (h : pool.Fresh make) : (pool.take make).1 = make pool.key := by
  cases hl : pool.lend?.1 with
  | none => simp [take, hl]
  | some buffer => simp [take, hl, h buffer (mem_of_lend? hl)]

/-- A buffer that comes back is emptied, whatever it holds. -/
theorem fresh_put (hr : ∀ b : α, Recyclable.recycle b = make (Recyclable.key b)) {pool : Pool α} (h : pool.Fresh make)
    (buffer : α) : (pool.put buffer).Fresh make := by
  unfold put
  split
  · exact h
  · rename_i hk
    have hkey : Recyclable.key buffer = pool.key := by simpa using hk
    split
    · intro b hb
      rcases List.mem_cons.1 hb with rfl | hb
      · rw [hr, hkey]
      · exact h b hb
    · exact h

end Switchyard.Pool
