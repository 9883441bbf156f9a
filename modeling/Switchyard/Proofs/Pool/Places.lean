import Mathlib.Data.List.Nodup
import Switchyard.Pool.Loans
import Switchyard.Proofs.Pool.Moves

/-!
# Where the buffers are

Every buffer in a pool or with a holder is where its moves say, and in no second place (`Tied`). That stays so when a
holder gives its buffer back, drops it, changes it or takes it out of a guard (`Tied.put`, `Tied.drop`, `Tied.edit`,
`Tied.detach`), when the pool gets another key (`Tied.setKey`), and when it lends a buffer or one is made (`Tied.lend`,
`Tied.make`).
-/

namespace Switchyard.Pool

variable {α : Type}

namespace Holder

/-- Who has the buffer of a holder. -/
def standing : Holder α → Standing
  | .plain _ => .plain
  | .guard _ => .guarded

/-- What happens to the buffer when the holder is dropped. -/
def dropped : Holder α → Move
  | .plain buffer => ⟨buffer.number, .lost⟩
  | .guard buffer => ⟨buffer.number, .back true⟩

/-- What happens to the buffer when it is taken out of its guard. -/
def detached : Holder α → List Move
  | .plain _ => []
  | .guard buffer => [⟨buffer.number, .detached⟩]

end Holder

/-- The numbers of the buffers in a pool and with some holders. -/
def places (pool : Pool (Numbered α)) (holders : List (Holder α)) : List Nat :=
  pool.idle.map Numbered.number ++ holders.map fun holder => holder.buffer.number

theorem mem_places_of_idle {pool : Pool (Numbered α)} {holders : List (Holder α)} {buffer : Numbered α}
    (h : buffer ∈ pool.idle) : buffer.number ∈ places pool holders :=
  List.mem_append_left _ (List.mem_map_of_mem h)

theorem mem_places_of_held {pool : Pool (Numbered α)} {holders : List (Holder α)} {holder : Holder α}
    (h : holder ∈ holders) : holder.buffer.number ∈ places pool holders :=
  List.mem_append_right _ (List.mem_map.2 ⟨holder, h, rfl⟩)

variable [Recyclable α]

/-- The buffers are where their moves say: no number is in two places, and what is idle is empty, has the key of the
pool, is not too much, and lies in the order in which it came back, the last in front. -/
structure Tied (past : List Move) (maxIdle : Nat) (pool : Pool (Numbered α)) (made : Nat)
    (holders : List (Holder α)) : Prop where
  lawful : Lawful past
  numbers : ∀ move ∈ past, move.number ≤ made
  pooled : ∀ buffer ∈ pool.idle, standing past buffer.number = .pooled
  held : ∀ holder ∈ holders, standing past holder.buffer.number = holder.standing
  apart : (places pool holders).Nodup
  keys : ∀ buffer ∈ pool.idle, Recyclable.key buffer = pool.key
  empty : ∀ buffer ∈ pool.idle, ∃ value, buffer.value = Recyclable.recycle value
  limit : pool.maxIdle = maxIdle
  bound : pool.idle.length ≤ maxIdle
  newest : pool.idle.Pairwise fun x y => Later past x.number y.number

namespace Tied

variable {past : List Move} {maxIdle made : Nat} {pool : Pool (Numbered α)} {holder : Holder α}
  {holders : List (Holder α)} {buffer : Numbered α} {g : Bool}

theorem perm (h : Tied past maxIdle pool made holders) {holders' : List (Holder α)} (hp : holders.Perm holders') :
    Tied past maxIdle pool made holders' :=
  { h with
    held := fun holder hh => h.held holder (hp.mem_iff.2 hh)
    apart := (List.Perm.append_left _ (hp.map _)).nodup_iff.1 h.apart }

theorem le_made (h : Tied past maxIdle pool made holders) {n : Nat} (hn : standing past n ≠ .unmade) : n ≤ made := by
  by_contra hlt
  exact hn (standing_eq_unmade fun move hmove he => hlt (he ▸ h.numbers move hmove))

theorem le_made_of_place (h : Tied past maxIdle pool made holders) {n : Nat} (hn : n ∈ places pool holders) :
    n ≤ made := by
  apply h.le_made
  rcases List.mem_append.1 hn with hn | hn
  · obtain ⟨buffer, hb, rfl⟩ := List.mem_map.1 hn
    simp [h.pooled buffer hb]
  · obtain ⟨holder, hh, rfl⟩ := List.mem_map.1 hn
    rw [h.held holder hh]
    cases holder <;> simp [Holder.standing]

/-- A buffer that is nowhere moves. -/
theorem note (h : Tied past maxIdle pool made holders) {move : Move} (hplace : move.number ∉ places pool holders)
    (hmade : move.number ≤ made) (hallowed : move.deed.Allowed (standing past move.number)) :
    Tied (past ++ [move]) maxIdle pool made holders where
  lawful := h.lawful.concat hallowed
  numbers m hm := by
    rcases List.mem_append.1 hm with hm | hm
    · exact h.numbers m hm
    · rwa [List.mem_singleton.1 hm]
  pooled buffer hb := by
    rw [standing_concat_of_ne, h.pooled buffer hb]
    exact fun he => hplace (he ▸ mem_places_of_idle hb)
  held holder hh := by
    rw [standing_concat_of_ne, h.held holder hh]
    exact fun he => hplace (he ▸ mem_places_of_held hh)
  apart := h.apart
  keys := h.keys
  empty := h.empty
  limit := h.limit
  bound := h.bound
  newest := h.newest.imp_of_mem fun _ hy hlater => hlater.concat fun he => hplace (he ▸ mem_places_of_idle hy)

/-- A buffer that is nowhere goes to a holder. -/
theorem hold (h : Tied past maxIdle pool made holders) (hplace : holder.buffer.number ∉ places pool holders)
    (hstanding : standing past holder.buffer.number = holder.standing) :
    Tied past maxIdle pool made (holder :: holders) :=
  { h with
    held := by
      intro other hother
      rcases List.mem_cons.1 hother with rfl | hother
      · exact hstanding
      · exact h.held other hother
    apart := by
      rw [places, List.map_cons, List.nodup_middle]
      exact List.nodup_cons.2 ⟨hplace, h.apart⟩ }

/-- A buffer that is nowhere moves to a holder. -/
theorem pass (h : Tied past maxIdle pool made holders) {move : Move} (hplace : move.number ∉ places pool holders)
    (hmade : move.number ≤ made) (hallowed : move.deed.Allowed (standing past move.number))
    (hnumber : holder.buffer.number = move.number) (hs : move.deed.standing = holder.standing) :
    Tied (past ++ [move]) maxIdle pool made (holder :: holders) := by
  refine (h.note hplace hmade hallowed).hold (by rwa [hnumber]) ?_
  rw [hnumber, standing_concat, if_pos rfl, hs]

/-- A holder lets go of its buffer, which is nowhere then. -/
theorem unhold (h : Tied past maxIdle pool made (holder :: holders)) :
    Tied past maxIdle pool made holders ∧ holder.buffer.number ∉ places pool holders := by
  have hapart := h.apart
  rw [places, List.map_cons, List.nodup_middle, List.nodup_cons] at hapart
  exact ⟨{ h with held := fun other hother => h.held other (List.mem_cons_of_mem _ hother), apart := hapart.2 },
    hapart.1⟩

/-- The deed of a holder that lets go of its buffer. -/
theorem release (h : Tied past maxIdle pool made (holder :: holders)) {d : Deed}
    (hallowed : d.Allowed holder.standing) :
    Tied (past ++ [⟨holder.buffer.number, d⟩]) maxIdle pool made holders := by
  obtain ⟨hrest, hplace⟩ := h.unhold
  refine hrest.note hplace (h.le_made_of_place (mem_places_of_held List.mem_cons_self)) ?_
  rwa [h.held holder List.mem_cons_self]

/-- The same holder with its buffer changed. -/
theorem edit (h : Tied past maxIdle pool made (holder :: holders)) (f : α → α) :
    Tied past maxIdle pool made (holder.edit f :: holders) := by
  obtain ⟨hrest, hplace⟩ := h.unhold
  have hstanding := h.held holder List.mem_cons_self
  cases holder with
  | plain buffer => exact hrest.hold hplace hstanding
  | guard buffer => exact hrest.hold hplace hstanding

/-- A buffer that came back is put on the idle ones. -/
theorem store (h : Tied (past ++ [⟨buffer.number, .back g⟩]) maxIdle pool made holders)
    (hplace : buffer.number ∉ places pool holders) {stored : Numbered α} (hnumber : stored.number = buffer.number)
    (hkey : Recyclable.key stored = pool.key) (hempty : ∃ value, stored.value = Recyclable.recycle value)
    (hroom : pool.idle.length < maxIdle) :
    Tied (past ++ [⟨buffer.number, .back g⟩]) maxIdle { pool with idle := stored :: pool.idle } made holders where
  lawful := h.lawful
  numbers := h.numbers
  pooled := by
    refine List.forall_mem_cons.2 ⟨?_, h.pooled⟩
    rw [hnumber, standing_concat, if_pos rfl]
    rfl
  held := h.held
  apart := by
    rw [places, List.map_cons, List.cons_append, hnumber]
    exact List.nodup_cons.2 ⟨hplace, h.apart⟩
  keys := List.forall_mem_cons.2 ⟨hkey, h.keys⟩
  empty := List.forall_mem_cons.2 ⟨hempty, h.empty⟩
  limit := h.limit
  bound := hroom
  newest := by
    refine List.pairwise_cons.2 ⟨fun other _ => ?_, h.newest⟩
    exact ⟨past, g, [], by rw [hnumber], by simp⟩

/-- What the pool does with a buffer that a holder gave back. -/
theorem put (hr : ∀ value : α, Recyclable.key (Recyclable.recycle value) = Recyclable.key value)
    (h : Tied past maxIdle pool made (holder :: holders)) :
    Tied (past ++ [⟨holder.buffer.number, .back holder.isGuard⟩]) maxIdle (holder.put pool) made holders := by
  have hback := h.release (d := .back holder.isGuard) (by cases holder <;> rfl)
  unfold Holder.put Pool.put
  split
  · exact hback
  · rename_i hne
    have hkey : Recyclable.key holder.buffer = pool.key := by simpa using hne
    split
    · rename_i hroom
      exact hback.store h.unhold.2 rfl ((hr _).trans hkey) ⟨_, rfl⟩ (h.limit ▸ hroom)
    · exact hback

/-- A holder that is dropped. -/
theorem drop (hr : ∀ value : α, Recyclable.key (Recyclable.recycle value) = Recyclable.key value)
    (h : Tied past maxIdle pool made (holder :: holders)) :
    Tied (past ++ [holder.dropped]) maxIdle (holder.drop pool) made holders := by
  cases holder with
  | plain buffer => exact h.release rfl
  | guard buffer => exact h.put hr

/-- A guard that is left without its buffer. -/
theorem detach (h : Tied past maxIdle pool made (holder :: holders)) :
    Tied (past ++ holder.detached) maxIdle pool made (holder.detach :: holders) := by
  cases holder with
  | plain buffer =>
    rw [Holder.detached, List.append_nil]
    exact h
  | guard buffer =>
    have hout : Tied (past ++ [⟨buffer.number, .detached⟩]) maxIdle pool made holders := h.release rfl
    exact hout.hold h.unhold.2 ((standing_concat ..).trans (if_pos rfl))

theorem setKey (h : Tied past maxIdle pool made holders) (key : Nat) :
    Tied past maxIdle (pool.setKey key) made holders := by
  unfold Pool.setKey
  split
  · exact h
  · exact
      { h with
        pooled := by simp
        apart := (List.nodup_append.1 h.apart).2.1
        keys := by simp
        empty := by simp
        bound := Nat.zero_le _
        newest := List.Pairwise.nil }

/-- The pool lends its first idle buffer, or makes one if none is idle. -/
theorem take_eq (h : Tied past maxIdle pool made holders) (make : Nat → Numbered α) :
    pool.take make = (pool.idle.head?.getD (make pool.key), { pool with idle := pool.idle.tail }) := by
  have hdrop : (pool.idle.dropWhile fun buffer => Recyclable.key buffer != pool.key) = pool.idle := by
    cases hidle : pool.idle with
    | nil => rfl
    | cons buffer rest =>
      have hkey := h.keys buffer (by simp [hidle])
      simp [hkey]
  unfold Pool.take lend?
  rw [hdrop]
  cases pool.idle <;> rfl

/-- A buffer that the pool lends. -/
theorem lend (h : Tied past maxIdle pool made holders) {rest : List (Numbered α)} (hidle : pool.idle = buffer :: rest)
    (hnumber : holder.buffer.number = buffer.number) (hs : (Deed.lent g).standing = holder.standing) :
    Tied (past ++ [⟨buffer.number, .lent g⟩]) maxIdle { pool with idle := rest } made (holder :: holders) := by
  have hapart := h.apart
  rw [places, hidle, List.map_cons, List.cons_append, List.nodup_cons] at hapart
  have hmem : buffer ∈ pool.idle := hidle ▸ List.mem_cons_self
  have hless : ∀ other ∈ rest, other ∈ pool.idle := fun other ho => hidle ▸ List.mem_cons_of_mem _ ho
  have hrest : Tied past maxIdle { pool with idle := rest } made holders :=
    { h with
      pooled := fun other ho => h.pooled other (hless other ho)
      apart := hapart.2
      keys := fun other ho => h.keys other (hless other ho)
      empty := fun other ho => h.empty other (hless other ho)
      bound := by
        have hbound := h.bound
        rw [hidle, List.length_cons] at hbound
        exact Nat.le_of_succ_le hbound
      newest := (List.pairwise_cons.1 (hidle ▸ h.newest)).2 }
  have hmade : buffer.number ≤ made := h.le_made_of_place (mem_places_of_idle hmem)
  have hallowed : (Deed.lent g).Allowed (standing past buffer.number) := Or.inr (h.pooled buffer hmem)
  exact hrest.pass hapart.1 hmade hallowed hnumber hs

/-- A buffer that is new. -/
theorem make (h : Tied past maxIdle pool made holders) (hnumber : holder.buffer.number = made + 1) {d : Deed}
    (hd : d.Allowed .unmade) (hs : d.standing = holder.standing) :
    Tied (past ++ [⟨made + 1, d⟩]) maxIdle pool (made + 1) (holder :: holders) := by
  have hplace : made + 1 ∉ places pool holders := fun hmem => by
    have := h.le_made_of_place hmem
    omega
  have hunmade : standing past (made + 1) = .unmade :=
    standing_eq_unmade fun move hmove he => by
      have := h.numbers move hmove
      omega
  have hmore : Tied past maxIdle pool (made + 1) holders :=
    { h with numbers := fun move hmove => Nat.le_succ_of_le (h.numbers move hmove) }
  exact hmore.pass hplace (Nat.le_refl _) (hunmade ▸ hd) hnumber hs

end Tied

end Switchyard.Pool
