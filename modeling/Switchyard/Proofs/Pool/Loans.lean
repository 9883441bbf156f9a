import Switchyard.Pool.Custody
import Switchyard.Proofs.Pool.Places

/-!
# Loans are accounted for

The moves of the buffers are told as one thing after another is done with the loans of a pool (`moves`, `history`), and
whatever is done keeps the buffers where their moves say (`Sound.perform`, `Sound.performAll`). So the loans are
accounted for after anything that was done with a pool (`accounts_run`).
-/

namespace Switchyard.Pool

variable {α : Type}

namespace Loans

def holders (l : Loans α) : List (Holder α) :=
  l.slots.map Prod.snd

/-- The names of the slots. -/
def names (l : Loans α) : List String :=
  l.slots.map Prod.fst

/-- What is told of the holder in a slot, if there is one. -/
def tell (l : Loans α) (slot : String) (told : Holder α → List Move) : List Move :=
  (l.holder? slot).elim [] told

theorem tell_nothing (l : Loans α) (slot : String) : (l.tell slot fun _ => []) = [] := by
  unfold tell
  cases l.holder? slot <;> rfl

section Slots

variable {l : Loans α} {slot : String} {holder : Holder α}

theorem slots_emptied (h : l.holder? slot = none) : (l.emptied slot).slots = l.slots := by
  refine List.filter_eq_self.2 fun p hp => ?_
  have hne : slot ≠ p.1 := by simpa using List.lookup_eq_none_iff.1 h p hp
  simpa using hne.symm

theorem holder?_emptied : (l.emptied slot).holder? slot = none := by
  refine List.lookup_eq_none_iff.2 fun p hp => ?_
  have hne : p.1 ≠ slot := by simpa using (List.mem_filter.1 hp).2
  simpa using hne.symm

theorem names_emptied : (l.emptied slot).names = l.names.filter (· != slot) := by
  simp [names, emptied, List.filter_map, Function.comp_def]

theorem nodup_emptied (h : l.names.Nodup) : (slot :: (l.emptied slot).names).Nodup := by
  rw [names_emptied]
  exact List.nodup_cons.2 ⟨by simp, h.filter _⟩

/-- The holder in a slot and the holders in the others. -/
theorem holders_perm (hnames : l.names.Nodup) (h : l.holder? slot = some holder) :
    l.holders.Perm (holder :: (l.emptied slot).holders) := by
  obtain ⟨before, after, hslots, hbefore⟩ := List.lookup_eq_some_iff.1 h
  have hafter : ∀ p ∈ after, p.1 ≠ slot := by
    intro p hp he
    rw [names, hslots, List.map_append, List.map_cons, List.nodup_middle] at hnames
    exact (List.nodup_cons.1 hnames).1 (List.mem_append_right _ (List.mem_map.2 ⟨p, hp, he⟩))
  have hslots' : (l.emptied slot).slots = before ++ after := by
    rw [emptied, hslots]
    simp only [List.filter_append, List.filter_cons, bne_self_eq_false, Bool.false_eq_true, if_false]
    rw [List.filter_eq_self.2, List.filter_eq_self.2]
    · exact fun p hp => bne_iff_ne.2 (hafter p hp)
    · exact fun p hp => bne_iff_ne.2 fun he => bne_iff_ne.1 (hbefore p hp) he.symm
  rw [holders, holders, hslots, hslots', List.map_append, List.map_append, List.map_cons]
  exact List.perm_middle

end Slots

variable [Recyclable α]

/-- The moves of the buffers as one thing is done. -/
def moves (l : Loans α) : Op α → List Move
  | .take slot make => ⟨(l.obtain make).1.number, .lent false⟩ :: l.tell slot fun holder => [holder.dropped]
  | .acquire slot make => ⟨(l.obtain make).1.number, .lent true⟩ :: l.tell slot fun holder => [holder.dropped]
  | .bring slot _ => ⟨l.made + 1, .brought⟩ :: l.tell slot fun holder => [holder.dropped]
  | .edit _ _ => []
  | .put slot => l.tell slot fun holder => [⟨holder.buffer.number, .back holder.isGuard⟩]
  | .detach slot => l.tell slot Holder.detached
  | .drop slot => l.tell slot fun holder => [holder.dropped]
  | .setKey _ => []

/-- The moves of the buffers as one thing after another is done. -/
def history (l : Loans α) : List (Op α) → List Move
  | [] => []
  | op :: ops => l.moves op ++ (l.perform op).history ops

/-- The buffer that is obtained next. -/
def next (l : Loans α) (make : Nat → α) : Numbered α :=
  l.pool.idle.head?.getD ⟨l.made + 1, make l.pool.key⟩

/-- The loans are sound: the buffers in the pool, in hand and in the slots are where their moves say. -/
structure Sound (past : List Move) (maxIdle : Nat) (hand : List (Holder α)) (l : Loans α) : Prop where
  tied : Tied past maxIdle l.pool l.made (hand ++ l.holders)
  names : l.names.Nodup

namespace Sound

variable {past : List Move} {maxIdle : Nat} {hand : List (Holder α)} {l : Loans α} {slot : String}

/-- A slot is emptied. -/
theorem remove (h : Sound past maxIdle hand l) {out : Pool (Numbered α) → Holder α → Pool (Numbered α)}
    {told : Holder α → List Move}
    (hout : ∀ {holder holders}, Tied past maxIdle l.pool l.made (holder :: holders) →
      Tied (past ++ told holder) maxIdle (out l.pool holder) l.made holders) :
    Sound (past ++ l.tell slot told) maxIdle hand
      { l.emptied slot with pool := (l.holder? slot).elim l.pool (out l.pool) } where
  tied := by
    unfold tell
    cases hholder : l.holder? slot with
    | none =>
      simp only [Option.elim_none, List.append_nil, holders, slots_emptied hholder]
      exact h.tied
    | some holder =>
      have hp := ((holders_perm h.names hholder).append_left hand).trans List.perm_middle
      exact hout (h.tied.perm hp)
  names := (List.nodup_cons.1 (nodup_emptied h.names)).2

/-- The holder in a slot is changed. -/
theorem change (h : Sound past maxIdle [] l) {f : Holder α → Holder α} {told : Holder α → List Move}
    (hf : ∀ {holder holders}, Tied past maxIdle l.pool l.made (holder :: holders) →
      Tied (past ++ told holder) maxIdle l.pool l.made (f holder :: holders)) :
    Sound (past ++ l.tell slot told) maxIdle [] (l.change slot f) := by
  unfold tell Loans.change
  cases hholder : l.holder? slot with
  | none =>
    simp only [Option.elim_none, List.append_nil]
    exact h
  | some holder => exact ⟨hf (h.tied.perm (holders_perm h.names hholder)), nodup_emptied h.names⟩

/-- The holder in hand goes to a slot that is empty. -/
theorem place {holder : Holder α} (h : Sound past maxIdle [holder] l) (hslot : l.holder? slot = none) :
    Sound past maxIdle [] (l.place slot holder) where
  tied := by
    simp only [Loans.place, holders, slots_emptied hslot]
    exact h.tied
  names := nodup_emptied h.names

theorem obtain_eq (h : Sound past maxIdle hand l) (make : Nat → α) :
    l.obtain make = (l.next make,
      { l with pool := { l.pool with idle := l.pool.idle.tail }, made := max l.made (l.next make).number }) := by
  unfold Loans.obtain
  rw [h.tied.take_eq]
  rfl

/-- A buffer is obtained for a holder in hand. -/
theorem obtain (h : Sound past maxIdle [] l) {make : Nat → α} {holder : Holder α} {g : Bool}
    (hbuffer : holder.buffer = (l.obtain make).1) (hs : (Deed.lent g).standing = holder.standing) :
    Sound (past ++ [⟨(l.obtain make).1.number, .lent g⟩]) maxIdle [holder] (l.obtain make).2 where
  tied := by
    rw [h.obtain_eq] at hbuffer ⊢
    have htied := h.tied
    cases hidle : l.pool.idle with
    | nil =>
      have hnext : l.next make = ⟨l.made + 1, make l.pool.key⟩ := by simp [next, hidle]
      simp only [hnext] at hbuffer ⊢
      have hpool : { l.pool with idle := [] } = l.pool := by rw [← hidle]
      rw [List.tail_nil, hpool, Nat.max_eq_right (Nat.le_succ _)]
      exact htied.make (by rw [hbuffer]) (Or.inl rfl) hs
    | cons buffer rest =>
      have hnext : l.next make = buffer := by simp [next, hidle]
      have hmade : buffer.number ≤ l.made :=
        htied.le_made_of_place (mem_places_of_idle (hidle ▸ List.mem_cons_self))
      rw [hnext] at hbuffer
      rw [hnext, List.tail_cons, Nat.max_eq_left hmade]
      exact htied.lend hidle (by rw [hbuffer]) hs
  names := h.names

/-- A buffer is brought for a holder in hand. -/
theorem bring (h : Sound past maxIdle [] l) (value : α) :
    Sound (past ++ [⟨l.made + 1, .brought⟩]) maxIdle [.plain ⟨l.made + 1, value⟩] { l with made := l.made + 1 } where
  tied := h.tied.make rfl rfl rfl
  names := h.names

/-- The holder in hand goes to a slot, and what was there is dropped. -/
theorem fill (hr : ∀ value : α, Recyclable.key (Recyclable.recycle value) = Recyclable.key value) {holder : Holder α}
    (h : Sound past maxIdle [holder] l) (slot : String) :
    Sound (past ++ l.tell slot fun old => [old.dropped]) maxIdle [] ((l.drop slot).place slot holder) :=
  Sound.place (h.remove fun htied => htied.drop hr) holder?_emptied

/-- **Whatever is done with the loans keeps them sound.** -/
theorem perform (hr : ∀ value : α, Recyclable.key (Recyclable.recycle value) = Recyclable.key value)
    (h : Sound past maxIdle [] l) (op : Op α) : Sound (past ++ l.moves op) maxIdle [] (l.perform op) := by
  cases op with
  | take slot make =>
    rw [moves, List.append_cons]
    exact (h.obtain rfl rfl).fill hr slot
  | acquire slot make =>
    rw [moves, List.append_cons]
    exact (h.obtain rfl rfl).fill hr slot
  | bring slot value =>
    rw [moves, List.append_cons]
    exact (h.bring value).fill hr slot
  | edit slot f =>
    rw [moves, ← tell_nothing l slot]
    exact h.change fun htied => by
      rw [List.append_nil]
      exact htied.edit f
  | put slot => exact h.remove fun htied => htied.put hr
  | detach slot => exact h.change Tied.detach
  | drop slot => exact h.remove fun htied => htied.drop hr
  | setKey key =>
    rw [moves, List.append_nil]
    exact ⟨h.tied.setKey key, h.names⟩

/-- **So does one thing after another.** -/
theorem performAll (hr : ∀ value : α, Recyclable.key (Recyclable.recycle value) = Recyclable.key value)
    (h : Sound past maxIdle [] l) (ops : List (Op α)) :
    Sound (past ++ l.history ops) maxIdle [] (ops.foldl Loans.perform l) := by
  induction ops generalizing past l with
  | nil =>
    rw [history, List.append_nil]
    exact h
  | cons op ops ih =>
    rw [history, ← List.append_assoc]
    exact ih (h.perform hr op)

/-- A pool that nothing was done with. -/
theorem start (key maxIdle : Nat) : Sound [] maxIdle [] ({ pool := { key, maxIdle } } : Loans α) where
  tied :=
    { lawful := by
        intro before move after heq
        cases before <;> cases heq
      numbers := by simp
      pooled := by simp
      held := by simp [holders]
      apart := by simp [places, holders]
      keys := by simp
      empty := by simp
      limit := rfl
      bound := Nat.zero_le _
      newest := List.Pairwise.nil }
  names := List.nodup_nil

end Sound

/-- **The loans are accounted for**, given the moves of the past. -/
structure Accounts (past : List Move) (maxIdle : Nat) (l : Loans α) : Prop where
  /-- No buffer is in two places. -/
  apart : (places l.pool l.holders).Nodup
  /-- Every buffer is where its moves say. -/
  pooled : ∀ buffer ∈ l.pool.idle, standing past buffer.number = .pooled
  held : ∀ holder ∈ l.holders, standing past holder.buffer.number = holder.standing
  /-- The next number is new. -/
  numbers : ∀ n, n ∈ places l.pool l.holders ∨ n ∈ past.map Move.number → n ≤ l.made
  bound : l.pool.idle.length ≤ maxIdle
  /-- Idle buffers are empty, and have the key of the pool. -/
  idle : ∀ buffer ∈ l.pool.idle,
    Recyclable.key buffer = l.pool.key ∧ ∃ value, buffer.value = Recyclable.recycle value
  /-- The idle buffer that came back last is in front. -/
  newest : l.pool.idle.Pairwise fun x y => Later past x.number y.number
  /-- The one in front is lent next, or a new one of the key of the pool if none is idle. -/
  lends : ∀ slot make, (l.perform (.take slot make)).holder? slot = some (.plain (l.next make)) ∧
    (l.perform (.acquire slot make)).holder? slot = some (.guard (l.next make))
  /-- A buffer that is lent twice came back in between. -/
  loans : ∀ n g g' before between after,
    past = before ++ ⟨n, .lent g⟩ :: (between ++ ⟨n, .lent g'⟩ :: after) → ∃ g'', ⟨n, .back g''⟩ ∈ between
  /-- Between two returns of a buffer by guards it was lent under one. -/
  guards : ∀ n before between after,
    past = before ++ ⟨n, .back true⟩ :: (between ++ ⟨n, .back true⟩ :: after) → ⟨n, .lent true⟩ ∈ between
  /-- So it was if it was taken out of a guard. -/
  detached : ∀ n before between after,
    past = before ++ ⟨n, .detached⟩ :: (between ++ ⟨n, .back true⟩ :: after) → ⟨n, .lent true⟩ ∈ between

theorem Sound.accounts {past : List Move} {maxIdle : Nat} {l : Loans α} (h : Sound past maxIdle [] l) :
    Accounts past maxIdle l where
  apart := h.tied.apart
  pooled := h.tied.pooled
  held := h.tied.held
  numbers n hn := by
    rcases hn with hn | hn
    · exact h.tied.le_made_of_place hn
    · obtain ⟨move, hmove, rfl⟩ := List.mem_map.1 hn
      exact h.tied.numbers move hmove
  bound := h.tied.bound
  idle buffer hb := ⟨h.tied.keys buffer hb, h.tied.empty buffer hb⟩
  newest := h.tied.newest
  lends slot make := by
    have hnext : (l.obtain make).1 = l.next make := by rw [h.obtain_eq]
    constructor
    · simp [Loans.perform, Loans.place, holder?, hnext]
    · simp [Loans.perform, Loans.place, holder?, hnext]
  loans _ _ _ _ _ _ hpast := h.tied.lawful.back_between hpast
  guards _ _ _ _ hpast := h.tied.lawful.lent_between (by simp [Deed.standing]) hpast
  detached _ _ _ _ hpast := h.tied.lawful.lent_between (by simp [Deed.standing]) hpast

/-- **Loans are accounted for after whatever was done with a pool of any key and bound**, if emptying a buffer keeps
its key: buffers that are taken, put back, dropped, unwound, detached, or changed, whatever keys they and the pool get
meanwhile. -/
theorem accounts_run (hr : ∀ value : α, Recyclable.key (Recyclable.recycle value) = Recyclable.key value)
    (key maxIdle : Nat) (ops : List (Op α)) :
    Accounts (({ pool := { key, maxIdle } } : Loans α).history ops) maxIdle
      (ops.foldl Loans.perform { pool := { key, maxIdle } }) :=
  ((Sound.start key maxIdle).performAll hr ops).accounts

/-- Two guards, of which one comes back too late; a note that comes back with another key; one that is taken out of its
guard; and a guard that outlives the key of the pool. -/
def lendings : List (Op Note) :=
  [.acquire "a" Custody.blank, .acquire "b" Custody.blank, .drop "a", .drop "b", .take "c" Custody.blank,
    .edit "c" fun note => { note with key := 5 }, .put "c", .acquire "d" Custody.blank, .detach "d", .drop "d",
    .acquire "e" Custody.blank, .setKey 7, .put "e", .bring "f" (Custody.blank 7), .put "f"]

theorem accounts_run_lendings :
    (∀ value : Note, Recyclable.key (Recyclable.recycle value) = Recyclable.key value) ∧
      ({ pool := { key := 2, maxIdle := 1 } } : Loans Note).history lendings =
        [⟨1, .lent true⟩, ⟨2, .lent true⟩, ⟨1, .back true⟩, ⟨2, .back true⟩, ⟨1, .lent false⟩, ⟨1, .back false⟩,
          ⟨3, .lent true⟩, ⟨3, .detached⟩, ⟨3, .lost⟩, ⟨4, .lent true⟩, ⟨4, .back true⟩, ⟨5, .brought⟩,
          ⟨5, .back false⟩] ∧
      Accounts (({ pool := { key := 2, maxIdle := 1 } } : Loans Note).history lendings) 1
        (lendings.foldl Loans.perform { pool := { key := 2, maxIdle := 1 } }) :=
  ⟨fun _ => rfl, by decide +kernel, accounts_run (fun _ => rfl) 2 1 lendings⟩

end Loans

end Switchyard.Pool
