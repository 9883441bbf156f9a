import Mathlib.Data.List.Induction

/-!
# Moves of buffers

What happens to the buffers of a pool is told by moves: a buffer is brought or lent, comes back, is taken out of its
guard, or is lost. By the moves of the past a buffer is not made yet, with the pool, with a plain holder, under a guard,
or lost (`standing`), and moves are lawful when each is one that the standing of its buffer allows. Lawful moves say

- that a buffer that is lent twice came back in between (`Lawful.back_between`);
- that a guard gives its buffer back once at most, and not after it was taken out (`Lawful.lent_between`).
-/

namespace Switchyard.Pool

/-- What happened to a buffer. -/
inductive Deed where
  | brought
  | lent (guarded : Bool)
  | back (guarded : Bool)
  | detached
  | lost
  deriving DecidableEq

structure Move where
  number : Nat
  deed : Deed
  deriving DecidableEq

/-- Who has a buffer, if anyone. -/
inductive Standing where
  | unmade
  | pooled
  | plain
  | guarded
  | lost
  deriving DecidableEq

namespace Deed

/-- Who has a buffer after a deed. -/
def standing : Deed → Standing
  | .brought => .plain
  | .lent true => .guarded
  | .lent false => .plain
  | .back _ => .pooled
  | .detached => .plain
  | .lost => .lost

/-- Who must have a buffer for a deed. -/
def Allowed : Deed → Standing → Prop
  | .brought, s => s = .unmade
  | .lent _, s => s = .unmade ∨ s = .pooled
  | .back true, s => s = .guarded
  | .back false, s => s = .plain
  | .detached, s => s = .guarded
  | .lost, s => s = .plain

end Deed

/-- Who has a buffer after some moves. -/
def standing (past : List Move) (n : Nat) : Standing :=
  past.foldl (fun s move => if move.number = n then move.deed.standing else s) .unmade

/-- Each move was allowed by those before it. -/
def Lawful (past : List Move) : Prop :=
  ∀ before move after, past = before ++ move :: after → move.deed.Allowed (standing before move.number)

/-- One buffer came back last after another one did. -/
def Later (past : List Move) (x y : Nat) : Prop :=
  ∃ before guarded after, past = before ++ ⟨x, .back guarded⟩ :: after ∧ ∀ g, ⟨y, .back g⟩ ∉ after

theorem standing_concat (past : List Move) (move : Move) (n : Nat) :
    standing (past ++ [move]) n = if move.number = n then move.deed.standing else standing past n := by
  simp [standing]

theorem standing_concat_of_ne {past : List Move} {move : Move} {n : Nat} (h : move.number ≠ n) :
    standing (past ++ [move]) n = standing past n := by
  rw [standing_concat, if_neg h]

theorem Later.concat {past : List Move} {x y : Nat} (h : Later past x y) {move : Move} (hne : move.number ≠ y) :
    Later (past ++ [move]) x y := by
  obtain ⟨before, guarded, after, rfl, hafter⟩ := h
  refine ⟨before, guarded, after ++ [move], by simp, fun g hg => ?_⟩
  rcases List.mem_append.1 hg with hg | hg
  · exact hafter g hg
  · exact hne (congrArg Move.number (List.mem_singleton.1 hg)).symm

/-- What no move on the way leads to is not come to. -/
theorem standing_append_avoids {P : Standing → Prop} {n : Nat} {past moves : List Move}
    (hpast : ¬ P (standing past n)) (hmoves : ∀ move ∈ moves, move.number = n → ¬ P move.deed.standing) :
    ¬ P (standing (past ++ moves) n) := by
  induction moves using List.reverseRecOn with
  | nil => rwa [List.append_nil]
  | append_singleton moves move ih =>
    rw [← List.append_assoc, standing_concat]
    split
    · rename_i hn
      exact hmoves move (by simp) hn
    · exact ih fun m hm => hmoves m (List.mem_append_left _ hm)

theorem standing_eq_unmade {past : List Move} {n : Nat} (h : ∀ move ∈ past, move.number ≠ n) :
    standing past n = .unmade := by
  have hnot : ¬ standing ([] ++ past) n ≠ .unmade :=
    standing_append_avoids (P := (· ≠ .unmade)) (by simp [standing]) fun move hmove hn => absurd hn (h move hmove)
  exact not_not.1 hnot

namespace Lawful

variable {past before between after : List Move} {n : Nat}

theorem concat (h : Lawful past) {move : Move} (hmove : move.deed.Allowed (standing past move.number)) :
    Lawful (past ++ [move]) := by
  intro before other after heq
  rcases List.eq_nil_or_concat after with rfl | ⟨after, last, rfl⟩
  · obtain ⟨rfl, hlast⟩ := List.append_inj' heq rfl
    obtain rfl := (List.cons.inj hlast).1
    exact hmove
  · rw [List.concat_eq_append, ← List.cons_append, ← List.append_assoc] at heq
    obtain ⟨rfl, -⟩ := List.append_inj' heq rfl
    exact h before other after rfl

/-- **A buffer that is lent twice came back in between.** -/
theorem back_between (h : Lawful past) {g g' : Bool}
    (hpast : past = before ++ ⟨n, .lent g⟩ :: (between ++ ⟨n, .lent g'⟩ :: after)) :
    ∃ g'', ⟨n, .back g''⟩ ∈ between := by
  have hallowed := h (before ++ ⟨n, .lent g⟩ :: between) ⟨n, .lent g'⟩ after (by simp [hpast])
  by_contra hnone
  rw [List.append_cons] at hallowed
  refine standing_append_avoids (P := fun s => s = .unmade ∨ s = .pooled) ?_ (fun move hmove hn => ?_) hallowed
  · rw [standing_concat, if_pos rfl]
    cases g <;> simp [Deed.standing]
  · obtain ⟨number, deed⟩ := move
    obtain rfl : number = n := hn
    cases deed with
    | back g'' => exact absurd ⟨g'', hmove⟩ hnone
    | lent g'' => cases g'' <;> simp [Deed.standing]
    | _ => simp [Deed.standing]

/-- **A buffer that is not under a guard comes from one only after it was lent under one.** -/
theorem lent_between (h : Lawful past) {deed : Deed} (hdeed : deed.standing ≠ .guarded)
    (hpast : past = before ++ ⟨n, deed⟩ :: (between ++ ⟨n, .back true⟩ :: after)) : ⟨n, .lent true⟩ ∈ between := by
  have hallowed := h (before ++ ⟨n, deed⟩ :: between) ⟨n, .back true⟩ after (by simp [hpast])
  by_contra hnone
  rw [List.append_cons] at hallowed
  refine standing_append_avoids (P := (· = .guarded)) ?_ (fun move hmove hn => ?_) hallowed
  · rwa [standing_concat, if_pos rfl]
  · obtain ⟨number, deed⟩ := move
    obtain rfl : number = n := hn
    cases deed with
    | lent g =>
      cases g with
      | true => exact absurd hmove hnone
      | false => simp [Deed.standing]
    | _ => simp [Deed.standing]

end Lawful

end Switchyard.Pool
