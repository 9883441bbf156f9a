import Switchyard.Proofs.Chain.Thread
import Switchyard.Server

/-!
# What was done with groups

A history tells what was done with groups, in order: a group was made below another, an entry was added to a group, a
route was registered on one. By it a group has what its parent had when it was made, and after that what was added to
it since (`History.Holds`).

- what a history says of a group is told by its last event and what was said before (`History.holds_concat`);
- so where a history tells the lists of a world (`History.Tells`), it still does so after one more event (`Tells.added`,
  `Tells.born`, `Tells.registered`);
- a step of a thread leaves the lists as they are, or adds one entry to one of them (`Thread.lists_step`).
-/

namespace Switchyard

/-! ## Histories -/

/-- Something done with groups; they are numbered in the order in which they were made, and 0 is the root. -/
inductive GroupEvent where
  | born (parent : Nat)
  | added (group : Nat) (entry : Program)
  | registered (group : Nat) (route : Route Chain)

namespace GroupEvent

def isBorn : GroupEvent → Bool
  | .born _ => true
  | _ => false

/-- The entry that is added to a group. -/
def entry? (group : Nat) : GroupEvent → Option Program
  | .added g entry => if g = group then some entry else none
  | _ => none

end GroupEvent

/-- What was done with groups, the first in front. -/
abbrev History := List GroupEvent

namespace History

/-- The number of groups that were made. -/
def births (h : History) : Nat :=
  h.countP GroupEvent.isBorn

/-- What was added to a group, in order. -/
def addedTo (h : History) (group : Nat) : List Program :=
  h.filterMap (GroupEvent.entry? group)

/-- **The middleware of a group**: what its parent had when it was made, and then what was added to it since. -/
inductive Holds : History → Nat → List Program → Prop where
  | root (h : History) : Holds h 0 (h.addedTo 0)
  | child {before : History} {parent : Nat} {inherited : List Program} (h : Holds before parent inherited)
    (after : History) :
    Holds (before ++ .born parent :: after) (before.births + 1) (inherited ++ after.addedTo (before.births + 1))

variable {h : History} {e : GroupEvent} {g : Nat} {list : List Program}

theorem births_append (as bs : History) : births (as ++ bs) = as.births + bs.births :=
  List.countP_append

theorem addedTo_append (as bs : History) (g : Nat) : addedTo (as ++ bs) g = as.addedTo g ++ bs.addedTo g :=
  List.filterMap_append

/-- After one more event a group has what it had and what the event adds to it, or the event made it. -/
theorem holds_concat : History.Holds (h ++ [e]) g list ↔
    (∃ before, h.Holds g before ∧ list = before ++ addedTo [e] g) ∨
      ∃ parent, e = .born parent ∧ g = h.births + 1 ∧ h.Holds parent list := by
  constructor
  · intro hg
    generalize hh : h ++ [e] = h' at hg
    cases hg with
    | root =>
      subst hh
      exact .inl ⟨_, .root h, addedTo_append h [e] 0⟩
    | @child before parent inherited hparent after =>
      -- The last event is the birth of the group, or one of those after it.
      rcases List.eq_nil_or_concat after with rfl | ⟨after, last, rfl⟩
      · obtain ⟨rfl, hlast⟩ := List.append_inj' hh rfl
        obtain rfl := (List.cons.inj hlast).1
        refine .inr ⟨parent, rfl, rfl, ?_⟩
        rw [show addedTo [] (h.births + 1) = [] from rfl, List.append_nil]
        exact hparent
      · rw [List.concat_eq_append, ← List.cons_append, ← List.append_assoc] at hh
        obtain ⟨rfl, hlast⟩ := List.append_inj' hh rfl
        obtain rfl := (List.cons.inj hlast).1
        refine .inl ⟨_, .child hparent after, ?_⟩
        rw [List.concat_eq_append, addedTo_append, List.append_assoc]
  · rintro (⟨before, hg, rfl⟩ | ⟨parent, rfl, rfl, hparent⟩)
    · cases hg with
      | root =>
        rw [← addedTo_append]
        exact .root _
      | @child before parent inherited hparent after =>
        rw [List.append_assoc, List.append_assoc, ← addedTo_append, List.cons_append]
        exact .child hparent (after ++ [e])
    · have hborn := Holds.child hparent []
      rwa [show addedTo [] (h.births + 1) = [] from rfl, List.append_nil] at hborn

/-- The lists of a world are what a history says. -/
structure Tells (h : History) (w : World) : Prop where
  births : w.lists.length = h.births + 1
  lists : ∀ g list, h.Holds g list ↔ w.lists[g]? = some list

namespace Tells

variable {w : World}

theorem empty (files : FileSystem) : Tells [] { files } where
  births := rfl
  lists g list := by
    constructor
    · intro hg
      generalize hh : ([] : History) = h at hg
      cases hg with
      | root =>
        subst hh
        rfl
      | child hparent after => cases List.append_eq_nil_iff.1 hh.symm |>.2
    · intro hlist
      cases g with
      | zero =>
        obtain rfl := Option.some.inj hlist
        exact .root []
      | succ g => cases hlist

/-- A history tells of nothing but the lists. -/
theorem of_lists {w' : World} (ht : h.Tells w) (hl : w'.lists = w.lists) : h.Tells w' where
  births := by rw [hl, ht.births]
  lists g list := by rw [hl, ht.lists]

theorem added (ht : h.Tells w) (k : Nat) (entry : Program) : Tells (h ++ [.added k entry]) (w.attach k entry) where
  births := by
    rw [births_append, World.attach, List.length_modify, ht.births]
    rfl
  lists g list := by
    have hadded : addedTo [.added k entry] g = if k = g then [entry] else [] := by
      by_cases hk : k = g <;> simp [addedTo, GroupEvent.entry?, hk]
    rw [holds_concat, World.attach, List.getElem?_modify, hadded]
    constructor
    · rintro (⟨before, hg, rfl⟩ | ⟨parent, he, -⟩)
      · rw [(ht.lists g before).1 hg]
        split <;> simp
      · cases he
    · intro hlist
      obtain ⟨before, hbefore, rfl⟩ := Option.map_eq_some_iff.1 hlist
      refine .inl ⟨before, (ht.lists g before).2 hbefore, ?_⟩
      split <;> simp

theorem born (ht : h.Tells w) {parent : Nat} (hp : parent ≤ h.births) :
    Tells (h ++ [.born parent]) { w with lists := w.lists ++ [w.list parent] } where
  births := by
    rw [births_append, List.length_append, ht.births]
    rfl
  lists g list := by
    have hlt : parent < w.lists.length := by
      rw [ht.births]
      exact Nat.lt_succ_of_le hp
    have hparent : ∀ list, h.Holds parent list ↔ w.list parent = list := by
      intro list
      rw [ht.lists, World.list, List.getElem?_eq_getElem hlt, Option.getD_some, Option.some_inj]
    have hnone : addedTo [.born parent] g = [] := rfl
    rw [holds_concat, hnone]
    dsimp only
    constructor
    · rintro (⟨before, hg, rfl⟩ | ⟨_, he, rfl, hg⟩)
      · have hget := (ht.lists g before).1 hg
        obtain ⟨hbound, -⟩ := List.getElem?_eq_some_iff.1 hget
        rw [List.getElem?_append_left hbound, List.append_nil, hget]
      · obtain rfl := GroupEvent.born.inj he
        rw [← ht.births, List.getElem?_concat_length, (hparent list).1 hg]
    · intro hlist
      rcases Nat.lt_or_ge g w.lists.length with hbound | hbound
      · rw [List.getElem?_append_left hbound] at hlist
        exact .inl ⟨list, (ht.lists g list).2 hlist, (List.append_nil list).symm⟩
      · rw [List.getElem?_append_right hbound] at hlist
        obtain ⟨hone, hlast⟩ := List.getElem?_eq_some_iff.1 hlist
        rw [List.length_singleton] at hone
        have hg : g = h.births + 1 := by
          have := ht.births
          omega
        exact .inr ⟨parent, rfl, hg, (hparent list).2 (by simpa using hlast)⟩

/-- A registration says nothing of what groups have. -/
theorem registered (ht : h.Tells w) (k : Nat) (route : Route Chain) : Tells (h ++ [.registered k route]) w where
  births := by
    rw [births_append, ht.births]
    rfl
  lists g list := by
    have hnone : addedTo [.registered k route] g = [] := rfl
    rw [holds_concat, hnone, ← ht.lists]
    constructor
    · rintro (⟨before, hg, rfl⟩ | ⟨_, he, -⟩)
      · rwa [List.append_nil]
      · cases he
    · exact fun hg => .inl ⟨list, hg, (List.append_nil list).symm⟩

end Tells

end History

/-! ## What a step does to the lists -/

/-- What the next step of a thread adds to a group. -/
def Thread.attaches (t : Thread) : History :=
  match t.control with
  | .program (.attach list entry _) => [.added list entry]
  | _ => []

namespace Machine

variable (m : Machine)

theorem world_apply (c : Context.Change) : (m.apply c).world = m.world := by
  cases c <;> rfl

theorem world_render (r : Responder) : (m.render r).world = m.world := by
  unfold render
  cases r.writeTo.run m.context.draft <;> rfl

theorem world_close (kind : LaneKind) : (m.close kind).world = m.world := by
  cases kind <;> rfl

theorem world_start (kind : LaneKind) (index : Nat) : (m.start kind index).world = m.world := by
  cases kind <;> rfl

theorem world_settle (kind : LaneKind) (flow : Flow) : (m.settle kind flow).world = m.world := by
  cases flow with
  | proceed => rfl
  | respond r => exact m.world_render r
  | stop => cases kind <;> rfl

end Machine

namespace Thread

variable {t u : Thread}

theorem settleStep_world (kind : LaneKind) (index : Nat) (flow : Flow) (frames : List Frame) (m : Machine) :
    (settleStep kind index flow frames m).machine.world = m.world := by
  have hsettled := (m.report (.finished kind index flow)).world_settle kind flow
  unfold settleStep
  dsimp only
  split
  · exact hsettled
  · exact (Machine.world_close _ kind).trans hsettled

/-- **A step leaves the lists as they are, or adds the entry that is attached in it.** -/
theorem lists_step (h : t.step = some u) : (t.attaches = [] ∧ u.machine.world.lists = t.machine.world.lists) ∨
    ∃ list entry, t.attaches = [.added list entry] ∧ u.machine.world = t.machine.world.attach list entry := by
  obtain ⟨control, frames, m⟩ := t
  cases control with
  | program p =>
    obtain rfl := Option.some.inj h
    cases p with
    | attach list entry next => exact .inr ⟨list, entry, rfl, rfl⟩
    | finish flow =>
      refine .inl ⟨rfl, congrArg World.lists ?_⟩
      cases frames with
      | nil => rfl
      | cons frame frames =>
        cases frame with
        | entry kind index => exact settleStep_world kind index flow frames m
        | _ => rfl
    | change c next => exact .inl ⟨rfl, congrArg World.lists (m.world_apply c)⟩
    | render r next => exact .inl ⟨rfl, congrArg World.lists (m.world_render r)⟩
    | _ => exact .inl ⟨rfl, rfl⟩
  | drive d => cases d <;> (obtain rfl := Option.some.inj h; exact .inl ⟨rfl, rfl⟩)
  | lane kind =>
    obtain rfl : laneStep kind frames m = u := Option.some.inj h
    refine .inl ⟨rfl, congrArg World.lists ?_⟩
    rcases laneStep_cases kind frames m with ⟨-, hs⟩ | ⟨index, entry, -, -, hs⟩
    · rw [hs]
      exact m.world_close kind
    · rw [hs]
      exact m.world_start kind index
  | idle =>
    cases frames with
    | nil => cases h
    | cons frame frames =>
      obtain rfl := Option.some.inj h
      cases frame <;> exact .inl ⟨rfl, rfl⟩
  | unwind payload =>
    cases frames with
    | nil => cases h
    | cons frame frames =>
      obtain rfl := Option.some.inj h
      cases frame <;> exact .inl ⟨rfl, rfl⟩

end Thread

end Switchyard
