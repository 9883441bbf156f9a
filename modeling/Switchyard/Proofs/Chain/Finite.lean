import Mathlib.Logic.Function.Iterate
import Mathlib.Order.WellFounded
import Switchyard.Proofs.Chain.Order

/-!
# Chains come to an end

Steps have no bound: an entry may drive the lane it was started by, as often as it likes, and so may what it starts.
Still no thread goes on for ever, whatever others do to the world between its steps (`Thread.wellFounded_later`). What
decreases are the entries that were not started; between two starts a thread only works off the programs that wait in
its frames.

- `Thread.Settles`: the work below some frames ends, on every machine with so many entries left; lanes, drives and
  programs above such frames end as well (`Settles.lane`, `Settles.drive`, `Settles.program`), and so all frames settle
  (`settles`);
- every step keeps the entries underway and those that were not started within their number at the beginning
  (`SharedSteps.underway_le`);
- so the drive of a chain ends, starts no more entries than the chain has, and nests them no deeper (`drive_ends`).
-/

namespace Switchyard

theorem Machine.Turns.pending_le {m m' : Machine} (h : m.Turns m') : m'.pending ≤ m.pending := by
  cases h with
  | keep => exact Nat.le_refl _
  | apply c => exact kept_pending.apply m c
  | render r => exact kept_pending.render m r
  | recycle => exact kept_pending.recycle m
  | note script action reply => exact Nat.le_refl _
  | log r => exact Nat.le_refl _
  | readFile path => exact Nat.le_refl _
  | world w => exact Nat.le_refl _
  | @close kind h => exact kept_pending.close m kind
  | conclude kind index flow =>
    have hset := kept_pending.settle (m.report (.finished kind index flow)) kind flow
    unfold Machine.conclude
    dsimp only
    split
    · exact hset
    · exact Nat.le_trans (kept_pending.close _ kind) hset
  | caught fault => exact Nat.le_refl _

namespace Thread

/-! ## No thread goes on for ever -/

/-- One step later, after others may have put another world in place. -/
def Later (u t : Thread) : Prop :=
  ∃ w, (t.inWorld w).step = some u

/-- Whatever the thread comes to, it ends. -/
abbrev Terminates (t : Thread) : Prop :=
  Acc Later t

/-- A thread ends if it does after its next step, whatever the world is then. -/
theorem terminates_of_step {control : Control} {frames : List Frame} {next : Machine → Thread}
    (hstep : ∀ m, step ⟨control, frames, m⟩ = some (next m)) {m : Machine}
    (h : ∀ w, (next (m.inWorld w)).Terminates) : Terminates ⟨control, frames, m⟩ := by
  refine ⟨_, fun u ⟨w, hs⟩ => ?_⟩
  obtain rfl : next (m.inWorld w) = u := Option.some.inj ((hstep (m.inWorld w)).symm.trans hs)
  exact h w

section Settling

variable {n : Nat} {frames : List Frame}

/-- The threads with less entries left end. -/
def TerminateBelow (n : Nat) : Prop :=
  ∀ t : Thread, t.machine.pending < n → t.Terminates

/-- With so many entries left at most, the work below the frames ends, whether the work above has ended or panicked. -/
def Settles (n : Nat) (frames : List Frame) : Prop :=
  ∀ m : Machine, m.pending ≤ n → Terminates ⟨.idle, frames, m⟩ ∧ ∀ payload, Terminates ⟨.unwind payload, frames, m⟩

theorem settles_nil (n : Nat) : Settles n [] := fun _ _ =>
  ⟨⟨_, fun _ ⟨_, hs⟩ => by cases hs⟩, fun _ => ⟨_, fun _ ⟨_, hs⟩ => by cases hs⟩⟩

/-- Frames settle if the one on top is taken to where the work ends, by both ways. -/
theorem settles_cons {frame : Frame} (hidle : ∀ m : Machine, m.pending ≤ n → (idleStep m frame frames).Terminates)
    (hunwind : ∀ (m : Machine) (payload : Panic), m.pending ≤ n → (unwindStep payload m frame frames).Terminates) :
    Settles n (frame :: frames) := fun m hm =>
  ⟨terminates_of_step (fun _ => rfl) fun w => hidle (m.inWorld w) hm,
    fun payload => terminates_of_step (fun _ => rfl) fun w => hunwind (m.inWorld w) payload hm⟩

/-- A lane ends where what waits below it does: it is closed, or an entry starts and less are left. -/
theorem Settles.lane (h : Settles n frames) (hn : TerminateBelow n) (kind : LaneKind) {m : Machine}
    (hm : m.pending ≤ n) : Terminates ⟨.lane kind, frames, m⟩ := by
  refine terminates_of_step (fun _ => rfl) fun w => ?_
  rcases laneStep_cases kind frames (m.inWorld w) with ⟨-, hstep⟩ | ⟨index, entry, -, hnext, hstep⟩ <;> rw [hstep]
  · exact (h _ (Nat.le_trans (kept_pending.close (m.inWorld w) kind) hm)).1
  · have hstart : ((m.inWorld w).start kind index).pending + 1 = m.pending := Machine.pending_start hnext
    exact hn _ (show ((m.inWorld w).start kind index).pending < n by omega)

theorem Settles.cons_lane (h : Settles n frames) (hn : TerminateBelow n) (kind : LaneKind) :
    Settles n (.lane kind :: frames) :=
  settles_cons (fun _ hm => h.lane hn kind hm) fun m payload hm => (h m hm).2 payload

theorem Settles.drive (h : Settles n frames) (hn : TerminateBelow n) (d : Drive) {m : Machine} (hm : m.pending ≤ n) :
    Terminates ⟨.drive d, frames, m⟩ := by
  cases d with
  | all => exact terminates_of_step (fun _ => rfl) fun _ => (h.cons_lane hn .handlers).lane hn .middleware hm
  | middleware => exact terminates_of_step (fun _ => rfl) fun _ => h.lane hn .middleware hm
  | handlers => exact terminates_of_step (fun _ => rfl) fun _ => h.lane hn .handlers hm

/-- A program that waits for a drive ends if it does once the drive has ended. -/
theorem Settles.cons_resume (h : Settles n frames) {next : Program}
    (hnext : ∀ m : Machine, m.pending ≤ n → Terminates ⟨.program next, frames, m⟩) :
    Settles n (.resume next :: frames) :=
  settles_cons hnext fun m payload hm => (h m hm).2 payload

/-- What an entry that has ended leaves behind ends: its lane goes on or is closed. -/
theorem Settles.settle (h : Settles n frames) (hn : TerminateBelow n) (kind : LaneKind) (index : Nat) (flow : Flow)
    {m : Machine} (hm : m.pending ≤ n) : Terminates (settleStep kind index flow frames m) := by
  have hset := kept_pending.settle (m.report (.finished kind index flow)) kind flow
  have hle : ((m.report (.finished kind index flow)).settle kind flow).pending ≤ n := Nat.le_trans hset hm
  unfold settleStep
  dsimp only
  split
  · exact h.lane hn kind hle
  · exact (h _ (Nat.le_trans (kept_pending.close _ kind) hle)).1

/-- **A program ends**, by induction on what it does: its drives end, and so does what waits below it. -/
theorem Settles.program (h : Settles n frames) (htail : Settles n frames.tail) (hn : TerminateBelow n) (p : Program) :
    ∀ m : Machine, m.pending ≤ n → Terminates ⟨.program p, frames, m⟩ := by
  -- whatever the first step of the program comes to has an end, in every world
  have hfirst : ∀ p : Program, (∀ m : Machine, m.pending ≤ n → Terminates (programStep frames m p)) →
      ∀ m : Machine, m.pending ≤ n → Terminates ⟨.program p, frames, m⟩ :=
    fun _ hp m hm => terminates_of_step (fun _ => rfl) fun w => hp (m.inWorld w) hm
  induction p with
  | finish flow =>
    refine hfirst _ fun m hm => ?_
    cases frames with
    | nil => exact (h m hm).1
    | cons frame frames =>
      cases frame with
      | entry kind index => exact htail.settle hn kind index flow hm
      | _ => exact (h m hm).1
  | panic payload => exact hfirst _ fun m hm => (h m hm).2 payload
  | look next ih => exact hfirst _ fun m hm => ih m.context m hm
  | change c next ih => exact hfirst _ fun m hm => ih _ (Nat.le_trans (kept_pending.apply m c) hm)
  | render r next ih => exact hfirst _ fun m hm => ih _ (Nat.le_trans (kept_pending.render m r) hm)
  | recycle next ih => exact hfirst _ fun m _ => ih _ (Nat.zero_le _)
  | drive d next ih => exact hfirst _ fun m hm => (h.cons_resume ih).drive hn d hm
  | note script action reply next ih => exact hfirst _ fun m hm => ih _ hm
  | log r next ih => exact hfirst _ fun m hm => ih _ hm
  | readFile path next ih => exact hfirst _ fun m hm => ih _ _ hm
  | count counter next ih => exact hfirst _ fun m hm => ih _ _ hm
  | attach list entry next _ ih => exact hfirst _ fun m hm => ih _ hm
  | lengthOf list next ih => exact hfirst _ fun m hm => ih _ m hm

/-- All frames settle, the innermost first. -/
theorem settles (hn : TerminateBelow n) (frames : List Frame) : Settles n frames ∧ Settles n frames.tail := by
  induction frames with
  | nil => exact ⟨settles_nil n, settles_nil n⟩
  | cons frame frames ih =>
    obtain ⟨h, htail⟩ := ih
    refine ⟨?_, h⟩
    cases frame with
    | resume next => exact h.cons_resume (h.program htail hn next)
    | lane kind => exact h.cons_lane hn kind
    | entry kind index => exact settles_cons (fun m hm => (h m hm).1) fun m payload hm => (h m hm).2 payload
    | guard handler =>
      exact settles_cons (fun m hm => (h m hm).1) fun m payload hm =>
        h.program htail hn (handler (.ofPanic payload)) (m.caught (.ofPanic payload)) hm

end Settling

/-- **No thread goes on for ever.** -/
theorem wellFounded_later : WellFounded Later := by
  have hall : ∀ n, ∀ t : Thread, t.machine.pending = n → t.Terminates := by
    intro n
    induction n using Nat.strong_induction_on with
    | _ n ih =>
      intro t ht
      have hn : TerminateBelow n := fun t hlt => ih _ hlt t rfl
      obtain ⟨control, frames, m⟩ := t
      have hm : m.pending ≤ n := Nat.le_of_eq ht
      obtain ⟨h, htail⟩ := settles hn frames
      cases control with
      | program p => exact h.program htail hn p m hm
      | drive d => exact h.drive hn d hm
      | lane kind => exact h.lane hn kind hm
      | idle => exact (h m hm).1
      | unwind payload => exact (h m hm).2 payload
  exact ⟨fun t => hall _ t rfl⟩

/-! ## How many entries are started, and how deep -/

variable {t u : Thread}

/-- The entries underway and those left are never more than they were. -/
theorem SharedSteps.underway_le (h : t.SharedSteps u) :
    u.underway.length + u.machine.pending ≤ t.underway.length + t.machine.pending := by
  induction h with
  | refl => exact Nat.le_refl _
  | @tail v _ _ hs ih =>
    refine Nat.le_trans ?_ ih
    rcases hs.cases with ⟨kind, index, entry, hst⟩ | ⟨hturn, hsuffix⟩
    · have hleft := Machine.pending_start hst.next
      rw [hst.result]
      show v.underway.length + 1 + (v.machine.start kind index).pending ≤ _
      omega
    · exact Nat.add_le_add hsuffix.length_le hturn.pending_le

end Thread

/-- A machine with a chain that is to be driven. -/
def Machine.ofChain (middleware handlers : List Program) (c : Context) (w : World) : Machine :=
  { context := c, middleware := .ofList middleware, handlers := .ofList handlers, world := w }

namespace Machine

variable (middleware handlers : List Program) (c : Context) (w : World)

theorem inOrder_ofChain :
    (ofChain middleware handlers c w).InOrder fun
      | .middleware => middleware
      | .handlers => handlers := by
  intro kind
  refine ⟨0, Nat.zero_le _, rfl, fun _ => ?_⟩
  cases kind <;> exact ⟨rfl, rfl⟩

theorem pending_ofChain : (ofChain middleware handlers c w).pending = middleware.length + handlers.length := rfl

end Machine

namespace Thread

/-- **A chain comes to an end**: whatever its entries drive, and whatever others do to the world in between, no run of
its thread goes on for ever. Alone it ends where the run of the chain does, and any bound that leaves room for the
entries gives that run. On the way no more entries are started than the chain has, and no more are underway. -/
theorem drive_ends (middleware handlers : List Program) (c : Context) (w : World) (d : Drive) :
    let m := Machine.ofChain middleware handlers c w
    let t : Thread := ⟨.drive d, [], m⟩
    (t.Terminates ∧ ∀ run : Nat → Thread, run 0 = t → ∃ i, ¬ (run (i + 1)).Later (run i)) ∧
    (t.Steps (ended [] (driveChain d m)) ∧ (ended [] (driveChain d m)).step = none ∧
      ∀ bound ≥ middleware.length + handlers.length, driveBy (runLane bound) d m = driveChain d m) ∧
    ∀ u, t.SharedSteps u →
      (u.machine.journal.starts .middleware).length + (u.machine.journal.starts .handlers).length ≤
        middleware.length + handlers.length ∧
      u.underway.length ≤ middleware.length + handlers.length := by
  intro m t
  refine ⟨⟨wellFounded_later.apply t, fun run _ => ?_⟩, ⟨steps_drive d [] m, step_ended _, fun bound hb => ?_⟩,
    fun u hu => ⟨?_, ?_⟩⟩
  · have hwf : IsWellFounded Thread Later := ⟨wellFounded_later⟩
    exact WellFounded.not_rel_apply_succ run
  · refine (driveBy_congr (kept_pending.runLane m.pending) (fun kind m' hm' => ?_) d m (Nat.le_refl _)).symm
    exact runLane_bound hb kind m' hm'
  · obtain ⟨i, hi, hmiddleware, -⟩ := hu.inOrder (Machine.inOrder_ofChain middleware handlers c w) .middleware
    obtain ⟨j, hj, hhandlers, -⟩ := hu.inOrder (Machine.inOrder_ofChain middleware handlers c w) .handlers
    rw [hmiddleware, hhandlers, List.length_range, List.length_range]
    exact Nat.add_le_add hi hj
  · have hle : _ ≤ 0 + m.pending := hu.underway_le
    rw [Machine.pending_ofChain] at hle
    omega

/-- Both bounds are reached: here the middleware drives the chain twice, and the handler runs inside it. -/
example :
    let again : Program := .drive .all (.drive .all (.finish .proceed))
    let m := Machine.ofChain [again] [.finish .proceed] {} {}
    ((· >>= step)^[7] (some ⟨.drive .all, [], m⟩)).map underway = some [(.handlers, 0), (.middleware, 0)] := rfl

end Thread

end Switchyard
