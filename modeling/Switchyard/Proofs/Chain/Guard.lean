import Switchyard.Proofs.Chain.Deeds
import Switchyard.Proofs.Chain.Stack

/-!
# Guards

A panic takes away the frames above a guard (`steps_unwind`) and is caught there. A thread with one guard at the bottom
of its frames has not caught any panic; it stays such a thread until its work has ended or the guard catches a panic
(`Guarded.step`), after which there is no guard any more. From when a program panics until it is caught, the machine
stays as it is (`Guarded.step_doomed`).
-/

namespace Switchyard

namespace Machine

variable {m m' : Machine} {allowed : Deed → Prop}

theorem faults_report (m : Machine) (e : Event) : (m.report e).journal.faults = m.journal.faults ++ e.fault?.toList :=
  filterMap_report _ m e

theorem Acts.faults (h : m.Acts allowed m') : m'.journal.faults = m.journal.faults :=
  h.filterMap fun _ he => by cases he <;> rfl

theorem faults_start (m : Machine) (kind : LaneKind) (index : Nat) :
    (m.start kind index).journal.faults = m.journal.faults :=
  (filterMap_start _ m kind index).trans (List.append_nil _)

theorem faults_conclude (m : Machine) (kind : LaneKind) (index : Nat) (flow : Flow) :
    (m.conclude kind index flow).journal.faults = m.journal.faults :=
  (filterMap_conclude (fun _ he => by cases he <;> rfl) m kind index flow).trans (List.append_nil _)

end Machine

theorem Program.within_true (p : Program) : p.Within fun _ => True := by
  induction p with
  | finish flow => exact trivial
  | panic payload => exact trivial
  | look next ih => exact ih
  | note script action reply next ih => exact ih
  | log r next ih => exact ih
  | _ => exact ⟨trivial, ‹_›⟩

namespace Thread

variable {t u : Thread} {handler : Fault → Program}

theorem within_true (t : Thread) : t.Within fun _ => True where
  control := by
    cases hc : t.control with
    | program p => exact p.within_true
    | _ => exact trivial
  frames frame _ := by
    cases frame with
    | resume next => exact next.within_true
    | _ => exact trivial
  entries _ p _ := p.within_true

/-- Only a catch tells of a fault. -/
theorem faults_step (hs : t.step = some u) :
    u.machine.journal.faults = t.machine.journal.faults ∨ t.Catches u := by
  rcases t.within_true.step hs with ⟨-, hcases⟩ | hcatch
  · left
    rcases hcases with ⟨kind, index, entry, hst⟩ | ⟨kind, index, flow, hst⟩ | hst
    · rw [hst.result]
      exact t.machine.faults_start kind index
    · rw [hst.machine]
      exact t.machine.faults_conclude kind index flow
    · exact hst.faults
  · exact .inr hcatch

/-! ## Panics leave the frames -/

theorem steps_unwind (payload : Panic) {above : List Frame} (h : ∀ frame ∈ above, ¬ frame.IsGuard)
    (below : List Frame) (m : Machine) : Steps ⟨.unwind payload, above ++ below, m⟩ ⟨.unwind payload, below, m⟩ := by
  induction above with
  | nil => exact .refl
  | cons frame above ih =>
    obtain ⟨hframe, habove⟩ := List.forall_mem_cons.1 h
    refine .head ?_ (ih habove)
    cases frame with
    | guard handler => exact absurd trivial hframe
    | _ => rfl

/-- No guard waits. -/
def Unguarded (t : Thread) : Prop :=
  ∀ frame ∈ t.frames, ¬ frame.IsGuard

theorem Unguarded.step (h : t.Unguarded) (hs : t.step = some u) : u.Unguarded := by
  rcases step_frames hs with heq | ⟨frame, hframe, heq⟩ | ⟨frame, heq, -⟩
  · exact fun f hf => h f (heq ▸ hf)
  · intro f hf
    rcases List.mem_cons.1 (heq ▸ hf) with rfl | hf
    · exact hframe
    · exact h f hf
  · exact fun f hf => h f (heq ▸ List.mem_cons_of_mem _ hf)

theorem Unguarded.not_catches (h : t.Unguarded) : ¬ t.Catches u := by
  rintro ⟨payload, handler, frames, -, hframes, -⟩
  exact h (.guard handler) (hframes ▸ List.mem_cons_self) trivial

/-! ## One guard at the bottom -/

/-- The only guard waits at the bottom, and has caught nothing. -/
structure Guarded (handler : Fault → Program) (t : Thread) : Prop where
  frames : ∃ above, t.frames = above ++ [.guard handler] ∧ ∀ frame ∈ above, ¬ frame.IsGuard
  faults : t.machine.journal.faults = []

/-- The work is done, and no panic was caught. -/
structure Returned (t : Thread) : Prop where
  control : t.control = .idle
  frames : t.frames = []
  faults : t.machine.journal.faults = []

theorem Returned.sharedStep (h : t.Returned) (hs : t.SharedStep u) : u.Returned := by
  cases hs with
  | others w => exact ⟨h.control, h.frames, h.faults⟩
  | own hs =>
    obtain ⟨control, frames, m⟩ := t
    obtain ⟨hcontrol, hframes, -⟩ := h
    obtain rfl : control = .idle := hcontrol
    obtain rfl : frames = [] := hframes
    cases hs

/-- The guard of a thread is the one that catches its panics. -/
theorem Guarded.catches (h : t.Guarded handler) (hc : t.Catches u) : ∃ payload, t.control = .unwind payload ∧
    u = ⟨.program (handler (.ofPanic payload)), [], t.machine.caught (.ofPanic payload)⟩ := by
  obtain ⟨payload, other, frames, hcontrol, hframes, rfl⟩ := hc
  obtain ⟨above, habove, hguards⟩ := h.frames
  rw [hframes] at habove
  cases above with
  | nil =>
    obtain ⟨hother, rfl⟩ := List.cons.inj habove
    cases hother
    exact ⟨payload, hcontrol, rfl⟩
  | cons frame above =>
    obtain ⟨rfl, -⟩ := List.cons.inj habove
    exact absurd trivial (hguards _ List.mem_cons_self)

/-- **A thread under a guard goes on**, unless its work has ended or the guard has caught a panic. -/
theorem Guarded.step (h : t.Guarded handler) (hs : t.step = some u) :
    u.Guarded handler ∨ u.Returned ∨ t.Catches u := by
  obtain ⟨above, hframes, hguards⟩ := h.frames
  rcases faults_step hs with hsame | hcatch
  · have hfaults : u.machine.journal.faults = [] := hsame.trans h.faults
    rcases step_frames hs with heq | ⟨frame, hframe, heq⟩ | ⟨frame, heq, hpop⟩
    · exact .inl ⟨⟨above, heq.trans hframes, hguards⟩, hfaults⟩
    · refine .inl ⟨⟨frame :: above, heq.trans (hframes ▸ rfl), ?_⟩, hfaults⟩
      exact List.forall_mem_cons.2 ⟨hframe, hguards⟩
    · rw [hframes] at heq
      cases above with
      | cons frame above =>
        obtain ⟨-, heq⟩ := List.cons.inj heq
        exact .inl ⟨⟨above, heq.symm, (List.forall_mem_cons.1 hguards).2⟩, hfaults⟩
      | nil =>
        -- the guard goes
        obtain ⟨control, frames, m⟩ := t
        obtain rfl : frames = [.guard handler] := hframes
        obtain ⟨rfl, -⟩ := List.cons.inj heq
        rcases hpop trivial with hidle | ⟨payload, hunwind⟩
        · obtain rfl : control = .idle := hidle
          obtain rfl := Option.some.inj hs
          exact .inr (.inl ⟨rfl, rfl, hfaults⟩)
        · obtain rfl : control = .unwind payload := hunwind
          obtain rfl := Option.some.inj hs
          exact .inr (.inr ⟨payload, handler, [], rfl, rfl, rfl⟩)
  · exact .inr (.inr hcatch)

theorem Guarded.inWorld (h : t.Guarded handler) (w : World) : (t.inWorld w).Guarded handler :=
  ⟨h.frames, h.faults⟩

/-! ## A panic on its way -/

/-- A program panics, or its panic is leaving the frames. -/
def Doomed (t : Thread) (payload : Panic) : Prop :=
  t.control = .program (.panic payload) ∨ t.control = .unwind payload

/-- **Until it is caught, a panic leaves the machine as it is.** -/
theorem Guarded.step_doomed (h : t.Guarded handler) {payload : Panic} (hd : t.Doomed payload) (hs : t.step = some u) :
    (u.Guarded handler ∧ u.Doomed payload ∧ u.machine = t.machine) ∨ t.Catches u := by
  have hmachine : (u.Doomed payload ∧ u.machine = t.machine) ∨ t.Catches u := by
    obtain ⟨control, frames, m⟩ := t
    rcases hd with hc | hc
    · obtain rfl : control = .program (.panic payload) := hc
      obtain rfl := Option.some.inj hs
      exact .inl ⟨.inr rfl, rfl⟩
    · obtain rfl : control = .unwind payload := hc
      cases frames with
      | nil => cases hs
      | cons frame frames =>
        obtain rfl := Option.some.inj hs
        cases frame with
        | guard other => exact .inr ⟨payload, other, frames, rfl, rfl, rfl⟩
        | _ => exact .inl ⟨.inr rfl, rfl⟩
  rcases hmachine with ⟨hdoomed, hmachine⟩ | hcatch
  · rcases h.step hs with hu | hreturned | hcatch
    · exact .inl ⟨hu, hdoomed, hmachine⟩
    · rcases hdoomed with hc | hc <;> exact absurd (hc.symm.trans hreturned.control) nofun
    · exact .inr hcatch
  · exact .inr hcatch

/-- A panic under a guard is caught. -/
theorem Guarded.steps_catch (h : t.Guarded handler) {payload : Panic} (hd : t.Doomed payload) :
    ∃ v, t.Steps v ∧
      v.Catches ⟨.program (handler (.ofPanic payload)), [], t.machine.caught (.ofPanic payload)⟩ := by
  obtain ⟨control, frames, m⟩ := t
  obtain ⟨above, hframes, hguards⟩ := h.frames
  obtain rfl : frames = above ++ [.guard handler] := hframes
  have hunwind := steps_unwind payload hguards [.guard handler] m
  refine ⟨⟨.unwind payload, [.guard handler], m⟩, ?_, payload, handler, [], rfl, rfl, rfl⟩
  rcases hd with hc | hc
  · obtain rfl : control = .program (.panic payload) := hc
    exact .head rfl hunwind
  · obtain rfl : control = .unwind payload := hc
    exact hunwind

end Thread

end Switchyard
