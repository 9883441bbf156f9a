import Mathlib.Logic.Relation
import Switchyard.Proofs.Chain.Runs

/-!
# Chains in single steps

A thread is a run that can be stopped anywhere: what it does next, what waits for that to end (`Frame`), and the
machine. `Thread.step` makes one step, without any bound; it starts an entry, does one thing a program wants done,
closes a lane, or takes the frame on top.

- steps are a function, so that a thread ends in one way at most (`Thread.Steps.ended_unique`), and whatever it has
  come to, it ends there still (`Thread.Steps.of_ended`);
- the run of a lane, of a drive and of a program is what their threads come to, whatever waits below them
  (`steps_lane`, `steps_drive`, `steps_run`). So every run of a chain ends, and the states a thread passes are
  the states in between.
-/

namespace Switchyard

/-- What waits for the work above it to end. -/
inductive Frame where
  /-- An entry was started: its flow will be settled, and its lane may go on. -/
  | entry (kind : LaneKind) (index : Nat)
  /-- A program waits for the chain it drives. -/
  | resume (next : Program)
  /-- A lane is to be driven next. -/
  | lane (kind : LaneKind)
  /-- Panics are caught here, and a program is run for them. -/
  | guard (handler : Fault → Program)

/-- What a thread does next. -/
inductive Control where
  | program (p : Program)
  | drive (d : Drive)
  | lane (kind : LaneKind)
  /-- The work above the frames has ended. -/
  | idle
  /-- A panic leaves the frames. -/
  | unwind (payload : Panic)

structure Thread where
  control : Control
  frames : List Frame
  machine : Machine

/-- A caught panic: the chain is stopped, and what was written of the response is dropped. -/
def Machine.caught (m : Machine) (fault : Fault) : Machine :=
  { m.halt with context := m.context.resetResponse }.report (.caught fault)

namespace Thread

/-- An entry ends with a flow. -/
def settleStep (kind : LaneKind) (index : Nat) (flow : Flow) (frames : List Frame) (m : Machine) : Thread :=
  let settled := (m.report (.finished kind index flow)).settle kind flow
  if flow.goesOn then ⟨.lane kind, frames, settled⟩ else ⟨.idle, frames, settled.close kind⟩

/-- One step of a program. The flow of a program that is no entry goes unheard. -/
def programStep (frames : List Frame) (m : Machine) : Program → Thread
  | .finish flow =>
    match frames with
    | .entry kind index :: frames => settleStep kind index flow frames m
    | frames => ⟨.idle, frames, m⟩
  | .panic payload => ⟨.unwind payload, frames, m⟩
  | .look next => ⟨.program (next m.context), frames, m⟩
  | .change c next => ⟨.program next, frames, m.apply c⟩
  | .render r next => ⟨.program next, frames, m.render r⟩
  | .recycle next => ⟨.program next, frames, m.recycle⟩
  | .drive d next => ⟨.drive d, .resume next :: frames, m⟩
  | .note script action reply next => ⟨.program next, frames, m.report (.note script action reply)⟩
  | .log r next => ⟨.program next, frames, m.report (.logged r)⟩
  | .readFile path next => ⟨.program (next (m.world.files.read path)), frames, m.report (.fileRead path)⟩
  | .count counter next =>
    ⟨.program (next (m.world.counted counter)), frames, { m with world := m.world.count counter }⟩
  | .attach list entry next => ⟨.program next, frames, { m with world := m.world.attach list entry }⟩
  | .lengthOf list next => ⟨.program (next (m.world.list list).length), frames, m⟩

/-- One step of a lane: its next entry starts, or it is closed. -/
def laneStep (kind : LaneKind) (frames : List Frame) (m : Machine) : Thread :=
  if m.context.draft.done then ⟨.idle, frames, m.close kind⟩
  else
    match (m.lane kind).next? with
    | none => ⟨.idle, frames, m.close kind⟩
    | some (index, entry) => ⟨.program entry, .entry kind index :: frames, m.start kind index⟩

/-- The frame on top is taken. -/
def idleStep (m : Machine) : Frame → List Frame → Thread
  | .resume next, frames => ⟨.program next, frames, m⟩
  | .lane kind, frames => ⟨.lane kind, frames, m⟩
  | .entry _ _, frames => ⟨.idle, frames, m⟩
  | .guard _, frames => ⟨.idle, frames, m⟩

/-- A panic takes the frame on top away, or is caught by it. -/
def unwindStep (payload : Panic) (m : Machine) : Frame → List Frame → Thread
  | .guard handler, frames => ⟨.program (handler (.ofPanic payload)), frames, m.caught (.ofPanic payload)⟩
  | _, frames => ⟨.unwind payload, frames, m⟩

/-- One step; none once nothing is left to do. -/
def step : Thread → Option Thread
  | ⟨.program p, frames, m⟩ => some (programStep frames m p)
  | ⟨.drive .all, frames, m⟩ => some ⟨.lane .middleware, .lane .handlers :: frames, m⟩
  | ⟨.drive .middleware, frames, m⟩ => some ⟨.lane .middleware, frames, m⟩
  | ⟨.drive .handlers, frames, m⟩ => some ⟨.lane .handlers, frames, m⟩
  | ⟨.lane kind, frames, m⟩ => some (laneStep kind frames m)
  | ⟨.idle, frame :: frames, m⟩ => some (idleStep m frame frames)
  | ⟨.idle, [], _⟩ => none
  | ⟨.unwind payload, frame :: frames, m⟩ => some (unwindStep payload m frame frames)
  | ⟨.unwind _, [], _⟩ => none

/-- Any number of steps. -/
abbrev Steps : Thread → Thread → Prop :=
  Relation.ReflTransGen fun t t' => t.step = some t'

/-- Where a thread is when the work above some frames has ended, or panicked. -/
def ended (frames : List Frame) : EStateM.Result Panic Machine Unit → Thread
  | .ok _ m => ⟨.idle, frames, m⟩
  | .error payload m => ⟨.unwind payload, frames, m⟩

/-- Where a thread is when a program above some frames is about to end, or panicked. -/
def ending (frames : List Frame) : EStateM.Result Panic Machine Flow → Thread
  | .ok flow m => ⟨.program (.finish flow), frames, m⟩
  | .error payload m => ⟨.unwind payload, frames, m⟩

/-! ## Ends -/

theorem step_ended (x : EStateM.Result Panic Machine Unit) : (ended [] x).step = none := by
  cases x <;> rfl

/-- Whatever a thread has come to on its way to an end, it ends there still. -/
theorem Steps.of_ended {t u v : Thread} (hu : Steps t u) (hv : Steps t v) (he : v.step = none) : Steps u v := by
  induction hu using Relation.ReflTransGen.head_induction_on with
  | refl => exact hv
  | head hs _ ih =>
    rcases Relation.ReflTransGen.cases_head hv with rfl | ⟨w, hw, hv'⟩
    · rw [he] at hs; cases hs
    · rw [hs] at hw
      obtain rfl := Option.some.inj hw
      exact ih hv'

/-- A thread ends in one way at most. -/
theorem Steps.ended_unique {t u v : Thread} (hu : Steps t u) (hv : Steps t v) (hu' : u.step = none)
    (hv' : v.step = none) : u = v := by
  rcases Relation.ReflTransGen.cases_head (hu.of_ended hv hv') with rfl | ⟨w, hw, -⟩
  · rfl
  · rw [hu'] at hw; cases hw

/-! ## Steps of a lane -/

/-- A lane is closed where the response is done or no entry is left. -/
theorem laneStep_close {kind : LaneKind} {m : Machine}
    (h : m.context.draft.done = true ∨ (m.lane kind).next? = none) (frames : List Frame) :
    laneStep kind frames m = ⟨.idle, frames, m.close kind⟩ := by
  unfold laneStep
  rcases h with hd | hn
  · rw [if_pos hd]
  · rw [hn]
    split <;> rfl

theorem laneStep_next {kind : LaneKind} {m : Machine} {index : Nat} {entry : Program}
    (hd : m.context.draft.done = false) (hn : (m.lane kind).next? = some (index, entry)) (frames : List Frame) :
    laneStep kind frames m = ⟨.program entry, .entry kind index :: frames, m.start kind index⟩ := by
  rw [laneStep, hd, hn]
  rfl

/-- One step of a lane closes it or starts its next entry. -/
theorem laneStep_cases (kind : LaneKind) (frames : List Frame) (m : Machine) :
    ((m.context.draft.done = true ∨ (m.lane kind).next? = none) ∧
      laneStep kind frames m = ⟨.idle, frames, m.close kind⟩) ∨
    ∃ index entry, m.context.draft.done = false ∧ (m.lane kind).next? = some (index, entry) ∧
      laneStep kind frames m = ⟨.program entry, .entry kind index :: frames, m.start kind index⟩ := by
  cases hd : m.context.draft.done with
  | true => exact .inl ⟨.inl rfl, laneStep_close (.inl hd) frames⟩
  | false =>
    cases hn : (m.lane kind).next? with
    | none => exact .inl ⟨.inr rfl, laneStep_close (.inr hn) frames⟩
    | some next => exact .inr ⟨next.1, next.2, rfl, rfl, laneStep_next hd hn frames⟩

/-! ## What every step keeps -/

theorem settleStep_kept {R : Machine → Machine → Prop} (hR : Kept R) (kind : LaneKind) (index : Nat) (flow : Flow)
    (frames : List Frame) (m : Machine) : R m (settleStep kind index flow frames m).machine := by
  have hs := hR.trans (hR.report m (.finished kind index flow)) (hR.settle _ kind flow)
  unfold settleStep
  dsimp only
  split
  · exact hs
  · exact hR.trans hs (hR.close _ kind)

theorem programStep_kept {R : Machine → Machine → Prop} (hR : Kept R) (frames : List Frame) (m : Machine)
    (p : Program) : R m (programStep frames m p).machine := by
  cases p with
  | finish flow =>
    cases frames with
    | nil => exact hR.refl m
    | cons frame frames =>
      cases frame with
      | entry kind index => exact settleStep_kept hR kind index flow frames m
      | _ => exact hR.refl m
  | panic payload => exact hR.refl m
  | look next => exact hR.refl m
  | change c next => exact hR.apply m c
  | render r next => exact hR.render m r
  | recycle next => exact hR.recycle m
  | drive d next => exact hR.refl m
  | note script action reply next => exact hR.report m _
  | log r next => exact hR.report m _
  | readFile path next => exact hR.report m _
  | count counter next => exact hR.world m (m.world.count counter) rfl
  | attach list entry next => exact hR.world m (m.world.attach list entry) rfl
  | lengthOf list next => exact hR.refl m

theorem laneStep_kept {R : Machine → Machine → Prop} (hR : Kept R) (kind : LaneKind) (frames : List Frame)
    (m : Machine) : R m (laneStep kind frames m).machine := by
  rcases laneStep_cases kind frames m with ⟨-, hs⟩ | ⟨index, entry, -, hn, hs⟩
  · rw [hs]
    exact hR.close m kind
  · rw [hs]
    exact hR.start hn

/-- A step keeps what each change keeps, and what a caught panic keeps. -/
theorem step_kept {R : Machine → Machine → Prop} (hR : Kept R) (hc : ∀ m fault, R m (m.caught fault)) {t u : Thread}
    (h : t.step = some u) : R t.machine u.machine := by
  obtain ⟨control, frames, m⟩ := t
  cases control with
  | program p => obtain rfl := Option.some.inj h; exact programStep_kept hR frames m p
  | drive d => cases d <;> (obtain rfl := Option.some.inj h; exact hR.refl m)
  | lane kind => obtain rfl := Option.some.inj h; exact laneStep_kept hR kind frames m
  | idle =>
    cases frames with
    | nil => cases h
    | cons frame frames =>
      obtain rfl := Option.some.inj h
      cases frame <;> exact hR.refl m
  | unwind payload =>
    cases frames with
    | nil => cases h
    | cons frame frames =>
      obtain rfl := Option.some.inj h
      cases frame with
      | guard handler => exact hc m _
      | _ => exact hR.refl m

/-! ## Runs are what threads come to -/

/-- The thread of a program comes to where its run ends, if that holds of the drives in it. -/
theorem steps_program {drive : Drive → Run Unit} {bound : Nat}
    (hk : ∀ d m, (Run.after (drive d) m).pending ≤ m.pending)
    (hd : ∀ d frames m, m.pending ≤ bound → Steps ⟨.drive d, frames, m⟩ (ended frames (drive d m))) (p : Program) :
    ∀ frames m, m.pending ≤ bound → Steps ⟨.program p, frames, m⟩ (ending frames (p.run drive m)) := by
  induction p with
  | finish flow => exact fun _ _ _ => .refl
  | panic payload => exact fun _ _ _ => .head rfl .refl
  | look next ih => exact fun frames m h => .head rfl (ih m.context frames m h)
  | change c next ih => exact fun frames m h => .head rfl (ih frames _ (by rwa [m.pending_apply]))
  | render r next ih => exact fun frames m h => .head rfl (ih frames _ (by rwa [m.pending_render]))
  | recycle next ih => exact fun frames m _ => .head rfl (ih frames _ (Nat.zero_le _))
  | drive d next ih =>
    intro frames m h
    have hle := hk d m
    have hdrive := hd d (.resume next :: frames) m h
    rw [Program.run_drive]
    refine .head rfl (hdrive.trans ?_)
    cases hr : drive d m with
    | error payload m' => exact .head rfl .refl
    | ok u m' =>
      rw [Run.after_ok hr] at hle
      exact .head rfl (ih frames m' (Nat.le_trans hle h))
  | note script action reply next ih => exact fun frames m h => .head rfl (ih frames _ h)
  | log r next ih => exact fun frames m h => .head rfl (ih frames _ h)
  | readFile path next ih => exact fun frames m h => .head rfl (ih _ frames _ h)
  | count counter next ih => exact fun frames m h => .head rfl (ih _ frames _ h)
  | attach list entry next _ ih => exact fun frames m h => .head rfl (ih frames _ h)
  | lengthOf list next ih => exact fun frames m h => .head rfl (ih _ frames m h)

theorem steps_driveBy {lane : LaneKind → Run Unit} {bound : Nat}
    (hk : ∀ kind m, (Run.after (lane kind) m).pending ≤ m.pending)
    (hl : ∀ kind frames m, m.pending ≤ bound → Steps ⟨.lane kind, frames, m⟩ (ended frames (lane kind m))) :
    ∀ (d : Drive) frames m, m.pending ≤ bound → Steps ⟨.drive d, frames, m⟩ (ended frames (driveBy lane d m))
  | .middleware, frames, m, h => .head rfl (hl .middleware frames m h)
  | .handlers, frames, m, h => .head rfl (hl .handlers frames m h)
  | .all, frames, m, h => by
    have hle := hk .middleware m
    rw [driveBy_all]
    refine .head rfl ((hl .middleware (.lane .handlers :: frames) m h).trans ?_)
    cases hr : lane .middleware m with
    | error payload m' => exact .head rfl .refl
    | ok u m' =>
      rw [Run.after_ok hr] at hle
      exact .head rfl (hl .handlers frames m' (Nat.le_trans hle h))

/-- **The thread of a lane comes to where its run ends.** -/
theorem steps_lane : ∀ (bound : Nat) (kind : LaneKind) (frames : List Frame) (m : Machine), m.pending ≤ bound →
    Steps ⟨.lane kind, frames, m⟩ (ended frames (runLane bound kind m)) := by
  intro bound
  induction bound with
  | zero =>
    intro kind frames m h
    have hn := Machine.next?_of_pending (Nat.le_zero.1 h) kind
    exact .head (congrArg some (laneStep_close (.inr hn) frames)) .refl
  | succ bound ih =>
    intro kind frames m h
    cases hd : m.context.draft.done with
    | true =>
      rw [runLane_done _ hd]
      exact .head (congrArg some (laneStep_close (.inl hd) frames)) .refl
    | false =>
      cases hn : (m.lane kind).next? with
      | none =>
        rw [runLane_empty _ hn]
        exact .head (congrArg some (laneStep_close (.inr hn) frames)) .refl
      | some next =>
        obtain ⟨index, entry⟩ := next
        have hp := Machine.pending_start hn
        have hk := kept_pending.driveBy (kept_pending.runLane bound)
        have hle := kept_pending.run hk entry (m.start kind index)
        have hrun := steps_program hk (steps_driveBy (kept_pending.runLane bound) ih) entry
          (.entry kind index :: frames) (m.start kind index) (by omega)
        rw [runLane_next hd hn]
        refine .head (congrArg some (laneStep_next hd hn frames)) (hrun.trans ?_)
        cases hr : entry.run (driveBy (runLane bound)) (m.start kind index) with
        | error payload m' => exact .head rfl .refl
        | ok flow m' =>
          rw [Run.after_ok hr] at hle
          have hset := kept_pending.settle (m'.report (.finished kind index flow)) kind flow
          have hle' := Nat.le_trans hset hle
          -- the flow is settled in one step, after which the lane goes on or is closed
          refine .head (show _ = some (settleStep kind index flow frames m') from rfl) ?_
          unfold settleStep
          dsimp only
          cases flow.goesOn with
          | true => exact ih kind frames _ (by omega)
          | false => exact .refl

theorem steps_drive (d : Drive) (frames : List Frame) (m : Machine) :
    Steps ⟨.drive d, frames, m⟩ (ended frames (driveChain d m)) :=
  steps_driveBy (kept_pending.runLane m.pending) (steps_lane m.pending) d frames m (Nat.le_refl _)

/-- The thread of a program comes to where its run ends. -/
theorem steps_run (p : Program) (frames : List Frame) (m : Machine) :
    Steps ⟨.program p, frames, m⟩ (ending frames (p.run driveChain m)) :=
  steps_program (fun _ m => kept_pending.driveBy (kept_pending.runLane m.pending) _ m)
    (fun d frames m _ => steps_drive d frames m) p frames m (Nat.le_refl _)

/-- A chain without middleware starts its first handler. -/
theorem steps_first_handler {m : Machine} {entry : Program} {rest : List Program}
    (hdone : m.context.draft.done = false) (hmiddleware : m.lane .middleware = .ofList [])
    (hhandlers : m.lane .handlers = .ofList (entry :: rest)) (frames : List Frame) :
    Steps ⟨.drive .all, frames, m⟩
      ⟨.program entry, .entry .handlers 0 :: frames, (m.close .middleware).start .handlers 0⟩ := by
  have hnone : (m.lane .middleware).next? = none := by
    rw [hmiddleware]
    rfl
  have hnext : ((m.close .middleware).lane .handlers).next? = some (0, entry) := by
    rw [show (m.close .middleware).lane .handlers = m.lane .handlers from rfl, hhandlers]
    rfl
  have hclose := laneStep_close (.inr hnone) (.lane .handlers :: frames)
  have hstart := laneStep_next (m := m.close .middleware) hdone hnext frames
  exact .head rfl (.head (congrArg some hclose) (.head rfl (.single (congrArg some hstart))))

end Thread

end Switchyard
