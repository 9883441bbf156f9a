import Mathlib.Data.List.Chain
import Switchyard.Proofs.Chain.Order

/-!
# Drives nest

The frames of a thread are in order: an entry is found below the rest of a program, or on top while a program runs or
a panic leaves (`Thread.Orderly`). So the frames below a lane that is driven stay until the lane ends, which leaves it
closed (`OnLane.step`), and a drive of the whole chain that has ended has closed both lanes
(`SharedSteps.closed_of_returned`).
-/

namespace Switchyard

def Frame.IsEntry : Frame → Prop
  | .entry _ _ => True
  | _ => False

def Frame.IsResume : Frame → Prop
  | .resume _ => True
  | _ => False

/-- Only the rest of a program lies right above an entry. -/
def Frame.Stacked (above below : Frame) : Prop :=
  below.IsEntry → above.IsResume

def Frame.IsGuard : Frame → Prop
  | .guard _ => True
  | _ => False

/-- Whether the frame on top may be an entry. -/
def Control.OnEntry : Control → Prop
  | .program _ => True
  | .unwind _ => True
  | _ => False

namespace Thread

/-- The frames of a thread are in order. -/
structure Orderly (t : Thread) : Prop where
  frames : t.frames.IsChain Frame.Stacked
  top : ¬ t.control.OnEntry → ∀ frame ∈ t.frames.head?, ¬ frame.IsEntry

/-- A panic leaves the frames of a thread. -/
def Unwinding (t : Thread) : Prop :=
  ∃ payload, t.control = .unwind payload

variable {t u : Thread}

/-! ## One step on the frames -/

/-- A step leaves the frames as they are, or one frame comes or goes. No guard comes, and none goes but where the work
above it has ended or panicked. -/
theorem step_frames (h : t.step = some u) :
    u.frames = t.frames ∨ (∃ frame, ¬ frame.IsGuard ∧ u.frames = frame :: t.frames) ∨
      ∃ frame, t.frames = frame :: u.frames ∧ (frame.IsGuard → t.control = .idle ∨ t.Unwinding) := by
  obtain ⟨control, frames, m⟩ := t
  cases control with
  | program p =>
    obtain rfl := Option.some.inj h
    cases p with
    | finish flow =>
      cases frames with
      | nil => exact .inl rfl
      | cons frame frames =>
        cases frame with
        | entry kind index => cases flow <;> exact .inr (.inr ⟨_, rfl, False.elim⟩)
        | _ => exact .inl rfl
    | drive d next => exact .inr (.inl ⟨_, id, rfl⟩)
    | _ => exact .inl rfl
  | drive d =>
    cases d <;> obtain rfl := Option.some.inj h
    · exact .inr (.inl ⟨_, id, rfl⟩)
    · exact .inl rfl
    · exact .inl rfl
  | lane kind =>
    obtain rfl : laneStep kind frames m = u := Option.some.inj h
    rcases laneStep_cases kind frames m with ⟨-, hs⟩ | ⟨index, entry, -, -, hs⟩ <;> rw [hs]
    · exact .inl rfl
    · exact .inr (.inl ⟨_, id, rfl⟩)
  | idle =>
    cases frames with
    | nil => cases h
    | cons frame frames =>
      obtain rfl := Option.some.inj h
      cases frame <;> exact .inr (.inr ⟨_, rfl, fun _ => .inl rfl⟩)
  | unwind payload =>
    cases frames with
    | nil => cases h
    | cons frame frames =>
      obtain rfl := Option.some.inj h
      cases frame <;> exact .inr (.inr ⟨_, rfl, fun _ => .inr ⟨payload, rfl⟩⟩)

theorem orderly_of_onEntry {control : Control} {frames : List Frame} {m : Machine}
    (hf : frames.IsChain Frame.Stacked) (hc : control.OnEntry) : Orderly ⟨control, frames, m⟩ :=
  ⟨hf, fun h => absurd hc h⟩

/-- No entry lies below a frame that is not the rest of a program. -/
theorem orderly_below {control : Control} {frame : Frame} {frames : List Frame} {m : Machine}
    (hf : (frame :: frames).IsChain Frame.Stacked) (hr : ¬ frame.IsResume) : Orderly ⟨control, frames, m⟩ :=
  ⟨(List.isChain_cons.1 hf).2, fun _ below hb he => hr ((List.isChain_cons.1 hf).1 below hb he)⟩

theorem programStep_orderly {frames : List Frame} (hf : frames.IsChain Frame.Stacked) (m : Machine) (p : Program) :
    (programStep frames m p).Orderly := by
  cases p with
  | finish flow =>
    cases frames with
    | nil => exact ⟨hf, fun _ _ h => by cases h⟩
    | cons frame frames =>
      cases frame with
      | entry kind index => cases flow <;> exact orderly_below hf id
      | _ => exact ⟨hf, fun _ _ h => by cases h; exact id⟩
  | drive d next => exact ⟨List.isChain_cons.2 ⟨fun _ _ _ => trivial, hf⟩, fun _ _ h => by cases h; exact id⟩
  | _ => exact orderly_of_onEntry hf trivial

/-- Any frame may be put on top of one that is no entry. -/
theorem Orderly.cons {control : Control} {frames : List Frame} {m : Machine} (h : Orderly ⟨control, frames, m⟩)
    (hc : ¬ control.OnEntry) (frame : Frame) : (frame :: frames).IsChain Frame.Stacked :=
  List.isChain_cons.2 ⟨fun below hb he => absurd he (h.top hc below hb), h.frames⟩

/-- **Every step keeps the frames in order.** -/
theorem Orderly.step (h : t.Orderly) (hs : t.step = some u) : u.Orderly := by
  obtain ⟨control, frames, m⟩ := t
  have hcons := h.cons
  obtain ⟨hf, htop⟩ := h
  cases control with
  | program p =>
    obtain rfl := Option.some.inj hs
    exact programStep_orderly hf m p
  | drive d =>
    cases d <;> obtain rfl := Option.some.inj hs
    · refine ⟨hcons id _, fun _ _ h => ?_⟩
      cases h
      exact id
    · exact ⟨hf, fun _ => htop id⟩
    · exact ⟨hf, fun _ => htop id⟩
  | lane kind =>
    obtain rfl : laneStep kind frames m = u := Option.some.inj hs
    rcases laneStep_cases kind frames m with ⟨-, hstep⟩ | ⟨index, entry, -, -, hstep⟩ <;> rw [hstep]
    · exact ⟨hf, fun _ => htop id⟩
    · exact orderly_of_onEntry (hcons id _) trivial
  | idle =>
    cases frames with
    | nil => cases hs
    | cons frame frames =>
      obtain rfl := Option.some.inj hs
      cases frame with
      | resume next => exact orderly_of_onEntry (List.isChain_cons.1 hf).2 trivial
      | lane kind => exact orderly_below hf id
      | entry kind index => exact absurd trivial (htop id _ rfl)
      | guard handler => exact orderly_below hf id
  | unwind payload =>
    cases frames with
    | nil => cases hs
    | cons frame frames =>
      obtain rfl := Option.some.inj hs
      cases frame <;> exact orderly_of_onEntry (List.isChain_cons.1 hf).2 trivial

theorem Orderly.inWorld (h : t.Orderly) (w : World) : (t.inWorld w).Orderly :=
  ⟨h.frames, h.top⟩

/-! ## Driving a lane -/

/-- A lane is being driven above some frames. -/
def OnLane (kind : LaneKind) (base : List Frame) (t : Thread) : Prop :=
  (t.control = .lane kind ∧ t.frames = base) ∨ ∃ index above, t.frames = above ++ .entry kind index :: base

/-- An entry on top that is done with is settled, or a panic takes it away. -/
theorem onLane_top {kind : LaneKind} {index : Nat} {base : List Frame} (h : t.Orderly)
    (ht : t.frames = .entry kind index :: base) (hs : t.step = some u) :
    OnLane kind base u ∨ (u.control = .idle ∧ u.frames = base ∧ (u.machine.lane kind).isOpen = false) ∨
      u.Unwinding := by
  obtain ⟨control, frames, m⟩ := t
  obtain rfl : frames = .entry kind index :: base := ht
  have hidle : ¬ control.OnEntry → False := fun hc => h.top hc _ rfl trivial
  cases control with
  | program p =>
    obtain rfl := Option.some.inj hs
    cases p with
    | finish flow =>
      cases flow with
      | proceed => exact .inl (.inl ⟨rfl, rfl⟩)
      | respond r => exact .inr (.inl ⟨rfl, rfl, Machine.isOpen_close _ kind⟩)
      | stop => exact .inr (.inl ⟨rfl, rfl, Machine.isOpen_close _ kind⟩)
    | panic payload => exact .inr (.inr ⟨payload, rfl⟩)
    | drive d next => exact .inl (.inr ⟨index, [.resume next], rfl⟩)
    | _ => exact .inl (.inr ⟨index, [], rfl⟩)
  | unwind payload =>
    obtain rfl := Option.some.inj hs
    exact .inr (.inr ⟨payload, rfl⟩)
  | _ => exact (hidle id).elim

/-- **A lane is driven until it is closed**, or a panic leaves it. -/
theorem OnLane.step {kind : LaneKind} {base : List Frame} (h : t.Orderly) (ht : OnLane kind base t)
    (hs : t.step = some u) :
    OnLane kind base u ∨ (u.control = .idle ∧ u.frames = base ∧ (u.machine.lane kind).isOpen = false) ∨
      u.Unwinding := by
  rcases ht with ⟨hc, hf⟩ | ⟨index, above, hf⟩
  · obtain ⟨control, frames, m⟩ := t
    obtain rfl : control = .lane kind := hc
    obtain rfl : frames = base := hf
    obtain rfl : laneStep kind frames m = u := Option.some.inj hs
    rcases laneStep_cases kind frames m with ⟨-, hstep⟩ | ⟨index, entry, -, -, hstep⟩ <;> rw [hstep]
    · exact .inr (.inl ⟨rfl, rfl, m.isOpen_close kind⟩)
    · exact .inl (.inr ⟨index, [], rfl⟩)
  · cases above with
    | nil => exact onLane_top h hf hs
    | cons frame above =>
      left
      right
      rcases step_frames hs with heq | ⟨new, -, heq⟩ | ⟨old, heq, -⟩
      · exact ⟨index, frame :: above, heq.trans hf⟩
      · exact ⟨index, new :: frame :: above, by rw [heq, hf]; rfl⟩
      · rw [hf] at heq
        exact ⟨index, above, (List.cons.inj heq).2.symm⟩

/-! ## Driving the whole chain -/

/-- A drive of the whole chain above some frames, which either goes on, or has closed both lanes, or was left by a
panic. -/
inductive Driving (base : List Frame) (t : Thread) : Prop where
  | begun (hc : t.control = .drive .all) (hf : t.frames = base)
  | middleware (h : OnLane .middleware (.lane .handlers :: base) t)
  | between (hc : t.control = .idle) (hf : t.frames = .lane .handlers :: base)
    (hm : (t.machine.lane .middleware).isOpen = false)
  | handlers (h : OnLane .handlers base t) (hm : (t.machine.lane .middleware).isOpen = false)
  | finished (h : t.machine.Closed)
  | left (h : t.Unwinding)

/-- A lane that is closed before a step is closed after it. -/
theorem closed_step {kind : LaneKind} (hs : t.step = some u) (h : (t.machine.lane kind).isOpen = false) :
    (u.machine.lane kind).isOpen = false := by
  rcases step_cases hs with ⟨k, index, entry, hst⟩ | ⟨hturn, -⟩
  · rw [hst.result]
    show ((t.machine.start k index).lane kind).isOpen = false
    rw [Machine.lane_start]
    split <;> exact h
  · exact hturn.closed h

theorem Driving.step {base : List Frame} (h : t.Orderly) (ht : Driving base t) (hs : t.step = some u) :
    Driving base u := by
  cases ht with
  | begun hc hf =>
    obtain ⟨control, frames, m⟩ := t
    obtain rfl : control = .drive .all := hc
    obtain rfl : frames = base := hf
    obtain rfl := Option.some.inj hs
    exact .middleware (.inl ⟨rfl, rfl⟩)
  | middleware hon =>
    rcases hon.step h hs with hon | ⟨hc, hf, hm⟩ | hl
    · exact .middleware hon
    · exact .between hc hf hm
    · exact .left hl
  | between hc hf hm =>
    obtain ⟨control, frames, m⟩ := t
    obtain rfl : control = .idle := hc
    obtain rfl : frames = .lane .handlers :: base := hf
    obtain rfl := Option.some.inj hs
    exact .handlers (.inl ⟨rfl, rfl⟩) hm
  | handlers hon hm =>
    have hm' := closed_step hs hm
    rcases hon.step h hs with hon | ⟨-, -, hh⟩ | hl
    · exact .handlers hon hm'
    · exact .finished (.of_lanes hm' hh)
    · exact .left hl
  | finished hclosed => exact .finished fun kind => closed_step hs (hclosed kind)
  | left hl =>
    obtain ⟨control, frames, m⟩ := t
    obtain ⟨payload, rfl⟩ := hl
    cases frames with
    | nil => cases hs
    | cons frame frames =>
      obtain rfl := Option.some.inj hs
      cases frame with
      | guard handler => exact .finished (Machine.isOpen_halt m)
      | _ => exact .left ⟨payload, rfl⟩

theorem Driving.inWorld {base : List Frame} (h : Driving base t) (w : World) : Driving base (t.inWorld w) := by
  have hlane : ∀ kind, (t.inWorld w).machine.lane kind = t.machine.lane kind := fun kind => by cases kind <;> rfl
  cases h with
  | begun hc hf => exact .begun hc hf
  | middleware hon => exact .middleware hon
  | between hc hf hm => exact .between hc hf (by rw [hlane, hm])
  | handlers hon hm => exact .handlers hon (by rw [hlane, hm])
  | finished hclosed => exact .finished fun kind => by rw [hlane, hclosed]
  | left hl => exact .left hl

theorem SharedSteps.orderly (h : t.SharedSteps u) (ht : t.Orderly) : u.Orderly := by
  induction h with
  | refl => exact ht
  | tail _ hs ih =>
    cases hs with
    | own hs => exact ih.step hs
    | others w => exact ih.inWorld w

/-- **A drive of the whole chain that has returned leaves both lanes closed.** -/
theorem SharedSteps.closed_of_returned {base : List Frame} {m m' : Machine} (ho : Orderly ⟨.drive .all, base, m⟩)
    (h : SharedSteps ⟨.drive .all, base, m⟩ ⟨.idle, base, m'⟩) : m'.Closed := by
  have hdriving : ∀ {v}, SharedSteps ⟨.drive .all, base, m⟩ v → Driving base v := by
    intro v hv
    induction hv with
    | refl => exact .begun rfl rfl
    | tail hsteps hs ih =>
      cases hs with
      | own hs => exact ih.step (SharedSteps.orderly hsteps ho) hs
      | others w => exact ih.inWorld w
  have hlonger : ∀ (above : List Frame) (frame : Frame), base ≠ above ++ frame :: base := fun above frame he => by
    have := congrArg List.length he
    simp at this
    omega
  cases hdriving h with
  | begun hc => cases hc
  | middleware hon =>
    rcases hon with ⟨hc, -⟩ | ⟨index, above, hf⟩
    · cases hc
    · exact absurd (hf.trans (by simp)) (hlonger (above ++ [.entry .middleware index]) (.lane .handlers))
  | between hc hf => exact absurd hf (hlonger [] _)
  | handlers hon =>
    rcases hon with ⟨hc, -⟩ | ⟨index, above, hf⟩
    · cases hc
    · exact absurd hf (hlonger above _)
  | finished hclosed => exact hclosed
  | left hl =>
    obtain ⟨payload, hc⟩ := hl
    cases hc

end Thread

end Switchyard
