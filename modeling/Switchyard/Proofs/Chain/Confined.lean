import Switchyard.Proofs.Chain.Thread

/-!
# Entries that keep to their context

A confined program acts on its context and reads files, which nothing changes; it neither counts nor looks at the
middleware lists. A thread of confined programs stays one (`Thread.step_confined`), and makes the same steps in every
world with the same files (`Thread.step_inWorld`).
-/

namespace Switchyard

def Program.Confined : Program → Prop
  | .finish _ => True
  | .panic _ => True
  | .look next => ∀ c, (next c).Confined
  | .change _ next => next.Confined
  | .render _ next => next.Confined
  | .recycle next => next.Confined
  | .drive _ next => next.Confined
  | .note _ _ _ next => next.Confined
  | .log _ next => next.Confined
  | .readFile _ next => ∀ result, (next result).Confined
  | .count _ _ => False
  | .attach _ _ _ => False
  | .lengthOf _ _ => False

def Frame.Confined : Frame → Prop
  | .resume next => next.Confined
  | .guard handler => ∀ fault, (handler fault).Confined
  | _ => True

def Control.Confined : Control → Prop
  | .program p => p.Confined
  | _ => True

/-- A thread that will run confined programs only. -/
structure Thread.Confined (t : Thread) : Prop where
  control : t.control.Confined
  frames : ∀ frame ∈ t.frames, frame.Confined
  entries : ∀ kind, ∀ p ∈ (t.machine.lane kind).entries, p.Confined

/-- A machine in another world. -/
def Machine.inWorld (m : Machine) (w : World) : Machine :=
  { m with world := w }

/-- A thread in another world. -/
def Thread.inWorld (t : Thread) (w : World) : Thread :=
  { t with machine := t.machine.inWorld w }

/-! ## Confinement stays -/

/-- A run drops entries of its lanes at most. -/
theorem kept_entries : Kept fun m m' => ∀ kind, ∀ p ∈ (m'.lane kind).entries, p ∈ (m.lane kind).entries where
  refl _ _ _ h := h
  trans h h' kind p hp := h kind p (h' kind p hp)
  apply m c kind p h := by cases c <;> exact h
  render m r kind p h := by
    unfold Machine.render at h
    cases hr : r.writeTo.run m.context.draft <;> rw [hr] at h <;> cases kind <;> exact h
  recycle _ kind p h := by cases kind <;> cases h
  report _ _ _ _ h := h
  world _ _ _ _ _ h := h
  close m k kind p h := by cases k <;> cases kind <;> exact h
  start {m k index entry} _ kind p h := by cases k <;> cases kind <;> exact h

namespace Thread

variable {t u : Thread}

/-- A step drops entries of the lanes at most. -/
theorem step_entries (h : t.step = some u) :
    ∀ kind, ∀ p ∈ (u.machine.lane kind).entries, p ∈ (t.machine.lane kind).entries := by
  refine step_kept kept_entries (fun m fault kind p hp => ?_) h
  cases kind <;> exact hp

/-- What the frames and the lanes of a thread hold is confined, whatever it does next. -/
theorem Confined.step_control (h : t.Confined) (hs : t.step = some u) :
    u.control.Confined ∧ ∀ frame ∈ u.frames, frame.Confined := by
  obtain ⟨control, frames, m⟩ := t
  obtain ⟨hc, hf, he⟩ := h
  cases control with
  | program p =>
    obtain rfl := Option.some.inj hs
    cases p with
    | finish flow =>
      cases frames with
      | nil => exact ⟨trivial, hf⟩
      | cons frame frames =>
        have hf' : ∀ frame ∈ frames, frame.Confined := fun f h => hf f (List.mem_cons_of_mem _ h)
        cases frame with
        | entry kind index => cases flow <;> exact ⟨trivial, hf'⟩
        | _ => exact ⟨trivial, hf⟩
    | panic payload => exact ⟨trivial, hf⟩
    | look next => exact ⟨hc _, hf⟩
    | drive d next =>
      refine ⟨trivial, fun frame h => ?_⟩
      rcases List.mem_cons.1 h with rfl | h
      · exact hc
      · exact hf frame h
    | readFile path next => exact ⟨hc _, hf⟩
    | count counter next => exact hc.elim
    | attach list entry next => exact hc.elim
    | lengthOf list next => exact hc.elim
    | _ => exact ⟨hc, hf⟩
  | drive d =>
    cases d <;> obtain rfl := Option.some.inj hs
    · refine ⟨trivial, fun frame h => ?_⟩
      rcases List.mem_cons.1 h with rfl | h
      · exact trivial
      · exact hf frame h
    · exact ⟨trivial, hf⟩
    · exact ⟨trivial, hf⟩
  | lane kind =>
    obtain rfl := Option.some.inj hs
    show (laneStep kind frames m).control.Confined ∧ ∀ frame ∈ (laneStep kind frames m).frames, frame.Confined
    rcases laneStep_cases kind frames m with ⟨-, hstep⟩ | ⟨index, entry, -, hn, hstep⟩ <;> rw [hstep]
    · exact ⟨trivial, hf⟩
    · refine ⟨he kind entry (List.mem_of_getElem? (Lane.next?_eq_some hn).2.2), fun frame h => ?_⟩
      rcases List.mem_cons.1 h with rfl | h
      · exact trivial
      · exact hf frame h
  | idle =>
    cases frames with
    | nil => cases hs
    | cons frame frames =>
      obtain rfl := Option.some.inj hs
      have hf' : ∀ frame ∈ frames, frame.Confined := fun f h => hf f (List.mem_cons_of_mem _ h)
      cases frame with
      | resume next => exact ⟨hf _ List.mem_cons_self, hf'⟩
      | _ => exact ⟨trivial, hf'⟩
  | unwind payload =>
    cases frames with
    | nil => cases hs
    | cons frame frames =>
      obtain rfl := Option.some.inj hs
      have hf' : ∀ frame ∈ frames, frame.Confined := fun f h => hf f (List.mem_cons_of_mem _ h)
      cases frame with
      | guard handler => exact ⟨hf _ List.mem_cons_self _, hf'⟩
      | _ => exact ⟨trivial, hf'⟩

theorem step_confined (h : t.Confined) (hs : t.step = some u) : u.Confined where
  control := (h.step_control hs).1
  frames := (h.step_control hs).2
  entries kind p hp := h.entries kind p (step_entries hs kind p hp)

theorem inWorld_confined (h : t.Confined) (w : World) : (t.inWorld w).Confined :=
  ⟨h.control, h.frames, fun kind p hp => h.entries kind p (by cases kind <;> exact hp)⟩

end Thread

/-! ## The world does not matter -/

namespace Machine

variable (m : Machine) (w : World)

theorem inWorld_apply (c : Context.Change) : (m.inWorld w).apply c = (m.apply c).inWorld w := by
  cases c <;> rfl

theorem inWorld_render (r : Responder) : (m.inWorld w).render r = (m.render r).inWorld w := by
  have hc : (m.inWorld w).context = m.context := rfl
  unfold render
  rw [hc]
  cases r.writeTo.run m.context.draft <;> rfl

theorem inWorld_close (kind : LaneKind) : (m.inWorld w).close kind = (m.close kind).inWorld w := by
  cases kind <;> rfl

theorem inWorld_start (kind : LaneKind) (index : Nat) :
    (m.inWorld w).start kind index = (m.start kind index).inWorld w := by
  cases kind <;> rfl

theorem inWorld_settle (kind : LaneKind) (flow : Flow) :
    (m.inWorld w).settle kind flow = (m.settle kind flow).inWorld w := by
  cases flow with
  | proceed => rfl
  | respond r => exact m.inWorld_render w r
  | stop => cases kind <;> rfl

end Machine

namespace Thread

theorem programStep_inWorld {p : Program} (hp : p.Confined) (frames : List Frame) (m : Machine) {w : World}
    (hf : w.files = m.world.files) :
    programStep frames (m.inWorld w) p = (programStep frames m p).inWorld w := by
  cases p with
  | finish flow =>
    cases frames with
    | nil => rfl
    | cons frame frames =>
      cases frame with
      | entry kind index =>
        have hset := (m.report (.finished kind index flow)).inWorld_settle w kind flow
        have hset' : ((m.inWorld w).report (.finished kind index flow)).settle kind flow =
            ((m.report (.finished kind index flow)).settle kind flow).inWorld w := hset
        simp only [programStep, settleStep, hset', Machine.inWorld_close]
        cases flow <;> rfl
      | _ => rfl
  | change c next => simp only [programStep, Machine.inWorld_apply]; rfl
  | render r next => simp only [programStep, Machine.inWorld_render]; rfl
  | readFile path next =>
    show (⟨.program (next (w.files.read path)), frames, _⟩ : Thread) = _
    rw [hf]; rfl
  | count counter next => exact hp.elim
  | attach list entry next => exact hp.elim
  | lengthOf list next => exact hp.elim
  | _ => rfl

theorem laneStep_inWorld (kind : LaneKind) (frames : List Frame) (m : Machine) (w : World) :
    laneStep kind frames (m.inWorld w) = (laneStep kind frames m).inWorld w := by
  have hl : (m.inWorld w).lane kind = m.lane kind := by cases kind <;> rfl
  have hd : (m.inWorld w).context.draft.done = m.context.draft.done := rfl
  unfold laneStep
  rw [hl, hd, Machine.inWorld_close]
  split
  · rfl
  · split
    · rfl
    · rw [Machine.inWorld_start]; rfl

/-- **A confined thread makes the same step in every world with the same files.** -/
theorem step_inWorld {t : Thread} (h : t.Confined) {w : World} (hf : w.files = t.machine.world.files) :
    (t.inWorld w).step = t.step.map (·.inWorld w) := by
  obtain ⟨control, frames, m⟩ := t
  cases control with
  | program p => exact congrArg some (programStep_inWorld h.control frames m hf)
  | drive d => cases d <;> rfl
  | lane kind => exact congrArg some (laneStep_inWorld kind frames m w)
  | idle =>
    cases frames with
    | nil => rfl
    | cons frame frames => cases frame <;> rfl
  | unwind payload =>
    cases frames with
    | nil => rfl
    | cons frame frames => cases frame <;> rfl

end Thread

end Switchyard
