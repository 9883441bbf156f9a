import Switchyard.Proofs.Chain.Guard

/-!
# Programs on their own

A program is secluded if it acts on its context only: it asks for no file, no counter and no middleware list. With both
lanes closed there is nothing such a program can drive, so that what it does depends on the context alone: a thread of
secluded programs makes the same step as any other with the same control, frames and context (`step_face`), and it ends
as the program does on a machine with nothing but this context (`Solo.ends_alone`).
-/

namespace Switchyard

/-- Anything but asking for what is not in the context. -/
def Deed.Secluded : Deed → Prop
  | .readFile _ => False
  | .count _ => False
  | .attach _ _ => False
  | .lengthOf _ => False
  | _ => True

namespace Machine

variable {m m' : Machine}

theorem context_apply (h : m.context = m'.context) (c : Context.Change) :
    (m.apply c).context = (m'.apply c).context := by
  have hcontext : m.context.apply c = m'.context.apply c := congrArg (fun context => context.apply c) h
  cases c <;> exact hcontext

theorem context_render (h : m.context = m'.context) (r : Responder) :
    (m.render r).context = (m'.render r).context := by
  unfold render
  rw [h]
  cases r.writeTo.run m'.context.draft <;> rfl

theorem context_conclude (h : m.context = m'.context) (kind : LaneKind) (index : Nat) (flow : Flow) :
    (m.conclude kind index flow).context = (m'.conclude kind index flow).context := by
  have hfinished : (m.report (.finished kind index flow)).context = (m'.report (.finished kind index flow)).context := h
  cases flow with
  | proceed => exact h
  | respond r => cases kind <;> exact context_render hfinished r
  | stop => cases kind <;> exact h

theorem context_close (m : Machine) (kind : LaneKind) : (m.close kind).context = m.context := by
  cases kind <;> rfl

theorem Closed.next? (h : m.Closed) (kind : LaneKind) : (m.lane kind).next? = none := by
  rw [Lane.next?, h kind]
  rfl

/-- A machine with a context and nothing else has nothing to drive. -/
theorem closed_of_context (c : Context) : ({ context := c } : Machine).Closed := fun kind => by cases kind <;> rfl

end Machine

namespace Thread

variable {t u v : Thread}

/-- What a thread does next, what waits for that, and the context. -/
def face (t : Thread) : Control × List Frame × Context :=
  (t.control, t.frames, t.machine.context)

theorem face_eq (h : t.face = u.face) :
    t.control = u.control ∧ t.frames = u.frames ∧ t.machine.context = u.machine.context := by
  simpa only [face, Prod.mk.injEq] using h

theorem programStep_face {p : Program} (hp : p.Within Deed.Secluded) (frames : List Frame) {m m' : Machine}
    (h : m.context = m'.context) : (programStep frames m p).face = (programStep frames m' p).face := by
  have hface : ∀ (c : Control) (fs : List Frame) {n n' : Machine}, n.context = n'.context →
      face ⟨c, fs, n⟩ = face ⟨c, fs, n'⟩ := fun c fs _ _ hn => congrArg (fun x => (c, fs, x)) hn
  cases p with
  | finish flow =>
    cases frames with
    | nil => exact hface _ _ h
    | cons frame frames =>
      cases frame with
      | entry kind index =>
        have hconclude := Machine.context_conclude h kind index flow
        cases flow <;> exact hface _ _ hconclude
      | _ => exact hface _ _ h
  | look next =>
    show face ⟨.program (next m.context), frames, m⟩ = face ⟨.program (next m'.context), frames, m'⟩
    rw [h]
    exact hface _ _ h
  | change c next => exact hface _ _ (Machine.context_apply h c)
  | render r next => exact hface _ _ (Machine.context_render h r)
  | recycle next => exact hface _ _ (congrArg Context.recycle h)
  | readFile path next => exact hp.1.elim
  | count counter next => exact hp.1.elim
  | attach list entry next => exact hp.1.elim
  | lengthOf list next => exact hp.1.elim
  | _ => exact hface _ _ h

/-- **Secluded programs do the same in the same context**, when both lanes are closed. -/
theorem step_face (h : t.face = u.face) (hp : t.control.Within Deed.Secluded) (ht : t.machine.Closed)
    (hu : u.machine.Closed) : t.step.map face = u.step.map face := by
  obtain ⟨control, frames, m⟩ := t
  obtain ⟨control', frames', m'⟩ := u
  obtain ⟨rfl, rfl, hcontext⟩ : control = control' ∧ frames = frames' ∧ m.context = m'.context := face_eq h
  have hface : ∀ (c : Control) (fs : List Frame), face ⟨c, fs, m⟩ = face ⟨c, fs, m'⟩ :=
    fun c fs => congrArg (fun x => (c, fs, x)) hcontext
  cases control with
  | program p => exact congrArg some (programStep_face hp frames hcontext)
  | drive d => cases d <;> exact congrArg some (hface _ _)
  | lane kind =>
    show some (laneStep kind frames m).face = some (laneStep kind frames m').face
    rw [laneStep_close (.inr (ht.next? kind)), laneStep_close (.inr (hu.next? kind))]
    simp only [face, Machine.context_close, hcontext]
  | idle =>
    cases frames with
    | nil => rfl
    | cons frame frames => cases frame <;> exact congrArg some (hface _ _)
  | unwind payload =>
    cases frames with
    | nil => rfl
    | cons frame frames =>
      cases frame with
      | guard handler =>
        exact congrArg (fun c : Context => some (_, _, c.resetResponse)) hcontext
      | _ => exact congrArg some (hface _ _)

/-- A thread of secluded programs with nothing to drive, whose panics nobody catches. -/
structure Solo (t : Thread) : Prop where
  control : t.control.Within Deed.Secluded
  frames : ∀ frame ∈ t.frames, frame.Within Deed.Secluded
  closed : t.machine.Closed
  unguarded : t.Unguarded

theorem solo_alone {p : Program} (hp : p.Within Deed.Secluded) (c : Context) :
    Solo ⟨.program p, [], { context := c }⟩ :=
  ⟨hp, nofun, Machine.closed_of_context c, nofun⟩

theorem Solo.step (h : t.Solo) (hs : t.step = some u) : u.Solo := by
  -- the lanes are closed, so that the step is that of a thread without any
  have hbare : Within Deed.Secluded ⟨t.control, t.frames, { context := t.machine.context }⟩ :=
    ⟨h.control, h.frames, fun kind p hp => by cases kind <;> cases hp⟩
  have hstep := step_face (t := t) (u := ⟨t.control, t.frames, { context := t.machine.context }⟩) rfl h.control
    h.closed (Machine.closed_of_context _)
  rw [hs, Option.map_some] at hstep
  obtain ⟨v, hv, hface⟩ := Option.map_eq_some_iff.1 hstep.symm
  obtain ⟨hcontrol, hframes, -⟩ := face_eq hface
  rcases hbare.step hv with ⟨hwithin, -⟩ | hcatch
  · exact ⟨hcontrol ▸ hwithin.control, hframes ▸ hwithin.frames, fun kind => closed_step hs (h.closed kind),
      h.unguarded.step hs⟩
  · exact absurd hcatch (Unguarded.not_catches h.unguarded)

theorem Solo.inWorld (h : t.Solo) (w : World) : (t.inWorld w).Solo where
  control := h.control
  frames := h.frames
  closed kind := by
    have hclosed := h.closed kind
    cases kind <;> exact hclosed
  unguarded := h.unguarded

/-- Such a thread keeps its face in step with any other of the same face, and catches nothing. -/
theorem Solo.follows (ht : t.Solo) (hu : u.Solo) (hface : t.face = u.face) (h : t.SharedSteps v) :
    v.Solo ∧ v.machine.journal.faults = t.machine.journal.faults ∧ ∃ w, u.Steps w ∧ w.Solo ∧ v.face = w.face := by
  induction h with
  | refl => exact ⟨ht, rfl, u, .refl, hu, hface⟩
  | tail _ hs ih =>
    obtain ⟨hv, hfaults, w, hw, hsolo, heq⟩ := ih
    cases hs with
    | others world => exact ⟨hv.inWorld world, hfaults, w, hw, hsolo, heq⟩
    | own hs =>
      refine ⟨hv.step hs, ?_, ?_⟩
      · rcases faults_step hs with hsame | hcatch
        · exact hsame.trans hfaults
        · exact absurd hcatch hv.unguarded.not_catches
      · have hsteps := step_face heq hv.control hv.closed hsolo.closed
        rw [hs, Option.map_some] at hsteps
        obtain ⟨w', hw', hface'⟩ := Option.map_eq_some_iff.1 hsteps.symm
        exact ⟨w', hw.tail hw', hsolo.step hw', hface'.symm⟩

/-- The thread of a program on its own comes to where the program ends. -/
theorem steps_alone {p : Program} {c : Context} {flow : Flow} {m : Machine} (h : p.runAlone c = (.ok flow, m)) :
    Steps ⟨.program p, [], { context := c }⟩ ⟨.idle, [], m⟩ := by
  have hrun := steps_run p [] { context := c }
  unfold Program.runAlone at h
  cases hr : p.run driveChain { context := c } with
  | ok flow' m' =>
    rw [hr] at h hrun
    obtain ⟨-, rfl⟩ := Prod.mk.inj h
    exact hrun.tail rfl
  | error payload m' =>
    rw [hr] at h
    cases (Prod.mk.inj h).1

variable {p : Program} {c : Context} {flow : Flow} {m : Machine}

/-- **A program that ends on its own ends like that in a solo thread**: it does not panic, and leaves the context behind
that it leaves on its own. -/
theorem Solo.ends_alone (hrun : p.runAlone c = (.ok flow, m)) (ht : t.Solo) (hface : t.face = (.program p, [], c))
    (h : t.SharedSteps v) :
    v.machine.journal.faults = t.machine.journal.faults ∧ (∀ payload, ¬ v.Doomed payload) ∧
      (v.step = none → v.control = .idle ∧ v.frames = [] ∧ v.machine.context = m.context) := by
  have hsolo : Solo ⟨.program p, [], { context := c }⟩ := by
    refine solo_alone ?_ c
    have hcontrol : t.control = .program p := congrArg Prod.fst hface
    have hp := ht.control
    rwa [hcontrol] at hp
  obtain ⟨hv, hfaults, w, hw, hwsolo, heq⟩ := ht.follows hsolo hface h
  have hend := steps_alone hrun
  obtain ⟨hcontrol, hframes, hcontext⟩ := face_eq heq
  refine ⟨hfaults, fun payload hd => ?_, fun hstep => ?_⟩
  · -- a panic would leave the frames, and that is another end
    have hunwind : w.Steps ⟨.unwind payload, [], w.machine⟩ := by
      obtain ⟨control, frames, n⟩ := w
      have hleave := steps_unwind payload hwsolo.unguarded [] n
      rw [List.append_nil] at hleave
      rcases hd with hd | hd
      · obtain rfl : control = .program (.panic payload) := hcontrol.symm.trans hd
        exact .head rfl hleave
      · obtain rfl : control = .unwind payload := hcontrol.symm.trans hd
        exact hleave
    have hunique := Steps.ended_unique hend (hw.trans hunwind) rfl rfl
    cases congrArg Thread.control hunique
  · have hnone : w.step = none := by
      have hsteps := step_face heq hv.control hv.closed hwsolo.closed
      rw [hstep, Option.map_none] at hsteps
      exact Option.map_eq_none_iff.1 hsteps.symm
    obtain rfl := Steps.ended_unique hend hw rfl hnone
    exact ⟨hcontrol, hframes, hcontext⟩

end Thread

end Switchyard
