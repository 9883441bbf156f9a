import Mathlib.Data.List.Forall2
import Mathlib.Data.Option.Basic
import Switchyard.Proofs.Chain.Turns

/-!
# Programs that do not mind the method

Programs mirror each other if they do the same in contexts that differ in the method only; what they note down and log
may differ (`Program.Mirrors`). A program that mirrors itself does not mind the method (`Program.MethodBlind`): it may
tell the method, and nothing else it does hangs on it.

- machines that differ in the method and the journal still do so after each change (`Machine.Mirrors.apply` and the
  like), and threads that mirror each other make their steps together (`Thread.Mirrors.step`);
- so where one of them comes to, the other comes to as well (`Thread.Mirrors.steps`).
-/

namespace Switchyard

open Http (Method)

/-- The context of a request with another method. -/
def Context.asking (c : Context) (method : Method) : Context :=
  { c with method }

/-! ## Programs -/

/-- Programs that do the same whatever the method. -/
inductive Program.Mirrors : Program → Program → Prop where
  | finish (flow : Flow) : Mirrors (.finish flow) (.finish flow)
  | panic (payload : Panic) : Mirrors (.panic payload) (.panic payload)
  | look {next next' : Context → Program} (h : ∀ c method, Mirrors (next c) (next' (c.asking method))) :
    Mirrors (.look next) (.look next')
  | change (c : Context.Change) {next next' : Program} (h : Mirrors next next') :
    Mirrors (.change c next) (.change c next')
  | render (r : Responder) {next next' : Program} (h : Mirrors next next') : Mirrors (.render r next) (.render r next')
  | recycle {next next' : Program} (h : Mirrors next next') : Mirrors (.recycle next) (.recycle next')
  | drive (d : Drive) {next next' : Program} (h : Mirrors next next') : Mirrors (.drive d next) (.drive d next')
  | note (script script' action action' : String) (reply reply' : Reply) {next next' : Program}
    (h : Mirrors next next') : Mirrors (.note script action reply next) (.note script' action' reply' next')
  | log (r r' : Record) {next next' : Program} (h : Mirrors next next') : Mirrors (.log r next) (.log r' next')
  | readFile (path : FilePath) {next next' : Except FileError (String × List UInt8) → Program}
    (h : ∀ result, Mirrors (next result) (next' result)) : Mirrors (.readFile path next) (.readFile path next')
  | count (counter : Nat) {next next' : Nat → Program} (h : ∀ n, Mirrors (next n) (next' n)) :
    Mirrors (.count counter next) (.count counter next')
  | attach (list : Nat) (entry : Program) {next next' : Program} (h : Mirrors next next') :
    Mirrors (.attach list entry next) (.attach list entry next')
  | lengthOf (list : Nat) {next next' : Nat → Program} (h : ∀ n, Mirrors (next n) (next' n)) :
    Mirrors (.lengthOf list next) (.lengthOf list next')

/-- What a program does does not hang on the method, but for what it notes down and logs. -/
def Program.MethodBlind (p : Program) : Prop :=
  p.Mirrors p

/-! ## Machines -/

/-- Two machines that differ in the method of their contexts and in what was reported. -/
def Machine.Mirrors (m m' : Machine) : Prop :=
  ∃ method journal, m' = { m with context := m.context.asking method, journal }

namespace Machine.Mirrors

variable {m m' : Machine}

theorem context (h : m.Mirrors m') : ∃ method, m'.context = m.context.asking method := by
  obtain ⟨method, journal, rfl⟩ := h
  exact ⟨method, rfl⟩

theorem draft (h : m.Mirrors m') : m'.context.draft = m.context.draft := by
  obtain ⟨method, journal, rfl⟩ := h
  rfl

theorem lane (h : m.Mirrors m') (kind : LaneKind) : m'.lane kind = m.lane kind := by
  obtain ⟨method, journal, rfl⟩ := h
  cases kind <;> rfl

theorem world (h : m.Mirrors m') : m'.world = m.world := by
  obtain ⟨method, journal, rfl⟩ := h
  rfl

/-- What is reported need not be the same. -/
theorem report (h : m.Mirrors m') (e e' : Event) : (m.report e).Mirrors (m'.report e') := by
  obtain ⟨method, journal, rfl⟩ := h
  exact ⟨method, _, rfl⟩

theorem inWorld (h : m.Mirrors m') (w : World) : (m.inWorld w).Mirrors (m'.inWorld w) := by
  obtain ⟨method, journal, rfl⟩ := h
  exact ⟨method, journal, rfl⟩

theorem close (h : m.Mirrors m') (kind : LaneKind) : (m.close kind).Mirrors (m'.close kind) := by
  obtain ⟨method, journal, rfl⟩ := h
  cases kind <;> exact ⟨method, journal, rfl⟩

theorem start (h : m.Mirrors m') (kind : LaneKind) (index : Nat) :
    (m.start kind index).Mirrors (m'.start kind index) := by
  obtain ⟨method, journal, rfl⟩ := h
  cases kind <;> exact ⟨method, _, rfl⟩

theorem apply (h : m.Mirrors m') (c : Context.Change) : (m.apply c).Mirrors (m'.apply c) := by
  obtain ⟨method, journal, rfl⟩ := h
  cases c <;> exact ⟨method, _, rfl⟩

/-- A responder writes to the draft, and tells the method only where it fails. -/
theorem render (h : m.Mirrors m') (r : Responder) : (m.render r).Mirrors (m'.render r) := by
  have hdraft := h.draft
  obtain ⟨method, journal, rfl⟩ := h
  unfold Machine.render
  rw [hdraft]
  cases r.writeTo.run m.context.draft <;> exact ⟨method, _, rfl⟩

/-- An emptied context has the method that all of them have. -/
theorem recycle (h : m.Mirrors m') : m.recycle.Mirrors m'.recycle := by
  obtain ⟨method, journal, rfl⟩ := h
  exact ⟨.default, _, rfl⟩

theorem settle (h : m.Mirrors m') (kind : LaneKind) (flow : Flow) :
    (m.settle kind flow).Mirrors (m'.settle kind flow) := by
  cases flow with
  | proceed => exact h
  | respond r => exact h.render r
  | stop =>
    cases kind with
    | middleware => exact h.close .handlers
    | handlers => exact h

theorem caught (h : m.Mirrors m') (fault : Fault) : (m.caught fault).Mirrors (m'.caught fault) := by
  obtain ⟨method, journal, rfl⟩ := h
  exact ⟨method, _, rfl⟩

end Machine.Mirrors

/-! ## Threads -/

inductive Frame.Mirrors : Frame → Frame → Prop where
  | entry (kind : LaneKind) (index : Nat) : Mirrors (.entry kind index) (.entry kind index)
  | resume {next next' : Program} (h : next.Mirrors next') : Mirrors (.resume next) (.resume next')
  | lane (kind : LaneKind) : Mirrors (.lane kind) (.lane kind)
  | guard {handler handler' : Fault → Program} (h : ∀ fault, (handler fault).Mirrors (handler' fault)) :
    Mirrors (.guard handler) (.guard handler')

inductive Control.Mirrors : Control → Control → Prop where
  | program {p p' : Program} (h : p.Mirrors p') : Mirrors (.program p) (.program p')
  | drive (d : Drive) : Mirrors (.drive d) (.drive d)
  | lane (kind : LaneKind) : Mirrors (.lane kind) (.lane kind)
  | idle : Mirrors .idle .idle
  | unwind (payload : Panic) : Mirrors (.unwind payload) (.unwind payload)

namespace Thread

/-- Threads that are to do the same, on machines that mirror each other. -/
structure Mirrors (t t' : Thread) : Prop where
  control : t.control.Mirrors t'.control
  frames : List.Forall₂ Frame.Mirrors t.frames t'.frames
  machine : t.machine.Mirrors t'.machine

/-- The entries of the lanes do not mind the method. -/
def Blind (t : Thread) : Prop :=
  ∀ kind, ∀ p ∈ (t.machine.lane kind).entries, p.MethodBlind

variable {t t' u : Thread} {frames frames' : List Frame} {m m' : Machine}

theorem Blind.step (h : t.Blind) (hs : t.step = some u) : u.Blind :=
  fun kind p hp => h kind p (step_entries hs kind p hp)

theorem settleStep_mirrors (hf : List.Forall₂ Frame.Mirrors frames frames') (hm : m.Mirrors m') (kind : LaneKind)
    (index : Nat) (flow : Flow) :
    (settleStep kind index flow frames m).Mirrors (settleStep kind index flow frames' m') := by
  have hsettled := (hm.report (.finished kind index flow) (.finished kind index flow)).settle kind flow
  unfold settleStep
  cases flow with
  | proceed => exact ⟨.lane kind, hf, hsettled⟩
  | respond r => exact ⟨.idle, hf, hsettled.close kind⟩
  | stop => exact ⟨.idle, hf, hsettled.close kind⟩

theorem programStep_mirrors {p p' : Program} (hp : p.Mirrors p') (hf : List.Forall₂ Frame.Mirrors frames frames')
    (hm : m.Mirrors m') : (programStep frames m p).Mirrors (programStep frames' m' p') := by
  cases hp with
  | finish flow =>
    cases hf with
    | nil => exact ⟨.idle, .nil, hm⟩
    | cons hframe hf =>
      cases hframe with
      | entry kind index => exact settleStep_mirrors hf hm kind index flow
      | resume h => exact ⟨.idle, .cons (.resume h) hf, hm⟩
      | lane kind => exact ⟨.idle, .cons (.lane kind) hf, hm⟩
      | guard h => exact ⟨.idle, .cons (.guard h) hf, hm⟩
  | panic payload => exact ⟨.unwind payload, hf, hm⟩
  | @look next next' h =>
    obtain ⟨method, hcontext⟩ := hm.context
    have hnext : (next m.context).Mirrors (next' m'.context) := by
      rw [hcontext]
      exact h m.context method
    exact ⟨.program hnext, hf, hm⟩
  | change c h => exact ⟨.program h, hf, hm.apply c⟩
  | render r h => exact ⟨.program h, hf, hm.render r⟩
  | recycle h => exact ⟨.program h, hf, hm.recycle⟩
  | drive d h => exact ⟨.drive d, .cons (.resume h) hf, hm⟩
  | note script script' action action' reply reply' h => exact ⟨.program h, hf, hm.report _ _⟩
  | log r r' h => exact ⟨.program h, hf, hm.report _ _⟩
  | readFile path h =>
    refine ⟨.program ?_, hf, hm.report _ _⟩
    rw [hm.world]
    exact h _
  | count counter h =>
    refine ⟨.program ?_, hf, ?_⟩
    · rw [hm.world]
      exact h _
    · show Machine.Mirrors _ { m' with world := m'.world.count counter }
      rw [hm.world]
      exact hm.inWorld _
  | attach list entry h =>
    refine ⟨.program h, hf, ?_⟩
    show Machine.Mirrors _ { m' with world := m'.world.attach list entry }
    rw [hm.world]
    exact hm.inWorld _
  | lengthOf list h =>
    refine ⟨.program ?_, hf, hm⟩
    rw [hm.world]
    exact h _

theorem laneStep_mirrors (hf : List.Forall₂ Frame.Mirrors frames frames') (hm : m.Mirrors m')
    {kind : LaneKind} (hblind : ∀ p ∈ (m.lane kind).entries, p.MethodBlind) :
    (laneStep kind frames m).Mirrors (laneStep kind frames' m') := by
  rcases laneStep_cases kind frames m with ⟨hclose, hs⟩ | ⟨index, entry, hd, hn, hs⟩
  · rw [hs, laneStep_close (by rwa [hm.draft, hm.lane])]
    exact ⟨.idle, hf, hm.close kind⟩
  · rw [hs, laneStep_next (by rwa [hm.draft]) (by rwa [hm.lane])]
    have hentry := hblind entry (List.mem_of_getElem? (Lane.next?_eq_some hn).2.2)
    exact ⟨.program hentry, .cons (.entry kind index) hf, hm.start kind index⟩

/-- **Threads that mirror each other make their steps together.** -/
theorem Mirrors.step (h : t.Mirrors t') (hblind : t.Blind) : Option.Rel Mirrors t.step t'.step := by
  obtain ⟨control, frames, m⟩ := t
  obtain ⟨control', frames', m'⟩ := t'
  obtain ⟨hc, hf, hm⟩ := h
  cases hc with
  | program hp => exact .some (programStep_mirrors hp hf hm)
  | drive d =>
    cases d with
    | all => exact .some ⟨.lane .middleware, .cons (.lane .handlers) hf, hm⟩
    | middleware => exact .some ⟨.lane .middleware, hf, hm⟩
    | handlers => exact .some ⟨.lane .handlers, hf, hm⟩
  | lane kind => exact .some (laneStep_mirrors hf hm (hblind kind))
  | idle =>
    cases hf with
    | nil => exact .none
    | cons hframe hf =>
      cases hframe with
      | entry kind index => exact .some ⟨.idle, hf, hm⟩
      | resume hp => exact .some ⟨.program hp, hf, hm⟩
      | lane kind => exact .some ⟨.lane kind, hf, hm⟩
      | guard hp => exact .some ⟨.idle, hf, hm⟩
  | unwind payload =>
    cases hf with
    | nil => exact .none
    | cons hframe hf =>
      cases hframe with
      | guard hp => exact .some ⟨.program (hp _), hf, hm.caught _⟩
      | _ => exact .some ⟨.unwind payload, hf, hm⟩

/-- **Where one of two threads that mirror each other comes to, the other comes to as well.** -/
theorem Mirrors.steps (h : t.Mirrors t') (hblind : t.Blind) (hs : t.Steps u) : ∃ u', t'.Steps u' ∧ u.Mirrors u' ∧
    u.Blind := by
  induction hs with
  | refl => exact ⟨t', .refl, h, hblind⟩
  | tail _ hs ih =>
    obtain ⟨v', hv', hmirrors, hv⟩ := ih
    have hstep := hmirrors.step hv
    rw [hs] at hstep
    generalize hnext : v'.step = next at hstep
    cases hstep with
    | some hmirrors' => exact ⟨_, hv'.tail hnext, hmirrors', hv.step hs⟩

end Thread

end Switchyard
