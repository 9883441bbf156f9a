import Switchyard.Proofs.Chain.Confined

/-!
# What a step can do

A step of a thread either starts the next entry of a lane (`Thread.Starts`) or makes a turn of the machine, which
starts nothing (`Machine.Turns`). What every step keeps is shown for these two.

- `Thread.step_cases`: there is nothing else a step can do, and only a start adds to the entries that are underway;
- a turn tells what it does and nothing else (`Turns.told`), leaves the entries started as they are, and each lane as it
  is or closed (`Turns.starts`, `Turns.lane`);
- steps may be shared: others put the world they have made in place between them (`Thread.SharedSteps`). To a thread
  that is a turn like any other (`SharedStep.cases`).
-/

namespace Switchyard

/-! ## Turns and starts -/

/-- The machine once an entry has ended with a flow: the flow is seen to, and the lane closed unless it goes on. -/
def Machine.conclude (m : Machine) (kind : LaneKind) (index : Nat) (flow : Flow) : Machine :=
  let settled := (m.report (.finished kind index flow)).settle kind flow
  if flow.goesOn then settled else settled.close kind

/-- What a step that starts no entry does to the machine. -/
inductive Machine.Turns : Machine → Machine → Prop where
  | keep (m : Machine) : Turns m m
  | apply (m : Machine) (c : Context.Change) : Turns m (m.apply c)
  | render (m : Machine) (r : Responder) : Turns m (m.render r)
  | recycle (m : Machine) : Turns m m.recycle
  | note (m : Machine) (script action : String) (reply : Reply) : Turns m (m.report (.note script action reply))
  | log (m : Machine) (r : Record) : Turns m (m.report (.logged r))
  | readFile (m : Machine) (path : FilePath) : Turns m (m.report (.fileRead path))
  | world (m : Machine) (w : World) : Turns m (m.inWorld w)
  /-- A lane is closed where it has nothing to run, or nothing is to be run any more. -/
  | close {m : Machine} {kind : LaneKind} (h : m.context.draft.done = true ∨ (m.lane kind).next? = none) :
    Turns m (m.close kind)
  | conclude (m : Machine) (kind : LaneKind) (index : Nat) (flow : Flow) : Turns m (m.conclude kind index flow)
  | caught (m : Machine) (fault : Fault) : Turns m (m.caught fault)

/-- The entries that have started and not ended, the innermost in front. -/
def Frame.underway (frames : List Frame) : List (LaneKind × Nat) :=
  frames.filterMap fun
    | .entry kind index => some (kind, index)
    | _ => none

namespace Thread

/-- The entries of a thread that have started and not ended. -/
def underway (t : Thread) : List (LaneKind × Nat) :=
  Frame.underway t.frames

/-- A lane that is driven starts its next entry. -/
structure Starts (t : Thread) (kind : LaneKind) (index : Nat) (entry : Program) (u : Thread) : Prop where
  control : t.control = .lane kind
  running : t.machine.context.draft.done = false
  next : (t.machine.lane kind).next? = some (index, entry)
  result : u = ⟨.program entry, .entry kind index :: t.frames, t.machine.start kind index⟩

variable {t u : Thread}

theorem programStep_turns (frames : List Frame) (m : Machine) (p : Program) :
    m.Turns (programStep frames m p).machine ∧
      Frame.underway (programStep frames m p).frames <:+ Frame.underway frames := by
  have hsame := List.suffix_refl (Frame.underway frames)
  cases p with
  | finish flow =>
    cases frames with
    | nil => exact ⟨.keep m, hsame⟩
    | cons frame frames =>
      cases frame with
      | entry kind index =>
        have hmachine : (settleStep kind index flow frames m).machine = m.conclude kind index flow := by
          unfold settleStep Machine.conclude
          dsimp only
          split <;> rfl
        have hframes : (settleStep kind index flow frames m).frames = frames := by
          unfold settleStep
          dsimp only
          split <;> rfl
        show m.Turns (settleStep kind index flow frames m).machine ∧
          Frame.underway (settleStep kind index flow frames m).frames <:+ (kind, index) :: Frame.underway frames
        rw [hmachine, hframes]
        exact ⟨.conclude m kind index flow, List.suffix_cons _ _⟩
      | _ => exact ⟨.keep m, hsame⟩
  | panic payload => exact ⟨.keep m, hsame⟩
  | look next => exact ⟨.keep m, hsame⟩
  | change c next => exact ⟨.apply m c, hsame⟩
  | render r next => exact ⟨.render m r, hsame⟩
  | recycle next => exact ⟨.recycle m, hsame⟩
  | drive d next => exact ⟨.keep m, hsame⟩
  | note script action reply next => exact ⟨.note m script action reply, hsame⟩
  | log r next => exact ⟨.log m r, hsame⟩
  | readFile path next => exact ⟨.readFile m path, hsame⟩
  | count counter next => exact ⟨.world m _, hsame⟩
  | attach list entry next => exact ⟨.world m _, hsame⟩
  | lengthOf list next => exact ⟨.keep m, hsame⟩

/-- **A step starts an entry or makes a turn**, in which entries may end but none starts. -/
theorem step_cases (h : t.step = some u) :
    (∃ kind index entry, t.Starts kind index entry u) ∨ (t.machine.Turns u.machine ∧ u.underway <:+ t.underway) := by
  obtain ⟨control, frames, m⟩ := t
  have hsame := List.suffix_refl (Frame.underway frames)
  cases control with
  | program p =>
    obtain rfl := Option.some.inj h
    exact .inr (programStep_turns frames m p)
  | drive d => cases d <;> (obtain rfl := Option.some.inj h; exact .inr ⟨.keep m, hsame⟩)
  | lane kind =>
    obtain rfl : laneStep kind frames m = u := Option.some.inj h
    rcases laneStep_cases kind frames m with ⟨hnone, hs⟩ | ⟨index, entry, hd, hn, hs⟩
    · rw [hs]
      exact .inr ⟨.close hnone, hsame⟩
    · exact .inl ⟨kind, index, entry, rfl, hd, hn, hs⟩
  | idle =>
    cases frames with
    | nil => cases h
    | cons frame frames =>
      obtain rfl := Option.some.inj h
      have htail : Frame.underway frames <:+ Frame.underway (frame :: frames) :=
        (List.suffix_cons frame frames).filterMap _
      cases frame <;> exact .inr ⟨.keep m, htail⟩
  | unwind payload =>
    cases frames with
    | nil => cases h
    | cons frame frames =>
      obtain rfl := Option.some.inj h
      have htail : Frame.underway frames <:+ Frame.underway (frame :: frames) :=
        (List.suffix_cons frame frames).filterMap _
      cases frame with
      | guard handler => exact .inr ⟨.caught m _, htail⟩
      | _ => exact .inr ⟨.keep m, htail⟩

end Thread

/-! ## Shared steps -/

namespace Thread

/-- A step of a thread, or of the others, who may leave any world behind. -/
inductive SharedStep : Thread → Thread → Prop where
  | own {t u : Thread} (h : t.step = some u) : SharedStep t u
  | others (t : Thread) (w : World) : SharedStep t (t.inWorld w)

abbrev SharedSteps : Thread → Thread → Prop :=
  Relation.ReflTransGen SharedStep

variable {t u : Thread}

theorem Steps.shared (h : t.Steps u) : t.SharedSteps u :=
  Relation.ReflTransGen.mono (fun _ _ hs => SharedStep.own hs) t u h

/-- A shared step starts an entry or makes a turn as well. -/
theorem SharedStep.cases (h : t.SharedStep u) :
    (∃ kind index entry, t.Starts kind index entry u) ∨ (t.machine.Turns u.machine ∧ u.underway <:+ t.underway) := by
  cases h with
  | own h => exact step_cases h
  | others w => exact .inr ⟨.world t.machine w, List.suffix_refl _⟩

/-- What holds of a machine and is kept by turns and starts holds wherever its thread comes to. -/
theorem SharedSteps.keeps {P : Machine → Prop} (hturn : ∀ {m m'}, Machine.Turns m m' → P m → P m')
    (hstart : ∀ {m kind index entry}, m.context.draft.done = false → (m.lane kind).next? = some (index, entry) → P m →
      P (m.start kind index))
    (h : t.SharedSteps u) (ht : P t.machine) : P u.machine := by
  induction h with
  | refl => exact ht
  | tail _ hs ih =>
    rcases hs.cases with ⟨kind, index, entry, hs⟩ | ⟨hs, -⟩
    · rw [hs.result]
      exact hstart hs.running hs.next ih
    · exact hturn hs ih

end Thread

/-! ## What is told -/

/-- The event tells of a turn. -/
def Event.OfTurn : Event → Prop
  | .started _ _ => False
  | .span _ _ _ => False
  | .reported _ => False
  | _ => True

/-- Only turns were told in between. -/
def Machine.Told (m m' : Machine) : Prop :=
  ∃ es, m'.journal = m.journal ++ es ∧ ∀ e ∈ es, e.OfTurn

namespace Machine.Told

variable {m m' m'' : Machine}

theorem same (h : m'.journal = m.journal) : m.Told m' :=
  ⟨[], by rw [h, List.append_nil], fun _ he => absurd he List.not_mem_nil⟩

theorem trans (h : m.Told m') (h' : m'.Told m'') : m.Told m'' := by
  obtain ⟨es, hes, htold⟩ := h
  obtain ⟨es', hes', htold'⟩ := h'
  exact ⟨es ++ es', by rw [hes', hes, List.append_assoc], fun e he => (List.mem_append.1 he).elim (htold e) (htold' e)⟩

theorem report (m : Machine) {e : Event} (h : e.OfTurn) : m.Told (m.report e) :=
  ⟨[e], rfl, List.forall_mem_singleton.2 h⟩

theorem render (m : Machine) (r : Responder) : m.Told (m.render r) := by
  unfold Machine.render
  cases r.writeTo.run m.context.draft with
  | ok u draft => exact report _ trivial
  | error failure draft => exact (report m (e := .logged _) trivial).trans (report _ trivial)

theorem close (m : Machine) (kind : LaneKind) : m.Told (m.close kind) := by
  cases kind <;> exact same rfl

/-- What turns do not tell is not told. -/
theorem filterMap {α : Type} {f : Event → Option α} (h : m.Told m') (hf : ∀ e : Event, e.OfTurn → f e = none) :
    m'.journal.filterMap f = m.journal.filterMap f := by
  obtain ⟨es, hes, htold⟩ := h
  rw [hes, List.filterMap_append, List.filterMap_eq_nil_iff.2 fun e he => hf e (htold e he), List.append_nil]

end Machine.Told

/-! ## What starts -/

/-- The place of the entry of a lane that an event starts. -/
def Event.start? (kind : LaneKind) : Event → Option Nat
  | .started k index => if k = kind then some index else none
  | _ => none

/-- The places of the entries of a lane that were started, the first in front. -/
def Journal.starts (j : Journal) (kind : LaneKind) : List Nat :=
  j.filterMap (Event.start? kind)

namespace Machine

theorem starts_start (m : Machine) (kind k : LaneKind) (index : Nat) :
    (m.start kind index).journal.starts k = m.journal.starts k ++ if kind = k then [index] else [] := by
  have hjournal : (m.start kind index).journal = m.journal ++ [.started kind index] := by cases kind <;> rfl
  rw [hjournal, Journal.starts, List.filterMap_append]
  by_cases h : kind = k <;> simp [Journal.starts, Event.start?, h]

theorem lane_close (m : Machine) (kind k : LaneKind) :
    (m.close kind).lane k = if kind = k then (m.lane k).close else m.lane k := by
  cases kind <;> cases k <;> rfl

theorem isOpen_close (m : Machine) (kind : LaneKind) : ((m.close kind).lane kind).isOpen = false := by
  cases kind <;> rfl

theorem isOpen_halt (m : Machine) (kind : LaneKind) : (m.halt.lane kind).isOpen = false := by
  cases kind <;> rfl

theorem isOpen_render (m : Machine) (r : Responder) (kind : LaneKind) : ((m.render r).lane kind).isOpen = false := by
  unfold render
  cases r.writeTo.run m.context.draft <;> cases kind <;> rfl

namespace Turns

variable {m m' : Machine}

/-- A turn tells what it does, and nothing else. -/
theorem told (h : m.Turns m') : m.Told m' := by
  cases h with
  | keep => exact .same rfl
  | apply c =>
    cases c with
    | write bytes => exact .report _ trivial
    | _ => exact .same rfl
  | render r => exact .render m r
  | recycle => exact .report _ trivial
  | note script action reply => exact .report m trivial
  | log r => exact .report m trivial
  | readFile path => exact .report m trivial
  | world w => exact .same rfl
  | @close kind h => exact .close m kind
  | conclude kind index flow =>
    have hfinished : m.Told (m.report (.finished kind index flow)) := .report m trivial
    cases flow with
    | proceed => exact hfinished
    | respond r => exact (hfinished.trans (.render _ r)).trans (.close _ kind)
    | stop =>
      cases kind with
      | middleware => exact (hfinished.trans (.close _ .handlers)).trans (.close _ .middleware)
      | handlers => exact hfinished.trans (.close _ .handlers)
  | caught fault => exact .report _ trivial

/-- A turn starts nothing. -/
theorem starts (h : m.Turns m') (kind : LaneKind) : m'.journal.starts kind = m.journal.starts kind :=
  h.told.filterMap fun e he => by
    cases e with
    | started => exact he.elim
    | _ => rfl

/-- A turn leaves a lane as it is, or closed. -/
theorem lane (h : m.Turns m') (kind : LaneKind) : m'.lane kind = m.lane kind ∨ (m'.lane kind).isOpen = false := by
  cases h with
  | keep => exact .inl rfl
  | apply c => cases c <;> cases kind <;> exact .inl rfl
  | render r => exact .inr (isOpen_render m r kind)
  | recycle => cases kind <;> exact .inr rfl
  | note script action reply => cases kind <;> exact .inl rfl
  | log r => cases kind <;> exact .inl rfl
  | readFile path => cases kind <;> exact .inl rfl
  | world w => cases kind <;> exact .inl rfl
  | @close k h =>
    rw [lane_close]
    split
    · exact .inr rfl
    · exact .inl rfl
  | conclude k index flow =>
    unfold Machine.conclude
    cases flow with
    | proceed => cases kind <;> exact .inl rfl
    | respond r =>
      refine .inr ?_
      have hrender := isOpen_render (m.report (.finished k index (.respond r))) r kind
      show ((Machine.close _ k).lane kind).isOpen = false
      rw [lane_close]
      split
      · rfl
      · exact hrender
    | stop => cases k <;> cases kind <;> first | exact .inl rfl | exact .inr rfl
  | caught fault => exact .inr (isOpen_halt m kind)

/-- A closed lane stays closed. -/
theorem closed (h : m.Turns m') {kind : LaneKind} (hc : (m.lane kind).isOpen = false) :
    (m'.lane kind).isOpen = false := by
  rcases h.lane kind with heq | hclosed
  · rw [heq, hc]
  · exact hclosed

end Turns

end Machine

end Switchyard
