import Switchyard.Proofs.Chain.Turns

/-!
# What programs may do

A program keeps to some deeds if, whatever it sees, it does nothing else (`Program.Within`); looking at the context,
noting down and logging are not counted. A thread whose programs keep to some deeds goes on like that until a panic is
caught, and then the program of the guard takes over, which may do as it likes.

- `Within.step`: a step starts an entry, ends one, makes an allowed change of the machine, or catches a panic;
- what a deed adds to the journal tells of that deed (`Acts.tells`);
- the journal only grows (`SharedSteps.journal_prefix`), so that a panic that was caught can be told from it;
- what entries that start and end and allowed changes keep holds until then (`Within.keeps`);
- what no change touches and no drop of the response stays, unless the context is recycled (`SharedSteps.lasting`).
-/

namespace Switchyard

/-- Something a program may do to more than the journal. -/
inductive Deed where
  | finish (flow : Flow)
  | panic (payload : Panic)
  | change (c : Context.Change)
  | render (r : Responder)
  | recycle
  | drive (d : Drive)
  | readFile (path : FilePath)
  | count (counter : Nat)
  | attach (list : Nat) (entry : Program)
  | lengthOf (list : Nat)

/-- Only writing a responder. -/
def Deed.Renders : Deed → Prop
  | .render _ => True
  | _ => False

/-- The program does only what is allowed. -/
def Program.Within (allowed : Deed → Prop) : Program → Prop
  | .finish flow => allowed (.finish flow)
  | .panic payload => allowed (.panic payload)
  | .look next => ∀ c, (next c).Within allowed
  | .change c next => allowed (.change c) ∧ next.Within allowed
  | .render r next => allowed (.render r) ∧ next.Within allowed
  | .recycle next => allowed .recycle ∧ next.Within allowed
  | .drive d next => allowed (.drive d) ∧ next.Within allowed
  | .note _ _ _ next => next.Within allowed
  | .log _ next => next.Within allowed
  | .readFile path next => allowed (.readFile path) ∧ ∀ result, (next result).Within allowed
  | .count counter next => allowed (.count counter) ∧ ∀ n, (next n).Within allowed
  | .attach list entry next => allowed (.attach list entry) ∧ next.Within allowed
  | .lengthOf list next => allowed (.lengthOf list) ∧ ∀ n, (next n).Within allowed

/-- What the deeds of an entry do to the machine, but for its start and its end. -/
inductive Machine.Acts (allowed : Deed → Prop) : Machine → Machine → Prop where
  | keep (m : Machine) : Acts allowed m m
  | apply (m : Machine) {c : Context.Change} (h : allowed (.change c)) : Acts allowed m (m.apply c)
  | render (m : Machine) {r : Responder} (h : allowed (.render r)) : Acts allowed m (m.render r)
  | recycle (m : Machine) (h : allowed .recycle) : Acts allowed m m.recycle
  | note (m : Machine) (script action : String) (reply : Reply) :
    Acts allowed m (m.report (.note script action reply))
  | log (m : Machine) (r : Record) : Acts allowed m (m.report (.logged r))
  | readFile (m : Machine) {path : FilePath} (h : allowed (.readFile path)) :
    Acts allowed m (m.report (.fileRead path))
  | world (m : Machine) (w : World) : Acts allowed m (m.inWorld w)
  | close (m : Machine) (kind : LaneKind) : Acts allowed m (m.close kind)

/-- What is told of deeds. -/
inductive Event.Tells (allowed : Deed → Prop) : Event → Prop where
  | wrote (bytes : List UInt8) : Tells allowed (.wrote bytes)
  | rendered {r : Responder} (h : allowed (.render r)) (failure : Option Failure) : Tells allowed (.rendered r failure)
  | recycled : Tells allowed .recycled
  | note (script action : String) (reply : Reply) : Tells allowed (.note script action reply)
  | logged (r : Record) : Tells allowed (.logged r)
  | fileRead {path : FilePath} (h : allowed (.readFile path)) : Tells allowed (.fileRead path)

/-- The fault that an event tells was caught. -/
def Event.fault? : Event → Option Fault
  | .caught fault => some fault
  | _ => none

/-- The faults that were caught, the first in front. -/
def Journal.faults (j : Journal) : List Fault :=
  j.filterMap Event.fault?

variable {allowed : Deed → Prop}

namespace Machine

variable {m m' : Machine}

theorem filterMap_report {α : Type} (f : Event → Option α) (m : Machine) (e : Event) :
    (m.report e).journal.filterMap f = m.journal.filterMap f ++ (f e).toList := by
  rw [report, List.filterMap_append]
  cases h : f e <;> simp [h]

theorem tells_render (m : Machine) {r : Responder} (h : allowed (.render r)) :
    ∃ es, (m.render r).journal = m.journal ++ es ∧ ∀ e ∈ es, e.Tells allowed := by
  unfold render
  cases r.writeTo.run m.context.draft with
  | ok u draft => exact ⟨[_], rfl, List.forall_mem_singleton.2 (.rendered h none)⟩
  | error failure draft =>
    refine ⟨[_, _], List.append_assoc m.journal [_] [_], List.forall_mem_cons.2 ⟨.logged _, ?_⟩⟩
    exact List.forall_mem_singleton.2 (.rendered h _)

/-- **A deed is told of as what it is.** -/
theorem Acts.tells (h : m.Acts allowed m') :
    ∃ es, m'.journal = m.journal ++ es ∧ ∀ e ∈ es, e.Tells allowed := by
  have hnone : ∃ es, m.journal = m.journal ++ es ∧ ∀ e ∈ es, e.Tells allowed :=
    ⟨[], (List.append_nil _).symm, fun _ he => by cases he⟩
  cases h with
  | keep => exact hnone
  | @apply c h =>
    cases c with
    | write bytes => exact ⟨[_], rfl, List.forall_mem_singleton.2 (.wrote bytes)⟩
    | _ => exact hnone
  | render h => exact tells_render m h
  | recycle h => exact ⟨[_], rfl, List.forall_mem_singleton.2 .recycled⟩
  | note script action reply => exact ⟨[_], rfl, List.forall_mem_singleton.2 (.note _ _ _)⟩
  | log r => exact ⟨[_], rfl, List.forall_mem_singleton.2 (.logged r)⟩
  | readFile h => exact ⟨[_], rfl, List.forall_mem_singleton.2 (.fileRead h)⟩
  | world w => exact hnone
  | close kind => cases kind <;> exact hnone

/-- What deeds do not tell is not told by one. -/
theorem Acts.filterMap {α : Type} {f : Event → Option α} (h : m.Acts allowed m')
    (hf : ∀ e : Event, e.Tells allowed → f e = none) : m'.journal.filterMap f = m.journal.filterMap f := by
  obtain ⟨es, hes, htells⟩ := h.tells
  rw [hes, List.filterMap_append, List.filterMap_eq_nil_iff.2 fun e he => hf e (htells e he), List.append_nil]

theorem filterMap_start {α : Type} (f : Event → Option α) (m : Machine) (kind : LaneKind) (index : Nat) :
    (m.start kind index).journal.filterMap f = m.journal.filterMap f ++ (f (.started kind index)).toList := by
  cases kind <;> exact filterMap_report f _ _

/-- What is told of the end of an entry, besides the end itself, is told of a responder that is written. -/
theorem filterMap_conclude {α : Type} {f : Event → Option α} (hf : ∀ e : Event, e.Tells Deed.Renders → f e = none)
    (m : Machine) (kind : LaneKind) (index : Nat) (flow : Flow) :
    (m.conclude kind index flow).journal.filterMap f =
      m.journal.filterMap f ++ (f (.finished kind index flow)).toList := by
  have hfinished := filterMap_report f m (.finished kind index flow)
  cases flow with
  | proceed => exact hfinished
  | respond r =>
    have hrender : (m.report (.finished kind index (.respond r))).Acts Deed.Renders _ := .render _ (r := r) trivial
    have hboth := (hrender.filterMap hf).trans hfinished
    cases kind <;> exact hboth
  | stop => cases kind <;> exact hfinished

end Machine

/-- What waits in a frame does only what is allowed; a guard is not asked. -/
def Frame.Within (allowed : Deed → Prop) : Frame → Prop
  | .resume next => next.Within allowed
  | _ => True

def Control.Within (allowed : Deed → Prop) : Control → Prop
  | .program p => p.Within allowed
  | _ => True

namespace Thread

/-- A thread whose programs do only what is allowed, until a panic is caught. -/
structure Within (allowed : Deed → Prop) (t : Thread) : Prop where
  control : t.control.Within allowed
  frames : ∀ frame ∈ t.frames, frame.Within allowed
  entries : ∀ kind, ∀ p ∈ (t.machine.lane kind).entries, p.Within allowed

/-- The entry on top ends with a flow. -/
structure Ends (t : Thread) (kind : LaneKind) (index : Nat) (flow : Flow) (u : Thread) : Prop where
  control : t.control = .program (.finish flow)
  frames : t.frames = .entry kind index :: u.frames
  machine : u.machine = t.machine.conclude kind index flow

/-- The guard on top has caught a panic. -/
def Catches (t u : Thread) : Prop :=
  ∃ payload handler frames, t.control = .unwind payload ∧ t.frames = .guard handler :: frames ∧
    u = ⟨.program (handler (.ofPanic payload)), frames, t.machine.caught (.ofPanic payload)⟩

variable {t u : Thread}

/-! ## One step -/

/-- What a program does next is allowed, and what waits then too. -/
theorem programStep_within {p : Program} (hp : p.Within allowed) {frames : List Frame}
    (hf : ∀ frame ∈ frames, frame.Within allowed) (m : Machine) :
    (programStep frames m p).control.Within allowed ∧
      ∀ frame ∈ (programStep frames m p).frames, frame.Within allowed := by
  cases p with
  | finish flow =>
    cases frames with
    | nil => exact ⟨trivial, hf⟩
    | cons frame frames =>
      cases frame with
      | entry kind index =>
        have htail : ∀ frame ∈ frames, frame.Within allowed := fun f h => hf f (List.mem_cons_of_mem _ h)
        cases flow <;> exact ⟨trivial, htail⟩
      | _ => exact ⟨trivial, hf⟩
  | panic payload => exact ⟨trivial, hf⟩
  | look next => exact ⟨hp _, hf⟩
  | drive d next => exact ⟨trivial, List.forall_mem_cons.2 ⟨hp.2, hf⟩⟩
  | note script action reply next => exact ⟨hp, hf⟩
  | log r next => exact ⟨hp, hf⟩
  | readFile path next => exact ⟨hp.2 _, hf⟩
  | count counter next => exact ⟨hp.2 _, hf⟩
  | lengthOf list next => exact ⟨hp.2 _, hf⟩
  | _ => exact ⟨hp.2, hf⟩

theorem programStep_acts {p : Program} (hp : p.Within allowed) (frames : List Frame) (m : Machine) :
    (∃ kind index flow, Ends ⟨.program p, frames, m⟩ kind index flow (programStep frames m p)) ∨
      m.Acts allowed (programStep frames m p).machine := by
  cases p with
  | finish flow =>
    cases frames with
    | nil => exact .inr (.keep m)
    | cons frame frames =>
      cases frame with
      | entry kind index => cases flow <;> exact .inl ⟨kind, index, _, rfl, rfl, rfl⟩
      | _ => exact .inr (.keep m)
  | panic payload => exact .inr (.keep m)
  | look next => exact .inr (.keep m)
  | change c next => exact .inr (.apply m hp.1)
  | render r next => exact .inr (.render m hp.1)
  | recycle next => exact .inr (.recycle m hp.1)
  | drive d next => exact .inr (.keep m)
  | note script action reply next => exact .inr (.note m script action reply)
  | log r next => exact .inr (.log m r)
  | readFile path next => exact .inr (.readFile m hp.1)
  | count counter next => exact .inr (.world m _)
  | attach list entry next => exact .inr (.world m _)
  | lengthOf list next => exact .inr (.keep m)

/-- **A step does what is allowed**, or catches a panic. -/
theorem Within.step (h : t.Within allowed) (hs : t.step = some u) :
    (u.Within allowed ∧ ((∃ kind index entry, t.Starts kind index entry u) ∨
      (∃ kind index flow, t.Ends kind index flow u) ∨ t.machine.Acts allowed u.machine)) ∨ t.Catches u := by
  have hentries : ∀ kind, ∀ p ∈ (u.machine.lane kind).entries, p.Within allowed := fun kind p hp =>
    h.entries kind p (step_entries hs kind p hp)
  obtain ⟨control, frames, m⟩ := t
  obtain ⟨hc, hf, he⟩ := h
  have hkeep : m.Acts allowed m := .keep m
  cases control with
  | program p =>
    obtain rfl := Option.some.inj hs
    obtain ⟨hcontrol, hframes⟩ := programStep_within hc hf m
    exact .inl ⟨⟨hcontrol, hframes, hentries⟩, .inr (programStep_acts hc frames m)⟩
  | drive d =>
    cases d <;> obtain rfl := Option.some.inj hs
    · exact .inl ⟨⟨trivial, List.forall_mem_cons.2 ⟨trivial, hf⟩, hentries⟩, .inr (.inr hkeep)⟩
    · exact .inl ⟨⟨trivial, hf, hentries⟩, .inr (.inr hkeep)⟩
    · exact .inl ⟨⟨trivial, hf, hentries⟩, .inr (.inr hkeep)⟩
  | lane kind =>
    obtain rfl : laneStep kind frames m = u := Option.some.inj hs
    rcases laneStep_cases kind frames m with ⟨-, hstep⟩ | ⟨index, entry, hd, hn, hstep⟩ <;> rw [hstep] at hentries ⊢
    · exact .inl ⟨⟨trivial, hf, hentries⟩, .inr (.inr (.close m kind))⟩
    · have hentry := he kind entry (List.mem_of_getElem? (Lane.next?_eq_some hn).2.2)
      exact .inl ⟨⟨hentry, List.forall_mem_cons.2 ⟨trivial, hf⟩, hentries⟩, .inl ⟨kind, index, entry, rfl, hd, hn, rfl⟩⟩
  | idle =>
    cases frames with
    | nil => cases hs
    | cons frame frames =>
      obtain rfl := Option.some.inj hs
      obtain ⟨hframe, htail⟩ := List.forall_mem_cons.1 hf
      cases frame with
      | resume next => exact .inl ⟨⟨hframe, htail, hentries⟩, .inr (.inr hkeep)⟩
      | _ => exact .inl ⟨⟨trivial, htail, hentries⟩, .inr (.inr hkeep)⟩
  | unwind payload =>
    cases frames with
    | nil => cases hs
    | cons frame frames =>
      obtain rfl := Option.some.inj hs
      obtain ⟨-, htail⟩ := List.forall_mem_cons.1 hf
      cases frame with
      | guard handler => exact .inr ⟨payload, handler, frames, rfl, rfl, rfl⟩
      | _ => exact .inl ⟨⟨trivial, htail, hentries⟩, .inr (.inr hkeep)⟩

theorem Within.inWorld (h : t.Within allowed) (w : World) : (t.inWorld w).Within allowed :=
  ⟨h.control, h.frames, fun kind p hp => h.entries kind p (by cases kind <;> exact hp)⟩

/-! ## Any number of steps -/

/-- No run takes anything back from the journal. -/
theorem kept_journal : Kept fun m m' => m.journal <+: m'.journal where
  refl _ := List.prefix_refl _
  trans h h' := h.trans h'
  apply m c := by
    cases c with
    | write bytes => exact List.prefix_append _ _
    | _ => exact List.prefix_refl _
  render m r := by
    unfold Machine.render
    cases r.writeTo.run m.context.draft with
    | ok u draft => exact List.prefix_append _ _
    | error failure draft => exact (List.prefix_append m.journal _).trans (List.prefix_append _ _)
  recycle _ := List.prefix_append _ _
  report _ _ := List.prefix_append _ _
  world _ _ _ := List.prefix_refl _
  close m kind := by cases kind <;> exact List.prefix_refl _
  start {m kind index entry} _ := by cases kind <;> exact List.prefix_append _ _

theorem SharedSteps.journal_prefix (h : t.SharedSteps u) : t.machine.journal <+: u.machine.journal := by
  induction h with
  | refl => exact List.prefix_refl _
  | tail _ hs ih =>
    cases hs with
    | own hs => exact ih.trans (step_kept kept_journal (fun _ _ => List.prefix_append _ _) hs)
    | others w => exact ih

/-- A panic was caught on the way here. -/
def HasCaught (t : Thread) : Prop :=
  ∃ fault, .caught fault ∈ t.machine.journal

theorem hasCaught_iff : t.HasCaught ↔ t.machine.journal.faults ≠ [] := by
  constructor
  · rintro ⟨fault, hmem⟩
    exact List.ne_nil_of_mem (List.mem_filterMap.2 ⟨_, hmem, rfl⟩)
  · intro hne
    obtain ⟨fault, hfault⟩ := List.exists_mem_of_ne_nil _ hne
    obtain ⟨e, hmem, he⟩ := List.mem_filterMap.1 hfault
    cases e with
    | caught f => exact ⟨f, hmem⟩
    | _ => cases he

theorem SharedSteps.hasCaught (h : t.SharedSteps u) (ht : t.HasCaught) : u.HasCaught :=
  ht.imp fun _ hmem => h.journal_prefix.subset hmem

theorem Catches.hasCaught (h : t.Catches u) : u.HasCaught := by
  obtain ⟨payload, handler, frames, -, -, rfl⟩ := h
  exact ⟨_, List.mem_append_right _ List.mem_cons_self⟩

/-- **What starts, ends and allowed changes keep holds until a panic is caught.** -/
theorem Within.keeps {P : Machine → Prop} (hacts : ∀ {m m'}, Machine.Acts allowed m m' → P m → P m')
    (hstart : ∀ {m kind index entry}, m.context.draft.done = false → (m.lane kind).next? = some (index, entry) → P m →
      P (m.start kind index))
    (hend : ∀ {m} kind index flow, P m → P (m.conclude kind index flow)) (ht : t.Within allowed) (hP : P t.machine)
    (h : t.SharedSteps u) : u.HasCaught ∨ (u.Within allowed ∧ P u.machine) := by
  induction h with
  | refl => exact .inr ⟨ht, hP⟩
  | tail _ hs ih =>
    rcases ih with hcaught | ⟨hwithin, hP⟩
    · exact .inl (SharedSteps.hasCaught (.single hs) hcaught)
    · cases hs with
      | own hs =>
        rcases hwithin.step hs with ⟨hwithin', hcases⟩ | hcatch
        · refine .inr ⟨hwithin', ?_⟩
          rcases hcases with ⟨kind, index, entry, hst⟩ | ⟨kind, index, flow, hst⟩ | hst
          · rw [hst.result]
            exact hstart hst.running hst.next hP
          · rw [hst.machine]
            exact hend kind index flow hP
          · exact hacts hst hP
        · exact .inl hcatch.hasCaught
      | others w => exact .inr ⟨hwithin.inWorld w, hacts (.world _ w) hP⟩

end Thread

/-! ## What lasts -/

/-- What entries can change of a context only by recycling it. -/
structure Context.Lasting {β : Type} (f : Context → β) : Prop where
  apply : ∀ (c : Context) change, f (c.apply change) = f c
  draft : ∀ (c : Context) draft, f { c with draft } = f c

variable {β : Type} {f : Context → β}

/-- A run keeps what lasts, unless it recycles the context. -/
theorem kept_lasting (hf : Context.Lasting f) : Kept fun m m' =>
    m.journal <+: m'.journal ∧ (.recycled ∈ m'.journal ∨ f m'.context = f m.context) where
  refl m := ⟨Thread.kept_journal.refl m, .inr rfl⟩
  trans := by
    rintro a b c ⟨hab, hb⟩ ⟨hbc, hc⟩
    refine ⟨hab.trans hbc, ?_⟩
    rcases hc with hc | hc
    · exact .inl hc
    · exact hb.imp (fun hb => hbc.subset hb) fun hb => hc.trans hb
  apply m c := by
    have hcontext : (m.apply c).context = m.context.apply c := by cases c <;> rfl
    exact ⟨Thread.kept_journal.apply m c, .inr (by rw [hcontext, hf.apply])⟩
  render m r := by
    refine ⟨Thread.kept_journal.render m r, .inr ?_⟩
    unfold Machine.render
    cases r.writeTo.run m.context.draft <;> exact hf.draft m.context _
  recycle m := ⟨Thread.kept_journal.recycle m, .inl (List.mem_append_right _ List.mem_cons_self)⟩
  report m e := ⟨Thread.kept_journal.report m e, .inr rfl⟩
  world m w hw := ⟨Thread.kept_journal.world m w hw, .inr rfl⟩
  close m kind := ⟨Thread.kept_journal.close m kind, .inr (by cases kind <;> rfl)⟩
  start {m kind index entry} hn := ⟨Thread.kept_journal.start hn, .inr (by cases kind <;> rfl)⟩

theorem Thread.SharedSteps.lasting (hf : Context.Lasting f) {t u : Thread} (h : t.SharedSteps u) :
    .recycled ∈ u.machine.journal ∨ f u.machine.context = f t.machine.context := by
  have hkept : t.machine.journal <+: u.machine.journal ∧
      (.recycled ∈ u.machine.journal ∨ f u.machine.context = f t.machine.context) := by
    induction h with
    | refl => exact (kept_lasting hf).refl _
    | tail _ hs ih =>
      cases hs with
      | own hs =>
        refine (kept_lasting hf).trans ih (Thread.step_kept (kept_lasting hf) (fun m fault => ?_) hs)
        exact ⟨List.prefix_append _ _, .inr (hf.draft m.context _)⟩
      | others w => exact ih
  exact hkept.2

end Switchyard
