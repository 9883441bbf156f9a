import Switchyard.Proofs.Chain.Deeds
import Switchyard.Proofs.Chain.Halt

/-!
# Entries that stop

An entry that stops leaves the context as it is. It closes the handlers, and a middleware closes its own lane too; a
handler leaves the middleware as they are.

- so the machine is halted after a middleware has stopped, and after a handler has where the middleware are closed
  already or the response is done (`halted_stop`);
- middleware are closed whenever a handler is underway, unless one of them drives the handlers apart from itself
  (`Deed.Forward`, `SharedSteps.closed_of_handler`).
-/

namespace Switchyard

namespace Machine

theorem context_stop (m : Machine) (kind : LaneKind) (index : Nat) :
    (m.conclude kind index .stop).context = m.context := by
  cases kind <;> rfl

/-- Whoever stops closes the handlers. -/
theorem handlers_stop (m : Machine) (kind : LaneKind) (index : Nat) :
    ((m.conclude kind index .stop).lane .handlers).isOpen = false := by
  cases kind <;> rfl

theorem halted_stop {m : Machine} {kind : LaneKind} (index : Nat) (h : kind = .middleware ∨
    m.context.draft.done = true ∨ (m.lane .middleware).isOpen = false) : (m.conclude kind index .stop).Halted := by
  have hturn : m.Turns (m.conclude kind index .stop) := .conclude m kind index .stop
  rcases h with rfl | hdone | hclosed
  · exact m.conclude_halted .middleware index trivial
  · exact hturn.keeps_done hdone
  · exact .inr (.of_lanes (hturn.closed hclosed) (m.handlers_stop kind index))

end Machine

/-! ## Middleware before handlers -/

/-- Anything but driving the handlers apart from the middleware. -/
def Deed.Forward (d : Deed) : Prop :=
  d ≠ .drive .handlers

mutual

/-- Frames above which middleware may be driven: those of middleware that wait for that. -/
inductive Frame.Waiting (base : List Frame) : List Frame → Prop where
  | base : Waiting base base
  | resume {next : Program} {frames : List Frame} (index : Nat) (hp : next.Within Deed.Forward) (h : Driven base frames) :
    Waiting base (.resume next :: .entry .middleware index :: frames)

/-- Frames right above which middleware are driven, maybe with the handlers to follow. -/
inductive Frame.Driven (base : List Frame) : List Frame → Prop where
  | apart {frames : List Frame} (h : Waiting base frames) : Driven base frames
  | first {frames : List Frame} (h : Waiting base frames) : Driven base (.lane .handlers :: frames)

end

namespace Thread

/-- Where a thread is while its middleware are driven. -/
inductive AtMiddleware (base : List Frame) : Thread → Prop where
  | drive {d : Drive} {frames : List Frame} (m : Machine) (hd : d ≠ .handlers) (h : Frame.Waiting base frames) :
    AtMiddleware base ⟨.drive d, frames, m⟩
  | lane {frames : List Frame} (m : Machine) (h : Frame.Driven base frames) :
    AtMiddleware base ⟨.lane .middleware, frames, m⟩
  | program {p : Program} {frames : List Frame} (index : Nat) (m : Machine) (hp : p.Within Deed.Forward)
    (h : Frame.Driven base frames) : AtMiddleware base ⟨.program p, .entry .middleware index :: frames, m⟩
  | unwind (payload : Panic) (frames : List Frame) (m : Machine) : AtMiddleware base ⟨.unwind payload, frames, m⟩

variable {base : List Frame} {t u : Thread}

/-- Until the middleware are closed, a step of theirs leads to one of theirs. -/
theorem AtMiddleware.step (h : AtMiddleware base t)
    (hentries : ∀ p ∈ (t.machine.lane .middleware).entries, p.Within Deed.Forward) (hs : t.step = some u) :
    AtMiddleware base u ∨ (u.machine.lane .middleware).isOpen = false := by
  cases h with
  | @drive d frames m hd h =>
    cases d with
    | all => obtain rfl := Option.some.inj hs; exact .inl (.lane m (.first h))
    | middleware => obtain rfl := Option.some.inj hs; exact .inl (.lane m (.apart h))
    | handlers => exact absurd rfl hd
  | @lane frames m h =>
    obtain rfl : laneStep .middleware frames m = u := Option.some.inj hs
    rcases laneStep_cases .middleware frames m with ⟨-, hstep⟩ | ⟨index, entry, -, hn, hstep⟩ <;> rw [hstep]
    · exact .inr (m.isOpen_close .middleware)
    · exact .inl (.program index _ (hentries entry (List.mem_of_getElem? (Lane.next?_eq_some hn).2.2)) h)
  | @program p frames index m hp h =>
    obtain rfl := Option.some.inj hs
    cases p with
    | finish flow =>
      cases flow with
      | proceed => exact .inl (.lane _ h)
      | respond r => exact .inr (Machine.isOpen_close _ .middleware)
      | stop => exact .inr (Machine.isOpen_close _ .middleware)
    | panic payload => exact .inl (.unwind payload _ m)
    | look next => exact .inl (.program index m (hp _) h)
    | drive d next =>
      have hd : d ≠ .handlers := fun he => hp.1 (he ▸ rfl)
      exact .inl (.drive m hd (.resume index hp.2 h))
    | note script action reply next => exact .inl (.program index _ hp h)
    | log r next => exact .inl (.program index _ hp h)
    | readFile path next => exact .inl (.program index _ (hp.2 _) h)
    | count counter next => exact .inl (.program index _ (hp.2 _) h)
    | lengthOf list next => exact .inl (.program index m (hp.2 _) h)
    | _ => exact .inl (.program index _ hp.2 h)
  | unwind payload frames m =>
    cases frames with
    | nil => cases hs
    | cons frame frames =>
      obtain rfl := Option.some.inj hs
      cases frame with
      | guard handler => exact .inr (m.isOpen_halt .middleware)
      | _ => exact .inl (.unwind payload frames m)

theorem AtMiddleware.inWorld (h : AtMiddleware base t) (w : World) : AtMiddleware base (t.inWorld w) := by
  cases h with
  | drive m hd h => exact .drive _ hd h
  | lane m h => exact .lane _ h
  | program index m hp h => exact .program index _ hp h
  | unwind payload frames m => exact .unwind payload frames _

/-- A lane holds no other entries than it was opened with. -/
theorem SharedSteps.entries (h : t.SharedSteps u) (kind : LaneKind) :
    ∀ p ∈ (u.machine.lane kind).entries, p ∈ (t.machine.lane kind).entries := by
  induction h with
  | refl => exact fun _ hp => hp
  | tail _ hs ih =>
    intro p hp
    cases hs with
    | own hs => exact ih p (step_entries hs kind p hp)
    | others w => exact ih p (by cases kind <;> exact hp)

/-- **A handler is underway only once the middleware are closed**, if none of them drives the handlers apart. -/
theorem SharedSteps.closed_of_handler {m : Machine} (hm : ∀ p ∈ (m.lane .middleware).entries, p.Within Deed.Forward)
    (h : SharedSteps ⟨.drive .all, base, m⟩ t) {p : Program} {index : Nat} {frames : List Frame}
    (hc : t.control = .program p) (hf : t.frames = .entry .handlers index :: frames) :
    (t.machine.lane .middleware).isOpen = false := by
  have hat : AtMiddleware base t ∨ (t.machine.lane .middleware).isOpen = false := by
    clear hc hf
    induction h with
    | refl => exact .inl (.drive m (by decide) .base)
    | @tail u v hsteps hs ih =>
      rcases ih with hat | hclosed
      · cases hs with
        | own hs => exact hat.step (fun p hp => hm p (SharedSteps.entries hsteps .middleware p hp)) hs
        | others w => exact .inl (hat.inWorld w)
      · exact .inr (SharedSteps.starts_lane (.single hs) hclosed).1
  rcases hat with hat | hclosed
  · cases hat with
    | program => cases hf
    | _ => cases hc
  · exact hclosed

end Thread

end Switchyard
