import Switchyard.Proofs.Chain.Deeds
import Switchyard.Proofs.Response.Payload
import Switchyard.Proofs.Server.Dispatch

/-!
# Entries that answer

The entries of a chain that keep off the draft have a part in the response only through the responders they return.
Until a panic is caught,

- the responders written are those returned, in order, the body is their payloads one after the other, and the response
  is done once there is one (`Machine.AnswersOnly`, `answersOnly`);
- a second one is written where an entry returns a responder although the response is done, and only there
  (`rendered_twice_iff`). This can be an entry that has driven the chain, from within which the first one came
  (`rendered_twice`).
-/

namespace Switchyard

/-- The responder that an event tells was written. -/
def Event.rendered? : Event → Option Responder
  | .rendered r _ => some r
  | _ => none

/-- The responder that an entry ends with. -/
def Event.answer? : Event → Option Responder
  | .finished _ _ (.respond r) => some r
  | _ => none

/-- The responders that were written, the first in front. -/
def Journal.rendered (j : Journal) : List Responder :=
  j.filterMap Event.rendered?

/-- The responders that entries have returned, the first in front. -/
def Journal.answers (j : Journal) : List Responder :=
  j.filterMap Event.answer?

/-- The change leaves every draft alone. -/
def Context.Change.OffDraft (change : Context.Change) : Prop :=
  ∀ c : Context, (c.apply change).draft = c.draft

/-- The deed leaves the draft alone. -/
def Deed.OffDraft : Deed → Prop
  | .change c => c.OffDraft
  | .render _ => False
  | .recycle => False
  | _ => True

namespace Machine

/-- Only what entries have returned was written. -/
structure AnswersOnly (m : Machine) : Prop where
  body : m.context.draft.body = m.journal.rendered.flatMap Responder.payload
  done : m.context.draft.done = true ↔ m.journal.rendered ≠ []
  answers : m.journal.rendered = m.journal.answers

variable {m m' : Machine} {allowed : Deed → Prop}

/-! ## What is written in one step -/

theorem rendered_report (m : Machine) (e : Event) :
    (m.report e).journal.rendered = m.journal.rendered ++ e.rendered?.toList :=
  filterMap_report _ m e

theorem draft_respond (m : Machine) (kind : LaneKind) (index : Nat) (r : Responder) :
    (m.conclude kind index (.respond r)).context.draft = (r.writeTo.after m.context.draft).markDone := by
  refine Eq.trans ?_ (draft_render (m.report (.finished kind index (.respond r))) r)
  cases kind <;> rfl

/-- What is returned and can be written is written as a whole. -/
theorem carries_conclude {r : Responder} (h : r.flaw? = none) (m : Machine) (kind : LaneKind) (index : Nat) :
    m.context.draft.Carries r.code r.content (m.conclude kind index (.respond r)).context.draft := by
  rw [draft_respond]
  exact (r.renders_writeTo.after_carries h m.context.draft).markDone

theorem rendered_render (m : Machine) (r : Responder) : (m.render r).journal.rendered = m.journal.rendered ++ [r] := by
  unfold render
  cases r.writeTo.run m.context.draft with
  | ok u draft => exact rendered_report _ (.rendered r none)
  | error failure draft =>
    refine (rendered_report (m.report (.logged _)) (.rendered r (some failure))).trans ?_
    rw [rendered_report, show Event.rendered? (.logged _) = none from rfl, Option.toList_none, List.append_nil]
    rfl

/-- What an entry returns is written as it ends. -/
theorem rendered_conclude (m : Machine) (kind : LaneKind) (index : Nat) (flow : Flow) :
    (m.conclude kind index flow).journal.rendered =
      m.journal.rendered ++ (Event.finished kind index flow).answer?.toList := by
  have hfinished : (m.report (.finished kind index flow)).journal.rendered = m.journal.rendered :=
    (rendered_report m _).trans (List.append_nil _)
  cases flow with
  | proceed => exact hfinished.trans (List.append_nil _).symm
  | respond r =>
    have hrender := rendered_render (m.report (.finished kind index (.respond r))) r
    rw [hfinished] at hrender
    cases kind <;> exact hrender
  | stop => cases kind <;> exact hfinished.trans (List.append_nil _).symm

theorem answers_conclude (m : Machine) (kind : LaneKind) (index : Nat) (flow : Flow) :
    (m.conclude kind index flow).journal.answers =
      m.journal.answers ++ (Event.finished kind index flow).answer?.toList :=
  filterMap_conclude (fun _ he => by cases he <;> rfl) m kind index flow

/-! ## What is kept -/

/-- A machine with the same draft on which nothing new was returned or written. -/
theorem AnswersOnly.congr (h : m.AnswersOnly) (hdraft : m'.context.draft = m.context.draft)
    (hrendered : m'.journal.rendered = m.journal.rendered) (hanswers : m'.journal.answers = m.journal.answers) :
    m'.AnswersOnly where
  body := by rw [hdraft, hrendered, h.body]
  done := by rw [hdraft, hrendered, h.done]
  answers := by rw [hrendered, hanswers, h.answers]

theorem AnswersOnly.start (h : m.AnswersOnly) (kind : LaneKind) (index : Nat) : (m.start kind index).AnswersOnly := by
  have hdraft : (m.start kind index).context.draft = m.context.draft := by cases kind <;> rfl
  exact h.congr hdraft ((filterMap_start _ m kind index).trans (List.append_nil _))
    ((filterMap_start _ m kind index).trans (List.append_nil _))

theorem Acts.rendered (h : m.Acts Deed.OffDraft m') : m'.journal.rendered = m.journal.rendered :=
  h.filterMap fun _ he => by
    cases he with
    | rendered h => exact h.elim
    | _ => rfl

theorem Acts.answers (h : m.Acts allowed m') : m'.journal.answers = m.journal.answers :=
  h.filterMap fun _ he => by cases he <;> rfl

theorem Acts.draft (h : m.Acts Deed.OffDraft m') : m'.context.draft = m.context.draft := by
  cases h with
  | @apply c h =>
    have := h m.context
    cases c <;> exact this
  | render h => exact h.elim
  | recycle h => exact h.elim
  | close kind => cases kind <;> rfl
  | _ => rfl

/-- **An answer is written behind what was written before.** -/
theorem AnswersOnly.conclude (h : m.AnswersOnly) (kind : LaneKind) (index : Nat) (flow : Flow) :
    (m.conclude kind index flow).AnswersOnly := by
  have hanswers : (m.conclude kind index flow).journal.rendered = (m.conclude kind index flow).journal.answers := by
    rw [rendered_conclude, answers_conclude, h.answers]
  have hrendered := rendered_conclude m kind index flow
  have hother : Event.answer? (.finished kind index flow) = none →
      (m.conclude kind index flow).context.draft = m.context.draft → (m.conclude kind index flow).AnswersOnly := by
    intro hnone hdraft
    rw [hnone, Option.toList_none, List.append_nil] at hrendered
    exact ⟨by rw [hdraft, hrendered, h.body], by rw [hdraft, hrendered, h.done], hanswers⟩
  cases flow with
  | proceed => exact hother rfl rfl
  | stop => exact hother rfl (by cases kind <;> rfl)
  | respond r =>
    have hdraft := m.draft_respond kind index r
    have hsome : m.journal.rendered ++ (Event.finished kind index (.respond r)).answer?.toList =
        m.journal.rendered ++ [r] := rfl
    refine ⟨?_, ?_, hanswers⟩
    · rw [hdraft, hrendered, hsome, List.flatMap_append, ← h.body]
      exact (r.body_writeTo m.context.draft).trans (by simp)
    · rw [hdraft, hrendered, hsome]
      simp [Draft.markDone]

end Machine

/-! ## A second answer -/

namespace Thread

/-- An entry is about to end with a responder. -/
def Answers (t : Thread) : Prop :=
  ∃ r kind index frames, t.control = .program (.finish (.respond r)) ∧ t.frames = .entry kind index :: frames

variable {t u : Thread}

theorem Answers.rendered_step (h : t.Answers) (hs : t.step = some u) :
    ∃ r, u.machine.journal.rendered = t.machine.journal.rendered ++ [r] := by
  obtain ⟨control, frames, m⟩ := t
  obtain ⟨r, kind, index, rest, hcontrol, hframes⟩ := h
  obtain rfl : control = .program (.finish (.respond r)) := hcontrol
  obtain rfl : frames = .entry kind index :: rest := hframes
  obtain rfl := Option.some.inj hs
  exact ⟨r, Machine.rendered_conclude m kind index (.respond r)⟩

/-- **Only an answer is written**, in a step of entries that keep off the draft, until a panic is caught. -/
theorem Within.rendered_step (h : t.Within Deed.OffDraft) (hs : t.step = some u) :
    u.machine.journal.rendered = t.machine.journal.rendered ∨ t.Answers ∨ t.Catches u := by
  rcases h.step hs with ⟨-, ⟨kind, index, entry, hst⟩ | ⟨kind, index, flow, hst⟩ | hst⟩ | hcatch
  · left
    rw [hst.result]
    exact (Machine.filterMap_start _ t.machine kind index).trans (List.append_nil _)
  · have hrendered := Machine.rendered_conclude t.machine kind index flow
    rw [← hst.machine] at hrendered
    cases flow with
    | respond r => exact .inr (.inl ⟨r, kind, index, u.frames, hst.control, hst.frames⟩)
    | _ => exact .inl (hrendered.trans (List.append_nil _))
  · exact .inl hst.rendered
  · exact .inr (.inr hcatch)

end Thread

namespace Server

theorem poise_answersOnly (s : Server) (n : Nat) (r : Request) : (s.poise (.withCapacity n) r).AnswersOnly := by
  obtain ⟨headers, hdraft⟩ := s.poise_draft (.withCapacity n) r
  have hdone : (s.poise (.withCapacity n) r).context.draft.done = false := by rw [hdraft]; rfl
  have hrendered : (s.poise (.withCapacity n) r).journal.rendered = [] := poise_filterMap (fun _ _ _ => rfl) s _ r
  have hanswers : (s.poise (.withCapacity n) r).journal.answers = [] := poise_filterMap (fun _ _ _ => rfl) s _ r
  exact ⟨by rw [hdraft, hrendered]; rfl, by simp [hdone, hrendered], by rw [hrendered, hanswers]⟩

variable {s : Server} {r : Request}

theorem depart_within {allowed : Deed → Prop} (k : Carrier) (h : ∀ kind, ∀ p ∈ s.chainFor r kind, p.Within allowed) :
    (s.depart k r).thread.Within allowed where
  control := trivial
  frames := by
    intro frame hframe
    have hguards : frame ∈ s.guards := hframe
    unfold guards at hguards
    split at hguards
    · obtain rfl := List.mem_singleton.1 hguards
      exact trivial
    · cases hguards
  entries kind p hp := by
    refine h kind p ?_
    have hlane : p ∈ ((s.poise k r).lane kind).entries := hp
    rwa [poise_lane_eq] at hlane

/-- **Entries that keep off the draft answer with what they return**, until a panic is caught. -/
theorem answersOnly (h : ∀ kind, ∀ p ∈ s.chainFor r kind, p.Within Deed.OffDraft) {n : Nat} {t : Thread}
    (ht : (s.depart (.withCapacity n) r).thread.SharedSteps t) (hc : ¬ t.HasCaught) :
    t.Within Deed.OffDraft ∧ t.machine.AnswersOnly :=
  (Thread.Within.keeps (P := Machine.AnswersOnly) (fun hacts hm => hm.congr hacts.draft hacts.rendered hacts.answers)
    (fun _ _ hm => hm.start _ _) (fun kind index flow hm => hm.conclude kind index flow)
    (depart_within _ h) (s.poise_answersOnly n r) ht).resolve_left hc

/-- Where two responders were written, an entry has returned one although the response was done. -/
theorem exists_second_answer (h : ∀ kind, ∀ p ∈ s.chainFor r kind, p.Within Deed.OffDraft) {n : Nat} {t : Thread}
    (ht : (s.depart (.withCapacity n) r).thread.SharedSteps t) (hc : ¬ t.HasCaught)
    (htwo : 2 ≤ t.machine.journal.rendered.length) :
    ∃ u v, (s.depart (.withCapacity n) r).thread.SharedSteps u ∧ u.Answers ∧
      u.machine.context.draft.done = true ∧ u.step = some v ∧ v.SharedSteps t := by
  induction ht with
  | refl =>
    have hnone : (s.depart (.withCapacity n) r).thread.machine.journal.rendered = [] :=
      poise_filterMap (fun _ _ _ => rfl) s _ r
    rw [hnone] at htwo
    cases htwo
  | @tail u t hu hs ih =>
    have hcu : ¬ u.HasCaught := fun hcaught => hc (Thread.SharedSteps.hasCaught (.single hs) hcaught)
    obtain ⟨hwithin, honly⟩ := answersOnly h hu hcu
    -- either there were two before, or this step has written the second
    have hbefore : t.machine.journal.rendered = u.machine.journal.rendered →
        ∃ u' v, (s.depart (.withCapacity n) r).thread.SharedSteps u' ∧ u'.Answers ∧
          u'.machine.context.draft.done = true ∧ u'.step = some v ∧ v.SharedSteps t := by
      intro heq
      obtain ⟨u', v, hu', hanswers, hdone, hstep, hv⟩ := ih hcu (heq ▸ htwo)
      exact ⟨u', v, hu', hanswers, hdone, hstep, hv.tail hs⟩
    cases hs with
    | others w => exact hbefore rfl
    | own hs =>
      rcases hwithin.rendered_step hs with hsame | hanswers | hcatch
      · exact hbefore hsame
      · obtain ⟨answer, hrendered⟩ := hanswers.rendered_step hs
        rw [hrendered, List.length_append, List.length_singleton] at htwo
        have hone : u.machine.journal.rendered ≠ [] := List.length_pos_iff.1 (Nat.le_of_succ_le_succ htwo)
        exact ⟨u, t, hu, hanswers, honly.done.2 hone, hs, .refl⟩
      · exact absurd hcatch.hasCaught hc

/-- **A second responder is written exactly where an entry returns one although the response is done**, in a chain whose
entries keep off the draft. Until a panic is caught, the responders written are those returned, and their payloads make
up the body. -/
theorem rendered_twice_iff (h : ∀ kind, ∀ p ∈ s.chainFor r kind, p.Within Deed.OffDraft) {n : Nat} {t : Thread}
    (ht : (s.depart (.withCapacity n) r).thread.SharedSteps t) (hc : ¬ t.HasCaught) :
    t.machine.context.draft.body = t.machine.journal.rendered.flatMap Responder.payload ∧
      t.machine.journal.rendered = t.machine.journal.answers ∧
      (2 ≤ t.machine.journal.rendered.length ↔
        ∃ u v, (s.depart (.withCapacity n) r).thread.SharedSteps u ∧ u.Answers ∧
          u.machine.context.draft.done = true ∧ u.step = some v ∧ v.SharedSteps t) := by
  obtain ⟨-, honly⟩ := answersOnly h ht hc
  refine ⟨honly.body, honly.answers, exists_second_answer h ht hc, ?_⟩
  rintro ⟨u, v, hu, hanswers, hdone, hstep, hv⟩
  have hcu : ¬ u.HasCaught := fun hcaught =>
    hc (hv.hasCaught (Thread.SharedSteps.hasCaught (.single (.own hstep)) hcaught))
  have hfirst := List.length_pos_iff.2 ((answersOnly h hu hcu).2.done.1 hdone)
  obtain ⟨answer, hsecond⟩ := hanswers.rendered_step hstep
  have hle : v.machine.journal.rendered.length ≤ t.machine.journal.rendered.length :=
    (hv.journal_prefix.filterMap Event.rendered?).length_le
  rw [hsecond, List.length_append, List.length_singleton] at hle
  omega

/-- A server whose middleware drives the chain and then returns a responder, as the handler has done within it. -/
def echoing : Server :=
  { Server.new {} .empty with
    world := { lists := [[.drive .all (.respond (.text "twice"))]] }
    router := ((Router.new {}).insert "" .get ⟨"/", "/", []⟩ ⟨0, [.respond (.text "twice")]⟩).2 }

theorem echoing_offDraft : ∀ kind, ∀ p ∈ echoing.chainFor entangledRequest kind, p.Within Deed.OffDraft := by
  intro kind p hp
  cases kind with
  | middleware =>
    obtain rfl := List.mem_singleton.1 (show p ∈ [Program.drive .all (.respond (.text "twice"))] from hp)
    exact ⟨trivial, trivial⟩
  | handlers =>
    obtain rfl := List.mem_singleton.1 (show p ∈ [Program.respond (.text "twice")] from hp)
    exact trivial

/-- The middleware returns its responder when the handler's has been written. -/
theorem rendered_twice_iff_echoing :
    ∃ t, (echoing.depart (.withCapacity 0) entangledRequest).thread.SharedSteps t ∧ t.step = none ∧
      t.machine.context.draft.body = t.machine.journal.rendered.flatMap Responder.payload ∧
      t.machine.journal.rendered = t.machine.journal.answers ∧
      ∃ u v, (echoing.depart (.withCapacity 0) entangledRequest).thread.SharedSteps u ∧ u.Answers ∧
        u.machine.context.draft.done = true ∧ u.step = some v ∧ v.SharedSteps t := by
  have ht := (echoing.steps_dispatch (echoing.poise (.withCapacity 0) entangledRequest)).shared
  have hc : ¬ (Thread.ended [] (echoing.dispatch (echoing.poise (.withCapacity 0) entangledRequest))).HasCaught :=
    fun hcaught => Thread.hasCaught_iff.1 hcaught rfl
  obtain ⟨hbody, hanswers, htwice⟩ := rendered_twice_iff echoing_offDraft ht hc
  exact ⟨_, ht, Thread.step_ended _, hbody, hanswers, htwice.1 (by decide +kernel)⟩

/-- Entries that do nothing but drive the chain and return a responder make two responders into one body. -/
theorem rendered_twice :
    (∀ kind, ∀ p ∈ echoing.chainFor entangledRequest kind, p.Within Deed.OffDraft) ∧
      ∃ t, (echoing.depart (.withCapacity 0) entangledRequest).thread.Steps t ∧ t.step = none ∧
        t.machine.journal.rendered = [.text "twice", .text "twice"] ∧
        t.machine.context.draft.body = Text.Utf8.encode "twicetwice".toList :=
  ⟨echoing_offDraft, _, echoing.steps_dispatch (echoing.poise (.withCapacity 0) entangledRequest),
    Thread.step_ended _, rfl, by decide +kernel⟩

end Server

end Switchyard
