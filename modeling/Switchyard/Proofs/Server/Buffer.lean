import Mathlib.Data.List.DropRight
import Switchyard.Proofs.Server.Answers

/-!
# The buffered body

Whatever entries and panic handlers do, the response in the making is consistent at every moment of a dispatch. What was
written and rendered is told by the journal, and so is what drops the response: a caught panic, or recycling the context.

- a step drops the whole response, or adds to the body what it tells it has added (`Turns.fills`); so the counter is the
  length of the body, a body that is not empty is done, and the body is what was added since the response was dropped last
  (`Machine.Buffered`, `SharedSteps.buffered`);
- what is done stays done until the response is dropped (`SharedSteps.done`);
- the body of the answer is what was added since then (`Server.body_buffered`).
-/

namespace Switchyard

open Http (Method)

/-! ## What the journal tells of the response -/

/-- The event tells that the response so far was dropped. -/
def Event.drops : Event → Bool
  | .caught _ => true
  | .recycled => true
  | _ => false

/-- The bytes that an event tells were added to the body. -/
def Event.bytes : Event → List UInt8
  | .wrote bytes => bytes
  | .rendered r none => r.content
  | _ => []

/-- The bytes that were added to the body since the response was dropped last, in order. -/
def Journal.buffered (j : Journal) : List UInt8 :=
  (j.rtakeWhile fun e => !e.drops).flatMap Event.bytes

namespace Journal

theorem buffered_append (j : Journal) {es : List Event} (h : ∀ e ∈ es, e.drops = false) :
    buffered (j ++ es) = j.buffered ++ es.flatMap Event.bytes := by
  have hkept : (j ++ es).rtakeWhile (fun e => !e.drops) = j.rtakeWhile (fun e => !e.drops) ++ es := by
    rw [List.rtakeWhile, List.reverse_append, List.takeWhile_append_of_pos, List.reverse_append, List.reverse_reverse]
    · rfl
    · intro e he
      rw [h e (List.mem_reverse.1 he)]
      rfl
  rw [buffered, hkept, List.flatMap_append]
  rfl

/-- What is reported of a request tells nothing of the response. -/
theorem buffered_reported (j : Journal) (summary? : Option Summary) :
    buffered (j ++ (summary?.map Event.reported).toList) = j.buffered := by
  cases summary? with
  | none => exact congrArg buffered (List.append_nil j)
  | some summary => exact (j.buffered_append (List.forall_mem_singleton.2 rfl)).trans (List.append_nil _)

theorem buffered_drops (j : Journal) {e : Event} (h : e.drops = true) : buffered (j ++ [e]) = [] := by
  rw [buffered, List.rtakeWhile_concat, h]
  rfl

end Journal

/-! ## What a step does to the response -/

namespace Machine

variable {m m' m'' : Machine} {es es' : List Event}

/-- The events are told, and the bytes that they tell of are added to the body. -/
structure Fills (m m' : Machine) (es : List Event) : Prop where
  journal : m'.journal = m.journal ++ es
  kept : ∀ e ∈ es, e.drops = false
  body : m'.context.draft.body = m.context.draft.body ++ es.flatMap Event.bytes
  bytesWritten : m'.context.draft.bytesWritten = m.context.draft.bytesWritten + (es.flatMap Event.bytes).length
  done : m.context.draft.done = true → m'.context.draft.done = true
  filled : es.flatMap Event.bytes ≠ [] → m'.context.draft.done = true

/-- The whole response is dropped, and this is told. -/
def Drops (m m' : Machine) : Prop :=
  m'.context.draft = {} ∧ ∃ e : Event, e.drops = true ∧ m'.journal = m.journal ++ [e]

namespace Fills

/-- Events that tell nothing of the response, and a body that is as it was. -/
theorem quiet (hjournal : m'.journal = m.journal ++ es) (hes : ∀ e ∈ es, e.drops = false ∧ e.bytes = [])
    (hbody : m'.context.draft.body = m.context.draft.body)
    (hbytes : m'.context.draft.bytesWritten = m.context.draft.bytesWritten)
    (hdone : m.context.draft.done = true → m'.context.draft.done = true) : m.Fills m' es := by
  have hnone : es.flatMap Event.bytes = [] := List.flatMap_eq_nil_iff.2 fun e he => (hes e he).2
  refine ⟨hjournal, fun e he => (hes e he).1, ?_, ?_, hdone, fun hne => absurd hnone hne⟩
  · rw [hnone, hbody, List.append_nil]
  · rw [hnone, hbytes]
    rfl

/-- Nothing is told, and the response is as it was. -/
theorem same (hjournal : m'.journal = m.journal) (hdraft : m'.context.draft = m.context.draft) : m.Fills m' [] :=
  quiet (by rw [hjournal, List.append_nil]) (fun _ h => absurd h List.not_mem_nil) (by rw [hdraft]) (by rw [hdraft])
    (by rw [hdraft]; exact id)

theorem report (m : Machine) {e : Event} (hkept : e.drops = false) (hbytes : e.bytes = []) : m.Fills (m.report e) [e] :=
  quiet rfl (List.forall_mem_singleton.2 ⟨hkept, hbytes⟩) rfl rfl id

theorem trans (h : m.Fills m' es) (h' : m'.Fills m'' es') : m.Fills m'' (es ++ es') where
  journal := by rw [h'.journal, h.journal, List.append_assoc]
  kept e he := (List.mem_append.1 he).elim (h.kept e) (h'.kept e)
  body := by rw [h'.body, h.body, List.flatMap_append, List.append_assoc]
  bytesWritten := by rw [h'.bytesWritten, h.bytesWritten, List.flatMap_append, List.length_append, Nat.add_assoc]
  done hd := h'.done (h.done hd)
  filled hne := by
    by_cases hnil : es'.flatMap Event.bytes = []
    · rw [List.flatMap_append, hnil, List.append_nil] at hne
      exact h'.done (h.filled hne)
    · exact h'.filled hnil

/-- What is rendered is added as a whole, or nothing of it. -/
theorem render (m : Machine) (r : Responder) : ∃ es, m.Fills (m.render r) es := by
  unfold Machine.render
  cases hflaw : r.flaw? with
  | none =>
    obtain ⟨d, hrun, hcarries⟩ := r.renders_writeTo.writes hflaw m.context.draft
    have hbytes : [Event.rendered r none].flatMap Event.bytes = r.content := List.flatMap_singleton ..
    rw [hrun]
    exact ⟨[.rendered r none], rfl, List.forall_mem_singleton.2 rfl, hbytes ▸ hcarries.body,
      hbytes ▸ hcarries.bytesWritten, fun _ => rfl, fun _ => rfl⟩
  | some failure =>
    rw [r.renders_writeTo.fails failure hflaw]
    refine ⟨[.logged _, .rendered r (some failure)], quiet (List.append_assoc m.journal [_] [_]) ?_ rfl rfl fun _ => rfl⟩
    exact List.forall_mem_cons.2 ⟨⟨rfl, rfl⟩, List.forall_mem_singleton.2 ⟨rfl, rfl⟩⟩

theorem apply (m : Machine) (c : Context.Change) : ∃ es, m.Fills (m.apply c) es := by
  cases c with
  | write bytes =>
    have hbytes : [Event.wrote bytes].flatMap Event.bytes = bytes := List.flatMap_singleton ..
    refine ⟨[.wrote bytes], rfl, List.forall_mem_singleton.2 rfl, ?_, ?_, fun _ => rfl, fun _ => rfl⟩
    · rw [hbytes]
      rfl
    · rw [hbytes]
      rfl
  | _ =>
    exact ⟨[], quiet (List.append_nil _).symm (fun _ h => absurd h List.not_mem_nil) rfl rfl id⟩

theorem close (m : Machine) (kind : LaneKind) : m.Fills (m.close kind) [] := by
  cases kind <;> exact same rfl rfl

/-- An entry that ends adds what it returns. -/
theorem conclude (m : Machine) (kind : LaneKind) (index : Nat) (flow : Flow) :
    ∃ es, m.Fills (m.conclude kind index flow) es := by
  have hfinished : m.Fills (m.report (.finished kind index flow)) [_] := report m rfl rfl
  cases flow with
  | proceed => exact ⟨_, hfinished⟩
  | respond r =>
    obtain ⟨es, hrender⟩ := render (m.report (.finished kind index (.respond r))) r
    exact ⟨_, (hfinished.trans hrender).trans (close _ kind)⟩
  | stop =>
    cases kind with
    | middleware => exact ⟨_, (hfinished.trans (close _ .handlers)).trans (close _ .middleware)⟩
    | handlers => exact ⟨_, hfinished.trans (close _ .handlers)⟩

theorem start (m : Machine) (kind : LaneKind) (index : Nat) : ∃ es, m.Fills (m.start kind index) es := by
  have hadvanced : m.Fills (m.setLane kind (m.lane kind).advance) [] := by cases kind <;> exact same rfl rfl
  exact ⟨_, hadvanced.trans (report _ rfl rfl)⟩

end Fills

/-- **A turn drops the whole response, or adds to the body what it tells.** -/
theorem Turns.fills (h : m.Turns m') : m.Drops m' ∨ ∃ es, m.Fills m' es := by
  cases h with
  | keep => exact .inr ⟨[], .same rfl rfl⟩
  | apply c => exact .inr (Fills.apply m c)
  | render r => exact .inr (Fills.render m r)
  | recycle => exact .inl ⟨rfl, .recycled, rfl, rfl⟩
  | note script action reply => exact .inr ⟨_, .report m rfl rfl⟩
  | log r => exact .inr ⟨_, .report m rfl rfl⟩
  | readFile path => exact .inr ⟨_, .report m rfl rfl⟩
  | world w => exact .inr ⟨[], .same rfl rfl⟩
  | @close kind h => exact .inr ⟨[], .close m kind⟩
  | conclude kind index flow => exact .inr (Fills.conclude m kind index flow)
  | caught fault => exact .inl ⟨rfl, .caught fault, rfl, rfl⟩

/-- The counter, the flag and the body agree with each other and with the journal. -/
structure Buffered (m : Machine) : Prop where
  bytesWritten : m.context.draft.bytesWritten = m.context.draft.body.length
  done : m.context.draft.body ≠ [] → m.context.draft.done = true
  body : m.context.draft.body = m.journal.buffered

theorem Buffered.fills (hm : m.Buffered) (h : m.Fills m' es) : m'.Buffered where
  bytesWritten := by rw [h.bytesWritten, h.body, List.length_append, hm.bytesWritten]
  done hne := by
    by_cases hnil : es.flatMap Event.bytes = []
    · rw [h.body, hnil, List.append_nil] at hne
      exact h.done (hm.done hne)
    · exact h.filled hnil
  body := by rw [h.body, h.journal, Journal.buffered_append _ h.kept, hm.body]

theorem Drops.buffered (h : m.Drops m') : m'.Buffered := by
  obtain ⟨hdraft, e, he, hjournal⟩ := h
  refine ⟨by rw [hdraft]; rfl, fun hne => ?_, ?_⟩
  · rw [hdraft] at hne
    exact absurd rfl hne
  · rw [hdraft, hjournal, Journal.buffered_drops _ he]

end Machine

/-! ## The response in a run -/

namespace Thread

variable {t u : Thread}

/-- A step drops the whole response, or adds to the body what it tells. -/
theorem SharedStep.fills (h : t.SharedStep u) : t.machine.Drops u.machine ∨ ∃ es, t.machine.Fills u.machine es := by
  rcases h.cases with ⟨kind, index, entry, hs⟩ | ⟨hs, -⟩
  · rw [hs.result]
    exact .inr (Machine.Fills.start t.machine kind index)
  · exact hs.fills

/-- **The buffer stays consistent.** -/
theorem SharedSteps.buffered (h : t.SharedSteps u) (ht : t.machine.Buffered) : u.machine.Buffered := by
  induction h with
  | refl => exact ht
  | tail _ hs ih =>
    rcases hs.fills with hdrops | ⟨es, hfills⟩
    · exact hdrops.buffered
    · exact ih.fills hfills

/-- **What is done stays done** until the response is dropped. -/
theorem SharedSteps.done (h : t.SharedSteps u) (ht : t.machine.context.draft.done = true) :
    ∃ es, u.machine.journal = t.machine.journal ++ es ∧
      (u.machine.context.draft.done = true ∨ ∃ e ∈ es, e.drops = true) := by
  induction h with
  | refl => exact ⟨[], (List.append_nil _).symm, .inl ht⟩
  | tail _ hs ih =>
    obtain ⟨es, hjournal, hdone⟩ := ih
    rcases hs.fills with ⟨-, e, he, hjournal'⟩ | ⟨es', hfills⟩
    · exact ⟨es ++ [e], by rw [hjournal', hjournal, List.append_assoc],
        .inr ⟨e, List.mem_append_right _ List.mem_cons_self, he⟩⟩
    · refine ⟨es ++ es', by rw [hfills.journal, hjournal, List.append_assoc], ?_⟩
      rcases hdone with hdone | ⟨e, he, hdrops⟩
      · exact .inl (hfills.done hdone)
      · exact .inr ⟨e, List.mem_append_left _ he, hdrops⟩

end Thread

/-! ## The answer -/

namespace Server

variable {s : Server} {k : Carrier} {r : Request}

/-- In a context without a response, the buffer is consistent before the chain runs. -/
theorem poise_buffered (hk : k.context.draft = {}) : (s.poise k r).Buffered := by
  obtain ⟨headers, hdraft⟩ := s.poise_draft k r
  have hspans : ∀ e ∈ (s.poise k r).journal, e.drops = false ∧ e.bytes = [] := by
    intro e he
    obtain ⟨group, method, uri, rfl⟩ := s.poise_journal k r e he
    exact ⟨rfl, rfl⟩
  have hnone : (s.poise k r).journal.buffered = [] := by
    rw [← List.nil_append (s.poise k r).journal, Journal.buffered_append [] fun e he => (hspans e he).1]
    exact List.flatMap_eq_nil_iff.2 fun e he => (hspans e he).2
  rw [hk] at hdraft
  refine ⟨by rw [hdraft]; rfl, fun hne => ?_, by rw [hdraft, hnone]⟩
  rw [hdraft] at hne
  exact absurd rfl hne

/-- The body of a draft is that of the answer, but for a HEAD request. -/
theorem bytes_finish (hmethod : r.method ≠ .standard .head) (d : Draft) :
    (finish d (r.method == .standard .head)).body.bytes = d.body := by
  rw [beq_eq_false_iff_ne.2 hmethod]
  show (ResponseBody.ofBytes d.body).bytes = d.body
  cases d.body <;> rfl

/-- A flight that has ended well has the answer that its draft makes. -/
theorem finish_of_outcome? {t : Thread} {response : Response} (h : Flight.outcome? ⟨r, t⟩ = some (.ok response)) :
    response = finish t.machine.context.draft (r.method == .standard .head) := by
  obtain ⟨control, frames, m⟩ := t
  cases control with
  | idle =>
    cases frames with
    | nil => exact (Except.ok.inj (Option.some.inj h)).symm
    | cons frame frames => cases h
  | unwind payload => cases frames <;> cases h
  | _ => cases h

/-- **The response buffer is consistent**, whatever entries and the panic handler do. At every moment of a dispatch

- the counter is the length of the body, a body that is not empty is done, and the body is what was added, in order,
  since the response was dropped last;
- a step leaves a response done, or drops all of it, which a caught panic or recycling the context does; in any number
  of steps it stays done until that is told;
- and when the request has ended, the body of the answer is what was added, but for a HEAD request. -/
theorem body_buffered (hfresh : s.contexts.Fresh .withCapacity) (r : Request) :
    (∀ t, (s.depart s.acquire.1 r).thread.SharedSteps t →
      t.machine.context.draft.bytesWritten = t.machine.context.draft.body.length ∧
      (t.machine.context.draft.body ≠ [] → t.machine.context.draft.done = true) ∧
      t.machine.context.draft.body = t.machine.journal.buffered ∧
      (∀ u, t.SharedStep u → t.machine.context.draft.done = true → u.machine.context.draft.done = true ∨
        u.machine.context.draft = {} ∧ ∃ e, e.drops = true ∧ u.machine.journal = t.machine.journal ++ [e]) ∧
      (∀ u, t.SharedSteps u → t.machine.context.draft.done = true → ∃ es,
        u.machine.journal = t.machine.journal ++ es ∧
          (u.machine.context.draft.done = true ∨ ∃ e ∈ es, e.drops = true)) ∧
      ∀ response, Flight.outcome? ⟨r, t⟩ = some (.ok response) → r.method ≠ .standard .head →
        response.body.bytes = t.machine.journal.buffered) ∧
    ∀ response, (s.handle r).1.outcome = .ok response → r.method ≠ .standard .head →
      response.body.bytes = (s.handle r).1.journal.buffered := by
  have hstart : (s.poise s.acquire.1 r).Buffered := poise_buffered (by rw [acquire_fresh hfresh]; rfl)
  refine ⟨fun t ht => ?_, fun response hok hmethod => ?_⟩
  · have hbuffered := ht.buffered hstart
    refine ⟨hbuffered.bytesWritten, hbuffered.done, hbuffered.body, fun u hu hdone => ?_, fun u hu hdone => hu.done hdone,
      fun response hend hmethod => ?_⟩
    · rcases hu.fills with hdrops | ⟨es, hfills⟩
      · exact .inr hdrops
      · exact .inl (hfills.done hdone)
    · rw [finish_of_outcome? hend, bytes_finish hmethod, hbuffered.body]
  · rcases s.serve_cases s.acquire.1 r with ⟨m, hsteps, hanswer, hjournal⟩ | ⟨payload, m, -, hanswer, -⟩
    · obtain rfl := Except.ok.inj (hanswer.symm.trans hok)
      have hbuffered : m.Buffered := hsteps.shared.buffered hstart
      rw [bytes_finish hmethod, hbuffered.body]
      exact ((congrArg Journal.buffered hjournal).trans (m.journal.buffered_reported _)).symm
    · cases hanswer.symm.trans hok

/-- A server whose handler writes and panics, within a middleware that drives the chain. Its panic handler writes, renders
what cannot be written, and then what can. -/
def spilling : Server :=
  let handlers : List Program := [.change (.write [1, 2]) (.panic { payload := .text "late" })]
  { Server.new { catchPanics := true } .empty with
    world := { lists := [[.drive .all (.finish .proceed)]] }
    router := ((Router.new {}).insert "" .get ⟨"/", "/", []⟩ ⟨0, handlers⟩).2
    panicHandler := fun _ =>
      .change (.write [3]) <| .render (.redirect "" .found) <| .render (.text "x") <| .finish .proceed }

/-- What the handler has written is in the buffer until the panic is caught, and then what the panic handler has added
is the body of the answer. -/
theorem body_buffered_spilling :
    (∃ t u, (spilling.depart spilling.acquire.1 entangledRequest).thread.SharedSteps t ∧
      t.machine.context.draft.bytesWritten = 2 ∧ t.machine.context.draft.body = t.machine.journal.buffered ∧
      t.SharedStep u ∧ u.machine.context.draft = {}) ∧
    ∃ response, (spilling.handle entangledRequest).1.outcome = .ok response ∧ response.body.bytes = [3, 120] ∧
      response.body.bytes = (spilling.handle entangledRequest).1.journal.buffered := by
  have hfresh : spilling.contexts.Fresh .withCapacity := Pool.fresh_of_empty rfl
  obtain ⟨hmoments, hanswer⟩ := body_buffered hfresh entangledRequest
  have ht : (spilling.depart spilling.acquire.1 entangledRequest).thread.Steps _ :=
    .head rfl <| .head rfl <| .head rfl <| .head rfl <| .head rfl <| .head rfl <| .head rfl <| .head rfl <|
      .head rfl <| .head rfl <| .head rfl <| .head rfl <| .head rfl .refl
  obtain ⟨hcount, -, hbody, hstep, -, -⟩ := hmoments _ ht.shared
  obtain ⟨hdraft, -⟩ := (hstep _ (.own rfl) rfl).resolve_left Bool.false_ne_true
  exact ⟨⟨_, _, ht.shared, hcount, hbody, .own rfl, hdraft⟩, _, rfl, by decide +kernel, hanswer _ rfl (by decide)⟩

end Server

end Switchyard
