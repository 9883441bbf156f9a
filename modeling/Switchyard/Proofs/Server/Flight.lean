import Switchyard.Proofs.Chain.Confined
import Switchyard.Server

/-!
# Requests on their way

A flight is a request that is being served: the thread that runs its chain, under the guard of the panic handler if
panics are caught. Left to itself it comes to an end, and its outcome there is that of serving the request in one go
(`Server.depart_steps`).
-/

namespace Switchyard

structure Flight where
  request : Request
  thread : Thread

namespace Flight

/-- How the flight has ended, if it has. -/
def outcome? (f : Flight) : Option (Except Panic Response) :=
  match f.thread with
  | ⟨.idle, [], m⟩ => some (.ok (Server.finish m.context.draft (f.request.method == .standard .head)))
  | ⟨.unwind payload, [], _⟩ => some (.error payload)
  | _ => none

/-- A flight with an outcome makes no step. -/
theorem step_of_outcome? {f : Flight} {o : Except Panic Response} (h : f.outcome? = some o) : f.thread.step = none := by
  obtain ⟨r, control, frames, m⟩ := f
  cases control with
  | idle =>
    cases frames with
    | nil => rfl
    | cons frame frames => cases h
  | unwind payload =>
    cases frames with
    | nil => rfl
    | cons frame frames => cases h
  | _ => cases h

/-- The world has no part in the outcome. -/
theorem outcome?_inWorld (r : Request) (t : Thread) (w : World) : outcome? ⟨r, t.inWorld w⟩ = outcome? ⟨r, t⟩ := by
  obtain ⟨control, frames, m⟩ := t
  cases control with
  | idle => cases frames <;> rfl
  | unwind payload => cases frames <;> rfl
  | _ => rfl

end Flight

namespace Server

/-- What catches the panics of a chain. -/
def guards (s : Server) : List Frame :=
  if s.options.catchPanics then [.guard s.panicHandler] else []

/-- The machine on which a request is served, before its chain runs. -/
def poise (s : Server) (k : Carrier) (r : Request) : Machine :=
  let (group?, m) := s.receive k r
  match group? with
  | some group =>
    if s.options.profileLabels then m.report (.span group m.context.method.name m.context.uri.text) else m
  | none => m

/-- A span is reported at most between taking a request up and running its chain. -/
theorem poise_cases (s : Server) (k : Carrier) (r : Request) : s.poise k r = (s.receive k r).2 ∨
    ∃ group method uri, s.poise k r = (s.receive k r).2.report (.span group method uri) := by
  unfold poise
  obtain ⟨group?, m⟩ := s.receive k r
  cases group? with
  | none => exact .inl rfl
  | some group =>
    dsimp only
    split
    · exact .inr ⟨_, _, _, rfl⟩
    · exact .inl rfl

/-- Whatever reports leave alone is as it was when the request was taken up. -/
theorem poise_unreported {β : Type} {f : Machine → β} (hf : ∀ m e, f (m.report e) = f m) (s : Server) (k : Carrier)
    (r : Request) : f (s.poise k r) = f (s.receive k r).2 := by
  rcases s.poise_cases k r with h | ⟨group, method, uri, h⟩ <;> rw [h]
  exact hf _ _

theorem poise_lane (s : Server) (k : Carrier) (r : Request) (kind : LaneKind) :
    (s.poise k r).lane kind = (s.receive k r).2.lane kind :=
  poise_unreported (f := (·.lane kind)) (fun m e => by cases kind <;> rfl) s k r

theorem poise_world (s : Server) (k : Carrier) (r : Request) : (s.poise k r).world = s.world := by
  rw [poise_unreported (f := Machine.world) fun _ _ => rfl]
  unfold receive
  dsimp only
  split <;> rfl

/-- Of the response, a request finds nothing changed but the header field that offers other verbs. -/
theorem poise_draft (s : Server) (k : Carrier) (r : Request) :
    ∃ headers, (s.poise k r).context.draft = { k.context.draft with headers } := by
  rw [poise_unreported (f := (·.context.draft)) fun _ _ => rfl]
  unfold receive
  dsimp only
  split <;> exact ⟨_, rfl⟩

/-- A request is served in a context of the pool. -/
theorem handle_fst (s : Server) (r : Request) :
    (s.handle r).1 = ⟨(s.serve s.acquire.1 r).1, (s.serve s.acquire.1 r).2.journal⟩ := rfl

/-- The flight of a request, before its chain runs. -/
def depart (s : Server) (k : Carrier) (r : Request) : Flight :=
  ⟨r, .drive .all, s.guards, s.poise k r⟩

/-- What a dispatch makes of a request. -/
def answerOf (r : Request) : EStateM.Result Panic Machine Unit → Except Panic Response
  | .ok _ m => .ok (finish m.context.draft (r.method == .standard .head))
  | .error payload _ => .error payload

/-- What is reported of a request that has ended on a machine, if it matched a route and reports are asked for. -/
def summary? (s : Server) (k : Carrier) (r : Request) (m : Machine) : Option Summary :=
  (s.receive k r).1.bind fun group =>
    if s.options.reportsDone then
      some ⟨group, m.context.method, m.context.params.path.text, m.context.draft.status⟩
    else none

/-- A request that was not left by a panic is reported on the machine on which it has ended. -/
theorem serve_eq (s : Server) (k : Carrier) (r : Request) :
    s.serve k r = match s.dispatch (s.poise k r) with
      | .error payload m => (.error payload, m)
      | .ok _ m => (.ok (finish m.context.draft (r.method == .standard .head)),
          (s.summary? k r m).elim m fun summary => m.report (.reported summary)) := by
  unfold serve poise summary?
  obtain ⟨group?, m⟩ := s.receive k r
  dsimp only
  cases hd : s.dispatch (match group? with
    | some group =>
      if s.options.profileLabels then m.report (.span group m.context.method.name m.context.uri.text) else m
    | none => m) with
  | error payload m' => rfl
  | ok u m' =>
    cases group? with
    | none => rfl
    | some group =>
      dsimp only [Option.bind_some]
      split <;> rfl

theorem serve_of_ok {s : Server} {k : Carrier} {r : Request} {m : Machine} (h : s.dispatch (s.poise k r) = .ok () m) :
    (s.serve k r).1 = .ok (finish m.context.draft (r.method == .standard .head)) ∧
      (s.serve k r).2.journal = m.journal ++ ((s.summary? k r m).map Event.reported).toList := by
  rw [serve_eq, h]
  refine ⟨rfl, ?_⟩
  dsimp only
  cases s.summary? k r m with
  | none => exact (List.append_nil _).symm
  | some summary => rfl

theorem serve_of_error {s : Server} {k : Carrier} {r : Request} {payload : Panic} {m : Machine}
    (h : s.dispatch (s.poise k r) = .error payload m) : s.serve k r = (.error payload, m) := by
  rw [serve_eq, h]

/-- Reports change nothing about the answer. -/
theorem serve_fst (s : Server) (k : Carrier) (r : Request) :
    (s.serve k r).1 = answerOf r (s.dispatch (s.poise k r)) := by
  rw [serve_eq]
  cases s.dispatch (s.poise k r) <;> rfl

/-- The panic handler runs on the machine of the caught panic, and its flow goes unheard. -/
theorem recover_eq (s : Server) (payload : Panic) (m : Machine) : s.recover payload m =
    match (s.panicHandler (.ofPanic payload)).run driveChain (m.caught (.ofPanic payload)) with
    | .ok _ m => .ok () m
    | .error payload m => .error payload m := by
  have hc : ({ m.halt with context := m.context.resetResponse } : Machine).report (.caught (.ofPanic payload)) =
      m.caught (.ofPanic payload) := rfl
  rw [recover, Run.bind_modify, Run.bind_eq, hc]
  cases (s.panicHandler (.ofPanic payload)).run driveChain (m.caught (.ofPanic payload)) <;> rfl

/-- A caught panic is one step of the thread, after which the panic handler runs. -/
theorem steps_recover (s : Server) (payload : Panic) (m : Machine) :
    Thread.Steps ⟨.unwind payload, [.guard s.panicHandler], m⟩ (Thread.ended [] (s.recover payload m)) := by
  have hrun := Thread.steps_run (s.panicHandler (.ofPanic payload)) [] (m.caught (.ofPanic payload))
  rw [recover_eq]
  refine .head rfl (hrun.trans ?_)
  cases (s.panicHandler (.ofPanic payload)).run driveChain (m.caught (.ofPanic payload)) with
  | ok flow m' => exact .head rfl .refl
  | error payload' m' => exact .refl

/-- A chain that has come to its end leaves the guard, if there is one. -/
theorem steps_unguarded (s : Server) (m : Machine) : Thread.Steps ⟨.idle, s.guards, m⟩ ⟨.idle, [], m⟩ := by
  unfold guards
  split
  · exact .head rfl .refl
  · exact .refl

/-- **The thread of a chain comes to where its dispatch ends.** -/
theorem steps_dispatch (s : Server) (m : Machine) :
    Thread.Steps ⟨.drive .all, s.guards, m⟩ (Thread.ended [] (s.dispatch m)) := by
  refine (Thread.steps_drive .all s.guards m).trans ?_
  unfold dispatch
  cases hr : driveChain .all m with
  | ok u m' => exact s.steps_unguarded m'
  | error payload m' =>
    unfold guards
    dsimp only
    split
    · exact s.steps_recover payload m'
    · exact .refl

/-- **A request is served to the end of its chain, or to a panic that leaves it**; in the first case it may be
reported. -/
theorem serve_cases (s : Server) (k : Carrier) (r : Request) :
    (∃ m, (s.depart k r).thread.Steps ⟨.idle, [], m⟩ ∧
      (s.serve k r).1 = .ok (finish m.context.draft (r.method == .standard .head)) ∧
      (s.serve k r).2.journal = m.journal ++ ((s.summary? k r m).map Event.reported).toList) ∨
    ∃ payload m, (s.depart k r).thread.Steps ⟨.unwind payload, [], m⟩ ∧ (s.serve k r).1 = .error payload ∧
      (s.serve k r).2.journal = m.journal := by
  have hsteps := s.steps_dispatch (s.poise k r)
  cases hd : s.dispatch (s.poise k r) with
  | ok u m =>
    rw [hd] at hsteps
    exact .inl ⟨m, hsteps, serve_of_ok hd⟩
  | error payload m =>
    rw [hd] at hsteps
    rw [serve_of_error hd]
    exact .inr ⟨payload, m, hsteps, rfl, rfl⟩

/-- **A flight that is left to itself ends with the outcome of serving its request.** -/
theorem depart_steps (s : Server) (k : Carrier) (r : Request) :
    ∃ t, (s.depart k r).thread.Steps t ∧ t.step = none ∧ Flight.outcome? ⟨r, t⟩ = some (s.serve k r).1 := by
  rcases s.serve_cases k r with ⟨m, hsteps, hanswer, -⟩ | ⟨payload, m, hsteps, hanswer, -⟩
  · exact ⟨_, hsteps, rfl, by rw [hanswer]; rfl⟩
  · exact ⟨_, hsteps, rfl, by rw [hanswer]; rfl⟩

end Server

end Switchyard
