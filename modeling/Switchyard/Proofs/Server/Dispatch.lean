import Switchyard.Proofs.Chain.Stack
import Switchyard.Proofs.Chain.Stop
import Switchyard.Proofs.Server.Traffic

/-!
# One dispatch

What is known of the chain of a request at every moment of its dispatch, whatever its entries do and whatever other
requests do to the world in the meantime (`Traffic.Run.shared`). The chain is the one that was there when the request
came in (`Server.chainFor`).

- each entry starts once at most, and all of them in their order; after a drive of the whole chain has returned
  nothing starts (`starts_in_order`);
- once the response is done or a middleware has stopped, nothing starts (`nothing_starts_after`);
- after a handler has stopped no handler starts, but a middleware may, where one of them has driven the handlers before
  it came to its end (`nothing_starts_after_stop`, `starts_after_stop`).
-/

namespace Switchyard

namespace Traffic

variable {t t' : Traffic}

theorem Step.shared (h : Step t t') {n : Nat} {f g : Flight} (hn : n < t.admitted) (hf : t.flights n = some f)
    (hg : t'.flights n = some g) : f.thread.SharedSteps g.thread := by
  rcases h.flight hn hg with hg | ⟨f', u, hf', hu, rfl⟩
  · obtain rfl := Option.some.inj (hf.symm.trans hg)
    exact .refl
  · obtain rfl := Option.some.inj (hf.symm.trans hf')
    exact .tail (.single (.others _ t.server.world)) (.own hu)

/-- **A flight among others makes shared steps.** -/
theorem Run.shared (h : Run t t') {n : Nat} {f : Flight} (hn : n < t.admitted) (hf : t.flights n = some f) :
    ∀ {g : Flight}, t'.flights n = some g → f.thread.SharedSteps g.thread := by
  induction h with
  | refl =>
    intro g hg
    obtain rfl := Option.some.inj (hf.symm.trans hg)
    exact .refl
  | tail hrun hs ih =>
    intro g hg
    have hn' := Nat.lt_of_lt_of_le hn (Run.admitted_le hrun)
    rcases hs.flight hn' hg with hg' | ⟨f', u, hf', -, -⟩
    · exact (ih hg').trans (hs.shared hn' hg' hg)
    · exact (ih hf').trans (hs.shared hn' hf' hg)

end Traffic

namespace Server

/-- The entries a request is to run: the middleware that the group of its route has now and the handlers of the route,
or a fallback. -/
def chainFor (s : Server) (r : Request) (kind : LaneKind) : List Program :=
  match (s.router.lookupInto r.method r.uri.path {}).1, kind with
  | .found route, .middleware => s.world.list route.value.list
  | .found route, .handlers => route.value.handlers
  | .methodNotAllowed _, .handlers => [s.methodNotAllowed]
  | .notFound, .handlers => [s.notFound]
  | _, .middleware => []

theorem poise_lane_eq (s : Server) (k : Carrier) (r : Request) (kind : LaneKind) :
    (s.poise k r).lane kind = .ofList (s.chainFor r kind) := by
  have hfst := s.router.lookupInto_fst r.method r.uri.path {} k.context.params
  rw [poise_lane]
  unfold receive chainFor
  dsimp only
  split <;>
    · rename_i hout
      rw [hfst.trans hout]
      cases kind <;> rfl

/-- Before the chain runs, a span is reported at most. -/
theorem poise_journal (s : Server) (k : Carrier) (r : Request) :
    ∀ e ∈ (s.poise k r).journal, ∃ group method uri, e = .span group method uri := by
  have hreceive : (s.receive k r).2.journal = [] := by
    unfold receive
    dsimp only
    split <;> rfl
  intro e he
  rcases s.poise_cases k r with h | ⟨group, method, uri, h⟩ <;> rw [h] at he
  · rw [hreceive] at he
    cases he
  · rw [Machine.report, hreceive] at he
    exact ⟨group, method, uri, List.mem_singleton.1 he⟩

/-- What is told of no span is not told before the chain runs. -/
theorem poise_filterMap {α : Type} {f : Event → Option α} (hf : ∀ group method uri, f (.span group method uri) = none)
    (s : Server) (k : Carrier) (r : Request) : (s.poise k r).journal.filterMap f = [] :=
  List.filterMap_eq_nil_iff.2 fun e he => by
    obtain ⟨group, method, uri, rfl⟩ := s.poise_journal k r e he
    exact hf group method uri

theorem poise_inOrder (s : Server) (k : Carrier) (r : Request) : (s.poise k r).InOrder (s.chainFor r) := by
  intro kind
  refine ⟨0, Nat.zero_le _, ?_, fun _ => ?_⟩
  · refine List.filterMap_eq_nil_iff.2 fun e he => ?_
    obtain ⟨group, method, uri, rfl⟩ := s.poise_journal k r e he
    rfl
  · rw [poise_lane_eq]
    exact ⟨rfl, rfl⟩

theorem depart_orderly (s : Server) (k : Carrier) (r : Request) : (s.depart k r).thread.Orderly := by
  refine ⟨?_, fun _ frame hframe => ?_⟩
  · show s.guards.IsChain Frame.Stacked
    unfold guards
    split
    · exact List.isChain_singleton _
    · exact List.isChain_nil
  · have hguards : frame ∈ s.guards.head? := hframe
    unfold guards at hguards
    split at hguards
    · cases hguards
      exact id
    · cases hguards

/-- **Each entry starts once at most, in the order of the chain**, however the chain is driven: at every moment those
started are the first ones of their lists, a step that starts something starts the next of them, and after a drive of
the whole chain has returned nothing starts. -/
theorem starts_in_order (s : Server) (k : Carrier) (r : Request) {t : Thread}
    (ht : (s.depart k r).thread.SharedSteps t) :
    (∀ kind, ∃ n ≤ (s.chainFor r kind).length, t.machine.journal.starts kind = List.range n) ∧
    (∀ u, t.SharedStep u → ∀ kind, u.machine.journal.starts kind = t.machine.journal.starts kind ∨
      ∃ index entry, (s.chainFor r kind)[index]? = some entry ∧
        t.machine.journal.starts kind = List.range index ∧ u.machine.journal.starts kind = List.range (index + 1) ∧
        u.control = .program entry ∧ u.frames = .entry kind index :: t.frames) ∧
    (∀ returned later, t.control = .drive .all → t.SharedSteps returned → returned.control = .idle →
      returned.frames = t.frames → returned.SharedSteps later →
        ∀ kind, later.machine.journal.starts kind = returned.machine.journal.starts kind) := by
  have horder := ht.inOrder (s.poise_inOrder k r)
  refine ⟨fun kind => ?_, fun u hu kind => hu.next_entry horder kind, ?_⟩
  · obtain ⟨n, hn, hstarts, -⟩ := horder kind
    exact ⟨n, hn, hstarts⟩
  · intro returned later hdrive hreturned hidle hframes hlater
    have horderly := ht.orderly (s.depart_orderly k r)
    obtain ⟨control, frames, m⟩ := t
    obtain ⟨control', frames', m'⟩ := returned
    obtain rfl : control = .drive .all := hdrive
    obtain rfl : control' = .idle := hidle
    obtain rfl : frames' = frames := hframes
    have hclosed : m'.Closed := hreturned.closed_of_returned horderly
    exact (hlater.starts_closed hclosed).2

/-- A server whose entries drive each other's lane: a middleware drives the handlers, of which the first drives the
middleware and writes. -/
def entangled : Server :=
  let middleware : List Program := [.drive .handlers (.drive .all (.drive .all (.finish .proceed))), .finish .proceed]
  let handlers : List Program :=
    [.drive .middleware (.change (.write [1]) (.drive .all (.finish .stop))), .finish .proceed]
  { Server.new {} .empty with
    world := { lists := [middleware] }
    router := ((Router.new {}).insert "" .get ⟨"/", "/", []⟩ ⟨0, handlers⟩).2 }

/-- A request for that route. -/
def entangledRequest : Request :=
  { method := .standard .get, uri := .root }

/-- Both middleware and one of the two handlers are started in the end. -/
theorem starts_in_order_entangled :
    ∃ t, (entangled.depart {} entangledRequest).thread.SharedSteps t ∧
      (∃ n ≤ 2, t.machine.journal.starts .middleware = List.range n) ∧
      t.machine.journal.starts .middleware = [0, 1] ∧ t.machine.journal.starts .handlers = [0] := by
  have ht := (entangled.steps_dispatch (entangled.poise {} entangledRequest)).shared
  obtain ⟨hstarts, -, -⟩ := starts_in_order entangled {} entangledRequest ht
  exact ⟨_, ht, hstarts .middleware, by decide +kernel, by decide +kernel⟩

/-- **Once a chain is halted, no entry is started in it any more**: neither after the response is done, nor after
something was written or rendered, an entry has answered, or a middleware has stopped. Entries that are underway only
end, the innermost first. -/
theorem nothing_starts_after (s : Server) (k : Carrier) (r : Request) {t u : Thread}
    (ht : (s.depart k r).thread.SharedSteps t)
    (hends : t.machine.context.draft.done = true ∨ ∃ e ∈ t.machine.journal, e.Ends) (hu : t.SharedSteps u) :
    (∀ kind, u.machine.journal.starts kind = t.machine.journal.starts kind) ∧ u.underway <:+ t.underway := by
  have hbefore : ∀ e ∈ (s.poise k r).journal, ¬ e.Ends := by
    intro e he
    obtain ⟨group, method, uri, rfl⟩ := s.poise_journal k r e he
    exact id
  have hhalted : t.machine.Halted := by
    rcases hends with hd | ⟨e, he, hends⟩
    · exact .inl hd
    · exact ht.halted hbefore he hends
  exact (hu.starts_halted hhalted).2

/-- After the write of the first handler, which is underway in the first middleware, the second one is not started. -/
theorem nothing_starts_after_write :
    ∃ t u, (entangled.depart {} entangledRequest).thread.SharedSteps t ∧ t.machine.context.draft.done = true ∧
      t.SharedSteps u ∧ u.step = none ∧ t.underway = [(.handlers, 0), (.middleware, 0)] ∧
      (∀ kind, u.machine.journal.starts kind = t.machine.journal.starts kind) ∧ u.underway <:+ t.underway := by
  have hend := entangled.steps_dispatch (entangled.poise {} entangledRequest)
  have ht : (entangled.depart {} entangledRequest).thread.Steps _ :=
    .head rfl <| .head rfl <| .head rfl <| .head rfl <| .head rfl <| .head rfl <| .head rfl <| .head rfl <|
      .head rfl <| .head rfl <| .head rfl <| .head rfl .refl
  have hu := (ht.of_ended hend (Thread.step_ended _)).shared
  obtain ⟨hstarts, hunder⟩ := nothing_starts_after entangled {} entangledRequest ht.shared (.inl rfl) hu
  exact ⟨_, _, ht.shared, rfl, hu, Thread.step_ended _, rfl, hstarts, hunder⟩

/-- **An entry that stops leaves the context as it is and ends the chain**: no handler starts after it, and no
middleware either if the entry is a middleware itself, the response is done, or the middleware are closed by then. They
are, whenever a handler is underway, if none of them drives the handlers apart. -/
theorem nothing_starts_after_stop (s : Server) (k : Carrier) (r : Request) {t : Thread}
    (ht : (s.depart k r).thread.SharedSteps t) {kind : LaneKind} {index : Nat} {frames : List Frame}
    (hstop : t.control = .program (.finish .stop)) (hentry : t.frames = .entry kind index :: frames) :
    ∃ u, t.step = some u ∧ u.machine.context = t.machine.context ∧
      (∀ v, u.SharedSteps v → v.machine.journal.starts .handlers = t.machine.journal.starts .handlers) ∧
      (kind = .middleware ∨ t.machine.context.draft.done = true ∨ (t.machine.lane .middleware).isOpen = false ∨
          (∀ p ∈ s.chainFor r .middleware, p.Within Deed.Forward) →
        ∀ v, u.SharedSteps v → (∀ kind, v.machine.journal.starts kind = t.machine.journal.starts kind) ∧
          v.underway <:+ Frame.underway frames) := by
  have hforward : (∀ p ∈ s.chainFor r .middleware, p.Within Deed.Forward) → kind = .handlers →
      (t.machine.lane .middleware).isOpen = false := by
    rintro h rfl
    refine Thread.SharedSteps.closed_of_handler (m := s.poise k r) ?_ ht hstop hentry
    rw [poise_lane_eq]
    exact h
  obtain ⟨control, framesOf, m⟩ := t
  obtain rfl : control = .program (.finish .stop) := hstop
  obtain rfl : framesOf = .entry kind index :: frames := hentry
  have hturn : m.Turns (m.conclude kind index .stop) := .conclude m kind index .stop
  refine ⟨⟨.idle, frames, m.conclude kind index .stop⟩, rfl, m.context_stop kind index, fun v hv => ?_, fun h v hv => ?_⟩
  · exact (hv.starts_lane (m.handlers_stop kind index)).2.trans (hturn.starts .handlers)
  · have hcases : kind = .middleware ∨ m.context.draft.done = true ∨ (m.lane .middleware).isOpen = false := by
      rcases h with hkind | hdone | hclosed | h
      · exact .inl hkind
      · exact .inr (.inl hdone)
      · exact .inr (.inr hclosed)
      · cases kind with
        | middleware => exact .inl rfl
        | handlers => exact .inr (.inr (hforward h rfl))
    obtain ⟨-, hstarts, hunder⟩ := hv.starts_halted (Machine.halted_stop index hcases)
    exact ⟨fun kind' => (hstarts kind').trans (hturn.starts kind'), hunder⟩

/-- A server whose first middleware drives the whole chain and then the handlers again; the first handler stops. -/
def repeated : Server :=
  { Server.new {} .empty with
    world := { lists := [[.drive .all (.drive .handlers (.finish .proceed)), .finish .proceed]] }
    router := ((Router.new {}).insert "" .get ⟨"/", "/", []⟩ ⟨0, [.finish .stop, .finish .proceed]⟩).2 }

/-- The second handler is not started, although it is driven once more after the first has stopped. -/
theorem nothing_starts_after_stop_repeated :
    ∃ t u, (repeated.depart {} entangledRequest).thread.SharedSteps t ∧ t.control = .program (.finish .stop) ∧
      t.underway = [(.handlers, 0), (.middleware, 0)] ∧ t.step = some u ∧
      u.machine.context = t.machine.context ∧
      ∀ v, u.SharedSteps v → (∀ kind, v.machine.journal.starts kind = t.machine.journal.starts kind) ∧
        v.underway <:+ [(.middleware, 0)] := by
  have ht : (repeated.depart {} entangledRequest).thread.Steps _ :=
    .head rfl <| .head rfl <| .head rfl <| .head rfl <| .head rfl <| .head rfl <| .head rfl <| .head rfl <|
      .head rfl .refl
  obtain ⟨u, hu, hcontext, -, hnothing⟩ := nothing_starts_after_stop repeated {} entangledRequest ht.shared rfl rfl
  exact ⟨_, u, ht.shared, rfl, rfl, hu, hcontext, hnothing (.inr (.inr (.inl rfl)))⟩

/-- A server whose first middleware drives the handlers only; the handler stops, and the second middleware responds. -/
def overtaken : Server :=
  { Server.new {} .empty with
    world := { lists := [[.drive .handlers (.finish .proceed), .respond (.text "late")]] }
    router := ((Router.new {}).insert "" .get ⟨"/", "/", []⟩ ⟨0, [.finish .stop]⟩).2 }

/-- After a handler has stopped, a middleware is started that was not before. -/
theorem starts_after_stop :
    ∃ t, (overtaken.depart {} entangledRequest).thread.Steps t ∧ t.control = .program (.finish .stop) ∧
      t.underway = [(.handlers, 0), (.middleware, 0)] ∧ t.machine.journal.starts .middleware = [0] ∧
      ∃ u, t.step = some u ∧ ∃ v, u.Steps v ∧ v.control = .program (.respond (.text "late")) ∧
        v.underway = [(.middleware, 1)] ∧ v.machine.journal.starts .middleware = [0, 1] := by
  have ht : (overtaken.depart {} entangledRequest).thread.Steps _ :=
    .head rfl <| .head rfl <| .head rfl <| .head rfl <| .head rfl .refl
  refine ⟨_, ht, rfl, rfl, rfl, _, rfl, ?_⟩
  exact ⟨_, .head rfl <| .head rfl <| .head rfl .refl, rfl, rfl, rfl⟩

end Server

end Switchyard
