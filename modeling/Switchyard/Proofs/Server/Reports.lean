import Switchyard.Proofs.Server.Directory

/-!
# Reports of finished requests

A server that reports finished requests does so once for each request that has matched a route and was answered, whether
its chain came to an end or a panic was caught. What is reported is what was asked and what is answered: nothing an entry
does but recycling its context can change it.

- a chain reports nothing itself (`SharedSteps.summaries`);
- what a request reports is told by its route and its answer (`Server.summaries_handle`);
- so a row of requests reports those that were matched and answered, in their order (`Server.reports_exactly`).
-/

namespace Switchyard

open Http (Method)

/-- What is to be reported of a request with its answer: nothing unless it has matched a route and was answered. -/
def Answer.summary? (answer : Answer) (router : Router Chain) (r : Request) : Option Summary :=
  match (router.lookupInto r.method r.uri.path {}).1, answer.outcome with
  | .found route, .ok response =>
    some {
      group := route.group
      method := r.method
      path := Path.textOf (Path.segmentsOf router.options.cleanPath r.uri.path)
      status := response.status }
  | _, _ => none

/-- The summary that an event reports. -/
def Event.summary? : Event → Option Summary
  | .reported s => some s
  | _ => none

theorem Journal.summaries_reported (j : Journal) (summary? : Option Summary) :
    summaries (j ++ (summary?.map Event.reported).toList) = j.summaries ++ summary?.toList := by
  rw [summaries, List.filterMap_append]
  cases summary? <;> rfl

/-- A request that a panic has left is not reported. -/
theorem Answer.summary?_error (payload : Panic) (journal : Journal) (router : Router Chain) (r : Request) :
    summary? ⟨.error payload, journal⟩ router r = none := by
  unfold summary?
  cases (router.lookupInto r.method r.uri.path {}).1 <;> rfl

/-- Nothing is reported while a chain runs. -/
theorem Thread.SharedSteps.summaries {t u : Thread} (h : t.SharedSteps u) :
    u.machine.journal.summaries = t.machine.journal.summaries := by
  refine h.keeps (P := fun m => m.journal.summaries = t.machine.journal.summaries) ?_ ?_ rfl
  · intro m m' hturn hm
    refine (hturn.told.filterMap (f := Event.summary?) fun e he => ?_).trans hm
    cases e with
    | reported => exact he.elim
    | _ => rfl
  · intro m kind index entry _ _ hm
    exact (Machine.filterMap_start Event.summary? m kind index).trans ((List.append_nil _).trans hm)

namespace Server

variable {s : Server} {k : Carrier} {r : Request}

/-- A request is taken up with the group of the route it has matched. -/
theorem receive_fst (s : Server) (k : Carrier) (r : Request) : (s.receive k r).1 =
    match (s.router.lookupInto r.method r.uri.path {}).1 with
    | .found route => some route.group
    | _ => none := by
  have hfst := s.router.lookupInto_fst r.method r.uri.path {} k.context.params
  unfold receive
  dsimp only
  split <;>
    · rename_i hout
      rw [hfst.trans hout]

theorem poise_method (s : Server) (k : Carrier) (r : Request) : (s.poise k r).context.method = r.method := by
  rw [poise_unreported (f := (·.context.method)) fun _ _ => rfl]
  unfold receive
  dsimp only
  split <;> rfl

/-- **What a machine reports is what was asked**, wherever the request has come to, unless the context was recycled. -/
theorem summary?_eq (hs : s.options.reportsDone = true) {m : Machine}
    (hm : (s.depart k r).thread.SharedSteps ⟨.idle, [], m⟩) (hstay : .recycled ∉ m.journal) (journal : Journal) :
    s.summary? k r m =
      Answer.summary? ⟨.ok (finish m.context.draft (r.method == .standard .head)), journal⟩ s.router r := by
  have hmethod : m.context.method = r.method :=
    ((hm.lasting (f := Context.method) ⟨fun _ change => by cases change <;> rfl, fun _ _ => rfl⟩).resolve_left
      hstay).trans (s.poise_method k r)
  have hparams : m.context.params = (s.router.lookupInto r.method r.uri.path k.context.params).2 :=
    (hm.params.resolve_left hstay).trans (s.poise_params k r)
  have hpath : m.context.params.path.text =
      Path.textOf (Path.segmentsOf s.router.options.cleanPath r.uri.path) := by
    rw [hparams, Router.lookupInto_path, Path.text_load]
  unfold summary? Answer.summary?
  rw [receive_fst, hs, hmethod, hpath]
  cases (s.router.lookupInto r.method r.uri.path {}).1 <;> rfl

/-- What is reported of a request. -/
theorem summaries_handle (hs : s.options.reportsDone = true) (hstay : .recycled ∉ (s.handle r).1.journal) :
    (s.handle r).1.journal.summaries = ((s.handle r).1.summary? s.router r).toList := by
  have hbefore : (s.poise s.acquire.1 r).journal.summaries = [] := s.poise_filterMap (fun _ _ _ => rfl) _ r
  rw [handle_fst] at hstay ⊢
  rcases s.serve_cases s.acquire.1 r with ⟨m, hsteps, hanswer, hjournal⟩ | ⟨payload, m, hsteps, hanswer, hjournal⟩
  · have hnone : m.journal.summaries = [] := hsteps.shared.summaries.trans hbefore
    rw [hjournal] at hstay ⊢
    rw [hanswer, ← summary?_eq hs hsteps.shared (fun hmem => hstay (List.mem_append_left _ hmem)),
      Journal.summaries_reported, hnone, List.nil_append]
  · have hnone : m.journal.summaries = [] := hsteps.shared.summaries.trans hbefore
    rw [hanswer, hjournal, hnone, Answer.summary?_error]
    rfl

/-! ## A row of requests -/

/-- Serves requests one after the other: the answers, in order, and the server that is left. -/
def handleAll : Server → List Request → List Answer × Server
  | s, [] => ([], s)
  | s, r :: rs =>
    let (answer, s) := s.handle r
    let (answers, s) := s.handleAll rs
    (answer :: answers, s)

/-- Each request of a row reports what its own answer tells, on the routes the server had before. -/
theorem summaries_handleAll (hs : s.options.reportsDone = true) (rs : List Request) :
    List.Forall₂ (fun r (answer : Answer) => .recycled ∉ answer.journal →
      answer.journal.summaries = (answer.summary? s.router r).toList) rs (s.handleAll rs).1 := by
  induction rs generalizing s with
  | nil => exact .nil
  | cons r rs ih =>
    have hrest := ih (s := (s.handle r).2) hs
    exact .cons (summaries_handle hs) hrest

/-- **The reports are those of the requests that were matched and answered**, in order. A server that reports finished
requests serves a row of them.

- Each request whose context is not recycled is reported once if it has matched a route and was answered, and not at all
  otherwise: with the group of the route, the request's own method, the path as it was loaded, and the status of the
  answer.
- If no context is recycled, these are all reports, in the order of the requests. -/
theorem reports_exactly (hs : s.options.reportsDone = true) (rs : List Request) :
    List.Forall₂ (fun r (answer : Answer) => .recycled ∉ answer.journal →
      answer.journal.summaries = (answer.summary? s.router r).toList) rs (s.handleAll rs).1 ∧
    ((∀ answer ∈ (s.handleAll rs).1, .recycled ∉ answer.journal) →
      (s.handleAll rs).1.flatMap (·.journal.summaries) =
        (rs.zip (s.handleAll rs).1).filterMap fun asked => asked.2.summary? s.router asked.1) := by
  have hall := summaries_handleAll hs rs
  refine ⟨hall, fun hstay => ?_⟩
  generalize (s.handleAll rs).1 = answers at hall hstay
  induction hall with
  | nil => rfl
  | @cons r answer rs answers hfirst _ ih =>
    obtain ⟨hstay, hstays⟩ := List.forall_mem_cons.1 hstay
    rw [List.flatMap_cons, List.zip_cons_cons, List.filterMap_cons, hfirst hstay, ih hstays]
    dsimp only
    cases answer.summary? s.router r <;> rfl

/-- A server that catches panics and reports, with one route that answers and one that panics. -/
def reporting : Server :=
  let answers := (Router.new {}).insert "api" .get ⟨"/users/:id", "/users", [.param "id"]⟩
    ⟨0, [.respond (.status .notFound)]⟩
  { Server.new { catchPanics := true, reportsDone := true } .empty with
    router := (answers.2.insert "jobs" .post ⟨"/run", "/run", []⟩ ⟨0, [.panic { payload := .other }]⟩).2 }

/-- A HEAD request that the GET route serves, a request that panics, one of a verb without a route, and one for a path
without a route. -/
def reportingRequests : List Request :=
  [{ method := .standard .head, uri := { path := "//users/./7" } },
    { method := .standard .post, uri := { path := "/run" } },
    { method := .standard .put, uri := { path := "/run" } },
    { method := .standard .get, uri := { path := "/none" } }]

/-- Two of these are reported: the first as HEAD, with a path made clean, and the second with the status of the panic
handler. -/
theorem reports_exactly_reporting :
    ((reporting.handleAll reportingRequests).1.flatMap (·.journal.summaries)).map
        (fun summary => (summary.group, summary.method, summary.path, summary.status)) =
      [("api", .standard .head, "/users/7", .notFound), ("jobs", .standard .post, "/run", .serverError)] := by
  have hstay : ((reporting.handleAll reportingRequests).1.flatMap (·.journal)).all
      (fun e => match e with | .recycled => false | _ => true) = true := by decide +kernel
  obtain ⟨-, hreports⟩ := reports_exactly (s := reporting) rfl reportingRequests
  rw [hreports fun answer hanswer hrecycled => ?_]
  · decide +kernel
  · cases List.all_eq_true.1 hstay _ (List.mem_flatMap.2 ⟨answer, hanswer, hrecycled⟩)

end Server

end Switchyard
