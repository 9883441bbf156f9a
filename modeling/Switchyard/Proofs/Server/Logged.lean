import Switchyard.Proofs.Chain.Logged
import Switchyard.Proofs.Server.Dispatch

/-!
# Requests with a request log

A server is compared with the same server on a world in which a request log was put in among the middleware.

- a request is taken up alike on both (`poise_alike`), and served alike, a panic that was caught included
  (`dispatch_alike`, `serve_alike`);
- a log that is the first middleware logs one record, with the status of the answer, whatever the other entries do
  (`servedBy_handle`).
-/

namespace Switchyard

theorem Journal.faults_reported (j : Journal) (summary? : Option Summary) :
    faults (j ++ (summary?.map Event.reported).toList) = j.faults := by
  cases summary? with
  | none => exact congrArg faults (List.append_nil j)
  | some summary => exact (List.filterMap_append ..).trans (List.append_nil _)

namespace Server

variable {s : Server} {k : Carrier} {r : Request} {i : Insertion} {m m' : Machine}

theorem poise_opened (s : Server) (k : Carrier) (r : Request) :
    (s.poise k r).Opened (s.chainFor r .middleware) (s.chainFor r .handlers) :=
  ⟨s.poise_lane_eq k r .middleware, s.poise_lane_eq k r .handlers⟩

/-- A panic that was caught is told of to the end. -/
theorem faults_recover {payload : Panic} {n : Machine} (h : s.recover payload m = .ok () n) : n.journal.faults ≠ [] := by
  have hsteps := Thread.steps_run (s.panicHandler (.ofPanic payload)) [] (m.caught (.ofPanic payload))
  rw [recover_eq] at h
  cases hr : (s.panicHandler (.ofPanic payload)).run driveChain (m.caught (.ofPanic payload)) with
  | error payload' n' => rw [hr] at h; cases h
  | ok flow n' =>
    rw [hr] at h hsteps
    cases h
    exact Thread.hasCaught_iff.1 (hsteps.shared.hasCaught ⟨_, List.mem_append_right _ List.mem_cons_self⟩)

/-! ## The log among other entries -/

/-- The server in a world that was put in place. -/
def inWorld (s : Server) (w : World) : Server :=
  { s with world := w }

/-- Panic handlers answer alike. -/
theorem recover_alike {P : LogPhase → Prop} (hhandler : ∀ fault, (s.panicHandler fault).Within (Deed.Apart i.counter))
    (h : m.Alike i P m') (payload : Panic) :
    Matches i (fun _ n _ n' => n.journal.faults ≠ [] ∧ n.Alike i P n')
      (s.recover payload m) (s.recover payload m') := by
  have hclosed : ∀ m : Machine, (m.caught (.ofPanic payload)).Closed := fun m => m.isOpen_halt
  have hrun := Program.run_closed_alike (hhandler (.ofPanic payload)) (hclosed m) (hclosed m')
    (h.caught (.ofPanic payload))
  rcases hrun.cases with ⟨flow, n, _, n', hx, hx', rfl, hn⟩ | ⟨payload', n, n', hx, hx', hn⟩
  · have hrecover : s.recover payload m = .ok () n := by rw [recover_eq, hx]
    rw [hrecover, recover_eq, hx']
    exact ⟨faults_recover hrecover, hn⟩
  · rw [recover_eq, recover_eq, hx, hx']
    exact ⟨rfl, hn⟩

/-- **A dispatch ends alike**; unless a panic was caught, the log is not underway. -/
theorem dispatch_alike (hhandler : s.options.catchPanics = true → ∀ fault,
      (s.panicHandler fault).Within (Deed.Apart i.counter))
    (h : Matches i (fun _ n _ n' => n.Alike i (· ≠ .underway) n')
      (driveChain .all m) (driveChain .all m')) :
    Matches i
      (fun _ n _ n' => n.Alike i (fun phase => n.journal.faults = [] → phase ≠ .underway) n')
      (s.dispatch m) (s.dispatch m') := by
  unfold dispatch
  rcases h.cases with ⟨_, n, _, n', hx, hx', hn⟩ | ⟨payload, n, n', hx, hx', hn⟩ <;> rw [hx, hx']
  · exact hn.mono fun _ hphase _ => hphase
  · dsimp only
    split
    · rename_i hcatch
      rcases (recover_alike (hhandler hcatch) hn payload).cases with
        ⟨_, v, _, v', hv, hv', hcaught, halike⟩ | ⟨payload', v, v', hv, hv', halike⟩ <;> rw [hv, hv']
      · exact halike.mono fun _ _ hnone => absurd hnone hcaught
      · exact ⟨rfl, halike⟩
    · exact ⟨rfl, hn⟩

section Inserted

variable {w : World}

/-- A request finds the same context on both servers. -/
theorem poise_alike (hfiles : w.files = s.world.files)
    (hcounters : ∀ n, n ≠ i.counter → w.counters[n]? = s.world.counters[n]?) (k : Carrier) (r : Request) :
    (s.poise k r).Alike i (· = .absent) ((s.inWorld w).poise k r) := by
  unfold poise receive inWorld
  dsimp only
  cases (s.router.lookupInto (k.context.load r).method (k.context.load r).path (k.context.load r).params).1 with
  | found route =>
    dsimp only
    split
    · exact ⟨rfl, hfiles, hcounters, _, rfl, .absent (.cons (.moved (.span ..)) .nil)⟩
    · exact ⟨rfl, hfiles, hcounters, _, rfl, .absent .nil⟩
  | methodNotAllowed verbs => exact ⟨rfl, hfiles, hcounters, _, rfl, .absent .nil⟩
  | notFound => exact ⟨rfl, hfiles, hcounters, _, rfl, .absent .nil⟩

theorem chainFor_handlers (w : World) : (s.inWorld w).chainFor r .handlers = s.chainFor r .handlers := by
  unfold chainFor inWorld
  cases (s.router.lookupInto r.method r.uri.path {}).1 <;> rfl

/-- Both servers report the same of a request. -/
theorem summary?_alike (h : m'.context = m.context) : (s.inWorld w).summary? k r m' = s.summary? k r m := by
  unfold summary? receive inWorld
  rw [h]
  dsimp only
  cases (s.router.lookupInto (k.context.load r).method (k.context.load r).path (k.context.load r).params).1 <;> rfl

/-- **A request is served alike** with a log among its middleware. -/
theorem serve_alike {before after : List Program} (hi : i.position = before.length) (hfiles : w.files = s.world.files)
    (hcounters : ∀ n, n ≠ i.counter → w.counters[n]? = s.world.counters[n]?)
    (hchain : s.chainFor r .middleware = before ++ after)
    (hlogged : (s.inWorld w).chainFor r .middleware = before ++ logRequests i.counter :: after)
    (hentries : ∀ kind, ∀ p ∈ s.chainFor r kind, p.DrivesWhole ∧ i.Admits p)
    (hhandler : s.options.catchPanics = true → ∀ fault, (s.panicHandler fault).Within (Deed.Apart i.counter))
    (k : Carrier) :
    ((s.inWorld w).serve k r).1 = (s.serve k r).1 ∧
      ∃ phase, Journal.Logged i phase (s.serve k r).2.journal ((s.inWorld w).serve k r).2.journal ∧
        ((∃ response, (s.serve k r).1 = .ok response) → (s.serve k r).2.journal.faults = [] → phase ≠ .underway) := by
  have hopened := s.poise_opened k r
  have hopened' := (s.inWorld w).poise_opened k r
  rw [hchain] at hopened
  rw [hlogged, chainFor_handlers] at hopened'
  have hall : ∀ p ∈ before ++ after ++ s.chainFor r .handlers, p.DrivesWhole ∧ i.Admits p :=
    List.forall_mem_append.2 ⟨hchain ▸ hentries .middleware, hentries .handlers⟩
  have hdrive := driveChain_logged hi hopened hopened' (fun p hp => (hall p hp).1) (fun p hp => (hall p hp).2)
    (poise_alike hfiles hcounters k r)
  have hdispatch := dispatch_alike hhandler hdrive
  have hsame : (s.inWorld w).dispatch = s.dispatch := rfl
  rcases hdispatch.cases with ⟨_, n, _, n', hd, hd', hn⟩ | ⟨payload, n, n', hd, hd', hn⟩
  · obtain ⟨hanswer, hjournal⟩ := serve_of_ok hd
    obtain ⟨hanswer', hjournal'⟩ := serve_of_ok (hsame ▸ hd')
    rw [summary?_alike hn.context] at hjournal'
    rw [hanswer, hanswer', hjournal, hjournal', hn.context, Journal.faults_reported]
    obtain ⟨phase, hphase, hlog⟩ := hn.journal
    refine ⟨rfl, phase, ?_, fun _ => hphase⟩
    cases s.summary? k r n with
    | none => rwa [Option.map_none, Option.toList_none, List.append_nil, List.append_nil]
    | some summary => exact hlog.report (.moved (.reported summary))
  · obtain ⟨phase, -, hlog⟩ := hn.journal
    rw [serve_of_error hd, serve_of_error (hsame ▸ hd')]
    refine ⟨rfl, phase, hlog, ?_⟩
    rintro ⟨response, hok⟩
    cases hok

end Inserted

/-! ## The log as the first middleware -/

/-- Where nothing was caught, a dispatch that ends well is the chain. -/
theorem driveChain_of_dispatch {n : Machine} (h : s.dispatch m = .ok () n) (hcaught : n.journal.faults = []) :
    driveChain .all m = .ok () n := by
  unfold dispatch at h
  cases hd : driveChain .all m with
  | ok u n' => rw [hd] at h; exact h
  | error payload n' =>
    rw [hd] at h
    dsimp only at h
    split at h
    · exact absurd hcaught (faults_recover h)
    · cases h

/-- **A log that is the first middleware logs one record**, with the status of the answer, whatever the other entries do
but panic. -/
theorem servedBy_handle {counter : Nat} {rest : List Program} {response : Response} (hfresh : s.contexts.Fresh .withCapacity)
    (hchain : s.chainFor r .middleware = logRequests counter :: rest)
    (hok : (s.handle r).1.outcome = .ok response) (hcaught : (s.handle r).1.journal.faults = []) :
    Journal.servedBy (.middleware, 0) [] (s.handle r).1.journal = [response.status] := by
  have hlane := s.poise_lane_eq s.acquire.1 r .middleware
  rw [hchain] at hlane
  have hdone : (s.poise s.acquire.1 r).context.draft.done = false := by
    obtain ⟨headers, hdraft⟩ := s.poise_draft s.acquire.1 r
    rw [hdraft, acquire_fresh hfresh]
    rfl
  -- before the chain there is a span at most, and after it a report
  have hspans : Journal.Passes (.middleware, 0) (fun _ => True) (s.poise s.acquire.1 r).journal :=
    .of_forall fun e he => by
      obtain ⟨group, method, uri, rfl⟩ := s.poise_journal _ r e he
      exact fun _ _ _ => rfl
  rw [handle_fst] at hok hcaught ⊢
  cases hd : s.dispatch (s.poise s.acquire.1 r) with
  | error payload n => rw [serve_of_error hd] at hok; cases hok
  | ok u n =>
    obtain ⟨hanswer, hjournal⟩ := serve_of_ok hd
    rw [hanswer] at hok
    rw [hjournal, Journal.faults_reported] at hcaught
    obtain ⟨es, hes, hserved⟩ := servedBy_first hlane hdone (driveChain_of_dispatch hd hcaught)
    cases hok
    rw [hjournal, hes, List.append_assoc, hspans [] trivial, hserved]
    cases s.summary? s.acquire.1 r n <;> rfl

/-! ## Both together -/

/-- **A request log is transparent and sees the final status.**

- Put in anywhere among middleware and handlers that drive the chain as a whole, keep off its counter and do not ask how
  long the lists are, or are the same log (if it is `shared`), it leaves the outcome of a request as it is; and the
  journal, but for what it tells of itself, the places of the middleware behind it, and the numbers in the records of the
  same log. It has ended if it was started, unless there was a panic.
- As the first middleware of a chain with any entries, it logs one record if nothing panics, with the status of the
  response. -/
theorem logs_transparently (s : Server) (r : Request) (counter : Nat) :
    (∀ (w : World) (before after : List Program) (shared : Prop), w.files = s.world.files →
      (∀ n, n ≠ counter → w.counters[n]? = s.world.counters[n]?) →
      s.chainFor r .middleware = before ++ after →
      (s.inWorld w).chainFor r .middleware = before ++ logRequests counter :: after →
      (∀ kind, ∀ p ∈ s.chainFor r kind,
        p.DrivesWhole ∧ (p.Within (Deed.Apart counter) ∨ shared ∧ p = logRequests counter)) →
      (s.options.catchPanics = true → ∀ fault, (s.panicHandler fault).Within (Deed.Apart counter)) →
      ((s.inWorld w).handle r).1.outcome = (s.handle r).1.outcome ∧
        ∃ phase, Journal.Logged ⟨before.length, counter, shared⟩ phase (s.handle r).1.journal
            ((s.inWorld w).handle r).1.journal ∧
          ((∃ response, (s.handle r).1.outcome = .ok response) → (s.handle r).1.journal.faults = [] →
            phase ≠ .underway)) ∧
    ∀ rest response, s.contexts.Fresh .withCapacity → s.chainFor r .middleware = logRequests counter :: rest →
      (s.handle r).1.outcome = .ok response → (s.handle r).1.journal.faults = [] →
      Journal.servedBy (.middleware, 0) [] (s.handle r).1.journal = [response.status] :=
  ⟨fun _ before _ shared hfiles hcounters hchain hlogged hentries hhandler =>
    serve_alike (i := ⟨before.length, counter, shared⟩) rfl hfiles hcounters hchain hlogged hentries hhandler s.acquire.1,
    fun _ _ hfresh hchain hok hcaught => servedBy_handle hfresh hchain hok hcaught⟩

/-- Logs in front of a middleware that drives the chain and then writes another response. -/
def overwritten (logs : List Program) : World :=
  { lists := [logs ++ [.drive .all <| .render (.status .noContent) <| .finish .proceed]], counters := [0] }

def overwriting : Server :=
  { Server.new {} .empty with
    world := overwritten [logRequests 0]
    router := ((Router.new {}).insert "" .get ⟨"/", "/", []⟩ ⟨0, [.respond (.status .notFound)]⟩).2 }

theorem overwriting_entries : ∀ kind, ∀ p ∈ overwriting.chainFor entangledRequest kind,
    p.DrivesWhole ∧ (p.Within (Deed.Apart 0) ∨ True ∧ p = logRequests 0) := by
  have hmiddleware : overwriting.chainFor entangledRequest .middleware =
      [logRequests 0, .drive .all <| .render (.status .noContent) <| .finish .proceed] := rfl
  have hhandlers : overwriting.chainFor entangledRequest .handlers = [.respond (.status .notFound)] := rfl
  intro kind p hp
  cases kind with
  | middleware =>
    rw [hmiddleware] at hp
    rcases List.mem_pair.1 hp with rfl | rfl
    · exact ⟨logRequests_drivesWhole 0, .inr ⟨trivial, rfl⟩⟩
    · exact ⟨⟨rfl, trivial⟩, .inl ⟨trivial, trivial, trivial⟩⟩
  | handlers =>
    rw [hhandlers] at hp
    obtain rfl := List.mem_singleton.1 hp
    exact ⟨trivial, .inl trivial⟩

/-- The log tells the status of the response that was written last, and putting the same log in once more behind it
changes nothing about that response. -/
theorem logs_transparently_overwriting :
    ((overwriting.inWorld (overwritten [logRequests 0, logRequests 0])).handle entangledRequest).1.outcome =
      (overwriting.handle entangledRequest).1.outcome ∧
    (∃ phase, phase ≠ .underway ∧ Journal.Logged ⟨1, 0, True⟩ phase (overwriting.handle entangledRequest).1.journal
      ((overwriting.inWorld (overwritten [logRequests 0, logRequests 0])).handle entangledRequest).1.journal) ∧
    Journal.servedBy (.middleware, 0) [] (overwriting.handle entangledRequest).1.journal = [.noContent] := by
  obtain ⟨htransparent, hfirst⟩ := logs_transparently overwriting entangledRequest 0
  have hcaught : (overwriting.handle entangledRequest).1.journal.faults = [] := by decide +kernel
  obtain ⟨response, hok, hcode⟩ : ∃ response, (overwriting.handle entangledRequest).1.outcome = .ok response ∧
      response.status = .noContent := ⟨_, rfl, by decide +kernel⟩
  obtain ⟨houtcome, phase, hjournal, hphase⟩ := htransparent (overwritten [logRequests 0, logRequests 0])
    [logRequests 0] _ True rfl (fun _ _ => rfl) rfl rfl overwriting_entries nofun
  have hserved := hfirst _ response (Pool.fresh_of_empty rfl) rfl hok hcaught
  exact ⟨houtcome, ⟨phase, hphase ⟨response, hok⟩ hcaught, hjournal⟩, hserved.trans (congrArg (fun c => [c]) hcode)⟩

end Server

end Switchyard
