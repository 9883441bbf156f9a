import Switchyard.Proofs.Chain.Mirror
import Switchyard.Proofs.Router.HeadByGet
import Switchyard.Proofs.Server.Directory

/-!
# Answers to HEAD

A request for HEAD that GET stands in for runs the chain of GET. If nothing in this chain minds the method, it ends as
GET does, but for the body (`Server.serve_head`); and no answer to HEAD has a body, however it came about
(`Server.handle_head_body`, `Server.handleGuarded_head_body`, `Flight.head_body`).

What servers run of themselves does not mind the method: the handler of panics and the request log tell it, the handlers
of files do not look at it (`Server.defaultPanicHandler_blind` and the like). So directories answer HEAD as they answer GET
(`Server.directory_head`).
-/

namespace Switchyard

open Http (Method Verb)

/-- The request with another method. -/
def Request.asking (q : Request) (verb : Verb) : Request :=
  { q with method := .standard verb }

/-- The response without its body. -/
def Response.withoutBody (response : Response) : Response :=
  { response with body := .empty }

/-! ## What servers run of themselves -/

theorem Program.respond_blind (r : Responder) : (Program.respond r).MethodBlind :=
  .finish (.respond r)

theorem logRequests_blind (counter : Nat) : (logRequests counter).MethodBlind :=
  .count counter fun _ => .drive .all <| .look fun _ _ => .log _ _ <| .finish .proceed

theorem Assets.serve_blind (path : FilePath) : (Assets.serve path).MethodBlind := by
  refine .readFile path fun result => ?_
  cases result with
  | ok file => exact Program.respond_blind _
  | error e =>
    cases e with
    | notFound | denied => exact Program.respond_blind _
    | unreadable => exact .look fun _ _ => .log _ _ (Program.respond_blind _)

theorem Assets.directory_blind (root : FilePath) : (Assets.directory root).MethodBlind := by
  refine .look fun c method => ?_
  have hparams : (c.asking method).params = c.params := rfl
  rw [hparams]
  cases Assets.resolve? root ((c.params.get? Assets.param).getD "") with
  | some path => exact Assets.serve_blind path
  | none => exact Program.respond_blind _

namespace Server

theorem defaultPanicHandler_blind (fault : Fault) : (defaultPanicHandler fault).MethodBlind :=
  .look fun _ _ => .log _ _ <| .render _ <| .finish .proceed

end Server

/-! ## The chain of a request -/

variable {s : Server} {q : Request}

namespace Server

/-- The contexts differ in the method, and the lanes are filled alike. -/
theorem receive_head (hopt : s.router.options.headToGet = true) (hfree : s.router.HeadFree q.uri.path) (k : Carrier) :
    (s.receive k (q.asking .head)).1 = (s.receive k (q.asking .get)).1 ∧
      (s.receive k (q.asking .get)).2.Mirrors (s.receive k (q.asking .head)).2 := by
  have hlookup : ∀ verb, verb = .head ∨ verb = .get → s.router.lookupInto (k.context.load (q.asking verb)).method
      (k.context.load (q.asking verb)).path (k.context.load (q.asking verb)).params =
        s.router.lookupInto (.standard .get) q.uri.path k.context.params := by
    rintro verb (rfl | rfl)
    · exact Router.lookupInto_head hopt hfree k.context.params
    · rfl
  unfold receive
  dsimp only
  rw [hlookup .head (.inl rfl), hlookup .get (.inr rfl)]
  cases (s.router.lookupInto (.standard .get) q.uri.path k.context.params).1 <;>
    exact ⟨rfl, .standard .head, _, rfl⟩

theorem poise_head (hopt : s.router.options.headToGet = true) (hfree : s.router.HeadFree q.uri.path) (k : Carrier) :
    (s.poise k (q.asking .get)).Mirrors (s.poise k (q.asking .head)) := by
  obtain ⟨hgroup, hmirrors⟩ := receive_head hopt hfree k
  unfold poise
  generalize s.receive k (q.asking .get) = get, s.receive k (q.asking .head) = head at hgroup hmirrors
  obtain ⟨group?, m⟩ := get
  obtain ⟨group'?, m'⟩ := head
  obtain rfl : group'? = group? := hgroup
  cases group'? with
  | none => exact hmirrors
  | some group =>
    dsimp only
    split
    · exact hmirrors.report _ _
    · exact hmirrors

/-- The flight of HEAD does what that of GET does. -/
theorem depart_head (hopt : s.router.options.headToGet = true) (hfree : s.router.HeadFree q.uri.path)
    (hpanics : s.options.catchPanics = true → ∀ fault, (s.panicHandler fault).MethodBlind) (k : Carrier) :
    (s.depart k (q.asking .get)).thread.Mirrors (s.depart k (q.asking .head)).thread := by
  refine ⟨.drive .all, ?_, poise_head hopt hfree k⟩
  show List.Forall₂ Frame.Mirrors s.guards s.guards
  unfold guards
  split
  · rename_i hcatch
    exact .cons (.guard (hpanics hcatch)) .nil
  · exact .nil

theorem depart_blind {r : Request} (hchain : ∀ kind, ∀ p ∈ s.chainFor r kind, p.MethodBlind) (k : Carrier) :
    (s.depart k r).thread.Blind := by
  intro kind p hp
  refine hchain kind p ?_
  have hlane : (s.depart k r).thread.machine.lane kind = .ofList (s.chainFor r kind) := s.poise_lane_eq k r kind
  rw [hlane] at hp
  exact hp

end Server

/-- Where flights that mirror each other end, that for HEAD has the outcome of that for GET but for the body. -/
theorem Flight.outcome?_head {t t' : Thread} (h : t.Mirrors t') {o : Except Panic Response}
    (ho : Flight.outcome? ⟨q.asking .get, t⟩ = some o) :
    Flight.outcome? ⟨q.asking .head, t'⟩ = some (o.map Response.withoutBody) := by
  obtain ⟨control, frames, m⟩ := t
  obtain ⟨control', frames', m'⟩ := t'
  obtain ⟨hc, hf, hm⟩ := h
  have hdraft : m'.context.draft = m.context.draft := hm.draft
  cases hc with
  | idle =>
    cases hf with
    | nil =>
      obtain rfl := Option.some.inj ho
      show some (Except.ok (Server.finish m'.context.draft true)) = _
      rw [hdraft]
      rfl
    | cons hframe hf => cases ho
  | unwind payload =>
    cases hf with
    | nil =>
      obtain rfl := Option.some.inj ho
      rfl
    | cons hframe hf => cases ho
  | _ => cases ho

namespace Server

/-- **If nothing in the chain of GET minds the method, HEAD ends as GET does, but for the body.** -/
theorem serve_head (hopt : s.router.options.headToGet = true) (hfree : s.router.HeadFree q.uri.path)
    (hchain : ∀ kind, ∀ p ∈ s.chainFor (q.asking .get) kind, p.MethodBlind)
    (hpanics : s.options.catchPanics = true → ∀ fault, (s.panicHandler fault).MethodBlind) (k : Carrier) :
    (s.serve k (q.asking .head)).1 = (s.serve k (q.asking .get)).1.map Response.withoutBody := by
  obtain ⟨t, ht, hend, hget⟩ := s.depart_steps k (q.asking .get)
  obtain ⟨u, hu, hend', hhead⟩ := s.depart_steps k (q.asking .head)
  obtain ⟨t', ht', hmirrors, hblind⟩ := (depart_head hopt hfree hpanics k).steps (depart_blind hchain k) ht
  have hnone : t'.step = none := by
    have hstep := hmirrors.step hblind
    rw [hend] at hstep
    generalize t'.step = next at hstep
    cases hstep
    rfl
  obtain rfl := Thread.Steps.ended_unique ht' hu hnone hend'
  exact Option.some.inj (hhead.symm.trans (Flight.outcome?_head hmirrors hget))

/-- A request is served in a context of the pool. -/
theorem handle_outcome (s : Server) (r : Request) : (s.handle r).1.outcome = (s.serve s.acquire.1 r).1 := rfl

/-- **A directory answers HEAD as it answers GET, but for the body**, if the middleware of its group does not mind the
method. -/
theorem directory_head {s₁ s₂ : Server} {g : Group} {path dir : String} {route : Route Chain}
    (hadd : s.addDirectory g path dir = .ok (route, s₁))
    (hfound : (s₂.router.lookupInto (.standard .get) q.uri.path {}).1 = .found route)
    (hopt : s₂.router.options.headToGet = true) (hfree : s₂.router.HeadFree q.uri.path)
    (hmiddleware : ∀ p ∈ s₂.world.list g.list, p.MethodBlind)
    (hpanics : s₂.options.catchPanics = true → ∀ fault, (s₂.panicHandler fault).MethodBlind) :
    (s₂.handle (q.asking .head)).1.outcome = (s₂.handle (q.asking .get)).1.outcome.map Response.withoutBody := by
  have hget : (s₂.router.lookupInto (q.asking .get).method (q.asking .get).uri.path {}).1 = .found route := hfound
  rw [handle_outcome, handle_outcome]
  refine serve_head hopt hfree (fun kind p hp => ?_) hpanics s₂.acquire.1
  cases kind with
  | middleware =>
    rw [chainFor_directory_middleware hadd hget] at hp
    exact hmiddleware p hp
  | handlers =>
    rw [chainFor_directory hadd hget] at hp
    obtain rfl := List.mem_singleton.1 hp
    exact Assets.directory_blind _

/-! ## No body -/

theorem serve_head_body {k : Carrier} {r : Request} (hr : r.method = .standard .head) {response : Response}
    (h : (s.serve k r).1 = .ok response) : response.body = .empty := by
  rw [serve_fst] at h
  cases hdispatch : s.dispatch (s.poise k r) with
  | error payload m =>
    rw [hdispatch] at h
    cases h
  | ok u m =>
    rw [hdispatch] at h
    obtain rfl := Except.ok.inj h
    rw [hr]
    rfl

/-- No answer to HEAD has a body. -/
theorem handle_head_body {r : Request} (hr : r.method = .standard .head) {response : Response}
    (h : (s.handle r).1.outcome = .ok response) : response.body = .empty := by
  rw [handle_outcome] at h
  exact serve_head_body hr h

theorem handleGuarded_head_body {r : Request} (hr : r.method = .standard .head) (peer : Http.Address) :
    (s.handleGuarded r peer).1.body = .empty := by
  unfold handleGuarded
  dsimp only
  split
  · rename_i response hresponse
    exact handle_head_body (r := { r with remote := some peer }) hr hresponse
  · rfl

end Server

/-- Nor does an answer to HEAD have a body when other requests came in between. -/
theorem Flight.head_body {f : Flight} (hf : f.request.method = .standard .head) {response : Response}
    (h : f.outcome? = some (.ok response)) : response.body = .empty := by
  obtain ⟨r, control, frames, m⟩ := f
  cases control with
  | idle =>
    cases frames with
    | nil =>
      obtain rfl := Except.ok.inj (Option.some.inj h)
      have hr : r.method = .standard .head := hf
      rw [hr]
      rfl
    | cons frame frames => cases h
  | unwind payload =>
    cases frames with
    | nil => cases h
    | cons frame frames => cases h
  | _ => cases h

/-- **HEAD served by GET is GET without a body.** Where GET stands in for HEAD, and no enabled HEAD route wins, lookups
for the two are the same in all they give and leave. So if nothing in the chain of GET minds the method, HEAD is
answered like GET, with the same status and headers or the same panic, and with no body. No answer to HEAD has a body
in any case. -/
theorem head_without_body :
    (∀ (α : Type) (r : Router α) (path : String), r.options.headToGet = true → r.HeadFree path →
      r.lookup (.standard .head) path = r.lookup (.standard .get) path ∧
        ∀ params, r.lookupInto (.standard .head) path params = r.lookupInto (.standard .get) path params) ∧
    (∀ (s : Server) (q : Request), s.router.options.headToGet = true → s.router.HeadFree q.uri.path →
      (∀ kind, ∀ p ∈ s.chainFor (q.asking .get) kind, p.MethodBlind) →
      (s.options.catchPanics = true → ∀ fault, (s.panicHandler fault).MethodBlind) →
        (s.handle (q.asking .head)).1.outcome = (s.handle (q.asking .get)).1.outcome.map Response.withoutBody) ∧
    (∀ (s : Server) (q : Request) (response : Response), q.method = .standard .head →
      (s.handle q).1.outcome = .ok response ∨ (∃ peer, (s.handleGuarded q peer).1 = response) ∨
        (∃ f : Flight, f.request = q ∧ f.outcome? = some (.ok response)) → response.body = .empty) := by
  refine ⟨fun α r path hopt hfree => ?_, fun s q hopt hfree hchain hpanics => ?_, fun s q response hq h => ?_⟩
  · exact ⟨Router.lookup_head hopt hfree, Router.lookupInto_head hopt hfree⟩
  · rw [Server.handle_outcome, Server.handle_outcome]
    exact Server.serve_head hopt hfree hchain hpanics s.acquire.1
  · rcases h with h | ⟨peer, rfl⟩ | ⟨f, rfl, h⟩
    · exact Server.handle_head_body hq h
    · exact Server.handleGuarded_head_body hq peer
    · exact f.head_body hq h

/-- A server with a HEAD route that is switched off, and a GET route whose handler writes and then panics. -/
def wavering : Server :=
  let router := ((Router.new {}).insert "" .head ⟨"/", "/", []⟩ ⟨0, [.finish .stop]⟩).2
  { Server.new { catchPanics := true } .empty with
    world := { lists := [[logRequests 0]], counters := [0] }
    router := ((router.disableRoute (.standard .head) "/" true).2.insert "" .get ⟨"/", "/", []⟩
      ⟨0, [.change (.write [1]) (.panic { payload := .text "boom" })]⟩).2 }

theorem head_without_body_wavering :
    wavering.router.lookup (.standard .head) "/" = wavering.router.lookup (.standard .get) "/" ∧
    (wavering.handle (Server.entangledRequest.asking .head)).1.outcome =
      (wavering.handle (Server.entangledRequest.asking .get)).1.outcome.map Response.withoutBody ∧
    (wavering.handle (Server.entangledRequest.asking .get)).1.outcome.toOption.map (·.status) = some .serverError ∧
    ∀ response, (wavering.handle (Server.entangledRequest.asking .head)).1.outcome = .ok response →
      response.body = .empty := by
  obtain ⟨hlookup, hanswer, hbody⟩ := head_without_body
  have hfree : wavering.router.HeadFree "/" := by
    have hselect : wavering.router.select .head (Path.empty.load true "/") =
        some (⟨0, .head, "", ⟨"/", "/", []⟩, ⟨0, [.finish .stop]⟩⟩, 0) := rfl
    intro route k hroute
    obtain ⟨rfl, -⟩ := Prod.mk.inj (Option.some.inj (hselect.symm.trans hroute))
    rfl
  have hmiddleware : wavering.chainFor (Server.entangledRequest.asking .get) .middleware = [logRequests 0] := rfl
  have hhandlers : wavering.chainFor (Server.entangledRequest.asking .get) .handlers =
      [.change (.write [1]) (.panic { payload := .text "boom" })] := rfl
  have hchain : ∀ kind, ∀ p ∈ wavering.chainFor (Server.entangledRequest.asking .get) kind, p.MethodBlind := by
    intro kind p hp
    cases kind with
    | middleware =>
      rw [hmiddleware] at hp
      obtain rfl := List.mem_singleton.1 hp
      exact logRequests_blind 0
    | handlers =>
      rw [hhandlers] at hp
      obtain rfl := List.mem_singleton.1 hp
      exact .change _ (.panic _)
  refine ⟨(hlookup Chain wavering.router "/" rfl hfree).1, ?_, by decide +kernel, ?_⟩
  · exact hanswer wavering Server.entangledRequest rfl hfree hchain fun _ => Server.defaultPanicHandler_blind
  · exact fun response h => hbody wavering (Server.entangledRequest.asking .head) response rfl (.inl h)

end Switchyard
