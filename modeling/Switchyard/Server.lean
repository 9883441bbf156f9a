import Switchyard.Assets
import Switchyard.Cors
import Switchyard.Group
import Switchyard.Machine
import Switchyard.Settings

/-!
# Servers

A server owns the routes, the groups' middleware, the fallback entries and the pool of contexts. A request takes a
context, is matched, runs the chain it was matched to or a fallback, is reported, and gives the context back,
however it ends.
-/

namespace Switchyard

open Http (Method Verb HeaderName HeaderValue Headers Status Address)

/-- What a route of a server stands for: the middleware list of its group, and its own handlers. -/
structure Chain where
  list : Nat
  handlers : List Program

/-- A finished response. -/
structure Response where
  status : Status
  headers : Headers := {}
  body : ResponseBody := .empty

/-- How a request ended, and what happened on the way. -/
structure Answer where
  outcome : Except Panic Response
  journal : Journal

structure Server where
  options : ServerOptions := {}
  router : Router Chain := {}
  root : Group := {}
  world : World := {}
  notFound : Program := .respond (.status .notFound)
  methodNotAllowed : Program := .respond (.status .methodNotAllowed)
  panicHandler : Fault → Program
  contexts : Pool Carrier := {}

namespace Server

/-- Logs the panic and answers with an envelope of status 500. -/
def defaultPanicHandler (fault : Fault) : Program :=
  .look fun c => .log (.panicked fault.message (fault.location.getD "unknown") c.method.name c.path) <|
    .render (.json (.errorWith .serverError ["internal server error"])) (.finish .proceed)

/-- A server without routes, on these files. -/
def new (options : ServerOptions) (files : FileSystem) : Server :=
  { options, router := .new options.router, world := { files }, panicHandler := defaultPanicHandler }

/-! ## Groups and middleware -/

/-- The number of middleware of a group. -/
def middlewareLength (s : Server) (g : Group) : Nat :=
  (s.world.list g.list).length

/-- Adds a middleware at the end of a group's list. -/
def addMiddleware (s : Server) (g : Group) (entry : Program) : Server :=
  { s with world := s.world.attach g.list entry }

/-- A group below another: its path is joined to the other's, and its list starts as a copy of the other's. -/
def subGroup (s : Server) (g : Group) (name path : String) : Group × Server :=
  (⟨name, g.join path, s.world.lists.length⟩,
    { s with world := { s.world with lists := s.world.lists ++ [s.world.list g.list] } })

/-- A counter that nothing has counted on yet. -/
def newCounter (s : Server) : Nat × Server :=
  (s.world.counters.length, { s with world := { s.world with counters := s.world.counters ++ [0] } })

/-! ## Routes -/

/-- Registers handlers on a path of a group; a refusal leaves the server as it was. -/
def addRoute (s : Server) (g : Group) (method : Method) (path : String) (handlers : List Program) :
    Except RouteError (Route Chain × Server) := do
  let (route, router) ← s.router.add g.name method (g.join path) ⟨g.list, handlers⟩
  return (route, { s with router, contexts := s.contexts.setKey router.maxParams })

/-- The path of a directory's route: the given one without slashes at its end, and the wildcard for files. -/
def directoryPath (path : String) : String :=
  joinPath (.ofList (path.toList.reverse.dropWhile (· = '/')).reverse) ("*" ++ Assets.param)

/-- Serves the files below a directory. -/
def addDirectory (s : Server) (g : Group) (path dir : String) : Except RouteError (Route Chain × Server) :=
  s.addRoute g (.standard .get) (directoryPath path) [Assets.directory ⟨dir⟩]

/-- Serves one file. -/
def addFile (s : Server) (g : Group) (path file : String) : Except RouteError (Route Chain × Server) :=
  s.addRoute g (.standard .get) path [Assets.serve ⟨file⟩]

/-- Answers preflight requests. -/
def addPreflight (s : Server) (g : Group) (path : String) (methods : List Method) :
    Except RouteError (Route Chain × Server) :=
  s.addRoute g (.standard .options) path [Cors.preflight methods]

/-- Switches the route of a path off or on, and tells whether there is one. -/
def disableRoute (s : Server) (method : Method) (path : String) (off : Bool) : Bool × Server :=
  let (found, router) := s.router.disableRoute method path off
  (found, { s with router })

def setDisabled (s : Server) (route : Route Chain) (off : Bool) : Server :=
  { s with router := s.router.setDisabled route off }

/-! ## Requests -/

/-- Takes a context out of the pool. -/
def acquire (s : Server) : Carrier × Server :=
  let (carrier, contexts) := s.contexts.take Carrier.withCapacity
  (carrier, { s with contexts })

/-- Gives a context back. -/
def release (s : Server) (k : Carrier) : Server :=
  { s with contexts := s.contexts.put k }

/-- The value of the header that offers some verbs. -/
def allowValue (verbs : List Verb) : HeaderValue :=
  Cors.value (", ".intercalate (verbs.map Verb.name))

/-- What a context is told of its route. -/
def routeInfo (route : Route Chain) : RouteInfo :=
  ⟨route.pattern.raw, route.group, route.value.list, route.value.handlers.length⟩

/-- Takes a request up in a context and finds its chain; gives the group of the route it matched, if it did. -/
def receive (s : Server) (k : Carrier) (r : Request) : Option String × Machine :=
  let c := k.context.load r
  let (outcome, params) := s.router.lookupInto c.method c.path c.params
  let c := { c with params }
  match outcome with
  | .found route =>
    (some route.group,
      { context := { c with route := some (routeInfo route) }
        middleware := .ofList (s.world.list route.value.list)
        handlers := .ofList route.value.handlers
        world := s.world })
  | .methodNotAllowed verbs =>
    (none,
      { context := { c.apply (.setHeader .allow (allowValue verbs)) with allowed := verbs }
        middleware := .ofList []
        handlers := .ofList [s.methodNotAllowed]
        world := s.world })
  | .notFound =>
    (none,
      { context := c, middleware := .ofList [], handlers := .ofList [s.notFound], world := s.world })

/-- Turns a caught panic into the answer of the panic handler: the chain is stopped and what was written of the
response is dropped before the handler runs. -/
def recover (s : Server) (payload : Panic) : Run Unit := do
  let fault := Fault.ofPanic payload
  modify fun m => { m.halt with context := m.context.resetResponse }.report (.caught fault)
  let _ ← (s.panicHandler fault).run driveChain

/-- Runs the chain; a panic is caught if the server is set to do so. -/
def dispatch (s : Server) : Run Unit := fun m =>
  match driveChain .all m with
  | .error payload m => if s.options.catchPanics then s.recover payload m else .error payload m
  | done => done

/-- The finished response of a draft; that to a HEAD request has no body. -/
def finish (d : Draft) (isHead : Bool) : Response :=
  ⟨d.status, d.headers, if isHead then .empty else .ofBytes d.body⟩

/-- Serves a request in a given context. -/
def serve (s : Server) (k : Carrier) (r : Request) : Except Panic Response × Machine :=
  let (group?, m) := s.receive k r
  let m :=
    match group? with
    | some group =>
      if s.options.profileLabels then m.report (.span group m.context.method.name m.context.uri.text) else m
    | none => m
  match s.dispatch m with
  | .error payload m => (.error payload, m)
  | .ok _ m =>
    let m :=
      match group? with
      | some group =>
        if s.options.reportsDone then
          m.report (.reported ⟨group, m.context.method, m.context.params.path.text, m.context.draft.status⟩)
        else m
      | none => m
    (.ok (finish m.context.draft (r.method == .standard .head)), m)

/-- Serves a request: the response, or the panic that left the chain. -/
def handle (s : Server) (r : Request) : Answer × Server :=
  let (carrier, s) := s.acquire
  let (outcome, m) := s.serve carrier r
  (⟨outcome, m.journal⟩, { s with world := m.world }.release m.toCarrier)

/-- Serves a request of a connection: a panic that left the chain is logged and answered with a bare 500. -/
def handleGuarded (s : Server) (r : Request) (peer : Address) : Response × Journal × Server :=
  let (answer, s) := s.handle { r with remote := some peer }
  match answer.outcome with
  | .ok response => (response, answer.journal, s)
  | .error _ => (⟨.serverError, {}, .empty⟩, answer.journal ++ [.logged .requestPanicked], s)

/-! ## Outlines -/

def groupOutline (s : Server) (g : Group) : String :=
  Text.Outline.record "Group"
    [("name", Text.Outline.quoted g.name), ("path", Text.Outline.quoted g.path),
      ("middleware", toString (s.middlewareLength g))] false

def outline (s : Server) : String :=
  Text.Outline.record "Server"
    [("router", s.router.outline), ("options", s.options.outline), ("root", s.groupOutline s.root)] true

end Server

end Switchyard
