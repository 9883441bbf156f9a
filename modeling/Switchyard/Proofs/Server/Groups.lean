import Switchyard.Proofs.Router.Ledger
import Switchyard.Proofs.Server.Dispatch
import Switchyard.Proofs.Server.History

/-!
# Groups and the middleware of a request

A site is a server under traffic, with the handles on its groups that its owner has, of which some may be clones, and
with the history of its groups.

- whatever is done, the lists of the server are what the history says, and a route that was registered on a group has
  the list of this group (`Site.Step.sound`, `Site.Run.sound`);
- so the middleware of a request are what the history says of the group of its route, at the moment the request comes
  in, and stay that (`Site.middleware_of_request`).
-/

namespace Switchyard

/-! ## Sites -/

/-- A handle on a group, with the number of the group; its clones have the same number. -/
structure Handle where
  group : Group
  origin : Nat
  deriving DecidableEq

/-- A server under traffic, the handles on its groups, and what was done with them. -/
structure Site where
  traffic : Traffic
  handles : List Handle
  history : History := []

namespace Site

def server (x : Site) : Server :=
  x.traffic.server

/-- The site with its server changed. -/
def withServer (x : Site) (s : Server) : Site :=
  { x with traffic := { x.traffic with server := s } }

/-- A new server, with a handle on its root. -/
def start (options : ServerOptions) (files : FileSystem) : Site where
  traffic := { server := .new options files }
  handles := [⟨(Server.new options files).root, 0⟩]

/-- A handle is cloned. -/
def clone (x : Site) (g : Handle) : Site :=
  { x with handles := x.handles ++ [g] }

/-- A group is made below that of a handle. -/
def subGroup (x : Site) (g : Handle) (name path : String) : Site :=
  { x.withServer (x.server.subGroup g.group name path).2 with
    handles := x.handles ++ [⟨(x.server.subGroup g.group name path).1, x.history.births + 1⟩]
    history := x.history ++ [.born g.origin] }

def addMiddleware (x : Site) (g : Handle) (entry : Program) : Site :=
  { x.withServer (x.server.addMiddleware g.group entry) with history := x.history ++ [.added g.origin entry] }

/-- A route was registered, which has come to a server. -/
def register (x : Site) (g : Handle) (route : Route Chain) (s : Server) : Site :=
  { x.withServer s with history := x.history ++ [.registered g.origin route] }

/-- A request comes in. -/
def arrive (x : Site) (r : Request) : Site :=
  { x with traffic := x.traffic.arrive r }

/-- A flight has come to a thread. An entry adds to the group whose list it names. -/
def advance (x : Site) (n : Nat) (f : Flight) (u : Thread) : Site :=
  { x with traffic := x.traffic.advance n f u, history := x.history ++ f.thread.attaches }

/-- A flight goes. -/
def leave (x : Site) (n : Nat) (f : Flight) : Site :=
  { x with traffic := x.traffic.leave n f }

/-- What may be done with a site. Whatever is done through a handle is told of the group it stands for. -/
inductive Step : Site → Site → Prop where
  | clone {x : Site} {g : Handle} (hg : g ∈ x.handles) : Step x (x.clone g)
  | subGroup {x : Site} {g : Handle} (hg : g ∈ x.handles) (name path : String) : Step x (x.subGroup g name path)
  | addMiddleware {x : Site} {g : Handle} (hg : g ∈ x.handles) (entry : Program) : Step x (x.addMiddleware g entry)
  | addRoute {x : Site} {g : Handle} (hg : g ∈ x.handles) {method : Http.Method} {path : String}
    {handlers : List Program} {route : Route Chain} {s : Server}
    (h : x.server.addRoute g.group method path handlers = .ok (route, s)) : Step x (x.register g route s)
  /-- Anything else that leaves the routes and the lists as they are: switches, fallbacks, counters. -/
  | configure {x : Site} {s : Server} (h : x.server.Configures s) (htables : s.router.tables = x.server.router.tables)
    (hlists : s.world.lists = x.server.world.lists) : Step x (x.withServer s)
  | arrive (x : Site) (r : Request) : Step x (x.arrive r)
  | advance {x : Site} {n : Nat} {f : Flight} {u : Thread} (hf : x.traffic.flights n = some f)
    (hu : (f.thread.inWorld x.server.world).step = some u) : Step x (x.advance n f u)
  | leave {x : Site} {n : Nat} {f : Flight} (hf : x.traffic.flights n = some f) : Step x (x.leave n f)

abbrev Run : Site → Site → Prop :=
  Relation.ReflTransGen Step

variable {x y : Site}

/-- To its traffic, a step of a site is one of its own or none. -/
theorem Step.traffic (h : Step x y) : Traffic.Run x.traffic y.traffic := by
  cases h with
  | clone hg => exact .refl
  | subGroup hg name path => exact .single (.configure (Server.subGroup_configures _ name path))
  | addMiddleware hg entry => exact .single (.configure (Server.addMiddleware_configures _ entry))
  | addRoute hg h => exact .single (.configure (Server.addRoute_configures h))
  | configure h => exact .single (.configure h)
  | arrive r => exact .single (.arrive _ r)
  | advance hf hu => exact .single (.advance hf hu)
  | leave hf => exact .single (.leave hf)

theorem Run.traffic (h : Run x y) : Traffic.Run x.traffic y.traffic := by
  induction h with
  | refl => exact .refl
  | tail _ hs ih => exact ih.trans hs.traffic

/-! ## The server does what the history says -/

/-- The lists are what the history says, and handles and routes have the lists of the groups that they are told of. -/
structure Sound (x : Site) : Prop where
  tells : x.history.Tells x.server.world
  handles : ∀ g ∈ x.handles, g.group.list = g.origin ∧ g.origin ≤ x.history.births
  registered : ∀ g route, .registered g route ∈ x.history → route.value.list = g ∧ g ≤ x.history.births
  routes : ∀ route, x.server.router.Has route → ∃ g, .registered g route ∈ x.history

theorem Sound.start (options : ServerOptions) (files : FileSystem) : (start options files).Sound where
  tells := .empty files
  handles g hg := by
    obtain rfl := List.mem_singleton.1 hg
    exact ⟨rfl, Nat.le_refl _⟩
  registered g route h := by cases h
  routes route h := by
    obtain ⟨v, stem, routes, hget, -⟩ := h
    have htable : (Site.start options files).server.router.table v = {} := Router.table_new options.router v
    rw [htable, Table.holds_empty stem] at hget
    cases hget

/-- A site stays sound where some events are told and what is new agrees with them. -/
theorem Sound.tell (h : x.Sound) (events : History) (hhistory : y.history = x.history ++ events)
    (htells : y.history.Tells y.server.world)
    (hhandles : ∀ g ∈ y.handles, g ∈ x.handles ∨ g.group.list = g.origin ∧ g.origin ≤ y.history.births)
    (hregistered : ∀ g route, .registered g route ∈ events → route.value.list = g ∧ g ≤ x.history.births)
    (hroutes : ∀ route, y.server.router.Has route →
      x.server.router.Has route ∨ ∃ g, .registered g route ∈ events) : y.Sound where
  tells := htells
  handles g hg := by
    rcases hhandles g hg with hold | hnew
    · obtain ⟨hlist, hle⟩ := h.handles g hold
      refine ⟨hlist, Nat.le_trans hle ?_⟩
      rw [hhistory, History.births_append]
      exact Nat.le_add_right _ _
    · exact hnew
  registered g route hmem := by
    have hle : x.history.births ≤ y.history.births := by
      rw [hhistory, History.births_append]
      exact Nat.le_add_right _ _
    rw [hhistory] at hmem
    rcases List.mem_append.1 hmem with hold | hnew
    · exact (h.registered g route hold).imp_right (Nat.le_trans · hle)
    · exact (hregistered g route hnew).imp_right (Nat.le_trans · hle)
  routes route hroute := by
    rw [hhistory]
    rcases hroutes route hroute with hold | ⟨g, hnew⟩
    · obtain ⟨g, hg⟩ := h.routes route hold
      exact ⟨g, List.mem_append_left _ hg⟩
    · exact ⟨g, List.mem_append_right _ hnew⟩

/-- A site stays sound where nothing is told, and nothing happens to the lists and the routes. -/
theorem Sound.silent (h : x.Sound) (hhistory : y.history = x.history)
    (hlists : y.server.world.lists = x.server.world.lists) (hhandles : ∀ g ∈ y.handles, g ∈ x.handles)
    (htables : y.server.router.tables = x.server.router.tables) : y.Sound := by
  refine h.tell [] (hhistory.trans (List.append_nil _).symm) ?_ (fun g hg => .inl (hhandles g hg))
    (fun _ _ hmem => by cases hmem) (fun _ hroute => .inl ((Router.has_congr htables).1 hroute))
  rw [hhistory]
  exact h.tells.of_lists hlists

/-- **Whatever is done with a site, the server does what the history says.** -/
theorem Step.sound (hs : Step x y) (h : x.Sound) : y.Sound := by
  cases hs with
  | @clone g hg =>
    refine h.silent rfl rfl (fun g' hg' => ?_) rfl
    rcases List.mem_append.1 hg' with hold | hnew
    · exact hold
    · obtain rfl := List.mem_singleton.1 hnew
      exact hg
  | @subGroup g hg name path =>
    obtain ⟨group, origin⟩ := g
    obtain ⟨hlist, hle⟩ : group.list = origin ∧ origin ≤ x.history.births := h.handles _ hg
    subst hlist
    refine h.tell [.born group.list] rfl (h.tells.born hle) (fun g' hg' => ?_) (fun _ _ hmem => by simp at hmem)
      (fun _ hroute => .inl hroute)
    rcases List.mem_append.1 hg' with hold | hnew
    · exact .inl hold
    · -- The list of the new group is the one after all others.
      obtain rfl := List.mem_singleton.1 hnew
      exact .inr ⟨h.tells.births, (History.births_append x.history [.born group.list]).ge⟩
  | @addMiddleware g hg entry =>
    obtain ⟨group, origin⟩ := g
    have hlist : group.list = origin := (h.handles _ hg).1
    subst hlist
    exact h.tell [.added group.list entry] rfl (h.tells.added group.list entry) (fun _ hg' => .inl hg')
      (fun _ _ hmem => by simp at hmem) (fun _ hroute => .inl hroute)
  | @addRoute g hg method path handlers route s hadd =>
    obtain ⟨hlist, hle⟩ := h.handles g hg
    obtain ⟨verb, pattern, -, -, hinsert, hs⟩ := Server.addRoute_insert hadd
    obtain ⟨hroute, hrouter⟩ := Prod.mk.inj hinsert
    refine h.tell [.registered g.origin route] rfl ?_ (fun _ hg' => .inl hg') (fun g' route' hmem => ?_)
      (fun route' hhas => ?_)
    · have hworld : s.world = x.server.world := by rw [hs]
      exact (h.tells.registered g.origin route).of_lists (congrArg World.lists hworld)
    · obtain ⟨rfl, rfl⟩ := GroupEvent.registered.inj (List.mem_singleton.1 hmem)
      rw [hroute]
      exact ⟨hlist, hle⟩
    · have hhas' : s.router.Has route' := hhas
      rw [hrouter] at hhas'
      rcases Router.has_insert hhas' with hold | hnew
      · exact .inl hold
      · obtain rfl : route' = route := hnew.trans hroute.symm
        exact .inr ⟨g.origin, List.mem_singleton.2 rfl⟩
  | configure hc htables hlists => exact h.silent rfl hlists (fun _ hg => hg) htables
  | arrive r => exact h.silent rfl rfl (fun _ hg => hg) rfl
  | @advance n f u hf hu =>
    have hattaches : (f.thread.inWorld x.server.world).attaches = f.thread.attaches := rfl
    rcases Thread.lists_step hu with ⟨hnone, hlists⟩ | ⟨list, entry, hone, hworld⟩
    · rw [hattaches] at hnone
      have hhistory : x.history ++ f.thread.attaches = x.history := by rw [hnone, List.append_nil]
      exact h.silent hhistory hlists (fun _ hg => hg) rfl
    · rw [hattaches] at hone
      refine h.tell [.added list entry] (congrArg (x.history ++ ·) hone) ?_ (fun _ hg => .inl hg)
        (fun _ _ hmem => by simp at hmem) (fun _ hroute => .inl hroute)
      have htells := (h.tells.added list entry).of_lists (congrArg World.lists hworld)
      rwa [← hone] at htells
  | leave hf => exact h.silent rfl rfl (fun _ hg => hg) rfl

theorem Run.sound (h : Run x y) (hx : x.Sound) : y.Sound := by
  induction h with
  | refl => exact hx
  | tail _ hs ih => exact hs.sound ih

/-! ## The middleware of a request -/

/-- The list of a group that a route was registered on is what the history says of the group. -/
theorem Sound.holds_registered (h : x.Sound) {g : Nat} {route : Route Chain}
    (hroute : .registered g route ∈ x.history) (list : List Program) :
    x.history.Holds g list ↔ list = x.server.world.list route.value.list := by
  obtain ⟨rfl, hle⟩ := h.registered g route hroute
  have hlt : route.value.list < x.server.world.lists.length := by
    rw [h.tells.births]
    exact Nat.lt_succ_of_le hle
  rw [h.tells.lists, World.list, List.getElem?_eq_getElem hlt, Option.getD_some, Option.some_inj, eq_comm]

/-- **The middleware of a request are what the group of its route had when the request came in**: what the parent of
the group had when it was made, and what was added to the group since, by whatever handle. The route found was
registered on a group; without one there are no middleware. Nothing that is done later has a part in it, not even by the
request itself: whatever middleware are started are these, in their order. -/
theorem middleware_of_request (options : ServerOptions) (files : FileSystem) {x : Site}
    (hx : (Site.start options files).Run x) (r : Request) :
    (∀ route, (x.server.router.lookupInto r.method r.uri.path {}).1 = .found route →
      (∃ g, .registered g route ∈ x.history) ∧ ∀ g, .registered g route ∈ x.history →
        ∀ list, x.history.Holds g list ↔ list = x.server.chainFor r .middleware) ∧
    ((x.server.router.lookupInto r.method r.uri.path {}).1.found? = none →
      x.server.chainFor r .middleware = []) ∧
    (∃ f, (x.arrive r).traffic.flights x.traffic.admitted = some f ∧ f.request = r ∧
      f.thread.machine.lane .middleware = .ofList (x.server.chainFor r .middleware)) ∧
    ∀ y f, (x.arrive r).Run y → y.traffic.flights x.traffic.admitted = some f →
      ((f.thread.machine.lane .middleware).isOpen = true →
        (f.thread.machine.lane .middleware).entries = x.server.chainFor r .middleware) ∧
      (∃ n ≤ (x.server.chainFor r .middleware).length,
        f.thread.machine.journal.starts .middleware = List.range n) ∧
      ∀ index entry u, (f.thread.inWorld y.server.world).Starts .middleware index entry u →
        (x.server.chainFor r .middleware)[index]? = some entry := by
  have hsound := hx.sound (.start options files)
  have hflight := x.traffic.arrive_self r
  refine ⟨fun route hfound => ?_, fun hmiss => ?_, ⟨_, hflight, rfl, x.server.poise_lane_eq _ r .middleware⟩,
    fun y f hy hf => ?_⟩
  · have hchain : x.server.chainFor r .middleware = x.server.world.list route.value.list := by
      unfold Server.chainFor
      rw [hfound]
    refine ⟨hsound.routes route (Router.has_of_lookupInto hfound), fun g hg list => ?_⟩
    rw [hchain, hsound.holds_registered hg]
  · unfold Server.chainFor
    generalize (x.server.router.lookupInto r.method r.uri.path {}).1 = outcome at hmiss
    cases outcome with
    | found route => cases hmiss
    | methodNotAllowed verbs => rfl
    | notFound => rfl
  · -- Whatever others do to the lists in the meantime, the lane of the flight is the one that it was given.
    have hshared := Traffic.Run.shared hy.traffic (Nat.lt_succ_self x.traffic.admitted) hflight hf
    have horder := hshared.inOrder (x.server.poise_inOrder _ r)
    obtain ⟨n, hn, hstarts, hlane⟩ := horder .middleware
    refine ⟨fun hopen => (hlane hopen).1, ⟨n, hn, hstarts⟩, fun index entry u hu => ?_⟩
    have hnext : (f.thread.machine.lane .middleware).next? = some (index, entry) := hu.next
    obtain ⟨-, hentry, -⟩ := horder.next_entry hnext
    exact hentry

/-- An entry that is added while a request runs. -/
def latecomer : Program :=
  .finish .stop

/-- An entry that adds that one to its group. -/
def inviting : Program :=
  .attach 1 latecomer (.finish .proceed)

def root : Handle :=
  ⟨{}, 0⟩

/-- A handle on the first group that is made below the root. -/
def api : Handle :=
  ⟨⟨"api", "/api", 1⟩, 1⟩

/-- A site where the root had one middleware when the group was made, to which a clone has added another. -/
def grouped : Site :=
  ((((start {} .empty).addMiddleware root (.finish .proceed)).subGroup root "api" "/api").clone api).addMiddleware api
    inviting

/-- That site with a route of the group, and one more middleware of the root. -/
def routed : Site :=
  match grouped.server.addRoute api.group (.standard .get) "/users" [] with
  | .ok (route, s) => (grouped.register api route s).addMiddleware root latecomer
  | .error _ => grouped

/-- A request for that route. -/
def usersRequest : Request :=
  { method := .standard .get, uri := { path := "/api/users" } }

theorem routed_run : (start {} .empty).Run routed := by
  have hadd : grouped.server.addRoute api.group (.standard .get) "/users" [] = .ok _ := rfl
  exact .head (.addMiddleware (by decide +kernel) (.finish .proceed)) <|
    .head (.subGroup (g := root) (by decide +kernel) "api" "/api") <|
    .head (.clone (g := api) (by decide +kernel)) <|
    .head (.addMiddleware (g := api) (by decide +kernel) inviting) <|
    .head (.addRoute (g := api) (by decide +kernel) hadd) <|
    .single (.addMiddleware (g := root) (by decide +kernel) latecomer)

/-- The second middleware of a request adds a third to its group: it is not run for that request, but for the next. -/
theorem middleware_of_request_invited : (start {} .empty).Run routed ∧ ∃ y f,
    (routed.arrive usersRequest).Run y ∧ y.traffic.flights 0 = some f ∧
    f.thread.machine.journal.starts .middleware = [0, 1] ∧
    (f.thread.machine.lane .middleware).entries = [.finish .proceed, inviting] ∧
    y.server.chainFor usersRequest .middleware = [.finish .proceed, inviting, latecomer] := by
  have hy : (routed.arrive usersRequest).Run _ :=
    .head (.advance (n := 0) rfl rfl) <| .head (.advance (n := 0) rfl rfl) <| .head (.advance (n := 0) rfl rfl) <|
      .head (.advance (n := 0) rfl rfl) <| .single (.advance (n := 0) rfl rfl)
  obtain ⟨hgroup, -, -, hlater⟩ := middleware_of_request {} .empty routed_run usersRequest
  obtain ⟨-, hlist⟩ := hgroup _ rfl
  have hchain := (hlist 1 (.tail _ (.tail _ (.tail _ (.head _)))) [.finish .proceed, inviting]).1
    (.child (.root [.added 0 (.finish .proceed)]) _)
  obtain ⟨hgroup', -, -, -⟩ := middleware_of_request {} .empty (routed_run.trans (.head (.arrive _ _) hy)) usersRequest
  obtain ⟨-, hlist'⟩ := hgroup' _ rfl
  have hchain' := (hlist' 1 (.tail _ (.tail _ (.tail _ (.head _)))) [.finish .proceed, inviting, latecomer]).1
    (.child (.root [.added 0 (.finish .proceed)]) _)
  obtain ⟨hentries, -, -⟩ := hlater _ _ hy rfl
  exact ⟨routed_run, _, _, hy, rfl, rfl, (hentries rfl).trans hchain.symm, hchain'.symm⟩

end Site

end Switchyard
