import Switchyard.Proofs.Router.Registered
import Switchyard.Server

/-!
# What registrations on groups leave behind

A registration on a group goes to the router under the joined path; only when the router has taken the route does the
pool of contexts get a new key. So a registration that fails leaves the whole server as it was, and registrations on
groups keep what the same registrations with the router keep.

- `Entry.steps`: the steps of a registration on a group, which is atomic as well (`Entry.atomic_steps`);
- `registerAll_router`: registrations on groups are registrations with the router (`Entry.registration`);
- `registered_exactly`: for a router and for a server, which registrations fail, what a failure leaves, and what is kept
  after any of them.
-/

namespace Switchyard

open Http (Method)

namespace Server

/-- What is registered on a group. -/
structure Entry where
  group : Group
  method : Method
  path : String
  handlers : List Program

/-- Lets something be done to the router of a server. -/
def onRouter {ρ : Type} (x : ExceptT RouteError (StateM (Router Chain)) ρ) : ExceptT RouteError (StateM Server) ρ :=
  ExceptT.mk fun s => ((x.run.run s.router).1, { s with router := (x.run.run s.router).2 })

theorem run_onRouter {ρ : Type} (x : ExceptT RouteError (StateM (Router Chain)) ρ) (s : Server) :
    (onRouter x).run.run s = ((x.run.run s.router).1, { s with router := (x.run.run s.router).2 }) :=
  rfl

namespace Entry

/-- What the router is asked for. -/
def registration (c : Entry) : Registration Chain :=
  ⟨c.group.name, c.method, c.group.join c.path, ⟨c.group.list, c.handlers⟩⟩

/-- A registration on a group, one step after the other. -/
def steps (c : Entry) : ExceptT RouteError (StateM Server) (Route Chain) := do
  let route ← onRouter c.registration.steps
  modify fun s => { s with contexts := s.contexts.setKey s.router.maxParams }
  return route

/-- The steps are what `addRoute` does where nothing fails, and do nothing where something does. -/
theorem run_steps (c : Entry) (s : Server) :
    c.steps.run.run s = leaving s (s.addRoute c.group c.method c.path c.handlers) := by
  rw [steps, ExceptT.run_bind, StateT.run_bind, run_onRouter, c.registration.run_steps, addRoute]
  simp only [registration]
  cases s.router.add c.group.name c.method (c.group.join c.path) ⟨c.group.list, c.handlers⟩ with
  | ok added => rfl
  | error e => rfl

theorem addRoute_eq_error_iff {c : Entry} {s : Server} {e : RouteError} :
    s.addRoute c.group c.method c.path c.handlers = .error e ↔ c.registration.Refused e := by
  rw [← Registration.add_eq_error_iff (r := s.router), addRoute]
  simp only [registration]
  cases s.router.add c.group.name c.method (c.group.join c.path) ⟨c.group.list, c.handlers⟩ with
  | ok added => exact ⟨nofun, nofun⟩
  | error e' =>
    show (Except.error e' : Except RouteError (Route Chain × Server)) = .error e ↔ _
    rw [Except.error.injEq, Except.error.injEq]

/-- **A registration on a group fails exactly when it is refused, and then leaves the server as it was.** -/
theorem atomic_steps : Atomic steps (fun c s => s.addRoute c.group c.method c.path c.handlers)
    fun c e => c.registration.Refused e where
  run := run_steps
  fails c s e s' := by
    rw [run_steps, leaving_eq_error_iff, addRoute_eq_error_iff]

/-- To the router, a registration on a group is one of its own. -/
theorem run_steps_router (c : Entry) (s : Server) :
    (c.steps.run.run s).1 = (c.registration.steps.run.run s.router).1 ∧
      (c.steps.run.run s).2.router = (c.registration.steps.run.run s.router).2 := by
  rw [run_steps, Registration.run_steps, addRoute]
  simp only [registration]
  cases s.router.add c.group.name c.method (c.group.join c.path) ⟨c.group.list, c.handlers⟩ with
  | ok added => exact ⟨rfl, rfl⟩
  | error e => exact ⟨rfl, rfl⟩

end Entry

/-- What some registrations on groups come to, one after the other. -/
def registerAll (cs : List Entry) : StateM Server (List (Except RouteError (Route Chain))) :=
  cs.mapM fun c => c.steps.run

/-- To the router, registrations on groups are registrations of its own. -/
theorem registerAll_router (s : Server) (cs : List Entry) :
    ((registerAll cs).run s).1 = ((Router.registerAll (cs.map Entry.registration)).run s.router).1 ∧
      ((registerAll cs).run s).2.router = ((Router.registerAll (cs.map Entry.registration)).run s.router).2 := by
  induction cs generalizing s with
  | nil => exact ⟨rfl, rfl⟩
  | cons c cs ih =>
    obtain ⟨hanswer, hrouter⟩ := c.run_steps_router s
    obtain ⟨hanswers, hlast⟩ := ih (c.steps.run.run s).2
    rw [hrouter] at hanswers hlast
    rw [registerAll, List.map_cons, Router.registerAll, run_mapM_cons, run_mapM_cons]
    exact ⟨congrArg₂ List.cons hanswer hanswers, hlast⟩

end Server

/-- **Registration is exact and atomic**, with a router and on the groups of a server.

- A registration fails exactly when it is refused: for its method, which is looked at first, or for its pattern. It
  leaves the router, or the server with its pool of contexts, as it was.
- After any registrations, each has failed for the reason it was refused for or given back the route it asked for. The
  router stores those routes and no others under their stems, in their order, and lists each of them once. -/
theorem registered_exactly (α : Type) :
    (Atomic (Registration.steps (α := α)) (fun c r => r.add c.group c.method c.pattern c.value) Registration.Refused ∧
      ∀ options (cs : List (Registration α)),
        List.Forall₂ Registration.Answered cs ((Router.registerAll cs).run (.new options)).1 ∧
          ((Router.registerAll cs).run (.new options)).2.Keeps
            (((Router.registerAll cs).run (.new options)).1.filterMap Except.toOption)) ∧
    Atomic Server.Entry.steps (fun c s => s.addRoute c.group c.method c.path c.handlers)
        (fun c e => c.registration.Refused e) ∧
      ∀ options files (cs : List Server.Entry),
        List.Forall₂ Registration.Answered (cs.map Server.Entry.registration)
            ((Server.registerAll cs).run (.new options files)).1 ∧
          ((Server.registerAll cs).run (.new options files)).2.router.Keeps
            (((Server.registerAll cs).run (.new options files)).1.filterMap Except.toOption) := by
  refine ⟨⟨Registration.atomic_steps, fun options cs => ⟨Router.answered_registerAll _ cs, ?_⟩⟩,
    Server.Entry.atomic_steps, fun options files cs => ?_⟩
  · exact Router.keeps_registerAll options cs
  · obtain ⟨hanswers, hrouter⟩ := Server.registerAll_router (.new options files) cs
    rw [hanswers, hrouter]
    exact ⟨Router.answered_registerAll _ _, Router.keeps_registerAll options.router _⟩

/-- Registrations on a group and on the root, two of which are refused: the first for its method, though its pattern is
no good either. Those that are left are stored under one stem. -/
theorem registered_exactly_mixed : ∃ (answers : List (Except RouteError (Route Chain))) (s : Server),
    (Server.registerAll [⟨{ path := "/api" }, .standard .get, "/a/:x", []⟩,
      ⟨{}, .extension "BREW", "/*a/*b", []⟩, ⟨{}, .standard .get, "/*a/b", []⟩,
      ⟨{ name := "root" }, .standard .get, "/api//a/*y", []⟩]).run (.new {} .empty) = (answers, s) ∧
    answers[1]?.map (·.map Route.number) = some (.error (.unsupportedMethod "BREW")) ∧
    answers[2]?.map (·.map Route.number) = some (.error (.wildcardNotLast "/*a/b")) ∧
    (((s.router.table .get).get? "/api/a").getD []).map (fun route => (route.number, route.group)) =
      [(0, ""), (1, "root")] ∧
    s.router.routes.length = 2 := by
  have hkeeps := ((registered_exactly Unit).2.2 {} .empty [⟨{ path := "/api" }, .standard .get, "/a/:x", []⟩,
    ⟨{}, .extension "BREW", "/*a/*b", []⟩, ⟨{}, .standard .get, "/*a/b", []⟩,
    ⟨{ name := "root" }, .standard .get, "/api//a/*y", []⟩]).2
  refine ⟨_, _, rfl, by rfl, by rfl, ?_, ?_⟩
  · exact congrArg (List.map fun route : Route Chain => (route.number, route.group)) (hkeeps.stored .get "/api/a")
  · exact hkeeps.listed.length_eq

end Switchyard
