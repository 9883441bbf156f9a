import Mathlib.Logic.Function.Basic
import Switchyard.Proofs.Pool.Fresh
import Switchyard.Proofs.Router.Lookup
import Switchyard.Proofs.Server.Flight

/-!
# Requests that overlap

The traffic of a server is the server with the requests on their way through it. At any time a request may come in,
a flight may make a step in the world as the others have left it, a flight may go, whether it has ended or is given
up half way, and the server may be configured anew. Flights share the world and the pool of contexts.

- whatever has happened, the idle contexts are as good as new (`Run.fresh`);
- a flight whose entries keep to their context goes the way it would go alone, whatever the others do
  (`Follows`, `Run.follows`), and can go it to the end (`Follows.finish`);
- so that no request can tell a server with a history from one with an empty pool (`run_as_new`).
-/

namespace Switchyard

/-! ## Configuration -/

/-- What configuring a server may change: all but the files, and of the pool the key. -/
structure Server.Configures (s s' : Server) : Prop where
  contexts : ∃ key, s'.contexts = s.contexts.setKey key
  files : s'.world.files = s.world.files

namespace Server

variable {s : Server}

/-- What leaves the pool and the files alone is a configuration. -/
theorem Configures.of_contexts {s' : Server} (hc : s'.contexts = s.contexts) (hf : s'.world.files = s.world.files) :
    s.Configures s' :=
  ⟨⟨s.contexts.key, by rw [hc, Pool.setKey, if_pos rfl]⟩, hf⟩

theorem addMiddleware_configures (g : Group) (entry : Program) : s.Configures (s.addMiddleware g entry) :=
  .of_contexts rfl rfl

theorem subGroup_configures (g : Group) (name path : String) : s.Configures (s.subGroup g name path).2 :=
  .of_contexts rfl rfl

/-- A route that is taken is inserted, under the joined path and with the list of its group; of the rest of the server
only the key of the pool may change. -/
theorem addRoute_insert {g : Group} {method : Http.Method} {path : String} {handlers : List Program}
    {route : Route Chain} {s' : Server} (h : s.addRoute g method path handlers = .ok (route, s')) :
    ∃ verb pattern, method.verb? = some verb ∧ Pattern.compile (g.join path) = .ok pattern ∧
      (route, s'.router) = s.router.insert g.name verb pattern ⟨g.list, handlers⟩ ∧
      s' = { s with router := s'.router, contexts := s.contexts.setKey s'.router.maxParams } := by
  unfold addRoute Router.add at h
  cases hverb : method.verb? with
  | none =>
    rw [hverb] at h
    cases h
  | some verb =>
    rw [hverb] at h
    cases hpattern : Pattern.compile (g.join path) with
    | error e =>
      rw [hpattern] at h
      cases h
    | ok pattern =>
      rw [hpattern] at h
      obtain ⟨rfl, rfl⟩ := Prod.mk.inj (Except.ok.inj h)
      exact ⟨verb, pattern, rfl, rfl, rfl, rfl⟩

theorem addRoute_configures {g : Group} {method : Http.Method} {path : String} {handlers : List Program}
    {route : Route Chain} {s' : Server} (h : s.addRoute g method path handlers = .ok (route, s')) :
    s.Configures s' := by
  obtain ⟨verb, pattern, -, -, -, hs'⟩ := addRoute_insert h
  rw [hs']
  exact ⟨⟨_, rfl⟩, rfl⟩

end Server

/-! ## Traffic -/

/-- A server with the flights on their way, each under the number of requests that came before it. -/
structure Traffic where
  server : Server
  admitted : Nat := 0
  flights : Nat → Option Flight := fun _ => none

namespace Traffic

/-- A request comes in: it takes a context and finds its chain. -/
def arrive (t : Traffic) (r : Request) : Traffic where
  server := t.server.acquire.2
  admitted := t.admitted + 1
  flights := Function.update t.flights t.admitted (some (t.server.acquire.2.depart t.server.acquire.1 r))

theorem arrive_self (t : Traffic) (r : Request) :
    (t.arrive r).flights t.admitted = some (t.server.depart t.server.acquire.1 r) :=
  Function.update_self ..

/-- A flight has come to a thread, and the world with it. -/
def advance (t : Traffic) (n : Nat) (f : Flight) (u : Thread) : Traffic :=
  { t with
    server := { t.server with world := u.machine.world }
    flights := Function.update t.flights n (some { f with thread := u }) }

/-- A flight goes: its context is given back as it is. -/
def leave (t : Traffic) (n : Nat) (f : Flight) : Traffic :=
  { t with server := t.server.release f.thread.machine.toCarrier, flights := Function.update t.flights n none }

inductive Step : Traffic → Traffic → Prop where
  | arrive (t : Traffic) (r : Request) : Step t (t.arrive r)
  | advance {t : Traffic} {n : Nat} {f : Flight} {u : Thread} (hf : t.flights n = some f)
      (hu : (f.thread.inWorld t.server.world).step = some u) : Step t (t.advance n f u)
  | leave {t : Traffic} {n : Nat} {f : Flight} (hf : t.flights n = some f) : Step t (t.leave n f)
  | configure {t : Traffic} {s : Server} (h : t.server.Configures s) : Step t { t with server := s }

abbrev Run : Traffic → Traffic → Prop :=
  Relation.ReflTransGen Step

/-! ## What every step keeps -/

variable {t t' : Traffic}

theorem kept_files : Kept fun m m' => m'.world.files = m.world.files where
  refl _ := rfl
  trans h h' := h'.trans h
  apply m c := by cases c <;> rfl
  render m r := by unfold Machine.render; cases r.writeTo.run m.context.draft <;> rfl
  recycle _ := rfl
  report _ _ := rfl
  world _ _ h := h
  close _ kind := by cases kind <;> rfl
  start {_ kind _ _} _ := by cases kind <;> rfl

theorem Step.files (h : Step t t') : t'.server.world.files = t.server.world.files := by
  cases h with
  | arrive r => rfl
  | advance hf hu => exact Thread.step_kept kept_files (fun _ _ => rfl) hu
  | leave hf => rfl
  | configure h => exact h.files

theorem Run.files (h : Run t t') : t'.server.world.files = t.server.world.files := by
  induction h with
  | refl => rfl
  | tail _ hs ih => rw [hs.files, ih]

theorem Step.fresh (h : Step t t') (ht : t.server.contexts.Fresh .withCapacity) :
    t'.server.contexts.Fresh .withCapacity := by
  cases h with
  | arrive r => exact Pool.fresh_take ht
  | advance hf hu => exact ht
  | leave hf => exact Pool.fresh_put Carrier.recycle_eq ht _
  | configure h =>
    obtain ⟨key, hkey⟩ := h.contexts
    show Pool.Fresh _ _
    rw [hkey]
    exact Pool.fresh_setKey ht key

/-- **Whatever has happened, every idle context is as good as new.** -/
theorem Run.fresh (h : Run t t') (ht : t.server.contexts.Fresh .withCapacity) :
    t'.server.contexts.Fresh .withCapacity := by
  induction h with
  | refl => exact ht
  | tail _ hs ih => exact hs.fresh ih

theorem Step.admitted_le (h : Step t t') : t.admitted ≤ t'.admitted := by
  cases h with
  | arrive r => exact Nat.le_succ _
  | _ => exact Nat.le_refl _

theorem Run.admitted_le (h : Run t t') : t.admitted ≤ t'.admitted := by
  induction h with
  | refl => exact Nat.le_refl _
  | tail _ hs ih => exact Nat.le_trans ih hs.admitted_le

/-! ## A flight among others -/

/-- A flight that is there after a step was there before, and has made a step itself at most. -/
theorem Step.flight {n : Nat} {g : Flight} (h : Step t t') (hn : n < t.admitted) (hg : t'.flights n = some g) :
    t.flights n = some g ∨ ∃ f u, t.flights n = some f ∧ (f.thread.inWorld t.server.world).step = some u ∧
      g = { f with thread := u } := by
  cases h with
  | arrive r =>
    have hne := Function.update_of_ne (Nat.ne_of_lt hn)
      (some (t.server.acquire.2.depart t.server.acquire.1 r)) t.flights
    exact .inl (hne.symm.trans hg)
  | @advance m f u hf hu =>
    by_cases hm : n = m
    · subst hm
      have hself := Function.update_self n (some { f with thread := u }) t.flights
      exact .inr ⟨f, u, hf, hu, Option.some.inj (hg.symm.trans hself)⟩
    · have hne := Function.update_of_ne hm (some { f with thread := u }) t.flights
      exact .inl (hne.symm.trans hg)
  | @leave m f hf =>
    by_cases hm : n = m
    · subst hm
      have hself := Function.update_self n (none : Option Flight) t.flights
      cases hself.symm.trans hg
    · have hne := Function.update_of_ne hm (none : Option Flight) t.flights
      exact .inl (hne.symm.trans hg)
  | configure hs => exact .inl hg

/-- The second flight is what the first has come to, but for the world. -/
structure Follows (f g : Flight) : Prop where
  request : g.request = f.request
  confined : g.thread.Confined
  files : g.thread.machine.world.files = f.thread.machine.world.files
  steps : f.thread.Steps (g.thread.inWorld f.thread.machine.world)

namespace Follows

variable {f g : Flight}

theorem refl (h : f.thread.Confined) : Follows f f :=
  ⟨rfl, h, rfl, .refl⟩

/-- The steps of a confined flight are those it makes in its first world. -/
theorem step_iff (h : Follows f g) {w : World} (hw : w.files = f.thread.machine.world.files) {u : Thread} :
    (g.thread.inWorld w).step = some u ↔ ∃ v, g.thread.step = some v ∧ v.inWorld w = u := by
  rw [Thread.step_inWorld h.confined (hw.trans h.files.symm), Option.map_eq_some_iff]

theorem step (h : Follows f g) {w : World} (hw : w.files = f.thread.machine.world.files) {u : Thread}
    (hu : (g.thread.inWorld w).step = some u) : Follows f { g with thread := u } := by
  obtain ⟨v, hv, rfl⟩ := (h.step_iff hw).1 hu
  refine ⟨h.request, Thread.inWorld_confined (Thread.step_confined h.confined hv) w, hw, ?_⟩
  exact h.steps.tail ((h.step_iff rfl).2 ⟨v, hv, rfl⟩)

/-- A flight that has ended has the one outcome it can have. -/
theorem outcome?_eq (h : Follows f g) {v : Thread} {o o' : Except Panic Response} (hv : f.thread.Steps v)
    (he : v.step = none) (ho : Flight.outcome? ⟨f.request, v⟩ = some o) (hg : g.outcome? = some o') : o' = o := by
  have hend : (g.thread.inWorld f.thread.machine.world).step = none := by
    rw [Thread.step_inWorld h.confined h.files.symm, Flight.step_of_outcome? hg]
    rfl
  have hout : Flight.outcome? ⟨f.request, g.thread.inWorld f.thread.machine.world⟩ = some o' := by
    rw [Flight.outcome?_inWorld, ← h.request]
    exact hg
  rw [h.steps.ended_unique hv hend he, ho] at hout
  exact (Option.some.inj hout).symm

/-- **Whatever the others have done, a flight can still come to where it would have come alone.** -/
theorem finish {n : Nat} {v : Thread} (hv : f.thread.Steps v) (he : v.step = none) (h : Follows f g)
    (hg : t.flights n = some g) (hfiles : t.server.world.files = f.thread.machine.world.files) :
    ∃ t' g', Run t t' ∧ t'.flights n = some g' ∧ Follows f g' ∧ g'.thread.inWorld f.thread.machine.world = v := by
  have hrest := h.steps.of_ended hv he
  generalize hx : g.thread.inWorld f.thread.machine.world = x at hrest
  induction hrest using Relation.ReflTransGen.head_induction_on generalizing t g with
  | refl => exact ⟨t, g, .refl, hg, h, hx⟩
  | head hs _ ih =>
    rw [← hx] at hs
    obtain ⟨u, hu, rfl⟩ := (h.step_iff rfl).1 hs
    have hstep := (h.step_iff hfiles).2 ⟨u, hu, rfl⟩
    have hone := Step.advance hg hstep
    obtain ⟨t', g', hrun, hrest⟩ := ih (h.step hfiles hstep)
      (Function.update_self n (some { g with thread := u.inWorld t.server.world }) t.flights)
      (hone.files.trans hfiles) rfl
    exact ⟨t', g', .head hone hrun, hrest⟩

end Follows

/-- **Among others a confined flight goes the way it goes alone.** -/
theorem Run.follows (h : Run t t') {n : Nat} {f g : Flight} (hn : n < t.admitted) (hf : t.flights n = some f)
    (hc : f.thread.Confined) (hfiles : f.thread.machine.world.files = t.server.world.files)
    (hg : t'.flights n = some g) : Follows f g := by
  induction h generalizing g with
  | refl =>
    obtain rfl := Option.some.inj (hf.symm.trans hg)
    exact .refl hc
  | tail hrun hs ih =>
    rcases hs.flight (Nat.lt_of_lt_of_le hn (Run.admitted_le hrun)) hg with hg | ⟨f', u, hf', hu, rfl⟩
    · exact ih hg
    · exact (ih hf').step ((Run.files hrun).trans hfiles.symm) hu

end Traffic

/-! ## A server with a history and one without -/

namespace Server

/-- The server with nothing in its pool. -/
def emptied (s : Server) : Server :=
  { s with contexts := { s.contexts with idle := [] } }

/-- Whatever a server runs keeps to its context. -/
structure Confined (s : Server) : Prop where
  lists : ∀ n, ∀ p ∈ s.world.list n, p.Confined
  handlers : ∀ route, s.router.Has route → ∀ p ∈ route.value.handlers, p.Confined
  notFound : s.notFound.Confined
  methodNotAllowed : s.methodNotAllowed.Confined
  panicHandler : ∀ fault, (s.panicHandler fault).Confined

variable {s : Server}

/-- The lanes of a request are filled with what the server has. -/
theorem Confined.receive (h : s.Confined) (k : Carrier) (r : Request) :
    ∀ kind, ∀ p ∈ ((s.receive k r).2.lane kind).entries, p.Confined := by
  unfold Server.receive
  dsimp only
  split
  · rename_i route hroute
    intro kind p hp
    cases kind with
    | middleware => exact h.lists _ p hp
    | handlers => exact h.handlers route (Router.has_of_lookupInto hroute) p hp
  · intro kind p hp
    cases kind with
    | middleware => cases hp
    | handlers =>
      obtain rfl := List.mem_singleton.1 hp
      exact h.methodNotAllowed
  · intro kind p hp
    cases kind with
    | middleware => cases hp
    | handlers =>
      obtain rfl := List.mem_singleton.1 hp
      exact h.notFound

theorem Confined.depart (h : s.Confined) (k : Carrier) (r : Request) : (s.depart k r).thread.Confined where
  control := trivial
  frames := by
    intro frame hframe
    have hguards : frame ∈ s.guards := hframe
    unfold guards at hguards
    split at hguards
    · obtain rfl := List.mem_singleton.1 hguards
      exact h.panicHandler
    · cases hguards
  entries kind p hp := h.receive k r kind p (by rwa [← s.poise_lane k r kind])

theorem acquire_fresh (h : s.contexts.Fresh .withCapacity) : s.acquire.1 = .withCapacity s.contexts.key :=
  Pool.take_fresh h

/-- A server whose idle contexts are as good as new answers as if it had none. -/
theorem handle_emptied (h : s.contexts.Fresh .withCapacity) (r : Request) : (s.handle r).1 = (s.emptied.handle r).1 := by
  have hserve : ∀ k, s.emptied.serve k r = s.serve k r := fun _ => rfl
  rw [handle_fst, handle_fst, hserve, acquire_fresh h, acquire_fresh (s := s.emptied) (Pool.fresh_of_empty rfl)]
  rfl

end Server

namespace Traffic

variable {t : Traffic}

/-- **No request can tell a server with a history from one with an empty pool.** -/
theorem run_as_new {s : Server} (hs : s.contexts.idle = []) (ht : Run { server := s } t) :
    (∀ k ∈ t.server.contexts.idle, k = .withCapacity t.server.contexts.key) ∧
    ∀ r : Request,
      (t.server.handle r).1 = (t.server.emptied.handle r).1 ∧
      (t.server.Confined → ∀ t' f, Run (t.arrive r) t' → t'.flights t.admitted = some f →
        (∀ o, f.outcome? = some o → o = (t.server.emptied.handle r).1.outcome) ∧
        ∃ t'' f', Run t' t'' ∧ t''.flights t.admitted = some f' ∧
          f'.outcome? = some (t.server.emptied.handle r).1.outcome) := by
  have hfresh := ht.fresh (Pool.fresh_of_empty hs)
  refine ⟨hfresh, fun r => ⟨Server.handle_emptied hfresh r, fun hc t' f hrun hf => ?_⟩⟩
  have hat := t.arrive_self r
  have hfiles : (t.server.depart t.server.acquire.1 r).thread.machine.world.files =
      (t.arrive r).server.world.files := congrArg World.files (t.server.poise_world t.server.acquire.1 r)
  have hfollows := Run.follows hrun (Nat.lt_succ_self t.admitted) hat (hc.depart _ r) hfiles hf
  obtain ⟨v, hv, hend, hout⟩ := t.server.depart_steps t.server.acquire.1 r
  have halone : (t.server.serve t.server.acquire.1 r).1 = (t.server.emptied.handle r).1.outcome :=
    congrArg Answer.outcome (Server.handle_emptied hfresh r)
  rw [halone] at hout
  refine ⟨fun o ho => hfollows.outcome?_eq hv hend hout ho, ?_⟩
  obtain ⟨t'', f', hrun', hf', hfollows', hv'⟩ := Follows.finish hv hend hfollows hf ((Run.files hrun).trans hfiles.symm)
  refine ⟨t'', f', hrun', hf', ?_⟩
  rw [← hv', Flight.outcome?_inWorld] at hout
  rw [← hout, show r = f'.request from hfollows'.request.symm]

/-- A request was given up before its chain ran, and its context was given back with all it held: the next request
finds that context in the pool. -/
theorem run_as_new_given_up : ∃ (s : Server) (t : Traffic) (r : Request),
    s.contexts.idle = [] ∧ Run { server := s } t ∧ t.server.contexts.idle.length = 1 ∧ t.server.Confined ∧
      (t.server.handle r).1 = (t.server.emptied.handle r).1 ∧
      ∃ t' f, Run (t.arrive r) t' ∧ t'.flights 1 = some f ∧
        f.outcome? = some (t.server.emptied.handle r).1.outcome := by
  let s : Server := { Server.new {} .empty with notFound := .change (.write [1]) (.panic { payload := .text "late" }) }
  let r : Request := { method := .standard .get, uri := .root }
  let f : Flight := s.depart s.acquire.1 r
  let t : Traffic := (arrive { server := s } r).leave 0 f
  have hs : s.contexts.idle = [] := rfl
  have hat : (arrive { server := s } r).flights 0 = some f := arrive_self { server := s } r
  have hrun : Run { server := s } t := .tail (.single (.arrive _ r)) (.leave hat)
  have hconfined : t.server.Confined := {
    lists := fun n p hp => by
      cases n with
      | zero => cases hp
      | succ n => cases hp
    handlers := fun route hroute => by
      obtain ⟨v, stem, routes, hget, -⟩ := hroute
      cases v <;> cases hget
    notFound := trivial
    methodNotAllowed := trivial
    panicHandler := fun _ _ => trivial }
  obtain ⟨-, hall⟩ := run_as_new hs hrun
  obtain ⟨hanswer, hflight⟩ := hall r
  obtain ⟨-, hend⟩ := hflight hconfined (t.arrive r) _ .refl (t.arrive_self r)
  have hidle : t.server.contexts.idle.length = 1 := by decide +kernel +zetaReduce
  exact ⟨s, t, r, hs, hrun, hidle, hconfined, hanswer, hend⟩

end Traffic

end Switchyard
