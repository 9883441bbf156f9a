import Switchyard.Proofs.Router.OwnPath

/-!
# What registrations leave behind

A registration looks at the method, compiles the pattern, makes room for the captures and puts the route into a table,
in this order. It can only fail before it has changed anything.

- `Registration.steps`: the steps, each on the router that the steps before it left; together they are what `add` does
  (`Registration.run_steps`);
- they fail exactly where a registration is refused, and leave the router as it was (`Registration.atomic_steps`);
- a router that agrees with a ledger keeps the routes it gave back and no others (`Agrees.keeps`): in the table of
  their verb under their stem, in their order, and each once in the list of all routes;
- so it does after any registrations, some of which failed (`Router.keeps_registerAll`).
-/

namespace Switchyard

open Http (Method Verb)

variable {α : Type}

/-! ## One registration, step by step -/

/-- What an addition comes to and the state it leaves: the one from before, if it is refused. -/
def leaving {σ ρ : Type} (s : σ) : Except RouteError (ρ × σ) → Except RouteError ρ × σ
  | .ok (result, s') => (.ok result, s')
  | .error e => (.error e, s)

theorem leaving_eq_error_iff {σ ρ : Type} {s s' : σ} {added : Except RouteError (ρ × σ)} {e : RouteError} :
    leaving s added = (.error e, s') ↔ added = .error e ∧ s' = s := by
  cases added with
  | ok result => exact ⟨fun h => (nomatch (Prod.mk.inj h).1), fun h => (nomatch h.1)⟩
  | error e' =>
    rw [leaving, Prod.mk.injEq, Except.error.injEq, Except.error.injEq]
    exact and_congr_right fun _ => eq_comm

/-- Steps that change a state and may fail on the way do what an addition does at once, and fail exactly where it is
refused, without having changed the state. -/
structure Atomic {σ γ ρ : Type} (steps : γ → ExceptT RouteError (StateM σ) ρ) (add : γ → σ → Except RouteError (ρ × σ))
    (refused : γ → RouteError → Prop) : Prop where
  run : ∀ c s, (steps c).run.run s = leaving s (add c s)
  fails : ∀ c s e s', (steps c).run.run s = (.error e, s') ↔ refused c e ∧ s' = s

namespace Router

/-- Makes room for a number of captures: if no route had so many, the pool lends buffers for them from now on. -/
def makeRoom (r : Router α) (count : Nat) : Router α :=
  if r.maxParams < count then { r with maxParams := count, buffers := r.buffers.setKey count } else r

/-- Puts a route into the table of its verb, after those of its stem. -/
def keep (r : Router α) (route : Route α) : Router α :=
  { r with
    tables := r.tables.set route.verb.index ((r.table route.verb).insert route)
    added := r.added + 1 }

theorem keep_makeRoom (r : Router α) (group : String) (verb : Verb) (pattern : Pattern) (value : α) :
    (r.makeRoom pattern.dynamicCount).keep ⟨r.added, verb, group, pattern, value⟩ =
      (r.insert group verb pattern value).2 := by
  unfold makeRoom insert
  dsimp only
  split
  · rename_i hlt
    rw [Nat.max_eq_right (Nat.le_of_lt hlt)]
    rfl
  · rename_i hle
    rw [Nat.max_eq_left (Nat.le_of_not_lt hle)]
    rfl

end Router

namespace Registration

/-- A registration, one step after the other. Where it fails, the router stays as the steps before have left it. -/
def steps (c : Registration α) : ExceptT RouteError (StateM (Router α)) (Route α) := do
  let some verb := c.method.verb? | throw (.unsupportedMethod c.method.name)
  let pattern ← ofExcept (Pattern.compile c.pattern)
  modify fun r => r.makeRoom pattern.dynamicCount
  let r ← get
  let route := ⟨r.added, verb, c.group, pattern, c.value⟩
  set (r.keep route)
  return route

/-- The steps are what `add` does where nothing fails, and do nothing where something does. -/
theorem run_steps (c : Registration α) (r : Router α) :
    c.steps.run.run r = leaving r (r.add c.group c.method c.pattern c.value) := by
  rw [Router.add_eq, steps]
  cases c.method.verb? with
  | none => rfl
  | some verb =>
    cases Pattern.compile c.pattern with
    | error e => rfl
    | ok pattern =>
      -- the route is numbered after room was made, which does not change the number
      have hadded : (r.makeRoom pattern.dynamicCount).added = r.added := by
        unfold Router.makeRoom
        split <;> rfl
      show (Except.ok (⟨(r.makeRoom pattern.dynamicCount).added, verb, c.group, pattern, c.value⟩ : Route α),
        (r.makeRoom pattern.dynamicCount).keep
          ⟨(r.makeRoom pattern.dynamicCount).added, verb, c.group, pattern, c.value⟩) = _
      rw [hadded, r.keep_makeRoom]
      rfl

/-- Why a registration is refused: for its method, which is looked at first, or for its pattern. -/
inductive Refused (c : Registration α) : RouteError → Prop where
  | method {token : String} (h : c.method = .extension token) : Refused c (.unsupportedMethod token)
  | pattern {v : Verb} {e : RouteError} (hmethod : c.method = .standard v) (h : Pattern.compile c.pattern = .error e) :
    Refused c e

/-- The route is what the registration asks for. -/
structure Makes (c : Registration α) (route : Route α) : Prop where
  method : c.method = .standard route.verb
  pattern : Pattern.compile c.pattern = .ok route.pattern
  group : route.group = c.group
  value : route.value = c.value

/-- What a registration may come to: it is refused, or gives back what it asks for. -/
def Answered (c : Registration α) : Except RouteError (Route α) → Prop
  | .error e => c.Refused e
  | .ok route => c.Makes route

theorem add_eq_error_iff {c : Registration α} {r : Router α} {e : RouteError} :
    r.add c.group c.method c.pattern c.value = .error e ↔ c.Refused e := by
  rw [Router.add_eq]
  cases hmethod : c.method with
  | extension token =>
    constructor
    · intro h
      obtain rfl := Except.error.inj h
      exact .method hmethod
    · rintro (hmethod' | ⟨hmethod', -⟩)
      · obtain rfl := Method.extension.inj (hmethod.symm.trans hmethod')
        rfl
      · cases hmethod.symm.trans hmethod'
  | standard v =>
    show (Pattern.compile c.pattern).map _ = .error e ↔ _
    cases hcompile : Pattern.compile c.pattern with
    | error e' =>
      constructor
      · intro h
        obtain rfl := Except.error.inj h
        exact .pattern hmethod hcompile
      · rintro (hmethod' | ⟨-, hcompile'⟩)
        · cases hmethod.symm.trans hmethod'
        · obtain rfl := Except.error.inj (hcompile.symm.trans hcompile')
          rfl
    | ok pattern =>
      refine ⟨nofun, ?_⟩
      rintro (hmethod' | ⟨-, hcompile'⟩)
      · cases hmethod.symm.trans hmethod'
      · cases hcompile.symm.trans hcompile'

theorem makes_of_add {c : Registration α} {r r' : Router α} {route : Route α}
    (h : r.add c.group c.method c.pattern c.value = .ok (route, r')) : c.Makes route := by
  rw [Router.add_eq] at h
  cases hmethod : c.method with
  | extension token =>
    rw [hmethod] at h
    cases h
  | standard v =>
    rw [hmethod] at h
    change (Pattern.compile c.pattern).map _ = .ok (route, r') at h
    cases hcompile : Pattern.compile c.pattern with
    | error e =>
      rw [hcompile] at h
      cases h
    | ok pattern =>
      rw [hcompile] at h
      obtain ⟨rfl, -⟩ := Prod.mk.inj (Except.ok.inj h)
      exact ⟨hmethod, hcompile, rfl, rfl⟩

/-- **A registration fails exactly when it is refused, and then leaves the router as it was.** -/
theorem atomic_steps : Atomic (steps (α := α)) (fun c r => r.add c.group c.method c.pattern c.value) Refused where
  run := run_steps
  fails c r e r' := by
    rw [run_steps, leaving_eq_error_iff, add_eq_error_iff]

theorem answered_steps (c : Registration α) (r : Router α) : c.Answered (c.steps.run.run r).1 := by
  rw [run_steps]
  cases hadd : r.add c.group c.method c.pattern c.value with
  | ok added =>
    obtain ⟨route, r'⟩ := added
    exact makes_of_add hadd
  | error e => exact add_eq_error_iff.1 hadd

end Registration

/-! ## What a router keeps -/

/-- A router keeps some routes and no others: under each stem of a verb, those of the verb with that stem, in their
order, and every one of them once in the list of all its routes. -/
structure Router.Keeps (r : Router α) (routes : List (Route α)) : Prop where
  stored : ∀ v stem, ((r.table v).get? stem).getD [] =
    routes.filter fun route => route.verb == v && route.pattern.stem == stem
  nonempty : ∀ v stem, (r.table v).get? stem ≠ some []
  listed : r.routes.Perm routes
  nodup : routes.Nodup

theorem Table.Holds.mem_of_mem_routes {t : Table α} {routes : List (Route α)} {route : Route α} (h : t.Holds routes)
    (hroute : route ∈ t.routes) : route ∈ routes := by
  obtain ⟨stem, under, hget, hmem⟩ := Table.mem_routes_iff.1 hroute
  rw [h stem] at hget
  obtain rfl := Option.some.inj (Option.ite_none_right_eq_some.1 hget).2
  exact (List.mem_filter.1 hmem).1

/-- No route stands twice in a table that holds different routes: what stands under different stems is different. -/
theorem Table.Holds.nodup {t : Table α} {routes : List (Route α)} (h : t.Holds routes) (hnodup : routes.Nodup) :
    t.routes.Nodup := by
  have hunder : ∀ entry ∈ t.byStem.toList, entry.2 = routes.filter (Route.hasStem entry.1) := by
    intro entry hentry
    have hget : t.get? entry.1 = some entry.2 := Std.TreeMap.mem_toList_iff_getElem?_eq_some.1 hentry
    rw [h] at hget
    exact (Option.some.inj (Option.ite_none_right_eq_some.1 hget).2).symm
  rw [Table.routes_eq, List.nodup_flatten]
  refine ⟨fun list hlist => ?_, List.pairwise_map.2 ?_⟩
  · obtain ⟨entry, hentry, rfl⟩ := List.mem_map.1 hlist
    rw [hunder entry hentry]
    exact hnodup.filter _
  · -- a route under two stems would have both
    refine Std.TreeMap.distinct_keys_toList.imp_of_mem fun {a b} ha hb hne route hroute hroute' => ?_
    rw [hunder a ha] at hroute
    rw [hunder b hb] at hroute'
    have hstem := Route.hasStem_iff.1 (List.mem_filter.1 hroute).2
    exact hne (Std.LawfulEqCmp.compare_eq_iff_eq.2 (hstem.symm.trans (Route.hasStem_iff.1 (List.mem_filter.1 hroute').2)))

namespace Agrees

variable {s : Session α} {l : Ledger α}

theorem nodup_routes (h : Agrees s l) : s.router.routes.Nodup := by
  refine List.nodup_flatMap.2 ⟨fun v _ => (h.tables v).nodup ((Ledger.Numbered.nodup h.number).filter _), ?_⟩
  -- a route in the tables of two verbs would have both
  refine Verb.nodup_all.imp fun {v w} hne route hroute hroute' => hne ?_
  have hv := (List.mem_filter.1 ((h.tables v).mem_of_mem_routes hroute)).2
  have hw := (List.mem_filter.1 ((h.tables w).mem_of_mem_routes hroute')).2
  exact (beq_iff_eq.1 hv).symm.trans (beq_iff_eq.1 hw)

/-- **A router keeps the routes it gave back**, whatever was called. -/
theorem keeps (h : Agrees s l) : s.router.Keeps s.handles where
  stored v stem := by
    have hfilter : (l.routes.filter fun route => route.verb == v && route.pattern.stem == stem) =
        (l.routesOf v).filter (Route.hasStem stem) := by
      rw [Ledger.routesOf, List.filter_filter]
      exact List.filter_congr fun route _ => Bool.and_comm _ _
    rw [h.tables v, h.handles, hfilter]
    split
    · rfl
    · rename_i hnone
      refine (List.filter_eq_nil_iff.2 fun route hroute hstem => hnone ?_).symm
      exact List.any_eq_true.2 ⟨route, hroute, hstem⟩
  nonempty v stem hempty := by
    rw [h.tables v] at hempty
    obtain ⟨hany, hnil⟩ := Option.ite_none_right_eq_some.1 hempty
    obtain ⟨route, hroute, hstem⟩ := List.any_eq_true.1 hany
    exact List.filter_eq_nil_iff.1 (Option.some.inj hnil) route hroute hstem
  listed := by
    rw [h.handles]
    exact (List.perm_ext_iff_of_nodup h.nodup_routes (Ledger.Numbered.nodup h.number)).2 fun _ => h.mem_routes_iff
  nodup := by
    rw [h.handles]
    exact Ledger.Numbered.nodup h.number

end Agrees

/-! ## Many registrations -/

/-- What some registrations come to, one after the other. -/
def Router.registerAll (cs : List (Registration α)) : StateM (Router α) (List (Except RouteError (Route α))) :=
  cs.mapM fun c => c.steps.run

/-- Of a row of actions on a state, the first is done first and the others where it leads. -/
theorem run_mapM_cons {β γ σ : Type} (f : β → StateM σ γ) (b : β) (bs : List β) (s : σ) : ((b :: bs).mapM f).run s =
    (((f b).run s).1 :: ((bs.mapM f).run ((f b).run s).2).1, ((bs.mapM f).run ((f b).run s).2).2) := by
  rw [List.mapM_cons]
  rfl

/-- A registration of a session does what the steps do, and keeps the route given back. -/
theorem Session.call_registration (s : Session α) (c : Registration α) :
    s.call c.call = ⟨(c.steps.run.run s.router).2, s.handles ++ (c.steps.run.run s.router).1.toOption.toList⟩ := by
  rw [Registration.run_steps, Registration.call, Session.call]
  cases s.router.add c.group c.method c.pattern c.value with
  | ok added => rfl
  | error e => exact congrArg (Session.mk s.router) (List.append_nil s.handles).symm

/-- Registrations of a session do what the steps do, one after the other, and keep the routes given back. -/
theorem Session.foldl_registrations (s : Session α) (cs : List (Registration α)) :
    (cs.map Registration.call).foldl Session.call s = ⟨((Router.registerAll cs).run s.router).2,
      s.handles ++ ((Router.registerAll cs).run s.router).1.filterMap Except.toOption⟩ := by
  induction cs generalizing s with
  | nil => exact congrArg (Session.mk s.router) (List.append_nil s.handles).symm
  | cons c cs ih =>
    rw [List.map_cons, List.foldl_cons, ih, Session.call_registration, Router.registerAll, Router.registerAll,
      run_mapM_cons]
    dsimp only
    rw [List.append_assoc]
    refine congrArg (fun handles => Session.mk _ (s.handles ++ handles)) ?_
    cases h : (c.steps.run.run s.router).1 with
    | ok route => rfl
    | error e => rfl

namespace Router

theorem answered_registerAll (r : Router α) (cs : List (Registration α)) :
    List.Forall₂ Registration.Answered cs ((registerAll cs).run r).1 := by
  induction cs generalizing r with
  | nil => exact .nil
  | cons c cs ih =>
    rw [registerAll, run_mapM_cons]
    exact .cons (c.answered_steps r) (ih _)

/-- **After any registrations a router keeps the routes of those that did not fail.** -/
theorem keeps_registerAll (options : RouterOptions) (cs : List (Registration α)) :
    ((registerAll cs).run (Router.new options)).2.Keeps
      (((registerAll cs).run (Router.new options)).1.filterMap Except.toOption) := by
  have h := (agrees_run options (cs.map Registration.call)).keeps
  rwa [Session.run, Session.foldl_registrations, List.nil_append] at h

end Router

end Switchyard
