import Switchyard.Router

/-!
# What a lookup does

- a lookup finds what the request resolves to (`lookupInto_of_resolve`), and is answered with the verbs gathered where
  that is nothing (`lookupInto_of_none`);
- it does so with any buffer (`lookupInto_found?`, `lookup_found?`), comes out alike with all of them (`lookupInto_fst`,
  `lookup_map`), and changes nothing but the buffers (`lookup_snd`);
- what is found is kept under some stem (`Has`, `has_of_lookupInto`), accepts the path (`accepts_of_find`), and captures
  from its stem on (`lookupInto_eq_found`); the routes of a router are those kept under some stem (`mem_routes_iff`).
-/

namespace Switchyard

open Http (Method Verb)

variable {α β : Type}

/-- The result of a lookup that found one. -/
def Lookup.found? : Lookup α → Option α
  | .found result => some result
  | _ => none

/-- The outcome of a lookup with each route found replaced. -/
def Lookup.map (f : α → β) : Lookup α → Lookup β
  | .found result => .found (f result)
  | .methodNotAllowed allowed => .methodNotAllowed allowed
  | .notFound => .notFound

/-- The outcome of a lookup with the buffer beside a route found. -/
def Lookup.withBuffer : Lookup α × Params → Lookup (α × Params)
  | (.found result, params) => .found (result, params)
  | (.methodNotAllowed allowed, _) => .methodNotAllowed allowed
  | (.notFound, _) => .notFound

/-- The outcome of a lookup that found nothing, given the verbs it is answered with. -/
def Lookup.miss : List Verb → Lookup α
  | [] => .notFound
  | verbs => .methodNotAllowed verbs

theorem Lookup.found?_miss (verbs : List Verb) : (miss verbs : Lookup α).found? = none := by
  cases verbs <;> rfl

theorem Lookup.eq_of_withBuffer {x : Lookup α × Params} {result : α} {after : Params}
    (h : withBuffer x = .found (result, after)) : x = (.found result, after) := by
  obtain ⟨outcome, params⟩ := x
  cases outcome with
  | found other =>
    obtain ⟨rfl, rfl⟩ := Prod.mk.inj (Lookup.found.inj h)
    rfl
  | methodNotAllowed verbs => cases h
  | notFound => cases h

namespace Table

/-- The routes of a table, stem by stem. -/
theorem routes_eq (t : Table α) : t.routes = (t.byStem.toList.map Prod.snd).flatten := by
  have hfold : t.byStem.values = t.byStem.foldr (fun _ routes rest => routes :: rest) [] := rfl
  rw [routes, hfold, Std.TreeMap.foldr_eq_foldr_toList]
  refine congrArg List.flatten ?_
  induction t.byStem.toList with
  | nil => rfl
  | cons entry entries ih => rw [List.foldr_cons, ih, List.map_cons]

/-- The routes of a table are those kept under some stem. -/
theorem mem_routes_iff {t : Table α} {route : Route α} :
    route ∈ t.routes ↔ ∃ stem routes, t.get? stem = some routes ∧ route ∈ routes := by
  rw [routes_eq, List.mem_flatten]
  constructor
  · rintro ⟨routes, hroutes, hmem⟩
    obtain ⟨⟨stem, routes⟩, hentry, rfl⟩ := List.mem_map.1 hroutes
    exact ⟨stem, routes, Std.TreeMap.mem_toList_iff_getElem?_eq_some.1 hentry, hmem⟩
  · rintro ⟨stem, routes, hget, hmem⟩
    exact ⟨routes, List.mem_map.2 ⟨(stem, routes), Std.TreeMap.mem_toList_iff_getElem?_eq_some.2 hget, rfl⟩, hmem⟩

end Table

namespace Router

/-- A lookup changes nothing but the buffers. -/
theorem lookup_snd (r : Router α) (method : Method) (path : String) :
    ∃ buffers, (r.lookup method path).2 = { r with buffers } := by
  unfold lookup
  dsimp only
  split
  · exact ⟨_, rfl⟩
  · exact ⟨_, rfl⟩
  · exact ⟨_, rfl⟩

/-- What a request resolves to is found, and captures from its stem on. -/
theorem lookupInto_of_resolve {r : Router α} {method : Method} {path : String} (params : Params)
    {found : Route α × Nat} (h : r.resolve method (params.path.load r.options.cleanPath path) = some found) :
    r.lookupInto method path params =
      (.found found.1, (params.loadPath r.options.cleanPath path).capture found.1.pattern found.2) := by
  have hpath : (params.loadPath r.options.cleanPath path).path = params.path.load r.options.cleanPath path := rfl
  rw [lookupInto, hpath, h]

/-- A request that resolves to nothing is answered with the verbs gathered, and leaves a buffer with the path. -/
theorem lookupInto_of_none {r : Router α} {method : Method} {path : String} (params : Params)
    (h : r.resolve method (params.path.load r.options.cleanPath path) = none) : r.lookupInto method path params =
      (.miss (r.allowed method (params.path.load r.options.cleanPath path)),
        params.loadPath r.options.cleanPath path) := by
  have hpath : (params.loadPath r.options.cleanPath path).path = params.path.load r.options.cleanPath path := rfl
  rw [lookupInto, hpath, h]
  dsimp only
  cases r.allowed method (params.path.load r.options.cleanPath path) <;> rfl

theorem lookupInto_found? (r : Router α) (method : Method) (path : String) (params : Params) :
    (r.lookupInto method path params).1.found? =
      (r.resolve method (params.path.load r.options.cleanPath path)).map Prod.fst := by
  cases h : r.resolve method (params.path.load r.options.cleanPath path) with
  | some found =>
    rw [lookupInto_of_resolve params h]
    rfl
  | none =>
    rw [lookupInto_of_none params h]
    exact Lookup.found?_miss _

/-- What the buffer held has no part in the outcome. -/
theorem lookupInto_fst (r : Router α) (method : Method) (path : String) (params params' : Params) :
    (r.lookupInto method path params).1 = (r.lookupInto method path params').1 := by
  cases h : r.resolve method (params.path.load r.options.cleanPath path) with
  | some found => rw [lookupInto_of_resolve params h, lookupInto_of_resolve params' h]
  | none =>
    rw [lookupInto_of_none params h, lookupInto_of_none params' h]
    rfl

/-- A lookup comes out as with the buffer that the pool lends it. -/
theorem lookup_fst (r : Router α) (method : Method) (path : String) : (r.lookup method path).1 =
    Lookup.withBuffer (r.lookupInto method path (r.buffers.take Params.withCapacity).1) := by
  have hbuffers : { r with buffers := (r.buffers.take Params.withCapacity).2 }.lookupInto method path
      (r.buffers.take Params.withCapacity).1 = r.lookupInto method path (r.buffers.take Params.withCapacity).1 := rfl
  unfold lookup
  dsimp only
  rw [hbuffers]
  split <;> rename_i heq <;> rw [heq] <;> rfl

/-- A lookup comes out as with any buffer. -/
theorem lookup_map (r : Router α) (method : Method) (path : String) (params : Params) :
    (r.lookup method path).1.map Prod.fst = (r.lookupInto method path params).1 := by
  rw [r.lookup_fst, r.lookupInto_fst method path params (r.buffers.take Params.withCapacity).1]
  obtain ⟨outcome, after⟩ := r.lookupInto method path (r.buffers.take Params.withCapacity).1
  cases outcome <;> rfl

/-- A lookup keeps the buffer out of the pool if it finds a route, and puts it back if not. -/
theorem lookup_buffers (r : Router α) (method : Method) (path : String) : (r.lookup method path).2.buffers =
    if (r.lookupInto method path (r.buffers.take Params.withCapacity).1).1.found?.isSome then
      (r.buffers.take Params.withCapacity).2
    else (r.buffers.take Params.withCapacity).2.put
      (r.lookupInto method path (r.buffers.take Params.withCapacity).1).2 := by
  have hbuffers : { r with buffers := (r.buffers.take Params.withCapacity).2 }.lookupInto method path
      (r.buffers.take Params.withCapacity).1 = r.lookupInto method path (r.buffers.take Params.withCapacity).1 := rfl
  unfold lookup
  dsimp only
  rw [hbuffers]
  split <;> rename_i heq <;> rw [heq] <;> rfl

/-- A lookup finds what it would find with any buffer. -/
theorem lookup_found? (r : Router α) (method : Method) (path : String) : ∃ params,
    (r.lookup method path).1.found?.map Prod.fst = (r.lookupInto method path params).1.found? := by
  refine ⟨{}, ?_⟩
  rw [← r.lookup_map method path {}]
  cases (r.lookup method path).1 <;> rfl

/-! ## Where the routes found come from -/

/-- A route is kept under some stem. -/
def Has (r : Router α) (route : Route α) : Prop :=
  ∃ v stem routes, (r.table v).get? stem = some routes ∧ route ∈ routes

theorem mem_routes_iff {r : Router α} {route : Route α} : route ∈ r.routes ↔ r.Has route := by
  rw [routes, List.mem_flatMap]
  exact exists_congr fun v => ⟨fun h => Table.mem_routes_iff.1 h.2, fun h => ⟨Verb.mem_all v, Table.mem_routes_iff.2 h⟩⟩

/-- Candidates are kept under a front. -/
theorem get?_of_candidates? {t : Table α} {path : Path} {n k : Nat} {routes : List (Route α)}
    (h : candidates? t path n = some (k, routes)) : t.get? (path.front k) = some routes := by
  induction n with
  | zero =>
    obtain ⟨routes', hget, heq⟩ := Option.map_eq_some_iff.1 h
    obtain ⟨rfl, rfl⟩ := Prod.mk.inj heq
    exact hget
  | succ n ih =>
    unfold candidates? at h
    split at h
    · rename_i hget
      obtain ⟨rfl, rfl⟩ := Prod.mk.inj (Option.some.inj h)
      exact hget
    · exact ih h

/-- What is found is the first of the candidates that accepts the path. -/
theorem find_eq_some {r : Router α} {v : Verb} {path : Path} {route : Route α} {k : Nat}
    (h : r.find v path = some (route, k)) : ∃ routes,
      candidates? (r.table v) path (path.lengthWithin (r.table v).longest) = some (k, routes) ∧
        routes.find? (·.pattern.accepts path k) = some route := by
  have hsel := (Option.filter_eq_some_iff.1 h).1
  obtain ⟨⟨count, routes⟩, hcandidates, hsel⟩ := Option.bind_eq_some_iff.1 hsel
  obtain ⟨winner, hwinner, hsel⟩ := Option.bind_eq_some_iff.1 hsel
  obtain ⟨rfl, rfl⟩ := Prod.mk.inj (Option.some.inj hsel)
  exact ⟨routes, hcandidates, hwinner⟩

theorem has_of_find {r : Router α} {v : Verb} {path : Path} {route : Route α} {k : Nat}
    (h : r.find v path = some (route, k)) : r.Has route := by
  obtain ⟨routes, hcandidates, hfirst⟩ := find_eq_some h
  exact ⟨v, _, routes, get?_of_candidates? hcandidates, List.mem_of_find?_eq_some hfirst⟩

theorem accepts_of_find {r : Router α} {v : Verb} {path : Path} {route : Route α} {k : Nat}
    (h : r.find v path = some (route, k)) : route.pattern.accepts path k = true := by
  obtain ⟨routes, -, hfirst⟩ := find_eq_some h
  have haccepts := List.find?_some hfirst
  exact haccepts

/-- A request is resolved to what is found for some verb. -/
theorem find_of_resolve {r : Router α} {method : Method} {path : Path} {found : Route α × Nat}
    (h : r.resolve method path = some found) : ∃ v, r.find v path = some found := by
  rcases Option.or_eq_some_iff.1 h with hv | ⟨-, hget⟩
  · obtain ⟨v, -, hv⟩ := Option.bind_eq_some_iff.1 hv
    exact ⟨v, hv⟩
  · split at hget
    · exact ⟨.get, hget⟩
    · cases hget

/-- A route found is one the router has. -/
theorem has_of_lookupInto {r : Router α} {method : Method} {path : String} {params : Params} {route : Route α}
    (h : (r.lookupInto method path params).1 = .found route) : r.Has route := by
  have hfound := r.lookupInto_found? method path params
  rw [h] at hfound
  obtain ⟨⟨route, k⟩, hresolve, rfl⟩ := Option.map_eq_some_iff.1 hfound.symm
  obtain ⟨v, hv⟩ := find_of_resolve hresolve
  exact has_of_find hv

/-! ## What is left in the buffer -/

theorem lookupInto_path (r : Router α) (method : Method) (path : String) (params : Params) :
    (r.lookupInto method path params).2.path = params.path.load r.options.cleanPath path := by
  cases h : r.resolve method (params.path.load r.options.cleanPath path) with
  | some found =>
    rw [lookupInto_of_resolve params h]
    rfl
  | none =>
    rw [lookupInto_of_none params h]
    rfl

/-- A route found is the one resolved to, and captures from its stem on. -/
theorem lookupInto_eq_found {r : Router α} {method : Method} {path : String} {params after : Params} {route : Route α}
    (h : r.lookupInto method path params = (.found route, after)) : ∃ k,
      r.resolve method (params.path.load r.options.cleanPath path) = some (route, k) ∧
        after = (params.loadPath r.options.cleanPath path).capture route.pattern k := by
  cases hresolve : r.resolve method (params.path.load r.options.cleanPath path) with
  | some found =>
    rw [lookupInto_of_resolve params hresolve] at h
    obtain ⟨hroute, hafter⟩ := Prod.mk.inj h
    obtain rfl := Lookup.found.inj hroute
    exact ⟨found.2, rfl, hafter.symm⟩
  | none =>
    have hfound := r.lookupInto_found? method path params
    rw [h, hresolve] at hfound
    cases hfound

/-- A lookup that finds a route did so with some buffer. -/
theorem lookup_eq_found {r : Router α} {method : Method} {path : String} {after : Params} {route : Route α}
    (h : (r.lookup method path).1 = .found (route, after)) :
    ∃ params, r.lookupInto method path params = (.found route, after) := by
  rw [lookup_fst] at h
  exact ⟨_, Lookup.eq_of_withBuffer h⟩

end Router

end Switchyard
