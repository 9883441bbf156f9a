import Switchyard.Proofs.Router.Lookup
import Switchyard.Proofs.Router.Scan

/-!
# What a router stands for

A ledger keeps the routes in the order in which they were added and which of them are switched off, and nothing else;
it is looked up by scans. A session calls a router and keeps the routes it got back.

- every call takes a session and a ledger that agree to ones that agree (`Agrees.call`), so that they agree after any
  calls (`agrees_run`);
- so that a router finds, with its tables and a buffer of its own or of the caller, what a scan over all that was
  added finds (`lookup_run`).
-/

namespace Switchyard

open Http (Method Verb)

variable {α : Type}

/-- What a router may be asked to do between lookups, and lookups that take a buffer. -/
inductive Call (α : Type) where
  | add (group : String) (method : Method) (pattern : String) (value : α)
  /-- Switches a route off or on by what its registration gave back. -/
  | flag (number : Nat) (off : Bool)
  /-- Switches the route of a path off or on. -/
  | flagPath (method : Method) (path : String) (off : Bool)
  | lookup (method : Method) (path : String)
  | release (params : Params)

/-! ## Ledgers -/

structure Ledger (α : Type) where
  options : RouterOptions
  routes : List (Route α) := []
  off : Nat → Bool := fun _ => false

namespace Ledger

/-- The routes of a verb. -/
def routesOf (l : Ledger α) (v : Verb) : List (Route α) :=
  l.routes.filter (·.verb == v)

/-- The winner for a path, whatever its flag. -/
def winner (l : Ledger α) (v : Verb) (path : String) : Option (Route α × Nat) :=
  Router.scan (l.routesOf v) (Path.segmentsOf l.options.cleanPath path)

/-- The winner for a path if it is enabled. -/
def find (l : Ledger α) (v : Verb) (path : String) : Option (Route α × Nat) :=
  (l.winner v path).filter fun (route, _) => !l.off route.number

/-- The winner for a request: that of its verb, or for HEAD that of GET. -/
def resolve (l : Ledger α) (method : Method) (path : String) : Option (Route α × Nat) :=
  (method.verb?.bind (l.find · path)).or
    (if l.options.headToGet && method == .standard .head then l.find .get path else none)

/-- Switches the route of a number off or on. -/
def setFlag (l : Ledger α) (number : Nat) (off : Bool) : Ledger α :=
  { l with off := fun n => if n = number then off else l.off n }

def call (l : Ledger α) : Call α → Ledger α
  | .add group method pattern value =>
    match method.verb?, Pattern.compile pattern with
    | some verb, .ok pattern => { l with routes := l.routes ++ [⟨l.routes.length, verb, group, pattern, value⟩] }
    | _, _ => l
  | .flag number off => if number < l.routes.length then l.setFlag number off else l
  | .flagPath method path off =>
    match method.verb?.bind (l.winner · path) with
    | some (route, _) => l.setFlag route.number off
    | none => l
  | .lookup _ _ => l
  | .release _ => l

/-- The ledger after some calls. -/
def run (options : RouterOptions) (calls : List (Call α)) : Ledger α :=
  calls.foldl call { options }

end Ledger

/-! ## Sessions -/

/-- A router with the routes it gave back. -/
structure Session (α : Type) where
  router : Router α
  handles : List (Route α) := []

namespace Session

def call (s : Session α) : Call α → Session α
  | .add group method pattern value =>
    match s.router.add group method pattern value with
    | .ok (route, router) => ⟨router, s.handles ++ [route]⟩
    | .error _ => s
  | .flag number off =>
    match s.handles[number]? with
    | some route => { s with router := s.router.setDisabled route off }
    | none => s
  | .flagPath method path off => { s with router := (s.router.disableRoute method path off).2 }
  | .lookup method path => { s with router := (s.router.lookup method path).2 }
  | .release params => { s with router := s.router.release params }

/-- A new router after some calls. -/
def run (options : RouterOptions) (calls : List (Call α)) : Session α :=
  calls.foldl call { router := .new options }

end Session

/-! ## The tables and flags after a call -/

namespace Router

theorem add_eq (r : Router α) (group : String) (method : Method) (pattern : String) (value : α) :
    r.add group method pattern value =
      match method.verb? with
      | none => .error (.unsupportedMethod method.name)
      | some verb => (Pattern.compile pattern).map fun pattern => r.insert group verb pattern value := by
  unfold add
  cases method.verb? with
  | none => rfl
  | some verb => cases Pattern.compile pattern <;> rfl

theorem table_insert (r : Router α) (group : String) (verb w : Verb) (pattern : Pattern) (value : α) :
    (r.insert group verb pattern value).2.table w =
      if verb = w then (r.table verb).insert ⟨r.added, verb, group, pattern, value⟩ else r.table w := by
  have hset : (r.insert group verb pattern value).2.table w =
      (r.tables.set verb.index ((r.table verb).insert ⟨r.added, verb, group, pattern, value⟩))[w.index] := rfl
  rw [hset, Fin.getElem_fin, Vector.getElem_set]
  by_cases h : verb = w
  · subst h
    rw [if_pos rfl, if_pos rfl]
  · rw [if_neg h, if_neg fun he => h (Verb.index_inj.1 (Fin.ext he))]
    rfl

/-- What a router has depends on its tables only. -/
theorem has_congr {r r' : Router α} (h : r'.tables = r.tables) {route : Route α} : r'.Has route ↔ r.Has route := by
  simp only [Has, table, h]

/-- After an insertion a router has what it had, and the route that was inserted. -/
theorem has_insert {r : Router α} {group : String} {verb : Verb} {pattern : Pattern} {value : α} {route : Route α}
    (h : (r.insert group verb pattern value).2.Has route) :
    r.Has route ∨ route = (r.insert group verb pattern value).1 := by
  obtain ⟨w, stem, routes, hget, hmem⟩ := h
  rw [table_insert] at hget
  split at hget
  · rename_i hw
    subst hw
    rw [Table.get?_insert] at hget
    split at hget
    · obtain rfl := Option.some.inj hget
      rcases List.mem_append.1 hmem with hold | hnew
      · cases hroutes : (r.table verb).get? stem with
        | none =>
          rw [hroutes] at hold
          cases hold
        | some routes =>
          rw [hroutes] at hold
          exact .inl ⟨verb, stem, routes, hroutes, hold⟩
      · exact .inr (List.mem_singleton.1 hnew)
    · exact .inl ⟨verb, stem, routes, hget, hmem⟩
  · exact .inl ⟨w, stem, routes, hget, hmem⟩

/-- A switch sets the flag of its route and no other. -/
theorem contains_setDisabled (r : Router α) (route : Route α) (off : Bool) (n : Nat) :
    (r.setDisabled route off).disabled.contains n = if n = route.number then off else r.disabled.contains n := by
  have hfilter : (r.disabled.filter (· != route.number)).contains n =
      if n = route.number then false else r.disabled.contains n := by
    by_cases h : n = route.number <;> simp [h]
  cases off with
  | true =>
    show (route.number :: r.disabled.filter (· != route.number)).contains n = _
    rw [List.contains_cons, hfilter]
    by_cases h : n = route.number <;> simp [h]
  | false => exact hfilter

end Router

/-! ## Agreement -/

/-- A session and a ledger agree: the tables hold the routes of the ledger, the flags are the same, and the routes
were given back in their order and numbered by it. -/
structure Agrees (s : Session α) (l : Ledger α) : Prop where
  options : s.router.options = l.options
  handles : s.handles = l.routes
  added : s.router.added = l.routes.length
  number : ∀ {n : Nat} {route : Route α}, l.routes[n]? = some route → route.number = n
  disabled : ∀ n, s.router.disabled.contains n = l.off n
  tables : ∀ v, (s.router.table v).Holds (l.routesOf v)

namespace Agrees

variable {s : Session α} {l : Ledger α}

theorem select_eq (h : Agrees s l) (v : Verb) (p : Path) (path : String) :
    s.router.select v (p.load s.router.options.cleanPath path) = l.winner v path := by
  rw [Router.select_load (h.tables v), h.options]
  rfl

theorem find_eq (h : Agrees s l) (v : Verb) (p : Path) (path : String) :
    s.router.find v (p.load s.router.options.cleanPath path) = l.find v path := by
  rw [Router.find, h.select_eq, Ledger.find]
  refine congrArg (Option.filter · (l.winner v path)) (funext fun found => ?_)
  obtain ⟨route, k⟩ := found
  exact congrArg (!·) (h.disabled route.number)

theorem resolve_eq (h : Agrees s l) (method : Method) (p : Path) (path : String) :
    s.router.resolve method (p.load s.router.options.cleanPath path) = l.resolve method path := by
  rw [Router.resolve, Ledger.resolve, h.find_eq .get, h.options]
  refine congrArg (Option.or · _) (congrArg (Option.bind method.verb?) (funext fun v => ?_))
  rw [← h.options, h.find_eq v]

/-- A router finds what its ledger finds, whatever buffer it is given. -/
theorem lookupInto_eq (h : Agrees s l) (method : Method) (path : String) (params : Params) :
    (s.router.lookupInto method path params).1.found? = (l.resolve method path).map Prod.fst := by
  rw [Router.lookupInto_found?, h.resolve_eq]

/-- A router switches what its ledger finds. -/
theorem disableRoute_eq (h : Agrees s l) (method : Method) (path : String) (off : Bool) :
    s.router.disableRoute method path off =
      match method.verb?.bind (l.winner · path) with
      | some (route, _) => (true, s.router.setDisabled route off)
      | none => (false, s.router) := by
  have hselect : (s.router.select · (Path.empty.load s.router.options.cleanPath path)) = (l.winner · path) :=
    funext fun v => h.select_eq v Path.empty path
  rewrite [Router.disableRoute, hselect]
  rfl

/-! ## Every call keeps it -/

theorem buffers (h : Agrees s l) (b : Pool Params) : Agrees { s with router := { s.router with buffers := b } } l :=
  ⟨h.options, h.handles, h.added, h.number, h.disabled, h.tables⟩

theorem setFlag (h : Agrees s l) (route : Route α) (off : Bool) :
    Agrees { s with router := s.router.setDisabled route off } (l.setFlag route.number off) where
  options := h.options
  handles := h.handles
  added := h.added
  number := h.number
  disabled n := by
    rw [Router.contains_setDisabled, h.disabled]
    rfl
  tables := h.tables

/-- A registration puts its route last in every list it belongs to. -/
theorem insert (h : Agrees s l) (group : String) (verb : Verb) (pattern : Pattern) (value : α) :
    Agrees ⟨(s.router.insert group verb pattern value).2, s.handles ++ [(s.router.insert group verb pattern value).1]⟩
      { l with routes := l.routes ++ [⟨l.routes.length, verb, group, pattern, value⟩] } where
  options := h.options
  handles := by
    rw [h.handles, ← h.added]
    rfl
  added := by
    rw [List.length_append, ← h.added]
    rfl
  number {n route} hn := by
    rcases Nat.lt_or_ge n l.routes.length with hlt | hge
    · rw [List.getElem?_append_left hlt] at hn
      exact h.number hn
    · rw [List.getElem?_append_right hge] at hn
      obtain ⟨hlt, rfl⟩ := List.getElem?_eq_some_iff.1 hn
      have : n - l.routes.length < 1 := hlt
      simp
      omega
  disabled := h.disabled
  tables w := by
    rw [Router.table_insert, Ledger.routesOf, List.filter_append]
    by_cases hw : verb = w
    · subst hw
      have hone : [(⟨l.routes.length, verb, group, pattern, value⟩ : Route α)].filter (·.verb == verb) =
          [⟨l.routes.length, verb, group, pattern, value⟩] := by simp
      rw [if_pos rfl, h.added, hone]
      exact (h.tables verb).insert _
    · rw [if_neg hw, List.filter_cons_of_neg (by simpa using hw), List.filter_nil, List.append_nil]
      exact h.tables w

/-- **Every call keeps a session and a ledger in agreement.** -/
theorem call (h : Agrees s l) (c : Call α) : Agrees (s.call c) (l.call c) := by
  cases c with
  | add group method pattern value =>
    simp only [Session.call, Ledger.call, Router.add_eq]
    cases method.verb? with
    | none => exact h
    | some verb =>
      cases Pattern.compile pattern with
      | error e => exact h
      | ok pattern => exact h.insert group verb pattern value
  | flag number off =>
    simp only [Session.call, Ledger.call, h.handles]
    by_cases hlt : number < l.routes.length
    · have hn := List.getElem?_eq_getElem hlt
      have hflag := h.setFlag l.routes[number] off
      rw [h.number hn] at hflag
      rw [hn, if_pos hlt]
      rwa [h.handles] at hflag
    · rw [List.getElem?_eq_none (Nat.le_of_not_lt hlt), if_neg hlt]
      exact h
  | flagPath method path off =>
    simp only [Session.call, Ledger.call, h.disableRoute_eq]
    cases method.verb?.bind (l.winner · path) with
    | none => exact h
    | some found => exact h.setFlag found.1 off
  | lookup method path =>
    obtain ⟨b, hb⟩ := s.router.lookup_snd method path
    rw [Session.call, hb]
    exact h.buffers b
  | release params => exact h.buffers _

end Agrees

theorem Router.table_new (options : RouterOptions) (v : Verb) : (Router.new options : Router α).table v = {} := by
  cases v <;> rfl

theorem agrees_new (options : RouterOptions) : Agrees { router := .new options } ({ options } : Ledger α) where
  options := rfl
  handles := rfl
  added := rfl
  number h := by cases h
  disabled _ := rfl
  tables v := by
    rw [Router.table_new]
    exact Table.holds_empty

/-- Whatever was called, the router agrees with the ledger of what was called. -/
theorem agrees_run (options : RouterOptions) (calls : List (Call α)) :
    Agrees (Session.run options calls) (Ledger.run options calls) := by
  have hfold : ∀ (calls : List (Call α)) {s : Session α} {l : Ledger α}, Agrees s l →
      Agrees (calls.foldl Session.call s) (calls.foldl Ledger.call l) := by
    intro calls
    induction calls with
    | nil => exact fun h => h
    | cons c calls ih => exact fun h => ih (h.call c)
  exact hfold calls (agrees_new options)

/-- **After any calls a router finds what a scan finds**, with a buffer of the caller, whatever it holds, and with one
of its own. -/
theorem lookup_run (options : RouterOptions) (calls : List (Call α)) (method : Method) (path : String) :
    (∀ params, ((Session.run options calls).router.lookupInto method path params).1.found? =
      ((Ledger.run options calls).resolve method path).map Prod.fst) ∧
    ((Session.run options calls).router.lookup method path).1.found?.map Prod.fst =
      ((Ledger.run options calls).resolve method path).map Prod.fst := by
  have h := agrees_run options calls
  refine ⟨h.lookupInto_eq method path, ?_⟩
  obtain ⟨params, hp⟩ := (Session.run options calls).router.lookup_found? method path
  rw [hp, h.lookupInto_eq]

end Switchyard
