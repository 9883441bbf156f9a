import Std.Data.TreeMap
import Switchyard.Params
import Switchyard.Route

/-!
# Routers

Routes are kept per verb under their stems, those of one stem in the order in which they were added. A path is
looked up by its fronts, the longest first: the first front under which there are routes decides, and of these the
first that accepts the rest of the path is the winner. A disabled winner hides the routes after it.

A path that the asked verb does not reach, but others do, is answered with those verbs.
-/

namespace Switchyard

open Http (Verb Method)

structure RouterOptions where
  /-- Resolve `.` and `..` before matching. -/
  cleanPath : Bool := true
  /-- Serve HEAD by the GET route where no HEAD route matches. -/
  headToGet : Bool := true
  deriving DecidableEq

/-- The routes of one verb by stem. -/
structure Table (α : Type) where
  byStem : Std.TreeMap String (List (Route α)) := ∅

namespace Table

variable {α : Type}

/-- The routes under a stem, if there are any. -/
def get? (t : Table α) (stem : String) : Option (List (Route α)) :=
  t.byStem[stem]?

/-- Adds a route after those of the same stem. -/
def insert (t : Table α) (route : Route α) : Table α :=
  ⟨t.byStem.insert route.pattern.stem ((t.get? route.pattern.stem).getD [] ++ [route])⟩

/-- Every route, by stem. -/
def routes (t : Table α) : List (Route α) :=
  t.byStem.values.flatten

/-- The number of bytes of the longest stem, zero where there is none. -/
def longest (t : Table α) : Nat :=
  (t.byStem.keys.map fun stem => Text.Utf8.size stem.toList).max?.getD 0

/-- There is nothing under a text that is longer than every stem. -/
theorem get?_eq_none_of_longest_lt {t : Table α} {text : String} (h : t.longest < Text.Utf8.size text.toList) :
    t.get? text = none := by
  refine Std.TreeMap.getElem?_eq_none fun hmem => ?_
  have hle : Text.Utf8.size text.toList ≤ t.longest :=
    List.le_max?_getD_of_mem (List.mem_map.2 ⟨text, Std.TreeMap.mem_keys.2 hmem, rfl⟩)
  omega

end Table

/-- The outcome of a lookup. -/
inductive Lookup (α : Type) where
  | found (result : α)
  | methodNotAllowed (allowed : List Verb)
  | notFound

structure Router (α : Type) where
  options : RouterOptions := {}
  tables : Vector (Table α) 9 := .replicate 9 {}
  /-- The numbers of the routes that are switched off. -/
  disabled : List Nat := []
  /-- The number of routes added so far, which numbers the next one. -/
  added : Nat := 0
  maxParams : Nat := 0
  buffers : Pool Params := {}

namespace Router

variable {α : Type}

/-- A router without routes. -/
def new (options : RouterOptions) : Router α :=
  { options }

def table (r : Router α) (v : Verb) : Table α :=
  r.tables[v.index]

/-- Every route, by verb and stem. -/
def routes (r : Router α) : List (Route α) :=
  Verb.all.flatMap fun v => (r.table v).routes

/-- An empty buffer that is large enough for every route. -/
def newParams (r : Router α) : Params :=
  .withCapacity r.maxParams

/-! ## Registration -/

/-- Adds a route that is known to be good. -/
def insert (r : Router α) (group : String) (verb : Verb) (pattern : Pattern) (value : α) : Route α × Router α :=
  let route : Route α := ⟨r.added, verb, group, pattern, value⟩
  let maxParams := max r.maxParams pattern.dynamicCount
  (route,
    { r with
      tables := r.tables.set verb.index ((r.table verb).insert route)
      added := r.added + 1
      maxParams
      buffers := if r.maxParams < pattern.dynamicCount then r.buffers.setKey maxParams else r.buffers })

/-- Registers a route; a refusal leaves the router as it was. -/
def add (r : Router α) (group : String) (method : Method) (pattern : String) (value : α) :
    Except RouteError (Route α × Router α) := do
  let some verb := method.verb? | throw (.unsupportedMethod method.name)
  let pattern ← Pattern.compile pattern
  return r.insert group verb pattern value

/-! ## Flags -/

def isEnabled (r : Router α) (route : Route α) : Bool :=
  !r.disabled.contains route.number

/-- Switches a route off or on. -/
def setDisabled (r : Router α) (route : Route α) (off : Bool) : Router α :=
  let others := r.disabled.filter (· != route.number)
  { r with disabled := if off then route.number :: others else others }

/-! ## Matching -/

/-- The first of the fronts from `count` segments down to none under which there are routes, and those routes. -/
def candidates? (t : Table α) (path : Path) : (count : Nat) → Option (Nat × List (Route α))
  | 0 => (t.get? (path.front 0)).map fun routes => (0, routes)
  | count + 1 =>
    match t.get? (path.front (count + 1)) with
    | some routes => some (count + 1, routes)
    | none => candidates? t path count

/-- The winner for a path whatever its flag, with the length of its stem. The fronts that are longer than every stem
are left out, as there is nothing under them. -/
def select (r : Router α) (v : Verb) (path : Path) : Option (Route α × Nat) := do
  let table := r.table v
  let (count, routes) ← candidates? table path (path.lengthWithin table.longest)
  let route ← routes.find? (·.pattern.accepts path count)
  return (route, count)

/-- The winner for a path if it is enabled. -/
def find (r : Router α) (v : Verb) (path : Path) : Option (Route α × Nat) :=
  (r.select v path).filter fun (route, _) => r.isEnabled route

/-- The winner for a request: that of its verb, or for HEAD that of GET. -/
def resolve (r : Router α) (method : Method) (path : Path) : Option (Route α × Nat) :=
  (method.verb?.bind (r.find · path)).or
    (if r.options.headToGet && method == .standard .head then r.find .get path else none)

/-- The verbs other than the asked one that reach a path; HEAD comes last where GET serves it. -/
def allowed (r : Router α) (method : Method) (path : Path) : List Verb :=
  let reached := Verb.all.filter fun v => method.verb? != some v && (r.find v path).isSome
  if r.options.headToGet && method.verb? != some .head && reached.contains .get && !reached.contains .head then
    reached ++ [.head]
  else reached

/-- Looks a request up with a given buffer, which then holds its path and captures. -/
def lookupInto (r : Router α) (method : Method) (path : String) (params : Params) : Lookup (Route α) × Params :=
  let params := params.loadPath r.options.cleanPath path
  match r.resolve method params.path with
  | some (route, start) => (.found route, params.capture route.pattern start)
  | none =>
    match r.allowed method params.path with
    | [] => (.notFound, params)
    | verbs => (.methodNotAllowed verbs, params)

/-- Gives a buffer back. -/
def release (r : Router α) (params : Params) : Router α :=
  { r with buffers := r.buffers.put params }

/-- Looks a request up with a buffer from the pool. A route found comes with the buffer, to be released when it is
done with; on a miss the buffer is back already. -/
def lookup (r : Router α) (method : Method) (path : String) : Lookup (Route α × Params) × Router α :=
  let (buffer, buffers) := r.buffers.take Params.withCapacity
  let r := { r with buffers }
  match r.lookupInto method path buffer with
  | (.found route, params) => (.found (route, params), r)
  | (.methodNotAllowed verbs, params) => (.methodNotAllowed verbs, r.release params)
  | (.notFound, params) => (.notFound, r.release params)

/-- Switches the winner for a path off or on, and tells whether there is one. -/
def disableRoute (r : Router α) (method : Method) (path : String) (off : Bool) : Bool × Router α :=
  match method.verb?.bind (r.select · (Path.empty.load r.options.cleanPath path)) with
  | some (route, _) => (true, r.setDisabled route off)
  | none => (false, r)

end Router

/-! ## Outlines -/

def RouterOptions.outline (o : RouterOptions) : String :=
  Text.Outline.record "RouterOptions"
    [("auto_clean_path", Text.Outline.flag o.cleanPath), ("head_to_get", Text.Outline.flag o.headToGet)] false

def Router.outline {α : Type} (r : Router α) : String :=
  Text.Outline.record "Router"
    [("options", r.options.outline), ("max_params", toString r.maxParams), ("routes", toString r.routes.length)] true

/-- The outline of a lookup, given that of what was found. -/
def Lookup.outline {α : Type} (found : α → String) : Lookup α → String
  | .found result => Text.Outline.tagged "Found" (found result)
  | .methodNotAllowed verbs =>
    Text.Outline.record "MethodNotAllowed" [("allowed", Text.Outline.list (verbs.map (·.name)))] false
  | .notFound => "NotFound"

/-- The outline of a route found, with its captures. -/
def Router.matchedOutline {α : Type} (r : Router α) (route : Route α) (params : Params) : String :=
  Text.Outline.record "Matched" [("route", route.outline (r.isEnabled route)), ("params", params.outline)] false

end Switchyard
