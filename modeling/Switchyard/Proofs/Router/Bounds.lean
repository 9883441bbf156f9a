import Switchyard.Proofs.Path.Bounds
import Switchyard.Proofs.Router.Captures

/-!
# Matching stays within its bounds

A lookup counts segments in the path, tokens in a pattern and bytes in the text, and what one of these counts gives is
used with the others. Here each use is checked, as in the views of a path (`Checked`).

- `Checked.lookupInto`: a lookup that breaks off where a subtraction would go below zero, a place would be past the end
  of the spans, or a span would not lie in the text; it goes through every front from the longest on;
- nothing of that ever happens on a loaded path: each function with checks gives what it gives without
  (`Checked.accepts_load`, `Checked.select_load`, `Checked.capture_load`, up to `Checked.lookupInto_eq`);
- a pattern that accepts a path has a segment of it for each parameter (`Pattern.lt_length_of_accepts`);
- what a lookup leaves in a buffer can be read with all checks as well, by name and in order (`Params.Readable`).
-/

namespace Switchyard

open Http (Method Verb)
open Text (Span)

variable {α : Type}

namespace Checked

/-! ## Matching with checks -/

def sub (a b : Nat) : Option Nat :=
  if b ≤ a then some (a - b) else none

/-- Whether the segments after the first `start` fit; none where there are less than `start`, or one cannot be read. -/
def accepts (p : Pattern) (path : Path) (start : Nat) : Option Bool := do
  let remaining ← sub path.length start
  let texts ← segmentsFrom path start
  let arity :=
    match p.wildcardPosition with
    | some position => position ≤ remaining
    | none => remaining = p.segments.length
  return arity && (p.segments.zip texts).all fun (s, text) => Pattern.fits s text

/-- The first of some routes that accepts the path after so many segments. -/
def winner (routes : List (Route α)) (path : Path) (count : Nat) : Option (Option (Route α × Nat)) := do
  let found ← routes.findM? fun route => accepts route.pattern path count
  return found.map (·, count)

/-- The winner among the routes under the first front that has some, from `count` segments down to none. -/
def search (t : Table α) (path : Path) : (count : Nat) → Option (Option (Route α × Nat))
  | 0 => do
    match t.get? (← front path 0) with
    | some routes => winner routes path 0
    | none => return none
  | count + 1 => do
    match t.get? (← front path (count + 1)) with
    | some routes => winner routes path (count + 1)
    | none => search t path count

def select (r : Router α) (v : Verb) (path : Path) : Option (Option (Route α × Nat)) :=
  search (r.table v) path path.length

def find (r : Router α) (v : Verb) (path : Path) : Option (Option (Route α × Nat)) := do
  return (← select r v path).filter fun (route, _) => r.isEnabled route

def resolve (r : Router α) (method : Method) (path : Path) : Option (Option (Route α × Nat)) := do
  let own ←
    match method.verb? with
    | some v => find r v path
    | none => pure none
  match own with
  | some found => return some found
  | none => if r.options.headToGet && method == .standard .head then find r .get path else return none

/-- Whether a verb other than the asked one reaches a path. -/
def reaches (r : Router α) (method : Method) (path : Path) (v : Verb) : Option Bool := do
  if method.verb? != some v then return (← find r v path).isSome else return false

def allowed (r : Router α) (method : Method) (path : Path) : Option (List Verb) := do
  let reached ← Verb.all.filterM (reaches r method path)
  if r.options.headToGet && method.verb? != some .head && reached.contains .get && !reached.contains .head then
    return reached ++ [.head]
  else return reached

/-- Records what a pattern captures; none where a parameter has no segment. -/
def capture (p : Params) (pattern : Pattern) (start : Nat) : Option Params := do
  return { p with captures := ← pattern.captures? p.path start }

def lookupInto (r : Router α) (method : Method) (path : String) (params : Params) :
    Option (Lookup (Route α) × Params) := do
  let params := { params with path := ← load params.path r.options.cleanPath path, captures := [] }
  match ← resolve r method params.path with
  | some (route, start) => return (.found route, ← capture params route.pattern start)
  | none =>
    match ← allowed r method params.path with
    | [] => return (.notFound, params)
    | verbs => return (.methodNotAllowed verbs, params)

def lookup (r : Router α) (method : Method) (path : String) : Option (Lookup (Route α × Params) × Router α) := do
  let (buffer, buffers) := r.buffers.take Params.withCapacity
  let r := { r with buffers }
  match ← lookupInto r method path buffer with
  | (.found route, params) => return (.found (route, params), r)
  | (.methodNotAllowed verbs, params) => return (.methodNotAllowed verbs, r.release params)
  | (.notFound, params) => return (.notFound, r.release params)

/-! ## The checks of a lookup never fail -/

variable (p : Path) (clean : Bool) (text : String)

theorem accepts_load (pattern : Pattern) {k : Nat} (hk : k ≤ (p.load clean text).length) :
    accepts pattern (p.load clean text) k = some (pattern.accepts (p.load clean text) k) := by
  rw [accepts, sub, if_pos hk, segmentsFrom_load]
  rfl

theorem winner_load (routes : List (Route α)) {k : Nat} (hk : k ≤ (p.load clean text).length) :
    winner routes (p.load clean text) k =
      some ((routes.find? (·.pattern.accepts (p.load clean text) k)).map (·, k)) := by
  have hfind : routes.findM? (fun route => some (route.pattern.accepts (p.load clean text) k)) =
      some (routes.find? (·.pattern.accepts (p.load clean text) k)) := List.findM?_pure _ routes
  rw [winner, funext fun route : Route α => accepts_load p clean text route.pattern hk, hfind]
  rfl

/-- Each front that is looked at is no longer than the path. -/
theorem search_load (t : Table α) {n : Nat} (hn : n ≤ (p.load clean text).length) :
    search t (p.load clean text) n =
      some ((Router.candidates? t (p.load clean text) n).bind fun (k, routes) =>
        (routes.find? (·.pattern.accepts (p.load clean text) k)).map (·, k)) := by
  induction n with
  | zero =>
    rw [search, front_load, Router.candidates?]
    show (match t.get? ((p.load clean text).front 0) with | some routes => winner routes _ 0 | none => some none) = _
    cases t.get? ((p.load clean text).front 0) with
    | none => rfl
    | some routes => exact winner_load p clean text routes hn
  | succ n ih =>
    rw [search, front_load, Router.candidates?]
    show (match t.get? ((p.load clean text).front (n + 1)) with
      | some routes => winner routes _ (n + 1)
      | none => search t _ n) = _
    cases t.get? ((p.load clean text).front (n + 1)) with
    | none => exact ih (Nat.le_of_succ_le hn)
    | some routes => exact winner_load p clean text routes hn

theorem select_load (r : Router α) (v : Verb) :
    select r v (p.load clean text) = some (r.select v (p.load clean text)) := by
  rw [select, search_load p clean text (r.table v) (Nat.le_refl _), Path.length_load,
    ← Router.candidates?_lengthWithin]
  refine congrArg some ?_
  rw [Router.select]
  refine congrArg (Option.bind _) (funext fun found => ?_)
  cases found
  exact Option.map_eq_bind

theorem find_load (r : Router α) (v : Verb) :
    find r v (p.load clean text) = some (r.find v (p.load clean text)) := by
  rw [find, select_load]
  rfl

theorem resolve_load (r : Router α) (method : Method) :
    resolve r method (p.load clean text) = some (r.resolve method (p.load clean text)) := by
  have hget : (if r.options.headToGet && method == .standard .head then find r .get (p.load clean text) else some none) =
      some (if r.options.headToGet && method == .standard .head then r.find .get (p.load clean text) else none) := by
    split
    · exact find_load p clean text r .get
    · rfl
  unfold resolve Router.resolve
  cases method.verb? with
  | none => exact hget
  | some v =>
    dsimp only
    rw [find_load, Option.bind_some]
    show (match r.find v (p.load clean text) with | some found => some (some found) | none => _) = _
    cases r.find v (p.load clean text) with
    | none => exact hget
    | some found => rfl

/-- Where every member has an answer, so has filtering by it. -/
theorem filterM_eq_some {β : Type} (f : β → Bool) (l : List β) : l.filterM (fun b => some (f b)) = some (l.filter f) := by
  have haux : ∀ acc, l.filterAuxM (fun b => some (f b)) acc = some ((l.filter f).reverse ++ acc) := by
    induction l with
    | nil => exact fun acc => rfl
    | cons b l ih =>
      intro acc
      show l.filterAuxM (fun b => some (f b)) (cond (f b) (b :: acc) acc) = _
      rw [ih, List.filter_cons]
      cases f b with
      | false => rfl
      | true => simp
  rw [List.filterM, haux []]
  simp

theorem allowed_load (r : Router α) (method : Method) :
    allowed r method (p.load clean text) = some (r.allowed method (p.load clean text)) := by
  have hreached : reaches r method (p.load clean text) =
      fun v => some (method.verb? != some v && (r.find v (p.load clean text)).isSome) := by
    funext v
    rw [reaches, find_load]
    cases method.verb? != some v <;> rfl
  rw [allowed, hreached, filterM_eq_some, Option.bind_eq_bind, Option.bind_some, Router.allowed]
  split <;> rfl

end Checked

/-! ## Captures -/

namespace Pattern

/-- A pattern that accepts a loaded path has a segment for each of its parameters. -/
theorem lt_length_of_accepts (p : Path) (clean : Bool) (text : String) {pattern : Pattern} {start i : Nat} {name : String}
    (h : pattern.accepts (p.load clean text) start = true) (hi : pattern.segments[i]? = some (.param name)) :
    start + i < (p.load clean text).length := by
  rw [accepts_load] at h
  obtain ⟨hlt, hget⟩ := List.getElem?_eq_some_iff.1 hi
  rw [Path.length_load]
  rcases enough_of_admits h with hle | ⟨hlen, hlast⟩
  · rw [List.length_drop] at hle
    omega
  · -- the segments fall short of the last token only, which is a wildcard and so not the one at this place
    have hne : i ≠ pattern.segments.length - 1 := by
      rintro rfl
      rw [List.getLast?_eq_getElem?, hi] at hlast
      cases hlast
    rw [List.length_drop] at hlen
    omega

/-- What accepts a loaded path captures from it. -/
theorem captures?_of_accepts (p : Path) (clean : Bool) (text : String) {pattern : Pattern} {start : Nat}
    (h : pattern.accepts (p.load clean text) start = true) :
    ∃ captures, pattern.captures? (p.load clean text) start = some captures := by
  rw [accepts_load] at h
  obtain ⟨bindings, hbindings⟩ := (enough_of_admits h).exists_bindings
  have hcaptures := capturesFrom?_load p clean text pattern.segments start
  rw [hbindings] at hcaptures
  obtain ⟨captures, hsome, -⟩ := Option.map_eq_some_iff.1 hcaptures
  exact ⟨captures, hsome⟩

/-- A captured span is that of a segment, or of a tail. -/
theorem span_of_capturesFrom? {path : Path} {row : List Segment} {i : Nat} {captures : List Capture}
    (h : capturesFrom? path i row = some captures) :
    ∀ c ∈ captures, c.span ∈ path.spans ∨ ∃ j, c.span = ⟨path.tailStart j, path.size⟩ := by
  induction row generalizing i captures with
  | nil =>
    obtain rfl := Option.some.inj h
    exact fun c hc => absurd hc List.not_mem_nil
  | cons s row ih =>
    cases s with
    | literal t => exact ih h
    | wildcard name =>
      obtain rfl := Option.some.inj h
      intro c hc
      obtain rfl := List.mem_singleton.1 hc
      exact .inr ⟨i, rfl⟩
    | param name =>
      obtain ⟨span, hspan, h⟩ := Option.bind_eq_some_iff.1 h
      obtain ⟨others, hothers, h⟩ := Option.bind_eq_some_iff.1 h
      obtain rfl := Option.some.inj h
      intro c hc
      rcases List.mem_cons.1 hc with rfl | hc
      · exact .inl (List.mem_of_getElem? hspan)
      · exact ih hothers c hc

end Pattern

/-! ## Lookups -/

namespace Checked

theorem capture_load (params : Params) (clean : Bool) (path : String) {pattern : Pattern} {k : Nat}
    (h : pattern.accepts (params.path.load clean path) k = true) :
    capture (params.loadPath clean path) pattern k = some ((params.loadPath clean path).capture pattern k) := by
  obtain ⟨captures, hcaptures⟩ := Pattern.captures?_of_accepts params.path clean path h
  have hpath : pattern.captures? (params.loadPath clean path).path k = some captures := hcaptures
  rw [capture, Params.capture, hpath]
  rfl

/-- **A lookup breaks off nowhere**, whatever the buffer held. -/
theorem lookupInto_eq (r : Router α) (method : Method) (path : String) (params : Params) :
    lookupInto r method path params = some (r.lookupInto method path params) := by
  have hloaded : lookupInto r method path params = (do
      match ← resolve r method (params.path.load r.options.cleanPath path) with
      | some (route, start) =>
        return (.found route, ← capture (params.loadPath r.options.cleanPath path) route.pattern start)
      | none =>
        match ← allowed r method (params.path.load r.options.cleanPath path) with
        | [] => return (.notFound, params.loadPath r.options.cleanPath path)
        | verbs => return (.methodNotAllowed verbs, params.loadPath r.options.cleanPath path)) := by
    unfold lookupInto
    rw [load_eq]
    rfl
  rw [hloaded, resolve_load]
  cases hresolve : r.resolve method (params.path.load r.options.cleanPath path) with
  | some found =>
    obtain ⟨route, k⟩ := found
    obtain ⟨v, hv⟩ := Router.find_of_resolve hresolve
    rw [Router.lookupInto_of_resolve params hresolve]
    show (capture _ _ _).bind _ = _
    rw [capture_load params _ path (Router.accepts_of_find hv)]
    rfl
  | none =>
    rw [Router.lookupInto_of_none params hresolve]
    show (allowed _ _ _).bind _ = _
    rw [allowed_load]
    cases r.allowed method (params.path.load r.options.cleanPath path) <;> rfl

theorem lookup_eq (r : Router α) (method : Method) (path : String) :
    lookup r method path = some (r.lookup method path) := by
  unfold lookup Router.lookup
  dsimp only
  rw [lookupInto_eq]
  generalize Router.lookupInto _ method path _ = found
  obtain ⟨outcome, after⟩ := found
  cases outcome <;> rfl

/-! ## Reads -/

/-- The captures with their values; none where one of them cannot be read. -/
def pairs (p : Params) : Option (List (String × String)) :=
  p.captures.mapM fun c => (p.path.slice? c.span).map (c.name, ·)

/-- The value of a name, if there is one; none where it cannot be read. -/
def get (p : Params) (name : String) : Option (Option String) :=
  match p.captures.reverse.find? (·.name == name) with
  | some c => (p.path.slice? c.span).map some
  | none => some none

end Checked

namespace Params

/-- A buffer that can be read with all checks: what it has recorded lies in its text. -/
structure Readable (p : Params) : Prop where
  spans : ∀ span ∈ p.path.spans, span.Within p.path.chars
  captures : ∀ c ∈ p.captures, c.span.Within p.path.chars
  pairs : Checked.pairs p = some p.pairs
  get : ∀ name, Checked.get p name = some (p.get? name)

theorem lookup_values (f : Capture → String) (name : String) (captures : List Capture) :
    (captures.map fun c => (c.name, f c)).lookup name = (captures.find? (·.name == name)).map f := by
  induction captures with
  | nil => rfl
  | cons c captures ih =>
    rw [List.map_cons, List.lookup_cons, List.find?_cons, BEq.comm (a := name)]
    cases c.name == name with
    | true => rfl
    | false => exact ih

/-- A buffer is readable if the text can be sliced at all spans it has recorded. -/
theorem Readable.of_slices {p : Params} (hspans : ∀ span ∈ p.path.spans, p.path.slice? span = some (p.path.slice span))
    (hcaptures : ∀ c ∈ p.captures, p.path.slice? c.span = some (p.path.slice c.span)) : p.Readable where
  spans span h := Path.within_of_slice? (hspans span h)
  captures c h := Path.within_of_slice? (hcaptures c h)
  pairs := Checked.mapM_eq_some fun c h => by rw [hcaptures c h]; rfl
  get name := by
    rw [Checked.get, get?, Params.pairs, ← List.map_reverse, lookup_values]
    cases hfind : p.captures.reverse.find? (·.name == name) with
    | none => rfl
    | some c =>
      dsimp only
      rw [hcaptures c (List.mem_reverse.1 (List.mem_of_find?_eq_some hfind))]
      rfl

/-- A buffer without a path and captures is readable. -/
theorem readable_empty (sizedFor : Nat) : Readable { sizedFor } :=
  .of_slices (fun _ h => absurd h List.not_mem_nil) fun _ h => absurd h List.not_mem_nil

theorem readable_loadPath (p : Params) (clean : Bool) (path : String) : (p.loadPath clean path).Readable :=
  .of_slices (fun _ h => Checked.slice?_of_mem p.path clean path h) fun _ h => absurd h List.not_mem_nil

/-- What a pattern records in a loaded path can be read. -/
theorem readable_capture (p : Params) (clean : Bool) (path : String) (pattern : Pattern) (k : Nat) :
    ((p.loadPath clean path).capture pattern k).Readable := by
  refine .of_slices (fun _ h => Checked.slice?_of_mem p.path clean path h) fun c hc => ?_
  replace hc : c ∈ (pattern.captures? (p.path.load clean path) k).getD [] := hc
  show (p.path.load clean path).slice? c.span = some ((p.path.load clean path).slice c.span)
  cases hcaptures : pattern.captures? (p.path.load clean path) k with
  | none =>
    rw [hcaptures] at hc
    exact absurd hc List.not_mem_nil
  | some captures =>
    rw [hcaptures] at hc
    rcases Pattern.span_of_capturesFrom? hcaptures c hc with hspan | ⟨j, hspan⟩
    · exact Checked.slice?_of_mem p.path clean path hspan
    · rw [hspan, Path.slice, Path.tail?_load]
      rfl

end Params

namespace Router

/-- Whatever a lookup comes to, and whatever the buffer held before, it is readable afterwards. -/
theorem readable_lookupInto (r : Router α) (method : Method) (path : String) (params : Params) :
    (r.lookupInto method path params).2.Readable := by
  cases h : r.resolve method (params.path.load r.options.cleanPath path) with
  | some found =>
    rw [lookupInto_of_resolve params h]
    exact params.readable_capture _ path _ _
  | none =>
    rw [lookupInto_of_none params h]
    exact params.readable_loadPath _ path

/-- **Matching never goes out of bounds.** A lookup with a buffer of the caller, which may hold anything, or with one of
the pool fails no check, nor does any read of the buffer afterwards, or of one that was emptied. On the way the text is
cut back between characters only, and a pattern that accepts the path has a segment for each of its parameters, wherever
it was asked from. -/
theorem lookup_in_bounds (r : Router α) (method : Method) (path : String) (params : Params) :
    let loaded := params.path.load r.options.cleanPath path
    (Checked.lookupInto r method path params = some (r.lookupInto method path params) ∧
      Checked.lookup r method path = some (r.lookup method path)) ∧
    ((r.lookupInto method path params).2.Readable ∧
      (∀ route after, (r.lookup method path).1 = .found (route, after) → after.Readable) ∧
      (Recyclable.recycle params).Readable ∧ r.newParams.Readable) ∧
    (∀ (pattern : Pattern) (start : Nat), pattern.accepts loaded start = true →
      (∃ captures, pattern.captures? loaded start = some captures) ∧
      ∀ (i : Nat) (name : String), pattern.segments[i]? = some (.param name) → start + i < loaded.length) ∧
    ∀ read rest, Path.tokens path = read ++ rest →
      let p := read.foldl (Path.step r.options.cleanPath) params.path.clear
      ∀ last, p.spans.getLast? = some last → 1 ≤ last.start ∧ Text.IsBoundary p.chars (last.start - 1) := by
  intro loaded
  refine ⟨⟨Checked.lookupInto_eq r method path params, Checked.lookup_eq r method path⟩,
    ⟨r.readable_lookupInto method path params, fun route after h => ?_, Params.readable_empty _,
      Params.readable_empty _⟩,
    fun pattern start h => ⟨Pattern.captures?_of_accepts _ _ path h, fun i name => Pattern.lt_length_of_accepts _ _ path h⟩,
    fun read rest _ last => Path.isBoundary_of_pop? (Path.pop?_load params.path r.options.cleanPath read)⟩
  rw [r.lookup_fst] at h
  have hafter := r.readable_lookupInto method path (r.buffers.take Params.withCapacity).1
  rwa [Lookup.eq_of_withBuffer h] at hafter

/-- The checks do fail elsewhere: past the end of a path, and inside a character. -/
example : Checked.accepts ⟨"/", "/", []⟩ .empty 1 = none ∧ Checked.front ⟨['/', 'é'], [⟨1, 2⟩]⟩ 1 = none := ⟨rfl, rfl⟩

end Router

end Switchyard
