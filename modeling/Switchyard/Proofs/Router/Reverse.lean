import Mathlib.Data.List.Basic
import Switchyard.Proofs.Router.Allowed
import Switchyard.Proofs.Router.Captures
import Switchyard.Proofs.Router.Clean
import Switchyard.Proofs.Router.Fit

/-!
# Paths made for a route

A path is made for a pattern by giving each parameter a value and the wildcard a list of values (`Filled`), escaping
the literal texts and the values, and writing a slash between neighbours (`Path.written`). Looked up in a router that
has the pattern only, such a path gives back the values.

- a written path has the segments that it was written from (`Path.segmentsOf_written`), and a slash in front of a path
  changes nothing (`Path.segmentsOf_slash`);
- a filled row fits its tokens, and its values are their bindings (`Filled.fits_and_bindings?`);
- a scan over one route finds it if its stem and what follows are in the path (`Router.scan_singleton`);
- so a path made for a route finds it with the values it was made of (`found_written`).
-/

namespace Switchyard

open Http (Method Verb)

variable {α : Type}

/-! ## Written paths -/

namespace Path

/-- Segments as one path: each escaped, with slashes between them. -/
def written (keep : Char → Bool) (segments : List String) : String :=
  "/".intercalate (segments.map fun s => .ofList (Text.Percent.encode keep s.toList))

/-- Characters that may be written as they are: not those that would be read as something else. -/
structure Keeps (keep : Char → Bool) : Prop where
  percent : keep '%' = false
  slash : keep '/' = false
  mark : keep '?' = false

variable {keep : Char → Bool} {segments : List String}

theorem toList_written (keep : Char → Bool) (segments : List String) : (written keep segments).toList =
    ['/'].intercalate (segments.map fun s => Text.Percent.encode keep s.toList) := by
  rw [written, String.toList_intercalate, List.map_map]
  refine congrArg ['/'].intercalate (List.map_congr_left fun s _ => ?_)
  exact String.toList_ofList

theorem tokens_of_free {text : String} (h : '?' ∉ text.toList) : tokens text = Text.splitOn '/' text.toList := by
  rw [tokens, Text.splitFirst_of_free h]

theorem mark_not_mem_written (h : Keeps keep) (segments : List String) : '?' ∉ (written keep segments).toList := by
  rw [toList_written]
  intro hmem
  rcases Text.mem_of_mem_intercalate hmem with hslash | ⟨token, htoken, hmark⟩
  · exact absurd hslash (by decide)
  · obtain ⟨s, -, rfl⟩ := List.mem_map.1 htoken
    exact Text.Percent.not_mem_encode h.mark (by decide) (by decide) s.toList hmark

/-- A written path is cut where it was joined. -/
theorem tokens_written (h : Keeps keep) (hne : segments ≠ []) :
    tokens (written keep segments) = segments.map fun s => Text.Percent.encode keep s.toList := by
  have hpieces : ∀ s ∈ segments, Text.splitOn '/' (Text.Percent.encode keep s.toList) =
      [Text.Percent.encode keep s.toList] :=
    fun s _ => Text.splitOn_of_free (Text.Percent.not_mem_encode h.slash (by decide) (by decide) s.toList)
  rw [tokens_of_free (mark_not_mem_written h segments), toList_written,
    Text.splitOn_intercalate '/' (mt List.map_eq_nil_iff.1 hne), List.flatMap_map, List.map_eq_flatMap]
  exact List.flatMap_congr hpieces

theorem takeUp_nil (clean : Bool) (segments : List String) : takeUp clean segments [] = segments := rfl

/-- A token is taken up as what it is decoded to, unless that is empty or cleaned away. -/
theorem takeUp_eq_append {clean : Bool} {token : List Char} (hne : Text.Percent.decode token ≠ [])
    (hdots : clean = true → Text.Percent.decode token ≠ ['.'] ∧ Text.Percent.decode token ≠ ['.', '.'])
    (segments : List String) :
    takeUp clean segments token = segments ++ [.ofList (Text.Percent.decode token)] := by
  rw [takeUp]
  generalize Text.Percent.decode token = segment at hne hdots
  cases clean with
  | true =>
    obtain ⟨hdot, hdots⟩ := hdots rfl
    simp [hne, hdot, hdots]
  | false => simp [hne]

/-- A plain segment is taken up as it was before it was escaped. -/
theorem takeUp_encode (h : Keeps keep) (clean : Bool) (segments : List String) {s : String} (hs : Plain s) :
    takeUp clean segments (Text.Percent.encode keep s.toList) = segments ++ [s] := by
  obtain ⟨hempty, hdot, hdots⟩ := hs
  have hne : ∀ t : String, s ≠ t → s.toList ≠ t.toList := fun t => mt String.toList_inj.1
  have hdecode := Text.Percent.decode_encode h.percent s.toList
  rw [takeUp_eq_append, hdecode, String.ofList_toList]
  · rw [hdecode]
    exact hne "" hempty
  · rw [hdecode]
    exact fun _ => ⟨hne "." hdot, hne ".." hdots⟩

/-- **A written path has the segments that it was written from.** -/
theorem segmentsOf_written (h : Keeps keep) (clean : Bool) (hplain : ∀ s ∈ segments, Plain s) :
    segmentsOf clean (written keep segments) = segments := by
  have hfold : ∀ (segments before : List String), (∀ s ∈ segments, Plain s) →
      (segments.map fun s => Text.Percent.encode keep s.toList).foldl (takeUp clean) before = before ++ segments := by
    intro segments
    induction segments with
    | nil => exact fun before _ => (List.append_nil before).symm
    | cons s segments ih =>
      intro before hall
      rw [List.map_cons, List.foldl_cons, takeUp_encode h clean before (hall s List.mem_cons_self),
        ih _ fun t ht => hall t (List.mem_cons_of_mem s ht), List.append_assoc]
      rfl
  by_cases hne : segments = []
  · rw [hne]
    rfl
  · rw [segmentsOf, tokens_written h hne, hfold segments [] hplain, List.nil_append]

/-- A slash in front of a path changes nothing. -/
theorem segmentsOf_slash (clean : Bool) (text : String) : segmentsOf clean ("/" ++ text) = segmentsOf clean text := by
  have htokens : tokens ("/" ++ text) = [] :: tokens text := by
    rw [tokens, tokens, String.toList_append]
    rfl
  rw [segmentsOf, htokens, List.foldl_cons, takeUp_nil]
  rfl

end Path

/-! ## Filled rows -/

/-- A token with what it is to stand for. -/
inductive Filled where
  | literal (text : String)
  | param (name value : String)
  | wildcard (name : String) (values : List String)

namespace Filled

def token : Filled → Segment
  | .literal text => .literal text
  | .param name _ => .param name
  | .wildcard name _ => .wildcard name

/-- The segments of the path in the place of the token. -/
def parts : Filled → List String
  | .literal text => [text]
  | .param _ value => [value]
  | .wildcard _ values => values

/-- The values given, with their name. -/
def binding? : Filled → Option (String × List String)
  | .literal _ => none
  | .param name value => some (name, [value])
  | .wildcard name values => some (name, values)

/-- What is to be captured: the value of a parameter, the values of a wildcard with slashes between them. -/
def pair? : Filled → Option (String × String)
  | .literal _ => none
  | .param name value => some (name, value)
  | .wildcard name values => some (name, "/".intercalate values)

theorem joinedPairs_bindings (filled : List Filled) :
    Pattern.joinedPairs (filled.filterMap binding?) = filled.filterMap pair? := by
  rw [Pattern.joinedPairs, List.map_filterMap]
  refine List.filterMap_congr fun f _ => ?_
  cases f with
  | literal text => rfl
  | param name value => exact congrArg (fun text => some (name, text)) (String.intercalate_singleton)
  | wildcard name values => rfl

/-- Literal tokens stand for themselves. -/
theorem parts_of_literals {filled : List Filled} (h : ∀ s ∈ filled.map token, s.isLiteral = true) :
    filled.flatMap parts = (filled.map token).map Segment.token := by
  rw [List.map_map, List.map_eq_flatMap]
  refine List.flatMap_congr fun f hf => ?_
  have hlit := h f.token (List.mem_map_of_mem hf)
  cases f with
  | literal text => rfl
  | param name value => cases hlit
  | wildcard name values => cases hlit

theorem binding?_of_literals {filled : List Filled} (h : ∀ s ∈ filled.map token, s.isLiteral = true) :
    filled.filterMap binding? = [] := by
  refine List.filterMap_eq_nil_iff.2 fun f hf => ?_
  have hlit := h f.token (List.mem_map_of_mem hf)
  cases f with
  | literal text => rfl
  | param name value => cases hlit
  | wildcard name values => cases hlit

/-- With a wildcard at the end only, the parts of a filled row fit its tokens, and its values are their bindings. -/
theorem fits_and_bindings? {filled : List Filled} (h : ∀ s ∈ (filled.map token).dropLast, s.isWildcard = false) :
    Fits (filled.map token) (filled.flatMap parts) ∧
      Pattern.bindings? (filled.map token) (filled.flatMap parts) = some (filled.filterMap binding?) := by
  induction filled with
  | nil => exact ⟨.nil, rfl⟩
  | cons f filled ih =>
    by_cases hnil : filled = []
    · subst hnil
      cases f with
      | literal text => exact ⟨.literal text .nil, rfl⟩
      | param name value => exact ⟨.param name value .nil, rfl⟩
      | wildcard name values =>
        have hparts : [Filled.wildcard name values].flatMap parts = values := List.append_nil values
        rw [hparts]
        exact ⟨.wildcard name values, rfl⟩
    · rw [List.map_cons, List.dropLast_cons_of_ne_nil (mt List.map_eq_nil_iff.1 hnil)] at h
      obtain ⟨hfits, hbindings⟩ := ih fun s hs => h s (List.mem_cons_of_mem _ hs)
      have hf := h f.token List.mem_cons_self
      cases f with
      | literal text => exact ⟨.literal text hfits, hbindings⟩
      | param name value =>
        refine ⟨.param name value hfits, ?_⟩
        show (Pattern.bindings? (filled.map token) (filled.flatMap parts)).map _ = _
        rw [hbindings]
        rfl
      | wildcard name values => cases hf

/-- Literals and values that are plain make plain parts. -/
theorem plain_parts {raw : String} {filled : List Filled} (hrow : filled.map token = Pattern.row raw)
    (hdots : ∀ text, .literal text ∈ Pattern.row raw → text ≠ "." ∧ text ≠ "..")
    (hvalues : ∀ binding ∈ filled.filterMap binding?, ∀ value ∈ binding.2, Path.Plain value) :
    ∀ s ∈ filled.flatMap parts, Path.Plain s := by
  intro s hs
  obtain ⟨f, hf, hs⟩ := List.mem_flatMap.1 hs
  have hvalue : ∀ binding, f.binding? = some binding → ∀ value ∈ binding.2, Path.Plain value :=
    fun binding hb => hvalues binding (List.mem_filterMap.2 ⟨f, hf, hb⟩)
  cases f with
  | literal text =>
    obtain rfl := List.mem_singleton.1 hs
    have hmem : .literal s ∈ Pattern.row raw := by
      rw [← hrow]
      exact List.mem_map_of_mem hf
    exact ⟨(Pattern.row_literal hmem rfl).2.1, hdots s hmem⟩
  | param name value => exact hvalue _ rfl s hs
  | wildcard name values => exact hvalue _ rfl s hs

/-- **A row filled for a pattern has the stem in front**, and behind it what the pattern admits, where its tokens stand
for the values given. -/
theorem exists_front {raw : String} {p : Pattern} {filled : List Filled} (hp : Pattern.compile raw = .ok p)
    (hrow : filled.map token = Pattern.row raw) : ∃ k ≤ (filled.flatMap parts).length,
      p.stem = Path.textOf ((filled.flatMap parts).take k) ∧ p.admits ((filled.flatMap parts).drop k) = true ∧
      Pattern.bindings? p.segments ((filled.flatMap parts).drop k) = some (filled.filterMap binding?) := by
  obtain ⟨rfl, hlast⟩ := Pattern.compile_eq_ok hp
  rw [← hrow, List.takeWhile_map, List.dropWhile_map] at hlast ⊢
  have hsplit := List.takeWhile_append_dropWhile (p := Segment.isLiteral ∘ token) (l := filled)
  have hlit : ∀ s ∈ (filled.takeWhile (Segment.isLiteral ∘ token)).map token, s.isLiteral = true := by
    intro s hs
    obtain ⟨f, hf, rfl⟩ := List.mem_map.1 hs
    have hlit := List.mem_takeWhile_imp (p := Segment.isLiteral ∘ token) hf
    exact hlit
  generalize filled.takeWhile (Segment.isLiteral ∘ token) = lead at *
  generalize filled.dropWhile (Segment.isLiteral ∘ token) = rest at *
  subst hsplit
  obtain ⟨hfits, hbindings⟩ := fits_and_bindings? hlast
  have htake : ((lead ++ rest).flatMap parts).take (lead.flatMap parts).length = lead.flatMap parts := by
    rw [List.flatMap_append, List.take_left]
  have hdrop : ((lead ++ rest).flatMap parts).drop (lead.flatMap parts).length = rest.flatMap parts := by
    rw [List.flatMap_append, List.drop_left]
  refine ⟨(lead.flatMap parts).length, ?_, ?_, ?_, ?_⟩
  · rw [List.flatMap_append, List.length_append]
    exact Nat.le_add_right _ _
  · rw [htake, parts_of_literals hlit]
    exact Pattern.stemOf_eq (lead.map token)
  · rw [hdrop]
    exact (Pattern.admits_iff _ _ hlast _).2 hfits
  · rw [hdrop, List.filterMap_append, binding?_of_literals hlit]
    exact hbindings

end Filled

/-! ## One route -/

namespace Router

/-- **A scan over one route finds it** where its stem is in front and its pattern admits the rest. -/
theorem scan_singleton {route : Route α} {segments : List String} (hne : ∀ s ∈ segments, s ≠ "") {k : Nat}
    (hk : k ≤ segments.length) (hstem : route.pattern.stem = Path.textOf (segments.take k))
    (hrest : route.pattern.admits (segments.drop k) = true) : scan [route] segments = some (route, k) := by
  have hreach : reach? [route] segments = some k := by
    have hany : ∀ j ∈ (List.range (segments.length + 1)).reverse,
        ([route].any (Route.hasStem (Path.textOf (segments.take j))) = true ↔ j = k) := by
      intro j hj
      rw [List.mem_reverse, List.mem_range] at hj
      rw [List.any_cons, List.any_nil, Bool.or_false, Route.hasStem_iff, hstem]
      refine ⟨fun heq => (Path.textOf_take_inj hne hk (Nat.le_of_lt_succ hj) heq).symm, ?_⟩
      rintro rfl
      rfl
    have hmem : k ∈ (List.range (segments.length + 1)).reverse := by
      rw [List.mem_reverse, List.mem_range]
      exact Nat.lt_succ_of_le hk
    cases hfind : reach? [route] segments with
    | none => exact absurd ((hany k hmem).2 rfl) (List.find?_eq_none.1 hfind k hmem)
    | some j =>
      have hj := List.find?_some (p := fun k => [route].any (Route.hasStem (Path.textOf (segments.take k)))) hfind
      rw [(hany j (List.mem_of_find?_eq_some hfind)).1 hj]
  have hfirst : ([route].find? fun route =>
      route.hasStem (Path.textOf (segments.take k)) && route.pattern.admits (segments.drop k)) = some route := by
    rw [List.find?_cons_of_pos]
    rw [Route.hasStem_iff.2 hstem, hrest]
    rfl
  rw [scan, hreach]
  exact congrArg (Option.bind · fun route => some (route, k)) hfirst

/-- A router in which a path selects an enabled route of the verb finds it, and fills the buffer with its bindings. -/
theorem lookupInto_of_select {r : Router α} {v : Verb} {path : String} {route : Route α} {k : Nat}
    {bindings : List (String × List String)}
    (hselect : ∀ before : Path, r.select v (before.load r.options.cleanPath path) = some (route, k))
    (henabled : r.isEnabled route = true)
    (hbindings : Pattern.bindings? route.pattern.segments ((Path.segmentsOf r.options.cleanPath path).drop k) =
      some bindings) (params : Params) : ∃ after,
        r.lookupInto (.standard v) path params = (.found route, after) ∧ after.pairs = Pattern.joinedPairs bindings := by
  have hresolve : r.resolve (.standard v) (params.path.load r.options.cleanPath path) = some (route, k) := by
    rw [resolve_standard, find, hselect, Option.filter_some, if_pos henabled]
    rfl
  exact ⟨_, lookupInto_of_resolve params hresolve, pairs_capture params _ path hbindings⟩

/-- What a lookup does with every buffer it does with one of its own. -/
theorem lookup_of_lookupInto {r : Router α} {method : Method} {path : String} {route : Route α} {P : Params → Prop}
    (h : ∀ params, ∃ after, r.lookupInto method path params = (.found route, after) ∧ P after) :
    ∃ after, (r.lookup method path).1 = .found (route, after) ∧ P after := by
  obtain ⟨after, hfound, hafter⟩ := h (r.buffers.take Params.withCapacity).1
  refine ⟨after, ?_, hafter⟩
  rw [lookup_fst, hfound]
  rfl

/-- A router with one route for a verb finds it for a path that is made for it. -/
theorem finds_written {r : Router α} {verb : Verb} {route : Route α} (hholds : (r.table verb).Holds [route])
    (henabled : r.isEnabled route = true) {raw : String} (hp : Pattern.compile raw = .ok route.pattern)
    {filled : List Filled} (hrow : filled.map Filled.token = Pattern.row raw) {path : String}
    (hpath : Path.segmentsOf r.options.cleanPath path = filled.flatMap Filled.parts) :
    (∀ params, ∃ after, r.lookupInto (.standard verb) path params = (.found route, after) ∧
      after.pairs = filled.filterMap Filled.pair?) ∧
    ∃ after, (r.lookup (.standard verb) path).1 = .found (route, after) ∧
      after.pairs = filled.filterMap Filled.pair? := by
  obtain ⟨k, hk, hstem, hadmits, hbindings⟩ := Filled.exists_front hp hrow
  rw [← hpath] at hk hstem hadmits hbindings
  have hselect : ∀ before : Path, r.select verb (before.load r.options.cleanPath path) = some (route, k) := by
    intro before
    rw [select_load hholds]
    exact scan_singleton (Path.segmentsOf_ne_empty _ path) hk hstem hadmits
  have hinto := lookupInto_of_select hselect henabled hbindings
  rw [Filled.joinedPairs_bindings] at hinto
  exact ⟨hinto, lookup_of_lookupInto hinto⟩

end Router

/-- **A path made for a route finds it, with the values it was made of**: in a router that has the route only, whatever
the options and the verb, for every pattern that compiles and any plain values, and whatever is escaped beside `%`, `/`
and `?`. -/
theorem found_written {keep : Char → Bool} (hkeep : Path.Keeps keep) {raw : String} {p : Pattern}
    (hp : Pattern.compile raw = .ok p) (hdots : ∀ text, .literal text ∈ Pattern.row raw → text ≠ "." ∧ text ≠ "..")
    {filled : List Filled} (hrow : filled.map Filled.token = Pattern.row raw)
    (hvalues : ∀ binding ∈ filled.filterMap Filled.binding?, ∀ value ∈ binding.2, Path.Plain value)
    (options : RouterOptions) (group : String) (verb : Verb) (value : α) :
    ∃ route r, (Router.new options).add group (.standard verb) raw value = .ok (route, r) ∧
      ∀ path ∈ [Path.written keep (filled.flatMap Filled.parts), "/" ++ Path.written keep (filled.flatMap Filled.parts)],
        (∀ params, ∃ after, r.lookupInto (.standard verb) path params = (.found route, after) ∧
          after.pairs = filled.filterMap Filled.pair?) ∧
        ∃ after, (r.lookup (.standard verb) path).1 = .found (route, after) ∧
          after.pairs = filled.filterMap Filled.pair? := by
  have hadd : (Router.new options).add group (.standard verb) raw value =
      .ok ((Router.new options).insert group verb p value) := by
    rw [Router.add_eq, hp]
    rfl
  have hholds : (((Router.new options).insert group verb p value).2.table verb).Holds [⟨0, verb, group, p, value⟩] := by
    rw [Router.table_insert, if_pos rfl, Router.table_new]
    exact Table.holds_empty.insert _
  refine ⟨_, _, hadd, fun path hpath => ?_⟩
  refine Router.finds_written hholds rfl hp hrow ?_
  have hwritten := Path.segmentsOf_written hkeep options.cleanPath (Filled.plain_parts hrow hdots hvalues)
  rcases List.mem_pair.1 hpath with rfl | rfl
  · exact hwritten
  · exact (Path.segmentsOf_slash _ _).trans hwritten

/-- Values with a slash, a question mark, a percent sign, a plus sign and a letter beyond ASCII, for a pattern with a
percent sign in a literal. -/
theorem found_written_reserved : ∃ route r,
    (Router.new {}).add "" (.standard .get) "/a%20b/:x/c/*rest" () = .ok (route, r) ∧
      ∃ after, (r.lookup (.standard .get) "/a%2520b/x%2Fy%3Fz/c/%C3%A9+/100%25").1 = .found (route, after) ∧
        after.pairs = [("x", "x/y?z"), ("rest", "é+/100%")] := by
  have hkeep : Path.Keeps fun c => c.isAlphanum || c == '+' := ⟨by decide, by decide, by decide⟩
  have hrow : [Filled.literal "a%20b", .param "x" "x/y?z", .literal "c", .wildcard "rest" ["é+", "100%"]].map
      Filled.token = Pattern.row "/a%20b/:x/c/*rest" := by rfl
  have hdots : ∀ text, .literal text ∈ Pattern.row "/a%20b/:x/c/*rest" → text ≠ "." ∧ text ≠ ".." := by
    intro text htext
    rw [← hrow] at htext
    simp only [Filled.token, List.map_cons, List.map_nil, List.mem_cons, Segment.literal.injEq, reduceCtorEq,
      List.not_mem_nil, or_false, false_or] at htext
    rcases htext with rfl | rfl <;> decide
  obtain ⟨route, r, hadd, hfound⟩ := found_written hkeep rfl hdots hrow (by decide) {} "" .get ()
  exact ⟨route, r, hadd, (hfound "/a%2520b/x%2Fy%3Fz/c/%C3%A9+/100%25" (by decide)).2⟩

end Switchyard
