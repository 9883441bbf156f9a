import Switchyard.Proofs.Router.Captures
import Switchyard.Proofs.Router.Fit

/-!
# What a lookup leaves in its buffer

After a lookup a buffer holds the path it was given and, for a route found, one capture for each dynamic token of the
route; nothing is left of what it held before (`Records`).

- bindings stand at the places of the dynamic tokens (`Pattern.binds_of_bindings?`), if the pattern has no wildcard but
  a last one;
- of a name that was captured more than once, the last value counts (`Params.get?_eq_some_iff`);
- so every lookup records exactly what its route captures, with a buffer of the caller and with one from the pool
  (`records_run`).
-/

namespace Switchyard

open Http (Method)

variable {α : Type}

/-! ## Dynamic tokens and their values -/

namespace Pattern

/-- The dynamic tokens of a pattern, in their order, each with its place behind the stem. -/
def dynamic (p : Pattern) : List (Segment × Nat) :=
  p.segments.zipIdx.filter fun (s, _) => s.isDynamic

/-- What a dynamic token at some place captures from the segments behind the stem: `:name` the segment at that place,
`*name` all from there on. -/
inductive Binds (rest : List String) : Segment × Nat → String × String → Prop where
  | param {i : Nat} {text : String} (name : String) (h : rest[i]? = some text) :
    Binds rest (.param name, i) (name, text)
  | wildcard (name : String) (i : Nat) : Binds rest (.wildcard name, i) (name, "/".intercalate (rest.drop i))

/-- The bindings of a row from some place on are those of its dynamic tokens at their places. -/
theorem binds_of_bindings? {rest : List String} {row : List Segment} {i : Nat}
    {bindings : List (String × List String)} (hlast : ∀ s ∈ row.dropLast, s.isWildcard = false)
    (h : bindings? row (rest.drop i) = some bindings) :
    List.Forall₂ (Binds rest) ((row.zipIdx i).filter fun (s, _) => s.isDynamic) (joinedPairs bindings) := by
  induction row generalizing i bindings with
  | nil =>
    obtain rfl := Option.some.inj h
    exact .nil
  | cons s row ih =>
    obtain ⟨hbefore, htail⟩ := wildcard_last_cons hlast
    rw [List.zipIdx_cons]
    cases s with
    | literal text =>
      rw [bindings?, List.tail_drop] at h
      rw [List.filter_cons_of_neg (by simp [Segment.isDynamic, Segment.isLiteral])]
      exact ih htail h
    | param name =>
      rw [List.filter_cons_of_pos (by rfl)]
      cases hi : rest[i]? with
      | none =>
        rw [List.drop_eq_nil_of_le (List.getElem?_eq_none_iff.1 hi)] at h
        cases h
      | some text =>
        obtain ⟨hlt, rfl⟩ := List.getElem?_eq_some_iff.1 hi
        rw [List.drop_eq_getElem_cons hlt, bindings?] at h
        obtain ⟨others, hothers, rfl⟩ := Option.map_eq_some_iff.1 h
        exact .cons (.param name hi) (ih htail hothers)
    | wildcard name =>
      obtain rfl : row = [] := by
        by_contra hne
        cases hbefore hne
      obtain rfl := Option.some.inj h
      rw [List.filter_cons_of_pos (by rfl)]
      exact .cons (.wildcard name i) .nil

end Pattern

/-- **The value of a name is that of its last capture.** -/
theorem Params.get?_eq_some_iff (p : Params) (name value : String) : p.get? name = some value ↔
    ∃ front back, p.pairs = front ++ (name, value) :: back ∧ ∀ pair ∈ back, pair.1 ≠ name := by
  rw [get?, List.lookup_eq_some_iff]
  constructor
  · rintro ⟨back, front, hpairs, hback⟩
    refine ⟨front.reverse, back.reverse, ?_, fun pair hpair => ?_⟩
    · rw [← List.reverse_reverse p.pairs, hpairs]
      simp
    · exact (bne_iff_ne.1 (hback pair (List.mem_reverse.1 hpair))).symm
  · rintro ⟨front, back, hpairs, hback⟩
    refine ⟨back.reverse, front.reverse, ?_, fun pair hpair => ?_⟩
    · rw [hpairs]
      simp
    · exact bne_iff_ne.2 (hback pair (List.mem_reverse.1 hpair)).symm

/-! ## What is recorded -/

theorem Lookup.found?_eq_some_iff {outcome : Lookup α} {result : α} :
    outcome.found? = some result ↔ outcome = .found result := by
  cases outcome <;> simp [found?]

/-- What a lookup of a path records in a buffer: its text, and for a route found what the dynamic tokens capture from
the segments behind the stem. -/
structure Records (segments : List String) (outcome : Lookup (Route α)) (after : Params) : Prop where
  text : after.path.text = Path.textOf segments
  found : ∀ route, outcome.found? = some route → ∃ k ≤ segments.length,
    route.pattern.stem = Path.textOf (segments.take k) ∧
      List.Forall₂ (Pattern.Binds (segments.drop k)) route.pattern.dynamic after.pairs
  missed : outcome.found? = none → after.pairs = []
  value : ∀ name value, after.get? name = some value ↔
    ∃ front back, after.pairs = front ++ (name, value) :: back ∧ ∀ pair ∈ back, pair.1 ≠ name

namespace Router

/-- A miss leaves a buffer with the path and nothing else. -/
theorem lookupInto_missed {r : Router α} {method : Method} {path : String} {params : Params}
    (h : (r.lookupInto method path params).1.found? = none) :
    (r.lookupInto method path params).2 = params.loadPath r.options.cleanPath path := by
  rw [lookupInto_found?] at h
  rw [lookupInto_of_none params (Option.map_eq_none_iff.1 h)]

/-- What a buffer holds after a lookup does not depend on what it held before. -/
theorem lookupInto_snd (r : Router α) (method : Method) (path : String) (params params' : Params) :
    (r.lookupInto method path params).2.path = (r.lookupInto method path params').2.path ∧
      (r.lookupInto method path params).2.captures = (r.lookupInto method path params').2.captures := by
  refine ⟨(r.lookupInto_path method path params).trans (r.lookupInto_path method path params').symm, ?_⟩
  cases h : r.resolve method (params.path.load r.options.cleanPath path) with
  | some found =>
    rw [lookupInto_of_resolve params h, lookupInto_of_resolve params' h]
    rfl
  | none =>
    rw [lookupInto_of_none params h, lookupInto_of_none params' h]
    rfl

end Router

namespace Agrees

variable {s : Session α} {l : Ledger α}

/-- A router that agrees with a ledger of compiled patterns records what its routes capture. -/
theorem records (h : Agrees s l)
    (hcompiled : ∀ route ∈ l.routes, Pattern.compile route.pattern.raw = .ok route.pattern) (method : Method)
    (path : String) (params : Params) : Records (Path.segmentsOf l.options.cleanPath path)
      (s.router.lookupInto method path params).1 (s.router.lookupInto method path params).2 := by
  refine ⟨?_, fun route hroute => ?_, fun hmiss => ?_, Params.get?_eq_some_iff _⟩
  · rw [Router.lookupInto_path, Path.text_load, h.options]
  · have hfound : s.router.lookupInto method path params =
        (.found route, (s.router.lookupInto method path params).2) :=
      Prod.ext (Lookup.found?_eq_some_iff.1 hroute) rfl
    obtain ⟨k, hresolve, hafter⟩ := Router.lookupInto_eq_found hfound
    rw [h.resolve_eq] at hresolve
    obtain ⟨v, hv⟩ := Ledger.resolve_eq_some hresolve
    obtain ⟨hmem, hk, hstem, hadmits⟩ := Router.scan_eq_some hv
    have hlast := (Pattern.compile_eq_ok (hcompiled route (List.mem_filter.1 hmem).1)).2
    obtain ⟨bindings, hbindings⟩ := (Pattern.enough_of_admits hadmits).exists_bindings
    refine ⟨k, hk, hstem, ?_⟩
    rw [hafter, h.options, Router.pairs_capture params _ path hbindings]
    exact Pattern.binds_of_bindings? hlast hbindings
  · rw [Router.lookupInto_missed hmiss]
    rfl

end Agrees

/-- **A lookup records exactly what its route captures.** After any calls, a lookup with a buffer of the caller,
whatever it holds, and one with a buffer from the pool, leave in it the text of the path, the captures of the route
found, and none on a miss; and both come out alike, with the same path and captures. -/
theorem records_run (options : RouterOptions) (calls : List (Call α)) (method : Method) (path : String) :
    (∀ params, Records (Path.segmentsOf options.cleanPath path)
      ((Session.run options calls).router.lookupInto method path params).1
      ((Session.run options calls).router.lookupInto method path params).2) ∧
    (∀ route after, ((Session.run options calls).router.lookup method path).1 = .found (route, after) →
      Records (Path.segmentsOf options.cleanPath path) (.found route) after) ∧
    ∀ params, ((Session.run options calls).router.lookup method path).1.map
        (fun (route, after) => (route, after.path, after.captures)) =
      ((Session.run options calls).router.lookupInto method path params).1.map fun route =>
        (route, ((Session.run options calls).router.lookupInto method path params).2.path,
          ((Session.run options calls).router.lookupInto method path params).2.captures) := by
  obtain ⟨hoptions, hcompiled⟩ := Ledger.run_compiled options calls
  have hinto := (agrees_run options calls).records hcompiled method path
  rw [hoptions] at hinto
  generalize (Session.run options calls).router = r at *
  refine ⟨hinto, fun route after hfound => ?_, fun params => ?_⟩
  · obtain ⟨params, hparams⟩ := Router.lookup_eq_found hfound
    have hrecords := hinto params
    rwa [hparams] at hrecords
  · obtain ⟨hpath, hcaptures⟩ := r.lookupInto_snd method path params (r.buffers.take Params.withCapacity).1
    rw [r.lookup_fst, r.lookupInto_fst method path params (r.buffers.take Params.withCapacity).1, hpath, hcaptures]
    obtain ⟨outcome, after⟩ := r.lookupInto method path (r.buffers.take Params.withCapacity).1
    cases outcome <;> rfl

/-- A wildcard that nothing is left for captures an empty text, whatever the buffer held before. -/
example : (((Session.run {} [.add "" (.standard .get) "/f/:d/*d" ()]).router.lookupInto (.standard .get) "/f/a%2Fb"
    ((Params.withCapacity 2).loadPath true "/x/y/z")).2.pairs) = [("d", "a/b"), ("d", "")] := by
  rfl

end Switchyard
