import Switchyard.Proofs.Router.Lookup
import Switchyard.Proofs.Router.Scan

/-!
# What a route captures

`Pattern.bindings?` tells without spans what the tokens behind the stem of a pattern stand for in the segments behind
it: `:name` for one segment, `*name` for all that are left. The captures of a lookup are these, joined by slashes.

- captures of a loaded path are bindings, of any pattern (`Pattern.capturesFrom?_load`), and a pattern that admits some
  segments has bindings in them (`Pattern.enough_of_admits`, `Pattern.Enough.exists_bindings`);
- so a route found captures its bindings (`Router.Finds.captures`), each of them some segments that stand side by side
  in the path (`Router.Finds.parts`).
-/

namespace Switchyard

open Http (Method)

variable {α : Type}

namespace Pattern

/-- The segments that each dynamic token stands for, with its name; none if there are too few of them. -/
def bindings? : List Segment → List String → Option (List (String × List String))
  | [], _ => some []
  | .literal _ :: row, rest => bindings? row rest.tail
  | .param name :: row, text :: rest => (bindings? row rest).map ((name, [text]) :: ·)
  | .param _ :: _, [] => none
  | .wildcard name :: _, rest => some [(name, rest)]

/-- The captures of some bindings. -/
def joinedPairs (bindings : List (String × List String)) : List (String × String) :=
  bindings.map fun binding => (binding.1, "/".intercalate binding.2)

/-- The values of captures in a path. -/
def valuesIn (path : Path) (captures : List Capture) : List (String × String) :=
  captures.map fun c => (c.name, path.slice c.span)

/-- **Captures of a loaded path are bindings of its segments.** -/
theorem capturesFrom?_load (p : Path) (clean : Bool) (text : String) (row : List Segment) (i : Nat) :
    (capturesFrom? (p.load clean text) i row).map (valuesIn (p.load clean text)) =
      (bindings? row ((Path.segmentsOf clean text).drop i)).map joinedPairs := by
  induction row generalizing i with
  | nil => rfl
  | cons s row ih =>
    cases s with
    | literal t =>
      rw [capturesFrom?, bindings?, List.tail_drop]
      exact ih (i + 1)
    | param name =>
      have hsegment := Path.segment?_load p clean text i
      rw [Path.segment?] at hsegment
      cases hspan : (p.load clean text).spans[i]? with
      | none =>
        rw [hspan] at hsegment
        have hnil : (Path.segmentsOf clean text).drop i = [] :=
          List.drop_eq_nil_of_le (List.getElem?_eq_none_iff.1 hsegment.symm)
        rw [capturesFrom?, hspan, hnil]
        rfl
      | some span =>
        rw [hspan] at hsegment
        obtain ⟨hi, hget⟩ := List.getElem?_eq_some_iff.1 hsegment.symm
        rw [List.drop_eq_getElem_cons hi, hget, bindings?, capturesFrom?, hspan]
        calc
          _ = ((capturesFrom? (p.load clean text) (i + 1) row).map (valuesIn (p.load clean text))).map
              ((name, (p.load clean text).slice span) :: ·) := by
            cases capturesFrom? (p.load clean text) (i + 1) row <;> rfl
          _ = ((bindings? row ((Path.segmentsOf clean text).drop (i + 1))).map joinedPairs).map
              ((name, (p.load clean text).slice span) :: ·) := by
            rw [ih]
          _ = _ := by
            cases bindings? row ((Path.segmentsOf clean text).drop (i + 1)) with
            | none => rfl
            | some bindings => simp [joinedPairs]
    | wildcard name =>
      exact congrArg (fun value => some [(name, value)]) (Path.tail_load p clean text i)

/-- There are as many segments as tokens, or all but one and a wildcard at the end. -/
def Enough (row : List Segment) (rest : List String) : Prop :=
  row.length ≤ rest.length ∨ (row.length = rest.length + 1 ∧ row.getLast?.any Segment.isWildcard = true)

/-- A token that is no wildcard has a segment, and enough are left for the others. -/
theorem Enough.tail {s : Segment} {row : List Segment} {rest : List String} (h : Enough (s :: row) rest)
    (hs : s.isWildcard = false) : ∃ text others, rest = text :: others ∧ Enough row others := by
  cases rest with
  | nil =>
    rcases h with hle | ⟨hlen, hlast⟩
    · cases hle
    · obtain rfl : row = [] := List.length_eq_zero_iff.1 (Nat.succ.inj hlen)
      rw [List.getLast?_singleton, Option.any_some, hs] at hlast
      cases hlast
  | cons text others =>
    refine ⟨text, others, rfl, h.imp Nat.le_of_succ_le_succ fun ⟨hlen, hlast⟩ => ?_⟩
    have hlen : row.length = others.length + 1 := Nat.succ.inj hlen
    obtain ⟨t, row, rfl⟩ := List.exists_cons_of_length_eq_add_one hlen
    rw [List.getLast?_cons_cons] at hlast
    exact ⟨hlen, hlast⟩

theorem Enough.exists_bindings {row : List Segment} {rest : List String} (h : Enough row rest) :
    ∃ bindings, bindings? row rest = some bindings := by
  induction row generalizing rest with
  | nil => exact ⟨[], rfl⟩
  | cons s row ih =>
    cases s with
    | literal t =>
      obtain ⟨text, others, rfl, hothers⟩ := h.tail rfl
      exact ih hothers
    | param name =>
      obtain ⟨text, others, rfl, hothers⟩ := h.tail rfl
      obtain ⟨bindings, hbindings⟩ := ih hothers
      exact ⟨(name, [text]) :: bindings, by rw [bindings?, hbindings]; rfl⟩
    | wildcard name => exact ⟨_, rfl⟩

/-- A pattern admits nothing without enough segments. -/
theorem enough_of_admits {p : Pattern} {rest : List String} (h : p.admits rest = true) : Enough p.segments rest := by
  have harity := (Bool.and_eq_true_iff.1 h).1
  unfold wildcardPosition at harity
  split at harity
  · rename_i position hposition
    split at hposition
    · rename_i hlast
      obtain rfl := Option.some.inj hposition
      have hle := of_decide_eq_true harity
      rcases Nat.lt_or_ge rest.length p.segments.length with hlt | hge
      · exact .inr ⟨by omega, hlast⟩
      · exact .inl hge
    · cases hposition
  · exact .inl (Nat.le_of_eq (of_decide_eq_true harity).symm)

/-- What a token stands for stands side by side. -/
theorem infix_of_bindings? {row : List Segment} {rest : List String} {bindings : List (String × List String)}
    (h : bindings? row rest = some bindings) : ∀ binding ∈ bindings, binding.2 <:+: rest := by
  induction row generalizing rest bindings with
  | nil =>
    obtain rfl := Option.some.inj h
    exact fun binding hb => absurd hb List.not_mem_nil
  | cons s row ih =>
    cases s with
    | literal t => exact fun binding hb => (ih h binding hb).trans (List.tail_suffix rest).isInfix
    | wildcard name =>
      obtain rfl := Option.some.inj h
      intro binding hb
      obtain rfl := List.mem_singleton.1 hb
      exact List.infix_refl rest
    | param name =>
      cases rest with
      | nil => cases h
      | cons text rest =>
        obtain ⟨others, hothers, rfl⟩ := Option.map_eq_some_iff.1 h
        intro binding hb
        rcases List.mem_cons.1 hb with rfl | hb
        · exact (List.prefix_append [text] rest).isInfix
        · exact (ih hothers binding hb).trans (List.suffix_cons text rest).isInfix

end Pattern

namespace Router

/-- A lookup finds a route, with a buffer of the caller or one of its own, and leaves it filled. -/
def Finds (r : Router α) (method : Method) (path : String) (route : Route α) (after : Params) : Prop :=
  (∃ params, r.lookupInto method path params = (.found route, after)) ∨
    (r.lookup method path).1 = .found (route, after)

/-- A buffer that records what a pattern captures holds the bindings of the pattern. -/
theorem pairs_capture (params : Params) (clean : Bool) (path : String) {p : Pattern} {k : Nat}
    {bindings : List (String × List String)}
    (h : Pattern.bindings? p.segments ((Path.segmentsOf clean path).drop k) = some bindings) :
    ((params.loadPath clean path).capture p k).pairs = Pattern.joinedPairs bindings := by
  have hcaptures := Pattern.capturesFrom?_load params.path clean path p.segments k
  rw [h] at hcaptures
  obtain ⟨captures, hsome, hvalues⟩ := Option.map_eq_some_iff.1 hcaptures
  show Pattern.valuesIn _ ((p.captures? _ k).getD []) = _
  rw [Pattern.captures?]
  exact (congrArg (fun captures => Pattern.valuesIn _ (Option.getD captures [])) hsome).trans hvalues

/-- **A route found captures its bindings.** -/
theorem Finds.captures {r : Router α} {method : Method} {path : String} {route : Route α} {after : Params}
    (h : r.Finds method path route after) : ∃ k bindings,
      Pattern.bindings? route.pattern.segments ((Path.segmentsOf r.options.cleanPath path).drop k) = some bindings ∧
        after.pairs = Pattern.joinedPairs bindings := by
  obtain ⟨params, hfound⟩ := h.elim id lookup_eq_found
  obtain ⟨k, hresolve, rfl⟩ := lookupInto_eq_found hfound
  obtain ⟨v, hv⟩ := find_of_resolve hresolve
  have hadmits := accepts_of_find hv
  rw [Pattern.accepts_load] at hadmits
  obtain ⟨bindings, hbindings⟩ := (Pattern.enough_of_admits hadmits).exists_bindings
  exact ⟨k, bindings, hbindings, pairs_capture params _ path hbindings⟩

/-- A captured value is some segments that stand side by side, with slashes between them. -/
theorem Finds.parts {r : Router α} {method : Method} {path : String} {route : Route α} {after : Params}
    (h : r.Finds method path route after) : ∀ pair ∈ after.pairs,
      ∃ part, part <:+: Path.segmentsOf r.options.cleanPath path ∧ pair.2 = "/".intercalate part := by
  obtain ⟨k, bindings, hbindings, hpairs⟩ := h.captures
  intro pair hpair
  rw [hpairs] at hpair
  obtain ⟨binding, hbinding, rfl⟩ := List.mem_map.1 hpair
  have hbehind := Pattern.infix_of_bindings? hbindings binding hbinding
  exact ⟨binding.2, hbehind.trans (List.drop_suffix k _).isInfix, rfl⟩

end Router

end Switchyard
