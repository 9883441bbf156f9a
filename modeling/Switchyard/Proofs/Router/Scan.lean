import Switchyard.Proofs.Path.Segments
import Switchyard.Router

/-!
# A scan over all routes

`scan` is what a router is to find for a path, told without tables, spans or bounds: over the routes of one verb as
they were added and over the decoded segments of the path, it finds the longest front that is the stem of a route,
and the first route with that stem that admits the rest.

- a table that holds some routes (`Table.Holds`) holds one more after an insertion (`Table.Holds.insert`);
- what is selected from such a table is what the scan over these routes finds (`select_load`).
-/

namespace Switchyard

variable {α : Type}

/-! ## The scan -/

/-- Whether some segments fit what a pattern has after its stem: there are as many of them, or, with a wildcard, at
least as many as stand before it, and literals are equal. -/
def Pattern.admits (p : Pattern) (rest : List String) : Bool :=
  (match p.wildcardPosition with
    | some position => position ≤ rest.length
    | none => rest.length = p.segments.length) &&
  (p.segments.zip rest).all fun (s, text) => fits s text

/-- Whether a route stands under a front. -/
def Route.hasStem (front : String) (route : Route α) : Bool :=
  route.pattern.stem == front

theorem Route.hasStem_iff {front : String} {route : Route α} : route.hasStem front = true ↔ route.pattern.stem = front :=
  beq_iff_eq

namespace Router

/-- The most segments in front of a path whose text is the stem of a route. -/
def reach? (routes : List (Route α)) (segments : List String) : Option Nat :=
  (List.range (segments.length + 1)).reverse.find? fun k => routes.any (Route.hasStem (Path.textOf (segments.take k)))

/-- The first route with the longest stem, if it admits the rest of the path; with the number of segments of the stem.
-/
def scan (routes : List (Route α)) (segments : List String) : Option (Route α × Nat) := do
  let k ← reach? routes segments
  let route ← routes.find? fun route =>
    route.hasStem (Path.textOf (segments.take k)) && route.pattern.admits (segments.drop k)
  return (route, k)

end Router

/-! ## Tables hold routes -/

namespace Table

/-- A table holds some routes if under each stem there are those with that stem, in their order. -/
def Holds (t : Table α) (routes : List (Route α)) : Prop :=
  ∀ stem, t.get? stem = if routes.any (Route.hasStem stem) then some (routes.filter (Route.hasStem stem)) else none

variable {t : Table α} {routes : List (Route α)}

theorem holds_empty : ({} : Table α).Holds [] := fun _ => Std.TreeMap.getElem?_emptyc

theorem get?_insert (t : Table α) (route : Route α) (stem : String) : (t.insert route).get? stem =
    if route.hasStem stem then some ((t.get? stem).getD [] ++ [route]) else t.get? stem := by
  have hget : (t.insert route).get? stem = _ := Std.TreeMap.getElem?_insert
  rw [hget]
  by_cases h : route.pattern.stem = stem
  · rw [if_pos (Std.LawfulEqCmp.compare_eq_iff_eq.2 h), if_pos (Route.hasStem_iff.2 h), h]
  · rw [if_neg (mt Std.LawfulEqCmp.compare_eq_iff_eq.1 h), if_neg (mt Route.hasStem_iff.1 h)]
    rfl

/-- An insertion adds a route after all others. -/
theorem Holds.insert (h : t.Holds routes) (route : Route α) : (t.insert route).Holds (routes ++ [route]) := by
  intro stem
  rw [get?_insert, h stem, List.any_append, List.filter_append]
  cases hs : route.hasStem stem with
  | true =>
    have hone : [route].any (Route.hasStem stem) = true := by simp [hs]
    have hfilter : [route].filter (Route.hasStem stem) = [route] := by simp [hs]
    rw [hone, hfilter, Bool.or_true, if_pos rfl, if_pos rfl]
    split
    · rfl
    · rename_i hany
      have hnil : routes.filter (Route.hasStem stem) = [] := by simpa using hany
      rw [hnil]
      rfl
  | false =>
    have hone : [route].any (Route.hasStem stem) = false := by simp [hs]
    have hfilter : [route].filter (Route.hasStem stem) = [] := by simp [hs]
    rw [hone, hfilter, Bool.or_false, List.append_nil, if_neg Bool.false_ne_true]

end Table

/-! ## What is selected -/

theorem Pattern.accepts_load (p : Pattern) (path : Path) (clean : Bool) (text : String) (k : Nat) :
    p.accepts (path.load clean text) k = p.admits ((Path.segmentsOf clean text).drop k) := by
  cases hw : p.wildcardPosition <;>
    simp only [accepts, admits, hw, Path.length_load, Path.segmentsFrom_load, List.length_drop]

namespace Router

variable {t : Table α} {routes : List (Route α)}

/-- Fronts without routes may be left out. -/
theorem candidates?_skip {path : Path} {m n : Nat} (hmn : m ≤ n)
    (h : ∀ k, m < k → k ≤ n → t.get? (path.front k) = none) : candidates? t path n = candidates? t path m := by
  induction n with
  | zero => rw [Nat.le_zero.1 hmn]
  | succ n ih =>
    rcases Nat.le_succ_iff.1 hmn with hle | rfl
    · rw [candidates?, h (n + 1) (Nat.lt_succ_of_le hle) (Nat.le_refl _)]
      exact ih hle fun k hk hkn => h k hk (Nat.le_succ_of_le hkn)
    · rfl

/-- The fronts that are longer than every stem have no routes. -/
theorem candidates?_lengthWithin (t : Table α) (path : Path) (clean : Bool) (text : String) :
    candidates? t (path.load clean text) ((path.load clean text).lengthWithin t.longest) =
      candidates? t (path.load clean text) (Path.segmentsOf clean text).length := by
  have hle : (path.load clean text).lengthWithin t.longest ≤ (Path.segmentsOf clean text).length := by
    rw [← Path.length_load path]
    exact (List.takeWhile_sublist _).length_le
  refine (candidates?_skip hle fun k hk hkn => ?_).symm
  exact Table.get?_eq_none_of_longest_lt (Path.lt_size_of_lengthWithin path clean hk hkn)

/-- The candidates are the routes under the longest front that has some. -/
theorem candidates?_load (h : t.Holds routes) (path : Path) (clean : Bool) {text : String} {n : Nat}
    (hn : n ≤ (Path.segmentsOf clean text).length) : candidates? t (path.load clean text) n =
      ((List.range (n + 1)).reverse.find? fun k =>
        routes.any (Route.hasStem (Path.textOf ((Path.segmentsOf clean text).take k)))).map fun k =>
          (k, routes.filter (Route.hasStem (Path.textOf ((Path.segmentsOf clean text).take k)))) := by
  induction n with
  | zero =>
    have hrange : (List.range (0 + 1)).reverse = [0] := rfl
    rw [candidates?, h, Path.front_load path clean hn, hrange, List.find?_cons]
    cases routes.any (Route.hasStem (Path.textOf ((Path.segmentsOf clean text).take 0))) <;> rfl
  | succ n ih =>
    have hrange : (List.range (n + 1 + 1)).reverse = (n + 1) :: (List.range (n + 1)).reverse := by
      rw [List.range_succ, List.reverse_concat]
    rw [candidates?, h, Path.front_load path clean hn, hrange, List.find?_cons]
    cases routes.any (Route.hasStem (Path.textOf ((Path.segmentsOf clean text).take (n + 1)))) with
    | true => rfl
    | false => exact ih (Nat.le_of_succ_le hn)

/-- **What is selected for a path is what the scan finds.** -/
theorem select_load {r : Router α} {v : Http.Verb} (h : (r.table v).Holds routes) (path : Path) (clean : Bool)
    (text : String) : r.select v (path.load clean text) = scan routes (Path.segmentsOf clean text) := by
  rw [select, candidates?_lengthWithin, candidates?_load h path clean (Nat.le_refl _)]
  show Option.bind (Option.map _ (reach? routes (Path.segmentsOf clean text))) _ = Option.bind _ _
  cases reach? routes (Path.segmentsOf clean text) with
  | none => rfl
  | some k =>
    simp only [Option.map_some, Option.bind_some, List.find?_filter, Pattern.accepts_load, Bool.decide_and,
      Bool.decide_eq_true]

/-- What a route found by a scan is known to be. -/
theorem scan_eq_some {segments : List String} {route : Route α} {k : Nat} (h : scan routes segments = some (route, k)) :
    route ∈ routes ∧ k ≤ segments.length ∧ route.pattern.stem = Path.textOf (segments.take k) ∧
      route.pattern.admits (segments.drop k) = true := by
  obtain ⟨k', hk, h⟩ := Option.bind_eq_some_iff.1 h
  obtain ⟨route', hroute, h⟩ := Option.bind_eq_some_iff.1 h
  obtain ⟨rfl, rfl⟩ := Prod.mk.inj (Option.some.inj h)
  have hmem := List.mem_of_find?_eq_some hk
  have hfits := List.find?_some hroute
  rw [Bool.and_eq_true, Route.hasStem_iff] at hfits
  rw [List.mem_reverse, List.mem_range] at hmem
  exact ⟨List.mem_of_find?_eq_some hroute, Nat.le_of_lt_succ hmem, hfits⟩

end Router

end Switchyard
