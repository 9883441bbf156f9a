import Switchyard.Proofs.Router.Lookup

/-!
# The verbs that reach a path

A verb reaches a path if a lookup for it finds a route (`Router.Reaches`). The verbs that a miss is answered with are
gathered apart from the lookups: the requested verb is left out, and HEAD is added where GET serves it. They are
exactly those that reach the path.

- `mem_allowed_iff`, `allowed_nodup`: for a method that finds nothing, the verbs gathered are those that find
  something, each once;
- `classified_lookupInto`, `classified_lookup`: so a miss that offers verbs offers these, and one that offers none
  means that there are none (`Router.Classified`).
-/

namespace Switchyard

open Http (Method Verb)

variable {α β : Type}

namespace Router

/-- A lookup for a verb finds a route for a path. -/
def Reaches (r : Router α) (path : String) (v : Verb) : Prop :=
  ∃ result, (r.lookup (.standard v) path).1 = .found result

/-- A miss of a path tells what verbs reach it: those it offers, or none if it offers none. -/
def Classified (r : Router α) (path : String) (outcome : Lookup β) : Prop :=
  (∀ verbs, outcome = .methodNotAllowed verbs → verbs.Nodup ∧ ∀ v, v ∈ verbs ↔ r.Reaches path v) ∧
  (outcome = .notFound ↔ ∀ v, ¬ r.Reaches path v)

/-- A miss that offers verbs offers one at least. -/
theorem Classified.ne_nil {r : Router α} {path : String} {verbs : List Verb}
    (h : r.Classified path (.methodNotAllowed verbs : Lookup β)) : verbs ≠ [] := by
  rintro rfl
  have hnone : ∀ v, ¬ r.Reaches path v := fun v hv => List.not_mem_nil (((h.1 [] rfl).2 v).2 hv)
  cases h.2.2 hnone

/-! ## Resolving -/

variable {r : Router α} {p : Path} {method : Method}

theorem resolve_standard (r : Router α) (v : Verb) (p : Path) : r.resolve (.standard v) p =
    (r.find v p).or (if r.options.headToGet = true ∧ v = .head then r.find .get p else none) := by
  cases v <;> simp [resolve, Method.verb?]

/-- A method that resolves to nothing: its verb finds nothing, and neither does GET if it stands in. -/
theorem resolve_eq_none (h : r.resolve method p = none) :
    (∀ v, method.verb? = some v → r.find v p = none) ∧
      (r.options.headToGet = true → method.verb? = some .head → r.find .get p = none) := by
  cases method with
  | extension token => exact ⟨nofun, nofun⟩
  | standard v =>
    rw [resolve_standard, Option.or_eq_none_iff] at h
    refine ⟨fun w hw => ?_, fun hget hhead => ?_⟩
    · obtain rfl := Option.some.inj hw
      exact h.1
    · obtain rfl := Option.some.inj hhead
      rw [if_pos ⟨hget, rfl⟩] at h
      exact h.2

theorem isSome_resolve_standard (r : Router α) (v : Verb) (p : Path) : (r.resolve (.standard v) p).isSome = true ↔
    (r.find v p).isSome = true ∨ (r.options.headToGet = true ∧ v = .head ∧ (r.find .get p).isSome = true) := by
  rw [resolve_standard, Option.isSome_or, Bool.or_eq_true]
  split
  · rename_i h
    simp [h]
  · rename_i h
    exact or_congr_right ⟨nofun, fun hn => absurd ⟨hn.1, hn.2.1⟩ h⟩

/-! ## The verbs gathered -/

/-- The verbs other than the requested one whose own routes are found. -/
def reached (r : Router α) (method : Method) (p : Path) : List Verb :=
  Verb.all.filter fun v => method.verb? != some v && (r.find v p).isSome

theorem mem_reached_iff (h : r.resolve method p = none) (v : Verb) :
    v ∈ r.reached method p ↔ (r.find v p).isSome = true := by
  simp only [reached, List.mem_filter, Verb.mem_all, true_and, Bool.and_eq_true, bne_iff_ne, and_iff_right_iff_imp]
  intro hsome hv
  rw [(resolve_eq_none h).1 v hv] at hsome
  cases hsome

theorem allowed_eq (r : Router α) (method : Method) (p : Path) : r.allowed method p =
    if r.options.headToGet = true ∧ method.verb? ≠ some .head ∧ .get ∈ r.reached method p ∧
      .head ∉ r.reached method p then r.reached method p ++ [.head] else r.reached method p := by
  refine ite_congr (propext ?_) (fun _ => rfl) fun _ => rfl
  simp only [reached, Bool.and_eq_true, bne_iff_ne, List.contains_iff_mem, Bool.not_eq_true', and_assoc,
    ← Bool.not_eq_true, ne_eq]

theorem allowed_nodup (r : Router α) (method : Method) (p : Path) : (r.allowed method p).Nodup := by
  have hreached : (r.reached method p).Nodup := Verb.nodup_all.filter _
  rw [allowed_eq]
  split
  · rename_i h
    refine List.nodup_append.2 ⟨hreached, by simp, fun v hv w hw => ?_⟩
    obtain rfl := List.mem_singleton.1 hw
    rintro rfl
    exact h.2.2.2 hv
  · exact hreached

/-- **The verbs gathered for a miss are those that find something.** -/
theorem mem_allowed_iff (h : r.resolve method p = none) (v : Verb) :
    v ∈ r.allowed method p ↔ (r.resolve (.standard v) p).isSome = true := by
  have hget := mem_reached_iff h .get
  have hhead := mem_reached_iff h .head
  rw [allowed_eq, isSome_resolve_standard]
  split
  · -- HEAD is added: GET stands in for it
    rename_i hadd
    rw [List.mem_append, List.mem_singleton, mem_reached_iff h]
    exact or_congr_right ⟨fun hv => ⟨hadd.1, hv, hget.1 hadd.2.2.1⟩, fun hv => hv.2.1⟩
  · -- HEAD is not added: GET does not stand in, or HEAD was asked for, or has its own route
    rename_i hnot
    rw [mem_reached_iff h]
    refine ⟨.inl, fun hv => hv.elim id fun hstand => ?_⟩
    obtain ⟨hopt, rfl, hfound⟩ := hstand
    refine Classical.byContradiction fun hnone => hnot ⟨hopt, fun hverb => ?_, hget.2 hfound, mt hhead.1 hnone⟩
    rw [(resolve_eq_none h).2 hopt hverb] at hfound
    cases hfound

/-! ## Misses -/

theorem reaches_iff (r : Router α) (path : String) (v : Verb) : r.Reaches path v ↔
    (r.resolve (.standard v) (Path.empty.load r.options.cleanPath path)).isSome = true := by
  have hfound := r.lookupInto_found? (.standard v) path {}
  rw [← r.lookup_map (.standard v) path {}] at hfound
  have hpath : ({} : Params).path = Path.empty := rfl
  rw [hpath] at hfound
  rw [← Option.isSome_map (f := Prod.fst), ← hfound]
  unfold Reaches
  cases (r.lookup (.standard v) path).1 with
  | found result => exact ⟨fun _ => rfl, fun _ => ⟨result, rfl⟩⟩
  | methodNotAllowed verbs => exact ⟨nofun, nofun⟩
  | notFound => exact ⟨nofun, nofun⟩

/-- **A lookup tells exactly which verbs reach a path it misses.** -/
theorem classified_lookupInto (r : Router α) (method : Method) (path : String) (params : Params) :
    r.Classified path (r.lookupInto method path params).1 := by
  cases hresolve : r.resolve method (Path.empty.load r.options.cleanPath path) with
  | some found =>
    rw [lookupInto_of_resolve params hresolve]
    refine ⟨nofun, nofun, fun hnone => ?_⟩
    cases method with
    | standard v => exact absurd ((r.reaches_iff path v).2 (by rw [hresolve]; rfl)) (hnone v)
    | extension token => simp [resolve, Method.verb?] at hresolve
  | none =>
    have hmem := fun v => (mem_allowed_iff hresolve v).trans (r.reaches_iff path v).symm
    have hnodup := r.allowed_nodup method (Path.empty.load r.options.cleanPath path)
    rw [lookupInto_of_none params hresolve]
    show r.Classified path (.miss (r.allowed method (Path.empty.load r.options.cleanPath path)))
    cases hallowed : r.allowed method (Path.empty.load r.options.cleanPath path) with
    | nil =>
      rw [hallowed] at hmem
      exact ⟨nofun, fun _ v hv => absurd ((hmem v).2 hv) List.not_mem_nil, fun _ => rfl⟩
    | cons v verbs =>
      rw [hallowed] at hmem hnodup
      refine ⟨fun _ h => ?_, nofun, fun hnone => absurd ((hmem v).1 List.mem_cons_self) (hnone v)⟩
      obtain rfl := Lookup.methodNotAllowed.inj h
      exact ⟨hnodup, hmem⟩

theorem classified_lookup (r : Router α) (method : Method) (path : String) :
    r.Classified path (r.lookup method path).1 := by
  have hclassified := r.classified_lookupInto method path {}
  rw [← r.lookup_map method path {}] at hclassified
  cases hout : (r.lookup method path).1 with
  | found result =>
    rw [hout] at hclassified
    exact ⟨nofun, nofun, fun h => nomatch hclassified.2.2 h⟩
  | methodNotAllowed allowed =>
    rw [hout] at hclassified
    refine ⟨fun verbs h => ?_, nofun, fun h => nomatch hclassified.2.2 h⟩
    obtain rfl := Lookup.methodNotAllowed.inj h
    exact hclassified.1 _ rfl
  | notFound =>
    rw [hout] at hclassified
    exact ⟨nofun, fun _ => hclassified.2.1 rfl, fun _ => rfl⟩

end Router

end Switchyard
