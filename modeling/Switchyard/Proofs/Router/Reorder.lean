import Mathlib.Data.List.Nodup
import Mathlib.Data.List.Perm.Basic
import Mathlib.Data.Option.Basic
import Switchyard.Proofs.Router.Fit

/-!
# The order of registrations

Registrations may be made in another order, as long as those that keep their routes in one place, under one stem of
one verb, stay in theirs (`Reordered`). The routes get other numbers, and nothing else changes.

- after some registrations, a ledger has in each place the routes registered there, in their order (`under_run`), and a
  router has the largest number of captures and a pool of empty buffers for it (`Router.Sized`);
- ledgers are twins if in each place they have the same routes up to their numbers, with the same flags
  (`Ledger.Twins`). Twins find routes at the same place (`Ledger.Twins.winner`), and stay twins when these are switched
  (`Ledger.Twins.setFlag`);
- routers whose ledgers are twins give the same answer to a question, and their ledgers are twins after it
  (`Router.Matched.ask`), so that they give the same answers to all questions one after the other
  (`Router.Matched.answers`, `answers_of_reordered`).
-/

namespace Switchyard

open Http (Method Verb)

variable {α : Type}

/-! ## Registrations -/

/-- A route without its number. -/
def Route.face (route : Route α) : Route α :=
  { route with number := 0 }

/-- What a registration asks for. -/
structure Registration (α : Type) where
  group : String
  method : Method
  pattern : String
  value : α
  deriving DecidableEq

namespace Registration

/-- The route of a registration, none if it is refused. -/
def route? (number : Nat) (c : Registration α) : Option (Route α) :=
  match c.method.verb?, Pattern.compile c.pattern with
  | some verb, .ok pattern => some ⟨number, verb, c.group, pattern, c.value⟩
  | _, _ => none

/-- The verb and the stem under which the route is kept. -/
def place? (c : Registration α) : Option (Verb × String) :=
  (c.route? 0).map fun route => (route.verb, route.pattern.stem)

/-- The number of captures of the route. -/
def captures (c : Registration α) : Nat :=
  ((c.route? 0).map fun route => route.pattern.dynamicCount).getD 0

def call (c : Registration α) : Call α :=
  .add c.group c.method c.pattern c.value

theorem route?_eq (c : Registration α) (number : Nat) :
    c.route? number = (c.route? 0).map fun route => { route with number } := by
  unfold route?
  split <;> rfl

theorem face_of_route? {c : Registration α} {route : Route α} (h : c.route? 0 = some route) (number : Nat) :
    { route with number }.face = route := by
  have hnumber := c.route?_eq 0
  rw [h] at hnumber
  exact (Option.some.inj hnumber).symm

end Registration

/-- The same registrations, with those of one place in the same order. -/
def Reordered (as bs : List (Registration α)) : Prop :=
  as.Perm bs ∧ ∀ c ∈ as, as.filter (·.place? = c.place?) = bs.filter (·.place? = c.place?)

instance [DecidableEq α] (as bs : List (Registration α)) : Decidable (Reordered as bs) :=
  inferInstanceAs (Decidable (as.Perm bs ∧ ∀ c ∈ as, as.filter (·.place? = c.place?) = bs.filter (·.place? = c.place?)))

/-- In each place there are the same registrations in the same order, also where there are none. -/
theorem Reordered.filter_eq {as bs : List (Registration α)} (h : Reordered as bs) (place : Option (Verb × String)) :
    as.filter (·.place? = place) = bs.filter (·.place? = place) := by
  by_cases hsome : ∃ c ∈ as, c.place? = place
  · obtain ⟨c, hc, rfl⟩ := hsome
    exact h.2 c hc
  · have hnone : ∀ cs : List (Registration α), (∀ c ∈ cs, c ∈ as) → cs.filter (·.place? = place) = [] := by
      intro cs hcs
      refine List.filter_eq_nil_iff.2 fun c hc hplace => hsome ⟨c, hcs c hc, ?_⟩
      exact of_decide_eq_true hplace
    rw [hnone as fun _ hc => hc, hnone bs fun c hc => h.1.mem_iff.2 hc]

namespace Router

/-- Registers one after the other, up to the first that is refused. -/
def addAll (r : Router α) : List (Registration α) → Except RouteError (Router α)
  | [] => .ok r
  | c :: cs =>
    match r.add c.group c.method c.pattern c.value with
    | .ok (_, r) => r.addAll cs
    | .error e => .error e

/-- A registration is refused if it makes no route. -/
theorem add_eq_insert (r : Router α) (c : Registration α) {route : Route α} (h : c.route? 0 = some route) :
    r.add c.group c.method c.pattern c.value = .ok (r.insert route.group route.verb route.pattern route.value) := by
  unfold Registration.route? at h
  split at h
  · rename_i verb pattern hverb hpattern
    obtain rfl := Option.some.inj h
    rw [add_eq, hverb, hpattern]
    rfl
  · cases h

theorem route?_of_add {r : Router α} {c : Registration α} {added : Route α × Router α}
    (h : r.add c.group c.method c.pattern c.value = .ok added) : ∃ route, c.route? 0 = some route := by
  rw [add_eq] at h
  unfold Registration.route?
  cases hverb : c.method.verb? with
  | none =>
    rw [hverb] at h
    cases h
  | some verb =>
    rw [hverb] at h
    cases hpattern : Pattern.compile c.pattern with
    | error e =>
      rw [hpattern] at h
      cases h
    | ok pattern => exact ⟨_, rfl⟩

theorem route?_of_addAll {r r' : Router α} {cs : List (Registration α)} (h : r.addAll cs = .ok r') :
    ∀ c ∈ cs, ∃ route, c.route? 0 = some route := by
  induction cs generalizing r with
  | nil => exact fun c hc => absurd hc List.not_mem_nil
  | cons c cs ih =>
    unfold addAll at h
    split at h
    · rename_i route next hadd
      intro d hd
      rcases List.mem_cons.1 hd with rfl | hd
      · exact route?_of_add hadd
      · exact ih h d hd
    · cases h

/-- Registrations that make routes are all taken, as in a session. -/
theorem addAll_eq (s : Session α) {cs : List (Registration α)} (h : ∀ c ∈ cs, ∃ route, c.route? 0 = some route) :
    s.router.addAll cs = .ok ((cs.map Registration.call).foldl Session.call s).router := by
  induction cs generalizing s with
  | nil => rfl
  | cons c cs ih =>
    obtain ⟨route, hroute⟩ := h c List.mem_cons_self
    have hadd := add_eq_insert s.router c hroute
    have hcall : s.call c.call = ⟨(s.router.insert route.group route.verb route.pattern route.value).2,
        s.handles ++ [(s.router.insert route.group route.verb route.pattern route.value).1]⟩ := by
      rw [Registration.call, Session.call, hadd]
    rw [addAll, hadd, List.map_cons, List.foldl_cons, hcall]
    exact ih ⟨_, _⟩ fun d hd => h d (List.mem_cons_of_mem c hd)

/-! ## The number of captures -/

/-- The pool has no buffer yet, and is to lend some for the largest number of captures. -/
def Sized (r : Router α) (captures : Nat) : Prop :=
  r.maxParams = captures ∧ r.buffers = { key := captures }

theorem Sized.insert {r : Router α} {captures : Nat} (h : r.Sized captures) (group : String) (verb : Verb)
    (pattern : Pattern) (value : α) :
    (r.insert group verb pattern value).2.Sized (max captures pattern.dynamicCount) := by
  obtain ⟨hmax, hbuffers⟩ := h
  refine ⟨congrArg (max · pattern.dynamicCount) hmax, ?_⟩
  show (if r.maxParams < pattern.dynamicCount then r.buffers.setKey (max r.maxParams pattern.dynamicCount)
    else r.buffers) = _
  rw [hmax, hbuffers]
  split
  · rename_i hlt
    rw [Nat.max_eq_right (Nat.le_of_lt hlt), Pool.setKey, if_neg (Nat.ne_of_gt hlt)]
  · rename_i hle
    rw [Nat.max_eq_left (Nat.le_of_not_lt hle)]

theorem Sized.addAll {r r' : Router α} {captures : Nat} (h : r.Sized captures) {cs : List (Registration α)}
    (hadd : r.addAll cs = .ok r') : r'.Sized (cs.foldl (fun most c => max most c.captures) captures) := by
  induction cs generalizing r captures with
  | nil =>
    obtain rfl := Except.ok.inj hadd
    exact h
  | cons c cs ih =>
    obtain ⟨route, hroute⟩ := route?_of_addAll hadd c List.mem_cons_self
    have hcaptures : c.captures = route.pattern.dynamicCount := by
      rw [Registration.captures, hroute]
      rfl
    rw [Router.addAll, add_eq_insert r c hroute] at hadd
    rw [List.foldl_cons, hcaptures]
    exact ih (h.insert _ _ _ _) hadd

end Router

/-! ## The routes in a place -/

namespace Ledger

/-- The routes of a verb with a stem. -/
def under (l : Ledger α) (v : Verb) (stem : String) : List (Route α) :=
  (l.routesOf v).filter (Route.hasStem stem)

theorem call_registration (l : Ledger α) (c : Registration α) :
    l.call c.call = { l with routes := l.routes ++ (c.route? l.routes.length).toList } := by
  rw [Registration.call, call, Registration.route?]
  cases c.method.verb? with
  | none => exact congrArg (fun routes => { l with routes }) (List.append_nil l.routes).symm
  | some verb =>
    cases Pattern.compile c.pattern with
    | error e => exact congrArg (fun routes => { l with routes }) (List.append_nil l.routes).symm
    | ok pattern => rfl

theorem run_concat (options : RouterOptions) (calls : List (Call α)) (c : Call α) :
    run options (calls ++ [c]) = (run options calls).call c := by
  rw [run, List.foldl_append]
  rfl

/-- After some registrations there are in each place the routes registered there. -/
theorem under_run (options : RouterOptions) (cs : List (Registration α)) (v : Verb) (stem : String) :
    ((run options (cs.map Registration.call)).under v stem).map Route.face =
      (cs.filter (·.place? = some (v, stem))).filterMap (Registration.route? 0) := by
  induction cs using List.reverseRecOn with
  | nil => rfl
  | append_singleton cs c ih =>
    rw [List.map_append, List.map_singleton, run_concat, call_registration, under, routesOf, List.filter_append,
      List.filter_append, List.map_append, List.filter_append, List.filterMap_append]
    refine congrArg₂ (· ++ ·) ih ?_
    rw [c.route?_eq]
    cases hroute : c.route? 0 with
    | none => simp [Registration.place?, hroute]
    | some route =>
      have hplace : (c.place? = some (v, stem)) ↔ route.verb = v ∧ route.pattern.stem = stem := by
        rw [Registration.place?, hroute, Option.map_some, Option.some_inj, Prod.mk.injEq]
      by_cases hhere : route.verb = v ∧ route.pattern.stem = stem
      · obtain ⟨rfl, rfl⟩ := hhere
        simp [hplace, hroute, Route.hasStem, Registration.face_of_route? hroute]
      · simpa [hplace, hhere, Route.hasStem] using fun hs hv => hhere ⟨hv, hs⟩

/-- Registrations switch nothing off. -/
theorem off_run (options : RouterOptions) (cs : List (Registration α)) :
    (run options (cs.map Registration.call)).off = fun _ => false := by
  induction cs using List.reverseRecOn with
  | nil => rfl
  | append_singleton cs c ih =>
    rw [List.map_append, List.map_singleton, run_concat, call_registration]
    exact ih

/-! ## Twins -/

/-- The routes are numbered in their order. -/
def Numbered (l : Ledger α) : Prop :=
  ∀ {n : Nat} {route : Route α}, l.routes[n]? = some route → route.number = n

namespace Numbered

variable {l : Ledger α}

theorem nodup (h : l.Numbered) : l.routes.Nodup := by
  have hnumbers : l.routes.map Route.number = List.range l.routes.length := by
    refine List.ext_getElem? fun n => ?_
    rw [List.getElem?_map]
    cases hroute : l.routes[n]? with
    | none => exact (List.getElem?_eq_none (by simpa using hroute)).symm
    | some route =>
      obtain ⟨hn, -⟩ := List.getElem?_eq_some_iff.1 hroute
      rw [Option.map_some, h hroute, List.getElem?_range hn]
  refine List.Nodup.of_map Route.number ?_
  rw [hnumbers]
  exact List.nodup_range

theorem inj (h : l.Numbered) {a b : Route α} (ha : a ∈ l.routes) (hb : b ∈ l.routes) (hab : a.number = b.number) :
    a = b := by
  obtain ⟨i, hi⟩ := List.mem_iff_getElem?.1 ha
  obtain ⟨j, hj⟩ := List.mem_iff_getElem?.1 hb
  rw [h hi, h hj] at hab
  rw [hab, hj] at hi
  exact (Option.some.inj hi).symm

end Numbered

/-- Two routes stand in the same place of their ledgers. -/
def Paired (l l' : Ledger α) (a a' : Route α) : Prop :=
  ∃ (v : Verb) (stem : String) (i : Nat), (l.under v stem)[i]? = some a ∧ (l'.under v stem)[i]? = some a'

namespace Paired

variable {l l' : Ledger α} {a a' b b' : Route α}

theorem symm (h : Paired l l' a a') : Paired l' l a' a := by
  obtain ⟨v, stem, i, ha, ha'⟩ := h
  exact ⟨v, stem, i, ha', ha⟩

theorem mem_under {v : Verb} {stem : String} (h : a ∈ l.under v stem) :
    a ∈ l.routes ∧ a.verb = v ∧ a.pattern.stem = stem := by
  obtain ⟨h, hstem⟩ := List.mem_filter.1 h
  obtain ⟨h, hverb⟩ := List.mem_filter.1 h
  exact ⟨h, beq_iff_eq.1 hverb, Route.hasStem_iff.1 hstem⟩

/-- A route stands in one place only. -/
theorem eq_of_number (hl : l.Numbered) (ha : Paired l l' a a') (hb : Paired l l' b b') (hab : a.number = b.number) :
    a' = b' := by
  obtain ⟨v, stem, i, hi, hi'⟩ := ha
  obtain ⟨w, front, j, hj, hj'⟩ := hb
  obtain ⟨hmem, rfl, rfl⟩ := mem_under (List.mem_of_getElem? hi)
  obtain ⟨hmem', hverb, hstem⟩ := mem_under (List.mem_of_getElem? hj)
  obtain rfl := hl.inj hmem hmem' hab
  rw [← hverb, ← hstem] at hj hj'
  have hnodup : (l.under a.verb a.pattern.stem).Nodup := (hl.nodup.filter _).filter _
  obtain ⟨hlt, -⟩ := List.getElem?_eq_some_iff.1 hi
  obtain rfl := (List.getElem?_inj hlt hnodup).1 (hi.trans hj.symm)
  exact Option.some.inj (hi'.symm.trans hj')

theorem number_iff (hl : l.Numbered) (hl' : l'.Numbered) (ha : Paired l l' a a') (hb : Paired l l' b b') :
    a.number = b.number ↔ a'.number = b'.number :=
  ⟨fun h => congrArg Route.number (eq_of_number hl ha hb h),
    fun h => congrArg Route.number (eq_of_number hl' ha.symm hb.symm h)⟩

end Paired

/-- Two ledgers have the same routes in each place up to their numbers, with the same flags. -/
structure Twins (l l' : Ledger α) : Prop where
  options : l.options = l'.options
  numbered : l.Numbered
  numbered' : l'.Numbered
  faces : ∀ v stem, (l.under v stem).map Route.face = (l'.under v stem).map Route.face
  flags : ∀ {a a'}, Paired l l' a a' → l.off a.number = l'.off a'.number

/-- Two results of a scan: a route in the same place, with a stem of the same length, or none. -/
def Alike (l l' : Ledger α) : Option (Route α × Nat) → Option (Route α × Nat) → Prop :=
  Option.Rel fun found found' => Paired l l' found.1 found'.1 ∧ found.2 = found'.2

namespace Twins

variable {l l' : Ledger α}

theorem face_eq (h : Twins l l') {a a' : Route α} (ha : Paired l l' a a') : a.face = a'.face := by
  obtain ⟨v, stem, i, hi, hi'⟩ := ha
  have hface := congrArg (·[i]?) (h.faces v stem)
  simp only [List.getElem?_map, hi, hi', Option.map_some, Option.some_inj] at hface
  exact hface

theorem pattern_eq (h : Twins l l') {a a' : Route α} (ha : Paired l l' a a') : a.pattern = a'.pattern := by
  have hpattern := congrArg Route.pattern (h.face_eq ha)
  exact hpattern

/-- Where routes are first tried in the same places, the first to pass stand in the same place. -/
theorem find?_under (h : Twins l l') (v : Verb) (stem : String) (p : Pattern → Bool) :
    Option.Rel (Paired l l') ((l.under v stem).find? (p ·.pattern)) ((l'.under v stem).find? (p ·.pattern)) := by
  have hfaces := h.faces v stem
  have hall : ∀ (xs ys : List (Route α)), xs.map Route.face = ys.map Route.face →
      (∀ (i : Nat) x y, xs[i]? = some x → ys[i]? = some y → Paired l l' x y) →
      Option.Rel (Paired l l') (xs.find? (p ·.pattern)) (ys.find? (p ·.pattern)) := by
    intro xs
    induction xs with
    | nil =>
      intro ys hmap _
      obtain rfl := List.map_eq_nil_iff.1 hmap.symm
      exact .none
    | cons x xs ih =>
      intro ys hmap hpaired
      obtain ⟨y, ys, rfl, hy, hys⟩ := List.map_eq_cons_iff.1 hmap.symm
      have hxy := hpaired 0 x y rfl rfl
      rw [List.find?_cons, List.find?_cons, ← h.pattern_eq hxy]
      cases p x.pattern with
      | true => exact .some hxy
      | false => exact ih ys hys.symm fun i a b ha hb => hpaired (i + 1) a b ha hb
  exact hall _ _ hfaces fun i x y hx hy => ⟨v, stem, i, hx, hy⟩

theorem any_hasStem (h : Twins l l') (v : Verb) (stem : String) :
    (l.routesOf v).any (Route.hasStem stem) = (l'.routesOf v).any (Route.hasStem stem) := by
  have hany : ∀ routes : List (Route α),
      routes.any (Route.hasStem stem) = !(routes.filter (Route.hasStem stem)).isEmpty := by
    intro routes
    rw [Bool.eq_iff_iff]
    simp
  have hempty : (l.under v stem).isEmpty = (l'.under v stem).isEmpty := by
    rw [← List.isEmpty_map (f := Route.face), h.faces v stem, List.isEmpty_map]
  rw [hany, hany]
  exact congrArg (!·) hempty

/-- **Twins have their winners in the same places.** -/
theorem winner (h : Twins l l') (v : Verb) (path : String) : Alike l l' (l.winner v path) (l'.winner v path) := by
  have hreach : ∀ segments, Router.reach? (l.routesOf v) segments = Router.reach? (l'.routesOf v) segments := by
    intro segments
    simp only [Router.reach?, h.any_hasStem v]
  rw [Ledger.winner, Ledger.winner, ← h.options]
  generalize Path.segmentsOf l.options.cleanPath path = segments
  show Alike l l' (Option.bind (Router.reach? _ segments) _) (Option.bind (Router.reach? _ segments) _)
  rw [hreach]
  cases Router.reach? (l'.routesOf v) segments with
  | none => exact .none
  | some k =>
    have hfind : ∀ routes : List (Route α),
        (routes.filter (Route.hasStem (Path.textOf (segments.take k)))).find? (·.pattern.admits (segments.drop k)) =
          routes.find? fun route =>
            route.hasStem (Path.textOf (segments.take k)) && route.pattern.admits (segments.drop k) := by
      intro routes
      rw [List.find?_filter]
      simp
    have hfirst := h.find?_under v (Path.textOf (segments.take k)) (·.admits (segments.drop k))
    rw [under, under, hfind, hfind] at hfirst
    show Alike l l' (Option.bind (List.find? _ _) _) (Option.bind (List.find? _ _) _)
    generalize (l.routesOf v).find? _ = found, (l'.routesOf v).find? _ = found' at hfirst
    cases hfirst with
    | none => exact .none
    | some hpaired => exact .some ⟨hpaired, rfl⟩

theorem find (h : Twins l l') (v : Verb) (path : String) : Alike l l' (l.find v path) (l'.find v path) := by
  have hwinner := h.winner v path
  rw [Ledger.find, Ledger.find]
  generalize l.winner v path = found, l'.winner v path = found' at hwinner ⊢
  cases hwinner with
  | none => exact .none
  | @some winner winner' hfound =>
    show Alike l l' (if (!l.off winner.1.number) = true then some winner else none)
      (if (!l'.off winner'.1.number) = true then some winner' else none)
    rw [h.flags hfound.1]
    split
    · exact .some hfound
    · exact .none

theorem isSome_find (h : Twins l l') (v : Verb) (path : String) :
    (l.find v path).isSome = (l'.find v path).isSome := by
  have hfind := h.find v path
  generalize l.find v path = found, l'.find v path = found' at hfind ⊢
  cases hfind <;> rfl

theorem resolve (h : Twins l l') (method : Method) (path : String) :
    Alike l l' (l.resolve method path) (l'.resolve method path) := by
  have hverb : Alike l l' (method.verb?.bind (l.find · path)) (method.verb?.bind (l'.find · path)) := by
    cases method.verb? with
    | none => exact .none
    | some v => exact h.find v path
  rw [Ledger.resolve, Ledger.resolve, ← h.options]
  generalize method.verb?.bind (l.find · path) = found, method.verb?.bind (l'.find · path) = found' at hverb ⊢
  cases hverb with
  | some hfound => exact .some hfound
  | none =>
    split
    · exact h.find .get path
    · exact .none

/-- Switching routes that stand in the same place leaves twins. -/
theorem setFlag (h : Twins l l') {a a' : Route α} (ha : Paired l l' a a') (off : Bool) :
    Twins (l.setFlag a.number off) (l'.setFlag a'.number off) where
  options := h.options
  numbered := h.numbered
  numbered' := h.numbered'
  faces := h.faces
  flags {b b'} hb := by
    have hiff := Paired.number_iff h.numbered h.numbered' hb ha
    have hflags := h.flags hb
    show (if b.number = a.number then off else l.off b.number) =
      (if b'.number = a'.number then off else l'.off b'.number)
    simp only [hiff, hflags]

end Twins

/-- Reordered registrations make twins. -/
theorem twins_run (options : RouterOptions) {as bs : List (Registration α)} (h : Reordered as bs) :
    Twins (run options (as.map Registration.call)) (run options (bs.map Registration.call)) where
  options := (run_compiled options _).1.trans (run_compiled options _).1.symm
  numbered := (agrees_run options _).number
  numbered' := (agrees_run options _).number
  faces v stem := by
    rw [under_run, under_run, h.filter_eq]
  flags _ := by
    rw [off_run, off_run]

end Ledger

/-! ## Questions to a router -/

namespace Router

/-- What a router may be asked once its routes are registered. -/
inductive Question where
  | lookup (method : Method) (path : String)
  | lookupInto (method : Method) (path : String) (params : Params)
  | disableRoute (method : Method) (path : String) (off : Bool)
  | release (params : Params)

/-- What can be seen of the answer: routes without their numbers, and buffers. -/
inductive Answer (α : Type) where
  | looked (outcome : Lookup (Route α)) (params : Params)
  | lent (outcome : Lookup (Route α × Params))
  | switched (known : Bool)
  | released

def ask (r : Router α) : Question → Answer α × Router α
  | .lookup method path =>
    (.lent ((r.lookup method path).1.map fun found => (found.1.face, found.2)), (r.lookup method path).2)
  | .lookupInto method path params =>
    (.looked ((r.lookupInto method path params).1.map Route.face) (r.lookupInto method path params).2, r)
  | .disableRoute method path off => (.switched (r.disableRoute method path off).1, (r.disableRoute method path off).2)
  | .release params => (.released, r.release params)

/-- The answers to some questions, one after the other. -/
def answers (r : Router α) : List Question → List (Answer α)
  | [] => []
  | q :: qs => (r.ask q).1 :: (r.ask q).2.answers qs

/-- Two routers that agree with ledgers that are twins, and have the same buffers. -/
structure Matched (r r' : Router α) (l l' : Ledger α) : Prop where
  left : Agrees ⟨r, l.routes⟩ l
  right : Agrees ⟨r', l'.routes⟩ l'
  twins : l.Twins l'
  buffers : r.buffers = r'.buffers

namespace Matched

variable {r r' : Router α} {l l' : Ledger α}

theorem options (h : Matched r r' l l') : r.options = r'.options :=
  (h.left.options.trans h.twins.options).trans h.right.options.symm

/-- The verbs gathered for a miss hang on what is found for each verb, and on nothing else. -/
theorem allowed_eq (h : Matched r r' l l') (method : Method) (p : Path) (path : String) :
    r.allowed method (p.load r.options.cleanPath path) = r'.allowed method (p.load r.options.cleanPath path) := by
  have hsome : ∀ v, (r.find v (p.load r.options.cleanPath path)).isSome =
      (r'.find v (p.load r.options.cleanPath path)).isSome := by
    intro v
    have hleft := h.left.find_eq v p path
    have hright := h.right.find_eq v p path
    rw [← h.options] at hright
    rw [hleft, hright, h.twins.isSome_find]
  simp only [Router.allowed, hsome, ← h.options]

/-- Routes in the same place are found with the same captures, and misses are alike. -/
theorem lookupInto_eq (h : Matched r r' l l') (method : Method) (path : String) (params : Params) :
    (r.lookupInto method path params).1.map Route.face = (r'.lookupInto method path params).1.map Route.face ∧
      (r.lookupInto method path params).2 = (r'.lookupInto method path params).2 := by
  have hpath : (params.loadPath r.options.cleanPath path).path = params.path.load r.options.cleanPath path := rfl
  have hresolve := h.twins.resolve method path
  have hleft := h.left.resolve_eq method params.path path
  have hright := h.right.resolve_eq method params.path path
  rw [← h.options] at hright
  dsimp only at hleft hright
  rw [Router.lookupInto, Router.lookupInto, ← h.options, hpath, hleft, hright, ← h.allowed_eq]
  generalize l.resolve method path = found, l'.resolve method path = found' at hresolve
  cases hresolve with
  | @some winner winner' hfound =>
    obtain ⟨hpaired, hlength⟩ := hfound
    refine ⟨congrArg Lookup.found (h.twins.face_eq hpaired), ?_⟩
    dsimp only
    rw [h.twins.pattern_eq hpaired, hlength]
  | none =>
    dsimp only
    split <;> exact ⟨rfl, rfl⟩

theorem lookup_eq (h : Matched r r' l l') (method : Method) (path : String) :
    ((r.lookup method path).1.map fun found => (found.1.face, found.2)) =
      (r'.lookup method path).1.map fun found => (found.1.face, found.2) := by
  have hinto := h.lookupInto_eq method path (r.buffers.take Params.withCapacity).1
  have hswap : ∀ result : Lookup (Route α) × Params,
      (Lookup.withBuffer result).map (fun found => (found.1.face, found.2)) =
        Lookup.withBuffer (result.1.map Route.face, result.2) := by
    rintro ⟨outcome, after⟩
    cases outcome <;> rfl
  rw [lookup_fst, lookup_fst, hswap, hswap, ← h.buffers, hinto.1, hinto.2]

/-- A lookup leaves the same buffers in both. -/
theorem lookup (h : Matched r r' l l') (method : Method) (path : String) :
    Matched (r.lookup method path).2 (r'.lookup method path).2 l l' := by
  have hbuffers : (r.lookup method path).2.buffers = (r'.lookup method path).2.buffers := by
    have hfound : ∀ outcome : Lookup (Route α), outcome.found?.isSome = (outcome.map Route.face).found?.isSome := by
      intro outcome
      cases outcome <;> rfl
    have hinto := h.lookupInto_eq method path (r.buffers.take Params.withCapacity).1
    rw [lookup_buffers, lookup_buffers, ← h.buffers, hfound, hinto.1, ← hfound, hinto.2]
  obtain ⟨b, hb⟩ := r.lookup_snd method path
  obtain ⟨b', hb'⟩ := r'.lookup_snd method path
  rw [hb, hb'] at hbuffers ⊢
  exact ⟨h.left.buffers b, h.right.buffers b', h.twins, hbuffers⟩

/-- **Matched routers give the same answer, and are matched after it.** -/
theorem ask (h : Matched r r' l l') (q : Question) :
    (r.ask q).1 = (r'.ask q).1 ∧ ∃ m m', Matched (r.ask q).2 (r'.ask q).2 m m' := by
  cases q with
  | lookup method path => exact ⟨congrArg Answer.lent (h.lookup_eq method path), l, l', h.lookup method path⟩
  | lookupInto method path params =>
    obtain ⟨houtcome, hparams⟩ := h.lookupInto_eq method path params
    exact ⟨congrArg₂ Answer.looked houtcome hparams, l, l', h⟩
  | disableRoute method path off =>
    have hleft := h.left.disableRoute_eq method path off
    have hright := h.right.disableRoute_eq method path off
    dsimp only at hleft hright
    rw [Router.ask, Router.ask, hleft, hright]
    have hwinner : l.Alike l' (method.verb?.bind (l.winner · path)) (method.verb?.bind (l'.winner · path)) := by
      cases method.verb? with
      | none => exact .none
      | some v => exact h.twins.winner v path
    generalize method.verb?.bind (l.winner · path) = found, method.verb?.bind (l'.winner · path) = found' at hwinner
    cases hwinner with
    | none => exact ⟨rfl, l, l', h⟩
    | @some winner winner' hfound =>
      exact ⟨rfl, _, _, h.left.setFlag winner.1 off, h.right.setFlag winner'.1 off, h.twins.setFlag hfound.1 off,
        h.buffers⟩
  | release params =>
    exact ⟨rfl, l, l', h.left.buffers _, h.right.buffers _, h.twins, congrArg (Pool.put params) h.buffers⟩

/-- Matched routers give the same answers to all questions. -/
theorem answers (h : Matched r r' l l') (qs : List Question) : r.answers qs = r'.answers qs := by
  induction qs generalizing r r' l l' with
  | nil => rfl
  | cons q qs ih =>
    obtain ⟨hanswer, m, m', hnext⟩ := h.ask q
    rw [Router.answers, Router.answers, hanswer, ih hnext]

end Matched

end Router

/-! ## Two orders of registrations -/

/-- **The order of registrations matters only within one stem of one verb.** If registrations are all taken, then so
are they in any other order that keeps the order of those with the same verb and the same stem. The two routers have
the same largest number of captures, and give the same answers to the same questions: the same routes but for their
numbers, the same captures, the same verbs in the same order, and the same routes known to be switched. -/
theorem answers_of_reordered (options : RouterOptions) {as bs : List (Registration α)} (h : Reordered as bs)
    {r : Router α} (hr : (Router.new options).addAll as = .ok r) :
    ∃ r', (Router.new options).addAll bs = .ok r' ∧ r'.maxParams = r.maxParams ∧
      ∀ qs, r'.answers qs = r.answers qs := by
  have has := Router.route?_of_addAll hr
  have hbs : ∀ c ∈ bs, ∃ route, c.route? 0 = some route := fun c hc => has c (h.1.mem_iff.2 hc)
  have hleft := Router.addAll_eq { router := .new options } has
  have hright := Router.addAll_eq { router := .new options } hbs
  obtain rfl := Except.ok.inj (hr.symm.trans hleft)
  have hnew : (Router.new options : Router α).Sized 0 := ⟨rfl, rfl⟩
  obtain ⟨hmax, hbuffers⟩ := hnew.addAll hleft
  obtain ⟨hmax', hbuffers'⟩ := hnew.addAll hright
  have hmost : as.foldl (fun most c => max most c.captures) 0 = bs.foldl (fun most c => max most c.captures) 0 :=
    h.1.foldl_eq' (fun c _ d _ most => Nat.max_right_comm most c.captures d.captures) 0
  refine ⟨_, hright, hmax'.trans (hmost.symm.trans hmax.symm), fun qs => ?_⟩
  have hagrees := agrees_run options (as.map Registration.call)
  have hagrees' := agrees_run options (bs.map Registration.call)
  have hmatched : Router.Matched (Session.run options (as.map Registration.call)).router
      (Session.run options (bs.map Registration.call)).router (Ledger.run options (as.map Registration.call))
      (Ledger.run options (bs.map Registration.call)) := by
    refine ⟨?_, ?_, Ledger.twins_run options h, hbuffers.trans (hmost ▸ hbuffers'.symm)⟩
    · rw [← hagrees.handles]
      exact hagrees
    · rw [← hagrees'.handles]
      exact hagrees'
  exact (hmatched.answers qs).symm

/-- Routes of three places, two of them in one place. -/
def oneOrder : List (Registration Nat) :=
  [⟨"", .standard .get, "/a/:x", 1⟩, ⟨"", .standard .get, "/a/*y", 2⟩, ⟨"", .standard .get, "/b", 3⟩,
    ⟨"", .standard .post, "/a/:z/c", 4⟩]

/-- The same routes; the two of one place keep their order. -/
def otherOrder : List (Registration Nat) :=
  [⟨"", .standard .post, "/a/:z/c", 4⟩, ⟨"", .standard .get, "/b", 3⟩, ⟨"", .standard .get, "/a/:x", 1⟩,
    ⟨"", .standard .get, "/a/*y", 2⟩]

theorem answers_of_reordered_places : ∃ r r', (Router.new {}).addAll oneOrder = .ok r ∧
    (Router.new {}).addAll otherOrder = .ok r' ∧ r.maxParams = 1 ∧ r'.maxParams = 1 ∧
    ∀ path, r'.answers [.disableRoute (.standard .get) "/a/1" true, .lookup (.standard .get) path] =
      r.answers [.disableRoute (.standard .get) "/a/1" true, .lookup (.standard .get) path] := by
  have hreordered : Reordered oneOrder otherOrder := by decide +kernel
  obtain ⟨r', hadd, hmax, hanswers⟩ := answers_of_reordered {} hreordered rfl
  exact ⟨_, r', rfl, hadd, rfl, hmax, fun path => hanswers _⟩

end Switchyard
