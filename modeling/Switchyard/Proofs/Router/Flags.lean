import Switchyard.Proofs.Router.OwnPath

/-!
# What flags do

The winner for a path is chosen by the tables alone; its flag only decides whether it is found. So switching routes off
and on takes routes out of sight and back, and puts none in the place of another, except for HEAD where GET may stand
in: then the winners of the two stand behind one another.

- `Ledger.resolve_withFlags`: under other flags a request resolves to the same route, to none, or goes over between
  HEAD and GET (`Ledger.Swaps`);
- `Agrees.disableRoute_of_winner`, `disableRoute_of_none`: a path switches its winner under any flags, and no more than
  that (`Router.Sets`);
- `Agrees.switched_often`: switching one winner often changes its flag only, so that switching it on restores every
  lookup (`Router.Alike`);
- `hides_only`: all of it, for every router, any flags and all requests.
-/

namespace Switchyard

open Http (Method Verb)

variable {α : Type}

/-- The router with these routes switched off and no others. -/
def Router.withFlags (r : Router α) (disabled : List Nat) : Router α :=
  { r with disabled }

/-- The ledger with these routes switched off and no others. -/
def Ledger.withFlags (l : Ledger α) (disabled : List Nat) : Ledger α :=
  { l with off := disabled.contains }

theorem Agrees.withFlags {s : Session α} {l : Ledger α} (h : Agrees s l) (disabled : List Nat) :
    Agrees { s with router := s.router.withFlags disabled } (l.withFlags disabled) :=
  ⟨h.options, h.handles, h.added, h.number, fun _ => rfl, h.tables⟩

/-! ## Found, or hidden -/

namespace Ledger

variable {l : Ledger α} {method : Method} {path : String} {off : List Nat}

/-- For HEAD there may be two winners, its own and that of GET, one of which is found in the place of the other. -/
def Swaps (l : Ledger α) (method : Method) (path : String) (route other : Route α) : Prop :=
  method = .standard .head ∧ l.options.headToGet = true ∧ ∃ head get, l.winner .head path = some head ∧
    l.winner .get path = some get ∧ (route = head.1 ∧ other = get.1 ∨ route = get.1 ∧ other = head.1)

/-- **Under other flags a request resolves to the same winner or to none**, or goes over between HEAD and GET. -/
theorem resolve_withFlags (off' : List Nat) {found : Route α × Nat}
    (h : (l.withFlags off).resolve method path = some found) :
    (l.withFlags off').resolve method path = some found ∨ (l.withFlags off').resolve method path = none ∨
      ∃ other, (l.withFlags off').resolve method path = some other ∧ l.Swaps method path found.1 other.1 := by
  cases hother : (l.withFlags off').resolve method path with
  | none => exact .inr (.inl rfl)
  | some other =>
    -- each of the two has won for the verb that was asked for, or for GET standing in
    rcases winner_of_resolve h with ⟨v, rfl, hwon⟩ | ⟨rfl, hopt, hwon⟩
    · rcases winner_of_resolve hother with ⟨w, hw, hwon'⟩ | ⟨hhead, hopt, hwon'⟩
      · obtain rfl := Method.standard.inj hw
        exact .inl (hwon'.symm.trans hwon)
      · obtain rfl := Method.standard.inj hhead
        exact .inr (.inr ⟨other, rfl, rfl, hopt, found, other, hwon, hwon', .inl ⟨rfl, rfl⟩⟩)
    · rcases winner_of_resolve hother with ⟨w, hw, hwon'⟩ | ⟨-, -, hwon'⟩
      · obtain rfl := Method.standard.inj hw
        exact .inr (.inr ⟨other, rfl, rfl, hopt, other, found, hwon', hwon, .inr ⟨rfl, rfl⟩⟩)
      · exact .inl (hwon'.symm.trans hwon)

end Ledger

/-- Of two outcomes, the second has the route that the first found, with the same captures, or none; or it has one that
may be found in its place. -/
def Lookup.Keeps (swaps : Route α → Route α → Prop) (x y : Lookup (Route α × Params)) : Prop :=
  ∀ route after, x = .found (route, after) → y = .found (route, after) ∨ y.found? = none ∨
    ∃ other after', y = .found (other, after') ∧ swaps route other

theorem Lookup.found?_withBuffer (x : Lookup α × Params) : (withBuffer x).found?.map Prod.fst = x.1.found? := by
  obtain ⟨outcome, params⟩ := x
  cases outcome <;> rfl

namespace Agrees

variable {s : Session α} {l : Ledger α}

/-- With any buffer, a lookup under other flags finds the same, nothing, or the other one of HEAD and GET. -/
theorem keeps_lookupInto (h : Agrees s l) (off off' : List Nat) (method : Method) (path : String) (params : Params) :
    Lookup.Keeps (l.Swaps method path)
      (Lookup.withBuffer ((s.router.withFlags off).lookupInto method path params))
      (Lookup.withBuffer ((s.router.withFlags off').lookupInto method path params)) := by
  intro route after hfound
  obtain ⟨k, hresolve, hafter⟩ := Router.lookupInto_eq_found (Lookup.eq_of_withBuffer hfound)
  have hledger := (h.withFlags off).resolve_eq method params.path path
  have hledger' := (h.withFlags off').resolve_eq method params.path path
  have hwinner := hledger.symm.trans hresolve
  rcases Ledger.resolve_withFlags off' hwinner with hsame | hnone | ⟨other, hother, hswaps⟩
  · left
    rw [Router.lookupInto_of_resolve params (hledger'.trans hsame), hafter]
    rfl
  · right; left
    have hfound' := (s.router.withFlags off').lookupInto_found? method path params
    rw [hledger'.trans hnone, ← Lookup.found?_withBuffer] at hfound'
    exact Option.map_eq_none_iff.1 hfound'
  · right; right
    rw [Router.lookupInto_of_resolve params (hledger'.trans hother)]
    exact ⟨other.1, _, rfl, hswaps⟩

theorem keeps_lookup (h : Agrees s l) (off off' : List Nat) (method : Method) (path : String) :
    Lookup.Keeps (l.Swaps method path) ((s.router.withFlags off).lookup method path).1
      ((s.router.withFlags off').lookup method path).1 := by
  rw [Router.lookup_fst, Router.lookup_fst]
  exact h.keeps_lookupInto off off' method path _

end Agrees

/-! ## What a path switches -/

/-- The flag of a route is set, no other flag changes, and nothing else does. -/
structure Router.Sets (r : Router α) (route : Route α) (off : Bool) (r' : Router α) : Prop where
  frame : ∃ disabled, r' = r.withFlags disabled
  flag : r'.isEnabled route = !off
  others : ∀ other ∈ r.routes, other ≠ route → r'.isEnabled other = r.isEnabled other

/-- Two routers come to the same with every request. -/
def Router.Alike (r r' : Router α) : Prop :=
  ∀ method path, (∀ params, r.lookupInto method path params = r'.lookupInto method path params) ∧
    (r.lookup method path).1 = (r'.lookup method path).1

/-- Switches the winners of some requests off or on, one after another. -/
def Router.disableRoutes (r : Router α) (switches : List (Method × String × Bool)) : Router α :=
  switches.foldl (fun r (method, path, off) => (r.disableRoute method path off).2) r

namespace Router

variable {off off' : List Nat}

/-- Flags that are the same for every number make lookups come out the same. -/
theorem alike_of_contains (r : Router α) (h : ∀ n, off.contains n = off'.contains n) :
    (r.withFlags off).Alike (r.withFlags off') := by
  have henabled : (r.withFlags off).isEnabled = (r.withFlags off').isEnabled :=
    funext fun route => congrArg (!·) (h route.number)
  have hfind : (r.withFlags off).find = (r.withFlags off').find := by
    funext v path
    rw [find, find, henabled]
    rfl
  have hresolve : (r.withFlags off).resolve = (r.withFlags off').resolve := by
    funext method path
    rw [resolve, resolve, hfind]
    rfl
  have hallowed : (r.withFlags off).allowed = (r.withFlags off').allowed := by
    funext method path
    rw [allowed, allowed, hfind]
    rfl
  have hinto : (r.withFlags off).lookupInto = (r.withFlags off').lookupInto := by
    funext method path params
    rw [lookupInto, lookupInto, hresolve, hallowed]
    rfl
  refine fun method path => ⟨fun params => congrFun (congrFun (congrFun hinto method) path) params, ?_⟩
  rw [lookup_fst, lookup_fst, hinto]
  rfl

/-- A switch keeps the flags of all other numbers. -/
theorem withFlags_setDisabled (r : Router α) (off : List Nat) (route : Route α) (flag : Bool) :
    ∃ off', (r.withFlags off).setDisabled route flag = r.withFlags off' ∧
      ∀ n, off'.contains n = if n = route.number then flag else off.contains n :=
  ⟨_, rfl, contains_setDisabled (r.withFlags off) route flag⟩

end Router

namespace Agrees

variable {s : Session α} {l : Ledger α} {method : Method} {path : String} {route : Route α}

/-- Under any flags a path switches its winner. -/
theorem disableRoute_of_winner (h : Agrees s l)
    (hwinner : (method.verb?.bind (l.winner · path)).map Prod.fst = some route) (off : List Nat) (flag : Bool) :
    (s.router.withFlags off).disableRoute method path flag =
      (true, (s.router.withFlags off).setDisabled route flag) := by
  have hswitch := (h.withFlags off).disableRoute_eq method path flag
  obtain ⟨found, hfound, rfl⟩ := Option.map_eq_some_iff.1 hwinner
  have hfound' : method.verb?.bind ((l.withFlags off).winner · path) = some found := hfound
  rwa [hfound'] at hswitch

theorem disableRoute_of_none (h : Agrees s l) (hnone : method.verb?.bind (l.winner · path) = none) (off : List Nat)
    (flag : Bool) : (s.router.withFlags off).disableRoute method path flag = (false, s.router.withFlags off) := by
  have hswitch := (h.withFlags off).disableRoute_eq method path flag
  have hnone' : method.verb?.bind ((l.withFlags off).winner · path) = none := hnone
  rwa [hnone'] at hswitch

theorem mem_of_winner (hwinner : (method.verb?.bind (l.winner · path)).map Prod.fst = some route) :
    route ∈ l.routes := by
  obtain ⟨found, hfound, rfl⟩ := Option.map_eq_some_iff.1 hwinner
  obtain ⟨v, -, hv⟩ := Option.bind_eq_some_iff.1 hfound
  exact (List.mem_filter.1 (Router.scan_eq_some hv).1).1

/-- Setting the flag of a route that the router has sets no other: no two of them have the same number. -/
theorem sets_setDisabled (h : Agrees s l) (hroute : route ∈ l.routes) (off : List Nat) (flag : Bool) :
    (s.router.withFlags off).Sets route flag ((s.router.withFlags off).setDisabled route flag) where
  frame := ⟨_, rfl⟩
  flag := by rw [Router.isEnabled_setDisabled, if_pos rfl]
  others other hother hne := by
    rw [Router.isEnabled_setDisabled, if_neg]
    intro hnumber
    exact hne (Ledger.Numbered.inj h.number ((h.withFlags off).mem_routes_iff.1 hother) hroute hnumber)

/-- However often a winner is switched, by whatever paths, no other flag changes. -/
theorem switched_often (h : Agrees s l) {switches : List (Method × String × Bool)}
    (hwinner : ∀ x ∈ switches, (x.1.verb?.bind (l.winner · x.2.1)).map Prod.fst = some route) (off : List Nat) :
    ∃ off', (s.router.withFlags off).disableRoutes switches = s.router.withFlags off' ∧
      ∀ n ≠ route.number, off'.contains n = off.contains n := by
  induction switches generalizing off with
  | nil => exact ⟨off, rfl, fun _ _ => rfl⟩
  | cons x switches ih =>
    obtain ⟨method, path, flag⟩ := x
    obtain ⟨off₁, hrouter, hoff₁⟩ := s.router.withFlags_setDisabled off route flag
    obtain ⟨off₂, hrest, hoff₂⟩ := ih (fun x hx => hwinner x (List.mem_cons_of_mem _ hx)) off₁
    have hstep := h.disableRoute_of_winner (hwinner _ List.mem_cons_self) off flag
    refine ⟨off₂, ?_, fun n hn => by rw [hoff₂ n hn, hoff₁, if_neg hn]⟩
    rw [Router.disableRoutes, List.foldl_cons]
    dsimp only
    rw [hstep, hrouter]
    exact hrest

/-- **A winner that was on and is switched on again leaves every lookup as it was**, however it was switched between. -/
theorem alike_switched_on (h : Agrees s l) {switches : List (Method × String × Bool)}
    (hswitches : ∀ x ∈ switches, (x.1.verb?.bind (l.winner · x.2.1)).map Prod.fst = some route)
    (hwinner : (method.verb?.bind (l.winner · path)).map Prod.fst = some route) {off : List Nat}
    (henabled : (s.router.withFlags off).isEnabled route = true) :
    (((s.router.withFlags off).disableRoutes switches).disableRoute method path false).2.Alike
      (s.router.withFlags off) := by
  obtain ⟨off₁, hrouter, hoff₁⟩ := h.switched_often hswitches off
  obtain ⟨off₂, hlast, hoff₂⟩ := s.router.withFlags_setDisabled off₁ route false
  rw [hrouter, h.disableRoute_of_winner hwinner, hlast]
  -- the flag of the winner is set to what it was, and no other was touched
  refine s.router.alike_of_contains fun n => ?_
  rw [hoff₂]
  split
  · rename_i hn
    rw [hn]
    exact (Bool.not_eq_true' _ ▸ henabled).symm
  · rename_i hn
    exact hoff₁ n hn

end Agrees

/-! ## All of it -/

/-- Flags hide the winners of a ledger and reroute nothing. -/
structure Router.HidesOnly (r : Router α) (l : Ledger α) : Prop where
  /-- A route that is found under some flags is found under others, with the same captures, or none is; for HEAD its
  winner and that of GET may be found in the place of one another. -/
  lookupInto : ∀ off off' method path params, Lookup.Keeps (l.Swaps method path)
    (Lookup.withBuffer ((r.withFlags off).lookupInto method path params))
    (Lookup.withBuffer ((r.withFlags off').lookupInto method path params))
  lookup : ∀ off off' method path, Lookup.Keeps (l.Swaps method path) ((r.withFlags off).lookup method path).1
    ((r.withFlags off').lookup method path).1
  /-- A path switches its winner, whatever the flags are, and nothing else. -/
  switched : ∀ off method path flag route, (method.verb?.bind (l.winner · path)).map Prod.fst = some route →
    ((r.withFlags off).disableRoute method path flag).1 = true ∧
      (r.withFlags off).Sets route flag ((r.withFlags off).disableRoute method path flag).2
  unswitched : ∀ off method path flag, method.verb?.bind (l.winner · path) = none →
    (r.withFlags off).disableRoute method path flag = (false, r.withFlags off)
  /-- A winner that was on, is switched by any paths it wins and is switched on at last leaves everything as it was. -/
  restored : ∀ off route (switches : List (Method × String × Bool)) method path,
    (r.withFlags off).isEnabled route = true →
    (∀ x ∈ switches, (x.1.verb?.bind (l.winner · x.2.1)).map Prod.fst = some route) →
    (method.verb?.bind (l.winner · path)).map Prod.fst = some route →
    (((r.withFlags off).disableRoutes switches).disableRoute method path false).2.Alike (r.withFlags off)

/-- **Flags hide but never reroute**, in a router after any calls and whatever its flags are then. -/
theorem hides_only (options : RouterOptions) (calls : List (Call α)) :
    (Session.run options calls).router.HidesOnly (Ledger.run options calls) := by
  have h := agrees_run options calls
  refine ⟨h.keeps_lookupInto, h.keeps_lookup, fun off method path flag route hwinner => ?_,
    fun off method path flag hnone => h.disableRoute_of_none hnone off flag,
    fun off route switches method path henabled hswitches hwinner => h.alike_switched_on hswitches hwinner henabled⟩
  rw [h.disableRoute_of_winner hwinner off flag]
  exact ⟨rfl, h.sets_setDisabled (Agrees.mem_of_winner hwinner) off flag⟩

/-- HEAD goes over to the route of GET when its own is switched off, and comes back when it is switched on. -/
theorem hides_only_head : ∃ (r : Router Unit) (l : Ledger Unit), r.HidesOnly l ∧
    ((r.withFlags []).lookup (.standard .head) "/a").1.found?.map (·.1.number) = some 1 ∧
    ((r.withFlags [1]).lookup (.standard .head) "/a").1.found?.map (·.1.number) = some 0 ∧
    ((r.withFlags [0, 1]).lookup (.standard .head) "/a").1.found?.map (·.1.number) = none ∧
    ((r.withFlags [1]).disableRoute (.standard .head) "/a" true).1 = true ∧
    (((r.withFlags []).disableRoute (.standard .head) "/a" true).2.disableRoute (.standard .head) "//a?b" false).2.Alike
      (r.withFlags []) := by
  have h := hides_only {} [.add "" (.standard .get) "/a" (), .add "" (.standard .head) "/a" ()]
  refine ⟨_, _, h, by rfl, by rfl, by rfl, (h.switched [1] (.standard .head) "/a" true _ rfl).1, ?_⟩
  refine h.restored [] _ [(.standard .head, "/a", true)] (.standard .head) "//a?b" rfl (fun x hx => ?_) rfl
  obtain rfl := List.mem_singleton.1 hx
  rfl

end Switchyard
