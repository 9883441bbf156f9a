import Switchyard.Proofs.Router.Ledger
import Switchyard.Proofs.Server.Directory

/-!
# Buffers have room

A router counts the most captures that one of its routes can make, and a server keeps two pools of buffers that are
sized for that number. A registration may raise it while there are buffers about that were made before.

- a pattern captures no more than its dynamic tokens (`Pattern.length_captures?`), and what a flight has captured does
  not grow (`kept_room`);
- whatever is done with a server, the number is the largest that a registered route has, and both pools have it for
  their key (`Server.Measured`, `Traffic.Use.measured`);
- so every buffer that is lent is sized for it, and none ever holds more than it is sized for (`Traffic.uses_room`).
-/

namespace Switchyard

open Http (Method Verb)

variable {α : Type}

/-! ## Captures -/

namespace Pattern

theorem length_capturesFrom? {path : Path} {row : List Segment} {i : Nat} {captures : List Capture}
    (h : capturesFrom? path i row = some captures) : captures.length ≤ row.countP Segment.isDynamic := by
  induction row generalizing i captures with
  | nil =>
    obtain rfl := Option.some.inj h
    exact Nat.zero_le _
  | cons s row ih =>
    cases s with
    | literal text =>
      rw [List.countP_cons_of_neg (by simp [Segment.isDynamic, Segment.isLiteral])]
      exact ih h
    | param name =>
      obtain ⟨span, -, h⟩ := Option.bind_eq_some_iff.1 h
      obtain ⟨others, hothers, h⟩ := Option.bind_eq_some_iff.1 h
      obtain rfl := Option.some.inj h
      rw [List.countP_cons_of_pos rfl]
      exact Nat.succ_le_succ (ih hothers)
    | wildcard name =>
      obtain rfl := Option.some.inj h
      rw [List.countP_cons_of_pos rfl]
      exact Nat.succ_le_succ (Nat.zero_le _)

/-- **A pattern captures no more than its dynamic tokens.** -/
theorem length_captures? (p : Pattern) (path : Path) (start : Nat) :
    ((p.captures? path start).getD []).length ≤ p.dynamicCount := by
  cases h : p.captures? path start with
  | none => exact Nat.zero_le _
  | some captures => exact length_capturesFrom? h

end Pattern

namespace Router

/-! ## The largest number of captures -/

/-- The largest number of dynamic tokens that a registered route has, zero if there is no route. -/
def largest (r : Router α) : Nat :=
  (r.routes.map fun route => route.pattern.dynamicCount).max?.getD 0

theorem le_largest {r : Router α} {route : Route α} (h : route ∈ r.routes) : route.pattern.dynamicCount ≤ r.largest :=
  List.le_max?_getD_of_mem (List.mem_map_of_mem h)

/-- What no route exceeds, and some route has unless it is zero, is the largest number. -/
theorem eq_largest {r : Router α} {n : Nat} (hle : ∀ route ∈ r.routes, route.pattern.dynamicCount ≤ n)
    (hmem : n = 0 ∨ ∃ route ∈ r.routes, route.pattern.dynamicCount = n) : n = r.largest := by
  refine Nat.le_antisymm ?_ ?_
  · rcases hmem with rfl | ⟨route, hroute, rfl⟩
    · exact Nat.zero_le _
    · exact le_largest hroute
  · rw [largest]
    cases hmax : (r.routes.map fun route => route.pattern.dynamicCount).max? with
    | none => exact Nat.zero_le _
    | some most =>
      obtain ⟨route, hroute, rfl⟩ := List.mem_map.1 (List.max?_mem hmax)
      exact hle route hroute

/-- The largest number is zero, or some route has it. -/
theorem largest_eq_zero_or (r : Router α) :
    r.largest = 0 ∨ ∃ route ∈ r.routes, route.pattern.dynamicCount = r.largest := by
  rw [largest]
  cases hmax : (r.routes.map fun route => route.pattern.dynamicCount).max? with
  | none => exact .inl rfl
  | some most => exact .inr (List.mem_map.1 (List.max?_mem hmax))

/-- After an insertion the routes are those from before and the one inserted. -/
theorem mem_routes_insert {r : Router α} {group : String} {verb : Verb} {pattern : Pattern} {value : α}
    {route : Route α} : route ∈ (r.insert group verb pattern value).2.routes ↔
      route ∈ r.routes ∨ route = (r.insert group verb pattern value).1 := by
  rw [mem_routes_iff, mem_routes_iff]
  refine ⟨has_insert, ?_⟩
  -- under the stem of the pattern the new route comes last, and every other stem is as it was
  have hverb : (r.insert group verb pattern value).2.table verb =
      (r.table verb).insert ⟨r.added, verb, group, pattern, value⟩ := by rw [table_insert, if_pos rfl]
  rintro (⟨w, stem, routes, hget, hmem⟩ | rfl)
  · by_cases hw : verb = w
    · subst hw
      by_cases hs : (⟨r.added, verb, group, pattern, value⟩ : Route α).hasStem stem = true
      · refine ⟨verb, stem, routes ++ [⟨r.added, verb, group, pattern, value⟩], ?_, List.mem_append_left _ hmem⟩
        rw [hverb, Table.get?_insert, if_pos hs, hget]
        rfl
      · refine ⟨verb, stem, routes, ?_, hmem⟩
        rw [hverb, Table.get?_insert, if_neg hs, hget]
    · refine ⟨w, stem, routes, ?_, hmem⟩
      rw [table_insert, if_neg hw, hget]
  · have hs : (⟨r.added, verb, group, pattern, value⟩ : Route α).hasStem pattern.stem = true := Route.hasStem_iff.2 rfl
    refine ⟨verb, pattern.stem, ((r.table verb).get? pattern.stem).getD [] ++ [⟨r.added, verb, group, pattern, value⟩],
      ?_, List.mem_append_right _ (List.mem_singleton_self _)⟩
    rw [hverb, Table.get?_insert, if_pos hs]

theorem largest_insert (r : Router α) (group : String) (verb : Verb) (pattern : Pattern) (value : α) :
    (r.insert group verb pattern value).2.largest = max r.largest pattern.dynamicCount := by
  refine (eq_largest (fun route hroute => ?_) ?_).symm
  · rcases mem_routes_insert.1 hroute with hold | rfl
    · exact Nat.le_trans (le_largest hold) (Nat.le_max_left _ _)
    · exact Nat.le_max_right _ _
  · rcases Nat.le_total pattern.dynamicCount r.largest with hle | hle
    · rw [Nat.max_eq_left hle]
      exact r.largest_eq_zero_or.imp_right fun ⟨route, hroute, heq⟩ => ⟨route, mem_routes_insert.2 (.inl hroute), heq⟩
    · rw [Nat.max_eq_right hle]
      exact .inr ⟨_, mem_routes_insert.2 (.inr rfl), rfl⟩

/-- What is largest depends on the tables only. -/
theorem largest_congr {r r' : Router α} (h : r'.tables = r.tables) : r'.largest = r.largest := by
  simp only [largest, routes, table, h]

/-! ## Measured routers -/

/-- A router knows the largest number of captures, and its pool is sized for it. -/
structure Measured (r : Router α) : Prop where
  largest : r.maxParams = r.largest
  buffers : r.buffers.key = r.maxParams

namespace Measured

variable {r : Router α}

theorem new (options : RouterOptions) : (Router.new options : Router α).Measured := by
  refine ⟨?_, rfl⟩
  refine eq_largest (fun route hroute => ?_) (.inl rfl)
  obtain ⟨v, stem, routes, hget, -⟩ := mem_routes_iff.1 hroute
  rw [table_new] at hget
  cases hget

/-- A registration raises the number and the key together, or leaves both. -/
theorem insert (h : r.Measured) (group : String) (verb : Verb) (pattern : Pattern) (value : α) :
    (r.insert group verb pattern value).2.Measured where
  largest := by
    rw [largest_insert, ← h.largest]
    rfl
  buffers := by
    show (if r.maxParams < pattern.dynamicCount then _ else _ : Pool Params).key = max r.maxParams pattern.dynamicCount
    split
    · exact Pool.key_setKey _ _
    · rw [h.buffers]
      omega

/-- What leaves the tables, the number and the key as they are keeps a router measured. -/
theorem congr {r' : Router α} (h : r.Measured) (htables : r'.tables = r.tables) (hmost : r'.maxParams = r.maxParams)
    (hkey : r'.buffers.key = r.buffers.key) : r'.Measured :=
  ⟨by rw [largest_congr htables, hmost, h.largest], by rw [hkey, hmost, h.buffers]⟩

theorem lookup (h : r.Measured) (method : Method) (path : String) : (r.lookup method path).2.Measured := by
  obtain ⟨buffers, hbuffers⟩ := r.lookup_snd method path
  have hkey : (r.lookup method path).2.buffers.key = r.buffers.key := by
    rw [lookup_buffers]
    split
    · exact Pool.key_lend? r.buffers
    · rw [Pool.key_put]
      exact Pool.key_lend? r.buffers
  exact h.congr (by rw [hbuffers]) (by rw [hbuffers]) hkey

theorem release (h : r.Measured) (params : Params) : (r.release params).Measured :=
  h.congr rfl rfl (Pool.key_put _ _)

/-- The buffer of a lookup is sized for the number. -/
theorem sizedFor_take (h : r.Measured) : (r.buffers.take Params.withCapacity).1.sizedFor = r.maxParams :=
  (Pool.key_take fun _ => rfl).trans h.buffers

/-- A lookup that finds a route captures no more than the buffer is sized for, if that is the number. -/
theorem length_lookupInto (h : r.Measured) (method : Method) (path : String) {params : Params}
    (hparams : params.sizedFor = r.maxParams) : (r.lookupInto method path params).2.sizedFor = r.maxParams ∧
      (r.lookupInto method path params).2.length ≤ r.maxParams := by
  cases hout : (r.lookupInto method path params).1.found? with
  | none =>
    rw [lookupInto_missed hout]
    exact ⟨hparams, Nat.zero_le _⟩
  | some route =>
    have hfound : r.lookupInto method path params = (.found route, (r.lookupInto method path params).2) :=
      Prod.ext (Lookup.found?_eq_some_iff.1 hout) rfl
    obtain ⟨k, -, hafter⟩ := lookupInto_eq_found hfound
    have hroute := mem_routes_iff.2 (has_of_lookupInto (Lookup.found?_eq_some_iff.1 hout))
    rw [hafter]
    refine ⟨hparams, Nat.le_trans (route.pattern.length_captures? _ k) ?_⟩
    rw [h.largest]
    exact le_largest hroute

end Measured

end Router

/-! ## What a flight has captured -/

/-- A run keeps what the buffer is sized for, and captures nothing. -/
theorem kept_room : Kept fun m m' => m'.context.params.sizedFor = m.context.params.sizedFor ∧
    m'.context.params.length ≤ m.context.params.length where
  refl m := ⟨rfl, Nat.le_refl _⟩
  trans h h' := ⟨h'.1.trans h.1, Nat.le_trans h'.2 h.2⟩
  apply m c := by cases c <;> exact ⟨rfl, Nat.le_refl _⟩
  render m r := by unfold Machine.render; cases r.writeTo.run m.context.draft <;> exact ⟨rfl, Nat.le_refl _⟩
  recycle m := ⟨rfl, Nat.zero_le _⟩
  report m e := ⟨rfl, Nat.le_refl _⟩
  world m w _ := ⟨rfl, Nat.le_refl _⟩
  close m kind := by cases kind <;> exact ⟨rfl, Nat.le_refl _⟩
  start {m kind index entry} _ := by cases kind <;> exact ⟨rfl, Nat.le_refl _⟩

namespace Flight

/-- The buffer of the flight. -/
def params (f : Flight) : Params :=
  f.thread.machine.context.params

/-- The flight holds no more captures than its buffer is sized for. -/
def HasRoom (f : Flight) : Prop :=
  f.params.length ≤ f.params.sizedFor

theorem HasRoom.step {f : Flight} (h : f.HasRoom) {w : World} {u : Thread}
    (hu : (f.thread.inWorld w).step = some u) : HasRoom { f with thread := u } := by
  obtain ⟨hsized, hlength⟩ := Thread.step_kept kept_room (fun _ _ => ⟨rfl, Nat.le_refl _⟩) hu
  refine Nat.le_trans (Nat.le_trans hlength h) ?_
  exact Nat.le_of_eq hsized.symm

end Flight

/-! ## Measured servers -/

namespace Server

variable {s : Server}

/-- Registers a route or, where that is refused, leaves the server as it was. -/
def register (s : Server) (g : Group) (method : Method) (path : String) (handlers : List Program) : Server :=
  match s.addRoute g method path handlers with
  | .ok (_, s) => s
  | .error _ => s

/-- The router is measured, and the pool of contexts has its number for the key. -/
structure Measured (s : Server) : Prop where
  router : s.router.Measured
  contexts : s.contexts.key = s.router.maxParams

namespace Measured

theorem new (options : ServerOptions) (files : FileSystem) : (Server.new options files).Measured :=
  ⟨.new options.router, rfl⟩

/-- **A registration keeps the number and both keys together**, whether it is taken or refused. -/
theorem register (h : s.Measured) (g : Group) (method : Method) (path : String) (handlers : List Program) :
    (s.register g method path handlers).Measured := by
  unfold Server.register
  split
  · rename_i route s' hadd
    obtain ⟨verb, pattern, -, -, hinsert, hs'⟩ := addRoute_insert hadd
    have hrouter : s'.router = (s.router.insert g.name verb pattern ⟨g.list, handlers⟩).2 := (Prod.mk.inj hinsert).2
    refine ⟨?_, ?_⟩
    · rw [hrouter]
      exact h.router.insert g.name verb pattern ⟨g.list, handlers⟩
    · rw [hs']
      exact Pool.key_setKey _ _
  · exact h

theorem release (h : s.Measured) (k : Carrier) : (s.release k).Measured :=
  ⟨h.router, (Pool.key_put _ _).trans h.contexts⟩

theorem acquire (h : s.Measured) : s.acquire.2.Measured :=
  ⟨h.router, (Pool.key_lend? _).trans h.contexts⟩

theorem inWorld (h : s.Measured) (w : World) : Measured { s with world := w } :=
  ⟨h.router, h.contexts⟩

theorem handle (h : s.Measured) (r : Request) : (s.handle r).2.Measured :=
  (h.acquire.inWorld (s.acquire.2.serve s.acquire.1 r).2.world).release _

/-- The context that a request takes is sized for the number. -/
theorem sizedFor_acquire (h : s.Measured) : s.acquire.1.context.params.sizedFor = s.router.maxParams :=
  (Pool.key_take fun _ => rfl).trans h.contexts

/-- It stays so while the route is looked up, and what the request captures has room in it. -/
theorem depart (h : s.Measured) (r : Request) : (s.depart s.acquire.1 r).params.sizedFor = s.router.maxParams ∧
    (s.depart s.acquire.1 r).HasRoom := by
  have hparams : (s.depart s.acquire.1 r).params =
      (s.router.lookupInto r.method r.uri.path s.acquire.1.context.params).2 := s.poise_params s.acquire.1 r
  obtain ⟨hsized, hlength⟩ := h.router.length_lookupInto r.method r.uri.path h.sizedFor_acquire
  rw [Flight.HasRoom, hparams, hsized]
  exact ⟨rfl, hlength⟩

end Measured

end Server

/-! ## Use -/

namespace Traffic

variable {t t' : Traffic}

/-- The traffic with its server changed. -/
def withServer (t : Traffic) (s : Server) : Traffic :=
  { t with server := s }

/-- What may be done with a server: routes are registered or refused, paths are looked up and buffers given back,
requests are served in one go or on their way among others, and anything else is configured. -/
inductive Use : Traffic → Traffic → Prop where
  | register (t : Traffic) (g : Group) (method : Method) (path : String) (handlers : List Program) :
    Use t (t.withServer (t.server.register g method path handlers))
  | lookup (t : Traffic) (method : Method) (path : String) :
    Use t (t.withServer { t.server with router := (t.server.router.lookup method path).2 })
  | release (t : Traffic) (params : Params) :
    Use t (t.withServer { t.server with router := t.server.router.release params })
  | handle (t : Traffic) (r : Request) : Use t (t.withServer (t.server.handle r).2)
  | arrive (t : Traffic) (r : Request) : Use t (t.arrive r)
  | advance {t : Traffic} {n : Nat} {f : Flight} {u : Thread} (hf : t.flights n = some f)
      (hu : (f.thread.inWorld t.server.world).step = some u) : Use t (t.advance n f u)
  | leave {t : Traffic} {n : Nat} {f : Flight} (hf : t.flights n = some f) : Use t (t.leave n f)
  | configure {t : Traffic} {s : Server} (htables : s.router.tables = t.server.router.tables)
      (hmost : s.router.maxParams = t.server.router.maxParams) (hbuffers : s.router.buffers = t.server.router.buffers)
      (hcontexts : s.contexts = t.server.contexts) : Use t (t.withServer s)

abbrev Uses : Traffic → Traffic → Prop :=
  Relation.ReflTransGen Use

/-- The server is measured, and every flight has room. -/
structure Measured (t : Traffic) : Prop where
  server : t.server.Measured
  flights : ∀ n f, t.flights n = some f → f.HasRoom

/-- A flight that has room takes the place of another. -/
theorem Measured.update (h : t.Measured) {s : Server} (hs : s.Measured) (n : Nat) {f? : Option Flight}
    (hf : ∀ f, f? = some f → f.HasRoom) (admitted : Nat) : Measured ⟨s, admitted, Function.update t.flights n f?⟩ := by
  refine ⟨hs, fun m g hg => ?_⟩
  by_cases hm : m = n
  · subst hm
    exact hf g ((Function.update_self m f? t.flights).symm.trans hg)
  · exact h.flights m g ((Function.update_of_ne hm f? t.flights).symm.trans hg)

/-- **Whatever is done keeps a server measured and its flights with room.** -/
theorem Use.measured (h : Use t t') (ht : t.Measured) : t'.Measured := by
  cases h with
  | register g method path handlers => exact ⟨ht.server.register g method path handlers, ht.flights⟩
  | lookup method path =>
    obtain ⟨buffers, hbuffers⟩ := t.server.router.lookup_snd method path
    refine ⟨⟨ht.server.router.lookup method path, ?_⟩, ht.flights⟩
    show t.server.contexts.key = (t.server.router.lookup method path).2.maxParams
    rw [hbuffers, ht.server.contexts]
  | release params => exact ⟨⟨ht.server.router.release params, ht.server.contexts⟩, ht.flights⟩
  | handle r => exact ⟨ht.server.handle r, ht.flights⟩
  | arrive r =>
    refine ht.update ht.server.acquire _ (fun f hf => ?_) _
    obtain rfl := Option.some.inj hf
    exact (ht.server.depart r).2
  | @advance n f u hf hu =>
    refine ht.update (ht.server.inWorld u.machine.world) n (fun g hg => ?_) _
    obtain rfl := Option.some.inj hg
    exact (ht.flights n f hf).step hu
  | @leave n f hf => exact ht.update (ht.server.release _) n (fun g hg => by cases hg) _
  | configure htables hmost hbuffers hcontexts =>
    refine ⟨⟨ht.server.router.congr htables hmost (congrArg Pool.key hbuffers), ?_⟩, ht.flights⟩
    exact (congrArg Pool.key hcontexts).trans (ht.server.contexts.trans hmost.symm)

theorem Uses.measured (h : Uses t t') (ht : t.Measured) : t'.Measured := by
  induction h with
  | refl => exact ht
  | tail _ hs ih => exact hs.measured ih

/-- **Buffers have room.** Whatever was done with a new server,

- the number of its router is the largest that a registered route has, and both pools have it for their key;
- the buffer that a lookup takes is sized for it, and if the lookup finds a route it holds no more than that;
- the context that a request takes is sized for it, served in one go or on its way among others, and no request on its
  way holds more than its context is sized for.
-/
theorem uses_room {options : ServerOptions} {files : FileSystem} (h : Uses { server := .new options files } t) :
    t.server.router.maxParams = t.server.router.largest ∧
    t.server.router.buffers.key = t.server.router.maxParams ∧
    t.server.contexts.key = t.server.router.maxParams ∧
    (t.server.router.buffers.take Params.withCapacity).1.sizedFor = t.server.router.maxParams ∧
    (∀ method path route params, (t.server.router.lookup method path).1 = .found (route, params) →
      params.sizedFor = t.server.router.maxParams ∧ params.length ≤ params.sizedFor) ∧
    t.server.acquire.1.context.params.sizedFor = t.server.router.maxParams ∧
    (∀ r, ∃ f, (t.arrive r).flights t.admitted = some f ∧ f.params.sizedFor = t.server.router.maxParams) ∧
    ∀ n f, t.flights n = some f → f.params.length ≤ f.params.sizedFor := by
  have ht := h.measured ⟨.new options files, fun n f hf => by cases hf⟩
  have hrouter := ht.server.router
  refine ⟨hrouter.largest, hrouter.buffers, ht.server.contexts, hrouter.sizedFor_take, ?_, ht.server.sizedFor_acquire,
    fun r => ?_, ht.flights⟩
  · intro method path route params hfound
    rw [Router.lookup_fst] at hfound
    obtain ⟨hsized, hlength⟩ := hrouter.length_lookupInto method path hrouter.sizedFor_take
    rw [Lookup.eq_of_withBuffer hfound] at hsized hlength
    exact ⟨hsized, by rw [hsized]; exact hlength⟩
  · exact ⟨_, t.arrive_self r, (ht.server.depart r).1⟩

/-- A server that was sized for one capture and has lent a context and a buffer for it. -/
def lent (r : Request) : Traffic :=
  let t := withServer { server := .new {} .empty } (Server.register (.new {} .empty) {} (.standard .get) "/a/:x" [])
  (t.arrive r).withServer
    { (t.arrive r).server with router := ((t.arrive r).server.router.lookup (.standard .get) "/a/2").2 }

/-- The same server with a route for three captures, and with one that was refused. -/
def grown (r : Request) : Traffic :=
  let t := (lent r).withServer ((lent r).server.register { path := "/v1" } (.standard .get) "/b/:x/:y/*z" [])
  t.withServer (t.server.register {} (.standard .get) "/*z/c" [])

theorem uses_grown (r : Request) : Uses { server := .new {} .empty } (grown r) :=
  .head (.register _ _ _ _ _) <| .head (.arrive _ r) <| .head (.lookup _ _ _) <| .head (.register _ _ _ _ _) <|
    .single (.register _ _ _ _ _)

/-- A context and a buffer that come back after the number was raised are not lent again. -/
theorem uses_room_grown : ∃ t, Uses { server := .new {} .empty } t ∧ t.server.contexts.idle.length = 0 ∧
    t.server.router.buffers.idle.length = 0 ∧ t.server.router.largest = 3 ∧ t.server.contexts.key = 3 ∧
    ∃ f, (t.arrive { method := .standard .get, uri := { path := "/v1/b/1/2/3/4" } }).flights t.admitted = some f ∧
      f.params.sizedFor = 3 ∧ f.params.length = 3 := by
  let r : Request := { method := .standard .get, uri := { path := "/a/1" } }
  let t := (grown r).withServer { (grown r).server with router := (grown r).server.router.release (.withCapacity 1) }
  let f := (t.flights 0).get rfl
  have hrun : Uses { server := .new {} .empty } (t.leave 0 f) :=
    ((uses_grown r).tail (.release _ _)).tail (.leave (Option.some_get _).symm)
  obtain ⟨hlargest, -, hcontexts, -, -, -, harrive, -⟩ := uses_room hrun
  have hmost : (t.leave 0 f).server.router.maxParams = 3 := by decide +kernel +zetaReduce
  have hidle : (t.leave 0 f).server.contexts.idle.length = 0 := by decide +kernel +zetaReduce
  have hbuffers : (t.leave 0 f).server.router.buffers.idle.length = 0 := by decide +kernel +zetaReduce
  rw [hmost] at hlargest hcontexts
  obtain ⟨g, hg, hsized⟩ := harrive { method := .standard .get, uri := { path := "/v1/b/1/2/3/4" } }
  refine ⟨_, hrun, hidle, hbuffers, hlargest.symm, hcontexts, g, hg, hsized.trans hmost, ?_⟩
  obtain rfl := Option.some.inj ((arrive_self _ _).symm.trans hg)
  decide +kernel +zetaReduce

end Traffic

end Switchyard
