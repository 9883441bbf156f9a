import Switchyard.Proofs.Assets.Contained
import Switchyard.Proofs.Path.Join
import Switchyard.Proofs.Router.Recorded
import Switchyard.Proofs.Server.Answers

/-!
# Served directories

The route of a directory ends in a wildcard, wherever it is registered (`Server.addDirectory_route`), and what that
captures are the segments of the request path from some place on, joined by slashes, whatever other captures have its
name (`Pattern.bindings?_wildcard`). Nothing but recycling the context takes that away (`Thread.SharedSteps.params`).

So of a request that matches the route it is known what is asked for: one file below the directory or none
(`Server.directory_contained`).
-/

namespace Switchyard

open Http (Method)

/-! ## What the wildcard captures -/

namespace Pattern

/-- The last token, a wildcard, stands for the segments from some place on. -/
theorem bindings?_wildcard {lead : List Segment} (hlead : ∀ s ∈ lead, s.isWildcard = false) {name : String}
    {rest : List String} {bindings : List (String × List String)}
    (h : bindings? (lead ++ [.wildcard name]) rest = some bindings) :
    ∃ front k, bindings = front ++ [(name, rest.drop k)] := by
  induction lead generalizing rest bindings with
  | nil =>
    obtain rfl := Option.some.inj h
    exact ⟨[], 0, rfl⟩
  | cons s lead ih =>
    obtain ⟨hs, htail⟩ := List.forall_mem_cons.1 hlead
    cases s with
    | literal text =>
      obtain ⟨front, k, rfl⟩ := ih htail h
      exact ⟨front, k + 1, by rw [List.drop_tail]⟩
    | param other =>
      cases rest with
      | nil => cases h
      | cons text rest =>
        obtain ⟨bindings', hbindings, rfl⟩ := Option.map_eq_some_iff.1 h
        obtain ⟨front, k, rfl⟩ := ih htail hbindings
        exact ⟨(other, [text]) :: front, k + 1, rfl⟩
    | wildcard other => cases hs

end Pattern

namespace Router

variable {α : Type}

/-- **A wildcard at the end captures the segments from some place on**, joined by slashes. -/
theorem Finds.wildcard {r : Router α} {method : Method} {path : String} {route : Route α} {after : Params}
    (h : r.Finds method path route after) {lead : List Segment} {name : String}
    (hsegments : route.pattern.segments = lead ++ [.wildcard name]) (hlead : ∀ s ∈ lead, s.isWildcard = false) :
    ∃ k, after.get? name = some ("/".intercalate ((Path.segmentsOf r.options.cleanPath path).drop k)) := by
  obtain ⟨start, bindings, hbindings, hpairs⟩ := h.captures
  rw [hsegments] at hbindings
  obtain ⟨front, k, rfl⟩ := Pattern.bindings?_wildcard hlead hbindings
  refine ⟨start + k, ?_⟩
  have hlast : after.pairs = Pattern.joinedPairs front ++ [(name, "/".intercalate
      (((Path.segmentsOf r.options.cleanPath path).drop start).drop k))] := by
    rw [hpairs, Pattern.joinedPairs, List.map_append]
    rfl
  rw [← List.drop_drop]
  exact (Params.get?_eq_some_iff ..).2 ⟨_, [], hlast, by simp⟩

end Router

/-! ## Captures stay -/

theorem Thread.SharedSteps.params {t u : Thread} (h : t.SharedSteps u) :
    .recycled ∈ u.machine.journal ∨ u.machine.context.params = t.machine.context.params :=
  h.lasting ⟨fun _ change => by cases change <;> rfl, fun _ _ => rfl⟩

/-! ## The route of a directory -/

namespace Server

variable {s s' : Server} {g : Group} {route : Route Chain}

theorem addRoute_ok {method : Method} {path : String} {handlers : List Program}
    (h : s.addRoute g method path handlers = .ok (route, s')) :
    Pattern.compile (g.join path) = .ok route.pattern ∧ route.value = ⟨g.list, handlers⟩ := by
  obtain ⟨verb, pattern, -, hpattern, hinsert, -⟩ := addRoute_insert h
  obtain ⟨rfl, -⟩ := Prod.mk.inj hinsert
  exact ⟨hpattern, rfl⟩

/-- **The route of a directory ends in its only wildcard**, on any group and under any path. -/
theorem addDirectory_route {path dir : String} (h : s.addDirectory g path dir = .ok (route, s')) :
    route.value.handlers = [Assets.directory ⟨dir⟩] ∧
      ∃ lead, route.pattern.segments = lead ++ [.wildcard Assets.param] ∧ ∀ x ∈ lead, x.isWildcard = false := by
  obtain ⟨hcompile, hvalue⟩ := addRoute_ok h
  refine ⟨by rw [hvalue], ?_⟩
  obtain ⟨hpattern, hwildcards⟩ := Pattern.compile_eq_ok hcompile
  have hrow : ∃ row, Pattern.row (g.join (directoryPath path)) = row ++ [.wildcard Assets.param] := by
    rw [Pattern.row, Group.join, tokens_joinPath, directoryPath, tokens_joinPath, ← List.append_assoc, List.map_append]
    exact ⟨_, rfl⟩
  obtain ⟨row, hrow⟩ := hrow
  have hsegments : route.pattern.segments = row.dropWhile Segment.isLiteral ++ [.wildcard Assets.param] := by
    rw [hpattern, hrow, List.dropWhile_append]
    split
    · rename_i hempty
      rw [List.isEmpty_iff.1 hempty]
      rfl
    · rfl
  rw [hsegments, List.dropLast_concat] at hwildcards
  exact ⟨_, hsegments, hwildcards⟩

theorem poise_params (s : Server) (k : Carrier) (r : Request) :
    (s.poise k r).context.params = (s.router.lookupInto r.method r.uri.path k.context.params).2 := by
  have hreceive : (s.receive k r).2.context.params =
      (s.router.lookupInto r.method r.uri.path k.context.params).2 := by
    unfold receive
    dsimp only
    split <;> rfl
  rw [← hreceive]
  exact poise_unreported (f := (·.context.params)) (fun _ _ => rfl) s k r

/-! ## A request for a file -/

theorem serving_depart (s : Server) (k : Carrier) (r : Request) (root : FilePath) :
    (s.depart k r).thread.Serving root := by
  refine Thread.serving_of_none fun frame hmem => ?_
  have hguards : frame ∈ s.guards := hmem
  unfold guards at hguards
  split at hguards
  · obtain rfl := List.mem_singleton.1 hguards
    exact id
  · cases hguards

variable {s₁ s₂ : Server} {path dir : String} {k : Carrier} {r : Request} {t u : Thread}

/-- The handler that answers a directory's route is that of the directory, and there is no other. -/
theorem chainFor_directory (hadd : s.addDirectory g path dir = .ok (route, s₁))
    (hfound : (s₂.router.lookupInto r.method r.uri.path {}).1 = .found route) :
    s₂.chainFor r .handlers = [Assets.directory ⟨dir⟩] := by
  unfold chainFor
  rw [hfound]
  exact (addDirectory_route hadd).1

/-- Its middleware is that of its group. -/
theorem chainFor_directory_middleware (hadd : s.addDirectory g path dir = .ok (route, s₁))
    (hfound : (s₂.router.lookupInto r.method r.uri.path {}).1 = .found route) :
    s₂.chainFor r .middleware = s₂.world.list g.list := by
  unfold chainFor
  rw [hfound]
  exact congrArg (s₂.world.list ·.list) (addRoute_ok hadd).2

/-- What is captured are the segments of the request path from some place on. -/
theorem captured_directory (hadd : s.addDirectory g path dir = .ok (route, s₁))
    (hfound : (s₂.router.lookupInto r.method r.uri.path {}).1 = .found route)
    (ht : (s₂.depart k r).thread.SharedSteps t) : .recycled ∈ t.machine.journal ∨ ∃ n, Assets.captured t.machine.context =
      "/".intercalate ((Path.segmentsOf s₂.router.options.cleanPath r.uri.path).drop n) := by
  refine ht.params.imp id fun hparams => ?_
  have hinto : s₂.router.lookupInto r.method r.uri.path k.context.params =
      (.found route, (s₂.router.lookupInto r.method r.uri.path k.context.params).2) := by
    rw [← hfound, s₂.router.lookupInto_fst r.method r.uri.path {} k.context.params]
  obtain ⟨lead, hsegments, hlead⟩ := (addDirectory_route hadd).2
  have hfinds : s₂.router.Finds r.method r.uri.path route _ := .inl ⟨k.context.params, hinto⟩
  obtain ⟨n, hn⟩ := hfinds.wildcard hsegments hlead
  refine ⟨n, ?_⟩
  have hsame : t.machine.context.params = (s₂.router.lookupInto r.method r.uri.path k.context.params).2 :=
    hparams.trans (s₂.poise_params k r)
  rw [Assets.captured, hsame, hn]
  rfl

/-- What a handler that has just started comes to. -/
theorem answers_directory (hentry : u.control = .program (Assets.directory ⟨dir⟩)) {index : Nat}
    {frames : List Frame} (hframes : u.frames = .entry .handlers index :: frames) :
    ∃ v w answer, u.Steps v ∧ v.Ends .handlers index (.respond answer) w ∧
      (Assets.Plain (Assets.captured u.machine.context) → v.machine.journal.filesRead =
        u.machine.journal.filesRead ++ [(FilePath.mk dir).below (Assets.parts (Assets.captured u.machine.context))]) ∧
      (¬ Assets.Plain (Assets.captured u.machine.context) →
        answer = .status .notFound ∧ v.machine = u.machine ∧ w.machine.context.draft.written = some .notFound) := by
  obtain ⟨control, framesOf, m⟩ := u
  obtain rfl : control = .program (Assets.directory ⟨dir⟩) := hentry
  obtain rfl : framesOf = .entry .handlers index :: frames := hframes
  obtain ⟨m', hsteps, -, hresolved, hrefused⟩ :=
    Assets.steps_answer ⟨dir⟩ (.entry .handlers index :: frames) m
  generalize hanswer : Assets.answer ⟨dir⟩ m.world.files (Assets.captured m.context) = answer at hsteps
  refine ⟨_, ⟨.idle, frames, m'.conclude .handlers index (.respond answer)⟩, answer, hsteps, ⟨rfl, rfl, rfl⟩, ?_, ?_⟩
  · exact fun hplain => hresolved _ (Assets.resolve?_eq_some_iff.2 ⟨hplain, rfl⟩)
  · intro hplain
    rw [Assets.answer_of_not_plain hplain] at hanswer
    obtain rfl := hanswer
    obtain rfl := hrefused (Assets.resolve?_eq_none_iff.2 hplain)
    refine ⟨rfl, rfl, ?_⟩
    show (Machine.conclude m' .handlers index (.respond (.status .notFound))).context.draft.written = _
    rw [Machine.draft_respond]
    rfl

/-- **A directory is not left.** While a request is served that has matched the route of a directory,

- the handler of the directory is the only one that starts;
- it asks for one file if the captured path has only plain names for its parts, the file that these lead to from the
  directory; for any other captured path it asks for none and answers that nothing was found;
- at no moment while it is at work is any other file asked for;
- the captured path is what is left of the segments of the request path, unless the context was recycled. -/
theorem directory_contained (hadd : s.addDirectory g path dir = .ok (route, s₁))
    (hfound : (s₂.router.lookupInto r.method r.uri.path {}).1 = .found route)
    (ht : (s₂.depart k r).thread.SharedSteps t) :
    (∀ index entry u, t.Starts .handlers index entry u → index = 0 ∧ ∃ v w answer, u.Steps v ∧
      v.Ends .handlers index (.respond answer) w ∧
      (Assets.Plain (Assets.captured u.machine.context) → v.machine.journal.filesRead =
        u.machine.journal.filesRead ++ [(FilePath.mk dir).below (Assets.parts (Assets.captured u.machine.context))]) ∧
      (¬ Assets.Plain (Assets.captured u.machine.context) →
        answer = .status .notFound ∧ v.machine = u.machine ∧ w.machine.context.draft.written = some .notFound)) ∧
    (∀ index u, (.handlers, index) ∈ t.underway → t.step = some u →
      (u.machine.journal.filesRead = t.machine.journal.filesRead ∨
        (Assets.Plain (Assets.captured t.machine.context) ∧ u.machine.journal.filesRead =
          t.machine.journal.filesRead ++ [(FilePath.mk dir).below (Assets.parts (Assets.captured t.machine.context))])) ∧
      ∀ flow, t.Ends .handlers index flow u → ¬ Assets.Plain (Assets.captured t.machine.context) →
        flow = .respond (.status .notFound)) ∧
    (.recycled ∈ t.machine.journal ∨ ∃ n, Assets.captured t.machine.context =
      "/".intercalate ((Path.segmentsOf s₂.router.options.cleanPath r.uri.path).drop n)) := by
  have hchain := chainFor_directory hadd hfound
  refine ⟨fun index entry u hstart => ?_, fun index u hunder hstep => ?_, captured_directory hadd hfound ht⟩
  · obtain ⟨-, hentry, -⟩ := (ht.inOrder (s₂.poise_inOrder k r)).next_entry hstart.next
    rw [hchain] at hentry
    obtain ⟨hlt, hget⟩ := List.getElem?_eq_some_iff.1 hentry
    obtain rfl : index = 0 := Nat.lt_one_iff.1 hlt
    obtain rfl : Assets.directory ⟨dir⟩ = entry := hget
    exact ⟨rfl, answers_directory (by rw [hstart.result]) (by rw [hstart.result])⟩
  · have hserving : t.Serving ⟨dir⟩ := by
      refine ht.serving (s₂.serving_depart k r _) fun p hp => ?_
      have hlane : p ∈ ((s₂.poise k r).lane .handlers).entries := hp
      rw [poise_lane_eq, hchain] at hlane
      exact List.mem_singleton.1 hlane
    exact hserving.asks hunder hstep

/-- A server of one directory, below a parameter that has the name of its wildcard. -/
def archive : Server :=
  match (Server.new {} .empty).addDirectory { path := "/u/:fp" } "/files/" "data" with
  | .ok (_, s) => s
  | .error _ => Server.new {} .empty

/-- A request for something below that directory. -/
def archiveRequest (rest : String) : Request :=
  { method := .standard .get, uri := { path := "/u/1/files/" ++ rest } }

/-- Escaped slashes lead to a file below the directory; with dots beside them they lead nowhere. -/
theorem directory_contained_archive :
    (∃ u v, (archive.depart {} (archiveRequest "css%2Fsite.css")).thread.Steps u ∧
      u.underway = [(.handlers, 0)] ∧ u.Steps v ∧ v.machine.journal.filesRead = [⟨"data/css/site.css"⟩]) ∧
    ∃ u v w, (archive.depart {} (archiveRequest "css%2F..%5Ckey")).thread.Steps u ∧
      u.underway = [(.handlers, 0)] ∧ u.Steps v ∧ v.Ends .handlers 0 (.respond (.status .notFound)) w ∧
      v.machine = u.machine ∧ w.machine.context.draft.written = some .notFound := by
  have hadd : (Server.new {} .empty).addDirectory { path := "/u/:fp" } "/files/" "data" = .ok (_, archive) := rfl
  constructor
  · have ht : (archive.depart {} (archiveRequest "css%2Fsite.css")).thread.Steps _ :=
      .head rfl <| .head rfl <| .head rfl .refl
    obtain ⟨hstarts, -, -⟩ := directory_contained hadd rfl ht.shared
    obtain ⟨-, v, w, answer, hv, -, hplain, -⟩ := hstarts 0 _ _ ⟨rfl, rfl, rfl, rfl⟩
    exact ⟨_, v, ht.tail rfl, rfl, hv, hplain (by decide +kernel)⟩
  · have ht : (archive.depart {} (archiveRequest "css%2F..%5Ckey")).thread.Steps _ :=
      .head rfl <| .head rfl <| .head rfl .refl
    obtain ⟨hstarts, -, -⟩ := directory_contained hadd rfl ht.shared
    obtain ⟨-, v, w, answer, hv, hends, -, hrefused⟩ := hstarts 0 _ _ ⟨rfl, rfl, rfl, rfl⟩
    obtain ⟨rfl, hsame, hstatus⟩ := hrefused (by decide +kernel)
    exact ⟨_, v, w, ht.tail rfl, rfl, hv, hends, hsame, hstatus⟩

end Server

end Switchyard
