import Switchyard.Proofs.Router.Reverse
import Switchyard.Proofs.Server.Directory

/-!
# Names below a directory

Every name that may stand below a directory can be asked for. The names are escaped one by one and written behind the
literal tokens of the directory's route, with slashes between them (`Path.written`).

- what the wildcard captures of such a path are the names, joined by slashes, and the parts of that are the names again
  (`Assets.parts_intercalate`), so that it resolves to the place they lead to from the root of the directory
  (`Assets.resolve?_intercalate`);
- so a request for such a path makes the handler of the directory ask for this place and for nothing else
  (`Server.names_addressed`).
-/

namespace Switchyard

open Http (Verb)

/-! ## Names joined and taken apart -/

namespace Assets

variable {names : List String}

/-- The parts of plain names that were joined are the names. -/
theorem parts_intercalate (h : ∀ name ∈ names, PlainName name) : parts ("/".intercalate names) = names := by
  have hfree : ∀ c ∈ ("/".intercalate names).toList, (if c = '\\' then '/' else c) = c := by
    intro c hc
    refine if_neg ?_
    rintro rfl
    rw [String.toList_intercalate] at hc
    rcases Text.mem_of_mem_intercalate hc with hslash | ⟨piece, hpiece, hc⟩
    · exact absurd hslash (by decide)
    · obtain ⟨name, hname, rfl⟩ := List.mem_map.1 hpiece
      exact (h name hname).backslash hc
  have hjoined : Text.pieces '/' ("/".intercalate names).toList = Text.pieces '/' (Path.joined names) := by
    cases names with
    | nil => rfl
    | cons name rest => rw [Path.toList_intercalate_cons, Path.joined_cons, Text.pieces_cons_sep]
  rw [parts, List.map_congr_left hfree, List.map_id', hjoined,
    Path.pieces_joined fun name hname => ⟨(h name hname).nonempty, (h name hname).slash⟩, List.map_map]
  exact (List.map_congr_left fun name _ => String.ofList_toList).trans (List.map_id' names)

/-- Plain names lead from the root of a directory to the place below it that has them. -/
theorem resolve?_intercalate (root : FilePath) (h : ∀ name ∈ names, PlainName name) :
    resolve? root ("/".intercalate names) = some (root.below names) := by
  have hparts := parts_intercalate h
  refine resolve?_eq_some_iff.2 ⟨fun name hname => h name (hparts ▸ hname), ?_⟩
  rw [hparts]

end Assets

/-! ## Paths made of names -/

/-- The tokens of a route of literals and a wildcard, with these names for the wildcard. -/
def Filled.tail (lead : List String) (wildcard : String) (names : List String) : List Filled :=
  lead.map Filled.literal ++ [.wildcard wildcard names]

namespace Filled

variable {lead names : List String} {wildcard : String}

theorem token_tail (lead : List String) (wildcard : String) (names : List String) :
    (tail lead wildcard names).map token = lead.map Segment.literal ++ [.wildcard wildcard] := by
  rw [tail, List.map_append, List.map_map]
  rfl

theorem parts_tail (lead : List String) (wildcard : String) (names : List String) :
    (tail lead wildcard names).flatMap parts = lead ++ names := by
  rw [tail, List.flatMap_append, List.flatMap_map, List.flatMap_singleton]
  exact congrArg (· ++ names) (List.flatMap_singleton' lead)

theorem pair?_tail (lead : List String) (wildcard : String) (names : List String) :
    (tail lead wildcard names).filterMap pair? = [(wildcard, "/".intercalate names)] := by
  rw [tail, List.filterMap_append, List.filterMap_map]
  exact congrArg (· ++ _) (List.filterMap_eq_nil_iff.2 fun _ _ => rfl)

end Filled

/-- A new router that has taken one route holds it and no other. -/
theorem Router.sole_insert {α : Type} {options : RouterOptions} {group : String} {verb : Verb} {p : Pattern} {value : α}
    {route : Route α} {r : Router α} (h : (route, r) = (Router.new options).insert group verb p value) :
    route.pattern = p ∧ (r.table verb).Holds [route] ∧ r.isEnabled route = true := by
  obtain rfl : route = ((new options).insert group verb p value).1 := congrArg Prod.fst h
  obtain rfl : r = ((new options).insert group verb p value).2 := congrArg Prod.snd h
  refine ⟨rfl, ?_, rfl⟩
  rw [table_insert, if_pos rfl, table_new]
  exact Table.holds_empty.insert _

/-- A router that holds one enabled route, of literals and a wildcard, finds it for every path that is made of its
literals and of plain names, and the wildcard captures the names. -/
theorem Router.captures_written {α : Type} {r : Router α} {verb : Verb} {route : Route α} {raw wildcard : String}
    {lead names : List String} {keep : Char → Bool} (hkeep : Path.Keeps keep) (hholds : (r.table verb).Holds [route])
    (henabled : r.isEnabled route = true) (hcompile : Pattern.compile raw = .ok route.pattern)
    (hrow : Pattern.row raw = lead.map Segment.literal ++ [.wildcard wildcard])
    (hlead : ∀ text ∈ lead, text ≠ "." ∧ text ≠ "..") (hnames : ∀ name ∈ names, Assets.PlainName name)
    (params : Params) : ∃ after,
      r.lookupInto (.standard verb) ("/" ++ Path.written keep (lead ++ names)) params = (.found route, after) ∧
      after.get? wildcard = some ("/".intercalate names) := by
  have hplain : ∀ part ∈ lead ++ names, Path.Plain part := by
    intro part hpart
    rcases List.mem_append.1 hpart with htext | hname
    · have hmem : .literal part ∈ Pattern.row raw :=
        hrow ▸ List.mem_append_left _ (List.mem_map_of_mem htext)
      exact ⟨(Pattern.row_literal hmem rfl).2.1, hlead part htext⟩
    · exact ⟨(hnames part hname).nonempty, (hnames part hname).notDot, (hnames part hname).notDotDot⟩
  have hsegments : Path.segmentsOf r.options.cleanPath ("/" ++ Path.written keep (lead ++ names)) =
      (Filled.tail lead wildcard names).flatMap Filled.parts := by
    rw [Path.segmentsOf_slash, Path.segmentsOf_written hkeep _ hplain, Filled.parts_tail]
  obtain ⟨hfinds, -⟩ := Router.finds_written hholds henabled hcompile
    ((Filled.token_tail lead wildcard names).trans hrow.symm) hsegments
  obtain ⟨after, hfound, hpairs⟩ := hfinds params
  refine ⟨after, hfound, ?_⟩
  rw [Params.get?_eq_some_iff, hpairs, Filled.pair?_tail]
  exact ⟨[], [], rfl, fun _ hpair => absurd hpair List.not_mem_nil⟩

namespace Server

variable {s s₁ s₂ : Server} {g : Group} {route : Route Chain} {path dir : String} {lead names : List String}
  {r : Request} {keep : Char → Bool}

/-- A path that is made for the route of a directory finds it, and the wildcard captures the names. -/
theorem captures_names (hkeep : Path.Keeps keep) {options : RouterOptions} (hnew : s.router = .new options)
    (hadd : s.addDirectory g path dir = .ok (route, s₁)) (hs₂ : s₂.router = s₁.router)
    (hrow : Pattern.row route.pattern.raw = lead.map Segment.literal ++ [.wildcard Assets.param])
    (hlead : ∀ text ∈ lead, text ≠ "." ∧ text ≠ "..") (hnames : ∀ name ∈ names, Assets.PlainName name)
    (hmethod : r.method = .standard .get) (hpath : r.uri.path = "/" ++ Path.written keep (lead ++ names))
    (params : Params) : ∃ after, s₂.router.lookupInto r.method r.uri.path params = (.found route, after) ∧
      after.get? Assets.param = some ("/".intercalate names) := by
  obtain ⟨verb, pattern, hverb, hcompile, hinsert, -⟩ := addRoute_insert hadd
  obtain rfl : .get = verb := Option.some.inj hverb
  rw [hnew] at hinsert
  obtain ⟨rfl, hholds, henabled⟩ := Router.sole_insert hinsert
  rw [← hs₂] at hholds henabled
  rw [hmethod, hpath]
  have hraw := Pattern.raw_of_compile hcompile ▸ hrow
  exact Router.captures_written hkeep hholds henabled hcompile hraw hlead hnames params

/-- Where nothing has recycled the context, the captured path that the handler sees has the names for its parts. -/
theorem parts_captured (hnames : ∀ name ∈ names, Assets.PlainName name) {k : Carrier} {t : Thread}
    (hcaptures : ∃ after, s.router.lookupInto r.method r.uri.path k.context.params = (.found route, after) ∧
      after.get? Assets.param = some ("/".intercalate names))
    (ht : (s.depart k r).thread.SharedSteps t) (hstay : .recycled ∉ t.machine.journal) :
    Assets.parts (Assets.captured t.machine.context) = names := by
  obtain ⟨after, hfound, hget⟩ := hcaptures
  have hparams : t.machine.context.params = after := by
    rw [ht.params.resolve_left hstay, show (s.depart k r).thread.machine = s.poise k r from rfl, poise_params, hfound]
  rw [Assets.captured, hparams, hget]
  exact Assets.parts_intercalate hnames

/-- A directory whose group has no middleware asks for one file, if the captured path has plain names for its parts. -/
theorem asks_once {root path : FilePath} {n : Nat} (hmiddleware : s.chainFor r .middleware = [])
    (hhandlers : s.chainFor r .handlers = [Assets.directory root])
    (hresolve : Assets.resolve? root (Assets.captured (s.poise (.withCapacity n) r).context) = some path) :
    ∃ t, (s.depart (.withCapacity n) r).thread.Steps t ∧ t.step = none ∧ t.machine.journal.filesRead = [path] := by
  obtain ⟨headers, hdraft⟩ := s.poise_draft (.withCapacity n) r
  have hfirst := Thread.steps_first_handler (by rw [hdraft]; rfl)
    ((s.poise_lane_eq (.withCapacity n) r .middleware).trans (congrArg Lane.ofList hmiddleware))
    ((s.poise_lane_eq (.withCapacity n) r .handlers).trans (congrArg Lane.ofList hhandlers)) s.guards
  obtain ⟨m', hanswer, -, hread, -⟩ := Assets.steps_answer root (.entry .handlers 0 :: s.guards)
    (((s.poise (.withCapacity n) r).close .middleware).start .handlers 0)
  have hnothing : (s.poise (.withCapacity n) r).journal.filesRead = [] := s.poise_filterMap (fun _ _ _ => rfl) _ r
  have hstarted : (((s.poise (.withCapacity n) r).close .middleware).start .handlers 0).journal.filesRead = [] :=
    (Machine.filterMap_start Event.fileRead? _ _ _).trans ((List.append_nil _).trans hnothing)
  refine ⟨⟨.idle, [], m'.conclude .handlers 0 (.respond _)⟩,
    (hfirst.trans hanswer).trans (.head rfl (s.steps_unguarded _)), rfl, ?_⟩
  rw [Machine.filesRead_conclude, hread path hresolve, hstarted]
  rfl

/-- **Every name that may stand below a directory can be asked for.** A server has one route, that of a directory, and
the tokens before its wildcard are literals, none of them a single or a double dot. Then of a path that is made of these
literals and of plain names, all of them escaped,

- the wildcard captures the names, joined by slashes, and these lead to one place below the directory;
- this place is what the handler of the directory asks for, unless the context was recycled before;
- where the group has no middleware, nothing else is asked for while the request is served. -/
theorem names_addressed (hkeep : Path.Keeps keep) {options : RouterOptions} (hnew : s.router = .new options)
    (hadd : s.addDirectory g path dir = .ok (route, s₁)) (hs₂ : s₂.router = s₁.router)
    (hrow : Pattern.row route.pattern.raw = lead.map Segment.literal ++ [.wildcard Assets.param])
    (hlead : ∀ text ∈ lead, text ≠ "." ∧ text ≠ "..") (hnames : ∀ name ∈ names, Assets.PlainName name)
    (hmethod : r.method = .standard .get) (hpath : r.uri.path = "/" ++ Path.written keep (lead ++ names)) :
    (∀ params, ∃ after, s₂.router.lookupInto r.method r.uri.path params = (.found route, after) ∧
        after.get? Assets.param = some ("/".intercalate names)) ∧
      Assets.resolve? ⟨dir⟩ ("/".intercalate names) = some ((FilePath.mk dir).below names) ∧
      (∀ k t u index entry, (s₂.depart k r).thread.SharedSteps t → t.Starts .handlers index entry u →
        .recycled ∉ t.machine.journal → ∃ v w answer, u.Steps v ∧ v.Ends .handlers index (.respond answer) w ∧
          v.machine.journal.filesRead = u.machine.journal.filesRead ++ [(FilePath.mk dir).below names]) ∧
      (s₂.world.list g.list = [] → ∀ n, ∃ t, (s₂.depart (.withCapacity n) r).thread.Steps t ∧ t.step = none ∧
        t.machine.journal.filesRead = [(FilePath.mk dir).below names]) := by
  have hcaptures := captures_names hkeep hnew hadd hs₂ hrow hlead hnames hmethod hpath
  have hfound : (s₂.router.lookupInto r.method r.uri.path {}).1 = .found route := by
    obtain ⟨after, hlookup, -⟩ := hcaptures {}
    rw [hlookup]
  have hchain := chainFor_directory hadd hfound
  -- a handler that starts is that of the directory, and it sees the captured names
  have hstarts : ∀ k t u index entry, (s₂.depart k r).thread.SharedSteps t → t.Starts .handlers index entry u →
      .recycled ∉ t.machine.journal → ∃ v w answer, u.Steps v ∧ v.Ends .handlers index (.respond answer) w ∧
        v.machine.journal.filesRead = u.machine.journal.filesRead ++ [(FilePath.mk dir).below names] := by
    intro k t u index entry ht hstart hstay
    have hparts := parts_captured hnames (hcaptures k.context.params) ht hstay
    have hsame : Assets.captured u.machine.context = Assets.captured t.machine.context := by rw [hstart.result]; rfl
    obtain ⟨-, hentry, -⟩ := (ht.inOrder (s₂.poise_inOrder k r)).next_entry hstart.next
    rw [hchain] at hentry
    obtain rfl := List.mem_singleton.1 (List.mem_of_getElem? hentry)
    obtain ⟨v, w, answer, hv, hends, hplain, -⟩ :=
      answers_directory (by rw [hstart.result]) (show u.frames = .entry .handlers index :: t.frames by rw [hstart.result])
    rw [hsame, hparts] at hplain
    refine ⟨v, w, answer, hv, hends, hplain fun name hname => hnames name ?_⟩
    exact hparts ▸ hname
  refine ⟨hcaptures, Assets.resolve?_intercalate _ hnames, hstarts, fun hbare n => asks_once ?_ hchain ?_⟩
  · exact (chainFor_directory_middleware hadd hfound).trans hbare
  · obtain ⟨after, hlookup, hget⟩ := hcaptures (Carrier.withCapacity n).context.params
    rw [Assets.captured, poise_params, hlookup, hget]
    exact Assets.resolve?_intercalate _ hnames

/-- A server of one directory, on a group. -/
def shelf : Server :=
  match (Server.new {} .empty).addDirectory { path := "/api/" } "files/" "data" with
  | .ok (_, s) => s
  | .error _ => Server.new {} .empty

/-- A request for a file below that directory. -/
def shelfRequest : Request :=
  { method := .standard .get, uri := { path := "/api/files/.../50%25%3F/%C3%A4%20%2B.a" } }

/-- Three dots, a percent sign and a question mark, a letter beyond ASCII, a blank and a plus sign are all escaped once,
and reach the directory as they were. -/
theorem names_addressed_shelf :
    (∃ route after, shelf.router.lookupInto (.standard .get) shelfRequest.uri.path {} = (.found route, after) ∧
      after.get? Assets.param = some ".../50%?/ä +.a") ∧
    Assets.resolve? ⟨"data"⟩ ".../50%?/ä +.a" = some ⟨"data/.../50%?/ä +.a"⟩ ∧
    (∃ u v, (shelf.depart (.withCapacity 1) shelfRequest).thread.Steps u ∧ u.underway = [(.handlers, 0)] ∧ u.Steps v ∧
      v.machine.journal.filesRead = [⟨"data/.../50%?/ä +.a"⟩]) ∧
    ∃ t, (shelf.depart (.withCapacity 1) shelfRequest).thread.Steps t ∧ t.step = none ∧
      t.machine.journal.filesRead = [⟨"data/.../50%?/ä +.a"⟩] := by
  have hkeep : Path.Keeps fun c => c.isAlphanum || c == '.' := ⟨by decide, by decide, by decide⟩
  have hadd : (Server.new {} .empty).addDirectory { path := "/api/" } "files/" "data" = .ok (_, shelf) := rfl
  have hnames : ∀ name ∈ ["...", "50%?", "ä +.a"], Assets.PlainName name := by decide
  have hrow : Pattern.row "/api/files/*fp" = ["api", "files"].map Segment.literal ++ [.wildcard Assets.param] := rfl
  obtain ⟨hcaptures, hresolve, hstarts, hbare⟩ := names_addressed (r := shelfRequest) hkeep rfl hadd rfl hrow
    (by decide) hnames rfl (by decide +kernel)
  have ht : (shelf.depart (.withCapacity 1) shelfRequest).thread.Steps _ :=
    .head rfl <| .head rfl <| .head rfl .refl
  obtain ⟨v, w, answer, hv, -, hread⟩ := hstarts _ _ _ 0 _ ht.shared ⟨rfl, rfl, rfl, rfl⟩ List.not_mem_nil
  exact ⟨⟨_, hcaptures {}⟩, hresolve, ⟨_, v, ht.tail rfl, rfl, hv, hread⟩, hbare rfl 1⟩

end Server

end Switchyard
