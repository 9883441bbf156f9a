import Mathlib.Data.List.TakeWhile
import Switchyard.Proofs.Router.Ledger

/-!
# Segment by segment

A path fits a row of pattern tokens if each segment fits the token at its place (`Fits`).

- after its stem, a pattern admits what fits its tokens (`Pattern.admits_iff`);
- the stem is compared as text, and texts of segments that hold no slash are the same only for the same segments
  (`Path.textOf_inj`);
- so that a route found fits the path in all places if and only if no segment that its stem took up holds a slash
  (`found_fits_iff`), and may be found for a path of another shape otherwise (`found_across_slash`).
-/

namespace Switchyard

open Http (Method Verb)

/-- The tokens of a pattern, from the first on. -/
def Pattern.row (raw : String) : List Segment :=
  (tokens raw).map Segment.ofToken

/-- Segments fit a row of tokens: a literal stands for itself, a parameter for any one segment, and a wildcard at the
end for all that is left. -/
inductive Fits : List Segment → List String → Prop where
  | nil : Fits [] []
  | literal {row : List Segment} {rest : List String} (text : String) (h : Fits row rest) :
    Fits (.literal text :: row) (text :: rest)
  | param {row : List Segment} {rest : List String} (name text : String) (h : Fits row rest) :
    Fits (.param name :: row) (text :: rest)
  | wildcard (name : String) (rest : List String) : Fits [.wildcard name] rest

/-! ## What a pattern admits after its stem -/

namespace Pattern

/-- A wildcard at the end admits anything. -/
theorem admits_wildcard (raw stem name : String) (rest : List String) :
    (⟨raw, stem, [.wildcard name]⟩ : Pattern).admits rest = true := by
  cases rest <;> simp [admits, wildcardPosition, Segment.isWildcard, fits]

theorem wildcardPosition_cons {raw stem : String} {s : Segment} {segments : List Segment}
    (h : segments = [] → s.isWildcard = false) : (⟨raw, stem, s :: segments⟩ : Pattern).wildcardPosition =
      (⟨raw, stem, segments⟩ : Pattern).wildcardPosition.map (· + 1) := by
  cases segments with
  | nil => simp [wildcardPosition, h rfl]
  | cons t segments =>
    simp only [wildcardPosition, List.getLast?_cons_cons]
    split <;> rfl

/-- Any other token takes up one segment. -/
theorem admits_cons {raw stem : String} {s : Segment} {segments : List Segment}
    (h : segments = [] → s.isWildcard = false) (rest : List String) :
    (⟨raw, stem, s :: segments⟩ : Pattern).admits rest =
      match rest with
      | [] => false
      | text :: rest => fits s text && (⟨raw, stem, segments⟩ : Pattern).admits rest := by
  rw [admits, wildcardPosition_cons h]
  cases rest with
  | nil => cases (⟨raw, stem, segments⟩ : Pattern).wildcardPosition <;> simp
  | cons text rest =>
    dsimp only
    rw [admits]
    cases (⟨raw, stem, segments⟩ : Pattern).wildcardPosition <;> simp [Bool.and_left_comm]

/-- A row with a wildcard at its end only, without its first token: the same holds of the rest, and the token is no
wildcard unless nothing is left. -/
theorem wildcard_last_cons {s : Segment} {row : List Segment} (h : ∀ x ∈ (s :: row).dropLast, x.isWildcard = false) :
    (row ≠ [] → s.isWildcard = false) ∧ ∀ x ∈ row.dropLast, x.isWildcard = false := by
  cases row with
  | nil => exact ⟨fun hne => absurd rfl hne, nofun⟩
  | cons t row =>
    rw [List.dropLast_cons_of_ne_nil (List.cons_ne_nil t row)] at h
    exact ⟨fun _ => h s List.mem_cons_self, fun x hx => h x (List.mem_cons_of_mem s hx)⟩

/-- **A pattern without a wildcard before its end admits what fits its tokens.** -/
theorem admits_iff (raw stem : String) {segments : List Segment} (h : ∀ s ∈ segments.dropLast, s.isWildcard = false)
    (rest : List String) : (⟨raw, stem, segments⟩ : Pattern).admits rest = true ↔ Fits segments rest := by
  induction segments generalizing rest with
  | nil =>
    cases rest with
    | nil => exact ⟨fun _ => .nil, fun _ => rfl⟩
    | cons text rest => exact ⟨fun hf => absurd hf Bool.false_ne_true, nofun⟩
  | cons s segments ih =>
    by_cases hw : segments = [] ∧ s.isWildcard = true
    · obtain ⟨rfl, hw⟩ := hw
      cases s with
      | wildcard name => exact ⟨fun _ => .wildcard name rest, fun _ => admits_wildcard raw stem name rest⟩
      | _ => cases hw
    · obtain ⟨hbefore, htail⟩ := wildcard_last_cons h
      have hs : s.isWildcard = false := by
        by_cases hnil : segments = []
        · exact Bool.eq_false_iff.2 fun ht => hw ⟨hnil, ht⟩
        · exact hbefore hnil
      have hcons : segments = [] → s.isWildcard = false := fun _ => hs
      rw [admits_cons hcons]
      cases rest with
      | nil =>
        refine ⟨fun hf => absurd hf Bool.false_ne_true, fun hf => ?_⟩
        cases hf with
        | wildcard name => cases hs
      | cons text rest =>
        rw [Bool.and_eq_true, ih htail]
        cases s with
        | literal t =>
          constructor
          · rintro ⟨ht, hf⟩
            obtain rfl := beq_iff_eq.1 ht
            exact .literal _ hf
          · intro hf
            cases hf with
            | literal _ hf => exact ⟨beq_self_eq_true _, hf⟩
        | param name =>
          constructor
          · exact fun hf => .param name text hf.2
          · intro hf
            cases hf with
            | param _ _ hf => exact ⟨rfl, hf⟩
        | wildcard name => cases hs

/-! ## What compiling finds -/

/-- With one member at most that is the last one if there is any, no other one is. -/
theorem not_mem_dropLast_of_countP {l : List Segment} (h : l.countP Segment.isWildcard ≤ 1)
    (hlast : l.countP Segment.isWildcard = 1 → l.getLast?.any Segment.isWildcard = true) :
    ∀ s ∈ l.dropLast, s.isWildcard = false := by
  rcases List.eq_nil_or_concat l with rfl | ⟨init, x, rfl⟩
  · exact fun s hs => by cases hs
  · rw [List.concat_eq_append, List.countP_append] at h hlast
    rw [List.concat_eq_append, List.dropLast_concat]
    rw [List.getLast?_concat] at hlast
    have hzero : init.countP Segment.isWildcard = 0 := by
      cases hx : x.isWildcard with
      | true =>
        have : [x].countP Segment.isWildcard = 1 := by simp [hx]
        omega
      | false =>
        have : [x].countP Segment.isWildcard = 0 := by simp [hx]
        by_contra hne
        have hone := hlast (by omega)
        rw [Option.any_some, hx] at hone
        cases hone
    intro s hs
    exact Bool.eq_false_iff.2 (List.countP_eq_zero.1 hzero s hs)

/-- A compiled pattern is its row, cut before the first dynamic token, with a wildcard at the end only. -/
theorem compile_eq_ok {raw : String} {p : Pattern} (h : compile raw = .ok p) :
    p = ⟨raw, stemOf ((row raw).takeWhile Segment.isLiteral), (row raw).dropWhile Segment.isLiteral⟩ ∧
      ∀ s ∈ p.segments.dropLast, s.isWildcard = false := by
  unfold compile at h
  dsimp only at h
  split at h
  · cases h
  · rename_i hone
    split at h
    · cases h
    · rename_i hlast
      obtain rfl := Except.ok.inj h
      refine ⟨rfl, not_mem_dropLast_of_countP (Nat.le_of_not_lt hone) fun hcount => ?_⟩
      by_contra hno
      exact hlast (by rw [hcount, Bool.eq_false_iff.2 hno]; rfl)

/-- A pattern keeps the text it was compiled from. -/
theorem raw_of_compile {raw : String} {p : Pattern} (h : compile raw = .ok p) : p.raw = raw :=
  congrArg Pattern.raw (compile_eq_ok h).1

/-- A literal token of a row is its text, which is not empty and holds no slash. -/
theorem row_literal {raw : String} {s : Segment} (h : s ∈ row raw) (hlit : s.isLiteral = true) :
    s = .literal s.token ∧ s.token ≠ "" ∧ '/' ∉ s.token.toList := by
  obtain ⟨token, htoken, rfl⟩ := List.mem_map.1 h
  have hne := Text.ne_nil_of_mem_pieces htoken
  have hfree := Text.splitOn_free '/' raw.toList token (List.mem_filter.1 htoken).1
  have heq : Segment.ofToken token = .literal (.ofList token) := by
    unfold Segment.ofToken at hlit ⊢
    split at hlit
    · cases hlit
    · cases hlit
    · rfl
  rw [heq]
  refine ⟨rfl, fun he => hne (String.ofList_eq_empty_iff.1 he), ?_⟩
  rw [Segment.token, String.toList_ofList]
  exact hfree

/-- The literal tokens in front of a row. -/
theorem lead_literal {raw : String} {s : Segment} (h : s ∈ (row raw).takeWhile Segment.isLiteral) :
    s = .literal s.token ∧ s.token ≠ "" ∧ '/' ∉ s.token.toList :=
  row_literal ((List.takeWhile_sublist _).subset h) (List.mem_takeWhile_imp h)

/-- The stem is the text of the literal tokens in front. -/
theorem stemOf_eq (lead : List Segment) : stemOf lead = Path.textOf (lead.map Segment.token) := by
  rw [stemOf, Path.textOf, List.map_map, List.isEmpty_map]
  rfl

end Pattern

/-! ## Fitting in all places -/

/-- Literal tokens in front fit the segments they stand for, and no others. -/
theorem fits_append {lead row : List Segment} (h : ∀ s ∈ lead, s = .literal s.token) {segments : List String} :
    Fits (lead ++ row) segments ↔
      segments.take lead.length = lead.map Segment.token ∧ Fits row (segments.drop lead.length) := by
  induction lead generalizing segments with
  | nil => exact ⟨fun hf => ⟨rfl, hf⟩, fun hf => hf.2⟩
  | cons s lead ih =>
    have hlead : ∀ s ∈ lead, s = .literal s.token := fun x hx => h x (List.mem_cons_of_mem s hx)
    rw [h s List.mem_cons_self]
    cases segments with
    | nil =>
      constructor
      · intro hf
        cases hf
      · rintro ⟨he, -⟩
        cases he
    | cons text rest =>
      constructor
      · intro hf
        cases hf with
        | literal _ hf =>
          obtain ⟨htake, hdrop⟩ := (ih hlead).1 hf
          exact ⟨congrArg (s.token :: ·) htake, hdrop⟩
      · rintro ⟨htake, hdrop⟩
        obtain ⟨rfl, htail⟩ := List.cons.inj htake
        exact .literal _ ((ih hlead).2 ⟨htail, hdrop⟩)

/-- A path whose front is the stem of a pattern and whose rest the pattern admits fits the pattern in all places if
and only if the segments of the front hold no slash. -/
theorem fits_row_iff {raw : String} {p : Pattern} (hp : Pattern.compile raw = .ok p) {segments : List String}
    (hne : ∀ s ∈ segments, s ≠ "") {k : Nat} (hk : k ≤ segments.length)
    (hstem : p.stem = Path.textOf (segments.take k)) (hrest : Fits p.segments (segments.drop k)) :
    Fits (Pattern.row raw) segments ↔ ∀ s ∈ segments.take k, '/' ∉ s.toList := by
  obtain ⟨rfl, -⟩ := Pattern.compile_eq_ok hp
  have hsplit := List.takeWhile_append_dropWhile (p := Segment.isLiteral) (l := Pattern.row raw)
  have hlit := fun s (hs : s ∈ (Pattern.row raw).takeWhile Segment.isLiteral) => Pattern.lead_literal hs
  generalize (Pattern.row raw).takeWhile Segment.isLiteral = lead at *
  generalize (Pattern.row raw).dropWhile Segment.isLiteral = row at *
  have htexts : ∀ s ∈ lead.map Segment.token, s ≠ "" ∧ '/' ∉ s.toList := by
    intro s hs
    obtain ⟨x, hx, rfl⟩ := List.mem_map.1 hs
    exact (hlit x hx).2
  dsimp only at hstem
  rw [Pattern.stemOf_eq] at hstem
  rw [← hsplit, fits_append fun s hs => (hlit s hs).1]
  constructor
  · rintro ⟨htake, -⟩
    have hlen : lead.length ≤ segments.length := by
      have := congrArg List.length htake
      rw [List.length_take, List.length_map] at this
      omega
    -- the stem has one text only, so that the front is the literal tokens themselves
    rw [← htake] at hstem htexts
    obtain rfl := Path.textOf_take_inj hne hlen hk hstem
    exact fun s hs => (htexts s hs).2
  · intro hfree
    have hfront : ∀ s ∈ segments.take k, s ≠ "" ∧ '/' ∉ s.toList :=
      fun s hs => ⟨hne s ((List.take_sublist k segments).subset hs), hfree s hs⟩
    have heq := Path.textOf_inj htexts hfront hstem
    have hlen : lead.length = k := by
      rw [← List.length_map Segment.token, heq, List.length_take, Nat.min_eq_left hk]
    rw [hlen]
    exact ⟨heq.symm, hrest⟩

/-! ## What a router finds -/

namespace Ledger

variable {l : Ledger α}

/-- A call leaves the routes as they are, or adds one with a compiled pattern. -/
theorem routes_call (l : Ledger α) (c : Call α) : (l.call c).options = l.options ∧ ((l.call c).routes = l.routes ∨
    ∃ route, Pattern.compile route.pattern.raw = .ok route.pattern ∧ (l.call c).routes = l.routes ++ [route]) := by
  cases c with
  | add group method pattern value =>
    simp only [call]
    split
    · rename_i verb p _ hp
      have hraw : p.raw = pattern := Pattern.raw_of_compile hp
      refine ⟨rfl, .inr ⟨⟨l.routes.length, verb, group, p, value⟩, ?_, rfl⟩⟩
      rw [hraw, hp]
    · exact ⟨rfl, .inl rfl⟩
  | flag number off =>
    simp only [call]
    split <;> exact ⟨rfl, .inl rfl⟩
  | flagPath method path off =>
    simp only [call]
    split <;> exact ⟨rfl, .inl rfl⟩
  | lookup method path => exact ⟨rfl, .inl rfl⟩
  | release params => exact ⟨rfl, .inl rfl⟩

/-- After any calls, every route has a compiled pattern. -/
theorem run_compiled (options : RouterOptions) (calls : List (Call α)) : (run options calls).options = options ∧
    ∀ route ∈ (run options calls).routes, Pattern.compile route.pattern.raw = .ok route.pattern := by
  have hfold : ∀ (calls : List (Call α)) (l : Ledger α), l.options = options →
      (∀ route ∈ l.routes, Pattern.compile route.pattern.raw = .ok route.pattern) →
      (calls.foldl call l).options = options ∧
        ∀ route ∈ (calls.foldl call l).routes, Pattern.compile route.pattern.raw = .ok route.pattern := by
    intro calls
    induction calls with
    | nil => exact fun l ho hc => ⟨ho, hc⟩
    | cons c calls ih =>
      intro l ho hc
      obtain ⟨hoptions, hroutes⟩ := l.routes_call c
      refine ih _ (hoptions.trans ho) fun route hroute => ?_
      rcases hroutes with heq | ⟨new, hnew, heq⟩
      · rw [heq] at hroute
        exact hc route hroute
      · rw [heq] at hroute
        rcases List.mem_append.1 hroute with hroute | hroute
        · exact hc route hroute
        · obtain rfl := List.mem_singleton.1 hroute
          exact hnew
  exact hfold calls { options } rfl fun route hroute => by cases hroute

/-- What a request resolves to is the winner of its verb, or for HEAD that of GET. -/
theorem winner_of_resolve {method : Method} {path : String} {found : Route α × Nat}
    (h : l.resolve method path = some found) : (∃ v, method = .standard v ∧ l.winner v path = some found) ∨
      (method = .standard .head ∧ l.options.headToGet = true ∧ l.winner .get path = some found) := by
  have hwinner : ∀ v, l.find v path = some found → l.winner v path = some found :=
    fun v hfind => (Option.filter_eq_some_iff.1 hfind).1
  rcases Option.or_eq_some_iff.1 h with hown | ⟨-, hget⟩
  · obtain ⟨v, hv, hfind⟩ := Option.bind_eq_some_iff.1 hown
    cases method with
    | extension token => cases hv
    | standard w =>
      obtain rfl := Option.some.inj hv
      exact .inl ⟨w, rfl, hwinner w hfind⟩
  · obtain ⟨hstand, hfind⟩ := Option.ite_none_right_eq_some.1 hget
    obtain ⟨hopt, hmethod⟩ := Bool.and_eq_true_iff.1 hstand
    exact .inr ⟨eq_of_beq hmethod, hopt, hwinner .get hfind⟩

/-- What is found for a request is found by a scan over the routes of some verb. -/
theorem resolve_eq_some {method : Method} {path : String} {found : Route α × Nat}
    (h : l.resolve method path = some found) : ∃ v, l.winner v path = some found := by
  rcases winner_of_resolve h with ⟨v, -, hv⟩ | ⟨-, -, hget⟩
  · exact ⟨v, hv⟩
  · exact ⟨.get, hget⟩

end Ledger

/-- A route found by a lookup of either kind is one that the ledger finds. -/
theorem Agrees.resolve_of_found {s : Session α} {l : Ledger α} (h : Agrees s l) {method : Method} {path : String}
    {route : Route α} (hfound : (∃ params, (s.router.lookupInto method path params).1 = .found route) ∨
      ∃ params, (s.router.lookup method path).1 = .found (route, params)) :
    ∃ k, l.resolve method path = some (route, k) := by
  have hresolve : (l.resolve method path).map Prod.fst = some route := by
    rcases hfound with ⟨params, hfound⟩ | ⟨params, hfound⟩
    · rw [← h.lookupInto_eq method path params, hfound]
      rfl
    · obtain ⟨buffer, hbuffer⟩ := s.router.lookup_found? method path
      rw [← h.lookupInto_eq method path buffer, ← hbuffer, hfound]
      rfl
  obtain ⟨⟨route, k⟩, hk, rfl⟩ := Option.map_eq_some_iff.1 hresolve
  exact ⟨k, hk⟩

/-- **A route found fits the path in all places if and only if the segments of its stem hold no slash.** What comes
after the stem fits in any case. -/
theorem found_fits_iff (options : RouterOptions) (calls : List (Call α)) (method : Method) (path : String)
    (route : Route α)
    (h : (∃ params, ((Session.run options calls).router.lookupInto method path params).1 = .found route) ∨
      ∃ params, ((Session.run options calls).router.lookup method path).1 = .found (route, params)) :
    ∃ k ≤ (Path.segmentsOf options.cleanPath path).length,
      route.pattern.stem = Path.textOf ((Path.segmentsOf options.cleanPath path).take k) ∧
      Fits route.pattern.segments ((Path.segmentsOf options.cleanPath path).drop k) ∧
      (Fits (Pattern.row route.pattern.raw) (Path.segmentsOf options.cleanPath path) ↔
        ∀ s ∈ (Path.segmentsOf options.cleanPath path).take k, '/' ∉ s.toList) := by
  obtain ⟨k, hresolve⟩ := (agrees_run options calls).resolve_of_found h
  obtain ⟨v, hv⟩ := Ledger.resolve_eq_some hresolve
  obtain ⟨hoptions, hcompiled⟩ := Ledger.run_compiled options calls
  rw [Ledger.winner, hoptions] at hv
  obtain ⟨hmem, hk, hstem, hadmits⟩ := Router.scan_eq_some hv
  have hp := hcompiled route (List.mem_filter.1 hmem).1
  have hrest := (Pattern.admits_iff _ _ (Pattern.compile_eq_ok hp).2 _).1 hadmits
  exact ⟨k, hk, hstem, hrest, fits_row_iff hp (Path.segmentsOf_ne_empty _ path) hk hstem hrest⟩

/-- A path whose segments hold no slashes fits the pattern of the route it finds. -/
theorem found_fits_param : ∃ route : Route Unit,
    ((Session.run {} [.add "" (.standard .get) "/a/:b" ()]).router.lookupInto (.standard .get) "/a/x%20y" {}).1 =
      .found route ∧
    Fits (Pattern.row route.pattern.raw) (Path.segmentsOf true "/a/x%20y") := by
  refine ⟨_, rfl, ?_⟩
  obtain ⟨k, hk, hstem, hrest, hiff⟩ := found_fits_iff (α := Unit) {} [.add "" (.standard .get) "/a/:b" ()]
    (.standard .get) "/a/x%20y" _ (.inl ⟨{}, rfl⟩)
  have hfree : ∀ s ∈ Path.segmentsOf true "/a/x%20y", '/' ∉ s.toList := by decide
  exact hiff.2 fun s hs => hfree s ((List.take_sublist k _).subset hs)

/-- A segment that holds a slash passes for two segments of a stem. -/
theorem found_across_slash : ∃ route : Route Unit,
    ((Session.run {} [.add "" (.standard .get) "/a/b" ()]).router.lookupInto (.standard .get) "/a%2Fb" {}).1 =
      .found route ∧
    ¬ Fits (Pattern.row route.pattern.raw) (Path.segmentsOf true "/a%2Fb") := by
  refine ⟨_, rfl, fun hf => ?_⟩
  have hrow : Pattern.row "/a/b" = [.literal "a", .literal "b"] := by rfl
  have hsegments : Path.segmentsOf true "/a%2Fb" = ["a/b"] := by rfl
  replace hf : Fits (Pattern.row "/a/b") (Path.segmentsOf true "/a%2Fb") := hf
  rw [hrow, hsegments] at hf
  generalize "a/b" = text at hf
  cases hf with
  | literal _ hf => cases hf

end Switchyard
