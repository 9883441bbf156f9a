import Mathlib.Data.List.Forall2
import Switchyard.Proofs.Router.Reorder
import Switchyard.Proofs.Router.Reverse

/-!
# The pattern of a route as its path

A route is switched off or on by a path that finds it. If its pattern is given as the path, `:name` and `*name` are
segments like any other, and other routes may be found for them.

- a row of tokens is read segment by segment (`Segment.ReadAs`) where nothing in it is decoded, cut off or cleaned away
  (`Pattern.read_of_plain`);
- no literal token begins with `:` or `*`, so that no stem reaches beyond that of the pattern (`Ledger.winner_own`);
- so the pattern switches its own route and no other if and only if no route before it, with the same stem, fits what
  the pattern has behind the stem (`switches_own_iff`). None does where a path finds the route and the pattern has no
  wildcard; where it has one, another route may be switched in its place (`switched_another`).
-/

namespace Switchyard

open Http (Method Verb)

variable {α : Type}

/-! ## Signs -/

/-- A text that begins like a dynamic token. -/
def Signed (text : String) : Prop :=
  ∃ c rest, text.toList = c :: rest ∧ (c = ':' ∨ c = '*')

namespace Segment

/-- A token that a path may hold as it is: a literal is not decoded to another text and not cleaned away. -/
def Stands (clean : Bool) : Segment → Prop
  | .literal text => Text.Percent.decode text.toList = text.toList ∧ (clean = true → text ≠ "." ∧ text ≠ "..")
  | _ => True

instance (clean : Bool) : (s : Segment) → Decidable (s.Stands clean)
  | .literal text => inferInstanceAs
      (Decidable (Text.Percent.decode text.toList = text.toList ∧ (clean = true → text ≠ "." ∧ text ≠ "..")))
  | .param _ => .isTrue trivial
  | .wildcard _ => .isTrue trivial

/-- How a token is read as a segment of a path: a literal as its text, a dynamic token as a text with a sign. -/
inductive ReadAs : Segment → String → Prop where
  | literal (text : String) : ReadAs (.literal text) text
  | dynamic {s : Segment} {text : String} (hs : s.isDynamic = true) (h : Signed text) : ReadAs s text

/-- A token is dynamic if it has a sign, and a literal if not. -/
theorem ofToken_cases (token : List Char) :
    ((ofToken token).isDynamic = true ∧ Signed (.ofList token)) ∨
      (ofToken token = .literal (.ofList token) ∧ ¬ Signed (.ofList token)) := by
  unfold ofToken
  split
  · rename_i name
    exact .inl ⟨rfl, ':', name, String.toList_ofList, .inl rfl⟩
  · rename_i name
    exact .inl ⟨rfl, '*', name, String.toList_ofList, .inr rfl⟩
  · rename_i hcolon hstar
    refine .inr ⟨rfl, ?_⟩
    rintro ⟨c, rest, hrest, rfl | rfl⟩
    · rw [String.toList_ofList] at hrest
      exact hcolon rest hrest
    · rw [String.toList_ofList] at hrest
      exact hstar rest hrest

end Segment

namespace Pattern

/-- The literal tokens in front of a row. -/
def lead (raw : String) : List Segment :=
  (row raw).takeWhile Segment.isLiteral

/-- The segments of a pattern, read as a path, that follow as many as it has literal tokens in front. -/
def behindLead (clean : Bool) (raw : String) : List String :=
  (Path.segmentsOf clean raw).drop (lead raw).length

theorem not_signed_of_literal {raw text : String} (h : .literal text ∈ row raw) : ¬ Signed text := by
  obtain ⟨token, -, htoken⟩ := List.mem_map.1 h
  rcases Segment.ofToken_cases token with ⟨hdynamic, -⟩ | ⟨hliteral, hsigned⟩
  · rw [htoken] at hdynamic
    cases hdynamic
  · obtain rfl := Segment.literal.inj (hliteral.symm.trans htoken)
    exact hsigned

end Pattern

namespace Path

/-- A text that has a sign behind a slash is not that of segments without signs. -/
theorem textOf_ne_of_signed {texts segments : List String}
    (htexts : ∀ t ∈ texts, (t ≠ "" ∧ '/' ∉ t.toList) ∧ ¬ Signed t) {s : String} (hs : s ∈ segments) (h : Signed s) :
    textOf texts ≠ textOf segments := by
  intro heq
  obtain ⟨front, back, rfl⟩ := List.append_of_mem hs
  have hpieces := congrArg (fun text => Text.pieces '/' text.toList) heq
  rw [pieces_textOf, pieces_textOf, pieces_joined fun t ht => (htexts t ht).1, joined_append, joined_cons,
    Text.pieces_append] at hpieces
  -- what stands behind the slash is a piece that begins with the sign
  obtain ⟨c, rest, hrest, hsign⟩ := h
  have hslash : c ≠ '/' := by rcases hsign with rfl | rfl <;> decide
  obtain ⟨piece, others, hfirst⟩ := Text.pieces_cons hslash (rest ++ joined back)
  rw [hrest, List.cons_append, hfirst] at hpieces
  have hmem : c :: piece ∈ texts.map String.toList := by
    rw [hpieces]
    exact List.mem_append_right _ List.mem_cons_self
  obtain ⟨t, ht, htext⟩ := List.mem_map.1 hmem
  exact (htexts t ht).2 ⟨c, piece, htext, hsign⟩

/-- A token of a pattern is taken up as a segment that it is read as. -/
theorem exists_takeUp {clean : Bool} {token : List Char} (hne : token ≠ [])
    (h : (Segment.ofToken token).Stands clean) (segments : List String) :
    ∃ segment, takeUp clean segments token = segments ++ [segment] ∧ (Segment.ofToken token).ReadAs segment := by
  refine ⟨.ofList (Text.Percent.decode token), ?_⟩
  rcases Segment.ofToken_cases token with ⟨hdynamic, c, rest, htoken, hsign⟩ | ⟨htoken, -⟩
  · rw [String.toList_ofList] at htoken
    have hpercent : c ≠ '%' := by rcases hsign with rfl | rfl <;> decide
    have hdot : c ≠ '.' := by rcases hsign with rfl | rfl <;> decide
    have hdecode : Text.Percent.decode token = c :: Text.Percent.decode rest := by
      rw [htoken, Text.Percent.decode_cons hpercent]
    refine ⟨takeUp_eq_append ?_ ?_ segments, .dynamic hdynamic ⟨c, Text.Percent.decode rest, ?_, hsign⟩⟩
    · rw [hdecode]
      exact List.cons_ne_nil c _
    · rw [hdecode]
      exact fun _ => ⟨fun he => hdot (List.cons.inj he).1, fun he => hdot (List.cons.inj he).1⟩
    · rw [String.toList_ofList, hdecode]
  · rw [htoken] at h
    obtain ⟨hdecode, hdots⟩ := h
    rw [String.toList_ofList] at hdecode
    have htext : ∀ t : String, .ofList token ≠ t → token ≠ t.toList :=
      fun t hnet he => hnet (by rw [he, String.ofList_toList])
    rw [hdecode, htoken]
    refine ⟨?_, .literal _⟩
    rw [takeUp_eq_append, hdecode]
    · rwa [hdecode]
    · rw [hdecode]
      exact fun hclean => ⟨htext "." (hdots hclean).1, htext ".." (hdots hclean).2⟩

end Path

/-! ## Patterns read as paths -/

/-- A pattern without a question mark, whose tokens may be held by a path as they are, is read token by token. -/
theorem Pattern.read_of_plain {clean : Bool} {raw : String} (hmark : '?' ∉ raw.toList)
    (hstands : ∀ s ∈ row raw, s.Stands clean) :
    List.Forall₂ Segment.ReadAs (row raw) (Path.segmentsOf clean raw) := by
  have hfold : ∀ (tokens : List (List Char)) (before : List Segment) (segments : List String),
      (∀ s ∈ (tokens.filter (!·.isEmpty)).map Segment.ofToken, s.Stands clean) →
      List.Forall₂ Segment.ReadAs before segments →
      List.Forall₂ Segment.ReadAs (before ++ (tokens.filter (!·.isEmpty)).map Segment.ofToken)
        (tokens.foldl (Path.takeUp clean) segments) := by
    intro tokens
    induction tokens with
    | nil =>
      intro before segments _ h
      rw [List.filter_nil, List.map_nil, List.append_nil]
      exact h
    | cons token tokens ih =>
      intro before segments hstands h
      by_cases hempty : token = []
      · rw [hempty, List.filter_cons_of_neg (by simp)] at hstands ⊢
        exact ih before segments hstands h
      · rw [List.filter_cons_of_pos (by simpa using hempty), List.map_cons] at hstands ⊢
        obtain ⟨htoken, hstands⟩ := List.forall_mem_cons.1 hstands
        obtain ⟨segment, htake, hread⟩ := Path.exists_takeUp hempty htoken segments
        rw [List.foldl_cons, htake, List.append_cons]
        exact ih _ _ hstands (List.rel_append h (.cons hread .nil))
  rw [Path.segmentsOf, Path.tokens_of_free hmark]
  exact hfold _ [] [] hstands .nil

/-- Literal tokens are read as their texts. -/
theorem Segment.ReadAs.eq_tokens {tokens : List Segment} {texts : List String} (h : List.Forall₂ ReadAs tokens texts)
    (hliterals : ∀ s ∈ tokens, s.isLiteral = true) : texts = tokens.map token := by
  induction h with
  | nil => rfl
  | cons hread _ ih =>
    rw [List.map_cons, ih fun s hs => hliterals s (List.mem_cons_of_mem _ hs)]
    cases hread with
    | literal text => rfl
    | dynamic hs _ =>
      rw [isDynamic, hliterals _ List.mem_cons_self] at hs
      cases hs

/-- The segments that a row is read as begin with its literal tokens, and the others follow. -/
theorem Pattern.read_split {raw : String} {segments : List String}
    (h : List.Forall₂ Segment.ReadAs (row raw) segments) :
    segments.take (lead raw).length = (lead raw).map Segment.token ∧
      List.Forall₂ Segment.ReadAs ((row raw).dropWhile Segment.isLiteral) (segments.drop (lead raw).length) := by
  have hsplit : lead raw ++ (row raw).dropWhile Segment.isLiteral = row raw := List.takeWhile_append_dropWhile
  have htake := List.forall₂_take (lead raw).length h
  have hdrop := List.forall₂_drop (lead raw).length h
  rw [← hsplit, List.take_left] at htake
  rw [← hsplit, List.drop_left] at hdrop
  exact ⟨Segment.ReadAs.eq_tokens htake fun s hs => List.mem_takeWhile_imp hs, hdrop⟩

/-- A front that reaches beyond the literal tokens of a row holds a segment with a sign. -/
theorem Pattern.exists_signed {raw : String} {segments : List String} {k j : Nat}
    (h : List.Forall₂ Segment.ReadAs ((row raw).dropWhile Segment.isLiteral) (segments.drop k)) (hkj : k < j)
    (hj : j ≤ segments.length) : ∃ text ∈ segments.take j, Signed text := by
  have hk : k < segments.length := Nat.lt_of_lt_of_le hkj hj
  rw [List.drop_eq_getElem_cons hk] at h
  obtain ⟨s, rest, hs, -, hrow⟩ := List.forall₂_cons_right_iff.1 h
  refine ⟨segments[k], List.mem_take_iff_getElem.2 ⟨k, by omega, rfl⟩, ?_⟩
  cases hs with
  | literal text =>
    have hfirst := List.head?_dropWhile_not Segment.isLiteral (row raw)
    rw [hrow] at hfirst
    cases hfirst
  | dynamic _ hsigned => exact hsigned

/-! ## First routes -/

/-- Of a list in order, what is found first stands before everything else that would do. -/
theorem eq_or_rel_of_find? {β : Type} {R : β → β → Prop} {p : β → Bool} {xs : List β} (hxs : xs.Pairwise R) {x y : β}
    (hx : xs.find? p = some x) (hy : y ∈ xs) (hp : p y = true) : y = x ∨ R x y := by
  obtain ⟨-, front, back, rfl, hfront⟩ := List.find?_eq_some_iff_append.1 hx
  rcases List.mem_append.1 hy with hy | hy
  · have hno := hfront y hy
    rw [hp] at hno
    cases hno
  · rcases List.mem_cons.1 hy with rfl | hy
    · exact .inl rfl
    · exact .inr (List.rel_of_pairwise_cons (List.pairwise_append.1 hxs).2.1 hy)

/-- The longest front under which there are routes. -/
theorem Router.reach?_eq_some {routes : List (Route α)} {segments : List String} {k : Nat} (hk : k ≤ segments.length)
    (hany : routes.any (Route.hasStem (Path.textOf (segments.take k))) = true)
    (hlonger : ∀ j, k < j → j ≤ segments.length →
      routes.any (Route.hasStem (Path.textOf (segments.take j))) = false) : reach? routes segments = some k := by
  have hmem : ∀ j, j ∈ (List.range (segments.length + 1)).reverse ↔ j ≤ segments.length := fun j => by
    rw [List.mem_reverse, List.mem_range, Nat.lt_succ_iff]
  have hsorted : (List.range (segments.length + 1)).reverse.Pairwise (fun a b => b < a) :=
    List.pairwise_reverse.2 List.pairwise_lt_range
  cases hfind : reach? routes segments with
  | none => exact absurd hany (List.find?_eq_none.1 hfind k ((hmem k).2 hk))
  | some j =>
    have hj := List.find?_some (p := fun k => routes.any (Route.hasStem (Path.textOf (segments.take k)))) hfind
    rcases eq_or_rel_of_find? hsorted hfind ((hmem k).2 hk) hany with heq | hlt
    · rw [heq]
    · rw [hlonger j hlt ((hmem j).1 (List.mem_of_find?_eq_some hfind))] at hj
      cases hj

/-! ## What the pattern of a route finds -/

/-- What is read as a row fits it. -/
theorem fits_of_read {row : List Segment} {segments : List String} (hlast : ∀ s ∈ row.dropLast, s.isWildcard = false)
    (h : List.Forall₂ Segment.ReadAs row segments) : Fits row segments := by
  induction h with
  | nil => exact .nil
  | @cons s text row segments hread hrest ih =>
    obtain ⟨hbefore, htail⟩ := Pattern.wildcard_last_cons hlast
    cases s with
    | literal t =>
      cases hread with
      | literal _ => exact .literal text (ih htail)
      | dynamic hs _ => cases hs
    | param name => exact .param name text (ih htail)
    | wildcard name =>
      obtain rfl : row = [] := by
        by_contra hne
        cases hbefore hne
      exact .wildcard name (text :: segments)

/-- What fits the segments that a row without a wildcard is read as fits whatever fits the row: its literals have no
sign, so that they are literals of the row. -/
theorem Fits.of_read {row other : List Segment} {segments rest : List String}
    (hread : List.Forall₂ Segment.ReadAs row segments) (hwildcard : ∀ s ∈ row, s.isWildcard = false)
    (hother : ∀ text, .literal text ∈ other → ¬ Signed text) (h : Fits other segments) (hrest : Fits row rest) :
    Fits other rest := by
  induction h generalizing row rest with
  | nil =>
    cases hread
    exact hrest
  | literal text h ih =>
    obtain ⟨s, row, hs, htail, rfl⟩ := List.forall₂_cons_right_iff.1 hread
    simp only [List.forall_mem_cons] at hwildcard
    cases hs with
    | literal _ =>
      cases hrest with
      | literal _ hrest =>
        exact .literal text (ih htail hwildcard.2 (fun t ht => hother t (List.mem_cons_of_mem _ ht)) hrest)
    | dynamic _ hsigned => exact absurd hsigned (hother text List.mem_cons_self)
  | param name text h ih =>
    obtain ⟨s, row, -, htail, rfl⟩ := List.forall₂_cons_right_iff.1 hread
    simp only [List.forall_mem_cons] at hwildcard
    have hother := fun t ht => hother t (List.mem_cons_of_mem _ ht)
    cases hrest with
    | literal text hrest => exact .param name text (ih htail hwildcard.2 hother hrest)
    | param _ text hrest => exact .param name text (ih htail hwildcard.2 hother hrest)
    | wildcard w _ => cases hwildcard.1
  | wildcard name segments => exact .wildcard name rest

namespace Agrees

variable {s : Session α} {l : Ledger α}

/-- The routes of a verb are in the order of their numbers. -/
theorem sorted (h : Agrees s l) (v : Verb) : (l.routesOf v).Pairwise fun a b => a.number < b.number := by
  refine List.Pairwise.filter _ (List.pairwise_iff_getElem.2 fun i j hi hj hij => ?_)
  rw [h.number (List.getElem?_eq_getElem hi), h.number (List.getElem?_eq_getElem hj)]
  exact hij

/-- A router has the routes of its ledger. -/
theorem mem_routes_iff (h : Agrees s l) {route : Route α} : route ∈ s.router.routes ↔ route ∈ l.routes := by
  rw [Router.mem_routes_iff]
  constructor
  · rintro ⟨v, stem, routes, hget, hmem⟩
    rw [h.tables v] at hget
    split at hget
    · obtain rfl := Option.some.inj hget
      exact (List.mem_filter.1 (List.mem_filter.1 hmem).1).1
    · cases hget
  · intro hmem
    have hverb : route ∈ l.routesOf route.verb := List.mem_filter.2 ⟨hmem, beq_self_eq_true _⟩
    have hstem : route.hasStem route.pattern.stem = true := Route.hasStem_iff.2 rfl
    refine ⟨route.verb, route.pattern.stem, _, ?_, List.mem_filter.2 ⟨hverb, hstem⟩⟩
    rw [h.tables route.verb, if_pos (List.any_eq_true.2 ⟨route, hverb, hstem⟩)]

end Agrees

namespace Ledger

variable {l : Ledger α} {route : Route α}

/-- The pattern of every route was compiled. -/
def Compiled (l : Ledger α) : Prop :=
  ∀ route ∈ l.routes, Pattern.compile route.pattern.raw = .ok route.pattern

namespace Compiled

/-- The segments of a route are the tokens of its pattern from the first dynamic one on. -/
theorem segments_eq (h : l.Compiled) (hroute : route ∈ l.routes) :
    route.pattern.segments = (Pattern.row route.pattern.raw).dropWhile Segment.isLiteral :=
  congrArg Pattern.segments (Pattern.compile_eq_ok (h route hroute)).1

theorem candidate_iff (h : l.Compiled) (hroute : route ∈ l.routes) {front : String} {rest : List String} :
    (route.hasStem front && route.pattern.admits rest) = true ↔
      route.pattern.stem = front ∧ Fits route.pattern.segments rest := by
  rw [Bool.and_eq_true, Route.hasStem_iff]
  exact and_congr_right fun _ => Pattern.admits_iff _ _ (Pattern.compile_eq_ok (h route hroute)).2 rest

/-- A pattern that is read as a path fits itself behind its stem. -/
theorem fits_own (h : l.Compiled) (hroute : route ∈ l.routes) {clean : Bool}
    (hread : List.Forall₂ Segment.ReadAs (Pattern.row route.pattern.raw) (Path.segmentsOf clean route.pattern.raw)) :
    Fits route.pattern.segments (Pattern.behindLead clean route.pattern.raw) := by
  refine fits_of_read (Pattern.compile_eq_ok (h route hroute)).2 ?_
  rw [h.segments_eq hroute]
  exact (Pattern.read_split hread).2

end Compiled

/-- The pattern of a route, read as a path, finds the first route of the same stem that admits what is behind the
literal tokens: no longer front of it is the stem of a route. -/
theorem winner_own (hcompiled : l.Compiled) (hroute : route ∈ l.routes)
    (hread : List.Forall₂ Segment.ReadAs (Pattern.row route.pattern.raw)
      (Path.segmentsOf l.options.cleanPath route.pattern.raw)) :
    (l.winner route.verb route.pattern.raw).map Prod.fst = (l.routesOf route.verb).find? fun other =>
      other.hasStem route.pattern.stem &&
        other.pattern.admits (Pattern.behindLead l.options.cleanPath route.pattern.raw) := by
  rw [winner, Pattern.behindLead]
  generalize Path.segmentsOf l.options.cleanPath route.pattern.raw = segments at *
  obtain ⟨hfront, hbehind⟩ := Pattern.read_split hread
  have hstem : route.pattern.stem = Path.textOf (segments.take (Pattern.lead route.pattern.raw).length) := by
    rw [hfront, ← Pattern.stemOf_eq]
    exact congrArg Pattern.stem (Pattern.compile_eq_ok (hcompiled route hroute)).1
  have hlen : (Pattern.lead route.pattern.raw).length ≤ segments.length := by
    have := congrArg List.length hfront
    rw [List.length_take, List.length_map] at this
    omega
  have hverb : route ∈ l.routesOf route.verb := List.mem_filter.2 ⟨hroute, beq_self_eq_true _⟩
  have hreach : Router.reach? (l.routesOf route.verb) segments = some (Pattern.lead route.pattern.raw).length := by
    refine Router.reach?_eq_some hlen (List.any_eq_true.2 ⟨route, hverb, Route.hasStem_iff.2 hstem⟩) ?_
    intro j hj hjlen
    refine Bool.eq_false_iff.2 fun hany => ?_
    obtain ⟨other, hother, hsame⟩ := List.any_eq_true.1 hany
    rw [Route.hasStem_iff, (Pattern.compile_eq_ok (hcompiled other (List.mem_filter.1 hother).1)).1,
      Pattern.stemOf_eq] at hsame
    obtain ⟨text, htext, hsigned⟩ := Pattern.exists_signed hbehind hj hjlen
    refine Path.textOf_ne_of_signed (fun t ht => ?_) htext hsigned hsame
    obtain ⟨token, htoken, rfl⟩ := List.mem_map.1 ht
    obtain ⟨hliteral, hplain⟩ := Pattern.lead_literal htoken
    refine ⟨hplain, @Pattern.not_signed_of_literal other.pattern.raw _ ?_⟩
    rw [← hliteral]
    exact (List.takeWhile_sublist _).subset htoken
  rw [Router.scan, hreach, hstem]
  show Option.map _ (Option.bind (List.find? _ _) _) = _
  cases (l.routesOf route.verb).find? _ <;> rfl

end Ledger

/-! ## What the pattern of a route switches -/

/-- A path switches a route: there is one that it finds, the flag of this one is set, and no other flag changes. -/
def Router.Switches (r : Router α) (path : String) (route : Route α) : Prop :=
  ∀ off, (r.disableRoute (.standard route.verb) path off).1 = true ∧
    (r.disableRoute (.standard route.verb) path off).2.isEnabled route = !off ∧
    ∀ other ∈ r.routes, other ≠ route →
      (r.disableRoute (.standard route.verb) path off).2.isEnabled other = r.isEnabled other

/-- A route was added before another one for the same verb, with the same stem. -/
structure Route.Precedes (other route : Route α) : Prop where
  verb : other.verb = route.verb
  stem : other.pattern.stem = route.pattern.stem
  number : other.number < route.number

theorem Router.isEnabled_setDisabled (r : Router α) (route : Route α) (off : Bool) (other : Route α) :
    (r.setDisabled route off).isEnabled other = if other.number = route.number then !off else r.isEnabled other := by
  rw [isEnabled, contains_setDisabled]
  split <;> rfl

/-- The route found by a scan is the first of its stem that admits what follows. -/
theorem Router.find?_of_scan {routes : List (Route α)} {segments : List String} {route : Route α} {k : Nat}
    (h : scan routes segments = some (route, k)) : (routes.find? fun other =>
      other.hasStem (Path.textOf (segments.take k)) && other.pattern.admits (segments.drop k)) = some route := by
  obtain ⟨k', -, h⟩ := Option.bind_eq_some_iff.1 h
  obtain ⟨route', hroute, h⟩ := Option.bind_eq_some_iff.1 h
  obtain ⟨rfl, rfl⟩ := Prod.mk.inj (Option.some.inj h)
  exact hroute

namespace Agrees

variable {s : Session α} {l : Ledger α} {route : Route α}

/-- A path switches the route that it finds and no other. -/
theorem switches_iff (h : Agrees s l) (hroute : route ∈ l.routes) (path : String) :
    s.router.Switches path route ↔ (l.winner route.verb path).map Prod.fst = some route := by
  have hverb : (Method.standard route.verb).verb? = some route.verb := rfl
  unfold Router.Switches
  simp only [h.disableRoute_eq, hverb, Option.bind_some]
  cases hwinner : l.winner route.verb path with
  | none => simp
  | some found =>
    obtain ⟨winner, k⟩ := found
    have hmem : winner ∈ l.routes := (List.mem_filter.1 (Router.scan_eq_some hwinner).1).1
    simp only [Option.map_some, Option.some.injEq, Router.isEnabled_setDisabled, true_and]
    constructor
    · intro hswitch
      by_contra hne
      -- switched against its flag, the winner is another route whose flag changes
      have hflag := (hswitch (s.router.isEnabled winner)).2 winner (h.mem_routes_iff.2 hmem) hne
      simp at hflag
    · rintro rfl off
      refine ⟨if_pos rfl, fun other hother hne => if_neg fun hnumber => hne ?_⟩
      exact Ledger.Numbered.inj h.number (h.mem_routes_iff.1 hother) hmem hnumber

/-- A pattern that is read as a path switches its own route if and only if no route before it fits. -/
theorem switches_own_iff_not_fits (h : Agrees s l) (hroute : route ∈ l.routes) (hcompiled : l.Compiled)
    (hread : List.Forall₂ Segment.ReadAs (Pattern.row route.pattern.raw)
      (Path.segmentsOf l.options.cleanPath route.pattern.raw)) :
    s.router.Switches route.pattern.raw route ↔ ∀ other ∈ s.router.routes, other.Precedes route →
      ¬ Fits other.pattern.segments (Pattern.behindLead l.options.cleanPath route.pattern.raw) := by
  have hverb : route ∈ l.routesOf route.verb := List.mem_filter.2 ⟨hroute, beq_self_eq_true _⟩
  have hself := (hcompiled.candidate_iff hroute).2 ⟨rfl, hcompiled.fits_own hroute hread⟩
  rw [h.switches_iff hroute, Ledger.winner_own hcompiled hroute hread]
  constructor
  · intro hfirst other hother hbefore hfits
    have hmem := h.mem_routes_iff.1 hother
    have hother' : other ∈ l.routesOf route.verb := List.mem_filter.2 ⟨hmem, beq_iff_eq.2 hbefore.verb⟩
    have hcandidate := (hcompiled.candidate_iff hmem).2 ⟨hbefore.stem, hfits⟩
    rcases eq_or_rel_of_find? (h.sorted _) hfirst hother' hcandidate with rfl | hgt
    · exact Nat.lt_irrefl _ hbefore.number
    · exact Nat.lt_asymm hbefore.number hgt
  · intro hnone
    cases hfirst : (l.routesOf route.verb).find? _ with
    | none => exact absurd hself (List.find?_eq_none.1 hfirst route hverb)
    | some first =>
      rcases eq_or_rel_of_find? (h.sorted _) hfirst hverb hself with rfl | hlt
      · rfl
      · obtain ⟨hmem, hv⟩ := List.mem_filter.1 (List.mem_of_find?_eq_some hfirst)
        have hcandidate := List.find?_some hfirst
        obtain ⟨hs, hfits⟩ := (hcompiled.candidate_iff hmem).1 hcandidate
        exact absurd hfits (hnone first (h.mem_routes_iff.2 hmem) ⟨beq_iff_eq.1 hv, hs, hlt⟩)

/-- No route before one that a path finds fits its pattern, if that has no wildcard: it would fit that path as well. -/
theorem not_fits_of_winner (h : Agrees s l) (hcompiled : l.Compiled) {path : String} {k : Nat}
    (hfound : l.winner route.verb path = some (route, k))
    (hread : List.Forall₂ Segment.ReadAs (Pattern.row route.pattern.raw)
      (Path.segmentsOf l.options.cleanPath route.pattern.raw))
    (hwildcard : ∀ s ∈ Pattern.row route.pattern.raw, s.isWildcard = false) :
    ∀ other ∈ s.router.routes, other.Precedes route →
      ¬ Fits other.pattern.segments (Pattern.behindLead l.options.cleanPath route.pattern.raw) := by
  intro other hother hbefore hfits
  obtain ⟨hverb, -, hstem, hadmits⟩ := Router.scan_eq_some hfound
  have hroute := (List.mem_filter.1 hverb).1
  have hmem := h.mem_routes_iff.1 hother
  have hrest := (Pattern.admits_iff _ _ (Pattern.compile_eq_ok (hcompiled route hroute)).2 _).1 hadmits
  rw [hcompiled.segments_eq hroute] at hrest
  rw [hcompiled.segments_eq hmem] at hfits
  have hfits' := hfits.of_read (Pattern.read_split hread).2
    (fun s hs => hwildcard s ((List.dropWhile_sublist _).subset hs))
    (fun text htext => Pattern.not_signed_of_literal ((List.dropWhile_sublist _).subset htext)) hrest
  rw [← hcompiled.segments_eq hmem] at hfits'
  have hother' : other ∈ l.routesOf route.verb := List.mem_filter.2 ⟨hmem, beq_iff_eq.2 hbefore.verb⟩
  have hcandidate := (hcompiled.candidate_iff hmem).2 ⟨hbefore.stem.trans hstem, hfits'⟩
  rcases eq_or_rel_of_find? (h.sorted _) (Router.find?_of_scan hfound) hother' hcandidate with rfl | hgt
  · exact Nat.lt_irrefl _ hbefore.number
  · exact Nat.lt_asymm hbefore.number hgt

end Agrees

/-- **The pattern of a route switches its own route unless one before it fits.** For a route that some path finds,
whatever its flag, and whose pattern is read as a path token by token, the pattern switches the route and no other if
and only if no route added before it for the same verb, with the same stem, fits the segments of the pattern behind the
stem; and there is none if the pattern has no wildcard. -/
theorem switches_own_iff (options : RouterOptions) (calls : List (Call α)) {route : Route α} {path : String} {k : Nat}
    (hfound : (Session.run options calls).router.select route.verb (Path.empty.load options.cleanPath path) =
      some (route, k))
    (hread : List.Forall₂ Segment.ReadAs (Pattern.row route.pattern.raw)
      (Path.segmentsOf options.cleanPath route.pattern.raw)) :
    ((Session.run options calls).router.Switches route.pattern.raw route ↔
      ∀ other ∈ (Session.run options calls).router.routes, other.Precedes route →
        ¬ Fits other.pattern.segments (Pattern.behindLead options.cleanPath route.pattern.raw)) ∧
    ((∀ s ∈ Pattern.row route.pattern.raw, s.isWildcard = false) →
      (Session.run options calls).router.Switches route.pattern.raw route) := by
  have h := agrees_run options calls
  obtain ⟨hoptions, hcompiled⟩ := Ledger.run_compiled options calls
  generalize Session.run options calls = s at *
  generalize Ledger.run options calls = l at *
  subst hoptions
  rw [← h.options, h.select_eq] at hfound
  have hroute := (List.mem_filter.1 (Router.scan_eq_some hfound).1).1
  have hiff := h.switches_own_iff_not_fits hroute hcompiled hread
  exact ⟨hiff, fun hwildcard => hiff.2 (h.not_fits_of_winner hcompiled hfound hread hwildcard)⟩

/-- A router to which two routes were added. -/
def twoRoutes (first second : String) : Router Unit :=
  (Session.run {} [.add "" (.standard .get) first (), .add "" (.standard .get) second ()]).router

/-- The pattern of a wildcard route switches it, as the route before it takes two segments. -/
theorem switches_own_wildcard : ∃ route,
    (twoRoutes "/u/:id/edit" "/u/*rest").select .get (Path.empty.load true "/u/1") = some (route, 1) ∧
      (twoRoutes "/u/:id/edit" "/u/*rest").Switches "/u/*rest" route := by
  have hroutes : (twoRoutes "/u/:id/edit" "/u/*rest").routes =
      [⟨0, .get, "", ⟨"/u/:id/edit", "/u", [.param "id", .literal "edit"]⟩, ()⟩,
        ⟨1, .get, "", ⟨"/u/*rest", "/u", [.wildcard "rest"]⟩, ()⟩] := by rfl
  have hbehind : Pattern.behindLead true "/u/*rest" = ["*rest"] := by rfl
  have hiff := (@switches_own_iff Unit {}
    [.add "" (.standard .get) "/u/:id/edit" (), .add "" (.standard .get) "/u/*rest" ()]
    ⟨1, .get, "", ⟨"/u/*rest", "/u", [.wildcard "rest"]⟩, ()⟩ "/u/1" 1 rfl
    (Pattern.read_of_plain (by decide) (by decide))).1
  refine ⟨_, rfl, hiff.2 fun other hother hbefore hfits => ?_⟩
  have hother := hroutes ▸ hother
  simp only [List.mem_cons, List.not_mem_nil, or_false] at hother
  rcases hother with rfl | rfl
  · have hfits : Fits [.param "id", .literal "edit"] ["*rest"] := hbehind ▸ hfits
    cases hfits with
    | param _ _ h => cases h
  · exact absurd hbefore.number (Nat.lt_irrefl 1)

/-- A wildcard stands for one segment as a parameter does: the pattern of the second route switches the first. -/
theorem switched_another : ∃ route,
    (twoRoutes "/u/:id" "/u/*rest").select .get (Path.empty.load true "/u") = some (route, 1) ∧
      ¬ (twoRoutes "/u/:id" "/u/*rest").Switches route.pattern.raw route := by
  refine ⟨_, rfl, fun h => ?_⟩
  have hflag := (h true).2.1
  cases hflag

end Switchyard
