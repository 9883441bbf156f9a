import Switchyard.Proofs.Router.Allowed
import Switchyard.Proofs.Server.Dispatch

/-!
# Requests whose method does not reach their path

A path that only other verbs reach is answered by the fallback for that. Before it runs, the context knows those verbs,
and the draft offers them in a header.

- a text of printable characters is read back from the header value that is made of it (`Cors.toText?_value`);
- the header lists the names of the verbs, whatever the draft held before (`members?_allow`);
- the fallback starts on a context that knows and offers exactly the verbs that reach the path (`refused_exactly`).
-/

namespace Switchyard

open Http (Method Verb HeaderName HeaderValue Headers)
open Text (splitOn)

/-! ## Values of printable characters -/

/-- A character that stands for itself in a header value. -/
def Printable (c : Char) : Prop :=
  32 ≤ c.toNat ∧ c.toNat < 127

instance : DecidablePred Printable :=
  fun c => inferInstanceAs (Decidable (32 ≤ c.toNat ∧ c.toNat < 127))

namespace Printable

variable {c : Char}

theorem toNat_byte (h : Printable c) : (UInt8.ofNat c.toNat).toNat = c.toNat :=
  Nat.mod_eq_of_lt (Nat.lt_trans h.2 (by decide))

theorem ofNat_byte (h : Printable c) : Char.ofNat (UInt8.ofNat c.toNat).toNat = c := by
  rw [h.toNat_byte, Char.ofNat_toNat]

theorem byte_is_text (h : Printable c) :
    ((32 ≤ UInt8.ofNat c.toNat && UInt8.ofNat c.toNat < 127) || UInt8.ofNat c.toNat == 9) = true := by
  have hlow : 32 ≤ UInt8.ofNat c.toNat := UInt8.le_iff_toNat_le.2 (by rw [h.toNat_byte]; exact h.1)
  have hhigh : UInt8.ofNat c.toNat < 127 := UInt8.lt_iff_toNat_lt.2 (by rw [h.toNat_byte]; exact h.2)
  rw [decide_eq_true hlow, decide_eq_true hhigh]
  rfl

end Printable

/-- The bytes of printable characters are their numbers. -/
theorem encode_printable {cs : List Char} (h : ∀ c ∈ cs, Printable c) :
    Text.Utf8.encode cs = cs.map fun c => .ofNat c.toNat := by
  induction cs with
  | nil => rfl
  | cons c cs ih =>
    obtain ⟨hc, hcs⟩ := List.forall_mem_cons.1 h
    have hchar : Text.Utf8.encodeChar c = [.ofNat c.toNat] := if_pos (Nat.lt_trans hc.2 (by decide))
    rw [Text.Utf8.encode, List.flatMap_cons, hchar, List.map_cons, ← ih hcs]
    rfl

theorem Cors.toText?_value {s : String} (h : ∀ c ∈ s.toList, Printable c) : (value s).toText? = some s := by
  have hbytes : (value s).bytes = s.toList.map fun c => .ofNat c.toNat := encode_printable h
  have hchars : (value s).bytes.map (fun b => Char.ofNat b.toNat) = s.toList := by
    rw [hbytes, List.map_map]
    exact (List.map_congr_left fun c hc => (h c hc).ofNat_byte).trans (List.map_id _)
  rw [HeaderValue.toText?, if_pos, hchars, String.ofList_toList]
  rw [hbytes, List.all_map, List.all_eq_true]
  exact fun c hc => (h c hc).byte_is_text

/-! ## Lists in header fields -/

/-- The members of a list that is written with commas, without the blanks around them. -/
def listMembers (text : String) : List String :=
  (splitOn ',' text.toList).map fun member => Context.trim (.ofList member)

/-- The members of the list that all values of a name make up; there is none if a value is no text. -/
def Http.Headers.members? (h : Headers) (name : HeaderName) : Option (List String) := do
  let texts ← (h.entries.filter (·.1 == name)).mapM (·.2.toText?)
  return texts.flatMap listMembers

theorem Http.Headers.members?_insert (h : Headers) (name : HeaderName) {value : HeaderValue} {text : String}
    (htext : value.toText? = some text) : (h.insert name value).members? name = some (listMembers text) := by
  have hfilter : (h.insert name value).entries.filter (·.1 == name) = [(name, value)] := by
    simp [Headers.insert, Headers.append, Headers.erase, List.filter_append, List.filter_filter, bne]
  simp [Headers.members?, hfilter, htext]

/-- What is joined with commas and blanks is cut with the blanks left in front. -/
theorem splitOn_listed {xs : List Char} {lists : List (List Char)} (h : ∀ ys ∈ xs :: lists, ',' ∉ ys) :
    splitOn ',' ([',', ' '].intercalate (xs :: lists)) = xs :: lists.map (' ' :: ·) := by
  induction lists generalizing xs with
  | nil => simpa using Text.splitOn_of_free (h xs List.mem_cons_self)
  | cons ys lists ih =>
    obtain ⟨hxs, hrest⟩ := List.forall_mem_cons.1 h
    have hcons : [',', ' '].intercalate (xs :: ys :: lists) =
        xs ++ ',' :: ' ' :: [',', ' '].intercalate (ys :: lists) := by
      simp [List.intercalate]
    have hblank : splitOn ',' (' ' :: [',', ' '].intercalate (ys :: lists)) = (' ' :: ys) :: lists.map (' ' :: ·) := by
      rw [splitOn, if_neg (by decide), ih hrest]
    rw [hcons, Text.splitOn_append, Text.splitOn_of_free hxs, hblank]
    rfl

/-- Members without commas, and without blanks at their ends, are read back from the list that they make up. -/
theorem listMembers_intercalate {members : List String} (hne : members ≠ []) (hcomma : ∀ m ∈ members, ',' ∉ m.toList)
    (htrim : ∀ m ∈ members, Context.trim m = m ∧ Context.trim (.ofList (' ' :: m.toList)) = m) :
    listMembers (", ".intercalate members) = members := by
  cases members with
  | nil => exact absurd rfl hne
  | cons m members =>
    have hlists : ∀ ys ∈ m.toList :: members.map String.toList, ',' ∉ ys := by
      intro ys hys
      obtain ⟨m', hm', rfl⟩ := List.mem_map.1 (show ys ∈ (m :: members).map String.toList from hys)
      exact hcomma m' hm'
    have hsplit : splitOn ',' (", ".intercalate (m :: members)).toList =
        m.toList :: (members.map String.toList).map (' ' :: ·) := by
      rw [String.toList_intercalate]
      exact splitOn_listed hlists
    obtain ⟨hhead, htail⟩ := List.forall_mem_cons.1 htrim
    rw [listMembers, hsplit, List.map_cons, String.ofList_toList, hhead.1, List.map_map, List.map_map]
    exact congrArg (m :: ·) ((List.map_congr_left fun m' hm' => (htail m' hm').2).trans (List.map_id _))

namespace Server

theorem name_printable (v : Verb) : ∀ c ∈ v.name.toList, Printable c := by
  have hall : v.name.toList.all (Printable ·) = true := by
    cases v <;> decide
  exact fun c hc => of_decide_eq_true (List.all_eq_true.1 hall c hc)

theorem comma_not_mem_name (v : Verb) : ',' ∉ v.name.toList := by
  cases v <;> decide

theorem trim_name (v : Verb) :
    Context.trim v.name = v.name ∧ Context.trim (.ofList (' ' :: v.name.toList)) = v.name := by
  cases v <;> decide

/-- The header that offers some verbs is text. -/
theorem toText?_allowValue (verbs : List Verb) :
    (allowValue verbs).toText? = some (", ".intercalate (verbs.map Verb.name)) := by
  refine Cors.toText?_value fun c hc => ?_
  rw [String.toList_intercalate] at hc
  rcases Text.mem_of_mem_intercalate hc with hsep | ⟨name, hname, hmem⟩
  · have hall : [',', ' '].all (Printable ·) = true := by decide
    exact of_decide_eq_true (List.all_eq_true.1 hall c hsep)
  · rw [List.map_map] at hname
    obtain ⟨v, -, rfl⟩ := List.mem_map.1 hname
    exact name_printable v c hmem

/-- **The header that offers some verbs lists their names**, whatever the draft held before. -/
theorem members?_allow (h : Headers) {verbs : List Verb} (hne : verbs ≠ []) :
    (h.insert .allow (allowValue verbs)).members? .allow = some (verbs.map Verb.name) := by
  have hmembers : listMembers (", ".intercalate (verbs.map Verb.name)) = verbs.map Verb.name := by
    refine listMembers_intercalate (mt List.map_eq_nil_iff.1 hne) (fun m hm => ?_) fun m hm => ?_
    · obtain ⟨v, -, rfl⟩ := List.mem_map.1 hm
      exact comma_not_mem_name v
    · obtain ⟨v, -, rfl⟩ := List.mem_map.1 hm
      exact trim_name v
  rw [Headers.members?_insert h .allow (toText?_allowValue verbs), hmembers]

/-! ## Refused requests -/

variable {s : Server} {k : Carrier} {r : Request} {verbs : List Verb}

theorem lookupInto_refused (h : (s.router.lookup r.method r.uri.path).1 = .methodNotAllowed verbs) (params : Params) :
    (s.router.lookupInto r.method r.uri.path params).1 = .methodNotAllowed verbs := by
  rw [← s.router.lookup_map, h]
  rfl

/-- What a context is told of a request that is refused. -/
theorem poise_refused (h : (s.router.lookup r.method r.uri.path).1 = .methodNotAllowed verbs) :
    (s.poise k r).context.allowed = verbs ∧
      (s.poise k r).context.draft = k.context.draft.setHeader .allow (allowValue verbs) := by
  have hinto := lookupInto_refused h k.context.params
  rw [poise_unreported (f := (·.context)) fun _ _ => rfl]
  unfold receive
  dsimp only
  split
  · rename_i hout
    cases hinto.symm.trans hout
  · rename_i hout
    obtain rfl := Lookup.methodNotAllowed.inj (hinto.symm.trans hout)
    exact ⟨rfl, rfl⟩
  · rename_i hout
    cases hinto.symm.trans hout

theorem chainFor_refused (h : (s.router.lookup r.method r.uri.path).1 = .methodNotAllowed verbs) :
    s.chainFor r .middleware = [] ∧ s.chainFor r .handlers = [s.methodNotAllowed] := by
  unfold chainFor
  rw [lookupInto_refused h]
  exact ⟨rfl, rfl⟩

/-- The header offers the verbs by name. -/
theorem poise_offers (h : (s.router.lookup r.method r.uri.path).1 = .methodNotAllowed verbs) :
    (s.poise k r).context.draft.headers.members? .allow = some (verbs.map Verb.name) := by
  have hclassified := s.router.classified_lookup r.method r.uri.path
  rw [h] at hclassified
  rw [(poise_refused h).2]
  exact members?_allow _ hclassified.ne_nil

theorem depart_refused (h : (s.router.lookup r.method r.uri.path).1 = .methodNotAllowed verbs)
    (hdone : k.context.draft.done = false) : ∃ m : Machine, m.context = (s.poise k r).context ∧
      (s.depart k r).thread.Steps ⟨.program s.methodNotAllowed, .entry .handlers 0 :: s.guards, m⟩ := by
  obtain ⟨hmiddleware, hhandlers⟩ := chainFor_refused h
  have hnotDone : (s.poise k r).context.draft.done = false := by
    rw [(poise_refused h).2]
    exact hdone
  have hlane : (s.poise k r).lane .handlers = .ofList [s.methodNotAllowed] := by
    rw [poise_lane_eq, hhandlers]
  refine ⟨((s.poise k r).close .middleware).start .handlers 0, rfl, ?_⟩
  refine Thread.steps_first_handler hnotDone ?_ hlane s.guards
  rw [poise_lane_eq, hmiddleware]

/-- **A miss tells exactly which verbs reach its path**, each of them once, and a path that is not found is reached by
none. A request that is refused in a server is answered by the fallback, which starts on a context that was told these
verbs and lists their names in the header that offers them. -/
theorem refused_exactly :
    (∀ {α : Type} (r : Router α) (method : Method) (path : String) (params : Params),
      r.Classified path (r.lookup method path).1 ∧ r.Classified path (r.lookupInto method path params).1) ∧
    ∀ (s : Server) (k : Carrier) (q : Request) (verbs : List Verb),
      (s.router.lookup q.method q.uri.path).1 = .methodNotAllowed verbs →
        (s.poise k q).context.allowed = verbs ∧
        (s.poise k q).context.draft.headers.members? .allow = some (verbs.map Verb.name) ∧
        (k.context.draft.done = false → ∃ m : Machine, m.context = (s.poise k q).context ∧
          (s.depart k q).thread.Steps ⟨.program s.methodNotAllowed, .entry .handlers 0 :: s.guards, m⟩) := by
  refine ⟨fun r method path params => ⟨r.classified_lookup method path, r.classified_lookupInto method path params⟩, ?_⟩
  intro s k q verbs h
  exact ⟨(poise_refused h).1, poise_offers h, depart_refused h⟩

/-- A server with one route, for GET of the root. -/
def oneRoute : Server :=
  { Server.new {} .empty with router := ((Router.new {}).insert "" .get ⟨"/", "/", []⟩ ⟨0, []⟩).2 }

/-- A POST of the root is offered GET, and HEAD for which GET stands in. -/
theorem refused_exactly_post : ∃ m : Machine, m.context.allowed = [.get, .head] ∧
    m.context.draft.headers.members? .allow = some ["GET", "HEAD"] ∧
    (oneRoute.depart {} { method := .standard .post, uri := .root }).thread.Steps
      ⟨.program oneRoute.methodNotAllowed, .entry .handlers 0 :: oneRoute.guards, m⟩ := by
  obtain ⟨hallowed, hoffers, hstarts⟩ :=
    refused_exactly.2 oneRoute {} { method := .standard .post, uri := .root } [.get, .head] rfl
  obtain ⟨m, hm, hsteps⟩ := hstarts rfl
  rw [← hm] at hallowed hoffers
  exact ⟨m, hallowed, hoffers, hsteps⟩

end Server

end Switchyard
