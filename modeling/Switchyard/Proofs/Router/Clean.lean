import Switchyard.Proofs.Router.Captures
import Switchyard.Proofs.Router.Ledger

/-!
# Cleaned paths

With cleaning, no segment of a path is empty or a dot segment. The text of a path and the values captured from it are
read by others as components between slashes, and a segment may hold slashes that were escaped, so that it stands for
several components.

- the components of a text are those of its segments, in their order (`Path.components_intercalate`,
  `Path.components_textOf`);
- so the text of a cleaned path is clean if and only if the components of each segment are, and likewise with a captured
  value and dot segments (`cleaned_iff`); where slashes are escaped, a value may climb (`captured_climbing`).
-/

namespace Switchyard

open Http (Method)
open Text (splitOn)

variable {α : Type}

namespace Path

/-- The pieces of a text between its slashes, empty ones included. -/
def components (text : String) : List String :=
  (splitOn '/' text.toList).map String.ofList

variable {segments : List String}

theorem components_intercalate (h : segments ≠ []) :
    components ("/".intercalate segments) = segments.flatMap components := by
  have hlists : segments.map String.toList ≠ [] := mt List.map_eq_nil_iff.1 h
  have hsplit := Text.splitOn_intercalate '/' hlists
  rw [components, String.toList_intercalate]
  rw [show "/".toList = ['/'] from rfl, hsplit, List.flatMap_map, List.map_flatMap]
  rfl

/-- The slash in front leaves an empty component before those of the segments. -/
theorem components_textOf (h : segments ≠ []) : components (textOf segments) = "" :: segments.flatMap components := by
  obtain ⟨s, rest, rfl⟩ := List.exists_cons_of_ne_nil h
  rw [← components_intercalate h, components, components, toList_textOf h, joined_cons, ← toList_intercalate_cons,
    splitOn, if_pos rfl]
  rfl

/-- Neither empty nor a dot segment. -/
def Plain (component : String) : Prop :=
  component ≠ "" ∧ component ≠ "." ∧ component ≠ ".."

/-- A lone slash, or plain components with a slash before each. -/
def IsClean (text : String) : Prop :=
  text = "/" ∨ ∀ component ∈ (components text).tail, Plain component

/-- No component is a dot segment. -/
def DotFree (text : String) : Prop :=
  ∀ component ∈ components text, component ≠ "." ∧ component ≠ ".."

instance : DecidablePred Plain :=
  fun c => inferInstanceAs (Decidable (c ≠ "" ∧ c ≠ "." ∧ c ≠ ".."))

instance : DecidablePred IsClean :=
  fun text => inferInstanceAs (Decidable (text = "/" ∨ ∀ component ∈ (components text).tail, Plain component))

instance : DecidablePred DotFree :=
  fun text => inferInstanceAs (Decidable (∀ component ∈ components text, component ≠ "." ∧ component ≠ ".."))

theorem plain_of_cleaned (text : String) : ∀ s ∈ segmentsOf true text, Plain s :=
  forall_segmentsOf (fun _ hne hdots => ⟨hne, hdots rfl⟩) text

theorem isClean_textOf_iff (hne : ∀ s ∈ segments, s ≠ "") :
    IsClean (textOf segments) ↔ ∀ s ∈ segments, ∀ component ∈ components s, Plain component := by
  by_cases h : segments = []
  · rw [h]
    exact ⟨fun _ s hs => absurd hs List.not_mem_nil, fun _ => .inl rfl⟩
  · have hroot := textOf_ne_root h hne
    rw [IsClean, components_textOf h, List.tail_cons, List.forall_mem_flatMap]
    exact or_iff_right hroot

theorem dotFree_intercalate_iff (segments : List String) :
    DotFree ("/".intercalate segments) ↔ ∀ s ∈ segments, DotFree s := by
  by_cases h : segments = []
  · rw [h]
    exact ⟨fun _ s hs => absurd hs List.not_mem_nil, fun _ => by decide⟩
  · rw [DotFree, components_intercalate h, List.forall_mem_flatMap]
    rfl

end Path

namespace Router

variable {r : Router α}

theorem isClean_lookupInto_iff (hclean : r.options.cleanPath = true) (method : Method) (path : String)
    (params : Params) : Path.IsClean (r.lookupInto method path params).2.path.text ↔
      ∀ s ∈ Path.segmentsOf true path, ∀ component ∈ Path.components s, Path.Plain component := by
  rw [lookupInto_path, hclean, Path.text_load]
  exact Path.isClean_textOf_iff (Path.segmentsOf_ne_empty true path)

/-- **A lookup that cleans a path leaves it clean as far as its segments are.** None of them is empty or a dot segment.
Its text is clean if and only if all components of all segments are plain, and a captured value, which is some segments
that stand side by side with slashes between them, is without dot segments if and only if each of these is. -/
theorem cleaned_iff (hclean : r.options.cleanPath = true) (method : Method) (path : String) :
    (∀ s ∈ Path.segmentsOf true path, Path.Plain s) ∧
    (∀ params, Path.IsClean (r.lookupInto method path params).2.path.text ↔
      ∀ s ∈ Path.segmentsOf true path, ∀ component ∈ Path.components s, Path.Plain component) ∧
    ∀ route after, r.Finds method path route after → ∀ pair ∈ after.pairs,
      ∃ part, part <:+: Path.segmentsOf true path ∧ pair.2 = "/".intercalate part ∧
        (Path.DotFree pair.2 ↔ ∀ s ∈ part, Path.DotFree s) := by
  refine ⟨Path.plain_of_cleaned path, isClean_lookupInto_iff hclean method path, ?_⟩
  intro route after hfinds pair hpair
  obtain ⟨part, hpart, hvalue⟩ := hfinds.parts pair hpair
  rw [hclean] at hpart
  refine ⟨part, hpart, hvalue, ?_⟩
  rw [hvalue]
  exact Path.dotFree_intercalate_iff part

/-- A router with one route, which captures what follows `/home`. -/
def homeRouter : Router Unit :=
  (Session.run {} [.add "" (.standard .get) "/home/*path" ()]).router

/-- Where the escapes are dots, the path is cleaned as if they were not escaped. -/
theorem cleaned_iff_escaped_dots : ∃ route after, homeRouter.Finds (.standard .get) "/home/a/%2e%2e/b" route after ∧
    after.pairs = [("path", "b")] ∧ Path.DotFree "b" ∧ Path.IsClean after.path.text := by
  obtain ⟨-, htext, hvalues⟩ := cleaned_iff (r := homeRouter) rfl (.standard .get) "/home/a/%2e%2e/b"
  have hplain : ∀ s ∈ Path.segmentsOf true "/home/a/%2e%2e/b", ∀ component ∈ Path.components s,
      Path.Plain component := by
    decide
  refine ⟨_, _, .inl ⟨{}, rfl⟩, rfl, ?_, (htext {}).2 hplain⟩
  obtain ⟨part, hpart, -, hvalue⟩ := hvalues _ _ (.inl ⟨{}, rfl⟩) ("path", "b") List.mem_cons_self
  exact hvalue.2 fun s hs component hc => (hplain s (hpart.subset hs) component hc).2

/-- Where slashes are escaped beside dots, the value captured climbs. -/
theorem captured_climbing : ∃ route after,
    homeRouter.Finds (.standard .get) "/home/a%2F..%2F..%2Fetc%2Fpasswd" route after ∧
      after.pairs = [("path", "a/../../etc/passwd")] ∧ ¬ Path.DotFree "a/../../etc/passwd" ∧
      ¬ Path.IsClean after.path.text := by
  refine ⟨_, _, .inl ⟨{}, rfl⟩, ?_, by decide +kernel, by decide +kernel⟩
  rfl

end Router

end Switchyard
