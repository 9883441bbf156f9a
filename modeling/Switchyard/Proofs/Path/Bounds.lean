import Switchyard.Proofs.Path.Views

/-!
# Paths are read within their bounds

Every view of a path reads its text by byte offsets. Here the offsets are checked: a function has no result where it
would reach below zero, past an end or into a character (`Checked`).

- a cut has a result only for a span that lies in the text and ends between characters (`Text.Span.Within.of_cut?`), and
  likewise for what is cut away at the end (`Text.isBoundary_of_takeBytes?`);
- a path can be loaded with all checks, whatever it held before, and its views read so give what they give
  (`Checked.load_eq`, `Checked.front_load`, `Checked.segmentsFrom_load`).
-/

namespace Switchyard

open Text (Span)

/-! ## Spans within a text -/

namespace Text

/-- An offset between two characters of a text, or at one of its ends. -/
def IsBoundary (cs : List Char) (n : Nat) : Prop :=
  ∃ as bs, cs = as ++ bs ∧ Utf8.size as = n

/-- A span that lies in a text, with a boundary at both ends. -/
structure Span.Within (span : Span) (cs : List Char) : Prop where
  ordered : span.start ≤ span.stop
  inside : span.stop ≤ Utf8.size cs
  start : IsBoundary cs span.start
  stop : IsBoundary cs span.stop

theorem eq_append_of_dropBytes? {n : Nat} {cs rest : List Char} (h : dropBytes? n cs = some rest) :
    ∃ as, cs = as ++ rest ∧ Utf8.size as = n := by
  induction cs generalizing n with
  | nil =>
    cases n with
    | zero => exact ⟨[], Option.some.inj h, rfl⟩
    | succ n => cases h
  | cons c cs ih =>
    cases n with
    | zero => exact ⟨[], Option.some.inj h, rfl⟩
    | succ n =>
      obtain ⟨hwidth, h⟩ := Option.ite_none_right_eq_some.1 h
      obtain ⟨as, rfl, hsize⟩ := ih h
      exact ⟨c :: as, rfl, by rw [Utf8.size, hsize]; omega⟩

theorem eq_append_of_takeBytes? {n : Nat} {cs as : List Char} (h : takeBytes? n cs = some as) :
    ∃ rest, cs = as ++ rest ∧ Utf8.size as = n := by
  induction cs generalizing n as with
  | nil =>
    cases n with
    | zero =>
      obtain rfl := Option.some.inj h
      exact ⟨[], rfl, rfl⟩
    | succ n => cases h
  | cons c cs ih =>
    cases n with
    | zero =>
      obtain rfl := Option.some.inj h
      exact ⟨c :: cs, rfl, rfl⟩
    | succ n =>
      obtain ⟨hwidth, h⟩ := Option.ite_none_right_eq_some.1 h
      obtain ⟨as, htake, rfl⟩ := Option.map_eq_some_iff.1 h
      obtain ⟨rest, rfl, hsize⟩ := ih htake
      exact ⟨rest, rfl, by rw [Utf8.size, hsize]; omega⟩

/-- A text is cut off at boundaries only. -/
theorem isBoundary_of_takeBytes? {n : Nat} {cs as : List Char} (h : takeBytes? n cs = some as) : IsBoundary cs n := by
  obtain ⟨rest, hcs, hsize⟩ := eq_append_of_takeBytes? h
  exact ⟨as, rest, hcs, hsize⟩

/-- What is cut out lies in the text. -/
theorem Span.Within.of_cut? {span : Span} {cs part : List Char} (h : cut? span cs = some part) : span.Within cs := by
  obtain ⟨hordered, h⟩ := Option.ite_none_right_eq_some.1 h
  obtain ⟨behind, hdrop, htake⟩ := Option.bind_eq_some_iff.1 h
  obtain ⟨before, rfl, hbefore⟩ := eq_append_of_dropBytes? hdrop
  obtain ⟨rest, rfl, hpart⟩ := eq_append_of_takeBytes? htake
  have hstop : Utf8.size (before ++ part) = span.stop := by rw [Utf8.size_append]; omega
  refine ⟨hordered, ?_, ⟨before, part ++ rest, rfl, hbefore⟩, before ++ part, rest, by rw [List.append_assoc], hstop⟩
  rw [← List.append_assoc, Utf8.size_append, hstop]
  exact Nat.le_add_right _ _

end Text

/-- What is sliced out of a path lies in its text. -/
theorem Path.within_of_slice? {p : Path} {span : Span} {s : String} (h : p.slice? span = some s) :
    span.Within p.chars := by
  obtain ⟨part, hcut, -⟩ := Option.map_eq_some_iff.1 h
  exact .of_cut? hcut

/-- A path that can be cut back has its last segment behind the first byte, and a boundary in front of the slash. -/
theorem Path.isBoundary_of_pop? {p q : Path} (h : p.pop? = some q) {last : Span} (hlast : p.spans.getLast? = some last) :
    1 ≤ last.start ∧ Text.IsBoundary p.chars (last.start - 1) := by
  unfold pop? at h
  rw [hlast] at h
  dsimp only at h
  split at h
  · cases h
  · rename_i hstart
    obtain ⟨chars, htake, -⟩ := Option.map_eq_some_iff.1 h
    exact ⟨Nat.one_le_iff_ne_zero.2 hstart, Text.isBoundary_of_takeBytes? htake⟩

/-! ## Loading and reading with checks -/

namespace Checked

/-- Takes up one token; none where the text cannot be cut back. -/
def step (clean : Bool) (p : Path) (token : List Char) : Option Path :=
  let segment := Text.Percent.decode token
  if segment.isEmpty then some p
  else if clean && segment == ['.'] then some p
  else if clean && segment == ['.', '.'] then p.pop?
  else some (p.push segment)

def load (p : Path) (clean : Bool) (text : String) : Option Path :=
  ((Path.tokens text).foldlM (step clean) p.clear).map Path.rooted

/-- The text of the first segments; none where it cannot be sliced out. -/
def front (p : Path) (count : Nat) : Option String :=
  match count with
  | 0 => some "/"
  | last + 1 =>
    match p.spans[last]? with
    | some span => p.slice? ⟨0, span.stop⟩
    | none => some "/"

/-- The segments from a place on; none where one of them cannot be sliced out. -/
def segmentsFrom (p : Path) (i : Nat) : Option (List String) :=
  (p.spans.drop i).mapM p.slice?

theorem step_ofSegments (clean : Bool) (segments : List String) (token : List Char) :
    step clean (.ofSegments segments) token = some (.ofSegments (Path.takeUp clean segments token)) := by
  rw [← Path.step_ofSegments]
  unfold step Path.step
  dsimp only
  split
  · rfl
  · split
    · rfl
    · split
      · rw [Path.pop, Path.pop?_ofSegments]
        rfl
      · rfl

theorem foldlM_step (clean : Bool) (ts : List (List Char)) (segments : List String) :
    ts.foldlM (step clean) (.ofSegments segments) = some (ts.foldl (Path.step clean) (.ofSegments segments)) := by
  induction ts generalizing segments with
  | nil => rfl
  | cons token ts ih =>
    rw [List.foldlM_cons, step_ofSegments, List.foldl_cons, Path.step_ofSegments]
    exact ih _

/-- **A path can be loaded with all checks.** -/
theorem load_eq (p : Path) (clean : Bool) (text : String) : load p clean text = some (p.load clean text) :=
  congrArg (Option.map Path.rooted) (foldlM_step clean (Path.tokens text) [])

/-- Where every member has a result, so have all. -/
theorem mapM_eq_some {α β : Type} {f : α → Option β} {g : α → β} {l : List α} (h : ∀ a ∈ l, f a = some (g a)) :
    l.mapM f = some (l.map g) := by
  induction l with
  | nil => rfl
  | cons a l ih =>
    rw [List.mapM_cons, h a List.mem_cons_self, ih fun b hb => h b (List.mem_cons_of_mem a hb)]
    rfl

/-- The span of a segment can be sliced out. -/
theorem slice?_of_mem (p : Path) (clean : Bool) (text : String) {span : Span} (h : span ∈ (p.load clean text).spans) :
    (p.load clean text).slice? span = some ((p.load clean text).slice span) := by
  have hmem := List.mem_map_of_mem (f := (p.load clean text).slice?) h
  rw [Path.slices_load] at hmem
  obtain ⟨s, -, hs⟩ := List.mem_map.1 hmem
  rw [Path.slice, ← hs]
  rfl

theorem front_load (p : Path) (clean : Bool) (text : String) (k : Nat) :
    front (p.load clean text) k = some ((p.load clean text).front k) := by
  cases k with
  | zero => rfl
  | succ i =>
    rw [front, Path.front]
    cases hspan : (p.load clean text).spans[i]? with
    | none => rfl
    | some span =>
      dsimp only
      rw [Path.slice, Path.front?_load p clean hspan, Option.getD_some]

theorem segmentsFrom_load (p : Path) (clean : Bool) (text : String) (i : Nat) :
    segmentsFrom (p.load clean text) i = some ((p.load clean text).segmentsFrom i) :=
  mapM_eq_some fun _ hspan => slice?_of_mem p clean text (List.mem_of_mem_drop hspan)

end Checked

end Switchyard
