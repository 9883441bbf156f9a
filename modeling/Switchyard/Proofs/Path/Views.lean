import Switchyard.Proofs.Path.Segments

/-!
# What a loaded path shows

Loading appends each segment to the text, cuts the text back at a `..` and puts a slash into a text that stayed empty,
all in a buffer that held another path before. Every view reads that text through byte offsets. Yet they show one list:
the decoded segments, taken up token by token.

- `Shows`: the views of a path that holds some segments, none of which cuts the text inside a character;
- `shows_load`: a loaded path shows its segments, and `pop?_load`: no `..` on the way there fails to cut the text;
- `tokens_cut`: the tokens are what stands between the slashes before the first `?`;
- `load_exactly`: all of it, for every path, earlier content and way of cleaning.
-/

namespace Switchyard.Path

/-- The views of a path that holds these segments. -/
structure Shows (p : Path) (segments : List String) : Prop where
  length : p.length = segments.length
  text : p.text = textOf segments
  slices : p.spans.map p.slice? = segments.map some
  segment? : ∀ i, p.segment? i = segments[i]?
  segmentsFrom : ∀ i, p.segmentsFrom i = segments.drop i
  front : ∀ k ≤ segments.length, p.front k = textOf (segments.take k)
  front? : ∀ i span, p.spans[i]? = some span → p.slice? ⟨0, span.stop⟩ = some (textOf (segments.take (i + 1)))
  tail? : ∀ i, p.slice? ⟨p.tailStart i, p.size⟩ = some ("/".intercalate (segments.drop i))

/-- A loaded path shows the segments of the path that was loaded. -/
theorem shows_load (p : Path) (clean : Bool) (text : String) : (p.load clean text).Shows (segmentsOf clean text) where
  length := length_load p clean text
  text := text_load p clean text
  slices := slices_load p clean text
  segment? := segment?_load p clean text
  segmentsFrom := segmentsFrom_load p clean text
  front _ := front_load p clean
  front? _ _ := front?_load p clean
  tail? := tail?_load p clean text

/-- However many tokens were taken up, the last segment can be taken away again: that leaves the path of the others. -/
theorem pop?_load (p : Path) (clean : Bool) (read : List (List Char)) :
    (read.foldl (step clean) p.clear).pop? = some (ofSegments (read.foldl (takeUp clean) []).dropLast) := by
  have hread : read.foldl (step clean) p.clear = ofSegments (read.foldl (takeUp clean) []) :=
    foldl_step_ofSegments clean read []
  rw [hread, pop?_ofSegments]

/-- The tokens of a request path are what the slashes before the first `?` separate. -/
theorem tokens_cut (text : String) : (∀ token ∈ tokens text, '/' ∉ token ∧ '?' ∉ token) ∧
    ∃ query, text.toList = ['/'].intercalate (tokens text) ++ query ∧ (query = [] ∨ query.head? = some '?') := by
  obtain ⟨hfree, hwhole⟩ := Text.splitFirst_eq '?' text.toList
  refine ⟨fun token htoken => ⟨Text.splitOn_free '/' _ token htoken, fun hmark => ?_⟩,
    (Text.splitFirst '?' text.toList).2.elim [] ('?' :: ·), ?_, ?_⟩
  · exact hfree (Text.mem_of_mem_splitOn htoken hmark)
  · rw [tokens, Text.intercalate_splitOn]
    exact hwhole
  · cases (Text.splitFirst '?' text.toList).2 with
    | none => exact .inl rfl
    | some query => exact .inr rfl

/-- **Loading, view by view.** Whatever a path held before, after loading it is the same path and shows the segments of
what was loaded in every view. The segments are the tokens between the slashes before the first `?`, each taken up by
the text its bytes spell or, if they spell none, as it is written; taking the last one away is possible at every point
of it. -/
theorem load_exactly (p : Path) (clean : Bool) (text : String) :
    ((p.load clean text).Shows (segmentsOf clean text) ∧ ∀ q : Path, q.load clean text = p.load clean text) ∧
    (∀ read rest, tokens text = read ++ rest →
      (read.foldl (step clean) p.clear).pop? = some (ofSegments (read.foldl (takeUp clean) []).dropLast)) ∧
    (∀ token ∈ tokens text, '/' ∉ token ∧ '?' ∉ token) ∧
    (∃ query, text.toList = ['/'].intercalate (tokens text) ++ query ∧ (query = [] ∨ query.head? = some '?')) ∧
    ∀ token ∈ tokens text, ∀ segment, Text.Percent.decode token = segment ↔
      Text.Utf8.encode segment = Text.Percent.bytes token ∨
        (∀ cs, Text.Utf8.encode cs ≠ Text.Percent.bytes token) ∧ segment = token :=
  ⟨⟨shows_load p clean text, fun _ => rfl⟩, fun read _ _ => pop?_load p clean read, (tokens_cut text).1,
    (tokens_cut text).2, fun _ _ _ => Text.Percent.decode_eq_iff⟩

/-- Escapes of two bytes, of a slash and of no text; empty, dot and double-dot tokens; a query with a slash. -/
theorem load_exactly_dots : ∃ p : Path, p = empty.load true "/a/%C3%A9/./x%2Fy/..//../b%FF/c%2Fd?e=/f" ∧
    p.Shows ["a", "b%FF", "c/d"] ∧ p.front 2 = "/a/b%FF" ∧
    p.slice? ⟨p.tailStart 1, p.size⟩ = some "b%FF/c/d" ∧
    p = (empty.load false "/%2e%2e/..").load true "/a/%C3%A9/./x%2Fy/..//../b%FF/c%2Fd?e=/f" := by
  obtain ⟨hshows, hsame⟩ := (load_exactly empty true "/a/%C3%A9/./x%2Fy/..//../b%FF/c%2Fd?e=/f").1
  have hsegments : segmentsOf true "/a/%C3%A9/./x%2Fy/..//../b%FF/c%2Fd?e=/f" = ["a", "b%FF", "c/d"] := by decide
  rw [hsegments] at hshows
  exact ⟨_, rfl, hshows, hshows.front 2 (by decide), hshows.tail? 1, (hsame _).symm⟩

end Switchyard.Path
