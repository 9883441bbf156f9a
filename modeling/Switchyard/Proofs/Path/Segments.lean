import Mathlib.Data.List.Induction
import Switchyard.Path

/-!
# The segments of a path

A loaded path is nothing but its decoded segments: `segmentsOf` finds them without any text or span, and loading
joins them (`load_eq`). So the views of a loaded path are views of that list, and none of them cuts the text inside a
character.

- `length_load` and `segmentsFrom_load`: how many segments there are, and those from a place on;
- `text_load` and `tail_load`: the text, and its tail from a segment on;
- `front_load`: the text of the first ones, which no two numbers of segments share (`textOf_take_inj`);
- `lt_size_of_lengthWithin`: the fronts that are left out for being too long are too long;
- `textOf_inj`: segments that hold no slash are the pieces of their text (`pieces_joined`).
-/

namespace Switchyard.Path

/-! ## Segments and their text -/

/-- Takes up one token in a list of segments. -/
def takeUp (clean : Bool) (segments : List String) (token : List Char) : List String :=
  let segment := Text.Percent.decode token
  if segment.isEmpty then segments
  else if clean && segment == ['.'] then segments
  else if clean && segment == ['.', '.'] then segments.dropLast
  else segments ++ [.ofList segment]

/-- The decoded segments of a request path. -/
def segmentsOf (clean : Bool) (text : String) : List String :=
  (tokens text).foldl (takeUp clean) []

/-- Segments with a slash before each. -/
def joined (segments : List String) : List Char :=
  segments.flatMap fun s => '/' :: s.toList

/-- The text of some segments; that of none is a lone slash. -/
def textOf (segments : List String) : String :=
  if segments.isEmpty then "/" else String.join (segments.map fun s => "/" ++ s)

/-- The path of some segments. -/
def ofSegments (segments : List String) : Path :=
  segments.foldl (fun p s => p.push s.toList) empty

variable {segments : List String}

theorem joined_cons (s : String) (rest : List String) : joined (s :: rest) = '/' :: (s.toList ++ joined rest) := rfl

theorem joined_append (as bs : List String) : joined (as ++ bs) = joined as ++ joined bs :=
  List.flatMap_append

theorem toList_textOf (h : segments ≠ []) : (textOf segments).toList = joined segments := by
  have hs : ∀ s : String, ("/" ++ s).toList = '/' :: s.toList := fun s => by rw [String.toList_append]; rfl
  rw [textOf, if_neg (by simpa using h), String.toList_join, List.flatMap_map, joined]
  simp only [hs]

/-- What is taken up is not empty and, with cleaning, no dot segment. -/
theorem mem_takeUp {clean : Bool} {token : List Char} {s : String} (hs : s ∈ takeUp clean segments token) :
    s ∈ segments ∨ (s ≠ "" ∧ (clean = true → s ≠ "." ∧ s ≠ "..")) := by
  unfold takeUp at hs
  dsimp only at hs
  split at hs
  · exact .inl hs
  · rename_i hempty
    split at hs
    · exact .inl hs
    · rename_i hdot
      split at hs
      · exact .inl (List.dropLast_subset segments hs)
      · rename_i hdots
        refine (List.mem_append.1 hs).imp_right fun hs => ?_
        obtain rfl := List.mem_singleton.1 hs
        have hsegment : ∀ t : String, .ofList (Text.Percent.decode token) = t → Text.Percent.decode token = t.toList :=
          fun t ht => by rw [← ht, String.toList_ofList]
        refine ⟨fun he => hempty ?_, fun hclean => ⟨fun he => hdot ?_, fun he => hdots ?_⟩⟩
        · rw [hsegment _ he]
          rfl
        · rw [hsegment _ he, hclean]
          rfl
        · rw [hsegment _ he, hclean]
          rfl

/-- What holds of all that is taken up holds of the segments of a path. -/
theorem forall_segmentsOf {clean : Bool} {P : String → Prop}
    (h : ∀ s, s ≠ "" → (clean = true → s ≠ "." ∧ s ≠ "..") → P s) (text : String) :
    ∀ s ∈ segmentsOf clean text, P s := by
  have hfold : ∀ (ts : List (List Char)) (segments : List String), (∀ s ∈ segments, P s) →
      ∀ s ∈ ts.foldl (takeUp clean) segments, P s := by
    intro ts
    induction ts with
    | nil => exact fun _ hall => hall
    | cons token ts ih =>
      exact fun segments hall => ih _ fun s hs => (mem_takeUp hs).elim (hall s) fun hnew => h s hnew.1 hnew.2
  exact hfold (tokens text) [] fun s hs => absurd hs List.not_mem_nil

/-- No segment is empty. -/
theorem segmentsOf_ne_empty (clean : Bool) (text : String) : ∀ s ∈ segmentsOf clean text, s ≠ "" :=
  forall_segmentsOf (fun _ hne _ => hne) text

/-! ## Loading joins the segments -/

theorem ofSegments_concat (segments : List String) (s : String) :
    ofSegments (segments ++ [s]) = (ofSegments segments).push s.toList := by
  rw [ofSegments, List.foldl_append]
  rfl

theorem chars_ofSegments (segments : List String) : (ofSegments segments).chars = joined segments := by
  induction segments using List.reverseRecOn with
  | nil => rfl
  | append_singleton segments s ih =>
    rw [ofSegments_concat, joined_append, push, ih]
    simp [joined]

theorem length_spans_ofSegments (segments : List String) : (ofSegments segments).spans.length = segments.length := by
  induction segments using List.reverseRecOn with
  | nil => rfl
  | append_singleton segments s ih => rw [ofSegments_concat, push]; simp [ih]

/-- The span of a segment lies behind the segments before it and a slash. -/
theorem spans_ofSegments (segments : List String) (i : Nat) : (ofSegments segments).spans[i]? =
    segments[i]?.map fun s =>
      let start := Text.Utf8.size (joined (segments.take i)) + 1
      ⟨start, start + Text.Utf8.size s.toList⟩ := by
  induction segments using List.reverseRecOn with
  | nil => rfl
  | append_singleton segments s ih =>
    rw [ofSegments_concat, push]
    dsimp only
    rcases Nat.lt_trichotomy i segments.length with hi | rfl | hi
    · rw [List.getElem?_append_left (by rwa [length_spans_ofSegments]), ih, List.getElem?_append_left hi,
        List.take_append_of_le_length (Nat.le_of_lt hi)]
    · rw [List.getElem?_append_right (Nat.le_of_eq (length_spans_ofSegments segments)), length_spans_ofSegments,
        List.getElem?_append_right (Nat.le_refl _), List.take_left, chars_ofSegments, Nat.sub_self]
      rfl
    · rw [List.getElem?_eq_none (by simp [length_spans_ofSegments]; omega), List.getElem?_eq_none (by simp; omega)]
      rfl

/-- The text can be cut before the last slash: what is left is the path of the other segments. -/
theorem pop?_ofSegments (segments : List String) :
    (ofSegments segments).pop? = some (ofSegments segments.dropLast) := by
  induction segments using List.reverseRecOn with
  | nil => rfl
  | append_singleton segments s _ =>
    rw [List.dropLast_concat, ofSegments_concat, push, pop?]
    dsimp only
    rw [List.getLast?_concat]
    dsimp only
    rw [if_neg (Nat.succ_ne_zero _), Nat.add_sub_cancel, Text.takeBytes?_size, List.dropLast_concat]
    rfl

theorem pop_ofSegments (segments : List String) : (ofSegments segments).pop = ofSegments segments.dropLast := by
  rw [pop, pop?_ofSegments]
  rfl

theorem step_ofSegments (clean : Bool) (segments : List String) (token : List Char) :
    (ofSegments segments).step clean token = ofSegments (takeUp clean segments token) := by
  unfold step takeUp
  dsimp only
  split
  · rfl
  · split
    · rfl
    · split
      · exact pop_ofSegments segments
      · rw [ofSegments_concat, String.toList_ofList]

/-- Tokens are taken up one after another, by the path as by the list. -/
theorem foldl_step_ofSegments (clean : Bool) (ts : List (List Char)) (segments : List String) :
    ts.foldl (step clean) (ofSegments segments) = ofSegments (ts.foldl (takeUp clean) segments) := by
  induction ts generalizing segments with
  | nil => rfl
  | cons token ts ih => rw [List.foldl_cons, List.foldl_cons, step_ofSegments, ih]

/-- **Loading joins the decoded segments**, whatever the path held before. -/
theorem load_eq (p : Path) (clean : Bool) (text : String) :
    p.load clean text = (ofSegments (segmentsOf clean text)).rooted :=
  congrArg rooted (foldl_step_ofSegments clean (tokens text) [])

/-! ## Views -/

theorem spans_load (p : Path) (clean : Bool) (text : String) :
    (p.load clean text).spans = (ofSegments (segmentsOf clean text)).spans := by
  rw [load_eq, rooted]
  split <;> rfl

theorem length_load (p : Path) (clean : Bool) (text : String) :
    (p.load clean text).length = (segmentsOf clean text).length := by
  rw [length, spans_load, length_spans_ofSegments]

/-- The text of a path with a segment is that of its segments. -/
theorem chars_load (p : Path) (clean : Bool) {text : String} (h : segmentsOf clean text ≠ []) :
    (p.load clean text).chars = joined (segmentsOf clean text) := by
  rw [load_eq, rooted]
  split
  · rename_i he
    rw [chars_ofSegments] at he
    obtain ⟨s, rest, hs⟩ := List.exists_cons_of_ne_nil h
    rw [hs] at he
    cases he
  · exact chars_ofSegments _

theorem text_load (p : Path) (clean : Bool) (text : String) :
    (p.load clean text).text = textOf (segmentsOf clean text) := by
  by_cases h : segmentsOf clean text = []
  · rw [load_eq, h]
    rfl
  · rw [Path.text, chars_load p clean h, ← toList_textOf h, String.ofList_toList]

/-- A slice between segments: what stands there is cut out. -/
theorem slice?_load (p : Path) (clean : Bool) {text : String} {as bs cs : List Char}
    (h : segmentsOf clean text ≠ []) (hs : joined (segmentsOf clean text) = as ++ (bs ++ cs)) :
    (p.load clean text).slice? ⟨Text.Utf8.size as, Text.Utf8.size as + Text.Utf8.size bs⟩ = some (.ofList bs) := by
  rw [slice?, chars_load p clean h, hs, Text.cut?_append]
  rfl

theorem joined_split {i : Nat} {s : String} (h : segments[i]? = some s) :
    joined segments = (joined (segments.take i) ++ ['/']) ++ (s.toList ++ joined (segments.drop (i + 1))) := by
  obtain ⟨hi, rfl⟩ := List.getElem?_eq_some_iff.1 h
  have hd : segments.drop i = segments[i] :: segments.drop (i + 1) := List.drop_eq_getElem_cons hi
  have hj := joined_append (segments.take i) (segments.drop i)
  rw [List.take_append_drop] at hj
  rw [hj, hd, joined_cons, List.append_assoc]
  rfl

/-- Each span of a loaded path cuts out its segment. -/
theorem slices_load (p : Path) (clean : Bool) (text : String) :
    (p.load clean text).spans.map (p.load clean text).slice? = (segmentsOf clean text).map some := by
  refine List.ext_getElem? fun i => ?_
  rw [List.getElem?_map, List.getElem?_map, spans_load, spans_ofSegments]
  cases hs : (segmentsOf clean text)[i]? with
  | none => rfl
  | some s =>
    have hne : segmentsOf clean text ≠ [] := List.ne_nil_of_mem (List.mem_of_getElem? hs)
    have hcut := slice?_load p clean hne (joined_split hs)
    have hsize : Text.Utf8.size (joined ((segmentsOf clean text).take i) ++ ['/']) =
        Text.Utf8.size (joined ((segmentsOf clean text).take i)) + 1 := Text.Utf8.size_append _ _
    rw [hsize, String.ofList_toList] at hcut
    exact congrArg some hcut

/-- **The segments of a loaded path, from a place on.** -/
theorem segmentsFrom_load (p : Path) (clean : Bool) (text : String) (i : Nat) :
    (p.load clean text).segmentsFrom i = (segmentsOf clean text).drop i := by
  have hslices : (p.load clean text).spans.map (p.load clean text).slice = segmentsOf clean text := by
    have h := congrArg (List.map fun cut : Option String => cut.getD "") (slices_load p clean text)
    rwa [List.map_map, List.map_map, show (fun cut : Option String => cut.getD "") ∘ some = id from rfl,
      List.map_id] at h
  rw [segmentsFrom, List.map_drop, hslices]

theorem segment?_load (p : Path) (clean : Bool) (text : String) (i : Nat) :
    (p.load clean text).segment? i = (segmentsOf clean text)[i]? := by
  have hfrom := congrArg List.head? (segmentsFrom_load p clean text i)
  rwa [segmentsFrom, List.head?_map, List.head?_drop, List.head?_drop] at hfrom

/-! ## Tails -/

/-- A slash between neighbours is a slash before each but the first. -/
theorem toList_intercalate_cons (s : String) (rest : List String) :
    ("/".intercalate (s :: rest)).toList = s.toList ++ joined rest := by
  rw [String.toList_intercalate]
  induction rest generalizing s with
  | nil => simp [joined]
  | cons t rest ih =>
    have hcons : "/".toList.intercalate ((s :: t :: rest).map String.toList) =
        s.toList ++ '/' :: "/".toList.intercalate ((t :: rest).map String.toList) := by
      simp [List.intercalate]
    rw [hcons, ih, joined_cons]

/-- **The tail of a loaded path is its last segments with slashes between them**, and nothing past the end. -/
theorem tail?_load (p : Path) (clean : Bool) (text : String) (i : Nat) :
    (p.load clean text).slice? ⟨(p.load clean text).tailStart i, (p.load clean text).size⟩ =
      some ("/".intercalate ((segmentsOf clean text).drop i)) := by
  have hspan := spans_ofSegments (segmentsOf clean text) i
  rw [← spans_load p] at hspan
  cases hs : (segmentsOf clean text)[i]? with
  | none =>
    rw [hs] at hspan
    have hcut := Text.cut?_append (p.load clean text).chars [] []
    rw [List.append_nil, List.append_nil] at hcut
    rw [tailStart, hspan, List.drop_eq_nil_of_le (List.getElem?_eq_none_iff.1 hs), slice?]
    exact congrArg (Option.map String.ofList) hcut
  | some s =>
    have hne : segmentsOf clean text ≠ [] := List.ne_nil_of_mem (List.mem_of_getElem? hs)
    obtain ⟨hi, hget⟩ := List.getElem?_eq_some_iff.1 hs
    have hdrop : (segmentsOf clean text).drop i = s :: (segmentsOf clean text).drop (i + 1) := by
      rw [← hget]
      exact List.drop_eq_getElem_cons hi
    have hjoined := joined_split hs
    rw [hs] at hspan
    have hstart : (p.load clean text).tailStart i =
        Text.Utf8.size (joined ((segmentsOf clean text).take i) ++ ['/']) := by
      rw [tailStart, hspan, Text.Utf8.size_append]
      rfl
    have hsize : (p.load clean text).size = Text.Utf8.size (joined ((segmentsOf clean text).take i) ++ ['/']) +
        Text.Utf8.size (s.toList ++ joined ((segmentsOf clean text).drop (i + 1))) := by
      rw [size, chars_load p clean hne, hjoined, Text.Utf8.size_append]
    rw [← List.append_nil (s.toList ++ _)] at hjoined
    rw [hstart, hsize, slice?_load p clean hne hjoined, hdrop, ← toList_intercalate_cons, String.ofList_toList]

theorem tail_load (p : Path) (clean : Bool) (text : String) (i : Nat) :
    (p.load clean text).slice ⟨(p.load clean text).tailStart i, (p.load clean text).size⟩ =
      "/".intercalate ((segmentsOf clean text).drop i) := by
  rw [slice, tail?_load]
  rfl

/-! ## Fronts -/

theorem take_succ_ne_nil {i : Nat} (h : i < segments.length) : segments.take (i + 1) ≠ [] := by
  simpa using List.ne_nil_of_length_pos (Nat.zero_lt_of_lt h)

theorem size_joined_take {i : Nat} {s : String} (h : segments[i]? = some s) :
    Text.Utf8.size (joined (segments.take (i + 1))) =
      Text.Utf8.size (joined (segments.take i)) + 1 + Text.Utf8.size s.toList := by
  rw [List.take_add_one, h, joined_append, Text.Utf8.size_append, Nat.add_assoc]
  exact congrArg _ (congrArg (1 + Text.Utf8.size ·) (List.append_nil s.toList))

/-- What stands up to the end of a segment. -/
theorem front?_load (p : Path) (clean : Bool) {text : String} {i : Nat} {span : Text.Span}
    (h : (p.load clean text).spans[i]? = some span) :
    (p.load clean text).slice? ⟨0, span.stop⟩ = some (textOf ((segmentsOf clean text).take (i + 1))) := by
  rw [spans_load, spans_ofSegments] at h
  obtain ⟨s, hs, rfl⟩ := Option.map_eq_some_iff.1 h
  have hne : segmentsOf clean text ≠ [] := List.ne_nil_of_mem (List.mem_of_getElem? hs)
  have hsplit : joined (segmentsOf clean text) =
      [] ++ (joined ((segmentsOf clean text).take (i + 1)) ++ joined ((segmentsOf clean text).drop (i + 1))) := by
    rw [List.nil_append, ← joined_append, List.take_append_drop]
  have hcut := slice?_load p clean hne hsplit
  rw [Text.Utf8.size, Nat.zero_add, size_joined_take hs] at hcut
  rw [hcut, ← toList_textOf (take_succ_ne_nil (List.getElem?_eq_some_iff.1 hs).1), String.ofList_toList]

/-- **The front of a loaded path is the text of its first segments.** -/
theorem front_load (p : Path) (clean : Bool) {text : String} {k : Nat} (hk : k ≤ (segmentsOf clean text).length) :
    (p.load clean text).front k = textOf ((segmentsOf clean text).take k) := by
  cases k with
  | zero => rfl
  | succ i =>
    have hspan := List.getElem?_eq_getElem (l := (p.load clean text).spans) (i := i)
      (by rw [spans_load, length_spans_ofSegments]; exact hk)
    rw [front, hspan]
    exact congrArg (fun cut : Option String => cut.getD "") (front?_load p clean hspan)

theorem size_pos {s : String} (h : s ≠ "") : 0 < Text.Utf8.size s.toList := by
  cases hs : s.toList with
  | nil => exact absurd (String.toList_eq_nil_iff.1 hs) h
  | cons c cs =>
    have := Text.Utf8.width_pos c
    simp only [Text.Utf8.size]
    omega

/-- One segment more makes a front longer. -/
theorem size_textOf_take_lt (hne : ∀ s ∈ segments, s ≠ "") {i j : Nat} (hij : i < j) (hj : j ≤ segments.length) :
    Text.Utf8.size (textOf (segments.take i)).toList < Text.Utf8.size (textOf (segments.take j)).toList := by
  have hstep : ∀ i, i < segments.length →
      Text.Utf8.size (textOf (segments.take i)).toList < Text.Utf8.size (textOf (segments.take (i + 1))).toList := by
    intro i hi
    have hs := List.getElem?_eq_getElem hi
    have hpos := size_pos (hne _ (List.getElem_mem hi))
    rw [toList_textOf (take_succ_ne_nil hi), size_joined_take hs]
    by_cases h0 : segments.take i = []
    · rw [h0]
      show 1 < 0 + 1 + _
      omega
    · rw [toList_textOf h0]
      omega
  induction j with
  | zero => exact absurd hij (Nat.not_lt_zero i)
  | succ j ih =>
    rcases Nat.lt_succ_iff_lt_or_eq.1 hij with h | rfl
    · exact Nat.lt_trans (ih h (Nat.le_of_lt hj)) (hstep j hj)
    · exact hstep i hj

/-- No two fronts have the same text. -/
theorem textOf_take_inj (hne : ∀ s ∈ segments, s ≠ "") {i j : Nat} (hi : i ≤ segments.length)
    (hj : j ≤ segments.length) (h : textOf (segments.take i) = textOf (segments.take j)) : i = j := by
  rcases Nat.lt_trichotomy i j with hlt | heq | hgt
  · have := size_textOf_take_lt hne hlt hj
    rw [h] at this
    omega
  · exact heq
  · have := size_textOf_take_lt hne hgt hi
    rw [h] at this
    omega

/-- The first span that is left out ends too late. -/
theorem lt_stop_of_lengthWithin {p : Path} {bytes n : Nat} {span : Text.Span} (hn : p.lengthWithin bytes = n)
    (h : p.spans[n]? = some span) : bytes < span.stop := by
  subst hn
  have hsplit := List.takeWhile_append_dropWhile (p := fun span : Text.Span => decide (span.stop ≤ bytes))
    (l := p.spans)
  have hhead := List.head?_dropWhile_not (fun span : Text.Span => decide (span.stop ≤ bytes)) p.spans
  rw [← hsplit, lengthWithin, List.getElem?_append_right (Nat.le_refl _), Nat.sub_self, ← List.head?_eq_getElem?] at h
  rw [h] at hhead
  simpa using hhead

/-- A front with more segments than end within some bytes is longer than that. -/
theorem lt_size_of_lengthWithin (p : Path) (clean : Bool) {text : String} {bytes k : Nat}
    (h : (p.load clean text).lengthWithin bytes < k) (hk : k ≤ (segmentsOf clean text).length) :
    bytes < Text.Utf8.size ((p.load clean text).front k).toList := by
  generalize hn : (p.load clean text).lengthWithin bytes = n at h
  have hlt : n < (segmentsOf clean text).length := Nat.lt_of_lt_of_le h hk
  have hs := List.getElem?_eq_getElem hlt
  have hspan := spans_ofSegments (segmentsOf clean text) n
  rw [← spans_load p, hs] at hspan
  have hstop := lt_stop_of_lengthWithin hn hspan
  have hfirst : bytes < Text.Utf8.size (textOf ((segmentsOf clean text).take (n + 1))).toList := by
    rw [toList_textOf (take_succ_ne_nil hlt), size_joined_take hs]
    exact hstop
  rw [front_load p clean hk]
  rcases Nat.lt_or_eq_of_le h with hlt' | rfl
  · exact Nat.lt_trans hfirst (size_textOf_take_lt (segmentsOf_ne_empty clean text) hlt' hk)
  · exact hfirst

/-! ## Texts without other slashes -/

/-- The pieces of joined segments are the segments. -/
theorem pieces_joined {segments : List String} (h : ∀ s ∈ segments, s ≠ "" ∧ '/' ∉ s.toList) :
    Text.pieces '/' (joined segments) = segments.map String.toList := by
  induction segments with
  | nil => rfl
  | cons s rest ih =>
    obtain ⟨hne, hfree⟩ := h s List.mem_cons_self
    have hone : Text.pieces '/' s.toList = [s.toList] := by
      rw [Text.pieces, Text.splitOn_of_free hfree, List.filter_cons_of_pos]
      · rfl
      · simpa using hne
    have hrest := ih fun t ht => h t (List.mem_cons_of_mem s ht)
    rw [joined_cons, Text.pieces_cons_sep, List.map_cons, ← hrest]
    cases rest with
    | nil => rw [joined, List.flatMap_nil, List.append_nil, hone]; rfl
    | cons t rest =>
      rw [joined_cons, Text.pieces_append, Text.pieces_cons_sep, hone]
      rfl

theorem pieces_textOf (segments : List String) :
    Text.pieces '/' (textOf segments).toList = Text.pieces '/' (joined segments) := by
  by_cases h : segments = []
  · rw [h]
    rfl
  · rw [toList_textOf h]

/-- A lone slash is the text of no segment. -/
theorem textOf_ne_root (h : segments ≠ []) (hne : ∀ s ∈ segments, s ≠ "") : textOf segments ≠ "/" := by
  intro he
  have hj := congrArg String.toList he
  rw [toList_textOf h] at hj
  obtain ⟨s, rest, rfl⟩ := List.exists_cons_of_ne_nil h
  have hnil := (List.append_eq_nil_iff.1 (List.cons.inj hj).2).1
  exact hne s List.mem_cons_self (String.toList_eq_nil_iff.1 hnil)

/-- **Segments that are not empty and hold no slash have a text of their own**: they are its pieces. -/
theorem textOf_inj {as bs : List String} (ha : ∀ s ∈ as, s ≠ "" ∧ '/' ∉ s.toList)
    (hb : ∀ s ∈ bs, s ≠ "" ∧ '/' ∉ s.toList) (h : textOf as = textOf bs) : as = bs := by
  have hpieces := congrArg (fun text => Text.pieces '/' text.toList) h
  rw [pieces_textOf, pieces_textOf, pieces_joined ha, pieces_joined hb] at hpieces
  exact (List.map_inj_right fun _ _ => String.toList_inj.1).1 hpieces

end Switchyard.Path
