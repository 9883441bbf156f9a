import Switchyard.Proofs.Router.Fit

/-!
# Which patterns compile

A token with `*` in front stands for a wildcard, and one with `:` or `*` is dynamic. A pattern may be read token by
token: literals go to the stem until the first dynamic token comes, and from there on every token goes to the segments
(`Reading`).

- what is read of a row is known from the row alone (`Reading.of`): one more token keeps this (`Reading.read_of`), and
  so do all of them (`Reading.foldl_read`), so that compiling is reading all tokens and looking at the wildcards then
  (`compile_eq_finish`);
- a pattern spells the tokens that it was compiled from, and no other (`Spells`, `spells_of_compile`), and whether it
  compiles hangs on its starred tokens only (`compiled_exactly`).
-/

namespace Switchyard

namespace Pattern

/-! ## Signs of tokens -/

/-- A token that begins with `*`. -/
def isStarred (token : List Char) : Bool :=
  token.head? == some '*'

/-- A token that begins with `:` or `*`. -/
def isSigned (token : List Char) : Bool :=
  token.head? == some ':' || token.head? == some '*'

theorem isWildcard_ofToken (token : List Char) : (Segment.ofToken token).isWildcard = isStarred token := by
  unfold Segment.ofToken
  split
  · simp [Segment.isWildcard, isStarred]
  · simp [Segment.isWildcard, isStarred]
  · rename_i hstar
    cases token with
    | nil => rfl
    | cons c rest => simpa [Segment.isWildcard, isStarred] using fun hc => hstar rest (by rw [hc])

theorem isDynamic_ofToken (token : List Char) : (Segment.ofToken token).isDynamic = isSigned token := by
  unfold Segment.ofToken
  split
  · simp [Segment.isDynamic, Segment.isLiteral, isSigned]
  · simp [Segment.isDynamic, Segment.isLiteral, isSigned]
  · rename_i hcolon hstar
    cases token with
    | nil => rfl
    | cons c rest =>
      simpa [Segment.isDynamic, Segment.isLiteral, isSigned] using
        ⟨fun hc => hcolon rest (by rw [hc]), fun hc => hstar rest (by rw [hc])⟩

/-- A token is shown as it was written. -/
theorem token_ofToken (token : List Char) : (Segment.ofToken token).token.toList = token := by
  unfold Segment.ofToken
  split <;> simp [Segment.token]

theorem isLiteral_ofToken (token : List Char) : (Segment.ofToken token).isLiteral = !isSigned token := by
  rw [← isDynamic_ofToken, Segment.isDynamic, Bool.not_not]

/-! ## Reading token by token -/

/-- What is known of a pattern when some of its tokens are read. -/
structure Reading where
  stem : String := ""
  segments : List Segment := []
  wildcards : Nat := 0

namespace Reading

/-- Reads a token: a literal goes to the stem as long as there is no segment. -/
def read (d : Reading) (token : List Char) : Reading :=
  let s := Segment.ofToken token
  if d.segments.isEmpty && s.isLiteral then { d with stem := d.stem ++ ("/" ++ .ofList token) }
  else
    { d with
      segments := d.segments ++ [s]
      wildcards := if s.isWildcard then d.wildcards + 1 else d.wildcards }

/-- The pattern of what was read, unless there are too many wildcards or one that is not the last segment. -/
def finish (raw : String) (d : Reading) : Except RouteError Pattern :=
  if ¬ d.wildcards ≤ 1 then .error (.tooManyWildcards raw)
  else if ¬ (d.wildcards = 0 ∨ d.segments.getLast?.any Segment.isWildcard = true) then .error (.wildcardNotLast raw)
  else .ok ⟨raw, if d.stem.isEmpty then "/" else d.stem, d.segments⟩

/-- What is known when a row is read. -/
def of (row : List Segment) : Reading where
  stem := String.join ((row.takeWhile Segment.isLiteral).map fun s => "/" ++ s.token)
  segments := row.dropWhile Segment.isLiteral
  wildcards := row.countP Segment.isWildcard

/-- As long as a row has only literals every token goes to the stem; once it has a dynamic one, none does. -/
theorem of_concat (row : List Segment) (s : Segment) : of (row ++ [s]) =
    if (of row).segments.isEmpty && s.isLiteral then { of row with stem := (of row).stem ++ ("/" ++ s.token) }
    else
      { of row with
        segments := (of row).segments ++ [s]
        wildcards := if s.isWildcard then (of row).wildcards + 1 else (of row).wildcards } := by
  have hwildcards : (row ++ [s]).countP Segment.isWildcard =
      if s.isWildcard then row.countP Segment.isWildcard + 1 else row.countP Segment.isWildcard := by
    cases hs : s.isWildcard <;> simp [List.countP_append, hs]
  have hsplit := List.takeWhile_append_dropWhile (p := Segment.isLiteral) (l := row)
  by_cases hnil : row.dropWhile Segment.isLiteral = []
  · have hall : ∀ x ∈ row, x.isLiteral = true := by simpa using hnil
    rw [hnil, List.append_nil] at hsplit
    have htake : (row ++ [s]).takeWhile Segment.isLiteral = row ++ [s].takeWhile Segment.isLiteral :=
      List.takeWhile_append_of_pos hall
    have hdrop : (row ++ [s]).dropWhile Segment.isLiteral = [s].dropWhile Segment.isLiteral :=
      List.dropWhile_append_of_pos hall
    cases hs : s.isLiteral with
    | true =>
      have hplain : s.isWildcard = false := by
        cases s with
        | wildcard name => cases hs
        | _ => rfl
      simp [of, htake, hdrop, hsplit, hnil, hs, hwildcards, hplain, String.join_append]
    | false => simp [of, htake, hdrop, hsplit, hnil, hs, hwildcards]
  · have htake : (row ++ [s]).takeWhile Segment.isLiteral = row.takeWhile Segment.isLiteral := by
      rw [List.takeWhile_append, if_neg]
      intro hlen
      have hsum := congrArg List.length hsplit
      rw [List.length_append] at hsum
      exact hnil (List.eq_nil_of_length_eq_zero (by omega))
    have hdrop : (row ++ [s]).dropWhile Segment.isLiteral = row.dropWhile Segment.isLiteral ++ [s] := by
      rw [List.dropWhile_append, if_neg (by simpa using hnil)]
    simp [of, htake, hdrop, hwildcards, hnil]

/-- **One more token keeps what is known of a row.** -/
theorem read_of (row : List Segment) (token : List Char) :
    (of row).read token = of (row ++ [Segment.ofToken token]) := by
  have htoken : String.ofList token = (Segment.ofToken token).token := by
    rw [← String.toList_inj, String.toList_ofList, token_ofToken]
  rw [of_concat, read, htoken]

/-- What is read of some tokens is what is known of their row. -/
theorem foldl_read (tokens : List (List Char)) : tokens.foldl read {} = of (tokens.map Segment.ofToken) := by
  have hfold : ∀ (tokens : List (List Char)) (row : List Segment),
      tokens.foldl read (of row) = of (row ++ tokens.map Segment.ofToken) := by
    intro tokens
    induction tokens with
    | nil => intro row; simp
    | cons token tokens ih =>
      intro row
      rw [List.foldl_cons, read_of, ih, List.map_cons, List.append_assoc]
      rfl
  exact hfold tokens []

end Reading

/-! ## What is dropped and kept in front -/

section Rows

variable {β : Type} {p q : β → Bool}

/-- What is counted is all behind the front, if nothing in front counts. -/
theorem countP_dropWhile (h : ∀ x, q x = true → p x = false) (xs : List β) : (xs.dropWhile p).countP q = xs.countP q := by
  induction xs with
  | nil => rfl
  | cons x xs ih =>
    rw [List.dropWhile_cons]
    split
    · rename_i hp
      have hq : ¬ q x = true := fun hq => by simp [h x hq] at hp
      rw [ih, List.countP_cons_of_neg hq]
    · rfl

/-- The last member is behind the front, if nothing like it is in front. -/
theorem any_getLast?_dropWhile (h : ∀ x, q x = true → p x = false) (xs : List β) :
    (xs.dropWhile p).getLast?.any q = xs.getLast?.any q := by
  rcases List.eq_nil_or_concat xs with rfl | ⟨init, x, rfl⟩
  · rfl
  · rw [List.concat_eq_append, List.getLast?_concat, List.dropWhile_append]
    split
    · cases hp : p x with
      | true =>
        have hq : q x = false := Bool.eq_false_iff.2 fun hq => by simp [h x hq] at hp
        simp [hp, hq]
      | false => simp [hp]
    · rw [List.getLast?_concat]

end Rows

/-! ## Compiling is reading -/

theorem countP_row_dropWhile (row : List Segment) :
    (row.dropWhile Segment.isLiteral).countP Segment.isWildcard = row.countP Segment.isWildcard := by
  refine countP_dropWhile (fun s hs => ?_) row
  cases s with
  | wildcard name => rfl
  | _ => cases hs

theorem stemOf_eq_stem (row : List Segment) : stemOf (row.takeWhile Segment.isLiteral) =
    if (Reading.of row).stem.isEmpty then "/" else (Reading.of row).stem := by
  cases hlead : row.takeWhile Segment.isLiteral with
  | nil => simp [stemOf, Reading.of, hlead]
  | cons s lead =>
    have hne : (Reading.of row).stem.isEmpty = false := by
      rw [Bool.eq_false_iff, ne_eq, String.isEmpty_iff, Reading.of, hlead, List.map_cons, String.join_cons]
      intro he
      have hchars := congrArg String.toList he
      simp at hchars
    rw [hne, Reading.of, hlead]
    rfl

/-- **Compiling is reading all tokens**, one after the other, and then looking at the wildcards among the segments. -/
theorem compile_eq_finish (raw : String) : compile raw = ((tokens raw).foldl Reading.read {}).finish raw := by
  rw [Reading.foldl_read]
  show compile raw = (Reading.of (row raw)).finish raw
  have hcompile : compile raw =
      if 1 < (row raw).countP Segment.isWildcard then .error (.tooManyWildcards raw)
      else if (row raw).countP Segment.isWildcard = 1 &&
          !((row raw).dropWhile Segment.isLiteral).getLast?.any Segment.isWildcard then .error (.wildcardNotLast raw)
      else .ok ⟨raw, stemOf ((row raw).takeWhile Segment.isLiteral), (row raw).dropWhile Segment.isLiteral⟩ := by
    rw [← countP_row_dropWhile (row raw)]
    rfl
  rw [hcompile, stemOf_eq_stem, Reading.finish]
  show _ = if ¬ (row raw).countP Segment.isWildcard ≤ 1 then _ else
    if ¬ ((row raw).countP Segment.isWildcard = 0 ∨
      ((row raw).dropWhile Segment.isLiteral).getLast?.any Segment.isWildcard = true) then _ else _
  by_cases hfew : (row raw).countP Segment.isWildcard ≤ 1
  · rw [if_neg (Nat.not_lt.2 hfew), if_neg (not_not.2 hfew)]
    refine ite_congr (propext ?_) (fun _ => rfl) fun _ => rfl
    rw [Bool.and_eq_true, decide_eq_true_iff, Bool.not_eq_true', not_or, Bool.not_eq_true]
    exact and_congr_left fun _ => by omega
  · rw [if_pos (Nat.lt_of_not_le hfew), if_pos hfew]

/-! ## What compiles, and to what -/

theorem countP_row (raw : String) : (row raw).countP Segment.isWildcard = (tokens raw).countP isStarred := by
  rw [row, List.countP_map]
  exact congrArg (List.countP · (tokens raw)) (funext isWildcard_ofToken)

theorem getLast?_row (raw : String) :
    ((row raw).dropWhile Segment.isLiteral).getLast?.any Segment.isWildcard = (tokens raw).getLast?.any isStarred := by
  rw [any_getLast?_dropWhile, row, List.getLast?_map, Option.any_map]
  · exact congrArg (Option.any · (tokens raw).getLast?) (funext isWildcard_ofToken)
  · intro s hs
    cases s with
    | wildcard name => rfl
    | _ => cases hs

theorem takeWhile_row (raw : String) :
    (row raw).takeWhile Segment.isLiteral = ((tokens raw).takeWhile (!isSigned ·)).map Segment.ofToken := by
  rw [row, List.takeWhile_map]
  exact congrArg (fun p => ((tokens raw).takeWhile p).map Segment.ofToken) (funext isLiteral_ofToken)

theorem dropWhile_row (raw : String) :
    (row raw).dropWhile Segment.isLiteral = ((tokens raw).dropWhile (!isSigned ·)).map Segment.ofToken := by
  rw [row, List.dropWhile_map]
  exact congrArg (fun p => ((tokens raw).dropWhile p).map Segment.ofToken) (funext isLiteral_ofToken)

/-- The literal tokens in front are the text of the stem. -/
theorem stemOf_row (raw : String) : stemOf ((row raw).takeWhile Segment.isLiteral) =
    Path.textOf (((tokens raw).takeWhile (!isSigned ·)).map String.ofList) := by
  rw [stemOf_eq, takeWhile_row, List.map_map]
  refine congrArg Path.textOf (List.map_congr_left fun token _ => ?_)
  rw [← String.toList_inj, String.toList_ofList, Function.comp_apply, token_ofToken]

/-- What comes of a text hangs on its starred tokens: there are too many, or there is one that is not the last, or it
compiles. -/
theorem compile_cases (raw : String) :
    (2 ≤ (tokens raw).countP isStarred ∧ compile raw = .error (.tooManyWildcards raw)) ∨
    (((tokens raw).countP isStarred = 1 ∧ (tokens raw).getLast?.any isStarred = false) ∧
      compile raw = .error (.wildcardNotLast raw)) ∨
    (((tokens raw).countP isStarred = 0 ∨
        (tokens raw).countP isStarred = 1 ∧ (tokens raw).getLast?.any isStarred = true) ∧
      compile raw = .ok ⟨raw, Path.textOf (((tokens raw).takeWhile (!isSigned ·)).map String.ofList),
        ((tokens raw).dropWhile (!isSigned ·)).map Segment.ofToken⟩) := by
  have hrow : (tokens raw).map Segment.ofToken = row raw := rfl
  have hsegments : (Reading.of (row raw)).segments = (row raw).dropWhile Segment.isLiteral := rfl
  have hwildcards : (Reading.of (row raw)).wildcards = (tokens raw).countP isStarred := countP_row raw
  rw [compile_eq_finish, Reading.foldl_read, hrow, Reading.finish, ← stemOf_eq_stem, hsegments, hwildcards,
    getLast?_row, stemOf_row, dropWhile_row]
  by_cases hmany : 2 ≤ (tokens raw).countP isStarred
  · exact .inl ⟨hmany, if_pos (by omega)⟩
  · rw [if_neg (not_not.2 (by omega))]
    cases hlast : (tokens raw).getLast?.any isStarred with
    | true => exact .inr (.inr ⟨by simp only [and_true]; omega, if_neg (not_not.2 (.inr rfl))⟩)
    | false =>
      by_cases hone : (tokens raw).countP isStarred = 1
      · exact .inr (.inl ⟨⟨hone, rfl⟩, if_pos (by simp [hone])⟩)
      · have hzero : (tokens raw).countP isStarred = 0 := by omega
        exact .inr (.inr ⟨.inl hzero, if_neg (not_not.2 (.inl hzero))⟩)

/-- A pattern spells a text: it keeps it as it was written, the pieces of its stem and its segments are the tokens of
the text, the stem has the literal tokens in front, and the segments begin with the first dynamic one. -/
structure Spells (p : Pattern) (text : String) : Prop where
  raw : p.raw = text
  pieces : Text.pieces '/' p.stem.toList ++ p.segments.map (·.token.toList) = tokens text
  stem : p.stem = Path.textOf (((tokens text).takeWhile (!isSigned ·)).map String.ofList)
  segments : p.segments = ((tokens text).dropWhile (!isSigned ·)).map Segment.ofToken
  dynamicCount : p.dynamicCount = (tokens text).countP isSigned
  wildcardPosition : ∀ i, p.wildcardPosition = some i ↔
    i + 1 = p.segments.length ∧ (tokens text).getLast?.any isStarred = true

/-- **What a text compiles to spells it.** -/
theorem spells_of_compile {raw : String} {p : Pattern} (h : compile raw = .ok p) : p.Spells raw := by
  obtain rfl : p = ⟨raw, Path.textOf (((tokens raw).takeWhile (!isSigned ·)).map String.ofList),
      ((tokens raw).dropWhile (!isSigned ·)).map Segment.ofToken⟩ := by
    rcases compile_cases raw with ⟨-, hc⟩ | ⟨-, hc⟩ | ⟨-, hc⟩
    · cases hc.symm.trans h
    · cases hc.symm.trans h
    · exact (Except.ok.inj (hc.symm.trans h)).symm
  have htexts : ∀ s ∈ ((tokens raw).takeWhile (!isSigned ·)).map String.ofList, s ≠ "" ∧ '/' ∉ s.toList := by
    intro s hs
    obtain ⟨token, htoken, rfl⟩ := List.mem_map.1 hs
    have hmem := (List.takeWhile_sublist _).subset htoken
    rw [String.toList_ofList]
    exact ⟨fun he => Text.ne_nil_of_mem_pieces hmem (String.ofList_eq_empty_iff.1 he),
      Text.splitOn_free '/' raw.toList token (List.mem_filter.1 hmem).1⟩
  refine ⟨rfl, ?_, rfl, rfl, ?_, fun i => ?_⟩
  · have hstem : (((tokens raw).takeWhile (!isSigned ·)).map String.ofList).map String.toList =
        (tokens raw).takeWhile (!isSigned ·) := by simp
    have hsegments : (((tokens raw).dropWhile (!isSigned ·)).map Segment.ofToken).map (·.token.toList) =
        (tokens raw).dropWhile (!isSigned ·) := by simp [Function.comp_def, token_ofToken]
    rw [Path.pieces_textOf, Path.pieces_joined htexts, hstem, hsegments, List.takeWhile_append_dropWhile]
  · rw [dynamicCount, List.countP_map, show Segment.isDynamic ∘ Segment.ofToken = isSigned from funext isDynamic_ofToken]
    exact countP_dropWhile (fun token htoken => by rw [htoken]; rfl) (tokens raw)
  · rw [wildcardPosition, ← dropWhile_row, getLast?_row]
    split
    · rename_i hlast
      have hne : (row raw).dropWhile Segment.isLiteral ≠ [] := by
        intro hnil
        rw [← getLast?_row, hnil] at hlast
        cases hlast
      have hpos := List.length_pos_iff.2 hne
      simp only [Option.some.injEq, hlast, and_true]
      omega
    · rename_i hlast
      simp [hlast]

/-- **What compiles is told by the starred tokens, and nothing is lost.** For any text,

- two starred tokens are too many, one has to be the last token, and nothing else is refused;
- what the text compiles to spells it, and any other text with the same tokens compiles to the same;
- compiling is reading the tokens one after the other, and looking at the wildcards then. -/
theorem compiled_exactly (raw : String) :
    (compile raw = .error (.tooManyWildcards raw) ↔ 2 ≤ (tokens raw).countP isStarred) ∧
    (compile raw = .error (.wildcardNotLast raw) ↔
      (tokens raw).countP isStarred = 1 ∧ (tokens raw).getLast?.any isStarred = false) ∧
    ((∃ p, compile raw = .ok p) ↔ (tokens raw).countP isStarred = 0 ∨
      (tokens raw).countP isStarred = 1 ∧ (tokens raw).getLast?.any isStarred = true) ∧
    (∀ p, compile raw = .ok p → p.Spells raw ∧
      ∀ other, tokens other = tokens raw → compile other = .ok { p with raw := other }) ∧
    compile raw = ((tokens raw).foldl Reading.read {}).finish raw := by
  have hsame : ∀ p, compile raw = .ok p → ∀ other, tokens other = tokens raw →
      compile other = .ok { p with raw := other } := by
    intro p hp other hother
    have hcases := compile_cases other
    rw [hother] at hcases
    rcases compile_cases raw with ⟨hn, hc⟩ | ⟨hn, hc⟩ | ⟨hn, hc⟩
    · cases hc.symm.trans hp
    · cases hc.symm.trans hp
    · obtain rfl := Except.ok.inj (hc.symm.trans hp)
      rcases hcases with ⟨hn', -⟩ | ⟨⟨hn', hlast⟩, -⟩ | ⟨-, hc'⟩
      · omega
      · rw [hlast, hn'] at hn
        simp at hn
      · exact hc'
  rw [← and_assoc, ← and_assoc]
  refine ⟨?_, fun p hp => ⟨spells_of_compile hp, hsame p hp⟩, compile_eq_finish raw⟩
  rcases compile_cases raw with ⟨hmany, hc⟩ | ⟨⟨hone, hlast⟩, hc⟩ | ⟨hfew, hc⟩
  · rw [hc]
    refine ⟨⟨iff_of_true rfl hmany, iff_of_false nofun ?_⟩, iff_of_false nofun ?_⟩ <;> omega
  · rw [hc]
    refine ⟨⟨iff_of_false nofun ?_, iff_of_true rfl ⟨hone, hlast⟩⟩, iff_of_false nofun ?_⟩
    · omega
    · rintro (hzero | ⟨-, hlast'⟩)
      · omega
      · cases hlast.symm.trans hlast'
  · rw [hc]
    refine ⟨⟨iff_of_false nofun ?_, iff_of_false nofun ?_⟩, iff_of_true ⟨_, rfl⟩ hfew⟩
    · omega
    · rintro ⟨hone, hlast⟩
      rcases hfew with hzero | ⟨-, hlast'⟩
      · omega
      · cases hlast.symm.trans hlast'

/-- Blanks between slashes, a colon at an end and a literal behind a parameter: nothing of it is lost. -/
theorem compiled_exactly_slashes : ∃ p, compile "//a/b:/:x//c/*rest/" = .ok p ∧ p.Spells "//a/b:/:x//c/*rest/" ∧
    compile "a/b:/:x/c/*rest" = .ok { p with raw := "a/b:/:x/c/*rest" } := by
  obtain ⟨hspells, hsame⟩ := (compiled_exactly "//a/b:/:x//c/*rest/").2.2.2.1 _ rfl
  exact ⟨_, rfl, hspells, hsame _ rfl⟩

end Pattern

end Switchyard
