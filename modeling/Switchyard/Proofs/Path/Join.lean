import Mathlib.Data.List.Chain
import Mathlib.Data.List.Induction
import Switchyard.Group
import Switchyard.Pattern

/-!
# Joined paths

- Collapsing rows of slashes may be done in parts: what was collapsed and is collapsed again together with more comes to
  the same (`collapseSlashes_within`). So does a path that was joined and is joined again (`collapseSlashes_joinPath`),
  and joined paths are tidy (`tidyPath_joinPath`).
- Joining two paths joins their rows of tokens (`tokens_joinPath`): however many slashes either has at its ends or
  inside, no token comes, goes or changes. So the tokens of a route that is registered on a group are those of the
  group's path, followed by those of the path of the route.
-/

namespace Switchyard

open Text (pieces splitOn)

/-! ## Slashes made one -/

@[simp]
theorem collapseSlashes_slash (after : Bool) (cs : List Char) :
    collapseSlashes after ('/' :: cs) = (if after then [] else ['/']) ++ collapseSlashes true cs := rfl

theorem collapseSlashes_cons {c : Char} (hc : c ≠ '/') (after : Bool) (cs : List Char) :
    collapseSlashes after (c :: cs) = c :: collapseSlashes false cs := by
  rw [collapseSlashes, if_neg hc]

/-- What was collapsed may be collapsed again, with more behind it, unless a slash before it was counted the first
time and is not now. -/
theorem collapseSlashes_append_left {a b : Bool} (h : b = true → a = true) (xs ys : List Char) :
    collapseSlashes a (collapseSlashes b xs ++ ys) = collapseSlashes a (xs ++ ys) := by
  induction xs generalizing a b with
  | nil => rfl
  | cons c cs ih =>
    by_cases hc : c = '/'
    · subst hc
      cases b with
      | true =>
        obtain rfl := h rfl
        simpa using ih id
      | false => simpa using ih id
    · simpa [collapseSlashes_cons hc] using ih id

/-- The same behind something else. -/
theorem collapseSlashes_append_right (a : Bool) (xs ys : List Char) :
    collapseSlashes a (xs ++ collapseSlashes false ys) = collapseSlashes a (xs ++ ys) := by
  induction xs generalizing a with
  | nil => simpa using collapseSlashes_append_left (a := a) (b := false) nofun ys []
  | cons c cs ih =>
    by_cases hc : c = '/'
    · subst hc
      simp [ih]
    · simp [collapseSlashes_cons hc, ih]

theorem collapseSlashes_within (xs ys zs : List Char) :
    collapseSlashes false (xs ++ (collapseSlashes false ys ++ zs)) = collapseSlashes false (xs ++ (ys ++ zs)) := by
  rw [← collapseSlashes_append_right, collapseSlashes_append_left id, collapseSlashes_append_right]

theorem collapseSlashes_eq_nil {cs : List Char} (h : collapseSlashes false cs = []) : cs = [] := by
  cases cs with
  | nil => rfl
  | cons c cs =>
    by_cases hc : c = '/'
    · subst hc
      simp at h
    · simp [collapseSlashes_cons hc] at h

/-- No two slashes are neighbours, nor is there one in front where one stands before. -/
theorem isChain_collapseSlashes (after : Bool) (cs : List Char) :
    (collapseSlashes after cs).IsChain (fun c d => c = '/' → d ≠ '/') ∧
      (after = true → ∀ c ∈ (collapseSlashes after cs).head?, c ≠ '/') := by
  induction cs generalizing after with
  | nil => exact ⟨.nil, fun _ _ h => nomatch h⟩
  | cons c cs ih =>
    by_cases hc : c = '/'
    · subst hc
      obtain ⟨hchain, hhead⟩ := ih true
      cases after with
      | true => exact ⟨hchain, hhead⟩
      | false => exact ⟨List.isChain_cons.2 ⟨fun c hc _ => hhead rfl c hc, hchain⟩, nofun⟩
    · simp [collapseSlashes_cons hc, List.isChain_cons, hc, (ih false).1]

/-! ## Slashes in front -/

/-- Empty, or with a slash in front. -/
def Rooted (cs : List Char) : Prop :=
  ∀ c ∈ cs.head?, c = '/'

theorem rooted_leadingSlash (cs : List Char) : Rooted (leadingSlash cs) := by
  unfold leadingSlash
  split <;> simp [Rooted]

theorem leadingSlash_of_rooted {cs : List Char} (h : Rooted cs) : leadingSlash cs = cs := by
  cases cs with
  | nil => rfl
  | cons c cs =>
    obtain rfl := h c rfl
    rfl

theorem Rooted.append {xs ys : List Char} (hxs : Rooted xs) (hys : Rooted ys) : Rooted (xs ++ ys) := by
  cases xs with
  | nil => exact hys
  | cons x xs => exact hxs

theorem Rooted.collapseSlashes {cs : List Char} (h : Rooted cs) : Rooted (collapseSlashes false cs) := by
  cases cs with
  | nil => exact h
  | cons c cs =>
    obtain rfl := h c rfl
    exact h

theorem leadingSlash_eq_nil {cs : List Char} (h : leadingSlash cs = []) : cs = [] := by
  unfold leadingSlash at h
  split at h <;> simp_all

/-! ## What is joined -/

/-- A path that is empty or begins with a slash, and has no two slashes side by side. -/
structure TidyPath (path : String) : Prop where
  rooted : path ≠ "" → path.toList.head? = some '/'
  single : ¬ ['/', '/'] <:+: path.toList

@[simp]
theorem joinPath_empty (base : String) : joinPath base "" = base := rfl

theorem toList_joinPath (base : String) {path : String} (h : path ≠ "") : (joinPath base path).toList =
    collapseSlashes false (leadingSlash base.toList ++ leadingSlash path.toList) := by
  rw [joinPath, if_neg (by simpa using h), String.toList_ofList]

theorem joinPath_ne_empty (base : String) {path : String} (h : path ≠ "") : joinPath base path ≠ "" := by
  intro hnil
  have hchars := toList_joinPath base h
  rw [hnil] at hchars
  have hparts := List.append_eq_nil_iff.1 (collapseSlashes_eq_nil hchars.symm)
  exact h (String.toList_eq_nil_iff.1 (leadingSlash_eq_nil hparts.2))

theorem rooted_join (base path : String) :
    Rooted (collapseSlashes false (leadingSlash base.toList ++ leadingSlash path.toList)) :=
  ((rooted_leadingSlash _).append (rooted_leadingSlash _)).collapseSlashes

/-- In the middle of what is collapsed, joined paths are what they were joined of. -/
theorem collapseSlashes_joinPath (xs : List Char) (base path : String) (ys : List Char) :
    collapseSlashes false (xs ++ (leadingSlash (joinPath base path).toList ++ ys)) =
      collapseSlashes false (xs ++ (leadingSlash base.toList ++ leadingSlash path.toList ++ ys)) := by
  by_cases h : path = ""
  · subst h
    simp [leadingSlash]
  · rw [toList_joinPath base h, leadingSlash_of_rooted (rooted_join base path), collapseSlashes_within]

/-- Joined paths are tidy, whatever they are joined of, if something comes behind the first. -/
theorem tidyPath_joinPath (base : String) {path : String} (h : path ≠ "") : TidyPath (joinPath base path) where
  rooted hne := by
    rw [toList_joinPath base h]
    have hrooted := rooted_join base path
    cases hjoined : collapseSlashes false (leadingSlash base.toList ++ leadingSlash path.toList) with
    | nil => exact absurd (String.toList_eq_nil_iff.1 ((toList_joinPath base h).trans hjoined)) hne
    | cons c cs => exact congrArg some (hrooted c (by rw [hjoined]; rfl))
  single hinfix := by
    obtain ⟨xs, ys, hparts⟩ := hinfix
    have hchain := (isChain_collapseSlashes false (leadingSlash base.toList ++ leadingSlash path.toList)).1
    rw [← toList_joinPath base h, ← hparts] at hchain
    have hpair := (List.isChain_append.1 (List.isChain_append.1 hchain).1).2.1
    simp at hpair

/-! ## Tokens -/

/-- Making every row of slashes one leaves the pieces in between as they are. Within a row the first of them is empty;
where no slash stands before, it stays the first. -/
theorem pieces_collapseSlashes (cs : List Char) :
    pieces '/' (collapseSlashes true cs) = pieces '/' cs ∧
      ∃ first rest rest', splitOn '/' cs = first :: rest ∧ splitOn '/' (collapseSlashes false cs) = first :: rest' ∧
        rest'.filter (!·.isEmpty) = rest.filter (!·.isEmpty) := by
  induction cs with
  | nil => exact ⟨rfl, [], [], [], rfl, rfl, rfl⟩
  | cons c cs ih =>
    obtain ⟨hwithin, first, rest, rest', hfirst, hfirst', hrest⟩ := ih
    by_cases hc : c = '/'
    · subst hc
      refine ⟨?_, [], splitOn '/' cs, splitOn '/' (collapseSlashes true cs), rfl, rfl, hwithin⟩
      rw [Text.pieces_cons_sep]
      exact hwithin
    · have hsplit : splitOn '/' (c :: cs) = (c :: first) :: rest := by
        rw [splitOn, if_neg hc, hfirst]
      have hsplit' : splitOn '/' (c :: collapseSlashes false cs) = (c :: first) :: rest' := by
        rw [splitOn, if_neg hc, hfirst']
      have hcollapse := collapseSlashes_cons hc
      refine ⟨?_, c :: first, rest, rest', hsplit, by rw [hcollapse, hsplit'], hrest⟩
      rw [hcollapse, pieces, pieces, hsplit, hsplit']
      simpa using hrest

theorem pieces_collapse (cs : List Char) : pieces '/' (collapseSlashes false cs) = pieces '/' cs := by
  obtain ⟨-, first, rest, rest', hfirst, hfirst', hrest⟩ := pieces_collapseSlashes cs
  rw [pieces, pieces, hfirst, hfirst', List.filter_cons, List.filter_cons, hrest]

theorem pieces_leadingSlash (cs : List Char) : pieces '/' (leadingSlash cs) = pieces '/' cs := by
  unfold leadingSlash
  split
  · rfl
  · rfl
  · exact Text.pieces_cons_sep '/' cs

/-- Slashes at the end are no part of a token. -/
theorem pieces_trimmed (cs : List Char) : pieces '/' (cs.reverse.dropWhile (· = '/')).reverse = pieces '/' cs := by
  induction cs using List.reverseRecOn with
  | nil => rfl
  | append_singleton cs c ih =>
    by_cases hc : c = '/'
    · subst hc
      have hlast : pieces '/' (cs ++ ['/']) = pieces '/' cs := by
        rw [Text.pieces_append]
        exact List.append_nil _
      rw [hlast, ← ih]
      simp
    · simp [hc]

/-- **The tokens of joined paths** are those of the one and those of the other. -/
theorem tokens_joinPath (base path : String) :
    Pattern.tokens (joinPath base path) = Pattern.tokens base ++ Pattern.tokens path := by
  by_cases h : path = ""
  · subst h
    exact (List.append_nil _).symm
  · unfold Pattern.tokens
    rw [toList_joinPath base h, pieces_collapse, ← pieces_leadingSlash path.toList]
    cases hlead : leadingSlash path.toList with
    | nil => exact absurd (String.toList_eq_nil_iff.1 (leadingSlash_eq_nil hlead)) h
    | cons c rest =>
      obtain rfl := rooted_leadingSlash path.toList c (by rw [hlead]; rfl)
      rw [Text.pieces_append, pieces_leadingSlash, Text.pieces_cons_sep]

end Switchyard
