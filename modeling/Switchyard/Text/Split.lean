/-!
# Pieces between separators

`splitOn` cuts a list at every separator and keeps empty pieces; `pieces` drops them. Joining puts one
separator between neighbours.

- the pieces, joined again, are the list they came from (`intercalate_splitOn`);
- no piece holds a separator (`splitOn_free`) or anything that is not in the list (`mem_of_mem_splitOn`), and no piece of
  `pieces` is empty (`ne_nil_of_mem_pieces`);
- the pieces of joined lists are the pieces of each (`splitOn_append`, `pieces_append`, `splitOn_intercalate`), and
  nothing is in them but what is in the lists and the separator (`mem_of_mem_intercalate`);
- what holds no separator is cut nowhere (`splitOn_of_free`, `splitFirst_of_free`), and what stands before the first
  separator holds none (`splitFirst_eq`).
-/

namespace Switchyard.Text

variable {α : Type} [DecidableEq α]

/-- The pieces of a list between occurrences of `sep`, empty ones included; there is always at least one. -/
def splitOn (sep : α) : List α → List (List α)
  | [] => [[]]
  | x :: xs =>
    if x = sep then [] :: splitOn sep xs
    else
      match splitOn sep xs with
      | [] => [[x]]
      | piece :: rest => (x :: piece) :: rest

/-- The non-empty pieces of a list between occurrences of `sep`. -/
def pieces (sep : α) (xs : List α) : List (List α) :=
  (splitOn sep xs).filter (!·.isEmpty)

/-- What stands before the first `sep`, and what follows it when there is one. -/
def splitFirst (sep : α) : List α → List α × Option (List α)
  | [] => ([], none)
  | x :: xs =>
    if x = sep then ([], some xs)
    else
      let (before, after) := splitFirst sep xs
      (x :: before, after)

/-! ## What the pieces are -/

theorem splitOn_ne_nil (sep : α) (xs : List α) : splitOn sep xs ≠ [] := by
  cases xs with
  | nil => simp [splitOn]
  | cons x xs =>
    simp only [splitOn]
    split
    · simp
    · split <;> simp

theorem splitOn_free (sep : α) (xs : List α) : ∀ piece ∈ splitOn sep xs, sep ∉ piece := by
  induction xs with
  | nil => simp [splitOn]
  | cons x xs ih =>
    simp only [splitOn]
    split
    · simpa using ih
    · rename_i hx
      split
      · simpa using fun h => hx h.symm
      · rename_i piece rest heq
        rw [heq] at ih
        intro p hp
        rcases List.mem_cons.1 hp with rfl | hp
        · have := ih piece (by simp)
          simp only [List.mem_cons, not_or]
          exact ⟨fun h => hx h.symm, this⟩
        · exact ih p (by simp [hp])

theorem mem_of_mem_splitOn {sep x : α} {xs piece : List α} (h : piece ∈ splitOn sep xs) (hx : x ∈ piece) : x ∈ xs := by
  induction xs generalizing piece with
  | nil =>
    obtain rfl := List.mem_singleton.1 h
    cases hx
  | cons y ys ih =>
    simp only [splitOn] at h
    split at h
    · rcases List.mem_cons.1 h with rfl | h
      · cases hx
      · exact List.mem_cons_of_mem y (ih h hx)
    · split at h
      · rename_i hnil
        exact absurd hnil (splitOn_ne_nil sep ys)
      · rename_i first rest hsplit
        rcases List.mem_cons.1 h with rfl | h
        · rcases List.mem_cons.1 hx with rfl | hx
          · exact List.mem_cons_self
          · exact List.mem_cons_of_mem y (ih (hsplit ▸ List.mem_cons_self) hx)
        · exact List.mem_cons_of_mem y (ih (hsplit ▸ List.mem_cons_of_mem first h) hx)

theorem intercalate_splitOn (sep : α) (xs : List α) : [sep].intercalate (splitOn sep xs) = xs := by
  induction xs with
  | nil => simp [splitOn]
  | cons x xs ih =>
    simp only [splitOn]
    split
    · rename_i hx
      cases h : splitOn sep xs with
      | nil => exact absurd h (splitOn_ne_nil sep xs)
      | cons piece rest => rw [h] at ih; simp_all [List.intercalate]
    · split
      · rename_i h; exact absurd h (splitOn_ne_nil sep xs)
      · rename_i piece rest h
        rw [h] at ih
        cases rest <;> simp_all [List.intercalate]

/-- What holds no separator is one piece. -/
theorem splitOn_of_free {sep : α} {xs : List α} (h : sep ∉ xs) : splitOn sep xs = [xs] := by
  induction xs with
  | nil => rfl
  | cons x xs ih =>
    have hx : x ≠ sep := fun he => h (by rw [he]; exact List.mem_cons_self)
    rw [splitOn, if_neg hx, ih fun hm => h (List.mem_cons_of_mem x hm)]

theorem splitFirst_of_free {sep : α} {xs : List α} (h : sep ∉ xs) : splitFirst sep xs = (xs, none) := by
  induction xs with
  | nil => rfl
  | cons x xs ih =>
    have hx : x ≠ sep := fun he => h (by rw [he]; exact List.mem_cons_self)
    rw [splitFirst, if_neg hx, ih fun hm => h (List.mem_cons_of_mem x hm)]

/-- What stands before the first separator, the separator and what follows it are the whole. -/
theorem splitFirst_eq (sep : α) (xs : List α) : sep ∉ (splitFirst sep xs).1 ∧
    xs = (splitFirst sep xs).1 ++ (splitFirst sep xs).2.elim [] (sep :: ·) := by
  induction xs with
  | nil => exact ⟨List.not_mem_nil, rfl⟩
  | cons x xs ih =>
    rw [splitFirst]
    split
    · rename_i hx
      exact ⟨List.not_mem_nil, by rw [hx]; rfl⟩
    · rename_i hx
      refine ⟨fun h => ?_, congrArg (x :: ·) ih.2⟩
      rcases List.mem_cons.1 h with h | h
      · exact hx h.symm
      · exact ih.1 h

theorem splitOn_append (sep : α) (xs ys : List α) :
    splitOn sep (xs ++ sep :: ys) = splitOn sep xs ++ splitOn sep ys := by
  induction xs with
  | nil => simp [splitOn]
  | cons x xs ih =>
    simp only [List.cons_append, splitOn, ih]
    split
    · rfl
    · cases h : splitOn sep xs with
      | nil => exact absurd h (splitOn_ne_nil sep xs)
      | cons piece rest => rfl

/-- The pieces of lists with a separator between neighbours. -/
theorem splitOn_intercalate (sep : α) {lists : List (List α)} (h : lists ≠ []) :
    splitOn sep ([sep].intercalate lists) = lists.flatMap (splitOn sep) := by
  induction lists with
  | nil => exact absurd rfl h
  | cons xs lists ih =>
    cases lists with
    | nil => simp
    | cons ys lists =>
      have hcons : [sep].intercalate (xs :: ys :: lists) = xs ++ sep :: [sep].intercalate (ys :: lists) := by
        simp [List.intercalate]
      rw [hcons, splitOn_append, ih (List.cons_ne_nil ys lists)]
      rfl

omit [DecidableEq α] in
/-- What is in joined lists is in the separator or in one of them. -/
theorem mem_of_mem_intercalate {seps : List α} {lists : List (List α)} {x : α} (h : x ∈ seps.intercalate lists) :
    x ∈ seps ∨ ∃ xs ∈ lists, x ∈ xs := by
  induction lists with
  | nil => simp at h
  | cons xs lists ih =>
    cases lists with
    | nil => exact .inr ⟨xs, List.mem_cons_self, by simpa using h⟩
    | cons ys lists =>
      have hcons : seps.intercalate (xs :: ys :: lists) = xs ++ (seps ++ seps.intercalate (ys :: lists)) := by
        simp [List.intercalate]
      rw [hcons, List.mem_append, List.mem_append] at h
      rcases h with hx | hx | hx
      · exact .inr ⟨xs, List.mem_cons_self, hx⟩
      · exact .inl hx
      · exact (ih hx).imp_right fun ⟨zs, hzs, hx⟩ => ⟨zs, List.mem_cons_of_mem xs hzs, hx⟩

/-- The pieces on either side of a separator. -/
theorem pieces_append (sep : α) (xs ys : List α) : pieces sep (xs ++ sep :: ys) = pieces sep xs ++ pieces sep ys := by
  rw [pieces, splitOn_append, List.filter_append]
  rfl

theorem pieces_cons_sep (sep : α) (xs : List α) : pieces sep (sep :: xs) = pieces sep xs :=
  pieces_append sep [] xs

/-- The first piece begins with the first element, unless that is the separator. -/
theorem pieces_cons {sep x : α} (h : x ≠ sep) (xs : List α) :
    ∃ piece rest, pieces sep (x :: xs) = (x :: piece) :: rest := by
  cases hsplit : splitOn sep xs with
  | nil => exact absurd hsplit (splitOn_ne_nil sep xs)
  | cons piece rest =>
    refine ⟨piece, rest.filter (!·.isEmpty), ?_⟩
    rw [pieces, splitOn, if_neg h, hsplit]
    exact List.filter_cons_of_pos rfl

theorem ne_nil_of_mem_pieces {sep : α} {xs piece : List α} (h : piece ∈ pieces sep xs) : piece ≠ [] := by
  intro e
  simp [pieces, e] at h

end Switchyard.Text
