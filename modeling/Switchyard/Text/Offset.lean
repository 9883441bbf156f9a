import Switchyard.Text.Utf8

/-!
# Byte offsets into a text

A span is given in bytes. Cutting at an offset that lies inside a character or past the end gives nothing.

- an offset after some characters cuts there (`dropBytes?_size`, `takeBytes?_size`), and so does a span between
  two such offsets (`cut?_append`).
-/

namespace Switchyard.Text

/-- The bytes from `start` up to `stop`. -/
structure Span where
  start : Nat
  stop : Nat
  deriving DecidableEq

/-- The characters after the first `n` bytes. -/
def dropBytes? : Nat → List Char → Option (List Char)
  | 0, cs => some cs
  | _ + 1, [] => none
  | n + 1, c :: cs =>
    if Utf8.width c ≤ n + 1 then dropBytes? (n + 1 - Utf8.width c) cs else none

/-- The characters of the first `n` bytes. -/
def takeBytes? : Nat → List Char → Option (List Char)
  | 0, _ => some []
  | _ + 1, [] => none
  | n + 1, c :: cs =>
    if Utf8.width c ≤ n + 1 then (takeBytes? (n + 1 - Utf8.width c) cs).map (c :: ·) else none

/-- The characters of a span. -/
def cut? (span : Span) (cs : List Char) : Option (List Char) :=
  if span.start ≤ span.stop then (dropBytes? span.start cs).bind (takeBytes? (span.stop - span.start)) else none

/-! ## Cuts between characters -/

theorem dropBytes?_size (as bs : List Char) : dropBytes? (Utf8.size as) (as ++ bs) = some bs := by
  induction as with
  | nil => cases bs <;> rfl
  | cons a as ih =>
    have h := Utf8.width_pos a
    obtain ⟨n, hn⟩ : ∃ n, Utf8.size (a :: as) = n + 1 := ⟨_, (Nat.succ_pred_eq_of_pos (by simp only [Utf8.size]; omega)).symm⟩
    have hs : Utf8.width a + Utf8.size as = n + 1 := hn
    rw [hn, List.cons_append, dropBytes?, if_pos (by omega), show n + 1 - Utf8.width a = Utf8.size as by omega, ih]

theorem takeBytes?_size (as bs : List Char) : takeBytes? (Utf8.size as) (as ++ bs) = some as := by
  induction as with
  | nil => cases bs <;> rfl
  | cons a as ih =>
    have h := Utf8.width_pos a
    obtain ⟨n, hn⟩ : ∃ n, Utf8.size (a :: as) = n + 1 := ⟨_, (Nat.succ_pred_eq_of_pos (by simp only [Utf8.size]; omega)).symm⟩
    have hs : Utf8.width a + Utf8.size as = n + 1 := hn
    rw [hn, List.cons_append, takeBytes?, if_pos (by omega), show n + 1 - Utf8.width a = Utf8.size as by omega, ih]
    rfl

theorem cut?_append (as bs cs : List Char) :
    cut? ⟨Utf8.size as, Utf8.size as + Utf8.size bs⟩ (as ++ (bs ++ cs)) = some bs := by
  simp [cut?, dropBytes?_size, takeBytes?_size]

end Switchyard.Text
