import Switchyard.Text.Digit
import Switchyard.Text.Split
import Switchyard.Text.Utf8

/-!
# Percent-encoding

`%` and two hexadecimal digits stand for one byte. A `%` that no two digits follow stands for itself, and so does
every other character. A token is decoded as a whole: when its bytes are no UTF-8 text it is kept as written.

A query is a list of fields between `&`; an empty field is skipped. A field is a name and, after the first `=`, a value.
In both a `+` is a space, then bytes are unescaped and read as UTF-8, with U+FFFD for what is no text.

- a token in which every byte is escaped or kept reads back (`decode_encode`), and there is nothing in it but what is
  kept, `%` and digits (`mem_encode`);
- no other character than `%` is read as something else (`decode_cons`);
- a token is read as the text whose bytes it stands for, and as itself when there is no such text (`decode_eq_iff`).
-/

namespace Switchyard.Text.Percent

/-- The byte two hexadecimal digits stand for. -/
def hexByte? (high low : Char) : Option UInt8 :=
  match digit? 16 high, digit? 16 low with
  | some h, some l => some (.ofNat (h * 16 + l))
  | _, _ => none

/-- The bytes a token stands for. -/
def bytes : List Char → List UInt8
  | '%' :: high :: low :: rest =>
    match hexByte? high low with
    | some b => b :: bytes rest
    | none => Utf8.encodeChar '%' ++ bytes (high :: low :: rest)
  | c :: rest => Utf8.encodeChar c ++ bytes rest
  | [] => []

/-- The text a token stands for; a token whose bytes spell no text stands for itself. -/
def decode (token : List Char) : List Char :=
  (Utf8.decode? (bytes token)).getD token

/-- A byte as `%` and two digits. -/
def escape (b : UInt8) : List Char :=
  ['%', upperHex (b.toNat / 16), upperHex (b.toNat % 16)]

/-- Escapes every byte of the characters that are not to be kept. -/
def encode (keep : Char → Bool) (cs : List Char) : List Char :=
  cs.flatMap fun c => if keep c then [c] else (Utf8.encodeChar c).flatMap escape

/-! ## Reading what was written -/

theorem bytes_escape (b : UInt8) (rest : List Char) : bytes (escape b ++ rest) = b :: bytes rest := by
  have hb := b.toNat_lt
  have h := digit?_upperHex (b.toNat / 16) (by omega)
  have l := digit?_upperHex (b.toNat % 16) (by omega)
  simp only [escape, List.cons_append, List.nil_append, bytes, hexByte?, h, l]
  rw [Nat.div_add_mod' b.toNat 16]
  simp

theorem bytes_flatMap_escape (bs : List UInt8) (rest : List Char) :
    bytes (bs.flatMap escape ++ rest) = bs ++ bytes rest := by
  induction bs with
  | nil => rfl
  | cons b bs ih => simp only [List.flatMap_cons, List.append_assoc, bytes_escape, ih, List.cons_append]

theorem bytes_cons {c : Char} (h : c ≠ '%') (rest : List Char) :
    bytes (c :: rest) = Utf8.encodeChar c ++ bytes rest := by
  rw [bytes.eq_2]
  rintro _ _ _ rfl
  exact absurd rfl h

theorem bytes_encode {keep : Char → Bool} (h : keep '%' = false) (cs : List Char) :
    bytes (encode keep cs) = Utf8.encode cs := by
  induction cs with
  | nil => rfl
  | cons c cs ih =>
    simp only [encode, Utf8.encode, List.flatMap_cons] at ih ⊢
    split
    · next hk =>
      have : c ≠ '%' := by rintro rfl; simp [h] at hk
      rw [List.cons_append, List.nil_append, bytes_cons this, ih]
    · rw [bytes_flatMap_escape, ih]

/-- An escaped token stands for the text it was made from, as long as `%` is escaped. -/
theorem decode_encode {keep : Char → Bool} (h : keep '%' = false) (cs : List Char) :
    decode (encode keep cs) = cs := by
  simp [decode, bytes_encode h, Utf8.decode?_encode]

/-- A character that is no `%` stands for itself, whatever follows. -/
theorem decode_cons {c : Char} (h : c ≠ '%') (cs : List Char) : decode (c :: cs) = c :: decode cs := by
  rw [decode, bytes_cons h, Utf8.decode?, Utf8.decodeFrom?_encodeChar, decode, Utf8.decode?]
  cases Utf8.decodeFrom? none (bytes cs) <;> rfl

/-- **A token stands for the text of its bytes**, and for itself when they are the bytes of no text. -/
theorem decode_eq_iff {token segment : List Char} : decode token = segment ↔
    Utf8.encode segment = bytes token ∨ (∀ cs, Utf8.encode cs ≠ bytes token) ∧ segment = token := by
  cases hd : Utf8.decode? (bytes token) with
  | none =>
    have hnone : ∀ cs, Utf8.encode cs ≠ bytes token := by
      intro cs h
      rw [Utf8.decode?_eq_some_iff.2 h] at hd
      cases hd
    rw [decode, hd, Option.getD_none]
    exact ⟨fun h => .inr ⟨hnone, h.symm⟩, fun h => h.elim (fun h => absurd h (hnone segment)) fun h => h.2.symm⟩
  | some cs =>
    have hcs := Utf8.encode_of_decode? hd
    rw [decode, hd, Option.getD_some]
    refine ⟨fun h => .inl (h ▸ hcs), fun h => ?_⟩
    rcases h with h | ⟨hnone, -⟩
    · have hread := Utf8.decode?_encode segment
      rw [h, hd] at hread
      exact Option.some.inj hread
    · exact absurd hcs (hnone cs)

/-- What is written is kept, or belongs to an escape. -/
theorem mem_encode {keep : Char → Bool} {cs : List Char} {c : Char} (h : c ∈ encode keep cs) :
    keep c = true ∨ c = '%' ∨ ∃ n < 16, c = upperHex n := by
  obtain ⟨d, -, hc⟩ := List.mem_flatMap.1 h
  split at hc
  · rename_i hkeep
    obtain rfl := List.mem_singleton.1 hc
    exact .inl hkeep
  · obtain ⟨b, -, hc⟩ := List.mem_flatMap.1 hc
    have hb := b.toNat_lt
    rcases List.mem_cons.1 hc with rfl | hc
    · exact .inr (.inl rfl)
    · rcases List.mem_cons.1 hc with rfl | hc
      · exact .inr (.inr ⟨b.toNat / 16, by omega, rfl⟩)
      · obtain rfl := List.mem_singleton.1 hc
        exact .inr (.inr ⟨b.toNat % 16, by omega, rfl⟩)

/-- An escaped character that no escape is made of is not in what is written. -/
theorem not_mem_encode {keep : Char → Bool} {c : Char} (hkeep : keep c = false) (hsign : c ≠ '%')
    (hdigit : digit? 16 c = none) (cs : List Char) : c ∉ encode keep cs := by
  intro hc
  rcases mem_encode hc with h | h | ⟨n, hn, rfl⟩
  · rw [hkeep] at h
    cases h
  · exact hsign h
  · rw [digit?_upperHex n hn] at hdigit
    cases hdigit

end Switchyard.Text.Percent

/-! ## Form fields -/

namespace Switchyard.Text.Form

/-- A name or a value as it was meant. -/
def unescape (token : List Char) : List Char :=
  Utf8.decodeLossy (Percent.bytes (token.map fun c => if c = '+' then ' ' else c))

/-- One field: its name and its value, which is empty when there is no `=`. -/
def field (token : List Char) : String × String :=
  let (name, value) := splitFirst '=' token
  (.ofList (unescape name), .ofList (unescape (value.getD [])))

/-- The fields of a query, in order. -/
def fields (query : String) : List (String × String) :=
  (pieces '&' query.toList).map field

end Switchyard.Text.Form
