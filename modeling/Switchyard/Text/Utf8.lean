/-!
# UTF-8 over lists of bytes

A character is one to four bytes. The reader keeps the bits gathered so far, the number of bytes still owed
and the range the next byte must lie in, so that overlong forms, surrogates and values past the last character
are refused at the first byte that rules them out.

- `decode?` reads a whole list or fails, and reads back what `encode` writes (`decode?_encode`) and nothing else
  (`decode?_eq_some_iff`);
- `decodeLossy` puts U+FFFD in place of each longest run of bytes that starts no character.
-/

namespace Switchyard.Text.Utf8

/-- The bytes of a character. -/
def encodeChar (c : Char) : List UInt8 :=
  let n := c.toNat
  if n < 0x80 then [.ofNat n]
  else if n < 0x800 then [.ofNat (0xC0 + n / 0x40), .ofNat (0x80 + n % 0x40)]
  else if n < 0x10000 then
    [.ofNat (0xE0 + n / 0x1000), .ofNat (0x80 + n / 0x40 % 0x40), .ofNat (0x80 + n % 0x40)]
  else
    [.ofNat (0xF0 + n / 0x40000), .ofNat (0x80 + n / 0x1000 % 0x40), .ofNat (0x80 + n / 0x40 % 0x40),
      .ofNat (0x80 + n % 0x40)]

/-- The bytes of a text. -/
def encode (cs : List Char) : List UInt8 :=
  cs.flatMap encodeChar

/-- The number of bytes of a character. -/
def width (c : Char) : Nat :=
  let n := c.toNat
  if n < 0x80 then 1 else if n < 0x800 then 2 else if n < 0x10000 then 3 else 4

/-- The number of bytes of a text. -/
def size : List Char → Nat
  | [] => 0
  | c :: cs => width c + size cs

/-- A character of which some bytes have been read. -/
structure Pending where
  value : Nat
  owed : Nat
  low : Nat := 0x80
  high : Nat := 0xBF

/-- What one byte does to the reader. -/
inductive Step where
  | done (c : Char)
  | more (p : Pending)
  | refused

/-- A byte where a character starts. -/
def start (b : Nat) : Step :=
  if b < 0x80 then .done (.ofNat b)
  else if b < 0xC2 then .refused
  else if b < 0xE0 then .more ⟨b - 0xC0, 0, 0x80, 0xBF⟩
  else if b = 0xE0 then .more ⟨0, 1, 0xA0, 0xBF⟩
  else if b = 0xED then .more ⟨0xD, 1, 0x80, 0x9F⟩
  else if b < 0xF0 then .more ⟨b - 0xE0, 1, 0x80, 0xBF⟩
  else if b = 0xF0 then .more ⟨0, 2, 0x90, 0xBF⟩
  else if b < 0xF4 then .more ⟨b - 0xF0, 2, 0x80, 0xBF⟩
  else if b = 0xF4 then .more ⟨4, 2, 0x80, 0x8F⟩
  else .refused

/-- A byte inside a character. -/
def Pending.next (p : Pending) (b : Nat) : Step :=
  if p.low ≤ b ∧ b ≤ p.high then
    let value := p.value * 0x40 + (b - 0x80)
    match p.owed with
    | 0 => .done (.ofNat value)
    | owed + 1 => .more ⟨value, owed, 0x80, 0xBF⟩
  else .refused

/-- Reads the rest of a text, from inside a character if one is pending. -/
def decodeFrom? : Option Pending → List UInt8 → Option (List Char)
  | none, [] => some []
  | some _, [] => none
  | pending, b :: bs =>
    match pending.elim (start b.toNat) (·.next b.toNat) with
    | .done c => (decodeFrom? none bs).map (c :: ·)
    | .more p => decodeFrom? (some p) bs
    | .refused => none

/-- The text these bytes spell, if they spell one. -/
def decode? (bytes : List UInt8) : Option (List Char) :=
  decodeFrom? none bytes

/-- Reads the rest of a text; a byte that cannot go on ends the pending character and is read again as a start. -/
def decodeLossyFrom : Option Pending → List UInt8 → List Char
  | none, [] => []
  | some _, [] => ['\uFFFD']
  | none, b :: bs =>
    match start b.toNat with
    | .done c => c :: decodeLossyFrom none bs
    | .more p => decodeLossyFrom (some p) bs
    | .refused => '\uFFFD' :: decodeLossyFrom none bs
  | some p, b :: bs =>
    match p.next b.toNat with
    | .done c => c :: decodeLossyFrom none bs
    | .more q => decodeLossyFrom (some q) bs
    | .refused =>
      '\uFFFD' ::
        match start b.toNat with
        | .done c => c :: decodeLossyFrom none bs
        | .more q => decodeLossyFrom (some q) bs
        | .refused => '\uFFFD' :: decodeLossyFrom none bs

/-- The text these bytes spell, with U+FFFD for what is no character. -/
def decodeLossy (bytes : List UInt8) : List Char :=
  decodeLossyFrom none bytes

/-! ## Sizes -/

theorem width_pos (c : Char) : 0 < width c := by
  unfold width
  dsimp only
  repeat' split
  all_goals omega

theorem size_append (as bs : List Char) : size (as ++ bs) = size as + size bs := by
  induction as with
  | nil => simp [size]
  | cons a as ih => simp only [List.cons_append, size, ih]; omega

/-! ## Reading what was written -/

/-- A first byte of two. -/
theorem start_two {b : Nat} (h : 0xC2 ≤ b) (h' : b < 0xE0) : start b = .more ⟨b - 0xC0, 0, 0x80, 0xBF⟩ := by
  simp [start, h', Nat.not_lt.2 h, show ¬ b < 0x80 by omega]

/-- A first byte of three. -/
theorem start_three {b : Nat} (h : 0xE0 ≤ b) (h' : b < 0xF0) :
    start b = .more ⟨b - 0xE0, 1, if b = 0xE0 then 0xA0 else 0x80, if b = 0xED then 0x9F else 0xBF⟩ := by
  unfold start
  rw [if_neg (by omega), if_neg (by omega), if_neg (by omega)]
  split
  · next e => subst e; rfl
  · split
    · next e => subst e; rfl
    · rfl

/-- A first byte of four. -/
theorem start_four {b : Nat} (h : 0xF0 ≤ b) (h' : b < 0xF5) :
    start b = .more ⟨b - 0xF0, 2, if b = 0xF0 then 0x90 else 0x80, if b = 0xF4 then 0x8F else 0xBF⟩ := by
  unfold start
  rw [if_neg (by omega), if_neg (by omega), if_neg (by omega), if_neg (by omega), if_neg (by omega),
    if_neg (by omega)]
  split
  · next e => subst e; rfl
  · split
    · next e => rw [if_neg (show b ≠ 0xF4 by omega)]
    · have : b = 0xF4 := by omega
      subst this; rfl

/-- A byte in range that is the last of its character. -/
theorem next_last {v l h b : Nat} (hl : l ≤ b) (hh : b ≤ h) :
    Pending.next ⟨v, 0, l, h⟩ b = .done (.ofNat (v * 0x40 + (b - 0x80))) := by
  simp [Pending.next, hl, hh]

/-- A byte in range after which more are owed. -/
theorem next_more {v o l h b : Nat} (hl : l ≤ b) (hh : b ≤ h) :
    Pending.next ⟨v, o + 1, l, h⟩ b = .more ⟨v * 0x40 + (b - 0x80), o, 0x80, 0xBF⟩ := by
  simp [Pending.next, hl, hh]

theorem toNat_ofNat_byte {n : Nat} (h : n < 256) : (UInt8.ofNat n).toNat = n := by
  simp [Nat.mod_eq_of_lt h]

/-- The bytes of a character are read as that character, whatever follows. -/
theorem decodeFrom?_encodeChar (c : Char) (rest : List UInt8) :
    decodeFrom? none (encodeChar c ++ rest) = (decodeFrom? none rest).map (c :: ·) := by
  have hv : c.toNat < 0xD800 ∨ (0xDFFF < c.toNat ∧ c.toNat < 0x110000) := c.valid
  have hc : Char.ofNat c.toNat = c := by simp
  unfold encodeChar
  generalize c.toNat = n at *
  subst hc
  dsimp only
  split
  · next h => simp [decodeFrom?, toNat_ofNat_byte (show n < 256 by omega), start, h]
  · split
    · next h =>
      simp only [List.cons_append, List.nil_append, decodeFrom?, Option.elim]
      rw [toNat_ofNat_byte (by omega), toNat_ofNat_byte (by omega), start_two (by omega) (by omega)]
      dsimp only
      rw [next_last (by omega) (by omega)]
      have : (0xC0 + n / 0x40 - 0xC0) * 0x40 + (0x80 + n % 0x40 - 0x80) = n := by omega
      simp only [this]
    · split
      · next h =>
        simp only [List.cons_append, List.nil_append, decodeFrom?, Option.elim]
        rw [toNat_ofNat_byte (by omega), toNat_ofNat_byte (by omega), toNat_ofNat_byte (by omega),
          start_three (by omega) (by omega)]
        dsimp only
        rw [next_more (by split <;> omega) (by split <;> omega)]
        dsimp only
        rw [next_last (by omega) (by omega)]
        have : ((0xE0 + n / 0x1000 - 0xE0) * 0x40 + (0x80 + n / 0x40 % 0x40 - 0x80)) * 0x40 +
            (0x80 + n % 0x40 - 0x80) = n := by omega
        simp only [this]
      · next h =>
        simp only [List.cons_append, List.nil_append, decodeFrom?, Option.elim]
        rw [toNat_ofNat_byte (by omega), toNat_ofNat_byte (by omega), toNat_ofNat_byte (by omega),
          toNat_ofNat_byte (by omega), start_four (by omega) (by omega)]
        dsimp only
        rw [next_more (by split <;> omega) (by split <;> omega)]
        dsimp only
        rw [next_more (by omega) (by omega)]
        dsimp only
        rw [next_last (by omega) (by omega)]
        have : (((0xF0 + n / 0x40000 - 0xF0) * 0x40 + (0x80 + n / 0x1000 % 0x40 - 0x80)) * 0x40 +
            (0x80 + n / 0x40 % 0x40 - 0x80)) * 0x40 + (0x80 + n % 0x40 - 0x80) = n := by omega
        simp only [this]

/-- What was written is read back. -/
theorem decode?_encode (cs : List Char) : decode? (encode cs) = some cs := by
  induction cs with
  | nil => rfl
  | cons c cs ih =>
    simp only [decode?, encode, List.flatMap_cons] at ih ⊢
    rw [decodeFrom?_encodeChar, ih]
    rfl

/-! ## What is read was written -/

/-- A character of which one byte is owed ends with the next byte. -/
theorem decodeFrom?_last {v l h : Nat} {bs : List UInt8} {cs : List Char}
    (hd : decodeFrom? (some ⟨v, 0, l, h⟩) bs = some cs) :
    ∃ b rest cs', bs = b :: rest ∧ (l ≤ b.toNat ∧ b.toNat ≤ h) ∧ decodeFrom? none rest = some cs' ∧
      cs = .ofNat (v * 0x40 + (b.toNat - 0x80)) :: cs' := by
  cases bs with
  | nil => cases hd
  | cons b rest =>
    by_cases hb : l ≤ b.toNat ∧ b.toNat ≤ h
    · simp only [decodeFrom?, Option.elim, next_last hb.1 hb.2] at hd
      obtain ⟨cs', hcs', rfl⟩ := Option.map_eq_some_iff.1 hd
      exact ⟨b, rest, cs', rfl, hb, hcs', rfl⟩
    · simp [decodeFrom?, Pending.next, hb] at hd

/-- A character of which more bytes are owed goes on with the next byte. -/
theorem decodeFrom?_more {v o l h : Nat} {bs : List UInt8} {cs : List Char}
    (hd : decodeFrom? (some ⟨v, o + 1, l, h⟩) bs = some cs) :
    ∃ b rest, bs = b :: rest ∧ (l ≤ b.toNat ∧ b.toNat ≤ h) ∧
      decodeFrom? (some ⟨v * 0x40 + (b.toNat - 0x80), o, 0x80, 0xBF⟩) rest = some cs := by
  cases bs with
  | nil => cases hd
  | cons b rest =>
    by_cases hb : l ≤ b.toNat ∧ b.toNat ≤ h
    · simp only [decodeFrom?, Option.elim, next_more hb.1 hb.2] at hd
      exact ⟨b, rest, rfl, hb, hd⟩
    · simp [decodeFrom?, Pending.next, hb] at hd

/-- A byte that starts a character tells how many follow it. -/
theorem start_cases {b : Nat} (h : start b ≠ .refused) :
    b < 0x80 ∨ (0xC2 ≤ b ∧ b < 0xE0) ∨ (0xE0 ≤ b ∧ b < 0xF0) ∨ (0xF0 ≤ b ∧ b < 0xF5) := by
  by_cases hlow : b < 0x80
  · exact .inl hlow
  · by_cases hstart : 0xC2 ≤ b ∧ b < 0xF5
    · omega
    · refine absurd ?_ h
      unfold start
      rw [if_neg hlow]
      split
      · rfl
      · rw [if_neg (by omega), if_neg (by omega), if_neg (by omega), if_neg (by omega), if_neg (by omega),
          if_neg (by omega), if_neg (by omega)]

theorem toNat_ofNat_scalar {n : Nat} (h : n < 0xD800 ∨ 0xDFFF < n ∧ n < 0x110000) : (Char.ofNat n).toNat = n := by
  have hv : n.isValidChar := h
  rw [Char.ofNat, dif_pos hv]
  rfl

theorem ofNat_eq_byte {n : Nat} {b : UInt8} (h : n = b.toNat) : UInt8.ofNat n = b := by
  rw [h, UInt8.ofNat_toNat]

/-- A character of one byte is written as the byte it was read from. -/
theorem encodeChar_one {b : UInt8} (h : b.toNat < 0x80) : encodeChar (.ofNat b.toNat) = [b] := by
  unfold encodeChar
  rw [toNat_ofNat_scalar (.inl (by omega)), if_pos h, ofNat_eq_byte rfl]

theorem encodeChar_two {b₁ b₂ : UInt8} (h₁ : 0xC2 ≤ b₁.toNat ∧ b₁.toNat < 0xE0)
    (h₂ : 0x80 ≤ b₂.toNat ∧ b₂.toNat ≤ 0xBF) :
    encodeChar (.ofNat ((b₁.toNat - 0xC0) * 0x40 + (b₂.toNat - 0x80))) = [b₁, b₂] := by
  unfold encodeChar
  rw [toNat_ofNat_scalar (.inl (by omega))]
  generalize hn : (b₁.toNat - 0xC0) * 0x40 + (b₂.toNat - 0x80) = n
  rw [if_neg (by omega), if_pos (by omega), ofNat_eq_byte (b := b₁) (by omega), ofNat_eq_byte (b := b₂) (by omega)]

theorem encodeChar_three {b₁ b₂ b₃ : UInt8} (h₁ : 0xE0 ≤ b₁.toNat ∧ b₁.toNat < 0xF0)
    (h₂ : 0x80 ≤ b₂.toNat ∧ b₂.toNat ≤ 0xBF) (h₃ : 0x80 ≤ b₃.toNat ∧ b₃.toNat ≤ 0xBF)
    (hlow : b₁.toNat = 0xE0 → 0xA0 ≤ b₂.toNat) (hhigh : b₁.toNat = 0xED → b₂.toNat ≤ 0x9F) :
    encodeChar (.ofNat (((b₁.toNat - 0xE0) * 0x40 + (b₂.toNat - 0x80)) * 0x40 + (b₃.toNat - 0x80))) =
      [b₁, b₂, b₃] := by
  unfold encodeChar
  rw [toNat_ofNat_scalar (by omega)]
  generalize hn : ((b₁.toNat - 0xE0) * 0x40 + (b₂.toNat - 0x80)) * 0x40 + (b₃.toNat - 0x80) = n
  rw [if_neg (by omega), if_neg (by omega), if_pos (by omega), ofNat_eq_byte (b := b₁) (by omega),
    ofNat_eq_byte (b := b₂) (by omega), ofNat_eq_byte (b := b₃) (by omega)]

theorem encodeChar_four {b₁ b₂ b₃ b₄ : UInt8} (h₁ : 0xF0 ≤ b₁.toNat ∧ b₁.toNat < 0xF5)
    (h₂ : 0x80 ≤ b₂.toNat ∧ b₂.toNat ≤ 0xBF) (h₃ : 0x80 ≤ b₃.toNat ∧ b₃.toNat ≤ 0xBF)
    (h₄ : 0x80 ≤ b₄.toNat ∧ b₄.toNat ≤ 0xBF)
    (hlow : b₁.toNat = 0xF0 → 0x90 ≤ b₂.toNat) (hhigh : b₁.toNat = 0xF4 → b₂.toNat ≤ 0x8F) :
    encodeChar (.ofNat ((((b₁.toNat - 0xF0) * 0x40 + (b₂.toNat - 0x80)) * 0x40 + (b₃.toNat - 0x80)) * 0x40 +
      (b₄.toNat - 0x80))) = [b₁, b₂, b₃, b₄] := by
  unfold encodeChar
  rw [toNat_ofNat_scalar (by omega)]
  generalize hn : (((b₁.toNat - 0xF0) * 0x40 + (b₂.toNat - 0x80)) * 0x40 + (b₃.toNat - 0x80)) * 0x40 +
    (b₄.toNat - 0x80) = n
  rw [if_neg (by omega), if_neg (by omega), if_neg (by omega), ofNat_eq_byte (b := b₁) (by omega),
    ofNat_eq_byte (b := b₂) (by omega), ofNat_eq_byte (b := b₃) (by omega), ofNat_eq_byte (b := b₄) (by omega)]

/-- The bytes that were read before a text went on are those of its first character. -/
theorem decodeFrom?_cons {b : UInt8} {bs : List UInt8} {cs : List Char} (hd : decodeFrom? none (b :: bs) = some cs) :
    ∃ c rest cs', cs = c :: cs' ∧ b :: bs = encodeChar c ++ rest ∧ decodeFrom? none rest = some cs' := by
  have hstart : start b.toNat ≠ .refused := by
    intro h
    simp [decodeFrom?, h] at hd
  rw [decodeFrom?, Option.elim] at hd
  -- none, one, two or three bytes are owed after the first
  rcases start_cases hstart with h | h | h | h
  · rw [start, if_pos h] at hd
    obtain ⟨cs', hcs', rfl⟩ := Option.map_eq_some_iff.1 hd
    exact ⟨_, bs, cs', rfl, by rw [encodeChar_one h]; rfl, hcs'⟩
  · rw [start_two h.1 h.2] at hd
    obtain ⟨b₂, rest, cs', rfl, h₂, hrest, rfl⟩ := decodeFrom?_last hd
    exact ⟨_, rest, cs', rfl, by rw [encodeChar_two h h₂]; rfl, hrest⟩
  · rw [start_three h.1 h.2] at hd
    obtain ⟨b₂, bs₂, rfl, h₂, hd⟩ := decodeFrom?_more hd
    obtain ⟨b₃, rest, cs', rfl, h₃, hrest, rfl⟩ := decodeFrom?_last hd
    refine ⟨_, rest, cs', rfl, ?_, hrest⟩
    rw [encodeChar_three h (by split at h₂ <;> split at h₂ <;> omega) h₃ (fun he => by rw [if_pos he] at h₂; exact h₂.1)
      (fun he => by rw [if_pos he] at h₂; exact h₂.2)]
    rfl
  · rw [start_four h.1 h.2] at hd
    obtain ⟨b₂, bs₂, rfl, h₂, hd⟩ := decodeFrom?_more hd
    obtain ⟨b₃, bs₃, rfl, h₃, hd⟩ := decodeFrom?_more hd
    obtain ⟨b₄, rest, cs', rfl, h₄, hrest, rfl⟩ := decodeFrom?_last hd
    refine ⟨_, rest, cs', rfl, ?_, hrest⟩
    rw [encodeChar_four h (by split at h₂ <;> split at h₂ <;> omega) h₃ h₄ (fun he => by rw [if_pos he] at h₂; exact h₂.1)
      (fun he => by rw [if_pos he] at h₂; exact h₂.2)]
    rfl

/-- What is read was written so. -/
theorem encode_of_decode? {bs : List UInt8} {cs : List Char} (h : decode? bs = some cs) : encode cs = bs := by
  induction cs generalizing bs with
  | nil =>
    cases bs with
    | nil => rfl
    | cons b bs =>
      obtain ⟨_, _, _, he, -, -⟩ := decodeFrom?_cons h
      cases he
  | cons c cs ih =>
    cases bs with
    | nil => cases h
    | cons b bs =>
      obtain ⟨c', rest, cs', he, hbytes, hrest⟩ := decodeFrom?_cons h
      obtain ⟨rfl, rfl⟩ := List.cons.inj he
      rw [hbytes, ← ih hrest]
      rfl

/-- **Bytes are read as a text exactly when they are the bytes of it.** -/
theorem decode?_eq_some_iff {bs : List UInt8} {cs : List Char} : decode? bs = some cs ↔ encode cs = bs :=
  ⟨encode_of_decode?, fun h => h ▸ decode?_encode cs⟩

end Switchyard.Text.Utf8
