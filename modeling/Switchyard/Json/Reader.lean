import Switchyard.Json.Numeral
import Switchyard.Text.Utf8

/-!
# Reading JSON

A reader takes the front of a text and gives back the rest. Values nested deeper than a given limit are refused.
`skip` goes past a value without keeping it: it looks at the form alone, at any depth, and lets halves of
surrogate pairs pass.
-/

namespace Switchyard.Json

open Text (digit? ofDigits)

/-- A reader of the front of a text. -/
abbrev Reader (α : Type) := List Char → Option (α × List Char)

def isSpace (c : Char) : Bool :=
  c = ' ' || c = '\n' || c = '\t' || c = '\r'

def skipSpace (cs : List Char) : List Char :=
  cs.dropWhile isSpace

/-- Goes past given characters. -/
def literal (word : String) : Reader Unit := fun cs =>
  if word.toList.isPrefixOf cs then some ((), cs.drop word.length) else none

/-! ## Strings -/

/-- Four hexadecimal digits. -/
def hexUnit? (a b c d : Char) : Option Nat := do
  return (((← digit? 16 a) * 16 + (← digit? 16 b)) * 16 + (← digit? 16 c)) * 16 + (← digit? 16 d)

/-- The character after a backslash. -/
def unescape? : Char → Option Char
  | '"' => some '"'
  | '\\' => some '\\'
  | '/' => some '/'
  | 'b' => some '\x08'
  | 'f' => some '\x0c'
  | 'n' => some '\n'
  | 'r' => some '\r'
  | 't' => some '\t'
  | _ => none

/-- A part of a string: a character, or a unit of 16 bits written in hexadecimal. -/
inductive Piece where
  | char (c : Char)
  | unit (n : Nat)

/-- The pieces up to the closing quote. -/
def stringPieces : Reader (List Piece)
  | [] => none
  | '"' :: rest => some ([], rest)
  | '\\' :: 'u' :: a :: b :: c :: d :: rest => do
    let n ← hexUnit? a b c d
    let (pieces, rest) ← stringPieces rest
    return (.unit n :: pieces, rest)
  | '\\' :: e :: rest => do
    let c ← unescape? e
    let (pieces, rest) ← stringPieces rest
    return (.char c :: pieces, rest)
  | c :: rest => do
    if c.toNat < 0x20 || c = '\\' then none
    let (pieces, rest) ← stringPieces rest
    return (.char c :: pieces, rest)

/-- The characters of the pieces; the halves of a surrogate pair must stand together. -/
def join? : List Piece → Option (List Char)
  | [] => some []
  | .char c :: rest => (join? rest).map (c :: ·)
  | .unit high :: .unit low :: rest =>
    if 0xD800 ≤ high ∧ high < 0xDC00 then
      if 0xDC00 ≤ low ∧ low < 0xE000 then
        (join? rest).map (.ofNat (0x10000 + (high - 0xD800) * 0x400 + (low - 0xDC00)) :: ·)
      else none
    else if 0xDC00 ≤ high ∧ high < 0xE000 then none
    else (join? (.unit low :: rest)).map (.ofNat high :: ·)
  | .unit n :: rest => if 0xD800 ≤ n ∧ n < 0xE000 then none else (join? rest).map (.ofNat n :: ·)

/-- A string after its opening quote. -/
def stringRest : Reader String := fun cs => do
  let (pieces, rest) ← stringPieces cs
  return (.ofList (← join? pieces), rest)

/-! ## Numbers -/

/-- A sign and the digits of an exponent. -/
def exponentPart : Reader Int := fun cs =>
  let (negative, cs) :=
    match cs with
    | '-' :: rest => (true, rest)
    | '+' :: rest => (false, rest)
    | _ => (false, cs)
  let digits := cs.takeWhile Char.isDigit
  if digits.isEmpty then none
  else some (if negative then -(ofDigits 10 digits : Int) else ofDigits 10 digits, cs.drop digits.length)

/-- A number: a whole part without spare zeros, then perhaps a fraction and an exponent. -/
def numeral : Reader Numeral := fun cs => do
  let (negative, unsigned) :=
    match cs with
    | '-' :: rest => (true, rest)
    | _ => (false, cs)
  let whole := unsigned.takeWhile Char.isDigit
  if whole.isEmpty || (whole.head? = some '0' && 1 < whole.length) then none
  let rest := unsigned.drop whole.length
  let (fraction, rest) ←
    match rest with
    | '.' :: after =>
      let digits := after.takeWhile Char.isDigit
      if digits.isEmpty then none else some (digits, after.drop digits.length)
    | _ => some ([], rest)
  let (exponent, rest) ←
    match rest with
    | 'e' :: after => (exponentPart after).map fun (e, rest) => (some e, rest)
    | 'E' :: after => (exponentPart after).map fun (e, rest) => (some e, rest)
    | _ => some (none, rest)
  return (⟨negative, whole, fraction, exponent, cs.take (cs.length - rest.length)⟩, rest)

/-! ## Values -/

mutual

/-- A value with at most `depth` levels of arrays and objects; `fuel` bounds the number of steps. -/
def valueWithin : (fuel depth : Nat) → Reader Json
  | 0, _, _ => none
  | fuel + 1, depth, cs =>
    match skipSpace cs with
    | '"' :: rest => (stringRest rest).map fun (s, rest) => (.str s, rest)
    | '[' :: rest =>
      match depth with
      | 0 => none
      | depth + 1 =>
        match skipSpace rest with
        | ']' :: rest => some (.arr [], rest)
        | rest => (itemsWithin fuel depth rest).map fun (items, rest) => (.arr items, rest)
    | '\x7b' :: rest =>
      match depth with
      | 0 => none
      | depth + 1 =>
        match skipSpace rest with
        | '\x7d' :: rest => some (.obj [], rest)
        | rest => (membersWithin fuel depth rest).map fun (members, rest) => (.ofMembers members, rest)
    | 't' :: rest => (literal "rue" rest).map fun ((), rest) => (.bool true, rest)
    | 'f' :: rest => (literal "alse" rest).map fun ((), rest) => (.bool false, rest)
    | 'n' :: rest => (literal "ull" rest).map fun ((), rest) => (.null, rest)
    | cs => (numeral cs).bind fun (n, rest) => n.toJson?.map fun value => (value, rest)

/-- The items of an array from the first on. -/
def itemsWithin : (fuel depth : Nat) → Reader (List Json)
  | 0, _, _ => none
  | fuel + 1, depth, cs => do
    let (item, rest) ← valueWithin fuel depth cs
    match skipSpace rest with
    | ',' :: rest =>
      let (items, rest) ← itemsWithin fuel depth rest
      return (item :: items, rest)
    | ']' :: rest => return ([item], rest)
    | _ => none

/-- The members of an object from the first on. -/
def membersWithin : (fuel depth : Nat) → Reader (List (String × Json))
  | 0, _, _ => none
  | fuel + 1, depth, cs => do
    let '"' :: rest := skipSpace cs | none
    let (name, rest) ← stringRest rest
    let ':' :: rest := skipSpace rest | none
    let (value, rest) ← valueWithin fuel depth rest
    match skipSpace rest with
    | ',' :: rest =>
      let (members, rest) ← membersWithin fuel depth rest
      return ((name, value) :: members, rest)
    | '\x7d' :: rest => return ([(name, value)], rest)
    | _ => none

end

/-- A value in front. -/
def value (depth : Nat) : Reader Json := fun cs =>
  valueWithin (2 * cs.length + 2) depth cs

/-- Reads a text that holds one value and nothing else. -/
def ofChars? (depth : Nat) (cs : List Char) : Option Json :=
  match value depth cs with
  | some (v, rest) => if (skipSpace rest).isEmpty then some v else none
  | none => none

/-- The depth to which the body of a request is read. -/
def bodyDepth : Nat := 127

/-- Reads the bytes of a body. -/
def ofBytes? (bytes : List UInt8) : Option Json :=
  (Text.Utf8.decode? bytes).bind (ofChars? bodyDepth)

/-! ## Going past a value -/

mutual

/-- Goes past a value of the right form. -/
def skipWithin : (fuel : Nat) → Reader Unit
  | 0, _ => none
  | fuel + 1, cs =>
    match skipSpace cs with
    | '"' :: rest => (stringPieces rest).map fun (_, rest) => ((), rest)
    | '[' :: rest =>
      match skipSpace rest with
      | ']' :: rest => some ((), rest)
      | rest => skipItemsWithin fuel rest
    | '\x7b' :: rest =>
      match skipSpace rest with
      | '\x7d' :: rest => some ((), rest)
      | rest => skipMembersWithin fuel rest
    | 't' :: rest => literal "rue" rest
    | 'f' :: rest => literal "alse" rest
    | 'n' :: rest => literal "ull" rest
    | cs => (numeral cs).map fun (_, rest) => ((), rest)

def skipItemsWithin : (fuel : Nat) → Reader Unit
  | 0, _ => none
  | fuel + 1, cs => do
    let (_, rest) ← skipWithin fuel cs
    match skipSpace rest with
    | ',' :: rest => skipItemsWithin fuel rest
    | ']' :: rest => return ((), rest)
    | _ => none

def skipMembersWithin : (fuel : Nat) → Reader Unit
  | 0, _ => none
  | fuel + 1, cs => do
    let '"' :: rest := skipSpace cs | none
    let (_, rest) ← stringPieces rest
    let ':' :: rest := skipSpace rest | none
    let (_, rest) ← skipWithin fuel rest
    match skipSpace rest with
    | ',' :: rest => skipMembersWithin fuel rest
    | '\x7d' :: rest => return ((), rest)
    | _ => none

end

/-- Goes past one value. -/
def skip : Reader Unit := fun cs =>
  skipWithin (2 * cs.length + 2) cs

end Switchyard.Json
