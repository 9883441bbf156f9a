import Switchyard.Text.Digit

/-!
# Peer addresses

An IP address of either version, and a port. Reading is strict: decimal parts of a version 4 address have no
leading zeros, a version 6 address has eight groups or one `::` for at least one group of zeros, and its last two
groups may be written as a version 4 address.
-/

namespace Switchyard.Http

inductive Ip where
  | v4 (octets : List Nat)
  | v6 (groups : List Nat)
  deriving DecidableEq

/-- An address with its port; `scope` is the zone of a version 6 address. -/
structure Address where
  ip : Ip
  port : Nat
  scope : Nat := 0
  deriving DecidableEq

namespace Address

/-! ## Reading -/

/-- A reader of the front of a text. -/
abbrev Reader (α : Type) := List Char → Option (α × List Char)

/-- One given character. -/
def char (c : Char) : Reader Unit
  | d :: rest => if d = c then some ((), rest) else none
  | [] => none

/-- How a number is written: its base, its most digits, whether it may start with a spare zero, its bound. -/
structure Numeral where
  base : Nat := 10
  digits : Option Nat := none
  spareZero : Bool := true
  bound : Nat

/-- A number: every digit up to the first character that is none. -/
def number (n : Numeral) : Reader Nat := fun cs =>
  let digits := cs.takeWhile fun c => (Text.digit? n.base c).isSome
  let value := Text.ofDigits n.base digits
  if digits.isEmpty || n.digits.any (· < digits.length) || n.bound ≤ value then none
  else if !n.spareZero && digits.head? = some '0' && 1 < digits.length then none
  else some (value, cs.drop digits.length)

/-- Four numbers between dots. -/
def ipv4 : Reader (List Nat) := fun cs => do
  let octet := number ⟨10, some 3, false, 256⟩
  let (a, cs) ← octet cs
  let (_, cs) ← char '.' cs
  let (b, cs) ← octet cs
  let (_, cs) ← char '.' cs
  let (c, cs) ← octet cs
  let (_, cs) ← char '.' cs
  let (d, cs) ← octet cs
  return ([a, b, c, d], cs)

/-- A colon between groups; none before the first. -/
def groupStart (first : Bool) : Reader Unit :=
  if first then fun cs => some ((), cs) else char ':'

/-- Up to `room` groups, and whether they ended in a version 4 address. -/
def groups : (room : Nat) → (first : Bool) → List Char → List Nat × Bool × List Char
  | 0, _, cs => ([], false, cs)
  | room + 1, first, cs =>
    match (if 0 < room then (groupStart first cs).bind fun (_, cs) => ipv4 cs else none) with
    | some ([a, b, c, d], rest) => ([a * 256 + b, c * 256 + d], true, rest)
    | _ =>
      match (groupStart first cs).bind fun (_, cs) => number ⟨16, some 4, true, 65536⟩ cs with
      | none => ([], false, cs)
      | some (group, rest) =>
        let (more, dotted, rest) := groups room false rest
        (group :: more, dotted, rest)

/-- Eight groups, with `::` for the ones left out. -/
def ipv6 : Reader (List Nat) := fun cs => do
  let (front, dotted, cs) := groups 8 true cs
  if front.length = 8 then return (front, cs)
  if dotted then none
  let (_, cs) ← char ':' cs
  let (_, cs) ← char ':' cs
  let (back, _, cs) := groups (7 - front.length) true cs
  return (front ++ List.replicate (8 - front.length - back.length) 0 ++ back, cs)

/-- A colon and a port. -/
def portPart : Reader Nat := fun cs => do
  let (_, cs) ← char ':' cs
  number ⟨10, none, true, 65536⟩ cs

def socketV4 : Reader Address := fun cs => do
  let (octets, cs) ← ipv4 cs
  let (port, cs) ← portPart cs
  return (⟨.v4 octets, port, 0⟩, cs)

/-- The zone of a version 6 address, if one is written. -/
def zone : List Char → Nat × List Char := fun cs =>
  match (char '%' cs).bind fun (_, rest) => number ⟨10, none, true, 4294967296⟩ rest with
  | some (scope, rest) => (scope, rest)
  | none => (0, cs)

def socketV6 : Reader Address := fun cs => do
  let (_, cs) ← char '[' cs
  let (groups, cs) ← ipv6 cs
  let (scope, cs) := zone cs
  let (_, cs) ← char ']' cs
  let (port, cs) ← portPart cs
  return (⟨.v6 groups, port, scope⟩, cs)

/-- Reads an address with its port. -/
def ofText? (s : String) : Option Address :=
  match (socketV4 s.toList).or (socketV6 s.toList) with
  | some (address, []) => some address
  | _ => none

end Address

/-! ## Writing -/

namespace Ip

def dotted (octets : List Nat) : String :=
  ".".intercalate (octets.map toString)

/-- Groups between colons. -/
def coloned (groups : List Nat) : String :=
  ":".intercalate (groups.map Text.hex)

/-- The number of zero groups in front. -/
def zerosAhead (groups : List Nat) : Nat :=
  (groups.takeWhile (· = 0)).length

/-- Where the first longest run of zero groups starts, and its length. -/
def longestZeros : List Nat → Nat × Nat
  | [] => (0, 0)
  | g :: rest =>
    let (start, length) := longestZeros rest
    let here := zerosAhead (g :: rest)
    if length ≤ here then (0, here) else (start + 1, length)

/-- Two or more zero groups are left out; an address that embeds a version 4 one shows it. -/
def text : Ip → String
  | .v4 octets => dotted octets
  | .v6 groups =>
    match groups with
    | [0, 0, 0, 0, 0, 0xffff, a, b] => "::ffff:" ++ dotted [a / 256, a % 256, b / 256, b % 256]
    | _ =>
      let (start, length) := longestZeros groups
      if 1 < length then coloned (groups.take start) ++ "::" ++ coloned (groups.drop (start + length))
      else coloned groups

end Ip

def Address.text (a : Address) : String :=
  match a.ip with
  | .v4 _ => a.ip.text ++ ":" ++ toString a.port
  | .v6 _ =>
    let zone := if a.scope = 0 then "" else "%" ++ toString a.scope
    "[" ++ a.ip.text ++ zone ++ "]:" ++ toString a.port

end Switchyard.Http
