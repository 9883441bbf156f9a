import Switchyard.Text.Digit

/-!
# JSON values

A number is an integer of 64 bits, signed or unsigned, or a decimal that is kept as it was written. The members of
an object stand in the order of their names, one for each name.

- `insert` keeps that order and replaces what the name had before;
- `text` writes a value with no space in it.
-/

namespace Switchyard

inductive Json where
  | null
  | bool (b : Bool)
  | int (n : Int)
  | decimal (written : String)
  | str (s : String)
  | arr (items : List Json)
  | obj (members : List (String × Json))

namespace Json

/-- Gives a name its value among members in order. -/
def insertMember (name : String) (value : Json) : List (String × Json) → List (String × Json)
  | [] => [(name, value)]
  | (n, v) :: rest =>
    if name = n then (name, value) :: rest
    else if name < n then (name, value) :: (n, v) :: rest
    else (n, v) :: insertMember name value rest

/-- The object of some members; of two with one name the later counts. -/
def ofMembers (members : List (String × Json)) : Json :=
  .obj (members.foldl (fun acc (name, value) => insertMember name value acc) [])

/-- The value of a member. -/
def member? (name : String) : Json → Option Json
  | .obj members => members.lookup name
  | _ => none

/-! ## Writing -/

/-- One character inside a string. -/
def escapeChar (c : Char) : String :=
  match c with
  | '"' => "\\\""
  | '\\' => "\\\\"
  | '\x08' => "\\b"
  | '\x0c' => "\\f"
  | '\n' => "\\n"
  | '\r' => "\\r"
  | '\t' => "\\t"
  | c =>
    if c.toNat < 0x20 then "\\u00" ++ (if c.toNat < 0x10 then "0" else "") ++ Text.hex c.toNat
    else c.toString

def quoted (s : String) : String :=
  "\"" ++ String.join (s.toList.map escapeChar) ++ "\""

/-- Writes members in the order given. -/
def objectText (members : List (String × String)) : String :=
  "\x7b" ++ ",".intercalate (members.map fun (name, value) => quoted name ++ ":" ++ value) ++ "\x7d"

mutual

/-- The value as compact text. -/
def text : Json → String
  | .null => "null"
  | .bool b => if b then "true" else "false"
  | .int n => toString n
  | .decimal written => written
  | .str s => quoted s
  | .arr items => "[" ++ ",".intercalate (itemTexts items) ++ "]"
  | .obj members => objectText (memberTexts members)

def itemTexts : List Json → List String
  | [] => []
  | item :: rest => text item :: itemTexts rest

def memberTexts : List (String × Json) → List (String × String)
  | [] => []
  | (name, value) :: rest => (name, text value) :: memberTexts rest

end

end Json

end Switchyard
