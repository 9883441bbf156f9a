import Switchyard.Text.Digit
import Switchyard.Text.Unprintable

/-!
# Outlines of values

The one-line text by which a value is shown to a person: a record is its name and its fields between braces, and
`..` at the end says that more fields are left out. Texts stand between quotes, with escapes for quotes,
backslashes, controls and whatever shows nothing of its own.
-/

namespace Switchyard.Text.Outline

/-- One character inside quotes. -/
def escapeChar (c : Char) : String :=
  match c with
  | '\x00' => "\\0"
  | '\t' => "\\t"
  | '\r' => "\\r"
  | '\n' => "\\n"
  | '"' => "\\\""
  | '\\' => "\\\\"
  | c => if isUnprintable c then "\\u\x7b" ++ hex c.toNat ++ "\x7d" else c.toString

/-- A text between quotes. -/
def quoted (s : String) : String :=
  "\"" ++ String.join (s.toList.map escapeChar) ++ "\""

/-- `true` or `false`. -/
def flag (b : Bool) : String :=
  if b then "true" else "false"

/-- A record: its name and its fields. With `more` set, further fields are said to be left out. -/
def record (name : String) (fields : List (String × String)) (more : Bool) : String :=
  let shown := fields.map (fun (label, value) => label ++ ": " ++ value) ++ (if more then [".."] else [])
  name ++ " \x7b " ++ ", ".intercalate shown ++ " \x7d"

/-- A map of texts. -/
def map (entries : List (String × String)) : String :=
  "\x7b" ++ ", ".intercalate (entries.map fun (key, value) => quoted key ++ ": " ++ quoted value) ++ "\x7d"

/-- A list. -/
def list (items : List String) : String :=
  "[" ++ ", ".intercalate items ++ "]"

/-- A value under a tag. -/
def tagged (tag value : String) : String :=
  tag ++ "(" ++ value ++ ")"

end Switchyard.Text.Outline
