import Switchyard.Text.Split

/-!
# Media types

A type, a subtype and parameters, as one text. Case is of no matter but in the values of parameters, so all else is
kept in lower case; the value of `charset` is of no case either. A value may stand between quotes, and then hold
semicolons.
-/

namespace Switchyard.Http

structure MediaType where
  text : String
  deriving DecidableEq

namespace MediaType

def plainText : MediaType := ⟨"text/plain; charset=utf-8"⟩
def json : MediaType := ⟨"application/json"⟩
def bytes : MediaType := ⟨"application/octet-stream"⟩

/-- Where in the parameters a character stands. -/
inductive Place where
  /-- In a name, of which these characters have come, in lower case. -/
  | name (soFar : List Char)
  /-- At the start of the value of a parameter, of case or not. -/
  | start (cased : Bool)
  /-- Inside a value that stands without quotes. -/
  | value (cased : Bool)
  /-- Right after an opening quote; a quote here closes nothing. -/
  | opened (cased : Bool)
  /-- Inside quotes. -/
  | quoted (cased : Bool)
  /-- After the closing quote. -/
  | closed
  deriving DecidableEq

/-- A character of a value, in lower case where case is of no matter. -/
def valueChar (cased : Bool) (c : Char) : Char :=
  if cased then c else c.toLower

/-- Whether the value of a parameter is of case. -/
def isCased (name : List Char) : Bool :=
  name.dropWhile (· = ' ') != "charset".toList

/-- What a character is written as, and where the next one stands. -/
def Place.step (p : Place) (c : Char) : Char × Place :=
  match p with
  | .name soFar => if c = '=' then (c, .start (isCased soFar)) else (c.toLower, .name (soFar ++ [c.toLower]))
  | .start cased => if c = '"' then (c, .opened cased) else (valueChar cased c, .value cased)
  | .value cased => if c = ';' then (c, .name []) else (valueChar cased c, .value cased)
  | .opened cased => (valueChar cased c, .quoted cased)
  | .quoted cased => if c = '"' then (c, .closed) else (valueChar cased c, .quoted cased)
  | .closed => (c, if c = ';' then .name [] else .closed)

/-- The parameters, from such a place on, with their names in lower case. -/
def parameters : Place → List Char → List Char
  | _, [] => []
  | p, c :: cs => (p.step c).1 :: parameters (p.step c).2 cs

/-- Reads a media type written in any case. Where no parameter follows, what stands after the type is dropped. -/
def ofText (s : String) : MediaType :=
  match Text.splitFirst ';' s.toList with
  | (kind, none) => ⟨.ofList (kind.map Char.toLower)⟩
  | (kind, some rest) =>
    let kind := kind.map Char.toLower
    if rest.all (· = ' ') then ⟨.ofList kind⟩ else ⟨.ofList (kind ++ ';' :: parameters (.name []) rest)⟩

/-- The type of a file by the extension of its name. -/
def byExtension : List (String × MediaType) :=
  [("html", ⟨"text/html; charset=utf-8"⟩), ("htm", ⟨"text/html; charset=utf-8"⟩),
    ("css", ⟨"text/css; charset=utf-8"⟩), ("js", ⟨"application/javascript; charset=utf-8"⟩),
    ("mjs", ⟨"application/javascript; charset=utf-8"⟩), ("json", json), ("txt", plainText),
    ("csv", ⟨"text/csv; charset=utf-8"⟩), ("xml", ⟨"text/xml"⟩), ("png", ⟨"image/png"⟩),
    ("jpg", ⟨"image/jpeg"⟩), ("jpeg", ⟨"image/jpeg"⟩), ("gif", ⟨"image/gif"⟩), ("bmp", ⟨"image/bmp"⟩),
    ("svg", ⟨"image/svg+xml"⟩), ("woff", ⟨"font/woff"⟩), ("woff2", ⟨"font/woff2"⟩), ("pdf", ⟨"application/pdf"⟩)]

/-- What follows the last dot of a file name, unless that dot is its first character. -/
def extension (name : String) : String :=
  match (Text.splitOn '.' name.toList).reverse with
  | last :: before :: rest => if before.isEmpty && rest.isEmpty then "" else .ofList last
  | _ => ""

/-- The type of a file by its name. -/
def ofFileName (name : String) : MediaType :=
  (byExtension.lookup (extension name).toLower).getD bytes

end MediaType

end Switchyard.Http
