import Switchyard.Text.Split
import Switchyard.Text.Utf8

/-!
# Request targets

A target is a path with an optional query (`/a?b`), `*`, an authority alone (`host:80`), or a scheme and an
authority followed by a path and query. A fragment is dropped. Every part is kept as written, but `http` and
`https` are in lower case; an absolute target without a path has the path `/`.
-/

namespace Switchyard.Http

structure Uri where
  scheme : Option String := none
  authority : Option String := none
  path : String
  query : Option String := none
  deriving DecidableEq

namespace Uri

/-- The target of a fresh request. -/
def root : Uri :=
  ⟨none, none, "/", none⟩

/-- The longest target, in bytes. -/
def maxSize : Nat := 65534

/-- The longest scheme. -/
def maxScheme : Nat := 64

/-- The most colons an authority may have in a row of parts. -/
def maxColons : Nat := 8

/-! ## Characters -/

/-- A character of a path. -/
def isPathChar (c : Char) : Bool :=
  let n := c.toNat
  n = 0x21 || n = 0x22 || (0x24 ≤ n && n ≤ 0x3B) || n = 0x3D || (0x40 ≤ n && n ≤ 0x5F) || (0x61 ≤ n && n ≠ 0x7F)

/-- A character of a query. -/
def isQueryChar (c : Char) : Bool :=
  let n := c.toNat
  n = 0x21 || (0x24 ≤ n && n ≤ 0x3B) || n = 0x3D || (0x3F ≤ n && n ≠ 0x7F)

def isSchemeChar (c : Char) : Bool :=
  c.isAlphanum || "+-.~".toList.contains c

/-- A character of an authority, `%` apart. -/
def isAuthorityChar (c : Char) : Bool :=
  c.isAlphanum || "!$&'()*+,-.:;=@[]_~".toList.contains c

/-! ## Parts -/

/-- Reads a query up to its fragment. -/
def queryOf? (cs : List Char) : Option String :=
  let query := (Text.splitFirst '#' cs).1
  if query.all isQueryChar then some (.ofList query) else none

/-- Reads a path, a query and a fragment. -/
def pathAndQuery? (cs : List Char) : Option (String × Option String) :=
  let path := cs.takeWhile fun c => c ≠ '?' && c ≠ '#'
  let path? := if path.all isPathChar then some (String.ofList path) else none
  match cs.drop path.length with
  | '?' :: rest => path?.bind fun p => (queryOf? rest).map fun q => (p, some q)
  | _ => path?.map fun p => (p, none)

/-- What has been seen of an authority. -/
structure Survey where
  colons : Nat := 0
  opened : Bool := false
  closed : Bool := false
  percent : Bool := false

/-- Goes past one character of an authority. -/
def Survey.step (s : Survey) (c : Char) : Option Survey :=
  match c with
  | ':' => if maxColons ≤ s.colons then none else some { s with colons := s.colons + 1 }
  | '[' => if s.percent || s.opened then none else some { s with opened := true }
  | ']' => if !s.opened || s.closed then none else some { s with closed := true, colons := 0, percent := false }
  | '@' => some { s with colons := 0, percent := false }
  | '%' => some { s with percent := true }
  | c => if isAuthorityChar c then some s else none

/-- Whether these characters make an authority: at most one colon after the user and the brackets, one pair of
brackets at most, something after `@`, and no `%` in the host. -/
def isAuthority (cs : List Char) : Bool :=
  match cs.foldlM Survey.step {} with
  | none => false
  | some s => s.opened == s.closed && s.colons ≤ 1 && cs.getLast? != some '@' && !s.percent

/-- The authority in front, and what follows it. -/
def splitAuthority (cs : List Char) : List Char × List Char :=
  (cs.takeWhile fun c => c ≠ '/' && c ≠ '?' && c ≠ '#', cs.dropWhile fun c => c ≠ '/' && c ≠ '?' && c ≠ '#')

/-- Whether a text starts with these characters in any case. -/
def startsWith (front : String) (cs : List Char) : Bool :=
  (cs.take front.length).map Char.toLower == front.toList

/-- The scheme in front of `://`, and what follows; none if no scheme is written, an error if it is too long. -/
def splitScheme (cs : List Char) : Except Unit (Option (String × List Char)) :=
  if startsWith "http://" cs then .ok (some ("http", cs.drop 7))
  else if startsWith "https://" cs then .ok (some ("https", cs.drop 8))
  else
    let scheme := cs.takeWhile isSchemeChar
    match cs.drop scheme.length with
    | ':' :: '/' :: '/' :: rest =>
      if maxScheme < scheme.length then .error () else .ok (some (.ofList scheme, rest))
    | _ => .ok none

/-! ## Reading and writing -/

/-- Reads a target that does not start with `/`. -/
def ofChars? (cs : List Char) : Option Uri :=
  match splitScheme cs with
  | .error _ => none
  | .ok none =>
    if isAuthority cs then some ⟨none, some (.ofList cs), "", none⟩ else none
  | .ok (some (scheme, rest)) =>
    let (authority, rest) := splitAuthority rest
    if authority.isEmpty || !isAuthority authority then none
    else
      (pathAndQuery? rest).map fun (path, query) =>
        ⟨some scheme, some (.ofList authority), if path.isEmpty then "/" else path, query⟩

/-- Reads a target. -/
def ofText? (s : String) : Option Uri :=
  if maxSize < s.utf8ByteSize then none
  else
    match s.toList with
    | [] => none
    | ['*'] => some ⟨none, none, "*", none⟩
    | '/' :: rest => (pathAndQuery? ('/' :: rest)).map fun (path, query) => ⟨none, none, path, query⟩
    | cs => ofChars? cs

/-- The target as text, without its fragment. -/
def text (u : Uri) : String :=
  (u.scheme.elim "" (· ++ "://")) ++ u.authority.getD "" ++ u.path ++ (u.query.elim "" ("?" ++ ·))

end Uri

end Switchyard.Http
