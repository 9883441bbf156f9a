import Switchyard.Path

/-!
# Route patterns

A pattern is a row of tokens between slashes. `:name` stands for one segment, `*name` for all the rest and only at
the end, anything else for itself. The literal tokens in front make the stem, under which the route is found; the
tokens from the first dynamic one on are compared segment by segment. A row of tokens that is no pattern is refused.
-/

namespace Switchyard

open Text (Span)

/-- What one token stands for. -/
inductive Segment where
  | literal (text : String)
  | param (name : String)
  | wildcard (name : String)
  deriving DecidableEq

namespace Segment

def ofToken : List Char → Segment
  | ':' :: name => .param (.ofList name)
  | '*' :: name => .wildcard (.ofList name)
  | token => .literal (.ofList token)

def isLiteral : Segment → Bool
  | .literal _ => true
  | _ => false

def isDynamic (s : Segment) : Bool :=
  !s.isLiteral

def isWildcard : Segment → Bool
  | .wildcard _ => true
  | _ => false

/-- The name under which a capture is kept. -/
def name? : Segment → Option String
  | .literal _ => none
  | .param name => some name
  | .wildcard name => some name

/-- The token as written. -/
def token : Segment → String
  | .literal text => text
  | .param name => ":" ++ name
  | .wildcard name => "*" ++ name

end Segment

structure Pattern where
  raw : String
  stem : String
  segments : List Segment
  deriving DecidableEq

/-- Why a route is refused. -/
inductive RouteError where
  | tooManyWildcards (pattern : String)
  | wildcardNotLast (pattern : String)
  | unsupportedMethod (name : String)
  deriving DecidableEq

namespace RouteError

def message : RouteError → String
  | .tooManyWildcards pattern => "too many wildcards in pattern '" ++ pattern ++ "', at most one is allowed"
  | .wildcardNotLast pattern => "wildcard must be the last segment of pattern '" ++ pattern ++ "'"
  | .unsupportedMethod name => "unsupported http method: " ++ name

end RouteError

namespace Pattern

/-- The tokens of a pattern: its non-empty pieces between slashes. -/
def tokens (raw : String) : List (List Char) :=
  Text.pieces '/' raw.toList

/-- A slash before each token, or a lone slash. -/
def stemOf (lead : List Segment) : String :=
  if lead.isEmpty then "/" else String.join (lead.map fun s => "/" ++ s.token)

/-- Reads a pattern: at most one wildcard, and nothing after it. -/
def compile (raw : String) : Except RouteError Pattern :=
  let row := (tokens raw).map Segment.ofToken
  let lead := row.takeWhile Segment.isLiteral
  let segments := row.dropWhile Segment.isLiteral
  let wildcards := segments.countP Segment.isWildcard
  if 1 < wildcards then .error (.tooManyWildcards raw)
  else if wildcards = 1 && !segments.getLast?.any Segment.isWildcard then .error (.wildcardNotLast raw)
  else .ok ⟨raw, stemOf lead, segments⟩

/-- The number of captures. -/
def dynamicCount (p : Pattern) : Nat :=
  p.segments.countP Segment.isDynamic

/-- The place of the wildcard after the stem. -/
def wildcardPosition (p : Pattern) : Option Nat :=
  if p.segments.getLast?.any Segment.isWildcard then some (p.segments.length - 1) else none

/-- Whether one segment of a path fits. -/
def fits : Segment → String → Bool
  | .literal text, segment => text == segment
  | _, _ => true

/-- Whether the segments of a path after the first `start` fit: as many as the pattern has, or, with a wildcard, at
least as many as stand before it; literals equal. -/
def accepts (p : Pattern) (path : Path) (start : Nat) : Bool :=
  let remaining := path.length - start
  let arity :=
    match p.wildcardPosition with
    | some position => position ≤ remaining
    | none => remaining = p.segments.length
  arity && (p.segments.zip (path.segmentsFrom start)).all fun (s, text) => fits s text

end Pattern

end Switchyard
