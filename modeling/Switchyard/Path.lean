import Switchyard.Text.Offset
import Switchyard.Text.Percent
import Switchyard.Text.Split

/-!
# Request paths

A path is cut at its slashes into tokens, each token is unescaped, and the segments are joined again into one
text: `/` before each of them. Every segment keeps its span in that text, so the first segments are a front of the
text, and the segments from some place on are a tail of it.

With cleaning, a `.` segment is dropped and a `..` segment takes the one before it away, which cannot climb above
the root. A segment may hold slashes and dots that were escaped; only whole segments are looked at.
-/

namespace Switchyard

open Text (Span)

/-- A path as text, with the spans of its segments. -/
structure Path where
  chars : List Char := []
  spans : List Span := []
  deriving DecidableEq

namespace Path

/-- A path that nothing was loaded into. -/
def empty : Path := {}

/-! ## Building -/

/-- Adds a segment at the end. -/
def push (p : Path) (segment : List Char) : Path :=
  let start := Text.Utf8.size p.chars + 1
  ⟨p.chars ++ '/' :: segment, p.spans ++ [⟨start, start + Text.Utf8.size segment⟩]⟩

/-- The path without its last segment and the slash before it, if there is one; an error if the text cannot be cut
there. -/
def pop? (p : Path) : Option Path :=
  match p.spans.getLast? with
  | none => some p
  | some last =>
    if last.start = 0 then none
    else (Text.takeBytes? (last.start - 1) p.chars).map fun chars => ⟨chars, p.spans.dropLast⟩

def pop (p : Path) : Path :=
  p.pop?.getD p

/-- Takes up one token. -/
def step (clean : Bool) (p : Path) (token : List Char) : Path :=
  let segment := Text.Percent.decode token
  if segment.isEmpty then p
  else if clean && segment == ['.'] then p
  else if clean && segment == ['.', '.'] then p.pop
  else p.push segment

/-- The tokens of a request path: what stands between the slashes before the first `?`. -/
def tokens (text : String) : List (List Char) :=
  Text.splitOn '/' (Text.splitFirst '?' text.toList).1

/-- The text of a path without segments is a lone slash. -/
def rooted (p : Path) : Path :=
  if p.chars.isEmpty then { p with chars := ['/'] } else p

/-- Forgets everything. -/
def clear (_ : Path) : Path :=
  empty

/-- Replaces what the path holds by the segments of a request path. -/
def load (p : Path) (clean : Bool) (text : String) : Path :=
  ((tokens text).foldl (step clean) p.clear).rooted

/-! ## Views -/

/-- The normalized text. -/
def text (p : Path) : String :=
  .ofList p.chars

/-- The number of segments. -/
def length (p : Path) : Nat :=
  p.spans.length

/-- The number of segments that end within the first `bytes` bytes. -/
def lengthWithin (p : Path) (bytes : Nat) : Nat :=
  (p.spans.takeWhile fun span => span.stop ≤ bytes).length

/-- The number of bytes of the text. -/
def size (p : Path) : Nat :=
  Text.Utf8.size p.chars

/-- The text of a span; none if the span does not lie in the text, or cuts a character. -/
def slice? (p : Path) (span : Span) : Option String :=
  (Text.cut? span p.chars).map String.ofList

def slice (p : Path) (span : Span) : String :=
  (p.slice? span).getD ""

/-- The segment at a place. -/
def segment? (p : Path) (i : Nat) : Option String :=
  p.spans[i]?.map p.slice

/-- The segments from a place on. -/
def segmentsFrom (p : Path) (i : Nat) : List String :=
  (p.spans.drop i).map p.slice

/-- The text of the first `count` segments, `/` for none of them and past the end. -/
def front (p : Path) (count : Nat) : String :=
  match count with
  | 0 => "/"
  | last + 1 =>
    match p.spans[last]? with
    | some span => p.slice ⟨0, span.stop⟩
    | none => "/"

/-- Where the tail from a place on starts: at its segment, or at the end of the text. -/
def tailStart (p : Path) (i : Nat) : Nat :=
  match p.spans[i]? with
  | some span => span.start
  | none => p.size

end Path

end Switchyard
