import Switchyard.Pattern
import Switchyard.Pool
import Switchyard.Text.Outline

/-!
# Captured parameters

A buffer holds a request path and the spans that a pattern captured from it, in the order of the pattern. Names may
repeat; the last capture of a name counts.
-/

namespace Switchyard

open Text (Span)

/-- A name and where its value stands in the path. -/
structure Capture where
  name : String
  span : Span
  deriving DecidableEq

namespace Pattern

/-- The captures of segments that stand for the segments of a path from `i` on; none if the path is too short. -/
def capturesFrom? (path : Path) : (i : Nat) → List Segment → Option (List Capture)
  | _, [] => some []
  | i, .literal _ :: rest => capturesFrom? path (i + 1) rest
  | i, .param name :: rest => do
    let span ← path.spans[i]?
    let captures ← capturesFrom? path (i + 1) rest
    return ⟨name, span⟩ :: captures
  | i, .wildcard name :: _ => some [⟨name, ⟨path.tailStart i, path.size⟩⟩]

/-- What a pattern captures from a path of which the first `start` segments are its stem. -/
def captures? (p : Pattern) (path : Path) (start : Nat) : Option (List Capture) :=
  capturesFrom? path start p.segments

end Pattern

structure Params where
  path : Path := {}
  captures : List Capture := []
  sizedFor : Nat := 0
  deriving DecidableEq

namespace Params

/-- The most captures that a buffer can have room for: each takes 32 bytes, and a buffer stays below 2^63 bytes. -/
def maxCapacity : Nat := 288230376151711743

/-- An empty buffer with room for `maxParams` captures. -/
def withCapacity (maxParams : Nat) : Params :=
  { sizedFor := maxParams }

def length (p : Params) : Nat :=
  p.captures.length

/-- The captures with their values, in the order of the pattern. -/
def pairs (p : Params) : List (String × String) :=
  p.captures.map fun c => (c.name, p.path.slice c.span)

/-- The value of a name; the last capture of the name counts. -/
def get? (p : Params) (name : String) : Option String :=
  p.pairs.reverse.lookup name

/-- Takes up a request path; the captures of the one before are gone. -/
def loadPath (p : Params) (clean : Bool) (text : String) : Params :=
  { p with path := p.path.load clean text, captures := [] }

/-- Records what a pattern captures. -/
def capture (p : Params) (pattern : Pattern) (start : Nat) : Params :=
  { p with captures := (pattern.captures? p.path start).getD [] }

/-- The captures as a map. -/
def outline (p : Params) : String :=
  Text.Outline.map p.pairs

instance : Recyclable Params where
  key := sizedFor
  recycle p := { p with path := p.path.clear, captures := [] }

end Params

end Switchyard
