import Switchyard.Text.Utf8

/-!
# Bodies of finished responses

A body is one chunk, or nothing; it is handed out as a whole at the first poll.
-/

namespace Switchyard

structure ResponseBody where
  chunk : Option (List UInt8) := none
  deriving DecidableEq

namespace ResponseBody

def empty : ResponseBody := {}

/-- The body of these bytes; without bytes there is no chunk. -/
def ofBytes (bytes : List UInt8) : ResponseBody :=
  if bytes.isEmpty then empty else ⟨some bytes⟩

/-- The body of a text. -/
def ofText (s : String) : ResponseBody :=
  ofBytes (Text.Utf8.encode s.toList)

/-- Hands the chunk out, if it is still there. -/
def poll (b : ResponseBody) : Option (List UInt8) × ResponseBody :=
  (b.chunk, empty)

def isEnd (b : ResponseBody) : Bool :=
  b.chunk.isNone

/-- The number of bytes still to come. -/
def remaining (b : ResponseBody) : Nat :=
  (b.chunk.getD []).length

def bytes (b : ResponseBody) : List UInt8 :=
  b.chunk.getD []

end ResponseBody

end Switchyard
