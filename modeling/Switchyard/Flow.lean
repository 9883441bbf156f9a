import Switchyard.Response.Responder
import Switchyard.Text.Outline

/-!
# What an entry wants next, and how it may fail

An entry that fails panics. A panic that is caught becomes a fault: its message, and the place in the source where it
was raised.
-/

namespace Switchyard

/-- What an entry wants to happen after it. -/
inductive Flow where
  /-- Go on with the next entry. -/
  | proceed
  /-- Write this response and stop. -/
  | respond (r : Responder)
  /-- Stop without writing anything. -/
  | stop

def Flow.outline : Flow → String
  | .proceed => "Continue"
  | .respond r => Text.Outline.tagged "Respond" (toString r.code.code)
  | .stop => "Break"

/-- What a panic is raised with: a message, or something that is no text. -/
inductive Panic.Payload where
  | text (message : String)
  | other
  deriving DecidableEq

/-- A panic, with the place in the source that it was raised at, if that was recorded. -/
structure Panic where
  payload : Panic.Payload
  location : Option String := none
  deriving DecidableEq

/-- A panic that was caught. -/
structure Fault where
  message : String
  location : Option String := none
  deriving DecidableEq

namespace Fault

def ofPanic (p : Panic) : Fault where
  message :=
    match p.payload with
    | .text message => message
    | .other => "unknown panic payload"
  location := p.location

/-- The message, and where it comes from. -/
def text (f : Fault) : String :=
  match f.location with
  | some location => f.message ++ " at " ++ location
  | none => f.message

end Fault

end Switchyard
