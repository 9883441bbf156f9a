import Switchyard.Context
import Switchyard.Files
import Switchyard.Flow
import Switchyard.Json

/-!
# Journals

What happens while a request is served, in order: which entries start and finish, what is written and rendered,
which files are read, what scripts note down, and the records that are logged.
-/

namespace Switchyard

open Http (Status Method HeaderValue)

/-- The two lists of a chain. -/
inductive LaneKind where
  | middleware
  | handlers
  deriving DecidableEq

/-- A logged record. -/
inductive Record where
  | renderFailed (cause method path : String)
  | panicked (message location method path : String)
  | fileUnreadable (path request : String)
  | served (number : Nat) (clientIp userAgent : String) (status : Status) (method path : String)
  | requestPanicked

/-- What is reported of a finished request that matched a route. -/
structure Summary where
  group : String
  method : Method
  path : String
  status : Status

/-- What a script notes down of an action. -/
inductive Reply where
  | nothing
  | ok
  | count (n : Nat)
  | flag (b : Bool)
  | text (s : String)
  | int (n : Int64)
  | before
  | after
  | headerValue (v : HeaderValue)
  | bytes (bs : List UInt8)
  | json (v : Json)
  | failed (f : Failure)
  | draft (d : Draft)
  | pairs (ps : List (String × String))
  | info (c : Context)
  | status (s : Status)

inductive Event where
  | started (lane : LaneKind) (index : Nat)
  | finished (lane : LaneKind) (index : Nat) (flow : Flow)
  | wrote (bytes : List UInt8)
  | rendered (r : Responder) (failure : Option Failure)
  | recycled
  /-- A panic was caught and the response so far dropped. -/
  | caught (fault : Fault)
  | fileRead (path : FilePath)
  | note (script action : String) (reply : Reply)
  | logged (r : Record)
  | span (group method uri : String)
  | reported (s : Summary)

/-- The events of a request, the first in front. -/
abbrev Journal := List Event

namespace Journal

/-- What scripts noted down. -/
def notes (j : Journal) : List (String × String × Reply) :=
  j.filterMap fun
    | .note script action reply => some (script, action, reply)
    | _ => none

/-- The records and spans. -/
def records (j : Journal) : List Event :=
  j.filter fun
    | .logged _ => true
    | .span _ _ _ => true
    | _ => false

/-- The reports of finished requests. -/
def summaries (j : Journal) : List Summary :=
  j.filterMap fun
    | .reported s => some s
    | _ => none

end Journal

end Switchyard
