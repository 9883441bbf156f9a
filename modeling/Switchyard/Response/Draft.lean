import Switchyard.Http.Headers
import Switchyard.Http.MediaType
import Switchyard.Http.Status

/-!
# Responses in the making

A draft gathers the status, the headers and the body of a response while a request is served. Writing to the body
makes the draft done, even if nothing is written.
-/

namespace Switchyard

open Http (Status Headers HeaderName HeaderValue MediaType)

/-- Why a request cannot be read, or a response not be written. -/
inductive Failure where
  /-- The body of the request broke off. -/
  | body (cause : String)
  | bodyConsumed
  | json (cause : String)
  | invalidHeader
  | invalidRedirect (location : String) (status : Status)
  deriving DecidableEq

namespace Failure

def message : Failure → String
  | .body cause => "request body error: " ++ cause
  | .bodyConsumed => "request body has already been consumed"
  | .json cause => "json error: " ++ cause
  | .invalidHeader => "invalid header: failed to parse header value"
  | .invalidRedirect location status =>
    "invalid redirect location '" ++ location ++ "' with status " ++ toString status.code ++ " " ++
      status.reason?.getD "<unknown status code>"

end Failure

structure Draft where
  /-- The status, if one was set. -/
  written : Option Status := none
  headers : Headers := {}
  body : List UInt8 := []
  bytesWritten : Nat := 0
  done : Bool := false
  deriving DecidableEq

namespace Draft

/-- The status: 200 unless one was set. -/
def status (d : Draft) : Status :=
  d.written.getD .ok

def setStatus (d : Draft) (status : Status) : Draft :=
  { d with written := some status }

def write (d : Draft) (bytes : List UInt8) : Draft :=
  { d with body := d.body ++ bytes, bytesWritten := d.bytesWritten + bytes.length, done := true }

def setHeader (d : Draft) (name : HeaderName) (value : HeaderValue) : Draft :=
  { d with headers := d.headers.insert name value }

def appendHeader (d : Draft) (name : HeaderName) (value : HeaderValue) : Draft :=
  { d with headers := d.headers.append name value }

def removeHeader (d : Draft) (name : HeaderName) : Draft :=
  { d with headers := d.headers.erase name }

def markDone (d : Draft) : Draft :=
  { d with done := true }

end Draft

/-- Work on a draft that may fail half way; what was done until then stays done. -/
abbrev Drafting := EStateM Failure Draft

namespace Drafting

def setContentType (type : MediaType) : Drafting Unit := do
  match HeaderValue.ofText? type.text with
  | some value => modify (·.setHeader .contentType value)
  | none => throw .invalidHeader

/-- Writes a body of some type under a status. -/
def writeParts (status : Status) (type : MediaType) (body : List UInt8) : Drafting Unit := do
  setContentType type
  modify (·.setStatus status)
  modify (·.write body)

end Drafting

end Switchyard
