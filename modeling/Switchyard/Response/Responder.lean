import Switchyard.Response.Envelope

/-!
# Responders

What an entry answers with. Writing a responder to a draft adds its payload to the body and sets the status, the
content type or the location; a responder that cannot be written fails before it changes the draft.

The kinds of responders are the built-in ones. Anything else that writes to a draft could be a responder too; such kinds
are left out.
-/

namespace Switchyard

open Http (Status HeaderName HeaderValue MediaType)

inductive Responder where
  | text (s : String)
  | bytes (bs : List UInt8)
  | status (s : Status)
  /-- The inner responder under another status. -/
  | withStatus (s : Status) (inner : Responder)
  | plain (type : MediaType) (body : List UInt8) (status : Status)
  | json (envelope : Envelope)
  | redirect (location : String) (status : Status)

namespace Responder

/-- A redirect that is permanent, or not. -/
def redirectTo (location : String) (permanent : Bool) : Responder :=
  .redirect location (if permanent then .movedPermanently else .found)

/-- The status the responder is written with. -/
def code : Responder → Status
  | .text _ => .ok
  | .bytes _ => .ok
  | .status s => s
  | .withStatus s _ => s
  | .plain _ _ s => s
  | .json e => e.code
  | .redirect _ s => s

/-- Writes an envelope; one of status 204 is not written, but its status is set. -/
def writeEnvelope (e : Envelope) : Drafting Unit := do
  if e.code = .noContent then
    modify (·.setStatus e.code)
  else
    match e.text with
    | .ok body => Drafting.writeParts e.code .json (Text.Utf8.encode body.toList)
    | .error failure => throw failure

/-- Writes a bare status: an envelope for an error, nothing for 204 and 304, the reason phrase otherwise. -/
def writeStatus (s : Status) : Drafting Unit := do
  if s.isError then
    writeEnvelope (.error s)
  else if s = .noContent || s = .notModified then
    modify (·.setStatus s)
  else
    Drafting.writeParts s .plainText (Text.Utf8.encode (s.reason?.getD "").toList)

/-- Writes a redirect, which needs a location and a status of redirection. -/
def writeRedirect (location : String) (s : Status) : Drafting Unit := do
  if location.isEmpty || !s.isRedirection then
    throw (.invalidRedirect location s)
  match HeaderValue.ofText? location with
  | none => throw .invalidHeader
  | some value =>
    modify (·.setHeader .location value)
    modify (·.setStatus s)
    modify (·.markDone)

/-- Writes the responder to a draft. -/
def writeTo : Responder → Drafting Unit
  | .text s => Drafting.writeParts .ok .plainText (Text.Utf8.encode s.toList)
  | .bytes bs => Drafting.writeParts .ok .bytes bs
  | .status s => writeStatus s
  | .withStatus s inner => do
    inner.writeTo
    modify (·.setStatus s)
  | .plain type body s => Drafting.writeParts s type body
  | .json e => writeEnvelope e
  | .redirect location s => writeRedirect location s

end Responder

end Switchyard
