import Switchyard.Json
import Switchyard.Response.Draft

/-!
# The JSON envelope

An envelope carries data, error messages and a status code of its own. Written, it has the members `data`, `errors`,
`code` and `success` in this order; the first is left out when there is no data, the second when there are no
messages, and the last tells whether the code is below 400.
-/

namespace Switchyard

open Http (Status)

/-- What an envelope carries: a JSON value, or something that cannot be written as one. -/
inductive Payload where
  | value (v : Json)
  | unwritable (cause : String)

structure Envelope where
  data : Option Payload := none
  errors : List String := []
  code : Status := .ok

namespace Envelope

/-- Data, under the status 200. -/
def ok (data : Payload) : Envelope :=
  { data := some data }

def errorWith (code : Status) (messages : List String) : Envelope :=
  { errors := messages, code }

/-- The reason phrase of a status as the only message. -/
def error (code : Status) : Envelope :=
  errorWith code [code.reason?.getD "unknown error"]

def dataMember : Option Payload → Except Failure (List (String × String))
  | none => .ok []
  | some (.value v) => .ok [("data", v.text)]
  | some (.unwritable cause) => .error (.json cause)

/-- The messages, each in an object of its own. -/
def errorsMember (errors : List String) : List (String × String) :=
  if errors.isEmpty then []
  else [("errors", (Json.arr (errors.map fun message => .obj [("message", .str message)])).text)]

/-- The envelope as compact text. -/
def text (e : Envelope) : Except Failure String := do
  let data ← dataMember e.data
  return Json.objectText (data ++ errorsMember e.errors ++
    [("code", toString e.code.code), ("success", if e.code.isSuccess then "true" else "false")])

end Envelope

end Switchyard
