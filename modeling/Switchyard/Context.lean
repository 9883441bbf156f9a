import Switchyard.Http.Address
import Switchyard.Http.Uri
import Switchyard.Params
import Switchyard.Response.Body
import Switchyard.Response.Draft
import Switchyard.Text.Percent

/-!
# Request contexts

A context carries one request through its chain: what was asked, how it was routed, what entries keep for each
other, and the response in the making. Contexts are pooled; an emptied one is as good as new.

- emptying gives a context with nothing in it but the size of its buffer (`recycle_eq`).
-/

namespace Switchyard

open Http (Method Verb Uri Headers HeaderName HeaderValue Address Status)

namespace Http

inductive Version where
  | http10
  | http11
  | http2
  deriving DecidableEq

def Version.text : Version → String
  | .http10 => "HTTP/1.0"
  | .http11 => "HTTP/1.1"
  | .http2 => "HTTP/2.0"

end Http

/-- The body of a request: its bytes, and why it breaks off after them if it does. -/
structure RequestBody where
  bytes : List UInt8 := []
  failure : Option String := none
  deriving DecidableEq

namespace RequestBody

/-- Reads all of it. -/
def collect (b : RequestBody) : Except Failure (List UInt8) :=
  match b.failure with
  | some cause => .error (.body cause)
  | none => .ok b.bytes

end RequestBody

structure Request where
  method : Method
  uri : Uri
  version : Http.Version := .http11
  headers : Headers := {}
  extension : Option String := none
  body : RequestBody := {}
  remote : Option Address := none

/-- A value that entries keep for each other. -/
inductive Datum where
  | int (n : Int64)
  | text (s : String)
  deriving DecidableEq

/-- What a context knows of its route. -/
structure RouteInfo where
  pattern : String
  group : String
  /-- The middleware list of the route's group. -/
  list : Nat
  /-- The number of the route's own handlers. -/
  handlers : Nat
  deriving DecidableEq

structure Context where
  method : Method := .default
  uri : Uri := .root
  version : Http.Version := .http11
  headers : Headers := {}
  extension : Option String := none
  /-- The body, until it is read. -/
  body : Option RequestBody := none
  remote : Option Address := none
  query : List (String × String) := []
  route : Option RouteInfo := none
  params : Params := {}
  allowed : List Verb := []
  data : List (String × Datum) := []
  draft : Draft := {}
  deriving DecidableEq

namespace Context

/-- A context whose buffer has room for so many captures. -/
def withCapacity (maxParams : Nat) : Context :=
  { params := .withCapacity maxParams }

/-- Takes a request up. The query is read only where the target has one. -/
def load (c : Context) (r : Request) : Context :=
  { c with
    method := r.method
    uri := r.uri
    version := r.version
    headers := r.headers
    extension := r.extension
    body := some r.body
    remote := r.remote
    query := r.uri.query.elim c.query Text.Form.fields }

/-- Drops whatever was written of the response. -/
def resetResponse (c : Context) : Context :=
  { c with draft := {} }

def recycle (c : Context) : Context :=
  { c.resetResponse with
    method := .default
    uri := .root
    version := .http11
    headers := {}
    extension := none
    body := none
    remote := none
    query := []
    route := none
    params := Recyclable.recycle c.params
    allowed := []
    data := [] }

instance : Recyclable Context where
  key c := c.params.sizedFor
  recycle := recycle

theorem recycle_eq (c : Context) : c.recycle = withCapacity c.params.sizedFor := rfl

/-! ## What was asked -/

/-- The path of the target, as sent. -/
def path (c : Context) : String :=
  c.uri.path

/-- The first value of a query field. -/
def query? (c : Context) (name : String) : Option String :=
  c.query.lookup name

/-- A text without the blanks at its ends. -/
def trim (s : String) : String :=
  let blank := fun c => c = ' ' || c = '\t'
  .ofList ((s.toList.dropWhile blank).reverse.dropWhile blank).reverse

/-- The text of a request header without the blanks at its ends. -/
def headerText? (c : Context) (name : HeaderName) : Option String :=
  ((c.headers.get? name).bind HeaderValue.toText?).map trim

/-- The first address in the list a proxy has sent on. -/
def forwarded? (c : Context) : Option String :=
  (c.headerText? .forwardedFor).map fun list => trim (.ofList (Text.splitFirst ',' list.toList).1)

/-- The address of the client: as a proxy tells it, or else that of the peer. -/
def clientIp? (c : Context) : Option String :=
  ((c.headerText? .realIp).filter (!·.isEmpty)).or
    ((c.forwarded?.filter (!·.isEmpty)).or (c.remote.map fun address => address.ip.text))

/-- The agent header, empty if there is none that is text. -/
def userAgent (c : Context) : String :=
  ((c.headers.get? .userAgent).bind HeaderValue.toText?).getD ""

/-! ## What entries may change -/

/-- A change of a context that an entry makes. -/
inductive Change where
  | write (bytes : List UInt8)
  | setStatus (status : Status)
  | setHeader (name : HeaderName) (value : HeaderValue)
  | appendHeader (name : HeaderName) (value : HeaderValue)
  | removeHeader (name : HeaderName)
  | takeBody
  | setExtension (value : Option String)
  | keep (key : String) (datum : Datum)
  | forget (key : String)
  deriving DecidableEq

/-- The data with one key gone. -/
def without (data : List (String × Datum)) (key : String) : List (String × Datum) :=
  data.filter (·.1 != key)

def apply (c : Context) : Change → Context
  | .write bytes => { c with draft := c.draft.write bytes }
  | .setStatus status => { c with draft := c.draft.setStatus status }
  | .setHeader name value => { c with draft := c.draft.setHeader name value }
  | .appendHeader name value => { c with draft := c.draft.appendHeader name value }
  | .removeHeader name => { c with draft := c.draft.removeHeader name }
  | .takeBody => { c with body := none }
  | .setExtension value => { c with extension := value }
  | .keep key datum => { c with data := (key, datum) :: without c.data key }
  | .forget key => { c with data := without c.data key }

/-- The datum kept under a key. -/
def datum? (c : Context) (key : String) : Option Datum :=
  c.data.lookup key

def outline (c : Context) : String :=
  Text.Outline.record "RequestContext"
    [("method", c.method.name), ("uri", c.uri.text), ("params", c.params.outline),
      ("status", toString c.draft.status.code), ("bytes_written", toString c.draft.bytesWritten),
      ("done", Text.Outline.flag c.draft.done)] true

end Context

end Switchyard
