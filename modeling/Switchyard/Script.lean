import Switchyard.Json.Reader
import Switchyard.Program

/-!
# Scripts

A script is a list of actions under a name. Run as an entry, it does one action after the other and notes down what
each of them gave; an action that ends the script is noted down just before it does.
-/

namespace Switchyard

open Http (Status HeaderName HeaderValue MediaType)

/-- The kinds of data that an action may ask for. -/
inductive DatumKind where
  | int
  | text
  deriving DecidableEq

inductive Action where
  | proceed
  | stop
  | respond (r : Responder)
  | echo (name : String)
  | drive (d : Drive)
  | render (r : Responder)
  | write (bytes : List UInt8)
  | setStatus (s : Status)
  | setHeader (name value : String)
  | appendHeader (name value : String)
  | removeHeader (name : String)
  | setContentType (type : MediaType)
  | response
  | set (key : String) (datum : Datum)
  | get (key : String) (kind : DatumKind)
  | add (key : String) (amount : Int64)
  | append (key text : String)
  | remove (key : String) (kind : DatumKind)
  | setExtension (value : String)
  | getExtension
  | param (name : String)
  | params
  | query (name : String)
  | queryOr (name default : String)
  | header (name : String)
  | clientIp
  | body
  | bodyJson
  | info
  | outline
  | chain
  | fault
  | recycle
  | panic (payload : Panic)

namespace Action

/-- The word by which an action is noted down. -/
def word : Action → String
  | .proceed => "continue"
  | .stop => "break"
  | .respond _ => "respond"
  | .echo _ => "echo"
  | .drive .all => "next"
  | .drive .middleware => "next_middleware"
  | .drive .handlers => "next_handler"
  | .render _ => "render"
  | .write _ => "write"
  | .setStatus _ => "set_status"
  | .setHeader _ _ => "set_header"
  | .appendHeader _ _ => "append_header"
  | .removeHeader _ => "remove_header"
  | .setContentType _ => "set_content_type"
  | .response => "response"
  | .set _ _ => "set"
  | .get _ _ => "get"
  | .add _ _ => "add"
  | .append _ _ => "append"
  | .remove _ _ => "remove"
  | .setExtension _ => "ext_set"
  | .getExtension => "ext_get"
  | .param _ => "param"
  | .params => "params"
  | .query _ => "query"
  | .queryOr _ _ => "query_or"
  | .header _ => "header"
  | .clientIp => "client_ip"
  | .body => "body"
  | .bodyJson => "body_json"
  | .info => "info"
  | .outline => "debug"
  | .chain => "chain"
  | .fault => "fault"
  | .recycle => "recycle"
  | .panic _ => "panic"

/-- A text, or nothing. -/
def textReply (s? : Option String) : Reply :=
  s?.elim .nothing .text

/-- A datum if it is of the kind asked for. -/
def datumReply (kind : DatumKind) : Option Datum → Reply
  | some (.int n) => if kind = .int then .int n else .nothing
  | some (.text s) => if kind = .text then .text s else .nothing
  | none => .nothing

/-- Reads the body, which can be done once. -/
def readBody (c : Context) : Except Failure (List UInt8) :=
  match c.body with
  | none => .error .bodyConsumed
  | some unread => unread.collect

def bodyReply : Except Failure (List UInt8) → Reply
  | .ok bytes => .bytes bytes
  | .error f => .failed f

def jsonReply : Except Failure (List UInt8) → Reply
  | .ok bytes =>
    match Json.ofBytes? bytes with
    | some value => .json value
    | none => .failed (.json "invalid")
  | .error f => .failed f

/-- Does an action that has an answer, and goes on with that answer. -/
def perform (fault : Option Fault) (next : Reply → Program) : Action → Program
  | .drive d => .drive d (next .after)
  | .render r => .render r <| .look fun c => next (.draft c.draft)
  | .write bytes => .change (.write bytes) (next (.count bytes.length))
  | .setStatus s => .change (.setStatus s) (next (.status s))
  | .setHeader name value =>
    match HeaderName.ofText? name, HeaderValue.ofText? value with
    | some name, some value => .change (.setHeader name value) (next .ok)
    | _, _ => next (.failed .invalidHeader)
  | .appendHeader name value =>
    match HeaderName.ofText? name, HeaderValue.ofText? value with
    | some name, some value => .look fun c =>
      .change (.appendHeader name value) (next (.flag (c.draft.headers.contains name)))
    | _, _ => next (.failed .invalidHeader)
  | .removeHeader name =>
    match HeaderName.ofText? name with
    | some name => .look fun c =>
      .change (.removeHeader name) (next ((c.draft.headers.get? name).elim .nothing .headerValue))
    | none => next .nothing
  | .setContentType type =>
    match HeaderValue.ofText? type.text with
    | some value => .change (.setHeader .contentType value) (next .ok)
    | none => next (.failed .invalidHeader)
  | .response => .look fun c => next (.draft c.draft)
  | .set key datum => .change (.keep key datum) (next .nothing)
  | .get key kind => .look fun c => next (datumReply kind (c.datum? key))
  | .add key amount => .look fun c =>
    match c.datum? key with
    | some (.int n) => .change (.keep key (.int (n + amount))) (next (.int (n + amount)))
    | _ => next .nothing
  | .append key text => .look fun c =>
    match c.datum? key with
    | some (.text s) => .change (.keep key (.text (s ++ text))) (next (.text (s ++ text)))
    | _ => next .nothing
  | .remove key kind => .look fun c => .change (.forget key) (next (datumReply kind (c.datum? key)))
  | .setExtension value => .look fun c =>
    .change (.setExtension (some value)) (next (textReply c.extension))
  | .getExtension => .look fun c => next (textReply c.extension)
  | .param name => .look fun c => next (textReply (c.params.get? name))
  | .params => .look fun c => next (.pairs c.params.pairs)
  | .query name => .look fun c => next (textReply (c.query? name))
  | .queryOr name default => .look fun c => next (.text ((c.query? name).getD default))
  | .header name => .look fun c =>
    next (((HeaderName.ofText? name).bind c.headers.get?).elim .nothing .headerValue)
  | .clientIp => .look fun c => next (textReply c.clientIp?)
  | .body => .look fun c => .change .takeBody (next (bodyReply (readBody c)))
  | .bodyJson => .look fun c => .change .takeBody (next (jsonReply (readBody c)))
  | .info => .look fun c => next (.info c)
  | .outline => .look fun c => next (.text c.outline)
  | .chain => .look fun c =>
    match c.route with
    | none => next .nothing
    | some route => .lengthOf route.list fun middleware =>
      next (.text (Text.Outline.record "Chain"
        [("middleware", toString middleware), ("handlers", toString route.handlers)] false))
  | .fault => next (textReply (fault.map (·.message)))
  | .recycle => .recycle <| .look fun c => next (.count (Recyclable.key c))
  | .proceed | .stop | .respond _ | .echo _ | .panic _ => next .nothing

/-- One action of a script, then the rest. -/
def run (script : String) (fault : Option Fault) (a : Action) (rest : Program) : Program :=
  let noted := fun reply next => Program.note script a.word reply next
  match a with
  | .proceed => noted .nothing (.finish .proceed)
  | .stop => noted .nothing (.finish .stop)
  | .respond r => noted (.text (Flow.respond r).outline) (.respond r)
  | .echo name => .look fun c =>
    let text := (c.params.get? name).getD "<none>"
    noted (.text text) (.respond (.text text))
  | .panic payload => noted .nothing (.panic payload)
  | .drive _ => noted .before (a.perform fault (fun reply => noted reply rest))
  | _ => a.perform fault fun reply => noted reply rest

end Action

structure Script where
  id : String
  actions : List Action

namespace Script

/-- The script as an entry; one that runs out goes on. -/
def program (s : Script) (fault : Option Fault) : Program :=
  s.actions.foldr (Action.run s.id fault) (.finish .proceed)

end Script

end Switchyard
