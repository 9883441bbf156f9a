import Switchyard.Journal

/-!
# Entries of a chain

A middleware or a handler is a program: a tree of the things it may do, each followed by what it does next. It sees
the context, changes it, renders, drives the rest of the chain, and ends with a flow or in a panic. Besides the
context it may read files, count, and add middleware to a group.

A drive is done when the program goes on after it, and a panic that leaves it leaves the program too. Entries that give a
drive up half way, or that catch a panic which comes out of it, are left out.
-/

namespace Switchyard

/-- Which part of the rest of a chain is to be run. -/
inductive Drive where
  /-- The rest of the middleware, then the rest of the handlers. -/
  | all
  | middleware
  | handlers
  deriving DecidableEq

inductive Program where
  | finish (flow : Flow)
  | panic (payload : Panic)
  | look (next : Context → Program)
  | change (c : Context.Change) (next : Program)
  /-- Writes a responder and stops the chain. -/
  | render (r : Responder) (next : Program)
  /-- Empties the context and drops the chain. -/
  | recycle (next : Program)
  | drive (d : Drive) (next : Program)
  | note (script action : String) (reply : Reply) (next : Program)
  | log (r : Record) (next : Program)
  | readFile (path : FilePath) (next : Except FileError (String × List UInt8) → Program)
  /-- Adds one to a counter. -/
  | count (counter : Nat) (next : Nat → Program)
  /-- Adds an entry to a middleware list. -/
  | attach (list : Nat) (entry : Program) (next : Program)
  /-- Asks for the length of a middleware list. -/
  | lengthOf (list : Nat) (next : Nat → Program)

namespace Program

/-- Responds and does nothing else. -/
def respond (r : Responder) : Program :=
  .finish (.respond r)

/-- Adds a response header before and after the rest of the chain. -/
def around (name : Http.HeaderName) (before after : Http.HeaderValue) : Program :=
  .change (.appendHeader name before) <| .drive .all <| .change (.appendHeader name after) <| .finish .proceed

/-- Runs a program and, where it ends, whatever the flow, goes on with another. -/
def andThen : Program → Program → Program
  | .finish _, rest => rest
  | .panic payload, _ => .panic payload
  | .look next, rest => .look fun c => (next c).andThen rest
  | .change c next, rest => .change c (next.andThen rest)
  | .render r next, rest => .render r (next.andThen rest)
  | .recycle next, rest => .recycle (next.andThen rest)
  | .drive d next, rest => .drive d (next.andThen rest)
  | .note script action reply next, rest => .note script action reply (next.andThen rest)
  | .log r next, rest => .log r (next.andThen rest)
  | .readFile path next, rest => .readFile path fun result => (next result).andThen rest
  | .count counter next, rest => .count counter fun n => (next n).andThen rest
  | .attach list entry next, rest => .attach list entry (next.andThen rest)
  | .lengthOf list next, rest => .lengthOf list fun n => (next n).andThen rest

end Program

/-- The request log: lets the rest of the chain run and then logs one record with the status it left, numbering
requests by a counter. -/
def logRequests (counter : Nat) : Program :=
  .count counter fun number => .drive .all <| .look fun c =>
    .log (.served number ((c.clientIp?).getD "-") c.userAgent c.draft.status c.method.name c.path) <|
      .finish .proceed

end Switchyard
