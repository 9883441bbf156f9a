/-!
# Request methods

A method is one of nine standard verbs or an extension: any other token. Routes are kept per verb; an extension
method has no routes of its own.

- every verb is offered once (`Verb.mem_all`, `Verb.nodup_all`) and has its own place (`Verb.index_inj`).
-/

namespace Switchyard

namespace Http

/-- The characters of a token. -/
def isTokenChar (c : Char) : Bool :=
  c.isAlphanum || "!#$%&'*+-.^_`|~".toList.contains c

/-- A token: at least one character, and token characters only. -/
def isToken (s : String) : Bool :=
  !s.isEmpty && s.toList.all isTokenChar

/-- The verbs that routes can be registered for. -/
inductive Verb where
  | get
  | head
  | post
  | put
  | patch
  | delete
  | connect
  | options
  | trace
  deriving DecidableEq

namespace Verb

/-- The verbs in the order in which they are offered. -/
def all : List Verb :=
  [.get, .head, .post, .put, .patch, .delete, .connect, .options, .trace]

/-- The place of a verb in that order. -/
def index : Verb → Fin 9
  | .get => 0
  | .head => 1
  | .post => 2
  | .put => 3
  | .patch => 4
  | .delete => 5
  | .connect => 6
  | .options => 7
  | .trace => 8

def name : Verb → String
  | .get => "GET"
  | .head => "HEAD"
  | .post => "POST"
  | .put => "PUT"
  | .patch => "PATCH"
  | .delete => "DELETE"
  | .connect => "CONNECT"
  | .options => "OPTIONS"
  | .trace => "TRACE"

/-- The verb of that name; names are case-sensitive. -/
def ofName? (s : String) : Option Verb :=
  all.find? (·.name == s)

theorem mem_all (v : Verb) : v ∈ all := by
  cases v <;> decide

theorem nodup_all : all.Nodup := by
  decide

theorem index_inj {v w : Verb} : v.index = w.index ↔ v = w := by
  cases v <;> cases w <;> decide

end Verb

/-- The method of a request. -/
inductive Method where
  | standard (verb : Verb)
  | extension (token : String)
  deriving DecidableEq

namespace Method

/-- The method a token names. -/
def ofToken? (s : String) : Option Method :=
  match Verb.ofName? s with
  | some v => some (.standard v)
  | none => if isToken s then some (.extension s) else none

def name : Method → String
  | .standard v => v.name
  | .extension token => token

/-- The verb of a standard method. -/
def verb? : Method → Option Verb
  | .standard v => some v
  | .extension _ => none

/-- What a fresh request is taken to ask for. -/
def default : Method :=
  .standard .get

end Method

end Http

end Switchyard
