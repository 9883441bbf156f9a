import Switchyard.Json.Reader
import Switchyard.Router

/-!
# Settings

The switches of routers and servers, and how they are read from JSON text: as an object, in which a missing member
keeps its default and an unknown one is passed over, or as an array of the members in their order, of which the last
ones may be missing. A known member must have the right type and stand only once.
-/

namespace Switchyard

structure ServerOptions where
  router : RouterOptions := {}
  /-- Answer panics of entries by the panic handler. -/
  catchPanics : Bool := false
  /-- Serve every matched request under a span with its group, method and target. -/
  profileLabels : Bool := false
  /-- Whether finished requests are reported. -/
  reportsDone : Bool := false

namespace Settings

open Json (Reader skipSpace literal)

/-- A member of some settings: its name, and how a value in front changes them. -/
structure Member (σ : Type) where
  name : String
  read : σ → Reader σ

/-- A switch. -/
def switch : Reader Bool := fun cs =>
  ((literal "true" cs).map fun (_, rest) => (true, rest)).or ((literal "false" cs).map fun (_, rest) => (false, rest))

variable {σ : Type}

/-- A member that is a switch. -/
def Member.switch (name : String) (set : σ → Bool → σ) : Member σ :=
  ⟨name, fun s cs => (Settings.switch (skipSpace cs)).map fun (b, rest) => (set s b, rest)⟩

/-- The members of an object from the first on; `seen` holds the names that came already. -/
def objectWithin (members : List (Member σ)) : (fuel : Nat) → (seen : List String) → σ → Reader σ
  | 0, _, _, _ => none
  | fuel + 1, seen, s, cs => do
    let '"' :: rest := skipSpace cs | none
    let (name, rest) ← Json.stringRest rest
    let ':' :: rest := skipSpace rest | none
    let (s, rest) ←
      match members.find? (·.name == name) with
      | none => (Json.skip rest).map fun (_, rest) => (s, rest)
      | some member => if seen.contains name then none else member.read s rest
    match skipSpace rest with
    | ',' :: rest => objectWithin members fuel (name :: seen) s rest
    | '\x7d' :: rest => return (s, rest)
    | _ => none

/-- The values of an array from the first on. -/
def arrayOf : List (Member σ) → σ → Reader σ
  | [], _, _ => none
  | member :: members, s, cs => do
    let (s, rest) ← member.read s cs
    match skipSpace rest with
    | ',' :: rest => arrayOf members s rest
    | ']' :: rest => return (s, rest)
    | _ => none

/-- Settings in front. -/
def settings (members : List (Member σ)) (s : σ) : Reader σ := fun cs =>
  match skipSpace cs with
  | '\x7b' :: rest =>
    match skipSpace rest with
    | '\x7d' :: rest => some (s, rest)
    | rest => objectWithin members (rest.length + 1) [] s rest
  | '[' :: rest =>
    match skipSpace rest with
    | ']' :: rest => some (s, rest)
    | rest => arrayOf members s rest
  | _ => none

/-- A text that holds settings and nothing else. -/
def ofText? (members : List (Member σ)) (s : σ) (text : String) : Option σ :=
  match settings members s text.toList with
  | some (s, rest) => if (skipSpace rest).isEmpty then some s else none
  | none => none

def routerMembers : List (Member RouterOptions) :=
  [.switch "auto_clean_path" fun o b => { o with cleanPath := b },
    .switch "head_to_get" fun o b => { o with headToGet := b }]

def serverMembers : List (Member ServerOptions) :=
  [⟨"router", fun o cs => (settings routerMembers {} cs).map fun (router, rest) => ({ o with router }, rest)⟩,
    .switch "catch_panics" fun o b => { o with catchPanics := b },
    .switch "profile_labels" fun o b => { o with profileLabels := b }]

end Settings

def RouterOptions.ofText? : String → Option RouterOptions :=
  Settings.ofText? Settings.routerMembers {}

def ServerOptions.ofText? : String → Option ServerOptions :=
  Settings.ofText? Settings.serverMembers {}

def ServerOptions.outline (o : ServerOptions) : String :=
  Text.Outline.record "ServerOptions"
    [("router", o.router.outline), ("catch_panics", Text.Outline.flag o.catchPanics),
      ("profile_labels", Text.Outline.flag o.profileLabels), ("on_request_done", Text.Outline.flag o.reportsDone)] false

end Switchyard
