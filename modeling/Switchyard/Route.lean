import Switchyard.Http.Method
import Switchyard.Pattern
import Switchyard.Text.Outline

/-!
# Routes

A route is what was registered: a verb, the label of its group, a pattern and a value. Its number tells it from
every other route of the same router. Whether it is enabled is kept by the router.
-/

namespace Switchyard

open Http (Verb)

structure Route (α : Type) where
  number : Nat
  verb : Verb
  group : String
  pattern : Pattern
  value : α

namespace Route

variable {α : Type}

def outline (r : Route α) (enabled : Bool) : String :=
  Text.Outline.record "Route"
    [("method", r.verb.name), ("group", Text.Outline.quoted r.group), ("pattern", Text.Outline.quoted r.pattern.raw),
      ("enabled", Text.Outline.flag enabled)] true

end Route

end Switchyard
