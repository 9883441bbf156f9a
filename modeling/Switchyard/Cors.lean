import Switchyard.Program

/-!
# Preflight requests

A preflight request is told which methods may be used: its origin is allowed, or any where it names none, and so are
the headers it asks for.
-/

namespace Switchyard.Cors

open Http (Method HeaderName HeaderValue)

/-- A value of printable characters. -/
def value (s : String) : HeaderValue :=
  ⟨Text.Utf8.encode s.toList⟩

/-- The headers of the answer. -/
def changes (methods : List Method) (c : Context) : List Context.Change :=
  let origin : List Context.Change :=
    match c.headers.get? .origin with
    | some origin => [.setHeader .allowOrigin origin, .setHeader .vary (value "Origin")]
    | none => [.setHeader .allowOrigin (value "*")]
  let requested : List Context.Change :=
    match c.headers.get? .requestHeaders with
    | some names => [.setHeader .allowHeaders names]
    | none => []
  origin ++ [.setHeader .allowMethods (value (", ".intercalate (methods.map Method.name)))] ++ requested

/-- Answers a preflight request. -/
def preflight (methods : List Method) : Program :=
  .look fun c => (changes methods c).foldr Program.change (.respond (.status .noContent))

end Switchyard.Cors
