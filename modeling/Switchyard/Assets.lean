import Switchyard.Program

/-!
# Static files

A directory is served through the wildcard `fp` of its route. A captured path names a file below the directory only
if each of its parts is a plain name; everything else is not found, and no file is looked for.
-/

namespace Switchyard.Assets

open Http (Status MediaType)

/-- The name of the wildcard that captures the path of a file. -/
def param : String := "fp"

/-- The parts of a captured path: its non-empty pieces between slashes of either kind. -/
def parts (captured : String) : List String :=
  (Text.pieces '/' (captured.toList.map fun c => if c = '\\' then '/' else c)).map String.ofList

/-- A part that names an entry of a directory. -/
def isName (part : String) : Bool :=
  part != "." && part != ".." && !part.toList.contains ':'

/-- The path of the file that a captured path stands for, unless it may leave the directory. -/
def resolve? (root : FilePath) (captured : String) : Option FilePath :=
  if (parts captured).all isName then some (root.below (parts captured)) else none

/-- Responds with the file at the end of a path. -/
def serve (path : FilePath) : Program :=
  .readFile path fun
    | .ok (name, bytes) => .respond (.plain (.ofFileName name) bytes .ok)
    | .error .notFound => .respond (.status .notFound)
    | .error .denied => .respond (.status .forbidden)
    | .error .unreadable => .look fun c =>
      .log (.fileUnreadable path.text c.path) (.respond (.status .serverError))

/-- Serves the files below a directory. -/
def directory (root : FilePath) : Program :=
  .look fun c =>
    match resolve? root ((c.params.get? param).getD "") with
    | some path => serve path
    | none => .respond (.status .notFound)

end Switchyard.Assets
