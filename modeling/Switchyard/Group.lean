/-!
# Groups

A group has a label, a path in front of the paths of its routes, and a list of middleware that is known by its
number. Paths are joined with one slash between them, and no slash is repeated.
-/

namespace Switchyard

/-- The characters with every row of slashes made one; `after` tells whether a slash stands just before. -/
def collapseSlashes : (after : Bool) → List Char → List Char
  | _, [] => []
  | after, c :: cs =>
    if c = '/' then (if after then [] else ['/']) ++ collapseSlashes true cs
    else c :: collapseSlashes false cs

/-- A fragment with a slash in front, unless it has one or is empty. -/
def leadingSlash : List Char → List Char
  | [] => []
  | '/' :: rest => '/' :: rest
  | cs => '/' :: cs

/-- Joins two paths. Nothing is done to the first when the second is empty. -/
def joinPath (base path : String) : String :=
  if path.isEmpty then base
  else .ofList (collapseSlashes false (leadingSlash base.toList ++ leadingSlash path.toList))

structure Group where
  name : String := ""
  path : String := ""
  /-- The number of the group's middleware list. -/
  list : Nat := 0
  deriving DecidableEq

namespace Group

/-- The pattern of a path registered on the group. -/
def join (g : Group) (path : String) : String :=
  joinPath g.path path

end Group

end Switchyard
