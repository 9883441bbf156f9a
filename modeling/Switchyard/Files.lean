import Switchyard.Text.Split

/-!
# Files

All files stand in one tree, below the root directory: regular files, directories, and what may not be read. An absolute
path starts with a slash and leads down from the root directory, any other leads down from the working directory, and the
empty path leads nowhere.

A path is followed step by step. A name leads down into a directory, `..` leads back to the directory above, and `.` or
nothing stays; `..` stays in the root directory. Only a directory can be stepped from, so that a slash after the name of a
file leads nowhere. A directory is read through its `index.html`.

- appending a name to a path is a step more, whether or not there is a slash at the end (`FilePath.steps_push`).
-/

namespace Switchyard

/-! ## Paths -/

structure FilePath where
  text : String
  deriving DecidableEq

namespace FilePath

def isAbsolute (p : FilePath) : Bool :=
  p.text.toList.head? = some '/'

/-- What stands between the slashes. -/
def steps (p : FilePath) : List String :=
  (Text.splitOn '/' p.text.toList).map String.ofList

/-- What stands after the last slash. -/
def name (p : FilePath) : String :=
  p.steps.getLast?.getD ""

/-- Appends a name, after a slash unless there is one at the end or the path is empty. -/
def push (p : FilePath) (name : String) : FilePath :=
  if p.text = "" ∨ p.text.toList.getLast? = some '/' then ⟨p.text ++ name⟩ else ⟨p.text ++ "/" ++ name⟩

/-- The path that leads on along some names. -/
def below (p : FilePath) (names : List String) : FilePath :=
  names.foldl push p

variable {name : String} (h : '/' ∉ name.toList) (p : FilePath)
include h

/-- **Appending a name is a step more**, in the place of the empty one after a slash at the end. -/
theorem steps_push : (p.push name).steps = p.steps ++ [name] ∨
    ∃ front, p.steps = front ++ [""] ∧ (p.push name).steps = front ++ [name] := by
  have hname : (Text.splitOn '/' name.toList).map String.ofList = [name] := by
    rw [Text.splitOn_of_free h, List.map_singleton, String.ofList_toList]
  by_cases hempty : p.text = ""
  · refine .inr ⟨[], by rw [steps, hempty]; rfl, ?_⟩
    rw [steps, push, if_pos (.inl hempty), hempty, String.empty_append, hname]
    rfl
  by_cases hslash : p.text.toList.getLast? = some '/'
  · obtain ⟨front, hfront⟩ := List.getLast?_eq_some_iff.1 hslash
    refine .inr ⟨(Text.splitOn '/' front).map String.ofList, ?_, ?_⟩
    · rw [steps, hfront, Text.splitOn_append, List.map_append]
      rfl
    · rw [steps, push, if_pos (.inr hslash), String.toList_append, hfront, List.append_assoc]
      rw [List.singleton_append, Text.splitOn_append, List.map_append, hname]
  · left
    have htext : (p.text ++ "/" ++ name).toList = p.text.toList ++ '/' :: name.toList := by simp
    rw [steps, push, if_neg (not_or.2 ⟨hempty, hslash⟩), htext, Text.splitOn_append, List.map_append, hname, steps]

theorem isAbsolute_push : (p.push name).isAbsolute = p.isAbsolute := by
  unfold push isAbsolute
  by_cases hempty : p.text = ""
  · rw [if_pos (.inl hempty), hempty, String.empty_append]
    cases hname : name.toList with
    | nil => rfl
    | cons c cs =>
      have hc : c ≠ '/' := fun hc => h (hname ▸ hc ▸ List.mem_cons_self)
      simp [hc]
  · obtain ⟨c, cs, htext⟩ := List.exists_cons_of_ne_nil (mt String.toList_eq_nil_iff.1 hempty)
    split <;> simp [htext]

end FilePath

/-! ## Trees -/

inductive FileTree where
  | file (bytes : List UInt8)
  | dir (entries : List (String × FileTree))
  /-- A file that may not be read, or a directory that may neither be read nor entered. -/
  | locked (isDir : Bool)

/-- Why nothing can be read. -/
inductive FileError where
  | notFound
  | denied
  /-- The path goes below a regular file, ends in a directory, or is one that cannot be asked for. -/
  | unreadable
  deriving DecidableEq

namespace FileTree

def isDir : FileTree → Bool
  | .file _ => false
  | .dir _ => true
  | .locked isDir => isDir

/-- Reads a regular file. -/
def contents : FileTree → Except FileError (List UInt8)
  | .file bytes => .ok bytes
  | .dir _ => .error .unreadable
  | .locked _ => .error .denied

/-- What stands at the end of some steps, from a place with these directories above it, the nearest first. -/
def walk (maxName : Nat) : (above : List FileTree) → FileTree → List String → Except FileError FileTree
  | _, tree, [] => .ok tree
  | _, .file _, _ :: _ => .error .unreadable
  | _, .locked isDir, _ :: _ => .error (if isDir then .denied else .unreadable)
  | above, .dir entries, step :: rest =>
    if step = "" ∨ step = "." then walk maxName above (.dir entries) rest
    else if step = ".." then walk maxName above.tail (above.headD (.dir entries)) rest
    else if maxName < step.utf8ByteSize then .error .unreadable
    else
      match entries.lookup step with
      | none => .error .notFound
      | some tree => walk maxName (.dir entries :: above) tree rest

end FileTree

/-! ## File systems -/

/-- What the root directory holds, the way to the working directory, and the longest name and the longest path that can
be asked for, in bytes. -/
structure FileSystem where
  entries : List (String × FileTree) := []
  workdir : List String := []
  maxName : Nat := 255
  maxPath : Nat := 4095

namespace FileSystem

/-- No files at all. -/
def empty : FileSystem := {}

/-- A path that can be asked for has no NUL and is not too long. -/
def accepts (fs : FileSystem) (path : FilePath) : Bool :=
  !path.text.toList.contains '\x00' && path.text.utf8ByteSize ≤ fs.maxPath

/-- The steps of a path from the root directory on. -/
def way (fs : FileSystem) (path : FilePath) : List String :=
  (if path.isAbsolute then [] else fs.workdir) ++ path.steps

/-- What the steps of a path lead to. -/
def reach (fs : FileSystem) (path : FilePath) : Except FileError FileTree :=
  FileTree.walk fs.maxName [] (.dir fs.entries) (fs.way path)

/-- What stands at the end of a path. -/
def find (fs : FileSystem) (path : FilePath) : Except FileError FileTree :=
  if !fs.accepts path then .error .unreadable
  else if path.text = "" then .error .notFound
  else fs.reach path

/-- The name of the page that stands for a directory. -/
def index : String := "index.html"

/-- The name and the bytes of the file at the end of a path, or of the `index.html` in the directory there. -/
def read (fs : FileSystem) (path : FilePath) : Except FileError (String × List UInt8) := do
  let tree ← fs.find path
  let path := if tree.isDir then path.push index else path
  let tree ← fs.find path
  let bytes ← tree.contents
  return (path.name, bytes)

end FileSystem

end Switchyard
