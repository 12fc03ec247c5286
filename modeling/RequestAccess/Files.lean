import RequestAccess.Text.Pieces

/-!
# File trees

A tree holds files as text. A path is the list of names from the root.
-/

namespace RequestAccess

abbrev Path := List String

/-- A path as it is shown. -/
def Path.show (p : Path) : String := "/" ++ Text.join "/" p

/-- The files that can be reached, each with its text. -/
structure FileTree where
  files : List (Path × String) := []
  /-- The directories that are there, beside those that hold something. -/
  directories : List Path := []

namespace FileTree

def read? (t : FileTree) (p : Path) : Option String := (t.files.find? (·.1 = p)).map (·.2)

def isDirectory (t : FileTree) (p : Path) : Bool :=
  p = [] || t.directories.any (fun d => p.isPrefixOf d) ||
    t.files.any fun f => p.isPrefixOf f.1.dropLast

def contains (t : FileTree) (p : Path) : Bool := (t.read? p).isSome || t.isDirectory p

def write (t : FileTree) (p : Path) (text : String) : FileTree :=
  { t with files := t.files.filter (·.1 ≠ p) ++ [(p, text)] }

/-! ## Written paths -/

/-- Where a name leads from a directory. -/
def enter (p : Path) (name : String) : Path :=
  if name = "" ∨ name = "." then p else if name = ".." then p.dropLast else p ++ [name]

/-- Goes from a directory along the names of a path. Every name but the last must lead to a
directory. -/
def follow? (t : FileTree) : Path → List String → Option Path
  | p, [] => some p
  | p, name :: rest => if t.isDirectory p then t.follow? (enter p name) rest else none

def namesOf (path : String) : List String := (Text.pieces '/' path.toList).map String.ofList

/-- Where a written path starts. -/
def startOf (cwd : Path) (path : String) : Path :=
  if path.toList.head? = some '/' then [] else cwd

/-- Where a written path leads, from the root or from the working directory. -/
def resolve? (t : FileTree) (cwd : Path) (path : String) : Option Path :=
  if path = "" then none else t.follow? (startOf cwd path) (namesOf path)

/-- The text of the file that a written path leads to. -/
def readAt? (t : FileTree) (cwd : Path) (path : String) : Option String :=
  (t.resolve? cwd path).bind t.read?

end FileTree

/-! ## Directories upwards -/

/-- The parent directories of a path of `n` names, the nearest first. -/
def Path.parents (p : Path) : Nat → List Path
  | 0 => []
  | n + 1 => p.take n :: Path.parents p n

/-- A directory and those above it, up to the root. -/
def Path.upwards (p : Path) : List Path := p :: Path.parents p p.length

example : Path.upwards ["a", "b"] = [["a", "b"], ["a"], []] := rfl

end RequestAccess
