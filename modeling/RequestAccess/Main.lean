import RequestAccess.Arguments

/-!
# The program

Reads what the commands may look at, carries the command out, prints and writes what came of it.
-/

namespace RequestAccess.Main

/-- What stands at a path. -/
inductive Found where
  | file (text : String)
  | directory
  | nothing

def lookAt (path : String) : IO Found := do
  try
    return .file (← IO.FS.readFile path)
  catch e =>
    match e with
    | .inappropriateType .. => return .directory
    | _ => return .nothing

/-- The part of the file system that matters: where scenarios are looked for, and the file that is
asked for. -/
def treeAt (cwd : Path) (file : Option String) : IO FileTree := do
  let mut files := []
  let mut directories := [cwd]
  for p in candidates cwd do
    match ← lookAt (Path.show p) with
    | .file text => files := (p, text) :: files
    | .directory => directories := p :: directories
    | .nothing => pure ()
  match file with
  | none => pure ()
  | some path =>
    match ← lookAt path with
    | .directory | .nothing => pure ()
    | .file text =>
      let mut place := FileTree.startOf cwd path
      for name in FileTree.namesOf path do
        directories := place :: directories
        place := FileTree.enter place name
      files := (place, text) :: files
  return { files, directories }

def print (p : Printed) : IO Unit :=
  match p with
  | .out text => IO.println text
  | .err text => IO.eprintln text

/-- Writes the files that are new or changed. -/
def writeChanges (before after : FileTree) : IO Unit :=
  for f in after.files do
    if before.read? f.1 ≠ some f.2 then IO.FS.writeFile (Path.show f.1) f.2

/-- Files are looked at, the command runs on them, and what comes of it is printed and written. -/
def carryOut (console : Console) (config : Option String) (command : Command) : IO UInt32 := do
  let cwd := (FileTree.namesOf (← IO.currentDir).toString).filter (· ≠ "")
  let files ← treeAt cwd config
  match load files cwd config with
  | .error e =>
    IO.eprintln ("Error: " ++ e.message)
    return 1
  | .ok loaded =>
    let ran := Command.run { files, cwd, console, loaded } command
    ran.printed.forM print
    match ran.failure with
    | some failure =>
      (console.error failure.message).forM print
      return 1
    | none =>
      writeChanges files ran.files
      return 0

def usage : String :=
  "Usage: edge [-v] [--json] [-c FILE] explain [-p PHASE]... [-a ACCESS]... [--window-ms N] " ++
  "[--abort]\n" ++
  "       edge [-v] [--json] [-c FILE] config show|init [--route ROUTE] [-f]|validate"

end RequestAccess.Main

open RequestAccess in
def main (args : List String) : IO UInt32 := do
  match Invocation.ofArguments args with
  | .run console config command => Main.carryOut console config command
  | .version title =>
    IO.println (title ++ " 0.1.0")
    return 0
  | .help _ =>
    IO.println Main.usage
    return 0
  | .invalid =>
    IO.eprintln Main.usage
    return 2
