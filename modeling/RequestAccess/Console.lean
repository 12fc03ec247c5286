import RequestAccess.Codec
import RequestAccess.Text.Pieces

/-!
# Console output

Messages for a reader are held back where JSON is asked for, but for errors, which are then JSON
as well.
-/

namespace RequestAccess

/-- A line of output. The text may hold line breaks of its own. -/
inductive Printed where
  | out (text : String)
  | err (text : String)

/-- How the program speaks: in JSON or for a reader, and how much. -/
structure Console where
  json : Bool := false
  verbose : Bool := false

namespace Console

def unlessJson (c : Console) (p : Printed) : List Printed := if c.json then [] else [p]

def info (c : Console) (text : String) : List Printed := c.unlessJson (.out ("ℹ " ++ text))

def success (c : Console) (text : String) : List Printed := c.unlessJson (.out ("✓ " ++ text))

def warn (c : Console) (text : String) : List Printed := c.unlessJson (.err ("⚠ " ++ text))

def error [Codec] (c : Console) (text : String) : List Printed :=
  if c.json then [.err (Codec.shown (.object [("error", .text text)]))] else [.err ("✗ " ++ text)]

/-- Only for those who want to know more. -/
def debug (c : Console) (text : String) : List Printed :=
  if c.verbose then c.unlessJson (.err ("→ " ++ text)) else []

def header (c : Console) (text : String) : List Printed := c.unlessJson (.out ("\n" ++ text))

def pair (c : Console) (key value : String) : List Printed :=
  c.unlessJson (.out ("  " ++ key ++ ": " ++ value))

def item (c : Console) (text : String) : List Printed := c.unlessJson (.out ("  • " ++ text))

/-- A text with blanks behind it, up to a number of characters. -/
def pad (width : Nat) (s : String) : String :=
  s ++ String.ofList (List.replicate (width - s.length) ' ')

/-- A row of columns, each with its width. -/
def row (c : Console) (columns : List (Nat × String)) : List Printed :=
  c.unlessJson (.out ("  " ++ Text.join "  " (columns.map fun column => pad column.1 column.2)))

/-- A value as JSON, for those who asked for it. -/
def value [Codec] (v : Json) : List Printed := (Codec.indented? v).toList.map .out

end Console

end RequestAccess
