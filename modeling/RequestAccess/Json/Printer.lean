import RequestAccess.Json

/-!
# Writing JSON

One printer for both layouts. Only the double quote, the backslash and the characters below U+0020
are written as escapes.
-/

namespace RequestAccess.Json

/-! ## Text and numbers -/

/-- The lower-case hexadecimal digit of a number below sixteen. -/
def hexDigit (n : Nat) : Char := Nat.digitChar n

def escape (c : Char) : List Char :=
  match c with
  | '"' => ['\\', '"']
  | '\\' => ['\\', '\\']
  | '\x08' => ['\\', 'b']
  | '\t' => ['\\', 't']
  | '\n' => ['\\', 'n']
  | '\x0c' => ['\\', 'f']
  | '\r' => ['\\', 'r']
  | c =>
    if c.toNat < 0x20 then
      ['\\', 'u', '0', '0', hexDigit (c.toNat / 16), hexDigit (c.toNat % 16)]
    else [c]

def writeText (s : String) : List Char := '"' :: s.toList.flatMap escape ++ ['"']

def writeInt : Int → List Char
  | .ofNat n => Nat.toDigits 10 n
  | .negSucc n => '-' :: Nat.toDigits 10 (n + 1)

/-! ## Layout -/

/-- What stands before an item at a depth, and after a colon. -/
structure Layout where
  lineBreak : Nat → List Char
  afterColon : List Char

def Layout.compact : Layout := ⟨fun _ => [], []⟩

/-- Two spaces a level, and one after a colon. -/
def Layout.indented : Layout := ⟨fun depth => '\n' :: List.replicate (2 * depth) ' ', [' ']⟩

/-! ## Values -/

mutual

def write (l : Layout) (depth : Nat) : Json → List Char
  | .null => ['n', 'u', 'l', 'l']
  | .bool true => ['t', 'r', 'u', 'e']
  | .bool false => ['f', 'a', 'l', 's', 'e']
  | .int n => writeInt n
  | .decimal literal => literal.toList
  | .text s => writeText s
  | .array [] => ['[', ']']
  | .array (v :: vs) => '[' :: writeItems l (depth + 1) (v :: vs) ++ l.lineBreak depth ++ [']']
  | .object [] => ['\x7b', '\x7d']
  | .object (m :: ms) =>
    '\x7b' :: writeMembers l (depth + 1) (m :: ms) ++ l.lineBreak depth ++ ['\x7d']
  | .unpaired => ['"', '"']

def writeItems (l : Layout) (depth : Nat) : List Json → List Char
  | [] => []
  | [v] => l.lineBreak depth ++ write l depth v
  | v :: w :: rest => l.lineBreak depth ++ write l depth v ++ ',' :: writeItems l depth (w :: rest)

def writeMembers (l : Layout) (depth : Nat) : List (String × Json) → List Char
  | [] => []
  | [(name, v)] =>
    l.lineBreak depth ++ writeText name ++ ':' :: l.afterColon ++ write l depth v
  | (name, v) :: m :: rest =>
    l.lineBreak depth ++ writeText name ++ ':' :: l.afterColon ++ write l depth v ++
      ',' :: writeMembers l depth (m :: rest)

end

/-- On one line, without blanks. -/
def compact (v : Json) : String := String.ofList (write .compact 0 v)

/-- One item a line. -/
def indented (v : Json) : String := String.ofList (write .indented 0 v)

example : compact (.object [("a", .array [.int (-1), .null]), ("a", .text "\n\x01")]) =
    "\x7b\"a\":[-1,null],\"a\":\"\\n\\u0001\"\x7d" := by decide +kernel

example : indented (.object [("a", .array [.bool true]), ("b", .array [])]) =
    "\x7b\n  \"a\": [\n    true\n  ],\n  \"b\": []\n\x7d" := by decide +kernel

end RequestAccess.Json
