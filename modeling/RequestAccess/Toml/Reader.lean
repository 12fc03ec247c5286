import RequestAccess.Toml.DateTime
import RequestAccess.Toml.Strings
import RequestAccess.Toml.Tables

/-!
# Reading TOML

A document is read line by line. Fuel bounds the length of lists; how deep arrays and inline tables
may lie in each other is a limit of its own.
-/

namespace RequestAccess.Toml

/-! ## Lines -/

/-- What is left behind the end of a line. -/
def lineEnd? : List Char → Option (List Char)
  | [] => some []
  | '\n' :: rest => some rest
  | '\r' :: '\n' :: rest => some rest
  | _ => none

/-- Blanks, perhaps a comment, and the end of the line. -/
def lineTail? (s : List Char) : Option (List Char) :=
  match skipBlank s with
  | '#' :: rest => lineEnd? (rest.dropWhile isPlain)
  | rest => lineEnd? rest

/-- Without blanks, line ends and comments in front. -/
def skipLines : Bool → List Char → List Char
  | _, [] => []
  | _, '\n' :: s => skipLines false s
  | _, '\r' :: '\n' :: s => skipLines false s
  | true, c :: s => if isPlain c then skipLines true s else c :: s
  | false, c :: s =>
    if isBlank c then skipLines false s else if c = '#' then skipLines true s else c :: s

/-! ## Keys -/

def isBareChar (c : Char) : Bool := c.isAlphanum || c == '-' || c == '_'

def readSimpleKey (s : List Char) : Option (String × List Char) :=
  match s.takeWhile isBareChar with
  | [] => readLineString s
  | name => some (String.ofList name, s.dropWhile isBareChar)

/-- The parts of a key with dots, and blanks around each. -/
def readParts : Nat → List Char → Option (List String × List Char)
  | 0, _ => none
  | fuel + 1, s =>
    match readSimpleKey (skipBlank s) with
    | none => none
    | some (part, s) =>
      match skipBlank s with
      | '.' :: s => (readParts fuel s).map fun p => (part :: p.1, p.2)
      | s => some ([part], s)

/-- How deep things may lie in each other. -/
def depthLimit : Nat := 80

/-- The last part of a key and the parts before it. -/
def readKey (s : List Char) : Option (List String × String × List Char) :=
  match readParts (s.length + 1) s with
  | some (parts, rest) =>
    if parts.length < depthLimit then
      parts.getLast?.map fun last => (parts.dropLast, last, rest)
    else none
  | none => none

/-! ## Values -/

def readWord : List Char → Option (Toml × List Char)
  | 't' :: 'r' :: 'u' :: 'e' :: rest => some (.bool true, rest)
  | 'f' :: 'a' :: 'l' :: 's' :: 'e' :: rest => some (.bool false, rest)
  | s =>
    match readDateTime s with
    | some (written, rest) => some (.dateTime written, rest)
    | none => readNumber s

mutual

/-- A value. `room` is how many levels may still lie in it. -/
def readValue : Nat → Nat → List Char → Option (Toml × List Char)
  | 0, _, _ => none
  | fuel + 1, room, s =>
    match s with
    | '[' :: rest =>
      match room with
      | 0 => none
      | room + 1 => (readItems fuel room rest).map fun p => (.array p.1, p.2)
    | '\x7b' :: rest =>
      match room with
      | 0 => none
      | room + 1 =>
        match skipBlank rest with
        | '\x7d' :: rest => some (.table .inline [], rest)
        | rest =>
          match readPairs fuel room rest with
          | some (pairs, rest) => (inlineTable? pairs).map (·, rest)
          | none => none
    | '"' :: _ => (readString s).map fun p => (.text p.1, p.2)
    | '\'' :: _ => (readString s).map fun p => (.text p.1, p.2)
    | s => readWord s

/-- Items up to the closing bracket. A comma may stand behind the last. -/
def readItems : Nat → Nat → List Char → Option (List Toml × List Char)
  | 0, _, _ => none
  | fuel + 1, room, s =>
    match skipLines false s with
    | ']' :: rest => some ([], rest)
    | s =>
      match readValue fuel room s with
      | none => none
      | some (v, s) =>
        match skipLines false s with
        | ']' :: rest => some ([v], rest)
        | ',' :: rest => (readItems fuel room rest).map fun p => (v :: p.1, p.2)
        | _ => none

/-- Pairs up to the closing brace, all on one line. -/
def readPairs : Nat → Nat → List Char → Option (List Pair × List Char)
  | 0, _, _ => none
  | fuel + 1, room, s =>
    match readKey s with
    | some (path, key, '=' :: s) =>
      match readValue fuel room (skipBlank s) with
      | none => none
      | some (value, s) =>
        match skipBlank s with
        | '\x7d' :: rest => some ([{ path, key, value }], rest)
        | ',' :: rest =>
          (readPairs fuel room rest).map fun p => ({ path, key, value } :: p.1, p.2)
        | _ => none
    | _ => none

end

/-! ## Documents -/

inductive Line where
  | blank
  | pair (pair : Pair)
  | header (repeated : Bool) (path : List String) (key : String)

def readPairLine (s : List Char) : Option (Line × List Char) :=
  match readKey s with
  | some (path, key, '=' :: s) =>
    match readValue (2 * s.length + 2) (depthLimit - 1) (skipBlank s) with
    | some (value, s) => (lineTail? s).map (.pair { path, key, value }, ·)
    | none => none
  | _ => none

def readHeader (s : List Char) : Option (Line × List Char) :=
  match readKey s with
  | some (path, key, ']' :: s) => (lineTail? s).map (.header false path key, ·)
  | _ => none

def readRepeatedHeader (s : List Char) : Option (Line × List Char) :=
  match readKey s with
  | some (path, key, ']' :: ']' :: s) => (lineTail? s).map (.header true path key, ·)
  | _ => none

/-- The next line, without the blanks before it. -/
def readLine : List Char → Option (Line × List Char)
  | '#' :: s => (lineTail? ('#' :: s)).map (.blank, ·)
  | '[' :: '[' :: s => readRepeatedHeader s
  | '[' :: s => readHeader s
  | s =>
    match lineEnd? s with
    | some rest => some (.blank, rest)
    | none => readPairLine s

def readLines : Nat → List Char → Option (List Line)
  | 0, _ => none
  | fuel + 1, s =>
    match skipBlank s with
    | [] => some []
    | s =>
      match readLine s with
      | some (line, s) => (readLines fuel s).map (line :: ·)
      | none => none

/-- The pairs before the first header, and the sections. -/
def group : List Line → List Pair × List Section
  | [] => ([], [])
  | .blank :: rest => group rest
  | .pair p :: rest => let g := group rest; (p :: g.1, g.2)
  | .header repeated path key :: rest =>
    let g := group rest
    ([], { repeated, path, key, pairs := g.1 } :: g.2)

/-- Without the mark that may stand before everything else. -/
def skipMark : List Char → List Char
  | '\ufeff' :: s => s
  | s => s

def parseChars? (s : List Char) : Option Toml :=
  match readLines (s.length + 1) (skipMark s) with
  | some lines => document? (group lines).1 (group lines).2
  | none => none

/-- The document that a whole text writes. -/
def parse? (s : String) : Option Toml := parseChars? s.toList

end RequestAccess.Toml
