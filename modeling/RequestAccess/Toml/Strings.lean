import RequestAccess.Text.Hex

/-!
# Strings in TOML

Basic strings know escapes and literal ones do not; both come on one line or on many. On many
lines, up to two quotes may stand before the closing three.
-/

namespace RequestAccess.Toml

/-! ## Characters -/

def isBlank (c : Char) : Bool := c == ' ' || c == '\t'

/-- Every character but the control characters other than the tab. -/
def isPlain (c : Char) : Bool := c == '\t' || (0x20 ≤ c.toNat && c.toNat != 0x7F)

/-- Without the blanks in front. -/
def skipBlank (s : List Char) : List Char := s.dropWhile isBlank

def isScalar (n : Nat) : Bool := n < 0xD800 || (0xDFFF < n && n < 0x110000)

/-- The character of a hexadecimal number, if it is one. -/
def charOf? (digits : List Char) : Option Char :=
  match Text.hexNumber? digits with
  | some n => if isScalar n then some (Char.ofNat n) else none
  | none => none

def unescape? (c : Char) : Option Char :=
  match c with
  | '"' => some '"'
  | '\\' => some '\\'
  | 'b' => some '\x08'
  | 'f' => some '\x0c'
  | 'n' => some '\n'
  | 'r' => some '\r'
  | 't' => some '\t'
  | _ => none

def prepend (c : Option Char) (p : Option (List Char × List Char)) :
    Option (List Char × List Char) :=
  match c, p with
  | some c, some (cs, rest) => some (c :: cs, rest)
  | _, _ => none

/-! ## On one line -/

/-- A basic string whose opening quote has been read. -/
def readBasic : List Char → Option (List Char × List Char)
  | [] => none
  | '"' :: rest => some ([], rest)
  | '\\' :: 'u' :: a :: b :: c :: d :: rest => prepend (charOf? [a, b, c, d]) (readBasic rest)
  | '\\' :: 'U' :: a :: b :: c :: d :: e :: f :: g :: h :: rest =>
    prepend (charOf? [a, b, c, d, e, f, g, h]) (readBasic rest)
  | '\\' :: c :: rest => prepend (unescape? c) (readBasic rest)
  | c :: rest => if isPlain c && c != '\\' then prepend (some c) (readBasic rest) else none

/-- A literal string whose opening quote has been read. -/
def readLiteral : List Char → Option (List Char × List Char)
  | [] => none
  | '\'' :: rest => some ([], rest)
  | c :: rest => if isPlain c then prepend (some c) (readLiteral rest) else none

/-! ## On many lines -/

/-- A piece of a basic string on many lines. -/
inductive Piece where
  | plain (c : Char)
  | escaped (c : Char)
  /-- A backslash at the end of a line, which takes the blank space after it away. -/
  | continued

/-- Whether the line ends here, but for blanks. -/
def endsLine (s : List Char) : Bool :=
  match skipBlank s with
  | '\n' :: _ => true
  | '\r' :: '\n' :: _ => true
  | _ => false

def withPiece (p : Option Piece) (r : Option (List Piece × List Char)) :
    Option (List Piece × List Char) :=
  match p, r with
  | some p, some (ps, rest) => some (p :: ps, rest)
  | _, _ => none

/-- The pieces up to the closing quotes. -/
def readPieces : List Char → Option (List Piece × List Char)
  | [] => none
  | '"' :: '"' :: '"' :: '"' :: '"' :: rest => some ([.plain '"', .plain '"'], rest)
  | '"' :: '"' :: '"' :: '"' :: rest => some ([.plain '"'], rest)
  | '"' :: '"' :: '"' :: rest => some ([], rest)
  | '\r' :: '\n' :: rest => withPiece (some (.plain '\n')) (readPieces rest)
  | '\n' :: rest => withPiece (some (.plain '\n')) (readPieces rest)
  | '\\' :: 'u' :: a :: b :: c :: d :: rest =>
    withPiece ((charOf? [a, b, c, d]).map .escaped) (readPieces rest)
  | '\\' :: 'U' :: a :: b :: c :: d :: e :: f :: g :: h :: rest =>
    withPiece ((charOf? [a, b, c, d, e, f, g, h]).map .escaped) (readPieces rest)
  | '\\' :: c :: rest =>
    if endsLine (c :: rest) then withPiece (some .continued) (readPieces (c :: rest))
    else withPiece ((unescape? c).map .escaped) (readPieces rest)
  | c :: rest =>
    if isPlain c && c != '\\' then withPiece (some (.plain c)) (readPieces rest) else none

/-- The characters of the pieces. `skipping` holds behind a continued line. -/
def settle : Bool → List Piece → List Char
  | _, [] => []
  | skipping, .plain c :: rest =>
    if skipping && (isBlank c || c == '\n') then settle true rest else c :: settle false rest
  | _, .escaped c :: rest => c :: settle false rest
  | _, .continued :: rest => settle true rest

/-- A line break right behind the opening quotes is no part of the string. -/
def skipLineBreak : List Char → List Char
  | '\n' :: rest => rest
  | '\r' :: '\n' :: rest => rest
  | s => s

def readBasicLines (s : List Char) : Option (List Char × List Char) :=
  (readPieces (skipLineBreak s)).map fun p => (settle false p.1, p.2)

def readLiteralRest : List Char → Option (List Char × List Char)
  | [] => none
  | '\'' :: '\'' :: '\'' :: '\'' :: '\'' :: rest => some (['\'', '\''], rest)
  | '\'' :: '\'' :: '\'' :: '\'' :: rest => some (['\''], rest)
  | '\'' :: '\'' :: '\'' :: rest => some ([], rest)
  | '\r' :: '\n' :: rest => prepend (some '\n') (readLiteralRest rest)
  | '\n' :: rest => prepend (some '\n') (readLiteralRest rest)
  | c :: rest => if isPlain c then prepend (some c) (readLiteralRest rest) else none

def readLiteralLines (s : List Char) : Option (List Char × List Char) :=
  readLiteralRest (skipLineBreak s)

/-! ## Any string -/

def asString (p : Option (List Char × List Char)) : Option (String × List Char) :=
  p.map fun p => (String.ofList p.1, p.2)

/-- A string on one line, which may also stand for a key. -/
def readLineString : List Char → Option (String × List Char)
  | '"' :: rest => asString (readBasic rest)
  | '\'' :: rest => asString (readLiteral rest)
  | _ => none

def readString : List Char → Option (String × List Char)
  | '"' :: '"' :: '"' :: rest => asString (readBasicLines rest)
  | '\'' :: '\'' :: '\'' :: rest => asString (readLiteralLines rest)
  | s => readLineString s

example : readString "\"\"\"\na \\\n  b\"\"\"\"x".toList = some ("a b\"", ['x']) := by
  decide +kernel

end RequestAccess.Toml
