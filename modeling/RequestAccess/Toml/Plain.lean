import RequestAccess.Json
import RequestAccess.Text.Hex
import RequestAccess.Text.Pieces
import RequestAccess.Text.Spelling

/-!
# Plain TOML

Which texts write a string on one line, and what a plain document says. Its tables have headers of
their own and lie at most two deep, its keys are bare, and its values are simple. The tree that it
says has the values before the tables.
-/

namespace RequestAccess.Toml

/-! ## Strings -/

/-- The character may stand in a comment: it is no control character but the tab. -/
def isPrintable (c : Char) : Bool := c == '\t' || (0x20 ≤ c.toNat && c.toNat != 0x7F)

/-- The character stands for itself between quotes. -/
def isVerbatim (c : Char) : Bool := isPrintable c && c != '"' && c != '\\'

/-- What may stand behind a backslash, with the character that is meant. -/
def escapes : List (Char × Char) :=
  [('b', '\x08'), ('t', '\t'), ('n', '\n'), ('f', '\x0c'), ('r', '\r'), ('"', '"'), ('\\', '\\')]

/-- How one character is written between quotes. -/
inductive SpellsChar : List Char → Char → Prop where
  | verbatim {c : Char} (h : isVerbatim c = true) : SpellsChar [c] c
  | escaped {e c : Char} (h : (e, c) ∈ escapes) : SpellsChar ['\\', e] c
  | short {digits : List Char} {c : Char} (hlength : digits.length = 4)
      (h : Text.hexNumber? digits = some c.toNat) : SpellsChar ('\\' :: 'u' :: digits) c
  | long {digits : List Char} {c : Char} (hlength : digits.length = 8)
      (h : Text.hexNumber? digits = some c.toNat) : SpellsChar ('\\' :: 'U' :: digits) c

/-- What stands between the quotes of a string on one line, with the characters that are meant. -/
abbrev SpellsString : List Char → List Char → Prop := Text.Spelled SpellsChar

/-- The text is not empty and has no escapes in it. -/
def IsVerbatim (s : String) : Prop := s.toList ≠ [] ∧ s.toList.all isVerbatim = true

instance (s : String) : Decidable (IsVerbatim s) := inferInstanceAs (Decidable (_ ∧ _))

/-! ## Keys -/

def isKeyChar (c : Char) : Bool := c.isAlphanum || c == '-' || c == '_'

/-- The key can be written without quotes. -/
def IsBare (key : String) : Prop := key.toList ≠ [] ∧ key.toList.all isKeyChar = true

instance (key : String) : Decidable (IsBare key) := inferInstanceAs (Decidable (_ ∧ _))

namespace Plain

/-! ## Values -/

/-- A text of a list, with the blanks and line ends in front of it. -/
structure Item where
  gap : List Char
  text : String

def Item.chars (i : Item) : List Char := i.gap ++ Text.inQuotes i.text.toList

/-- A value of a plain document. -/
inductive Value where
  | text (s : String)
  | int (n : Nat)
  | bool (b : Bool)
  /-- A comma may stand behind the last item, and a gap before the closing bracket. -/
  | texts (items : List Item) (comma : Bool) (close : List Char)

namespace Value

def chars : Value → List Char
  | text s => Text.inQuotes s.toList
  | int n => (toString n).toList
  | bool b => (toString b).toList
  | texts items comma close =>
    '[' :: Text.commas (items.map Item.chars) ++ (if comma then [','] else []) ++ close ++ [']']

def tree : Value → Json
  | text s => .text s
  | int n => .int n
  | bool b => .bool b
  | texts items _ _ => .array (items.map fun i => .text i.text)

def IsGap (s : List Char) : Prop := ∀ c ∈ s, c = ' ' ∨ c = '\t' ∨ c = '\n'

instance (s : List Char) : Decidable (IsGap s) := List.decidableBAll _ s

/-- Numbers have 64 bits with a sign. -/
def Sound : Value → Prop
  | text s => IsVerbatim s
  | int n => n < 0x8000000000000000
  | bool _ => True
  | texts items _ close =>
    items ≠ [] ∧ (∀ i ∈ items, IsGap i.gap ∧ IsVerbatim i.text) ∧ IsGap close

instance : DecidablePred Sound
  | text s => inferInstanceAs (Decidable (IsVerbatim s))
  | int n => inferInstanceAs (Decidable (n < 0x8000000000000000))
  | bool _ => inferInstanceAs (Decidable True)
  | texts _ _ _ => inferInstanceAs (Decidable (_ ∧ _ ∧ _))

end Value

/-! ## Lines -/

/-- A line above the first header or below one. -/
inductive Line where
  | blank
  | comment (note : String)
  | pair (key : String) (value : Value)

namespace Line

def chars : Line → List Char
  | blank => ['\n']
  | comment note => '#' :: note.toList ++ ['\n']
  | pair key value => key.toList ++ [' ', '=', ' '] ++ value.chars ++ ['\n']

def Sound : Line → Prop
  | blank => True
  | comment note => note.toList.all isPrintable = true
  | pair key value => IsBare key ∧ value.Sound

instance : DecidablePred Sound
  | blank => inferInstanceAs (Decidable True)
  | comment note => inferInstanceAs (Decidable (note.toList.all isPrintable = true))
  | pair key value => inferInstanceAs (Decidable (IsBare key ∧ value.Sound))

def entry? : Line → Option (String × Json)
  | pair key value => some (key, value.tree)
  | _ => none

end Line

def charsOf (lines : List Line) : List Char := lines.flatMap Line.chars

def entries (lines : List Line) : List (String × Json) := lines.filterMap Line.entry?

/-! ## Tables -/

/-- The line of a header. -/
def header (path : List String) : List Char := '[' :: (Text.join "." path).toList ++ [']', '\n']

/-- A table, and the tables in it with their names. -/
structure Table where
  name : String
  lines : List Line
  tables : List (String × List Line)

namespace Table

def chars (t : Table) : List Char :=
  header [t.name] ++ charsOf t.lines ++
    t.tables.flatMap fun inner => header [t.name, inner.1] ++ charsOf inner.2

def members (t : Table) : List (String × Json) :=
  entries t.lines ++ t.tables.map fun inner => (inner.1, .object (entries inner.2))

/-- No name is given twice. -/
structure Sound (t : Table) : Prop where
  name : IsBare t.name
  lines : ∀ l ∈ t.lines, l.Sound
  innerNames : ∀ inner ∈ t.tables, IsBare inner.1
  innerLines : ∀ inner ∈ t.tables, ∀ l ∈ inner.2, l.Sound
  nodup : (t.members.map (·.1)).Nodup
  innerNodup : ∀ inner ∈ t.tables, ((entries inner.2).map (·.1)).Nodup

end Table

/-! ## Documents -/

/-- Lines, and the tables below them. -/
structure Document where
  lines : List Line
  tables : List Table

namespace Document

def chars (d : Document) : List Char := charsOf d.lines ++ d.tables.flatMap Table.chars

def members (d : Document) : List (String × Json) :=
  entries d.lines ++ d.tables.map fun t => (t.name, .object t.members)

def tree (d : Document) : Json := .object d.members

structure Sound (d : Document) : Prop where
  lines : ∀ l ∈ d.lines, l.Sound
  tables : ∀ t ∈ d.tables, t.Sound
  nodup : (d.members.map (·.1)).Nodup

end Document

end Plain

end RequestAccess.Toml
