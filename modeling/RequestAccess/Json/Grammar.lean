import RequestAccess.Json
import RequestAccess.Text.Hex
import RequestAccess.Text.Pieces
import RequestAccess.Text.Spelling

/-!
# The grammar of JSON

Which texts write a value, said without a reader or a printer. A character of a string may be
written in several ways, and gaps stand between the parts of arrays and objects. Half of a surrogate
pair stands for no character.
-/

namespace RequestAccess.Json

/-! ## Strings -/

/-- What may stand behind a backslash, with the character that is meant. -/
def escapes : List (Char × Char) :=
  [('"', '"'), ('\\', '\\'), ('/', '/'), ('b', '\x08'), ('f', '\x0c'), ('n', '\n'), ('r', '\r'),
    ('t', '\t')]

/-- How one character is written between quotes. -/
inductive SpellsChar : List Char → Char → Prop where
  | plain {c : Char} (hquote : c ≠ '"') (hslash : c ≠ '\\') (hlow : 0x20 ≤ c.toNat) :
    SpellsChar [c] c
  | escaped {e c : Char} (h : (e, c) ∈ escapes) : SpellsChar ['\\', e] c
  /-- Four hexadecimal digits are the number of a character. -/
  | code {x y z w c : Char} (h : Text.hexNumber? [x, y, z, w] = some c.toNat) :
    SpellsChar ['\\', 'u', x, y, z, w] c
  /-- A character beyond the first plane is written as two halves. -/
  | halves {x y z w x' y' z' w' c : Char} (hc : 0x10000 ≤ c.toNat)
      (hhigh : Text.hexNumber? [x, y, z, w] = some (0xD800 + (c.toNat - 0x10000) / 0x400))
      (hlow : Text.hexNumber? [x', y', z', w'] = some (0xDC00 + (c.toNat - 0x10000) % 0x400)) :
    SpellsChar ['\\', 'u', x, y, z, w, '\\', 'u', x', y', z', w'] c

/-- What stands between the quotes of a string, with the characters that are meant. -/
abbrev SpellsString : List Char → List Char → Prop := Text.Spelled SpellsChar

/-! ## Numbers -/

def IsDigits (s : List Char) : Prop := s ≠ [] ∧ ∀ c ∈ s, c.isDigit = true

/-- The digits behind a point, if there are any. -/
inductive IsFraction : List Char → Prop where
  | absent : IsFraction []
  | digits {digits : List Char} (h : IsDigits digits) : IsFraction ('.' :: digits)

inductive IsExponent : List Char → Prop where
  | absent : IsExponent []
  | digits {mark : Char} {sign digits : List Char} (hmark : mark = 'e' ∨ mark = 'E')
      (hsign : sign = [] ∨ sign = ['+'] ∨ sign = ['-']) (h : IsDigits digits) :
    IsExponent (mark :: sign ++ digits)

/-- A number with a fraction or an exponent, or minus zero. -/
inductive SpellsDecimal : List Char → Prop where
  | signed {sign fraction exponent : List Char} (n : Nat) (hsign : sign = [] ∨ sign = ['-'])
      (hfraction : IsFraction fraction) (hexponent : IsExponent exponent)
      (h : fraction ++ exponent ≠ [] ∨ sign = ['-'] ∧ n = 0) :
    SpellsDecimal (sign ++ (toString n).toList ++ fraction ++ exponent)

/-! ## Values -/

def Blank (s : List Char) : Prop := ∀ c ∈ s, c = ' ' ∨ c = '\n' ∨ c = '\t' ∨ c = '\r'

/-- A value where it is written, with the gaps around it. -/
structure Item where
  before : List Char
  written : List Char
  after : List Char
  value : Json

def Item.chars (i : Item) : List Char := i.before ++ i.written ++ i.after

/-- A member where it is written. The item stands behind the colon. -/
structure Member where
  before : List Char
  /-- The name as it stands between its quotes. -/
  written : List Char
  name : String
  after : List Char
  item : Item

def Member.chars (m : Member) : List Char :=
  m.before ++ Text.inQuotes m.written ++ m.after ++ ':' :: m.item.chars

/-- The text writes the value, with gaps of one kind between its parts. -/
inductive Spells (Gap : List Char → Prop) : List Char → Json → Prop where
  | null : Spells Gap ['n', 'u', 'l', 'l'] .null
  | bool (b : Bool) : Spells Gap (toString b).toList (.bool b)
  | int (n : Int) : Spells Gap (toString n).toList (.int n)
  | decimal {s : List Char} (h : SpellsDecimal s) : Spells Gap s (.decimal (String.ofList s))
  | text {s : List Char} {t : String} (h : SpellsString s t.toList) :
    Spells Gap (Text.inQuotes s) (.text t)
  | noItems {gap : List Char} (hgap : Gap gap) : Spells Gap ('[' :: gap ++ [']']) (.array [])
  | items {items : List Item} (hne : items ≠ []) (hgaps : ∀ i ∈ items, Gap i.before ∧ Gap i.after)
      (h : ∀ i ∈ items, Spells Gap i.written i.value) :
    Spells Gap ('[' :: Text.commas (items.map Item.chars) ++ [']']) (.array (items.map (·.value)))
  | noMembers {gap : List Char} (hgap : Gap gap) :
    Spells Gap ('\x7b' :: gap ++ ['\x7d']) (.object [])
  | members {members : List Member} (hne : members ≠ [])
      (hgaps : ∀ m ∈ members, Gap m.before ∧ Gap m.after ∧ Gap m.item.before ∧ Gap m.item.after)
      (hnames : ∀ m ∈ members, SpellsString m.written m.name.toList)
      (h : ∀ m ∈ members, Spells Gap m.item.written m.item.value) :
    Spells Gap ('\x7b' :: Text.commas (members.map Member.chars) ++ ['\x7d'])
      (.object (members.map fun m => (m.name, m.item.value)))

/-- A whole text writes the value, perhaps with blanks around it. -/
def Reads (text : String) (v : Json) : Prop :=
  ∃ before written after, text.toList = before ++ written ++ after ∧ Blank before ∧ Blank after ∧
    Spells Blank written v

/-! ## Kinds of values -/

/-- Every number in the value is whole and fits in 64 bits, and every text in it is a string. -/
inductive Whole : Json → Prop where
  | null : Whole .null
  | bool (b : Bool) : Whole (.bool b)
  | int {n : Int} (hlow : -0x8000000000000000 ≤ n) (hhigh : n < 0x10000000000000000) :
    Whole (.int n)
  | text (s : String) : Whole (.text s)
  | array {items : List Json} (h : ∀ v ∈ items, Whole v) : Whole (.array items)
  | object {members : List (String × Json)} (h : ∀ m ∈ members, Whole m.2) :
    Whole (.object members)

mutual

/-- How many arrays and objects lie in each other. -/
def depth : Json → Nat
  | .array items => depthOfItems items + 1
  | .object members => depthOfMembers members + 1
  | _ => 0

def depthOfItems : List Json → Nat
  | [] => 0
  | v :: rest => max (depth v) (depthOfItems rest)

def depthOfMembers : List (String × Json) → Nat
  | [] => 0
  | (_, v) :: rest => max (depth v) (depthOfMembers rest)

end

end RequestAccess.Json
