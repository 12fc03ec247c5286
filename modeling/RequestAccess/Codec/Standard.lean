import RequestAccess.Codec
import RequestAccess.Json.Reader
import RequestAccess.Toml.Reader

/-!
# The standard codec

What the program runs with. A text of either format is read as a tree.
-/

namespace RequestAccess

namespace Format

variable {δ : Type}

def unsigned? (n : Int) : Option UInt64 :=
  if 0 ≤ n ∧ n < UInt64.size then some (UInt64.ofNat n.toNat) else none

/-- How often a name is written. -/
def occurrences (name : String) (members : List (String × δ)) : Nat :=
  (members.filter (·.1 = name)).length

/-- The fields of a record that is written with names, each of which may be written once. -/
def named? (names : List String) (members : List (String × δ)) : Option (List (Option δ)) :=
  if names.all fun name => occurrences name members ≤ 1 then
    some (names.map fun name => (members.find? (·.1 = name)).map (·.2))
  else none

/-- The fields of a record that is written as a list. -/
def listed (names : List String) (items : List δ) : List (Option δ) :=
  names.mapIdx fun i _ => items[i]?

end Format

/-! ## JSON -/

namespace Json

/-- A word is a text, or the only name of an object whose value is null. -/
def word? : Json → Option String
  | .text s => some s
  | .object [(name, .null)] => some name
  | _ => none

/-- A list of fields may not go on after the last field. -/
def fields? (names : List String) : Json → Option (List (Option Json))
  | .object members => Format.named? names members
  | .array items =>
    if names.length < items.length then none else some (Format.listed names items)
  | _ => none

instance : Format Json where
  parse? := parse?
  text? v := match v with | .text s => some s | _ => none
  flag? v := match v with | .bool b => some b | _ => none
  whole? v := match v with | .int n => Format.unsigned? n | _ => none
  isNull v := match v with | .null => true | _ => false
  items? v := match v with | .array items => some items | _ => none
  members? v := match v with | .object members => some members | _ => none
  fields? := fields?
  word? := word?

end Json

/-! ## TOML -/

namespace Toml

def isVacant : Toml → Bool
  | .array [] => true
  | .tables [] => true
  | .table _ [] => true
  | _ => false

/-- A word is a text, or the only name of a table, whose value is empty. -/
def word? : Toml → Option String
  | .text s => some s
  | .table _ [(name, v)] => if isVacant v then some name else none
  | _ => none

def items? : Toml → Option (List Toml)
  | .array items => some items
  | .tables items => some items
  | _ => none

/-- The name under which a date or time is the only member. -/
def dateTimeName : String := "$__toml_private_datetime"

def members? : Toml → Option (List (String × Toml))
  | .table _ members => some members
  | .dateTime s => some [(dateTimeName, .text s)]
  | _ => none

def fields? (names : List String) (v : Toml) : Option (List (Option Toml)) :=
  match v.members? with
  | some members => Format.named? names members
  | none => v.items?.map (Format.listed names)

instance : Format Toml where
  parse? := parse?
  text? v := match v with | .text s => some s | _ => none
  flag? v := match v with | .bool b => some b | _ => none
  whole? v := match v with | .int n => Format.unsigned? n | _ => none
  isNull _ := false
  items? := items?
  members? := members?
  fields? := fields?
  word? := word?

end Toml

instance Codec.standard : Codec where
  JsonData := Json
  TomlData := Toml
  compact? v := some v.compact
  indented? v := some v.indented
  shown := Json.compact

end RequestAccess
