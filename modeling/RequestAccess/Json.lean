import RequestAccess.NameMap

/-!
# JSON values

Objects keep their members in the order written, also when a name is written twice.
-/

namespace RequestAccess

inductive Json where
  | null
  | bool (b : Bool)
  | int (n : Int)
  /-- A number with a fraction or an exponent, or minus zero, as it is written. -/
  | decimal (literal : String)
  | text (s : String)
  | array (items : List Json)
  | object (members : List (String × Json))
  /-- Well-formed text that no Unicode string is written as: half of a surrogate pair. -/
  | unpaired
deriving Inhabited

namespace Json

/-- An object whose members stand in the order of their names. -/
def ofNameMap (m : NameMap Json) : Json := .object m.entries

def ofOption {α : Type} (f : α → Json) : Option α → Json
  | some a => f a
  | none => .null

/-- One member, or none where there is no value. -/
def optional (name : String) : Option Json → List (String × Json)
  | some v => [(name, v)]
  | none => []

end Json

end RequestAccess
