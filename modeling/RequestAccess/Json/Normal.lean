import RequestAccess.Json.Decimal

/-!
# Normal forms

A value in its normal form has the members of an object in the order of their names, each name
once, and its numbers as they are kept: whole within 64 bits, or else as doubles.
-/

namespace RequestAccess.Json

/-- Whether a whole number fits in 64 bits, with or without a sign. -/
def isKept (n : Int) : Bool := -0x8000000000000000 ≤ n && n < 0x10000000000000000

mutual

/-- The normal form. Of members that share a name the last one is left. -/
def normal : Json → Json
  | .int n => if isKept n then .int n else .decimal (roundLiteral (String.ofList (writeInt n)))
  | .decimal literal => .decimal (roundLiteral literal)
  | .array items => .array (normalItems items)
  | .object members => ofNameMap (.ofList (normalMembers members))
  | v => v

def normalItems : List Json → List Json
  | [] => []
  | v :: rest => normal v :: normalItems rest

def normalMembers : List (String × Json) → List (String × Json)
  | [] => []
  | (name, v) :: rest => (name, normal v) :: normalMembers rest

end

example : (normal (.object [("b", .decimal "10e-1"), ("a", .int 1), ("b", .null)])).compact =
    "\x7b\"a\":1,\"b\":null\x7d" := by decide +kernel

end RequestAccess.Json
