import RequestAccess.Json

/-!
# Codecs

JSON and TOML are written and read by libraries, and this is all that is asked of them. A text is
read as a value of its format, and the value is then asked what it holds.
-/

namespace RequestAccess

/-- The values of a format. A question has no answer where the value is of another kind. -/
class Format (δ : Type) where
  /-- The value that a text writes. -/
  parse? : String → Option δ
  text? : δ → Option String
  flag? : δ → Option Bool
  /-- A whole number that fits in 64 bits without a sign. -/
  whole? : δ → Option UInt64
  /-- Whether the value stands for none. -/
  isNull : δ → Bool
  items? : δ → Option (List δ)
  members? : δ → Option (List (String × δ))
  /-- The values of the fields of some names, in the order of the names. -/
  fields? : List String → δ → Option (List (Option δ))
  /-- The word that a value of a fixed set of words is written with. -/
  word? : δ → Option String

/-- The libraries at hand: how JSON and TOML are read, and how JSON is written. -/
class Codec where
  JsonData : Type
  TomlData : Type
  [json : Format JsonData]
  [toml : Format TomlData]
  /-- On one line. -/
  compact? : Json → Option String
  /-- For a reader, on many lines. -/
  indented? : Json → Option String
  /-- As part of another text. -/
  shown : Json → String

attribute [reducible, instance] Codec.json Codec.toml

end RequestAccess
