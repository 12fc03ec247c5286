/-!
# TOML values

A table remembers how it came about, since that decides what may still be added to it.
-/

namespace RequestAccess

/-- How a table came about. -/
inductive TableStyle where
  /-- By its own header, or it is the document. -/
  | header
  /-- By the header of a table inside it. -/
  | implied
  /-- By a dotted key. -/
  | dotted
  /-- Between braces. -/
  | inline
  /-- By a dotted key between braces. -/
  | inlineDotted
deriving DecidableEq

/-- A TOML value. Tables know how they were written, which tells what may be added to them. -/
inductive Toml where
  | text (s : String)
  | int (n : Int)
  | float
  | bool (b : Bool)
  | dateTime (text : String)
  | array (items : List Toml)
  /-- The tables of one repeated header. -/
  | tables (items : List Toml)
  | table (style : TableStyle) (members : List (String × Toml))
deriving Inhabited

end RequestAccess
