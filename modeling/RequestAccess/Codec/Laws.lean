import RequestAccess.Codec
import RequestAccess.Json.Grammar
import RequestAccess.Toml.Plain

/-!
# Laws of codecs

What the libraries are trusted with, and nothing else is known of them. A law about reading speaks
of the values that trees are read as: such a value answers what its tree holds.
-/

namespace RequestAccess

namespace Format

variable {δ : Type} [Format δ]

/-- The values answer for the trees that they are read from. Fields are known where each name stands
once. -/
structure Answers (data : Json → δ) : Prop where
  text (s : String) : text? (data (.text s)) = some s
  word (s : String) : word? (data (.text s)) = some s
  flag (b : Bool) : flag? (data (.bool b)) = some b
  isNull {v : Json} (h : v ≠ .null) : isNull (data v) = false
  items (vs : List Json) : items? (data (.array vs)) = some (vs.map data)
  members {ms : List (String × Json)} (h : (ms.map (·.1)).Nodup) :
    members? (data (.object ms)) = some (ms.map fun m => (m.1, data m.2))
  fields (names : List String) {ms : List (String × Json)} (h : (ms.map (·.1)).Nodup) :
    fields? names (data (.object ms)) = some (names.map fun name => (ms.lookup name).map data)

/-- The value has the text under a path of names, whichever fields are asked for beside them. -/
def Says : List String → String → δ → Prop
  | [], s, v => text? v = some s
  | name :: path, s, v => ∀ names fields, fields? names v = some fields →
    ∀ i : Nat, names[i]? = some name → ∃ u, fields[i]? = some (some u) ∧ Says path s u

end Format

namespace Codec

variable [Codec]

/-- JSON is written by its grammar, without a gap on one line and with blanks in the gaps on many.
-/
structure WritesJson : Prop where
  compact {v : Json} (h : v.Whole) :
    ∃ s, compact? v = some s ∧ Json.Spells (· = []) s.toList v
  indented {v : Json} (h : v.Whole) :
    ∃ s, indented? v = some s ∧ Json.Spells Json.Blank s.toList v

/-- JSON is read by its grammar, unless too much of it lies in each other. -/
structure ReadsJson (data : Json → JsonData) : Prop extends Format.Answers data where
  null : Format.isNull (data .null) = true
  whole (n : UInt64) : Format.whole? (data (.int n.toNat)) = some n
  parse {text : String} {v : Json} (h : Json.Reads text v) (hw : v.Whole) (hd : v.depth ≤ 127) :
    Format.parse? text = some (data v)

/-- Plain documents are read as what they say. Of any other text it is known that a quote behind a
key opens a string, which the document then has under the key. -/
structure ReadsToml (data : Json → TomlData) : Prop extends Format.Answers data where
  whole (n : UInt64) (h : n.toNat < 0x8000000000000000) :
    Format.whole? (data (.int n.toNat)) = some n
  plain {d : Toml.Plain.Document} (h : d.Sound) :
    Format.parse? (String.ofList d.chars) = some (data d.tree)
  string {d : Toml.Plain.Document} {table key : String} {rest : List Char} {v : TomlData}
      (hd : d.Sound) (ht : Toml.IsBare table) (hk : Toml.IsBare key) (hrest : rest.head? ≠ some '"')
      (h : Format.parse? (String.ofList (d.chars ++ Toml.Plain.header [table] ++ key.toList ++
        [' ', '=', ' ', '"'] ++ rest)) = some v) :
    ∃ written cs more, rest = written ++ '"' :: more ∧ Toml.SpellsString written cs ∧
      Format.Says [table, key] (String.ofList cs) v

end Codec

end RequestAccess
