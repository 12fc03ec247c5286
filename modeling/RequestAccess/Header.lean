/-!
# Header names and values

A name is a token and is kept in lower case. A value is text, or bytes that are no readable text;
of those only the fact that they are there can be seen.
-/

namespace RequestAccess

/-! ## Names -/

def isTokenChar (c : Char) : Bool := c.isAlphanum || "!#$%&'*+-.^_`|~".toList.contains c

/-- The lower-case form of a header name: one to 65535 token characters. -/
def headerName? (s : String) : Option String :=
  let cs := s.toList
  if cs ≠ [] ∧ cs.length ≤ 65535 ∧ cs.all isTokenChar then
    some (String.ofList (cs.map Char.toLower))
  else none

/-! ## Values -/

/-- A value, by whether all of it can be read as text. -/
inductive HeaderValue where
  | readable (text : String)
  | unreadable
deriving DecidableEq

namespace HeaderValue

/-- Control characters other than the tab cannot stand in a value. -/
def isAllowed (code : Nat) : Bool := (0x20 ≤ code && code != 0x7F) || code == 0x09

/-- A tab, a blank or a character of ASCII that has a glyph. -/
def isVisible (code : Nat) : Bool := (0x20 ≤ code && code < 0x7F) || code == 0x09

def ofString? (s : String) : Option HeaderValue :=
  if s.toList.all fun c => isAllowed c.toNat then
    some (if s.toList.all fun c => isVisible c.toNat then .readable s else .unreadable)
  else none

def ofBytes? (bytes : List Nat) : Option HeaderValue :=
  if bytes.all fun b => b < 256 && isAllowed b then
    some (if bytes.all isVisible then .readable (String.ofList (bytes.map Char.ofNat))
      else .unreadable)
  else none

def text? : HeaderValue → Option String
  | .readable text => some text
  | .unreadable => none

end HeaderValue

end RequestAccess
