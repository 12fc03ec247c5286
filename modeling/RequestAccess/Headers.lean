import RequestAccess.Header
import RequestAccess.NameMap
import RequestAccess.StoreError
import RequestAccess.Text.Pieces

/-!
# Headers

Names are found in any letter case. A name has its values in the order they were added, and reading
it joins the readable ones.
-/

namespace RequestAccess

/-- The lines of a header block, name by name. -/
structure Headers where
  /-- The values of each name, never an empty list. -/
  lines : NameMap (List HeaderValue) := .empty
  isSealed : Bool := false
deriving Inhabited

namespace Headers

/-- No headers, open to change. -/
def empty : Headers := {}

/-- No headers, and none can be added. -/
def sealed : Headers := { isSealed := true }

/-! ## Looking -/

/-- The readable values joined by a comma and a blank, if there are any. -/
def combined? (values : List HeaderValue) : Option String :=
  match values.filterMap HeaderValue.text? with
  | [] => none
  | texts => some (Text.join ", " texts)

/-- The values under a name that is in lower case. -/
def valuesOf (h : Headers) (name : String) : List HeaderValue := (h.lines.get? name).getD []

def get? (h : Headers) (name : String) : Option String :=
  match headerName? name with
  | some name => combined? (h.valuesOf name)
  | none => none

/-- The readable `set-cookie` values, each on its own. -/
def setCookies (h : Headers) : List String :=
  (h.valuesOf "set-cookie").filterMap HeaderValue.text?

/-- Whether there is a value of the name, readable or not. -/
def contains (h : Headers) (name : String) : Bool :=
  match headerName? name with
  | some name => h.lines.contains name
  | none => false

/-- Each name that has a readable value, with its combined value, in the order of the names. -/
def entries (h : Headers) : List (String × String) :=
  h.lines.entries.filterMap fun e => (combined? e.2).map (e.1, ·)

def names (h : Headers) : List String := h.entries.map (·.1)

def values (h : Headers) : List String := h.entries.map (·.2)

/-! ## Changing -/

/-- Adds a value after those its name has, whether or not the headers are sealed. -/
def add (h : Headers) (name : String) (value : HeaderValue) : Headers :=
  { h with lines := h.lines.insert name (h.valuesOf name ++ [value]) }

/-- A name and a value, or what is wrong with the first of them that is wrong. -/
def line (name value : String) : Except StoreError (String × HeaderValue) :=
  match headerName? name with
  | none => .error (.invalidHeader name)
  | some key =>
    match HeaderValue.ofString? value with
    | none => .error (.invalidHeader value)
    | some value => .ok (key, value)

/-- Replaces every value of the name. -/
def set (h : Headers) (name value : String) : Except StoreError Headers :=
  if h.isSealed then .error .readonlyHeaders
  else match line name value with
    | .error e => .error e
    | .ok (name, value) => .ok { h with lines := h.lines.insert name [value] }

def append (h : Headers) (name value : String) : Except StoreError Headers :=
  if h.isSealed then .error .readonlyHeaders
  else match line name value with
    | .error e => .error e
    | .ok (name, value) => .ok (h.add name value)

def erase (h : Headers) (name : String) : Except StoreError Headers :=
  if h.isSealed then .error .readonlyHeaders
  else match headerName? name with
    | none => .error (.invalidHeader name)
    | some name => .ok { h with lines := h.lines.erase name }

/-! ## Building -/

/-- The sealed headers with these values. -/
def ofValues (values : List (String × HeaderValue)) : Headers :=
  values.foldl (fun h v => h.add v.1 v.2) sealed

/-- The sealed headers of a list of texts, or the first thing wrong in it. -/
def ofPairs (pairs : List (String × String)) : Except StoreError Headers :=
  match pairs.mapM fun p => line p.1 p.2 with
  | .error e => .error e
  | .ok values => .ok (ofValues values)

end Headers

end RequestAccess
