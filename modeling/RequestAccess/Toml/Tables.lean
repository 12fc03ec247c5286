import RequestAccess.Toml

/-!
# Building tables

A key with dots and a header both name a place in a table inside the document. What stands there
already decides whether something may be added.
-/

namespace RequestAccess.Toml

abbrev Members := List (String × Toml)

def find? (name : String) (ms : Members) : Option Toml :=
  (ms.find? (·.1 = name)).map (·.2)

def replace (name : String) (v : Toml) (ms : Members) : Members :=
  ms.map fun m => if m.1 = name then (name, v) else m

/-- How the places on a path are entered. -/
structure Route where
  /-- The style of a table that is made on the way. -/
  fresh : TableStyle
  /-- The tables that may be entered. -/
  enters : TableStyle → Bool

/-- The way of a header. -/
def Route.header : Route where
  fresh := .implied
  enters s := s == .header || s == .implied || s == .dotted

/-- The way of a dotted key: tables with a header of their own are closed. -/
def Route.dotted : Route where
  fresh := .dotted
  enters s := s == .implied || s == .dotted

/-- The way of a dotted key between braces. -/
def Route.inline : Route where
  fresh := .inlineDotted
  enters s := s == .inlineDotted

def isDotted (s : TableStyle) : Bool := s == .dotted || s == .inlineDotted

/-- Changes the members of the table at a path. Of repeated tables the last one is meant. -/
def within (route : Route) : List String → (TableStyle → Members → Option Members) →
    TableStyle → Members → Option Members
  | [], f, style, ms => f style ms
  | name :: path, f, _, ms =>
    match find? name ms with
    | none =>
      (within route path f route.fresh []).map fun inner =>
        ms ++ [(name, .table route.fresh inner)]
    | some (.table style inner) =>
      if route.enters style then
        (within route path f style inner).map fun inner => replace name (.table style inner) ms
      else none
    | some (.tables items) =>
      match items.getLast? with
      | some (.table style inner) =>
        (within route path f style inner).map fun inner =>
          replace name (.tables (items.dropLast ++ [.table style inner])) ms
      | _ => none
    | some _ => none

/-- A value under a key, with the path of the table that it goes into. -/
structure Pair where
  path : List String
  key : String
  value : Toml

/-- Adds a value. Its key must be new, and dots must lead into a table that dots made. -/
def addPair (route : Route) (style : TableStyle) (ms : Members) (p : Pair) : Option Members :=
  within route p.path
    (fun style ms =>
      if isDotted style == p.path.isEmpty then none
      else if (find? p.key ms).isSome then none
      else some (ms ++ [(p.key, p.value)]))
    style ms

def addPairs (route : Route) (style : TableStyle) (ms : Members) (pairs : List Pair) :
    Option Members :=
  pairs.foldlM (addPair route style) ms

/-- The table between braces. -/
def inlineTable? (pairs : List Pair) : Option Toml :=
  (addPairs .inline .inline [] pairs).map (.table .inline)

/-! ## Sections -/

/-- A header, with whether it is repeated, and the pairs under it. -/
structure Section where
  repeated : Bool
  path : List String
  key : String
  pairs : List Pair

/-- The table of a section, over the members that the headers of tables inside it have made. -/
def Section.table? (s : Section) (ms : Members) : Option Toml :=
  (addPairs .dotted .header ms s.pairs).map (.table .header)

/-- Adds a section to the table that it goes into. -/
def Section.addTo (s : Section) (ms : Members) : Option Members :=
  if s.repeated then
    match find? s.key ms, s.table? [] with
    | none, some made => some (ms ++ [(s.key, .tables [made])])
    | some (.tables items), some made => some (replace s.key (.tables (items ++ [made])) ms)
    | _, _ => none
  else
    match find? s.key ms with
    | none => (s.table? []).map fun made => ms ++ [(s.key, made)]
    | some (.table .implied inner) =>
      (s.table? inner).map fun made => ms.filter (·.1 ≠ s.key) ++ [(s.key, made)]
    | some _ => none

def addSection (ms : Members) (s : Section) : Option Members :=
  within .header s.path (fun _ ms => s.addTo ms) .header ms

/-- The document of the pairs before the first header and the sections after them. -/
def document? (pairs : List Pair) (sections : List Section) : Option Toml :=
  match addPairs .dotted .header [] pairs with
  | some ms => (sections.foldlM addSection ms).map (.table .header)
  | none => none

end RequestAccess.Toml
