import RequestAccess.Call
import RequestAccess.Text.Blank

/-!
# Accesses

One access of a scenario: the name of an operation, and behind a colon its argument.
-/

namespace RequestAccess

/-- An access of a scenario: a fetch, and perhaps a call on what is fetched. -/
inductive Access where
  | cookies
  | cookiesGet (name : String)
  | cookiesHas (name : String)
  | cookiesSize
  | cookiesSet (name value : String)
  | headers
  | headersGet (name : String)
  | headersHas (name : String)
  | headersKeys
  | draft
  | draftIsEnabled
  | draftEnable
  | draftDisable
deriving DecidableEq

/-- What is wrong with the text of an access. -/
inductive AccessFault where
  | unknown (text : String)
  /-- The argument of `cookies.set` has no equals sign. -/
  | notAPair (argument : String)
deriving DecidableEq

def AccessFault.message : AccessFault → String
  | unknown text => "Unknown access: " ++ text
  | notAPair argument => "cookies.set expects NAME=VALUE, got: " ++ argument

namespace Access

/-! ## Reading and writing -/

/-- The access of an operation without an argument. -/
def plain? (operation : String) : Option Access :=
  match operation with
  | "cookies" => some cookies
  | "cookies.size" => some cookiesSize
  | "headers" => some headers
  | "headers.keys" => some headersKeys
  | "draft" => some draft
  | "draft.is-enabled" => some draftIsEnabled
  | "draft.enable" => some draftEnable
  | "draft.disable" => some draftDisable
  | _ => none

/-- The access of an operation that takes a name. -/
def named? (operation name : String) : Option Access :=
  match operation with
  | "cookies.get" => some (cookiesGet name)
  | "cookies.has" => some (cookiesHas name)
  | "headers.get" => some (headersGet name)
  | "headers.has" => some (headersHas name)
  | _ => none

/-- The access that sets a cookie. -/
def setOf (argument : List Char) : Except AccessFault Access :=
  match Text.cut? '=' argument with
  | some (name, value) => .ok (cookiesSet (String.ofList name) (String.ofList value))
  | none => .error (.notAPair (String.ofList argument))

def orUnknown (s : String) (access : Option Access) : Except AccessFault Access :=
  match access with
  | some access => .ok access
  | none => .error (.unknown s)

/-- Blank space around the operation and around its argument does not count. -/
def parse (s : String) : Except AccessFault Access :=
  match Text.cut? ':' s.toList with
  | none => orUnknown s (plain? (Text.trimmed s))
  | some (operation, argument) =>
    let operation := String.ofList (Text.trim operation)
    let argument := Text.trim argument
    if operation = "cookies.set" then setOf argument
    else orUnknown s (named? operation (String.ofList argument))

def render : Access → String
  | cookies => "cookies"
  | cookiesGet name => "cookies.get:" ++ name
  | cookiesHas name => "cookies.has:" ++ name
  | cookiesSize => "cookies.size"
  | cookiesSet name value => "cookies.set:" ++ name ++ "=" ++ value
  | headers => "headers"
  | headersGet name => "headers.get:" ++ name
  | headersHas name => "headers.has:" ++ name
  | headersKeys => "headers.keys"
  | draft => "draft"
  | draftIsEnabled => "draft.is-enabled"
  | draftEnable => "draft.enable"
  | draftDisable => "draft.disable"

/-! ## What is accessed -/

def resource : Access → Resource
  | cookies | cookiesGet _ | cookiesHas _ | cookiesSize | cookiesSet .. => .cookies
  | headers | headersGet _ | headersHas _ | headersKeys => .headers
  | draft | draftIsEnabled | draftEnable | draftDisable => .draftMode

/-- The call made on the handle. An access without one awaits the handle. -/
def call? : Access → Option Call
  | cookies | headers | draft => none
  | cookiesGet name => some (.cookies (.get name))
  | cookiesHas name => some (.cookies (.has name))
  | cookiesSize => some (.cookies .size)
  | cookiesSet name value => some (.cookies (.set { name, value }))
  | headersGet name => some (.headers (.get name))
  | headersHas name => some (.headers (.has name))
  | headersKeys => some (.headers .keys)
  | draftIsEnabled => some (.draft .isEnabled)
  | draftEnable => some (.draft .enable)
  | draftDisable => some (.draft .disable)

end Access

end RequestAccess
