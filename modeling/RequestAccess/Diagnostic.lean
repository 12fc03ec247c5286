import RequestAccess.Callsites

/-!
# Diagnostics of unawaited use

What is told about a value that was used before the handle it came from was awaited.
-/

namespace RequestAccess

/-- What is said about the use of a value that was not awaited. -/
structure Diagnostic where
  route : Option String
  expression : String
  /-- The function that gave the handle. -/
  api : String
  /-- Whether the use ended a dry run. -/
  escalated : Bool := false
  message : String

namespace Diagnostic

/-- The message names the expression, the route if there is one, and the function to await. -/
def messageFor (route : Option String) (expression api : String) : String :=
  (match route with
    | some route => "Route \"" ++ route ++ "\" "
    | none => "This route ") ++
  "used `" ++ expression ++ "`. `" ++ api ++ "()` should be awaited before using its value."

/-- The diagnostic of one use. -/
def ofUse (route : Option String) (expression api : String) (escalated : Bool) : Diagnostic :=
  { route, expression, api, escalated, message := messageFor route expression api }

def callsite (d : Diagnostic) : Callsite := ⟨d.route, d.expression⟩

end Diagnostic

end RequestAccess
