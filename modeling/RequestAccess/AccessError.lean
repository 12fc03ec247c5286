import RequestAccess.StoreError
import RequestAccess.Tracking
import RequestAccess.UsageError

/-!
# Refused accesses

Why an access to request data is not answered. Some refusals only tell the renderer to render the
route dynamically, and some must fail the build.
-/

namespace RequestAccess

/-- Why an access was refused. -/
inductive AccessError where
  /-- There is no render at hand. -/
  | missingStore (expression : String)
  | invalidDynamicUsage (error : UsageError)
  /-- The route is to fail on dynamic data. -/
  | staticBailout (route expression : String)
  /-- Static generation gives up, and the route is rendered for each request. -/
  | dynamicServer (route expression : String)
  | postponed (signal : Postponement)
  /-- A change made at once has ended a dry run. -/
  | prerenderInterrupted (route expression : String)
  /-- Data was asked for where it must never be. -/
  | invariant (text : String)
  /-- Draft mode was switched after the response was sent. -/
  | afterNotSupported (route expression : String)
  /-- The prerender has ended, and what was awaited will not come. -/
  | hangingPromiseRejection (route expression : String)
  /-- The handle was used before its data is there. -/
  | syncAccessUnavailable (route expression api : String)
  | store (error : StoreError)
deriving DecidableEq

namespace AccessError

def kind : AccessError → String
  | missingStore _ => "missing-store"
  | invalidDynamicUsage _ => "invalid-dynamic-usage"
  | staticBailout .. => "static-bailout"
  | dynamicServer .. => "dynamic-server"
  | postponed _ => "postponed"
  | prerenderInterrupted .. => "prerender-interrupted"
  | invariant _ => "invariant"
  | afterNotSupported .. => "after-not-supported"
  | hangingPromiseRejection .. => "hanging-promise-rejection"
  | syncAccessUnavailable .. => "sync-access-unavailable"
  | store _ => "store"

def message : AccessError → String
  | missingStore expression =>
    "`" ++ expression ++ "` was called outside a request scope."
  | invalidDynamicUsage error => error.message
  | staticBailout route expression =>
    "Route " ++ route ++ " with `dynamic = \"error\"` couldn't be rendered statically because " ++
      "it used `" ++ expression ++ "`."
  | dynamicServer route expression =>
    "Route " ++ route ++ " couldn't be rendered statically because it used `" ++ expression ++ "`."
  | postponed signal => signal.reason
  | prerenderInterrupted route expression =>
    "Route " ++ route ++ " used " ++ expression ++
      " without first calling `await connection()`."
  | invariant text => "Invariant: " ++ text ++ " This is a bug in the renderer."
  | afterNotSupported route expression =>
    "Route " ++ route ++ " used \"" ++ expression ++ "\" inside `after`. The enabled status of " ++
      "draftMode can be read inside `after` but you cannot enable or disable draftMode."
  | hangingPromiseRejection route expression =>
    "During prerendering, " ++ expression ++ " rejects when the prerender is complete. " ++
      "Typically these errors are handled by the renderer but if you move " ++ expression ++
      " to a different context you may observe this error and you should handle it in that " ++
      "context. This occurred at route \"" ++ route ++ "\"."
  | syncAccessUnavailable route expression api =>
    "Route \"" ++ route ++ "\" used `" ++ expression ++ "` while `" ++ api ++
      "()` is still pending. Await `" ++ api ++ "()` first."
  | store error => error.message

/-- Whether the renderer is only told to render the route dynamically. -/
def isControlFlow : AccessError → Bool
  | staticBailout .. | dynamicServer .. | postponed _ | prerenderInterrupted .. => true
  | _ => false

/-- Whether the build must fail. -/
def isFatal : AccessError → Bool
  | missingStore _ | invalidDynamicUsage _ | invariant _ => true
  | _ => false

/-- Data that client components must not ask for. -/
def inClientComponent (api : String) : AccessError :=
  invariant ("`" ++ api ++ "` must not be used within a client component. The bundler should " ++
    "keep `" ++ api ++ "` out of client components statically, but did not in this case.")

end AccessError

end RequestAccess
