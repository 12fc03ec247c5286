/-! # Refusals of cookies and headers -/

namespace RequestAccess

inductive StoreError where
  | readonlyCookies
  | readonlyHeaders
  /-- The header name or value that is no such thing. -/
  | invalidHeader (text : String)
deriving DecidableEq

def StoreError.message : StoreError → String
  | .readonlyCookies => "Cookies can only be modified in a Server Action or Route Handler."
  | .readonlyHeaders => "Headers cannot be modified during rendering."
  | .invalidHeader text => "Invalid header: " ++ text

end RequestAccess
