/-! # Cookies -/

namespace RequestAccess

structure Cookie where
  name : String
  value : String
  path : Option String := none
  /-- Seconds until the client drops the cookie. -/
  maxAge : Option Int := none
  httpOnly : Bool := false
  secure : Bool := false
deriving DecidableEq

namespace Cookie

/-- Whether the cookie tells the client to drop it. -/
def isExpired (c : Cookie) : Bool := c.maxAge.any (· ≤ 0)

/-- As it stands in a `Cookie` header. Attributes are not sent back. -/
def render (c : Cookie) : String := c.name ++ "=" ++ c.value

end Cookie

end RequestAccess
