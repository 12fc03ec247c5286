import RequestAccess.CookieJar
import RequestAccess.Headers

/-!
# Calls

What can be asked of cookies, headers and draft mode, and the expressions that name each call: one
in the errors of a handle, one in what a guard tells.
-/

namespace RequestAccess

/-- What a fetch asks for. -/
inductive Resource where
  | cookies
  | headers
  | draftMode
deriving DecidableEq

namespace Resource

def all : List Resource := [cookies, headers, draftMode]

/-- The function that gives a handle to the resource. -/
def api : Resource → String
  | cookies => "cookies"
  | headers => "headers"
  | draftMode => "draftMode"

/-- The call of that function, between backquotes. -/
def quotedCall (r : Resource) : String := "`" ++ r.api ++ "()`"

end Resource

/-! ## Calls of each resource -/

inductive CookieCall where
  | get (name : String)
  | getAll
  | has (name : String)
  | size
  | set (cookie : Cookie)
  | delete (name : String)
  | clear
  /-- The jar as a `Cookie` header. -/
  | render
deriving DecidableEq

inductive HeaderCall where
  | get (name : String)
  | getSetCookie
  | has (name : String)
  | entries
  | keys
  | values
  | set (name value : String)
  | append (name value : String)
  | delete (name : String)
deriving DecidableEq

inductive DraftCall where
  | isEnabled
  | enable
  | disable
deriving DecidableEq

/-- An operation on a value of a resource. -/
inductive Call where
  | cookies (call : CookieCall)
  | headers (call : HeaderCall)
  | draft (call : DraftCall)
deriving DecidableEq

/-! ## Expressions -/

/-- How the switching of draft mode is spelled, by whoever names it. -/
def DraftCall.enabling : String := "draftMode().enable()"

def DraftCall.disabling : String := "draftMode().disable()"

/-! ### What a handle calls it -/

/-- The expression of a call that is made on a handle. -/
def CookieCall.expression : CookieCall → String
  | get name => "cookies().get('" ++ name ++ "')"
  | getAll => "cookies().getAll()"
  | has name => "cookies().has('" ++ name ++ "')"
  | size => "cookies().size"
  | set _ => "cookies().set(...)"
  | delete name => "cookies().delete('" ++ name ++ "')"
  | clear => "cookies().clear()"
  | render => "cookies().toString()"

/-- The call as a pending handle spells it. -/
def HeaderCall.expression : HeaderCall → String
  | get name => "headers().get('" ++ name ++ "')"
  | getSetCookie => "headers().getSetCookie()"
  | has name => "headers().has('" ++ name ++ "')"
  | entries => "headers().entries()"
  | keys => "headers().keys()"
  | values => "headers().values()"
  | set .. => "headers().set(...)"
  | append .. => "headers().append(...)"
  | delete name => "headers().delete('" ++ name ++ "')"

def DraftCall.expression : DraftCall → String
  | isEnabled => "draftMode().isEnabled"
  | enable => enabling
  | disable => disabling

def Call.expression : Call → String
  | cookies c => c.expression
  | headers c => c.expression
  | draft c => c.expression

/-! ### What a guard calls it -/

/-- The expression under which a guard tells a call. Guards wrap the stores and spell the calls
themselves. -/
def CookieCall.observed : CookieCall → String
  | get name => "cookies().get('" ++ name ++ "')"
  | getAll => "cookies().getAll()"
  | has name => "cookies().has('" ++ name ++ "')"
  | size => "cookies().size"
  | set _ => "cookies().set(...)"
  | delete name => "cookies().delete('" ++ name ++ "')"
  | clear => "cookies().clear()"
  | render => "cookies().toString()"

/-- The call as a guard spells it. -/
def HeaderCall.observed : HeaderCall → String
  | get name => "headers().get('" ++ name ++ "')"
  | getSetCookie => "headers().getSetCookie()"
  | has name => "headers().has('" ++ name ++ "')"
  | entries => "headers().entries()"
  | set .. => "headers().set(...)"
  | append .. => "headers().append(...)"
  | delete name => "headers().delete('" ++ name ++ "')"
  | keys => "headers().keys()"
  | values => "headers().values()"

def DraftCall.observed : DraftCall → String
  | isEnabled => "draftMode().isEnabled"
  | enable => enabling
  | disable => disabling

def Call.observed : Call → String
  | cookies c => c.observed
  | headers c => c.observed
  | draft c => c.observed

/-! ### Both spell alike -/

@[simp] theorem CookieCall.observed_eq (c : CookieCall) : c.observed = c.expression := by
  cases c <;> rfl

@[simp] theorem HeaderCall.observed_eq (c : HeaderCall) : c.observed = c.expression := by
  cases c <;> rfl

@[simp] theorem DraftCall.observed_eq (c : DraftCall) : c.observed = c.expression := by
  cases c <;> rfl

@[simp] theorem Call.observed_eq (c : Call) : c.observed = c.expression := by
  cases c with
  | cookies c => exact c.observed_eq
  | headers c => exact c.observed_eq
  | draft c => exact c.observed_eq

def Call.resource : Call → Resource
  | cookies _ => .cookies
  | headers _ => .headers
  | draft _ => .draftMode

/-! ## Answers -/

/-- What a call gives back. -/
inductive Answer where
  | cookie (cookie : Option Cookie)
  | cookies (cookies : List Cookie)
  | flag (b : Bool)
  | count (n : Nat)
  | text (text : String)
  | header (value : Option String)
  | texts (texts : List String)
  | entries (entries : List (String × String))
  /-- A change was made. -/
  | done
  /-- The call was meant for another resource. -/
  | unanswered
deriving DecidableEq

/-- What a call comes to: an answer, or a change that the store takes or refuses. -/
inductive Effect (α : Type) where
  | answer (a : Answer)
  | change (changed : Except StoreError α)

def CookieJar.run (j : CookieJar) : CookieCall → Effect CookieJar
  | .get name => .answer (.cookie (j.get? name))
  | .getAll => .answer (.cookies j.toList)
  | .has name => .answer (.flag (j.contains name))
  | .size => .answer (.count j.size)
  | .set cookie => .change (j.set cookie)
  | .delete name => .change (j.erase name)
  | .clear => .change j.clear
  | .render => .answer (.text j.render)

def Headers.run (h : Headers) : HeaderCall → Effect Headers
  | .get name => .answer (.header (h.get? name))
  | .getSetCookie => .answer (.texts h.setCookies)
  | .has name => .answer (.flag (h.contains name))
  | .entries => .answer (.entries h.entries)
  | .keys => .answer (.texts h.names)
  | .values => .answer (.texts h.values)
  | .set name value => .change (h.set name value)
  | .append name value => .change (h.append name value)
  | .delete name => .change (h.erase name)

end RequestAccess
