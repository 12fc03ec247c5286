import RequestAccess.Cookie
import RequestAccess.NameMap
import RequestAccess.StoreError
import RequestAccess.Text.Blank
import RequestAccess.Text.Pieces

/-!
# Cookie jars

A jar files each cookie under its own name. A readonly jar refuses every change.
-/

namespace RequestAccess

/-- Cookies under their names, for reading or for writing too. -/
structure CookieJar where
  cookies : NameMap Cookie := .empty
  readonly : Bool := false
deriving Inhabited

namespace CookieJar

/-- An empty jar that can be changed. -/
def empty : CookieJar := {}

/-- An empty jar that cannot. -/
def sealed : CookieJar := { readonly := true }

/-! ## Looking -/

def get? (j : CookieJar) (name : String) : Option Cookie := j.cookies.get? name

/-- The cookies in the order of their names. -/
def toList (j : CookieJar) : List Cookie := j.cookies.values

def contains (j : CookieJar) (name : String) : Bool := j.cookies.contains name

def size (j : CookieJar) : Nat := j.cookies.size

/-- The jar as a `Cookie` header. -/
def render (j : CookieJar) : String := Text.join "; " (j.toList.map Cookie.render)

/-! ## Changing -/

/-- Files a cookie whether or not the jar is readonly. -/
def file (j : CookieJar) (c : Cookie) : CookieJar :=
  { j with cookies := j.cookies.insert c.name c }

/-- A change of the jar, which a readonly jar refuses. -/
def ifWritable (j : CookieJar) (changed : CookieJar) : Except StoreError CookieJar :=
  if j.readonly then .error .readonlyCookies else .ok changed

def set (j : CookieJar) (c : Cookie) : Except StoreError CookieJar := j.ifWritable (j.file c)

def erase (j : CookieJar) (name : String) : Except StoreError CookieJar :=
  j.ifWritable { j with cookies := j.cookies.erase name }

def clear (j : CookieJar) : Except StoreError CookieJar :=
  j.ifWritable { j with cookies := .empty }

/-! ## Reading a header -/

/-- The cookie that one piece of a header names: trimmed text on both sides of the first equals
sign. A piece without one, or with nothing before it, names none. -/
def pair? (piece : List Char) : Option Cookie :=
  match Text.cut? '=' piece with
  | none => none
  | some (name, value) =>
    match Text.trim name with
    | [] => none
    | name => some { name := String.ofList name, value := String.ofList (Text.trim value) }

/-- The cookies that a header names, from left to right. -/
def pairs (header : List Char) : List Cookie := (Text.pieces ';' header).filterMap pair?

/-- The readonly jar of a `Cookie` header. Of two cookies of one name the later is kept. -/
def ofHeader (header : String) : CookieJar := (pairs header.toList).foldl file sealed

example : (ofHeader "theme=dark; session=abc123;  ; bad; theme = a=b ").render =
    "session=abc123; theme=a=b" := by decide +kernel

end CookieJar

end RequestAccess
