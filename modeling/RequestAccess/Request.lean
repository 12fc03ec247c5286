import RequestAccess.CookieJar
import RequestAccess.Draft
import RequestAccess.Headers
import RequestAccess.Text.Quoted

/-! # Incoming requests -/

namespace RequestAccess

/-- The methods that requests may have. -/
inductive Method where
  | get
  | post
  | put
  | delete
  | patch
  | head
  | options
deriving DecidableEq

namespace Method

def all : List Method := [get, post, put, delete, patch, head, options]

def title : Method → String
  | get => "Get"
  | post => "Post"
  | put => "Put"
  | delete => "Delete"
  | patch => "Patch"
  | head => "Head"
  | options => "Options"

end Method

/-- The raw resources of a request. The jar of the response starts empty and is not part of it. -/
structure Request where
  method : Method
  path : String
  headers : Headers := .sealed
  cookies : CookieJar := .sealed
  /-- Given if draft mode is kept in the bypass cookie. -/
  previewId : Option String := none

namespace Request

/-- All readable `cookie` headers read as one. -/
def cookieHeader (h : Headers) : String :=
  Text.join "; " ((h.valuesOf "cookie").filterMap HeaderValue.text?)

def ofHeaders (method : Method) (path : String) (headers : Headers) : Request :=
  { method, path, headers, cookies := .ofHeader (cookieHeader headers) }

def header? (r : Request) (name : String) : Option String := r.headers.get? name

/-- The draft mode of a request whose response has the jar of a key. -/
def draftProvider? (r : Request) (response : Key .jar) : Option DraftProvider :=
  r.previewId.map fun id => .preview (.ofRequest id r.cookies) response

def describe (r : Request) (id : String) : String :=
  "RequestContext \x7b request_id: RequestId(" ++ Text.quoted id ++ "), method: " ++
    r.method.title ++ ", path: " ++ Text.quoted r.path ++ ", draft_mode: " ++
    (if r.previewId.isSome then "true" else "false") ++ ", .. \x7d"

end Request

end RequestAccess
