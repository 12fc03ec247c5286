import RequestAccess.CookieJar
import RequestAccess.Table

/-!
# Draft mode

Draft mode lasts from request to request through a bypass cookie: a request whose cookie carries
the preview id has it on, and switching it writes the cookie of the response.
-/

namespace RequestAccess

def bypassCookieName : String := "__prerender_bypass"

/-! ## Draft mode of one request -/

/-- Draft mode that a cookie carries from one request to the next. -/
structure PreviewDraft where
  previewId : String
  enabled : Bool

namespace PreviewDraft

/-- On if the request's bypass cookie has the preview id as its value. -/
def ofRequest (previewId : String) (request : CookieJar) : PreviewDraft :=
  { previewId, enabled := (request.get? bypassCookieName).any (·.value == previewId) }

/-- The cookie that carries a choice: the preview id, or an empty value that has expired. -/
def bypassCookie (d : PreviewDraft) (on : Bool) : Cookie :=
  { name := bypassCookieName, value := if on then d.previewId else "", path := some "/",
    maxAge := if on then none else some 0, httpOnly := true, secure := true }

/-- Switches draft mode and files the cookie, if the response's jar takes it. -/
def switch (d : PreviewDraft) (on : Bool) (response : CookieJar) : PreviewDraft × CookieJar :=
  ({ d with enabled := on },
    match response.set (d.bypassCookie on) with
    | .ok jar => jar
    | .error _ => response)

end PreviewDraft

/-! ## Providers -/

/-- Where draft mode is kept. -/
inductive DraftProvider where
  /-- Nowhere: it is off, and switching it does nothing. -/
  | inert
  /-- With the host, which keeps no more than the switch. -/
  | switch (on : Bool)
  /-- In the bypass cookie, with the jar of the response. -/
  | preview (draft : PreviewDraft) (response : Key .jar)
deriving Inhabited

def DraftProvider.isEnabled : DraftProvider → Bool
  | .inert => false
  | .switch on => on
  | .preview draft _ => draft.enabled

def DraftProvider.describe : DraftProvider → String
  | .inert => "NullDraftMode"
  | .switch on => "DraftSwitch \x7b enabled: " ++ (if on then "true" else "false") ++ " \x7d"
  | .preview draft _ =>
    "PreviewDraftMode \x7b enabled: " ++ (if draft.enabled then "true" else "false") ++ ", .. \x7d"

end RequestAccess
