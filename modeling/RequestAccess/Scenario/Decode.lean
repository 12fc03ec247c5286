import RequestAccess.Codec
import RequestAccess.Scenario

/-!
# Decoding scenarios

A record is read from its fields. Those that are left out have their defaults.
-/

namespace RequestAccess.Scenario

variable {δ : Type} [Format δ]

open Format

/-! ## Fields -/

/-- A field that may be left out. -/
def orElse {α : Type} (default : α) (decode : δ → Option α) : Option δ → Option α
  | none => some default
  | some v => decode v

/-- A field that may be left out or be none. -/
def optional {α : Type} (decode : δ → Option α) : Option δ → Option (Option α)
  | none => some none
  | some v => if isNull v then some none else (decode v).map some

/-! ## Values -/

/-- One of a fixed set of words. -/
def choice {α : Type} (all : List α) (name : α → String) (v : δ) : Option α :=
  match word? v with
  | some word => all.find? fun a => name a == word
  | none => none

def listOf {α : Type} (decode : δ → Option α) (v : δ) : Option (List α) :=
  match items? v with
  | some items => items.mapM decode
  | none => none

/-- Texts under names. Of two with one name the later counts. -/
def texts (v : δ) : Option (NameMap String) :=
  match members? v with
  | some members =>
    (members.mapM fun m => (text? m.2).map (m.1, ·)).map NameMap.ofList
  | none => none

/-! ## Records -/

def decodeRender (v : δ) : Option RenderConfig :=
  match fields? ["mode", "dev_diagnostics"] v with
  | some [mode, diagnostics] =>
    match orElse .production (choice RenderMode.all RenderMode.name) mode,
      optional flag? diagnostics with
    | some mode, some diagnosticsOverride => some { mode, diagnosticsOverride }
    | _, _ => none
  | _ => none

def decodeRoute (v : δ) : Option RouteConfig :=
  match fields? ["path", "dynamic", "revalidate"] v with
  | some [some path, dynamic, revalidate] =>
    match text? path, orElse .auto (choice DynamicBehavior.all DynamicBehavior.name) dynamic,
      optional whole? revalidate with
    | some path, some dynamic, some revalidate => some { path, dynamic, revalidate }
    | _, _, _ => none
  | _ => none

def decodeRequest (v : δ) : Option RequestPlan :=
  match fields? ["headers", "cookies", "preview_id", "prefetch", "phase", "dry_run",
    "forward_draft_mode"] v with
  | some [headers, cookies, previewId, prefetch, phase, dryRun, forwardDraftMode] =>
    match orElse .empty texts headers, orElse .empty texts cookies, optional text? previewId,
      orElse false flag? prefetch, orElse .render (choice RequestPhase.all RequestPhase.name) phase,
      orElse false flag? dryRun, orElse false flag? forwardDraftMode with
    | some headers, some cookies, some previewId, some prefetch, some phase, some dryRun,
      some forwardDraftMode =>
      some { headers, cookies, previewId, prefetch, phase, dryRun, forwardDraftMode }
    | _, _, _, _, _, _, _ => none
  | _ => none

def decode (v : δ) : Option Scenario :=
  match fields? ["render", "route", "request", "accesses", "phases"] v with
  | some [render, route, request, accesses, phases] =>
    match orElse {} decodeRender render, orElse { path := "/" } decodeRoute route,
      orElse {} decodeRequest request,
      orElse ["cookies", "headers", "draft"] (listOf text?) accesses,
      orElse Phase.all (listOf (choice Phase.all Phase.name)) phases with
    | some render, some route, some request, some accesses, some phases =>
      some { render, route, request, accesses, phases }
    | _, _, _, _, _ => none
  | _ => none

end RequestAccess.Scenario
