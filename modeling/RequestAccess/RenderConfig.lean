import RequestAccess.Json
import RequestAccess.Text.Blank

/-! # Render configuration -/

namespace RequestAccess

inductive RenderMode where
  | development
  | production
deriving DecidableEq

namespace RenderMode

def all : List RenderMode := [development, production]

def name : RenderMode → String
  | development => "development"
  | production => "production"

/-- As shown to a reader. -/
def title : RenderMode → String
  | development => "Development"
  | production => "Production"

/-- Reads a full or short name in any letter case, with blank space around it. -/
def parse? (s : String) : Option RenderMode :=
  let word := (Text.trim s.toList).map Char.toLower
  if word = "development".toList ∨ word = "dev".toList then some development
  else if word = "production".toList ∨ word = "prod".toList then some production
  else none

end RenderMode

/-- How pages are rendered. -/
structure RenderConfig where
  mode : RenderMode := .production
  /-- Forces development diagnostics on or off whatever the mode. -/
  diagnosticsOverride : Option Bool := none
deriving DecidableEq, Inhabited

namespace RenderConfig

/-- The mode that an environment setting names, or production. -/
def ofSetting (setting : Option String) : RenderConfig :=
  { mode := (setting.bind RenderMode.parse?).getD .production }

def devDiagnostics (c : RenderConfig) : Bool :=
  c.diagnosticsOverride.getD (c.mode == .development)

def toJson (c : RenderConfig) : Json :=
  .object (("mode", .text c.mode.name) ::
    Json.optional "dev_diagnostics" (c.diagnosticsOverride.map .bool))

def describe (c : RenderConfig) : String :=
  "RenderConfig \x7b mode: " ++ c.mode.title ++ ", dev_diagnostics: " ++
    (match c.diagnosticsOverride with
      | none => "None"
      | some b => "Some(" ++ (if b then "true" else "false") ++ ")") ++ " \x7d"

end RenderConfig

end RequestAccess
