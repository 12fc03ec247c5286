import RequestAccess.Scenario.Decode

/-!
# Scenario files

The name of a file tells its format. The template is what a new file starts with.
-/

namespace RequestAccess

/-- Why a scenario cannot be had from a file. -/
inductive LoadError where
  | unreadable (path : String)
  | malformedJson (path : String)
  | malformedToml (path : String)

def LoadError.message : LoadError → String
  | unreadable path => "Failed to read config file: " ++ path
  | malformedJson path => "Failed to parse JSON config: " ++ path
  | malformedToml path => "Failed to parse TOML config: " ++ path

namespace Scenario

/-- The names of JSON files end in `.json`, and all others are TOML. -/
def isJsonName (path : String) : Bool := ".json".toList.isSuffixOf path.toList

/-- What stands in front of a name does not make it a name of a JSON file, nor take that away. -/
theorem isJsonName_append (front : String) {name : String} (h : 5 ≤ name.length) :
    isJsonName (front ++ name) = isJsonName name := by
  rw [Bool.eq_iff_iff]
  simp only [isJsonName, List.isSuffixOf_iff_suffix, String.toList_append]
  constructor
  · intro hsuffix
    exact List.suffix_of_suffix_length_le hsuffix (List.suffix_append _ _) h
  · intro hsuffix
    exact hsuffix.trans (List.suffix_append _ _)

section Reading

variable [Codec]

def ofJson? (text : String) : Option Scenario :=
  (Format.parse? text : Option Codec.JsonData).bind decode

def ofToml? (text : String) : Option Scenario :=
  (Format.parse? text : Option Codec.TomlData).bind decode

def parse (path text : String) : Except LoadError Scenario :=
  if isJsonName path then
    match ofJson? text with
    | some s => .ok s
    | none => .error (.malformedJson path)
  else
    match ofToml? text with
    | some s => .ok s
    | none => .error (.malformedToml path)

end Reading

/-! ## The template -/

/-- The template up to the path of the route. -/
def templateHead : String :=
  "# Edge render scenario\n" ++
  "\n" ++
  "# Accesses run in order under every phase:\n" ++
  "#   cookies, cookies.get:NAME, cookies.has:NAME, cookies.size, cookies.set:NAME=VALUE\n" ++
  "#   headers, headers.get:NAME, headers.has:NAME, headers.keys\n" ++
  "#   draft, draft.is-enabled, draft.enable, draft.disable\n" ++
  "accesses = [\"cookies.get:session\", \"headers\", \"draft.is-enabled\"]\n" ++
  "\n" ++
  "phases = [\n" ++
  "    \"request\",\n" ++
  "    \"prerender\",\n" ++
  "    \"prerender-ppr\",\n" ++
  "    \"prerender-legacy\",\n" ++
  "    \"cache\",\n" ++
  "    \"private-cache\",\n" ++
  "]\n" ++
  "\n" ++
  "[render]\n" ++
  "mode = \"development\"\n" ++
  "\n" ++
  "[route]\n" ++
  "path = \""

/-- The template behind the path. -/
def templateTail : String :=
  "\"\n" ++
  "# dynamic = \"auto\" | \"force-dynamic\" | \"force-static\" | \"error\"\n" ++
  "dynamic = \"auto\"\n" ++
  "revalidate = 60\n" ++
  "\n" ++
  "[request]\n" ++
  "phase = \"render\"\n" ++
  "prefetch = false\n" ++
  "dry_run = false\n" ++
  "forward_draft_mode = false\n" ++
  "# preview_id = \"preview-secret\"\n" ++
  "\n" ++
  "[request.headers]\n" ++
  "accept = \"text/html\"\n" ++
  "\n" ++
  "[request.cookies]\n" ++
  "session = \"abc123\"\n"

/-- The text of a new scenario file. The route is written as it is. -/
def template (route : String) : String := templateHead ++ route ++ templateTail

end Scenario

end RequestAccess
