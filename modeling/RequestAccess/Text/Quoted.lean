import RequestAccess.Text.Hex
import RequestAccess.Text.Unprintable

/-!
# Quoted text

Text as it is shown inside a description of a value: between double quotes, with every character
that a reader could not see written as an escape.
-/

namespace RequestAccess.Text

def quoteChar (c : Char) : List Char :=
  match c with
  | '\x00' => ['\\', '0']
  | '\t' => ['\\', 't']
  | '\r' => ['\\', 'r']
  | '\n' => ['\\', 'n']
  | '"' => ['\\', '"']
  | '\\' => ['\\', '\\']
  | c => if isUnprintable c then ['\\', 'u', '\x7b'] ++ hex c.toNat ++ ['\x7d'] else [c]

def quoted (s : String) : String :=
  String.ofList ('"' :: s.toList.flatMap quoteChar ++ ['"'])

example : quoted "a\"\n\x07é" = "\"a\\\"\\n\\u\x7b7\x7dé\"" := by decide +kernel

end RequestAccess.Text
