import PluginHost.Json
import PluginHost.Text.Digits

/-!
# Printing JSON

`quote` writes a string: the quote, the backslash and the controls are escaped, every other
character stands for itself.  `printObject` writes an object over several lines, two spaces
deeper for each level, and an empty one on one line.
-/

namespace PluginHost.Json

/-- A character as it is written inside a string. -/
def quoteChar (c : Char) : List Char :=
  match c with
  | '"' => ['\\', '"']
  | '\\' => ['\\', '\\']
  | '\x08' => ['\\', 'b']
  | '\x0c' => ['\\', 'f']
  | '\n' => ['\\', 'n']
  | '\r' => ['\\', 'r']
  | '\t' => ['\\', 't']
  | c =>
    if c.toNat < 0x20 then
      ['\\', 'u', '0', '0', Nat.digitChar (c.toNat / 16), Nat.digitChar (c.toNat % 16)]
    else [c]

/-- A string, between quotes. -/
def quote (s : String) : List Char := '"' :: (s.toList.flatMap quoteChar ++ ['"'])

/-- The spaces in front of a line at a depth. -/
def margin (depth : Nat) : List Char := List.replicate (2 * depth) ' '

/-- The members of an object, one to a line, with the given texts as their values. -/
def printMembers (depth : Nat) : List (String × List Char) → List Char
  | [] => []
  | [(key, value)] => margin depth ++ quote key ++ [':', ' '] ++ value ++ ['\n']
  | (key, value) :: members =>
    margin depth ++ quote key ++ [':', ' '] ++ value ++ [',', '\n'] ++ printMembers depth members

/-- An object at a depth, with the given texts as the values of its members. -/
def printObject (depth : Nat) : List (String × List Char) → List Char
  | [] => ['\x7b', '\x7d']
  | members =>
    ['\x7b', '\n'] ++ printMembers (depth + 1) members ++ margin depth ++ ['\x7d']

end PluginHost.Json
