import ScriptBridge.Text.Invisible

/-!
# Quoted strings of diagnostic texts

A string in a diagnostic stands between quotation marks. Quotation marks and backslashes are
escaped, and so is every character that is not shown as itself: the common control characters by a
letter, the others by their code point in braces.
-/

namespace ScriptBridge.Text

/-- How a character stands inside a diagnostic string. -/
def debugEscape (c : Char) : List Char :=
  if c = '\x00' then ['\\', '0']
  else if c = '\t' then ['\\', 't']
  else if c = '\r' then ['\\', 'r']
  else if c = '\n' then ['\\', 'n']
  else if c = '"' then ['\\', '"']
  else if c = '\\' then ['\\', '\\']
  else if isInvisible c then ['\\', 'u', '\x7b'] ++ Nat.toDigits 16 c.toNat ++ ['\x7d']
  else [c]

/-- The diagnostic form of a string. -/
def debugQuoted (s : String) : String :=
  String.ofList ('"' :: s.toList.flatMap debugEscape ++ ['"'])

end ScriptBridge.Text
