/-!
# Texts cut to size

Messages are put together in buffers of a fixed size that hold UTF-8 and end at the first null
character. What does not fit is cut off, between two characters.
-/

namespace ScriptBridge.Text

/-- The characters at the beginning of a text that fit into so many bytes. -/
def fitting : Nat → List Char → List Char
  | _, [] => []
  | room, c :: rest => if c.utf8Size ≤ room then c :: fitting (room - c.utf8Size) rest else []

/-- A text in a buffer of so many bytes. -/
def clip (room : Nat) (s : String) : String :=
  String.ofList (fitting room (s.toList.takeWhile (· != '\x00')))

end ScriptBridge.Text
