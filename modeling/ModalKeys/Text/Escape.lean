import ModalKeys.Text.Basic

namespace ModalKeys.Text

/-- Puts a backslash before each of the given characters. -/
def escape (marks : List Char) : Text → Text
  | [] => []
  | c :: t => if c ∈ marks then '\\' :: c :: escape marks t else c :: escape marks t

/-- Verbatim markup for display: `@[` and `]@` around the text, none around no text. -/
def verbatim (t : Text) : Text :=
  if t.isEmpty then [] else "@[".toList ++ escape ['\\', '@'] t ++ "]@".toList

/-- Every `\x` stands for `x`; a backslash that ends the text stands for itself. -/
def unescape : Text → Text
  | '\\' :: c :: t => c :: unescape t
  | c :: t => c :: unescape t
  | [] => []

def isQuoteMark (c : Char) : Bool := c == '"' || c == '\''

/-- At least two characters, the first and the last the same quote mark. -/
def isQuoted : Text → Bool
  | [] => false
  | c :: t => isQuoteMark c && t.getLast? == some c

/-- Takes off the surrounding quote marks, if any, and resolves the escapes. -/
def unquote (t : Text) : Text :=
  if isQuoted t then unescape t.tail.dropLast else unescape t

end ModalKeys.Text
