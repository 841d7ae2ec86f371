import ModalKeys.Text.Basic
import ModalKeys.Text.Printable

namespace ModalKeys.Text

/-- A character that does not stand for itself is written by its code point in hexadecimal. -/
def quotedChar (c : Char) : Text :=
  match c with
  | '"' => ['\\', '"']
  | '\\' => ['\\', '\\']
  | '\n' => ['\\', 'n']
  | '\r' => ['\\', 'r']
  | '\t' => ['\\', 't']
  | '\x00' => ['\\', '0']
  | c =>
    if isPrintable c then [c]
    else ['\\', 'u', Char.ofNat 0x7B] ++ Nat.toDigits 16 c.toNat ++ [Char.ofNat 0x7D]

/-- One line between double quotes, from which the text can be read off. -/
def quoted (t : Text) : String :=
  String.ofList ('"' :: t.flatMap quotedChar ++ ['"'])

/-- A list of quoted texts between brackets. -/
def quotedList (ts : List Text) : String :=
  "[" ++ ", ".intercalate (ts.map quoted) ++ "]"

end ModalKeys.Text
