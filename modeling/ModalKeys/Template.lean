import ModalKeys.Text.Escape

namespace ModalKeys.Template

open Text

/-- The arguments as one single-quoted argument. -/
def rawQuoted (args : List Text) : Text :=
  '\'' :: escape ['\\', '\'', '"', '@'] (unwords args) ++ ['\'']

def decimal (digits : Text) : Nat :=
  digits.foldl (fun n c => 10 * n + (c.toNat - '0'.toNat)) 0

/-- What `%` with a digit run stands for: itself where there is no such argument. -/
def positional (args : List Text) (digits : Text) : Text :=
  match decimal digits with
  | 0 => '%' :: digits
  | n + 1 => args[n]?.getD ('%' :: digits)

/-- Puts all arguments for `%s`, all of them quoted for `%r`, and the `N`th from one for `%N`, in
one pass, so text that comes from an argument is never read as a token. -/
def expand (args : List Text) : Text → Text
  | [] => []
  | '%' :: 's' :: t => unwords args ++ expand args t
  | '%' :: 'r' :: t => rawQuoted args ++ expand args t
  | '%' :: t => positional args (t.takeWhile Char.isDigit) ++ expand args (t.dropWhile Char.isDigit)
  | c :: t => c :: expand args t
termination_by t => t.length
decreasing_by
  all_goals
    have := length_dropWhile_le Char.isDigit t
    simp only [List.length_cons]
    omega

end ModalKeys.Template
