import ModalKeys.Proofs.Template.Substitution
import ModalKeys.Proofs.Text.Arguments

namespace ModalKeys.Template

open Text Arguments

/-- A part of a command: a word without marks and white space, or what has been captured. -/
inductive Piece
  | word (w : Text) (plain : ∀ c ∈ w, isPlain c = true) (ne_nil : w ≠ [])
  | captured (args : List Text)

namespace Piece

/-- The piece as it stands in the command. -/
def written : Piece → Text
  | word w _ _ => w
  | captured args => expand args "%r".toList

/-- The argument that the piece stands for. -/
def value : Piece → Text
  | word w _ _ => w
  | captured args => unwords args

end Piece

theorem expand_raw (args : List Text) : expand args "%r".toList = rawQuoted args := by
  have h := expand_quoted args []
  rwa [expand_nil, List.append_nil] at h

theorem spells_rawQuoted (args : List Text) : Spells (rawQuoted args) (unwords args) :=
  fun _ hr => split_quoted (by decide) (by decide) (unwords args) hr

theorem Piece.spells (p : Piece) : Spells p.written p.value := by
  cases p with
  | word w plain ne_nil => exact spells_plain plain ne_nil
  | captured args =>
    rw [written, expand_raw]
    exact spells_rawQuoted args

/-- Captures that are put raw into a command, with any words around them, come back as they were
typed: the command has one argument for each piece, and that of a capture is its texts joined by
blanks. -/
theorem values_of_pieces (ps : List Piece) :
    (arguments (unwords (ps.map Piece.written))).map (·.value) = ps.map Piece.value :=
  values_unwords Piece.spells ps

example :
    (arguments (unwords ["js".toList, expand ["'".toList, "a\\".toList] "%r".toList,
      expand [] "%r".toList])).map (·.value) = ["js".toList, "' a\\".toList, []] := by
  decide +kernel

end ModalKeys.Template
