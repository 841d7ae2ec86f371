import ModalKeys.Text.Escape

namespace ModalKeys

/-- An argument with the part of the line that starts at it. -/
structure Argument where
  value : Text
  tail : Text
  deriving DecidableEq, Repr

namespace Arguments

open Text

/-- The value of a quoted run after its opening mark, and what follows the closing mark. -/
def closing? (mark : Char) : Text → Option (Text × Text)
  | [] => none
  | ['\\'] => none
  | '\\' :: c :: t => (closing? mark t).map fun (v, r) => (c :: v, r)
  | c :: t => if c = mark then some ([], t) else (closing? mark t).map fun (v, r) => (c :: v, r)

/-- A run that opens and closes with the same quote mark; a mark that never closes opens none. -/
def quotedRun? : Text → Option (Text × Text)
  | [] => none
  | c :: t => if isQuoteMark c then closing? c t else none

/-- The rest of a plain run: it ends before white space and before a quoted run. -/
def plainRun : Text → Text × Text
  | [] => ([], [])
  | c :: t =>
    if isBlank c || (quotedRun? (c :: t)).isSome then ([], c :: t)
    else let (v, r) := plainRun t; (c :: v, r)

theorem closing?_length {mark : Char} {t v r : Text} (h : closing? mark t = some (v, r)) :
    r.length < t.length := by
  fun_induction closing? mark t generalizing v with
  | case1 => simp at h
  | case2 => simp at h
  | case3 c t ih =>
    obtain ⟨⟨v', r'⟩, hr, he⟩ := Option.map_eq_some_iff.1 h
    cases he
    have := ih hr
    simp; omega
  | case4 => cases h; simp
  | case5 c t _ _ hc ih =>
    obtain ⟨⟨v', r'⟩, hr, he⟩ := Option.map_eq_some_iff.1 h
    cases he
    have := ih hr
    simp; omega

theorem plainRun_length (t : Text) : (plainRun t).2.length ≤ t.length := by
  induction t with
  | nil => simp [plainRun]
  | cons c t ih =>
    rw [plainRun]
    split
    · exact Nat.le_refl _
    · exact Nat.le_succ_of_le ih

theorem quotedRun?_length {c : Char} {t v r : Text} (h : quotedRun? (c :: t) = some (v, r)) :
    r.length < t.length := by
  rw [quotedRun?] at h
  split at h
  · exact closing?_length h
  · simp at h

/-- One run at the start of a text: a quoted one, or its first character with a plain run. -/
def run (c : Char) (t : Text) : Text × Text :=
  match quotedRun? (c :: t) with
  | some found => found
  | none => (unescape (c :: (plainRun t).1), (plainRun t).2)

theorem run_length (c : Char) (t : Text) : (run c t).2.length ≤ t.length := by
  unfold run
  split
  · next h => exact Nat.le_of_lt (quotedRun?_length h)
  · exact plainRun_length t

/-- The runs up to white space or the end, joined. -/
def word : Text → Text × Text
  | [] => ([], [])
  | c :: t =>
    if isBlank c then ([], c :: t)
    else
      let (w, r) := word (run c t).2
      ((run c t).1 ++ w, r)
termination_by t => t.length
decreasing_by have := run_length c t; simp; omega

theorem word_length (t : Text) : (word t).2.length ≤ t.length := by
  fun_induction word t with
  | case1 => simp
  | case2 => simp
  | case3 c t _ w r hw ih =>
    have := run_length c t
    rw [hw] at ih
    simp at ih ⊢; omega

/-- Splits a line into its arguments. -/
def split : Text → List Argument
  | [] => []
  | c :: t =>
    if isBlank c then split t
    else ⟨(run c t).1 ++ (word (run c t).2).1, c :: t⟩ :: split (word (run c t).2).2
termination_by t => t.length
decreasing_by
  · simp
  · have := run_length c t
    have := word_length (run c t).2
    simp; omega

end Arguments

namespace Text

/-- Arguments stand between white space. A quoted run may hold white space, and runs that touch form
one argument. -/
def arguments (line : Text) : List Argument := Arguments.split line

/-- The line as written from argument `i` on, without trailing white space. -/
def rawFrom (args : List Argument) (i : Nat) : Text :=
  match args[i]? with
  | some a => trimEnd a.tail
  | none => []

end Text

end ModalKeys
