import ModalKeys.Text.Alphanumeric
import ModalKeys.Text.Escape
import ModalKeys.Text.SortedSet

namespace ModalKeys

/-- How far repeated requests have gone: filling in what the hints share, then listing them, then
taking the keyword as it is. -/
inductive Level
  | off
  | once
  | list
  | complete
  deriving DecidableEq, Repr

def Level.raised : Level → Level
  | .off => .once
  | .once => .list
  | .list | .complete => .complete

/-- Whether hints are listed at a level. -/
def Level.lists : Level → Bool
  | .off | .once => false
  | .list | .complete => true

/-- The keyword to complete: `@name` for a variable, and `isSet` where it stands after `set`. -/
structure Partial where
  word : Text
  isSet : Bool
  deriving DecidableEq, Repr

namespace Partial

open Text

def isWordChar (c : Char) : Bool := isAlphanumeric c || c == '_'

/-- The keyword that ends a text. -/
def atEnd? (left : Text) : Option Partial :=
  let before := dropEndWhile isWordChar left
  let word := left.drop before.length
  let trimmed := trimEnd before
  if word.isEmpty then none
  else if before.getLast? = some '@' then some ⟨'@' :: word, false⟩
  else if trimmed.length < before.length && "set".toList.isSuffixOf trimmed then
    some ⟨'@' :: word, true⟩
  else some ⟨word, false⟩

/-- The keyword that ends at a position of the line. -/
def at? (line : Text) (cursor : Nat) : Option Partial := atEnd? (line.take cursor)

/-- What to insert after the keyword to make it a hint, and go on. -/
def finish (p : Partial) (hint : Text) : Text :=
  hint.drop p.word.length ++ (if p.isSet then " = ".toList else [' '])

end Partial

/-- What a request inserts: nothing, the rest of a hint, or more of what the hints share. -/
inductive CompletionStep
  | nothing
  | finish (text : Text)
  | extend (text : Text)
  deriving DecidableEq, Repr

/-- The longest text that two texts begin with. -/
def commonPrefix : Text → Text → Text
  | a :: s, b :: t => if a = b then a :: commonPrefix s t else []
  | _, _ => []

def commonPrefixAll : List Text → Text
  | [] => []
  | t :: ts => ts.foldl commonPrefix t

/-- The candidates are the host's command names and `@name` for each variable that has come up. -/
structure Completion where
  candidates : TextSet
  level : Level

namespace Completion

open Text

def empty : Completion := ⟨∅, .off⟩

def addBuiltins (c : Completion) (names : List Text) : Completion :=
  { c with candidates := c.candidates.insertAll (names.filter (!·.isEmpty)) }

def addVariable (c : Completion) (name : Text) : Completion :=
  { c with candidates := c.candidates.insert ('@' :: name) }

/-- The candidates that begin with a word, in order. -/
def hints (c : Completion) (word : Text) : List Text :=
  c.candidates.toList.filter (word.isPrefixOf ·)

def stepFor (level : Level) (p : Partial) (hints : List Text) : CompletionStep :=
  match hints with
  | [] => .nothing
  | [hint] => .finish (p.finish hint)
  | _ =>
    if level = .complete && hints.contains p.word then .finish (p.finish p.word)
    else .extend ((commonPrefixAll hints).drop p.word.length)

/-- Raises the level and works out what to insert. -/
def advance (c : Completion) (p : Partial) : CompletionStep × Completion :=
  let level := c.level.raised
  (stepFor level p (c.hints p.word), { c with level })

def hintMarkup (word hint : Text) : Text :=
  "<span @hint_style>".toList ++ escape ['@'] (hint.take word.length) ++ "</span>".toList ++
    hint.drop word.length

/-- The hints for display, none as the empty text. -/
def list (c : Completion) (word : Text) : Text :=
  match c.hints word with
  | [] => []
  | hints => "<span> ".toList ++ unwords (hints.map (hintMarkup word)) ++ " </span>".toList

def stop (c : Completion) : Completion := { c with level := .off }

end Completion

end ModalKeys
