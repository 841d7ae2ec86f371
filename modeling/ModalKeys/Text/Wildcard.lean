import ModalKeys.Text.Basic

namespace ModalKeys

/-- A member of a bracketed class. -/
inductive CharClass
  | one (c : Char)
  | range (first last : Char)
  deriving DecidableEq, Repr

def CharClass.holds (c : Char) : CharClass → Bool
  | .one d => c == d
  | .range first last => first ≤ c && c ≤ last

/-- `?` is any character, `*` any run, and `[a-z]` and `[!a-z]` are classes; `**` as a whole
component between slashes is any run of components. -/
inductive WildcardToken
  | char (c : Char)
  | anyChar
  | anyRun
  | anyComponents
  | within (classes : List CharClass)
  | except (classes : List CharClass)
  deriving DecidableEq, Repr

/-- Why a text is no wildcard pattern, with the position of the fault. -/
inductive WildcardError
  | tooManyStars (pos : Nat)
  | notAComponent (pos : Nat)
  | badRange (pos : Nat)
  deriving DecidableEq, Repr

def WildcardError.message : WildcardError → String
  | .tooManyStars pos =>
    s!"Pattern syntax error near position {pos}: " ++
      "wildcards are either regular `*` or recursive `**`"
  | .notAComponent pos =>
    s!"Pattern syntax error near position {pos}: " ++
      "recursive wildcards must form a single path component"
  | .badRange pos => s!"Pattern syntax error near position {pos}: invalid range pattern"

namespace WildcardToken

/-- A dash between two members makes a range of them. -/
def classes : Text → List CharClass
  | a :: '-' :: b :: t => .range a b :: classes t
  | a :: t => .one a :: classes t
  | [] => []

/-- The members up to the closing bracket; a bracket in first place is a member. -/
def bracket? : Text → Option (Text × Text)
  | [] => none
  | c :: t => (Text.cutAt? (· == ']') t).map fun (inner, r) => (c :: inner, r)

theorem bracket?_length {t inner r : Text} (h : bracket? t = some (inner, r)) :
    r.length < t.length := by
  cases t with
  | nil => simp [bracket?] at h
  | cons c t =>
    obtain ⟨⟨a, b⟩, hb, he⟩ := Option.map_eq_some_iff.1 h
    cases he
    have := Text.cutAt?_length hb
    simp; omega

/-- Reads the tokens of a pattern. `pos` counts the characters read and `prior` is the last. As the
last component `**` takes all that is left, slashes or not, as `*` does. -/
def read (pos : Nat) (prior : Option Char) : Text → Except WildcardError (List WildcardToken)
  | [] => .ok []
  | '?' :: t => (.anyChar :: ·) <$> read (pos + 1) (some '?') t
  | '*' :: '*' :: '*' :: _ => .error (.tooManyStars (pos + 2))
  | '*' :: '*' :: t =>
    if prior.all (· == '/') then
      match t with
      | [] | ['/'] => .ok [.anyRun]
      | '/' :: t => (.anyComponents :: ·) <$> read (pos + 3) (some '/') t
      | _ => .error (.notAComponent (pos + 2))
    else .error (.notAComponent (pos - 1))
  | '*' :: t => (.anyRun :: ·) <$> read (pos + 1) (some '*') t
  | '[' :: '!' :: t =>
    match h : bracket? t with
    | some (inner, rest) =>
      have := bracket?_length h
      (.except (classes inner) :: ·) <$> read (pos + inner.length + 3) (some ']') rest
    | none => .error (.badRange pos)
  | '[' :: t =>
    match h : bracket? t with
    | some (inner, rest) =>
      have := bracket?_length h
      (.within (classes inner) :: ·) <$> read (pos + inner.length + 2) (some ']') rest
    | none => .error (.badRange pos)
  | c :: t => (.char c :: ·) <$> read (pos + 1) (some c) t
termination_by t => t.length

end WildcardToken

/-- A wildcard pattern that has been read. -/
structure Wildcard where
  tokens : List WildcardToken
  deriving DecidableEq, Repr

namespace Wildcard

def parse (t : Text) : Except WildcardError Wildcard :=
  Wildcard.mk <$> WildcardToken.read 0 none t

/-- The rest of a text after each prefix of it, itself first. -/
def rests : Text → List Text
  | [] => [[]]
  | c :: t => (c :: t) :: rests t

/-- The rests that follow a slash. -/
def restsAfterSlash : Text → List Text
  | [] => []
  | c :: t => if c == '/' then t :: restsAfterSlash t else restsAfterSlash t

/-- Whether the whole text fits. This is the rule, which tries every run at every place. -/
def matchTokens : List WildcardToken → Text → Bool
  | [], t => t.isEmpty
  | .anyRun :: ws, t => (rests t).any (matchTokens ws)
  | .anyComponents :: ws, t => (t :: restsAfterSlash t).any (matchTokens ws)
  | .char d :: ws, c :: t => c == d && matchTokens ws t
  | .anyChar :: ws, _ :: t => matchTokens ws t
  | .within cs :: ws, c :: t => cs.any (CharClass.holds c) && matchTokens ws t
  | .except cs :: ws, c :: t => !cs.any (CharClass.holds c) && matchTokens ws t
  | _ :: _, [] => false

/-- Whether any of the answers from each one on holds. -/
def anyFrom : List Bool → List Bool
  | [] => []
  | b :: bs =>
    let r := anyFrom bs
    (b || r.headD false) :: r

/-- The answers after one character of a class, from those for the rests after it. -/
def afterChar (p : Char → Bool) : Text → List Bool → List Bool
  | c :: t, _ :: bs => (p c && bs.headD false) :: afterChar p t bs
  | _, _ => [false]

/-- The answers for each rest of a text. Every token is tried once at every rest. -/
def answers : List WildcardToken → Text → List Bool
  | [], t => (rests t).map List.isEmpty
  | .anyRun :: ws, t => anyFrom (answers ws t)
  | .anyComponents :: ws, t =>
    let bs := answers ws t
    List.zipWith (· || ·) bs (anyFrom (afterChar (· == '/') t bs))
  | .char d :: ws, t => afterChar (· == d) t (answers ws t)
  | .anyChar :: ws, t => afterChar (fun _ => true) t (answers ws t)
  | .within cs :: ws, t => afterChar (fun c => cs.any (CharClass.holds c)) t (answers ws t)
  | .except cs :: ws, t => afterChar (fun c => !cs.any (CharClass.holds c)) t (answers ws t)

theorem headD_map_rests (f : Text → Bool) (t : Text) : ((rests t).map f).headD false = f t := by
  cases t <;> rfl

theorem anyFrom_map_rests (f : Text → Bool) (t : Text) :
    anyFrom ((rests t).map f) = (rests t).map fun r => (rests r).any f := by
  induction t with
  | nil => simp [rests, anyFrom]
  | cons c t ih => simp only [rests, List.map_cons, anyFrom, ih, headD_map_rests, List.any_cons]

theorem afterChar_map_rests (p : Char → Bool) (f : Text → Bool) (t : Text) :
    afterChar p t ((rests t).map f) = (rests t).map fun r =>
      match r with
      | [] => false
      | c :: r => p c && f r := by
  induction t with
  | nil => rfl
  | cons c t ih => simp only [rests, List.map_cons, afterChar, ih, headD_map_rests]

theorem any_restsAfterSlash (f : Text → Bool) (t : Text) :
    (restsAfterSlash t).any f = (rests t).any fun r =>
      match r with
      | [] => false
      | c :: r => c == '/' && f r := by
  induction t with
  | nil => rfl
  | cons c t ih =>
    rw [restsAfterSlash]
    split <;> simp_all [rests]

theorem answers_eq (ws : List WildcardToken) (t : Text) :
    answers ws t = (rests t).map (matchTokens ws) := by
  induction ws with
  | nil => exact List.map_congr_left fun r _ => (matchTokens.eq_1 r).symm
  | cons w ws ih =>
    cases w with
    | anyRun =>
      rw [answers, ih, anyFrom_map_rests]
      exact List.map_congr_left fun r _ => by rw [matchTokens]
    | anyComponents =>
      simp only [answers, ih, afterChar_map_rests, anyFrom_map_rests, List.zipWith_map]
      rw [List.zipWith_self]
      exact List.map_congr_left fun r _ => by simp [matchTokens, any_restsAfterSlash]
    | char d =>
      rw [answers, ih, afterChar_map_rests]
      exact List.map_congr_left fun r _ => by cases r <;> rfl
    | anyChar =>
      rw [answers, ih, afterChar_map_rests]
      exact List.map_congr_left fun r _ => by cases r <;> simp [matchTokens]
    | within cs =>
      rw [answers, ih, afterChar_map_rests]
      exact List.map_congr_left fun r _ => by cases r <;> rfl
    | except cs =>
      rw [answers, ih, afterChar_map_rests]
      exact List.map_congr_left fun r _ => by cases r <;> rfl

/-- The whole text has to fit the pattern. -/
def fits (w : Wildcard) (t : Text) : Bool := (answers w.tokens t).headD false

theorem fits_eq (w : Wildcard) (t : Text) : w.fits t = matchTokens w.tokens t := by
  rw [fits, answers_eq, headD_map_rests]

end Wildcard

end ModalKeys
