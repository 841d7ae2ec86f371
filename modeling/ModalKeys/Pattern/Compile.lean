import ModalKeys.Pattern.Basic
import ModalKeys.Text.Escape

namespace ModalKeys.Pattern

open Text

/-- A run between two equal quote marks, the marks included. Nothing is escaped in it. -/
def quotedField? : Text → Option (Text × Text)
  | [] => none
  | c :: t =>
    if isQuoteMark c then (cutAt? (· == c) t).map fun (a, b) => (c :: a ++ [c], b) else none

/-- The ways to read a field: as a quoted run, then as the run up to a stop character. -/
def fields (stop : Char → Bool) (t : Text) : List (Text × Text) :=
  (quotedField? t).toList ++ [(t.takeWhile (!stop ·), t.dropWhile (!stop ·))]

/-- A label that is not empty ends in a colon. -/
def labelOf (field : Text) : Text :=
  let label := unquote field
  if label.isEmpty || label.getLast? = some ':' then label else label ++ [':']

/-- Reads the preset up to the closing bracket. -/
def preset? (label : Text) (isCommand : Bool) (t : Text) : Option (Prompt × Text) :=
  (fields (· == '>') t).findSome? fun (field, rest) =>
    match rest with
    | '>' :: rest => some (⟨labelOf label, isCommand, unquote field⟩, rest)
    | _ => none

def isLabelStop (c : Char) : Bool := c == ':' || c == '!' || c == '>'

/-- Reads a prompt after its opening bracket. -/
def prompt? (t : Text) : Option (Prompt × Text) :=
  (fields isLabelStop t).findSome? fun (label, rest) =>
    match rest with
    | ':' :: rest => preset? label false rest
    | '!' :: rest => preset? label true rest
    | _ => none

theorem quotedField?_append {t field rest : Text} (h : quotedField? t = some (field, rest)) :
    t = field ++ rest := by
  cases t with
  | nil => simp [quotedField?] at h
  | cons c t =>
    rw [quotedField?] at h
    split at h
    · obtain ⟨⟨a, b⟩, hb, he⟩ := Option.map_eq_some_iff.1 h
      cases he
      have := cutAt?_eq hb
      obtain ⟨d, hd, hp⟩ := this
      simp only [beq_iff_eq] at hp
      subst hp
      simp [hd]
    · simp at h

theorem fields_append {stop : Char → Bool} {t field rest : Text}
    (h : (field, rest) ∈ fields stop t) : t = field ++ rest := by
  rcases List.mem_append.1 h with h | h
  · exact quotedField?_append (Option.mem_toList.1 h)
  · simp only [List.mem_singleton, Prod.mk.injEq] at h
    rw [h.1, h.2, List.takeWhile_append_dropWhile]

theorem preset?_length {label t rest : Text} {isCommand : Bool} {p : Prompt}
    (h : preset? label isCommand t = some (p, rest)) : rest.length < t.length := by
  obtain ⟨⟨field, r⟩, hm, hr⟩ := List.exists_of_findSome?_eq_some h
  have := fields_append hm
  dsimp only at hr
  split at hr
  · cases hr
    simp_all
    omega
  · simp at hr

theorem prompt?_length {t rest : Text} {p : Prompt} (h : prompt? t = some (p, rest)) :
    rest.length < t.length := by
  obtain ⟨⟨label, r⟩, hm, hr⟩ := List.exists_of_findSome?_eq_some h
  have := fields_append hm
  dsimp only at hr
  split at hr
  · have := preset?_length hr
    simp_all
    omega
  · have := preset?_length hr
    simp_all
    omega
  · simp at hr

/-- Splits a pattern into its first group and the prompts, each with the group after it. -/
def split : Text → Text × List (Prompt × Text)
  | [] => ([], [])
  | c :: t =>
    match h : (if c = '<' then prompt? t else none) with
    | some (prompt, rest) =>
      have : rest.length < t.length := by
        split at h
        · exact prompt?_length h
        · simp at h
      ([], (prompt, (split rest).1) :: (split rest).2)
    | none => (c :: (split t).1, (split t).2)
termination_by t => t.length

/-- The flag of a group, and the group without it. -/
def cutFlag (group : Text) : Trigger × Text :=
  match group.getLast? with
  | none => (.typed, group)
  | some c =>
    match Trigger.ofFlag c with
    | .typed => (.typed, group)
    | trigger => (trigger, group.dropLast)

def segment (group : Text) (index : Nat) (more : Bool) : Segment :=
  let (trigger, body) := cutFlag group
  let (tokens, literal) := leadingModifiers body
  ⟨trigger, TextSet.ofList tokens, literal, index, more⟩

/-- Segments numbered from `index`, with more to come after all but the last. -/
def number (index : Nat) : List Text → List Segment
  | [] => []
  | [group] => [segment group index false]
  | group :: groups => segment group index true :: number (index + 1) groups

/-- The fault of a group: a `*` that does not end the pattern, or, beside a prompt, no text. -/
def groupError? (pattern : Text) (index : Nat) (prompted : Bool) (group : Text) (last : Bool) :
    Option PatternError :=
  if '*' ∈ (if last then group.dropLast else group) then some (.wildcardNotTerminal pattern)
  else if prompted && group.isEmpty then some (.emptySegment pattern index)
  else none

/-- The fault of the leftmost group that has one. -/
def firstError? (pattern : Text) (prompted : Bool) (index : Nat) : List Text → Option PatternError
  | [] => none
  | group :: groups =>
    (groupError? pattern index prompted group groups.isEmpty).or
      (firstError? pattern prompted (index + 1) groups)

/-- Compiles a run of keystroke groups with a prompt between each two. A prompt is `<label:preset>`
or `<label!preset>`, and either part may be quoted. -/
def compile (pattern : Text) : Except PatternError Pattern :=
  if pattern.isEmpty then .error .blank
  else
    let (first, later) := split pattern
    let groups := first :: later.map (·.2)
    match firstError? pattern (!later.isEmpty) 0 groups with
    | some e => .error e
    | none => .ok ⟨number 0 groups, later.map (·.1)⟩

end ModalKeys.Pattern
