import ModalKeys.Proofs.Definition.Install
import ModalKeys.Session.Handle

namespace ModalKeys

open Text

namespace Definition

/-- Why the definition of a line is refused. -/
def lineRefusal? : Except SyntaxError Definition → Option Refusal
  | .error e => some (.syntactic e)
  | .ok d => d.refusal?

end Definition

namespace Event

/-- Why an event is refused, whatever the session. -/
def refusal? : Event → Option Refusal
  | modmap source target =>
    if (trimBrackets source).isEmpty || (trimBrackets target).isEmpty then
      some (.syntactic (.emptyModmap (trimBrackets source) (trimBrackets target)))
    else none
  | ignoreKey rule =>
    let name := trimClass (fun c => isBracket c || c == ' ') rule
    if name.isEmpty then some (.syntactic (.emptyIgnore rule))
    else
      match Wildcard.parse (modifierToken name) with
      | .ok _ => none
      | .error e => some (.syntactic (.badIgnore rule e))
  | bind line => Definition.lineRefusal? (Definition.ofGlobalLine line)
  | modeBind line => Definition.lineRefusal? (Definition.ofLine line)
  | modeConfig _ name _ | variableSet name _ =>
    if isVariableName name then none else some (.syntactic (.variableName name))
  | _ => none

/-- Why a line is refused, whatever the session. -/
def lineRefusal? (line : Text) : Option Refusal :=
  match parse line with
  | .error e => some (.syntactic e)
  | .ok e => e.refusal?

end Event

namespace Session

/-- Holds when a reply refuses for the reason given and leaves the session alone, or accepts. -/
structure Reply.Answers (reply : Reply) (s : Session) (why : Option Refusal) : Prop where
  reason : reply.refusal = why
  kept : why ≠ none → reply.session = s

namespace Reply.Answers

variable (s : Session)

theorem accepted (s' : Session) : (Reply.accepted s').Answers s none :=
  ⟨rfl, fun h => absurd rfl h⟩

theorem refused (r : Refusal) : (Reply.refused s r).Answers s (some r) := ⟨rfl, fun _ => rfl⟩

theorem addModmap (source target : Text) :
    (s.addModmap source target).Answers s (Event.modmap source target).refusal? := by
  unfold Session.addModmap Keyboard.addModmap Event.refusal?
  dsimp only
  by_cases h : ((trimBrackets source).isEmpty || (trimBrackets target).isEmpty) = true
  · rw [if_pos h, if_pos h]
    exact refused s _
  · rw [if_neg h, if_neg h]
    exact accepted s _

theorem addIgnore (rule : Text) : (s.addIgnore rule).Answers s (Event.ignoreKey rule).refusal? := by
  unfold Session.addIgnore Keyboard.addIgnore Event.refusal?
  dsimp only
  by_cases h : (trimClass (fun c => isBracket c || c == ' ') rule).isEmpty = true
  · rw [if_pos h, if_pos h]
    exact refused s _
  · rw [if_neg h, if_neg h]
    cases Wildcard.parse (modifierToken (trimClass (fun c => isBracket c || c == ' ') rule)) with
    | ok w => exact accepted s _
    | error e => exact refused s _

theorem define (d : Except SyntaxError Definition) :
    (s.define d).Answers s (Definition.lineRefusal? d) := by
  cases d with
  | error e => exact refused s _
  | ok d =>
    change Answers ⟨s.withRegistry (d.apply s.keymap.registry).registry, (d.apply _).refusal⟩ s
      d.refusal?
    rcases d.apply_cases s.keymap.registry with ⟨e, hd, ha⟩ | ⟨hd, ha⟩
    · rw [hd, ha]
      exact refused s e
    · rw [hd, ha]
      exact accepted s _

theorem withVariable (name : Text) (next : Session) :
    (s.withVariable name next).Answers s
      (if isVariableName name then none else some (.syntactic (.variableName name))) := by
  unfold Session.withVariable checkVariableName
  by_cases h : isVariableName name = true
  · rw [if_pos h, if_pos h]
    exact accepted s next
  · rw [if_neg h, if_neg h]
    exact refused s _

/-- Every event is answered, once it has a result, as it is in any session. -/
theorem handle {e : Event} {reply : Reply} (h : s.handle e = some reply) :
    reply.Answers s e.refusal? := by
  have accepts {x : Option Session} (he : x.map Reply.accepted = some reply) :
      reply.Answers s none := by
    obtain ⟨s', -, rfl⟩ := Option.map_eq_some_iff.1 he
    exact accepted s s'
  cases e with
  | keyPress | keyRelease | setLine | inject | append | backspace | delete | stripWord | submit
  | moveCursor | historyPrev | historyNext | historySearch | startCompletion => exact accepts h
  | clearLine | stopCompletion | builtins | modeChanged => cases h; exact accepted s _
  | modmap source target => cases h; exact addModmap s source target
  | ignoreKey rule => cases h; exact addIgnore s rule
  | bind line => cases h; exact define s _
  | modeBind line => cases h; exact define s _
  | modeConfig mode name value => cases h; exact withVariable s name _
  | variableSet name value => cases h; exact withVariable s name _

theorem handleLine {line : Text} {reply : Reply} (h : s.handleLine line = some reply) :
    reply.Answers s (Event.lineRefusal? line) := by
  unfold Session.handleLine at h
  unfold Event.lineRefusal?
  cases hp : Event.parse line with
  | error e =>
    rw [hp] at h
    cases h
    exact refused s _
  | ok e =>
    rw [hp] at h
    exact handle s h

end Reply.Answers

/-- An event that is refused is refused at once. -/
theorem handle_of_refusal? {e : Event} {r : Refusal} (h : e.refusal? = some r) (s : Session) :
    ∃ reply, s.handle e = some reply := by
  cases e with
  | modmap | ignoreKey | bind | modeBind | modeConfig | variableSet => exact ⟨_, rfl⟩
  | _ => cases h

theorem handleLine_of_refusal? {line : Text} {r : Refusal} (h : Event.lineRefusal? line = some r)
    (s : Session) : s.handleLine line = some (.refused s r) := by
  have hreply : ∃ reply, s.handleLine line = some reply := by
    unfold Event.lineRefusal? at h
    unfold handleLine
    cases hp : Event.parse line with
    | error e => exact ⟨_, rfl⟩
    | ok e =>
      rw [hp] at h
      exact handle_of_refusal? h s
  obtain ⟨⟨after, refusal⟩, hr⟩ := hreply
  have ha := Reply.Answers.handleLine s hr
  have hrefusal : refusal = some r := ha.reason.trans h
  have hsession : after = s := ha.kept (by simp [h])
  rw [hr, hrefusal, hsession]
  rfl

/-- A line that is refused changes nothing, and every session refuses it for the same reason. -/
theorem refused_unchanged {s : Session} {line : Text} {reply : Reply} {r : Refusal}
    (h : s.handleLine line = some reply) (hr : reply.refusal = some r) :
    reply.session = s ∧ ∀ other : Session, other.handleLine line = some (.refused other r) := by
  have ha := Reply.Answers.handleLine s h
  have hl : Event.lineRefusal? line = some r := ha.reason.symm.trans hr
  exact ⟨ha.kept (by simp [hl]), handleLine_of_refusal? hl⟩

/-- A bad name behind a good one: the table of the good one is not changed either. -/
theorem refused_unchanged_modes :
    ∃ reply, (start .initial .empty).handleLine "MODE_BIND insert,_x a = b".toList = some reply ∧
      reply.refusal = some (.modeName ⟨"_x".toList⟩) ∧ reply.session = start .initial .empty := by
  have hl : Event.lineRefusal? "MODE_BIND insert,_x a = b".toList =
      some (.modeName ⟨"_x".toList⟩) := by decide +kernel
  have h := handleLine_of_refusal? hl (start .initial .empty)
  exact ⟨_, h, rfl, (refused_unchanged h rfl).1⟩

/-- A session after lines, whether they are refused or not. -/
def handleLines (s : Session) (lines : List Text) : Option Session :=
  lines.foldlM (fun s line => (s.handleLine line).map (·.session)) s

/-- Lines that are refused can be left out. -/
theorem handleLines_filter (s : Session) (lines : List Text) :
    s.handleLines (lines.filter fun line => (Event.lineRefusal? line).isNone) =
      s.handleLines lines := by
  induction lines generalizing s with
  | nil => rfl
  | cons line lines ih =>
    cases hl : Event.lineRefusal? line with
    | none =>
      rw [List.filter_cons_of_pos (by simp [hl])]
      simp only [handleLines, List.foldlM_cons]
      exact congrArg (Option.bind _) (funext fun next => ih next)
    | some r =>
      have hs : s.handleLines (line :: lines) = s.handleLines lines := by
        simp only [handleLines, List.foldlM_cons, handleLine_of_refusal? hl s]
        rfl
      rw [List.filter_cons_of_neg (by simp [hl]), hs]
      exact ih s

end Session

end ModalKeys
