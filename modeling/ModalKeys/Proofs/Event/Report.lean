import ModalKeys.Effect
import ModalKeys.Proofs.Event.Line
import ModalKeys.Variables

namespace ModalKeys

open Text

theorem isPlain_of_isVariableName {name : Text} (h : isVariableName name = true) :
    name ≠ [] ∧ ∀ c ∈ name, Arguments.isPlain c = true := by
  simp only [isVariableName, Bool.and_eq_true, Bool.not_eq_true', List.isEmpty_eq_false_iff,
    List.all_eq_true] at h
  exact ⟨h.1, fun c hc => Arguments.isPlain_of_nameCharacter (h.2 c hc)⟩

theorem ne_equals_of_isVariableName {name : Text} (h : isVariableName name = true) {c : Char}
    (hc : c ∈ name) : c ≠ '=' := by
  have hall := List.all_eq_true.1 (Bool.and_eq_true_iff.1 h).2 c hc
  rintro rfl
  cases hall

namespace Effect

/-- The assignment that a host makes of a command that is sent to it. -/
def hostAssignment? : Effect → Option (Text × Text)
  | send command => (assignment? command).filter fun a => isVariableName a.1
  | set _ _ => none

theorem trimmed_of_assignment? {command name value : Text}
    (h : assignment? command = some (name, value)) : Trimmed value := by
  unfold assignment? at h
  split at h
  · cases h
  · split at h
    · cases h
    · split at h
      · cases h
      · cases h
        exact trimmed_trim _

/-- An assignment is no `event` command, so it is echoed as one. -/
theorem echo?_of_assignment? {command name value : Text}
    (h : assignment? command = some (name, value)) :
    (send command).echo? = some (trimEnd ("VARIABLE_SET ".toList ++ name ++ ' ' :: value)) := by
  have he : "event ".toList.isPrefixOf? command = none := by
    cases hs : "set ".toList.isPrefixOf? command with
    | none =>
      rw [assignment?, hs] at h
      cases h
    | some body =>
      rw [← List.append_eq_of_isPrefixOf?_eq_some hs]
      rfl
  unfold echo?
  dsimp only
  rw [he, h]
  rfl

/-- How a write of a variable is put for the host: what follows the sign of equality is the value,
but for a blank. -/
theorem exists_line_set (name value : Text) :
    ∃ tail, (set name value).line = "set ".toList ++ (name ++ [' '] ++ '=' :: tail) ∧
      trim tail = trim value := by
  by_cases hv : value.isEmpty = true
  · refine ⟨[], ?_, by rw [List.isEmpty_iff.1 hv]⟩
    rw [line, if_pos hv, List.append_assoc, List.append_assoc]
    rfl
  · refine ⟨' ' :: value, ?_, trim_cons_of_blank rfl value⟩
    rw [line, if_neg hv]
    simp only [List.append_assoc]
    rfl

/-- A write of a variable is an assignment. Only white space around the value is lost. -/
theorem assignment?_line {name : Text} (hn : isVariableName name = true) (value : Text) :
    assignment? (set name value).line = some (name, trim value) := by
  obtain ⟨hne, hp⟩ := isPlain_of_isVariableName hn
  obtain ⟨tail, hline, htail⟩ := exists_line_set name value
  have hset : "set ".toList.isPrefixOf? (set name value).line =
      some (name ++ [' '] ++ '=' :: tail) := List.isPrefixOf?_eq_some_iff_append_eq.2 hline.symm
  -- A name has no sign of equality, so the first one is the one behind the name.
  have hcut : cutAt? (· == '=') (name ++ [' '] ++ '=' :: tail) = some (name ++ [' '], tail) := by
    refine cutAt?_append (fun c hc => beq_eq_false_iff_ne.2 ?_) rfl tail
    rcases List.mem_append.1 hc with hc | hc
    · exact ne_equals_of_isVariableName hn hc
    · rw [List.mem_singleton.1 hc]
      decide
  have hname : trim (name ++ [' ']) = name := by
    rw [trim_append_blanks name (List.forall_mem_singleton.2 rfl)]
    exact (trimmed_of_solid fun c hc => Arguments.isBlank_of_isPlain (hp c hc)).trim_eq
  unfold assignment?
  rw [hset]
  dsimp only
  rw [hcut]
  dsimp only
  rw [hname, htail, if_neg (by simpa using hne)]

end Effect

namespace Event

/-- The line by which a host reports an assignment says what it is in its first word. -/
theorem cutName_report (name value : Text) :
    cutName (trimEnd ("VARIABLE_SET ".toList ++ name ++ ' ' :: value)) =
      ("VARIABLE_SET".toList, trimStart (trimEnd (name ++ ' ' :: value))) := by
  have hline : "VARIABLE_SET ".toList ++ name ++ ' ' :: value =
      "VARIABLE_SET".toList ++ ' ' :: (name ++ ' ' :: value) := by
    have hs : "VARIABLE_SET ".toList = "VARIABLE_SET".toList ++ [' '] := by decide
    rw [hs]
    simp only [List.append_assoc, List.cons_append, List.nil_append]
  obtain ⟨hevent, hsolid⟩ := solid_name (.variableSet name value)
  rw [cutName_trimEnd, hline]
  exact cutName_append hevent hsolid _

/-- The line by which a host reports an assignment is read as a report of it. -/
theorem parse_assignment {name value : Text} (hn : isVariableName name = true)
    (hv : Trimmed value) :
    parse (trimEnd ("VARIABLE_SET ".toList ++ name ++ ' ' :: value)) =
      .ok (.variableSet name value) := by
  obtain ⟨hne, hp⟩ := isPlain_of_isVariableName hn
  have hname : Trimmed name := trimmed_of_solid fun c hc => Arguments.isBlank_of_isPlain (hp c hc)
  have hwords : name ++ ' ' :: value = unwords [name, value] := by
    rw [unwords_cons_cons, unwords_singleton]
  unfold parse
  rw [cutName_report, hwords]
  exact readVariableSet_fields (Arguments.spells_plain hp hne) ⟨hne, hname⟩ hv

end Event

namespace Effect

/-- The line of a write of a variable, sent to the host as a command, comes back as a report of that
variable. Whatever the value is, it is reported without the white space around it. -/
theorem set_reported {name : Text} (hn : isVariableName name = true) (value : Text) :
    (send (set name value).line).echo?.map Event.parse =
      some (.ok (.variableSet name (trim value))) := by
  rw [echo?_of_assignment? (assignment?_line hn value), Option.map_some,
    Event.parse_assignment hn (trimmed_trim value)]

/-- Quotes, a sign of equality and backslashes of the value come back; the blanks and the line break
around it do not. -/
theorem set_reported_quote : isVariableName "a.b".toList = true ∧
    (send (set "a.b".toList " 'x = \\\" y'z \n".toList).line).echo?.map Event.parse =
      some (.ok (.variableSet "a.b".toList "'x = \\\" y'z".toList)) :=
  ⟨by decide, set_reported (by decide) _⟩

end Effect

end ModalKeys
