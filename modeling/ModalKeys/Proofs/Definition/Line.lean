import ModalKeys.Definition.Document
import ModalKeys.Definition.Line
import ModalKeys.Proofs.Text.Unmarked

namespace ModalKeys

open Text

/-- A definition that has both forms: names without blanks between them, and a pattern of words
parted by single blanks. -/
structure LineForm where
  names : List Text
  words : List Text
  command : Text
  named : names ≠ [] ∧ ∀ name ∈ names, isModeName name = true
  worded : words ≠ [] ∧ ∀ w ∈ words, w ≠ [] ∧ ∀ c ∈ w, isBlank c = false
  undivided : ['='] ∉ words
  runs : command ≠ []
  trimmed : Trimmed command

namespace LineForm

def modes (f : LineForm) : Text := [','].intercalate f.names

def pattern (f : LineForm) : Text := unwords f.words

/-- The part of the line that follows the pattern. -/
def ending (f : LineForm) : Text := ' ' :: '=' :: ' ' :: f.command

def text (f : LineForm) : Text := f.modes ++ ' ' :: (f.pattern ++ f.ending)

def entry (f : LineForm) : Definition.Entry := ⟨f.pattern, some f.command, [], [f.modes]⟩

def definition (f : LineForm) : Definition := ⟨f.names, f.pattern, [f.command]⟩

end LineForm

section Modes

theorem modeName_characters {mode : Text} (h : isModeName mode = true) :
    mode ≠ [] ∧ ∀ c ∈ mode, c = '-' ∨ (c.isAlphanum || c == '_' || c == '.') = true := by
  unfold isModeName at h
  split at h
  · cases h
  · next c t hm =>
    simp only [Bool.and_eq_true, List.all_eq_true] at h
    obtain ⟨hc, ht⟩ := h
    have hall : ∀ d ∈ c :: t, (d.isAlphanum || d == '_' || d == '.') = true := by
      refine List.forall_mem_cons.2 ⟨by simp [hc], fun d hd => ?_⟩
      rw [ht d hd]
      rfl
    split at hm
    · next hdash =>
      obtain ⟨u, rfl⟩ : ∃ u, mode = '-' :: u := by
        cases mode with
        | nil => cases hdash
        | cons d u => cases hdash; exact ⟨u, rfl⟩
      rw [List.tail_cons] at hm
      subst hm
      exact ⟨List.cons_ne_nil _ _, List.forall_mem_cons.2 ⟨.inl rfl, fun d hd => .inr (hall d hd)⟩⟩
    · subst hm
      exact ⟨List.cons_ne_nil _ _, fun d hd => .inr (hall d hd)⟩

theorem isPlain_of_mem_modeName {mode : Text} (h : isModeName mode = true) {c : Char}
    (hc : c ∈ mode) : Arguments.isPlain c = true ∧ c ≠ ',' := by
  rcases (modeName_characters h).2 c hc with rfl | hn
  · exact ⟨rfl, by decide⟩
  · refine ⟨Arguments.isPlain_of_nameCharacter hn, ?_⟩
    rintro rfl
    cases hn

variable {names : List Text} (h : ∀ name ∈ names, isModeName name = true)

include h

theorem isPlain_of_mem_modes {c : Char} (hc : c ∈ [','].intercalate names) :
    Arguments.isPlain c = true := by
  induction names with
  | nil => cases hc
  | cons name names ih =>
    obtain ⟨hname, hnames⟩ := List.forall_mem_cons.1 h
    cases names with
    | nil =>
      rw [List.intercalate_singleton] at hc
      exact (isPlain_of_mem_modeName hname hc).1
    | cons other names =>
      rw [List.intercalate_cons_cons, List.append_assoc, List.singleton_append] at hc
      rcases List.mem_append.1 hc with hc | hc
      · exact (isPlain_of_mem_modeName hname hc).1
      · rcases List.mem_cons.1 hc with rfl | hc
        · rfl
        · exact ih hnames hc

theorem modes_ne_nil (hne : names ≠ []) : [','].intercalate names ≠ [] := by
  cases names with
  | nil => exact absurd rfl hne
  | cons name names =>
    have hn := (modeName_characters (h name List.mem_cons_self)).1
    cases names with
    | nil => rwa [List.intercalate_singleton]
    | cons other names => simp [List.intercalate_cons_cons, hn]

theorem splitModes_intercalate (hne : names ≠ []) :
    Definition.splitModes ([','].intercalate names) = names := by
  have hs : ([','].intercalate names).splitOn ',' = names :=
    List.splitOn_intercalate ',' (fun name hn hc => (isPlain_of_mem_modeName (h name hn) hc).2 rfl)
      hne
  have ht : names.map trim = names := by
    conv_rhs => rw [← List.map_id names]
    refine List.map_congr_left fun name hn => (trimmed_of_solid fun c hc => ?_).trim_eq
    exact Arguments.isBlank_of_isPlain (isPlain_of_mem_modeName (h name hn) hc).1
  have hf : names.filter (!·.isEmpty) = names :=
    List.filter_eq_self.2 fun name hn => by simpa using (modeName_characters (h name hn)).1
  rw [Definition.splitModes, hs, ht, hf]

end Modes

namespace Definition

theorem cutEquals?_append {as : List Argument} (h : ∀ a ∈ as, a.value ≠ ['=']) {e : Argument}
    (he : e.value = ['=']) (bs : List Argument) : cutEquals? (as ++ e :: bs) = some (as, bs) := by
  induction as with
  | nil => simp [cutEquals?, he]
  | cons a as ih =>
    obtain ⟨ha, has⟩ := List.forall_mem_cons.1 h
    simp [cutEquals?, ha, ih has]

theorem eq_of_cutEquals? {as before after : List Argument}
    (h : cutEquals? as = some (before, after)) :
    ∃ e, as = before ++ e :: after ∧ e.value = ['='] := by
  induction as generalizing before with
  | nil => cases h
  | cons a as ih =>
    rw [cutEquals?] at h
    split at h
    · next ha => cases h; exact ⟨a, rfl, ha⟩
    · obtain ⟨⟨before', after'⟩, hc, he⟩ := Option.map_eq_some_iff.1 h
      cases he
      obtain ⟨e, rfl, hv⟩ := ih hc
      exact ⟨e, rfl, hv⟩

/-- What the parts of a line say. -/
def ofParts (modes : Argument) (pattern command : List Argument) : Definition where
  modes := splitModes modes.value
  source := unwords (pattern.map (·.value))
  commands := if (rawFrom command 0).isEmpty then [] else [rawFrom command 0]

theorem ofLine_eq_ok_iff {line : Text} {modes : Argument} {as : List Argument}
    (h : arguments line = modes :: as) (d : Definition) :
    ofLine line = .ok d ↔
      ∃ pattern command, cutEquals? as = some (pattern, command) ∧
        d = ofParts modes pattern command := by
  unfold ofLine
  rw [h]
  cases as with
  | nil => simp [cutEquals?]
  | cons a as =>
    dsimp only
    cases hc : cutEquals? (a :: as) with
    | none => simp
    | some found =>
      obtain ⟨pattern, command⟩ := found
      constructor
      · rintro ⟨⟩
        exact ⟨pattern, command, rfl, rfl⟩
      · rintro ⟨_, _, ⟨⟩, rfl⟩
        rfl

end Definition

namespace LineForm

open Arguments Definition

variable (f : LineForm)

theorem splitModes_modes : splitModes f.modes = f.names := splitModes_intercalate f.named.2 f.named.1

theorem entry_definition : f.entry.definition = f.definition := by
  have hc : allBlank f.command = false := by
    obtain ⟨c, t, ht⟩ := List.exists_cons_of_ne_nil f.runs
    have hb := f.trimmed.head c (by rw [ht]; rfl)
    rw [ht, allBlank, List.all_cons, hb, Bool.false_and]
  simp [Entry.definition, entry, definition, splitModes_modes, hc]

theorem arguments_text :
    arguments f.text = ⟨f.modes, f.text⟩ :: split (f.pattern ++ f.ending) := by
  have hb : isBlank ' ' = true := rfl
  have hp : ∀ c ∈ f.modes, isPlain c = true := fun c hc => isPlain_of_mem_modes f.named.2 hc
  have hn : f.modes ≠ [] := modes_ne_nil f.named.2 f.named.1
  have hs := spells_plain hp hn _ (parted_cons hb (f.pattern ++ f.ending))
  rwa [split_cons_of_blank hb] at hs

theorem split_ending :
    split f.ending = ⟨['='], '=' :: ' ' :: f.command⟩ :: split f.command := by
  have hb : isBlank ' ' = true := rfl
  have hs := spells_equals _ (parted_cons hb f.command)
  rw [split_cons_of_blank hb] at hs
  rw [ending, split_cons_of_blank hb]
  exact hs

/-- An unmarked pattern comes through a line unchanged. -/
theorem ofLine_text_of_unmarked (hu : Unmarked f.ending f.pattern) :
    ofLine f.text = .ok f.definition := by
  have hp : Parted f.ending := parted_cons rfl _
  obtain ⟨as, has, hv⟩ := split_unwords hp f.worded.2 f.worded.1 hu
  have hfree : ∀ a ∈ as, a.value ≠ ['='] := fun a ha he =>
    f.undivided (by rw [← hv, ← he]; exact List.mem_map_of_mem ha)
  refine (ofLine_eq_ok_iff f.arguments_text _).2 ⟨as, split f.command, ?_, ?_⟩
  · rw [pattern, has, split_ending, cutEquals?_append hfree rfl]
  · have hc : f.command.isEmpty = false := by simpa using f.runs
    rw [ofParts, rawFrom_split f.trimmed, splitModes_modes, hv, hc]
    rfl

theorem pattern_ne_nil : f.pattern ≠ [] :=
  unwords_ne_nil f.worded.1 fun w hw => (f.worded.2 w hw).1

theorem trimmed_line : Trimmed (f.pattern ++ f.ending) := by
  have hp : Trimmed f.pattern :=
    trimmed_unwords fun w hw => ⟨(f.worded.2 w hw).1, trimmed_of_solid (f.worded.2 w hw).2⟩
  have hs : Trimmed ['='] := trimmed_of_solid fun c hc => by rw [List.mem_singleton.1 hc]; rfl
  have he : Trimmed ('=' :: ' ' :: f.command) :=
    hs.append_cons f.trimmed (List.cons_ne_nil _ _) f.runs ' '
  exact hp.append_cons he f.pattern_ne_nil (List.cons_ne_nil _ _) ' '

/-- The argument at which the command begins has all of it for its tail. -/
theorem tail_of_command {b : Argument} {bs : List Argument}
    (hb : b ∈ split (f.pattern ++ f.ending)) {modes : Argument} {ps : List Argument}
    (h : [f.command] = (ofParts modes ps (b :: bs)).commands) : b.tail = f.command := by
  have ht : rawFrom (b :: bs) 0 = b.tail := trimEnd_tail f.trimmed_line hb
  rw [ofParts, ht] at h
  dsimp only at h
  split at h
  · cases h
  · exact (List.cons.inj h).1.symm

/-- A line that is read as its record has a pattern without marks. The arguments of the pattern
are as long together as the pattern, so that no mark can be missing from them. -/
theorem unmarked_of_ofLine_text (h : ofLine f.text = .ok f.definition) :
    Unmarked f.ending f.pattern := by
  obtain ⟨ps, cs, hc, hd⟩ := (ofLine_eq_ok_iff f.arguments_text _).1 h
  obtain ⟨e, hs, he⟩ := eq_of_cutEquals? hc
  have hsource : f.pattern = unwords (ps.map (·.value)) := congrArg Definition.source hd
  cases ps with
  | nil => exact absurd hsource f.pattern_ne_nil
  | cons p ps =>
    cases cs with
    | nil => cases congrArg Definition.commands hd
    | cons b bs =>
      have hcommand : b.tail = f.command :=
        f.tail_of_command (by rw [hs]; simp) (congrArg Definition.commands hd)
      have hline : f.pattern ++ f.ending = (f.pattern ++ [' ', '=']) ++ ' ' :: f.command := by
        simp [ending]
      have hsplit : split ((f.pattern ++ [' ', '=']) ++ ' ' :: f.command) =
          p :: (ps ++ [e] ++ b :: bs) := by
        rw [← hline, hs, List.append_assoc]
        rfl
      have hvalues : unwords ((p :: (ps ++ [e])).map (·.value)) = f.pattern ++ [' ', '='] := by
        rw [← List.cons_append, List.map_append, List.map_singleton, he,
          unwords_concat (by simp), ← hsource]
      exact (unmarked_of_split hsplit hvalues hcommand).of_append

/-- A line says the same as its record exactly when its pattern is unmarked: neither a quote mark
of the pattern opens a run, which can close in the command, nor a backslash escapes. -/
theorem ofLine_text_iff :
    f.entry.definition = f.definition ∧
      (ofLine f.text = .ok f.entry.definition ↔ Unmarked f.ending f.pattern) := by
  refine ⟨f.entry_definition, ?_⟩
  rw [f.entry_definition]
  exact ⟨f.unmarked_of_ofLine_text, f.ofLine_text_of_unmarked⟩

/-- A preset that is quoted because it holds a bracket. -/
def quotedPreset : LineForm where
  names := ["command".toList]
  words := ["O<uri:'http://a>b'>_".toList]
  command := "uri %s".toList
  named := by decide
  worded := by simp [isBlank]
  undivided := by decide
  runs := by decide
  trimmed := ⟨by rintro c ⟨⟩; rfl, by rintro c ⟨⟩; rfl⟩

/-- On a line the preset loses its quote marks, and with them its end. -/
theorem ofLine_text_quotedPreset :
    quotedPreset.text = "command O<uri:'http://a>b'>_ = uri %s".toList ∧
      quotedPreset.entry.definition.source = "O<uri:'http://a>b'>_".toList ∧
      ofLine quotedPreset.text =
        .ok ⟨["command".toList], "O<uri:http://a>b>_".toList, ["uri %s".toList]⟩ ∧
      ofLine quotedPreset.text ≠ .ok quotedPreset.entry.definition := by
  decide +kernel

end LineForm

end ModalKeys
