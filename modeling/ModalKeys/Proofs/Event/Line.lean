import ModalKeys.Event
import ModalKeys.Proofs.Text.Arguments

namespace ModalKeys

open Text

namespace CursorTarget

/-- How a target is written; a position is a decimal number. -/
def text : CursorTarget → Text
  | .left => ['-']
  | .right => ['+']
  | .at (.ofNat n) => Nat.toDigits 10 n
  | .at (.negSucc n) => '-' :: Nat.toDigits 10 (n + 1)

/-- Holds when a position has 64 bits. -/
def Fits : CursorTarget → Prop
  | .at n => -9223372036854775808 ≤ n ∧ n < 9223372036854775808
  | _ => True

theorem isDigit_of_mem_toDigits {n : Nat} {c : Char} (h : c ∈ Nat.toDigits 10 n) :
    c.isDigit = true := Nat.isDigit_of_mem_toDigits (by decide) (by decide) h

theorem digits?_toDigits (n : Nat) : digits? (Nat.toDigits 10 n) = some n := by
  have hall : (Nat.toDigits 10 n).all Char.isDigit = true :=
    List.all_eq_true.2 fun c hc => isDigit_of_mem_toDigits hc
  have hvalue : (Nat.toDigits 10 n).foldl (fun n c => 10 * n + (c.toNat - 48)) 0 = n :=
    Nat.ofDigitChars_ten_toDigits
  unfold digits?
  split
  · next h => exact absurd h Nat.toDigits_ne_nil
  · rw [if_pos hall, hvalue]

theorem plain_text (t : CursorTarget) : t.text ≠ [] ∧ ∀ c ∈ t.text, Arguments.isPlain c = true := by
  have hd (n : Nat) : ∀ c ∈ Nat.toDigits 10 n, Arguments.isPlain c = true := by
    intro c hc
    refine Arguments.isPlain_of_nameCharacter ?_
    simp [Char.isAlphanum, isDigit_of_mem_toDigits hc]
  have hs {c : Char} (hc : Arguments.isPlain c = true) : ∀ d ∈ [c], Arguments.isPlain d = true :=
    fun d hd => (List.mem_singleton.1 hd).symm ▸ hc
  match t with
  | .left => exact ⟨List.cons_ne_nil _ _, hs rfl⟩
  | .right => exact ⟨List.cons_ne_nil _ _, hs rfl⟩
  | .at (.ofNat n) => exact ⟨Nat.toDigits_ne_nil, hd n⟩
  | .at (.negSucc n) =>
    refine ⟨List.cons_ne_nil _ _, fun c hc => ?_⟩
    rcases List.mem_cons.1 hc with rfl | hc
    · decide
    · exact hd (n + 1) c hc

theorem position?_text {n : Int} (h : Fits (.at n)) : position? (text (.at n)) = some n := by
  have hf : (some n).filter (fun n => -9223372036854775808 ≤ n && n < 9223372036854775808) =
      some n := by
    have hd : (decide (-9223372036854775808 ≤ n) && decide (n < 9223372036854775808)) = true := by
      simpa [Fits] using h
    rw [Option.filter_some, if_pos hd]
  cases n with
  | negSucc n =>
    have hv : (digits? (Nat.toDigits 10 (n + 1))).map (fun n => -(n : Int)) =
        some (.negSucc n) := by
      rw [digits?_toDigits]
      rfl
    rw [text, position?, hv, hf]
  | ofNat n =>
    have hv : (digits? (Nat.toDigits 10 n)).map Int.ofNat = some (.ofNat n) := by
      rw [digits?_toDigits]
      rfl
    -- A digit is no sign, so the number is read as one without a sign.
    have hsign : ∀ c t, Nat.toDigits 10 n = c :: t → c ≠ '-' ∧ c ≠ '+' := by
      intro c t ht
      have hc : c.isDigit = true := isDigit_of_mem_toDigits (ht ▸ List.mem_cons_self)
      constructor <;> (rintro rfl; cases hc)
    rw [text, position?, hv, hf]
    · exact fun t ht => (hsign '-' t ht).1 rfl
    · exact fun t ht => (hsign '+' t ht).2 rfl

theorem parse_text {t : CursorTarget} (h : t.Fits) : parse t.text = .ok t := by
  obtain ⟨hne, hp⟩ := t.plain_text
  have htrim : trim t.text = t.text :=
    (trimmed_of_solid fun c hc => Arguments.isBlank_of_isPlain (hp c hc)).trim_eq
  have hs (sign : Char) (hsign : sign.isDigit = false) (n : Int) : text (.at n) ≠ [sign] := by
    match n with
    | .ofNat n =>
      intro he
      have hc : sign.isDigit = true := isDigit_of_mem_toDigits (he ▸ List.mem_singleton_self sign)
      rw [hsign] at hc
      cases hc
    | .negSucc n =>
      intro he
      exact Nat.toDigits_ne_nil (List.cons.inj he).2
  unfold parse
  rw [htrim]
  cases t with
  | left => rfl
  | right => rfl
  | «at» n => rw [if_neg (hs '-' rfl n), if_neg (hs '+' rfl n), position?_text h]

end CursorTarget

namespace Event

open Arguments

/-- The fields of an event as they are written. Names, keys and the like stand between single
quotes; a text that the rest of a line is taken for stands as it is. -/
def fields : Event → List Text
  | keyPress modifiers key | keyRelease modifiers key => [singleQuoted modifiers, singleQuoted key]
  | setLine t | inject t | append t | historySearch t | ignoreKey t | bind t | modeBind t => [t]
  | stripWord seps => (seps.map singleQuoted).toList
  | moveCursor target => [target.text]
  | builtins names => names.map singleQuoted
  | modmap source target => [singleQuoted source, singleQuoted target]
  | modeConfig mode var value => [singleQuoted mode, singleQuoted var, ['='], singleQuoted value]
  | modeChanged mode => [singleQuoted mode]
  | variableSet name value => [singleQuoted name, value]
  | backspace | delete | submit | clearLine | historyPrev | historyNext | startCompletion
  | stopCompletion => []

/-- An event in writing: the name, then the fields, parted by blanks. -/
def line (e : Event) : Text := unwords (e.name.toList :: e.fields)

/-- Holds when the fields of an event can be told from what stands around them in a line. -/
def Writable : Event → Prop
  | setLine t | inject t | append t | historySearch t | ignoreKey t | bind t | modeBind t => Trimmed t
  | variableSet _ value => Trimmed value
  | builtins names => ∀ n ∈ names, n ≠ [] ∧ ∀ c ∈ n, isBlank c = false
  | moveCursor target => target.Fits
  | _ => True

section Name

variable {name : Text} (hne : name ≠ []) (hb : ∀ c ∈ name, isBlank c = false)

include hb in
theorem cutName_of_solid : cutName name = (name, []) := by
  unfold cutName
  rw [(trimmed_of_solid hb).trim_eq, cutAt?_eq_none_iff.2 hb]

include hne hb in
/-- The name of a line is what stands before its first blank. -/
theorem cutName_append (rest : Text) :
    cutName (name ++ ' ' :: rest) = (name, trimStart (trimEnd rest)) := by
  have hs : (name ++ ' ' :: rest).dropWhile isBlank = name ++ ' ' :: rest := by
    refine dropWhile_of_head fun c hc => hb c ?_
    rw [List.head?_append_of_ne_nil _ hne] at hc
    exact List.mem_of_head? hc
  have hn : dropEndWhile isBlank name = name := (trimmed_of_solid hb).trimEnd_eq
  have hblank : dropEndWhile isBlank [' '] = [] := rfl
  have ht : trim (name ++ ' ' :: rest) =
      if (trimEnd rest).isEmpty then name else name ++ ' ' :: trimEnd rest := by
    rw [trim, trimClass, hs, dropEndWhile_append, ← List.singleton_append, dropEndWhile_append,
      hblank, hn]
    change (if (if (trimEnd rest).isEmpty then [] else [' '] ++ trimEnd rest).isEmpty then name
      else name ++ (if (trimEnd rest).isEmpty then [] else [' '] ++ trimEnd rest)) = _
    split <;> rfl
  unfold cutName
  rw [ht]
  by_cases he : (trimEnd rest).isEmpty = true
  · rw [if_pos he, cutAt?_eq_none_iff.2 hb, List.isEmpty_iff.1 he]
    rfl
  · rw [if_neg he, cutAt?_append hb (by rfl)]

end Name

theorem cutName_trimEnd (line : Text) : cutName (trimEnd line) = cutName line := by
  unfold cutName
  rw [trim_trimEnd]

theorem solid_name (e : Event) : e.name.toList ≠ [] ∧ ∀ c ∈ e.name.toList, isBlank c = false := by
  have hall : e.name.toList.isEmpty = false ∧ e.name.toList.all (!isBlank ·) = true := by
    cases e <;> (rw [name]; decide)
  refine ⟨List.isEmpty_eq_false_iff.1 hall.1, fun c hc => ?_⟩
  simpa using List.all_eq_true.1 hall.2 c hc

theorem cutName_line (e : Event) :
    cutName e.line = (e.name.toList, trimStart (trimEnd (unwords e.fields))) := by
  obtain ⟨hne, hb⟩ := e.solid_name
  unfold line
  cases e.fields with
  | nil =>
    rw [unwords_singleton, cutName_of_solid hb]
    rfl
  | cons field fields => rw [unwords_cons_cons, cutName_append hne hb]

section Fields

theorem trimmed_singleQuoted_fields (ts : List Text) : Trimmed (unwords (ts.map singleQuoted)) := by
  refine trimmed_unwords fun t ht => ?_
  obtain ⟨u, -, rfl⟩ := List.mem_map.1 ht
  exact trimmed_singleQuoted u

theorem keyArguments_fields (name modifiers key : Text) :
    keyArguments name (unwords [singleQuoted modifiers, singleQuoted key]) =
      .ok (modifiers, key) := by
  have hv : (arguments (unwords [singleQuoted modifiers, singleQuoted key])).map (·.value) =
      [modifiers, key] := values_singleQuoted [modifiers, key]
  rw [keyArguments, hv]

theorem readStripWord_fields (seps : Option Text) :
    readStripWord (unwords (seps.map singleQuoted).toList) = .ok (stripWord seps) := by
  cases seps with
  | none =>
    unfold readStripWord
    rw [Option.map_none, Option.toList_none, arguments_unwords_nil]
  | some seps =>
    unfold readStripWord
    rw [Option.map_some, Option.toList_some, arguments_unwords_cons (spells_singleQuoted seps),
      arguments_unwords_nil]

theorem readMoveCursor_fields {target : CursorTarget} (h : target.Fits) :
    readMoveCursor (unwords [target.text]) = .ok (moveCursor target) := by
  obtain ⟨hne, hp⟩ := target.plain_text
  unfold readMoveCursor
  rw [arguments_unwords_cons (spells_plain hp hne), arguments_unwords_nil]
  dsimp only
  rw [CursorTarget.parse_text h]
  rfl

/-- A built-in is read as words, and a name is a single one. -/
theorem builtins_fields {names : List Text} (h : ∀ n ∈ names, n ≠ [] ∧ ∀ c ∈ n, isBlank c = false) :
    ((arguments (unwords (names.map singleQuoted))).flatMap fun a => words a.value) = names := by
  have hw : names.flatMap words = names := by
    induction names with
    | nil => rfl
    | cons n names ih =>
      obtain ⟨hne, hb⟩ := h n List.mem_cons_self
      rw [List.flatMap_cons, words_of_solid hne hb, ih fun m hm => h m (List.mem_cons_of_mem n hm),
        List.singleton_append]
  rw [← List.flatMap_map, values_singleQuoted, hw]

theorem readModmap_fields (source target : Text) :
    readModmap (unwords [singleQuoted source, singleQuoted target]) =
      .ok (modmap source target) := by
  unfold readModmap
  rw [arguments_unwords_cons (spells_singleQuoted source),
    arguments_unwords_cons (spells_singleQuoted target), arguments_unwords_nil]

theorem readModeConfig_fields (mode var value : Text) :
    readModeConfig (unwords [singleQuoted mode, singleQuoted var, ['='], singleQuoted value]) =
      .ok (modeConfig mode var value) := by
  unfold readModeConfig
  rw [arguments_unwords_cons (spells_singleQuoted mode),
    arguments_unwords_cons (spells_singleQuoted var), arguments_unwords_cons spells_equals,
    arguments_unwords_cons (spells_singleQuoted value), arguments_unwords_nil]
  dsimp only
  rw [if_pos rfl]

theorem modeChanged_fields (mode : Text) :
    ((arguments (unwords [singleQuoted mode])).head?.map (·.value)).getD [] = mode := by
  rw [arguments_unwords_cons (spells_singleQuoted mode)]
  rfl

/-- The value is the rest of the line, so it need not be there at all. -/
theorem readVariableSet_fields {written name value : Text} (hs : Spells written name)
    (hw : written ≠ [] ∧ Trimmed written) (hv : Trimmed value) :
    readVariableSet (trimStart (trimEnd (unwords [written, value]))) =
      .ok (variableSet name value) := by
  by_cases hnil : value = []
  · have hb : isBlank ' ' = true := rfl
    have hr : trimStart (trimEnd (unwords [written, value])) = unwords [written] := by
      rw [hnil, unwords_cons_cons, unwords_singleton, unwords_singleton, trimEnd_concat_of_blank hb]
      exact hw.2.trimStart_trimEnd_eq
    rw [hr, readVariableSet, arguments_unwords_cons hs, arguments_unwords_nil, hnil]
    rfl
  · have ht : Trimmed (unwords [written, value]) := by
      refine trimmed_unwords fun t ht => ?_
      rcases List.mem_pair.1 ht with rfl | rfl
      · exact hw
      · exact ⟨hnil, hv⟩
    rw [ht.trimStart_trimEnd_eq, readVariableSet, arguments_unwords_cons hs, unwords_singleton]
    dsimp only
    rw [arguments, rawFrom_split hv]

end Fields

theorem trimmed_fields {e : Event} (h : e.Writable)
    (hv : ∀ name value, e ≠ variableSet name value) : Trimmed (unwords e.fields) := by
  cases e with
  | variableSet name value => exact absurd rfl (hv name value)
  | setLine t | inject t | append t | historySearch t | ignoreKey t | bind t | modeBind t =>
    rwa [fields, unwords_singleton]
  | moveCursor target =>
    rw [fields, unwords_singleton]
    exact trimmed_of_solid fun c hc => isBlank_of_isPlain (target.plain_text.2 c hc)
  | keyPress modifiers key | keyRelease modifiers key =>
    exact trimmed_singleQuoted_fields [modifiers, key]
  | stripWord seps =>
    cases seps with
    | none => exact trimmed_singleQuoted_fields []
    | some seps => exact trimmed_singleQuoted_fields [seps]
  | builtins names => exact trimmed_singleQuoted_fields names
  | modmap source target => exact trimmed_singleQuoted_fields [source, target]
  | modeChanged mode => exact trimmed_singleQuoted_fields [mode]
  | modeConfig mode var value =>
    refine trimmed_unwords fun t ht => ?_
    simp only [fields, List.mem_cons, List.not_mem_nil, or_false] at ht
    rcases ht with rfl | rfl | rfl | rfl
    · exact trimmed_singleQuoted mode
    · exact trimmed_singleQuoted var
    · exact ⟨List.cons_ne_nil _ _, by rintro c ⟨⟩; rfl, by rintro c ⟨⟩; rfl⟩
    · exact trimmed_singleQuoted value
  | backspace | delete | submit | clearLine | historyPrev | historyNext | startCompletion
  | stopCompletion => exact trimmed_singleQuoted_fields []

/-- An event that is written as a line is read back as itself. -/
theorem parse_line {e : Event} (h : e.Writable) : parse e.line = .ok e := by
  unfold parse
  rw [cutName_line]
  dsimp only
  rw [String.ofList_toList]
  by_cases hv : ∃ name value, e = variableSet name value
  · obtain ⟨name, value, rfl⟩ := hv
    exact readVariableSet_fields (spells_singleQuoted name) (trimmed_singleQuoted name) h
  rw [(trimmed_fields h fun name value he => hv ⟨name, value, he⟩).trimStart_trimEnd_eq]
  cases e with
  | variableSet name value => exact absurd ⟨name, value, rfl⟩ hv
  | keyPress modifiers key | keyRelease modifiers key =>
    exact congrArg (Functor.map _) (keyArguments_fields _ modifiers key)
  | setLine t => exact congrArg (Except.ok <| setLine ·) (unwords_singleton t)
  | inject t => exact congrArg (Except.ok <| inject ·) (unwords_singleton t)
  | append t => exact congrArg (Except.ok <| append ·) (unwords_singleton t)
  | historySearch t => exact congrArg (Except.ok <| historySearch ·) (unwords_singleton t)
  | ignoreKey t => exact congrArg (Except.ok <| ignoreKey ·) (unwords_singleton t)
  | bind t => exact congrArg (Except.ok <| bind ·) (unwords_singleton t)
  | modeBind t => exact congrArg (Except.ok <| modeBind ·) (unwords_singleton t)
  | stripWord seps => exact readStripWord_fields seps
  | moveCursor target => exact readMoveCursor_fields h
  | builtins names => exact congrArg (Except.ok <| builtins ·) (builtins_fields h)
  | modmap source target => exact readModmap_fields source target
  | modeConfig mode var value => exact readModeConfig_fields mode var value
  | modeChanged mode => exact congrArg (Except.ok <| modeChanged ·) (modeChanged_fields mode)
  | backspace | delete | submit | clearLine | historyPrev | historyNext | startCompletion
  | stopCompletion => rfl

/-- A name with quotes, a backslash and a blank, and a value that opens a quote. -/
theorem parse_line_quotes :
    Trimmed "\"a = b".toList ∧
      parse "VARIABLE_SET 'it\\'s \\\\ no' \"a = b".toList =
        .ok (.variableSet "it's \\ no".toList "\"a = b".toList) :=
  have hv : Trimmed "\"a = b".toList := ⟨by rintro c ⟨⟩; rfl, by rintro c ⟨⟩; rfl⟩
  ⟨hv, parse_line (e := .variableSet "it's \\ no".toList "\"a = b".toList) hv⟩

end Event

end ModalKeys
