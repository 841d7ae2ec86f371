import ModalKeys.Proofs.Pattern.Groups
import ModalKeys.Proofs.Text.Escape
import ModalKeys.Proofs.Text.Trim

namespace ModalKeys

open Text

/-- The name of a modifier is a capital, then letters, digits, dashes and underscores. -/
def isModifierName : Text → Bool
  | [] => false
  | c :: t => c.isUpper && t.all isModifierChar

def bracketed (name : Text) : Text := '<' :: name ++ ['>']

/-- A group in writing. -/
def groupText (names : List Text) (literal : Text) (trigger : Trigger) : Text :=
  names.flatMap bracketed ++ literal ++ trigger.flag?.toList

/-- What a group says. Its literal opens nothing and does not end in a flag that the group lacks. -/
structure GroupForm where
  names : List Text
  literal : Text
  trigger : Trigger
  named : ∀ n ∈ names, isModifierName n = true
  plain : ∀ c ∈ literal, c ≠ '<' ∧ c ≠ '*'
  unflagged : trigger = .typed → literal.getLast? ≠ some '_' ∧ literal.getLast? ≠ some '!'
  written : groupText names literal trigger ≠ []

/-- A part of a prompt, with a quote mark that does not occur in it. -/
structure QuotedPart where
  text : Text
  mark : Char
  quotes : isQuoteMark mark = true
  free : mark ∉ text

/-- A prompt that is written with both of its parts quoted. -/
structure PromptForm where
  label : QuotedPart
  isCommand : Bool
  preset : QuotedPart

/-- A prompt stands before each group but the first. Only the last group can be live. -/
structure PatternForm where
  first : GroupForm
  later : List (PromptForm × GroupForm)
  waits : ∀ g ∈ (first :: later.map (·.2)).dropLast, g.trigger ≠ .live

namespace GroupForm

def text (g : GroupForm) : Text := groupText g.names g.literal g.trigger

def segment (g : GroupForm) (index : Nat) (more : Bool) : Segment :=
  ⟨g.trigger, TextSet.ofList (g.names.map bracketed), g.literal, index, more⟩

end GroupForm

/-- The part between its quote marks, with its backslashes doubled. -/
def QuotedPart.quoted (q : QuotedPart) : Text := q.mark :: escape ['\\'] q.text ++ [q.mark]

namespace PromptForm

def text (p : PromptForm) : Text :=
  '<' :: p.label.quoted ++ (if p.isCommand then '!' else ':') :: p.preset.quoted ++ ['>']

/-- The label is shown with a colon at its end, unless it is empty. -/
def shownLabel (p : PromptForm) : Text :=
  if p.label.text.isEmpty || p.label.text.getLast? = some ':' then p.label.text
  else p.label.text ++ [':']

def prompt (p : PromptForm) : Prompt := ⟨p.shownLabel, p.isCommand, p.preset.text⟩

end PromptForm

namespace PatternForm

def text (f : PatternForm) : Text := f.first.text ++ f.later.flatMap fun (p, g) => p.text ++ g.text

def groups (f : PatternForm) : List GroupForm := f.first :: f.later.map (·.2)

/-- The segments are numbered from zero, and all but the last have more to come. -/
def pattern (f : PatternForm) : Pattern where
  segments := f.groups.mapIdx fun i g => g.segment i (i + 1 < f.groups.length)
  prompts := f.later.map (·.1.prompt)

end PatternForm

section Modifiers

theorem isModifierChar_of_isUpper {c : Char} (h : c.isUpper = true) : isModifierChar c = true := by
  have ha : c.isAlphanum = true := by
    change (c.isUpper || c.isLower || c.isDigit) = true
    rw [h]
    rfl
  rw [isModifierChar, ha]
  rfl

theorem isModifierChar_of_isModifierName {name : Text} (h : isModifierName name = true) {c : Char}
    (hc : c ∈ name) : isModifierChar c = true := by
  cases name with
  | nil => cases hc
  | cons d t =>
    obtain ⟨hd, ht⟩ := Bool.and_eq_true_iff.1 h
    rcases List.mem_cons.1 hc with rfl | hc
    · exact isModifierChar_of_isUpper hd
    · exact List.all_eq_true.1 ht c hc

/-- No character of a modifier's name means anything to the reader of a prompt. -/
theorem plain_of_isModifierChar {c : Char} (h : isModifierChar c = true) :
    Pattern.isLabelStop c = false ∧ isQuoteMark c = false ∧ c ≠ '<' ∧ c ≠ '*' := by
  have hne : ∀ d ∈ [':', '!', '>', '"', '\'', '<', '*'], c ≠ d := by
    have hall : [':', '!', '>', '"', '\'', '<', '*'].all (!isModifierChar ·) = true := by decide
    rintro d hd rfl
    have hc := List.all_eq_true.1 hall c hd
    rw [h] at hc
    cases hc
  simp only [List.mem_cons, List.not_mem_nil, or_false, forall_eq_or_imp, forall_eq] at hne
  obtain ⟨hcolon, hbang, hclose, hdouble, hsingle, hopen, hstar⟩ := hne
  exact ⟨by simp [Pattern.isLabelStop, hcolon, hbang, hclose],
    by simp [isQuoteMark, hdouble, hsingle], hopen, hstar⟩

theorem leadingModifier?_bracketed {name : Text} (h : isModifierName name = true) (t : Text) :
    leadingModifier? (bracketed name ++ t) = some (bracketed name, t) := by
  cases name with
  | nil => cases h
  | cons c name =>
    obtain ⟨hc, hn⟩ := Bool.and_eq_true_iff.1 h
    have hall := List.all_eq_true.1 hn
    have htake : (name ++ '>' :: t).takeWhile isModifierChar = name := by
      rw [List.takeWhile_append_of_pos hall]
      exact List.append_nil name
    have hdrop : (name ++ '>' :: t).dropWhile isModifierChar = '>' :: t := by
      rw [List.dropWhile_append_of_pos hall]
      rfl
    have hs : bracketed (c :: name) ++ t = '<' :: c :: (name ++ '>' :: t) := by simp [bracketed]
    rw [hs, leadingModifier?, if_pos hc, hdrop]
    simp [htake, bracketed]

/-- The modifiers in front of plain text are read off one by one. -/
theorem leadingModifiers_bracketed {names : List Text} (hn : ∀ n ∈ names, isModifierName n = true)
    {t : Text} (ht : ∀ c ∈ t, c ≠ '<') :
    leadingModifiers (names.flatMap bracketed ++ t) = (names.map bracketed, t) := by
  induction names with
  | nil => exact Pattern.leadingModifiers_of_plain ht
  | cons n names ih =>
    have hi := ih fun m hm => hn m (List.mem_cons_of_mem n hm)
    rw [List.flatMap_cons, List.append_assoc, leadingModifiers_of_some
      (leadingModifier?_bracketed (hn n List.mem_cons_self) _), hi]
    rfl

end Modifiers

namespace Pattern

/-- A bracketed modifier is no prompt, as nothing but the closing bracket ends its name. -/
theorem prompt?_bracketed {name : Text} (h : isModifierName name = true) (t : Text) :
    prompt? (name ++ '>' :: t) = none := by
  have hp := fun c hc => plain_of_isModifierChar (isModifierChar_of_isModifierName h (c := c) hc)
  have hq : quotedField? (name ++ '>' :: t) = none := by
    cases name with
    | nil => cases h
    | cons c name => simp [quotedField?, (hp c List.mem_cons_self).2.1]
  have hdrop : (name ++ '>' :: t).dropWhile (!isLabelStop ·) = '>' :: t := by
    rw [List.dropWhile_append_of_pos fun c hc => by rw [(hp c hc).1]; rfl]
    rfl
  rw [prompt?, fields, hq, hdrop]
  rfl

theorem split_bracketed {name : Text} (h : isModifierName name = true) (t : Text) :
    split (bracketed name ++ t) = (bracketed name ++ (split t).1, (split t).2) := by
  have hb : bracketed name ++ t = '<' :: (name ++ ['>'] ++ t) := rfl
  have hne : ∀ c ∈ name ++ ['>'], c ≠ '<' := by
    intro c hc
    rcases List.mem_append.1 hc with hc | hc
    · exact (plain_of_isModifierChar (isModifierChar_of_isModifierName h hc)).2.2.1
    · rw [List.mem_singleton.1 hc]
      decide
  have hp : prompt? (name ++ ['>'] ++ t) = none := by
    rw [List.append_assoc]
    exact prompt?_bracketed h t
  rw [hb, split_of_no_prompt hp, split_append hne]
  rfl

theorem split_names {names : List Text} (hn : ∀ n ∈ names, isModifierName n = true) (t : Text) :
    split (names.flatMap bracketed ++ t) =
      (names.flatMap bracketed ++ (split t).1, (split t).2) := by
  induction names with
  | nil => rfl
  | cons n names ih =>
    have hi := ih fun m hm => hn m (List.mem_cons_of_mem n hm)
    rw [List.flatMap_cons, List.append_assoc, split_bracketed (hn n List.mem_cons_self), hi,
      List.append_assoc]

end Pattern

theorem Trigger.eq_typed_of_no_flag {t : Trigger} (h : t.flag? = none) : t = .typed := by
  cases t with
  | typed => rfl
  | live => cases h
  | entered => cases h
  | argument => cases h

theorem Trigger.eq_live_of_flag {t : Trigger} (h : t.flag? = some '*') : t = .live := by
  cases t with
  | live => rfl
  | typed => cases h
  | entered => cases h
  | argument => cases h

theorem Trigger.eq_live {t : Trigger} (hexec : t.onExec = false)
    (hcap : t.captures = true) : t = .live := by
  cases t with
  | live => rfl
  | typed => cases hcap
  | entered => cases hexec
  | argument => cases hexec

namespace GroupForm

variable (g : GroupForm)

/-- A group without its flag. -/
def body : Text := g.names.flatMap bracketed ++ g.literal

theorem text_eq : g.text = g.body ++ g.trigger.flag?.toList := rfl

theorem split_text (t : Text) :
    Pattern.split (g.text ++ t) = (g.text ++ (Pattern.split t).1, (Pattern.split t).2) := by
  have hne : ∀ c ∈ g.literal ++ g.trigger.flag?.toList, c ≠ '<' := by
    intro c hc
    rcases List.mem_append.1 hc with hc | hc
    · exact (g.plain c hc).1
    · cases ht : g.trigger <;> rw [ht] at hc <;> simp [Trigger.flag?] at hc <;> rw [hc] <;> decide
  have ht : g.text ++ t =
      g.names.flatMap bracketed ++ (g.literal ++ g.trigger.flag?.toList ++ t) := by
    simp [text_eq, body]
  rw [ht, Pattern.split_names g.named, Pattern.split_append hne]
  simp [text_eq, body]

/-- Without its flag a group ends in a bracket or as its literal does. -/
theorem last_body {c : Char} (hc : g.body.getLast? = some c) :
    c = '>' ∨ g.literal.getLast? = some c := by
  rw [body, List.getLast?_append] at hc
  cases hl : g.literal.getLast? with
  | some d =>
    rw [hl] at hc
    exact .inr hc
  | none =>
    rw [hl, Option.none_or] at hc
    left
    rcases List.eq_nil_or_concat g.names with hn | ⟨names, n, hn⟩
    · rw [hn] at hc
      cases hc
    · have hlast : (bracketed n).getLast? = some '>' := List.getLast?_concat
      rw [hn, List.concat_eq_append, List.flatMap_append, List.flatMap_singleton,
        List.getLast?_append, hlast] at hc
      exact (Option.some.inj hc).symm

theorem wildcard_body : '*' ∉ g.body := by
  intro h
  rcases List.mem_append.1 h with h | h
  · obtain ⟨n, hn, hm⟩ := List.mem_flatMap.1 h
    have hm : '*' ∈ n := by simpa [bracketed] using hm
    exact (plain_of_isModifierChar (isModifierChar_of_isModifierName (g.named n hn) hm)).2.2.2 rfl
  · exact (g.plain _ h).2 rfl

theorem cutFlag_text : Pattern.cutFlag g.text = (g.trigger, g.body) := by
  rw [text_eq]
  cases hf : g.trigger.flag? with
  | some c => exact Pattern.cutFlag_concat hf g.body
  | none =>
    have ht := Trigger.eq_typed_of_no_flag hf
    have hlast : ∀ c, g.body.getLast? = some c → c ≠ '*' ∧ c ≠ '!' ∧ c ≠ '_' := by
      intro c hc
      refine ⟨fun he => g.wildcard_body (he ▸ List.mem_of_getLast? hc), ?_⟩
      obtain ⟨hu, hb⟩ := g.unflagged ht
      rcases g.last_body hc with rfl | hl
      · decide
      · rw [hl] at hu hb
        exact ⟨fun he => hb (congrArg some he), fun he => hu (congrArg some he)⟩
    have hnil : g.body ++ Option.toList none = g.body := List.append_nil g.body
    rw [hnil, ht]
    exact Pattern.cutFlag_of_no_flag hlast

theorem segment_text (index : Nat) (more : Bool) :
    Pattern.segment g.text index more = g.segment index more := by
  rw [Pattern.segment, cutFlag_text]
  dsimp only
  rw [body, leadingModifiers_bracketed g.named fun c hc => (g.plain c hc).1]
  rfl

/-- A `*` can only be the flag of a live group. -/
theorem wildcard_text (h : g.trigger ≠ .live) : '*' ∉ g.text := by
  rw [text_eq, List.mem_append, not_or]
  exact ⟨g.wildcard_body, fun hm => h (Trigger.eq_live_of_flag (Option.mem_toList.1 hm))⟩

theorem wildcard_dropLast : '*' ∉ g.text.dropLast := by
  rw [text_eq]
  cases g.trigger.flag? with
  | some c =>
    have hd : (g.body ++ (some c).toList).dropLast = g.body := List.dropLast_concat
    rw [hd]
    exact g.wildcard_body
  | none =>
    intro hm
    exact g.wildcard_body ((List.append_nil g.body) ▸ List.dropLast_subset _ hm)

end GroupForm

namespace QuotedPart

variable (q : QuotedPart)

theorem quotedField?_quoted (t : Text) :
    Pattern.quotedField? (q.quoted ++ t) = some (q.quoted, t) := by
  have hslash : '\\' ≠ q.mark := by
    intro h
    have hq := q.quotes
    rw [← h] at hq
    cases hq
  have hfree : ∀ c ∈ escape ['\\'] q.text, (c == q.mark) = false := by
    intro c hc
    rw [beq_eq_false_iff_ne]
    rcases mem_of_mem_escape hc with rfl | hc
    · exact hslash
    · rintro rfl
      exact q.free hc
  have hq : q.quoted ++ t = q.mark :: (escape ['\\'] q.text ++ q.mark :: t) := by
    simp [quoted]
  rw [hq, Pattern.quotedField?, if_pos q.quotes, cutAt?_append hfree (beq_self_eq_true q.mark)]
  rfl

/-- A part between quote marks is read as such before anything else is tried. -/
theorem fields_quoted (stop : Char → Bool) (t : Text) :
    ∃ others, Pattern.fields stop (q.quoted ++ t) = (q.quoted, t) :: others := by
  rw [Pattern.fields, q.quotedField?_quoted]
  exact ⟨_, rfl⟩

end QuotedPart

namespace PromptForm

variable (p : PromptForm)

theorem preset?_text (label : Text) (t : Text) :
    Pattern.preset? label p.isCommand (p.preset.quoted ++ '>' :: t) =
      some (⟨Pattern.labelOf label, p.isCommand, p.preset.text⟩, t) := by
  obtain ⟨others, hf⟩ := p.preset.fields_quoted (· == '>') ('>' :: t)
  rw [Pattern.preset?, hf, List.findSome?_cons]
  dsimp only
  rw [QuotedPart.quoted, unquote_quoted p.preset.quotes]
  rfl

theorem labelOf_quoted : Pattern.labelOf p.label.quoted = p.shownLabel := by
  rw [Pattern.labelOf, QuotedPart.quoted, unquote_quoted p.label.quotes]
  rfl

theorem split_text (t : Text) :
    Pattern.split (p.text ++ t) = ([], (p.prompt, (Pattern.split t).1) :: (Pattern.split t).2) := by
  have ht : p.text ++ t = '<' :: (p.label.quoted ++
      (if p.isCommand then '!' else ':') :: (p.preset.quoted ++ '>' :: t)) := by
    simp [text]
  have hp : Pattern.prompt? (p.label.quoted ++
      (if p.isCommand then '!' else ':') :: (p.preset.quoted ++ '>' :: t)) = some (p.prompt, t) := by
    obtain ⟨others, hf⟩ := p.label.fields_quoted Pattern.isLabelStop
      ((if p.isCommand then '!' else ':') :: (p.preset.quoted ++ '>' :: t))
    have hpreset := p.preset?_text p.label.quoted t
    rw [labelOf_quoted] at hpreset
    rw [Pattern.prompt?, hf, List.findSome?_cons]
    cases hc : p.isCommand <;> rw [hc] at hpreset <;> simp [hpreset, prompt, hc]
  rw [ht, Pattern.split_of_prompt? hp]

end PromptForm

namespace PatternForm

variable (f : PatternForm)

theorem split_later (later : List (PromptForm × GroupForm)) :
    Pattern.split (later.flatMap fun (p, g) => p.text ++ g.text) =
      ([], later.map fun (p, g) => (p.prompt, g.text)) := by
  induction later with
  | nil => rw [List.flatMap_nil, Pattern.split.eq_def]; rfl
  | cons entry later ih =>
    obtain ⟨p, g⟩ := entry
    rw [List.flatMap_cons, List.append_assoc, p.split_text, g.split_text, ih, List.append_nil]
    rfl

theorem split_text :
    Pattern.split f.text = (f.first.text, f.later.map fun (p, g) => (p.prompt, g.text)) := by
  rw [text, f.first.split_text, split_later, List.append_nil]

theorem firstError?_text (prompted : Bool) :
    Pattern.firstError? f.text prompted 0 (f.groups.map GroupForm.text) = none := by
  refine Pattern.firstError?_eq_none ?_ ?_ ?_ 0
  · intro t ht
    obtain ⟨g, -, rfl⟩ := List.mem_map.1 ht
    exact g.written
  · intro t ht
    rw [← List.map_dropLast] at ht
    obtain ⟨g, hg, rfl⟩ := List.mem_map.1 ht
    exact g.wildcard_text (f.waits g hg)
  · intro t ht
    obtain ⟨g, -, rfl⟩ := List.mem_map.1 (List.mem_of_getLast? ht)
    exact g.wildcard_dropLast

theorem number_text (groups : List GroupForm) :
    Pattern.number 0 (groups.map GroupForm.text) =
      groups.mapIdx fun i g => g.segment i (i + 1 < groups.length) := by
  refine List.ext_getElem? fun i => ?_
  rw [Pattern.number_getElem?, List.getElem?_mapIdx, List.getElem?_map, Option.map_map,
    List.length_map, Nat.zero_add]
  refine Option.map_congr fun g _ => ?_
  exact g.segment_text i _

/-- A written pattern compiles to the segments and the prompts that it was written from. -/
theorem compile_written : Pattern.compile f.text = .ok f.pattern := by
  have hne : f.text.isEmpty = false := by
    have hw : f.first.text ≠ [] := f.first.written
    simp [text, hw]
  have hgroups : f.first.text :: (f.later.map fun (p, g) => (p.prompt, g.text)).map (·.2) =
      f.groups.map GroupForm.text := by
    simp [groups]
  have hprompts : (f.later.map fun (p, g) => (p.prompt, g.text)).map (·.1) =
      f.later.map (·.1.prompt) := by
    simp
  unfold Pattern.compile
  rw [hne, if_neg Bool.false_ne_true, split_text]
  dsimp only
  rw [hgroups, firstError?_text, number_text, hprompts]
  rfl

/-- A label with all that ends a label, and a preset that ends in a backslash and a bracket. -/
theorem compile_written_delimiters :
    Pattern.compile "<Ctrl><Alt-1>a!<'b!c>d:e'!\"\\\\>\">:>*".toList = .ok
      ⟨[⟨.entered, TextSet.ofList ["<Alt-1>".toList, "<Ctrl>".toList], ['a'], 0, true⟩,
        ⟨.live, ∅, ":>".toList, 1, false⟩],
      [⟨"b!c>d:e:".toList, true, "\\>".toList⟩]⟩ :=
  compile_written ⟨⟨["Ctrl".toList, "Alt-1".toList], ['a'], .entered, by decide, by simp,
      by decide, by decide⟩,
    [(⟨⟨"b!c>d:e".toList, '\'', rfl, by decide⟩, true, ⟨"\\>".toList, '"', rfl, by decide⟩⟩,
      ⟨[], ":>".toList, .live, by decide, by simp, by decide, by decide⟩)], by decide⟩

end PatternForm

end ModalKeys
