import ModalKeys.Pattern.Compile
import ModalKeys.Proofs.Text.Trim

namespace ModalKeys

open Text

/-- A run between two equal quote marks, with no such mark inside. -/
def IsQuotedRun (field : Text) : Prop :=
  ∃ mark inner, isQuoteMark mark = true ∧ mark ∉ inner ∧ field = mark :: inner ++ [mark]

/-- A part of a prompt in writing: a quoted run, or a run without the characters that end it. -/
def IsField (stop : Char → Bool) (field : Text) : Prop :=
  IsQuotedRun field ∨ ∀ c ∈ field, stop c = false

/-- A prompt as it stands in a pattern: a label and a preset between brackets. -/
@[ext]
structure PromptToken where
  label : Text
  isCommand : Bool
  preset : Text
  isField_label : IsField Pattern.isLabelStop label
  isField_preset : IsField (· == '>') preset

namespace PromptToken

def separator (k : PromptToken) : Char := if k.isCommand then '!' else ':'

def text (k : PromptToken) : Text :=
  '<' :: k.label ++ k.separator :: k.preset ++ ['>']

def prompt (k : PromptToken) : Prompt := ⟨Pattern.labelOf k.label, k.isCommand, unquote k.preset⟩

/-- Holds when a text begins with the token. -/
def Begins (k : PromptToken) (t : Text) : Prop := k.text <+: t

/-- Holds when a text begins with the token, and with no token that goes before it: quoted labels go
before plain ones, and with the same label quoted presets before plain ones. -/
def Leads (k : PromptToken) (t : Text) : Prop :=
  k.Begins t ∧ ∀ k' : PromptToken, k'.Begins t →
    (IsQuotedRun k'.label → IsQuotedRun k.label) ∧
    (k'.label = k.label → IsQuotedRun k'.preset → IsQuotedRun k.preset)

theorem text_append (k : PromptToken) (rest : Text) :
    k.text ++ rest = '<' :: (k.label ++ k.separator :: (k.preset ++ '>' :: rest)) := by
  simp [text]

theorem begins_iff {k : PromptToken} {t : Text} :
    k.Begins ('<' :: t) ↔ ∃ rest, t = k.label ++ k.separator :: (k.preset ++ '>' :: rest) := by
  constructor
  · rintro ⟨rest, h⟩
    rw [text_append] at h
    exact ⟨rest, (List.cons.inj h).2.symm⟩
  · rintro ⟨rest, rfl⟩
    exact ⟨rest, k.text_append rest⟩

theorem not_begins_cons {c : Char} (h : c ≠ '<') (k : PromptToken) (t : Text) :
    ¬ k.Begins (c :: t) := by
  rintro ⟨rest, hr⟩
  rw [text_append] at hr
  exact h (List.cons.inj hr).1.symm

theorem not_begins_nil (k : PromptToken) : ¬ k.Begins [] := by
  rintro ⟨rest, hr⟩
  rw [text_append] at hr
  cases hr

theorem isCommand_eq {k k' : PromptToken} (h : k.separator = k'.separator) :
    k.isCommand = k'.isCommand := by
  unfold separator at h
  cases hk : k.isCommand <;> cases hk' : k'.isCommand <;> simp [hk, hk'] at h ⊢

theorem isLabelStop_separator (k : PromptToken) : Pattern.isLabelStop k.separator = true := by
  unfold separator
  cases k.isCommand <;> rfl

end PromptToken

namespace Pattern

theorem quotedField?_eq_some_iff {t field rest : Text} :
    quotedField? t = some (field, rest) ↔ IsQuotedRun field ∧ t = field ++ rest := by
  constructor
  · intro h
    refine ⟨?_, quotedField?_append h⟩
    cases t with
    | nil => cases h
    | cons mark t =>
      rw [quotedField?] at h
      split at h
      · next hm =>
        obtain ⟨⟨inner, r⟩, hc, he⟩ := Option.map_eq_some_iff.1 h
        cases he
        refine ⟨mark, inner, hm, fun hin => ?_, rfl⟩
        have hfree := cutAt?_free hc mark hin
        simp at hfree
      · cases h
  · rintro ⟨⟨mark, inner, hm, hfree, rfl⟩, rfl⟩
    have hne : ∀ c ∈ inner, (c == mark) = false := by
      intro c hc
      rw [beq_eq_false_iff_ne]
      rintro rfl
      exact hfree hc
    have hcut : cutAt? (· == mark) (inner ++ mark :: rest) = some (inner, rest) :=
      cutAt?_append hne (beq_self_eq_true mark) rest
    have ht : mark :: inner ++ [mark] ++ rest = mark :: (inner ++ mark :: rest) := by simp
    rw [ht, quotedField?, if_pos hm, hcut]
    rfl

section Fields

variable {stop : Char → Bool}

theorem plainField_append {field : Text} (h : ∀ c ∈ field, stop c = false) {c : Char}
    (hc : stop c = true) (rest : Text) :
    (field ++ c :: rest).takeWhile (!stop ·) = field ∧
      (field ++ c :: rest).dropWhile (!stop ·) = c :: rest := by
  have hall : ∀ d ∈ field, (!stop d) = true := fun d hd => by rw [h d hd]; rfl
  rw [List.takeWhile_append_of_pos hall, List.dropWhile_append_of_pos hall]
  simp [hc]

/-- The fields that are tried and are followed by a character that ends one are all there are. -/
theorem mem_fields_iff {t field rest : Text} {c : Char} (hc : stop c = true) :
    (field, c :: rest) ∈ fields stop t ↔ IsField stop field ∧ t = field ++ c :: rest := by
  constructor
  · intro h
    refine ⟨?_, fields_append h⟩
    rcases List.mem_append.1 h with h | h
    · exact .inl (quotedField?_eq_some_iff.1 (Option.mem_toList.1 h)).1
    · obtain ⟨hf, -⟩ := Prod.mk.inj (List.mem_singleton.1 h)
      right
      intro d hd
      rw [hf] at hd
      simpa using List.mem_takeWhile_imp hd
  · rintro ⟨hf, rfl⟩
    refine List.mem_append.2 ?_
    rcases hf with hq | hp
    · exact .inl (Option.mem_toList.2 (quotedField?_eq_some_iff.2 ⟨hq, rfl⟩))
    · obtain ⟨htake, hdrop⟩ := plainField_append hp hc rest
      right
      rw [htake, hdrop]
      exact List.mem_singleton_self _

/-- Two fields at the start of one text are the same if both are quoted or neither is. -/
theorem field_unique {f f' : Text} (hf : IsField stop f) (hf' : IsField stop f')
    (hq : IsQuotedRun f ↔ IsQuotedRun f') {c c' : Char} (hc : stop c = true) (hc' : stop c' = true)
    {r r' : Text} (h : f ++ c :: r = f' ++ c' :: r') : f = f' := by
  by_cases hr : IsQuotedRun f
  · have hl : quotedField? (f ++ c :: r) = some (f, c :: r) :=
      quotedField?_eq_some_iff.2 ⟨hr, rfl⟩
    have hl' : quotedField? (f ++ c :: r) = some (f', c' :: r') :=
      quotedField?_eq_some_iff.2 ⟨hq.1 hr, h⟩
    rw [hl] at hl'
    exact (Prod.mk.inj (Option.some.inj hl')).1
  · have hp := (plainField_append (hf.resolve_left hr) hc r).1
    have hp' := (plainField_append (hf'.resolve_left fun hr' => hr (hq.2 hr')) hc' r').1
    rw [← hp, h, hp']

/-- A quoted field that is read as something goes before the plain one. -/
theorem findSome?_fields_of_quoted {β : Type} {t field rest : Text} (hq : IsQuotedRun field)
    (ht : t = field ++ rest) {read : Text × Text → Option β} {y : β}
    (hy : read (field, rest) = some y) : (fields stop t).findSome? read = some y := by
  rw [fields, quotedField?_eq_some_iff.2 ⟨hq, ht⟩, Option.toList_some, List.singleton_append,
    List.findSome?_cons, hy]

end Fields

section Read

variable {label t rest : Text} {isCommand : Bool} {p : Prompt}

theorem preset?_isSome {field : Text} (hf : IsField (· == '>') field)
    (ht : t = field ++ '>' :: rest) : (preset? label isCommand t).isSome = true := by
  rw [preset?, List.findSome?_isSome_iff]
  exact ⟨_, (mem_fields_iff rfl).2 ⟨hf, ht⟩, rfl⟩

/-- The preset that is read is quoted if it can be. -/
theorem preset?_eq_some (h : preset? label isCommand t = some (p, rest)) :
    ∃ field, IsField (· == '>') field ∧ t = field ++ '>' :: rest ∧
      p = ⟨labelOf label, isCommand, unquote field⟩ ∧
      ∀ field' rest', IsQuotedRun field' → t = field' ++ '>' :: rest' → IsQuotedRun field := by
  by_cases hq : ∃ field rest', IsQuotedRun field ∧ t = field ++ '>' :: rest'
  · obtain ⟨field, rest', hfield, ht⟩ := hq
    have hr : preset? label isCommand t =
        some (⟨labelOf label, isCommand, unquote field⟩, rest') :=
      findSome?_fields_of_quoted hfield ht rfl
    rw [h] at hr
    cases hr
    exact ⟨field, .inl hfield, ht, rfl, fun _ _ _ _ => hfield⟩
  · obtain ⟨⟨field, r⟩, hm, hr⟩ := List.exists_of_findSome?_eq_some h
    dsimp only at hr
    split at hr
    · cases hr
      obtain ⟨hf, ht⟩ := (mem_fields_iff rfl).1 hm
      exact ⟨field, hf, ht, rfl, fun f r hf ht => absurd ⟨f, r, hf, ht⟩ hq⟩
    · cases hr

end Read

section Prompt

variable {t rest : Text} {p : Prompt}

/-- Reads the preset after a label and its separator. -/
theorem exists_token {label tail : Text} {isCommand : Bool} (hl : IsField isLabelStop label)
    (ht : t = label ++ (if isCommand then '!' else ':') :: tail)
    (h : preset? label isCommand tail = some (p, rest)) :
    ∃ k : PromptToken, k.label = label ∧ k.prompt = p ∧ '<' :: t = k.text ++ rest ∧
      ∀ k' : PromptToken, k'.Begins ('<' :: t) → k'.label = label → IsQuotedRun k'.preset →
        IsQuotedRun k.preset := by
  obtain ⟨preset, hf, htail, hp, hq⟩ := preset?_eq_some h
  refine ⟨⟨label, isCommand, preset, hl, hf⟩, rfl, hp.symm, ?_, ?_⟩
  · rw [PromptToken.text_append, ht, htail]
    rfl
  · intro k' hb hlabel hquoted
    obtain ⟨rest', hr⟩ := PromptToken.begins_iff.1 hb
    rw [ht, hlabel] at hr
    have htail' := (List.cons.inj (List.append_cancel_left hr)).2
    exact hq _ _ hquoted htail'

theorem prompt?_of_quoted {label tail : Text} {isCommand : Bool} (hq : IsQuotedRun label)
    (ht : t = label ++ (if isCommand then '!' else ':') :: tail) {y : Prompt × Text}
    (hy : preset? label isCommand tail = some y) : prompt? t = some y := by
  cases isCommand with
  | false => exact findSome?_fields_of_quoted hq ht hy
  | true => exact findSome?_fields_of_quoted hq ht hy

/-- The label that is read, with what its separator is and what comes after that. -/
theorem exists_label (h : prompt? t = some (p, rest)) :
    ∃ label tail isCommand, IsField isLabelStop label ∧
      t = label ++ (if isCommand then '!' else ':') :: tail ∧
      preset? label isCommand tail = some (p, rest) ∧
      ∀ k : PromptToken, k.Begins ('<' :: t) → IsQuotedRun k.label → IsQuotedRun label := by
  by_cases hq : ∃ k : PromptToken, k.Begins ('<' :: t) ∧ IsQuotedRun k.label
  · obtain ⟨k, hb, hquoted⟩ := hq
    obtain ⟨rest', ht⟩ := PromptToken.begins_iff.1 hb
    have hs : (preset? k.label k.isCommand (k.preset ++ '>' :: rest')).isSome = true :=
      preset?_isSome k.isField_preset rfl
    obtain ⟨y, hy⟩ := Option.isSome_iff_exists.1 hs
    have hr := prompt?_of_quoted hquoted ht hy
    rw [h] at hr
    cases hr
    exact ⟨k.label, _, k.isCommand, k.isField_label, ht, hy, fun _ _ _ => hquoted⟩
  · have hplain (label : Text) :
        ∀ k : PromptToken, k.Begins ('<' :: t) → IsQuotedRun k.label → IsQuotedRun label :=
      fun k hb hk => absurd ⟨k, hb, hk⟩ hq
    obtain ⟨⟨label, r⟩, hm, hr⟩ := List.exists_of_findSome?_eq_some h
    dsimp only at hr
    split at hr
    · obtain ⟨hl, ht⟩ := (mem_fields_iff rfl).1 hm
      exact ⟨label, _, false, hl, ht, hr, hplain label⟩
    · obtain ⟨hl, ht⟩ := (mem_fields_iff rfl).1 hm
      exact ⟨label, _, true, hl, ht, hr, hplain label⟩
    · cases hr

/-- What is read after an opening bracket is the token that leads the text. -/
theorem prompt?_eq_some (h : prompt? t = some (p, rest)) :
    ∃ k : PromptToken, k.prompt = p ∧ '<' :: t = k.text ++ rest ∧ k.Leads ('<' :: t) := by
  obtain ⟨label, tail, isCommand, hl, ht, hr, hq⟩ := exists_label h
  obtain ⟨k, rfl, hp, htext, hpreset⟩ := exists_token hl ht hr
  exact ⟨k, hp, htext, ⟨rest, htext.symm⟩,
    fun k' hb => ⟨hq k' hb, fun he => hpreset k' hb he⟩⟩

/-- A token is read wherever one begins. -/
theorem prompt?_isSome {k : PromptToken} (h : k.Begins ('<' :: t)) : (prompt? t).isSome = true := by
  obtain ⟨rest, ht⟩ := PromptToken.begins_iff.1 h
  have hm : (k.label, k.separator :: (k.preset ++ '>' :: rest)) ∈ fields isLabelStop t :=
    (mem_fields_iff k.isLabelStop_separator).2 ⟨k.isField_label, ht⟩
  have hp : (preset? k.label k.isCommand (k.preset ++ '>' :: rest)).isSome = true :=
    preset?_isSome k.isField_preset rfl
  rw [prompt?, List.findSome?_isSome_iff]
  refine ⟨_, hm, ?_⟩
  unfold PromptToken.separator
  cases hc : k.isCommand with
  | false => rwa [hc] at hp
  | true => rwa [hc] at hp

end Prompt

end Pattern

/-- No two tokens lead the same text. -/
theorem PromptToken.Leads.unique {k k' : PromptToken} {t : Text} (h : k.Leads t)
    (h' : k'.Leads t) : k = k' := by
  obtain ⟨⟨rest, hr⟩, hbest⟩ := h
  obtain ⟨⟨rest', hr'⟩, hbest'⟩ := h'
  have hb : k.Begins t := ⟨rest, hr⟩
  have hb' : k'.Begins t := ⟨rest', hr'⟩
  rw [← hr', text_append, text_append] at hr
  have hbody := (List.cons.inj hr).2
  have hlabel : k.label = k'.label :=
    Pattern.field_unique k.isField_label k'.isField_label
      ⟨(hbest' k hb).1, (hbest k' hb').1⟩ k.isLabelStop_separator k'.isLabelStop_separator hbody
  rw [hlabel] at hbody
  obtain ⟨hsep, htail⟩ := List.cons.inj (List.append_cancel_left hbody)
  have hpreset : k.preset = k'.preset :=
    Pattern.field_unique k.isField_preset k'.isField_preset
      ⟨(hbest' k hb).2 hlabel, (hbest k' hb').2 hlabel.symm⟩ rfl rfl htail
  exact PromptToken.ext hlabel (isCommand_eq hsep) hpreset

end ModalKeys
