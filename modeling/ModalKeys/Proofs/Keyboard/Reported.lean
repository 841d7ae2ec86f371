import Mathlib.Data.List.Sort
import ModalKeys.Keymap
import ModalKeys.Proofs.Keyboard.Pressed

namespace ModalKeys

namespace TextSet

variable {s t : TextSet} {x z : Text}

theorem ext_mem (h : ∀ x, x ∈ s ↔ x ∈ t) : s = t := by
  cases s
  cases t
  congr
  exact List.Pairwise.eq_of_mem_iff ‹_› ‹_› h

/-- The members of a class. -/
def filter (p : Text → Bool) (s : TextSet) : TextSet := ⟨s.toList.filter p, s.sorted.filter _⟩

theorem mem_filter {p : Text → Bool} : x ∈ s.filter p ↔ x ∈ s ∧ p x = true := List.mem_filter

theorem not_mem_empty : x ∉ (∅ : TextSet) := List.not_mem_nil

theorem mem_ofList {xs : List Text} : x ∈ ofList xs ↔ x ∈ xs :=
  mem_insertAll.trans (or_iff_left not_mem_empty)

theorem insertAll_append (s : TextSet) (xs ys : List Text) :
    s.insertAll (xs ++ ys) = (s.insertAll xs).insertAll ys := List.foldl_append

theorem mem_union : x ∈ s.union t ↔ x ∈ t ∨ x ∈ s := mem_insertAll

end TextSet

/-- The input with no key held. -/
def Input.released (i : Input) : Input := { i with held := ∅ }

theorem Input.text_of_released {i j : Input} (h : i.released = j.released) :
    i.chording = j.chording ∧ i.chordText = j.chordText ∧ i.line = j.line := by
  have hchording := congrArg Input.chording h
  have hchord := congrArg Input.chordText h
  have hline := congrArg Input.line h
  exact ⟨hchording, hchord, hline⟩

/-- A press with the modifiers that it tells of changed. -/
def Press.map (f : Modifiers → Modifiers) : Press → Press
  | .update m => .update (f m)
  | .cleared => .cleared

namespace Keyboard

variable {k : Keyboard} {names : List Text}

def token (k : Keyboard) (name : Text) : Text := modifierToken (k.mapKey name)

/-- Holds for a key that is a modifier, by a name that a field can list. -/
structure IsModifier (k : Keyboard) (name : Text) : Prop where
  listed : name ≠ [] ∧ '|' ∉ name
  long : 1 < (k.mapKey name).length
  solid : isSpace (k.mapKey name) = false

/-- The modifiers that no rule ignores. -/
def heeded (k : Keyboard) (m : Modifiers) : Modifiers := m.filter (!k.isIgnored ·)

/-- A key after its modifiers, each of which was pressed as a key. -/
def pressBare (k : Keyboard) (names : List Text) (key : Text) (typing : Bool) : Press × Keyboard :=
  (names.foldl (fun k name => (k.press [] name typing).2) k).press [] key typing

/-- A key with its modifiers in the field. -/
def pressListed (k : Keyboard) (names : List Text) (key : Text) (typing : Bool) :
    Press × Keyboard :=
  k.press (['|'].intercalate names) key typing

section Modifiers

theorem mem_modifiers {field token : Text} :
    token ∈ k.modifiers field ↔
      token ∈ k.input.held ∨ ∃ name ∈ field.splitOn '|', name ≠ [] ∧ k.token name = token := by
  rw [modifiers, TextSet.mem_union, Modifiers.ofNames, TextSet.mem_ofList]
  simp [Keyboard.token, and_assoc]

theorem mem_modifiers_nil {token : Text} : token ∈ k.modifiers [] ↔ token ∈ k.input.held := by
  rw [mem_modifiers]
  refine or_iff_left ?_
  rintro ⟨name, hname, hne, -⟩
  exact hne (List.mem_singleton.1 hname)

theorem mem_modifiers_intercalate (hn : ∀ name ∈ names, k.IsModifier name) {token : Text} :
    token ∈ k.modifiers (['|'].intercalate names) ↔
      token ∈ k.input.held ∨ ∃ name ∈ names, k.token name = token := by
  cases names with
  | nil => simpa using mem_modifiers_nil
  | cons first names =>
    have hs : (['|'].intercalate (first :: names)).splitOn '|' = first :: names :=
      List.splitOn_intercalate '|' (fun name hname => (hn name hname).listed.2) (by simp)
    rw [mem_modifiers, hs]
    refine or_congr_right (exists_congr fun name => and_congr_right fun hname => ?_)
    exact and_iff_right (hn name hname).listed.1

theorem mem_heeded {m : Modifiers} {token : Text} :
    token ∈ k.heeded m ↔ token ∈ m ∧ k.isIgnored token = false := by
  simp [heeded, TextSet.mem_filter]

theorem heeded_insert {m : Modifiers} {token : Text} (h : k.isIgnored token = false) :
    k.heeded (m.insert token) = (k.heeded m).insert token := by
  refine TextSet.ext_mem fun x => ?_
  rw [mem_heeded, TextSet.mem_insert, TextSet.mem_insert, mem_heeded]
  constructor
  · rintro ⟨rfl | hx, hi⟩
    · exact .inl rfl
    · exact .inr ⟨hx, hi⟩
  · rintro (rfl | ⟨hx, hi⟩)
    · exact ⟨.inl rfl, h⟩
    · exact ⟨.inr hx, hi⟩

theorem heeded_eq_self_iff {m : Modifiers} :
    k.heeded m = m ↔ ∀ token ∈ m, k.isIgnored token = false := by
  constructor
  · intro h token ht
    rw [← h] at ht
    exact (mem_heeded.1 ht).2
  · intro h
    refine TextSet.ext_mem fun token => ?_
    rw [mem_heeded]
    exact and_iff_left_of_imp (h token)

end Modifiers

/-- The keyboard with other modifiers held. -/
def holding (k : Keyboard) (held : Modifiers) (chording : Bool) : Keyboard :=
  { k with input := { k.input with held, chording } }

section Bare

/-- The tokens of modifiers, without those that a rule ignores. -/
def unignored (k : Keyboard) (names : List Text) : List Text :=
  (names.map k.token).filter (!k.isIgnored ·)

theorem unignored_cons (name : Text) (names : List Text) :
    k.unignored (name :: names) = k.unignored [name] ++ k.unignored names := by
  rw [unignored, unignored, unignored, ← List.filter_append]
  rfl

/-- Pressed alone, a modifier is held unless a rule ignores it, and nothing else comes of it. -/
theorem press_modifier {name : Text} (h : k.IsModifier name) (typing : Bool) :
    ∃ chording, (k.press [] name typing).2 =
      k.holding (k.input.held.insertAll (k.unignored [name])) chording := by
  have hone : (k.mapKey name).length ≠ 1 := Nat.ne_of_gt h.long
  unfold press
  simp only [h.solid, hone, Bool.and_false, Bool.false_eq_true, if_false, Bool.and_eq_true,
    decide_eq_true_eq, and_false]
  cases hi : k.isIgnored (modifierToken (k.mapKey name)) with
  | true =>
    have hnone : k.unignored [name] = [] := by simp [unignored, token, hi]
    rw [hnone]
    exact ⟨(k.modifiers []).toList.any (!k.isIgnored ·), rfl⟩
  | false =>
    have hone : k.unignored [name] = [k.token name] := by simp [unignored, token, hi]
    rw [hone]
    exact ⟨true, rfl⟩

/-- Pressed one after the other, modifiers are held but for those that a rule ignores. -/
theorem foldl_press (hn : ∀ name ∈ names, k.IsModifier name) (typing : Bool) :
    ∃ chording, names.foldl (fun k name => (k.press [] name typing).2) k =
      k.holding (k.input.held.insertAll (k.unignored names)) chording := by
  induction names generalizing k with
  | nil => exact ⟨k.input.chording, rfl⟩
  | cons name names ih =>
    obtain ⟨hname, hnames⟩ := List.forall_mem_cons.1 hn
    obtain ⟨chording, hp⟩ := press_modifier hname typing
    -- Neither the map of the keys nor the rules change, so that the others stay modifiers.
    have hrest : ∀ other ∈ names, (k.press [] name typing).2.IsModifier other := by
      intro other ho
      rw [hp]
      exact ⟨(hnames other ho).listed, (hnames other ho).long, (hnames other ho).solid⟩
    obtain ⟨chording', hf⟩ := ih hrest
    refine ⟨chording', ?_⟩
    rw [List.foldl_cons, hf, hp, unignored_cons name names, TextSet.insertAll_append]
    rfl

end Bare

section Pressed

variable {held : Modifiers} {chording : Bool} {field : Text}

theorem any_heeded (m : Modifiers) :
    (k.heeded m).toList.any (!k.isIgnored ·) = m.toList.any (!k.isIgnored ·) := by
  simp [heeded, TextSet.filter, List.any_filter]

/-- Whether modifiers are held or come in the field, a key does the same with them. -/
theorem press_holding (h : (k.holding held chording).modifiers [] = k.heeded (k.modifiers field))
    (key : Text) (typing : Bool) :
    ((k.holding held chording).press [] key typing).1 = (k.press field key typing).1.map k.heeded ∧
      ((k.holding held chording).press [] key typing).2.input.released =
        (k.press field key typing).2.input.released := by
  have hignored : (k.holding held chording).isIgnored = k.isIgnored := rfl
  have hname : (k.holding held chording).mapKey key = k.mapKey key := rfl
  unfold press
  rw [h, hignored, hname]
  dsimp only
  rw [any_heeded]
  generalize k.modifiers field = active
  generalize active.toList.any (!k.isIgnored ·) = chorded
  by_cases hblank : (!chorded && isSpace (k.mapKey key)) = true
  · rw [if_pos hblank, if_pos hblank]
    exact ⟨rfl, rfl⟩
  rw [if_neg hblank, if_neg hblank]
  by_cases htyped : (!chorded && (k.mapKey key).length = 1) = true
  · rw [if_pos htyped, if_pos htyped]
    cases typing with
    | true => exact ⟨rfl, rfl⟩
    | false => exact ⟨rfl, rfl⟩
  rw [if_neg htyped, if_neg htyped]
  by_cases hone : (k.mapKey key).length = 1
  · rw [if_pos hone, if_pos hone]
    exact ⟨rfl, rfl⟩
  rw [if_neg hone, if_neg hone]
  cases hi : k.isIgnored (modifierToken (k.mapKey key)) with
  | true => exact ⟨rfl, rfl⟩
  | false => exact ⟨congrArg Press.update (heeded_insert hi).symm, rfl⟩

/-- A press tells of an ignored modifier when the field or a held key does. -/
theorem mem_of_press {key : Text} {typing : Bool} {m : Modifiers}
    (h : (k.press field key typing).1 = .update m) {token : Text}
    (hi : k.isIgnored token = true) : token ∈ m ↔ token ∈ k.modifiers field := by
  have hp := k.pressed field key typing
  generalize k.press field key typing = pressed at hp h
  cases hp with
  | cleared => cases h
  | held _ _ heeded =>
    cases h
    rw [TextSet.mem_insert]
    refine or_iff_right ?_
    rintro rfl
    rw [hi] at heeded
    cases heeded
  | _ =>
    cases h
    rfl

end Pressed

end Keyboard

section Heard

/-- A notification about the line is heard whatever modifiers are with it. -/
theorem Segment.hears_commandUpdate (s : Segment) (m m' : Modifiers) :
    s.hears (.commandUpdate m) = s.hears (.commandUpdate m') := by
  cases hc : s.isChord with
  | true => simp [hears, hc, Notification.commandUpdate]
  | false => simp [hears, hc, Notification.commandUpdate]

theorem Bind.answer_commandUpdate (b : Bind) (depth : Nat) (m m' : Modifiers) (text : Text) :
    b.answer depth (.commandUpdate m) text = b.answer depth (.commandUpdate m') text := by
  unfold Bind.answer
  cases b.segment? depth with
  | none => rfl
  | some s =>
    dsimp only
    unfold Segment.answer
    rw [s.hears_commandUpdate m m']
    rfl

theorem Scan.through_commandUpdate (depth : Nat) (mode : Text) (m m' : Modifiers) (text : Text)
    (c : Scan) (bs : List Bind) :
    c.through depth mode (.commandUpdate m) text bs =
      c.through depth mode (.commandUpdate m') text bs := by
  induction bs generalizing c with
  | nil => rfl
  | cons b bs ih =>
    unfold Scan.through
    rw [b.answer_commandUpdate depth m m' text]
    simp only [ih]

theorem Keymap.respond_commandUpdate (keymap : Keymap) (mode : Text) (m m' : Modifiers)
    (text : Text) :
    keymap.respond mode (.commandUpdate m) text = keymap.respond mode (.commandUpdate m') text := by
  unfold respond step
  rw [Scan.through_commandUpdate _ _ m m']

/-- What the binds make of a press: of the chord while one is active, of the line otherwise. -/
def Keymap.hear (keymap : Keymap) (mode : Text) (pressed : Press × Keyboard) :
    List Reaction × Keymap :=
  let input := pressed.2.input
  match pressed.1 with
  | .update m =>
    if input.chording then keymap.respond mode (.chordUpdate m) input.chordText
    else keymap.respond mode (.commandUpdate m) input.line
  | .cleared => ([], keymap)

end Heard

namespace Keyboard

theorem hear_pressed {p q : Press × Keyboard} {f : Modifiers → Modifiers}
    (hinput : p.2.input.released = q.2.input.released)
    (hpress : p.1 = q.1.map f) (h : q.2.input.chording = false ∨ p.1 = q.1) (keymap : Keymap)
    (mode : Text) : keymap.hear mode p = keymap.hear mode q := by
  obtain ⟨hchording, hchord, hline⟩ := Input.text_of_released hinput
  unfold Keymap.hear
  dsimp only
  rw [hchording, hchord, hline]
  rcases h with hplain | hsame
  · rw [hplain, hpress]
    cases q.1 with
    | cleared => rfl
    | update m => exact keymap.respond_commandUpdate mode (f m) m q.2.input.line
  · rw [hsame]

variable {k : Keyboard} {names : List Text}

/-- Holds when no rule ignores any of the modifiers. -/
def Heeds (k : Keyboard) (names : List Text) : Prop :=
  ∀ name ∈ names, k.isIgnored (k.token name) = false

section Reported

variable (hk : k.input.held = ∅) (hn : ∀ name ∈ names, k.IsModifier name)

include hk hn

theorem mem_modifiers_listed {token : Text} :
    token ∈ k.modifiers (['|'].intercalate names) ↔ ∃ name ∈ names, k.token name = token := by
  rw [mem_modifiers_intercalate hn, hk]
  exact or_iff_right TextSet.not_mem_empty

/-- After modifiers have been pressed as keys, those are active that a field would add and that no
rule ignores. -/
theorem modifiers_pressed (chording : Bool) :
    (k.holding (k.input.held.insertAll (k.unignored names)) chording).modifiers [] =
      k.heeded (k.modifiers (['|'].intercalate names)) := by
  refine TextSet.ext_mem fun token => ?_
  rw [mem_modifiers_nil, mem_heeded, mem_modifiers_listed hk hn, hk]
  change token ∈ TextSet.insertAll ∅ (k.unignored names) ↔ _
  rw [TextSet.mem_insertAll, or_iff_left TextSet.not_mem_empty, unignored, List.mem_filter,
    List.mem_map, Bool.not_eq_true']

theorem heeded_eq_self_of_press {key : Text} {typing : Bool} {m : Modifiers}
    (h : (k.pressListed names key typing).1 = .update m) : k.heeded m = m ↔ k.Heeds names := by
  rw [heeded_eq_self_iff]
  constructor
  · intro hm name hname
    refine Bool.eq_false_of_not_eq_true fun hi => ?_
    have hmem : k.token name ∈ k.modifiers (['|'].intercalate names) :=
      (mem_modifiers_listed hk hn).2 ⟨name, hname, rfl⟩
    have hnot := hm _ ((mem_of_press h hi).2 hmem)
    exact Bool.false_ne_true (hnot.symm.trans hi)
  · intro hall token ht
    refine Bool.eq_false_of_not_eq_true fun hi => ?_
    obtain ⟨name, hname, rfl⟩ := (mem_modifiers_listed hk hn).1 ((mem_of_press h hi).1 ht)
    exact Bool.false_ne_true ((hall name hname).symm.trans hi)

/-- A key does the same to the line and to the chord whether its modifiers have been pressed as keys
or come in the field. Binds are told of the same modifiers exactly when no rule ignores one of them;
they answer alike then, and whenever no chord is active. -/
theorem press_reported (key : Text) (typing : Bool) :
    let bare := k.pressBare names key typing
    let listed := k.pressListed names key typing
    bare.2.input.released = listed.2.input.released ∧
      bare.1 = listed.1.map k.heeded ∧
      (bare.1 = listed.1 ↔ listed.1 = .cleared ∨ k.Heeds names) ∧
      (listed.2.input.chording = false ∨ k.Heeds names →
        ∀ keymap mode, Keymap.hear keymap mode bare = Keymap.hear keymap mode listed) := by
  intro bare listed
  obtain ⟨chording, hfold⟩ := foldl_press hn typing
  obtain ⟨hpress, hinput⟩ := press_holding (modifiers_pressed hk hn chording) key typing
  rw [← hfold] at hpress hinput
  change bare.1 = listed.1.map k.heeded at hpress
  have hsame : bare.1 = listed.1 ↔ listed.1 = .cleared ∨ k.Heeds names := by
    rw [hpress]
    cases hl : listed.1 with
    | cleared => simp [Press.map]
    | update m =>
      rw [← heeded_eq_self_of_press hk hn hl]
      simp [Press.map]
  refine ⟨hinput, hpress, hsame, fun h => hear_pressed hinput hpress ?_⟩
  exact h.imp_right fun hall => hsame.2 (.inr hall)

end Reported

/-- A keyboard that ignores the shift key. -/
def shiftIgnored : Keyboard :=
  let mapped := (empty.addModmap "Control".toList "Ctrl".toList).toOption.getD empty
  (mapped.addIgnore "<Shift>".toList).toOption.getD mapped

theorem isModifier_shiftIgnored :
    ∀ name ∈ ["Control_L".toList, "Shift_R".toList], shiftIgnored.IsModifier name := by
  have hall : ∀ name ∈ ["Control_L".toList, "Shift_R".toList], (name ≠ [] ∧ '|' ∉ name) ∧
      1 < (shiftIgnored.mapKey name).length ∧ isSpace (shiftIgnored.mapKey name) = false := by
    decide +kernel
  intro name hname
  obtain ⟨hl, hlong, hs⟩ := hall name hname
  exact ⟨hl, hlong, hs⟩

/-- Of both modifiers only the control key gets through as a key. -/
theorem press_reported_shift :
    shiftIgnored.input.held = ∅ ∧
      (∀ name ∈ ["Control_L".toList, "Shift_R".toList], shiftIgnored.IsModifier name) ∧
      (shiftIgnored.pressBare ["Control_L".toList, "Shift_R".toList] ['a'] true).1 =
        .update (TextSet.ofList ["<Ctrl>".toList]) := by
  have hheld : shiftIgnored.input.held = ∅ := by decide +kernel
  obtain ⟨-, hpress, -, -⟩ := press_reported hheld isModifier_shiftIgnored ['a'] true
  exact ⟨hheld, isModifier_shiftIgnored, hpress.trans (by decide +kernel)⟩

/-- With an ignored modifier among them, a chord that is reported by its keys fires a bind that it
does not fire by its field: there the modifiers are two, and the bind has one. -/
theorem pressBare_ne_pressListed :
    let names := ["Control_L".toList, "Shift_R".toList]
    let bare := shiftIgnored.pressBare names ['a'] true
    let listed := shiftIgnored.pressListed names ['a'] true
    shiftIgnored.input.held = ∅ ∧ shiftIgnored.input.chord = [] ∧
      (∀ name ∈ names, shiftIgnored.IsModifier name) ∧
      bare.1 = .update (TextSet.ofList ["<Ctrl>".toList]) ∧
      listed.1 = .update (TextSet.ofList ["<Ctrl>".toList, "<Shift>".toList]) ∧
      (Bind.ofCommands "<Ctrl>a".toList ["close".toList]).toOption.map (fun b =>
        let keymap := Keymap.ofRegistry (Registry.empty.put globalMode (.bound b))
        ((keymap.hear "command".toList bare).1.length,
          (keymap.hear "command".toList listed).1.length)) = some (2, 0) := by
  refine ⟨by decide +kernel, by decide +kernel, isModifier_shiftIgnored, ?_, ?_, ?_⟩
  · decide +kernel
  · decide +kernel
  · decide +kernel

end Keyboard

end ModalKeys
