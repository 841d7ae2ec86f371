import ModalKeys.Proofs.Session.Core

namespace ModalKeys

open Text

/-- The name of the key that types a character. -/
def keyName (c : Char) : Text := if c = ' ' then "space".toList else [c]

namespace Keyboard

/-- A keyboard on which nothing is held and the keys have their own names. -/
structure Idle (k : Keyboard) : Prop where
  chording : k.input.chording = false
  chord : k.input.chord = []
  held : k.input.held = ∅
  named : ∀ c, k.mapKey (keyName c) = keyName c

/-- The keyboard with a line that was typed to its end. -/
def typed (k : Keyboard) (line : Text) : Keyboard := { k with input := k.input.setLine line }

theorem line_typed (k : Keyboard) (line : Text) : (k.typed line).input.line = line :=
  List.append_nil line

theorem mapKey_of_unmapped {modmaps : Assoc Text} {c : Char} (h : modmaps.get? (keyName c) = none) :
    ModalKeys.mapKey modmaps (keyName c) = keyName c := by
  have hs : sideless? (keyName c) = none := by
    unfold keyName
    split
    · rfl
    · unfold sideless?
      split
      · next hr => cases hr
      · next hr => cases hr
      · rfl
  rw [ModalKeys.mapKey.eq_def, h]
  dsimp only
  split
  · next base hb => rw [hs] at hb; cases hb
  · rfl

namespace Idle

variable {k : Keyboard} (h : k.Idle) (c : Char)

include h

theorem typed (line : Text) : (k.typed line).Idle := ⟨h.chording, h.chord, h.held, h.named⟩

theorem modifiers_eq : k.modifiers [] = ∅ := by
  unfold modifiers
  rw [h.held]
  rfl

theorem press_eq : k.press [] (keyName c) true =
    (.update ∅, { k with input := k.input.insert [c] }) := by
  have hi : { k.input with chording := false } = k.input := by rw [← h.chording]
  have hc : (∅ : Modifiers).toList.any (!k.isIgnored ·) = false := rfl
  unfold press
  rw [h.modifiers_eq, h.named]
  dsimp only
  rw [hc, hi]
  by_cases hb : c = ' '
  · subst hb
    rfl
  · have hn : keyName c = [c] := if_neg hb
    have hsp : isSpace [c] = false := decide_eq_false (by simp)
    rw [hn, hsp]
    rfl

theorem press_typed (line : Text) : (k.typed line).press [] (keyName c) true =
    (.update ∅, k.typed (line ++ [c])) := (h.typed line).press_eq c

theorem release_eq : k.release [] (keyName c) = (.printable, k) ∨
    k.release [] (keyName c) = (.named none, k) := by
  have hh : { k.input with held := k.input.held.erase (modifierToken "space".toList) } = k.input := by
    have he : k.input.held.erase (modifierToken "space".toList) = k.input.held := by
      rw [h.held]
      rfl
    rw [he]
  unfold release
  rw [h.named]
  by_cases hb : c = ' '
  · right
    subst hb
    have hn : keyName ' ' = "space".toList := rfl
    rw [hn, if_neg (by decide), hh, h.chording]
    rfl
  · left
    have hn : keyName c = [c] := if_neg hb
    rw [hn]
    rfl

theorem clearChord_eq : k.clearChord = k := by
  have hi : k.input.clearChord = k.input := by
    unfold Input.clearChord
    rw [← h.chord, ← h.chording]
  unfold clearChord
  rw [hi]

end Idle

end Keyboard

namespace Session

/-- The press and the release of the key that types a character. -/
def keystroke (c : Char) : List Request :=
  [.event (.keyPress [] (keyName c)), .event (.keyRelease [] (keyName c))]

def typing (t : Text) : List Request := t.flatMap keystroke

theorem serveAll_append {s t : Session} {rs : List Request} (h : s.serveAll rs = some t)
    (rs' : List Request) : s.serveAll (rs ++ rs') = t.serveAll rs' := by
  unfold serveAll at h ⊢
  rw [List.foldlM_append, h]
  rfl

theorem serveAll_singleton {s t : Session} {r : Request} (h : s.serve r = some t) :
    s.serveAll [r] = some t := by
  change (s.serve r >>= pure) = some t
  rw [h]
  rfl

section Typing

variable {s : Session} {k : Keyboard}

theorem keyRelease_of_idle (hi : s.keyboard.Idle) (c : Char) :
    ∃ t, s.keyRelease [] (keyName c) = some t ∧ t.core = s.core := by
  unfold keyRelease
  rcases hi.release_eq c with hr | hr <;> rw [hr]
  · exact ⟨_, rfl, rfl⟩
  · refine ⟨_, rfl, ?_⟩
    have hk : s.core.clearChord = s.core := by
      change { s.core with keyboard := s.keyboard.clearChord } = s.core
      rw [hi.clearChord_eq]
      rfl
    exact (core_clearChord s).trans hk

/-- What a typed character comes to, if it has no line filled in. -/
theorem serveAll_keystroke (hi : k.Idle) {line : Text} {c : Char} {rs : List Reaction} {stack : Stack}
    {u : Session} (hs : s.keyboard = k.typed line) (ht : s.isTyping = true)
    (hstep : s.keymap.step s.mode (.commandUpdate ∅) (line ++ [c]) = (rs, stack))
    (hf : ∀ r ∈ rs, r.fillsLine = false)
    (hu : rs.foldl follow (Session.withStack { s with keyboard := k.typed (line ++ [c]) } stack) = u)
    (hr : u.keyboard.Idle) :
    ∃ t, s.serveAll (keystroke c) = some t ∧ t.core = u.core := by
  let v : Session := { s with keyboard := k.typed (line ++ [c]) }
  have hp : s.keyPress [] (keyName c) = v.update ∅ := by
    unfold keyPress
    rw [hs, ht, hi.press_typed]
  have hl : v.input.line = line ++ [c] := Keyboard.line_typed k _
  have hv : v.keymap.step v.mode (.commandUpdate ∅) v.input.line = (rs, stack) := by
    rw [hl]
    exact hstep
  have hch : v.input.chording = false := hi.chording
  have hup : v.update ∅ = some (u.refresh ∅ v.input) := by
    rw [update_of_step hch hv hf, ← hu]
  have hcore : (u.refresh ∅ v.input).core = u.core := core_refresh u ∅ v.input
  have hkb : (u.refresh ∅ v.input).keyboard = u.keyboard := congrArg Core.keyboard hcore
  obtain ⟨t, htr, htc⟩ := keyRelease_of_idle (hkb ▸ hr) c
  refine ⟨t, ?_, htc.trans hcore⟩
  have hpress : s.serve (.event (.keyPress [] (keyName c))) = some (u.refresh ∅ v.input) := by
    change ((s.keyPress [] (keyName c)).map Reply.accepted).map (·.session) = _
    rw [hp, hup]
    rfl
  have hrelease : (u.refresh ∅ v.input).serve (.event (.keyRelease [] (keyName c))) = some t := by
    change (((u.refresh ∅ v.input).keyRelease [] (keyName c)).map Reply.accepted).map (·.session) = _
    rw [htr]
    rfl
  rw [keystroke, ← List.singleton_append, serveAll_append (serveAll_singleton hpress)]
  exact serveAll_singleton hrelease

/-- Text that no bind answers to is added to the line, character by character. -/
theorem serveAll_typing {c : Core} (hi : k.Idle) {line t : Text}
    (hs : s.core = { c with keyboard := k.typed line }) (ht : c.typing = true)
    (hstep : ∀ u, u ≠ [] → u <+: t →
      c.keymap.step c.mode (.commandUpdate ∅) (line ++ u) = ([], c.keymap.stack)) :
    ∃ s', s.serveAll (typing t) = some s' ∧
      s'.core = { c with keyboard := k.typed (line ++ t) } := by
  induction t generalizing s line with
  | nil => exact ⟨s, rfl, by rw [List.append_nil]; exact hs⟩
  | cons d t ih =>
    have hkey : s.keyboard = k.typed line := congrArg Core.keyboard hs
    have hmap : s.keymap = c.keymap := congrArg Core.keymap hs
    have hmode : s.mode = c.mode := congrArg Core.mode hs
    have htyping : s.isTyping = true := (congrArg Core.typing hs).trans ht
    have hd : s.keymap.step s.mode (.commandUpdate ∅) (line ++ [d]) = ([], s.keymap.stack) := by
      rw [hmap, hmode]
      exact hstep [d] (by simp) (List.prefix_append [d] t)
    obtain ⟨s', hs', hc'⟩ := serveAll_keystroke hi hkey htyping hd (by simp) rfl (hi.typed _)
    have hcore : s'.core = { c with keyboard := k.typed (line ++ [d]) } := by
      rw [hc']
      change { s.core with keyboard := k.typed (line ++ [d]) } = _
      rw [hs]
    have hrest : ∀ u, u ≠ [] → u <+: t →
        c.keymap.step c.mode (.commandUpdate ∅) (line ++ [d] ++ u) = ([], c.keymap.stack) := by
      intro u _ hu
      rw [List.append_assoc]
      exact hstep ([d] ++ u) (by simp) (List.cons_prefix_cons.2 ⟨rfl, hu⟩)
    obtain ⟨s'', hs'', hc''⟩ := ih hcore hrest
    refine ⟨s'', (serveAll_append hs' _).trans hs'', ?_⟩
    rw [hc'', List.append_assoc]
    rfl

/-- A submission, if it has no line filled in. The line is recorded first. -/
theorem serve_submit {rs : List Reaction} {stack : Stack} {line : Text}
    (hs : s.keyboard = k.typed line)
    (hstep : s.keymap.step s.mode (.commandExec ∅) line = (rs, stack))
    (hf : ∀ r ∈ rs, r.fillsLine = false) :
    ∃ u : Session, u.core = s.core ∧
      s.serve (.event .submit) = some (rs.foldl follow (u.withStack stack)).clearLine := by
  let u : Session := { s with history := s.history.record (s.vars.getD promptName []) s.input.line }
  have hl : s.input.line = line := by
    unfold input
    rw [hs, Keyboard.line_typed]
  have hn : u.notify (.commandExec ∅) s.input.line = some (rs.foldl follow (u.withStack stack)) := by
    have hu : u.keymap.step u.mode (.commandExec ∅) line = (rs, stack) := hstep
    rw [hl]
    exact dispatch_of_step hu hf _
  refine ⟨u, rfl, ?_⟩
  change (((u.notify (.commandExec ∅) s.input.line).map clearLine).map Reply.accepted).map
    (·.session) = _
  rw [hn]
  rfl

end Typing

section Start

/-- Rules about ignored modifiers leave the input and the names of the keys alone. -/
theorem keyboard_ignoring (rules : List Text) (k : Keyboard) :
    let ignoring := rules.foldl (fun t rule =>
      match t.addIgnore rule with
      | .ok t => t
      | .error _ => t) k
    ignoring.input = k.input ∧ ignoring.modmaps = k.modmaps := by
  refine List.foldlRecOn (motive := fun t : Keyboard => t.input = k.input ∧ t.modmaps = k.modmaps) rules _
    ⟨rfl, rfl⟩ fun t ht rule _ => ?_
  split
  · next t' h =>
    unfold Keyboard.addIgnore at h
    dsimp only at h
    split at h
    · cases h
    · split at h
      · cases h
        exact ht
      · cases h
  · exact ht

/-- The first state of a session with the initial settings. -/
theorem core_start (r : Registry) : ∃ k : Keyboard, k.input = .empty ∧
    k.modmaps = Settings.initial.modmaps ∧ (start .initial r).core =
      ⟨k, .ofRegistry r, Settings.initial.defaultMode, Settings.initial.defaultMode, [], true, []⟩ := by
  obtain ⟨k, hi, hm, hs⟩ : ∃ k : Keyboard, k.input = .empty ∧
      k.modmaps = Settings.initial.modmaps ∧ start .initial r =
        Session.setMode ⟨k, .ofRegistry r, .empty, .empty, .empty, Settings.initial.defaultMode,
          [], [], []⟩ [] :=
    ⟨_, (keyboard_ignoring Settings.initial.ignoreKeys _).1.trans rfl,
      (keyboard_ignoring Settings.initial.ignoreKeys _).2.trans rfl, rfl⟩
  let s : Session := ⟨k, .ofRegistry r, .empty, .empty, .empty, Settings.initial.defaultMode,
    [], [], []⟩
  have hother : s.mode ≠ s.target [] := by
    change ([] : Text) ≠ Settings.initial.defaultMode
    decide
  have hcore : (s.setMode []).core = s.core.inMode (s.target []) := core_setMode rfl hother
  exact ⟨k, hi, hm, hs ▸ hcore⟩

theorem idle_of_initial {k : Keyboard} (hi : k.input = .empty)
    (hm : k.modmaps = Settings.initial.modmaps) : k.Idle := by
  refine ⟨by rw [hi]; rfl, by rw [hi]; rfl, by rw [hi]; rfl, fun c => ?_⟩
  refine Keyboard.mapKey_of_unmapped ?_
  rw [hm]
  unfold keyName
  split
  · rfl
  · have hcontrol : "Control".toList ≠ [c] := by
      intro h
      have hl : 7 = 1 := congrArg List.length h
      omega
    have htab : "ISO_Left_Tab".toList ≠ [c] := by
      intro h
      have hl : 12 = 1 := congrArg List.length h
      omega
    exact (if_neg hcontrol).trans (if_neg htab)

end Start

end Session

end ModalKeys
