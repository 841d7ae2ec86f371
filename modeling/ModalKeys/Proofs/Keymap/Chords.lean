import ModalKeys.Proofs.Keymap.Captures
import ModalKeys.Proofs.Keymap.FirstMatch

namespace ModalKeys.Keymap

variable {k : Keymap} {mode : Text} {note : Notification} {text : Text}

/-- The first of the binds for all modes that is a single chord and fits. -/
def firstChord? (k : Keymap) (note : Notification) (text : Text) : Option Bind :=
  k.registry.global.binds.find? fun b => b.isGlobal && b.fits k.stack.depth note text

/-- Where no bind on the stack fits, what fits are the chords for all modes. -/
theorem matching_of_stack_unmatched (h : k.Sound) (hd : k.stack.depth ≠ 0)
    (hn : ∀ b ∈ k.stack.binds, b.fits k.stack.depth note text = false) :
    k.matching mode note text =
      k.registry.global.binds.filter fun b => b.isGlobal && b.fits k.stack.depth note text := by
  have hstack : k.stack.binds.filter (·.fits k.stack.depth note text) = [] :=
    List.filter_eq_nil_iff.2 fun b hb => by rw [hn b hb]; exact Bool.false_ne_true
  rw [matching, candidates, if_neg hd, List.filter_append, hstack, List.nil_append,
    h.registry.chords, List.filter_filter]
  congr 1
  funext b
  rw [Bool.and_comm]

/-- A chord that nothing fits is passed over: it neither drops a bind nor ends the stack. -/
theorem Outcome.of_unmatched_chord {reactions : List Reaction} {stack : Stack}
    (ho : k.Outcome mode note text reactions stack) (h : k.Sound) (hc : note.chord = true)
    (hm : k.matching mode note text = []) : reactions = [] ∧ stack = k.stack := by
  have hkept := kept_of_chord k mode hc text
  cases ho with
  | idle unmatched stays => exact ⟨rfl, hkept⟩
  | unwound unmatched stacked ends =>
    rcases ends with hs | hb
    · simp [Notification.submits, hc] at hs
    · rw [hkept] at hb
      exact absurd hb (h.binds_ne_nil stacked)
  | alone fitted last free => rw [fitted.matching] at hm; cases hm
  | live fitted last bound stacked trigger => rw [fitted.matching] at hm; cases hm
  | completed fitted last bound stacked trigger => rw [fitted.matching] at hm; cases hm
  | moved fitted more => rw [fitted.matching] at hm; cases hm

/-- A chord, pressed or released, does not disturb a prompt. Unless the next segment of a bind in
progress fits it, the keymap stays as it is, and all that can happen is that the first chord for all
modes that fits is run, with its own capture only; the chord is cleared if nothing of it was
captured. -/
theorem chord_spares_stack (h : k.Reachable) (hd : k.stack.depth ≠ 0) (hc : note.chord = true)
    (hn : ∀ b ∈ k.stack.binds, b.fits k.stack.depth note text = false) :
    (k.respond mode note text).2 = k ∧
      (k.respond mode note text).1 =
        match k.firstChord? note text with
        | none => []
        | some b => .run b (b.captured k.stack.depth text) ::
            if b.captures k.stack.depth then [] else [.clearActive] := by
  have ho := step_outcome h.sound mode note text
  have hm : k.matching mode note text = _ := matching_of_stack_unmatched h.sound hd hn
  have hf : k.firstChord? note text = (k.matching mode note text).head? := by
    rw [hm, List.head?_filter]
    rfl
  cases hb : k.matching mode note text with
  | nil =>
    obtain ⟨hr, hs⟩ := ho.of_unmatched_chord h.sound hc hb
    rw [hf, hb]
    exact ⟨congrArg (Keymap.mk k.registry) hs, hr⟩
  | cons b later =>
    have hg : b.isGlobal = true := by
      have hmem : b ∈ k.matching mode note text := by simp [hb]
      rw [hm] at hmem
      have hand := (List.mem_filter.1 hmem).2
      rw [Bool.and_eq_true] at hand
      exact hand.1
    have halone : k.runsAlone b = true := by simp [runsAlone, hg]
    obtain ⟨hr, hk⟩ := ho.of_last hb (Bind.goesOn_of_isGlobal hg _)
    rw [argsOf, closing, if_pos halone, if_pos halone] at hr
    rw [closed, if_pos halone] at hk
    rw [hf, hb]
    exact ⟨hk, hr⟩

/-- A bind in progress waits for the same chord, but for its release; of the two chords for all
modes that fit, the first is run. -/
theorem chord_spares_stack_released :
    let ctrl := Modifiers.ofNames ["Ctrl".toList]
    let k := after (Operation.define "f<go:><Ctrl>x!".toList "go %s".toList ++
      Operation.define "<Ctrl>x".toList "cut".toList ++
        Operation.define "<Ctrl>*".toList "other %s".toList ++
          [.notify "command".toList (.commandUpdate ∅) "f".toList])
    k.stack.depth ≠ 0 ∧
      (∀ b ∈ k.stack.binds, b.fits k.stack.depth (.chordUpdate ctrl) "x".toList = false) ∧
      ∃ b, b.source = "<Ctrl>x".toList ∧
        k.respond stackMode (.chordUpdate ctrl) "x".toList = ([.run b [], .clearActive], k) := by
  intro ctrl k
  have hd : k.stack.depth ≠ 0 := by decide +kernel
  have hn : ∀ b ∈ k.stack.binds,
      b.fits k.stack.depth (.chordUpdate ctrl) "x".toList = false := by decide +kernel
  have hf : (k.firstChord? (.chordUpdate ctrl) "x".toList).map (fun b =>
      (b.source, b.captured k.stack.depth "x".toList, b.captures k.stack.depth)) =
        some ("<Ctrl>x".toList, [], false) := by decide +kernel
  obtain ⟨b, hb, he⟩ := Option.map_eq_some_iff.1 hf
  obtain ⟨hs, he⟩ := Prod.mk.inj he
  obtain ⟨hcap, htakes⟩ := Prod.mk.inj he
  obtain ⟨hk, hr⟩ : (k.respond stackMode (.chordUpdate ctrl) "x".toList).2 = k ∧ _ :=
    chord_spares_stack ⟨_, rfl⟩ hd rfl hn
  rw [hb] at hr
  dsimp only at hr
  rw [hcap, htakes] at hr
  exact ⟨hd, hn, b, hs, Prod.ext hr hk⟩

end ModalKeys.Keymap
