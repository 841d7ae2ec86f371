import Mathlib.Data.List.Induction
import ModalKeys.Proofs.Keyboard.Ignored

namespace ModalKeys.Keyboard

/-- What a press adds to the chord. -/
def added (k : Keyboard) (field key : Text) : Text :=
  if k.chorded field = true ∧ (k.mapKey key).length = 1 then k.mapKey key else []

section Chord

variable {k : Keyboard} {field key : Text} {typing : Bool}

theorem added_of_one (hc : k.chorded field = true) (hone : (k.mapKey key).length = 1) :
    k.added field key = k.mapKey key := if_pos ⟨hc, hone⟩

theorem added_of_plain (hc : k.chorded field = false) : k.added field key = [] :=
  if_neg fun h => by simp [hc] at h

theorem added_of_named (hone : (k.mapKey key).length ≠ 1) : k.added field key = [] :=
  if_neg fun h => hone h.2

/-- A press takes nothing from the chord, and what it adds it adds to an active one. -/
theorem chord_press (k : Keyboard) (field key : Text) (typing : Bool) :
    (k.press field key typing).2.input.chord = k.input.chord ++ k.added field key ∧
      ((k.press field key typing).2.input.chording = false → k.added field key = []) := by
  have hp := k.pressed field key typing
  generalize k.press field key typing = p at hp ⊢
  cases hp with
  | blank plain | typed plain | cleared plain =>
    rw [added_of_plain plain, List.append_nil]
    exact ⟨rfl, fun _ => rfl⟩
  | chord chorded one =>
    rw [added_of_one chorded one]
    refine ⟨rfl, fun hoff => ?_⟩
    have hoff : k.chorded field = false := hoff
    rw [chorded] at hoff
    cases hoff
  | ignored _ named | held _ named =>
    rw [added_of_named named, List.append_nil]
    exact ⟨rfl, fun _ => rfl⟩

theorem chordText_of_chording {i : Input} (h : i.chording = true) : i.chordText = i.chord := if_pos h

end Chord

/-- What happens to the keys: one goes down or up, or modifiers are ignored from then on. -/
inductive Stroke
  | press (field key : Text) (typing : Bool)
  | release (field key : Text)
  | ignore (rule : Text)

/-- The keyboard after a stroke. A named key that goes up clears the chord. -/
def strike (k : Keyboard) : Stroke → Keyboard
  | .press field key typing => (k.press field key typing).2
  | .release field key =>
    match k.release field key with
    | (.printable, k) => k
    | (.named _, k) => k.clearChord
  | .ignore rule =>
    match k.addIgnore rule with
    | .ok k => k
    | .error _ => k

def strikeAll (k : Keyboard) (ss : List Stroke) : Keyboard := ss.foldl strike k

/-- The named key that a stroke lets go of. -/
def letsGo (k : Keyboard) : Stroke → Option Text
  | .release _ key => if 1 < (k.mapKey key).length then some (k.token key) else none
  | _ => none

section Strokes

variable {k : Keyboard} {s : Stroke} {ss : List Stroke}

theorem strikeAll_append (k : Keyboard) (ss ts : List Stroke) :
    k.strikeAll (ss ++ ts) = (k.strikeAll ss).strikeAll ts := List.foldl_append

theorem strikeAll_concat (k : Keyboard) (ss : List Stroke) (s : Stroke) :
    k.strikeAll (ss ++ [s]) = (k.strikeAll ss).strike s := k.strikeAll_append ss [s]

/-- Letting go of a named key empties the chord, letting go of another key does nothing. -/
theorem strike_release (k : Keyboard) (field key : Text) :
    (1 < (k.mapKey key).length → (k.strike (.release field key)).input.chord = []) ∧
      ((k.mapKey key).length ≤ 1 → k.strike (.release field key) = k) := by
  unfold strike release
  dsimp only
  constructor
  · intro hnamed
    rw [if_neg (Nat.not_le.2 hnamed)]
    rfl
  · intro hshort
    rw [if_pos hshort]

/-- A rule touches neither the input nor the names of the keys. -/
theorem strike_ignore (k : Keyboard) (rule : Text) :
    ∃ ignores, k.strike (.ignore rule) = { k with ignores } := by
  unfold strike addIgnore
  dsimp only
  split
  · next k' heq =>
    split at heq
    · cases heq
    · split at heq <;> cases heq
      exact ⟨_, rfl⟩
  · exact ⟨k.ignores, rfl⟩

theorem modmaps_strike (k : Keyboard) (s : Stroke) : (k.strike s).modmaps = k.modmaps := by
  cases s with
  | press field key typing => exact (k.follows_press field key typing).modmaps
  | release field key =>
    unfold strike release
    dsimp only
    split
    · next heq =>
      split at heq <;> cases heq
      rfl
    · next heq =>
      split at heq <;> cases heq
      rfl
  | ignore rule =>
    obtain ⟨ignores, hs⟩ := k.strike_ignore rule
    rw [hs]

theorem modmaps_strikeAll (k : Keyboard) (ss : List Stroke) :
    (k.strikeAll ss).modmaps = k.modmaps := by
  induction ss generalizing k with
  | nil => rfl
  | cons s ss ih => exact (ih (k.strike s)).trans (k.modmaps_strike s)

theorem letsGo_congr {k' : Keyboard} (h : k'.modmaps = k.modmaps) (s : Stroke) :
    k'.letsGo s = k.letsGo s := by
  cases s with
  | release field key => rw [letsGo, letsGo, token, token, mapKey, mapKey, h]
  | press | ignore => rfl

theorem letsGo_release_eq_none {field key : Text} :
    k.letsGo (.release field key) = none ↔ (k.mapKey key).length ≤ 1 := by
  rw [letsGo, ite_eq_right_iff, ← Nat.not_lt]
  exact forall_congr' fun _ => iff_of_false (by simp) id

/-- Only a named key that goes up takes text from the chord. -/
theorem prefix_strike (h : k.letsGo s = none) : k.input.chord <+: (k.strike s).input.chord := by
  cases s with
  | press field key typing => exact ⟨_, (k.chord_press field key typing).1.symm⟩
  | release field key =>
    have hs := (k.strike_release field key).2 (letsGo_release_eq_none.1 h)
    exact hs.symm ▸ List.prefix_refl k.input.chord
  | ignore rule =>
    obtain ⟨ignores, hs⟩ := k.strike_ignore rule
    exact hs.symm ▸ List.prefix_refl k.input.chord

theorem prefix_strikeAll (h : ∀ s ∈ ss, k.letsGo s = none) :
    k.input.chord <+: (k.strikeAll ss).input.chord := by
  induction ss generalizing k with
  | nil => exact List.prefix_refl _
  | cons s ss ih =>
    have hrest : ∀ t ∈ ss, (k.strike s).letsGo t = none := fun t ht => by
      rw [letsGo_congr (k.modmaps_strike s)]
      exact h t (List.mem_cons_of_mem s ht)
    exact (prefix_strike (h s List.mem_cons_self)).trans (ih hrest)

end Strokes

/-- Holds when a press has ended a chord with this text, and no named key has gone up since. -/
def Faded (k : Keyboard) (ss : List Stroke) (text : Text) : Prop :=
  ∃ earlier field key typing later, ss = earlier ++ .press field key typing :: later ∧
    (k.strikeAll earlier).input.chording = true ∧ (k.strikeAll earlier).input.chord = text ∧
    (k.strikeAll (earlier ++ [.press field key typing])).input.chording = false ∧
    ∀ s ∈ later, k.letsGo s = none

section Faded

variable {k : Keyboard} {s : Stroke} {ss : List Stroke} {text : Text}

theorem Faded.concat (h : k.Faded ss text) (hs : k.letsGo s = none) : k.Faded (ss ++ [s]) text := by
  obtain ⟨earlier, field, key, typing, later, rfl, hon, htext, hoff, hlater⟩ := h
  refine ⟨earlier, field, key, typing, later ++ [s], ?_, hon, htext, hoff, fun t ht => ?_⟩
  · rw [List.append_assoc, List.cons_append]
  · rcases List.mem_append.1 ht with ht | ht
    · exact hlater t ht
    · rw [List.mem_singleton.1 ht]
      exact hs

/-- What has faded is still in the chord. -/
theorem Faded.isPrefix (h : k.Faded ss text) : text <+: (k.strikeAll ss).input.chord := by
  obtain ⟨earlier, field, key, typing, later, rfl, -, rfl, -, hlater⟩ := h
  rw [strikeAll_append]
  refine prefix_strikeAll fun s hs => ?_
  rw [letsGo_congr (k.modmaps_strikeAll earlier)]
  rcases List.mem_cons.1 hs with rfl | hs
  · rfl
  · exact hlater s hs

/-- While no chord is active the text that is left of earlier ones has faded. -/
theorem exists_faded (hk : k.input = .empty) (hoff : (k.strikeAll ss).input.chording = false)
    (hne : (k.strikeAll ss).input.chord ≠ []) : ∃ text, text ≠ [] ∧ k.Faded ss text := by
  -- On the last stroke: it has ended the chord, or the text was there before it.
  induction ss using List.reverseRecOn with
  | nil =>
    rw [strikeAll, List.foldl_nil, hk] at hne
    exact absurd rfl hne
  | append_singleton ss s ih =>
    have hconcat := k.strikeAll_concat ss s
    rw [hconcat] at hoff hne
    cases s with
    | press field key typing =>
      obtain ⟨hchord, hadded⟩ := (k.strikeAll ss).chord_press field key typing
      rw [hadded hoff, List.append_nil] at hchord
      have hne : (k.strikeAll ss).input.chord ≠ [] := fun hnil => hne (hchord.trans hnil)
      cases hon : (k.strikeAll ss).input.chording with
      | true =>
        refine ⟨_, hne, ss, field, key, typing, [], rfl, hon, rfl, ?_, by simp⟩
        rw [hconcat]
        exact hoff
      | false =>
        obtain ⟨text, htext, hfaded⟩ := ih hon hne
        exact ⟨text, htext, hfaded.concat rfl⟩
    | release field key =>
      obtain ⟨hnamed, hother⟩ := (k.strikeAll ss).strike_release field key
      have hshort : ((k.strikeAll ss).mapKey key).length ≤ 1 :=
        Nat.not_lt.1 fun hlong => hne (hnamed hlong)
      rw [hother hshort] at hoff hne
      obtain ⟨text, htext, hfaded⟩ := ih hoff hne
      refine ⟨text, htext, hfaded.concat ?_⟩
      rw [← letsGo_congr (k.modmaps_strikeAll ss)]
      exact letsGo_release_eq_none.2 hshort
    | ignore rule =>
      obtain ⟨ignores, hs⟩ := (k.strikeAll ss).strike_ignore rule
      rw [hs] at hoff hne
      obtain ⟨text, htext, hfaded⟩ := ih hoff hne
      exact ⟨text, htext, hfaded.concat rfl⟩

end Faded

/-- On a keyboard that is fresh at first, a press that begins a chord adds its own text to what is
left of the chords before. Of a chord that a press has ended all is left, unless a named key has
gone up since, and apart from that the chord holds its own text only. -/
theorem chord_begins {k : Keyboard} (hk : k.input = .empty) (ss : List Stroke)
    (field key : Text) (typing : Bool) (hoff : (k.strikeAll ss).input.chording = false)
    (hon : ((k.strikeAll ss).press field key typing).2.input.chording = true) :
    let now := (k.strikeAll ss).added field key
    let chord := ((k.strikeAll ss).press field key typing).2.input.chordText
    chord = (k.strikeAll ss).input.chord ++ now ∧
      (∀ text, k.Faded ss text → text <+: chord) ∧
      (chord = now ↔ ∀ text, k.Faded ss text → text = []) := by
  intro now chord
  have hchord : chord = (k.strikeAll ss).input.chord ++ now :=
    (chordText_of_chording hon).trans ((k.strikeAll ss).chord_press field key typing).1
  refine ⟨hchord, fun text hfaded => ?_, ?_, ?_⟩
  · rw [hchord]
    exact hfaded.isPrefix.trans (List.prefix_append _ now)
  · intro hnow text hfaded
    have hnil : (k.strikeAll ss).input.chord = [] := List.append_left_eq_self.1 (hchord.symm.trans hnow)
    have hprefix := hfaded.isPrefix
    rw [hnil] at hprefix
    exact List.prefix_nil.1 hprefix
  · intro hnone
    have hnil : (k.strikeAll ss).input.chord = [] := by
      by_contra hne
      obtain ⟨text, htext, hfaded⟩ := exists_faded hk hoff hne
      exact htext (hnone text hfaded)
    rw [hchord, hnil, List.nil_append]

/-- A chord that is let go of leaves nothing to the next. -/
theorem chord_begins_after_release :
    let first := [Stroke.press [] "Control".toList true, .press [] ['a'] true,
      .release [] "Control".toList]
    let k := empty.strikeAll first
    k.input.chording = false ∧ (k.press "Control".toList ['c'] true).2.input.chordText = ['c'] ∧
      ∀ text, empty.Faded first text → text = [] := by
  intro first k
  have hoff : k.input.chording = false := by decide +kernel
  have hon : (k.press "Control".toList ['c'] true).2.input.chording = true := by decide +kernel
  have hchord : (k.press "Control".toList ['c'] true).2.input.chordText = ['c'] := by decide +kernel
  have hnow : k.added "Control".toList ['c'] = ['c'] := by decide +kernel
  obtain ⟨-, -, hiff⟩ := chord_begins (k := empty) rfl first "Control".toList ['c'] true hoff hon
  exact ⟨hoff, hchord, hiff.1 (hchord.trans hnow.symm)⟩

/-- With the modifiers in the field nothing is let go of. The key without a modifier ends the chord,
and its text is in the next one. -/
theorem chord_begins_with_leftover :
    let first := [Stroke.press "Control".toList ['a'] true, .press [] ['b'] true]
    let k := empty.strikeAll first
    let next := (k.press "Control".toList ['c'] true).2
    empty.input = .empty ∧ k.input.chording = false ∧ next.input.chording = true ∧
      k.added "Control".toList ['c'] = ['c'] ∧ next.input.chordText = ['a', 'c'] := by
  decide +kernel

end ModalKeys.Keyboard
