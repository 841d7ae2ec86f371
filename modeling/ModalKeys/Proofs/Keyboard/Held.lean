import ModalKeys.Proofs.Keyboard.Strokes

namespace ModalKeys.Keyboard

/-- Holds when a press adds the key to those that are held. -/
structure Takes (k : Keyboard) (field key : Text) : Prop where
  solid : k.chorded field = true ∨ isSpace (k.mapKey key) = false
  named : (k.mapKey key).length ≠ 1
  heeded : k.isIgnored (k.token key) = false

section Held

variable {k : Keyboard} {s : Stroke} {ss : List Stroke} {x : Text}

theorem mem_held_press {field key : Text} {typing : Bool} :
    x ∈ (k.press field key typing).2.input.held ↔
      x ∈ k.input.held ∨ k.Takes field key ∧ x = k.token key := by
  have hp := k.pressed field key typing
  generalize k.press field key typing = pressed at hp ⊢
  cases hp with
  | held solid named heeded =>
    refine TextSet.mem_insert.trans (or_comm.trans (or_congr_right ?_))
    exact (and_iff_right ⟨solid, named, heeded⟩).symm
  | blank plain blank => exact (or_iff_left fun ⟨h, _⟩ => by simpa [plain, blank] using h.solid).symm
  | typed _ one | cleared _ one | chord _ one => exact (or_iff_left fun ⟨h, _⟩ => h.named one).symm
  | ignored _ _ ignored =>
    refine (or_iff_left fun ⟨h, _⟩ => ?_).symm
    exact Bool.false_ne_true (h.heeded.symm.trans ignored)

theorem mem_held_release {field key : Text} :
    x ∈ (k.release field key).2.input.held ↔
      x ∈ k.input.held ∧ ¬(1 < (k.mapKey key).length ∧ x = k.token key) := by
  unfold release
  dsimp only
  split
  · next hshort => exact (and_iff_left fun h => absurd hshort (Nat.not_le.2 h.1)).symm
  · next hlong =>
    refine TextSet.mem_erase.trans (and_congr_right fun _ => not_congr ?_)
    exact (and_iff_right (Nat.not_le.1 hlong)).symm

/-- A stroke holds at most the key that it presses, and what it lets go of is not held. -/
theorem mem_held_strike (h : x ∈ (k.strike s).input.held) :
    x ∈ k.input.held ∧ k.letsGo s ≠ some x ∨
      ∃ field key typing, s = .press field key typing ∧ k.Takes field key ∧ x = k.token key := by
  cases s with
  | press field key typing =>
    rcases mem_held_press.1 h with hold | ⟨htakes, hx⟩
    · exact .inl ⟨hold, nofun⟩
    · exact .inr ⟨field, key, typing, rfl, htakes, hx⟩
  | release field key =>
    have hrelease : x ∈ (k.release field key).2.input.held := by
      unfold strike at h
      dsimp only at h
      split at h
      · next heq => rwa [heq]
      · next heq =>
        rw [heq]
        exact h
    obtain ⟨hold, hkept⟩ := mem_held_release.1 hrelease
    refine .inl ⟨hold, fun hgo => ?_⟩
    unfold letsGo at hgo
    dsimp only at hgo
    split at hgo
    · next hlong => exact hkept ⟨hlong, (Option.some.inj hgo).symm⟩
    · cases hgo
  | ignore rule =>
    obtain ⟨ignores, hs⟩ := k.strike_ignore rule
    rw [hs] at h
    exact .inl ⟨h, nofun⟩

end Held

/-- Holds when strokes lead from one keyboard to another, up to changes that leave the keys
alone. -/
inductive Struck : Keyboard → List Stroke → Keyboard → Prop
  | refl (k : Keyboard) : Struck k [] k
  | stays {k next k' : Keyboard} {ss : List Stroke} (keys : next.keys = k.keys)
      (rest : Struck next ss k') : Struck k ss k'
  | strike {k k' : Keyboard} {s : Stroke} {ss : List Stroke} (rest : Struck (k.strike s) ss k') :
      Struck k (s :: ss) k'

theorem struck_strikeAll (k : Keyboard) (ss : List Stroke) : Struck k ss (k.strikeAll ss) := by
  induction ss generalizing k with
  | nil => exact .refl k
  | cons s ss ih => exact .strike (ih (k.strike s))

section Struck

variable {k k' : Keyboard} {ss : List Stroke} {x : Text}

theorem Struck.trans {k'' : Keyboard} {ts : List Stroke} (h : Struck k ss k')
    (h' : Struck k' ts k'') : Struck k (ss ++ ts) k'' := by
  induction h with
  | refl k => exact h'
  | stays keys _ ih => exact .stays keys (ih h')
  | strike _ ih => exact .strike (ih h')

theorem Struck.of_keys (h : k'.keys = k.keys) : Struck k [] k' := .stays h (.refl k')

/-- What is held after strokes has been held all along, or was pressed by one of them; and it has
not been let go of since. -/
theorem Struck.mem_held (h : Struck k ss k') (hx : x ∈ k'.input.held) :
    (x ∈ k.input.held ∧ ∀ s ∈ ss, k.letsGo s ≠ some x) ∨
      ∃ earlier field key typing later, ss = earlier ++ .press field key typing :: later ∧
        x = k.token key ∧ (k.mapKey key).length ≠ 1 ∧ ∀ s ∈ later, k.letsGo s ≠ some x := by
  induction h with
  | refl k => exact .inl ⟨hx, by simp⟩
  | @stays k next k' ss keys _ ih =>
    have hmaps : next.modmaps = k.modmaps := congrArg Keys.modmaps keys
    have hheld : next.input.held = k.input.held := congrArg Keys.held keys
    have hgo : ∀ s, next.letsGo s = k.letsGo s := letsGo_congr hmaps
    simpa only [hheld, hgo, token, mapKey, hmaps] using ih hx
  | @strike k k' s ss _ ih =>
    -- The names of the keys stay, so the later strokes let go of the same keys as from `k`.
    have hmaps := k.modmaps_strike s
    have hgo := letsGo_congr hmaps
    have hname : ∀ key, (k.strike s).mapKey key = k.mapKey key := fun key => by
      rw [mapKey, mapKey, hmaps]
    rcases ih hx with ⟨hnext, hstays⟩ | ⟨earlier, field, key, typing, later, rfl, hx, hnamed, hlater⟩
    · have hkept : ∀ t ∈ ss, k.letsGo t ≠ some x := fun t ht => hgo t ▸ hstays t ht
      rcases mem_held_strike hnext with ⟨hold, hs⟩ | ⟨field, key, typing, rfl, htakes, hx⟩
      · exact .inl ⟨hold, List.forall_mem_cons.2 ⟨hs, hkept⟩⟩
      · exact .inr ⟨[], field, key, typing, ss, rfl, hx, htakes.named, hkept⟩
    · refine .inr ⟨s :: earlier, field, key, typing, later, rfl, ?_, ?_, ?_⟩
      · exact hx.trans (congrArg modifierToken (hname key))
      · rw [← hname key]
        exact hnamed
      · exact fun t ht => hgo t ▸ hlater t ht

end Struck

/-- Holds of a release of a key. -/
def Stroke.releases (key : Text) : Stroke → Bool
  | .release _ key' => key' = key
  | _ => false

/-- Holds when every key is released after it has been pressed. -/
def allReleased : List Stroke → Bool
  | [] => true
  | .press _ key _ :: ss => ss.any (·.releases key) && allReleased ss
  | _ :: ss => allReleased ss

section Released

variable {k : Keyboard} {ss : List Stroke}

theorem exists_release {earlier later : List Stroke} {field key : Text} {typing : Bool}
    (h : allReleased (earlier ++ .press field key typing :: later) = true) :
    ∃ field', .release field' key ∈ later := by
  induction earlier with
  | nil =>
    obtain ⟨s, hs, hkey⟩ := List.any_eq_true.1 (Bool.and_eq_true_iff.1 h).1
    cases s with
    | release field' key' => exact ⟨field', of_decide_eq_true hkey ▸ hs⟩
    | press | ignore => cases hkey
  | cons s earlier ih =>
    cases s with
    | press => exact ih (Bool.and_eq_true_iff.1 h).2
    | release | ignore => exact ih h

/-- Of released keys only those without a name are held. -/
theorem Struck.nameless {k' : Keyboard} (h : Struck k ss k') (hheld : k.input.held = ∅)
    (hreleased : allReleased ss = true) {x : Text} (hx : x ∈ k'.input.held) :
    ∃ field key typing, .press field key typing ∈ ss ∧ k.mapKey key = [] ∧ x = k.token key := by
  rcases h.mem_held hx with ⟨hold, -⟩ | ⟨earlier, field, key, typing, later, rfl, hx, hnamed, hlater⟩
  · rw [hheld] at hold
    exact absurd hold TextSet.not_mem_empty
  · obtain ⟨field', hrelease⟩ := exists_release hreleased
    refine ⟨field, key, typing, by simp, ?_, hx⟩
    have hshort : ¬1 < (k.mapKey key).length := fun hlong => by
      refine hlater _ hrelease ?_
      rw [letsGo, if_pos hlong, hx]
    exact List.length_eq_zero_iff.1 (by omega)

theorem Struck.held_eq_empty {k' : Keyboard} (h : Struck k ss k') (hheld : k.input.held = ∅)
    (hreleased : allReleased ss = true)
    (hnamed : ∀ field key typing, .press field key typing ∈ ss → k.mapKey key ≠ []) :
    k'.input.held = ∅ := by
  refine TextSet.ext_mem fun x => iff_of_false (fun hx => ?_) TextSet.not_mem_empty
  obtain ⟨field, key, typing, hpress, hnil, -⟩ := h.nameless hheld hreleased hx
  exact hnamed field key typing hpress hnil

/-- With no key held, what a key types goes to the line. -/
theorem press_of_not_held (hheld : k.input.held = ∅) {key text : Text}
    (htypes : k.types? key = some text) : k.press [] key true =
      (.update ∅, { k with input := { k.input with chording := false }.insert text }) := by
  have hnone : k.modifiers [] = ∅ := k.modifiers_nil.trans hheld
  have hplain : k.chorded [] = false := by
    unfold chorded
    rw [hnone]
    rfl
  rw [press_of_types hplain htypes, hnone, ready_of_plain hplain]

end Released

section Again

variable (k : Keyboard) (field field' key : Text) (typing : Bool)

/-- The keyboard after a key has been pressed and released. -/
def again : Keyboard := ((k.press field key typing).2.release field' key).2

theorem mem_held_again {x : Text} : x ∈ (k.again field field' key typing).input.held ↔
    (x ∈ k.input.held ∨ k.Takes field key ∧ x = k.token key) ∧
      ¬(1 < (k.mapKey key).length ∧ x = k.token key) := by
  have hfollows := k.follows_press field key typing
  have hname : (k.press field key typing).2.mapKey key = k.mapKey key := by
    rw [mapKey, mapKey, hfollows.modmaps]
  rw [again, mem_held_release, mem_held_press, hname, hfollows.token_eq]

/-- A key that is not let go of is taken only if it has no name at all. -/
theorem takes_iff_of_short {field key : Text} (hshort : (k.mapKey key).length ≤ 1) :
    k.Takes field key ↔ k.mapKey key = [] ∧ k.isIgnored (k.token key) = false := by
  constructor
  · intro htakes
    have hnamed := htakes.named
    exact ⟨List.length_eq_zero_iff.1 (by omega), htakes.heeded⟩
  · rintro ⟨hnil, hheeded⟩
    have hsolid : isSpace (k.mapKey key) = false := by rw [hnil]; rfl
    have hnamed : (k.mapKey key).length ≠ 1 := by rw [hnil]; exact Nat.zero_ne_one
    exact ⟨.inr hsolid, hnamed, hheeded⟩

theorem token_mem_held_again :
    k.token key ∈ (k.again field field' key typing).input.held ↔ (k.mapKey key).length ≤ 1 ∧
      (k.token key ∈ k.input.held ∨ k.mapKey key = [] ∧ k.isIgnored (k.token key) = false) := by
  rw [mem_held_again, and_iff_left (rfl : k.token key = k.token key),
    and_iff_left (rfl : k.token key = k.token key), Nat.not_lt, and_comm]
  exact and_congr_right fun hshort => or_congr_right (k.takes_iff_of_short hshort)

theorem other_mem_held_again {x : Text} (hx : x ≠ k.token key) :
    x ∈ (k.again field field' key typing).input.held ↔ x ∈ k.input.held := by
  rw [mem_held_again]
  simp [hx]

end Again

/-- A key that is pressed and released again is not held then, unless its name is short: a
character, whose token another key may hold, or no name at all. The other keys are held as before.
Once every pressed key has been released, only keys without a name are held. If there are none, no
key is held, and what a key types goes to the line again. -/
theorem key_released (k : Keyboard) :
    (∀ field field' key typing,
      (k.token key ∈ (k.again field field' key typing).input.held ↔ (k.mapKey key).length ≤ 1 ∧
        (k.token key ∈ k.input.held ∨ k.mapKey key = [] ∧ k.isIgnored (k.token key) = false)) ∧
      ∀ x ≠ k.token key, x ∈ (k.again field field' key typing).input.held ↔ x ∈ k.input.held) ∧
    ∀ ss, k.input.held = ∅ → allReleased ss = true →
      let after := k.strikeAll ss
      (∀ x ∈ after.input.held, ∃ field key typing, .press field key typing ∈ ss ∧
        k.mapKey key = [] ∧ x = k.token key) ∧
      ((∀ field key typing, .press field key typing ∈ ss → k.mapKey key ≠ []) →
        after.input.held = ∅ ∧ ∀ key text, after.types? key = some text →
          after.press [] key true =
            (.update ∅,
              { after with input := { after.input with chording := false }.insert text })) := by
  constructor
  · intro field field' key typing
    exact ⟨k.token_mem_held_again field field' key typing, fun _ => k.other_mem_held_again _ _ _ _⟩
  · intro ss hheld hreleased after
    have hstruck := k.struck_strikeAll ss
    refine ⟨fun x hx => hstruck.nameless hheld hreleased hx, fun hnamed => ?_⟩
    have hempty := hstruck.held_eq_empty hheld hreleased hnamed
    exact ⟨hempty, fun key text htypes => press_of_not_held hempty htypes⟩

/-- Two keys that are released in the order in which they were pressed. -/
theorem key_released_crosswise :
    let ss := [Stroke.press [] "Control_L".toList true, .press [] "Alt_L".toList true,
      .release [] "Control_L".toList, .release "Alt".toList "Alt_L".toList]
    allReleased ss = true ∧ (empty.strikeAll ss).input.held = ∅ ∧
      ((empty.strikeAll ss).press [] ['a'] true).2.input.line = ['a'] := by
  intro ss
  have hreleased : allReleased ss = true := by decide
  have hnamed : ∀ field key typing, .press field key typing ∈ ss → empty.mapKey key ≠ [] := by
    have hall : ∀ key ∈ ["Control_L".toList, "Alt_L".toList], empty.mapKey key ≠ [] := by
      decide +kernel
    intro field key typing hpress
    refine hall key ?_
    simp only [ss, List.mem_cons, Stroke.press.injEq, List.not_mem_nil, or_false, reduceCtorEq] at hpress
    rcases hpress with ⟨-, rfl, -⟩ | ⟨-, rfl, -⟩
    · exact List.mem_cons_self
    · exact List.mem_cons_of_mem _ List.mem_cons_self
  obtain ⟨-, hrun⟩ := key_released empty
  obtain ⟨-, hall⟩ := hrun ss rfl hreleased
  obtain ⟨hempty, htypes⟩ := hall hnamed
  refine ⟨hreleased, hempty, ?_⟩
  rw [htypes ['a'] ['a'] (by decide +kernel)]
  decide +kernel

/-- The key `_L` has no name but for its side. It is pressed and released, and held all the same, so
that the next character goes to the chord. -/
theorem key_released_held :
    let ss := [Stroke.press [] "_L".toList true, .release [] "_L".toList]
    let after := empty.strikeAll ss
    let next := (after.press [] ['a'] true).2
    empty.input.held = ∅ ∧ allReleased ss = true ∧ empty.token "_L".toList ∈ after.input.held ∧
      next.input.line = [] ∧ next.input.chordText = ['a'] := by
  decide +kernel

end ModalKeys.Keyboard
