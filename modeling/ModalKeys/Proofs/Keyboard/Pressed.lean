import ModalKeys.Keyboard

namespace ModalKeys.Keyboard

/-- Holds when a modifier is active with a key that no rule ignores. -/
def chorded (k : Keyboard) (field : Text) : Bool :=
  (k.modifiers field).toList.any (!k.isIgnored ·)

/-- The input of a press before its key counts. -/
def ready (k : Keyboard) (field : Text) : Input := { k.input with chording := k.chorded field }

/-- All that a press can do. What the key does depends on whether a chord is active then, on the
length of its name and on the rules. -/
inductive Pressed (k : Keyboard) (field key : Text) : Bool → Press × Keyboard → Prop
  | blank {typing : Bool} (plain : k.chorded field = false) (blank : isSpace (k.mapKey key) = true) :
      Pressed k field key typing
        (.update (k.modifiers field), { k with input := (k.ready field).insert [' '] })
  | typed (plain : k.chorded field = false) (one : (k.mapKey key).length = 1) :
      Pressed k field key true
        (.update (k.modifiers field), { k with input := (k.ready field).insert (k.mapKey key) })
  | cleared (plain : k.chorded field = false) (one : (k.mapKey key).length = 1) :
      Pressed k field key false (.cleared, { k with input := (k.ready field).clearLine })
  | chord {typing : Bool} (chorded : k.chorded field = true) (one : (k.mapKey key).length = 1) :
      Pressed k field key typing
        (.update (k.modifiers field), { k with input := (k.ready field).appendChord (k.mapKey key) })
  | ignored {typing : Bool} (solid : k.chorded field = true ∨ isSpace (k.mapKey key) = false)
      (named : (k.mapKey key).length ≠ 1) (ignored : k.isIgnored (modifierToken (k.mapKey key)) = true) :
      Pressed k field key typing (.update (k.modifiers field), { k with input := k.ready field })
  | held {typing : Bool} (solid : k.chorded field = true ∨ isSpace (k.mapKey key) = false)
      (named : (k.mapKey key).length ≠ 1) (heeded : k.isIgnored (modifierToken (k.mapKey key)) = false) :
      Pressed k field key typing
        (.update ((k.modifiers field).insert (modifierToken (k.mapKey key))),
          { k with input := { k.ready field with
            held := k.input.held.insert (modifierToken (k.mapKey key)), chording := true } })

theorem pressed (k : Keyboard) (field key : Text) (typing : Bool) :
    Pressed k field key typing (k.press field key typing) := by
  have hcase : k.chorded field = false ∨ k.chorded field = true := by cases k.chorded field <;> simp
  unfold press
  change Pressed k field key typing (if (!k.chorded field && isSpace (k.mapKey key)) = true then _
    else if (!k.chorded field && (k.mapKey key).length = 1) = true then _ else _)
  split
  · next hblank =>
    obtain ⟨hplain, hspace⟩ := Bool.and_eq_true_iff.1 hblank
    exact .blank (by simpa using hplain) hspace
  next hblank =>
  have hsolid : k.chorded field = true ∨ isSpace (k.mapKey key) = false := by
    refine hcase.symm.imp_right fun hplain => ?_
    simpa [hplain] using hblank
  split
  · next htyped =>
    obtain ⟨hplain, hone⟩ := Bool.and_eq_true_iff.1 htyped
    have hplain : k.chorded field = false := by simpa using hplain
    cases typing with
    | true => exact .typed hplain (of_decide_eq_true hone)
    | false => exact .cleared hplain (of_decide_eq_true hone)
  next htyped =>
  split
  · next hone =>
    refine .chord (hcase.resolve_left fun hplain => ?_) hone
    simp [hplain, hone] at htyped
  next hone =>
  dsimp only
  split
  · next hignored => exact .ignored hsolid hone hignored
  · next hheeded => exact .held hsolid hone (Bool.eq_false_iff.2 hheeded)

/-- What a key types as long as no chord is active. -/
def types? (k : Keyboard) (key : Text) : Option Text :=
  if isSpace (k.mapKey key) then some [' ']
  else if (k.mapKey key).length = 1 then some (k.mapKey key)
  else none

section Plain

variable {k : Keyboard} {field key text : Text} (hplain : k.chorded field = false)

include hplain

theorem ready_of_plain : k.ready field = { k.input with chording := false } := by
  unfold ready
  rw [hplain]

/-- The blank is inserted whether typing is on or off. -/
theorem press_of_blank (hblank : isSpace (k.mapKey key) = true) (typing : Bool) :
    k.press field key typing =
      (.update (k.modifiers field), { k with input := (k.ready field).insert [' '] }) := by
  have hlong : (k.mapKey key).length ≠ 1 := fun hone => by
    have hfive := congrArg List.length (of_decide_eq_true hblank)
    rw [List.length_map, hone] at hfive
    cases hfive
  have hp := k.pressed field key typing
  generalize k.press field key typing = pressed at hp ⊢
  cases hp with
  | blank => rfl
  | typed _ one | cleared _ one => exact absurd one hlong
  | chord chorded => simp [hplain] at chorded
  | ignored solid | held solid => simp [hplain, hblank] at solid

/-- Any other key that types something has a single character for its name. -/
theorem press_of_solid (hsolid : isSpace (k.mapKey key) = false) (h : k.types? key = some text)
    (typing : Bool) : k.press field key typing =
      if typing then (.update (k.modifiers field), { k with input := (k.ready field).insert text })
      else (.cleared, { k with input := (k.ready field).clearLine }) := by
  unfold types? at h
  rw [hsolid, if_neg Bool.false_ne_true] at h
  have hp := k.pressed field key typing
  generalize k.press field key typing = pressed at hp ⊢
  cases hp with
  | blank _ blank => simp [hsolid] at blank
  | typed _ one =>
    rw [if_pos one] at h
    cases h
    rfl
  | cleared => rfl
  | chord chorded => simp [hplain] at chorded
  | ignored _ named | held _ named =>
    rw [if_neg named] at h
    cases h

/-- Without a chord a key that types something adds it to the line. -/
theorem press_of_types (h : k.types? key = some text) : k.press field key true =
    (.update (k.modifiers field), { k with input := (k.ready field).insert text }) := by
  cases hblank : isSpace (k.mapKey key) with
  | true =>
    rw [types?, if_pos hblank] at h
    cases h
    exact press_of_blank hplain hblank true
  | false => exact press_of_solid hplain hblank h true

end Plain

end ModalKeys.Keyboard
