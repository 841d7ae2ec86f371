import ModalKeys.Proofs.Keyboard.Reported

namespace ModalKeys

theorem TextSet.erase_of_not_mem {s : TextSet} {x : Text} (h : x ∉ s) : s.erase x = s :=
  TextSet.ext_mem fun z => by
    rw [TextSet.mem_erase]
    refine and_iff_left_of_imp ?_
    rintro hz rfl
    exact h hz

namespace Keyboard

/-- Holds for a named key whose token a rule ignores. -/
structure Ignores (k : Keyboard) (key : Text) : Prop where
  long : 1 < (k.mapKey key).length
  solid : isSpace (k.mapKey key) = false
  ignored : k.isIgnored (k.token key) = true

instance (k : Keyboard) (key : Text) : Decidable (k.Ignores key) :=
  decidable_of_iff (1 < (k.mapKey key).length ∧ isSpace (k.mapKey key) = false ∧
      k.isIgnored (k.token key) = true)
    ⟨fun h => ⟨h.1, h.2.1, h.2.2⟩, fun h => ⟨h.long, h.solid, h.ignored⟩⟩

/-- The keys that are held, with what tells one key from another. -/
structure Keys where
  modmaps : Assoc Text
  ignores : Assoc Wildcard
  held : Modifiers

def keys (k : Keyboard) : Keys := ⟨k.modmaps, k.ignores, k.input.held⟩

/-- Holds when `k'` has the map and the rules of `k`, and no key held in addition that a rule
ignores. -/
structure Follows (k k' : Keyboard) : Prop where
  modmaps : k'.modmaps = k.modmaps
  ignores : k'.ignores = k.ignores
  held : ∀ token ∈ k'.input.held, token ∈ k.input.held ∨ k.isIgnored token = false

section Successor

variable {k k' k'' : Keyboard} {key : Text}

theorem Follows.of_keys (h : k'.keys = k.keys) : Follows k k' := by
  have hheld : k'.input.held = k.input.held := congrArg Keys.held h
  exact ⟨congrArg Keys.modmaps h, congrArg Keys.ignores h, fun _ ht => .inl (hheld ▸ ht)⟩

theorem Follows.trans (h : Follows k k') (h' : Follows k' k'') : Follows k k'' where
  modmaps := h'.modmaps.trans h.modmaps
  ignores := h'.ignores.trans h.ignores
  held := fun token ht => by
    rcases h'.held token ht with ht | hi
    · exact h.held token ht
    · rw [isIgnored, h.ignores] at hi
      exact .inr hi

theorem Follows.token_eq (h : Follows k k') (key : Text) : k'.token key = k.token key := by
  rw [token, token, mapKey, mapKey, h.modmaps]

theorem Ignores.of_follows (hkey : k.Ignores key) (h : Follows k k') : k'.Ignores key := by
  have hname : k'.mapKey key = k.mapKey key := by rw [mapKey, mapKey, h.modmaps]
  refine ⟨hname ▸ hkey.long, hname ▸ hkey.solid, ?_⟩
  rw [isIgnored, h.ignores, h.token_eq]
  exact hkey.ignored

/-- An ignored key that is not held does not come to be held. -/
theorem Ignores.not_mem_held (hkey : k.Ignores key) (hn : k.token key ∉ k.input.held)
    (h : Follows k k') : k'.token key ∉ k'.input.held := by
  rw [h.token_eq]
  intro ht
  rcases h.held _ ht with ht | hi
  · exact hn ht
  · rw [hkey.ignored] at hi
    cases hi

end Successor

section Press

variable {k : Keyboard} {key : Text}

theorem modifiers_nil (k : Keyboard) : k.modifiers [] = k.input.held :=
  TextSet.ext_mem fun _ => mem_modifiers_nil

/-- The press of an ignored key tells of the keys that are held, and they say whether a chord is
active. -/
theorem Ignores.press_eq (h : k.Ignores key) (typing : Bool) :
    k.press [] key typing = (.update k.input.held,
      k.holding k.input.held (k.input.held.toList.any (!k.isIgnored ·))) := by
  have hone : (k.mapKey key).length ≠ 1 := Nat.ne_of_gt h.long
  have hignored : k.isIgnored (modifierToken (k.mapKey key)) = true := h.ignored
  unfold press
  simp only [modifiers_nil, h.solid, hone, hignored, Bool.and_false, Bool.false_eq_true, if_false,
    if_true, decide_false]
  rfl

theorem Ignores.press_idle (h : k.Ignores key) (hheld : k.input.held = ∅)
    (hc : k.input.chording = false) (typing : Bool) : k.press [] key typing = (.update ∅, k) := by
  have hsame : k.holding ∅ false = k := by
    unfold holding
    rw [← hheld, ← hc]
  rw [h.press_eq, hheld]
  exact congrArg (Prod.mk (Press.update ∅)) hsame

/-- While a chord is active an ignored key ends it, like any other named key. -/
theorem Ignores.release_eq (h : k.Ignores key) (hheld : k.token key ∉ k.input.held)
    (hc : k.input.chording = true) : k.release [] key = (.named (some k.input.held), k) := by
  have hlong : ¬(k.mapKey key).length ≤ 1 := Nat.not_le.2 h.long
  have herase : k.input.held.erase (modifierToken (k.mapKey key)) = k.input.held :=
    TextSet.erase_of_not_mem hheld
  unfold release
  dsimp only
  rw [if_neg hlong, herase, if_pos hc, modifiers_nil]

/-- A press changes no map and no rule, and holds no ignored key. -/
theorem follows_press (k : Keyboard) (field key : Text) (typing : Bool) :
    Follows k (k.press field key typing).2 := by
  have hp := k.pressed field key typing
  generalize k.press field key typing = pressed at hp ⊢
  cases hp with
  | held _ _ heeded =>
    refine ⟨rfl, rfl, fun token ht => ?_⟩
    rcases TextSet.mem_insert.1 ht with rfl | ht
    · exact .inr heeded
    · exact .inl ht
  | _ => exact .of_keys rfl

end Press

end Keyboard

end ModalKeys
