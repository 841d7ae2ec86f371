import ModalKeys.Proofs.Pattern.Segments

namespace ModalKeys

theorem leadingModifiers_of_none {t : Text} (h : leadingModifier? t = none) :
    leadingModifiers t = ([], t) := by
  rw [leadingModifiers.eq_def]
  split
  · next heq => rw [h] at heq; cases heq
  · rfl

theorem leadingModifiers_of_some {t token rest : Text}
    (h : leadingModifier? t = some (token, rest)) :
    leadingModifiers t = (token :: (leadingModifiers rest).1, (leadingModifiers rest).2) := by
  rw [leadingModifiers.eq_def]
  split
  · next heq => rw [h] at heq; cases heq; rfl
  · next heq => rw [h] at heq; cases heq

namespace Pattern

section Split

theorem split_cons_of_ne {c : Char} (h : c ≠ '<') (t : Text) :
    split (c :: t) = (c :: (split t).1, (split t).2) := by
  rw [split.eq_def]
  dsimp only
  split
  · next hq => rw [if_neg h] at hq; cases hq
  · rfl

/-- A bracket that opens no prompt is a character like any other. -/
theorem split_of_no_prompt {t : Text} (h : prompt? t = none) :
    split ('<' :: t) = ('<' :: (split t).1, (split t).2) := by
  rw [split.eq_def]
  dsimp only
  split
  · next hq => rw [if_pos rfl, h] at hq; cases hq
  · rfl

theorem split_append {a : Text} (h : ∀ c ∈ a, c ≠ '<') (t : Text) :
    split (a ++ t) = (a ++ (split t).1, (split t).2) := by
  induction a with
  | nil => rfl
  | cons c a ih =>
    have hi := ih fun d hd => h d (List.mem_cons_of_mem c hd)
    rw [List.cons_append, split_cons_of_ne (h c List.mem_cons_self), hi]
    rfl

theorem split_of_prompt? {t rest : Text} {p : Prompt} (h : prompt? t = some (p, rest)) :
    split ('<' :: t) = ([], (p, (split rest).1) :: (split rest).2) := by
  rw [split.eq_def]
  dsimp only
  split
  · next q r hq =>
    rw [if_pos rfl, h] at hq
    cases hq
    rfl
  · next hq =>
    rw [if_pos rfl, h] at hq
    cases hq

end Split

theorem leadingModifiers_of_plain {t : Text} (h : ∀ c ∈ t, c ≠ '<') :
    leadingModifiers t = ([], t) := by
  refine leadingModifiers_of_none ?_
  cases t with
  | nil => rfl
  | cons c t =>
    unfold leadingModifier?
    split
    · next heq => cases heq; exact absurd rfl (h '<' List.mem_cons_self)
    · rfl

section Flag

/-- The flag of a trigger, at the end of a group, stands for it. -/
theorem cutFlag_concat {trigger : Trigger} {c : Char} (h : trigger.flag? = some c) (body : Text) :
    cutFlag (body ++ [c]) = (trigger, body) := by
  have hl : (body ++ [c]).getLast? = some c := List.getLast?_concat
  rw [cutFlag, hl]
  cases trigger with
  | typed => cases h
  | live => cases h; exact congrArg (Trigger.live, ·) List.dropLast_concat
  | entered => cases h; exact congrArg (Trigger.entered, ·) List.dropLast_concat
  | argument => cases h; exact congrArg (Trigger.argument, ·) List.dropLast_concat

theorem cutFlag_of_no_flag {group : Text}
    (h : ∀ c, group.getLast? = some c → c ≠ '*' ∧ c ≠ '!' ∧ c ≠ '_') :
    cutFlag group = (.typed, group) := by
  unfold cutFlag
  cases hl : group.getLast? with
  | none => rfl
  | some c =>
    have ht : Trigger.ofFlag c = .typed := by simp [Trigger.ofFlag, h c hl]
    simp [ht]

end Flag

/-- Groups that are not empty have no fault, if a `*` stands only at the end of the last one. -/
theorem firstError?_eq_none {pattern : Text} {prompted : Bool} {groups : List Text}
    (hne : ∀ g ∈ groups, g ≠ []) (hinit : ∀ g ∈ groups.dropLast, '*' ∉ g)
    (hlast : ∀ g, groups.getLast? = some g → '*' ∉ g.dropLast) (index : Nat) :
    firstError? pattern prompted index groups = none := by
  induction groups generalizing index with
  | nil => rfl
  | cons g groups ih =>
    have hg : groupError? pattern index prompted g groups.isEmpty = none := by
      have hw : '*' ∉ (if groups.isEmpty then g.dropLast else g) := by
        cases groups with
        | nil => exact hlast g rfl
        | cons d groups => exact hinit g List.mem_cons_self
      rw [groupError?, if_neg hw, if_neg (by simp [hne g List.mem_cons_self])]
    rw [firstError?, hg, Option.none_or]
    cases groups with
    | nil => rfl
    | cons d groups =>
      exact ih (fun e he => hne e (List.mem_cons_of_mem g he))
        (fun e he => hinit e (List.mem_cons_of_mem g he)) hlast (index + 1)

end Pattern

end ModalKeys
