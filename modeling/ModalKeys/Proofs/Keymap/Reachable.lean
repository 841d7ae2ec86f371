import ModalKeys.Proofs.Keymap.Outcome

namespace ModalKeys

namespace Segment

theorem length_of_capture? {s : Segment} {text : Text} {captured : List Text}
    (h : s.capture? text = some captured) : captured.length ≤ 1 := by
  unfold capture? at h
  split at h
  · obtain ⟨rest, _, rfl⟩ := Option.map_eq_some_iff.1 h
    exact Nat.le_refl 1
  · split at h <;> cases h
    exact Nat.zero_le 1

end Segment

namespace Keymap

variable {k : Keymap} {mode : Text} {note : Notification} {text : Text}

/-- The scan drops binds other than the first that fits, so that one keeps its place. -/
theorem Fitted.mem_kept (h : k.Sound) {fit : Fit} {later : List Bind}
    (hf : k.Fitted mode note text fit later) (bound : fit.bind.isGlobal = false)
    (stacked : k.stack.depth ≠ 0) : fit.bind ∈ (k.kept mode note text).binds := by
  obtain ⟨before, after, hc, -, -, -, ht, -⟩ := step_of_fit k hf.matching
  have hn := nodup_candidates h mode
  have hm : fit.bind ∈ k.candidates mode := by simp [hc]
  have hb : fit.bind ∈ k.stack.binds := mem_binds_of_mem_candidates h stacked hm bound
  rw [kept, if_neg stacked, Stack.mem_without, ht]
  refine ⟨hb, fun d hd => ?_⟩
  rw [hc, List.map_append, List.nodup_append] at hn
  have hs : d.source ∈ before.map (·.source) := List.mem_map_of_mem (List.mem_filter.1 hd).1
  exact (hn.2.2 d.source hs fit.bind.source (by simp)).symm

theorem sound_empty : empty.Sound where
  registry := Registry.sound_empty
  stack := Stack.sound_empty
  distinct := List.nodup_nil
  binds_ne_nil := fun h => absurd rfl h

theorem sound_reset (h : k.Sound) : k.reset.Sound where
  registry := h.registry
  stack := Stack.sound_empty
  distinct := List.nodup_nil
  binds_ne_nil := fun h => absurd rfl h

/-- Losing the dead binds leaves a sound stack as long as some bind is left. -/
theorem sound_kept (h : k.Sound) (hb : k.stack.depth ≠ 0 → (k.kept mode note text).binds ≠ []) :
    Sound { k with stack := k.kept mode note text } := by
  have hs := kept_sublist k mode note text
  refine ⟨h.registry, ⟨?_, ?_, ?_, ?_, ?_, ?_⟩, h.distinct.sublist (hs.map _), ?_⟩
  · simp only [kept_depth, kept_args]
    constructor
    · intro hd
      obtain ⟨ha, hn⟩ := h.stack.depth_eq_zero_iff.1 hd
      rw [hn] at hs
      exact ⟨ha, List.sublist_nil.1 hs⟩
    · rintro ⟨-, hn⟩
      exact Decidable.byContradiction fun hd => hb hd hn
  · simpa only [kept_depth, kept_lastMode] using h.stack.lastMode
  · simpa only [kept_pending] using h.stack.pending
  · intro b hm
    simpa only [kept_depth] using h.stack.longer b (hs.subset hm)
  · exact fun b hm => h.stack.notGlobal b (hs.subset hm)
  · simpa only [kept_depth, kept_args] using h.stack.args_le
  · simpa only [kept_depth] using hb

/-- The stack that a bind has moved on holds binds that go on, and one argument more at most. -/
theorem sound_moved (h : k.Sound) {fit : Fit} {later : List Bind}
    (hf : k.Fitted mode note text fit later) (more : fit.segment.more = true)
    (lastMode : Option Text) :
    Sound { k with stack := ⟨k.stack.depth + 1, k.stack.args ++ fit.captured,
      fit.bind :: later.filter (·.goesOn k.stack.depth), none, lastMode⟩ } := by
  have hgoes : ∀ b ∈ fit.bind :: later.filter (·.goesOn k.stack.depth),
      b.goesOn k.stack.depth = true := by
    intro b hb
    rcases List.mem_cons.1 hb with rfl | hb
    · rw [Bind.goesOn, ← Bind.more_eq hf.segment, more]
    · exact (List.mem_filter.1 hb).2
  refine ⟨h.registry, ⟨?_, ?_, rfl, ?_, ?_, ?_⟩, hf.nodup h, ?_⟩
  · simp
  · simp
  · intro b hb
    exact of_decide_eq_true (hgoes b hb)
  · intro b hb
    cases hg : b.isGlobal with
    | false => rfl
    | true => simpa [Bind.goesOn_of_isGlobal hg] using hgoes b hb
  · have hc := Segment.length_of_capture? hf.captured
    have ha := h.stack.args_le
    simp only [List.length_append]
    omega
  · simp

theorem Outcome.sound (h : k.Sound) {reactions : List Reaction} {stack : Stack}
    (ho : k.Outcome mode note text reactions stack) : Sound { k with stack } := by
  cases ho with
  | idle unmatched stays =>
    refine sound_kept h fun hd => ?_
    rcases stays with h0 | ⟨-, hb⟩
    · exact absurd h0 hd
    · exact hb
  | unwound unmatched stacked ends => exact sound_reset h
  | alone fitted last free => exact h
  | live fitted last bound stacked trigger =>
    exact sound_kept h fun _ => List.ne_nil_of_mem (fitted.mem_kept h bound stacked)
  | completed fitted last bound stacked trigger => exact sound_reset h
  | moved fitted more => exact sound_moved h fitted more _

theorem sound_respond (h : k.Sound) (mode : Text) (note : Notification) (text : Text) :
    (k.respond mode note text).2.Sound :=
  (step_outcome h mode note text).sound h

/-- The keymap after a change of its registry. -/
def edit (k : Keymap) (e : Registry.Edit) : Keymap := { k with registry := k.registry.edit e }

theorem sound_edit (h : k.Sound) (e : Registry.Edit) : (k.edit e).Sound :=
  ⟨Registry.sound_edit h.registry e, h.stack, h.distinct, h.binds_ne_nil⟩

/-- What can be done to a keymap. -/
inductive Operation
  | edit (e : Registry.Edit)
  | notify (mode : Text) (note : Notification) (text : Text)
  | reset

def apply (k : Keymap) : Operation → Keymap
  | .edit e => k.edit e
  | .notify mode note text => (k.respond mode note text).2
  | .reset => k.reset

/-- The keymap that some operations, in order, make of an empty one. -/
def after (ops : List Operation) : Keymap := ops.foldl apply empty

theorem sound_apply (h : k.Sound) (op : Operation) : (k.apply op).Sound := by
  cases op with
  | edit e => exact sound_edit h e
  | notify mode note text => exact sound_respond h mode note text
  | reset => exact sound_reset h

theorem sound_foldl_apply (h : k.Sound) (ops : List Operation) : (ops.foldl apply k).Sound := by
  induction ops generalizing k with
  | nil => exact h
  | cons op ops ih => exact ih (sound_apply h op)

/-- Whatever is added, deleted, matched and reset, in any order, the stack stays sound. -/
theorem stack_sound_after (ops : List Operation) : (after ops).stack.Sound :=
  (sound_foldl_apply sound_empty ops).stack

def Reachable (k : Keymap) : Prop := ∃ ops, after ops = k

namespace Reachable

theorem sound (h : k.Reachable) : k.Sound := by
  obtain ⟨ops, rfl⟩ := h
  exact sound_foldl_apply sound_empty ops

theorem empty : Keymap.empty.Reachable := ⟨[], rfl⟩

theorem apply (h : k.Reachable) (op : Operation) : (k.apply op).Reachable := by
  obtain ⟨ops, rfl⟩ := h
  exact ⟨ops ++ [op], by simp [after, List.foldl_append]⟩

theorem respond (h : k.Reachable) (mode : Text) (note : Notification) (text : Text) :
    (k.respond mode note text).2.Reachable := h.apply (.notify mode note text)

theorem reset (h : k.Reachable) : k.reset.Reachable := h.apply .reset

theorem edit (h : k.Reachable) (e : Registry.Edit) : (k.edit e).Reachable := h.apply (.edit e)

theorem editAll (h : k.Reachable) (es : List Registry.Edit) :
    Reachable { k with registry := k.registry.editAll es } := by
  induction es generalizing k with
  | nil => exact h
  | cons e es ih => exact ih (h.edit e)

end Reachable

end Keymap

end ModalKeys
