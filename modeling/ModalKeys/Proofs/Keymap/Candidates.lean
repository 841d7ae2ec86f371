import ModalKeys.Keymap
import ModalKeys.Proofs.Registry.Tables

namespace ModalKeys

/-- Nothing is held at depth zero. The binds in progress have segments left, and each segment that
has matched has captured one argument at most. -/
structure Stack.Sound (k : Stack) : Prop where
  depth_eq_zero_iff : k.depth = 0 ↔ k.args = [] ∧ k.binds = []
  lastMode : k.depth = 0 → k.lastMode = none
  pending : k.pending = none
  longer : ∀ b ∈ k.binds, k.depth < b.pattern.segments.length
  notGlobal : ∀ b ∈ k.binds, b.isGlobal = false
  args_le : k.args.length ≤ k.depth

theorem Stack.sound_empty : Stack.empty.Sound where
  depth_eq_zero_iff := by simp [Stack.empty]
  lastMode := fun _ => rfl
  pending := rfl
  longer := by simp [Stack.empty]
  notGlobal := by simp [Stack.empty]
  args_le := Nat.le_refl 0

theorem Stack.Sound.eq_empty {k : Stack} (h : k.Sound) (hd : k.depth = 0) : k = Stack.empty := by
  obtain ⟨ha, hb⟩ := h.depth_eq_zero_iff.1 hd
  have hp := h.pending
  have hl := h.lastMode hd
  cases k
  simp_all [Stack.empty]

/-- Besides the stack and the registry, the patterns on the stack are all different, and some bind
is left while a stack is in progress. -/
structure Keymap.Sound (k : Keymap) : Prop where
  registry : k.registry.Sound
  stack : k.stack.Sound
  distinct : (k.stack.binds.map (·.source)).Nodup
  binds_ne_nil : k.stack.depth ≠ 0 → k.stack.binds ≠ []

/-- Holds when a segment is of the notification's kind, under its modifiers for a chord, and takes
the text. -/
def Segment.fits (s : Segment) (note : Notification) (text : Text) : Bool :=
  decide (s.isChord = note.chord ∧ s.trigger.onExec = note.exec ∧
    (s.isChord = true → s.modifiers = note.modifiers) ∧ (s.capture? text).isSome = true)

namespace Bind

/-- Holds when the segment of a bind at a depth fits. -/
def fits (b : Bind) (depth : Nat) (note : Notification) (text : Text) : Bool :=
  (b.segment? depth).any (·.fits note text)

/-- What the segment of a bind at a depth takes from a text. -/
def captured (b : Bind) (depth : Nat) (text : Text) : List Text :=
  ((b.segment? depth).bind (·.capture? text)).getD []

/-- Holds when a bind has a segment after the one at a depth. -/
def goesOn (b : Bind) (depth : Nat) : Bool := depth + 1 < b.pattern.segments.length

/-- Holds when the segment of a bind at a depth is plain and, whatever is typed after the text, will
not fit. -/
def isDead (b : Bind) (depth : Nat) (note : Notification) (text : Text) : Bool :=
  b.answer depth note text = .dead

end Bind

theorem Segment.fits_eq (s : Segment) (note : Notification) (text : Text) :
    s.fits note text = (s.hears note && (s.capture? text).isSome) := by
  rw [Bool.eq_iff_iff]
  cases hc : s.isChord <;> simp [fits, hears, hc, and_assoc]

theorem Segment.answer_eq_fits_iff {s t : Segment} {note : Notification} {text : Text}
    {captured : List Text} :
    s.answer note text = .fits t captured ↔
      s = t ∧ s.fits note text = true ∧ s.capture? text = some captured := by
  rw [fits_eq, answer]
  cases s.hears note
  · simp
  · cases hc : s.capture? text
    · simp only [if_true]
      split <;> simp
    · simp

namespace Bind

/-- A bind that fits answers with its segment at the depth and what that takes. -/
theorem answer_of_fits {b : Bind} {depth : Nat} {note : Notification} {text : Text}
    (h : b.fits depth note text = true) :
    ∃ s, b.segment? depth = some s ∧ s.fits note text = true ∧
      s.capture? text = some (b.captured depth text) ∧
      b.answer depth note text = .fits s (b.captured depth text) := by
  obtain ⟨s, hs, hf⟩ := (Option.any_eq_true _ _).1 h
  have hc : (s.capture? text).isSome = true := by
    rw [Segment.fits_eq, Bool.and_eq_true] at hf
    exact hf.2
  obtain ⟨captured, hc⟩ := Option.isSome_iff_exists.1 hc
  have hb : b.captured depth text = captured := by simp [Bind.captured, hs, hc]
  refine ⟨s, hs, hf, hb ▸ hc, ?_⟩
  rw [answer, hs]
  exact Segment.answer_eq_fits_iff.2 ⟨rfl, hf, hb ▸ hc⟩

/-- A bind that does not fit is dead or silent. -/
theorem answer_of_not_fits {b : Bind} {depth : Nat} {note : Notification} {text : Text}
    (h : b.fits depth note text = false) :
    b.answer depth note text = if b.isDead depth note text then .dead else .silent := by
  cases ha : b.answer depth note text with
  | silent => simp [isDead, ha]
  | dead => simp [isDead, ha]
  | fits s captured =>
    rw [answer] at ha
    split at ha
    · next t ht =>
      have hf := (Segment.answer_eq_fits_iff.1 ha).2.1
      simp [fits, ht, hf] at h
    · cases ha

/-- No bind dies of a chord. -/
theorem isDead_of_chord (b : Bind) (depth : Nat) {note : Notification} (h : note.chord = true)
    (text : Text) : b.isDead depth note text = false := by
  have hs (s : Segment) : s.answer note text ≠ .dead := by
    unfold Segment.answer
    split
    · next hh =>
      have hc : s.isChord = true := by
        simp only [Segment.hears, Bool.and_eq_true, beq_iff_eq] at hh
        rw [hh.1.1, h]
      split <;> simp [hc]
    · simp
  rw [isDead, answer, decide_eq_false_iff_not]
  split
  · exact hs _
  · simp

theorem goesOn_of_isGlobal {b : Bind} (h : b.isGlobal = true) (depth : Nat) :
    b.goesOn depth = false := by
  simp [goesOn, length_of_isGlobal h]

end Bind

namespace Keymap

/-- The patterns of the candidates are all different. -/
theorem nodup_candidates {k : Keymap} (h : k.Sound) (mode : Text) :
    ((k.candidates mode).map (·.source)).Nodup := by
  unfold candidates
  split
  · exact Registry.nodup_bindsIn h.registry mode
  · rw [List.map_append]
    refine List.nodup_append.2 ⟨h.distinct, Registry.nodup_globalChords h.registry, ?_⟩
    rintro _ ha _ hc rfl
    obtain ⟨a, ha, hs⟩ := List.mem_map.1 ha
    obtain ⟨c, hc, he⟩ := List.mem_map.1 hc
    have hg := Bind.isGlobal_eq_of_source (he.trans hs.symm)
    rw [Registry.isGlobal_of_mem_globalChords h.registry hc, h.stack.notGlobal a ha] at hg
    cases hg

/-- Above depth zero a candidate that is no chord for all modes is on the stack. -/
theorem mem_binds_of_mem_candidates {k : Keymap} (h : k.Sound) (hd : k.stack.depth ≠ 0)
    {mode : Text} {b : Bind} (hb : b ∈ k.candidates mode) (hg : b.isGlobal = false) :
    b ∈ k.stack.binds := by
  rw [candidates, if_neg hd] at hb
  rcases List.mem_append.1 hb with hb | hb
  · exact hb
  · rw [Registry.isGlobal_of_mem_globalChords h.registry hb] at hg
    cases hg

end Keymap

end ModalKeys
