import ModalKeys.Bind

namespace ModalKeys

namespace Pattern

theorem segment_more (group : Text) (index : Nat) (more : Bool) :
    (segment group index more).more = more := rfl

theorem number_length (index : Nat) (groups : List Text) :
    (number index groups).length = groups.length := by
  induction groups generalizing index with
  | nil => rfl
  | cons g gs ih =>
    cases gs with
    | nil => rfl
    | cons g' gs => simpa only [number, List.length_cons] using congrArg (· + 1) (ih (index + 1))

theorem number_getElem? (index i : Nat) (groups : List Text) :
    (number index groups)[i]? =
      groups[i]?.map fun g => segment g (index + i) (decide (i + 1 < groups.length)) := by
  induction groups generalizing index i with
  | nil => simp [number]
  | cons g gs ih =>
    cases gs with
    | nil => cases i <;> simp [number]
    | cons g' gs =>
      cases i with
      | zero => simp [number]
      | succ i =>
        change (number (index + 1) (g' :: gs))[i]? = _
        rw [ih (index + 1) i]
        simp only [List.getElem?_cons_succ, List.length_cons, Nat.add_lt_add_iff_right]
        congr 2
        funext g
        congr 1
        omega

/-- A compiled pattern comes from its groups, one more than it has prompts. -/
theorem compile_groups {source : Text} {p : Pattern} (h : compile source = .ok p) :
    ∃ groups, p.segments = number 0 groups ∧ groups.length = p.prompts.length + 1 := by
  unfold compile at h
  split at h
  · cases h
  · dsimp only at h
    split at h
    · cases h
    · cases h
      exact ⟨_, rfl, by simp⟩

theorem compile_prompts {source : Text} {p : Pattern} (h : compile source = .ok p) :
    p.segments.length = p.prompts.length + 1 := by
  obtain ⟨groups, hs, hl⟩ := compile_groups h
  rw [hs, number_length, hl]

theorem compile_more {source : Text} {p : Pattern} (h : compile source = .ok p) {i : Nat}
    {s : Segment} (hs : p.segments[i]? = some s) :
    s.more = decide (i + 1 < p.segments.length) := by
  obtain ⟨groups, hg, _⟩ := compile_groups h
  rw [hg, number_getElem?] at hs
  obtain ⟨g, _, rfl⟩ := Option.map_eq_some_iff.1 hs
  rw [segment_more, hg, number_length]

theorem isGlobal_iff {p : Pattern} :
    p.isGlobal = true ↔ ∃ s, p.segments = [s] ∧ s.isChord = true := by
  unfold isGlobal
  constructor
  · intro h
    split at h
    · next s hs => exact ⟨s, hs, h⟩
    · cases h
  · rintro ⟨s, hs, hc⟩
    rw [hs]
    exact hc

end Pattern

namespace Bind

/-- Binds of one source have one pattern. -/
theorem pattern_eq_of_source {a b : Bind} (h : a.source = b.source) : a.pattern = b.pattern := by
  have ha := a.compiled
  rw [h, b.compiled] at ha
  exact (Except.ok.inj ha).symm

theorem isGlobal_eq_of_source {a b : Bind} (h : a.source = b.source) :
    a.isGlobal = b.isGlobal := by
  unfold isGlobal
  rw [pattern_eq_of_source h]

theorem length_of_isGlobal {b : Bind} (h : b.isGlobal = true) : b.pattern.segments.length = 1 := by
  obtain ⟨s, hs, _⟩ := Pattern.isGlobal_iff.1 h
  rw [hs, List.length_singleton]

theorem isChord_of_isGlobal {b : Bind} (h : b.isGlobal = true) {depth : Nat} {s : Segment}
    (hs : b.segment? depth = some s) : s.isChord = true := by
  obtain ⟨g, hg, hc⟩ := Pattern.isGlobal_iff.1 h
  rw [segment?, if_pos h, hg] at hs
  cases hs
  exact hc

theorem segment?_of_not_isGlobal {b : Bind} (h : b.isGlobal = false) (depth : Nat) :
    b.segment? depth = b.pattern.segments[depth]? := by
  rw [segment?, h, if_neg Bool.false_ne_true]

/-- A segment that a bind is matched by has more to come as long as the bind is longer. -/
theorem more_eq {b : Bind} {depth : Nat} {s : Segment} (hs : b.segment? depth = some s) :
    s.more = decide (depth + 1 < b.pattern.segments.length) := by
  cases hg : b.isGlobal with
  | true =>
    have hl := length_of_isGlobal hg
    rw [segment?, if_pos hg, List.head?_eq_getElem?] at hs
    rw [Pattern.compile_more b.compiled hs, hl]
    simp
  | false =>
    rw [segment?_of_not_isGlobal hg] at hs
    exact Pattern.compile_more b.compiled hs

theorem more_of_isGlobal {b : Bind} (h : b.isGlobal = true) {depth : Nat} {s : Segment}
    (hs : b.segment? depth = some s) : s.more = false := by
  rw [more_eq hs, length_of_isGlobal h]
  simp

/-- A bind with more to come has a prompt to show. -/
theorem prompt?_isSome {b : Bind} {depth : Nat} (h : depth + 1 < b.pattern.segments.length) :
    (b.prompt? (depth + 1)).isSome = true := by
  have hp := Pattern.compile_prompts b.compiled
  rw [prompt?, List.getElem?_eq_getElem (by omega)]
  rfl

end Bind

end ModalKeys
