import Mathlib.Data.List.Nodup
import Mathlib.Data.List.TakeWhile
import ModalKeys.Proofs.Keymap.Captures

namespace ModalKeys

namespace Segment

/-- Holds when a segment is tried on each change of the line, and fits neither a text nor any that
the text can be typed on to. -/
def Stranded (s : Segment) (text : Text) : Prop :=
  s.isChord = false ∧ s.trigger.onExec = false ∧ ∀ more, s.capture? (text ++ more) = none

theorem capture?_isSome_iff (s : Segment) (text : Text) :
    (s.capture? text).isSome = true ↔
      if s.trigger.captures then s.literal <+: text else text = s.literal := by
  unfold capture?
  split
  · rw [Option.isSome_map, List.isSome_isPrefixOf?_eq_isPrefixOf, List.isPrefixOf_iff_prefix]
  · split <;> simp_all

/-- A text can be typed on to one that fits unless it leaves the literal without having completed
it. -/
theorem forall_capture?_eq_none_iff (s : Segment) (text : Text) :
    (∀ more, s.capture? (text ++ more) = none) ↔
      s.capture? text = none ∧ ¬ text <+: s.literal := by
  constructor
  · intro h
    have hnow := h []
    rw [List.append_nil] at hnow
    refine ⟨hnow, ?_⟩
    rintro ⟨more, hm⟩
    have hl : (s.capture? s.literal).isSome = true := by
      rw [capture?_isSome_iff]
      split
      · exact List.prefix_refl _
      · rfl
    rw [← hm, h more] at hl
    cases hl
  · rintro ⟨hnow, hp⟩ more
    rw [← Option.not_isSome_iff_eq_none, capture?_isSome_iff]
    rw [← Option.not_isSome_iff_eq_none, capture?_isSome_iff] at hnow
    by_cases hc : s.trigger.captures = true
    · rw [if_pos hc] at hnow ⊢
      intro hl
      -- Both begin the longer text, so one of the two begins the other.
      have hboth := List.prefix_or_prefix_of_prefix hl (List.prefix_append text more)
      exact hboth.elim hnow hp
    · rw [if_neg hc]
      intro he
      exact hp ⟨more, he⟩

theorem answer_commandUpdate_eq_dead_iff (s : Segment) (m : Modifiers) (text : Text) :
    s.answer (.commandUpdate m) text = .dead ↔ s.Stranded text := by
  have hh : s.hears (.commandUpdate m) = true ↔ s.isChord = false ∧ s.trigger.onExec = false := by
    cases hc : s.isChord <;> simp [hears, hc, Notification.commandUpdate]
  unfold Stranded
  rw [forall_capture?_eq_none_iff, answer, ← and_assoc, ← hh]
  by_cases hb : s.hears (.commandUpdate m) = true
  · have hc := (hh.1 hb).1
    have hx : (Notification.commandUpdate m).exec = false := rfl
    cases s.capture? text <;> simp [hb, hc, hx]
  · simp [hb]

end Segment

namespace Bind

/-- Holds when the segment of a bind at a depth is stranded. -/
def Stranded (b : Bind) (depth : Nat) (text : Text) : Prop :=
  ∃ s, b.segment? depth = some s ∧ s.Stranded text

theorem isDead_commandUpdate_iff (b : Bind) (depth : Nat) (m : Modifiers) (text : Text) :
    b.isDead depth (.commandUpdate m) text = true ↔ b.Stranded depth text := by
  unfold isDead answer Stranded
  rw [decide_eq_true_eq]
  cases b.segment? depth with
  | none => simp
  | some s => simp [Segment.answer_commandUpdate_eq_dead_iff]

instance (b : Bind) (depth : Nat) (text : Text) : Decidable (b.Stranded depth text) :=
  decidable_of_iff _ (b.isDead_commandUpdate_iff depth ∅ text)

end Bind

/-- The stack with other binds. -/
def Stack.withBinds (k : Stack) (binds : List Bind) : Stack := { k with binds }

namespace Keymap

variable {k : Keymap} {mode : Text} {note : Notification} {text : Text}

/-- Where nothing fits, the whole scan is ahead of what fits, and each dead bind loses its place. -/
theorem kept_of_no_match (h : k.Sound) (hd : k.stack.depth ≠ 0)
    (hm : k.matching mode note text = []) :
    k.kept mode note text =
      k.stack.withBinds (k.stack.binds.filter (!·.isDead k.stack.depth note text)) := by
  have hall : (k.candidates mode).takeWhile (!·.fits k.stack.depth note text) =
      k.candidates mode := by
    have hn := List.filter_eq_nil_iff.1 hm
    apply List.takeWhile_eq_self_iff.2
    intro b hb
    simpa using hn b hb
  have hone := List.inj_on_of_nodup_map (nodup_candidates h mode)
  rw [kept, if_neg hd, hall]
  apply congrArg k.stack.withBinds
  apply List.filter_congr
  intro b hb
  have hc : b ∈ k.candidates mode := by simp [candidates, hd, hb]
  rw [Bool.eq_iff_iff, List.all_eq_true]
  constructor
  · intro hw
    cases hb : b.isDead k.stack.depth note text with
    | false => rfl
    | true => simpa using hw b (List.mem_filter.2 ⟨hc, hb⟩)
  · intro hb d hdead
    obtain ⟨hd, hdead⟩ := List.mem_filter.1 hdead
    have hne : b.source ≠ d.source := by
      intro he
      have heq : b = d := hone hc hd he
      simp [heq, hdead] at hb
    simpa using hne

/-- While a text is typed that no candidate fits, the stack loses just the binds that it strands,
and keeps the others in their order; the keymap leaves the stack as soon as it holds none. -/
theorem respond_of_no_match (h : k.Reachable) (hd : k.stack.depth ≠ 0) (m : Modifiers)
    (hm : k.matching mode (.commandUpdate m) text = []) :
    let left := k.stack.binds.filter fun b => ¬ b.Stranded k.stack.depth text
    (left ≠ [] → k.respond mode (.commandUpdate m) text =
      ([], { k with stack := k.stack.withBinds left })) ∧
    (left = [] → k.respond mode (.commandUpdate m) text =
      ([.leaveStack k.stack.lastMode], k.reset)) := by
  intro left
  have hk : k.kept mode (.commandUpdate m) text = k.stack.withBinds left := by
    rw [kept_of_no_match h.sound hd hm]
    apply congrArg k.stack.withBinds
    apply List.filter_congr
    intro b _
    have hb := b.isDead_commandUpdate_iff k.stack.depth m text
    cases hdead : b.isDead k.stack.depth (.commandUpdate m) text <;> simp [← hb, hdead]
  have hp : (k.stack.withBinds left).pending = none := h.sound.stack.pending
  have hs : k.step mode (.commandUpdate m) text =
      (k.stack.withBinds left).giveUp k.stack.depth (.commandUpdate m) := by
    rw [step_of_no_fit k hm, hk, start_close hp]
  have hn : (Notification.commandUpdate m).submits = false := rfl
  constructor
  · intro hl
    have hg : (k.stack.withBinds left).giveUp k.stack.depth (.commandUpdate m) =
        ([], k.stack.withBinds left) := by
      simp [Stack.giveUp, Stack.withBinds, hn, hl]
    rw [respond, hs, hg]
  · intro hl
    have hg : (k.stack.withBinds left).giveUp k.stack.depth (.commandUpdate m) =
        ([.leaveStack k.stack.lastMode], .empty) := by
      simp [Stack.giveUp, Stack.withBinds, Stack.unwind, hl, hd]
    rw [respond, hs, hg]
    rfl

/-- Of three binds that wait for their second segment, `b` strands the one that waits for `a`. -/
theorem respond_of_no_match_one_stranded :
    let k := after (Operation.define "d<n:>a".toList "first %s".toList ++
      Operation.define "d<n:>bc".toList "second %s".toList ++
        Operation.define "d<n:>_".toList "third %s".toList ++
          [.notify "command".toList (.commandUpdate ∅) "d".toList])
    k.stack.depth ≠ 0 ∧ k.matching stackMode (.commandUpdate ∅) "b".toList = [] ∧
      ∃ left, left.map (·.source) = ["d<n:>bc".toList, "d<n:>_".toList] ∧
        k.respond stackMode (.commandUpdate ∅) "b".toList =
          ([], { k with stack := k.stack.withBinds left }) := by
  intro k
  have hd : k.stack.depth ≠ 0 := by decide +kernel
  have hm : k.matching stackMode (.commandUpdate ∅) "b".toList = [] :=
    List.isEmpty_iff.1 (by decide +kernel)
  have hl : (k.stack.binds.filter fun b => ¬ b.Stranded k.stack.depth "b".toList).map (·.source) =
      ["d<n:>bc".toList, "d<n:>_".toList] := by decide +kernel
  have hne : (k.stack.binds.filter fun b => ¬ b.Stranded k.stack.depth "b".toList) ≠ [] := by
    intro he
    rw [he] at hl
    cases hl
  exact ⟨hd, hm, _, hl, (respond_of_no_match ⟨_, rfl⟩ hd ∅ hm).1 hne⟩

end Keymap

end ModalKeys
