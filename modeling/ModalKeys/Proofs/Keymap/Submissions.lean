import ModalKeys.Proofs.Keymap.Captures
import ModalKeys.Proofs.Keymap.FirstMatch

namespace ModalKeys

/-- A line that is submitted in a mode. -/
structure Submission where
  mode : Text
  modifiers : Modifiers
  text : Text

namespace Keymap

variable {k : Keymap} {mode : Text} {note : Notification} {text : Text}

/-- Above depth zero, the binds that fit and go on have been on the stack. -/
theorem mem_binds_of_matching (h : k.Sound) (hd : k.stack.depth ≠ 0) {b : Bind}
    (hb : b ∈ k.matching mode note text) (hg : b.goesOn k.stack.depth = true) :
    b ∈ k.stack.binds := by
  have hn : b.isGlobal = false := by
    cases hi : b.isGlobal with
    | false => rfl
    | true => rw [Bind.goesOn_of_isGlobal hi] at hg; cases hg
  exact mem_binds_of_mem_candidates h hd (List.mem_filter.1 hb).1 hn

/-- A submission ends a stack, or moves it on by one segment without a new bind. -/
theorem Outcome.of_submits {reactions : List Reaction} {stack : Stack}
    (ho : k.Outcome mode note text reactions stack) (h : k.Sound) (hd : k.stack.depth ≠ 0)
    (hn : note.submits = true) :
    stack = .empty ∨ (stack.depth = k.stack.depth + 1 ∧ ∀ b ∈ stack.binds, b ∈ k.stack.binds) := by
  obtain ⟨hexec, hchord⟩ : note.exec = true ∧ note.chord = false := by
    simpa [Notification.submits] using hn
  cases ho with
  | idle unmatched stays =>
    rcases stays with h0 | ⟨hs, -⟩
    · exact absurd h0 hd
    · rw [hn] at hs
      cases hs
  | unwound unmatched stacked ends => exact .inl rfl
  | @alone fit _ fitted last free =>
    -- A chord that fires at every depth does not hear a line.
    have hg := free.resolve_right hd
    have hc : fit.segment.isChord = note.chord := (of_decide_eq_true fitted.fits).1
    rw [Bind.isChord_of_isGlobal hg fitted.segment, hchord] at hc
    cases hc
  | @live fit _ fitted last bound stacked trigger =>
    have hx : fit.segment.trigger.onExec = note.exec := (of_decide_eq_true fitted.fits).2.1
    rw [trigger, hexec] at hx
    cases hx
  | completed fitted last bound stacked trigger => exact .inl rfl
  | @moved fit later fitted more =>
    have hm : ∀ b ∈ fit.bind :: later, b ∈ k.matching mode note text := by
      rw [fitted.matching]
      exact fun b hb => hb
    refine .inr ⟨rfl, fun b hb => ?_⟩
    rcases List.mem_cons.1 hb with rfl | hb
    · exact mem_binds_of_matching h hd (hm _ List.mem_cons_self) (fitted.goesOn_eq.trans more)
    · obtain ⟨hl, hg⟩ := List.mem_filter.1 hb
      exact mem_binds_of_matching h hd (hm b (List.mem_cons_of_mem _ hl)) hg

def submit (k : Keymap) (s : Submission) : Keymap :=
  (k.respond s.mode (.commandExec s.modifiers) s.text).2

def submitAll (k : Keymap) (subs : List Submission) : Keymap := subs.foldl submit k

theorem submit_cases (h : k.Sound) (hd : k.stack.depth ≠ 0) (s : Submission) :
    (k.submit s).stack = .empty ∨ ((k.submit s).stack.depth = k.stack.depth + 1 ∧
      ∀ b ∈ (k.submit s).stack.binds, b ∈ k.stack.binds) :=
  (step_outcome h s.mode (.commandExec s.modifiers) s.text).of_submits h hd rfl

/-- Each submission that does not end a stack uses up a segment of each bind that is left on it. -/
theorem exists_unstacked (h : k.Sound) (hd : k.stack.depth ≠ 0) {n : Nat}
    (hb : ∀ b ∈ k.stack.binds, b.pattern.segments.length ≤ n) {subs : List Submission}
    (hl : n ≤ k.stack.depth + subs.length) :
    ∃ i < subs.length, (k.submitAll (subs.take (i + 1))).stack.depth = 0 := by
  induction subs generalizing k with
  | nil =>
    obtain ⟨b, hm⟩ := List.exists_mem_of_ne_nil _ (h.binds_ne_nil hd)
    have hlonger := h.stack.longer b hm
    have hshorter := hb b hm
    simp only [List.length_nil] at hl
    omega
  | cons s subs ih =>
    by_cases h0 : (k.submit s).stack.depth = 0
    · exact ⟨0, Nat.succ_pos _, h0⟩
    · obtain ⟨hdepth, hbinds⟩ := (submit_cases h hd s).resolve_left
        fun he => h0 (congrArg Stack.depth he)
      have hl' : n ≤ (k.submit s).stack.depth + subs.length := by
        rw [hdepth]
        simp only [List.length_cons] at hl
        omega
      obtain ⟨i, hi, hz⟩ := ih (sound_respond h _ _ _) h0
        (fun b hm => hb b (hbinds b hm)) hl'
      exact ⟨i + 1, Nat.succ_lt_succ hi, hz⟩

/-- No stack is a trap. A submission, whatever its mode and its text, leaves it or goes one segment
deeper; and among as many submissions as the binds on the stack have segments to come, one leaves
it. -/
theorem submissions_leave_stack (h : k.Reachable) (hd : k.stack.depth ≠ 0) :
    (∀ s, (k.submit s).stack.depth = 0 ∨ (k.submit s).stack.depth = k.stack.depth + 1) ∧
    ∀ n, (∀ b ∈ k.stack.binds, b.pattern.segments.length ≤ n) →
      ∀ subs : List Submission, subs.length = n - k.stack.depth →
        ∃ i < subs.length, (k.submitAll (subs.take (i + 1))).stack.depth = 0 := by
  constructor
  · intro s
    rcases submit_cases h.sound hd s with he | ⟨hdepth, -⟩
    · exact .inl (congrArg Stack.depth he)
    · exact .inr hdepth
  · intro n hb subs hl
    exact exists_unstacked h.sound hd hb (by omega)

/-- Two binds begin with the same prompts and take any first answers; three submissions, the last of
which neither bind takes, are enough. -/
theorem submissions_leave_stack_shared :
    let k := after (Operation.define "m<a:>_<b:>x!".toList "first %s".toList ++
      Operation.define "m<a:>_<b:>_<c:>y!".toList "second %s".toList ++
        [.notify "command".toList (.commandUpdate ∅) "m".toList])
    let subs : List Submission := ["p", "q", "z"].map fun t => ⟨stackMode, ∅, t.toList⟩
    k.stack.depth = 1 ∧ k.stack.binds.map (·.pattern.segments.length) = [3, 4] ∧
      subs.length = 4 - k.stack.depth ∧
      ∃ i < subs.length, (k.submitAll (subs.take (i + 1))).stack.depth = 0 := by
  intro k subs
  have hd : k.stack.depth = 1 := by decide +kernel
  have hb : k.stack.binds.map (·.pattern.segments.length) = [3, 4] := by decide +kernel
  have hl : subs.length = 4 - k.stack.depth := by rw [hd]; rfl
  have hle : ∀ b ∈ k.stack.binds, b.pattern.segments.length ≤ 4 := by
    intro b hm
    have hm : b.pattern.segments.length ∈ [3, 4] := hb ▸ List.mem_map_of_mem hm
    have hall : ∀ n ∈ [3, 4], n ≤ 4 := by decide
    exact hall _ hm
  have hne : k.stack.depth ≠ 0 := by rw [hd]; decide
  exact ⟨hd, hb, hl, (submissions_leave_stack ⟨_, rfl⟩ hne).2 4 hle subs hl⟩

end Keymap

end ModalKeys
