import Mathlib.Data.List.Basic
import ModalKeys.Proofs.Keymap.Outcome
import ModalKeys.Proofs.Pattern.Prompted

namespace ModalKeys.Prompted

variable (p : Prompted) (templates : List Text)

/-- No segment is live, so none fires ahead of its turn. -/
theorem liveNext_bind (depth : Nat) : Stack.liveNext (p.bind templates) depth = false := by
  have hs := Bind.segment?_of_not_isGlobal (p.isGlobal_bind templates) depth
  unfold Stack.liveNext
  rw [← hs]
  cases depth with
  | zero => rw [p.segment?_zero]; rfl
  | succ i =>
    rw [p.segment?_succ]
    cases p.stages[i]? <;> rfl

/-- The stack once the opening has been typed and some arguments have been submitted. -/
def stack (home : Text) (args : List Text) : Stack :=
  ⟨args.length + 1, args, [p.bind templates], none, some home⟩

section Answers

variable (m : Modifiers) {text : Text}

theorem answer_opening : (p.bind templates).answer 0 (.commandUpdate m) p.opening =
    .fits ⟨.typed, ∅, p.opening, 0, true⟩ [] := by
  have hc : (⟨.typed, ∅, p.opening, 0, true⟩ : Segment).capture? p.opening = some [] := if_pos rfl
  rw [Bind.answer, p.segment?_zero]
  exact Segment.answer_eq_fits_iff.2 ⟨rfl, by rw [Segment.fits_eq, hc]; rfl, hc⟩

theorem answer_ne_opening (h : text ≠ p.opening) :
    (p.bind templates).fits 0 (.commandUpdate m) text = false := by
  rw [Bind.fits, p.segment?_zero]
  have hc : (⟨.typed, ∅, p.opening, 0, true⟩ : Segment).capture? text = none := if_neg h
  rw [Option.any_some, Segment.fits_eq, hc]
  exact Bool.and_false _

/-- A stage only hears of submissions. -/
theorem answer_typing (i : Nat) :
    (p.bind templates).answer (i + 1) (.commandUpdate m) text = .silent := by
  rw [Bind.answer, p.segment?_succ]
  cases p.stages[i]? <;> rfl

theorem answer_submission {i : Nat} {g : Stage} (hg : p.stages[i]? = some g) :
    (p.bind templates).answer (i + 1) (.commandExec m) (g.literal ++ text) =
      .fits (g.segment (i + 1) (decide (i + 1 < p.stages.length))) [text] := by
  have hc (index : Nat) (more : Bool) :
      (g.segment index more).capture? (g.literal ++ text) = some [text] := by
    change (g.literal.isPrefixOf? (g.literal ++ text)).map ([·]) = some [text]
    rw [List.isPrefixOf?_eq_some_iff_append_eq.2 rfl]
    rfl
  rw [Bind.answer, p.segment?_succ, hg]
  exact Segment.answer_eq_fits_iff.2 ⟨rfl, by rw [Segment.fits_eq, hc]; rfl, hc _ _⟩

end Answers

section Steps

variable {r : Registry} {home mode : Text} (m : Modifiers) {text : Text}

theorem step_unopened (hr : r.bindsIn home = [p.bind templates]) (h : text ≠ p.opening) :
    (Keymap.ofRegistry r).step home (.commandUpdate m) text = ([], .empty) := by
  have hm : (Keymap.ofRegistry r).matching home (.commandUpdate m) text = [] := by
    change (r.bindsIn home).filter (·.fits 0 (.commandUpdate m) text) = []
    rw [hr, List.filter_cons_of_neg (by simp [p.answer_ne_opening templates m h]), List.filter_nil]
  rw [Keymap.step_of_no_fit _ hm]
  rfl

/-- The opening enters the stack mode and shows the first prompt. -/
theorem step_opened (hr : r.bindsIn home = [p.bind templates]) (hh : home ≠ stackMode)
    (hn : home ≠ []) {g : Stage} (hg : p.stages[0]? = some g) :
    (Keymap.ofRegistry r).step home (.commandUpdate m) p.opening =
      ([.enterStack, .prompt g.prompt], p.stack templates home []) := by
  have hp : (p.bind templates).prompt? 1 = some g.prompt := by rw [p.prompt?_succ, hg]; rfl
  change (Scan.start .empty).through 0 home (.commandUpdate m) p.opening (r.bindsIn home) = _
  rw [hr, Scan.through, p.answer_opening]
  simp [p.isGlobal_bind, Scan.start, Scan.advance, Scan.through, Scan.close, Scan.finish, Stack.push,
    Stack.settle, Stack.giveUp, Stack.empty, p.liveNext_bind, hp, hh, hn, stack]

theorem step_stack (hr : r.globalChords = []) (args : List Text) (note : Notification) :
    (Keymap.mk r (p.stack templates home args)).step mode note text =
      (Scan.start (p.stack templates home args)).through (args.length + 1) mode note text
        [p.bind templates] := by
  have hd : (p.stack templates home args).depth ≠ 0 := Nat.succ_ne_zero _
  rw [Keymap.step, Keymap.candidates, if_neg hd, hr]
  rfl

theorem step_typing (hr : r.globalChords = []) (args : List Text) :
    (Keymap.mk r (p.stack templates home args)).step mode (.commandUpdate m) text =
      ([], p.stack templates home args) := by
  rw [p.step_stack templates hr, Scan.through, p.answer_typing]
  simp [Scan.start, Scan.through, Scan.close, Scan.finish, Stack.settle, Stack.giveUp, stack,
    Notification.commandUpdate, Notification.submits]

/-- A submission that is not the last moves on to the next prompt. -/
theorem step_submitted (hr : r.globalChords = []) {args : List Text} {g next : Stage}
    (hg : p.stages[args.length]? = some g) (hnext : p.stages[args.length + 1]? = some next) :
    (Keymap.mk r (p.stack templates home args)).step stackMode (.commandExec m)
        (g.literal ++ text) =
      ([.prompt next.prompt], p.stack templates home (args ++ [text])) := by
  have hp : (p.bind templates).prompt? (args.length + 2) = some next.prompt := by
    rw [p.prompt?_succ, hnext]
    rfl
  have hl : args.length + 1 < p.stages.length := (List.getElem?_eq_some_iff.1 hnext).1
  rw [p.step_stack templates hr, Scan.through, p.answer_submission templates m hg,
    decide_eq_true hl]
  simp [p.isGlobal_bind, Scan.start, Scan.advance, Scan.through, Scan.close, Scan.finish,
    Stack.push, Stack.settle, Stack.giveUp, p.liveNext_bind, hp, stack, Stage.segment]

/-- The last submission runs the bind on all that was submitted. -/
theorem step_completed (hr : r.globalChords = []) {args : List Text} {g : Stage}
    (hg : p.stages[args.length]? = some g) (hl : args.length + 1 = p.stages.length) :
    (Keymap.mk r (p.stack templates home args)).step stackMode (.commandExec m)
        (g.literal ++ text) =
      ([.run (p.bind templates) (args ++ [text]), .leaveStack (some home)], .empty) := by
  have hn : ¬ args.length + 1 < p.stages.length := Nat.not_lt.2 (Nat.le_of_eq hl.symm)
  rw [p.step_stack templates hr, Scan.through, p.answer_submission templates m hg,
    decide_eq_false hn]
  simp [p.isGlobal_bind, Scan.start, Scan.finish, Stack.complete, Stack.unwind, stack,
    Stage.segment]

end Steps

end ModalKeys.Prompted
