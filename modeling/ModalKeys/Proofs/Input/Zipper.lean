import ModalKeys.Proofs.Input.Buffer

namespace ModalKeys

open Text

namespace Input

/-- An operation on the line. A position has 64 bits. -/
inductive Edit
  | set (t : Text)
  | insert (t : Text)
  | append (t : Text)
  | clear
  | backspace
  | delete
  | stripWord (seps : List Char)
  | move (target : CursorTarget) (fits : target.Fits)

/-- What an operation answers. -/
inductive Report
  | done
  | changed (was : Bool)
  | word (removed : Option Text)
  | position (pos : Nat)
  deriving DecidableEq

/-- Holds of an answer by which nothing has changed, with the cursor where it was. -/
def Report.Unchanged (cursor : Nat) : Report → Prop
  | .done => False
  | .changed was => was = false
  | .word removed => removed = none
  | .position pos => pos = cursor

def apply (i : Input) : Edit → Report × Input
  | .set t => (.done, i.setLine t)
  | .insert t => (.done, i.insert t)
  | .append t => (.done, i.append t)
  | .clear => (.done, i.clearLine)
  | .backspace => (.changed i.backspace?.isSome, i.backspace?.getD i)
  | .delete => (.changed i.delete?.isSome, i.delete?.getD i)
  | .stripWord seps => (.word ((i.stripWord? seps).map (·.1)), stripped seps i)
  | .move target _ => (.position (i.position target), i.moveCursor target)

def applyAll (i : Input) : List Edit → List Report × Input
  | [] => ([], i)
  | e :: es =>
    let (report, j) := i.apply e
    let (reports, k) := j.applyAll es
    (report :: reports, k)

/-- Holds when there is room for the line after each of the edits. -/
def RoomFor (i : Input) : List Edit → Prop
  | [] => True
  | e :: es => (i.apply e).2.line.Fits ∧ (i.apply e).2.RoomFor es

instance decidableRoomFor : (i : Input) → (es : List Edit) → Decidable (i.RoomFor es)
  | _, [] => inferInstanceAs (Decidable True)
  | i, e :: es =>
    have := decidableRoomFor (i.apply e).2 es
    inferInstanceAs (Decidable (_ ∧ _))

/-- The position that a target asks for, before it is put within the line. -/
def wanted (cursor size : Nat) : CursorTarget → Int
  | .left => cursor - 1
  | .right => cursor + 1
  | .at n => if 0 ≤ n then n else size + (n + 1)

/-- What an operation does to the text before the cursor and the text from it on, with its
answer. -/
inductive Acts : Edit → Text × Text → Report → Text × Text → Prop
  | set (t l r : Text) : Acts (.set t) (l, r) .done (t, [])
  | insert (t l r : Text) : Acts (.insert t) (l, r) .done (l ++ t, r)
  | append (t l r : Text) : Acts (.append t) (l, r) .done (l ++ r ++ t, [])
  | clear (l r : Text) : Acts .clear (l, r) .done ([], [])
  | backspace (l : Text) (c : Char) (r : Text) :
      Acts .backspace (l ++ [c], r) (.changed true) (l, r)
  | backspace_none (r : Text) : Acts .backspace ([], r) (.changed false) ([], r)
  | delete (l : Text) (c : Char) (r : Text) : Acts .delete (l, c :: r) (.changed true) (l, r)
  | delete_none (l : Text) : Acts .delete (l, []) (.changed false) (l, [])
  | stripWord {seps : List Char} {l keep word trail : Text} (r : Text) (hl : l ≠ [])
      (hword : LastWord seps l keep word trail) :
      Acts (.stripWord seps) (l, r) (.word (some word)) (keep, r)
  | stripWord_none (seps : List Char) (r : Text) :
      Acts (.stripWord seps) ([], r) (.word none) ([], r)
  | move {target : CursorTarget} (fits : target.Fits) {l r l' r' : Text}
      (hline : l' ++ r' = l ++ r)
      (hpos : (l'.length : Int) = max 0 (min (wanted l.length (l ++ r).length target)
        (l ++ r).length)) :
      Acts (.move target fits) (l, r) (.position l'.length) (l', r')

/-- What the operations of a list do, one after the other. -/
inductive Traces : List Edit → Text × Text → List Report → Text × Text → Prop
  | nil (p : Text × Text) : Traces [] p [] p
  | cons {e : Edit} {es : List Edit} {report : Report} {reports : List Report}
      {p q r : Text × Text} (step : Acts e p report q) (rest : Traces es q reports r) :
      Traces (e :: es) p (report :: reports) r

theorem acts_apply (i : Input) (e : Edit) :
    Acts e (i.before, i.after) (i.apply e).1 ((i.apply e).2.before, (i.apply e).2.after) := by
  cases e with
  | set t => exact .set t _ _
  | insert t => exact .insert t _ _
  | append t => exact .append t _ _
  | clear => exact .clear _ _
  | backspace =>
    obtain hb | ⟨l, c, hb⟩ := List.eq_nil_or_concat i.before
    · have hnone : i.backspace? = none := by simp [backspace?, hb]
      simp only [apply, hnone, Option.isSome_none, Option.getD_none, hb]
      exact .backspace_none _
    · rw [List.concat_eq_append] at hb
      have hsome : i.backspace? = some { i with before := l } := by simp [backspace?, hb]
      simp only [apply, hsome, Option.isSome_some, Option.getD_some, hb]
      exact .backspace l c _
  | delete =>
    cases ha : i.after with
    | nil =>
      have hnone : i.delete? = none := by simp [delete?, ha]
      simp only [apply, hnone, Option.isSome_none, Option.getD_none, ha]
      exact .delete_none _
    | cons c r =>
      have hsome : i.delete? = some { i with after := r } := by simp [delete?, ha]
      simp only [apply, hsome, Option.isSome_some, Option.getD_some]
      exact .delete _ c r
  | stripWord seps =>
    have hword := lastWord_cutWord seps i.before
    have hstrip := stripWord?_eq hword
    have hstripped := stripped_eq hword
    by_cases hb : i.before = []
    · rw [if_pos hb] at hstrip hstripped
      simp only [apply, hstrip, hstripped, Option.map_none, hb]
      exact .stripWord_none seps _
    · rw [if_neg hb] at hstrip hstripped
      simp only [apply, hstrip, hstripped, Option.map_some]
      exact .stripWord _ hb hword
  | move target fits =>
    have hlength : (i.line.take (i.position target)).length = i.position target :=
      List.length_take_of_le (Buffer.position_le i target)
    have hpos : ((i.line.take (i.position target)).length : Int) =
        max 0 (min (wanted i.before.length i.line.length target) i.line.length) := by
      rw [hlength]
      cases target with
      | left => simp only [position, wanted, cursor]; omega
      | right => simp only [position, wanted, cursor]; omega
      | «at» n => simp only [position, wanted]; omega
    have hacts := Acts.move fits (List.take_append_drop (i.position target) i.line) hpos
    rw [hlength] at hacts
    exact hacts

/-- The cursor is within the line, between the two texts. -/
theorem split_cursor (i : Input) : i.cursor ≤ i.line.length ∧ i.line.take i.cursor = i.before ∧
    i.line.drop i.cursor = i.after :=
  ⟨List.length_append.symm ▸ Nat.le_add_right _ _, List.take_left, List.drop_left⟩

/-- An operation that says so has changed nothing. -/
theorem apply_of_unchanged {i : Input} {e : Edit} (h : (i.apply e).1.Unchanged i.cursor) :
    (i.apply e).2 = i := by
  cases e with
  | set t => exact h.elim
  | insert t => exact h.elim
  | append t => exact h.elim
  | clear => exact h.elim
  | backspace =>
    have hnone : i.backspace? = none := Option.isSome_eq_false_iff.1 h |> Option.isNone_iff_eq_none.1
    exact congrArg (Option.getD · i) hnone
  | delete =>
    have hnone : i.delete? = none := Option.isSome_eq_false_iff.1 h |> Option.isNone_iff_eq_none.1
    exact congrArg (Option.getD · i) hnone
  | stripWord seps =>
    have hnone : i.stripWord? seps = none := Option.map_eq_none_iff.1 h
    have hstripped : stripped seps i = i := by simp [stripped, hnone]
    exact hstripped
  | move target fits =>
    have hpos : i.position target = i.cursor := h
    obtain ⟨-, htake, hdrop⟩ := split_cursor i
    simp only [apply, moveCursor, hpos, htake, hdrop]

theorem traces_applyAll (i : Input) (es : List Edit) :
    Traces es (i.before, i.after) (i.applyAll es).1
      ((i.applyAll es).2.before, (i.applyAll es).2.after) := by
  induction es generalizing i with
  | nil => exact .nil _
  | cons e es ih => exact .cons (acts_apply i e) (ih (i.apply e).2)

end Input

namespace Buffer

open Input (Edit Report Traces)

def apply (b : Buffer) : Edit → Except Fault (Report × Buffer)
  | .set t => do return (.done, ← set t)
  | .insert t => do return (.done, ← b.insert t)
  | .append t => do return (.done, ← b.append t)
  | .clear => return (.done, empty)
  | .backspace => do
    let (was, b) ← b.backspace
    return (.changed was, b)
  | .delete => do
    let (was, b) ← b.delete
    return (.changed was, b)
  | .stripWord seps => do
    let (removed, b) ← b.stripWord seps
    return (.word removed, b)
  | .move target _ => do
    let (pos, b) ← b.moveCursor target
    return (.position pos, b)

def applyAll (b : Buffer) : List Edit → Except Fault (List Report × Buffer)
  | [] => return ([], b)
  | e :: es => do
    let (report, b) ← b.apply e
    let (reports, b) ← b.applyAll es
    return (report :: reports, b)

section Shrinking

variable {i : Input}

/-- There is room for a line from which something has gone. -/
theorem fit_of_sublist (h : i.line.Fits) {j : Input} (hj : j.line.Sublist i.line) :
    fit j = .ok (ofInput j) := fit_eq (fits_of_sublist h hj)

theorem sublist_backspace (i : Input) : (i.backspace?.getD i).line.Sublist i.line := by
  unfold Input.backspace?
  split
  · exact List.Sublist.refl _
  · exact (List.dropLast_sublist i.before).append_right i.after

theorem sublist_delete (i : Input) : (i.delete?.getD i).line.Sublist i.line := by
  unfold Input.delete?
  split
  · exact List.Sublist.refl _
  · next c rest ha =>
    have hrest : rest.Sublist i.after := ha ▸ List.sublist_cons_self c rest
    exact hrest.append_left i.before

theorem sublist_stripped (seps : List Char) (i : Input) :
    (Input.stripped seps i).line.Sublist i.line := by
  have hword := lastWord_cutWord seps i.before
  rw [Input.stripped_eq hword]
  split
  · exact List.Sublist.refl _
  · exact hword.keep_prefix.sublist.append_right i.after

theorem sublist_moveCursor (target : CursorTarget) (i : Input) :
    (i.moveCursor target).line.Sublist i.line := by
  have hline : (i.moveCursor target).line = i.line := List.take_append_drop _ _
  rw [hline]

end Shrinking

/-- One operation on the line in memory: the same on the two texts, or there is no room. -/
theorem apply_eq {i : Input} (h : i.line.Fits) (e : Edit) :
    (ofInput i).apply e = (fit (i.apply e).2).map fun b => ((i.apply e).1, b) := by
  cases e with
  | set t => rw [apply, set_eq i t]; rfl
  | insert t => rw [apply, insert_eq]; rfl
  | append t => rw [apply, append_eq]; rfl
  | clear => rfl
  | backspace =>
    rw [apply, backspace_eq h, Input.apply, fit_of_sublist h (sublist_backspace i)]
    rfl
  | delete =>
    rw [apply, delete_eq, Input.apply, fit_of_sublist h (sublist_delete i)]
    rfl
  | stripWord seps =>
    rw [apply, stripWord_eq h, Input.apply, fit_of_sublist h (sublist_stripped seps i)]
    rfl
  | move target fits =>
    rw [apply, moveCursor_eq h fits, Input.apply, fit_of_sublist h (sublist_moveCursor target i)]
    rfl

theorem applyAll_eq {i : Input} (h : i.line.Fits) (es : List Edit) :
    (ofInput i).applyAll es =
      if i.RoomFor es then .ok ((i.applyAll es).1, ofInput (i.applyAll es).2) else .error .room := by
  induction es generalizing i with
  | nil => rfl
  | cons e es ih =>
    rw [applyAll, apply_eq h e]
    by_cases hroom : (i.apply e).2.line.Fits
    · have hrest := ih hroom
      rw [fit_eq hroom, Except.map, Fault.ok_bind]
      dsimp only
      rw [hrest]
      by_cases hes : (i.apply e).2.RoomFor es
      · rw [if_pos hes, if_pos ⟨hroom, hes⟩]
        rfl
      · rw [if_neg hes, if_neg fun hall => hes hall.2]
        rfl
    · rw [if_neg fun hall => hroom hall.1, fit, store, if_neg hroom]
      rfl

/-- For any operations in a row, the line in memory has the cursor within it, and what is before the
cursor and what is from it on come about as the operations have it for two texts. Offsets are always
between characters and numbers within their words: only room can be short, and just when one of the
lines is too long. An operation that answers that nothing has changed has changed nothing. -/
theorem applyAll_zipper (es : List Edit) :
    ∃ reports i, Input.empty.applyAll es = (reports, i) ∧
      empty.applyAll es =
        (if Input.empty.RoomFor es then .ok (reports, ⟨i.line, i.cursor⟩) else .error .room) ∧
      i.cursor ≤ i.line.length ∧
      Traces es ([], []) reports (i.line.take i.cursor, i.line.drop i.cursor) ∧
      ∀ e, (i.apply e).1.Unchanged i.cursor → (i.apply e).2 = i := by
  obtain ⟨hcursor, htake, hdrop⟩ := Input.split_cursor (Input.empty.applyAll es).2
  have hrun := applyAll_eq (i := Input.empty) (by decide) es
  refine ⟨_, _, rfl, hrun, hcursor, ?_, fun e => Input.apply_of_unchanged⟩
  rw [htake, hdrop]
  exact Input.traces_applyAll Input.empty es

example : empty.applyAll [.insert "añb".toList, .move .left trivial, .backspace, .delete] =
    .ok ([.done, .position 2, .changed true, .changed true], ⟨['a'], 1⟩) := by decide +kernel

end Buffer

end ModalKeys
