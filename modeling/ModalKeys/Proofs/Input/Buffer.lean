import ModalKeys.Proofs.Event.Line
import ModalKeys.Proofs.Input.Words
import ModalKeys.Proofs.Text.Offsets

namespace ModalKeys

open Text
open String (utf8Len utf8Len_append utf8Len_cons utf8Len_le_of_sublist)

/-- A number as an unsigned word. -/
def unsigned (n : Int) : Except Fault Nat :=
  if 0 ≤ n ∧ n < (2 ^ 64 : Nat) then .ok n.toNat else .error .overflow

/-- A number as a signed word. -/
def signed (n : Int) : Except Fault Int :=
  if -(2 ^ 63 : Nat) ≤ n ∧ n < (2 ^ 63 : Nat) then .ok n else .error .overflow

/-- Holds when there is room for a text. Its size is a signed word, and the program itself lies in
the same memory. -/
def Text.Fits (t : Text) : Prop := utf8Len t + 1 < 2 ^ 63

instance (t : Text) : Decidable t.Fits := inferInstanceAs (Decidable (_ < _))

/-- A text in memory. -/
def store (t : Text) : Except Fault Text := if t.Fits then .ok t else .error .room

/-- The line as one text in memory, and the cursor as a count of characters. -/
structure Buffer where
  line : Text
  cursor : Nat
  deriving DecidableEq

namespace Buffer

def empty : Buffer := ⟨[], 0⟩

def ofInput (i : Input) : Buffer := ⟨i.line, i.cursor⟩

/-- The line in memory, if there is room for it. -/
def fit (i : Input) : Except Fault Buffer := (store i.line).map fun _ => ofInput i

def set (t : Text) : Except Fault Buffer := do
  let line ← store t
  return ⟨line, line.length⟩

def insert (b : Buffer) (t : Text) : Except Fault Buffer := do
  let (before, after) ← b.line.cut (b.line.byteAt b.cursor)
  let line ← store (before ++ t ++ after)
  let cursor ← unsigned (b.cursor + t.length)
  return ⟨line, cursor⟩

def append (b : Buffer) (t : Text) : Except Fault Buffer := do
  let line ← store (b.line ++ t)
  return ⟨line, line.length⟩

/-- Tells whether there was a character before the cursor to remove. -/
def backspace (b : Buffer) : Except Fault (Bool × Buffer) := do
  if b.cursor = 0 then return (false, b)
  let cursor ← unsigned (b.cursor - 1)
  let line ← b.line.removeAt (b.line.byteAt cursor)
  return (true, ⟨line, cursor⟩)

/-- Tells whether there was a character under the cursor to remove. -/
def delete (b : Buffer) : Except Fault (Bool × Buffer) := do
  if b.line.length ≤ b.cursor then return (false, b)
  let line ← b.line.removeAt (b.line.byteAt b.cursor)
  return (true, ⟨line, b.cursor⟩)

/-- The byte offset behind the last separator of a text. -/
def wordStart (seps : List Char) (t : Text) : Except Fault Nat :=
  match t.lastOffset? (· ∈ seps) with
  | none => return 0
  | some offset => do
    let (_, rest) ← t.cut offset
    unsigned (offset + (rest.head?.elim 1 Char.utf8Size))

/-- Gives the word that has been removed, if there was anything before the cursor. -/
def stripWord (b : Buffer) (seps : List Char) : Except Fault (Option Text × Buffer) := do
  if b.line.isEmpty then return (none, b)
  let (head, tail) ← b.line.cut (b.line.byteAt b.cursor)
  let trimmed := dropEndWhile (· ∈ seps) head
  let start ← wordStart seps trimmed
  if start = utf8Len head then return (none, b)
  let (_, word) ← trimmed.cut start
  let (keep, _) ← head.cut start
  let line ← store (keep ++ tail)
  return (some word, ⟨line, keep.length⟩)

/-- The position that a target names, in signed words up to where it is put within the line. -/
def position (b : Buffer) (target : CursorTarget) : Except Fault Nat := do
  let size ← signed b.line.length
  let cursor ← signed b.cursor
  let wanted ← match target with
    | .left => signed (cursor - 1)
    | .right => signed (cursor + 1)
    | .at n => if n < 0 then do signed ((← signed (size + n)) + 1) else signed n
  return (max 0 (min wanted size)).toNat

def moveCursor (b : Buffer) (target : CursorTarget) : Except Fault (Nat × Buffer) := do
  let pos ← b.position target
  return (pos, { b with cursor := pos })

section Words

theorem unsigned_eq {n : Int} {m : Nat} (hn : n = m) (h : m < 2 ^ 64) : unsigned n = .ok m := by
  rw [unsigned, if_pos (by omega), hn, Int.toNat_natCast]

theorem signed_eq {n : Int} (h : -(2 ^ 63 : Nat) ≤ n) (h' : n < (2 ^ 63 : Nat)) :
    signed n = .ok n := if_pos ⟨h, h'⟩

theorem store_eq {t : Text} (h : t.Fits) : store t = .ok t := if_pos h

/-- There is room for what is left of a text. -/
theorem fits_of_sublist {t u : Text} (h : t.Fits) (hu : u.Sublist t) : u.Fits :=
  Nat.lt_of_le_of_lt (Nat.succ_le_succ (utf8Len_le_of_sublist hu)) h

/-- The characters of a text that fits are counted by a word, with one to spare. -/
theorem length_lt_of_fits {t : Text} (h : t.Fits) : t.length + 1 < 2 ^ 63 :=
  Nat.lt_of_le_of_lt (Nat.succ_le_succ (length_le_utf8Len t)) h

end Words

section Edits

variable {i : Input}

theorem fit_eq (h : i.line.Fits) : fit i = .ok (ofInput i) := by
  rw [fit, store_eq h]
  rfl

/-- An edit that needs room ends with the line it has made, or for want of room. -/
theorem store_bind {t : Text} {f : Text → Except Fault Buffer} (hline : i.line = t)
    (hf : t.Fits → f t = .ok ⟨t, i.cursor⟩) : (store t >>= f) = fit i := by
  rw [fit, ofInput, hline]
  by_cases h : t.Fits
  · rw [store_eq h]
    exact hf h
  · rw [store, if_neg h]
    rfl

theorem cut_cursor (i : Input) :
    (ofInput i).line.cut ((ofInput i).line.byteAt (ofInput i).cursor) = .ok (i.before, i.after) :=
  cut_byteAt i.before i.after

theorem set_eq (i : Input) (t : Text) : set t = fit (i.setLine t) :=
  store_bind (List.append_nil t) fun _ => rfl

theorem append_eq (i : Input) (t : Text) : (ofInput i).append t = fit (i.append t) :=
  store_bind (List.append_nil (i.line ++ t)) fun _ => rfl

theorem insert_eq (i : Input) (t : Text) : (ofInput i).insert t = fit (i.insert t) := by
  have hstore : (ofInput i).insert t = (store (i.before ++ t ++ i.after) >>= fun line =>
      unsigned (i.cursor + t.length) >>= fun cursor => .ok ⟨line, cursor⟩) := by
    rw [insert, cut_cursor]
    rfl
  rw [hstore]
  refine store_bind (i := i.insert t) rfl fun h => ?_
  have hlen := length_lt_of_fits h
  simp only [List.length_append] at hlen
  have hcursor : unsigned (i.cursor + t.length) = .ok (i.insert t).cursor := by
    have hsize : (i.insert t).cursor = i.before.length + t.length := List.length_append
    rw [hsize]
    exact unsigned_eq (Int.natCast_add _ _).symm (by omega)
  rw [hcursor]
  rfl

theorem backspace_eq (h : i.line.Fits) : (ofInput i).backspace =
    .ok (i.backspace?.isSome, ofInput (i.backspace?.getD i)) := by
  obtain hb | ⟨front, c, hb⟩ := List.eq_nil_or_concat i.before
  · have hcursor : (ofInput i).cursor = 0 := congrArg List.length hb
    have hnone : i.backspace? = none := by simp [Input.backspace?, hb]
    rw [backspace, if_pos hcursor, hnone]
    rfl
  · rw [List.concat_eq_append] at hb
    have hcursor : (ofInput i).cursor = front.length + 1 := by
      change i.before.length = _
      simp [hb]
    have hline : (ofInput i).line = front ++ c :: i.after := by
      change i.before ++ i.after = _
      simp [hb]
    have hlen : front.length + 1 < 2 ^ 63 := by
      have hfits := length_lt_of_fits h
      rw [Input.line, List.length_append, hb, List.length_append] at hfits
      simp only [List.length_cons, List.length_nil] at hfits
      omega
    have hsome : i.backspace? = some { i with before := front } := by simp [Input.backspace?, hb]
    have hword : unsigned ((ofInput i).cursor - 1) = .ok front.length := by
      rw [hcursor]
      exact unsigned_eq (by omega) (by omega)
    have hremove : (ofInput i).line.removeAt ((ofInput i).line.byteAt front.length) =
        .ok (front ++ i.after) := by
      rw [hline, byteAt_append, removeAt_append]
    rw [backspace, if_neg (by omega), hword, Fault.ok_bind, hremove, hsome]
    rfl

theorem delete_eq (i : Input) : (ofInput i).delete =
    .ok (i.delete?.isSome, ofInput (i.delete?.getD i)) := by
  have hlength : (ofInput i).line.length = i.before.length + i.after.length := List.length_append
  have hcursor : (ofInput i).cursor = i.before.length := rfl
  cases ha : i.after with
  | nil =>
    have hnone : i.delete? = none := by simp [Input.delete?, ha]
    rw [ha] at hlength
    rw [delete, if_pos (Nat.le_of_eq (hlength.trans hcursor.symm)), hnone]
    rfl
  | cons c rest =>
    have hsome : i.delete? = some { i with after := rest } := by simp [Input.delete?, ha]
    have hline : (ofInput i).line = i.before ++ c :: rest := congrArg (i.before ++ ·) ha
    have hremove : (ofInput i).line.removeAt ((ofInput i).line.byteAt (ofInput i).cursor) =
        .ok (i.before ++ rest) := by
      rw [hline, hcursor, byteAt_append, removeAt_append]
    rw [ha, List.length_cons] at hlength
    rw [delete, if_neg (by omega), hremove, hsome]
    rfl

end Edits

section Strip

variable {i : Input} {seps : List Char} {t keep word trail : Text}

/-- The word starts behind the last separator. -/
theorem wordStart_eq (hfits : (keep ++ word).Fits) (hword : ∀ c ∈ word, c ∉ seps)
    (hkeep : ∀ c, keep.getLast? = some c → c ∈ seps) :
    wordStart seps (keep ++ word) = .ok (utf8Len keep) := by
  have hfree : ∀ c ∈ word, decide (c ∈ seps) = false := fun c hc => decide_eq_false (hword c hc)
  obtain rfl | ⟨front, c, rfl⟩ := List.eq_nil_or_concat keep
  · have hnone : lastOffset? (fun c => decide (c ∈ seps)) word = none := lastOffset?_of_free hfree
    rw [wordStart, List.nil_append, hnone]
    rfl
  · rw [List.concat_eq_append] at *
    have hc : decide (c ∈ seps) = true := decide_eq_true (hkeep c (by simp))
    have htext : front ++ [c] ++ word = front ++ c :: word := List.append_assoc front [c] word
    have hsize : utf8Len (front ++ [c]) = utf8Len front + c.utf8Size := by
      rw [utf8Len_append, utf8Len_cons]
      simp
    have hbound : utf8Len front + c.utf8Size < 2 ^ 63 := by
      rw [Text.Fits, utf8Len_append, hsize] at hfits
      omega
    have hlast : lastOffset? (fun c => decide (c ∈ seps)) (front ++ c :: word) =
        some (utf8Len front) := lastOffset?_append hc front hfree
    simp only [wordStart, htext, hlast, cut_append, Fault.ok_bind, List.head?_cons,
      Option.elim_some]
    rw [hsize]
    exact unsigned_eq (Int.natCast_add _ _).symm (by omega)

theorem stripWord_eq (h : i.line.Fits) (seps : List Char) : (ofInput i).stripWord seps =
    .ok ((i.stripWord? seps).map (·.1), ofInput (Input.stripped seps i)) := by
  obtain ⟨keep, word, trail, hl⟩ : ∃ keep word trail, LastWord seps i.before keep word trail :=
    ⟨_, _, _, lastWord_cutWord seps i.before⟩
  have hstrip := Input.stripWord?_eq hl
  have hstripped := Input.stripped_eq hl
  by_cases hline : i.line = []
  · have hb : i.before = [] := (List.append_eq_nil_iff.1 hline).1
    have hempty : (ofInput i).line.isEmpty = true := List.isEmpty_iff.2 hline
    rw [if_pos hb] at hstrip hstripped
    rw [stripWord, if_pos hempty, hstrip, hstripped]
    rfl
  have hempty : ¬(ofInput i).line.isEmpty = true := mt List.isEmpty_iff.1 hline
  have hbefore : i.before.Fits := fits_of_sublist h (List.sublist_append_left _ _)
  have hsplit : i.before = keep ++ (word ++ trail) := hl.split.trans (List.append_assoc _ _ _)
  have hfront : keep ++ word <+: i.before := ⟨trail, hl.split.symm⟩
  have hstart : wordStart seps (dropEndWhile (fun c => decide (c ∈ seps)) i.before) =
      .ok (utf8Len keep) := by
    rw [hl.trimmed]
    exact wordStart_eq (fits_of_sublist hbefore hfront.sublist) hl.word_free hl.keep_ends
  rw [stripWord, if_neg hempty, cut_cursor, Fault.ok_bind]
  dsimp only
  rw [hstart, Fault.ok_bind]
  by_cases hb : i.before = []
  · have hkeep : keep = [] := (List.append_eq_nil_iff.1 (hsplit.symm.trans hb)).1
    have hsame : utf8Len keep = utf8Len i.before := by rw [hkeep, hb]
    rw [if_pos hb] at hstrip hstripped
    rw [hstrip, hstripped]
    exact if_pos hsame
  · have hdiffer : utf8Len keep ≠ utf8Len i.before := by
      have hrest : 0 < utf8Len (word ++ trail) := utf8Len_pos (hl.rest_ne_nil hb)
      rw [hsplit, utf8Len_append]
      omega
    have hword : cut (keep ++ word) (utf8Len keep) = .ok (keep, word) := cut_append keep word
    have hkeep : cut i.before (utf8Len keep) = .ok (keep, word ++ trail) := by
      rw [hsplit]
      exact cut_append keep (word ++ trail)
    have hroom : store (keep ++ i.after) = .ok (keep ++ i.after) := by
      apply store_eq
      apply fits_of_sublist h
      exact hl.keep_prefix.sublist.append_right i.after
    rw [if_neg hb] at hstrip hstripped
    simp only [hstrip, hstripped, hl.trimmed, Fault.ok_bind, if_neg hdiffer, hword, hkeep, hroom]
    rfl

end Strip

section Cursor

variable {i : Input} {target : CursorTarget}

theorem position_le (i : Input) (target : CursorTarget) : i.position target ≤ i.line.length :=
  Int.toNat_le.2 (min_le_right _ _)

/-- A position of 64 bits asks for no number beyond them. -/
theorem position_eq (h : i.line.Fits) (ht : target.Fits) :
    (ofInput i).position target = .ok (i.position target) := by
  have hlen := length_lt_of_fits h
  have hcursor : i.cursor ≤ i.line.length := List.length_append.symm ▸ Nat.le_add_right _ _
  have hsize : signed i.line.length = .ok i.line.length := signed_eq (by omega) (by omega)
  have hplace : signed i.cursor = .ok i.cursor := signed_eq (by omega) (by omega)
  have clamp (n : Int) : (max 0 (min n i.line.length)).toNat = (min n i.line.length).toNat := by
    omega
  simp only [position, ofInput, hsize, hplace, Fault.ok_bind]
  cases target with
  | left =>
    simp only [signed_eq (n := i.cursor - 1) (by omega) (by omega), Fault.ok_bind, clamp]
    rfl
  | right =>
    simp only [signed_eq (n := i.cursor + 1) (by omega) (by omega), Fault.ok_bind, clamp]
    rfl
  | «at» n =>
    obtain ⟨hlow, hhigh⟩ : -9223372036854775808 ≤ n ∧ n < 9223372036854775808 := ht
    by_cases hn : n < 0
    · simp only [Input.position, if_pos hn, signed_eq (n := i.line.length + n) (by omega) (by omega),
        signed_eq (n := i.line.length + n + 1) (by omega) (by omega), Fault.ok_bind, clamp]
      rfl
    · simp only [Input.position, if_neg hn, signed_eq (n := n) (by omega) (by omega), Fault.ok_bind,
        clamp]
      rfl

theorem moveCursor_eq (h : i.line.Fits) (ht : target.Fits) :
    (ofInput i).moveCursor target = .ok (i.position target, ofInput (i.moveCursor target)) := by
  have hline : (i.moveCursor target).line = i.line := List.take_append_drop _ _
  have hcursor : (i.moveCursor target).cursor = i.position target :=
    List.length_take_of_le (position_le i target)
  rw [moveCursor, position_eq h ht, ofInput, ofInput, hline, hcursor]
  rfl

end Cursor

end Buffer

end ModalKeys
