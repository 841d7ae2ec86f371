import Mathlib.Logic.Function.Iterate
import ModalKeys.Proofs.Text.Trim
import ModalKeys.Session.Handle

namespace ModalKeys

namespace Text

/-- How a text ends in its last word. The separators behind the word are all that end the text, the
word has none, and what is kept ends in one, if there is any of it. -/
structure LastWord (seps : List Char) (t keep word trail : Text) : Prop where
  split : t = keep ++ word ++ trail
  trail_separates : ∀ c ∈ trail, c ∈ seps
  trail_longest : ∀ u, u <:+ t → (∀ c ∈ u, c ∈ seps) → u <:+ trail
  word_free : ∀ c ∈ word, c ∉ seps
  keep_ends : ∀ c, keep.getLast? = some c → c ∈ seps

section LastWord

variable {seps : List Char} {t keep word trail : Text}

theorem lastWord_cutWord (seps : List Char) (t : Text) :
    LastWord seps t (Input.cutWord seps t).1 (Input.cutWord seps t).2.1
      (Input.cutWord seps t).2.2 := by
  let trimmed := dropEndWhile (fun c => decide (c ∈ seps)) t
  let keep := dropEndWhile (fun c => decide (c ∉ seps)) trimmed
  obtain ⟨trail, htrail, ht⟩ := exists_dropEndWhile_append (fun c => decide (c ∈ seps)) t
  obtain ⟨word, hword, htrimmed⟩ := exists_dropEndWhile_append (fun c => decide (c ∉ seps)) trimmed
  change trimmed ++ trail = t at ht
  change keep ++ word = trimmed at htrimmed
  have hcut : Input.cutWord seps t = (keep, word, trail) := by
    change (keep, trimmed.drop keep.length, t.drop trimmed.length) = _
    rw [← ht, List.drop_left, ← htrimmed, List.drop_left]
  have hlast : ∀ c, trimmed.getLast? = some c → decide (c ∈ seps) = false :=
    fun c hc => last_dropEndWhile _ t hc
  rw [hcut]
  constructor
  · rw [htrimmed, ht]
  · intro c hc
    exact of_decide_eq_true (htrail c hc)
  · intro u hu hall
    rw [← ht] at hu
    exact suffix_of_last hlast hu fun c hc => decide_eq_true (hall c hc)
  · intro c hc
    exact of_decide_eq_true (hword c hc)
  · intro c hc
    have hends : decide (c ∉ seps) = false := last_dropEndWhile _ trimmed hc
    simpa using hends

/-- Without the separators behind it a text ends in the word. -/
theorem LastWord.trimmed (h : LastWord seps t keep word trail) :
    dropEndWhile (fun c => decide (c ∈ seps)) t = keep ++ word := by
  obtain ⟨front, hfront⟩ : ∃ front, dropEndWhile (fun c => decide (c ∈ seps)) t = front := ⟨_, rfl⟩
  obtain ⟨tail, htail, ht⟩ := exists_dropEndWhile_append (fun c => decide (c ∈ seps)) t
  rw [hfront] at ht ⊢
  have hlonger : tail <:+ trail :=
    h.trail_longest tail ⟨front, ht⟩ fun c hc => of_decide_eq_true (htail c hc)
  have hshorter : trail <:+ tail := by
    refine suffix_of_last (p := fun c => decide (c ∈ seps)) (a := front) ?_ ?_ ?_
    · intro c hc
      rw [← hfront] at hc
      exact last_dropEndWhile _ t hc
    · rw [ht]
      exact ⟨keep ++ word, h.split.symm⟩
    · intro c hc
      exact decide_eq_true (h.trail_separates c hc)
  have hsame : tail = trail := hlonger.eq_of_length_le hshorter.length_le
  have hsplit : front ++ tail = keep ++ word ++ tail := by rw [ht, hsame, ← h.split]
  exact List.append_cancel_right hsplit

theorem LastWord.unique {keep' word' trail' : Text} (h : LastWord seps t keep word trail)
    (h' : LastWord seps t keep' word' trail') : keep = keep' ∧ word = word' ∧ trail = trail' := by
  have hfront : keep ++ word = keep' ++ word' := h.trimmed.symm.trans h'.trimmed
  -- Without the separators behind it, a text keeps what is left when the word is dropped.
  have kept {k w r : Text} (hs : LastWord seps t k w r) :
      dropEndWhile (fun c => decide (c ∉ seps)) (k ++ w) = k := by
    apply dropEndWhile_append_of_last
    · intro c hc
      simpa using hs.keep_ends c hc
    · intro c hc
      exact decide_eq_true (hs.word_free c hc)
  have hkeep : keep = keep' := by rw [← kept h, hfront, kept h']
  have hsplit : keep ++ word ++ trail = keep ++ word ++ trail' := by
    rw [← h.split, hfront, ← h'.split]
  rw [hkeep] at hfront
  exact ⟨hkeep, List.append_cancel_left hfront, List.append_cancel_left hsplit⟩

theorem LastWord.keep_prefix (h : LastWord seps t keep word trail) : keep <+: t :=
  ⟨word ++ trail, (List.append_assoc keep word trail).symm.trans h.split.symm⟩

/-- Unless there is nothing at all, the word or the separators behind it are something. -/
theorem LastWord.rest_ne_nil (h : LastWord seps t keep word trail) (ht : t ≠ []) :
    word ++ trail ≠ [] := by
  intro hrest
  obtain ⟨hword, htrail⟩ := List.append_eq_nil_iff.1 hrest
  have hkeep : t = keep := by rw [h.split, hword, htrail]; simp
  obtain ⟨c, hc⟩ := List.getLast?_isSome.2 (hkeep ▸ ht) |> Option.isSome_iff_exists.1
  have hsuffix : [c] <:+ t := by
    rw [hkeep]
    exact List.singleton_suffix_iff_getLast?_eq_some.2 hc
  have hends := h.trail_longest [c] hsuffix (by simpa using h.keep_ends c hc)
  rw [htrail] at hends
  simp at hends

theorem LastWord.length_lt (h : LastWord seps t keep word trail) (ht : t ≠ []) :
    keep.length < t.length := by
  have hrest := List.length_pos_iff.2 (h.rest_ne_nil ht)
  have hlength := congrArg List.length h.split
  simp only [List.length_append] at hrest hlength
  omega

end LastWord

end Text

namespace Input

open Text

/-- The line without the last word before the cursor, if there is one. -/
def stripped (seps : List Char) (i : Input) : Input := ((i.stripWord? seps).map (·.2)).getD i

section Strip

variable {seps : List Char} {i : Input} {keep word trail : Text}

theorem stripWord?_eq (h : LastWord seps i.before keep word trail) :
    i.stripWord? seps = if i.before = [] then none else some (word, { i with before := keep }) := by
  obtain ⟨hkeep, hword, -⟩ := (lastWord_cutWord seps i.before).unique h
  unfold stripWord?
  by_cases hb : i.before = []
  · rw [if_pos hb, if_pos (List.isEmpty_iff.2 hb)]
  · rw [if_neg hb, if_neg (mt List.isEmpty_iff.1 hb)]
    rw [← hkeep, ← hword]

theorem stripped_eq (h : LastWord seps i.before keep word trail) :
    stripped seps i = if i.before = [] then i else { i with before := keep } := by
  unfold stripped
  rw [stripWord?_eq h]
  split <;> rfl

end Strip

/-- Each time at least one character goes from before the cursor, and nothing else does. -/
theorem iterate_stripped (seps : List Char) (n : Nat) (i : Input) :
    ∃ rest, rest <+: i.before ∧ rest.length ≤ i.before.length - n ∧
      (stripped seps)^[n] i = { i with before := rest } := by
  induction n generalizing i with
  | zero => exact ⟨i.before, List.prefix_refl _, Nat.le_refl _, rfl⟩
  | succ n ih =>
    have hword := lastWord_cutWord seps i.before
    rw [Function.iterate_succ_apply, stripped_eq hword]
    split
    · next hb =>
      obtain ⟨rest, hrest, hlength, hn⟩ := ih i
      exact ⟨rest, hrest, by rw [hb] at hlength ⊢; simpa using hlength, hn⟩
    · next hb =>
      obtain ⟨rest, hrest, hlength, hn⟩ := ih { i with before := (cutWord seps i.before).1 }
      have hlt := hword.length_lt hb
      exact ⟨rest, hrest.trans hword.keep_prefix, by dsimp only at hlength; omega, hn⟩

/-- The text before the cursor ends in a last word in just one way. That word goes with the
separators behind it, the rest of the line stays, and a session follows the edit; without a text
before the cursor nothing changes at all. So word by word all that is before the cursor goes, and
nothing else. -/
theorem stripWord_last (i : Input) (seps : List Char) :
    ∃ keep word trail,
      (∀ k w r, LastWord seps i.before k w r ↔ k = keep ∧ w = word ∧ r = trail) ∧
      i.stripWord? seps = (if i.before = [] then none else some (word, { i with before := keep })) ∧
      (∀ s : Session, (s.withInput i).stripWord seps =
        if i.before = [] then some (s.withInput i)
        else (s.withInput { i with before := keep }).update ∅) ∧
      ∀ n, ∃ rest, rest <+: i.before ∧ rest.length ≤ i.before.length - n ∧
        (stripped seps)^[n] i = { i with before := rest } := by
  obtain ⟨keep, word, trail, hword⟩ :
      ∃ keep word trail, LastWord seps i.before keep word trail :=
    ⟨_, _, _, lastWord_cutWord seps i.before⟩
  refine ⟨keep, word, trail, ?_, stripWord?_eq hword, ?_, fun n => iterate_stripped seps n i⟩
  · intro k w r
    constructor
    · intro h
      exact h.unique hword
    · rintro ⟨rfl, rfl, rfl⟩
      exact hword
  · intro s
    change (s.withInput i).edit? ((i.stripWord? seps).map (·.2)) = _
    rw [stripWord?_eq hword]
    split <;> rfl

example : (Input.empty.setLine "uri http://".toList).stripWord? " :/".toList =
    some ("http".toList, Input.empty.setLine "uri ".toList) := by decide

end Input

end ModalKeys
