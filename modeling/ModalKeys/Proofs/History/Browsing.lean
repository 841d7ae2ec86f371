import Mathlib.Data.List.Infix
import ModalKeys.History

namespace ModalKeys

/-- A browse through the lines that hold `key`: `older` ends with the line shown and has the newest
first, `newer` comes after it. The draft is what was typed when the browse began. -/
structure Browse where
  key : Text
  older : List Text
  newer : List Text
  draft : Text

/-- The history as it is browsed: every submitted line with its prompt, and the browse in
progress. -/
structure Browser where
  submitted : List (Text × Text)
  prompt : Text
  browse : Option Browse

namespace Browser

def empty : Browser := ⟨[], [], none⟩

def linesAt (b : Browser) (prompt : Text) : List Text :=
  (b.submitted.filter (·.1 = prompt)).map (·.2)

/-- The lines of the prompt that hold a text, which are all of them for the empty text. -/
def matching (b : Browser) (key : Text) : List Text :=
  (b.linesAt b.prompt).filter fun line => key <:+: line

def record (b : Browser) (prompt line : Text) : Browser :=
  { b with
    submitted := b.submitted ++ (if line.isEmpty then [] else [(prompt, line)])
    browse := none }

def setPrompt (b : Browser) (prompt : Text) : Browser := { b with prompt, browse := none }

/-- Shows the newest line that holds a text. -/
def start (b : Browser) (key draft : Text) : Option Text × Browser :=
  let older := (b.matching key).reverse
  (older.head?, { b with browse := some ⟨key, older, [], draft⟩ })

/-- One line back. Past the oldest the cursor stays. -/
def prev (b : Browser) (current : Text) : Option Text × Browser :=
  match b.browse with
  | none => b.start [] current
  | some ⟨_, [], _, _⟩ => (none, b)
  | some ⟨key, line :: older, newer, draft⟩ =>
    (older.head?, { b with browse := some ⟨key, older, line :: newer, draft⟩ })

/-- One line on. Past the newest the draft comes back, and the browse is over. -/
def next (b : Browser) : Option Text × Browser :=
  match b.browse with
  | none => (none, b)
  | some ⟨_, _, [], draft⟩ => (some draft, { b with browse := none })
  | some ⟨key, older, line :: newer, draft⟩ =>
    (some line, { b with browse := some ⟨key, line :: older, newer, draft⟩ })

/-- A search keeps the draft of the browse in progress. -/
def search (b : Browser) (key current : Text) : Option Text × Browser :=
  b.start key ((b.browse.map Browse.draft).getD current)

end Browser

namespace History

/-- What can be done to a history. -/
inductive Call
  | record (prompt line : Text)
  | setPrompt (prompt : Text)
  | prev (current : Text)
  | next
  | search (key current : Text)

/-- Does the calls in order; gives what each has found. -/
def run {σ : Type} (call : σ → Call → Option Text × σ) (s : σ) : List Call → List (Option Text) × σ
  | [] => ([], s)
  | c :: cs =>
    let (found, s) := call s c
    let (rest, s) := run call s cs
    (found :: rest, s)

def call (h : History) : Call → Option Text × History
  | .record prompt line => (none, h.record prompt line)
  | .setPrompt prompt => (none, h.setPrompt prompt)
  | .prev current => h.prev current
  | .next => h.next
  | .search key current => h.search key current

end History

theorem Browser.linesAt_record (b : Browser) (prompt line other : Text) :
    (b.record prompt line).linesAt other =
      b.linesAt other ++ if line ≠ [] ∧ prompt = other then [line] else [] := by
  unfold record linesAt
  cases line with
  | nil => simp
  | cons c line => by_cases he : prompt = other <;> simp [he]

def Browser.call (b : Browser) : History.Call → Option Text × Browser
  | .record prompt line => (none, b.record prompt line)
  | .setPrompt prompt => (none, b.setPrompt prompt)
  | .prev current => b.prev current
  | .next => b.next
  | .search key current => b.search key current

theorem holds_iff (key line : Text) : Text.holds key line = true ↔ key <:+: line := by
  induction line with
  | nil => simp [Text.holds]
  | cons c line ih => rw [Text.holds, Bool.or_eq_true, ih, List.isPrefixOf_iff_prefix, List.infix_cons_iff]

namespace History

/-- The empty text is no search. -/
def keyFor (key : Text) : Option Text := if key.isEmpty then none else some key

theorem wanted_keyFor (key line : Text) : wanted (keyFor key) line = decide (key <:+: line) := by
  unfold keyFor wanted
  cases key with
  | nil => simp
  | cons c key =>
    rw [Bool.eq_iff_iff, decide_eq_true_eq]
    exact holds_iff (c :: key) line

section Scan

variable (key : Option Text)

/-- The newest wanted line of those before the cursor, with only unwanted ones after it. -/
theorem newest?_cases (older newer : List Text) :
    (newest? key (older ++ newer) older.length = none ∧ ∀ line ∈ older, wanted key line = false) ∨
    ∃ before line after, older = before ++ line :: after ∧ wanted key line = true ∧
      (∀ l ∈ after, wanted key l = false) ∧
      newest? key (older ++ newer) older.length = some (before.length + 1, line) := by
  induction older using List.reverseRecOn generalizing newer with
  | nil => exact .inl ⟨rfl, by simp⟩
  | append_singleton older line ih =>
    have hat : (older ++ [line] ++ newer)[older.length]? = some line := by simp
    rw [List.length_append, List.length_singleton, newest?, hat]
    cases hw : wanted key line with
    | true => exact .inr ⟨older, line, [], rfl, hw, by simp, if_pos hw⟩
    | false =>
      have hn : older ++ [line] ++ newer = older ++ (line :: newer) := by simp
      dsimp only
      rw [if_neg (by simp [hw]), hn]
      rcases ih (line :: newer) with ⟨hnone, hall⟩ | ⟨before, found, after, rfl, hf, hall, hsome⟩
      · refine .inl ⟨hnone, fun l hl => ?_⟩
        rcases List.mem_append.1 hl with hl | hl
        · exact hall l hl
        · rwa [List.mem_singleton.1 hl]
      · refine .inr ⟨before, found, after ++ [line], by simp, hf, fun l hl => ?_, hsome⟩
        rcases List.mem_append.1 hl with hl | hl
        · exact hall l hl
        · rwa [List.mem_singleton.1 hl]

/-- The oldest wanted line of those after the cursor, with only unwanted ones before it. -/
theorem oldest?_cases (n : Nat) (newer : List Text) :
    (oldest? key n newer = none ∧ ∀ line ∈ newer, wanted key line = false) ∨
    ∃ before line after, newer = before ++ line :: after ∧ wanted key line = true ∧
      (∀ l ∈ before, wanted key l = false) ∧
      oldest? key n newer = some (n + before.length + 1, line) := by
  induction newer generalizing n with
  | nil => exact .inl ⟨rfl, by simp⟩
  | cons line newer ih =>
    rw [oldest?]
    cases hw : wanted key line with
    | true => exact .inr ⟨[], line, newer, rfl, hw, by simp, if_pos rfl⟩
    | false =>
      rw [if_neg (by simp)]
      rcases ih (n + 1) with ⟨hnone, hall⟩ | ⟨before, found, after, rfl, hf, hall, hsome⟩
      · exact .inl ⟨hnone, List.forall_mem_cons.2 ⟨hw, hall⟩⟩
      · refine .inr ⟨line :: before, found, after, rfl, hf, List.forall_mem_cons.2 ⟨hw, hall⟩, ?_⟩
        rw [hsome, List.length_cons]
        congr 2
        omega

end Scan

theorem filter_unwanted {key : Option Text} {lines : List Text}
    (h : ∀ line ∈ lines, wanted key line = false) : lines.filter (wanted key) = [] :=
  List.filter_eq_nil_iff.2 fun line hline => by simp [h line hline]

/-- The cursor stands between `before`, which ends with the line shown, and `after`. -/
structure Between (h : History) (z : Browse) (before after : List Text) : Prop where
  lines : h.lines = before ++ after
  cursor : h.cursor = some before.length
  shown : ∀ line, before.getLast? = some line → wanted h.key line = true
  key : h.key = keyFor z.key
  draft : h.draft.getD [] = z.draft
  older : z.older = (before.filter (wanted h.key)).reverse
  newer : z.newer = after.filter (wanted h.key)

/-- How a browse stands in the history. At rest there is neither a draft nor a key. -/
def Stands (h : History) : Option Browse → Prop
  | none => h.cursor = none ∧ h.draft = none ∧ h.key = none
  | some z => ∃ before after, h.Between z before after

/-- The history answers as the browser does from here on. -/
structure Shows (h : History) (b : Browser) : Prop where
  lines : ∀ prompt, h.linesAt prompt = b.linesAt prompt
  prompt : h.prompt = b.prompt
  browse : h.Stands b.browse

theorem shows_empty : empty.Shows .empty := ⟨fun _ => rfl, rfl, rfl, rfl, rfl⟩

theorem getD_keyFor (t : Text) : (keyFor t).getD [] = t := by
  cases t <;> rfl

/-- The number of lines among which a step back looks. -/
def above (h : History) : Nat := (h.cursor.map (· - 1)).getD h.lines.length

theorem stepBack_eq (h : History) :
    h.stepBack =
      match newest? h.key h.lines h.above with
      | some (n, line) => (some line, { h with cursor := some n })
      | none => (none, { h with cursor := some 0 }) := by
  unfold stepBack above
  cases h.cursor <;> rfl

/-- A step back shows the newest wanted line of those before the cursor. -/
theorem stepBack_between {h : History} {key : Text} {before after : List Text}
    (lines : h.lines = before ++ after) (above : h.above = before.length)
    (hk : h.key = keyFor key) :
    let older := (before.filter (wanted h.key)).reverse
    let newer := after.filter (wanted h.key)
    ∃ n, h.stepBack = (older.head?, { h with cursor := some n }) ∧
      Stands { h with cursor := some n } (some ⟨key, older, newer, h.draft.getD []⟩) := by
  rw [stepBack_eq, lines, above]
  rcases newest?_cases h.key before after with ⟨hnone, hall⟩ | ⟨a, line, c, rfl, hw, hall, hsome⟩
  · rw [hnone, filter_unwanted hall]
    refine ⟨0, rfl, [], before ++ after, lines, rfl, by simp, hk, rfl, rfl, ?_⟩
    change after.filter _ = (before ++ after).filter _
    rw [List.filter_append, filter_unwanted hall]
    rfl
  · have hold : ((a ++ line :: c).filter (wanted h.key)).reverse =
        line :: (a.filter (wanted h.key)).reverse := by
      simp [List.filter_append, hw, filter_unwanted hall]
    have hold' : ((a ++ [line]).filter (wanted h.key)).reverse =
        line :: (a.filter (wanted h.key)).reverse := by
      simp [List.filter_append, hw]
    rw [hsome, hold]
    refine ⟨a.length + 1, rfl, a ++ [line], c ++ after, ?_, ?_, ?_, hk, rfl, hold'.symm, ?_⟩
    · rw [← List.append_assoc, List.append_assoc a, List.singleton_append]
      exact lines
    · simp
    · intro l hl
      rw [List.getLast?_concat] at hl
      cases hl
      exact hw
    · change after.filter _ = (c ++ after).filter _
      rw [List.filter_append, filter_unwanted hall]
      rfl

theorem keepDraft_of_rest {h : History} (hc : h.cursor = none) (hd : h.draft = none)
    (current : Text) : h.keepDraft current = { h with draft := keyFor current } := by
  unfold keepDraft keyFor
  rw [hc]
  cases current with
  | nil => simp [← hd, ← hc]
  | cons c t => rfl

theorem keepDraft_of_browsing {h : History} {n : Nat} (hc : h.cursor = some n) (current : Text) :
    h.keepDraft current = h := by
  unfold keepDraft
  rw [hc]
  rfl

theorem linesAt_record (h : History) (prompt line other : Text) :
    (h.record prompt line).linesAt other =
      h.linesAt other ++ if line ≠ [] ∧ prompt = other then [line] else [] := by
  cases line with
  | nil => exact (List.append_nil _).symm
  | cons c line =>
    change (Assoc.get? (h.entries.put prompt (h.linesAt prompt ++ [c :: line])) other).getD [] = _
    rw [Assoc.get?_put]
    by_cases he : prompt = other
    · subst he
      simp
    · simp [he, linesAt]

/-- What a call answers, and the history that it leaves, are what the browser has. -/
def Follows (h : Option Text × History) (b : Option Text × Browser) : Prop :=
  h.1 = b.1 ∧ h.2.Shows b.2

section Calls

variable {h : History} {b : Browser} (hb : h.Shows b)

include hb

theorem Shows.filter_lines (key : Text) : h.lines.filter (wanted (keyFor key)) = b.matching key := by
  unfold History.lines Browser.matching
  rw [hb.lines, hb.prompt]
  exact List.filter_congr fun line _ => wanted_keyFor key line

/-- A browse begins at the newest matching line. -/
theorem Shows.start (key : Text) (draft : Option Text) :
    Follows (stepBack { h with key := keyFor key, draft := draft, cursor := none })
      (b.start key (draft.getD [])) := by
  let rested : History := { h with key := keyFor key, draft := draft, cursor := none }
  have hk : rested.key = keyFor key := rfl
  have hlines : rested.lines = rested.lines ++ [] := (List.append_nil _).symm
  obtain ⟨n, he, hs⟩ := stepBack_between hlines rfl hk
  have hl : rested.lines.filter (wanted (keyFor key)) = b.matching key := hb.filter_lines key
  rw [hl] at he hs
  rw [he]
  exact ⟨rfl, hb.lines, hb.prompt, hs⟩

theorem Shows.prev (current : Text) : Follows (h.prev current) (b.prev current) := by
  have hs := hb.browse
  unfold History.prev Browser.prev
  match hz : b.browse with
  | none =>
    obtain ⟨hc, hd, hk⟩ : h.Stands none := hz ▸ hs
    have hst := hb.start [] (keyFor current)
    have hnokey : keyFor [] = h.key := hk.symm
    rw [getD_keyFor, hnokey, ← hc] at hst
    rw [keepDraft_of_rest hc hd]
    exact hst
  | some ⟨key, older, newer, draft⟩ =>
    obtain ⟨before, after, hat⟩ : h.Stands (some ⟨key, older, newer, draft⟩) := hz ▸ hs
    obtain ⟨hlines, hcursor, hshown, hk, rfl, rfl, rfl⟩ := hat
    rw [keepDraft_of_browsing hcursor]
    rcases List.eq_nil_or_concat before with rfl | ⟨before, line, rfl⟩
    · -- Past the oldest there is nothing to step to.
      obtain ⟨n, he, hst⟩ := stepBack_between hlines (by simp [above, hcursor]) hk
      have hst' : Stands { h with cursor := some n } b.browse := by rw [hz]; exact hst
      rw [he]
      exact ⟨rfl, hb.lines, hb.prompt, hst'⟩
    · have hw : wanted h.key line = true := hshown line (by simp)
      have hlines' : h.lines = before ++ line :: after := by simpa using hlines
      have hold : ((before.concat line).filter (wanted h.key)).reverse =
          line :: (before.filter (wanted h.key)).reverse := by
        simp [List.filter_append, hw]
      obtain ⟨n, he, hst⟩ := stepBack_between hlines' (by simp [above, hcursor]) hk
      dsimp only at hold he hst ⊢
      rw [List.filter_cons_of_pos hw] at hst
      rw [he, hold]
      exact ⟨rfl, hb.lines, hb.prompt, hst⟩

theorem Shows.next : Follows h.next b.next := by
  have hs := hb.browse
  unfold History.next Browser.next
  match hz : b.browse with
  | none =>
    obtain ⟨hc, -, -⟩ : h.Stands none := hz ▸ hs
    rw [hc]
    exact ⟨rfl, hb⟩
  | some ⟨key, older, newer, draft⟩ =>
    obtain ⟨before, after, hat⟩ : h.Stands (some ⟨key, older, newer, draft⟩) := hz ▸ hs
    obtain ⟨hlines, hcursor, hshown, hk, rfl, rfl, rfl⟩ := hat
    have hdrop : h.lines.drop before.length = after := by rw [hlines, List.drop_left]
    rw [hcursor]
    dsimp only
    rw [hdrop]
    rcases oldest?_cases h.key before.length after with
      ⟨hnone, hall⟩ | ⟨a, line, c, rfl, hw, hall, hsome⟩
    · rw [hnone, filter_unwanted hall]
      exact ⟨rfl, hb.lines, hb.prompt, rfl, rfl, rfl⟩
    · have hnew : (a ++ line :: c).filter (wanted h.key) = line :: c.filter (wanted h.key) := by
        rw [List.filter_append, filter_unwanted hall, List.filter_cons_of_pos hw]
        rfl
      have hlines' : h.lines = before ++ a ++ [line] ++ c := by simpa using hlines
      rw [hsome, hnew]
      refine ⟨rfl, hb.lines, hb.prompt, before ++ a ++ [line], c, hlines', ?_, ?_, hk, rfl, ?_, rfl⟩
      · rw [List.length_append, List.length_append]
        rfl
      · intro l hl
        rw [List.getLast?_concat] at hl
        cases hl
        exact hw
      · simp [List.filter_append, hw, filter_unwanted hall]

theorem Shows.search (key current : Text) : Follows (h.search key current) (b.search key current) := by
  have hs := hb.browse
  unfold History.search Browser.search
  match hz : b.browse with
  | none =>
    obtain ⟨hc, hd, -⟩ : h.Stands none := hz ▸ hs
    have hst := hb.start key (keyFor current)
    rw [getD_keyFor] at hst
    rw [keepDraft_of_rest hc hd]
    exact hst
  | some z =>
    obtain ⟨before, after, hat⟩ : h.Stands (some z) := hz ▸ hs
    have hst := hb.start key h.draft
    rw [hat.draft] at hst
    rw [keepDraft_of_browsing hat.cursor]
    exact hst

theorem Shows.setPrompt (prompt : Text) : (h.setPrompt prompt).Shows (b.setPrompt prompt) :=
  ⟨hb.lines, rfl, rfl, rfl, rfl⟩

theorem Shows.record (prompt line : Text) : (h.record prompt line).Shows (b.record prompt line) := by
  refine ⟨fun other => ?_, ?_, ?_⟩
  · rw [linesAt_record, Browser.linesAt_record, hb.lines]
  · unfold History.record
    split <;> exact hb.prompt
  · unfold History.record
    split <;> exact ⟨rfl, rfl, rfl⟩

theorem Shows.cursor_le {n : Nat} (hc : h.cursor = some n) : n ≤ h.lines.length := by
  have hs := hb.browse
  match hz : b.browse with
  | none =>
    obtain ⟨hn, -, -⟩ : h.Stands none := hz ▸ hs
    rw [hn] at hc
    cases hc
  | some z =>
    obtain ⟨before, after, hat⟩ : h.Stands (some z) := hz ▸ hs
    rw [hat.cursor] at hc
    cases hc
    rw [hat.lines, List.length_append]
    exact Nat.le_add_right _ _

/-- The cursor stands within the matching lines. -/
theorem Shows.matching_eq {z : Browse} (hz : b.browse = some z) :
    z.older.reverse ++ z.newer = b.matching z.key := by
  have hs := hb.browse
  obtain ⟨before, after, hat⟩ : h.Stands (some z) := hz ▸ hs
  rw [← hb.filter_lines, hat.older, hat.newer, hat.lines, List.reverse_reverse, List.filter_append,
    hat.key]

theorem Shows.call (c : Call) : Follows (h.call c) (b.call c) := by
  cases c with
  | record prompt line => exact ⟨rfl, hb.record prompt line⟩
  | setPrompt prompt => exact ⟨rfl, hb.setPrompt prompt⟩
  | prev current => exact hb.prev current
  | next => exact hb.next
  | search key current => exact hb.search key current

theorem Shows.run (cs : List Call) :
    (History.run History.call h cs).1 = (History.run Browser.call b cs).1 ∧
      (History.run History.call h cs).2.Shows (History.run Browser.call b cs).2 := by
  induction cs generalizing h b with
  | nil => exact ⟨rfl, hb⟩
  | cons c cs ih =>
    obtain ⟨hfound, hleft⟩ := hb.call c
    obtain ⟨hrest, hend⟩ := ih hleft
    exact ⟨congrArg₂ List.cons hfound hrest, hend⟩

end Calls

/-- Whatever is called, the history answers as the cursor over the matching lines does, and its own
position stays within the lines. -/
theorem browse_refines_cursor (cs : List Call) :
    let (found, h) := run History.call .empty cs
    let (found', b) := run Browser.call .empty cs
    found = found' ∧ h.Shows b ∧
      (∀ z, b.browse = some z → z.older.reverse ++ z.newer = b.matching z.key) ∧
      (∀ n, h.cursor = some n → n ≤ h.lines.length) ∧
      (h.isBrowsing = false → h.next = (none, h)) := by
  obtain ⟨hfound, hb⟩ := shows_empty.run cs
  refine ⟨hfound, hb, fun z hz => hb.matching_eq hz, fun n hn => hb.cursor_le hn, fun hn => ?_⟩
  have hc := Option.isNone_iff_eq_none.1 (Option.isSome_eq_false_iff.1 hn)
  unfold next
  rw [hc]

end History

end ModalKeys
