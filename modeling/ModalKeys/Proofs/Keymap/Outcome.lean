import ModalKeys.Proofs.Keymap.Candidates

namespace ModalKeys

namespace Stack

/-- The stack without the patterns of some binds. -/
def without (k : Stack) (bs : List Bind) : Stack :=
  { k with binds := k.binds.filter fun b => bs.all (b.source ≠ ·.source) }

theorem without_nil (k : Stack) : k.without [] = k := by
  have h : k.binds.filter (fun b => ([] : List Bind).all (b.source ≠ ·.source)) = k.binds :=
    List.filter_eq_self.2 fun _ _ => rfl
  rw [without, h]

theorem evict_without (k : Stack) (b : Bind) (bs : List Bind) :
    (k.evict b).without bs = k.without (b :: bs) := by
  simp only [evict, without, List.filter_filter, List.all_cons]
  congr 2
  funext c
  simp [Bool.and_comm]

/-- Binds of new patterns all join the stack. -/
theorem foldl_join (k : Stack) (bs : List Bind)
    (h : ((k.binds ++ bs).map (·.source)).Nodup) :
    bs.foldl join k = { k with binds := k.binds ++ bs } := by
  induction bs generalizing k with
  | nil => simp
  | cons b bs ih =>
    have hb : k.binds.any (·.source = b.source) = false := by
      rw [List.any_eq_false]
      intro c hc he
      rw [List.map_append, List.nodup_append] at h
      exact h.2.2 c.source (List.mem_map.2 ⟨c, hc, rfl⟩) b.source (by simp) (of_decide_eq_true he)
    have hj : k.join b = { k with binds := k.binds ++ [b] } := by simp [join, hb]
    rw [List.foldl_cons, hj, ih _ (by simpa using h)]
    simp

theorem mem_without {k : Stack} {bs : List Bind} {b : Bind} :
    b ∈ (k.without bs).binds ↔ b ∈ k.binds ∧ ∀ d ∈ bs, b.source ≠ d.source := by
  simp [without]

end Stack

namespace Scan

variable (depth : Nat) (mode : Text) (note : Notification) (text : Text)

theorem through_cons_of_not_fits (c : Scan) {b : Bind} (h : b.fits depth note text = false)
    (bs : List Bind) :
    c.through depth mode note text (b :: bs) =
      (if b.isDead depth note text then c.miss depth b else c).through depth mode note text bs := by
  rw [through, Bind.answer_of_not_fits h]
  cases b.isDead depth note text <;> rfl

/-- Once a bind has moved the stack on, the binds that fit and go on join it. -/
theorem through_moved (c : Scan) (hm : c.moved = true) (bs : List Bind) :
    c.through depth mode note text bs =
      Scan.close { c with
        stack := (bs.filter fun b => b.fits depth note text && b.goesOn depth).foldl
          Stack.join c.stack } depth note := by
  induction bs generalizing c with
  | nil => rfl
  | cons b bs ih =>
    cases hf : b.fits depth note text with
    | false =>
      have hmiss : c.miss depth b = c := by simp [miss, hm]
      rw [through_cons_of_not_fits depth mode note text c hf, hmiss, ite_self, ih c hm]
      simp [hf]
    | true =>
      obtain ⟨s, hs, -, -, ha⟩ := Bind.answer_of_fits hf
      have hmore : s.more = b.goesOn depth := Bind.more_eq hs
      rw [through, ha]
      -- A moved scan ends only at the end of the list: a bind without more to come is skipped.
      cases hg : b.goesOn depth with
      | false =>
        simp only [hm, hmore, hg, Bool.not_false, Bool.and_self, if_true]
        rw [ih c hm]
        simp [hg, hm]
      | true =>
        have hn : b.isGlobal = false := by
          cases hi : b.isGlobal with
          | false => rfl
          | true => rw [Bind.goesOn_of_isGlobal hi] at hg; cases hg
        have hadv : c.advance mode ⟨b, s, b.captured depth text⟩ =
            { c with stack := c.stack.join b } := by simp [advance, hm]
        simp only [hmore, hg, hn, hadv, Bool.not_true, Bool.and_false, Bool.false_eq_true,
          Bool.or_false, if_false, if_true]
        rw [ih _ (by exact hm)]
        simp [hf, hg]

/-- Ahead of the first bind that fits, the dead binds lose their place on the stack. -/
theorem through_append_of_not_fits (c : Scan) (hm : c.moved = false) (before after : List Bind)
    (hb : ∀ b ∈ before, b.fits depth note text = false) :
    c.through depth mode note text (before ++ after) =
      Scan.through depth mode note text { c with
        stack := if depth = 0 then c.stack
          else c.stack.without (before.filter (·.isDead depth note text)) } after := by
  induction before generalizing c with
  | nil => simp [Stack.without_nil]
  | cons b bs ih =>
    have hbs : ∀ b ∈ bs, b.fits depth note text = false := fun d hd => hb d (by simp [hd])
    rw [List.cons_append, through_cons_of_not_fits depth mode note text c (hb b (by simp))]
    by_cases hd : depth = 0
    · have hmiss : c.miss depth b = c := by simp [miss, hd]
      rw [hmiss, ite_self, ih c hm hbs]
      simp [hd]
    · cases hdead : b.isDead depth note text with
      | false =>
        rw [if_neg Bool.false_ne_true, ih c hm hbs]
        simp [hd, hdead]
      | true =>
        -- The dead binds leave one by one; `evict_without` gathers them into one filter.
        have hmiss : c.miss depth b = { c with stack := c.stack.evict b } := by
          simp [miss, hd, hm]
        rw [if_pos rfl, hmiss, ih _ (by exact hm) hbs]
        simp [hd, hdead, Stack.evict_without]

end Scan

namespace Keymap

/-- The candidates that fit, in order. -/
def matching (k : Keymap) (mode : Text) (note : Notification) (text : Text) : List Bind :=
  (k.candidates mode).filter (·.fits k.stack.depth note text)

/-- The stack without the dead binds ahead of the first candidate that fits. -/
def kept (k : Keymap) (mode : Text) (note : Notification) (text : Text) : Stack :=
  if k.stack.depth = 0 then k.stack
  else k.stack.without
    (((k.candidates mode).takeWhile (!·.fits k.stack.depth note text)).filter
      (·.isDead k.stack.depth note text))

theorem kept_depth (k : Keymap) (mode : Text) (note : Notification) (text : Text) :
    (k.kept mode note text).depth = k.stack.depth := by
  unfold kept; split <;> rfl

theorem kept_args (k : Keymap) (mode : Text) (note : Notification) (text : Text) :
    (k.kept mode note text).args = k.stack.args := by
  unfold kept; split <;> rfl

theorem kept_lastMode (k : Keymap) (mode : Text) (note : Notification) (text : Text) :
    (k.kept mode note text).lastMode = k.stack.lastMode := by
  unfold kept; split <;> rfl

theorem kept_pending (k : Keymap) (mode : Text) (note : Notification) (text : Text) :
    (k.kept mode note text).pending = k.stack.pending := by
  unfold kept; split <;> rfl

theorem kept_sublist (k : Keymap) (mode : Text) (note : Notification) (text : Text) :
    (k.kept mode note text).binds.Sublist k.stack.binds := by
  unfold kept
  split
  · exact List.Sublist.refl _
  · exact List.filter_sublist

/-- A chord leaves the stack as it is. -/
theorem kept_of_chord (k : Keymap) (mode : Text) {note : Notification} (h : note.chord = true)
    (text : Text) : k.kept mode note text = k.stack := by
  have hd : ((k.candidates mode).takeWhile (!·.fits k.stack.depth note text)).filter
      (·.isDead k.stack.depth note text) = [] :=
    List.filter_eq_nil_iff.2 fun b _ => by rw [Bind.isDead_of_chord b _ h]; exact Bool.false_ne_true
  rw [kept, hd, Stack.without_nil, ite_self]

/-- The bind of a fit is the first candidate that fits, and `later` are the others. -/
structure Fitted (k : Keymap) (mode : Text) (note : Notification) (text : Text) (fit : Fit)
    (later : List Bind) : Prop where
  matching : k.matching mode note text = fit.bind :: later
  segment : fit.bind.segment? k.stack.depth = some fit.segment
  fits : fit.segment.fits note text = true
  captured : fit.segment.capture? text = some fit.captured

theorem Fitted.mem_candidates {k : Keymap} {mode : Text} {note : Notification} {text : Text} {fit : Fit}
    {later : List Bind} (hf : k.Fitted mode note text fit later) {b : Bind}
    (hb : b ∈ fit.bind :: later) : b ∈ k.candidates mode := by
  rw [← hf.matching] at hb
  exact (List.mem_filter.1 hb).1

/-- The first candidate that fits has a pattern of its own, ahead of those that go on. -/
theorem Fitted.nodup {k : Keymap} (h : k.Sound) {mode : Text} {note : Notification} {text : Text}
    {fit : Fit} {later : List Bind} (hf : k.Fitted mode note text fit later) :
    ((fit.bind :: later.filter (·.goesOn k.stack.depth)).map (·.source)).Nodup := by
  have hm : (fit.bind :: later).Sublist (k.candidates mode) := by
    rw [← hf.matching]
    exact List.filter_sublist
  have hs : (fit.bind :: later.filter (·.goesOn k.stack.depth)).Sublist (fit.bind :: later) :=
    List.filter_sublist.cons_cons fit.bind
  exact (nodup_candidates h mode).sublist ((hs.trans hm).map (·.source))

/-- The mode to restore once a stack that is moved on in a mode ends. -/
def restored (k : Keymap) (mode : Text) : Option Text :=
  if mode ≠ stackMode then (if mode.isEmpty then none else some mode) else k.stack.lastMode

/-- What a notification comes to: the reactions, and the stack after it. -/
inductive Outcome (k : Keymap) (mode : Text) (note : Notification) (text : Text) :
    List Reaction → Stack → Prop
  | idle (unmatched : k.matching mode note text = [])
      (stays : k.stack.depth = 0 ∨
        (note.submits = false ∧ (k.kept mode note text).binds ≠ [])) :
      Outcome k mode note text [] (k.kept mode note text)
  | unwound (unmatched : k.matching mode note text = []) (stacked : k.stack.depth ≠ 0)
      (ends : note.submits = true ∨ (k.kept mode note text).binds = []) :
      Outcome k mode note text [.leaveStack k.stack.lastMode] .empty
  | alone {fit : Fit} {later : List Bind} (fitted : k.Fitted mode note text fit later)
      (last : fit.segment.more = false) (free : fit.bind.isGlobal = true ∨ k.stack.depth = 0) :
      Outcome k mode note text fit.runAlone k.stack
  | live {fit : Fit} {later : List Bind} (fitted : k.Fitted mode note text fit later)
      (last : fit.segment.more = false) (bound : fit.bind.isGlobal = false)
      (stacked : k.stack.depth ≠ 0) (trigger : fit.segment.trigger = .live) :
      Outcome k mode note text [.run fit.bind (k.stack.args ++ fit.captured)]
        (k.kept mode note text)
  | completed {fit : Fit} {later : List Bind} (fitted : k.Fitted mode note text fit later)
      (last : fit.segment.more = false) (bound : fit.bind.isGlobal = false)
      (stacked : k.stack.depth ≠ 0) (trigger : fit.segment.trigger ≠ .live) :
      Outcome k mode note text
        [.run fit.bind (k.stack.args ++ fit.captured), .leaveStack k.stack.lastMode] .empty
  | moved {fit : Fit} {later : List Bind} (fitted : k.Fitted mode note text fit later)
      (more : fit.segment.more = true) :
      Outcome k mode note text
        ((if mode ≠ stackMode then [.enterStack] else []) ++
          (if Stack.liveNext fit.bind (k.stack.depth + 1)
            then [.run fit.bind (k.stack.args ++ fit.captured ++ [[]])] else []) ++
          (fit.bind.prompt? (k.stack.depth + 1)).toList.map .prompt)
        ⟨k.stack.depth + 1, k.stack.args ++ fit.captured,
          fit.bind :: later.filter (·.goesOn k.stack.depth), none, k.restored mode⟩

/-- Without a candidate that fits, the scan closes on the stack without the dead binds. -/
theorem step_of_no_fit (k : Keymap) {mode : Text} {note : Notification} {text : Text}
    (h : k.matching mode note text = []) :
    k.step mode note text =
      (Scan.start (k.kept mode note text)).close k.stack.depth note := by
  have hb : ∀ b ∈ k.candidates mode, b.fits k.stack.depth note text = false := fun b hb => by
    simpa using List.filter_eq_nil_iff.1 h b hb
  have ht : (k.candidates mode).takeWhile (!·.fits k.stack.depth note text) = k.candidates mode := by
    have hp : ∀ b ∈ k.candidates mode, (!b.fits k.stack.depth note text) = true := fun b hm => by
      rw [hb b hm]
      rfl
    rw [← List.append_nil (k.candidates mode), List.takeWhile_append_of_pos hp, List.takeWhile_nil]
  have hs := Scan.through_append_of_not_fits k.stack.depth mode note text (Scan.start k.stack) rfl
    (k.candidates mode) [] hb
  rw [List.append_nil] at hs
  rw [step, hs, kept, ht]
  rfl

/-- Up to the first candidate that fits, the scan only drops the dead binds. -/
theorem step_of_fit (k : Keymap) {mode : Text} {note : Notification} {text : Text} {b : Bind}
    {later : List Bind} (h : k.matching mode note text = b :: later) :
    ∃ before after, k.candidates mode = before ++ b :: after ∧
      (∀ d ∈ before, d.fits k.stack.depth note text = false) ∧
      b.fits k.stack.depth note text = true ∧
      after.filter (·.fits k.stack.depth note text) = later ∧
      (k.candidates mode).takeWhile (!·.fits k.stack.depth note text) = before ∧
      k.step mode note text =
        (Scan.start (k.kept mode note text)).through k.stack.depth mode note text (b :: after) := by
  obtain ⟨before, after, hc, hn, hf, hl⟩ := List.filter_eq_cons_iff.1 h
  have hb : ∀ d ∈ before, d.fits k.stack.depth note text = false := fun d hd => by
    simpa using hn d hd
  have ht : (k.candidates mode).takeWhile (!·.fits k.stack.depth note text) = before := by
    rw [hc, List.takeWhile_append_of_pos fun d hd => by rw [hb d hd]; rfl,
      List.takeWhile_cons_of_neg (by rw [hf]; exact Bool.false_ne_true), List.append_nil]
  have hs := Scan.through_append_of_not_fits k.stack.depth mode note text (Scan.start k.stack) rfl
    before (b :: after) hb
  refine ⟨before, after, hc, hb, hf, hl, ht, ?_⟩
  rw [step, hc, hs, kept, ht]
  rfl

theorem start_close {s : Stack} (h : s.pending = none) (depth : Nat) (note : Notification) :
    (Scan.start s).close depth note = s.giveUp depth note := by
  simp [Scan.close, Scan.start, Scan.finish, Stack.settle, h]

theorem outcome_of_no_fit {k : Keymap} (h : k.Sound) {mode : Text} {note : Notification}
    {text : Text} (hM : k.matching mode note text = []) :
    k.Outcome mode note text (k.step mode note text).1 (k.step mode note text).2 := by
  have hp : (k.kept mode note text).pending = none := by rw [kept_pending, h.stack.pending]
  rw [step_of_no_fit k hM, start_close hp, Stack.giveUp]
  have hd := kept_depth k mode note text
  split
  · next hc =>
    simp only [hd, decide_true, Bool.and_true, Bool.and_eq_true, decide_eq_true_eq,
      Bool.or_eq_true, List.isEmpty_iff] at hc
    rw [Stack.unwind, kept_lastMode]
    exact .unwound hM hc.1 hc.2
  · next hc =>
    refine .idle hM ?_
    by_cases h0 : k.stack.depth = 0
    · exact .inl h0
    · simpa [hd, h0] using hc

theorem start_advance (s : Stack) (mode : Text) (fit : Fit) :
    (Scan.start s).advance mode fit = ⟨(s.push mode fit).2, (s.push mode fit).1, true⟩ := rfl

/-- The stack that a bind moves on, with the binds that join it, is settled by its prompt. -/
theorem close_push (s : Stack) (mode : Text) (fit : Fit) (joined : List Bind) (note : Notification)
    (hn : ((fit.bind :: joined).map (·.source)).Nodup) :
    Scan.close ⟨joined.foldl Stack.join (s.push mode fit).2, (s.push mode fit).1, true⟩
        s.depth note =
      ((s.push mode fit).1 ++ (fit.bind.prompt? (s.depth + 1)).toList.map .prompt,
        { (s.push mode fit).2 with binds := fit.bind :: joined, pending := none }) := by
  have hj : joined.foldl Stack.join (s.push mode fit).2 =
      { (s.push mode fit).2 with binds := fit.bind :: joined } := Stack.foldl_join _ _ hn
  rw [hj]
  cases hp : fit.bind.prompt? (s.depth + 1) <;>
    simp [Scan.close, Scan.finish, Stack.settle, Stack.giveUp, Stack.push, hp]

/-- The ways in which a notification can come out. -/
theorem step_outcome {k : Keymap} (h : k.Sound) (mode : Text) (note : Notification) (text : Text) :
    k.Outcome mode note text (k.step mode note text).1 (k.step mode note text).2 := by
  cases hM : k.matching mode note text with
  | nil => exact outcome_of_no_fit h hM
  | cons b later =>
    obtain ⟨before, after, hc, -, hf, hl, -, hs⟩ := step_of_fit k hM
    obtain ⟨s, hseg, hfits, hcap, ha⟩ := Bind.answer_of_fits hf
    let fit : Fit := ⟨b, s, b.captured k.stack.depth text⟩
    have fitted : k.Fitted mode note text fit later := ⟨hM, hseg, hfits, hcap⟩
    have hb : b ∈ k.candidates mode := by simp [hc]
    have hrun : k.step mode note text = if b.isGlobal || (k.stack.depth = 0 && !s.more) then
          (Scan.start (k.kept mode note text)).finish (fit.runAlone, k.kept mode note text)
        else if s.more then ((Scan.start (k.kept mode note text)).advance mode fit).through
          k.stack.depth mode note text after
        else (Scan.start (k.kept mode note text)).finish
          ((k.kept mode note text).complete fit) := by
      rw [hs, Scan.through, ha]
      rfl
    cases hm : s.more with
    | true =>
      -- A global bind is a single segment, so it never goes on.
      have hg : b.isGlobal = false := by
        cases hg : b.isGlobal with
        | false => rfl
        | true => rw [Bind.more_of_isGlobal hg hseg] at hm; cases hm
      have hn := fitted.nodup h
      have hj : (after.filter fun d => d.fits k.stack.depth note text && d.goesOn k.stack.depth) =
          later.filter (·.goesOn k.stack.depth) := by
        rw [← hl, List.filter_filter]
        congr 1
        funext d
        rw [Bool.and_comm]
      have hstep : k.step mode note text =
          (((k.kept mode note text).push mode fit).1 ++
            (b.prompt? (k.stack.depth + 1)).toList.map .prompt,
           { ((k.kept mode note text).push mode fit).2 with
              binds := b :: later.filter (·.goesOn k.stack.depth), pending := none }) := by
        have hclose := close_push (k.kept mode note text) mode fit _ note hn
        rw [kept_depth] at hclose
        rw [hrun, hg, hm, start_advance, Scan.through_moved _ _ _ _ _ rfl, hj, ← hclose]
        simp
      rw [hstep, Stack.push, kept_depth, kept_args, kept_lastMode]
      exact Outcome.moved fitted hm
    | false =>
      by_cases hfree : b.isGlobal = true ∨ k.stack.depth = 0
      · -- Nothing is dropped: at depth zero no bind is held, and no bind dies of a chord.
        have hk : k.kept mode note text = k.stack := by
          rcases hfree with hg | h0
          · have hchord : note.chord = true := by
              rw [Segment.fits, decide_eq_true_eq, Bind.isChord_of_isGlobal hg hseg] at hfits
              exact hfits.1.symm
            exact kept_of_chord k mode hchord text
          · rw [kept, if_pos h0]
        have hstep : k.step mode note text = (fit.runAlone, k.stack) := by
          rw [hrun, if_pos (by simpa [hm] using hfree), hk]
          rfl
        rw [hstep]
        exact .alone fitted hm hfree
      · obtain ⟨hg, hd⟩ := not_or.1 hfree
        have hg : b.isGlobal = false := Bool.eq_false_iff.2 hg
        have hstep : k.step mode note text = (k.kept mode note text).complete fit := by
          rw [hrun, if_neg (by simp [hg, hd]), hm, if_neg Bool.false_ne_true]
          rfl
        rw [hstep, Stack.complete, kept_args]
        split
        · next ht => exact .live fitted hm hg hd ht
        · next ht =>
          rw [Stack.unwind, kept_lastMode]
          exact .completed fitted hm hg hd ht

end Keymap

end ModalKeys
