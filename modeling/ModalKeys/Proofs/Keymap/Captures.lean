import ModalKeys.Proofs.Keymap.Reachable

namespace ModalKeys

/-- A notification that has moved the stack on, with the bind that was the first to fit. -/
structure Advance where
  leader : Bind
  note : Notification
  text : Text

/-- What the segments of a bind, from its first, capture from texts. -/
def Bind.ownCaptures (b : Bind) (texts : List Text) : List Text :=
  (texts.mapIdx fun i text => b.captured i text).flatten

theorem Bind.ownCaptures_append (b : Bind) (texts texts' : List Text) :
    b.ownCaptures (texts ++ texts') =
      b.ownCaptures texts ++
        (texts'.mapIdx fun i text => b.captured (texts.length + i) text).flatten := by
  simp only [ownCaptures, List.mapIdx_append, List.flatten_append, Nat.add_comm]

/-- What the leading binds have captured. -/
def Advance.captures (log : List Advance) : List Text :=
  (log.mapIdx fun i a => a.leader.captured i a.text).flatten

theorem Advance.captures_concat (log : List Advance) (a : Advance) :
    captures (log ++ [a]) = captures log ++ a.leader.captured log.length a.text := by
  simp [captures, List.mapIdx_append]

/-- A bind whose segments capture what those of the leading binds do has captured the same. -/
theorem Advance.captures_eq {log : List Advance} {b : Bind}
    (h : ∀ i a, log[i]? = some a → a.leader.captured i a.text = b.captured i a.text) :
    captures log = b.ownCaptures (log.map (·.text)) := by
  unfold captures Bind.ownCaptures
  congr 1
  refine List.ext_getElem? fun i => ?_
  rw [List.getElem?_mapIdx, List.getElem?_mapIdx, List.getElem?_map]
  cases hi : log[i]? with
  | none => rfl
  | some a => exact congrArg some (h i a hi)

/-- A live last segment without a literal captures all of any text. -/
theorem Bind.captured_of_liveNext {b : Bind} {depth : Nat} (hg : b.isGlobal = false)
    (h : Stack.liveNext b depth = true) (text : Text) : b.captured depth text = [text] := by
  unfold Stack.liveNext at h
  split at h
  · next s hs =>
    simp only [Bool.and_eq_true, beq_iff_eq, List.isEmpty_iff] at h
    obtain ⟨⟨ht, hl⟩, -⟩ := h
    have hc : s.capture? text = some [text] := by
      unfold Segment.capture?
      rw [ht, hl]
      rfl
    simp [Bind.captured, segment?_of_not_isGlobal hg, hs, hc]
  · cases h

namespace Keymap

/-- A keymap with the advances of its stack since depth zero. -/
structure Tracked where
  keymap : Keymap
  advances : List Advance

/-- The advance that an operation comes to if it moves the stack on. -/
def advance? (k : Keymap) : Operation → Option Advance
  | .notify mode note text => (k.matching mode note text).head?.map fun b => ⟨b, note, text⟩
  | _ => none

/-- The advances after an operation: none at depth zero, one more if the depth has changed. -/
def advancesAfter (k : Keymap) (log : List Advance) (op : Operation) : List Advance :=
  let depth := (k.apply op).stack.depth
  if depth = 0 then []
  else if depth = k.stack.depth then log
  else log ++ (k.advance? op).toList

def Tracked.apply (t : Tracked) (op : Operation) : Tracked :=
  ⟨t.keymap.apply op, t.keymap.advancesAfter t.advances op⟩

/-- The advances of the stack that some operations, in order, leave. -/
def advances (ops : List Operation) : List Advance :=
  (ops.foldl Tracked.apply ⟨empty, []⟩).advances

theorem keymap_foldl_apply (t : Tracked) (ops : List Operation) :
    (ops.foldl Tracked.apply t).keymap = ops.foldl apply t.keymap := by
  induction ops generalizing t with
  | nil => rfl
  | cons op ops ih => exact ih (t.apply op)

/-- The arguments on the stack are what the leading binds have captured, and all binds on the stack
have fitted whenever it moved on. -/
structure Tracks (k : Keymap) (log : List Advance) : Prop where
  sound : k.Sound
  length : log.length = k.stack.depth
  args : k.stack.args = Advance.captures log
  fits : ∀ b ∈ k.stack.binds, ∀ i a, log[i]? = some a → b.fits i a.note a.text = true

namespace Tracks

variable {k : Keymap} {log : List Advance}

theorem of_empty {k : Keymap} (hs : k.Sound) (h : k.stack = .empty) : Tracks k [] := by
  refine ⟨hs, ?_, ?_, ?_⟩
  · rw [h]
    rfl
  · rw [h]
    rfl
  · intro b hb i a hi
    cases hi

/-- A stack of the same depth and arguments and without further binds goes with the same log. -/
theorem of_sublist (h : Tracks k log) {k' : Keymap} (hs : k'.Sound)
    (hd : k'.stack.depth = k.stack.depth) (ha : k'.stack.args = k.stack.args)
    (hb : k'.stack.binds.Sublist k.stack.binds) : Tracks k' log := by
  refine ⟨hs, ?_, ?_, ?_⟩
  · rw [h.length, hd]
  · rw [ha, h.args]
  · intro b hm
    exact h.fits b (hb.subset hm)

theorem log_of_depth_eq (h : Tracks k log) {op : Operation}
    (hd : (k.apply op).stack.depth = k.stack.depth) : k.advancesAfter log op = log := by
  unfold advancesAfter
  dsimp only
  by_cases h0 : (k.apply op).stack.depth = 0
  · have hl : log.length = 0 := by rw [h.length, ← hd, h0]
    rw [if_pos h0, List.length_eq_zero_iff.1 hl]
  · rw [if_neg h0, if_pos hd]

theorem log_of_empty {op : Operation} (he : (k.apply op).stack = .empty) :
    k.advancesAfter log op = [] := by
  have h0 : (k.apply op).stack.depth = 0 := by
    rw [he]
    rfl
  unfold advancesAfter
  exact if_pos h0

/-- A candidate that is no chord for all modes has fitted whenever the stack moved on. -/
theorem fits_of_mem_candidates (h : Tracks k log) {mode : Text} {b : Bind}
    (hb : b ∈ k.candidates mode) (hg : b.isGlobal = false) :
    ∀ i a, log[i]? = some a → b.fits i a.note a.text = true := by
  intro i a hi
  by_cases hd : k.stack.depth = 0
  · have hl : log = [] := List.length_eq_zero_iff.1 (h.length.trans hd)
    rw [hl] at hi
    cases hi
  · exact h.fits b (mem_binds_of_mem_candidates h.sound hd hb hg) i a hi

theorem moved (h : Tracks k log) {mode : Text} {note : Notification} {text : Text} {fit : Fit}
    {later : List Bind} (fitted : k.Fitted mode note text fit later) {k' : Keymap} (hs : k'.Sound)
    (hk : k'.stack = ⟨k.stack.depth + 1,
      k.stack.args ++ fit.captured, fit.bind :: later.filter (·.goesOn k.stack.depth), none,
      k.restored mode⟩) : Tracks k' (log ++ [⟨fit.bind, note, text⟩]) := by
  have hc : fit.bind.captured k.stack.depth text = fit.captured := by
    simp [Bind.captured, fitted.segment, fitted.captured]
  refine ⟨hs, ?_, ?_, ?_⟩
  · rw [hk, List.length_append, h.length]
    rfl
  · rw [hk, Advance.captures_concat, h.length, ← h.args, hc]
  · intro b hb i a hi
    rw [hk] at hb
    have hm : b ∈ k.matching mode note text := by
      rw [fitted.matching]
      exact (List.filter_sublist.cons_cons fit.bind).subset hb
    obtain ⟨hcand, hfits⟩ := List.mem_filter.1 hm
    have hg : b.isGlobal = false := hs.stack.notGlobal b (by rw [hk]; exact hb)
    rcases Nat.lt_or_ge i log.length with hi' | hi'
    · rw [List.getElem?_append_left hi'] at hi
      exact h.fits_of_mem_candidates hcand hg i a hi
    · rw [List.getElem?_append_right hi', List.getElem?_singleton] at hi
      split at hi
      · next h0 =>
        have hd : i = k.stack.depth := by rw [← h.length]; omega
        cases hi
        rw [hd]
        exact hfits
      · cases hi

theorem notify (h : Tracks k log) (mode : Text) (note : Notification) (text : Text) :
    Tracks (k.apply (.notify mode note text)) (k.advancesAfter log (.notify mode note text)) := by
  have hs : (k.apply (.notify mode note text)).Sound := sound_respond h.sound mode note text
  have ho := step_outcome h.sound mode note text
  have hk : (k.apply (.notify mode note text)).stack = (k.step mode note text).2 := rfl
  generalize (k.step mode note text).1 = reactions at ho
  generalize (k.step mode note text).2 = stack at ho hk
  cases ho with
  | idle unmatched stays =>
    have hd : (k.apply (.notify mode note text)).stack.depth = k.stack.depth := by
      rw [hk, kept_depth]
    rw [h.log_of_depth_eq hd]
    exact h.of_sublist hs hd (by rw [hk, kept_args]) (by rw [hk]; exact kept_sublist ..)
  | unwound unmatched stacked ends =>
    rw [log_of_empty hk]
    exact of_empty hs hk
  | alone fitted last free =>
    rw [h.log_of_depth_eq (congrArg Stack.depth hk)]
    exact h.of_sublist hs (congrArg Stack.depth hk) (congrArg Stack.args hk)
      (by simp only [hk, List.Sublist.refl])
  | live fitted last bound stacked trigger =>
    have hd : (k.apply (.notify mode note text)).stack.depth = k.stack.depth := by
      rw [hk, kept_depth]
    rw [h.log_of_depth_eq hd]
    exact h.of_sublist hs hd (by rw [hk, kept_args]) (by rw [hk]; exact kept_sublist ..)
  | completed fitted last bound stacked trigger =>
    rw [log_of_empty hk]
    exact of_empty hs hk
  | @moved fit later fitted more =>
    have hd : (k.apply (.notify mode note text)).stack.depth = k.stack.depth + 1 := by rw [hk]
    have hl : k.advancesAfter log (.notify mode note text) = log ++ [⟨fit.bind, note, text⟩] := by
      unfold advancesAfter
      dsimp only
      rw [hd, if_neg (Nat.succ_ne_zero _), if_neg (Nat.succ_ne_self _)]
      simp [advance?, fitted.matching]
    rw [hl]
    exact h.moved fitted hs hk

theorem apply (h : Tracks k log) (op : Operation) :
    Tracks (k.apply op) (k.advancesAfter log op) := by
  cases op with
  | edit e =>
    have hl : k.advancesAfter log (.edit e) = log := h.log_of_depth_eq rfl
    rw [hl]
    exact h.of_sublist (sound_edit h.sound e) rfl rfl (List.Sublist.refl _)
  | notify mode note text => exact h.notify mode note text
  | reset =>
    have hl : k.advancesAfter log .reset = [] := log_of_empty rfl
    rw [hl]
    exact of_empty (sound_reset h.sound) rfl

theorem after (ops : List Operation) : Tracks (after ops) (advances ops) := by
  have hrun : ∀ t : Tracked, Tracks t.keymap t.advances →
      Tracks (ops.foldl Tracked.apply t).keymap (ops.foldl Tracked.apply t).advances := by
    induction ops with
    | nil => exact fun _ h => h
    | cons op ops ih => exact fun t h => ih (t.apply op) (h.apply op)
  have h := hrun ⟨empty, []⟩ (of_empty sound_empty rfl)
  rw [keymap_foldl_apply] at h
  exact h

/-- A bind of several segments is run with what the leading binds have captured and then its own
last capture. A live one that is run ahead of its last segment has led, and takes the empty text. -/
theorem run_args (h : Tracks k log) {mode : Text} {note : Notification} {text : Text} {b : Bind}
    {args : List Text} (hr : .run b args ∈ (k.respond mode note text).1)
    (hs : 1 < b.pattern.segments.length) :
    b.isGlobal = false ∧ b ∈ k.candidates mode ∧ args = Advance.captures log ++
      (b.captured k.stack.depth text ++
        if b.goesOn k.stack.depth then b.captured (k.stack.depth + 1) [] else []) := by
  have hg : b.isGlobal = false := by
    cases hg : b.isGlobal with
    | false => rfl
    | true => rw [Bind.length_of_isGlobal hg] at hs; exact absurd hs (Nat.lt_irrefl 1)
  have hmem {fit : Fit} {later : List Bind} (hf : k.Fitted mode note text fit later) :
      fit.bind ∈ k.candidates mode := by
    have hm : fit.bind ∈ k.matching mode note text := by simp [hf.matching]
    exact (List.mem_filter.1 hm).1
  have hcap {fit : Fit} {later : List Bind} (hf : k.Fitted mode note text fit later) :
      fit.bind.captured k.stack.depth text = fit.captured := by
    simp [Bind.captured, hf.segment, hf.captured]
  have hgoes {fit : Fit} {later : List Bind} (hf : k.Fitted mode note text fit later) :
      fit.bind.goesOn k.stack.depth = fit.segment.more := (Bind.more_eq hf.segment).symm
  have ho := step_outcome h.sound mode note text
  change Reaction.run b args ∈ (k.step mode note text).1 at hr
  generalize (k.step mode note text).1 = reactions at ho hr
  generalize (k.step mode note text).2 = stack at ho
  rw [← h.args]
  cases ho with
  | idle unmatched stays => cases hr
  | unwound unmatched stacked ends => simp at hr
  | @alone fit _ fitted last free =>
    -- At depth zero, or for a chord that fires everywhere, the bind would have one segment only.
    obtain ⟨rfl, -⟩ : b = fit.bind ∧ args = fit.captured := by
      unfold Fit.runAlone at hr
      split at hr <;> simpa using hr
    have hd : k.stack.depth = 0 := free.resolve_left (by rw [hg]; exact Bool.false_ne_true)
    have hl := hgoes fitted
    rw [last, Bind.goesOn, hd] at hl
    exact absurd hs (of_decide_eq_false hl)
  | @live fit _ fitted last bound stacked trigger =>
    obtain ⟨rfl, rfl⟩ : b = fit.bind ∧ args = k.stack.args ++ fit.captured := by simpa using hr
    exact ⟨hg, hmem fitted, by rw [hcap fitted, hgoes fitted, last]; simp⟩
  | @completed fit _ fitted last bound stacked trigger =>
    obtain ⟨rfl, rfl⟩ : b = fit.bind ∧ args = k.stack.args ++ fit.captured := by simpa using hr
    exact ⟨hg, hmem fitted, by rw [hcap fitted, hgoes fitted, last]; simp⟩
  | @moved fit later fitted more =>
    have hr' : Stack.liveNext fit.bind (k.stack.depth + 1) = true ∧ b = fit.bind ∧
        args = k.stack.args ++ fit.captured ++ [[]] := by
      rcases List.mem_append.1 hr with hr | hr
      · rcases List.mem_append.1 hr with hr | hr
        · split at hr <;> simp at hr
        · split at hr
          · next hl => exact ⟨hl, by simpa using hr⟩
          · cases hr
      · simp at hr
    obtain ⟨hl, rfl, rfl⟩ := hr'
    refine ⟨hg, hmem fitted, ?_⟩
    rw [hcap fitted, hgoes fitted, more, if_pos rfl, Bind.captured_of_liveNext hg hl,
      List.append_assoc]

end Tracks

/-- The texts that the segments of a bind are matched by once a notification runs it: those that
have moved the stack on, that of the notification, and the empty one if the bind runs ahead of its
last segment. -/
def runTexts (k : Keymap) (log : List Advance) (b : Bind) (text : Text) : List Text :=
  log.map (·.text) ++ if b.goesOn k.stack.depth then [text, []] else [text]

/-- A bind of several segments has fitted whenever the stack moved on, and it is run with its own
captures if whatever led each time captured what the bind itself would have. -/
theorem stacked_run_own_captures (ops : List Operation) (mode : Text) (note : Notification)
    (text : Text) {b : Bind} {args : List Text}
    (hr : .run b args ∈ ((after ops).respond mode note text).1)
    (hs : 1 < b.pattern.segments.length)
    (hl : ∀ i a, (advances ops)[i]? = some a → a.leader.captured i a.text = b.captured i a.text) :
    (∀ i a, (advances ops)[i]? = some a → b.fits i a.note a.text = true) ∧
      args = b.ownCaptures (runTexts (after ops) (advances ops) b text) := by
  have h := Tracks.after ops
  obtain ⟨hg, hb, hargs⟩ := h.run_args hr hs
  refine ⟨h.fits_of_mem_candidates hb hg, ?_⟩
  rw [hargs, runTexts, Bind.ownCaptures_append, Advance.captures_eq hl, List.length_map, h.length]
  congr 1
  split <;> simp

/-- The addition of a command bind for all modes, if its pattern compiles. -/
def Operation.define (source command : Text) : List Operation :=
  (Bind.ofCommands source [command]).toOption.toList.map fun b => .edit (.add globalMode b)

/-- Two binds begin alike; the second is run with what the first, which led, captured as well. -/
theorem stacked_run_own_captures_alike :
    let ops := Operation.define "m_<from:>x!".toList "first %s".toList ++
      Operation.define "m_<to:>y_".toList "second %s".toList ++
        [.notify "command".toList (.commandExec ∅) "mz".toList]
    ∃ b args, .run b args ∈ ((after ops).respond stackMode (.commandExec ∅) "yw".toList).1 ∧
      (∀ i a, (advances ops)[i]? = some a → b.fits i a.note a.text = true) ∧
      args = b.ownCaptures (runTexts (after ops) (advances ops) b "yw".toList) := by
  intro ops
  have hc : ((after ops).respond stackMode (.commandExec ∅) "yw".toList).1.filterMap (fun
      | .run b _ => some (decide (1 < b.pattern.segments.length), (advances ops).mapIdx fun i a =>
          decide (a.leader.captured i a.text = b.captured i a.text))
      | _ => none) = [(true, [true])] := by decide +kernel
  obtain ⟨r, hr, hb⟩ := List.mem_filterMap.1 (hc ▸ List.mem_singleton_self (true, [true]))
  cases r with
  | run b args =>
    obtain ⟨hs, ha⟩ := Prod.mk.inj (Option.some.inj hb)
    refine ⟨b, args, hr, stacked_run_own_captures ops _ _ _ hr (of_decide_eq_true hs) ?_⟩
    intro i a hi
    have hm := congrArg (·[i]?) ha
    rw [List.getElem?_mapIdx, hi, List.getElem?_singleton] at hm
    split at hm
    · exact of_decide_eq_true (Option.some.inj hm)
    · cases hm
  | _ => cases hb

/-- Two binds take a different part of the same text; the second is run with the first one's
part. -/
theorem stacked_run_shares_captures :
    let ops := Operation.define "a_<p:>x!".toList "first %s".toList ++
      Operation.define "ab_<q:>y!".toList "second %s".toList ++
        [.notify "command".toList (.commandExec ∅) "abc".toList]
    ∃ b args, .run b args ∈ ((after ops).respond stackMode (.commandExec ∅) "y".toList).1 ∧
      1 < b.pattern.segments.length ∧ b.goesOn (after ops).stack.depth = false ∧
      args = ["bc".toList] ∧
      b.ownCaptures (runTexts (after ops) (advances ops) b "y".toList) = ["c".toList] := by
  intro ops
  have hc : ((after ops).respond stackMode (.commandExec ∅) "y".toList).1.filterMap (fun
      | .run b args => some (decide (1 < b.pattern.segments.length),
          b.goesOn (after ops).stack.depth, args,
          b.ownCaptures (runTexts (after ops) (advances ops) b "y".toList))
      | _ => none) = [(true, false, ["bc".toList], ["c".toList])] := by decide +kernel
  obtain ⟨r, hr, hb⟩ := List.mem_filterMap.1
    (hc ▸ List.mem_singleton_self (true, false, ["bc".toList], ["c".toList]))
  cases r with
  | run b args =>
    obtain ⟨hs, hb⟩ := Prod.mk.inj (Option.some.inj hb)
    obtain ⟨hg, hb⟩ := Prod.mk.inj hb
    obtain ⟨ha, ho⟩ := Prod.mk.inj hb
    exact ⟨b, args, hr, of_decide_eq_true hs, hg, ha, ho⟩
  | _ => cases hb

end Keymap

end ModalKeys
