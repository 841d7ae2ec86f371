import ModalKeys.Proofs.Session.Modes

namespace ModalKeys

/-- Holds when a reaction is a prompt with a preset for the line. -/
def Reaction.fillsLine : Reaction → Bool
  | .prompt p => !p.preset.isEmpty && !p.isCommand
  | _ => false

/-- The run that a reaction asks for. -/
def Reaction.run? : Reaction → Option Run
  | .run b args => some ⟨b, args⟩
  | _ => none

/-- Ahead of the last reaction no line is filled in. -/
theorem Keymap.Outcome.fillsLine_last {k : Keymap} {mode : Text} {note : Notification}
    {text : Text} {reactions : List Reaction} {stack : Stack}
    (ho : k.Outcome mode note text reactions stack) :
    ∃ plain last, reactions = plain ++ Option.toList last ∧
      ∀ r ∈ plain, r.fillsLine = false := by
  have one (rs : List Reaction) (h : ∀ r ∈ rs, r.fillsLine = false) :
      ∃ plain last, rs = plain ++ Option.toList last ∧ ∀ r ∈ plain, r.fillsLine = false :=
    ⟨rs, none, (List.append_nil rs).symm, h⟩
  cases ho with
  | idle unmatched stays => exact one _ (by simp)
  | unwound unmatched stacked ends => exact one _ (by simp [Reaction.fillsLine])
  | @alone fit _ fitted last free =>
    refine one _ ?_
    unfold Fit.runAlone
    split <;> simp [Reaction.fillsLine]
  | live fitted last bound stacked trigger => exact one _ (by simp [Reaction.fillsLine])
  | completed fitted last bound stacked trigger => exact one _ (by simp [Reaction.fillsLine])
  | @moved fit _ fitted more =>
    refine ⟨_, (fit.bind.prompt? (k.stack.depth + 1)).map .prompt, by
      cases fit.bind.prompt? (k.stack.depth + 1) <;> rfl, ?_⟩
    intro r hr
    rcases List.mem_append.1 hr with hr | hr <;> split at hr <;> simp_all [Reaction.fillsLine]

namespace Session

/-- Shows a prompt. A preset for the line is filled in, and not matched. -/
def prompted (s : Session) (p : Prompt) : Session :=
  let s := s.clearLine
  let s := if p.label.isEmpty then s else s.assign promptName p.label
  if p.preset.isEmpty then s
  else if p.isCommand then s.send p.preset
  else s.withInput (s.input.setLine p.preset)

/-- Besides the display a prompt writes its own variable. -/
theorem frame_prompted (s : Session) (p : Prompt) :
    Frame (· ∈ promptName :: displayNames) s (s.prompted p) := by
  have hc : Frame (· ∈ promptName :: displayNames) s s.clearLine :=
    (frame_clearLine s).mono fun _ => List.mem_cons_of_mem _
  have hl : Frame (· ∈ promptName :: displayNames) s
      (if p.label.isEmpty then s.clearLine else s.clearLine.assign promptName p.label) := by
    split
    · exact hc
    · exact hc.trans (frame_assign List.mem_cons_self _ _)
  unfold prompted
  dsimp only
  split
  · exact hl
  · split
    · exact hl.trans (frame_send _ _)
    · exact hl.trans (frame_withInput _ _)

/-- Does what a reaction asks for, up to the match of a line that it fills in. -/
def follow (s : Session) : Reaction → Session
  | .run b args => s.run b args
  | .clearActive => s.clearActive
  | .enterStack => s.setMode stackMode
  | .prompt p => s.prompted p
  | .leaveStack restore => (s.assign promptName []).setMode (restore.getD [])

/-- The session with another stack. -/
def withStack (s : Session) (k : Stack) : Session :=
  { s with keymap := { s.keymap with stack := k } }

/-- What a notification makes of a session, up to the match of a line that is filled in. The prompt
that fills it in is the last thing asked for, so its match comes after all else. -/
def turn (s : Session) (note : Notification) (text : Text) : Session :=
  (s.keymap.step s.mode note text).1.foldl follow
    (s.withStack (s.keymap.step s.mode note text).2)

/-- Holds when a notification has a prompt fill in the line. -/
def fillsLine (s : Session) (note : Notification) (text : Text) : Bool :=
  (s.keymap.step s.mode note text).1.any (·.fillsLine)

theorem react_eq (changed : Session → Option Session) (s : Session) (r : Reaction) :
    s.react changed r = if r.fillsLine then changed (s.follow r) else some (s.follow r) := by
  cases r with
  | prompt p =>
    simp only [react, showPrompt, follow, prompted, Reaction.fillsLine]
    by_cases hp : p.preset.isEmpty = true
    · simp [hp]
    · by_cases hc : p.isCommand = true <;> simp [hp, hc]
  | _ => rfl

theorem foldlM_react (changed : Session → Option Session) (s : Session) {rs : List Reaction}
    (h : ∀ r ∈ rs, r.fillsLine = false) : rs.foldlM (react changed) s = some (rs.foldl follow s) := by
  induction rs generalizing s with
  | nil => rfl
  | cons r rs ih =>
    rw [List.foldlM_cons, react_eq, h r (by simp)]
    exact ih (s.follow r) fun d hd => h d (by simp [hd])

/-- A dispatch is a turn, and then the match of the line if a prompt has filled it in. -/
theorem dispatch_eq {s : Session} (h : s.keymap.Sound) (changed : Session → Option Session)
    (note : Notification) (text : Text) :
    s.dispatch changed note text =
      if s.fillsLine note text then changed (s.turn note text) else some (s.turn note text) := by
  obtain ⟨plain, last, hr, hp⟩ := (Keymap.step_outcome h s.mode note text).fillsLine_last
  have hn : plain.any (·.fillsLine) = false := List.any_eq_false.2 fun r hm => by simp [hp r hm]
  change (s.keymap.step s.mode note text).1.foldlM (react changed)
    (s.withStack (s.keymap.step s.mode note text).2) = _
  rw [fillsLine, turn, hr, List.foldlM_append, foldlM_react changed _ hp]
  cases last with
  | none => simp [hn]
  | some r => simp [hn, react_eq]

theorem writes_follow (s : Session) (r : Reaction) :
    Writes (s.logged r.run?.toList) (s.follow r) := by
  cases r with
  | run b args => exact writes_run s b args
  | clearActive => exact (s.logged_nil).symm ▸ .of_frame (frame_clearActive s)
  | enterStack => exact (s.logged_nil).symm ▸ .setMode s stackMode
  | prompt p => exact (s.logged_nil).symm ▸ .of_frame (frame_prompted s p)
  | leaveStack restore =>
    exact (s.logged_nil).symm ▸ (Writes.assign s promptName []).trans (.setMode _ _)

/-- Reactions log what they run, and otherwise only write. -/
theorem writes_foldl_follow (s : Session) (rs : List Reaction) :
    Writes (s.logged (rs.filterMap Reaction.run?)) (rs.foldl follow s) := by
  induction rs generalizing s with
  | nil => exact s.logged_nil.symm ▸ Writes.refl s
  | cons r rs ih =>
    have hl : (r :: rs).filterMap Reaction.run? = r.run?.toList ++ rs.filterMap Reaction.run? := by
      rw [List.filterMap_cons]
      cases r.run? <;> rfl
    rw [hl, logged_append]
    exact ((writes_follow s r).logged _).trans (ih (s.follow r))

/-- The binds that a notification runs, with their arguments. -/
def runs (s : Session) (note : Notification) (text : Text) : List Run :=
  (s.keymap.step s.mode note text).1.filterMap Reaction.run?

theorem writes_turn (s : Session) (note : Notification) (text : Text) :
    Writes ((s.withStack (s.keymap.step s.mode note text).2).logged (s.runs note text))
      (s.turn note text) :=
  writes_foldl_follow _ _

theorem ran_turn (s : Session) (note : Notification) (text : Text) :
    (s.turn note text).ran = s.ran ++ s.runs note text := (writes_turn s note text).ran

theorem reachable_turn {s : Session} (h : s.keymap.Reachable) (note : Notification)
    (text : Text) : (s.turn note text).keymap.Reachable :=
  (writes_turn s note text).reachable (h.respond s.mode note text)

end Session

end ModalKeys
