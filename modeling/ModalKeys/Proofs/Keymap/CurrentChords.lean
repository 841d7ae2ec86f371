import ModalKeys.Proofs.Definition.Install
import ModalKeys.Proofs.Keymap.FirstMatch
import ModalKeys.Proofs.Registry.Log

namespace ModalKeys

namespace Registry

/-- What can be asked of a registry: a change of one row, a definition, or a list of them. -/
inductive Call
  | edit (e : Edit)
  | apply (d : Definition)
  | install (ds : List Definition)

/-- The registry after a call, refused or not. -/
def call (r : Registry) : Call → Registry
  | .edit e => r.edit e
  | .apply d => (d.apply r).registry
  | .install ds => (Definition.install r ds).1

def callAll (r : Registry) (cs : List Call) : Registry := cs.foldl call r

/-- The changes that a call comes to; a definition that is refused makes none. -/
def Call.edits : Call → List Edit
  | .edit e => [e]
  | .apply d => if d.Valid then d.edits else []
  | .install ds => (ds.filter (·.Valid)).flatMap Definition.edits

/-- The rows that some calls put into the tables, in order. -/
def callLog (cs : List Call) : Log := log (cs.flatMap Call.edits)

theorem call_eq (r : Registry) (c : Call) : r.call c = r.editAll c.edits := by
  cases c with
  | edit e => rfl
  | apply d =>
    rw [call, Call.edits]
    split
    · next h => rw [h.apply_eq]
    · next h =>
      obtain ⟨e, he⟩ := Definition.apply_of_not_valid h r
      rw [he]
      rfl
  | install ds => exact congrArg Prod.fst (Definition.install_eq r ds)

theorem callAll_eq (r : Registry) (cs : List Call) :
    r.callAll cs = r.editAll (cs.flatMap Call.edits) := by
  induction cs generalizing r with
  | nil => rfl
  | cons c cs ih =>
    rw [List.flatMap_cons, editAll_append, ← call_eq]
    exact ih (r.call c)

theorem sound_editAll {r : Registry} (h : r.Sound) (es : List Edit) : (r.editAll es).Sound := by
  induction es generalizing r with
  | nil => exact h
  | cons e es ih => exact ih (sound_edit h e)

theorem sound_callAll {r : Registry} (h : r.Sound) (cs : List Call) : (r.callAll cs).Sound :=
  callAll_eq r cs ▸ sound_editAll h _

/-- The chords at hand are those among the binds for all modes, in their order. -/
theorem globalChords_eq {r : Registry} (h : r.Sound) :
    r.globalChords = (r.bindsIn globalMode).filter Bind.isGlobal := by
  rw [h.chords, bindsIn_global]

theorem mem_globalChords_iff {r : Registry} (h : r.Sound) {b : Bind} (hg : b.isGlobal = true) :
    b ∈ r.globalChords ↔ r.global.find? b.source = some (.bound b) := by
  rw [h.chords, List.mem_filter, and_iff_left hg, Table.mem_binds_iff h.global]

/-- After some calls a chord is at hand if the last row that they put for its pattern into the table
for all modes binds it, or if there is none and it was at hand before. -/
theorem mem_globalChords_callAll {r : Registry} (h : r.Sound) {b : Bind} (hg : b.isGlobal = true)
    (cs : List Call) :
    b ∈ (r.callAll cs).globalChords ↔
      match (callLog cs).last? globalMode b.source with
      | some row => row = .bound b
      | none => b ∈ r.globalChords := by
  rw [mem_globalChords_iff (sound_callAll h cs) hg, callAll_eq, global_editAll,
    Table.find?_overlay]
  -- The table looks the pattern up among the rows of the log, and then in what it held.
  change ((callLog cs).last? globalMode b.source).or _ = _ ↔ _
  cases (callLog cs).last? globalMode b.source with
  | some row => exact Option.some_inj
  | none => exact (mem_globalChords_iff h hg).symm

end Registry

namespace Keymap

variable {k : Keymap} {mode : Text} {note : Notification} {text : Text}

/-- What a keymap in use goes through. -/
inductive Act
  | call (c : Registry.Call)
  | notify (mode : Text) (note : Notification) (text : Text)
  | reset

def act (k : Keymap) : Act → Keymap
  | .call c => { k with registry := k.registry.call c }
  | .notify mode note text => (k.respond mode note text).2
  | .reset => k.reset

/-- The keymap that some acts, in order, make of an empty one. -/
def afterActs (acts : List Act) : Keymap := acts.foldl act empty

/-- The keymap after some calls. They leave the stack alone. -/
def callAll (k : Keymap) (cs : List Registry.Call) : Keymap :=
  { k with registry := k.registry.callAll cs }

theorem sound_callAll (h : k.Sound) (cs : List Registry.Call) : (k.callAll cs).Sound :=
  ⟨Registry.sound_callAll h.registry cs, h.stack, h.distinct, h.binds_ne_nil⟩

theorem sound_act (h : k.Sound) (a : Act) : (k.act a).Sound := by
  cases a with
  | call c => exact sound_callAll h [c]
  | notify mode note text => exact sound_respond h mode note text
  | reset => exact sound_reset h

theorem sound_foldl_act (h : k.Sound) (acts : List Act) : (acts.foldl act k).Sound := by
  induction acts generalizing k with
  | nil => exact h
  | cons a acts ih => exact ih (sound_act h a)

/-- Behind the binds in progress stand the chords of the table for all modes. -/
theorem candidates_of_stacked (h : k.Sound) (hd : k.stack.depth ≠ 0) (mode : Text) :
    k.candidates mode =
      k.stack.binds ++ (k.registry.bindsIn globalMode).filter Bind.isGlobal := by
  rw [candidates, if_neg hd, Registry.globalChords_eq h.registry]

/-- No chord that fires at every depth is on the stack itself. -/
theorem mem_candidates_iff (h : k.Sound) (hd : k.stack.depth ≠ 0) {b : Bind}
    (hg : b.isGlobal = true) : b ∈ k.candidates mode ↔ b ∈ k.registry.globalChords := by
  rw [candidates, if_neg hd, List.mem_append, or_iff_right]
  intro hb
  rw [h.stack.notGlobal b hb] at hg
  cases hg

/-- Only candidates are run. -/
theorem Outcome.mem_candidates_of_run {reactions : List Reaction} {stack : Stack}
    (ho : k.Outcome mode note text reactions stack) {b : Bind} {args : List Text}
    (hr : .run b args ∈ reactions) : b ∈ k.candidates mode := by
  cases ho with
  | idle unmatched stays => cases hr
  | unwound unmatched stacked ends => simp at hr
  | @alone fit _ fitted last free =>
    obtain ⟨rfl, -⟩ : b = fit.bind ∧ args = fit.captured := by
      unfold Fit.runAlone at hr
      split at hr <;> simpa using hr
    exact fitted.mem_candidates List.mem_cons_self
  | @live fit _ fitted last bound stacked trigger =>
    obtain ⟨rfl, -⟩ : b = fit.bind ∧ args = k.stack.args ++ fit.captured := by simpa using hr
    exact fitted.mem_candidates List.mem_cons_self
  | @completed fit _ fitted last bound stacked trigger =>
    obtain ⟨rfl, -⟩ : b = fit.bind ∧ args = k.stack.args ++ fit.captured := by simpa using hr
    exact fitted.mem_candidates List.mem_cons_self
  | @moved fit later fitted more =>
    -- Neither the way into the stack mode nor the prompt is a run.
    obtain rfl : b = fit.bind := by
      rcases List.mem_append.1 hr with hr | hr
      · rcases List.mem_append.1 hr with hr | hr
        · split at hr <;> simp at hr
        · split at hr
          · exact (Reaction.run.inj (List.mem_singleton.1 hr)).1
          · cases hr
      · simp at hr
    exact fitted.mem_candidates List.mem_cons_self

/-- A chord that fires at every depth, as the first candidate that fits, is run with its own
capture, and the keymap stays as it is. -/
theorem respond_of_chord_first (h : k.Sound) {b : Bind} {later : List Bind}
    (hm : k.matching mode note text = b :: later) (hg : b.isGlobal = true) :
    k.respond mode note text =
      (.run b (b.captured k.stack.depth text) ::
        if b.captures k.stack.depth then [] else [.clearActive], k) := by
  have ha : k.runsAlone b = true := by simp [runsAlone, hg]
  obtain ⟨hr, hk⟩ := (step_outcome h mode note text).of_last hm (Bind.goesOn_of_isGlobal hg _)
  rw [argsOf, closing, if_pos ha, if_pos ha] at hr
  rw [closed, if_pos ha] at hk
  exact Prod.ext hr hk

/-- After any acts, refused calls among them, the chords at hand are those of the table for all
modes, in its order. They stand behind a bind in progress, and further calls count from the very
next notification on: the last row that they put for the pattern of a chord decides whether it is a
candidate, and a chord that they do not name stays what it was. Only candidates are run, and a chord
that is the first of them to fit is run. -/
theorem chords_current (acts : List Act) (cs : List Registry.Call) (mode : Text) :
    let k := afterActs acts
    let l := k.callAll cs
    let d := k.stack.depth
    l.registry.globalChords = (l.registry.bindsIn globalMode).filter Bind.isGlobal ∧
    (d ≠ 0 →
      l.candidates mode =
        k.stack.binds ++ (l.registry.bindsIn globalMode).filter Bind.isGlobal ∧
      (∀ b, b.isGlobal = true → (b ∈ l.candidates mode ↔
        match (Registry.callLog cs).last? globalMode b.source with
        | some row => row = .bound b
        | none => b ∈ k.candidates mode)) ∧
      ∀ note text,
        (∀ b args, .run b args ∈ (l.respond mode note text).1 → b ∈ l.candidates mode) ∧
        ∀ b later, (l.candidates mode).filter (·.fits d note text) = b :: later →
          b.isGlobal = true →
          l.respond mode note text =
            (.run b (b.captured d text) :: if b.captures d then [] else [.clearActive], l)) := by
  intro k l d
  have hk : k.Sound := sound_foldl_act sound_empty acts
  have hl : l.Sound := sound_callAll hk cs
  refine ⟨Registry.globalChords_eq hl.registry, fun hd => ⟨candidates_of_stacked hl hd mode, ?_, ?_⟩⟩
  · intro b hg
    rw [mem_candidates_iff hl hd hg, mem_candidates_iff hk hd hg]
    exact Registry.mem_globalChords_callAll hk.registry hg cs
  · intro note text
    have ho := step_outcome hl mode note text
    exact ⟨fun b args hr => ho.mem_candidates_of_run hr,
      fun b later hm hg => respond_of_chord_first hl hm hg⟩

/-- While a bind waits for its argument, a dash in front of the mode removes one chord, a definition
with a bad name does not bring it back, and another chord is added. The next notification runs the
new one, and the old one is a candidate no more. -/
theorem chords_current_during_prompt :
    let ctrl := Modifiers.ofNames ["Ctrl".toList]
    let k := afterActs [
      .call (.install [.make "command".toList "f<go:>_".toList ["go %s".toList],
        .make "global".toList "<Ctrl>x".toList ["cut".toList]]),
      .notify "command".toList (.commandUpdate ∅) "f".toList]
    let cs : List Registry.Call := [
      .apply (.make "-global".toList "<Ctrl>x".toList ["cut".toList]),
      .apply (.make "global,no mode".toList "<Ctrl>x".toList ["copy".toList]),
      .apply (.make "global".toList "<Ctrl>r".toList ["reload".toList])]
    let l := k.callAll cs
    k.stack.depth ≠ 0 ∧
      (∃ b, b.isGlobal = true ∧ b.source = "<Ctrl>r".toList ∧
        (l.candidates stackMode).filter
          (·.fits k.stack.depth (.chordUpdate ctrl) "r".toList) = [b] ∧
        l.respond stackMode (.chordUpdate ctrl) "r".toList = ([.run b [], .clearActive], l)) ∧
      ∃ b, b.isGlobal = true ∧ b.source = "<Ctrl>x".toList ∧ b ∈ k.candidates stackMode ∧
        b ∉ l.candidates stackMode := by
  intro ctrl k cs l
  have hd : k.stack.depth ≠ 0 := by decide +kernel
  obtain ⟨-, hmem, hnote⟩ := (chords_current _ cs stackMode).2 hd
  refine ⟨hd, ?_, ?_⟩
  · have hfirst : ((l.candidates stackMode).filter
        (·.fits k.stack.depth (.chordUpdate ctrl) "r".toList)).map (fun b => (b.isGlobal,
          b.source, b.captured k.stack.depth "r".toList, b.captures k.stack.depth)) =
            [(true, "<Ctrl>r".toList, [], false)] := by decide +kernel
    obtain ⟨b, hb, he⟩ := List.map_eq_singleton_iff.1 hfirst
    obtain ⟨hg, he⟩ := Prod.mk.inj he
    obtain ⟨hs, he⟩ := Prod.mk.inj he
    obtain ⟨hcap, htakes⟩ := Prod.mk.inj he
    have hr := (hnote (.chordUpdate ctrl) "r".toList).2 b [] hb hg
    rw [hcap, htakes] at hr
    exact ⟨b, hg, hs, hb, hr⟩
  · have hold : ((k.candidates stackMode).filter (·.source = "<Ctrl>x".toList)).map (·.isGlobal) =
        [true] := by decide +kernel
    have hrow : ((Registry.callLog cs).last? globalMode "<Ctrl>x".toList).map (·.bind?.isNone) =
        some true := by decide +kernel
    obtain ⟨b, hb, hg⟩ := List.map_eq_singleton_iff.1 hold
    obtain ⟨hb, hs⟩ := List.mem_filter.1 (hb ▸ List.mem_singleton_self b)
    have hs : b.source = "<Ctrl>x".toList := of_decide_eq_true hs
    obtain ⟨row, hrow, hn⟩ := Option.map_eq_some_iff.1 hrow
    refine ⟨b, hg, hs, hb, fun hl => ?_⟩
    have hl := (hmem b hg).1 hl
    rw [hs, hrow] at hl
    subst hl
    cases hn

end Keymap

end ModalKeys
