import ModalKeys.Proofs.Pattern.Tokens
import ModalKeys.Proofs.Pattern.Written

namespace ModalKeys

open Text

/-- A pattern cut into groups, with a prompt before each but the first. -/
structure Layout where
  first : Text
  later : List (PromptToken × Text)

namespace Layout

def groups (l : Layout) : List Text := l.first :: l.later.map (·.2)

def text (l : Layout) : Text := l.first ++ l.later.flatMap fun (k, g) => k.text ++ g

/-- The cut of a text, from its left: a prompt wherever one begins, and characters of the group
elsewhere. -/
inductive Cuts : Text → Layout → Prop
  | nil : Cuts [] ⟨[], []⟩
  | char {c : Char} {t : Text} {l : Layout} (plain : ∀ k : PromptToken, ¬ k.Begins (c :: t))
      (rest : Cuts t l) : Cuts (c :: t) ⟨c :: l.first, l.later⟩
  | prompt {k : PromptToken} {t : Text} {l : Layout} (leads : k.Leads (k.text ++ t))
      (rest : Cuts t l) : Cuts (k.text ++ t) ⟨[], (k, l.first) :: l.later⟩

/-- The fault of a group: a `*` that is not the last character of the last group, or no character at
all in a pattern with a prompt. -/
inductive FaultAt (l : Layout) (i : Nat) : PatternError → Prop
  | wildcard {g : Text} {j : Nat} (group : l.groups[i]? = some g) (star : g[j]? = some '*')
      (inner : i + 1 < l.groups.length ∨ j + 1 < g.length) :
      FaultAt l i (.wildcardNotTerminal l.text)
  | empty (group : l.groups[i]? = some []) (prompted : l.later ≠ []) :
      FaultAt l i (.emptySegment l.text i)

/-- Holds of the leftmost fault. -/
def FirstFault (l : Layout) (e : PatternError) : Prop :=
  ∃ i, l.FaultAt i e ∧ ∀ j < i, ∀ e', ¬ l.FaultAt j e'

end Layout

/-- Holds when a segment says all that its group does: the group is the modifiers of the segment in
some order, its literal and its flag, and the literal keeps no modifier at its start and no flag. -/
structure Segment.Renders (s : Segment) (group : Text) : Prop where
  written : ∃ names, (∀ n ∈ names, isModifierName n = true) ∧
    group = groupText names s.literal s.trigger ∧
    s.modifiers = TextSet.ofList (names.map bracketed)
  unled : ∀ name, isModifierName name = true → ¬ bracketed name <+: s.literal
  unflagged : s.trigger = .typed →
    ∀ (c : Char) (trigger : Trigger), group.getLast? = some c → trigger.flag? ≠ some c

namespace Layout

/-- What the segment of a group is like. Only the last can take text while it is typed. -/
structure SegmentAt (l : Layout) (i : Nat) (s : Segment) : Prop where
  index : s.index = i
  more : s.more = decide (i < l.later.length)
  renders : ∃ group, l.groups[i]? = some group ∧ s.Renders group
  live_last : s.trigger.onExec = false → s.trigger.captures = true → i = l.later.length

/-- A pattern has a segment for each group of its layout and the prompts between them. -/
structure Compiles (l : Layout) (p : Pattern) : Prop where
  prompts : p.prompts = l.later.map (·.1.prompt)
  length : p.segments.length = l.later.length + 1
  segments : ∀ i s, p.segments[i]? = some s → l.SegmentAt i s

theorem cuts_text {t : Text} {l : Layout} (h : Cuts t l) : l.text = t := by
  induction h with
  | nil => rfl
  | char plain rest ih => exact congrArg (List.cons _) ih
  | @prompt k t l leads rest ih =>
    change k.text ++ l.first ++ l.later.flatMap (fun (k, g) => k.text ++ g) = k.text ++ t
    rw [List.append_assoc]
    exact congrArg (k.text ++ ·) ih

/-- Each text is cut, as the compiler splits it. -/
theorem exists_cuts (t : Text) :
    ∃ l, Cuts t l ∧ Pattern.split t = (l.first, l.later.map fun (k, g) => (k.prompt, g)) := by
  -- by length, as a prompt takes many characters at once
  induction hn : t.length using Nat.strong_induction_on generalizing t with
  | _ n ih =>
    cases t with
    | nil => exact ⟨_, .nil, by rw [Pattern.split.eq_def]; rfl⟩
    | cons c t =>
      have hshort : t.length < n := by rw [← hn]; exact Nat.lt_succ_self _
      by_cases hc : c = '<'
      · subst hc
        cases hp : Pattern.prompt? t with
        | none =>
          obtain ⟨l, hl, hs⟩ := ih _ hshort t rfl
          refine ⟨_, .char (fun k hk => ?_) hl, ?_⟩
          · have hsome := Pattern.prompt?_isSome hk
            rw [hp] at hsome
            cases hsome
          · rw [Pattern.split_of_no_prompt hp, hs]
        | some found =>
          obtain ⟨p, rest⟩ := found
          have hrest : rest.length < n := (Pattern.prompt?_length hp).trans hshort
          obtain ⟨l, hl, hs⟩ := ih _ hrest rest rfl
          obtain ⟨k, rfl, ht, hk⟩ := Pattern.prompt?_eq_some hp
          rw [ht] at hk
          refine ⟨⟨[], (k, l.first) :: l.later⟩, ?_, ?_⟩
          · rw [ht]
            exact .prompt hk hl
          · rw [Pattern.split_of_prompt? hp, hs]
            rfl
      · obtain ⟨l, hl, hs⟩ := ih _ hshort t rfl
        refine ⟨_, .char (fun k => k.not_begins_cons hc t) hl, ?_⟩
        rw [Pattern.split_cons_of_ne hc, hs]

/-- A text is cut in one way only. -/
theorem cuts_unique {t : Text} {l l' : Layout} (h : Cuts t l) (h' : Cuts t l') : l' = l := by
  -- The second cut takes the same step: no prompt begins at a plain character, and where prompts
  -- begin only one leads.
  induction h generalizing l' with
  | nil =>
    generalize ht : ([] : Text) = t at h'
    cases h' with
    | nil => rfl
    | char plain rest => cases ht
    | @prompt k t' _ leads rest => exact absurd ⟨t', ht.symm⟩ k.not_begins_nil
  | @char c t l plain rest ih =>
    generalize ht : c :: t = s at h'
    cases h' with
    | nil => cases ht
    | char plain' rest' =>
      cases ht
      rw [ih rest']
    | @prompt k t' _ leads rest' => exact absurd ⟨t', ht.symm⟩ (plain k)
  | @prompt k t l leads rest ih =>
    generalize ht : k.text ++ t = s at h'
    cases h' with
    | nil => exact absurd ⟨t, ht⟩ k.not_begins_nil
    | char plain' rest' => exact absurd ⟨t, ht⟩ (plain' k)
    | @prompt k' t' _ leads' rest' =>
      rw [← ht] at leads'
      obtain rfl := leads.unique leads'
      obtain rfl := List.append_cancel_left ht
      rw [ih rest']

end Layout

namespace Pattern

theorem mem_dropLast_iff {c : Char} {g : Text} :
    c ∈ g.dropLast ↔ ∃ j, g[j]? = some c ∧ j + 1 < g.length := by
  rw [List.mem_iff_getElem?]
  constructor
  · rintro ⟨j, hj⟩
    rw [List.getElem?_dropLast] at hj
    split at hj
    · exact ⟨j, hj, by omega⟩
    · cases hj
  · rintro ⟨j, hj, hl⟩
    refine ⟨j, ?_⟩
    rw [List.getElem?_dropLast, if_pos (by omega), hj]

/-- The fault that is found in a group, if there is one. -/
def errorAt? (pattern : Text) (prompted : Bool) (index : Nat) (groups : List Text) (i : Nat) :
    Option PatternError :=
  groups[i]?.bind fun g => groupError? pattern (index + i) prompted g (i + 1 = groups.length)

section Errors

variable {pattern : Text} {prompted : Bool} {index : Nat} {groups : List Text} {e : PatternError}

theorem errorAt?_zero (g : Text) : errorAt? pattern prompted index (g :: groups) 0 =
    groupError? pattern index prompted g groups.isEmpty := by
  cases groups <;> rfl

theorem errorAt?_succ (g : Text) (i : Nat) :
    errorAt? pattern prompted index (g :: groups) (i + 1) =
      errorAt? pattern prompted (index + 1) groups i := by
  have hindex : index + (i + 1) = index + 1 + i := by omega
  simp [errorAt?, hindex]

theorem firstError?_eq_none_iff : firstError? pattern prompted index groups = none ↔
    ∀ i, errorAt? pattern prompted index groups i = none := by
  induction groups generalizing index with
  | nil => simp [firstError?, errorAt?]
  | cons g groups ih =>
    rw [firstError?, Option.or_eq_none_iff, ih, ← errorAt?_zero]
    constructor
    · rintro ⟨hzero, hsucc⟩ i
      cases i with
      | zero => exact hzero
      | succ i => rw [errorAt?_succ]; exact hsucc i
    · intro h
      refine ⟨h 0, fun i => ?_⟩
      rw [← errorAt?_succ]
      exact h (i + 1)

/-- The fault that is reported is that of the leftmost group with one. -/
theorem firstError?_eq_some_iff : firstError? pattern prompted index groups = some e ↔
    ∃ i, errorAt? pattern prompted index groups i = some e ∧
      ∀ j < i, errorAt? pattern prompted index groups j = none := by
  induction groups generalizing index with
  | nil => simp [firstError?, errorAt?]
  | cons g groups ih =>
    rw [firstError?, Option.or_eq_some_iff, ih, ← errorAt?_zero]
    constructor
    · rintro (hzero | ⟨hzero, i, hi, hj⟩)
      · exact ⟨0, hzero, fun j hj => absurd hj (Nat.not_lt_zero j)⟩
      · refine ⟨i + 1, by rw [errorAt?_succ, hi], fun j hlt => ?_⟩
        cases j with
        | zero => exact hzero
        | succ j => rw [errorAt?_succ]; exact hj j (Nat.lt_of_succ_lt_succ hlt)
    · rintro ⟨i, hi, hj⟩
      cases i with
      | zero => exact .inl hi
      | succ i =>
        refine .inr ⟨hj 0 (Nat.succ_pos i), i, by rw [← errorAt?_succ, hi], fun j hlt => ?_⟩
        rw [← errorAt?_succ]
        exact hj (j + 1) (Nat.succ_lt_succ hlt)

end Errors

section Faults

variable {l : Layout} {i : Nat} {e : PatternError}

/-- The faults that are found are those of the layout. -/
theorem errorAt?_eq_some_iff :
    errorAt? l.text (!l.later.isEmpty) 0 l.groups i = some e ↔ l.FaultAt i e := by
  rw [errorAt?, Option.bind_eq_some_iff, Nat.zero_add]
  constructor
  · rintro ⟨g, hg, he⟩
    have hi : i < l.groups.length := (List.getElem?_eq_some_iff.1 hg).1
    by_cases hstar : '*' ∈ (if decide (i + 1 = l.groups.length) then g.dropLast else g)
    · rw [groupError?, if_pos hstar] at he
      obtain rfl := Option.some.inj he
      by_cases hl : i + 1 = l.groups.length
      · rw [decide_eq_true hl, if_pos rfl] at hstar
        obtain ⟨j, hj, hlt⟩ := mem_dropLast_iff.1 hstar
        exact .wildcard hg hj (.inr hlt)
      · rw [decide_eq_false hl, if_neg Bool.false_ne_true] at hstar
        obtain ⟨j, hj⟩ := List.mem_iff_getElem?.1 hstar
        exact .wildcard hg hj (.inl (by omega))
    · rw [groupError?, if_neg hstar] at he
      obtain ⟨hempty, he⟩ := Option.ite_none_right_eq_some.1 he
      obtain rfl := Option.some.inj he
      obtain ⟨hlater, hnil⟩ := Bool.and_eq_true_iff.1 hempty
      rw [List.isEmpty_iff.1 hnil] at hg
      refine .empty hg fun hl => ?_
      rw [hl] at hlater
      cases hlater
  · intro h
    cases h with
    | @wildcard g j group star inner =>
      refine ⟨g, group, ?_⟩
      have hstar : '*' ∈ (if decide (i + 1 = l.groups.length) then g.dropLast else g) := by
        by_cases hl : i + 1 = l.groups.length
        · rw [decide_eq_true hl, if_pos rfl]
          exact mem_dropLast_iff.2 ⟨j, star, inner.resolve_left (by omega)⟩
        · rw [decide_eq_false hl, if_neg Bool.false_ne_true]
          exact List.mem_of_getElem? star
      rw [groupError?, if_pos hstar]
    | empty group prompted => exact ⟨[], group, by simp [groupError?, prompted]⟩

theorem errorAt?_eq_none_iff :
    errorAt? l.text (!l.later.isEmpty) 0 l.groups i = none ↔ ∀ e, ¬ l.FaultAt i e := by
  rw [Option.eq_none_iff_forall_ne_some]
  exact forall_congr' fun e => not_congr errorAt?_eq_some_iff

end Faults

section Segments

theorem cutFlag_append (group : Text) :
    group = (cutFlag group).2 ++ (cutFlag group).1.flag?.toList := by
  rcases List.eq_nil_or_concat group with rfl | ⟨body, c, rfl⟩
  · rfl
  · rw [List.concat_eq_append]
    by_cases hc : ∃ trigger : Trigger, trigger.flag? = some c
    · obtain ⟨trigger, hc⟩ := hc
      rw [cutFlag_concat hc, hc]
      rfl
    · rw [cutFlag_of_no_flag]
      · exact (List.append_nil _).symm
      · intro d hd
        obtain rfl := Option.some.inj (List.getLast?_concat.symm.trans hd)
        refine ⟨?_, ?_, ?_⟩ <;> rintro rfl
        · exact hc ⟨.live, rfl⟩
        · exact hc ⟨.entered, rfl⟩
        · exact hc ⟨.argument, rfl⟩

theorem leadingModifier?_name {t token rest : Text} (h : leadingModifier? t = some (token, rest)) :
    ∃ name, isModifierName name = true ∧ token = bracketed name := by
  unfold leadingModifier? at h
  split at h
  · next c u =>
    split at h
    · next hc =>
      split at h
      · cases h
        refine ⟨c :: u.takeWhile isModifierChar, ?_, rfl⟩
        rw [isModifierName, hc, Bool.true_and]
        exact List.all_takeWhile
      · cases h
    · cases h
  · cases h

theorem leadingModifiers_names (t : Text) :
    ∃ names : List Text, (∀ n ∈ names, isModifierName n = true) ∧
      (leadingModifiers t).1 = names.map bracketed ∧
      t = names.flatMap bracketed ++ (leadingModifiers t).2 ∧
      leadingModifier? (leadingModifiers t).2 = none := by
  induction hn : t.length using Nat.strong_induction_on generalizing t with
  | _ n ih =>
    cases hm : leadingModifier? t with
    | none => exact ⟨[], by simp, by simp [leadingModifiers_of_none hm, hm]⟩
    | some found =>
      obtain ⟨token, rest⟩ := found
      obtain ⟨names, hnames, htokens, hrest, hnone⟩ :=
        ih _ (hn ▸ leadingModifier?_length hm) rest rfl
      obtain ⟨name, hname, rfl⟩ := leadingModifier?_name hm
      rw [leadingModifiers_of_some hm]
      refine ⟨name :: names, ?_, ?_, ?_, hnone⟩
      · exact List.forall_mem_cons.2 ⟨hname, hnames⟩
      · exact congrArg (List.cons _) htokens
      · rw [List.flatMap_cons, List.append_assoc, ← hrest]
        exact leadingModifier?_append hm

theorem unflagged_of_cutFlag {group : Text} (h : (cutFlag group).1 = .typed) {c : Char}
    {trigger : Trigger} (hl : group.getLast? = some c) : trigger.flag? ≠ some c := by
  intro hc
  obtain ⟨body, rfl⟩ := List.getLast?_eq_some_iff.1 hl
  rw [cutFlag_concat hc] at h
  cases h
  cases hc

theorem segment_renders (group : Text) (index : Nat) (more : Bool) :
    (segment group index more).Renders group where
  written := by
    obtain ⟨names, hnames, htokens, hbody, -⟩ := leadingModifiers_names (cutFlag group).2
    refine ⟨names, hnames, ?_, congrArg TextSet.ofList htokens⟩
    calc group = (cutFlag group).2 ++ (cutFlag group).1.flag?.toList := cutFlag_append group
      _ = names.flatMap bracketed ++ (leadingModifiers (cutFlag group).2).2 ++
          (cutFlag group).1.flag?.toList := congrArg (· ++ _) hbody
  unled := by
    obtain ⟨-, -, -, -, hnone⟩ := leadingModifiers_names (cutFlag group).2
    rintro name hname ⟨rest, hrest⟩
    have hlead := leadingModifier?_bracketed hname rest
    rw [hrest] at hlead
    cases hnone.symm.trans hlead
  unflagged := fun h _ _ => unflagged_of_cutFlag h

end Segments

section Compile

variable {pattern : Text} {l : Layout}

/-- A pattern with text in it is compiled group by group. -/
theorem compile_of_cuts (h : l.Cuts pattern) (hne : pattern ≠ []) :
    compile pattern = (firstError? l.text (!l.later.isEmpty) 0 l.groups).elim
      (.ok ⟨number 0 l.groups, l.later.map (·.1.prompt)⟩) .error := by
  obtain ⟨l', hl', hs⟩ := Layout.exists_cuts pattern
  obtain rfl := Layout.cuts_unique h hl'
  have hprompts : (l'.later.map fun (k, g) => (k.prompt, g)).map (·.1) =
      l'.later.map (·.1.prompt) := by
    simp
  have hgroups : l'.first :: (l'.later.map fun (k, g) => (k.prompt, g)).map (·.2) = l'.groups := by
    simp [Layout.groups]
  unfold compile
  rw [if_neg (by simpa using hne), hs]
  dsimp only
  rw [hgroups, hprompts, List.isEmpty_map, Layout.cuts_text h]
  cases firstError? pattern (!l'.later.isEmpty) 0 l'.groups with
  | none => rfl
  | some e => rfl

theorem firstError?_layout_eq_some_iff {e : PatternError} :
    firstError? l.text (!l.later.isEmpty) 0 l.groups = some e ↔ l.FirstFault e := by
  rw [firstError?_eq_some_iff]
  simp only [errorAt?_eq_some_iff, errorAt?_eq_none_iff]
  rfl

theorem firstError?_layout_eq_none_iff :
    firstError? l.text (!l.later.isEmpty) 0 l.groups = none ↔ ∀ i e, ¬ l.FaultAt i e := by
  rw [firstError?_eq_none_iff]
  exact forall_congr' fun i => errorAt?_eq_none_iff

theorem not_faultAt_blank (h : l.Cuts []) (i : Nat) (e : PatternError) : ¬ l.FaultAt i e := by
  obtain rfl := Layout.cuts_unique .nil h
  intro hf
  cases hf with
  | @wildcard g j group star inner =>
    obtain rfl := List.mem_singleton.1 (List.mem_of_getElem? group)
    cases star
  | empty group prompted => exact prompted rfl

theorem compile_eq_error_iff (h : l.Cuts pattern) {e : PatternError} :
    compile pattern = .error e ↔ pattern = [] ∧ e = .blank ∨ l.FirstFault e := by
  by_cases hne : pattern = []
  · subst hne
    have hnone : ¬ l.FirstFault e := fun ⟨i, hf, _⟩ => not_faultAt_blank h i e hf
    have hblank : compile [] = .error .blank := rfl
    simp only [hblank, Except.error.injEq, eq_comm, true_and, hnone, or_false]
  · rw [compile_of_cuts h hne, ← firstError?_layout_eq_some_iff]
    cases firstError? l.text (!l.later.isEmpty) 0 l.groups with
    | none => simp [hne]
    | some e' => simp [hne]

theorem compile_eq_blank_iff : compile pattern = .error .blank ↔ pattern = [] := by
  obtain ⟨l, h, -⟩ := Layout.exists_cuts pattern
  rw [compile_eq_error_iff h]
  constructor
  · rintro (⟨hb, -⟩ | ⟨i, hf, -⟩)
    · exact hb
    · cases hf
  · exact fun hb => .inl ⟨hb, rfl⟩

theorem exists_error_iff (h : l.Cuts pattern) :
    (∃ e, compile pattern = .error e) ↔ pattern = [] ∨ ∃ i e, l.FaultAt i e := by
  constructor
  · rintro ⟨e, he⟩
    rcases (compile_eq_error_iff h).1 he with ⟨hb, -⟩ | ⟨i, hf, -⟩
    · exact .inl hb
    · exact .inr ⟨i, e, hf⟩
  · rintro (rfl | ⟨i, e, hf⟩)
    · exact ⟨.blank, rfl⟩
    · cases hfirst : firstError? l.text (!l.later.isEmpty) 0 l.groups with
      | none => exact absurd hf (firstError?_layout_eq_none_iff.1 hfirst i e)
      | some e' =>
        exact ⟨e', (compile_eq_error_iff h).2 (.inr (firstError?_layout_eq_some_iff.1 hfirst))⟩

theorem segmentAt_number (hfaults : ∀ i e, ¬ l.FaultAt i e) {i : Nat} {s : Segment}
    (hs : (number 0 l.groups)[i]? = some s) : l.SegmentAt i s := by
  have hlen : l.groups.length = l.later.length + 1 := by simp [Layout.groups]
  rw [number_getElem?] at hs
  obtain ⟨g, hg, rfl⟩ := Option.map_eq_some_iff.1 hs
  have hi : i < l.groups.length := (List.getElem?_eq_some_iff.1 hg).1
  have hr := segment_renders g (0 + i) (decide (i + 1 < l.groups.length))
  refine ⟨Nat.zero_add i, ?_, ⟨g, hg, hr⟩, fun hexec hcap => ?_⟩
  · rw [segment_more, hlen]
    exact decide_eq_decide.2 Nat.add_lt_add_iff_right
  · -- a live group ends in `*`, which is a fault anywhere but at the end of the pattern
    obtain ⟨names, -, hgroup, -⟩ := hr.written
    rw [Trigger.eq_live hexec hcap] at hgroup
    have hstar : '*' ∈ g := by
      rw [hgroup]
      exact List.mem_append_right _ (List.mem_singleton_self _)
    obtain ⟨j, hj⟩ := List.mem_iff_getElem?.1 hstar
    by_contra hlast
    exact hfaults i _ (.wildcard hg hj (.inl (by omega)))

theorem compiles_of_ok (h : l.Cuts pattern) {p : Pattern} (hp : compile pattern = .ok p) :
    l.Compiles p := by
  have hne : pattern ≠ [] := by
    rintro rfl
    cases hp
  rw [compile_of_cuts h hne] at hp
  cases hfirst : firstError? l.text (!l.later.isEmpty) 0 l.groups with
  | some e =>
    rw [hfirst] at hp
    cases hp
  | none =>
    rw [hfirst] at hp
    cases hp
    have hfaults := firstError?_layout_eq_none_iff.1 hfirst
    refine ⟨rfl, ?_, fun i s hs => segmentAt_number hfaults hs⟩
    rw [number_length, Layout.groups, List.length_cons, List.length_map]

end Compile

/-- The grammar of patterns. A pattern has one layout, which spells it. It is refused as blank if it
has no text, and else with the leftmost fault of its groups; with no fault, it compiles to what its
layout says. -/
theorem compile_grammar (pattern : Text) : ∃ l : Layout,
    (∀ l' : Layout, l'.Cuts pattern ↔ l' = l) ∧ l.text = pattern ∧
    (compile pattern = .error .blank ↔ pattern = []) ∧
    ((∃ e, compile pattern = .error e) ↔ pattern = [] ∨ ∃ i e, l.FaultAt i e) ∧
    (∀ e, compile pattern = .error e ↔ pattern = [] ∧ e = .blank ∨ l.FirstFault e) ∧
    ∀ p, compile pattern = .ok p → l.Compiles p := by
  obtain ⟨l, hl, -⟩ := Layout.exists_cuts pattern
  refine ⟨l, fun l' => ⟨Layout.cuts_unique hl, ?_⟩, Layout.cuts_text hl, compile_eq_blank_iff,
    exists_error_iff hl, fun e => compile_eq_error_iff hl, fun p => compiles_of_ok hl⟩
  rintro rfl
  exact hl

end Pattern

end ModalKeys
