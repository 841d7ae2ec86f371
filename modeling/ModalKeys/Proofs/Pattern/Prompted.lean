import ModalKeys.Proofs.Pattern.Groups

namespace ModalKeys

open Text

/-- What asks for one argument: the label of its prompt, and the literal that the argument
follows. -/
structure Stage where
  label : Text
  literal : Text
  plain_label : ∀ c ∈ label, Pattern.isLabelStop c = false ∧ isQuoteMark c = false
  plain_literal : ∀ c ∈ literal, c ≠ '<' ∧ c ≠ '*'

namespace Stage

def group (g : Stage) : Text := g.literal ++ ['_']

def source (g : Stage) : Text := '<' :: g.label ++ ':' :: '>' :: g.group

def prompt (g : Stage) : Prompt := ⟨Pattern.labelOf g.label, false, []⟩

/-- The segment that takes the argument. -/
def segment (g : Stage) (index : Nat) (more : Bool) : Segment := ⟨.argument, ∅, g.literal, index, more⟩

end Stage

/-- A pattern that opens with a literal and then asks for one argument after the other. -/
structure Prompted where
  opening : Text
  stages : List Stage
  opens : opening ≠ []
  asks : stages ≠ []
  plain : ∀ c ∈ opening, c ≠ '<' ∧ c ≠ '*' ∧ c ≠ '_' ∧ c ≠ '!'

namespace Pattern

/-- A label without stops and quote marks is read up to its colon. -/
theorem prompt?_label {label : Text}
    (h : ∀ c ∈ label, isLabelStop c = false ∧ isQuoteMark c = false) (t : Text) :
    prompt? (label ++ ':' :: '>' :: t) = some (⟨labelOf label, false, []⟩, t) := by
  have hq : quotedField? (label ++ ':' :: '>' :: t) = none := by
    cases label with
    | nil => rfl
    | cons c label => simp [quotedField?, (h c List.mem_cons_self).2]
  have htake : (label ++ ':' :: '>' :: t).takeWhile (!isLabelStop ·) = label := by
    rw [List.takeWhile_append_of_pos fun c hc => by rw [(h c hc).1]; rfl]
    exact List.append_nil label
  have hdrop : (label ++ ':' :: '>' :: t).dropWhile (!isLabelStop ·) = ':' :: '>' :: t := by
    rw [List.dropWhile_append_of_pos fun c hc => by rw [(h c hc).1]; rfl]
    rfl
  rw [prompt?, fields, hq, htake, hdrop]
  rfl

end Pattern

namespace Stage

theorem plain_group (g : Stage) {c : Char} (h : c ∈ g.group) : c ≠ '<' ∧ c ≠ '*' := by
  rcases List.mem_append.1 h with h | h
  · exact g.plain_literal c h
  · rw [List.mem_singleton.1 h]
    decide

theorem segment_group (g : Stage) (index : Nat) (more : Bool) :
    Pattern.segment g.group index more = g.segment index more := by
  have hc : Pattern.cutFlag g.group = (.argument, g.literal) := Pattern.cutFlag_concat rfl g.literal
  rw [Pattern.segment, hc]
  dsimp only
  rw [Pattern.leadingModifiers_of_plain fun c hc => (g.plain_literal c hc).1]
  rfl

theorem split_sources (gs : List Stage) :
    Pattern.split (gs.flatMap source) = ([], gs.map fun g => (g.prompt, g.group)) := by
  induction gs with
  | nil => rw [List.flatMap_nil, Pattern.split.eq_def]; rfl
  | cons g gs ih =>
    have hp : Pattern.prompt? (g.label ++ ':' :: '>' :: (g.group ++ gs.flatMap source)) =
        some (g.prompt, g.group ++ gs.flatMap source) := Pattern.prompt?_label g.plain_label _
    have hs : (g :: gs).flatMap source =
        '<' :: (g.label ++ ':' :: '>' :: (g.group ++ gs.flatMap source)) := by
      simp [source]
    rw [hs, Pattern.split_of_prompt? hp, Pattern.split_append fun c hc => (g.plain_group hc).1, ih,
      List.append_nil]
    rfl

end Stage

namespace Prompted

def source (p : Prompted) : Text := p.opening ++ p.stages.flatMap Stage.source

def pattern (p : Prompted) : Pattern :=
  ⟨Pattern.number 0 (p.opening :: p.stages.map Stage.group), p.stages.map Stage.prompt⟩

theorem compile_source (p : Prompted) : Pattern.compile p.source = .ok p.pattern := by
  have hne : p.source.isEmpty = false := by simp [source, p.opens]
  have hs : Pattern.split p.source =
      (p.opening, p.stages.map fun g => (g.prompt, g.group)) := by
    rw [source, Pattern.split_append fun c hc => (p.plain c hc).1, Stage.split_sources,
      List.append_nil]
  have hgroups : ∀ g ∈ p.opening :: p.stages.map Stage.group, g ≠ [] ∧ '*' ∉ g := by
    intro g hg
    rcases List.mem_cons.1 hg with rfl | hg
    · exact ⟨p.opens, fun hm => (p.plain '*' hm).2.1 rfl⟩
    · obtain ⟨stage, -, rfl⟩ := List.mem_map.1 hg
      exact ⟨by simp [Stage.group], fun hm => (stage.plain_group hm).2 rfl⟩
  have hfault : Pattern.firstError? p.source (!(p.stages.map fun g => (g.prompt, g.group)).isEmpty) 0
      (p.opening :: p.stages.map Stage.group) = none :=
    Pattern.firstError?_eq_none (fun g hg => (hgroups g hg).1)
      (fun g hg => (hgroups g (List.dropLast_subset _ hg)).2)
      (fun g hg hm => (hgroups g (List.mem_of_getLast? hg)).2 (List.dropLast_subset g hm)) 0
  have hmap : (p.stages.map fun g => (g.prompt, g.group)).map (·.2) = p.stages.map Stage.group := by
    rw [List.map_map]
    rfl
  have hprompts : (p.stages.map fun g => (g.prompt, g.group)).map (·.1) =
      p.stages.map Stage.prompt := by
    rw [List.map_map]
    rfl
  unfold Pattern.compile
  rw [hne, if_neg Bool.false_ne_true, hs]
  dsimp only
  rw [hmap, hfault, hprompts]
  rfl

/-- A bind of a prompted pattern. -/
def bind (p : Prompted) (templates : List Text) : Bind :=
  ⟨p.source, p.pattern, .commands templates, p.compile_source⟩

theorem ofCommands_source (p : Prompted) (templates : List Text) :
    Bind.ofCommands p.source templates = .ok (p.bind templates) := by
  unfold Bind.ofCommands Bind.ofAction
  split
  · next q hq =>
    have hp : q = p.pattern := Except.ok.inj (hq.symm.trans p.compile_source)
    subst hp
    rfl
  · next e he => rw [p.compile_source] at he; cases he

section Segments

variable (p : Prompted) (templates : List Text)

theorem length_segments : p.pattern.segments.length = p.stages.length + 1 := by
  rw [pattern, Pattern.number_length, List.length_cons, List.length_map]

theorem isGlobal_bind : (p.bind templates).isGlobal = false := by
  cases hg : (p.bind templates).isGlobal with
  | false => rfl
  | true =>
    have hl : p.pattern.segments.length = 1 := Bind.length_of_isGlobal hg
    have hn := List.length_pos_iff.2 p.asks
    rw [length_segments] at hl
    omega

/-- The opening comes first, as something that is typed and not submitted. -/
theorem segment?_zero :
    (p.bind templates).segment? 0 = some ⟨.typed, ∅, p.opening, 0, true⟩ := by
  have hf : Pattern.cutFlag p.opening = (.typed, p.opening) :=
    Pattern.cutFlag_of_no_flag fun c hc =>
      have hp := (p.plain c (List.mem_of_getLast? hc)).2
      ⟨hp.1, hp.2.2, hp.2.1⟩
  have hs : Pattern.segment p.opening 0 true = ⟨.typed, ∅, p.opening, 0, true⟩ := by
    rw [Pattern.segment, hf]
    dsimp only
    rw [Pattern.leadingModifiers_of_plain fun c hc => (p.plain c hc).1]
    rfl
  have hm : 0 + 1 < (p.opening :: p.stages.map Stage.group).length := by
    simpa using List.length_pos_iff.2 p.asks
  rw [Bind.segment?_of_not_isGlobal (p.isGlobal_bind templates)]
  change (Pattern.number 0 _)[0]? = _
  rw [Pattern.number_getElem?, List.getElem?_cons_zero, Option.map_some, decide_eq_true hm, hs]

theorem segment?_succ (i : Nat) :
    (p.bind templates).segment? (i + 1) =
      p.stages[i]?.map (·.segment (i + 1) (decide (i + 1 < p.stages.length))) := by
  rw [Bind.segment?_of_not_isGlobal (p.isGlobal_bind templates)]
  change (Pattern.number 0 _)[i + 1]? = _
  rw [Pattern.number_getElem?, List.getElem?_cons_succ, List.getElem?_map, Option.map_map]
  congr 1
  funext g
  change Pattern.segment g.group _ _ = _
  rw [g.segment_group]
  simp

theorem prompt?_succ (i : Nat) :
    (p.bind templates).prompt? (i + 1) = p.stages[i]?.map Stage.prompt := List.getElem?_map ..

end Segments

end Prompted

end ModalKeys
