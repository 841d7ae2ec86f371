import ModalKeys.Proofs.Pattern.Segments
import ModalKeys.Registry

namespace ModalKeys

namespace Table

def sources (t : Table) : List Text := t.map Slot.source

theorem nodup_nil : (sources []).Nodup := List.nodup_nil

theorem sources_put (t : Table) (slot : Slot) :
    (t.put slot).sources =
      if slot.source ∈ t.sources then t.sources else t.sources ++ [slot.source] := by
  induction t with
  | nil => simp [put, sources]
  | cons s t ih =>
    rw [put]
    split
    · next h => simp [sources, h]
    · next h =>
      have h' : slot.source ≠ s.source := fun e => h e.symm
      simp only [sources, List.map_cons, List.mem_cons, h', false_or] at ih ⊢
      rw [ih]
      split <;> simp_all

theorem nodup_put {t : Table} (h : t.sources.Nodup) (slot : Slot) :
    (t.put slot).sources.Nodup := by
  rw [sources_put]
  split
  · exact h
  · next hm => exact List.nodup_append.2 ⟨h, by simp, by rintro a ha b hb rfl; simp_all⟩

theorem nodup_overlay {below : Table} (h : below.sources.Nodup) (above : Table) :
    (below.overlay above).sources.Nodup := by
  unfold overlay
  induction above generalizing below with
  | nil => exact h
  | cons s t ih => exact ih (nodup_put h s)

theorem source_of_bind? {s : Slot} {b : Bind} (h : s.bind? = some b) : b.source = s.source := by
  cases s with
  | bound c => cases h; rfl
  | removed source => cases h

theorem sources_binds (t : Table) : (t.binds.map (·.source)).Sublist t.sources := by
  induction t with
  | nil => simp [binds, sources]
  | cons s t ih =>
    simp only [binds, sources, List.filterMap_cons, List.map_cons] at ih ⊢
    cases hb : s.bind? with
    | none => exact ih.cons _
    | some b =>
      rw [List.map_cons, source_of_bind? hb]
      exact ih.cons_cons _

theorem mem_put {t : Table} {slot row : Slot} (h : row ∈ t.put slot) : row ∈ t ∨ row = slot := by
  induction t with
  | nil => exact .inr (List.mem_singleton.1 h)
  | cons s t ih =>
    rw [put] at h
    split at h
    · rcases List.mem_cons.1 h with h | h
      · exact .inr h
      · exact .inl (List.mem_cons_of_mem s h)
    · rcases List.mem_cons.1 h with h | h
      · exact .inl (h ▸ List.mem_cons_self)
      · exact (ih h).imp_left (List.mem_cons_of_mem s)

theorem mem_overlay {below above : Table} {row : Slot} (h : row ∈ below.overlay above) :
    row ∈ below ∨ row ∈ above := by
  induction above generalizing below with
  | nil => exact .inl h
  | cons s above ih =>
    rcases ih h with h | h
    · rcases mem_put h with h | rfl
      · exact .inl h
      · exact .inr List.mem_cons_self
    · exact .inr (List.mem_cons_of_mem s h)

theorem mem_binds_overlay {below above : Table} {b : Bind}
    (h : b ∈ (below.overlay above).binds) : b ∈ below.binds ∨ b ∈ above.binds := by
  obtain ⟨row, hr, hb⟩ := List.mem_filterMap.1 h
  exact (mem_overlay hr).imp (fun hr => List.mem_filterMap.2 ⟨row, hr, hb⟩)
    fun hr => List.mem_filterMap.2 ⟨row, hr, hb⟩

theorem nodup_binds {t : Table} (h : t.sources.Nodup) : (t.binds.map (·.source)).Nodup :=
  h.sublist (sources_binds t)

end Table

namespace Registry

/-- A change of the tables. -/
inductive Edit
  | add (mode : Text) (b : Bind)
  | delete (mode source : Text)

/-- The registry after a change; a name that is no mode's changes nothing. -/
def edit (r : Registry) (e : Edit) : Registry :=
  let changed := match e with
    | .add mode b => r.add mode b
    | .delete mode source => r.delete mode source
  match changed with
  | .ok r => r
  | .error _ => r

def editAll (r : Registry) (es : List Edit) : Registry := es.foldl edit r

/-- Every table holds a pattern once, and the chords of the table for all modes are at hand. -/
structure Sound (r : Registry) : Prop where
  global : r.global.sources.Nodup
  named : ∀ mode t, r.named.get? mode = some t → t.sources.Nodup
  chords : r.globalChords = r.global.binds.filter Bind.isGlobal

theorem sound_empty : Registry.empty.Sound :=
  ⟨Table.nodup_nil, (fun _ _ h => nomatch h), rfl⟩

theorem sound_put {r : Registry} (h : r.Sound) (mode : Text) (slot : Slot) :
    (r.put mode slot).Sound := by
  unfold put
  split
  · exact ⟨Table.nodup_put h.global slot, h.named, rfl⟩
  · refine ⟨h.global, fun other t ht => ?_, h.chords⟩
    rw [Assoc.get?_put] at ht
    split at ht
    · cases ht
      cases hm : r.named.get? mode with
      | none => exact Table.nodup_put Table.nodup_nil slot
      | some t => exact Table.nodup_put (h.named mode t hm) slot
    · exact h.named other t ht

theorem sound_putChecked {r r' : Registry} (h : r.Sound) {mode : Text} {slot : Slot}
    (hr : r.putChecked mode slot = .ok r') : r'.Sound := by
  unfold putChecked at hr
  split at hr
  · cases hr
  · split at hr <;> cases hr <;> exact sound_put h _ _

theorem sound_edit {r : Registry} (h : r.Sound) (e : Edit) : (r.edit e).Sound := by
  unfold edit
  cases e <;> dsimp only <;> split
  all_goals first | exact h | (next hr => exact sound_putChecked h hr)

/-- The binds to try in a mode have different patterns. -/
theorem nodup_bindsIn {r : Registry} (h : r.Sound) (mode : Text) :
    ((r.bindsIn mode).map (·.source)).Nodup := by
  unfold bindsIn
  split
  · split
    · exact Table.nodup_binds h.global
    · exact Table.nodup_binds (Table.nodup_overlay h.global _)
  · exact Table.nodup_binds h.global

theorem nodup_globalChords {r : Registry} (h : r.Sound) :
    (r.globalChords.map (·.source)).Nodup := by
  rw [h.chords]
  exact (Table.nodup_binds h.global).sublist (List.filter_sublist.map _)

theorem isGlobal_of_mem_globalChords {r : Registry} (h : r.Sound) {b : Bind}
    (hb : b ∈ r.globalChords) : b.isGlobal = true := by
  rw [h.chords] at hb
  exact (List.mem_filter.1 hb).2

/-- Holds when a bind is in some table, in force or not. -/
def Holds (r : Registry) (b : Bind) : Prop :=
  b ∈ r.global.binds ∨ ∃ entry ∈ r.named, b ∈ entry.2.binds

theorem holds_of_mem_bindsIn {r : Registry} {mode : Text} {b : Bind} (h : b ∈ r.bindsIn mode) :
    r.Holds b := by
  unfold bindsIn at h
  split at h
  · next t ht =>
    split at h
    · exact .inl h
    · rcases Table.mem_binds_overlay h with h | h
      · exact .inl h
      · exact .inr ⟨(mode, t), Assoc.mem_of_get? ht, h⟩
  · exact .inl h

theorem holds_of_mem_globalChords {r : Registry} (h : r.Sound) {b : Bind}
    (hb : b ∈ r.globalChords) : r.Holds b := by
  rw [h.chords] at hb
  exact .inl (List.mem_filter.1 hb).1

theorem holds_put {r : Registry} {mode : Text} {slot : Slot} {b : Bind} (h : (r.put mode slot).Holds b) :
    r.Holds b ∨ slot.bind? = some b := by
  have row {t : Table} (h : b ∈ (t.put slot).binds) : b ∈ t.binds ∨ slot.bind? = some b := by
    obtain ⟨row, hr, hb⟩ := List.mem_filterMap.1 h
    rcases Table.mem_put hr with hr | rfl
    · exact .inl (List.mem_filterMap.2 ⟨row, hr, hb⟩)
    · exact .inr hb
  unfold put at h
  split at h
  · rcases h with h | h
    · exact (row h).imp_left .inl
    · exact .inl (.inr h)
  · rcases h with h | ⟨entry, he, h⟩
    · exact .inl (.inl h)
    · rcases Assoc.mem_put he with rfl | he
      · cases hg : r.named.get? mode with
        | none =>
          rw [hg] at h
          exact (row h).imp_left fun h => nomatch h
        | some t =>
          rw [hg] at h
          exact (row h).imp_left fun h => .inr ⟨(mode, t), Assoc.mem_of_get? hg, h⟩
      · exact .inl (.inr ⟨entry, he, h⟩)

/-- Only an addition brings a bind into the tables, and none to a mode with a dash in front. -/
theorem holds_edit {r : Registry} {e : Edit} {b : Bind} (h : (r.edit e).Holds b) :
    r.Holds b ∨ ∃ mode, e = .add mode b ∧ mode.head? ≠ some '-' := by
  have checked {mode : Text} {slot : Slot} {r' : Registry} (hr : r.putChecked mode slot = .ok r')
      (h : r'.Holds b) : r.Holds b ∨ slot.bind? = some b ∧ mode.head? ≠ some '-' := by
    unfold putChecked at hr
    split at hr
    · cases hr
    · split at hr
      · cases hr
        exact (holds_put h).imp_right fun h => nomatch h
      · next hm =>
        cases hr
        refine (holds_put h).imp_right fun hb => ⟨hb, fun hd => ?_⟩
        obtain ⟨name, hn⟩ := List.head?_eq_some_iff.1 hd
        exact hm name hn
  unfold edit at h
  cases e with
  | add mode c =>
    dsimp only at h
    split at h
    · next hr =>
      refine (checked hr h).imp_right fun ⟨hb, hm⟩ => ?_
      cases hb
      exact ⟨mode, rfl, hm⟩
    · exact .inl h
  | delete mode source =>
    dsimp only at h
    split at h
    · next hr => exact (checked hr h).imp_right fun hb => nomatch hb.1
    · exact .inl h

theorem holds_editAll {r : Registry} {es : List Edit} {b : Bind} (h : (r.editAll es).Holds b) :
    r.Holds b ∨ ∃ mode, .add mode b ∈ es ∧ mode.head? ≠ some '-' := by
  induction es generalizing r with
  | nil => exact .inl h
  | cons e es ih =>
    rcases ih h with h | ⟨mode, he, hm⟩
    · rcases holds_edit h with h | ⟨mode, rfl, hm⟩
      · exact .inl h
      · exact .inr ⟨mode, List.mem_cons_self, hm⟩
    · exact .inr ⟨mode, List.mem_cons_of_mem e he, hm⟩

end Registry

end ModalKeys
