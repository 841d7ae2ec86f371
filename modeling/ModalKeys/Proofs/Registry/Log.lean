import Mathlib.Data.List.Basic
import Mathlib.Data.List.Induction
import ModalKeys.Proofs.Registry.Tables

namespace ModalKeys

namespace Table

theorem find?_put (t : Table) (slot : Slot) (source : Text) :
    (t.put slot).find? source = if slot.source = source then some slot else t.find? source := by
  induction t with
  | nil => by_cases h : slot.source = source <;> simp [put, find?, h]
  | cons s t ih =>
    unfold find? at ih ⊢
    rw [put]
    split
    · next hs => by_cases h : slot.source = source <;> simp [hs, h]
    · next hs =>
      by_cases h : s.source = source
      · subst h
        simp [Ne.symm hs]
      · simp [h, ih]

theorem overlay_concat (below above : Table) (slot : Slot) :
    below.overlay (above ++ [slot]) = (below.overlay above).put slot := List.foldl_concat ..

/-- The last row of a pattern decides, wherever its place is. -/
theorem find?_overlay (below above : Table) (source : Text) :
    (below.overlay above).find? source =
      (above.filter (·.source = source)).getLast?.or (below.find? source) := by
  induction above using List.reverseRecOn with
  | nil => rfl
  | append_singleton above slot ih =>
    rw [overlay_concat, find?_put, ih, List.filter_append]
    by_cases h : slot.source = source <;> simp [h]

/-- Rows put one after the other stand in the order in which their patterns first came up. -/
theorem sources_overlay_nil (rows : List Slot) :
    (overlay [] rows).sources = (rows.map Slot.source).eraseDups := by
  induction rows using List.reverseRecOn with
  | nil => rfl
  | append_singleton rows slot ih =>
    have hdup : [slot.source].removeAll (rows.map Slot.source) =
        if slot.source ∈ rows.map Slot.source then [] else [slot.source] := by
      unfold List.removeAll
      split
      · next h => exact List.filter_cons_of_neg (by simpa using h)
      · next h => exact List.filter_cons_of_pos (by simpa using h)
    rw [overlay_concat, sources_put, ih, List.map_append, List.eraseDups_append, List.map_singleton,
      hdup]
    split
    · next h => rw [if_pos (List.mem_eraseDups.1 h)]; simp
    · next h => rw [if_neg (fun hm => h (List.mem_eraseDups.2 hm))]; rfl

/-- The patterns of the table above that the table below has not come after those that it has. -/
theorem sources_overlay (below : Table) {above : Table} (h : above.sources.Nodup) :
    (below.overlay above).sources =
      below.sources ++ above.sources.filter (!below.sources.contains ·) := by
  induction above using List.reverseRecOn with
  | nil => simp [overlay, sources]
  | append_singleton above slot ih =>
    have hs : sources (above ++ [slot]) = sources above ++ [slot.source] := List.map_append
    rw [hs] at h ⊢
    obtain ⟨ha, hn⟩ : (sources above).Nodup ∧ slot.source ∉ sources above := by
      obtain ⟨ha, -, hd⟩ := List.nodup_append.1 h
      exact ⟨ha, fun hm => hd _ hm _ List.mem_cons_self rfl⟩
    rw [overlay_concat, sources_put, ih ha, List.filter_append]
    by_cases hb : slot.source ∈ below.sources <;> simp [hb, hn]

theorem find?_of_nodup {t : Table} (h : t.sources.Nodup) (source : Text) :
    (t.filter (·.source = source)).getLast? = t.find? source := by
  induction t with
  | nil => rfl
  | cons s t ih =>
    obtain ⟨hs, ht⟩ := List.nodup_cons.1 h
    unfold find? at ih ⊢
    by_cases he : s.source = source
    · subst he
      have hf : t.filter (·.source = s.source) = [] :=
        List.filter_eq_nil_iff.2 fun u hu hsu =>
          hs (of_decide_eq_true hsu ▸ List.mem_map_of_mem hu)
      simp [hf]
    · simp [he, ih ht]

/-- A table is its patterns in order, each with its row. -/
theorem binds_eq_filterMap {t : Table} (h : t.sources.Nodup) :
    t.binds = t.sources.filterMap fun source => (t.find? source).bind Slot.bind? := by
  induction t with
  | nil => rfl
  | cons s t ih =>
    obtain ⟨hs, ht⟩ := List.nodup_cons.1 h
    have hf : ∀ source ∈ sources t, find? (s :: t) source = find? t source := by
      intro source hm
      have hne : s.source ≠ source := fun he => hs (he ▸ hm)
      exact List.find?_cons_of_neg (by simpa using hne)
    have hself : find? (s :: t) s.source = some s := List.find?_cons_of_pos (by simp)
    have hrest : (sources t).filterMap (fun source => (find? (s :: t) source).bind Slot.bind?) =
        binds t := by
      rw [ih ht]
      exact List.filterMap_congr fun source hm => by rw [hf source hm]
    have hcons : sources (s :: t) = s.source :: sources t := rfl
    rw [hcons, List.filterMap_cons, hself, hrest]
    rfl

/-- A bind is in a table if the row of its pattern binds it. -/
theorem mem_binds_iff {t : Table} (h : t.sources.Nodup) {b : Bind} :
    b ∈ t.binds ↔ t.find? b.source = some (.bound b) := by
  rw [binds_eq_filterMap h, List.mem_filterMap]
  constructor
  · rintro ⟨source, -, hb⟩
    obtain ⟨row, hrow, hb⟩ := Option.bind_eq_some_iff.1 hb
    have hs : row.source = source := by simpa using List.find?_some hrow
    cases row with
    | bound c =>
      cases hb
      subst hs
      exact hrow
    | removed c => cases hb
  · intro hrow
    exact ⟨b.source, List.mem_map_of_mem (List.mem_of_find?_eq_some hrow), by rw [hrow]; rfl⟩

end Table

namespace Registry

/-- What an edit puts into the tables: a row, and the mode whose table gets it. -/
structure Record where
  mode : Text
  row : Slot

/-- A dash in front of the name makes any row a removal. A name that is no mode's gets nothing. -/
def record? (mode : Text) (row : Slot) : Option Record :=
  if isModeName mode then
    match mode with
    | '-' :: name => some ⟨name, .removed row.source⟩
    | _ => some ⟨mode, row⟩
  else none

def Edit.record? : Edit → Option Record
  | .add mode b => Registry.record? mode (.bound b)
  | .delete mode source => Registry.record? mode (.removed source)

/-- Holds when an edit adds or removes a pattern in a mode. -/
def Edit.Touches (e : Edit) (mode source : Text) : Prop :=
  ∃ row, e.record? = some ⟨mode, row⟩ ∧ row.source = source

/-- What a run of edits puts into the tables, in order. -/
abbrev Log := List Record

def log (es : List Edit) : Log := es.filterMap Edit.record?

namespace Log

/-- The rows put into the table of a mode. -/
def rows (l : Log) (mode : Text) : List Slot := (l.filter (·.mode = mode)).map Record.row

/-- The patterns that came up in a mode, in the order in which they first did. -/
def patterns (l : Log) (mode : Text) : List Text := ((l.rows mode).map Slot.source).eraseDups

/-- The last row of a pattern in a mode. -/
def last? (l : Log) (mode source : Text) : Option Slot :=
  ((l.rows mode).filter (·.source = source)).getLast?

/-- The row that decides about a pattern: the mode's own last one, or that for all modes. -/
def deciding? (l : Log) (mode source : Text) : Option Slot :=
  (l.last? mode source).or (l.last? globalMode source)

/-- The patterns for all modes, and then those that came up in this mode only. -/
def scanOrder (l : Log) (mode : Text) : List Text :=
  l.patterns globalMode ++ (l.patterns mode).filter (!(l.patterns globalMode).contains ·)

/-- The bind of a pattern, unless the last that was done to it is a removal. -/
def bind? (l : Log) (mode source : Text) : Option Bind :=
  (l.deciding? mode source).bind Slot.bind?

def binds (l : Log) (mode : Text) : List Bind := (l.scanOrder mode).filterMap (l.bind? mode)

theorem rows_append (l k : Log) (mode : Text) : (l ++ k).rows mode = l.rows mode ++ k.rows mode := by
  simp [rows]

theorem rows_of_ne {d : Record} {mode : Text} (h : d.mode ≠ mode) : rows [d] mode = [] := by
  simp [rows, h]

theorem rows_self (d : Record) : rows [d] d.mode = [d.row] := by
  simp [rows]

end Log

theorem log_append (es es' : List Edit) : log (es ++ es') = log es ++ log es' :=
  List.filterMap_append

theorem editAll_append (r : Registry) (es es' : List Edit) :
    r.editAll (es ++ es') = (r.editAll es).editAll es' := List.foldl_append

theorem putChecked_eq (r : Registry) (mode : Text) (row : Slot) :
    r.putChecked mode row =
      match record? mode row with
      | some d => .ok (r.put d.mode d.row)
      | none => .error ⟨mode⟩ := by
  unfold putChecked record? checkMode
  cases isModeName mode with
  | false => rfl
  | true =>
    rcases mode with _ | ⟨c, name⟩
    · rfl
    · by_cases hc : c = '-'
      · subst hc
        rfl
      · simp [hc]

theorem edit_eq (r : Registry) (e : Edit) :
    r.edit e =
      match e.record? with
      | some d => r.put d.mode d.row
      | none => r := by
  unfold edit
  cases e with
  | add mode b =>
    simp only [Edit.record?, add, putChecked_eq]
    cases record? mode (.bound b) <;> rfl
  | delete mode source =>
    simp only [Edit.record?, delete, putChecked_eq]
    cases record? mode (.removed source) <;> rfl

/-- Each table is made of the rows put into it, one after the other. -/
structure Tabulates (r : Registry) (l : Log) : Prop where
  global : r.global = Table.overlay [] (l.rows globalMode)
  named : ∀ mode, mode ≠ globalMode →
    (r.named.get? mode).getD [] = Table.overlay [] (l.rows mode)

theorem tabulates_empty : Tabulates .empty [] := ⟨rfl, fun _ _ => rfl⟩

theorem Tabulates.put {r : Registry} {l : Log} (h : Tabulates r l) (d : Record) :
    Tabulates (r.put d.mode d.row) (l ++ [d]) := by
  unfold Registry.put
  by_cases hg : d.mode = globalMode
  · rw [if_pos hg]
    refine ⟨?_, fun mode hm => ?_⟩
    · rw [Log.rows_append, ← hg, Log.rows_self, Table.overlay_concat, hg, ← h.global]
    · rw [Log.rows_append, Log.rows_of_ne (hg ▸ Ne.symm hm), List.append_nil]
      exact h.named mode hm
  · rw [if_neg hg]
    refine ⟨?_, fun mode hm => ?_⟩
    · rw [Log.rows_append, Log.rows_of_ne hg, List.append_nil]
      exact h.global
    · rw [Assoc.get?_put]
      by_cases he : d.mode = mode
      · subst he
        rw [if_pos rfl, Option.getD_some, Log.rows_append, Log.rows_self, Table.overlay_concat,
          h.named d.mode hg]
      · rw [if_neg he, Log.rows_append, Log.rows_of_ne he, List.append_nil]
        exact h.named mode hm

theorem Tabulates.edit {r : Registry} {l : Log} (h : Tabulates r l) (e : Edit) :
    Tabulates (r.edit e) (l ++ log [e]) := by
  rw [edit_eq]
  cases hd : e.record? with
  | none => simpa [log, hd] using h
  | some d => simpa [log, hd] using h.put d

theorem tabulates_editAll (es : List Edit) : Tabulates (empty.editAll es) (log es) := by
  induction es using List.reverseRecOn with
  | nil => exact tabulates_empty
  | append_singleton es e ih =>
    rw [log_append, editAll_append]
    exact ih.edit e

theorem global_put (r : Registry) (d : Record) :
    (r.put d.mode d.row).global = r.global.overlay (Log.rows [d] globalMode) := by
  unfold Registry.put
  by_cases hg : d.mode = globalMode
  · rw [if_pos hg, ← hg, Log.rows_self]
    rfl
  · rw [if_neg hg, Log.rows_of_ne hg]
    rfl

/-- The rows that edits put into the table for all modes lie over what it held. -/
theorem global_editAll (r : Registry) (es : List Edit) :
    (r.editAll es).global = r.global.overlay ((log es).rows globalMode) := by
  induction es generalizing r with
  | nil => rfl
  | cons e es ih =>
    change ((r.edit e).editAll es).global = _
    rw [ih, edit_eq]
    cases hd : e.record? with
    | none => simp [log, hd]
    | some d =>
      have hl : log (e :: es) = [d] ++ log es := by simp [log, hd]
      rw [hl, Log.rows_append, global_put]
      exact List.foldl_append.symm

/-- The binds of a mode are those of its own table over the table for all modes. -/
theorem bindsIn_eq (r : Registry) {mode : Text} (h : mode ≠ globalMode) :
    r.bindsIn mode = (r.global.overlay ((r.named.get? mode).getD [])).binds := by
  unfold bindsIn
  cases r.named.get? mode with
  | none => rfl
  | some t => exact if_neg h

theorem bindsIn_global (r : Registry) : r.bindsIn globalMode = r.global.binds := by
  unfold bindsIn
  split
  · exact if_pos rfl
  · rfl

theorem Tabulates.bindsIn {r : Registry} {l : Log} (h : Tabulates r l) (mode : Text) :
    r.bindsIn mode = l.binds mode := by
  have hn (rows : List Slot) : (Table.overlay [] rows).sources.Nodup :=
    Table.nodup_overlay Table.nodup_nil rows
  have hf (rows : List Slot) (source : Text) :
      (Table.overlay [] rows).find? source = (rows.filter (·.source = source)).getLast? := by
    rw [Table.find?_overlay]
    exact Option.or_none
  unfold Log.binds Log.scanOrder
  by_cases hg : mode = globalMode
  · subst hg
    have hnone : (l.patterns globalMode).filter (!(l.patterns globalMode).contains ·) = [] :=
      List.filter_eq_nil_iff.2 fun p hp => by simp [hp]
    rw [bindsIn_global, h.global, Table.binds_eq_filterMap (hn _), Table.sources_overlay_nil, hnone,
      List.append_nil]
    refine List.filterMap_congr fun source _ => ?_
    rw [hf, Log.bind?, Log.deciding?, Option.or_self]
    rfl
  · rw [bindsIn_eq r hg, h.named mode hg, h.global,
      Table.binds_eq_filterMap (Table.nodup_overlay (hn _) _), Table.sources_overlay _ (hn _),
      Table.sources_overlay_nil, Table.sources_overlay_nil]
    refine List.filterMap_congr fun source _ => ?_
    rw [Table.find?_overlay, Table.find?_of_nodup (hn _), hf, hf]
    rfl

namespace Log

theorem binds_congr {l k : Log} {mode : Text} (hg : l.rows globalMode = k.rows globalMode)
    (hm : l.rows mode = k.rows mode) : l.binds mode = k.binds mode := by
  unfold binds scanOrder bind? deciding? last? patterns
  rw [hg, hm]

theorem nodup_patterns (l : Log) (mode : Text) : (l.patterns mode).Nodup := by
  rw [patterns, ← Table.sources_overlay_nil]
  exact Table.nodup_overlay Table.nodup_nil _

theorem nodup_scanOrder (l : Log) (mode : Text) : (l.scanOrder mode).Nodup := by
  refine List.nodup_append.2 ⟨l.nodup_patterns _, (l.nodup_patterns _).filter _, ?_⟩
  rintro p hp q hq rfl
  simp [hp] at hq

theorem source_of_last? {l : Log} {mode source : Text} {row : Slot}
    (h : l.last? mode source = some row) : row.source = source := by
  have hm := List.mem_filter.1 (List.mem_of_getLast? h)
  exact of_decide_eq_true hm.2

theorem source_of_deciding? {l : Log} {mode source : Text} {row : Slot}
    (h : l.deciding? mode source = some row) : row.source = source := by
  rcases Option.or_eq_some_iff.1 h with h | ⟨-, h⟩
  · exact source_of_last? h
  · exact source_of_last? h

section SamePattern

variable {l k : Log} {target source : Text}
  (hk : ∀ d ∈ k, d.mode = target ∧ d.row.source = source)

include hk

theorem source_of_mem_rows {mode : Text} {row : Slot} (h : row ∈ k.rows mode) :
    mode = target ∧ row.source = source := by
  obtain ⟨d, hd, rfl⟩ := List.mem_map.1 h
  obtain ⟨hd, hm⟩ := List.mem_filter.1 hd
  exact ⟨(of_decide_eq_true hm).symm.trans (hk d hd).1, (hk d hd).2⟩

/-- A pattern that has come up in a mode keeps its place. -/
theorem patterns_append (h : source ∈ l.patterns target) (mode : Text) :
    (l ++ k).patterns mode = l.patterns mode := by
  have hr : ((k.rows mode).map Slot.source).removeAll ((l.rows mode).map Slot.source) = [] := by
    refine List.filter_eq_nil_iff.2 fun p hp => ?_
    obtain ⟨row, hrow, rfl⟩ := List.mem_map.1 hp
    obtain ⟨rfl, hs⟩ := source_of_mem_rows hk hrow
    have hm : row.source ∈ (l.rows mode).map Slot.source := hs ▸ List.mem_eraseDups.1 h
    simpa using hm
  rw [patterns, rows_append, List.map_append, List.eraseDups_append, hr]
  exact List.append_nil _

theorem scanOrder_append (h : source ∈ l.patterns target) (mode : Text) :
    (l ++ k).scanOrder mode = l.scanOrder mode := by
  unfold scanOrder
  rw [patterns_append hk h, patterns_append hk h]

theorem last?_append_of_ne {other : Text} (h : other ≠ source) (mode : Text) :
    (l ++ k).last? mode other = l.last? mode other := by
  have hn : (k.rows mode).filter (·.source = other) = [] :=
    List.filter_eq_nil_iff.2 fun row hrow he =>
      h ((of_decide_eq_true he).symm.trans (source_of_mem_rows hk hrow).2)
  rw [last?, rows_append, List.filter_append, hn, List.append_nil]
  rfl

theorem deciding?_append_of_ne {other : Text} (h : other ≠ source) (mode : Text) :
    (l ++ k).deciding? mode other = l.deciding? mode other := by
  unfold deciding?
  rw [last?_append_of_ne hk h, last?_append_of_ne hk h]

end SamePattern

theorem source_of_bind? {l : Log} {mode source : Text} {b : Bind} (h : l.bind? mode source = some b) :
    b.source = source := by
  obtain ⟨row, hrow, hb⟩ := Option.bind_eq_some_iff.1 h
  exact (Table.source_of_bind? hb).trans (source_of_deciding? hrow)

theorem source_ne_of_mem {l : Log} {mode source : Text} {order : List Text} (h : source ∉ order)
    {b : Bind} (hb : b ∈ order.filterMap (l.bind? mode)) : b.source ≠ source := by
  obtain ⟨other, ho, hb⟩ := List.mem_filterMap.1 hb
  rintro rfl
  exact h (source_of_bind? hb ▸ ho)

/-- Around the place of a pattern that has come up, further edits of it leave the binds as they
are. -/
theorem binds_append (l : Log) {target source : Text} (h : source ∈ l.patterns target)
    (mode : Text) :
    ∃ before after, (∀ b ∈ before ++ after, b.source ≠ source) ∧
      ∀ k : Log, (∀ d ∈ k, d.mode = target ∧ d.row.source = source) →
        ∃ bind : Option Bind, (∀ b ∈ bind, b.source = source) ∧
          (l ++ k).binds mode = before ++ bind.toList ++ after := by
  have hsame {k : Log} (hk : ∀ d ∈ k, d.mode = target ∧ d.row.source = source) {order : List Text}
      (ho : source ∉ order) :
      order.filterMap ((l ++ k).bind? mode) = order.filterMap (l.bind? mode) := by
    refine List.filterMap_congr fun other hm => ?_
    have hne : other ≠ source := fun he => ho (he ▸ hm)
    rw [bind?, deciding?_append_of_ne hk hne]
    rfl
  by_cases hm : source ∈ l.scanOrder mode
  · obtain ⟨a, c, ho⟩ := List.append_of_mem hm
    have hn := l.nodup_scanOrder mode
    rw [ho] at hn
    obtain ⟨-, hright, hleft⟩ := List.nodup_append.1 hn
    have hc : source ∉ a := fun hs => hleft _ hs _ List.mem_cons_self rfl
    have hac : source ∉ c := (List.nodup_cons.1 hright).1
    refine ⟨a.filterMap (l.bind? mode), c.filterMap (l.bind? mode), fun b hb => ?_, fun k hk => ?_⟩
    · rw [← List.filterMap_append] at hb
      exact source_ne_of_mem (by simp [hc, hac]) hb
    · refine ⟨(l ++ k).bind? mode source, fun b hb => source_of_bind? hb, ?_⟩
      rw [binds, scanOrder_append hk h, ho, List.filterMap_append, List.filterMap_cons,
        hsame hk hc, hsame hk hac]
      cases (l ++ k).bind? mode source <;> simp
  · refine ⟨l.binds mode, [], fun b hb => ?_, fun k hk => ⟨none, by simp, ?_⟩⟩
    · rw [List.append_nil] at hb
      exact source_ne_of_mem hm hb
    · rw [binds, scanOrder_append hk h, hsame hk hm]
      simp [binds]

end Log

/-- The binds of a mode are those that the edits tell. An edit in a named mode changes no other
mode, and a pattern that has come up in a mode keeps its place, replaced, removed or added again. -/
theorem bindsIn_of_log (es : List Edit) (mode : Text) :
    (empty.editAll es).bindsIn mode = (log es).binds mode ∧
    (∀ e d, e.record? = some d → d.mode ≠ globalMode → d.mode ≠ mode →
      (empty.editAll (es ++ [e])).bindsIn mode = (empty.editAll es).bindsIn mode) ∧
    ∀ target source, source ∈ (log es).patterns target →
      ∃ before after, (∀ b ∈ before ++ after, b.source ≠ source) ∧
        ∀ later, (∀ e ∈ later, e.Touches target source) →
          ∃ bind : Option Bind, (∀ b ∈ bind, b.source = source) ∧
            (empty.editAll (es ++ later)).bindsIn mode = before ++ bind.toList ++ after := by
  have hlog (es : List Edit) : (empty.editAll es).bindsIn mode = (log es).binds mode :=
    (tabulates_editAll es).bindsIn mode
  refine ⟨hlog es, fun e d hd hg hm => ?_, fun target source h => ?_⟩
  · have hone : log [e] = [d] := by simp [log, hd]
    rw [hlog, hlog, log_append, hone]
    refine Log.binds_congr ?_ ?_
    · rw [Log.rows_append, Log.rows_of_ne hg, List.append_nil]
    · rw [Log.rows_append, Log.rows_of_ne hm, List.append_nil]
  · obtain ⟨before, after, hne, hall⟩ := Log.binds_append (log es) h mode
    refine ⟨before, after, hne, fun later hl => ?_⟩
    have hk : ∀ d ∈ log later, d.mode = target ∧ d.row.source = source := by
      intro d hd
      obtain ⟨e, he, hd⟩ := List.mem_filterMap.1 hd
      obtain ⟨row, hr, hs⟩ := hl e he
      rw [hr] at hd
      cases hd
      exact ⟨rfl, hs⟩
    rw [hlog, log_append]
    exact hall (log later) hk

end Registry

end ModalKeys
