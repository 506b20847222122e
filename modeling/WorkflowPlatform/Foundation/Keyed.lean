import Mathlib.Data.List.Forall2
import Mathlib.Data.List.Nodup

/-! # Rows with keys

A table is a list of rows with a key. A row is found by its key, and an update by
key changes the row that has it.
-/

namespace Keyed

universe u v

variable {Row : Type u} {Key : Type v}

theorem ext {key : Row → Key} {rows : List Row} (hkeys : (rows.map key).Nodup) {row other : Row}
    (hrow : row ∈ rows) (hother : other ∈ rows) (heq : key row = key other) : row = other :=
  List.inj_on_of_nodup_map hkeys hrow hother heq

/-- A row with a new key keeps the keys distinct. -/
theorem nodup_concat {key : Row → Key} {rows : List Row} {row : Row}
    (hkeys : (rows.map key).Nodup) (hfresh : ∀ other ∈ rows, key other ≠ key row) :
    ((rows ++ [row]).map key).Nodup := by
  rw [List.map_append, List.map_singleton]
  apply hkeys.append (List.nodup_singleton _)
  intro _ hold hnew
  obtain ⟨other, hother, rfl⟩ := List.mem_map.mp hold
  exact hfresh other hother (List.mem_singleton.mp hnew)

/-- Rows that stand for other rows have some of their keys, in their order. -/
theorem filterMap_keys_sublist {Other : Type*} (key : Row → Key) (key' : Other → Key)
    {view : Row → Option Other} (hview : ∀ row other, view row = some other → key' other = key row)
    (rows : List Row) : ((rows.filterMap view).map key').Sublist (rows.map key) := by
  induction rows with
  | nil => exact List.Sublist.slnil
  | cons row rest ih =>
      cases hrow : view row with
      | none =>
          rw [List.filterMap_cons_none hrow, List.map_cons]
          exact ih.cons _
      | some other =>
          rw [List.filterMap_cons_some hrow, List.map_cons, List.map_cons, hview row other hrow]
          exact ih.cons_cons _

/-- When every row is stood for, they have all of the keys. -/
theorem filterMap_keys_eq {Other : Type*} {key : Row → Key} {key' : Other → Key}
    {view : Row → Option Other} (rows : List Row)
    (hview : ∀ row ∈ rows, ∃ other, view row = some other ∧ key' other = key row) :
    (rows.filterMap view).map key' = rows.map key := by
  induction rows with
  | nil => rfl
  | cons row rest ih =>
      obtain ⟨other, hother, hkey⟩ := hview row List.mem_cons_self
      rw [List.filterMap_cons_some hother, List.map_cons, List.map_cons, hkey,
        ih fun row hrow => hview row (List.mem_cons_of_mem _ hrow)]

/-- To stand for keys of rows is to stand for the rows. -/
theorem forall₂_map_key {Other : Type*} {key : Row → Key} {rows : List Row}
    (hkeys : (rows.map key).Nodup) {stands : Other → Row → Prop} {part : List Row}
    (hpart : part ⊆ rows) {others : List Other} :
    List.Forall₂ (fun other target => ∃ row ∈ rows, key row = target ∧ stands other row) others
        (part.map key) ↔ List.Forall₂ stands others part := by
  induction part generalizing others with
  | nil => simp
  | cons row rest ih =>
      obtain ⟨hrow, hrest⟩ := List.cons_subset.mp hpart
      cases others with
      | nil => simp
      | cons other more =>
          rw [List.map_cons, List.forall₂_cons, List.forall₂_cons, ih hrest]
          apply and_congr_left
          intro _
          constructor
          · intro hstands
            obtain ⟨found, hfound, heq, hstands⟩ := hstands
            exact ext hkeys hfound hrow heq ▸ hstands
          · exact fun hstands => ⟨row, hrow, rfl, hstands⟩

variable [DecidableEq Key]

/-- Change the rows that have a key. -/
def update (key : Row → Key) (target : Key) (change : Row → Row) (rows : List Row) : List Row :=
  rows.map fun row => if key row = target then change row else row

variable {key : Row → Key}

/-- The rows of some keys, collected key by key. -/
theorem flatMap_filter_perm {keys : List Key} (hkeys : keys.Nodup) (rows : List Row) :
    (keys.flatMap fun target => rows.filter (fun row => key row = target)).Perm
      (rows.filter fun row => key row ∈ keys) := by
  induction keys with
  | nil => simp
  | cons target rest ih =>
      rw [List.nodup_cons] at hkeys
      rw [List.flatMap_cons]
      refine ((ih hkeys.2).append_left _).trans (.trans (.of_eq ?_)
        (List.filter_append_perm (fun row => key row = target) _))
      rw [List.filter_filter, List.filter_filter]
      refine congrArg₂ _ (List.filter_congr fun row _ => ?_) (List.filter_congr fun row _ => ?_)
      · by_cases heq : key row = target
        · simp [heq]
        · simp [heq]
      · by_cases heq : key row = target
        · simp [heq, hkeys.1]
        · simp [heq]

/-- With distinct keys, looking a key up finds the row that has it. -/
theorem find?_eq_some_iff {rows : List Row} (hkeys : (rows.map key).Nodup) {target : Key}
    {row : Row} : rows.find? (fun row => key row = target) = some row ↔
      row ∈ rows ∧ key row = target := by
  constructor
  · intro hfound
    exact ⟨List.mem_of_find?_eq_some hfound, by simpa using List.find?_some hfound⟩
  · rintro ⟨hrow, rfl⟩
    cases hfound : rows.find? (fun other => key other = key row) with
    | none =>
        have hmissing := List.find?_eq_none.mp hfound row hrow
        simp at hmissing
    | some other =>
        have heq : key other = key row := by simpa using List.find?_some hfound
        rw [ext hkeys (List.mem_of_find?_eq_some hfound) hrow heq]

/-! ## Updates -/

/-- An update does not show in what it leaves alone. -/
theorem map_update {Value : Type*} {project : Row → Value} {target : Key}
    {change : Row → Row} (hchange : ∀ row, project (change row) = project row)
    (rows : List Row) : (update key target change rows).map project = rows.map project := by
  rw [update, List.map_map]
  apply List.map_congr_left
  intro row _
  rw [Function.comp_apply]
  split
  · exact hchange row
  · rfl

theorem map_key_update {target : Key} {change : Row → Row}
    (hchange : ∀ row, key (change row) = key row) (rows : List Row) :
    (update key target change rows).map key = rows.map key :=
  map_update hchange rows

theorem mem_update {target : Key} {change : Row → Row} {rows : List Row} {row : Row} :
    row ∈ update key target change rows ↔
      (∃ before ∈ rows, key before = target ∧ row = change before) ∨
        (row ∈ rows ∧ key row ≠ target) := by
  simp only [update, List.mem_map]
  constructor
  · rintro ⟨before, hbefore, rfl⟩
    split
    · next heq => exact .inl ⟨before, hbefore, heq, rfl⟩
    · next hne => exact .inr ⟨hbefore, hne⟩
  · rintro (⟨before, hbefore, heq, rfl⟩ | ⟨hrow, hne⟩)
    · exact ⟨before, hbefore, if_pos heq⟩
    · exact ⟨row, hrow, if_neg hne⟩

/-- Without a row that has the key nothing changes. -/
theorem update_of_fresh {target : Key} {rows : List Row} (hfresh : ∀ row ∈ rows, key row ≠ target)
    (change : Row → Row) : update key target change rows = rows :=
  (List.map_congr_left fun row hrow => if_neg (hfresh row hrow)).trans (List.map_id _)

/-- An update does not change what is found under other keys. -/
theorem find?_update_of_ne {target other : Key} {change : Row → Row}
    (hchange : ∀ row, key (change row) = key row) (hne : other ≠ target) (rows : List Row) :
    (update key target change rows).find? (fun row => key row = other) =
      rows.find? fun row => key row = other := by
  induction rows with
  | nil => rfl
  | cons row rest ih =>
      rw [update, List.map_cons, ← update, List.find?_cons, List.find?_cons, ih]
      by_cases hrow : key row = target
      · simp [hrow, hchange, hne.symm]
      · rw [if_neg hrow]

/-- An update of the last row. -/
theorem update_concat {rows : List Row} {row : Row} (hkeys : ((rows ++ [row]).map key).Nodup)
    (change : Row → Row) : update key (key row) change (rows ++ [row]) = rows ++ [change row] := by
  have hfresh : ∀ other ∈ rows, key other ≠ key row := by
    intro other hother heq
    rw [List.map_append] at hkeys
    exact List.disjoint_of_nodup_append hkeys (List.mem_map_of_mem hother) (by simp [heq])
  rw [update, List.map_append, ← update, update_of_fresh hfresh, List.map_singleton, if_pos rfl]

/-- Updates commute with filters they do not affect. -/
theorem filter_update {target : Key} {change : Row → Row} {keep : Row → Bool}
    (hkeep : ∀ row, keep (change row) = keep row) (rows : List Row) :
    (update key target change rows).filter keep = update key target change (rows.filter keep) := by
  rw [update, update, List.filter_map]
  refine congrArg _ (List.filter_congr fun row _ => ?_)
  rw [Function.comp_apply]
  split
  · exact hkeep row
  · rfl

end Keyed
