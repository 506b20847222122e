import Mathlib.Data.List.Rotate
import Mathlib.Data.List.Perm.Basic

/-! # Queries without an order

A query that names no order may return its rows in any one. A `RowOrder` is such
a choice; what a program reads off the rows is well defined when every choice
gives the same. For a program that takes the first matching row this is the case
exactly when the matching rows agree on what is taken from them.
-/

/-- A choice of the order in which the rows of a table are returned. -/
structure RowOrder (α : Type*) where
  rows : List α → List α
  perm : ∀ table, (rows table).Perm table

namespace RowOrder

universe u v

variable {α : Type u} {β : Type v}

/-- The rows in the order they are stored. -/
def stored : RowOrder α := ⟨id, fun _ => .refl _⟩

/-- The stored rows from position `k` on, then the ones before it. -/
def rotated (k : ℕ) : RowOrder α := ⟨fun table => table.rotate k, fun table => table.rotate_perm k⟩

@[simp] theorem stored_rows (table : List α) : (stored : RowOrder α).rows table = table := rfl

@[simp] theorem mem_rows (order : RowOrder α) {table : List α} {row : α} :
    row ∈ order.rows table ↔ row ∈ table := (order.perm table).mem_iff

@[simp] theorem rows_singleton (order : RowOrder α) (row : α) : order.rows [row] = [row] :=
  List.perm_singleton.mp (order.perm [row])

/-- Some order returns a given row first. -/
theorem exists_first {table : List α} {row : α} (hrow : row ∈ table) :
    ∃ (order : RowOrder α) (rest : List α), order.rows table = row :: rest := by
  obtain ⟨before, after, rfl⟩ := List.append_of_mem hrow
  refine ⟨rotated before.length, after ++ before, ?_⟩
  simp only [rotated, List.rotate_append_length_eq, List.cons_append]

/-- Some order returns the rows in a given arrangement. -/
theorem exists_rows {table rows : List α} (hperm : rows.Perm table) :
    ∃ order : RowOrder α, order.rows table = rows := by
  classical
  refine ⟨⟨Function.update id table rows, fun other => ?_⟩, Function.update_self _ _ _⟩
  by_cases heq : other = table
  · rw [heq, Function.update_self]
    exact hperm
  · rw [Function.update_of_ne heq]
    exact .refl other

/-- The first row a program accepts, as one order returns them. -/
def pick (order : RowOrder α) (accepts : α → Bool) (table : List α) : Option α :=
  (order.rows table).find? accepts

theorem pick_some {order : RowOrder α} {accepts : α → Bool} {table : List α} {row : α}
    (hpick : order.pick accepts table = some row) : row ∈ table ∧ accepts row = true :=
  ⟨order.mem_rows.mp (List.mem_of_find?_eq_some hpick), List.find?_some hpick⟩

theorem pick_eq_none_iff {order : RowOrder α} {accepts : α → Bool} {table : List α} :
    order.pick accepts table = none ↔ ∀ row ∈ table, accepts row = false := by
  simp [pick]

theorem exists_pick {accepts : α → Bool} {table : List α} {row : α} (hrow : row ∈ table)
    (haccepts : accepts row = true) :
    ∃ order : RowOrder α, order.pick accepts table = some row := by
  obtain ⟨order, rest, hrows⟩ := exists_first hrow
  exact ⟨order, by simp [pick, hrows, haccepts]⟩

/-- What is taken from the first accepted row, where it settles the matter, does not
depend on the order exactly when every accepted row then gives the same. -/
theorem pick_settled_iff (accepts : α → Bool) (table : List α) (take : α → β)
    (settles : β → Prop) :
    (∀ (first second : RowOrder α) (value : β), settles value →
        (first.pick accepts table).map take = some value →
        (second.pick accepts table).map take = some value) ↔
      ∀ row ∈ table, ∀ other ∈ table, accepts row = true → accepts other = true →
        settles (take row) → take row = take other := by
  constructor
  · intro hsettled row hrow other hother haccepts haccepts' hsettles
    obtain ⟨first, hfirst⟩ := exists_pick hrow haccepts
    obtain ⟨second, hsecond⟩ := exists_pick hother haccepts'
    have hsame := hsettled first second (take row) hsettles (by rw [hfirst, Option.map_some])
    rw [hsecond] at hsame
    exact (Option.some.inj hsame).symm
  · intro hagree first second value hsettles hfirst
    obtain ⟨row, hpick, rfl⟩ := Option.map_eq_some_iff.mp hfirst
    obtain ⟨hrow, haccepts⟩ := pick_some hpick
    cases hsecond : second.pick accepts table with
    | none =>
        have hrejected := pick_eq_none_iff.mp hsecond row hrow
        rw [haccepts] at hrejected
        cases hrejected
    | some other =>
        obtain ⟨hother, haccepts'⟩ := pick_some hsecond
        exact congrArg some (hagree row hrow other hother haccepts haccepts' hsettles).symm

/-- With at most one accepted row every order picks it. -/
theorem pick_eq_some_of_unique {order : RowOrder α} {accepts : α → Bool} {table : List α} {row : α}
    (hrow : row ∈ table) (haccepts : accepts row = true)
    (hunique : ∀ other ∈ table, accepts other = true → other = row) :
    order.pick accepts table = some row := by
  cases hpick : order.pick accepts table with
  | none =>
      have hrejected := pick_eq_none_iff.mp hpick row hrow
      rw [haccepts] at hrejected
      exact absurd hrejected (by simp)
  | some other =>
      obtain ⟨hmem, haccepted⟩ := pick_some hpick
      rw [hunique other hmem haccepted]

end RowOrder
