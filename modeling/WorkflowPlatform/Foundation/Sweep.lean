import Mathlib.Data.List.Basic

/-! # Loops that an exception ends

A loop runs its body on one item after the other. The first exception ends it, and
what the body has done until then stays done. Such a loop comes to all its items
exactly if none but the last makes the body raise.
-/

namespace Sweep

universe u

variable {α : Type u} {State Error : Type u} {raises : α → Bool}

/-- The items a loop comes to. -/
def tried (raises : α → Bool) : List α → List α
  | [] => []
  | item :: rest => if raises item then [item] else item :: tried raises rest

/-- Only the last item may make the body raise. -/
def OnlyLast (raises : α → Bool) (items : List α) : Prop :=
  ∀ item ∈ items.dropLast, raises item = false

theorem tried_sublist (raises : α → Bool) (items : List α) :
    (tried raises items).Sublist items := by
  induction items with
  | nil => exact .slnil
  | cons item rest ih =>
      rw [tried]
      split
      · exact (List.nil_sublist rest).cons_cons item
      · exact ih.cons_cons item

theorem tried_eq_self_iff {items : List α} :
    tried raises items = items ↔ OnlyLast raises items := by
  induction items with
  | nil => simp [tried, OnlyLast]
  | cons item rest ih =>
      cases rest with
      | nil => simp [tried, OnlyLast]
      | cons next rest =>
          cases hraises : raises item with
          | true => simp [tried, OnlyLast, hraises]
          | false =>
              rw [tried, hraises, if_neg Bool.false_ne_true, List.cons.injEq, eq_self, true_and, ih]
              simp [OnlyLast, hraises]

/-- A loop that comes to as many items as there are comes to all. -/
theorem tried_eq_self_of_perm {items : List α} (hperm : (tried raises items).Perm items) :
    tried raises items = items := (tried_sublist raises items).eq_of_length hperm.length_eq

/-- An exception passes the rest of the loop by and leaves the state as it is. -/
theorem run_forM_cons (body : α → ExceptT Error (StateM State) PUnit) (item : α) (rest : List α)
    (state : State) :
    (forM (item :: rest) body).run.run state =
      match (body item).run.run state with
      | (.ok _, next) => (forM rest body).run.run next
      | (.error raised, next) => (.error raised, next) := by
  rw [List.forM_cons, ExceptT.run_bind, StateT.run_bind]
  rcases (body item).run.run state with ⟨result, next⟩
  cases result <;> rfl

/-- How a loop ends, given what its body does with an item. -/
theorem run_forM (body : α → ExceptT Error (StateM State) PUnit) (effect : State → α → State)
    (error : α → Error)
    (hbody : ∀ item state, (body item).run.run state =
      (if raises item then .error (error item) else .ok ⟨⟩, effect state item))
    (items : List α) (state : State) :
    (forM items body).run.run state =
      (match items.find? raises with
        | some item => .error (error item)
        | none => .ok ⟨⟩, (tried raises items).foldl effect state) := by
  induction items generalizing state with
  | nil => rfl
  | cons item rest ih =>
      rw [run_forM_cons, hbody item state, tried]
      cases hraises : raises item with
      | true => simp [List.find?, hraises]
      | false => simpa [List.find?, hraises] using ih (effect state item)

end Sweep
