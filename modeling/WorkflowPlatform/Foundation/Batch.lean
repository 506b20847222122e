import Mathlib.Data.List.Nodup
import Mathlib.Data.List.Basic

/-! # Batches in one unit of work

A loop works its items off in one session and swallows the exception of each. An
item that fails may leave its writes in the session or roll the whole session
back, with the writes of the items before it. The session is committed when at
least one item succeeded.

The items committed are the ones that succeeded exactly for the batches in which
every failure comes before every success and the last failure rolled back.
-/

namespace Batch

universe u

/-- What becomes of an item's writes. -/
inductive Fate
  /-- The item succeeded. -/
  | kept
  /-- The item failed after its writes were flushed. -/
  | leaked
  /-- The item failed and rolled the session back. -/
  | undone
  deriving DecidableEq, Repr

variable {α : Type u}

/-- The items whose writes are in the session in the end, from those in it at the start. -/
def surviving : List α → List (α × Fate) → List α
  | session, [] => session
  | session, (item, .kept) :: rest => surviving (session ++ [item]) rest
  | session, (item, .leaked) :: rest => surviving (session ++ [item]) rest
  | _, (_, .undone) :: rest => surviving [] rest

/-- The items that succeeded. -/
def succeeded (items : List (α × Fate)) : List α :=
  (items.filter fun item => item.2 = .kept).map Prod.fst

/-- The items whose writes are committed. -/
def committed (items : List (α × Fate)) : List α :=
  if succeeded items = [] then [] else surviving [] items

/-- No item succeeds, or every failure comes before every success and the last
failure rolls back. -/
def Clean (fates : List Fate) : Prop :=
  .kept ∉ fates ∨ ∃ failures successes, fates = failures ++ successes ∧
    .kept ∉ failures ∧ (∀ fate ∈ successes, fate = .kept) ∧
    (failures = [] ∨ failures.getLast? = some .undone)

/-! ## The session of a batch -/

theorem surviving_of_not_undone {session : List α} {items : List (α × Fate)}
    (hitems : ∀ item ∈ items, item.2 ≠ .undone) :
    surviving session items = session ++ items.map Prod.fst := by
  induction items generalizing session with
  | nil => simp [surviving]
  | cons item rest ih =>
      have hrest : surviving (session ++ [item.1]) rest =
          session ++ [item.1] ++ rest.map Prod.fst :=
        ih fun other hother => hitems other (List.mem_cons_of_mem _ hother)
      obtain ⟨item, fate⟩ := item
      cases fate with
      | kept => simpa [surviving] using hrest
      | leaked => simpa [surviving] using hrest
      | undone => exact absurd rfl (hitems _ List.mem_cons_self)

theorem surviving_append (session : List α) (first second : List (α × Fate)) :
    surviving session (first ++ second) = surviving (surviving session first) second := by
  induction first generalizing session with
  | nil => rfl
  | cons item rest ih =>
      obtain ⟨item, fate⟩ := item
      cases fate <;> exact ih _

/-- Nothing of what came before a rollback is left. -/
theorem surviving_append_undone (session : List α) (first : List (α × Fate)) (item : α)
    (second : List (α × Fate)) :
    surviving session (first ++ (item, .undone) :: second) = surviving [] second := by
  rw [surviving_append, surviving]

/-- A batch has no rollback, or a last one. -/
theorem exists_last_undone (items : List (α × Fate)) :
    (∀ item ∈ items, item.2 ≠ .undone) ∨
      ∃ first item second, items = first ++ (item, .undone) :: second ∧
        ∀ other ∈ second, other.2 ≠ .undone := by
  induction items with
  | nil => exact .inl (by simp)
  | cons head rest ih =>
      rcases ih with hnone | ⟨first, item, second, rfl, hsecond⟩
      · obtain ⟨head, fate⟩ := head
        by_cases hfate : fate = .undone
        · exact .inr ⟨[], head, rest, by rw [hfate, List.nil_append], hnone⟩
        · refine .inl fun item hitem => ?_
          rcases List.mem_cons.mp hitem with rfl | hitem
          · exact hfate
          · exact hnone item hitem
      · exact .inr ⟨head :: first, item, second, rfl, hsecond⟩

/-- What survives keeps the order of the batch. -/
theorem surviving_sublist (session : List α) (items : List (α × Fate)) :
    (surviving session items).Sublist (session ++ items.map Prod.fst) := by
  induction items generalizing session with
  | nil => simp [surviving]
  | cons head rest ih =>
      obtain ⟨head, fate⟩ := head
      cases fate with
      | kept => simpa [surviving] using ih (session ++ [head])
      | leaked => simpa [surviving] using ih (session ++ [head])
      | undone =>
          have hrest : (surviving [] rest).Sublist (rest.map Prod.fst) := ih []
          exact hrest.trans ((List.sublist_cons_self _ _).trans (List.sublist_append_right _ _))

/-! ## What is committed -/

theorem mem_succeeded {items : List (α × Fate)} {item : α} :
    item ∈ succeeded items ↔ (item, Fate.kept) ∈ items := by
  simp [succeeded]

theorem succeeded_eq_nil_iff {items : List (α × Fate)} :
    succeeded items = [] ↔ .kept ∉ items.map Prod.snd := by
  simp [List.eq_nil_iff_forall_not_mem, mem_succeeded]

theorem committed_sublist (items : List (α × Fate)) :
    (committed items).Sublist (items.map Prod.fst) := by
  unfold committed
  split
  · exact List.nil_sublist _
  · exact surviving_sublist [] items

/-- A batch that commits just what succeeded is clean. -/
theorem clean_of_committed_iff_kept {items : List (α × Fate)}
    (hnodup : (items.map Prod.fst).Nodup)
    (hagree : ∀ item fate, (item, fate) ∈ items → (item ∈ committed items ↔ fate = .kept)) :
    Clean (items.map Prod.snd) := by
  by_cases hkept : Fate.kept ∈ items.map Prod.snd
  · have hcommitted : committed items = surviving [] items := by
      rw [committed, if_neg (by rwa [succeeded_eq_nil_iff, not_not])]
    rcases exists_last_undone items with hnone | ⟨first, last, second, rfl, hsecond⟩
    · refine .inr ⟨[], items.map Prod.snd, rfl, by simp, ?_, .inl rfl⟩
      intro fate hfate
      obtain ⟨⟨item, fate⟩, hitem, rfl⟩ := List.mem_map.mp hfate
      apply (hagree item fate hitem).mp
      rw [hcommitted, surviving_of_not_undone hnone, List.nil_append]
      exact List.mem_map_of_mem hitem
    · have hsurviving : committed (first ++ (last, .undone) :: second) = second.map Prod.fst := by
        rw [hcommitted, surviving_append_undone, surviving_of_not_undone hsecond,
          List.nil_append]
      refine .inr ⟨first.map Prod.snd ++ [.undone], second.map Prod.snd, by simp, ?_, ?_, ?_⟩
      · intro hfailure
        have hfailure : Fate.kept ∈ first.map Prod.snd := by simpa using hfailure
        obtain ⟨⟨item, fate⟩, hitem, hfate⟩ := List.mem_map.mp hfailure
        have hlater := (hagree item fate (List.mem_append_left _ hitem)).mpr hfate
        rw [hsurviving] at hlater
        have hdisjoint : List.Disjoint (first.map Prod.fst) (last :: second.map Prod.fst) := by
          rw [List.map_append] at hnodup
          exact List.disjoint_of_nodup_append hnodup
        exact hdisjoint (List.mem_map_of_mem hitem) (List.mem_cons_of_mem _ hlater)
      · intro fate hfate
        obtain ⟨⟨item, fate⟩, hitem, rfl⟩ := List.mem_map.mp hfate
        apply (hagree item fate (by simp [hitem])).mp
        rw [hsurviving]
        exact List.mem_map_of_mem hitem
      · exact .inr (by simp)
  · exact .inl hkept

/-- A clean batch commits just what succeeded. -/
theorem committed_iff_kept_of_clean {items : List (α × Fate)}
    (hnodup : (items.map Prod.fst).Nodup) (hclean : Clean (items.map Prod.snd)) {item : α}
    {fate : Fate} (hitem : (item, fate) ∈ items) : item ∈ committed items ↔ fate = .kept := by
  rcases hclean with hnone | ⟨failures, successes, hfates, hfailures, hsuccesses, hlast⟩
  · have hnothing : committed items = [] := if_pos (succeeded_eq_nil_iff.mpr hnone)
    rw [hnothing]
    apply iff_of_false List.not_mem_nil
    rintro rfl
    exact hnone (List.mem_map_of_mem (f := Prod.snd) hitem)
  · obtain ⟨failed, kept, rfl, rfl, rfl⟩ := List.map_eq_append_iff.mp hfates
    have hdisjoint : List.Disjoint (failed.map Prod.fst) (kept.map Prod.fst) := by
      rw [List.map_append] at hnodup
      exact List.disjoint_of_nodup_append hnodup
    have hsurviving : surviving [] (failed ++ kept) = kept.map Prod.fst := by
      have hkept : ∀ other ∈ kept, other.2 ≠ .undone := by
        intro other hother
        rw [hsuccesses other.2 (List.mem_map_of_mem hother)]
        simp
      rcases List.eq_nil_or_concat failed with rfl | ⟨first, ⟨last, fate'⟩, rfl⟩
      · exact surviving_of_not_undone hkept
      · have hundone : fate' = .undone := by simpa using hlast
        rw [hundone, List.concat_eq_append, List.append_assoc, List.singleton_append,
          surviving_append_undone, surviving_of_not_undone hkept, List.nil_append]
    have hmem : item ∈ kept.map Prod.fst ↔ fate = .kept := by
      rcases List.mem_append.mp hitem with hfailed | hsucceeded
      · apply iff_of_false (hdisjoint (List.mem_map_of_mem (f := Prod.fst) hfailed))
        rintro rfl
        exact hfailures (List.mem_map_of_mem (f := Prod.snd) hfailed)
      · exact iff_of_true (List.mem_map_of_mem (f := Prod.fst) hsucceeded)
          (hsuccesses fate (List.mem_map_of_mem (f := Prod.snd) hsucceeded))
    rw [committed]
    split
    · next hnothing =>
      apply iff_of_false List.not_mem_nil
      rintro rfl
      exact succeeded_eq_nil_iff.mp hnothing (List.mem_map_of_mem (f := Prod.snd) hitem)
    · rw [hsurviving, hmem]

end Batch
