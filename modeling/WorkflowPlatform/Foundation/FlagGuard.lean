import Mathlib.Data.List.Nodup
import Mathlib.Logic.Function.Basic

/-! # Work guarded by a flag

Parties take up items whose flag is not set, tell somebody about each as they finish
it, and set the flags of all they have done in the end. Until then the flag keeps
nobody else from an item. Items are told about and flagged once all the same, as long
as parties take up free items only: those that nobody holds and that nobody was told
about.
-/

universe uName uItem

/-- What a party holds: the items it has still to do, and those it has done without
having set their flags yet. -/
structure Holding (Item : Type uItem) where
  todo : List Item
  done : List Item

/-- What the parties hold, the items told about and the items flagged, in order. -/
structure Board (Name : Type uName) (Item : Type uItem) where
  holds : Name → Holding Item
  told : List Item
  flagged : List Item

namespace Holding

variable {Item : Type uItem}

def items (holding : Holding Item) : List Item := holding.todo ++ holding.done

def nothing : Holding Item := ⟨[], []⟩

/-- A party holds no more than another does. -/
structure Within (holding other : Holding Item) : Prop where
  once : holding.items.Nodup
  items_subset : holding.items ⊆ other.items
  todo_subset : holding.todo ⊆ other.todo

theorem within_nothing (other : Holding Item) : nothing.Within other :=
  ⟨List.nodup_nil, List.nil_subset _, List.nil_subset _⟩

/-- The next item is done, or it is given up together with others done before. -/
theorem within_finished {item : Item} {rest done done' : List Item}
    (honce : (Holding.mk (item :: rest) done).items.Nodup)
    (hdone : done'.Sublist (done ++ [item])) :
    (Holding.mk rest done').Within ⟨item :: rest, done⟩ := by
  have hperm : (rest ++ (done ++ [item])).Perm (item :: rest ++ done) := by
    rw [← List.append_assoc]
    exact List.perm_append_singleton item (rest ++ done)
  have hsublist : (rest ++ done').Sublist (rest ++ (done ++ [item])) := hdone.append_left rest
  exact {
    once := (hperm.nodup_iff.mpr honce).sublist hsublist
    items_subset := fun _ hheld => hperm.subset (hsublist.subset hheld)
    todo_subset := List.subset_cons_self item rest }

end Holding

namespace Board

variable {Name : Type uName} {Item : Type uItem}

/-- Nobody holds the item, nobody was told about it, and its flag is not set. -/
structure Free (board : Board Name Item) (item : Item) : Prop where
  unheld : ∀ name, item ∉ (board.holds name).items
  untold : item ∉ board.told
  unflagged : item ∉ board.flagged

/-- Nothing is flagged or told about twice, and nothing is about to be. -/
structure Safe (board : Board Name Item) : Prop where
  flagged_once : board.flagged.Nodup
  told_once : board.told.Nodup
  held_once : ∀ name, (board.holds name).items.Nodup
  held_alone : ∀ name other, name ≠ other →
    (board.holds name).items.Disjoint (board.holds other).items
  held_unflagged : ∀ name, (board.holds name).items.Disjoint board.flagged
  todo_untold : ∀ name, (board.holds name).todo.Disjoint board.told

namespace Safe

variable {board : Board Name Item}

/-- What nobody has still to do may be told about, once. -/
theorem tell (hsafe : board.Safe) {news : List Item} (honce : news.Nodup)
    (huntold : board.told.Disjoint news)
    (hdone : ∀ name, (board.holds name).todo.Disjoint news) :
    Safe { board with told := board.told ++ news } where
  flagged_once := hsafe.flagged_once
  told_once := List.nodup_append'.mpr ⟨hsafe.told_once, honce, huntold⟩
  held_once := hsafe.held_once
  held_alone := hsafe.held_alone
  held_unflagged := hsafe.held_unflagged
  todo_untold name := List.disjoint_append_right.mpr ⟨hsafe.todo_untold name, hdone name⟩

/-- What nobody holds may be flagged, once. -/
theorem flag (hsafe : board.Safe) {items : List Item} (honce : items.Nodup)
    (hunflagged : board.flagged.Disjoint items)
    (hunheld : ∀ name, (board.holds name).items.Disjoint items) :
    Safe { board with flagged := board.flagged ++ items } where
  flagged_once := List.nodup_append'.mpr ⟨hsafe.flagged_once, honce, hunflagged⟩
  told_once := hsafe.told_once
  held_once := hsafe.held_once
  held_alone := hsafe.held_alone
  held_unflagged name := List.disjoint_append_right.mpr ⟨hsafe.held_unflagged name, hunheld name⟩
  todo_untold := hsafe.todo_untold

end Safe

variable [DecidableEq Name]

def give (board : Board Name Item) (name : Name) (holding : Holding Item) : Board Name Item :=
  { board with holds := Function.update board.holds name holding }

@[simp] theorem give_holds_self (board : Board Name Item) (name : Name) (holding : Holding Item) :
    (board.give name holding).holds name = holding := Function.update_self ..

@[simp] theorem give_holds_of_ne (board : Board Name Item) {name other : Name}
    (hne : other ≠ name) (holding : Holding Item) :
    (board.give name holding).holds other = board.holds other := Function.update_of_ne hne ..

/-- A party goes on, taking up free items only. Somebody may be told about the item it
finishes, and it may lose what it has done. -/
inductive Step (board : Board Name Item) : Board Name Item → Prop
  | takesUp (name : Name) (items : List Item) (honce : items.Nodup)
      (hfree : ∀ item ∈ items, board.Free item) : Step board (board.give name ⟨items, []⟩)
  | finishes (name : Name) (item : Item) (rest done done' news : List Item)
      (hholds : board.holds name = ⟨item :: rest, done⟩) (hdone : done'.Sublist (done ++ [item]))
      (hnews : news.Sublist [item]) :
      Step board { board.give name ⟨rest, done'⟩ with told := board.told ++ news }
  | drops (name : Name) : Step board (board.give name .nothing)
  | publishes (name : Name) (todo done : List Item) (hholds : board.holds name = ⟨todo, done⟩) :
      Step board { board.give name .nothing with flagged := board.flagged ++ done }

namespace Safe

variable {board board' : Board Name Item} {name : Name}

/-- A party may hold what no other holds, is not flagged and, as far as it is still to
do, was not told about. -/
theorem give (hsafe : board.Safe) {holding : Holding Item} (honce : holding.items.Nodup)
    (halone : ∀ other, other ≠ name → holding.items.Disjoint (board.holds other).items)
    (hunflagged : holding.items.Disjoint board.flagged)
    (huntold : holding.todo.Disjoint board.told) : (board.give name holding).Safe where
  flagged_once := hsafe.flagged_once
  told_once := hsafe.told_once
  held_once := by
    apply (Function.forall_update_iff board.holds fun _ held => held.items.Nodup).mpr
    exact ⟨honce, fun other _ => hsafe.held_once other⟩
  held_alone := by
    intro first second hne
    by_cases hfirst : first = name
    · subst hfirst
      rw [give_holds_self, give_holds_of_ne _ hne.symm]
      exact halone second hne.symm
    · by_cases hsecond : second = name
      · subst hsecond
        rw [give_holds_self, give_holds_of_ne _ hne]
        exact fun _ htheirs hmine => halone first hne hmine htheirs
      · rw [give_holds_of_ne _ hfirst, give_holds_of_ne _ hsecond]
        exact hsafe.held_alone first second hne
  held_unflagged := by
    apply (Function.forall_update_iff board.holds fun _ held =>
      held.items.Disjoint board.flagged).mpr
    exact ⟨hunflagged, fun other _ => hsafe.held_unflagged other⟩
  todo_untold := by
    apply (Function.forall_update_iff board.holds fun _ held => held.todo.Disjoint board.told).mpr
    exact ⟨huntold, fun other _ => hsafe.todo_untold other⟩

/-- A party may always hold less. -/
theorem lessen (hsafe : board.Safe) {holding : Holding Item}
    (hwithin : holding.Within (board.holds name)) : (board.give name holding).Safe := by
  apply hsafe.give hwithin.once
  · intro other hne
    exact List.disjoint_of_subset_left hwithin.items_subset (hsafe.held_alone name other hne.symm)
  · exact List.disjoint_of_subset_left hwithin.items_subset (hsafe.held_unflagged name)
  · exact List.disjoint_of_subset_left hwithin.todo_subset (hsafe.todo_untold name)

theorem step (hsafe : board.Safe) (hstep : board.Step board') : board'.Safe := by
  cases hstep with
  | takesUp name items honce hfree =>
      apply hsafe.give
      · rwa [Holding.items, List.append_nil]
      · intro other _ item hitem
        rw [Holding.items, List.append_nil] at hitem
        exact (hfree item hitem).unheld other
      · intro item hitem
        rw [Holding.items, List.append_nil] at hitem
        exact (hfree item hitem).unflagged
      · exact fun item hitem => (hfree item hitem).untold
  | drops name => exact hsafe.lessen (Holding.within_nothing _)
  | finishes name item rest done done' news hholds hdone hnews =>
      have hmine : (Holding.mk (item :: rest) done).items.Nodup := hholds ▸ hsafe.held_once name
      have hleft : item ∉ rest := by
        rw [Holding.items, List.cons_append, List.nodup_cons] at hmine
        exact fun hrest => hmine.1 (List.mem_append_left _ hrest)
      have hnamed : ∀ other ∈ news, other = item := fun other hother =>
        List.mem_singleton.mp (hnews.subset hother)
      have htodo : item ∈ (board.holds name).todo := by
        rw [hholds]
        exact List.mem_cons_self
      apply (hsafe.lessen (hholds ▸ Holding.within_finished hmine hdone)).tell
      · exact (List.nodup_singleton item).sublist hnews
      · intro other htold hother
        exact hsafe.todo_untold name (hnamed other hother ▸ htodo) htold
      · -- the item is off the list of the party that did it, and on no other
        apply (Function.forall_update_iff board.holds fun _ held => held.todo.Disjoint news).mpr
        constructor
        · intro other hrest hother
          exact hleft (hnamed other hother ▸ hrest)
        · intro second hne other htheirs hother
          apply hsafe.held_alone name second hne.symm (List.mem_append_left _ htodo)
          exact List.mem_append_left _ (hnamed other hother ▸ htheirs)
  | publishes name todo done hholds =>
      have hmine : (Holding.mk todo done).items.Nodup := hholds ▸ hsafe.held_once name
      have hdone : done ⊆ (board.holds name).items := by
        rw [hholds]
        exact List.subset_append_right todo done
      apply (hsafe.lessen (Holding.within_nothing _)).flag hmine.of_append_right
      · intro item hflagged hitem
        exact hsafe.held_unflagged name (hdone hitem) hflagged
      · apply (Function.forall_update_iff board.holds fun _ held => held.items.Disjoint done).mpr
        constructor
        · exact List.disjoint_nil_left done
        · intro second hne item htheirs hitem
          exact hsafe.held_alone name second hne.symm (hdone hitem) htheirs

end Safe

end Board
