import Mathlib.Data.List.Nodup

/-! # Decisions taken from a reading

Several parties each read the item that is current for a key and later decide it,
with no check in between whether it is still current. The log says who read and
who decided what, the newest event first. An item is decided twice as soon as a
party decides that was overtaken: another party decided on the same key after its
reading. As long as no one is, every reading still shows the current item.
-/

universe uName uKey uItem uId

/-- A party reads the current item of a key, or decides the item it has read. -/
inductive Event (Name : Type uName) (Key : Type uKey) (Item : Type uItem)
  | read (name : Name) (key : Key) (item : Item)
  | decided (name : Name) (key : Key) (item : Item)

namespace Event

variable {Name : Type uName} {Key : Type uKey} {Item : Type uItem} {Id : Type uId}

/-- The decided items, by their identities. -/
def decisions (ident : Item → Id) : List (Event Name Key Item) → List Id
  | [] => []
  | read _ _ _ :: log => decisions ident log
  | decided _ _ item :: log => ident item :: decisions ident log

variable [DecidableEq Name] [DecidableEq Key]

/-- What a party has read and not decided yet. -/
def held (name : Name) : List (Event Name Key Item) → Option (Key × Item)
  | [] => none
  | read reader key item :: log => if reader = name then some (key, item) else held name log
  | decided decider _ _ :: log => if decider = name then none else held name log

/-- Another party decided on the key after the last reading of this one. -/
def overtaken (name : Name) (key : Key) : List (Event Name Key Item) → Bool
  | [] => false
  | read reader _ _ :: log => if reader = name then false else overtaken name key log
  | decided decider key' _ :: log => decider ≠ name ∧ key' = key ∨ overtaken name key log

/-- No party decides that was overtaken. -/
def Undisturbed : List (Event Name Key Item) → Prop
  | [] => True
  | read _ _ _ :: log => Undisturbed log
  | decided name key _ :: log => overtaken name key log = false ∧ Undisturbed log

/-- What an undisturbed log says about the current items: readings that were not
overtaken show them, overtaken readings show items that are decided, and no item is
decided twice or current once it is decided. -/
structure Consistent (ident : Item → Id) (current : Key → Option Item)
    (log : List (Event Name Key Item)) : Prop where
  once : (decisions ident log).Nodup
  fresh : ∀ key item, current key = some item → ident item ∉ decisions ident log
  pending : ∀ name key item, held name log = some (key, item) → overtaken name key log = false →
    current key = some item
  retired : ∀ name key item, held name log = some (key, item) → overtaken name key log = true →
    ident item ∈ decisions ident log

variable {ident : Item → Id} {current current' : Key → Option Item}
  {log : List (Event Name Key Item)} {name : Name} {key : Key} {item : Item}

theorem consistent_nil : Consistent ident current ([] : List (Event Name Key Item)) :=
  ⟨List.nodup_nil, fun _ _ _ => List.not_mem_nil, fun _ _ _ hheld => (nomatch hheld),
    fun _ _ _ hheld => (nomatch hheld)⟩

/-- Reading the current item. -/
theorem Consistent.read (hlog : Consistent ident current log) (hcurrent : current key = some item) :
    Consistent ident current (.read name key item :: log) where
  once := hlog.once
  fresh := hlog.fresh
  pending reader key' item' hheld hfirst := by
    by_cases hname : name = reader
    · simp only [held, if_pos hname, Option.some.injEq, Prod.mk.injEq] at hheld
      obtain ⟨rfl, rfl⟩ := hheld
      exact hcurrent
    · simp only [held, overtaken, if_neg hname] at hheld hfirst
      exact hlog.pending reader key' item' hheld hfirst
  retired reader key' item' hheld hlate := by
    by_cases hname : name = reader
    · simp [overtaken, hname] at hlate
    · simp only [held, overtaken, if_neg hname] at hheld hlate
      exact hlog.retired reader key' item' hheld hlate

/-- Deciding without being overtaken, which only changes the current item of the key
and makes none current that was decided. -/
theorem Consistent.decided (hlog : Consistent ident current log)
    (hheld : held name log = some (key, item)) (hfirst : overtaken name key log = false)
    (hframe : ∀ other, other ≠ key → current' other = current other)
    (hnext : ∀ next, current' key = some next → ident next ∉ decisions ident log)
    (hdistinct : ∀ other next, current' other = some next → ident next ≠ ident item) :
    Consistent ident current' (.decided name key item :: log) where
  once := List.nodup_cons.mpr
    ⟨hlog.fresh key item (hlog.pending name key item hheld hfirst), hlog.once⟩
  fresh other next hcurrent := by
    apply List.not_mem_cons_of_ne_of_not_mem (hdistinct other next hcurrent)
    by_cases hkey : other = key
    · exact hnext next (hkey ▸ hcurrent)
    · exact hlog.fresh other next (hframe other hkey ▸ hcurrent)
  pending reader key' item' hheld' hfirst' := by
    by_cases hname : name = reader
    · simp [held, hname] at hheld'
    · simp only [held, if_neg hname] at hheld'
      simp only [overtaken, hname, not_false_eq_true, ne_eq, true_and, decide_eq_false_iff_not,
        not_or, Bool.not_eq_true] at hfirst'
      rw [hframe key' (Ne.symm hfirst'.1)]
      exact hlog.pending reader key' item' hheld' hfirst'.2
  retired reader key' item' hheld' hlate := by
    by_cases hname : name = reader
    · simp [held, hname] at hheld'
    · simp only [held, if_neg hname] at hheld'
      by_cases hearlier : overtaken reader key' log = true
      · exact List.mem_cons_of_mem _ (hlog.retired reader key' item' hheld' hearlier)
      · -- the reading was current until this decision, so both are of one item
        rw [Bool.not_eq_true] at hearlier
        simp only [overtaken, hearlier, Bool.false_eq_true, or_false, decide_eq_true_eq] at hlate
        obtain ⟨-, rfl⟩ := hlate
        have hmine := hlog.pending name key item hheld hfirst
        have hother := hlog.pending reader key item' hheld' hearlier
        rw [hmine, Option.some.injEq] at hother
        rw [← hother]
        exact List.mem_cons_self

/-- A party that was overtaken decides an item that is decided. -/
theorem Consistent.decided_twice (hlog : Consistent ident current log)
    (hheld : held name log = some (key, item)) (hlate : overtaken name key log = true) :
    ¬(decisions ident (.decided name key item :: log)).Nodup := fun honce =>
  (List.nodup_cons.mp honce).1 (hlog.retired name key item hheld hlate)

end Event
