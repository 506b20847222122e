import WorkflowPlatform.Engine.Condition

/-! # Guards that compare

Whether a comparison holds of a field and a target. The numeric operators compare
what `float()` makes of the two; equality compares the values as they are.
-/

namespace WorkflowPlatform

open Python

/-! ## The order of floats -/

namespace Python

namespace PyFloat

theorem lt_eq_true_iff {first second : PyFloat} :
    first.lt second = true ↔ ∃ x y, first = .real x ∧ second = .real y ∧ x < y := by
  cases first <;> cases second <;> simp [lt]

theorem le_eq_true_iff {first second : PyFloat} :
    first.le second = true ↔ ∃ x y, first = .real x ∧ second = .real y ∧ x ≤ y := by
  cases first <;> cases second <;> simp [le]

end PyFloat

/-- What `float()` makes of a value, where it does not raise and is not `nan`. -/
def Json.ordered? (value : Json) : Option Extended :=
  match value.toFloat with
  | .ok (.real x) => some x
  | _ => none

theorem Json.ordered?_eq_some_iff {value : Json} {x : Extended} :
    value.ordered? = some x ↔ value.toFloat = .ok (.real x) := by
  unfold Json.ordered?
  split
  · next heq => simp [heq]
  · next hother =>
    refine iff_of_false (by simp) fun heq => hother x heq

end Python

namespace ConditionEvaluator

/-! ## Comparing a field with a target -/

/-- The value that a field names. -/
def resolve (context : Dict) (field : String) : Json := walk (.obj context) (splitDots field)

/-- The configuration that compares a field with a target. -/
def comparing (field operator : String) (target : Json) : Dict :=
  [("field", .str field), ("operator", .str operator), ("value", target)]

def Holds (context : Dict) (field operator : String) (target : Json) : Prop :=
  evaluate (some (comparing field operator target)) context = true

/-- The relation a numeric operator stands for. -/
def orderOf : String → Option (Extended → Extended → Prop)
  | ">" => some (· > ·)
  | "<" => some (· < ·)
  | ">=" => some (· ≥ ·)
  | "<=" => some (· ≤ ·)
  | _ => none

variable {context : Dict} {field operator : String} {target : Json}

/-- Only a comparison that neither raised nor was false is true. -/
theorem applyOperator_eq_true_iff {actual : Json} :
    applyOperator actual operator target = .ok true ↔
      applyOperatorBody actual operator target = .ok true := by
  unfold applyOperator
  split
  · next heq => simp [heq]
  · next heq => simp [heq]
  · rfl

theorem holds_iff (hfield : field ≠ "") :
    Holds context field operator target ↔
      ((resolve context field).isNull = true → target.isNull = true) ∧
        applyOperatorBody (resolve context field) operator target = .ok true := by
  have hbody : evaluateBody (comparing field operator target) context =
      if (resolve context field).isNull && !target.isNull then .ok false
      else applyOperator (resolve context field) operator target := by
    simp [evaluateBody, comparing, List.lookup, Json.truthy, hfield, resolve]
  have hholds : Holds context field operator target ↔
      evaluateBody (comparing field operator target) context = .ok true := by
    rw [Holds, evaluate]
    · split
      · next heq => simp [heq]
      · next heq => simp [heq]
    · simp [comparing]
  rw [hholds, hbody, ← applyOperator_eq_true_iff]
  cases (resolve context field).isNull <;> cases target.isNull <;> simp

/-! ## Equality -/

theorem holds_eq_iff (hfield : field ≠ "") :
    Holds context field "==" target ↔
      ((resolve context field).isNull = true → target.isNull = true) ∧
        (resolve context field).eq target = true := by
  rw [holds_iff hfield]
  simp [applyOperatorBody]

theorem holds_ne_iff (hfield : field ≠ "") :
    Holds context field "!=" target ↔
      ((resolve context field).isNull = true → target.isNull = true) ∧
        (resolve context field).eq target = false := by
  rw [holds_iff hfield]
  simp [applyOperatorBody]

/-! ## Order -/

/-- The operators of the order compare floats by the relation they stand for. -/
theorem comparison_of_order {relation : Extended → Extended → Prop}
    (horder : orderOf operator = some relation) :
    operator ≠ "==" ∧ operator ≠ "!=" ∧ ∃ compare, comparison? operator = some compare ∧
      ∀ left right, compare left right = true ↔
        ∃ x y, left = .real x ∧ right = .real y ∧ relation x y := by
  unfold orderOf at horder
  split at horder
  · cases horder
    refine ⟨by decide, by decide, _, rfl, fun left right => ?_⟩
    rw [PyFloat.lt_eq_true_iff]
    exact ⟨fun ⟨y, x, hy, hx, hlt⟩ => ⟨x, y, hx, hy, hlt⟩,
      fun ⟨x, y, hx, hy, hlt⟩ => ⟨y, x, hy, hx, hlt⟩⟩
  · cases horder
    exact ⟨by decide, by decide, _, rfl, fun left right => PyFloat.lt_eq_true_iff⟩
  · cases horder
    refine ⟨by decide, by decide, _, rfl, fun left right => ?_⟩
    rw [PyFloat.le_eq_true_iff]
    exact ⟨fun ⟨y, x, hy, hx, hle⟩ => ⟨x, y, hx, hy, hle⟩,
      fun ⟨x, y, hx, hy, hle⟩ => ⟨y, x, hy, hx, hle⟩⟩
  · cases horder
    exact ⟨by decide, by decide, _, rfl, fun left right => PyFloat.le_eq_true_iff⟩
  · cases horder

/-- A numeric comparison holds of what both sides are as floats. -/
theorem holds_order_iff (hfield : field ≠ "") {relation : Extended → Extended → Prop}
    (horder : orderOf operator = some relation) :
    Holds context field operator target ↔
      ∃ x y, (resolve context field).ordered? = some x ∧ target.ordered? = some y ∧
        relation x y := by
  obtain ⟨heq, hne, compare, hcompare, hrelation⟩ := comparison_of_order horder
  simp only [holds_iff hfield, applyOperatorBody, heq, hne, hcompare, if_false,
    Json.ordered?_eq_some_iff]
  constructor
  · rintro ⟨-, hbody⟩
    cases hleft : (resolve context field).toFloat with
    | error error =>
        rw [hleft] at hbody
        cases hbody
    | ok left =>
        cases hright : target.toFloat with
        | error error =>
            rw [hleft, hright] at hbody
            cases hbody
        | ok right =>
            rw [hleft, hright] at hbody
            obtain ⟨x, y, rfl, rfl, hholds⟩ := (hrelation left right).mp (Except.ok.inj hbody)
            exact ⟨x, y, rfl, rfl, hholds⟩
  · rintro ⟨x, y, hleft, hright, hholds⟩
    refine ⟨fun hnull => ?_, ?_⟩
    · -- `float(None)` raises
      cases hactual : resolve context field <;> rw [hactual] at hleft hnull <;> cases hnull
      cases hleft
    · rw [hleft, hright]
      exact congrArg Except.ok ((hrelation _ _).mpr ⟨x, y, rfl, rfl, hholds⟩)

/-! ## Complementary guards -/

/-- Both sides have a place in the order of floats. -/
def Comparable (actual target : Json) : Prop :=
  actual.ordered?.isSome ∧ target.ordered?.isSome

/-- Operators for opposite relations exclude each other, and one of them holds where
both sides can be compared. -/
theorem complementary_of_order (context : Dict) {field : String} (hfield : field ≠ "")
    (target : Json) {first second : String} {relation opposite : Extended → Extended → Prop}
    (hfirst : orderOf first = some relation) (hsecond : orderOf second = some opposite)
    (hopposite : ∀ x y, opposite x y ↔ ¬relation x y) :
    ¬(Holds context field first target ∧ Holds context field second target) ∧
      (Xor (Holds context field first target) (Holds context field second target) ↔
        Comparable (resolve context field) target) := by
  rw [holds_order_iff hfield hfirst, holds_order_iff hfield hsecond, Comparable, xor_def]
  cases (resolve context field).ordered? with
  | none => simp
  | some x =>
      cases target.ordered? with
      | none => simp
      | some y =>
          simp only [Option.some.injEq, exists_and_left, exists_eq_left', hopposite]
          by_cases hrelation : relation x y <;> simp [hrelation]

/-- Equality and inequality exclude each other, and one of them holds unless the field
alone is null. -/
theorem complementary_of_equality (context : Dict) {field : String} (hfield : field ≠ "")
    (target : Json) :
    ¬(Holds context field "==" target ∧ Holds context field "!=" target) ∧
      (Xor (Holds context field "==" target) (Holds context field "!=" target) ↔
        ¬((resolve context field).isNull = true ∧ target.isNull = false)) := by
  rw [holds_eq_iff hfield, holds_ne_iff hfield, xor_def]
  cases (resolve context field).isNull <;> cases target.isNull <;>
    cases (resolve context field).eq target <;> simp

/-- The guards of a two-way branch never hold together. On numeric operators one of them
holds exactly when both sides can be compared; on equality one holds unless the field is
null or absent and the target is not, and then neither does. -/
theorem complementary_guards (context : Dict) (field : String) (hfield : field ≠ "")
    (target : Json) :
    let actual := resolve context field
    let holds := fun operator => Holds context field operator target
    (¬(holds ">" ∧ holds "<=") ∧ (Xor (holds ">") (holds "<=") ↔ Comparable actual target)) ∧
      (¬(holds "<" ∧ holds ">=") ∧ (Xor (holds "<") (holds ">=") ↔ Comparable actual target)) ∧
      (¬(holds "==" ∧ holds "!=") ∧
        (Xor (holds "==") (holds "!=") ↔ ¬(actual.isNull = true ∧ target.isNull = false)) ∧
        (actual.isNull = true ∧ target.isNull = false → ¬holds "==" ∧ ¬holds "!=")) := by
  intro actual holds
  have hgreater : orderOf ">" = some (· > ·) ∧ orderOf "<=" = some (· ≤ ·) := ⟨rfl, rfl⟩
  have hless : orderOf "<" = some (· < ·) ∧ orderOf ">=" = some (· ≥ ·) := ⟨rfl, rfl⟩
  obtain ⟨hexclusive, hexhaustive⟩ := complementary_of_equality context hfield target
  refine ⟨?_, ?_, hexclusive, hexhaustive, fun hnull => ?_⟩
  · exact complementary_of_order context hfield target hgreater.1 hgreater.2 fun _ _ =>
      not_lt.symm
  · exact complementary_of_order context hfield target hless.1 hless.2 fun _ _ => not_lt.symm
  · have hneither : ¬Xor (holds "==") (holds "!=") := fun hone => hexhaustive.mp hone hnull
    rw [xor_def] at hneither
    constructor
    · exact fun heq => hneither (.inl ⟨heq, fun hne => hexclusive ⟨heq, hne⟩⟩)
    · exact fun hne => hneither (.inr ⟨hne, fun heq => hexclusive ⟨heq, hne⟩⟩)

/-- Requests with an amount above the limit and below it. -/
theorem complementary_guards_amount :
    let context : Dict := [("request_data", .obj [("amount", .int 6000)])]
    let holds := fun operator => Holds context "request_data.amount" operator (.int 5000)
    ¬(holds ">" ∧ holds "<=") ∧ Xor (holds ">") (holds "<=") := by
  intro context holds
  obtain ⟨⟨hexclusive, hexhaustive⟩, -, -⟩ :=
    complementary_guards context "request_data.amount" (by decide) (.int 5000)
  exact ⟨hexclusive, hexhaustive.mpr ⟨by decide +kernel, by decide +kernel⟩⟩

/-! ## One order -/

def IsNumber : Json → Bool
  | .int _ | .float _ => true
  | _ => false

/-- The comparison operators agree on one order: one of less, equal and greater holds,
and the other two operators are what their signs say. -/
structure OneOrder (holds : String → Prop) : Prop where
  less_equal_greater : (holds "<" ∧ ¬holds "==" ∧ ¬holds ">") ∨
    (¬holds "<" ∧ holds "==" ∧ ¬holds ">") ∨ (¬holds "<" ∧ ¬holds "==" ∧ holds ">")
  atLeast_iff : holds ">=" ↔ holds ">" ∨ holds "=="
  atMost_iff : holds "<=" ↔ holds "<" ∨ holds "=="

/-- A value that has a float is not null. -/
theorem isNull_of_ordered {value : Json} (hordered : value.ordered?.isSome) :
    value.isNull = false := by
  cases value <;> first | rfl | cases hordered

/-- The comparison operators form one order on a field and a target exactly when the
target has a float too, and the two have the same float just when they are equal. -/
theorem one_order_iff (context : Dict) (field : String) (hfield : field ≠ "")
    (hactual : (resolve context field).ordered?.isSome) (target : Json) :
    OneOrder (fun operator => Holds context field operator target) ↔
      target.ordered?.isSome ∧ ((resolve context field).ordered? = target.ordered? ↔
        (resolve context field).eq target = true) := by
  have hnull := isNull_of_ordered hactual
  obtain ⟨x, hx⟩ := Option.isSome_iff_exists.mp hactual
  have hequal : Holds context field "==" target ↔ (resolve context field).eq target = true := by
    rw [holds_eq_iff hfield, hnull]
    simp
  have horder : ∀ operator relation, orderOf operator = some relation →
      (Holds context field operator target ↔ ∃ y, target.ordered? = some y ∧ relation x y) := by
    intro operator relation horder
    rw [holds_order_iff hfield horder]
    simp [hx]
  have hless := horder "<" _ rfl
  have hgreater := horder ">" _ rfl
  have hatMost := horder "<=" _ rfl
  have hatLeast := horder ">=" _ rfl
  cases htarget : target.ordered? with
  | none =>
      simp only [htarget, reduceCtorEq, false_and, exists_const] at hless hgreater hatLeast
      refine iff_of_false (fun hone => ?_) (by simp)
      -- without a float nothing but equality is left, and it would imply the other operators
      have heq : Holds context field "==" target := by
        rcases hone.less_equal_greater with ⟨hlt, -⟩ | ⟨-, heq, -⟩ | ⟨-, -, hgt⟩
        · exact absurd (hless.mp hlt) id
        · exact heq
        · exact absurd (hgreater.mp hgt) id
      exact hatLeast.mp (hone.atLeast_iff.mpr (.inr heq))
  | some y =>
      simp only [htarget, Option.some.injEq, exists_eq_left'] at hless hgreater hatMost hatLeast
      rw [hx, Option.some_inj, ← hequal]
      constructor
      · intro hone
        refine ⟨rfl, ?_⟩
        rcases hone.less_equal_greater with ⟨hlt, hne, -⟩ | ⟨hnlt, heq, hngt⟩ | ⟨-, hne, hgt⟩
        · exact iff_of_false (hless.mp hlt).ne hne
        · rw [hless] at hnlt
          rw [hgreater] at hngt
          exact iff_of_true (le_antisymm (not_lt.mp hngt) (not_lt.mp hnlt)) heq
        · exact iff_of_false (hgreater.mp hgt).ne' hne
      · rintro ⟨-, hagree⟩
        constructor
        · rw [hless, hgreater, ← hagree]
          rcases lt_trichotomy x y with hlt | heq | hgt
          · exact .inl ⟨hlt, hlt.ne, hlt.not_gt⟩
          · exact .inr (.inl ⟨heq.not_lt, heq, heq.not_gt⟩)
          · exact .inr (.inr ⟨hgt.not_gt, hgt.ne', hgt⟩)
        · rw [hatLeast, hgreater, ← hagree, ge_iff_le, le_iff_lt_or_eq, eq_comm (a := y)]
        · rw [hatMost, hless, ← hagree]
          exact le_iff_lt_or_eq

/-- An amount written as a number. -/
theorem one_order_iff_amount :
    let context : Dict := [("request_data", .obj [("amount", .int 6000)])]
    let field := "request_data.amount"
    OneOrder (fun operator => Holds context field operator (.int 5000)) ↔
      (Json.int 5000).ordered?.isSome ∧
        ((resolve context field).ordered? = (Json.int 5000).ordered? ↔
          (resolve context field).eq (.int 5000) = true) :=
  one_order_iff _ _ (by decide) (by decide +kernel) _

/-- A number and the text it is written as are in no order, and not equal either. -/
theorem comparisons_not_one_order :
    ¬∀ context field target, field ≠ "" → (resolve context field).ordered?.isSome →
      IsNumber target = true → OneOrder fun operator => Holds context field operator target := by
  intro horder
  have htext := horder [("request_data", .obj [("amount", .str "5")])] "request_data.amount"
    (.int 5) (by decide) (by decide +kernel) rfl
  have hless : ¬Holds [("request_data", .obj [("amount", .str "5")])] "request_data.amount" "<"
      (.int 5) := by
    unfold Holds
    decide +kernel
  have hequal : ¬Holds [("request_data", .obj [("amount", .str "5")])] "request_data.amount" "=="
      (.int 5) := by
    unfold Holds
    decide +kernel
  have hgreater : ¬Holds [("request_data", .obj [("amount", .str "5")])] "request_data.amount" ">"
      (.int 5) := by
    unfold Holds
    decide +kernel
  rcases htext.less_equal_greater with ⟨hlt, -⟩ | ⟨-, heq, -⟩ | ⟨-, -, hgt⟩
  · exact hless hlt
  · exact hequal heq
  · exact hgreater hgt

end ConditionEvaluator

end WorkflowPlatform
