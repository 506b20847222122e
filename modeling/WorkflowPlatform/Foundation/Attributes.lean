import Mathlib.Data.Option.Basic

/-! # Records read from attributes

A schema reads each of its fields from the attribute of the same name. An object without
the attribute gives the field its default, if it has one; a value that does not convert is
refused.
-/

namespace Attributes

universe u v

/-- Why a field cannot be read. -/
inductive FieldError
  | missing (field : String)
  | invalid (field : String)
  deriving DecidableEq, Repr

variable {Value : Type u} {Field : Type v}

/-- The value of an attribute as a field takes it. -/
def converted (field : String) (convert : Value → Option Field) (value : Value) :
    Except FieldError Field :=
  match convert value with
  | some read => .ok read
  | none => .error (.invalid field)

/-- A field without a default. -/
def required (object : String → Option Value) (field : String) (convert : Value → Option Field) :
    Except FieldError Field :=
  match object field with
  | some value => converted field convert value
  | none => .error (.missing field)

/-- A field with a default. -/
def defaulted (object : String → Option Value) (field : String) (default : Field)
    (convert : Value → Option Field) : Except FieldError Field :=
  match object field with
  | some value => converted field convert value
  | none => .ok default

variable {object : String → Option Value} {field : String} {convert : Value → Option Field}

theorem defaulted_eq_ok {default : Field} {value : Value} {read : Field}
    (hvalue : object field = some value) (hconvert : convert value = some read) :
    defaulted object field default convert = .ok read := by
  simp only [defaulted, hvalue, converted, hconvert]

/-- Whatever the object holds under other names, the field has its default. -/
theorem defaulted_of_absent {default : Field} (habsent : object field = none) :
    defaulted object field default convert = .ok default := by
  simp only [defaulted, habsent]

end Attributes
