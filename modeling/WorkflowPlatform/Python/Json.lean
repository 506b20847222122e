import WorkflowPlatform.Python.Number

/-! # JSON values under Python's operators

`json.loads` yields these values; `==`, `in`, truth and `float()` on them are the
interpreter's. A dictionary keeps its keys in insertion order and is compared
without regard to that order.
-/

namespace WorkflowPlatform.Python

/-- A value read from a JSON document. -/
inductive Json
  | null
  | bool (value : Bool)
  | int (value : ℤ)
  | float (value : PyFloat)
  | str (value : String)
  | arr (items : List Json)
  | obj (fields : List (String × Json))

/-- A `dict` with string keys. -/
abbrev Dict := List (String × Json)

namespace Json

/-- The exact value of a `bool`, an `int` or a `float`. -/
def number? : Json → Option PyFloat
  | .bool b => some (.finite (if b then 1 else 0))
  | .int n => some (.finite n)
  | .float x => some x
  | _ => none

mutual

/-- Python's `==`. Numbers of different types compare by exact value. -/
def eq : Json → Json → Bool
  | .null, .null => true
  | .str s, .str t => s = t
  | .arr xs, .arr ys => eqItems xs ys
  | .obj xs, .obj ys => xs.length = ys.length && eqFields xs ys
  | x, y =>
      match x.number?, y.number? with
      | some a, some b => a.eq b
      | _, _ => false

def eqItems : List Json → List Json → Bool
  | [], [] => true
  | x :: xs, y :: ys => eq x y && eqItems xs ys
  | _, _ => false

/-- Every field of the first dictionary has an equal field in the second. -/
def eqFields : List (String × Json) → Dict → Bool
  | [], _ => true
  | (key, x) :: rest, ys =>
      (match ys.lookup key with
        | some y => eq x y
        | none => false) && eqFields rest ys

end

/-- Python's truth value. -/
def truthy : Json → Bool
  | .null => false
  | .bool b => b
  | .int n => n ≠ 0
  | .float x => !x.eq (.finite 0)
  | .str s => s ≠ ""
  | .arr xs => !xs.isEmpty
  | .obj xs => !xs.isEmpty

def isNull : Json → Bool
  | .null => true
  | _ => false

/-- `float(x)`, defined on numbers, booleans and numeric strings. -/
def toFloat : Json → Except PyExc PyFloat
  | .bool b => .ok (.finite (if b then 1 else 0))
  | .int n => floatOfInt n
  | .float x => .ok x
  | .str s => floatOfStr s
  | .null | .arr _ | .obj _ => .error .typeError

/-- `item in container`. A dictionary holds its keys; a string holds substrings. -/
def isIn (item : Json) : Json → Except PyExc Bool
  | .arr xs => .ok (xs.any item.eq)
  | .obj fields =>
      match item with
      | .str key => .ok ((fields.lookup key).isSome)
      | .arr _ | .obj _ => .error .typeError
      | _ => .ok false
  | .str text =>
      match item with
      | .str part => .ok (decide (part.toList <:+: text.toList))
      | _ => .error .typeError
  | _ => .error .typeError

end Json

/-- `field.split(".")`. -/
def splitDots (field : String) : List String :=
  (field.toList.splitOn '.').map String.ofList

/-! ## Letter case -/

/-- Uppercase of one character, as the letters it becomes. Exact on ASCII and on
every character whose uppercase is ASCII; other characters are left as they are,
and no text holding one of them uppercases to ASCII. -/
def upperChar (c : Char) : List Char :=
  match c.toNat with
  | 0xdf => ['S', 'S']
  | 0x131 => ['I']
  | 0x17f => ['S']
  | 0xfb00 => ['F', 'F']
  | 0xfb01 => ['F', 'I']
  | 0xfb02 => ['F', 'L']
  | 0xfb03 => ['F', 'F', 'I']
  | 0xfb04 => ['F', 'F', 'L']
  | 0xfb05 | 0xfb06 => ['S', 'T']
  | _ => [c.toUpper]

/-- `s.upper()`. -/
def upper (s : String) : String := String.ofList (s.toList.flatMap upperChar)

/-- Lowercase of one character: exact on ASCII and on the one other character
(the Kelvin sign) whose lowercase is ASCII. -/
def lowerChar (c : Char) : Char := if c.toNat = 0x212a then 'k' else c.toLower

/-- `s.lower()`. -/
def lower (s : String) : String := String.ofList (s.toList.map lowerChar)

end WorkflowPlatform.Python
