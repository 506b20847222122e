import Mathlib

/-! # Python numbers

`float` values are kept as the extended rationals they denote, with `nan` apart.
The two zeros are one value, since no comparison tells them apart. Conversion
rounds to the nearest double, ties to even, as `int.__float__` and the decimal
reader of the interpreter do.
-/

namespace WorkflowPlatform.Python

/-- The linear order the numeric comparisons live in: `±inf` and the finite values. -/
abbrev Extended := WithBot (WithTop ℚ)

/-- A Python `float`. -/
inductive PyFloat
  | nan
  | real (value : Extended)
  deriving DecidableEq

namespace PyFloat

def finite (value : ℚ) : PyFloat := .real ((value : WithTop ℚ) : Extended)

def inf (negative : Bool) : PyFloat := .real (if negative then ⊥ else ⊤)

/-- `x < y`; a comparison with `nan` is false. -/
def lt : PyFloat → PyFloat → Bool
  | .real x, .real y => decide (x < y)
  | _, _ => false

/-- `x <= y`; a comparison with `nan` is false. -/
def le : PyFloat → PyFloat → Bool
  | .real x, .real y => decide (x ≤ y)
  | _, _ => false

/-- `x == y`; `nan` equals nothing, itself included. -/
def eq : PyFloat → PyFloat → Bool
  | .real x, .real y => decide (x = y)
  | _, _ => false

end PyFloat

/-- The exceptions the condition evaluator can meet. -/
inductive PyExc
  | attributeError
  | overflowError
  | typeError
  | valueError
  deriving DecidableEq, Repr

/-! ## Rounding to a double -/

def roundHalfEven (q : ℚ) : ℤ :=
  let below := ⌊q⌋
  let rest := q - below
  if rest < 1 / 2 then below
  else if 1 / 2 < rest then below + 1
  else if below % 2 = 0 then below else below + 1

/-- Nearest double; `none` when the rounded magnitude reaches `2 ^ 1024`. -/
def roundDouble (q : ℚ) : Option ℚ :=
  let exponent := max (Int.log 2 |q| - 52) (-1074)
  let rounded := (roundHalfEven (q / (2 : ℚ) ^ exponent) : ℚ) * (2 : ℚ) ^ exponent
  if |rounded| < 2 ^ 1024 then some rounded else none

/-- `float(n)` for an `int`. -/
def floatOfInt (n : ℤ) : Except PyExc PyFloat :=
  match roundDouble n with
  | some value => .ok (.finite value)
  | none => .error .overflowError

/-- A decimal literal rounds to a double and overflows to an infinity. -/
def floatOfDecimal (negative : Bool) (magnitude : ℚ) : PyFloat :=
  match roundDouble (if negative then -magnitude else magnitude) with
  | some value => .finite value
  | none => .inf negative

/-! ## `float(s)` for a string -/

/-- Code points of the zero digits outside ASCII; each starts ten decimal digits. -/
def decimalZeros : List ℕ :=
  [0x660, 0x6f0, 0x7c0, 0x966, 0x9e6, 0xa66, 0xae6, 0xb66, 0xbe6, 0xc66, 0xce6, 0xd66, 0xde6,
    0xe50, 0xed0, 0xf20, 0x1040, 0x1090, 0x17e0, 0x1810, 0x1946, 0x19d0, 0x1a80, 0x1a90, 0x1b50,
    0x1bb0, 0x1c40, 0x1c50, 0xa620, 0xa8d0, 0xa900, 0xa9d0, 0xa9f0, 0xaa50, 0xabf0, 0xff10,
    0x104a0, 0x10d30, 0x11066, 0x110f0, 0x11136, 0x111d0, 0x112f0, 0x11450, 0x114d0, 0x11650,
    0x116c0, 0x11730, 0x118e0, 0x11950, 0x11c50, 0x11d50, 0x11da0, 0x16a60, 0x16ac0,
    0x16b50, 0x1d7ce, 0x1d7d8, 0x1d7e2, 0x1d7ec, 0x1d7f6, 0x1e140, 0x1e2f0, 0x1e950,
    0x1fbf0]

/-- What `float` strips: ASCII blanks and the blanks outside ASCII, not the separators from
U+001C to U+001F. -/
def isSpace (c : Char) : Bool :=
  c.toNat ∈ [0x9, 0xa, 0xb, 0xc, 0xd, 0x20, 0x85, 0xa0, 0x1680, 0x2000, 0x2001, 0x2002, 0x2003,
    0x2004, 0x2005, 0x2006, 0x2007, 0x2008, 0x2009, 0x200a, 0x2028, 0x2029, 0x202f, 0x205f, 0x3000]

/-- Value of a decimal digit, ASCII or not. -/
def digit? (c : Char) : Option ℕ :=
  if c.isDigit then some (c.toNat - '0'.toNat)
  else (decimalZeros.find? fun start => start ≤ c.toNat ∧ c.toNat < start + 10).map (c.toNat - ·)

/-- Underscores stand only between digits and are dropped; `none` if one stands elsewhere. -/
def dropUnderscores : Option Char → List Char → Option (List Char)
  | previous, [] => if previous = some '_' then none else some []
  | previous, c :: rest =>
      if c = '_' then
        if (previous.bind digit?).isSome then dropUnderscores (some c) rest else none
      else if previous = some '_' ∧ (digit? c).isNone then none
      else (dropUnderscores (some c) rest).map (c :: ·)

/-- The value and the number of the digits a text starts with, and the rest of it. -/
def readDigits : ℕ → ℕ → List Char → ℕ × ℕ × List Char
  | value, count, [] => (value, count, [])
  | value, count, c :: rest =>
      match digit? c with
      | some d => readDigits (10 * value + d) (count + 1) rest
      | none => (value, count, c :: rest)

def readSign : List Char → Bool × List Char
  | '-' :: rest => (true, rest)
  | '+' :: rest => (false, rest)
  | text => (false, text)

/-- The exponent part; `none` when text is left over. -/
def readExponent : List Char → Option ℤ
  | [] => some 0
  | c :: rest =>
      if c = 'e' ∨ c = 'E' then
        let (negative, digits) := readSign rest
        match readDigits 0 0 digits with
        | (value, _ + 1, []) => some (if negative then -(value : ℤ) else value)
        | _ => none
      else none

def readMagnitude (text : List Char) : Option ℚ :=
  let (whole, wholeCount, rest) := readDigits 0 0 text
  let (mantissa, fractionCount, rest) :=
    match rest with
    | '.' :: rest =>
        let (value, count, rest) := readDigits whole 0 rest
        (value, count, rest)
    | rest => (whole, 0, rest)
  if wholeCount + fractionCount = 0 then none
  else (readExponent rest).map fun exponent : ℤ =>
    (mantissa : ℚ) * (10 : ℚ) ^ (exponent - (fractionCount : ℤ))

/-- `float(s)` for a `str`. -/
def floatOfStr (s : String) : Except PyExc PyFloat :=
  let stripped := ((s.toList.dropWhile isSpace).reverse.dropWhile isSpace).reverse
  match dropUnderscores none stripped with
  | none => .error .valueError
  | some text =>
      let (negative, body) := readSign text
      let name := String.ofList (body.map Char.toLower)
      if name = "inf" ∨ name = "infinity" then .ok (.inf negative)
      else if name = "nan" then .ok .nan
      else match readMagnitude body with
        | some magnitude => .ok (floatOfDecimal negative magnitude)
        | none => .error .valueError

end WorkflowPlatform.Python
