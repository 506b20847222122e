import WorkflowPlatform.Python.Json

/-! # What the columns take

A `JSON` column is sent what the encoder writes, which is no JSON where a number is not
finite. To a `Text` column the driver sends a text without a NUL, a number or a truth
value. It makes an array of a list, and has no way to send a dictionary.
-/

namespace WorkflowPlatform.Python

/-- A text the driver can send. -/
def withoutNul (text : String) : Bool := text.toList.all fun c => c.toNat ≠ 0

def PyFloat.isFinite : PyFloat → Bool
  | .nan => false
  | .real value => value ≠ ⊤ && value ≠ ⊥

namespace Json

mutual

/-- The encoder writes JSON. -/
def encodes : Json → Bool
  | .float value => value.isFinite
  | .arr items => encodesItems items
  | .obj fields => encodesFields fields
  | .null | .bool _ | .int _ | .str _ => true

def encodesItems : List Json → Bool
  | [] => true
  | item :: rest => item.encodes && encodesItems rest

def encodesFields : List (String × Json) → Bool
  | [] => true
  | (_, value) :: rest => value.encodes && encodesFields rest

end

mutual

/-- The driver can send the value. -/
def adapts : Json → Bool
  | .str text => withoutNul text
  | .arr items => adaptsItems items
  | .obj _ => false
  | .null | .bool _ | .int _ | .float _ => true

def adaptsItems : List Json → Bool
  | [] => true
  | item :: rest => item.adapts && adaptsItems rest

end

/-- A `Text` column takes the value. Whether an array can be made a text is for the database
to say. -/
def fitsText (castsArray : List Json → Bool) (value : Json) : Bool :=
  value.adapts &&
    match value with
    | .arr items => castsArray items
    | _ => true

end Json

end WorkflowPlatform.Python
