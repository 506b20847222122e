import WorkflowPlatform.Python.Json

/-! # Letter case beyond ASCII

How a runtime lowers letters outside ASCII depends on its Unicode tables. Whatever
the tables, a text whose lowercase is an ASCII word is one that `lower` maps to it.
-/

namespace WorkflowPlatform.Python

def isAscii (text : String) : Bool := text.toList.all fun letter => letter.toNat < 128

/-- The `lower` of some runtime, known where it gives ASCII. -/
structure Lowering where
  lower : String → String
  ascii : ∀ text word, isAscii word = true → (lower text = word ↔ Python.lower text = word)

namespace Lowering

/-- Letters outside ASCII are left as they are. -/
def plain : Lowering := ⟨Python.lower, fun _ _ _ => Iff.rfl⟩

/-- An ASCII word in lowercase stays as it is. -/
theorem lower_of_ascii (casing : Lowering) {word : String} (hword : isAscii word = true)
    (hlower : Python.lower word = word) : casing.lower word = word :=
  (casing.ascii word word hword).mpr hlower

end Lowering

end WorkflowPlatform.Python
