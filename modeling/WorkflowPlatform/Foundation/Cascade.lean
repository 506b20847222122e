import Mathlib.Logic.Basic

/-! # Deletions in a graph of objects

Objects refer to others through links. To delete an object is to delete whatever
refers to it through a link that cascades, and so on. An object that stays loses
its references to deleted ones, which is refused where a reference is required.
-/

universe u v

/-- The links between objects: which object refers to which, whether a deletion follows the
link from the object referred to, and whether the reference may be lost. -/
structure Cascade (Object : Type u) (Link : Type v) where
  refers : Link → Object → Object → Prop
  cascades : Link → Bool
  required : Link → Bool

namespace Cascade

variable {Object : Type u} {Link : Type v} (schema : Cascade Object Link) (root : Object)

/-- What goes when the root is deleted. -/
inductive Doomed : Object → Prop
  | root : Doomed root
  | child {link : Link} {child parent : Object} (hcascades : schema.cascades link = true)
      (hrefers : schema.refers link child parent) (hparent : Doomed parent) : Doomed child

/-- No object that stays would lose a required reference. -/
def Deletable : Prop :=
  ∀ link child parent, schema.cascades link = false → schema.required link = true →
    schema.refers link child parent → schema.Doomed root parent → schema.Doomed root child

variable {schema} {root}

/-- Whatever holds of the root and passes along the cascading links holds of all that goes. -/
theorem Doomed.of_closed {Goes : Object → Prop} (hroot : Goes root)
    (hclosed : ∀ link child parent, schema.cascades link = true → schema.refers link child parent →
      Goes parent → Goes child) {object : Object} (hdoomed : schema.Doomed root object) :
    Goes object := by
  induction hdoomed with
  | root => exact hroot
  | child hcascades hrefers _ ih => exact hclosed _ _ _ hcascades hrefers ih

/-- Where it is known what goes, a deletion is refused just if something else has a required
reference into it. -/
theorem deletable_iff {Goes : Object → Prop}
    (hgoes : ∀ object, schema.Doomed root object ↔ Goes object) :
    schema.Deletable root ↔ ∀ link child parent, schema.cascades link = false →
      schema.required link = true → schema.refers link child parent → Goes parent →
        Goes child := by
  simp only [Deletable, hgoes]

end Cascade
