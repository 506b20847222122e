import WorkflowPlatform.Foundation.Run

/-! # Lists that grow by what passes a test

A list of allowed values takes up every value that is offered to it and passes a test.
What a run leaves in it is what was there before and what passed.
-/

namespace Admission

universe u v

variable {Value : Type u} {Offer : Type v} [DecidableEq Value]

/-- Take a value up, unless it is there already. -/
def extend (test : Value → Bool) (allowed : List Value) : Option Value → List Value
  | some value => if test value = true ∧ value ∉ allowed then allowed ++ [value] else allowed
  | none => allowed

variable {test : Value → Bool}

theorem mem_extend_iff {allowed : List Value} {offered : Option Value} {value : Value} :
    value ∈ extend test allowed offered ↔
      value ∈ allowed ∨ offered = some value ∧ test value = true := by
  cases offered with
  | none => simp [extend]
  | some other =>
      rw [extend, Option.some.injEq]
      by_cases htakes : test other = true ∧ other ∉ allowed
      · rw [if_pos htakes, List.mem_append, List.mem_singleton]
        apply or_congr_right
        constructor
        · intro heq
          exact ⟨heq.symm, heq ▸ htakes.1⟩
        · exact fun hoffered => hoffered.1.symm
      · rw [if_neg htakes, iff_self_or]
        intro ⟨heq, htest⟩
        by_contra hnew
        exact htakes (heq ▸ ⟨htest, hnew⟩)

variable {offered : Offer → Option Value} {step : List Value → Offer → List Value}

/-- The list after a run of offers. -/
theorem mem_after_iff
    (hstep : ∀ allowed offer, step allowed offer = extend test allowed (offered offer))
    {offers : List Offer} {allowed : List Value} {value : Value} :
    value ∈ SerialRun.after step allowed offers ↔
      value ∈ allowed ∨ ∃ offer ∈ offers, offered offer = some value ∧ test value = true := by
  induction offers generalizing allowed with
  | nil => simp
  | cons offer rest ih =>
      rw [SerialRun.after_cons, ih, hstep, mem_extend_iff, or_assoc]
      simp

/-- The list stays within some values exactly when what is new and passes is one of them. -/
theorem within_iff
    (hstep : ∀ allowed offer, step allowed offer = extend test allowed (offered offer))
    {offers : List Offer} {allowed : List Value} {trusted : Value → Prop} :
    (∀ value ∈ SerialRun.after step allowed offers, value ∈ allowed ∨ trusted value) ↔
      ∀ offer ∈ offers, ∀ value, offered offer = some value → value ∉ allowed →
        test value = true → trusted value := by
  constructor
  · intro hwithin offer hoffer value hoffered hnew htest
    have hmem : value ∈ SerialRun.after step allowed offers :=
      (mem_after_iff hstep).mpr (.inr ⟨offer, hoffer, hoffered, htest⟩)
    exact (hwithin value hmem).resolve_left hnew
  · intro htrusted value hmem
    rcases (mem_after_iff hstep).mp hmem with hold | ⟨offer, hoffer, hoffered, htest⟩
    · exact .inl hold
    · by_cases hnew : value ∈ allowed
      · exact .inl hnew
      · exact .inr (htrusted offer hoffer value hoffered hnew htest)

end Admission
