import Mathlib.Tactic.Common

/-!
# Results and errors

When a result that is made from another one is an error, and when it is a value.
-/

namespace SchemaTyping

variable {ε α β : Type} {result : Except ε α} {error : ε}

lemma map_eq_error_iff {f : α → β} : f <$> result = .error error ↔ result = .error error := by
  constructor <;> intro h
  · cases result <;> cases h
    rfl
  · rw [h]
    rfl

lemma bind_eq_error_iff {f : α → Except ε β} :
    (result >>= f) = .error error ↔
      result = .error error ∨ ∃ value, result = .ok value ∧ f value = .error error := by
  cases result with
  | error other =>
    constructor
    · exact fun h => .inl (by cases h; rfl)
    · rintro (h | ⟨value, h, -⟩) <;> cases h
      rfl
  | ok value =>
    constructor
    · exact fun h => .inr ⟨value, rfl, h⟩
    · rintro (h | ⟨other, h, hf⟩) <;> cases h
      exact hf

lemma map_eq_ok_iff {f : α → β} {made : β} :
    f <$> result = .ok made ↔ ∃ value, result = .ok value ∧ f value = made := by
  cases result with
  | error other =>
    constructor
    · intro h
      cases h
    · rintro ⟨value, h, -⟩
      cases h
  | ok value =>
    constructor
    · intro h
      cases h
      exact ⟨value, rfl, rfl⟩
    · rintro ⟨other, h, rfl⟩
      cases h
      rfl

lemma bind_eq_ok_iff {f : α → Except ε β} {made : β} :
    (result >>= f) = .ok made ↔ ∃ value, result = .ok value ∧ f value = .ok made := by
  cases result with
  | error other =>
    constructor
    · intro h
      cases h
    · rintro ⟨value, h, -⟩
      cases h
  | ok value =>
    constructor
    · intro h
      exact ⟨value, rfl, h⟩
    · rintro ⟨other, h, hf⟩
      cases h
      exact hf

end SchemaTyping
