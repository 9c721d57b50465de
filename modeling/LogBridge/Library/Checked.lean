import Mathlib.Tactic.Common

/-! Inversion rules for computations that may fail. A successful run of a
sequence gives the successful run of each part. -/
namespace Checked
variable {ε α β : Type}

/-- Guard of a computation: fail with `error` when `condition` holds. -/
def throwIf (condition : Prop) [Decidable condition] (error : ε) : Except ε Unit :=
  if condition then .error error else .ok ()

theorem throwIf_of_not {condition : Prop} [Decidable condition] {error : ε} (h : ¬condition) :
    throwIf condition error = .ok () := if_neg h

theorem throwIf_of {condition : Prop} [Decidable condition] {error : ε} (h : condition) :
    throwIf condition error = .error error := if_pos h

theorem throwIf_eq_ok_iff {condition : Prop} [Decidable condition] {error : ε} {result : Unit} :
    throwIf condition error = .ok result ↔ ¬condition := by
  by_cases h : condition
  · rw [throwIf_of h]
    simp [h]
  · rw [throwIf_of_not h]
    simp [h]

theorem bind_eq_ok_iff {first : Except ε α} {next : α → Except ε β} {result : β} :
    (first >>= next) = .ok result ↔ ∃ value, first = .ok value ∧ next value = .ok result := by
  cases first with
  | error e =>
      constructor
      · intro h
        cases h
      · rintro ⟨_, h, _⟩
        cases h
  | ok value =>
      constructor
      · intro h
        exact ⟨value, rfl, h⟩
      · rintro ⟨_, hFirst, hNext⟩
        cases hFirst
        exact hNext

theorem pure_eq_ok_iff {value result : α} :
    (pure value : Except ε α) = .ok result ↔ value = result := by
  constructor
  · intro h
    exact Except.ok.inj h
  · rintro rfl
    rfl

/-- A guard followed by a computation succeeds when the guard passes and the
computation succeeds. -/
theorem throwIf_bind_eq_ok_iff {condition : Prop} [Decidable condition] {error : ε}
    {next : Unit → Except ε β} {result : β} :
    (throwIf condition error >>= next) = .ok result ↔ ¬condition ∧ next () = .ok result := by
  rw [bind_eq_ok_iff]
  constructor
  · rintro ⟨_, hGuard, hNext⟩
    exact ⟨throwIf_eq_ok_iff.mp hGuard, hNext⟩
  · rintro ⟨hGuard, hNext⟩
    exact ⟨(), throwIf_of_not hGuard, hNext⟩

end Checked
