import Mathlib.Data.List.Induction

/-! Histories of a bounded first-in first-out queue that can be closed. They say
what the queue is for without saying how callers wait. -/
namespace BoundedFifo
variable {α : Type}

inductive Operation (α : Type) where
  | accept (value : α)
  | remove (value : α)
  | close
  /-- A caller is told that nothing will ever come. -/
  | drained
  deriving DecidableEq, Repr

/-- The histories of a queue of the given capacity, with its items and whether it is closed. -/
inductive History (capacity : Nat) : List (Operation α) → List α → Bool → Prop
  | start : History capacity [] [] false
  | accept {history items} (value : α) (hHistory : History capacity history items false)
      (hRoom : items.length < capacity) :
      History capacity (history ++ [.accept value]) (items ++ [value]) false
  | remove {history value items closed} (hHistory : History capacity history (value :: items) closed) :
      History capacity (history ++ [.remove value]) items closed
  | close {history items closed} (hHistory : History capacity history items closed) :
      History capacity (history ++ [.close]) items true
  | drained {history} (hHistory : History capacity history [] true) :
      History capacity (history ++ [.drained]) [] true

/-- The values that entered, in order. -/
def accepted (history : List (Operation α)) : List α :=
  history.filterMap fun operation => match operation with
    | .accept value => some value
    | _ => none

/-- The values that left, in order. -/
def removed (history : List (Operation α)) : List α :=
  history.filterMap fun operation => match operation with
    | .remove value => some value
    | _ => none

@[simp] theorem accepted_append (first second : List (Operation α)) :
    accepted (first ++ second) = accepted first ++ accepted second := by
  simp [accepted]

@[simp] theorem removed_append (first second : List (Operation α)) :
    removed (first ++ second) = removed first ++ removed second := by
  simp [removed]

namespace History
variable {capacity : Nat} {history past future : List (Operation α)} {items : List α} {closed : Bool}

theorem length_le (h : History capacity history items closed) : items.length ≤ capacity := by
  induction h with
  | start => exact Nat.zero_le _
  | accept value _ hRoom _ =>
      rw [List.length_append]
      exact hRoom
  | remove _ ih => exact Nat.le_of_succ_le ih
  | close _ ih => exact ih
  | drained _ ih => exact ih

/-- Nothing is lost, repeated or reordered. -/
theorem removed_append_items (h : History capacity history items closed) :
    removed history ++ items = accepted history := by
  induction h with
  | start => rfl
  | accept value _ _ ih =>
      rw [accepted_append, ← ih]
      simp [removed, accepted]
  | remove _ ih => simpa [removed, accepted] using ih
  | close _ ih => simpa [removed, accepted] using ih
  | drained _ ih => simpa [removed, accepted] using ih

theorem closed_iff (h : History capacity history items closed) :
    closed = true ↔ Operation.close ∈ history := by
  induction h with
  | start => simp
  | accept value _ _ ih => simpa using ih
  | remove _ ih => simpa using ih
  | close => simp
  | drained _ ih => simpa using ih

/-- Histories are closed under prefixes. -/
theorem of_append (h : History capacity (past ++ future) items closed) :
    ∃ earlierItems earlierClosed, History capacity past earlierItems earlierClosed := by
  induction future using List.reverseRecOn generalizing items closed with
  | nil =>
      rw [List.append_nil] at h
      exact ⟨items, closed, h⟩
  | append_singleton future last ih =>
      rw [← List.append_assoc] at h
      generalize hAll : past ++ future ++ [last] = all at h
      cases h with
      | start => simp at hAll
      | accept value hBefore => exact ih ((List.append_inj_left' hAll rfl) ▸ hBefore)
      | remove hBefore => exact ih ((List.append_inj_left' hAll rfl) ▸ hBefore)
      | close hBefore => exact ih ((List.append_inj_left' hAll rfl) ▸ hBefore)
      | drained hBefore => exact ih ((List.append_inj_left' hAll rfl) ▸ hBefore)

/-- No value enters after the closing. -/
theorem open_of_accept {value : α} (h : History capacity (past ++ .accept value :: future) items closed) :
    Operation.close ∉ past := by
  rw [List.append_cons] at h
  obtain ⟨_, _, hAccept⟩ := h.of_append
  generalize hAll : past ++ [Operation.accept value] = all at hAccept
  cases hAccept with
  | start => simp at hAll
  | accept _ hBefore =>
      rw [← List.append_inj_left' hAll rfl] at hBefore
      exact fun hClose => absurd (hBefore.closed_iff.mpr hClose) Bool.false_ne_true
  | remove => cases List.append_inj_right' hAll rfl
  | close => cases List.append_inj_right' hAll rfl
  | drained => cases List.append_inj_right' hAll rfl

/-- The end is told only when the queue is closed and everything that entered has left. -/
theorem removed_of_drained (h : History capacity (past ++ .drained :: future) items closed) :
    Operation.close ∈ past ∧ removed past = accepted past := by
  rw [List.append_cons] at h
  obtain ⟨_, _, hDrained⟩ := h.of_append
  generalize hAll : past ++ [Operation.drained] = all at hDrained
  cases hDrained with
  | start => simp at hAll
  | drained hBefore =>
      rw [← List.append_inj_left' hAll rfl] at hBefore
      have hItems := hBefore.removed_append_items
      rw [List.append_nil] at hItems
      exact ⟨hBefore.closed_iff.mp rfl, hItems⟩
  | accept => cases List.append_inj_right' hAll rfl
  | remove => cases List.append_inj_right' hAll rfl
  | close => cases List.append_inj_right' hAll rfl

/-- Several values leave one after the other. -/
theorem remove_all {values : List α} (h : History capacity history (values ++ items) closed) :
    History capacity (history ++ values.map .remove) items closed := by
  induction values generalizing history with
  | nil => simpa using h
  | cons value rest ih =>
      have hRest := ih h.remove
      rwa [List.append_assoc] at hRest

end History
end BoundedFifo
