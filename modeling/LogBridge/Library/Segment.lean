import Mathlib.Data.List.Basic

/-! Consecutive parts of a list, addressed by their first position and the
position after their last element. Sequential readers move from one such
position to the next, so reading and writing compare through segments. -/
universe u
variable {α : Type u}

/-- `part` occupies the positions of `input` from `start` up to `stop`. -/
def Segment (input : List α) (start : Nat) (part : List α) (stop : Nat) : Prop :=
  ∃ before after, input = before ++ part ++ after ∧
    before.length = start ∧ stop = start + part.length

namespace Segment
variable {input part first second : List α} {start middle stop : Nat}

theorem stop_eq (h : Segment input start part stop) : stop = start + part.length := by
  obtain ⟨_, _, _, _, hStop⟩ := h
  exact hStop

theorem stop_le (h : Segment input start part stop) : stop ≤ input.length := by
  obtain ⟨before, after, rfl, rfl, rfl⟩ := h
  simp

theorem drop_eq (h : Segment input start part stop) :
    input.drop start = part ++ input.drop stop := by
  obtain ⟨before, after, rfl, rfl, rfl⟩ := h
  simp [List.drop_append]

theorem take_drop_eq (h : Segment input start part stop) :
    (input.drop start).take part.length = part := by
  rw [h.drop_eq, List.take_left]

theorem intro (before after : List α) :
    Segment (before ++ part ++ after) before.length part (before.length + part.length) :=
  ⟨before, after, rfl, rfl, rfl⟩

/-- The segment of a given length is fixed by its start. -/
theorem of_le (hStop : start + middle ≤ input.length) :
    Segment input start ((input.drop start).take middle) (start + middle) := by
  refine ⟨input.take start, input.drop (start + middle), ?_, ?_, ?_⟩
  · rw [List.append_assoc, ← List.drop_drop, List.take_append_drop, List.take_append_drop]
  · simp only [List.length_take]
    omega
  · simp only [List.length_take, List.length_drop]
    omega

theorem unique (hFirst : Segment input start first stop) (hSecond : Segment input start second stop) :
    first = second := by
  have hLength : first.length = second.length := by
    have := hFirst.stop_eq
    have := hSecond.stop_eq
    omega
  rw [← hFirst.take_drop_eq, hLength, hSecond.take_drop_eq]

theorem nil_iff : Segment input start [] stop ↔ stop = start ∧ start ≤ input.length := by
  constructor
  · intro h
    have hStop := h.stop_eq
    have hLe := h.stop_le
    simp only [List.length_nil] at hStop
    omega
  · rintro ⟨rfl, hLe⟩
    have hEmpty : Segment input stop ((input.drop stop).take 0) (stop + 0) := of_le hLe
    simpa using hEmpty

/-- Consecutive segments join, and a joined segment splits. -/
theorem append_iff :
    Segment input start (first ++ second) stop ↔
      ∃ middle, Segment input start first middle ∧ Segment input middle second stop := by
  constructor
  · rintro ⟨before, after, rfl, rfl, rfl⟩
    refine ⟨before.length + first.length, ⟨before, second ++ after, by simp, rfl, rfl⟩, ?_⟩
    exact ⟨before ++ first, after, by simp, by simp, by simp [Nat.add_assoc]⟩
  · rintro ⟨middle, hFirst, hSecond⟩
    have hStop := hSecond.stop_eq
    have hMiddle := hFirst.stop_eq
    have hLe := hSecond.stop_le
    refine ⟨input.take start, input.drop stop, ?_, ?_, ?_⟩
    · rw [List.append_assoc, List.append_assoc, ← hSecond.drop_eq, ← hFirst.drop_eq,
        List.take_append_drop]
    · simp only [List.length_take]
      omega
    · simp only [List.length_append]
      omega

theorem singleton_iff {x : α} :
    Segment input start [x] stop ↔ stop = start + 1 ∧ input[start]? = some x := by
  constructor
  · rintro ⟨before, after, rfl, rfl, rfl⟩
    simp
  · rintro ⟨rfl, hGet⟩
    obtain ⟨hLt, hGet⟩ := List.getElem?_eq_some_iff.mp hGet
    have hSegment : Segment input start ((input.drop start).take 1) (start + 1) := of_le hLt
    rwa [List.drop_eq_getElem_cons hLt, hGet, List.take_succ_cons, List.take_zero] at hSegment

/-- A segment inside a longer list that starts with `input` is the same one. -/
theorem append_right (h : Segment input start part stop) (more : List α) :
    Segment (input ++ more) start part stop := by
  obtain ⟨before, after, rfl, rfl, rfl⟩ := h
  exact ⟨before, after ++ more, by simp, rfl, rfl⟩

end Segment
