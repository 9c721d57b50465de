import Mathlib.Data.List.Induction
import LogBridge.DedupStore.Persistence

/-! Opening the store again after a run of `confirm` calls. The state file is
separated by white space while a client id may be any byte string, so the
watermarks survive exactly when no recorded id contains white space. -/
namespace LogBridge.DedupStore

open Checked Storage

/-- A run of `confirm` calls on a new store, each with a successful save. A call
that throws changes nothing. -/
def confirmAll (calls : List (Bytes × UInt64)) : DedupStore × Option Bytes :=
  calls.foldl (fun state call => (state.1.confirm state.2 call.1 call.2 .saved).2) ({}, none)

theorem confirmAll_concat (calls : List (Bytes × UInt64)) (call : Bytes × UInt64) :
    confirmAll (calls ++ [call]) =
      ((confirmAll calls).1.confirm (confirmAll calls).2 call.1 call.2 .saved).2 := by
  rw [confirmAll, List.foldl_append]
  rfl

/-- Opening the file succeeds and every client has the watermark it had in memory. -/
def Reopens (path : Bytes) (state : DedupStore × Option Bytes) : Prop :=
  ∃ reopened, construct path state.2 = .ok reopened ∧
    ∀ clientId, reopened.highestConfirmed clientId = state.1.highestConfirmed clientId

/-- The client ids for which the calls set a watermark. -/
def Named (calls : List (Bytes × UInt64)) (clientId : Bytes) : Prop :=
  clientId ≠ [] ∧ ∃ call ∈ calls, call.1 = clientId ∧ call.2 ≠ 0

theorem named_concat_iff {calls : List (Bytes × UInt64)} {call : Bytes × UInt64} {clientId : Bytes} :
    Named (calls ++ [call]) clientId ↔
      Named calls clientId ∨ (clientId ≠ [] ∧ call.1 = clientId ∧ call.2 ≠ 0) := by
  simp only [Named, List.mem_append, List.mem_singleton]
  constructor
  · rintro ⟨hClient, other, hMem | rfl, hOther⟩
    · exact Or.inl ⟨hClient, other, hMem, hOther⟩
    · exact Or.inr ⟨hClient, hOther⟩
  · rintro (⟨hClient, other, hMem, hOther⟩ | ⟨hClient, hCall⟩)
    · exact ⟨hClient, other, Or.inl hMem, hOther⟩
    · exact ⟨hClient, call, Or.inr rfl, hCall⟩

/-- The store holds a positive watermark for exactly the named clients, and the
file is its text. -/
structure Recorded (calls : List (Bytes × UInt64)) (state : DedupStore × Option Bytes) : Prop where
  persisted : Persisted state.1 state.2
  positive : ∀ (clientId : Bytes) (confirmedId : UInt64),
    state.1.confirmed[clientId]? = some confirmedId → confirmedId ≠ 0
  mem_iff : ∀ clientId, clientId ∈ state.1.confirmed ↔ Named calls clientId

theorem recorded_confirmAll (calls : List (Bytes × UInt64)) : Recorded calls (confirmAll calls) := by
  induction calls using List.reverseRecOn with
  | nil =>
      refine ⟨Or.inl ⟨rfl, rfl⟩, ?_, ?_⟩
      · intro clientId confirmedId h
        simp [confirmAll] at h
      · intro clientId
        simp [confirmAll, Named]
  | append_singleton calls call ih =>
      obtain ⟨hPersisted, hPositive, hMem⟩ := ih
      rw [confirmAll_concat]
      generalize confirmAll calls = state at hPersisted hPositive hMem
      rcases confirm_saved_cases state.1 state.2 call.1 call.2 with
        ⟨hCall, hArgument⟩ | ⟨hCall, hClient, hId, hLe⟩ | ⟨hCall, hClient, hId, _⟩
      · rw [hCall]
        refine ⟨hPersisted, hPositive, fun clientId => ?_⟩
        rw [hMem, named_concat_iff]
        constructor
        · exact Or.inl
        · rintro (hNamed | ⟨hClient, rfl, hId⟩)
          · exact hNamed
          · exact absurd hArgument (not_or.mpr ⟨hClient, hId⟩)
      · rw [hCall]
        refine ⟨hPersisted, hPositive, fun clientId => ?_⟩
        rw [hMem, named_concat_iff]
        constructor
        · exact Or.inl
        · rintro (hNamed | ⟨_, rfl, _⟩)
          · exact hNamed
          · -- an old watermark at least `call.2` means the client was recorded before
            refine (hMem call.1).mp ?_
            by_contra hAbsent
            rw [highestConfirmed, Std.ExtTreeMap.getElem?_eq_none hAbsent] at hLe
            exact hId (UInt64.le_zero_iff.mp hLe)
      · rw [hCall]
        refine ⟨Or.inr rfl, fun clientId confirmedId hGet => ?_, fun clientId => ?_⟩
        · rw [Std.ExtTreeMap.getElem?_insert] at hGet
          split at hGet
          · cases hGet
            exact hId
          · exact hPositive clientId confirmedId hGet
        · rw [named_concat_iff, ← hMem, Std.ExtTreeMap.mem_insert, Std.compare_eq_iff_eq]
          constructor
          · rintro (rfl | hOld)
            · exact Or.inr ⟨hClient, rfl, hId⟩
            · exact Or.inl hOld
          · rintro (hOld | ⟨_, rfl, _⟩)
            · exact Or.inr hOld
            · exact Or.inl rfl

/-- Every id with a watermark in a reopened store is one word. -/
theorem isWord_of_reopened {path clientId : Bytes} {file : Option Bytes} {reopened : DedupStore}
    (hOpen : construct path file = .ok reopened) (hPositive : reopened.highestConfirmed clientId ≠ 0) :
    IsWord clientId := by
  rw [construct] at hOpen
  split at hOpen
  · cases hOpen
  · rw [highestConfirmed] at hPositive
    cases hGet : reopened.confirmed[clientId]? with
    | none =>
        rw [hGet] at hPositive
        exact absurd rfl hPositive
    | some confirmedId => exact (load_readable hOpen clientId confirmedId hGet).1

/-- The watermarks survive a restart exactly when no client id of a call with a
positive watermark contains white space. -/
theorem reopens_iff (path : Bytes) (calls : List (Bytes × UInt64)) (hPath : path ≠ [])
    (hIds : ∀ call ∈ calls, 1 ≤ call.1.length ∧ call.1.length ≤ 128) :
    Reopens path (confirmAll calls) ↔
      ∀ call ∈ calls, call.2 ≠ 0 → ∀ byte ∈ call.1, Text.isSpace byte = false := by
  obtain ⟨hPersisted, hPositive, hNamed⟩ := recorded_confirmAll calls
  constructor
  · rintro ⟨reopened, hOpen, hSame⟩ call hCall hId
    have hClient : call.1 ≠ [] := List.ne_nil_of_length_pos (hIds call hCall).1
    have hMem := (hNamed call.1).mpr ⟨hClient, call, hCall, rfl, hId⟩
    have hWatermark : reopened.highestConfirmed call.1 ≠ 0 := by
      rw [hSame, highestConfirmed, Std.ExtTreeMap.getElem?_eq_some_getElem hMem]
      exact hPositive _ _ (Std.ExtTreeMap.getElem?_eq_some_getElem hMem)
    exact (isWord_of_reopened hOpen hWatermark).2
  · intro hSpaces
    have hReadable : Readable (confirmAll calls).1.confirmed := by
      intro clientId confirmedId hGet
      have hMem : clientId ∈ (confirmAll calls).1.confirmed :=
        Std.ExtTreeMap.mem_iff_isSome_getElem?.mpr (by rw [hGet]; rfl)
      obtain ⟨hClient, call, hCall, rfl, hId⟩ := (hNamed clientId).mp hMem
      exact ⟨⟨hClient, hSpaces call hCall hId⟩, hPositive _ _ hGet⟩
    exact ⟨_, construct_persisted hPath hPersisted hReadable, fun _ => rfl⟩

/-- Two clients with ids of one word each. -/
theorem reopens_sample : Reopens [100] (confirmAll [([97], 5), ([98], 2), ([97], 7)]) :=
  (reopens_iff [100] _ (by decide) (by decide)).mpr (by simp [Text.isSpace])

/-- The client id "a b" is written as two words, and the file is rejected. -/
theorem reopens_fails_on_space :
    (∀ call ∈ [(([97, 32, 98] : Bytes), (5 : UInt64))], 1 ≤ call.1.length ∧ call.1.length ≤ 128) ∧
      ¬Reopens [100] (confirmAll [([97, 32, 98], 5)]) := by
  refine ⟨by decide, ?_⟩
  rintro ⟨reopened, hOpen, hSame⟩
  have hWatermark : reopened.highestConfirmed [97, 32, 98] ≠ 0 := by
    rw [hSame]
    decide
  have hWord := isWord_of_reopened hOpen hWatermark
  exact absurd (hWord.2 32 (by decide)) (by decide)

end LogBridge.DedupStore
