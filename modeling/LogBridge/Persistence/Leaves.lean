import LogBridge.Persistence.Atomic

/-! Loss of power. A property of everything that a loss of power may leave is kept
by a replacement whose data have it, at whatever call the replacement ends. -/
namespace LogBridge.Persistence

open Scripted

instance (entry : Option File) (content : Option Bytes) : Decidable (EntryLeaves entry content) :=
  match entry, content with
  | none, content => inferInstanceAs (Decidable (content = none))
  | some _, none => isFalse fun ⟨_, hContent, _⟩ => by cases hContent
  | some file, some bytes =>
      decidable_of_iff (file.synced = true → bytes = file.content)
        ⟨fun h => ⟨bytes, rfl, h⟩, fun ⟨_, hContent, h⟩ => by
          cases hContent
          exact h⟩

instance (disk : Disk) (content : Option Bytes) : Decidable (disk.CrashLeaves content) :=
  inferInstanceAs (Decidable (∃ entry ∈ disk.target :: disk.replaced, EntryLeaves entry content))

namespace Disk
variable {disk after : Disk} {content : Option Bytes} {property weaker : Option Bytes → Prop}

/-- Everything that a loss of power may leave has the property. -/
def Leaves (disk : Disk) (property : Option Bytes → Prop) : Prop :=
  ∀ content, disk.CrashLeaves content → property content

/-- The disk when the power is back, and this was left. -/
def recovered (content : Option Bytes) : Disk where
  target := content.map fun bytes => { content := bytes, synced := true }

/-- Nothing but the visible content can be left. -/
def Settled (disk : Disk) : Prop :=
  disk.replaced = [] ∧ ∀ file, disk.target = some file → file.synced = true

theorem Leaves.mono (h : disk.Leaves property) (hWeaker : ∀ content, property content → weaker content) :
    disk.Leaves weaker :=
  fun content hLeaves => hWeaker content (h content hLeaves)

theorem Leaves.visible (h : disk.Leaves property) : property disk.content :=
  h _ disk.crashLeaves_content

theorem Settled.eq_content (h : disk.Settled) (hLeaves : disk.CrashLeaves content) :
    content = disk.content := by
  obtain ⟨entry, hMem, hEntry⟩ := hLeaves
  rw [h.1, List.mem_singleton] at hMem
  subst hMem
  rw [Disk.content]
  cases hTarget : disk.target with
  | none =>
      rw [hTarget] at hEntry
      exact hEntry
  | some file =>
      rw [hTarget] at hEntry
      obtain ⟨bytes, rfl, hBytes⟩ := hEntry
      rw [hBytes (h.2 file hTarget)]
      rfl

theorem Settled.leaves_iff (h : disk.Settled) : disk.Leaves property ↔ property disk.content := by
  constructor
  · exact Leaves.visible
  · intro hContent content hLeaves
    rwa [h.eq_content hLeaves]

theorem settled_recovered (content : Option Bytes) : (recovered content).Settled := by
  refine ⟨rfl, ?_⟩
  intro file hFile
  obtain ⟨bytes, _, rfl⟩ := Option.map_eq_some_iff.mp hFile
  rfl

theorem recovered_content (content : Option Bytes) : (recovered content).content = content := by
  rw [Disk.content, recovered]
  cases content <;> rfl

theorem leaves_recovered_iff : (recovered content).Leaves property ↔ property content := by
  rw [(settled_recovered content).leaves_iff, recovered_content]

end Disk

/-- At most the data are added to what may be left. -/
def Disk.Adds (disk : Disk) (data : Bytes) (after : Disk) : Prop :=
  ∀ property : Option Bytes → Prop, disk.Leaves property → property (some data) → after.Leaves property

theorem Untouched.adds {disk after : Disk} {data : Bytes} (h : Untouched disk after) :
    disk.Adds data after :=
  fun _ hLeaves _ content hContent => hLeaves content (h.crashLeaves hContent)

theorem Replaced.adds {disk after : Disk} {data : Bytes} (h : Replaced disk data after) :
    disk.Adds data after := by
  intro property hLeaves hData content hContent
  rcases h.crashLeaves hContent with rfl | ⟨_, hBefore⟩
  · exact hData
  · exact hLeaves content hBefore

/-- How a function ends that first replaces the file: with its value, when nothing
but the data can be left, or inside the replacement. -/
theorem replace_cases {α : Type} (parent data : Bytes) (value : α) (disk : Disk) (replies : List Reply) :
    (∃ after rest, after.Settled ∧ after.content = some data ∧
      (do writeAtomically parent data; pure value : Program Disk Reply Exception α) disk replies =
        (.returned value, after, rest)) ∨
    ∃ after rest, disk.Adds data after ∧
      ((∃ error, (do writeAtomically parent data; pure value : Program Disk Reply Exception α)
          disk replies = (.threw error, after, rest)) ∨
        (do writeAtomically parent data; pure value : Program Disk Reply Exception α) disk replies =
          (.stopped, after, rest)) := by
  have hRun := writeAtomically_meets parent data disk replies
  dsimp only [bind]
  rcases hEnd : writeAtomically parent data disk replies with ⟨_ | error | _, after, rest⟩
  · rw [hEnd] at hRun
    refine Or.inl ⟨after, rest, ⟨hRun.2, ?_⟩, hRun.1.content_eq, rfl⟩
    intro file hFile
    cases hRun.1.target_eq.symm.trans hFile
    rfl
  · rw [hEnd] at hRun
    exact Or.inr ⟨after, rest, hRun.elim Untouched.adds Replaced.adds, Or.inl ⟨error, rfl⟩⟩
  · rw [hEnd] at hRun
    exact Or.inr ⟨after, rest, hRun.elim Untouched.adds Replaced.adds, Or.inr rfl⟩

/-- The same in terms of the ends that `Storage.writeAtomically` knows. -/
theorem refines_replace {α : Type} (parent data : Bytes) (value : α) (disk : Disk) (replies : List Reply) :
    match (do writeAtomically parent data; pure value : Program Disk Reply Exception α) disk replies with
    | (.returned result, after, _) => result = value ∧
        Storage.writeAtomically disk.content data .saved = (.ok (), after.content)
    | (.threw error, after, _) => ∃ outcome,
        Storage.writeAtomically disk.content data outcome = (.error error, after.content)
    | (.stopped, after, _) => ∃ outcome error,
        Storage.writeAtomically disk.content data outcome = (.error error, after.content) := by
  have hSave := refines_writeAtomically parent data disk replies
  dsimp only [bind]
  rcases hEnd : writeAtomically parent data disk replies with ⟨_ | error | _, after, rest⟩
  · rw [hEnd] at hSave
    exact ⟨rfl, hSave⟩
  · rw [hEnd] at hSave
    exact hSave
  · rw [hEnd] at hSave
    exact hSave

end LogBridge.Persistence
