import LogBridge.ClientState.Persistence

/-! The numbers of a state file. The comment on the parser promises strict
decimal numbers; the conversion behind it also skips white space and takes a
sign, and only a minus in front is refused beforehand. A file that is accepted
has strict numbers exactly when no number line starts with white space or a
plus. -/
namespace LogBridge.ClientState

open Checked

/-! The lines of an accepted file. -/

/-- The line with this number, counted from zero. -/
def lineAt : Nat → Text.Stream → Option Bytes
  | 0, input => (Text.getline input).1
  | index + 1, input => lineAt index (Text.getline input).2

/-- The line with this number is parsed as this value. -/
def NumberAt (data : Bytes) (index : Nat) (fieldName : String) (value : UInt64) : Prop :=
  ∃ text, lineAt index { rest := data } = some text ∧ parseUint64 text fieldName = .ok value

/-- Where each field of an accepted file stands, in the current format and in the
one without the file identity. -/
structure Loaded (data : Bytes) (state : ClientState) : Prop where
  clientId : lineAt 1 { rest := data } = some state.clientId
  clientId_ne_nil : state.clientId ≠ []
  nextId : NumberAt data 2 "nextId" state.nextId
  nextId_ne_zero : state.nextId ≠ 0
  fileOffset : NumberAt data 3 "fileOffset" state.fileOffset
  format : (lineAt 0 { rest := data } = some stateMagic ∧
      NumberAt data 4 "fileDeviceId" state.fileDeviceId ∧
      NumberAt data 5 "fileInode" state.fileInode ∧
      lineAt 6 { rest := data } = some state.sourcePath) ∨
    (lineAt 0 { rest := data } = some legacyStateMagic ∧ state.fileDeviceId = 0 ∧
      state.fileInode = 0 ∧ lineAt 4 { rest := data } = some state.sourcePath)

theorem getline_of_requireLine {input next : Text.Stream} {line : Bytes}
    (h : requireLine input = .ok (line, next)) : Text.getline input = (some line, next) := by
  rw [requireLine] at h
  rcases hLine : Text.getline input with ⟨_ | found, after⟩
  · rw [hLine] at h
    cases h
  · rw [hLine] at h
    cases pure_eq_ok_iff.mp h
    rfl

theorem lineAt_zero {input next : Text.Stream} {line : Bytes}
    (h : requireLine input = .ok (line, next)) : lineAt 0 input = some line := by
  rw [lineAt, getline_of_requireLine h]

theorem lineAt_succ {input next : Text.Stream} {line : Bytes}
    (h : requireLine input = .ok (line, next)) (index : Nat) :
    lineAt (index + 1) input = lineAt index next := by
  rw [lineAt, getline_of_requireLine h]

theorem loaded_of_load {data : Bytes} {state : ClientState} (h : load data = .ok state) :
    Loaded data state := by
  obtain ⟨⟨magic, i₁⟩, hMagic, h⟩ := bind_eq_ok_iff.mp h
  obtain ⟨⟨clientId, i₂⟩, hClientId, h⟩ := bind_eq_ok_iff.mp h
  obtain ⟨⟨nextIdText, i₃⟩, hNextIdText, h⟩ := bind_eq_ok_iff.mp h
  obtain ⟨⟨fileOffsetText, i₄⟩, hOffsetText, h⟩ := bind_eq_ok_iff.mp h
  obtain ⟨hNonempty, h⟩ := throwIf_bind_eq_ok_iff.mp h
  have hLater : ∀ index, lineAt (index + 4) { rest := data } = lineAt index i₄ := by
    intro index
    rw [lineAt_succ hMagic, lineAt_succ hClientId, lineAt_succ hNextIdText, lineAt_succ hOffsetText]
  have hClientLine : lineAt 1 { rest := data } = some clientId := by
    rw [lineAt_succ hMagic, lineAt_zero hClientId]
  have hNextIdLine : lineAt 2 { rest := data } = some nextIdText := by
    rw [lineAt_succ hMagic, lineAt_succ hClientId, lineAt_zero hNextIdText]
  have hOffsetLine : lineAt 3 { rest := data } = some fileOffsetText := by
    rw [lineAt_succ hMagic, lineAt_succ hClientId, lineAt_succ hNextIdText, lineAt_zero hOffsetText]
  dsimp only at h
  split_ifs at h with hCurrent hLegacy
  · obtain ⟨⟨deviceText, i₅⟩, hDeviceText, h⟩ := bind_eq_ok_iff.mp h
    obtain ⟨⟨inodeText, i₆⟩, hInodeText, h⟩ := bind_eq_ok_iff.mp h
    obtain ⟨⟨storedSource, i₇⟩, hSource, h⟩ := bind_eq_ok_iff.mp h
    obtain ⟨device, hDevice, h⟩ := bind_eq_ok_iff.mp h
    obtain ⟨inode, hInode, h⟩ := bind_eq_ok_iff.mp h
    obtain ⟨_, hFields, h⟩ := bind_eq_ok_iff.mp h
    cases pure_eq_ok_iff.mp hFields
    obtain ⟨nextId, hNextId, h⟩ := bind_eq_ok_iff.mp h
    obtain ⟨fileOffset, hOffset, h⟩ := bind_eq_ok_iff.mp h
    obtain ⟨hPositive, h⟩ := throwIf_bind_eq_ok_iff.mp h
    cases pure_eq_ok_iff.mp h
    refine ⟨hClientLine, hNonempty, ⟨_, hNextIdLine, hNextId⟩, hPositive, ⟨_, hOffsetLine, hOffset⟩,
      Or.inl ⟨?_, ⟨deviceText, ?_, hDevice⟩, ⟨inodeText, ?_, hInode⟩, ?_⟩⟩
    · rw [lineAt_zero hMagic, hCurrent]
    · rw [hLater, lineAt_zero hDeviceText]
    · rw [hLater, lineAt_succ hDeviceText, lineAt_zero hInodeText]
    · rw [hLater, lineAt_succ hDeviceText, lineAt_succ hInodeText, lineAt_zero hSource]
  · obtain ⟨⟨storedSource, i₅⟩, hSource, h⟩ := bind_eq_ok_iff.mp h
    obtain ⟨_, hFields, h⟩ := bind_eq_ok_iff.mp h
    cases pure_eq_ok_iff.mp hFields
    obtain ⟨nextId, hNextId, h⟩ := bind_eq_ok_iff.mp h
    obtain ⟨fileOffset, hOffset, h⟩ := bind_eq_ok_iff.mp h
    obtain ⟨hPositive, h⟩ := throwIf_bind_eq_ok_iff.mp h
    cases pure_eq_ok_iff.mp h
    refine ⟨hClientLine, hNonempty, ⟨_, hNextIdLine, hNextId⟩, hPositive, ⟨_, hOffsetLine, hOffset⟩,
      Or.inr ⟨?_, rfl, rfl, ?_⟩⟩
    · rw [lineAt_zero hMagic, hLegacy]
    · rw [hLater, lineAt_zero hSource]
  · cases h

/-! Numbers. -/

/-- The byte of '+'. -/
def plus : UInt8 := 43

/-- The line is the number in decimal digits and nothing else. -/
structure StrictNumber (line : Bytes) (value : UInt64) : Prop where
  ne_nil : line ≠ []
  isDigit : ∀ byte ∈ line, Text.isDigit byte = true
  value_eq : Text.digitsValue line = value.toNat

theorem scan_of_parseUint64 {text : Bytes} {fieldName : String} {value : UInt64}
    (h : parseUint64 text fieldName = .ok value) :
    text.head? ≠ some 45 ∧ Text.scanUint64 (text.dropWhile Text.isSpace) = .number value [] := by
  obtain ⟨hFirst, h⟩ := throwIf_bind_eq_ok_iff.mp h
  obtain ⟨⟨number, rest⟩, hStoull, h⟩ := bind_eq_ok_iff.mp h
  obtain ⟨hRest, h⟩ := throwIf_bind_eq_ok_iff.mp h
  cases pure_eq_ok_iff.mp h
  refine ⟨(not_or.mp hFirst).2, ?_⟩
  rw [stoull] at hStoull
  split at hStoull
  · cases hStoull
  · cases hStoull
  · next hScan =>
      cases pure_eq_ok_iff.mp hStoull
      rwa [not_not.mp hRest] at hScan

/-- An accepted text is strict unless it starts with white space or a plus. -/
theorem strictNumber_iff {text : Bytes} {fieldName : String} {value : UInt64}
    (h : parseUint64 text fieldName = .ok value) :
    StrictNumber text value ↔ ∀ byte ∈ text.head?, Text.isSpace byte = false ∧ byte ≠ plus := by
  obtain ⟨hMinus, hScan⟩ := scan_of_parseUint64 h
  constructor
  · rintro ⟨_, hDigits, _⟩ byte hHead
    have hDigit := hDigits byte (List.mem_of_mem_head? hHead)
    refine ⟨Text.not_isSpace_of_isDigit hDigit, ?_⟩
    rintro rfl
    exact absurd hDigit (by decide)
  · intro hHead
    cases text with
    | nil => cases hScan
    | cons first rest =>
        obtain ⟨hSpace, hPlus⟩ := hHead first rfl
        have hMinus : first ≠ 45 := fun hEq => hMinus (congrArg some hEq)
        have hSign : Text.splitSign (first :: rest) = (false, first :: rest) := by
          unfold Text.splitSign
          split
          · next hEq => exact absurd (List.cons.inj hEq).1 hPlus
          · next hEq => exact absurd (List.cons.inj hEq).1 hMinus
          · rfl
        rw [List.dropWhile_cons, hSpace] at hScan
        obtain ⟨hNonempty, hDigits, hFits, hValue⟩ := Text.scanUint64_eq_number_iff.mp hScan
        simp only [Bool.false_eq_true, if_false, hSign] at hNonempty hDigits hFits hValue
        refine ⟨hNonempty, hDigits, ?_⟩
        rw [hValue, UInt64.toNat_ofNat', Nat.mod_eq_of_lt hFits]

/-- The number lines that the loader uses: the next id and the offset, and in the
current format also the device and the inode. -/
def numberLines (data : Bytes) : List Bytes :=
  let line := fun index => (lineAt index { rest := data }).toList
  line 2 ++ line 3 ++ if lineAt 0 { rest := data } = some stateMagic then line 4 ++ line 5 else []

/-- The fields of the state that come from these lines, in their order. -/
def numberFields (data : Bytes) (state : ClientState) : List UInt64 :=
  [state.nextId, state.fileOffset] ++
    if lineAt 0 { rest := data } = some stateMagic then [state.fileDeviceId, state.fileInode] else []

/-- Every number line that was used is the strict decimal of its field. -/
def StrictFields (data : Bytes) (state : ClientState) : Prop :=
  List.Forall₂ StrictNumber (numberLines data) (numberFields data state)

theorem parsed_of_loaded {data : Bytes} {state : ClientState} (h : Loaded data state) :
    List.Forall₂ (fun line value => ∃ fieldName, parseUint64 line fieldName = .ok value)
      (numberLines data) (numberFields data state) := by
  obtain ⟨nextIdText, hNextIdLine, hNextId⟩ := h.nextId
  obtain ⟨offsetText, hOffsetLine, hOffset⟩ := h.fileOffset
  rw [numberLines, numberFields]
  dsimp only
  rw [hNextIdLine, hOffsetLine]
  rcases h.format with ⟨hMagic, ⟨deviceText, hDeviceLine, hDevice⟩, ⟨inodeText, hInodeLine, hInode⟩, _⟩ |
    ⟨hMagic, _⟩
  · rw [hMagic, if_pos rfl, if_pos rfl, hDeviceLine, hInodeLine]
    exact .cons ⟨_, hNextId⟩ (.cons ⟨_, hOffset⟩ (.cons ⟨_, hDevice⟩ (.cons ⟨_, hInode⟩ .nil)))
  · have hOther : some legacyStateMagic ≠ some stateMagic := by decide
    rw [hMagic, if_neg hOther, if_neg hOther]
    exact .cons ⟨_, hNextId⟩ (.cons ⟨_, hOffset⟩ .nil)

theorem forall₂_iff_of_forall₂ {α β : Type} {parsed strict : α → β → Prop} {clean : α → Prop}
    (hIff : ∀ line value, parsed line value → (strict line value ↔ clean line)) {lines : List α}
    {values : List β} (h : List.Forall₂ parsed lines values) :
    List.Forall₂ strict lines values ↔ ∀ line ∈ lines, clean line := by
  induction h with
  | nil => simp
  | cons hFirst _ ih =>
      rw [List.forall₂_cons, List.forall_mem_cons, hIff _ _ hFirst, ih]

/-- For every accepted content: the used number lines are strict decimals of
their fields exactly when none of them starts with white space or a plus. -/
theorem strict_iff (data : Bytes) (state : ClientState) (hLoad : load data = .ok state) :
    StrictFields data state ↔
      ∀ line ∈ numberLines data, ∀ byte ∈ line.head?, Text.isSpace byte = false ∧ byte ≠ plus := by
  have hParsed := parsed_of_loaded (loaded_of_load hLoad)
  refine forall₂_iff_of_forall₂ (fun line value hLine => ?_) hParsed
  obtain ⟨fieldName, hParse⟩ := hLine
  exact strictNumber_iff hParse

/-- A file in the current format with plain numbers. -/
def sampleData : Bytes :=
  stateMagic ++ [10, 99, 10, 55, 10, 49, 50, 10, 51, 10, 52, 10, 112, 10]

def sampleState : ClientState :=
  { clientId := [99], nextId := 7, sourcePath := [112], fileOffset := 12, fileDeviceId := 3, fileInode := 4 }

theorem strict_iff_sample : StrictFields sampleData sampleState := by
  apply (strict_iff sampleData sampleState rfl).mpr
  have hLines : numberLines sampleData = [[55], [49, 50], [51], [52]] := rfl
  rw [hLines]
  simp [Text.isSpace, plus]

/-- The same file with the next id " -1", which is taken for the largest id. -/
def signedData : Bytes :=
  stateMagic ++ [10, 99, 10, 32, 45, 49, 10, 49, 50, 10, 51, 10, 52, 10, 112, 10]

theorem signed_number_accepted :
    load signedData = .ok { sampleState with nextId := maxId } ∧
      ¬StrictFields signedData { sampleState with nextId := maxId } := by
  refine ⟨rfl, fun h => ?_⟩
  obtain ⟨hFirst, _⟩ := List.forall₂_cons.mp h
  exact absurd (hFirst.isDigit 32 (by decide)) (by decide)

end LogBridge.ClientState
