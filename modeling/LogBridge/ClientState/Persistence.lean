import LogBridge.ClientState.Model

/-! What is read back from the state file, and what each call of the state does
to it. A source path is read back up to its first newline only. -/
namespace LogBridge.ClientState

open Checked Storage

variable {state : ClientState} {file : Option Bytes}

/-! The state file. -/

theorem parseUint64_decimal (value : UInt64) (fieldName : String) :
    parseUint64 (Text.decimal value.toNat) fieldName = .ok value := by
  obtain ⟨first, others, hDecimal⟩ :=
    List.exists_cons_of_ne_nil (Text.decimal_ne_nil value.toNat)
  have hFirst : Text.isDigit first = true :=
    Text.isDigit_of_mem_decimal (show first ∈ Text.decimal value.toNat by simp [hDecimal])
  have hSign : first ≠ 45 := by
    rintro rfl
    exact absurd hFirst (by decide)
  have hSpace : (Text.decimal value.toNat).dropWhile Text.isSpace = Text.decimal value.toNat := by
    rw [hDecimal, List.dropWhile_cons, Text.not_isSpace_of_isDigit hFirst]
    rfl
  have hScan : Text.scanUint64 (Text.decimal value.toNat) = .number value [] := by
    have hEnd := Text.scanUint64_decimal value (show ∀ byte ∈ ([] : Bytes).head?,
      Text.isDigit byte = false by simp)
    rwa [List.append_nil] at hEnd
  have hStoull : stoull (Text.decimal value.toNat) = .ok (value, []) := by
    rw [stoull, hSpace, hScan]
    rfl
  rw [parseUint64, throwIf_of_not (by simp [hDecimal, hSign])]
  change (stoull _ >>= _) = _
  rw [hStoull]
  rfl

theorem requireLine_append {line rest : Bytes} (h : Text.newline ∉ line) :
    requireLine { rest := line ++ [Text.newline] ++ rest } = .ok (line, { rest }) := by
  have hLine : line ++ [Text.newline] ++ rest = line ++ Text.newline :: rest := by simp
  rw [requireLine, hLine, Text.getline_append h]
  rfl

theorem requireLine_decimal (value : UInt64) (rest : Bytes) :
    requireLine { rest := decimalLine value ++ rest } =
      .ok (Text.decimal value.toNat, { rest }) := by
  apply requireLine_append
  intro hMem
  exact absurd (Text.isDigit_of_mem_decimal hMem) (by decide)

/-- The states whose file can be read. -/
structure Readable (state : ClientState) : Prop where
  clientId_ne_nil : state.clientId ≠ []
  clientId_line : Text.newline ∉ state.clientId
  nextId_ne_zero : state.nextId ≠ 0

/-- A generated client id can be read back. -/
theorem readable_of_generated (hClientId : IsGenerated state.clientId) (hNextId : state.nextId ≠ 0) :
    Readable state := by
  obtain ⟨hLength, hDigits⟩ := hClientId
  have hNewline : Text.newline ∉ hexDigits := by decide
  refine ⟨?_, fun hMem => hNewline (hDigits _ hMem), hNextId⟩
  intro hEmpty
  rw [hEmpty] at hLength
  cases hLength

/-- Every field is read back, but the source path up to its first newline. -/
theorem load_stateText (h : Readable state) :
    load state.stateText =
      .ok { state with sourcePath := state.sourcePath.takeWhile Text.inLine } := by
  obtain ⟨next, hSource⟩ := Text.getline_takeWhile state.sourcePath []
  have hSourceLine : requireLine { rest := state.sourcePath ++ [Text.newline] } =
      .ok (state.sourcePath.takeWhile Text.inLine, next) := by
    rw [requireLine, hSource]
    rfl
  have hMagic : Text.newline ∉ stateMagic := by decide
  have hText : state.stateText = stateMagic ++ [Text.newline] ++
      (state.clientId ++ [Text.newline] ++ (decimalLine state.nextId ++
        (decimalLine state.fileOffset ++ (decimalLine state.fileDeviceId ++
          (decimalLine state.fileInode ++ (state.sourcePath ++ [Text.newline])))))) := by
    simp [stateText]
  rw [load, hText]
  refine bind_eq_ok_iff.mpr ⟨_, requireLine_append hMagic, ?_⟩
  refine bind_eq_ok_iff.mpr ⟨_, requireLine_append h.clientId_line, ?_⟩
  refine bind_eq_ok_iff.mpr ⟨_, requireLine_decimal .., ?_⟩
  refine bind_eq_ok_iff.mpr ⟨_, requireLine_decimal .., ?_⟩
  refine throwIf_bind_eq_ok_iff.mpr ⟨h.clientId_ne_nil, ?_⟩
  rw [if_pos rfl]
  refine bind_eq_ok_iff.mpr ⟨_, requireLine_decimal .., ?_⟩
  refine bind_eq_ok_iff.mpr ⟨_, requireLine_decimal .., ?_⟩
  refine bind_eq_ok_iff.mpr ⟨_, hSourceLine, ?_⟩
  refine bind_eq_ok_iff.mpr ⟨_, parseUint64_decimal .., ?_⟩
  refine bind_eq_ok_iff.mpr ⟨_, parseUint64_decimal .., ?_⟩
  refine bind_eq_ok_iff.mpr ⟨_, pure_eq_ok_iff.mpr rfl, ?_⟩
  refine bind_eq_ok_iff.mpr ⟨_, parseUint64_decimal .., ?_⟩
  refine bind_eq_ok_iff.mpr ⟨_, parseUint64_decimal .., ?_⟩
  exact throwIf_bind_eq_ok_iff.mpr ⟨h.nextId_ne_zero, rfl⟩

/-! The calls. -/

/-- What the constructor makes of a state: the same client, a next id above all
recovered messages, and either the old checkpoint for the same source path or
the start of the file. -/
structure Corrected (base : ClientState) (sourcePath : Bytes) (recovered : List LogMessage)
    (result : ClientState) : Prop where
  clientId_eq : result.clientId = base.clientId
  sourcePath_eq : result.sourcePath = sourcePath
  sameClient : ∀ message ∈ recovered, message.clientId = base.clientId
  recovered_lt : ∀ message ∈ recovered, message.id < result.nextId
  nextId_le : base.nextId ≤ result.nextId
  checkpoint : (base.sourcePath = sourcePath ∧ result.fileOffset = base.fileOffset ∧
      result.fileDeviceId = base.fileDeviceId ∧ result.fileInode = base.fileInode) ∨
    (base.sourcePath ≠ sourcePath ∧ result.fileOffset = 0 ∧ result.fileDeviceId = 0 ∧
      result.fileInode = 0)

theorem le_max_both (first second : UInt64) :
    first ≤ max first second ∧ second ≤ max first second := by
  change first ≤ (if first ≤ second then second else first) ∧
    second ≤ (if first ≤ second then second else first)
  split_ifs with hLe
  · exact ⟨hLe, UInt64.le_refl _⟩
  · exact ⟨UInt64.le_refl _, UInt64.le_of_lt (UInt64.not_le.mp hLe)⟩

theorem le_foldl_max (recovered : List LogMessage) (start : UInt64) :
    start ≤ recovered.foldl (fun largest message => max largest message.id) start ∧
      ∀ message ∈ recovered,
        message.id ≤ recovered.foldl (fun largest message => max largest message.id) start := by
  induction recovered generalizing start with
  | nil => simp
  | cons first rest ih =>
      obtain ⟨hStart, hRest⟩ := ih (max start first.id)
      obtain ⟨hLeft, hRight⟩ := le_max_both start first.id
      rw [List.foldl_cons, List.forall_mem_cons]
      exact ⟨UInt64.le_trans hLeft hStart, UInt64.le_trans hRight hStart, hRest⟩

theorem toNat_add_one_of_ne_maxId {id : UInt64} (h : id ≠ maxId) :
    (id + 1).toNat = id.toNat + 1 := by
  have hNat : id.toNat ≠ maxId.toNat := fun hEq => h (UInt64.toNat_inj.mp hEq)
  have hLt := id.toNat_lt
  rw [UInt64.toNat_add]
  simp only [maxId, UInt64.toNat_ofNat] at hNat ⊢
  omega

theorem lt_add_one_of_ne_maxId {id : UInt64} (h : id ≠ maxId) : id < id + 1 := by
  rw [UInt64.lt_iff_toNat_lt, toNat_add_one_of_ne_maxId h]
  exact Nat.lt_succ_self _

theorem correctNextId_eq_ok {base result : ClientState} {recovered : List LogMessage}
    {changed stillChanged : Bool}
    (h : base.correctNextId recovered changed = .ok (result, stillChanged)) :
    (∀ message ∈ recovered, message.clientId = base.clientId ∧ message.id < result.nextId) ∧
      base.nextId ≤ result.nextId ∧ result = { base with nextId := result.nextId } ∧
      (stillChanged = false → changed = false ∧ result = base) := by
  obtain ⟨hClient, h⟩ := throwIf_bind_eq_ok_iff.mp h
  obtain ⟨hRoom, h⟩ := throwIf_bind_eq_ok_iff.mp h
  have hClients : ∀ message ∈ recovered, message.clientId = base.clientId := by
    intro message hMem
    by_contra hNe
    exact hClient ⟨message, hMem, hNe⟩
  have hAll := (le_foldl_max recovered 0).2
  split_ifs at h with hBehind
  · cases pure_eq_ok_iff.mp h
    have hLt := lt_add_one_of_ne_maxId hRoom
    refine ⟨fun message hMem => ⟨hClients message hMem, ?_⟩, ?_, rfl, nofun⟩
    · exact UInt64.lt_of_le_of_lt (hAll message hMem) hLt
    · exact UInt64.le_of_lt (UInt64.lt_of_le_of_lt hBehind hLt)
  · cases pure_eq_ok_iff.mp h
    refine ⟨fun message hMem => ⟨hClients message hMem, ?_⟩, UInt64.le_refl _, rfl,
      fun hChanged => ⟨hChanged, rfl⟩⟩
    exact UInt64.lt_of_le_of_lt (hAll message hMem) (UInt64.not_le.mp hBehind)

theorem prepare_eq_ok {sourcePath generated : Bytes} {recovered : List LogMessage}
    {result : ClientState} {changed : Bool}
    (h : prepare sourcePath file recovered generated = .ok (result, changed)) :
    ∃ base, loadOrCreate file recovered generated = .ok base ∧
      Corrected base sourcePath recovered result ∧
      (changed = false → file.isSome ∧ result = base) := by
  obtain ⟨base, hBase, h⟩ := bind_eq_ok_iff.mp h
  rcases hCorrect : base.correctSource sourcePath file.isNone with ⟨state, sourceChanged⟩
  rw [hCorrect] at h
  obtain ⟨hRecovered, hNextId, hResult, hChanged⟩ := correctNextId_eq_ok h
  refine ⟨base, hBase, ?_⟩
  rw [correctSource] at hCorrect
  split_ifs at hCorrect with hSource
  · cases hCorrect
    refine ⟨?_, fun hFalse => by cases (hChanged hFalse).1⟩
    rw [hResult]
    exact ⟨rfl, rfl, fun message hMem => (hRecovered message hMem).1,
      fun message hMem => (hRecovered message hMem).2, hNextId, Or.inr ⟨hSource, rfl, rfl, rfl⟩⟩
  · cases hCorrect
    have hSame := not_not.mp hSource
    refine ⟨?_, fun hFalse => ?_⟩
    · rw [hResult]
      exact ⟨rfl, hSame, fun message hMem => (hRecovered message hMem).1,
        fun message hMem => (hRecovered message hMem).2, hNextId, Or.inl ⟨hSame, rfl, rfl, rfl⟩⟩
    · obtain ⟨hNotNone, hKept⟩ := hChanged hFalse
      exact ⟨by simpa [Option.isSome_iff_ne_none] using hNotNone, hKept⟩

/-- The constructor either fails with the file as it was, or arrives at a
corrected state. That state equals the loaded one, or it is saved: then the file
is its text, even where the save fails after the rename. -/
theorem construct_cases {path sourcePath generated : Bytes} {recovered : List LogMessage}
    {outcome : SaveOutcome} {result : Except Exception ClientState} {next : Option Bytes}
    (h : construct path sourcePath file recovered generated outcome = (result, next)) :
    (next = file ∧ ∃ error, result = .error error) ∨
    ∃ base corrected, loadOrCreate file recovered generated = .ok base ∧
      Corrected base sourcePath recovered corrected ∧
      ((next = file ∧ file.isSome ∧ corrected = base ∧ result = .ok corrected) ∨
        (next = some corrected.stateText ∧
          (result = .ok corrected ∨ ∃ error, result = .error error))) := by
  rw [construct] at h
  split_ifs at h with hPath
  · cases h
    exact Or.inl ⟨rfl, _, rfl⟩
  · cases hPrepare : prepare sourcePath file recovered generated with
    | error error =>
        rw [hPrepare] at h
        cases h
        exact Or.inl ⟨rfl, _, rfl⟩
    | ok prepared =>
        obtain ⟨corrected, changed⟩ := prepared
        obtain ⟨base, hBase, hCorrected, hKept⟩ := prepare_eq_ok hPrepare
        rw [hPrepare] at h
        cases changed with
        | false =>
            cases h
            obtain ⟨hSome, hSame⟩ := hKept rfl
            exact Or.inr ⟨base, _, hBase, hCorrected, Or.inl ⟨rfl, hSome, hSame, rfl⟩⟩
        | true =>
            cases outcome with
            | saved =>
                cases h
                exact Or.inr ⟨base, _, hBase, hCorrected, Or.inr ⟨rfl, Or.inl rfl⟩⟩
            | failedBeforeRename error =>
                cases h
                exact Or.inl ⟨rfl, _, rfl⟩
            | failedAfterRename error =>
                cases h
                exact Or.inr ⟨base, _, hBase, hCorrected, Or.inr ⟨rfl, Or.inr ⟨_, rfl⟩⟩⟩

/-- The state after an allocation. -/
def advanced (state : ClientState) : ClientState := { state with nextId := state.nextId + 1 }

theorem Readable.advanced (h : Readable state) (hFull : state.nextId ≠ maxId) :
    Readable state.advanced where
  clientId_ne_nil := h.clientId_ne_nil
  clientId_line := h.clientId_line
  nextId_ne_zero hZero := by
    have hNext := toNat_add_one_of_ne_maxId hFull
    rw [show state.nextId + 1 = 0 from hZero] at hNext
    cases hNext

/-- An allocation is saved before it is returned; a failed one leaves memory as
it was. No allocation wraps around. -/
theorem nextMessageId_cases (state : ClientState) (file : Option Bytes) (outcome : SaveOutcome) :
    ((state.nextId = maxId ∨ outcome ≠ .saved) ∧
      ∃ error, state.nextMessageId file outcome = (.error error, state, file)) ∨
    (state.nextId ≠ maxId ∧ outcome ≠ .saved ∧ ∃ error,
      state.nextMessageId file outcome = (.error error, state, some state.advanced.stateText)) ∨
    (state.nextId ≠ maxId ∧ state.nextMessageId file outcome =
      (.ok state.nextId, state.advanced, some state.advanced.stateText)) := by
  rw [nextMessageId]
  split_ifs with hFull
  · exact Or.inl ⟨Or.inl hFull, _, rfl⟩
  · cases outcome with
    | saved => exact Or.inr (Or.inr ⟨hFull, rfl⟩)
    | failedBeforeRename error => exact Or.inl ⟨Or.inr nofun, error, rfl⟩
    | failedAfterRename error => exact Or.inr (Or.inl ⟨hFull, nofun, error, rfl⟩)

/-- The state with another checkpoint. -/
def withCheckpoint (state : ClientState) (offset deviceId inode : UInt64) : ClientState :=
  { state with fileOffset := offset, fileDeviceId := deviceId, fileInode := inode }

theorem Readable.withCheckpoint (h : Readable state) (offset deviceId inode : UInt64) :
    Readable (state.withCheckpoint offset deviceId inode) :=
  ⟨h.clientId_ne_nil, h.clientId_line, h.nextId_ne_zero⟩

/-- A checkpoint that does not change is not saved. -/
theorem updateFileCheckpoint_cases (state : ClientState) (file : Option Bytes)
    (offset deviceId inode : UInt64) (outcome : SaveOutcome) :
    (outcome ≠ .saved ∧ ∃ error next,
      state.updateFileCheckpoint file offset deviceId inode outcome = (.error error, state, next) ∧
      (next = file ∨ next = some (state.withCheckpoint offset deviceId inode).stateText)) ∨
    ∃ next, state.updateFileCheckpoint file offset deviceId inode outcome =
        (.ok (), state.withCheckpoint offset deviceId inode, next) ∧
      (next = file ∧ state.withCheckpoint offset deviceId inode = state ∨
        next = some (state.withCheckpoint offset deviceId inode).stateText) := by
  rw [updateFileCheckpoint]
  split_ifs with hSame
  · obtain ⟨rfl, rfl, rfl⟩ := hSame
    exact Or.inr ⟨file, rfl, Or.inl ⟨rfl, rfl⟩⟩
  · cases outcome with
    | saved => exact Or.inr ⟨_, rfl, Or.inr rfl⟩
    | failedBeforeRename error => exact Or.inl ⟨nofun, error, file, rfl, Or.inl rfl⟩
    | failedAfterRename error => exact Or.inl ⟨nofun, error, _, rfl, Or.inr rfl⟩

end LogBridge.ClientState
