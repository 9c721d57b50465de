import LogBridge.DedupStore.Model

/-! The text of the state file. Reading back what was written gives the same
map when no client id contains white space, and never otherwise: the extractor
of client ids returns only words. -/
namespace LogBridge.DedupStore

open Checked Storage

/-- A client id that is one word of the text format. -/
def IsWord (clientId : Bytes) : Prop :=
  clientId ≠ [] ∧ ∀ byte ∈ clientId, Text.isSpace byte = false

/-! The loading loop. -/

theorem loadRecords_stop {input stopped : Text.Stream} {confirmed : ConfirmedMap}
    (h : Text.extractWord input = (none, stopped)) :
    loadRecords input confirmed = .ok (confirmed, stopped) := by
  rw [loadRecords]
  split
  · next hWord =>
      rw [h] at hWord
      cases hWord
      rfl
  · next hWord =>
      rw [h] at hWord
      cases hWord

theorem loadRecords_record {input afterWord afterNumber : Text.Stream} {confirmed : ConfirmedMap}
    {clientId : Bytes} {confirmedId : UInt64}
    (hWord : Text.extractWord input = (some clientId, afterWord))
    (hNumber : Text.extractUint64 afterWord = (some confirmedId, afterNumber)) :
    loadRecords input confirmed = (do
      throwIf (clientId = [] ∨ confirmedId = 0 ∨ confirmed.contains clientId)
        (.runtimeError "invalid dedup state record")
      loadRecords afterNumber (confirmed.insert clientId confirmedId)) := by
  conv_lhs => rw [loadRecords]
  split
  · next h =>
      rw [hWord] at h
      cases h
  · next h =>
      rw [hWord] at h
      cases h
      split
      · next h =>
          rw [hNumber] at h
          cases h
      · next h =>
          rw [hNumber] at h
          cases h
          rfl

theorem loadRecords_badNumber {input afterWord stopped : Text.Stream} {confirmed : ConfirmedMap}
    {clientId : Bytes} (hWord : Text.extractWord input = (some clientId, afterWord))
    (hNumber : Text.extractUint64 afterWord = (none, stopped)) :
    loadRecords input confirmed = .ok (confirmed, stopped) := by
  rw [loadRecords]
  split
  · next h =>
      rw [hWord] at h
      cases h
  · next h =>
      rw [hWord] at h
      cases h
      split
      · next h =>
          rw [hNumber] at h
          cases h
          rfl
      · next h =>
          rw [hNumber] at h
          cases h

/-- The records of a written file are read one by one. The newline of each
record is skipped as the white space before the next one. -/
theorem loadRecords_records {records : List (Bytes × UInt64)} {lead : Bytes}
    {confirmed : ConfirmedMap} (hLead : ∀ byte ∈ lead, Text.isSpace byte = true)
    (hWords : ∀ record ∈ records, IsWord record.1 ∧ record.2 ≠ 0)
    (hDistinct : (records.map Prod.fst).Nodup)
    (hNew : ∀ record ∈ records, confirmed.contains record.1 = false) :
    loadRecords { rest := lead ++ records.flatMap recordBytes } confirmed =
      .ok (confirmed.insertMany records, { rest := [], eof := true, fail := true }) := by
  induction records generalizing lead confirmed with
  | nil =>
      rw [List.flatMap_nil, List.append_nil]
      rw [loadRecords_stop (Text.extractWord_end hLead), Std.ExtTreeMap.insertMany_nil]
  | cons record rest ih =>
      obtain ⟨clientId, confirmedId⟩ := record
      rw [List.forall_mem_cons] at hWords hNew
      rw [List.map_cons, List.nodup_cons] at hDistinct
      obtain ⟨⟨⟨hNonempty, hWord⟩, hPositive⟩, hWords⟩ := hWords
      dsimp only at hNonempty hWord hPositive
      have hText : lead ++ ((clientId, confirmedId) :: rest).flatMap recordBytes =
          lead ++ (clientId ++ 32 :: (Text.decimal confirmedId.toNat ++
            Text.newline :: rest.flatMap recordBytes)) := by
        simp [recordBytes]
      rw [hText]
      have hId := Text.extractWord_append hLead hNonempty hWord
        (show ∀ byte ∈ (32 :: (Text.decimal confirmedId.toNat ++
          Text.newline :: rest.flatMap recordBytes)).head?, Text.isSpace byte = true by
          simp [Text.isSpace])
      have hNumber := Text.extractUint64_decimal
        (show ∀ byte ∈ [32], Text.isSpace byte = true by simp [Text.isSpace]) confirmedId
        (show ∀ byte ∈ (Text.newline :: rest.flatMap recordBytes).head?,
          Text.isDigit byte = false by simp [Text.isDigit, Text.newline])
      simp only [List.singleton_append] at hNumber
      simp only [List.cons_ne_nil, decide_false] at hId hNumber
      rw [loadRecords_record hId hNumber]
      rw [throwIf_of_not (by simp [hNonempty, hPositive, hNew.1])]
      change loadRecords { rest := [Text.newline] ++ rest.flatMap recordBytes } _ = _
      rw [ih (by simp [Text.isSpace, Text.newline]) hWords hDistinct.2]
      · rw [Std.ExtTreeMap.insertMany_cons]
      · intro other hMem
        have hNe : clientId ≠ other.1 := by
          intro hEq
          exact hDistinct.1 (List.mem_map.mpr ⟨other, hMem, hEq.symm⟩)
        simp [Std.ExtTreeMap.contains_insert, hNe, hNew.2 other hMem]

/-- Inserting the entries of a map into the empty map gives the map. -/
theorem insertMany_toList (values : ConfirmedMap) :
    (∅ : ConfirmedMap).insertMany values.toList = values := by
  apply Std.ExtTreeMap.ext_getElem?
  intro clientId
  cases hValue : values[clientId]? with
  | some confirmedId =>
      exact Std.ExtTreeMap.getElem?_insertMany_list_of_mem Std.ReflCmp.compare_self
        Std.ExtTreeMap.distinct_keys_toList
        (Std.ExtTreeMap.mem_toList_iff_getElem?_eq_some.mpr hValue)
  | none =>
      rw [Std.ExtTreeMap.getElem?_insertMany_list_of_contains_eq_false, Std.ExtTreeMap.getElem?_empty]
      rw [Std.ExtTreeMap.map_fst_toList_eq_keys]
      simpa using hValue

theorem nodup_toList_keys (values : ConfirmedMap) : (values.toList.map Prod.fst).Nodup := by
  rw [Std.ExtTreeMap.map_fst_toList_eq_keys]
  exact Std.ExtTreeMap.nodup_keys

/-- The entries a store may hold so that its file can be read back. -/
def Readable (values : ConfirmedMap) : Prop :=
  ∀ clientId confirmedId, values[clientId]? = some confirmedId →
    IsWord clientId ∧ confirmedId ≠ 0

theorem load_stateText {values : ConfirmedMap} (h : Readable values) :
    load (some (stateText values)) = .ok { confirmed := values } := by
  have hLine : Text.getline { rest := stateText values } =
      (some dedupMagic, { rest := values.toList.flatMap recordBytes }) := by
    have hText : stateText values =
        dedupMagic ++ Text.newline :: values.toList.flatMap recordBytes := by
      simp [stateText]
    rw [hText]
    exact Text.getline_append (by decide)
  have hWords : ∀ record ∈ values.toList, IsWord record.1 ∧ record.2 ≠ 0 := by
    intro record hMem
    exact h record.1 record.2 (Std.ExtTreeMap.mem_toList_iff_getElem?_eq_some.mp hMem)
  have hRecords : loadRecords { rest := [] ++ values.toList.flatMap recordBytes } ∅ = _ :=
    loadRecords_records (by simp) hWords (nodup_toList_keys values) (by simp)
  rw [List.nil_append, insertMany_toList] at hRecords
  simp only [load, hLine]
  rw [throwIf_of_not (by simp)]
  change (loadRecords _ _ >>= _) = _
  rw [hRecords]
  rfl

/-! Whatever the file holds, the loaded map can be written and read back. -/

theorem Readable.empty : Readable ∅ := by
  intro clientId confirmedId h
  simp at h

theorem Readable.insert {values : ConfirmedMap} {clientId : Bytes} {confirmedId : UInt64}
    (h : Readable values) (hWord : IsWord clientId) (hId : confirmedId ≠ 0) :
    Readable (values.insert clientId confirmedId) := by
  intro other otherId hGet
  rw [Std.ExtTreeMap.getElem?_insert] at hGet
  split at hGet
  · next hSame =>
      cases hGet
      rw [← Std.LawfulEqCmp.eq_of_compare hSame]
      exact ⟨hWord, hId⟩
  · exact h other otherId hGet

theorem loadRecords_readable {input stopped : Text.Stream} {confirmed result : ConfirmedMap}
    (hStart : Readable confirmed) (h : loadRecords input confirmed = .ok (result, stopped)) :
    Readable result := by
  induction hLength : input.rest.length using Nat.strong_induction_on
    generalizing input confirmed with
  | _ length ih =>
      rcases hWord : Text.extractWord input with ⟨_ | clientId, afterWord⟩
      · rw [loadRecords_stop hWord] at h
        cases h
        exact hStart
      · obtain ⟨hNonempty, hSpaces, hShorter⟩ := Text.extractWord_eq_some hWord
        rcases hNumber : Text.extractUint64 afterWord with ⟨_ | confirmedId, afterNumber⟩
        · rw [loadRecords_badNumber hWord hNumber] at h
          cases h
          exact hStart
        · rw [loadRecords_record hWord hNumber] at h
          obtain ⟨hValid, h⟩ := throwIf_bind_eq_ok_iff.mp h
          simp only [not_or] at hValid
          have hLe := Text.extractUint64_length_le afterWord
          rw [hNumber] at hLe
          exact ih _ (hLength ▸ Nat.lt_of_le_of_lt hLe hShorter)
            (hStart.insert ⟨hNonempty, hSpaces⟩ hValid.2.1) h rfl

theorem load_readable {file : Option Bytes} {store : DedupStore} (h : load file = .ok store) :
    Readable store.confirmed := by
  cases file with
  | none =>
      cases h
      exact Readable.empty
  | some data =>
      rcases hLine : Text.getline { rest := data } with ⟨_ | line, input⟩
      · simp only [load, hLine] at h
        cases h
      · simp only [load, hLine] at h
        obtain ⟨_, h⟩ := throwIf_bind_eq_ok_iff.mp h
        obtain ⟨⟨confirmed, stopped⟩, hRecords, h⟩ := bind_eq_ok_iff.mp h
        obtain ⟨_, h⟩ := throwIf_bind_eq_ok_iff.mp h
        cases pure_eq_ok_iff.mp h
        exact loadRecords_readable Readable.empty hRecords

/-! One call. -/

/-- The file is what the last change of the map wrote. -/
def Persisted (store : DedupStore) (file : Option Bytes) : Prop :=
  (file = none ∧ store.confirmed = ∅) ∨ file = some (stateText store.confirmed)

/-- A file with the text of a readable map opens to that map. -/
theorem construct_persisted {path : Bytes} {store : DedupStore} {file : Option Bytes}
    (hPath : path ≠ []) (hPersisted : Persisted store file) (hReadable : Readable store.confirmed) :
    construct path file = .ok store := by
  rw [construct, if_neg hPath]
  rcases hPersisted with ⟨rfl, hEmpty⟩ | rfl
  · obtain ⟨confirmed⟩ := store
    cases hEmpty
    rfl
  · exact load_stateText hReadable

/-- What a call does: an argument error or an old watermark changes nothing;
otherwise the save decides whether memory follows, and a save that fails after
its rename leaves the file ahead of memory. -/
theorem confirm_cases (store : DedupStore) (file : Option Bytes) (clientId : Bytes)
    (confirmedId : UInt64) (outcome : SaveOutcome) :
    (store.confirm file clientId confirmedId outcome =
        (.error (.invalidArgument "client ID and confirmed ID cannot be empty"), store, file) ∧
      (clientId = [] ∨ confirmedId = 0)) ∨
    (store.confirm file clientId confirmedId outcome =
        (.ok (store.highestConfirmed clientId), store, file) ∧
      clientId ≠ [] ∧ confirmedId ≠ 0 ∧ confirmedId ≤ store.highestConfirmed clientId) ∨
    (clientId ≠ [] ∧ confirmedId ≠ 0 ∧ store.highestConfirmed clientId < confirmedId ∧
      ((outcome = .saved ∧ store.confirm file clientId confirmedId outcome =
          (.ok confirmedId, { confirmed := store.confirmed.insert clientId confirmedId },
            some (stateText (store.confirmed.insert clientId confirmedId)))) ∨
        ∃ error, (outcome = .failedBeforeRename error ∧
            store.confirm file clientId confirmedId outcome = (.error error, store, file)) ∨
          (outcome = .failedAfterRename error ∧ store.confirm file clientId confirmedId outcome =
            (.error error, store,
              some (stateText (store.confirmed.insert clientId confirmedId)))))) := by
  by_cases hArgument : clientId = [] ∨ confirmedId = 0
  · exact Or.inl ⟨by rw [confirm, if_pos hArgument], hArgument⟩
  obtain ⟨hClient, hId⟩ := not_or.mp hArgument
  by_cases hLe : confirmedId ≤ store.highestConfirmed clientId
  · refine Or.inr (Or.inl ⟨?_, hClient, hId, hLe⟩)
    rw [confirm, if_neg hArgument]
    exact if_pos hLe
  · refine Or.inr (Or.inr ⟨hClient, hId, UInt64.not_le.mp hLe, ?_⟩)
    rw [confirm, if_neg hArgument]
    dsimp only
    rw [if_neg hLe]
    cases outcome with
    | saved => exact Or.inl ⟨rfl, rfl⟩
    | failedBeforeRename error => exact Or.inr ⟨error, Or.inl ⟨rfl, rfl⟩⟩
    | failedAfterRename error => exact Or.inr ⟨error, Or.inr ⟨rfl, rfl⟩⟩

/-- What a call with a successful save does: an argument error or an old
watermark changes nothing, otherwise the entry is set in memory and on file. -/
theorem confirm_saved_cases (store : DedupStore) (file : Option Bytes) (clientId : Bytes)
    (confirmedId : UInt64) :
    (store.confirm file clientId confirmedId .saved =
        (.error (.invalidArgument "client ID and confirmed ID cannot be empty"), store, file) ∧
      (clientId = [] ∨ confirmedId = 0)) ∨
    (store.confirm file clientId confirmedId .saved =
        (.ok (store.highestConfirmed clientId), store, file) ∧
      clientId ≠ [] ∧ confirmedId ≠ 0 ∧ confirmedId ≤ store.highestConfirmed clientId) ∨
    (store.confirm file clientId confirmedId .saved =
        (.ok confirmedId, { confirmed := store.confirmed.insert clientId confirmedId },
          some (stateText (store.confirmed.insert clientId confirmedId))) ∧
      clientId ≠ [] ∧ confirmedId ≠ 0 ∧ store.highestConfirmed clientId < confirmedId) := by
  rcases confirm_cases store file clientId confirmedId .saved with
    hArgument | hOld | ⟨hClient, hId, hLt, ⟨_, hCall⟩ | ⟨_, ⟨hSaved, _⟩ | ⟨hSaved, _⟩⟩⟩
  · exact Or.inl hArgument
  · exact Or.inr (Or.inl hOld)
  · exact Or.inr (Or.inr ⟨hCall, hClient, hId, hLt⟩)
  · cases hSaved
  · cases hSaved

theorem highestConfirmed_insert (values : ConfirmedMap) (clientId other : Bytes)
    (confirmedId : UInt64) :
    highestConfirmed { confirmed := values.insert clientId confirmedId } other =
      if clientId = other then confirmedId else highestConfirmed { confirmed := values } other := by
  unfold highestConfirmed
  rw [Std.ExtTreeMap.getElem?_insert]
  simp only [Std.compare_eq_iff_eq]
  split <;> rfl

end LogBridge.DedupStore
