import LogBridge.WriteAheadLog.Recovery

/-! Opening a file with any content. The loop reads complete frames of a valid
list from the start. It refuses the content or stops at bytes that can be the
beginning of a frame; only those are removed. -/
namespace LogBridge.WriteAheadLog

open Checked Protocol Storage

/-- The bytes begin with a log header that declares more bytes than there are. -/
def DeclaresMore (rest : Bytes) : Prop :=
  ∃ header, parseFrameHeader rest = .ok header ∧ header.type = .log ∧
    rest.length < frameHeaderSize + header.payloadLength.toNat

/-- What the loop has found behind an offset: the frames of the messages it read,
and then the end or bytes that may be an incomplete frame. -/
structure Scanned (data : Bytes) (offset : Nat) (read : List LogMessage) (hasTruncatedTail : Bool)
    (rest : Bytes) : Prop where
  data_eq : data.drop offset = walBytes read ++ rest
  ended : hasTruncatedTail = false → rest = []
  stopped : hasTruncatedTail = true → rest ≠ [] ∧ (rest.length < frameHeaderSize ∨ DeclaresMore rest)

/-- A frame in front of what was scanned. -/
theorem Scanned.frame {data rest : Bytes} {offset : Nat} {message : LogMessage} {read : List LogMessage}
    {hasTruncatedTail : Bool} {size : Nat} (hFrame : (data.drop offset).take size = walFrame message)
    (h : Scanned data (offset + size) read hasTruncatedTail rest) :
    Scanned data offset (message :: read) hasTruncatedTail rest where
  data_eq := by
    rw [walBytes_cons, List.append_assoc, ← h.data_eq, ← hFrame, ← List.drop_drop]
    exact (List.take_append_drop size _).symm
  ended := h.ended
  stopped := h.stopped

/-- The message of an accepted frame may follow the pending ones. -/
theorem pendingValid_concat_of_checks {pending : List LogMessage} {message : LogMessage}
    (h : PendingValid pending) (hLimits : WithinLimits message)
    (hId : ¬∃ last ∈ pending.getLast?, message.id ≤ last.id)
    (hClient : ¬∃ first ∈ pending.head?, message.clientId ≠ first.clientId) :
    PendingValid (pending ++ [message]) := by
  refine h.concat hLimits ?_ ?_
  · intro other hMem
    obtain ⟨init, last, rfl⟩ := (List.eq_nil_or_concat' pending).resolve_left (List.ne_nil_of_mem hMem)
    have hLast : last.id < message.id := by
      rw [← UInt64.not_le]
      exact fun hLe => hId ⟨last, by simp, hLe⟩
    rcases List.mem_append.mp hMem with hInit | hEnd
    · have hBefore := (List.pairwise_append.mp h.idsIncreasing).2.2 other hInit last (by simp)
      exact UInt64.lt_trans hBefore hLast
    · rwa [List.mem_singleton.mp hEnd]
  · intro other hMem
    obtain ⟨first, rest, rfl⟩ := List.exists_cons_of_ne_nil (List.ne_nil_of_mem hMem)
    have hFirst : message.clientId = first.clientId := by
      by_contra hNe
      exact hClient ⟨first, rfl, hNe⟩
    rw [hFirst]
    exact h.sameClient other hMem first (List.mem_cons_self ..)

/-- Induction over the data that remains: whatever the loop returns was scanned. -/
theorem loadLoop_scanned {data : Bytes} {offset : Nat} {pending result : List LogMessage}
    {hasTruncatedTail : Bool} (hValid : PendingValid pending)
    (h : loadLoop data offset pending = .ok (result, hasTruncatedTail)) :
    ∃ read rest, result = pending ++ read ∧ PendingValid result ∧
      Scanned data offset read hasTruncatedTail rest := by
  induction hLeft : data.length - offset using Nat.strongRecOn generalizing offset pending with
  | ind left ih =>
      rw [loadLoop] at h
      by_cases hMore : offset < data.length
      · rw [dif_pos hMore] at h
        dsimp only at h
        have hNonempty : data.drop offset ≠ [] := by
          rw [ne_eq, List.drop_eq_nil_iff]
          omega
        by_cases hShort : data.length - offset < frameHeaderSize
        · rw [if_pos hShort] at h
          cases h
          have hRest : (data.drop offset).length < frameHeaderSize := by rwa [List.length_drop]
          exact ⟨[], _, by simp, hValid, rfl, (fun hNone => by cases hNone),
            fun _ => ⟨hNonempty, Or.inl hRest⟩⟩
        · rw [if_neg hShort] at h
          obtain ⟨header, hParse, h⟩ := bind_eq_ok_iff.mp h
          obtain ⟨hType, h⟩ := throwIf_bind_eq_ok_iff.mp h
          rw [not_not] at hType
          by_cases hIncomplete : data.length - offset < frameHeaderSize + header.payloadLength.toNat
          · rw [if_pos hIncomplete] at h
            cases h
            have hRest : DeclaresMore (data.drop offset) :=
              ⟨header, hParse, hType, by rwa [List.length_drop]⟩
            exact ⟨[], _, by simp, hValid, rfl, (fun hNone => by cases hNone),
              fun _ => ⟨hNonempty, Or.inr hRest⟩⟩
          · rw [if_neg hIncomplete] at h
            obtain ⟨message, hMessage, h⟩ := bind_eq_ok_iff.mp h
            obtain ⟨hId, h⟩ := throwIf_bind_eq_ok_iff.mp h
            obtain ⟨hClient, h⟩ := throwIf_bind_eq_ok_iff.mp h
            obtain ⟨hLimits, hBytes⟩ :=
              serializeLogMessage_eq_ok_iff.mp (deserializeLogMessage_eq_ok_iff.mp hMessage)
            have hNext := pendingValid_concat_of_checks hValid hLimits hId hClient
            have hSize : 0 < frameHeaderSize + header.payloadLength.toNat :=
              Nat.add_pos_left (by decide) _
            obtain ⟨read, rest, hResult, hAll, hScanned⟩ := ih _ (by omega) hNext h rfl
            exact ⟨message :: read, rest, by rw [hResult]; simp, hAll, hScanned.frame hBytes⟩
      · rw [dif_neg hMore] at h
        cases h
        have hEnd : data.drop offset = [] := List.drop_eq_nil_of_le (Nat.not_lt.mp hMore)
        exact ⟨[], [], by simp, hValid, hEnd, fun _ => rfl, fun hTail => by cases hTail⟩

/-- A file whose content is the encoding of a valid list opens to it and stays as it is. -/
theorem load_complete {file : Option Bytes} {messages : List LogMessage} (hValid : PendingValid messages)
    (hFile : readFile file = walBytes messages) (outcome : SaveOutcome) :
    load file outcome = (.ok { pending := messages }, file) := by
  have hLoop : loadLoop (readFile file) 0 [] = .ok ([] ++ messages, decide (([] : Bytes) ≠ [])) :=
    loadLoop_eq (by simpa using hFile) Torn.nil hValid
  rw [load, hLoop]
  rfl

/-- However the rewrite of an incomplete tail ends, a constructor that returns has
read a valid list, and a list that ends before the file does is written back. -/
theorem construct_loaded {path : Bytes} {file newFile : Option Bytes} {wal : WriteAheadLog}
    {outcome : SaveOutcome} (h : construct path file outcome = (.ok wal, newFile)) :
    path ≠ [] ∧ PendingValid wal.pending ∧ ∃ hasTruncatedTail rest,
      Scanned (readFile file) 0 wal.pending hasTruncatedTail rest ∧
      (hasTruncatedTail = false ∧ newFile = file ∨
        hasTruncatedTail = true ∧ wal.rewriteLocked file outcome = (.ok (), newFile)) := by
  rw [construct] at h
  split_ifs at h with hPath
  · cases h
  refine ⟨hPath, ?_⟩
  rw [load] at h
  cases hLoop : loadLoop (readFile file) 0 [] with
  | error error =>
      rw [hLoop] at h
      cases h
  | ok scanned =>
      obtain ⟨result, hasTruncatedTail⟩ := scanned
      obtain ⟨_, rest, rfl, hValid, hScanned⟩ := loadLoop_scanned PendingValid.nil hLoop
      rw [hLoop] at h
      dsimp only at h
      split_ifs at h with hTail
      · split at h
        · cases h
        · next hRewrite =>
            cases h
            exact ⟨hValid, _, rest, hScanned, .inr ⟨hTail, hRewrite⟩⟩
      · cases h
        exact ⟨hValid, _, rest, hScanned, .inl ⟨Bool.eq_false_iff.mpr hTail, rfl⟩⟩

/-- The constructor opens a file to the list it begins with, and keeps that list only. -/
theorem construct_ok {path : Bytes} {file newFile : Option Bytes} {wal : WriteAheadLog}
    (h : construct path file .saved = (.ok wal, newFile)) :
    path ≠ [] ∧ PendingValid wal.pending ∧ readFile newFile = walBytes wal.pending ∧
      ∃ rest, readFile file = walBytes wal.pending ++ rest ∧
        (rest = [] ∨ rest.length < frameHeaderSize ∨ DeclaresMore rest) := by
  obtain ⟨hPath, hValid, hasTruncatedTail, rest, hScanned, hEnd⟩ := construct_loaded h
  have hFile : readFile file = walBytes wal.pending ++ rest := hScanned.data_eq
  refine ⟨hPath, hValid, ?_⟩
  rcases hEnd with ⟨hComplete, rfl⟩ | ⟨hTorn, hRewrite⟩
  · have hNone := hScanned.ended hComplete
    exact ⟨by rw [hFile, hNone, List.append_nil], rest, hFile, .inl hNone⟩
  · rw [rewriteLocked_eq hValid.within, writeAtomically] at hRewrite
    cases hRewrite
    exact ⟨rfl, rest, hFile, .inr (hScanned.stopped hTorn).2⟩

/-- Content that is refused is refused however a save would end, and it is kept. -/
theorem construct_error {path : Bytes} {file newFile : Option Bytes} {error : Exception}
    (h : construct path file .saved = (.error error, newFile)) (outcome : SaveOutcome) :
    construct path file outcome = (.error error, file) := by
  by_cases hPath : path = []
  · rw [construct, if_pos hPath] at h ⊢
    cases h
    rfl
  rw [construct, if_neg hPath, load] at h ⊢
  cases hLoop : loadLoop (readFile file) 0 [] with
  | error other =>
      rw [hLoop] at h
      cases h
      rfl
  | ok scanned =>
      -- the rewrite of an accepted content cannot fail by itself
      obtain ⟨result, hasTruncatedTail⟩ := scanned
      obtain ⟨_, _, rfl, hValid, _⟩ := loadLoop_scanned PendingValid.nil hLoop
      rw [hLoop] at h
      cases hasTruncatedTail with
      | false => cases h
      | true =>
          simp only [if_true, rewriteLocked_eq hValid.within, writeAtomically] at h
          cases h

/-- What opening a file of any content may do. The loop itself is a total function. -/
structure LoadSafe (path : Bytes) (file : Option Bytes) : Prop where
  refused : ∀ error file', construct path file .saved = (.error error, file') →
    ∀ outcome, construct path file outcome = (.error error, file)
  recovered : ∀ wal file', construct path file .saved = (.ok wal, file') →
    ∃ encoding rest, encodePending wal.pending = .ok encoding ∧
      readFile file = encoding ++ rest ∧
      (rest = [] ∨ rest.length < frameHeaderSize ∨ DeclaresMore rest) ∧
      IdsIncreasing wal.pending ∧
      (∀ first ∈ wal.pending, ∀ second ∈ wal.pending, first.clientId = second.clientId) ∧
      readFile file' = encoding ∧ construct path file' .saved = (.ok wal, file')

/-- Over all contents of the file, crash tails and others. -/
theorem load_safe (path : Bytes) (file : Option Bytes) : LoadSafe path file where
  refused _ _ h := construct_error h
  recovered wal file' h := by
    obtain ⟨hPath, hValid, hNew, rest, hFile, hRest⟩ := construct_ok h
    refine ⟨walBytes wal.pending, rest, encodePending_eq hValid.within, hFile, hRest,
      hValid.idsIncreasing, hValid.sameClient, hNew, ?_⟩
    rw [construct, if_neg hPath]
    exact load_complete hValid hNew .saved

end LogBridge.WriteAheadLog
