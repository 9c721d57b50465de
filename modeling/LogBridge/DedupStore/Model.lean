import Std.Data.ExtTreeMap.Lemmas
import LogBridge.Library.Text
import LogBridge.Storage

/-! The store of the highest confirmed message id of each client. Its file is
text: a magic line and then one line per client with the id and the watermark. -/
namespace LogBridge

open Checked Storage

/-- The map from client ids to watermarks, in the order of the client ids. -/
abbrev ConfirmedMap := Std.ExtTreeMap Bytes UInt64

structure DedupStore where
  confirmed : ConfirmedMap := ∅

namespace DedupStore

/-- The bytes of "LGBDEDUP1". -/
def dedupMagic : Bytes := [76, 71, 66, 68, 69, 68, 85, 80, 49]

def highestConfirmed (store : DedupStore) (clientId : Bytes) : UInt64 :=
  store.confirmed[clientId]?.getD 0

/-- The line of one client in the state file. -/
def recordBytes (record : Bytes × UInt64) : Bytes :=
  record.1 ++ [32] ++ Text.decimal record.2.toNat ++ [Text.newline]

/-- The text that `persist` writes. -/
def stateText (values : ConfirmedMap) : Bytes :=
  dedupMagic ++ [Text.newline] ++ values.toList.flatMap recordBytes

def persist (file : Option Bytes) (values : ConfirmedMap) (outcome : SaveOutcome) :
    Except Exception Unit × Option Bytes :=
  writeAtomically file (stateText values) outcome

def confirm (store : DedupStore) (file : Option Bytes) (clientId : Bytes) (confirmedId : UInt64)
    (outcome : SaveOutcome) : Except Exception UInt64 × DedupStore × Option Bytes :=
  if clientId = [] ∨ confirmedId = 0 then
    (.error (.invalidArgument "client ID and confirmed ID cannot be empty"), store, file)
  else
    let current := store.highestConfirmed clientId
    if confirmedId ≤ current then (.ok current, store, file)
    else
      let updated := store.confirmed.insert clientId confirmedId
      match persist file updated outcome with
      | (.error error, file) => (.error error, store, file)
      | (.ok (), file) => (.ok confirmedId, { confirmed := updated }, file)

/-- The loop of `load`: it returns the map and the stream at which it stopped. -/
def loadRecords (input : Text.Stream) (confirmed : ConfirmedMap) :
    Except Exception (ConfirmedMap × Text.Stream) :=
  match _hWord : Text.extractWord input with
  | (none, stopped) => return (confirmed, stopped)
  | (some clientId, afterWord) =>
      match _hNumber : Text.extractUint64 afterWord with
      | (none, stopped) => return (confirmed, stopped)
      | (some confirmedId, afterNumber) => do
          throwIf (clientId = [] ∨ confirmedId = 0 ∨ confirmed.contains clientId)
            (.runtimeError "invalid dedup state record")
          loadRecords afterNumber (confirmed.insert clientId confirmedId)
termination_by input.rest.length
decreasing_by
  have hShorter := (Text.extractWord_eq_some _hWord).2.2
  have hLe := Text.extractUint64_length_le afterWord
  change (Text.extractUint64 afterWord).2.rest.length ≤ _ at hLe
  rw [_hNumber] at hLe
  change afterNumber.rest.length ≤ _ at hLe
  omega

def load (file : Option Bytes) : Except Exception DedupStore :=
  match file with
  | none => return {}
  | some data =>
      match Text.getline { rest := data } with
      | (none, _) => throw (.runtimeError "invalid dedup state file")
      | (some line, input) => do
          throwIf (line ≠ dedupMagic) (.runtimeError "invalid dedup state file")
          let (confirmed, input) ← loadRecords input ∅
          throwIf (input.eof = false) (.runtimeError "cannot parse dedup state file")
          return { confirmed }

/-- The constructor. Loading never writes. -/
def construct (path : Bytes) (file : Option Bytes) : Except Exception DedupStore :=
  if path = [] then throw (.invalidArgument "dedup state path cannot be empty")
  else load file

end DedupStore
end LogBridge
