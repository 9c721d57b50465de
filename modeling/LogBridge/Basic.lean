import Mathlib.Algebra.Group.Nat.Defs
import Mathlib.Tactic.Common
import LogBridge.Library.Checked

/-! Byte strings, log messages and the exceptions the program throws. -/
namespace LogBridge

/-- A `std::string` or a byte buffer. -/
abbrev Bytes := List UInt8

/-- The bytes of a path as they appear in an error text. -/
def pathText (path : Bytes) : String := String.ofList (path.map fun byte => Char.ofNat byte.toNat)

/-- The exception types of the program with their texts. `systemError` is the
`std::system_error` built from `errno`. -/
inductive Exception where
  | protocolError (what : String)
  | runtimeError (what : String)
  | invalidArgument (what : String)
  | overflowError (what : String)
  | outOfRange (what : String)
  | logicError (what : String)
  | systemError (what : String)
  /-- Not an exception: the code indexed a span or a vector outside its bounds. -/
  | outOfBounds
  deriving DecidableEq, Repr

/-- One complete log message as it passes through the program. -/
structure LogMessage where
  id : UInt64 := 0
  clientId : Bytes := []
  timestampMs : Int64 := 0
  source : Bytes := []
  content : Bytes := []
  deriving DecidableEq, Repr

/-- The characters from which `generateClientId` builds an id. -/
def hexDigits : Bytes :=
  [48, 49, 50, 51, 52, 53, 54, 55, 56, 57, 97, 98, 99, 100, 101, 102]

/-- An id in the form of `generateClientId`: 32 hexadecimal characters. -/
def IsGenerated (clientId : Bytes) : Prop :=
  clientId.length = 32 ∧ ∀ byte ∈ clientId, byte ∈ hexDigits

instance (clientId : Bytes) : Decidable (IsGenerated clientId) :=
  decidable_of_iff (clientId.length = 32 ∧ clientId.all hexDigits.contains = true)
    (by simp [IsGenerated])

/-- Subtraction of `std::size_t` values, which wraps around. -/
def sizeSub (a b : Nat) : Nat := (a + 2 ^ 64 - b) % 2 ^ 64

theorem sizeSub_eq {a b : Nat} (hLe : b ≤ a) (hLt : a < 2 ^ 64) : sizeSub a b = a - b := by
  unfold sizeSub
  omega

end LogBridge
