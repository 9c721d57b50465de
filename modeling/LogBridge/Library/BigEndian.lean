import Mathlib.Data.List.Induction
import Mathlib.Tactic.Ring

/-! Fixed-width big-endian numbers over byte strings. This is a mathematical
codec: the loops of a particular encoder or decoder are compared with it. -/
namespace BigEndian

/-- The low `width` bytes of a number, most significant byte first. -/
def encode : Nat → Nat → List UInt8
  | 0, _ => []
  | width + 1, n => encode width (n / 256) ++ [UInt8.ofNat n]

/-- Numerical value of a big-endian byte string. -/
def value (bytes : List UInt8) : Nat :=
  bytes.foldl (fun n byte => 256 * n + byte.toNat) 0

@[simp] theorem encode_length (width n : Nat) : (encode width n).length = width := by
  induction width generalizing n with
  | zero => rfl
  | succ width ih => simp [encode, ih]

@[simp] theorem value_nil : value [] = 0 := rfl

@[simp] theorem value_concat (bytes : List UInt8) (byte : UInt8) :
    value (bytes ++ [byte]) = 256 * value bytes + byte.toNat := by
  simp [value]

theorem value_lt (bytes : List UInt8) : value bytes < 256 ^ bytes.length := by
  induction bytes using List.reverseRecOn with
  | nil => simp
  | append_singleton bytes byte ih =>
      have hByte : byte.toNat < 256 := byte.toNat_lt
      rw [value_concat, List.length_append, List.length_singleton, Nat.pow_succ]
      omega

/-- Numbers that fit the width survive encoding. -/
theorem value_encode {width n : Nat} (h : n < 256 ^ width) : value (encode width n) = n := by
  induction width generalizing n with
  | zero =>
      have hZero : n = 0 := by simpa using h
      simp [encode, hZero]
  | succ width ih =>
      have hDiv : n / 256 < 256 ^ width := by
        apply (Nat.div_lt_iff_lt_mul (by omega)).mpr
        simpa [Nat.pow_succ] using h
      have hLow : (UInt8.ofNat n).toNat = n % 256 := by simp
      rw [encode, value_concat, ih hDiv, hLow]
      exact Nat.div_add_mod n 256

/-- Every byte string is the code of its own value, so two codes of one width
with equal values are equal. -/
@[simp] theorem encode_value (bytes : List UInt8) : encode bytes.length (value bytes) = bytes := by
  induction bytes using List.reverseRecOn with
  | nil => rfl
  | append_singleton bytes byte ih =>
      have hByte : byte.toNat < 256 := byte.toNat_lt
      have hDiv : (256 * value bytes + byte.toNat) / 256 = value bytes := by omega
      have hLow : UInt8.ofNat (256 * value bytes + byte.toNat) = byte := by
        apply UInt8.toNat_inj.mp
        simp only [UInt8.toNat_ofNat']
        omega
      rw [value_concat, List.length_append, List.length_singleton, encode, hDiv, ih, hLow]

/-- Shifting in a byte below a shifted number is addition of that digit. -/
theorem shift_or (n byte : Nat) (h : byte < 256) : n <<< 8 ||| byte = 256 * n + byte := by
  rw [Nat.shiftLeft_eq, Nat.mul_comm]
  exact (Nat.two_pow_add_eq_or_of_lt (i := 8) h n).symm

theorem encode_eq_iff {bytes : List UInt8} {width n : Nat} (h : n < 256 ^ width) :
    bytes = encode width n ↔ bytes.length = width ∧ value bytes = n := by
  constructor
  · rintro rfl
    exact ⟨encode_length width n, value_encode h⟩
  · rintro ⟨rfl, rfl⟩
    exact (encode_value bytes).symm

/-! Word loops. A writer shifts bytes out of a machine word, a reader shifts
them in; both agree with the codec while the bytes fit the word. -/

theorem value_lt_of_length_le {bytes : List UInt8} {width : Nat} (h : bytes.length ≤ width) :
    value bytes < 256 ^ width :=
  (value_lt bytes).trans_le (Nat.pow_le_pow_right (by decide) h)

theorem toNat_shiftIn32 (bytes : List UInt8) (h : bytes.length ≤ 4) :
    (bytes.foldl (fun (n : UInt32) byte => n <<< 8 ||| byte.toUInt32) 0).toNat =
      value bytes := by
  induction bytes using List.reverseRecOn with
  | nil => rfl
  | append_singleton bytes byte ih =>
      rw [List.length_append, List.length_singleton] at h
      have hValue := value_lt_of_length_le (Nat.le_of_succ_le_succ h)
      have hShift : value bytes <<< 8 % 2 ^ 32 = value bytes <<< 8 := by
        rw [Nat.shiftLeft_eq]
        omega
      rw [List.foldl_append, value_concat]
      simp only [List.foldl_cons, List.foldl_nil, UInt32.toNat_or, UInt32.toNat_shiftLeft,
        ih (by omega), UInt8.toNat_toUInt32]
      change value bytes <<< 8 % 2 ^ 32 ||| byte.toNat = _
      rw [hShift]
      exact shift_or _ _ byte.toNat_lt

theorem toNat_shiftIn64 (bytes : List UInt8) (h : bytes.length ≤ 8) :
    (bytes.foldl (fun (n : UInt64) byte => n <<< 8 ||| byte.toUInt64) 0).toNat =
      value bytes := by
  induction bytes using List.reverseRecOn with
  | nil => rfl
  | append_singleton bytes byte ih =>
      rw [List.length_append, List.length_singleton] at h
      have hValue := value_lt_of_length_le (Nat.le_of_succ_le_succ h)
      have hShift : value bytes <<< 8 % 2 ^ 64 = value bytes <<< 8 := by
        rw [Nat.shiftLeft_eq]
        omega
      rw [List.foldl_append, value_concat]
      simp only [List.foldl_cons, List.foldl_nil, UInt64.toNat_or, UInt64.toNat_shiftLeft,
        ih (by omega), UInt8.toNat_toUInt64]
      change value bytes <<< 8 % 2 ^ 64 ||| byte.toNat = _
      rw [hShift]
      exact shift_or _ _ byte.toNat_lt

theorem toNat_shiftIn16 (high low : UInt8) :
    (high.toUInt16 <<< 8 ||| low.toUInt16).toNat = value [high, low] := by
  have hHigh : high.toNat < 256 := high.toNat_lt
  have hShift : high.toNat <<< 8 % 2 ^ 16 = high.toNat <<< 8 := by
    rw [Nat.shiftLeft_eq]
    omega
  simp only [UInt16.toNat_or, UInt16.toNat_shiftLeft, UInt8.toNat_toUInt16]
  change high.toNat <<< 8 % 2 ^ 16 ||| low.toNat = _
  rw [hShift, shift_or _ _ low.toNat_lt]
  simp [value]

theorem shiftOut16 (n : UInt16) :
    [(n >>> 8).toUInt8, n.toUInt8] = encode 2 n.toNat := by
  have hHigh : (n >>> 8).toUInt8 = UInt8.ofNat (n.toNat / 256) := by
    apply UInt8.toNat_inj.mp
    simp [UInt16.toNat_shiftRight, Nat.shiftRight_eq_div_pow]
  simp [encode, hHigh]

theorem shiftOut32 (n : UInt32) :
    ([24, 16, 8, 0] : List UInt32).map (fun shift => (n >>> shift).toUInt8) =
      encode 4 n.toNat := by
  have hByte (shift : UInt32) (h : shift.toNat < 32) :
      (n >>> shift).toUInt8 = UInt8.ofNat (n.toNat / 2 ^ shift.toNat) := by
    apply UInt8.toNat_inj.mp
    simp [UInt32.toNat_shiftRight, Nat.shiftRight_eq_div_pow, Nat.mod_eq_of_lt h]
  simp [encode, hByte, Nat.div_div_eq_div_mul]

theorem shiftOut64 (n : UInt64) :
    ([56, 48, 40, 32, 24, 16, 8, 0] : List UInt64).map (fun shift => (n >>> shift).toUInt8) =
      encode 8 n.toNat := by
  have hByte (shift : UInt64) (h : shift.toNat < 64) :
      (n >>> shift).toUInt8 = UInt8.ofNat (n.toNat / 2 ^ shift.toNat) := by
    apply UInt8.toNat_inj.mp
    simp [UInt64.toNat_shiftRight, Nat.shiftRight_eq_div_pow, Nat.mod_eq_of_lt h]
  simp [encode, hByte, Nat.div_div_eq_div_mul]

end BigEndian
