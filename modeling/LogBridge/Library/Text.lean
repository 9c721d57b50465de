import Mathlib.Data.Nat.Digits.Defs
import Mathlib.Data.List.TakeWhile

/-! Formatted text over byte strings, as the C++ library reads and writes it in
the "C" locale: unsigned decimal output, `strtoull`, `getline` and the stream
extractors for words and unsigned 64-bit numbers. -/
namespace Text

/-- The white space of the "C" locale: tab, newline, vertical tab, form feed,
carriage return and space. -/
def isSpace (byte : UInt8) : Bool := byte = 32 || (9 ≤ byte && byte ≤ 13)

def isDigit (byte : UInt8) : Bool := 48 ≤ byte && byte ≤ 57

def newline : UInt8 := 10

def inLine (byte : UInt8) : Bool := byte ≠ newline

/-! Decimal numbers. -/

def digit (value : Nat) : UInt8 := UInt8.ofNat (48 + value)

/-- Decimal output of an unsigned number, without leading zeros. -/
def decimal (value : Nat) : List UInt8 :=
  if value = 0 then [digit 0] else ((Nat.digits 10 value).map digit).reverse

/-- Positional value of a string of digits. -/
def digitsValue (digits : List UInt8) : Nat :=
  digits.foldl (fun value byte => 10 * value + (byte.toNat - 48)) 0

theorem toNat_digit {value : Nat} (h : value < 10) : (digit value).toNat = 48 + value := by
  simp only [digit, UInt8.toNat_ofNat']
  omega

theorem isDigit_digit {value : Nat} (h : value < 10) : isDigit (digit value) = true := by
  have hToNat := toNat_digit h
  simp only [isDigit, Bool.and_eq_true, decide_eq_true_eq, UInt8.le_iff_toNat_le, hToNat,
    UInt8.toNat_ofNat]
  omega

theorem decimal_ne_nil (value : Nat) : decimal value ≠ [] := by
  unfold decimal
  split
  · simp
  · simpa using Nat.digits_ne_nil_iff_ne_zero.mpr ‹_›

theorem isDigit_of_mem_decimal {value : Nat} {byte : UInt8} (h : byte ∈ decimal value) :
    isDigit byte = true := by
  unfold decimal at h
  split at h
  · rw [List.mem_singleton.mp h]
    exact isDigit_digit (by omega)
  · rw [List.mem_reverse, List.mem_map] at h
    obtain ⟨value, hMem, rfl⟩ := h
    exact isDigit_digit (Nat.digits_lt_base (by omega) hMem)

/-- A digit string written most significant digit first has the value of its digits. -/
theorem digitsValue_reverse_digits (digits : List Nat) (h : ∀ value ∈ digits, value < 10) :
    digitsValue (digits.map digit).reverse = Nat.ofDigits 10 digits := by
  induction digits with
  | nil => rfl
  | cons value rest ih =>
      rw [List.forall_mem_cons] at h
      have hRest := ih h.2
      unfold digitsValue at hRest ⊢
      rw [List.map_cons, List.reverse_cons, List.foldl_append, hRest, Nat.ofDigits_cons]
      simp only [List.foldl_cons, List.foldl_nil, toNat_digit h.1]
      omega

@[simp] theorem digitsValue_decimal (value : Nat) : digitsValue (decimal value) = value := by
  unfold decimal
  split
  · subst_vars
    rfl
  · rw [digitsValue_reverse_digits _ fun _ hMem => Nat.digits_lt_base (by omega) hMem,
      Nat.ofDigits_digits]

theorem not_isSpace_of_isDigit {byte : UInt8} (h : isDigit byte = true) : isSpace byte = false := by
  simp only [isDigit, isSpace, Bool.and_eq_true, decide_eq_true_eq, Bool.or_eq_false_iff,
    decide_eq_false_iff_not, Bool.and_eq_false_iff, UInt8.le_iff_toNat_le, UInt8.toNat_ofNat,
    ← UInt8.toNat_inj] at *
  omega

/-! Number scanning. -/

/-- A leading sign, and whether it is a minus. -/
def splitSign : List UInt8 → Bool × List UInt8
  | 43 :: rest => (false, rest)
  | 45 :: rest => (true, rest)
  | text => (false, text)

/-- Result of scanning an unsigned 64-bit number with an optional sign. A
negative number is negated modulo `2 ^ 64`, as the C library does. -/
inductive Scan where
  | noDigits (rest : List UInt8)
  | overflow (rest : List UInt8)
  | number (value : UInt64) (rest : List UInt8)
  deriving DecidableEq, Repr

def scanUint64 (text : List UInt8) : Scan :=
  let signed := splitSign text
  let digits := signed.2.takeWhile isDigit
  let rest := signed.2.dropWhile isDigit
  if digits = [] then .noDigits rest
  else if digitsValue digits < 2 ^ 64 then
    let value := UInt64.ofNat (digitsValue digits)
    .number (if signed.1 then 0 - value else value) rest
  else .overflow rest

theorem splitSign_of_isDigit {byte : UInt8} {rest : List UInt8} (h : isDigit byte = true) :
    splitSign (byte :: rest) = (false, byte :: rest) := by
  unfold splitSign
  split
  · simp_all [isDigit]
  · simp_all [isDigit]
  · rfl

/-- The value, and the end of the number, of a decimal followed by a non-digit. -/
theorem scanUint64_decimal (value : UInt64) {rest : List UInt8}
    (hRest : ∀ byte ∈ rest.head?, isDigit byte = false) :
    scanUint64 (decimal value.toNat ++ rest) = .number value rest := by
  obtain ⟨first, others, hDecimal⟩ := List.exists_cons_of_ne_nil (decimal_ne_nil value.toNat)
  have hDigits : ∀ byte ∈ decimal value.toNat, isDigit byte = true :=
    fun _ hMem => isDigit_of_mem_decimal hMem
  have hSign : splitSign (decimal value.toNat ++ rest) = (false, decimal value.toNat ++ rest) := by
    rw [hDecimal, List.cons_append]
    exact splitSign_of_isDigit (hDigits first (by simp [hDecimal]))
  have hStop : rest.takeWhile isDigit = [] ∧ rest.dropWhile isDigit = rest := by
    cases rest with
    | nil => exact ⟨rfl, rfl⟩
    | cons byte rest => simp [hRest byte rfl]
  have hTake : (decimal value.toNat ++ rest).takeWhile isDigit = decimal value.toNat := by
    rw [List.takeWhile_append_of_pos hDigits, hStop.1, List.append_nil]
  have hDrop : (decimal value.toNat ++ rest).dropWhile isDigit = rest := by
    rw [List.dropWhile_append_of_pos hDigits, hStop.2]
  simp only [scanUint64, hSign, hTake, hDrop, decimal_ne_nil, digitsValue_decimal, if_false]
  rw [if_pos value.toNat_lt]
  simp

/-- A text is scanned to its end when it consists of an optional sign and of
digits whose value fits. -/
theorem scanUint64_eq_number_iff {text : List UInt8} {value : UInt64} :
    scanUint64 text = .number value [] ↔
      (splitSign text).2 ≠ [] ∧ (∀ byte ∈ (splitSign text).2, isDigit byte = true) ∧
        digitsValue (splitSign text).2 < 2 ^ 64 ∧
        value = if (splitSign text).1 then 0 - .ofNat (digitsValue (splitSign text).2)
          else .ofNat (digitsValue (splitSign text).2) := by
  rw [scanUint64]
  generalize splitSign text = signed
  obtain ⟨negative, digits⟩ := signed
  have hWhole : ∀ (h : ∀ byte ∈ digits, isDigit byte = true),
      digits.takeWhile isDigit = digits ∧ digits.dropWhile isDigit = [] := fun h =>
    ⟨List.takeWhile_eq_self_iff.mpr h, List.dropWhile_eq_nil_iff.mpr h⟩
  dsimp only
  constructor
  · intro h
    by_cases hEmpty : digits.takeWhile isDigit = []
    · rw [if_pos hEmpty] at h
      cases h
    by_cases hFits : digitsValue (digits.takeWhile isDigit) < 2 ^ 64
    swap
    · rw [if_neg hEmpty, if_neg hFits] at h
      cases h
    rw [if_neg hEmpty, if_pos hFits] at h
    obtain ⟨hValue, hRest⟩ := Scan.number.inj h
    have hDigits := List.dropWhile_eq_nil_iff.mp hRest
    rw [(hWhole hDigits).1] at hEmpty hFits hValue
    exact ⟨hEmpty, hDigits, hFits, hValue.symm⟩
  · rintro ⟨hNonempty, hDigits, hFits, rfl⟩
    rw [(hWhole hDigits).1, (hWhole hDigits).2, if_neg hNonempty, if_pos hFits]

/-! Streams. -/

/-- An input string stream: the unread text and the state flags. -/
structure Stream where
  rest : List UInt8
  eof : Bool := false
  fail : Bool := false
  deriving DecidableEq, Repr

/-- Reading a line removes the newline. Reading past the last newline returns
what is left and sets the end flag; reading nothing at the end fails. -/
def getline (input : Stream) : Option (List UInt8) × Stream :=
  if input.eof || input.fail then (none, { input with fail := true })
  else
    match input.rest.dropWhile inLine with
    | _ :: rest => (some (input.rest.takeWhile inLine), { rest })
    | [] =>
        if input.rest = [] then (none, { rest := [], eof := true, fail := true })
        else (some input.rest, { rest := [], eof := true })

/-- Extraction of a word: skip white space, then read up to white space. -/
def extractWord (input : Stream) : Option (List UInt8) × Stream :=
  if input.eof || input.fail then (none, { input with fail := true })
  else
    let text := input.rest.dropWhile isSpace
    if text = [] then (none, { rest := [], eof := true, fail := true })
    else
      let rest := text.dropWhile (!isSpace ·)
      (some (text.takeWhile (!isSpace ·)), { rest, eof := rest = [] })

/-- Extraction of an unsigned 64-bit number. -/
def extractUint64 (input : Stream) : Option UInt64 × Stream :=
  if input.eof || input.fail then (none, { input with fail := true })
  else
    let text := input.rest.dropWhile isSpace
    if text = [] then (none, { rest := [], eof := true, fail := true })
    else
      match scanUint64 text with
      | .noDigits rest => (none, { rest, eof := rest = [], fail := true })
      | .overflow rest => (none, { rest, eof := rest = [], fail := true })
      | .number value rest => (some value, { rest, eof := rest = [] })

theorem length_dropWhile_le (keep : UInt8 → Bool) (text : List UInt8) :
    (text.dropWhile keep).length ≤ text.length :=
  (List.dropWhile_sublist keep).length_le

theorem splitSign_length_le (text : List UInt8) : (splitSign text).2.length ≤ text.length := by
  unfold splitSign
  split <;> simp

/-- A word is never empty, so its extraction consumes input. -/
theorem extractWord_eq_some {input next : Stream} {word : List UInt8}
    (h : extractWord input = (some word, next)) :
    word ≠ [] ∧ (∀ byte ∈ word, isSpace byte = false) ∧ next.rest.length < input.rest.length := by
  by_cases hFlags : (input.eof || input.fail) = true
  · rw [extractWord, if_pos hFlags] at h
    cases h
  by_cases hEmpty : input.rest.dropWhile isSpace = []
  · simp [extractWord, hFlags, hEmpty] at h
  simp only [extractWord, hFlags, hEmpty, if_false, Bool.false_eq_true, Prod.mk.injEq,
    Option.some.injEq] at h
  obtain ⟨hWord, hNext⟩ := h
  obtain ⟨byte, rest, hText⟩ := List.exists_cons_of_ne_nil hEmpty
  have hByte : isSpace byte = false := by
    have hNot := List.head_dropWhile_not isSpace hEmpty
    simpa [hText] using hNot
  refine ⟨?_, ?_, ?_⟩
  · rw [← hWord, hText]
    simp [hByte]
  · intro other hMem
    rw [← hWord] at hMem
    simpa using List.mem_takeWhile_imp hMem
  · rw [← hNext]
    have hLe := length_dropWhile_le isSpace input.rest
    have hRest := length_dropWhile_le (!isSpace ·) rest
    rw [hText, List.length_cons] at hLe
    simp only [hText, List.dropWhile_cons, hByte, Bool.not_false, if_true]
    omega

theorem extractUint64_length_le (input : Stream) :
    (extractUint64 input).2.rest.length ≤ input.rest.length := by
  have hText := length_dropWhile_le isSpace input.rest
  have hSign := splitSign_length_le (input.rest.dropWhile isSpace)
  have hDigits := length_dropWhile_le isDigit (splitSign (input.rest.dropWhile isSpace)).2
  unfold extractUint64
  split_ifs with hFlags
  · exact le_refl _
  · dsimp only
    split_ifs with hEmpty
    · simp
    · have hScan : ∀ rest, rest = (splitSign (input.rest.dropWhile isSpace)).2.dropWhile isDigit →
          rest.length ≤ input.rest.length := by
        rintro rest rfl
        omega
      unfold scanUint64
      dsimp only
      split_ifs <;> exact hScan _ rfl

/-- Skipped white space does not change what a word extraction finds. -/
theorem extractWord_append {lead word rest : List UInt8} (hLead : ∀ byte ∈ lead, isSpace byte = true)
    (hNonempty : word ≠ []) (hWord : ∀ byte ∈ word, isSpace byte = false)
    (hRest : ∀ byte ∈ rest.head?, isSpace byte = true) :
    extractWord { rest := lead ++ (word ++ rest) } = (some word, { rest, eof := rest = [] }) := by
  have hNot : ∀ byte ∈ word, (!isSpace byte) = true := by
    intro byte hMem
    rw [hWord byte hMem]
    rfl
  have hStop : rest.takeWhile (!isSpace ·) = [] ∧ rest.dropWhile (!isSpace ·) = rest := by
    cases rest with
    | nil => exact ⟨rfl, rfl⟩
    | cons byte rest => simp [hRest byte rfl]
  have hText : (lead ++ (word ++ rest)).dropWhile isSpace = word ++ rest := by
    rw [List.dropWhile_append_of_pos hLead]
    obtain ⟨first, others, rfl⟩ := List.exists_cons_of_ne_nil hNonempty
    simp [hWord first (by simp)]
  have hTake : (word ++ rest).takeWhile (!isSpace ·) = word := by
    rw [List.takeWhile_append_of_pos hNot, hStop.1, List.append_nil]
  have hDrop : (word ++ rest).dropWhile (!isSpace ·) = rest := by
    rw [List.dropWhile_append_of_pos hNot, hStop.2]
  simp [extractWord, hText, hTake, hDrop, hNonempty]

theorem extractUint64_decimal {lead rest : List UInt8} (hLead : ∀ byte ∈ lead, isSpace byte = true)
    (value : UInt64) (hRest : ∀ byte ∈ rest.head?, isDigit byte = false) :
    extractUint64 { rest := lead ++ (decimal value.toNat ++ rest) } =
      (some value, { rest, eof := rest = [] }) := by
  obtain ⟨first, others, hDecimal⟩ := List.exists_cons_of_ne_nil (decimal_ne_nil value.toNat)
  have hMem : first ∈ decimal value.toNat := by simp [hDecimal]
  have hFirst : isSpace first = false := not_isSpace_of_isDigit (isDigit_of_mem_decimal hMem)
  have hText : (lead ++ (decimal value.toNat ++ rest)).dropWhile isSpace =
      decimal value.toNat ++ rest := by
    rw [List.dropWhile_append_of_pos hLead, hDecimal]
    simp [hFirst]
  simp [extractUint64, hText, decimal_ne_nil, scanUint64_decimal value hRest]

/-- Only white space is left: both extractors fail and set the end flag. -/
theorem extractWord_end {lead : List UInt8} (hLead : ∀ byte ∈ lead, isSpace byte = true) :
    extractWord { rest := lead } = (none, { rest := [], eof := true, fail := true }) := by
  have hText : lead.dropWhile isSpace = [] := List.dropWhile_eq_nil_iff.mpr hLead
  simp [extractWord, hText]

theorem getline_append {line rest : List UInt8} (hLine : newline ∉ line) :
    getline { rest := line ++ newline :: rest } = (some line, { rest }) := by
  have hIn : ∀ byte ∈ line, inLine byte = true := by
    intro byte hMem
    simp only [inLine, decide_eq_true_eq]
    intro hEq
    exact hLine (hEq ▸ hMem)
  have hNewline : inLine newline = false := rfl
  simp [getline, List.dropWhile_append_of_pos hIn, List.takeWhile_append_of_pos hIn, hNewline]

/-- A line that was read has no newline. -/
theorem newline_not_mem_of_getline {input next : Stream} {line : List UInt8}
    (h : getline input = (some line, next)) : newline ∉ line := by
  have hInLine : ∀ byte ∈ line, inLine byte = true := by
    by_cases hFlags : (input.eof || input.fail) = true
    · rw [getline, if_pos hFlags] at h
      cases h
    rw [getline, if_neg hFlags] at h
    cases hDrop : input.rest.dropWhile inLine with
    | cons _ _ =>
        rw [hDrop] at h
        cases h
        exact fun _ hMem => List.mem_takeWhile_imp hMem
    | nil =>
        rw [hDrop] at h
        by_cases hEmpty : input.rest = []
        · simp [hEmpty] at h
        · simp only [if_neg hEmpty] at h
          cases h
          exact List.dropWhile_eq_nil_iff.mp hDrop
  intro hMem
  exact absurd (hInLine newline hMem) (by decide)

/-- A text with newlines of its own is read up to the first of them. -/
theorem getline_takeWhile (text rest : List UInt8) :
    ∃ next, getline { rest := text ++ newline :: rest } = (some (text.takeWhile inLine), next) := by
  have hSplit := List.takeWhile_append_dropWhile (p := inLine) (l := text)
  have hLine : newline ∉ text.takeWhile inLine := by
    intro hMem
    simpa [inLine] using List.mem_takeWhile_imp hMem
  cases hDrop : text.dropWhile inLine with
  | nil =>
      rw [hDrop, List.append_nil] at hSplit
      rw [hSplit] at hLine ⊢
      exact ⟨_, getline_append hLine⟩
  | cons byte after =>
      have hByte : byte = newline := by
        have hNot := List.head_dropWhile_not inLine (l := text) (by rw [hDrop]; simp)
        simpa [hDrop, inLine] using hNot
      have hText : text ++ newline :: rest =
          text.takeWhile inLine ++ newline :: (after ++ newline :: rest) := by
        conv_lhs => rw [← hSplit, hDrop, hByte]
        simp
      rw [hText]
      exact ⟨_, getline_append hLine⟩

end Text
