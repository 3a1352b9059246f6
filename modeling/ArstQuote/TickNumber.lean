import ArstQuote.CString
import Mathlib.Algebra.Order.Ring.Int
import Mathlib.Data.List.Induction
import Mathlib.Data.List.TakeWhile

/-!
# The tick number tool

`ARSTSetTickNumber` writes a serial number into shared memory.  It looks at the
length of its argument and leaves the rest to `std::stol`, which is content
with a number at the start of the string.
-/

namespace ArstQuote

section Stol

/-- `isspace`. -/
def isSpace (byte : UInt8) : Bool :=
  byte.toNat = 32 ∨ (9 ≤ byte.toNat ∧ byte.toNat ≤ 13)

def isDigit (byte : UInt8) : Bool :=
  48 ≤ byte.toNat ∧ byte.toNat ≤ 57

/-- The number that decimal digits denote. -/
def decimalValue (digits : Bytes) : Nat :=
  digits.foldl (fun value digit => 10 * value + (digit.toNat - 48)) 0

/-- Whether a text begins with `-`, and what follows an optional sign. -/
def splitSign : Bytes → Bool × Bytes
  | 45 :: rest => (true, rest)
  | 43 :: rest => (false, rest)
  | rest => (false, rest)

/-- The digits that `stol` converts. -/
def stolDigits (text : Bytes) : Bytes :=
  (splitSign (text.dropWhile isSpace)).2.takeWhile isDigit

/-- `std::stol`, and `none` where it throws. -/
def stol (text : Bytes) : Option Int :=
  let magnitude : Int := decimalValue (stolDigits text)
  let value :=
    if (splitSign (text.dropWhile isSpace)).1 then -magnitude else magnitude
  if stolDigits text ≠ [] ∧ -2 ^ 63 ≤ value ∧ value < 2 ^ 63 then some value
  else none

end Stol

/-- `SERIAL_NUM_KEY`. -/
def serialNumKey : Nat := 13

/-- `main` with the `long` in the shared memory: the exit code and the `long`
afterwards. -/
def setTickNumber (argv : List Bytes) (pSerial : Int) : Int × Int :=
  match argv with
  | [_, _, serial] =>
      if serial.length ≠ serialNumKey then (1, pSerial)
      else
        match stol serial with
        | none => (1, pSerial)
        | some value => (0, value)
  | _ => (1, pSerial)

def AllDigits (text : Bytes) : Prop :=
  ∀ byte ∈ text, isDigit byte = true

instance (text : Bytes) : Decidable (AllDigits text) :=
  List.decidableBAll (fun byte => isDigit byte = true) text

/-- Exactly the strings of 13 digits are accepted, and set the number they
denote; all others are rejected and set nothing. -/
def SetsSerial (serial : Bytes) (before : Int) (outcome : Int × Int) : Prop :=
  if serial.length = 13 ∧ AllDigits serial then
    outcome = (0, (decimalValue serial : Int))
  else outcome.1 ≠ 0 ∧ outcome.2 = before
  deriving Decidable

/-- A number stands at the start, after optional white space and an optional
sign. -/
def BeginsWithNumber (text : Bytes) : Prop :=
  ∃ spaces sign digit rest, text = spaces ++ (sign ++ digit :: rest) ∧
    (∀ byte ∈ spaces, isSpace byte = true) ∧ sign ∈ [[], [43], [45]] ∧
    isDigit digit = true

section Digits

variable {text rest : Bytes} {byte : UInt8}

theorem isDigit_iff :
    isDigit byte = true ↔ 48 ≤ byte.toNat ∧ byte.toNat ≤ 57 :=
  decide_eq_true_iff

theorem not_isSpace_of_isDigit (digit : isDigit byte = true) :
    isSpace byte = false := by
  have bounds := isDigit_iff.mp digit
  simp only [isSpace, decide_eq_false_iff_not]
  omega

theorem splitSign_of_isDigit (digit : isDigit byte = true) :
    splitSign (byte :: rest) = (false, byte :: rest) := by
  have bounds := isDigit_iff.mp digit
  unfold splitSign
  split
  case h_1 same =>
    obtain ⟨rfl, -⟩ := List.cons.inj same
    contradiction
  case h_2 same =>
    obtain ⟨rfl, -⟩ := List.cons.inj same
    contradiction
  case h_3 => rfl

/-- A sign is one character or none. -/
theorem exists_sign (text : Bytes) :
    ∃ sign ∈ ([[], [43], [45]] : List Bytes),
      text = sign ++ (splitSign text).2 := by
  unfold splitSign
  split
  case h_1 => exact ⟨[45], by simp, rfl⟩
  case h_2 => exact ⟨[43], by simp, rfl⟩
  case h_3 => exact ⟨[], by simp, rfl⟩

theorem decimalValue_lt (digits : AllDigits text) :
    decimalValue text < 10 ^ text.length := by
  induction text using List.reverseRecOn with
  | nil => decide
  | append_singleton earlier last ih =>
      have less := ih fun byte member =>
        digits byte (List.mem_append_left _ member)
      have bounds := isDigit_iff.mp (digits last (by simp))
      have value : decimalValue (earlier ++ [last]) =
          10 * decimalValue earlier + (last.toNat - 48) := by
        simp [decimalValue]
      rw [value, List.length_append, List.length_singleton, Nat.pow_succ]
      omega

theorem splitSign_of_allDigits (digits : AllDigits text) :
    splitSign (text.dropWhile isSpace) = (false, text) := by
  cases text with
  | nil => rfl
  | cons first rest =>
      have digit := digits first (by simp)
      rw [List.dropWhile_cons_of_neg (by simp [not_isSpace_of_isDigit digit]),
        splitSign_of_isDigit digit]

/-- There is something to convert just when a number stands at the start. -/
theorem stolDigits_ne_nil_iff :
    stolDigits text ≠ [] ↔ BeginsWithNumber text := by
  constructor
  · intro found
    obtain ⟨sign, signed, after⟩ := exists_sign (text.dropWhile isSpace)
    cases unsigned : (splitSign (text.dropWhile isSpace)).2 with
    | nil => simp [stolDigits, unsigned] at found
    | cons digit rest =>
        have isDigit : isDigit digit = true := by
          by_contra other
          simp [stolDigits, unsigned, other] at found
        refine ⟨text.takeWhile isSpace, sign, digit, rest, ?_, ?_, signed,
          isDigit⟩
        · rw [← unsigned, ← after, List.takeWhile_append_dropWhile]
        · intro byte member
          exact List.mem_takeWhile_imp member
  · rintro ⟨spaces, sign, digit, rest, rfl, white, signed, isDigit⟩
    have notSpace := not_isSpace_of_isDigit isDigit
    have after : (splitSign
        ((spaces ++ (sign ++ digit :: rest)).dropWhile isSpace)).2 =
          digit :: rest := by
      rw [List.dropWhile_append_of_pos white]
      simp only [List.mem_cons, List.not_mem_nil, or_false] at signed
      rcases signed with rfl | rfl | rfl
      · rw [List.nil_append, List.dropWhile_cons_of_neg (by simp [notSpace]),
          splitSign_of_isDigit isDigit]
      · rfl
      · rfl
    simp [stolDigits, after, isDigit]

end Digits

section Serials

variable {text : Bytes}

theorem stolDigits_length_le (text : Bytes) :
    (stolDigits text).length ≤ text.length := by
  obtain ⟨sign, -, after⟩ := exists_sign (text.dropWhile isSpace)
  have signed := congrArg List.length after
  rw [List.length_append] at signed
  have digits : (stolDigits text).length ≤
      (splitSign (text.dropWhile isSpace)).2.length :=
    (List.takeWhile_prefix _).length_le
  have spaces : (text.dropWhile isSpace).length ≤ text.length :=
    (List.dropWhile_suffix _).length_le
  omega

/-- A number of at most 13 digits is in the range of a `long`. -/
theorem stol_of_short (short : text.length ≤ serialNumKey) :
    stol text =
      if stolDigits text = [] then none
      else some (if (splitSign (text.dropWhile isSpace)).1
        then -(decimalValue (stolDigits text) : Int)
        else decimalValue (stolDigits text)) := by
  have digits : AllDigits (stolDigits text) :=
    fun byte member => List.mem_takeWhile_imp member
  have less := decimalValue_lt digits
  have length : (stolDigits text).length ≤ 13 :=
    le_trans (stolDigits_length_le text) short
  have power : 10 ^ (stolDigits text).length ≤ 10 ^ 13 :=
    Nat.pow_le_pow_right (by decide) length
  unfold stol
  by_cases nothing : stolDigits text = []
  · simp [nothing]
  · rw [if_pos ⟨nothing, by split <;> omega, by split <;> omega⟩,
      if_neg nothing]

theorem stol_of_allDigits (digits : AllDigits text)
    (length : text.length = serialNumKey) :
    stol text = some (decimalValue text : Int) := by
  have unsigned := splitSign_of_allDigits digits
  have all : stolDigits text = text := by
    rw [stolDigits, unsigned]
    exact List.takeWhile_eq_self_iff.mpr digits
  have nonempty : text ≠ [] := by
    rintro rfl
    cases length
  rw [stol_of_short (le_of_eq length), all, if_neg nonempty, unsigned]
  rfl

/-- The tool treats a string as it should just when the string is not one of 13
characters, not all digits, with a number at its start. -/
theorem setTickNumber_exact_iff (program key serial : Bytes) (pSerial : Int) :
    SetsSerial serial pSerial
        (setTickNumber [program, key, serial] pSerial) ↔
      ¬ (serial.length = 13 ∧ ¬ AllDigits serial ∧ BeginsWithNumber serial) := by
  by_cases length : serial.length = 13
  · have tool : setTickNumber [program, key, serial] pSerial =
        match stol serial with
        | none => (1, pSerial)
        | some value => (0, value) := by
      simp [setTickNumber, serialNumKey, length]
    rw [tool]
    by_cases digits : AllDigits serial
    · rw [stol_of_allDigits digits length]
      simp [SetsSerial, length, digits]
    · rw [stol_of_short (le_of_eq length), ← stolDigits_ne_nil_iff]
      by_cases nothing : stolDigits serial = []
      · simp [SetsSerial, length, digits, nothing]
      · simp [SetsSerial, length, digits, nothing]
  · simp [SetsSerial, setTickNumber, serialNumKey, length]

/-- Twelve digits and a letter are taken for a serial number. -/
theorem setTickNumber_prefix :
    ¬ SetsSerial (List.replicate 12 57 ++ [120]) 1700000000000
        (setTickNumber [[], [49], List.replicate 12 57 ++ [120]]
          1700000000000) := by
  decide

end Serials

end ArstQuote
