import Mathlib.Data.List.Basic
import Mathlib.Tactic.IntervalCases
import Mathlib.Tactic.Positivity
import Mathlib.Tactic.Zify

/-!
# Formatted texts

`printf` with the few conversions `%s`, `%d`, `%0wd` and `%.0f`, and JSON
objects all of whose values are strings that need no escapes.  A text is a list
of bytes, and a finite `double` is given by its value.
-/

namespace TextFormats

/-- The bytes of ASCII characters. -/
def ascii (characters : List Char) : List UInt8 :=
  characters.map fun character => character.toNat.toUInt8

section Printf

inductive Directive
  | literal (byte : UInt8)
  | string
  | decimal (width : Nat)
  | whole
  deriving DecidableEq

inductive Argument
  | string (text : List UInt8)
  | int (value : Int)
  | double (value : Rat)

/-- The directives of a format, and `none` for a conversion that is not among
those above. -/
def directives : List Char → Option (List Directive)
  | [] => some []
  | '%' :: 's' :: rest => (directives rest).map (.string :: ·)
  | '%' :: 'd' :: rest => (directives rest).map (.decimal 0 :: ·)
  | '%' :: '0' :: width :: 'd' :: rest =>
      (directives rest).map (.decimal (width.toNat - '0'.toNat) :: ·)
  | '%' :: '.' :: '0' :: 'f' :: rest => (directives rest).map (.whole :: ·)
  | '%' :: _ => none
  | character :: rest =>
      (directives rest).map (.literal character.toNat.toUInt8 :: ·)

/-- The `-` of a negative number. -/
def sign (negative : Prop) [Decidable negative] : List UInt8 :=
  if negative then ascii ['-'] else []

/-- `%0wd`, and `%d` for the width 0. -/
def decimal (width : Nat) (value : Int) : List UInt8 :=
  let digits := ascii (Nat.toDigits 10 value.natAbs)
  sign (value < 0) ++
    List.replicate (width - ((sign (value < 0)).length + digits.length))
      '0'.toNat.toUInt8 ++ digits

/-- The magnitude of a value to the nearest integer, of two equally near ones
the even one. -/
def nearest (value : Rat) : Nat :=
  let below := value.num.natAbs / value.den
  let rest := value.num.natAbs % value.den
  if 2 * rest < value.den ∨ (2 * rest = value.den ∧ below % 2 = 0) then below
  else below + 1

/-- `%.0f`. -/
def whole (value : Rat) : List UInt8 :=
  sign (value.num < 0) ++ ascii (Nat.toDigits 10 (nearest value))

/-- The text of the directives, with the arguments that they ask for. -/
def fill : List Directive → List Argument → Option (List UInt8)
  | [], [] => some []
  | .literal byte :: rest, arguments => (fill rest arguments).map (byte :: ·)
  | .string :: rest, .string text :: arguments =>
      (fill rest arguments).map (text ++ ·)
  | .decimal width :: rest, .int value :: arguments =>
      (fill rest arguments).map (decimal width value ++ ·)
  | .whole :: rest, .double value :: arguments =>
      (fill rest arguments).map (whole value ++ ·)
  | _, _ => none

/-- `printf`, and `none` when the arguments are not those of the format. -/
def printf (format : String) (arguments : List Argument) :
    Option (List UInt8) :=
  (directives format.toList).bind fun directives => fill directives arguments

end Printf

section Json

/-- A byte that stands for itself in a JSON string: a printable ASCII character
other than `"` and the backslash. -/
def Plain (byte : UInt8) : Prop :=
  32 ≤ byte ∧ byte < 127 ∧ byte ≠ 34 ∧ byte ≠ 92
  deriving Decidable

def PlainText (text : List UInt8) : Prop :=
  ∀ byte ∈ text, Plain byte

instance (text : List UInt8) : Decidable (PlainText text) :=
  List.decidableBAll Plain text

def jsonString (text : List UInt8) : List UInt8 :=
  34 :: (text ++ [34])

def jsonMember (member : List UInt8 × List UInt8) : List UInt8 :=
  jsonString member.1 ++ 58 :: jsonString member.2

def jsonObject (members : List (List UInt8 × List UInt8)) : List UInt8 :=
  123 :: (List.intercalate [44] (members.map jsonMember) ++ [125])

/-- The text is a JSON object of strings without escapes. -/
def IsJsonObject (text : List UInt8) : Prop :=
  ∃ members : List (List UInt8 × List UInt8),
    (∀ member ∈ members, PlainText member.1 ∧ PlainText member.2) ∧
      text = jsonObject members

end Json

section Lengths

@[simp]
theorem ascii_length (characters : List Char) :
    (ascii characters).length = characters.length :=
  List.length_map _

theorem toDigits_length_le {count : Nat} {value : Int} (positive : 0 < count)
    (nonnegative : 0 ≤ value) (less : value < 10 ^ count) :
    (Nat.toDigits 10 value.natAbs).length ≤ count := by
  rw [Nat.length_toDigits_le_iff (by decide) positive]
  zify
  rwa [abs_of_nonneg nonnegative]

theorem decimal_length_eq_max (width : Nat) {value : Int}
    (nonnegative : 0 ≤ value) :
    (decimal width value).length =
      max width (Nat.toDigits 10 value.natAbs).length := by
  simp only [decimal, sign, not_lt.mpr nonnegative, if_false,
    List.length_append, List.length_replicate, ascii_length, List.length_nil]
  omega

/-- A number that fills the width, or needs fewer digits, takes up just the
width. -/
theorem decimal_length {width : Nat} {value : Int} (positive : 0 < width)
    (nonnegative : 0 ≤ value) (less : value < 10 ^ width) :
    (decimal width value).length = width := by
  have few := toDigits_length_le positive nonnegative less
  rw [decimal_length_eq_max width nonnegative]
  omega

theorem decimal_length_le {width count : Nat} {value : Int}
    (positive : 0 < count) (wide : width ≤ count) (nonnegative : 0 ≤ value)
    (less : value < 10 ^ count) : (decimal width value).length ≤ count := by
  have few := toDigits_length_le positive nonnegative less
  rw [decimal_length_eq_max width nonnegative]
  omega

/-- A number that needs all of the digits takes up just these without a
width. -/
theorem decimal_zero_length {digits : Nat} {value : Int}
    (most : 10 ^ digits ≤ value) (less : value < 10 ^ (digits + 1)) :
    (decimal 0 value).length = digits + 1 := by
  have nonnegative : 0 ≤ value := le_trans (by positivity) most
  have few := toDigits_length_le (Nat.succ_pos digits) nonnegative less
  have many : ¬ (Nat.toDigits 10 value.natAbs).length ≤ digits := by
    cases digits with
    | zero => simp [Nat.toDigits_ne_nil]
    | succ digits =>
        rw [Nat.length_toDigits_le_iff (by decide) (Nat.succ_pos digits)]
        zify
        rw [abs_of_nonneg nonnegative]
        omega
  rw [decimal_length_eq_max 0 nonnegative]
  omega

end Lengths

section PlainTexts

variable {text more : List UInt8}

theorem PlainText.append (plain : PlainText text) (others : PlainText more) :
    PlainText (text ++ more) := by
  intro byte member
  rcases List.mem_append.mp member with first | second
  · exact plain byte first
  · exact others byte second

theorem PlainText.zero_not_mem (plain : PlainText text) : 0 ∉ text := by
  intro member
  exact absurd (plain 0 member) (by decide)

theorem ascii_plain {characters : List Char}
    (digits : ∀ character ∈ characters, character.isDigit) :
    PlainText (ascii characters) := by
  intro byte member
  obtain ⟨character, inside, rfl⟩ := List.mem_map.mp member
  have digit := digits character inside
  simp only [Char.isDigit, Bool.and_eq_true, decide_eq_true_eq] at digit
  obtain ⟨least, most⟩ := digit
  have lower : 48 ≤ character.toNat := least
  have upper : character.toNat ≤ 57 := most
  generalize character.toNat = code at lower upper ⊢
  interval_cases code <;> decide

theorem sign_plain (negative : Prop) [Decidable negative] :
    PlainText (sign negative) := by
  unfold sign
  split <;> decide

theorem toDigits_plain (number : Nat) :
    PlainText (ascii (Nat.toDigits 10 number)) :=
  ascii_plain fun _ member =>
    Nat.isDigit_of_mem_toDigits (by decide) (by decide) member

theorem decimal_plain (width : Nat) (value : Int) :
    PlainText (decimal width value) := by
  have padding (count : Nat) :
      PlainText (List.replicate count '0'.toNat.toUInt8) := by
    intro byte member
    rw [List.eq_of_mem_replicate member]
    decide
  exact ((sign_plain _).append (padding _)).append (toDigits_plain _)

theorem whole_plain (value : Rat) : PlainText (whole value) :=
  (sign_plain _).append (toDigits_plain _)

theorem zero_not_mem_jsonString (plain : PlainText text) :
    0 ∉ jsonString text := by
  simp [jsonString, plain.zero_not_mem]

theorem zero_not_mem_jsonMember {member : List UInt8 × List UInt8}
    (plain : PlainText member.1 ∧ PlainText member.2) :
    0 ∉ jsonMember member := by
  simp [jsonMember, zero_not_mem_jsonString plain.1,
    zero_not_mem_jsonString plain.2]

theorem zero_not_mem_intercalate {separator : List UInt8}
    (separated : 0 ∉ separator) {parts : List (List UInt8)}
    (each : ∀ part ∈ parts, 0 ∉ part) :
    0 ∉ List.intercalate separator parts := by
  induction parts with
  | nil => simp
  | cons part parts ih =>
      rw [List.forall_mem_cons] at each
      cases parts with
      | nil => simpa using each.1
      | cons next parts =>
          rw [List.intercalate_cons_cons]
          simp only [List.mem_append, not_or]
          exact ⟨⟨each.1, separated⟩, ih each.2⟩

theorem IsJsonObject.zero_not_mem (object : IsJsonObject text) : 0 ∉ text := by
  obtain ⟨members, plain, rfl⟩ := object
  have each : ∀ part ∈ members.map jsonMember, 0 ∉ part := by
    intro part inside
    obtain ⟨member, found, rfl⟩ := List.mem_map.mp inside
    exact zero_not_mem_jsonMember (plain member found)
  have inner : 0 ∉ List.intercalate [44] (members.map jsonMember) :=
    zero_not_mem_intercalate (by decide) each
  simp [jsonObject, inner]

end PlainTexts

end TextFormats
