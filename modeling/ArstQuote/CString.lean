import ArstQuote.DelimitedTokens
import Mathlib.Data.List.TakeWhile

/-!
# C strings in fixed arrays

The relay keeps its messages in arrays of a fixed size and handles them with
the C string functions.  An array is a list of bytes here, and every function
that scans or writes one returns `none` when it would leave the array.
-/

namespace ArstQuote

/-- The contents of a `char` array. -/
abbrev Bytes := List UInt8

/-- The comparison of keys, named once for the membership tests of all
modules. -/
instance lawfulBEqBytes : LawfulBEq Bytes := inferInstance

namespace CString

open DelimitedTokens

/-- `','`, the delimiter of the quote messages. -/
def comma : UInt8 := 44

/-- `memset(array, 0, size)` on a whole array. -/
def zeroed (size : Nat) : Bytes :=
  List.replicate size 0

/-- The C string that starts at an offset of an array; `none` when no NUL
follows, so that reading the string leaves the array. -/
def stringAt (array : Bytes) (start : Nat) : Option Bytes :=
  if 0 ∈ array.drop start then
    some ((array.drop start).takeWhile (· ≠ 0))
  else none

def strlen (array : Bytes) : Option Nat :=
  (stringAt array 0).map List.length

/-- `memcpy(array + start, source, source.length)`. -/
def memcpy (array : Bytes) (start : Nat) (source : Bytes) : Option Bytes :=
  if start + source.length ≤ array.length then
    some (array.take start ++ source ++ array.drop (start + source.length))
  else none

/-- `strcpy(array + start, source)`: the string with its NUL. -/
def strcpy (array : Bytes) (start : Nat) (source : Bytes) : Option Bytes :=
  (stringAt source 0).bind fun text => memcpy array start (text ++ [0])

/-- What a call of `strtok` leaves behind: the array, which now may hold one
NUL more, the saved position, and the token, as an offset into the array. -/
structure Strtok where
  array : Bytes
  saved : Nat
  token : Option Nat

/-- `strtok` from a position of an array: skip delimiters, end the token that
follows with a NUL, and save the position after it. -/
def strtok (array : Bytes) (start : Nat) (delimiter : UInt8) :
    Option Strtok :=
  (stringAt array start).map fun text =>
    let skipped := (text.takeWhile (· = delimiter)).length
    let word := ((text.drop skipped).takeWhile (· ≠ delimiter)).length
    let stop := start + skipped + word
    if word = 0 then ⟨array, start + skipped, none⟩
    else if skipped + word = text.length then
      ⟨array, stop, some (start + skipped)⟩
    else ⟨array.set stop 0, stop + 1, some (start + skipped)⟩

@[simp]
theorem zeroed_length (size : Nat) : (zeroed size).length = size :=
  List.length_replicate

/-- A string followed by its NUL is read back, whatever stands around it. -/
theorem stringAt_append {text : Bytes} (clean : 0 ∉ text)
    (before after : Bytes) :
    stringAt (before ++ (text ++ 0 :: after)) before.length = some text := by
  have whole : (text ++ 0 :: after).takeWhile (· ≠ 0) = text := by
    rw [List.takeWhile_append_of_pos]
    · simp
    · intro byte member
      simpa using fun zero : byte = 0 => clean (zero ▸ member)
  rw [stringAt, List.drop_left, if_pos (by simp), whole]

/-- An array in which a string can be read has that string and its NUL at the
position read. -/
theorem exists_of_stringAt {array text : Bytes} {start : Nat}
    (read : stringAt array start = some text) :
    ∃ before after, array = before ++ (text ++ 0 :: after) ∧
      before.length = start ∧ 0 ∉ text := by
  unfold stringAt at read
  split at read
  case isFalse => simp at read
  case isTrue zeroMem =>
    obtain ⟨clean, after, tailEq, absent⟩ :=
      List.eq_append_cons_of_mem zeroMem
    have textEq : text = clean := by
      have back := stringAt_append absent [] after
      rw [List.nil_append, List.length_nil, stringAt, List.drop_zero,
        ← tailEq, if_pos zeroMem] at back
      exact Option.some.inj (read.symm.trans back)
    have startLe : start ≤ array.length := by
      by_contra beyond
      rw [List.drop_eq_nil_of_le (by omega)] at zeroMem
      cases zeroMem
    refine ⟨array.take start, after, ?_, by simp [startLe], textEq ▸ absent⟩
    rw [textEq, ← tailEq, List.take_append_drop]

theorem length_lt_of_stringAt {array text : Bytes} {start : Nat}
    (read : stringAt array start = some text) :
    start + text.length < array.length := by
  obtain ⟨before, after, rfl, rfl, -⟩ := exists_of_stringAt read
  simp

/-- Copying a string over the start of a zeroed array. -/
theorem strcpy_of_stringAt {array source text : Bytes} {start : Nat}
    (read : stringAt source 0 = some text)
    (fits : start + text.length < array.length) :
    strcpy array start source = some (array.take start ++ (text ++ [0]) ++
      array.drop (start + text.length + 1)) := by
  rw [strcpy, read, Option.bind_some, memcpy, if_pos (by simp; omega)]
  simp [Nat.add_assoc]

private theorem takeWhile_skipped {delimiter : UInt8} {token : Bytes}
    (absent : delimiter ∉ token) (nonempty : token ≠ []) (skipped : Nat)
    (rest : Bytes) :
    (List.replicate skipped delimiter ++ (token ++ rest)).takeWhile
        (· = delimiter) = List.replicate skipped delimiter := by
  rw [List.takeWhile_append_of_pos (by simp)]
  cases token with
  | nil => contradiction
  | cons byte bytes =>
      have differs : byte ≠ delimiter := fun equal => absent (by simp [equal])
      simp [differs]

private theorem takeWhile_word {delimiter : UInt8} {token : Bytes}
    (absent : delimiter ∉ token) {rest : Bytes}
    (ends : rest.takeWhile (· ≠ delimiter) = []) :
    (token ++ rest).takeWhile (· ≠ delimiter) = token := by
  rw [List.takeWhile_append_of_pos, ends, List.append_nil]
  intro byte member
  simpa using fun equal : byte = delimiter => absent (equal ▸ member)

/-- Without a token left, `strtok` saves the position of the final NUL. -/
theorem strtok_none {array text : Bytes} {start : Nat} {delimiter : UInt8}
    (read : stringAt array start = some text)
    (stopped : nextToken delimiter text = none) :
    ∃ saved, strtok array start delimiter = some ⟨array, saved, none⟩ ∧
      stringAt array saved = some [] := by
  have allSkipped : text.takeWhile (· = delimiter) = text := by
    rw [List.takeWhile_eq_self_iff, ← List.dropWhile_eq_nil_iff]
    unfold nextToken at stopped
    split at stopped
    · assumption
    · simp at stopped
  refine ⟨start + text.length, ?_, ?_⟩
  · simp only [strtok, read, Option.map_some, allSkipped, List.drop_length]
    simp
  · obtain ⟨before, after, rfl, rfl, -⟩ := exists_of_stringAt read
    simpa using stringAt_append List.not_mem_nil (before ++ text) after

private theorem strtok_eq {array token tail : Bytes} {start skipped : Nat}
    {delimiter : UInt8}
    (read : stringAt array start =
      some (List.replicate skipped delimiter ++ (token ++ tail)))
    (absent : delimiter ∉ token) (nonempty : token ≠ [])
    (ends : tail.takeWhile (· ≠ delimiter) = []) :
    strtok array start delimiter = some
      (if tail = [] then
        ⟨array, start + skipped + token.length, some (start + skipped)⟩
      else
        ⟨array.set (start + skipped + token.length) 0,
          start + skipped + token.length + 1, some (start + skipped)⟩) := by
  have positive : token.length ≠ 0 :=
    fun zero => nonempty (List.length_eq_zero_iff.mp zero)
  simp only [strtok, read, Option.map_some,
    takeWhile_skipped absent nonempty, List.length_replicate,
    List.drop_left' List.length_replicate, takeWhile_word absent ends,
    positive, if_false]
  cases tail <;> simp

/-- A step of the list tokenizer is what `strtok` does to the array: the token
and the rest can be read at the positions it returns. -/
theorem strtok_some {array text token rest : Bytes} {start : Nat}
    {delimiter : UInt8} (read : stringAt array start = some text)
    (stepped : nextToken delimiter text = some (token, rest)) :
    ∃ array' saved first,
      strtok array start delimiter = some ⟨array', saved, some first⟩ ∧
        array'.length = array.length ∧ stringAt array' first = some token ∧
        stringAt array' saved = some rest := by
  obtain ⟨before, after, arrayEq, startEq, clean⟩ := exists_of_stringAt read
  obtain ⟨skipped, absent, nonempty, ⟨rfl, rfl⟩ | rfl⟩ :=
    split_of_nextToken stepped
  · have tokenClean : 0 ∉ token := fun member => clean (by simp [member])
    rw [← List.append_nil token] at read
    refine ⟨_, _, _, strtok_eq read absent nonempty rfl, rfl, ?_, ?_⟩
    · have back := stringAt_append tokenClean
        (before ++ List.replicate skipped delimiter) after
      simpa [arrayEq, startEq] using back
    · have back := stringAt_append List.not_mem_nil
        (before ++ List.replicate skipped delimiter ++ token) after
      simpa [arrayEq, startEq, Nat.add_assoc] using back
  · have tokenClean : 0 ∉ token := fun member => clean (by simp [member])
    have restClean : 0 ∉ rest := fun member => clean (by simp [member])
    have written : array.set (start + skipped + token.length) 0 =
        before ++ List.replicate skipped delimiter ++
          (token ++ 0 :: (rest ++ 0 :: after)) := by
      have position : start + skipped + token.length =
          (before ++ List.replicate skipped delimiter ++ token).length := by
        simp [startEq, Nat.add_assoc]
      have shape : array = (before ++ List.replicate skipped delimiter ++
          token) ++ delimiter :: (rest ++ 0 :: after) := by
        simp [arrayEq]
      rw [position, shape, List.set_append_right _ _ le_rfl]
      simp
    refine ⟨_, _, _, strtok_eq read absent nonempty (by simp), ?_, ?_, ?_⟩
    · simp
    · have back := stringAt_append tokenClean
        (before ++ List.replicate skipped delimiter)
        (rest ++ 0 :: after)
      simpa [written, startEq] using back
    · have back := stringAt_append restClean
        (before ++ List.replicate skipped delimiter ++ token ++ [0]) after
      have position : start + skipped + token.length + 1 =
          (before ++ List.replicate skipped delimiter ++ token ++
            [0]).length := by
        simp [startEq, Nat.add_assoc]
      rw [written, position]
      simpa using back

end CString

end ArstQuote
