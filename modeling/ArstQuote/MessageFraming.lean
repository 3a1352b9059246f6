import Mathlib.Data.List.Infix
import Mathlib.Data.List.Nodup

/-!
# Streams framed into messages

A stream is framed when it consists of whole messages out of a numbered list,
none taken twice, and perhaps a proper beginning of one more.  Being framed is
kept when messages are added to the list and when the open message is
continued.
-/

namespace MessageFraming

variable {Symbol : Type*} {messages : List (List Symbol)}
  {numbers : List Nat} {stream : List Symbol}

/-- The messages with the given numbers, one after the other. -/
def spell (messages : List (List Symbol)) (numbers : List Nat) : List Symbol :=
  (numbers.map fun number => messages[number]?.getD []).flatten

/-- Numbers of messages in the list, none of them twice. -/
structure Selects (messages : List (List Symbol)) (numbers : List Nat) :
    Prop where
  nodup : numbers.Nodup
  known : ∀ number ∈ numbers, number < messages.length

/-- Whole messages, each at most once, and at most one proper prefix of
another, at the end. -/
def Framed (messages : List (List Symbol)) (stream : List Symbol) : Prop :=
  ∃ numbers tail, Selects messages numbers ∧
    stream = spell messages numbers ++ tail ∧
    (tail = [] ∨ ∃ number message, number ∉ numbers ∧
      messages[number]? = some message ∧ tail <+: message ∧ tail ≠ message)

@[simp]
theorem spell_nil (messages : List (List Symbol)) : spell messages [] = [] :=
  rfl

theorem spell_snoc {number : Nat} {message : List Symbol}
    (found : messages[number]? = some message) (numbers : List Nat) :
    spell messages (numbers ++ [number]) = spell messages numbers ++ message := by
  simp [spell, found]

theorem getElem?_push {number : Nat} {message : List Symbol}
    (found : messages[number]? = some message) (more : List Symbol) :
    (messages ++ [more])[number]? = some message := by
  rw [List.getElem?_append_left (List.getElem?_eq_some_iff.mp found).1]
  exact found

theorem Selects.nil (messages : List (List Symbol)) : Selects messages [] :=
  ⟨List.nodup_nil, by simp⟩

theorem Selects.push (selects : Selects messages numbers)
    (more : List Symbol) : Selects (messages ++ [more]) numbers where
  nodup := selects.nodup
  known number member := by
    have known := selects.known number member
    simp
    omega

theorem Selects.spell_push (selects : Selects messages numbers)
    (more : List Symbol) :
    spell (messages ++ [more]) numbers = spell messages numbers := by
  unfold spell
  congr 1
  apply List.map_congr_left
  intro number member
  rw [List.getElem?_append_left (selects.known number member)]

theorem Selects.snoc {number : Nat} {message : List Symbol}
    (selects : Selects messages numbers) (other : number ∉ numbers)
    (found : messages[number]? = some message) :
    Selects messages (numbers ++ [number]) where
  nodup := by
    apply selects.nodup.append (List.nodup_singleton number)
    simpa using other
  known := by
    intro index member
    rcases List.mem_append.mp member with old | new
    · exact selects.known index old
    · rw [List.mem_singleton.mp new]
      exact (List.getElem?_eq_some_iff.mp found).1

theorem Selects.framed (selects : Selects messages numbers)
    (spells : stream = spell messages numbers) : Framed messages stream :=
  ⟨numbers, [], selects, by simp [spells], Or.inl rfl⟩

theorem Framed.push (framed : Framed messages stream) (more : List Symbol) :
    Framed (messages ++ [more]) stream := by
  obtain ⟨numbers, tail, selects, spells, rest⟩ := framed
  refine ⟨numbers, tail, selects.push more, ?_, ?_⟩
  · rw [selects.spell_push]
    exact spells
  · rcases rest with empty | ⟨number, message, other, found, isPrefix, proper⟩
    · exact Or.inl empty
    · exact Or.inr ⟨number, message, other, getElem?_push found more, isPrefix,
        proper⟩

/-- A framed stream starts like one of the messages. -/
theorem Framed.exists_prefix (framed : Framed messages stream)
    (nonempty : stream ≠ []) :
    ∃ message ∈ messages, message <+: stream ∨ stream <+: message := by
  obtain ⟨numbers, tail, selects, spells, rest⟩ := framed
  cases numbers with
  | nil =>
      rw [spell_nil, List.nil_append] at spells
      rcases rest with empty | ⟨number, message, -, found, isPrefix, -⟩
      · exact absurd (spells.trans empty) nonempty
      · rw [← spells] at isPrefix
        exact ⟨message, List.mem_of_getElem? found, Or.inr isPrefix⟩
  | cons number numbers =>
      have known := selects.known number (by simp)
      have found := List.getElem?_eq_getElem known
      refine ⟨messages[number], List.getElem_mem known, Or.inl ?_⟩
      rw [spells, spell, List.map_cons, List.flatten_cons, found,
        Option.getD_some, List.append_assoc]
      exact List.prefix_append _ _

end MessageFraming
