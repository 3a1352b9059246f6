import Mathlib.Logic.Relation

/-!
# Moving text over borders

A text that is cut into pieces keeps its letters when text at a border moves
from the piece on the one side to the piece on the other.  Two cuts into the
same number of pieces come from each other by such moves exactly when they are
cuts of the same text.
-/

namespace BorderMoves

open Relation

variable {Symbol : Type*}

/-- Text at the front of one piece moves to the end of the piece before it. -/
inductive Move : List (List Symbol) → List (List Symbol) → Prop
  | here (left moved right : List Symbol) (rest : List (List Symbol)) :
      Move (left :: (moved ++ right) :: rest) ((left ++ moved) :: right :: rest)
  | there (piece : List Symbol) {pieces others : List (List Symbol)}
      (move : Move pieces others) : Move (piece :: pieces) (piece :: others)

/-- Any number of moves, in either direction. -/
def Recut : List (List Symbol) → List (List Symbol) → Prop :=
  EqvGen Move

section Moves

variable {pieces others : List (List Symbol)}

theorem Move.length_eq (move : Move pieces others) :
    pieces.length = others.length := by
  induction move with
  | here left moved right rest => rfl
  | there piece move ih => simpa using ih

theorem Move.flatten_eq (move : Move pieces others) :
    pieces.flatten = others.flatten := by
  induction move with
  | here left moved right rest => simp
  | there piece move ih => rw [List.flatten_cons, List.flatten_cons, ih]

/-- What no move changes is the same for all cuts. -/
theorem Recut.eq_of_move {Value : Type*} {view : List (List Symbol) → Value}
    (each : ∀ before after, Move before after → view before = view after)
    (recut : Recut pieces others) : view pieces = view others := by
  induction recut with
  | rel before after move => exact each before after move
  | refl _ => rfl
  | symm _ _ _ ih => exact ih.symm
  | trans _ _ _ _ _ first second => exact first.trans second

theorem Recut.cons (piece : List Symbol) (recut : Recut pieces others) :
    Recut (piece :: pieces) (piece :: others) := by
  induction recut with
  | rel _ _ move => exact .rel _ _ (move.there piece)
  | refl _ => exact .refl _
  | symm _ _ _ ih => exact ih.symm
  | trans _ _ _ _ _ first second => exact first.trans _ _ _ second

/-- All of the text can move into the first piece. -/
theorem recut_gathered (piece : List Symbol) (rest : List (List Symbol)) :
    Recut (piece :: rest)
      ((piece ++ rest.flatten) :: List.replicate rest.length []) := by
  induction rest generalizing piece with
  | nil =>
      rw [List.flatten_nil, List.append_nil]
      exact .refl _
  | cons next rest ih =>
      have later := (ih next).cons piece
      have moved := Move.here piece (next ++ rest.flatten) []
        (List.replicate rest.length [])
      rw [List.append_nil] at moved
      exact later.trans _ _ _ (.rel _ _ moved)

theorem recut_iff :
    Recut pieces others ↔
      pieces.length = others.length ∧ pieces.flatten = others.flatten := by
  constructor
  · intro recut
    exact ⟨recut.eq_of_move fun _ _ move => move.length_eq,
      recut.eq_of_move fun _ _ move => move.flatten_eq⟩
  · rintro ⟨lengths, texts⟩
    cases pieces with
    | nil =>
        obtain rfl := List.length_eq_zero_iff.mp lengths.symm
        exact .refl _
    | cons piece rest =>
        obtain ⟨other, more, rfl⟩ :=
          List.exists_cons_of_length_eq_add_one lengths.symm
        have gathered := recut_gathered piece rest
        rw [List.flatten_cons, List.flatten_cons] at texts
        rw [texts, Nat.succ.inj lengths] at gathered
        exact gathered.trans _ _ _ (recut_gathered other more).symm

end Moves

instance decidableRecut [DecidableEq Symbol]
    (pieces others : List (List Symbol)) : Decidable (Recut pieces others) :=
  decidable_of_iff _ recut_iff.symm

end BorderMoves
