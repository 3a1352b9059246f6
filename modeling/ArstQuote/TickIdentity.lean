import ArstQuote.BorderMoves
import ArstQuote.DedupKey

/-!
# When equal keys mean equal ticks

The fields of a tick are counted by its commas, the tokens of its key by
`strtok`, which passes over empty fields and puts nothing between the tokens
it appends.  Two messages can therefore share a key although they differ in
price, volume or epoch: their texts may be one text cut at different places,
or an empty field may have moved the numbering.  These are the only ways.
-/

namespace ArstQuote

open BorderMoves CString DelimitedTokens

/-- The comma-separated field at a position, empty fields counted. -/
def fieldAt (message : Bytes) (position : Nat) : Option Bytes :=
  (fields comma message)[position]?

/-- The same price, volume and epoch; an absent field equals only an absent
field. -/
def SameTick (first second : Bytes) : Prop :=
  ∀ position ∈ [pricePos, volumePos, epochPos],
    fieldAt first position = fieldAt second position

instance (first second : Bytes) : Decidable (SameTick first second) :=
  inferInstanceAs (Decidable (∀ _ ∈ _, _))

/-- The texts of three of the fields of a message, those with the numbers of
price, volume and epoch. -/
def tickPieces (parts : List Bytes) : List Bytes :=
  [pricePos, volumePos, epochPos].map fun position => parts[position]?.getD []

/-- None of the first nine fields is empty. -/
def Gapless (message : Bytes) : Prop :=
  ∀ field ∈ (fields comma message).take 9, field ≠ []

instance (message : Bytes) : Decidable (Gapless message) :=
  inferInstanceAs (Decidable (∀ _ ∈ _, _))

/-- Prices, volumes and epochs that differ, but only by text that has moved over
the borders between them. -/
def Resplit (first second : Bytes) : Prop :=
  Gapless first ∧ Gapless second ∧
    tickPieces (fields comma first) ≠ tickPieces (fields comma second) ∧
    Recut (tickPieces (fields comma first)) (tickPieces (fields comma second))

/-- Messages with a gap that differ in price, volume or epoch, but agree, up to
text moved over borders, in the fields that have these numbers when the empty
ones are passed over. -/
def Misnumbered (first second : Bytes) : Prop :=
  ¬ (Gapless first ∧ Gapless second) ∧
    (∃ position ∈ [pricePos, volumePos, epochPos],
      fieldAt first position ≠ fieldAt second position) ∧
    Recut (tickPieces ((fields comma first).filter (· ≠ [])))
      (tickPieces ((fields comma second).filter (· ≠ [])))

instance (first second : Bytes) : Decidable (Resplit first second) :=
  inferInstanceAs (Decidable (_ ∧ _ ∧ _ ∧ _))

instance (first second : Bytes) : Decidable (Misnumbered first second) :=
  inferInstanceAs (Decidable (_ ∧ (∃ _ ∈ _, _) ∧ _))

/-- Neither a border nor a gap makes one message look like the other. -/
def ToldApart (first second : Bytes) : Prop :=
  ¬ Resplit first second ∧ ¬ Misnumbered first second

instance (first second : Bytes) : Decidable (ToldApart first second) :=
  inferInstanceAs (Decidable (_ ∧ _))

/-- The key is the text of which the nonempty fields are the pieces. -/
theorem dedupKey_eq_flatten (message : Bytes) :
    dedupKey message = (tickPieces (tokens comma message)).flatten := by
  rw [dedupKey_eq]
  simp [tickPieces, tokenAt]

theorem recut_tickPieces_iff (first second : Bytes) :
    Recut (tickPieces (tokens comma first))
        (tickPieces (tokens comma second)) ↔
      dedupKey first = dedupKey second := by
  rw [recut_iff, dedupKey_eq_flatten, dedupKey_eq_flatten]
  simp [tickPieces]

theorem mem_tickPositions {position : Nat}
    (member : position ∈ [pricePos, volumePos, epochPos]) : position < 9 := by
  simp only [pricePos, volumePos, epochPos, List.mem_cons, List.not_mem_nil,
    or_false] at member
  omega

/-- Without a gap `strtok` counts as the commas do. -/
theorem Gapless.getElem?_tokens {message : Bytes} (gapless : Gapless message)
    {position : Nat} (early : position < 9) :
    (tokens comma message)[position]? = fieldAt message position := by
  have kept : ((fields comma message).take 9).filter (· ≠ []) =
      (fields comma message).take 9 := by
    rw [List.filter_eq_self]
    simpa [Gapless] using gapless
  have split : tokens comma message = (fields comma message).take 9 ++
      ((fields comma message).drop 9).filter (· ≠ []) := by
    rw [← kept, ← List.filter_append, List.take_append_drop]
    rfl
  unfold fieldAt
  rw [split]
  by_cases present : position < (fields comma message).length
  · rw [List.getElem?_append_left (by simp; omega),
      List.getElem?_take_of_lt early]
  · have short : (fields comma message).length ≤ 9 := by omega
    rw [List.drop_eq_nil_of_le short, List.take_of_length_le short]
    simp

theorem Gapless.tickPieces_tokens {message : Bytes}
    (gapless : Gapless message) :
    tickPieces (tokens comma message) = tickPieces (fields comma message) := by
  unfold tickPieces
  apply List.map_congr_left
  intro position member
  rw [gapless.getElem?_tokens (mem_tickPositions member)]
  rfl

/-- A field that is not empty is known by its text. -/
theorem Gapless.fieldAt_eq_iff {first second : Bytes}
    (firstGapless : Gapless first) (secondGapless : Gapless second)
    {position : Nat} (early : position < 9) :
    fieldAt first position = fieldAt second position ↔
      (fieldAt first position).getD [] = (fieldAt second position).getD [] := by
  have nonempty : ∀ {message : Bytes}, Gapless message →
      fieldAt message position ≠ some [] := by
    intro message gapless empty
    have member : [] ∈ (fields comma message).take 9 := by
      have found : ((fields comma message).take 9)[position]? = some [] :=
        (List.getElem?_take_of_lt early).trans empty
      exact List.mem_of_getElem? found
    exact gapless [] member rfl
  have firstNonempty := nonempty firstGapless
  have secondNonempty := nonempty secondGapless
  cases firstField : fieldAt first position <;>
    cases secondField : fieldAt second position <;>
      simp_all [eq_comm]

theorem Gapless.sameTick_iff {first second : Bytes}
    (firstGapless : Gapless first) (secondGapless : Gapless second) :
    SameTick first second ↔
      tickPieces (fields comma first) = tickPieces (fields comma second) := by
  rw [SameTick, tickPieces, tickPieces, List.map_inj_left]
  apply forall₂_congr
  intro position member
  exact firstGapless.fieldAt_eq_iff secondGapless (mem_tickPositions member)

/-- Equal keys mean equal ticks exactly for messages that are told apart. -/
theorem sameTick_of_dedupKey_iff (first second : Bytes) :
    (dedupKey first = dedupKey second → SameTick first second) ↔
      ToldApart first second := by
  rw [← recut_tickPieces_iff]
  by_cases gapless : Gapless first ∧ Gapless second
  · rw [gapless.1.sameTick_iff gapless.2, gapless.1.tickPieces_tokens,
      gapless.2.tickPieces_tokens]
    constructor
    · intro known
      exact ⟨fun ⟨_, _, differ, recut⟩ => differ (known recut),
        fun misnumbered => misnumbered.1 gapless⟩
    · rintro ⟨apart, -⟩ recut
      by_contra differ
      exact apart ⟨gapless.1, gapless.2, differ, recut⟩
  · constructor
    · intro known
      exact ⟨fun resplit => gapless ⟨resplit.1, resplit.2.1⟩,
        fun ⟨_, ⟨position, member, differ⟩, recut⟩ =>
          differ (known recut position member)⟩
    · rintro ⟨-, apart⟩ recut position member
      by_contra differ
      exact apart ⟨gapless, ⟨position, member, differ⟩, recut⟩

/-- Messages without gaps are told apart when their prices, and their volumes,
have the same length. -/
theorem toldApart_of_lengths {first second : Bytes}
    (firstGapless : Gapless first) (secondGapless : Gapless second)
    (same : ∀ position ∈ [pricePos, volumePos],
      ((fieldAt first position).getD []).length =
        ((fieldAt second position).getD []).length) :
    ToldApart first second := by
  refine ⟨?_, fun misnumbered => misnumbered.1 ⟨firstGapless, secondGapless⟩⟩
  rintro ⟨-, -, differ, recut⟩
  have texts := (recut_iff.mp recut).2
  have price := same pricePos (by simp)
  have volume := same volumePos (by simp)
  apply differ
  simp only [tickPieces, List.map_cons, List.map_nil, List.flatten_cons,
    List.flatten_nil, List.append_nil] at texts ⊢
  obtain ⟨priceEq, rest⟩ := List.append_inj texts price
  obtain ⟨volumeEq, epochEq⟩ := List.append_inj rest volume
  rw [priceEq, volumeEq, epochEq]

end ArstQuote
