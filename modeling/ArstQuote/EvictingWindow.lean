import Mathlib.Data.List.Infix
import Mathlib.Data.List.Nodup

/-!
# Windows that evict whole blocks

A window over the history of accepted keys grows at the back, one key at a
time, and shrinks at the front by blocks of a fixed size while it is longer
than a limit.  This file shows that eviction terminates without ever reaching
past the window, and that a window so kept remembers the most recent keys.
-/

namespace EvictingWindow

variable {Key : Type*}

/-- Erase a block at the front; `none` when the block is longer than the
window. -/
def eraseBlock (block : Nat) (window : List Key) : Option (List Key) :=
  if block ≤ window.length then some (window.drop block) else none

/-- Erase blocks while the window is longer than the limit, at most `fuel`
times; `none` when an erase fails or the window is then still too long. -/
def evict (limit block : Nat) : Nat → List Key → Option (List Key)
  | 0, window => if limit < window.length then none else some window
  | fuel + 1, window =>
      if limit < window.length then
        (eraseBlock block window).bind (evict limit block fuel)
      else some window

theorem evict_of_le {limit block : Nat} {window : List Key}
    (fits : window.length ≤ limit) (fuel : Nat) :
    evict limit block fuel window = some window := by
  cases fuel <;> simp [evict, Nat.not_lt.mpr fits]

/-- Eviction ends within as many erases as the window has keys, every erase
stays inside the window, and what is left is a suffix that fits the limit and
keeps at least `limit + 1 - block` of the keys. -/
theorem evict_spec {limit block : Nat} (positive : 0 < block)
    (blockFits : block ≤ limit + 1) {fuel : Nat} {window : List Key}
    (enough : window.length ≤ fuel) :
    ∃ kept, evict limit block fuel window = some kept ∧ kept <:+ window ∧
      kept.length ≤ limit ∧
      min window.length (limit + 1 - block) ≤ kept.length := by
  induction fuel generalizing window with
  | zero =>
      have fits : window.length ≤ limit := by omega
      exact ⟨window, evict_of_le fits 0, List.suffix_rfl, fits,
        Nat.min_le_left _ _⟩
  | succ fuel ih =>
      by_cases fits : window.length ≤ limit
      · exact ⟨window, evict_of_le fits _, List.suffix_rfl, fits,
          Nat.min_le_left _ _⟩
      · have inside : block ≤ window.length := by omega
        have shorter : (window.drop block).length ≤ fuel := by
          rw [List.length_drop]
          omega
        obtain ⟨kept, evicted, suffix, keptFits, keptEnough⟩ := ih shorter
        refine ⟨kept, ?_, suffix.trans (List.drop_suffix _ _), keptFits, ?_⟩
        · simp [evict, eraseBlock, inside, Nat.not_le.mp fits, evicted]
        · rw [List.length_drop] at keptEnough
          omega

/-- More fuel than the window has keys changes nothing. -/
theorem evict_fuel {limit block : Nat} (positive : 0 < block)
    (blockFits : block ≤ limit + 1) {fuel : Nat} {window : List Key}
    (enough : window.length ≤ fuel) :
    evict limit block fuel window =
      evict limit block window.length window := by
  induction fuel using Nat.strong_induction_on generalizing window with
  | _ fuel ih =>
      by_cases fits : window.length ≤ limit
      · rw [evict_of_le fits, evict_of_le fits]
      · have inside : block ≤ window.length := by omega
        obtain ⟨more, rfl⟩ : ∃ more, fuel = more + 1 := ⟨fuel - 1, by omega⟩
        obtain ⟨keys, keysEq⟩ : ∃ keys, window.length = keys + 1 :=
          ⟨window.length - 1, by omega⟩
        have dropped : (window.drop block).length ≤ keys := by
          rw [List.length_drop]
          omega
        rw [keysEq]
        simp only [evict, eraseBlock, inside, Nat.not_le.mp fits, if_true,
          Option.bind_some]
        rw [ih more (by omega) (by omega), ih keys (by omega) dropped]

/-- The window holds, without repetition, a suffix of the accepted keys that
has at least the `keep` most recent ones. -/
structure Remembers (keep : Nat) (accepted window : List Key) : Prop where
  suffix : window <:+ accepted
  nodup : window.Nodup
  recent : min accepted.length keep ≤ window.length

namespace Remembers

variable {keep : Nat} {accepted window : List Key}

theorem nil : Remembers keep ([] : List Key) [] :=
  ⟨List.suffix_rfl, List.nodup_nil, by simp⟩

/-- Accepting a key the window does not hold. -/
theorem push (remembers : Remembers keep accepted window) {key : Key}
    (fresh : key ∉ window) :
    Remembers keep (accepted ++ [key]) (window ++ [key]) where
  suffix := by
    obtain ⟨older, rfl⟩ := remembers.suffix
    exact ⟨older, by rw [List.append_assoc]⟩
  nodup := by
    refine List.nodup_append.mpr
      ⟨remembers.nodup, List.nodup_singleton key, ?_⟩
    intro other member last lastMember equal
    rw [List.mem_singleton.mp lastMember] at equal
    exact fresh (equal ▸ member)
  recent := by
    have recent := remembers.recent
    simp only [List.length_append, List.length_singleton]
    omega

/-- Evicting blocks keeps what the window has to remember. -/
theorem evict (remembers : Remembers keep accepted window)
    {limit block : Nat} (positive : 0 < block)
    (keepFits : keep + block ≤ limit + 1) :
    ∃ kept, EvictingWindow.evict limit block window.length window =
        some kept ∧ kept.length ≤ limit ∧ Remembers keep accepted kept := by
  obtain ⟨kept, evicted, suffix, fits, enough⟩ :=
    evict_spec positive (show block ≤ limit + 1 by omega)
      (le_refl window.length)
  have recent := remembers.recent
  exact ⟨kept, evicted, fits, suffix.trans remembers.suffix,
    remembers.nodup.sublist suffix.sublist, by omega⟩

/-- Every one of the `keep` most recently accepted keys is in the window. -/
theorem mem_of_recent (remembers : Remembers keep accepted window)
    {key : Key} (recentKey : key ∈ accepted.drop (accepted.length - keep)) :
    key ∈ window := by
  rw [List.suffix_iff_eq_drop.mp remembers.suffix]
  have recent := remembers.recent
  have starts : accepted.length - window.length ≤ accepted.length - keep := by
    have bound := remembers.suffix.length_le
    omega
  exact (List.drop_suffix_drop_left accepted starts).subset recentKey

theorem subset (remembers : Remembers keep accepted window) :
    window ⊆ accepted :=
  remembers.suffix.subset

end Remembers

end EvictingWindow
