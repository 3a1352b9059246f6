import Mathlib.Data.List.Infix

/-!
# Channels that lose entries

What comes out of a lossy stage is what went in, in its order, without the
entries that were lost.  Counting those makes the account exact: where nothing
was lost, what came out is what went in.  A sieve holds back entries only for a
reason, which may lie in the entries that it has let through.  A channel keeps
its entries in order, gives them out at its front, and may lose any of those
that wait.
-/

namespace LossyChannels

variable {Entry : Type*}

/-- `kept` is `whole` without `lost` of its entries. -/
structure Thinned (kept whole : List Entry) (lost : Nat) : Prop where
  sublist : kept.Sublist whole
  count : kept.length + lost = whole.length

section Thinned

variable {kept more whole : List Entry} {entry : Entry} {lost : Nat}

theorem Thinned.refl (whole : List Entry) : Thinned whole whole 0 :=
  ⟨List.Sublist.refl whole, rfl⟩

/-- Nothing lost is nothing changed. -/
theorem Thinned.eq (thinned : Thinned kept whole 0) : kept = whole :=
  thinned.sublist.eq_of_length thinned.count

theorem Thinned.append (thinned : Thinned kept whole lost)
    (added : List Entry) : Thinned (kept ++ added) (whole ++ added) lost where
  sublist := thinned.sublist.append (List.Sublist.refl added)
  count := by
    have count := thinned.count
    simp only [List.length_append]
    omega

/-- One of the entries kept so far is lost. -/
theorem Thinned.lose (thinned : Thinned (kept ++ entry :: more) whole lost) :
    Thinned (kept ++ more) whole (lost + 1) where
  sublist := by
    have fewer : (kept ++ more).Sublist (kept ++ entry :: more) :=
      (List.Sublist.refl kept).append (List.sublist_cons_self entry more)
    exact fewer.trans thinned.sublist
  count := by
    have count := thinned.count
    simp only [List.length_append, List.length_cons] at count ⊢
    omega

theorem sublist_of_map {Image : Type*} {view : Entry → Image}
    (injective : Function.Injective view)
    (sublist : (kept.map view).Sublist (whole.map view)) :
    kept.Sublist whole := by
  obtain ⟨part, inside, same⟩ := List.sublist_map_iff.mp sublist
  rw [injective.list_map same]
  exact inside

end Thinned

section Sieves

variable {holdsBack : List Entry → Entry → Prop}
  {passed held whole : List Entry}

/-- The entries of `whole` went through a sieve one after the other: it let
`passed` through and held back `held`, each entry of which `holdsBack` names a
reason for, given the entries that it had let through before. -/
inductive Sifted (holdsBack : List Entry → Entry → Prop) :
    List Entry → List Entry → List Entry → Prop
  | empty : Sifted holdsBack [] [] []
  | pass {passed held whole : List Entry}
      (sifted : Sifted holdsBack passed held whole) (entry : Entry) :
      Sifted holdsBack (passed ++ [entry]) held (whole ++ [entry])
  | hold {passed held whole : List Entry} {entry : Entry}
      (sifted : Sifted holdsBack passed held whole)
      (reason : holdsBack passed entry) :
      Sifted holdsBack passed (held ++ [entry]) (whole ++ [entry])

/-- What passes a sieve, seen through a partial view of the entries, is thinned
by the entries held back that can be seen. -/
theorem Sifted.thinned_filterMap {Image : Type*} (view : Entry → Option Image)
    (sifted : Sifted holdsBack passed held whole) :
    Thinned (passed.filterMap view) (whole.filterMap view)
      (held.filterMap view).length := by
  induction sifted with
  | empty => exact Thinned.refl []
  | pass sifted entry ih =>
      simp only [List.filterMap_append]
      exact ih.append _
  | hold sifted reason ih =>
      simp only [List.filterMap_append, List.length_append]
      refine ⟨ih.sublist.trans (List.sublist_append_left _ _), ?_⟩
      have count := ih.count
      simp only [List.length_append]
      omega

theorem Sifted.sublist (sifted : Sifted holdsBack passed held whole) :
    passed.Sublist whole := by
  have thinned := sifted.thinned_filterMap some
  simpa only [List.filterMap_some] using thinned.sublist

end Sieves

/-- A channel with all entries ever put on it, those that wait, those taken at
its front, and the number of those that went elsewhere. -/
structure Channel (Entry : Type*) where
  put : List Entry
  waiting : List Entry
  taken : List Entry
  lost : Nat

namespace Channel

def empty (Entry : Type*) : Channel Entry :=
  ⟨[], [], [], 0⟩

def push (channel : Channel Entry) (entry : Entry) : Channel Entry :=
  { channel with
    put := channel.put ++ [entry]
    waiting := channel.waiting ++ [entry] }

/-- The entry at the front, and the channel without it. -/
def take (channel : Channel Entry) : Option (Entry × Channel Entry) :=
  match channel.waiting with
  | [] => none
  | entry :: waiting =>
      some (entry, { channel with
        waiting := waiting
        taken := channel.taken ++ [entry] })

/-- The channel without the waiting entry at a position. -/
def lose (channel : Channel Entry) (position : Nat) :
    Option (Channel Entry) :=
  if position < channel.waiting.length then
    some { channel with
      waiting := channel.waiting.eraseIdx position
      lost := channel.lost + 1 }
  else none

/-- Every entry put on the channel was taken, waits or was lost, in order. -/
def Accounted (channel : Channel Entry) : Prop :=
  Thinned (channel.taken ++ channel.waiting) channel.put channel.lost

section Steps

variable {channel next : Channel Entry} {entry : Entry}

theorem empty_accounted : (empty Entry).Accounted :=
  Thinned.refl []

theorem Accounted.push (accounted : channel.Accounted) (entry : Entry) :
    (channel.push entry).Accounted := by
  have added := Thinned.append accounted [entry]
  rw [List.append_assoc] at added
  exact added

theorem take_eq_some (took : channel.take = some (entry, next)) :
    channel.waiting = entry :: next.waiting ∧
      next.taken = channel.taken ++ [entry] ∧ next.put = channel.put ∧
      next.lost = channel.lost := by
  unfold take at took
  split at took
  · cases took
  · next atFront =>
      cases took
      exact ⟨atFront, rfl, rfl, rfl⟩

theorem Accounted.take (accounted : channel.Accounted)
    (took : channel.take = some (entry, next)) : next.Accounted := by
  obtain ⟨atFront, taken, put, lost⟩ := take_eq_some took
  unfold Accounted at accounted ⊢
  rw [taken, put, lost, List.append_assoc, List.singleton_append, ← atFront]
  exact accounted

theorem lose_eq_some {position : Nat}
    (lost : channel.lose position = some next) :
    next.put = channel.put ∧ next.taken = channel.taken ∧
      next.lost = channel.lost + 1 ∧
      ∃ before entry after, channel.waiting = before ++ entry :: after ∧
        next.waiting = before ++ after := by
  unfold lose at lost
  split at lost
  case isFalse => cases lost
  case isTrue inside =>
    cases lost
    refine ⟨rfl, rfl, rfl, channel.waiting.take position,
      channel.waiting[position], channel.waiting.drop (position + 1), ?_, ?_⟩
    · rw [← List.drop_eq_getElem_cons inside, List.take_append_drop]
    · exact List.eraseIdx_eq_take_drop_succ ..

theorem Accounted.lose (accounted : channel.Accounted) {position : Nat}
    (lost : channel.lose position = some next) : next.Accounted := by
  obtain ⟨put, taken, count, before, entry, after, split, rest⟩ :=
    lose_eq_some lost
  unfold Accounted at accounted ⊢
  rw [split, ← List.append_assoc] at accounted
  rw [put, taken, count, rest, ← List.append_assoc]
  exact Thinned.lose accounted

end Steps

end Channel

end LossyChannels
