import Mathlib.Algebra.BigOperators.Group.Finset.Piecewise
import Mathlib.Algebra.Order.BigOperators.Group.Finset
import Mathlib.Data.Fintype.Basic

/-!
# Objects that threads share

Every object has a mutex that notes the thread which has it, and every thread
has at most one mutex of a kind.  References to objects lie in finitely many
places, and every object counts those to itself; it is destroyed when its count
falls to zero.  Both records are exact as long as each change of one comes with
the change of the other.
-/

namespace SharedObjects

open Function

section Mutexes

variable {Mutex Thread : Type*}

/-- Every mutex notes the thread that has it. -/
def Exact (holder : Mutex → Option Thread) (held : Thread → Option Mutex) :
    Prop :=
  ∀ mutex thread, holder mutex = some thread ↔ held thread = some mutex

variable {holder : Mutex → Option Thread} {held : Thread → Option Mutex}
  {mutex : Mutex} {thread : Thread}

theorem Exact.unique (exact : Exact holder held) {other : Thread}
    (has : held thread = some mutex) (hasToo : held other = some mutex) :
    thread = other := by
  have first := (exact mutex thread).mpr has
  have second := (exact mutex other).mpr hasToo
  exact Option.some.inj (first.symm.trans second)

/-- Somebody has a mutex that is not free. -/
theorem Exact.exists_of_isSome (exact : Exact holder held)
    (taken : (holder mutex).isSome = true) :
    ∃ thread, held thread = some mutex := by
  obtain ⟨thread, has⟩ := Option.isSome_iff_exists.mp taken
  exact ⟨thread, (exact mutex thread).mp has⟩

variable [DecidableEq Mutex] [DecidableEq Thread]

omit [DecidableEq Thread] in
theorem Exact.keepHolder (exact : Exact holder held)
    {noted : Option Thread} (same : holder mutex = noted) :
    Exact (update holder mutex noted) held := by
  rw [← same, update_eq_self]
  exact exact

omit [DecidableEq Mutex] in
theorem Exact.keepHeld (exact : Exact holder held) {has : Option Mutex}
    (same : held thread = has) : Exact holder (update held thread has) := by
  rw [← same, update_eq_self]
  exact exact

theorem Exact.lock (exact : Exact holder held)
    (free : holder mutex = none) (without : held thread = none) :
    Exact (update holder mutex (some thread))
      (update held thread (some mutex)) := by
  intro other who
  have unheld : held who ≠ some mutex := by
    intro has
    simp [(exact mutex who).mpr has] at free
  have others := exact other who
  by_cases same : other = mutex
  · subst same
    by_cases self : who = thread
    · simp [self]
    · simp [self, unheld, Ne.symm self]
  · by_cases self : who = thread
    · subst self
      simp [update_of_ne same, others, without, Ne.symm same]
    · simp [update_of_ne same, others, self]

theorem Exact.unlock (exact : Exact holder held)
    (has : held thread = some mutex) :
    Exact (update holder mutex none) (update held thread none) := by
  intro other who
  have others := exact other who
  by_cases same : other = mutex
  · subst same
    by_cases self : who = thread
    · simp [self]
    · have unheld : held who ≠ some other :=
        fun too => self (exact.unique too has)
      simp [self, unheld]
  · by_cases self : who = thread
    · subst self
      simp [update_of_ne same, others, has, Ne.symm same]
    · simp [update_of_ne same, others, self]

end Mutexes

section Counts

variable {Place Object : Type*} [Fintype Place] [DecidableEq Place]
  [DecidableEq Object]

/-- The references to an object in all places. -/
def held (places : Place → List Object) (object : Object) : Nat :=
  ∑ place, (places place).count object

theorem held_pos {places : Place → List Object} {place : Place}
    {object : Object} (member : object ∈ places place) :
    0 < held places object := by
  have here : 0 < (places place).count object := List.count_pos_iff.mpr member
  have atMost : (places place).count object ≤ held places object := by
    rw [held, ← Finset.add_sum_erase Finset.univ
      (fun other => (places other).count object) (Finset.mem_univ place)]
    exact Nat.le_add_right _ _
  exact lt_of_lt_of_le here atMost

/-- The total of the weights in a table after one entry was replaced. -/
theorem sum_update_add {Value : Type*} (weight : Value → Nat)
    (table : Place → Value) (place : Place) (value : Value) :
    ∑ other, weight (update table place value other) + weight (table place) =
      ∑ other, weight (table other) + weight value := by
  have others : ∀ other ∈ Finset.univ.erase place,
      weight (update table place value other) = weight (table other) := by
    intro other member
    rw [update_of_ne (Finset.ne_of_mem_erase member)]
  have before := Finset.add_sum_erase Finset.univ
    (fun other => weight (table other)) (Finset.mem_univ place)
  have after := Finset.add_sum_erase Finset.univ
    (fun other => weight (update table place value other))
    (Finset.mem_univ place)
  rw [Finset.sum_congr rfl others, update_self] at after
  omega

omit [DecidableEq Place] in
/-- A total falls if one place pays for what the other places gain. -/
theorem sum_lt_of_paid {before after gain : Place → Nat} {place : Place}
    {paid : Nat} (each : ∀ other, other ≠ place →
      after other ≤ before other + gain other)
    (here : after place + paid ≤ before place)
    (covers : ∑ other, gain other < paid) :
    ∑ other, after other < ∑ other, before other := by
  classical
  have others : ∑ other ∈ Finset.univ.erase place, after other ≤
      ∑ other ∈ Finset.univ.erase place, (before other + gain other) :=
    Finset.sum_le_sum fun other member =>
      each other (Finset.ne_of_mem_erase member)
  rw [Finset.sum_add_distrib] at others
  have beforeSum :=
    Finset.add_sum_erase Finset.univ before (Finset.mem_univ place)
  have afterSum :=
    Finset.add_sum_erase Finset.univ after (Finset.mem_univ place)
  have gainSum :=
    Finset.add_sum_erase Finset.univ gain (Finset.mem_univ place)
  omega

theorem held_update (places : Place → List Object) (place : Place)
    (replaced : List Object) (object : Object) :
    held (update places place replaced) object +
        (places place).count object =
      held places object + replaced.count object :=
  sum_update_add (fun list => list.count object) places place replaced

/-- Every object counts its references, and those without any are gone. -/
structure Counted (counts : Object → Option Int)
    (places : Place → List Object) : Prop where
  exact : ∀ object, (counts object).getD 0 = held places object
  positive : ∀ object count, counts object = some count → 0 < count

variable {counts : Object → Option Int} {places : Place → List Object}
  {object : Object} {place : Place} {replaced : List Object} {count : Int}

omit [DecidableEq Place] in
/-- An object is there exactly as long as there are references to it. -/
theorem Counted.present_iff (counted : Counted counts places) :
    counts object ≠ none ↔ 0 < held places object := by
  have exact := counted.exact object
  cases found : counts object with
  | none =>
      simp only [found, Option.getD_none] at exact
      simp only [ne_eq, not_true_eq_false, false_iff]
      omega
  | some count =>
      simp only [found, Option.getD_some] at exact
      have positive := counted.positive object count found
      simp only [ne_eq, reduceCtorEq, not_false_eq_true, true_iff]
      omega

theorem Counted.present (counted : Counted counts places)
    (member : object ∈ places place) : counts object ≠ none :=
  counted.present_iff.mpr (held_pos member)

omit [DecidableEq Place] in
theorem Counted.keepCount (counted : Counted counts places)
    {found : Option Int} (same : counts object = found) :
    Counted (update counts object found) places := by
  rw [← same, update_eq_self]
  exact counted

theorem Counted.keepPlace (counted : Counted counts places)
    (same : places place = replaced) :
    Counted counts (update places place replaced) := by
  rw [← same, update_eq_self]
  exact counted

/-- A count that changes along with the references in one place. -/
theorem Counted.change (counted : Counted counts places)
    {changed : Option Int}
    (exact : changed.getD 0 = held (update places place replaced) object)
    (positive : ∀ number, changed = some number → 0 < number)
    (others : ∀ other, other ≠ object →
      (places place).count other = replaced.count other) :
    Counted (update counts object changed)
      (update places place replaced) := by
  constructor
  · intro other
    by_cases same : other = object
    · subst same
      rw [update_self, exact]
    · have updated := held_update places place replaced other
      rw [update_of_ne same, counted.exact]
      have alike := others other same
      omega
  · intro other number present
    by_cases same : other = object
    · subst same
      rw [update_self] at present
      exact positive number present
    · rw [update_of_ne same] at present
      exact counted.positive other number present

omit [Fintype Place] [DecidableEq Place] in
theorem count_of_perm_cons {fewer more : List Object}
    (perm : more.Perm (object :: fewer)) :
    more.count object = fewer.count object + 1 ∧
      ∀ other, other ≠ object → more.count other = fewer.count other := by
  constructor
  · rw [perm.count_eq, List.count_cons_self]
  · intro other apart
    rw [perm.count_eq, List.count_cons_of_ne (Ne.symm apart)]

/-- A new object with its first reference. -/
theorem Counted.create (counted : Counted counts places)
    (fresh : counts object = none)
    (more : replaced.Perm (object :: places place)) :
    Counted (update counts object (some 1))
      (update places place replaced) := by
  have exact := counted.exact object
  have updated := held_update places place replaced object
  obtain ⟨added, others⟩ := count_of_perm_cons more
  simp only [fresh, Option.getD_none] at exact
  refine counted.change ?_ ?_ fun other apart => (others other apart).symm
  · simp only [Option.getD_some]
    omega
  · rintro number ⟨⟩
    decide

theorem Counted.share (counted : Counted counts places)
    (present : counts object = some count)
    (more : replaced.Perm (object :: places place)) :
    Counted (update counts object (some (count + 1)))
      (update places place replaced) := by
  have exact := counted.exact object
  have updated := held_update places place replaced object
  obtain ⟨added, others⟩ := count_of_perm_cons more
  simp only [present, Option.getD_some] at exact
  refine counted.change ?_ ?_ fun other apart => (others other apart).symm
  · simp only [Option.getD_some]
    omega
  · rintro number ⟨⟩
    omega

/-- The object is destroyed with its last reference. -/
theorem Counted.release (counted : Counted counts places)
    (present : counts object = some count)
    (less : (places place).Perm (object :: replaced)) :
    Counted
      (update counts object
        (if count - 1 = 0 then none else some (count - 1)))
      (update places place replaced) := by
  have exact := counted.exact object
  have updated := held_update places place replaced object
  obtain ⟨removed, others⟩ := count_of_perm_cons less
  simp only [present, Option.getD_some] at exact
  refine counted.change ?_ ?_ others
  · split_ifs with last
    · simp only [Option.getD_none]
      omega
    · simp only [Option.getD_some]
      omega
  · intro number left
    split_ifs at left with last
    obtain rfl := Option.some.inj left
    omega

/-- A reference that is not the last one. -/
theorem Counted.releaseShared (counted : Counted counts places)
    (present : counts object = some count)
    (less : (places place).Perm (object :: replaced))
    (shared : 0 < held (update places place replaced) object) :
    Counted (update counts object (some (count - 1)))
      (update places place replaced) := by
  have released := counted.release present less
  have exact := released.exact object
  rw [update_self] at exact
  split_ifs at released exact with last
  · simp only [Option.getD_none] at exact
    omega
  · exact released

end Counts

end SharedObjects
