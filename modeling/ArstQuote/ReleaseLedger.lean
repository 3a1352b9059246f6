import Mathlib.Data.List.Basic
import Mathlib.Order.Basic

/-!
# Ledgers of what has to be released

A program obtains things it has to release, each of them once, and keeps the
names of those it still knows.  A ledger counts the releases of everything
obtained so far, in the order it was obtained.  What is released twice, or is
not released and no longer known, spoils the ledger for good.
-/

namespace ReleaseLedger

/-- How often each thing was released; a thing is its position. -/
abbrev Ledger := List Nat

/-- The next thing is obtained. -/
def afterObtain (ledger : Ledger) : Ledger :=
  ledger ++ [0]

def afterRelease (ledger : Ledger) (thing : Nat) : Ledger :=
  ledger.modify thing (· + 1)

/-- Nothing is released twice. -/
def Once (ledger : Ledger) : Prop :=
  ∀ releases ∈ ledger, releases ≤ 1
  deriving Decidable

/-- Everything is released, once. -/
def Settled (ledger : Ledger) : Prop :=
  ∀ releases ∈ ledger, releases = 1
  deriving Decidable

/-- What is held has not been released, and everything else has, once. -/
structure Holds (ledger : Ledger) (held : Option Nat) : Prop where
  unreleased : ∀ thing, held = some thing → ledger[thing]? = some 0
  others : ∀ thing releases : Nat, ledger[thing]? = some releases →
    held ≠ some thing → releases = 1

/-- Something was released twice, or is neither released nor known. -/
inductive Spoiled (ledger : Ledger) (known : Option Nat) : Prop
  | twice (thing releases : Nat) (found : ledger[thing]? = some releases)
      (more : 2 ≤ releases)
  | lost (thing : Nat) (found : ledger[thing]? = some 0)
      (unknown : known ≠ some thing)

/-- What an operation may do to a ledger and to the one name it keeps. -/
inductive Move (ledger : Ledger) : Option Nat → Ledger → Option Nat → Prop
  | keep (known : Option Nat) : Move ledger known ledger known
  | forget (known : Option Nat) : Move ledger known ledger none
  | obtain (known next : Option Nat)
      (fresh : next = none ∨ next = some ledger.length) :
      Move ledger known (afterObtain ledger) next
  | release (thing : Nat) (next : Option Nat)
      (same : next = none ∨ next = some thing) :
      Move ledger (some thing) (afterRelease ledger thing) next

variable {ledger : Ledger} {held : Option Nat}

theorem getElem?_afterObtain {thing releases : Nat}
    (found : ledger[thing]? = some releases) :
    (afterObtain ledger)[thing]? = some releases := by
  have inside := (List.getElem?_eq_some_iff.mp found).1
  rw [afterObtain, List.getElem?_append_left inside, found]

theorem getElem?_afterRelease {thing releases : Nat}
    (found : ledger[thing]? = some releases) :
    (afterRelease ledger thing)[thing]? = some (releases + 1) := by
  simp [afterRelease, found]

theorem getElem?_afterRelease_of_ne {released thing : Nat}
    (differs : released ≠ thing) :
    (afterRelease ledger released)[thing]? = ledger[thing]? := by
  simp [afterRelease, differs]

theorem empty_holds : Holds [] none := by
  constructor <;> simp

theorem Holds.once (holds : Holds ledger held) : Once ledger := by
  intro releases member
  obtain ⟨thing, found⟩ := List.mem_iff_getElem?.mp member
  by_cases same : held = some thing
  · have unreleased := holds.unreleased thing same
    rw [found, Option.some.injEq] at unreleased
    omega
  · have released := holds.others thing releases found same
    omega

theorem Holds.settled (holds : Holds ledger none) : Settled ledger := by
  intro releases member
  obtain ⟨thing, found⟩ := List.mem_iff_getElem?.mp member
  exact holds.others thing releases found (by simp)

theorem Holds.not_settled {thing : Nat} (holds : Holds ledger (some thing)) :
    ¬ Settled ledger := by
  intro settled
  have found := holds.unreleased thing rfl
  have released := settled 0 (List.mem_of_getElem? found)
  cases released

/-- With nothing held, what is obtained is held. -/
theorem Holds.obtained (holds : Holds ledger none) :
    Holds (afterObtain ledger) (some ledger.length) := by
  constructor
  · intro thing same
    obtain rfl := Option.some.inj same
    simp [afterObtain]
  · intro thing releases found other
    have differs : thing ≠ ledger.length :=
      fun same => other (congrArg some same.symm)
    obtain ⟨bound, -⟩ := List.getElem?_eq_some_iff.mp found
    simp only [afterObtain, List.length_append,
      List.length_singleton] at bound
    rw [afterObtain, List.getElem?_append_left (by omega)] at found
    exact holds.others thing releases found (by simp)

/-- What is held is released, and nothing is held then. -/
theorem Holds.released {thing : Nat} (holds : Holds ledger (some thing)) :
    Holds (afterRelease ledger thing) none := by
  constructor
  · intro other same
    cases same
  · intro other releases found _
    by_cases same : thing = other
    · subst same
      rw [getElem?_afterRelease (holds.unreleased thing rfl),
        Option.some.injEq] at found
      exact found.symm
    · rw [getElem?_afterRelease_of_ne same] at found
      exact holds.others other releases found
        fun equal => same (Option.some.inj equal)

/-- A thing that is held spoils the ledger when its name is forgotten. -/
theorem Holds.spoiled_of_forgotten {thing : Nat} {known : Option Nat}
    (holds : Holds ledger (some thing)) (unknown : known ≠ some thing) :
    Spoiled ledger known :=
  .lost thing (holds.unreleased thing rfl) unknown

/-- A thing that is released already spoils the ledger when it is released
again. -/
theorem Holds.spoiled_of_release {thing : Nat} {known : Option Nat}
    (holds : Holds ledger none) (inside : thing < ledger.length) :
    Spoiled (afterRelease ledger thing) known := by
  have found := List.getElem?_eq_getElem inside
  have released := holds.others thing _ found (by simp)
  have twice := getElem?_afterRelease found
  exact .twice thing _ twice (by omega)

theorem Spoiled.move {known next : Option Nat} {after : Ledger}
    (spoiled : Spoiled ledger known) (moved : Move ledger known after next) :
    Spoiled after next := by
  cases moved with
  | keep => exact spoiled
  | forget =>
      cases spoiled with
      | twice thing releases found more =>
          exact .twice thing releases found more
      | lost thing found unknown => exact .lost thing found (by simp)
  | obtain _ _ fresh =>
      cases spoiled with
      | twice thing releases found more =>
          exact .twice thing releases (getElem?_afterObtain found) more
      | lost thing found unknown =>
          apply Spoiled.lost thing (getElem?_afterObtain found)
          rintro rfl
          rcases fresh with none | same
          · cases none
          · have inside := (List.getElem?_eq_some_iff.mp found).1
            have equal := Option.some.inj same
            omega
  | release released _ same =>
      cases spoiled with
      | twice thing releases found more =>
          by_cases equal : released = thing
          · subst equal
            exact .twice released _ (getElem?_afterRelease found) (by omega)
          · have stays : (afterRelease ledger released)[thing]? =
                some releases :=
              (getElem?_afterRelease_of_ne equal).trans found
            exact .twice thing releases stays more
      | lost thing found unknown =>
          have differs : released ≠ thing :=
            fun equal => unknown (congrArg some equal)
          have stays : (afterRelease ledger released)[thing]? = some 0 :=
            (getElem?_afterRelease_of_ne differs).trans found
          apply Spoiled.lost thing stays
          rcases same with rfl | rfl
          · simp
          · exact unknown

/-- What is held is lost when the next thing takes its name. -/
theorem Holds.spoiled_of_obtain {thing : Nat} {next : Option Nat}
    (holds : Holds ledger (some thing))
    (fresh : next = none ∨ next = some ledger.length) :
    Spoiled (afterObtain ledger) next := by
  have forgotten : Spoiled ledger none :=
    holds.spoiled_of_forgotten (by simp)
  exact forgotten.move (.obtain none next fresh)

theorem Spoiled.not_settled {known : Option Nat}
    (spoiled : Spoiled ledger known) : ¬ Settled ledger := by
  intro settled
  cases spoiled with
  | twice thing releases found more =>
      have released := settled releases (List.mem_of_getElem? found)
      omega
  | lost thing found _ =>
      have released := settled 0 (List.mem_of_getElem? found)
      cases released

end ReleaseLedger
