import Mathlib.Logic.Function.Basic

/-!
# Places that represent a map

A store keeps keys with their values at places, in any order and with empty places between them. It
represents a map when no key is at two places and what is stored is what the map holds
(`Represents`). Storing at a place and emptying a place are then updates of the map.
-/

set_option autoImplicit false
set_option relaxedAutoImplicit false

namespace OneOS.Foundation

variable {Place Key Value : Type*}

/-- The keys and values at the places are those of the map, and no key is at two places. -/
structure Represents (places : Place → Option (Key × Value)) (contents : Key → Option Value) :
    Prop where
  distinct : ∀ place other key value otherValue, places place = some (key, value) →
    places other = some (key, otherValue) → place = other
  stored : ∀ key value, contents key = some value ↔ ∃ place, places place = some (key, value)

variable {places : Place → Option (Key × Value)} {contents : Key → Option Value}
variable {place : Place} {key : Key} {value old : Value}

/-- Empty places represent the empty map. -/
theorem represents_empty :
    Represents (fun _ : Place ↦ (none : Option (Key × Value))) fun _ ↦ none :=
  ⟨by simp, by simp⟩

/-- A place with a key holds what the map holds for the key. -/
theorem Represents.contents_of_place (hmap : Represents places contents)
    (hplace : places place = some (key, value)) : contents key = some value :=
  (hmap.stored key value).mpr ⟨place, hplace⟩

variable [DecidableEq Place] [DecidableEq Key]

/-- Storing a value at a place is an update of the map. Assumes: if the key is stored already, it is
at that place, and the place holds no other key. -/
theorem Represents.store (hmap : Represents places contents)
    (hkey : ∀ other old, places other = some (key, old) → other = place)
    (hplace : ∀ other old, places place = some (other, old) → other = key) :
    Represents (Function.update places place (some (key, value)))
      (Function.update contents key (some value)) := by
  -- a place with a key after the change is the changed one with its key, or an old one
  have hcases : ∀ other otherKey found,
      Function.update places place (some (key, value)) other = some (otherKey, found) →
        other = place ∧ otherKey = key ∧ found = value ∨
          other ≠ place ∧ places other = some (otherKey, found) ∧ otherKey ≠ key := by
    intro other otherKey found hother
    by_cases hsame : other = place
    · rw [hsame, Function.update_self, Option.some.injEq, Prod.mk.injEq] at hother
      exact Or.inl ⟨hsame, hother.1.symm, hother.2.symm⟩
    · rw [Function.update_of_ne hsame] at hother
      refine Or.inr ⟨hsame, hother, fun hkeys ↦ hsame (hkey other found ?_)⟩
      rw [hother, hkeys]
  refine ⟨fun first second other found found' hfirst hsecond ↦ ?_, fun other found ↦ ?_⟩
  · rcases hcases first other found hfirst with ⟨rfl, rfl, rfl⟩ | ⟨-, hfirst, hne⟩
    · rcases hcases second other found' hsecond with ⟨rfl, -, -⟩ | ⟨-, -, hne⟩
      · rfl
      · exact absurd rfl hne
    · rcases hcases second other found' hsecond with ⟨-, rfl, -⟩ | ⟨-, hsecond, -⟩
      · exact absurd rfl hne
      · exact hmap.distinct first second other found found' hfirst hsecond
  · by_cases hsame : other = key
    · rw [hsame, Function.update_self, Option.some.injEq]
      constructor
      · intro hvalue
        exact ⟨place, by rw [Function.update_self, hvalue]⟩
      · rintro ⟨first, hfirst⟩
        rcases hcases first key found hfirst with ⟨-, -, rfl⟩ | ⟨-, -, hne⟩
        · rfl
        · exact absurd rfl hne
    · rw [Function.update_of_ne hsame, hmap.stored]
      constructor
      · rintro ⟨first, hfirst⟩
        refine ⟨first, ?_⟩
        rw [Function.update_of_ne, hfirst]
        rintro rfl
        exact hsame (hplace other found hfirst)
      · rintro ⟨first, hfirst⟩
        rcases hcases first other found hfirst with ⟨-, hkeys, -⟩ | ⟨-, hfirst, -⟩
        · exact absurd hkeys hsame
        · exact ⟨first, hfirst⟩

/-- Emptying the place of a key removes the key from the map. -/
theorem Represents.empty (hmap : Represents places contents)
    (hplace : places place = some (key, old)) :
    Represents (Function.update places place none) (Function.update contents key none) := by
  have hcases : ∀ other otherKey found,
      Function.update places place none other = some (otherKey, found) →
        other ≠ place ∧ places other = some (otherKey, found) := by
    intro other otherKey found hother
    by_cases hsame : other = place
    · rw [hsame, Function.update_self] at hother
      exact absurd hother.symm (Option.some_ne_none _)
    · rw [Function.update_of_ne hsame] at hother
      exact ⟨hsame, hother⟩
  refine ⟨fun first second other found found' hfirst hsecond ↦ ?_, fun other found ↦ ?_⟩
  · exact hmap.distinct first second other found found' (hcases first other found hfirst).2
      (hcases second other found' hsecond).2
  · by_cases hsame : other = key
    · rw [hsame, Function.update_self]
      constructor
      · intro hnone
        exact absurd hnone.symm (Option.some_ne_none _)
      · rintro ⟨first, hfirst⟩
        obtain ⟨hne, hfirst⟩ := hcases first key found hfirst
        exact absurd (hmap.distinct first place key found old hfirst hplace) hne
    · rw [Function.update_of_ne hsame, hmap.stored]
      constructor
      · rintro ⟨first, hfirst⟩
        refine ⟨first, ?_⟩
        rw [Function.update_of_ne, hfirst]
        rintro rfl
        rw [hplace, Option.some.injEq, Prod.mk.injEq] at hfirst
        exact hsame hfirst.1.symm
      · rintro ⟨first, hfirst⟩
        exact ⟨first, (hcases first other found hfirst).2⟩

end OneOS.Foundation
