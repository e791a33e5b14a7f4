import Mathlib.Algebra.Group.Basic
import Mathlib.Data.Set.Basic

/-!
# Pictures

A picture gives a colour to some places, and to the others none: those are not on it. What is drawn
is drawn dot by dot, and a dot beside the picture is lost (`dot`).

Drawing dots of one colour fills the region of their places (`foldl_dot`), whatever their order is
and however often a place is drawn. Copying the dots of another picture pastes a piece of it
(`foldl_copyDot`). Copying inside of one picture pastes a piece of what the picture was before, when
no dot is drawn at a place that is read afterwards (`foldl_copyDot_self`). When no dot is drawn at a
place that was read before, the piece that is pasted is one of what the picture becomes
(`foldl_copyDot_trail`).
-/

set_option autoImplicit false
set_option relaxedAutoImplicit false

namespace OneOS.Foundation

/-- The colours of the places that are on a picture. -/
abbrev Picture (Place Colour : Type*) := Place → Option Colour

section Dots

variable {Place Colour : Type*}

open Classical in
/-- The picture after a dot is drawn at a place. -/
noncomputable def dot (picture : Picture Place Colour) (place : Place) (colour : Colour) :
    Picture Place Colour :=
  Function.update picture place ((picture place).map fun _ ↦ colour)

open Classical in
/-- The picture after a region is filled with a colour. -/
noncomputable def fill (picture : Picture Place Colour) (region : Set Place) (colour : Colour) :
    Picture Place Colour := fun place ↦
  if place ∈ region then (picture place).map fun _ ↦ colour else picture place

variable {picture source : Picture Place Colour} {place other : Place} {colour : Colour}

theorem dot_self : dot picture place colour place = (picture place).map fun _ ↦ colour := by
  classical
  rw [dot, Function.update_self]

theorem dot_of_ne (hother : other ≠ place) : dot picture place colour other = picture other := by
  classical
  rw [dot, Function.update_of_ne hother]

/-- A dot beside the picture is lost. -/
theorem dot_of_none (hbeside : picture place = none) : dot picture place colour = picture := by
  classical
  rw [dot, hbeside, Option.map_none, ← hbeside, Function.update_eq_self]

/-- Dots of one colour fill the region of their places. -/
theorem foldl_dot (places : List Place) (picture : Picture Place Colour) (colour : Colour) :
    places.foldl (fun drawn place ↦ dot drawn place colour) picture =
      fill picture { place | place ∈ places } colour := by
  classical
  induction places generalizing picture with
  | nil =>
    funext place
    exact (if_neg List.not_mem_nil).symm
  | cons first places ih =>
    funext place
    rw [List.foldl_cons, ih, fill, fill]
    simp only [Set.mem_ofPred_eq, List.mem_cons]
    by_cases hfirst : place = first
    · rw [hfirst, dot_self, if_pos (Or.inl rfl), Option.map_map]
      split_ifs <;> rfl
    · rw [dot_of_ne hfirst]
      simp [hfirst]

end Dots

section Copies

variable {Place Colour : Type*} [AddCommGroup Place]

/-- The picture after a dot of another one is drawn on it, shifted. Nothing is drawn for a place
that is not on the other one. -/
noncomputable def copyDot (shift : Place) (source picture : Picture Place Colour) (place : Place) :
    Picture Place Colour :=
  match source place with
  | none => picture
  | some colour => dot picture (place + shift) colour

open Classical in
/-- The picture after the piece of another one that lies in a region is pasted into it, shifted. -/
noncomputable def paste (picture source : Picture Place Colour) (region : Set Place)
    (shift : Place) : Picture Place Colour := fun place ↦
  if place - shift ∈ region then (picture place).map fun old ↦ (source (place - shift)).getD old
  else picture place

variable {picture source : Picture Place Colour} {place other shift : Place} {colour : Colour}

theorem copyDot_self :
    copyDot shift source picture place (place + shift) =
      (picture (place + shift)).map fun old ↦ (source place).getD old := by
  rw [copyDot]
  cases source place with
  | none => exact Option.map_id'.symm ▸ rfl
  | some colour => exact dot_self

theorem copyDot_of_ne (hother : other ≠ place + shift) :
    copyDot shift source picture place other = picture other := by
  rw [copyDot]
  cases source place with
  | none => rfl
  | some colour => exact dot_of_ne hother

/-- Copying dots of another picture pastes the piece of it. -/
theorem foldl_copyDot (shift : Place) (source : Picture Place Colour) (places : List Place)
    (picture : Picture Place Colour) :
    places.foldl (copyDot shift source) picture =
      paste picture source { place | place ∈ places } shift := by
  classical
  induction places generalizing picture with
  | nil =>
    funext place
    exact (if_neg List.not_mem_nil).symm
  | cons first places ih =>
    funext place
    rw [List.foldl_cons, ih, paste, paste]
    simp only [Set.mem_ofPred_eq, List.mem_cons]
    by_cases hfirst : place - shift = first
    · obtain rfl : place = first + shift := sub_eq_iff_eq_add.mp hfirst
      rw [copyDot_self, hfirst, if_pos (Or.inl rfl), Option.map_map]
      split_ifs
      · cases source first <;> rfl
      · rfl
    · rw [copyDot_of_ne fun hsame ↦ hfirst (sub_eq_iff_eq_add.mpr hsame)]
      simp [hfirst]

/-- Assumes: no dot is drawn at a place that is read afterwards. Copying dots of a picture onto
itself pastes a piece of what it was before. -/
theorem foldl_copyDot_self (shift : Place) {places : List Place}
    (horder : places.Pairwise fun earlier later ↦ earlier + shift ≠ later)
    (picture : Picture Place Colour) :
    places.foldl (fun drawn place ↦ copyDot shift drawn drawn place) picture =
      paste picture picture { place | place ∈ places } shift := by
  classical
  induction places generalizing picture with
  | nil =>
    funext place
    exact (if_neg List.not_mem_nil).symm
  | cons first places ih =>
    obtain ⟨hfirst, hrest⟩ := List.pairwise_cons.mp horder
    funext place
    rw [List.foldl_cons, ih hrest, paste, paste]
    simp only [Set.mem_ofPred_eq, List.mem_cons]
    by_cases hplace : place - shift = first
    · obtain rfl : place = first + shift := sub_eq_iff_eq_add.mp hplace
      rw [copyDot_self, hplace, if_pos (Or.inl rfl), Option.map_map]
      split_ifs with hagain
      · rw [copyDot_of_ne fun hsame ↦ hfirst first hagain hsame.symm]
        cases picture first <;> rfl
      · rfl
    · rw [copyDot_of_ne fun hsame ↦ hplace (sub_eq_iff_eq_add.mpr hsame)]
      simp only [hplace, false_or]
      split_ifs with hread
      · rw [copyDot_of_ne fun hsame ↦ hfirst _ hread hsame.symm]
      · rfl

/-- A piece pasted into a picture changes no place that is on it to one that is not. -/
theorem isSome_paste {region : Set Place} :
    (paste picture source region shift place).isSome = (picture place).isSome := by
  rw [paste]
  split_ifs
  · exact Option.isSome_map
  · rfl

/-- A dot copied onto its own place changes nothing. -/
theorem copyDot_own (hshift : shift = 0) :
    copyDot shift picture picture place place = picture place := by
  have hself := @copyDot_self _ _ _ picture picture place shift
  rw [hshift, add_zero] at hself
  rw [hshift, hself]
  cases picture place <;> rfl

/-- Assumes: no dot is drawn at a place that was read before. Copying dots of a picture onto itself
pastes a piece of what the picture becomes. -/
theorem foldl_copyDot_trail (shift : Place) {places : List Place}
    (horder : places.Pairwise fun earlier later ↦ earlier ≠ later + shift)
    (picture : Picture Place Colour) :
    places.foldl (fun drawn place ↦ copyDot shift drawn drawn place) picture =
      paste picture (places.foldl (fun drawn place ↦ copyDot shift drawn drawn place) picture)
        { place | place ∈ places } shift := by
  classical
  induction places generalizing picture with
  | nil =>
    funext place
    exact (if_neg List.not_mem_nil).symm
  | cons first places ih =>
    obtain ⟨hfirst, hrest⟩ := List.pairwise_cons.mp horder
    rw [List.foldl_cons]
    generalize hlast : places.foldl (fun drawn place ↦ copyDot shift drawn drawn place)
      (copyDot shift picture picture first) = last
    have hih := ih hrest (copyDot shift picture picture first)
    rw [hlast] at hih
    have hkept : last first = picture first := by
      rw [congrFun hih first, paste, if_neg]
      · by_cases hshift : shift = 0
        · exact copyDot_own hshift
        · exact copyDot_of_ne fun hsame ↦ hshift (left_eq_add.mp hsame)
      · exact fun hdrawn ↦ hfirst _ hdrawn (sub_add_cancel _ _).symm
    funext place
    rw [congrFun hih place, paste, paste]
    simp only [Set.mem_ofPred_eq, List.mem_cons]
    by_cases hplace : place - shift = first
    · obtain rfl : place = first + shift := sub_eq_iff_eq_add.mp hplace
      rw [copyDot_self, hplace, if_pos (Or.inl rfl), Option.map_map, hkept]
      split_ifs
      · cases picture first <;> rfl
      · rfl
    · rw [copyDot_of_ne fun hsame ↦ hplace (sub_eq_iff_eq_add.mpr hsame)]
      simp [hplace]

/-- Assumes: a region with every place that is read for one of its places. When no place of it has
another colour than one, copying dots of a picture onto itself leaves it so. -/
theorem foldl_copyDot_plain {region : Set Place}
    (hback : ∀ place, place + shift ∈ region → place ∈ region) (places : List Place)
    {picture : Picture Place Colour} (hplain : ∀ place ∈ region, ∀ c ∈ picture place, c = colour) :
    ∀ place ∈ region, ∀ c ∈ places.foldl (fun drawn place ↦ copyDot shift drawn drawn place) picture
      place, c = colour := by
  induction places generalizing picture with
  | nil => exact hplain
  | cons first places ih =>
    refine ih fun place hplace c (hc : c ∈ copyDot shift picture picture first place) ↦ ?_
    by_cases hdrawn : place = first + shift
    · rw [hdrawn, copyDot_self] at hc
      obtain ⟨old, hold, rfl⟩ := Option.map_eq_some_iff.mp hc
      cases hread : picture first with
      | none => exact hplain _ (hdrawn ▸ hplace) _ hold
      | some read => exact hplain first (hback first (hdrawn ▸ hplace)) _ hread
    · rw [copyDot_of_ne hdrawn] at hc
      exact hplain place hplace c hc

end Copies

end OneOS.Foundation
