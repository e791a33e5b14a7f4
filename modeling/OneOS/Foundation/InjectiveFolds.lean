import Mathlib.Data.List.Basic

/-!
# Folds with injective rounds

A fold reads a list letter by letter into a state. When every letter changes the state in an
injective way, different states stay different, whatever is read after them; and when in addition
different letters lead from one state to different states, two lists of one length that differ in
one place only are read into different states (`foldl_ne_of_differsOnce`).
-/

set_option autoImplicit false
set_option relaxedAutoImplicit false

namespace OneOS.Foundation

variable {State Letter : Type*} {read : State → Letter → State}

/-- Two lists of one length that differ in exactly one place. -/
structure DiffersOnce (first second : List Letter) : Prop where
  length : first.length = second.length
  place : ∃! i : ℕ, first[i]? ≠ second[i]?

/-- Lists that differ in exactly one place agree before it and behind it. -/
theorem DiffersOnce.split {first second : List Letter} (hdiffers : DiffersOnce first second) :
    ∃ before after old new, old ≠ new ∧ first = before ++ old :: after ∧
      second = before ++ new :: after := by
  obtain ⟨hlength, i, hplace, hunique⟩ := hdiffers
  have hsame : ∀ j, j ≠ i → first[j]? = second[j]? := by
    intro j hj
    by_contra hother
    exact hj (hunique j hother)
  have hfirst : i < first.length := by
    by_contra hbehind
    refine hplace ?_
    rw [List.getElem?_eq_none (by omega), List.getElem?_eq_none (by omega)]
  have hsecond : i < second.length := hlength ▸ hfirst
  refine ⟨first.take i, first.drop (i + 1), first[i], second[i], ?_, ?_, ?_⟩
  · intro hequal
    refine hplace ?_
    rw [List.getElem?_eq_getElem hfirst, List.getElem?_eq_getElem hsecond, hequal]
  · rw [List.getElem_cons_drop, List.take_append_drop]
  · have hbefore : first.take i = second.take i := by
      refine List.ext_getElem? fun j ↦ ?_
      rw [List.getElem?_take, List.getElem?_take]
      split_ifs with hj
      · exact hsame j (by omega)
      · rfl
    have hafter : first.drop (i + 1) = second.drop (i + 1) := by
      refine List.ext_getElem? fun j ↦ ?_
      rw [List.getElem?_drop, List.getElem?_drop]
      exact hsame _ (by omega)
    rw [hbefore, hafter, List.getElem_cons_drop, List.take_append_drop]

/-- Replacing one letter by another one makes a difference in that place only. -/
theorem differsOnce_set {letters : List Letter} {letter : Letter} {i : ℕ} (hi : i < letters.length)
    (hletter : letter ≠ letters[i]) : DiffersOnce letters (letters.set i letter) where
  length := (List.length_set ..).symm
  place := by
    refine ⟨i, ?_, fun j hj ↦ ?_⟩
    · beta_reduce
      rw [List.getElem?_set_self hi, List.getElem?_eq_getElem hi]
      exact fun hequal ↦ hletter (Option.some.inj hequal).symm
    · by_contra hother
      exact hj (List.getElem?_set_ne (Ne.symm hother)).symm

/-- Assumes: every letter changes the state in an injective way. Different states stay different
when the same letters are read. -/
theorem foldl_injective (hstate : ∀ letter, Function.Injective fun state ↦ read state letter)
    (letters : List Letter) : Function.Injective fun state ↦ letters.foldl read state := by
  induction letters with
  | nil => exact Function.injective_id
  | cons letter letters ih =>
    intro first second hequal
    exact hstate letter (ih hequal)

/-- Assumes: every letter changes the state in an injective way, and different letters lead from one
state to different ones. Lists that differ in one place only are read into different states. -/
theorem foldl_ne_of_differsOnce
    (hstate : ∀ letter, Function.Injective fun state ↦ read state letter)
    (hletter : ∀ state, Function.Injective (read state)) {first second : List Letter}
    (hdiffers : DiffersOnce first second) (start : State) :
    first.foldl read start ≠ second.foldl read start := by
  obtain ⟨before, after, old, new, hne, rfl, rfl⟩ := hdiffers.split
  rw [List.foldl_append, List.foldl_append, List.foldl_cons, List.foldl_cons]
  intro hequal
  exact hne (hletter _ (foldl_injective hstate after hequal))

end OneOS.Foundation
