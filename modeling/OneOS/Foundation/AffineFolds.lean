import Mathlib.Algebra.Group.Units.Basic
import Mathlib.Algebra.Ring.Basic
import Mathlib.Data.List.Basic
import Mathlib.Tactic.LinearCombination
import Mathlib.Tactic.Ring

/-!
# Folds that multiply and add

Many checksums begin with a value, and for every letter multiply it by a fixed factor and add the
weight of the letter (`affineFold`). In a commutative ring the value at the start is only carried
along, multiplied by a power of the factor (`affineFold_start`). When the factor has an inverse, so
that nothing is lost, the value at the start is told from the end (`affineFold_start_iff`), and what
a pair of neighbouring letters does is done by just those pairs that make up for the factor
(`affineFold_pair_iff`).
-/

set_option autoImplicit false
set_option relaxedAutoImplicit false

namespace OneOS.Foundation

variable {Word Letter : Type*} [CommRing Word] {factor : Word} {weight : Letter → Word}

/-- Multiply by a factor and add the weight of a letter, for every letter. -/
def affineFold (factor : Word) (weight : Letter → Word) (start : Word) (letters : List Letter) :
    Word :=
  letters.foldl (fun value letter ↦ factor * value + weight letter) start

@[simp] theorem affineFold_nil (start : Word) : affineFold factor weight start [] = start := rfl

@[simp] theorem affineFold_cons (start : Word) (letter : Letter) (letters : List Letter) :
    affineFold factor weight start (letter :: letters) =
      affineFold factor weight (factor * start + weight letter) letters := rfl

theorem affineFold_append (start : Word) (letters later : List Letter) :
    affineFold factor weight start (letters ++ later) =
      affineFold factor weight (affineFold factor weight start letters) later :=
  List.foldl_append

/-- The value at the start is carried along, multiplied by a power of the factor. -/
theorem affineFold_start (start : Word) (letters : List Letter) :
    affineFold factor weight start letters =
      factor ^ letters.length * start + affineFold factor weight 0 letters := by
  induction letters generalizing start with
  | nil => simp
  | cons letter letters ih =>
    rw [affineFold_cons, affineFold_cons, ih, ih (factor * 0 + weight letter), List.length_cons,
      pow_succ]
    ring

/-- Assumes: the factor has an inverse. Different values at the start lead to different ends. -/
theorem affineFold_start_iff (hfactor : IsUnit factor) {start other : Word}
    (letters : List Letter) :
    affineFold factor weight start letters = affineFold factor weight other letters ↔
      start = other := by
  rw [affineFold_start, affineFold_start other, add_left_inj]
  exact (hfactor.pow _).mul_right_inj

/-- Assumes: the factor has an inverse. Two pairs of neighbours lead to one end, whatever is before
them and behind them, exactly when one makes up for the other. -/
theorem affineFold_pair_iff (hfactor : IsUnit factor) (start : Word) (before after : List Letter)
    (first second first' second' : Letter) :
    affineFold factor weight start (before ++ first :: second :: after) =
        affineFold factor weight start (before ++ first' :: second' :: after) ↔
      factor * (weight first - weight first') = weight second' - weight second := by
  rw [affineFold_append, affineFold_append, affineFold_cons, affineFold_cons, affineFold_cons,
    affineFold_cons, affineFold_start_iff hfactor]
  constructor
  · intro hsame
    linear_combination hsame
  · intro hsame
    linear_combination hsame

end OneOS.Foundation
