import OneOS.Foundation.CStrings

/-!
# Comparing and searching strings

`strcmp`, which compares strings byte by byte, without signs; `strncmp`, as far as it says whether
two strings agree in their first bytes; and `strstr`, as far as it says whether one string occurs in
another.
-/

set_option autoImplicit false
set_option relaxedAutoImplicit false

namespace OneOS.Foundation

/-- `strcmp`. The end of a string is before every byte. -/
def strcmp : CString → CString → Ordering
  | [], [] => .eq
  | [], _ :: _ => .lt
  | _ :: _, [] => .gt
  | first :: firsts, second :: seconds =>
    if first.val < second.val then .lt
    else if second.val < first.val then .gt
    else strcmp firsts seconds

/-- `strncmp` returns 0: the strings agree in so many bytes, or up to their ends. -/
def strncmpEq (first second : CString) (count : UInt32) : Bool :=
  first.take count.toNat = second.take count.toNat

/-- `strstr` finds the pattern: the text has a rest that begins with it. -/
def strstr (text pattern : CString) : Bool :=
  text.tails.any fun rest ↦ pattern.isPrefixOf rest

/-- `strcmp` returns 0 exactly for equal strings. -/
theorem strcmp_eq_iff (first second : CString) : strcmp first second = .eq ↔ first = second := by
  induction first generalizing second with
  | nil =>
    cases second with
    | nil => exact iff_of_true rfl rfl
    | cons byte bytes => exact iff_of_false (by simp [strcmp]) (List.cons_ne_nil _ _).symm
  | cons byte bytes ih =>
    cases second with
    | nil => exact iff_of_false (by simp [strcmp]) (List.cons_ne_nil _ _)
    | cons other others =>
      rw [strcmp, List.cons.injEq, ← ih]
      split_ifs with hlt hgt
      · refine iff_of_false (by decide) fun hsame ↦ ?_
        rw [hsame.1] at hlt
        exact UInt8.lt_irrefl _ hlt
      · refine iff_of_false (by decide) fun hsame ↦ ?_
        rw [hsame.1] at hgt
        exact UInt8.lt_irrefl _ hgt
      · have hsame : byte = other :=
          Subtype.ext (UInt8.le_antisymm (UInt8.not_lt.mp hgt) (UInt8.not_lt.mp hlt))
        exact (and_iff_right hsame).symm

end OneOS.Foundation
