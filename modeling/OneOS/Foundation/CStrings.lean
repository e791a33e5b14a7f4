import Mathlib.Data.List.Basic

/-!
# Strings of C

A string is the list of its bytes before the terminator, none of which is 0. Two strings are equal
exactly when `strcmp` returns 0. `strncpy` with a bound, into memory that is 0, keeps as many bytes
as the bound says: that is `List.take`. `decimal` and `hexadecimal` are what `%u` and `%x` print,
and `xorHash` is a common hash of strings.
-/

set_option autoImplicit false
set_option relaxedAutoImplicit false

namespace OneOS.Foundation

/-- A byte of a string: any but the terminator. -/
abbrev CChar := { byte : UInt8 // byte ≠ 0 }

/-- A string, without its terminator. -/
abbrev CString := List CChar

/-- A string from the characters of a literal. Characters that are no byte of a string are
dropped. -/
def ofChars (text : List Char) : CString :=
  text.filterMap fun char ↦
    if hbyte : UInt8.ofNat char.toNat ≠ 0 then some ⟨UInt8.ofNat char.toNat, hbyte⟩ else none

/-- A number as `%u` prints it. -/
def decimal (number : ℕ) : CString :=
  ofChars (Nat.toDigits 10 number)

/-- A number as `%x` prints it, with zeros in front up to a width. -/
def hexadecimal (number : ℕ) (width : ℕ) : CString :=
  ofChars ((Nat.toDigits 16 number).leftpad width '0')

/-- A byte as it enters arithmetic on unsigned ints: a char is signed. -/
def CChar.toUInt32 (char : CChar) : UInt32 :=
  char.val.toInt8.toInt32.toUInt32

/-- The hash that takes 33 times the hash so far, and the next byte by exclusive or. -/
def xorHash (text : CString) : UInt32 :=
  text.foldl (fun hash char ↦ ((hash <<< 5) + hash) ^^^ char.toUInt32) 0

/-- A number is never printed as the empty string. -/
theorem hexadecimal_ne_nil (number width : ℕ) : hexadecimal number width ≠ [] := by
  -- the last digit is a byte of the string
  have hdigits : Nat.digitChar (number % 16) ∈ Nat.toDigits 16 number := by
    rw [Nat.toDigits_eq_if (by decide)]
    split_ifs with hsmall
    · rw [Nat.mod_eq_of_lt hsmall]
      exact List.mem_singleton_self _
    · exact List.mem_append_right _ (List.mem_singleton_self _)
  have hbyte : ∀ digit : Fin 16, UInt8.ofNat (Nat.digitChar digit).toNat ≠ 0 := by decide
  have hsome := hbyte ⟨number % 16, Nat.mod_lt _ (by decide)⟩
  refine List.ne_nil_of_mem (List.mem_filterMap.mpr ⟨_, ?_, dif_pos hsome⟩)
  exact List.mem_append_right _ hdigits

theorem ofChars_append (first second : List Char) :
    ofChars (first ++ second) = ofChars first ++ ofChars second :=
  List.filterMap_append

/-- A string determines the characters that it was made of, when each of them is a byte. -/
theorem ofChars_inj {first second : List Char}
    (hfirst : ∀ char ∈ first, 0 < char.toNat ∧ char.toNat < 256)
    (hsecond : ∀ char ∈ second, 0 < char.toNat ∧ char.toNat < 256)
    (hequal : ofChars first = ofChars second) : first = second := by
  have hcons : ∀ char rest, 0 < char.toNat ∧ char.toNat < 256 →
      ∃ byte : CChar, byte.val = UInt8.ofNat char.toNat ∧
        ofChars (char :: rest) = byte :: ofChars rest := by
    intro char rest hchar
    have hbyte : UInt8.ofNat char.toNat ≠ 0 := by
      intro hzero
      have hnat := congrArg UInt8.toNat hzero
      rw [UInt8.toNat_ofNat_of_lt' hchar.2] at hnat
      exact absurd hnat (Nat.ne_of_gt hchar.1)
    exact ⟨⟨_, hbyte⟩, rfl, List.filterMap_cons_some (dif_pos hbyte)⟩
  induction first generalizing second with
  | nil =>
    cases second with
    | nil => rfl
    | cons char rest =>
      obtain ⟨byte, -, hstring⟩ := hcons char rest (hsecond char List.mem_cons_self)
      rw [hstring] at hequal
      exact absurd hequal (List.cons_ne_nil _ _).symm
  | cons char rest ih =>
    obtain ⟨hchar, hrest⟩ := List.forall_mem_cons.mp hfirst
    obtain ⟨byte, hbyte, hstring⟩ := hcons char rest hchar
    cases second with
    | nil =>
      rw [hstring] at hequal
      exact absurd hequal (List.cons_ne_nil _ _)
    | cons other others =>
      obtain ⟨hother, hothers⟩ := List.forall_mem_cons.mp hsecond
      obtain ⟨otherByte, hotherByte, hotherString⟩ := hcons other others hother
      rw [hstring, hotherString, List.cons.injEq] at hequal
      have hnat := congrArg UInt8.toNat
        (hbyte.symm.trans ((congrArg Subtype.val hequal.1).trans hotherByte))
      rw [UInt8.toNat_ofNat_of_lt' hchar.2, UInt8.toNat_ofNat_of_lt' hother.2] at hnat
      rw [Char.toNat_inj.mp hnat, ih hrest hothers hequal.2]

/-- The digits of a number are bytes of a string. -/
theorem byte_of_mem_toDigits {number : ℕ} {char : Char} (hchar : char ∈ Nat.toDigits 10 number) :
    0 < char.toNat ∧ char.toNat < 256 := by
  have hdigit := Nat.isDigit_of_mem_toDigits (by decide) (by decide) hchar
  rw [Char.isDigit, Bool.and_eq_true, decide_eq_true_iff, decide_eq_true_iff] at hdigit
  obtain ⟨hlow, hhigh⟩ := hdigit
  have hlow' : 48 ≤ char.toNat := hlow
  have hhigh' : char.toNat ≤ 57 := hhigh
  omega

/-- Two numbers that are printed one after the other, with an underscore between them, can be read
back. -/
theorem decimal_pair_inj {first second first' second' : ℕ}
    (hequal : decimal first ++ ofChars ['_'] ++ decimal second =
      decimal first' ++ ofChars ['_'] ++ decimal second') :
    first = first' ∧ second = second' := by
  have hbytes : ∀ left right : ℕ, ∀ char ∈ Nat.toDigits 10 left ++ '_' :: Nat.toDigits 10 right,
      0 < char.toNat ∧ char.toNat < 256 := by
    intro left right char hchar
    rw [List.mem_append, List.mem_cons] at hchar
    rcases hchar with hleft | rfl | hright
    · exact byte_of_mem_toDigits hleft
    · decide
    · exact byte_of_mem_toDigits hright
  have hchars : Nat.toDigits 10 first ++ '_' :: Nat.toDigits 10 second =
      Nat.toDigits 10 first' ++ '_' :: Nat.toDigits 10 second' := by
    refine ofChars_inj (hbytes first second) (hbytes first' second') ?_
    rw [List.append_cons, List.append_cons (Nat.toDigits 10 first')]
    simp only [ofChars_append]
    exact hequal
  obtain ⟨hfirst, -, hsecond⟩ := (List.append_cons_inj_of_notMem Nat.underscore_not_in_toDigits
    Nat.underscore_not_in_toDigits).mp hchars
  have hread : ∀ left right : ℕ, Nat.toDigits 10 left = Nat.toDigits 10 right → left = right := by
    intro left right hdigits
    have hvalue := congrArg (Nat.ofDigitChars 10 · 0) hdigits
    rwa [Nat.ofDigitChars_ten_toDigits, Nat.ofDigitChars_ten_toDigits] at hvalue
  exact ⟨hread _ _ hfirst, hread _ _ hsecond⟩

end OneOS.Foundation
