import Mathlib.Data.List.Basic
import Mathlib.Data.List.GetD
import Mathlib.Logic.Function.Iterate

/-!
# Shift registers with feedback

A register is shifted towards its lowest place; the bit that falls out decides whether a word, the
taps, is taken in by exclusive or (`shiftStep`). A register is fed bits one by one, each by
exclusive or with the lowest place before a shift (`feedAll`). This is the division of the bits, as
a polynomial over the field of two elements, by the polynomial of the taps.

Feeding is linear (`feedAll_xor`): what two sequences of bits make of one register differs by what
their exclusive or makes of a register that is 0. With a tap in the highest place a shift loses
nothing, so a register that is not 0 stays so as long as only bits 0 are fed. And bits that are no
more than the places of the register leave 0 behind only if they are what the register held before
(`getLsbD_of_feedAll_eq_zero`). Together, a burst of errors that is no longer than the register is
always seen at its end (`feedAll_ne_of_burst`). And a register can be brought to everything, in one
way, with as many bits as it has places (`existsUnique_feedAll`).
-/

set_option autoImplicit false
set_option relaxedAutoImplicit false

namespace OneOS.Foundation

variable {width : ℕ} {taps register other : BitVec width} {bits : List Bool}

/-! ### Shifting and feeding -/

/-- Shift a register, and take in the taps if the bit that falls out is set. -/
def shiftStep (taps register : BitVec width) : BitVec width :=
  if register.getLsbD 0 then (register >>> 1) ^^^ taps else register >>> 1

/-- A word that has a bit in its lowest place. -/
def lowBit (width : ℕ) (bit : Bool) : BitVec width :=
  BitVec.setWidth width (BitVec.ofBool bit)

/-- Feed a bit to a register. -/
def feed (taps register : BitVec width) (bit : Bool) : BitVec width :=
  shiftStep taps (register ^^^ lowBit width bit)

/-- Feed bits to a register, one after the other. -/
def feedAll (taps register : BitVec width) (bits : List Bool) : BitVec width :=
  bits.foldl (feed taps) register

@[simp] theorem feedAll_nil : feedAll taps register [] = register := rfl

@[simp] theorem feedAll_cons (bit : Bool) :
    feedAll taps register (bit :: bits) = feedAll taps (feed taps register bit) bits := rfl

theorem feedAll_append (later : List Bool) :
    feedAll taps register (bits ++ later) = feedAll taps (feedAll taps register bits) later :=
  List.foldl_append

theorem getLsbD_lowBit (bit : Bool) (i : ℕ) :
    (lowBit width bit).getLsbD i = (decide (i < width) && decide (i = 0) && bit) := by
  rw [lowBit, BitVec.getLsbD_setWidth, BitVec.getLsbD_ofBool]
  cases bit <;> simp

/-! ### Linearity -/

/-- Shifting is linear. -/
theorem shiftStep_xor :
    shiftStep taps (register ^^^ other) = shiftStep taps register ^^^ shiftStep taps other := by
  refine BitVec.eq_of_getLsbD_eq fun i _ ↦ ?_
  simp only [shiftStep, BitVec.getLsbD_xor, BitVec.ushiftRight_xor_distrib]
  cases register.getLsbD 0 <;> cases other.getLsbD 0 <;> simp [Bool.xor_comm, Bool.xor_left_comm]

theorem lowBit_xor (bit otherBit : Bool) :
    lowBit width (bit ^^ otherBit) = lowBit width bit ^^^ lowBit width otherBit := by
  refine BitVec.eq_of_getLsbD_eq fun i _ ↦ ?_
  rw [BitVec.getLsbD_xor, getLsbD_lowBit, getLsbD_lowBit, getLsbD_lowBit]
  cases bit <;> cases otherBit <;> simp

theorem feed_xor (bit otherBit : Bool) :
    feed taps (register ^^^ other) (bit ^^ otherBit) =
      feed taps register bit ^^^ feed taps other otherBit := by
  rw [feed, feed, feed, ← shiftStep_xor, lowBit_xor]
  congr 1
  rw [BitVec.xor_assoc, BitVec.xor_assoc, ← BitVec.xor_assoc other,
    BitVec.xor_comm other (lowBit width bit), BitVec.xor_assoc]

/-- Feeding is linear. -/
theorem feedAll_xor {others : List Bool} (hlength : bits.length = others.length) :
    feedAll taps (register ^^^ other) (List.zipWith xor bits others) =
      feedAll taps register bits ^^^ feedAll taps other others := by
  induction bits generalizing register other others with
  | nil =>
    rw [List.length_eq_zero_iff.mp hlength.symm]
    rfl
  | cons bit bits ih =>
    obtain ⟨otherBit, others, rfl⟩ := List.exists_cons_of_length_eq_add_one hlength.symm
    rw [List.zipWith_cons_cons, feedAll_cons, feed_xor]
    exact ih (Nat.succ.inj hlength)

/-! ### What is not lost -/

/-- Assumes: a tap in the highest place. A shift whose result has no bit in the highest place had
none in the lowest place before. -/
theorem getLsbD_zero_of_shiftStep (htap : taps.getLsbD (width - 1) = true)
    (hhighest : (shiftStep taps register).getLsbD (width - 1) = false) :
    register.getLsbD 0 = false := by
  by_contra hlowest
  rw [Bool.not_eq_false] at hlowest
  have hwidth : 0 < width := Nat.pos_of_ne_zero fun hzero ↦ by
    rw [BitVec.getLsbD_of_ge _ _ (by omega)] at htap
    exact Bool.false_ne_true htap
  have hout : register.getLsbD (1 + (width - 1)) = false := BitVec.getLsbD_of_ge _ _ (by omega)
  rw [shiftStep, if_pos hlowest, BitVec.getLsbD_xor, BitVec.getLsbD_ushiftRight, hout,
    htap] at hhighest
  exact Bool.noConfusion hhighest

/-- Assumes: a tap in the highest place. Bits that are no more than the places of a register leave 0
behind only if they are what the register held. -/
theorem getLsbD_of_feedAll_eq_zero (htap : taps.getLsbD (width - 1) = true)
    (hlength : bits.length ≤ width) (hzero : feedAll taps register bits = 0) :
    ∀ i, register.getLsbD i = bits.getD i false := by
  -- the places behind those that are still to be fed are 0, so the taps are never taken in
  induction bits generalizing register with
  | nil =>
    intro i
    rw [show register = 0 from hzero]
    simp
  | cons bit bits ih =>
    rw [List.length_cons] at hlength
    have hrest := ih (by omega) hzero
    have hhighest : (feed taps register bit).getLsbD (width - 1) = false := by
      rw [hrest, List.getD_eq_default _ _ (by omega)]
    have hlowest := getLsbD_zero_of_shiftStep htap hhighest
    have hshift : feed taps register bit = (register ^^^ lowBit width bit) >>> 1 := by
      rw [feed, shiftStep, hlowest]
      exact if_neg Bool.false_ne_true
    intro i
    cases i with
    | zero =>
      rw [BitVec.getLsbD_xor, getLsbD_lowBit] at hlowest
      have hwidth : 0 < width := by omega
      rw [List.getD_cons_zero]
      simpa [hwidth] using hlowest
    | succ i =>
      have hplace := hrest i
      rw [hshift, BitVec.getLsbD_ushiftRight, BitVec.getLsbD_xor, getLsbD_lowBit] at hplace
      rw [List.getD_cons_succ, ← hplace, Nat.add_comm i 1]
      simp

/-- Assumes: a tap in the highest place. A register that is not 0 stays so when only bits 0 are
fed. -/
theorem feedAll_ne_zero_of_false (htap : taps.getLsbD (width - 1) = true)
    (hfalse : ∀ bit ∈ bits, bit = false) (hregister : register ≠ 0) :
    feedAll taps register bits ≠ 0 := by
  induction bits generalizing register with
  | nil => exact hregister
  | cons bit bits ih =>
    obtain ⟨rfl, hrest⟩ := List.forall_mem_cons.mp hfalse
    refine ih hrest fun hzero ↦ hregister ?_
    have hwidth : [false].length ≤ width := by
      by_contra hnone
      rw [BitVec.getLsbD_of_ge _ _ (by rw [List.length_singleton] at hnone; omega)] at htap
      exact Bool.false_ne_true htap
    refine BitVec.eq_of_getLsbD_eq fun i _ ↦ ?_
    rw [getLsbD_of_feedAll_eq_zero htap hwidth hzero i]
    cases i with
    | zero => simp
    | succ i => simp

/-- A register that is 0 stays so when only bits 0 are fed. -/
theorem feedAll_zero_of_false (hfalse : ∀ bit ∈ bits, bit = false) : feedAll taps 0 bits = 0 := by
  induction bits with
  | nil => rfl
  | cons bit bits ih =>
    obtain ⟨rfl, hrest⟩ := List.forall_mem_cons.mp hfalse
    have hzero : feed taps 0 false = 0 := by simp [feed, shiftStep, lowBit]
    rw [feedAll_cons, hzero]
    exact ih hrest

/-! ### Bursts -/

/-- Some of the bits are set, and all of those stand in a window of so many consecutive places. -/
def BurstWithin (length : ℕ) (bits : List Bool) : Prop :=
  true ∈ bits ∧ ∃ start, ∀ i < bits.length, bits.getD i false = true →
    start ≤ i ∧ i < start + length

/-- Assumes: a tap in the highest place. A burst that is no longer than the register does not leave
0 behind. -/
theorem feedAll_ne_zero_of_burst (htap : taps.getLsbD (width - 1) = true)
    (hburst : BurstWithin width bits) : feedAll taps 0 bits ≠ 0 := by
  obtain ⟨hset, start, hwindow⟩ := hburst
  have hfalse : ∀ i, i < start ∨ start + width ≤ i → bits.getD i false = false := by
    intro i hi
    by_cases hplace : i < bits.length
    · by_contra hbit
      rw [Bool.not_eq_false] at hbit
      have hinside := hwindow i hplace hbit
      omega
    · exact List.getD_eq_default _ _ (Nat.not_lt.mp hplace)
  -- before the window, in it, and behind it
  have hsplit : bits = bits.take start ++ ((bits.drop start).take width ++
      bits.drop (start + width)) := by
    rw [← List.drop_drop, List.take_append_drop, List.take_append_drop]
  have hbefore : ∀ bit ∈ bits.take start, bit = false := by
    intro bit hbit
    obtain ⟨i, hi, rfl⟩ := List.mem_iff_getElem.mp hbit
    rw [List.length_take] at hi
    rw [List.getElem_take, ← List.getD_eq_getElem _ false]
    exact hfalse i (Or.inl (by omega))
  have hafter : ∀ bit ∈ bits.drop (start + width), bit = false := by
    intro bit hbit
    obtain ⟨i, hi, rfl⟩ := List.mem_iff_getElem.mp hbit
    rw [List.getElem_drop, ← List.getD_eq_getElem _ false]
    exact hfalse _ (Or.inr (Nat.le_add_right _ _))
  rw [hsplit, feedAll_append, feedAll_append, feedAll_zero_of_false hbefore]
  refine feedAll_ne_zero_of_false htap hafter fun hzero ↦ ?_
  have hinside := getLsbD_of_feedAll_eq_zero htap (List.length_take_le _ _) hzero
  rw [hsplit, List.mem_append, List.mem_append] at hset
  rcases hset with hset | hset | hset
  · exact Bool.noConfusion (hbefore true hset)
  · obtain ⟨i, hi, hbit⟩ := List.mem_iff_getElem.mp hset
    have hplace := hinside i
    rw [List.getD_eq_getElem _ _ hi, hbit] at hplace
    exact Bool.false_ne_true (BitVec.getLsbD_zero.symm.trans hplace)
  · exact Bool.noConfusion (hafter true hset)

/-- Assumes: a tap in the highest place. Two sequences of as many bits, whose difference is a burst
that is no longer than the register, leave different things behind. -/
theorem feedAll_ne_of_burst (htap : taps.getLsbD (width - 1) = true) {others : List Bool}
    (hlength : bits.length = others.length)
    (hburst : BurstWithin width (List.zipWith xor bits others)) :
    feedAll taps register bits ≠ feedAll taps register others := by
  intro hequal
  refine feedAll_ne_zero_of_burst htap hburst ?_
  have hlinear : feedAll taps (register ^^^ register) (List.zipWith xor bits others) =
      feedAll taps register bits ^^^ feedAll taps register others := feedAll_xor hlength
  rw [BitVec.xor_self, hequal, BitVec.xor_self] at hlinear
  exact hlinear

/-! ### Words -/

/-- A word whose bits are fed from its lowest place on. -/
def wordOf (width : ℕ) : List Bool → BitVec width
  | [] => 0
  | bit :: bits => lowBit width bit ^^^ (wordOf width bits <<< 1)

theorem getLsbD_wordOf (i : ℕ) :
    (wordOf width bits).getLsbD i = (decide (i < width) && bits.getD i false) := by
  induction bits generalizing i with
  | nil => simp [wordOf]
  | cons bit bits ih =>
    rw [wordOf, BitVec.getLsbD_xor, getLsbD_lowBit, BitVec.getLsbD_shiftLeft]
    cases i with
    | zero => simp
    | succ i =>
      rw [Nat.add_sub_cancel, ih, List.getD_cons_succ]
      by_cases hplace : i + 1 < width
      · have hbefore : i < width := by omega
        simp [hplace, hbefore]
      · simp [hplace]

/-- Assumes: the bits are no more than the places. Taking in a word at once and shifting as often as
it has bits is feeding its bits. -/
theorem feedAll_eq_iterate (hlength : bits.length ≤ width) :
    feedAll taps register bits =
      (shiftStep taps)^[bits.length] (register ^^^ wordOf width bits) := by
  induction bits generalizing register with
  | nil =>
    rw [feedAll_nil, wordOf, List.length_nil, Function.iterate_zero, id_eq]
    exact (BitVec.xor_zero).symm
  | cons bit bits ih =>
    rw [List.length_cons] at hlength ⊢
    -- the word of the rest comes back to its place with the first shift
    have hrest : shiftStep taps (wordOf width bits <<< 1) = wordOf width bits := by
      refine BitVec.eq_of_getLsbD_eq fun i hi ↦ ?_
      have hlowest : (wordOf width bits <<< 1).getLsbD 0 = false := by simp
      rw [shiftStep, hlowest, if_neg Bool.false_ne_true, BitVec.getLsbD_ushiftRight,
        BitVec.getLsbD_shiftLeft]
      by_cases hplace : 1 + i < width
      · simp [hplace]
      · have hbehind : bits.length ≤ i := by omega
        rw [getLsbD_wordOf, getLsbD_wordOf, List.getD_eq_default _ _ hbehind]
        simp [hplace]
    rw [feedAll_cons, ih (by omega), Function.iterate_succ_apply, wordOf, ← BitVec.xor_assoc,
      shiftStep_xor, hrest]
    rfl

/-! ### Going back -/

/-- Undo a shift: the highest place tells whether the taps were taken in. -/
def shiftBack (taps register : BitVec width) : BitVec width :=
  if register.getLsbD (width - 1) then ((register ^^^ taps) <<< 1) ^^^ lowBit width true
  else register <<< 1

/-- Assumes: a tap in the highest place. Every word is left by a shift. -/
theorem shiftStep_shiftBack (htap : taps.getLsbD (width - 1) = true) :
    shiftStep taps (shiftBack taps register) = register := by
  have hwidth : 0 < width := Nat.pos_of_ne_zero fun hzero ↦ by
    rw [BitVec.getLsbD_of_ge _ _ (by omega)] at htap
    exact Bool.false_ne_true htap
  rw [shiftBack]
  split_ifs with hhighest
  · have hlowest : (((register ^^^ taps) <<< 1) ^^^ lowBit width true).getLsbD 0 = true := by
      rw [BitVec.getLsbD_xor, getLsbD_lowBit]
      simp [hwidth]
    rw [shiftStep, if_pos hlowest]
    refine BitVec.eq_of_getLsbD_eq fun i hi ↦ ?_
    rw [BitVec.getLsbD_xor, BitVec.getLsbD_ushiftRight, BitVec.getLsbD_xor, getLsbD_lowBit,
      BitVec.getLsbD_shiftLeft, BitVec.getLsbD_xor]
    by_cases hlast : 1 + i < width
    · simp [hlast]
    · obtain rfl : i = width - 1 := by omega
      simp [hhighest, htap, hlast]
  · have hlowest : (register <<< 1).getLsbD 0 ≠ true := by simp
    rw [shiftStep, if_neg hlowest]
    refine BitVec.eq_of_getLsbD_eq fun i hi ↦ ?_
    rw [BitVec.getLsbD_ushiftRight, BitVec.getLsbD_shiftLeft]
    by_cases hlast : 1 + i < width
    · simp [hlast]
    · obtain rfl : i = width - 1 := by omega
      simp [hlast, hhighest]

/-- Assumes: a tap in the highest place. Every word is left by so many shifts. -/
theorem exists_iterate_shiftStep (htap : taps.getLsbD (width - 1) = true) (rounds : ℕ)
    (target : BitVec width) : ∃ start, (shiftStep taps)^[rounds] start = target := by
  have hback : Function.LeftInverse (shiftStep taps) (shiftBack taps) := fun _ ↦
    shiftStep_shiftBack htap
  exact ⟨(shiftBack taps)^[rounds] target, hback.iterate rounds target⟩

/-- The bits of a word, the lowest first. -/
def bitsOf (word : BitVec width) : List Bool :=
  (List.range width).map word.getLsbD

theorem wordOf_bitsOf (word : BitVec width) : wordOf width (bitsOf word) = word := by
  refine BitVec.eq_of_getLsbD_eq fun i hi ↦ ?_
  rw [getLsbD_wordOf, bitsOf, List.getD_eq_getElem _ _ (by simpa using hi)]
  simp [hi]

/-- Assumes: a tap in the highest place. A register is brought to every word by as many bits as it
has places, in one way. -/
theorem existsUnique_feedAll (htap : taps.getLsbD (width - 1) = true)
    (register target : BitVec width) :
    ∃! bits : List Bool, bits.length = width ∧ feedAll taps register bits = target := by
  obtain ⟨start, hstart⟩ := exists_iterate_shiftStep htap width target
  have hlength : (bitsOf (register ^^^ start)).length = width := by
    rw [bitsOf, List.length_map, List.length_range]
  have hfeed : feedAll taps register (bitsOf (register ^^^ start)) = target := by
    rw [feedAll_eq_iterate (Nat.le_of_eq hlength), hlength, wordOf_bitsOf, ← BitVec.xor_assoc,
      BitVec.xor_self, BitVec.zero_xor, hstart]
  refine ⟨bitsOf (register ^^^ start), ⟨hlength, hfeed⟩, ?_⟩
  rintro bits ⟨hbits, htarget⟩
  have hlinear : feedAll taps (register ^^^ register)
      (List.zipWith xor bits (bitsOf (register ^^^ start))) =
        feedAll taps register bits ^^^ feedAll taps register (bitsOf (register ^^^ start)) :=
    feedAll_xor (hbits.trans hlength.symm)
  rw [BitVec.xor_self, hfeed, htarget, BitVec.xor_self] at hlinear
  have hsame := getLsbD_of_feedAll_eq_zero htap (by rw [List.length_zipWith]; omega) hlinear
  refine List.ext_getElem (hbits.trans hlength.symm) fun i hi hi' ↦ ?_
  have hplace := hsame i
  rw [List.getD_eq_getElem _ _ (by rw [List.length_zipWith]; omega), List.getElem_zipWith,
    BitVec.getLsbD_zero] at hplace
  exact bne_eq_false_iff_eq.mp hplace.symm

end OneOS.Foundation
