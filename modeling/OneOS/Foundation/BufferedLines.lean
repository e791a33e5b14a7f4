import Mathlib.Algebra.Order.Group.Nat
import Mathlib.Data.List.ModifyLast
import Mathlib.Data.List.TakeWhile

/-!
# Lines that are read through a buffer

A text is read piece by piece into a buffer, as `fgets` does: a piece goes on to the next end of a
line, which belongs to it, or as far as there is room (`readPiece`). A line that is longer than the
buffer is therefore read as several pieces, and the pieces, without the ends of lines, are the lines
cut at the multiples of the room (`cutLines`).

A list that grows at its end is cut into parts in the same way by filling up the last part and
opening a new one when it is full (`cutLine_concat`).

`cutLines_eq` says what reading one piece takes from the cut lines: the first of them, unless the
piece is blank, and then none. A loop that reads pieces and passes over the blank ones sees the cut
lines one after the other.
-/

set_option autoImplicit false
set_option relaxedAutoImplicit false

namespace OneOS.Foundation

variable {Symbol : Type*} {isEnd : Symbol → Bool} {line text : List Symbol} {room : ℕ}

/-- The piece of a text that is read when there is room for as many symbols. -/
def readPiece (isEnd : Symbol → Bool) : (room : ℕ) → (text : List Symbol) → List Symbol
  | 0, _ => []
  | _ + 1, [] => []
  | room + 1, symbol :: text =>
    if isEnd symbol then [symbol] else symbol :: readPiece isEnd room text

/-- A text up to the end of its first line. -/
def upToEnd (isEnd : Symbol → Bool) (text : List Symbol) : List Symbol :=
  text.takeWhile fun symbol ↦ !isEnd symbol

/-- A line cut at the multiples of the room. -/
def cutLine (room : ℕ) (line : List Symbol) : List (List Symbol) :=
  (List.range ((line.length + room - 1) / room)).map fun i ↦ (line.drop (i * room)).take room

/-- The lines of a text, each cut at the multiples of the room. -/
def cutLines (isEnd : Symbol → Bool) (room : ℕ) (text : List Symbol) : List (List Symbol) :=
  (text.splitOnP isEnd).flatMap (cutLine room)

/-! ### Cutting one line -/

theorem cutLine_nil (hroom : 0 < room) : cutLine room ([] : List Symbol) = [] := by
  rw [cutLine, List.length_nil, Nat.zero_add, Nat.div_eq_of_lt (Nat.sub_one_lt_of_lt hroom)]
  rfl

/-- The first part of a line is as long as there is room, and the others are those of the rest. -/
theorem cutLine_of_ne_nil (hroom : 0 < room) (hline : line ≠ []) :
    cutLine room line = line.take room :: cutLine room (line.drop room) := by
  have hpos : 0 < line.length := List.length_pos_iff.mpr hline
  have hcount :
      (line.length + room - 1) / room = ((line.drop room).length + room - 1) / room + 1 := by
    rw [List.length_drop, ← Nat.add_div_right _ hroom]
    rcases Nat.lt_or_ge line.length room with hshort | hlong
    · rw [Nat.sub_eq_zero_of_le hshort.le]
      have hleft : (line.length + room - 1) / room = 1 := by
        rw [Nat.div_eq_iff hroom]
        omega
      have hright : (0 + room - 1 + room) / room = 1 := by
        rw [Nat.div_eq_iff hroom]
        omega
      rw [hleft, hright]
    · congr 1
      omega
  rw [cutLine, hcount, List.range_succ_eq_map, List.map_cons, List.map_map, Nat.zero_mul,
    List.drop_zero, cutLine]
  congr 1
  refine List.map_congr_left fun i _ ↦ ?_
  rw [Function.comp_apply, List.drop_drop, Nat.succ_mul, Nat.add_comm]

/-- A line for which there is room has one part, unless it is empty. -/
theorem cutLine_of_length_le (hroom : 0 < room) (hfits : line.length ≤ room) :
    cutLine room line = if line = [] then [] else [line] := by
  split_ifs with hline
  · rw [hline, cutLine_nil hroom]
  · rw [cutLine_of_ne_nil hroom hline, List.take_of_length_le hfits,
      List.drop_eq_nil_of_le hfits, cutLine_nil hroom]

theorem length_cutLine (room : ℕ) (line : List Symbol) :
    (cutLine room line).length = (line.length + room - 1) / room := by
  rw [cutLine, List.length_map, List.length_range]

/-- The parts of a line make up the line. -/
theorem flatten_cutLine (hroom : 0 < room) (line : List Symbol) :
    (cutLine room line).flatten = line := by
  induction hlength : line.length using Nat.strong_induction_on generalizing line with
  | _ length ih =>
    by_cases hline : line = []
    · rw [hline, cutLine_nil hroom, List.flatten_nil]
    · have hpos := List.length_pos_iff.mpr hline
      rw [cutLine_of_ne_nil hroom hline, List.flatten_cons, ih (line.drop room).length _ _ rfl,
        List.take_append_drop]
      rw [List.length_drop]
      omega

/-- There is no part that is not full exactly when the line is a multiple of the room long. -/
theorem last_cutLine_full_iff (hroom : 0 < room) (line : List Symbol) :
    ((cutLine room line).getLast?.all fun part ↦ room ≤ part.length) = true ↔
      room ∣ line.length := by
  induction hlength : line.length using Nat.strong_induction_on generalizing line with
  | _ length ih =>
    subst hlength
    by_cases hline : line = []
    · rw [hline, cutLine_nil hroom]
      exact iff_of_true rfl (Nat.dvd_zero room)
    have hpos := List.length_pos_iff.mpr hline
    rcases Nat.lt_or_ge line.length room with hshort | hlong
    · rw [cutLine_of_length_le hroom hshort.le, if_neg hline]
      exact iff_of_false (by simpa using hshort) (Nat.not_dvd_of_pos_of_lt hpos hshort)
    · have hrest := ih (line.drop room).length (by rw [List.length_drop]; omega) _ rfl
      have hdvd : room ∣ (line.drop room).length ↔ room ∣ line.length := by
        rw [List.length_drop]
        exact Nat.dvd_sub_iff_left hlong (Nat.dvd_refl room)
      rw [cutLine_of_ne_nil hroom hline, ← hdvd, ← hrest]
      cases cutLine room (line.drop room) with
      | nil =>
        have hfull : room ≤ (line.take room).length := by rw [List.length_take_of_le hlong]
        exact iff_of_true (by simpa using hfull) rfl
      | cons part parts => rw [List.getLast?_cons_cons]

/-- A line that grows by one symbol: the last part grows, or a new one is opened when there is none
or it is full. -/
theorem cutLine_concat (hroom : 0 < room) (line : List Symbol) (symbol : Symbol) :
    cutLine room (line ++ [symbol]) =
      (if ((cutLine room line).getLast?.all fun part ↦ room ≤ part.length) = true
        then cutLine room line ++ [[]] else cutLine room line).modifyLast fun part ↦
          part ++ [symbol] := by
  induction hlength : line.length using Nat.strong_induction_on generalizing line with
  | _ length ih =>
    rcases Nat.lt_or_ge line.length room with hshort | hlong
    · have hfits : (line ++ [symbol]).length ≤ room := by
        rw [List.length_append]
        exact hshort
      rw [cutLine_of_length_le hroom hfits, if_neg (List.append_ne_nil_of_right_ne_nil _ (by simp)),
        cutLine_of_length_le hroom hshort.le]
      by_cases hline : line = []
      · rw [hline, if_pos rfl]
        rfl
      · rw [if_neg hline, if_neg (by simpa using hshort)]
        rfl
    · have hline : line ≠ [] := List.ne_nil_of_length_pos (hroom.trans_le hlong)
      have hshorter : (line.drop room).length < length := by
        rw [List.length_drop]
        omega
      rw [cutLine_of_ne_nil hroom (List.append_ne_nil_of_left_ne_nil hline _),
        List.take_append_of_le_length hlong, List.drop_append_of_le_length hlong,
        ih _ hshorter _ rfl, cutLine_of_ne_nil hroom hline]
      generalize hparts : cutLine room (line.drop room) = parts
      cases parts with
      | nil =>
        have hfull : room ≤ (line.take room).length := by rw [List.length_take_of_le hlong]
        rw [List.getLast?_nil, Option.all_none, if_pos rfl, if_pos (by simpa using hfull)]
        exact (List.modifyLast_append_of_right_ne_nil _ [line.take room] [[]] (by simp)).symm
      | cons part parts =>
        have hlater : ∀ others : List (List Symbol), others ≠ [] →
            line.take room :: others.modifyLast (· ++ [symbol]) =
              (line.take room :: others).modifyLast (· ++ [symbol]) :=
          fun others hothers ↦
            (List.modifyLast_append_of_right_ne_nil _ [line.take room] others hothers).symm
        rw [List.getLast?_cons_cons]
        split_ifs
        · exact hlater _ (by simp)
        · exact hlater _ (by simp)

/-! ### Reading one piece -/

/-- Assumes: a line without ends, and a rest that is empty or begins with an end. What is read is a
part of the line, or all of it with its end. -/
theorem readPiece_append (hline : ∀ symbol ∈ line, isEnd symbol = false)
    (hrest : ∀ symbol ∈ text.head?, isEnd symbol = true) :
    readPiece isEnd room (line ++ text) =
      if line.length < room then line ++ text.take 1 else line.take room := by
  induction line generalizing room with
  | nil =>
    cases room with
    | zero => rfl
    | succ room =>
      rw [List.length_nil, if_pos (Nat.succ_pos room), List.nil_append, List.nil_append]
      cases text with
      | nil => rfl
      | cons symbol text => exact if_pos (hrest symbol rfl)
  | cons symbol line ih =>
    cases room with
    | zero => rfl
    | succ room =>
      rw [List.cons_append, readPiece, if_neg (by simp [hline symbol List.mem_cons_self]),
        ih fun other hother ↦ hline other (List.mem_cons_of_mem _ hother)]
      split_ifs with hfits hlonger hlonger
      · rfl
      · exact absurd (Nat.succ_lt_succ hfits) hlonger
      · exact absurd (Nat.lt_of_succ_lt_succ hlonger) hfits
      · rfl

/-- A text is its first line, which has no end in it, and a rest that begins with an end. -/
theorem exists_line (isEnd : Symbol → Bool) (text : List Symbol) :
    ∃ line rest, text = line ++ rest ∧ (∀ symbol ∈ line, isEnd symbol = false) ∧
      ∀ symbol ∈ rest.head?, isEnd symbol = true := by
  refine ⟨upToEnd isEnd text, text.dropWhile fun symbol ↦ !isEnd symbol,
    List.takeWhile_append_dropWhile.symm, fun symbol hsymbol ↦ ?_, fun symbol hsymbol ↦ ?_⟩
  · simpa using List.mem_takeWhile_imp hsymbol
  · have hhead := List.head?_dropWhile_not (fun symbol ↦ !isEnd symbol) text
    rw [Option.mem_def.mp hsymbol] at hhead
    simpa using hhead

/-- The cut lines of a line and what follows it. -/
theorem cutLines_append (hline : ∀ symbol ∈ line, isEnd symbol = false)
    (hrest : ∀ symbol ∈ text.head?, isEnd symbol = true) (hroom : 0 < room) :
    cutLines isEnd room (line ++ text) =
      cutLine room line ++ cutLines isEnd room (text.drop 1) := by
  cases text with
  | nil =>
    rw [List.append_nil, cutLines, List.splitOnP_eq_singleton hline, List.drop_nil, cutLines,
      List.splitOnP_nil, List.flatMap_singleton, List.flatMap_singleton, cutLine_nil hroom,
      List.append_nil]
  | cons symbol text =>
    rw [cutLines, List.splitOnP_append_cons_of_forall_mem hline symbol (hrest symbol rfl),
      List.flatMap_cons]
    rfl

/-- What is before the end of a line, when the line is known. -/
theorem upToEnd_append (hline : ∀ symbol ∈ line, isEnd symbol = false)
    (hrest : ∀ symbol ∈ text.head?, isEnd symbol = true) :
    upToEnd isEnd (line ++ text) = line := by
  rw [upToEnd, List.takeWhile_append_of_pos fun symbol hsymbol ↦ by rw [hline symbol hsymbol]; rfl]
  cases text with
  | nil => rw [List.takeWhile_nil, List.append_nil]
  | cons symbol text =>
    rw [List.takeWhile_cons_of_neg (by rw [hrest symbol rfl]; exact Bool.false_ne_true),
      List.append_nil]

/-- Assumes: the text has not been read to its end. Reading a piece takes symbols from the text, and
from the cut lines what is in the piece before its end. -/
theorem cutLines_eq (hroom : 0 < room) (htext : text ≠ []) :
    readPiece isEnd room text ≠ [] ∧
      cutLines isEnd room text =
        (if upToEnd isEnd (readPiece isEnd room text) = [] then []
          else [upToEnd isEnd (readPiece isEnd room text)]) ++
          cutLines isEnd room (text.drop (readPiece isEnd room text).length) := by
  obtain ⟨line, rest, rfl, hline, hrest⟩ := exists_line isEnd text
  rw [readPiece_append hline hrest, cutLines_append hline hrest hroom]
  rcases Nat.lt_or_ge line.length room with hfits | hlong
  · have htake : ∀ symbol ∈ (rest.take 1).head?, isEnd symbol = true := by
      intro symbol hsymbol
      rw [List.head?_take, if_neg Nat.one_ne_zero] at hsymbol
      exact hrest symbol hsymbol
    have hleft : (line ++ rest).drop (line ++ rest.take 1).length = rest.drop 1 := by
      rw [List.length_append, List.drop_append, List.length_take]
      cases rest <;> simp
    rw [if_pos hfits, upToEnd_append hline htake, cutLine_of_length_le hroom hfits.le, hleft]
    refine ⟨fun hnil ↦ htext ?_, rfl⟩
    obtain ⟨rfl, hempty⟩ := List.append_eq_nil_iff.mp hnil
    cases rest with
    | nil => rfl
    | cons symbol rest => exact absurd hempty (List.cons_ne_nil _ _)
  · have hpart : ∀ symbol ∈ line.take room, isEnd symbol = false :=
      fun symbol hsymbol ↦ hline symbol (List.mem_of_mem_take hsymbol)
    have hstripped : upToEnd isEnd (line.take room) = line.take room := by
      have hwhole := @upToEnd_append _ _ _ [] hpart fun _ hsymbol ↦ nomatch hsymbol
      rwa [List.append_nil] at hwhole
    have hsome : line.take room ≠ [] := by
      intro hnil
      have hlength := congrArg List.length hnil
      rw [List.length_take_of_le hlong] at hlength
      exact absurd hlength hroom.ne'
    have hline' : line ≠ [] := fun hnil ↦ hsome (by rw [hnil, List.take_nil])
    rw [if_neg (Nat.not_lt.mpr hlong), hstripped, if_neg hsome, List.length_take_of_le hlong,
      List.drop_append_of_le_length hlong, cutLine_of_ne_nil hroom hline', cutLines_append
        (fun symbol hsymbol ↦ hline symbol (List.mem_of_mem_drop hsymbol)) hrest hroom]
    exact ⟨hsome, rfl⟩

end OneOS.Foundation
