import Mathlib.Data.List.TakeWhile

/-!
# Tokens of a text

The tokens of a text are its longest parts without separators (`tokens`). They are read one after
the other, as `strtok` does: separators in front are passed over, the token goes on to the next
separator or to the end, and the separator behind it is passed over as well (`nextToken`).

`tokens_eq` says that what is read first is the first token and what is left holds the others, and
`readTokens_eq` that a loop which reads until there is no token or no room for one more gets as many
tokens, in order, as there is room for.
-/

set_option autoImplicit false
set_option relaxedAutoImplicit false

namespace OneOS.Foundation

variable {Symbol : Type*} {isSeparator : Symbol → Bool} {symbol : Symbol} {text word : List Symbol}

/-- The parts between separators, without the empty ones. -/
def tokens (isSeparator : Symbol → Bool) (text : List Symbol) : List (List Symbol) :=
  (text.splitOnP isSeparator).filter fun part ↦ !part.isEmpty

/-- The token that a text begins with, behind separators, and the text that is left. -/
def nextToken (isSeparator : Symbol → Bool) (text : List Symbol) :
    Option (List Symbol × List Symbol) :=
  match text.dropWhile isSeparator with
  | [] => none
  | first :: others =>
    some ((first :: others).takeWhile fun symbol ↦ !isSeparator symbol,
      ((first :: others).dropWhile fun symbol ↦ !isSeparator symbol).drop 1)

/-- The tokens that are read while there is room. -/
def readTokens (isSeparator : Symbol → Bool) : (room : ℕ) → (text : List Symbol) →
    List (List Symbol)
  | 0, _ => []
  | room + 1, text =>
    match nextToken isSeparator text with
    | none => []
    | some (token, rest) => token :: readTokens isSeparator room rest

/-! ### What the next token leaves -/

@[simp] theorem tokens_nil : tokens isSeparator [] = [] := by
  rw [tokens, List.splitOnP_nil]
  rfl

theorem tokens_cons_separator (hseparator : isSeparator symbol = true) :
    tokens isSeparator (symbol :: text) = tokens isSeparator text := by
  rw [tokens, List.splitOnP_cons_eq_if_modifyHead, if_pos hseparator]
  rfl

/-- Separators in front of a text do not matter. -/
theorem tokens_dropWhile : tokens isSeparator (text.dropWhile isSeparator) =
    tokens isSeparator text := by
  induction text with
  | nil => rfl
  | cons symbol text ih =>
    rw [List.dropWhile_cons]
    split_ifs with hseparator
    · rw [ih, tokens_cons_separator hseparator]
    · rfl

/-- Assumes: the word holds no separator and is not empty, and what follows it is nothing or begins
with a separator. Then the word is the first token. -/
theorem tokens_word_append {rest : List Symbol}
    (hword : ∀ symbol ∈ word, isSeparator symbol = false) (hne : word ≠ [])
    (hrest : ∀ symbol ∈ rest.head?, isSeparator symbol = true) :
    tokens isSeparator (word ++ rest) = word :: tokens isSeparator (rest.drop 1) := by
  have hkept : ∀ parts : List (List Symbol), (word :: parts).filter (fun part ↦ !part.isEmpty) =
      word :: parts.filter fun part ↦ !part.isEmpty := by
    intro parts
    exact List.filter_cons_of_pos (by rw [List.isEmpty_eq_false_iff.mpr hne]; rfl)
  cases rest with
  | nil =>
    rw [List.append_nil, tokens, List.splitOnP_eq_singleton hword, hkept]
    simp
  | cons separator others =>
    have hseparator := hrest separator rfl
    rw [tokens, List.splitOnP_append_cons_of_forall_mem hword separator hseparator, hkept]
    rfl

/-- What is read first is the first token, and what is left holds the others. -/
theorem tokens_eq : tokens isSeparator text =
    match nextToken isSeparator text with
    | none => []
    | some (token, rest) => token :: tokens isSeparator rest := by
  rw [← tokens_dropWhile, nextToken]
  cases hdrop : text.dropWhile isSeparator with
  | nil => exact tokens_nil
  | cons first others =>
    have hfirst : isSeparator first = false := by
      have hhead := List.head?_dropWhile_not isSeparator text
      rw [hdrop] at hhead
      exact hhead
    have hword : ∀ symbol ∈ (first :: others).takeWhile (fun symbol ↦ !isSeparator symbol),
        isSeparator symbol = false := by
      intro symbol hsymbol
      simpa using List.mem_takeWhile_imp hsymbol
    have hne : (first :: others).takeWhile (fun symbol ↦ !isSeparator symbol) ≠ [] := by
      rw [List.takeWhile_cons_of_pos (by rw [hfirst]; rfl)]
      exact List.cons_ne_nil _ _
    have hrest : ∀ symbol ∈ ((first :: others).dropWhile fun symbol ↦ !isSeparator symbol).head?,
        isSeparator symbol = true := by
      intro symbol hsymbol
      have hhead := List.head?_dropWhile_not (fun symbol ↦ !isSeparator symbol) (first :: others)
      rw [Option.mem_def.mp hsymbol] at hhead
      simpa using hhead
    have hfound := tokens_word_append hword hne hrest
    rw [List.takeWhile_append_dropWhile] at hfound
    exact hfound

/-- A loop that reads while there is room gets as many tokens as there is room for. -/
theorem readTokens_eq (room : ℕ) (text : List Symbol) :
    readTokens isSeparator room text = (tokens isSeparator text).take room := by
  induction room generalizing text with
  | zero => rfl
  | succ room ih =>
    rw [readTokens, tokens_eq]
    cases nextToken isSeparator text with
    | none => rfl
    | some read => exact congrArg (read.1 :: ·) (ih read.2)

end OneOS.Foundation
