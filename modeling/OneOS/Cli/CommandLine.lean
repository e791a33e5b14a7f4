import OneOS.Foundation.CStrings
import OneOS.Foundation.Tokens

/-!
# Parsing a command line

`cli_parse_input` of `bin/cli/cli.c`. The first token of the input is the command, and those after
it are its arguments, of which at most `MAX_ARG_COUNT - 1` are stored: the loop leaves the others
out. The command is copied into a buffer of 64 bytes without a look at its length, so what C does
with a longer one is undefined (`ParseOutcome.overrun`).

`cliParseInput_spec` says what comes out for every input. Allocations are taken to succeed, and the
check of the pointer is left out.
-/

set_option autoImplicit false
set_option relaxedAutoImplicit false

namespace OneOS.Cli

open Foundation

/-- `MAX_ARG_COUNT`. -/
def maxArgCount : ℕ := 32

/-- The size of the field `command` of a result. -/
def commandSize : ℕ := 64

/-- `cli_parse_result_t`, with the arguments up to `argc`. -/
structure CliParseResult where
  command : CString
  args : List CString
  argc : ℕ
  -- with its terminator, the command lies in its field
  command_fits : command.length < commandSize
  args_fit : args.length < maxArgCount
  argc_eq : argc = args.length
  deriving DecidableEq

/-- How a call of `cli_parse_input` ends. -/
inductive ParseOutcome
  | null
  | overrun
  | parsed (result : CliParseResult)
  deriving DecidableEq

/-- The separators that are handed to `strtok`. -/
def isBlank (char : CChar) : Bool :=
  char.val == 32 || char.val == 9 || char.val == 10

/-- The arguments that the loop of `cli_parse_input` stores. -/
def storedArgs (rest : CString) : List CString :=
  readTokens isBlank (maxArgCount - 1) rest

theorem storedArgs_eq (rest : CString) :
    storedArgs rest = (tokens isBlank rest).take (maxArgCount - 1) :=
  readTokens_eq _ _

theorem storedArgs_fit (rest : CString) : (storedArgs rest).length < maxArgCount := by
  rw [storedArgs_eq]
  exact Nat.lt_of_le_of_lt (List.length_take_le _ _) (by decide)

/-- `cli_parse_input`. -/
def cliParseInput (input : CString) : ParseOutcome :=
  if input.length = 0 then .null
  else
    match nextToken isBlank input with
    | none => .null
    | some (token, rest) =>
      if hfits : token.length < commandSize then
        .parsed
          { command := token
            args := storedArgs rest
            argc := (storedArgs rest).length
            command_fits := hfits
            args_fit := storedArgs_fit rest
            argc_eq := rfl }
      else .overrun

/-- What is claimed of an input: the result is `NULL` exactly when there is no token, and otherwise
it holds the first token and all others. -/
structure ParsesAll (input : CString) : Prop where
  null_iff : cliParseInput input = .null ↔ tokens isBlank input = []
  parsed : ∀ command args, tokens isBlank input = command :: args →
    ∃ result, cliParseInput input = .parsed result ∧ result.command = command ∧
      result.args = args ∧ result.argc = args.length

variable {input command : CString} {args : List CString}

/-- Without a token there is no result. -/
theorem cliParseInput_of_no_tokens (hnone : tokens isBlank input = []) :
    cliParseInput input = .null := by
  rw [tokens_eq] at hnone
  rw [cliParseInput]
  split_ifs
  · rfl
  · cases hnext : nextToken isBlank input with
    | none => rfl
    | some read =>
      rw [hnext] at hnone
      exact absurd hnone (List.cons_ne_nil _ _)

/-- With a token, what comes out is decided by its length. -/
theorem cliParseInput_of_tokens (htokens : tokens isBlank input = command :: args) :
    (commandSize ≤ command.length → cliParseInput input = .overrun) ∧
    (command.length < commandSize → ∃ result, cliParseInput input = .parsed result ∧
      result.command = command ∧ result.args = args.take (maxArgCount - 1) ∧
      result.argc = min (maxArgCount - 1) args.length) := by
  have hne : ¬ input.length = 0 := by
    intro hempty
    rw [List.length_eq_zero_iff.mp hempty, tokens_nil] at htokens
    exact absurd htokens.symm (List.cons_ne_nil _ _)
  rw [tokens_eq] at htokens
  rw [cliParseInput, if_neg hne]
  cases hnext : nextToken isBlank input with
  | none =>
    rw [hnext] at htokens
    exact absurd htokens.symm (List.cons_ne_nil _ _)
  | some read =>
    obtain ⟨token, rest⟩ := read
    rw [hnext] at htokens
    obtain ⟨rfl, rfl⟩ := List.cons.inj htokens
    refine ⟨fun hlong ↦ dif_neg (Nat.not_lt.mpr hlong), fun hfits ↦ ⟨_, dif_pos hfits, rfl, ?_, ?_⟩⟩
    · exact storedArgs_eq rest
    · exact (congrArg List.length (storedArgs_eq rest)).trans List.length_take

/-- For every input, the result is `NULL` exactly when the input has no token. Otherwise, when the
first token fits its field, it is the command; the arguments are as many of the others as there is
room for, in order; and `argc` is their number. -/
theorem cliParseInput_spec (input : CString) :
    (cliParseInput input = .null ↔ tokens isBlank input = []) ∧
    ∀ command args, tokens isBlank input = command :: args → command.length < commandSize →
      ∃ result, cliParseInput input = .parsed result ∧ result.command = command ∧
        result.args = args.take (maxArgCount - 1) ∧
        result.argc = min (maxArgCount - 1) args.length := by
  refine ⟨⟨fun hnull ↦ ?_, cliParseInput_of_no_tokens⟩, fun command args htokens hfits ↦ ?_⟩
  · cases htokens : tokens isBlank input with
    | nil => rfl
    | cons command args =>
      obtain ⟨hlong, hshort⟩ := cliParseInput_of_tokens htokens
      rcases Nat.lt_or_ge command.length commandSize with hfits | hover
      · obtain ⟨result, hresult, -⟩ := hshort hfits
        rw [hresult] at hnull
        exact ParseOutcome.noConfusion hnull
      · rw [hlong hover] at hnull
        exact ParseOutcome.noConfusion hnull
  · exact (cliParseInput_of_tokens htokens).2 hfits

/-- A command and one argument more than are stored, each of one letter. -/
def tooManyArguments : CString :=
  ofChars ('x' :: (List.replicate maxArgCount [' ', 'a']).flatten)

/-- The last of 32 arguments is dropped. -/
theorem not_parsesAll_tooManyArguments : ¬ ParsesAll tooManyArguments := by
  intro hall
  have htokens : tokens isBlank tooManyArguments =
      ofChars ['x'] :: List.replicate maxArgCount (ofChars ['a']) := by
    decide
  obtain ⟨result, hresult, -, hargs, -⟩ := hall.parsed _ _ htokens
  have hfit := result.args_fit
  rw [hargs, List.length_replicate] at hfit
  exact Nat.lt_irrefl _ hfit

end OneOS.Cli
