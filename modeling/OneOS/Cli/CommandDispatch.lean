import Mathlib.Data.List.DropRight
import OneOS.Cli.CommandLine
import OneOS.Foundation.BufferedLines

/-!
# The shell

`bin/cli/cli.c` and the loop of `bin/cli/shell.c`. Commands are registered under a name, with the
level that is required for them and bounds for the number of arguments. A line that is executed is
parsed and added to the history, and its command is looked up, checked and performed. `main` reads
lines through a buffer until a command asks it to stop or there is nothing more to read.

What a command does is a parameter, as is the world that it acts on. A command sees the context; of
the context, the commands in `commands.c` and `extended_commands.c` change the current directory
(`cmd_cd`) and ask to stop (`cmd_exit`, `cmd_abhi_shutdown`, `cmd_abhi_reboot`), and no other part.
Of what is printed the errors of the dispatch are modelled, without the colours. Left out are checks
of pointers, allocations, which are taken to succeed, the prompt and the texts of help.
-/

set_option autoImplicit false
set_option relaxedAutoImplicit false

namespace OneOS.Cli

open Foundation

/-! ### Context -/

/-- `priv_level_t`. -/
inductive PrivLevel
  | privPublic
  | privUser
  | privAdmin
  | privSystem
  | privRoot
  deriving DecidableEq, Repr

/-- The number of a level. -/
def PrivLevel.toNat : PrivLevel → ℕ
  | .privPublic => 0
  | .privUser => 1
  | .privAdmin => 2
  | .privSystem => 3
  | .privRoot => 4

/-- `cli_status_t`. -/
inductive CliStatus
  | success
  | error
  | errorInvalidArg
  | errorNotFound
  | errorPermission
  deriving DecidableEq, Repr

/-- `MAX_HISTORY`. -/
def maxHistory : ℕ := 1000

/-- `MAX_COMMANDS`. -/
def maxCommands : ℕ := 256

/-- `INPUT_BUFFER_SIZE` of the shell. -/
def inputBufferSize : ℕ := 4096

/-- `cli_context_t`. -/
structure CliContext where
  currentLevel : PrivLevel
  currentUser : CString
  currentDir : CString
  history : List CString
  shouldExit : Bool
  -- the history lies in the memory that is allocated for it
  history_fits : history.length ≤ maxHistory
  deriving DecidableEq

/-- `cli_init_context`, where `root` says that the process runs as root. -/
def cliInitContext (root : Bool) : CliContext where
  currentLevel := if root then .privRoot else .privUser
  currentUser := ofChars (if root then ['r', 'o', 'o', 't'] else ['o', 'n', 'e', 'o', 's'])
  currentDir := ofChars ['/', 'h', 'o', 'm', 'e']
  history := []
  shouldExit := false
  history_fits := Nat.zero_le _

/-- The history after `cli_add_history`. -/
def addedHistory (history : List CString) (command : CString) : List CString :=
  if maxHistory ≤ history.length then history.drop 1 ++ [command] else history ++ [command]

theorem addedHistory_fits {history : List CString} (hfits : history.length ≤ maxHistory)
    (command : CString) : (addedHistory history command).length ≤ maxHistory := by
  have hpos : 0 < maxHistory := by decide
  rw [addedHistory]
  split_ifs with hfull
  · rw [List.length_append, List.length_drop, List.length_singleton]
    omega
  · rw [List.length_append, List.length_singleton]
    omega

/-- `cli_add_history`. -/
def CliContext.addHistory (context : CliContext) (command : CString) : CliContext :=
  { context with
    history := addedHistory context.history command
    history_fits := addedHistory_fits context.history_fits command }

/-! ### Commands -/

/-- What a command does: to the world, to the current directory, and whether it asks to stop. -/
structure Effect (World : Type*) where
  world : World
  currentDir : CString
  exits : Bool
  status : CliStatus

/-- `cli_command_t`. -/
structure CliCommand (World : Type*) where
  name : CString
  execute : List CString → CliContext → World → Effect World
  requiredLevel : PrivLevel
  minArgs : ℤ
  maxArgs : ℤ
  usage : CString

/-- The shell: its context, the registered commands, the world and the errors that it printed. -/
structure Shell (World : Type*) where
  context : CliContext
  commands : List (CliCommand World)
  world : World
  errors : List CString

variable {World : Type*}

/-- `cli_check_permission`. -/
def cliCheckPermission (context : CliContext) (required : PrivLevel) : Bool :=
  required.toNat ≤ context.currentLevel.toNat

/-- `cli_print_error`. -/
def cliPrintError (shell : Shell World) (text : CString) : Shell World :=
  { shell with errors := shell.errors ++ [text] }

/-- `cli_register_command`. -/
def cliRegisterCommand (shell : Shell World) (command : CliCommand World) : Shell World :=
  if maxCommands ≤ shell.commands.length then
    cliPrintError shell (ofChars "Command registry full".toList)
  else { shell with commands := shell.commands ++ [command] }

/-- `cli_command_exists`, with the command that is found for its index. -/
def cliCommandExists (commands : List (CliCommand World)) (name : CString) :
    Option (CliCommand World) :=
  commands.find? fun command ↦ command.name = name

/-- The number of arguments is one that the command takes. -/
def CliCommand.takesArgs (command : CliCommand World) (argc : ℤ) : Bool :=
  !(argc < command.minArgs || (0 < command.maxArgs && command.maxArgs < argc))

/-- A command is performed. -/
def Shell.perform (shell : Shell World) (command : CliCommand World) (args : List CString) :
    Shell World × CliStatus :=
  let effect := command.execute args shell.context shell.world
  ({ shell with
    context := { shell.context with
      currentDir := effect.currentDir
      shouldExit := shell.context.shouldExit || effect.exits }
    world := effect.world }, effect.status)

/-- `cli_dispatch_command`. -/
def cliDispatchCommand (shell : Shell World) (name : CString) (args : List CString) :
    Shell World × CliStatus :=
  match cliCommandExists shell.commands name with
  | none =>
    (cliPrintError shell (ofChars "Command not found: ".toList ++ name), .errorNotFound)
  | some command =>
    if !cliCheckPermission shell.context command.requiredLevel then
      (cliPrintError shell (ofChars "Permission denied".toList), .errorPermission)
    else if !command.takesArgs args.length then
      (cliPrintError shell (ofChars "Invalid argument count. Usage: ".toList ++ command.usage),
        .errorInvalidArg)
    else shell.perform command args

/-- `cli_execute_command`. A command that does not fit its field ends the model: what C does then is
undefined. -/
def cliExecuteCommand (shell : Shell World) (line : CString) : Option (Shell World × CliStatus) :=
  match cliParseInput line with
  | .null => some (shell, .errorInvalidArg)
  | .overrun => none
  | .parsed result =>
    some (cliDispatchCommand { shell with context := shell.context.addHistory line } result.command
      result.args)

/-! ### The loop -/

/-- The end of a line. -/
def isNewline (byte : UInt8) : Bool :=
  byte == 10

/-- The string in a buffer: the bytes before the first 0. -/
def bufferString : List UInt8 → CString
  | [] => []
  | byte :: bytes => if hbyte : byte ≠ 0 then ⟨byte, hbyte⟩ :: bufferString bytes else []

/-- `fgets`: what is read, and what is left. -/
def fgets (size : ℕ) (stdin : List UInt8) : Option (List UInt8 × List UInt8) :=
  if stdin = [] then none
  else
    let piece := readPiece isNewline (size - 1) stdin
    some (piece, stdin.drop piece.length)

/-- The loop of `main`. -/
def shellLoop : (fuel : ℕ) → Shell World → List UInt8 → Option (Shell World)
  | 0, _, _ => none
  | fuel + 1, shell, stdin =>
    if shell.context.shouldExit then some shell
    else
      match fgets inputBufferSize stdin with
      | none => some shell
      | some (inputBuffer, rest) =>
        -- the string is cut where `strcspn` finds the end of the line
        let line := (bufferString inputBuffer).takeWhile fun char ↦ !isNewline char.val
        if line.length = 0 then shellLoop fuel shell rest
        else (cliExecuteCommand shell line).bind fun executed ↦ shellLoop fuel executed.1 rest

/-- `main` of the shell, with the commands that it registers. Every piece that is read is a byte at
least, so that many rounds are enough. -/
def shellMain (commands : List (CliCommand World)) (root : Bool) (world : World)
    (stdin : List UInt8) : Option (Shell World) :=
  shellLoop (stdin.length + 1)
    (commands.foldl cliRegisterCommand
      { context := cliInitContext root, commands := [], world := world, errors := [] })
    stdin

end OneOS.Cli
