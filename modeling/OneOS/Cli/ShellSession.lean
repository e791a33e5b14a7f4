import Mathlib.Data.List.Forall2
import OneOS.Cli.CommandDispatch
import OneOS.Foundation.PartialRuns

/-!
# Sessions of the shell

The loop of `main` is a run of the lines that are typed (`shellMain_eq_run`): they are executed one
after the other, and as soon as a command has asked to stop nothing is done for those that follow
(`shellStep`). The lines are those of the input, cut at multiples of 4095 bytes, each up to its
first 0; blank ones are passed over. A line that is longer than that is executed as several lines.

Three results about every session rest on it. The session comes to its end exactly when no command
that is executed has 64 bytes or more (`isSome_shellMain_iff`). Its history is made of the newest
1000 lines with a token, in order, up to the one that asked to stop, and its level is the one that
it started with (`shellMain_history`). What a command does is of no account when its level is not
reached, or when it asks for more than the 31 arguments that are stored
(`shellMain_handlers`).
-/

set_option autoImplicit false
set_option relaxedAutoImplicit false

namespace OneOS.Cli

open Foundation

variable {World : Type*} {shell : Shell World} {line : CString}

/-! ### The lines that are typed -/

/-- The lines that the shell executes. -/
def typedLines (stdin : List UInt8) : List CString :=
  ((cutLines isNewline (inputBufferSize - 1) stdin).map bufferString).filter fun line ↦ line ≠ []

/-- The shell as `main` starts it. -/
def shellStart (commands : List (CliCommand World)) (root : Bool) (world : World) : Shell World :=
  commands.foldl cliRegisterCommand
    { context := cliInitContext root, commands := [], world := world, errors := [] }

/-- A line is executed, unless a command has asked to stop. -/
def shellStep (shell : Shell World) (line : CString) : Option (Shell World) :=
  if shell.context.shouldExit then some shell else (cliExecuteCommand shell line).map Prod.fst

/-- The string that is left of a buffer is that of the line in it. -/
theorem takeWhile_bufferString (piece : List UInt8) :
    ((bufferString piece).takeWhile fun char ↦ !isNewline char.val) =
      bufferString (upToEnd isNewline piece) := by
  induction piece with
  | nil => rfl
  | cons byte piece ih =>
    by_cases hzero : byte = 0
    · rw [hzero]
      rfl
    · rw [bufferString, dif_pos hzero, upToEnd, List.takeWhile_cons, List.takeWhile_cons]
      cases hend : isNewline byte with
      | true => rfl
      | false =>
        rw [Bool.not_false, if_pos rfl, if_pos rfl, bufferString, dif_pos hzero, ih]
        rfl

/-- What reading a piece takes from the typed lines. -/
theorem typedLines_eq {stdin : List UInt8} (hstdin : stdin ≠ []) :
    let piece := readPiece isNewline (inputBufferSize - 1) stdin
    typedLines stdin =
      ([bufferString (upToEnd isNewline piece)].filter fun line ↦ line ≠ []) ++
        typedLines (stdin.drop piece.length) := by
  intro piece
  have hpiece := (@cutLines_eq _ isNewline _ (inputBufferSize - 1) (by decide) hstdin).2
  rw [typedLines, hpiece, List.map_append, List.filter_append, typedLines]
  congr 1
  split_ifs with hblank
  · have hempty : bufferString (upToEnd isNewline piece) = [] := by rw [hblank]; rfl
    rw [hempty]
    rfl
  · rfl

/-- When a command has asked to stop, nothing is done for the lines that follow. -/
theorem foldlM_shellStep_stopped (hexit : shell.context.shouldExit = true) (lines : List CString) :
    lines.foldlM shellStep shell = some shell := by
  induction lines with
  | nil => rfl
  | cons line lines ih =>
    rw [List.foldlM_cons, shellStep, if_pos hexit]
    exact ih

/-- A loop with a round for every byte, and one more, is the run of the typed lines. -/
theorem shellLoop_eq_run {fuel : ℕ} (stdin : List UInt8) (hfuel : stdin.length < fuel) :
    shellLoop fuel shell stdin = (typedLines stdin).foldlM shellStep shell := by
  induction fuel generalizing shell stdin with
  | zero => exact absurd hfuel (Nat.not_lt_zero _)
  | succ fuel ih =>
    rw [shellLoop]
    split_ifs with hexit
    · exact (foldlM_shellStep_stopped hexit _).symm
    · cases stdin with
      | nil => rfl
      | cons byte bytes =>
        have hstdin : byte :: bytes ≠ [] := List.cons_ne_nil _ _
        have hread := (@cutLines_eq _ isNewline _ (inputBufferSize - 1) (by decide) hstdin).1
        rw [fgets, if_neg hstdin, typedLines_eq hstdin]
        dsimp only
        generalize readPiece isNewline (inputBufferSize - 1) (byte :: bytes) = piece at hread
        have hshorter : ((byte :: bytes).drop piece.length).length < fuel := by
          have hpos := List.length_pos_iff.mpr hread
          have hsome := List.length_pos_iff.mpr hstdin
          rw [List.length_drop]
          omega
        rw [takeWhile_bufferString]
        by_cases hblank : bufferString (upToEnd isNewline piece) = []
        · rw [hblank, if_pos List.length_nil, ih _ hshorter]
          rfl
        · rw [if_neg fun hzero ↦ hblank (List.length_eq_zero_iff.mp hzero),
            List.filter_cons_of_pos (by simpa using hblank), List.filter_nil,
            List.singleton_append, List.foldlM_cons, shellStep, if_neg hexit]
          cases cliExecuteCommand shell (bufferString (upToEnd isNewline piece)) with
          | none => rfl
          | some executed => exact ih _ hshorter

/-- The loop of `main` executes the typed lines, one after the other, until a command has asked to
stop. -/
theorem shellMain_eq_run (commands : List (CliCommand World)) (root : Bool) (world : World)
    (stdin : List UInt8) :
    shellMain commands root world stdin =
      (typedLines stdin).foldlM shellStep (shellStart commands root world) :=
  shellLoop_eq_run stdin (Nat.lt_succ_self _)

/-! ### Executing one line -/

/-- The line has a token, so it is added to the history. -/
def hasToken (line : CString) : Bool :=
  !(tokens isBlank line).isEmpty

/-- The command of the line fits the field that it is copied to. -/
def FitsCommand (line : CString) : Prop :=
  ∀ name ∈ (tokens isBlank line).head?, name.length < commandSize

/-- What is kept of the shell by a line: the commands, the level and the user. -/
structure KeepsShell (shell next : Shell World) : Prop where
  commands : next.commands = shell.commands
  currentLevel : next.context.currentLevel = shell.context.currentLevel
  currentUser : next.context.currentUser = shell.context.currentUser

theorem KeepsShell.refl (shell : Shell World) : KeepsShell shell shell :=
  ⟨rfl, rfl, rfl⟩

theorem KeepsShell.trans {next last : Shell World} (hfirst : KeepsShell shell next)
    (hsecond : KeepsShell next last) : KeepsShell shell last :=
  ⟨hsecond.commands.trans hfirst.commands, hsecond.currentLevel.trans hfirst.currentLevel,
    hsecond.currentUser.trans hfirst.currentUser⟩

/-- The dispatch of a command changes the world, the directory, the wish to stop and the errors. -/
theorem cliDispatchCommand_keeps (shell : Shell World) (name : CString) (args : List CString) :
    KeepsShell shell (cliDispatchCommand shell name args).1 ∧
      (cliDispatchCommand shell name args).1.context.history = shell.context.history := by
  rw [cliDispatchCommand]
  cases cliCommandExists shell.commands name with
  | none => exact ⟨⟨rfl, rfl, rfl⟩, rfl⟩
  | some command =>
    dsimp only
    split_ifs
    · exact ⟨⟨rfl, rfl, rfl⟩, rfl⟩
    · exact ⟨⟨rfl, rfl, rfl⟩, rfl⟩
    · exact ⟨⟨rfl, rfl, rfl⟩, rfl⟩

/-- A line whose command fits is executed, and any other is not. A line with a token is added to the
history. -/
theorem cliExecuteCommand_cases (shell : Shell World) (line : CString) :
    (¬ FitsCommand line ∧ cliExecuteCommand shell line = none) ∨
      ∃ next status, FitsCommand line ∧ cliExecuteCommand shell line = some (next, status) ∧
        KeepsShell shell next ∧
        next.context.history =
          ([line].filter hasToken).foldl addedHistory shell.context.history := by
  cases htokens : tokens isBlank line with
  | nil =>
    refine Or.inr ⟨shell, .errorInvalidArg, ?_, ?_, KeepsShell.refl shell, ?_⟩
    · rw [FitsCommand, htokens]
      exact fun name hname ↦ absurd hname (Option.not_mem_none name)
    · rw [cliExecuteCommand, cliParseInput_of_no_tokens htokens]
    · rw [List.filter_cons_of_neg (by rw [hasToken, htokens]; exact Bool.false_ne_true)]
      rfl
  | cons name args =>
    obtain ⟨hlong, hshort⟩ := cliParseInput_of_tokens htokens
    have hfits : FitsCommand line ↔ name.length < commandSize := by
      rw [FitsCommand, htokens]
      exact ⟨fun hall ↦ hall name rfl, fun hname other hother ↦ Option.some.inj hother ▸ hname⟩
    rcases Nat.lt_or_ge name.length commandSize with hname | hname
    · obtain ⟨result, hresult, -⟩ := hshort hname
      obtain ⟨hkeeps, hhistory⟩ := cliDispatchCommand_keeps
        { shell with context := shell.context.addHistory line } result.command result.args
      have hexecuted : cliExecuteCommand shell line = some (cliDispatchCommand
          { shell with context := shell.context.addHistory line } result.command result.args) := by
        rw [cliExecuteCommand, hresult]
      refine Or.inr ⟨_, _, hfits.mpr hname, hexecuted, ⟨hkeeps.1, hkeeps.2, hkeeps.3⟩, ?_⟩
      rw [List.filter_cons_of_pos (by rw [hasToken, htokens]; rfl)]
      exact hhistory
    · refine Or.inl ⟨fun hfit ↦ absurd (hfits.mp hfit) (Nat.not_lt.mpr hname), ?_⟩
      rw [cliExecuteCommand, hlong hname]

/-! ### Where a session comes to its end -/

theorem isSome_shellStep_iff (shell : Shell World) (line : CString) :
    (shellStep shell line).isSome = true ↔
      (shell.context.shouldExit = false → FitsCommand line) := by
  rw [shellStep]
  split_ifs with hexit
  · exact iff_of_true rfl fun hgoes ↦ absurd (hgoes.symm.trans hexit) Bool.false_ne_true
  · rw [Option.isSome_map, forall_prop_of_true (Bool.eq_false_iff.mpr hexit)]
    rcases cliExecuteCommand_cases shell line with ⟨hover, hnone⟩ | ⟨next, status, hfits, hsome, -⟩
    · rw [hnone]
      exact iff_of_false Bool.false_ne_true hover
    · rw [hsome]
      exact iff_of_true rfl hfits

/-- A session comes to its end, without writing behind the field for the command, exactly when the
command of every line that is executed is shorter than the field. -/
theorem isSome_shellMain_iff (commands : List (CliCommand World)) (root : Bool) (world : World)
    (stdin : List UInt8) :
    (shellMain commands root world stdin).isSome = true ↔
      EveryStep (fun running line ↦ running.bind fun shell ↦ shellStep shell line)
        (fun running line ↦ ∀ shell ∈ running,
          shell.context.shouldExit = false → FitsCommand line)
        (some (shellStart commands root world)) (typedLines stdin) := by
  rw [shellMain_eq_run]
  have hrun := @runFrom_bind _ _ shellStep (typedLines stdin)
    (some (shellStart commands root world))
  rw [Option.bind_some] at hrun
  rw [← hrun]
  exact isSome_runFrom_iff (fun shell line _ _ ↦ isSome_shellStep_iff shell line)
    (fun _ _ _ _ _ _ ↦ trivial) trivial

/-! ### The history -/

/-- Adding to the newest lines gives the newest lines. -/
theorem addedHistory_rtake (lines : List CString) (line : CString) :
    addedHistory (lines.rtake maxHistory) line = (lines ++ [line]).rtake maxHistory := by
  have hpos : 0 < maxHistory := by decide
  rw [addedHistory, List.rtake, List.rtake, List.length_drop, List.length_append,
    List.length_singleton]
  split_ifs with hfull
  · have hcount : lines.length - maxHistory + 1 = lines.length + 1 - maxHistory := by omega
    rw [List.drop_drop, List.drop_append_of_le_length (by omega), hcount]
  · have hcount : lines.length - maxHistory = lines.length + 1 - maxHistory := by omega
    rw [List.drop_append_of_le_length (by omega), hcount]

/-- A history that is empty at first is made of the newest lines. -/
theorem foldl_addedHistory (lines : List CString) :
    lines.foldl addedHistory [] = lines.rtake maxHistory := by
  induction lines using List.reverseRecOn with
  | nil => exact (List.rtake_nil maxHistory).symm
  | append_singleton lines line ih =>
    rw [List.foldl_append, ih, List.foldl_cons, List.foldl_nil, addedHistory_rtake]

/-- The lines that a session executes: all of them, or those up to the one that asks to stop. They
lead to the last state. -/
structure Executes (start : Shell World) (lines taken : List CString) (last : Shell World) :
    Prop where
  prefix_lines : taken <+: lines
  leads : taken.foldlM shellStep start = some last
  ends : last.context.shouldExit = true ∨ taken = lines
  -- nothing before the last line has asked to stop
  goes : ∀ earlier, earlier <+: taken → earlier ≠ taken → ∃ between,
    earlier.foldlM shellStep start = some between ∧ between.context.shouldExit = false

/-- A session keeps the commands, the level and the user, and its history is that of the lines that
it executes. -/
theorem foldlM_shellStep_history {lines : List CString} {last : Shell World}
    (hlast : lines.foldlM shellStep shell = some last) :
    KeepsShell shell last ∧ ∃ taken, Executes shell lines taken last ∧
      last.context.history = (taken.filter hasToken).foldl addedHistory shell.context.history := by
  induction lines generalizing shell with
  | nil =>
    obtain rfl := Option.some.inj hlast
    refine ⟨KeepsShell.refl shell, [], ⟨List.prefix_refl _, rfl, Or.inr rfl, ?_⟩, rfl⟩
    exact fun earlier hprefix hne ↦ absurd (List.prefix_nil.mp hprefix) hne
  | cons line lines ih =>
    cases hexit : shell.context.shouldExit with
    | true =>
      rw [foldlM_shellStep_stopped hexit] at hlast
      obtain rfl := Option.some.inj hlast
      refine ⟨KeepsShell.refl shell, [], ⟨List.nil_prefix, rfl, Or.inl hexit, ?_⟩, rfl⟩
      exact fun earlier hprefix hne ↦ absurd (List.prefix_nil.mp hprefix) hne
    | false =>
      rw [List.foldlM_cons, shellStep, if_neg (Bool.eq_false_iff.mp hexit)] at hlast
      rcases cliExecuteCommand_cases shell line with ⟨-, hnone⟩ |
        ⟨next, status, -, hsome, hnext, hhistory⟩
      · rw [hnone] at hlast
        exact absurd hlast (Option.some_ne_none last).symm
      · have hstep : shellStep shell line = some next := by
          rw [shellStep, if_neg (Bool.eq_false_iff.mp hexit), hsome, Option.map_some]
        rw [hsome] at hlast
        obtain ⟨hkeeps, taken, hexecutes, hadded⟩ := ih hlast
        refine ⟨hnext.trans hkeeps, line :: taken, ⟨?_, ?_, ?_, ?_⟩, ?_⟩
        · exact List.cons_prefix_cons.mpr ⟨rfl, hexecutes.prefix_lines⟩
        · rw [List.foldlM_cons, hstep]
          exact hexecutes.leads
        · exact hexecutes.ends.imp_right (congrArg (line :: ·))
        · rintro earlier hprefix hne
          rcases List.prefix_cons_iff.mp hprefix with rfl | ⟨rest, rfl, hrest⟩
          · exact ⟨shell, rfl, hexit⟩
          · obtain ⟨between, hbetween, hgoes⟩ :=
              hexecutes.goes rest hrest fun hsame ↦ hne (congrArg (line :: ·) hsame)
            refine ⟨between, ?_, hgoes⟩
            rw [List.foldlM_cons, hstep]
            exact hbetween
        · rw [hadded, hhistory, ← List.foldl_append, ← List.filter_append, List.singleton_append]

/-- The commands that are registered are the first ones for which there is room. Nothing else of the
shell changes but the errors. -/
theorem foldl_cliRegisterCommand (commands : List (CliCommand World)) (shell : Shell World) :
    (commands.foldl cliRegisterCommand shell).context = shell.context ∧
      (commands.foldl cliRegisterCommand shell).world = shell.world := by
  induction commands generalizing shell with
  | nil => exact ⟨rfl, rfl⟩
  | cons command commands ih =>
    obtain ⟨hcontext, hworld⟩ := ih (cliRegisterCommand shell command)
    have hone : (cliRegisterCommand shell command).context = shell.context ∧
        (cliRegisterCommand shell command).world = shell.world := by
      rw [cliRegisterCommand]
      split_ifs <;> exact ⟨rfl, rfl⟩
    exact ⟨hcontext.trans hone.1, hworld.trans hone.2⟩

/-- A session that comes to its end has executed the typed lines up to the first one that asks to
stop, or all of them. Its history is made of the newest 1000 of these that have a token, in order,
and its level is the one that it was given at the start. -/
theorem shellMain_history (commands : List (CliCommand World)) (root : Bool) (world : World)
    (stdin : List UInt8) (last : Shell World)
    (hlast : shellMain commands root world stdin = some last) :
    last.context.currentLevel = (cliInitContext root).currentLevel ∧
      ∃ taken, Executes (shellStart commands root world) (typedLines stdin) taken last ∧
        last.context.history = (taken.filter hasToken).rtake maxHistory := by
  rw [shellMain_eq_run] at hlast
  obtain ⟨hkeeps, taken, hexecutes, hhistory⟩ := foldlM_shellStep_history hlast
  have hstart : (shellStart commands root world).context = cliInitContext root :=
    (foldl_cliRegisterCommand commands _).1
  refine ⟨hkeeps.currentLevel.trans (congrArg CliContext.currentLevel hstart), taken, hexecutes, ?_⟩
  rw [hhistory, hstart]
  exact foldl_addedHistory _

/-- Some command that asks to stop. -/
def exitCommand : CliCommand Unit where
  name := ofChars ['q']
  execute := fun _ context world ↦ ⟨world, context.currentDir, true, .success⟩
  requiredLevel := .privPublic
  minArgs := 0
  maxArgs := 0
  usage := ofChars ['q']

/-- Of four lines the second is blank and the third asks to stop: the fourth is not executed. -/
theorem shellMain_history_example :
    ∃ last, shellMain [exitCommand] false () [97, 10, 32, 10, 113, 10, 98, 10] = some last ∧
      last.context.currentLevel = .privUser ∧
      last.context.history = [ofChars ['a'], ofChars ['q']] ∧
      ∃ taken, Executes (shellStart [exitCommand] false ()) [ofChars ['a'], ofChars [' '],
        ofChars ['q'], ofChars ['b']] taken last := by
  have hhistory : (shellMain [exitCommand] false () [97, 10, 32, 10, 113, 10, 98, 10]).map
      (fun last ↦ last.context.history) = some [ofChars ['a'], ofChars ['q']] := by
    decide
  obtain ⟨last, hlast, hnewest⟩ := Option.map_eq_some_iff.mp hhistory
  obtain ⟨hlevel, taken, hexecutes, -⟩ :=
    shellMain_history [exitCommand] false () [97, 10, 32, 10, 113, 10, 98, 10] last hlast
  have hlines : typedLines [97, 10, 32, 10, 113, 10, 98, 10] =
      [ofChars ['a'], ofChars [' '], ofChars ['q'], ofChars ['b']] := by
    decide
  rw [hlines] at hexecutes
  exact ⟨last, hlast, hlevel, hnewest, taken, hexecutes⟩

/-! ### What commands do -/

/-- Two commands that are alike for everyone with a level: they may differ in what they do, when the
level is too low for them or they take no number of arguments that is stored. -/
structure AlikeFor (level : PrivLevel) (command other : CliCommand World) : Prop where
  name : other.name = command.name
  requiredLevel : other.requiredLevel = command.requiredLevel
  minArgs : other.minArgs = command.minArgs
  maxArgs : other.maxArgs = command.maxArgs
  usage : other.usage = command.usage
  execute : command.requiredLevel.toNat ≤ level.toNat →
    (∃ argc : ℕ, argc < maxArgCount ∧ command.takesArgs argc = true) →
      other.execute = command.execute

/-- Two shells at a level that differ in their commands only, and in these as long as they are alike
at the level. -/
structure AlikeShells (level : PrivLevel) (first second : Shell World) : Prop where
  context : second.context = first.context
  world : second.world = first.world
  errors : second.errors = first.errors
  commands : List.Forall₂ (AlikeFor level) first.commands second.commands
  currentLevel : first.context.currentLevel = level

variable {level : PrivLevel} {first second : Shell World} {command other : CliCommand World}

theorem AlikeFor.takesArgs_eq (halike : AlikeFor level command other) (argc : ℤ) :
    other.takesArgs argc = command.takesArgs argc := by
  rw [CliCommand.takesArgs, CliCommand.takesArgs, halike.minArgs, halike.maxArgs]

/-- Alike commands are found under the same names. -/
theorem cliCommandExists_alike {commands others : List (CliCommand World)}
    (halike : List.Forall₂ (AlikeFor level) commands others) (name : CString) :
    Option.Rel (AlikeFor level) (cliCommandExists commands name)
      (cliCommandExists others name) := by
  rw [cliCommandExists, cliCommandExists]
  induction halike with
  | nil => exact Option.Rel.none
  | @cons command other commands others hcommand hcommands ih =>
    rw [List.find?_cons, List.find?_cons, hcommand.name]
    cases decide (command.name = name) with
    | true => exact Option.Rel.some hcommand
    | false => exact ih

/-- A dispatch with as many arguments as are stored leads from alike shells to alike shells. -/
theorem cliDispatchCommand_alike (halike : AlikeShells level first second) (name : CString)
    {args : List CString} (hargs : args.length < maxArgCount) :
    AlikeShells level (cliDispatchCommand first name args).1
      (cliDispatchCommand second name args).1 := by
  have hfound := cliCommandExists_alike halike.commands name
  rw [cliDispatchCommand, cliDispatchCommand]
  generalize cliCommandExists first.commands name = command,
    cliCommandExists second.commands name = other at hfound
  obtain ⟨hcontext, hworld, herrors, hcommands, hlevel⟩ := halike
  cases hfound with
  | none =>
    exact ⟨hcontext, hworld, congrArg (· ++ _) herrors, hcommands, hlevel⟩
  | @some command other hcommand =>
    dsimp only
    rw [hcommand.takesArgs_eq, hcommand.requiredLevel, hcommand.usage, hcontext]
    split_ifs with hdenied hrefused
    · exact ⟨hcontext, hworld, congrArg (· ++ _) herrors, hcommands, hlevel⟩
    · exact ⟨hcontext, hworld, congrArg (· ++ _) herrors, hcommands, hlevel⟩
    · have hallowed : command.requiredLevel.toNat ≤ level.toNat := by
        rw [cliCheckPermission, hlevel] at hdenied
        simpa using hdenied
      have htaken : command.takesArgs args.length = true := by simpa using hrefused
      have hsame := hcommand.execute hallowed ⟨args.length, hargs, htaken⟩
      rw [Shell.perform, Shell.perform, hsame, hcontext, hworld]
      exact ⟨rfl, rfl, herrors, hcommands, hlevel⟩

/-- A line leads from alike shells to alike shells. -/
theorem shellStep_alike (halike : AlikeShells level first second) (line : CString) :
    Option.Rel (AlikeShells level) (shellStep first line) (shellStep second line) := by
  rw [shellStep, shellStep, halike.context]
  split_ifs with hexit
  · exact Option.Rel.some halike
  · rw [cliExecuteCommand, cliExecuteCommand]
    cases cliParseInput line with
    | null => exact Option.Rel.some halike
    | overrun => exact Option.Rel.none
    | parsed result =>
      refine Option.Rel.some (cliDispatchCommand_alike ?_ result.command result.args_fit)
      exact ⟨congrArg (CliContext.addHistory · line) halike.context, halike.world, halike.errors,
        halike.commands, halike.currentLevel⟩

/-- The registration of alike commands. -/
theorem foldl_cliRegisterCommand_alike {commands others : List (CliCommand World)}
    (hcommands : List.Forall₂ (AlikeFor level) commands others)
    (halike : AlikeShells level first second) :
    AlikeShells level (commands.foldl cliRegisterCommand first)
      (others.foldl cliRegisterCommand second) := by
  induction hcommands generalizing first second with
  | nil => exact halike
  | @cons command other commands others hcommand _ ih =>
    refine ih ?_
    rw [cliRegisterCommand, cliRegisterCommand, halike.commands.length_eq]
    obtain ⟨hcontext, hworld, herrors, hregistered, hlevel⟩ := halike
    split_ifs
    · exact ⟨hcontext, hworld, congrArg (· ++ _) herrors, hregistered, hlevel⟩
    · exact ⟨hcontext, hworld, herrors,
        List.rel_append hregistered (List.Forall₂.cons hcommand List.Forall₂.nil), hlevel⟩

/-- What is seen of a shell: all of it but what its commands would do. -/
def Shell.seen (shell : Shell World) : CliContext × World × List CString :=
  (shell.context, shell.world, shell.errors)

/-- Whatever is typed, what a command does is of no account in a session when the level of the user
is below that of the command, or when no number of arguments that is stored is one that the command
takes: with other commands in their place the session has the same context, world and errors. -/
theorem shellMain_handlers (root : Bool) (commands others : List (CliCommand World))
    (hcommands : List.Forall₂ (AlikeFor (cliInitContext root).currentLevel) commands others)
    (world : World) (stdin : List UInt8) :
    (shellMain others root world stdin).map Shell.seen =
      (shellMain commands root world stdin).map Shell.seen := by
  have hstart : AlikeShells (cliInitContext root).currentLevel
      (shellStart commands root world) (shellStart others root world) :=
    foldl_cliRegisterCommand_alike hcommands ⟨rfl, rfl, rfl, List.Forall₂.nil, rfl⟩
  have hrun := @foldlM_related _ _ _ _ _ _ (typedLines stdin)
    (fun _ _ line halike ↦ shellStep_alike halike line) _ _ hstart
  rw [← shellMain_eq_run, ← shellMain_eq_run] at hrun
  generalize shellMain commands root world stdin = session,
    shellMain others root world stdin = otherSession at hrun
  cases hrun with
  | none => rfl
  | @some last other halike =>
    rw [Option.map_some, Option.map_some, Shell.seen, Shell.seen, halike.context, halike.world,
      halike.errors]

/-- A command for the administrator, which does what it is given. -/
def adminCommand (execute : List CString → CliContext → List CString → Effect (List CString)) :
    CliCommand (List CString) where
  name := ofChars ['r', 'e', 'b', 'o', 'o', 't']
  execute := execute
  requiredLevel := .privAdmin
  minArgs := 0
  maxArgs := 1
  usage := ofChars ['r', 'e', 'b', 'o', 'o', 't']

/-- A user who is not root types `reboot`: the session is the same whether the command would stop
the shell or do nothing. -/
theorem shellMain_handlers_example :
    (shellMain [adminCommand fun _ context world ↦ ⟨world, context.currentDir, false, .error⟩] false
        [] [114, 101, 98, 111, 111, 116, 10]).map Shell.seen =
      (shellMain [adminCommand fun args context world ↦
        ⟨world ++ args, context.currentDir, true, .success⟩] false []
          [114, 101, 98, 111, 111, 116, 10]).map Shell.seen := by
  refine shellMain_handlers false _ _ (List.Forall₂.cons ?_ List.Forall₂.nil) [] _
  exact ⟨rfl, rfl, rfl, rfl, rfl, fun hlevel ↦ absurd hlevel (by decide)⟩

end OneOS.Cli
