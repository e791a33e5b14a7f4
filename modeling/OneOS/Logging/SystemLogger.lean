import Mathlib.Logic.Function.Basic
import OneOS.Foundation.CStrings
import OneOS.Foundation.Runs

/-!
# The system logger

The log of `core-services/system_logger.c`: an array of entries, of which `entry_count` are in use,
with the index of the oldest one. The filter level decides which calls are logged.

Left out are the checks of pointers, the targets, which are only written, and the monitor and the
table of processes, which the log does not touch. The time is an input.
-/

set_option autoImplicit false
set_option relaxedAutoImplicit false

namespace OneOS.Logging

open Foundation

/-! ### Entries -/

/-- `MAX_LOG_ENTRIES`. -/
def maxLogEntries : ℕ := 10000

/-- `MAX_LOG_MESSAGE_LEN`. -/
def maxLogMessageLen : ℕ := 512

/-- `LogLevel`. -/
inductive LogLevel
  | debug
  | info
  | warning
  | error
  | critical
  deriving DecidableEq, Repr

/-- The number of a level. -/
def LogLevel.value : LogLevel → ℕ
  | .debug => 0
  | .info => 1
  | .warning => 2
  | .error => 3
  | .critical => 4

/-- `LogEntry`. -/
structure LogEntry where
  logId : UInt32
  timestamp : UInt64
  level : LogLevel
  sourcePid : UInt32
  sourceTid : UInt32
  moduleName : CString
  message : CString
  deriving DecidableEq, Repr

/-- An entry whose memory is 0. -/
def clearedEntry : LogEntry where
  logId := 0
  timestamp := 0
  level := .debug
  sourcePid := 0
  sourceTid := 0
  moduleName := []
  message := []

/-- `SystemLogger`, with the five counters of the levels as one function. -/
structure SystemLogger where
  entries : ℕ → LogEntry
  entryCount : ℕ
  oldestEntryIndex : ℕ
  filterLevel : LogLevel
  totalLogs : UInt64
  levelCount : LogLevel → UInt64

/-- The logger that `logger_init` makes. -/
def loggerInit : SystemLogger where
  entries := fun _ ↦ clearedEntry
  entryCount := 0
  oldestEntryIndex := 0
  filterLevel := .debug
  totalLogs := 0
  levelCount := fun _ ↦ 0

/-! ### Operations -/

/-- The entry that `logger_log` writes. -/
def SystemLogger.newEntry (logger : SystemLogger) (level : LogLevel) (pid tid : UInt32)
    (moduleName message : CString) (now : UInt64) : LogEntry where
  logId := (logger.totalLogs + 1).toUInt32
  timestamp := now
  level := level
  sourcePid := pid
  sourceTid := tid
  moduleName := moduleName.take 63
  message := message.take (maxLogMessageLen - 1)

/-- The logger after an entry is written. -/
def SystemLogger.write (logger : SystemLogger) (entry : LogEntry) : SystemLogger :=
  { logger with
    oldestEntryIndex :=
      if maxLogEntries ≤ logger.entryCount then (logger.oldestEntryIndex + 1) % maxLogEntries
      else logger.oldestEntryIndex
    entries := Function.update logger.entries (logger.entryCount % maxLogEntries) entry
    totalLogs := logger.totalLogs + 1
    levelCount :=
      Function.update logger.levelCount entry.level (logger.levelCount entry.level + 1)
    entryCount :=
      if logger.entryCount < maxLogEntries then logger.entryCount + 1 else logger.entryCount }

/-- `logger_log`. Without a module or a message the call fails, and below the filter level nothing
is logged. -/
def loggerLog (logger : SystemLogger) (level : LogLevel) (pid tid : UInt32)
    (moduleName message : Option CString) (now : UInt64) : SystemLogger × Int :=
  match moduleName, message with
  | some moduleName, some message =>
    if level.value < logger.filterLevel.value then (logger, 0)
    else (logger.write (logger.newEntry level pid tid moduleName message now), 0)
  | _, _ => (logger, -1)

/-- `logger_set_filter_level`. -/
def loggerSetFilterLevel (logger : SystemLogger) (level : LogLevel) : SystemLogger × Int :=
  ({ logger with filterLevel := level }, 0)

/-- `logger_get_entry`. -/
def loggerGetEntry (logger : SystemLogger) (index : ℕ) : Option LogEntry :=
  if logger.entryCount ≤ index then none else some (logger.entries index)

/-- `logger_clear_entries`. -/
def loggerClearEntries (logger : SystemLogger) : SystemLogger × Int :=
  ({ logger with
    entries := fun _ ↦ clearedEntry
    entryCount := 0
    oldestEntryIndex := 0 }, 0)

/-! ### Calls -/

/-- A call to the logger. -/
inductive LoggerCall
  | log (level : LogLevel) (pid tid : UInt32) (moduleName message : Option CString) (now : UInt64)
  | setFilterLevel (level : LogLevel)
  | clearEntries
  deriving DecidableEq, Repr

/-- The logger after a call. -/
def loggerStep (logger : SystemLogger) : LoggerCall → SystemLogger
  | .log level pid tid moduleName message now =>
    (loggerLog logger level pid tid moduleName message now).1
  | .setFilterLevel level => (loggerSetFilterLevel logger level).1
  | .clearEntries => (loggerClearEntries logger).1

end OneOS.Logging
