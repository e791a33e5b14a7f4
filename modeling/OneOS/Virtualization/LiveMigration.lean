import OneOS.Foundation.Runs
import OneOS.Foundation.Slots

/-!
# Live migration

`advanced-virtualization/live_migration.c`: 64 slots for migrations of a virtual machine. The
session in a slot has the number of the slot, counted from 1, as its id, and a slot whose session
has the id 0 is free. A migration goes through phases, which may be called in any order and any
number of times, and ends when it is completed or rolled back. Both endings and the destruction of a
session lower the number of active migrations, down to 0.

A phase moves a fixed part of all pages from the remaining to the migrated ones, in numbers of 64
bits that wrap. Left out are the checks of pointers, the progress and the estimated time, which are
numbers with a point that nothing reads, and the metrics.
-/

set_option autoImplicit false
set_option relaxedAutoImplicit false

namespace OneOS.Virtualization

open Foundation

/-! ### Sessions -/

/-- `MAX_MIGRATION_SESSIONS`. -/
def maxMigrationSessions : ℕ := 64

/-- `MAX_DIRTY_PAGE_LOG`. -/
def maxDirtyPageLog : ℕ := 32768

/-- `MigrationStrategy`. -/
inductive MigrationStrategy
  | preCopy
  | postCopy
  | hybrid
  deriving DecidableEq, Repr

/-- `MigrationPhase`. -/
inductive MigrationPhase
  | init
  | setup
  | delta
  | stopVm
  | final
  | abort
  | complete
  deriving DecidableEq, Repr

/-- `DirtyPageLog`. -/
structure DirtyPageLog where
  pageAddress : UInt64
  iteration : UInt64
  isDirty : Bool
  deriving DecidableEq, Repr

/-- `MigrationSession`, with the used rows of the log as a list. -/
structure MigrationSession where
  migrationSessionId : UInt32
  sourceVmId : UInt32
  destVmId : UInt32
  strategy : MigrationStrategy
  currentPhase : MigrationPhase
  totalPages : UInt64
  migratedPages : UInt64
  dirtyPages : UInt64
  remainingPages : UInt64
  dirtyLogs : List DirtyPageLog
  startTime : UInt64
  endTime : UInt64
  totalMigrationTimeMs : UInt64
  canRollback : Bool
  iterationCount : UInt32
  deriving DecidableEq, Repr

/-- A session whose bytes are 0. -/
def MigrationSession.zero : MigrationSession where
  migrationSessionId := 0
  sourceVmId := 0
  destVmId := 0
  strategy := .preCopy
  currentPhase := .init
  totalPages := 0
  migratedPages := 0
  dirtyPages := 0
  remainingPages := 0
  dirtyLogs := []
  startTime := 0
  endTime := 0
  totalMigrationTimeMs := 0
  canRollback := false
  iterationCount := 0

/-- `LiveMigrationManager`. -/
structure LiveMigrationManager where
  activeMigrations : UInt32
  completedMigrations : UInt32
  failedMigrations : UInt32
  sessions : ℕ → MigrationSession
  totalPagesMigrated : UInt64

/-- `live_migration_init`. -/
def liveMigrationInit : LiveMigrationManager where
  activeMigrations := 0
  completedMigrations := 0
  failedMigrations := 0
  sessions := fun _ ↦ MigrationSession.zero
  totalPagesMigrated := 0

/-- A slot is in use when its session has an id. -/
def MigrationSession.inUse (session : MigrationSession) : Bool :=
  session.migrationSessionId != 0

/-- The slot of a session that exists: the test that all functions on a session begin with. -/
def LiveMigrationManager.sessionSlot (manager : LiveMigrationManager) (sessionId : UInt32) :
    Option ℕ :=
  if sessionId = 0 ∨ maxMigrationSessions < sessionId.toNat then none
  else if (manager.sessions (sessionId.toNat - 1)).inUse then some (sessionId.toNat - 1)
  else none

/-- A write to a session. -/
def LiveMigrationManager.changeSession (manager : LiveMigrationManager) (slot : ℕ)
    (change : MigrationSession → MigrationSession) : LiveMigrationManager :=
  { manager with
    sessions := Function.update manager.sessions slot (change (manager.sessions slot)) }

/-- `active_migrations` is lowered when it is not 0. -/
def LiveMigrationManager.lowerActive (manager : LiveMigrationManager) : LiveMigrationManager :=
  if 0 < manager.activeMigrations then
    { manager with activeMigrations := manager.activeMigrations - 1 }
  else manager

/-! ### Creation and destruction -/

/-- The session that `migration_session_create` writes into a slot. -/
def newSession (slot : ℕ) (sourceVm destVm : UInt32) (strategy : MigrationStrategy) :
    MigrationSession where
  migrationSessionId := UInt32.ofNat slot + 1
  sourceVmId := sourceVm
  destVmId := destVm
  strategy := strategy
  currentPhase := .init
  totalPages := 131072
  migratedPages := 0
  dirtyPages := 0
  remainingPages := 131072
  dirtyLogs := []
  startTime := 0
  endTime := 0
  totalMigrationTimeMs := 0
  canRollback := true
  iterationCount := 0

/-- The slot that `migration_session_create` takes, if it is not refused. -/
def LiveMigrationManager.newSlot (manager : LiveMigrationManager) : Option ℕ :=
  if maxMigrationSessions ≤ manager.activeMigrations.toNat then none
  else firstSlot (fun session ↦ !session.inUse) maxMigrationSessions manager.sessions

/-- `migration_session_create`. -/
def migrationSessionCreate (manager : LiveMigrationManager) (sourceVm destVm : UInt32)
    (strategy : MigrationStrategy) : LiveMigrationManager × Int :=
  match manager.newSlot with
  | none => (manager, -1)
  | some slot =>
    let created := manager.changeSession slot fun _ ↦ newSession slot sourceVm destVm strategy
    ({ created with activeMigrations := manager.activeMigrations + 1 }, slot + 1)

/-- `migration_session_destroy`. -/
def migrationSessionDestroy (manager : LiveMigrationManager) (sessionId : UInt32) :
    LiveMigrationManager × Int :=
  match manager.sessionSlot sessionId with
  | none => (manager, -1)
  | some slot => ((manager.changeSession slot fun _ ↦ MigrationSession.zero).lowerActive, 0)

/-! ### Phases -/

/-- A number of 64 bits that is returned as an `int`. -/
def returnedPages (pages : UInt64) : Int :=
  Int.bmod pages.toNat 4294967296

/-- `migration_start` on a session. -/
def MigrationSession.start (session : MigrationSession) : MigrationSession :=
  { session with currentPhase := .setup, startTime := 0 }

/-- Pages are moved from the remaining to the migrated ones. -/
def MigrationSession.movePages (session : MigrationSession) (pages : UInt64) : MigrationSession :=
  { session with
    migratedPages := session.migratedPages + pages
    remainingPages := session.remainingPages - pages }

/-- `pages_to_migrate`. -/
def MigrationSession.precopyPages (session : MigrationSession) : UInt64 :=
  session.totalPages * 20 / 100

/-- `migration_precopy_phase` on a session. -/
def MigrationSession.precopy (session : MigrationSession) : MigrationSession :=
  { session.movePages session.precopyPages with
    currentPhase := .delta
    iterationCount := session.iterationCount + 1 }

/-- `delta_pages`. -/
def MigrationSession.deltaPages (session : MigrationSession) : UInt64 :=
  if 0 < session.totalPages * 5 / 100 then session.totalPages * 5 / 100 else 1

/-- `migration_delta_phase` on a session. -/
def MigrationSession.deltaCopy (session : MigrationSession) : MigrationSession :=
  { session.movePages session.deltaPages with
    dirtyPages := session.totalPages * 5 / 100
    iterationCount := session.iterationCount + 1 }

/-- `migration_stop_vm_phase` on a session. -/
def MigrationSession.stop (session : MigrationSession) : MigrationSession :=
  { session with currentPhase := .stopVm }

/-- `migration_final_phase` on a session. -/
def MigrationSession.finish (session : MigrationSession) : MigrationSession :=
  { session with
    currentPhase := .final
    migratedPages := session.totalPages
    remainingPages := 0 }

/-- A function that writes to one session and to nothing else. -/
def onSession (manager : LiveMigrationManager) (sessionId : UInt32)
    (change : MigrationSession → MigrationSession) (answer : MigrationSession → Int) :
    LiveMigrationManager × Int :=
  match manager.sessionSlot sessionId with
  | none => (manager, -1)
  | some slot => (manager.changeSession slot change, answer (manager.sessions slot))

/-- `migration_start`. -/
def migrationStart (manager : LiveMigrationManager) (sessionId : UInt32) :
    LiveMigrationManager × Int :=
  onSession manager sessionId MigrationSession.start fun _ ↦ 0

/-- `migration_precopy_phase`. -/
def migrationPrecopyPhase (manager : LiveMigrationManager) (sessionId : UInt32) :
    LiveMigrationManager × Int :=
  onSession manager sessionId MigrationSession.precopy fun session ↦
    returnedPages session.precopyPages

/-- `migration_delta_phase`. -/
def migrationDeltaPhase (manager : LiveMigrationManager) (sessionId : UInt32) :
    LiveMigrationManager × Int :=
  onSession manager sessionId MigrationSession.deltaCopy fun session ↦
    returnedPages session.deltaPages

/-- `migration_stop_vm_phase`. -/
def migrationStopVmPhase (manager : LiveMigrationManager) (sessionId : UInt32) :
    LiveMigrationManager × Int :=
  onSession manager sessionId MigrationSession.stop fun _ ↦ 0

/-- `migration_final_phase`. -/
def migrationFinalPhase (manager : LiveMigrationManager) (sessionId : UInt32) :
    LiveMigrationManager × Int :=
  onSession manager sessionId MigrationSession.finish fun _ ↦ 0

/-! ### The log of dirty pages -/

/-- `migration_track_dirty_pages` on a session whose log has room. -/
def MigrationSession.trackPage (pageAddress : UInt64) (session : MigrationSession) :
    MigrationSession :=
  { session with
    dirtyLogs := session.dirtyLogs ++
      [{ pageAddress := pageAddress
         iteration := session.iterationCount.toUInt64
         isDirty := true }] }

/-- `migration_track_dirty_pages`. -/
def migrationTrackDirtyPages (manager : LiveMigrationManager) (sessionId : UInt32)
    (pageAddress : UInt64) : LiveMigrationManager × Int :=
  match manager.sessionSlot sessionId with
  | none => (manager, -1)
  | some slot =>
    if maxDirtyPageLog ≤ (manager.sessions slot).dirtyLogs.length then (manager, -1)
    else (manager.changeSession slot (MigrationSession.trackPage pageAddress), 0)

/-- `migration_clear_dirty_log` on a session. -/
def MigrationSession.clearLog (session : MigrationSession) : MigrationSession :=
  { session with dirtyLogs := [] }

/-- `migration_clear_dirty_log`. -/
def migrationClearDirtyLog (manager : LiveMigrationManager) (sessionId : UInt32) :
    LiveMigrationManager × Int :=
  onSession manager sessionId MigrationSession.clearLog fun _ ↦ 0

/-! ### Endings -/

/-- `migration_complete` on a session. -/
def MigrationSession.completed (session : MigrationSession) : MigrationSession :=
  { session with
    currentPhase := .complete
    endTime := 0
    totalMigrationTimeMs := if 0 > session.startTime then 0 - session.startTime else 100 }

/-- `migration_complete`. -/
def migrationComplete (manager : LiveMigrationManager) (sessionId : UInt32) :
    LiveMigrationManager × Int :=
  match manager.sessionSlot sessionId with
  | none => (manager, -1)
  | some slot =>
    let completed := manager.changeSession slot MigrationSession.completed
    let counted := { completed with
      totalPagesMigrated :=
        manager.totalPagesMigrated + (manager.sessions slot).totalPages
      completedMigrations := manager.completedMigrations + 1 }
    (counted.lowerActive, 0)

/-- `migration_rollback` on a session. -/
def MigrationSession.aborted (session : MigrationSession) : MigrationSession :=
  { session with currentPhase := .abort }

/-- `migration_rollback`. -/
def migrationRollback (manager : LiveMigrationManager) (sessionId : UInt32) :
    LiveMigrationManager × Int :=
  match manager.sessionSlot sessionId with
  | none => (manager, -1)
  | some slot =>
    let aborted := manager.changeSession slot MigrationSession.aborted
    let counted := { aborted with failedMigrations := manager.failedMigrations + 1 }
    (counted.lowerActive, 0)

/-- `migration_handle_timeout`. -/
def migrationHandleTimeout (manager : LiveMigrationManager) (sessionId : UInt32) :
    LiveMigrationManager × Int :=
  match manager.sessionSlot sessionId with
  | none => (manager, -1)
  | some slot =>
    if (manager.sessions slot).canRollback then migrationRollback manager sessionId
    else (manager, -1)

/-! ### Runs -/

/-- A call of the manager. -/
inductive MigrationCall
  | create (sourceVm destVm : UInt32) (strategy : MigrationStrategy)
  | destroy (sessionId : UInt32)
  | start (sessionId : UInt32)
  | precopyPhase (sessionId : UInt32)
  | deltaPhase (sessionId : UInt32)
  | stopVmPhase (sessionId : UInt32)
  | finalPhase (sessionId : UInt32)
  | complete (sessionId : UInt32)
  | trackDirtyPages (sessionId : UInt32) (pageAddress : UInt64)
  | clearDirtyLog (sessionId : UInt32)
  | handleTimeout (sessionId : UInt32)
  | rollback (sessionId : UInt32)
  deriving DecidableEq, Repr

/-- The manager after a call. -/
def migrationStep (manager : LiveMigrationManager) : MigrationCall → LiveMigrationManager
  | .create sourceVm destVm strategy =>
    (migrationSessionCreate manager sourceVm destVm strategy).1
  | .destroy sessionId => (migrationSessionDestroy manager sessionId).1
  | .start sessionId => (migrationStart manager sessionId).1
  | .precopyPhase sessionId => (migrationPrecopyPhase manager sessionId).1
  | .deltaPhase sessionId => (migrationDeltaPhase manager sessionId).1
  | .stopVmPhase sessionId => (migrationStopVmPhase manager sessionId).1
  | .finalPhase sessionId => (migrationFinalPhase manager sessionId).1
  | .complete sessionId => (migrationComplete manager sessionId).1
  | .trackDirtyPages sessionId pageAddress =>
    (migrationTrackDirtyPages manager sessionId pageAddress).1
  | .clearDirtyLog sessionId => (migrationClearDirtyLog manager sessionId).1
  | .handleTimeout sessionId => (migrationHandleTimeout manager sessionId).1
  | .rollback sessionId => (migrationRollback manager sessionId).1

end OneOS.Virtualization
