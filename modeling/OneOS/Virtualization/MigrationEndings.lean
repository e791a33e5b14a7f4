import OneOS.Foundation.Counters
import OneOS.Virtualization.LiveMigration

/-!
# Sessions end once

The number of active migrations is to be the number of sessions that are neither completed nor
rolled back, a session is to end once, and its migrated and remaining pages are to make up all its
pages (`SessionsAccounted`). How often the session in a slot has ended is not kept by the manager
and is recorded beside the run (`trackEndings`).

No function looks at the phase of a session. An ended session can be ended again, put back into a
phase, which makes it active without counting it, and destroyed, which lowers the number of active
migrations a second time. A phase moves its pages also when fewer remain. `sessionsAccounted_iff`
says that these are all the ways.
-/

set_option autoImplicit false
set_option relaxedAutoImplicit false

namespace OneOS.Virtualization

open Foundation

/-! ### Accounts -/

/-- The session was completed or rolled back. -/
def MigrationSession.ended (session : MigrationSession) : Bool :=
  session.currentPhase == .complete || session.currentPhase == .abort

/-- The session exists and has not ended. -/
def MigrationSession.isActive (session : MigrationSession) : Bool :=
  session.inUse && !session.ended

/-- The migrated and the remaining pages make up all pages. -/
structure MigrationSession.PagesBalanced (session : MigrationSession) : Prop where
  sum : session.migratedPages.toNat + session.remainingPages.toNat = session.totalPages.toNat
  inside : session.migratedPages ≤ session.totalPages

/-- What holds of every session that exists and the number of times that it has ended. -/
def EverySession (property : MigrationSession → ℕ → Prop) (sessions : ℕ → MigrationSession)
    (endings : ℕ → ℕ) : Prop :=
  ∀ slot < maxMigrationSessions, (sessions slot).inUse = true →
    property (sessions slot) (endings slot)

/-- The accounts of a manager, with the number of times that the session in each slot has ended: the
active migrations are counted, no session has ended twice, and the pages of every session are
balanced. -/
structure SessionsAccounted (manager : LiveMigrationManager) (endings : ℕ → ℕ) : Prop where
  active : manager.activeMigrations.toNat =
    countSlots MigrationSession.isActive maxMigrationSessions manager.sessions
  once : EverySession (fun _ count ↦ count ≤ 1) manager.sessions endings
  pages : EverySession (fun session _ ↦ session.PagesBalanced) manager.sessions endings

/-- The slot of the session that a call ends, if it ends one. -/
def endingSlot (manager : LiveMigrationManager) : MigrationCall → Option ℕ
  | .complete sessionId => manager.sessionSlot sessionId
  | .rollback sessionId => manager.sessionSlot sessionId
  | .handleTimeout sessionId =>
    (manager.sessionSlot sessionId).filter fun slot ↦ (manager.sessions slot).canRollback
  | _ => none

/-- The slot of the session that a call creates, if it creates one. -/
def creatingSlot (manager : LiveMigrationManager) : MigrationCall → Option ℕ
  | .create _ _ _ => manager.newSlot
  | _ => none

/-- The record of how often the session in each slot has ended: a new session has not, and an ending
is added. -/
def trackEndings (manager : LiveMigrationManager) (call : MigrationCall) (endings : ℕ → ℕ) :
    ℕ → ℕ :=
  match creatingSlot manager call with
  | some slot => Function.update endings slot 0
  | none =>
    match endingSlot manager call with
    | some slot => Function.update endings slot (endings slot + 1)
    | none => endings

/-- A call adds to the completed and the failed migrations the ending that is recorded for it. -/
def CountsEndings (manager : LiveMigrationManager) (call : MigrationCall) : Prop :=
  (migrationStep manager call).completedMigrations + (migrationStep manager call).failedMigrations =
    manager.completedMigrations + manager.failedMigrations +
      UInt32.ofNat (endingSlot manager call).toList.length

/-! ### The condition -/

/-- The condition on a call, in the state before it. An ended session is destroyed only when no
migration is active, and is neither ended again nor put back into a phase; a phase moves no more
pages than remain. -/
def MigrationCall.KeepsSessions (manager : LiveMigrationManager) : MigrationCall → Prop
  | .destroy sessionId => ∀ slot ∈ manager.sessionSlot sessionId,
      (manager.sessions slot).ended = true → manager.activeMigrations = 0
  | .precopyPhase sessionId => ∀ slot ∈ manager.sessionSlot sessionId,
      (manager.sessions slot).ended = false ∧
        (manager.sessions slot).precopyPages ≤ (manager.sessions slot).remainingPages
  | .deltaPhase sessionId => ∀ slot ∈ manager.sessionSlot sessionId,
      (manager.sessions slot).deltaPages ≤ (manager.sessions slot).remainingPages
  | .start sessionId | .stopVmPhase sessionId | .finalPhase sessionId | .complete sessionId
  | .handleTimeout sessionId | .rollback sessionId => ∀ slot ∈ manager.sessionSlot sessionId,
      (manager.sessions slot).ended = false
  | .create _ _ _ | .trackDirtyPages _ _ | .clearDirtyLog _ => True

variable {manager changed : LiveMigrationManager} {endings : ℕ → ℕ} {slot count : ℕ}
  {session after : MigrationSession} {sessionId : UInt32}

/-! ### One session -/

/-- What holds of a session along a run: its size is fixed, it can be rolled back, its pages are
balanced, and it has ended once or not at all. -/
structure SessionHolds (session : MigrationSession) (endings : ℕ) : Prop where
  total : session.totalPages = 131072
  rollback : session.canRollback = true
  pages : session.PagesBalanced
  endings : endings = session.ended.toNat

theorem SessionHolds.precopyPages (hholds : SessionHolds session count) :
    session.precopyPages = 26214 := by
  rw [MigrationSession.precopyPages, hholds.total]
  rfl

theorem SessionHolds.deltaPages (hholds : SessionHolds session count) :
    session.deltaPages = 6553 := by
  rw [MigrationSession.deltaPages, hholds.total]
  rfl

/-- Pages stay balanced exactly when no more of them are moved than remain. -/
theorem SessionHolds.pagesBalanced_movePages_iff (hholds : SessionHolds session count)
    {pages : UInt64} (hpages : pages.toNat ≤ 131072) :
    (session.movePages pages).PagesBalanced ↔ pages ≤ session.remainingPages := by
  obtain ⟨htotal, -, ⟨hsum, hinside⟩, -⟩ := hholds
  have hsize : session.totalPages.toNat = 131072 := by
    rw [htotal]
    rfl
  constructor
  · rintro ⟨hmoved, -⟩
    rw [UInt64.le_iff_toNat_le]
    simp only [MigrationSession.movePages, UInt64.toNat_add, UInt64.toNat_sub] at hmoved
    omega
  · intro hleft
    have hless := UInt64.le_iff_toNat_le.mp hleft
    obtain ⟨hremaining, hmigrated⟩ := toNat_moved hleft
      (show session.remainingPages.toNat + session.migratedPages.toNat < 2 ^ 64 by omega)
    constructor
    · simp only [MigrationSession.movePages]
      omega
    · rw [UInt64.le_iff_toNat_le]
      simp only [MigrationSession.movePages]
      omega

/-! ### All sessions -/

/-- What holds along a run. -/
structure SessionsHold (manager : LiveMigrationManager) (endings : ℕ → ℕ) : Prop where
  active : manager.activeMigrations.toNat =
    countSlots MigrationSession.isActive maxMigrationSessions manager.sessions
  sessions : EverySession SessionHolds manager.sessions endings

theorem sessionsHold_init : SessionsHold liveMigrationInit fun _ ↦ 0 where
  active := by decide
  sessions := fun _ _ hused ↦ absurd hused Bool.false_ne_true

theorem SessionHolds.count_le (hholds : SessionHolds session count) : count ≤ 1 := by
  rw [hholds.endings]
  exact Bool.toNat_le _

theorem SessionsHold.accounted (hhold : SessionsHold manager endings) :
    SessionsAccounted manager endings where
  active := hhold.active
  once := fun slot hslot hused ↦ (hhold.sessions slot hslot hused).count_le
  pages := fun slot hslot hused ↦ (hhold.sessions slot hslot hused).pages

/-- A session that exists is in one of the slots. -/
theorem sessionSlot_spec (hfind : manager.sessionSlot sessionId = some slot) :
    slot < maxMigrationSessions ∧ (manager.sessions slot).inUse = true := by
  rw [LiveMigrationManager.sessionSlot] at hfind
  split_ifs at hfind with hrange hused
  have hmax : ¬ maxMigrationSessions < sessionId.toNat := fun hlarge ↦ hrange (Or.inr hlarge)
  have hpos : 0 < sessionId.toNat := toNat_pos fun hzero ↦ hrange (Or.inl hzero)
  obtain rfl := Option.some.inj hfind
  exact ⟨by omega, hused⟩

/-- What holds of every session holds after one was changed exactly when it holds of that one. -/
theorem EverySession.update_iff {property : MigrationSession → ℕ → Prop}
    {sessions : ℕ → MigrationSession} (hall : EverySession property sessions endings)
    (hslot : slot < maxMigrationSessions) :
    EverySession property (Function.update sessions slot after)
        (Function.update endings slot count) ↔
      (after.inUse = true → property after count) := by
  constructor
  · intro hupdated
    have hone := hupdated slot hslot
    rwa [Function.update_self, Function.update_self] at hone
  · intro hafter other hother hused
    by_cases hsame : other = slot
    · subst hsame
      rw [Function.update_self] at hused
      rw [Function.update_self, Function.update_self]
      exact hafter hused
    · rw [Function.update_of_ne hsame] at hused
      rw [Function.update_of_ne hsame, Function.update_of_ne hsame]
      exact hall other hother hused

/-- The number of active migrations after one session was changed. -/
theorem SessionsHold.active_iff (hhold : SessionsHold manager endings)
    (hslot : slot < maxMigrationSessions)
    (hsessions : changed.sessions = Function.update manager.sessions slot after) :
    changed.activeMigrations.toNat =
        countSlots MigrationSession.isActive maxMigrationSessions changed.sessions ↔
      changed.activeMigrations.toNat + (manager.sessions slot).isActive.toNat =
        manager.activeMigrations.toNat + after.isActive.toNat := by
  have hcount : countSlots MigrationSession.isActive maxMigrationSessions
        (Function.update manager.sessions slot after) + (manager.sessions slot).isActive.toNat =
      countSlots MigrationSession.isActive maxMigrationSessions manager.sessions +
        after.isActive.toNat :=
    countSlots_update_add hslot after
  rw [hsessions, hhold.active]
  omega

/-- A call that is made in a state with the invariant keeps the accounts exactly under a condition,
and under it the invariant. -/
structure KeepsExactly (changed : LiveMigrationManager) (recorded : ℕ → ℕ) (condition : Prop) :
    Prop where
  accounted_iff : SessionsAccounted changed recorded ↔ condition
  hold : condition → SessionsHold changed recorded

theorem SessionsHold.unchanged (hhold : SessionsHold manager endings) {condition : Prop}
    (hcondition : condition) : KeepsExactly manager endings condition :=
  ⟨iff_of_true hhold.accounted hcondition, fun _ ↦ hhold⟩

/-- A call that changes one session. Assumes: the condition says when the number of active
migrations follows, and the session ends once with balanced pages; and what holds of a session then
holds of the changed one. -/
theorem SessionsHold.replaced (hhold : SessionsHold manager endings)
    (hslot : slot < maxMigrationSessions)
    (hsessions : changed.sessions = Function.update manager.sessions slot after) {condition : Prop}
    (hexact : changed.activeMigrations.toNat + (manager.sessions slot).isActive.toNat =
          manager.activeMigrations.toNat + after.isActive.toNat ∧
        (after.inUse = true → count ≤ 1 ∧ after.PagesBalanced) ↔ condition)
    (hafter : condition → after.inUse = true → SessionHolds after count) :
    KeepsExactly changed (Function.update endings slot count) condition := by
  have hactive := hhold.active_iff hslot hsessions
  constructor
  · rw [← hexact, ← hactive]
    constructor
    · rintro ⟨hcounted, honce, hpages⟩
      rw [hsessions, hhold.accounted.once.update_iff hslot] at honce
      rw [hsessions, hhold.accounted.pages.update_iff hslot] at hpages
      exact ⟨hcounted, fun hused ↦ ⟨honce hused, hpages hused⟩⟩
    · rintro ⟨hcounted, hboth⟩
      refine ⟨hcounted, ?_, ?_⟩
      · rw [hsessions, hhold.accounted.once.update_iff hslot]
        exact fun hused ↦ (hboth hused).1
      · rw [hsessions, hhold.accounted.pages.update_iff hslot]
        exact fun hused ↦ (hboth hused).2
  · intro hcondition
    refine ⟨hactive.mpr (hexact.mpr hcondition).1, ?_⟩
    rw [hsessions, hhold.sessions.update_iff hslot]
    exact hafter hcondition

/-! ### Phases and the log -/

theorem toNat_eq_iff {first second : Bool} : first.toNat = second.toNat ↔ first = second := by
  cases first with
  | false => cases second with
    | false => simp
    | true => simp
  | true => cases second with
    | false => simp
    | true => simp

/-- A call that writes to one session and to nothing else. Assumes: for a session that exists, the
condition says when it stays as active as it was and its pages balanced, and then what holds of it
is kept. -/
theorem SessionsHold.written (hhold : SessionsHold manager endings)
    (change : MigrationSession → MigrationSession) (condition : MigrationSession → Prop)
    {answer : MigrationSession → Int}
    (hexact : ∀ session count, SessionHolds session count → session.inUse = true →
      ((change session).isActive = session.isActive ∧ (change session).PagesBalanced ↔
        condition session))
    (hkeep : ∀ session count, SessionHolds session count → condition session →
      SessionHolds (change session) count)
    (hused : ∀ session, (change session).inUse = session.inUse) :
    KeepsExactly (onSession manager sessionId change answer).1 endings
      (∀ slot ∈ manager.sessionSlot sessionId, condition (manager.sessions slot)) := by
  rw [onSession]
  cases hfind : manager.sessionSlot sessionId with
  | none => exact hhold.unchanged (by simp)
  | some slot =>
    obtain ⟨hslot, hexists⟩ := sessionSlot_spec hfind
    have hholds := hhold.sessions slot hslot hexists
    have hsame : Function.update endings slot (endings slot) = endings :=
      Function.update_eq_self slot endings
    simp only [Option.mem_some_iff, forall_eq']
    rw [← hsame]
    refine hhold.replaced hslot rfl ?_ fun hcondition _ ↦ hkeep _ _ hholds hcondition
    rw [← hexact _ _ hholds hexists, hused]
    constructor
    · rintro ⟨hactive, hboth⟩
      exact ⟨toNat_eq_iff.mp (Nat.add_left_cancel hactive).symm, (hboth hexists).2⟩
    · rintro ⟨hactive, hpages⟩
      refine ⟨?_, fun _ ↦ ⟨hholds.count_le, hpages⟩⟩
      rw [hactive]
      rfl

/-- A session that is put into a phase is active, and was so exactly when it had not ended. -/
theorem isActive_phase_iff (hused : session.inUse = true) (hafter : after.inUse = true)
    (hended : after.ended = false) :
    after.isActive = session.isActive ↔ session.ended = false := by
  rw [MigrationSession.isActive, MigrationSession.isActive, hused, hafter, hended]
  cases session.ended with
  | false => simp
  | true => simp

/-- Assumes: a phase whose pages stay balanced exactly under a condition, and which keeps size and
the mark for rolling back. -/
theorem SessionsHold.phase (hhold : SessionsHold manager endings)
    (change : MigrationSession → MigrationSession) (moves : MigrationSession → Prop)
    {answer : MigrationSession → Int} (hused : ∀ session, (change session).inUse = session.inUse)
    (hended : ∀ session, (change session).ended = false)
    (hframe : ∀ session, (change session).totalPages = session.totalPages ∧
      (change session).canRollback = session.canRollback)
    (hpages : ∀ session count, SessionHolds session count →
      ((change session).PagesBalanced ↔ moves session)) :
    KeepsExactly (onSession manager sessionId change answer).1 endings
      (∀ slot ∈ manager.sessionSlot sessionId,
        (manager.sessions slot).ended = false ∧ moves (manager.sessions slot)) := by
  refine hhold.written change
    (fun session ↦ session.ended = false ∧ moves session) ?_ ?_ hused
  · intro session count hholds hexists
    rw [isActive_phase_iff hexists ((hused session).trans hexists) (hended session),
      hpages session count hholds]
  · rintro session count hholds ⟨hopen, hmoves⟩
    refine ⟨(hframe session).1.trans hholds.total, (hframe session).2.trans hholds.rollback,
      (hpages session count hholds).mpr hmoves, ?_⟩
    rw [hholds.endings, hopen, hended session]

/-- Assumes: a phase that leaves the pages balanced. -/
theorem SessionsHold.plainPhase (hhold : SessionsHold manager endings)
    (change : MigrationSession → MigrationSession) {answer : MigrationSession → Int}
    (hused : ∀ session, (change session).inUse = session.inUse)
    (hended : ∀ session, (change session).ended = false)
    (hframe : ∀ session, (change session).totalPages = session.totalPages ∧
      (change session).canRollback = session.canRollback)
    (hpages : ∀ session, session.PagesBalanced → (change session).PagesBalanced) :
    KeepsExactly (onSession manager sessionId change answer).1 endings
      (∀ slot ∈ manager.sessionSlot sessionId, (manager.sessions slot).ended = false) := by
  have hphase : KeepsExactly (onSession manager sessionId change answer).1 endings
      (∀ slot ∈ manager.sessionSlot sessionId, (manager.sessions slot).ended = false ∧ True) :=
    hhold.phase change (fun _ ↦ True) hused hended hframe fun session count hholds ↦
      iff_of_true (hpages session hholds.pages) trivial
  simpa only [and_true] using hphase

theorem SessionsHold.precopyPhase (hhold : SessionsHold manager endings) (sessionId : UInt32) :
    KeepsExactly (migrationPrecopyPhase manager sessionId).1 endings
      ((MigrationCall.precopyPhase sessionId).KeepsSessions manager) := by
  rw [migrationPrecopyPhase, MigrationCall.KeepsSessions]
  refine hhold.phase MigrationSession.precopy
    (fun session ↦ session.precopyPages ≤ session.remainingPages) (fun _ ↦ rfl) (fun _ ↦ rfl)
    (fun _ ↦ ⟨rfl, rfl⟩) fun session count hholds ↦ ?_
  have hbalanced : session.precopy.PagesBalanced ↔
      (session.movePages session.precopyPages).PagesBalanced :=
    ⟨fun ⟨hsum, hinside⟩ ↦ ⟨hsum, hinside⟩, fun ⟨hsum, hinside⟩ ↦ ⟨hsum, hinside⟩⟩
  rw [hbalanced, hholds.pagesBalanced_movePages_iff]
  rw [hholds.precopyPages]
  decide

theorem SessionsHold.deltaPhase (hhold : SessionsHold manager endings) (sessionId : UInt32) :
    KeepsExactly (migrationDeltaPhase manager sessionId).1 endings
      ((MigrationCall.deltaPhase sessionId).KeepsSessions manager) := by
  have hbalanced : ∀ session : MigrationSession, session.deltaCopy.PagesBalanced ↔
      (session.movePages session.deltaPages).PagesBalanced :=
    fun _ ↦ ⟨fun ⟨hsum, hinside⟩ ↦ ⟨hsum, hinside⟩, fun ⟨hsum, hinside⟩ ↦ ⟨hsum, hinside⟩⟩
  have hpages : ∀ session count, SessionHolds session count →
      (session.deltaCopy.PagesBalanced ↔ session.deltaPages ≤ session.remainingPages) := by
    intro session count hholds
    rw [hbalanced, hholds.pagesBalanced_movePages_iff]
    rw [hholds.deltaPages]
    decide
  rw [migrationDeltaPhase, MigrationCall.KeepsSessions]
  refine hhold.written MigrationSession.deltaCopy
    (fun session ↦ session.deltaPages ≤ session.remainingPages) ?_ ?_ fun _ ↦ rfl
  · intro session count hholds _
    rw [← hpages session count hholds]
    exact and_iff_right rfl
  · intro session count hholds hmoves
    exact ⟨hholds.total, hholds.rollback, (hpages session count hholds).mpr hmoves, hholds.endings⟩

/-- A write to the log of a session changes nothing that is accounted. -/
theorem SessionsHold.logged (hhold : SessionsHold manager endings)
    (change : MigrationSession → MigrationSession)
    (hlog : ∀ session, ∃ dirtyLogs, change session = { session with dirtyLogs := dirtyLogs }) :
    KeepsExactly (onSession manager sessionId change fun _ ↦ 0).1 endings True := by
  have hkept : KeepsExactly (onSession manager sessionId change fun _ ↦ 0).1 endings
      (∀ slot ∈ manager.sessionSlot sessionId, True) := by
    refine hhold.written change (fun _ ↦ True) ?_ ?_ ?_
    · intro session count hholds _
      obtain ⟨dirtyLogs, hchange⟩ := hlog session
      rw [hchange]
      exact iff_of_true ⟨rfl, hholds.pages.sum, hholds.pages.inside⟩ trivial
    · intro session count hholds _
      obtain ⟨dirtyLogs, hchange⟩ := hlog session
      rw [hchange]
      exact ⟨hholds.total, hholds.rollback, ⟨hholds.pages.sum, hholds.pages.inside⟩,
        hholds.endings⟩
    · intro session
      obtain ⟨dirtyLogs, hchange⟩ := hlog session
      rw [hchange]
      rfl
  simpa using hkept

theorem SessionsHold.trackDirtyPages (hhold : SessionsHold manager endings) (sessionId : UInt32)
    (pageAddress : UInt64) :
    KeepsExactly (migrationTrackDirtyPages manager sessionId pageAddress).1 endings True := by
  have hlogged : KeepsExactly
      (onSession manager sessionId (MigrationSession.trackPage pageAddress) fun _ ↦ 0).1 endings
        True := hhold.logged _ fun session ↦ ⟨_, rfl⟩
  rw [onSession] at hlogged
  rw [migrationTrackDirtyPages]
  cases hfind : manager.sessionSlot sessionId with
  | none => exact hhold.unchanged trivial
  | some slot =>
    rw [hfind] at hlogged
    dsimp only
    split_ifs
    · exact hhold.unchanged trivial
    · exact hlogged

/-! ### Creation, destruction and endings -/

theorem toNat_lowerActive (manager : LiveMigrationManager) :
    manager.lowerActive.activeMigrations.toNat = manager.activeMigrations.toNat - 1 := by
  rw [LiveMigrationManager.lowerActive]
  split_ifs with hpos
  · have hless := toNat_pred_add_one (UInt32.pos_iff_ne_zero.mp hpos)
    dsimp only
    omega
  · rw [UInt32.lt_iff_toNat_lt, UInt32.toNat_zero] at hpos
    omega

theorem sessions_lowerActive (manager : LiveMigrationManager) :
    manager.lowerActive.sessions = manager.sessions := by
  rw [LiveMigrationManager.lowerActive]
  split_ifs
  · rfl
  · rfl

/-- An active session is counted. -/
theorem SessionsHold.active_pos (hhold : SessionsHold manager endings)
    (hslot : slot < maxMigrationSessions) (hactive : (manager.sessions slot).isActive = true) :
    0 < manager.activeMigrations.toNat := by
  rw [hhold.active]
  exact countSlots_pos hslot hactive

/-- A session that exists is active exactly when it has not ended. -/
theorem isActive_of_inUse (hused : session.inUse = true) : session.isActive = !session.ended := by
  rw [MigrationSession.isActive, hused, Bool.true_and]

/-- An ending. Assumes: the session is changed to one that has ended and is otherwise accounted for
in the same way, and the number of active migrations is lowered. -/
theorem SessionsHold.ends (hhold : SessionsHold manager endings)
    (hfind : manager.sessionSlot sessionId = some slot)
    (hsessions : changed.sessions = Function.update manager.sessions slot after)
    (hactive : changed.activeMigrations.toNat = manager.activeMigrations.toNat - 1)
    (hused : after.inUse = true) (hended : after.ended = true) (hafter : SessionHolds after 1) :
    KeepsExactly changed (Function.update endings slot (endings slot + 1))
      ((manager.sessions slot).ended = false) := by
  obtain ⟨hslot, hexists⟩ := sessionSlot_spec hfind
  have hcount := (hhold.sessions slot hslot hexists).endings
  refine hhold.replaced hslot hsessions ?_ ?_
  · rw [hcount, hactive, isActive_of_inUse hused, isActive_of_inUse hexists, hended]
    cases hstate : (manager.sessions slot).ended with
    | true =>
      -- the second ending of the session
      refine iff_of_false (fun hboth ↦ ?_) Bool.true_eq_false.mp
      exact absurd (hboth.2 hused).1 (by decide)
    | false =>
      have hpos := hhold.active_pos hslot (by rw [isActive_of_inUse hexists, hstate]; rfl)
      refine iff_of_true ⟨?_, fun _ ↦ ⟨Nat.le_refl 1, hafter.pages⟩⟩ rfl
      simp only [Bool.not_false, Bool.toNat_true, Bool.not_true, Bool.toNat_false]
      omega
  · intro hopen _
    rw [hcount, hopen]
    exact hafter

/-- What holds of a session before its ending holds after it, with one ending. -/
theorem SessionHolds.ended_one {count : ℕ} (hholds : SessionHolds session count)
    (htotal : after.totalPages = session.totalPages)
    (hrollback : after.canRollback = session.canRollback)
    (hmigrated : after.migratedPages = session.migratedPages)
    (hremaining : after.remainingPages = session.remainingPages) (hended : after.ended = true) :
    SessionHolds after 1 := by
  refine ⟨htotal.trans hholds.total, hrollback.trans hholds.rollback, ⟨?_, ?_⟩, ?_⟩
  · rw [htotal, hmigrated, hremaining]
    exact hholds.pages.sum
  · rw [htotal, hmigrated]
    exact hholds.pages.inside
  · rw [hended]
    rfl

theorem SessionsHold.complete (hhold : SessionsHold manager endings) (sessionId : UInt32) :
    KeepsExactly (migrationComplete manager sessionId).1
      (trackEndings manager (.complete sessionId) endings)
      ((MigrationCall.complete sessionId).KeepsSessions manager) := by
  rw [migrationComplete, MigrationCall.KeepsSessions]
  dsimp only [trackEndings, creatingSlot, endingSlot]
  cases hfind : manager.sessionSlot sessionId with
  | none => exact hhold.unchanged (by simp)
  | some slot =>
    obtain ⟨hslot, hexists⟩ := sessionSlot_spec hfind
    simp only [Option.mem_some_iff, forall_eq']
    refine hhold.ends hfind (sessions_lowerActive _) (toNat_lowerActive _) hexists rfl ?_
    exact (hhold.sessions slot hslot hexists).ended_one rfl rfl rfl rfl rfl

theorem SessionsHold.rollback (hhold : SessionsHold manager endings) (sessionId : UInt32) :
    KeepsExactly (migrationRollback manager sessionId).1
      (trackEndings manager (.rollback sessionId) endings)
      ((MigrationCall.rollback sessionId).KeepsSessions manager) := by
  rw [migrationRollback, MigrationCall.KeepsSessions]
  dsimp only [trackEndings, creatingSlot, endingSlot]
  cases hfind : manager.sessionSlot sessionId with
  | none => exact hhold.unchanged (by simp)
  | some slot =>
    obtain ⟨hslot, hexists⟩ := sessionSlot_spec hfind
    simp only [Option.mem_some_iff, forall_eq']
    refine hhold.ends hfind (sessions_lowerActive _) (toNat_lowerActive _) hexists rfl ?_
    exact (hhold.sessions slot hslot hexists).ended_one rfl rfl rfl rfl rfl

/-- A timeout is a rollback, as every session can be rolled back. -/
theorem SessionsHold.handleTimeout (hhold : SessionsHold manager endings) (sessionId : UInt32) :
    KeepsExactly (migrationHandleTimeout manager sessionId).1
      (trackEndings manager (.handleTimeout sessionId) endings)
      ((MigrationCall.handleTimeout sessionId).KeepsSessions manager) := by
  have hrollback := hhold.rollback sessionId
  dsimp only [MigrationCall.KeepsSessions, trackEndings, creatingSlot, endingSlot] at hrollback ⊢
  rw [migrationHandleTimeout]
  cases hfind : manager.sessionSlot sessionId with
  | none => exact hhold.unchanged (by simp)
  | some slot =>
    obtain ⟨hslot, hexists⟩ := sessionSlot_spec hfind
    have hcan := (hhold.sessions slot hslot hexists).rollback
    rw [hfind] at hrollback
    rw [Option.filter_some, if_pos hcan]
    simp only [hcan, if_true]
    exact hrollback

theorem SessionsHold.destroy (hhold : SessionsHold manager endings) (sessionId : UInt32) :
    KeepsExactly (migrationSessionDestroy manager sessionId).1 endings
      ((MigrationCall.destroy sessionId).KeepsSessions manager) := by
  rw [migrationSessionDestroy, MigrationCall.KeepsSessions]
  cases hfind : manager.sessionSlot sessionId with
  | none => exact hhold.unchanged (by simp)
  | some slot =>
    obtain ⟨hslot, hexists⟩ := sessionSlot_spec hfind
    have hsame : Function.update endings slot (endings slot) = endings :=
      Function.update_eq_self slot endings
    have hunused : MigrationSession.zero.inUse = true → False := Bool.false_ne_true
    have hzero : manager.activeMigrations = 0 ↔ manager.activeMigrations.toNat = 0 := by
      rw [← UInt32.toNat_inj, UInt32.toNat_zero]
    simp only [Option.mem_some_iff, forall_eq']
    rw [← hsame]
    refine hhold.replaced hslot (sessions_lowerActive _) ?_ fun _ hused ↦ (hunused hused).elim
    have hinactive : MigrationSession.zero.isActive = false := rfl
    rw [toNat_lowerActive, isActive_of_inUse hexists, hinactive, hzero]
    cases hstate : (manager.sessions slot).ended with
    | true =>
      simp only [LiveMigrationManager.changeSession, Bool.not_true, Bool.toNat_false]
      constructor
      · intro hboth _
        omega
      · intro hended
        have hnone := hended trivial
        exact ⟨by omega, fun hused ↦ (hunused hused).elim⟩
    | false =>
      have hpos := hhold.active_pos hslot (by rw [isActive_of_inUse hexists, hstate]; rfl)
      refine iff_of_true ⟨?_, fun hused ↦ (hunused hused).elim⟩ (by simp)
      simp only [LiveMigrationManager.changeSession, Bool.not_false, Bool.toNat_true,
        Bool.toNat_false]
      omega

theorem SessionsHold.create (hhold : SessionsHold manager endings) (sourceVm destVm : UInt32)
    (strategy : MigrationStrategy) :
    KeepsExactly (migrationSessionCreate manager sourceVm destVm strategy).1
      (trackEndings manager (.create sourceVm destVm strategy) endings)
      ((MigrationCall.create sourceVm destVm strategy).KeepsSessions manager) := by
  rw [migrationSessionCreate, MigrationCall.KeepsSessions]
  dsimp only [trackEndings, creatingSlot, endingSlot]
  cases hfind : manager.newSlot with
  | none => exact hhold.unchanged trivial
  | some slot =>
    rw [LiveMigrationManager.newSlot] at hfind
    split_ifs at hfind with hroom
    obtain ⟨hslot, hfree⟩ := firstSlot_spec hfind
    have hactive : (manager.activeMigrations + 1).toNat = manager.activeMigrations.toNat + 1 := by
      have hmax : maxMigrationSessions = 64 := rfl
      exact toNat_succ (by omega)
    have hinactive : (manager.sessions slot).isActive = false := by
      rw [MigrationSession.isActive, Bool.eq_false_of_not_eq_true' hfree, Bool.false_and]
    have hid : (newSession slot sourceVm destVm strategy).inUse = true := by
      have hmax : maxMigrationSessions = 64 := rfl
      have hnumber : (UInt32.ofNat slot + 1).toNat = slot + 1 := by
        rw [UInt32.toNat_add, UInt32.toNat_ofNat', UInt32.toNat_one]
        omega
      refine bne_iff_ne.mpr fun hzero ↦ ?_
      have hnone : (UInt32.ofNat slot + 1).toNat = 0 := congrArg UInt32.toNat hzero
      omega
    have hnew : SessionHolds (newSession slot sourceVm destVm strategy) 0 :=
      ⟨rfl, rfl,
        ⟨show (0 : UInt64).toNat + (131072 : UInt64).toNat = (131072 : UInt64).toNat by decide,
          show (0 : UInt64) ≤ 131072 by decide⟩, rfl⟩
    refine hhold.replaced hslot rfl ?_ fun _ _ ↦ hnew
    refine iff_of_true ⟨?_, fun _ ↦ ⟨Nat.zero_le 1, hnew.pages⟩⟩ trivial
    rw [hinactive, isActive_of_inUse hid]
    exact hactive

/-! ### Runs -/

/-- A call in a state with the invariant keeps the accounts exactly under its condition. -/
theorem SessionsHold.step (hhold : SessionsHold manager endings) (call : MigrationCall) :
    KeepsExactly (migrationStep manager call) (trackEndings manager call endings)
      (call.KeepsSessions manager) := by
  cases call with
  | create sourceVm destVm strategy => exact hhold.create sourceVm destVm strategy
  | destroy sessionId => exact hhold.destroy sessionId
  | start sessionId =>
    exact hhold.plainPhase MigrationSession.start (fun _ ↦ rfl) (fun _ ↦ rfl) (fun _ ↦ ⟨rfl, rfl⟩)
      fun _ hpages ↦ ⟨hpages.sum, hpages.inside⟩
  | precopyPhase sessionId => exact hhold.precopyPhase sessionId
  | deltaPhase sessionId => exact hhold.deltaPhase sessionId
  | stopVmPhase sessionId =>
    exact hhold.plainPhase MigrationSession.stop (fun _ ↦ rfl) (fun _ ↦ rfl) (fun _ ↦ ⟨rfl, rfl⟩)
      fun _ hpages ↦ ⟨hpages.sum, hpages.inside⟩
  | finalPhase sessionId =>
    exact hhold.plainPhase MigrationSession.finish (fun _ ↦ rfl) (fun _ ↦ rfl)
      (fun _ ↦ ⟨rfl, rfl⟩) fun session _ ↦ ⟨Nat.add_zero _, UInt64.le_refl session.totalPages⟩
  | complete sessionId => exact hhold.complete sessionId
  | trackDirtyPages sessionId pageAddress => exact hhold.trackDirtyPages sessionId pageAddress
  | clearDirtyLog sessionId => exact hhold.logged _ fun _ ↦ ⟨_, rfl⟩
  | handleTimeout sessionId => exact hhold.handleTimeout sessionId
  | rollback sessionId => exact hhold.rollback sessionId

theorem counts_lowerActive (manager : LiveMigrationManager) :
    manager.lowerActive.completedMigrations = manager.completedMigrations ∧
      manager.lowerActive.failedMigrations = manager.failedMigrations := by
  rw [LiveMigrationManager.lowerActive]
  split_ifs
  · exact ⟨rfl, rfl⟩
  · exact ⟨rfl, rfl⟩

/-- A call that writes to one session counts nothing. -/
theorem counts_onSession (manager : LiveMigrationManager) (sessionId : UInt32)
    (change : MigrationSession → MigrationSession) (answer : MigrationSession → Int) :
    (onSession manager sessionId change answer).1.completedMigrations +
        (onSession manager sessionId change answer).1.failedMigrations =
      manager.completedMigrations + manager.failedMigrations + 0 := by
  rw [onSession, UInt32.add_zero]
  cases manager.sessionSlot sessionId with
  | none => rfl
  | some slot => rfl

theorem countsEndings_rollback (manager : LiveMigrationManager) (sessionId : UInt32) :
    CountsEndings manager (.rollback sessionId) := by
  dsimp only [CountsEndings, migrationStep, endingSlot]
  rw [migrationRollback]
  cases manager.sessionSlot sessionId with
  | none => exact (UInt32.add_zero _).symm
  | some slot =>
    dsimp only
    rw [(counts_lowerActive _).1, (counts_lowerActive _).2]
    exact (UInt32.add_assoc _ _ _).symm

/-- Every call counts the ending that is recorded for it. -/
theorem countsEndings (manager : LiveMigrationManager) (call : MigrationCall) :
    CountsEndings manager call := by
  cases call with
  | create sourceVm destVm strategy =>
    dsimp only [CountsEndings, migrationStep, endingSlot]
    rw [migrationSessionCreate]
    cases manager.newSlot with
    | none => exact (UInt32.add_zero _).symm
    | some slot => exact (UInt32.add_zero _).symm
  | destroy sessionId =>
    dsimp only [CountsEndings, migrationStep, endingSlot]
    rw [migrationSessionDestroy]
    cases manager.sessionSlot sessionId with
    | none => exact (UInt32.add_zero _).symm
    | some slot =>
      dsimp only
      rw [(counts_lowerActive _).1, (counts_lowerActive _).2]
      exact (UInt32.add_zero _).symm
  | complete sessionId =>
    dsimp only [CountsEndings, migrationStep, endingSlot]
    rw [migrationComplete]
    cases manager.sessionSlot sessionId with
    | none => exact (UInt32.add_zero _).symm
    | some slot =>
      dsimp only
      rw [(counts_lowerActive _).1, (counts_lowerActive _).2]
      rw [UInt32.add_assoc, UInt32.add_comm 1, ← UInt32.add_assoc]
      rfl
  | rollback sessionId => exact countsEndings_rollback manager sessionId
  | handleTimeout sessionId =>
    have hrollback := countsEndings_rollback manager sessionId
    dsimp only [CountsEndings, migrationStep, endingSlot] at hrollback ⊢
    rw [migrationHandleTimeout]
    cases hfind : manager.sessionSlot sessionId with
    | none => exact (UInt32.add_zero _).symm
    | some slot =>
      rw [hfind] at hrollback
      rw [Option.filter_some]
      by_cases hcan : (manager.sessions slot).canRollback = true
      · simp only [hcan, if_true]
        exact hrollback
      · simp only [hcan]
        exact (UInt32.add_zero _).symm
  | trackDirtyPages sessionId pageAddress =>
    dsimp only [CountsEndings, migrationStep, endingSlot]
    rw [migrationTrackDirtyPages]
    cases manager.sessionSlot sessionId with
    | none => exact (UInt32.add_zero _).symm
    | some slot =>
      dsimp only
      split_ifs
      · exact (UInt32.add_zero _).symm
      · exact (UInt32.add_zero _).symm
  | start sessionId => exact counts_onSession manager sessionId _ _
  | precopyPhase sessionId => exact counts_onSession manager sessionId _ _
  | deltaPhase sessionId => exact counts_onSession manager sessionId _ _
  | stopVmPhase sessionId => exact counts_onSession manager sessionId _ _
  | finalPhase sessionId => exact counts_onSession manager sessionId _ _
  | clearDirtyLog sessionId => exact counts_onSession manager sessionId _ _

/-- Over every run, the active migrations are the sessions that have not ended, no session adds more
than one to the completed and failed migrations, and the pages of every session are balanced,
exactly when every call meets its condition. -/
theorem sessionsAccounted_iff (calls : List MigrationCall) :
    AlongRun (withTrace migrationStep trackEndings)
          (fun traced ↦ SessionsAccounted traced.1 traced.2) (liveMigrationInit, fun _ ↦ 0) calls ∧
        EveryStep migrationStep CountsEndings liveMigrationInit calls ↔
      EveryStep migrationStep (fun manager call ↦ call.KeepsSessions manager) liveMigrationInit
        calls := by
  have htraced : ∀ condition : LiveMigrationManager → MigrationCall → Prop,
      EveryStep (withTrace migrationStep trackEndings) (fun traced ↦ condition traced.1)
          (liveMigrationInit, fun _ ↦ 0) calls ↔
        EveryStep migrationStep condition liveMigrationInit calls := fun _ ↦ everyStep_withTrace
  rw [← htraced, ← htraced]
  refine alongRun_and_everyStep_iff_of_kept (fun traced ↦ SessionsHold traced.1 traced.2)
    (fun _ _ ↦ True) ?_ (fun _ hhold ↦ hhold.accounted) ?_ sessionsHold_init (fun _ _ _ ↦ trivial)
  · intro traced call hhold _ hcondition
    exact (hhold.step call).hold hcondition
  · intro traced call hhold _
    rw [and_iff_left (countsEndings traced.1 call)]
    exact (hhold.step call).accounted_iff

/-- Two sessions, of which the first is completed twice: none is counted as active, while the second
one is, and the first one counts as two completed migrations. -/
theorem not_sessionsAccounted_completed_twice :
    ¬ AlongRun (withTrace migrationStep trackEndings)
      (fun traced ↦ SessionsAccounted traced.1 traced.2) (liveMigrationInit, fun _ ↦ 0)
      [.create 1 2 .preCopy, .create 3 4 .preCopy, .complete 1, .complete 1] := by
  intro halong
  have hactive := (halong _ (List.prefix_refl _)).active
  exact absurd hactive (by decide)

end OneOS.Virtualization
