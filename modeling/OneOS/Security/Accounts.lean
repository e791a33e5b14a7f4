import Mathlib.Logic.Function.Basic
import OneOS.Foundation.Counters
import OneOS.Foundation.RowRecords
import OneOS.Foundation.Runs
import OneOS.Security.SecurityCore

/-!
# Access decisions and locked accounts

A rule of an enabled policy that denies a user a permission on an object is to be enforced by
`security_check_access`, which reads only the bits of the user: `enforcesDenial_iff` says when it
does what the rule says all the same.

After as many failed logins in a row as the threshold says, a user is locked. The failed logins of
every user since the last login are counted over a run (`failuresAfter`). In the runs that delete no
user and keep the threshold a user is active exactly as long as this count is below it
(`AccountsCounted`), and `lockout` says what follows.
-/

set_option autoImplicit false
set_option relaxedAutoImplicit false

namespace OneOS.Security

open Foundation

/-! ### Rules that deny -/

/-- Some enabled policy has an active rule that denies the user the permission on the object. -/
def DeniedByRule (core : SecurityCore) (userId objectId permission : UInt32) : Prop :=
  ∃ policy ∈ core.policies, policy.isEnabled = true ∧
    ∃ rule ∈ policy.rules, rule.isActive = true ∧ rule.ruleType = .deny ∧
      rule.subjectId = userId ∧ rule.objectId = objectId ∧
        rule.permissions &&& permission = permission

/-- The user is there and active and has the permission among its own bits. -/
def HasPermission (core : SecurityCore) (userId permission : UInt32) : Prop :=
  ∃ user, securityGetUser core userId = some user ∧ user.isActive = true ∧
    user.permissions &&& permission ≠ 0

/-- Access is granted exactly to an active user that has the permission among its own bits. -/
theorem checkAccess_eq_zero_iff (core : SecurityCore) (userId objectId permission : UInt32) :
    (securityCheckAccess core userId objectId permission).2 = 0 ↔
      HasPermission core userId permission := by
  rw [securityCheckAccess, HasPermission]
  cases hfind : securityGetUser core userId with
  | none => simp
  | some user =>
    by_cases hactive : user.isActive = true
    · by_cases hbits : user.permissions &&& permission = 0
      · simp [hactive, hbits]
      · simp [hactive, hbits]
    · simp [hactive]

/-- What a rule denies is refused, exactly unless a rule denies what the user has among its own
bits. -/
theorem enforcesDenial_iff (core : SecurityCore) (userId objectId permission : UInt32) :
    (DeniedByRule core userId objectId permission →
        (securityCheckAccess core userId objectId permission).2 ≠ 0) ↔
      ¬ (DeniedByRule core userId objectId permission ∧ HasPermission core userId permission) := by
  rw [Ne, checkAccess_eq_zero_iff, not_and]

/-- A core with a user and an enabled policy that denies it to read object 9. -/
def deniedReader : SecurityCore :=
  [.createUser (ofChars ['a']) [], .createPolicy,
    .addAccessRule 1 1 9 .deny permissionRead].foldl securityStep securityInit

/-- The rule denies what the bits of a new user allow, and access is granted. -/
theorem not_enforcesDenial_new_user :
    ¬ (DeniedByRule deniedReader 1 9 permissionRead →
      (securityCheckAccess deniedReader 1 9 permissionRead).2 ≠ 0) := by
  intro henforces
  refine henforces ?_ (by decide)
  exact ⟨⟨1, [⟨1, 1, 9, .deny, 1, true⟩], true⟩, by decide, rfl,
    ⟨1, 1, 9, .deny, 1, true⟩, by decide, rfl, rfl, rfl, rfl, rfl⟩

/-! ### Failed logins in a row -/

/-- For every user, the failed logins since the last login, after a call. -/
def failuresAfter (core : SecurityCore) (call : SecurityCall) (failures : UInt32 → ℕ) :
    UInt32 → ℕ :=
  match call with
  | .authenticateUser userId password =>
    if securityGetUser core userId = none then failures
    else
      Function.update failures userId
        (if (securityAuthenticateUser core userId password).2 = 0 then 0
        else failures userId + 1)
  | _ => failures

/-- A call that deletes no user and keeps the threshold. -/
def SecurityCall.KeepsAccounts (threshold : UInt32) : SecurityCall → Prop
  | .deleteUser _ => False
  | .setFailedAccessThreshold newThreshold => newThreshold = 0 ∨ newThreshold = threshold
  | _ => True

/-- A user is active as long as fewer logins in a row failed than the threshold says, and an active
user carries their number. -/
def User.Counted (threshold : UInt32) (failures : UInt32 → ℕ) (user : User) : Prop :=
  (user.isActive = true ↔ failures user.userId < threshold.toNat) ∧
    (user.isActive = true → user.failedLoginAttempts.toNat = failures user.userId)

/-- The invariant of a run that keeps accounts: users are numbered in order, every user is counted,
and no failed login is counted for an id that no user has. -/
structure AccountsCounted (threshold : UInt32) (traced : SecurityCore × (UInt32 → ℕ)) : Prop where
  numbered : NumberedFrom 1 User.userId traced.1.users
  bounded : traced.1.users.length ≤ maxUsers
  threshold_eq : traced.1.failedAccessThreshold = threshold
  counted : ∀ user ∈ traced.1.users, user.Counted threshold traced.2
  missing : ∀ userId, securityGetUser traced.1 userId = none → traced.2 userId = 0

variable {core after : SecurityCore} {failures : UInt32 → ℕ} {threshold : UInt32}

theorem AccountsCounted.nodup (hcounted : AccountsCounted threshold (core, failures)) :
    (core.users.map User.userId).Nodup :=
  hcounted.numbered.nodup (Nat.lt_of_le_of_lt hcounted.bounded (by decide))

/-- The invariant looks at the users and the threshold only. -/
theorem AccountsCounted.congr (hcounted : AccountsCounted threshold (core, failures))
    (husers : after.users = core.users)
    (hthreshold : after.failedAccessThreshold = core.failedAccessThreshold) :
    AccountsCounted threshold (after, failures) where
  numbered := husers.symm ▸ hcounted.numbered
  bounded := husers.symm ▸ hcounted.bounded
  threshold_eq := hthreshold.trans hcounted.threshold_eq
  counted := husers.symm ▸ hcounted.counted
  missing := by
    intro userId hnone
    rw [securityGetUser, husers] at hnone
    exact hcounted.missing userId hnone

theorem User.counted_update_of_ne {user : User} {userId : UInt32} {count : ℕ}
    (hother : user.userId ≠ userId) :
    user.Counted threshold (Function.update failures userId count) ↔
      user.Counted threshold failures := by
  rw [User.Counted, User.Counted, Function.update_of_ne hother]

theorem User.counted_update_self (user : User) {userId : UInt32} {count : ℕ}
    (hid : user.userId = userId) :
    user.Counted threshold (Function.update failures userId count) ↔
      (user.isActive = true ↔ count < threshold.toNat) ∧
        (user.isActive = true → user.failedLoginAttempts.toNat = count) := by
  rw [User.Counted, hid, Function.update_self]

/-- A user that is found has the id. -/
theorem userId_of_getUser {userId : UInt32} {user : User}
    (hfind : securityGetUser core userId = some user) : user.userId = userId := by
  unfold securityGetUser at hfind
  exact key_of_find? hfind

/-- Assumes: the invariant. A change of the user with an id keeps it when the changed user is
counted, and the count changes for no other id. -/
theorem AccountsCounted.onUser (hcounted : AccountsCounted threshold (core, failures))
    {userId : UInt32} {user : User} (change : User → User) {count : ℕ}
    (hfind : securityGetUser core userId = some user)
    (hkeep : ∀ user, (change user).userId = user.userId)
    (huser : (change user).Counted threshold (Function.update failures userId count)) :
    AccountsCounted threshold
      (core.onUser userId change, Function.update failures userId count) where
  numbered := hcounted.numbered.updateFirst hkeep
  bounded := by
    rw [SecurityCore.onUser, updateFirst, List.length_modify]
    exact hcounted.bounded
  threshold_eq := hcounted.threshold_eq
  counted := by
    rw [SecurityCore.onUser, updateFirst_key_eq_map hcounted.nodup]
    refine List.forall_mem_map.mpr fun other hother ↦ ?_
    split_ifs with hid
    · have hsame : other = user := List.inj_on_of_nodup_map hcounted.nodup hother
        (List.mem_of_find?_eq_some hfind) (hid.trans (userId_of_getUser hfind).symm)
      rw [hsame]
      exact huser
    · exact (User.counted_update_of_ne hid).mpr (hcounted.counted other hother)
  missing := by
    intro other hnone
    rw [securityGetUser, SecurityCore.onUser, find?_key_updateFirst hkeep] at hnone
    split_ifs at hnone with hid
    · rw [hid, ← securityGetUser, hfind] at hnone
      exact absurd hnone (Option.some_ne_none _)
    · exact (Function.update_of_ne hid _ _).trans (hcounted.missing other hnone)

/-- A new user has an id that no user has, and no failed login is counted for it. -/
theorem accountsCounted_createUser (hthreshold : threshold ≠ 0)
    (hcounted : AccountsCounted threshold (core, failures)) (username password : CString) :
    AccountsCounted threshold ((securityCreateUser core username password).1, failures) := by
  rw [securityCreateUser]
  split_ifs with hfull
  · exact hcounted
  · exact hcounted
  have hnumbered : NumberedFrom 1 User.userId
      (core.users ++ [core.newUser username password]) := hcounted.numbered.concat rfl
  have hlength : (core.users ++ [core.newUser username password]).length ≤ maxUsers := by
    rw [List.length_append]
    exact Nat.not_le.mp hfull
  have hfresh : ∀ user ∈ core.users, user.userId ≠ core.nextUserId :=
    (nodup_map_concat_iff hcounted.nodup).mp
      (hnumbered.nodup (Nat.lt_of_le_of_lt hlength (by decide)))
  have hnone : failures core.nextUserId = 0 := by
    refine hcounted.missing _ (List.find?_eq_none.mpr fun user huser hid ↦ ?_)
    exact hfresh user huser (of_decide_eq_true hid)
  refine ⟨hnumbered, hlength, hcounted.threshold_eq, ?_, ?_⟩
  · refine List.forall_mem_append.mpr ⟨hcounted.counted, List.forall_mem_singleton.mpr ?_⟩
    refine ⟨iff_of_true rfl ?_, fun _ ↦ hnone.symm⟩
    show failures core.nextUserId < threshold.toNat
    rw [hnone]
    exact toNat_pos hthreshold
  · intro userId hmissing
    rw [securityGetUser, List.find?_append, Option.or_eq_none_iff] at hmissing
    exact hcounted.missing userId hmissing.1

/-! ### Logins -/

section Logins

variable {userId : UInt32} {user : User} {password : CString}
variable (hfind : securityGetUser core userId = some user)
include hfind

theorem authenticateUser_of_locked (hlocked : user.isActive = false) :
    securityAuthenticateUser core userId password = (core, -1) := by
  rw [securityAuthenticateUser, hfind]
  exact if_pos hlocked

theorem authenticateUser_of_wrong (hactive : user.isActive = true)
    (hwrong : user.passwordHash ≠ password) :
    securityAuthenticateUser core userId password =
      (core.onUser userId (User.failLogin core.failedAccessThreshold), -1) := by
  rw [securityAuthenticateUser, hfind]
  dsimp only
  rw [if_neg (Bool.not_eq_false _ ▸ hactive), if_pos hwrong]

theorem authenticateUser_of_right (hactive : user.isActive = true)
    (hright : user.passwordHash = password) :
    securityAuthenticateUser core userId password =
      ({ core.onUser userId User.login with
        totalAccessGranted := core.totalAccessGranted + 1 }, 0) := by
  rw [securityAuthenticateUser, hfind]
  dsimp only
  rw [if_neg (Bool.not_eq_false _ ▸ hactive), if_neg (not_not.mpr hright)]

theorem failuresAfter_of_failed
    (hfailed : (securityAuthenticateUser core userId password).2 = -1) :
    failuresAfter core (.authenticateUser userId password) failures =
      Function.update failures userId (failures userId + 1) := by
  rw [failuresAfter, hfind, hfailed]
  rfl

theorem failuresAfter_of_login
    (hlogin : (securityAuthenticateUser core userId password).2 = 0) :
    failuresAfter core (.authenticateUser userId password) failures =
      Function.update failures userId 0 := by
  rw [failuresAfter, hfind, hlogin]
  rfl

end Logins

/-- What a login does to the accounts and the counts. -/
theorem accountsCounted_authenticateUser (hthreshold : threshold ≠ 0)
    (hcounted : AccountsCounted threshold (core, failures)) (userId : UInt32)
    (password : CString) :
    AccountsCounted threshold ((securityAuthenticateUser core userId password).1,
      failuresAfter core (.authenticateUser userId password) failures) := by
  cases hfind : securityGetUser core userId with
  | none =>
    rw [securityAuthenticateUser, failuresAfter, hfind]
    exact hcounted
  | some user =>
    obtain ⟨hactive, hattempts⟩ := hcounted.counted user (List.mem_of_find?_eq_some hfind)
    have hid := userId_of_getUser hfind
    rw [hid] at hactive hattempts
    by_cases htrue : user.isActive = true
    · have hfailures := hactive.mp htrue
      by_cases hright : user.passwordHash = password
      · have hlogin := authenticateUser_of_right hfind htrue hright
        rw [failuresAfter_of_login hfind (congrArg Prod.snd hlogin), hlogin]
        refine (hcounted.onUser User.login hfind (fun _ ↦ rfl) ?_).congr rfl rfl
        refine (User.counted_update_self user.login hid).mpr ⟨iff_of_true htrue ?_, fun _ ↦ rfl⟩
        exact toNat_pos hthreshold
      · have hfailed := authenticateUser_of_wrong hfind htrue hright
        have hnext : (user.failedLoginAttempts + 1).toNat = failures userId + 1 := by
          have hbound := threshold.toNat_lt
          rw [UInt32.toNat_add, hattempts htrue, UInt32.toNat_one]
          exact Nat.mod_eq_of_lt (by omega)
        rw [failuresAfter_of_failed hfind (congrArg Prod.snd hfailed), hfailed,
          hcounted.threshold_eq]
        refine hcounted.onUser (User.failLogin threshold) hfind (fun _ ↦ rfl) ?_
        refine (User.counted_update_self (user.failLogin threshold) hid).mpr ⟨?_, fun _ ↦ hnext⟩
        rw [User.failLogin, htrue, Bool.true_and, decide_eq_true_iff, UInt32.lt_iff_toNat_lt,
          hnext]
    · -- a locked user stays as it is, and one more failure is counted
      have hlocked : user.isActive = false := Bool.not_eq_true _ ▸ htrue
      have hfailures : ¬ failures userId < threshold.toNat := fun hlt ↦ htrue (hactive.mpr hlt)
      have hfailed : securityAuthenticateUser core userId password = (core, -1) :=
        authenticateUser_of_locked hfind hlocked
      have hsame : (core.onUser userId id).users = core.users := updateFirst_eq_self hfind rfl
      rw [failuresAfter_of_failed hfind (congrArg Prod.snd hfailed), hfailed]
      refine (hcounted.onUser id hfind (fun _ ↦ rfl) ?_).congr hsame.symm rfl
      refine (User.counted_update_self user hid).mpr ⟨iff_of_false htrue (by omega), ?_⟩
      exact fun hactive ↦ absurd hactive htrue

/-- Every call that keeps accounts keeps the invariant. -/
theorem accountsCounted_step (hthreshold : threshold ≠ 0)
    (hcounted : AccountsCounted threshold (core, failures)) (call : SecurityCall)
    (hcall : call.KeepsAccounts threshold) :
    AccountsCounted threshold (securityStep core call, failuresAfter core call failures) := by
  have hsame : ¬ call.ChangesAccounts →
      AccountsCounted threshold (securityStep core call, failures) := by
    intro hother
    obtain ⟨husers, hkept⟩ := accounts_securityStep hother
    exact hcounted.congr husers hkept
  cases call with
  | createUser username password =>
    exact accountsCounted_createUser hthreshold hcounted username password
  | deleteUser userId => exact absurd hcall not_false
  | authenticateUser userId password =>
    exact accountsCounted_authenticateUser hthreshold hcounted userId password
  | setUserPermissions userId permissions =>
    rw [securityStep, securitySetUserPermissions]
    cases hfind : securityGetUser core userId with
    | none => exact hcounted
    | some user =>
      have huser : User.Counted threshold (Function.update failures userId (failures userId))
          { user with permissions := permissions } := by
        rw [Function.update_eq_self]
        exact hcounted.counted user (List.mem_of_find?_eq_some hfind)
      have hafter :=
        hcounted.onUser ({ · with permissions := permissions }) hfind (fun _ ↦ rfl) huser
      rw [Function.update_eq_self] at hafter
      exact hafter
  | setFailedAccessThreshold newThreshold =>
    rw [securityStep, securitySetFailedAccessThreshold]
    split_ifs with hzero
    · exact hcounted
    · refine hcounted.congr rfl ?_
      exact (hcall.resolve_left hzero).trans hcounted.threshold_eq.symm
  | _ => exact hsame not_false

/-! ### Locked users -/

/-- Assumes: the invariant. A user with as many failed logins in a row as the threshold says is
refused every login and every access. -/
theorem refused_of_failures (hcounted : AccountsCounted threshold (core, failures))
    {userId : UInt32} (hfailures : threshold.toNat ≤ failures userId) (password : CString)
    (objectId permission : UInt32) :
    (securityAuthenticateUser core userId password).2 = -1 ∧
      (securityCheckAccess core userId objectId permission).2 = -1 := by
  rw [securityAuthenticateUser, securityCheckAccess]
  cases hfind : securityGetUser core userId with
  | none => exact ⟨rfl, rfl⟩
  | some user =>
    have hactive := (hcounted.counted user (List.mem_of_find?_eq_some hfind)).1
    rw [userId_of_getUser hfind] at hactive
    have hlocked : user.isActive = false := by
      rw [← Bool.not_eq_true, hactive]
      exact Nat.not_lt.mpr hfailures
    simp only [hlocked, if_true]
    exact ⟨trivial, trivial⟩

/-- Assumes: the invariant. Failed logins in a row that reach the threshold stay above it. -/
theorem failures_stay (hcounted : AccountsCounted threshold (core, failures)) {userId : UInt32}
    (hfailures : threshold.toNat ≤ failures userId) (call : SecurityCall) :
    threshold.toNat ≤ failuresAfter core call failures userId := by
  cases call with
  | authenticateUser other password =>
    rw [failuresAfter]
    split_ifs with hmissing hlogin
    · exact hfailures
    · by_cases hother : userId = other
      · have hrefused := (refused_of_failures hcounted hfailures password 0 0).1
        rw [hother, hlogin] at hrefused
        exact absurd hrefused (by decide)
      · rw [Function.update_of_ne hother]
        exact hfailures
    · by_cases hother : userId = other
      · rw [hother, Function.update_self, ← hother]
        exact Nat.le_succ_of_le hfailures
      · rw [Function.update_of_ne hother]
        exact hfailures
  | _ => exact hfailures

/-- The core at the start of a run, with a threshold that is set, and no failed logins. -/
def lockoutStart (threshold : UInt32) : SecurityCore × (UInt32 → ℕ) :=
  ((securitySetFailedAccessThreshold securityInit threshold).1, fun _ ↦ 0)

theorem accountsCounted_start (hthreshold : threshold ≠ 0) :
    AccountsCounted threshold (lockoutStart threshold) := by
  rw [lockoutStart, securitySetFailedAccessThreshold, if_neg hthreshold]
  exact ⟨rfl, Nat.zero_le _, rfl, List.forall_mem_nil _, fun _ _ ↦ rfl⟩

/-- The core and the failed logins in a row after a run. -/
def lockoutRun (threshold : UInt32) (calls : List SecurityCall) : SecurityCore × (UInt32 → ℕ) :=
  runFrom (withTrace securityStep failuresAfter) (lockoutStart threshold) calls

/-- The invariant holds after every run that keeps accounts. -/
theorem accountsCounted_run (hthreshold : threshold ≠ 0) {calls : List SecurityCall}
    (hcalls : ∀ call ∈ calls, call.KeepsAccounts threshold) :
    AccountsCounted threshold (lockoutRun threshold calls) := by
  refine runFrom_invariant (AccountsCounted threshold)
    (fun _ call ↦ call.KeepsAccounts threshold) (fun traced call hcounted hcall ↦ ?_)
    (accountsCounted_start hthreshold) (everyStep_of_forall_mem hcalls)
  exact accountsCounted_step hthreshold hcounted call hcall

/-- Failed logins in a row that have reached the threshold are above it after every later run. -/
theorem failures_lockoutRun_append (hthreshold : threshold ≠ 0) {taken rest : List SecurityCall}
    {userId : UInt32} (hcalls : ∀ call ∈ taken ++ rest, call.KeepsAccounts threshold)
    (hfailures : threshold.toNat ≤ (lockoutRun threshold taken).2 userId) :
    threshold.toNat ≤ (lockoutRun threshold (taken ++ rest)).2 userId := by
  obtain ⟨htaken, hrest⟩ := List.forall_mem_append.mp hcalls
  have hboth : AccountsCounted threshold (lockoutRun threshold (taken ++ rest)) ∧
      threshold.toNat ≤ (lockoutRun threshold (taken ++ rest)).2 userId := by
    rw [lockoutRun, runFrom_append]
    refine runFrom_invariant
      (fun traced ↦ AccountsCounted threshold traced ∧ threshold.toNat ≤ traced.2 userId)
      (fun _ call ↦ call.KeepsAccounts threshold) (fun traced call hstate hcall ↦ ⟨?_, ?_⟩)
      ⟨accountsCounted_run hthreshold htaken, hfailures⟩ (everyStep_of_forall_mem hrest)
    · exact accountsCounted_step hthreshold hstate.1 call hcall
    · exact failures_stay hstate.1 hstate.2 call
  exact hboth.2

/-- In every run that deletes no user and keeps a threshold: once as many logins of a user in a row
have failed as the threshold says, every later login and access of the user is refused; and a user
of whom never so many have failed is never locked. -/
theorem lockout (threshold : UInt32) (hthreshold : threshold ≠ 0) (calls : List SecurityCall)
    (hcalls : ∀ call ∈ calls, call.KeepsAccounts threshold) (userId : UInt32) :
    (∀ taken later, taken <+: later → later <+: calls →
      threshold.toNat ≤ (lockoutRun threshold taken).2 userId →
      ∀ password objectId permission,
        (securityAuthenticateUser (lockoutRun threshold later).1 userId password).2 = -1 ∧
          (securityCheckAccess (lockoutRun threshold later).1 userId objectId permission).2 =
            -1) ∧
    ((∀ taken, taken <+: calls → (lockoutRun threshold taken).2 userId < threshold.toNat) →
      ∀ taken, taken <+: calls → ∀ user,
        securityGetUser (lockoutRun threshold taken).1 userId = some user →
          user.isActive = true) := by
  constructor
  · rintro taken _ ⟨rest, rfl⟩ hlater hfailures password objectId permission
    have hkept : ∀ call ∈ taken ++ rest, call.KeepsAccounts threshold :=
      fun call hcall ↦ hcalls call (hlater.subset hcall)
    exact refused_of_failures (accountsCounted_run hthreshold hkept)
      (failures_lockoutRun_append hthreshold hkept hfailures) password objectId permission
  · intro hbelow taken htaken user hfind
    have hcounted := accountsCounted_run hthreshold fun call hcall ↦
      hcalls call (htaken.subset hcall)
    have hactive := (hcounted.counted user (List.mem_of_find?_eq_some hfind)).1
    rw [userId_of_getUser hfind] at hactive
    exact hactive.mpr (hbelow taken htaken)

/-- Two wrong passwords lock a user under a threshold of 2, also for the right one. -/
theorem lockout_after_two :
    (securityAuthenticateUser (lockoutRun 2 [.createUser (ofChars ['a']) (ofChars ['p']),
      .authenticateUser 1 [], .authenticateUser 1 []]).1 1 (ofChars ['p'])).2 = -1 := by
  refine ((lockout 2 (by decide) [.createUser (ofChars ['a']) (ofChars ['p']),
    .authenticateUser 1 [], .authenticateUser 1 []] ?_ 1).1 _ _ (List.prefix_refl _)
      (List.prefix_refl _) ?_ (ofChars ['p']) 0 0).1
  · simp [SecurityCall.KeepsAccounts]
  · decide

end OneOS.Security
