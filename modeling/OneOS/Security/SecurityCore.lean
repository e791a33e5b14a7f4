import OneOS.Foundation.CStrings
import OneOS.Foundation.Table

/-!
# Users, policies and keys

`security/security_core.c`: users with a password and permission bits, policies with access rules,
and encryption keys. Users, rules and keys are numbered by the number of those that there are, and
are deleted by shifting the ones behind down.

Left out are the checks of pointers, the times that are only written, `is_admin`, the bytes of a
key, the name and the level of a policy and the audit log, which no modelled function reads.
-/

set_option autoImplicit false
set_option relaxedAutoImplicit false

namespace OneOS.Security

open Foundation

/-! ### The security core -/

/-- `MAX_USERS`. -/
def maxUsers : ℕ := 128

/-- `MAX_SECURITY_POLICIES`. -/
def maxSecurityPolicies : ℕ := 256

/-- `MAX_ACCESS_RULES`. -/
def maxAccessRules : ℕ := 1024

/-- `MAX_ENCRYPTION_KEYS`. -/
def maxEncryptionKeys : ℕ := 512

/-- `PERMISSION_READ`. -/
def permissionRead : UInt32 := 1

/-- `PERMISSION_WRITE`. -/
def permissionWrite : UInt32 := 2

/-- `RuleType`. -/
inductive RuleType
  | allow
  | deny
  | audit
  deriving DecidableEq, Repr

/-- `EncryptionMethod`. -/
inductive EncryptionMethod
  | aes128
  | aes256
  | sha256
  | rsa2048
  deriving DecidableEq, Repr

/-- `User`. -/
structure User where
  userId : UInt32
  username : CString
  passwordHash : CString
  permissions : UInt32
  isActive : Bool
  failedLoginAttempts : UInt32
  deriving DecidableEq, Repr

/-- `AccessRule`. -/
structure AccessRule where
  ruleId : UInt32
  subjectId : UInt32
  objectId : UInt32
  ruleType : RuleType
  permissions : UInt32
  isActive : Bool
  deriving DecidableEq, Repr

/-- `SecurityPolicy`, with the used rows of its rules as a list. -/
structure SecurityPolicy where
  policyId : UInt32
  rules : List AccessRule
  isEnabled : Bool
  deriving DecidableEq, Repr

/-- `EncryptionKey`. -/
structure EncryptionKey where
  keyId : UInt32
  method : EncryptionMethod
  keySize : UInt32
  isActive : Bool
  deriving DecidableEq, Repr

/-- `SecurityCore`, with the used rows of its tables as lists. -/
structure SecurityCore where
  users : List User
  policies : List SecurityPolicy
  keys : List EncryptionKey
  selinuxEnabled : Bool
  failedAccessThreshold : UInt32
  lockoutDurationSec : UInt32
  totalAccessDenied : UInt64
  totalAccessGranted : UInt64
  deriving DecidableEq, Repr

/-- `security_init`. -/
def securityInit : SecurityCore where
  users := []
  policies := []
  keys := []
  selinuxEnabled := false
  failedAccessThreshold := 5
  lockoutDurationSec := 900
  totalAccessDenied := 0
  totalAccessGranted := 0

/-! ### Users -/

/-- The id of the next user: the number of users plus one. -/
def SecurityCore.nextUserId (core : SecurityCore) : UInt32 :=
  UInt32.ofNat core.users.length + 1

/-- A username as it is stored. -/
def storedUsername (username : CString) : CString := username.take 63

/-- The user that `security_create_user` writes. -/
def SecurityCore.newUser (core : SecurityCore) (username password : CString) : User where
  userId := core.nextUserId
  username := storedUsername username
  passwordHash := password.take 127
  permissions := permissionRead ||| permissionWrite
  isActive := true
  failedLoginAttempts := 0

/-- `security_create_user`, returning the id or 0. The whole name is compared with the names that
are stored. -/
def securityCreateUser (core : SecurityCore) (username password : CString) :
    SecurityCore × UInt32 :=
  if maxUsers ≤ core.users.length then (core, 0)
  else if core.users.any fun user ↦ user.username = username then (core, 0)
  else ({ core with users := core.users ++ [core.newUser username password] }, core.nextUserId)

/-- `security_delete_user`. -/
def securityDeleteUser (core : SecurityCore) (userId : UInt32) : SecurityCore × Int :=
  if core.users.any fun user ↦ user.userId = userId then
    ({ core with users := core.users.eraseP fun user ↦ user.userId = userId }, 0)
  else (core, -1)

/-- `security_get_user`. -/
def securityGetUser (core : SecurityCore) (userId : UInt32) : Option User :=
  core.users.find? fun user ↦ user.userId = userId

/-- The users after the first one with an id is changed. -/
def SecurityCore.onUser (core : SecurityCore) (userId : UInt32) (change : User → User) :
    SecurityCore :=
  { core with users := updateFirst (fun user ↦ user.userId = userId) change core.users }

/-- What a login with a wrong password does to its user. -/
def User.failLogin (threshold : UInt32) (user : User) : User :=
  { user with
    failedLoginAttempts := user.failedLoginAttempts + 1
    isActive := user.isActive && decide (user.failedLoginAttempts + 1 < threshold) }

/-- What a login does to its user. -/
def User.login (user : User) : User :=
  { user with failedLoginAttempts := 0 }

/-- `security_authenticate_user`. -/
def securityAuthenticateUser (core : SecurityCore) (userId : UInt32) (password : CString) :
    SecurityCore × Int :=
  match securityGetUser core userId with
  | none => (core, -1)
  | some user =>
    if user.isActive = false then (core, -1)
    else if user.passwordHash ≠ password then
      (core.onUser userId (User.failLogin core.failedAccessThreshold), -1)
    else
      ({ core.onUser userId User.login with totalAccessGranted := core.totalAccessGranted + 1 }, 0)

/-- `security_set_user_permissions`. -/
def securitySetUserPermissions (core : SecurityCore) (userId permissions : UInt32) :
    SecurityCore × Int :=
  match securityGetUser core userId with
  | none => (core, -1)
  | some _ => (core.onUser userId ({ · with permissions := permissions }), 0)

/-! ### Policies -/

/-- `security_create_policy`, returning the id or 0. -/
def securityCreatePolicy (core : SecurityCore) : SecurityCore × UInt32 :=
  if maxSecurityPolicies ≤ core.policies.length then (core, 0)
  else
    let policyId := UInt32.ofNat core.policies.length + 1
    ({ core with
      policies := core.policies ++ [{ policyId := policyId, rules := [], isEnabled := true }] },
      policyId)

/-- `security_get_policy`. -/
def securityGetPolicy (core : SecurityCore) (policyId : UInt32) : Option SecurityPolicy :=
  core.policies.find? fun policy ↦ policy.policyId = policyId

/-- The policies after the first one with an id is changed. -/
def SecurityCore.onPolicy (core : SecurityCore) (policyId : UInt32)
    (change : SecurityPolicy → SecurityPolicy) : SecurityCore :=
  { core with
    policies := updateFirst (fun policy ↦ policy.policyId = policyId) change core.policies }

/-- The id of the next rule of a policy: the number of its rules plus one. -/
def SecurityPolicy.nextRuleId (policy : SecurityPolicy) : UInt32 :=
  UInt32.ofNat policy.rules.length + 1

/-- A policy with one more rule. -/
def SecurityPolicy.addRule (subjectId objectId : UInt32) (ruleType : RuleType)
    (permissions : UInt32) (policy : SecurityPolicy) : SecurityPolicy :=
  { policy with
    rules := policy.rules ++
      [{ ruleId := policy.nextRuleId
         subjectId := subjectId
         objectId := objectId
         ruleType := ruleType
         permissions := permissions
         isActive := true }] }

/-- `security_add_access_rule`. -/
def securityAddAccessRule (core : SecurityCore) (policyId subjectId objectId : UInt32)
    (ruleType : RuleType) (permissions : UInt32) : SecurityCore × Int :=
  match securityGetPolicy core policyId with
  | none => (core, -1)
  | some policy =>
    if maxAccessRules ≤ policy.rules.length then (core, -1)
    else
      (core.onPolicy policyId (SecurityPolicy.addRule subjectId objectId ruleType permissions), 0)

/-- A policy without the first rule with an id. -/
def SecurityPolicy.removeRule (ruleId : UInt32) (policy : SecurityPolicy) : SecurityPolicy :=
  { policy with rules := policy.rules.eraseP fun rule ↦ rule.ruleId = ruleId }

/-- `security_remove_access_rule`. -/
def securityRemoveAccessRule (core : SecurityCore) (policyId ruleId : UInt32) :
    SecurityCore × Int :=
  match securityGetPolicy core policyId with
  | none => (core, -1)
  | some policy =>
    if policy.rules.any fun rule ↦ rule.ruleId = ruleId then
      (core.onPolicy policyId (SecurityPolicy.removeRule ruleId), 0)
    else (core, -1)

/-- `security_enable_policy`. -/
def securityEnablePolicy (core : SecurityCore) (policyId : UInt32) (enable : Bool) :
    SecurityCore × Int :=
  match securityGetPolicy core policyId with
  | none => (core, -1)
  | some _ => (core.onPolicy policyId ({ · with isEnabled := enable }), 0)

/-- `security_check_access`. The object is an argument that is not read. -/
def securityCheckAccess (core : SecurityCore) (userId _objectId requiredPermission : UInt32) :
    SecurityCore × Int :=
  match securityGetUser core userId with
  | none => ({ core with totalAccessDenied := core.totalAccessDenied + 1 }, -1)
  | some user =>
    if user.isActive = false then
      ({ core with totalAccessDenied := core.totalAccessDenied + 1 }, -1)
    else if user.permissions &&& requiredPermission = 0 then
      ({ core with totalAccessDenied := core.totalAccessDenied + 1 }, -1)
    else ({ core with totalAccessGranted := core.totalAccessGranted + 1 }, 0)

/-! ### Keys and settings -/

/-- The id of the next key: the number of keys plus one. -/
def SecurityCore.nextKeyId (core : SecurityCore) : UInt32 :=
  UInt32.ofNat core.keys.length + 1

/-- `security_create_encryption_key`, returning the id or 0. -/
def securityCreateEncryptionKey (core : SecurityCore) (method : EncryptionMethod) (size : UInt32) :
    SecurityCore × UInt32 :=
  if maxEncryptionKeys ≤ core.keys.length then (core, 0)
  else if 256 < size then (core, 0)
  else
    ({ core with
      keys := core.keys ++
        [{ keyId := core.nextKeyId, method := method, keySize := size, isActive := true }] },
      core.nextKeyId)

/-- `security_delete_encryption_key`. -/
def securityDeleteEncryptionKey (core : SecurityCore) (keyId : UInt32) : SecurityCore × Int :=
  if core.keys.any fun key ↦ key.keyId = keyId then
    ({ core with keys := core.keys.eraseP fun key ↦ key.keyId = keyId }, 0)
  else (core, -1)

/-- `security_enable_selinux`. -/
def securityEnableSelinux (core : SecurityCore) (enable : Bool) : SecurityCore × Int :=
  ({ core with selinuxEnabled := enable }, 0)

/-- `security_set_failed_access_threshold`. -/
def securitySetFailedAccessThreshold (core : SecurityCore) (threshold : UInt32) :
    SecurityCore × Int :=
  if threshold = 0 then (core, -1)
  else ({ core with failedAccessThreshold := threshold }, 0)

/-- `security_set_lockout_duration`. -/
def securitySetLockoutDuration (core : SecurityCore) (seconds : UInt32) : SecurityCore × Int :=
  if seconds = 0 then (core, -1)
  else ({ core with lockoutDurationSec := seconds }, 0)

/-! ### Calls -/

/-- A call to the security core. -/
inductive SecurityCall
  | createUser (username password : CString)
  | deleteUser (userId : UInt32)
  | authenticateUser (userId : UInt32) (password : CString)
  | setUserPermissions (userId permissions : UInt32)
  | createPolicy
  | addAccessRule (policyId subjectId objectId : UInt32) (ruleType : RuleType)
    (permissions : UInt32)
  | removeAccessRule (policyId ruleId : UInt32)
  | enablePolicy (policyId : UInt32) (enable : Bool)
  | checkAccess (userId objectId requiredPermission : UInt32)
  | createEncryptionKey (method : EncryptionMethod) (size : UInt32)
  | deleteEncryptionKey (keyId : UInt32)
  | enableSelinux (enable : Bool)
  | setFailedAccessThreshold (threshold : UInt32)
  | setLockoutDuration (seconds : UInt32)
  deriving DecidableEq, Repr

/-- What a call does to the security core. -/
def securityStep (core : SecurityCore) : SecurityCall → SecurityCore
  | .createUser username password => (securityCreateUser core username password).1
  | .deleteUser userId => (securityDeleteUser core userId).1
  | .authenticateUser userId password => (securityAuthenticateUser core userId password).1
  | .setUserPermissions userId permissions =>
    (securitySetUserPermissions core userId permissions).1
  | .createPolicy => (securityCreatePolicy core).1
  | .addAccessRule policyId subjectId objectId ruleType permissions =>
    (securityAddAccessRule core policyId subjectId objectId ruleType permissions).1
  | .removeAccessRule policyId ruleId => (securityRemoveAccessRule core policyId ruleId).1
  | .enablePolicy policyId enable => (securityEnablePolicy core policyId enable).1
  | .checkAccess userId objectId requiredPermission =>
    (securityCheckAccess core userId objectId requiredPermission).1
  | .createEncryptionKey method size => (securityCreateEncryptionKey core method size).1
  | .deleteEncryptionKey keyId => (securityDeleteEncryptionKey core keyId).1
  | .enableSelinux enable => (securityEnableSelinux core enable).1
  | .setFailedAccessThreshold threshold => (securitySetFailedAccessThreshold core threshold).1
  | .setLockoutDuration seconds => (securitySetLockoutDuration core seconds).1

/-! ### What calls leave alone -/

/-- A call that may change users or the threshold for failed logins. -/
def SecurityCall.ChangesAccounts : SecurityCall → Prop
  | .createUser _ _ => True
  | .deleteUser _ => True
  | .authenticateUser _ _ => True
  | .setUserPermissions _ _ => True
  | .setFailedAccessThreshold _ => True
  | _ => False

/-- A call that may change policies. -/
def SecurityCall.ChangesPolicies : SecurityCall → Prop
  | .createPolicy => True
  | .addAccessRule _ _ _ _ _ => True
  | .removeAccessRule _ _ => True
  | .enablePolicy _ _ => True
  | _ => False

/-- The other calls leave the users and the threshold as they are. -/
theorem accounts_securityStep {core : SecurityCore} {call : SecurityCall}
    (hother : ¬ call.ChangesAccounts) :
    (securityStep core call).users = core.users ∧
      (securityStep core call).failedAccessThreshold = core.failedAccessThreshold := by
  cases call with
  | createUser username password => exact absurd trivial hother
  | deleteUser userId => exact absurd trivial hother
  | authenticateUser userId password => exact absurd trivial hother
  | setUserPermissions userId permissions => exact absurd trivial hother
  | setFailedAccessThreshold threshold => exact absurd trivial hother
  | createPolicy =>
    rw [securityStep, securityCreatePolicy]
    split_ifs <;> exact ⟨rfl, rfl⟩
  | addAccessRule policyId subjectId objectId ruleType permissions =>
    rw [securityStep, securityAddAccessRule]
    cases securityGetPolicy core policyId with
    | none => exact ⟨rfl, rfl⟩
    | some policy =>
      dsimp only
      split_ifs <;> exact ⟨rfl, rfl⟩
  | removeAccessRule policyId ruleId =>
    rw [securityStep, securityRemoveAccessRule]
    cases securityGetPolicy core policyId with
    | none => exact ⟨rfl, rfl⟩
    | some policy =>
      dsimp only
      split_ifs <;> exact ⟨rfl, rfl⟩
  | enablePolicy policyId enable =>
    rw [securityStep, securityEnablePolicy]
    cases securityGetPolicy core policyId <;> exact ⟨rfl, rfl⟩
  | checkAccess userId objectId requiredPermission =>
    rw [securityStep, securityCheckAccess]
    cases securityGetUser core userId with
    | none => exact ⟨rfl, rfl⟩
    | some user =>
      dsimp only
      split_ifs <;> exact ⟨rfl, rfl⟩
  | createEncryptionKey method size =>
    rw [securityStep, securityCreateEncryptionKey]
    split_ifs <;> exact ⟨rfl, rfl⟩
  | deleteEncryptionKey keyId =>
    rw [securityStep, securityDeleteEncryptionKey]
    split_ifs <;> exact ⟨rfl, rfl⟩
  | enableSelinux enable => exact ⟨rfl, rfl⟩
  | setLockoutDuration seconds =>
    rw [securityStep, securitySetLockoutDuration]
    split_ifs <;> exact ⟨rfl, rfl⟩

/-- The other calls leave the policies as they are. -/
theorem policies_securityStep {core : SecurityCore} {call : SecurityCall}
    (hother : ¬ call.ChangesPolicies) : (securityStep core call).policies = core.policies := by
  cases call with
  | createPolicy => exact absurd trivial hother
  | addAccessRule policyId subjectId objectId ruleType permissions => exact absurd trivial hother
  | removeAccessRule policyId ruleId => exact absurd trivial hother
  | enablePolicy policyId enable => exact absurd trivial hother
  | createUser username password =>
    rw [securityStep, securityCreateUser]
    split_ifs <;> rfl
  | deleteUser userId =>
    rw [securityStep, securityDeleteUser]
    split_ifs <;> rfl
  | authenticateUser userId password =>
    rw [securityStep, securityAuthenticateUser]
    cases securityGetUser core userId with
    | none => rfl
    | some user =>
      dsimp only
      split_ifs <;> rfl
  | setUserPermissions userId permissions =>
    rw [securityStep, securitySetUserPermissions]
    cases securityGetUser core userId <;> rfl
  | checkAccess userId objectId requiredPermission =>
    rw [securityStep, securityCheckAccess]
    cases securityGetUser core userId with
    | none => rfl
    | some user =>
      dsimp only
      split_ifs <;> rfl
  | createEncryptionKey method size =>
    rw [securityStep, securityCreateEncryptionKey]
    split_ifs <;> rfl
  | deleteEncryptionKey keyId =>
    rw [securityStep, securityDeleteEncryptionKey]
    split_ifs <;> rfl
  | enableSelinux enable => rfl
  | setFailedAccessThreshold threshold =>
    rw [securityStep, securitySetFailedAccessThreshold]
    split_ifs <;> rfl
  | setLockoutDuration seconds =>
    rw [securityStep, securitySetLockoutDuration]
    split_ifs <;> rfl

end OneOS.Security
