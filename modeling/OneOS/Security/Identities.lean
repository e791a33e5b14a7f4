import OneOS.Foundation.RowRecords
import OneOS.Foundation.Runs
import OneOS.Security.SecurityCore

/-!
# Identities of users, rules and keys

Callers name users, rules and keys by ids, and rely on it that no two users have one id or one
name, no two rules of a policy one id and no two keys one id; then a call by id acts on the object
that is meant and on no other.

The id of a new object is the number of objects plus one, and deletion lowers that number. A name is
compared as it is given and stored cut off. `identitiesUnique_iff` says exactly which runs keep
identities unique: those in which every new object gets an id, and every new user a stored name,
that is not in use.
-/

set_option autoImplicit false
set_option relaxedAutoImplicit false

namespace OneOS.Security

open Foundation

/-! ### Unique identities -/

/-- No two users share an id or a name, no two rules of a policy share an id, and no two keys share
an id. -/
structure IdentitiesUnique (core : SecurityCore) : Prop where
  userIds : (core.users.map User.userId).Nodup
  usernames : (core.users.map User.username).Nodup
  ruleIds : ∀ policy ∈ core.policies, (policy.rules.map AccessRule.ruleId).Nodup
  keyIds : (core.keys.map EncryptionKey.keyId).Nodup

/-- A call by id acts on the object with that id and on no other. -/
structure ActsOnIntended (core : SecurityCore) : Prop where
  deleteUser : ∀ userId, (securityDeleteUser core userId).1.users =
    core.users.filter fun user ↦ user.userId ≠ userId
  setUserPermissions : ∀ userId permissions,
    (securitySetUserPermissions core userId permissions).1.users =
      core.users.map fun user ↦
        if user.userId = userId then { user with permissions := permissions } else user
  removeAccessRule : ∀ policyId ruleId,
    (securityRemoveAccessRule core policyId ruleId).1.policies =
      core.policies.map fun policy ↦
        if policy.policyId = policyId then
          { policy with rules := policy.rules.filter fun rule ↦ rule.ruleId ≠ ruleId }
        else policy
  deleteEncryptionKey : ∀ keyId, (securityDeleteEncryptionKey core keyId).1.keys =
    core.keys.filter fun key ↦ key.keyId ≠ keyId

/-- The condition on a call. Where it creates something, no object of its kind has the number of
those objects plus one as its id, and where it creates a user, no user has the first 63 bytes of the
name as its name. -/
def SecurityCall.Fresh (core : SecurityCore) : SecurityCall → Prop
  | .createUser username _ =>
    core.users.length < maxUsers → (∀ user ∈ core.users, user.username ≠ username) →
      ∀ user ∈ core.users,
        user.userId ≠ UInt32.ofNat core.users.length + 1 ∧ user.username ≠ username.take 63
  | .addAccessRule policyId _ _ _ _ =>
    ∀ policy, securityGetPolicy core policyId = some policy →
      policy.rules.length < maxAccessRules →
        ∀ rule ∈ policy.rules, rule.ruleId ≠ UInt32.ofNat policy.rules.length + 1
  | .createEncryptionKey _ size =>
    core.keys.length < maxEncryptionKeys → size ≤ 256 →
      ∀ key ∈ core.keys, key.keyId ≠ UInt32.ofNat core.keys.length + 1
  | _ => True

variable {core : SecurityCore}

/-! ### What one call does -/

/-- A core with the same ids, names, rules and keys. -/
theorem IdentitiesUnique.congr {after : SecurityCore} (hunique : IdentitiesUnique core)
    (hids : after.users.map User.userId = core.users.map User.userId)
    (hnames : after.users.map User.username = core.users.map User.username)
    (hrules : after.policies.map SecurityPolicy.rules = core.policies.map SecurityPolicy.rules)
    (hkeys : after.keys = core.keys) : IdentitiesUnique after := by
  refine ⟨hids ▸ hunique.userIds, hnames ▸ hunique.usernames, ?_, hkeys ▸ hunique.keyIds⟩
  have hall : ∀ rules ∈ core.policies.map SecurityPolicy.rules,
      (rules.map AccessRule.ruleId).Nodup := List.forall_mem_map.mpr hunique.ruleIds
  rw [← hrules] at hall
  exact fun policy hpolicy ↦ hall policy.rules (List.mem_map_of_mem hpolicy)

section Calls

variable (hunique : IdentitiesUnique core)
include hunique

theorem identitiesUnique_onUser (userId : UInt32) (change : User → User)
    (hid : ∀ user, (change user).userId = user.userId)
    (hname : ∀ user, (change user).username = user.username) :
    IdentitiesUnique (core.onUser userId change) :=
  hunique.congr (map_updateFirst fun user _ ↦ hid user) (map_updateFirst fun user _ ↦ hname user)
    rfl rfl

theorem identitiesUnique_createUser_iff (username password : CString) :
    IdentitiesUnique (securityCreateUser core username password).1 ↔
      (SecurityCall.createUser username password).Fresh core := by
  rw [securityCreateUser, SecurityCall.Fresh]
  by_cases hfull : maxUsers ≤ core.users.length
  · rw [if_pos hfull]
    exact iff_of_true hunique fun hroom ↦ absurd hfull (Nat.not_le.mpr hroom)
  by_cases htaken : (core.users.any fun user ↦ user.username = username) = true
  · rw [if_neg hfull, if_pos htaken]
    obtain ⟨user, huser, hname⟩ := List.any_eq_true.mp htaken
    exact iff_of_true hunique fun _ hnone ↦ absurd (of_decide_eq_true hname) (hnone user huser)
  rw [if_neg hfull, if_neg htaken, forall_prop_of_true (Nat.not_le.mp hfull), forall_prop_of_true]
  · constructor
    · rintro ⟨hids, hnames, -, -⟩ user huser
      exact ⟨(nodup_map_concat_iff hunique.userIds).mp hids user huser,
        (nodup_map_concat_iff hunique.usernames).mp hnames user huser⟩
    · intro hfresh
      refine ⟨?_, ?_, hunique.ruleIds, hunique.keyIds⟩
      · exact (nodup_map_concat_iff hunique.userIds).mpr fun user huser ↦ (hfresh user huser).1
      · exact (nodup_map_concat_iff hunique.usernames).mpr fun user huser ↦ (hfresh user huser).2
  · simpa using htaken

theorem identitiesUnique_deleteUser (userId : UInt32) :
    IdentitiesUnique (securityDeleteUser core userId).1 := by
  rw [securityDeleteUser]
  split_ifs
  · exact ⟨nodup_map_eraseP hunique.userIds, nodup_map_eraseP hunique.usernames, hunique.ruleIds,
      hunique.keyIds⟩
  · exact hunique

theorem identitiesUnique_authenticateUser (userId : UInt32) (password : CString) :
    IdentitiesUnique (securityAuthenticateUser core userId password).1 := by
  rw [securityAuthenticateUser]
  cases securityGetUser core userId with
  | none => exact hunique
  | some user =>
    dsimp only
    split_ifs
    · exact hunique
    · exact identitiesUnique_onUser hunique userId _ (fun _ ↦ rfl) fun _ ↦ rfl
    · exact (identitiesUnique_onUser hunique userId User.login (fun _ ↦ rfl) fun _ ↦ rfl).congr
        rfl rfl rfl rfl

theorem identitiesUnique_setUserPermissions (userId permissions : UInt32) :
    IdentitiesUnique (securitySetUserPermissions core userId permissions).1 := by
  rw [securitySetUserPermissions]
  cases securityGetUser core userId with
  | none => exact hunique
  | some user => exact identitiesUnique_onUser hunique userId _ (fun _ ↦ rfl) fun _ ↦ rfl

theorem identitiesUnique_createPolicy : IdentitiesUnique (securityCreatePolicy core).1 := by
  rw [securityCreatePolicy]
  split_ifs
  · exact hunique
  · refine ⟨hunique.userIds, hunique.usernames, ?_, hunique.keyIds⟩
    refine List.forall_mem_append.mpr ⟨hunique.ruleIds, ?_⟩
    exact List.forall_mem_singleton.mpr List.nodup_nil

/-- Assumes: unique identities. They are unique after a policy is changed exactly when the rules of
the changed policy have distinct ids. -/
theorem identitiesUnique_onPolicy_iff (policyId : UInt32)
    (change : SecurityPolicy → SecurityPolicy) :
    IdentitiesUnique (core.onPolicy policyId change) ↔
      ∀ policy, securityGetPolicy core policyId = some policy →
        ((change policy).rules.map AccessRule.ruleId).Nodup := by
  have hpolicies : (∀ policy ∈ (core.onPolicy policyId change).policies,
      (policy.rules.map AccessRule.ruleId).Nodup) ↔ _ :=
    forall_mem_updateFirst_iff hunique.ruleIds
  constructor
  · intro hafter
    exact hpolicies.mp hafter.ruleIds
  · intro hchanged
    exact ⟨hunique.userIds, hunique.usernames, hpolicies.mpr hchanged, hunique.keyIds⟩

theorem identitiesUnique_addAccessRule_iff (policyId subjectId objectId : UInt32)
    (ruleType : RuleType) (permissions : UInt32) :
    IdentitiesUnique
        (securityAddAccessRule core policyId subjectId objectId ruleType permissions).1 ↔
      (SecurityCall.addAccessRule policyId subjectId objectId ruleType permissions).Fresh core := by
  rw [securityAddAccessRule, SecurityCall.Fresh]
  cases hpolicy : securityGetPolicy core policyId with
  | none => exact iff_of_true hunique fun _ hnone ↦ absurd hnone (Option.some_ne_none _).symm
  | some policy =>
    have hrules := hunique.ruleIds policy (List.mem_of_find?_eq_some hpolicy)
    dsimp only
    split_ifs with hfull
    · refine iff_of_true hunique fun other hother hroom ↦ ?_
      rw [Option.some.injEq] at hother
      exact absurd (hother ▸ hroom) (Nat.not_lt.mpr hfull)
    · rw [identitiesUnique_onPolicy_iff hunique, hpolicy]
      constructor
      · rintro hafter other hother -
        rw [← Option.some.inj hother]
        exact (nodup_map_concat_iff hrules).mp (hafter policy rfl)
      · intro hfresh other hother
        rw [← Option.some.inj hother]
        exact (nodup_map_concat_iff hrules).mpr (hfresh policy rfl (Nat.not_le.mp hfull))

theorem identitiesUnique_removeAccessRule (policyId ruleId : UInt32) :
    IdentitiesUnique (securityRemoveAccessRule core policyId ruleId).1 := by
  rw [securityRemoveAccessRule]
  cases securityGetPolicy core policyId with
  | none => exact hunique
  | some policy =>
    dsimp only
    split_ifs
    · refine (identitiesUnique_onPolicy_iff hunique policyId _).mpr fun policy hpolicy ↦ ?_
      exact nodup_map_eraseP (hunique.ruleIds policy (List.mem_of_find?_eq_some hpolicy))
    · exact hunique

theorem identitiesUnique_enablePolicy (policyId : UInt32) (enable : Bool) :
    IdentitiesUnique (securityEnablePolicy core policyId enable).1 := by
  rw [securityEnablePolicy]
  cases securityGetPolicy core policyId with
  | none => exact hunique
  | some policy =>
    refine (identitiesUnique_onPolicy_iff hunique policyId _).mpr fun policy hpolicy ↦ ?_
    exact hunique.ruleIds policy (List.mem_of_find?_eq_some hpolicy)

theorem identitiesUnique_checkAccess (userId objectId requiredPermission : UInt32) :
    IdentitiesUnique (securityCheckAccess core userId objectId requiredPermission).1 := by
  rw [securityCheckAccess]
  cases securityGetUser core userId with
  | none => exact hunique.congr rfl rfl rfl rfl
  | some user =>
    dsimp only
    split_ifs <;> exact hunique.congr rfl rfl rfl rfl

theorem identitiesUnique_createEncryptionKey_iff (method : EncryptionMethod) (size : UInt32) :
    IdentitiesUnique (securityCreateEncryptionKey core method size).1 ↔
      (SecurityCall.createEncryptionKey method size).Fresh core := by
  rw [securityCreateEncryptionKey, SecurityCall.Fresh]
  split_ifs with hfull hlarge
  · exact iff_of_true hunique fun hroom ↦ absurd hfull (Nat.not_le.mpr hroom)
  · exact iff_of_true hunique fun _ hsize ↦ absurd hlarge (UInt32.not_lt.mpr hsize)
  · rw [forall_prop_of_true (Nat.not_le.mp hfull), forall_prop_of_true (UInt32.not_lt.mp hlarge)]
    constructor
    · intro hafter
      exact (nodup_map_concat_iff hunique.keyIds).mp hafter.keyIds
    · intro hfresh
      exact ⟨hunique.userIds, hunique.usernames, hunique.ruleIds,
        (nodup_map_concat_iff hunique.keyIds).mpr hfresh⟩

theorem identitiesUnique_deleteEncryptionKey (keyId : UInt32) :
    IdentitiesUnique (securityDeleteEncryptionKey core keyId).1 := by
  rw [securityDeleteEncryptionKey]
  split_ifs
  · exact ⟨hunique.userIds, hunique.usernames, hunique.ruleIds, nodup_map_eraseP hunique.keyIds⟩
  · exact hunique

end Calls

/-- From a core with unique identities, a call leads to one exactly when it meets the condition. -/
theorem identitiesUnique_step_iff (hunique : IdentitiesUnique core) (call : SecurityCall) :
    IdentitiesUnique (securityStep core call) ↔ call.Fresh core := by
  cases call with
  | createUser username password => exact identitiesUnique_createUser_iff hunique username password
  | deleteUser userId => exact iff_of_true (identitiesUnique_deleteUser hunique userId) trivial
  | authenticateUser userId password =>
    exact iff_of_true (identitiesUnique_authenticateUser hunique userId password) trivial
  | setUserPermissions userId permissions =>
    exact iff_of_true (identitiesUnique_setUserPermissions hunique userId permissions) trivial
  | createPolicy => exact iff_of_true (identitiesUnique_createPolicy hunique) trivial
  | addAccessRule policyId subjectId objectId ruleType permissions =>
    exact identitiesUnique_addAccessRule_iff hunique policyId subjectId objectId ruleType
      permissions
  | removeAccessRule policyId ruleId =>
    exact iff_of_true (identitiesUnique_removeAccessRule hunique policyId ruleId) trivial
  | enablePolicy policyId enable =>
    exact iff_of_true (identitiesUnique_enablePolicy hunique policyId enable) trivial
  | checkAccess userId objectId requiredPermission =>
    exact iff_of_true
      (identitiesUnique_checkAccess hunique userId objectId requiredPermission) trivial
  | createEncryptionKey method size =>
    exact identitiesUnique_createEncryptionKey_iff hunique method size
  | deleteEncryptionKey keyId =>
    exact iff_of_true (identitiesUnique_deleteEncryptionKey hunique keyId) trivial
  | enableSelinux enable => exact iff_of_true (hunique.congr rfl rfl rfl rfl) trivial
  | setFailedAccessThreshold threshold =>
    refine iff_of_true ?_ trivial
    rw [securityStep, securitySetFailedAccessThreshold]
    split_ifs <;> exact hunique.congr rfl rfl rfl rfl
  | setLockoutDuration seconds =>
    refine iff_of_true ?_ trivial
    rw [securityStep, securitySetLockoutDuration]
    split_ifs <;> exact hunique.congr rfl rfl rfl rfl

/-! ### The objects that are meant -/

/-- The policies are numbered from 1 on, and there are at most as many as the table holds. -/
structure PoliciesNumbered (core : SecurityCore) : Prop where
  numbered : NumberedFrom 1 SecurityPolicy.policyId core.policies
  bounded : core.policies.length ≤ maxSecurityPolicies

theorem PoliciesNumbered.onPolicy (hpolicies : PoliciesNumbered core) (policyId : UInt32)
    (change : SecurityPolicy → SecurityPolicy)
    (hkeep : ∀ policy, (change policy).policyId = policy.policyId) :
    PoliciesNumbered (core.onPolicy policyId change) := by
  refine ⟨hpolicies.numbered.updateFirst hkeep, ?_⟩
  rw [SecurityCore.onPolicy, updateFirst, List.length_modify]
  exact hpolicies.bounded

theorem policiesNumbered_step (hpolicies : PoliciesNumbered core) (call : SecurityCall) :
    PoliciesNumbered (securityStep core call) := by
  have hsame : ¬ call.ChangesPolicies → PoliciesNumbered (securityStep core call) := by
    intro hother
    have hafter : (securityStep core call).policies = core.policies :=
      policies_securityStep hother
    exact ⟨hafter.symm ▸ hpolicies.numbered, hafter.symm ▸ hpolicies.bounded⟩
  cases call with
  | createPolicy =>
    rw [securityStep, securityCreatePolicy]
    split_ifs with hfull
    · exact hpolicies
    · refine ⟨hpolicies.numbered.concat rfl, ?_⟩
      rw [List.length_append]
      exact Nat.not_le.mp hfull
  | addAccessRule policyId subjectId objectId ruleType permissions =>
    rw [securityStep, securityAddAccessRule]
    cases securityGetPolicy core policyId with
    | none => exact hpolicies
    | some policy =>
      dsimp only
      split_ifs
      · exact hpolicies
      · exact hpolicies.onPolicy policyId _ fun _ ↦ rfl
  | removeAccessRule policyId ruleId =>
    rw [securityStep, securityRemoveAccessRule]
    cases securityGetPolicy core policyId with
    | none => exact hpolicies
    | some policy =>
      dsimp only
      split_ifs
      · exact hpolicies.onPolicy policyId _ fun _ ↦ rfl
      · exact hpolicies
  | enablePolicy policyId enable =>
    rw [securityStep, securityEnablePolicy]
    cases securityGetPolicy core policyId with
    | none => exact hpolicies
    | some policy => exact hpolicies.onPolicy policyId _ fun _ ↦ rfl
  | _ => exact hsame not_false

section Intended

variable (hunique : IdentitiesUnique core)
include hunique

theorem deleteUser_eq_filter (userId : UInt32) :
    (securityDeleteUser core userId).1.users =
      core.users.filter fun user ↦ user.userId ≠ userId := by
  rw [← eraseP_key_eq_filter hunique.userIds, securityDeleteUser]
  split_ifs with hany
  · rfl
  · refine (List.eraseP_of_forall_not ?_).symm
    simpa using hany

theorem setUserPermissions_eq_map (userId permissions : UInt32) :
    (securitySetUserPermissions core userId permissions).1.users =
      core.users.map fun user ↦
        if user.userId = userId then { user with permissions := permissions } else user := by
  rw [← updateFirst_key_eq_map hunique.userIds, securitySetUserPermissions]
  cases huser : securityGetUser core userId with
  | none => exact (updateFirst_of_find?_eq_none huser).symm
  | some user => rfl

theorem removeAccessRule_eq_map (hpolicies : PoliciesNumbered core) (policyId ruleId : UInt32) :
    (securityRemoveAccessRule core policyId ruleId).1.policies =
      core.policies.map fun policy ↦
        if policy.policyId = policyId then
          { policy with rules := policy.rules.filter fun rule ↦ rule.ruleId ≠ ruleId }
        else policy := by
  have hdistinct : (core.policies.map SecurityPolicy.policyId).Nodup :=
    hpolicies.numbered.nodup (Nat.lt_of_le_of_lt hpolicies.bounded (by decide))
  have hremoved : (securityRemoveAccessRule core policyId ruleId).1.policies =
      updateFirst (fun policy ↦ policy.policyId = policyId) (SecurityPolicy.removeRule ruleId)
        core.policies := by
    rw [securityRemoveAccessRule]
    cases hpolicy : securityGetPolicy core policyId with
    | none => exact (updateFirst_of_find?_eq_none hpolicy).symm
    | some policy =>
      dsimp only
      split_ifs with hany
      · rfl
      · refine (updateFirst_eq_self hpolicy ?_).symm
        rw [SecurityPolicy.removeRule, List.eraseP_of_forall_not]
        simpa using hany
  rw [hremoved, updateFirst_key_eq_map hdistinct]
  refine List.map_congr_left fun policy hpolicy ↦ ?_
  rw [SecurityPolicy.removeRule, eraseP_key_eq_filter (hunique.ruleIds policy hpolicy)]

theorem deleteEncryptionKey_eq_filter (keyId : UInt32) :
    (securityDeleteEncryptionKey core keyId).1.keys =
      core.keys.filter fun key ↦ key.keyId ≠ keyId := by
  rw [← eraseP_key_eq_filter hunique.keyIds, securityDeleteEncryptionKey]
  split_ifs with hany
  · rfl
  · refine (List.eraseP_of_forall_not ?_).symm
    simpa using hany

theorem actsOnIntended_of_unique (hpolicies : PoliciesNumbered core) : ActsOnIntended core where
  deleteUser := deleteUser_eq_filter hunique
  setUserPermissions := setUserPermissions_eq_map hunique
  removeAccessRule := removeAccessRule_eq_map hunique hpolicies
  deleteEncryptionKey := deleteEncryptionKey_eq_filter hunique

end Intended

/-! ### Every run -/

/-- In every run, identities are unique in every state, and calls by id act on what is meant,
exactly when every object that is created gets an id, and every user a stored name, that is not in
use. -/
theorem identitiesUnique_iff (calls : List SecurityCall) :
    AlongRun securityStep (fun core ↦ IdentitiesUnique core ∧ ActsOnIntended core) securityInit
        calls ↔
      EveryStep securityStep (fun core call ↦ call.Fresh core) securityInit calls := by
  refine alongRun_iff_everyStep PoliciesNumbered (fun _ _ ↦ True)
    (fun _ call hpolicies _ ↦ policiesNumbered_step hpolicies call) ?_ ⟨rfl, Nat.zero_le _⟩ ?_
    fun _ _ _ ↦ trivial
  · rintro core call hpolicies - ⟨hunique, -⟩
    refine Iff.trans ⟨And.left, fun hafter ↦ ⟨hafter, ?_⟩⟩ (identitiesUnique_step_iff hunique call)
    exact actsOnIntended_of_unique hafter (policiesNumbered_step hpolicies call)
  · have hunique : IdentitiesUnique securityInit :=
      ⟨List.nodup_nil, List.nodup_nil, List.forall_mem_nil _, List.nodup_nil⟩
    exact ⟨hunique, actsOnIntended_of_unique hunique ⟨rfl, Nat.zero_le _⟩⟩

/-- Two users are created and the first is deleted. The next user gets the id of the second. -/
theorem user_id_given_to_two_users :
    ¬ AlongRun securityStep (fun core ↦ IdentitiesUnique core ∧ ActsOnIntended core) securityInit
      [.createUser (ofChars ['a']) [], .createUser (ofChars ['b']) [], .deleteUser 1,
        .createUser (ofChars ['c']) []] := by
  intro halong
  have hids := (halong _ (List.prefix_refl _)).1.userIds
  exact absurd hids (by decide)

end OneOS.Security
