import OneOS.Auth.AuthManager
import OneOS.Foundation.RowRecords
import OneOS.Foundation.Runs
import OneOS.Foundation.Severed

/-!
# Revoked roles and removed permissions

A role that was revoked from a user is to contribute nothing to what the user may do, until it is
assigned again, and a role from which a permission was removed is to grant it to nobody, until it is
added again. What was revoked and removed is recorded over a run (`withdrawnAfter`).

The lists of roles and of permissions may repeat an entry, and what is revoked or removed is its
first occurrence. `withdrawalsHold_iff` says exactly in which runs withdrawals take effect: what is
withdrawn is listed once, or could not be used anyway, and then stays unusable.
-/

set_option autoImplicit false
set_option relaxedAutoImplicit false

namespace OneOS.Auth

open Foundation

/-! ### Withdrawals -/

/-- The user with an id lists a role. -/
def Lists (manager : AuthManager) (userId roleId : UInt32) : Prop :=
  userId ≠ 0 ∧ ∃ user, manager.getUser userId = some user ∧ roleId ∈ user.roleIds

/-- A role with an id has a permission. -/
def Grants (manager : AuthManager) (roleId permission : UInt32) : Prop :=
  ∃ role ∈ manager.roles, role.roleId = roleId ∧ permission ∈ role.permissions

/-- The role contributes the permission to what the user may do. -/
def Contributes (manager : AuthManager) (userId roleId permission : UInt32) : Prop :=
  Lists manager userId roleId ∧ Grants manager roleId permission

/-- A permission is granted exactly when some role contributes it. -/
theorem authCheckPermission_eq_zero_iff (manager : AuthManager) (userId permission : UInt32) :
    authCheckPermission manager userId permission = 0 ↔
      ∃ roleId, Contributes manager userId roleId permission := by
  rw [authCheckPermission]
  by_cases hid : userId = 0
  · rw [if_pos hid]
    refine iff_of_false (by decide) ?_
    rintro ⟨roleId, ⟨hnonzero, -⟩, -⟩
    exact hnonzero hid
  rw [if_neg hid]
  cases hfind : manager.getUser userId with
  | none =>
    dsimp only
    refine iff_of_false (by decide) ?_
    rintro ⟨roleId, ⟨-, user, hsome, -⟩, -⟩
    exact absurd (hfind.symm.trans hsome) (Option.some_ne_none user).symm
  | some user =>
    have hloops : (user.roleIds.any fun roleId ↦ manager.roles.any fun role ↦
        role.roleId = roleId && role.permissions.contains permission) = true ↔
        ∃ roleId, Contributes manager userId roleId permission := by
      simp [Contributes, Lists, Grants, hfind, hid]
    rw [← hloops]
    dsimp only
    split_ifs with hany
    · exact iff_of_true rfl hany
    · exact iff_of_false (by decide) hany

/-- What was revoked and removed and not given back: pairs of a user and a role, and pairs of a role
and a permission. -/
structure Withdrawals where
  revoked : List (UInt32 × UInt32)
  removed : List (UInt32 × UInt32)
  deriving DecidableEq, Repr

/-- The withdrawals after a call. -/
def withdrawnAfter (manager : AuthManager) (call : AuthCall) (withdrawn : Withdrawals) :
    Withdrawals :=
  match call with
  | .userAssignRole userId roleId =>
    if (userAssignRole manager userId roleId).2 = 0 then
      { withdrawn with revoked := withdrawn.revoked.filter (· ≠ (userId, roleId)) }
    else withdrawn
  | .userRevokeRole userId roleId =>
    if (userRevokeRole manager userId roleId).2 = 0 then
      { withdrawn with revoked := (userId, roleId) :: withdrawn.revoked }
    else withdrawn
  | .roleAddPermission roleId permission =>
    if (roleAddPermission manager roleId permission).2 = 0 then
      { withdrawn with removed := withdrawn.removed.filter (· ≠ (roleId, permission)) }
    else withdrawn
  | .roleRemovePermission roleId permission =>
    if (roleRemovePermission manager roleId permission).2 = 0 then
      { withdrawn with removed := (roleId, permission) :: withdrawn.removed }
    else withdrawn
  | _ => withdrawn

/-- A role that was revoked from a user contributes nothing to it, and a role from which a
permission was removed contributes it to no user. -/
structure WithdrawalsHold (traced : AuthManager × Withdrawals) : Prop where
  revoked : ∀ userId roleId, (userId, roleId) ∈ traced.2.revoked →
    ∀ permission, ¬ Contributes traced.1 userId roleId permission
  removed : ∀ roleId permission, (roleId, permission) ∈ traced.2.removed →
    ∀ userId, ¬ Contributes traced.1 userId roleId permission

/-- The condition on a call. A role that is revoked is listed once by the user, or has no
permission; a permission that is removed is listed once by the role, or no user lists the role. No
permission is added to a role that a user still lists from whom it was revoked, and no role is
assigned that still has a permission that was removed from it. When a user is deleted, the next user
with the same id lists nothing that was withdrawn. -/
def AuthCall.KeepsWithdrawn (traced : AuthManager × Withdrawals) : AuthCall → Prop
  | .userRevokeRole userId roleId =>
    userId ≠ 0 → roleId ≠ 0 → ∀ user, traced.1.getUser userId = some user →
      user.roleIds.count roleId ≤ 1 ∨ ∀ permission, ¬ Grants traced.1 roleId permission
  | .roleRemovePermission roleId permission =>
    roleId ≠ 0 → ∀ role ∈ traced.1.roles, role.roleId = roleId →
      role.permissions.count permission ≤ 1 ∨ ∀ userId, ¬ Lists traced.1 userId roleId
  | .userAssignRole userId roleId =>
    userId ≠ 0 → roleId ≠ 0 →
      ∀ user, traced.1.getUser userId = some user → user.roleIds.length < 64 →
        ∀ permission, (roleId, permission) ∈ traced.2.removed → ¬ Grants traced.1 roleId permission
  | .roleAddPermission roleId _ =>
    roleId ≠ 0 → ∀ role ∈ traced.1.roles, role.roleId = roleId →
      role.permissions.length < maxPermissionsPerRole →
        ∀ userId, (userId, roleId) ∈ traced.2.revoked → ¬ Lists traced.1 userId roleId
  | .userDelete userId =>
    userId ≠ 0 → ∀ user,
      (traced.1.users.eraseP fun user ↦ user.userId = userId).find?
          (fun user ↦ user.userId = userId) = some user →
        ∀ roleId ∈ user.roleIds, ∀ permission, Grants traced.1 roleId permission →
          (userId, roleId) ∉ traced.2.revoked ∧ (roleId, permission) ∉ traced.2.removed
  | _ => True

variable {manager after : AuthManager} {withdrawn : Withdrawals} {first : UInt32}

/-- The pair of a user and a role was revoked. -/
def Withdrawals.Revoked (withdrawn : Withdrawals) (userId roleId : UInt32) : Prop :=
  (userId, roleId) ∈ withdrawn.revoked

/-- The pair of a role and a permission was removed. -/
def Withdrawals.Removed (withdrawn : Withdrawals) (roleId permission : UInt32) : Prop :=
  (roleId, permission) ∈ withdrawn.removed

theorem withdrawalsHold_iff_severed :
    WithdrawalsHold (manager, withdrawn) ↔
      Severed (Lists manager) (Grants manager) withdrawn.Revoked withdrawn.Removed := by
  constructor
  · rintro ⟨hrevoked, hremoved⟩
    exact ⟨fun userId roleId hcut hlists permission hgrants ↦
        hrevoked userId roleId hcut permission ⟨hlists, hgrants⟩,
      fun roleId permission hcut hgrants userId hlists ↦
        hremoved roleId permission hcut userId ⟨hlists, hgrants⟩⟩
  · rintro ⟨hahead, hbehind⟩
    exact ⟨fun userId roleId hcut permission hboth ↦
        hahead userId roleId hcut hboth.1 permission hboth.2,
      fun roleId permission hcut userId hboth ↦
        hbehind roleId permission hcut hboth.2 userId hboth.1⟩

/-- Withdrawals hold as long as the same roles are listed and the same permissions granted. -/
theorem WithdrawalsHold.congr (hholds : WithdrawalsHold (manager, withdrawn))
    (hlists : Lists after = Lists manager) (hgrants : Grants after = Grants manager) :
    WithdrawalsHold (after, withdrawn) := by
  rw [withdrawalsHold_iff_severed, hlists, hgrants]
  exact withdrawalsHold_iff_severed.mp hholds

/-! ### Roles that are listed -/

theorem lists_of_users (husers : after.users = manager.users) : Lists after = Lists manager := by
  funext userId roleId
  rw [Lists, AuthManager.getUser, husers, ← AuthManager.getUser, Lists]

theorem grants_of_roles (hroles : after.roles = manager.roles) : Grants after = Grants manager := by
  funext roleId permission
  rw [Grants, hroles, Grants]

/-- The roles that are listed after a call on a user. -/
theorem lists_onUser_iff {userId : UInt32} {accepts : User → Bool} (change : User → User)
    (hkeep : ∀ user, (change user).userId = user.userId) (other roleId : UInt32) :
    Lists (manager.onUser userId accepts change).1 other roleId ↔
      if other = userId then
        userId ≠ 0 ∧ ∃ user, manager.getUser userId = some user ∧
          roleId ∈ (if accepts user then change user else user).roleIds
      else Lists manager other roleId := by
  rw [Lists, getUser_onUser hkeep]
  by_cases hsame : other = userId
  · rw [if_pos hsame, hsame]
    refine and_congr_right fun hid ↦ ?_
    rw [if_pos ⟨hid, rfl⟩]
    constructor
    · rintro ⟨_, hfind, hlisted⟩
      obtain ⟨user, huser, rfl⟩ := Option.map_eq_some_iff.mp hfind
      exact ⟨user, huser, hlisted⟩
    · rintro ⟨user, huser, hlisted⟩
      exact ⟨_, Option.map_eq_some_iff.mpr ⟨user, huser, rfl⟩, hlisted⟩
  · rw [if_neg hsame, if_neg fun hboth ↦ hsame hboth.2, Lists]

/-- A call on a user that keeps its roles. -/
theorem lists_onUser {userId : UInt32} {accepts : User → Bool} {change : User → User}
    (hkeep : ∀ user, (change user).userId = user.userId)
    (hroles : ∀ user, (change user).roleIds = user.roleIds) :
    Lists (manager.onUser userId accepts change).1 = Lists manager := by
  have hsame : ∀ user, (if accepts user then change user else user).roleIds = user.roleIds := by
    intro user
    split_ifs
    · exact hroles user
    · rfl
  funext other roleId
  rw [lists_onUser_iff change hkeep]
  simp only [hsame]
  split_ifs with hother
  · rw [hother, Lists]
  · rfl

/-- After a role is assigned it is listed too. -/
theorem lists_assign {userId roleId : UInt32} {user : User} (hid : userId ≠ 0)
    (hfind : manager.getUser userId = some user) (hroom : user.hasRoom = true)
    (other listed : UInt32) :
    Lists (manager.onUser userId User.hasRoom (User.assign roleId)).1 other listed ↔
      Lists manager other listed ∨ other = userId ∧ listed = roleId := by
  rw [lists_onUser_iff (User.assign roleId) fun _ ↦ rfl]
  split_ifs with hother
  · rw [hother, Lists, hfind]
    simp [hroom, User.assign, hid]
  · simp [hother]

/-- After a role is revoked no more roles are listed than before. -/
theorem lists_of_lists_revoke {userId roleId : UInt32} (other listed : UInt32)
    (hlists : Lists (manager.onUser userId (User.listsRole roleId) (User.revoke roleId)).1 other
      listed) : Lists manager other listed := by
  rw [lists_onUser_iff (User.revoke roleId) fun _ ↦ rfl] at hlists
  split_ifs at hlists with hother
  · obtain ⟨hid, user, hfind, hlisted⟩ := hlists
    rw [hother]
    refine ⟨hid, user, hfind, ?_⟩
    split_ifs at hlisted
    · exact List.mem_of_mem_erase hlisted
    · exact hlisted
  · exact hlists

/-- After a role is revoked it is still listed exactly when it was listed more than once. -/
theorem lists_revoke_self {userId roleId : UInt32} {user : User} (hid : userId ≠ 0)
    (hfind : manager.getUser userId = some user) (haccepts : user.listsRole roleId = true) :
    Lists (manager.onUser userId (User.listsRole roleId) (User.revoke roleId)).1 userId roleId ↔
      ¬ user.roleIds.count roleId ≤ 1 := by
  have hmem : roleId ∈ user.roleIds.erase roleId ↔ ¬ user.roleIds.count roleId ≤ 1 := by
    rw [← List.count_pos_iff, List.count_erase_self]
    omega
  rw [lists_onUser_iff (User.revoke roleId) fun _ ↦ rfl, if_pos rfl, ← hmem, and_iff_right hid]
  constructor
  · rintro ⟨found, hfound, hlisted⟩
    rw [← Option.some.inj (hfind.symm.trans hfound), if_pos haccepts] at hlisted
    exact hlisted
  · intro hlisted
    refine ⟨user, hfind, ?_⟩
    rw [if_pos haccepts]
    exact hlisted

/-! ### Permissions that are granted -/

/-- Roles are numbered in order by the counter, and there are at most as many as the table holds. -/
structure RolesNumbered (first : UInt32) (manager : AuthManager) : Prop where
  numbered : NumberedFrom first Role.roleId manager.roles
  next : manager.nextRoleId = UInt32.ofNat manager.roles.length + first
  bounded : manager.roles.length ≤ maxAuthRoles

theorem RolesNumbered.nodup (hroles : RolesNumbered first manager) :
    (manager.roles.map Role.roleId).Nodup :=
  hroles.numbered.nodup (Nat.lt_of_le_of_lt hroles.bounded (by decide))

/-- Assumes: distinct role ids. The permissions that are granted after a call on a role. -/
theorem grants_onRole_iff (hdistinct : (manager.roles.map Role.roleId).Nodup) {roleId : UInt32}
    (hid : roleId ≠ 0) {accepts : Role → Bool} (change : Role → Role)
    (hkeep : ∀ role, (change role).roleId = role.roleId) (other permission : UInt32) :
    Grants (manager.onRole roleId accepts change).1 other permission ↔
      if other = roleId then
        ∃ role ∈ manager.roles, role.roleId = roleId ∧
          permission ∈ (if accepts role then change role else role).permissions
      else Grants manager other permission := by
  have hkept : ∀ role, (if accepts role then change role else role).roleId = role.roleId := by
    intro role
    split_ifs
    · exact hkeep role
    · rfl
  rw [Grants, roles_onRole, if_neg hid, updateFirst_key_eq_map hdistinct]
  constructor
  · rintro ⟨_, hrole, hother, hgranted⟩
    obtain ⟨role, hmem, rfl⟩ := List.mem_map.mp hrole
    by_cases hsame : role.roleId = roleId
    · rw [if_pos hsame] at hother hgranted
      rw [if_pos (hother.symm.trans ((hkept role).trans hsame))]
      exact ⟨role, hmem, hsame, hgranted⟩
    · rw [if_neg hsame] at hother hgranted
      rw [if_neg fun hequal ↦ hsame (hother.trans hequal)]
      exact ⟨role, hmem, hother, hgranted⟩
  · intro hgrants
    split_ifs at hgrants with hother
    · obtain ⟨role, hmem, hsame, hgranted⟩ := hgrants
      refine ⟨_, List.mem_map_of_mem hmem, ?_, ?_⟩
      · rw [if_pos hsame, hkept, hsame, hother]
      · rw [if_pos hsame]
        exact hgranted
    · obtain ⟨role, hmem, hsame, hgranted⟩ := hgrants
      have hne : ¬ role.roleId = roleId := fun hequal ↦ hother (hsame.symm.trans hequal)
      refine ⟨_, List.mem_map_of_mem hmem, ?_, ?_⟩
      · rw [if_neg hne, hsame]
      · rw [if_neg hne]
        exact hgranted

section Roles

variable (hdistinct : (manager.roles.map Role.roleId).Nodup) {role : Role}
variable (hrole : role ∈ manager.roles) {permission : UInt32}
include hdistinct hrole

theorem grants_self_iff :
    Grants manager role.roleId permission ↔ permission ∈ role.permissions := by
  constructor
  · rintro ⟨found, hfound, hsame, hgranted⟩
    rw [List.inj_on_of_nodup_map hdistinct hfound hrole hsame] at hgranted
    exact hgranted
  · exact fun hgranted ↦ ⟨role, hrole, rfl, hgranted⟩

/-- What a role grants after a call that it accepts. -/
theorem grants_onRole_self (hid : role.roleId ≠ 0) {accepts : Role → Bool}
    (haccepts : accepts role = true) (change : Role → Role)
    (hkeep : ∀ role, (change role).roleId = role.roleId) :
    Grants (manager.onRole role.roleId accepts change).1 role.roleId permission ↔
      permission ∈ (change role).permissions := by
  rw [grants_onRole_iff hdistinct hid change hkeep, if_pos rfl]
  constructor
  · rintro ⟨found, hfound, hsame, hgranted⟩
    rw [List.inj_on_of_nodup_map hdistinct hfound hrole hsame, if_pos haccepts] at hgranted
    exact hgranted
  · intro hgranted
    refine ⟨role, hrole, rfl, ?_⟩
    rw [if_pos haccepts]
    exact hgranted

/-- After a permission is added it is granted too. -/
theorem grants_add (hid : role.roleId ≠ 0) (hroom : role.hasRoom = true)
    (other granted : UInt32) :
    Grants (manager.onRole role.roleId Role.hasRoom (Role.add permission)).1 other granted ↔
      Grants manager other granted ∨ other = role.roleId ∧ granted = permission := by
  by_cases hother : other = role.roleId
  · rw [hother, grants_onRole_self hdistinct hrole hid hroom (Role.add permission) fun _ ↦ rfl,
      grants_self_iff hdistinct hrole, Role.add]
    simp
  · rw [grants_onRole_iff hdistinct hid (Role.add permission) fun _ ↦ rfl, if_neg hother]
    simp [hother]

/-- After a permission is removed no more is granted than before. -/
theorem grants_of_grants_remove (hid : role.roleId ≠ 0)
    (hlisted : role.listsPermission permission = true) (other granted : UInt32)
    (hgrants : Grants (manager.onRole role.roleId (Role.listsPermission permission)
      (Role.remove permission)).1 other granted) : Grants manager other granted := by
  by_cases hother : other = role.roleId
  · rw [hother, grants_onRole_self hdistinct hrole hid hlisted (Role.remove permission)
      fun _ ↦ rfl] at hgrants
    rw [hother, grants_self_iff hdistinct hrole]
    exact List.mem_of_mem_erase hgrants
  · rwa [grants_onRole_iff hdistinct hid (Role.remove permission) fun _ ↦ rfl,
      if_neg hother] at hgrants

/-- After a permission is removed it is still granted exactly when it was listed more than once. -/
theorem grants_remove_self (hid : role.roleId ≠ 0)
    (hlisted : role.listsPermission permission = true) :
    Grants (manager.onRole role.roleId (Role.listsPermission permission)
        (Role.remove permission)).1 role.roleId permission ↔
      ¬ role.permissions.count permission ≤ 1 := by
  rw [grants_onRole_self hdistinct hrole hid hlisted (Role.remove permission) fun _ ↦ rfl,
    Role.remove, ← List.count_pos_iff, List.count_erase_self]
  omega

end Roles

/-! ### What one call does -/

section Calls

variable (hholds : WithdrawalsHold (manager, withdrawn))
include hholds

theorem withdrawalsHold_assign_iff (userId roleId : UInt32) :
    WithdrawalsHold ((userAssignRole manager userId roleId).1,
        withdrawnAfter manager (.userAssignRole userId roleId) withdrawn) ↔
      (AuthCall.userAssignRole userId roleId).KeepsWithdrawn (manager, withdrawn) := by
  rw [withdrawnAfter, AuthCall.KeepsWithdrawn, userAssignRole]
  by_cases hrole : roleId = 0
  · rw [if_pos hrole, if_neg (show ¬ (-1 : Int) = 0 by decide)]
    exact iff_of_true hholds fun _ hnonzero ↦ absurd hrole hnonzero
  rw [if_neg hrole]
  by_cases hserved : (manager.onUser userId User.hasRoom (User.assign roleId)).2 = 0
  · obtain ⟨hid, user, hfind, hroom⟩ := onUser_eq_zero_iff.mp hserved
    have hgrants := grants_of_roles
      (onUser_tables manager userId User.hasRoom (User.assign roleId)).2.2
    rw [if_pos hserved, withdrawalsHold_iff_severed, hgrants]
    refine ((withdrawalsHold_iff_severed.mp hholds).join_first_iff userId roleId
      (lists_assign hid hfind hroom) fun other listed ↦ ?_).trans ?_
    · simp only [Withdrawals.Revoked, List.mem_filter, decide_eq_true_eq, ne_eq, Prod.mk.injEq]
    · constructor
      · exact fun hnone _ _ _ _ _ ↦ hnone
      · exact fun hnone ↦ hnone hid hrole user hfind (of_decide_eq_true hroom)
  · rw [if_neg hserved, onUser_of_refused hserved]
    refine iff_of_true hholds fun hid _ user hfind hroom ↦ absurd ?_ hserved
    exact onUser_eq_zero_iff.mpr ⟨hid, user, hfind, decide_eq_true hroom⟩

theorem withdrawalsHold_revoke_iff (userId roleId : UInt32) :
    WithdrawalsHold ((userRevokeRole manager userId roleId).1,
        withdrawnAfter manager (.userRevokeRole userId roleId) withdrawn) ↔
      (AuthCall.userRevokeRole userId roleId).KeepsWithdrawn (manager, withdrawn) := by
  rw [withdrawnAfter, AuthCall.KeepsWithdrawn, userRevokeRole]
  by_cases hrole : roleId = 0
  · rw [if_pos hrole, if_neg (show ¬ (-1 : Int) = 0 by decide)]
    exact iff_of_true hholds fun _ hnonzero ↦ absurd hrole hnonzero
  rw [if_neg hrole]
  by_cases hserved :
      (manager.onUser userId (User.listsRole roleId) (User.revoke roleId)).2 = 0
  · obtain ⟨hid, user, hfind, hlisted⟩ := onUser_eq_zero_iff.mp hserved
    have hgrants := grants_of_roles
      (onUser_tables manager userId (User.listsRole roleId) (User.revoke roleId)).2.2
    rw [if_pos hserved, withdrawalsHold_iff_severed, hgrants]
    refine ((withdrawalsHold_iff_severed.mp hholds).cut_first_iff userId roleId
      lists_of_lists_revoke fun other listed ↦ ?_).trans ?_
    · simp [Withdrawals.Revoked, or_comm]
    · rw [lists_revoke_self hid hfind hlisted]
      constructor
      · intro hnone _ _ found hfound
        rw [← Option.some.inj (hfind.symm.trans hfound)]
        exact Decidable.or_iff_not_imp_left.mpr hnone
      · exact fun hor ↦ Decidable.or_iff_not_imp_left.mp (hor hid hrole user hfind)
  · rw [if_neg hserved, onUser_of_refused hserved]
    refine iff_of_true hholds fun hid _ user hfind ↦ .inl ?_
    -- the call is refused because the user does not list the role
    have habsent : roleId ∉ user.roleIds := by
      intro hlisted
      refine hserved (onUser_eq_zero_iff.mpr ⟨hid, user, hfind, ?_⟩)
      exact List.contains_iff_mem.mpr hlisted
    rw [List.count_eq_zero.mpr habsent]
    exact Nat.zero_le 1

theorem withdrawalsHold_add_iff (hdistinct : (manager.roles.map Role.roleId).Nodup)
    (roleId permission : UInt32) :
    WithdrawalsHold ((roleAddPermission manager roleId permission).1,
        withdrawnAfter manager (.roleAddPermission roleId permission) withdrawn) ↔
      (AuthCall.roleAddPermission roleId permission).KeepsWithdrawn (manager, withdrawn) := by
  rw [withdrawnAfter, AuthCall.KeepsWithdrawn, roleAddPermission]
  by_cases hserved : (manager.onRole roleId Role.hasRoom (Role.add permission)).2 = 0
  · obtain ⟨hid, role, hfind, hroom⟩ := onRole_eq_zero_iff.mp hserved
    obtain rfl : role.roleId = roleId := key_of_find? hfind
    have hrole := List.mem_of_find?_eq_some hfind
    have hlists := lists_of_users
      (onRole_tables manager role.roleId Role.hasRoom (Role.add permission)).2.2
    rw [if_pos hserved, withdrawalsHold_iff_severed, hlists]
    refine ((withdrawalsHold_iff_severed.mp hholds).join_second_iff role.roleId permission
      (grants_add hdistinct hrole hid hroom) fun other granted ↦ ?_).trans ?_
    · simp only [Withdrawals.Removed, List.mem_filter, decide_eq_true_eq, ne_eq, Prod.mk.injEq]
    · constructor
      · exact fun hnone _ _ _ _ _ ↦ hnone
      · exact fun hnone ↦ hnone hid role hrole rfl (of_decide_eq_true hroom)
  · rw [if_neg hserved, onRole_of_refused hserved]
    refine iff_of_true hholds fun hid role hrole hsame hroom ↦ absurd ?_ hserved
    refine onRole_eq_zero_iff.mpr ⟨hid, role, ?_, decide_eq_true hroom⟩
    rw [← hsame]
    exact find?_key_of_mem hdistinct hrole

theorem withdrawalsHold_remove_iff (hdistinct : (manager.roles.map Role.roleId).Nodup)
    (roleId permission : UInt32) :
    WithdrawalsHold ((roleRemovePermission manager roleId permission).1,
        withdrawnAfter manager (.roleRemovePermission roleId permission) withdrawn) ↔
      (AuthCall.roleRemovePermission roleId permission).KeepsWithdrawn (manager, withdrawn) := by
  rw [withdrawnAfter, AuthCall.KeepsWithdrawn, roleRemovePermission]
  by_cases hserved : (manager.onRole roleId (Role.listsPermission permission)
      (Role.remove permission)).2 = 0
  · obtain ⟨hid, role, hfind, hlisted⟩ := onRole_eq_zero_iff.mp hserved
    obtain rfl : role.roleId = roleId := key_of_find? hfind
    have hrole := List.mem_of_find?_eq_some hfind
    have hlists := lists_of_users (onRole_tables manager role.roleId
      (Role.listsPermission permission) (Role.remove permission)).2.2
    rw [if_pos hserved, withdrawalsHold_iff_severed, hlists]
    refine ((withdrawalsHold_iff_severed.mp hholds).cut_second_iff role.roleId permission
      (grants_of_grants_remove hdistinct hrole hid hlisted) fun other granted ↦ ?_).trans ?_
    · simp [Withdrawals.Removed, or_comm]
    · rw [grants_remove_self hdistinct hrole hid hlisted]
      constructor
      · intro hnone _ found hfound hsame
        rw [List.inj_on_of_nodup_map hdistinct hfound hrole hsame]
        exact Decidable.or_iff_not_imp_left.mpr hnone
      · exact fun hor ↦ Decidable.or_iff_not_imp_left.mp (hor hid role hrole rfl)
  · rw [if_neg hserved, onRole_of_refused hserved]
    refine iff_of_true hholds fun hid role hrole hsame ↦ .inl ?_
    have habsent : permission ∉ role.permissions := by
      intro hlisted
      refine hserved (onRole_eq_zero_iff.mpr ⟨hid, role, ?_, ?_⟩)
      · rw [← hsame]
        exact find?_key_of_mem hdistinct hrole
      · exact List.contains_iff_mem.mpr hlisted
    rw [List.count_eq_zero.mpr habsent]
    exact Nat.zero_le 1

theorem withdrawalsHold_userCreate (passwordHash : List UInt8) :
    WithdrawalsHold ((userCreate manager passwordHash).1, withdrawn) := by
  rw [userCreate]
  by_cases hfull : maxAuthUsers ≤ manager.users.length
  · rw [if_pos hfull]
    exact hholds
  rw [if_neg hfull]
  refine hholds.congr ?_ (grants_of_roles rfl)
  -- a new user lists no role
  funext userId roleId
  rw [Lists, Lists, AuthManager.getUser, AuthManager.getUser, List.find?_append]
  refine propext (and_congr_right fun _ ↦ ?_)
  cases manager.users.find? fun user ↦ user.userId = userId with
  | some user => rfl
  | none =>
    refine iff_of_false ?_ ?_
    · rintro ⟨user, hfind, hlisted⟩
      rw [Option.none_or] at hfind
      rw [List.mem_singleton.mp (List.mem_of_find?_eq_some hfind)] at hlisted
      exact List.not_mem_nil hlisted
    · rintro ⟨user, hnone, -⟩
      exact absurd hnone (Option.some_ne_none user).symm

theorem withdrawalsHold_roleCreate : WithdrawalsHold ((roleCreate manager).1, withdrawn) := by
  rw [roleCreate]
  split_ifs
  · exact hholds
  · refine hholds.congr (lists_of_users rfl) ?_
    funext roleId permission
    simp [Grants, or_and_right, exists_or]

theorem withdrawalsHold_userDelete_iff (userId : UInt32) :
    WithdrawalsHold ((userDelete manager userId).1, withdrawn) ↔
      (AuthCall.userDelete userId).KeepsWithdrawn (manager, withdrawn) := by
  rw [AuthCall.KeepsWithdrawn]
  have hdeleted : (userDelete manager userId).1 =
      if userId = 0 then manager
      else { manager with users := manager.users.eraseP fun user ↦ user.userId = userId } := by
    rw [userDelete]
    split_ifs with hid hany
    · rfl
    · rfl
    · rw [List.eraseP_of_forall_not]
      simpa using hany
  rw [hdeleted]
  by_cases hid : userId = 0
  · rw [if_pos hid]
    exact iff_of_true hholds fun hnonzero ↦ absurd hid hnonzero
  rw [if_neg hid, forall_prop_of_true hid]
  constructor
  · intro hafter user hfind roleId hlisted permission hgrants
    have hcontributes : Contributes
        { manager with users := manager.users.eraseP fun user ↦ user.userId = userId } userId roleId
        permission := ⟨⟨hid, user, hfind, hlisted⟩, hgrants⟩
    exact ⟨fun hcut ↦ hafter.revoked userId roleId hcut permission hcontributes,
      fun hcut ↦ hafter.removed roleId permission hcut userId hcontributes⟩
  · intro hnext
    -- the roles of other users are listed as before
    have hother : ∀ other roleId permission, Contributes
        { manager with users := manager.users.eraseP fun user ↦ user.userId = userId } other roleId
        permission → (other, roleId) ∉ withdrawn.revoked ∧
          (roleId, permission) ∉ withdrawn.removed := by
      rintro other roleId permission ⟨⟨hnonzero, user, hfind, hlisted⟩, hgrants⟩
      by_cases hsame : other = userId
      · rw [hsame] at hfind ⊢
        exact hnext user hfind roleId hlisted permission hgrants
      · have hbefore : Contributes manager other roleId permission :=
          ⟨⟨hnonzero, user, (find?_key_eraseP_of_ne hsame).symm.trans hfind, hlisted⟩, hgrants⟩
        exact ⟨fun hcut ↦ hholds.revoked other roleId hcut permission hbefore,
          fun hcut ↦ hholds.removed roleId permission hcut other hbefore⟩
    exact ⟨fun other roleId hcut permission hboth ↦ (hother other roleId permission hboth).1 hcut,
      fun roleId permission hcut other hboth ↦ (hother other roleId permission hboth).2 hcut⟩

end Calls

theorem WithdrawalsHold.sameAccounts (hholds : WithdrawalsHold (manager, withdrawn))
    (hsame : SameAccounts manager after) : WithdrawalsHold (after, withdrawn) :=
  hholds.congr (lists_of_users hsame.users) (grants_of_roles hsame.roles)

/-- Assumes: distinct role ids. From a state in which withdrawals hold, a call leads to one exactly
when it meets the condition. -/
theorem withdrawalsHold_step_iff (hdistinct : (manager.roles.map Role.roleId).Nodup)
    (hholds : WithdrawalsHold (manager, withdrawn)) (call : AuthCall) :
    WithdrawalsHold (authStep manager call, withdrawnAfter manager call withdrawn) ↔
      call.KeepsWithdrawn (manager, withdrawn) := by
  cases call with
  | userCreate passwordHash =>
    exact iff_of_true (withdrawalsHold_userCreate hholds passwordHash) trivial
  | userDelete userId => exact withdrawalsHold_userDelete_iff hholds userId
  | userLock userId =>
    refine iff_of_true (hholds.congr ?_ (grants_of_roles (onUser_tables _ _ _ _).2.2)) trivial
    exact lists_onUser (fun _ ↦ rfl) fun _ ↦ rfl
  | userUnlock userId =>
    refine iff_of_true (hholds.congr ?_ (grants_of_roles (onUser_tables _ _ _ _).2.2)) trivial
    exact lists_onUser (fun _ ↦ rfl) fun _ ↦ rfl
  | userAssignRole userId roleId => exact withdrawalsHold_assign_iff hholds userId roleId
  | userRevokeRole userId roleId => exact withdrawalsHold_revoke_iff hholds userId roleId
  | roleCreate => exact iff_of_true (withdrawalsHold_roleCreate hholds) trivial
  | roleAddPermission roleId permission =>
    exact withdrawalsHold_add_iff hholds hdistinct roleId permission
  | roleRemovePermission roleId permission =>
    exact withdrawalsHold_remove_iff hholds hdistinct roleId permission
  | sessionCreate userId method =>
    exact iff_of_true (hholds.sameAccounts (sameAccounts_sessionCreate userId method)) trivial
  | sessionDestroy sessionId =>
    exact iff_of_true (hholds.sameAccounts (sameAccounts_sessionDestroy sessionId)) trivial
  | sessionAuthenticate sessionId credentials =>
    exact iff_of_true (hholds.sameAccounts (sameAccounts_sessionAuthenticate sessionId credentials))
      trivial
  | sessionVerifyMfa sessionId =>
    exact iff_of_true (hholds.sameAccounts (sameAccounts_sessionVerifyMfa sessionId)) trivial
  | tokenGenerate userId tokenType =>
    exact iff_of_true (hholds.sameAccounts (sameAccounts_tokenGenerate userId tokenType)) trivial
  | tokenValidate tokenId =>
    exact iff_of_true (hholds.sameAccounts (sameAccounts_tokenValidate tokenId)) trivial
  | tokenRevoke tokenId =>
    exact iff_of_true (hholds.sameAccounts (sameAccounts_tokenRevoke tokenId)) trivial

/-! ### Numbers of roles -/

theorem RolesNumbered.congr (hroles : RolesNumbered first manager)
    (hsame : after.roles = manager.roles) (hnext : after.nextRoleId = manager.nextRoleId) :
    RolesNumbered first after :=
  ⟨hsame.symm ▸ hroles.numbered, by rw [hnext, hsame, hroles.next], hsame.symm ▸ hroles.bounded⟩

theorem RolesNumbered.onUser (hroles : RolesNumbered first manager) (userId : UInt32)
    (accepts : User → Bool) (change : User → User) :
    RolesNumbered first (manager.onUser userId accepts change).1 := by
  rw [AuthManager.onUser]
  by_cases hid : userId = 0
  · rw [if_pos hid]
    exact hroles
  · rw [if_neg hid]
    cases manager.getUser userId with
    | none => exact hroles
    | some user =>
      dsimp only
      split_ifs <;> exact hroles.congr rfl rfl

theorem RolesNumbered.onRole (hroles : RolesNumbered first manager) (roleId : UInt32)
    (accepts : Role → Bool) (change : Role → Role)
    (hkeep : ∀ role, (change role).roleId = role.roleId) :
    RolesNumbered first (manager.onRole roleId accepts change).1 := by
  rw [AuthManager.onRole]
  by_cases hid : roleId = 0
  · rw [if_pos hid]
    exact hroles
  · rw [if_neg hid]
    cases manager.roles.find? fun role ↦ role.roleId = roleId with
    | none => exact hroles
    | some role =>
      dsimp only
      split_ifs
      · refine ⟨hroles.numbered.updateFirst hkeep, ?_, ?_⟩
        · rw [updateFirst, List.length_modify]
          exact hroles.next
        · rw [updateFirst, List.length_modify]
          exact hroles.bounded
      · exact hroles

theorem rolesNumbered_step (hroles : RolesNumbered first manager) (call : AuthCall) :
    RolesNumbered first (authStep manager call) := by
  have hsame : ∀ {after : AuthManager}, SameAccounts manager after →
      RolesNumbered first after := fun hafter ↦ hroles.congr hafter.roles hafter.nextRoleId
  cases call with
  | userCreate passwordHash =>
    rw [authStep, userCreate]
    by_cases hfull : maxAuthUsers ≤ manager.users.length
    · rw [if_pos hfull]
      exact hroles
    · rw [if_neg hfull]
      exact hroles.congr rfl rfl
  | userDelete userId =>
    rw [authStep, userDelete]
    split_ifs <;> exact hroles.congr rfl rfl
  | userLock userId => exact hroles.onUser userId _ _
  | userUnlock userId => exact hroles.onUser userId _ _
  | userAssignRole userId roleId =>
    rw [authStep, userAssignRole]
    split_ifs
    · exact hroles
    · exact hroles.onUser userId _ _
  | userRevokeRole userId roleId =>
    rw [authStep, userRevokeRole]
    split_ifs
    · exact hroles
    · exact hroles.onUser userId _ _
  | roleCreate =>
    rw [authStep, roleCreate]
    split_ifs with hfull
    · exact hroles
    · refine ⟨hroles.numbered.concat hroles.next, ?_, ?_⟩
      · rw [List.length_append, hroles.next]
        exact nextNumber_succ _ _
      · rw [List.length_append]
        exact Nat.not_le.mp hfull
  | roleAddPermission roleId permission => exact hroles.onRole roleId _ _ fun _ ↦ rfl
  | roleRemovePermission roleId permission => exact hroles.onRole roleId _ _ fun _ ↦ rfl
  | sessionCreate userId method => exact hsame (sameAccounts_sessionCreate userId method)
  | sessionDestroy sessionId => exact hsame (sameAccounts_sessionDestroy sessionId)
  | sessionAuthenticate sessionId credentials =>
    exact hsame (sameAccounts_sessionAuthenticate sessionId credentials)
  | sessionVerifyMfa sessionId => exact hsame (sameAccounts_sessionVerifyMfa sessionId)
  | tokenGenerate userId tokenType => exact hsame (sameAccounts_tokenGenerate userId tokenType)
  | tokenValidate tokenId => exact hsame (sameAccounts_tokenValidate tokenId)
  | tokenRevoke tokenId => exact hsame (sameAccounts_tokenRevoke tokenId)

/-! ### Every run -/

/-- In every run, withdrawals hold in every state exactly when every call meets the condition. -/
theorem withdrawalsHold_iff (nextUserId nextRoleId nextTokenId nextSessionId : UInt32)
    (calls : List AuthCall) :
    AlongRun (withTrace authStep withdrawnAfter) WithdrawalsHold
        (authManagerInit nextUserId nextRoleId nextTokenId nextSessionId, ⟨[], []⟩) calls ↔
      EveryStep (withTrace authStep withdrawnAfter) (fun traced call ↦ call.KeepsWithdrawn traced)
        (authManagerInit nextUserId nextRoleId nextTokenId nextSessionId, ⟨[], []⟩) calls := by
  refine alongRun_iff_everyStep (fun traced ↦ RolesNumbered nextRoleId traced.1) (fun _ _ ↦ True)
    (fun traced call hroles _ ↦ rolesNumbered_step hroles call) ?_ ?_ ?_ fun _ _ _ ↦ trivial
  · rintro ⟨manager, withdrawn⟩ call hroles - hholds
    exact withdrawalsHold_step_iff hroles.nodup hholds call
  · exact ⟨rfl, (UInt32.zero_add nextRoleId).symm, Nat.zero_le _⟩
  · exact ⟨fun _ _ hnone ↦ absurd hnone List.not_mem_nil,
      fun _ _ hnone ↦ absurd hnone List.not_mem_nil⟩

/-- A role that was assigned twice is revoked once, and still grants its permission. -/
theorem not_withdrawalsHold_assigned_twice :
    ¬ AlongRun (withTrace authStep withdrawnAfter) WithdrawalsHold
      (authManagerInit 1 1 1 1, ⟨[], []⟩)
      [.userCreate [], .roleCreate, .roleAddPermission 1 5, .userAssignRole 1 1,
        .userAssignRole 1 1, .userRevokeRole 1 1] := by
  intro halong
  have hnone := (halong _ (List.prefix_refl _)).revoked 1 1 (by decide) 5
  refine hnone ⟨⟨by decide, ⟨1, [], [1], true, false⟩, by decide, by decide⟩, ?_⟩
  exact ⟨⟨1, [5]⟩, by decide, rfl, by decide⟩

end OneOS.Auth
