import OneOS.Foundation.CStrings
import OneOS.Foundation.Table

/-!
# The authentication manager

`secure-communication/auth_manager.c`: users with a password hash and roles, roles with permissions,
sessions in which a user authenticates, and tokens. Users and sessions are deleted by shifting those
behind down; roles and tokens stay. Each kind is numbered by a counter of the process.

A password hash is the list of its `password_hash_length` bytes, and a call without one is a call
with none. Left out are the checks of pointers, names and mail addresses, times, which are all 0 or
only written, the token ids of a session, and the metrics, which change nothing.
-/

set_option autoImplicit false
set_option relaxedAutoImplicit false

namespace OneOS.Auth

open Foundation

/-! ### The manager -/

/-- `MAX_AUTH_SESSIONS`. -/
def maxAuthSessions : ℕ := 1024

/-- `MAX_AUTH_TOKENS`. -/
def maxAuthTokens : ℕ := 2048

/-- `MAX_AUTH_USERS`. -/
def maxAuthUsers : ℕ := 512

/-- `MAX_AUTH_ROLES`. -/
def maxAuthRoles : ℕ := 128

/-- `MAX_PERMISSIONS_PER_ROLE`. -/
def maxPermissionsPerRole : ℕ := 256

/-- `AuthenticationMethod`. -/
inductive AuthenticationMethod
  | password
  | certificate
  | oauth2
  | saml
  | mfa
  | biometric
  deriving DecidableEq, Repr

/-- `TokenType`. -/
inductive TokenType
  | access
  | refresh
  | idToken
  | serviceAccount
  deriving DecidableEq, Repr

/-- `AuthenticationState`. -/
inductive AuthenticationState
  | unauthenticated
  | authenticating
  | authenticated
  | expired
  | revoked
  deriving DecidableEq, Repr

/-- `Role`. -/
structure Role where
  roleId : UInt32
  permissions : List UInt32
  deriving DecidableEq, Repr

/-- `User`. -/
structure User where
  userId : UInt32
  passwordHash : List UInt8
  roleIds : List UInt32
  isActive : Bool
  isLocked : Bool
  deriving DecidableEq, Repr

/-- `AuthenticationToken`. -/
structure AuthenticationToken where
  tokenId : UInt32
  tokenValue : CString
  userId : UInt32
  tokenType : TokenType
  isValid : Bool
  usageCount : UInt32
  deriving DecidableEq, Repr

/-- `AuthenticationSession`. -/
structure AuthenticationSession where
  sessionId : UInt32
  userId : UInt32
  authMethod : AuthenticationMethod
  state : AuthenticationState
  failedAuthAttempts : UInt32
  mfaEnabled : Bool
  mfaVerified : Bool
  deriving DecidableEq, Repr

/-- `AuthenticationManager`, with the used rows of its tables as lists, and the counters that number
users, roles, tokens and sessions. -/
structure AuthManager where
  users : List User
  roles : List Role
  tokens : List AuthenticationToken
  sessions : List AuthenticationSession
  successfulAuthentications : UInt64
  failedAuthentications : UInt64
  activeSessionsCount : UInt32
  nextUserId : UInt32
  nextRoleId : UInt32
  nextTokenId : UInt32
  nextSessionId : UInt32
  deriving DecidableEq, Repr

/-- `auth_manager_init`. The counters are shared by all managers of a process and keep their
values. -/
def authManagerInit (nextUserId nextRoleId nextTokenId nextSessionId : UInt32) : AuthManager where
  users := []
  roles := []
  tokens := []
  sessions := []
  successfulAuthentications := 0
  failedAuthentications := 0
  activeSessionsCount := 0
  nextUserId := nextUserId
  nextRoleId := nextRoleId
  nextTokenId := nextTokenId
  nextSessionId := nextSessionId

/-! ### Users -/

/-- `user_create`, returning the id or 0. A hash of more than 32 bytes is not stored. -/
def userCreate (manager : AuthManager) (passwordHash : List UInt8) : AuthManager × UInt32 :=
  if maxAuthUsers ≤ manager.users.length then (manager, 0)
  else
    ({ manager with
      users := manager.users ++
        [{ userId := manager.nextUserId
           passwordHash := if passwordHash.length ≤ 32 then passwordHash else []
           roleIds := []
           isActive := true
           isLocked := false }]
      nextUserId := manager.nextUserId + 1 }, manager.nextUserId)

/-- The first user with an id, as the loops of the source look for it. -/
def AuthManager.getUser (manager : AuthManager) (userId : UInt32) : Option User :=
  manager.users.find? fun user ↦ user.userId = userId

/-- `user_delete`. -/
def userDelete (manager : AuthManager) (userId : UInt32) : AuthManager × Int :=
  if userId = 0 then (manager, -1)
  else if manager.users.any fun user ↦ user.userId = userId then
    ({ manager with users := manager.users.eraseP fun user ↦ user.userId = userId }, 0)
  else (manager, -1)

/-- A call on the first user with an id. Without such a user, or when the user does not accept the
call, nothing is changed and the answer is -1. -/
def AuthManager.onUser (manager : AuthManager) (userId : UInt32) (accepts : User → Bool)
    (change : User → User) : AuthManager × Int :=
  if userId = 0 then (manager, -1)
  else
    match manager.getUser userId with
    | none => (manager, -1)
    | some user =>
      if accepts user then
        ({ manager with
          users := updateFirst (fun user ↦ user.userId = userId) change manager.users }, 0)
      else (manager, -1)

/-- `user_lock`. -/
def userLock (manager : AuthManager) (userId : UInt32) : AuthManager × Int :=
  manager.onUser userId (fun _ ↦ true) ({ · with isLocked := true })

/-- `user_unlock`. -/
def userUnlock (manager : AuthManager) (userId : UInt32) : AuthManager × Int :=
  manager.onUser userId (fun _ ↦ true) ({ · with isLocked := false })

/-- The user can take one more role. -/
def User.hasRoom (user : User) : Bool := user.roleIds.length < 64

/-- The user lists the role. -/
def User.listsRole (roleId : UInt32) (user : User) : Bool := user.roleIds.contains roleId

/-- A user with one more role at the end of the list. -/
def User.assign (roleId : UInt32) (user : User) : User :=
  { user with roleIds := user.roleIds ++ [roleId] }

/-- A user without the first occurrence of a role. -/
def User.revoke (roleId : UInt32) (user : User) : User :=
  { user with roleIds := user.roleIds.erase roleId }

/-- `user_assign_role`. Whether there is such a role is not looked at. -/
def userAssignRole (manager : AuthManager) (userId roleId : UInt32) : AuthManager × Int :=
  if roleId = 0 then (manager, -1)
  else manager.onUser userId User.hasRoom (User.assign roleId)

/-- `user_revoke_role`. -/
def userRevokeRole (manager : AuthManager) (userId roleId : UInt32) : AuthManager × Int :=
  if roleId = 0 then (manager, -1)
  else manager.onUser userId (User.listsRole roleId) (User.revoke roleId)

/-! ### Roles -/

/-- `role_create`, returning the id or 0. -/
def roleCreate (manager : AuthManager) : AuthManager × UInt32 :=
  if maxAuthRoles ≤ manager.roles.length then (manager, 0)
  else
    ({ manager with
      roles := manager.roles ++ [{ roleId := manager.nextRoleId, permissions := [] }]
      nextRoleId := manager.nextRoleId + 1 }, manager.nextRoleId)

/-- A call on the first role with an id, in the same way as one on a user. -/
def AuthManager.onRole (manager : AuthManager) (roleId : UInt32) (accepts : Role → Bool)
    (change : Role → Role) : AuthManager × Int :=
  if roleId = 0 then (manager, -1)
  else
    match manager.roles.find? fun role ↦ role.roleId = roleId with
    | none => (manager, -1)
    | some role =>
      if accepts role then
        ({ manager with
          roles := updateFirst (fun role ↦ role.roleId = roleId) change manager.roles }, 0)
      else (manager, -1)

/-- The role can take one more permission. -/
def Role.hasRoom (role : Role) : Bool := role.permissions.length < maxPermissionsPerRole

/-- The role lists the permission. -/
def Role.listsPermission (permission : UInt32) (role : Role) : Bool :=
  role.permissions.contains permission

/-- A role with one more permission at the end of the list. -/
def Role.add (permission : UInt32) (role : Role) : Role :=
  { role with permissions := role.permissions ++ [permission] }

/-- A role without the first occurrence of a permission. -/
def Role.remove (permission : UInt32) (role : Role) : Role :=
  { role with permissions := role.permissions.erase permission }

/-- `role_add_permission`. -/
def roleAddPermission (manager : AuthManager) (roleId permission : UInt32) : AuthManager × Int :=
  manager.onRole roleId Role.hasRoom (Role.add permission)

/-- `role_remove_permission`. -/
def roleRemovePermission (manager : AuthManager) (roleId permission : UInt32) :
    AuthManager × Int :=
  manager.onRole roleId (Role.listsPermission permission) (Role.remove permission)

/-- `auth_check_permission`: the roles of the user, the roles of the manager and the permissions of
a role in three loops. -/
def authCheckPermission (manager : AuthManager) (userId permission : UInt32) : Int :=
  if userId = 0 then -1
  else
    match manager.getUser userId with
    | none => -1
    | some user =>
      if user.roleIds.any fun roleId ↦ manager.roles.any fun role ↦
          role.roleId = roleId && role.permissions.contains permission then 0
      else -1

/-! ### Sessions -/

/-- `auth_session_create`, returning the id or 0. Whether there is such a user is not looked at. -/
def authSessionCreate (manager : AuthManager) (userId : UInt32) (method : AuthenticationMethod) :
    AuthManager × UInt32 :=
  if maxAuthSessions ≤ manager.sessions.length ∨ userId = 0 then (manager, 0)
  else
    ({ manager with
      sessions := manager.sessions ++
        [{ sessionId := manager.nextSessionId
           userId := userId
           authMethod := method
           state := .unauthenticated
           failedAuthAttempts := 0
           mfaEnabled := false
           mfaVerified := false }]
      nextSessionId := manager.nextSessionId + 1 }, manager.nextSessionId)

/-- The first session with an id. -/
def AuthManager.getSession (manager : AuthManager) (sessionId : UInt32) :
    Option AuthenticationSession :=
  manager.sessions.find? fun session ↦ session.sessionId = sessionId

/-- The sessions after the first one with an id is changed. -/
def AuthManager.changeSession (manager : AuthManager) (sessionId : UInt32)
    (change : AuthenticationSession → AuthenticationSession) : List AuthenticationSession :=
  updateFirst (fun session ↦ session.sessionId = sessionId) change manager.sessions

/-- `auth_session_destroy`. -/
def authSessionDestroy (manager : AuthManager) (sessionId : UInt32) : AuthManager × Int :=
  if sessionId = 0 then (manager, -1)
  else
    match manager.getSession sessionId with
    | none => (manager, -1)
    | some session =>
      ({ manager with
        sessions := manager.sessions.eraseP fun session ↦ session.sessionId = sessionId
        activeSessionsCount :=
          if session.state = .authenticated then manager.activeSessionsCount - 1
          else manager.activeSessionsCount }, 0)

/-- `auth_session_authenticate`. The credentials are an argument that is not read. -/
def authSessionAuthenticate (manager : AuthManager) (sessionId : UInt32)
    (_credentials : List UInt8) : AuthManager × Int :=
  if sessionId = 0 then (manager, -1)
  else
    match manager.getSession sessionId with
    | none => (manager, -1)
    | some session =>
      if session.state = .unauthenticated ∨ session.state = .authenticating then
        ({ manager with
          sessions := manager.changeSession sessionId ({ · with state := .authenticated })
          successfulAuthentications := manager.successfulAuthentications + 1
          activeSessionsCount := manager.activeSessionsCount + 1 }, 0)
      else
        ({ manager with
          sessions := manager.changeSession sessionId fun session ↦
            { session with failedAuthAttempts := session.failedAuthAttempts + 1 }
          failedAuthentications := manager.failedAuthentications + 1 }, -1)

/-- `auth_session_verify_mfa`. -/
def authSessionVerifyMfa (manager : AuthManager) (sessionId : UInt32) : AuthManager × Int :=
  if sessionId = 0 then (manager, -1)
  else
    match manager.getSession sessionId with
    | none => (manager, -1)
    | some session =>
      if session.mfaEnabled then
        ({ manager with
          sessions := manager.changeSession sessionId ({ · with mfaVerified := true }) }, 0)
      else (manager, -1)

/-! ### Tokens -/

/-- The value of a token, `"TOKEN_%u_%u"`. It has at most 27 bytes and always fits. -/
def tokenValueOf (tokenId userId : UInt32) : CString :=
  ofChars ['T', 'O', 'K', 'E', 'N', '_'] ++ decimal tokenId.toNat ++ ofChars ['_'] ++
    decimal userId.toNat

/-- `auth_token_generate`, returning the id or 0. Whether there is such a user is not looked at. -/
def authTokenGenerate (manager : AuthManager) (userId : UInt32) (tokenType : TokenType) :
    AuthManager × UInt32 :=
  if maxAuthTokens ≤ manager.tokens.length ∨ userId = 0 then (manager, 0)
  else
    ({ manager with
      tokens := manager.tokens ++
        [{ tokenId := manager.nextTokenId
           tokenValue := tokenValueOf manager.nextTokenId userId
           userId := userId
           tokenType := tokenType
           isValid := true
           usageCount := 0 }]
      nextTokenId := manager.nextTokenId + 1 }, manager.nextTokenId)

/-- The valid token that `auth_token_validate` finds by its id. -/
def AuthManager.validToken (manager : AuthManager) (tokenId : UInt32) :
    Option AuthenticationToken :=
  if tokenId = 0 then none
  else manager.tokens.find? fun token ↦ token.tokenId = tokenId && token.isValid

/-- `auth_token_validate`. -/
def authTokenValidate (manager : AuthManager) (tokenId : UInt32) : AuthManager × Int :=
  match manager.validToken tokenId with
  | none => (manager, -1)
  | some _ =>
    ({ manager with
      tokens := updateFirst (fun token ↦ token.tokenId = tokenId && token.isValid)
        (fun token ↦ { token with usageCount := token.usageCount + 1 }) manager.tokens }, 0)

/-- `auth_token_revoke`. -/
def authTokenRevoke (manager : AuthManager) (tokenId : UInt32) : AuthManager × Int :=
  if tokenId = 0 then (manager, -1)
  else if manager.tokens.any fun token ↦ token.tokenId = tokenId then
    ({ manager with
      tokens := updateFirst (fun token ↦ token.tokenId = tokenId)
        ({ · with isValid := false }) manager.tokens }, 0)
  else (manager, -1)

/-- The valid token that `auth_verify_token` finds by its value. -/
def AuthManager.tokenWithValue (manager : AuthManager) (tokenValue : CString) :
    Option AuthenticationToken :=
  manager.tokens.find? fun token ↦ token.isValid && token.tokenValue = tokenValue

/-- `auth_verify_token`. -/
def authVerifyToken (manager : AuthManager) (tokenValue : CString) : Int :=
  match manager.tokenWithValue tokenValue with
  | none => -1
  | some _ => 0

/-! ### Calls -/

/-- A call that changes the manager. -/
inductive AuthCall
  | userCreate (passwordHash : List UInt8)
  | userDelete (userId : UInt32)
  | userLock (userId : UInt32)
  | userUnlock (userId : UInt32)
  | userAssignRole (userId roleId : UInt32)
  | userRevokeRole (userId roleId : UInt32)
  | roleCreate
  | roleAddPermission (roleId permission : UInt32)
  | roleRemovePermission (roleId permission : UInt32)
  | sessionCreate (userId : UInt32) (method : AuthenticationMethod)
  | sessionDestroy (sessionId : UInt32)
  | sessionAuthenticate (sessionId : UInt32) (credentials : List UInt8)
  | sessionVerifyMfa (sessionId : UInt32)
  | tokenGenerate (userId : UInt32) (tokenType : TokenType)
  | tokenValidate (tokenId : UInt32)
  | tokenRevoke (tokenId : UInt32)
  deriving DecidableEq, Repr

/-- What a call does to the manager. -/
def authStep (manager : AuthManager) : AuthCall → AuthManager
  | .userCreate passwordHash => (userCreate manager passwordHash).1
  | .userDelete userId => (userDelete manager userId).1
  | .userLock userId => (userLock manager userId).1
  | .userUnlock userId => (userUnlock manager userId).1
  | .userAssignRole userId roleId => (userAssignRole manager userId roleId).1
  | .userRevokeRole userId roleId => (userRevokeRole manager userId roleId).1
  | .roleCreate => (roleCreate manager).1
  | .roleAddPermission roleId permission => (roleAddPermission manager roleId permission).1
  | .roleRemovePermission roleId permission => (roleRemovePermission manager roleId permission).1
  | .sessionCreate userId method => (authSessionCreate manager userId method).1
  | .sessionDestroy sessionId => (authSessionDestroy manager sessionId).1
  | .sessionAuthenticate sessionId credentials =>
    (authSessionAuthenticate manager sessionId credentials).1
  | .sessionVerifyMfa sessionId => (authSessionVerifyMfa manager sessionId).1
  | .tokenGenerate userId tokenType => (authTokenGenerate manager userId tokenType).1
  | .tokenValidate tokenId => (authTokenValidate manager tokenId).1
  | .tokenRevoke tokenId => (authTokenRevoke manager tokenId).1

/-! ### Calls on a user or a role -/

variable {manager : AuthManager}

theorem onUser_tables (manager : AuthManager) (userId : UInt32) (accepts : User → Bool)
    (change : User → User) :
    (manager.onUser userId accepts change).1.tokens = manager.tokens ∧
      (manager.onUser userId accepts change).1.sessions = manager.sessions ∧
        (manager.onUser userId accepts change).1.roles = manager.roles := by
  rw [AuthManager.onUser]
  split_ifs
  · exact ⟨rfl, rfl, rfl⟩
  · cases manager.getUser userId with
    | none => exact ⟨rfl, rfl, rfl⟩
    | some user =>
      dsimp only
      split_ifs <;> exact ⟨rfl, rfl, rfl⟩

theorem onRole_tables (manager : AuthManager) (roleId : UInt32) (accepts : Role → Bool)
    (change : Role → Role) :
    (manager.onRole roleId accepts change).1.tokens = manager.tokens ∧
      (manager.onRole roleId accepts change).1.sessions = manager.sessions ∧
        (manager.onRole roleId accepts change).1.users = manager.users := by
  rw [AuthManager.onRole]
  split_ifs
  · exact ⟨rfl, rfl, rfl⟩
  · cases manager.roles.find? fun role ↦ role.roleId = roleId with
    | none => exact ⟨rfl, rfl, rfl⟩
    | some role =>
      dsimp only
      split_ifs <;> exact ⟨rfl, rfl, rfl⟩

/-- The users after a call on a user. -/
theorem users_onUser {userId : UInt32} {accepts : User → Bool} {change : User → User} :
    (manager.onUser userId accepts change).1.users =
      if userId = 0 then manager.users
      else updateFirst (fun user ↦ user.userId = userId)
        (fun user ↦ if accepts user then change user else user) manager.users := by
  rw [AuthManager.onUser]
  by_cases hid : userId = 0
  · rw [if_pos hid, if_pos hid]
  rw [if_neg hid, if_neg hid]
  cases hfind : manager.getUser userId with
  | none => exact (updateFirst_of_find?_eq_none hfind).symm
  | some user =>
    dsimp only
    split_ifs with haccepts
    · exact updateFirst_congr hfind (if_pos haccepts).symm
    · refine (updateFirst_eq_self hfind ?_).symm
      exact if_neg haccepts

/-- The roles after a call on a role. -/
theorem roles_onRole {roleId : UInt32} {accepts : Role → Bool} {change : Role → Role} :
    (manager.onRole roleId accepts change).1.roles =
      if roleId = 0 then manager.roles
      else updateFirst (fun role ↦ role.roleId = roleId)
        (fun role ↦ if accepts role then change role else role) manager.roles := by
  rw [AuthManager.onRole]
  by_cases hid : roleId = 0
  · rw [if_pos hid, if_pos hid]
  rw [if_neg hid, if_neg hid]
  cases hfind : manager.roles.find? fun role ↦ role.roleId = roleId with
  | none => exact (updateFirst_of_find?_eq_none hfind).symm
  | some role =>
    dsimp only
    split_ifs with haccepts
    · exact updateFirst_congr hfind (if_pos haccepts).symm
    · refine (updateFirst_eq_self hfind ?_).symm
      exact if_neg haccepts

/-- The user with an id after a call on a user that keeps ids. -/
theorem getUser_onUser {userId : UInt32} {accepts : User → Bool} {change : User → User}
    (hkeep : ∀ user, (change user).userId = user.userId) (other : UInt32) :
    (manager.onUser userId accepts change).1.getUser other =
      if userId ≠ 0 ∧ other = userId then
        (manager.getUser other).map fun user ↦ if accepts user then change user else user
      else manager.getUser other := by
  have hkept : ∀ user, (if accepts user then change user else user).userId = user.userId := by
    intro user
    split_ifs
    · exact hkeep user
    · rfl
  rw [AuthManager.getUser, users_onUser]
  by_cases hid : userId = 0
  · rw [if_pos hid, if_neg fun hboth ↦ hboth.1 hid, AuthManager.getUser]
  · rw [if_neg hid, find?_key_updateFirst hkept, AuthManager.getUser]
    exact if_congr (and_iff_right hid).symm rfl rfl

/-- A call on a user is served exactly when the user is there and accepts it. -/
theorem onUser_eq_zero_iff {userId : UInt32} {accepts : User → Bool} {change : User → User} :
    (manager.onUser userId accepts change).2 = 0 ↔
      userId ≠ 0 ∧ ∃ user, manager.getUser userId = some user ∧ accepts user = true := by
  rw [AuthManager.onUser]
  by_cases hid : userId = 0
  · simp [hid]
  · cases manager.getUser userId with
    | none => simp [hid]
    | some user => by_cases haccepts : accepts user = true <;> simp [hid, haccepts]

/-- A call on a role is served exactly when the role is there and accepts it. -/
theorem onRole_eq_zero_iff {roleId : UInt32} {accepts : Role → Bool} {change : Role → Role} :
    (manager.onRole roleId accepts change).2 = 0 ↔
      roleId ≠ 0 ∧ ∃ role, manager.roles.find? (fun role ↦ role.roleId = roleId) = some role ∧
        accepts role = true := by
  rw [AuthManager.onRole]
  by_cases hid : roleId = 0
  · simp [hid]
  · cases manager.roles.find? fun role ↦ role.roleId = roleId with
    | none => simp [hid]
    | some role => by_cases haccepts : accepts role = true <;> simp [hid, haccepts]

/-- A call on a user that is not served changes nothing. -/
theorem onUser_of_refused {userId : UInt32} {accepts : User → Bool} {change : User → User}
    (hrefused : (manager.onUser userId accepts change).2 ≠ 0) :
    (manager.onUser userId accepts change).1 = manager := by
  rw [AuthManager.onUser] at hrefused ⊢
  by_cases hid : userId = 0
  · rw [if_pos hid]
  · rw [if_neg hid] at hrefused ⊢
    cases hfind : manager.getUser userId with
    | none => rfl
    | some user =>
      rw [hfind] at hrefused
      dsimp only at hrefused ⊢
      split_ifs at hrefused ⊢
      · exact absurd rfl hrefused
      · rfl

/-- A call on a role that is not served changes nothing. -/
theorem onRole_of_refused {roleId : UInt32} {accepts : Role → Bool} {change : Role → Role}
    (hrefused : (manager.onRole roleId accepts change).2 ≠ 0) :
    (manager.onRole roleId accepts change).1 = manager := by
  rw [AuthManager.onRole] at hrefused ⊢
  by_cases hid : roleId = 0
  · rw [if_pos hid]
  · rw [if_neg hid] at hrefused ⊢
    cases hfind : manager.roles.find? fun role ↦ role.roleId = roleId with
    | none => rfl
    | some role =>
      rw [hfind] at hrefused
      dsimp only at hrefused ⊢
      split_ifs at hrefused ⊢
      · exact absurd rfl hrefused
      · rfl

/-- A call on sessions or tokens leaves users, roles and their counters alone. -/
structure SameAccounts (manager after : AuthManager) : Prop where
  users : after.users = manager.users
  roles : after.roles = manager.roles
  nextRoleId : after.nextRoleId = manager.nextRoleId

theorem sameAccounts_sessionCreate (userId : UInt32) (method : AuthenticationMethod) :
    SameAccounts manager (authSessionCreate manager userId method).1 := by
  rw [authSessionCreate]
  split_ifs <;> exact ⟨rfl, rfl, rfl⟩

theorem sameAccounts_sessionDestroy (sessionId : UInt32) :
    SameAccounts manager (authSessionDestroy manager sessionId).1 := by
  rw [authSessionDestroy]
  by_cases hid : sessionId = 0
  · rw [if_pos hid]
    exact ⟨rfl, rfl, rfl⟩
  · rw [if_neg hid]
    cases manager.getSession sessionId <;> exact ⟨rfl, rfl, rfl⟩

theorem sameAccounts_sessionAuthenticate (sessionId : UInt32) (credentials : List UInt8) :
    SameAccounts manager (authSessionAuthenticate manager sessionId credentials).1 := by
  rw [authSessionAuthenticate]
  by_cases hid : sessionId = 0
  · rw [if_pos hid]
    exact ⟨rfl, rfl, rfl⟩
  · rw [if_neg hid]
    cases manager.getSession sessionId with
    | none => exact ⟨rfl, rfl, rfl⟩
    | some session =>
      dsimp only
      split_ifs <;> exact ⟨rfl, rfl, rfl⟩

theorem sameAccounts_sessionVerifyMfa (sessionId : UInt32) :
    SameAccounts manager (authSessionVerifyMfa manager sessionId).1 := by
  rw [authSessionVerifyMfa]
  by_cases hid : sessionId = 0
  · rw [if_pos hid]
    exact ⟨rfl, rfl, rfl⟩
  · rw [if_neg hid]
    cases manager.getSession sessionId with
    | none => exact ⟨rfl, rfl, rfl⟩
    | some session =>
      dsimp only
      split_ifs <;> exact ⟨rfl, rfl, rfl⟩

theorem sameAccounts_tokenGenerate (userId : UInt32) (tokenType : TokenType) :
    SameAccounts manager (authTokenGenerate manager userId tokenType).1 := by
  rw [authTokenGenerate]
  split_ifs <;> exact ⟨rfl, rfl, rfl⟩

theorem sameAccounts_tokenValidate (tokenId : UInt32) :
    SameAccounts manager (authTokenValidate manager tokenId).1 := by
  rw [authTokenValidate]
  cases manager.validToken tokenId <;> exact ⟨rfl, rfl, rfl⟩

theorem sameAccounts_tokenRevoke (tokenId : UInt32) :
    SameAccounts manager (authTokenRevoke manager tokenId).1 := by
  rw [authTokenRevoke]
  split_ifs <;> exact ⟨rfl, rfl, rfl⟩

end OneOS.Auth
