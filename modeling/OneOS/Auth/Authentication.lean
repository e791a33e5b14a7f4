import OneOS.Auth.AuthManager
import OneOS.Foundation.RowRecords
import OneOS.Foundation.Runs

/-!
# Who is authenticated

An authentication is to succeed only for a user that is there, active and not locked, and with the
credentials that are stored for it; and a token that is accepted is to belong to a user that is
there and not locked.

`auth_session_authenticate` reads neither the credentials nor the user, so that a single session
breaks this, and tokens are never compared with the users. `authSound_iff` says exactly in which
runs authentication is sound: no session is ever opened, tokens are generated only for users that
are there and not locked, and a user is locked or deleted only while no valid token names it.
-/

set_option autoImplicit false
set_option relaxedAutoImplicit false

namespace OneOS.Auth

open Foundation

/-! ### Sound authentication -/

/-- The first user with an id is there and not locked. -/
def UserUnlocked (users : List User) (userId : UInt32) : Prop :=
  Finds User.userId (fun user ↦ user.isLocked = false) users userId

/-- An authentication that succeeds is one of an active user that is not locked, with its
credentials, and a token that is accepted is one of a user that is not locked. -/
structure AuthSound (manager : AuthManager) : Prop where
  authenticated : ∀ sessionId credentials,
    (authSessionAuthenticate manager sessionId credentials).2 = 0 →
      ∃ session user, manager.getSession sessionId = some session ∧
        manager.getUser session.userId = some user ∧ user.isActive = true ∧
          user.isLocked = false ∧ user.passwordHash = credentials
  validated : ∀ tokenId, (authTokenValidate manager tokenId).2 = 0 →
    ∃ token, manager.validToken tokenId = some token ∧ UserUnlocked manager.users token.userId
  verified : ∀ tokenValue, authVerifyToken manager tokenValue = 0 →
    ∃ token, manager.tokenWithValue tokenValue = some token ∧
      UserUnlocked manager.users token.userId

/-- A valid token names the user. -/
def AuthManager.TokenFor (manager : AuthManager) (userId : UInt32) : Prop :=
  ∃ token ∈ manager.tokens, token.isValid = true ∧ token.userId = userId

/-- The condition on a call. No session is created that can be named. A token is generated only for
a user that is there and not locked. A user that a valid token names is not locked, and is deleted
only when the next user with its id is not locked. -/
def AuthCall.KeepsOwners (manager : AuthManager) : AuthCall → Prop
  | .userDelete userId => userId ≠ 0 → manager.TokenFor userId →
      UserUnlocked (manager.users.eraseP fun user ↦ user.userId = userId) userId
  | .userLock userId => userId ≠ 0 → ¬ manager.TokenFor userId
  | .sessionCreate userId _ =>
    userId ≠ 0 → manager.sessions.length < maxAuthSessions → manager.nextSessionId = 0
  | .tokenGenerate userId _ =>
    userId ≠ 0 → manager.tokens.length < maxAuthTokens → UserUnlocked manager.users userId
  | _ => True

/-- What is kept in the runs in which authentication is sound: there is no session that can be
named, every session is unauthenticated, every valid token belongs to a user that is not locked, and
the value of a token tells its user. -/
structure Secured (manager : AuthManager) : Prop where
  unnamed : ∀ session ∈ manager.sessions, session.sessionId = 0
  unauthenticated : ∀ session ∈ manager.sessions, session.state = .unauthenticated
  owned : ∀ token ∈ manager.tokens, token.isValid = true →
    UserUnlocked manager.users token.userId
  values : ∀ token ∈ manager.tokens, token.tokenValue = tokenValueOf token.tokenId token.userId

variable {manager after : AuthManager}

theorem tokenValueOf_inj {tokenId userId tokenId' userId' : UInt32}
    (hequal : tokenValueOf tokenId userId = tokenValueOf tokenId' userId') : userId = userId' := by
  have hpair : decimal tokenId.toNat ++ ofChars ['_'] ++ decimal userId.toNat =
      decimal tokenId'.toNat ++ ofChars ['_'] ++ decimal userId'.toNat := by
    rw [tokenValueOf, tokenValueOf] at hequal
    simpa only [List.append_assoc, List.append_cancel_left_eq] using hequal
  exact UInt32.toNat_inj.mp (decimal_pair_inj hpair).2

theorem authVerifyToken_eq_zero_iff {tokenValue : CString} :
    authVerifyToken manager tokenValue = 0 ↔
      ∃ token, manager.tokenWithValue tokenValue = some token := by
  rw [authVerifyToken]
  cases manager.tokenWithValue tokenValue with
  | none => simp
  | some token => simp

theorem authTokenValidate_eq_zero_iff {tokenId : UInt32} :
    (authTokenValidate manager tokenId).2 = 0 ↔
      ∃ token, manager.validToken tokenId = some token := by
  rw [authTokenValidate]
  cases manager.validToken tokenId with
  | none => simp
  | some token => simp

/-- A session that is found and unauthenticated is authenticated with any credentials. -/
theorem authenticate_of_unauthenticated {sessionId : UInt32} {session : AuthenticationSession}
    (hid : sessionId ≠ 0) (hfind : manager.getSession sessionId = some session)
    (hstate : session.state = .unauthenticated) (credentials : List UInt8) :
    (authSessionAuthenticate manager sessionId credentials).2 = 0 := by
  rw [authSessionAuthenticate, if_neg hid, hfind]
  dsimp only
  rw [if_pos (.inl hstate)]

/-- Without a session that can be named there is none to be found. -/
theorem getSession_eq_none (hunnamed : ∀ session ∈ manager.sessions, session.sessionId = 0)
    {sessionId : UInt32} (hid : sessionId ≠ 0) : manager.getSession sessionId = none := by
  refine List.find?_eq_none.mpr fun session hsession hfound ↦ hid ?_
  exact (of_decide_eq_true hfound).symm.trans (hunnamed session hsession)

/-- Without a session that can be named no authentication succeeds. -/
theorem authenticate_of_unnamed (hunnamed : ∀ session ∈ manager.sessions, session.sessionId = 0)
    (sessionId : UInt32) (credentials : List UInt8) :
    authSessionAuthenticate manager sessionId credentials = (manager, -1) := by
  rw [authSessionAuthenticate]
  split_ifs with hid
  · rfl
  · rw [getSession_eq_none hunnamed hid]

theorem authSound_of_secured (hsecured : Secured manager) : AuthSound manager where
  authenticated := by
    intro sessionId credentials hzero
    rw [authenticate_of_unnamed hsecured.unnamed] at hzero
    exact absurd hzero (show ¬ (-1 : Int) = 0 by decide)
  validated := by
    intro tokenId hzero
    obtain ⟨token, hfind⟩ := authTokenValidate_eq_zero_iff.mp hzero
    refine ⟨token, hfind, ?_⟩
    rw [AuthManager.validToken] at hfind
    split_ifs at hfind
    have hvalid := List.find?_some hfind
    rw [Bool.and_eq_true] at hvalid
    exact hsecured.owned token (List.mem_of_find?_eq_some hfind) hvalid.2
  verified := by
    intro tokenValue hzero
    obtain ⟨token, hfind⟩ := authVerifyToken_eq_zero_iff.mp hzero
    have hvalid := List.find?_some hfind
    rw [Bool.and_eq_true] at hvalid
    exact ⟨token, hfind, hsecured.owned token (List.mem_of_find?_eq_some hfind) hvalid.1⟩

/-- Assumes: every session is unauthenticated and the value of a token tells its user.
Authentication is sound only when there is no session that can be named and every valid token
belongs to a user that is not locked. -/
theorem secured_of_authSound
    (hstates : ∀ session ∈ manager.sessions, session.state = .unauthenticated)
    (hvalues : ∀ token ∈ manager.tokens,
      token.tokenValue = tokenValueOf token.tokenId token.userId)
    (hsound : AuthSound manager) : Secured manager := by
  refine ⟨fun session hsession ↦ ?_, hstates, fun token htoken hvalid ↦ ?_, hvalues⟩
  · by_contra hid
    -- the session is found, and accepts two different credentials
    obtain ⟨found, hfind⟩ : ∃ found, manager.getSession session.sessionId = some found :=
      Option.isSome_iff_exists.mp (List.find?_isSome.mpr ⟨session, hsession, decide_eq_true rfl⟩)
    have hstate := hstates found (List.mem_of_find?_eq_some hfind)
    obtain ⟨_, user, hsame, huser, -, -, hempty⟩ := hsound.authenticated session.sessionId []
      (authenticate_of_unauthenticated hid hfind hstate [])
    obtain ⟨_, user', hsame', huser', -, -, hbyte⟩ := hsound.authenticated session.sessionId [0]
      (authenticate_of_unauthenticated hid hfind hstate [0])
    rw [← Option.some.inj (hsame.symm.trans hsame'), huser, Option.some.injEq] at huser'
    rw [← huser', hempty] at hbyte
    exact absurd hbyte (List.cons_ne_nil _ _).symm
  · obtain ⟨found, hfind⟩ : ∃ found, manager.tokenWithValue token.tokenValue = some found := by
      refine Option.isSome_iff_exists.mp (List.find?_isSome.mpr ⟨token, htoken, ?_⟩)
      rw [hvalid, Bool.true_and]
      exact decide_eq_true rfl
    obtain ⟨_, hsame, hunlocked⟩ :=
      hsound.verified token.tokenValue (authVerifyToken_eq_zero_iff.mpr ⟨found, hfind⟩)
    rw [← Option.some.inj (hfind.symm.trans hsame)] at hunlocked
    have hvalue := List.find?_some hfind
    rw [Bool.and_eq_true, decide_eq_true_iff, hvalues token htoken,
      hvalues found (List.mem_of_find?_eq_some hfind)] at hvalue
    exact tokenValueOf_inj hvalue.2 ▸ hunlocked

/-! ### What one call does -/

/-- What is kept depends on users, tokens and sessions only. -/
theorem Secured.congr (hsecured : Secured manager) (husers : after.users = manager.users)
    (htokens : after.tokens = manager.tokens) (hsessions : after.sessions = manager.sessions) :
    Secured after where
  unnamed := hsessions.symm ▸ hsecured.unnamed
  unauthenticated := hsessions.symm ▸ hsecured.unauthenticated
  owned := by
    rw [husers, htokens]
    exact hsecured.owned
  values := htokens.symm ▸ hsecured.values

/-- Assumes: what is to be kept. When the users change, it is kept exactly when every valid token
belongs to a user that is not locked. -/
theorem Secured.users_iff (hsecured : Secured manager) (after : AuthManager)
    (htokens : after.tokens = manager.tokens)
    (hsessions : after.sessions = manager.sessions) :
    Secured after ↔ ∀ userId, manager.TokenFor userId → UserUnlocked after.users userId := by
  constructor
  · rintro hafter _ ⟨token, htoken, hvalid, rfl⟩
    exact hafter.owned token (htokens.symm ▸ htoken) hvalid
  · intro howned
    refine ⟨hsessions.symm ▸ hsecured.unnamed, hsessions.symm ▸ hsecured.unauthenticated, ?_,
      htokens.symm ▸ hsecured.values⟩
    rw [htokens]
    exact fun token htoken hvalid ↦ howned token.userId ⟨token, htoken, hvalid, rfl⟩

section Calls

variable (hsecured : Secured manager)
include hsecured

theorem secured_userCreate (passwordHash : List UInt8) :
    Secured (userCreate manager passwordHash).1 := by
  rw [userCreate]
  by_cases hfull : maxAuthUsers ≤ manager.users.length
  · rw [if_pos hfull]
    exact hsecured
  · rw [if_neg hfull]
    refine (hsecured.users_iff _ ?_ ?_).mpr ?_
    · rfl
    · rfl
    · rintro _ ⟨token, htoken, hvalid, rfl⟩
      exact (hsecured.owned token htoken hvalid).concat

theorem secured_userDelete_iff (userId : UInt32) :
    Secured (userDelete manager userId).1 ↔ (AuthCall.userDelete userId).KeepsOwners manager := by
  rw [userDelete, AuthCall.KeepsOwners]
  by_cases hid : userId = 0
  · rw [if_pos hid]
    exact iff_of_true hsecured fun hnonzero ↦ absurd hid hnonzero
  rw [if_neg hid, forall_prop_of_true hid]
  by_cases hany : (manager.users.any fun user ↦ user.userId = userId) = true
  · rw [if_pos hany]
    refine (hsecured.users_iff _ ?_ ?_).trans ⟨fun hafter ↦ hafter userId, ?_⟩
    · rfl
    · rfl
    · intro hnext other hother
      by_cases hsame : other = userId
      · rw [hsame] at hother ⊢
        exact hnext hother
      · obtain ⟨token, htoken, hvalid, rfl⟩ := hother
        obtain ⟨user, hfind, hunlocked⟩ := hsecured.owned token htoken hvalid
        exact ⟨user, (find?_key_eraseP_of_ne hsame).trans hfind, hunlocked⟩
  · rw [if_neg hany]
    refine iff_of_true hsecured ?_
    -- no user has the id, so no valid token names it
    rintro ⟨token, htoken, hvalid, rfl⟩
    obtain ⟨user, hfind, -⟩ := hsecured.owned token htoken hvalid
    refine absurd (List.any_eq_true.mpr ⟨user, List.mem_of_find?_eq_some hfind, ?_⟩) hany
    exact decide_eq_true (key_of_find? hfind)

/-- A call on a user that keeps the id and that the user does not refuse. -/
theorem secured_onUser_iff {userId : UInt32} (accepts : User → Bool) (change : User → User)
    (hkeep : ∀ user, (change user).userId = user.userId) :
    Secured (manager.onUser userId accepts change).1 ↔
      (userId ≠ 0 → manager.TokenFor userId → ∀ user, manager.getUser userId = some user →
        accepts user = true → (change user).isLocked = false) := by
  obtain ⟨htokens, hsessions, -⟩ := onUser_tables manager userId accepts change
  rw [hsecured.users_iff _ htokens hsessions]
  constructor
  · intro hafter hid htoken user hfind haccepts
    obtain ⟨found, hfound, hunlocked⟩ := hafter userId htoken
    have hgot : (manager.onUser userId accepts change).1.getUser userId = some found := hfound
    rw [getUser_onUser hkeep, if_pos ⟨hid, rfl⟩, hfind, Option.map_some, if_pos haccepts,
      Option.some.injEq] at hgot
    rw [hgot]
    exact hunlocked
  · rintro hchange other hother
    have hbefore : ∃ user, manager.getUser other = some user ∧ user.isLocked = false := by
      obtain ⟨token, htoken, hvalid, rfl⟩ := hother
      exact hsecured.owned token htoken hvalid
    obtain ⟨user, hfind, hunlocked⟩ := hbefore
    have hgot : (manager.onUser userId accepts change).1.getUser other = _ :=
      getUser_onUser hkeep other
    by_cases hsame : userId ≠ 0 ∧ other = userId
    · rw [if_pos hsame, hfind, Option.map_some] at hgot
      refine ⟨_, hgot, ?_⟩
      split_ifs with haccepts
      · rw [hsame.2] at hother hfind
        exact hchange hsame.1 hother user hfind haccepts
      · exact hunlocked
    · rw [if_neg hsame, hfind] at hgot
      exact ⟨user, hgot, hunlocked⟩

theorem secured_userLock_iff (userId : UInt32) :
    Secured (userLock manager userId).1 ↔ (AuthCall.userLock userId).KeepsOwners manager := by
  rw [userLock, secured_onUser_iff hsecured, AuthCall.KeepsOwners]
  · refine forall_congr' fun hid ↦ ⟨fun hlocked htoken ↦ ?_, fun hnone htoken ↦ absurd htoken hnone⟩
    obtain ⟨token, hmem, hvalid, rfl⟩ := htoken
    obtain ⟨user, hfind, -⟩ := hsecured.owned token hmem hvalid
    exact absurd (hlocked ⟨token, hmem, hvalid, rfl⟩ user hfind rfl) Bool.false_ne_true.symm
  · exact fun _ ↦ rfl

theorem secured_userUnlock (userId : UInt32) : Secured (userUnlock manager userId).1 := by
  rw [userUnlock, secured_onUser_iff hsecured]
  · exact fun _ _ _ _ _ ↦ rfl
  · exact fun _ ↦ rfl

/-- A call on a user that keeps the id and the lock. -/
theorem secured_onUser (userId : UInt32) (accepts : User → Bool) (change : User → User)
    (hkeep : ∀ user, (change user).userId = user.userId)
    (hlock : ∀ user, (change user).isLocked = user.isLocked) :
    Secured (manager.onUser userId accepts change).1 := by
  refine (secured_onUser_iff hsecured accepts change hkeep).mpr ?_
  rintro - ⟨token, htoken, hvalid, rfl⟩ user hfind -
  obtain ⟨found, hfound, hunlocked⟩ := hsecured.owned token htoken hvalid
  rw [hlock, ← Option.some.inj (hfound.symm.trans hfind)]
  exact hunlocked

theorem secured_userAssignRole (userId roleId : UInt32) :
    Secured (userAssignRole manager userId roleId).1 := by
  rw [userAssignRole]
  split_ifs
  · exact hsecured
  · exact secured_onUser hsecured userId _ _ (fun _ ↦ rfl) fun _ ↦ rfl

theorem secured_userRevokeRole (userId roleId : UInt32) :
    Secured (userRevokeRole manager userId roleId).1 := by
  rw [userRevokeRole]
  split_ifs
  · exact hsecured
  · exact secured_onUser hsecured userId _ _ (fun _ ↦ rfl) fun _ ↦ rfl

theorem secured_onRole (roleId : UInt32) (accepts : Role → Bool) (change : Role → Role) :
    Secured (manager.onRole roleId accepts change).1 := by
  obtain ⟨htokens, hsessions, husers⟩ := onRole_tables manager roleId accepts change
  exact hsecured.congr husers htokens hsessions

theorem secured_roleCreate : Secured (roleCreate manager).1 := by
  rw [roleCreate]
  split_ifs <;> exact hsecured.congr rfl rfl rfl

theorem secured_sessionCreate_iff (userId : UInt32) (method : AuthenticationMethod) :
    Secured (authSessionCreate manager userId method).1 ↔
      (AuthCall.sessionCreate userId method).KeepsOwners manager := by
  rw [authSessionCreate, AuthCall.KeepsOwners]
  by_cases hrefused : maxAuthSessions ≤ manager.sessions.length ∨ userId = 0
  · rw [if_pos hrefused]
    refine iff_of_true hsecured fun hid hroom ↦ ?_
    exact absurd hrefused (not_or.mpr ⟨Nat.not_le.mpr hroom, hid⟩)
  obtain ⟨hroom, hid⟩ := not_or.mp hrefused
  rw [if_neg hrefused, forall_prop_of_true hid, forall_prop_of_true (Nat.not_le.mp hroom)]
  constructor
  · intro hafter
    exact hafter.unnamed _ (List.mem_append_right _ List.mem_cons_self)
  · intro hzero
    refine ⟨?_, ?_, hsecured.owned, hsecured.values⟩
    · exact List.forall_mem_append.mpr ⟨hsecured.unnamed, List.forall_mem_singleton.mpr hzero⟩
    · exact List.forall_mem_append.mpr ⟨hsecured.unauthenticated, List.forall_mem_singleton.mpr rfl⟩

theorem secured_sessionDestroy (sessionId : UInt32) :
    Secured (authSessionDestroy manager sessionId).1 := by
  rw [authSessionDestroy]
  by_cases hid : sessionId = 0
  · rw [if_pos hid]
    exact hsecured
  · rw [if_neg hid, getSession_eq_none hsecured.unnamed hid]
    exact hsecured

theorem secured_sessionVerifyMfa (sessionId : UInt32) :
    Secured (authSessionVerifyMfa manager sessionId).1 := by
  rw [authSessionVerifyMfa]
  by_cases hid : sessionId = 0
  · rw [if_pos hid]
    exact hsecured
  · rw [if_neg hid, getSession_eq_none hsecured.unnamed hid]
    exact hsecured

theorem secured_tokenGenerate_iff (userId : UInt32) (tokenType : TokenType) :
    Secured (authTokenGenerate manager userId tokenType).1 ↔
      (AuthCall.tokenGenerate userId tokenType).KeepsOwners manager := by
  rw [authTokenGenerate, AuthCall.KeepsOwners]
  by_cases hrefused : maxAuthTokens ≤ manager.tokens.length ∨ userId = 0
  · rw [if_pos hrefused]
    refine iff_of_true hsecured fun hid hroom ↦ ?_
    exact absurd hrefused (not_or.mpr ⟨Nat.not_le.mpr hroom, hid⟩)
  obtain ⟨hroom, hid⟩ := not_or.mp hrefused
  rw [if_neg hrefused, forall_prop_of_true hid, forall_prop_of_true (Nat.not_le.mp hroom)]
  constructor
  · intro hafter
    exact hafter.owned _ (List.mem_append_right _ List.mem_cons_self) rfl
  · intro hunlocked
    refine ⟨hsecured.unnamed, hsecured.unauthenticated, ?_, ?_⟩
    · refine List.forall_mem_append.mpr ⟨hsecured.owned, List.forall_mem_singleton.mpr ?_⟩
      exact fun _ ↦ hunlocked
    · exact List.forall_mem_append.mpr ⟨hsecured.values, List.forall_mem_singleton.mpr rfl⟩

/-- A change of tokens that makes none valid, and keeps the user, the id and the value. -/
theorem secured_tokens (test : AuthenticationToken → Bool)
    (change : AuthenticationToken → AuthenticationToken)
    (hvalid : ∀ token, (change token).isValid = true → token.isValid = true)
    (huser : ∀ token, (change token).userId = token.userId)
    (hvalue : ∀ token, (change token).tokenId = token.tokenId ∧
      (change token).tokenValue = token.tokenValue) :
    Secured { manager with tokens := updateFirst test change manager.tokens } := by
  refine ⟨hsecured.unnamed, hsecured.unauthenticated, ?_, ?_⟩
  · refine (forall_mem_updateFirst_iff hsecured.owned).mpr fun token hfind hafter ↦ ?_
    rw [huser]
    exact hsecured.owned token (List.mem_of_find?_eq_some hfind) (hvalid token hafter)
  · refine (forall_mem_updateFirst_iff hsecured.values).mpr fun token hfind ↦ ?_
    rw [(hvalue token).1, (hvalue token).2, huser]
    exact hsecured.values token (List.mem_of_find?_eq_some hfind)

theorem secured_tokenValidate (tokenId : UInt32) :
    Secured (authTokenValidate manager tokenId).1 := by
  rw [authTokenValidate]
  cases manager.validToken tokenId with
  | none => exact hsecured
  | some token =>
    exact secured_tokens hsecured _ _ (fun _ hvalid ↦ hvalid) (fun _ ↦ rfl) fun _ ↦ ⟨rfl, rfl⟩

theorem secured_tokenRevoke (tokenId : UInt32) : Secured (authTokenRevoke manager tokenId).1 := by
  rw [authTokenRevoke]
  split_ifs
  · exact hsecured
  · exact secured_tokens hsecured _ _ (fun _ hvalid ↦ absurd hvalid Bool.false_ne_true)
      (fun _ ↦ rfl) fun _ ↦ ⟨rfl, rfl⟩
  · exact hsecured

end Calls

/-- From a manager in which all this is kept, a call keeps it exactly when it meets the condition.
-/
theorem secured_step_iff (hsecured : Secured manager) (call : AuthCall) :
    Secured (authStep manager call) ↔ call.KeepsOwners manager := by
  cases call with
  | userCreate passwordHash => exact iff_of_true (secured_userCreate hsecured passwordHash) trivial
  | userDelete userId => exact secured_userDelete_iff hsecured userId
  | userLock userId => exact secured_userLock_iff hsecured userId
  | userUnlock userId => exact iff_of_true (secured_userUnlock hsecured userId) trivial
  | userAssignRole userId roleId =>
    exact iff_of_true (secured_userAssignRole hsecured userId roleId) trivial
  | userRevokeRole userId roleId =>
    exact iff_of_true (secured_userRevokeRole hsecured userId roleId) trivial
  | roleCreate => exact iff_of_true (secured_roleCreate hsecured) trivial
  | roleAddPermission roleId permission =>
    exact iff_of_true (secured_onRole hsecured roleId _ _) trivial
  | roleRemovePermission roleId permission =>
    exact iff_of_true (secured_onRole hsecured roleId _ _) trivial
  | sessionCreate userId method => exact secured_sessionCreate_iff hsecured userId method
  | sessionDestroy sessionId =>
    exact iff_of_true (secured_sessionDestroy hsecured sessionId) trivial
  | sessionAuthenticate sessionId credentials =>
    refine iff_of_true ?_ trivial
    rw [authStep, authenticate_of_unnamed hsecured.unnamed]
    exact hsecured
  | sessionVerifyMfa sessionId =>
    exact iff_of_true (secured_sessionVerifyMfa hsecured sessionId) trivial
  | tokenGenerate userId tokenType => exact secured_tokenGenerate_iff hsecured userId tokenType
  | tokenValidate tokenId => exact iff_of_true (secured_tokenValidate hsecured tokenId) trivial
  | tokenRevoke tokenId => exact iff_of_true (secured_tokenRevoke hsecured tokenId) trivial

/-- From a manager in which all this is kept, a call after which authentication is sound keeps it.
-/
theorem secured_step_of_authSound (hsecured : Secured manager) (call : AuthCall)
    (hsound : AuthSound (authStep manager call)) : Secured (authStep manager call) := by
  cases call with
  | userDelete userId =>
    refine secured_of_authSound ?_ ?_ hsound
    · rw [authStep, userDelete]
      split_ifs <;> exact hsecured.unauthenticated
    · rw [authStep, userDelete]
      split_ifs <;> exact hsecured.values
  | userLock userId =>
    obtain ⟨htokens, hsessions, -⟩ :=
      onUser_tables manager userId (fun _ ↦ true) ({ · with isLocked := true })
    exact secured_of_authSound (hsessions.symm ▸ hsecured.unauthenticated)
      (htokens.symm ▸ hsecured.values) hsound
  | sessionCreate userId method =>
    refine secured_of_authSound ?_ ?_ hsound
    · rw [authStep, authSessionCreate]
      split_ifs
      · exact hsecured.unauthenticated
      · exact List.forall_mem_append.mpr
          ⟨hsecured.unauthenticated, List.forall_mem_singleton.mpr rfl⟩
    · rw [authStep, authSessionCreate]
      split_ifs <;> exact hsecured.values
  | tokenGenerate userId tokenType =>
    refine secured_of_authSound ?_ ?_ hsound
    · rw [authStep, authTokenGenerate]
      split_ifs <;> exact hsecured.unauthenticated
    · rw [authStep, authTokenGenerate]
      split_ifs
      · exact hsecured.values
      · exact List.forall_mem_append.mpr ⟨hsecured.values, List.forall_mem_singleton.mpr rfl⟩
  | _ => exact (secured_step_iff hsecured _).mpr trivial

/-! ### Every run -/

/-- In every run, authentication is sound in every state exactly when every call meets the
condition. -/
theorem authSound_iff (nextUserId nextRoleId nextTokenId nextSessionId : UInt32)
    (calls : List AuthCall) :
    AlongRun authStep AuthSound
        (authManagerInit nextUserId nextRoleId nextTokenId nextSessionId) calls ↔
      EveryStep authStep (fun manager call ↦ call.KeepsOwners manager)
        (authManagerInit nextUserId nextRoleId nextTokenId nextSessionId) calls := by
  have hstart : Secured (authManagerInit nextUserId nextRoleId nextTokenId nextSessionId) :=
    ⟨List.forall_mem_nil _, List.forall_mem_nil _, List.forall_mem_nil _, List.forall_mem_nil _⟩
  rw [alongRun_iff_of_stronger Secured (fun _ ↦ authSound_of_secured)
    (fun _ call hsecured ↦ secured_step_of_authSound hsecured call) hstart]
  exact alongRun_iff_everyStep (fun _ ↦ True) (fun _ _ ↦ True) (fun _ _ _ _ ↦ trivial)
    (fun _ call _ _ hsecured ↦ secured_step_iff hsecured call) trivial hstart fun _ _ _ ↦ trivial

/-- A user is locked, and a session is opened for it. Any credentials authenticate the session. -/
theorem not_authSound_locked_user :
    ¬ AlongRun authStep AuthSound (authManagerInit 1 1 1 1)
      [.userCreate [1], .userLock 1, .sessionCreate 1 .password] := by
  intro halong
  obtain ⟨session, user, hsession, huser, -, hunlocked, -⟩ :=
    (halong _ (List.prefix_refl _)).authenticated 1 [7] (by decide)
  have hone : session = ⟨1, 1, .password, .unauthenticated, 0, false, false⟩ :=
    Option.some.inj (hsession.symm.trans (by decide))
  rw [hone] at huser
  have hlocked : user = ⟨1, [1], [], true, true⟩ :=
    Option.some.inj (huser.symm.trans (by decide))
  rw [hlocked] at hunlocked
  exact Bool.false_ne_true hunlocked.symm

end OneOS.Auth
