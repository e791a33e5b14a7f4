import OneOS.Foundation.Runs
import OneOS.Foundation.Table

/-!
# Negotiating a cipher suite

The sessions and the supported suites of `secure-communication/tls_manager.c`. A client hands over a
list of suites, and the first of them that is supported is to be taken. The outer loop of
`tls_cipher_suite_negotiate` stops at the number of supported suites as well as at the end of the
client's list, so that only so many entries of the client's list are looked at.

`negotiatesFirstShared_iff` says exactly when the right suite is taken all the same, in every state
of a manager and for every list of a client: when there is none to be taken, or one stands among the
entries that are looked at. Both counts are the lengths of lists here.

Left out are the checks of pointers, records, alerts, versions, times and random numbers, which have
no part in it.
-/

set_option autoImplicit false
set_option relaxedAutoImplicit false

namespace OneOS.SecureCommunication

open Foundation

/-! ### The manager -/

/-- `MAX_TLS_SESSIONS`. -/
def maxTlsSessions : ℕ := 512

/-- `MAX_CIPHERS_PER_SESSION`. -/
def maxCiphersPerSession : ℕ := 8

/-- `TLSState`. -/
inductive TlsState
  | idle
  | handshake
  | established
  | closing
  | closed
  | error
  deriving DecidableEq, Repr

/-- `CipherSuite`. -/
inductive CipherSuite
  | aes128GcmSha256
  | aes256GcmSha384
  | chacha20Poly1305
  | rsaAes128CbcSha
  | ecdheAes256GcmSha384
  deriving DecidableEq, Repr

/-- `TLSSession`. -/
structure TlsSession where
  sessionId : UInt32
  connectionId : UInt32
  state : TlsState
  negotiatedCipher : CipherSuite
  handshakeCount : UInt32
  deriving DecidableEq, Repr

/-- `TLSManager`, with the used rows of its sessions and suites as lists, and the counter that
numbers sessions. -/
structure TlsManager where
  sessions : List TlsSession
  supportedCiphers : List CipherSuite
  totalHandshakes : UInt32
  nextSessionId : UInt32
  deriving DecidableEq, Repr

/-- `tls_manager_init`. The counter is shared by all managers of a process and keeps its value. -/
def tlsManagerInit (nextSessionId : UInt32) : TlsManager where
  sessions := []
  supportedCiphers := []
  totalHandshakes := 0
  nextSessionId := nextSessionId

/-- `tls_session_create`, returning the id or 0. -/
def tlsSessionCreate (manager : TlsManager) (connectionId : UInt32) : TlsManager × UInt32 :=
  if maxTlsSessions ≤ manager.sessions.length then (manager, 0)
  else
    ({ manager with
      sessions := manager.sessions ++
        [{ sessionId := manager.nextSessionId
           connectionId := connectionId
           state := .idle
           negotiatedCipher := .aes128GcmSha256
           handshakeCount := 0 }]
      nextSessionId := manager.nextSessionId + 1 }, manager.nextSessionId)

/-- A session with an id is there. -/
def TlsManager.hasSession (manager : TlsManager) (sessionId : UInt32) : Bool :=
  manager.sessions.any fun session ↦ session.sessionId = sessionId

/-- The manager after a change of the first session with an id. -/
def TlsManager.onSession (manager : TlsManager) (sessionId : UInt32)
    (change : TlsSession → TlsSession) : TlsManager :=
  { manager with
    sessions := updateFirst (fun session ↦ session.sessionId = sessionId) change manager.sessions }

/-- `tls_session_destroy`. -/
def tlsSessionDestroy (manager : TlsManager) (sessionId : UInt32) : TlsManager × Int :=
  if sessionId ≠ 0 ∧ manager.hasSession sessionId then
    ({ manager with
      sessions := manager.sessions.eraseP fun session ↦ session.sessionId = sessionId }, 0)
  else (manager, -1)

/-- `tls_session_start_handshake`. -/
def tlsSessionStartHandshake (manager : TlsManager) (sessionId : UInt32) : TlsManager × Int :=
  if sessionId = 0 then (manager, -1)
  else
    match manager.sessions.find? fun session ↦ session.sessionId = sessionId with
    | none => (manager, -1)
    | some session =>
      if session.state = .idle ∨ session.state = .established then
        ({ manager.onSession sessionId fun session ↦
            { session with
              state := .handshake
              handshakeCount := session.handshakeCount + 1 } with
          totalHandshakes := manager.totalHandshakes + 1 }, 0)
      else (manager, -1)

/-- `tls_session_set_state`. -/
def tlsSessionSetState (manager : TlsManager) (sessionId : UInt32) (state : TlsState) :
    TlsManager × Int :=
  if sessionId ≠ 0 ∧ manager.hasSession sessionId then
    (manager.onSession sessionId fun session ↦ { session with state := state }, 0)
  else (manager, -1)

/-- `tls_cipher_suite_add`. -/
def tlsCipherSuiteAdd (manager : TlsManager) (cipher : CipherSuite) : TlsManager × Int :=
  if maxCiphersPerSession ≤ manager.supportedCiphers.length then (manager, -1)
  else ({ manager with supportedCiphers := manager.supportedCiphers ++ [cipher] }, 0)

/-- `tls_cipher_suite_remove`. -/
def tlsCipherSuiteRemove (manager : TlsManager) (cipher : CipherSuite) : TlsManager × Int :=
  if cipher ∈ manager.supportedCiphers then
    ({ manager with supportedCiphers := manager.supportedCiphers.erase cipher }, 0)
  else (manager, -1)

/-- The suite at which the loops of `tls_cipher_suite_negotiate` stop. The outer one goes on for as
long as its index is below both counts, the inner one looks for an equal suite. -/
def TlsManager.foundCipher (manager : TlsManager) (clientCiphers : List CipherSuite) :
    Option CipherSuite :=
  (clientCiphers.take manager.supportedCiphers.length).find? fun cipher ↦
    manager.supportedCiphers.any fun supported ↦ cipher = supported

/-- `tls_cipher_suite_negotiate`. -/
def tlsCipherSuiteNegotiate (manager : TlsManager) (sessionId : UInt32)
    (clientCiphers : List CipherSuite) : TlsManager × Int :=
  if sessionId = 0 ∨ clientCiphers.length = 0 then (manager, -1)
  else if manager.hasSession sessionId then
    match manager.foundCipher clientCiphers with
    | none => (manager, -1)
    | some cipher =>
      (manager.onSession sessionId fun session ↦ { session with negotiatedCipher := cipher }, 0)
  else (manager, -1)

/-- A call to the manager. -/
inductive TlsCall
  | sessionCreate (connectionId : UInt32)
  | sessionDestroy (sessionId : UInt32)
  | startHandshake (sessionId : UInt32)
  | setState (sessionId : UInt32) (state : TlsState)
  | cipherSuiteAdd (cipher : CipherSuite)
  | cipherSuiteRemove (cipher : CipherSuite)
  | cipherSuiteNegotiate (sessionId : UInt32) (clientCiphers : List CipherSuite)
  deriving DecidableEq, Repr

/-- What a call does to the manager. -/
def tlsStep (manager : TlsManager) : TlsCall → TlsManager
  | .sessionCreate connectionId => (tlsSessionCreate manager connectionId).1
  | .sessionDestroy sessionId => (tlsSessionDestroy manager sessionId).1
  | .startHandshake sessionId => (tlsSessionStartHandshake manager sessionId).1
  | .setState sessionId state => (tlsSessionSetState manager sessionId state).1
  | .cipherSuiteAdd cipher => (tlsCipherSuiteAdd manager cipher).1
  | .cipherSuiteRemove cipher => (tlsCipherSuiteRemove manager cipher).1
  | .cipherSuiteNegotiate sessionId clientCiphers =>
    (tlsCipherSuiteNegotiate manager sessionId clientCiphers).1

/-! ### What is asked -/

/-- A suite of the client is supported. -/
def TlsManager.Shares (manager : TlsManager) (clientCiphers : List CipherSuite) : Prop :=
  ∃ cipher ∈ clientCiphers, cipher ∈ manager.supportedCiphers

/-- The first suite of a client, in its order, that is supported. -/
structure TlsManager.IsFirstShared (manager : TlsManager) (clientCiphers : List CipherSuite)
    (cipher : CipherSuite) : Prop where
  supported : cipher ∈ manager.supportedCiphers
  first : ∃ before behind, clientCiphers = before ++ cipher :: behind ∧
    ∀ other ∈ before, other ∉ manager.supportedCiphers

/-- A negotiation returns 0 exactly when a suite is shared, and then the session gets the first one;
otherwise it returns -1 and changes nothing. -/
structure NegotiatesFirstShared (manager : TlsManager) (sessionId : UInt32)
    (clientCiphers : List CipherSuite) : Prop where
  zero_iff : (tlsCipherSuiteNegotiate manager sessionId clientCiphers).2 = 0 ↔
    manager.Shares clientCiphers
  agreed : manager.Shares clientCiphers → ∃ cipher, manager.IsFirstShared clientCiphers cipher ∧
    (tlsCipherSuiteNegotiate manager sessionId clientCiphers).1 =
      manager.onSession sessionId fun session ↦ { session with negotiatedCipher := cipher }
  refused : ¬ manager.Shares clientCiphers →
    tlsCipherSuiteNegotiate manager sessionId clientCiphers = (manager, -1)

/-- A suite is shared among as many entries of the client as there are supported suites. -/
def TlsManager.SharesEarly (manager : TlsManager) (clientCiphers : List CipherSuite) : Prop :=
  manager.Shares (clientCiphers.take manager.supportedCiphers.length)

/-! ### What is found -/

variable {manager : TlsManager} {sessionId : UInt32} {clientCiphers : List CipherSuite}
variable {cipher : CipherSuite}

theorem any_supported_iff :
    (manager.supportedCiphers.any fun supported ↦ cipher = supported) = true ↔
      cipher ∈ manager.supportedCiphers := by
  rw [List.any_eq_true]
  constructor
  · rintro ⟨supported, hsupported, hequal⟩
    rw [of_decide_eq_true hequal]
    exact hsupported
  · exact fun hsupported ↦ ⟨cipher, hsupported, decide_eq_true rfl⟩

/-- A suite is found exactly when one is shared among the entries that are looked at. -/
theorem foundCipher_isSome_iff :
    (manager.foundCipher clientCiphers).isSome ↔ manager.SharesEarly clientCiphers := by
  rw [TlsManager.foundCipher, List.find?_isSome]
  exact exists_congr fun cipher ↦ and_congr_right fun _ ↦ any_supported_iff

/-- What is found is the first shared suite of the whole list. -/
theorem isFirstShared_of_foundCipher (hfound : manager.foundCipher clientCiphers = some cipher) :
    manager.IsFirstShared clientCiphers cipher := by
  obtain ⟨hsupported, before, behind, hsplit, hbefore⟩ :=
    List.find?_eq_some_iff_append.mp hfound
  refine ⟨any_supported_iff.mp hsupported, before,
    behind ++ clientCiphers.drop manager.supportedCiphers.length, ?_, fun other hother hshared ↦ ?_⟩
  · calc clientCiphers = clientCiphers.take manager.supportedCiphers.length ++
          clientCiphers.drop manager.supportedCiphers.length := (List.take_append_drop _ _).symm
      _ = (before ++ cipher :: behind) ++ clientCiphers.drop manager.supportedCiphers.length := by
        rw [hsplit]
      _ = _ := by rw [List.append_assoc, List.cons_append]
  · have hnot := hbefore other hother
    rw [any_supported_iff.mpr hshared] at hnot
    exact Bool.noConfusion hnot

/-- Assumes: the session exists. How a negotiation ends. -/
theorem tlsCipherSuiteNegotiate_cases (hsession : manager.hasSession sessionId = true)
    (clientCiphers : List CipherSuite) :
    (sessionId ≠ 0 ∧ manager.SharesEarly clientCiphers ∧
      ∃ cipher, manager.IsFirstShared clientCiphers cipher ∧
        tlsCipherSuiteNegotiate manager sessionId clientCiphers =
          (manager.onSession sessionId fun session ↦
            { session with negotiatedCipher := cipher }, 0)) ∨
    (¬ (sessionId ≠ 0 ∧ manager.SharesEarly clientCiphers) ∧
      tlsCipherSuiteNegotiate manager sessionId clientCiphers = (manager, -1)) := by
  rw [tlsCipherSuiteNegotiate]
  by_cases hrefused : sessionId = 0 ∨ clientCiphers.length = 0
  · rw [if_pos hrefused]
    refine Or.inr ⟨fun hearly ↦ ?_, rfl⟩
    rcases hrefused with hzero | hempty
    · exact hearly.1 hzero
    · obtain ⟨-, cipher, hcipher, -⟩ := hearly
      rw [List.length_eq_zero_iff.mp hempty, List.take_nil] at hcipher
      exact absurd hcipher List.not_mem_nil
  · rw [if_neg hrefused, if_pos hsession]
    cases hfound : manager.foundCipher clientCiphers with
    | none =>
      refine Or.inr ⟨fun hearly ↦ ?_, rfl⟩
      have hsome := foundCipher_isSome_iff.mpr hearly.2
      rw [hfound] at hsome
      exact Bool.noConfusion hsome
    | some cipher =>
      have hearly := foundCipher_isSome_iff.mp (Option.isSome_of_eq_some hfound)
      have hfirst := isFirstShared_of_foundCipher hfound
      exact Or.inl ⟨(not_or.mp hrefused).1, hearly, cipher, hfirst, rfl⟩

theorem TlsManager.SharesEarly.shares (hearly : manager.SharesEarly clientCiphers) :
    manager.Shares clientCiphers := by
  obtain ⟨cipher, hcipher, hsupported⟩ := hearly
  exact ⟨cipher, List.mem_of_mem_take hcipher, hsupported⟩

/-- Assumes: the session exists. In every state of a manager and for every list of a client, the
negotiation is right if and only if no suite is shared, or one is shared among as many entries of
the client as there are supported suites (and the id of the session is not 0). -/
theorem negotiatesFirstShared_iff (manager : TlsManager) (sessionId : UInt32)
    (clientCiphers : List CipherSuite) (hsession : manager.hasSession sessionId = true) :
    NegotiatesFirstShared manager sessionId clientCiphers ↔
      ¬ manager.Shares clientCiphers ∨
        (sessionId ≠ 0 ∧ manager.SharesEarly clientCiphers) := by
  have hminus : ¬ (-1 : Int) = 0 := by decide
  rcases tlsCipherSuiteNegotiate_cases hsession clientCiphers with
    ⟨hne, hearly, cipher, hfirst, hafter⟩ | ⟨hlate, hafter⟩
  · refine iff_of_true ⟨?_, ?_, ?_⟩ (Or.inr ⟨hne, hearly⟩)
    · rw [hafter]
      exact iff_of_true rfl hearly.shares
    · intro _
      exact ⟨cipher, hfirst, by rw [hafter]⟩
    · exact fun hnone ↦ absurd hearly.shares hnone
  · rw [or_iff_left hlate]
    constructor
    · intro hright hshares
      have hzero := hright.zero_iff.mpr hshares
      rw [hafter] at hzero
      exact hminus hzero
    · intro hnone
      refine ⟨?_, fun hshares ↦ absurd hshares hnone, fun _ ↦ hafter⟩
      rw [hafter]
      exact iff_of_false hminus hnone

/-- A manager with one session and the supported suites. -/
def oneSession (supportedCiphers : List CipherSuite) : TlsManager where
  sessions := [⟨1, 7, .idle, .aes128GcmSha256, 0⟩]
  supportedCiphers := supportedCiphers
  totalHandshakes := 0
  nextSessionId := 2

/-- The second of two suites is shared, and two suites are supported. -/
theorem negotiatesFirstShared_second :
    NegotiatesFirstShared (oneSession [.aes256GcmSha384, .chacha20Poly1305]) 1
      [.rsaAes128CbcSha, .chacha20Poly1305] :=
  (negotiatesFirstShared_iff _ _ _ (by decide)).mpr (Or.inr ⟨by decide,
    ⟨.chacha20Poly1305, by decide, by decide⟩⟩)

/-- The second of two suites is shared, and one suite is supported: the call returns -1. -/
theorem not_negotiatesFirstShared_second :
    ¬ NegotiatesFirstShared (oneSession [.aes256GcmSha384]) 1
      [.rsaAes128CbcSha, .aes256GcmSha384] := by
  intro hright
  have hzero := hright.zero_iff.mpr ⟨.aes256GcmSha384, by decide, by decide⟩
  exact absurd hzero (by decide)

/-! ### Every run -/

/-- A call keeps the suites inside of their array. -/
theorem length_supportedCiphers_step (call : TlsCall)
    (hfits : manager.supportedCiphers.length ≤ maxCiphersPerSession) :
    (tlsStep manager call).supportedCiphers.length ≤ maxCiphersPerSession := by
  cases call with
  | sessionCreate connectionId =>
    rw [tlsStep, tlsSessionCreate]
    split_ifs <;> exact hfits
  | sessionDestroy sessionId =>
    rw [tlsStep, tlsSessionDestroy]
    split_ifs <;> exact hfits
  | startHandshake sessionId =>
    rw [tlsStep, tlsSessionStartHandshake]
    split_ifs
    · exact hfits
    · split
      · exact hfits
      · split_ifs <;> exact hfits
  | setState sessionId state =>
    rw [tlsStep, tlsSessionSetState]
    split_ifs <;> exact hfits
  | cipherSuiteAdd cipher =>
    rw [tlsStep, tlsCipherSuiteAdd]
    split_ifs with hfull
    · exact hfits
    · rw [List.length_append, List.length_singleton]
      exact Nat.lt_of_not_le hfull
  | cipherSuiteRemove cipher =>
    rw [tlsStep, tlsCipherSuiteRemove]
    split_ifs
    · exact List.length_erase_le.trans hfits
    · exact hfits
  | cipherSuiteNegotiate sessionId clientCiphers =>
    rw [tlsStep, tlsCipherSuiteNegotiate]
    split_ifs
    · exact hfits
    · split <;> exact hfits
    · exact hfits

/-- In every state of a run, a suite that is found early stands among the first entries of the
client, as many as a manager has room for. -/
theorem sharesEarly_alongRun (nextSessionId : UInt32) (calls : List TlsCall)
    (clientCiphers : List CipherSuite) :
    AlongRun tlsStep (fun manager ↦ manager.SharesEarly clientCiphers →
      manager.Shares (clientCiphers.take maxCiphersPerSession)) (tlsManagerInit nextSessionId)
      calls := by
  have hfits : AlongRun tlsStep
      (fun manager ↦ manager.supportedCiphers.length ≤ maxCiphersPerSession)
      (tlsManagerInit nextSessionId) calls :=
    alongRun_invariant _ (fun _ _ ↦ True)
      (fun manager call hfits _ ↦ length_supportedCiphers_step call hfits) (Nat.zero_le _)
      fun _ _ _ ↦ trivial
  refine hfits.imp fun manager hle hearly ↦ ?_
  obtain ⟨cipher, hcipher, hsupported⟩ := hearly
  exact ⟨cipher, (List.take_subset_take_left _ hle) hcipher, hsupported⟩

end OneOS.SecureCommunication
