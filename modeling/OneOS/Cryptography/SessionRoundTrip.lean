import Mathlib.Data.List.GetD
import OneOS.Cryptography.EncryptionEngine
import OneOS.Foundation.NestedTables

/-!
# Decrypting what was encrypted

What `encryption_encrypt_data` wrote is to come out of `encryption_decrypt_data` again, also when
other sessions were created, destroyed or used in between. A session is found by its id, wherever
the destruction of others has shifted it to (`dataSession_step`), so that its key is the same one,
and an exclusive or with the same key takes the first one back (`cover_cover`). The length of a
ciphertext counts 16 bytes that are never written: behind the ciphertext lies whatever was there
before, and decryption does not read it.
-/

set_option autoImplicit false
set_option relaxedAutoImplicit false

namespace OneOS.Cryptography

open Foundation

variable {engine later : EncryptionEngine} {sessionId : UInt32} {session : EncryptionSession}
variable {call : EncryptionCall} {key : EncryptionKey} {plaintext ciphertext : List UInt8}

/-- The session that a call names. -/
def EncryptionCall.target : EncryptionCall → Option UInt32
  | .sessionCreate => none
  | .sessionDestroy sessionId => some sessionId
  | .keyGenerate sessionId _ => some sessionId
  | .keyImport sessionId _ => some sessionId
  | .rotateKey sessionId => some sessionId
  | .destroyKey sessionId => some sessionId
  | .encryptData sessionId _ _ => some sessionId
  | .decryptData sessionId _ _ => some sessionId
  | .encryptBufferStream sessionId _ _ _ _ => some sessionId

/-! ### Covering twice -/

/-- Assumes: what was covered has as many bytes as were taken. Covering the result takes the cover
off, whatever lies behind it. -/
theorem cover_cover {length : UInt32} (hlength : plaintext.length = length.toNat)
    (hcover : key.cover plaintext length = some ciphertext) (behind : List UInt8) :
    key.cover (ciphertext ++ behind) length = some plaintext := by
  rw [EncryptionKey.cover] at hcover ⊢
  split_ifs at hcover ⊢ with hempty
  rw [← Option.some.inj hcover]
  refine congrArg some (List.ext_getElem ?_ fun j hj hplain ↦ ?_)
  · rw [List.length_map, List.length_range, hlength]
  · have hin : j < length.toNat := hlength ▸ hplain
    have hbyte : ((List.range length.toNat).map fun j ↦
        plaintext.getD j 0 ^^^ key.bytes.getD (j % key.bytes.length) 0)[j]? =
          some (plaintext[j] ^^^ key.bytes.getD (j % key.bytes.length) 0) := by
      rw [List.getElem?_map, List.getElem?_range hin, Option.map_some,
        List.getD_eq_getElem plaintext 0 hplain]
    rw [List.getElem_map, List.getElem_range, List.getD_eq_getElem?_getD, List.getElem?_append_left
      (by rw [List.length_map, List.length_range]; exact hin), hbyte, Option.getD_some,
      UInt8.xor_assoc, UInt8.xor_self, UInt8.xor_zero]

/-! ### Sessions that are left alone -/

theorem dataSession_eq_some_iff : engine.dataSession sessionId = some session ↔
    sessionId ≠ 0 ∧ engine.sessions.find? (fun session ↦
      session.sessionId = sessionId && session.isActive) = some session := by
  rw [EncryptionEngine.dataSession]
  split_ifs with hzero
  · exact iff_of_false not_false fun hfound ↦ hfound.1 hzero
  · exact (and_iff_right hzero).symm

/-- A change of a session with another id, which keeps its id and its activity, is not seen. -/
theorem find?_change_other {sessions : List EncryptionSession} {other : UInt32}
    {test : EncryptionSession → Bool} {change : EncryptionSession → EncryptionSession}
    (hother : other ≠ sessionId) (htest : ∀ row, test row = true → row.sessionId = other)
    (hid : ∀ row, (change row).sessionId = row.sessionId)
    (hactive : ∀ row, (change row).isActive = row.isActive) :
    (updateFirst test change sessions).find?
        (fun session ↦ session.sessionId = sessionId && session.isActive) =
      sessions.find? fun session ↦ session.sessionId = sessionId && session.isActive := by
  refine find?_updateFirst_of_other change (fun row hrow ↦ ?_) fun row ↦ ?_
  · rw [Bool.and_eq_false_iff]
    exact Or.inl (decide_eq_false fun hid ↦ hother ((htest row hrow).symm.trans hid))
  · rw [hid, hactive]

theorem dataSession_onKey {other : UInt32} (change : EncryptionKey → EncryptionKey)
    (hother : other ≠ sessionId) (hfind : engine.dataSession sessionId = some session) :
    (engine.onKey other change).1.dataSession sessionId = some session := by
  rw [EncryptionEngine.onKey]
  split_ifs
  · exact hfind
  · rw [dataSession_eq_some_iff] at hfind ⊢
    refine ⟨hfind.1, (find?_change_other hother (fun row hrow ↦ of_decide_eq_true hrow) ?_ ?_).trans
      hfind.2⟩
    · exact fun _ ↦ rfl
    · exact fun _ ↦ rfl
  · exact hfind

theorem dataSession_keyGenerate {other keyLength : UInt32} (hother : other ≠ sessionId)
    (hfind : engine.dataSession sessionId = some session) :
    (encryptionKeyGenerate engine other keyLength).1.dataSession sessionId = some session := by
  rw [encryptionKeyGenerate]
  split_ifs
  · exact hfind
  · exact dataSession_onKey _ hother hfind

/-- What a call on data of another session leaves. -/
theorem dataSession_change {other : UInt32} {change : EncryptionSession → EncryptionSession}
    (hother : other ≠ sessionId) (hfind : engine.dataSession sessionId = some session)
    (hsessions : later.sessions = engine.changeDataSession other change)
    (hid : ∀ row, (change row).sessionId = row.sessionId)
    (hactive : ∀ row, (change row).isActive = row.isActive) :
    later.dataSession sessionId = some session := by
  rw [dataSession_eq_some_iff] at hfind ⊢
  rw [hsessions, EncryptionEngine.changeDataSession]
  refine ⟨hfind.1, (find?_change_other hother (fun row hrow ↦ ?_) hid hactive).trans hfind.2⟩
  exact of_decide_eq_true (Bool.and_eq_true_iff.mp hrow).1

theorem dataSession_encrypt {other length : UInt32} {outcome : DataResult}
    (hother : other ≠ sessionId) (hfind : engine.dataSession sessionId = some session)
    (hcall : encryptionEncryptData engine other plaintext length = some outcome) :
    outcome.engine.dataSession sessionId = some session := by
  rw [encryptionEncryptData] at hcall
  cases htarget : engine.dataSession other with
  | none =>
    rw [htarget] at hcall
    rw [← Option.some.inj hcall]
    exact hfind
  | some target =>
    rw [htarget] at hcall
    obtain ⟨written, -, rfl⟩ := Option.map_eq_some_iff.mp hcall
    exact dataSession_change hother hfind rfl (fun _ ↦ rfl) fun _ ↦ rfl

theorem dataSession_decrypt {other length : UInt32} {outcome : DataResult}
    (hother : other ≠ sessionId) (hfind : engine.dataSession sessionId = some session)
    (hcall : encryptionDecryptData engine other ciphertext length = some outcome) :
    outcome.engine.dataSession sessionId = some session := by
  rw [encryptionDecryptData] at hcall
  cases htarget : engine.dataSession other with
  | none =>
    rw [htarget] at hcall
    rw [← Option.some.inj hcall]
    exact hfind
  | some target =>
    rw [htarget] at hcall
    obtain ⟨written, -, rfl⟩ := Option.map_eq_some_iff.mp hcall
    exact dataSession_change hother hfind rfl (fun _ ↦ rfl) fun _ ↦ rfl

/-- A call that names another session, or none, leaves what is found by an id. -/
theorem dataSession_step (hother : call.target ≠ some sessionId)
    (hfind : engine.dataSession sessionId = some session)
    (hcall : encryptionCall engine call = some later) :
    later.dataSession sessionId = some session := by
  have hne : ∀ other, call.target = some other → other ≠ sessionId := by
    rintro other hother' rfl
    exact hother hother'
  cases call with
  | sessionCreate =>
    rw [← Option.some.inj hcall, encryptionSessionCreate]
    split_ifs
    · exact hfind
    · -- the new session stands behind the one that is found, whatever its id
      rw [dataSession_eq_some_iff] at hfind ⊢
      exact ⟨hfind.1, List.find?_append.trans (by rw [hfind.2, Option.some_or])⟩
  | sessionDestroy other =>
    rw [← Option.some.inj hcall, encryptionSessionDestroy]
    split_ifs
    · exact hfind
    · rw [dataSession_eq_some_iff] at hfind ⊢
      refine ⟨hfind.1, (find?_eraseP fun row hrow ↦ decide_eq_false fun hid ↦ ?_).trans hfind.2⟩
      have hown := of_decide_eq_true (Bool.and_eq_true_iff.mp hrow).1
      exact hne other rfl (hid.symm.trans hown)
    · exact hfind
  | keyGenerate other keyLength =>
    rw [← Option.some.inj hcall]
    exact dataSession_keyGenerate (hne other rfl) hfind
  | keyImport other bytes =>
    rw [← Option.some.inj hcall, encryptionKeyImport]
    split_ifs
    · exact hfind
    · exact dataSession_onKey _ (hne other rfl) hfind
  | rotateKey other =>
    rw [← Option.some.inj hcall, encryptionRotateKey]
    split_ifs
    · exact hfind
    · split
      · exact hfind
      · exact dataSession_keyGenerate (hne other rfl) hfind
  | destroyKey other =>
    rw [← Option.some.inj hcall]
    exact dataSession_onKey _ (hne other rfl) hfind
  | encryptData other data length =>
    obtain ⟨outcome, houtcome, rfl⟩ := Option.map_eq_some_iff.mp hcall
    exact dataSession_encrypt (hne other rfl) hfind houtcome
  | decryptData other data length =>
    obtain ⟨outcome, houtcome, rfl⟩ := Option.map_eq_some_iff.mp hcall
    exact dataSession_decrypt (hne other rfl) hfind houtcome
  | encryptBufferStream other data length mallocPlain mallocEncrypted =>
    rw [encryptionCall, encryptionEncryptBufferStream] at hcall
    split_ifs at hcall
    · rw [← Option.some.inj hcall]
      exact hfind
    · obtain ⟨outcome, houtcome, rfl⟩ := Option.map_eq_some_iff.mp hcall
      have hstreaming : engine.streaming.dataSession sessionId = some session := hfind
      have hkept := dataSession_encrypt (hne other rfl) hstreaming houtcome
      split_ifs
      · exact hkept
      · exact hkept
    · rw [← Option.some.inj hcall]
      exact hfind

/-- Calls on other sessions leave what is found by an id. -/
theorem dataSession_run {calls : List EncryptionCall}
    (hother : ∀ call ∈ calls, call.target ≠ some sessionId)
    (hfind : engine.dataSession sessionId = some session)
    (hrun : runFrom encryptionStep (some engine) calls = some later) :
    later.dataSession sessionId = some session := by
  refine runFrom_invariant (fun running ↦ ∀ reached, running = some reached →
      reached.dataSession sessionId = some session) (fun _ call ↦ call.target ≠ some sessionId)
    ?_ ?_ (everyStep_of_forall_mem hother) later hrun
  · intro running call hkept hcall reached hreached
    obtain ⟨before, hbefore, hstep⟩ := Option.bind_eq_some_iff.mp hreached
    exact dataSession_step hcall (hkept before hbefore) hstep
  · intro reached hreached
    rw [← Option.some.inj hreached]
    exact hfind

/-! ### The round trip -/

/-- A call on data of a session leaves it with its key. -/
theorem exists_dataSession_change {change : EncryptionSession → EncryptionSession}
    (hfind : engine.dataSession sessionId = some session)
    (hsessions : later.sessions = engine.changeDataSession sessionId change)
    (hid : ∀ row, (change row).sessionId = row.sessionId)
    (hactive : ∀ row, (change row).isActive = row.isActive)
    (hkey : ∀ row, (change row).key = row.key) :
    ∃ counted, later.dataSession sessionId = some counted ∧ counted.key = session.key := by
  rw [dataSession_eq_some_iff] at hfind
  have hkeep : ∀ row : EncryptionSession,
      ((change row).sessionId = sessionId && (change row).isActive) =
        (row.sessionId = sessionId && row.isActive : Bool) := by
    intro row
    rw [hid, hactive]
  rcases find?_updateFirst hkeep hfind.2 with hkept | hchanged
  · exact ⟨session, dataSession_eq_some_iff.mpr ⟨hfind.1, hsessions ▸ hkept⟩, rfl⟩
  · exact ⟨change session, dataSession_eq_some_iff.mpr ⟨hfind.1, hsessions ▸ hchanged⟩, hkey _⟩

/-- What an encryption that returned 0 leaves: what was written is covered with the key of the
session, which still has that key. -/
theorem encryptionEncryptData_spec {length : UInt32} {outcome : DataResult}
    (hcall : encryptionEncryptData engine sessionId plaintext length = some outcome)
    (hsuccess : outcome.result = 0) :
    ∃ session, outcome.engine.dataSession sessionId = some session ∧
      session.key.cover plaintext length = some outcome.written ∧
      outcome.writtenLength = some (length + 16) := by
  rw [encryptionEncryptData] at hcall
  cases hfind : engine.dataSession sessionId with
  | none =>
    rw [hfind] at hcall
    rw [← Option.some.inj hcall] at hsuccess
    exact absurd hsuccess (show ¬ (-1 : Int) = 0 by decide)
  | some session =>
    rw [hfind] at hcall
    obtain ⟨written, hcover, houtcome⟩ := Option.map_eq_some_iff.mp hcall
    have hsessions : outcome.engine.sessions = engine.changeDataSession sessionId fun session ↦
        { session with
          bytesEncrypted := session.bytesEncrypted + length.toUInt64
          operationCount := session.operationCount + 1 } := by
      rw [← houtcome]
    obtain ⟨counted, hcounted, hkey⟩ := exists_dataSession_change hfind hsessions (fun _ ↦ rfl)
      (fun _ ↦ rfl) fun _ ↦ rfl
    rw [← houtcome] at hcounted ⊢
    exact ⟨counted, hcounted, hkey ▸ hcover, rfl⟩

/-- Assumes: the length of the ciphertext of a text does not wrap around. In every state of an
engine: when the encryption of the text for a session returned 0 and then any calls followed that
name other sessions, decrypting the ciphertext, with its length and whatever lies behind it, returns
0 and writes exactly the text and its length. -/
theorem encryptionDecryptData_encrypted (engine : EncryptionEngine) (sessionId : UInt32)
    (plaintext : List UInt8) (hlength : plaintext.length ≤ 2 ^ 32 - 17) (outcome : DataResult)
    (hencrypt : encryptionEncryptData engine sessionId plaintext
      (UInt32.ofNat plaintext.length) = some outcome) (hsuccess : outcome.result = 0)
    (calls : List EncryptionCall) (hother : ∀ call ∈ calls, call.target ≠ some sessionId)
    (later : EncryptionEngine)
    (hrun : runFrom encryptionStep (some outcome.engine) calls = some later) :
    ∃ ciphertextLength, outcome.writtenLength = some ciphertextLength ∧
      ciphertextLength.toNat = plaintext.length + 16 ∧
      ∀ behind : List UInt8, ∃ final,
        encryptionDecryptData later sessionId (outcome.written ++ behind) ciphertextLength =
          some ⟨final, 0, plaintext, some (UInt32.ofNat plaintext.length)⟩ := by
  have hfits : plaintext.length < 2 ^ 32 := by omega
  have hnat : (UInt32.ofNat plaintext.length).toNat = plaintext.length :=
    UInt32.toNat_ofNat_of_lt' hfits
  obtain ⟨session, hfind, hcover, hwritten⟩ := encryptionEncryptData_spec hencrypt hsuccess
  refine ⟨UInt32.ofNat plaintext.length + 16, hwritten, ?_, fun behind ↦ ?_⟩
  · rw [UInt32.toNat_add, hnat]
    exact Nat.mod_eq_of_lt (show plaintext.length + 16 < 2 ^ 32 by omega)
  · have hplain := cover_cover hnat.symm hcover behind
    rw [encryptionDecryptData, UInt32.add_sub_cancel, dataSession_run hother hfind hrun]
    exact ⟨_, congrArg (Option.map _) hplain⟩

/-- An engine with two sessions that have keys. -/
def twoSessions : EncryptionEngine :=
  ⟨[⟨1, ⟨[7], true⟩, 0, 0, 0, true⟩, ⟨2, ⟨[3, 5], true⟩, 0, 0, 0, true⟩], 0, 0, 0, 0, 3, 1⟩

/-- The second session encrypts, the first one is destroyed, and a third one is created. -/
theorem encryptionDecryptData_encrypted_shifted :
    ∃ outcome later,
      encryptionEncryptData twoSessions 2 [72, 101, 121] 3 = some outcome ∧
      runFrom encryptionStep (some outcome.engine) [.sessionDestroy 1, .sessionCreate] =
        some later ∧
      ∃ ciphertextLength, outcome.writtenLength = some ciphertextLength ∧
        ciphertextLength.toNat = 3 + 16 ∧
        ∀ behind : List UInt8, ∃ final,
          encryptionDecryptData later 2 (outcome.written ++ behind) ciphertextLength =
            some ⟨final, 0, [72, 101, 121], some 3⟩ := by
  refine ⟨⟨⟨[⟨1, ⟨[7], true⟩, 0, 0, 0, true⟩, ⟨2, ⟨[3, 5], true⟩, 3, 0, 1, true⟩],
      0, 3, 0, 1, 3, 1⟩, 0, [75, 96, 122], some 19⟩,
    ⟨[⟨2, ⟨[3, 5], true⟩, 3, 0, 1, true⟩, ⟨3, ⟨[], false⟩, 0, 0, 0, true⟩], 0, 3, 0, 1, 4, 1⟩,
    by decide, by decide, ?_⟩
  exact encryptionDecryptData_encrypted twoSessions 2 [72, 101, 121] (by decide) _ (by decide) rfl
    [.sessionDestroy 1, .sessionCreate] (by decide) _ (by decide)

end OneOS.Cryptography
