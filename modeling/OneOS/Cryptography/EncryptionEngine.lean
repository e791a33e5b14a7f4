import OneOS.Foundation.Runs
import OneOS.Foundation.Table

/-!
# The encryption engine

`security-cryptography/encryption_engine.c`: sessions with a key, and data that is encrypted and
decrypted by an exclusive or with the key, repeated. A session is destroyed by shifting those behind
it down. A key is the list of its `key_length` bytes: these are all that is ever read, and every
call that sets `key_length` writes as many. The memory behind a pointer is a list of bytes, with 0
behind its end, and a remainder modulo 0 stops the program (`none`). So does a stream so long that
the buffer that is allocated for its ciphertext, of 16 bytes more, has a size that wraps around.

Nothing is to be encrypted or decrypted without an active key that has bytes, and a ciphertext
shorter than the 16 bytes that are taken off its length is to be refused. The code checks neither.
`dataCallsSafe_iff` says exactly which runs are safe all the same, and which never stop.

Left out are the checks of pointers, the cipher, the mode and the vector of a session, the times and
the use count of a key, the data of buffers, the hash and the metrics: no modelled function reads
them.
-/

set_option autoImplicit false
set_option relaxedAutoImplicit false

namespace OneOS.Cryptography

open Foundation

/-! ### Sessions and keys -/

/-- `MAX_ENCRYPTION_SESSIONS`. -/
def maxEncryptionSessions : ℕ := 256

/-- `MAX_KEY_SIZE`. -/
def maxKeySize : ℕ := 256

/-- `MAX_ENCRYPTED_BUFFERS`. -/
def maxEncryptedBuffers : ℕ := 1024

/-- `EncryptionKey`. -/
structure EncryptionKey where
  bytes : List UInt8
  isActive : Bool
  deriving DecidableEq, Repr

/-- `EncryptionSession`. -/
structure EncryptionSession where
  sessionId : UInt32
  key : EncryptionKey
  bytesEncrypted : UInt64
  bytesDecrypted : UInt64
  operationCount : UInt32
  isActive : Bool
  deriving DecidableEq, Repr

/-- `EncryptionEngine`, with the used rows of its sessions as a list, the number of its buffers, and
the counters that number sessions and buffers. -/
structure EncryptionEngine where
  sessions : List EncryptionSession
  bufferCount : ℕ
  totalBytesEncrypted : UInt64
  totalBytesDecrypted : UInt64
  totalOperations : UInt32
  nextSessionId : UInt32
  nextBufferId : UInt32
  deriving DecidableEq, Repr

/-- `encryption_engine_init`. The counters are shared by all engines of a process and keep their
values. -/
def encryptionEngineInit (nextSessionId nextBufferId : UInt32) : EncryptionEngine where
  sessions := []
  bufferCount := 0
  totalBytesEncrypted := 0
  totalBytesDecrypted := 0
  totalOperations := 0
  nextSessionId := nextSessionId
  nextBufferId := nextBufferId

/-- `encryption_session_create`, returning the id or 0. -/
def encryptionSessionCreate (engine : EncryptionEngine) : EncryptionEngine × UInt32 :=
  if maxEncryptionSessions ≤ engine.sessions.length then (engine, 0)
  else
    ({ engine with
      sessions := engine.sessions ++
        [{ sessionId := engine.nextSessionId
           key := { bytes := [], isActive := false }
           bytesEncrypted := 0
           bytesDecrypted := 0
           operationCount := 0
           isActive := true }]
      nextSessionId := engine.nextSessionId + 1 }, engine.nextSessionId)

/-- `encryption_session_destroy`. -/
def encryptionSessionDestroy (engine : EncryptionEngine) (sessionId : UInt32) :
    EncryptionEngine × Int :=
  if sessionId = 0 then (engine, -1)
  else if engine.sessions.any fun session ↦ session.sessionId = sessionId then
    ({ engine with
      sessions := engine.sessions.eraseP fun session ↦ session.sessionId = sessionId }, 0)
  else (engine, -1)

/-- A change of the key of the first session with an id. Without such a session the answer
is -1. -/
def EncryptionEngine.onKey (engine : EncryptionEngine) (sessionId : UInt32)
    (change : EncryptionKey → EncryptionKey) : EncryptionEngine × Int :=
  if sessionId = 0 then (engine, -1)
  else if engine.sessions.any fun session ↦ session.sessionId = sessionId then
    ({ engine with
      sessions := updateFirst (fun session ↦ session.sessionId = sessionId)
        (fun session ↦ { session with key := change session.key }) engine.sessions }, 0)
  else (engine, -1)

/-- The bytes that `encryption_key_generate` writes. -/
def generatedKey (keyLength : ℕ) : List UInt8 :=
  (List.range keyLength).map fun j ↦ UInt8.ofNat ((j * 17 + 42) % 256)

/-- `encryption_key_generate`. -/
def encryptionKeyGenerate (engine : EncryptionEngine) (sessionId keyLength : UInt32) :
    EncryptionEngine × Int :=
  if maxKeySize < keyLength.toNat then (engine, -1)
  else engine.onKey sessionId fun _ ↦ { bytes := generatedKey keyLength.toNat, isActive := true }

/-- `encryption_key_import`. -/
def encryptionKeyImport (engine : EncryptionEngine) (sessionId : UInt32) (key : List UInt8) :
    EncryptionEngine × Int :=
  if maxKeySize < key.length then (engine, -1)
  else engine.onKey sessionId fun _ ↦ { bytes := key, isActive := true }

/-- `encryption_rotate_key`: the length is taken from the first session with the id whose key is
active, and the key is generated for the first session with the id. -/
def encryptionRotateKey (engine : EncryptionEngine) (sessionId : UInt32) :
    EncryptionEngine × Int :=
  if sessionId = 0 then (engine, -1)
  else
    match engine.sessions.find? fun session ↦
        session.sessionId = sessionId && session.key.isActive with
    | none => (engine, -1)
    | some session =>
      ((encryptionKeyGenerate engine sessionId (UInt32.ofNat session.key.bytes.length)).1, 0)

/-- `encryption_destroy_key`: the bytes become 0, and the length stays. -/
def encryptionDestroyKey (engine : EncryptionEngine) (sessionId : UInt32) :
    EncryptionEngine × Int :=
  engine.onKey sessionId fun key ↦
    { bytes := List.replicate key.bytes.length 0, isActive := false }

/-! ### Data -/

/-- What a call on data leaves: the engine, the result, the bytes that were written, and the length
that was written, if one was. -/
structure DataResult where
  engine : EncryptionEngine
  result : Int
  written : List UInt8
  writtenLength : Option UInt32
  deriving DecidableEq, Repr

/-- The loop that takes data by exclusive or with the key. With a key of length 0 the first round
stops the program. -/
def EncryptionKey.cover (key : EncryptionKey) (data : List UInt8) (length : UInt32) :
    Option (List UInt8) :=
  if key.bytes = [] ∧ length ≠ 0 then none
  else some ((List.range length.toNat).map fun j ↦
    data.getD j 0 ^^^ key.bytes.getD (j % key.bytes.length) 0)

/-- The session that a call on data finds. -/
def EncryptionEngine.dataSession (engine : EncryptionEngine) (sessionId : UInt32) :
    Option EncryptionSession :=
  if sessionId = 0 then none
  else engine.sessions.find? fun session ↦ session.sessionId = sessionId && session.isActive

/-- The sessions after the one that a call on data finds is changed. -/
def EncryptionEngine.changeDataSession (engine : EncryptionEngine) (sessionId : UInt32)
    (change : EncryptionSession → EncryptionSession) : List EncryptionSession :=
  updateFirst (fun session ↦ session.sessionId = sessionId && session.isActive) change
    engine.sessions

/-- `encryption_encrypt_data`. Neither the length nor the activity of the key is looked at. -/
def encryptionEncryptData (engine : EncryptionEngine) (sessionId : UInt32)
    (plaintext : List UInt8) (plaintextLength : UInt32) : Option DataResult :=
  match engine.dataSession sessionId with
  | none => some ⟨engine, -1, [], none⟩
  | some session =>
    (session.key.cover plaintext plaintextLength).map fun ciphertext ↦
      ⟨{ engine with
          sessions := engine.changeDataSession sessionId fun session ↦
            { session with
              bytesEncrypted := session.bytesEncrypted + plaintextLength.toUInt64
              operationCount := session.operationCount + 1 }
          totalBytesEncrypted := engine.totalBytesEncrypted + plaintextLength.toUInt64
          totalOperations := engine.totalOperations + 1 }, 0, ciphertext,
        some (plaintextLength + 16)⟩

/-- `encryption_decrypt_data`. The length of the plaintext wraps around below 16. -/
def encryptionDecryptData (engine : EncryptionEngine) (sessionId : UInt32)
    (ciphertext : List UInt8) (ciphertextLength : UInt32) : Option DataResult :=
  let plaintextLength := ciphertextLength - 16
  match engine.dataSession sessionId with
  | none => some ⟨engine, -1, [], none⟩
  | some session =>
    (session.key.cover ciphertext plaintextLength).map fun plaintext ↦
      ⟨{ engine with
          sessions := engine.changeDataSession sessionId fun session ↦
            { session with
              bytesDecrypted := session.bytesDecrypted + plaintextLength.toUInt64
              operationCount := session.operationCount + 1 }
          totalBytesDecrypted := engine.totalBytesDecrypted + plaintextLength.toUInt64
          totalOperations := engine.totalOperations + 1 }, 0, plaintext, some plaintextLength⟩

/-- The engine in which `encryption_encrypt_buffer_stream` encrypts, when it comes so far: an id for
the buffer has been taken. -/
def EncryptionEngine.streaming (engine : EncryptionEngine) : EncryptionEngine :=
  { engine with nextBufferId := engine.nextBufferId + 1 }

/-- The data of a stream is encrypted into a buffer that is too small for it. -/
def EncryptionEngine.overruns (engine : EncryptionEngine) (sessionId length : UInt32) : Bool :=
  (engine.dataSession sessionId).isSome && length + 16 < length

/-- `encryption_encrypt_buffer_stream`, whose two allocations may fail. The buffer is kept when the
data was encrypted. -/
def encryptionEncryptBufferStream (engine : EncryptionEngine) (sessionId : UInt32)
    (data : List UInt8) (length : UInt32) (mallocPlain mallocEncrypted : Bool) :
    Option EncryptionEngine :=
  if sessionId = 0 ∨ maxEncryptedBuffers ≤ engine.bufferCount then some engine
  else if mallocPlain && mallocEncrypted then
    if engine.overruns sessionId length then none
    else
      (encryptionEncryptData engine.streaming sessionId data length).map fun outcome ↦
        if outcome.result = 0 then
          { outcome.engine with bufferCount := engine.bufferCount + 1 }
        else outcome.engine
  else some engine.streaming

/-! ### Runs -/

/-- A call to the engine. -/
inductive EncryptionCall
  | sessionCreate
  | sessionDestroy (sessionId : UInt32)
  | keyGenerate (sessionId keyLength : UInt32)
  | keyImport (sessionId : UInt32) (key : List UInt8)
  | rotateKey (sessionId : UInt32)
  | destroyKey (sessionId : UInt32)
  | encryptData (sessionId : UInt32) (plaintext : List UInt8) (plaintextLength : UInt32)
  | decryptData (sessionId : UInt32) (ciphertext : List UInt8) (ciphertextLength : UInt32)
  | encryptBufferStream (sessionId : UInt32) (data : List UInt8) (length : UInt32)
    (mallocPlain mallocEncrypted : Bool)
  deriving DecidableEq, Repr

/-- What a call does to the engine. -/
def encryptionCall (engine : EncryptionEngine) : EncryptionCall → Option EncryptionEngine
  | .sessionCreate => some (encryptionSessionCreate engine).1
  | .sessionDestroy sessionId => some (encryptionSessionDestroy engine sessionId).1
  | .keyGenerate sessionId keyLength =>
    some (encryptionKeyGenerate engine sessionId keyLength).1
  | .keyImport sessionId key => some (encryptionKeyImport engine sessionId key).1
  | .rotateKey sessionId => some (encryptionRotateKey engine sessionId).1
  | .destroyKey sessionId => some (encryptionDestroyKey engine sessionId).1
  | .encryptData sessionId plaintext plaintextLength =>
    (encryptionEncryptData engine sessionId plaintext plaintextLength).map DataResult.engine
  | .decryptData sessionId ciphertext ciphertextLength =>
    (encryptionDecryptData engine sessionId ciphertext ciphertextLength).map DataResult.engine
  | .encryptBufferStream sessionId data length mallocPlain mallocEncrypted =>
    encryptionEncryptBufferStream engine sessionId data length mallocPlain mallocEncrypted

/-- A step of the program, which has stopped when there is no engine any more. -/
def encryptionStep (running : Option EncryptionEngine) (call : EncryptionCall) :
    Option EncryptionEngine :=
  running.bind fun engine ↦ encryptionCall engine call

/-! ### Safe calls on data -/

/-- The key is active and has at least one byte. -/
def EncryptionKey.Usable (key : EncryptionKey) : Prop :=
  key.isActive = true ∧ key.bytes ≠ []

/-- There is a session for a call on data, and its key is usable. -/
def KeyUsable (engine : EncryptionEngine) (sessionId : UInt32) : Prop :=
  ∃ session, engine.dataSession sessionId = some session ∧ session.key.Usable

/-- The call returned -1 and changed nothing. -/
def Refused (engine : EncryptionEngine) (outcome : Option DataResult) : Prop :=
  outcome = some ⟨engine, -1, [], none⟩

/-- An encryption does not stop the program, and is refused without a usable key. -/
def EncryptSafe (engine : EncryptionEngine) (sessionId : UInt32) (plaintext : List UInt8)
    (plaintextLength : UInt32) : Prop :=
  encryptionEncryptData engine sessionId plaintext plaintextLength ≠ none ∧
    (¬ KeyUsable engine sessionId →
      Refused engine (encryptionEncryptData engine sessionId plaintext plaintextLength))

/-- A decryption does not stop the program, and is refused without a usable key and below 16
bytes. -/
def DecryptSafe (engine : EncryptionEngine) (sessionId : UInt32) (ciphertext : List UInt8)
    (ciphertextLength : UInt32) : Prop :=
  encryptionDecryptData engine sessionId ciphertext ciphertextLength ≠ none ∧
    (¬ KeyUsable engine sessionId ∨ ciphertextLength < 16 →
      Refused engine (encryptionDecryptData engine sessionId ciphertext ciphertextLength))

/-- What is asked of a call on data, also of the encryption inside of a stream. -/
def DataCallSafe (running : Option EncryptionEngine) (call : EncryptionCall) : Prop :=
  ∀ engine, running = some engine →
    match call with
    | .encryptData sessionId plaintext plaintextLength =>
      EncryptSafe engine sessionId plaintext plaintextLength
    | .decryptData sessionId ciphertext ciphertextLength =>
      DecryptSafe engine sessionId ciphertext ciphertextLength
    | .encryptBufferStream sessionId data length mallocPlain mallocEncrypted =>
      engine.bufferCount < maxEncryptedBuffers → mallocPlain = true → mallocEncrypted = true →
        EncryptSafe engine.streaming sessionId data length
    | _ => True

/-- The condition on a call: when there is a session for it, its key is usable, and what is to be
decrypted has at least 16 bytes. -/
def HasUsableKey (running : Option EncryptionEngine) (call : EncryptionCall) : Prop :=
  ∀ engine, running = some engine →
    match call with
    | .encryptData sessionId _ _ =>
      ∀ session, engine.dataSession sessionId = some session → session.key.Usable
    | .decryptData sessionId _ ciphertextLength =>
      ∀ session, engine.dataSession sessionId = some session →
        session.key.Usable ∧ 16 ≤ ciphertextLength
    | .encryptBufferStream sessionId _ _ mallocPlain mallocEncrypted =>
      engine.bufferCount < maxEncryptedBuffers → mallocPlain = true → mallocEncrypted = true →
        ∀ session, engine.dataSession sessionId = some session → session.key.Usable
    | _ => True

/-- A stream for which there is a session and that comes to be encrypted is not so long that the
size of its ciphertext wraps around. -/
def StreamFits (running : Option EncryptionEngine) (call : EncryptionCall) : Prop :=
  ∀ engine, running = some engine →
    match call with
    | .encryptBufferStream sessionId _ length mallocPlain mallocEncrypted =>
      engine.bufferCount < maxEncryptedBuffers → mallocPlain = true → mallocEncrypted = true →
        ∀ session, engine.dataSession sessionId = some session → length.toNat + 16 < 2 ^ 32
    | _ => True

variable {engine : EncryptionEngine} {sessionId : UInt32} {session : EncryptionSession}

/-- A key with bytes covers data of any length. -/
theorem cover_ne_none {key : EncryptionKey} (hbytes : key.bytes ≠ []) (data : List UInt8)
    (length : UInt32) : key.cover data length ≠ none := by
  rw [EncryptionKey.cover, if_neg fun hempty ↦ hbytes hempty.1]
  exact Option.some_ne_none _

theorem keyUsable_iff (hfind : engine.dataSession sessionId = some session) :
    KeyUsable engine sessionId ↔ session.key.Usable := by
  constructor
  · rintro ⟨found, hfound, husable⟩
    rw [Option.some.inj (hfind.symm.trans hfound)]
    exact husable
  · exact fun husable ↦ ⟨session, hfind, husable⟩

/-- A call that returns 0 when it gets through is not refused. -/
theorem not_refused_map {covered : Option (List UInt8)} {outcome : List UInt8 → DataResult}
    (hzero : ∀ bytes, (outcome bytes).result = 0) : ¬ Refused engine (covered.map outcome) := by
  intro hrefused
  obtain ⟨bytes, -, hbytes⟩ := Option.map_eq_some_iff.mp hrefused
  have hresult := hzero bytes
  rw [hbytes] at hresult
  exact absurd hresult (show ¬ (-1 : Int) = 0 by decide)

theorem encryptSafe_iff (plaintext : List UInt8) (plaintextLength : UInt32) :
    EncryptSafe engine sessionId plaintext plaintextLength ↔
      ∀ session, engine.dataSession sessionId = some session → session.key.Usable := by
  rw [EncryptSafe, encryptionEncryptData]
  cases hfind : engine.dataSession sessionId with
  | none =>
    refine iff_of_true ⟨Option.some_ne_none _, fun _ ↦ rfl⟩ fun session hnone ↦ ?_
    exact absurd hnone (Option.some_ne_none session).symm
  | some session =>
    rw [keyUsable_iff hfind]
    constructor
    · rintro ⟨-, hrefused⟩ found hfound
      rw [← Option.some.inj hfound]
      by_contra hunusable
      exact not_refused_map (fun _ ↦ rfl) (hrefused hunusable)
    · intro husable
      have hkey := husable session rfl
      refine ⟨?_, fun hunusable ↦ absurd hkey hunusable⟩
      rw [Ne, Option.map_eq_none_iff]
      exact cover_ne_none hkey.2 plaintext plaintextLength

theorem decryptSafe_iff (ciphertext : List UInt8) (ciphertextLength : UInt32) :
    DecryptSafe engine sessionId ciphertext ciphertextLength ↔
      ∀ session, engine.dataSession sessionId = some session →
        session.key.Usable ∧ 16 ≤ ciphertextLength := by
  rw [DecryptSafe, encryptionDecryptData]
  cases hfind : engine.dataSession sessionId with
  | none =>
    refine iff_of_true ⟨Option.some_ne_none _, fun _ ↦ rfl⟩ fun session hnone ↦ ?_
    exact absurd hnone (Option.some_ne_none session).symm
  | some session =>
    rw [keyUsable_iff hfind]
    constructor
    · rintro ⟨-, hrefused⟩ found hfound
      rw [← Option.some.inj hfound]
      by_contra hunusable
      refine not_refused_map (fun _ ↦ rfl) (hrefused ?_)
      rwa [← UInt32.not_le, ← not_and_or]
    · intro husable
      obtain ⟨hkey, hlength⟩ := husable session rfl
      refine ⟨?_, fun hunusable ↦ absurd hunusable ?_⟩
      · rw [Ne, Option.map_eq_none_iff]
        exact cover_ne_none hkey.2 ciphertext _
      · exact not_or.mpr ⟨not_not.mpr hkey, UInt32.not_lt.mpr hlength⟩

/-- A call on data is safe exactly when it meets the condition. -/
theorem dataCallSafe_iff (running : Option EncryptionEngine) (call : EncryptionCall) :
    DataCallSafe running call ↔ HasUsableKey running call := by
  refine forall_congr' fun running ↦ forall_congr' fun _ ↦ ?_
  cases call with
  | encryptData sessionId plaintext plaintextLength =>
    exact encryptSafe_iff plaintext plaintextLength
  | decryptData sessionId ciphertext ciphertextLength =>
    exact decryptSafe_iff ciphertext ciphertextLength
  | encryptBufferStream sessionId data length mallocPlain mallocEncrypted =>
    refine forall_congr' fun _ ↦ forall_congr' fun _ ↦ forall_congr' fun _ ↦ ?_
    exact encryptSafe_iff data length
  | _ => rfl

/-- The size of a ciphertext wraps around exactly when it is not below `2 ^ 32`. -/
theorem add_sixteen_lt_iff (length : UInt32) :
    length + 16 < length ↔ ¬ length.toNat + 16 < 2 ^ 32 := by
  have hbound := length.toNat_lt
  rw [UInt32.lt_iff_toNat_lt, UInt32.toNat_add, show (16 : UInt32).toNat = 16 from rfl]
  omega

/-- The buffer of a stream is too small exactly when there is a session and the size wraps
around. -/
theorem overruns_eq_false_iff (length : UInt32) :
    engine.overruns sessionId length = false ↔
      ∀ session, engine.dataSession sessionId = some session → length.toNat + 16 < 2 ^ 32 := by
  rw [EncryptionEngine.overruns, Bool.and_eq_false_imp, decide_eq_false_iff_not,
    add_sixteen_lt_iff, not_not, Option.isSome_iff_exists, forall_exists_index]

/-- Assumes: the encryption of a stream is safe. The stream leaves the program running exactly when
its buffer is not too small. -/
theorem encryptionEncryptBufferStream_ne_none_iff {data : List UInt8} {length : UInt32}
    {mallocPlain mallocEncrypted : Bool}
    (hsafe : engine.bufferCount < maxEncryptedBuffers → mallocPlain = true →
      mallocEncrypted = true → EncryptSafe engine.streaming sessionId data length) :
    encryptionEncryptBufferStream engine sessionId data length mallocPlain mallocEncrypted ≠ none ↔
      (engine.bufferCount < maxEncryptedBuffers → mallocPlain = true → mallocEncrypted = true →
        engine.overruns sessionId length = false) := by
  rw [encryptionEncryptBufferStream]
  split_ifs with hrefused hmalloc hoverruns
  · refine iff_of_true (Option.some_ne_none _) fun hroom _ _ ↦ ?_
    rw [overruns_eq_false_iff]
    intro session hsession
    rcases hrefused with rfl | hfull
    · exact absurd hsession (Option.some_ne_none session).symm
    · exact absurd hroom (Nat.not_lt.mpr hfull)
  · rw [Bool.and_eq_true] at hmalloc
    refine iff_of_false (not_not.mpr rfl) fun hfits ↦ ?_
    have hroom := Nat.not_le.mp (not_or.mp hrefused).2
    exact absurd (hoverruns.symm.trans (hfits hroom hmalloc.1 hmalloc.2)) (by decide)
  · rw [Bool.and_eq_true] at hmalloc
    refine iff_of_true ?_ fun _ _ _ ↦ Bool.eq_false_iff.mpr hoverruns
    rw [Ne, Option.map_eq_none_iff]
    exact (hsafe (Nat.not_le.mp (not_or.mp hrefused).2) hmalloc.1 hmalloc.2).1
  · refine iff_of_true (Option.some_ne_none _) fun _ hplain hencrypted ↦ ?_
    exact absurd (Bool.and_eq_true_iff.mpr ⟨hplain, hencrypted⟩) hmalloc

/-- From a running program, a call leaves it running and is safe exactly when it has a usable key
and its stream fits. -/
theorem dataCallSafe_step_iff (engine : EncryptionEngine) (call : EncryptionCall) :
    (encryptionStep (some engine) call ≠ none ∧ DataCallSafe (some engine) call) ↔
      HasUsableKey (some engine) call ∧ StreamFits (some engine) call := by
  rw [dataCallSafe_iff, and_comm]
  refine and_congr_right fun hcondition ↦ ?_
  have hcall := (dataCallSafe_iff (some engine) call).mpr hcondition engine rfl
  rw [encryptionStep, Option.bind_some]
  cases call with
  | encryptData sessionId plaintext plaintextLength =>
    refine iff_of_true ?_ fun _ _ ↦ trivial
    rw [encryptionCall, Ne, Option.map_eq_none_iff]
    exact hcall.1
  | decryptData sessionId ciphertext ciphertextLength =>
    refine iff_of_true ?_ fun _ _ ↦ trivial
    rw [encryptionCall, Ne, Option.map_eq_none_iff]
    exact hcall.1
  | encryptBufferStream sessionId data length mallocPlain mallocEncrypted =>
    rw [encryptionCall, encryptionEncryptBufferStream_ne_none_iff hcall, overruns_eq_false_iff]
    exact ⟨fun hfits found hfound ↦ Option.some.inj hfound ▸ hfits, fun hall ↦ hall engine rfl⟩
  | _ => exact iff_of_true (Option.some_ne_none _) fun _ _ ↦ trivial

/-! ### Every run -/

/-- In every run, every call on data is safe exactly when every such call for which there is a
session has a usable key, and at least 16 bytes to decrypt, and the program besides never stops
exactly when every stream that is encrypted also fits its buffer. -/
theorem dataCallsSafe_iff (nextSessionId nextBufferId : UInt32) (calls : List EncryptionCall) :
    (EveryStep encryptionStep DataCallSafe
        (some (encryptionEngineInit nextSessionId nextBufferId)) calls ↔
      EveryStep encryptionStep HasUsableKey
        (some (encryptionEngineInit nextSessionId nextBufferId)) calls) ∧
    ((AlongRun encryptionStep (fun running ↦ running ≠ none)
        (some (encryptionEngineInit nextSessionId nextBufferId)) calls ∧
      EveryStep encryptionStep DataCallSafe
        (some (encryptionEngineInit nextSessionId nextBufferId)) calls) ↔
      EveryStep encryptionStep (fun running call ↦
        HasUsableKey running call ∧ StreamFits running call)
        (some (encryptionEngineInit nextSessionId nextBufferId)) calls) := by
  constructor
  · exact forall_congr' fun _ ↦ forall_congr' fun call ↦ forall_congr' fun _ ↦
      dataCallSafe_iff _ call
  · refine alongRun_and_everyStep_iff (fun _ ↦ True) (fun _ _ ↦ True) (fun _ _ _ _ ↦ trivial) ?_
      trivial (Option.some_ne_none _) fun _ _ _ ↦ trivial
    intro running call _ _ hrunning
    obtain ⟨engine, rfl⟩ := Option.ne_none_iff_exists'.mp hrunning
    exact dataCallSafe_step_iff engine call

/-- A session whose key was destroyed is used to encrypt a byte: the call returns 0 and counts it.
-/
theorem not_dataCallsSafe_destroyed_key :
    ¬ EveryStep encryptionStep DataCallSafe (some (encryptionEngineInit 1 1))
      [.sessionCreate, .keyGenerate 1 8, .destroyKey 1, .encryptData 1 [65] 1] := by
  intro hsafe
  obtain ⟨engine, hengine⟩ := Option.ne_none_iff_exists'.mp
    (show runFrom encryptionStep (some (encryptionEngineInit 1 1))
      [.sessionCreate, .keyGenerate 1 8, .destroyKey 1] ≠ none by decide)
  have hcall := hsafe [.sessionCreate, .keyGenerate 1 8, .destroyKey 1] (.encryptData 1 [65] 1)
    (List.prefix_refl _) engine hengine
  have hdestroyed :
      engine = ⟨[⟨1, ⟨List.replicate 8 0, false⟩, 0, 0, 0, true⟩], 0, 0, 0, 0, 2, 1⟩ :=
    Option.some.inj (hengine.symm.trans (by decide))
  rw [hdestroyed] at hcall
  refine absurd (hcall.2 ?_) (by unfold Refused; decide)
  rintro ⟨session, hfind, hactive, -⟩
  have hsession : session = ⟨1, ⟨List.replicate 8 0, false⟩, 0, 0, 0, true⟩ :=
    Option.some.inj (hfind.symm.trans (by decide))
  rw [hsession] at hactive
  exact Bool.false_ne_true hactive

end OneOS.Cryptography
