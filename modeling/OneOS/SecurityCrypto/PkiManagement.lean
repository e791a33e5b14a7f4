import OneOS.Foundation.RowRecords
import OneOS.SecurityCrypto.CryptoCore
import Mathlib.Data.Vector.Basic

/-!
# Key pairs and signatures

The manager of keys in `security-crypto/pki_management.c`: generated key pairs, imported keys,
`pki_sign_data` and `pki_verify_signature`. A signature is a hash of the data, with the exclusive or
of the bytes of the private key put in; it is verified with the bytes of the public key in their
place.

The two keys of a generated pair hold different bytes, `11 i + 23` and `13 i + 31`. So what a pair
signs is verified with the same pair only when the exclusive or of the first bytes of both happens
to agree, and that is so for lengths that are 0 or 25 modulo 256 (`sizeAccepted_iff`). In whatever
order keys are generated and imported, the pairs of these lengths are those whose signatures are
accepted (`pkiVerifySignature_generated_iff`).

Left out are the type of a key and its times, which no function looks at, the export of keys, and
the chains of certificates, which are not verified with any key.
-/

set_option autoImplicit false
set_option relaxedAutoImplicit false

namespace OneOS.SecurityCrypto

open Foundation

/-! ### The manager -/

/-- The bytes of `PublicKey.key_data`. -/
def publicCapacity : ℕ := 512

/-- The bytes of `PrivateKey.key_data`. -/
def privateCapacity : ℕ := 1024

/-- `MAX_PUBLIC_KEYS`. -/
def maxPublicKeys : ℕ := 512

/-- `MAX_PRIVATE_KEYS`. -/
def maxPrivateKeys : ℕ := 256

/-- `MAX_KEY_PAIRS`. -/
def maxKeyPairs : ℕ := 256

/-- `PublicKey` and `PrivateKey`, which differ in the bytes they have room for. -/
structure PkiKey (capacity : ℕ) where
  keyId : UInt32
  keyData : Vector UInt8 capacity
  keySize : UInt16
deriving DecidableEq

/-- `PublicKey`. -/
abbrev PublicKey := PkiKey publicCapacity

/-- `PrivateKey`. -/
abbrev PrivateKey := PkiKey privateCapacity

/-- `KeyPair`: its pointers are the places of the keys in their tables. -/
structure KeyPair where
  keyPairId : UInt32
  publicKey : ℕ
  privateKey : ℕ
deriving DecidableEq

/-- `PKIManager`, with the static counters of the file. -/
structure PkiManager where
  publicKeys : List PublicKey
  privateKeys : List PrivateKey
  keyPairs : List KeyPair
  nextPublicKeyId : UInt32
  nextPrivateKeyId : UInt32
  nextKeyPairId : UInt32
deriving DecidableEq

/-- What a call that gives no result did. -/
inductive PkiFailure where
  /-- It returned -1. -/
  | refused
  /-- It read behind the bytes of a key. -/
  | outOfBounds
deriving DecidableEq

/-! ### The operations -/

/-- `pki_manager_init`: the counters go on where the last manager left them. -/
def pkiManagerInit (nextPublicKeyId nextPrivateKeyId nextKeyPairId : UInt32) : PkiManager :=
  ⟨[], [], [], nextPublicKeyId, nextPrivateKeyId, nextKeyPairId⟩

/-- A byte of a generated key. -/
def keyByte (factor offset i : ℕ) : UInt8 :=
  UInt8.ofNat ((i * factor + offset) % 256)

/-- A key of generated bytes: bytes that are not generated are 0. -/
def generatedKey (capacity factor offset : ℕ) (keyId : UInt32) (keySize : UInt16) :
    PkiKey capacity where
  keyId := keyId
  keyData := Vector.ofFn fun i ↦ if i < keySize.toNat then keyByte factor offset i else 0
  keySize := keySize

/-- The public key of a generated pair. -/
def generatedPublicKey : UInt32 → UInt16 → PublicKey :=
  generatedKey publicCapacity 11 23

/-- The private key of a generated pair. -/
def generatedPrivateKey : UInt32 → UInt16 → PrivateKey :=
  generatedKey privateCapacity 13 31

/-- `pki_generate_key_pair`, which returns nothing when a table is full. -/
def pkiGenerateKeyPair (manager : PkiManager) (keySize : UInt16) :
    PkiManager × Option KeyPair :=
  if maxKeyPairs ≤ manager.keyPairs.length then (manager, none)
  else if maxPublicKeys ≤ manager.publicKeys.length ∨
      maxPrivateKeys ≤ manager.privateKeys.length then (manager, none)
  else
    let pair : KeyPair :=
      ⟨manager.nextKeyPairId, manager.publicKeys.length, manager.privateKeys.length⟩
    ({ publicKeys := manager.publicKeys ++ [generatedPublicKey manager.nextPublicKeyId keySize]
       privateKeys :=
        manager.privateKeys ++ [generatedPrivateKey manager.nextPrivateKeyId keySize]
       keyPairs := manager.keyPairs ++ [pair]
       nextPublicKeyId := manager.nextPublicKeyId + 1
       nextPrivateKeyId := manager.nextPrivateKeyId + 1
       nextKeyPairId := manager.nextKeyPairId + 1 }, some pair)

/-- A key of the bytes it is imported from. -/
def importedKey (capacity : ℕ) (keyId : UInt32) (keyData : List UInt8) : PkiKey capacity where
  keyId := keyId
  keyData := Vector.ofFn fun i ↦ keyData.getD i 0
  keySize := UInt16.ofNat keyData.length

/-- `pki_import_public_key`: whether the key was taken. -/
def pkiImportPublicKey (manager : PkiManager) (keyData : List UInt8) : PkiManager × Bool :=
  if keyData.length = 0 ∨ publicCapacity < keyData.length then (manager, false)
  else if maxPublicKeys ≤ manager.publicKeys.length then (manager, false)
  else
    ({ manager with
        publicKeys :=
          manager.publicKeys ++ [importedKey publicCapacity manager.nextPublicKeyId keyData]
        nextPublicKeyId := manager.nextPublicKeyId + 1 }, true)

/-- `pki_import_private_key`: whether the key was taken. -/
def pkiImportPrivateKey (manager : PkiManager) (keyData : List UInt8) : PkiManager × Bool :=
  if keyData.length = 0 ∨ privateCapacity < keyData.length then (manager, false)
  else if maxPrivateKeys ≤ manager.privateKeys.length then (manager, false)
  else
    ({ manager with
        privateKeys :=
          manager.privateKeys ++ [importedKey privateCapacity manager.nextPrivateKeyId keyData]
        nextPrivateKeyId := manager.nextPrivateKeyId + 1 }, true)

/-- The loop over the bytes of a key, which stops nowhere when the length is not that of a key. -/
def PkiKey.xorInto {capacity : ℕ} (key : PkiKey capacity) (value : UInt32) :
    Except PkiFailure UInt32 :=
  (List.range key.keySize.toNat).foldlM (fun value j ↦
    match key.keyData[j]? with
    | none => .error .outOfBounds
    | some byte => .ok (value ^^^ byte.toUInt32)) value

/-- `pki_sign_data`: the four bytes of the signature. -/
def pkiSignData (manager : PkiManager) (privateKeyId : UInt32) (data : List UInt8) :
    Except PkiFailure UInt32 :=
  if data = [] then .error .refused
  else
    match manager.privateKeys.find? fun key ↦ key.keyId = privateKeyId with
    | none => .error .refused
    | some key => key.xorInto (data.foldl hashByte 0)

/-- `pki_verify_signature`. -/
def pkiVerifySignature (manager : PkiManager) (publicKeyId : UInt32) (data : List UInt8)
    (signature : UInt32) : Except PkiFailure Unit :=
  if data = [] then .error .refused
  else
    match manager.publicKeys.find? fun key ↦ key.keyId = publicKeyId with
    | none => .error .refused
    | some key => do
      let expected ← key.xorInto (data.foldl hashByte 0)
      if expected = signature then .ok () else .error .refused

/-- A call that adds keys. -/
inductive PkiCall where
  | generate (keySize : UInt16)
  | importPublic (keyData : List UInt8)
  | importPrivate (keyData : List UInt8)
deriving DecidableEq

/-- One call. -/
def pkiCall (manager : PkiManager) : PkiCall → PkiManager
  | .generate keySize => (pkiGenerateKeyPair manager keySize).1
  | .importPublic keyData => (pkiImportPublicKey manager keyData).1
  | .importPrivate keyData => (pkiImportPrivateKey manager keyData).1

/-- A run of calls. -/
def pkiRun (manager : PkiManager) (calls : List PkiCall) : PkiManager :=
  calls.foldl pkiCall manager

/-! ### What the bytes of a key do -/

section Bytes

variable {capacity factor offset size : ℕ}

/-- The exclusive or of the first bytes that are generated. -/
def keyBytesXor (factor offset size : ℕ) : UInt32 :=
  keyXor ((List.range size).map (keyByte factor offset))

theorem keyBytesXor_succ (factor offset size : ℕ) :
    keyBytesXor factor offset (size + 1) =
      keyBytesXor factor offset size ^^^ (keyByte factor offset size).toUInt32 := by
  rw [keyBytesXor, keyXor, List.range_succ, List.map_append, List.foldl_append]
  rfl

/-- The loop up to a place inside a generated key. -/
theorem foldlM_generatedKey (keyId : UInt32) (keySize : UInt16) (hsize : size ≤ capacity)
    (hlength : size ≤ keySize.toNat) (value : UInt32) :
    (List.range size).foldlM (fun value j ↦
        match (generatedKey capacity factor offset keyId keySize).keyData[j]? with
        | none => Except.error PkiFailure.outOfBounds
        | some byte => .ok (value ^^^ byte.toUInt32)) value =
      .ok (value ^^^ keyBytesXor factor offset size) := by
  induction size with
  | zero => simp [keyBytesXor, keyXor, Pure.pure, Except.pure]
  | succ size ih =>
    have hbyte : (generatedKey capacity factor offset keyId keySize).keyData[size]? =
        some (keyByte factor offset size) := by
      rw [generatedKey, Vector.getElem?_eq_getElem (Nat.lt_of_succ_le hsize), Vector.getElem_ofFn,
        if_pos (Nat.lt_of_succ_le hlength)]
    rw [List.range_succ, List.foldlM_append, ih (by omega) (by omega), keyBytesXor_succ,
      ← UInt32.xor_assoc]
    simp [hbyte, Bind.bind, Except.bind, Pure.pure, Except.pure]

/-- The loop over a generated key reads behind its bytes exactly when its length is more than there
is room for. -/
theorem xorInto_generatedKey (keyId : UInt32) (keySize : UInt16) (value : UInt32) :
    (generatedKey capacity factor offset keyId keySize).xorInto value =
      if keySize.toNat ≤ capacity then .ok (value ^^^ keyBytesXor factor offset keySize.toNat)
      else .error .outOfBounds := by
  split_ifs with hsize
  · exact foldlM_generatedKey keyId keySize hsize le_rfl value
  · -- the loop reaches the end of the bytes, and the next byte is not one of the key
    obtain ⟨later, hlater⟩ : ∃ later, List.range keySize.toNat =
        List.range capacity ++ capacity :: later := by
      refine ⟨(List.range (keySize.toNat - (capacity + 1))).map (capacity + 1 + ·), ?_⟩
      rw [List.append_cons, ← List.range_succ, ← List.range_add]
      congr 1
      omega
    have hoff : (generatedKey capacity factor offset keyId keySize).keyData[capacity]? = none :=
      Vector.getElem?_eq_none le_rfl
    rw [PkiKey.xorInto, show (generatedKey capacity factor offset keyId keySize).keySize = keySize
      from rfl, hlater, List.foldlM_append,
      foldlM_generatedKey keyId keySize le_rfl (by omega) value]
    simp only [Bind.bind, Except.bind, List.foldlM_cons, hoff]

/-- Assumes: the first 256 bytes cancel. The bytes come again, so only the rest counts. -/
theorem keyBytesXor_mod (hperiod : keyBytesXor factor offset 256 = 0) (size : ℕ) :
    keyBytesXor factor offset (size % 256) = keyBytesXor factor offset size := by
  have hround : ∀ size,
      keyBytesXor factor offset (256 + size) = keyBytesXor factor offset size := by
    intro size
    induction size with
    | zero => exact hperiod
    | succ size ih =>
      have hbyte : keyByte factor offset (256 + size) = keyByte factor offset size := by
        rw [keyByte, keyByte, Nat.add_mul, Nat.add_assoc, Nat.mul_add_mod]
      rw [← Nat.add_assoc, keyBytesXor_succ, keyBytesXor_succ, ih, hbyte]
  induction size using Nat.strong_induction_on with
  | _ size ih =>
    by_cases hsmall : size < 256
    · rw [Nat.mod_eq_of_lt hsmall]
    · obtain ⟨rest, rfl⟩ := Nat.exists_eq_add_of_le (Nat.le_of_not_lt hsmall)
      rw [hround, Nat.add_mod_left, ih rest (by omega)]

/-- What has been put together after every byte. -/
def prefixXors (factor offset count : ℕ) : List UInt32 :=
  ((List.range count).map (keyByte factor offset)).scanl
    (fun value byte ↦ value ^^^ byte.toUInt32) 0

theorem getElem?_prefixXors {count : ℕ} (hsize : size ≤ count) :
    (prefixXors factor offset count)[size]? = some (keyBytesXor factor offset size) := by
  rw [prefixXors, List.getElem?_scanl, if_pos (by simpa using hsize), ← List.map_take,
    List.take_range, min_eq_left hsize, keyBytesXor, keyXor]

/-- The places below 256 where the bytes of both keys have come to the same. -/
theorem prefixXors_same :
    ∀ place ∈ ((prefixXors 11 23 255).zip (prefixXors 13 31 255)).zipIdx,
      (place.1.1 = place.1.2 ↔ place.2 = 0 ∨ place.2 = 25) := by
  decide +kernel

/-- The lengths for which the bytes of both keys have one exclusive or. -/
theorem keyBytesXor_eq_iff (size : ℕ) :
    keyBytesXor 11 23 size = keyBytesXor 13 31 size ↔ size % 256 = 0 ∨ size % 256 = 25 := by
  have hpublic : keyBytesXor 11 23 256 = 0 := by decide +kernel
  have hprivate : keyBytesXor 13 31 256 = 0 := by decide +kernel
  rw [← keyBytesXor_mod hpublic, ← keyBytesXor_mod hprivate]
  have hsize : size % 256 ≤ 255 := Nat.le_of_lt_succ (Nat.mod_lt size (by decide))
  refine prefixXors_same ((_, _), size % 256) (List.mk_mem_zipIdx_iff_getElem?.mpr ?_)
  rw [List.getElem?_zip_eq_some]
  exact ⟨getElem?_prefixXors hsize, getElem?_prefixXors hsize⟩

end Bytes

/-! ### Keys that are found again -/

section Runs

variable {manager : PkiManager} {firstPublic firstPrivate : UInt32}

/-- The keys of a pair were generated, with one length. -/
def GeneratedPair (manager : PkiManager) (pair : KeyPair) : Prop :=
  ∃ publicKeyId privateKeyId keySize,
    manager.publicKeys[pair.publicKey]? = some (generatedPublicKey publicKeyId keySize) ∧
      manager.privateKeys[pair.privateKey]? = some (generatedPrivateKey privateKeyId keySize)

/-- The keys are numbered in order and fit in their tables, and the pairs are of generated keys. -/
structure PkiManager.Wf (firstPublic firstPrivate : UInt32) (manager : PkiManager) : Prop where
  publicNumbers : NumberedFrom firstPublic PkiKey.keyId manager.publicKeys
  privateNumbers : NumberedFrom firstPrivate PkiKey.keyId manager.privateKeys
  publicNext : manager.nextPublicKeyId = UInt32.ofNat manager.publicKeys.length + firstPublic
  privateNext : manager.nextPrivateKeyId = UInt32.ofNat manager.privateKeys.length + firstPrivate
  publicLength : manager.publicKeys.length ≤ maxPublicKeys
  privateLength : manager.privateKeys.length ≤ maxPrivateKeys
  pairs : ∀ pair ∈ manager.keyPairs, GeneratedPair manager pair

/-- Keys that are added to the tables leave the pairs there are as they are. -/
theorem GeneratedPair.append {pair : KeyPair} (hpair : GeneratedPair manager pair)
    {other : PkiManager} (hpublic : manager.publicKeys <+: other.publicKeys)
    (hprivate : manager.privateKeys <+: other.privateKeys) : GeneratedPair other pair := by
  obtain ⟨publicKeyId, privateKeyId, keySize, hpublicKey, hprivateKey⟩ := hpair
  obtain ⟨laterPublic, hlaterPublic⟩ := hpublic
  obtain ⟨laterPrivate, hlaterPrivate⟩ := hprivate
  refine ⟨publicKeyId, privateKeyId, keySize, ?_, ?_⟩
  · rw [← hlaterPublic, List.getElem?_append_left (List.getElem?_eq_some_iff.mp hpublicKey).1,
      hpublicKey]
  · rw [← hlaterPrivate, List.getElem?_append_left (List.getElem?_eq_some_iff.mp hprivateKey).1,
      hprivateKey]

theorem pkiManagerInit_wf (nextPair : UInt32) :
    (pkiManagerInit firstPublic firstPrivate nextPair).Wf firstPublic firstPrivate where
  publicNumbers := rfl
  privateNumbers := rfl
  publicNext := (UInt32.zero_add firstPublic).symm
  privateNext := (UInt32.zero_add firstPrivate).symm
  publicLength := Nat.zero_le _
  privateLength := Nat.zero_le _
  pairs _ hpair := absurd hpair List.not_mem_nil

theorem pkiGenerateKeyPair_wf (hwf : manager.Wf firstPublic firstPrivate) (keySize : UInt16) :
    (pkiGenerateKeyPair manager keySize).1.Wf firstPublic firstPrivate := by
  rw [pkiGenerateKeyPair]
  split_ifs with hpairs hkeys
  · exact hwf
  · exact hwf
  · obtain ⟨hpublicRoom, hprivateRoom⟩ := not_or.mp hkeys
    exact {
      publicNumbers := hwf.publicNumbers.concat hwf.publicNext
      privateNumbers := hwf.privateNumbers.concat hwf.privateNext
      publicNext := by
        simp only [hwf.publicNext, List.length_append, List.length_singleton, nextNumber_succ]
      privateNext := by
        simp only [hwf.privateNext, List.length_append, List.length_singleton, nextNumber_succ]
      publicLength := by
        rw [List.length_append, List.length_singleton]
        omega
      privateLength := by
        rw [List.length_append, List.length_singleton]
        omega
      pairs := by
        intro pair hpair
        rcases List.mem_append.mp hpair with hpair | hpair
        · exact (hwf.pairs pair hpair).append (List.prefix_append _ _) (List.prefix_append _ _)
        · rw [List.mem_singleton.mp hpair]
          exact ⟨manager.nextPublicKeyId, manager.nextPrivateKeyId, keySize,
            List.getElem?_concat_length, List.getElem?_concat_length⟩ }

theorem pkiImportPublicKey_wf (hwf : manager.Wf firstPublic firstPrivate) (keyData : List UInt8) :
    (pkiImportPublicKey manager keyData).1.Wf firstPublic firstPrivate := by
  rw [pkiImportPublicKey]
  split_ifs with hsize hroom
  · exact hwf
  · exact hwf
  · exact { hwf with
      publicNumbers := hwf.publicNumbers.concat hwf.publicNext
      publicNext := by
        simp only [hwf.publicNext, List.length_append, List.length_singleton, nextNumber_succ]
      publicLength := by
        rw [List.length_append, List.length_singleton]
        omega
      pairs := fun pair hpair ↦
        (hwf.pairs pair hpair).append (List.prefix_append _ _) List.prefix_rfl }

theorem pkiImportPrivateKey_wf (hwf : manager.Wf firstPublic firstPrivate) (keyData : List UInt8) :
    (pkiImportPrivateKey manager keyData).1.Wf firstPublic firstPrivate := by
  rw [pkiImportPrivateKey]
  split_ifs with hsize hroom
  · exact hwf
  · exact hwf
  · exact { hwf with
      privateNumbers := hwf.privateNumbers.concat hwf.privateNext
      privateNext := by
        simp only [hwf.privateNext, List.length_append, List.length_singleton, nextNumber_succ]
      privateLength := by
        rw [List.length_append, List.length_singleton]
        omega
      pairs := fun pair hpair ↦
        (hwf.pairs pair hpair).append List.prefix_rfl (List.prefix_append _ _) }

theorem pkiCall_wf (hwf : manager.Wf firstPublic firstPrivate) (call : PkiCall) :
    (pkiCall manager call).Wf firstPublic firstPrivate := by
  cases call with
  | generate keySize => exact pkiGenerateKeyPair_wf hwf keySize
  | importPublic keyData => exact pkiImportPublicKey_wf hwf keyData
  | importPrivate keyData => exact pkiImportPrivateKey_wf hwf keyData

theorem pkiRun_wf (hwf : manager.Wf firstPublic firstPrivate) (calls : List PkiCall) :
    (pkiRun manager calls).Wf firstPublic firstPrivate := by
  induction calls generalizing manager with
  | nil => exact hwf
  | cons call calls ih => exact ih (pkiCall_wf hwf call)

/-- What a key that is in the table signs. -/
theorem pkiSignData_of_getElem? (hwf : manager.Wf firstPublic firstPrivate) {i : ℕ}
    {key : PrivateKey} (hkey : manager.privateKeys[i]? = some key) {data : List UInt8}
    (hdata : data ≠ []) :
    pkiSignData manager key.keyId data = key.xorInto (data.foldl hashByte 0) := by
  have hnodup := hwf.privateNumbers.nodup (Nat.lt_of_le_of_lt hwf.privateLength (by decide))
  rw [pkiSignData, if_neg hdata, find?_key_of_mem hnodup (List.mem_of_getElem? hkey)]

/-- What a key that is in the table verifies. -/
theorem pkiVerifySignature_of_getElem? (hwf : manager.Wf firstPublic firstPrivate) {i : ℕ}
    {key : PublicKey} (hkey : manager.publicKeys[i]? = some key) {data : List UInt8}
    (hdata : data ≠ []) (signature : UInt32) :
    pkiVerifySignature manager key.keyId data signature = .ok () ↔
      key.xorInto (data.foldl hashByte 0) = .ok signature := by
  have hnodup := hwf.publicNumbers.nodup (Nat.lt_of_le_of_lt hwf.publicLength (by decide))
  rw [pkiVerifySignature, if_neg hdata, find?_key_of_mem hnodup (List.mem_of_getElem? hkey)]
  simp only
  cases key.xorInto (data.foldl hashByte 0) with
  | error failure => simp [Bind.bind, Except.bind]
  | ok expected => by_cases hsame : expected = signature <;> simp [Bind.bind, Except.bind, hsame]

/-- What a pair signs is verified with it when the length is that of both keys and the bytes of both
come to the same. -/
theorem signed_verified_iff (hwf : manager.Wf firstPublic firstPrivate) {i j : ℕ}
    {publicKeyId privateKeyId : UInt32} {keySize : UInt16}
    (hpublic : manager.publicKeys[i]? = some (generatedPublicKey publicKeyId keySize))
    (hprivate : manager.privateKeys[j]? = some (generatedPrivateKey privateKeyId keySize))
    {data : List UInt8} (hdata : data ≠ []) :
    (∃ signature, pkiSignData manager privateKeyId data = .ok signature ∧
        pkiVerifySignature manager publicKeyId data signature = .ok ()) ↔
      keySize.toNat ≤ publicCapacity ∧
        keyBytesXor 11 23 keySize.toNat = keyBytesXor 13 31 keySize.toNat := by
  have hsign : pkiSignData manager privateKeyId data = _ :=
    (pkiSignData_of_getElem? hwf hprivate hdata).trans
      (xorInto_generatedKey privateKeyId keySize (data.foldl hashByte 0))
  have hverify : ∀ signature, pkiVerifySignature manager publicKeyId data signature = .ok () ↔ _ :=
    fun signature ↦ (pkiVerifySignature_of_getElem? hwf hpublic hdata signature).trans
      (by rw [generatedPublicKey, xorInto_generatedKey])
  rw [hsign]
  constructor
  · rintro ⟨signature, hsigned, haccepted⟩
    rw [hverify] at haccepted
    split_ifs at haccepted hsigned with hsize
    rw [← Except.ok.inj hsigned, Except.ok.injEq, UInt32.xor_right_inj] at haccepted
    exact ⟨hsize, haccepted⟩
  · rintro ⟨hsize, hsame⟩
    have hprivateSize : keySize.toNat ≤ privateCapacity := Nat.le_trans hsize (by decide)
    refine ⟨_, if_pos hprivateSize, ?_⟩
    rw [hverify, if_pos hsize, hsame]

/-- The five lengths. -/
theorem sizeAccepted_iff (size : ℕ) :
    size ≤ publicCapacity ∧ keyBytesXor 11 23 size = keyBytesXor 13 31 size ↔
      size ∈ [0, 25, 256, 281, 512] := by
  rw [keyBytesXor_eq_iff, publicCapacity]
  simp only [List.mem_cons, List.not_mem_nil, or_false]
  omega

/-- Keys may be generated and imported in whatever order: a pair verifies what it signs exactly when
its length is one of five. With a length above 512 the bytes behind those of the public key are read
(`outOfBounds`), and this counts as not verified. -/
theorem pkiVerifySignature_generated_iff (nextPublic nextPrivate nextPair : UInt32)
    (calls : List PkiCall) {manager : PkiManager}
    (hrun : manager = pkiRun (pkiManagerInit nextPublic nextPrivate nextPair) calls)
    {pair : KeyPair} (hpair : pair ∈ manager.keyPairs) :
    ∃ publicKey privateKey,
      manager.publicKeys[pair.publicKey]? = some publicKey ∧
      manager.privateKeys[pair.privateKey]? = some privateKey ∧
      ∀ data, data ≠ [] →
        ((∃ signature, pkiSignData manager privateKey.keyId data = .ok signature ∧
            pkiVerifySignature manager publicKey.keyId data signature = .ok ()) ↔
          publicKey.keySize.toNat ∈ [0, 25, 256, 281, 512]) := by
  have hwf : manager.Wf nextPublic nextPrivate :=
      hrun ▸ pkiRun_wf (pkiManagerInit_wf nextPair) calls
  obtain ⟨publicKeyId, privateKeyId, keySize, hpublic, hprivate⟩ := hwf.pairs pair hpair
  refine ⟨_, _, hpublic, hprivate, fun data hdata ↦ ?_⟩
  exact (signed_verified_iff hwf hpublic hprivate hdata).trans (sizeAccepted_iff keySize.toNat)

/-- A pair of length 25, generated after a key has been imported. -/
theorem pkiVerifySignature_generated_iff_example :
    let manager := pkiRun (pkiManagerInit 1 1 1) [.importPublic [7], .generate 25]
    ∃ publicKey privateKey,
      manager.publicKeys[1]? = some publicKey ∧ manager.privateKeys[0]? = some privateKey ∧
      ∀ data, data ≠ [] →
        ((∃ signature, pkiSignData manager privateKey.keyId data = .ok signature ∧
            pkiVerifySignature manager publicKey.keyId data signature = .ok ()) ↔
          publicKey.keySize.toNat ∈ [0, 25, 256, 281, 512]) :=
  pkiVerifySignature_generated_iff 1 1 1 [.importPublic [7], .generate 25] rfl
    (List.mem_singleton_self (⟨1, 1, 0⟩ : KeyPair))

end Runs

end OneOS.SecurityCrypto
