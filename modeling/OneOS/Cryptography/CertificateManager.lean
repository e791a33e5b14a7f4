import OneOS.Foundation.NestedTables

/-!
# The certificate manager

`security-cryptography/certificate_manager.c`: key stores with certificates and private keys. A
certificate is named by the id of its store and its own id, and most calls go through the same two
loops: over the stores with the id, and in each over its certificates, until one has the id
(`findCertificate`). Ids are 32-bit counters of the file and wrap, so two stores can have the same
id; the loops then go on to the second one when the first does not have the certificate.

The field `chain_depth` of a certificate is used for two things. `certificate_verify_chain` counts
it up to one more than `MAX_CERTIFICATE_CHAIN` and fails from then on, and `certificate_bind_key`
and `certificate_get_associated_key` keep the id of the key in it. Revocation is recorded twice, in
the status of the certificate and in a list of the store, and the list has a bound.

Left out are the checks of pointers, and the data of certificates and keys with the calls that
export it, the names, times and types, the expiry and the metrics: no modelled function reads them,
and these calls change nothing.
-/

set_option autoImplicit false
set_option relaxedAutoImplicit false

namespace OneOS.Cryptography

open Foundation

/-! ### Stores, certificates and keys -/

/-- `MAX_CERTIFICATES`. -/
def maxCertificates : ℕ := 512

/-- `MAX_CERTIFICATE_CHAIN`. -/
def maxCertificateChain : UInt32 := 16

/-- `MAX_KEY_STORES`. -/
def maxKeyStores : ℕ := 64

/-- `MAX_REVOKED_CERTS`. -/
def maxRevokedCerts : ℕ := 256

/-- `CertificateStatus`. -/
inductive CertificateStatus
  | valid
  | expired
  | revoked
  | suspended
  deriving DecidableEq, Repr

/-- `Certificate`. -/
structure Certificate where
  certId : UInt32
  status : CertificateStatus
  chainDepth : UInt32
  deriving DecidableEq, Repr

/-- `PrivateKey`. -/
structure PrivateKey where
  keyId : UInt32
  isProtected : Bool
  deriving DecidableEq, Repr

/-- `KeyStore`, with the used rows of its arrays as lists. -/
structure KeyStore where
  storeId : UInt32
  certificates : List Certificate
  privateKeys : List PrivateKey
  revokedCertIds : List UInt32
  deriving DecidableEq, Repr

/-- `CertificateManager`, with the used rows of its stores as a list, and the counters of the file.
-/
structure CertificateManager where
  keyStores : List KeyStore
  defaultStoreId : UInt32
  certificatesValidated : UInt64
  validationFailures : UInt32
  nextCertId : UInt32
  nextKeyId : UInt32
  nextStoreId : UInt32
  deriving DecidableEq, Repr

/-- `certificate_manager_init`, which leaves the counters of the file. -/
def certificateManagerInit (nextCertId nextKeyId nextStoreId : UInt32) : CertificateManager where
  keyStores := []
  defaultStoreId := 0
  certificatesValidated := 0
  validationFailures := 0
  nextCertId := nextCertId
  nextKeyId := nextKeyId
  nextStoreId := nextStoreId

/-! ### Stores -/

/-- `keystore_create`. -/
def keystoreCreate (manager : CertificateManager) : CertificateManager × UInt32 :=
  if maxKeyStores ≤ manager.keyStores.length then (manager, 0)
  else
    ({ manager with
      keyStores := manager.keyStores ++
        [{ storeId := manager.nextStoreId
           certificates := []
           privateKeys := []
           revokedCertIds := [] }]
      defaultStoreId :=
        if manager.defaultStoreId = 0 then manager.nextStoreId else manager.defaultStoreId
      nextStoreId := manager.nextStoreId + 1 }, manager.nextStoreId)

/-- The first store with an id. -/
def CertificateManager.firstStore (manager : CertificateManager) (storeId : UInt32) :
    Option KeyStore :=
  manager.keyStores.find? fun store ↦ store.storeId = storeId

/-- `keystore_destroy`, which moves the stores behind the first one with the id up. -/
def keystoreDestroy (manager : CertificateManager) (storeId : UInt32) : CertificateManager × Int :=
  if storeId = 0 then (manager, -1)
  else if manager.firstStore storeId = none then (manager, -1)
  else
    ({ manager with
      keyStores := manager.keyStores.eraseP fun store ↦ store.storeId = storeId
      defaultStoreId :=
        if manager.defaultStoreId = storeId then 0 else manager.defaultStoreId }, 0)

/-! ### Certificates -/

/-- A certificate as `certificate_import` fills it in. -/
def importedCertificate (certId : UInt32) : Certificate where
  certId := certId
  status := .valid
  chainDepth := 0

/-- A new certificate behind those of a store. -/
def KeyStore.addCertificate (certId : UInt32) (store : KeyStore) : KeyStore :=
  { store with certificates := store.certificates ++ [importedCertificate certId] }

/-- `certificate_import`. When there is no memory for the data, an id is used up all the same. -/
def certificateImport (manager : CertificateManager) (storeId : UInt32) (allocated : Bool) :
    CertificateManager × UInt32 :=
  if storeId = 0 then (manager, 0)
  else
    match manager.firstStore storeId with
    | none => (manager, 0)
    | some store =>
      if maxCertificates ≤ store.certificates.length then (manager, 0)
      else if allocated = false then
        ({ manager with nextCertId := manager.nextCertId + 1 }, 0)
      else
        ({ manager with
          keyStores := updateFirst (fun store ↦ store.storeId = storeId)
            (KeyStore.addCertificate manager.nextCertId) manager.keyStores
          certificatesValidated := manager.certificatesValidated + 1
          nextCertId := manager.nextCertId + 1 }, manager.nextCertId)

/-- The certificate that the inner loop finds in a store. -/
def KeyStore.certificateFor (storeId certId : UInt32) (store : KeyStore) : Option Certificate :=
  if store.storeId = storeId then store.certificates.find? fun cert ↦ cert.certId = certId
  else none

/-- The certificate that the two loops find. -/
def CertificateManager.findCertificate (manager : CertificateManager) (storeId certId : UInt32) :
    Option Certificate :=
  if storeId = 0 ∨ certId = 0 then none
  else manager.keyStores.findSome? (KeyStore.certificateFor storeId certId)

/-- A change of the store in which the two loops find the certificate. -/
def CertificateManager.changeStore (manager : CertificateManager) (storeId certId : UInt32)
    (change : KeyStore → KeyStore) : CertificateManager :=
  { manager with
    keyStores := updateFirst (fun store ↦ (store.certificateFor storeId certId).isSome) change
      manager.keyStores }

/-- A change of the certificate that the inner loop finds in a store. -/
def KeyStore.changeCertificate (certId : UInt32) (change : Certificate → Certificate)
    (store : KeyStore) : KeyStore :=
  { store with
    certificates := updateFirst (fun cert ↦ cert.certId = certId) change store.certificates }

/-- `certificate_validate`. -/
def certificateValidate (manager : CertificateManager) (storeId certId : UInt32) :
    CertificateManager × Int :=
  match manager.findCertificate storeId certId with
  | none => (manager, -1)
  | some cert =>
    if cert.status = .valid then
      ({ manager with certificatesValidated := manager.certificatesValidated + 1 }, 0)
    else ({ manager with validationFailures := manager.validationFailures + 1 }, -1)

/-- A write to the field that counts verifications and keeps the key. -/
def Certificate.setChainDepth (chainDepth : UInt32) (cert : Certificate) : Certificate :=
  { cert with chainDepth := chainDepth }

/-- `certificate_verify_chain`. -/
def certificateVerifyChain (manager : CertificateManager) (storeId certId : UInt32) :
    CertificateManager × Int :=
  match manager.findCertificate storeId certId with
  | none => (manager, -1)
  | some cert =>
    if cert.chainDepth ≤ maxCertificateChain then
      (manager.changeStore storeId certId
        (KeyStore.changeCertificate certId (Certificate.setChainDepth (cert.chainDepth + 1))), 0)
    else (manager, -1)

/-- A write of the status of a revoked certificate. -/
def Certificate.revoke (cert : Certificate) : Certificate :=
  { cert with status := .revoked }

/-- What `certificate_revoke` does in the store of the certificate. -/
def KeyStore.revoke (certId : UInt32) (store : KeyStore) : KeyStore :=
  { store.changeCertificate certId Certificate.revoke with
    revokedCertIds :=
      if store.revokedCertIds.length < maxRevokedCerts then store.revokedCertIds ++ [certId]
      else store.revokedCertIds }

/-- `certificate_revoke`. -/
def certificateRevoke (manager : CertificateManager) (storeId certId : UInt32) :
    CertificateManager × Int :=
  match manager.findCertificate storeId certId with
  | none => (manager, -1)
  | some _ => (manager.changeStore storeId certId (KeyStore.revoke certId), 0)

/-- `certificate_check_revocation_status`. -/
def certificateCheckRevocationStatus (manager : CertificateManager) (storeId certId : UInt32) :
    Int :=
  if storeId = 0 ∨ certId = 0 then -1
  else
    match manager.firstStore storeId with
    | none => -1
    | some store => if certId ∈ store.revokedCertIds then 1 else 0

/-- `certificate_bind_key`, which does not look whether there is such a key. -/
def certificateBindKey (manager : CertificateManager) (storeId certId keyId : UInt32) :
    CertificateManager × Int :=
  if keyId = 0 then (manager, -1)
  else
    match manager.findCertificate storeId certId with
    | none => (manager, -1)
    | some _ =>
      (manager.changeStore storeId certId
        (KeyStore.changeCertificate certId (Certificate.setChainDepth keyId)), 0)

/-- `certificate_get_associated_key`: the key that is written when 0 is returned. -/
def certificateGetAssociatedKey (manager : CertificateManager) (storeId certId : UInt32) :
    Option UInt32 :=
  (manager.findCertificate storeId certId).map Certificate.chainDepth

/-! ### Private keys -/

/-- A new key behind those of a store. -/
def KeyStore.addPrivateKey (keyId : UInt32) (store : KeyStore) : KeyStore :=
  { store with privateKeys := store.privateKeys ++ [{ keyId := keyId, isProtected := true }] }

/-- What `private_key_generate` and `private_key_import` have in common: the id of the new key, when
there is one. Without memory for the data, an id is used up all the same. -/
def CertificateManager.addPrivateKey (manager : CertificateManager) (storeId : UInt32)
    (allocated : Bool) : CertificateManager × Option UInt32 :=
  match manager.firstStore storeId with
  | none => (manager, none)
  | some store =>
    if maxCertificates ≤ store.privateKeys.length then (manager, none)
    else if allocated = false then ({ manager with nextKeyId := manager.nextKeyId + 1 }, none)
    else
      ({ manager with
        keyStores := updateFirst (fun store ↦ store.storeId = storeId)
          (KeyStore.addPrivateKey manager.nextKeyId) manager.keyStores
        nextKeyId := manager.nextKeyId + 1 }, some manager.nextKeyId)

/-- `private_key_generate`. -/
def privateKeyGenerate (manager : CertificateManager) (storeId keyBits : UInt32)
    (allocated : Bool) : CertificateManager × UInt32 :=
  if storeId = 0 ∨ keyBits = 0 then (manager, 0)
  else
    let added := manager.addPrivateKey storeId allocated
    (added.1, added.2.getD 0)

/-- `private_key_import`, which returns the id as an `int`. -/
def privateKeyImport (manager : CertificateManager) (storeId : UInt32) (allocated : Bool) :
    CertificateManager × Int :=
  if storeId = 0 then (manager, -1)
  else
    let added := manager.addPrivateKey storeId allocated
    (added.1, (added.2.map fun keyId ↦ keyId.toInt32.toInt).getD (-1))

/-- The store has a key with the id. -/
def KeyStore.hasKey (storeId keyId : UInt32) (store : KeyStore) : Bool :=
  store.storeId = storeId && store.privateKeys.any fun key ↦ key.keyId = keyId

/-- A write to the mark of the first key with an id. -/
def KeyStore.setProtected (keyId : UInt32) (isProtected : Bool) (store : KeyStore) : KeyStore :=
  { store with
    privateKeys := updateFirst (fun key ↦ key.keyId = keyId)
      (fun key ↦ { key with isProtected := isProtected }) store.privateKeys }

/-- What `private_key_protect` and `private_key_unprotect` have in common. -/
def CertificateManager.setProtected (manager : CertificateManager) (storeId keyId : UInt32)
    (isProtected : Bool) : CertificateManager × Int :=
  if storeId = 0 ∨ keyId = 0 then (manager, -1)
  else if manager.keyStores.any (KeyStore.hasKey storeId keyId) then
    ({ manager with
      keyStores := updateFirst (KeyStore.hasKey storeId keyId)
        (KeyStore.setProtected keyId isProtected) manager.keyStores }, 0)
  else (manager, -1)

/-- `private_key_protect`. -/
def privateKeyProtect (manager : CertificateManager) (storeId keyId : UInt32) :
    CertificateManager × Int :=
  manager.setProtected storeId keyId true

/-- `private_key_unprotect`. -/
def privateKeyUnprotect (manager : CertificateManager) (storeId keyId : UInt32) :
    CertificateManager × Int :=
  manager.setProtected storeId keyId false

/-! ### Calls -/

/-- A call that can change the manager, with the keys that are bound of any type. -/
inductive CertificateCall (Key : Type)
  | keystoreCreate
  | keystoreDestroy (storeId : UInt32)
  | certificateImport (storeId : UInt32) (allocated : Bool)
  | certificateValidate (storeId certId : UInt32)
  | certificateVerifyChain (storeId certId : UInt32)
  | certificateRevoke (storeId certId : UInt32)
  | certificateBindKey (storeId certId : UInt32) (key : Key)
  | privateKeyGenerate (storeId keyBits : UInt32) (allocated : Bool)
  | privateKeyImport (storeId : UInt32) (allocated : Bool)
  | privateKeyProtect (storeId keyId : UInt32)
  | privateKeyUnprotect (storeId keyId : UInt32)
  deriving DecidableEq, Repr

/-- The manager after a call. -/
def certificateStep (manager : CertificateManager) : CertificateCall UInt32 → CertificateManager
  | .keystoreCreate => (keystoreCreate manager).1
  | .keystoreDestroy storeId => (keystoreDestroy manager storeId).1
  | .certificateImport storeId allocated => (certificateImport manager storeId allocated).1
  | .certificateValidate storeId certId => (certificateValidate manager storeId certId).1
  | .certificateVerifyChain storeId certId => (certificateVerifyChain manager storeId certId).1
  | .certificateRevoke storeId certId => (certificateRevoke manager storeId certId).1
  | .certificateBindKey storeId certId keyId => (certificateBindKey manager storeId certId keyId).1
  | .privateKeyGenerate storeId keyBits allocated =>
    (privateKeyGenerate manager storeId keyBits allocated).1
  | .privateKeyImport storeId allocated => (privateKeyImport manager storeId allocated).1
  | .privateKeyProtect storeId keyId => (privateKeyProtect manager storeId keyId).1
  | .privateKeyUnprotect storeId keyId => (privateKeyUnprotect manager storeId keyId).1

/-! ### What the calls can do -/

/-- Creating a store puts an empty one behind the others, or does nothing. -/
theorem keystoreCreate_cases (manager : CertificateManager) :
    (keystoreCreate manager).1 = manager ∨
      (keystoreCreate manager).1.keyStores = manager.keyStores ++
        [{ storeId := manager.nextStoreId
           certificates := []
           privateKeys := []
           revokedCertIds := [] }] := by
  rw [keystoreCreate]
  by_cases hfull : maxKeyStores ≤ manager.keyStores.length
  · rw [if_pos hfull]
    exact .inl rfl
  · rw [if_neg hfull]
    exact .inr rfl

/-- Destroying a store erases the first one with the id, or does nothing. -/
theorem keystoreDestroy_cases (manager : CertificateManager) (storeId : UInt32) :
    (keystoreDestroy manager storeId = (manager, -1) ∧
        (storeId ≠ 0 → manager.firstStore storeId = none)) ∨
      ∃ store, storeId ≠ 0 ∧ manager.firstStore storeId = some store ∧
        (keystoreDestroy manager storeId).2 = 0 ∧
        (keystoreDestroy manager storeId).1.keyStores =
          manager.keyStores.eraseP fun store ↦ store.storeId = storeId := by
  rw [keystoreDestroy]
  by_cases hzero : storeId = 0
  · exact .inl ⟨if_pos hzero, fun hne ↦ absurd hzero hne⟩
  rw [if_neg hzero]
  cases hfirst : manager.firstStore storeId with
  | none => exact .inl ⟨if_pos rfl, fun _ ↦ rfl⟩
  | some store =>
    rw [if_neg (Option.some_ne_none store)]
    exact .inr ⟨store, hzero, rfl, rfl, rfl⟩

/-- There is a store with the id, its first one has room, and there is memory for the data. -/
def CertificateManager.imports (manager : CertificateManager) (storeId : UInt32)
    (allocated : Bool) : Bool :=
  storeId ≠ 0 && allocated && (manager.firstStore storeId).any fun store ↦
    store.certificates.length < maxCertificates

/-- An import puts a certificate in the first store with the id, or leaves the stores. -/
theorem certificateImport_cases (manager : CertificateManager) (storeId : UInt32)
    (allocated : Bool) :
    (manager.imports storeId allocated = false ∧
        (certificateImport manager storeId allocated).1.keyStores = manager.keyStores) ∨
      ∃ store, manager.imports storeId allocated = true ∧
        manager.firstStore storeId = some store ∧
        (certificateImport manager storeId allocated).1.keyStores =
          updateFirst (fun store ↦ store.storeId = storeId)
            (KeyStore.addCertificate manager.nextCertId) manager.keyStores := by
  rw [certificateImport, CertificateManager.imports]
  by_cases hzero : storeId = 0
  · rw [if_pos hzero]
    exact .inl ⟨by simp [hzero], rfl⟩
  rw [if_neg hzero]
  cases hfirst : manager.firstStore storeId with
  | none => exact .inl ⟨by simp, rfl⟩
  | some store =>
    dsimp only
    split_ifs with hfull hallocated
    · exact .inl ⟨by simp [hfull], rfl⟩
    · exact .inl ⟨by simp [hallocated], rfl⟩
    · refine .inr ⟨store, ?_, rfl, rfl⟩
      rw [Bool.not_eq_false] at hallocated
      simp [hzero, hallocated, Nat.not_le.mp hfull]

/-- Verifying a chain counts up when the count is not past its bound, and fails otherwise. -/
theorem certificateVerifyChain_cases (manager : CertificateManager) (storeId certId : UInt32) :
    (certificateVerifyChain manager storeId certId = (manager, -1) ∧
        ∀ cert ∈ manager.findCertificate storeId certId, maxCertificateChain < cert.chainDepth) ∨
      ∃ cert, manager.findCertificate storeId certId = some cert ∧
        cert.chainDepth ≤ maxCertificateChain ∧
        certificateVerifyChain manager storeId certId =
          (manager.changeStore storeId certId (KeyStore.changeCertificate certId
            (Certificate.setChainDepth (cert.chainDepth + 1))), 0) := by
  rw [certificateVerifyChain]
  cases hfind : manager.findCertificate storeId certId with
  | none => exact .inl ⟨rfl, by simp⟩
  | some cert =>
    dsimp only
    by_cases hdepth : cert.chainDepth ≤ maxCertificateChain
    · rw [if_pos hdepth]
      exact .inr ⟨cert, rfl, hdepth, rfl⟩
    · rw [if_neg hdepth]
      exact .inl ⟨rfl, by simpa using hdepth⟩

/-- Binding a key writes it where a certificate is found, and fails otherwise. -/
theorem certificateBindKey_cases (manager : CertificateManager) (storeId certId keyId : UInt32) :
    (certificateBindKey manager storeId certId keyId = (manager, -1) ∧
        (keyId ≠ 0 → manager.findCertificate storeId certId = none)) ∨
      ∃ cert, keyId ≠ 0 ∧ manager.findCertificate storeId certId = some cert ∧
        certificateBindKey manager storeId certId keyId =
          (manager.changeStore storeId certId (KeyStore.changeCertificate certId
            (Certificate.setChainDepth keyId)), 0) := by
  rw [certificateBindKey]
  by_cases hkey : keyId = 0
  · rw [if_pos hkey]
    exact .inl ⟨rfl, fun hne ↦ absurd hkey hne⟩
  rw [if_neg hkey]
  cases hfind : manager.findCertificate storeId certId with
  | none => exact .inl ⟨rfl, fun _ ↦ rfl⟩
  | some cert => exact .inr ⟨cert, hkey, rfl, rfl⟩

/-- Revoking marks the certificate that is found, and fails when there is none. -/
theorem certificateRevoke_cases (manager : CertificateManager) (storeId certId : UInt32) :
    (certificateRevoke manager storeId certId = (manager, -1) ∧
        manager.findCertificate storeId certId = none) ∨
      ∃ cert, manager.findCertificate storeId certId = some cert ∧
        certificateRevoke manager storeId certId =
          (manager.changeStore storeId certId (KeyStore.revoke certId), 0) := by
  rw [certificateRevoke]
  cases hfind : manager.findCertificate storeId certId with
  | none => exact .inl ⟨rfl, rfl⟩
  | some cert => exact .inr ⟨cert, rfl, rfl⟩

/-! ### What the loops find after a call -/

section Lookups

variable {manager : CertificateManager} {storeId certId otherStore otherCert : UInt32}

/-- The certificates with an id in the stores with an id, one for each store that has one. The loops
find the first of them. -/
def CertificateManager.certificatesFor (manager : CertificateManager) (storeId certId : UInt32) :
    List Certificate :=
  manager.keyStores.filterMap (KeyStore.certificateFor storeId certId)

theorem findCertificate_eq_head? (hstore : storeId ≠ 0) (hcert : certId ≠ 0) :
    manager.findCertificate storeId certId = (manager.certificatesFor storeId certId).head? := by
  rw [CertificateManager.findCertificate, if_neg (not_or.mpr ⟨hstore, hcert⟩),
    CertificateManager.certificatesFor, List.head?_filterMap]

theorem ids_ne_zero_of_findCertificate {cert : Certificate}
    (hfind : manager.findCertificate storeId certId = some cert) : storeId ≠ 0 ∧ certId ≠ 0 := by
  rw [← not_or]
  intro hzero
  rw [CertificateManager.findCertificate, if_pos hzero] at hfind
  exact absurd hfind (Option.some_ne_none cert).symm

theorem certificateFor_of_ne {store : KeyStore} (hother : store.storeId ≠ storeId) :
    store.certificateFor storeId certId = none :=
  if_neg hother

theorem storeId_eq_of_isSome {store : KeyStore}
    (hfound : (store.certificateFor storeId certId).isSome = true) : store.storeId = storeId := by
  by_contra hother
  rw [certificateFor_of_ne hother] at hfound
  exact absurd hfound (by decide)

/-- A change of a certificate that keeps its id is a change of what is found under that id. -/
theorem certificateFor_changeCertificate (onCert : Certificate → Certificate)
    (hkeep : ∀ cert, (onCert cert).certId = cert.certId) (store : KeyStore) :
    (store.changeCertificate certId onCert).certificateFor otherStore otherCert =
      if otherCert = certId then (store.certificateFor otherStore otherCert).map onCert
      else store.certificateFor otherStore otherCert := by
  have hfind : (updateFirst (fun cert ↦ cert.certId = certId) onCert store.certificates).find?
      (fun cert ↦ cert.certId = otherCert) =
        if otherCert = certId then
          (store.certificates.find? fun cert ↦ cert.certId = otherCert).map onCert
        else store.certificates.find? fun cert ↦ cert.certId = otherCert :=
    find?_key_updateFirst hkeep
  rw [KeyStore.certificateFor, KeyStore.certificateFor, KeyStore.changeCertificate]
  by_cases hstore : store.storeId = otherStore
  · rw [if_pos hstore, if_pos hstore, hfind]
  · rw [if_neg hstore, if_neg hstore, Option.map_none, ite_self]

/-- A new certificate is found under its id when there was none. -/
theorem certificateFor_addCertificate (newId : UInt32) (store : KeyStore) :
    (store.addCertificate newId).certificateFor storeId certId =
      (store.certificateFor storeId certId).or
        (if store.storeId = storeId ∧ newId = certId then some (importedCertificate newId)
         else none) := by
  have hstore : (store.addCertificate newId).storeId = store.storeId := rfl
  rw [KeyStore.certificateFor, KeyStore.certificateFor, hstore]
  by_cases hid : store.storeId = storeId
  · rw [if_pos hid, if_pos hid, KeyStore.addCertificate, List.find?_append, List.find?_singleton]
    by_cases hcert : newId = certId
    · simp [hid, hcert, importedCertificate]
    · simp [hcert, importedCertificate]
  · rw [if_neg hid, if_neg hid, if_neg fun hboth ↦ hid hboth.1, Option.none_or]

/-- Assumes: a change that does to the certificates of a store what a change of one certificate
does, which keeps its id. It changes the first of the certificates with the id and no others. -/
theorem certificatesFor_changeStore (change : KeyStore → KeyStore)
    (onCert : Certificate → Certificate) (hkeep : ∀ cert, (onCert cert).certId = cert.certId)
    (hchange : ∀ (store : KeyStore) (storeId' certId' : UInt32),
      (change store).certificateFor storeId' certId' =
        (store.changeCertificate certId onCert).certificateFor storeId' certId') :
    (manager.changeStore storeId certId change).certificatesFor otherStore otherCert =
      if otherStore = storeId ∧ otherCert = certId then
        (manager.certificatesFor storeId certId).modifyHead onCert
      else manager.certificatesFor otherStore otherCert := by
  have hreading : ∀ store, (change store).certificateFor otherStore otherCert =
      if otherCert = certId then (store.certificateFor otherStore otherCert).map onCert
      else store.certificateFor otherStore otherCert := by
    intro store
    rw [hchange, certificateFor_changeCertificate onCert hkeep]
  split_ifs with hsame
  · obtain ⟨rfl, rfl⟩ := hsame
    refine filterMap_updateFirst_isSome change onCert fun store ↦ ?_
    rw [hreading, if_pos rfl]
  · refine filterMap_updateFirst change fun store hstore ↦ ?_
    have hid := storeId_eq_of_isSome hstore
    rw [hreading]
    split_ifs with hcert
    · have hother : store.storeId ≠ otherStore :=
        fun hstore ↦ hsame ⟨hstore.symm.trans hid, hcert⟩
      rw [certificateFor_of_ne hother, Option.map_none]
    · rfl

/-- A change of the certificate that is found, as the loops see it afterwards. -/
theorem findCertificate_changeStore (change : KeyStore → KeyStore)
    (onCert : Certificate → Certificate) (hkeep : ∀ cert, (onCert cert).certId = cert.certId)
    (hchange : ∀ (store : KeyStore) (storeId' certId' : UInt32),
      (change store).certificateFor storeId' certId' =
        (store.changeCertificate certId onCert).certificateFor storeId' certId')
    {cert : Certificate} (hfind : manager.findCertificate storeId certId = some cert) :
    (manager.changeStore storeId certId change).findCertificate storeId certId =
      some (onCert cert) := by
  obtain ⟨hstore, hcert⟩ := ids_ne_zero_of_findCertificate hfind
  rw [findCertificate_eq_head? hstore hcert] at hfind ⊢
  rw [certificatesFor_changeStore change onCert hkeep hchange, if_pos ⟨rfl, rfl⟩,
    List.head?_modifyHead, hfind, Option.map_some]

/-- The first store with an id has the id. -/
theorem storeId_of_firstStore {store : KeyStore}
    (hfirst : manager.firstStore storeId = some store) : store.storeId = storeId := by
  have htest := List.find?_some hfirst
  exact of_decide_eq_true htest

/-- The first store with an id after such a change: it is changed when it has the certificate. -/
theorem firstStore_changeStore (change : KeyStore → KeyStore)
    (hkeep : ∀ store, (change store).storeId = store.storeId) :
    (manager.changeStore storeId certId change).firstStore otherStore =
      (manager.firstStore otherStore).map fun store ↦
        if (store.certificateFor storeId certId).isSome then change store else store := by
  have htest : ∀ store, decide ((change store).storeId = otherStore) =
      decide (store.storeId = otherStore) := fun store ↦ by rw [hkeep]
  by_cases hsame : otherStore = storeId
  · subst hsame
    exact find?_updateFirst_finer change
      (fun store hstore ↦ decide_eq_true (storeId_eq_of_isSome hstore)) htest
  · have hfirst : (manager.changeStore storeId certId change).firstStore otherStore =
        manager.firstStore otherStore :=
      find?_updateFirst_of_other change (fun store hstore ↦ decide_eq_false fun hother ↦
        hsame (hother.symm.trans (storeId_eq_of_isSome hstore))) htest
    rw [hfirst]
    cases hstore : manager.firstStore otherStore with
    | none => rfl
    | some store =>
      have hid := storeId_of_firstStore hstore
      have hother : store.storeId ≠ storeId := fun hstore ↦ hsame (hid.symm.trans hstore)
      rw [Option.map_some, certificateFor_of_ne hother]
      rfl

/-- What the first store with an id has is listed first; this is what a change of that store changes
and what destroying it takes away. -/
theorem certificatesFor_split {store : KeyStore} (hfirst : manager.firstStore storeId = some store)
    (certId : UInt32) :
    ∃ rest, manager.certificatesFor storeId certId =
        (store.certificateFor storeId certId).toList ++ rest ∧
      (manager.keyStores.eraseP fun store ↦ store.storeId = storeId).filterMap
        (KeyStore.certificateFor storeId certId) = rest ∧
      ∀ change : KeyStore → KeyStore,
        (updateFirst (fun store ↦ store.storeId = storeId) change manager.keyStores).filterMap
          (KeyStore.certificateFor storeId certId) =
            ((change store).certificateFor storeId certId).toList ++ rest :=
  filterMap_split (fun _ hother ↦ certificateFor_of_ne (of_decide_eq_false hother)) hfirst

/-- The certificate that the first store with an id has is found. -/
theorem findCertificate_of_firstStore {store : KeyStore} {cert : Certificate} (hstore : storeId ≠ 0)
    (hcert : certId ≠ 0) (hfirst : manager.firstStore storeId = some store)
    (hfound : store.certificateFor storeId certId = some cert) :
    manager.findCertificate storeId certId = some cert := by
  obtain ⟨rest, hlisted, -, -⟩ := certificatesFor_split hfirst certId
  rw [findCertificate_eq_head? hstore hcert, hlisted, hfound]
  rfl

/-- Where a certificate is found, there is a store. -/
theorem firstStore_ne_none_of_findCertificate
    (hfound : (manager.findCertificate storeId certId).isSome) :
    manager.firstStore storeId ≠ none := by
  obtain ⟨cert, hcert⟩ := Option.isSome_iff_exists.mp hfound
  obtain ⟨hstore, hid⟩ := ids_ne_zero_of_findCertificate hcert
  intro hnone
  have hno : ∀ store ∈ manager.keyStores, store.storeId ≠ storeId := by
    simpa [CertificateManager.firstStore] using hnone
  have hlisted : manager.certificatesFor storeId certId = [] :=
    List.filterMap_eq_nil_iff.mpr fun store hmem ↦ certificateFor_of_ne (hno store hmem)
  rw [findCertificate_eq_head? hstore hid, hlisted] at hcert
  exact absurd hcert (by simp)

/-! ### Calls that leave the certificates -/

/-- A store as the calls for certificates see it. -/
def KeyStore.withoutKeys (store : KeyStore) : KeyStore :=
  { store with privateKeys := [] }

/-- The calls for keys do nothing to certificates. -/
theorem map_withoutKeys_addPrivateKey (allocated : Bool) :
    (manager.addPrivateKey storeId allocated).1.keyStores.map KeyStore.withoutKeys =
      manager.keyStores.map KeyStore.withoutKeys := by
  rw [CertificateManager.addPrivateKey]
  split
  · rfl
  · split_ifs
    · rfl
    · rfl
    · exact map_updateFirst fun _ _ ↦ rfl

theorem map_withoutKeys_setProtected (keyId : UInt32) (isProtected : Bool) :
    (manager.setProtected storeId keyId isProtected).1.keyStores.map KeyStore.withoutKeys =
      manager.keyStores.map KeyStore.withoutKeys := by
  rw [CertificateManager.setProtected]
  split_ifs
  · rfl
  · exact map_updateFirst fun _ _ ↦ rfl
  · rfl

/-- A call that leaves the certificates and the lists of revoked ones. -/
def CertificateCall.LeavesCertificates {Key : Type} : CertificateCall Key → Prop
  | .certificateValidate _ _ | .privateKeyGenerate _ _ _ | .privateKeyImport _ _
  | .privateKeyProtect _ _ | .privateKeyUnprotect _ _ => True
  | _ => False

theorem map_withoutKeys_step {call : CertificateCall UInt32} (hcall : call.LeavesCertificates) :
    (certificateStep manager call).keyStores.map KeyStore.withoutKeys =
      manager.keyStores.map KeyStore.withoutKeys := by
  cases call with
  | certificateValidate storeId certId =>
    rw [certificateStep, certificateValidate]
    split
    · rfl
    · split_ifs
      · rfl
      · rfl
  | privateKeyGenerate storeId keyBits allocated =>
    rw [certificateStep, privateKeyGenerate]
    split_ifs
    · rfl
    · exact map_withoutKeys_addPrivateKey allocated
  | privateKeyImport storeId allocated =>
    rw [certificateStep, privateKeyImport]
    split_ifs
    · rfl
    · exact map_withoutKeys_addPrivateKey allocated
  | privateKeyProtect storeId keyId => exact map_withoutKeys_setProtected keyId true
  | privateKeyUnprotect storeId keyId => exact map_withoutKeys_setProtected keyId false
  | _ => exact absurd hcall not_false

end Lookups

end OneOS.Cryptography
