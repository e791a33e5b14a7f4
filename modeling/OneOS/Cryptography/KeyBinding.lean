import OneOS.Cryptography.CertificateManager
import OneOS.Foundation.Runs

/-!
# Keys bound to certificates

A key that is bound to a certificate is to be associated with it until another one is bound, and the
verification of the chain is not to depend on the key. Both are asked of two runs with the same
calls in which the keys that are bound may differ (`bothSteps`): in each, the bound key is given
back in every state (`KeysYielded`), and every verification has the same result in both
(`SameVerdict`). Which keys are bound is recorded beside the runs (`trackBound`).

The key is kept in the field in which `certificate_verify_chain` counts. `keyBinding_iff` says
exactly when the two do not meet: when a certificate with a bound key is verified, the key is past
the bound of the count; and no import hides a certificate with a bound key behind a new one, which
takes ids that have wrapped around.
-/

set_option autoImplicit false
set_option relaxedAutoImplicit false

namespace OneOS.Cryptography

open Foundation

/-! ### Two runs -/

/-- The keys of one call in the two runs: in both a key, or in both none. -/
structure KeyChoice where
  first : UInt32
  second : UInt32
  zero_iff : first = 0 ↔ second = 0

/-- A call with its key replaced. -/
def CertificateCall.map {Key Other : Type} (choose : Key → Other) :
    CertificateCall Key → CertificateCall Other
  | .keystoreCreate => .keystoreCreate
  | .keystoreDestroy storeId => .keystoreDestroy storeId
  | .certificateImport storeId allocated => .certificateImport storeId allocated
  | .certificateValidate storeId certId => .certificateValidate storeId certId
  | .certificateVerifyChain storeId certId => .certificateVerifyChain storeId certId
  | .certificateRevoke storeId certId => .certificateRevoke storeId certId
  | .certificateBindKey storeId certId key => .certificateBindKey storeId certId (choose key)
  | .privateKeyGenerate storeId keyBits allocated => .privateKeyGenerate storeId keyBits allocated
  | .privateKeyImport storeId allocated => .privateKeyImport storeId allocated
  | .privateKeyProtect storeId keyId => .privateKeyProtect storeId keyId
  | .privateKeyUnprotect storeId keyId => .privateKeyUnprotect storeId keyId

/-- The two managers after a call. -/
def bothSteps (managers : CertificateManager × CertificateManager)
    (call : CertificateCall KeyChoice) : CertificateManager × CertificateManager :=
  (certificateStep managers.1 (call.map KeyChoice.first),
    certificateStep managers.2 (call.map KeyChoice.second))

/-- The first store with an id has a certificate with an id. -/
def CertificateManager.firstHas (manager : CertificateManager) (storeId certId : UInt32) : Bool :=
  (manager.firstStore storeId).any fun store ↦ (store.certificateFor storeId certId).isSome

/-- The keys bound to the certificates with an id in the stores with an id. -/
abbrev BoundKeys := UInt32 → UInt32 → Option KeyChoice

/-- The bound keys after a call. A certificate goes with the store that has it. -/
def trackBound (managers : CertificateManager × CertificateManager)
    (call : CertificateCall KeyChoice) (bound : BoundKeys) : BoundKeys :=
  match call with
  | .certificateBindKey storeId certId keys =>
    if (certificateBindKey managers.1 storeId certId keys.first).2 = 0 then
      fun otherStore otherCert ↦
        if otherStore = storeId ∧ otherCert = certId then some keys else bound otherStore otherCert
    else bound
  | .keystoreDestroy storeId => fun otherStore otherCert ↦
    if storeId ≠ 0 ∧ otherStore = storeId ∧ managers.1.firstHas storeId otherCert then none
    else bound otherStore otherCert
  | _ => bound

/-- Both managers give back the bound keys. -/
def KeysYielded (managers : CertificateManager × CertificateManager) (bound : BoundKeys) : Prop :=
  ∀ storeId certId keys, bound storeId certId = some keys →
    certificateGetAssociatedKey managers.1 storeId certId = some keys.first ∧
      certificateGetAssociatedKey managers.2 storeId certId = some keys.second

/-- A verification has the same result in both runs. -/
def SameVerdict (managers : CertificateManager × CertificateManager) :
    CertificateCall KeyChoice → Prop
  | .certificateVerifyChain storeId certId =>
    (certificateVerifyChain managers.1 storeId certId).2 =
      (certificateVerifyChain managers.2 storeId certId).2
  | _ => True

/-- The condition on a call. A certificate with a bound key is verified only when the key is past
the bound of the chain depth, in both runs, and an import does not hide a certificate with a bound
key that is in a later store with the same id. -/
def CertificateCall.SparesKeys (managers : CertificateManager × CertificateManager)
    (bound : BoundKeys) : CertificateCall KeyChoice → Prop
  | .certificateVerifyChain storeId certId => ∀ keys ∈ bound storeId certId,
      maxCertificateChain < keys.first ∧ maxCertificateChain < keys.second
  | .certificateImport storeId allocated =>
    managers.1.imports storeId allocated = true →
      managers.1.firstHas storeId managers.1.nextCertId = false →
        bound storeId managers.1.nextCertId = none
  | _ => True

/-! ### The field of the key -/

/-- The chain depths of the certificates with an id in the stores with an id. -/
def CertificateManager.chainDepths (manager : CertificateManager) (storeId certId : UInt32) :
    List UInt32 :=
  (manager.certificatesFor storeId certId).map Certificate.chainDepth

section Depths

variable {manager : CertificateManager} {storeId certId otherStore otherCert : UInt32}

theorem certificateGetAssociatedKey_eq (hstore : storeId ≠ 0) (hcert : certId ≠ 0) :
    certificateGetAssociatedKey manager storeId certId =
      (manager.chainDepths storeId certId).head? := by
  rw [certificateGetAssociatedKey, findCertificate_eq_head? hstore hcert,
    CertificateManager.chainDepths, List.head?_map]

theorem firstHas_of_firstStore {store : KeyStore}
    (hfirst : manager.firstStore storeId = some store) :
    manager.firstHas storeId certId = (store.certificateFor storeId certId).isSome := by
  rw [CertificateManager.firstHas, hfirst, Option.any_some]

/-- Calls that leave the certificates leave the chain depths. -/
theorem chainDepths_of_withoutKeys {manager' : CertificateManager}
    (hsame : manager'.keyStores.map KeyStore.withoutKeys =
      manager.keyStores.map KeyStore.withoutKeys) :
    manager'.chainDepths storeId certId = manager.chainDepths storeId certId := by
  have hmap := congrArg (List.filterMap (KeyStore.certificateFor storeId certId)) hsame
  rw [List.filterMap_map, List.filterMap_map] at hmap
  exact congrArg (List.map Certificate.chainDepth) hmap

theorem chainDepths_keystoreCreate :
    (keystoreCreate manager).1.chainDepths storeId certId =
      manager.chainDepths storeId certId := by
  rcases keystoreCreate_cases manager with hsame | hstores
  · rw [hsame]
  · have hnone : KeyStore.certificateFor storeId certId
        { storeId := manager.nextStoreId, certificates := [], privateKeys := [],
          revokedCertIds := [] } = none := ite_self _
    rw [CertificateManager.chainDepths, CertificateManager.certificatesFor, hstores,
      List.filterMap_append, List.filterMap_cons_none hnone, List.filterMap_nil, List.append_nil]
    rfl

/-- Destroying a store brings up the certificates behind those that it has. -/
theorem chainDepths_keystoreDestroy :
    (keystoreDestroy manager storeId).1.chainDepths otherStore otherCert =
      if storeId ≠ 0 ∧ otherStore = storeId ∧ manager.firstHas storeId otherCert then
        (manager.chainDepths otherStore otherCert).tail
      else manager.chainDepths otherStore otherCert := by
  rcases keystoreDestroy_cases manager storeId with
    ⟨hsame, hnone⟩ | ⟨store, hzero, hfirst, -, hstores⟩
  · rw [hsame, if_neg]
    rintro ⟨hzero, -, hhas⟩
    rw [CertificateManager.firstHas, hnone hzero] at hhas
    exact absurd hhas Bool.false_ne_true
  rw [CertificateManager.chainDepths, CertificateManager.certificatesFor, hstores]
  by_cases hother : otherStore = storeId
  · subst hother
    obtain ⟨rest, hlisted, herased, -⟩ := certificatesFor_split hfirst otherCert
    rw [herased, firstHas_of_firstStore hfirst, CertificateManager.chainDepths, hlisted]
    cases hfound : store.certificateFor otherStore otherCert with
    | none =>
      rw [if_neg (by simp)]
      rfl
    | some cert =>
      rw [if_pos ⟨hzero, rfl, rfl⟩]
      rfl
  · rw [if_neg fun hall ↦ hother hall.2.1, filterMap_eraseP fun store hstore ↦ ?_]
    · rfl
    · exact certificateFor_of_ne fun hid ↦ hother (hid.symm.trans (of_decide_eq_true hstore))

/-- An import puts a new certificate in front of those that the first store does not have. -/
theorem chainDepths_certificateImport (allocated : Bool) :
    (certificateImport manager storeId allocated).1.chainDepths otherStore otherCert =
      if manager.imports storeId allocated = true ∧ otherStore = storeId ∧
          otherCert = manager.nextCertId ∧ manager.firstHas storeId otherCert = false then
        0 :: manager.chainDepths otherStore otherCert
      else manager.chainDepths otherStore otherCert := by
  rcases certificateImport_cases manager storeId allocated with
    ⟨hnone, hsame⟩ | ⟨store, himports, hfirst, hstores⟩
  · rw [if_neg (by simp [hnone]), CertificateManager.chainDepths,
      CertificateManager.certificatesFor, hsame]
    rfl
  rw [CertificateManager.chainDepths, CertificateManager.certificatesFor, hstores]
  by_cases hother : otherStore = storeId
  · subst hother
    obtain ⟨rest, hlisted, -, hupdate⟩ := certificatesFor_split hfirst otherCert
    have hid := storeId_of_firstStore hfirst
    rw [hupdate, certificateFor_addCertificate, firstHas_of_firstStore hfirst,
      CertificateManager.chainDepths, hlisted]
    cases hfound : store.certificateFor otherStore otherCert with
    | some cert =>
      rw [Option.some_or, if_neg (by simp)]
    | none =>
      by_cases hcert : otherCert = manager.nextCertId
      · rw [if_pos ⟨hid, hcert.symm⟩, if_pos ⟨himports, rfl, hcert, rfl⟩]
        rfl
      · rw [if_neg fun hboth ↦ hcert hboth.2.symm, if_neg fun hall ↦ hcert hall.2.2.1,
          Option.or_none]
  · rw [if_neg fun hall ↦ hother hall.2.1, filterMap_updateFirst _ fun store hstore ↦ ?_]
    · rfl
    · have hid : store.storeId ≠ otherStore :=
        fun hid ↦ hother (hid.symm.trans (of_decide_eq_true hstore))
      rw [certificateFor_of_ne hid]
      exact certificateFor_of_ne hid

theorem chainDepths_certificateRevoke :
    (certificateRevoke manager storeId certId).1.chainDepths otherStore otherCert =
      manager.chainDepths otherStore otherCert := by
  rcases certificateRevoke_cases manager storeId certId with ⟨hresult, -⟩ | ⟨cert, -, hresult⟩
  · rw [hresult]
  rw [hresult, CertificateManager.chainDepths, certificatesFor_changeStore (KeyStore.revoke certId)
    Certificate.revoke (fun _ ↦ rfl) (fun _ _ _ ↦ rfl)]
  split_ifs with hsame
  · obtain ⟨rfl, rfl⟩ := hsame
    rw [CertificateManager.chainDepths]
    cases manager.certificatesFor otherStore otherCert with
    | nil => rfl
    | cons first rest => rfl
  · rfl

/-- A write to the field of the certificate that is found. -/
theorem chainDepths_setChainDepth (chainDepth : UInt32) :
    (manager.changeStore storeId certId (KeyStore.changeCertificate certId
      (Certificate.setChainDepth chainDepth))).chainDepths otherStore otherCert =
        if otherStore = storeId ∧ otherCert = certId then
          (manager.chainDepths storeId certId).modifyHead fun _ ↦ chainDepth
        else manager.chainDepths otherStore otherCert := by
  rw [CertificateManager.chainDepths, certificatesFor_changeStore _
    (Certificate.setChainDepth chainDepth) (fun _ ↦ rfl) (fun _ _ _ ↦ rfl)]
  split_ifs with hsame
  · rw [CertificateManager.chainDepths]
    cases manager.certificatesFor storeId certId with
    | nil => rfl
    | cons first rest => rfl
  · rfl

/-- What a verification makes of the chain depths. -/
def countDepth : List UInt32 → List UInt32
  | [] => []
  | depth :: rest => if depth ≤ maxCertificateChain then (depth + 1) :: rest else depth :: rest

/-- A verification counts the field of the certificate that is found. -/
theorem chainDepths_certificateVerifyChain :
    (certificateVerifyChain manager storeId certId).1.chainDepths otherStore otherCert =
      if (storeId ≠ 0 ∧ certId ≠ 0) ∧ otherStore = storeId ∧ otherCert = certId then
        countDepth (manager.chainDepths storeId certId)
      else manager.chainDepths otherStore otherCert := by
  rcases certificateVerifyChain_cases manager storeId certId with
    ⟨hresult, hpast⟩ | ⟨cert, hfind, hdepth, hresult⟩
  · rw [hresult]
    split_ifs with hsame
    · obtain ⟨⟨hstore, hcert⟩, rfl, rfl⟩ := hsame
      rw [findCertificate_eq_head? hstore hcert] at hpast
      rw [CertificateManager.chainDepths]
      cases hlisted : manager.certificatesFor otherStore otherCert with
      | nil => rfl
      | cons cert rest =>
        have hcert := hpast cert (by rw [hlisted]; rfl)
        exact (if_neg (UInt32.not_le.mpr hcert)).symm
    · rfl
  · have hids := ids_ne_zero_of_findCertificate hfind
    rw [hresult, chainDepths_setChainDepth]
    simp only [and_iff_right hids]
    rw [findCertificate_eq_head? hids.1 hids.2] at hfind
    split_ifs
    · rw [CertificateManager.chainDepths]
      cases hlisted : manager.certificatesFor storeId certId with
      | nil => rfl
      | cons first rest =>
        obtain rfl : first = cert := by
          rw [hlisted] at hfind
          exact Option.some.inj hfind
        exact (if_pos hdepth).symm
    · rfl

/-- The result of a verification, read off the field. -/
def depthVerdict : List UInt32 → Int
  | [] => -1
  | depth :: _ => if depth ≤ maxCertificateChain then 0 else -1

theorem certificateVerifyChain_result :
    (certificateVerifyChain manager storeId certId).2 =
      if storeId ≠ 0 ∧ certId ≠ 0 then depthVerdict (manager.chainDepths storeId certId)
      else -1 := by
  rw [certificateVerifyChain]
  split_ifs with hids
  · rw [findCertificate_eq_head? hids.1 hids.2, CertificateManager.chainDepths]
    cases manager.certificatesFor storeId certId with
    | nil => rfl
    | cons cert rest =>
      rw [List.map_cons, depthVerdict, List.head?_cons]
      dsimp only
      split_ifs
      · rfl
      · rfl
  · have hnone : manager.findCertificate storeId certId = none := by
      rw [CertificateManager.findCertificate, if_pos]
      simpa [or_iff_not_and_not] using hids
    rw [hnone]

/-- Binding a key writes it in the field of the certificate that is found. -/
theorem chainDepths_certificateBindKey (keyId : UInt32) :
    (certificateBindKey manager storeId certId keyId).1.chainDepths otherStore otherCert =
      if (storeId ≠ 0 ∧ certId ≠ 0 ∧ keyId ≠ 0) ∧ otherStore = storeId ∧ otherCert = certId then
        (manager.chainDepths storeId certId).modifyHead fun _ ↦ keyId
      else manager.chainDepths otherStore otherCert := by
  rcases certificateBindKey_cases manager storeId certId keyId with
    ⟨hresult, hnone⟩ | ⟨cert, hkey, hfind, hresult⟩
  · rw [hresult]
    split_ifs with hsame
    · obtain ⟨⟨hstore, hcert, hkey⟩, rfl, rfl⟩ := hsame
      have hlisted := hnone hkey
      rw [findCertificate_eq_head? hstore hcert, List.head?_eq_none_iff] at hlisted
      rw [CertificateManager.chainDepths, hlisted]
      rfl
    · rfl
  · obtain ⟨hstore, hcert⟩ := ids_ne_zero_of_findCertificate hfind
    have hids : storeId ≠ 0 ∧ certId ≠ 0 ∧ keyId ≠ 0 := ⟨hstore, hcert, hkey⟩
    rw [hresult, chainDepths_setChainDepth]
    simp only [and_iff_right hids]

end Depths

/-! ### What does not depend on the keys -/

/-- A store without what is in its certificates. -/
def KeyStore.outline (store : KeyStore) : UInt32 × List UInt32 :=
  (store.storeId, store.certificates.map Certificate.certId)

/-- What decides which certificates there are and which of them the calls find. -/
def CertificateManager.outline (manager : CertificateManager) :
    List (UInt32 × List UInt32) × UInt32 × UInt32 :=
  (manager.keyStores.map KeyStore.outline, manager.nextCertId, manager.nextStoreId)

section Outlines

variable {manager first second : CertificateManager} {storeId certId : UInt32}

/-- The first store with an id in the outline. -/
theorem find?_outline :
    (manager.outline.1.find? fun outline ↦ outline.1 = storeId) =
      (manager.firstStore storeId).map KeyStore.outline := by
  rw [CertificateManager.outline, List.find?_map]
  rfl

theorem firstHas_eq_outline :
    manager.firstHas storeId certId =
      (manager.outline.1.find? fun outline ↦ outline.1 = storeId).any fun outline ↦
        outline.2.contains certId := by
  rw [find?_outline]
  cases hfirst : manager.firstStore storeId with
  | none =>
    rw [CertificateManager.firstHas, hfirst]
    rfl
  | some store =>
    rw [firstHas_of_firstStore hfirst, Option.map_some, Option.any_some, KeyStore.certificateFor,
      if_pos (storeId_of_firstStore hfirst), Bool.eq_iff_iff]
    simp [KeyStore.outline]

theorem imports_eq_outline (allocated : Bool) :
    manager.imports storeId allocated = (decide (storeId ≠ 0) && allocated &&
      (manager.outline.1.find? fun outline ↦ outline.1 = storeId).any fun outline ↦
        outline.2.length < maxCertificates) := by
  rw [find?_outline, CertificateManager.imports]
  cases manager.firstStore storeId with
  | none => rfl
  | some store => simp [KeyStore.outline]

theorem outline_keystoreCreate :
    (keystoreCreate manager).1.outline =
      if maxKeyStores ≤ manager.outline.1.length then manager.outline
      else (manager.outline.1 ++ [(manager.outline.2.2, [])], manager.outline.2.1,
        manager.outline.2.2 + 1) := by
  have hlength : manager.outline.1.length = manager.keyStores.length := List.length_map _
  rw [keystoreCreate, hlength]
  by_cases hfull : maxKeyStores ≤ manager.keyStores.length
  · rw [if_pos hfull, if_pos hfull]
  · rw [if_neg hfull, if_neg hfull, CertificateManager.outline, List.map_append]
    rfl

theorem outline_keystoreDestroy :
    (keystoreDestroy manager storeId).1.outline =
      if storeId = 0 then manager.outline
      else (manager.outline.1.eraseP fun outline ↦ outline.1 = storeId, manager.outline.2) := by
  rw [keystoreDestroy]
  by_cases hzero : storeId = 0
  · rw [if_pos hzero, if_pos hzero]
  rw [if_neg hzero, if_neg hzero]
  have herase : (manager.outline.1.eraseP fun outline ↦ outline.1 = storeId) =
      (manager.keyStores.eraseP fun store ↦ store.storeId = storeId).map KeyStore.outline :=
    List.eraseP_map
  rw [herase]
  by_cases hnone : manager.firstStore storeId = none
  · have hkeep : (manager.keyStores.eraseP fun store ↦ store.storeId = storeId) =
        manager.keyStores :=
      List.eraseP_of_forall_not (List.find?_eq_none.mp hnone)
    rw [if_pos hnone, hkeep]
    rfl
  · rw [if_neg hnone]
    rfl

/-- Without memory for the data, an import uses up an id all the same. -/
theorem nextCertId_certificateImport (allocated : Bool) :
    (certificateImport manager storeId allocated).1.nextCertId =
      if manager.imports storeId true then manager.nextCertId + 1 else manager.nextCertId := by
  rw [certificateImport]
  by_cases hzero : storeId = 0
  · have himports : manager.imports storeId true = false := by
      simp [CertificateManager.imports, hzero]
    rw [if_pos hzero, himports]
    rfl
  rw [if_neg hzero]
  cases hfirst : manager.firstStore storeId with
  | none =>
    have himports : manager.imports storeId true = false := by
      simp [CertificateManager.imports, hfirst]
    rw [himports]
    rfl
  | some store =>
    have himports : manager.imports storeId true =
        decide (store.certificates.length < maxCertificates) := by
      simp [CertificateManager.imports, hfirst, hzero]
    rw [himports]
    dsimp only
    by_cases hfull : maxCertificates ≤ store.certificates.length
    · rw [if_pos hfull, decide_eq_false (Nat.not_lt.mpr hfull)]
      rfl
    · rw [if_neg hfull, decide_eq_true (Nat.not_le.mp hfull), if_pos rfl]
      split_ifs
      · rfl
      · rfl

theorem outline_certificateImport (allocated : Bool) :
    (certificateImport manager storeId allocated).1.outline =
      (if manager.imports storeId allocated then
          updateFirst (fun outline ↦ outline.1 = storeId)
            (fun outline ↦ (outline.1, outline.2 ++ [manager.outline.2.1])) manager.outline.1
        else manager.outline.1,
        if manager.imports storeId true then manager.outline.2.1 + 1 else manager.outline.2.1,
        manager.outline.2.2) := by
  have hstoreId : (certificateImport manager storeId allocated).1.nextStoreId =
      manager.nextStoreId := by
    rw [certificateImport]
    split
    · rfl
    · split
      · rfl
      · split_ifs <;> rfl
  have hstores : (certificateImport manager storeId allocated).1.keyStores.map KeyStore.outline =
      if manager.imports storeId allocated then
        updateFirst (fun outline ↦ outline.1 = storeId)
          (fun outline ↦ (outline.1, outline.2 ++ [manager.nextCertId]))
          (manager.keyStores.map KeyStore.outline)
      else manager.keyStores.map KeyStore.outline := by
    rcases certificateImport_cases manager storeId allocated with
      ⟨himports, hsame⟩ | ⟨store, himports, -, hstores⟩
    · rw [himports, hsame]
      rfl
    · rw [himports, hstores, if_pos rfl]
      refine map_updateFirst_comm KeyStore.outline _ _ (fun _ ↦ rfl) fun store ↦ ?_
      simp [KeyStore.outline, KeyStore.addCertificate, importedCertificate]
  rw [CertificateManager.outline, hstores, hstoreId, nextCertId_certificateImport]
  rfl

/-- A call that does not bring certificates or take them away. -/
def CertificateCall.KeepsOutline {Key : Type} : CertificateCall Key → Prop
  | .keystoreCreate | .keystoreDestroy _ | .certificateImport _ _ => False
  | _ => True

theorem outline_changeStore (change : KeyStore → KeyStore)
    (hkeep : ∀ store, (change store).outline = store.outline) :
    (manager.changeStore storeId certId change).outline = manager.outline := by
  have hstores : (manager.changeStore storeId certId change).keyStores.map KeyStore.outline =
      manager.keyStores.map KeyStore.outline := map_updateFirst fun store _ ↦ hkeep store
  rw [CertificateManager.outline, hstores]
  rfl

theorem outline_changeCertificate (onCert : Certificate → Certificate)
    (hid : ∀ cert, (onCert cert).certId = cert.certId) (store : KeyStore) :
    (store.changeCertificate certId onCert).outline = store.outline :=
  congrArg (Prod.mk store.storeId) (map_updateFirst fun cert _ ↦ hid cert)

theorem outline_of_withoutKeys
    (hstores : first.keyStores.map KeyStore.withoutKeys = second.keyStores.map KeyStore.withoutKeys)
    (hcertId : first.nextCertId = second.nextCertId)
    (hstoreId : first.nextStoreId = second.nextStoreId) : first.outline = second.outline := by
  have hmap := congrArg (List.map KeyStore.outline) hstores
  rw [List.map_map, List.map_map] at hmap
  have houtline : first.keyStores.map KeyStore.outline = second.keyStores.map KeyStore.outline :=
    hmap
  rw [CertificateManager.outline, houtline, hcertId, hstoreId]
  rfl

theorem outline_addPrivateKey (allocated : Bool) :
    (manager.addPrivateKey storeId allocated).1.outline = manager.outline := by
  refine outline_of_withoutKeys (map_withoutKeys_addPrivateKey allocated) ?_ ?_
  all_goals
    rw [CertificateManager.addPrivateKey]
    split
    · rfl
    · split_ifs <;> rfl

theorem outline_setProtected (keyId : UInt32) (isProtected : Bool) :
    (manager.setProtected storeId keyId isProtected).1.outline = manager.outline := by
  refine outline_of_withoutKeys (map_withoutKeys_setProtected keyId isProtected) ?_ ?_
  all_goals
    rw [CertificateManager.setProtected]
    split_ifs <;> rfl

theorem outline_step {call : CertificateCall UInt32} (hcall : call.KeepsOutline) :
    (certificateStep manager call).outline = manager.outline := by
  cases call with
  | keystoreCreate | keystoreDestroy | certificateImport => exact absurd hcall not_false
  | certificateValidate storeId certId =>
    rw [certificateStep, certificateValidate]
    split
    · rfl
    · split_ifs <;> rfl
  | certificateVerifyChain storeId certId =>
    rw [certificateStep]
    rcases certificateVerifyChain_cases manager storeId certId with
      ⟨hresult, -⟩ | ⟨cert, -, -, hresult⟩
    · rw [hresult]
    · rw [hresult]
      exact outline_changeStore _ (outline_changeCertificate _ fun _ ↦ rfl)
  | certificateRevoke storeId certId =>
    rw [certificateStep]
    rcases certificateRevoke_cases manager storeId certId with ⟨hresult, -⟩ | ⟨cert, -, hresult⟩
    · rw [hresult]
    · rw [hresult]
      exact outline_changeStore _ (outline_changeCertificate Certificate.revoke fun _ ↦ rfl)
  | certificateBindKey storeId certId keyId =>
    rw [certificateStep]
    rcases certificateBindKey_cases manager storeId certId keyId with
      ⟨hresult, -⟩ | ⟨cert, -, -, hresult⟩
    · rw [hresult]
    · rw [hresult]
      exact outline_changeStore _ (outline_changeCertificate _ fun _ ↦ rfl)
  | privateKeyGenerate storeId keyBits allocated =>
    rw [certificateStep, privateKeyGenerate]
    split_ifs
    · rfl
    · exact outline_addPrivateKey allocated
  | privateKeyImport storeId allocated =>
    rw [certificateStep, privateKeyImport]
    split_ifs
    · rfl
    · exact outline_addPrivateKey allocated
  | privateKeyProtect storeId keyId => exact outline_setProtected keyId true
  | privateKeyUnprotect storeId keyId => exact outline_setProtected keyId false

/-- Two managers with the same outline have the same outline after a call, whatever the keys. -/
theorem outline_bothSteps (hsame : first.outline = second.outline)
    (call : CertificateCall KeyChoice) :
    (bothSteps (first, second) call).1.outline = (bothSteps (first, second) call).2.outline := by
  cases call with
  | keystoreCreate =>
    have hfirst : (keystoreCreate first).1.outline = (keystoreCreate second).1.outline := by
      rw [outline_keystoreCreate, outline_keystoreCreate, hsame]
    exact hfirst
  | keystoreDestroy storeId =>
    have hfirst : (keystoreDestroy first storeId).1.outline =
        (keystoreDestroy second storeId).1.outline := by
      rw [outline_keystoreDestroy, outline_keystoreDestroy, hsame]
    exact hfirst
  | certificateImport storeId allocated =>
    have hfirst : (certificateImport first storeId allocated).1.outline =
        (certificateImport second storeId allocated).1.outline := by
      rw [outline_certificateImport, outline_certificateImport, imports_eq_outline,
        imports_eq_outline, imports_eq_outline, imports_eq_outline, hsame]
    exact hfirst
  | _ => refine (outline_step ?_).trans (hsame.trans (outline_step ?_).symm) <;> trivial

end Outlines

/-! ### The bound keys -/

/-- What two lists of chain depths may differ in: the first of them when a key is bound. -/
def DifferByKeys : Option KeyChoice → List UInt32 → List UInt32 → Prop
  | none, first, second => first = second
  | some keys, first, second => ∃ rest, first = keys.first :: rest ∧ second = keys.second :: rest

/-- What holds along two runs that spare the keys. -/
structure KeysKept (managers : CertificateManager × CertificateManager) (bound : BoundKeys) :
    Prop where
  alike : managers.1.outline = managers.2.outline
  named : ∀ storeId certId keys, bound storeId certId = some keys →
    storeId ≠ 0 ∧ certId ≠ 0 ∧ keys.first ≠ 0
  depths : ∀ storeId certId, DifferByKeys (bound storeId certId)
    (managers.1.chainDepths storeId certId) (managers.2.chainDepths storeId certId)

section Bound

variable {managers : CertificateManager × CertificateManager} {bound : BoundKeys}
variable {storeId certId : UInt32} {key : Option KeyChoice} {first second : List UInt32}

theorem DifferByKeys.tail_eq (hdiffer : DifferByKeys key first second) :
    first.tail = second.tail := by
  cases key with
  | none => exact congrArg List.tail hdiffer
  | some keys =>
    obtain ⟨rest, rfl, rfl⟩ := hdiffer
    rfl

theorem DifferByKeys.eq_nil_iff (hdiffer : DifferByKeys key first second) :
    first = [] ↔ second = [] := by
  cases key with
  | none => rw [show first = second from hdiffer]
  | some keys =>
    obtain ⟨rest, rfl, rfl⟩ := hdiffer
    exact iff_of_false (List.cons_ne_nil _ _) (List.cons_ne_nil _ _)

/-- Two lists that are written to in their first places. -/
theorem DifferByKeys.modifyHead (hdiffer : DifferByKeys key first second) (hnil : first ≠ [])
    (keys : KeyChoice) :
    DifferByKeys (some keys) (first.modifyHead fun _ ↦ keys.first)
      (second.modifyHead fun _ ↦ keys.second) := by
  have htail := hdiffer.tail_eq
  have hnil' : second ≠ [] := fun hsecond ↦ hnil (hdiffer.eq_nil_iff.mpr hsecond)
  obtain ⟨depth, rest, rfl⟩ := List.exists_cons_of_ne_nil hnil
  obtain ⟨depth', rest', rfl⟩ := List.exists_cons_of_ne_nil hnil'
  exact ⟨rest, rfl, by rw [show rest = rest' from htail]; rfl⟩

theorem keysKept_init (nextCertId nextKeyId nextStoreId : UInt32) :
    KeysKept (certificateManagerInit nextCertId nextKeyId nextStoreId,
      certificateManagerInit nextCertId nextKeyId nextStoreId) fun _ _ ↦ none where
  alike := rfl
  named := by simp
  depths _ _ := rfl

theorem KeysKept.yielded (hkept : KeysKept managers bound) : KeysYielded managers bound := by
  intro storeId certId keys hbound
  obtain ⟨hstore, hcert, -⟩ := hkept.named storeId certId keys hbound
  have hdepths := hkept.depths storeId certId
  rw [hbound] at hdepths
  obtain ⟨rest, hfirst, hsecond⟩ := hdepths
  rw [certificateGetAssociatedKey_eq hstore hcert, certificateGetAssociatedKey_eq hstore hcert,
    hfirst, hsecond]
  exact ⟨rfl, rfl⟩

/-- Calls that leave the field of the key. -/
theorem KeysKept.of_chainDepths {managers' : CertificateManager × CertificateManager}
    (hkept : KeysKept managers bound) (halike : managers'.1.outline = managers'.2.outline)
    (hfirst : ∀ storeId certId, managers'.1.chainDepths storeId certId =
      managers.1.chainDepths storeId certId)
    (hsecond : ∀ storeId certId, managers'.2.chainDepths storeId certId =
      managers.2.chainDepths storeId certId) : KeysKept managers' bound where
  alike := halike
  named := hkept.named
  depths storeId certId := by
    rw [hfirst, hsecond]
    exact hkept.depths storeId certId

theorem KeysKept.firstHas_eq (hkept : KeysKept managers bound) :
    managers.1.firstHas storeId certId = managers.2.firstHas storeId certId := by
  rw [firstHas_eq_outline, firstHas_eq_outline, hkept.alike]

theorem KeysKept.imports_eq (hkept : KeysKept managers bound) (allocated : Bool) :
    managers.1.imports storeId allocated = managers.2.imports storeId allocated := by
  rw [imports_eq_outline, imports_eq_outline, hkept.alike]

theorem KeysKept.nextCertId_eq (hkept : KeysKept managers bound) :
    managers.1.nextCertId = managers.2.nextCertId :=
  congrArg (fun outline ↦ outline.2.1) hkept.alike

theorem KeysKept.keystoreDestroy (hkept : KeysKept managers bound) (storeId : UInt32) :
    KeysKept (bothSteps managers (.keystoreDestroy storeId))
      (trackBound managers (.keystoreDestroy storeId) bound) where
  alike := outline_bothSteps hkept.alike _
  named := by
    intro otherStore otherCert keys hbound
    simp only [trackBound] at hbound
    split_ifs at hbound with hgone
    exact hkept.named otherStore otherCert keys hbound
  depths := by
    intro otherStore otherCert
    have hdepths := hkept.depths otherStore otherCert
    simp only [bothSteps, CertificateCall.map, certificateStep, trackBound]
    rw [chainDepths_keystoreDestroy, chainDepths_keystoreDestroy, hkept.firstHas_eq]
    split_ifs
    · exact hdepths.tail_eq
    · exact hdepths

theorem KeysKept.certificateImport (hkept : KeysKept managers bound) (storeId : UInt32)
    (allocated : Bool)
    (hcall : (CertificateCall.certificateImport storeId allocated).SparesKeys managers bound) :
    KeysKept (bothSteps managers (.certificateImport storeId allocated)) bound where
  alike := outline_bothSteps hkept.alike _
  named := hkept.named
  depths := by
    intro otherStore otherCert
    have hdepths := hkept.depths otherStore otherCert
    simp only [bothSteps, CertificateCall.map, certificateStep]
    rw [chainDepths_certificateImport, chainDepths_certificateImport, ← hkept.firstHas_eq,
      ← hkept.imports_eq, ← hkept.nextCertId_eq]
    split_ifs with hnew
    · obtain ⟨himports, rfl, rfl, hhas⟩ := hnew
      rw [hcall himports hhas] at hdepths ⊢
      exact congrArg (List.cons 0) hdepths
    · exact hdepths

theorem KeysKept.certificateVerifyChain (hkept : KeysKept managers bound) (storeId certId : UInt32)
    (hcall : (CertificateCall.certificateVerifyChain storeId certId).SparesKeys managers bound) :
    KeysKept (bothSteps managers (.certificateVerifyChain storeId certId)) bound where
  alike := outline_bothSteps hkept.alike _
  named := hkept.named
  depths := by
    intro otherStore otherCert
    have hdepths := hkept.depths otherStore otherCert
    simp only [bothSteps, CertificateCall.map, certificateStep]
    rw [chainDepths_certificateVerifyChain, chainDepths_certificateVerifyChain]
    split_ifs with hsame
    · obtain ⟨-, rfl, rfl⟩ := hsame
      cases hbound : bound otherStore otherCert with
      | none =>
        rw [hbound] at hdepths
        exact congrArg countDepth hdepths
      | some keys =>
        obtain ⟨hfirst, hsecond⟩ := hcall keys hbound
        rw [hbound] at hdepths
        obtain ⟨rest, hrest, hrest'⟩ := hdepths
        rw [hrest, hrest', countDepth, countDepth, if_neg (UInt32.not_le.mpr hfirst),
          if_neg (UInt32.not_le.mpr hsecond)]
        exact ⟨rest, rfl, rfl⟩
    · exact hdepths

theorem KeysKept.certificateBindKey (hkept : KeysKept managers bound) (storeId certId : UInt32)
    (keys : KeyChoice) :
    KeysKept (bothSteps managers (.certificateBindKey storeId certId keys))
      (trackBound managers (.certificateBindKey storeId certId keys) bound) := by
  have halike := outline_bothSteps hkept.alike (.certificateBindKey storeId certId keys)
  have hfirst : ∀ otherStore otherCert, (bothSteps managers
      (.certificateBindKey storeId certId keys)).1.chainDepths otherStore otherCert = _ :=
    fun otherStore otherCert ↦ chainDepths_certificateBindKey keys.first
  have hsecond : ∀ otherStore otherCert, (bothSteps managers
      (.certificateBindKey storeId certId keys)).2.chainDepths otherStore otherCert = _ :=
    fun otherStore otherCert ↦ chainDepths_certificateBindKey keys.second
  have hkeys : keys.first ≠ 0 ↔ keys.second ≠ 0 := not_congr keys.zero_iff
  rw [trackBound]
  rcases certificateBindKey_cases managers.1 storeId certId keys.first with
    ⟨hresult, hnone⟩ | ⟨cert, hkey, hfind, hresult⟩
  · -- nothing is bound in the first run, and nothing is there to write to in the second
    rw [hresult, if_neg (show ¬ (-1 : Int) = 0 by decide)]
    have hnil : storeId ≠ 0 ∧ certId ≠ 0 ∧ keys.first ≠ 0 →
        managers.1.chainDepths storeId certId = [] ∧
          managers.2.chainDepths storeId certId = [] := by
      rintro ⟨hstore, hcert, hkey⟩
      have hlisted := hnone hkey
      rw [findCertificate_eq_head? hstore hcert, List.head?_eq_none_iff] at hlisted
      have hempty : managers.1.chainDepths storeId certId = [] := List.map_eq_nil_iff.mpr hlisted
      exact ⟨hempty, (hkept.depths storeId certId).eq_nil_iff.mp hempty⟩
    refine hkept.of_chainDepths halike (fun otherStore otherCert ↦ ?_) fun otherStore otherCert ↦ ?_
    · rw [hfirst]
      split_ifs with hsame
      · obtain ⟨hall, rfl, rfl⟩ := hsame
        rw [(hnil hall).1]
        rfl
      · rfl
    · rw [hsecond]
      split_ifs with hsame
      · obtain ⟨⟨hstore, hcert, hkey⟩, rfl, rfl⟩ := hsame
        rw [(hnil ⟨hstore, hcert, hkeys.mpr hkey⟩).2]
        rfl
      · rfl
  · obtain ⟨hstore, hcert⟩ := ids_ne_zero_of_findCertificate hfind
    rw [hresult, if_pos rfl]
    refine ⟨halike, ?_, ?_⟩
    · intro otherStore otherCert keys' hbound
      split_ifs at hbound with hsame
      · obtain ⟨rfl, rfl⟩ := hsame
        obtain rfl := Option.some.inj hbound
        exact ⟨hstore, hcert, hkey⟩
      · exact hkept.named otherStore otherCert keys' hbound
    · intro otherStore otherCert
      have hdepths := hkept.depths otherStore otherCert
      rw [hfirst, hsecond]
      simp only [and_iff_right (show storeId ≠ 0 ∧ certId ≠ 0 ∧ keys.first ≠ 0 from
        ⟨hstore, hcert, hkey⟩), and_iff_right (show storeId ≠ 0 ∧ certId ≠ 0 ∧ keys.second ≠ 0 from
        ⟨hstore, hcert, hkeys.mp hkey⟩)]
      split_ifs with hsame
      · obtain ⟨rfl, rfl⟩ := hsame
        refine hdepths.modifyHead ?_ keys
        rw [findCertificate_eq_head? hstore hcert] at hfind
        intro hnil
        rw [List.map_eq_nil_iff.mp hnil] at hfind
        exact absurd hfind (by simp)
      · exact hdepths

/-- A call with the condition keeps the bound keys in both runs. -/
theorem KeysKept.step (hkept : KeysKept managers bound) (call : CertificateCall KeyChoice)
    (hcall : call.SparesKeys managers bound) :
    KeysKept (bothSteps managers call) (trackBound managers call bound) := by
  have halike := outline_bothSteps hkept.alike call
  cases call with
  | keystoreCreate =>
    exact hkept.of_chainDepths halike (fun _ _ ↦ chainDepths_keystoreCreate)
      fun _ _ ↦ chainDepths_keystoreCreate
  | keystoreDestroy storeId => exact hkept.keystoreDestroy storeId
  | certificateImport storeId allocated => exact hkept.certificateImport storeId allocated hcall
  | certificateVerifyChain storeId certId =>
    exact hkept.certificateVerifyChain storeId certId hcall
  | certificateRevoke storeId certId =>
    exact hkept.of_chainDepths halike (fun _ _ ↦ chainDepths_certificateRevoke)
      fun _ _ ↦ chainDepths_certificateRevoke
  | certificateBindKey storeId certId keys => exact hkept.certificateBindKey storeId certId keys
  | certificateValidate | privateKeyGenerate | privateKeyImport | privateKeyProtect
  | privateKeyUnprotect =>
    exact hkept.of_chainDepths halike
      (fun _ _ ↦ chainDepths_of_withoutKeys (map_withoutKeys_step trivial))
      fun _ _ ↦ chainDepths_of_withoutKeys (map_withoutKeys_step trivial)

/-- A verification that the condition allows has the same result in both runs. -/
theorem KeysKept.sameVerdict (hkept : KeysKept managers bound) (call : CertificateCall KeyChoice)
    (hcall : call.SparesKeys managers bound) : SameVerdict managers call := by
  cases call with
  | certificateVerifyChain storeId certId =>
    have hdepths := hkept.depths storeId certId
    rw [SameVerdict, certificateVerifyChain_result, certificateVerifyChain_result]
    cases hbound : bound storeId certId with
    | none =>
      rw [hbound] at hdepths
      rw [show managers.1.chainDepths storeId certId = managers.2.chainDepths storeId certId
        from hdepths]
    | some keys =>
      obtain ⟨hfirst, hsecond⟩ := hcall keys hbound
      rw [hbound] at hdepths
      obtain ⟨rest, hrest, hrest'⟩ := hdepths
      rw [hrest, hrest', depthVerdict, depthVerdict, if_neg (UInt32.not_le.mpr hfirst),
        if_neg (UInt32.not_le.mpr hsecond)]
  | _ => trivial

/-- A count that does not change the field is past its bound. -/
theorem lt_of_countDepth_head? {depth : UInt32} {rest : List UInt32}
    (hsame : (countDepth (depth :: rest)).head? = some depth) : maxCertificateChain < depth := by
  by_contra hwithin
  rw [countDepth, if_pos (UInt32.not_lt.mp hwithin)] at hsame
  have hstep : depth + 1 = depth := Option.some.inj hsame
  simp at hstep

/-- When the bound keys are given back after a verification, the condition was met. -/
theorem KeysKept.spares_of_verifyChain (hkept : KeysKept managers bound)
    (hnext : KeysYielded (bothSteps managers (.certificateVerifyChain storeId certId)) bound) :
    (CertificateCall.certificateVerifyChain storeId certId).SparesKeys managers bound := by
  intro keys hkeys
  have hbound : bound storeId certId = some keys := hkeys
  obtain ⟨hstore, hcert, -⟩ := hkept.named storeId certId keys hbound
  have hdepths := hkept.depths storeId certId
  rw [hbound] at hdepths
  obtain ⟨rest, hrest, hrest'⟩ := hdepths
  obtain ⟨hfirst, hsecond⟩ := hnext storeId certId keys hbound
  simp only [bothSteps, CertificateCall.map, certificateStep] at hfirst hsecond
  rw [certificateGetAssociatedKey_eq hstore hcert, chainDepths_certificateVerifyChain,
    if_pos ⟨⟨hstore, hcert⟩, rfl, rfl⟩] at hfirst hsecond
  rw [hrest] at hfirst
  rw [hrest'] at hsecond
  exact ⟨lt_of_countDepth_head? hfirst, lt_of_countDepth_head? hsecond⟩

/-- When the bound keys are given back after an import, the condition was met. -/
theorem KeysKept.spares_of_import {allocated : Bool} (hkept : KeysKept managers bound)
    (hnext : KeysYielded (bothSteps managers (.certificateImport storeId allocated)) bound) :
    (CertificateCall.certificateImport storeId allocated).SparesKeys managers bound := by
  intro himports hhas
  by_contra hsome
  obtain ⟨keys, hbound⟩ := Option.ne_none_iff_exists'.mp hsome
  obtain ⟨hstore, hcert, hkey⟩ := hkept.named _ _ keys hbound
  obtain ⟨hfirst, -⟩ := hnext _ _ keys hbound
  simp only [bothSteps, CertificateCall.map, certificateStep] at hfirst
  rw [certificateGetAssociatedKey_eq hstore hcert, chainDepths_certificateImport,
    if_pos ⟨himports, rfl, rfl, hhas⟩] at hfirst
  exact hkey (Option.some.inj hfirst).symm

/-- From two states of runs that spare the keys, a call gives back the bound keys and has the same
result in both exactly when it meets the condition. -/
theorem KeysKept.step_iff (hkept : KeysKept managers bound) (call : CertificateCall KeyChoice) :
    KeysYielded (bothSteps managers call) (trackBound managers call bound) ∧
        SameVerdict managers call ↔ call.SparesKeys managers bound := by
  constructor
  · rintro ⟨hnext, -⟩
    cases call with
    | certificateVerifyChain storeId certId => exact hkept.spares_of_verifyChain hnext
    | certificateImport storeId allocated => exact hkept.spares_of_import hnext
    | _ => trivial
  · intro hcall
    exact ⟨(hkept.step call hcall).yielded, hkept.sameVerdict call hcall⟩

end Bound

/-- Two runs of the certificate manager with the same calls, in which the keys that are bound may
differ: in every state of both, the key that was last bound to a certificate is associated with it,
and every verification of a chain has the same result in both, exactly when certificates with a
bound key are verified only with a key past the bound of the chain depth, and no import hides one.
-/
theorem keyBinding_iff (nextCertId nextKeyId nextStoreId : UInt32)
    (calls : List (CertificateCall KeyChoice)) :
    AlongRun (withTrace bothSteps trackBound)
          (fun traced ↦ KeysYielded traced.1 traced.2)
          ((certificateManagerInit nextCertId nextKeyId nextStoreId,
            certificateManagerInit nextCertId nextKeyId nextStoreId), fun _ _ ↦ none) calls ∧
        EveryStep (withTrace bothSteps trackBound)
          (fun traced call ↦ SameVerdict traced.1 call)
          ((certificateManagerInit nextCertId nextKeyId nextStoreId,
            certificateManagerInit nextCertId nextKeyId nextStoreId), fun _ _ ↦ none) calls ↔
      EveryStep (withTrace bothSteps trackBound)
        (fun traced call ↦ call.SparesKeys traced.1 traced.2)
        ((certificateManagerInit nextCertId nextKeyId nextStoreId,
          certificateManagerInit nextCertId nextKeyId nextStoreId), fun _ _ ↦ none) calls := by
  refine alongRun_and_everyStep_iff_of_kept (fun traced ↦ KeysKept traced.1 traced.2)
    (fun _ _ ↦ True) ?_ ?_ ?_ (keysKept_init nextCertId nextKeyId nextStoreId)
    (fun _ _ _ ↦ trivial)
  · intro traced call hkept _ hcall
    exact hkept.step call hcall
  · intro traced hkept
    exact hkept.yielded
  · intro traced call hkept _
    exact hkept.step_iff call

/-- Key 5 in one run, key 20 in the other. -/
def keyFiveOrTwenty : KeyChoice where
  first := 5
  second := 20
  zero_iff := by decide

/-- Key 5 is bound to a certificate in one run and key 20 in the other. The verification of the
chain does not have the same result in both, and leaves key 6 in the first. -/
theorem verification_counts_bound_key :
    let calls : List (CertificateCall KeyChoice) :=
      [.keystoreCreate, .certificateImport 1 true, .certificateBindKey 1 1 keyFiveOrTwenty,
        .certificateVerifyChain 1 1]
    let start : (CertificateManager × CertificateManager) × BoundKeys :=
      ((certificateManagerInit 1 1 1, certificateManagerInit 1 1 1), fun _ _ ↦ none)
    certificateGetAssociatedKey (runFrom (withTrace bothSteps trackBound) start calls).1.1 1 1 =
        some 6 ∧
      ¬ AlongRun (withTrace bothSteps trackBound) (fun traced ↦ KeysYielded traced.1 traced.2) start
        calls ∧
      ¬ EveryStep (withTrace bothSteps trackBound) (fun traced call ↦ SameVerdict traced.1 call)
        start calls := by
  refine ⟨by decide, fun hyielded ↦ ?_, fun hsame ↦ ?_⟩
  · have hlast := hyielded _ (List.prefix_refl _) 1 1 keyFiveOrTwenty rfl
    exact absurd hlast.1 (by decide)
  · have hlast := hsame
      [.keystoreCreate, .certificateImport 1 true, .certificateBindKey 1 1 keyFiveOrTwenty]
      (.certificateVerifyChain 1 1) (List.prefix_refl _)
    beta_reduce at hlast
    rw [SameVerdict] at hlast
    exact absurd hlast (by decide)

end OneOS.Cryptography
