import OneOS.Cryptography.CertificateManager
import OneOS.Foundation.Runs

/-!
# Revocation of certificates

A certificate that was revoked is to fail validation and the verification of its chain, and to be
reported as revoked, as long as its store exists; one that was not is to be reported as not revoked
(`RevocationConsistent`). What was revoked is recorded over a run (`trackRevoked`).

`certificate_verify_chain` does not look at the status, and fails only when the field it counts in
is past its bound; and an id that does not find room in the list of the store is not reported as
revoked. `revocationConsistent_iff` says exactly which runs are consistent all the same.
-/

set_option autoImplicit false
set_option relaxedAutoImplicit false

namespace OneOS.Cryptography

open Foundation

/-! ### What is asked -/

/-- The certificates that were revoked and whose store was not destroyed since, after a call. -/
def trackRevoked (manager : CertificateManager) (call : CertificateCall UInt32)
    (revoked : List (UInt32 × UInt32)) : List (UInt32 × UInt32) :=
  match call with
  | .certificateRevoke storeId certId =>
    if (certificateRevoke manager storeId certId).2 = 0 then (storeId, certId) :: revoked
    else revoked
  | .keystoreDestroy storeId =>
    if (keystoreDestroy manager storeId).2 = 0 then revoked.filter fun named ↦ named.1 ≠ storeId
    else revoked
  | _ => revoked

/-- The three calls that look at revocations answer by what was revoked. -/
structure RevocationConsistent (manager : CertificateManager) (revoked : List (UInt32 × UInt32)) :
    Prop where
  refused : ∀ storeId certId, (storeId, certId) ∈ revoked →
    (certificateValidate manager storeId certId).2 = -1 ∧
      certificateCheckRevocationStatus manager storeId certId = 1 ∧
      (certificateVerifyChain manager storeId certId).2 = -1
  unrevoked : ∀ storeId certId, (storeId, certId) ∉ revoked →
    (manager.findCertificate storeId certId).isSome →
      certificateCheckRevocationStatus manager storeId certId = 0

/-- The condition on a call. A certificate is revoked when its chain depth is past the bound, in the
first store with the id, and when it is listed there already or the list has room; and no key with
an id up to the bound is bound to a revoked certificate. -/
def CertificateCall.KeepsRevocations (manager : CertificateManager)
    (revoked : List (UInt32 × UInt32)) : CertificateCall UInt32 → Prop
  | .certificateRevoke storeId certId =>
    ∀ cert ∈ manager.findCertificate storeId certId, maxCertificateChain < cert.chainDepth ∧
      ∃ store, manager.firstStore storeId = some store ∧
        (store.certificateFor storeId certId).isSome ∧
        (certId ∈ store.revokedCertIds ∨ store.revokedCertIds.length < maxRevokedCerts)
  | .certificateBindKey storeId certId keyId =>
    (storeId, certId) ∈ revoked → keyId ≠ 0 → maxCertificateChain < keyId
  | _ => True

/-! ### Answers -/

section Answers

variable {manager : CertificateManager} {storeId certId : UInt32}

theorem certificateValidate_fails_iff :
    (certificateValidate manager storeId certId).2 = -1 ↔
      ∀ cert ∈ manager.findCertificate storeId certId, cert.status ≠ .valid := by
  rw [certificateValidate]
  cases manager.findCertificate storeId certId with
  | none => simp
  | some cert =>
    dsimp only
    split_ifs with hstatus
    · simp [hstatus]
    · simp [hstatus]

theorem certificateVerifyChain_fails_iff :
    (certificateVerifyChain manager storeId certId).2 = -1 ↔
      ∀ cert ∈ manager.findCertificate storeId certId, maxCertificateChain < cert.chainDepth := by
  rcases certificateVerifyChain_cases manager storeId certId with
    ⟨hresult, hpast⟩ | ⟨cert, hfind, hdepth, hresult⟩
  · rw [hresult]
    exact iff_of_true rfl hpast
  · rw [hresult]
    refine iff_of_false (show ¬ (0 : Int) = -1 by decide) fun hpast ↦ ?_
    exact absurd (hpast cert hfind) (UInt32.not_lt.mpr hdepth)

/-- The status of a certificate in a store with an id is read off the list of the first one. -/
theorem certificateCheckRevocationStatus_eq {store : KeyStore} (hstore : storeId ≠ 0)
    (hcert : certId ≠ 0) (hfirst : manager.firstStore storeId = some store) :
    certificateCheckRevocationStatus manager storeId certId =
      if certId ∈ store.revokedCertIds then 1 else 0 := by
  rw [certificateCheckRevocationStatus, if_neg (not_or.mpr ⟨hstore, hcert⟩), hfirst]

end Answers

/-! ### Stores -/

/-- A certificate that is revoked and past the bound of the chain depth. -/
def Certificate.Refused (cert : Certificate) : Prop :=
  cert.status = .revoked ∧ maxCertificateChain < cert.chainDepth

/-- What holds of the first store with an id: it lists what was revoked, and has it marked. -/
structure StoreKept (revoked : List (UInt32 × UInt32)) (storeId : UInt32) (store : KeyStore) :
    Prop where
  listed : ∀ certId, certId ∈ store.revokedCertIds ↔ (storeId, certId) ∈ revoked
  marked : ∀ certId, (storeId, certId) ∈ revoked →
    ∃ cert, store.certificateFor storeId certId = some cert ∧ cert.Refused

section Stores

variable {revoked : List (UInt32 × UInt32)} {storeId certId : UInt32} {store : KeyStore}

theorem StoreKept.addCertificate (hkept : StoreKept revoked storeId store) (newId : UInt32) :
    StoreKept revoked storeId (store.addCertificate newId) where
  listed := hkept.listed
  marked := by
    intro certId hrevoked
    obtain ⟨cert, hfound, hrefused⟩ := hkept.marked certId hrevoked
    exact ⟨cert, by rw [certificateFor_addCertificate, hfound, Option.some_or], hrefused⟩

/-- A change of a certificate that leaves it refused when it was. -/
theorem StoreKept.changeCertificate (hkept : StoreKept revoked storeId store)
    (onCert : Certificate → Certificate) (hid : ∀ cert, (onCert cert).certId = cert.certId)
    (hrefused : ∀ cert, (storeId, certId) ∈ revoked →
      store.certificateFor storeId certId = some cert → cert.Refused → (onCert cert).Refused) :
    StoreKept revoked storeId (store.changeCertificate certId onCert) where
  listed := hkept.listed
  marked := by
    intro otherCert hrevoked
    obtain ⟨cert, hfound, hmarked⟩ := hkept.marked otherCert hrevoked
    rw [certificateFor_changeCertificate onCert hid]
    by_cases hsame : otherCert = certId
    · subst hsame
      refine ⟨onCert cert, ?_, hrefused cert hrevoked hfound hmarked⟩
      rw [if_pos rfl, hfound, Option.map_some]
    · exact ⟨cert, by rw [if_neg hsame, hfound], hmarked⟩

/-- Revoking a certificate that is past the bound, when it is listed or the list has room. -/
theorem StoreKept.revoke {cert : Certificate} (hkept : StoreKept revoked storeId store)
    (hfound : store.certificateFor storeId certId = some cert)
    (hpast : maxCertificateChain < cert.chainDepth)
    (hroom : certId ∈ store.revokedCertIds ∨ store.revokedCertIds.length < maxRevokedCerts) :
    StoreKept ((storeId, certId) :: revoked) storeId (store.revoke certId) where
  listed := by
    intro otherCert
    rw [List.mem_cons, Prod.mk.injEq, and_iff_right rfl, ← hkept.listed, KeyStore.revoke]
    dsimp only
    split_ifs with hless
    · rw [List.mem_append, List.mem_singleton, or_comm]
    · have hlisted := hroom.resolve_right hless
      refine ⟨.inr, ?_⟩
      rintro (rfl | hother)
      · exact hlisted
      · exact hother
  marked := by
    intro otherCert hrevoked
    have hchange : (store.revoke certId).certificateFor storeId otherCert =
        if otherCert = certId then (store.certificateFor storeId otherCert).map Certificate.revoke
        else store.certificateFor storeId otherCert :=
      certificateFor_changeCertificate Certificate.revoke (fun _ ↦ rfl) store
    rw [hchange]
    by_cases hsame : otherCert = certId
    · subst hsame
      exact ⟨cert.revoke, by rw [if_pos rfl, hfound, Option.map_some], rfl, hpast⟩
    · have hold : (storeId, otherCert) ∈ revoked := by
        simpa [hsame] using hrevoked
      rw [if_neg hsame]
      exact hkept.marked otherCert hold

/-- What was revoked in other stores does not matter. -/
theorem StoreKept.congr {revoked' : List (UInt32 × UInt32)}
    (hkept : StoreKept revoked storeId store)
    (hsame : ∀ certId, (storeId, certId) ∈ revoked' ↔ (storeId, certId) ∈ revoked) :
    StoreKept revoked' storeId store where
  listed certId := (hkept.listed certId).trans (hsame certId).symm
  marked certId hrevoked := hkept.marked certId ((hsame certId).mp hrevoked)

/-- A store with an empty list, when nothing was revoked in it. -/
theorem storeKept_of_nil (hnone : ∀ certId, (storeId, certId) ∉ revoked)
    (hlist : store.revokedCertIds = []) : StoreKept revoked storeId store where
  listed certId := by simp [hlist, hnone]
  marked certId hrevoked := absurd hrevoked (hnone certId)

end Stores

/-! ### Managers -/

/-- The id of a store and its list. -/
def KeyStore.revocations (store : KeyStore) : UInt32 × List UInt32 :=
  (store.storeId, store.revokedCertIds)

/-- What holds along a consistent run. Of two stores with the same id the second lists nothing,
since it is passed over as long as there is the first. -/
structure RevocationKept (manager : CertificateManager) (revoked : List (UInt32 × UInt32)) :
    Prop where
  stores : ∀ storeId store, manager.firstStore storeId = some store →
    StoreKept revoked storeId store
  named : ∀ storeId certId, (storeId, certId) ∈ revoked →
    storeId ≠ 0 ∧ certId ≠ 0 ∧ manager.firstStore storeId ≠ none
  behind : (manager.keyStores.map KeyStore.revocations).Pairwise fun first second ↦
    first.1 = second.1 → second.2 = []

section Managers

variable {manager : CertificateManager} {revoked : List (UInt32 × UInt32)}
variable {storeId certId : UInt32} {store : KeyStore} {cert : Certificate}

theorem revocationKept_init (nextCertId nextKeyId nextStoreId : UInt32) :
    RevocationKept (certificateManagerInit nextCertId nextKeyId nextStoreId) [] where
  stores := by simp [CertificateManager.firstStore, certificateManagerInit]
  named := by simp
  behind := by simp [certificateManagerInit]

/-- The certificate of a revoked one that is found. -/
theorem RevocationKept.findCertificate (hkept : RevocationKept manager revoked)
    (hrevoked : (storeId, certId) ∈ revoked) :
    ∃ store cert, manager.firstStore storeId = some store ∧ certId ∈ store.revokedCertIds ∧
      store.certificateFor storeId certId = some cert ∧
      manager.findCertificate storeId certId = some cert ∧ cert.Refused := by
  obtain ⟨hstore, hcert, hexists⟩ := hkept.named storeId certId hrevoked
  obtain ⟨store, hfirst⟩ := Option.ne_none_iff_exists'.mp hexists
  have hstores := hkept.stores storeId store hfirst
  obtain ⟨cert, hfound, hrefused⟩ := hstores.marked certId hrevoked
  exact ⟨store, cert, hfirst, (hstores.listed certId).mpr hrevoked, hfound,
    findCertificate_of_firstStore hstore hcert hfirst hfound, hrefused⟩

theorem RevocationKept.consistent (hkept : RevocationKept manager revoked) :
    RevocationConsistent manager revoked where
  refused := by
    intro storeId certId hrevoked
    obtain ⟨hstore, hcert, -⟩ := hkept.named storeId certId hrevoked
    obtain ⟨store, cert, hfirst, hlisted, -, hfind, hstatus, hpast⟩ :=
      hkept.findCertificate hrevoked
    refine ⟨?_, ?_, ?_⟩
    · rw [certificateValidate_fails_iff, hfind]
      simp [hstatus]
    · rw [certificateCheckRevocationStatus_eq hstore hcert hfirst, if_pos hlisted]
    · rw [certificateVerifyChain_fails_iff, hfind]
      simpa using hpast
  unrevoked := by
    intro storeId certId hrevoked hfound
    obtain ⟨cert, hfind⟩ := Option.isSome_iff_exists.mp hfound
    obtain ⟨hstore, hcert⟩ := ids_ne_zero_of_findCertificate hfind
    obtain ⟨store, hfirst⟩ :=
      Option.ne_none_iff_exists'.mp (firstStore_ne_none_of_findCertificate hfound)
    have hlisted : certId ∉ store.revokedCertIds :=
      fun hmem ↦ hrevoked (((hkept.stores storeId store hfirst).listed certId).mp hmem)
    rw [certificateCheckRevocationStatus_eq hstore hcert hfirst, if_neg hlisted]

/-- A call that records nothing, leaves the lists and the ids of the stores, and is all right in
every first store. -/
theorem RevocationKept.of_stores {manager' : CertificateManager}
    (hkept : RevocationKept manager revoked)
    (hstores : ∀ storeId store, manager'.firstStore storeId = some store →
      StoreKept revoked storeId store)
    (hnone : ∀ storeId, manager'.firstStore storeId = none → manager.firstStore storeId = none)
    (hlists : manager'.keyStores.map KeyStore.revocations =
      manager.keyStores.map KeyStore.revocations) : RevocationKept manager' revoked := by
  refine ⟨hstores, fun storeId certId hrevoked ↦ ?_, ?_⟩
  · obtain ⟨hstore, hcert, hexists⟩ := hkept.named storeId certId hrevoked
    exact ⟨hstore, hcert, fun hgone ↦ hexists (hnone storeId hgone)⟩
  · rw [hlists]
    exact hkept.behind

/-- Calls that leave the certificates and the lists. -/
theorem RevocationKept.of_withoutKeys {manager' : CertificateManager}
    (hkept : RevocationKept manager revoked)
    (hsame : manager'.keyStores.map KeyStore.withoutKeys =
      manager.keyStores.map KeyStore.withoutKeys) : RevocationKept manager' revoked := by
  have hfirst : ∀ storeId, (manager'.firstStore storeId).map KeyStore.withoutKeys =
      (manager.firstStore storeId).map KeyStore.withoutKeys := by
    intro storeId
    have hfind := congrArg (List.find? fun store ↦ store.storeId = storeId) hsame
    rwa [List.find?_map, List.find?_map] at hfind
  have hlists := congrArg (List.map KeyStore.revocations) hsame
  rw [List.map_map, List.map_map] at hlists
  refine hkept.of_stores (fun storeId store hstore ↦ ?_) (fun storeId hnone ↦ ?_) hlists
  · have hview := hfirst storeId
    rw [hstore, Option.map_some] at hview
    obtain ⟨old, hold, hwithout⟩ := Option.map_eq_some_iff.mp hview.symm
    have holdKept := hkept.stores storeId old hold
    have hviewKept : StoreKept revoked storeId old.withoutKeys := ⟨holdKept.listed, holdKept.marked⟩
    rw [hwithout] at hviewKept
    exact ⟨hviewKept.listed, hviewKept.marked⟩
  · have hview := hfirst storeId
    rw [hnone] at hview
    exact Option.map_eq_none_iff.mp hview.symm

theorem RevocationKept.keystoreCreate (hkept : RevocationKept manager revoked) :
    RevocationKept (keystoreCreate manager).1 revoked := by
  rcases keystoreCreate_cases manager with hsame | hstores
  · rw [hsame]
    exact hkept
  have hfirst : ∀ storeId store, manager.firstStore storeId = some store →
      (Cryptography.keystoreCreate manager).1.firstStore storeId = some store := by
    intro storeId store hstore
    rw [CertificateManager.firstStore, hstores, List.find?_append]
    exact Option.or_eq_some_iff.mpr (.inl hstore)
  refine ⟨?_, ?_, ?_⟩
  · intro storeId store hstore
    cases hold : manager.firstStore storeId with
    | some old =>
      obtain rfl : old = store := Option.some.inj ((hfirst storeId old hold).symm.trans hstore)
      exact hkept.stores storeId old hold
    | none =>
      have hnone : ∀ certId, (storeId, certId) ∉ revoked :=
        fun certId hrevoked ↦ (hkept.named storeId certId hrevoked).2.2 hold
      have hnew : store ∈ (Cryptography.keystoreCreate manager).1.keyStores :=
        List.mem_of_find?_eq_some hstore
      rw [hstores, List.mem_append, List.mem_singleton] at hnew
      rcases hnew with hmem | rfl
      · have hother : ¬ store.storeId = storeId := by
          have hno := List.find?_eq_none.mp hold store hmem
          simpa using hno
        exact absurd (storeId_of_firstStore hstore) hother
      · exact storeKept_of_nil hnone rfl
  · intro storeId certId hrevoked
    obtain ⟨hstore, hcert, hexists⟩ := hkept.named storeId certId hrevoked
    obtain ⟨store, hold⟩ := Option.ne_none_iff_exists'.mp hexists
    exact ⟨hstore, hcert, by rw [hfirst storeId store hold]; exact Option.some_ne_none store⟩
  · rw [hstores, List.map_append, List.pairwise_append]
    refine ⟨hkept.behind, List.pairwise_singleton _ _, fun first _ second hsecond _ ↦ ?_⟩
    rw [List.mem_singleton.mp hsecond]
    rfl

/-- When the first store with an id is destroyed, the next one with the id lists nothing. -/
theorem RevocationKept.next_unlisted (hkept : RevocationKept manager revoked)
    (hnext : (manager.keyStores.eraseP fun store ↦ store.storeId = storeId).find?
      (fun store ↦ store.storeId = storeId) = some store) : store.revokedCertIds = [] := by
  have hmem := List.mem_of_find?_eq_some hnext
  have hid : store.storeId = storeId := by
    have htest := List.find?_some hnext
    exact of_decide_eq_true htest
  cases hfirst : manager.firstStore storeId with
  | none =>
    have hno := List.find?_eq_none.mp hfirst store (List.mem_of_mem_eraseP hmem)
    exact absurd (decide_eq_true hid) hno
  | some first =>
    obtain ⟨before, after, hsplit, hsame, hbefore, -⟩ := updateFirst_split hfirst
    rw [hsplit, eraseP_split hbefore hsame, List.mem_append] at hmem
    have hafter : store ∈ after :=
      hmem.resolve_left fun hearlier ↦ of_decide_eq_false (hbefore store hearlier) hid
    have hbehind := hkept.behind
    rw [hsplit, List.map_append, List.map_cons, List.pairwise_append] at hbehind
    have hpair := (List.pairwise_cons.mp hbehind.2.1).1 store.revocations
      (List.mem_map_of_mem hafter)
    exact hpair ((of_decide_eq_true hsame).trans hid.symm)

theorem RevocationKept.keystoreDestroy (hkept : RevocationKept manager revoked)
    (storeId : UInt32) :
    RevocationKept (keystoreDestroy manager storeId).1
      (trackRevoked manager (.keystoreDestroy storeId) revoked) := by
  rw [trackRevoked]
  rcases keystoreDestroy_cases manager storeId with ⟨hsame, -⟩ | ⟨store, -, -, hzero, hstores⟩
  · rw [hsame]
    exact hkept
  rw [if_pos hzero]
  have hrecord : ∀ otherStore certId, (otherStore, certId) ∈
      revoked.filter (fun named ↦ named.1 ≠ storeId) ↔
        (otherStore, certId) ∈ revoked ∧ otherStore ≠ storeId := by
    intro otherStore certId
    rw [List.mem_filter, decide_eq_true_iff]
  have hfirst : ∀ otherStore, otherStore ≠ storeId →
      (Cryptography.keystoreDestroy manager storeId).1.firstStore otherStore =
        manager.firstStore otherStore := by
    intro otherStore hother
    rw [CertificateManager.firstStore, hstores]
    exact find?_key_eraseP_of_ne hother
  refine ⟨?_, ?_, ?_⟩
  · intro otherStore store hstore
    by_cases hother : otherStore = storeId
    · subst hother
      rw [CertificateManager.firstStore, hstores] at hstore
      exact storeKept_of_nil (fun certId hrevoked ↦ ((hrecord _ certId).mp hrevoked).2 rfl)
        (hkept.next_unlisted hstore)
    · rw [hfirst otherStore hother] at hstore
      exact (hkept.stores otherStore store hstore).congr fun certId ↦
        (hrecord otherStore certId).trans (and_iff_left hother)
  · intro otherStore certId hrevoked
    obtain ⟨hold, hother⟩ := (hrecord otherStore certId).mp hrevoked
    rw [hfirst otherStore hother]
    exact hkept.named otherStore certId hold
  · rw [hstores]
    exact hkept.behind.sublist (List.eraseP_sublist.map _)

theorem RevocationKept.certificateImport (hkept : RevocationKept manager revoked)
    (storeId : UInt32) (allocated : Bool) :
    RevocationKept (certificateImport manager storeId allocated).1 revoked := by
  rcases certificateImport_cases manager storeId allocated with ⟨-, hsame⟩ | ⟨-, -, -, hstores⟩
  · exact hkept.of_withoutKeys (by rw [hsame])
  have hfirst : ∀ otherStore,
      (Cryptography.certificateImport manager storeId allocated).1.firstStore otherStore =
        if otherStore = storeId then
          (manager.firstStore otherStore).map (KeyStore.addCertificate manager.nextCertId)
        else manager.firstStore otherStore := by
    intro otherStore
    rw [CertificateManager.firstStore, hstores]
    exact find?_key_updateFirst fun _ ↦ rfl
  refine hkept.of_stores (fun otherStore store hstore ↦ ?_) (fun otherStore hnone ↦ ?_) ?_
  · rw [hfirst] at hstore
    split_ifs at hstore with hother
    · obtain ⟨old, hold, rfl⟩ := Option.map_eq_some_iff.mp hstore
      exact (hkept.stores otherStore old hold).addCertificate manager.nextCertId
    · exact hkept.stores otherStore store hstore
  · rw [hfirst] at hnone
    split_ifs at hnone
    · exact Option.map_eq_none_iff.mp hnone
    · exact hnone
  · rw [hstores]
    exact map_updateFirst fun _ _ ↦ rfl

/-- A change of the certificate that is found which leaves it refused when it was. -/
theorem RevocationKept.changeCertificate (hkept : RevocationKept manager revoked)
    (onCert : Certificate → Certificate) (hid : ∀ cert, (onCert cert).certId = cert.certId)
    (hrefused : ∀ cert, (storeId, certId) ∈ revoked →
      manager.findCertificate storeId certId = some cert → cert.Refused → (onCert cert).Refused) :
    RevocationKept (manager.changeStore storeId certId (KeyStore.changeCertificate certId onCert))
      revoked := by
  have hfirst : ∀ otherStore, (manager.changeStore storeId certId
      (KeyStore.changeCertificate certId onCert)).firstStore otherStore =
        (manager.firstStore otherStore).map fun store ↦
          if (store.certificateFor storeId certId).isSome then store.changeCertificate certId onCert
          else store :=
    fun otherStore ↦ firstStore_changeStore _ fun _ ↦ rfl
  refine hkept.of_stores (fun otherStore store hstore ↦ ?_) (fun otherStore hnone ↦ ?_)
    (map_updateFirst fun _ _ ↦ rfl)
  · rw [hfirst] at hstore
    obtain ⟨old, hold, rfl⟩ := Option.map_eq_some_iff.mp hstore
    have holdKept := hkept.stores otherStore old hold
    split_ifs with hfound
    · obtain rfl : otherStore = storeId :=
        (storeId_of_firstStore hold).symm.trans (storeId_eq_of_isSome hfound)
      refine holdKept.changeCertificate onCert hid fun cert hrevoked hcert ↦ ?_
      obtain ⟨hstoreId, hcertId, -⟩ := hkept.named otherStore certId hrevoked
      exact hrefused cert hrevoked (findCertificate_of_firstStore hstoreId hcertId hold hcert)
    · exact holdKept
  · rw [hfirst] at hnone
    exact Option.map_eq_none_iff.mp hnone

theorem RevocationKept.certificateVerifyChain (hkept : RevocationKept manager revoked)
    (storeId certId : UInt32) :
    RevocationKept (certificateVerifyChain manager storeId certId).1 revoked := by
  rcases certificateVerifyChain_cases manager storeId certId with
    ⟨hresult, -⟩ | ⟨cert, hfind, hdepth, hresult⟩
  · rw [hresult]
    exact hkept
  · rw [hresult]
    refine hkept.changeCertificate _ (fun _ ↦ rfl) fun found _ hfound hrefused ↦ ?_
    obtain rfl : cert = found := Option.some.inj (hfind.symm.trans hfound)
    exact absurd hrefused.2 (UInt32.not_lt.mpr hdepth)

theorem RevocationKept.certificateBindKey (hkept : RevocationKept manager revoked)
    (storeId certId keyId : UInt32)
    (hkey : (storeId, certId) ∈ revoked → keyId ≠ 0 → maxCertificateChain < keyId) :
    RevocationKept (certificateBindKey manager storeId certId keyId).1 revoked := by
  rcases certificateBindKey_cases manager storeId certId keyId with
    ⟨hresult, -⟩ | ⟨cert, hnonzero, -, hresult⟩
  · rw [hresult]
    exact hkept
  · rw [hresult]
    refine hkept.changeCertificate _ (fun _ ↦ rfl) fun found hrevoked _ hrefused ↦ ?_
    exact ⟨hrefused.1, hkey hrevoked hnonzero⟩

/-- A change of the first store with an id leaves those behind it, which list nothing. -/
theorem RevocationKept.behind_changeFirst (hkept : RevocationKept manager revoked)
    (change : KeyStore → KeyStore) (hid : ∀ store, (change store).storeId = store.storeId)
    (hfirst : manager.firstStore storeId = some store) :
    ((updateFirst (fun store ↦ store.storeId = storeId) change manager.keyStores).map
      KeyStore.revocations).Pairwise fun first second ↦ first.1 = second.1 → second.2 = [] := by
  obtain ⟨before, after, hsplit, hsame, hbefore, hupdate⟩ := updateFirst_split hfirst
  have hbehind := hkept.behind
  rw [hsplit, List.map_append, List.map_cons, List.pairwise_append, List.pairwise_cons] at hbehind
  obtain ⟨hearlier, ⟨hlater, hrest⟩, hacross⟩ := hbehind
  rw [hupdate, List.map_append, List.map_cons, List.pairwise_append, List.pairwise_cons]
  refine ⟨hearlier, ⟨fun second hsecond hids ↦ ?_, hrest⟩, fun first hmem second hsecond ↦ ?_⟩
  · exact hlater second hsecond ((hid store).symm.trans hids)
  · rcases List.mem_cons.mp hsecond with rfl | hmemAfter
    · intro hids
      obtain ⟨other, hother, rfl⟩ := List.mem_map.mp hmem
      have hstore : other.storeId = storeId :=
        (hids.trans (hid store)).trans (of_decide_eq_true hsame)
      exact absurd hstore (of_decide_eq_false (hbefore other hother))
    · exact hacross first hmem second (List.mem_cons_of_mem _ hmemAfter)

theorem RevocationKept.certificateRevoke (hkept : RevocationKept manager revoked)
    (storeId certId : UInt32)
    (hcall : (CertificateCall.certificateRevoke storeId certId).KeepsRevocations manager revoked) :
    RevocationKept (certificateRevoke manager storeId certId).1
      (trackRevoked manager (.certificateRevoke storeId certId) revoked) := by
  rw [trackRevoked]
  rcases certificateRevoke_cases manager storeId certId with ⟨hresult, -⟩ | ⟨cert, hfind, hresult⟩
  · rw [hresult]
    exact hkept
  obtain ⟨hpast, store, hfirst, hhas, hroom⟩ := hcall cert hfind
  obtain ⟨hstoreId, hcertId⟩ := ids_ne_zero_of_findCertificate hfind
  have hfound : store.certificateFor storeId certId = some cert := by
    obtain ⟨other, hother⟩ := Option.isSome_iff_exists.mp hhas
    rw [hother, ← hfind, findCertificate_of_firstStore hstoreId hcertId hfirst hother]
  have hstores : ∀ otherStore, (manager.changeStore storeId certId
      (KeyStore.revoke certId)).firstStore otherStore =
        (manager.firstStore otherStore).map fun store ↦
          if (store.certificateFor storeId certId).isSome then store.revoke certId else store :=
    fun otherStore ↦ firstStore_changeStore _ fun _ ↦ rfl
  rw [hresult, if_pos rfl]
  refine ⟨?_, ?_, ?_⟩
  · intro otherStore changed hchanged
    rw [hstores] at hchanged
    obtain ⟨old, hold, rfl⟩ := Option.map_eq_some_iff.mp hchanged
    have holdKept := hkept.stores otherStore old hold
    by_cases hother : otherStore = storeId
    · subst hother
      obtain rfl : store = old := Option.some.inj (hfirst.symm.trans hold)
      rw [if_pos hhas]
      exact holdKept.revoke hfound hpast hroom
    · have hnone : old.certificateFor storeId certId = none :=
        certificateFor_of_ne fun hid ↦ hother ((storeId_of_firstStore hold).symm.trans hid)
      rw [hnone, if_neg (by simp)]
      refine holdKept.congr fun otherCert ↦ ?_
      simp [hother]
  · intro otherStore otherCert hrevoked
    have hexists : otherStore ≠ 0 ∧ otherCert ≠ 0 ∧ manager.firstStore otherStore ≠ none := by
      rcases List.mem_cons.mp hrevoked with hnew | hold
      · obtain ⟨rfl, rfl⟩ := Prod.mk.inj hnew
        exact ⟨hstoreId, hcertId, by rw [hfirst]; exact Option.some_ne_none store⟩
      · exact hkept.named otherStore otherCert hold
    refine ⟨hexists.1, hexists.2.1, fun hnone ↦ hexists.2.2 ?_⟩
    rw [hstores] at hnone
    exact Option.map_eq_none_iff.mp hnone
  · rw [CertificateManager.changeStore, updateFirst_of_finer (KeyStore.revoke certId)
      (fun store hstore ↦ decide_eq_true (storeId_eq_of_isSome hstore)) hfirst hhas]
    exact hkept.behind_changeFirst (KeyStore.revoke certId) (fun _ ↦ rfl) hfirst

/-- A call with the condition keeps the calls for revocations consistent. -/
theorem RevocationKept.step (hkept : RevocationKept manager revoked) (call : CertificateCall UInt32)
    (hcall : call.KeepsRevocations manager revoked) :
    RevocationKept (certificateStep manager call) (trackRevoked manager call revoked) := by
  cases call with
  | keystoreCreate => exact hkept.keystoreCreate
  | keystoreDestroy storeId => exact hkept.keystoreDestroy storeId
  | certificateImport storeId allocated => exact hkept.certificateImport storeId allocated
  | certificateVerifyChain storeId certId => exact hkept.certificateVerifyChain storeId certId
  | certificateRevoke storeId certId => exact hkept.certificateRevoke storeId certId hcall
  | certificateBindKey storeId certId keyId =>
    exact hkept.certificateBindKey storeId certId keyId hcall
  | certificateValidate | privateKeyGenerate | privateKeyImport | privateKeyProtect
  | privateKeyUnprotect => exact hkept.of_withoutKeys (map_withoutKeys_step trivial)

/-- When the answers are consistent after a certificate was revoked, the condition was met. -/
theorem RevocationKept.keeps_of_revoke (hkept : RevocationKept manager revoked)
    (hnext : RevocationConsistent (Cryptography.certificateRevoke manager storeId certId).1
      (trackRevoked manager (.certificateRevoke storeId certId) revoked)) :
    (CertificateCall.certificateRevoke storeId certId).KeepsRevocations manager revoked := by
  intro cert hcert
  have hfind : manager.findCertificate storeId certId = some cert := hcert
  obtain ⟨hstoreId, hcertId⟩ := ids_ne_zero_of_findCertificate hfind
  rcases certificateRevoke_cases manager storeId certId with ⟨-, hnone⟩ | ⟨-, -, hresult⟩
  · exact absurd (hnone.symm.trans hfind) (Option.some_ne_none cert).symm
  rw [trackRevoked, hresult, if_pos rfl] at hnext
  obtain ⟨-, hstatus, hverify⟩ := hnext.refused storeId certId List.mem_cons_self
  have hafter := findCertificate_changeStore (KeyStore.revoke certId) Certificate.revoke
    (fun _ ↦ rfl) (fun _ _ _ ↦ rfl) hfind
  obtain ⟨store, hfirst⟩ := Option.ne_none_iff_exists'.mp
    (firstStore_ne_none_of_findCertificate (Option.isSome_of_eq_some hfind))
  have hstores : (manager.changeStore storeId certId (KeyStore.revoke certId)).firstStore storeId =
      some (if (store.certificateFor storeId certId).isSome then store.revoke certId
        else store) := by
    rw [firstStore_changeStore (KeyStore.revoke certId) fun _ ↦ rfl, hfirst, Option.map_some]
  refine ⟨certificateVerifyChain_fails_iff.mp hverify cert.revoke hafter, store, hfirst, ?_⟩
  have hlisted : certId ∈ (if (store.certificateFor storeId certId).isSome then
      store.revoke certId else store).revokedCertIds := by
    by_contra hunlisted
    rw [certificateCheckRevocationStatus_eq hstoreId hcertId hstores, if_neg hunlisted] at hstatus
    exact absurd hstatus (by decide)
  by_cases hhas : (store.certificateFor storeId certId).isSome
  · -- the first store has the certificate: it was listed before, or there was room
    refine ⟨hhas, ?_⟩
    by_contra hneither
    rw [not_or] at hneither
    rw [if_pos hhas, KeyStore.revoke, if_neg hneither.2] at hlisted
    exact hneither.1 hlisted
  · -- it does not, and then it does not list it either
    rw [if_neg hhas] at hlisted
    have hrevoked := ((hkept.stores storeId store hfirst).listed certId).mp hlisted
    obtain ⟨other, hother, -⟩ := (hkept.stores storeId store hfirst).marked certId hrevoked
    exact absurd (Option.isSome_of_eq_some hother) hhas

/-- When the answers are consistent after a key was bound, the condition was met. -/
theorem RevocationKept.keeps_of_bindKey {keyId : UInt32} (hkept : RevocationKept manager revoked)
    (hnext : RevocationConsistent (Cryptography.certificateBindKey manager storeId certId keyId).1
      revoked) :
    (CertificateCall.certificateBindKey storeId certId keyId).KeepsRevocations manager revoked := by
  intro hrevoked hkey
  obtain ⟨store, cert, -, -, -, hfind, -⟩ := hkept.findCertificate hrevoked
  rcases certificateBindKey_cases manager storeId certId keyId with
    ⟨-, hnone⟩ | ⟨-, -, -, hresult⟩
  · exact absurd ((hnone hkey).symm.trans hfind) (Option.some_ne_none cert).symm
  rw [hresult] at hnext
  obtain ⟨-, -, hverify⟩ := hnext.refused storeId certId hrevoked
  have hafter := findCertificate_changeStore
    (KeyStore.changeCertificate certId (Certificate.setChainDepth keyId))
    (Certificate.setChainDepth keyId) (fun _ ↦ rfl) (fun _ _ _ ↦ rfl) hfind
  exact certificateVerifyChain_fails_iff.mp hverify _ hafter

/-- From a state of a consistent run, a call leads to consistent answers exactly when it meets the
condition. -/
theorem RevocationKept.step_iff (hkept : RevocationKept manager revoked)
    (call : CertificateCall UInt32) :
    RevocationConsistent (certificateStep manager call) (trackRevoked manager call revoked) ↔
      call.KeepsRevocations manager revoked := by
  refine ⟨fun hnext ↦ ?_, fun hcall ↦ (hkept.step call hcall).consistent⟩
  cases call with
  | certificateRevoke storeId certId => exact hkept.keeps_of_revoke hnext
  | certificateBindKey storeId certId keyId => exact hkept.keeps_of_bindKey hnext
  | _ => trivial

end Managers

/-- In a run of the certificate manager, revoked certificates fail validation and the verification
of their chain and are reported as revoked, and others are reported as not revoked, exactly when
certificates are revoked only with a chain depth past the bound, in the first store with the id and
with room in its list, and no key with an id up to the bound is bound to a revoked certificate. -/
theorem revocationConsistent_iff (nextCertId nextKeyId nextStoreId : UInt32)
    (calls : List (CertificateCall UInt32)) :
    AlongRun (withTrace certificateStep trackRevoked)
        (fun traced ↦ RevocationConsistent traced.1 traced.2)
        (certificateManagerInit nextCertId nextKeyId nextStoreId, []) calls ↔
      EveryStep (withTrace certificateStep trackRevoked)
        (fun traced call ↦ call.KeepsRevocations traced.1 traced.2)
        (certificateManagerInit nextCertId nextKeyId nextStoreId, []) calls := by
  refine alongRun_iff_everyStep_of_kept (fun traced ↦ RevocationKept traced.1 traced.2)
    (fun _ _ ↦ True) ?_ ?_ ?_ (revocationKept_init nextCertId nextKeyId nextStoreId)
    (fun _ _ _ ↦ trivial)
  · intro traced call hkept _ hcall
    exact hkept.step call hcall
  · intro traced hkept
    exact hkept.consistent
  · intro traced call hkept _
    exact hkept.step_iff call

/-- A certificate is imported and revoked: its chain is verified all the same. -/
theorem revoked_certificate_verifies :
    let calls : List (CertificateCall UInt32) :=
      [.keystoreCreate, .certificateImport 1 true, .certificateRevoke 1 1]
    let traced := runFrom (withTrace certificateStep trackRevoked)
      (certificateManagerInit 1 1 1, []) calls
    traced.2 = [(1, 1)] ∧ (certificateVerifyChain traced.1 1 1).2 = 0 ∧
      ¬ AlongRun (withTrace certificateStep trackRevoked)
        (fun traced ↦ RevocationConsistent traced.1 traced.2) (certificateManagerInit 1 1 1, [])
        calls := by
  refine ⟨by decide, by decide, fun hconsistent ↦ ?_⟩
  have hlast := (hconsistent _ (List.prefix_refl _)).refused 1 1 (by decide)
  exact absurd hlast.2.2 (by decide)

end OneOS.Cryptography
