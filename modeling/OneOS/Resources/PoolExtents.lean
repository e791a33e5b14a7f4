import OneOS.Resources.PoolConservation

/-!
# The extents of allocations

The live allocations of a pool are to occupy disjoint extents inside its capacity. An allocation
begins where the amount in use ends, which is right as long as only the last allocations are given
back. Once an earlier one is given back the amount in use is less than where the later ones end, and
the next allocation overlaps them. That allocations stay inside the capacity follows from the
accounts of the pool (`ExtentsInside`); `extentsDisjoint_iff` says for which allocations they stay
apart (`ServesApart`).
-/

set_option autoImplicit false
set_option relaxedAutoImplicit false

namespace OneOS.Resources

open Foundation

/-! ### Extents -/

/-- One of two extents ends before the other begins. -/
def ResourceAllocation.Apart (first second : ResourceAllocation) : Prop :=
  first.baseAddress.toNat + first.allocatedAmount.toNat ≤ second.baseAddress.toNat ∨
    second.baseAddress.toNat + second.allocatedAmount.toNat ≤ first.baseAddress.toNat

instance (first second : ResourceAllocation) : Decidable (first.Apart second) :=
  inferInstanceAs (Decidable (_ ∨ _))

/-- Any two live allocations of a pool are apart. -/
def ExtentsApart (allocator : ResourceAllocator) : Prop :=
  allocator.allocations.Pairwise fun first second ↦
    first.poolId = second.poolId → first.Apart second

instance (allocator : ResourceAllocator) : Decidable (ExtentsApart allocator) :=
  inferInstanceAs (Decidable (List.Pairwise _ _))

/-- Every live allocation of a pool lies inside its capacity. -/
def ExtentsInside (allocator : ResourceAllocator) : Prop :=
  ∀ allocation ∈ allocator.allocations, ∀ pool ∈ allocator.pools,
    pool.poolId = allocation.poolId →
      allocation.baseAddress.toNat + allocation.allocatedAmount.toNat ≤ pool.totalCapacity.toNat

/-- Any two live allocations of a pool are apart and inside its capacity. -/
structure ExtentsDisjoint (allocator : ResourceAllocator) : Prop where
  apart : ExtentsApart allocator
  inside : ExtentsInside allocator

/-- An allocation lies outside the extent of an amount that begins at what is in use in a pool. -/
def ResourceAllocation.Outside (live : ResourceAllocation) (pool : ResourcePool)
    (amount : UInt64) : Prop :=
  live.baseAddress.toNat + live.allocatedAmount.toNat ≤
      pool.totalCapacity.toNat - pool.available.toNat ∨
    pool.totalCapacity.toNat - pool.available.toNat + amount.toNat ≤ live.baseAddress.toNat

instance (live : ResourceAllocation) (pool : ResourcePool) (amount : UInt64) :
    Decidable (live.Outside pool amount) :=
  inferInstanceAs (Decidable (_ ∨ _))

/-- The pools that requests with some ids are served from, one after the other, each as the requests
before leave it, with the amounts that are asked for. -/
def ResourceAllocator.planned (allocator : ResourceAllocator) :
    List UInt32 → List (ResourcePool × UInt64)
  | [] => []
  | requestId :: later =>
    match allocator.serving requestId with
    | none => allocator.planned later
    | some (request, pool) =>
      let lowered := updateFirst (allocator.serves request)
        (ResourcePool.take request.amountRequested) allocator.pools
      (pool, request.amountRequested) :: { allocator with pools := lowered }.planned later

/-- The condition on serving requests with some ids, in the state before: the table of allocations
has a row for each one that finds a pool, and the extent that begins at what is then in use in the
pool meets no live allocation of the pool. -/
structure ServesApart (allocator : ResourceAllocator) (requestIds : List UInt32) : Prop where
  room : (allocator.planned requestIds).length ≤
    maxAllocatedResources - allocator.allocations.length
  outside : ∀ served ∈ allocator.planned requestIds, ∀ live ∈ allocator.allocations,
    live.poolId = served.1.poolId → live.Outside served.1 served.2

instance (allocator : ResourceAllocator) (requestIds : List UInt32) :
    Decidable (ServesApart allocator requestIds) :=
  decidable_of_iff (_ ∧ ∀ served ∈ allocator.planned requestIds, _)
    ⟨fun hboth ↦ ⟨hboth.1, hboth.2⟩, fun hserves ↦ ⟨hserves.room, hserves.outside⟩⟩

/-- The ids of the requests that are not yet fulfilled. -/
def ResourceAllocator.pendingIds (allocator : ResourceAllocator) : List UInt32 :=
  allocator.requests.filterMap fun request ↦
    if request.isFulfilled then none else some request.requestId

/-- The condition on a call. -/
def AllocatorCall.KeepsApart (allocator : ResourceAllocator) : AllocatorCall → Prop
  | .allocate requestId => ServesApart allocator [requestId]
  | .processPending => ServesApart allocator allocator.pendingIds
  | _ => True

variable {allocator after : ResourceAllocator} {requestId : UInt32} {request : ResourceRequest}
  {pool : ResourcePool}

/-! ### Inside the capacity -/

/-- What the extents in a pool are measured by. -/
def ResourcePool.measure (pool : ResourcePool) : UInt32 × UInt64 :=
  (pool.poolId, pool.totalCapacity)

theorem measures_updateFirst {pools : List ResourcePool} {test : ResourcePool → Bool}
    {change : ResourcePool → ResourcePool}
    (hchange : ∀ pool, (change pool).measure = pool.measure) :
    (updateFirst test change pools).map ResourcePool.measure ⊆
      pools.map ResourcePool.measure := by
  rw [map_updateFirst fun pool _ ↦ hchange pool]
  exact List.Subset.refl _

theorem exists_pool_of_measures {pools later : List ResourcePool}
    (hmeasures : later.map ResourcePool.measure ⊆ pools.map ResourcePool.measure)
    (hpool : pool ∈ later) :
    ∃ old ∈ pools, old.poolId = pool.poolId ∧ old.totalCapacity = pool.totalCapacity := by
  obtain ⟨old, hold, hpair⟩ := List.mem_map.mp (hmeasures (List.mem_map_of_mem hpool))
  exact ⟨old, hold, Prod.mk.inj hpair⟩

/-- Pools and allocations among those there were. -/
theorem ExtentsInside.congr (hinside : ExtentsInside allocator)
    (hmeasures : after.pools.map ResourcePool.measure ⊆ allocator.pools.map ResourcePool.measure)
    (hallocations : after.allocations ⊆ allocator.allocations) : ExtentsInside after := by
  intro allocation hallocation pool hpool hsame
  obtain ⟨old, hold, hid, hcapacity⟩ := exists_pool_of_measures hmeasures hpool
  rw [← hcapacity]
  exact hinside allocation (hallocations hallocation) old hold (hid.trans hsame)

/-- A new allocation lies inside the capacity of its pool. -/
theorem newAllocation_inside (hholds : AllocatorHolds allocator)
    (hpool : pool ∈ allocator.pools) (hleft : request.amountRequested ≤ pool.available) :
    (allocator.newAllocation request pool).baseAddress.toNat + request.amountRequested.toNat ≤
      pool.totalCapacity.toNat := by
  have hbalanced := (hholds.conserved pool hpool).balanced
  have hle := UInt64.le_iff_toNat_le.mp hleft
  have hcapacity : pool.available ≤ pool.totalCapacity := UInt64.le_iff_toNat_le.mpr (by omega)
  rw [ResourceAllocator.newAllocation, UInt64.toNat_sub_of_le _ _ hcapacity]
  omega

theorem ExtentsInside.serve (hholds : AllocatorHolds allocator) (hinside : ExtentsInside allocator)
    (hpool : allocator.pools.find? (allocator.serves request) = some pool)
    (hleft : request.amountRequested ≤ pool.available) :
    ExtentsInside (allocator.serve request pool) := by
  have hmeasures : (allocator.serve request pool).pools.map ResourcePool.measure ⊆
      allocator.pools.map ResourcePool.measure := measures_updateFirst fun _ ↦ rfl
  have hmem := List.mem_of_find?_eq_some hpool
  refine List.forall_mem_append.mpr ⟨fun allocation hallocation other hother hsame ↦ ?_,
    List.forall_mem_singleton.mpr fun other hother hsame ↦ ?_⟩
  · obtain ⟨old, hold, hid, htotal⟩ := exists_pool_of_measures hmeasures hother
    rw [← htotal]
    exact hinside allocation hallocation old hold (hid.trans hsame)
  · obtain ⟨old, hold, hid, htotal⟩ := exists_pool_of_measures hmeasures hother
    obtain rfl : old = pool :=
      List.inj_on_of_nodup_map hholds.ids.distinct hold hmem (hid.trans hsame)
    rw [← htotal]
    exact newAllocation_inside hholds hmem hleft

theorem ExtentsInside.allocate {result : ResourceAllocator × Option UInt32}
    (hholds : AllocatorHolds allocator) (hinside : ExtentsInside allocator)
    (hresult : resourceAllocate allocator requestId = some result) : ExtentsInside result.1 := by
  rw [resourceAllocate] at hresult
  cases hserving : allocator.serving requestId with
  | none =>
    rw [hserving] at hresult
    rw [← Option.some.inj hresult]
    exact hinside
  | some served =>
    obtain ⟨request, pool⟩ := served
    obtain ⟨hpool, hleft⟩ := serving_spec hserving
    rw [hserving] at hresult
    dsimp only at hresult
    split_ifs at hresult
    rw [← Option.some.inj hresult]
    exact hinside.serve hholds hpool hleft

/-- The invariant of a run: the accounts hold and every allocation lies inside its pool. -/
def HoldsInside (running : Option ResourceAllocator) : Prop :=
  ∀ allocator ∈ running, AllocatorHolds allocator ∧ ExtentsInside allocator

theorem holdsInside_pendingStep {running : Option ResourceAllocator} (hinside : HoldsInside running)
    (row : ℕ) : HoldsInside (pendingStep running row) := by
  intro after hafter
  refine ⟨allocatorHolds_pendingStep (fun allocator hmem ↦ (hinside allocator hmem).1) row after
    hafter, ?_⟩
  obtain ⟨allocator, hallocator, hround⟩ := Option.bind_eq_some_iff.mp hafter
  obtain ⟨hholds, hextents⟩ := hinside allocator hallocator
  cases hpending : allocator.pendingAt row with
  | none =>
    rw [hpending] at hround
    rw [← Option.some.inj hround]
    exact hextents
  | some requestId =>
    rw [hpending] at hround
    obtain ⟨result, hresult, rfl⟩ := Option.map_eq_some_iff.mp hround
    exact hextents.allocate hholds hresult

theorem ExtentsInside.poolCreate (hholds : AllocatorHolds allocator)
    (hinside : ExtentsInside allocator) (type : ResourceType) (capacity : UInt64) :
    ExtentsInside (resourcePoolCreate allocator type capacity).1 := by
  rw [resourcePoolCreate]
  split_ifs
  · exact hinside
  · intro allocation hallocation
    refine List.forall_mem_append.mpr ⟨hinside allocation hallocation,
      List.forall_mem_singleton.mpr fun hsame ↦ ?_⟩
    -- no allocation names the new id
    have hless := hholds.ids.allocations_lt allocation hallocation
    have hnew : allocator.nextPoolId = allocation.poolId := hsame
    exact absurd hless (hnew ▸ Nat.lt_irrefl _)

theorem ExtentsInside.poolDestroy (hinside : ExtentsInside allocator) (poolId : UInt32) :
    ExtentsInside (resourcePoolDestroy allocator poolId).1 := by
  rw [resourcePoolDestroy]
  split_ifs
  · exact hinside
  · exact hinside.congr (List.eraseP_sublist.map _).subset (List.Subset.refl _)
  · exact hinside

theorem ExtentsInside.deallocate (hinside : ExtentsInside allocator) (allocationId : UInt32) :
    ExtentsInside (resourceDeallocate allocator allocationId).1 := by
  rw [resourceDeallocate]
  split_ifs
  · exact hinside
  cases allocator.allocations.find? fun allocation ↦ allocation.allocationId = allocationId with
  | none => exact hinside
  | some allocation =>
    exact hinside.congr (measures_updateFirst fun _ ↦ rfl) List.eraseP_sublist.subset

theorem holdsInside_step {running : Option ResourceAllocator} (hinside : HoldsInside running)
    (call : AllocatorCall) (hfits : ∀ allocator ∈ running, call.IdsFit allocator) :
    HoldsInside (allocatorStep running call) := by
  intro after hafter
  obtain ⟨allocator, hallocator, hcall⟩ := Option.bind_eq_some_iff.mp hafter
  obtain ⟨hholds, hextents⟩ := hinside allocator hallocator
  refine ⟨allocatorHolds_call hholds (hfits allocator hallocator) hcall, ?_⟩
  cases call with
  | poolCreate type capacity =>
    rw [← Option.some.inj hcall]
    exact hextents.poolCreate hholds type capacity
  | poolDestroy poolId =>
    rw [← Option.some.inj hcall]
    exact hextents.poolDestroy poolId
  | requestSubmit type amount =>
    rw [← Option.some.inj hcall, resourceRequestSubmit]
    split_ifs
    · exact hextents
    · exact hextents
  | requestCancel requestId =>
    rw [← Option.some.inj hcall, resourceRequestCancel]
    split_ifs
    · exact hextents
    · exact hextents
    · exact hextents
  | allocate requestId =>
    obtain ⟨result, hresult, rfl⟩ := Option.map_eq_some_iff.mp hcall
    exact hextents.allocate hholds hresult
  | deallocate allocationId =>
    rw [← Option.some.inj hcall]
    exact hextents.deallocate allocationId
  | processPending =>
    have hstart : HoldsInside (some allocator) := by
      intro other hother
      rw [← Option.some.inj hother]
      exact ⟨hholds, hextents⟩
    have hend : HoldsInside (resourceProcessPendingRequests allocator).1 :=
      runFrom_invariant HoldsInside (fun _ _ ↦ True)
        (fun running row hrunning _ ↦ holdsInside_pendingStep hrunning row) hstart
        fun _ _ _ ↦ trivial
    exact (hend after hcall).2

/-! ### What is planned -/

/-- What a request is served by. -/
def ResourceRequest.demand (request : ResourceRequest) : UInt32 × ResourceType × UInt64 :=
  (request.requestId, request.resourceType, request.amountRequested)

/-- Requests that demand the same are served from the same pools. -/
theorem serves_congr {other : ResourceRequest} (hstrategy : after.strategy = allocator.strategy)
    (hdemand : other.demand = request.demand) :
    after.serves other = allocator.serves request := by
  obtain ⟨-, hrest⟩ := Prod.mk.inj hdemand
  obtain ⟨htype, hamount⟩ := Prod.mk.inj hrest
  funext pool
  rw [ResourceAllocator.serves, ResourceAllocator.serves, hstrategy, htype, hamount]

section Congr

variable (hpools : after.pools = allocator.pools) (hstrategy : after.strategy = allocator.strategy)
  (hdemands : after.requests.map ResourceRequest.demand =
    allocator.requests.map ResourceRequest.demand)
include hpools hstrategy hdemands

/-- With the same pools and demands, the same is found. -/
theorem serving_congr (requestId : UInt32) :
    (after.serving requestId).map (Prod.map ResourceRequest.demand id) =
      (allocator.serving requestId).map (Prod.map ResourceRequest.demand id) := by
  have hfound : ∀ requests : List ResourceRequest,
      (requests.find? fun request ↦ request.requestId = requestId).map ResourceRequest.demand =
        (requests.map ResourceRequest.demand).find? fun demand ↦ demand.1 = requestId := by
    intro requests
    rw [List.find?_map]
    rfl
  have hsame := (hfound after.requests).trans ((hdemands ▸ hfound allocator.requests).symm)
  rw [ResourceAllocator.serving, ResourceAllocator.serving, hpools]
  by_cases hzero : requestId = 0
  · rw [if_pos hzero, if_pos hzero]
  rw [if_neg hzero, if_neg hzero]
  cases hother : after.requests.find? fun request ↦ request.requestId = requestId with
  | none =>
    rw [hother, Option.map_none, eq_comm, Option.map_eq_none_iff] at hsame
    rw [hsame]
    rfl
  | some other =>
    rw [hother, Option.map_some, eq_comm, Option.map_eq_some_iff] at hsame
    obtain ⟨request, hrequest, hdemand⟩ := hsame
    rw [hrequest, Option.bind_some, Option.bind_some, serves_congr hstrategy hdemand.symm]
    cases allocator.pools.find? (allocator.serves request) with
    | none => rfl
    | some pool => exact congrArg (fun demand ↦ some (demand, pool)) hdemand.symm

end Congr

/-- With the same pools and demands, the same is planned. -/
theorem planned_congr {requestIds : List UInt32} (hpools : after.pools = allocator.pools)
    (hstrategy : after.strategy = allocator.strategy)
    (hdemands : after.requests.map ResourceRequest.demand =
      allocator.requests.map ResourceRequest.demand) :
    after.planned requestIds = allocator.planned requestIds := by
  induction requestIds generalizing after allocator with
  | nil => rfl
  | cons requestId later ih =>
    have hserving := serving_congr hpools hstrategy hdemands requestId
    rw [ResourceAllocator.planned, ResourceAllocator.planned]
    cases hother : after.serving requestId with
    | none =>
      rw [hother, Option.map_none, eq_comm, Option.map_eq_none_iff] at hserving
      rw [hserving]
      exact ih hpools hstrategy hdemands
    | some served =>
      rw [hother, Option.map_some, eq_comm, Option.map_eq_some_iff] at hserving
      obtain ⟨⟨request, pool⟩, hrequest, hsame⟩ := hserving
      obtain ⟨hdemand, hpool⟩ := Prod.mk.inj hsame
      have hamount : request.amountRequested = served.1.amountRequested :=
        (Prod.mk.inj (Prod.mk.inj hdemand).2).2
      have hpool' : pool = served.2 := hpool
      rw [hrequest]
      dsimp only
      rw [← hpool', ← hamount, hpools, serves_congr hstrategy hdemand.symm]
      exact congrArg _ (ih rfl hstrategy hdemands)

/-- What is planned is to be served from pools that there are, with no more left in them than
there is. -/
theorem exists_pool_of_planned {requestIds : List UInt32} {served : ResourcePool × UInt64}
    (hserved : served ∈ allocator.planned requestIds) :
    ∃ old ∈ allocator.pools, old.poolId = served.1.poolId ∧
      old.totalCapacity = served.1.totalCapacity ∧ served.1.available ≤ old.available := by
  induction requestIds generalizing allocator with
  | nil => exact absurd hserved List.not_mem_nil
  | cons requestId later ih =>
    rw [ResourceAllocator.planned] at hserved
    cases hserving : allocator.serving requestId with
    | none =>
      rw [hserving] at hserved
      exact ih hserved
    | some found =>
      obtain ⟨request, pool⟩ := found
      obtain ⟨hpool, hleft⟩ := serving_spec hserving
      have hmem := List.mem_of_find?_eq_some hpool
      rw [hserving] at hserved
      rcases List.mem_cons.mp hserved with rfl | hlater
      · exact ⟨pool, hmem, rfl, rfl, UInt64.le_refl _⟩
      obtain ⟨lowered, hlowered, hid, hcapacity, havailable⟩ := ih hlater
      rcases mem_updateFirst hlowered with hold | ⟨old, hold, rfl⟩
      · exact ⟨lowered, hold, hid, hcapacity, havailable⟩
      · obtain rfl : pool = old := Option.some.inj (hpool.symm.trans hold)
        refine ⟨pool, hmem, hid, hcapacity, UInt64.le_trans havailable ?_⟩
        rw [UInt64.le_iff_toNat_le, ResourcePool.take, UInt64.toNat_sub_of_le _ _ hleft]
        exact Nat.sub_le _ _

/-! ### Apart -/

/-- An allocation is apart from a new one exactly when it lies outside of what that is to be. -/
theorem apart_newAllocation_iff (hholds : AllocatorHolds allocator) (hpool : pool ∈ allocator.pools)
    (live : ResourceAllocation) :
    live.Apart (allocator.newAllocation request pool) ↔
      live.Outside pool request.amountRequested := by
  have hbalanced := (hholds.conserved pool hpool).balanced
  have hcapacity : pool.available ≤ pool.totalCapacity := UInt64.le_iff_toNat_le.mpr (by omega)
  rw [ResourceAllocation.Apart, ResourceAllocation.Outside, ResourceAllocator.newAllocation,
    UInt64.toNat_sub_of_le _ _ hcapacity]

/-- An allocation that is made keeps extents apart exactly when the live ones lie outside of it. -/
theorem extentsApart_serve_iff (hholds : AllocatorHolds allocator)
    (hpool : pool ∈ allocator.pools) :
    ExtentsApart (allocator.serve request pool) ↔ ExtentsApart allocator ∧
      ∀ live ∈ allocator.allocations, live.poolId = pool.poolId →
        live.Outside pool request.amountRequested := by
  rw [ExtentsApart, ResourceAllocator.serve, List.pairwise_append]
  refine and_congr_right fun _ ↦ ⟨fun hnew live hlive hsame ↦ ?_, fun hnew ↦ ?_⟩
  · exact (apart_newAllocation_iff hholds hpool live).mp
      (hnew.2 live hlive _ List.mem_cons_self hsame)
  · exact ⟨List.pairwise_singleton _ _, fun live hlive ↦ List.forall_mem_singleton.mpr fun hsame ↦
      (apart_newAllocation_iff hholds hpool live).mpr (hnew live hlive hsame)⟩

/-- What is planned after a request is served is what was planned behind it. -/
theorem planned_cons_of_serving (hserving : allocator.serving requestId = some (request, pool))
    (later : List UInt32) :
    allocator.planned (requestId :: later) =
      (pool, request.amountRequested) :: (allocator.serve request pool).planned later := by
  have hdemands : (allocator.serve request pool).requests.map ResourceRequest.demand =
      allocator.requests.map ResourceRequest.demand := map_updateFirst fun _ _ ↦ rfl
  rw [ResourceAllocator.planned, hserving]
  exact congrArg (List.cons _) (planned_congr rfl rfl hdemands.symm)

/-- What was allocated from a pool lies outside of what is planned behind it. -/
theorem newAllocation_outside (hholds : AllocatorHolds allocator)
    (hserving : allocator.serving requestId = some (request, pool)) {later : List UInt32}
    {served : ResourcePool × UInt64}
    (hserved : served ∈ (allocator.serve request pool).planned later)
    (hsame : pool.poolId = served.1.poolId) :
    (allocator.newAllocation request pool).Outside served.1 served.2 := by
  obtain ⟨hpool, hleft⟩ := serving_spec hserving
  have hmem := List.mem_of_find?_eq_some hpool
  obtain ⟨old, hold, hid, hcapacity, havailable⟩ := exists_pool_of_planned hserved
  have htaken : old = pool.take request.amountRequested := by
    have hpools : ∀ other ∈ (allocator.serve request pool).pools,
        other.poolId = pool.poolId → other = pool.take request.amountRequested :=
      forall_mem_updateFirst_of_keys hholds.ids.distinct hpool hholds.conserved
        (fun _ _ ↦ rfl) fun _ hother _ hequal ↦ absurd hequal hother
    exact hpools old hold (hid.trans hsame.symm)
  have hbalanced := (hholds.conserved pool hmem).balanced
  have hamount := UInt64.le_iff_toNat_le.mp hleft
  have hused := UInt64.le_iff_toNat_le.mp havailable
  rw [htaken, ResourcePool.take] at hused hcapacity
  rw [UInt64.toNat_sub_of_le _ _ hleft] at hused
  have hinside : pool.available ≤ pool.totalCapacity := UInt64.le_iff_toNat_le.mpr (by omega)
  refine Or.inl ?_
  rw [ResourceAllocator.newAllocation, ← hcapacity, UInt64.toNat_sub_of_le _ _ hinside]
  dsimp only
  omega

/-- The condition goes by what is planned. -/
theorem servesApart_congr {requestIds others : List UInt32}
    (hplanned : allocator.planned requestIds = allocator.planned others) :
    ServesApart allocator requestIds ↔ ServesApart allocator others :=
  ⟨fun hserves ↦ ⟨hplanned ▸ hserves.room, hplanned ▸ hserves.outside⟩,
    fun hserves ↦ ⟨hplanned ▸ hserves.room, hplanned ▸ hserves.outside⟩⟩

theorem servesApart_nil : ServesApart allocator [] :=
  ⟨Nat.zero_le _, List.forall_mem_nil _⟩

/-- The condition on the first request and, after it is served, on those behind it. -/
theorem servesApart_cons_iff (hholds : AllocatorHolds allocator)
    (hserving : allocator.serving requestId = some (request, pool)) {later : List UInt32} :
    ServesApart allocator (requestId :: later) ↔
      (allocator.allocations.length < maxAllocatedResources ∧
        ∀ live ∈ allocator.allocations, live.poolId = pool.poolId →
          live.Outside pool request.amountRequested) ∧
        ServesApart (allocator.serve request pool) later := by
  have hplanned := planned_cons_of_serving hserving later
  have hlength : (allocator.serve request pool).allocations.length =
      allocator.allocations.length + 1 := List.length_append
  constructor
  · rintro ⟨hroom, houtside⟩
    rw [hplanned, List.length_cons] at hroom
    rw [hplanned, List.forall_mem_cons] at houtside
    refine ⟨⟨by omega, houtside.1⟩, by omega, fun served hserved ↦ ?_⟩
    exact List.forall_mem_append.mpr ⟨houtside.2 served hserved,
      List.forall_mem_singleton.mpr (newAllocation_outside hholds hserving hserved)⟩
  · rintro ⟨⟨hfree, hfirst⟩, hroom, houtside⟩
    refine ⟨?_, ?_⟩
    · rw [hplanned, List.length_cons]
      omega
    · rw [hplanned]
      refine List.forall_mem_cons.mpr ⟨hfirst, fun served hserved live hlive ↦ ?_⟩
      exact houtside served hserved live (List.mem_append_left _ hlive)

/-- Some allocator is left, with its extents apart. -/
def RunsApart (running : Option ResourceAllocator) : Prop :=
  ∃ allocator ∈ running, ExtentsApart allocator

@[simp] theorem runsApart_some : RunsApart (some allocator) ↔ ExtentsApart allocator := by
  refine ⟨?_, fun hapart ↦ ⟨allocator, rfl, hapart⟩⟩
  rintro ⟨other, hother, hapart⟩
  rwa [← Option.some.inj hother] at hapart

theorem not_runsApart_none (rows : List ℕ) : ¬ RunsApart (runFrom pendingStep none rows) := by
  have hnone : runFrom pendingStep none rows = none :=
    runFrom_invariant (fun running ↦ running = none) (fun _ _ ↦ True)
      (fun running row hrunning _ ↦ by rw [hrunning]; rfl) rfl fun _ _ _ ↦ trivial
  rw [hnone]
  rintro ⟨allocator, hmem, -⟩
  exact absurd hmem (Option.not_mem_none _)

/-- An allocation, with the rounds behind it, keeps extents apart exactly under the condition on it
and on what they serve. -/
theorem runsApart_allocate_iff (hholds : AllocatorHolds allocator) {rows : List ℕ}
    {later : List UInt32}
    (hrows : ∀ result, resourceAllocate allocator requestId = some result →
      (RunsApart (runFrom pendingStep (some result.1) rows) ↔
        ExtentsApart result.1 ∧ ServesApart result.1 later)) :
    RunsApart (runFrom pendingStep ((resourceAllocate allocator requestId).map Prod.fst) rows) ↔
      ExtentsApart allocator ∧ ServesApart allocator (requestId :: later) := by
  rw [resourceAllocate] at hrows ⊢
  cases hserving : allocator.serving requestId with
  | none =>
    have hplanned : allocator.planned (requestId :: later) = allocator.planned later := by
      rw [ResourceAllocator.planned, hserving]
    rw [hserving] at hrows
    rw [servesApart_congr hplanned]
    exact hrows _ rfl
  | some served =>
    obtain ⟨request, pool⟩ := served
    have hpool := List.mem_of_find?_eq_some (serving_spec hserving).1
    rw [hserving] at hrows
    rw [servesApart_cons_iff hholds hserving]
    dsimp only at hrows ⊢
    by_cases hfull : maxAllocatedResources ≤ allocator.allocations.length
    · rw [if_pos hfull]
      exact iff_of_false (not_runsApart_none rows) fun hboth ↦
        absurd hboth.2.1.1 (Nat.not_lt.mpr hfull)
    · rw [if_neg hfull] at hrows ⊢
      rw [Option.map_some, hrows _ rfl, extentsApart_serve_iff hholds hpool]
      have hfree := Nat.lt_of_not_le hfull
      constructor
      · rintro ⟨⟨hapart, houtside⟩, hlater⟩
        exact ⟨hapart, ⟨hfree, houtside⟩, hlater⟩
      · rintro ⟨hapart, ⟨-, houtside⟩, hlater⟩
        exact ⟨⟨hapart, houtside⟩, hlater⟩

/-! ### The loop over pending requests -/

/-- A request is found by its id. -/
theorem requestId_of_serving (hserving : allocator.serving requestId = some (request, pool)) :
    request.requestId = requestId := by
  rw [ResourceAllocator.serving] at hserving
  split_ifs at hserving
  obtain ⟨found, hfound, hpool⟩ := Option.bind_eq_some_iff.mp hserving
  obtain ⟨other, -, hpair⟩ := Option.map_eq_some_iff.mp hpool
  have htest := List.find?_some hfound
  rw [← (Prod.mk.inj hpair).1]
  exact of_decide_eq_true htest

/-- A round does not change which requests behind it are pending, as the request that it fulfils is
the first with its id. -/
theorem pendingAt_allocate {row behind : ℕ} {result : ResourceAllocator × Option UInt32}
    (hpending : allocator.pendingAt row = some requestId)
    (hresult : resourceAllocate allocator requestId = some result) (hbehind : row < behind) :
    result.1.pendingAt behind = allocator.pendingAt behind := by
  rw [resourceAllocate] at hresult
  cases hserving : allocator.serving requestId with
  | none =>
    rw [hserving] at hresult
    rw [← Option.some.inj hresult]
  | some served =>
    obtain ⟨request, pool⟩ := served
    rw [hserving] at hresult
    dsimp only at hresult
    split_ifs at hresult
    obtain ⟨named, hnamed, hid⟩ := Option.bind_eq_some_iff.mp hpending
    split_ifs at hid
    obtain ⟨hrow, rfl⟩ := List.getElem?_eq_some_iff.mp hnamed
    have hfirst : allocator.requests.findIdx (fun other ↦ other.requestId = request.requestId) ≤
        row := by
      refine Nat.le_of_not_lt fun hlt ↦ ?_
      have hother := List.not_of_lt_findIdx hlt
      exact of_decide_eq_false hother
        ((Option.some.inj hid).trans (requestId_of_serving hserving).symm)
    rw [← Option.some.inj hresult, ResourceAllocator.pendingAt, ResourceAllocator.pendingAt,
      ResourceAllocator.serve]
    dsimp only
    rw [updateFirst, List.getElem?_modify_ne _ _ (Nat.ne_of_lt (Nat.lt_of_le_of_lt hfirst hbehind))]

/-- Rounds over rows in ascending order keep extents apart exactly under the condition on the
requests that are pending in them. -/
theorem runsApart_rounds_iff {rows : List ℕ} (hrows : rows.Pairwise (· < ·))
    (hholds : AllocatorHolds allocator) :
    RunsApart (runFrom pendingStep (some allocator) rows) ↔
      ExtentsApart allocator ∧ ServesApart allocator (rows.filterMap allocator.pendingAt) := by
  induction rows generalizing allocator with
  | nil => rw [runFrom_nil, runsApart_some, List.filterMap_nil, and_iff_left servesApart_nil]
  | cons row rows ih =>
    obtain ⟨hbehind, hrows⟩ := List.pairwise_cons.mp hrows
    rw [runFrom_cons, pendingStep, Option.bind_some]
    cases hpending : allocator.pendingAt row with
    | none =>
      rw [List.filterMap_cons_none hpending]
      exact ih hrows hholds
    | some requestId =>
      rw [List.filterMap_cons_some hpending]
      refine runsApart_allocate_iff hholds fun result hresult ↦ ?_
      have hsame : rows.filterMap result.1.pendingAt = rows.filterMap allocator.pendingAt :=
        List.filterMap_congr fun later hlater ↦
          pendingAt_allocate hpending hresult (hbehind later hlater)
      rw [← hsame]
      exact ih hrows (hholds.allocate hresult)

/-- The loop over pending requests keeps extents apart exactly under the condition. -/
theorem runsApart_processPending_iff (hholds : AllocatorHolds allocator) :
    RunsApart (resourceProcessPendingRequests allocator).1 ↔
      ExtentsApart allocator ∧ AllocatorCall.processPending.KeepsApart allocator := by
  have hpending : (List.range allocator.requests.length).filterMap allocator.pendingAt =
      allocator.pendingIds := filterMap_range_getElem? _ _
  rw [resourceProcessPendingRequests, runsApart_rounds_iff List.pairwise_lt_range hholds, hpending]
  rfl

theorem ExtentsApart.poolCreate (hapart : ExtentsApart allocator) (type : ResourceType)
    (capacity : UInt64) : ExtentsApart (resourcePoolCreate allocator type capacity).1 := by
  rw [resourcePoolCreate]
  split_ifs
  · exact hapart
  · exact hapart

theorem ExtentsApart.poolDestroy (hapart : ExtentsApart allocator) (poolId : UInt32) :
    ExtentsApart (resourcePoolDestroy allocator poolId).1 := by
  rw [resourcePoolDestroy]
  split_ifs
  · exact hapart
  · exact hapart
  · exact hapart

theorem ExtentsApart.requestSubmit (hapart : ExtentsApart allocator) (type : ResourceType)
    (amount : UInt64) : ExtentsApart (resourceRequestSubmit allocator type amount).1 := by
  rw [resourceRequestSubmit]
  split_ifs
  · exact hapart
  · exact hapart

theorem ExtentsApart.requestCancel (hapart : ExtentsApart allocator) (requestId : UInt32) :
    ExtentsApart (resourceRequestCancel allocator requestId).1 := by
  rw [resourceRequestCancel]
  split_ifs
  · exact hapart
  · exact hapart
  · exact hapart

theorem ExtentsApart.deallocate (hapart : ExtentsApart allocator) (allocationId : UInt32) :
    ExtentsApart (resourceDeallocate allocator allocationId).1 := by
  rw [resourceDeallocate]
  split_ifs
  · exact hapart
  cases allocator.allocations.find? fun allocation ↦ allocation.allocationId = allocationId with
  | none => exact hapart
  | some allocation => exact List.Pairwise.sublist List.eraseP_sublist hapart

/-- A call keeps extents apart exactly under the condition. -/
theorem runsApart_call_iff (hholds : AllocatorHolds allocator) (hapart : ExtentsApart allocator)
    (call : AllocatorCall) :
    RunsApart (allocatorCall allocator call) ↔ call.KeepsApart allocator := by
  cases call with
  | poolCreate type capacity =>
    exact iff_of_true ⟨_, rfl, hapart.poolCreate type capacity⟩ trivial
  | poolDestroy poolId => exact iff_of_true ⟨_, rfl, hapart.poolDestroy poolId⟩ trivial
  | requestSubmit type amount =>
    exact iff_of_true ⟨_, rfl, hapart.requestSubmit type amount⟩ trivial
  | requestCancel requestId =>
    exact iff_of_true ⟨_, rfl, hapart.requestCancel requestId⟩ trivial
  | allocate requestId =>
    -- an allocation alone is one with no rounds behind it
    have hallocate : RunsApart
        (runFrom pendingStep ((resourceAllocate allocator requestId).map Prod.fst) []) ↔
          ExtentsApart allocator ∧ ServesApart allocator [requestId] := by
      refine runsApart_allocate_iff hholds fun result _ ↦ ?_
      rw [runFrom_nil, runsApart_some, and_iff_left servesApart_nil]
    exact hallocate.trans (and_iff_right hapart)
  | deallocate allocationId =>
    exact iff_of_true ⟨_, rfl, hapart.deallocate allocationId⟩ trivial
  | processPending =>
    exact (runsApart_processPending_iff hholds).trans (and_iff_right hapart)

/-! ### Every run -/

/-- Extents are disjoint after a call exactly when the condition holds, as long as the invariant
does. -/
theorem runsDisjoint_step_iff {running : Option ResourceAllocator} {call : AllocatorCall}
    (hinside : HoldsInside running) (hbefore : ∃ allocator ∈ running, ExtentsDisjoint allocator)
    (hafter : HoldsInside (allocatorStep running call)) :
    (∃ allocator ∈ allocatorStep running call, ExtentsDisjoint allocator) ↔
      ∀ allocator ∈ running, call.KeepsApart allocator := by
  obtain ⟨allocator, hrunning, hdisjoint⟩ := hbefore
  have hcall := runsApart_call_iff (hinside allocator hrunning).1 hdisjoint.apart call
  rw [Option.mem_def.mp hrunning] at hafter ⊢
  constructor
  · rintro ⟨after, hmem, hend⟩ other hother
    rw [← Option.some.inj hother]
    exact hcall.mp ⟨after, hmem, hend.apart⟩
  · intro hkeeps
    obtain ⟨after, hmem, hapart⟩ := hcall.mpr (hkeeps allocator rfl)
    exact ⟨after, hmem, hapart, (hafter after hmem).2⟩

/-- Assumes: the counter of pools does not wrap. Over every run, any two live allocations of a pool
are apart and inside its capacity exactly when every call that serves requests finds room in the
table for all of them, and the live allocations of their pools outside the extents that begin at
what is in use, with what the requests before take. -/
theorem extentsDisjoint_iff (strategy : AllocationStrategy)
    (nextPoolId nextRequestId nextAllocationId : UInt32) (calls : List AllocatorCall)
    (hids : EveryStep allocatorStep
      (fun running call ↦ ∀ allocator ∈ running, call.IdsFit allocator)
      (some (resourceAllocatorInit strategy nextPoolId nextRequestId nextAllocationId)) calls) :
    AlongRun allocatorStep (fun running ↦ ∃ allocator ∈ running, ExtentsDisjoint allocator)
        (some (resourceAllocatorInit strategy nextPoolId nextRequestId nextAllocationId)) calls ↔
      EveryStep allocatorStep (fun running call ↦ ∀ allocator ∈ running, call.KeepsApart allocator)
        (some (resourceAllocatorInit strategy nextPoolId nextRequestId nextAllocationId))
        calls := by
  have hinit : ExtentsDisjoint
      (resourceAllocatorInit strategy nextPoolId nextRequestId nextAllocationId) :=
    ⟨List.Pairwise.nil, List.forall_mem_nil _⟩
  refine alongRun_iff_everyStep HoldsInside _
    (fun running call hinside hfits ↦ holdsInside_step hinside call hfits)
    (fun running call hinside hfits hbefore ↦
      runsDisjoint_step_iff hinside hbefore (holdsInside_step hinside call hfits)) ?_
    ⟨_, rfl, hinit⟩ hids
  intro start hstart
  rw [← Option.some.inj hstart]
  exact ⟨⟨⟨List.nodup_nil, List.forall_mem_nil _, List.forall_mem_nil _⟩, List.forall_mem_nil _⟩,
    hinit.inside⟩

/-- The last of two allocations is given back, and what is allocated next takes its place. -/
theorem extentsDisjoint_iff_last_given_back :
    AlongRun allocatorStep (fun running ↦ ∃ allocator ∈ running, ExtentsDisjoint allocator)
      (some (resourceAllocatorInit .firstFit 1 1 1))
      [.poolCreate .memory 100, .requestSubmit .memory 30, .requestSubmit .memory 50,
        .requestSubmit .memory 40, .allocate 1, .allocate 2, .deallocate 2, .allocate 3] := by
  refine (extentsDisjoint_iff .firstFit 1 1 1 _ ?_).mpr ?_
  · simp only [everyStep_cons, everyStep_nil, AllocatorCall.IdsFit]
    refine ⟨fun allocator hallocator ↦ ?_, by simp⟩
    rw [← Option.some.inj hallocator]
    decide
  · refine everyStep_cons.mpr ⟨fun _ _ ↦ trivial, everyStep_cons.mpr ⟨fun _ _ ↦ trivial, ?_⟩⟩
    refine everyStep_cons.mpr ⟨fun _ _ ↦ trivial, everyStep_cons.mpr ⟨fun _ _ ↦ trivial, ?_⟩⟩
    refine everyStep_cons.mpr ⟨fun allocator hfirst ↦ ?_, everyStep_cons.mpr
      ⟨fun allocator hsecond ↦ ?_, everyStep_cons.mpr ⟨fun _ _ ↦ trivial, everyStep_cons.mpr
        ⟨fun allocator hthird ↦ ?_, everyStep_nil⟩⟩⟩⟩
    · rw [← Option.some.inj hfirst]
      exact show ServesApart _ [1] by decide +kernel
    · rw [← Option.some.inj hsecond]
      exact show ServesApart _ [2] by decide +kernel
    · rw [← Option.some.inj hthird]
      exact show ServesApart _ [3] by decide +kernel

/-- The first of two allocations, of 30 and 50, is given back. 50 are in use, so an allocation of 40
begins at 50, inside the extent from 30 to 80 that is live. -/
theorem extentsDisjoint_first_given_back :
    ¬ AlongRun allocatorStep (fun running ↦ ∃ allocator ∈ running, ExtentsDisjoint allocator)
      (some (resourceAllocatorInit .firstFit 1 1 1))
      [.poolCreate .memory 100, .requestSubmit .memory 30, .requestSubmit .memory 50,
        .requestSubmit .memory 40, .allocate 1, .allocate 2, .deallocate 1, .allocate 3] := by
  intro halong
  obtain ⟨allocator, hallocator, hdisjoint⟩ := halong _ (List.prefix_refl _)
  have hapart := hdisjoint.apart
  rw [← Option.some.inj hallocator] at hapart
  revert hapart
  decide

end OneOS.Resources
