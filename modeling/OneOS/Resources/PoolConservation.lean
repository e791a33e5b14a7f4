import OneOS.Foundation.Counters
import OneOS.Resources.ResourceAllocator

/-!
# What a pool has given out

What is available in a pool and what is allocated from it are to make up its capacity, and what is
allocated is to be the total of the live allocations that name the pool (`PoolConserved`).
Allocations name pools by id, so this rests on ids: a pool that is created gets an id that no other
pool has and no allocation names, although pools are destroyed with allocations outstanding. As long
as the counter of pools does not wrap, this is so, and `poolsConserved` follows for every run.
-/

set_option autoImplicit false
set_option relaxedAutoImplicit false

namespace OneOS.Resources

open Foundation

/-! ### What is to be conserved -/

/-- The total of the allocations that name a pool. -/
def liveAmount (allocations : List ResourceAllocation) (poolId : UInt32) : ℕ :=
  (allocations.map fun allocation ↦
    if allocation.poolId = poolId then allocation.allocatedAmount.toNat else 0).sum

/-- A pool has given out what its live allocations hold, and the rest of its capacity is left. -/
structure PoolConserved (allocations : List ResourceAllocation) (pool : ResourcePool) : Prop where
  balanced : pool.available.toNat + pool.allocated.toNat = pool.totalCapacity.toNat
  live : pool.allocated.toNat = liveAmount allocations pool.poolId

/-- Every pool is conserved. -/
def PoolsConserved (allocator : ResourceAllocator) : Prop :=
  ∀ pool ∈ allocator.pools, PoolConserved allocator.allocations pool

/-- The counter of pools does not wrap in a call. -/
def AllocatorCall.IdsFit (allocator : ResourceAllocator) : AllocatorCall → Prop
  | .poolCreate _ _ => allocator.nextPoolId.toNat + 1 < 2 ^ 32
  | _ => True

/-- The ids of pools are distinct, and they and the ids that allocations name were given before. -/
structure PoolIdsHold (allocator : ResourceAllocator) : Prop where
  distinct : (allocator.pools.map ResourcePool.poolId).Nodup
  pools_lt : ∀ pool ∈ allocator.pools, pool.poolId.toNat < allocator.nextPoolId.toNat
  allocations_lt :
    ∀ allocation ∈ allocator.allocations, allocation.poolId.toNat < allocator.nextPoolId.toNat

variable {allocator : ResourceAllocator} {allocations : List ResourceAllocation}
  {pool : ResourcePool} {amount : UInt64}

/-! ### One pool -/

theorem liveAmount_append (allocation : ResourceAllocation) (poolId : UInt32) :
    liveAmount (allocations ++ [allocation]) poolId = liveAmount allocations poolId +
      if allocation.poolId = poolId then allocation.allocatedAmount.toNat else 0 := by
  rw [liveAmount, List.map_append, List.sum_append]
  rfl

theorem liveAmount_eraseP {test : ResourceAllocation → Bool} {allocation : ResourceAllocation}
    (hfind : allocations.find? test = some allocation) (poolId : UInt32) :
    liveAmount (allocations.eraseP test) poolId +
      (if allocation.poolId = poolId then allocation.allocatedAmount.toNat else 0) =
        liveAmount allocations poolId :=
  sum_map_eraseP_add hfind

/-- A pool that no allocation names has given out nothing. -/
theorem liveAmount_eq_zero {poolId : UInt32}
    (hnone : ∀ allocation ∈ allocations, allocation.poolId ≠ poolId) :
    liveAmount allocations poolId = 0 := by
  refine List.sum_eq_zero fun amount hamount ↦ ?_
  obtain ⟨allocation, hallocation, rfl⟩ := List.mem_map.mp hamount
  exact if_neg (hnone allocation hallocation)

/-- A pool is conserved when an allocation is made from it. -/
theorem PoolConserved.take {allocation : ResourceAllocation}
    (hconserved : PoolConserved allocations pool) (hleft : amount ≤ pool.available)
    (hpool : allocation.poolId = pool.poolId) (hamount : allocation.allocatedAmount = amount) :
    PoolConserved (allocations ++ [allocation]) (pool.take amount) := by
  have hbalanced := hconserved.balanced
  have hcapacity := pool.totalCapacity.toNat_lt
  obtain ⟨havailable, hallocated⟩ := toNat_moved hleft
    (show pool.available.toNat + pool.allocated.toNat < 2 ^ 64 by omega)
  refine ⟨?_, ?_⟩
  · rw [ResourcePool.take]
    dsimp only
    omega
  · rw [ResourcePool.take]
    dsimp only
    rw [hallocated, hconserved.live, liveAmount_append, if_pos hpool, hamount]

/-- A pool is conserved when an allocation is made from another pool. -/
theorem PoolConserved.append_of_ne {allocation : ResourceAllocation}
    (hconserved : PoolConserved allocations pool) (hother : allocation.poolId ≠ pool.poolId) :
    PoolConserved (allocations ++ [allocation]) pool := by
  refine ⟨hconserved.balanced, ?_⟩
  rw [liveAmount_append, if_neg hother]
  exact hconserved.live

section Erase

variable {test : ResourceAllocation → Bool} {allocation : ResourceAllocation}
  (hfind : allocations.find? test = some allocation)
  (hconserved : PoolConserved allocations pool)
include hfind hconserved

/-- A pool is conserved when an allocation from it is given back. -/
theorem PoolConserved.giveBack (hpool : allocation.poolId = pool.poolId) :
    PoolConserved (allocations.eraseP test) (pool.giveBack allocation.allocatedAmount) := by
  have hlive := liveAmount_eraseP hfind pool.poolId
  rw [if_pos hpool, ← hconserved.live] at hlive
  have hbalanced := hconserved.balanced
  have hcapacity := pool.totalCapacity.toNat_lt
  have hgiven : allocation.allocatedAmount ≤ pool.allocated :=
    UInt64.le_iff_toNat_le.mpr (by omega)
  obtain ⟨hallocated, havailable⟩ := toNat_moved hgiven
    (show pool.allocated.toNat + pool.available.toNat < 2 ^ 64 by omega)
  refine ⟨?_, ?_⟩
  · rw [ResourcePool.giveBack]
    dsimp only
    omega
  · rw [ResourcePool.giveBack]
    dsimp only
    omega

/-- A pool is conserved when an allocation from another pool is given back. -/
theorem PoolConserved.eraseP_of_ne (hother : allocation.poolId ≠ pool.poolId) :
    PoolConserved (allocations.eraseP test) pool := by
  have hlive := liveAmount_eraseP hfind pool.poolId
  rw [if_neg hother, Nat.add_zero] at hlive
  exact ⟨hconserved.balanced, hconserved.live.trans hlive.symm⟩

end Erase

/-! ### What the calls keep -/

/-- The ids of pools hold and every pool is conserved. -/
structure AllocatorHolds (allocator : ResourceAllocator) : Prop where
  ids : PoolIdsHold allocator
  conserved : PoolsConserved allocator

/-- A change of pools that keeps their ids, and allocations that name ids that were given. -/
theorem PoolIdsHold.congr {after : ResourceAllocator} (hids : PoolIdsHold allocator)
    (hpools : after.pools.map ResourcePool.poolId = allocator.pools.map ResourcePool.poolId)
    (hnext : after.nextPoolId = allocator.nextPoolId)
    (hallocations : ∀ allocation ∈ after.allocations,
      allocation.poolId.toNat < allocator.nextPoolId.toNat) : PoolIdsHold after := by
  refine ⟨hpools ▸ hids.distinct, ?_, hnext ▸ hallocations⟩
  have hlt : ∀ id ∈ allocator.pools.map ResourcePool.poolId,
      id.toNat < allocator.nextPoolId.toNat := List.forall_mem_map.mpr hids.pools_lt
  rw [← hpools, ← hnext] at hlt
  exact List.forall_mem_map.mp hlt

theorem AllocatorHolds.poolCreate (hholds : AllocatorHolds allocator) (type : ResourceType)
    (capacity : UInt64) (hfits : allocator.nextPoolId.toNat + 1 < 2 ^ 32) :
    AllocatorHolds (resourcePoolCreate allocator type capacity).1 := by
  rw [resourcePoolCreate]
  split_ifs
  · exact hholds
  obtain ⟨⟨hdistinct, hpools, hallocations⟩, hconserved⟩ := hholds
  have hnext := toNat_succ hfits
  have hnew : ∀ allocation ∈ allocator.allocations, allocation.poolId ≠ allocator.nextPoolId :=
    fun allocation hallocation hsame ↦
      absurd (hallocations allocation hallocation) (hsame ▸ Nat.lt_irrefl _)
  refine ⟨⟨?_, ?_, fun allocation hallocation ↦ ?_⟩, ?_⟩
  · refine (nodup_map_concat_iff hdistinct).mpr fun pool hpool hsame ↦ ?_
    have hsame' : pool.poolId = allocator.nextPoolId := hsame
    exact absurd (hpools pool hpool) (hsame' ▸ Nat.lt_irrefl _)
  · refine List.forall_mem_append.mpr ⟨fun pool hpool ↦ ?_, List.forall_mem_singleton.mpr ?_⟩
    · exact Nat.lt_of_lt_of_eq (Nat.lt_succ_of_lt (hpools pool hpool)) hnext.symm
    · exact Nat.lt_of_lt_of_eq (Nat.lt_succ_self _) hnext.symm
  · exact Nat.lt_of_lt_of_eq (Nat.lt_succ_of_lt (hallocations allocation hallocation)) hnext.symm
  · refine List.forall_mem_append.mpr ⟨hconserved, List.forall_mem_singleton.mpr ⟨rfl, ?_⟩⟩
    exact (liveAmount_eq_zero hnew).symm

theorem AllocatorHolds.poolDestroy (hholds : AllocatorHolds allocator) (poolId : UInt32) :
    AllocatorHolds (resourcePoolDestroy allocator poolId).1 := by
  rw [resourcePoolDestroy]
  split_ifs
  · exact hholds
  · obtain ⟨⟨hdistinct, hpools, hallocations⟩, hconserved⟩ := hholds
    exact ⟨⟨nodup_map_eraseP hdistinct,
      fun pool hpool ↦ hpools pool (List.mem_of_mem_eraseP hpool), hallocations⟩,
      fun pool hpool ↦ hconserved pool (List.mem_of_mem_eraseP hpool)⟩
  · exact hholds

/-- Requests play no part in it. -/
theorem AllocatorHolds.requests (hholds : AllocatorHolds allocator)
    (requests : List ResourceRequest) (nextRequestId : UInt32) :
    AllocatorHolds { allocator with requests := requests, nextRequestId := nextRequestId } :=
  ⟨hholds.ids.congr rfl rfl hholds.ids.allocations_lt, hholds.conserved⟩

theorem AllocatorHolds.requestSubmit (hholds : AllocatorHolds allocator) (type : ResourceType)
    (amount : UInt64) : AllocatorHolds (resourceRequestSubmit allocator type amount).1 := by
  rw [resourceRequestSubmit]
  split_ifs
  · exact hholds
  · exact hholds.requests _ _

theorem AllocatorHolds.requestCancel (hholds : AllocatorHolds allocator) (requestId : UInt32) :
    AllocatorHolds (resourceRequestCancel allocator requestId).1 := by
  rw [resourceRequestCancel]
  split_ifs
  · exact hholds
  · exact hholds.requests _ _
  · exact hholds

/-- What is served is served from a pool that has enough left. -/
theorem serving_spec {requestId : UInt32} {request : ResourceRequest}
    (hserving : allocator.serving requestId = some (request, pool)) :
    allocator.pools.find? (allocator.serves request) = some pool ∧
      request.amountRequested ≤ pool.available := by
  rw [ResourceAllocator.serving] at hserving
  split_ifs at hserving
  obtain ⟨found, -, hpool⟩ := Option.bind_eq_some_iff.mp hserving
  obtain ⟨other, hother, hpair⟩ := Option.map_eq_some_iff.mp hpool
  obtain ⟨rfl, rfl⟩ := Prod.mk.inj hpair
  have htest := List.find?_some hother
  exact ⟨hother, (of_decide_eq_true htest).2.2⟩

theorem AllocatorHolds.serve (hholds : AllocatorHolds allocator) {request : ResourceRequest}
    (hpool : allocator.pools.find? (allocator.serves request) = some pool)
    (hleft : request.amountRequested ≤ pool.available) :
    AllocatorHolds (allocator.serve request pool) := by
  refine ⟨hholds.ids.congr (map_updateFirst fun _ _ ↦ rfl) rfl ?_, ?_⟩
  · refine List.forall_mem_append.mpr ⟨hholds.ids.allocations_lt, List.forall_mem_singleton.mpr ?_⟩
    exact hholds.ids.pools_lt pool (List.mem_of_find?_eq_some hpool)
  · refine forall_mem_updateFirst_of_keys hholds.ids.distinct hpool hholds.conserved
      (fun hself ↦ ?_) fun other hother hbefore ↦ ?_
    · exact hself.take hleft rfl rfl
    · exact hbefore.append_of_ne (Ne.symm hother)

theorem AllocatorHolds.allocate {after : ResourceAllocator × Option UInt32}
    (hholds : AllocatorHolds allocator) {requestId : UInt32}
    (hafter : resourceAllocate allocator requestId = some after) : AllocatorHolds after.1 := by
  rw [resourceAllocate] at hafter
  cases hserving : allocator.serving requestId with
  | none =>
    rw [hserving] at hafter
    rw [← Option.some.inj hafter]
    exact hholds
  | some served =>
    obtain ⟨request, pool⟩ := served
    obtain ⟨hpool, hleft⟩ := serving_spec hserving
    rw [hserving] at hafter
    dsimp only at hafter
    split_ifs at hafter
    rw [← Option.some.inj hafter]
    exact hholds.serve hpool hleft

theorem AllocatorHolds.deallocate (hholds : AllocatorHolds allocator) (allocationId : UInt32) :
    AllocatorHolds (resourceDeallocate allocator allocationId).1 := by
  rw [resourceDeallocate]
  split_ifs
  · exact hholds
  cases hfind : allocator.allocations.find? fun allocation ↦
      allocation.allocationId = allocationId with
  | none => exact hholds
  | some allocation =>
    refine ⟨hholds.ids.congr (map_updateFirst fun _ _ ↦ rfl) rfl fun other hother ↦
      hholds.ids.allocations_lt other (List.mem_of_mem_eraseP hother), ?_⟩
    cases hpool : allocator.pools.find? fun pool ↦ pool.poolId = allocation.poolId with
    | none =>
      -- the pool of the allocation was destroyed
      intro other hother
      dsimp only at hother ⊢
      rw [updateFirst_of_find?_eq_none hpool] at hother
      refine PoolConserved.eraseP_of_ne hfind (hholds.conserved other hother) fun hsame ↦ ?_
      exact List.find?_eq_none.mp hpool other hother (decide_eq_true hsame.symm)
    | some pool =>
      have htest := List.find?_some hpool
      have hsame : pool.poolId = allocation.poolId := of_decide_eq_true htest
      refine forall_mem_updateFirst_of_keys hholds.ids.distinct hpool hholds.conserved
        (fun hself ↦ ?_) fun other hother hbefore ↦ ?_
      · exact PoolConserved.giveBack hfind hself hsame.symm
      · exact PoolConserved.eraseP_of_ne hfind hbefore (hsame ▸ Ne.symm hother)

theorem allocatorHolds_pendingStep {running : Option ResourceAllocator}
    (hholds : ∀ allocator ∈ running, AllocatorHolds allocator) (row : ℕ) :
    ∀ allocator ∈ pendingStep running row, AllocatorHolds allocator := by
  intro after hafter
  obtain ⟨allocator, hallocator, hround⟩ := Option.bind_eq_some_iff.mp hafter
  cases hpending : allocator.pendingAt row with
  | none =>
    rw [hpending] at hround
    rw [← Option.some.inj hround]
    exact hholds allocator hallocator
  | some requestId =>
    rw [hpending] at hround
    obtain ⟨result, hresult, rfl⟩ := Option.map_eq_some_iff.mp hround
    exact (hholds allocator hallocator).allocate hresult

theorem allocatorHolds_call {after : ResourceAllocator} {call : AllocatorCall}
    (hholds : AllocatorHolds allocator) (hfits : call.IdsFit allocator)
    (hafter : allocatorCall allocator call = some after) : AllocatorHolds after := by
  cases call with
  | poolCreate type capacity =>
    rw [← Option.some.inj hafter]
    exact hholds.poolCreate type capacity hfits
  | poolDestroy poolId =>
    rw [← Option.some.inj hafter]
    exact hholds.poolDestroy poolId
  | requestSubmit type amount =>
    rw [← Option.some.inj hafter]
    exact hholds.requestSubmit type amount
  | requestCancel requestId =>
    rw [← Option.some.inj hafter]
    exact hholds.requestCancel requestId
  | allocate requestId =>
    obtain ⟨result, hresult, rfl⟩ := Option.map_eq_some_iff.mp hafter
    exact hholds.allocate hresult
  | deallocate allocationId =>
    rw [← Option.some.inj hafter]
    exact hholds.deallocate allocationId
  | processPending =>
    refine runFrom_invariant (fun running ↦ ∀ allocator ∈ running, AllocatorHolds allocator)
      (fun _ _ ↦ True) (fun running row hrunning _ ↦ allocatorHolds_pendingStep hrunning row)
      (fun start hstart ↦ ?_) (fun _ _ _ ↦ trivial) after hafter
    rw [← Option.some.inj hstart]
    exact hholds

/-! ### Every run -/

/-- Over a run in which the counter of pools does not wrap, the ids of pools hold and every pool is
conserved. -/
theorem allocatorHolds_along {strategy : AllocationStrategy}
    {nextPoolId nextRequestId nextAllocationId : UInt32} {calls : List AllocatorCall}
    (hids : EveryStep allocatorStep
      (fun running call ↦ ∀ allocator ∈ running, call.IdsFit allocator)
      (some (resourceAllocatorInit strategy nextPoolId nextRequestId nextAllocationId)) calls) :
    AlongRun allocatorStep (fun running ↦ ∀ allocator ∈ running, AllocatorHolds allocator)
      (some (resourceAllocatorInit strategy nextPoolId nextRequestId nextAllocationId)) calls := by
  refine alongRun_invariant _ _ (fun running call hholds hfits after hafter ↦ ?_)
    (fun start hstart ↦ ?_) hids
  · obtain ⟨allocator, hallocator, hcall⟩ := Option.bind_eq_some_iff.mp hafter
    exact allocatorHolds_call (hholds allocator hallocator) (hfits allocator hallocator) hcall
  · rw [← Option.some.inj hstart]
    exact ⟨⟨List.nodup_nil, List.forall_mem_nil _, List.forall_mem_nil _⟩, List.forall_mem_nil _⟩

/-- Assumes: the counter of pools does not wrap. Over every run, as long as the table of allocations
is not left, what is available and what is allocated make up the capacity of every pool, and what is
allocated is the total of the live allocations that name the pool. -/
theorem poolsConserved (strategy : AllocationStrategy)
    (nextPoolId nextRequestId nextAllocationId : UInt32) (calls : List AllocatorCall)
    (hids : EveryStep allocatorStep
      (fun running call ↦ ∀ allocator ∈ running, call.IdsFit allocator)
      (some (resourceAllocatorInit strategy nextPoolId nextRequestId nextAllocationId)) calls) :
    AlongRun allocatorStep (fun running ↦ ∀ allocator ∈ running, PoolsConserved allocator)
      (some (resourceAllocatorInit strategy nextPoolId nextRequestId nextAllocationId)) calls :=
  (allocatorHolds_along hids).imp fun _ hholds allocator hallocator ↦
    (hholds allocator hallocator).conserved

/-- Two requests are served from a pool, one of them is given back, and the pool is destroyed with
the other one outstanding. -/
theorem poolsConserved_destroyed :
    AlongRun allocatorStep (fun running ↦ ∀ allocator ∈ running, PoolsConserved allocator)
      (some (resourceAllocatorInit .firstFit 1 1 1))
      [.poolCreate .memory 100, .requestSubmit .memory 30, .requestSubmit .memory 50,
        .processPending, .deallocate 1, .poolDestroy 1] := by
  refine poolsConserved .firstFit 1 1 1 _ ?_
  simp only [everyStep_cons, everyStep_nil, AllocatorCall.IdsFit]
  refine ⟨fun allocator hallocator ↦ ?_, by simp⟩
  rw [← Option.some.inj hallocator]
  decide

end OneOS.Resources
