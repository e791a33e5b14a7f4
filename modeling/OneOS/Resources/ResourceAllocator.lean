import OneOS.Foundation.Runs
import OneOS.Foundation.Table

/-!
# The resource allocator

`resource-scheduling/resource_allocator.c`: pools of resources of some types, requests, and a table
of allocations that name the pool they were made from by its id. A request is served from the first
pool of its type with enough left, and the extent of an allocation begins at the amount that is in
use in the pool. Pools, requests and allocations are removed by shifting those behind them down, and
a pool may be destroyed while allocations name it.

`resource_allocate` does not look whether the table of allocations is full; an allocation behind its
last row overwrites the fields behind it and ends the model. Left out are the checks of pointers,
constraints, times, percentages, the requester and the priority of a request, `is_active`, which is
1 for every allocation in the table, and the counts of successes and failures, which no modelled
function reads.
-/

set_option autoImplicit false
set_option relaxedAutoImplicit false

namespace OneOS.Resources

open Foundation

/-! ### Pools, requests and allocations -/

/-- `MAX_RESOURCE_POOLS`. -/
def maxResourcePools : ℕ := 32

/-- `MAX_RESOURCE_REQUESTS`. -/
def maxResourceRequests : ℕ := 2048

/-- `MAX_ALLOCATED_RESOURCES`. -/
def maxAllocatedResources : ℕ := 8192

/-- `ResourceType`. -/
inductive ResourceType
  | cpu
  | memory
  | disk
  | network
  | gpu
  deriving DecidableEq, Repr

/-- `AllocationStrategy`. -/
inductive AllocationStrategy
  | firstFit
  | bestFit
  | worstFit
  | optimal
  deriving DecidableEq, Repr

/-- `ResourcePool`. -/
structure ResourcePool where
  poolId : UInt32
  resourceType : ResourceType
  totalCapacity : UInt64
  available : UInt64
  allocated : UInt64
  deriving DecidableEq, Repr

/-- `ResourceRequest`. -/
structure ResourceRequest where
  requestId : UInt32
  resourceType : ResourceType
  amountRequested : UInt64
  isFulfilled : Bool
  deriving DecidableEq, Repr

/-- `ResourceAllocation`. -/
structure ResourceAllocation where
  allocationId : UInt32
  requestId : UInt32
  poolId : UInt32
  allocatedAmount : UInt64
  baseAddress : UInt64
  deriving DecidableEq, Repr

/-- `ResourceAllocator`, with the used rows of its arrays as lists, and the counters that number
pools, requests and allocations. -/
structure ResourceAllocator where
  pools : List ResourcePool
  requests : List ResourceRequest
  allocations : List ResourceAllocation
  strategy : AllocationStrategy
  nextPoolId : UInt32
  nextRequestId : UInt32
  nextAllocationId : UInt32
  deriving DecidableEq, Repr

/-- `resource_allocator_init`. The counters are shared by all allocators of a process and keep their
values. -/
def resourceAllocatorInit (strategy : AllocationStrategy)
    (nextPoolId nextRequestId nextAllocationId : UInt32) : ResourceAllocator where
  pools := []
  requests := []
  allocations := []
  strategy := strategy
  nextPoolId := nextPoolId
  nextRequestId := nextRequestId
  nextAllocationId := nextAllocationId

/-! ### Pools and requests -/

/-- `resource_pool_create`, returning the id, or 0. -/
def resourcePoolCreate (allocator : ResourceAllocator) (type : ResourceType) (capacity : UInt64) :
    ResourceAllocator × UInt32 :=
  if maxResourcePools ≤ allocator.pools.length ∨ capacity = 0 then (allocator, 0)
  else
    ({ allocator with
      pools := allocator.pools ++
        [{ poolId := allocator.nextPoolId, resourceType := type, totalCapacity := capacity,
           available := capacity, allocated := 0 }]
      nextPoolId := allocator.nextPoolId + 1 }, allocator.nextPoolId)

/-- `resource_pool_destroy`. -/
def resourcePoolDestroy (allocator : ResourceAllocator) (poolId : UInt32) :
    ResourceAllocator × Int :=
  if poolId = 0 then (allocator, -1)
  else if allocator.pools.any fun pool ↦ pool.poolId = poolId then
    ({ allocator with pools := allocator.pools.eraseP fun pool ↦ pool.poolId = poolId }, 0)
  else (allocator, -1)

/-- `resource_request_submit`, returning the id, or 0. -/
def resourceRequestSubmit (allocator : ResourceAllocator) (type : ResourceType) (amount : UInt64) :
    ResourceAllocator × UInt32 :=
  if maxResourceRequests ≤ allocator.requests.length ∨ amount = 0 then (allocator, 0)
  else
    ({ allocator with
      requests := allocator.requests ++
        [{ requestId := allocator.nextRequestId, resourceType := type, amountRequested := amount,
           isFulfilled := false }]
      nextRequestId := allocator.nextRequestId + 1 }, allocator.nextRequestId)

/-- `resource_request_cancel`. -/
def resourceRequestCancel (allocator : ResourceAllocator) (requestId : UInt32) :
    ResourceAllocator × Int :=
  if requestId = 0 then (allocator, -1)
  else if allocator.requests.any fun request ↦ request.requestId = requestId then
    ({ allocator with
      requests := allocator.requests.eraseP fun request ↦ request.requestId = requestId }, 0)
  else (allocator, -1)

/-! ### Allocating -/

/-- Whether a pool can serve a request: it is of the type, the strategy is one of the two that are
implemented, and it has enough left. -/
def ResourceAllocator.serves (allocator : ResourceAllocator) (request : ResourceRequest)
    (pool : ResourcePool) : Bool :=
  pool.resourceType = request.resourceType ∧
    (allocator.strategy = .firstFit ∨ allocator.strategy = .bestFit) ∧
      request.amountRequested ≤ pool.available

/-- The allocation of what a request asks for from a pool. -/
def ResourceAllocator.newAllocation (allocator : ResourceAllocator) (request : ResourceRequest)
    (pool : ResourcePool) : ResourceAllocation where
  allocationId := allocator.nextAllocationId
  requestId := request.requestId
  poolId := pool.poolId
  allocatedAmount := request.amountRequested
  baseAddress := pool.totalCapacity - pool.available

/-- The pool after an amount is taken from it. -/
def ResourcePool.take (amount : UInt64) (pool : ResourcePool) : ResourcePool :=
  { pool with available := pool.available - amount, allocated := pool.allocated + amount }

/-- The pool after an amount is given back to it. -/
def ResourcePool.giveBack (amount : UInt64) (pool : ResourcePool) : ResourcePool :=
  { pool with available := pool.available + amount, allocated := pool.allocated - amount }

/-- The request and the pool that `resource_allocate` finds. -/
def ResourceAllocator.serving (allocator : ResourceAllocator) (requestId : UInt32) :
    Option (ResourceRequest × ResourcePool) :=
  if requestId = 0 then none
  else
    (allocator.requests.find? fun request ↦ request.requestId = requestId).bind fun request ↦
      (allocator.pools.find? (allocator.serves request)).map fun pool ↦ (request, pool)

/-- The allocator after a request is served from a pool. -/
def ResourceAllocator.serve (allocator : ResourceAllocator) (request : ResourceRequest)
    (pool : ResourcePool) : ResourceAllocator :=
  { allocator with
    pools := updateFirst (allocator.serves request) (ResourcePool.take request.amountRequested)
      allocator.pools
    requests := updateFirst (fun other ↦ other.requestId = request.requestId)
      ({ · with isFulfilled := true }) allocator.requests
    allocations := allocator.allocations ++ [allocator.newAllocation request pool]
    nextAllocationId := allocator.nextAllocationId + 1 }

/-- `resource_allocate`, returning the id, or none for -1. The outer none stands for an allocation
behind the last row of the table. -/
def resourceAllocate (allocator : ResourceAllocator) (requestId : UInt32) :
    Option (ResourceAllocator × Option UInt32) :=
  match allocator.serving requestId with
  | none => some (allocator, none)
  | some (request, pool) =>
    if maxAllocatedResources ≤ allocator.allocations.length then none
    else some (allocator.serve request pool, some allocator.nextAllocationId)

/-- `resource_deallocate`. -/
def resourceDeallocate (allocator : ResourceAllocator) (allocationId : UInt32) :
    ResourceAllocator × Int :=
  if allocationId = 0 then (allocator, -1)
  else
    match allocator.allocations.find? fun allocation ↦ allocation.allocationId = allocationId with
    | none => (allocator, -1)
    | some allocation =>
      ({ allocator with
        pools := updateFirst (fun pool ↦ pool.poolId = allocation.poolId)
          (ResourcePool.giveBack allocation.allocatedAmount) allocator.pools
        allocations := allocator.allocations.eraseP fun allocation ↦
          allocation.allocationId = allocationId }, 0)

/-! ### Pending requests -/

/-- The id of the request in a row, if it is not yet fulfilled. -/
def ResourceAllocator.pendingAt (allocator : ResourceAllocator) (row : ℕ) : Option UInt32 :=
  (allocator.requests[row]?).bind fun request ↦
    if request.isFulfilled then none else some request.requestId

/-- One round of the loop of `resource_process_pending_requests`. -/
def pendingStep (running : Option ResourceAllocator) (row : ℕ) : Option ResourceAllocator :=
  running.bind fun allocator ↦
    match allocator.pendingAt row with
    | none => some allocator
    | some requestId => (resourceAllocate allocator requestId).map Prod.fst

/-- What a round counts: the id of the allocation, as a signed number, is not negative. -/
def countsRound (running : Option ResourceAllocator) (row : ℕ) : ℕ :=
  let id := do
    let allocator ← running
    let requestId ← allocator.pendingAt row
    let (_, id) ← resourceAllocate allocator requestId
    id
  if id.any fun id ↦ id.toNat < 2 ^ 31 then 1 else 0

/-- `resource_process_pending_requests`, with the number it returns. -/
def resourceProcessPendingRequests (allocator : ResourceAllocator) :
    Option ResourceAllocator × ℕ :=
  (runFrom pendingStep (some allocator) (List.range allocator.requests.length),
    tally pendingStep countsRound (some allocator) (List.range allocator.requests.length))

/-! ### Calls -/

/-- A call to the allocator. -/
inductive AllocatorCall
  | poolCreate (type : ResourceType) (capacity : UInt64)
  | poolDestroy (poolId : UInt32)
  | requestSubmit (type : ResourceType) (amount : UInt64)
  | requestCancel (requestId : UInt32)
  | allocate (requestId : UInt32)
  | deallocate (allocationId : UInt32)
  | processPending
  deriving DecidableEq, Repr

/-- What a call does to the allocator. -/
def allocatorCall (allocator : ResourceAllocator) : AllocatorCall → Option ResourceAllocator
  | .poolCreate type capacity => some (resourcePoolCreate allocator type capacity).1
  | .poolDestroy poolId => some (resourcePoolDestroy allocator poolId).1
  | .requestSubmit type amount => some (resourceRequestSubmit allocator type amount).1
  | .requestCancel requestId => some (resourceRequestCancel allocator requestId).1
  | .allocate requestId => (resourceAllocate allocator requestId).map Prod.fst
  | .deallocate allocationId => some (resourceDeallocate allocator allocationId).1
  | .processPending => (resourceProcessPendingRequests allocator).1

/-- What a call does as long as the model lasts. -/
def allocatorStep (running : Option ResourceAllocator) (call : AllocatorCall) :
    Option ResourceAllocator :=
  running.bind fun allocator ↦ allocatorCall allocator call

end OneOS.Resources
