import OneOS.Foundation.Table

/-!
# The load balancer

`load-balancing/load_balancer.c`: pools of servers, found by their id, and two counts over all of
them, of the servers and of the healthy ones. A server is sought in every pool with the pool's id.
`load_balancer_remove_server` shifts the servers behind the removed one down and looks at the state
in the removed one's place afterwards.

`load_balancer_select_server` chooses a server by the algorithm of the pool: by a cursor over all
servers, by the fewest connections of a healthy server, or by a cursor over the weights of the
healthy servers.

The loads of a server are numbers of 32 bits with a point, compared with two constants. Left out are
the checks of pointers, names, addresses and times, the requests of a pool and the totals that no
modelled function reads.
-/

set_option autoImplicit false
set_option relaxedAutoImplicit false

namespace OneOS.LoadBalancing

open Foundation

/-! ### Pools and servers -/

/-- `MAX_BACKEND_SERVERS`. -/
def maxBackendServers : ℕ := 256

/-- `MAX_LOAD_BALANCER_POOLS`. -/
def maxLoadBalancerPools : ℕ := 64

/-- `LoadBalancingAlgorithm`. -/
inductive LoadBalancingAlgorithm
  | roundRobin
  | leastConn
  | weighted
  | ipHash
  | consistentHash
  | random
  deriving DecidableEq, Repr

/-- `ServerState`. -/
inductive ServerState
  | healthy
  | degraded
  | unhealthy
  | draining
  | maintenance
  deriving DecidableEq, Repr

/-- `BackendServer`. -/
structure BackendServer where
  serverId : UInt32
  state : ServerState
  weight : UInt32
  activeConnections : UInt32
  totalRequests : UInt32
  cpuUsage : Float32
  memoryUsage : Float32

/-- `LoadBalancerPool`, with the used rows of its array as a list. -/
structure LoadBalancerPool where
  poolId : UInt32
  servers : List BackendServer
  algorithm : LoadBalancingAlgorithm
  currentServerIndex : UInt32

/-- `LoadBalancer`, with the used rows of its array as a list, and the counters that number pools
and servers. -/
structure LoadBalancer where
  pools : List LoadBalancerPool
  totalServers : UInt32
  healthyServers : UInt32
  nextPoolId : UInt32
  nextServerId : UInt32

/-- `load_balancer_init`. The counters are shared by all balancers of a process and keep their
values. -/
def loadBalancerInit (nextPoolId nextServerId : UInt32) : LoadBalancer where
  pools := []
  totalServers := 0
  healthyServers := 0
  nextPoolId := nextPoolId
  nextServerId := nextServerId

/-! ### Pools -/

/-- `load_balancer_pool_create`, returning the id, or 0. -/
def loadBalancerPoolCreate (balancer : LoadBalancer) (algorithm : LoadBalancingAlgorithm) :
    LoadBalancer × UInt32 :=
  if maxLoadBalancerPools ≤ balancer.pools.length then (balancer, 0)
  else
    ({ balancer with
      pools := balancer.pools ++
        [{ poolId := balancer.nextPoolId, servers := [], algorithm := algorithm,
           currentServerIndex := 0 }]
      nextPoolId := balancer.nextPoolId + 1 }, balancer.nextPoolId)

/-- `load_balancer_pool_destroy`. -/
def loadBalancerPoolDestroy (balancer : LoadBalancer) (poolId : UInt32) : LoadBalancer × Int :=
  if poolId = 0 then (balancer, -1)
  else if balancer.pools.any fun pool ↦ pool.poolId = poolId then
    ({ balancer with pools := balancer.pools.eraseP fun pool ↦ pool.poolId = poolId }, 0)
  else (balancer, -1)

/-! ### Servers -/

/-- The server that `load_balancer_add_server` writes. -/
def newServer (serverId weight : UInt32) : BackendServer where
  serverId := serverId
  state := .healthy
  weight := if 0 < weight then weight else 1
  activeConnections := 0
  totalRequests := 0
  cpuUsage := 0
  memoryUsage := 0

/-- `load_balancer_add_server`, returning the id, or none for -1. -/
def loadBalancerAddServer (balancer : LoadBalancer) (poolId weight : UInt32) :
    LoadBalancer × Option UInt32 :=
  if poolId = 0 then (balancer, none)
  else
    match balancer.pools.find? fun pool ↦ pool.poolId = poolId with
    | none => (balancer, none)
    | some pool =>
      if maxBackendServers ≤ pool.servers.length then (balancer, none)
      else
        ({ balancer with
          pools := updateFirst (fun pool ↦ pool.poolId = poolId)
            (fun pool ↦ { pool with
              servers := pool.servers ++ [newServer balancer.nextServerId weight] })
            balancer.pools
          nextServerId := balancer.nextServerId + 1
          totalServers := balancer.totalServers + 1
          healthyServers := balancer.healthyServers + 1 }, some balancer.nextServerId)

/-- Whether a pool has an id and a server with an id. -/
def LoadBalancerPool.holds (poolId serverId : UInt32) (pool : LoadBalancerPool) : Bool :=
  pool.poolId = poolId ∧ pool.servers.any fun server ↦ server.serverId = serverId

/-- The place of the first server with an id. -/
def LoadBalancerPool.placeOf (pool : LoadBalancerPool) (serverId : UInt32) : ℕ :=
  pool.servers.findIdx fun server ↦ server.serverId = serverId

/-- The state that is found in the place of a removed server, once the servers behind it are shifted
down: that of the next server, or, behind the last one, still that of the removed server. -/
def stateInPlace (servers : List BackendServer) (place : ℕ) : Option ServerState :=
  match servers[place + 1]? with
  | some next => some next.state
  | none => servers[place]?.map BackendServer.state

/-- `load_balancer_remove_server`. -/
def loadBalancerRemoveServer (balancer : LoadBalancer) (poolId serverId : UInt32) :
    LoadBalancer × Int :=
  if poolId = 0 ∨ serverId = 0 then (balancer, -1)
  else
    match balancer.pools.find? (LoadBalancerPool.holds poolId serverId) with
    | none => (balancer, -1)
    | some pool =>
      ({ balancer with
        pools := updateFirst (LoadBalancerPool.holds poolId serverId)
          (fun pool ↦ { pool with
            servers := pool.servers.eraseP fun server ↦ server.serverId = serverId })
          balancer.pools
        totalServers := balancer.totalServers - 1
        healthyServers :=
          if stateInPlace pool.servers (pool.placeOf serverId) = some .healthy then
            balancer.healthyServers - 1
          else balancer.healthyServers }, 0)

/-- The server with an id in the first pool with an id that has it. -/
def LoadBalancer.serverOf (balancer : LoadBalancer) (poolId serverId : UInt32) :
    Option BackendServer :=
  (balancer.pools.find? (LoadBalancerPool.holds poolId serverId)).bind fun pool ↦
    pool.servers.find? fun server ↦ server.serverId = serverId

/-- The pools after the server with an id in the first pool with an id that has it is changed. -/
def LoadBalancer.onServer (balancer : LoadBalancer) (poolId serverId : UInt32)
    (change : BackendServer → BackendServer) : List LoadBalancerPool :=
  updateFirst (LoadBalancerPool.holds poolId serverId)
    (fun pool ↦ { pool with
      servers := updateFirst (fun server ↦ server.serverId = serverId) change pool.servers })
    balancer.pools

/-- `load_balancer_update_server_state`. -/
def loadBalancerUpdateServerState (balancer : LoadBalancer) (poolId serverId : UInt32)
    (state : ServerState) : LoadBalancer × Int :=
  if poolId = 0 ∨ serverId = 0 then (balancer, -1)
  else
    match balancer.serverOf poolId serverId with
    | none => (balancer, -1)
    | some server =>
      ({ balancer with
        pools := balancer.onServer poolId serverId ({ · with state := state })
        healthyServers :=
          if server.state = .healthy ∧ state ≠ .healthy then balancer.healthyServers - 1
          else if server.state ≠ .healthy ∧ state = .healthy then balancer.healthyServers + 1
          else balancer.healthyServers }, 0)

/-- `load_balancer_update_server_metrics`. -/
def loadBalancerUpdateServerMetrics (balancer : LoadBalancer) (poolId serverId : UInt32)
    (cpu memory : Float32) : LoadBalancer × Int :=
  if poolId = 0 ∨ serverId = 0 then (balancer, -1)
  else
    match balancer.serverOf poolId serverId with
    | none => (balancer, -1)
    | some _ =>
      ({ balancer with
        pools := balancer.onServer poolId serverId
          ({ · with cpuUsage := cpu, memoryUsage := memory }) }, 0)

/-- The servers that `load_balancer_detect_unhealthy_servers` degrades. -/
def BackendServer.overloaded (server : BackendServer) : Bool :=
  (server.cpuUsage > 90 ∨ server.memoryUsage > 85) ∧ server.state = .healthy

/-- `load_balancer_detect_unhealthy_servers`, returning the number of degraded servers. -/
def loadBalancerDetectUnhealthyServers (balancer : LoadBalancer) (poolId : UInt32) :
    LoadBalancer × ℕ :=
  if poolId = 0 then (balancer, 0)
  else
    ({ balancer with
      pools := balancer.pools.map fun pool ↦
        if pool.poolId = poolId then
          { pool with
            servers := pool.servers.map fun server ↦
              if server.overloaded then { server with state := .degraded } else server }
        else pool },
      (balancer.pools.map fun pool ↦
        if pool.poolId = poolId then pool.servers.countP BackendServer.overloaded else 0).sum)

/-- `load_balancer_drain_server`. -/
def loadBalancerDrainServer (balancer : LoadBalancer) (poolId serverId : UInt32) :
    LoadBalancer × Int :=
  if poolId = 0 ∨ serverId = 0 then (balancer, -1)
  else
    match balancer.serverOf poolId serverId with
    | none => (balancer, -1)
    | some _ =>
      ({ balancer with
        pools := balancer.onServer poolId serverId ({ · with state := .draining }) }, 0)

/-! ### Selecting a server -/

/-- The loop of `LB_ALGORITHM_LEAST_CONN` over the servers from a place on, with the fewest
connections of a healthy server so far and its place. -/
def leastConnFrom : ℕ → UInt32 → Option ℕ → List BackendServer → Option ℕ
  | _, _, selected, [] => selected
  | place, minConn, selected, server :: servers =>
    if server.state = .healthy ∧ server.activeConnections < minConn then
      leastConnFrom (place + 1) server.activeConnections (some place) servers
    else leastConnFrom (place + 1) minConn selected servers

/-- The loop of `LB_ALGORITHM_WEIGHTED` over the servers: the weights of the healthy ones, as they
add up in 32 bits. -/
def totalWeight (servers : List BackendServer) : UInt32 :=
  servers.foldl
    (fun total server ↦ if server.state = .healthy then total + server.weight else total) 0

/-- The place that the algorithm of a pool selects, if any, and the cursor after it. -/
def LoadBalancerPool.selected (pool : LoadBalancerPool) : Option ℕ × UInt32 :=
  match pool.algorithm with
  | .roundRobin =>
    (some (pool.currentServerIndex.toNat % pool.servers.length), pool.currentServerIndex + 1)
  | .leastConn => (leastConnFrom 0 (UInt32.ofNat (2 ^ 32 - 1)) none pool.servers,
      pool.currentServerIndex)
  | .weighted =>
    if 0 < totalWeight pool.servers then
      (some (pool.currentServerIndex % totalWeight pool.servers).toNat, pool.currentServerIndex + 1)
    else (none, pool.currentServerIndex)
  | .random =>
    (some (pool.currentServerIndex.toNat % pool.servers.length), pool.currentServerIndex + 1)
  | _ => (some 0, pool.currentServerIndex)

/-- The server after a request is sent to it. -/
def BackendServer.take (server : BackendServer) : BackendServer :=
  { server with
    activeConnections := server.activeConnections + 1
    totalRequests := server.totalRequests + 1 }

/-- What selecting a server does to a pool, with the place of the server, or none for -1. -/
def LoadBalancerPool.select (pool : LoadBalancerPool) : LoadBalancerPool × Option ℕ :=
  if pool.servers = [] then (pool, none)
  else
    let (selected, cursor) := pool.selected
    let moved := { pool with currentServerIndex := cursor }
    match selected with
    | none => (moved, none)
    | some place =>
      if place < pool.servers.length then
        ({ moved with servers := pool.servers.modify place BackendServer.take }, some place)
      else (moved, none)

/-- `load_balancer_select_server`, returning the place of the server, or none for -1. -/
def loadBalancerSelectServer (balancer : LoadBalancer) (poolId : UInt32) :
    LoadBalancer × Option ℕ :=
  if poolId = 0 then (balancer, none)
  else
    match balancer.pools.find? fun pool ↦ pool.poolId = poolId with
    | none => (balancer, none)
    | some pool =>
      ({ balancer with
        pools := updateFirst (fun pool ↦ pool.poolId = poolId) (fun pool ↦ pool.select.1)
          balancer.pools }, pool.select.2)

end OneOS.LoadBalancing
