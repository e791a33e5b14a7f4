import Mathlib.Algebra.Order.BigOperators.Group.List
import Mathlib.Algebra.Order.Ring.Nat
import OneOS.Foundation.Counters
import OneOS.Foundation.Runs
import OneOS.LoadBalancing.LoadBalancer

/-!
# The counts of servers and of healthy servers

`total_servers` is to be the number of servers in all pools and `healthy_servers` the number of the
healthy ones among them (`CountsRight`). Adding a server and setting its state keep both. Four calls
lose them: a pool is destroyed with its servers still counted, the state that is looked at when a
server is removed is that of the server behind it, and degrading or draining a healthy server lowers
no count. `countsRight_iff` says that nothing else does.
-/

set_option autoImplicit false
set_option relaxedAutoImplicit false

namespace OneOS.LoadBalancing

open Foundation

/-! ### Calls -/

/-- A call to the balancer. -/
inductive BalancerCall
  | poolCreate (algorithm : LoadBalancingAlgorithm)
  | poolDestroy (poolId : UInt32)
  | addServer (poolId weight : UInt32)
  | removeServer (poolId serverId : UInt32)
  | updateServerState (poolId serverId : UInt32) (state : ServerState)
  | updateServerMetrics (poolId serverId : UInt32) (cpu memory : Float32)
  | detectUnhealthyServers (poolId : UInt32)
  | drainServer (poolId serverId : UInt32)
  | selectServer (poolId : UInt32)

/-- What a call does to the balancer. -/
def balancerStep (balancer : LoadBalancer) : BalancerCall → LoadBalancer
  | .poolCreate algorithm => (loadBalancerPoolCreate balancer algorithm).1
  | .poolDestroy poolId => (loadBalancerPoolDestroy balancer poolId).1
  | .addServer poolId weight => (loadBalancerAddServer balancer poolId weight).1
  | .removeServer poolId serverId => (loadBalancerRemoveServer balancer poolId serverId).1
  | .updateServerState poolId serverId state =>
    (loadBalancerUpdateServerState balancer poolId serverId state).1
  | .updateServerMetrics poolId serverId cpu memory =>
    (loadBalancerUpdateServerMetrics balancer poolId serverId cpu memory).1
  | .detectUnhealthyServers poolId => (loadBalancerDetectUnhealthyServers balancer poolId).1
  | .drainServer poolId serverId => (loadBalancerDrainServer balancer poolId serverId).1
  | .selectServer poolId => (loadBalancerSelectServer balancer poolId).1

/-! ### The counts -/

/-- A server that is healthy. -/
def BackendServer.isHealthy (server : BackendServer) : Bool :=
  server.state = .healthy

/-- The number of healthy servers in a pool. -/
def LoadBalancerPool.healthy (pool : LoadBalancerPool) : ℕ :=
  pool.servers.countP BackendServer.isHealthy

/-- The number of servers in some pools. -/
def serverCount (pools : List LoadBalancerPool) : ℕ :=
  (pools.map fun pool ↦ pool.servers.length).sum

/-- The number of healthy servers in some pools. -/
def healthyCount (pools : List LoadBalancerPool) : ℕ :=
  (pools.map LoadBalancerPool.healthy).sum

/-- Both counts are right. -/
structure CountsRight (balancer : LoadBalancer) : Prop where
  total : balancer.totalServers.toNat = serverCount balancer.pools
  healthy : balancer.healthyServers.toNat = healthyCount balancer.pools

/-- The condition on a call: the destroyed pool has no servers, the server behind the removed one,
if any, is healthy exactly when the removed one is, no healthy server is found overloaded, and no
healthy server is drained. -/
def BalancerCall.KeepsCounts (balancer : LoadBalancer) : BalancerCall → Prop
  | .poolDestroy poolId => poolId ≠ 0 →
      ∀ pool ∈ balancer.pools.find? fun pool ↦ pool.poolId = poolId, pool.servers = []
  | .removeServer poolId serverId => poolId ≠ 0 → serverId ≠ 0 →
      ∀ pool ∈ balancer.pools.find? (LoadBalancerPool.holds poolId serverId),
        ∀ server ∈ pool.servers[pool.placeOf serverId]?,
          ∀ next ∈ pool.servers[pool.placeOf serverId + 1]?,
            next.state = .healthy ↔ server.state = .healthy
  | .detectUnhealthyServers poolId => poolId ≠ 0 →
      ∀ pool ∈ balancer.pools, pool.poolId = poolId →
        ∀ server ∈ pool.servers, server.overloaded = false
  | .drainServer poolId serverId => poolId ≠ 0 → serverId ≠ 0 →
      ∀ server ∈ balancer.serverOf poolId serverId, server.state ≠ .healthy
  | _ => True

/-- The tables hold no more than they have rows. -/
structure TablesFit (balancer : LoadBalancer) : Prop where
  pools : balancer.pools.length ≤ maxLoadBalancerPools
  servers : ∀ pool ∈ balancer.pools, pool.servers.length ≤ maxBackendServers

variable {balancer : LoadBalancer}

/-- All servers together are fewer than a counter can count. -/
theorem TablesFit.serverCount_lt (hfit : TablesFit balancer) :
    serverCount balancer.pools + 1 < 2 ^ 32 := by
  have hsum : serverCount balancer.pools ≤ balancer.pools.length * maxBackendServers := by
    have hle := List.sum_le_card_nsmul (balancer.pools.map fun pool ↦ pool.servers.length)
      maxBackendServers (List.forall_mem_map.mpr hfit.servers)
    rwa [List.length_map, nsmul_eq_mul] at hle
  have hpools := Nat.mul_le_mul_right maxBackendServers hfit.pools
  rw [maxLoadBalancerPools, maxBackendServers] at hpools
  rw [maxBackendServers] at hsum
  omega

/-- There are no more healthy servers than servers. -/
theorem healthyCount_le (pools : List LoadBalancerPool) : healthyCount pools ≤ serverCount pools :=
  List.sum_le_sum fun _ _ ↦ List.countP_le_length

/-! ### What is counted when a pool or a server changes -/

variable {pool : LoadBalancerPool} {server : BackendServer} {poolId serverId : UInt32}

/-- The counts after the first pool that satisfies a test is changed. -/
theorem counts_updatePool {pools : List LoadBalancerPool} {test : LoadBalancerPool → Bool}
    (hfind : pools.find? test = some pool) (change : LoadBalancerPool → LoadBalancerPool) :
    serverCount (updateFirst test change pools) + pool.servers.length =
        serverCount pools + (change pool).servers.length ∧
      healthyCount (updateFirst test change pools) + pool.healthy =
        healthyCount pools + (change pool).healthy :=
  ⟨sum_map_updateFirst_add hfind change, sum_map_updateFirst_add hfind change⟩

/-- A server that is found stands in a pool that is found. -/
theorem exists_pool_of_serverOf (hserver : balancer.serverOf poolId serverId = some server) :
    ∃ pool, balancer.pools.find? (LoadBalancerPool.holds poolId serverId) = some pool ∧
      pool.servers.find? (fun server ↦ server.serverId = serverId) = some server :=
  Option.bind_eq_some_iff.mp hserver

/-- A pool that has a server with an id has one that is found. -/
theorem exists_server_of_holds
    (hfind : balancer.pools.find? (LoadBalancerPool.holds poolId serverId) = some pool) :
    ∃ server, pool.servers.find? (fun server ↦ server.serverId = serverId) = some server := by
  have hholds := List.find?_some hfind
  have hany := (of_decide_eq_true hholds).2
  exact Option.isSome_iff_exists.mp (by rwa [List.find?_isSome, ← List.any_eq_true])

/-- The counts after a server is changed. -/
theorem counts_onServer (hserver : balancer.serverOf poolId serverId = some server)
    (change : BackendServer → BackendServer) :
    serverCount (balancer.onServer poolId serverId change) = serverCount balancer.pools ∧
      healthyCount (balancer.onServer poolId serverId change) +
          (if server.isHealthy then 1 else 0) =
        healthyCount balancer.pools + (if (change server).isHealthy then 1 else 0) := by
  obtain ⟨pool, hpool, hfind⟩ := exists_pool_of_serverOf hserver
  obtain ⟨htotal, hhealthy⟩ := counts_updatePool hpool fun pool ↦ { pool with
    servers := updateFirst (fun server ↦ server.serverId = serverId) change pool.servers }
  have hlength : (updateFirst (fun server ↦ server.serverId = serverId) change
      pool.servers).length = pool.servers.length := List.length_modify _ _ _
  have hcount := countP_updateFirst_add BackendServer.isHealthy hfind change
  rw [hlength] at htotal
  refine ⟨Nat.add_right_cancel htotal, ?_⟩
  rw [LoadBalancer.onServer]
  rw [LoadBalancerPool.healthy, LoadBalancerPool.healthy] at hhealthy
  dsimp only at hhealthy
  omega

/-- The counts after the servers that a pool had are gone with it. -/
theorem counts_eraseP (hfind : balancer.pools.find? (fun pool ↦ pool.poolId = poolId) = some pool) :
    serverCount (balancer.pools.eraseP fun pool ↦ pool.poolId = poolId) + pool.servers.length =
        serverCount balancer.pools ∧
      healthyCount (balancer.pools.eraseP fun pool ↦ pool.poolId = poolId) + pool.healthy =
        healthyCount balancer.pools :=
  ⟨sum_map_eraseP_add hfind, sum_map_eraseP_add hfind⟩

/-- The pools after the server with an id in the first pool with an id that has it is removed. -/
def LoadBalancer.withoutServer (balancer : LoadBalancer) (poolId serverId : UInt32) :
    List LoadBalancerPool :=
  updateFirst (LoadBalancerPool.holds poolId serverId)
    (fun pool ↦ { pool with
      servers := pool.servers.eraseP fun server ↦ server.serverId = serverId })
    balancer.pools

/-- The counts after a server is removed. -/
theorem counts_withoutServer
    (hpool : balancer.pools.find? (LoadBalancerPool.holds poolId serverId) = some pool)
    (hserver : pool.servers.find? (fun server ↦ server.serverId = serverId) = some server) :
    serverCount (balancer.withoutServer poolId serverId) + 1 = serverCount balancer.pools ∧
      healthyCount (balancer.withoutServer poolId serverId) +
        (if server.isHealthy then 1 else 0) = healthyCount balancer.pools := by
  obtain ⟨htotal, hhealthy⟩ := counts_updatePool hpool fun pool ↦ { pool with
    servers := pool.servers.eraseP fun server ↦ server.serverId = serverId }
  have hlength := (perm_cons_eraseP_of_find? hserver).length_eq
  have hcount := countP_eraseP_add BackendServer.isHealthy hserver
  rw [List.length_cons] at hlength
  rw [LoadBalancerPool.healthy, LoadBalancerPool.healthy] at hhealthy
  dsimp only at htotal hhealthy
  rw [LoadBalancer.withoutServer]
  exact ⟨by omega, by omega⟩

/-! ### What the calls do to the counts -/

theorem countsRight_poolCreate (hright : CountsRight balancer)
    (algorithm : LoadBalancingAlgorithm) :
    CountsRight (loadBalancerPoolCreate balancer algorithm).1 := by
  rw [loadBalancerPoolCreate]
  split_ifs
  · exact hright
  · refine ⟨hright.total.trans ?_, hright.healthy.trans ?_⟩
    · dsimp only
      rw [serverCount, serverCount, List.map_append, List.sum_append]
      rfl
    · dsimp only
      rw [healthyCount, healthyCount, List.map_append, List.sum_append]
      rfl

theorem countsRight_poolDestroy_iff (hright : CountsRight balancer) :
    CountsRight (loadBalancerPoolDestroy balancer poolId).1 ↔
      (BalancerCall.poolDestroy poolId).KeepsCounts balancer := by
  rw [loadBalancerPoolDestroy, BalancerCall.KeepsCounts]
  by_cases hzero : poolId = 0
  · rw [if_pos hzero]
    exact iff_of_true hright fun hnonzero ↦ absurd hzero hnonzero
  rw [if_neg hzero]
  cases hfind : balancer.pools.find? fun pool ↦ pool.poolId = poolId with
  | none =>
    have hnone : ¬ (balancer.pools.any fun pool ↦ pool.poolId = poolId) = true := by
      simpa using hfind
    rw [if_neg hnone]
    exact iff_of_true hright fun _ pool hpool ↦ absurd hpool (Option.not_mem_none pool)
  | some pool =>
    have hsome : (balancer.pools.any fun pool ↦ pool.poolId = poolId) = true := by
      rw [List.any_eq_true]
      have htest := List.find?_some hfind
      exact ⟨pool, List.mem_of_find?_eq_some hfind, htest⟩
    obtain ⟨htotal, hhealthy⟩ := counts_eraseP hfind
    rw [if_pos hsome]
    constructor
    · rintro ⟨hafter, -⟩ - other hother
      rw [← Option.some.inj hother]
      have hsame := hright.total.symm.trans hafter
      dsimp only at hsame
      exact List.length_eq_zero_iff.mp (by omega)
    · intro hempty
      have hnone := hempty hzero pool rfl
      rw [LoadBalancerPool.healthy, hnone, List.countP_nil] at hhealthy
      rw [hnone, List.length_nil] at htotal
      exact ⟨hright.total.trans htotal.symm, hright.healthy.trans hhealthy.symm⟩

theorem countsRight_addServer (hfit : TablesFit balancer) (hright : CountsRight balancer)
    (weight : UInt32) : CountsRight (loadBalancerAddServer balancer poolId weight).1 := by
  rw [loadBalancerAddServer]
  split_ifs
  · exact hright
  cases hfind : balancer.pools.find? fun pool ↦ pool.poolId = poolId with
  | none => exact hright
  | some pool =>
    dsimp only
    split_ifs
    · exact hright
    · obtain ⟨htotal, hhealthy⟩ := counts_updatePool hfind fun pool ↦ { pool with
        servers := pool.servers ++ [newServer balancer.nextServerId weight] }
      have hless := hfit.serverCount_lt
      have hle := healthyCount_le balancer.pools
      have hmore : (balancer.totalServers + 1).toNat = balancer.totalServers.toNat + 1 :=
        toNat_succ (by rw [hright.total]; omega)
      have hmoreHealthy : (balancer.healthyServers + 1).toNat =
          balancer.healthyServers.toNat + 1 := toNat_succ (by rw [hright.healthy]; omega)
      have hone : (pool.servers ++ [newServer balancer.nextServerId weight]).countP
          BackendServer.isHealthy = pool.servers.countP BackendServer.isHealthy + 1 :=
        List.countP_append
      dsimp only at htotal
      rw [List.length_append, List.length_singleton] at htotal
      rw [LoadBalancerPool.healthy, LoadBalancerPool.healthy, hone] at hhealthy
      refine ⟨hmore.trans ?_, hmoreHealthy.trans ?_⟩
      · rw [hright.total]
        dsimp only
        omega
      · rw [hright.healthy]
        dsimp only
        omega

/-- Assumes: a count is that of the rest, and of one thing if something holds. Lowered if something
else holds, it is that of the rest exactly when the two are the same. -/
theorem lowered_iff {count : UInt32} {rest : ℕ} {lowers counted : Prop} [Decidable lowers]
    [Decidable counted] (hcount : count.toNat = rest + if counted then 1 else 0) :
    (if lowers then count - 1 else count).toNat = rest ↔ (lowers ↔ counted) := by
  by_cases hcounted : counted
  · rw [if_pos hcounted] at hcount
    by_cases hlowers : lowers
    · rw [if_pos hlowers]
      exact iff_of_true (toNat_sub_one_eq hcount) (iff_of_true hlowers hcounted)
    · rw [if_neg hlowers]
      exact iff_of_false (by omega) fun hiff ↦ hlowers (hiff.mpr hcounted)
  · rw [if_neg hcounted, Nat.add_zero] at hcount
    by_cases hlowers : lowers
    · rw [if_pos hlowers, ← hcount]
      exact iff_of_false (toNat_sub_one_ne count) fun hiff ↦ hcounted (hiff.mp hlowers)
    · rw [if_neg hlowers]
      exact iff_of_true hcount (iff_of_false hlowers hcounted)

/-- The place of the removed server and its state. -/
theorem getElem?_placeOf
    (hserver : pool.servers.find? (fun server ↦ server.serverId = serverId) = some server) :
    pool.servers[pool.placeOf serverId]? = some server := by
  rw [LoadBalancerPool.placeOf, ← List.find?_eq_getElem?_findIdx]
  exact hserver

/-- What is found in the place of the removed server is healthy exactly when it was, as long as the
server behind it is as healthy as it was. -/
theorem stateInPlace_healthy_iff
    (hserver : pool.servers.find? (fun server ↦ server.serverId = serverId) = some server) :
    (stateInPlace pool.servers (pool.placeOf serverId) = some .healthy ↔ server.isHealthy = true) ↔
      ∀ next ∈ pool.servers[pool.placeOf serverId + 1]?,
        next.state = .healthy ↔ server.state = .healthy := by
  have hplace := getElem?_placeOf hserver
  rw [stateInPlace, BackendServer.isHealthy, decide_eq_true_iff]
  cases hnext : pool.servers[pool.placeOf serverId + 1]? with
  | none =>
    dsimp only
    rw [hplace, Option.map_some, Option.some.injEq]
    exact iff_of_true Iff.rfl fun next hmem ↦ absurd hmem (Option.not_mem_none next)
  | some next =>
    dsimp only
    rw [Option.some.injEq]
    refine ⟨fun hiff other hother ↦ ?_, fun hall ↦ hall next rfl⟩
    rw [← Option.some.inj hother]
    exact hiff

theorem countsRight_removeServer_iff (hright : CountsRight balancer) :
    CountsRight (loadBalancerRemoveServer balancer poolId serverId).1 ↔
      (BalancerCall.removeServer poolId serverId).KeepsCounts balancer := by
  rw [loadBalancerRemoveServer, BalancerCall.KeepsCounts]
  by_cases hrefused : poolId = 0 ∨ serverId = 0
  · rw [if_pos hrefused]
    refine iff_of_true hright fun hpoolId hserverId ↦ ?_
    exact absurd hrefused (not_or.mpr ⟨hpoolId, hserverId⟩)
  rw [if_neg hrefused]
  cases hpool : balancer.pools.find? (LoadBalancerPool.holds poolId serverId) with
  | none =>
    exact iff_of_true hright fun _ _ pool hmem ↦ absurd hmem (Option.not_mem_none pool)
  | some pool =>
    obtain ⟨server, hserver⟩ := exists_server_of_holds hpool
    obtain ⟨htotal, hhealthy⟩ := counts_withoutServer hpool hserver
    have hplace := getElem?_placeOf hserver
    have hless : (balancer.totalServers - 1).toNat =
        serverCount (balancer.withoutServer poolId serverId) :=
      toNat_sub_one_eq (hright.total.trans htotal.symm)
    rw [not_or] at hrefused
    have hcondition : (poolId ≠ 0 → serverId ≠ 0 → ∀ other ∈ some pool,
        ∀ removed ∈ other.servers[other.placeOf serverId]?,
          ∀ next ∈ other.servers[other.placeOf serverId + 1]?,
            next.state = .healthy ↔ removed.state = .healthy) ↔
        ∀ next ∈ pool.servers[pool.placeOf serverId + 1]?,
          next.state = .healthy ↔ server.state = .healthy := by
      constructor
      · intro hall
        exact hall hrefused.1 hrefused.2 pool rfl server hplace
      · intro hall _ _ other hother removed hremoved
        obtain rfl := Option.some.inj hother
        obtain rfl := Option.some.inj (hplace.symm.trans hremoved)
        exact hall
    rw [hcondition, ← stateInPlace_healthy_iff hserver]
    refine Iff.trans ⟨fun hafter ↦ hafter.healthy, fun hafter ↦ ⟨hless, hafter⟩⟩ ?_
    exact lowered_iff (hright.healthy.trans hhealthy.symm)

theorem countsRight_updateServerState (hfit : TablesFit balancer) (hright : CountsRight balancer)
    (state : ServerState) :
    CountsRight (loadBalancerUpdateServerState balancer poolId serverId state).1 := by
  rw [loadBalancerUpdateServerState]
  split_ifs
  · exact hright
  cases hserver : balancer.serverOf poolId serverId with
  | none => exact hright
  | some server =>
    obtain ⟨htotal, hhealthy⟩ := counts_onServer hserver ({ · with state := state })
    have hless := hfit.serverCount_lt
    have hle := healthyCount_le balancer.pools
    rw [← hright.healthy, BackendServer.isHealthy, BackendServer.isHealthy] at hhealthy
    refine ⟨hright.total.trans htotal.symm, ?_⟩
    dsimp only at hhealthy ⊢
    by_cases hbefore : server.state = .healthy
    · rw [if_pos (decide_eq_true hbefore)] at hhealthy
      by_cases hafter : state = .healthy
      · rw [if_pos (decide_eq_true hafter)] at hhealthy
        rw [if_neg fun hboth ↦ hboth.2 hafter, if_neg fun hboth ↦ hboth.1 hbefore]
        omega
      · rw [if_neg (by simpa using hafter)] at hhealthy
        rw [if_pos ⟨hbefore, hafter⟩]
        exact toNat_sub_one_eq hhealthy.symm
    · rw [if_neg (by simpa using hbefore)] at hhealthy
      by_cases hafter : state = .healthy
      · rw [if_pos (decide_eq_true hafter)] at hhealthy
        rw [if_neg fun hboth ↦ hbefore hboth.1, if_pos ⟨hbefore, hafter⟩]
        exact (toNat_succ (by rw [hright.healthy]; omega)).trans hhealthy.symm
      · rw [if_neg (by simpa using hafter)] at hhealthy
        rw [if_neg fun hboth ↦ hbefore hboth.1, if_neg fun hboth ↦ hafter hboth.2]
        exact hhealthy.symm

theorem countsRight_updateServerMetrics (hright : CountsRight balancer) (cpu memory : Float32) :
    CountsRight (loadBalancerUpdateServerMetrics balancer poolId serverId cpu memory).1 := by
  rw [loadBalancerUpdateServerMetrics]
  split_ifs
  · exact hright
  cases hserver : balancer.serverOf poolId serverId with
  | none => exact hright
  | some server =>
    obtain ⟨htotal, hhealthy⟩ := counts_onServer hserver
      ({ · with cpuUsage := cpu, memoryUsage := memory })
    refine ⟨hright.total.trans htotal.symm, hright.healthy.trans ?_⟩
    exact (Nat.add_right_cancel hhealthy).symm

theorem countsRight_drainServer_iff (hright : CountsRight balancer) :
    CountsRight (loadBalancerDrainServer balancer poolId serverId).1 ↔
      (BalancerCall.drainServer poolId serverId).KeepsCounts balancer := by
  rw [loadBalancerDrainServer, BalancerCall.KeepsCounts]
  by_cases hrefused : poolId = 0 ∨ serverId = 0
  · rw [if_pos hrefused]
    refine iff_of_true hright fun hpoolId hserverId ↦ ?_
    exact absurd hrefused (not_or.mpr ⟨hpoolId, hserverId⟩)
  rw [if_neg hrefused]
  rw [not_or] at hrefused
  cases hserver : balancer.serverOf poolId serverId with
  | none => exact iff_of_true hright fun _ _ server hmem ↦ absurd hmem (Option.not_mem_none server)
  | some server =>
    obtain ⟨htotal, hhealthy⟩ := counts_onServer hserver ({ · with state := .draining })
    rw [← hright.healthy, BackendServer.isHealthy, BackendServer.isHealthy] at hhealthy
    dsimp only at hhealthy
    rw [if_neg (show ¬ decide (ServerState.draining = ServerState.healthy) = true by decide)]
      at hhealthy
    constructor
    · intro hafter _ _ other hother hstate
      have hsame := hafter.healthy
      obtain rfl := Option.some.inj hother
      rw [if_pos (decide_eq_true hstate)] at hhealthy
      dsimp only at hsame
      omega
    · intro hdrained
      have hstate := hdrained hrefused.1 hrefused.2 server rfl
      rw [if_neg (by simpa using hstate)] at hhealthy
      exact ⟨hright.total.trans htotal.symm, hhealthy.symm⟩

/-- A pool after its overloaded servers are degraded. -/
def LoadBalancerPool.degraded (poolId : UInt32) (pool : LoadBalancerPool) : LoadBalancerPool :=
  if pool.poolId = poolId then
    { pool with
      servers := pool.servers.map fun server ↦
        if server.overloaded then { server with state := .degraded } else server }
  else pool

/-- The number of overloaded servers of a pool with an id. -/
def LoadBalancerPool.overloadedCount (poolId : UInt32) (pool : LoadBalancerPool) : ℕ :=
  if pool.poolId = poolId then pool.servers.countP BackendServer.overloaded else 0

theorem LoadBalancerPool.length_degraded (poolId : UInt32) (pool : LoadBalancerPool) :
    (pool.degraded poolId).servers.length = pool.servers.length := by
  rw [LoadBalancerPool.degraded]
  split_ifs
  · exact List.length_map _
  · rfl

/-- The servers that are degraded are no longer healthy. -/
theorem LoadBalancerPool.healthy_degraded (poolId : UInt32) (pool : LoadBalancerPool) :
    (pool.degraded poolId).healthy + pool.overloadedCount poolId = pool.healthy := by
  rw [LoadBalancerPool.degraded, LoadBalancerPool.overloadedCount]
  split_ifs
  · rw [LoadBalancerPool.healthy, LoadBalancerPool.healthy]
    dsimp only
    induction pool.servers with
    | nil => rfl
    | cons server servers ih =>
      rw [List.map_cons, List.countP_cons, List.countP_cons, List.countP_cons]
      by_cases hover : server.overloaded = true
      · have hhealthy : server.isHealthy = true := decide_eq_true (of_decide_eq_true hover).2
        have hdegraded : BackendServer.isHealthy { server with state := .degraded } = false := rfl
        rw [if_pos hover, hdegraded, hhealthy, if_neg Bool.false_ne_true, if_pos rfl, if_pos hover]
        omega
      · rw [if_neg hover, if_neg hover]
        omega
  · rfl

theorem countsRight_detectUnhealthyServers_iff (hright : CountsRight balancer) :
    CountsRight (loadBalancerDetectUnhealthyServers balancer poolId).1 ↔
      (BalancerCall.detectUnhealthyServers poolId).KeepsCounts balancer := by
  rw [loadBalancerDetectUnhealthyServers, BalancerCall.KeepsCounts]
  by_cases hzero : poolId = 0
  · rw [if_pos hzero]
    exact iff_of_true hright fun hnonzero ↦ absurd hzero hnonzero
  rw [if_neg hzero]
  have htotal : serverCount (balancer.pools.map (LoadBalancerPool.degraded poolId)) =
      serverCount balancer.pools := by
    rw [serverCount, serverCount, List.map_map]
    exact congrArg List.sum (List.map_congr_left fun pool _ ↦ pool.length_degraded poolId)
  have hhealthy : healthyCount (balancer.pools.map (LoadBalancerPool.degraded poolId)) +
      (balancer.pools.map (LoadBalancerPool.overloadedCount poolId)).sum =
        healthyCount balancer.pools := by
    rw [healthyCount, healthyCount, List.map_map, ← List.sum_map_add]
    exact congrArg List.sum (List.map_congr_left fun pool _ ↦ pool.healthy_degraded poolId)
  have hnone : (balancer.pools.map (LoadBalancerPool.overloadedCount poolId)).sum = 0 ↔
      ∀ pool ∈ balancer.pools, pool.poolId = poolId →
        ∀ server ∈ pool.servers, server.overloaded = false := by
    rw [List.sum_eq_zero_iff, List.forall_mem_map]
    refine forall_congr' fun pool ↦ forall_congr' fun _ ↦ ?_
    rw [LoadBalancerPool.overloadedCount]
    split_ifs with hpool
    · rw [List.countP_eq_zero]
      simp [hpool]
    · exact iff_of_true rfl fun hsame ↦ absurd hsame hpool
  refine Iff.trans ?_ (hnone.trans ⟨fun hall _ ↦ hall, fun hall ↦ hall hzero⟩)
  rw [← hright.healthy] at hhealthy
  constructor
  · intro hafter
    have hsame : balancer.healthyServers.toNat =
        healthyCount (balancer.pools.map (LoadBalancerPool.degraded poolId)) := hafter.healthy
    omega
  · intro hzeroSum
    rw [hzeroSum, Nat.add_zero] at hhealthy
    exact ⟨hright.total.trans htotal.symm, hhealthy.symm⟩

/-- Selecting a server sends a request to it and changes no state. -/
theorem LoadBalancerPool.select_states (pool : LoadBalancerPool) :
    pool.select.1.servers.map BackendServer.state = pool.servers.map BackendServer.state := by
  rw [LoadBalancerPool.select]
  split_ifs
  · rfl
  cases hselected : pool.selected.1 with
  | none =>
    rw [show pool.selected = (none, pool.selected.2) from Prod.ext hselected rfl]
  | some place =>
    rw [show pool.selected = (some place, pool.selected.2) from Prod.ext hselected rfl]
    dsimp only
    split_ifs
    · have hkeep : ∀ server : BackendServer, server.take.state = server.state := fun _ ↦ rfl
      exact map_modify_of_keep hkeep place
    · rfl

theorem countsRight_selectServer (hright : CountsRight balancer) :
    CountsRight (loadBalancerSelectServer balancer poolId).1 := by
  rw [loadBalancerSelectServer]
  split_ifs
  · exact hright
  cases hfind : balancer.pools.find? fun pool ↦ pool.poolId = poolId with
  | none => exact hright
  | some pool =>
    obtain ⟨htotal, hhealthy⟩ := counts_updatePool hfind fun pool ↦ pool.select.1
    have hlength := congrArg List.length pool.select_states
    rw [List.length_map, List.length_map] at hlength
    have hcount : pool.select.1.healthy = pool.healthy := by
      have hstates := congrArg (List.countP fun state ↦ decide (state = ServerState.healthy))
        pool.select_states
      rw [List.countP_map, List.countP_map] at hstates
      exact hstates
    rw [hlength] at htotal
    rw [hcount] at hhealthy
    exact ⟨hright.total.trans (Nat.add_right_cancel htotal).symm,
      hright.healthy.trans (Nat.add_right_cancel hhealthy).symm⟩

/-! ### The tables -/

/-- Pools that have as many servers as others fit as well. -/
theorem TablesFit.congr {after : LoadBalancer} (hfit : TablesFit balancer)
    (hlengths : after.pools.map (fun pool ↦ pool.servers.length) =
      balancer.pools.map fun pool ↦ pool.servers.length) : TablesFit after := by
  have hlength := congrArg List.length hlengths
  rw [List.length_map, List.length_map] at hlength
  refine ⟨hlength ▸ hfit.pools, ?_⟩
  have hservers : ∀ length ∈ balancer.pools.map (fun pool ↦ pool.servers.length),
      length ≤ maxBackendServers := List.forall_mem_map.mpr hfit.servers
  rw [← hlengths] at hservers
  exact List.forall_mem_map.mp hservers

/-- A change of one server keeps the numbers of servers. -/
theorem lengths_onServer (poolId serverId : UInt32) (change : BackendServer → BackendServer) :
    (balancer.onServer poolId serverId change).map (fun pool ↦ pool.servers.length) =
      balancer.pools.map fun pool ↦ pool.servers.length :=
  map_updateFirst fun _ _ ↦ List.length_modify _ _ _

/-- A change of one pool that leaves it no more than the table holds. -/
theorem TablesFit.updatePool {after : LoadBalancer} {test : LoadBalancerPool → Bool}
    {change : LoadBalancerPool → LoadBalancerPool} (hfit : TablesFit balancer)
    (hpools : after.pools = updateFirst test change balancer.pools)
    (hchange : ∀ pool, balancer.pools.find? test = some pool →
      (change pool).servers.length ≤ maxBackendServers) : TablesFit after := by
  refine ⟨?_, ?_⟩
  · rw [hpools, updateFirst, List.length_modify]
    exact hfit.pools
  · rw [hpools]
    exact (forall_mem_updateFirst_iff hfit.servers).mpr hchange

theorem tablesFit_step (hfit : TablesFit balancer) (call : BalancerCall) :
    TablesFit (balancerStep balancer call) := by
  cases call with
  | poolCreate algorithm =>
    rw [balancerStep, loadBalancerPoolCreate]
    split_ifs with hfull
    · exact hfit
    · refine ⟨?_, List.forall_mem_append.mpr ⟨hfit.servers, List.forall_mem_singleton.mpr ?_⟩⟩
      · rw [List.length_append]
        exact Nat.lt_of_not_le hfull
      · exact Nat.zero_le _
  | poolDestroy poolId =>
    rw [balancerStep, loadBalancerPoolDestroy]
    split_ifs
    · exact hfit
    · exact ⟨Nat.le_trans (List.length_eraseP_le) hfit.pools,
        fun pool hpool ↦ hfit.servers pool (List.mem_of_mem_eraseP hpool)⟩
    · exact hfit
  | addServer poolId weight =>
    rw [balancerStep, loadBalancerAddServer]
    split_ifs
    · exact hfit
    cases hfind : balancer.pools.find? fun pool ↦ pool.poolId = poolId with
    | none => exact hfit
    | some pool =>
      dsimp only
      split_ifs with hfull
      · exact hfit
      · refine hfit.updatePool rfl fun other hother ↦ ?_
        obtain rfl := Option.some.inj (hfind.symm.trans hother)
        rw [List.length_append]
        exact Nat.lt_of_not_le hfull
  | removeServer poolId serverId =>
    rw [balancerStep, loadBalancerRemoveServer]
    split_ifs
    · exact hfit
    cases balancer.pools.find? (LoadBalancerPool.holds poolId serverId) with
    | none => exact hfit
    | some pool =>
      refine hfit.updatePool rfl fun other hother ↦ ?_
      exact Nat.le_trans List.length_eraseP_le
        (hfit.servers other (List.mem_of_find?_eq_some hother))
  | updateServerState poolId serverId state =>
    rw [balancerStep, loadBalancerUpdateServerState]
    split_ifs
    · exact hfit
    cases balancer.serverOf poolId serverId with
    | none => exact hfit
    | some server => exact hfit.congr (lengths_onServer _ _ _)
  | updateServerMetrics poolId serverId cpu memory =>
    rw [balancerStep, loadBalancerUpdateServerMetrics]
    split_ifs
    · exact hfit
    cases balancer.serverOf poolId serverId with
    | none => exact hfit
    | some server => exact hfit.congr (lengths_onServer _ _ _)
  | detectUnhealthyServers poolId =>
    rw [balancerStep, loadBalancerDetectUnhealthyServers]
    split_ifs
    · exact hfit
    · refine hfit.congr ?_
      rw [List.map_map]
      exact List.map_congr_left fun pool _ ↦ pool.length_degraded poolId
  | drainServer poolId serverId =>
    rw [balancerStep, loadBalancerDrainServer]
    split_ifs
    · exact hfit
    cases balancer.serverOf poolId serverId with
    | none => exact hfit
    | some server => exact hfit.congr (lengths_onServer _ _ _)
  | selectServer poolId =>
    rw [balancerStep, loadBalancerSelectServer]
    split_ifs
    · exact hfit
    cases balancer.pools.find? fun pool ↦ pool.poolId = poolId with
    | none => exact hfit
    | some pool =>
      refine hfit.updatePool rfl fun other hother ↦ ?_
      have hlength := congrArg List.length other.select_states
      rw [List.length_map, List.length_map] at hlength
      rw [hlength]
      exact hfit.servers other (List.mem_of_find?_eq_some hother)

/-! ### Every run -/

/-- One call keeps the counts right exactly under the condition. -/
theorem countsRight_step_iff (hfit : TablesFit balancer) (hright : CountsRight balancer)
    (call : BalancerCall) :
    CountsRight (balancerStep balancer call) ↔ call.KeepsCounts balancer := by
  cases call with
  | poolCreate algorithm => exact iff_of_true (countsRight_poolCreate hright algorithm) trivial
  | poolDestroy poolId => exact countsRight_poolDestroy_iff hright
  | addServer poolId weight => exact iff_of_true (countsRight_addServer hfit hright weight) trivial
  | removeServer poolId serverId => exact countsRight_removeServer_iff hright
  | updateServerState poolId serverId state =>
    exact iff_of_true (countsRight_updateServerState hfit hright state) trivial
  | updateServerMetrics poolId serverId cpu memory =>
    exact iff_of_true (countsRight_updateServerMetrics hright cpu memory) trivial
  | detectUnhealthyServers poolId => exact countsRight_detectUnhealthyServers_iff hright
  | drainServer poolId serverId => exact countsRight_drainServer_iff hright
  | selectServer poolId => exact iff_of_true (countsRight_selectServer hright) trivial

/-- Over every run both counts are right exactly when every call meets the condition. -/
theorem countsRight_iff (nextPoolId nextServerId : UInt32) (calls : List BalancerCall) :
    AlongRun balancerStep CountsRight (loadBalancerInit nextPoolId nextServerId) calls ↔
      EveryStep balancerStep BalancerCall.KeepsCounts (loadBalancerInit nextPoolId nextServerId)
        calls := by
  refine alongRun_iff_everyStep TablesFit (fun _ _ ↦ True)
    (fun balancer call hfit _ ↦ tablesFit_step hfit call)
    (fun balancer call hfit _ hright ↦ countsRight_step_iff hfit hright call) ?_ ⟨rfl, rfl⟩
    fun _ _ _ ↦ trivial
  exact ⟨Nat.zero_le _, List.forall_mem_nil _⟩

/-- A healthy server is drained. -/
theorem not_countsRight_drained :
    ¬ AlongRun balancerStep CountsRight (loadBalancerInit 1 1)
      [.poolCreate .roundRobin, .addServer 1 1, .drainServer 1 1] := by
  intro halong
  have hhealthy := (halong _ (List.prefix_refl _)).healthy
  exact absurd hhealthy (by decide)

end OneOS.LoadBalancing
