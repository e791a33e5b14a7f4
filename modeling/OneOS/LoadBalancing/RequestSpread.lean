import OneOS.Foundation.Rotation
import OneOS.LoadBalancing.Selection

/-!
# How requests are spread

`load_balancer_route_request` sends a request to a server of a pool. Requests to all pools come in
some order, and the answers to those of one pool are looked at (`answersOf`).

Where a cursor moves, the answers go around the places below the number that the cursor is divided
by. With `LB_ALGORITHM_ROUND_ROBIN` and `LB_ALGORITHM_RANDOM` that is the number of servers, so
every server takes its even share, whatever its state is. With `LB_ALGORITHM_WEIGHTED` it is the sum
of the weights of the healthy servers: every server still takes the same share, whatever its weight
is, and the requests for the places behind the last server are refused (`requests_spread`).

With `LB_ALGORITHM_LEAST_CONN` the connections of the healthy servers are evened out: who took a
request has at most one connection more than any other (`requests_levelled`).
-/

set_option autoImplicit false
set_option relaxedAutoImplicit false

namespace OneOS.LoadBalancing

open Foundation

/-! ### Requests -/

/-- `load_balancer_route_request`, returning the place of the server, or none for -1. -/
def loadBalancerRouteRequest (balancer : LoadBalancer) (poolId : UInt32) :
    LoadBalancer × Option ℕ :=
  if poolId = 0 then (balancer, none)
  else
    match balancer.pools.find? fun pool ↦ pool.poolId = poolId with
    | none => (balancer, none)
    | some _ => loadBalancerSelectServer balancer poolId

/-- Requests to pools, one after the other, with the answers. -/
def routeRequests (balancer : LoadBalancer) : List UInt32 → LoadBalancer × List (UInt32 × Option ℕ)
  | [] => (balancer, [])
  | poolId :: requests =>
    let rest := routeRequests (loadBalancerRouteRequest balancer poolId).1 requests
    (rest.1, (poolId, (loadBalancerRouteRequest balancer poolId).2) :: rest.2)

/-- The answers to the requests to a pool. -/
def answersOf (poolId : UInt32) (answers : List (UInt32 × Option ℕ)) : List (Option ℕ) :=
  (answers.filter fun answer ↦ answer.1 = poolId).map Prod.snd

/-- Requests to one pool, on the pool. -/
def LoadBalancerPool.selectMany (pool : LoadBalancerPool) : ℕ → LoadBalancerPool × List (Option ℕ)
  | 0 => (pool, [])
  | count + 1 =>
    let rest := pool.select.1.selectMany count
    (rest.1, pool.select.2 :: rest.2)

variable {balancer : LoadBalancer} {pool : LoadBalancerPool} {poolId : UInt32}

theorem LoadBalancerPool.select_poolId (pool : LoadBalancerPool) :
    pool.select.1.poolId = pool.poolId := by
  rw [LoadBalancerPool.select]
  split_ifs
  · rfl
  obtain ⟨chosen, cursor⟩ := pool.selected
  cases chosen with
  | none => rfl
  | some place =>
    dsimp only
    split_ifs <;> rfl

/-- A request with the id of a pool selects a server of the pool that the id finds. -/
theorem pools_routeRequest (balancer : LoadBalancer) {other : UInt32} (hother : other ≠ 0) :
    (loadBalancerRouteRequest balancer other).1.pools =
      updateFirst (fun pool ↦ pool.poolId = other) (fun pool ↦ pool.select.1) balancer.pools := by
  rw [loadBalancerRouteRequest, if_neg hother]
  cases hfind : balancer.pools.find? fun pool ↦ pool.poolId = other with
  | none => exact (updateFirst_of_find?_eq_none hfind).symm
  | some found => simp only [loadBalancerSelectServer, if_neg hother, hfind]

/-- A request to a pool changes that pool only. -/
theorem routeRequest_pool (balancer : LoadBalancer) (other : UInt32) (hid : poolId ≠ 0) :
    (loadBalancerRouteRequest balancer other).1.pools.find? (fun pool ↦ pool.poolId = poolId) =
      if poolId = other then
        (balancer.pools.find? fun pool ↦ pool.poolId = poolId).map fun pool ↦ pool.select.1
      else balancer.pools.find? fun pool ↦ pool.poolId = poolId := by
  by_cases hother : other = 0
  · rw [loadBalancerRouteRequest, if_pos hother, if_neg fun hsame ↦ hid (hsame.trans hother)]
  · rw [pools_routeRequest balancer hother,
      find?_key_updateFirst fun pool ↦ LoadBalancerPool.select_poolId pool]

/-- What a request to a pool that is found is answered. -/
theorem routeRequest_snd (hid : poolId ≠ 0)
    (hpool : balancer.pools.find? (fun pool ↦ pool.poolId = poolId) = some pool) :
    (loadBalancerRouteRequest balancer poolId).2 = pool.select.2 := by
  simp only [loadBalancerRouteRequest, loadBalancerSelectServer, if_neg hid, hpool]

/-- However the requests to the pools alternate, a pool sees its own. -/
theorem routeRequests_pool (hid : poolId ≠ 0) (requests : List UInt32)
    (hpool : balancer.pools.find? (fun pool ↦ pool.poolId = poolId) = some pool) :
    (routeRequests balancer requests).1.pools.find? (fun pool ↦ pool.poolId = poolId) =
        some (pool.selectMany (requests.count poolId)).1 ∧
      answersOf poolId (routeRequests balancer requests).2 =
        (pool.selectMany (requests.count poolId)).2 := by
  induction requests generalizing balancer pool with
  | nil => exact ⟨hpool, rfl⟩
  | cons other requests ih =>
    have hnext := routeRequest_pool balancer other hid
    by_cases hother : other = poolId
    · subst hother
      rw [if_pos rfl, hpool, Option.map_some] at hnext
      obtain ⟨hafter, hanswers⟩ := ih hnext
      rw [List.count_cons_self, LoadBalancerPool.selectMany, ← hanswers]
      refine ⟨hafter, ?_⟩
      simp [routeRequests, answersOf, routeRequest_snd hid hpool]
    · rw [if_neg (Ne.symm hother), hpool] at hnext
      obtain ⟨hafter, hanswers⟩ := ih hnext
      rw [List.count_cons_of_ne hother, ← hanswers]
      refine ⟨hafter, ?_⟩
      simp [routeRequests, answersOf, hother]

/-! ### Cursors -/

/-- The number that the cursor of a pool is divided by, where a cursor moves. -/
def LoadBalancerPool.modulus (pool : LoadBalancerPool) : Option ℕ :=
  match pool.algorithm with
  | .roundRobin | .random => some pool.servers.length
  | .weighted => some (totalWeight pool.servers).toNat
  | _ => none

/-- What is selected where a cursor moves. -/
theorem selected_of_modulus {modulus : ℕ} (hmodulus : pool.modulus = some modulus)
    (hpositive : 0 < modulus) :
    pool.selected =
      (some (pool.currentServerIndex.toNat % modulus), pool.currentServerIndex + 1) := by
  rw [LoadBalancerPool.selected]
  rw [LoadBalancerPool.modulus] at hmodulus
  cases halgorithm : pool.algorithm with
  | roundRobin =>
    rw [halgorithm] at hmodulus
    rw [← Option.some.inj hmodulus]
  | random =>
    rw [halgorithm] at hmodulus
    rw [← Option.some.inj hmodulus]
  | weighted =>
    rw [halgorithm] at hmodulus
    have hweight := Option.some.inj hmodulus
    subst hweight
    simp only [UInt32.lt_iff_toNat_lt, UInt32.toNat_zero, if_pos hpositive, UInt32.toNat_mod]
  | leastConn => rw [halgorithm] at hmodulus; exact absurd hmodulus.symm (Option.some_ne_none _)
  | ipHash => rw [halgorithm] at hmodulus; exact absurd hmodulus.symm (Option.some_ne_none _)
  | consistentHash =>
    rw [halgorithm] at hmodulus
    exact absurd hmodulus.symm (Option.some_ne_none _)

/-- A request leaves the states and the weights of the servers as they are. -/
theorem totalWeight_modify (servers : List BackendServer) (place : ℕ) :
    totalWeight (servers.modify place BackendServer.take) = totalWeight servers := by
  have hsame : (servers.modify place BackendServer.take).map
      (fun server ↦ (server.state, server.weight)) =
        servers.map fun server ↦ (server.state, server.weight) :=
    map_modify_of_keep
          (fun server ↦ show (server.take.state, server.take.weight) = _ from rfl) place
  have hfold : ∀ servers : List BackendServer, totalWeight servers =
      (servers.map fun server ↦ (server.state, server.weight)).foldl
        (fun total row ↦ if row.1 = .healthy then total + row.2 else total) 0 := by
    intro servers
    rw [totalWeight, List.foldl_map]
  rw [hfold, hsame, ← hfold]

/-- What a request does to a pool where a cursor moves. -/
theorem select_of_modulus {modulus : ℕ} (hmodulus : pool.modulus = some modulus)
    (hpositive : 0 < modulus) (hservers : pool.servers ≠ []) :
    pool.select.1.modulus = some modulus ∧
      pool.select.1.servers.length = pool.servers.length ∧
      pool.select.1.currentServerIndex = pool.currentServerIndex + 1 ∧
      pool.select.2 =
        if pool.currentServerIndex.toNat % modulus < pool.servers.length then
          some (pool.currentServerIndex.toNat % modulus)
        else none := by
  rw [LoadBalancerPool.select, if_neg hservers, selected_of_modulus hmodulus hpositive]
  dsimp only
  split_ifs with hplace
  · refine ⟨?_, List.length_modify _ _ _, rfl, rfl⟩
    rw [← hmodulus, LoadBalancerPool.modulus, LoadBalancerPool.modulus]
    dsimp only
    rw [totalWeight_modify, List.length_modify]
  · exact ⟨hmodulus, rfl, rfl, rfl⟩

/-- The answer for a place: the place of a server, or none behind the last one. -/
def answerAt (servers place : ℕ) : Option ℕ :=
  if place < servers then some place else none

/-- Where a cursor moves, the answers go around. Assumes: the cursor does not wrap around. -/
theorem selectMany_of_modulus {modulus : ℕ} (hpositive : 0 < modulus) (count : ℕ)
    (hmodulus : pool.modulus = some modulus) (hservers : pool.servers ≠ [])
    (hcursor : pool.currentServerIndex.toNat + count ≤ 2 ^ 32) :
    (pool.selectMany count).2 =
      (rotation modulus pool.currentServerIndex.toNat count).map
        (answerAt pool.servers.length) := by
  induction count generalizing pool with
  | zero => rfl
  | succ count ih =>
    obtain ⟨hnext, hlength, hmoved, hanswer⟩ := select_of_modulus hmodulus hpositive hservers
    have hleft : pool.select.1.servers ≠ [] := by
      rw [← List.length_pos_iff, hlength]
      exact List.length_pos_iff.mpr hservers
    rw [LoadBalancerPool.selectMany, rotation_succ, List.map_cons]
    refine congrArg₂ List.cons hanswer ?_
    rcases Nat.eq_zero_or_pos count with hzero | hmore
    · rw [hzero]
      rfl
    · have hcursorNext :
          pool.select.1.currentServerIndex.toNat = pool.currentServerIndex.toNat + 1 := by
        rw [hmoved, UInt32.toNat_add, UInt32.toNat_one, Nat.mod_eq_of_lt (by omega)]
      rw [ih hnext hleft (by omega), hcursorNext, hlength]

theorem count_map_answerAt {servers place : ℕ} (hplace : place < servers) (places : List ℕ) :
    (places.map (answerAt servers)).count (some place) = places.count place := by
  rw [List.count_eq_countP, List.countP_map, List.count_eq_countP]
  refine List.countP_congr fun other _ ↦ ?_
  simp only [Function.comp_apply, answerAt, beq_iff_eq]
  split_ifs with hother
  · simp
  · simp only [false_iff]
    omega

theorem count_none_map_answerAt (servers : ℕ) (places : List ℕ) :
    (places.map (answerAt servers)).count none = places.countP (servers ≤ ·) := by
  rw [List.count_eq_countP, List.countP_map]
  refine List.countP_congr fun other _ ↦ ?_
  simp only [Function.comp_apply, answerAt, beq_iff_eq, decide_eq_true_eq]
  split_ifs with hother
  · simpa using hother
  · simpa using hother

/-- Where a cursor moves, every server below the number it is divided by takes its even share of the
requests to the pool, but for one, and no other server takes any; and the places behind the last
server have their even shares of refused requests, but for one each. Assumes: the cursor does not
wrap around. -/
theorem requests_spread (balancer : LoadBalancer) (requests : List UInt32) (hid : poolId ≠ 0)
    (hpool : balancer.pools.find? (fun pool ↦ pool.poolId = poolId) = some pool)
    (hservers : pool.servers ≠ []) {modulus : ℕ} (hmodulus : pool.modulus = some modulus)
    (hpositive : 0 < modulus)
    (hcursor : pool.currentServerIndex.toNat + requests.count poolId ≤ 2 ^ 32) :
    let answers := answersOf poolId (routeRequests balancer requests).2
    let share := requests.count poolId / modulus
    (∀ place < pool.servers.length, if place < modulus
        then share ≤ answers.count (some place) ∧ answers.count (some place) ≤ share + 1
        else answers.count (some place) = 0) ∧
      (modulus - pool.servers.length) * share ≤ answers.count none ∧
      answers.count none ≤ (modulus - pool.servers.length) * (share + 1) := by
  intro answers share
  have hanswers : answers = (rotation modulus pool.currentServerIndex.toNat
      (requests.count poolId)).map (answerAt pool.servers.length) :=
    (routeRequests_pool hid requests hpool).2.trans
      (selectMany_of_modulus hpositive _ hmodulus hservers hcursor)
  rw [hanswers, count_none_map_answerAt]
  refine ⟨fun place hplace ↦ ?_, countP_rotation hpositive⟩
  rw [count_map_answerAt hplace]
  split_ifs with hvisited
  · exact count_rotation hvisited
  · exact List.count_eq_zero_of_not_mem fun hmem ↦ hvisited (lt_of_mem_rotation hpositive hmem)

/-- Two servers of the weights 1 and 3, and seven requests: the third and the fourth place of each
round are refused. -/
theorem requests_spread_example :
    let pool : LoadBalancerPool := ⟨1, [newServer 1 1, newServer 2 3], .weighted, 0⟩
    let answers := answersOf 1 (routeRequests ⟨[pool], 2, 2, 2, 3⟩ (List.replicate 7 1)).2
    (∀ place < pool.servers.length, if place < 4
        then 7 / 4 ≤ answers.count (some place) ∧ answers.count (some place) ≤ 7 / 4 + 1
        else answers.count (some place) = 0) ∧
      (4 - pool.servers.length) * (7 / 4) ≤ answers.count none ∧
      answers.count none ≤ (4 - pool.servers.length) * (7 / 4 + 1) := by
  intro pool
  have hpool : [pool].find? (fun pool ↦ pool.poolId = 1) = some pool := rfl
  have hmodulus : pool.modulus = some 4 := rfl
  exact requests_spread ⟨[pool], 2, 2, 2, 3⟩ (List.replicate 7 1) (by decide) hpool
    (List.cons_ne_nil _ _) hmodulus (by decide) (by decide)

/-! ### Connections -/

/-- The loop over connections keeps what was selected before and finds no healthy server with fewer
connections, or selects a healthy server that has the fewest. -/
theorem leastConnFrom_least (place : ℕ) (minConn : UInt32) (selected : Option ℕ)
    (servers : List BackendServer) :
    (leastConnFrom place minConn selected servers = selected ∧
        ∀ server ∈ servers, server.state = .healthy → minConn ≤ server.activeConnections) ∨
      ∃ offset server, leastConnFrom place minConn selected servers = some (place + offset) ∧
        servers[offset]? = some server ∧ server.activeConnections < minConn ∧
        ∀ other ∈ servers, other.state = .healthy →
          server.activeConnections ≤ other.activeConnections := by
  fun_induction leastConnFrom place minConn selected servers with
  | case1 place minConn selected => exact Or.inl ⟨rfl, List.forall_mem_nil _⟩
  | case2 place minConn selected head servers hfewer ih =>
    rcases ih with ⟨hsame, hall⟩ | ⟨offset, server, hfound, hserver, hless, hleast⟩
    · exact Or.inr ⟨0, head, hsame, rfl, hfewer.2,
        List.forall_mem_cons.mpr ⟨fun _ ↦ UInt32.le_refl _, hall⟩⟩
    · refine Or.inr ⟨offset + 1, server, hfound.trans (congrArg some (Nat.add_right_comm _ _ _)),
        hserver, UInt32.lt_trans hless hfewer.2, List.forall_mem_cons.mpr ⟨fun _ ↦ ?_, hleast⟩⟩
      exact UInt32.le_of_lt hless
  | case3 place minConn selected head servers hmore ih =>
    rcases ih with ⟨hsame, hall⟩ | ⟨offset, server, hfound, hserver, hless, hleast⟩
    · refine Or.inl ⟨hsame, List.forall_mem_cons.mpr ⟨fun hstate ↦ ?_, hall⟩⟩
      exact UInt32.not_lt.mp fun hfewer ↦ hmore ⟨hstate, hfewer⟩
    · refine Or.inr ⟨offset + 1, server, hfound.trans (congrArg some (Nat.add_right_comm _ _ _)),
        hserver, hless, List.forall_mem_cons.mpr ⟨fun hstate ↦ ?_, hleast⟩⟩
      have hhead := UInt32.not_lt.mp fun hfewer ↦ hmore ⟨hstate, hfewer⟩
      exact UInt32.le_of_lt (UInt32.lt_of_lt_of_le hless hhead)

/-- In some places there are servers with at most one connection more than any healthy server. -/
def LoadBalancerPool.Levelled (pool : LoadBalancerPool) (taken : Set ℕ) : Prop :=
  ∀ place ∈ taken, ∃ server, pool.servers[place]? = some server ∧
    ∀ other ∈ pool.servers, other.state = .healthy →
      server.activeConnections.toNat ≤ other.activeConnections.toNat + 1

/-- What a request does where connections are counted: nothing, or a server with the fewest
connections takes it. -/
theorem select_leastConn_cases (halgorithm : pool.algorithm = .leastConn) :
    pool.select = (pool, none) ∨
      ∃ place server, pool.servers[place]? = some server ∧
        server.activeConnections.toNat < 2 ^ 32 - 1 ∧
        (∀ other ∈ pool.servers, other.state = .healthy →
          server.activeConnections ≤ other.activeConnections) ∧
        pool.select = ({ pool with servers := pool.servers.modify place BackendServer.take },
          some place) := by
  have hselected : pool.selected = (leastConnFrom 0 (UInt32.ofNat (2 ^ 32 - 1)) none pool.servers,
      pool.currentServerIndex) := by
    rw [LoadBalancerPool.selected, halgorithm]
  rw [LoadBalancerPool.select, hselected]
  split_ifs with hservers
  · exact Or.inl rfl
  rcases leastConnFrom_least 0 (UInt32.ofNat (2 ^ 32 - 1)) none pool.servers with
    ⟨hnone, -⟩ | ⟨place, server, hfound, hserver, hless, hleast⟩
  · rw [hnone]
    exact Or.inl rfl
  · rw [hfound, Nat.zero_add]
    exact Or.inr ⟨place, server, hserver, UInt32.lt_iff_toNat_lt.mp hless, hleast,
      if_pos (List.getElem?_eq_some_iff.mp hserver).1⟩

theorem BackendServer.take_connections {server : BackendServer}
    (hless : server.activeConnections.toNat < 2 ^ 32 - 1) :
    server.take.activeConnections.toNat = server.activeConnections.toNat + 1 := by
  rw [BackendServer.take, UInt32.toNat_add, UInt32.toNat_one, Nat.mod_eq_of_lt (by omega)]

/-- The servers after one of them took a request. -/
theorem getElem?_modify_take {servers : List BackendServer} {chosen : ℕ} {least : BackendServer}
    (hchosen : servers[chosen]? = some least) (place : ℕ) :
    (servers.modify chosen BackendServer.take)[place]? =
      if place = chosen then some least.take else servers[place]? := by
  rw [List.getElem?_modify]
  split_ifs with hsame hother hother
  · rw [← hsame, hchosen]
    rfl
  · exact absurd hsame.symm hother
  · exact absurd hother.symm hsame
  · exact congrFun Option.map_id servers[place]?

/-- A request keeps the places levelled, and the place that takes it is one of them. -/
theorem LoadBalancerPool.Levelled.select {taken : Set ℕ}
    (hlevelled : pool.Levelled taken) (halgorithm : pool.algorithm = .leastConn) :
    pool.select.1.algorithm = .leastConn ∧
      pool.select.1.Levelled (taken ∪ {place | pool.select.2 = some place}) := by
  rcases select_leastConn_cases halgorithm with
    hnone | ⟨chosen, least, hchosen, hless, hleast, hsome⟩
  · rw [hnone]
    refine ⟨halgorithm, fun place hplace ↦ hlevelled place ?_⟩
    exact hplace.resolve_right fun hsome ↦ Option.some_ne_none place hsome.symm
  rw [hsome]
  have hservers := getElem?_modify_take hchosen
  -- the connections of a server only go up
  have hgrown : ∀ other ∈ pool.servers.modify chosen BackendServer.take,
      other.state = .healthy → ∃ before ∈ pool.servers, before.state = .healthy ∧
        before.activeConnections.toNat ≤ other.activeConnections.toNat := by
    intro other hother hstate
    obtain ⟨place, hplace⟩ := List.getElem?_of_mem hother
    rw [hservers] at hplace
    split_ifs at hplace with hsame
    · obtain rfl := Option.some.inj hplace
      refine ⟨least, List.mem_of_getElem? hchosen, hstate, ?_⟩
      rw [BackendServer.take_connections hless]
      exact Nat.le_succ _
    · exact ⟨other, List.mem_of_getElem? hplace, hstate, le_rfl⟩
  refine ⟨halgorithm, fun place hplace ↦ ?_⟩
  by_cases hsame : place = chosen
  · refine ⟨least.take, (hservers place).trans (if_pos hsame), fun other hother hstate ↦ ?_⟩
    obtain ⟨before, hbefore, hhealthy, hless'⟩ := hgrown other hother hstate
    have hfewest := UInt32.le_iff_toNat_le.mp (hleast before hbefore hhealthy)
    rw [BackendServer.take_connections hless]
    omega
  · have hin : place ∈ taken :=
      hplace.resolve_right fun hchoice ↦ hsame (Option.some.inj hchoice).symm
    obtain ⟨server, hserver, hlevel⟩ := hlevelled place hin
    refine ⟨server, (hservers place).trans ((if_neg hsame).trans hserver),
      fun other hother hstate ↦ ?_⟩
    obtain ⟨before, hbefore, hhealthy, hless'⟩ := hgrown other hother hstate
    exact Nat.le_trans (hlevel before hbefore hhealthy) (Nat.succ_le_succ hless')

/-- Requests keep the places levelled, and those that take some of them are among the places. -/
theorem LoadBalancerPool.Levelled.selectMany {taken : Set ℕ} (hlevelled : pool.Levelled taken)
    (halgorithm : pool.algorithm = .leastConn) (count : ℕ) :
    (pool.selectMany count).1.Levelled
      (taken ∪ {place | some place ∈ (pool.selectMany count).2}) := by
  induction count generalizing pool taken with
  | zero =>
    intro place hplace
    exact hlevelled place (hplace.resolve_right List.not_mem_nil)
  | succ count ih =>
    obtain ⟨hnext, hstep⟩ := hlevelled.select halgorithm
    intro place hplace
    refine ih hstep hnext place ?_
    rcases hplace with hplace | hplace
    · exact Or.inl (Or.inl hplace)
    · rcases List.mem_cons.mp hplace with hfirst | hlater
      · exact Or.inl (Or.inr hfirst.symm)
      · exact Or.inr hlater

/-- Where connections are counted, whatever they are in the beginning, a server that took a request
in the end has at most one connection more than any healthy server. -/
theorem requests_levelled (balancer : LoadBalancer) (requests : List UInt32) (hid : poolId ≠ 0)
    (hpool : balancer.pools.find? (fun pool ↦ pool.poolId = poolId) = some pool)
    (halgorithm : pool.algorithm = .leastConn) :
    ∃ after, (routeRequests balancer requests).1.pools.find? (fun pool ↦ pool.poolId = poolId) =
        some after ∧
      ∀ place, some place ∈ answersOf poolId (routeRequests balancer requests).2 →
        ∃ server, after.servers[place]? = some server ∧
          ∀ other ∈ after.servers, other.state = .healthy →
            server.activeConnections.toNat ≤ other.activeConnections.toNat + 1 := by
  obtain ⟨hafter, hanswers⟩ := routeRequests_pool hid requests hpool
  have hnone : pool.Levelled ∅ := fun place hplace ↦ hplace.elim
  refine ⟨_, hafter, fun place hplace ↦ ?_⟩
  rw [hanswers] at hplace
  exact hnone.selectMany halgorithm _ place (Or.inr hplace)

/-- Three servers, with 5, 0 and 1 connections, and four requests. -/
theorem requests_levelled_example :
    let servers : List BackendServer := [{ newServer 1 1 with activeConnections := 5 },
      newServer 2 1, { newServer 3 1 with activeConnections := 1 }]
    let routed := routeRequests ⟨[⟨1, servers, .leastConn, 0⟩], 3, 3, 2, 4⟩ [1, 1, 1, 1]
    ∃ after, routed.1.pools.find? (fun pool ↦ pool.poolId = 1) = some after ∧
      ∀ place, some place ∈ answersOf 1 routed.2 →
        ∃ server, after.servers[place]? = some server ∧
          ∀ other ∈ after.servers, other.state = .healthy →
            server.activeConnections.toNat ≤ other.activeConnections.toNat + 1 :=
  requests_levelled ⟨[⟨1, _, .leastConn, 0⟩], 3, 3, 2, 4⟩ [1, 1, 1, 1] (by decide) rfl rfl

end OneOS.LoadBalancing
