import OneOS.LoadBalancing.LoadBalancer

/-!
# Requests go to healthy servers

`load_balancer_select_server` is to return a healthy server when the pool has one, and to refuse and
change no server when it has none (`SelectsHealthy`). Only the algorithm that counts connections
looks at the state of the server it selects. The two that move a cursor over all servers return
whatever server is next, and the weighted one adds up the weights of the healthy servers but uses
the remainder of the cursor as a place among all of them. `selectsHealthy_iff` gives for every
algorithm the pools for which the right server is returned.
-/

set_option autoImplicit false
set_option relaxedAutoImplicit false

namespace OneOS.LoadBalancing

open Foundation

/-- Some server of a pool is healthy. -/
def LoadBalancerPool.HasHealthy (pool : LoadBalancerPool) : Prop :=
  ∃ server ∈ pool.servers, server.state = .healthy

/-- The server in a place of a pool is healthy. -/
def LoadBalancerPool.HealthyAt (pool : LoadBalancerPool) (place : ℕ) : Prop :=
  ∃ server ∈ pool.servers[place]?, server.state = .healthy

/-- What is asked of selecting a server of a pool: the place of a healthy server when the pool has
one, and otherwise -1 and the servers of all pools as they were. -/
def SelectsHealthy (balancer : LoadBalancer) (poolId : UInt32) (pool : LoadBalancerPool) : Prop :=
  (pool.HasHealthy → ∃ place, (loadBalancerSelectServer balancer poolId).2 = some place ∧
    pool.HealthyAt place) ∧
  (¬ pool.HasHealthy → (loadBalancerSelectServer balancer poolId).2 = none ∧
    (loadBalancerSelectServer balancer poolId).1.pools.map LoadBalancerPool.servers =
      balancer.pools.map LoadBalancerPool.servers)

/-- The condition on a pool: where a cursor selects, the server at the cursor is healthy if there is
one, and where weights select, the weights of the healthy servers do not add up to 0 in 32 bits and
the server at the remainder of the cursor is healthy. -/
def LoadBalancerPool.CursorHealthy (pool : LoadBalancerPool) : Prop :=
  match pool.algorithm with
  | .leastConn => True
  | .weighted => pool.HasHealthy → 0 < totalWeight pool.servers ∧
      pool.HealthyAt (pool.currentServerIndex % totalWeight pool.servers).toNat
  | .roundRobin | .random => pool.servers ≠ [] →
      pool.HealthyAt (pool.currentServerIndex.toNat % pool.servers.length)
  | .ipHash | .consistentHash => pool.servers ≠ [] → pool.HealthyAt 0

variable {pool : LoadBalancerPool} {balancer : LoadBalancer} {poolId : UInt32}

/-! ### What is selected -/

theorem LoadBalancerPool.HealthyAt.hasHealthy {place : ℕ} (hat : pool.HealthyAt place) :
    pool.HasHealthy := by
  obtain ⟨server, hserver, hstate⟩ := hat
  exact ⟨server, List.mem_of_getElem? hserver, hstate⟩

theorem LoadBalancerPool.HealthyAt.lt {place : ℕ} (hat : pool.HealthyAt place) :
    place < pool.servers.length := by
  obtain ⟨server, hserver, -⟩ := hat
  exact (List.getElem?_eq_some_iff.mp hserver).1

/-- A place is returned when the algorithm selects it and there is a server in it. -/
theorem LoadBalancerPool.select_snd (pool : LoadBalancerPool) :
    pool.select.2 = pool.selected.1.filter fun place ↦ place < pool.servers.length := by
  rw [LoadBalancerPool.select]
  split_ifs with hempty
  · rw [hempty]
    cases pool.selected.1 with
    | none => rfl
    | some place => rfl
  obtain ⟨chosen, cursor⟩ := pool.selected
  cases chosen with
  | none => rfl
  | some place =>
    dsimp only
    by_cases hplace : place < pool.servers.length
    · rw [if_pos hplace, Option.filter_some, if_pos (decide_eq_true hplace)]
    · rw [if_neg hplace, Option.filter_some, if_neg (by simpa using hplace)]

/-- When no place is returned, no server is changed. -/
theorem LoadBalancerPool.servers_of_select_none :
    pool.select.2 = none → pool.select.1.servers = pool.servers := by
  rw [LoadBalancerPool.select]
  split_ifs
  · exact fun _ ↦ rfl
  obtain ⟨chosen, cursor⟩ := pool.selected
  cases chosen with
  | none => exact fun _ ↦ rfl
  | some place =>
    dsimp only
    split_ifs
    · exact fun hnone ↦ hnone.elim
    · exact fun _ ↦ rfl

/-- The loop over connections keeps what was selected before and finds no healthy server with fewer
connections, or selects a healthy server. -/
theorem leastConnFrom_cases (place : ℕ) (minConn : UInt32) (selected : Option ℕ)
    (servers : List BackendServer) :
    (leastConnFrom place minConn selected servers = selected ∧
        ∀ server ∈ servers, server.state = .healthy → minConn ≤ server.activeConnections) ∨
      ∃ offset, leastConnFrom place minConn selected servers = some (place + offset) ∧
        ∃ server ∈ servers[offset]?, server.state = .healthy := by
  fun_induction leastConnFrom place minConn selected servers with
  | case1 place minConn selected => exact Or.inl ⟨rfl, List.forall_mem_nil _⟩
  | case2 place minConn selected server servers hfewer ih =>
    rcases ih with ⟨hsame, -⟩ | ⟨offset, hfound, hhealthy⟩
    · exact Or.inr ⟨0, hsame, server, rfl, hfewer.1⟩
    · exact Or.inr ⟨offset + 1, hfound.trans (congrArg some (Nat.add_right_comm _ _ _)), hhealthy⟩
  | case3 place minConn selected server servers hmore ih =>
    rcases ih with ⟨hsame, hall⟩ | ⟨offset, hfound, hhealthy⟩
    · refine Or.inl ⟨hsame, List.forall_mem_cons.mpr ⟨fun hstate ↦ ?_, hall⟩⟩
      exact UInt32.not_lt.mp fun hless ↦ hmore ⟨hstate, hless⟩
    · exact Or.inr ⟨offset + 1, hfound.trans (congrArg some (Nat.add_right_comm _ _ _)), hhealthy⟩

/-- Without healthy servers there is no weight. -/
theorem totalWeight_eq_zero (hnone : ¬ pool.HasHealthy) : totalWeight pool.servers = 0 := by
  have hall : ∀ server ∈ pool.servers, server.state ≠ .healthy :=
    fun server hserver hstate ↦ hnone ⟨server, hserver, hstate⟩
  rw [totalWeight]
  revert hall
  induction pool.servers with
  | nil => exact fun _ ↦ rfl
  | cons server servers ih =>
    intro hall
    obtain ⟨hserver, hservers⟩ := List.forall_mem_cons.mp hall
    rw [List.foldl_cons, if_neg hserver]
    exact ih hservers

/-! ### What is asked -/

/-- What is asked, in terms of the place that is returned for the pool. -/
theorem selectsHealthy_iff_select (hid : poolId ≠ 0)
    (hpool : balancer.pools.find? (fun pool ↦ pool.poolId = poolId) = some pool) :
    SelectsHealthy balancer poolId pool ↔
      (pool.HasHealthy → ∃ place, pool.select.2 = some place ∧ pool.HealthyAt place) ∧
        (¬ pool.HasHealthy → pool.select.2 = none) := by
  have hreturned : (loadBalancerSelectServer balancer poolId).2 = pool.select.2 := by
    rw [loadBalancerSelectServer, if_neg hid, hpool]
  have hservers : pool.select.2 = none →
      (loadBalancerSelectServer balancer poolId).1.pools.map LoadBalancerPool.servers =
        balancer.pools.map LoadBalancerPool.servers := by
    intro hnone
    rw [loadBalancerSelectServer, if_neg hid, hpool]
    obtain ⟨before, after, hsplit, -, -, hupdate⟩ := updateFirst_split hpool
    dsimp only
    rw [hupdate, hsplit, List.map_append, List.map_append, List.map_cons, List.map_cons,
      pool.servers_of_select_none hnone]
  rw [SelectsHealthy, hreturned]
  refine and_congr_right fun _ ↦ forall_congr' fun _ ↦ ?_
  exact ⟨fun hboth ↦ hboth.1, fun hnone ↦ ⟨hnone, hservers hnone⟩⟩

/-- An algorithm that always selects some place, which is the place of a server when there are
servers. -/
theorem select_cursor_iff {place : ℕ} (hselected : pool.selected.1 = some place)
    (hplace : pool.servers ≠ [] → place < pool.servers.length) :
    (pool.HasHealthy → ∃ place, pool.select.2 = some place ∧ pool.HealthyAt place) ∧
        (¬ pool.HasHealthy → pool.select.2 = none) ↔
      (pool.servers ≠ [] → pool.HealthyAt place) := by
  by_cases hempty : pool.servers = []
  · have hnone : ¬ pool.HasHealthy := by
      rintro ⟨server, hserver, -⟩
      rw [hempty] at hserver
      exact List.not_mem_nil hserver
    refine iff_of_true ⟨fun hsome ↦ absurd hsome hnone, fun _ ↦ ?_⟩ fun hsome ↦ absurd hempty hsome
    rw [LoadBalancerPool.select, if_pos hempty]
  · have hreturned : pool.select.2 = some place := by
      rw [pool.select_snd, hselected, Option.filter_some, if_pos (decide_eq_true (hplace hempty))]
    rw [hreturned]
    constructor
    · rintro ⟨hsome, hnone⟩ -
      by_cases hhealthy : pool.HasHealthy
      · obtain ⟨other, hother, hat⟩ := hsome hhealthy
        rwa [Option.some.inj hother]
      · exact absurd (hnone hhealthy) (Option.some_ne_none place)
    · intro hat
      exact ⟨fun _ ↦ ⟨place, rfl, hat hempty⟩, fun hnone ↦ absurd (hat hempty).hasHealthy hnone⟩

/-- The algorithm that counts connections. Assumes: no healthy server has as many connections as a
counter can count. -/
theorem select_leastConn (halgorithm : pool.algorithm = .leastConn)
    (hconnections : ∀ server ∈ pool.servers, server.state = .healthy →
      server.activeConnections.toNat < 2 ^ 32 - 1) :
    (pool.HasHealthy → ∃ place, pool.select.2 = some place ∧ pool.HealthyAt place) ∧
      (¬ pool.HasHealthy → pool.select.2 = none) := by
  have hselected : pool.selected.1 =
      leastConnFrom 0 (UInt32.ofNat (2 ^ 32 - 1)) none pool.servers := by
    rw [LoadBalancerPool.selected, halgorithm]
  rw [pool.select_snd, hselected]
  rcases leastConnFrom_cases 0 (UInt32.ofNat (2 ^ 32 - 1)) none pool.servers with
    ⟨hsame, hall⟩ | ⟨place, hfound, hat⟩
  · rw [hsame]
    refine ⟨?_, fun _ ↦ rfl⟩
    rintro ⟨server, hserver, hstate⟩
    have hless := hconnections server hserver hstate
    have hmore := UInt32.le_iff_toNat_le.mp (hall server hserver hstate)
    have hmax : (UInt32.ofNat (2 ^ 32 - 1)).toNat = 2 ^ 32 - 1 := rfl
    omega
  · have hplace : pool.HealthyAt place := hat
    rw [hfound, Nat.zero_add, Option.filter_some, if_pos (decide_eq_true hplace.lt)]
    exact ⟨fun _ ↦ ⟨place, rfl, hplace⟩, fun hnone ↦ absurd hplace.hasHealthy hnone⟩

/-- The algorithm that adds up weights. -/
theorem select_weighted_iff (halgorithm : pool.algorithm = .weighted) :
    (pool.HasHealthy → ∃ place, pool.select.2 = some place ∧ pool.HealthyAt place) ∧
        (¬ pool.HasHealthy → pool.select.2 = none) ↔
      (pool.HasHealthy → 0 < totalWeight pool.servers ∧
        pool.HealthyAt (pool.currentServerIndex % totalWeight pool.servers).toNat) := by
  by_cases hhealthy : pool.HasHealthy
  · by_cases hweight : 0 < totalWeight pool.servers
    · have hselected : pool.selected.1 =
          some (pool.currentServerIndex % totalWeight pool.servers).toNat := by
        rw [LoadBalancerPool.selected, halgorithm]
        dsimp only
        rw [if_pos hweight]
      constructor
      · rintro ⟨hsome, -⟩ -
        obtain ⟨place, hplace, hat⟩ := hsome hhealthy
        rw [pool.select_snd, hselected, Option.filter_eq_some_iff] at hplace
        rw [Option.some.inj hplace.1]
        exact ⟨hweight, hat⟩
      · intro hcondition
        obtain ⟨-, hat⟩ := hcondition hhealthy
        refine ⟨fun _ ↦ ⟨_, ?_, hat⟩, fun hnone ↦ absurd hhealthy hnone⟩
        rw [pool.select_snd, hselected, Option.filter_some, if_pos (decide_eq_true hat.lt)]
    · have hreturned : pool.select.2 = none := by
        rw [pool.select_snd, LoadBalancerPool.selected, halgorithm]
        dsimp only
        rw [if_neg hweight]
        rfl
      refine iff_of_false ?_ fun hcondition ↦ hweight (hcondition hhealthy).1
      rintro ⟨hsome, -⟩
      obtain ⟨place, hplace, -⟩ := hsome hhealthy
      exact absurd (hreturned.symm.trans hplace) (Option.some_ne_none place).symm
  · refine iff_of_true ⟨fun hsome ↦ absurd hsome hhealthy, fun _ ↦ ?_⟩
      fun hsome ↦ absurd hsome hhealthy
    rw [pool.select_snd, LoadBalancerPool.selected, halgorithm]
    dsimp only
    rw [totalWeight_eq_zero hhealthy, if_neg (by decide)]
    rfl

/-- Assumes: the pool is found by its id, and no healthy server of it has as many connections as a
counter can count. A healthy server is returned when there is one, and otherwise none and no server
is changed, exactly when the pool meets the condition for its algorithm. -/
theorem selectsHealthy_iff (balancer : LoadBalancer) (poolId : UInt32) (pool : LoadBalancerPool)
    (hid : poolId ≠ 0)
    (hpool : balancer.pools.find? (fun pool ↦ pool.poolId = poolId) = some pool)
    (hconnections : ∀ server ∈ pool.servers, server.state = .healthy →
      server.activeConnections.toNat < 2 ^ 32 - 1) :
    SelectsHealthy balancer poolId pool ↔ pool.CursorHealthy := by
  rw [selectsHealthy_iff_select hid hpool, LoadBalancerPool.CursorHealthy]
  have hcursor : pool.servers ≠ [] →
      pool.currentServerIndex.toNat % pool.servers.length < pool.servers.length :=
    fun hsome ↦ Nat.mod_lt _ (List.length_pos_iff.mpr hsome)
  have hfirst : pool.servers ≠ [] → 0 < pool.servers.length := List.length_pos_iff.mpr
  cases halgorithm : pool.algorithm with
  | roundRobin =>
    exact select_cursor_iff (by rw [LoadBalancerPool.selected, halgorithm]) hcursor
  | leastConn => exact iff_of_true (select_leastConn halgorithm hconnections) trivial
  | weighted => exact select_weighted_iff halgorithm
  | ipHash => exact select_cursor_iff (by rw [LoadBalancerPool.selected, halgorithm]) hfirst
  | consistentHash => exact select_cursor_iff (by rw [LoadBalancerPool.selected, halgorithm]) hfirst
  | random => exact select_cursor_iff (by rw [LoadBalancerPool.selected, halgorithm]) hcursor

/-- A pool of two servers, of which the first is draining. -/
def drainingFirst (algorithm : LoadBalancingAlgorithm) : LoadBalancerPool where
  poolId := 1
  servers := [{ newServer 1 1 with state := .draining }, newServer 2 1]
  algorithm := algorithm
  currentServerIndex := 0

/-- Counting connections passes over the draining server. -/
theorem selectsHealthy_leastConn :
    SelectsHealthy ⟨[drainingFirst .leastConn], 2, 1, 2, 3⟩ 1 (drainingFirst .leastConn) := by
  refine (selectsHealthy_iff _ 1 _ (by decide) rfl ?_).mpr trivial
  refine List.forall_mem_cons.mpr ⟨fun hstate ↦ ?_, List.forall_mem_singleton.mpr fun _ ↦ ?_⟩
  · exact absurd hstate (by decide)
  · decide

/-- Round robin returns the draining server. -/
theorem not_selectsHealthy_roundRobin :
    ¬ SelectsHealthy ⟨[drainingFirst .roundRobin], 2, 1, 2, 3⟩ 1 (drainingFirst .roundRobin) := by
  rintro ⟨hsome, -⟩
  obtain ⟨place, hplace, server, hserver, hstate⟩ :=
    hsome ⟨newServer 2 1, List.mem_cons_of_mem _ List.mem_cons_self, rfl⟩
  obtain rfl : 0 = place := Option.some.inj hplace
  rw [← Option.some.inj hserver] at hstate
  exact absurd hstate (by decide)

end OneOS.LoadBalancing
