import Mathlib.Algebra.Group.Nat.Defs
import Mathlib.Data.List.Pairwise
import OneOS.Foundation.CStrings
import OneOS.Foundation.Runs

/-!
# Selecting a route

The routing table of `net/network_stack.c`. A route is added behind the others, and
`net_find_route` takes the first one whose destination agrees with an address under its netmask. The
metric is kept and never read, and netmasks are not compared, so which route is taken depends on the
order in which the routes were added.

`netFindRoute_earliest` says what is taken in every table: there is a route exactly when an active
one matches, and then it is the one of these that was added first. That is one with the longest
netmask and the smallest metric (`IsBest`) when no matching route was added before a better one.
Left out are the checks of pointers.
-/

set_option autoImplicit false
set_option relaxedAutoImplicit false

namespace OneOS.Networking

open Foundation

/-! ### The table -/

/-- `MAX_ROUTES`. -/
def maxRoutes : ℕ := 512

/-- `RouteEntry`. -/
structure RouteEntry where
  destinationIp : UInt32
  gatewayIp : UInt32
  netmask : UInt32
  metric : UInt32
  interface : CString
  isActive : Bool
  deriving DecidableEq, Repr

/-- The route that `net_add_route` writes. -/
def newRoute (destIp gatewayIp netmask metric : UInt32) (interface : CString) : RouteEntry where
  destinationIp := destIp
  gatewayIp := gatewayIp
  netmask := netmask
  metric := metric
  interface := interface.take 15
  isActive := true

/-- `net_add_route`, on the rows in use of the table. -/
def netAddRoute (table : List RouteEntry) (destIp gatewayIp netmask metric : UInt32)
    (interface : CString) : List RouteEntry × Int :=
  if maxRoutes ≤ table.length then (table, -1)
  else (table ++ [newRoute destIp gatewayIp netmask metric interface], 0)

/-- `net_remove_route`: the first route with the destination is removed. -/
def netRemoveRoute (table : List RouteEntry) (destIp : UInt32) : List RouteEntry × Int :=
  if table.any fun route ↦ route.destinationIp = destIp then
    (table.eraseP fun route ↦ route.destinationIp = destIp, 0)
  else (table, -1)

/-- The test of the loop of `net_find_route`. -/
def RouteEntry.matches (destIp : UInt32) (route : RouteEntry) : Bool :=
  destIp &&& route.netmask == route.destinationIp &&& route.netmask

/-- `net_find_route`, with the returned pointer as the route it points to. -/
def netFindRoute (table : List RouteEntry) (destIp : UInt32) : Option RouteEntry :=
  table.find? (RouteEntry.matches destIp)

/-- A call that changes the table. -/
inductive RouteCall
  | addRoute (destIp gatewayIp netmask metric : UInt32) (interface : CString)
  | removeRoute (destIp : UInt32)
  deriving DecidableEq, Repr

/-- The table after a call. -/
def routeStep (table : List RouteEntry) : RouteCall → List RouteEntry
  | .addRoute destIp gatewayIp netmask metric interface =>
    (netAddRoute table destIp gatewayIp netmask metric interface).1
  | .removeRoute destIp => (netRemoveRoute table destIp).1

/-- The route that a call adds, if it is not refused. -/
def addedRoute (table : List RouteEntry) : RouteCall → List RouteEntry
  | .addRoute destIp gatewayIp netmask metric interface =>
    if (netAddRoute table destIp gatewayIp netmask metric interface).2 = 0 then
      [newRoute destIp gatewayIp netmask metric interface]
    else []
  | .removeRoute _ => []

/-! ### What is asked -/

/-- A netmask whose set bits are the highest ones. -/
def ContiguousMask (netmask : UInt32) : Prop :=
  ∃ length ≤ 32, netmask.toNat = 2 ^ 32 - 2 ^ (32 - length)

/-- A route is better than another one when its netmask is longer, or as long and its metric is
smaller. Of two contiguous netmasks the longer one is the larger number. -/
def RouteEntry.BetterThan (route other : RouteEntry) : Prop :=
  other.netmask < route.netmask ∨ route.netmask = other.netmask ∧ route.metric < other.metric

/-- An active route that matches an address, and no active route that matches is better. -/
structure IsBest (table : List RouteEntry) (destIp : UInt32) (route : RouteEntry) : Prop where
  mem : route ∈ table
  active : route.isActive = true
  fits : route.matches destIp = true
  best : ∀ other ∈ table, other.isActive = true → other.matches destIp = true →
    ¬ other.BetterThan route

/-- No active route matches an address. -/
def NoneMatches (table : List RouteEntry) (destIp : UInt32) : Prop :=
  ∀ route ∈ table, route.isActive = true → ¬ route.matches destIp = true

/-- What is claimed of an address: there is a route exactly when an active one matches, and then it
is a best one. -/
def SelectsBest (table : List RouteEntry) (destIp : UInt32) : Prop :=
  (netFindRoute table destIp = none ↔ NoneMatches table destIp) ∧
    ∀ route, netFindRoute table destIp = some route → IsBest table destIp route

/-- The first of the routes in a table that match an address, which is active. -/
structure IsEarliest (table : List RouteEntry) (destIp : UInt32) (route : RouteEntry) : Prop where
  active : route.isActive = true
  fits : route.matches destIp = true
  first : ∃ earlier later, table = earlier ++ route :: later ∧
    ∀ other ∈ earlier, ¬ other.matches destIp = true

/-! ### Tables that are reached -/

variable {table added : List RouteEntry} {destIp : UInt32} {route : RouteEntry}

/-- The table holds routes that were added, in the order in which they were added, and all of them
are active. -/
structure InOrder (table added : List RouteEntry) : Prop where
  order : table.Sublist added
  active : ∀ route ∈ table, route.isActive = true

theorem InOrder.step (horder : InOrder table added) (call : RouteCall) :
    InOrder (routeStep table call) (added ++ addedRoute table call) := by
  cases call with
  | addRoute destIp gatewayIp netmask metric interface =>
    rw [routeStep, addedRoute, netAddRoute]
    split_ifs with hfull hzero hzero
    · exact absurd hzero (show ¬ (-1 : Int) = 0 by decide)
    · rw [List.append_nil]
      exact horder
    · refine ⟨horder.order.append_right _, List.forall_mem_append.mpr ⟨horder.active, ?_⟩⟩
      intro route hroute
      rw [List.mem_singleton.mp hroute]
      rfl
    · exact absurd rfl hzero
  | removeRoute destIp =>
    rw [routeStep, addedRoute, netRemoveRoute, List.append_nil]
    split_ifs
    · exact ⟨List.eraseP_sublist.trans horder.order,
        fun route hroute ↦ horder.active route (List.mem_of_mem_eraseP hroute)⟩
    · exact horder

/-- Along every run, the table holds what was added in its order. -/
theorem inOrder_run (calls : List RouteCall) :
    InOrder (runFrom routeStep [] calls) (gather routeStep addedRoute [] calls) := by
  induction calls using List.reverseRecOn with
  | nil => exact ⟨List.Sublist.refl [], by simp⟩
  | append_singleton calls call ih =>
    rw [runFrom_append, gather_concat]
    exact ih.step call

/-! ### The route that is found -/

/-- Assumes: all routes are active. There is no route exactly when none matches. -/
theorem netFindRoute_eq_none_iff (hactive : ∀ route ∈ table, route.isActive = true) :
    netFindRoute table destIp = none ↔ NoneMatches table destIp := by
  rw [netFindRoute, List.find?_eq_none]
  refine forall_congr' fun route ↦ forall_congr' fun hroute ↦ ?_
  exact ⟨fun hnot _ ↦ hnot, fun hnot ↦ hnot (hactive route hroute)⟩

/-- Assumes: all routes are active. The route that is found is the earliest that matches. -/
theorem isEarliest_of_netFindRoute (hactive : ∀ route ∈ table, route.isActive = true)
    (hfind : netFindRoute table destIp = some route) : IsEarliest table destIp route := by
  obtain ⟨hfits, earlier, later, hsplit, hearlier⟩ := List.find?_eq_some_iff_append.mp hfind
  refine ⟨hactive route ?_, hfits, earlier, later, hsplit, fun other hother hmatch ↦ ?_⟩
  · rw [hsplit]
    exact List.mem_append_right _ List.mem_cons_self
  · have hnot := hearlier other hother
    rw [hmatch] at hnot
    exact Bool.noConfusion hnot

/-- Assumes: of the routes that match, none stands before a better one. The earliest is a best
one. -/
theorem IsEarliest.isBest (hearliest : IsEarliest table destIp route)
    (hsorted : (table.filter (RouteEntry.matches destIp)).Pairwise
      fun earlier later ↦ ¬ later.BetterThan earlier) : IsBest table destIp route := by
  obtain ⟨hactive, hfits, earlier, later, rfl, hnone⟩ := hearliest
  refine ⟨List.mem_append_right _ List.mem_cons_self, hactive, hfits, ?_⟩
  intro other hother _ hmatch
  rw [List.filter_append, List.filter_eq_nil_iff.mpr hnone, List.nil_append,
    List.filter_cons_of_pos hfits, List.pairwise_cons] at hsorted
  rcases List.mem_append.mp hother with hbefore | hbehind
  · exact absurd hmatch (hnone other hbefore)
  · rcases List.mem_cons.mp hbehind with rfl | hlater
    · rintro (hmask | ⟨-, hmetric⟩)
      · exact UInt32.lt_irrefl _ hmask
      · exact UInt32.lt_irrefl _ hmetric
    · exact hsorted.1 other (List.mem_filter.mpr ⟨hlater, hmatch⟩)

/-- In every table that is built by adding and removing routes, and for every address: the routes of
the table are in the order in which they were added; no route is found exactly when no active one
matches; a route that is found is the earliest of the active ones that match, and it is a best one
when of the routes that match none was added before a better one. -/
theorem netFindRoute_earliest (calls : List RouteCall) (destIp : UInt32) :
    (runFrom routeStep [] calls).Sublist (gather routeStep addedRoute [] calls) ∧
    (netFindRoute (runFrom routeStep [] calls) destIp = none ↔
      NoneMatches (runFrom routeStep [] calls) destIp) ∧
    ∀ route, netFindRoute (runFrom routeStep [] calls) destIp = some route →
      IsEarliest (runFrom routeStep [] calls) destIp route ∧
      (((runFrom routeStep [] calls).filter (RouteEntry.matches destIp)).Pairwise
          (fun earlier later ↦ ¬ later.BetterThan earlier) →
        IsBest (runFrom routeStep [] calls) destIp route) := by
  have horder := inOrder_run calls
  refine ⟨horder.order, netFindRoute_eq_none_iff horder.active, fun route hfind ↦ ?_⟩
  have hearliest := isEarliest_of_netFindRoute horder.active hfind
  exact ⟨hearliest, hearliest.isBest⟩

/-- A default route is added before one for the network 10.0.0.0/8, in this order and in the
other. -/
def defaultFirst : List RouteCall :=
  [.addRoute 0 0x0A000001 0 1 [], .addRoute 0x0A000000 0x0A000002 0xFF000000 1 []]

/-- For an address of the network the default route is taken, also though all netmasks are
contiguous; with the routes added in the other order it is the route for the network. -/
theorem not_selectsBest_defaultFirst :
    (∀ route ∈ runFrom routeStep [] defaultFirst, ContiguousMask route.netmask) ∧
      ¬ SelectsBest (runFrom routeStep [] defaultFirst) 0x0A010203 ∧
      netFindRoute (runFrom routeStep [] defaultFirst) 0x0A010203 ≠
        netFindRoute (runFrom routeStep [] defaultFirst.reverse) 0x0A010203 := by
  refine ⟨?_, ?_, by decide⟩
  · have htable : runFrom routeStep [] defaultFirst =
        [newRoute 0 0x0A000001 0 1 [], newRoute 0x0A000000 0x0A000002 0xFF000000 1 []] := by
      decide
    rw [htable]
    refine List.forall_mem_cons.mpr ⟨⟨0, by decide, by decide⟩, List.forall_mem_cons.mpr
      ⟨⟨8, by decide, by decide⟩, by simp⟩⟩
  · rintro ⟨-, hbest⟩
    have hfind : netFindRoute (runFrom routeStep [] defaultFirst) 0x0A010203 =
        some (newRoute 0 0x0A000001 0 1 []) := by decide
    refine (hbest _ hfind).best (newRoute 0x0A000000 0x0A000002 0xFF000000 1 []) (by decide) rfl
      (by decide) (Or.inl (by decide))

end OneOS.Networking
