import OneOS.Foundation.Runs
import OneOS.Foundation.Table

/-!
# The epoll equivalent

`async-io-multiplexing/epoll_equivalent.c`: up to 64 instances, found by the file descriptor that
`epoll_create_instance` gives them, each with an array of the file descriptors that it watches.
`epoll_ctl_add` appends to the array, `epoll_ctl_mod` and `epoll_ctl_del` work on the first entry
with a file descriptor, and `epoll_wait` reports the entries that ask for `EPOLLIN`.

The registration is to be a set: no file descriptor is watched twice, adding one that is watched
fails, and one that was deleted is not reported until it is added again. `epoll_ctl_add` does not
look for the file descriptor it is given, as `event_register` does, and `registersAsSet_iff` says
that this is all that goes wrong.

Left out are the checks of pointers, the times, `in_rbtree` and the counts of polls and events,
which no modelled function reads.
-/

set_option autoImplicit false
set_option relaxedAutoImplicit false

namespace OneOS.Multiplexing

open Foundation

/-! ### Instances -/

/-- `MAX_EPOLL_FDS`. -/
def maxEpollFds : ℕ := 65536

/-- `MAX_EPOLL_INSTANCES`. -/
def maxEpollInstances : ℕ := 64

/-- `EPOLLIN`. -/
def epollIn : UInt32 := 0x001

/-- `EPOLL_EDGE_TRIGGERED`. -/
def epollEdgeTriggered : UInt32 := 0x40000000

/-- `EpollEventData`, with the pointer as a number. -/
structure EpollEventData where
  events : UInt32
  ptr : ℕ
  fd : UInt32
  data : UInt64
  deriving DecidableEq, Repr

/-- `EpollFdInfo`. -/
structure EpollFdInfo where
  fd : ℤ
  events : UInt32
  eventData : EpollEventData
  isEdgeTriggered : UInt8
  isOneshot : UInt8
  deriving DecidableEq, Repr

/-- `EpollInstance`, with the used rows of its array as a list. -/
structure EpollInstance where
  epollFd : UInt32
  fds : List EpollFdInfo
  deriving DecidableEq, Repr

/-- `EpollManager`, with the used rows of its array as a list, and the counter that numbers
instances. -/
structure EpollManager where
  instances : List EpollInstance
  nextEpollFd : UInt32
  deriving DecidableEq, Repr

/-- `epoll_manager_create`. The counter is shared by all managers of a process and keeps its
value. -/
def epollManagerCreate (nextEpollFd : UInt32) : EpollManager where
  instances := []
  nextEpollFd := nextEpollFd

/-- `epoll_create_instance`, returning the file descriptor, or none for -1. -/
def epollCreateInstance (manager : EpollManager) : EpollManager × Option UInt32 :=
  if maxEpollInstances ≤ manager.instances.length then (manager, none)
  else
    ({ instances := manager.instances ++ [{ epollFd := manager.nextEpollFd, fds := [] }]
       nextEpollFd := manager.nextEpollFd + 1 }, some manager.nextEpollFd)

/-- `epoll_create`. Its flags are not read. -/
def epollCreate (manager : EpollManager) : EpollManager × Option UInt32 :=
  if maxEpollInstances ≤ manager.instances.length then (manager, none)
  else epollCreateInstance manager

/-! ### Registration -/

/-- What the first instance with a file descriptor watches. -/
def EpollManager.fdsOf (manager : EpollManager) (epollFd : UInt32) : Option (List EpollFdInfo) :=
  (manager.instances.find? fun epoll ↦ epoll.epollFd = epollFd).map EpollInstance.fds

/-- The first instance with a file descriptor watches other entries. -/
def EpollManager.setFds (manager : EpollManager) (epollFd : UInt32) (fds : List EpollFdInfo) :
    EpollManager :=
  { manager with
    instances :=
      updateFirst (fun epoll ↦ epoll.epollFd = epollFd) ({ · with fds := fds })
        manager.instances }

/-- The loop of the calls that work on one entry of an instance: they search the instance, then the
first entry with the file descriptor. -/
def EpollManager.onFds (manager : EpollManager) (epollFd : Int32) (fd : ℤ)
    (change : List EpollFdInfo → List EpollFdInfo) : EpollManager × Int :=
  if epollFd ≤ 0 ∨ fd < 0 then (manager, -1)
  else
    match manager.fdsOf epollFd.toUInt32 with
    | none => (manager, -1)
    | some fds =>
      if fds.any fun info ↦ info.fd = fd then
        (manager.setFds epollFd.toUInt32 (change fds), 0)
      else (manager, -1)

/-- `epoll_ctl_add`. -/
def epollCtlAdd (manager : EpollManager) (epollFd : Int32) (fd : ℤ) (event : EpollEventData) :
    EpollManager × Int :=
  if epollFd ≤ 0 ∨ fd < 0 then (manager, -1)
  else
    match manager.fdsOf epollFd.toUInt32 with
    | none => (manager, -1)
    | some fds =>
      if maxEpollFds ≤ fds.length then (manager, -1)
      else
        (manager.setFds epollFd.toUInt32 (fds ++
          [{ fd := fd, events := event.events, eventData := event, isEdgeTriggered := 0,
             isOneshot := 0 }]), 0)

/-- `epoll_ctl_mod`. -/
def epollCtlMod (manager : EpollManager) (epollFd : Int32) (fd : ℤ) (event : EpollEventData) :
    EpollManager × Int :=
  manager.onFds epollFd fd <| updateFirst (fun info ↦ info.fd = fd)
    ({ · with events := event.events, eventData := event })

/-- `epoll_ctl_del`. -/
def epollCtlDel (manager : EpollManager) (epollFd : Int32) (fd : ℤ) : EpollManager × Int :=
  manager.onFds epollFd fd (List.eraseP fun info ↦ info.fd = fd)

/-- `epoll_set_edge_triggered`. -/
def epollSetEdgeTriggered (manager : EpollManager) (epollFd : Int32) (fd : ℤ)
    (edgeTriggered : UInt8) : EpollManager × Int :=
  manager.onFds epollFd fd <| updateFirst (fun info ↦ info.fd = fd) fun info ↦
    { info with
      isEdgeTriggered := edgeTriggered
      events :=
        if edgeTriggered ≠ 0 then info.events ||| epollEdgeTriggered
        else info.events &&& ~~~epollEdgeTriggered }

/-- `epoll_set_oneshot`. -/
def epollSetOneshot (manager : EpollManager) (epollFd : Int32) (fd : ℤ) (oneshot : UInt8) :
    EpollManager × Int :=
  manager.onFds epollFd fd <|
    updateFirst (fun info ↦ info.fd = fd) ({ · with isOneshot := oneshot })

/-! ### Waiting -/

/-- The loop of `epoll_wait` over the entries, with the number of events that may still be reported:
the entries that are reported. -/
def readyFds : ℕ → List EpollFdInfo → List EpollFdInfo
  | 0, _ => []
  | _ + 1, [] => []
  | room + 1, info :: fds =>
    if info.events &&& epollIn ≠ 0 then info :: readyFds room fds else readyFds (room + 1) fds

/-- The entries that `epoll_wait` reports, or none for -1. -/
def reportedFds (manager : EpollManager) (epollFd : Int32) (maxevents : ℤ) :
    Option (List EpollFdInfo) :=
  if epollFd ≤ 0 ∨ maxevents ≤ 0 then none
  else (manager.fdsOf epollFd.toUInt32).map (readyFds maxevents.toNat)

/-- `epoll_wait`, returning the events it writes, or none for -1. The time is an argument that is
not read. -/
def epollWait (manager : EpollManager) (epollFd : Int32) (maxevents : ℤ) :
    Option (List EpollEventData) :=
  (reportedFds manager epollFd maxevents).map
    (List.map fun info ↦ { info.eventData with events := epollIn })

/-! ### Calls -/

/-- A call to the manager. -/
inductive EpollCall
  | createInstance
  | ctlAdd (epollFd : Int32) (fd : ℤ) (event : EpollEventData)
  | ctlMod (epollFd : Int32) (fd : ℤ) (event : EpollEventData)
  | ctlDel (epollFd : Int32) (fd : ℤ)
  | setEdgeTriggered (epollFd : Int32) (fd : ℤ) (edgeTriggered : UInt8)
  | setOneshot (epollFd : Int32) (fd : ℤ) (oneshot : UInt8)
  | wait (epollFd : Int32) (maxevents : ℤ)
  deriving DecidableEq, Repr

/-- What a call does to the manager. `epoll_wait` changes counts only. -/
def epollStep (manager : EpollManager) : EpollCall → EpollManager
  | .createInstance => (epollCreate manager).1
  | .ctlAdd epollFd fd event => (epollCtlAdd manager epollFd fd event).1
  | .ctlMod epollFd fd event => (epollCtlMod manager epollFd fd event).1
  | .ctlDel epollFd fd => (epollCtlDel manager epollFd fd).1
  | .setEdgeTriggered epollFd fd edgeTriggered =>
    (epollSetEdgeTriggered manager epollFd fd edgeTriggered).1
  | .setOneshot epollFd fd oneshot => (epollSetOneshot manager epollFd fd oneshot).1
  | .wait _ _ => manager

variable {manager : EpollManager} {key : UInt32} {fds new : List EpollFdInfo}

/-! ### Calls that are refused or served -/

/-- What an instance watches after one instance is changed. -/
theorem fdsOf_setFds (manager : EpollManager) (key other : UInt32) (fds : List EpollFdInfo) :
    (manager.setFds key fds).fdsOf other =
      if other = key then (manager.fdsOf other).map fun _ ↦ fds else manager.fdsOf other := by
  have hfind : (manager.setFds key fds).instances.find? (fun epoll ↦ epoll.epollFd = other) =
      if other = key then
        (manager.instances.find? fun epoll ↦ epoll.epollFd = other).map ({ · with fds := fds })
      else manager.instances.find? fun epoll ↦ epoll.epollFd = other :=
    find?_key_updateFirst fun _ ↦ rfl
  rw [EpollManager.fdsOf, hfind]
  split_ifs
  · rw [EpollManager.fdsOf, Option.map_map, Option.map_map]
    rfl
  · rfl

theorem EpollManager.onFds_cases (manager : EpollManager) (epollFd : Int32) (fd : ℤ)
    (change : List EpollFdInfo → List EpollFdInfo) :
    manager.onFds epollFd fd change = (manager, -1) ∨
      ∃ fds, manager.fdsOf epollFd.toUInt32 = some fds ∧
        manager.onFds epollFd fd change = (manager.setFds epollFd.toUInt32 (change fds), 0) := by
  rw [EpollManager.onFds]
  split_ifs
  · exact Or.inl rfl
  · cases manager.fdsOf epollFd.toUInt32 with
    | none => exact Or.inl rfl
    | some fds =>
      dsimp only
      split_ifs
      · exact Or.inr ⟨fds, rfl, rfl⟩
      · exact Or.inl rfl

theorem epollCtlAdd_cases (manager : EpollManager) (epollFd : Int32) (fd : ℤ)
    (event : EpollEventData) :
    epollCtlAdd manager epollFd fd event = (manager, -1) ∨
      0 < epollFd ∧ 0 ≤ fd ∧ ∃ fds, manager.fdsOf epollFd.toUInt32 = some fds ∧
        fds.length < maxEpollFds ∧ epollCtlAdd manager epollFd fd event =
          (manager.setFds epollFd.toUInt32 (fds ++
            [{ fd := fd, events := event.events, eventData := event, isEdgeTriggered := 0,
               isOneshot := 0 }]), 0) := by
  rw [epollCtlAdd]
  split_ifs with hrefused
  · exact Or.inl rfl
  · rw [not_or, Int32.not_le, Int.not_lt] at hrefused
    cases manager.fdsOf epollFd.toUInt32 with
    | none => exact Or.inl rfl
    | some fds =>
      dsimp only
      split_ifs with hfull
      · exact Or.inl rfl
      · exact Or.inr ⟨hrefused.1, hrefused.2, fds, rfl, Nat.lt_of_not_le hfull, rfl⟩

/-- The loop of `epoll_wait` reports the first entries that ask for `EPOLLIN`. -/
theorem readyFds_eq (room : ℕ) (fds : List EpollFdInfo) :
    readyFds room fds = (fds.filter fun info ↦ info.events &&& epollIn ≠ 0).take room := by
  fun_induction readyFds room fds with
  | case1 fds => rw [List.take_zero]
  | case2 room => rfl
  | case3 room info fds hready ih =>
    rw [List.filter_cons, if_pos (decide_eq_true hready), List.take_succ_cons, ih]
  | case4 room info fds hother ih =>
    rw [List.filter_cons, if_neg (by simpa using hother), ih]

theorem readyFds_sublist (room : ℕ) (fds : List EpollFdInfo) :
    (readyFds room fds).Sublist fds := by
  rw [readyFds_eq]
  exact (List.take_sublist _ _).trans List.filter_sublist

/-! ### The registration as a set -/

/-- The file descriptors that the first instance with a file descriptor watches. -/
def EpollManager.watched (manager : EpollManager) (epollFd : UInt32) : List ℤ :=
  ((manager.fdsOf epollFd).getD []).map EpollFdInfo.fd

/-- No instance watches a file descriptor twice. -/
def FdsDistinct (manager : EpollManager) : Prop :=
  ∀ epoll ∈ manager.instances, (epoll.fds.map EpollFdInfo.fd).Nodup

/-- The file descriptors that were deleted from an instance and not added again, after a call. -/
def deletedAfter (manager : EpollManager) (call : EpollCall) (deleted : List (UInt32 × ℤ)) :
    List (UInt32 × ℤ) :=
  match call with
  | .ctlAdd epollFd fd event =>
    if (epollCtlAdd manager epollFd fd event).2 = 0 then
      deleted.filter fun entry ↦ entry ≠ (epollFd.toUInt32, fd)
    else deleted
  | .ctlDel epollFd fd =>
    if (epollCtlDel manager epollFd fd).2 = 0 then (epollFd.toUInt32, fd) :: deleted else deleted
  | _ => deleted

/-- What is asked of a call: adding a file descriptor that is watched fails, and what is reported is
reported once and was not deleted. -/
def RegistersAsSet (traced : EpollManager × List (UInt32 × ℤ)) : EpollCall → Prop
  | .ctlAdd epollFd fd event =>
    fd ∈ traced.1.watched epollFd.toUInt32 → (epollCtlAdd traced.1 epollFd fd event).2 ≠ 0
  | .wait epollFd maxevents =>
    ∀ reported ∈ reportedFds traced.1 epollFd maxevents,
      (reported.map EpollFdInfo.fd).Nodup ∧
        ∀ info ∈ reported, (epollFd.toUInt32, info.fd) ∉ traced.2
  | _ => True

/-- The condition on a call: a file descriptor is added to an instance with room only when the
instance does not watch it. -/
def EpollCall.AddsNew (manager : EpollManager) : EpollCall → Prop
  | .ctlAdd epollFd fd _ =>
    0 < epollFd ∧ 0 ≤ fd ∧ (manager.watched epollFd.toUInt32).length < maxEpollFds →
      fd ∉ manager.watched epollFd.toUInt32
  | _ => True

/-- No instance watches a file descriptor twice, and none watches one that was deleted. -/
structure WatchesSet (manager : EpollManager) (deleted : List (UInt32 × ℤ)) : Prop where
  distinct : FdsDistinct manager
  absent : ∀ entry ∈ deleted, entry.2 ∉ manager.watched entry.1

variable {deleted later : List (UInt32 × ℤ)}

theorem watched_of_fdsOf (hfds : manager.fdsOf key = some fds) :
    manager.watched key = fds.map EpollFdInfo.fd := by
  rw [EpollManager.watched, hfds]
  rfl

theorem watched_setFds_self (hfds : manager.fdsOf key = some fds) :
    (manager.setFds key new).watched key = new.map EpollFdInfo.fd := by
  refine watched_of_fdsOf ?_
  rw [fdsOf_setFds, if_pos rfl, hfds]
  rfl

theorem watched_setFds_of_ne {other : UInt32} (hother : other ≠ key) :
    (manager.setFds key new).watched other = manager.watched other := by
  rw [EpollManager.watched, EpollManager.watched, fdsOf_setFds, if_neg hother]

/-- What a found instance watches is distinct. -/
theorem FdsDistinct.of_fdsOf (hdistinct : FdsDistinct manager)
    (hfds : manager.fdsOf key = some fds) : (fds.map EpollFdInfo.fd).Nodup := by
  obtain ⟨epoll, hfind, rfl⟩ := Option.map_eq_some_iff.mp hfds
  exact hdistinct epoll (List.mem_of_find?_eq_some hfind)

/-- One instance watches other entries. -/
theorem WatchesSet.setFds (hset : WatchesSet manager deleted)
    (hfds : manager.fdsOf key = some fds) (hnew : (new.map EpollFdInfo.fd).Nodup)
    (hself : ∀ fd, (key, fd) ∈ later → fd ∉ new.map EpollFdInfo.fd)
    (hothers : ∀ entry ∈ later, entry.1 ≠ key → entry ∈ deleted) :
    WatchesSet (manager.setFds key new) later := by
  refine ⟨?_, fun entry hentry ↦ ?_⟩
  · exact (forall_mem_updateFirst_iff hset.distinct).mpr fun epoll _ ↦ hnew
  · by_cases hkey : entry.1 = key
    · rw [hkey, watched_setFds_self hfds]
      exact hself entry.2 (hkey ▸ hentry)
    · rw [watched_setFds_of_ne hkey]
      exact hset.absent entry (hothers entry hentry hkey)

/-- A change of entries that keeps their file descriptors. -/
theorem WatchesSet.onFds (hset : WatchesSet manager deleted) (epollFd : Int32) (fd : ℤ)
    {change : List EpollFdInfo → List EpollFdInfo}
    (hkeep : ∀ fds, (change fds).map EpollFdInfo.fd = fds.map EpollFdInfo.fd) :
    WatchesSet (manager.onFds epollFd fd change).1 deleted := by
  rcases manager.onFds_cases epollFd fd change with hrefused | ⟨fds, hfds, hserved⟩
  · rw [hrefused]
    exact hset
  · rw [hserved]
    refine hset.setFds hfds ?_ (fun other hother ↦ ?_) fun entry hentry _ ↦ hentry
    · rw [hkeep]
      exact hset.distinct.of_fdsOf hfds
    · rw [hkeep, ← watched_of_fdsOf hfds]
      exact hset.absent _ hother

theorem WatchesSet.createInstance (hset : WatchesSet manager deleted) :
    WatchesSet (epollCreate manager).1 deleted := by
  rw [epollCreate, epollCreateInstance]
  split_ifs with hfull
  · exact hset
  · refine ⟨?_, fun entry hentry ↦ ?_⟩
    · refine List.forall_mem_append.mpr ⟨hset.distinct, List.forall_mem_singleton.mpr ?_⟩
      exact List.nodup_nil
    · have habsent := hset.absent entry hentry
      rw [EpollManager.watched, EpollManager.fdsOf] at habsent ⊢
      rw [List.find?_append]
      cases hfind : manager.instances.find? fun epoll ↦ epoll.epollFd = entry.1 with
      | some epoll =>
        rw [hfind] at habsent
        exact habsent
      | none =>
        rw [Option.none_or, List.find?_singleton]
        split_ifs
        · exact List.not_mem_nil
        · exact List.not_mem_nil

theorem WatchesSet.ctlAdd (hset : WatchesSet manager deleted) (epollFd : Int32) (fd : ℤ)
    (event : EpollEventData) (hnew : (EpollCall.ctlAdd epollFd fd event).AddsNew manager) :
    WatchesSet (epollStep manager (.ctlAdd epollFd fd event))
      (deletedAfter manager (.ctlAdd epollFd fd event) deleted) := by
  rw [epollStep, deletedAfter]
  rcases epollCtlAdd_cases manager epollFd fd event with
    hrefused | ⟨hepollFd, hfd, fds, hfds, hroom, hserved⟩
  · rw [hrefused, if_neg (show ¬ (-1 : Int) = 0 by decide)]
    exact hset
  · rw [hserved, if_pos rfl]
    rw [EpollCall.AddsNew, watched_of_fdsOf hfds, List.length_map] at hnew
    have habsent := hnew ⟨hepollFd, hfd, hroom⟩
    refine hset.setFds hfds ?_ (fun other hother ↦ ?_) fun entry hentry _ ↦
      List.mem_of_mem_filter hentry
    · refine (nodup_map_concat_iff (hset.distinct.of_fdsOf hfds)).mpr fun info hinfo hsame ↦ ?_
      exact habsent (List.mem_map.mpr ⟨info, hinfo, hsame⟩)
    · obtain ⟨hold, hne⟩ := List.mem_filter.mp hother
      have hwatched := hset.absent _ hold
      rw [watched_of_fdsOf hfds] at hwatched
      rw [List.map_append, List.mem_append, not_or]
      refine ⟨hwatched, fun hmem ↦ ?_⟩
      rw [List.map_singleton, List.mem_singleton] at hmem
      exact absurd (congrArg (Prod.mk epollFd.toUInt32) hmem) (of_decide_eq_true hne)

theorem WatchesSet.ctlDel (hset : WatchesSet manager deleted) (epollFd : Int32) (fd : ℤ) :
    WatchesSet (epollStep manager (.ctlDel epollFd fd))
      (deletedAfter manager (.ctlDel epollFd fd) deleted) := by
  rw [epollStep, deletedAfter, epollCtlDel]
  rcases manager.onFds_cases epollFd fd (List.eraseP fun info ↦ info.fd = fd) with
    hrefused | ⟨fds, hfds, hserved⟩
  · rw [hrefused, if_neg (show ¬ (-1 : Int) = 0 by decide)]
    exact hset
  · rw [hserved, if_pos rfl]
    have hdistinct := hset.distinct.of_fdsOf hfds
    refine hset.setFds hfds (nodup_map_eraseP hdistinct) (fun other hother ↦ ?_)
      fun entry hentry hkey ↦ ?_
    · rw [eraseP_key_eq_filter hdistinct]
      intro hmem
      obtain ⟨info, hinfo, rfl⟩ := List.mem_map.mp hmem
      obtain ⟨hold, hne⟩ := List.mem_filter.mp hinfo
      rcases List.mem_cons.mp hother with hsame | hearlier
      · exact of_decide_eq_true hne (congrArg Prod.snd hsame)
      · have hwatched := hset.absent _ hearlier
        rw [watched_of_fdsOf hfds] at hwatched
        exact hwatched (List.mem_map_of_mem hold)
    · rcases List.mem_cons.mp hentry with hsame | hearlier
      · exact absurd (congrArg Prod.fst hsame) hkey
      · exact hearlier

/-- A call that adds only what is not watched keeps the registration a set. -/
theorem watchesSet_step (hset : WatchesSet manager deleted) (call : EpollCall)
    (hnew : call.AddsNew manager) :
    WatchesSet (epollStep manager call) (deletedAfter manager call deleted) := by
  cases call with
  | createInstance => exact hset.createInstance
  | ctlAdd epollFd fd event => exact hset.ctlAdd epollFd fd event hnew
  | ctlMod epollFd fd event =>
    exact hset.onFds epollFd fd fun fds ↦ map_updateFirst fun _ _ ↦ rfl
  | ctlDel epollFd fd => exact hset.ctlDel epollFd fd
  | setEdgeTriggered epollFd fd edgeTriggered =>
    exact hset.onFds epollFd fd fun fds ↦ map_updateFirst fun _ _ ↦ rfl
  | setOneshot epollFd fd oneshot =>
    exact hset.onFds epollFd fd fun fds ↦ map_updateFirst fun _ _ ↦ rfl
  | wait epollFd maxevents => exact hset

/-- Adding fails for what is watched exactly when only what is not watched is added. -/
theorem registersAsSet_ctlAdd_iff (manager : EpollManager) (deleted : List (UInt32 × ℤ))
    (epollFd : Int32) (fd : ℤ) (event : EpollEventData) :
    RegistersAsSet (manager, deleted) (.ctlAdd epollFd fd event) ↔
      (EpollCall.ctlAdd epollFd fd event).AddsNew manager := by
  rw [RegistersAsSet, EpollCall.AddsNew]
  constructor
  · rintro hfails ⟨hepollFd, hfd, hroom⟩ hwatched
    refine hfails hwatched ?_
    have hvalid : ¬ (epollFd ≤ 0 ∨ fd < 0) := 
      not_or.mpr ⟨Int32.not_le.mpr hepollFd, Int.not_lt.mpr hfd⟩
    rw [epollCtlAdd, if_neg hvalid]
    cases hfds : manager.fdsOf epollFd.toUInt32 with
    | none =>
      rw [EpollManager.watched, hfds] at hwatched
      exact absurd hwatched List.not_mem_nil
    | some fds =>
      rw [watched_of_fdsOf hfds, List.length_map] at hroom
      dsimp only
      rw [if_neg (Nat.not_le.mpr hroom)]
  · intro hnew hwatched
    rcases epollCtlAdd_cases manager epollFd fd event with
      hrefused | ⟨hepollFd, hfd, fds, hfds, hroom, -⟩
    · rw [hrefused]
      exact show ¬ (-1 : Int) = 0 by decide
    · refine absurd hwatched (hnew ⟨hepollFd, hfd, ?_⟩)
      rw [watched_of_fdsOf hfds, List.length_map]
      exact hroom

/-- From a set, everything is reported once and nothing that was deleted. -/
theorem WatchesSet.wait (hset : WatchesSet manager deleted) (epollFd : Int32) (maxevents : ℤ) :
    RegistersAsSet (manager, deleted) (.wait epollFd maxevents) := by
  intro reported hreported
  rw [reportedFds] at hreported
  split_ifs at hreported
  · exact absurd hreported (Option.not_mem_none _)
  · obtain ⟨fds, hfds, rfl⟩ := Option.map_eq_some_iff.mp hreported
    have hsublist := (readyFds_sublist maxevents.toNat fds).map EpollFdInfo.fd
    refine ⟨(hset.distinct.of_fdsOf hfds).sublist hsublist, fun info hinfo hdeleted ↦ ?_⟩
    refine hset.absent _ hdeleted ?_
    rw [watched_of_fdsOf hfds]
    exact hsublist.subset (List.mem_map_of_mem hinfo)

/-- Over every run no instance watches a file descriptor twice, adding a watched one fails, and what
is reported is reported once and was not deleted, exactly when no call adds a watched one. -/
theorem registersAsSet_iff (nextEpollFd : UInt32) (calls : List EpollCall) :
    AlongRun epollStep FdsDistinct (epollManagerCreate nextEpollFd) calls ∧
        EveryStep (withTrace epollStep deletedAfter) RegistersAsSet
          (epollManagerCreate nextEpollFd, []) calls ↔
      EveryStep epollStep EpollCall.AddsNew (epollManagerCreate nextEpollFd) calls := by
  have hstart : WatchesSet (epollManagerCreate nextEpollFd) [] :=
    ⟨List.forall_mem_nil _, List.forall_mem_nil _⟩
  have hdistinct : AlongRun (withTrace epollStep deletedAfter) (fun traced ↦ FdsDistinct traced.1)
      (epollManagerCreate nextEpollFd, []) calls ↔ AlongRun epollStep FdsDistinct
        (epollManagerCreate nextEpollFd) calls := alongRun_withTrace
  have hnew : EveryStep (withTrace epollStep deletedAfter)
      (fun traced call ↦ EpollCall.AddsNew traced.1 call) (epollManagerCreate nextEpollFd, [])
      calls ↔ EveryStep epollStep EpollCall.AddsNew (epollManagerCreate nextEpollFd) calls :=
    everyStep_withTrace
  refine (and_congr_left' hdistinct).symm.trans (Iff.trans ?_ hnew)
  refine alongRun_and_everyStep_iff_of_kept
    (fun traced : EpollManager × List (UInt32 × ℤ) ↦ WatchesSet traced.1 traced.2)
    (fun _ _ ↦ True) ?_ ?_ ?_ hstart (fun _ _ _ ↦ trivial)
  · exact fun traced call hset _ hcall ↦ watchesSet_step hset call hcall
  · exact fun traced hset ↦ hset.distinct
  · intro traced call hset _
    constructor
    · rintro ⟨-, htransition⟩
      cases call with
      | ctlAdd epollFd fd event => exact (registersAsSet_ctlAdd_iff _ _ _ _ _).mp htransition
      | _ => exact trivial
    · intro hcall
      refine ⟨(watchesSet_step hset call hcall).distinct, ?_⟩
      cases call with
      | ctlAdd epollFd fd event => exact (registersAsSet_ctlAdd_iff _ _ _ _ _).mpr hcall
      | wait epollFd maxevents => exact hset.wait epollFd maxevents
      | _ => exact trivial

/-- A file descriptor is added twice. -/
theorem not_fdsDistinct_added_twice :
    ¬ AlongRun epollStep FdsDistinct (epollManagerCreate 1)
      [.createInstance, .ctlAdd 1 5 { events := 1, ptr := 0, fd := 5, data := 0 },
        .ctlAdd 1 5 { events := 1, ptr := 0, fd := 5, data := 0 }] := by
  intro halong
  have hdistinct := halong _ (List.prefix_refl _)
  rw [FdsDistinct] at hdistinct
  revert hdistinct
  decide

end OneOS.Multiplexing
