import Mathlib.Data.List.ReduceOption
import OneOS.Foundation.Runs
import OneOS.Multiplexing.EventReactor

/-!
# Events are delivered once

The ring is to hold what is waiting: at most as many events as it has slots, from the front to the
rear (`RingBounded`), and `event_process_queue` is to call the handler of every event that waits for
a source that stays registered, once and in the order in which they were queued (`Delivers`). What
is awaited is recorded over a run (`awaitedAfter`): the call that each waiting event is to lead to,
or none when its source was unregistered or registered again.

The calls that queue an event do not look whether the ring has room. `deliversOnce_iff` says that as
long as ids of sources are not given again, nothing else goes wrong.
-/

set_option autoImplicit false
set_option relaxedAutoImplicit false

namespace OneOS.Multiplexing

open Foundation

/-! ### What is awaited -/

/-- The events that wait in the ring. -/
def EventReactor.waiting (reactor : EventReactor) : List Event :=
  ringOf reactor.eventQueue maxEventsPerPoll reactor.eventQueueFront reactor.pendingEvents.toNat

/-- The ring holds no more than it has slots, from the front to the rear. -/
structure RingBounded (reactor : EventReactor) : Prop where
  pending_le : reactor.pendingEvents.toNat ≤ maxEventsPerPoll
  rear_eq : reactor.eventQueueRear =
    (reactor.eventQueueFront + reactor.pendingEvents.toNat) % maxEventsPerPoll

/-- What is awaited when a file descriptor is unregistered or registered again. -/
def forgetFd (fd : ℤ) (awaited : List (Option HandlerCall)) : List (Option HandlerCall) :=
  awaited.map (Option.filter fun call ↦ call.fd ≠ fd)

/-- For every waiting event the call that it is to lead to, after a call. -/
def awaitedAfter (reactor : EventReactor) (call : ReactorCall)
    (awaited : List (Option HandlerCall)) : List (Option HandlerCall) :=
  match call with
  | .register fd type handler userData =>
    if (eventRegister reactor fd type handler userData).2 = none then awaited
    else forgetFd fd awaited
  | .unregister fd => if (eventUnregister reactor fd).2 = 0 then forgetFd fd awaited else awaited
  | .dispatch =>
    awaited ++ (dispatchSources maxEventsPerPoll reactor.eventSources).2.map fun source ↦
      some (source.call source.eventType)
  | .triggerCustom sourceId =>
    awaited ++ (reactor.sourceOf sourceId).toList.map fun source ↦ some (source.call .custom)
  | .handleTimeout sourceId =>
    awaited ++ (reactor.sourceOf sourceId).toList.map fun source ↦ some (source.call .timeout)
  | .processQueue => awaited.drop maxEventsPerPoll
  | .modify _ _ _ => awaited
  | .setOneshot _ _ => awaited

/-- The handlers that are called are those that are awaited, each once and in order. -/
def Delivers (traced : EventReactor × List (Option HandlerCall)) : ReactorCall → Prop
  | .processQueue => (eventProcessQueue traced.1).2 = traced.2.reduceOption
  | _ => True

/-- The condition on a call: the ring has room for what it queues. -/
def ReactorCall.Fits (reactor : EventReactor) : ReactorCall → Prop
  | .dispatch =>
    reactor.pendingEvents.toNat +
      min maxEventsPerPoll (reactor.eventSources.countP fun source ↦ source.state = .registered) ≤
        maxEventsPerPoll
  | .triggerCustom sourceId =>
    reactor.sourceOf sourceId ≠ none → reactor.pendingEvents.toNat < maxEventsPerPoll
  | .handleTimeout sourceId =>
    reactor.sourceOf sourceId ≠ none → reactor.pendingEvents.toNat < maxEventsPerPoll
  | _ => True

/-- Ids are not given again: a source that is registered gets an id that no other source has and no
waiting event names. -/
def ReactorCall.FreshId (reactor : EventReactor) : ReactorCall → Prop
  | .register fd _ handler _ =>
    handler ≠ 0 ∧ 0 ≤ fd ∧ reactor.eventSources.length < maxEventSources →
      (∀ source ∈ reactor.eventSources, source.fd ≠ fd →
        source.eventSourceId ≠ reactor.nextEventSourceId) ∧
      ∀ event ∈ reactor.waiting, event.sourceId ≠ reactor.nextEventSourceId
  | _ => True

variable {reactor after : EventReactor} {awaited : List (Option HandlerCall)}

/-! ### Sources -/

/-- File descriptors and ids are distinct, and every source has a handler. -/
structure SourcesDistinct (reactor : EventReactor) : Prop where
  fds : (reactor.eventSources.map EventSource.fd).Nodup
  ids : (reactor.eventSources.map EventSource.eventSourceId).Nodup
  handlers : ∀ source ∈ reactor.eventSources, source.handler ≠ 0

/-- What depends on the faces of the sources only. -/
theorem SourcesDistinct.congr (hdistinct : SourcesDistinct reactor)
    (hfaces : after.eventSources.map EventSource.face = reactor.eventSources.map EventSource.face) :
    SourcesDistinct after := by
  have hread : ∀ {Reading : Type} (reading : UInt32 × ℕ × ℤ × ℕ → Reading),
      after.eventSources.map (reading ∘ EventSource.face) =
        reactor.eventSources.map (reading ∘ EventSource.face) := by
    intro Reading reading
    rw [← List.map_map, hfaces, List.map_map]
  refine ⟨?_, ?_, ?_⟩
  · exact (hread fun face ↦ face.2.2.1).symm ▸ hdistinct.fds
  · exact (hread fun face ↦ face.1).symm ▸ hdistinct.ids
  · have hall : ∀ handler ∈ reactor.eventSources.map EventSource.handler, handler ≠ 0 :=
      List.forall_mem_map.mpr hdistinct.handlers
    have hhandlers : after.eventSources.map EventSource.handler =
        reactor.eventSources.map EventSource.handler := hread fun face ↦ face.2.1
    rw [← hhandlers] at hall
    exact fun source hsource ↦ hall source.handler (List.mem_map_of_mem hsource)

/-- The call for an event in terms of its source. -/
theorem SourcesDistinct.callFor_eq (hdistinct : SourcesDistinct reactor) (event : Event) :
    reactor.callFor event =
      (reactor.sourceOf event.sourceId).map fun source ↦ source.call event.type := by
  rw [EventReactor.callFor]
  cases hfind : reactor.sourceOf event.sourceId with
  | none => rfl
  | some source => exact if_neg (hdistinct.handlers source (List.mem_of_find?_eq_some hfind))

/-- When the sources with a file descriptor are no longer found by an id, the event leads to no call
of theirs. -/
theorem callFor_of_sourceOf (hdistinct : SourcesDistinct reactor) (hafter : SourcesDistinct after)
    {fd : ℤ} {event : Event}
    (hsource : after.sourceOf event.sourceId =
      (reactor.sourceOf event.sourceId).filter fun source ↦ source.fd ≠ fd) :
    after.callFor event = (reactor.callFor event).filter fun call ↦ call.fd ≠ fd := by
  rw [hafter.callFor_eq, hdistinct.callFor_eq, hsource]
  cases reactor.sourceOf event.sourceId with
  | none => rfl
  | some source =>
    by_cases hfd : source.fd = fd
    · simp [Option.filter, EventSource.call, hfd]
    · simp [Option.filter, EventSource.call, hfd]

/-! ### Registering and unregistering -/

section Registration

variable (hdistinct : SourcesDistinct reactor)
include hdistinct

/-- Erasing the source with a file descriptor. -/
theorem SourcesDistinct.eraseFd (fd : ℤ) :
    SourcesDistinct { reactor with
      eventSources := reactor.eventSources.eraseP fun source ↦ source.fd = fd } where
  fds := nodup_map_eraseP hdistinct.fds
  ids := nodup_map_eraseP hdistinct.ids
  handlers := fun source hsource ↦ hdistinct.handlers source (List.mem_of_mem_eraseP hsource)

theorem sourceOf_eraseFd (fd : ℤ) (sourceId : UInt32) :
    EventReactor.sourceOf { reactor with
      eventSources := reactor.eventSources.eraseP fun source ↦ source.fd = fd } sourceId =
      (reactor.sourceOf sourceId).filter fun source ↦ source.fd ≠ fd := by
  rw [EventReactor.sourceOf, eraseP_key_eq_filter hdistinct.fds]
  exact find?_key_filter hdistinct.ids _

variable {source : EventSource} (hhandler : source.handler ≠ 0)
  (hfresh : ∀ other ∈ reactor.eventSources, other.fd ≠ source.fd →
    other.eventSourceId ≠ source.eventSourceId)
include hhandler hfresh

/-- A source takes the place of the one with its file descriptor. -/
theorem SourcesDistinct.replaceFd :
    SourcesDistinct { reactor with
      eventSources := updateFirst (fun other ↦ other.fd = source.fd) (fun _ ↦ source)
        reactor.eventSources } := by
  refine ⟨?_, ?_, ?_⟩
  · have hfds : (updateFirst (fun other ↦ other.fd = source.fd) (fun _ ↦ source)
        reactor.eventSources).map EventSource.fd = reactor.eventSources.map EventSource.fd :=
      map_updateFirst fun other hother ↦ (of_decide_eq_true hother).symm
    exact hfds ▸ hdistinct.fds
  · dsimp only
    rw [updateFirst_key_eq_map hdistinct.fds, List.map_map]
    refine hdistinct.fds.of_map.map_on fun first hfirst second hsecond hsame ↦ ?_
    dsimp only [Function.comp_apply] at hsame
    split_ifs at hsame with hfd hfd' hfd'
    · exact List.inj_on_of_nodup_map hdistinct.fds hfirst hsecond (hfd.trans hfd'.symm)
    · exact absurd hsame.symm (hfresh second hsecond hfd')
    · exact absurd hsame (hfresh first hfirst hfd)
    · exact List.inj_on_of_nodup_map hdistinct.ids hfirst hsecond hsame
  · dsimp only
    rw [updateFirst_key_eq_map hdistinct.fds]
    refine List.forall_mem_map.mpr fun other hother ↦ ?_
    split_ifs
    · exact hhandler
    · exact hdistinct.handlers other hother

/-- A source with a new file descriptor is appended. -/
theorem SourcesDistinct.appendFd (hnew : ∀ other ∈ reactor.eventSources, other.fd ≠ source.fd) :
    SourcesDistinct { reactor with eventSources := reactor.eventSources ++ [source] } := by
  refine ⟨(nodup_map_concat_iff hdistinct.fds).mpr hnew,
    (nodup_map_concat_iff hdistinct.ids).mpr fun other hother ↦
      hfresh other hother (hnew other hother), ?_⟩
  exact List.forall_mem_append.mpr ⟨hdistinct.handlers, List.forall_mem_singleton.mpr hhandler⟩

end Registration

theorem SourcesDistinct.register (hdistinct : SourcesDistinct reactor) {source : EventSource}
    (hhandler : source.handler ≠ 0)
    (hfresh : ∀ other ∈ reactor.eventSources, other.fd ≠ source.fd →
      other.eventSourceId ≠ source.eventSourceId) :
    SourcesDistinct { reactor with
      eventSources := registerSource source reactor.eventSources } := by
  rw [registerSource]
  split_ifs with hany
  · exact hdistinct.replaceFd hhandler hfresh
  · exact hdistinct.appendFd hhandler hfresh (by simpa using hany)

/-- By another id, the sources with other file descriptors are found as before. -/
theorem sourceOf_register (hdistinct : SourcesDistinct reactor) (source : EventSource)
    {sourceId : UInt32} (hother : source.eventSourceId ≠ sourceId) :
    EventReactor.sourceOf { reactor with
      eventSources := registerSource source reactor.eventSources } sourceId =
      (reactor.sourceOf sourceId).filter fun other ↦ other.fd ≠ source.fd := by
  have hfilter : (reactor.eventSources.filter fun other ↦ ¬ other.fd = source.fd).find?
      (fun other ↦ other.eventSourceId = sourceId) =
        (reactor.sourceOf sourceId).filter fun other ↦ other.fd ≠ source.fd :=
    find?_key_filter hdistinct.ids _
  rw [EventReactor.sourceOf, registerSource, ← hfilter]
  split_ifs with hany
  · rw [updateFirst_key_eq_map hdistinct.fds]
    exact find?_key_map_replace hother fun other ↦ other.fd = source.fd
  · have hnew : ∀ other ∈ reactor.eventSources, ¬ other.fd = source.fd := by simpa using hany
    rw [List.find?_append, List.filter_eq_self.mpr fun other hmem ↦
      decide_eq_true (hnew other hmem)]
    simp [hother]

/-! ### The ring -/

/-- The ring holds what is waiting, and every waiting event leads to the call that is awaited. -/
structure RingHolds (reactor : EventReactor) (awaited : List (Option HandlerCall)) : Prop where
  distinct : SourcesDistinct reactor
  front_lt : reactor.eventQueueFront < maxEventsPerPoll
  bounded : RingBounded reactor
  waiting : reactor.waiting.map reactor.callFor = awaited

/-- What depends on the ring and the faces of the sources only. -/
theorem RingHolds.congr (hholds : RingHolds reactor awaited) (sources : List EventSource)
    (hfaces : sources.map EventSource.face = reactor.eventSources.map EventSource.face) :
    RingHolds { reactor with eventSources := sources } awaited := by
  have hcalls : EventReactor.callFor { reactor with eventSources := sources } = reactor.callFor :=
    EventReactor.callFor_congr hfaces
  refine ⟨hholds.distinct.congr hfaces, hholds.front_lt,
    ⟨hholds.bounded.pending_le, hholds.bounded.rear_eq⟩, ?_⟩
  rw [hcalls]
  exact hholds.waiting

theorem toNat_pushEvent (hroom : reactor.pendingEvents.toNat < maxEventsPerPoll) (event : Event) :
    (reactor.pushEvent event).pendingEvents.toNat = reactor.pendingEvents.toNat + 1 := by
  rw [maxEventsPerPoll] at hroom
  exact toNat_succ (by omega)

/-- An event that is pushed while there is room is the last one that waits. -/
theorem RingHolds.pushEvent (hholds : RingHolds reactor awaited)
    (hroom : reactor.pendingEvents.toNat < maxEventsPerPoll) (event : Event) :
    RingHolds (reactor.pushEvent event) (awaited ++ [reactor.callFor event]) := by
  have hcount := toNat_pushEvent hroom event
  have hwaiting : (reactor.pushEvent event).waiting = reactor.waiting ++ [event] := by
    rw [EventReactor.waiting, hcount]
    change ringOf (Function.update reactor.eventQueue reactor.eventQueueRear event) _ _ _ = _
    rw [hholds.bounded.rear_eq]
    exact ringOf_push reactor.eventQueue reactor.eventQueueFront event hroom
  refine ⟨hholds.distinct.congr rfl, hholds.front_lt, ⟨?_, ?_⟩, ?_⟩
  · rw [hcount]
    exact hroom
  · rw [hcount]
    change (reactor.eventQueueRear + 1) % maxEventsPerPoll = _
    rw [hholds.bounded.rear_eq, Nat.mod_add_mod]
    rfl
  · rw [hwaiting, List.map_append, ← hholds.waiting]
    rfl

theorem RingHolds.pushEvents {events : List Event} (hholds : RingHolds reactor awaited)
    (hroom : reactor.pendingEvents.toNat + events.length ≤ maxEventsPerPoll) :
    RingHolds (events.foldl EventReactor.pushEvent reactor)
      (awaited ++ events.map reactor.callFor) := by
  induction events generalizing reactor awaited with
  | nil => simpa using hholds
  | cons event events ih =>
    rw [List.length_cons] at hroom
    have hone : reactor.pendingEvents.toNat < maxEventsPerPoll := by omega
    have hpushed := hholds.pushEvent hone event
    have hlater := ih hpushed (by rw [toNat_pushEvent hone]; omega)
    rw [List.append_assoc] at hlater
    exact hlater

/-- Each step of a long push counts one more event. -/
theorem toNat_pushEvents {events : List Event}
    (hroom : reactor.pendingEvents.toNat + events.length < 2 ^ 32) :
    (events.foldl EventReactor.pushEvent reactor).pendingEvents.toNat =
      reactor.pendingEvents.toNat + events.length := by
  induction events generalizing reactor with
  | nil => rfl
  | cons event events ih =>
    rw [List.length_cons] at hroom ⊢
    have hone : (reactor.pushEvent event).pendingEvents.toNat = reactor.pendingEvents.toNat + 1 :=
      toNat_succ (by omega)
    rw [List.foldl_cons, ih (by omega), hone]
    omega

/-! ### What each call does to the ring -/

section Calls

variable (hholds : RingHolds reactor awaited)
include hholds

/-- The sources with a file descriptor are no longer found by the ids of waiting events. -/
theorem RingHolds.forgetFd {fd : ℤ} (hring : after.waiting = reactor.waiting)
    (hfront : after.eventQueueFront = reactor.eventQueueFront) (hbounded : RingBounded after)
    (hdistinct : SourcesDistinct after)
    (hsource : ∀ event ∈ reactor.waiting, after.sourceOf event.sourceId =
      (reactor.sourceOf event.sourceId).filter fun source ↦ source.fd ≠ fd) :
    RingHolds after (forgetFd fd awaited) := by
  refine ⟨hdistinct, hfront ▸ hholds.front_lt, hbounded, ?_⟩
  rw [hring, Multiplexing.forgetFd, ← hholds.waiting, List.map_map]
  refine List.map_congr_left fun event hevent ↦ ?_
  exact callFor_of_sourceOf hholds.distinct hdistinct (hsource event hevent)

theorem ringHolds_register (fd : ℤ) (type : EventType) (handler userData : ℕ)
    (hfresh : (ReactorCall.register fd type handler userData).FreshId reactor) :
    RingHolds (reactorStep reactor (.register fd type handler userData))
      (awaitedAfter reactor (.register fd type handler userData) awaited) := by
  rw [ReactorCall.FreshId] at hfresh
  rw [reactorStep, awaitedAfter]
  rcases eventRegister_cases reactor fd type handler userData with
    hrefused | ⟨hhandler, hfd, hroom, hserved⟩
  · rw [hrefused, if_pos rfl]
    exact hholds
  · obtain ⟨hsources, hevents⟩ := hfresh ⟨hhandler, hfd, hroom⟩
    rw [hserved, if_neg (Option.some_ne_none _)]
    refine hholds.forgetFd rfl rfl ⟨hholds.bounded.pending_le, hholds.bounded.rear_eq⟩ ?_ ?_
    · have hnew : (reactor.newSource fd type handler userData).handler ≠ 0 := hhandler
      exact (hholds.distinct.register hnew hsources).congr rfl
    · intro event hevent
      exact sourceOf_register hholds.distinct (reactor.newSource fd type handler userData)
        (hevents event hevent).symm

theorem ringHolds_unregister (fd : ℤ) :
    RingHolds (reactorStep reactor (.unregister fd))
      (awaitedAfter reactor (.unregister fd) awaited) := by
  rw [reactorStep, awaitedAfter]
  rcases eventUnregister_cases reactor fd with hrefused | hserved
  · rw [hrefused, if_neg (show ¬ (-1 : Int) = 0 by decide)]
    exact hholds
  · rw [hserved, if_pos rfl]
    refine hholds.forgetFd rfl rfl ⟨hholds.bounded.pending_le, hholds.bounded.rear_eq⟩ ?_ ?_
    · exact hholds.distinct.eraseFd fd
    · exact fun event _ ↦ sourceOf_eraseFd hholds.distinct fd event.sourceId

theorem ringHolds_onSource (fd : ℤ) (change : EventSource → EventSource)
    (hface : ∀ source, (change source).face = source.face) :
    RingHolds (reactor.onSource fd change).1 awaited := by
  rcases reactor.onSource_cases fd change with hrefused | hserved
  · rw [hrefused]
    exact hholds
  · rw [hserved]
    exact hholds.congr _ (map_updateFirst fun source _ ↦ hface source)

/-- A source is found by its id. -/
theorem RingHolds.callFor_event {source : EventSource} (hsource : source ∈ reactor.eventSources) :
    reactor.callFor source.event = some (source.call source.eventType) := by
  have hfind : reactor.sourceOf source.event.sourceId = some source :=
    find?_key_of_mem hholds.distinct.ids hsource
  rw [hholds.distinct.callFor_eq, hfind, Option.map_some]
  rfl

theorem ringHolds_dispatch (hfits : ReactorCall.dispatch.Fits reactor) :
    RingHolds (reactorStep reactor .dispatch) (awaitedAfter reactor .dispatch awaited) := by
  have hfound := dispatchSources_snd maxEventsPerPoll reactor.eventSources
  have hfaces : (dispatchSources maxEventsPerPoll reactor.eventSources).1.map EventSource.face =
      reactor.eventSources.map EventSource.face := map_dispatchSources (fun _ ↦ rfl) _ _
  have hsame : EventReactor.callFor { reactor with
      eventSources := (dispatchSources maxEventsPerPoll reactor.eventSources).1 } =
        reactor.callFor := EventReactor.callFor_congr hfaces
  have hcalls : (dispatchSources maxEventsPerPoll reactor.eventSources).2.map (fun source ↦
      some (source.call source.eventType)) =
        ((dispatchSources maxEventsPerPoll reactor.eventSources).2.map EventSource.event).map
          reactor.callFor := by
    rw [List.map_map]
    refine List.map_congr_left fun source hsource ↦ ?_
    rw [hfound] at hsource
    exact (hholds.callFor_event (List.mem_of_mem_filter (List.mem_of_mem_take hsource))).symm
  rw [awaitedAfter, hcalls, ← hsame]
  refine (hholds.congr _ hfaces).pushEvents ?_
  rw [List.length_map, hfound, List.length_take, ← List.countP_eq_length_filter]
  exact hfits

theorem ringHolds_trigger {sourceId : UInt32} (type : EventType)
    (hfits : reactor.sourceOf sourceId ≠ none → reactor.pendingEvents.toNat < maxEventsPerPoll) :
    RingHolds (reactor.trigger sourceId type).1
      (awaited ++ (reactor.sourceOf sourceId).toList.map fun source ↦ some (source.call type)) := by
  rw [EventReactor.trigger]
  cases hfind : reactor.sourceOf sourceId with
  | none => simpa using hholds
  | some source =>
    have hpushed := hholds.pushEvent (hfits (by rw [hfind]; exact Option.some_ne_none source))
      { sourceId := sourceId, type := type }
    rw [hholds.distinct.callFor_eq, hfind] at hpushed
    exact hpushed

/-- As many events wait as calls are awaited. -/
theorem RingHolds.length_awaited : awaited.length = reactor.pendingEvents.toNat := by
  rw [← hholds.waiting, List.length_map, EventReactor.waiting, length_ringOf]

/-- All waiting events are taken out, and the handlers that are called are those awaited. -/
theorem eventProcessQueue_snd : (eventProcessQueue reactor).2 = awaited.reduceOption := by
  have htaken : reactor.taken maxEventsPerPoll = reactor.waiting := by
    rw [EventReactor.taken, Nat.min_eq_left hholds.bounded.pending_le]
    rfl
  rw [eventProcessQueue, processRounds_calls _ _ hholds.front_lt, htaken,
    ← hholds.waiting, List.reduceOption, List.filterMap_map]
  rfl

theorem ringHolds_processQueue :
    RingHolds (reactorStep reactor .processQueue) (awaitedAfter reactor .processQueue awaited) := by
  obtain ⟨hfront, hpending⟩ := processRounds_front maxEventsPerPoll reactor hholds.front_lt
  obtain ⟨-, hrear, -⟩ := processRounds_ring maxEventsPerPoll reactor
  rw [Nat.min_eq_left hholds.bounded.pending_le] at hfront
  rw [Nat.sub_eq_zero_of_le hholds.bounded.pending_le] at hpending
  have hfaces := map_processRounds (fun source : EventSource ↦ (rfl : source.finish.face = _))
    maxEventsPerPoll reactor
  have hempty : awaitedAfter reactor .processQueue awaited = [] := by
    rw [awaitedAfter, List.drop_eq_nil_iff, hholds.length_awaited]
    exact hholds.bounded.pending_le
  refine ⟨hholds.distinct.congr hfaces, ?_, ⟨?_, ?_⟩, ?_⟩
  · rw [reactorStep, eventProcessQueue, hfront]
    exact Nat.mod_lt _ (by decide)
  · rw [reactorStep, eventProcessQueue, hpending]
    exact Nat.zero_le _
  · rw [reactorStep, eventProcessQueue, hpending, hrear, hfront, Nat.add_zero, Nat.mod_mod]
    exact hholds.bounded.rear_eq
  · rw [hempty, reactorStep, eventProcessQueue, EventReactor.waiting, hpending]
    rfl

end Calls

/-- A call that fits and gives a fresh id keeps the ring. -/
theorem ringHolds_step (hholds : RingHolds reactor awaited) (call : ReactorCall)
    (hfresh : call.FreshId reactor) (hfits : call.Fits reactor) :
    RingHolds (reactorStep reactor call) (awaitedAfter reactor call awaited) := by
  cases call with
  | register fd type handler userData =>
    exact ringHolds_register hholds fd type handler userData hfresh
  | unregister fd => exact ringHolds_unregister hholds fd
  | modify fd type flags => exact ringHolds_onSource hholds fd _ fun _ ↦ rfl
  | setOneshot fd oneshot => exact ringHolds_onSource hholds fd _ fun _ ↦ rfl
  | dispatch => exact ringHolds_dispatch hholds hfits
  | triggerCustom sourceId => exact ringHolds_trigger hholds .custom hfits
  | handleTimeout sourceId => exact ringHolds_trigger hholds .timeout hfits
  | processQueue => exact ringHolds_processQueue hholds

/-- A call that does not fit leaves more in the ring than it has slots. -/
theorem fits_of_ringBounded (hholds : RingHolds reactor awaited) (call : ReactorCall)
    (hbounded : RingBounded (reactorStep reactor call)) : call.Fits reactor := by
  have hless := hholds.bounded.pending_le
  have htrigger : ∀ (sourceId : UInt32) (type : EventType),
      RingBounded (reactor.trigger sourceId type).1 → reactor.sourceOf sourceId ≠ none →
        reactor.pendingEvents.toNat < maxEventsPerPoll := by
    intro sourceId type hafter hfind
    obtain ⟨source, hsource⟩ := Option.ne_none_iff_exists'.mp hfind
    rw [EventReactor.trigger, hsource] at hafter
    have hone : (reactor.pendingEvents + 1).toNat = reactor.pendingEvents.toNat + 1 :=
      toNat_succ (by rw [maxEventsPerPoll] at hless; omega)
    have hpending : (reactor.pendingEvents + 1).toNat ≤ maxEventsPerPoll := hafter.pending_le
    omega
  cases call with
  | dispatch =>
    have hfound := dispatchSources_snd maxEventsPerPoll reactor.eventSources
    have hlength : (dispatchSources maxEventsPerPoll reactor.eventSources).2.length =
        min maxEventsPerPoll
          (reactor.eventSources.countP fun source ↦ source.state = .registered) := by
      rw [hfound, List.length_take, ← List.countP_eq_length_filter]
    have hpending := hbounded.pending_le
    rw [reactorStep, eventDispatch, toNat_pushEvents, List.length_map, hlength] at hpending
    · exact hpending
    · rw [List.length_map, hlength]
      have hmin := Nat.min_le_left maxEventsPerPoll
        (reactor.eventSources.countP fun source ↦ source.state = .registered)
      dsimp only
      rw [maxEventsPerPoll] at hless hmin ⊢
      omega
  | triggerCustom sourceId => exact htrigger sourceId .custom hbounded
  | handleTimeout sourceId => exact htrigger sourceId .timeout hbounded
  | _ => exact trivial

/-! ### Every run -/

/-- Assumes: a run in which no id of a source is given again. The ring never holds more than it has
slots, and every event that is queued for a source that stays registered is delivered once and in
order, exactly when every call finds room in the ring for what it queues. -/
theorem deliversOnce_iff (nextEventSourceId : UInt32) (calls : List ReactorCall)
    (hfresh : EveryStep reactorStep (fun reactor call ↦ call.FreshId reactor)
      (eventReactorCreate nextEventSourceId) calls) :
    AlongRun reactorStep RingBounded (eventReactorCreate nextEventSourceId) calls ∧
        EveryStep (withTrace reactorStep awaitedAfter) Delivers
          (eventReactorCreate nextEventSourceId, []) calls ↔
      EveryStep reactorStep (fun reactor call ↦ call.Fits reactor)
        (eventReactorCreate nextEventSourceId) calls := by
  have hstart : RingHolds (eventReactorCreate nextEventSourceId) [] :=
    ⟨⟨List.nodup_nil, List.nodup_nil, List.forall_mem_nil _⟩, show 0 < maxEventsPerPoll by decide,
      ⟨Nat.zero_le _, rfl⟩, rfl⟩
  have hbounded : AlongRun (withTrace reactorStep awaitedAfter) (fun traced ↦ RingBounded traced.1)
      (eventReactorCreate nextEventSourceId, []) calls ↔ AlongRun reactorStep RingBounded
        (eventReactorCreate nextEventSourceId) calls := alongRun_withTrace
  have hfits : EveryStep (withTrace reactorStep awaitedAfter)
      (fun traced call ↦ ReactorCall.Fits traced.1 call)
      (eventReactorCreate nextEventSourceId, []) calls ↔ EveryStep reactorStep
        ReactorCall.Fits (eventReactorCreate nextEventSourceId) calls :=
    everyStep_withTrace
  refine (and_congr_left' hbounded).symm.trans (Iff.trans ?_ hfits)
  refine alongRun_and_everyStep_iff_of_kept
    (fun traced : EventReactor × List (Option HandlerCall) ↦ RingHolds traced.1 traced.2)
    (fun traced (call : ReactorCall) ↦ call.FreshId traced.1) ?_ ?_ ?_ hstart
    (everyStep_withTrace.mpr hfresh)
  · exact fun traced call hholds hcall hfits ↦ ringHolds_step hholds call hcall hfits
  · exact fun traced hholds ↦ hholds.bounded
  · intro traced call hholds hcall
    constructor
    · rintro ⟨hbounded, -⟩
      exact fits_of_ringBounded hholds call hbounded
    · intro hfits
      refine ⟨(ringHolds_step hholds call hcall hfits).bounded, ?_⟩
      cases call with
      | processQueue => exact eventProcessQueue_snd hholds
      | _ => exact trivial

/-- Two sources are registered and queued, one of them is triggered as well, and the three events
are processed. -/
theorem deliversOnce_two_sources :
    EveryStep (withTrace reactorStep awaitedAfter) Delivers (eventReactorCreate 1, [])
      [.register 3 .read 10 0, .register 4 .write 11 0, .dispatch, .triggerCustom 1,
        .processQueue] := by
  refine ((deliversOnce_iff 1 _ ?_).mpr ?_).2
  · simp only [everyStep_cons, everyStep_nil, ReactorCall.FreshId]
    decide +kernel
  · simp only [everyStep_cons, everyStep_nil, ReactorCall.Fits]
    decide +kernel

/-- Every one of many triggers of a source queues an event. -/
theorem toNat_triggers {sourceId : UInt32} {count : ℕ} (hsource : reactor.sourceOf sourceId ≠ none)
    (hroom : reactor.pendingEvents.toNat + count < 2 ^ 32) :
    (runFrom reactorStep reactor
      (List.replicate count (.triggerCustom sourceId))).pendingEvents.toNat =
        reactor.pendingEvents.toNat + count := by
  induction count generalizing reactor with
  | zero => rfl
  | succ count ih =>
    obtain ⟨source, hfind⟩ := Option.ne_none_iff_exists'.mp hsource
    have hstep : reactorStep reactor (.triggerCustom sourceId) =
        reactor.pushEvent { sourceId := sourceId, type := .custom } := by
      rw [reactorStep, eventTriggerCustom, EventReactor.trigger, hfind]
    have hone : (reactor.pushEvent { sourceId := sourceId, type := .custom }).pendingEvents.toNat =
        reactor.pendingEvents.toNat + 1 := toNat_succ (by omega)
    have hstill : (reactor.pushEvent { sourceId := sourceId, type := .custom }).sourceOf sourceId ≠
        none := hsource
    rw [List.replicate_succ, runFrom_cons, hstep, ih hstill (by omega), hone]
    omega

/-- A source is triggered once more than the ring has slots. -/
theorem not_ringBounded_triggered :
    ¬ AlongRun reactorStep RingBounded (eventReactorCreate 1)
      (.register 3 .read 10 0 :: List.replicate 4097 (.triggerCustom 1)) := by
  intro halong
  have hpending := (halong _ (List.prefix_refl _)).pending_le
  rw [runFrom_cons, toNat_triggers (by decide) (by decide)] at hpending
  exact absurd hpending (by decide)

end OneOS.Multiplexing
