import Mathlib.Logic.Function.Basic
import OneOS.Foundation.Counters
import OneOS.Foundation.Ring
import OneOS.Foundation.Table

/-!
# The event reactor

`async-io-multiplexing/event_reactor.c`: sources of events, found by their file descriptor or by
their id, and one ring of events. Three calls put events into the ring and one call takes them out
and calls the handlers. A source is unregistered by shifting those behind it down.

A handler and its data are given by their addresses, of which 0 is `NULL`. Handlers do not call the
reactor. Left out are the checks of pointers, edge triggering, times, the count of events of a
source, the id, the file descriptor and the flags of an event and the metrics, which no modelled
function reads.
-/

set_option autoImplicit false
set_option relaxedAutoImplicit false

namespace OneOS.Multiplexing

open Foundation

/-! ### Sources and events -/

/-- `MAX_EVENT_SOURCES`. -/
def maxEventSources : ℕ := 8192

/-- `MAX_EVENTS_PER_POLL`, the number of slots of the ring. -/
def maxEventsPerPoll : ℕ := 4096

/-- `EventType`. -/
inductive EventType
  | read
  | write
  | error
  | timeout
  | signal
  | custom
  deriving DecidableEq, Repr

/-- `EventState`. -/
inductive EventState
  | inactive
  | registered
  | fired
  | processing
  | ready
  deriving DecidableEq, Repr

/-- `EventSource`. -/
structure EventSource where
  eventSourceId : UInt32
  fd : ℤ
  eventType : EventType
  state : EventState
  handler : ℕ
  userData : ℕ
  isOneshot : UInt8
  deriving DecidableEq, Repr

/-- `Event`. -/
structure Event where
  sourceId : UInt32
  type : EventType
  deriving DecidableEq, Repr

/-- `EventReactor`, with the used rows of its sources as a list, and the counter that numbers
sources. -/
structure EventReactor where
  eventSources : List EventSource
  eventQueue : ℕ → Event
  eventQueueFront : ℕ
  eventQueueRear : ℕ
  pendingEvents : UInt32
  nextEventSourceId : UInt32

/-- `event_reactor_create`. The counter is shared by all reactors of a process and keeps its
value. -/
def eventReactorCreate (nextEventSourceId : UInt32) : EventReactor where
  eventSources := []
  eventQueue := fun _ ↦ { sourceId := 0, type := .read }
  eventQueueFront := 0
  eventQueueRear := 0
  pendingEvents := 0
  nextEventSourceId := nextEventSourceId

/-- A call of a handler. -/
structure HandlerCall where
  handler : ℕ
  fd : ℤ
  type : EventType
  userData : ℕ
  deriving DecidableEq, Repr

/-! ### Registration -/

/-- The source that `event_register` writes. -/
def EventReactor.newSource (reactor : EventReactor) (fd : ℤ) (type : EventType)
    (handler userData : ℕ) : EventSource where
  eventSourceId := reactor.nextEventSourceId
  fd := fd
  eventType := type
  state := .registered
  handler := handler
  userData := userData
  isOneshot := 0

/-- The sources after a source is registered. One with its file descriptor is overwritten. -/
def registerSource (source : EventSource) (sources : List EventSource) : List EventSource :=
  if sources.any fun other ↦ other.fd = source.fd then
    updateFirst (fun other ↦ other.fd = source.fd) (fun _ ↦ source) sources
  else sources ++ [source]

/-- `event_register`, returning the id, or none for -1. -/
def eventRegister (reactor : EventReactor) (fd : ℤ) (type : EventType) (handler userData : ℕ) :
    EventReactor × Option UInt32 :=
  if handler = 0 ∨ fd < 0 then (reactor, none)
  else if maxEventSources ≤ reactor.eventSources.length then (reactor, none)
  else
    let source := reactor.newSource fd type handler userData
    ({ reactor with
      eventSources := registerSource source reactor.eventSources
      nextEventSourceId := reactor.nextEventSourceId + 1 }, some source.eventSourceId)

/-- `event_unregister`. -/
def eventUnregister (reactor : EventReactor) (fd : ℤ) : EventReactor × Int :=
  if fd < 0 then (reactor, -1)
  else if reactor.eventSources.any fun source ↦ source.fd = fd then
    ({ reactor with
      eventSources := reactor.eventSources.eraseP fun source ↦ source.fd = fd }, 0)
  else (reactor, -1)

/-- What is done to the first source with a file descriptor. -/
def EventReactor.onSource (reactor : EventReactor) (fd : ℤ) (change : EventSource → EventSource) :
    EventReactor × Int :=
  if fd < 0 then (reactor, -1)
  else if reactor.eventSources.any fun source ↦ source.fd = fd then
    ({ reactor with
      eventSources := updateFirst (fun source ↦ source.fd = fd) change reactor.eventSources }, 0)
  else (reactor, -1)

/-- `event_modify`. -/
def eventModify (reactor : EventReactor) (fd : ℤ) (type : EventType) (flags : UInt32) :
    EventReactor × Int :=
  reactor.onSource fd fun source ↦
    { source with
      eventType := type
      isOneshot := if flags &&& 0x01 ≠ 0 then 1 else source.isOneshot }

/-- `event_set_oneshot`. -/
def eventSetOneshot (reactor : EventReactor) (fd : ℤ) (oneshot : UInt8) : EventReactor × Int :=
  reactor.onSource fd ({ · with isOneshot := oneshot })

/-! ### The ring of events -/

/-- The reactor after an event is written to the rear of the ring. Whether the ring is full is not
looked at. -/
def EventReactor.pushEvent (reactor : EventReactor) (event : Event) : EventReactor :=
  { reactor with
    eventQueue := Function.update reactor.eventQueue reactor.eventQueueRear event
    eventQueueRear := (reactor.eventQueueRear + 1) % maxEventsPerPoll
    pendingEvents := reactor.pendingEvents + 1 }

/-- The event that `event_dispatch` writes for a source. -/
def EventSource.event (source : EventSource) : Event where
  sourceId := source.eventSourceId
  type := source.eventType

/-- The loop of `event_dispatch` over the sources, with the number of events that may still be
found: the sources after it, and the sources for which an event is written. -/
def dispatchSources : ℕ → List EventSource → List EventSource × List EventSource
  | 0, sources => (sources, [])
  | _ + 1, [] => ([], [])
  | room + 1, source :: sources =>
    if source.state = .registered then
      let (rest, found) := dispatchSources room sources
      ({ source with state := .ready } :: rest, source :: found)
    else
      let (rest, found) := dispatchSources (room + 1) sources
      (source :: rest, found)

/-- `event_dispatch`, returning the number of events. The time is an argument that is not read. -/
def eventDispatch (reactor : EventReactor) : EventReactor × ℕ :=
  let (sources, found) := dispatchSources maxEventsPerPoll reactor.eventSources
  ((found.map EventSource.event).foldl EventReactor.pushEvent
    { reactor with eventSources := sources }, found.length)

/-- The first source with an id. -/
def EventReactor.sourceOf (reactor : EventReactor) (sourceId : UInt32) : Option EventSource :=
  reactor.eventSources.find? fun source ↦ source.eventSourceId = sourceId

/-- An event of a type for the source with an id. -/
def EventReactor.trigger (reactor : EventReactor) (sourceId : UInt32) (type : EventType) :
    EventReactor × Int :=
  match reactor.sourceOf sourceId with
  | none => (reactor, -1)
  | some _ => (reactor.pushEvent { sourceId := sourceId, type := type }, 0)

/-- `event_trigger_custom`. The flags are stored with the event and not read. -/
def eventTriggerCustom (reactor : EventReactor) (sourceId : UInt32) : EventReactor × Int :=
  reactor.trigger sourceId .custom

/-- `event_handle_timeout`. -/
def eventHandleTimeout (reactor : EventReactor) (sourceId : UInt32) : EventReactor × Int :=
  reactor.trigger sourceId .timeout

/-! ### Processing -/

/-- The call of the handler of a source for an event. -/
def EventSource.call (source : EventSource) (type : EventType) : HandlerCall where
  handler := source.handler
  fd := source.fd
  type := type
  userData := source.userData

/-- The source after its handler was called. -/
def EventSource.finish (source : EventSource) : EventSource :=
  { source with state := if source.isOneshot ≠ 0 then .inactive else .registered }

/-- The call of a handler that an event leads to. -/
def EventReactor.callFor (reactor : EventReactor) (event : Event) : Option HandlerCall :=
  match reactor.sourceOf event.sourceId with
  | none => none
  | some source => if source.handler = 0 then none else some (source.call event.type)

/-- One round of the loop of `event_process_queue`: the event at the front is taken out. -/
def EventReactor.processFront (reactor : EventReactor) : EventReactor :=
  let event := reactor.eventQueue reactor.eventQueueFront
  { reactor with
    eventSources :=
      updateFirst (fun source ↦ source.eventSourceId = event.sourceId) EventSource.finish
        reactor.eventSources
    eventQueueFront := (reactor.eventQueueFront + 1) % maxEventsPerPoll
    pendingEvents := reactor.pendingEvents - 1 }

/-- The loop of `event_process_queue`, with the number of events that may still be processed: the
reactor after it and the handlers that are called. -/
def EventReactor.processRounds : ℕ → EventReactor → EventReactor × List HandlerCall
  | 0, reactor => (reactor, [])
  | rounds + 1, reactor =>
    if reactor.pendingEvents = 0 then (reactor, [])
    else
      let call := reactor.callFor (reactor.eventQueue reactor.eventQueueFront)
      let (after, later) := processRounds rounds reactor.processFront
      (after, call.toList ++ later)

/-- `event_process_queue`, with the handlers that are called. -/
def eventProcessQueue (reactor : EventReactor) : EventReactor × List HandlerCall :=
  EventReactor.processRounds maxEventsPerPoll reactor

/-! ### Calls -/

/-- A call to the reactor. -/
inductive ReactorCall
  | register (fd : ℤ) (type : EventType) (handler userData : ℕ)
  | unregister (fd : ℤ)
  | modify (fd : ℤ) (type : EventType) (flags : UInt32)
  | setOneshot (fd : ℤ) (oneshot : UInt8)
  | dispatch
  | triggerCustom (sourceId : UInt32)
  | handleTimeout (sourceId : UInt32)
  | processQueue
  deriving DecidableEq, Repr

/-- What a call does to the reactor. -/
def reactorStep (reactor : EventReactor) : ReactorCall → EventReactor
  | .register fd type handler userData => (eventRegister reactor fd type handler userData).1
  | .unregister fd => (eventUnregister reactor fd).1
  | .modify fd type flags => (eventModify reactor fd type flags).1
  | .setOneshot fd oneshot => (eventSetOneshot reactor fd oneshot).1
  | .dispatch => (eventDispatch reactor).1
  | .triggerCustom sourceId => (eventTriggerCustom reactor sourceId).1
  | .handleTimeout sourceId => (eventHandleTimeout reactor sourceId).1
  | .processQueue => (eventProcessQueue reactor).1

/-! ### Calls that are refused or served -/

variable {reactor after : EventReactor}

theorem eventRegister_cases (reactor : EventReactor) (fd : ℤ) (type : EventType)
    (handler userData : ℕ) :
    eventRegister reactor fd type handler userData = (reactor, none) ∨
      handler ≠ 0 ∧ 0 ≤ fd ∧ reactor.eventSources.length < maxEventSources ∧
        eventRegister reactor fd type handler userData =
          ({ reactor with
            eventSources :=
              registerSource (reactor.newSource fd type handler userData) reactor.eventSources
            nextEventSourceId := reactor.nextEventSourceId + 1 },
            some reactor.nextEventSourceId) := by
  rw [eventRegister]
  split_ifs with hrefused hfull
  · exact Or.inl rfl
  · exact Or.inl rfl
  · rw [not_or, not_lt] at hrefused
    exact Or.inr ⟨hrefused.1, hrefused.2, Nat.lt_of_not_le hfull, rfl⟩

theorem eventUnregister_cases (reactor : EventReactor) (fd : ℤ) :
    eventUnregister reactor fd = (reactor, -1) ∨
      eventUnregister reactor fd = ({ reactor with
        eventSources := reactor.eventSources.eraseP fun source ↦ source.fd = fd }, 0) := by
  rw [eventUnregister]
  split_ifs
  · exact Or.inl rfl
  · exact Or.inr rfl
  · exact Or.inl rfl

theorem EventReactor.onSource_cases (reactor : EventReactor) (fd : ℤ)
    (change : EventSource → EventSource) :
    reactor.onSource fd change = (reactor, -1) ∨
      reactor.onSource fd change = ({ reactor with
        eventSources := updateFirst (fun source ↦ source.fd = fd) change
          reactor.eventSources }, 0) := by
  rw [EventReactor.onSource]
  split_ifs
  · exact Or.inl rfl
  · exact Or.inr rfl
  · exact Or.inl rfl

/-! ### What is read of the sources -/

/-- What a call of a handler depends on. -/
def EventSource.face (source : EventSource) : UInt32 × ℕ × ℤ × ℕ :=
  (source.eventSourceId, source.handler, source.fd, source.userData)

/-- Two reactors whose sources have the same faces call the same handlers. -/
theorem EventReactor.callFor_congr
    (hfaces : after.eventSources.map EventSource.face = reactor.eventSources.map EventSource.face) :
    after.callFor = reactor.callFor := by
  have hlookup : ∀ (reactor : EventReactor) (event : Event), reactor.callFor event =
      ((reactor.eventSources.map EventSource.face).find? fun face ↦ face.1 = event.sourceId).bind
        fun face ↦ if face.2.1 = 0 then none else
          some { handler := face.2.1, fd := face.2.2.1, type := event.type,
                 userData := face.2.2.2 } := by
    intro reactor event
    rw [List.find?_map, EventReactor.callFor, EventReactor.sourceOf]
    cases hfind : reactor.eventSources.find? fun source ↦ source.eventSourceId = event.sourceId with
    | none =>
      have hnone : reactor.eventSources.find?
          ((fun face ↦ decide (face.1 = event.sourceId)) ∘ EventSource.face) = none := hfind
      rw [hnone]
      rfl
    | some source =>
      have hsome : reactor.eventSources.find?
          ((fun face ↦ decide (face.1 = event.sourceId)) ∘ EventSource.face) = some source := hfind
      rw [hsome]
      rfl
  funext event
  rw [hlookup, hlookup, hfaces]

/-- The loop of `event_dispatch` changes states only. -/
theorem map_dispatchSources {Reading : Type*} {reading : EventSource → Reading}
    (hkeep : ∀ source, reading { source with state := .ready } = reading source) (room : ℕ)
    (sources : List EventSource) :
    (dispatchSources room sources).1.map reading = sources.map reading := by
  fun_induction dispatchSources room sources with
  | case1 sources => rfl
  | case2 room => rfl
  | case3 room source sources hregistered rest found hrest ih =>
    rw [hrest] at ih
    rw [List.map_cons, List.map_cons, ih, hkeep]
  | case4 room source sources hother rest found hrest ih =>
    rw [hrest] at ih
    rw [List.map_cons, List.map_cons, ih]

/-- The loop of `event_dispatch` finds the first registered sources. -/
theorem dispatchSources_snd (room : ℕ) (sources : List EventSource) :
    (dispatchSources room sources).2 =
      (sources.filter fun source ↦ source.state = .registered).take room := by
  fun_induction dispatchSources room sources with
  | case1 sources => rw [List.take_zero]
  | case2 room => rfl
  | case3 room source sources hregistered rest found hrest ih =>
    rw [hrest] at ih
    rw [List.filter_cons, if_pos (decide_eq_true hregistered), List.take_succ_cons, ← ih]
  | case4 room source sources hother rest found hrest ih =>
    rw [hrest] at ih
    rw [List.filter_cons, if_neg (by simpa using hother), ← ih]

/-! ### Processing the waiting events -/

/-- Handling events changes the states of sources, the front and the number of waiting events. -/
theorem map_processRounds {Reading : Type*} {reading : EventSource → Reading}
    (hkeep : ∀ source, reading source.finish = reading source) (rounds : ℕ)
    (reactor : EventReactor) :
    (reactor.processRounds rounds).1.eventSources.map reading =
      reactor.eventSources.map reading := by
  fun_induction EventReactor.processRounds rounds reactor with
  | case1 reactor => rfl
  | case2 rounds reactor hempty => rfl
  | case3 rounds reactor hsome call after later hafter ih =>
    rw [hafter] at ih
    exact ih.trans (map_updateFirst fun source _ ↦ hkeep source)

theorem processRounds_ring (rounds : ℕ) (reactor : EventReactor) :
    (reactor.processRounds rounds).1.eventQueue = reactor.eventQueue ∧
      (reactor.processRounds rounds).1.eventQueueRear = reactor.eventQueueRear ∧
        (reactor.processRounds rounds).1.nextEventSourceId = reactor.nextEventSourceId := by
  fun_induction EventReactor.processRounds rounds reactor with
  | case1 reactor => exact ⟨rfl, rfl, rfl⟩
  | case2 rounds reactor hempty => exact ⟨rfl, rfl, rfl⟩
  | case3 rounds reactor hsome call after later hafter ih =>
    rw [hafter] at ih
    exact ih

/-- As many events are taken out as are waiting and may be processed. -/
theorem processRounds_front (rounds : ℕ) (reactor : EventReactor)
    (hfront : reactor.eventQueueFront < maxEventsPerPoll) :
    (reactor.processRounds rounds).1.eventQueueFront =
        (reactor.eventQueueFront + min reactor.pendingEvents.toNat rounds) % maxEventsPerPoll ∧
      (reactor.processRounds rounds).1.pendingEvents.toNat =
        reactor.pendingEvents.toNat - rounds := by
  fun_induction EventReactor.processRounds rounds reactor with
  | case1 reactor =>
    rw [Nat.min_zero]
    exact ⟨(Nat.mod_eq_of_lt hfront).symm, rfl⟩
  | case2 rounds reactor hempty =>
    rw [hempty]
    exact ⟨(Nat.mod_eq_of_lt hfront).symm, (Nat.zero_sub _).symm⟩
  | case3 rounds reactor hsome call after later hafter ih =>
    rw [hafter] at ih
    obtain ⟨hnext, hpending⟩ := ih (Nat.mod_lt _ (by decide))
    have hone : reactor.processFront.pendingEvents.toNat + 1 = reactor.pendingEvents.toNat :=
      toNat_pred_add_one hsome
    rw [← hone]
    refine ⟨hnext.trans ?_, hpending.trans (by omega)⟩
    rw [EventReactor.processFront, Nat.mod_add_mod]
    congr 1
    omega

/-- The events that `event_process_queue` takes out. -/
def EventReactor.taken (reactor : EventReactor) (rounds : ℕ) : List Event :=
  ringOf reactor.eventQueue maxEventsPerPoll reactor.eventQueueFront
    (min reactor.pendingEvents.toNat rounds)

/-- The handlers that are called are those of the events that are taken out, in order. -/
theorem processRounds_calls (rounds : ℕ) (reactor : EventReactor)
    (hfront : reactor.eventQueueFront < maxEventsPerPoll) :
    (reactor.processRounds rounds).2 = (reactor.taken rounds).filterMap reactor.callFor := by
  fun_induction EventReactor.processRounds rounds reactor with
  | case1 reactor => simp [EventReactor.taken, ringOf]
  | case2 rounds reactor hempty => simp [EventReactor.taken, ringOf, hempty]
  | case3 rounds reactor hsome call after later hafter ih =>
    rw [hafter] at ih
    have hone : reactor.processFront.pendingEvents.toNat + 1 = reactor.pendingEvents.toNat :=
      toNat_pred_add_one hsome
    have hsame : reactor.processFront.callFor = reactor.callFor :=
      EventReactor.callFor_congr (map_updateFirst fun _ _ ↦ rfl)
    have htaken : reactor.taken (rounds + 1) =
        reactor.eventQueue reactor.eventQueueFront :: reactor.processFront.taken rounds := by
      rw [EventReactor.taken, ← hone, Nat.add_min_add_right, ringOf_pop, Nat.mod_eq_of_lt hfront]
      rfl
    have hlater := ih (Nat.mod_lt _ (by decide))
    rw [hsame] at hlater
    rw [htaken, List.filterMap_cons, ← hlater]
    change call.toList ++ later = _
    cases hcall : reactor.callFor (reactor.eventQueue reactor.eventQueueFront) with
    | none => rw [show call = none from hcall]; rfl
    | some call' => rw [show call = some call' from hcall]; rfl

end OneOS.Multiplexing
