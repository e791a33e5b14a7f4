import OneOS.Multiplexing.EpollEquivalent
import OneOS.Multiplexing.EventReactor

/-!
# One-shot sources and file descriptors

A one-shot source is to have its handler called once, until it is registered again or one-shot is
cleared, and a one-shot file descriptor is to be reported once, until `epoll_ctl_mod` arms it again.
What has happened since is recorded over a run (`Shots`): for every one-shot key the number of times
it fired.

The reactor sets a one-shot source inactive when its handler was called, and `event_dispatch` then
passes over it, but `event_trigger_custom` and `event_handle_timeout` queue events for it all the
same and `event_process_queue` calls its handler for every one that waits. `epoll_wait` does not
look at `is_oneshot`. `firesOnce_iff` says exactly which runs this leaves in order; for the reactor,
that no event of an inactive source is taken out is enough (`TakesActive`).
-/

set_option autoImplicit false
set_option relaxedAutoImplicit false

namespace OneOS.Multiplexing

open Foundation

/-! ### The record -/

section Record

variable {Key : Type*} [DecidableEq Key]

/-- For every key that is one-shot the number of times it fired since it was armed. -/
abbrev Shots (Key : Type*) : Type _ := Key → Option ℕ

/-- A key is made one-shot. One that is one-shot keeps its number. -/
def Shots.mark (shots : Shots Key) (key : Key) : Shots Key :=
  Function.update shots key (some ((shots key).getD 0))

/-- A key is armed again if it is one-shot. -/
def Shots.rearm (shots : Shots Key) (key : Key) : Shots Key :=
  Function.update shots key ((shots key).map fun _ ↦ 0)

/-- A key is no longer one-shot. -/
def Shots.clear (shots : Shots Key) (key : Key) : Shots Key :=
  Function.update shots key none

omit [DecidableEq Key] in
/-- Every key fired some more times. -/
def Shots.fire (shots : Shots Key) (times : Key → ℕ) : Shots Key :=
  fun key ↦ (shots key).map (· + times key)

/-- No one-shot key fired twice. -/
def Shots.AtMostOnce (shots : Shots Key) : Prop :=
  ∀ key, ∀ count ∈ shots key, count ≤ 1

variable {shots : Shots Key}

theorem Shots.AtMostOnce.update (honce : shots.AtMostOnce) (key : Key) {new : Option ℕ}
    (hnew : ∀ count ∈ new, count ≤ 1) : Shots.AtMostOnce (Function.update shots key new) := by
  intro other count hcount
  by_cases hother : other = key
  · rw [hother, Function.update_self] at hcount
    exact hnew count hcount
  · rw [Function.update_of_ne hother] at hcount
    exact honce other count hcount

theorem Shots.AtMostOnce.mark (honce : shots.AtMostOnce) (key : Key) :
    (shots.mark key).AtMostOnce := by
  refine honce.update key fun count hcount ↦ ?_
  rw [← Option.some.inj hcount]
  cases hkey : shots key with
  | none => exact Nat.zero_le 1
  | some old => exact honce key old hkey

theorem Shots.AtMostOnce.rearm (honce : shots.AtMostOnce) (key : Key) :
    (shots.rearm key).AtMostOnce := by
  refine honce.update key fun count hcount ↦ ?_
  obtain ⟨old, -, rfl⟩ := Option.map_eq_some_iff.mp hcount
  exact Nat.zero_le 1

theorem Shots.AtMostOnce.clear (honce : shots.AtMostOnce) (key : Key) :
    (shots.clear key).AtMostOnce :=
  honce.update key fun _ hcount ↦ absurd hcount (Option.not_mem_none _)

omit [DecidableEq Key] in
theorem Shots.fire_atMostOnce_iff (shots : Shots Key) (times : Key → ℕ) :
    (shots.fire times).AtMostOnce ↔
      ∀ key, ∀ count ∈ shots key, count + times key ≤ 1 := by
  refine forall_congr' fun key ↦ ?_
  rw [Shots.fire]
  constructor
  · intro honce count hcount
    exact honce (count + times key) (Option.mem_map_of_mem _ hcount)
  · intro honce count hcount
    obtain ⟨old, hold, rfl⟩ := Option.map_eq_some_iff.mp hcount
    exact honce old hold

end Record

/-! ### Sources of the reactor -/

/-- The record of the one-shot sources, by file descriptor, after a call. -/
def sourceShots (reactor : EventReactor) (call : ReactorCall) (shots : Shots ℤ) : Shots ℤ :=
  match call with
  | .register fd type handler userData =>
    if (eventRegister reactor fd type handler userData).2 = none then shots else shots.clear fd
  | .unregister fd => if (eventUnregister reactor fd).2 = 0 then shots.clear fd else shots
  | .modify fd type flags =>
    if (eventModify reactor fd type flags).2 = 0 ∧ flags &&& 0x01 ≠ 0 then shots.mark fd else shots
  | .setOneshot fd oneshot =>
    if (eventSetOneshot reactor fd oneshot).2 = 0 then
      if oneshot = 0 then shots.clear fd else shots.mark fd
    else shots
  | .processQueue =>
    shots.fire fun fd ↦ (eventProcessQueue reactor).2.countP fun call ↦ call.fd = fd
  | _ => shots

/-- The condition on a call: of the events that `event_process_queue` takes out, none leads to a
one-shot source that fired before, and at most one to any other one-shot source. -/
def TakesOneShots (traced : EventReactor × Shots ℤ) : ReactorCall → Prop
  | .processQueue =>
    ∀ fd, ∀ count ∈ traced.2 fd,
      count + ((traced.1.taken maxEventsPerPoll).countP fun event ↦
        (traced.1.callFor event).any fun call ↦ call.fd = fd) ≤ 1
  | _ => True

variable {reactor : EventReactor} {shots : Shots ℤ}

theorem front_pushEvents (events : List Event) (reactor : EventReactor) :
    (events.foldl EventReactor.pushEvent reactor).eventQueueFront = reactor.eventQueueFront := by
  induction events generalizing reactor with
  | nil => rfl
  | cons event events ih => exact ih (reactor.pushEvent event)

/-- The front of the ring stays in the ring. -/
theorem front_lt_step (hfront : reactor.eventQueueFront < maxEventsPerPoll) (call : ReactorCall) :
    (reactorStep reactor call).eventQueueFront < maxEventsPerPoll := by
  have htrigger : ∀ (sourceId : UInt32) (type : EventType),
      (reactor.trigger sourceId type).1.eventQueueFront = reactor.eventQueueFront := by
    intro sourceId type
    rw [EventReactor.trigger]
    cases reactor.sourceOf sourceId with
    | none => rfl
    | some source => rfl
  have hchange : ∀ (fd : ℤ) (change : EventSource → EventSource),
      (reactor.onSource fd change).1.eventQueueFront = reactor.eventQueueFront := by
    intro fd change
    rcases reactor.onSource_cases fd change with hrefused | hserved
    · rw [hrefused]
    · rw [hserved]
  cases call with
  | register fd type handler userData =>
    rw [reactorStep]
    rcases eventRegister_cases reactor fd type handler userData with
      hrefused | ⟨-, -, -, hserved⟩
    · rwa [hrefused]
    · rwa [hserved]
  | unregister fd =>
    rw [reactorStep]
    rcases eventUnregister_cases reactor fd with hrefused | hserved
    · rwa [hrefused]
    · rwa [hserved]
  | modify fd type flags => exact (hchange fd _).symm ▸ hfront
  | setOneshot fd oneshot => exact (hchange fd _).symm ▸ hfront
  | dispatch =>
    rw [reactorStep, eventDispatch, front_pushEvents]
    exact hfront
  | triggerCustom sourceId => exact (htrigger sourceId .custom).symm ▸ hfront
  | handleTimeout sourceId => exact (htrigger sourceId .timeout).symm ▸ hfront
  | processQueue =>
    rw [reactorStep, eventProcessQueue, (processRounds_front _ _ hfront).1]
    exact Nat.mod_lt _ (by decide)

/-- The handlers of a file descriptor that are called are counted by the events that lead to it. -/
theorem countP_eventProcessQueue (hfront : reactor.eventQueueFront < maxEventsPerPoll) (fd : ℤ) :
    (eventProcessQueue reactor).2.countP (fun call ↦ call.fd = fd) =
      (reactor.taken maxEventsPerPoll).countP fun event ↦
        (reactor.callFor event).any fun call ↦ call.fd = fd := by
  rw [eventProcessQueue, processRounds_calls _ _ hfront, List.countP_filterMap]
  refine List.countP_congr fun event _ ↦ ?_
  cases reactor.callFor event with
  | none => rfl
  | some call => rfl

/-- One call keeps one-shot sources to one call of their handlers exactly under the condition. -/
theorem sourceShots_atMostOnce_iff (hfront : reactor.eventQueueFront < maxEventsPerPoll)
    (honce : shots.AtMostOnce) (call : ReactorCall) :
    (sourceShots reactor call shots).AtMostOnce ↔ TakesOneShots (reactor, shots) call := by
  cases call with
  | processQueue =>
    rw [sourceShots, Shots.fire_atMostOnce_iff, TakesOneShots]
    simp only [countP_eventProcessQueue hfront]
  | register fd type handler userData =>
    refine iff_of_true ?_ trivial
    rw [sourceShots]
    split_ifs
    · exact honce
    · exact honce.clear fd
  | unregister fd =>
    refine iff_of_true ?_ trivial
    rw [sourceShots]
    split_ifs
    · exact honce.clear fd
    · exact honce
  | modify fd type flags =>
    refine iff_of_true ?_ trivial
    rw [sourceShots]
    split_ifs
    · exact honce.mark fd
    · exact honce
  | setOneshot fd oneshot =>
    refine iff_of_true ?_ trivial
    rw [sourceShots]
    split_ifs
    · exact honce.clear fd
    · exact honce.mark fd
    · exact honce
  | _ => exact iff_of_true honce trivial

/-- Over every run of the reactor one-shot sources fire once exactly under the condition. -/
theorem sourcesFireOnce_iff (nextEventSourceId : UInt32) (calls : List ReactorCall) :
    AlongRun (withTrace reactorStep sourceShots) (fun traced ↦ traced.2.AtMostOnce)
        (eventReactorCreate nextEventSourceId, fun _ ↦ none) calls ↔
      EveryStep (withTrace reactorStep sourceShots) TakesOneShots
        (eventReactorCreate nextEventSourceId, fun _ ↦ none) calls := by
  refine alongRun_iff_everyStep (fun traced ↦ traced.1.eventQueueFront < maxEventsPerPoll)
    (fun _ _ ↦ True) ?_ ?_ ?_ ?_ (fun _ _ _ ↦ trivial)
  · exact fun traced call hfront _ ↦ front_lt_step hfront call
  · exact fun traced call hfront _ honce ↦ sourceShots_atMostOnce_iff hfront honce call
  · exact show 0 < maxEventsPerPoll by decide
  · exact fun fd count hcount ↦ absurd hcount (Option.not_mem_none _)

/-! ### What the state shows -/

/-- A condition on a call that looks at the reactor alone: of the events that `event_process_queue`
takes out, none leads to a one-shot source that is inactive, and at most one to any other one-shot
source. -/
def ReactorCall.TakesActive (reactor : EventReactor) : ReactorCall → Prop
  | .processQueue =>
    ∀ source ∈ reactor.eventSources, source.isOneshot ≠ 0 →
      ((reactor.taken maxEventsPerPoll).countP fun event ↦
        (reactor.callFor event).any fun call ↦ call.fd = source.fd) ≤
          if source.state = .inactive then 0 else 1
  | _ => True

/-- Sources in the record are one-shot, and inactive once they fired. -/
structure ShotsShown (reactor : EventReactor) (shots : Shots ℤ) : Prop where
  distinct : (reactor.eventSources.map EventSource.fd).Nodup
  shown : ∀ source ∈ reactor.eventSources, ∀ count ∈ shots source.fd,
    source.isOneshot ≠ 0 ∧ (count ≠ 0 → source.state = .inactive)

/-- What of a source is shown after a change of its state. -/
def EventSource.ShownBy (source changed : EventSource) : Prop :=
  changed.fd = source.fd ∧ changed.isOneshot = source.isOneshot ∧
    (source.isOneshot ≠ 0 → source.state = .inactive → changed.state = .inactive)

theorem mem_dispatchSources (room : ℕ) (sources : List EventSource) :
    ∀ changed ∈ (dispatchSources room sources).1, ∃ source ∈ sources, source.ShownBy changed := by
  fun_induction dispatchSources room sources with
  | case1 sources => exact fun source hsource ↦ ⟨source, hsource, rfl, rfl, fun _ hstate ↦ hstate⟩
  | case2 room => exact List.forall_mem_nil _
  | case3 room source sources hregistered rest found hrest ih =>
    rw [hrest] at ih
    refine List.forall_mem_cons.mpr ⟨⟨source, List.mem_cons_self, rfl, rfl, fun _ hstate ↦ ?_⟩, ?_⟩
    · rw [hregistered] at hstate
      cases hstate
    · intro changed hchanged
      obtain ⟨old, hold, hshown⟩ := ih changed hchanged
      exact ⟨old, List.mem_cons_of_mem _ hold, hshown⟩
  | case4 room source sources hother rest found hrest ih =>
    rw [hrest] at ih
    refine List.forall_mem_cons.mpr
      ⟨⟨source, List.mem_cons_self, rfl, rfl, fun _ hstate ↦ hstate⟩, fun changed hchanged ↦ ?_⟩
    obtain ⟨old, hold, hshown⟩ := ih changed hchanged
    exact ⟨old, List.mem_cons_of_mem _ hold, hshown⟩

/-- A handler that is called is one of the source that the event names. -/
theorem sourceOf_of_callFor {event : Event} {call : HandlerCall}
    (hcall : reactor.callFor event = some call) :
    ∃ source, reactor.sourceOf event.sourceId = some source ∧ source.fd = call.fd := by
  rw [EventReactor.callFor] at hcall
  cases hsource : reactor.sourceOf event.sourceId with
  | none =>
    rw [hsource] at hcall
    cases hcall
  | some source =>
    rw [hsource] at hcall
    dsimp only at hcall
    split_ifs at hcall
    exact ⟨source, rfl, congrArg HandlerCall.fd (Option.some.inj hcall)⟩

/-- One round of processing: the source of the event at the front is inactive afterwards if it is
one-shot, and no other source changes. -/
theorem mem_processFront (hdistinct : (reactor.eventSources.map EventSource.fd).Nodup) :
    ∀ changed ∈ reactor.processFront.eventSources, ∃ source ∈ reactor.eventSources,
      source.ShownBy changed ∧
        ∀ call ∈ reactor.callFor (reactor.eventQueue reactor.eventQueueFront),
          call.fd = source.fd → source.isOneshot ≠ 0 → changed.state = .inactive := by
  rw [EventReactor.processFront]
  cases hfind : reactor.sourceOf (reactor.eventQueue reactor.eventQueueFront).sourceId with
  | none =>
    dsimp only
    rw [updateFirst_of_find?_eq_none hfind]
    refine fun source hsource ↦ ⟨source, hsource, ⟨rfl, rfl, fun _ hstate ↦ hstate⟩, ?_⟩
    intro call hcall
    obtain ⟨found, hfound, -⟩ := sourceOf_of_callFor hcall
    rw [hfind] at hfound
    cases hfound
  | some found =>
    refine forall_mem_updateFirst_of_keys hdistinct hfind (fun source hsource ↦ hsource)
      (fun hmem ↦ ?_) fun other hother hmem ↦ ?_
    · exact ⟨found, hmem, ⟨rfl, rfl, fun honeshot _ ↦ if_pos honeshot⟩,
        fun _ _ _ honeshot ↦ if_pos honeshot⟩
    · refine ⟨other, hmem, ⟨rfl, rfl, fun _ hstate ↦ hstate⟩, fun call hcall hfd ↦ ?_⟩
      obtain ⟨source, hsource, hsame⟩ := sourceOf_of_callFor hcall
      rw [hfind] at hsource
      rw [← Option.some.inj hsource] at hsame
      exact absurd (hsame.trans hfd).symm hother

/-- All rounds of processing: one-shot sources whose handlers were called are inactive. -/
theorem mem_processRounds (rounds : ℕ) (reactor : EventReactor)
    (hdistinct : (reactor.eventSources.map EventSource.fd).Nodup) :
    ∀ changed ∈ (reactor.processRounds rounds).1.eventSources, ∃ source ∈ reactor.eventSources,
      source.ShownBy changed ∧ ∀ call ∈ (reactor.processRounds rounds).2,
        call.fd = source.fd → source.isOneshot ≠ 0 → changed.state = .inactive := by
  fun_induction EventReactor.processRounds rounds reactor with
  | case1 reactor =>
    exact fun source hsource ↦ ⟨source, hsource, ⟨rfl, rfl, fun _ hstate ↦ hstate⟩,
      List.forall_mem_nil _⟩
  | case2 rounds reactor hempty =>
    exact fun source hsource ↦ ⟨source, hsource, ⟨rfl, rfl, fun _ hstate ↦ hstate⟩,
      List.forall_mem_nil _⟩
  | case3 rounds reactor hsome call after later hafter ih =>
    have hkept : reactor.processFront.eventSources.map EventSource.fd =
        reactor.eventSources.map EventSource.fd := map_updateFirst fun _ _ ↦ rfl
    rw [hafter, hkept] at ih
    intro changed hchanged
    obtain ⟨middle, hmiddle, ⟨hfd, honeshot, hinactive⟩, hlater⟩ := ih hdistinct changed hchanged
    obtain ⟨source, hsource, ⟨hfd', honeshot', hinactive'⟩, hfront⟩ :=
      mem_processFront hdistinct middle hmiddle
    have hstays : source.isOneshot ≠ 0 → middle.state = .inactive → changed.state = .inactive :=
      fun hshot ↦ hinactive (honeshot'.symm ▸ hshot)
    refine ⟨source, hsource, ⟨hfd.trans hfd', honeshot.trans honeshot', fun hshot hstate ↦
      hstays hshot (hinactive' hshot hstate)⟩, fun called hcalled hsame hshot ↦ ?_⟩
    rcases List.mem_append.mp hcalled with hfirst | hrest
    · exact hstays hshot (hfront called (Option.mem_toList.mp hfirst) hsame hshot)
    · exact hlater called hrest (hsame.trans hfd'.symm) (honeshot'.symm ▸ hshot)

/-- Fewer sources, and a record of fewer keys. -/
theorem ShotsShown.fewer {after : EventReactor} {fewer : Shots ℤ}
    (hshown : ShotsShown reactor shots)
    (hsources : after.eventSources.Sublist reactor.eventSources)
    (hfewer : ∀ fd, ∀ count ∈ fewer fd, count ∈ shots fd) : ShotsShown after fewer where
  distinct := hshown.distinct.sublist (hsources.map EventSource.fd)
  shown source hsource count hcount :=
    hshown.shown source (hsources.subset hsource) count (hfewer _ count hcount)

theorem mem_of_mem_clear {fd other : ℤ} {count : ℕ} (hcount : count ∈ shots.clear fd other) :
    other ≠ fd ∧ count ∈ shots other := by
  by_cases hsame : other = fd
  · rw [hsame, Shots.clear, Function.update_self] at hcount
    exact absurd hcount (Option.not_mem_none _)
  · rw [Shots.clear, Function.update_of_ne hsame] at hcount
    exact ⟨hsame, hcount⟩

/-- The source with a file descriptor is changed, and what is recorded of it. -/
theorem ShotsShown.change (hshown : ShotsShown reactor shots) {fd : ℤ}
    {change : EventSource → EventSource} {new : Option ℕ}
    (hkeep : ∀ source, source.fd = fd → (change source).fd = fd)
    (hnew : ∀ source ∈ reactor.eventSources, source.fd = fd → ∀ count ∈ new,
      (change source).isOneshot ≠ 0 ∧ (count ≠ 0 → (change source).state = .inactive)) :
    ShotsShown { reactor with
      eventSources := updateFirst (fun source ↦ source.fd = fd) change reactor.eventSources }
      (Function.update shots fd new) := by
  constructor
  · have hfds : (updateFirst (fun source ↦ source.fd = fd) change reactor.eventSources).map
        EventSource.fd = reactor.eventSources.map EventSource.fd :=
      map_updateFirst fun source hsource ↦
        (hkeep source (of_decide_eq_true hsource)).trans (of_decide_eq_true hsource).symm
    exact hfds ▸ hshown.distinct
  · dsimp only
    rw [updateFirst_key_eq_map hshown.distinct]
    refine List.forall_mem_map.mpr fun source hsource count hcount ↦ ?_
    by_cases hfd : source.fd = fd
    · rw [if_pos hfd] at hcount ⊢
      rw [hkeep source hfd, Function.update_self] at hcount
      exact hnew source hsource hfd count hcount
    · rw [if_neg hfd] at hcount ⊢
      rw [Function.update_of_ne hfd] at hcount
      exact hshown.shown source hsource count hcount

theorem ShotsShown.register (hshown : ShotsShown reactor shots) (source : EventSource) :
    ShotsShown { reactor with eventSources := registerSource source reactor.eventSources }
      (shots.clear source.fd) := by
  rw [registerSource]
  split_ifs with hany
  · exact hshown.change (fun _ _ ↦ rfl) fun _ _ _ _ hcount ↦
      absurd hcount (Option.not_mem_none _)
  · have hnew : ∀ other ∈ reactor.eventSources, other.fd ≠ source.fd := by simpa using hany
    refine ⟨(nodup_map_concat_iff hshown.distinct).mpr hnew, List.forall_mem_append.mpr
      ⟨fun other hother count hcount ↦ ?_, List.forall_mem_singleton.mpr fun count hcount ↦ ?_⟩⟩
    · exact hshown.shown other hother count (mem_of_mem_clear hcount).2
    · exact absurd rfl (mem_of_mem_clear hcount).1

/-- A source is made one-shot. -/
theorem ShotsShown.mark (hshown : ShotsShown reactor shots) {fd : ℤ}
    {change : EventSource → EventSource} (hfd : ∀ source, (change source).fd = source.fd)
    (hstate : ∀ source, (change source).state = source.state)
    (honeshot : ∀ source, (change source).isOneshot ≠ 0) :
    ShotsShown { reactor with
      eventSources := updateFirst (fun source ↦ source.fd = fd) change reactor.eventSources }
      (shots.mark fd) := by
  refine hshown.change (fun source hsource ↦ (hfd source).trans hsource)
    fun source hsource hsame count hcount ↦ ⟨honeshot source, fun hfired ↦ ?_⟩
  rw [hstate]
  rw [← Option.some.inj hcount] at hfired
  cases hkey : shots fd with
  | none =>
    rw [hkey] at hfired
    exact absurd rfl hfired
  | some old =>
    rw [hkey] at hfired
    exact (hshown.shown source hsource old (hsame ▸ hkey)).2 hfired

/-- A source keeps its state and stays one-shot. -/
theorem ShotsShown.keep (hshown : ShotsShown reactor shots) {fd : ℤ}
    {change : EventSource → EventSource} (hfd : ∀ source, (change source).fd = source.fd)
    (hstate : ∀ source, (change source).state = source.state)
    (honeshot : ∀ source, source.isOneshot ≠ 0 → (change source).isOneshot ≠ 0) :
    ShotsShown { reactor with
      eventSources := updateFirst (fun source ↦ source.fd = fd) change reactor.eventSources }
      shots := by
  have hafter := hshown.change (fun source hsource ↦ (hfd source).trans hsource)
    fun source hsource hsame count (hcount : count ∈ shots fd) ↦ by
      obtain ⟨hshot, hfired⟩ := hshown.shown source hsource count (hsame ▸ hcount)
      exact ⟨honeshot source hshot, fun hsome ↦ (hstate source).trans (hfired hsome)⟩
  rwa [Function.update_eq_self] at hafter

/-- The events of a ring are no matter of the sources. -/
theorem eventSources_pushEvents (events : List Event) (reactor : EventReactor) :
    (events.foldl EventReactor.pushEvent reactor).eventSources = reactor.eventSources := by
  induction events generalizing reactor with
  | nil => rfl
  | cons event events ih => exact ih (reactor.pushEvent event)

theorem shotsShown_dispatch (hshown : ShotsShown reactor shots) :
    ShotsShown (eventDispatch reactor).1 shots := by
  have hsources : (eventDispatch reactor).1.eventSources =
      (dispatchSources maxEventsPerPoll reactor.eventSources).1 := by
    rw [eventDispatch, eventSources_pushEvents]
  constructor
  · rw [hsources, map_dispatchSources fun _ ↦ rfl]
    exact hshown.distinct
  · rw [hsources]
    intro changed hchanged count hcount
    obtain ⟨source, hsource, hfd, honeshot, hinactive⟩ :=
      mem_dispatchSources _ _ changed hchanged
    rw [hfd] at hcount
    obtain ⟨hshot, hfired⟩ := hshown.shown source hsource count hcount
    exact ⟨honeshot ▸ hshot, fun hcount ↦ hinactive hshot (hfired hcount)⟩

theorem shotsShown_trigger (hshown : ShotsShown reactor shots) (sourceId : UInt32)
    (type : EventType) : ShotsShown (reactor.trigger sourceId type).1 shots := by
  rw [EventReactor.trigger]
  cases reactor.sourceOf sourceId with
  | none => exact hshown
  | some source => exact ⟨hshown.distinct, hshown.shown⟩

theorem shotsShown_processQueue (hshown : ShotsShown reactor shots) :
    ShotsShown (eventProcessQueue reactor).1 (sourceShots reactor .processQueue shots) := by
  constructor
  · rw [eventProcessQueue, map_processRounds fun _ ↦ rfl]
    exact hshown.distinct
  · intro changed hchanged count hcount
    obtain ⟨source, hsource, ⟨hfd, honeshot, hinactive⟩, hcalled⟩ :=
      mem_processRounds maxEventsPerPoll reactor hshown.distinct changed hchanged
    rw [sourceShots, Shots.fire, hfd] at hcount
    obtain ⟨old, hold, rfl⟩ := Option.map_eq_some_iff.mp hcount
    obtain ⟨hshot, hfired⟩ := hshown.shown source hsource old hold
    refine ⟨honeshot ▸ hshot, fun hsome ↦ ?_⟩
    by_cases hbefore : old = 0
    · -- the handler was called by this call
      rw [hbefore, Nat.zero_add] at hsome
      obtain ⟨call, hcall, htest⟩ := List.countP_pos_iff.mp (Nat.pos_of_ne_zero hsome)
      exact hcalled call hcall (of_decide_eq_true htest) hshot
    · exact hinactive hshot (hfired hbefore)

theorem shotsShown_step (hshown : ShotsShown reactor shots) (call : ReactorCall) :
    ShotsShown (reactorStep reactor call) (sourceShots reactor call shots) := by
  cases call with
  | register fd type handler userData =>
    rw [reactorStep, sourceShots]
    rcases eventRegister_cases reactor fd type handler userData with
      hrefused | ⟨-, -, -, hserved⟩
    · rw [hrefused, if_pos rfl]
      exact hshown
    · rw [hserved, if_neg (Option.some_ne_none _)]
      exact (hshown.register (reactor.newSource fd type handler userData)).fewer
        (List.Sublist.refl _) fun _ _ hcount ↦ hcount
  | unregister fd =>
    rw [reactorStep, sourceShots]
    rcases eventUnregister_cases reactor fd with hrefused | hserved
    · rw [hrefused, if_neg (show ¬ (-1 : Int) = 0 by decide)]
      exact hshown
    · rw [hserved, if_pos rfl]
      exact hshown.fewer List.eraseP_sublist fun _ _ hcount ↦ (mem_of_mem_clear hcount).2
  | modify fd type flags =>
    rw [reactorStep, sourceShots, eventModify]
    rcases reactor.onSource_cases fd fun source ↦
        { source with
          eventType := type
          isOneshot := if flags &&& 0x01 ≠ 0 then 1 else source.isOneshot } with hrefused | hserved
    · rw [hrefused, if_neg fun hboth ↦ absurd hboth.1 (show ¬ (-1 : Int) = 0 by decide)]
      exact hshown
    · rw [hserved]
      by_cases hflag : flags &&& 0x01 ≠ 0
      · rw [if_pos ⟨rfl, hflag⟩]
        refine hshown.mark (fun _ ↦ rfl) (fun _ ↦ rfl) fun source ↦ ?_
        dsimp only
        rw [if_pos hflag]
        decide
      · rw [if_neg fun hboth ↦ hflag hboth.2]
        refine hshown.keep (fun _ ↦ rfl) (fun _ ↦ rfl) fun source hshot ↦ ?_
        dsimp only
        rwa [if_neg hflag]
  | setOneshot fd oneshot =>
    rw [reactorStep, sourceShots, eventSetOneshot]
    rcases reactor.onSource_cases fd ({ · with isOneshot := oneshot }) with hrefused | hserved
    · rw [hrefused, if_neg (show ¬ (-1 : Int) = 0 by decide)]
      exact hshown
    · rw [hserved, if_pos rfl]
      split_ifs with hcleared
      · exact hshown.change (fun _ hfd ↦ hfd) fun _ _ _ _ hcount ↦
          absurd hcount (Option.not_mem_none _)
      · exact hshown.mark (fun _ ↦ rfl) (fun _ ↦ rfl) fun _ ↦ hcleared
  | dispatch => exact shotsShown_dispatch hshown
  | triggerCustom sourceId => exact shotsShown_trigger hshown sourceId .custom
  | handleTimeout sourceId => exact shotsShown_trigger hshown sourceId .timeout
  | processQueue => exact shotsShown_processQueue hshown

/-- Assumes: sources that fired are shown to be inactive. The condition on the state gives that on
the record. -/
theorem takesOneShots_of_takesActive (hshown : ShotsShown reactor shots)
    (honce : shots.AtMostOnce) {call : ReactorCall} (hactive : call.TakesActive reactor) :
    TakesOneShots (reactor, shots) call := by
  cases call with
  | processQueue =>
    intro fd count hcount
    rcases Nat.eq_zero_or_pos ((reactor.taken maxEventsPerPoll).countP fun event ↦
      (reactor.callFor event).any fun call ↦ call.fd = fd) with hnone | hsome
    · rw [hnone]
      exact honce fd count hcount
    · obtain ⟨event, -, hleads⟩ := List.countP_pos_iff.mp hsome
      obtain ⟨call, hcall, hfd⟩ : ∃ call, reactor.callFor event = some call ∧
          decide (call.fd = fd) = true := by
        simpa [Option.any_eq_true] using hleads
      obtain ⟨source, hsource, hsame⟩ := sourceOf_of_callFor hcall
      have hmem := List.mem_of_find?_eq_some hsource
      obtain rfl : source.fd = fd := hsame.trans (of_decide_eq_true hfd)
      obtain ⟨hshot, hfired⟩ := hshown.shown source hmem count hcount
      have hbound := hactive source hmem hshot
      by_cases hcalled : count = 0
      · rw [hcalled, Nat.zero_add]
        split_ifs at hbound
        · exact hbound.trans (Nat.zero_le 1)
        · exact hbound
      · rw [if_pos (hfired hcalled)] at hbound
        exact absurd hbound (Nat.not_le.mpr hsome)
  | _ => trivial

/-- Assumes: no event that is taken out leads to an inactive one-shot source, and no two to one
one-shot source. One-shot sources fire once. -/
theorem sourcesFireOnce_of_takesActive {nextEventSourceId : UInt32} {calls : List ReactorCall}
    (hactive : EveryStep reactorStep (fun reactor call ↦ call.TakesActive reactor)
      (eventReactorCreate nextEventSourceId) calls) :
    AlongRun (withTrace reactorStep sourceShots) (fun traced ↦ traced.2.AtMostOnce)
      (eventReactorCreate nextEventSourceId, fun _ ↦ none) calls := by
  have hsteps : EveryStep (withTrace reactorStep sourceShots)
      (fun traced call ↦ ReactorCall.TakesActive traced.1 call)
      (eventReactorCreate nextEventSourceId, fun _ ↦ none) calls := everyStep_withTrace.mpr hactive
  have hinvariant := alongRun_invariant
    (fun traced : EventReactor × Shots ℤ ↦ traced.1.eventQueueFront < maxEventsPerPoll ∧
      ShotsShown traced.1 traced.2 ∧ traced.2.AtMostOnce) _ ?_ ?_ hsteps
  · exact hinvariant.imp fun _ hholds ↦ hholds.2.2
  · rintro ⟨reactor, shots⟩ call ⟨hfront, hshown, honce⟩ htakes
    refine ⟨front_lt_step hfront call, shotsShown_step hshown call, ?_⟩
    exact (sourceShots_atMostOnce_iff hfront honce call).mpr
      (takesOneShots_of_takesActive hshown honce htakes)
  · exact ⟨show 0 < maxEventsPerPoll by decide, ⟨List.nodup_nil, List.forall_mem_nil _⟩,
      fun _ _ hcount ↦ absurd hcount (Option.not_mem_none _)⟩

/-! ### File descriptors of epoll instances -/

/-- The record of the one-shot file descriptors, by instance and file descriptor, after a call. -/
def fdShots (manager : EpollManager) (call : EpollCall) (shots : Shots (UInt32 × ℤ)) :
    Shots (UInt32 × ℤ) :=
  match call with
  | .ctlMod epollFd fd event =>
    if (epollCtlMod manager epollFd fd event).2 = 0 then shots.rearm (epollFd.toUInt32, fd)
    else shots
  | .ctlDel epollFd fd =>
    if (epollCtlDel manager epollFd fd).2 = 0 then shots.clear (epollFd.toUInt32, fd) else shots
  | .setOneshot epollFd fd oneshot =>
    if (epollSetOneshot manager epollFd fd oneshot).2 = 0 then
      if oneshot = 0 then shots.clear (epollFd.toUInt32, fd)
      else shots.mark (epollFd.toUInt32, fd)
    else shots
  | .wait epollFd maxevents =>
    shots.fire fun key ↦
      if key.1 = epollFd.toUInt32 then
        ((reportedFds manager epollFd maxevents).getD []).countP fun info ↦ info.fd = key.2
      else 0
  | _ => shots

/-- The entries of an instance that ask for `EPOLLIN`, as far as a wait has room for them. -/
def EpollManager.asking (manager : EpollManager) (epollFd : UInt32) (room : ℕ) :
    List EpollFdInfo :=
  (((manager.fdsOf epollFd).getD []).filter fun info ↦ info.events &&& epollIn ≠ 0).take room

/-- The condition on a call: of the entries that ask for `EPOLLIN` and for which `epoll_wait` has
room, none has a one-shot file descriptor that was reported before, and at most one has any other
one-shot file descriptor. -/
def AsksOneShots (traced : EpollManager × Shots (UInt32 × ℤ)) : EpollCall → Prop
  | .wait epollFd maxevents =>
    0 < epollFd → 0 < maxevents → ∀ fd, ∀ count ∈ traced.2 (epollFd.toUInt32, fd),
      count + ((traced.1.asking epollFd.toUInt32 maxevents.toNat).countP fun info ↦
        info.fd = fd) ≤ 1
  | _ => True

variable {manager : EpollManager} {fdRecord : Shots (UInt32 × ℤ)}

/-- What is reported is what asks for it. -/
theorem reportedFds_eq_asking {epollFd : Int32} {maxevents : ℤ}
    (hvalid : ¬ (epollFd ≤ 0 ∨ maxevents ≤ 0)) :
    (reportedFds manager epollFd maxevents).getD [] =
      manager.asking epollFd.toUInt32 maxevents.toNat := by
  rw [reportedFds, if_neg hvalid, EpollManager.asking]
  cases manager.fdsOf epollFd.toUInt32 with
  | none => exact List.take_nil.symm
  | some fds => exact readyFds_eq _ _

theorem wait_atMostOnce_iff (honce : fdRecord.AtMostOnce) (epollFd : Int32) (maxevents : ℤ) :
    (fdShots manager (.wait epollFd maxevents) fdRecord).AtMostOnce ↔
      AsksOneShots (manager, fdRecord) (.wait epollFd maxevents) := by
  rw [fdShots, Shots.fire_atMostOnce_iff, AsksOneShots]
  by_cases hvalid : epollFd ≤ 0 ∨ maxevents ≤ 0
  · have hnone : (reportedFds manager epollFd maxevents).getD [] = [] := by
      rw [reportedFds, if_pos hvalid]
      rfl
    refine iff_of_true (fun key count hcount ↦ ?_) fun hepollFd hmaxevents ↦ ?_
    · rw [hnone, List.countP_nil, ite_self]
      exact honce key count hcount
    · rw [← Int32.not_le] at hepollFd
      exact absurd hvalid (not_or.mpr ⟨hepollFd, Int.not_le.mpr hmaxevents⟩)
  · rw [reportedFds_eq_asking hvalid]
    rw [not_or, Int32.not_le, Int.not_le] at hvalid
    constructor
    · intro hfire _ _ fd count hcount
      have hself := hfire (epollFd.toUInt32, fd) count hcount
      rwa [if_pos rfl] at hself
    · rintro hasks ⟨instanceFd, fd⟩ count hcount
      dsimp only
      split_ifs with hself
      · rw [hself] at hcount
        exact hasks hvalid.1 hvalid.2 fd count hcount
      · exact honce _ count hcount

/-- One call keeps one-shot file descriptors to one report exactly under the condition. -/
theorem fdShots_atMostOnce_iff (honce : fdRecord.AtMostOnce) (call : EpollCall) :
    (fdShots manager call fdRecord).AtMostOnce ↔ AsksOneShots (manager, fdRecord) call := by
  cases call with
  | wait epollFd maxevents => exact wait_atMostOnce_iff honce epollFd maxevents
  | ctlMod epollFd fd event =>
    refine iff_of_true ?_ trivial
    rw [fdShots]
    split_ifs
    · exact honce.rearm _
    · exact honce
  | ctlDel epollFd fd =>
    refine iff_of_true ?_ trivial
    rw [fdShots]
    split_ifs
    · exact honce.clear _
    · exact honce
  | setOneshot epollFd fd oneshot =>
    refine iff_of_true ?_ trivial
    rw [fdShots]
    split_ifs
    · exact honce.clear _
    · exact honce.mark _
    · exact honce
  | _ => exact iff_of_true honce trivial

/-- Over every run of the manager one-shot file descriptors are reported once exactly under the
condition. -/
theorem fdsReportedOnce_iff (nextEpollFd : UInt32) (calls : List EpollCall) :
    AlongRun (withTrace epollStep fdShots) (fun traced ↦ traced.2.AtMostOnce)
        (epollManagerCreate nextEpollFd, fun _ ↦ none) calls ↔
      EveryStep (withTrace epollStep fdShots) AsksOneShots
        (epollManagerCreate nextEpollFd, fun _ ↦ none) calls := by
  refine alongRun_iff_everyStep (fun _ ↦ True) (fun _ _ ↦ True) (fun _ _ _ _ ↦ trivial) ?_ trivial
    ?_ (fun _ _ _ ↦ trivial)
  · exact fun traced call _ _ honce ↦ fdShots_atMostOnce_iff honce call
  · exact fun fd count hcount ↦ absurd hcount (Option.not_mem_none _)

/-! ### Both -/

/-- Over every run of the reactor the handler of a one-shot source is called at most once, and over
every run of the epoll equivalent a one-shot file descriptor is reported at most once, exactly when
no event that is taken out and no entry that asks for `EPOLLIN` is one too many. For the reactor it
is enough to look at the state: that no event is taken out for a one-shot source that is inactive,
and no two for one that is not. -/
theorem firesOnce_iff (nextEventSourceId nextEpollFd : UInt32) (reactorCalls : List ReactorCall)
    (epollCalls : List EpollCall) :
    (AlongRun (withTrace reactorStep sourceShots) (fun traced ↦ traced.2.AtMostOnce)
          (eventReactorCreate nextEventSourceId, fun _ ↦ none) reactorCalls ↔
        EveryStep (withTrace reactorStep sourceShots) TakesOneShots
          (eventReactorCreate nextEventSourceId, fun _ ↦ none) reactorCalls) ∧
      (EveryStep reactorStep (fun reactor call ↦ call.TakesActive reactor)
          (eventReactorCreate nextEventSourceId) reactorCalls →
        AlongRun (withTrace reactorStep sourceShots) (fun traced ↦ traced.2.AtMostOnce)
          (eventReactorCreate nextEventSourceId, fun _ ↦ none) reactorCalls) ∧
      (AlongRun (withTrace epollStep fdShots) (fun traced ↦ traced.2.AtMostOnce)
          (epollManagerCreate nextEpollFd, fun _ ↦ none) epollCalls ↔
        EveryStep (withTrace epollStep fdShots) AsksOneShots
          (epollManagerCreate nextEpollFd, fun _ ↦ none) epollCalls) :=
  ⟨sourcesFireOnce_iff nextEventSourceId reactorCalls, sourcesFireOnce_of_takesActive,
    fdsReportedOnce_iff nextEpollFd epollCalls⟩

/-- A one-shot source is triggered twice before its events are processed, and a one-shot file
descriptor is there for two waits. -/
theorem not_atMostOnce_one_shot :
    ¬ AlongRun (withTrace reactorStep sourceShots) (fun traced ↦ traced.2.AtMostOnce)
        (eventReactorCreate 1, fun _ ↦ none)
        [.register 3 .read 10 0, .setOneshot 3 1, .triggerCustom 1, .triggerCustom 1,
          .processQueue] ∧
      ¬ AlongRun (withTrace epollStep fdShots) (fun traced ↦ traced.2.AtMostOnce)
        (epollManagerCreate 1, fun _ ↦ none)
        [.createInstance, .ctlAdd 1 5 { events := 1, ptr := 0, fd := 5, data := 0 },
          .setOneshot 1 5 1, .wait 1 8, .wait 1 8] := by
  constructor
  · intro halong
    exact absurd (halong _ (List.prefix_refl _) 3 2 (by decide +kernel)) (by decide)
  · intro halong
    exact absurd (halong _ (List.prefix_refl _) (1, 5) 2 (by decide +kernel)) (by decide)

end OneOS.Multiplexing
