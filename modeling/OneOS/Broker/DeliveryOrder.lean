import Mathlib.Data.List.Forall2
import OneOS.Broker.RingQueues

/-!
# The order of delivery

A queue is created with a type that says in which order its messages are delivered. The type is kept
and never looked at: a receive takes the message that has waited longest.

The messages that wait are listed as they were sent, with the priority that the sender gave them
(`waitingAfter`), and the type says which of them is to be delivered next (`nextByType`).
`deliversByType_iff`: every receive of a run returns that message if it fits, and no other one,
exactly when the message that has waited longest is the right one wherever one of the two fits, so
when no message that waits has a higher priority in a queue of the priority type, and when no other
message waits in a queue of the LIFO type (`OldestIsNext`).
-/

set_option autoImplicit false
set_option relaxedAutoImplicit false

namespace OneOS.Broker

open Foundation

/-! ### What is to be delivered -/

/-- A message as it was sent. -/
structure Sent where
  messageId : UInt64
  payload : List UInt8
  priority : UInt32
  deriving DecidableEq, Repr

/-- The messages that wait in a queue, oldest first, after a call. -/
def waitingAfter (queue : MessageQueue) (call : QueueCall) (waiting : List Sent) : List Sent :=
  match call with
  | .send payload malloc =>
    if queue.accepts payload malloc then
      waiting ++ [{ messageId := queue.totalMessages + 1, payload := payload, priority := 0 }]
    else waiting
  | .sendPriority payload priority malloc =>
    if queue.accepts payload malloc then
      waiting ++
        [{ messageId := queue.totalMessages + 1, payload := payload, priority := priority }]
    else waiting
  | .receive size =>
    match (queue.receive size).2 with
    | .message messageId _ => waiting.eraseP fun sent ↦ toInt sent.messageId = messageId
    | _ => waiting
  | .purge => []
  | _ => waiting

/-- The message that a queue of a type is to deliver next: the oldest one, the oldest one of the
highest priority, or the one sent last. -/
def nextByType (queueType : QueueType) (waiting : List Sent) : Option Sent :=
  match queueType with
  | .fifo => waiting.head?
  | .priority => waiting.find? fun sent ↦ waiting.all fun other ↦ other.priority ≤ sent.priority
  | .lifo => waiting.getLast?

/-- A receive returns the message that is to be delivered next when there is room for it, and
returns no other message. -/
def DeliversByType (queue : MessageQueue) (waiting : List Sent) : QueueCall → Prop
  | .receive size => ∀ messageId payload, (queue.receive size).2 = .message messageId payload ↔
    ∃ sent, nextByType queue.queueType waiting = some sent ∧ sent.payload.length ≤ size.toNat ∧
      toInt sent.messageId = messageId ∧ sent.payload = payload
  | _ => True

/-- The condition on a call: if it is a receive with room for the message that has waited longest,
or for the one that is to be delivered next, no other message of a queue of the priority type has a
higher priority, and no other message waits in a queue of the LIFO type. -/
def OldestIsNext (queueType : QueueType) (waiting : List Sent) : QueueCall → Prop
  | .receive size => ∀ oldest later, waiting = oldest :: later →
    (oldest.payload.length ≤ size.toNat ∨
      ∃ sent ∈ nextByType queueType waiting, sent.payload.length ≤ size.toNat) →
      match queueType with
      | .fifo => True
      | .priority => ∀ sent ∈ later, sent.priority ≤ oldest.priority
      | .lifo => later = []
  | _ => True

/-! ### What waits in the ring -/

/-- A message of the ring is one that was sent. -/
structure Carries (sent : Sent) (message : Message) : Prop where
  number : message.messageId = sent.messageId
  body : message.body = sent.payload
  size : message.payloadSize.toNat = sent.payload.length

/-- The messages that wait are numbered one after the other, up to the last one that was sent. -/
def Consecutive (totalMessages : UInt64) (waiting : List Sent) : Prop :=
  ∃ first : UInt64, totalMessages + 1 = first + UInt64.ofNat waiting.length ∧
    waiting.map Sent.messageId = (List.range waiting.length).map fun i ↦ first + UInt64.ofNat i

/-- The ring holds the messages that wait. -/
structure Waits (queue : MessageQueue) (waiting : List Sent) : Prop where
  ring : RingState queue
  carries : List.Forall₂ Carries waiting queue.pending
  numbers : Consecutive queue.totalMessages waiting

variable {queue : MessageQueue} {waiting : List Sent}

theorem consecutive_nil (totalMessages : UInt64) : Consecutive totalMessages [] := by
  refine ⟨totalMessages + 1, ?_, rfl⟩
  exact (UInt64.add_zero _).symm

/-- The next message that is sent has the next number. -/
theorem Consecutive.concat {totalMessages : UInt64} (hnumbers : Consecutive totalMessages waiting)
    (payload : List UInt8) (priority : UInt32) :
    Consecutive (totalMessages + 1)
      (waiting ++
        [{ messageId := totalMessages + 1, payload := payload, priority := priority }]) := by
  obtain ⟨first, htotal, hids⟩ := hnumbers
  refine ⟨first, ?_, ?_⟩
  · rw [htotal, List.length_append, List.length_singleton, UInt64.ofNat_add, UInt64.add_assoc]
    rfl
  · rw [List.map_append, hids, List.map_singleton, htotal, List.length_append,
      List.length_singleton, List.range_succ, List.map_append, List.map_singleton]

/-- The messages behind the oldest one are numbered one after the other. -/
theorem Consecutive.tail {totalMessages : UInt64} {oldest : Sent}
    (hnumbers : Consecutive totalMessages (oldest :: waiting)) :
    Consecutive totalMessages waiting := by
  obtain ⟨first, htotal, hids⟩ := hnumbers
  have hshift : ∀ i : ℕ, first + UInt64.ofNat (i + 1) = first + 1 + UInt64.ofNat i := by
    intro i
    rw [UInt64.ofNat_add, UInt64.add_comm (UInt64.ofNat i), ← UInt64.add_assoc]
    rfl
  refine ⟨first + 1, ?_, ?_⟩
  · rw [htotal, List.length_cons, hshift]
  · rw [List.map_cons, List.length_cons, List.range_succ_eq_map, List.map_cons, List.map_map]
      at hids
    rw [(List.cons.inj hids).2]
    exact List.map_congr_left fun i _ ↦ hshift i

/-- Numbers that are the same as ints are the same in their lower half. -/
theorem toInt_inj {messageId other : UInt64} :
    toInt messageId = toInt other ↔ messageId.toUInt32 = other.toUInt32 := by
  rw [toInt, toInt, Int32.toInt_inj]
  exact ⟨fun hsame ↦ UInt32.toBitVec_inj.mp (congrArg Int32.toBitVec hsame),
    fun hsame ↦ hsame ▸ rfl⟩

/-- Messages that wait together have different numbers, also as ints, since they are few. -/
theorem Waits.nodup (hwaits : Waits queue waiting) :
    (waiting.map fun sent ↦ toInt sent.messageId).Nodup := by
  obtain ⟨first, -, hids⟩ := hwaits.numbers
  have hlength : waiting.length ≤ 32768 := by
    rw [hwaits.carries.length_eq, MessageQueue.pending, length_ringOf]
    exact hwaits.ring.count.trans hwaits.ring.bounded
  have hmap := List.map_map (f := Sent.messageId) (g := toInt) (l := waiting)
  rw [Function.comp_def] at hmap
  rw [← hmap, hids, List.map_map]
  refine List.Nodup.map_on (fun i hi j hj hsame ↦ ?_) List.nodup_range
  rw [List.mem_range] at hi hj
  have hhalf := toInt_inj.mp hsame
  rw [UInt64.toUInt32_add, UInt64.toUInt32_add, UInt32.add_right_inj] at hhalf
  have hnumbers := congrArg UInt32.toNat hhalf
  rw [UInt64.toNat_toUInt32, UInt64.toNat_toUInt32,
    UInt64.toNat_ofNat_of_lt' (show i < 2 ^ 64 by omega),
    UInt64.toNat_ofNat_of_lt' (show j < 2 ^ 64 by omega)] at hnumbers
  omega

/-! ### Calls on a queue -/

/-- A message that is placed waits behind all others. -/
theorem Waits.place {payload : List UInt8} {malloc : Bool} (hwaits : Waits queue waiting)
    (haccepts : queue.accepts payload malloc = true) (written priority : UInt32) :
    Waits (queue.place (queue.sentMessage payload written) payload.length)
      (waiting ++
        [{ messageId := queue.totalMessages + 1, payload := payload, priority := priority }]) := by
  obtain ⟨hsize, hroom, -⟩ := accepts_iff.mp haccepts
  have hcarries : Carries
      { messageId := queue.totalMessages + 1, payload := payload, priority := priority }
      (queue.sentMessage payload written) := by
    refine ⟨rfl, body_sentMessage written haccepts, ?_⟩
    exact UInt32.toNat_ofNat_of_lt' (hsize.trans_lt (by decide))
  refine ⟨hwaits.ring.place hroom _ _, ?_, hwaits.numbers.concat payload priority⟩
  rw [pending_place hwaits.ring hroom]
  exact List.rel_append hwaits.carries (.cons hcarries .nil)

/-- A send that is not accepted leaves what waits. -/
theorem Waits.send_of_not_accepts {payload : List UInt8} {malloc : Bool}
    (hwaits : Waits queue waiting) (hrefused : ¬ queue.accepts payload malloc = true) :
    Waits (queue.send payload malloc).1 waiting := by
  obtain ⟨hring, hpending, -⟩ := Broker.send_of_not_accepts hwaits.ring hrefused
  have htotal : (queue.send payload malloc).1.totalMessages = queue.totalMessages := by
    unfold MessageQueue.send
    split_ifs with hsize hfull hmalloc
    · rfl
    · rfl
    · exact absurd (accepts_iff.mpr ⟨Nat.not_lt.mp hsize, UInt32.not_le.mp hfull, hmalloc⟩) hrefused
    · rfl
  refine ⟨hring, ?_, ?_⟩
  · rw [hpending]
    exact hwaits.carries
  · rw [htotal]
    exact hwaits.numbers

/-- What a receive does to the messages that wait: it returns none of them, since there is none or
the oldest one is too long, or it returns the oldest one. -/
theorem Waits.receive_cases (hwaits : Waits queue waiting) (size : UInt32) :
    Waits (queue.receive size).1 waiting ∧
        ((queue.receive size).2 = .empty ∧ waiting = [] ∨
          (queue.receive size).2 = .refused ∧ ∃ oldest later, waiting = oldest :: later ∧
            ¬ oldest.payload.length ≤ size.toNat) ∨
      ∃ oldest later, waiting = oldest :: later ∧ oldest.payload.length ≤ size.toNat ∧
        (queue.receive size).2 = .message (toInt oldest.messageId) oldest.payload ∧
          Waits (queue.receive size).1 later := by
  have hcarries := hwaits.carries
  rcases Broker.receive_cases hwaits.ring size with ⟨hsame, hnone⟩ | ⟨message, hpending, hmessage,
    hroom, hringAfter⟩
  · refine Or.inl ⟨by rwa [hsame], ?_⟩
    rcases hnone with ⟨hempty, hpending⟩ | ⟨hrefused, message, later, hpending, hlong⟩
    · rw [hpending] at hcarries
      exact Or.inl ⟨hempty, List.forall₂_nil_right_iff.mp hcarries⟩
    · rw [hpending] at hcarries
      obtain ⟨oldest, rest, hfirst, -, rfl⟩ := List.forall₂_cons_right_iff.mp hcarries
      refine Or.inr ⟨hrefused, oldest, rest, rfl, ?_⟩
      rw [← hfirst.size, Nat.not_le]
      exact UInt32.lt_iff_toNat_lt.mp hlong
  · rw [hpending] at hcarries
    obtain ⟨oldest, rest, hfirst, hrest, rfl⟩ := List.forall₂_cons_right_iff.mp hcarries
    have htotal : (queue.receive size).1.totalMessages = queue.totalMessages := by
      unfold MessageQueue.receive
      dsimp only
      split_ifs <;> rfl
    refine Or.inr ⟨oldest, rest, rfl, ?_, ?_, hringAfter, hrest, ?_⟩
    · rw [← hfirst.size, ← Nat.not_lt]
      exact fun hlt ↦ hroom (UInt32.lt_iff_toNat_lt.mpr hlt)
    · rw [hmessage, hfirst.number, hfirst.body]
    · rw [htotal]
      exact hwaits.numbers.tail

/-- Every call on a queue keeps the record of what waits right. -/
theorem waits_act (call : QueueCall) (hwaits : Waits queue waiting) :
    Waits (call.act queue).1 (waitingAfter queue call waiting) := by
  have hring := hwaits.ring
  cases call with
  | send payload malloc =>
    rw [QueueCall.act, waitingAfter]
    by_cases haccepts : queue.accepts payload malloc = true
    · rw [if_pos haccepts, send_of_accepts haccepts]
      exact hwaits.place haccepts 0 0
    · rw [if_neg haccepts]
      exact hwaits.send_of_not_accepts haccepts
  | sendPriority payload priority malloc =>
    rw [QueueCall.act, waitingAfter]
    by_cases haccepts : queue.accepts payload malloc = true
    · rw [if_pos haccepts, sendPriority_of_accepts hring priority haccepts]
      exact hwaits.place haccepts _ priority
    · rw [if_neg haccepts, sendPriority_of_not_accepts hring priority haccepts]
      exact hwaits.send_of_not_accepts haccepts
  | receive size =>
    rw [QueueCall.act, waitingAfter]
    rcases hwaits.receive_cases size with ⟨hkept, ⟨hempty, -⟩ | ⟨hrefused, -⟩⟩ |
      ⟨oldest, later, rfl, -, hmessage, hkept⟩
    · rw [hempty]
      exact hkept
    · rw [hrefused]
      exact hkept
    · rw [hmessage]
      dsimp only
      rw [List.eraseP_cons_of_pos]
      · exact hkept
      · exact decide_eq_true rfl
  | peek size => exact hwaits
  | purge =>
    refine ⟨⟨hring.positive, hring.bounded, hring.positive, ?_, Nat.zero_le _⟩, .nil,
      consecutive_nil _⟩
    exact (Nat.zero_mod _).symm
  | setDeliveryGuarantee guarantee =>
    exact ⟨⟨hring.positive, hring.bounded, hring.head, hring.tail, hring.count⟩, hwaits.carries,
      hwaits.numbers⟩

/-- In a new queue nothing waits. -/
theorem waits_newQueue (queueId : UInt32) (queueName : CString) (queueType : QueueType)
    (capacity : UInt32) (memory : ℕ → Message) (hpositive : capacity ≠ 0)
    (hbounded : capacity ≤ maxQueueSize) :
    Waits (newQueue queueId queueName queueType capacity memory) [] :=
  ⟨(delivers_newQueue queueId queueName queueType capacity memory hpositive hbounded).ring, .nil,
    consecutive_nil _⟩

/-! ### Exactness -/

/-- The message that is to be delivered next is one that waits. -/
theorem mem_of_nextByType {queueType : QueueType} {sent : Sent}
    (hnext : nextByType queueType waiting = some sent) : sent ∈ waiting := by
  cases queueType with
  | fifo => exact List.mem_of_mem_head? hnext
  | priority =>
    rw [nextByType] at hnext
    exact List.mem_of_find?_eq_some hnext
  | lifo => exact List.mem_of_getLast? hnext

/-- Assumes: messages that wait together have different numbers. The oldest message is the next one
exactly when the condition on the type of the queue holds. -/
theorem nextByType_eq_oldest_iff {oldest : Sent} {later : List Sent}
    (hnodup : ((oldest :: later).map fun sent ↦ toInt sent.messageId).Nodup)
    (queueType : QueueType) :
    nextByType queueType (oldest :: later) = some oldest ↔
      match queueType with
      | .fifo => True
      | .priority => ∀ sent ∈ later, sent.priority ≤ oldest.priority
      | .lifo => later = [] := by
  have hnotLater : oldest ∉ later := by
    rw [List.map_cons, List.nodup_cons] at hnodup
    exact fun hmem ↦ hnodup.1 (List.mem_map.mpr ⟨oldest, hmem, rfl⟩)
  cases queueType with
  | fifo => exact iff_of_true rfl trivial
  | priority =>
    have hhighest : (oldest :: later).all (fun other ↦ other.priority ≤ oldest.priority) = true ↔
        ∀ sent ∈ later, sent.priority ≤ oldest.priority := by
      simp
    rw [nextByType, ← hhighest]
    constructor
    · intro hfound
      have hoffered := List.find?_some hfound
      exact hoffered
    · intro hall
      rw [List.find?_cons_of_pos]
      exact hall
  | lifo =>
    rw [nextByType]
    constructor
    · intro hlast
      cases later with
      | nil => rfl
      | cons next rest =>
        rw [List.getLast?_cons_cons] at hlast
        exact absurd (List.mem_of_getLast? hlast) hnotLater
    · rintro rfl
      rfl

/-- A call on a queue delivers by type exactly when the oldest message is the next one, if one of
them fits. -/
theorem Waits.delivers_iff_oldestIsNext (hwaits : Waits queue waiting) (call : QueueCall) :
    DeliversByType queue waiting call ↔ OldestIsNext queue.queueType waiting call := by
  cases call with
  | receive size =>
    rw [DeliversByType, OldestIsNext]
    have hnodup := hwaits.nodup
    rcases hwaits.receive_cases size with
      ⟨-, ⟨hempty, rfl⟩ | ⟨hrefused, oldest, later, rfl, hlong⟩⟩ |
      ⟨oldest, later, rfl, hroom, hmessage, -⟩
    · -- nothing waits, and nothing is to be delivered
      have hnone : nextByType queue.queueType [] = none := by cases queue.queueType <;> rfl
      rw [hempty, hnone]
      simp
    · -- the oldest message does not fit, so that the right one is missed if it fits
      have hnext := nextByType_eq_oldest_iff hnodup queue.queueType
      rw [hrefused]
      constructor
      · rintro hdelivers oldest' later' hsame (hroom | ⟨sent, hsent, hfits⟩)
        · rw [List.cons.injEq] at hsame
          exact absurd (hsame.1 ▸ hroom) hlong
        · have hmissed := (hdelivers _ _).mpr ⟨sent, hsent, hfits, rfl, rfl⟩
          exact absurd hmissed (by simp)
      · refine fun hcondition messageId payload ↦ iff_of_false (by simp) ?_
        rintro ⟨sent, hsent, hfits, -⟩
        have holdest := hnext.mpr (hcondition oldest later rfl (Or.inr ⟨sent, hsent, hfits⟩))
        rw [hsent, Option.some.injEq] at holdest
        exact hlong (holdest ▸ hfits)
    · have hnext := nextByType_eq_oldest_iff hnodup queue.queueType
      rw [hmessage]
      constructor
      · intro hdelivers oldest' later' hsame _
        rw [List.cons.injEq] at hsame
        obtain ⟨rfl, rfl⟩ := hsame
        obtain ⟨sent, hsent, -, hnumber, -⟩ := (hdelivers _ _).mp rfl
        have holdest : sent = oldest :=
          List.inj_on_of_nodup_map hnodup (mem_of_nextByType hsent) List.mem_cons_self hnumber
        exact hnext.mp (holdest ▸ hsent)
      · intro hcondition messageId payload
        rw [hnext.mpr (hcondition oldest later rfl (Or.inl hroom)), Delivery.message.injEq]
        constructor
        · exact fun hreceived ↦ ⟨oldest, rfl, hroom, hreceived⟩
        · rintro ⟨sent, hsent, -, hreceived⟩
          rwa [Option.some.inj hsent]
  | _ => exact Iff.rfl

/-! ### Runs -/

/-- A call to the brokers delivers by the type of its queue. -/
def RunDelivers (traced : List MessageBroker × (UInt32 → UInt32 → List Sent)) (call : BrokerCall) :
    Prop :=
  OnQueue (fun brokerId queueId queue call ↦
    DeliversByType queue (traced.2 brokerId queueId) call) traced.1 call

/-- The condition on a call to the brokers. -/
def RunOldestIsNext (traced : List MessageBroker × (UInt32 → UInt32 → List Sent))
    (call : BrokerCall) : Prop :=
  OnQueue (fun brokerId queueId queue call ↦
    OldestIsNext queue.queueType (traced.2 brokerId queueId) call) traced.1 call

/-- Along every run the rings hold what was sent and not yet received. -/
theorem waits_alongRun (calls : List BrokerCall) :
    AlongRun (withTrace brokerStep (recordsAfter waitingAfter))
      (fun traced ↦ QueuesMatch Waits [] traced.1 traced.2) ([], fun _ _ ↦ []) calls := by
  refine alongRun_invariant _ (fun _ _ ↦ True) (fun traced call hbefore _ ↦ ?_) rowsMatch_nil
    fun _ _ _ ↦ trivial
  refine (queuesMatch_brokerStep_iff hbefore call waits_newQueue).mpr ?_
  cases call with
  | onQueue brokerId queueId call =>
    exact fun queue hqueue ↦ waits_act call (QueuesMatch.related hbefore hqueue)
  | _ => trivial

/-- In a run of the brokers every receive returns the message that the type of its queue says is
next when that one fits, and no other one, exactly when at every receive with room for the message
that has waited longest or for the next one no other message that waits has a higher priority, if
the queue is of the priority type, and no other message waits, if it is of the LIFO type. -/
theorem deliversByType_iff (calls : List BrokerCall) :
    EveryStep (withTrace brokerStep (recordsAfter waitingAfter)) RunDelivers
        ([], fun _ _ ↦ []) calls ↔
      EveryStep (withTrace brokerStep (recordsAfter waitingAfter)) RunOldestIsNext
        ([], fun _ _ ↦ []) calls := by
  refine (waits_alongRun calls).everyStep_congr fun traced call hmatch ↦ ?_
  cases call with
  | onQueue brokerId queueId call =>
    refine forall_congr' fun queue ↦ forall_congr' fun hqueue ↦ ?_
    exact (QueuesMatch.related hmatch hqueue).delivers_iff_oldestIsNext call
  | _ => exact Iff.rfl

/-- The calls that send two messages, the second one with the higher priority, to a queue of a
type. -/
def sendTwo (queueType : QueueType) : List BrokerCall :=
  [.createBroker [] true,
    .createQueue 1 [] queueType 4
      (some fun _ ↦
        { messageId := 0
          priority := 0
          payload := none
          payloadSize := 0
          state := .pending
          deliveryAttempts := 0 }),
    .onQueue 1 1 (.sendPriority [1] 1 true), .onQueue 1 1 (.sendPriority [2] 2 true)]

/-- Of two messages in a queue of the priority type the one with the lower priority is received
first, and in a queue of the LIFO type the one that was sent first. -/
theorem not_deliversByType_second_is_next :
    ¬ EveryStep (withTrace brokerStep (recordsAfter waitingAfter)) RunDelivers ([], fun _ _ ↦ [])
        (sendTwo .priority ++ [.onQueue 1 1 (.receive 16)]) ∧
      ¬ EveryStep (withTrace brokerStep (recordsAfter waitingAfter)) RunDelivers ([], fun _ _ ↦ [])
        (sendTwo .lifo ++ [.onQueue 1 1 (.receive 16)]) := by
  constructor
  · intro hdelivers
    have hreceive := hdelivers (sendTwo .priority) _ (List.prefix_refl _) _ rfl (toInt 2) [2]
    have hmissed := hreceive.mpr ⟨⟨2, [2], 2⟩, by decide +kernel, by decide, rfl, rfl⟩
    revert hmissed
    decide +kernel
  · intro hdelivers
    have hreceive := hdelivers (sendTwo .lifo) _ (List.prefix_refl _) _ rfl (toInt 2) [2]
    have hmissed := hreceive.mpr ⟨⟨2, [2], 2⟩, by decide +kernel, by decide, rfl, rfl⟩
    revert hmissed
    decide +kernel

end OneOS.Broker
