import OneOS.Broker.MessageBroker
import OneOS.Foundation.Counters

/-!
# Queues as rings

The messages of a queue that wait to be received are those in its ring (`MessageQueue.pending`).
What a queue accepts and what is received from it since it was last purged is recorded by
`trafficAfter`.

`queuesDeliver_alongRun`: along every run the bookkeeping of every ring is right, what was accepted
is what was received followed by what waits, a peek shows what the next receive returns, and a
receive that is refused changes nothing. The proof says once what a send and a receive do to what
waits (`pending_place`, `receive_cases`).
-/

set_option autoImplicit false
set_option relaxedAutoImplicit false

namespace OneOS.Broker

open Foundation

/-! ### Rings -/

/-- The bookkeeping of a ring: the tail is as far behind the head as there are messages, around the
end of the ring, and there are no more of them than fit. -/
structure RingState (queue : MessageQueue) : Prop where
  positive : 0 < queue.capacity.toNat
  bounded : queue.capacity.toNat ≤ maxQueueSize.toNat
  head : queue.head.toNat < queue.capacity.toNat
  tail : queue.tail.toNat =
    (queue.head.toNat + queue.messageCount.toNat) % queue.capacity.toNat
  count : queue.messageCount.toNat ≤ queue.capacity.toNat

/-- The messages that wait, oldest first. -/
def MessageQueue.pending (queue : MessageQueue) : List Message :=
  ringOf queue.messages queue.capacity.toNat queue.head.toNat queue.messageCount.toNat

/-- What a queue accepted and what was received from it, since it was last purged. -/
structure Traffic where
  accepted : List (List UInt8)
  received : List (List UInt8)

/-- Nothing was accepted or received. -/
def noTraffic : Traffic where
  accepted := []
  received := []

/-- What went through a queue after a call. -/
def trafficAfter (queue : MessageQueue) (call : QueueCall) (traffic : Traffic) : Traffic :=
  match call with
  | .send payload malloc =>
    if queue.accepts payload malloc then
      { traffic with accepted := traffic.accepted ++ [payload] }
    else traffic
  | .sendPriority payload _ malloc =>
    if queue.accepts payload malloc then
      { traffic with accepted := traffic.accepted ++ [payload] }
    else traffic
  | .receive size =>
    match (queue.receive size).2 with
    | .message _ payload => { traffic with received := traffic.received ++ [payload] }
    | _ => traffic
  | .purge => noTraffic
  | _ => traffic

/-- The ring is in order, and what was accepted is what was received and then what waits. -/
structure Delivers (queue : MessageQueue) (traffic : Traffic) : Prop where
  ring : RingState queue
  order : traffic.received ++ queue.pending.map Message.body = traffic.accepted

/-- The answer to a send: the number of the message as an int, if it is accepted, else -1. -/
def MessageQueue.answer (queue : MessageQueue) (payload : List UInt8) (malloc : Bool) : Int :=
  if queue.accepts payload malloc then toInt (queue.totalMessages + 1) else -1

/-- Every queue delivers what it accepted. A peek returns what a receive would return, and what it
shows is the first payload that was accepted and not received, so that no send changes it; a receive
that is refused changes nothing. What is accepted is what a send answers with a number. -/
structure QueuesDeliver (traced : List MessageBroker × (UInt32 → UInt32 → Traffic)) : Prop where
  delivers : ∀ brokerId queueId queue, queueOf traced.1 brokerId queueId = some queue →
    Delivers queue (traced.2 brokerId queueId)
  peeks : ∀ brokerId queueId size, mbPeekMessage traced.1 brokerId queueId size =
    (mbReceiveMessage traced.1 brokerId queueId size).2
  shows : ∀ brokerId queueId size messageId payload,
    mbPeekMessage traced.1 brokerId queueId size = .message messageId payload →
      (traced.2 brokerId queueId).accepted[(traced.2 brokerId queueId).received.length]? =
        some payload
  refused : ∀ brokerId queueId size,
    (mbReceiveMessage traced.1 brokerId queueId size).2 = .refused →
      (mbReceiveMessage traced.1 brokerId queueId size).1 = traced.1
  answers : ∀ brokerId queueId queue payload malloc,
    queueOf traced.1 brokerId queueId = some queue →
      (mbSendMessage traced.1 brokerId queueId payload malloc).2 =
          queue.answer payload malloc ∧
        ∀ priority, (mbSendPriorityMessage traced.1 brokerId queueId payload priority malloc).2 =
          queue.answer payload malloc

/-! ### Sends -/

variable {queue : MessageQueue} {payload : List UInt8} {malloc : Bool} {traffic : Traffic}

/-- Put a message into the slot at the tail. -/
def MessageQueue.place (queue : MessageQueue) (message : Message) (size : ℕ) : MessageQueue :=
  { queue with
    messages := Function.update queue.messages queue.tail.toNat message
    tail := (queue.tail + 1) % queue.capacity
    messageCount := queue.messageCount + 1
    totalMessages := queue.totalMessages + 1
    totalBytes := queue.totalBytes + UInt64.ofNat size }

/-- The message that a send makes. -/
def MessageQueue.sentMessage (queue : MessageQueue) (payload : List UInt8) (priority : UInt32) :
    Message where
  messageId := queue.totalMessages + 1
  priority := priority
  payload := some payload
  payloadSize := UInt32.ofNat payload.length
  state := .pending
  deliveryAttempts := 0

theorem accepts_iff :
    queue.accepts payload malloc = true ↔
      payload.length ≤ maxMessageSize ∧ queue.messageCount < queue.capacity ∧ malloc = true := by
  simp [MessageQueue.accepts, and_assoc]

/-- A send that is accepted puts its message at the tail. -/
theorem send_of_accepts (haccepts : queue.accepts payload malloc = true) :
    queue.send payload malloc =
      (queue.place (queue.sentMessage payload 0) payload.length,
        toInt (queue.totalMessages + 1)) := by
  obtain ⟨hsize, hroom, hmalloc⟩ := accepts_iff.mp haccepts
  rw [MessageQueue.send, if_neg (Nat.not_lt.mpr hsize), if_neg (UInt32.not_le.mpr hroom),
    if_pos hmalloc]
  rfl

/-- The body of a message is the payload that was sent. -/
theorem body_sentMessage (priority : UInt32) (haccepts : queue.accepts payload malloc = true) :
    (queue.sentMessage payload priority).body = payload := by
  have hsize : payload.length < UInt32.size :=
    (accepts_iff.mp haccepts).1.trans_lt (by decide)
  rw [Message.body, MessageQueue.sentMessage, UInt32.toNat_ofNat_of_lt' hsize]
  exact List.take_length

/-- The tail is a slot of the ring. -/
theorem RingState.tail_lt (hring : RingState queue) :
    queue.tail.toNat < queue.capacity.toNat := by
  rw [hring.tail]
  exact Nat.mod_lt _ hring.positive

/-- A message that is placed leaves the ring in order. -/
theorem RingState.place (hring : RingState queue) (hroom : queue.messageCount < queue.capacity)
    (message : Message) (size : ℕ) : RingState (queue.place message size) := by
  have hlt := UInt32.lt_iff_toNat_lt.mp hroom
  have hcount := toNat_succ_of_lt hlt
  have hnext := toNat_succ_of_lt hring.tail_lt
  refine ⟨hring.positive, hring.bounded, hring.head, ?_, ?_⟩
  · show ((queue.tail + 1) % queue.capacity).toNat =
      (queue.head.toNat + (queue.messageCount + 1).toNat) % queue.capacity.toNat
    rw [UInt32.toNat_mod, hnext, hring.tail, Nat.mod_add_mod, hcount, Nat.add_assoc]
  · show (queue.messageCount + 1).toNat ≤ queue.capacity.toNat
    rw [hcount]
    exact hlt

/-- A message that is placed waits behind all others. -/
theorem pending_place (hring : RingState queue) (hroom : queue.messageCount < queue.capacity)
    (message : Message) (size : ℕ) :
    (queue.place message size).pending = queue.pending ++ [message] := by
  have hlt := UInt32.lt_iff_toNat_lt.mp hroom
  show ringOf (Function.update queue.messages queue.tail.toNat message) queue.capacity.toNat
    queue.head.toNat (queue.messageCount + 1).toNat = _
  rw [toNat_succ_of_lt hlt, hring.tail]
  exact ringOf_push queue.messages queue.head.toNat message hlt

/-- A send that is not accepted leaves the ring and what waits. -/
theorem send_of_not_accepts (hring : RingState queue)
    (hrefused : ¬ queue.accepts payload malloc = true) :
    RingState (queue.send payload malloc).1 ∧
      (queue.send payload malloc).1.pending = queue.pending ∧
        (queue.send payload malloc).2 = -1 := by
  unfold MessageQueue.send
  split_ifs with hsize hfull hmalloc
  · exact ⟨hring, rfl, rfl⟩
  · exact ⟨hring, rfl, rfl⟩
  · exact absurd (accepts_iff.mpr ⟨Nat.not_lt.mp hsize, UInt32.not_le.mp hfull, hmalloc⟩) hrefused
  · refine ⟨⟨hring.positive, hring.bounded, hring.head, hring.tail, hring.count⟩, ?_, rfl⟩
    have hlt := UInt32.lt_iff_toNat_lt.mp (UInt32.not_le.mp hfull)
    show ringOf (Function.update queue.messages queue.tail.toNat _) queue.capacity.toNat
      queue.head.toNat queue.messageCount.toNat = queue.pending
    rw [hring.tail]
    exact ringOf_update queue.messages queue.head.toNat _ (Nat.le_refl _) hlt

/-- The slot before the tail, once a message is placed, is the one that it was placed into. -/
theorem RingState.slot_before_tail (hring : RingState queue) :
    (((queue.tail + 1) % queue.capacity - 1 + queue.capacity) % queue.capacity).toNat =
      queue.tail.toNat := by
  have hbounded : queue.capacity.toNat ≤ 32768 := hring.bounded
  have htail := hring.tail_lt
  rw [UInt32.toNat_mod, UInt32.toNat_add, UInt32.toNat_sub, UInt32.toNat_mod,
    toNat_succ_of_lt htail, UInt32.toNat_one]
  by_cases hwraps : queue.tail.toNat + 1 = queue.capacity.toNat
  · rw [← hwraps, Nat.mod_self]
    have hsum : (2 ^ 32 - 1 + 0) % 2 ^ 32 + (queue.tail.toNat + 1) = 2 ^ 32 + queue.tail.toNat := by
      omega
    rw [hsum, Nat.add_mod_left, Nat.mod_eq_of_lt (show queue.tail.toNat < 2 ^ 32 by omega)]
    exact Nat.mod_eq_of_lt (Nat.lt_succ_self _)
  · rw [Nat.mod_eq_of_lt (show queue.tail.toNat + 1 < queue.capacity.toNat by omega)]
    have hback : (2 ^ 32 - 1 + (queue.tail.toNat + 1)) % 2 ^ 32 = queue.tail.toNat := by omega
    rw [hback, Nat.mod_eq_of_lt (show queue.tail.toNat + queue.capacity.toNat < 2 ^ 32 by omega),
      Nat.add_mod_right, Nat.mod_eq_of_lt htail]

/-- A send with a priority that is accepted puts its message at the tail, with its priority as long
as the number of the message is positive as an int. -/
theorem sendPriority_of_accepts (hring : RingState queue) (priority : UInt32)
    (haccepts : queue.accepts payload malloc = true) :
    (queue.sendPriority payload priority malloc).1 =
      queue.place (queue.sentMessage payload
        (if 0 < toInt (queue.totalMessages + 1) then priority else 0)) payload.length := by
  rw [MessageQueue.sendPriority, send_of_accepts haccepts]
  dsimp only
  split_ifs with hpositive
  · have hslot := hring.slot_before_tail
    simp only [MessageQueue.place, hslot, Function.update_self, Function.update_idem]
    rfl
  · rfl

/-- A send with a priority that is not accepted is one without. -/
theorem sendPriority_of_not_accepts (hring : RingState queue) (priority : UInt32)
    (hrefused : ¬ queue.accepts payload malloc = true) :
    queue.sendPriority payload priority malloc = queue.send payload malloc := by
  rw [MessageQueue.sendPriority, if_neg]
  rw [(send_of_not_accepts hring hrefused).2.2]
  decide

/-- The answers to a send and to a send with a priority. -/
theorem answer_of_send (hring : RingState queue) (payload : List UInt8) (malloc : Bool) :
    (queue.send payload malloc).2 = queue.answer payload malloc ∧
      ∀ priority, (queue.sendPriority payload priority malloc).2 =
        queue.answer payload malloc := by
  have hsend : (queue.send payload malloc).2 = queue.answer payload malloc := by
    rw [MessageQueue.answer]
    split_ifs with haccepts
    · rw [send_of_accepts haccepts]
    · exact (send_of_not_accepts hring haccepts).2.2
  refine ⟨hsend, fun priority ↦ ?_⟩
  rw [← hsend, MessageQueue.sendPriority]
  split_ifs <;> rfl

/-! ### Receives -/

/-- A peek shows what a receive returns. -/
theorem peek_eq_receive (size : UInt32) : queue.peek size = (queue.receive size).2 := by
  unfold MessageQueue.peek MessageQueue.receive
  dsimp only
  split_ifs <;> rfl

/-- What a receive does: it returns no message and leaves the queue, or it returns the message that
has waited longest, which waits no more. -/
theorem receive_cases (hring : RingState queue) (size : UInt32) :
    (queue.receive size).1 = queue ∧
        ((queue.receive size).2 = .empty ∧ queue.pending = [] ∨
          (queue.receive size).2 = .refused ∧ ∃ message later, queue.pending = message :: later ∧
            size < message.payloadSize) ∨
      ∃ message, queue.pending = message :: (queue.receive size).1.pending ∧
        (queue.receive size).2 = .message (toInt message.messageId) message.body ∧
          ¬ size < message.payloadSize ∧ RingState (queue.receive size).1 := by
  by_cases hempty : queue.messageCount = 0
  · refine Or.inl ?_
    rw [MessageQueue.receive, if_pos hempty, MessageQueue.pending, hempty]
    exact ⟨rfl, Or.inl ⟨rfl, rfl⟩⟩
  have hcount := (toNat_pred_add_one hempty).symm
  have hcountLe := hring.count
  have hnext : ((queue.head + 1) % queue.capacity).toNat =
      (queue.head.toNat + 1) % queue.capacity.toNat := by
    rw [UInt32.toNat_mod, toNat_succ_of_lt hring.head]
  have hpending : queue.pending = queue.messages queue.head.toNat ::
      ringOf queue.messages queue.capacity.toNat
        ((queue.head.toNat + 1) % queue.capacity.toNat) (queue.messageCount - 1).toNat := by
    rw [MessageQueue.pending, hcount, ringOf_pop, Nat.mod_eq_of_lt hring.head]
  by_cases hsmall : size < (queue.messages queue.head.toNat).payloadSize
  · rw [MessageQueue.receive, if_neg hempty, if_pos hsmall]
    exact Or.inl ⟨rfl, Or.inr ⟨rfl, _, _, hpending, hsmall⟩⟩
  · refine Or.inr ⟨queue.messages queue.head.toNat, ?_⟩
    rw [MessageQueue.receive, if_neg hempty, if_neg hsmall, hpending]
    refine ⟨?_, rfl, hsmall, hring.positive, hring.bounded, ?_, ?_, ?_⟩
    · congr 1
      show _ = ringOf (Function.update queue.messages queue.head.toNat _) queue.capacity.toNat
        ((queue.head + 1) % queue.capacity).toNat (queue.messageCount - 1).toNat
      rw [hnext, ringOf_update_popped _ _ hring.head (by omega)]
    · show ((queue.head + 1) % queue.capacity).toNat < queue.capacity.toNat
      rw [hnext]
      exact Nat.mod_lt _ hring.positive
    · show queue.tail.toNat = (((queue.head + 1) % queue.capacity).toNat +
        (queue.messageCount - 1).toNat) % queue.capacity.toNat
      rw [hnext, Nat.mod_add_mod, hring.tail, hcount]
      congr 1
      omega
    · show (queue.messageCount - 1).toNat ≤ queue.capacity.toNat
      omega

/-! ### Runs -/

/-- Every call on a queue keeps the ring in order and delivers what was accepted. -/
theorem delivers_act (call : QueueCall) (hdelivers : Delivers queue traffic) :
    Delivers (call.act queue).1 (trafficAfter queue call traffic) := by
  have hring := hdelivers.ring
  -- a message that is placed is accepted and waits
  have hplaced : ∀ payload malloc priority, queue.accepts payload malloc = true →
      Delivers (queue.place (queue.sentMessage payload priority) payload.length)
        { traffic with accepted := traffic.accepted ++ [payload] } := by
    intro payload malloc priority haccepts
    have hroom := (accepts_iff.mp haccepts).2.1
    refine ⟨hring.place hroom _ _, ?_⟩
    rw [pending_place hring hroom, List.map_append, List.map_singleton,
      body_sentMessage priority haccepts, ← List.append_assoc, hdelivers.order]
  cases call with
  | send payload malloc =>
    rw [QueueCall.act, trafficAfter]
    by_cases haccepts : queue.accepts payload malloc = true
    · rw [if_pos haccepts, send_of_accepts haccepts]
      exact hplaced payload malloc 0 haccepts
    · obtain ⟨hringAfter, hpending, -⟩ := send_of_not_accepts hring haccepts
      rw [if_neg haccepts]
      exact ⟨hringAfter, by rw [hpending, hdelivers.order]⟩
  | sendPriority payload priority malloc =>
    rw [QueueCall.act, trafficAfter]
    by_cases haccepts : queue.accepts payload malloc = true
    · rw [if_pos haccepts, sendPriority_of_accepts hring priority haccepts]
      exact hplaced payload malloc _ haccepts
    · obtain ⟨hringAfter, hpending, -⟩ := send_of_not_accepts hring haccepts
      rw [if_neg haccepts, sendPriority_of_not_accepts hring priority haccepts]
      exact ⟨hringAfter, by rw [hpending, hdelivers.order]⟩
  | receive size =>
    rw [QueueCall.act, trafficAfter]
    rcases receive_cases hring size with ⟨hsame, hnone⟩ |
      ⟨message, hpending, hmessage, -, hringAfter⟩
    · have hkeep : Delivers (queue.receive size).1 traffic := by
        rw [hsame]
        exact hdelivers
      rcases hnone with ⟨hempty, -⟩ | ⟨hrefused, -⟩
      · rw [hempty]
        exact hkeep
      · rw [hrefused]
        exact hkeep
    · rw [hmessage]
      refine ⟨hringAfter, ?_⟩
      have horder := hdelivers.order
      rw [hpending, List.map_cons] at horder
      rw [List.append_assoc, List.singleton_append]
      exact horder
  | peek size => exact hdelivers
  | purge =>
    refine ⟨⟨hring.positive, hring.bounded, hring.positive, ?_, Nat.zero_le _⟩, rfl⟩
    exact (Nat.zero_mod _).symm
  | setDeliveryGuarantee guarantee =>
    exact ⟨⟨hring.positive, hring.bounded, hring.head, hring.tail, hring.count⟩, hdelivers.order⟩

/-- A new queue has delivered nothing. -/
theorem delivers_newQueue (queueId : UInt32) (queueName : CString) (queueType : QueueType)
    (capacity : UInt32) (memory : ℕ → Message) (hpositive : capacity ≠ 0)
    (hbounded : capacity ≤ maxQueueSize) :
    Delivers (newQueue queueId queueName queueType capacity memory) noTraffic := by
  have hcapacity := toNat_pos hpositive
  refine ⟨⟨hcapacity, UInt32.le_iff_toNat_le.mp hbounded, hcapacity, ?_, Nat.zero_le _⟩, rfl⟩
  exact (Nat.zero_mod _).symm

/-- Queues that match what went through them deliver it. -/
theorem queuesDeliver_of_match {brokers : List MessageBroker} {traffics : UInt32 → UInt32 → Traffic}
    (hmatch : QueuesMatch Delivers noTraffic brokers traffics) :
    QueuesDeliver (brokers, traffics) := by
  have hpeeks : ∀ brokerId queueId size, mbPeekMessage brokers brokerId queueId size =
      (mbReceiveMessage brokers brokerId queueId size).2 := by
    intro brokerId queueId size
    rw [mbPeekMessage, mbReceiveMessage]
    simp only [peek_eq_receive]
  refine ⟨fun brokerId queueId queue hqueue ↦ hmatch.related hqueue, hpeeks, ?_, ?_, ?_⟩
  · intro brokerId queueId size messageId payload hpeek
    cases hqueue : queueOf brokers brokerId queueId with
    | none => simp [mbPeekMessage, hqueue] at hpeek
    | some queue =>
      have hdelivers := hmatch.related hqueue
      rw [mbPeekMessage, hqueue, Option.map_some, Option.getD_some, peek_eq_receive] at hpeek
      rcases receive_cases hdelivers.ring size with ⟨-, ⟨hempty, -⟩ | ⟨hrefused, -⟩⟩ | ⟨message,
        hpending, hmessage, -, -⟩
      · rw [hempty] at hpeek
        exact absurd hpeek (by simp)
      · rw [hrefused] at hpeek
        exact absurd hpeek (by simp)
      · rw [hmessage, Delivery.message.injEq] at hpeek
        have horder := hdelivers.order
        rw [hpending, List.map_cons] at horder
        dsimp only
        rw [← horder, List.getElem?_append_right (Nat.le_refl _), Nat.sub_self, ← hpeek.2]
        rfl
  · intro brokerId queueId size hrefused
    refine callOn_eq_self fun broker hbroker ↦ ?_
    have hqueues : (callOn broker.queues queueId fun queue ↦ ((queue.receive size).1, 0)).1 =
        broker.queues := by
      refine callOn_eq_self fun queue hqueue ↦ ?_
      have hfound : queueOf brokers brokerId queueId = some queue :=
        queueOf_eq_some_iff.mpr ⟨broker, hbroker, hqueue⟩
      rcases receive_cases (hmatch.related hfound).ring size with ⟨hsame, -⟩ |
        ⟨message, -, hmessage, -, -⟩
      · exact hsame
      · rw [mbReceiveMessage, hfound, Option.map_some, Option.getD_some, hmessage] at hrefused
        exact absurd hrefused (by simp)
    rw [MessageBroker.call, hqueues]
  · intro brokerId queueId queue payload malloc hqueue
    obtain ⟨broker, hbroker, hrow⟩ := queueOf_eq_some_iff.mp hqueue
    have hsent : ∀ act : MessageQueue → MessageQueue × Int,
        (callOn brokers brokerId fun broker ↦ broker.sendBy queueId payload malloc act).2 =
          (act queue).2 := by
      intro act
      rw [callOn_of_some hbroker]
      exact congrArg Prod.snd (callOn_of_some hrow)
    obtain ⟨hsend, hpriority⟩ := answer_of_send (hmatch.related hqueue).ring payload malloc
    exact ⟨(hsent _).trans hsend, fun priority ↦ (hsent _).trans (hpriority priority)⟩

/-- Along every run of the brokers, whatever memory there is, every ring is in order, what every
queue accepted since it was last purged is what was received from it followed by what waits, a peek
shows what the next receive returns, a receive that is refused changes nothing, and a send answers
with a number exactly what is accepted. -/
theorem queuesDeliver_alongRun (calls : List BrokerCall) :
    AlongRun (withTrace brokerStep (recordsAfter trafficAfter)) QueuesDeliver
      ([], fun _ _ ↦ noTraffic) calls := by
  have hmatch : AlongRun (withTrace brokerStep (recordsAfter trafficAfter))
      (fun traced ↦ QueuesMatch Delivers noTraffic traced.1 traced.2) ([], fun _ _ ↦ noTraffic)
      calls := by
    refine alongRun_invariant _ (fun _ _ ↦ True) (fun traced call hbefore _ ↦ ?_) rowsMatch_nil
      fun _ _ _ ↦ trivial
    refine (queuesMatch_brokerStep_iff hbefore call delivers_newQueue).mpr ?_
    cases call with
    | onQueue brokerId queueId call =>
      exact fun queue hqueue ↦ delivers_act call (QueuesMatch.related hbefore hqueue)
    | _ => trivial
  exact hmatch.imp fun _ hreached ↦ queuesDeliver_of_match hreached

end OneOS.Broker
