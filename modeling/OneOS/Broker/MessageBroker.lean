import OneOS.Foundation.CStrings
import OneOS.Foundation.NumberedTable
import OneOS.Foundation.Ring
import OneOS.Foundation.Runs

/-!
# The message broker

`services/msg_broker.c`: brokers with queues of messages. Brokers and the queues of a broker are
named by their positions counted from 1. The messages of a queue stand in a ring: a message is
written at the tail and read at the head.

Left out are the checks of pointers, the deletion of brokers and queues, the subscribers, the times
and the sender of a message, which are only written, and the counters of a broker that nothing
changes. Whether there is memory for a payload is an input of a send; the memory of a new ring, with
whatever it holds, is one of the creation of a queue.
-/

set_option autoImplicit false
set_option relaxedAutoImplicit false

namespace OneOS.Broker

open Foundation

/-! ### Queues -/

/-- The number of brokers that there is room for. -/
def maxBrokers : ℕ := 8

/-- `MAX_MESSAGE_QUEUES`. -/
def maxMessageQueues : ℕ := 256

/-- `MAX_QUEUE_SIZE`. -/
def maxQueueSize : UInt32 := 32768

/-- `MAX_MESSAGE_SIZE`. -/
def maxMessageSize : ℕ := 262144

/-- `QueueType`. -/
inductive QueueType
  | fifo
  | priority
  | lifo
  deriving DecidableEq, Repr

/-- `DeliveryGuarantee`. -/
inductive DeliveryGuarantee
  | atMostOnce
  | atLeastOnce
  | exactlyOnce
  deriving DecidableEq, Repr

/-- `MessageState`. -/
inductive MessageState
  | pending
  | delivered
  | acknowledged
  | deadLetter
  deriving DecidableEq, Repr

/-- `Message`. The payload is missing where the pointer to it is NULL. -/
structure Message where
  messageId : UInt64
  priority : UInt32
  payload : Option (List UInt8)
  payloadSize : UInt32
  state : MessageState
  deliveryAttempts : UInt32
  deriving DecidableEq, Repr

/-- The bytes that are copied out of a message. -/
def Message.body (message : Message) : List UInt8 :=
  (message.payload.getD []).take message.payloadSize.toNat

/-- `MessageQueue`. -/
structure MessageQueue where
  queueId : UInt32
  queueName : CString
  queueType : QueueType
  deliveryGuarantee : DeliveryGuarantee
  messageCount : UInt32
  messages : ℕ → Message
  capacity : UInt32
  head : UInt32
  tail : UInt32
  totalMessages : UInt64
  totalBytes : UInt64

/-- What a receive or a peek returns: -1, 0 with a size of 0, or the number of a message as an int,
with the payload copied out. -/
inductive Delivery
  | refused
  | empty
  | message (messageId : Int) (payload : List UInt8)
  deriving DecidableEq, Repr

/-- A number of a message as an int. -/
def toInt (messageId : UInt64) : Int :=
  messageId.toUInt32.toInt32.toInt

/-- `mb_send_message`, on its queue. Without memory for the payload the slot at the tail is changed
and stays free. -/
def MessageQueue.send (queue : MessageQueue) (payload : List UInt8) (malloc : Bool) :
    MessageQueue × Int :=
  if maxMessageSize < payload.length then (queue, -1)
  else if queue.capacity ≤ queue.messageCount then (queue, -1)
  else
    let messageId := queue.totalMessages + 1
    if malloc then
      ({ queue with
        messages := Function.update queue.messages queue.tail.toNat
          { messageId := messageId
            priority := 0
            payload := some payload
            payloadSize := UInt32.ofNat payload.length
            state := .pending
            deliveryAttempts := 0 }
        tail := (queue.tail + 1) % queue.capacity
        messageCount := queue.messageCount + 1
        totalMessages := queue.totalMessages + 1
        totalBytes := queue.totalBytes + UInt64.ofNat payload.length }, toInt messageId)
    else
      ({ queue with
        messages := Function.update queue.messages queue.tail.toNat
          { queue.messages queue.tail.toNat with
            messageId := messageId
            priority := 0
            payload := none } }, -1)

/-- A send to the queue is accepted. -/
def MessageQueue.accepts (queue : MessageQueue) (payload : List UInt8) (malloc : Bool) : Bool :=
  payload.length ≤ maxMessageSize && queue.messageCount < queue.capacity && malloc

/-- `mb_send_priority_message`, on its queue. The priority is written into the slot before the tail
once the message is there. -/
def MessageQueue.sendPriority (queue : MessageQueue) (payload : List UInt8) (priority : UInt32)
    (malloc : Bool) : MessageQueue × Int :=
  let sent := queue.send payload malloc
  if 0 < sent.2 then
    let insertIdx := ((sent.1.tail - 1 + sent.1.capacity) % sent.1.capacity).toNat
    ({ sent.1 with
      messages := Function.update sent.1.messages insertIdx
        { sent.1.messages insertIdx with priority := priority } }, sent.2)
  else sent

/-- `mb_peek_message`, on its queue, with the room that there is for the payload. -/
def MessageQueue.peek (queue : MessageQueue) (size : UInt32) : Delivery :=
  if queue.messageCount = 0 then .empty
  else if size < (queue.messages queue.head.toNat).payloadSize then .refused
  else
    .message (toInt (queue.messages queue.head.toNat).messageId)
      (queue.messages queue.head.toNat).body

/-- `mb_receive_message`, on its queue, with the room that there is for the payload. -/
def MessageQueue.receive (queue : MessageQueue) (size : UInt32) : MessageQueue × Delivery :=
  if queue.messageCount = 0 then (queue, .empty)
  else
    let message := queue.messages queue.head.toNat
    if size < message.payloadSize then (queue, .refused)
    else
      ({ queue with
        messages := Function.update queue.messages queue.head.toNat
          { message with
            state := .delivered
            deliveryAttempts := message.deliveryAttempts + 1 }
        head := (queue.head + 1) % queue.capacity
        messageCount := queue.messageCount - 1 }, .message (toInt message.messageId) message.body)

/-- `mb_purge_queue`, on its queue. -/
def MessageQueue.purge (queue : MessageQueue) : MessageQueue :=
  { queue with messageCount := 0, head := 0, tail := 0 }

/-! ### Brokers -/

/-- `MessageBroker`. -/
structure MessageBroker where
  brokerId : UInt32
  brokerName : CString
  queues : List MessageQueue
  totalMessagesRouted : UInt64
  totalBytesRouted : UInt64

/-- The queue that the ids of a broker and of a queue name. -/
def queueOf (brokers : List MessageBroker) (brokerId queueId : UInt32) : Option MessageQueue :=
  (rowOf brokers brokerId).bind fun broker ↦ rowOf broker.queues queueId

/-- A call on a queue of a broker. -/
def MessageBroker.call (broker : MessageBroker) (queueId : UInt32)
    (act : MessageQueue → MessageQueue × Int) : MessageBroker × Int :=
  ({ broker with queues := (callOn broker.queues queueId act).1 },
    (callOn broker.queues queueId act).2)

/-- `mb_create_broker`. -/
def mbCreateBroker (brokers : List MessageBroker) (name : CString) (malloc : Bool) :
    List MessageBroker × Int :=
  if maxBrokers ≤ brokers.length then (brokers, -1)
  else if malloc then
    let brokerId := UInt32.ofNat (brokers.length + 1)
    (brokers ++
      [{ brokerId := brokerId
         brokerName := name.take 63
         queues := []
         totalMessagesRouted := 0
         totalBytesRouted := 0 }], brokerId.toInt32.toInt)
  else (brokers, -1)

/-- The queue that `mb_create_queue` makes in memory that it is given. -/
def newQueue (queueId : UInt32) (queueName : CString) (queueType : QueueType) (capacity : UInt32)
    (memory : ℕ → Message) : MessageQueue where
  queueId := queueId
  queueName := queueName.take 63
  queueType := queueType
  deliveryGuarantee := .atLeastOnce
  messageCount := 0
  messages := memory
  capacity := capacity
  head := 0
  tail := 0
  totalMessages := 0
  totalBytes := 0

/-- `mb_create_queue`, on its broker. -/
def MessageBroker.createQueue (broker : MessageBroker) (queueName : CString) (queueType : QueueType)
    (capacity : UInt32) (malloc : Option (ℕ → Message)) : MessageBroker × Int :=
  if maxQueueSize < capacity ∨ capacity = 0 then (broker, -1)
  else if maxMessageQueues ≤ broker.queues.length then (broker, -1)
  else
    match malloc with
    | none => (broker, -1)
    | some memory =>
      let queueId := UInt32.ofNat (broker.queues.length + 1)
      ({ broker with
        queues := broker.queues ++ [newQueue queueId queueName queueType capacity memory] },
        queueId.toInt32.toInt)

/-- `mb_create_queue`. -/
def mbCreateQueue (brokers : List MessageBroker) (brokerId : UInt32) (queueName : CString)
    (queueType : QueueType) (capacity : UInt32) (malloc : Option (ℕ → Message)) :
    List MessageBroker × Int :=
  callOn brokers brokerId fun broker ↦ broker.createQueue queueName queueType capacity malloc

/-- Count a message that is sent. -/
def MessageBroker.route (broker : MessageBroker) (accepted : Bool) (size : ℕ) : MessageBroker :=
  if accepted then
    { broker with
      totalMessagesRouted := broker.totalMessagesRouted + 1
      totalBytesRouted := broker.totalBytesRouted + UInt64.ofNat size }
  else broker

/-- A send to a queue of a broker, with or without a priority. -/
def MessageBroker.sendBy (broker : MessageBroker) (queueId : UInt32) (payload : List UInt8)
    (malloc : Bool) (act : MessageQueue → MessageQueue × Int) : MessageBroker × Int :=
  let accepted := (rowOf broker.queues queueId).any fun queue ↦ queue.accepts payload malloc
  let sent := broker.call queueId act
  (sent.1.route accepted payload.length, sent.2)

/-- `mb_send_message`. -/
def mbSendMessage (brokers : List MessageBroker) (brokerId queueId : UInt32) (payload : List UInt8)
    (malloc : Bool) : List MessageBroker × Int :=
  callOn brokers brokerId fun broker ↦
    broker.sendBy queueId payload malloc fun queue ↦ queue.send payload malloc

/-- `mb_send_priority_message`. -/
def mbSendPriorityMessage (brokers : List MessageBroker) (brokerId queueId : UInt32)
    (payload : List UInt8) (priority : UInt32) (malloc : Bool) : List MessageBroker × Int :=
  callOn brokers brokerId fun broker ↦
    broker.sendBy queueId payload malloc fun queue ↦ queue.sendPriority payload priority malloc

/-- `mb_receive_message`. -/
def mbReceiveMessage (brokers : List MessageBroker) (brokerId queueId : UInt32) (size : UInt32) :
    List MessageBroker × Delivery :=
  ((callOn brokers brokerId fun broker ↦
      broker.call queueId fun queue ↦ ((queue.receive size).1, 0)).1,
    ((queueOf brokers brokerId queueId).map fun queue ↦ (queue.receive size).2).getD .refused)

/-- `mb_peek_message`. -/
def mbPeekMessage (brokers : List MessageBroker) (brokerId queueId : UInt32) (size : UInt32) :
    Delivery :=
  ((queueOf brokers brokerId queueId).map fun queue ↦ queue.peek size).getD .refused

/-- `mb_purge_queue`. -/
def mbPurgeQueue (brokers : List MessageBroker) (brokerId queueId : UInt32) :
    List MessageBroker × Int :=
  callOn brokers brokerId fun broker ↦ broker.call queueId fun queue ↦ (queue.purge, 0)

/-- `mb_set_delivery_guarantee`. -/
def mbSetDeliveryGuarantee (brokers : List MessageBroker) (brokerId queueId : UInt32)
    (guarantee : DeliveryGuarantee) : List MessageBroker × Int :=
  callOn brokers brokerId fun broker ↦ broker.call queueId fun queue ↦
    ({ queue with deliveryGuarantee := guarantee }, 0)

/-! ### Calls -/

/-- A call on a queue. -/
inductive QueueCall
  | send (payload : List UInt8) (malloc : Bool)
  | sendPriority (payload : List UInt8) (priority : UInt32) (malloc : Bool)
  | receive (size : UInt32)
  | peek (size : UInt32)
  | purge
  | setDeliveryGuarantee (guarantee : DeliveryGuarantee)

/-- A call to the brokers. -/
inductive BrokerCall
  | createBroker (name : CString) (malloc : Bool)
  | createQueue (brokerId : UInt32) (queueName : CString) (queueType : QueueType)
    (capacity : UInt32) (malloc : Option (ℕ → Message))
  | onQueue (brokerId queueId : UInt32) (call : QueueCall)

/-- What a call does to the brokers. -/
def brokerStep (brokers : List MessageBroker) : BrokerCall → List MessageBroker
  | .createBroker name malloc => (mbCreateBroker brokers name malloc).1
  | .createQueue brokerId queueName queueType capacity malloc =>
    (mbCreateQueue brokers brokerId queueName queueType capacity malloc).1
  | .onQueue brokerId queueId (.send payload malloc) =>
    (mbSendMessage brokers brokerId queueId payload malloc).1
  | .onQueue brokerId queueId (.sendPriority payload priority malloc) =>
    (mbSendPriorityMessage brokers brokerId queueId payload priority malloc).1
  | .onQueue brokerId queueId (.receive size) => (mbReceiveMessage brokers brokerId queueId size).1
  | .onQueue _ _ (.peek _) => brokers
  | .onQueue brokerId queueId .purge => (mbPurgeQueue brokers brokerId queueId).1
  | .onQueue brokerId queueId (.setDeliveryGuarantee guarantee) =>
    (mbSetDeliveryGuarantee brokers brokerId queueId guarantee).1

/-- What a call on a queue does to the queue. -/
def QueueCall.act (queue : MessageQueue) : QueueCall → MessageQueue × Int
  | .send payload malloc => queue.send payload malloc
  | .sendPriority payload priority malloc => queue.sendPriority payload priority malloc
  | .receive size => ((queue.receive size).1, 0)
  | .peek _ => (queue, 0)
  | .purge => (queue.purge, 0)
  | .setDeliveryGuarantee guarantee => ({ queue with deliveryGuarantee := guarantee }, 0)

/-- A call on a queue changes the queue that its ids name. -/
theorem brokerStep_onQueue (brokers : List MessageBroker) (brokerId queueId : UInt32)
    (call : QueueCall) :
    ∃ act : MessageBroker → MessageBroker × Int,
      brokerStep brokers (.onQueue brokerId queueId call) = (callOn brokers brokerId act).1 ∧
        ∀ broker, (act broker).1.queues =
          (callOn broker.queues queueId fun queue ↦ call.act queue).1 := by
  have hroute : ∀ (broker : MessageBroker) (accepted : Bool) (size : ℕ),
      (broker.route accepted size).queues = broker.queues := by
    intro broker accepted size
    unfold MessageBroker.route
    split_ifs <;> rfl
  cases call with
  | send payload malloc => exact ⟨_, rfl, fun broker ↦ hroute _ _ _⟩
  | sendPriority payload priority malloc => exact ⟨_, rfl, fun broker ↦ hroute _ _ _⟩
  | receive size => exact ⟨_, rfl, fun broker ↦ rfl⟩
  | peek size =>
    refine ⟨fun broker ↦ (broker, 0), (callOn_eq_self fun _ _ ↦ rfl).symm, fun broker ↦ ?_⟩
    exact (callOn_eq_self fun _ _ ↦ rfl).symm
  | purge => exact ⟨_, rfl, fun broker ↦ rfl⟩
  | setDeliveryGuarantee guarantee => exact ⟨_, rfl, fun broker ↦ rfl⟩

/-! ### A record for every queue -/

section Records

variable {Record : Type*}

/-- The records that are kept for the queues after a call: the one of the queue that is called is
extended by the call. -/
def recordsAfter (extend : MessageQueue → QueueCall → Record → Record)
    (brokers : List MessageBroker) (call : BrokerCall) (records : UInt32 → UInt32 → Record) :
    UInt32 → UInt32 → Record :=
  match call with
  | .onQueue brokerId queueId call =>
    match queueOf brokers brokerId queueId with
    | none => records
    | some queue =>
      Function.update records brokerId (Function.update (records brokerId) queueId
        (extend queue call (records brokerId queueId)))
  | _ => records

/-- Every queue matches the record that is kept for its ids, and the record for ids that name no
queue is blank. -/
def QueuesMatch (matching : MessageQueue → Record → Prop) (blank : Record)
    (brokers : List MessageBroker) (records : UInt32 → UInt32 → Record) : Prop :=
  RowsMatch (fun broker ↦ RowsMatch matching blank broker.queues) (fun _ ↦ blank) brokers records

/-- The condition on a call to the brokers that comes from one on calls on a queue. -/
def OnQueue (condition : UInt32 → UInt32 → MessageQueue → QueueCall → Prop)
    (brokers : List MessageBroker) : BrokerCall → Prop
  | .onQueue brokerId queueId call =>
    ∀ queue, queueOf brokers brokerId queueId = some queue → condition brokerId queueId queue call
  | _ => True

variable {extend : MessageQueue → QueueCall → Record → Record}
variable {matching : MessageQueue → Record → Prop} {blank : Record}
variable {brokers : List MessageBroker} {records : UInt32 → UInt32 → Record}
variable {brokerId queueId : UInt32} {queue : MessageQueue}

theorem queueOf_eq_some_iff :
    queueOf brokers brokerId queueId = some queue ↔
      ∃ broker, rowOf brokers brokerId = some broker ∧ rowOf broker.queues queueId = some queue :=
  Option.bind_eq_some_iff

/-- A queue matches its record. -/
theorem QueuesMatch.related (hmatch : QueuesMatch matching blank brokers records)
    (hqueue : queueOf brokers brokerId queueId = some queue) :
    matching queue (records brokerId queueId) := by
  obtain ⟨broker, hbroker, hqueue⟩ := queueOf_eq_some_iff.mp hqueue
  exact (RowsMatch.related hmatch brokerId broker hbroker).related queueId queue hqueue

/-- Assumes: what is asked of the queues of a broker is kept when the broker is called. The queues
match the same records after the call. -/
theorem QueuesMatch.callOn_same (hmatch : QueuesMatch matching blank brokers records)
    {act : MessageBroker → MessageBroker × Int}
    (hact : ∀ broker, rowOf brokers brokerId = some broker →
      RowsMatch matching blank broker.queues (records brokerId) →
        RowsMatch matching blank (act broker).1.queues (records brokerId)) :
    QueuesMatch matching blank (callOn brokers brokerId act).1 records := by
  have hsame : QueuesMatch matching blank (callOn brokers brokerId act).1
      (Function.update records brokerId (records brokerId)) ↔
        ∀ broker, rowOf brokers brokerId = some broker →
          RowsMatch matching blank (act broker).1.queues (records brokerId) :=
    RowsMatch.callOn_iff hmatch fun _ ↦ rfl
  rw [Function.update_eq_self] at hsame
  exact hsame.mpr fun broker hbroker ↦
    hact broker hbroker (RowsMatch.related hmatch brokerId broker hbroker)

/-- A call on a queue extends the record of the broker, and in it the record of the queue. -/
theorem recordsAfter_onQueue (call : QueueCall) :
    recordsAfter extend brokers (.onQueue brokerId queueId call) records =
      recordAfter brokers brokerId (fun broker rows ↦
        recordAfter broker.queues queueId (fun queue record ↦ extend queue call record) rows)
        records := by
  rw [recordsAfter, queueOf]
  cases hbroker : rowOf brokers brokerId with
  | none => simp only [recordAfter, hbroker, Option.bind_none]
  | some broker =>
    rw [Option.bind_some]
    cases hqueue : rowOf broker.queues queueId with
    | none => simp only [recordAfter, hbroker, hqueue, Function.update_eq_self]
    | some queue => simp only [recordAfter, hbroker, hqueue]

/-- Assumes: a new queue matches the blank record. The queues match their records after a call
exactly when the queue that is called does. -/
theorem queuesMatch_brokerStep_iff (hmatch : QueuesMatch matching blank brokers records)
    (call : BrokerCall)
    (hnew : ∀ queueId queueName queueType capacity memory, capacity ≠ 0 → capacity ≤ maxQueueSize →
      matching (newQueue queueId queueName queueType capacity memory) blank) :
    QueuesMatch matching blank (brokerStep brokers call)
        (recordsAfter extend brokers call records) ↔
      OnQueue (fun brokerId queueId queue call ↦
        matching (call.act queue).1 (extend queue call (records brokerId queueId))) brokers
        call := by
  cases call with
  | createBroker name malloc =>
    refine iff_of_true ?_ trivial
    rw [brokerStep, mbCreateBroker]
    split_ifs
    · exact hmatch
    · exact RowsMatch.concat hmatch rowsMatch_nil
    · exact hmatch
  | createQueue brokerId queueName queueType capacity malloc =>
    refine iff_of_true (hmatch.callOn_same fun broker _ hqueues ↦ ?_) trivial
    unfold MessageBroker.createQueue
    split_ifs with hcapacity
    · exact hqueues
    · exact hqueues
    · rw [not_or] at hcapacity
      cases malloc with
      | none => exact hqueues
      | some memory =>
        exact hqueues.concat (hnew _ _ _ _ _ hcapacity.2 (UInt32.not_lt.mp hcapacity.1))
  | onQueue brokerId queueId call =>
    obtain ⟨act, hstep, hqueues⟩ := brokerStep_onQueue brokers brokerId queueId call
    rw [hstep, recordsAfter_onQueue, QueuesMatch, RowsMatch.recordAfter_iff hmatch, OnQueue]
    -- both sides speak of the broker that is named, and in it of the queue that is named
    simp only [queueOf_eq_some_iff]
    constructor
    · rintro hbrokers queue ⟨broker, hbroker, hqueue⟩
      have hafter := hbrokers broker hbroker
      rw [hqueues, (RowsMatch.related hmatch brokerId broker hbroker).recordAfter_iff] at hafter
      exact hafter queue hqueue
    · intro hqueue broker hbroker
      rw [hqueues, (RowsMatch.related hmatch brokerId broker hbroker).recordAfter_iff]
      exact fun queue hrow ↦ hqueue queue ⟨broker, hbroker, hrow⟩

end Records

end OneOS.Broker
