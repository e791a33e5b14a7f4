import OneOS.Ipc.BufferBounds

/-!
# A message queue delivers in order

The messages that a queue accepts are received in the order in which they were sent, each of them
once, and each receive gets the first bytes of its message (`Delivers`). A slot of the queue keeps
the bytes of longer messages that were in it before; they are never received, since a message is
read up to its own size.
-/

set_option autoImplicit false
set_option relaxedAutoImplicit false

namespace OneOS.Ipc

open Foundation

/-! ### What goes through a queue -/

/-- The bytes of a message. -/
def Message.body (message : Message) : List UInt8 :=
  firstOf message.data message.size.toNat

/-- The message that a call adds to a queue, if it is accepted. -/
def sentTo (queueId : UInt32) (manager : IPCManager) : IpcCall → List (List UInt8)
  | .queueSend id senderPid (some data) size timestamp =>
    if id = queueId ∧ 0 ≤ (ipcQueueSend manager id senderPid (some data) size timestamp).2 then
      [firstOf data size.toNat]
    else []
  | _ => []

/-- The largest size that a call asks for and the bytes that it gets from a queue that is not
empty. -/
def receivedFrom (queueId : UInt32) (manager : IPCManager) : IpcCall → List (UInt32 × List UInt8)
  | .queueReceive id true maxSize =>
    match rowOf manager.queues id with
    | none => []
    | some queue =>
      if id = queueId ∧ queue.messageCount ≠ 0 then [(maxSize, queue.copied maxSize)] else []
  | _ => []

/-- The receives of a queue have got, one by one, the first bytes of the messages sent to it, the
messages after them are in the queue, each of a size that is allowed, the counters agree with that,
and the queue has a slot for every message it may hold. -/
structure Delivers (queue : MessageQueue) (received : List (UInt32 × List UInt8))
    (sent : List (List UInt8)) : Prop where
  inOrder : ∀ (k : ℕ) maxSize bytes, received[k]? = some (maxSize, bytes) →
    ∃ message, sent[k]? = some message ∧ bytes = message.take maxSize.toNat
  pending : sent.drop received.length =
    (firstOf queue.messages queue.messageCount.toNat).map Message.body
  sizes : ∀ message ∈ firstOf queue.messages queue.messageCount.toNat,
    message.size ≤ maxMessageSize
  counts : queue.totalSent - queue.totalReceived = queue.messageCount.toUInt64
  limit : queue.messageCount ≤ queue.maxMessages
  slots : queue.maxMessages.toNat ≤ maxQueueMessages

/-- A call that creates a queue for at most as many messages as it has slots, sends or receives. -/
def QueueCall : IpcCall → Prop
  | .createMessageQueue _ maxMessages => maxMessages.toNat ≤ maxQueueMessages
  | .queueSend _ _ _ _ _ => True
  | .queueReceive _ _ _ => True
  | _ => False

/-- A call on a queue leaves all others. -/
def OtherQueuesKept (manager : IPCManager) : IpcCall → Prop
  | .queueSend queueId senderPid data size timestamp => ∀ other ≠ queueId,
      rowOf (ipcQueueSend manager queueId senderPid data size timestamp).1.queues other =
        rowOf manager.queues other
  | .queueReceive queueId buffered maxSize => ∀ other ≠ queueId,
      rowOf (ipcQueueReceive manager queueId buffered maxSize).1.queues other =
        rowOf manager.queues other
  | _ => True

/-- A receive that gets a message answers with the number of bytes that it has got, and one that
gets none does not answer with a number of bytes. -/
def AnswersReceives (manager : IPCManager) : IpcCall → Prop
  | .queueReceive queueId buffered maxSize =>
    (∀ asked bytes, (asked, bytes) ∈
        receivedFrom queueId manager (.queueReceive queueId buffered maxSize) →
      (ipcQueueReceive manager queueId buffered maxSize).2 = bytes.length) ∧
      (receivedFrom queueId manager (.queueReceive queueId buffered maxSize) = [] →
        (ipcQueueReceive manager queueId buffered maxSize).2 ≤ 0)
  | _ => True

variable {queue : MessageQueue} {received : List (UInt32 × List UInt8)} {sent : List (List UInt8)}
variable {data : Bytes} {size maxSize senderPid queueId : UInt32} {timestamp : Int}

/-! ### One queue -/

/-- There are at least as many messages sent as received. -/
theorem Delivers.length_le (hdelivers : Delivers queue received sent) :
    received.length ≤ sent.length := by
  by_contra hmore
  have hlt : sent.length < received.length := Nat.lt_of_not_le hmore
  obtain ⟨message, hmessage, -⟩ :=
    hdelivers.inOrder sent.length _ _ (List.getElem?_eq_getElem hlt)
  simp at hmessage

/-- A slot that is filled holds the message. -/
theorem Message.body_fill (message : Message) :
    (message.fill senderPid data size timestamp).body = firstOf data size.toNat := by
  have hcopy := firstOf_copyAt message.data data 0 size.toNat
  rwa [Nat.zero_add, firstOf_zero, List.nil_append] at hcopy

/-- A receive does not get more bytes than the first message has. -/
theorem MessageQueue.copySize_le (queue : MessageQueue) (maxSize : UInt32) :
    queue.copySize maxSize ≤ (queue.messages 0).size := by
  unfold MessageQueue.copySize
  split_ifs with hless
  · exact UInt32.le_of_lt hless
  · exact UInt32.le_refl _

/-- What is received is the first part of the first message. -/
theorem MessageQueue.copied_eq :
    queue.copied maxSize = (queue.messages 0).body.take maxSize.toNat := by
  have hsize : (queue.copySize maxSize).toNat =
      min maxSize.toNat (queue.messages 0).size.toNat := by
    unfold MessageQueue.copySize
    split_ifs with hless
    · rw [Nat.min_eq_left (UInt32.lt_iff_toNat_lt.mp hless).le]
    · rw [Nat.min_eq_right (UInt32.le_iff_toNat_le.mp (UInt32.not_lt.mp hless))]
  rw [MessageQueue.copied, hsize, firstOf_min]
  rfl

/-- A message that is accepted goes to the end of the queue, one that is not changes nothing. -/
theorem Delivers.send (hdelivers : Delivers queue received sent) :
    Delivers (queue.send senderPid data size timestamp).1 received
      (sent ++ if 0 ≤ (queue.send senderPid data size timestamp).2 then [firstOf data size.toNat]
        else []) := by
  by_cases haccepts : queue.accepts size
  · have hchecks := haccepts
    simp only [MessageQueue.accepts, Bool.and_eq_true, decide_eq_true_eq,
      UInt32.lt_iff_toNat_lt, UInt32.le_iff_toNat_le] at hchecks
    obtain ⟨hroom, hsmall⟩ := hchecks
    have hlimit : maxMessageSize.toNat = 8192 := rfl
    have hbelow : queue.messageCount.toNat < 1024 := hroom.trans_le hdelivers.slots
    have hcount := toNat_count_succ hbelow
    have hanswer : 0 ≤ answer size := answer_nonneg (by omega)
    rw [MessageQueue.send, if_pos haccepts, if_pos hanswer]
    refine ⟨fun k maxSize bytes hk ↦ ?_, ?_, ?_, ?_, ?_, hdelivers.slots⟩
    · obtain ⟨message, hmessage, hbytes⟩ := hdelivers.inOrder k maxSize bytes hk
      have hlt := (List.getElem?_eq_some_iff.mp hmessage).1
      exact ⟨message, (List.getElem?_append_left hlt).trans hmessage, hbytes⟩
    · simp only [hcount]
      rw [List.drop_append_of_le_length hdelivers.length_le, hdelivers.pending,
        firstOf_update_succ, List.map_append, List.map_singleton, Message.body_fill]
    · simp only [hcount, firstOf_update_succ, List.forall_mem_append, List.forall_mem_singleton]
      exact ⟨hdelivers.sizes, UInt32.le_iff_toNat_le.mpr hsmall⟩
    · have hcounts := hdelivers.counts
      have hone : (1 : UInt32).toNat = 1 := rfl
      have hwide := toUInt64_add_of_lt queue.messageCount 1 (by omega)
      have hsame : (1 : UInt32).toUInt64 = 1 := rfl
      rw [hsame] at hwide
      simp only
      grind
    · rw [UInt32.le_iff_toNat_le]
      simp only [hcount]
      exact hroom
  · rw [MessageQueue.send, if_neg haccepts, if_neg not_zero_le_neg_one,
      List.append_nil]
    exact hdelivers

/-- A receive takes the first message off a queue that is not empty. -/
theorem Delivers.receive (hdelivers : Delivers queue received sent) :
    Delivers (queue.receive maxSize).1
      (received ++ if queue.messageCount ≠ 0 then [(maxSize, queue.copied maxSize)] else [])
        sent := by
  by_cases hempty : queue.messageCount = 0
  · rw [MessageQueue.receive, if_pos hempty, if_neg (not_not.mpr hempty), List.append_nil]
    exact hdelivers
  · have hcount := toNat_pred_add_one hempty
    have hmessages : firstOf queue.messages queue.messageCount.toNat = queue.messages 0 ::
        firstOf (moveToFront queue.messages 1 (queue.messageCount - 1).toNat)
          (queue.messageCount - 1).toNat := by
      rw [← hcount, Nat.add_comm, ← firstOf_moveToFront]
      rfl
    -- the first message is the one after those that have been received
    have hsplit : (queue.messages 0).body ::
        (firstOf (moveToFront queue.messages 1 (queue.messageCount - 1).toNat)
          (queue.messageCount - 1).toNat).map Message.body = sent.drop received.length := by
      rw [hdelivers.pending, hmessages, List.map_cons]
    have hfirst : sent[received.length]? = some (queue.messages 0).body := by
      rw [← List.head?_drop, ← hsplit, List.head?_cons]
    rw [MessageQueue.receive, if_neg hempty, if_pos hempty]
    refine ⟨fun k size bytes hk ↦ ?_, ?_, fun message hmem ↦ ?_, ?_, ?_, hdelivers.slots⟩
    · rcases getElem?_concat_cases hk with ⟨-, hold⟩ | ⟨rfl, hnew⟩
      · exact hdelivers.inOrder k size bytes hold
      · obtain ⟨rfl, rfl⟩ := Prod.mk.inj hnew
        exact ⟨_, hfirst, MessageQueue.copied_eq⟩
    · rw [List.length_append, List.length_singleton, ← List.drop_drop, ← hsplit]
      rfl
    · refine hdelivers.sizes message ?_
      rw [hmessages]
      exact List.mem_cons_of_mem _ hmem
    · have hcounts := hdelivers.counts
      have hbound := queue.messageCount.toNat_lt
      have hone : (1 : UInt32).toNat = 1 := rfl
      have hwide := toUInt64_add_of_lt (queue.messageCount - 1) 1 (by omega)
      have hsame : (1 : UInt32).toUInt64 = 1 := rfl
      rw [UInt32.sub_add_cancel, hsame] at hwide
      simp only
      grind
    · have hlimit := UInt32.le_iff_toNat_le.mp hdelivers.limit
      rw [UInt32.le_iff_toNat_le]
      simp only
      omega

/-- Assumes: the messages of the queue have sizes that are allowed, and there is one. A receive
answers with the number of bytes that it copies. -/
theorem MessageQueue.receive_answer
    (hsizes : ∀ message ∈ firstOf queue.messages queue.messageCount.toNat,
      message.size ≤ maxMessageSize)
    (hempty : queue.messageCount ≠ 0) :
    (queue.receive maxSize).2 = (queue.copied maxSize).length := by
  have hpositive : 0 < queue.messageCount.toNat :=
    Nat.pos_of_ne_zero fun hzero ↦ hempty (UInt32.toNat_inj.mp hzero)
  have hallowed := hsizes (queue.messages 0) (mem_firstOf.mpr ⟨0, hpositive, rfl⟩)
  have hsize := UInt32.le_iff_toNat_le.mp (UInt32.le_trans (queue.copySize_le maxSize) hallowed)
  have hlimit : maxMessageSize.toNat = 8192 := rfl
  rw [MessageQueue.receive, if_neg hempty, MessageQueue.copied, length_firstOf]
  exact answer_eq (by omega)

/-! ### Runs -/

variable {manager : IPCManager}

/-- What a call sends to a queue is what the queue accepts of it. -/
theorem sentTo_eq (hqueue : rowOf manager.queues queueId = some queue) :
    sentTo queueId manager (.queueSend queueId senderPid (some data) size timestamp) =
      if 0 ≤ (queue.send senderPid data size timestamp).2 then [firstOf data size.toNat]
      else [] := by
  simp [sentTo, ipcQueueSend, callOn_of_some hqueue]

/-- Nothing is sent to another queue or to none. -/
theorem sentTo_eq_nil {id : UInt32} (hnone : id ≠ queueId ∨ rowOf manager.queues queueId = none) :
    sentTo queueId manager (.queueSend id senderPid (some data) size timestamp) = [] :=
  if_neg (not_accepted_callOn hnone)

/-- What a call receives from a queue is its first message. -/
theorem receivedFrom_eq (hqueue : rowOf manager.queues queueId = some queue) :
    receivedFrom queueId manager (.queueReceive queueId true maxSize) =
      if queue.messageCount ≠ 0 then [(maxSize, queue.copied maxSize)] else [] := by
  simp [receivedFrom, hqueue]

/-- Nothing is received from another queue or from none. -/
theorem receivedFrom_eq_nil {id : UInt32}
    (hnone : id ≠ queueId ∨ rowOf manager.queues queueId = none) :
    receivedFrom queueId manager (.queueReceive id true maxSize) = [] := by
  rw [receivedFrom]
  split
  · rfl
  · rename_i queue hqueue
    refine if_neg ?_
    rintro ⟨rfl, -⟩
    rw [hnone.resolve_left (not_not.mpr rfl)] at hqueue
    exact absurd hqueue (by simp)

/-- A queue call keeps a queue delivering what is sent to it. -/
theorem historyAt_queueCall (hhistory : HistoryAt Delivers queueId manager.queues received sent)
    {call : IpcCall} (hcall : QueueCall call) :
    HistoryAt Delivers queueId (ipcStep manager call).queues
      (received ++ receivedFrom queueId manager call)
      (sent ++ sentTo queueId manager call) := by
  cases call with
  | createMessageQueue ownerPid maxMessages =>
    simp only [receivedFrom, sentTo, List.append_nil, ipcStep, ipcCreateMessageQueue]
    split_ifs
    · exact hhistory
    · exact hhistory.concat ⟨by simp, rfl, by simp, by simp, by simp, hcall⟩
  | queueSend id senderPid data size timestamp =>
    cases data with
    | none =>
      simp only [receivedFrom, sentTo, List.append_nil]
      exact hhistory
    | some data =>
      refine hhistory.callOn (fun queue hid hqueue ↦ ?_) fun hnone ↦ ⟨rfl, sentTo_eq_nil hnone⟩
      subst hid
      rw [sentTo_eq hqueue]
      show Delivers _ (received ++ []) _
      rw [List.append_nil]
      exact (hhistory.related queue hqueue).send
  | queueReceive id buffered maxSize =>
    cases buffered with
    | false =>
      simp only [receivedFrom, sentTo, List.append_nil]
      exact hhistory
    | true =>
      refine hhistory.callOn (fun queue hid hqueue ↦ ?_) fun hnone ↦
        ⟨receivedFrom_eq_nil hnone, rfl⟩
      subst hid
      rw [receivedFrom_eq hqueue]
      show Delivers _ _ (sent ++ [])
      rw [List.append_nil]
      exact (hhistory.related queue hqueue).receive
  | _ => exact hcall.elim

/-- A call on a queue leaves all others. -/
theorem otherQueuesKept (manager : IPCManager) (call : IpcCall) : OtherQueuesKept manager call := by
  cases call with
  | queueSend queueId senderPid data size timestamp =>
    intro other hother
    cases data with
    | none => rfl
    | some data => exact rowOf_callOn_ne hother
  | queueReceive queueId buffered maxSize =>
    intro other hother
    rw [ipcQueueReceive]
    split_ifs
    · rfl
    · exact rowOf_callOn_ne hother
  | _ => trivial

/-- A receive answers with the number of bytes that it has got, in a state in which the messages of
every queue have sizes that are allowed. -/
theorem answersReceives
    (hsizes : ∀ id queue, rowOf manager.queues id = some queue →
      ∀ message ∈ firstOf queue.messages queue.messageCount.toNat, message.size ≤ maxMessageSize)
    (call : IpcCall) : AnswersReceives manager call := by
  cases call with
  | queueReceive id buffered maxSize =>
    have hfailed : (-1 : Int) ≤ 0 := by decide
    cases buffered with
    | false => exact ⟨fun _ _ hmem ↦ absurd hmem List.not_mem_nil, fun _ ↦ hfailed⟩
    | true =>
      simp only [AnswersReceives, ipcQueueReceive, Bool.true_eq_false, if_false]
      cases hqueue : rowOf manager.queues id with
      | none =>
        rw [receivedFrom_eq_nil (Or.inr hqueue), callOn_of_none hqueue]
        exact ⟨fun _ _ hmem ↦ absurd hmem List.not_mem_nil, fun _ ↦ hfailed⟩
      | some queue =>
        rw [receivedFrom_eq hqueue, callOn_of_some hqueue]
        by_cases hempty : queue.messageCount = 0
        · rw [MessageQueue.receive, if_pos hempty, if_neg (not_not.mpr hempty)]
          exact ⟨fun _ _ hmem ↦ absurd hmem List.not_mem_nil, fun _ ↦ Int.le_refl _⟩
        · rw [if_pos hempty]
          refine ⟨fun asked bytes hmem ↦ ?_, fun hnone ↦ absurd hnone (List.cons_ne_nil _ _)⟩
          obtain ⟨-, rfl⟩ := Prod.mk.inj (List.mem_singleton.mp hmem)
          exact MessageQueue.receive_answer (hsizes id queue hqueue) hempty
  | _ => trivial

/-- In every run of calls that create queues for at most as many messages as they have slots, send
to them or receive from them, every queue delivers the messages that it has accepted in their order,
each of them once, a call on a queue leaves all others, and a receive that gets a message answers
with the number of its bytes. -/
theorem queues_deliver (calls : List IpcCall) (hcalls : ∀ call ∈ calls, QueueCall call) :
    (∀ queueId queue, rowOf (runFrom ipcStep ipcInit calls).queues queueId = some queue →
      Delivers queue (gather ipcStep (receivedFrom queueId) ipcInit calls)
        (gather ipcStep (sentTo queueId) ipcInit calls)) ∧
      EveryStep ipcStep OtherQueuesKept ipcInit calls ∧
        EveryStep ipcStep AnswersReceives ipcInit calls := by
  have hdelivers (taken : List IpcCall) (htaken : taken <+: calls) (queueId : UInt32) :
      HistoryAt Delivers queueId (runFrom ipcStep ipcInit taken).queues
        (gather ipcStep (receivedFrom queueId) ipcInit taken)
        (gather ipcStep (sentTo queueId) ipcInit taken) := by
    exact gather_invariant (fun manager : IPCManager ↦ HistoryAt Delivers queueId manager.queues)
      (fun _ call ↦ QueueCall call)
      (fun _ _ _ _ hhistory hcall ↦ historyAt_queueCall hhistory hcall)
      historyAt_nil (everyStep_of_forall_mem fun call hmem ↦ hcalls call (htaken.subset hmem))
  refine ⟨fun queueId ↦ (hdelivers calls (List.prefix_refl _) queueId).related,
    fun _ call _ ↦ otherQueuesKept _ call, fun taken call htaken ↦ answersReceives ?_ call⟩
  intro id queue hqueue
  exact ((hdelivers taken ((List.prefix_append _ _).trans htaken) id).related queue hqueue).sizes

/-- Two messages are sent to a queue and the first one is received in part. -/
theorem queues_deliver_received :
    (∀ queueId queue, rowOf (runFrom ipcStep ipcInit [.createMessageQueue 1 8,
        .queueSend 1 1 (some fun i ↦ i.toUInt8) 5 0, .queueSend 1 2 (some fun _ ↦ 7) 1 0,
        .queueReceive 1 true 2]).queues queueId = some queue →
      Delivers queue
        (gather ipcStep (receivedFrom queueId) ipcInit [.createMessageQueue 1 8,
          .queueSend 1 1 (some fun i ↦ i.toUInt8) 5 0, .queueSend 1 2 (some fun _ ↦ 7) 1 0,
          .queueReceive 1 true 2])
        (gather ipcStep (sentTo queueId) ipcInit [.createMessageQueue 1 8,
          .queueSend 1 1 (some fun i ↦ i.toUInt8) 5 0, .queueSend 1 2 (some fun _ ↦ 7) 1 0,
          .queueReceive 1 true 2])) ∧
      EveryStep ipcStep OtherQueuesKept ipcInit [.createMessageQueue 1 8,
        .queueSend 1 1 (some fun i ↦ i.toUInt8) 5 0, .queueSend 1 2 (some fun _ ↦ 7) 1 0,
        .queueReceive 1 true 2] ∧
      EveryStep ipcStep AnswersReceives ipcInit [.createMessageQueue 1 8,
        .queueSend 1 1 (some fun i ↦ i.toUInt8) 5 0, .queueSend 1 2 (some fun _ ↦ 7) 1 0,
        .queueReceive 1 true 2] :=
  queues_deliver _ (by simp [QueueCall, maxQueueMessages])

end OneOS.Ipc
