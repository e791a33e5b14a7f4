import OneOS.Foundation.Counters
import OneOS.Ipc.IpcManager

/-!
# Bounds of the buffers

The buffers of pipes and sockets hold 4096 bytes and a message queue has 1024 slots, and no write or
send that is accepted should touch memory outside (`InBounds`, `StaysInside`). The room in a buffer
is checked by a sum of 32-bit numbers, which is small again when it wraps, and the room in a queue
by the limit that the caller gave when it was created, which may be larger than the number of slots.

`inBounds_iff` says that these are the only two ways out: a run stays inside exactly when no write
or send to a buffer has a size with which the sum wraps, and no message is sent to a queue that is
full but was created for more messages than it has slots.
-/

set_option autoImplicit false
set_option relaxedAutoImplicit false

namespace OneOS.Ipc

open Foundation

/-! ### Bounds -/

/-- All buffers and queues are filled within their bounds. -/
structure InBounds (manager : IPCManager) : Prop where
  pipes : ∀ pipe ∈ manager.pipes, pipe.bufferSize.toNat ≤ 4096
  sockets : ∀ socket ∈ manager.sockets,
    socket.sendPos.toNat ≤ 4096 ∧ socket.recvPos.toNat ≤ 4096
  queues : ∀ queue ∈ manager.queues, queue.messageCount.toNat ≤ maxQueueMessages

/-- A write or send that is accepted writes inside of the buffer, or to a slot of the queue and
inside of the slot. -/
def StaysInside (manager : IPCManager) : IpcCall → Prop
  | .pipeWrite pipeId (some _) size => ∀ pipe, rowOf manager.pipes pipeId = some pipe →
      pipe.accepts size → pipe.bufferSize.toNat + size.toNat ≤ 4096
  | .socketSend socketId (some _) size => ∀ socket, rowOf manager.sockets socketId = some socket →
      socket.accepts size → socket.sendPos.toNat + size.toNat ≤ 4096
  | .queueSend queueId _ (some _) size _ => ∀ queue, rowOf manager.queues queueId = some queue →
      queue.accepts size → queue.messageCount.toNat < maxQueueMessages ∧ size.toNat ≤ 8192
  | _ => True

/-- The condition on a call: the sum of the size and of what is in the buffer of an open pipe or a
connected socket does not wrap, and no message of an allowed size is sent to a queue of which all
slots are used and that was created for more messages. -/
def FitsBuffers (manager : IPCManager) : IpcCall → Prop
  | .pipeWrite pipeId (some _) size => ∀ pipe, rowOf manager.pipes pipeId = some pipe →
      pipe.isOpen → size.toNat + pipe.bufferSize.toNat < 2 ^ 32
  | .socketSend socketId (some _) size => ∀ socket, rowOf manager.sockets socketId = some socket →
      socket.isConnected → size.toNat + socket.sendPos.toNat < 2 ^ 32
  | .queueSend queueId _ (some _) size _ => ∀ queue, rowOf manager.queues queueId = some queue →
      queue.messageCount.toNat = maxQueueMessages → maxQueueMessages < queue.maxMessages.toNat →
        maxMessageSize < size
  | _ => True

variable {manager : IPCManager} {call : IpcCall} {size fill maxSize : UInt32}

/-! ### 32-bit numbers -/

/-- A sum passes the check against the size of a buffer when it fits or when it wraps. -/
theorem add_le_pipeBufferSize_iff (hfill : fill.toNat ≤ 4096) :
    size + fill ≤ pipeBufferSize ↔
      fill.toNat + size.toNat ≤ 4096 ∨ 2 ^ 32 ≤ size.toNat + fill.toNat := by
  have hsize := size.toNat_lt
  have hbuffer : pipeBufferSize.toNat = 4096 := rfl
  rw [UInt32.le_iff_toNat_le, UInt32.toNat_add, hbuffer]
  omega

/-- A sum that passes the check is the new filling, and it is within the bounds. -/
theorem toNat_add_le (haccepted : size + fill ≤ pipeBufferSize) : (fill + size).toNat ≤ 4096 := by
  rw [UInt32.add_comm]
  exact UInt32.le_iff_toNat_le.mp haccepted

/-- A size that is not too large for an `int` is answered as it is. -/
theorem answer_eq (hsmall : size.toNat < 2 ^ 31) : answer size = size.toNat := by
  have htoNat : size.toBitVec.toNat = size.toNat := rfl
  rw [answer, ← Int32.toInt_toBitVec, UInt32.toBitVec_toInt32,
    BitVec.toInt_eq_toNat_of_lt (by omega)]
  rfl

/-- A size that is not too large for an `int` is not answered as a failure. -/
theorem answer_nonneg (hsmall : size.toNat < 2 ^ 31) : 0 ≤ answer size := by
  rw [answer_eq hsmall]
  exact Int.natCast_nonneg _

/-- Widening a sum that does not wrap. -/
theorem toUInt64_add_of_lt (first second : UInt32)
    (hsum : first.toNat + second.toNat < 2 ^ 32) :
    (first + second).toUInt64 = first.toUInt64 + second.toUInt64 := by
  rw [← UInt64.toNat_inj]
  simp only [UInt32.toNat_toUInt64, UInt32.toNat_add, UInt64.toNat_add]
  omega

/-- The number of messages in a queue with a free slot can be counted up. -/
theorem toNat_count_succ {count : UInt32} (hslot : count.toNat < maxQueueMessages) :
    (count + 1).toNat = count.toNat + 1 := by
  have hless : count.toNat < 1024 := hslot
  exact toNat_succ (Nat.lt_trans (Nat.succ_lt_succ hless) (by decide))

/-- Taking a part of what is in a buffer leaves no more than there was. -/
theorem toNat_sub_ite_le :
    (fill - if maxSize < fill then maxSize else fill).toNat ≤ fill.toNat := by
  have hle : (if maxSize < fill then maxSize else fill) ≤ fill := by
    split_ifs with hless
    · exact UInt32.le_of_lt hless
    · exact UInt32.le_refl fill
  rw [UInt32.toNat_sub_of_le _ _ hle]
  exact Nat.sub_le _ _

/-- Assumes: a filling within the bounds. A size that passes the check stays inside exactly when the
sum does not wrap. -/
theorem staysInside_buffer_iff (hfill : fill.toNat ≤ 4096) {usable : Bool} :
    ((usable && size + fill ≤ pipeBufferSize) = true → fill.toNat + size.toNat ≤ 4096) ↔
      (usable → size.toNat + fill.toNat < 2 ^ 32) := by
  rw [Bool.and_eq_true, decide_eq_true_eq, add_le_pipeBufferSize_iff hfill, and_imp]
  refine forall_congr' fun _ ↦ ⟨fun hinside ↦ ?_, fun hfits haccepted ↦ ?_⟩
  · by_contra hwraps
    have hsum := hinside (Or.inr (Nat.le_of_not_lt hwraps))
    omega
  · exact haccepted.resolve_right (Nat.not_le.mpr hfits)

/-! ### One call -/

/-- A call stays inside exactly when it meets the condition. -/
theorem InBounds.staysInside_iff (hbounds : InBounds manager) :
    StaysInside manager call ↔ FitsBuffers manager call := by
  cases call with
  | pipeWrite pipeId data size =>
    cases data with
    | none => exact Iff.rfl
    | some data =>
      refine forall_congr' fun pipe ↦ forall_congr' fun hpipe ↦ ?_
      exact staysInside_buffer_iff (hbounds.pipes pipe (mem_of_rowOf hpipe))
  | socketSend socketId data size =>
    cases data with
    | none => exact Iff.rfl
    | some data =>
      refine forall_congr' fun socket ↦ forall_congr' fun hsocket ↦ ?_
      exact staysInside_buffer_iff (hbounds.sockets socket (mem_of_rowOf hsocket)).1
  | queueSend queueId senderPid data size timestamp =>
    cases data with
    | none => exact Iff.rfl
    | some data =>
      refine forall_congr' fun queue ↦ forall_congr' fun hqueue ↦ ?_
      have hcount := hbounds.queues queue (mem_of_rowOf hqueue)
      have hlimit : maxMessageSize.toNat = 8192 := rfl
      simp only [MessageQueue.accepts, Bool.and_eq_true, decide_eq_true_eq,
        UInt32.lt_iff_toNat_lt, UInt32.le_iff_toNat_le, hlimit]
      constructor
      · intro hinside hfull hmore
        by_contra hsmall
        have hslot := (hinside ⟨by omega, by omega⟩).1
        omega
      · rintro hcondition ⟨hroom, hsmall⟩
        refine ⟨lt_of_le_of_ne hcount fun hfull ↦ ?_, hsmall⟩
        have hlarge := hcondition hfull (by omega)
        omega
  | _ => exact Iff.rfl

/-- The bounds are kept by a call on a pipe that keeps those of the pipe. -/
theorem InBounds.onPipe (hbounds : InBounds manager) (pipeId : UInt32) {act : Pipe → Pipe × Int}
    (hact : ∀ pipe, pipe.bufferSize.toNat ≤ 4096 → (act pipe).1.bufferSize.toNat ≤ 4096) :
    InBounds { manager with pipes := (callOn manager.pipes pipeId act).1 } := by
  refine ⟨(forall_mem_callOn_iff hbounds.pipes).mpr fun pipe hpipe ↦ ?_, hbounds.sockets,
    hbounds.queues⟩
  exact hact pipe (hbounds.pipes pipe (mem_of_rowOf hpipe))

/-- The bounds are kept by a call on a socket that keeps those of the socket. -/
theorem InBounds.onSocket (hbounds : InBounds manager) (socketId : UInt32)
    {act : Socket → Socket × Int}
    (hact : ∀ socket, socket.sendPos.toNat ≤ 4096 ∧ socket.recvPos.toNat ≤ 4096 →
      (act socket).1.sendPos.toNat ≤ 4096 ∧ (act socket).1.recvPos.toNat ≤ 4096) :
    InBounds (onSocket manager socketId act).1 := by
  refine ⟨hbounds.pipes, (forall_mem_callOn_iff hbounds.sockets).mpr fun socket hsocket ↦ ?_,
    hbounds.queues⟩
  exact hact socket (hbounds.sockets socket (mem_of_rowOf hsocket))

/-- The bounds are kept by a call on a queue that keeps those of the queue. -/
theorem InBounds.onQueue (hbounds : InBounds manager) {queueId : UInt32}
    {act : MessageQueue → MessageQueue × Int}
    (hact : ∀ queue, rowOf manager.queues queueId = some queue →
      queue.messageCount.toNat ≤ maxQueueMessages →
        (act queue).1.messageCount.toNat ≤ maxQueueMessages) :
    InBounds { manager with queues := (callOn manager.queues queueId act).1 } := by
  refine ⟨hbounds.pipes, hbounds.sockets,
    (forall_mem_callOn_iff hbounds.queues).mpr fun queue hqueue ↦ ?_⟩
  exact hact queue hqueue (hbounds.queues queue (mem_of_rowOf hqueue))

/-- A write that a pipe accepts leaves its buffer within the bounds. -/
theorem Pipe.bufferSize_write_le {pipe : Pipe} (hbound : pipe.bufferSize.toNat ≤ 4096)
    (data : Bytes) (size : UInt32) : (pipe.write data size).1.bufferSize.toNat ≤ 4096 := by
  unfold Pipe.write
  split_ifs with haccepts
  · rw [Pipe.accepts, Bool.and_eq_true, decide_eq_true_eq] at haccepts
    exact toNat_add_le haccepts.2
  · exact hbound

/-- A read leaves the buffer of a pipe within the bounds. -/
theorem Pipe.bufferSize_read_le {pipe : Pipe} (hbound : pipe.bufferSize.toNat ≤ 4096)
    (maxSize : UInt32) : (pipe.read maxSize).1.bufferSize.toNat ≤ 4096 := by
  unfold Pipe.read
  split_ifs
  · exact hbound
  · exact hbound
  · exact toNat_sub_ite_le.trans hbound

/-- A message that is sent to a slot of a queue leaves it within its bounds. -/
theorem MessageQueue.messageCount_send_le {queue : MessageQueue} {senderPid : UInt32}
    {data : Bytes} {timestamp : Int} (hcount : queue.messageCount.toNat ≤ maxQueueMessages)
    (hslot : queue.accepts size → queue.messageCount.toNat < maxQueueMessages) :
    (queue.send senderPid data size timestamp).1.messageCount.toNat ≤ maxQueueMessages := by
  unfold MessageQueue.send
  split_ifs with haccepts
  · have hless := hslot haccepts
    simp only [toNat_count_succ hless]
    exact hless
  · exact hcount

/-- A message that is received leaves a queue within its bounds. -/
theorem MessageQueue.messageCount_receive_le {queue : MessageQueue}
    (hcount : queue.messageCount.toNat ≤ maxQueueMessages) (maxSize : UInt32) :
    (queue.receive maxSize).1.messageCount.toNat ≤ maxQueueMessages := by
  unfold MessageQueue.receive
  split_ifs with hempty
  · exact hcount
  · have hpred := toNat_pred_add_one hempty
    show (queue.messageCount - 1).toNat ≤ maxQueueMessages
    omega

/-- Every call that meets the condition keeps all buffers within their bounds. -/
theorem InBounds.step (hbounds : InBounds manager) (hfits : FitsBuffers manager call) :
    InBounds (ipcStep manager call) := by
  have hinside := hbounds.staysInside_iff.mpr hfits
  cases call with
  | createPipe =>
    rw [ipcStep, ipcCreatePipe]
    split_ifs
    · exact hbounds
    · refine ⟨?_, hbounds.sockets, hbounds.queues⟩
      simpa [or_imp, forall_and, freshPipe] using hbounds.pipes
  | pipeWrite pipeId data size =>
    cases data with
    | none => exact hbounds
    | some data =>
      exact hbounds.onPipe pipeId fun _ hbound ↦ Pipe.bufferSize_write_le hbound data size
  | pipeRead pipeId buffered maxSize =>
    rw [ipcStep, ipcPipeRead]
    split_ifs
    · exact hbounds
    · exact hbounds.onPipe pipeId fun _ hbound ↦ Pipe.bufferSize_read_le hbound maxSize
  | pipeClose pipeId => exact hbounds.onPipe pipeId fun _ _ ↦ Nat.zero_le _
  | createMessageQueue ownerPid maxMessages =>
    rw [ipcStep, ipcCreateMessageQueue]
    split_ifs
    · exact hbounds
    · refine ⟨hbounds.pipes, hbounds.sockets, ?_⟩
      simpa [or_imp, forall_and] using hbounds.queues
  | queueSend queueId senderPid data size timestamp =>
    cases data with
    | none => exact hbounds
    | some data =>
      exact hbounds.onQueue fun queue hqueue hcount ↦
        MessageQueue.messageCount_send_le hcount fun haccepts ↦
          (hinside queue hqueue haccepts).1
  | queueReceive queueId buffered maxSize =>
    rw [ipcStep, ipcQueueReceive]
    split_ifs
    · exact hbounds
    · exact hbounds.onQueue fun _ _ hcount ↦ MessageQueue.messageCount_receive_le hcount maxSize
  | queueDelete queueId => exact hbounds.onQueue fun _ _ _ ↦ Nat.zero_le _
  | createSocket =>
    rw [ipcStep, ipcCreateSocket]
    split_ifs
    · exact hbounds
    · refine ⟨hbounds.pipes, ?_, hbounds.queues⟩
      simpa [or_imp, forall_and] using hbounds.sockets
  | socketBind socketId addressed =>
    refine hbounds.onSocket socketId fun socket hsocket ↦ ?_
    split_ifs
    · exact hsocket
    · exact hsocket
  | socketListen socketId =>
    refine hbounds.onSocket socketId fun socket hsocket ↦ ?_
    split_ifs
    · exact hsocket
    · exact hsocket
  | socketConnect socketId addressed =>
    refine hbounds.onSocket socketId fun socket hsocket ↦ ?_
    split_ifs
    · exact hsocket
    · exact hsocket
  | socketSend socketId data size =>
    cases data with
    | none => exact hbounds
    | some data =>
      refine hbounds.onSocket socketId fun socket hsocket ↦ ?_
      split_ifs with haccepts
      · simp only [Socket.accepts, Bool.and_eq_true, decide_eq_true_eq] at haccepts
        exact ⟨toNat_add_le haccepts.2, hsocket.2⟩
      · exact hsocket
  | socketRecv socketId buffered maxSize =>
    refine hbounds.onSocket socketId fun socket hsocket ↦ ?_
    split_ifs
    · exact hsocket
    · exact hsocket
    · exact ⟨hsocket.1, toNat_sub_ite_le.trans hsocket.2⟩
  | socketClose socketId =>
    exact hbounds.onSocket socketId fun _ _ ↦ ⟨Nat.zero_le _, Nat.zero_le _⟩

/-! ### Runs -/

/-- In a run of calls all buffers and queues are filled within their bounds, and every write or send
that is accepted stays inside, exactly when no sum of a size and of what is in a buffer wraps and no
message is sent to a queue that is full but was created for more messages. -/
theorem inBounds_iff (calls : List IpcCall) :
    AlongRun ipcStep InBounds ipcInit calls ∧ EveryStep ipcStep StaysInside ipcInit calls ↔
      EveryStep ipcStep FitsBuffers ipcInit calls := by
  refine alongRun_and_everyStep_iff (fun _ ↦ True) (fun _ _ ↦ True) (fun _ _ _ _ ↦ trivial)
    (fun _ _ _ _ hbounds ↦ ?_) trivial ?_ (fun _ _ _ ↦ trivial)
  · exact ⟨fun hinside ↦ hbounds.staysInside_iff.mp hinside.2,
      fun hfits ↦ ⟨hbounds.step hfits, hbounds.staysInside_iff.mpr hfits⟩⟩
  · exact ⟨by simp [ipcInit], by simp [ipcInit], by simp [ipcInit]⟩

/-- After one byte, a pipe accepts a write of `2 ^ 32 - 1` bytes. -/
theorem inBounds_wrapped_size :
    ¬ (AlongRun ipcStep InBounds ipcInit [.createPipe, .pipeWrite 1 (some fun _ ↦ 0) 1,
          .pipeWrite 1 (some fun _ ↦ 0) 0xFFFFFFFF] ∧
        EveryStep ipcStep StaysInside ipcInit [.createPipe, .pipeWrite 1 (some fun _ ↦ 0) 1,
          .pipeWrite 1 (some fun _ ↦ 0) 0xFFFFFFFF]) := by
  rintro ⟨-, hevery⟩
  have hinside := hevery [.createPipe, .pipeWrite 1 (some fun _ ↦ 0) 1] _ (List.prefix_refl _) _ rfl
    (by decide)
  revert hinside
  decide

end OneOS.Ipc
