import OneOS.Foundation.Arrays
import OneOS.Foundation.NumberedTable
import OneOS.Foundation.Runs

/-!
# The manager of pipes, message queues and sockets

`core-services/ipc_manager.c`. Pipes, queues and sockets are rows of tables that are numbered from 1
and never removed. An array is a function of the index, and a pointer to data that a call comes with
is the function it can be read by, or nothing if it is NULL; a call may have a size that is larger
than the array it writes, so what an array stores at an index outside of it is not the concern of
the model but of the bounds that are proved about it.

Left out are the check of the pointer to the manager, the fields that are only ever written
(`pipe_id`, `buffer_pos`, the pids of pipes, the type, protocol and owner of sockets) and the
numbers of rows ever created, which are those of the tables.
-/

set_option autoImplicit false
set_option relaxedAutoImplicit false

namespace OneOS.Ipc

open Foundation

/-! ### Tables -/

/-- `MAX_PIPES`. -/
def maxPipes : ℕ := 1024

/-- `MAX_MESSAGE_QUEUES`. -/
def maxMessageQueues : ℕ := 512

/-- `MAX_SOCKETS`. -/
def maxSockets : ℕ := 2048

/-- `PIPE_BUFFER_SIZE`, the size of the buffer of a pipe and of the two buffers of a socket. -/
def pipeBufferSize : UInt32 := 4096

/-- `MAX_MESSAGE_SIZE`. -/
def maxMessageSize : UInt32 := 8192

/-- `MAX_QUEUE_MESSAGES`, the number of slots of a message queue. -/
def maxQueueMessages : ℕ := 1024

/-- The bytes that a pointer points to. -/
abbrev Bytes := ℕ → UInt8

/-- `Pipe`. -/
structure Pipe where
  buffer : Bytes
  bufferSize : UInt32
  isOpen : Bool
  bytesWritten : UInt64
  bytesRead : UInt64

/-- `Message`. -/
structure Message where
  data : Bytes
  size : UInt32
  senderPid : UInt32
  timestamp : Int

/-- `MessageQueue`. -/
structure MessageQueue where
  ownerPid : UInt32
  messages : ℕ → Message
  messageCount : UInt32
  maxMessages : UInt32
  totalSent : UInt64
  totalReceived : UInt64

/-- `Socket`. -/
structure Socket where
  isListening : Bool
  isConnected : Bool
  sendBuffer : Bytes
  recvBuffer : Bytes
  sendPos : UInt32
  recvPos : UInt32
  bytesSent : UInt64
  bytesReceived : UInt64

/-- `IPCManager`, with the used rows of the tables as lists. -/
structure IPCManager where
  pipes : List Pipe
  queues : List MessageQueue
  sockets : List Socket

/-- `ipc_init`. -/
def ipcInit : IPCManager where
  pipes := []
  queues := []
  sockets := []

/-- A 32-bit size as the `int` that a call answers with. -/
def answer (size : UInt32) : Int :=
  size.toInt32.toInt

/-! ### Pipes -/

/-- The pipe that `ipc_create_pipe` adds. -/
def freshPipe : Pipe where
  buffer := fun _ ↦ 0
  bufferSize := 0
  isOpen := true
  bytesWritten := 0
  bytesRead := 0

/-- `ipc_create_pipe`. -/
def ipcCreatePipe (manager : IPCManager) : IPCManager × UInt32 :=
  if maxPipes ≤ manager.pipes.length then (manager, 0)
  else
    ({ manager with pipes := manager.pipes ++ [freshPipe] }, manager.pipes.length.toUInt32 + 1)

/-- The checks that `ipc_pipe_write` makes of a pipe. The sum is one of 32-bit numbers. -/
def Pipe.accepts (pipe : Pipe) (size : UInt32) : Bool :=
  pipe.isOpen && size + pipe.bufferSize ≤ pipeBufferSize

/-- `ipc_pipe_write` on a pipe. -/
def Pipe.write (pipe : Pipe) (data : Bytes) (size : UInt32) : Pipe × Int :=
  if pipe.accepts size then
    ({ pipe with
      buffer := copyAt pipe.buffer pipe.bufferSize.toNat data size.toNat
      bufferSize := pipe.bufferSize + size
      bytesWritten := pipe.bytesWritten + size.toUInt64 }, answer size)
  else (pipe, -1)

/-- `ipc_pipe_write`. -/
def ipcPipeWrite (manager : IPCManager) (pipeId : UInt32) (data : Option Bytes) (size : UInt32) :
    IPCManager × Int :=
  match data with
  | none => (manager, -1)
  | some data =>
    let called := callOn manager.pipes pipeId (·.write data size)
    ({ manager with pipes := called.1 }, called.2)

/-- `read_size` of `ipc_pipe_read`. -/
def Pipe.readSize (pipe : Pipe) (maxSize : UInt32) : UInt32 :=
  if maxSize < pipe.bufferSize then maxSize else pipe.bufferSize

/-- `ipc_pipe_read` on a pipe. -/
def Pipe.read (pipe : Pipe) (maxSize : UInt32) : Pipe × Int :=
  if pipe.isOpen = false then (pipe, -1)
  else if pipe.bufferSize = 0 then (pipe, 0)
  else
    ({ pipe with
      buffer := moveToFront pipe.buffer (pipe.readSize maxSize).toNat
        (pipe.bufferSize - pipe.readSize maxSize).toNat
      bufferSize := pipe.bufferSize - pipe.readSize maxSize
      bytesRead := pipe.bytesRead + (pipe.readSize maxSize).toUInt64 },
      answer (pipe.readSize maxSize))

/-- `ipc_pipe_read`. `buffered` says whether the call comes with a buffer. -/
def ipcPipeRead (manager : IPCManager) (pipeId : UInt32) (buffered : Bool) (maxSize : UInt32) :
    IPCManager × Int :=
  if buffered = false then (manager, -1)
  else
    let called := callOn manager.pipes pipeId (·.read maxSize)
    ({ manager with pipes := called.1 }, called.2)

/-- The bytes that `ipc_pipe_read` copies into the buffer it is given. -/
def Pipe.copied (pipe : Pipe) (maxSize : UInt32) : List UInt8 :=
  if pipe.isOpen = false ∨ pipe.bufferSize = 0 then []
  else firstOf pipe.buffer (pipe.readSize maxSize).toNat

/-- `ipc_pipe_close`. -/
def ipcPipeClose (manager : IPCManager) (pipeId : UInt32) : IPCManager × Int :=
  let called := callOn manager.pipes pipeId fun pipe ↦
    ({ pipe with isOpen := false, bufferSize := 0 }, 0)
  ({ manager with pipes := called.1 }, called.2)

/-! ### Message queues -/

/-- A slot whose bytes are all 0. -/
def emptyMessage : Message where
  data := fun _ ↦ 0
  size := 0
  senderPid := 0
  timestamp := 0

/-- `ipc_create_message_queue`. -/
def ipcCreateMessageQueue (manager : IPCManager) (ownerPid maxMessages : UInt32) :
    IPCManager × UInt32 :=
  if maxMessageQueues ≤ manager.queues.length then (manager, 0)
  else
    ({ manager with
      queues := manager.queues ++ [{
        ownerPid := ownerPid
        messages := fun _ ↦ emptyMessage
        messageCount := 0
        maxMessages := maxMessages
        totalSent := 0
        totalReceived := 0 }] }, manager.queues.length.toUInt32 + 1)

/-- The checks that `ipc_queue_send` makes of a queue. -/
def MessageQueue.accepts (queue : MessageQueue) (size : UInt32) : Bool :=
  queue.messageCount < queue.maxMessages && size ≤ maxMessageSize

/-- A slot that a message is written to. The bytes behind the message stay. -/
def Message.fill (message : Message) (senderPid : UInt32) (data : Bytes) (size : UInt32)
    (timestamp : Int) : Message where
  data := copyAt message.data 0 data size.toNat
  size := size
  senderPid := senderPid
  timestamp := timestamp

/-- `ipc_queue_send` on a queue. -/
def MessageQueue.send (queue : MessageQueue) (senderPid : UInt32) (data : Bytes) (size : UInt32)
    (timestamp : Int) : MessageQueue × Int :=
  if queue.accepts size then
    ({ queue with
      messages := Function.update queue.messages queue.messageCount.toNat
        ((queue.messages queue.messageCount.toNat).fill senderPid data size timestamp)
      messageCount := queue.messageCount + 1
      totalSent := queue.totalSent + 1 }, answer size)
  else (queue, -1)

/-- `ipc_queue_send`. The timestamp is the time of the call. -/
def ipcQueueSend (manager : IPCManager) (queueId senderPid : UInt32) (data : Option Bytes)
    (size : UInt32) (timestamp : Int) : IPCManager × Int :=
  match data with
  | none => (manager, -1)
  | some data =>
    let called := callOn manager.queues queueId (·.send senderPid data size timestamp)
    ({ manager with queues := called.1 }, called.2)

/-- `copy_size` of `ipc_queue_receive`. -/
def MessageQueue.copySize (queue : MessageQueue) (maxSize : UInt32) : UInt32 :=
  if maxSize < (queue.messages 0).size then maxSize else (queue.messages 0).size

/-- `ipc_queue_receive` on a queue. -/
def MessageQueue.receive (queue : MessageQueue) (maxSize : UInt32) : MessageQueue × Int :=
  if queue.messageCount = 0 then (queue, 0)
  else
    ({ queue with
      messages := moveToFront queue.messages 1 (queue.messageCount - 1).toNat
      messageCount := queue.messageCount - 1
      totalReceived := queue.totalReceived + 1 }, answer (queue.copySize maxSize))

/-- `ipc_queue_receive`. `buffered` says whether the call comes with a buffer. -/
def ipcQueueReceive (manager : IPCManager) (queueId : UInt32) (buffered : Bool)
    (maxSize : UInt32) : IPCManager × Int :=
  if buffered = false then (manager, -1)
  else
    let called := callOn manager.queues queueId (·.receive maxSize)
    ({ manager with queues := called.1 }, called.2)

/-- The bytes that `ipc_queue_receive` copies into the buffer it is given when there is a
message. -/
def MessageQueue.copied (queue : MessageQueue) (maxSize : UInt32) : List UInt8 :=
  firstOf (queue.messages 0).data (queue.copySize maxSize).toNat

/-- `ipc_queue_delete`. -/
def ipcQueueDelete (manager : IPCManager) (queueId : UInt32) : IPCManager × Int :=
  let called := callOn manager.queues queueId fun queue ↦
    ({ queue with messageCount := 0, ownerPid := 0 }, 0)
  ({ manager with queues := called.1 }, called.2)

/-! ### Sockets -/

/-- `ipc_create_socket`. -/
def ipcCreateSocket (manager : IPCManager) : IPCManager × UInt32 :=
  if maxSockets ≤ manager.sockets.length then (manager, 0)
  else
    ({ manager with
      sockets := manager.sockets ++ [{
        isListening := false
        isConnected := false
        sendBuffer := fun _ ↦ 0
        recvBuffer := fun _ ↦ 0
        sendPos := 0
        recvPos := 0
        bytesSent := 0
        bytesReceived := 0 }] }, manager.sockets.length.toUInt32 + 1)

/-- The calls on a socket. -/
def onSocket (manager : IPCManager) (socketId : UInt32) (act : Socket → Socket × Int) :
    IPCManager × Int :=
  let called := callOn manager.sockets socketId act
  ({ manager with sockets := called.1 }, called.2)

/-- `ipc_socket_bind`. `addressed` says whether the call comes with an address. -/
def ipcSocketBind (manager : IPCManager) (socketId : UInt32) (addressed : Bool) :
    IPCManager × Int :=
  onSocket manager socketId fun socket ↦
    if addressed = false ∨ socket.isListening ∨ socket.isConnected then (socket, -1)
    else (socket, 0)

/-- `ipc_socket_listen`. -/
def ipcSocketListen (manager : IPCManager) (socketId : UInt32) : IPCManager × Int :=
  onSocket manager socketId fun socket ↦
    if socket.isConnected then (socket, -1) else ({ socket with isListening := true }, 0)

/-- `ipc_socket_connect`. `addressed` says whether the call comes with an address. -/
def ipcSocketConnect (manager : IPCManager) (socketId : UInt32) (addressed : Bool) :
    IPCManager × Int :=
  onSocket manager socketId fun socket ↦
    if addressed = false ∨ socket.isListening then (socket, -1)
    else ({ socket with isConnected := true }, 0)

/-- The checks that `ipc_socket_send` makes of a socket. The sum is one of 32-bit numbers. -/
def Socket.accepts (socket : Socket) (size : UInt32) : Bool :=
  socket.isConnected && size + socket.sendPos ≤ pipeBufferSize

/-- `ipc_socket_send`. -/
def ipcSocketSend (manager : IPCManager) (socketId : UInt32) (data : Option Bytes)
    (size : UInt32) : IPCManager × Int :=
  match data with
  | none => (manager, -1)
  | some data => onSocket manager socketId fun socket ↦
      if socket.accepts size then
        ({ socket with
          sendBuffer := copyAt socket.sendBuffer socket.sendPos.toNat data size.toNat
          sendPos := socket.sendPos + size
          bytesSent := socket.bytesSent + size.toUInt64 }, answer size)
      else (socket, -1)

/-- `read_size` of `ipc_socket_recv`. -/
def Socket.readSize (socket : Socket) (maxSize : UInt32) : UInt32 :=
  if maxSize < socket.recvPos then maxSize else socket.recvPos

/-- `ipc_socket_recv`. `buffered` says whether the call comes with a buffer. -/
def ipcSocketRecv (manager : IPCManager) (socketId : UInt32) (buffered : Bool)
    (maxSize : UInt32) : IPCManager × Int :=
  onSocket manager socketId fun socket ↦
    if buffered = false ∨ socket.isConnected = false then (socket, -1)
    else if socket.recvPos = 0 then (socket, 0)
    else
      ({ socket with
        recvBuffer := moveToFront socket.recvBuffer (socket.readSize maxSize).toNat
          (socket.recvPos - socket.readSize maxSize).toNat
        recvPos := socket.recvPos - socket.readSize maxSize
        bytesReceived := socket.bytesReceived + (socket.readSize maxSize).toUInt64 },
        answer (socket.readSize maxSize))

/-- `ipc_socket_close`. -/
def ipcSocketClose (manager : IPCManager) (socketId : UInt32) : IPCManager × Int :=
  onSocket manager socketId fun socket ↦
    ({ socket with isListening := false, isConnected := false, sendPos := 0, recvPos := 0 }, 0)

/-! ### Calls -/

/-- A call on the manager. -/
inductive IpcCall
  | createPipe
  | pipeWrite (pipeId : UInt32) (data : Option Bytes) (size : UInt32)
  | pipeRead (pipeId : UInt32) (buffered : Bool) (maxSize : UInt32)
  | pipeClose (pipeId : UInt32)
  | createMessageQueue (ownerPid maxMessages : UInt32)
  | queueSend (queueId senderPid : UInt32) (data : Option Bytes) (size : UInt32) (timestamp : Int)
  | queueReceive (queueId : UInt32) (buffered : Bool) (maxSize : UInt32)
  | queueDelete (queueId : UInt32)
  | createSocket
  | socketBind (socketId : UInt32) (addressed : Bool)
  | socketListen (socketId : UInt32)
  | socketConnect (socketId : UInt32) (addressed : Bool)
  | socketSend (socketId : UInt32) (data : Option Bytes) (size : UInt32)
  | socketRecv (socketId : UInt32) (buffered : Bool) (maxSize : UInt32)
  | socketClose (socketId : UInt32)

/-- The manager after a call. -/
def ipcStep (manager : IPCManager) : IpcCall → IPCManager
  | .createPipe => (ipcCreatePipe manager).1
  | .pipeWrite pipeId data size => (ipcPipeWrite manager pipeId data size).1
  | .pipeRead pipeId buffered maxSize => (ipcPipeRead manager pipeId buffered maxSize).1
  | .pipeClose pipeId => (ipcPipeClose manager pipeId).1
  | .createMessageQueue ownerPid maxMessages =>
    (ipcCreateMessageQueue manager ownerPid maxMessages).1
  | .queueSend queueId senderPid data size timestamp =>
    (ipcQueueSend manager queueId senderPid data size timestamp).1
  | .queueReceive queueId buffered maxSize => (ipcQueueReceive manager queueId buffered maxSize).1
  | .queueDelete queueId => (ipcQueueDelete manager queueId).1
  | .createSocket => (ipcCreateSocket manager).1
  | .socketBind socketId addressed => (ipcSocketBind manager socketId addressed).1
  | .socketListen socketId => (ipcSocketListen manager socketId).1
  | .socketConnect socketId addressed => (ipcSocketConnect manager socketId addressed).1
  | .socketSend socketId data size => (ipcSocketSend manager socketId data size).1
  | .socketRecv socketId buffered maxSize => (ipcSocketRecv manager socketId buffered maxSize).1
  | .socketClose socketId => (ipcSocketClose manager socketId).1

end OneOS.Ipc
