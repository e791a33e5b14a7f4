import OneOS.Ipc.BufferBounds

/-!
# A pipe is a stream of bytes

What has been read from a pipe and what is in its buffer make up, in this order, what has been
written to it (`Stream`). A write appends to what is in use of the buffer, and a read takes a part
from its front, whatever the sizes are, as long as no write is larger than the buffer; larger sizes
are the subject of the bounds of all buffers.
-/

set_option autoImplicit false
set_option relaxedAutoImplicit false

namespace OneOS.Ipc

open Foundation

/-! ### What goes through a pipe -/

/-- The bytes that a call writes to a pipe, none if it fails. -/
def writtenTo (pipeId : UInt32) (manager : IPCManager) : IpcCall → List UInt8
  | .pipeWrite id (some data) size =>
    if id = pipeId ∧ 0 ≤ (ipcPipeWrite manager id (some data) size).2 then firstOf data size.toNat
    else []
  | _ => []

/-- The bytes that a call reads from a pipe, none if it fails. -/
def readFrom (pipeId : UInt32) (manager : IPCManager) : IpcCall → List UInt8
  | .pipeRead id true maxSize =>
    if id = pipeId ∧ 0 ≤ (ipcPipeRead manager id true maxSize).2 then
      ((rowOf manager.pipes id).map fun pipe ↦ pipe.copied maxSize).getD []
    else []
  | _ => []

/-- What has been read from a pipe and what is in its buffer is what has been written to it, the
counters agree with that, and the buffer is within its bounds. -/
structure Stream (pipe : Pipe) (readBytes writtenBytes : List UInt8) : Prop where
  bytes : readBytes ++ firstOf pipe.buffer pipe.bufferSize.toNat = writtenBytes
  counts : pipe.bytesWritten - pipe.bytesRead = pipe.bufferSize.toUInt64
  bound : pipe.bufferSize.toNat ≤ 4096

/-- A call that creates a pipe, writes at most as much as a buffer holds, or reads. -/
def PipeCall : IpcCall → Prop
  | .createPipe => True
  | .pipeWrite _ _ size => size ≤ pipeBufferSize
  | .pipeRead _ _ _ => True
  | _ => False

/-- A write or a read that fails changes nothing. -/
def FailureKeepsPipes (manager : IPCManager) : IpcCall → Prop
  | .pipeWrite pipeId data size =>
    (ipcPipeWrite manager pipeId data size).2 < 0 →
      (ipcPipeWrite manager pipeId data size).1 = manager
  | .pipeRead pipeId buffered maxSize =>
    (ipcPipeRead manager pipeId buffered maxSize).2 < 0 →
      (ipcPipeRead manager pipeId buffered maxSize).1 = manager
  | _ => True

/-- A write or a read that does not fail answers with the number of bytes that it has written or
read. -/
def AnswersPipes (manager : IPCManager) : IpcCall → Prop
  | .pipeWrite pipeId data size =>
    0 ≤ (ipcPipeWrite manager pipeId data size).2 →
      (ipcPipeWrite manager pipeId data size).2 =
        (writtenTo pipeId manager (.pipeWrite pipeId data size)).length
  | .pipeRead pipeId buffered maxSize =>
    0 ≤ (ipcPipeRead manager pipeId buffered maxSize).2 →
      (ipcPipeRead manager pipeId buffered maxSize).2 =
        (readFrom pipeId manager (.pipeRead pipeId buffered maxSize)).length
  | _ => True

variable {pipe : Pipe} {readBytes writtenBytes : List UInt8} {data : Bytes} {size maxSize : UInt32}

/-! ### One pipe -/

/-- A pipe accepts a size that is not larger than its buffer exactly when it is open and has room
for it. -/
theorem Pipe.accepts_iff (hbound : pipe.bufferSize.toNat ≤ 4096) (hsize : size.toNat ≤ 4096) :
    pipe.accepts size ↔ pipe.isOpen ∧ pipe.bufferSize.toNat + size.toNat ≤ 4096 := by
  rw [Pipe.accepts, Bool.and_eq_true, decide_eq_true_eq, add_le_pipeBufferSize_iff hbound,
    or_iff_left (by omega)]

/-- A read is at most what is in the buffer. -/
theorem Pipe.readSize_le (pipe : Pipe) (maxSize : UInt32) :
    (pipe.readSize maxSize).toNat ≤ pipe.bufferSize.toNat := by
  unfold Pipe.readSize
  split_ifs with hless
  · exact (UInt32.lt_iff_toNat_lt.mp hless).le
  · exact Nat.le_refl _

/-- A write of at most 4096 bytes appends them to the stream, or fails. -/
theorem Stream.write (hstream : Stream pipe readBytes writtenBytes) (hsize : size.toNat ≤ 4096) :
    Stream (pipe.write data size).1 readBytes
      (writtenBytes ++ if 0 ≤ (pipe.write data size).2 then firstOf data size.toNat else []) := by
  by_cases haccept : pipe.accepts size
  · obtain ⟨-, hroom⟩ := (Pipe.accepts_iff hstream.bound hsize).mp haccept
    have hsum : (pipe.bufferSize + size).toNat = pipe.bufferSize.toNat + size.toNat := by
      rw [UInt32.toNat_add]
      omega
    have hanswer : 0 ≤ answer size := answer_nonneg (by omega)
    rw [Pipe.write, if_pos haccept, if_pos hanswer]
    refine ⟨?_, ?_, ?_⟩
    · simp only
      rw [hsum, firstOf_copyAt, ← List.append_assoc, hstream.bytes]
    · have hcounts := hstream.counts
      simp only
      rw [toUInt64_add_of_lt _ _ (by omega), ← hcounts]
      grind
    · simp only
      omega
  · rw [Pipe.write, if_neg haccept, if_neg not_zero_le_neg_one, List.append_nil]
    exact hstream

/-- A read takes what it copies off the stream, or fails. -/
theorem Stream.read (hstream : Stream pipe readBytes writtenBytes) :
    Stream (pipe.read maxSize).1
      (readBytes ++ if 0 ≤ (pipe.read maxSize).2 then pipe.copied maxSize else [])
        writtenBytes := by
  have hle := pipe.readSize_le maxSize
  have hbound := hstream.bound
  by_cases hclosed : pipe.isOpen = false
  · rw [Pipe.read, if_pos hclosed, if_neg not_zero_le_neg_one, List.append_nil]
    exact hstream
  by_cases hempty : pipe.bufferSize = 0
  · rw [Pipe.read, if_neg hclosed, if_pos hempty, Pipe.copied, if_pos (Or.inr hempty), ite_self,
      List.append_nil]
    exact hstream
  have hanswer : 0 ≤ answer (pipe.readSize maxSize) := answer_nonneg (by omega)
  have hrest : (pipe.bufferSize - pipe.readSize maxSize).toNat =
      pipe.bufferSize.toNat - (pipe.readSize maxSize).toNat :=
    UInt32.toNat_sub_of_le _ _ (UInt32.le_iff_toNat_le.mpr hle)
  rw [Pipe.read, if_neg hclosed, if_neg hempty, if_pos hanswer, Pipe.copied,
    if_neg (not_or.mpr ⟨hclosed, hempty⟩)]
  refine ⟨?_, ?_, ?_⟩
  · simp only
    rw [List.append_assoc, firstOf_moveToFront, hrest, Nat.add_sub_cancel' hle, hstream.bytes]
  · have hcounts := hstream.counts
    have hsplit := toUInt64_add_of_lt (pipe.bufferSize - pipe.readSize maxSize)
      (pipe.readSize maxSize) (by omega)
    rw [UInt32.sub_add_cancel] at hsplit
    simp only
    grind
  · simp only
    omega

/-- A write of at most 4096 bytes that does not fail answers with the number of bytes that it
writes. -/
theorem Pipe.write_answer (hsize : size.toNat ≤ 4096) (hserved : 0 ≤ (pipe.write data size).2) :
    (pipe.write data size).2 = (firstOf data size.toNat).length := by
  rw [length_firstOf]
  rw [Pipe.write] at hserved ⊢
  split_ifs at hserved ⊢
  · exact answer_eq (by omega)
  · exact absurd hserved not_zero_le_neg_one

/-- A read that does not fail answers with the number of bytes that it copies. -/
theorem Pipe.read_answer (hbound : pipe.bufferSize.toNat ≤ 4096)
    (hserved : 0 ≤ (pipe.read maxSize).2) :
    (pipe.read maxSize).2 = (pipe.copied maxSize).length := by
  have hle := pipe.readSize_le maxSize
  rw [Pipe.copied]
  rw [Pipe.read] at hserved ⊢
  by_cases hclosed : pipe.isOpen = false
  · rw [if_pos hclosed] at hserved
    exact absurd hserved not_zero_le_neg_one
  by_cases hempty : pipe.bufferSize = 0
  · rw [if_neg hclosed, if_pos hempty, if_pos (Or.inr hempty)]
    rfl
  · rw [if_neg hclosed, if_neg hempty, if_neg (not_or.mpr ⟨hclosed, hempty⟩), length_firstOf]
    exact answer_eq (by omega)

/-! ### Runs -/

variable {manager : IPCManager} {pipeId : UInt32}

/-- A pipe that nothing went through is a stream. -/
theorem stream_freshPipe : Stream freshPipe [] [] :=
  ⟨rfl, rfl, Nat.zero_le _⟩

/-- What a write adds to a pipe is what the pipe accepts of it. -/
theorem writtenTo_eq (hpipe : rowOf manager.pipes pipeId = some pipe) :
    writtenTo pipeId manager (.pipeWrite pipeId (some data) size) =
      if 0 ≤ (pipe.write data size).2 then firstOf data size.toNat else [] := by
  simp [writtenTo, ipcPipeWrite, callOn_of_some hpipe]

/-- A write to another pipe or to none adds nothing. -/
theorem writtenTo_eq_nil {id : UInt32}
    (hnone : id ≠ pipeId ∨ rowOf manager.pipes pipeId = none) :
    writtenTo pipeId manager (.pipeWrite id (some data) size) = [] :=
  if_neg (not_accepted_callOn hnone)

/-- What a read takes from a pipe is what is copied from it. -/
theorem readFrom_eq (hpipe : rowOf manager.pipes pipeId = some pipe) :
    readFrom pipeId manager (.pipeRead pipeId true maxSize) =
      if 0 ≤ (pipe.read maxSize).2 then pipe.copied maxSize else [] := by
  simp [readFrom, ipcPipeRead, callOn_of_some hpipe, hpipe]

/-- A read from another pipe or from none takes nothing. -/
theorem readFrom_eq_nil {id : UInt32}
    (hnone : id ≠ pipeId ∨ rowOf manager.pipes pipeId = none) :
    readFrom pipeId manager (.pipeRead id true maxSize) = [] :=
  if_neg (not_accepted_callOn hnone)

/-- A pipe call keeps a pipe a stream of what has gone through it. -/
theorem historyAt_pipeCall (hhistory : HistoryAt Stream pipeId manager.pipes readBytes writtenBytes)
    {call : IpcCall} (hcall : PipeCall call) :
    HistoryAt Stream pipeId (ipcStep manager call).pipes
      (readBytes ++ readFrom pipeId manager call)
      (writtenBytes ++ writtenTo pipeId manager call) := by
  cases call with
  | createPipe =>
    simp only [readFrom, writtenTo, List.append_nil, ipcStep, ipcCreatePipe]
    split_ifs
    · exact hhistory
    · exact hhistory.concat stream_freshPipe
  | pipeWrite id data size =>
    cases data with
    | none =>
      simp only [readFrom, writtenTo, List.append_nil]
      exact hhistory
    | some data =>
      have hsize : size.toNat ≤ 4096 := UInt32.le_iff_toNat_le.mp hcall
      refine hhistory.callOn (fun pipe hid hpipe ↦ ?_) fun hnone ↦ ⟨rfl, writtenTo_eq_nil hnone⟩
      subst hid
      rw [writtenTo_eq hpipe]
      show Stream _ (readBytes ++ []) _
      rw [List.append_nil]
      exact (hhistory.related pipe hpipe).write hsize
  | pipeRead id buffered maxSize =>
    cases buffered with
    | false =>
      simp only [readFrom, writtenTo, List.append_nil]
      exact hhistory
    | true =>
      refine hhistory.callOn (fun pipe hid hpipe ↦ ?_) fun hnone ↦ ⟨readFrom_eq_nil hnone, rfl⟩
      subst hid
      rw [readFrom_eq hpipe]
      show Stream _ _ (writtenBytes ++ [])
      rw [List.append_nil]
      exact (hhistory.related pipe hpipe).read
  | _ => exact hcall.elim

/-- A write or a read that fails changes nothing, in a state in which all buffers are within their
bounds. -/
theorem failureKeepsPipes
    (hbounds : ∀ id pipe, rowOf manager.pipes id = some pipe → pipe.bufferSize.toNat ≤ 4096)
    {call : IpcCall} (hcall : PipeCall call) : FailureKeepsPipes manager call := by
  cases call with
  | pipeWrite id data size =>
    cases data with
    | none => exact fun _ ↦ rfl
    | some data =>
      have hsize : size.toNat ≤ 4096 := UInt32.le_iff_toNat_le.mp hcall
      intro hfailed
      simp only [ipcPipeWrite] at hfailed ⊢
      rw [callOn_of_failed (fun pipe _ ↦ ?_) hfailed]
      unfold Pipe.write
      split_ifs
      · exact fun hnegative ↦ absurd hnegative (Int.not_lt.mpr (answer_nonneg (by omega)))
      · exact fun _ ↦ rfl
  | pipeRead id buffered maxSize =>
    cases buffered with
    | false => exact fun _ ↦ rfl
    | true =>
      intro hfailed
      simp only [ipcPipeRead, Bool.true_eq_false, if_false] at hfailed ⊢
      rw [callOn_of_failed (fun pipe hpipe ↦ ?_) hfailed]
      have hle := pipe.readSize_le maxSize
      have hbound := hbounds id pipe hpipe
      unfold Pipe.read
      split_ifs
      · exact fun _ ↦ rfl
      · exact fun _ ↦ rfl
      · exact fun hnegative ↦ absurd hnegative (Int.not_lt.mpr (answer_nonneg (by omega)))
  | _ => trivial

/-- A write or a read that does not fail answers with the number of its bytes, in a state in which
all buffers are within their bounds. -/
theorem answersPipes
    (hbounds : ∀ id pipe, rowOf manager.pipes id = some pipe → pipe.bufferSize.toNat ≤ 4096)
    {call : IpcCall} (hcall : PipeCall call) : AnswersPipes manager call := by
  cases call with
  | pipeWrite id data size =>
    intro hserved
    cases data with
    | none => exact absurd hserved not_zero_le_neg_one
    | some data =>
      have hsize : size.toNat ≤ 4096 := UInt32.le_iff_toNat_le.mp hcall
      rw [ipcPipeWrite] at hserved ⊢
      dsimp only at hserved ⊢
      cases hpipe : rowOf manager.pipes id with
      | none =>
        rw [callOn_of_none hpipe] at hserved
        exact absurd hserved not_zero_le_neg_one
      | some pipe =>
        rw [callOn_of_some hpipe] at hserved ⊢
        rw [writtenTo_eq hpipe, if_pos hserved]
        exact Pipe.write_answer hsize hserved
  | pipeRead id buffered maxSize =>
    intro hserved
    cases buffered with
    | false => exact absurd hserved not_zero_le_neg_one
    | true =>
      simp only [ipcPipeRead, Bool.true_eq_false, if_false] at hserved ⊢
      cases hpipe : rowOf manager.pipes id with
      | none =>
        rw [callOn_of_none hpipe] at hserved
        exact absurd hserved not_zero_le_neg_one
      | some pipe =>
        rw [callOn_of_some hpipe] at hserved ⊢
        rw [readFrom_eq hpipe, if_pos hserved]
        exact Pipe.read_answer (hbounds id pipe hpipe) hserved
  | _ => trivial

/-- In every run of calls that create pipes, write at most 4096 bytes to them or read from them,
what has been read from a pipe and what is in its buffer is what has been written to it, the
counters differ by what is in the buffer, which is within its bounds, a call that fails changes
nothing, and one that does not answers with the number of its bytes. -/
theorem pipes_streams (calls : List IpcCall) (hcalls : ∀ call ∈ calls, PipeCall call) :
    (∀ pipeId pipe, rowOf (runFrom ipcStep ipcInit calls).pipes pipeId = some pipe →
      Stream pipe (gather ipcStep (readFrom pipeId) ipcInit calls)
        (gather ipcStep (writtenTo pipeId) ipcInit calls)) ∧
      EveryStep ipcStep FailureKeepsPipes ipcInit calls ∧
        EveryStep ipcStep AnswersPipes ipcInit calls := by
  have hstreams (taken : List IpcCall) (htaken : taken <+: calls) (pipeId : UInt32) :
      HistoryAt Stream pipeId (runFrom ipcStep ipcInit taken).pipes
        (gather ipcStep (readFrom pipeId) ipcInit taken)
        (gather ipcStep (writtenTo pipeId) ipcInit taken) := by
    exact gather_invariant (fun manager : IPCManager ↦ HistoryAt Stream pipeId manager.pipes)
      (fun _ call ↦ PipeCall call) (fun _ _ _ _ hhistory hcall ↦ historyAt_pipeCall hhistory hcall)
      historyAt_nil
      (everyStep_of_forall_mem fun call hmem ↦ hcalls call (htaken.subset hmem))
  have hbounds (taken : List IpcCall) (call : IpcCall) (htaken : taken ++ [call] <+: calls)
      (id : UInt32) (pipe : Pipe)
      (hpipe : rowOf (runFrom ipcStep ipcInit taken).pipes id = some pipe) :
      pipe.bufferSize.toNat ≤ 4096 :=
    ((hstreams taken ((List.prefix_append _ _).trans htaken) id).related pipe hpipe).bound
  have hcall (taken : List IpcCall) (call : IpcCall) (htaken : taken ++ [call] <+: calls) :
      PipeCall call :=
    hcalls call (htaken.subset (List.mem_append_right _ List.mem_cons_self))
  exact ⟨fun pipeId ↦ (hstreams calls (List.prefix_refl _) pipeId).related,
    fun taken call htaken ↦ failureKeepsPipes (hbounds taken call htaken) (hcall taken call htaken),
    fun taken call htaken ↦ answersPipes (hbounds taken call htaken) (hcall taken call htaken)⟩

/-- Five bytes are written to a pipe and two are read. -/
theorem pipes_streams_written :
    (∀ pipeId pipe, rowOf (runFrom ipcStep ipcInit [.createPipe,
        .pipeWrite 1 (some fun i ↦ i.toUInt8) 5, .pipeRead 1 true 2]).pipes pipeId = some pipe →
      Stream pipe
        (gather ipcStep (readFrom pipeId) ipcInit
          [.createPipe, .pipeWrite 1 (some fun i ↦ i.toUInt8) 5, .pipeRead 1 true 2])
        (gather ipcStep (writtenTo pipeId) ipcInit
          [.createPipe, .pipeWrite 1 (some fun i ↦ i.toUInt8) 5, .pipeRead 1 true 2])) ∧
      EveryStep ipcStep FailureKeepsPipes ipcInit
        [.createPipe, .pipeWrite 1 (some fun i ↦ i.toUInt8) 5, .pipeRead 1 true 2] ∧
      EveryStep ipcStep AnswersPipes ipcInit
        [.createPipe, .pipeWrite 1 (some fun i ↦ i.toUInt8) 5, .pipeRead 1 true 2] :=
  pipes_streams _ (by simp [PipeCall, pipeBufferSize])

end OneOS.Ipc
