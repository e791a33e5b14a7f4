import OneOS.Foundation.Arrays
import OneOS.Foundation.Runs
import OneOS.Foundation.Table

/-!
# TCP streams

`net/network_stack.c`: an array of 1024 streams, of which the first `tcp_stream_count` are open. A
stream is found by its id, and `net_tcp_open_stream` makes the id from the number of open streams.
`net_tcp_close_stream` moves streams down over the one that is closed, but always moves one less
than the number of open streams, from wherever the closed stream stands.

Ids are to be distinct, and closing a stream is to remove that stream and touch nothing outside the
open streams (`ClosesExactly`). `streamsKept_iff` gives the runs that do: those that close the first
of the open streams only and open a stream only when no open stream has its id.

A move that leaves the array overwrites other fields of the stack and ends the model. Buffers are
given by the addresses that `malloc`, which succeeds, returns. Left out are the checks of pointers,
the addresses of the two ends, the fields of congestion control and the totals of the stack, which
no modelled function reads.
-/

set_option autoImplicit false
set_option relaxedAutoImplicit false

namespace OneOS.Networking

open Foundation

/-! ### The stack -/

/-- `MAX_TCP_STREAMS`. -/
def maxTcpStreams : ℕ := 1024

/-- `TCPState`. -/
inductive TcpState
  | closed
  | listen
  | synSent
  | synRecv
  | established
  | finWait1
  | finWait2
  | closing
  | timeWait
  deriving DecidableEq, Repr

/-- `TCPStream`. -/
structure TcpStream where
  streamId : ℕ
  state : TcpState
  sequenceNumber : UInt32
  acknowledgmentNumber : UInt32
  txBuffer : ℕ
  rxBuffer : ℕ
  txSize : UInt32
  rxSize : UInt32
  deriving DecidableEq, Repr

/-- The streams of `NetworkStack`: the slots of the array and the number of open streams. -/
structure NetworkStack where
  tcpStreams : ℕ → TcpStream
  tcpStreamCount : ℕ

/-- A slot that was never written. -/
def TcpStream.blank : TcpStream where
  streamId := 0
  state := .closed
  sequenceNumber := 0
  acknowledgmentNumber := 0
  txBuffer := 0
  rxBuffer := 0
  txSize := 0
  rxSize := 0

/-- `net_stack_init`. -/
def netStackInit : NetworkStack where
  tcpStreams := fun _ ↦ TcpStream.blank
  tcpStreamCount := 0

/-- The streams that are open. -/
def NetworkStack.openStreams (stack : NetworkStack) : List TcpStream :=
  firstOf stack.tcpStreams stack.tcpStreamCount

/-- `net_get_tcp_stream`, returning the slot. -/
def netGetTcpStream (stack : NetworkStack) (streamId : ℕ) : Option ℕ :=
  stack.openStreams.findIdx? fun stream ↦ stream.streamId = streamId

/-! ### Opening and closing -/

/-- The stream that `net_tcp_open_stream` writes. -/
def NetworkStack.newStream (stack : NetworkStack) (txBuffer rxBuffer : ℕ) : TcpStream where
  streamId := stack.tcpStreamCount + 1
  state := .established
  sequenceNumber := 1000
  acknowledgmentNumber := 0
  txBuffer := txBuffer
  rxBuffer := rxBuffer
  txSize := 8192
  rxSize := 8192

/-- `net_tcp_open_stream`, returning the id, or 0. -/
def netTcpOpenStream (stack : NetworkStack) (txBuffer rxBuffer : ℕ) : NetworkStack × ℕ :=
  if maxTcpStreams ≤ stack.tcpStreamCount then (stack, 0)
  else
    ({ tcpStreams := Function.update stack.tcpStreams stack.tcpStreamCount
         (stack.newStream txBuffer rxBuffer)
       tcpStreamCount := stack.tcpStreamCount + 1 }, stack.tcpStreamCount + 1)

/-- The slots that moving `count` streams from the slot `source` to the slot `target` reads or
writes. -/
def MoveTouches (target source count slot : ℕ) : Prop :=
  target ≤ slot ∧ slot < target + count ∨ source ≤ slot ∧ slot < source + count

/-- `net_tcp_close_stream`, where the streams are moved from the slot behind the closed one. The
outer none stands for a move that leaves the array. -/
def netTcpCloseStream (stack : NetworkStack) (streamId : ℕ) : Option (NetworkStack × Int) :=
  match netGetTcpStream stack streamId with
  | none => some (stack, -1)
  | some slot =>
    let count := stack.tcpStreamCount - 1
    if maxTcpStreams < slot + 1 + count then none
    else
      some ({ tcpStreams :=
                copyAt stack.tcpStreams slot (fun i ↦ stack.tcpStreams (slot + 1 + i)) count
              tcpStreamCount := stack.tcpStreamCount - 1 }, 0)

/-! ### Sending and receiving -/

/-- What is done to an established stream. -/
def NetworkStack.onStream (stack : NetworkStack) (streamId : ℕ) (served : TcpStream → Bool)
    (change : TcpStream → TcpStream) : NetworkStack × Bool :=
  match netGetTcpStream stack streamId with
  | none => (stack, false)
  | some slot =>
    if served (stack.tcpStreams slot) then
      ({ stack with
        tcpStreams := Function.update stack.tcpStreams slot (change (stack.tcpStreams slot)) },
        true)
    else (stack, false)

/-- `net_tcp_send_data`, returning the size as an `int`, or -1. -/
def netTcpSendData (stack : NetworkStack) (streamId : ℕ) (size : UInt32) : NetworkStack × Int :=
  if size = 0 then (stack, -1)
  else
    let (after, sent) := stack.onStream streamId
      (fun stream ↦ stream.state = .established ∧ size ≤ stream.txSize)
      (fun stream ↦ { stream with sequenceNumber := stream.sequenceNumber + size })
    (after, if sent then size.toInt32.toInt else -1)

/-- `net_tcp_receive_data`, returning the size as an `int`, or -1. -/
def netTcpReceiveData (stack : NetworkStack) (streamId : ℕ) (size : UInt32) : NetworkStack × Int :=
  if size = 0 then (stack, -1)
  else
    let (after, received) := stack.onStream streamId (fun stream ↦ stream.state = .established)
      (fun stream ↦ { stream with acknowledgmentNumber := stream.acknowledgmentNumber + 1 })
    (after, if received then size.toInt32.toInt else -1)

/-! ### Calls -/

/-- A call on a stream. -/
inductive StreamCall
  | openStream (txBuffer rxBuffer : ℕ)
  | closeStream (streamId : ℕ)
  | sendData (streamId : ℕ) (size : UInt32)
  | receiveData (streamId : ℕ) (size : UInt32)
  deriving DecidableEq, Repr

/-- What a call does to the stack. -/
def streamCall (stack : NetworkStack) : StreamCall → Option NetworkStack
  | .openStream txBuffer rxBuffer => some (netTcpOpenStream stack txBuffer rxBuffer).1
  | .closeStream streamId => (netTcpCloseStream stack streamId).map Prod.fst
  | .sendData streamId size => some (netTcpSendData stack streamId size).1
  | .receiveData streamId size => some (netTcpReceiveData stack streamId size).1

/-- What a call does as long as the model lasts. -/
def streamStep (running : Option NetworkStack) (call : StreamCall) : Option NetworkStack :=
  running.bind fun stack ↦ streamCall stack call

/-- The ids of open streams are distinct. -/
def IdsDistinct (stack : NetworkStack) : Prop :=
  (stack.openStreams.map TcpStream.streamId).Nodup

/-- What is asked of closing a stream: the open streams are the others, as they were, and no slot is
touched but those of open streams. -/
def ClosesExactly (stack : NetworkStack) : StreamCall → Prop
  | .closeStream streamId =>
    (∃ after result, netTcpCloseStream stack streamId = some (after, result) ∧
      after.openStreams = stack.openStreams.eraseP fun stream ↦ stream.streamId = streamId) ∧
    ∀ slot ∈ netGetTcpStream stack streamId, ∀ touched,
      MoveTouches slot (slot + 1) (stack.tcpStreamCount - 1) touched →
        touched < stack.tcpStreamCount
  | _ => True

/-- The condition on a call: a stream is opened when there is room only if no open stream has the
number of open streams and one as its id, and only the stream in the first slot is closed. -/
def StreamCall.Clean (stack : NetworkStack) : StreamCall → Prop
  | .openStream _ _ => stack.tcpStreamCount < maxTcpStreams →
      ∀ stream ∈ stack.openStreams, stream.streamId ≠ stack.tcpStreamCount + 1
  | .closeStream streamId => ∀ slot ∈ netGetTcpStream stack streamId, slot = 0
  | _ => True

variable {stack : NetworkStack}

/-! ### What the calls do to the open streams -/

theorem openStreams_open (hroom : stack.tcpStreamCount < maxTcpStreams) (txBuffer rxBuffer : ℕ) :
    (netTcpOpenStream stack txBuffer rxBuffer).1.openStreams =
      stack.openStreams ++ [stack.newStream txBuffer rxBuffer] := by
  rw [netTcpOpenStream, if_neg (Nat.not_le.mpr hroom)]
  exact firstOf_update_succ _

/-- A change of a stream that keeps its id. -/
theorem ids_onStream (streamId : ℕ) (served : TcpStream → Bool) {change : TcpStream → TcpStream}
    (hkeep : ∀ stream, (change stream).streamId = stream.streamId) :
    (stack.onStream streamId served change).1.openStreams.map TcpStream.streamId =
      stack.openStreams.map TcpStream.streamId := by
  rw [NetworkStack.onStream]
  cases netGetTcpStream stack streamId with
  | none => rfl
  | some slot =>
    dsimp only
    split_ifs
    · rw [NetworkStack.openStreams, NetworkStack.openStreams, firstOf, firstOf, List.map_map,
        List.map_map]
      refine List.map_congr_left fun i _ ↦ ?_
      dsimp only [Function.comp_apply]
      by_cases hi : i = slot
      · rw [hi, Function.update_self, hkeep]
      · rw [Function.update_of_ne hi]
    · rfl

theorem ids_sendData (streamId : ℕ) (size : UInt32) :
    (netTcpSendData stack streamId size).1.openStreams.map TcpStream.streamId =
      stack.openStreams.map TcpStream.streamId := by
  rw [netTcpSendData]
  split_ifs
  · rfl
  · exact ids_onStream streamId _ fun _ ↦ rfl

theorem ids_receiveData (streamId : ℕ) (size : UInt32) :
    (netTcpReceiveData stack streamId size).1.openStreams.map TcpStream.streamId =
      stack.openStreams.map TcpStream.streamId := by
  rw [netTcpReceiveData]
  split_ifs
  · rfl
  · exact ids_onStream streamId _ fun _ ↦ rfl

/-- A stream that is found stands in the slot of an open stream. -/
theorem lt_of_netGetTcpStream {streamId slot : ℕ}
    (hslot : netGetTcpStream stack streamId = some slot) :
    slot < stack.tcpStreamCount := by
  obtain ⟨hlt, -⟩ := List.findIdx?_eq_some_iff_findIdx_eq.mp hslot
  rwa [NetworkStack.openStreams, firstOf, List.length_map, List.length_range] at hlt

/-- Closing the first stream removes it. -/
theorem closeStream_zero {streamId : ℕ} (hslot : netGetTcpStream stack streamId = some 0)
    (hroom : stack.tcpStreamCount ≤ maxTcpStreams) :
    ∃ after result, netTcpCloseStream stack streamId = some (after, result) ∧
      after.tcpStreamCount ≤ maxTcpStreams ∧
        after.openStreams = stack.openStreams.eraseP fun stream ↦ stream.streamId = streamId := by
  obtain ⟨count, hcount⟩ := Nat.exists_eq_add_one_of_ne_zero
    (Nat.ne_of_gt (lt_of_netGetTcpStream hslot))
  have hstreams : stack.openStreams =
      stack.tcpStreams 0 :: firstOf (fun i ↦ stack.tcpStreams (1 + i)) count := by
    rw [NetworkStack.openStreams, hcount, Nat.add_comm count 1, firstOf_add]
    rfl
  have hself : decide ((stack.tcpStreams 0).streamId = streamId) = true := by
    by_contra hother
    rw [netGetTcpStream, hstreams, List.findIdx?_cons, if_neg hother] at hslot
    obtain ⟨i, -, hi⟩ := Option.map_eq_some_iff.mp hslot
    exact absurd hi (Nat.succ_ne_zero i)
  rw [netTcpCloseStream, hslot]
  dsimp only
  rw [if_neg (by omega)]
  refine ⟨_, _, rfl, Nat.le_trans (Nat.sub_le _ _) hroom, ?_⟩
  have hmoved := firstOf_copyAt stack.tcpStreams (fun i ↦ stack.tcpStreams (0 + 1 + i)) 0 count
  rw [hstreams, List.eraseP_cons, hself, NetworkStack.openStreams, hcount, Nat.add_sub_cancel]
  simpa using hmoved

/-- Closing a stream that is not open changes nothing. -/
theorem eraseP_openStreams_of_none {streamId : ℕ} (hslot : netGetTcpStream stack streamId = none) :
    (stack.openStreams.eraseP fun stream ↦ stream.streamId = streamId) = stack.openStreams := by
  refine List.eraseP_of_forall_not fun stream hstream ↦ ?_
  rw [List.findIdx?_eq_none_iff.mp hslot stream hstream]
  exact Bool.false_ne_true

/-! ### Every run -/

/-- The array holds no more open streams than it has slots. -/
theorem tcpStreamCount_streamCall {after : NetworkStack} {call : StreamCall}
    (hroom : stack.tcpStreamCount ≤ maxTcpStreams) (hafter : streamCall stack call = some after) :
    after.tcpStreamCount ≤ maxTcpStreams := by
  have hchange : ∀ streamId served change,
      (stack.onStream streamId served change).1.tcpStreamCount = stack.tcpStreamCount := by
    intro streamId served change
    rw [NetworkStack.onStream]
    cases netGetTcpStream stack streamId with
    | none => rfl
    | some slot =>
      dsimp only
      split_ifs
      · rfl
      · rfl
  cases call with
  | openStream txBuffer rxBuffer =>
    rw [← Option.some.inj hafter, netTcpOpenStream]
    split_ifs with hfull
    · exact hroom
    · exact Nat.lt_of_not_le hfull
  | closeStream streamId =>
    obtain ⟨closed, hclosed, rfl⟩ := Option.map_eq_some_iff.mp hafter
    rw [netTcpCloseStream] at hclosed
    cases hslot : netGetTcpStream stack streamId with
    | none =>
      rw [hslot] at hclosed
      rw [← Option.some.inj hclosed]
      exact hroom
    | some slot =>
      rw [hslot] at hclosed
      dsimp only at hclosed
      split_ifs at hclosed
      rw [← Option.some.inj hclosed]
      exact Nat.le_trans (Nat.sub_le _ _) hroom
  | sendData streamId size =>
    rw [← Option.some.inj hafter, netTcpSendData]
    split_ifs
    · exact hroom
    · exact (hchange _ _ _).symm ▸ hroom
  | receiveData streamId size =>
    rw [← Option.some.inj hafter, netTcpReceiveData]
    split_ifs
    · exact hroom
    · exact (hchange _ _ _).symm ▸ hroom

/-- Opening a stream keeps ids distinct exactly when its id is new. -/
theorem openStream_clean_iff (hdistinct : IdsDistinct stack) (txBuffer rxBuffer : ℕ) :
    IdsDistinct (netTcpOpenStream stack txBuffer rxBuffer).1 ↔
      (StreamCall.openStream txBuffer rxBuffer).Clean stack := by
  by_cases hroom : stack.tcpStreamCount < maxTcpStreams
  · rw [IdsDistinct, openStreams_open hroom, nodup_map_concat_iff hdistinct]
    exact ⟨fun hnew _ ↦ hnew, fun hclean ↦ hclean hroom⟩
  · rw [netTcpOpenStream, if_pos (Nat.le_of_not_lt hroom)]
    exact iff_of_true hdistinct fun hlt ↦ absurd hlt hroom

/-- Closing a stream is exact when it stands in the first slot or is not open. -/
theorem closesExactly_of_clean {streamId : ℕ} (hroom : stack.tcpStreamCount ≤ maxTcpStreams)
    (hclean : (StreamCall.closeStream streamId).Clean stack) :
    ClosesExactly stack (.closeStream streamId) := by
  cases hslot : netGetTcpStream stack streamId with
  | none =>
    refine ⟨⟨stack, -1, ?_, (eraseP_openStreams_of_none hslot).symm⟩, ?_⟩
    · rw [netTcpCloseStream, hslot]
    · exact fun slot hsome ↦ absurd (hslot.symm.trans hsome) (Option.some_ne_none slot).symm
  | some slot =>
    obtain rfl : slot = 0 := hclean slot hslot
    obtain ⟨after, result, hclosed, -, hstreams⟩ := closeStream_zero hslot hroom
    refine ⟨⟨after, result, hclosed, hstreams⟩, fun other hother touched htouched ↦ ?_⟩
    obtain rfl := Option.some.inj (hslot.symm.trans hother)
    rw [MoveTouches] at htouched
    omega

/-- Closing a stream behind the first one reads behind the open streams. -/
theorem clean_of_closesExactly {streamId : ℕ}
    (hexactly : ClosesExactly stack (.closeStream streamId)) :
    (StreamCall.closeStream streamId).Clean stack := by
  intro slot hslot
  have hlt := lt_of_netGetTcpStream hslot
  by_contra hbehind
  have hread : MoveTouches slot (slot + 1) (stack.tcpStreamCount - 1)
      (slot + (stack.tcpStreamCount - 1)) := by
    refine Or.inr ⟨?_, ?_⟩
    · omega
    · omega
  have hless := hexactly.2 slot hslot _ hread
  omega

/-- One call keeps ids distinct and closes exactly what it is to close exactly under the
condition. -/
theorem clean_iff (hroom : stack.tcpStreamCount ≤ maxTcpStreams) (hdistinct : IdsDistinct stack)
    (call : StreamCall) :
    (∀ after ∈ streamCall stack call, IdsDistinct after) ∧ ClosesExactly stack call ↔
      call.Clean stack := by
  cases call with
  | openStream txBuffer rxBuffer =>
    rw [← openStream_clean_iff hdistinct]
    refine ⟨fun hafter ↦ hafter.1 _ rfl, fun hafter ↦ ⟨fun after hsome ↦ ?_, trivial⟩⟩
    rw [← Option.some.inj hsome]
    exact hafter
  | closeStream streamId =>
    refine ⟨fun hafter ↦ clean_of_closesExactly hafter.2, fun hclean ↦ ?_⟩
    have hexactly := closesExactly_of_clean hroom hclean
    refine ⟨fun after hafter ↦ ?_, hexactly⟩
    obtain ⟨⟨closed, result, hclosed, hstreams⟩, -⟩ := hexactly
    rw [streamCall, hclosed] at hafter
    rw [← Option.some.inj hafter, IdsDistinct, hstreams]
    exact nodup_map_eraseP hdistinct
  | sendData streamId size =>
    refine iff_of_true ⟨fun after hafter ↦ ?_, trivial⟩ trivial
    rw [← Option.some.inj hafter, IdsDistinct, ids_sendData]
    exact hdistinct
  | receiveData streamId size =>
    refine iff_of_true ⟨fun after hafter ↦ ?_, trivial⟩ trivial
    rw [← Option.some.inj hafter, IdsDistinct, ids_receiveData]
    exact hdistinct

/-- Over every run the ids of open streams are distinct and closing a stream removes exactly that
stream, touching only the slots of open streams, exactly when every call meets the condition. -/
theorem streamsKept_iff (calls : List StreamCall) :
    AlongRun streamStep (fun running ↦ ∀ stack ∈ running, IdsDistinct stack) (some netStackInit)
          calls ∧
        EveryStep streamStep (fun running call ↦ ∀ stack ∈ running, ClosesExactly stack call)
          (some netStackInit) calls ↔
      EveryStep streamStep (fun running call ↦ ∀ stack ∈ running, call.Clean stack)
        (some netStackInit) calls := by
  refine alongRun_and_everyStep_iff
    (fun running ↦ ∀ stack ∈ running, stack.tcpStreamCount ≤ maxTcpStreams) (fun _ _ ↦ True)
    ?_ ?_ ?_ ?_ fun _ _ _ ↦ trivial
  · intro running call hroom _ after hafter
    obtain ⟨stack, hstack, hcall⟩ := Option.bind_eq_some_iff.mp hafter
    exact tcpStreamCount_streamCall (hroom stack hstack) hcall
  · intro running call hroom _ hdistinct
    cases running with
    | none => exact iff_of_true ⟨nofun, nofun⟩ nofun
    | some stack =>
      have hone := clean_iff (hroom stack rfl) (hdistinct stack rfl) call
      refine ⟨?_, ?_⟩
      · rintro ⟨hafter, hexactly⟩ other hother
        rw [← Option.some.inj hother]
        exact hone.mp ⟨hafter, hexactly stack rfl⟩
      · intro hclean
        obtain ⟨hafter, hexactly⟩ := hone.mpr (hclean stack rfl)
        refine ⟨hafter, fun other hother ↦ ?_⟩
        rw [← Option.some.inj hother]
        exact hexactly
  · intro stack hstack
    rw [← Option.some.inj hstack]
    exact Nat.zero_le _
  · intro stack hstack
    rw [← Option.some.inj hstack]
    exact List.nodup_nil

/-- Of two streams the first is closed and another one is opened. -/
theorem not_idsDistinct_reopened :
    ¬ AlongRun streamStep (fun running ↦ ∀ stack ∈ running, IdsDistinct stack) (some netStackInit)
      [.openStream 1 2, .openStream 3 4, .closeStream 1, .openStream 5 6] := by
  intro halong
  have hdistinct := halong _ (List.prefix_refl _) _ rfl
  revert hdistinct
  rw [IdsDistinct]
  decide

end OneOS.Networking
