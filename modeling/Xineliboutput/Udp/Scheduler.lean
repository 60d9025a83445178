import Xineliboutput.Foundation.Machine
import Xineliboutput.Udp.BackLog

/-!
# The UDP/RTP scheduler

`cUdpScheduler` of `tools/udp_pes_scheduler.c` as far as its queue and its client
table go. Every operation is one critical section under `m_Lock`. The sending
thread leaves the lock in two places: while it waits for data, and while it
transmits the frame it has taken from the queue.
-/

namespace Xineliboutput.Udp

open Xineliboutput.Foundation Xineliboutput.StreamHeaders

set_option autoImplicit false

def maxUdpHandles : Nat := 16

def maxQueueSize : Nat := 64

def maxLiveQueueSize : Nat := 64 + 60

/-- Where the loop of `Action` stands while another thread holds the lock. The
frame it transmits is a pointer into the backlog, given here by its slot. -/
inductive SenderThread where
  | ready
  | waiting
  | sending (number : Nat)
  deriving DecidableEq

structure Scheduler where
  handles : List Int
  wmem : List Nat
  master : Bool
  queueNextSeq : Nat
  queuePending : Nat
  backLog : BackLog
  thread : SenderThread

namespace Scheduler

def new (nanoseconds : Nat) : Scheduler where
  handles := List.replicate maxUdpHandles (-1)
  wmem := List.replicate maxUdpHandles 0
  master := false
  queueNextSeq := 0
  queuePending := 0
  backLog := .new nanoseconds
  thread := .ready

/-- `m_Handles[0] >= 0` -/
def hasClients (scheduler : Scheduler) : Bool := 0 ≤ scheduler.handles.getD 0 (-1)

def queueLimit (scheduler : Scheduler) : Nat :=
  if scheduler.master then maxQueueSize else maxLiveQueueSize

/-- `AddHandle`. The send buffer size is `none` where `getsockopt` fails. -/
def addHandle (scheduler : Scheduler) (fd : Int) (sendBuffer : Option Nat) : Scheduler × Bool :=
  let i := scheduler.handles.findIdx fun handle => handle < 0 || handle == fd
  if i < scheduler.handles.length then
    ({ scheduler with
        handles := scheduler.handles.set i fd
        wmem := scheduler.wmem.set i (sendBuffer.getD 0x10000 / 2) }, true)
  else (scheduler, false)

/-- The table after `RemoveHandle`: the entries behind the first match move down
by one, and the last entry becomes -1, also where nothing matched. -/
def handlesWithout (handles : List Int) (fd : Int) : List Int :=
  (handles.eraseIdx (handles.findIdx fun handle => handle == fd)).take (maxUdpHandles - 1) ++ [-1]

/-- `RemoveHandle`. When no client is left all buffers are flushed and the
backlog is created anew. -/
def removeHandle (scheduler : Scheduler) (fd : Int) (nanoseconds : Nat) : Scheduler :=
  let removed := { scheduler with handles := handlesWithout scheduler.handles fd }
  if removed.hasClients then removed
  else { removed with
    queueNextSeq := 0
    queuePending := 0
    backLog := .new nanoseconds }

/-- The entry of `Poll`, before it waits. -/
def setMaster (scheduler : Scheduler) (master : Bool) : Scheduler :=
  { scheduler with master := master }

def clear (scheduler : Scheduler) : Scheduler :=
  { scheduler with
    backLog := scheduler.backLog.clear scheduler.queuePending
    queuePending := 0 }

/-- `MakeFrame` followed by `m_QueuePending++`. -/
def append (scheduler : Scheduler) (stream : StreamId) (streamPos : Nat) (data : List UInt8) :
    Scheduler :=
  { scheduler with
    backLog := scheduler.backLog.makeFrame stream streamPos data
    queuePending := scheduler.queuePending + 1 }

def padding : List UInt8 := [0x00, 0x00, 0x01, 0xbe, 0x00, 0x02, 0xff, 0xff]

/-- The stream position `QueuePaddingInternal` gives to a padding frame. -/
def paddingPos (scheduler : Scheduler) : Nat :=
  let prevSeq := (scheduler.queueNextSeq + udpBufferSize - 1) % 256
  match scheduler.backLog.get prevSeq with
  | some frame => (frame.pos + scheduler.backLog.payloadSize prevSeq + 2 ^ 64 - 8) % 2 ^ 64
  | none => 0

def queuePaddingInternal (scheduler : Scheduler) : Scheduler :=
  scheduler.append .sidPadding scheduler.paddingPos padding

inductive Operation where
  | addHandle (fd : Int) (sendBuffer : Option Nat)
  | removeHandle (fd : Int) (nanoseconds : Nat)
  | poll (master : Bool)
  | queue (stream : StreamId) (streamPos : Nat) (data : List UInt8)
  | queuePadding
  | clear
  | startWaiting
  | wake
  | take
  | transmit

inductive Effect where
  | queued (frame : Frame)
  | refused
  | taken (frame : Frame)
  | transmitted (frame : Frame)
  | flushed
  | unchanged

/-- One critical section. `none` says that the operation cannot run now: the
sending thread is elsewhere, or `RemoveHandle` of the last client waits on
`m_BackLogDeleteMutex` for the frame that is being transmitted. Taking or
transmitting a frame that is not there would be an access through NULL. -/
def perform (scheduler : Scheduler) : Operation → Option (Scheduler × Effect)
  | .addHandle fd sendBuffer => some ((scheduler.addHandle fd sendBuffer).1, .unchanged)
  | .removeHandle fd nanoseconds =>
      let removed := scheduler.removeHandle fd nanoseconds
      if removed.hasClients then some (removed, .unchanged)
      else match scheduler.thread with
        | .sending _ => none
        | .ready | .waiting => some (removed, .flushed)
  | .poll master => some (scheduler.setMaster master, .unchanged)
  | .queue stream streamPos data =>
      if !scheduler.hasClients then some (scheduler, .unchanged)
      else if scheduler.queueLimit ≤ scheduler.queuePending then some (scheduler, .refused)
      else some (scheduler.append stream streamPos data,
        .queued (scheduler.backLog.frameFor stream streamPos data))
  | .queuePadding =>
      if !scheduler.hasClients then some (scheduler, .unchanged)
      else if 2 < scheduler.queuePending then some (scheduler, .unchanged)
      else some (scheduler.queuePaddingInternal,
        .queued (scheduler.backLog.frameFor .sidPadding scheduler.paddingPos padding))
  | .clear => some (scheduler.clear, .flushed)
  | .startWaiting =>
      match scheduler.thread with
      | .ready =>
          if scheduler.hasClients && scheduler.queuePending == 0 then
            some ({ scheduler with thread := .waiting }, .unchanged)
          else none
      | .waiting | .sending _ => none
  | .wake =>
      match scheduler.thread with
      | .waiting =>
          if scheduler.queuePending = 0 then
            some ({ scheduler.queuePaddingInternal with thread := .ready },
              .queued (scheduler.backLog.frameFor .sidPadding scheduler.paddingPos padding))
          else some ({ scheduler with thread := .ready }, .unchanged)
      | .ready | .sending _ => none
  | .take =>
      match scheduler.thread with
      | .ready =>
          if scheduler.hasClients && scheduler.queuePending != 0 then
            (scheduler.backLog.get scheduler.queueNextSeq).map fun frame =>
              ({ scheduler with
                  queueNextSeq := (scheduler.queueNextSeq + 1) % 256
                  queuePending := scheduler.queuePending - 1
                  thread := .sending scheduler.queueNextSeq }, .taken frame)
          else none
      | .waiting | .sending _ => none
  | .transmit =>
      match scheduler.thread with
      | .sending number =>
          (scheduler.backLog.get number).map fun frame =>
            ({ scheduler with thread := .ready }, .transmitted frame)
      | .ready | .waiting => none

/-- Operations of any threads in any order, each atomic under `m_Lock`. -/
def machine : Machine Scheduler (Operation × Effect) where
  initial scheduler := ∃ nanoseconds, scheduler = new nanoseconds
  step scheduler label next := scheduler.perform label.1 = some (next, label.2)

end Scheduler
end Xineliboutput.Udp
