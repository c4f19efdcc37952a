/-
The send loop of the child server (`mydg_echo` after `Fork`): wait for a
request or a timeout; on a timeout resend the first segment of the window,
or a zeroed dummy when the window is empty; on a request prune the window
and send what the client advertised, `cwnd` and the window space allow.

`last_seg_acked` is the source's variable: set from the request, then
counted up as segments are sent. What has no defined outcome in C (an index
outside the file's buffer, an `int` overflow while computing it) is `none`.
-/
import Sockets.Udp.Segment
import Sockets.Udp.Congestion
import Sockets.Udp.Timer

namespace Sockets.Udp

/-- What is fixed for one transfer: the file the client asked for (`none`
when `fopen` fails), the two window sizes, and the platform's conversion. -/
structure Config where
  file : Option (List UInt8)
  maxBufferSize : Int
  maxWindowSize : Int
  conv : IntConv

inductive ServerStatus
  | running
  | complete
  | exited
deriving DecidableEq, Repr

/-- `sendBase` is the chain behind the source's `send_base`, whose own
segment stays zero. -/
structure Server where
  sendBase : List Segment
  numSegInBuf : Int
  lastSegAcked : Int
  timer : Timer
  congestion : Congestion
  lastOutTime : Int
  status : ServerStatus

/-- The child's variables at the head of its loop; `initTime` is the clock then. -/
def Server.start (initTime : Int) : Server :=
  { sendBase := [], numSegInBuf := 0, lastSegAcked := 0, timer := .start, congestion := .start,
    lastOutTime := i32 initTime, status := .running }

/-! ## The timeout branch -/

/-- The segment a timeout resends. -/
def Server.timeoutSegment (s : Server) (now : Int) : Segment :=
  let seg :=
    match s.sendBase with
    | node :: _ => node
    | [] => { ({} : Segment) with sequenceNum := s.lastSegAcked }
  { seg with isResent := 1, timestamp := i32 now }

def Server.onTimeout (s : Server) (now : Int) : Server × Segment :=
  let s := { s with timer := s.timer.timeout, congestion := s.congestion.timeout }
  (s, s.timeoutSegment now)

/-! ## The request branch -/

/-- Nodes at the front of the window up to `lastSegAcked` are unlinked. -/
def prune (lastSegAcked : Int) : List Segment → Int → List Segment × Int
  | [], num => ([], num)
  | node :: rest, num =>
    if node.sequenceNum ≤ lastSegAcked then prune lastSegAcked rest (num - 1) else (node :: rest, num)

/-- The copy of the file into the payload, with `todo` bytes of the payload
left to fill: up to the end of the payload, or of the file. -/
def copyPayload (dataToSend : List UInt8) : Nat → Segment → Int → Option Segment
  | 0, seg, _ => some seg
  | todo + 1, seg, copyByte => do
    let byte ← readByte dataToSend copyByte
    let seg := { seg with payload := seg.payload.setIfInBounds (udpPayloadSize - (todo + 1)) byte }
    let copyByte ← checked (copyByte + 1)
    if copyByte = dataToSend.length then some { seg with isEof := 1 }
    else copyPayload dataToSend todo seg copyByte

/-- The segment the send loop builds once `last_seg_acked` is counted up. -/
def buildSegment (file : Option (List UInt8)) (lastSegAcked recvRwnd segToSend now : Int) :
    Option Segment := do
  let seg : Segment := { sequenceNum := lastSegAcked }
  let seg := if file = none then { seg with sequenceNum := -1, ackNum := -1 } else seg
  let seg := if recvRwnd = 0 then { seg with isProbe := 1 } else seg
  let seg := { seg with timestamp := i32 now }
  let seg := if segToSend = 0 then { seg with isLastInIter := 1 } else seg
  match file with
  | none => some seg
  | some dataToSend =>
    let copyByte ← checked ((lastSegAcked - 1) * udpPayloadSize)
    copyPayload dataToSend udpPayloadSize seg copyByte

/-- A segment is linked at the end of the window unless its number is in it. -/
def Server.linkSegment (s : Server) (seg : Segment) : Server :=
  if s.sendBase.any (·.sequenceNum = seg.sequenceNum) then s
  else { s with sendBase := s.sendBase ++ [seg], numSegInBuf := s.numSegInBuf + 1 }

/-- The loop that sends: `segToSend` is the source's `seg_to_send`, which a
non-positive value ends at once, and `clock` its readings of the time. -/
def sendLoop (file : Option (List UInt8)) (recvRwnd windowSpace : Int) (clock : Nat → Int) :
    Nat → Server → Option (Server × List Segment)
  | 0, s => some (s, [])
  | segToSend + 1, s =>
    if windowSpace = 0 then some (s, [])
    else do
      let s := { s with lastSegAcked := s.lastSegAcked + 1 }
      let seg ← buildSegment file s.lastSegAcked recvRwnd (segToSend + 1) (clock (segToSend + 1))
      let s := { s.linkSegment seg with lastOutTime := seg.timestamp }
      if seg.isEof > 0 then some (s, [seg])
      else if seg.isProbe = 1 then some (s, [seg])
      else do
        let (s, out) ← sendLoop file recvRwnd windowSpace clock segToSend s
        some (s, seg :: out)

/-- The number of segments a request lets the server send. -/
def segToSend (recvRwnd cwnd windowSpace : Int) : Int :=
  let segToSend := if recvRwnd < cwnd then recvRwnd else cwnd
  if segToSend < windowSpace then segToSend else windowSpace

/-- The request branch. `clock 0` is read on arrival, the others as
segments are sent. -/
def Server.onRequest (cfg : Config) (s : Server) (request : Segment) (clock : Nat → Int) :
    Option (Server × List Segment) :=
  let s := { s with
    timer := s.timer.request (i32 (i32 (clock 0) - s.lastOutTime))
    congestion := getCwnd s.congestion request.ackNum }
  if request.isComplete > 0 then some ({ s with status := .complete }, [])
  else
    let s := { s with
      lastSegAcked := request.ackNum - 1
      congestion := { s.congestion with prevAckSegNum := request.ackNum } }
    let (sendBase, numSegInBuf) := prune s.lastSegAcked s.sendBase s.numSegInBuf
    let s := { s with sendBase, numSegInBuf }
    let windowSpace := cfg.maxBufferSize - s.numSegInBuf
    sendLoop cfg.file request.rwnd windowSpace clock
      (segToSend request.rwnd s.congestion.cwnd windowSpace).toNat s

/-! ## One iteration of the loop -/

inductive ServerEvent
  | timeout (now : Int)
  | request (segment : Segment) (clock : Nat → Int)
  | interrupted

/-- One iteration: the head of the loop, `select`, and what it returned.
The child exits when the head does not get as far as a wait. -/
def Server.step (cfg : Config) (s : Server) (e : ServerEvent) : Option (Server × List Segment) :=
  if s.status ≠ .running then none
  else
    match s.timer.await cfg.conv with
    | none => some ({ s with status := .exited }, [])
    | some timer =>
      let s := { s with timer }
      match e with
      | .timeout now =>
        let (s, seg) := s.onTimeout now
        some (s, [seg])
      | .request segment clock => s.onRequest cfg segment clock
      | .interrupted => some (s, [])

end Sockets.Udp
