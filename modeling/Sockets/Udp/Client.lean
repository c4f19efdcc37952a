/-
The file client after the handshake: the receive thread (`dg_cli1`) and the
consumer thread (`print_data2`), which share the receive window, its count,
`last_seg_acked` and `last_seg_in_transfer`.

A step of a thread is as small as its use of what it shares: each read of a
shared variable outside the mutex is a step of its own, the receive thread's
locked insertion is one step, and so is each round of the consumer's loop
under the mutex. Two things that use the chain without it are not modelled:
`print_list` walks it after each datagram, while the consumer frees segments;
and `recv_base`, its dummy head, is freed before the consumer is joined, which
may still go on from it.
-/
import Sockets.Udp.Server

namespace Sockets.Udp

/-- The shared receive window: the chain behind `recv_base`, its count, the
last segment printed, and (the output) the segments handed to `printf`. -/
structure RecvWindow where
  recvBase : List Segment
  numSegInBuf : Int
  lastSegAcked : Int
  printed : List Segment
deriving DecidableEq

def RecvWindow.start : RecvWindow :=
  { recvBase := [], numSegInBuf := 0, lastSegAcked := 0, printed := [] }

/-- The walk of the insertion: past smaller numbers, stopping at an equal
one, linking before a larger one or at the end. -/
def insertNode (seg : Segment) : List Segment → Int → List Segment × Int
  | [], num => ([seg], num + 1)
  | node :: rest, num =>
    if node.sequenceNum = seg.sequenceNum then (node :: rest, num)
    else if node.sequenceNum > seg.sequenceNum then (seg :: node :: rest, num + 1)
    else
      let (rest, num) := insertNode seg rest num
      (node :: rest, num)

/-- What the receive thread does under the mutex. -/
def RecvWindow.insert (maxWindowSize : Int) (w : RecvWindow) (seg : Segment) : RecvWindow :=
  if w.numSegInBuf < maxWindowSize then
    let (recvBase, numSegInBuf) := insertNode seg w.recvBase w.numSegInBuf
    { w with recvBase, numSegInBuf }
  else w

/-- One round of the consumer's loop: print the first segment if it is the
next one; `none` when the loop ends. -/
def RecvWindow.printHead (w : RecvWindow) : Option RecvWindow :=
  match w.recvBase with
  | [] => none
  | node :: rest =>
    if node.sequenceNum = w.lastSegAcked + 1 then
      some {
        recvBase := rest
        numSegInBuf := w.numSegInBuf - 1
        lastSegAcked := if w.lastSegAcked < node.sequenceNum then node.sequenceNum else w.lastSegAcked
        printed := w.printed ++ [node] }
    else none

/-- At most `rounds` rounds of the consumer's loop. -/
def RecvWindow.drainRounds : Nat → RecvWindow → RecvWindow
  | 0, w => w
  | rounds + 1, w =>
    match w.printHead with
    | none => w
    | some w => drainRounds rounds w

/-- The consumer's loop: every round unlinks a node, so the length of the
window is rounds enough. -/
def RecvWindow.drain (w : RecvWindow) : RecvWindow := drainRounds w.recvBase.length w

/-! ## The two threads -/

/-- Where the receive thread is. `initRwnd` and `probe` are the source's
variables, `seg` the segment just decoded. -/
inductive RecvPc
  /-- at the head of the outer loop -/
  | request
  /-- `ack_num` is read, `num_seg_in_buf` is not -/
  | rwnd (ackNum : Int)
  /-- before the test for completion -/
  | complete (ackNum rwnd : Int)
  | send (request : Segment)
  /-- before the second test for completion -/
  | sent (request : Segment)
  /-- at the head of the inner loop -/
  | listen (initRwnd : Int) (probe : Bool)
  | read (initRwnd : Int) (probe : Bool)
  /-- before the test `seg.sequence_num > last_seg_acked` -/
  | test (seg : Segment) (initRwnd : Int) (probe : Bool)
  /-- the test passed, the mutex is not yet taken -/
  | insert (seg : Segment) (initRwnd : Int) (probe : Bool)
  /-- past the insertion, before the tests of the segment's flags -/
  | flags (seg : Segment) (initRwnd : Int) (probe : Bool)
  | join
  | timeWait
  | exited
deriving DecidableEq

/-- Where the consumer is; it holds the mutex while `draining`. -/
inductive ConsumerPc
  | asleep
  | draining
  | checking
  | finished
deriving DecidableEq, Repr

structure Client where
  window : RecvWindow
  lastSegInTransfer : Int
  receiveComplete : Bool
  recvPc : RecvPc
  consumerPc : ConsumerPc
deriving DecidableEq

def Client.start : Client :=
  { window := .start, lastSegInTransfer := -1, receiveComplete := false,
    recvPc := .request, consumerPc := .asleep }

/-- Everything the client has printed is the last segment of the transfer. -/
def Client.transferred (c : Client) : Prop := c.lastSegInTransfer = c.window.lastSegAcked

instance (c : Client) : Decidable c.transferred := inferInstanceAs (Decidable (_ = _))

/-- The next step of the receive thread, where it is not waiting for a
datagram. `lost` is the simulated loss of the request it sends. -/
def Client.receiverStep (cfg : Config) (c : Client) (lost : Bool) : Option (Client × List Segment) :=
  match c.recvPc with
  | .request =>
    if c.receiveComplete then some ({ c with recvPc := .join }, [])
    else some ({ c with recvPc := .rwnd (c.window.lastSegAcked + 1) }, [])
  | .rwnd ackNum =>
    some ({ c with recvPc := .complete ackNum (cfg.maxWindowSize - c.window.numSegInBuf) }, [])
  | .complete ackNum rwnd =>
    if c.transferred then
      some ({ c with
        receiveComplete := true
        recvPc := .send { ackNum := c.lastSegInTransfer, rwnd, isComplete := 1 } }, [])
    else some ({ c with recvPc := .send { ackNum, rwnd } }, [])
  | .send request => some ({ c with recvPc := .sent request }, if lost then [] else [request])
  | .sent request =>
    if c.transferred then some ({ c with recvPc := .request }, [])
    else some ({ c with recvPc := .listen request.rwnd (decide (request.rwnd = 0)) }, [])
  | .listen initRwnd probe =>
    if initRwnd > 0 ∨ (initRwnd = 0 ∧ probe = true) then
      if c.transferred then some ({ c with recvPc := .request }, [])
      else some ({ c with recvPc := .read initRwnd probe }, [])
    else some ({ c with recvPc := .request }, [])
  | .test seg initRwnd probe =>
    if seg.sequenceNum > c.window.lastSegAcked then
      some ({ c with recvPc := .insert seg initRwnd probe }, [])
    else some ({ c with recvPc := .flags seg initRwnd probe }, [])
  | .insert seg initRwnd probe =>
    -- the mutex
    if c.consumerPc = .draining then none
    else some ({ c with
      window := c.window.insert cfg.maxWindowSize seg
      recvPc := .flags seg initRwnd probe }, [])
  | .flags seg initRwnd probe =>
    if seg.isEof > 0 then
      some ({ c with lastSegInTransfer := seg.sequenceNum, recvPc := .request }, [])
    else if seg.isResent > 0 then some ({ c with recvPc := .request }, [])
    else if seg.isLastInIter > 0 then some ({ c with recvPc := .request }, [])
    else some ({ c with recvPc := .listen (initRwnd - 1) probe }, [])
  | .join => if c.consumerPc = .finished then some ({ c with recvPc := .timeWait }, []) else none
  -- the alarm ends the wait
  | .timeWait => some ({ c with recvPc := .exited }, [])
  | .read .. | .exited => none

/-- A datagram arrives at a waiting receive thread. `lost` is its simulated
loss, or in `TIME_WAIT` that of the reply. -/
def Client.onDatagram (cfg : Config) (c : Client) (seg : Segment) (lost : Bool) :
    Option (Client × List Segment) :=
  match c.recvPc with
  | .read initRwnd probe =>
    if lost then some ({ c with recvPc := .listen (initRwnd - 1) probe }, [])
    else if seg.sequenceNum = -1 ∧ seg.ackNum = -1 then
      -- file not found: exit(2)
      some ({ c with window := { c.window with lastSegAcked := -1 }, recvPc := .exited }, [])
    else if seg.isProbe > 0 then some ({ c with recvPc := .request }, [])
    else some ({ c with recvPc := .test seg initRwnd probe }, [])
  | .timeWait =>
    let request : Segment := {
      ackNum := c.window.lastSegAcked + 1
      rwnd := cfg.maxWindowSize - c.window.numSegInBuf }
    if c.transferred then
      let request := { request with isComplete := 1, ackNum := c.lastSegInTransfer }
      some ({ c with receiveComplete := true }, if lost then [] else [request])
    else some (c, if lost then [] else [request])
  | _ => none

def Client.consumerStep (c : Client) : Option Client :=
  if c.recvPc = .exited then none
  else
    match c.consumerPc with
    | .asleep => some { c with consumerPc := .draining }
    | .draining =>
      match c.window.printHead with
      | some window => some { c with window }
      | none => some { c with consumerPc := .checking }
    | .checking =>
      if c.transferred then some { c with consumerPc := .finished }
      else if c.window.lastSegAcked = -1 then some { c with consumerPc := .finished }
      else some { c with consumerPc := .asleep }
    | .finished => none

end Sockets.Udp
