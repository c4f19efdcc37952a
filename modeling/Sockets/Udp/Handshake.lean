/-
How a transfer is set up. The parent server serves one session at a time
(`mydg_echo`): on its listening socket it waits for a filename, answers with
the port of the session's connection socket, and waits there for an
acknowledgement, for a while; the first that comes, from whichever client,
is sent back, and a child is forked for its sender. A client asks until it
has a port, connects its socket to it, sends "ACK", and takes the next
datagram it reads for its acknowledgement; if none comes in time it has
closed its socket, and its next call on it ends it.

The network is the list of all datagrams ever sent: any of them may arrive
at any time, any number of times or never. A client's socket takes only what
comes from the end it is connected to when it arrives; what has arrived
stays there when the socket is connected anew.
-/
import Mathlib.Logic.Function.Basic
import Sockets.Lib.CString
import Sockets.Lib.Decimal
import Sockets.Lib.Machine

namespace Sockets.Udp.Handshake

/-- A client's socket, or one of the server's on one of its addresses. -/
inductive End (ι κ : Type)
  | client (c : ι)
  | server (ip : κ) (port : Nat)
  deriving DecidableEq

structure Datagram (ι κ : Type) where
  src : End ι κ
  dst : End ι κ
  payload : List Char
  deriving DecidableEq

/-- What the clients and the server read from their files. -/
structure Setup (ι κ : Type) where
  portNumber : Nat
  currentServAddr : ι → κ
  filename : ι → List Char
  filename_nul : ∀ c, nul ∉ filename c
  filename_length : ∀ c, (filename c).length < MAXLINE

inductive ClientPhase (ι κ : Type)
  /-- at the head of the loop -/
  | asking
  /-- has asked, and waits for the port -/
  | waiting
  /-- has acknowledged, and waits for the acknowledgement to come back -/
  | acking (connectionSocketPort : Nat)
  /-- goes on to the transfer, with what it took for its acknowledgement -/
  | started (connectionSocketPort : Nat) (acknowledgement : Datagram ι κ)
  /-- ends at a call on the socket it has closed -/
  | failed

/-- A client, and what has arrived at its socket. -/
structure ClientState (ι κ : Type) where
  phase : ClientPhase ι κ
  arrived : List (Datagram ι κ)

/-- One call of `mydg_echo`, with what was in `filename` at its start, and who asked so far, the last one first. -/
structure Session (ι κ : Type) where
  ip : κ
  port : Nat
  connectionsSockPortNum : List.Vector Char 30
  uninit : List.Vector Char MAXLINE
  filename : List.Vector Char MAXLINE
  requests : List (ι × List Char)
  /-- waits for the acknowledgement -/
  acking : Bool

/-- A child, forked at the end of a session. -/
structure Child (ι κ : Type) where
  session : Session ι κ
  pcliaddr : ι

structure State (ι κ : Type) where
  clients : ι → ClientState ι κ
  session : Option (Session ι κ)
  children : List (Child ι κ)
  sent : List (Datagram ι κ)

inductive Event (ι κ : Type)
  | request (c : ι) (lost : Bool)
  | clientTimeout (c : ι)
  | clientRead (c : ι) (lost : Bool)
  /-- in the transfer -/
  | clientSend (c : ι) (payload : List Char)
  | arrive (d : Datagram ι κ)
  | listen (ip : κ) (port : Nat) (portNum : List.Vector Char 30) (uninit : List.Vector Char MAXLINE)
  | recvFilename (d : Datagram ι κ)
  | recvAcknowledgement (d : Datagram ι κ)
  | serverTimeout
  /-- in the transfer -/
  | childSend (i : Nat) (payload : List Char)

variable {ι κ : Type}

/-- The port a client's socket is connected to. -/
def ClientPhase.peerPort (portNumber : Nat) : ClientPhase ι κ → Option Nat
  | .asking | .waiting => some portNumber
  | .acking port | .started port _ => some port
  | .failed => none

def Session.askers (t : Session ι κ) : List ι := t.requests.map Prod.fst

def Session.address (t : Session ι κ) : κ × Nat := (t.ip, t.port)

/-- The name of the file a child opens; without a `nul` in the array it has no end. -/
def Child.openedName (child : Child ι κ) : Option (List Char) :=
  if nul ∈ child.session.filename.toList then some (stringOf nul child.session.filename.toList) else none

/-- All the sessions so far. Their sockets stay open: the parent closes none. -/
def State.sessions (s : State ι κ) : List (Session ι κ) := s.session.toList ++ s.children.map Child.session

/-- `strtol` on what was read, up to a `nul` in it, and the 16 bits that `htons` has room for. -/
def connectionSocketPort (recvline : List Char) : Nat := (readInt (stringOf nul recvline) % 2 ^ 16).toNat

def filenameRequest (cfg : Setup ι κ) (c : ι) : Datagram ι κ where
  src := .client c
  dst := .server (cfg.currentServAddr c) cfg.portNumber
  payload := cfg.filename c

def clientDatagram (cfg : Setup ι κ) (c : ι) (port : Nat) (payload : List Char) : Datagram ι κ where
  src := .client c
  dst := .server (cfg.currentServAddr c) port
  payload

def ackText : List Char := ['A', 'C', 'K']

/-- What is sent on the listening socket. -/
def Session.reply (t : Session ι κ) (cfg : Setup ι κ) (c : ι) : Datagram ι κ where
  src := .server t.ip cfg.portNumber
  dst := .client c
  payload := t.connectionsSockPortNum.toList

/-- What is sent on the connection socket. -/
def Session.datagram (t : Session ι κ) (c : ι) (payload : List Char) : Datagram ι κ where
  src := .server t.ip t.port
  dst := .client c
  payload

def Session.recvFilename (t : Session ι κ) (c : ι) (payload : List Char) : Session ι κ :=
  { t with filename := received t.filename payload, requests := (c, payload) :: t.requests, acking := true }

/-- A new session on this address and port. -/
def openSession (ip : κ) (port : Nat) (portNum : List.Vector Char 30) (uninit : List.Vector Char MAXLINE) :
    Option (Session ι κ) :=
  (putString nul portNum (intText port)).map fun connectionsSockPortNum =>
    { ip, port, connectionsSockPortNum, uninit, filename := uninit, requests := [], acking := false }

def State.send (s : State ι κ) (lost : Bool) (d : Datagram ι κ) : State ι κ :=
  { s with sent := s.sent ++ if lost then [] else [d] }

variable [DecidableEq ι] [DecidableEq κ]

def State.setClient (s : State ι κ) (c : ι) (client : ClientState ι κ) : State ι κ :=
  { s with clients := Function.update s.clients c client }

def State.setPhase (s : State ι κ) (c : ι) (phase : ClientPhase ι κ) : State ι κ :=
  s.setClient c { s.clients c with phase }

/-- The steps of client `c`, and what arrives at its socket. -/
def clientStep (cfg : Setup ι κ) (s : State ι κ) : Event ι κ → Option (State ι κ)
  | .request c lost =>
    match (s.clients c).phase with
    | .asking => some ((s.setPhase c .waiting).send lost (filenameRequest cfg c))
    | _ => none
  | .clientTimeout c =>
    match (s.clients c).phase with
    | .waiting => some (s.setPhase c .asking)
    -- the socket is closed, and nothing opens another one
    | .acking _ => some (s.setClient c { phase := .failed, arrived := [] })
    | _ => none
  | .clientRead c lost =>
    match (s.clients c).phase, (s.clients c).arrived with
    | .waiting, d :: arrived =>
      let port := connectionSocketPort (d.payload.take MAXLINE)
      some ((s.setClient c { phase := .acking port, arrived }).send lost (clientDatagram cfg c port ackText))
    -- whatever comes is taken for the acknowledgement
    | .acking port, d :: arrived => some (s.setClient c { phase := .started port d, arrived })
    | _, _ => none
  | .clientSend c payload =>
    match (s.clients c).phase with
    | .started port _ => some (s.send false (clientDatagram cfg c port payload))
    | _ => none
  | .arrive d =>
    match d.dst with
    | .client c =>
      if d ∈ s.sent ∧
          ((s.clients c).phase.peerPort cfg.portNumber).map (End.server (cfg.currentServAddr c)) = some d.src then
        some (s.setClient c { s.clients c with arrived := (s.clients c).arrived ++ [d] })
      else none
    | .server .. => none
  | _ => none

/-- The steps of the parent server, and what its children send. -/
def serverStep (cfg : Setup ι κ) (s : State ι κ) : Event ι κ → Option (State ι κ)
  | .listen ip port portNum uninit =>
    if s.session.isNone = true ∧ (ip, port) ∉ s.sessions.map Session.address ∧ port ≠ cfg.portNumber ∧
        port < 2 ^ 16 then
      (openSession ip port portNum uninit).map fun t => { s with session := some t }
    else none
  | .recvFilename d =>
    match s.session, d.src with
    | some t, .client c =>
      if t.acking = false ∧ d ∈ s.sent ∧ d.dst = .server t.ip cfg.portNumber then
        some ({ s with session := some (t.recvFilename c d.payload) }.send false (t.reply cfg c))
      else none
    | _, _ => none
  | .recvAcknowledgement d =>
    match s.session, d.src with
    | some t, .client c =>
      if t.acking = true ∧ d ∈ s.sent ∧ d.dst = .server t.ip t.port then
        some ({ s with session := none, children := { session := t, pcliaddr := c } :: s.children }.send false
          (t.datagram c (d.payload.take MAXLINE)))
      else none
    | _, _ => none
  | .serverTimeout =>
    match s.session with
    | some t => if t.acking = true then some { s with session := some { t with acking := false } } else none
    | none => none
  | .childSend i payload =>
    s.children[i]?.map fun child => s.send false (child.session.datagram child.pcliaddr payload)
  | _ => none

def handshakeMachine (cfg : Setup ι κ) : Machine (State ι κ) (Event ι κ) where
  init := { clients := fun _ => { phase := .asking, arrived := [] }, session := none, children := [], sent := [] }
  step s e := (clientStep cfg s e).or (serverStep cfg s e)

/-! ## What a step can do -/

/-- One step, of a client, of its socket, of the parent or of a child. -/
inductive Moves (cfg : Setup ι κ) (s : State ι κ) : Event ι κ → State ι κ → Prop
  | request {c lost} (hphase : (s.clients c).phase = .asking) :
      Moves cfg s (.request c lost) ((s.setPhase c .waiting).send lost (filenameRequest cfg c))
  | askAgain {c} (hphase : (s.clients c).phase = .waiting) :
      Moves cfg s (.clientTimeout c) (s.setPhase c .asking)
  | giveUp {c} : Moves cfg s (.clientTimeout c) (s.setClient c { phase := .failed, arrived := [] })
  | readPort {c lost d arrived} (hphase : (s.clients c).phase = .waiting)
      (harrived : (s.clients c).arrived = d :: arrived) :
      Moves cfg s (.clientRead c lost)
        ((s.setClient c { phase := .acking (connectionSocketPort (d.payload.take MAXLINE)), arrived }).send lost
          (clientDatagram cfg c (connectionSocketPort (d.payload.take MAXLINE)) ackText))
  | readAck {c lost port d arrived} (hphase : (s.clients c).phase = .acking port)
      (harrived : (s.clients c).arrived = d :: arrived) :
      Moves cfg s (.clientRead c lost) (s.setClient c { phase := .started port d, arrived })
  | clientSend {c payload port d} (hphase : (s.clients c).phase = .started port d) :
      Moves cfg s (.clientSend c payload) (s.send false (clientDatagram cfg c port payload))
  | arrive {d c port} (hsent : d ∈ s.sent) (hdst : d.dst = .client c)
      (hpeer : (s.clients c).phase.peerPort cfg.portNumber = some port)
      (hsrc : d.src = .server (cfg.currentServAddr c) port) :
      Moves cfg s (.arrive d) (s.setClient c { s.clients c with arrived := (s.clients c).arrived ++ [d] })
  | listen {ip port portNum uninit t} (hnone : s.session = none)
      (hfresh : (ip, port) ∉ s.sessions.map Session.address) (hport : port ≠ cfg.portNumber)
      (hlt : port < 2 ^ 16) (hopen : openSession ip port portNum uninit = some t) :
      Moves cfg s (.listen ip port portNum uninit) { s with session := some t }
  | recvFilename {d t c} (hsession : s.session = some t) (hsrc : d.src = .client c) (hsent : d ∈ s.sent)
      (hdst : d.dst = .server t.ip cfg.portNumber) :
      Moves cfg s (.recvFilename d)
        ({ s with session := some (t.recvFilename c d.payload) }.send false (t.reply cfg c))
  | recvAcknowledgement {d t c} (hsession : s.session = some t) (hacking : t.acking = true)
      (hsrc : d.src = .client c) (hsent : d ∈ s.sent) (hdst : d.dst = .server t.ip t.port) :
      Moves cfg s (.recvAcknowledgement d)
        ({ s with session := none, children := { session := t, pcliaddr := c } :: s.children }.send false
          (t.datagram c (d.payload.take MAXLINE)))
  | serverTimeout {t} (hsession : s.session = some t) :
      Moves cfg s .serverTimeout { s with session := some { t with acking := false } }
  | childSend {i child payload} (hchild : child ∈ s.children) :
      Moves cfg s (.childSend i payload) (s.send false (child.session.datagram child.pcliaddr payload))

variable {cfg : Setup ι κ} {s s' : State ι κ} {e : Event ι κ}

theorem moves_of_clientStep (h : clientStep cfg s e = some s') : Moves cfg s e s' := by
  cases e <;> simp only [clientStep, reduceCtorEq] at h
  case request c lost =>
    split at h
    next hphase =>
      cases h
      exact .request hphase
    next => cases h
  case clientTimeout c =>
    split at h
    next hphase =>
      cases h
      exact .askAgain hphase
    next =>
      cases h
      exact .giveUp
    next => cases h
  case clientRead c lost =>
    split at h
    next hphase harrived =>
      cases h
      exact .readPort hphase harrived
    next hphase harrived =>
      cases h
      exact .readAck hphase harrived
    next => cases h
  case clientSend c payload =>
    split at h
    next hphase =>
      cases h
      exact .clientSend hphase
    next => cases h
  case arrive d =>
    split at h
    next hdst =>
      simp only [Option.ite_none_right_eq_some, Option.some.injEq, Option.map_eq_some_iff] at h
      obtain ⟨⟨hsent, port, hpeer, hsrc⟩, rfl⟩ := h
      exact .arrive hsent hdst hpeer hsrc.symm
    next => cases h

theorem moves_of_serverStep (h : serverStep cfg s e = some s') : Moves cfg s e s' := by
  cases e <;> simp only [serverStep, reduceCtorEq] at h
  case listen ip port portNum uninit =>
    simp only [Option.ite_none_right_eq_some, Option.map_eq_some_iff, Option.isNone_iff_eq_none] at h
    obtain ⟨⟨hnone, hfresh, hport, hlt⟩, t, hopen, rfl⟩ := h
    exact .listen hnone hfresh hport hlt hopen
  case recvFilename d =>
    split at h
    next hsession hsrc =>
      simp only [Option.ite_none_right_eq_some, Option.some.injEq] at h
      obtain ⟨⟨-, hsent, hdst⟩, rfl⟩ := h
      exact .recvFilename hsession hsrc hsent hdst
    next => cases h
  case recvAcknowledgement d =>
    split at h
    next hsession hsrc =>
      simp only [Option.ite_none_right_eq_some, Option.some.injEq] at h
      obtain ⟨⟨hacking, hsent, hdst⟩, rfl⟩ := h
      exact .recvAcknowledgement hsession hacking hsrc hsent hdst
    next => cases h
  case serverTimeout =>
    split at h
    next hsession =>
      simp only [Option.ite_none_right_eq_some, Option.some.injEq] at h
      obtain ⟨-, rfl⟩ := h
      exact .serverTimeout hsession
    next => cases h
  case childSend i payload =>
    obtain ⟨child, hchild, rfl⟩ := Option.map_eq_some_iff.mp h
    exact .childSend (List.mem_of_getElem? hchild)

theorem moves_of_step (h : (handshakeMachine cfg).step s e = some s') : Moves cfg s e s' := by
  rcases Option.or_eq_some_iff.mp h with h | ⟨-, h⟩
  · exact moves_of_clientStep h
  · exact moves_of_serverStep h

end Sockets.Udp.Handshake
