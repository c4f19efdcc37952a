/-
Whom a child serves, and with which file. A child is forked for a client that
asked in its session, but not always for the one that asked last; a client
goes on with the port it was told only in sessions it asked in, and if what
it took for its acknowledgement came from there, the child is its own.

The file is the one the last request of the session names, as long as what
stands behind the name in the buffer ends it: no request puts a `nul` there.
-/
import Sockets.Udp.Handshake

namespace Sockets.Udp.Handshake

variable {ι κ : Type} {cfg : Setup ι κ} {s s' : State ι κ} {t t' : Session ι κ} {c : ι}

/-! ## What is known of a session -/

/-- What the requests leave in the buffer, the last one on top. -/
def written (uninit : List.Vector Char MAXLINE) (requests : List (ι × List Char)) : List.Vector Char MAXLINE :=
  requests.foldr (fun r a => received a r.2) uninit

structure SessionOk (cfg : Setup ι κ) (t : Session ι κ) : Prop where
  port : t.port ≠ cfg.portNumber ∧ t.port < 2 ^ 16
  portNum : Holds nul t.connectionsSockPortNum (intText t.port)
  requests : ∀ r ∈ t.requests, r.2 = cfg.filename r.1 ∧ cfg.currentServAddr r.1 = t.ip
  filename : t.filename = written t.uninit t.requests

/-- The client asked in a session with this port, on the address it knows. -/
def Asked (cfg : Setup ι κ) (s : State ι κ) (c : ι) (port : Nat) : Prop :=
  ∃ t ∈ s.sessions, t.address = (cfg.currentServAddr c, port) ∧ c ∈ t.askers

/-- What there is in the network, and why. -/
inductive Explained (cfg : Setup ι κ) (s : State ι κ) : Datagram ι κ → Prop
  | request (c : ι) : Explained cfg s (filenameRequest cfg c)
  | client {c : ι} {port : Nat} (payload : List Char) (hasked : Asked cfg s c port) :
      Explained cfg s (clientDatagram cfg c port payload)
  | reply {t : Session ι κ} {c : ι} (ht : t ∈ s.sessions) (hc : c ∈ t.askers) : Explained cfg s (t.reply cfg c)
  | child {child : Child ι κ} (payload : List Char) (hchild : child ∈ s.children) :
      Explained cfg s (child.session.datagram child.pcliaddr payload)

/-- It is for this client, from its server's listening socket or from this port. -/
structure FromPeer (cfg : Setup ι κ) (c : ι) (peer : Option Nat) (d : Datagram ι κ) : Prop where
  dst : d.dst = .client c
  src : ∃ port, d.src = .server (cfg.currentServAddr c) port ∧ (port = cfg.portNumber ∨ peer = some port)

structure ClientOk (cfg : Setup ι κ) (s : State ι κ) (c : ι) (client : ClientState ι κ) : Prop where
  asked : ∀ port, client.phase = .acking port ∨ (∃ d, client.phase = .started port d) → Asked cfg s c port
  arrived : ∀ d ∈ client.arrived, d ∈ s.sent ∧ FromPeer cfg c (client.phase.peerPort cfg.portNumber) d
  started : ∀ port d, client.phase = .started port d → d ∈ s.sent ∧ FromPeer cfg c (some port) d

structure HandshakeInv (cfg : Setup ι κ) (s : State ι κ) : Prop where
  ports : (s.sessions.map Session.address).Nodup
  sessions : ∀ t ∈ s.sessions, SessionOk cfg t
  children : ∀ child ∈ s.children, child.pcliaddr ∈ child.session.askers
  sent : ∀ d ∈ s.sent, Explained cfg s d
  clients : ∀ c, ClientOk cfg s c (s.clients c)

/-! ## What only grows -/

/-- Sessions go on, with more requests; no child is forgotten and nothing that was sent is lost. -/
structure Grows (s s' : State ι κ) : Prop where
  sessions : ∀ t ∈ s.sessions, ∃ t' ∈ s'.sessions, t'.address = t.address ∧
    t'.connectionsSockPortNum = t.connectionsSockPortNum ∧ t.askers ⊆ t'.askers
  children : s.children ⊆ s'.children
  sent : s.sent ⊆ s'.sent

theorem Asked.grows (hg : Grows s s') {port : Nat} (h : Asked cfg s c port) : Asked cfg s' c port := by
  obtain ⟨t, ht, haddress, hc⟩ := h
  obtain ⟨t', ht', haddress', -, hsub⟩ := hg.sessions t ht
  exact ⟨t', ht', haddress'.trans haddress, hsub hc⟩

theorem Explained.grows (hg : Grows s s') {d : Datagram ι κ} (h : Explained cfg s d) : Explained cfg s' d := by
  cases h with
  | request c => exact .request c
  | client payload hasked => exact .client payload (hasked.grows hg)
  | @reply t c ht hc =>
    obtain ⟨t', ht', haddress, hportNum, hsub⟩ := hg.sessions t ht
    have hsame : t'.reply cfg c = t.reply cfg c := by
      rw [Session.reply, Session.reply, hportNum, (Prod.mk.inj haddress).1]
    rw [← hsame]
    exact .reply ht' (hsub hc)
  | child payload hchild => exact .child payload (hg.children hchild)

theorem ClientOk.grows (hg : Grows s s') {client : ClientState ι κ} (h : ClientOk cfg s c client) :
    ClientOk cfg s' c client where
  asked port hphase := (h.asked port hphase).grows hg
  arrived d hd := ⟨hg.sent (h.arrived d hd).1, (h.arrived d hd).2⟩
  started port d hphase := ⟨hg.sent (h.started port d hphase).1, (h.started port d hphase).2⟩

theorem Grows.send {lost : Bool} {d : Datagram ι κ} : Grows s (s.send lost d) where
  sessions t ht := ⟨t, ht, rfl, rfl, List.Subset.refl _⟩
  children := List.Subset.refl _
  sent := List.subset_append_left _ _

theorem Grows.setClient [DecidableEq ι] {client : ClientState ι κ} : Grows s (s.setClient c client) where
  sessions t ht := ⟨t, ht, rfl, rfl, List.Subset.refl _⟩
  children := List.Subset.refl _
  sent := List.Subset.refl _

/-! ## What a datagram says of where it comes from -/

theorem SessionOk.portNumber_reply (h : SessionOk cfg t) (c : ι) :
    connectionSocketPort ((t.reply cfg c).payload.take MAXLINE) = t.port := by
  have hlen : (t.reply cfg c).payload.length ≤ MAXLINE := by
    rw [Session.reply, t.connectionsSockPortNum.toList_length]
    decide
  have hlt := h.port.2
  rw [List.take_of_length_le hlen, connectionSocketPort, Session.reply, h.portNum.stringOf, readInt_intText]
  omega

theorem child_session_mem {child : Child ι κ} (hchild : child ∈ s.children) : child.session ∈ s.sessions :=
  List.mem_append_right _ (List.mem_map_of_mem hchild)

theorem SessionOk.asked (h : SessionOk cfg t) (ht : t ∈ s.sessions) (hc : c ∈ t.askers) :
    Asked cfg s c t.port := by
  obtain ⟨r, hr, rfl⟩ := List.mem_map.mp hc
  exact ⟨t, ht, by rw [Session.address, (h.requests r hr).2], hc⟩

namespace HandshakeInv

variable (h : HandshakeInv cfg s)

include h

theorem port_ne {port : Nat} (hasked : Asked cfg s c port) : port ≠ cfg.portNumber := by
  obtain ⟨t, ht, haddress, -⟩ := hasked
  have hport := (h.sessions t ht).port.1
  rwa [(Prod.mk.inj haddress).2] at hport

theorem session_unique (ht : t ∈ s.sessions) (ht' : t' ∈ s.sessions) (he : t'.address = t.address) : t' = t :=
  List.inj_on_of_nodup_map h.ports ht' ht he

/-- What comes from a listening socket says the port of a session to one that asked in it. -/
theorem reply_of_listening {d : Datagram ι κ} {ip : κ} (hd : d ∈ s.sent) (hsrc : d.src = .server ip cfg.portNumber) :
    ∃ t ∈ s.sessions, ∃ c ∈ t.askers, d = t.reply cfg c := by
  cases h.sent d hd with
  | request | client => cases hsrc
  | @reply t c ht hc => exact ⟨t, ht, c, hc, rfl⟩
  | child payload hchild =>
    have hport := (End.server.inj hsrc).2
    exact absurd hport (h.sessions _ (child_session_mem hchild)).port.1

/-- What comes from another port comes from a child, and is for the client it serves. -/
theorem child_of_connection {d : Datagram ι κ} {ip : κ} {port : Nat} (hd : d ∈ s.sent)
    (hsrc : d.src = .server ip port) (hport : port ≠ cfg.portNumber) :
    ∃ child ∈ s.children, child.session.address = (ip, port) ∧ d.dst = .client child.pcliaddr := by
  cases h.sent d hd with
  | request | client => cases hsrc
  | reply ht hc =>
    cases hsrc
    exact absurd rfl hport
  | child payload hchild =>
    cases hsrc
    exact ⟨_, hchild, rfl, rfl⟩

/-- What comes in on a listening socket is a request for its client's file. -/
theorem request_of_listening {d : Datagram ι κ} {ip : κ} (hd : d ∈ s.sent) (hsrc : d.src = .client c)
    (hdst : d.dst = .server ip cfg.portNumber) : d.payload = cfg.filename c ∧ cfg.currentServAddr c = ip := by
  cases h.sent d hd with
  | request c =>
    cases hsrc
    cases hdst
    exact ⟨rfl, rfl⟩
  | client payload hasked =>
    cases hdst
    exact absurd rfl (h.port_ne hasked)
  | reply | child => cases hsrc

/-- What comes in on a connection socket was sent by one that asked in its session. -/
theorem asker_of_connection {d : Datagram ι κ} (ht : t ∈ s.sessions) (hd : d ∈ s.sent)
    (hsrc : d.src = .client c) (hdst : d.dst = .server t.ip t.port) : c ∈ t.askers := by
  cases h.sent d hd with
  | request c =>
    cases hsrc
    exact absurd (End.server.inj hdst).2.symm (h.sessions t ht).port.1
  | client payload hasked =>
    obtain ⟨t', ht', haddress, hc⟩ := hasked
    cases hsrc
    obtain ⟨hip, hport⟩ := End.server.inj hdst
    have hsame : t' = t := h.session_unique ht ht' (by rw [haddress, hip, hport]; rfl)
    exact hsame ▸ hc
  | reply | child => cases hsrc

/-- No two children have one port. -/
theorem child_unique {child child' : Child ι κ} (hchild : child ∈ s.children) (hchild' : child' ∈ s.children)
    (he : child'.session.address = child.session.address) : child' = child := by
  have hports := h.ports
  rw [State.sessions, List.map_append, List.map_map] at hports
  exact List.inj_on_of_nodup_map hports.of_append_right hchild' hchild he

/-- What comes to a client from the port it is on comes from its own child. -/
theorem served {port : Nat} {d : Datagram ι κ} (hd : d ∈ s.sent) (hdst : d.dst = .client c)
    (hsrc : d.src = .server (cfg.currentServAddr c) port) (hport : port ≠ cfg.portNumber) :
    ∃ child ∈ s.children, child.session.address = (cfg.currentServAddr c, port) ∧ child.pcliaddr = c := by
  obtain ⟨child, hchild, haddress, hdst'⟩ := h.child_of_connection hd hsrc hport
  exact ⟨child, hchild, haddress, End.client.inj (hdst'.symm.trans hdst)⟩

end HandshakeInv

/-! ## What a step keeps -/

theorem HandshakeInv.send (h : HandshakeInv cfg s) {lost : Bool} {d : Datagram ι κ} (hd : Explained cfg s d) :
    HandshakeInv cfg (s.send lost d) where
  ports := h.ports
  sessions := h.sessions
  children := h.children
  sent d' hd' := by
    rcases List.mem_append.mp hd' with hd' | hd'
    · exact (h.sent d' hd').grows .send
    · split at hd'
      · cases hd'
      · rw [List.mem_singleton.mp hd']
        exact hd.grows .send
  clients c := (h.clients c).grows .send

theorem HandshakeInv.setClient [DecidableEq ι] (h : HandshakeInv cfg s) {client : ClientState ι κ}
    (hclient : ClientOk cfg s c client) : HandshakeInv cfg (s.setClient c client) where
  ports := h.ports
  sessions := h.sessions
  children := h.children
  sent d hd := (h.sent d hd).grows .setClient
  clients := (Function.forall_update_iff s.clients (p := fun c' => ClientOk cfg (s.setClient c client) c')).mpr
    ⟨hclient.grows .setClient, fun c' _ => (h.clients c').grows .setClient⟩

/-- The first session goes on as `t'`, in state `s'`, where nothing else changes but what is sent. -/
theorem HandshakeInv.setSession (h : HandshakeInv cfg s) (hsession : s.session = some t)
    (ht' : SessionOk cfg t') (haddress : t'.address = t.address)
    (hportNum : t'.connectionsSockPortNum = t.connectionsSockPortNum) (hsub : t.askers ⊆ t'.askers) :
    HandshakeInv cfg { s with session := some t' } := by
  have hsessions : s.sessions = t :: s.children.map Child.session := by
    rw [State.sessions, hsession]
    rfl
  have hg : Grows s { s with session := some t' } := by
    refine ⟨?_, List.Subset.refl _, List.Subset.refl _⟩
    intro u hu
    rw [hsessions, List.mem_cons] at hu
    rcases hu with rfl | hu
    · exact ⟨t', List.mem_cons_self, haddress, hportNum, hsub⟩
    · exact ⟨u, List.mem_cons_of_mem _ hu, rfl, rfl, List.Subset.refl _⟩
  have hports := h.ports
  have hold := h.sessions
  rw [hsessions] at hports hold
  refine ⟨?_, ?_, h.children, fun d hd => (h.sent d hd).grows hg, fun c => (h.clients c).grows hg⟩
  · show ((t' :: s.children.map Child.session).map Session.address).Nodup
    rwa [List.map_cons, haddress]
  · intro u hu
    rcases List.mem_cons.mp hu with rfl | hu
    · exact ht'
    · exact hold u (List.mem_cons_of_mem _ hu)

/-- A session with no requests yet, on a port that no other has. -/
theorem HandshakeInv.listen (h : HandshakeInv cfg s) (hnone : s.session = none) (ht : SessionOk cfg t)
    (hfresh : t.address ∉ s.sessions.map Session.address) : HandshakeInv cfg { s with session := some t } := by
  have hsessions : s.sessions = s.children.map Child.session := by
    rw [State.sessions, hnone]
    rfl
  have hg : Grows s { s with session := some t } := by
    refine ⟨?_, List.Subset.refl _, List.Subset.refl _⟩
    intro u hu
    rw [hsessions] at hu
    exact ⟨u, List.mem_cons_of_mem _ hu, rfl, rfl, List.Subset.refl _⟩
  have hports := h.ports
  have hold := h.sessions
  rw [hsessions] at hports hold hfresh
  refine ⟨List.nodup_cons.mpr ⟨hfresh, hports⟩, ?_, h.children, fun d hd => (h.sent d hd).grows hg,
    fun c => (h.clients c).grows hg⟩
  intro u hu
  rcases List.mem_cons.mp hu with rfl | hu
  · exact ht
  · exact hold u hu

/-- The session becomes that of a new child, for one that asked in it. -/
theorem HandshakeInv.fork (h : HandshakeInv cfg s) (hsession : s.session = some t) (hc : c ∈ t.askers) :
    HandshakeInv cfg { s with session := none, children := { session := t, pcliaddr := c } :: s.children } := by
  have hsessions : s.sessions = t :: s.children.map Child.session := by
    rw [State.sessions, hsession]
    rfl
  have hg : Grows s
      { s with session := none, children := { session := t, pcliaddr := c } :: s.children } := by
    refine ⟨?_, List.subset_cons_self _ _, List.Subset.refl _⟩
    intro u hu
    rw [hsessions] at hu
    exact ⟨u, hu, rfl, rfl, List.Subset.refl _⟩
  have hports := h.ports
  have hold := h.sessions
  rw [hsessions] at hports hold
  refine ⟨hports, hold, ?_, fun d hd => (h.sent d hd).grows hg, fun c => (h.clients c).grows hg⟩
  intro child hchild
  rcases List.mem_cons.mp hchild with rfl | hchild
  · exact hc
  · exact h.children child hchild

/-! ## What a step of a client keeps -/

theorem FromPeer.of_listening {peer : Option Nat} {d : Datagram ι κ}
    (h : FromPeer cfg c (some cfg.portNumber) d) : FromPeer cfg c peer d := by
  obtain ⟨hdst, port, hsrc, hport⟩ := h
  refine ⟨hdst, port, hsrc, .inl ?_⟩
  rcases hport with hport | hport
  · exact hport
  · exact (Option.some.inj hport).symm

/-- A client that is still connected to the listening socket. -/
theorem ClientOk.listening {client : ClientState ι κ} {phase : ClientPhase ι κ} (h : ClientOk cfg s c client)
    (hphase : client.phase = .asking ∨ client.phase = .waiting) (hphase' : phase = .asking ∨ phase = .waiting) :
    ClientOk cfg s c { client with phase } := by
  refine ⟨?_, ?_, ?_⟩
  · intro port hp
    rcases hphase' with rfl | rfl <;> simp at hp
  · intro d hd
    obtain ⟨hsent, hfrom⟩ := h.arrived d hd
    refine ⟨hsent, FromPeer.of_listening ?_⟩
    rcases hphase with hp | hp <;> rwa [hp] at hfrom
  · intro port d hp
    rcases hphase' with rfl | rfl <;> cases hp

theorem ClientOk.failed : ClientOk cfg s c { phase := .failed, arrived := [] } where
  asked port hp := by simp at hp
  arrived d hd := by simp at hd
  started port d hp := by cases hp

/-- A client that reads its port asked in the session that has it. -/
theorem HandshakeInv.asked_of_read (h : HandshakeInv cfg s) {d : Datagram ι κ} {arrived : List (Datagram ι κ)}
    (hphase : (s.clients c).phase = .waiting) (harrived : (s.clients c).arrived = d :: arrived) :
    Asked cfg s c (connectionSocketPort (d.payload.take MAXLINE)) := by
  obtain ⟨hsent, hfrom⟩ := (h.clients c).arrived d (by rw [harrived]; exact List.mem_cons_self)
  rw [hphase] at hfrom
  obtain ⟨hdst, port, hsrc, hport⟩ := hfrom
  obtain rfl : port = cfg.portNumber := by
    rcases hport with hport | hport
    · exact hport
    · exact (Option.some.inj hport).symm
  obtain ⟨t, ht, c', hc', rfl⟩ := h.reply_of_listening hsent hsrc
  obtain rfl : c' = c := End.client.inj hdst
  rw [(h.sessions t ht).portNumber_reply]
  exact (h.sessions t ht).asked ht hc'

theorem ClientOk.readPort {client : ClientState ι κ} {d : Datagram ι κ} {arrived : List (Datagram ι κ)} {port : Nat}
    (h : ClientOk cfg s c client) (hphase : client.phase = .waiting) (harrived : client.arrived = d :: arrived)
    (hasked : Asked cfg s c port) : ClientOk cfg s c { phase := .acking port, arrived } := by
  refine ⟨?_, ?_, ?_⟩
  · intro port' hp
    obtain rfl : port = port' := by simpa using hp
    exact hasked
  · intro d' hd'
    obtain ⟨hsent, hfrom⟩ := h.arrived d' (by rw [harrived]; exact List.mem_cons_of_mem _ hd')
    rw [hphase] at hfrom
    exact ⟨hsent, hfrom.of_listening⟩
  · intro port' d' hp
    cases hp

theorem ClientOk.readAck {client : ClientState ι κ} {d : Datagram ι κ} {arrived : List (Datagram ι κ)} {port : Nat}
    (h : ClientOk cfg s c client) (hphase : client.phase = .acking port) (harrived : client.arrived = d :: arrived) :
    ClientOk cfg s c { phase := .started port d, arrived } := by
  have hmem : ∀ d' ∈ d :: arrived, d' ∈ s.sent ∧ FromPeer cfg c (some port) d' := by
    intro d' hd'
    have hd' := h.arrived d' (harrived ▸ hd')
    rwa [hphase] at hd'
  refine ⟨?_, ?_, ?_⟩
  · intro port' hp
    obtain rfl : port = port' := by simpa using hp
    exact h.asked port (.inl hphase)
  · intro d' hd'
    exact hmem d' (List.mem_cons_of_mem _ hd')
  · intro port' d' hp
    cases hp
    exact hmem d List.mem_cons_self

theorem ClientOk.arrive {client : ClientState ι κ} {d : Datagram ι κ} {port : Nat} (h : ClientOk cfg s c client)
    (hsent : d ∈ s.sent) (hdst : d.dst = .client c) (hpeer : client.phase.peerPort cfg.portNumber = some port)
    (hsrc : d.src = .server (cfg.currentServAddr c) port) :
    ClientOk cfg s c { client with arrived := client.arrived ++ [d] } where
  asked := h.asked
  arrived d' hd' := by
    rcases List.mem_append.mp hd' with hd' | hd'
    · exact h.arrived d' hd'
    · obtain rfl := List.mem_singleton.mp hd'
      exact ⟨hsent, hdst, port, hsrc, .inr hpeer⟩
  started := h.started

theorem SessionOk.open {ip : κ} {port : Nat} {portNum : List.Vector Char 30} {uninit : List.Vector Char MAXLINE}
    (hport : port ≠ cfg.portNumber) (hlt : port < 2 ^ 16) (h : openSession ip port portNum uninit = some t) :
    SessionOk cfg t ∧ t.address = (ip, port) := by
  have hnul : nul ∉ intText port := notMem_intText (by decide) (by decide) _
  obtain ⟨connectionsSockPortNum, hput, rfl⟩ := Option.map_eq_some_iff.mp h
  have hlen : (intText port).length < 30 := by
    by_contra hlong
    rw [putString, dif_neg hlong] at hput
    cases hput
  obtain ⟨a, ha, hholds⟩ := putString_holds portNum hnul hlen
  obtain rfl : connectionsSockPortNum = a := Option.some.inj (hput.symm.trans ha)
  exact ⟨⟨⟨hport, hlt⟩, hholds, by simp, rfl⟩, rfl⟩

theorem SessionOk.recvFilename (h : SessionOk cfg t) {payload : List Char} (hpayload : payload = cfg.filename c)
    (hip : cfg.currentServAddr c = t.ip) : SessionOk cfg (t.recvFilename c payload) where
  port := h.port
  portNum := h.portNum
  requests r hr := by
    rcases List.mem_cons.mp hr with rfl | hr
    · exact ⟨hpayload, hip⟩
    · exact h.requests r hr
  filename := by
    show received t.filename payload = received (written t.uninit t.requests) payload
    rw [h.filename]

/-- What a client can still take for its acknowledgement is one. -/
def AnswerRead (cfg : Setup ι κ) (c : ι) (client : ClientState ι κ) : Prop :=
  match client.phase with
  | .asking | .waiting => client.arrived.length ≤ 1
  | .acking port => ∀ d ∈ client.arrived, d.src = .server (cfg.currentServAddr c) port
  | .started port d => d.src = .server (cfg.currentServAddr c) port
  | .failed => True

theorem AnswerRead.arrive {client : ClientState ι κ} {d : Datagram ι κ} {port : Nat}
    (h : AnswerRead cfg c client) (hpeer : client.phase.peerPort cfg.portNumber = some port)
    (hsrc : d.src = .server (cfg.currentServAddr c) port)
    (hone : d.src = .server (cfg.currentServAddr c) cfg.portNumber → client.arrived = []) :
    AnswerRead cfg c { client with arrived := client.arrived ++ [d] } := by
  unfold AnswerRead at h ⊢
  obtain ⟨phase, arrived⟩ := client
  cases phase <;> simp only [ClientPhase.peerPort, Option.some.injEq, reduceCtorEq] at hpeer h hone ⊢
  case asking | waiting =>
    rw [hone (hpeer ▸ hsrc)]
    exact le_rfl
  case acking p =>
    intro d' hd'
    rcases List.mem_append.mp hd' with hd' | hd'
    · exact h d' hd'
    · rw [List.mem_singleton.mp hd', hpeer, hsrc]
  case started p d' => exact h

/-! ## Two clients -/

def twoClients : Setup Bool Unit where
  portNumber := 9877
  currentServAddr _ := ()
  filename c := if c then ['a'] else ['b', 'c']
  filename_nul := by decide
  filename_length := by decide

def zeroes (n : Nat) : List.Vector Char n := List.Vector.replicate n nul

/-- The server's answer to this client, from a session on this port. -/
def answerTo (c : Bool) (port : Nat) : Datagram Bool Unit where
  src := .server () twoClients.portNumber
  dst := .client c
  payload := intText port ++ List.replicate (30 - (intText port).length) nul

def hasStarted (s : State Bool Unit) (c : Bool) : Bool :=
  match (s.clients c).phase with
  | .started .. => true
  | _ => false

theorem hasStarted_iff {s : State Bool Unit} {c : Bool} :
    hasStarted s c = true ↔ ∃ port d, (s.clients c).phase = .started port d := by
  unfold hasStarted
  split
  next port d heq => exact ⟨fun _ => ⟨port, d, heq⟩, fun _ => rfl⟩
  next hne => exact ⟨fun h => absurd h Bool.false_ne_true, fun ⟨port, d, heq⟩ => absurd heq (hne port d)⟩

/-- One client asks, acknowledges and goes on. -/
def connects : List (Event Bool Unit) :=
  [.request true false, .listen () 5000 (zeroes 30) (zeroes MAXLINE), .recvFilename (filenameRequest twoClients true),
    .arrive (answerTo true 5000), .clientRead true false,
    .recvAcknowledgement (clientDatagram twoClients true 5000 ackText),
    .arrive { src := .server () 5000, dst := .client true, payload := ackText }, .clientRead true false]

/-- The answer arrives twice, and the second copy is taken for the acknowledgement. -/
def answeredTwice : List (Event Bool Unit) :=
  [.request true false, .listen () 5000 (zeroes 30) (zeroes MAXLINE), .recvFilename (filenameRequest twoClients true),
    .arrive (answerTo true 5000), .arrive (answerTo true 5000), .clientRead true true, .clientRead true false]

/-- The acknowledgement of one client comes in after the request of the other. -/
def acknowledgesLate : List (Event Bool Unit) :=
  [.request true false, .listen () 5000 (zeroes 30) (zeroes MAXLINE), .recvFilename (filenameRequest twoClients true),
    .arrive (answerTo true 5000), .clientRead true false, .serverTimeout,
    .request false false, .recvFilename (filenameRequest twoClients false),
    .recvAcknowledgement (clientDatagram twoClients true 5000 ackText)]

/-! ## Runs -/

variable [DecidableEq ι] [DecidableEq κ]

theorem HandshakeInv.step (h : HandshakeInv cfg s) {e : Event ι κ}
    (hs : (handshakeMachine cfg).step s e = some s') : HandshakeInv cfg s' := by
  have hmem : ∀ {t}, s.session = some t → t ∈ s.sessions := by
    intro t hsession
    rw [State.sessions, hsession]
    exact List.mem_cons_self
  cases moves_of_step hs with
  | @request c lost hphase =>
    exact (h.setClient ((h.clients c).listening (.inl hphase) (.inr rfl))).send (.request c)
  | @askAgain c hphase => exact h.setClient ((h.clients c).listening (.inr hphase) (.inl rfl))
  | giveUp => exact h.setClient .failed
  | @readPort c lost d arrived hphase harrived =>
    have hasked := h.asked_of_read hphase harrived
    have hclient := (h.clients c).readPort hphase harrived hasked
    exact (h.setClient hclient).send (.client ackText (hasked.grows .setClient))
  | @readAck c lost port d arrived hphase harrived =>
    exact h.setClient ((h.clients c).readAck hphase harrived)
  | @clientSend c payload port d hphase =>
    exact h.send (.client payload ((h.clients c).asked port (.inr ⟨d, hphase⟩)))
  | @arrive d c port hsent hdst hpeer hsrc => exact h.setClient ((h.clients c).arrive hsent hdst hpeer hsrc)
  | listen hnone hfresh hport hlt hopen =>
    obtain ⟨ht, haddress⟩ := SessionOk.open hport hlt hopen
    exact h.listen hnone ht (by rwa [haddress])
  | @recvFilename d t c hsession hsrc hsent hdst =>
    obtain ⟨hpayload, hip⟩ := h.request_of_listening hsent hsrc hdst
    have ht := (h.sessions t (hmem hsession)).recvFilename hpayload hip
    have hnext := h.setSession hsession ht rfl rfl (List.subset_cons_self _ _)
    exact hnext.send (.reply (t := t.recvFilename c d.payload) List.mem_cons_self List.mem_cons_self)
  | @recvAcknowledgement d t c hsession hacking hsrc hsent hdst =>
    have hc := h.asker_of_connection (hmem hsession) hsent hsrc hdst
    have hnext := h.fork hsession hc
    have hecho := @Explained.child ι κ cfg { s with session := none, children := ⟨t, c⟩ :: s.children } ⟨t, c⟩
      (d.payload.take MAXLINE) List.mem_cons_self
    exact hnext.send hecho
  | @serverTimeout t hsession =>
    have ht := h.sessions t (hmem hsession)
    have hwaits : SessionOk cfg { t with acking := false } := ⟨ht.port, ht.portNum, ht.requests, ht.filename⟩
    exact h.setSession hsession hwaits rfl rfl (List.Subset.refl _)
  | childSend hchild => exact h.send (.child _ hchild)

theorem handshakeInv_of_reachable (h : (handshakeMachine cfg).Reachable s) : HandshakeInv cfg s := by
  refine h.invariant ?_ fun s e s' hs hstep => hs.step hstep
  exact {
    ports := List.nodup_nil
    sessions := by simp [handshakeMachine, State.sessions]
    children := by simp [handshakeMachine]
    sent := by simp [handshakeMachine]
    clients := fun c => ⟨by simp [handshakeMachine], by simp [handshakeMachine], by simp [handshakeMachine]⟩ }

/-- Whom the children serve, and who has gone on to the transfer. -/
structure Agreement (cfg : Setup ι κ) (s : State ι κ) : Prop where
  /-- each child serves one that asked in its session -/
  asker : ∀ child ∈ s.children, child.pcliaddr ∈ child.session.askers
  /-- no two children have one port -/
  alone : ∀ child ∈ s.children, ∀ child' ∈ s.children,
    child'.session.address = child.session.address → child' = child
  /-- a client that has gone on is served on its port, or has taken an answer to its request for its
  acknowledgement -/
  served : ∀ c port d, (s.clients c).phase = .started port d →
    (∃ child ∈ s.children, child.session.address = (cfg.currentServAddr c, port) ∧ child.pcliaddr = c) ∨
      d.src = .server (cfg.currentServAddr c) cfg.portNumber

/-- **Agreement.** Whatever is lost, duplicated, delayed or reordered. -/
theorem agreement_of_reachable (h : (handshakeMachine cfg).Reachable s) : Agreement cfg s := by
  have hinv := handshakeInv_of_reachable h
  refine ⟨hinv.children, ?_, ?_⟩
  · intro child hchild child' hchild' he
    exact hinv.child_unique hchild hchild' he
  · intro c port d hphase
    obtain ⟨hsent, hdst, q, hsrc, hq⟩ := (hinv.clients c).started port d hphase
    rcases hq with rfl | hq
    · exact .inr hsrc
    · cases hq
      exact .inl (hinv.served hsent hdst hsrc (hinv.port_ne ((hinv.clients c).asked port (.inr ⟨d, hphase⟩))))

theorem agreement_answeredTwice : ∃ s, hasStarted s true = true ∧ s.children = [] ∧ Agreement twoClients s := by
  obtain ⟨s, hs, htest⟩ := (handshakeMachine twoClients).reachable_of_exec_any answeredTwice
    (fun s => hasStarted s true && s.children.isEmpty) (by decide +kernel)
  obtain ⟨hstarted, hnone⟩ := Bool.and_eq_true_iff.mp htest
  exact ⟨s, hstarted, List.isEmpty_iff.mp hnone, agreement_of_reachable hs⟩

/-! ## One answer at a time -/

/-- An answer to a request arrives only where no other is unread. -/
def oneAnswer (cfg : Setup ι κ) (s : State ι κ) : Event ι κ → Bool
  | .arrive d =>
    match d.dst with
    | .client c => d.src ≠ .server (cfg.currentServAddr c) cfg.portNumber || (s.clients c).arrived.isEmpty
    | .server .. => true
  | _ => true

theorem answerRead_step (h : ∀ c, AnswerRead cfg c (s.clients c)) {e : Event ι κ}
    (hs : (handshakeMachine cfg).step s e = some s') (hone : oneAnswer cfg s e = true) :
    ∀ c, AnswerRead cfg c (s'.clients c) := by
  have hset : ∀ c client, AnswerRead cfg c client → ∀ c', AnswerRead cfg c' ((s.setClient c client).clients c') := by
    intro c client hclient
    exact (Function.forall_update_iff s.clients (p := fun c' => AnswerRead cfg c')).mpr
      ⟨hclient, fun c' _ => h c'⟩
  cases moves_of_step hs with
  | @request c lost hphase =>
    have hc := h c
    rw [AnswerRead, hphase] at hc
    exact hset c { s.clients c with phase := .waiting } hc
  | @askAgain c hphase =>
    have hc := h c
    rw [AnswerRead, hphase] at hc
    exact hset c { s.clients c with phase := .asking } hc
  | @giveUp c => exact hset c { phase := .failed, arrived := [] } trivial
  | @readPort c lost d arrived hphase harrived =>
    have hc := h c
    rw [AnswerRead, hphase] at hc
    have hrest : arrived = [] := by
      apply List.eq_nil_of_length_eq_zero
      simp only [harrived, List.length_cons] at hc
      omega
    subst hrest
    refine hset c { phase := .acking _, arrived := [] } ?_
    intro d' hd'
    cases hd'
  | @readAck c lost port d arrived hphase harrived =>
    have hc := h c
    rw [AnswerRead, hphase] at hc
    refine hset c { phase := .started port d, arrived } ?_
    exact hc d (by rw [harrived]; exact List.mem_cons_self)
  | @arrive d c port hsent hdst hpeer hsrc =>
    refine hset c _ ((h c).arrive hpeer hsrc ?_)
    intro hlistening
    simpa [oneAnswer, hdst, hlistening] using hone
  | clientSend | listen | recvFilename | recvAcknowledgement | serverTimeout | childSend => exact h

theorem answerRead_of_reachableBy
    (h : (handshakeMachine cfg).ReachableBy (fun s e _ => oneAnswer cfg s e = true) s) (c : ι) :
    AnswerRead cfg c (s.clients c) := by
  refine h.invariant (I := fun s => ∀ c, AnswerRead cfg c (s.clients c)) ?_ ?_ c
  · intro c
    exact Nat.zero_le _
  · intro s e s' hs hstep hone
    exact answerRead_step hs hstep hone

/-- **Each its own child.** Where a client never has two answers to its requests unread, it goes on only
when there is a child that serves it on its port, and no two clients go on on one port. -/
theorem served_of_started (h : (handshakeMachine cfg).ReachableBy (fun s e _ => oneAnswer cfg s e = true) s) :
    (∀ c port d, (s.clients c).phase = .started port d →
      ∃ child ∈ s.children, child.session.address = (cfg.currentServAddr c, port) ∧ child.pcliaddr = c) ∧
    ∀ c c' port d d', (s.clients c).phase = .started port d → (s.clients c').phase = .started port d' →
      cfg.currentServAddr c' = cfg.currentServAddr c → c' = c := by
  have hinv := handshakeInv_of_reachable h.reachable
  have hserved : ∀ c port d, (s.clients c).phase = .started port d →
      ∃ child ∈ s.children, child.session.address = (cfg.currentServAddr c, port) ∧ child.pcliaddr = c := by
    intro c port d hphase
    have hread := answerRead_of_reachableBy h c
    rw [AnswerRead, hphase] at hread
    obtain ⟨hsent, hfrom⟩ := (hinv.clients c).started port d hphase
    exact hinv.served hsent hfrom.dst hread (hinv.port_ne ((hinv.clients c).asked port (.inr ⟨d, hphase⟩)))
  refine ⟨hserved, ?_⟩
  intro c c' port d d' hphase hphase' hip
  obtain ⟨child, hchild, haddress, hc⟩ := hserved c port d hphase
  obtain ⟨child', hchild', haddress', hc'⟩ := hserved c' port d' hphase'
  have hsame : child' = child := hinv.child_unique hchild hchild' (by rw [haddress', haddress, hip])
  rw [← hc, ← hc', hsame]

theorem served_of_started_connects : ∃ s, hasStarted s true = true ∧ ∃ child ∈ s.children, child.pcliaddr = true := by
  obtain ⟨s, hs, htest⟩ := (handshakeMachine twoClients).reachableBy_of_execBy_any
    (G := fun s e _ => oneAnswer twoClients s e = true) connects (fun s => hasStarted s true) (by decide +kernel)
  obtain ⟨port, d, hphase⟩ := hasStarted_iff.mp htest
  obtain ⟨child, hchild, -, hc⟩ := (served_of_started hs).1 true port d hphase
  exact ⟨s, htest, child, hchild, hc⟩

/-! ## The file -/

omit [DecidableEq ι] [DecidableEq κ] in
/-- A `nul` is left where it was if no name reaches over it. -/
theorem load_written_nul {uninit : List.Vector Char MAXLINE} {requests : List (ι × List Char)}
    (hnul : ∀ r ∈ requests, nul ∉ r.2) {i : Nat} (hi : i < MAXLINE) :
    load (written uninit requests) i = some nul ↔
      (∀ r ∈ requests, r.2.length ≤ i) ∧ load uninit i = some nul := by
  induction requests with
  | nil => simp [written]
  | cons r requests ih =>
    rw [List.forall_mem_cons] at hnul
    show load (received (written uninit requests) r.2) i = some nul ↔ _
    rw [List.forall_mem_cons]
    rcases Nat.lt_or_ge i r.2.length with hlt | hle
    · rw [load_received_of_lt hlt hi, Option.some.injEq]
      constructor
      · intro he
        exact absurd (he ▸ List.getElem_mem hlt) hnul.1
      · intro h
        obtain ⟨⟨hle, -⟩, -⟩ := h
        omega
    · rw [load_received_of_le hle, ih hnul.2]
      exact ⟨fun h => ⟨⟨hle, h.1⟩, h.2⟩, fun h => ⟨h.1.2, h.2⟩⟩

omit [DecidableEq ι] [DecidableEq κ] in
theorem openedName_eq_some_iff {child : Child ι κ} (h : SessionOk cfg child.session) {earlier : List (ι × List Char)}
    (hrequests : child.session.requests = (c, cfg.filename c) :: earlier) :
    child.openedName = some (cfg.filename c) ↔
      (∀ r ∈ earlier, r.2.length ≤ (cfg.filename c).length) ∧
        load child.session.uninit (cfg.filename c).length = some nul := by
  have hnul : ∀ r ∈ earlier, nul ∉ r.2 := by
    intro r hr
    rw [(h.requests r (by rw [hrequests]; exact List.mem_cons_of_mem _ hr)).1]
    exact cfg.filename_nul r.1
  have hfilename : child.session.filename =
      received (written child.session.uninit earlier) (cfg.filename c) := by
    rw [h.filename, hrequests]
    rfl
  rw [Child.openedName, Option.ite_none_right_eq_some, Option.some.injEq, hfilename,
    stringOf_received_iff (cfg.filename_nul c) (cfg.filename_length c),
    load_written_nul hnul (cfg.filename_length c)]

/-- **The file that is served.** It is the one that the last request of the session asks for exactly when
no earlier one in the session was longer and the array had a `nul` just behind the name from the start. If
nobody but the client asked in its session, the array alone decides. -/
theorem openedName_of_reachable (h : (handshakeMachine cfg).Reachable s) {child : Child ι κ}
    (hchild : child ∈ s.children) :
    (∃ c earlier, child.session.requests = (c, cfg.filename c) :: earlier ∧
      (child.openedName = some (cfg.filename c) ↔
        (∀ r ∈ earlier, r.2.length ≤ (cfg.filename c).length) ∧
          load child.session.uninit (cfg.filename c).length = some nul)) ∧
    ((∀ c ∈ child.session.askers, c = child.pcliaddr) →
      (child.openedName = some (cfg.filename child.pcliaddr) ↔
        load child.session.uninit (cfg.filename child.pcliaddr).length = some nul)) := by
  have hinv := handshakeInv_of_reachable h
  have hok := hinv.sessions _ (child_session_mem hchild)
  have hasker := hinv.children child hchild
  obtain ⟨r, hr, -⟩ := List.mem_map.mp hasker
  obtain ⟨⟨c, name⟩, earlier, hrequests⟩ := List.exists_cons_of_ne_nil (List.ne_nil_of_mem hr)
  obtain rfl : name = cfg.filename c := (hok.requests (c, name) (by rw [hrequests]; exact List.mem_cons_self)).1
  refine ⟨⟨c, earlier, hrequests, openedName_eq_some_iff hok hrequests⟩, ?_⟩
  intro halone
  have hmem : ∀ r ∈ child.session.requests, r.1 = child.pcliaddr :=
    fun r hr => halone r.1 (List.mem_map_of_mem hr)
  obtain rfl : c = child.pcliaddr := hmem (c, cfg.filename c) (by rw [hrequests]; exact List.mem_cons_self)
  rw [openedName_eq_some_iff hok hrequests, and_iff_right]
  intro r hr
  have hr : r ∈ child.session.requests := by
    rw [hrequests]
    exact List.mem_cons_of_mem _ hr
  rw [(hok.requests r hr).1, hmem r hr]

theorem openedName_of_reachable_acknowledgesLate : ∃ child : Child Bool Unit, child.pcliaddr = true ∧
    child.openedName = some (twoClients.filename false) ∧ ∃ c earlier,
      child.session.requests = (c, twoClients.filename c) :: earlier ∧
      (child.openedName = some (twoClients.filename c) ↔
        (∀ r ∈ earlier, r.2.length ≤ (twoClients.filename c).length) ∧
          load child.session.uninit (twoClients.filename c).length = some nul) := by
  obtain ⟨s, hs, htest⟩ := (handshakeMachine twoClients).reachable_of_exec_any acknowledgesLate
    (fun s => s.children.any fun child =>
      child.pcliaddr && child.openedName == some (twoClients.filename false)) (by decide +kernel)
  obtain ⟨child, hchild, htest⟩ := List.any_eq_true.mp htest
  obtain ⟨hc, hname⟩ := Bool.and_eq_true_iff.mp htest
  exact ⟨child, hc, eq_of_beq hname, (openedName_of_reachable hs hchild).1⟩

end Sockets.Udp.Handshake
