/-
An echo client with its parent and its thread of the server, over a connection
and a pipe that deliver their bytes in any pieces.

Every byte that is typed is in one place: read back by the client, or on its
way there, or still to be read from the keyboard (`conserved`). When the
client finds the end of what is typed it leaves its loop at once, and what
is on its way then is never read.
-/
import Sockets.Lib.Machine
import Sockets.Tcp.Parent

namespace Sockets.Tcp

inductive ChildPhase
  | connecting
  /-- in the loop of `str_cli_echo` -/
  | running
  | ended
  deriving DecidableEq

/-- What the arrays hold before anything is written to them. -/
structure Memory where
  child : List.Vector Char MAXLINE
  server : List.Vector Char MAXLINE
  parent : List.Vector Char MAXLINE

def Memory.zero : Memory where
  child := .replicate MAXLINE nul
  server := .replicate MAXLINE nul
  parent := .replicate MAXLINE nul

structure Session where
  /-- what is typed and was not read yet -/
  stdin : List Char
  child : ChildPhase
  buf : List.Vector Char MAXLINE
  toServer : Pipe Char
  /-- the server process is there -/
  up : Bool
  /-- the thread is in the loop of `echoRequest` -/
  serving : Bool
  serverBuf : List.Vector Char MAXLINE
  /-- what the thread has read and not written back yet -/
  held : List Char
  toClient : Pipe Char
  pfd : Pipe Char
  parent : Parent
  /-- what the client has read back -/
  echoed : List Char
  /-- how much stood in the pipe when the client told of a crash -/
  told : Option Nat

inductive Event
  | connect
  | refused
  | childSocket (n : Nat)
  | childSocketEnd
  | childStdin (n : Nat)
  | childStdinEnd
  /-- a signal or a call that fails ends the client -/
  | childDies
  | serverRead (n : Nat)
  | serverReadEnd
  | serverWrite (n : Nat)
  | serverEnds
  | parentRead
  deriving DecidableEq

namespace Session

def start (mem : Memory) (text : List Char) : Session where
  stdin := text
  child := .connecting
  buf := mem.child
  toServer := {}
  up := true
  serving := false
  serverBuf := mem.server
  held := []
  toClient := {}
  pfd := {}
  parent := { phase := .reading, buf := mem.parent, shown := [] }
  echoed := []
  told := none

/-- The client exits; the system closes its ends. -/
def childEnds (s : Session) : Session :=
  { s with child := .ended, toServer := s.toServer.close, pfd := s.pfd.close }

/-- The client writes to the pipe; without a reader that ends it. -/
def tell (s : Session) (m : List Char) : Session :=
  if s.parent.phase = .exited then s.childEnds else { s with pfd := s.pfd.write m }

/-- The server process is gone, with its threads. -/
def serverGone (s : Session) : Session :=
  { s with up := false, serving := false, toClient := s.toClient.close }

def step (s : Session) : Event → Option Session
  | .connect =>
    if s.up = true ∧ s.child = .connecting then
      (clearString nul s.buf).map fun buf => { s with child := .running, buf, serving := true }
    else none
  | .refused => if s.child = .connecting then some (s.tell (termInfo4 ++ [nul])).childEnds else none
  | .childSocket n =>
    if s.child = .running ∧ n ≤ MAXLINE then
      (clearString nul s.buf).bind fun buf =>
        (s.toClient.read n).bind fun (bytes, toClient) =>
          let buf := received buf bytes
          -- `Write(pfd, buf, n + 1)`, and then `printf`
          if n + 1 ≤ MAXLINE ∧ nul ∈ buf.toList then
            some ({ s with buf, toClient, echoed := s.echoed ++ bytes }.tell (buf.toList.take (n + 1)))
          else none
    else none
  | .childSocketEnd =>
    if s.child = .running ∧ s.toClient.ended = true then
      (clearString nul s.buf).map fun buf =>
        ({ s with buf, told := some s.pfd.unread.length }.tell (termInfo ++ [nul])).childEnds
    else none
  | .childStdin n =>
    if s.child = .running ∧ n ≤ MAXLINE ∧ 0 < n ∧ n ≤ s.stdin.length then
      some { s with
        stdin := s.stdin.drop n
        buf := received s.buf (s.stdin.take n)
        toServer := s.toServer.write (s.stdin.take n) }
    else none
  | .childStdinEnd =>
    if s.child = .running ∧ s.stdin = [] then some (s.tell (termInfo3 ++ [nul])).childEnds else none
  | .childDies => if s.child ≠ .ended then some s.childEnds else none
  | .serverRead n =>
    if s.serving = true ∧ s.held = [] ∧ n ≤ MAXLINE then
      (clearString nul s.serverBuf).bind fun buf =>
        (s.toServer.read n).bind fun (bytes, toServer) =>
          let buf := received buf bytes
          if nul ∈ buf.toList then some { s with serverBuf := buf, toServer, held := bytes } else none
    else none
  | .serverReadEnd =>
    if s.serving = true ∧ s.held = [] ∧ s.toServer.ended = true then
      (clearString nul s.serverBuf).map fun buf => { s with serverBuf := buf, serving := false }
    else none
  | .serverWrite n =>
    if s.serving = true ∧ 0 < n ∧ n ≤ s.held.length then
      some { s with held := s.held.drop n, toClient := s.toClient.write (s.held.take n) }
    else none
  | .serverEnds => if s.up = true then some s.serverGone else none
  | .parentRead =>
    (s.parent.read .echo s.pfd).map fun (parent, pfd) => { s with parent, pfd }

/-- What was sent and not read back yet. -/
def underWay (s : Session) : List Char := s.toClient.unread ++ s.held ++ s.toServer.unread

end Session

def sessionMachine (mem : Memory) (text : List Char) : Machine Session Event where
  init := .start mem text
  step := Session.step

namespace Session

variable {mem : Memory} {text : List Char} {s s' r : Session} {e : Event}

@[simp] theorem childEnds_buf : s.childEnds.buf = s.buf := rfl
@[simp] theorem childEnds_child : s.childEnds.child = .ended := rfl
@[simp] theorem childEnds_echoed : s.childEnds.echoed = s.echoed := rfl
@[simp] theorem childEnds_parent : s.childEnds.parent = s.parent := rfl
@[simp] theorem childEnds_serverBuf : s.childEnds.serverBuf = s.serverBuf := rfl
@[simp] theorem childEnds_stdin : s.childEnds.stdin = s.stdin := rfl
@[simp] theorem childEnds_toClient : s.childEnds.toClient = s.toClient := rfl
@[simp] theorem childEnds_told : s.childEnds.told = s.told := rfl
@[simp] theorem childEnds_underWay : s.childEnds.underWay = s.underWay := rfl
@[simp] theorem childEnds_up : s.childEnds.up = s.up := rfl
@[simp] theorem tell_buf (m : List Char) : (s.tell m).buf = s.buf := by unfold tell; split <;> rfl
@[simp] theorem tell_echoed (m : List Char) : (s.tell m).echoed = s.echoed := by unfold tell; split <;> rfl
@[simp] theorem tell_parent (m : List Char) : (s.tell m).parent = s.parent := by unfold tell; split <;> rfl
@[simp] theorem tell_serverBuf (m : List Char) : (s.tell m).serverBuf = s.serverBuf := by unfold tell; split <;> rfl
@[simp] theorem tell_stdin (m : List Char) : (s.tell m).stdin = s.stdin := by unfold tell; split <;> rfl
@[simp] theorem tell_toClient (m : List Char) : (s.tell m).toClient = s.toClient := by unfold tell; split <;> rfl
@[simp] theorem tell_told (m : List Char) : (s.tell m).told = s.told := by unfold tell; split <;> rfl
@[simp] theorem tell_underWay (m : List Char) : (s.tell m).underWay = s.underWay := by unfold tell; split <;> rfl
@[simp] theorem tell_up (m : List Char) : (s.tell m).up = s.up := by unfold tell; split <;> rfl

theorem reachable_step (h : (sessionMachine mem text).Reachable s) (hs : s.step e = some s') :
    (sessionMachine mem text).Reachable s' := h.next hs

/-- What an event finds, and what it leaves. -/
inductive Effect (s : Session) : Event → Session → Prop
  | connect {buf : List.Vector Char MAXLINE} (hup : s.up = true) (hchild : s.child = .connecting)
      (hbuf : clearString nul s.buf = some buf) :
      Effect s .connect { s with child := .running, buf, serving := true }
  | refused (hchild : s.child = .connecting) : Effect s .refused (s.tell (termInfo4 ++ [nul])).childEnds
  | childSocket {buf : List.Vector Char MAXLINE} {bytes : List Char} {toClient : Pipe Char}
      (hchild : s.child = .running) (hbuf : clearString nul s.buf = some buf)
      (hread : s.toClient.unread = bytes ++ toClient.unread) (hclosed : toClient.closed = s.toClient.closed)
      (hn : bytes.length + 1 ≤ MAXLINE) :
      Effect s (.childSocket bytes.length)
        ({ s with buf := received buf bytes, toClient, echoed := s.echoed ++ bytes }.tell
          ((received buf bytes).toList.take (bytes.length + 1)))
  | childSocketEnd {buf : List.Vector Char MAXLINE} (hchild : s.child = .running)
      (hclosed : s.toClient.closed = true) (hbuf : clearString nul s.buf = some buf) :
      Effect s .childSocketEnd
        ({ s with buf, told := some s.pfd.unread.length }.tell (termInfo ++ [nul])).childEnds
  | childStdin {n : Nat} (hchild : s.child = .running) :
      Effect s (.childStdin n) { s with
        stdin := s.stdin.drop n
        buf := received s.buf (s.stdin.take n)
        toServer := s.toServer.write (s.stdin.take n) }
  | childStdinEnd (hchild : s.child = .running) : Effect s .childStdinEnd (s.tell (termInfo3 ++ [nul])).childEnds
  | childDies (hchild : s.child ≠ .ended) : Effect s .childDies s.childEnds
  | serverRead {buf : List.Vector Char MAXLINE} {bytes : List Char} {toServer : Pipe Char}
      (hserving : s.serving = true) (hheld : s.held = []) (hread : s.toServer.unread = bytes ++ toServer.unread)
      (hclosed : toServer.closed = s.toServer.closed) (hbuf : clearString nul s.serverBuf = some buf)
      (hn : bytes.length ≤ MAXLINE) (hnul : nul ∈ (received buf bytes).toList) :
      Effect s (.serverRead bytes.length) { s with serverBuf := received buf bytes, toServer, held := bytes }
  | serverReadEnd {buf : List.Vector Char MAXLINE} (hheld : s.held = []) (hended : s.toServer.ended = true)
      (hbuf : clearString nul s.serverBuf = some buf) :
      Effect s .serverReadEnd { s with serverBuf := buf, serving := false }
  | serverWrite {n : Nat} (hserving : s.serving = true) :
      Effect s (.serverWrite n) { s with held := s.held.drop n, toClient := s.toClient.write (s.held.take n) }
  | serverEnds (hup : s.up = true) : Effect s .serverEnds s.serverGone
  | parentRead {parent : Parent} {pfd : Pipe Char} (hread : s.parent.read .echo s.pfd = some (parent, pfd)) :
      Effect s .parentRead { s with parent, pfd }

theorem effect_of_step (h : s.step e = some s') : Effect s e s' := by
  cases e with
  | connect =>
    obtain ⟨⟨hup, hchild⟩, h⟩ := Option.ite_none_right_eq_some.mp h
    obtain ⟨buf, hbuf, rfl⟩ := Option.map_eq_some_iff.mp h
    exact .connect hup hchild hbuf
  | refused =>
    obtain ⟨hchild, h⟩ := Option.ite_none_right_eq_some.mp h
    exact Option.some.inj h ▸ .refused hchild
  | childSocket n =>
    obtain ⟨⟨hchild, -⟩, h⟩ := Option.ite_none_right_eq_some.mp h
    obtain ⟨buf, hbuf, h⟩ := Option.bind_eq_some_iff.mp h
    obtain ⟨⟨bytes, toClient⟩, hread, h⟩ := Option.bind_eq_some_iff.mp h
    obtain ⟨⟨hn, -⟩, heq⟩ := Option.ite_none_right_eq_some.mp h
    obtain ⟨hunread, hclosed, rfl, -⟩ := Pipe.read_eq_some hread
    exact Option.some.inj heq ▸ .childSocket hchild hbuf hunread hclosed hn
  | childSocketEnd =>
    obtain ⟨⟨hchild, hended⟩, h⟩ := Option.ite_none_right_eq_some.mp h
    obtain ⟨buf, hbuf, rfl⟩ := Option.map_eq_some_iff.mp h
    exact .childSocketEnd hchild (Pipe.ended_iff.mp hended).2 hbuf
  | childStdin n =>
    obtain ⟨⟨hchild, -⟩, h⟩ := Option.ite_none_right_eq_some.mp h
    exact Option.some.inj h ▸ .childStdin hchild
  | childStdinEnd =>
    obtain ⟨⟨hchild, -⟩, h⟩ := Option.ite_none_right_eq_some.mp h
    exact Option.some.inj h ▸ .childStdinEnd hchild
  | childDies =>
    obtain ⟨hchild, h⟩ := Option.ite_none_right_eq_some.mp h
    exact Option.some.inj h ▸ .childDies hchild
  | serverRead n =>
    obtain ⟨⟨hserving, hheld, hn⟩, h⟩ := Option.ite_none_right_eq_some.mp h
    obtain ⟨buf, hbuf, h⟩ := Option.bind_eq_some_iff.mp h
    obtain ⟨⟨bytes, toServer⟩, hread, h⟩ := Option.bind_eq_some_iff.mp h
    obtain ⟨hnul, heq⟩ := Option.ite_none_right_eq_some.mp h
    obtain ⟨hunread, hclosed, rfl, -⟩ := Pipe.read_eq_some hread
    exact Option.some.inj heq ▸ .serverRead hserving hheld hunread hclosed hbuf hn hnul
  | serverReadEnd =>
    obtain ⟨⟨-, hheld, hended⟩, h⟩ := Option.ite_none_right_eq_some.mp h
    obtain ⟨buf, hbuf, rfl⟩ := Option.map_eq_some_iff.mp h
    exact .serverReadEnd hheld hended hbuf
  | serverWrite n =>
    obtain ⟨⟨hserving, -⟩, h⟩ := Option.ite_none_right_eq_some.mp h
    exact Option.some.inj h ▸ .serverWrite hserving
  | serverEnds =>
    obtain ⟨hup, h⟩ := Option.ite_none_right_eq_some.mp h
    exact Option.some.inj h ▸ .serverEnds hup
  | parentRead =>
    obtain ⟨⟨parent, pfd⟩, hread, rfl⟩ := Option.map_eq_some_iff.mp h
    exact .parentRead hread

/-- What a step does to the bytes that are typed: they go on, one place further. -/
inductive Moved (s s' : Session) : Prop
  | rest (hchild : s.child = .ended → s'.child = .ended) (hstdin : s'.stdin = s.stdin)
      (hunder : s'.underWay = s.underWay) (hechoed : s'.echoed = s.echoed)
  | send (bytes : List Char) (hchild : s.child = .running) (hstdin : s.stdin = bytes ++ s'.stdin)
      (hunder : s'.underWay = s.underWay ++ bytes) (hechoed : s'.echoed = s.echoed)
  | receive (bytes : List Char) (hchild : s.child = .running) (hstdin : s'.stdin = s.stdin)
      (hunder : s.underWay = bytes ++ s'.underWay) (hechoed : s'.echoed = s.echoed ++ bytes)


theorem moved_of_step (h : s.step e = some s') : Moved s s' := by
  cases effect_of_step h with
  | connect hup hchild hbuf => exact .rest (by simp [hchild]) rfl rfl rfl
  | refused hchild => exact .rest (fun _ => rfl) (by simp) (by simp) (by simp)
  | @childSocket buf bytes toClient hchild hbuf hread =>
    refine .receive bytes hchild (by simp) ?_ (by simp)
    rw [tell_underWay, underWay, underWay, hread, List.append_assoc, List.append_assoc, List.append_assoc]
  | childSocketEnd hchild hclosed hbuf => exact .rest (fun _ => rfl) (by simp) (by simp; rfl) (by simp)
  | @childStdin n hchild =>
    refine .send (s.stdin.take n) hchild (List.take_append_drop n s.stdin).symm ?_ rfl
    rw [underWay, underWay, Pipe.write_unread, ← List.append_assoc]
  | childStdinEnd hchild => exact .rest (fun _ => rfl) (by simp) (by simp) (by simp)
  | childDies hchild => exact .rest (fun _ => rfl) rfl rfl rfl
  | serverRead hserving hheld hread =>
    refine .rest id rfl ?_ rfl
    rw [underWay, underWay, hheld, hread, List.append_nil, List.append_assoc]
  | serverReadEnd hheld hended => exact .rest id rfl rfl rfl
  | serverWrite hserving =>
    refine .rest id rfl ?_ rfl
    rw [underWay, underWay, Pipe.write_unread, List.append_assoc s.toClient.unread, List.take_append_drop]
  | serverEnds hup => exact .rest id rfl rfl rfl
  | parentRead hread => exact .rest id rfl rfl rfl

/-! ## Text by text -/

/-- What the client passes on ends with the `nul` that was behind it in the array. -/
theorem take_received {a b : List.Vector Char MAXLINE} {bytes : List Char} (ha : Padded nul a)
    (hb : clearString nul a = some b) (hn : bytes.length + 1 ≤ MAXLINE) :
    (received b bytes).toList.take (bytes.length + 1) = bytes ++ [nul] := by
  have hroom : bytes.length ≤ MAXLINE := by omega
  rw [received, List.Vector.toList_mk, ha.clearString hb, List.take_of_length_le hroom, List.drop_replicate,
    List.take_length_add_append, List.take_replicate, Nat.min_eq_left (by omega), List.replicate_one]

theorem zero_roomy : Padded nul (List.Vector.replicate MAXLINE nul) ∧
    nul ∈ (List.Vector.replicate MAXLINE nul).toList := by
  have hzero : (List.Vector.replicate MAXLINE nul).toList = List.replicate MAXLINE nul := rfl
  exact ⟨padded_replicate hzero, hzero ▸ List.mem_replicate.mpr ⟨by decide, rfl⟩⟩

/-- The client is in its loop, with nothing under way, and this is what the parent has not read. -/
structure Ready (rest unread : List Char) (s : Session) : Prop where
  up : s.up = true
  child : s.child = .running
  serving : s.serving = true
  stdin : s.stdin = rest
  toServer : s.toServer = {}
  held : s.held = []
  toClient : s.toClient = {}
  pfd : s.pfd = { unread }
  parent : s.parent.phase = .reading
  buf : Padded nul s.buf ∧ load s.buf (MAXLINE - 1) = some nul
  serverBuf : Padded nul s.serverBuf ∧ load s.serverBuf (MAXLINE - 1) = some nul

/-- What was read without a `nul`, and is shorter than the array, ends in the array. -/
theorem roomy_received {a : List.Vector Char MAXLINE} {m : List Char} (hm : nul ∉ m) (hlen : m.length < MAXLINE)
    (ha : Padded nul a ∧ load a (MAXLINE - 1) = some nul) :
    Padded nul (received a m) ∧ load (received a m) (MAXLINE - 1) = some nul :=
  ⟨ha.1.received hm, (load_received_of_le (by omega)).trans ha.2⟩

theorem nul_mem_of_load {a : List.Vector Char MAXLINE} {i : Nat} (h : load a i = some nul) : nul ∈ a.toList :=
  List.mem_of_getElem? h

theorem roomy_cleared {a : List.Vector Char MAXLINE} (ha : Padded nul a ∧ load a (MAXLINE - 1) = some nul) :
    ∃ b, clearString nul a = some b ∧ Padded nul b ∧ load b (MAXLINE - 1) = some nul := by
  obtain ⟨b, hb⟩ : ∃ b, clearString nul a = some b := ⟨_, if_pos (nul_mem_of_load ha.2)⟩
  have hzero := ha.1.clearString hb
  refine ⟨b, hb, padded_replicate hzero, ?_⟩
  rw [load, hzero, List.getElem?_replicate, if_pos (by decide)]

/-- The way of a text that is typed, up to the pipe. -/
def roundTrip (n : Nat) : List Event := [.childStdin n, .serverRead n, .serverWrite n, .childSocket n]

theorem read_all {m : List Char} (hne : m ≠ []) :
    ({ unread := m } : Pipe Char).read m.length = some (m, {}) := by
  rw [Pipe.read, if_pos ⟨List.length_pos_of_ne_nil hne, le_rfl⟩, List.take_length, List.drop_length]

theorem Ready.childStdin {m rest : List Char} (h : Ready (m ++ rest) [] s) (hne : m ≠ [])
    (hlen : m.length ≤ MAXLINE) : s.step (.childStdin m.length) =
      some { s with stdin := rest, buf := received s.buf m, toServer := { unread := m } } := by
  have hpos := List.length_pos_of_ne_nil hne
  rw [step, if_pos ⟨h.child, hlen, hpos, by rw [h.stdin, List.length_append]; omega⟩, h.stdin, List.take_left,
    List.drop_left, h.toServer]
  rfl

theorem Ready.roundTrip (mem : Memory) (text : List Char) {m rest : List Char} (h : Ready (m ++ rest) [] s)
    (hne : m ≠ []) (hm : nul ∉ m) (hlen : m.length < MAXLINE) :
    ∃ t, (sessionMachine mem text).exec s (roundTrip m.length) = some t ∧ Ready rest (m ++ [nul]) t := by
  have hpos := List.length_pos_of_ne_nil hne
  have hbuf := roomy_received hm hlen h.buf
  obtain ⟨zeroes, hclear, hzeroes⟩ := roomy_cleared hbuf
  obtain ⟨zeroes', hclear', hzeroes'⟩ := roomy_cleared h.serverBuf
  have hback := roomy_received hm hlen hzeroes
  have hthere := roomy_received hm hlen hzeroes'
  let s₁ : Session := { s with stdin := rest, buf := received s.buf m, toServer := { unread := m } }
  let s₂ : Session := { s₁ with serverBuf := received zeroes' m, toServer := {}, held := m }
  let s₃ : Session := { s₂ with held := [], toClient := { unread := m } }
  let s₄ : Session := { s₃ with
    buf := received zeroes m, toClient := {}, echoed := s.echoed ++ m, pfd := { unread := m ++ [nul] } }
  have h₁ : s.step (.childStdin m.length) = some s₁ := h.childStdin hne hlen.le
  have h₂ : s₁.step (.serverRead m.length) = some s₂ := by
    rw [step, if_pos ⟨h.serving, h.held, hlen.le⟩]
    simp only [s₁, hclear', read_all hne, Option.bind_some, if_pos (nul_mem_of_load hthere.2)]
    rfl
  have h₃ : s₂.step (.serverWrite m.length) = some s₃ := by
    rw [step, if_pos ⟨h.serving, hpos, le_rfl⟩]
    simp only [s₂, s₁, s₃, h.toClient, List.take_length, List.drop_length]
    rfl
  have h₄ : s₃.step (.childSocket m.length) = some s₄ := by
    rw [step, if_pos ⟨h.child, hlen.le⟩]
    simp only [s₃, s₂, s₁, hclear, read_all hne, Option.bind_some, take_received hbuf.1 hclear hlen]
    rw [if_pos ⟨hlen, nul_mem_of_load hback.2⟩, tell, if_neg (by simp [h.parent])]
    simp only [h.pfd, s₄, s₃, s₂, s₁]
    rfl
  refine ⟨s₄, ?_, ?_⟩
  · exact Machine.exec_cons_iff.mpr ⟨s₁, h₁, Machine.exec_cons_iff.mpr ⟨s₂, h₂,
      Machine.exec_cons_iff.mpr ⟨s₃, h₃, Machine.exec_cons_iff.mpr ⟨s₄, h₄, rfl⟩⟩⟩⟩
  · exact ⟨h.up, h.child, h.serving, rfl, rfl, rfl, rfl, rfl, h.parent, hback, hthere⟩

/-- What the parent makes of a text that has made its way. -/
theorem Ready.parentRead {m rest : List Char} (h : Ready rest (m ++ [nul]) s) (hm : nul ∉ m)
    (hlen : m.length < MAXLINE) :
    ∃ t, s.step .parentRead = some t ∧ t.up = true ∧ (m = termInfo → t.parent.phase = .exited) ∧
      (m ≠ termInfo → m ≠ termInfo4 → Ready rest [] t) := by
  obtain ⟨q, hread, hexited, hreading⟩ := Parent.read_message false h.parent hm hlen
  refine ⟨{ s with parent := q, pfd := {} }, by rw [step, h.pfd, hread, Option.map_some], h.up, hexited, ?_⟩
  intro hcrash hconnect
  exact ⟨h.up, h.child, h.serving, h.stdin, h.toServer, h.held, h.toClient, rfl, (hreading hcrash hconnect).1,
    h.buf, h.serverBuf⟩

/-- An array with a string and nothing behind it ends with a `nul`. -/
theorem roomy_of_mem {a : List.Vector Char MAXLINE} (ha : Padded nul a) (hmem : nul ∈ a.toList) :
    Padded nul a ∧ load a (MAXLINE - 1) = some nul := by
  refine ⟨ha, ?_⟩
  obtain ⟨t, ht, ha⟩ := ha
  have hlen := congrArg List.length ha
  rw [a.toList_length, List.length_append, List.length_replicate] at hlen
  have hpos : 0 < MAXLINE - t.length := by
    by_contra hzero
    rw [Nat.eq_zero_of_not_pos hzero, List.replicate_zero, List.append_nil] at ha
    exact ht (ha ▸ hmem)
  rw [load, ha, List.getElem?_append_right (by omega), List.getElem?_replicate, if_pos (by omega)]

theorem ready_connect (text : List Char) (hpad : Padded nul mem.child ∧ nul ∈ mem.child.toList)
    (hpad' : Padded nul mem.server ∧ nul ∈ mem.server.toList) :
    ∃ s, (start mem text).step .connect = some s ∧ Ready text [] s := by
  obtain ⟨zeroes, hclear, hzeroes⟩ := roomy_cleared (roomy_of_mem hpad.1 hpad.2)
  refine ⟨{ start mem text with child := .running, buf := zeroes, serving := true }, ?_, ?_⟩
  · rw [step, if_pos ⟨rfl, rfl⟩]
    simp only [start, hclear, Option.map_some]
  · exact ⟨rfl, rfl, rfl, rfl, rfl, rfl, rfl, rfl, rfl, hzeroes, roomy_of_mem hpad'.1 hpad'.2⟩

theorem Ready.next {m rest : List Char} (hs : (sessionMachine mem text).Reachable s) (h : Ready (m ++ rest) [] s)
    (hne : m ≠ []) (hm : nul ∉ m) (hlen : m.length < MAXLINE) :
    ∃ t, (sessionMachine mem text).Reachable t ∧ t.up = true ∧ (m = termInfo → t.parent.phase = .exited) ∧
      (m ≠ termInfo → m ≠ termInfo4 → Ready rest [] t) := by
  obtain ⟨es, hes⟩ := hs
  obtain ⟨t, hexec, ht⟩ := h.roundTrip mem text hne hm hlen
  obtain ⟨u, hstep, hu⟩ := ht.parentRead hm hlen
  have hreach : (sessionMachine mem text).Reachable t := ⟨_, Machine.exec_append.mpr ⟨s, hes, hexec⟩⟩
  exact ⟨u, reachable_step hreach hstep, hu⟩

/-! ## What is echoed -/

/-- **No byte is lost on the way, doubled or overtaken.** -/
theorem conserved (h : (sessionMachine mem text).Reachable s) : s.echoed ++ s.underWay ++ s.stdin = text := by
  refine h.invariant (I := fun s => s.echoed ++ s.underWay ++ s.stdin = text) (by rfl) ?_
  intro s e s' hs hstep
  rcases moved_of_step hstep with
    ⟨-, hstdin, hunder, hechoed⟩ | ⟨bytes, -, hstdin, hunder, hechoed⟩ | ⟨bytes, -, hstdin, hunder, hechoed⟩
  · rw [hstdin, hunder, hechoed, hs]
  · rw [← hs, hunder, hechoed, hstdin, List.append_assoc, List.append_assoc, List.append_assoc]
  · rw [← hs, hechoed, hstdin, hunder, List.append_assoc s.echoed]

/-- A client that has ended reads nothing more. -/
theorem echoed_of_ended {es : List Event} (hs : s.child = .ended)
    (hr : (sessionMachine mem text).exec s es = some r) : r.echoed = s.echoed := by
  refine (Machine.exec_invariant (I := fun m => m.child = .ended ∧ m.echoed = s.echoed) ?_ ⟨hs, rfl⟩ hr).2
  intro m e m' hm hstep
  rcases moved_of_step hstep with ⟨hchild, -, -, hechoed⟩ | ⟨-, hchild, -⟩ | ⟨-, hchild, -⟩
  · exact ⟨hchild hm.1, hechoed.trans hm.2⟩
  · exact absurd (hm.1.symm.trans hchild) (by decide)
  · exact absurd (hm.1.symm.trans hchild) (by decide)

/-- **What is echoed.** In every run the client reads back a first part of what is typed; and where it
finds the end of the typing, it has or will have read back all of it exactly when nothing is on its
way at that moment. -/
theorem echoed_eq_iff (h : (sessionMachine mem text).Reachable s) :
    s.echoed <+: text ∧ ∀ es s' r, s.step .childStdinEnd = some s' →
      (sessionMachine mem text).exec s' es = some r → (r.echoed = text ↔ s.underWay = []) := by
  have hall := conserved h
  refine ⟨⟨s.underWay ++ s.stdin, by rw [← hall, List.append_assoc]⟩, ?_⟩
  intro es s' r hs hr
  obtain ⟨⟨-, hstdin⟩, heq⟩ := Option.ite_none_right_eq_some.mp hs
  have hended : s'.child = .ended := by rw [← Option.some.inj heq, childEnds_child]
  have hechoed : r.echoed = s.echoed := by
    rw [echoed_of_ended hended hr, ← Option.some.inj heq, childEnds_echoed, tell_echoed]
  rw [hstdin, List.append_nil] at hall
  rw [hechoed, ← hall, List.self_eq_append_right]

theorem echoed_eq_iff_lost : ∃ s s' : Session, s.step .childStdinEnd = some s' ∧ ∀ es r,
    (sessionMachine .zero ['a']).exec s' es = some r → r.echoed ≠ ['a'] := by
  obtain ⟨s, hconnect, hready⟩ := @ready_connect .zero ['a'] zero_roomy zero_roomy
  have hs : (sessionMachine .zero ['a']).Reachable s := reachable_step .start hconnect
  have hsent := @Ready.childStdin s ['a'] [] hready (List.cons_ne_nil _ _) (by decide)
  have hreach := reachable_step hs hsent
  refine ⟨{ s with stdin := [], buf := received s.buf ['a'], toServer := { unread := ['a'] } }, _,
    if_pos ⟨hready.child, rfl⟩, ?_⟩
  intro es r hr hall
  have hnone := ((echoed_eq_iff hreach).2 es _ r (if_pos ⟨hready.child, rfl⟩) hr).mp hall
  rw [underWay] at hnone
  simp at hnone

end Session

end Sockets.Tcp
