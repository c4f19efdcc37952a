/-
The notices. For every file that is uploaded or deleted the thread of the
client starts a thread of its own, which sends one line to all the clients
that are connected, under the lock of `MulticastUtil`; clients connect under
the same lock, and are never removed.

So all the clients print the notices in one order, each from where it
connected, without a gap; every command that has a notice is told of once;
and whatever has happened, all of it can still be told (`notices_right`). The
order is that of the lock, not that of the commands.

A command is served on the directory that its thread finds: what other threads
do to the files meanwhile is not followed here, and nor is it that an
exception ends a thread for good. The write of a line to a client never
blocks: that a client which does not read fills its socket, and holds up the
thread that has the lock, is left out. A notice is a line; that a name with a
line break in it would make two is not modelled.
-/
import Sockets.Lib.Broadcast
import Sockets.Ftp.Commands

namespace Sockets.Ftp

/-- What each `DataServerThread` may read, the streams of `MulticastUtil` with the threads that have notices,
and what the commands did, in order. -/
structure NoticeServer (σ : Type) where
  requests : List (List UInt8) := []
  streams : Broadcasts JString := {}
  outcomes : List (Server.Outcome σ) := []

inductive NoticeEvent (σ : Type)
  /-- both sockets of a client are accepted, and its thread is started -/
  | connect
  /-- bytes arrive for the thread of client `n` -/
  | arrive (n : Nat) (bytes : List UInt8)
  /-- the thread of client `n` serves a command -/
  | serve (n : Nat) (dataFile : σ)
  /-- a thread that has a notice -/
  | acquire (i : Nat)
  | write
  | release
  /-- client `j` prints a line -/
  | print (j : Nat)

variable {σ : Type} (fs : FileSystem σ)

/-- The thread of a notice, if there is one, is started. -/
def startNotice (streams : Broadcasts JString) : Option JString → Option (Broadcasts JString)
  | some msg => streams.step (.start msg)
  | none => some streams

def NoticeServer.step (s : NoticeServer σ) : NoticeEvent σ → Option (NoticeServer σ)
  | .connect => (s.streams.step .register).map fun streams => { s with streams, requests := s.requests ++ [[]] }
  | .arrive n bytes =>
    (s.requests[n]?).map fun arrived => { s with requests := s.requests.set n (arrived ++ bytes) }
  | .serve n dataFile => do
    let arrived ← s.requests[n]?
    let (outcome, rest) ← Server.run fs dataFile arrived
    let streams ← startNotice s.streams outcome.notice
    some { requests := s.requests.set n rest, streams, outcomes := s.outcomes ++ [outcome] }
  | .acquire i => (s.streams.step (.acquire i)).map fun streams => { s with streams }
  | .write => (s.streams.step .write).map fun streams => { s with streams }
  | .release => (s.streams.step .release).map fun streams => { s with streams }
  | .print j => (s.streams.step (.read j)).map fun streams => { s with streams }

def noticeMachine : Machine (NoticeServer σ) (NoticeEvent σ) where
  init := {}
  step := NoticeServer.step fs

/-- The notices that the commands so far have. -/
def NoticeServer.notices (s : NoticeServer σ) : List JString := s.outcomes.filterMap (·.notice)

/-- What a client has printed. -/
def Listener.printed (l : Listener JString) : List JString := l.written.take l.read

/-- What the threads do that have a notice. -/
def NoticeEvent.OfThread : NoticeEvent σ → Prop
  | .acquire _ | .write | .release => True
  | .connect | .arrive .. | .serve .. | .print _ => False

/-- Every client prints the notices in one order, from where it connected; the notices of the commands are those
that have a place in it and those that wait for one; and without another command the threads that are there can
go on to send all of them, to each client all that come after it connected. -/
structure NoticesRight (s : NoticeServer σ) : Prop where
  order : ∀ l ∈ s.streams.listeners, Listener.printed l <+: s.streams.order.drop l.since
  once : s.notices.Perm (s.streams.order ++ s.streams.waiting)
  all : ∃ es s', (∀ e ∈ es, NoticeEvent.OfThread e) ∧ (noticeMachine fs).exec s es = some s' ∧
    s.streams.order <+: s'.streams.order ∧ s.notices.Perm s'.streams.order ∧
    s'.streams.listeners.map (·.since) = s.streams.listeners.map (·.since) ∧
    ∀ l ∈ s'.streams.listeners, l.written = s'.streams.order.drop l.since

/-! ## Over the broadcasts -/

variable {fs} {s s' : NoticeServer σ}

/-- The streams are coherent, and what was started is what the commands have. -/
structure NoticesInv (s : NoticeServer σ) : Prop where
  coherent : s.streams.Coherent
  started : s.streams.started = s.notices

theorem NoticesInv.same (h : NoticesInv s) {e : BroadcastEvent JString} {streams : Broadcasts JString}
    (hs : s.streams.step e = some streams) (he : streams.started = s.streams.started)
    (requests : List (List UInt8)) : NoticesInv { s with streams, requests } :=
  ⟨h.coherent.step hs, he.trans h.started⟩

theorem NoticesInv.step (h : NoticesInv s) {e : NoticeEvent σ} (hs : s.step fs e = some s') :
    NoticesInv s' := by
  cases e with
  | connect =>
    obtain ⟨streams, hstep, rfl⟩ := Option.map_eq_some_iff.mp hs
    cases Broadcasts.effect_of_step hstep
    exact h.same hstep rfl _
  | arrive n bytes =>
    obtain ⟨arrived, -, rfl⟩ := Option.map_eq_some_iff.mp hs
    exact ⟨h.coherent, h.started⟩
  | serve n dataFile =>
    simp only [NoticeServer.step, Option.bind_eq_bind, Option.bind_eq_some_iff, Option.some.injEq] at hs
    obtain ⟨arrived, -, ⟨outcome, rest⟩, -, streams, hnotice, rfl⟩ := hs
    cases houtcome : outcome.notice with
    | none =>
      rw [houtcome] at hnotice
      obtain rfl := Option.some.inj hnotice
      refine ⟨h.coherent, ?_⟩
      show _ = (s.outcomes ++ [outcome]).filterMap (·.notice)
      rw [List.filterMap_append, List.filterMap_cons_none houtcome, List.filterMap_nil, List.append_nil]
      exact h.started
    | some msg =>
      rw [houtcome] at hnotice
      have hnotice : s.streams.step (.start msg) = some streams := hnotice
      refine ⟨h.coherent.step hnotice, ?_⟩
      show _ = (s.outcomes ++ [outcome]).filterMap (·.notice)
      rw [List.filterMap_append, List.filterMap_cons_some houtcome, List.filterMap_nil]
      cases Broadcasts.effect_of_step hnotice
      exact congrArg (· ++ [msg]) h.started
  | acquire i =>
    obtain ⟨streams, hstep, rfl⟩ := Option.map_eq_some_iff.mp hs
    cases Broadcasts.effect_of_step hstep
    exact h.same hstep rfl _
  | write =>
    obtain ⟨streams, hstep, rfl⟩ := Option.map_eq_some_iff.mp hs
    cases Broadcasts.effect_of_step hstep
    exact h.same hstep rfl _
  | release =>
    obtain ⟨streams, hstep, rfl⟩ := Option.map_eq_some_iff.mp hs
    cases Broadcasts.effect_of_step hstep
    exact h.same hstep rfl _
  | print j =>
    obtain ⟨streams, hstep, rfl⟩ := Option.map_eq_some_iff.mp hs
    cases Broadcasts.effect_of_step hstep
    exact h.same hstep rfl _

theorem noticesInv_of_reachable (h : (noticeMachine fs).Reachable s) : NoticesInv s :=
  h.invariant ⟨Broadcasts.coherent_start, rfl⟩ fun _ _ _ hs hstep => hs.step hstep

variable (fs) in
/-- What a thread does with the streams, it does in the server. -/
theorem exists_lift {es : List (BroadcastEvent JString)} {streams : Broadcasts JString}
    (hsends : ∀ e ∈ es, Broadcasts.Sends e) (hexec : (broadcastMachine JString).exec s.streams es = some streams) :
    ∃ ds, (∀ e ∈ ds, NoticeEvent.OfThread e) ∧
      (noticeMachine fs).exec s ds = some { s with streams } := by
  induction es generalizing s with
  | nil =>
    obtain rfl := Option.some.inj hexec
    exact ⟨[], fun _ he => absurd he List.not_mem_nil, rfl⟩
  | cons e es ih =>
    rw [List.forall_mem_cons] at hsends
    obtain ⟨next, hstep, hexec⟩ := Machine.exec_cons_iff.mp hexec
    have hstep : s.streams.step e = some next := hstep
    obtain ⟨ds, hds, hrun⟩ := ih (s := { s with streams := next }) hsends.2 hexec
    obtain ⟨f, hf, hfstep⟩ : ∃ f : NoticeEvent σ, f.OfThread ∧ s.step fs f = some { s with streams := next } := by
      cases e with
      | acquire i => exact ⟨.acquire i, trivial, by rw [NoticeServer.step, hstep, Option.map_some]⟩
      | write => exact ⟨.write, trivial, by rw [NoticeServer.step, hstep, Option.map_some]⟩
      | release => exact ⟨.release, trivial, by rw [NoticeServer.step, hstep, Option.map_some]⟩
      | register | start | read => exact absurd hsends.1 id
    exact ⟨f :: ds, List.forall_mem_cons.mpr ⟨hf, hds⟩, Machine.exec_cons_iff.mpr ⟨_, hfstep, hrun⟩⟩

/-- **The notices.** They are right in every state that can be reached, whatever the clients send. -/
theorem notices_right (h : (noticeMachine fs).Reachable s) : NoticesRight fs s := by
  have hinv := noticesInv_of_reachable h
  refine ⟨fun l hl => hinv.coherent.read_prefix_order hl, ?_, ?_⟩
  · rw [← hinv.started]
    exact hinv.coherent.perm
  · obtain ⟨es, streams, hsends, hfree, hwaiting⟩ := Broadcasts.exists_settled s.streams
    obtain ⟨ds, hds, hexec⟩ := exists_lift fs hsends.sends hsends.exec
    have hcoherent : streams.Coherent := (broadcastMachine JString).exec_invariant (I := Broadcasts.Coherent)
      (fun _ _ _ hs hstep => hs.step hstep) hinv.coherent hsends.exec
    have horder : streams.order = streams.sent := by
      rw [Broadcasts.order, hfree]
      exact List.append_nil _
    refine ⟨ds, _, hds, hexec, hsends.order, ?_, hsends.since, ?_⟩
    · have hperm := hcoherent.perm
      rw [hwaiting, List.append_nil, hsends.started, hinv.started] at hperm
      exact hperm
    · intro l hl
      obtain ⟨j, hj⟩ := List.mem_iff_getElem?.mp hl
      have hwritten := hcoherent.written j l hj
      rw [Broadcasts.current_of_free hfree, List.append_nil] at hwritten
      show l.written = streams.order.drop l.since
      rw [horder, hwritten]

/-- A client deletes `a` and `b`. The second notice gets the lock first, while another client connects; it is
sent to the first client alone, which has printed it when the other notice is sent to both. -/
theorem notices_right_two : ∃ s : NoticeServer Directory,
    s.streams.listeners.map Listener.printed = [[jstring "File Deleted: b"], []] ∧
    s.streams.listeners.map (·.written) =
      [[jstring "File Deleted: b", jstring "File Deleted: a"], [jstring "File Deleted: a"]] ∧
    NoticesRight (directoryFiles fun _ => []) s := by
  obtain ⟨s, hs, htest⟩ := Machine.reachable_of_exec_any (M := noticeMachine (directoryFiles fun _ => []))
    [.connect, .arrive 0 (utf.enc (jstring "delete a") ++ utf.enc (jstring "delete b")),
      .serve 0 (fun _ => none), .serve 0 (fun _ => none), .acquire 1, .write, .release, .connect, .print 0,
      .acquire 0, .write, .write, .release]
    (fun s => s.streams.listeners.map Listener.printed = [[jstring "File Deleted: b"], []] ∧
      s.streams.listeners.map (·.written) =
        [[jstring "File Deleted: b", jstring "File Deleted: a"], [jstring "File Deleted: a"]]) (by decide +kernel)
  obtain ⟨hprinted, hwritten⟩ := of_decide_eq_true htest
  exact ⟨s, hprinted, hwritten, notices_right hs⟩

end Sockets.Ftp
