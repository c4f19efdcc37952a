/-
A client and the server with a stream of bytes in each direction. The client
goes on to its next command when it has written the last one, except that
for a download it waits for the file; so any number of requests may be under
way, and the bytes of each arrive in pieces.

All the same, as long as every file can be made that the commands make, every
run does what the commands would do to the two directories one after another
(`execAll`): the server takes each request for what it is, and each download
reads the bytes of its file and leaves none (`staysInStep_of_ready`). The
invariant splits the commands into those that the server has done, those in the
stream to it, and those still to be typed; and at most one file is owed, the one
the client waits for.
-/
import Sockets.Lib.Machine
import Sockets.Ftp.Commands

namespace Sockets.Ftp

/-- One direction of the socket: what the reader may read, and what is still on the way. -/
structure Stream where
  arrived : List UInt8 := []
  inFlight : List UInt8 := []

def Stream.write (s : Stream) (bytes : List UInt8) : Stream := { s with inFlight := s.inFlight ++ bytes }

/-- The next `n` bytes arrive. -/
def Stream.deliver (s : Stream) (n : Nat) : Option Stream :=
  if 0 < n ∧ n ≤ s.inFlight.length then
    some { arrived := s.arrived ++ s.inFlight.take n, inFlight := s.inFlight.drop n }
  else none

def Stream.unread (s : Stream) : List UInt8 := s.arrived ++ s.inFlight

/-- Both programs, with the lines still to be typed, what the server took the requests for, and
what the client read for its downloads. -/
structure Session (σ τ : Type) where
  todo : List JString
  waits : Option JString := none
  dataFile : σ
  toServer : Stream := {}
  toClient : Stream := {}
  serverDataFile : τ
  served : List Served := []
  got : List (List UInt8) := []

inductive SessionEvent
  | type
  | serve
  | receive
  | deliverToServer (n : Nat)
  | deliverToClient (n : Nat)

variable {σ τ : Type} (sys : Systems σ τ)

def Session.step (s : Session σ τ) : SessionEvent → Option (Session σ τ)
  | .type =>
    match s.waits, s.todo with
    | none, request :: todo =>
      (Client.run sys.client s.dataFile request).map fun call =>
        { s with
          todo
          waits := call.waits
          dataFile := call.dataFile
          toServer := s.toServer.write call.written }
    | _, _ => none
  | .serve =>
    (Server.run sys.server s.serverDataFile s.toServer.arrived).map fun (outcome, arrived) =>
      { s with
        toServer := { s.toServer with arrived }
        toClient := s.toClient.write outcome.written
        serverDataFile := outcome.dataFile
        served := s.served ++ [outcome.served] }
  | .receive =>
    match s.waits with
    | none => none
    | some name =>
      (Client.readResponse s.toClient.arrived).map fun (buffer, arrived) =>
        { s with
          waits := none
          dataFile := sys.client.write s.dataFile name buffer
          toClient := { s.toClient with arrived }
          got := s.got ++ [buffer] }
  | .deliverToServer n => (s.toServer.deliver n).map fun toServer => { s with toServer }
  | .deliverToClient n => (s.toClient.deliver n).map fun toClient => { s with toClient }

def Session.start (d : Directories σ τ) (cmds : List Command) : Session σ τ :=
  { todo := cmds.map Command.request, dataFile := d.client, serverDataFile := d.server }

def sessionMachine (d : Directories σ τ) (cmds : List Command) : Machine (Session σ τ) SessionEvent where
  init := .start d cmds
  step := Session.step sys

/-- The contents of the downloads among the requests. -/
def downloads (served : List Served) : List (List UInt8) := served.flatMap Served.downloaded

/-- The server has taken the first requests for what they are; and a client that does not wait has
read what its downloads so far were for, and there is nothing more to read. -/
structure InStep (expected : List Served) (s : Session σ τ) : Prop where
  served : s.served <+: expected
  got : s.got <+: downloads expected
  idle : s.waits = none →
    s.got = downloads (expected.take (expected.length - s.todo.length)) ∧ s.toClient.unread = []

/-- All has been done that the commands are for, and there is nothing left to read. -/
structure Finished (expected : List Served) (final : Directories σ τ) (s : Session σ τ) : Prop where
  todo : s.todo = []
  waits : s.waits = none
  read : s.toServer.unread = [] ∧ s.toClient.unread = []
  served : s.served = expected
  got : s.got = downloads expected
  client : s.dataFile = final.client
  server : s.serverDataFile = final.server

/-- In every state that can be reached the two are in step, something can happen until all is
done, and no run goes on for ever. -/
structure StaysInStep (d : Directories σ τ) (cmds : List Command) (expected : List Served)
    (final : Directories σ τ) : Prop where
  inStep : ∀ s, (sessionMachine sys d cmds).Reachable s → InStep expected s
  next : ∀ s, (sessionMachine sys d cmds).Reachable s →
    Finished expected final s ∨ ∃ e s', s.step sys e = some s'
  ends : WellFounded fun s' s =>
    (sessionMachine sys d cmds).Reachable s ∧ ∃ e, s.step sys e = some s'

/-! ## Commands one after another -/

variable {sys} {d d' d'' : Directories σ τ} {c : Command} {cmds cmds' : List Command} {served : Served}
  {expected expected' : List Served}

theorem execAll_cons : execAll sys (c :: cmds) d = some (expected, d'') ↔
    ∃ served d' later, c.exec sys d = some (served, d') ∧ execAll sys cmds d' = some (later, d'') ∧
      expected = served :: later := by
  simp only [execAll, Option.bind_eq_some_iff, Option.map_eq_some_iff, Prod.mk.injEq, Prod.exists]
  constructor
  · intro h
    obtain ⟨served, d', hexec, later, last, hlater, rfl, rfl⟩ := h
    exact ⟨served, d', later, hexec, hlater, rfl⟩
  · intro h
    obtain ⟨served, d', later, hexec, hlater, rfl⟩ := h
    exact ⟨served, d', hexec, later, d'', hlater, rfl, rfl⟩

theorem execAll_append (h : execAll sys cmds d = some (expected, d'))
    (h' : execAll sys cmds' d' = some (expected', d'')) :
    execAll sys (cmds ++ cmds') d = some (expected ++ expected', d'') := by
  induction cmds generalizing d expected with
  | nil =>
    simp only [execAll, Option.some.injEq, Prod.mk.injEq] at h
    obtain ⟨rfl, rfl⟩ := h
    exact h'
  | cons c cmds ih =>
    obtain ⟨served, d₁, later, hexec, hlater, rfl⟩ := execAll_cons.mp h
    exact execAll_cons.mpr ⟨served, d₁, later ++ expected', hexec, ih hlater, rfl⟩

theorem execAll_singleton (h : c.exec sys d = some (served, d')) :
    execAll sys [c] d = some ([served], d') := execAll_cons.mpr ⟨served, d', [], h, rfl, rfl⟩

theorem length_execAll (h : execAll sys cmds d = some (expected, d')) :
    expected.length = cmds.length := by
  induction cmds generalizing d expected with
  | nil =>
    simp only [execAll, Option.some.injEq, Prod.mk.injEq] at h
    rw [← h.1, List.length_nil, List.length_nil]
  | cons c cmds ih =>
    obtain ⟨served, d₁, later, -, hlater, rfl⟩ := execAll_cons.mp h
    rw [List.length_cons, List.length_cons, ih hlater]

/-- Well-formed commands can be executed. -/
theorem EachInTurn.execAll_eq_some (h : EachInTurn sys (Command.Ready sys) cmds d) :
    ∃ expected d', execAll sys cmds d = some (expected, d') := by
  induction cmds generalizing d with
  | nil => exact ⟨[], d, rfl⟩
  | cons c cmds ih =>
    obtain ⟨hc, hcmds⟩ := h
    obtain ⟨served, d', hexec⟩ := hc.exec_eq_some
    obtain ⟨later, last, hlater⟩ := ih (hcmds served d' hexec)
    exact ⟨served :: later, last, execAll_cons.mpr ⟨served, d', later, hexec, hlater, rfl⟩⟩

theorem EachInTurn.later {P : Command → Directories σ τ → Prop} (h : EachInTurn sys P (cmds ++ cmds') d)
    (hexec : execAll sys cmds d = some (expected, d')) : EachInTurn sys P cmds' d' := by
  induction cmds generalizing d expected with
  | nil =>
    simp only [execAll, Option.some.injEq, Prod.mk.injEq] at hexec
    exact hexec.2 ▸ h
  | cons c cmds ih =>
    obtain ⟨served, d₁, later, hfirst, hlater, rfl⟩ := execAll_cons.mp hexec
    exact ih (h.2 served d₁ hfirst) hlater

@[simp] theorem downloads_nil : downloads [] = [] := rfl

@[simp] theorem downloads_cons (served : Served) (expected : List Served) :
    downloads (served :: expected) = served.downloaded ++ downloads expected := rfl

@[simp] theorem downloads_append (expected expected' : List Served) :
    downloads (expected ++ expected') = downloads expected ++ downloads expected' := List.flatMap_append

/-! ## The streams -/

@[simp] theorem Stream.unread_write (s : Stream) (bytes : List UInt8) :
    (s.write bytes).unread = s.unread ++ bytes := (List.append_assoc ..).symm

theorem Stream.deliver_eq_some {s s' : Stream} {n : Nat} (h : s.deliver n = some s') :
    s'.unread = s.unread ∧ s'.inFlight.length < s.inFlight.length := by
  simp only [Stream.deliver, Option.ite_none_right_eq_some, Option.some.injEq] at h
  obtain ⟨⟨hpos, hle⟩, rfl⟩ := h
  refine ⟨?_, by rw [List.length_drop]; omega⟩
  rw [Stream.unread, List.append_assoc, List.take_append_drop, Stream.unread]

/-- What is on the way can arrive. -/
theorem Stream.exists_deliver {s : Stream} (h : s.inFlight ≠ []) : ∃ n s', s.deliver n = some s' :=
  ⟨1, _, if_pos ⟨Nat.one_pos, List.length_pos_iff.mpr h⟩⟩

/-! ## The invariant -/

/-- How far a session is: the commands the server has done, those in the stream to it, which ask
for `asked`, and those to be typed; and the contents in the stream to the client. -/
structure Progress (sys : Systems σ τ) (d : Directories σ τ) (cmds : List Command) (s : Session σ τ)
    (done pending todo : List Command) (d₁ d₂ : Directories σ τ) (asked : List Served)
    (answered : List (List UInt8)) : Prop where
  cmds : cmds = done ++ (pending ++ todo)
  todo : s.todo = todo.map Command.request
  done : execAll sys done d = some (s.served, d₁)
  pending : execAll sys pending d₁ = some (asked, d₂)
  server : s.serverDataFile = d₁.server
  requests : s.toServer.unread = asked.flatMap Served.frame
  got : downloads s.served = s.got ++ answered
  responses : s.toClient.unread = answered.flatMap response.enc
  expects : Expects sys.client s.waits s.dataFile (answered ++ downloads asked) d₂.client

def SessionInv (sys : Systems σ τ) (d : Directories σ τ) (cmds : List Command) (s : Session σ τ) : Prop :=
  ∃ done pending todo d₁ d₂ asked answered, Progress sys d cmds s done pending todo d₁ d₂ asked answered

section Steps

variable {s s' : Session σ τ} {done pending todo : List Command} {d₁ d₂ : Directories σ τ} {asked : List Served}
  {answered : List (List UInt8)}

theorem Served.frame_pos (served : Served) : 0 < served.frame.length := by
  have hpos (s : JString) : 0 < (utf.enc s).length := Nat.succ_pos _
  cases served with
  | upload request name data =>
    simp only [Served.frame, List.length_append]
    have hrequest := hpos request
    omega
  | download request name data | delete request name | other request => exact hpos request

/-- What is typed is executed where the commands before it leave the directories. -/
theorem Progress.type (h : Progress sys d cmds s done pending todo d₁ d₂ asked answered)
    (hcmds : EachInTurn sys (Command.Ready sys) cmds d) (hs : s.step sys .type = some s') :
    SessionInv sys d cmds s' := by
  simp only [Session.step] at hs
  split at hs
  next request rest hwaits htodo =>
    obtain ⟨call, hcall, rfl⟩ := Option.map_eq_some_iff.mp hs
    obtain ⟨c, todo', rfl, rfl, rfl⟩ : ∃ c todo', todo = c :: todo' ∧ c.request = request ∧
        todo'.map Command.request = rest := by
      cases todo with
      | nil => simp [h.todo] at htodo
      | cons c todo' =>
        simp only [h.todo, List.map_cons, List.cons.injEq] at htodo
        exact ⟨c, todo', rfl, htodo.1, htodo.2⟩
    have hexpects := h.expects
    rw [hwaits] at hexpects
    obtain ⟨hnone, hclient⟩ := hexpects
    obtain ⟨hanswered, hasked⟩ := List.append_eq_nil_iff.mp hnone
    have hlater : EachInTurn sys (Command.Ready sys) (c :: todo') d₂ := (h.cmds ▸ hcmds).later h.done |>.later h.pending
    obtain ⟨served, d₃, hexec⟩ := hlater.1.exec_eq_some
    obtain ⟨call', hcall', hwritten, hwait⟩ := Client.run_request hlater.1 hexec
    rw [hclient, hcall, Option.some.injEq] at hcall'
    subst hcall'
    refine ⟨done, pending ++ [c], todo', d₁, d₃, asked ++ [served], answered, ?_⟩
    exact {
      cmds := by rw [h.cmds]; simp
      todo := rfl
      done := h.done
      pending := execAll_append h.pending (execAll_singleton hexec)
      server := h.server
      requests := by simp [h.requests, hwritten]
      got := h.got
      responses := h.responses
      expects := by simpa [hanswered, hasked] using hwait }
  next => cases hs

/-- The server reads the first of the requests, however much of it has come of the others. -/
theorem Progress.serve (h : Progress sys d cmds s done pending todo d₁ d₂ asked answered)
    (hcmds : EachInTurn sys (Command.Ready sys) cmds d) (hs : s.step sys .serve = some s') :
    SessionInv sys d cmds s' ∧ s'.toServer.unread.length < s.toServer.unread.length := by
  simp only [Session.step] at hs
  obtain ⟨⟨outcome, arrived⟩, hrun, rfl⟩ := Option.map_eq_some_iff.mp hs
  have hmore := Server.run_append hrun s.toServer.inFlight
  have hunread : s.toServer.arrived ++ s.toServer.inFlight = asked.flatMap Served.frame := h.requests
  rw [hunread, h.server] at hmore
  cases pending with
  | nil =>
    have hpending := h.pending
    simp only [execAll, Option.some.injEq, Prod.mk.injEq] at hpending
    obtain ⟨rfl, -⟩ := hpending
    cases hmore
  | cons c pending =>
    obtain ⟨served, d', later, hexec, hlater, rfl⟩ := execAll_cons.mp h.pending
    have hpending : EachInTurn sys (Command.Ready sys) (c :: (pending ++ todo)) d₁ := (h.cmds ▸ hcmds).later h.done
    obtain ⟨outcome', hframe, hserved, hserver, hwritten⟩ :=
      Server.run_frame hpending.1 hexec (later.flatMap Served.frame)
    rw [List.flatMap_cons, hframe, Option.some.injEq, Prod.mk.injEq] at hmore
    obtain ⟨rfl, hrest⟩ := hmore
    have hlength : s.toServer.unread.length =
        served.frame.length + (later.flatMap Served.frame).length := by
      rw [h.requests, List.flatMap_cons, List.length_append]
    constructor
    · refine ⟨done ++ [c], pending, todo, d', d₂, later, answered ++ served.downloaded, ?_⟩
      exact {
        cmds := by rw [h.cmds]; simp
        todo := h.todo
        done := hserved ▸ execAll_append h.done (execAll_singleton hexec)
        pending := hlater
        server := hserver
        requests := hrest.symm
        got := by simp [h.got, hserved]
        responses := by simp [h.responses, hwritten]
        expects := by simpa using h.expects }
    · have hpos := served.frame_pos
      rw [hlength]
      show (arrived ++ s.toServer.inFlight).length < _
      rw [← hrest]
      omega

theorem Progress.receive (h : Progress sys d cmds s done pending todo d₁ d₂ asked answered)
    (hs : s.step sys .receive = some s') : SessionInv sys d cmds s' := by
  simp only [Session.step] at hs
  split at hs
  · cases hs
  next name hwaits =>
    obtain ⟨⟨buffer, arrived⟩, hread, rfl⟩ := Option.map_eq_some_iff.mp hs
    have hexpects := h.expects
    rw [hwaits] at hexpects
    obtain ⟨data, howed, hvalid, hclient⟩ := hexpects
    have hunread : s.toClient.arrived ++ s.toClient.inFlight = answered.flatMap response.enc := h.responses
    cases answered with
    | nil =>
      obtain ⟨hnone, -⟩ := List.append_eq_nil_iff.mp hunread
      rw [hnone] at hread
      cases hread
    | cons first answered =>
      obtain ⟨rfl, hnone⟩ := List.cons.inj howed
      obtain ⟨rfl, hasked⟩ := List.append_eq_nil_iff.mp hnone
      have hone : s.toClient.arrived ++ s.toClient.inFlight = response.enc first ++ [] := by simpa using hunread
      obtain ⟨rfl, hrest⟩ := Codec.dec_of_append hvalid hread hone
      refine ⟨done, pending, todo, d₁, d₂, asked, [], ?_⟩
      exact {
        cmds := h.cmds
        todo := h.todo
        done := h.done
        pending := h.pending
        server := h.server
        requests := h.requests
        got := by simp [h.got]
        responses := hrest
        expects := ⟨by simpa using hasked, hclient⟩ }

/-- A piece of the stream arrives. -/
theorem Progress.deliver (h : Progress sys d cmds s done pending todo d₁ d₂ asked answered)
    {toServer toClient : Stream} (hserver : toServer.unread = s.toServer.unread)
    (hclient : toClient.unread = s.toClient.unread) :
    SessionInv sys d cmds { s with toServer, toClient } :=
  ⟨done, pending, todo, d₁, d₂, asked, answered,
    { h with requests := hserver ▸ h.requests, responses := hclient ▸ h.responses }⟩

/-- What a session has still to do; every event lowers it. -/
def Session.rank (s : Session σ τ) : Nat × Nat × Nat × Nat × Nat :=
  (s.todo.length, s.toServer.unread.length, s.toServer.inFlight.length, s.toClient.inFlight.length,
    if s.waits = none then 0 else 1)

abbrev RankLt : Nat × Nat × Nat × Nat × Nat → Nat × Nat × Nat × Nat × Nat → Prop :=
  Prod.Lex (· < ·) (Prod.Lex (· < ·) (Prod.Lex (· < ·) (Prod.Lex (· < ·) (· < ·))))

theorem SessionInv.step (h : SessionInv sys d cmds s) (hcmds : EachInTurn sys (Command.Ready sys) cmds d)
    {e : SessionEvent} (hs : s.step sys e = some s') :
    SessionInv sys d cmds s' ∧ RankLt s'.rank s.rank := by
  obtain ⟨done, pending, todo, d₁, d₂, asked, answered, h⟩ := h
  cases e with
  | type =>
    refine ⟨h.type hcmds hs, .left _ _ ?_⟩
    simp only [Session.step] at hs
    split at hs
    next request rest hwaits htodo =>
      obtain ⟨call, -, rfl⟩ := Option.map_eq_some_iff.mp hs
      simp [htodo]
    next => cases hs
  | serve =>
    obtain ⟨hinv, hlt⟩ := h.serve hcmds hs
    refine ⟨hinv, ?_⟩
    simp only [Session.step] at hs
    obtain ⟨⟨outcome, arrived⟩, -, rfl⟩ := Option.map_eq_some_iff.mp hs
    exact .right _ (.left _ _ hlt)
  | receive =>
    refine ⟨h.receive hs, ?_⟩
    simp only [Session.step] at hs
    split at hs
    · cases hs
    next name hwaits =>
      obtain ⟨⟨buffer, arrived⟩, -, rfl⟩ := Option.map_eq_some_iff.mp hs
      refine .right _ (.right _ (.right _ (.right _ ?_)))
      simp [hwaits]
  | deliverToServer n =>
    obtain ⟨toServer, hdeliver, rfl⟩ := Option.map_eq_some_iff.mp hs
    obtain ⟨hunread, hlt⟩ := Stream.deliver_eq_some hdeliver
    refine ⟨h.deliver hunread rfl, ?_⟩
    simp only [Session.rank, hunread]
    exact .right _ (.right _ (.left _ _ hlt))
  | deliverToClient n =>
    obtain ⟨toClient, hdeliver, rfl⟩ := Option.map_eq_some_iff.mp hs
    obtain ⟨hunread, hlt⟩ := Stream.deliver_eq_some hdeliver
    exact ⟨h.deliver rfl hunread, .right _ (.right _ (.right _ (.left _ _ hlt)))⟩

theorem SessionInv.start (sys : Systems σ τ) (d : Directories σ τ) (cmds : List Command) :
    SessionInv sys d cmds (Session.start d cmds) :=
  ⟨[], [], cmds, d, d, [], [], ⟨rfl, rfl, rfl, rfl, rfl, rfl, rfl, rfl, rfl, rfl⟩⟩

theorem sessionInv_of_reachable (hcmds : EachInTurn sys (Command.Ready sys) cmds d)
    (h : (sessionMachine sys d cmds).Reachable s) : SessionInv sys d cmds s :=
  h.invariant (SessionInv.start sys d cmds) fun _ _ _ hs hstep => (hs.step hcmds hstep).1

/-- There is something to do as long as not all is done. -/
theorem Progress.finished_or_next (h : Progress sys d cmds s done pending todo d₁ d₂ asked answered)
    (hcmds : EachInTurn sys (Command.Ready sys) cmds d) (hall : execAll sys cmds d = some (expected, d')) :
    Finished expected d' s ∨ ∃ e s', s.step sys e = some s' := by
  cases hserver : s.toServer.inFlight with
  | cons b l =>
    obtain ⟨n, toServer, hdeliver⟩ := Stream.exists_deliver (s := s.toServer) (by simp [hserver])
    exact .inr ⟨.deliverToServer n, _, by rw [Session.step, hdeliver, Option.map_some]⟩
  | nil =>
  cases hclient : s.toClient.inFlight with
  | cons b l =>
    obtain ⟨n, toClient, hdeliver⟩ := Stream.exists_deliver (s := s.toClient) (by simp [hclient])
    exact .inr ⟨.deliverToClient n, _, by rw [Session.step, hdeliver, Option.map_some]⟩
  | nil =>
  have hrequests := h.requests
  have hresponses := h.responses
  rw [Stream.unread, hserver, List.append_nil] at hrequests
  rw [Stream.unread, hclient, List.append_nil] at hresponses
  cases pending with
  | cons c pending =>
    obtain ⟨served, d₃, later, hexec, -, rfl⟩ := execAll_cons.mp h.pending
    have hpending : EachInTurn sys (Command.Ready sys) (c :: (pending ++ todo)) d₁ := (h.cmds ▸ hcmds).later h.done
    obtain ⟨outcome, hframe, -⟩ := Server.run_frame hpending.1 hexec (later.flatMap Served.frame)
    rw [List.flatMap_cons] at hrequests
    exact .inr ⟨.serve, _, by rw [Session.step, h.server, hrequests, hframe, Option.map_some]⟩
  | nil =>
  obtain ⟨rfl, rfl⟩ : [] = asked ∧ d₁ = d₂ := by simpa [execAll] using h.pending
  have hexpects := h.expects
  rw [downloads_nil, List.append_nil] at hexpects
  cases hwaits : s.waits with
  | some name =>
    rw [hwaits] at hexpects
    obtain ⟨data, rfl, hvalid, -⟩ := hexpects
    have hread : Client.readResponse s.toClient.arrived = some (data, []) := by
      rw [hresponses]
      exact response.dec_enc data [] hvalid
    exact .inr ⟨.receive, by simp [Session.step, hwaits, hread]⟩
  | none =>
  rw [hwaits] at hexpects
  obtain ⟨rfl, hdir⟩ := hexpects
  cases todo with
  | cons c todo =>
    have htodo : EachInTurn sys (Command.Ready sys) (c :: todo) d₁ := (h.cmds ▸ hcmds).later h.done
    obtain ⟨served, d₃, hexec⟩ := htodo.1.exec_eq_some
    obtain ⟨call, hcall, -⟩ := Client.run_request htodo.1 hexec
    rw [hdir] at hcall
    exact .inr ⟨.type, by simp [Session.step, hwaits, h.todo, hcall]⟩
  | nil =>
    have hcmds : cmds = done := by simpa using h.cmds
    rw [hcmds, h.done, Option.some.injEq, Prod.mk.injEq] at hall
    obtain ⟨rfl, rfl⟩ := hall
    exact .inl {
      todo := h.todo
      waits := hwaits
      read := ⟨h.requests, h.responses⟩
      served := rfl
      got := by simp [h.got]
      client := hdir.symm
      server := h.server }

theorem Progress.inStep (h : Progress sys d cmds s done pending todo d₁ d₂ asked answered)
    (hcmds : EachInTurn sys (Command.Ready sys) cmds d) (hall : execAll sys cmds d = some (expected, d')) :
    InStep expected s := by
  obtain ⟨later, last, hlater⟩ := ((h.cmds ▸ hcmds).later h.done |>.later h.pending).execAll_eq_some
  have hsplit := execAll_append h.done (execAll_append h.pending hlater)
  rw [← h.cmds, hall, Option.some.injEq, Prod.mk.injEq] at hsplit
  obtain ⟨rfl, -⟩ := hsplit
  refine ⟨List.prefix_append _ _, ?_, ?_⟩
  · rw [downloads_append, h.got, List.append_assoc]
    exact List.prefix_append _ _
  · intro hwaits
    have hexpects := h.expects
    rw [hwaits] at hexpects
    obtain ⟨hanswered, hasked⟩ := List.append_eq_nil_iff.mp hexpects.1
    have htyped : (s.served ++ (asked ++ later)).length - s.todo.length = (s.served ++ asked).length := by
      have htodo := length_execAll hlater
      have hlength := congrArg List.length h.todo
      rw [List.length_map] at hlength
      simp only [List.length_append]
      omega
    rw [htyped, ← List.append_assoc, List.take_left, downloads_append, hasked, h.got, h.responses, hanswered]
    simp

theorem wellFounded_rankLt : WellFounded RankLt :=
  WellFounded.prod_lex wellFounded_lt (WellFounded.prod_lex wellFounded_lt
    (WellFounded.prod_lex wellFounded_lt (WellFounded.prod_lex wellFounded_lt wellFounded_lt)))

/-- Where each command is well-formed when it is its turn, and its file can be made, the server takes every
request for what it is and every download reads its file and no more, whatever the order of events. -/
theorem staysInStep_of_ready (h : EachInTurn sys (Command.Ready sys) cmds d)
    (hall : execAll sys cmds d = some (expected, d')) : StaysInStep sys d cmds expected d' := by
  refine ⟨?_, ?_, ?_⟩
  · intro s hs
    obtain ⟨_, _, _, _, _, _, _, hprogress⟩ := sessionInv_of_reachable h hs
    exact hprogress.inStep h hall
  · intro s hs
    obtain ⟨_, _, _, _, _, _, _, hprogress⟩ := sessionInv_of_reachable h hs
    exact hprogress.finished_or_next h hall
  · refine Subrelation.wf ?_ (InvImage.wf Session.rank wellFounded_rankLt)
    intro s' s hstep
    obtain ⟨hs, e, hstep⟩ := hstep
    exact ((sessionInv_of_reachable h hs).step h hstep).2

end Steps

end Sockets.Ftp
