/-
What becomes of the framing where a file cannot be made. For a download the
client has written the request by then, and goes on to the next command
without its answer; for an upload the server ends its thread, and reads no
request any more.

So the two stay in step exactly where every file can be made that the commands
make (`framing_inStep_iff`). The first command whose file cannot be made
comes to its turn: a run of the commands in front of it ends, and it is a run
of all the commands (`reachable_later`).
-/
import Sockets.Ftp.Framing

namespace Sockets.Ftp

variable {σ τ : Type} {sys : Systems σ τ} {d d' d'' : Directories σ τ} {c : Command}
  {cmds pre post : List Command} {served : Served} {expected done : List Served}

/-! ## The first file that cannot be made -/

theorem EachInTurn.cons {P : Command → Directories σ τ → Prop} (hc : P c d)
    (hexec : c.exec sys d = some (served, d')) (hcmds : EachInTurn sys P cmds d') :
    EachInTurn sys P (c :: cmds) d := by
  refine ⟨hc, ?_⟩
  intro served' d'' hexec'
  rw [hexec, Option.some.injEq, Prod.mk.injEq] at hexec'
  exact hexec'.2 ▸ hcmds

/-- The commands are ready up to the first one whose file cannot be made. -/
theorem WellFormed.exists_first (h : WellFormed sys cmds d) (hnot : ¬ FilesCanBeMade sys cmds d) :
    ∃ pre c post done d', cmds = pre ++ c :: post ∧ EachInTurn sys (Command.Ready sys) pre d ∧
      execAll sys pre d = some (done, d') ∧ c.WellFormed sys d' ∧ ¬ c.CanMake sys d' := by
  induction cmds generalizing d with
  | nil => exact absurd trivial hnot
  | cons c cmds ih =>
    by_cases hmake : c.CanMake sys d
    · obtain ⟨served, d₁, hexec⟩ := h.1.exec_eq_some
      have hnot : ¬ FilesCanBeMade sys cmds d₁ := fun hlater => hnot (.cons hmake hexec hlater)
      obtain ⟨pre, c', post, done, d', rfl, hpre, hdone, hfirst⟩ := ih (h.2 served d₁ hexec) hnot
      exact ⟨c :: pre, c', post, served :: done, d', rfl, .cons ⟨h.1, hmake⟩ hexec hpre,
        execAll_cons.mpr ⟨served, d₁, done, hexec, hdone, rfl⟩, hfirst⟩
    · exact ⟨[], c, cmds, [], d, rfl, trivial, rfl, h.1, hmake⟩

theorem execAll_split (hall : execAll sys (pre ++ post) d = some (expected, d''))
    (hdone : execAll sys pre d = some (done, d')) :
    ∃ later, execAll sys post d' = some (later, d'') ∧ expected = done ++ later := by
  induction pre generalizing d expected done with
  | nil =>
    simp only [execAll, Option.some.injEq, Prod.mk.injEq] at hdone
    obtain ⟨rfl, rfl⟩ := hdone
    exact ⟨expected, hall, rfl⟩
  | cons c pre ih =>
    obtain ⟨served, d₁, rest, hexec, hrest, rfl⟩ := execAll_cons.mp hall
    obtain ⟨served', d₁', rest', hexec', hrest', rfl⟩ := execAll_cons.mp hdone
    obtain ⟨rfl, rfl⟩ := Prod.mk.inj (Option.some.inj (hexec.symm.trans hexec'))
    obtain ⟨later, hlater, rfl⟩ := ih hrest hrest'
    exact ⟨later, hlater, rfl⟩

/-! ## Up to the turn of a command -/

/-- The session with more lines to be typed. -/
def Session.later (s : Session σ τ) (more : List JString) : Session σ τ := { s with todo := s.todo ++ more }

theorem Session.step_later {s s' : Session σ τ} {e : SessionEvent} (more : List JString)
    (hs : s.step sys e = some s') : (s.later more).step sys e = some (s'.later more) := by
  cases e with
  | type =>
    simp only [Session.step] at hs
    split at hs
    next request todo hwaits htodo =>
      obtain ⟨call, hcall, rfl⟩ := Option.map_eq_some_iff.mp hs
      simp only [Session.later, Session.step, hwaits, htodo, List.cons_append, hcall, Option.map_some]
    next => cases hs
  | serve =>
    obtain ⟨⟨outcome, arrived⟩, hrun, rfl⟩ := Option.map_eq_some_iff.mp hs
    simp only [Session.later, Session.step, hrun, Option.map_some]
  | receive =>
    simp only [Session.step] at hs
    split at hs
    · cases hs
    next name hwaits =>
      obtain ⟨⟨buffer, arrived⟩, hread, rfl⟩ := Option.map_eq_some_iff.mp hs
      simp only [Session.later, Session.step, hwaits, hread, Option.map_some]
  | deliverToServer n | deliverToClient n =>
    obtain ⟨stream, hdeliver, rfl⟩ := Option.map_eq_some_iff.mp hs
    simp only [Session.later, Session.step, hdeliver, Option.map_some]

/-- All that comes before has been done, and the rest is still to be typed. -/
theorem reachable_later (hpre : EachInTurn sys (Command.Ready sys) pre d)
    (hdone : execAll sys pre d = some (done, d')) (post : List Command) :
    ∃ s, Finished done d' s ∧
      (sessionMachine sys d (pre ++ post)).Reachable (s.later (post.map Command.request)) := by
  have hstay := staysInStep_of_ready hpre hdone
  obtain ⟨es, s, hs, hfinished⟩ := Machine.Reachable.exists_end hstay.ends hstay.next .start
  refine ⟨s, hfinished, es, ?_⟩
  have hstart : (sessionMachine sys d (pre ++ post)).init =
      ((sessionMachine sys d pre).init.later (post.map Command.request)) := by
    simp [sessionMachine, Session.start, Session.later]
  rw [hstart]
  refine Machine.exec_map (f := fun s : Session σ τ => s.later (post.map Command.request)) ?_ hs
  exact fun _ _ _ hstep => Session.step_later _ hstep

/-- The next command is typed. -/
theorem Finished.type {s : Session σ τ} (h : Finished done d' s)
    (hs : (sessionMachine sys d cmds).Reachable (s.later ((c :: post).map Command.request)))
    {call : Client.Call σ} (hcall : Client.run sys.client d'.client c.request = some call) :
    (sessionMachine sys d cmds).Reachable { s with
      todo := post.map Command.request
      waits := call.waits
      dataFile := call.dataFile
      toServer := s.toServer.write call.written } := by
  refine hs.next (e := .type) ?_
  simp only [sessionMachine, Session.later, Session.step, h.waits, h.todo, List.nil_append, List.map_cons,
    h.client, hcall, Option.map_some]

theorem not_canStore {fs : FileSystem σ} {dataFile : σ} {name : JString} (h : ¬ CanStore fs dataFile name) :
    ∃ stored, getName (fs.listFiles dataFile) name = some stored ∧ fs.make dataFile stored = none := by
  simp only [CanStore, not_forall] at h
  obtain ⟨stored, hstored, hmake⟩ := h
  exact ⟨stored, hstored, Option.eq_none_iff_forall_ne_some.mpr fun made hmade => hmake ⟨made, hmade⟩⟩

/-! ## Downloads -/

/-- The client does not wait for the answer. -/
theorem not_staysInStep_download {name : JString} {s : Session σ τ} {later : List Served} {data : List UInt8}
    {final : Directories σ τ} (h : Finished done d' s)
    (hs : (sessionMachine sys d cmds).Reachable
      (s.later ((Command.download name :: post).map Command.request)))
    (hc : (Command.download name).WellFormed sys d') (hmake : ¬ (Command.download name).CanMake sys d')
    (hlater : later.length = post.length) (request : JString) :
    ¬ StaysInStep sys d cmds (done ++ .download request name data :: later) final := by
  intro hstay
  obtain ⟨stored, hstored, hmade⟩ := not_canStore hmake
  have hrun := Client.run_download hc hstored
  rw [hmade] at hrun
  have hread := ((hstay.inStep _ (h.type hs hrun)).idle rfl).1
  have htyped : (done ++ Served.download request name data :: later).length - (post.map Command.request).length =
      (done ++ [Served.download request name data]).length := by
    simp only [List.length_append, List.length_cons, List.length_map, List.length_nil]
    omega
  rw [htyped, List.append_cons done _ later, List.take_left, downloads_append, h.got] at hread
  exact absurd (List.self_eq_append_right.mp hread) (List.cons_ne_nil data [])

/-! ## Uploads -/

/-- The server has come to a request that it does not get past. -/
structure Blocked (sys : Systems σ τ) (dataFile : τ) (frame : List UInt8) (done : List Served)
    (s : Session σ τ) : Prop where
  server : s.serverDataFile = dataFile
  requests : ∃ more, s.toServer.unread = frame ++ more
  served : s.served = done

theorem Blocked.step {dataFile : τ} {frame : List UInt8} {s s' : Session σ τ}
    (h : Blocked sys dataFile frame done s) (hnone : ∀ more, Server.run sys.server dataFile (frame ++ more) = none)
    {e : SessionEvent} (hs : s.step sys e = some s') : Blocked sys dataFile frame done s' := by
  obtain ⟨more, hmore⟩ := h.requests
  cases e with
  | type =>
    simp only [Session.step] at hs
    split at hs
    next =>
      obtain ⟨call, -, rfl⟩ := Option.map_eq_some_iff.mp hs
      refine ⟨h.server, ⟨more ++ call.written, ?_⟩, h.served⟩
      rw [Stream.unread_write, hmore, List.append_assoc]
    next => cases hs
  | serve =>
    obtain ⟨⟨outcome, arrived⟩, hrun, rfl⟩ := Option.map_eq_some_iff.mp hs
    -- what it reads from the front of the stream it would read from all of it
    have hall := Server.run_append hrun s.toServer.inFlight
    have hunread : s.toServer.arrived ++ s.toServer.inFlight = frame ++ more := hmore
    rw [hunread, h.server, hnone more] at hall
    cases hall
  | receive =>
    simp only [Session.step] at hs
    split at hs
    · cases hs
    · obtain ⟨-, -, rfl⟩ := Option.map_eq_some_iff.mp hs
      exact ⟨h.server, ⟨more, hmore⟩, h.served⟩
  | deliverToServer n =>
    obtain ⟨toServer, hdeliver, rfl⟩ := Option.map_eq_some_iff.mp hs
    exact ⟨h.server, ⟨more, (Stream.deliver_eq_some hdeliver).1.trans hmore⟩, h.served⟩
  | deliverToClient n =>
    obtain ⟨-, -, rfl⟩ := Option.map_eq_some_iff.mp hs
    exact ⟨h.server, ⟨more, hmore⟩, h.served⟩

/-- The server serves nothing any more. -/
theorem not_staysInStep_upload {name : JString} {s : Session σ τ} {served : Served} {later : List Served}
    {final : Directories σ τ} (h : Finished done d' s)
    (hs : (sessionMachine sys d cmds).Reachable (s.later ((Command.upload name :: post).map Command.request)))
    (hc : (Command.upload name).WellFormed sys d') (hmake : ¬ (Command.upload name).CanMake sys d') :
    ¬ StaysInStep sys d cmds (done ++ served :: later) final := by
  intro hstay
  obtain ⟨stored, hstored, hmade⟩ := not_canStore hmake
  obtain ⟨data, client, hdata, hlength⟩ := hc.file
  have hnone (more : List UInt8) := Server.run_upload hc hlength hstored more
  simp only [hmade, Option.map_none] at hnone
  have hnext := h.type hs (Client.run_upload hc hdata hlength)
  obtain ⟨es, r, hr, hfinished⟩ := hnext.exists_end hstay.ends hstay.next
  have hblocked : Blocked sys d'.server
      (Served.upload (Command.upload name).request name data).frame done r := by
    refine Machine.exec_invariant (fun _ _ _ hb hstep => hb.step hnone hstep) ?_ hr
    refine ⟨h.server, ⟨[], ?_⟩, h.served⟩
    rw [Stream.unread_write, h.read.1, List.nil_append, List.append_nil]
  have hserved := hblocked.served.symm.trans hfinished.served
  exact absurd (List.self_eq_append_right.mp hserved) (List.cons_ne_nil served later)

/-! ## In step -/

theorem StaysInStep.filesCanBeMade {final : Directories σ τ} (hcmds : WellFormed sys cmds d)
    (hall : execAll sys cmds d = some (expected, final)) (hstay : StaysInStep sys d cmds expected final) :
    FilesCanBeMade sys cmds d := by
  by_contra hnot
  obtain ⟨pre, c, post, done, d', rfl, hpre, hdone, hc, hmake⟩ := hcmds.exists_first hnot
  obtain ⟨s, hfinished, hs⟩ := reachable_later hpre hdone (c :: post)
  obtain ⟨rest, hrest, rfl⟩ := execAll_split hall hdone
  obtain ⟨served, d₁, later, hexec, hlater, rfl⟩ := execAll_cons.mp hrest
  cases c with
  | upload name => exact not_staysInStep_upload hfinished hs hc hmake hstay
  | download name =>
    simp only [Command.exec, Option.bind_eq_some_iff, Option.map_eq_some_iff, Prod.mk.injEq] at hexec
    obtain ⟨⟨data, server⟩, -, stored, -, rfl, -⟩ := hexec
    exact not_staysInStep_download hfinished hs hc hmake (length_execAll hlater) _ hstay
  | delete name => exact hmake trivial

/-- **In step.** Where each command is well-formed when it is its turn, the server takes every request
for what it is and every download reads its file and no more, whatever the order of events, exactly
where every file can be made that the commands make. -/
theorem framing_inStep_iff (hcmds : WellFormed sys cmds d) :
    (∃ expected final, execAll sys cmds d = some (expected, final) ∧ StaysInStep sys d cmds expected final) ↔
      FilesCanBeMade sys cmds d := by
  constructor
  · intro h
    obtain ⟨expected, final, hall, hstay⟩ := h
    exact hstay.filesCanBeMade hcmds hall
  · intro hmake
    have h : EachInTurn sys (Command.Ready sys) cmds d := hcmds.ready hmake
    obtain ⟨expected, final, hall⟩ := h.execAll_eq_some
    exact ⟨expected, final, hall, staysInStep_of_ready h hall⟩

/-! ## Three commands -/

/-- Both sides have files of this name, or none. -/
def filesOf (name : JString) : Systems Directory Directory where
  client := directoryFiles fun dir => if (dir name).isSome then [name] else []
  server := directoryFiles fun dir => if (dir name).isSome then [name] else []

def textName : JString := jstring "a.txt"

/-- A client with one file, and a server with none. -/
def oneFile : Directories Directory Directory where
  client name := if name = textName then some [104, 105] else none
  server _ := none

/-- The file is uploaded, downloaded under another name, and deleted. -/
def textCommands : List Command := [.upload textName, .download textName, .delete textName]

theorem canStore_of_getName {fs : FileSystem σ} {dataFile made : σ} {name stored : JString}
    (hname : getName (fs.listFiles dataFile) name = some stored) (hmake : fs.make dataFile stored = some made) :
    CanStore fs dataFile name := by
  intro stored' hstored'
  obtain rfl : stored = stored' := Option.some.inj (hname.symm.trans hstored')
  exact ⟨made, hmake⟩

theorem framing_inStep_text : ∃ expected final,
    execAll (filesOf textName) textCommands oneFile = some (expected, final) ∧
      StaysInStep (filesOf textName) oneFile textCommands expected final := by
  have hplain : PlainName textName := by decide
  have hlength : utfLength textName ≤ 65000 := by decide
  refine (framing_inStep_iff ?_).mpr ?_
  · exact .cons ⟨hplain, hlength, [104, 105], _, rfl, by decide⟩ rfl
      (.cons ⟨hplain, hlength, [104, 105], _, rfl, by decide⟩ rfl (.cons ⟨hplain, hlength, trivial⟩ rfl trivial))
  · exact .cons (canStore_of_getName (show _ = some textName from rfl) rfl) rfl
      (.cons (canStore_of_getName (show _ = some (jstring "a[1].txt") from rfl) rfl) rfl (.cons trivial rfl trivial))

/-! ## A name that is too long -/

def longName : JString := List.replicate 250 (jchar 'a') ++ jstring ".txt"

def bothHave : Directories Directory Directory where
  client name := if name = longName then some [104, 105] else none
  server name := if name = longName then some [104, 105] else none

/-- The client has a file of the name it downloads, and cannot make one with a number in it. -/
theorem not_framing_inStep : WellFormed (filesOf longName) [.download longName] bothHave ∧
    ¬ ∃ expected final, execAll (filesOf longName) [.download longName] bothHave = some (expected, final) ∧
      StaysInStep (filesOf longName) bothHave [.download longName] expected final := by
  constructor
  · have hdata : bothHave.server longName = some [104, 105] := by
      simp only [bothHave, if_true]
    have hread : (filesOf longName).server.read bothHave.server longName =
        some ([104, 105], bothHave.server) := by
      simp only [filesOf, directoryFiles, hdata, Option.map_some]
    exact ⟨⟨by decide +kernel, by decide +kernel, [104, 105], _, hread, by decide⟩, fun _ _ _ => trivial⟩
  · intro hstays
    obtain ⟨expected, final, hall, hstay⟩ := hstays
    have hexpected : (execAll (filesOf longName) [.download longName] bothHave).map (fun p => downloads p.1) =
        some [[104, 105]] := by decide +kernel
    rw [hall, Option.map_some, Option.some.injEq] at hexpected
    obtain ⟨s, hs, htest⟩ :=
      Machine.reachable_of_exec_any (M := sessionMachine (filesOf longName) bothHave [.download longName])
        [.type] (fun s => s.waits.isNone && s.todo.isEmpty && s.got.isEmpty) (by decide +kernel)
    simp only [Bool.and_eq_true, Option.isNone_iff_eq_none, List.isEmpty_iff] at htest
    obtain ⟨⟨hwaits, htodo⟩, hgot⟩ := htest
    obtain ⟨hread, -⟩ := (hstay.inStep s hs).idle hwaits
    rw [htodo, List.length_nil, Nat.sub_zero, List.take_length, hgot, hexpected] at hread
    cases hread

end Sockets.Ftp
