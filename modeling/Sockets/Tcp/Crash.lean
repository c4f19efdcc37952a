/-
What the parent of an echo client learns of a crash of the server. It exits
exactly when the client told it so while what stood unread in the pipe
filled whole reads (`exited_iff`): with anything else in front, the message
is read along with another one, and not seen.

That is for texts that do not say it themselves. A server that is up can be
taken for crashed exactly when "server process crash" is typed somewhere
(`exited_while_up_iff`).
-/
import Sockets.Tcp.Echo

namespace Sockets.Tcp.Session

variable {mem : Memory} {text : List Char} {s s' r : Session} {e : Event}

def finished (s : Session) : Bool := decide (s.child = .ended)

/-- What a step does at the pipe. -/
inductive Relayed (text : List Char) (s s' : Session) : Prop
  | idle (hpfd : s'.pfd = s.pfd) (hparent : s'.parent = s.parent) (htold : s'.told = s.told)
      (hfinished : s'.finished = s.finished)
  | read (hread : s.parent.read .echo s.pfd = some (s'.parent, s'.pfd)) (htold : s'.told = s.told)
      (hfinished : s'.finished = s.finished)
  /-- the client passes on what it has read back -/
  | relay (m : List Char) (hm : m <:+: text) (hfinished : s.finished = false) (hparent : s'.parent = s.parent)
      (htold : s'.told = s.told)
      (hpfd : s.parent.phase ≠ .exited → s'.pfd = s.pfd.write (m ++ [nul]) ∧ s'.finished = false)
  /-- it ends, and may say why -/
  | silent (hfinished : s.finished = false) (hparent : s'.parent = s.parent) (htold : s'.told = s.told)
      (hpfd : s'.pfd = s.pfd.close) (hfinished' : s'.finished = true)
  | lastWord (m : List Char) (hm : m = termInfo3 ∨ m = termInfo4) (hfinished : s.finished = false)
      (hparent : s'.parent = s.parent) (htold : s'.told = s.told) (hfinished' : s'.finished = true)
      (hpfd : s.parent.phase ≠ .exited → s'.pfd = (s.pfd.write (m ++ [nul])).close)
  | crash (hend : s.toClient.closed = true) (hfinished : s.finished = false) (hparent : s'.parent = s.parent)
      (htold : s'.told = some s.pfd.unread.length) (hfinished' : s'.finished = true)
      (hpfd : s.parent.phase ≠ .exited → s'.pfd = (s.pfd.write (termInfo ++ [nul])).close)

@[simp] theorem childEnds_finished : s.childEnds.finished = true := rfl

theorem finished_eq_false (h : s.child ≠ .ended) : s.finished = false := decide_eq_false h

theorem tell_pfd (h : s.parent.phase ≠ .exited) (m : List Char) : (s.tell m).pfd = s.pfd.write m := by
  rw [tell, if_neg h]

theorem tell_finished (h : s.parent.phase ≠ .exited) (m : List Char) : (s.tell m).finished = s.finished := by
  rw [tell, if_neg h]
  rfl


theorem relayed_of_step (hall : s.echoed ++ s.underWay ++ s.stdin = text) (hpad : Padded nul s.buf)
    (h : s.step e = some s') : Relayed text s s' := by
  cases effect_of_step h with
  | connect hup hchild hbuf => exact .idle rfl rfl rfl (by simp [finished, hchild])
  | refused hchild =>
    refine .lastWord termInfo4 (.inr rfl) (finished_eq_false (by simp [hchild])) (by simp) (by simp) rfl ?_
    exact fun hphase => congrArg Pipe.close (tell_pfd hphase _)
  | @childSocket buf bytes toClient hchild hbuf hread hclosed hn =>
    rw [take_received hpad hbuf hn]
    refine .relay bytes ?_ (finished_eq_false (by simp [hchild])) (by simp) (by simp) ?_
    · rw [← hall, underWay, hread]
      exact ⟨s.echoed, toClient.unread ++ s.held ++ s.toServer.unread ++ s.stdin, by simp⟩
    · intro hphase
      refine ⟨tell_pfd (by exact hphase) _, (tell_finished (by exact hphase) _).trans ?_⟩
      exact finished_eq_false (by simp [hchild])
  | childSocketEnd hchild hclosed hbuf =>
    refine .crash hclosed (finished_eq_false (by simp [hchild])) (by simp) (by simp) rfl ?_
    exact fun hphase => congrArg Pipe.close (tell_pfd (by exact hphase) _)
  | childStdin hchild => exact .idle rfl rfl rfl rfl
  | childStdinEnd hchild =>
    refine .lastWord termInfo3 (.inl rfl) (finished_eq_false (by simp [hchild])) (by simp) (by simp) rfl ?_
    exact fun hphase => congrArg Pipe.close (tell_pfd hphase _)
  | childDies hchild => exact .silent (finished_eq_false hchild) rfl rfl rfl rfl
  | serverRead hserving hheld hread => exact .idle rfl rfl rfl rfl
  | serverReadEnd hheld hended => exact .idle rfl rfl rfl rfl
  | serverWrite hserving => exact .idle rfl rfl rfl rfl
  | serverEnds hup => exact .idle rfl rfl rfl rfl
  | parentRead hread => exact .read hread rfl rfl

/-- The array of the client stays without anything behind its string. -/
theorem padded_of_step (hall : s.echoed ++ s.underWay ++ s.stdin = text) (hnul : nul ∉ text)
    (hpad : Padded nul s.buf) (h : s.step e = some s') : Padded nul s'.buf := by
  cases effect_of_step h with
  | connect hup hchild hbuf => exact padded_replicate (hpad.clearString hbuf)
  | refused hchild => simpa using hpad
  | childSocket hchild hbuf hread =>
    rw [tell_buf]
    refine (padded_replicate (hpad.clearString hbuf)).received ?_
    intro hm
    exact hnul (by simp [← hall, underWay, hread, hm])
  | childSocketEnd hchild hclosed hbuf => simpa using padded_replicate (hpad.clearString hbuf)
  | childStdin hchild =>
    refine hpad.received ?_
    intro hm
    exact hnul (by simp [← hall, List.mem_of_mem_take hm])
  | childStdinEnd hchild => simpa using hpad
  | _ => exact hpad

/-- In every state of a run the steps are those that are listed. -/
theorem relayed (hpad : Padded nul mem.child) (hnul : nul ∉ text) (h : (sessionMachine mem text).Reachable s)
    (hs : s.step e = some s') : Relayed text s s' := by
  have hbuf : (sessionMachine mem text).Reachable s ∧ Padded nul s.buf := by
    refine h.invariant (I := fun s => (sessionMachine mem text).Reachable s ∧ Padded nul s.buf) ⟨.start, hpad⟩ ?_
    intro s e s' hs hstep
    exact ⟨hs.1.next hstep, padded_of_step (conserved hs.1) hnul hs.2 hstep⟩
  exact relayed_of_step (conserved h) hbuf.2 hs

/-- The end of the connection is the end of the server, and the server does not come back. -/
theorem up_of_step (hs : s.toClient.closed = true → s.up = false) (h : s.step e = some s') :
    (s'.toClient.closed = true → s'.up = false) ∧ (s.up = false → s'.up = false) := by
  cases effect_of_step h with
  | refused hchild | childStdinEnd hchild | childDies hchild => simpa using hs
  | childSocket hchild hbuf hread hclosed => simpa [hclosed] using hs
  | childSocketEnd hchild hclosed hbuf => simpa using hs
  | serverEnds hup => exact ⟨fun _ => rfl, fun _ => rfl⟩
  | _ => exact ⟨hs, id⟩

theorem up_of_closed (h : (sessionMachine mem text).Reachable s) (hclosed : s.toClient.closed = true) :
    s.up = false :=
  h.invariant (I := fun s => s.toClient.closed = true → s.up = false) (by simp [sessionMachine, start])
    (fun _ _ _ hs hstep => (up_of_step hs hstep).1) hclosed

/-! ## What the parent makes of it -/

theorem notMem_of_part {m : List Char} (hnul : nul ∉ text) (hm : m <:+: text) : nul ∉ m :=
  fun hmem => hnul (hm.subset hmem)

/-- A text that does not say it passes. -/
theorem Relayed.heard (h : Relayed text s s') (hnul : nul ∉ text) (hcrash : ¬ termInfo <:+: text)
    (hconnect : ¬ termInfo4 <:+: text) (hs : Heard s.told s.finished s.parent s.pfd) :
    Heard s'.told s'.finished s'.parent s'.pfd := by
  have hfresh (hfinished : s.finished = false) : s.told = none ∧ Heard none false s.parent s.pfd := by
    rw [hfinished] at hs
    have htold := hs.eq_none
    rw [htold] at hs
    exact ⟨htold, hs⟩
  cases h with
  | idle hpfd hparent htold hfinished => rwa [hpfd, hparent, htold, hfinished]
  | read hread htold hfinished =>
    rw [htold, hfinished]
    exact hs.read hread
  | relay m hm hfinished hparent htold hpfd =>
    obtain ⟨hnone, hs⟩ := hfresh hfinished
    obtain ⟨hpfd, hfinished'⟩ := hpfd (by simp [hs.reading])
    rw [hpfd, hparent, htold, hfinished', hnone]
    refine hs.message (notMem_of_part hnul hm) ?_ ?_
    · exact fun hsuffix => hcrash (hsuffix.isInfix.trans hm)
    · exact fun _ hsuffix => hconnect (hsuffix.isInfix.trans hm)
  | silent hfinished hparent htold hpfd hfinished' =>
    obtain ⟨hnone, hs⟩ := hfresh hfinished
    rw [hpfd, hparent, htold, hfinished', hnone]
    exact hs.silent
  | lastWord m hm hfinished hparent htold hfinished' hpfd =>
    obtain ⟨hnone, hs⟩ := hfresh hfinished
    rw [hpfd (by simp [hs.reading]), hparent, htold, hfinished', hnone]
    rcases hm with rfl | rfl
    · exact (hs.message (by decide) (by decide) (fun _ => by decide)).silent
    · exact hs.refused
  | crash hend hfinished hparent htold hfinished' hpfd =>
    obtain ⟨-, hs⟩ := hfresh hfinished
    rw [hpfd (by simp [hs.reading]), hparent, htold, hfinished']
    exact hs.crash

/-- What the client tells is not seen before the server has ended. -/
theorem Relayed.told_up (h : Relayed text s s') (hclosed : s.toClient.closed = true → s.up = false)
    (hs : s.told ≠ none → s.up = false) (hup : s.up = false → s'.up = false) : s'.told ≠ none → s'.up = false := by
  cases h with
  | crash hend => exact fun _ => hup (hclosed hend)
  | idle _ _ htold | read _ htold | relay _ _ _ _ htold | silent _ _ htold | lastWord _ _ _ _ htold =>
    rw [htold]
    exact fun htold => hup (hs htold)

/-- **Who learns of a crash.** When the parent has left its loop, it has exited exactly if its client
told it of a crash while what stood in the pipe filled whole reads; and then the server has ended. -/
theorem exited_iff (hpad : Padded nul mem.child) (hnul : nul ∉ text) (hcrash : ¬ termInfo <:+: text)
    (hconnect : ¬ termInfo4 <:+: text) (h : (sessionMachine mem text).Reachable s)
    (hleft : s.parent.phase ≠ .reading) :
    (s.parent.phase = .exited ↔ ∃ n, s.told = some n ∧ MAXLINE ∣ n) ∧ (s.told ≠ none → s.up = false) := by
  have hinv : (sessionMachine mem text).Reachable s ∧ Heard s.told s.finished s.parent s.pfd ∧
      (s.told ≠ none → s.up = false) := by
    refine h.invariant (I := fun s => (sessionMachine mem text).Reachable s ∧
      Heard s.told s.finished s.parent s.pfd ∧ (s.told ≠ none → s.up = false)) ?_ ?_
    · exact ⟨.start, .start, fun htold => absurd rfl htold⟩
    · intro s e s' hs hstep
      obtain ⟨hreach, hheard, htold⟩ := hs
      have hrelayed := relayed hpad hnul hreach hstep
      have hup := up_of_step (up_of_closed hreach) hstep
      exact ⟨hreach.next hstep, hrelayed.heard hnul hcrash hconnect hheard,
        hrelayed.told_up (up_of_closed hreach) htold hup.2⟩
  exact ⟨hinv.2.1.exited_iff_told hleft, hinv.2.2⟩

/-- A line is typed, echoed and shown, and then the server ends. -/
theorem exited_iff_nothingUnread : ∃ s, (sessionMachine .zero "hello\n".toList).Reachable s ∧
    s.told = some 0 ∧ s.parent.phase = .exited := by
  obtain ⟨r, hconnect, hready⟩ := @ready_connect .zero "hello\n".toList zero_roomy zero_roomy
  rw [← List.append_nil "hello\n".toList] at hready
  obtain ⟨s, hs, -, -, hready⟩ := Ready.next (reachable_step .start hconnect) hready (by decide) (by decide)
    (by decide)
  have hready : Ready [] [] s := hready (by decide) (by decide)
  obtain ⟨zeroes, hclear, -⟩ := roomy_cleared hready.buf
  obtain ⟨q, hread, hexited, -⟩ :=
    Parent.read_message true hready.parent nul_notMem_termInfo length_termInfo_lt
  have hgone : s.step .serverEnds = some s.serverGone := if_pos hready.up
  have hend : s.serverGone.step .childSocketEnd = some { s.serverGone with
      child := .ended, buf := zeroes, toServer := s.toServer.close, told := some 0
      pfd := { unread := termInfo ++ [nul], closed := true } } := by
    rw [step, if_pos ⟨hready.child, by simp [serverGone, hready.toClient, Pipe.ended]⟩]
    simp only [serverGone, hclear, Option.map_some, tell, hready.parent, hready.pfd]
    rfl
  have htold := reachable_step (reachable_step hs hgone) hend
  have hleft := reachable_step (e := .parentRead) htold (congrArg (Option.map _) hread)
  have hphase : q.phase ≠ .reading := by simp [hexited rfl]
  have hiff := exited_iff zero_roomy.1 (by decide) (by decide) (by decide) hleft hphase
  exact ⟨_, hleft, rfl, hiff.1.mpr ⟨0, rfl, dvd_zero _⟩⟩

/-! ## A server that is up, taken for crashed -/

/-- While the server is up nothing tells of a crash, if no text does. -/
theorem Relayed.unsaid (h : Relayed text s s') (hnul : nul ∉ text) (hcrash : ¬ termInfo <:+: text)
    (hclosed : s.toClient.closed = false) (hs : s.told = none ∧ Heard none true s.parent s.pfd) :
    s'.told = none ∧ Heard none true s'.parent s'.pfd := by
  obtain ⟨hnone, hs⟩ := hs
  have hphase : s.parent.phase ≠ .exited := by
    intro hphase
    obtain ⟨n, hn, -⟩ := hs.exited hphase
    cases hn
  cases h with
  | idle hpfd hparent htold => exact ⟨htold.trans hnone, by rwa [hpfd, hparent]⟩
  | read hread htold => exact ⟨htold.trans hnone, hs.read hread⟩
  | relay m hm hfinished hparent htold hpfd =>
    rw [(hpfd hphase).1, hparent]
    refine ⟨htold.trans hnone, hs.message (notMem_of_part hnul hm) ?_ (by simp)⟩
    exact fun hsuffix => hcrash (hsuffix.isInfix.trans hm)
  | silent hfinished hparent htold hpfd hfinished' =>
    rw [hpfd, hparent]
    exact ⟨htold.trans hnone, hs.silent⟩
  | lastWord m hm hfinished hparent htold hfinished' hpfd =>
    rw [hpfd hphase, hparent]
    refine ⟨htold.trans hnone, ?_⟩
    rcases hm with rfl | rfl
    · exact (hs.message (by decide) (by decide) (by simp)).silent
    · exact hs.refused
  | crash hend => exact absurd (hclosed.symm.trans hend) (by decide)

/-- What stands in front can be echoed letter by letter. -/
theorem Ready.skip {front rest : List Char} (hnul : nul ∉ front) :
    ∀ {s}, (sessionMachine mem text).Reachable s → Ready (front ++ rest) [] s →
      ∃ t, (sessionMachine mem text).Reachable t ∧ Ready rest [] t := by
  induction front with
  | nil => exact fun hs h => ⟨_, hs, h⟩
  | cons c front ih =>
    intro s hs h
    obtain ⟨hc, hfront⟩ := not_or.mp (List.mem_cons.not.mp hnul)
    obtain ⟨t, ht, -, -, hready⟩ := Ready.next (m := [c]) hs h (List.cons_ne_nil c []) (by simpa using hc)
      (show 1 < MAXLINE by decide)
    have hcrash : [c] ≠ termInfo := fun he => absurd (congrArg List.length he) (show 1 ≠ termInfo.length by decide)
    have hconnect : [c] ≠ termInfo4 := fun he => absurd (congrArg List.length he) (show 1 ≠ termInfo4.length by decide)
    exact ih hfront ht (hready hcrash hconnect)

/-- **A crash that is typed.** While the server is up, the parent of a client can come to exit exactly
when the text of the crash is somewhere in what is typed. -/
theorem exited_while_up_iff (hpad : Padded nul mem.child ∧ nul ∈ mem.child.toList)
    (hpad' : Padded nul mem.server ∧ nul ∈ mem.server.toList) (hnul : nul ∉ text) :
    (∃ s, (sessionMachine mem text).Reachable s ∧ s.up = true ∧ s.parent.phase = .exited) ↔
      termInfo <:+: text := by
  constructor
  · intro h
    obtain ⟨s, hs, hup, hphase⟩ := h
    by_contra hcrash
    have hinv : (sessionMachine mem text).Reachable s ∧
        (s.up = true → s.told = none ∧ Heard none true s.parent s.pfd) := by
      refine hs.invariant (I := fun s => (sessionMachine mem text).Reachable s ∧
        (s.up = true → s.told = none ∧ Heard none true s.parent s.pfd)) ?_ ?_
      · exact ⟨.start, fun _ => ⟨rfl, Heard.start.weaken⟩⟩
      · intro s e s' hs hstep
        obtain ⟨hreach, hunsaid⟩ := hs
        refine ⟨hreach.next hstep, ?_⟩
        intro hup'
        have hup : s.up = true := by
          by_contra hdown
          have hdown' := (up_of_step (up_of_closed hreach) hstep).2 (by simpa using hdown)
          exact absurd (hup'.symm.trans hdown') (by decide)
        have hopen : s.toClient.closed = false := by
          by_contra hclosed
          have hdown := up_of_closed hreach (by simpa using hclosed)
          exact absurd (hup.symm.trans hdown) (by decide)
        exact (relayed hpad.1 hnul hreach hstep).unsaid hnul hcrash hopen (hunsaid hup)
    obtain ⟨n, hn, -⟩ := (hinv.2 hup).2.exited hphase
    cases hn
  · intro h
    obtain ⟨front, rest, rfl⟩ := h
    obtain ⟨s, hconnect, hready⟩ := ready_connect (front ++ termInfo ++ rest) hpad hpad'
    have hs : (sessionMachine mem (front ++ termInfo ++ rest)).Reachable s := reachable_step .start hconnect
    rw [List.append_assoc] at hready hnul
    have hfront : nul ∉ front := fun hmem => hnul (List.mem_append_left _ hmem)
    obtain ⟨t, ht, hready⟩ := Ready.skip hfront hs hready
    obtain ⟨u, hu, hup, hexited, -⟩ :=
      Ready.next ht hready (by decide) nul_notMem_termInfo length_termInfo_lt
    exact ⟨u, hu, hup, hexited rfl⟩

theorem exited_while_up_iff_typed : ∃ s, (sessionMachine .zero termInfo).Reachable s ∧ s.up = true ∧
    s.parent.phase = .exited :=
  (exited_while_up_iff zero_roomy zero_roomy nul_notMem_termInfo).mpr List.infix_rfl

end Sockets.Tcp.Session
