/-
The parent of an echo or a time client. It forks the client with the write end
of a pipe and reads what comes through it, one string from each read: that
the server has crashed, and it exits; that there was no connection, or no
client any more, and it goes back to its menu; or something to show.

A string it does not find at the start of a read is lost, the crash too:
`Heard.exited_iff_told` says when it is not.
-/
import Sockets.Lib.Pipe

namespace Sockets.Tcp

def termInfo : List Char := "server process crash\n".toList

def termInfo3 : List Char := "user enter ctrl D (EOF)\n".toList

def termInfo4 : List Char := "cannot connect to server\n".toList

inductive Service
  | echo
  | time
  deriving DecidableEq

inductive ParentPhase
  | reading
  /-- ended, with all of the program -/
  | exited
  /-- asks for the next service -/
  | menu
  deriving DecidableEq

structure Parent where
  phase : ParentPhase
  buf : List.Vector Char MAXLINE
  /-- what it has shown as read from its child -/
  shown : List (List Char)

/-- `strcmp(buf, s) == 0`: the string is in the buffer, with its `nul`. -/
def strcmpZero (buf : List.Vector Char MAXLINE) (s : List Char) : Prop := s ++ [nul] <+: buf.toList

instance (buf : List.Vector Char MAXLINE) (s : List Char) : Decidable (strcmpZero buf s) :=
  inferInstanceAs (Decidable (_ <+: _))

/-- Only the loop of the time client clears the buffer before it reads. -/
def Service.cleared : Service → List.Vector Char MAXLINE → Option (List.Vector Char MAXLINE)
  | .echo, buf => some buf
  | .time, buf => clearString nul buf

/-- What it makes of what it has read; no outcome where `printf` finds no end. -/
def Parent.heard (p : Parent) : Option Parent :=
  if strcmpZero p.buf termInfo then some { p with phase := .exited }
  else if strcmpZero p.buf termInfo4 then some { p with phase := .menu }
  else if nul ∈ p.buf.toList then some { p with shown := p.shown ++ [stringOf nul p.buf.toList] }
  else none

/-- One round of the loop; `none` where `read` has to wait. -/
def Parent.read (service : Service) (p : Parent) (pfd : Pipe Char) : Option (Parent × Pipe Char) :=
  if p.phase = .reading then
    (service.cleared p.buf).bind fun buf =>
      if pfd.ended then some ({ p with phase := .menu, buf }, pfd)
      else
        (pfd.read (min MAXLINE pfd.unread.length)).bind fun (bytes, pfd) =>
          (Parent.heard { p with buf := received buf bytes }).map fun p => (p, pfd)
  else none

/-! ## What is known of the pipe -/

variable {service : Service} {p p' : Parent} {pfd pfd' : Pipe Char}

/-- It finds the end, or goes by what is at the start of what there is. -/
theorem Parent.read_cases (h : p.read service pfd = some (p', pfd')) :
    p.phase = .reading ∧ ((pfd.ended = true ∧ pfd' = pfd ∧ p'.phase = .menu) ∨
      (pfd.unread ≠ [] ∧ pfd' = { pfd with unread := pfd.unread.drop MAXLINE } ∧ ∃ buf,
        Parent.heard { p with buf := received buf (pfd.unread.take MAXLINE) } = some p')) := by
  rw [Parent.read, Option.ite_none_right_eq_some] at h
  obtain ⟨hphase, h⟩ := h
  refine ⟨hphase, ?_⟩
  obtain ⟨buf, -, h⟩ := Option.bind_eq_some_iff.mp h
  split at h
  next hended =>
    obtain ⟨rfl, rfl⟩ := Prod.mk.inj (Option.some.inj h)
    exact .inl ⟨hended, rfl, rfl⟩
  next =>
    obtain ⟨⟨bytes, rest⟩, hread, h⟩ := Option.bind_eq_some_iff.mp h
    obtain ⟨q, hheard, heq⟩ := Option.map_eq_some_iff.mp h
    obtain ⟨rfl, rfl⟩ := Prod.mk.inj heq
    rw [Pipe.read_min MAXLINE (by decide), Option.ite_none_left_eq_some] at hread
    obtain ⟨hne, heq⟩ := hread
    obtain ⟨rfl, rfl⟩ := Prod.mk.inj (Option.some.inj heq)
    exact .inr ⟨hne, rfl, buf, hheard⟩

theorem Parent.heard_cases (h : p.heard = some p') :
    (strcmpZero p.buf termInfo ∧ p'.phase = .exited) ∨
      (¬ strcmpZero p.buf termInfo ∧ strcmpZero p.buf termInfo4 ∧ p'.phase = .menu) ∨
      (¬ strcmpZero p.buf termInfo ∧ ¬ strcmpZero p.buf termInfo4 ∧ p'.phase = p.phase) := by
  rw [Parent.heard] at h
  split at h
  next hcrash => exact .inl ⟨hcrash, by rw [← Option.some.inj h]⟩
  next hcrash =>
    split at h
    next hconnect => exact .inr (.inl ⟨hcrash, hconnect, by rw [← Option.some.inj h]⟩)
    next hconnect =>
      obtain ⟨-, heq⟩ := Option.ite_none_right_eq_some.mp h
      exact .inr (.inr ⟨hcrash, hconnect, by rw [← Option.some.inj heq]⟩)

theorem nul_notMem_termInfo : nul ∉ termInfo := by decide

theorem nul_notMem_termInfo4 : nul ∉ termInfo4 := by decide

theorem length_termInfo_lt : termInfo.length < MAXLINE := by decide

/-- A whole text, that nothing else stands behind. -/
theorem strcmpZero_received_iff {buf : List.Vector Char MAXLINE} {m t : List Char} (ht : nul ∉ t) (hm : nul ∉ m)
    (hlen : m.length < MAXLINE) : strcmpZero (received buf (m ++ [nul])) t ↔ m = t := by
  have htake : (m ++ [nul]).take MAXLINE = m ++ [nul] :=
    List.take_of_length_le (by rw [List.length_append, List.length_singleton]; omega)
  have hstarts := prefix_received_iff (a := buf) (Terminated.append [] m) (by simp) ht
  rw [List.nil_append, htake] at hstarts
  rw [strcmpZero, hstarts, List.prefix_concat_iff]
  constructor
  · intro h
    rcases h with heq | hfront
    · exact (List.append_cancel_right heq).symm
    · exact absurd (hfront.subset (List.mem_append_right t List.mem_cons_self)) hm
  · exact fun heq => .inl (by rw [heq])

theorem Parent.heard_received {m : List Char} {buf : List.Vector Char MAXLINE} (hm : nul ∉ m)
    (hlen : m.length < MAXLINE) (hbuf : p.buf = received buf (m ++ [nul])) :
    ∃ q, p.heard = some q ∧ (m = termInfo → q.phase = .exited) ∧
      (m ≠ termInfo → m ≠ termInfo4 → q.phase = p.phase ∧ q.shown = p.shown ++ [m]) := by
  have hroom : (m ++ [nul]).length ≤ MAXLINE := by rw [List.length_append, List.length_singleton]; omega
  have hholds : Holds nul p.buf m := by
    refine ⟨hm, buf.toList.drop (m ++ [nul]).length, ?_⟩
    rw [hbuf, received, List.Vector.toList_mk, List.take_of_length_le hroom, List.append_assoc,
      List.singleton_append]
  have htext (t : List Char) (ht : nul ∉ t) : strcmpZero p.buf t ↔ m = t := by
    rw [hbuf]
    exact strcmpZero_received_iff ht hm hlen
  simp only [Parent.heard, htext _ nul_notMem_termInfo, htext _ nul_notMem_termInfo4, if_pos hholds.nul_mem,
    hholds.stringOf]
  split
  next hcrash => exact ⟨_, rfl, fun _ => rfl, fun hne => absurd hcrash hne⟩
  next hcrash =>
    split
    next hconnect => exact ⟨_, rfl, fun heq => absurd heq hcrash, fun _ hne => absurd hconnect hne⟩
    next => exact ⟨_, rfl, fun heq => absurd heq hcrash, fun _ _ => ⟨rfl, rfl⟩⟩

/-- A text that is all there is in the pipe is read as a whole. -/
theorem Parent.read_message {m : List Char} (closed : Bool) (hp : p.phase = .reading) (hm : nul ∉ m)
    (hlen : m.length < MAXLINE) : ∃ q, p.read .echo { unread := m ++ [nul], closed } =
      some (q, { unread := [], closed }) ∧ (m = termInfo → q.phase = .exited) ∧
      (m ≠ termInfo → m ≠ termInfo4 → q.phase = .reading ∧ q.shown = p.shown ++ [m]) := by
  have htake : (m ++ [nul]).length ≤ MAXLINE := by rw [List.length_append, List.length_singleton]; omega
  have hread := Pipe.read_min (p := { unread := m ++ [nul], closed }) MAXLINE (by decide)
  rw [if_neg (by simp), List.take_of_length_le htake, List.drop_of_length_le htake] at hread
  obtain ⟨q, hheard, hexited, hreading⟩ :=
    Parent.heard_received (p := { p with buf := received p.buf (m ++ [nul]) }) hm hlen rfl
  refine ⟨q, ?_, hexited, ?_⟩
  · rw [Parent.read, if_pos hp, Service.cleared, Option.bind_some, if_neg (by simp [Pipe.ended]), hread,
      Option.bind_some]
    simp only [hheard, Option.map_some]
  · intro hcrash hconnect
    exact ⟨(hreading hcrash hconnect).1.trans hp, (hreading hcrash hconnect).2⟩

/-- What is in the pipe, and why the parent has left it. `told` says how much stood in the pipe when
the child told of the crash; `finished` that the child has ended. -/
structure Heard (told : Option Nat) (finished : Bool) (p : Parent) (pfd : Pipe Char) : Prop where
  finishedToo : ∀ n, told = some n → finished = true
  closed : pfd.closed = true → finished = true
  quiet : p.phase = .reading → told = none → Unsaid nul termInfo pfd.unread
  pending : p.phase = .reading → ∀ n, told = some n → Pending nul termInfo MAXLINE n pfd.unread
  connected : p.phase = .reading → finished = false ∨ (∃ n, told = some n) → Unsaid nul termInfo4 pfd.unread
  exited : p.phase = .exited → ∃ n, told = some n ∧ MAXLINE ∣ n
  menu : p.phase = .menu → finished = true ∧ ∀ n, told = some n → ¬ MAXLINE ∣ n

namespace Heard

variable {told : Option Nat} {finished : Bool}

theorem terminated (h : Heard told finished p pfd) (hp : p.phase = .reading) : Terminated nul pfd.unread := by
  cases htold : told with
  | none => exact (h.quiet hp htold).terminated
  | some n => exact (h.pending hp n htold).terminated

theorem eq_none (h : Heard told false p pfd) : told = none := by
  cases htold : told with
  | none => rfl
  | some n => exact absurd (h.finishedToo n htold) (by decide)

/-- As long as the child has told of nothing, the parent reads on. -/
theorem reading (h : Heard none false p pfd) : p.phase = .reading := by
  cases hp : p.phase with
  | reading => rfl
  | exited =>
    obtain ⟨n, hn, -⟩ := h.exited hp
    cases hn
  | menu => exact absurd (h.menu hp).1 (by decide)

/-- **What the parent makes of the end.** It exits exactly when it was told of a crash and what stood
in the pipe then fills whole reads. -/
theorem exited_iff_told (h : Heard told finished p pfd) (hp : p.phase ≠ .reading) :
    p.phase = .exited ↔ ∃ n, told = some n ∧ MAXLINE ∣ n := by
  refine ⟨h.exited, ?_⟩
  intro hn
  obtain ⟨n, htold, hdvd⟩ := hn
  cases hphase : p.phase with
  | reading => exact absurd hphase hp
  | exited => rfl
  | menu => exact absurd hdvd ((h.menu hphase).2 n htold)

/-- A round of the loop keeps it. -/
theorem read (h : Heard told finished p pfd) (hread : p.read service pfd = some (p', pfd')) :
    Heard told finished p' pfd' := by
  obtain ⟨hp, ⟨hended, rfl, hmenu⟩ | ⟨hne, rfl, buf, hheard⟩⟩ := Parent.read_cases hread
  · obtain ⟨hnil, hclosed⟩ := Pipe.ended_iff.mp hended
    refine ⟨h.finishedToo, h.closed, ?_, ?_, ?_, ?_, ?_⟩
    · simp [hmenu]
    · simp [hmenu]
    · simp [hmenu]
    · simp [hmenu]
    · intro _
      refine ⟨h.closed hclosed, ?_⟩
      intro n hn
      have hpending := h.pending hp n hn
      rw [hnil] at hpending
      exact hpending.missed
  · have htext (t : List Char) (ht : nul ∉ t) : strcmpZero (received buf (pfd.unread.take MAXLINE)) t ↔
        t ++ [nul] <+: pfd.unread.take MAXLINE := prefix_received_iff (h.terminated hp) hne ht
    have htake : pfd.unread.take MAXLINE <+: pfd.unread := List.take_prefix _ _
    have hdrop : pfd.unread.drop MAXLINE <:+ pfd.unread := List.drop_suffix _ _
    rcases Parent.heard_cases hheard with ⟨hcrash, hp'⟩ | ⟨hcrash, hconnect, hp'⟩ | ⟨hcrash, hconnect, hp'⟩
    · -- the string is that of a crash
      rw [htext _ nul_notMem_termInfo] at hcrash
      refine ⟨h.finishedToo, h.closed, ?_, ?_, ?_, ?_, ?_⟩
      · simp [hp']
      · simp [hp']
      · simp [hp']
      · intro _
        cases htold : told with
        | none => exact absurd (hcrash.trans htake) (h.quiet hp htold).not_start
        | some n => exact ⟨n, rfl, ((h.pending hp n htold).read nul_notMem_termInfo length_termInfo_lt).1 hcrash⟩
      · simp [hp']
    · -- it is that there is no connection: then there was no client to tell of a crash
      rw [htext _ nul_notMem_termInfo4] at hconnect
      have hnone : ¬ (finished = false ∨ ∃ n, told = some n) :=
        fun hc => (h.connected hp hc).not_start (hconnect.trans htake)
      rw [not_or, Bool.not_eq_false] at hnone
      refine ⟨h.finishedToo, h.closed, ?_, ?_, ?_, ?_, ?_⟩
      · simp [hp']
      · simp [hp']
      · simp [hp']
      · simp [hp']
      · exact fun _ => ⟨hnone.1, fun n hn => absurd ⟨n, hn⟩ hnone.2⟩
    · rw [htext _ nul_notMem_termInfo] at hcrash
      refine ⟨h.finishedToo, h.closed, ?_, ?_, ?_, ?_, ?_⟩
      · exact fun _ htold => (h.quiet hp htold).of_suffix hdrop
      · exact fun _ n hn => ((h.pending hp n hn).read nul_notMem_termInfo length_termInfo_lt).2 hcrash
      · exact fun _ hc => (h.connected hp hc).of_suffix hdrop
      · simp [hp', hp]
      · simp [hp', hp]

/-! ## What the child does -/

/-- It tells something else. -/
theorem message (h : Heard none finished p pfd) {m : List Char} (hm : nul ∉ m) (hcrash : ¬ termInfo <:+ m)
    (hconnect : finished = false → ¬ termInfo4 <:+ m) : Heard none finished p (pfd.write (m ++ [nul])) := by
  refine ⟨h.finishedToo, h.closed, ?_, ?_, ?_, h.exited, h.menu⟩
  · exact fun hp _ => (h.quiet hp rfl).append nul_notMem_termInfo hm hcrash
  · exact fun _ n hn => nomatch hn
  · intro hp hc
    have hfinished : finished = false := hc.resolve_right (by simp)
    exact (h.connected hp hc).append nul_notMem_termInfo4 hm (hconnect hfinished)

/-- Whatever it may tell of a missing connection. -/
theorem weaken (h : Heard none finished p pfd) : Heard none true p pfd := by
  refine ⟨fun _ _ => rfl, fun _ => rfl, h.quiet, ?_, ?_, h.exited, ?_⟩
  · exact fun _ n hn => nomatch hn
  · simp
  · exact fun hmenu => ⟨rfl, (h.menu hmenu).2⟩

/-- It ends without a word. -/
theorem silent (h : Heard none finished p pfd) : Heard none true p pfd.close :=
  ⟨fun _ _ => rfl, fun _ => rfl, h.weaken.quiet, h.weaken.pending, h.weaken.connected, h.exited, h.weaken.menu⟩

/-- It ends with the crash. -/
theorem crash (h : Heard none false p pfd) :
    Heard (some pfd.unread.length) true p (pfd.write (termInfo ++ [nul])).close := by
  have hp := h.reading
  refine ⟨fun _ _ => rfl, fun _ => rfl, ?_, ?_, ?_, ?_, ?_⟩
  · exact fun _ htold => nomatch htold
  · intro _ n hn
    rw [← Option.some.inj hn]
    exact .start (h.quiet hp rfl)
  · exact fun _ _ =>
      (h.connected hp (.inl rfl)).append nul_notMem_termInfo4 nul_notMem_termInfo (by decide)
  · simp [hp]
  · simp [hp]

/-- It ends without a connection. -/
theorem refused (h : Heard none finished p pfd) : Heard none true p (pfd.write (termInfo4 ++ [nul])).close :=
  (h.weaken.message nul_notMem_termInfo4 (by decide) (by simp)).silent

theorem start {buf : List.Vector Char MAXLINE} : Heard none false { phase := .reading, buf, shown := [] } {} := by
  refine ⟨?_, ?_, ?_, ?_, ?_, ?_, ?_⟩
  · simp
  · simp
  · exact fun _ _ => .nil
  · simp
  · exact fun _ _ => .nil
  · simp
  · simp

end Heard

end Sockets.Tcp
