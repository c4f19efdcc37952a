/-
The threads of the server, each with its client, on the one directory they
share. A name is chosen by a loop that may list the directory again in each
round, the file is made before its bytes have come, and these are written in
pieces; the other threads go on meanwhile.

So two clients may be given the same name, or two names of one file, and their
bytes end up in one file. The files are those that were uploaded exactly as
long as no thread makes a file that another has written to, and none writes to
a file that is another's too (`intact_iff`).

Which file a name denotes is the system's to say (`Folder`), the same one
throughout: names may differ in case only, or lead out of the directory. The separator in the path is that
of a system on which a file that is open is not deleted. A download never
closes its stream, and nor does a thread that has failed: such a stream is open
until Java collects it, if it does. A download reads the length first, and all
the bytes later, at once. What an `ls` is answered with is left out, and the
notices are those of `Ftp.Notices`.
-/
import Sockets.Lib.Machine
import Sockets.Lib.OpenFiles
import Sockets.Ftp.Commands
import Sockets.Ftp.Names

namespace Sockets.Ftp.Shared

/-- What the system makes of names: the file that a name denotes, whether a file is in the directory
itself, by what name one is listed that was made under a name, and in which order names are listed. -/
structure Folder (φ : Type) where
  fileOf : JString → φ
  inside : φ → Bool
  shown : JString → JString
  listFiles : List JString → List JString

/-- The variables of `getName`, between two rounds of its loop. -/
structure Naming where
  fList : List JString
  Dfname : JString
  count : Nat := 2
  i : Nat := 0

inductive Looked
  | chosen (name : JString)
  | next (loop : Naming)

/-- One round: `listed` is what the system lists now, if it is asked again; `none` is an exception. -/
def Naming.look (listed : List JString) (l : Naming) : Option Looked :=
  match l.fList[l.i]? with
  | none => some (.chosen l.Dfname)
  | some name =>
    if name = l.Dfname then
      match indexOf l.Dfname '[' with
      | none =>
        (indexOf l.Dfname '.').map fun m =>
          let left := l.Dfname.take m
          let right := l.Dfname.drop (m + 1)
          .next { l with Dfname := left ++ jstring "[1]." ++ right, i := l.i + 1 }
      | some open_ =>
        (indexOf l.Dfname ']').map fun r =>
          let left := l.Dfname.take (open_ + 1)
          let right := l.Dfname.drop r
          .next { Dfname := left ++ decimal l.count ++ right, count := l.count + 1, i := 1, fList := listed }
    else some (.next { l with i := l.i + 1 })

/-- Where a thread is in its loop. -/
inductive Phase
  | idle
  /-- `upload` is in `getName`; `asked` is the name it was called with -/
  | naming (size : Int) (asked : JString) (loop : Naming)
  | named (size : Int) (asked Ufname : JString)
  /-- the file is made, by stream `k` -/
  | receiving (size : Int) (Ufname : JString) (k : Nat)
  | writing (Ufname : JString) (k : Nat) (buffer : List UInt8) (pos : Nat)
  /-- `download` has read the length of the file -/
  | measured (filename : JString) (length : Int)
  | ended

/-- The stream of a thread, the name of its file, and what it has written. -/
def Phase.stream : Phase → Option (Nat × JString × List UInt8)
  | .receiving _ Ufname k => some (k, Ufname, [])
  | .writing Ufname k buffer pos => some (k, Ufname, buffer.take pos)
  | .idle | .naming .. | .named .. | .measured .. | .ended => none

structure Thread where
  arrived : List UInt8 := []
  phase : Phase := .idle

structure Upload where
  Ufname : JString
  k : Nat
  buffer : List UInt8

/-- The files, the names they are listed by, the threads, what they have uploaded, and what they have sent for
downloads. -/
structure State (φ : Type) where
  store : OpenFiles φ UInt8
  shown : φ → JString
  threads : List Thread := []
  uploaded : List Upload := []
  downloaded : List (JString × List UInt8) := []

variable {φ : Type}

/-- The stream of thread `n`, the name of its file, and what it has written. -/
def State.streamOf (s : State φ) (n : Nat) : Option (Nat × JString × List UInt8) :=
  (s.threads[n]?).bind (·.phase.stream)

inductive Event
  | connect
  | arrive (n : Nat) (bytes : List UInt8)
  /-- a request that is read, by what it is -/
  | delete (n : Nat)
  | upload (n : Nat)
  | download (n : Nat)
  | other (n : Nat)
  /-- the rest of `upload` -/
  | look (n : Nat)
  | create (n : Nat)
  | readFully (n : Nat)
  | write (n size : Nat)
  | close (n : Nat)
  /-- the rest of `download` -/
  | read (n : Nat)
  /-- the connection is lost, or there is another exception -/
  | fail (n : Nat)
  /-- an input stream that a download has left open is collected -/
  | collectInput (i : Nat)
  /-- an output stream is collected whose thread has ended -/
  | collectOutput (k : Nat)

namespace State

variable [DecidableEq φ] (folder : Folder φ)

/-- The names in the directory, as they are listed. -/
def listed (s : State φ) : List JString :=
  folder.listFiles ((s.store.names.filter folder.inside).map s.shown)

def setThread (s : State φ) (n : Nat) (t : Thread) : State φ := { s with threads := s.threads.set n t }

/-- The request that an idle thread reads, and what is behind it. -/
def request (s : State φ) (n : Nat) : Option (JString × List UInt8) := do
  let t ← s.threads[n]?
  match t.phase with
  | .idle => readUTF t.arrived
  | _ => none

def delete (s : State φ) (n : Nat) : Option (State φ) := do
  let (request, arrived) ← s.request n
  if startsWith request "delete" then
    match substring request 7 with
    | none => some (s.setThread n { arrived, phase := .ended })
    | some name => some { s.setThread n { arrived } with store := s.store.delete (folder.fileOf name) }
  else none

def upload (s : State φ) (n : Nat) : Option (State φ) := do
  let (request, arrived) ← s.request n
  if startsWith request "upload" then
    let (size, arrived) ← readInt arrived
    let (asked, arrived) ← readUTF arrived
    let loop := { fList := s.listed folder, Dfname := asked }
    some (s.setThread n { arrived, phase := .naming size asked loop })
  else none

/-- The length of a file, 0 if there is none. -/
def fileLength (s : State φ) (filename : JString) : Int :=
  (s.store.files (folder.fileOf filename)).elim 0 intLength

def download (s : State φ) (n : Nat) : Option (State φ) := do
  let (request, arrived) ← s.request n
  if startsWith request "download" then
    match substring request 9 with
    | none => some (s.setThread n { arrived, phase := .ended })
    | some filename =>
      let length := s.fileLength folder filename
      -- there is no array of a negative length
      some (s.setThread n { arrived, phase := if length < 0 then .ended else .measured filename length })
  else none

/-- `ls`, and what is no request. -/
def other (s : State φ) (n : Nat) : Option (State φ) := do
  let (request, arrived) ← s.request n
  if startsWith request "delete" ∨ startsWith request "upload" ∨ startsWith request "download" then none
  else some (s.setThread n { arrived })

def look (s : State φ) (n : Nat) : Option (State φ) := do
  let t ← s.threads[n]?
  match t.phase with
  | .naming size asked loop =>
    match loop.look (s.listed folder) with
    | none => some (s.setThread n { t with phase := .ended })
    | some (.chosen Ufname) => some (s.setThread n { t with phase := .named size asked Ufname })
    | some (.next loop) => some (s.setThread n { t with phase := .naming size asked loop })
  | _ => none

/-- The names that files are listed by, when one is made: a file that is there keeps its name. -/
def shownAfter (s : State φ) (Ufname : JString) : φ → JString :=
  let file := folder.fileOf Ufname
  if file ∈ s.store.names then s.shown else Function.update s.shown file (folder.shown Ufname)

def create (s : State φ) (n : Nat) : Option (State φ) := do
  let t ← s.threads[n]?
  match t.phase with
  | .named size _ Ufname =>
    let k := s.store.streams.length
    some { s.setThread n { t with phase := .receiving size Ufname k } with
      store := s.store.create (folder.fileOf Ufname)
      shown := s.shownAfter folder Ufname }
  | _ => none

def readFully (s : State φ) (n : Nat) : Option (State φ) := do
  let t ← s.threads[n]?
  match t.phase with
  | .receiving size Ufname k =>
    let (buffer, arrived) ← Ftp.readFully size t.arrived
    some (s.setThread n { arrived, phase := .writing Ufname k buffer 0 })
  | _ => none

def write (s : State φ) (n size : Nat) : Option (State φ) := do
  let t ← s.threads[n]?
  match t.phase with
  | .writing Ufname k buffer pos =>
    let store ← s.store.write 0 k ((buffer.drop pos).take size)
    some { s.setThread n { t with phase := .writing Ufname k buffer (pos + size) } with store }
  | _ => none

def close (s : State φ) (n : Nat) : Option (State φ) := do
  let t ← s.threads[n]?
  match t.phase with
  | .writing Ufname k buffer pos =>
    if buffer.length ≤ pos then
      let store ← s.store.close k
      some { s.setThread n { t with phase := .idle } with
        store, uploaded := s.uploaded ++ [{ Ufname, k, buffer }] }
    else none
  | _ => none

def read (s : State φ) (n : Nat) : Option (State φ) := do
  let t ← s.threads[n]?
  match t.phase with
  | .measured filename length =>
    let file := folder.fileOf filename
    match s.store.files file with
    | none => some (s.setThread n { t with phase := .ended })
    | some content =>
      -- the stream is not closed, whether there is an exception or not
      let store := s.store.openRead file
      match Ftp.readFully length content with
      | none => some { s.setThread n { t with phase := .ended } with store }
      | some (mybytearray, _) =>
        some { s.setThread n { t with phase := .idle } with
          store, downloaded := s.downloaded ++ [(filename, mybytearray)] }
  | _ => none

def collectOutput (s : State φ) (k : Nat) : Option (State φ) :=
  if s.threads.all fun t => (t.phase.stream.map (·.1)) != some k then
    (s.store.close k).map fun store => { s with store }
  else none

def step (s : State φ) : Event → Option (State φ)
  | .connect => some { s with threads := s.threads ++ [{}] }
  | .arrive n bytes => (s.threads[n]?).map fun t => s.setThread n { t with arrived := t.arrived ++ bytes }
  | .delete n => s.delete folder n
  | .upload n => s.upload folder n
  | .download n => s.download folder n
  | .other n => s.other n
  | .look n => s.look folder n
  | .create n => s.create folder n
  | .readFully n => s.readFully n
  | .write n size => s.write n size
  | .close n => s.close n
  | .read n => s.read folder n
  | .fail n => (s.threads[n]?).map fun t => s.setThread n { t with phase := .ended }
  | .collectInput i => some { s with store := s.store.release i }
  | .collectOutput k => s.collectOutput k

end State

/-- The server, with the files that are stored at first, by the names they are listed by. -/
def serverMachine [DecidableEq φ] (folder : Folder φ) (stored : List (JString × List UInt8)) :
    Machine (State φ) Event where
  init := {
    store := .ofList (stored.map fun p => (folder.fileOf p.1, p.2))
    shown := fun file => (stored.find? fun p => folder.fileOf p.1 = file).elim [] (·.1) }
  step := State.step folder

/-! ## What is to hold -/

variable (folder : Folder φ)

/-- The files are as they were uploaded: what is there is what has been written to it so far; the file of an
upload that has ended, until it is deleted, is the bytes the client sent; and what was downloaded is the
beginning, at least, of what was uploaded under the name. -/
structure State.Intact (s : State φ) : Prop where
  stored : s.store.Intact
  uploaded : ∀ u ∈ s.uploaded, ∃ stream, s.store.streams[u.k]? = some stream ∧
    (stream.Stands → s.store.files (folder.fileOf u.Ufname) = some u.buffer)
  downloaded : ∀ d ∈ s.downloaded,
    ∃ stream ∈ s.store.streams, stream.file = folder.fileOf d.1 ∧ d.2 <+: stream.written

/-- No thread makes a file that has bytes of another stream in it, and none writes any to a file that is
another's too. -/
def State.Apart (s : State φ) : Event → Prop
  | .create n => ∀ t size asked Ufname, s.threads[n]? = some t → t.phase = .named size asked Ufname →
      s.store.Unwritten (folder.fileOf Ufname)
  | .write n size => ∀ t Ufname k buffer pos, s.threads[n]? = some t → t.phase = .writing Ufname k buffer pos →
      (buffer.drop pos).take size = [] ∨ s.store.Sole k
  | _ => True

/-! ## What an event does -/

section Effects

/-- The phases that follow each other with nothing done to the files; `listed` is what the system lists. -/
inductive Moves (listed : List JString) : Phase → Phase → Prop
  | same (p : Phase) : Moves listed p p
  | fail (p : Phase) : Moves listed p .ended
  | upload (size : Int) (asked : JString) :
      Moves listed .idle (.naming size asked { fList := listed, Dfname := asked })
  | chosen {size asked loop Ufname} (h : loop.look listed = some (.chosen Ufname)) :
      Moves listed (.naming size asked loop) (.named size asked Ufname)
  | next {size asked loop loop'} (h : loop.look listed = some (.next loop')) :
      Moves listed (.naming size asked loop) (.naming size asked loop')
  | readFully (size : Int) (Ufname : JString) (k : Nat) (buffer : List UInt8) :
      Moves listed (.receiving size Ufname k) (.writing Ufname k buffer 0)
  | download (filename : JString) (length : Int) : Moves listed .idle (.measured filename length)

theorem isPrefix_of_readFully {size : Int} {content data rest : List UInt8}
    (h : Ftp.readFully size content = some (data, rest)) : data <+: content := by
  simp only [Ftp.readFully, Codec.raw, Codec.fixed, Option.ite_none_right_eq_some, Option.some.injEq,
    Prod.mk.injEq] at h
  obtain ⟨-, -, rfl, -⟩ := h
  exact List.take_prefix _ _

variable {folder} {s s' : State φ}

theorem request_eq_some {n : Nat} {request : JString} {arrived : List UInt8}
    (hs : s.request n = some (request, arrived)) : ∃ t, s.threads[n]? = some t ∧ t.phase = .idle := by
  simp only [State.request, Option.bind_eq_bind, Option.bind_eq_some_iff] at hs
  obtain ⟨t, hn, hs⟩ := hs
  split at hs
  next hidle => exact ⟨t, hn, hidle⟩
  next => cases hs

/-- No thread has the stream. -/
theorem free_of_all {k : Nat} (h : (s.threads.all fun t => (t.phase.stream.map (·.1)) != some k) = true) :
    ∀ n p, s.streamOf n = some p → p.1 ≠ k := by
  rintro n p hp rfl
  obtain ⟨t, hn, hp⟩ := Option.bind_eq_some_iff.mp hp
  have ht := List.all_eq_true.mp h t (List.mem_of_getElem? hn)
  rw [hp] at ht
  simp at ht

variable [DecidableEq φ]

variable (folder) in
/-- All that an event can do. -/
inductive Effect (s : State φ) : Event → State φ → Prop
  | connect : Effect s .connect { s with threads := s.threads ++ [{}] }
  | move {e n t t'} (hn : s.threads[n]? = some t) (hmoves : Moves (s.listed folder) t.phase t'.phase)
      (hapart : s.Apart folder e) : Effect s e (s.setThread n t')
  | delete {n t arrived name} (hn : s.threads[n]? = some t) (hidle : t.phase = .idle) :
      Effect s (.delete n) { s.setThread n { arrived } with store := s.store.delete (folder.fileOf name) }
  | create {n t size asked Ufname} (hn : s.threads[n]? = some t) (hnamed : t.phase = .named size asked Ufname) :
      Effect s (.create n)
        { s.setThread n { t with phase := .receiving size Ufname s.store.streams.length } with
          store := s.store.create (folder.fileOf Ufname)
          shown := s.shownAfter folder Ufname }
  | write {n size t Ufname k buffer pos store} (hn : s.threads[n]? = some t)
      (hwriting : t.phase = .writing Ufname k buffer pos)
      (hs : s.store.write 0 k ((buffer.drop pos).take size) = some store) :
      Effect s (.write n size)
        { s.setThread n { t with phase := .writing Ufname k buffer (pos + size) } with store }
  | close {n t Ufname k buffer pos store} (hn : s.threads[n]? = some t)
      (hwriting : t.phase = .writing Ufname k buffer pos) (hend : buffer.length ≤ pos)
      (hs : s.store.close k = some store) :
      Effect s (.close n) { s.setThread n { t with phase := .idle } with
        store, uploaded := s.uploaded ++ [{ Ufname, k, buffer }] }
  | read {n t filename length content data} (hn : s.threads[n]? = some t)
      (hmeasured : t.phase = .measured filename length)
      (hcontent : s.store.files (folder.fileOf filename) = some content) (hdata : data <+: content) :
      Effect s (.read n) { s.setThread n { t with phase := .idle } with
        store := s.store.openRead (folder.fileOf filename)
        downloaded := s.downloaded ++ [(filename, data)] }
  | leaveOpen {n t file} (hn : s.threads[n]? = some t) :
      Effect s (.read n) { s.setThread n { t with phase := .ended } with store := s.store.openRead file }
  | collectInput (i : Nat) : Effect s (.collectInput i) { s with store := s.store.release i }
  | collectOutput {k store} (hfree : ∀ n p, s.streamOf n = some p → p.1 ≠ k)
      (hs : s.store.close k = some store) : Effect s (.collectOutput k) { s with store }

theorem effect_of_delete {n : Nat} (hs : s.delete folder n = some s') : Effect folder s (.delete n) s' := by
  simp only [State.delete, Option.bind_eq_bind, Option.bind_eq_some_iff, Option.ite_none_right_eq_some] at hs
  obtain ⟨⟨request, arrived⟩, hrequest, -, hs⟩ := hs
  obtain ⟨t, hn, hidle⟩ := request_eq_some hrequest
  split at hs
  next =>
    obtain rfl := Option.some.inj hs
    exact .move hn (.fail _) trivial
  next name _ =>
    obtain rfl := Option.some.inj hs
    exact .delete hn hidle

theorem effect_of_upload {n : Nat} (hs : s.upload folder n = some s') :
    Effect folder s (.upload n) s' := by
  simp only [State.upload, Option.bind_eq_bind, Option.bind_eq_some_iff, Option.ite_none_right_eq_some,
    Option.some.injEq] at hs
  obtain ⟨⟨request, arrived⟩, hrequest, -, ⟨size, arrived⟩, -, ⟨asked, arrived⟩, -, rfl⟩ := hs
  obtain ⟨t, hn, hidle⟩ := request_eq_some hrequest
  exact .move hn (hidle ▸ .upload size asked) trivial

theorem effect_of_download {n : Nat} (hs : s.download folder n = some s') :
    Effect folder s (.download n) s' := by
  simp only [State.download, Option.bind_eq_bind, Option.bind_eq_some_iff, Option.ite_none_right_eq_some] at hs
  obtain ⟨⟨request, arrived⟩, hrequest, -, hs⟩ := hs
  obtain ⟨t, hn, hidle⟩ := request_eq_some hrequest
  split at hs
  next =>
    obtain rfl := Option.some.inj hs
    exact .move hn (.fail _) trivial
  next filename _ =>
    obtain rfl := Option.some.inj hs
    refine .move hn ?_ trivial
    dsimp only
    split
    · exact .fail _
    · exact hidle ▸ .download filename _

theorem effect_of_other {n : Nat} (hs : s.other n = some s') : Effect folder s (.other n) s' := by
  simp only [State.other, Option.bind_eq_bind, Option.bind_eq_some_iff, Option.ite_none_left_eq_some,
    Option.some.injEq] at hs
  obtain ⟨⟨request, arrived⟩, hrequest, -, rfl⟩ := hs
  obtain ⟨t, hn, hidle⟩ := request_eq_some hrequest
  exact .move hn (hidle ▸ .same _) trivial

theorem effect_of_look {n : Nat} (hs : s.look folder n = some s') : Effect folder s (.look n) s' := by
  simp only [State.look, Option.bind_eq_bind, Option.bind_eq_some_iff] at hs
  obtain ⟨t, hn, hs⟩ := hs
  split at hs
  next size asked loop hnaming =>
    split at hs
    next =>
      obtain rfl := Option.some.inj hs
      exact .move hn (.fail _) trivial
    next Ufname hlook =>
      obtain rfl := Option.some.inj hs
      exact .move hn (hnaming ▸ .chosen hlook) trivial
    next loop' hlook =>
      obtain rfl := Option.some.inj hs
      exact .move hn (hnaming ▸ .next hlook) trivial
  next => cases hs

theorem effect_of_create {n : Nat} (hs : s.create folder n = some s') : Effect folder s (.create n) s' := by
  simp only [State.create, Option.bind_eq_bind, Option.bind_eq_some_iff] at hs
  obtain ⟨t, hn, hs⟩ := hs
  split at hs
  next size asked Ufname hnamed =>
    obtain rfl := Option.some.inj hs
    exact .create hn hnamed
  next => cases hs

theorem effect_of_readFully {n : Nat} (hs : s.readFully n = some s') : Effect folder s (.readFully n) s' := by
  simp only [State.readFully, Option.bind_eq_bind, Option.bind_eq_some_iff] at hs
  obtain ⟨t, hn, hs⟩ := hs
  split at hs
  next size Ufname k hreceiving =>
    simp only [Option.bind_eq_some_iff, Option.some.injEq] at hs
    obtain ⟨⟨buffer, arrived⟩, -, rfl⟩ := hs
    exact .move hn (hreceiving ▸ .readFully size Ufname k buffer) trivial
  next => cases hs

theorem effect_of_write {n size : Nat} (hs : s.write n size = some s') : Effect folder s (.write n size) s' := by
  simp only [State.write, Option.bind_eq_bind, Option.bind_eq_some_iff] at hs
  obtain ⟨t, hn, hs⟩ := hs
  split at hs
  next Ufname k buffer pos hwriting =>
    simp only [Option.bind_eq_some_iff, Option.some.injEq] at hs
    obtain ⟨store, hstore, rfl⟩ := hs
    exact .write hn hwriting hstore
  next => cases hs

theorem effect_of_close {n : Nat} (hs : s.close n = some s') : Effect folder s (.close n) s' := by
  simp only [State.close, Option.bind_eq_bind, Option.bind_eq_some_iff] at hs
  obtain ⟨t, hn, hs⟩ := hs
  split at hs
  next Ufname k buffer pos hwriting =>
    simp only [Option.bind_eq_some_iff, Option.some.injEq, Option.ite_none_right_eq_some] at hs
    obtain ⟨hend, store, hstore, rfl⟩ := hs
    exact .close hn hwriting hend hstore
  next => cases hs

theorem effect_of_read {n : Nat} (hs : s.read folder n = some s') : Effect folder s (.read n) s' := by
  simp only [State.read, Option.bind_eq_bind, Option.bind_eq_some_iff] at hs
  obtain ⟨t, hn, hs⟩ := hs
  split at hs
  next filename length hmeasured =>
    split at hs
    next =>
      obtain rfl := Option.some.inj hs
      exact .move hn (.fail _) trivial
    next content hcontent =>
      split at hs
      next =>
        obtain rfl := Option.some.inj hs
        exact .leaveOpen hn
      next mybytearray rest hread =>
        obtain rfl := Option.some.inj hs
        exact .read hn hmeasured hcontent (isPrefix_of_readFully hread)
  next => cases hs

theorem effect_of_collectOutput {k : Nat} (hs : s.collectOutput k = some s') :
    Effect folder s (.collectOutput k) s' := by
  simp only [State.collectOutput, Option.ite_none_right_eq_some, Option.map_eq_some_iff] at hs
  obtain ⟨hfree, store, hstore, rfl⟩ := hs
  exact .collectOutput (free_of_all hfree) hstore

theorem effect_of_step {e : Event} (hs : s.step folder e = some s') : Effect folder s e s' := by
  cases e with
  | connect =>
    obtain rfl := Option.some.inj hs
    exact .connect
  | arrive n bytes =>
    obtain ⟨t, hn, rfl⟩ := Option.map_eq_some_iff.mp hs
    exact .move hn (.same _) trivial
  | delete n => exact effect_of_delete hs
  | upload n => exact effect_of_upload hs
  | download n => exact effect_of_download hs
  | other n => exact effect_of_other hs
  | look n => exact effect_of_look hs
  | create n => exact effect_of_create hs
  | readFully n => exact effect_of_readFully hs
  | write n size => exact effect_of_write hs
  | close n => exact effect_of_close hs
  | read n => exact effect_of_read hs
  | fail n =>
    obtain ⟨t, hn, rfl⟩ := Option.map_eq_some_iff.mp hs
    exact .move hn (.fail _) trivial
  | collectInput i =>
    obtain rfl := Option.some.inj hs
    exact .collectInput i
  | collectOutput k => exact effect_of_collectOutput hs

end Effects

/-! ## The streams of the threads -/

/-- Every thread has its own stream, which has written what the thread says; what was uploaded, a stream
that is closed has written. -/
structure ServerInv (s : State φ) : Prop where
  covered : s.store.Covered
  holds : ∀ n k Ufname written, s.streamOf n = some (k, Ufname, written) →
    s.store.streams[k]? = some { file := folder.fileOf Ufname, written }
  own : ∀ n m p q, s.streamOf n = some p → s.streamOf m = some q → p.1 = q.1 → n = m
  uploaded : ∀ u ∈ s.uploaded, ∃ stream, s.store.streams[u.k]? = some stream ∧
    stream.file = folder.fileOf u.Ufname ∧ stream.written = u.buffer ∧ stream.status ≠ .writing

/-- What was downloaded is the beginning of what some stream has written. -/
def State.Downloads (s : State φ) : Prop :=
  ∀ d ∈ s.downloaded, ∃ stream ∈ s.store.streams, stream.file = folder.fileOf d.1 ∧ d.2 <+: stream.written

section Invariant

variable {folder} {stored : List (JString × List UInt8)} {s s' : State φ}

theorem streamOf_set_self {n : Nat} {t t' : Thread} (hn : s.threads[n]? = some t)
    (hthreads : s'.threads = s.threads.set n t') : s'.streamOf n = t'.phase.stream := by
  obtain ⟨hlt, -⟩ := List.getElem?_eq_some_iff.mp hn
  rw [State.streamOf, hthreads, List.getElem?_set_self hlt, Option.bind_some]

theorem streamOf_of_ne {n : Nat} {t' : Thread} (hthreads : s'.threads = s.threads.set n t') (m : Nat)
    (hmn : m ≠ n) (p : Nat × JString × List UInt8) (hm : s'.streamOf m = some p) : s.streamOf m = some p := by
  rwa [State.streamOf, hthreads, List.getElem?_set_ne (Ne.symm hmn)] at hm

theorem streamOf_eq {n : Nat} {t : Thread} (hn : s.threads[n]? = some t) : s.streamOf n = t.phase.stream := by
  rw [State.streamOf, hn, Option.bind_some]

/-- The thread that did it has no stream now. -/
theorem not_streamOf {n : Nat} {t t' : Thread} (hn : s.threads[n]? = some t)
    (hthreads : s'.threads = s.threads.set n t') (hnone : t'.phase.stream = none)
    {p : Nat × JString × List UInt8} : s'.streamOf n ≠ some p := by
  rw [streamOf_set_self hn hthreads, hnone]
  nofun

theorem Moves.stream {listed : List JString} {p p' : Phase} (h : Moves listed p p') :
    p'.stream = none ∨ p'.stream = p.stream := by
  cases h with
  | same => exact .inr rfl
  | readFully => exact .inr rfl
  | fail | upload | chosen | next | download => exact .inl rfl

/-- Only streams that were there before. -/
theorem streamOf_of_set {n : Nat} {t t' : Thread} (hn : s.threads[n]? = some t)
    (hthreads : s'.threads = s.threads.set n t')
    (hstream : t'.phase.stream = none ∨ t'.phase.stream = t.phase.stream) (m : Nat) (p : Nat × JString × List UInt8)
    (hm : s'.streamOf m = some p) : s.streamOf m = some p := by
  by_cases hmn : m = n
  · subst hmn
    rw [streamOf_set_self hn hthreads] at hm
    rw [streamOf_eq hn]
    rcases hstream with hnone | hsame
    · rw [hnone] at hm
      cases hm
    · rwa [← hsame]
  · exact streamOf_of_ne hthreads m hmn p hm

/-- There is no such thread. -/
theorem not_streamOf_length {p : Nat × JString × List UInt8} : s.streamOf s.threads.length ≠ some p := by
  rw [State.streamOf, List.getElem?_eq_none (Nat.le_refl _), Option.bind_none]
  nofun

/-- Nothing is done to the files. -/
theorem ServerInv.same (h : ServerInv folder s) (hstore : s'.store = s.store)
    (huploaded : s'.uploaded = s.uploaded) (hstreams : ∀ m p, s'.streamOf m = some p → s.streamOf m = some p) :
    ServerInv folder s' where
  covered := hstore ▸ h.covered
  holds n k Ufname written hn := hstore ▸ h.holds n k Ufname written (hstreams n _ hn)
  own n m p q hn hm := h.own n m p q (hstreams n p hn) (hstreams m q hm)
  uploaded := by
    rw [hstore, huploaded]
    exact h.uploaded

/-- No thread but `n` has stream `k`. -/
def State.NoOther (s : State φ) (n k : Nat) : Prop := ∀ m ≠ n, ∀ p, s.streamOf m = some p → p.1 ≠ k

theorem ServerInv.noOther (h : ServerInv folder s) {n k : Nat} {Ufname : JString} {written : List UInt8}
    (hn : s.streamOf n = some (k, Ufname, written)) : s.NoOther n k := fun m hmn p hm hk =>
  hmn (h.own m n p _ hm hn hk)

theorem apart_create_iff {n : Nat} {t : Thread} {size : Int} {asked Ufname : JString}
    (hn : s.threads[n]? = some t) (hnamed : t.phase = .named size asked Ufname) :
    s.Apart folder (.create n) ↔ s.store.Unwritten (folder.fileOf Ufname) := by
  refine ⟨fun h => h t size asked Ufname hn hnamed, ?_⟩
  intro h t' size' asked' Ufname' hn' hnamed'
  obtain rfl := Option.some.inj (hn.symm.trans hn')
  obtain ⟨-, -, rfl⟩ := Phase.named.inj (hnamed.symm.trans hnamed')
  exact h

theorem apart_write_iff {n size k pos : Nat} {t : Thread} {Ufname : JString} {buffer : List UInt8}
    (hn : s.threads[n]? = some t) (hwriting : t.phase = .writing Ufname k buffer pos) :
    s.Apart folder (.write n size) ↔ (buffer.drop pos).take size = [] ∨ s.store.Sole k := by
  refine ⟨fun h => h t Ufname k buffer pos hn hwriting, ?_⟩
  intro h t' Ufname' k' buffer' pos' hn' hwriting'
  obtain rfl := Option.some.inj (hn.symm.trans hn')
  obtain ⟨-, rfl, rfl, rfl⟩ := Phase.writing.inj (hwriting.symm.trans hwriting')
  exact h

variable (folder) in
/-- What is kept as long as the files are intact. -/
structure IntactInv (s : State φ) : Prop where
  server : ServerInv folder s
  stored : s.store.Intact
  downloads : s.Downloads folder

theorem IntactInv.intact (h : IntactInv folder s) : s.Intact folder where
  stored := h.stored
  uploaded u hu := by
    obtain ⟨stream, hk, hfile, hwritten, -⟩ := h.server.uploaded u hu
    refine ⟨stream, hk, fun hstands => ?_⟩
    rw [← hfile, ← hwritten]
    exact h.stored stream (List.mem_of_getElem? hk) hstands
  downloaded := h.downloads

variable (folder) in
/-- The files that are stored at first are different ones. -/
def Distinct (stored : List (JString × List UInt8)) : Prop := (stored.map fun p => folder.fileOf p.1).Nodup

theorem Distinct.nodup (h : Distinct folder stored) :
    ((stored.map fun p => (folder.fileOf p.1, p.2)).map Prod.fst).Nodup := by
  rwa [List.map_map]

variable [DecidableEq φ]

/-- Something is done to the files; if it is done through a stream, that is no other thread's than `n`'s. -/
theorem ServerInv.files (h : ServerInv folder s) {e : FileEvent φ UInt8}
    (hs : s.store.step 0 e = some s'.store) {n : Nat}
    (hother : ∀ m ≠ n, ∀ p, s'.streamOf m = some p → s.streamOf m = some p)
    (hself : ∀ k Ufname written, s'.streamOf n = some (k, Ufname, written) →
      s'.store.streams[k]? = some { file := folder.fileOf Ufname, written } ∧ s.NoOther n k)
    (hevent : ∀ k, OpenFiles.eventStream e = some k →
      s.NoOther n k ∧ ∃ stream, s.store.streams[k]? = some stream ∧ stream.status = .writing)
    (huploaded : ∀ u ∈ s'.uploaded, u ∈ s.uploaded ∨ ∃ stream, s'.store.streams[u.k]? = some stream ∧
      stream.file = folder.fileOf u.Ufname ∧ stream.written = u.buffer ∧ stream.status ≠ .writing) :
    ServerInv folder s' where
  covered := h.covered.step hs
  holds m k Ufname written hm := by
    by_cases hmn : m = n
    · subst hmn
      exact (hself k Ufname written hm).1
    · have hm := hother m hmn _ hm
      have hk := h.holds m k Ufname written hm
      have hnot : OpenFiles.eventStream e ≠ some k := fun he => (hevent k he).1 m hmn _ hm rfl
      rcases OpenFiles.getElem?_step hs hk hnot with hstays | ⟨hclosed, -⟩
      · exact hstays
      · exact absurd rfl hclosed
  own m m' p q hm hm' hk := by
    by_cases hmn : m = n
    · subst hmn
      by_contra hne
      have hm' := hother m' (Ne.symm hne) q hm'
      exact (hself p.1 p.2.1 p.2.2 hm).2 m' (Ne.symm hne) q hm' hk.symm
    · have hm := hother m hmn p hm
      by_cases hmn' : m' = n
      · subst hmn'
        exact absurd hk ((hself q.1 q.2.1 q.2.2 hm').2 m hmn p hm)
      · exact h.own m m' p q hm (hother m' hmn' q hm') hk
  uploaded u hu := by
    rcases huploaded u hu with hu | hu
    · obtain ⟨stream, hk, hfile, hwritten, hstatus⟩ := h.uploaded u hu
      have hnot : OpenFiles.eventStream e ≠ some u.k := by
        intro he
        obtain ⟨-, stream', hk', hwriting⟩ := hevent u.k he
        obtain rfl := Option.some.inj (hk.symm.trans hk')
        exact hstatus hwriting
      rcases OpenFiles.getElem?_step hs hk hnot with hstays | ⟨-, hremoved⟩
      · exact ⟨stream, hstays, hfile, hwritten, hstatus⟩
      · exact ⟨_, hremoved, hfile, hwritten, by simp⟩
    · exact hu

/-- Something is done to the files, but through no stream. -/
theorem ServerInv.noStream (h : ServerInv folder s) {e : FileEvent φ UInt8}
    (hs : s.store.step 0 e = some s'.store) (he : OpenFiles.eventStream e = none)
    (huploaded : s'.uploaded = s.uploaded) (hstreams : ∀ m p, s'.streamOf m = some p → s.streamOf m = some p) :
    ServerInv folder s' := by
  refine h.files hs (n := s'.threads.length) (fun m _ => hstreams m) ?_ ?_ fun u hu => .inl (huploaded ▸ hu)
  · exact fun k Ufname written hk => absurd hk not_streamOf_length
  · intro k hk
    cases he.symm.trans hk

theorem ServerInv.start (stored : List (JString × List UInt8)) :
    ServerInv folder (serverMachine folder stored).init where
  covered := OpenFiles.covered_ofList
  holds n k Ufname written hn := by cases hn
  own n m p q hn := by cases hn
  uploaded u hu := by cases hu

theorem ServerInv.step (h : ServerInv folder s) {e : Event} (hs : s.step folder e = some s') :
    ServerInv folder s' := by
  cases effect_of_step hs with
  | connect =>
    refine h.same rfl rfl fun m p hm => ?_
    rcases Nat.lt_or_ge m s.threads.length with hlt | hge
    · rwa [State.streamOf, List.getElem?_append_left hlt] at hm
    · obtain ⟨t, ht, hp⟩ := Option.bind_eq_some_iff.mp hm
      rw [List.getElem?_append_right hge] at ht
      obtain rfl := List.mem_singleton.mp (List.mem_of_getElem? ht)
      cases hp
  | move hn hmoves hapart => exact h.same rfl rfl (streamOf_of_set hn rfl hmoves.stream)
  | @delete n t arrived name hn hidle =>
    exact h.noStream (e := .delete (folder.fileOf name)) rfl rfl rfl (streamOf_of_set hn rfl (.inl rfl))
  | @create n t size asked Ufname hn hnamed =>
    refine h.files (e := .create (folder.fileOf Ufname)) rfl (streamOf_of_ne rfl) ?_
      (fun k hk => by cases hk) fun u hu => .inl hu
    intro k name written hk
    rw [streamOf_set_self hn rfl] at hk
    cases hk
    refine ⟨by simp [OpenFiles.create], ?_⟩
    intro m _ p hm hlast
    have hlt := h.holds m p.1 p.2.1 p.2.2 hm
    rw [hlast, List.getElem?_eq_none (Nat.le_refl _)] at hlt
    cases hlt
  | @write n size t Ufname k buffer pos store hn hwriting hstore =>
    have hk : s.streamOf n = some (k, Ufname, buffer.take pos) := by rw [streamOf_eq hn, hwriting, Phase.stream]
    refine h.files (e := .write k _) hstore (streamOf_of_ne rfl) ?_ ?_
      fun u hu => .inl hu
    · intro k' name written hk'
      rw [streamOf_set_self hn rfl] at hk'
      cases hk'
      refine ⟨?_, h.noOther hk⟩
      obtain ⟨stream, content, hstream, -, -, rfl⟩ := OpenFiles.write_eq_some hstore
      obtain rfl := Option.some.inj (hstream.symm.trans (h.holds n k Ufname _ hk))
      obtain ⟨hlt, -⟩ := List.getElem?_eq_some_iff.mp hstream
      rw [OpenFiles.put_streams, List.getElem?_set_self hlt, OutputStream.append, ← List.take_add]
    · intro k' hk'
      obtain rfl := Option.some.inj hk'
      exact ⟨h.noOther hk, _, h.holds n k Ufname _ hk, rfl⟩
  | @close n t Ufname k buffer pos store hn hwriting hend hstore =>
    have hk : s.streamOf n = some (k, Ufname, buffer.take pos) := by rw [streamOf_eq hn, hwriting, Phase.stream]
    refine h.files (e := .close k) hstore (streamOf_of_ne rfl)
      (fun _ _ _ hk' => absurd hk' (not_streamOf hn rfl rfl)) ?_ fun u hu => ?_
    · intro k' hk'
      obtain rfl := Option.some.inj hk'
      exact ⟨h.noOther hk, _, h.holds n k Ufname _ hk, rfl⟩
    · rcases List.mem_append.mp hu with hu | hu
      · exact .inl hu
      · obtain rfl := List.mem_singleton.mp hu
        obtain ⟨stream, hstream, -, rfl⟩ := OpenFiles.close_eq_some hstore
        obtain rfl := Option.some.inj (hstream.symm.trans (h.holds n k Ufname _ hk))
        obtain ⟨hlt, -⟩ := List.getElem?_eq_some_iff.mp hstream
        exact .inr ⟨_, List.getElem?_set_self hlt, rfl, List.take_of_length_le hend, by simp⟩
  | @read n t filename length content data hn hmeasured hcontent hdata =>
    exact h.noStream (e := .openRead (folder.fileOf filename)) rfl rfl rfl (streamOf_of_set hn rfl (.inl rfl))
  | @leaveOpen n t file hn =>
    exact h.noStream (e := .openRead file) rfl rfl rfl (streamOf_of_set hn rfl (.inl rfl))
  | collectInput i => exact h.noStream (e := .release i) rfl rfl rfl fun m p hm => hm
  | @collectOutput k store hfree hstore =>
    refine h.files (e := .close k) (n := s.threads.length) hstore (fun m _ p hm => hm)
      (fun _ _ _ hk => absurd hk not_streamOf_length) ?_ fun u hu => .inl hu
    intro k' hk'
    obtain rfl := Option.some.inj hk'
    obtain ⟨stream, hstream, hwriting, -⟩ := OpenFiles.close_eq_some hstore
    exact ⟨fun m _ p hm => hfree m p hm, stream, hstream, hwriting⟩

/-- The files stay as they are, or something is done to them that is apart exactly when the event is. -/
theorem store_of_step {e : Event} (hs : s.step folder e = some s') :
    s'.store = s.store ∧ s.Apart folder e ∨
      ∃ e', s.store.step 0 e' = some s'.store ∧ (s.Apart folder e ↔ s.store.Apart e') := by
  cases effect_of_step hs with
  | connect => exact .inl ⟨rfl, trivial⟩
  | move hn hmoves hapart => exact .inl ⟨rfl, hapart⟩
  | @read n t filename => exact .inr ⟨.openRead (folder.fileOf filename), rfl, Iff.rfl⟩
  | @leaveOpen n t file => exact .inr ⟨.openRead file, rfl, Iff.rfl⟩
  | collectInput i => exact .inr ⟨.release i, rfl, Iff.rfl⟩
  | @collectOutput k store hfree hstore => exact .inr ⟨.close k, hstore, Iff.rfl⟩
  | @delete n t arrived name => exact .inr ⟨.delete (folder.fileOf name), rfl, Iff.rfl⟩
  | @create n t size asked Ufname hn hnamed =>
    exact .inr ⟨.create (folder.fileOf Ufname), rfl, apart_create_iff hn hnamed⟩
  | @write n size t Ufname k buffer pos store hn hwriting hstore =>
    exact .inr ⟨.write k _, hstore, apart_write_iff hn hwriting⟩
  | @close n t Ufname k buffer pos store hn hwriting hend hstore => exact .inr ⟨.close k, hstore, Iff.rfl⟩

theorem store_intact_iff (h : s.store.Intact) {e : Event} (hs : s.step folder e = some s') :
    s'.store.Intact ↔ s.Apart folder e := by
  rcases store_of_step hs with ⟨hsame, hapart⟩ | ⟨e', hstore, hiff⟩
  · exact iff_of_true (hsame ▸ h) hapart
  · rw [hiff]
    exact OpenFiles.intact_step_iff h hstore

/-- Streams are not forgotten, and what they have written stays. -/
theorem written_of_step {e : Event} (hs : s.step folder e = some s') {file : φ} {data : List UInt8}
    (h : ∃ stream ∈ s.store.streams, stream.file = file ∧ data <+: stream.written) :
    ∃ stream ∈ s'.store.streams, stream.file = file ∧ data <+: stream.written := by
  rcases store_of_step hs with ⟨hsame, -⟩ | ⟨e', hstore, -⟩
  · exact hsame ▸ h
  · obtain ⟨stream, hm, hfile, hdata⟩ := h
    obtain ⟨k, hk⟩ := List.mem_iff_getElem?.mp hm
    obtain ⟨stream', hk', hfile', hwritten⟩ := OpenFiles.getElem?_step_continues hstore hk
    exact ⟨stream', List.mem_of_getElem? hk', hfile'.trans hfile, hdata.trans hwritten⟩

theorem downloads_step (h : s.Downloads folder) (hcovered : s.store.Covered) (hintact : s.store.Intact)
    {e : Event} (hs : s.step folder e = some s') : s'.Downloads folder := by
  intro d hd
  have hwritten : ∃ stream ∈ s.store.streams, stream.file = folder.fileOf d.1 ∧ d.2 <+: stream.written := by
    cases effect_of_step hs with
    | connect | move | delete | create | write | close | leaveOpen | collectInput | collectOutput => exact h d hd
    | @read n t filename length content data hn hmeasured hcontent hdata =>
      rcases List.mem_append.mp hd with hd | hd
      · exact h d hd
      · obtain rfl := List.mem_singleton.mp hd
        obtain ⟨stream, hm, hfile, hstands⟩ := hcovered _ content hcontent
        have hsame := hintact stream hm hstands
        rw [hfile, hcontent, Option.some.injEq] at hsame
        exact ⟨stream, hm, hfile, hsame ▸ hdata⟩
  exact written_of_step hs hwritten

theorem IntactInv.step (h : IntactInv folder s) {e : Event} (hs : s.step folder e = some s')
    (he : s.Apart folder e) : IntactInv folder s' where
  server := h.server.step hs
  stored := (store_intact_iff h.stored hs).mpr he
  downloads := downloads_step h.downloads h.server.covered h.stored hs

theorem IntactInv.start (hstored : Distinct folder stored) :
    IntactInv folder (serverMachine folder stored).init where
  server := .start stored
  stored := OpenFiles.intact_ofList hstored.nodup
  downloads d hd := by cases hd

end Invariant

variable [DecidableEq φ]

/-- **Uploads at the same time.** In a run the files are at every moment as they were uploaded exactly when, in
every step, no thread makes a file that another has written to, or writes to a file that is another's too. -/
theorem intact_iff {stored : List (JString × List UInt8)} (hstored : Distinct folder stored) (es : List Event) :
    (serverMachine folder stored).Along (fun _ _ s' => s'.Intact folder) (serverMachine folder stored).init es ↔
      (serverMachine folder stored).Along (fun s e _ => s.Apart folder e)
        (serverMachine folder stored).init es := by
  refine Machine.along_congr (I := IntactInv folder) ?_ (fun _ _ _ h hs he => h.step hs he) (.start hstored)
  intro s e s' h hs
  exact ⟨fun h' => (store_intact_iff h.stored hs).mp h'.stored, fun he => (h.step hs he).intact⟩

/-- What a client writes for the upload of a file. -/
def uploadBytes (name : JString) (data : List UInt8) : List UInt8 :=
  utf.enc (jstring "upload " ++ name) ++ (writeInt data.length ++ (utf.enc name ++ data))

def lowerCase (c : JChar) : JChar := if jchar 'A' ≤ c ∧ c ≤ jchar 'Z' then c + 32 else c

/-- A system that does not tell upper case from lower. -/
def caseless : Folder JString where
  fileOf name := name.map lowerCase
  inside file := file.all fun c => c ≠ jchar '/' ∧ c ≠ jchar '\\'
  shown name := name
  listFiles names := names

def justA : List (JString × List UInt8) := [(jstring "a.txt", [5])]

theorem distinct_justA : Distinct caseless justA := by
  unfold Distinct
  decide

/-- One client uploads `b.txt`; when the file is made, another uploads `B.txt`, which no file is listed by. -/
def sameFile : List Event :=
  [.connect, .connect, .arrive 0 (uploadBytes (jstring "b.txt") [1, 2, 3]),
    .arrive 1 (uploadBytes (jstring "B.txt") [7, 8]), .upload 0, .look 0, .look 0, .create 0, .upload 1,
    .look 1, .look 1, .look 1, .readFully 0, .write 0 2, .create 1, .readFully 1, .write 1 2, .close 1,
    .write 0 5, .close 0]

/-- The file has the bytes of the one, and then the rest of the other. -/
theorem intact_iff_sameFile : ∃ s,
    (serverMachine caseless justA).exec (serverMachine caseless justA).init sameFile = some s ∧
      s.listed caseless = [jstring "a.txt", jstring "b.txt"] ∧
      s.store.files (jstring "b.txt") = some [7, 8, 3] ∧
      ¬ (serverMachine caseless justA).Along (fun s e _ => s.Apart caseless e)
        (serverMachine caseless justA).init sameFile := by
  have htest : (((serverMachine caseless justA).exec (serverMachine caseless justA).init sameFile).any fun s =>
      s.listed caseless = [jstring "a.txt", jstring "b.txt"] ∧
        s.store.files (jstring "b.txt") = some [7, 8, 3] ∧
          ∃ stream ∈ s.store.streams, stream.Stands ∧
            s.store.files stream.file ≠ some stream.written) = true := by
    decide +kernel
  obtain ⟨s, hs, htest⟩ := (Option.any_eq_true _ _).mp htest
  obtain ⟨hlisted, hfile, stream, hm, hstands, hother⟩ := of_decide_eq_true htest
  refine ⟨s, hs, hlisted, hfile, fun hapart => hother ?_⟩
  have halong := (intact_iff caseless distinct_justA sameFile).mpr hapart
  have hintact : s.Intact caseless := halong.final (IntactInv.start distinct_justA).intact hs
  exact hintact.stored stream hm hstands

end Sockets.Ftp.Shared
