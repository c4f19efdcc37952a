/-
Files that several output streams write, and input streams read. Creating an
output stream empties its file, or makes it; it writes where it stands itself,
whatever other streams have done to the file; and a file that a stream has
open, to write it or to read it, is not deleted.

A file is intact as long as it is what its stream has written. The files stay
so exactly as long as no stream is created on a file that another has written
to, and none writes to a file that is another's too (`intact_step_iff`); if
every stream is created on a file that is not there, that never happens
(`Owned.apart`).
-/
import Mathlib.Data.List.Dedup
import Mathlib.Logic.Function.Basic

namespace Sockets

inductive StreamStatus
  | writing
  | closed
  /-- the file has been deleted since -/
  | removed
deriving DecidableEq

/-- A stream, with what it has written so far. -/
structure OutputStream (κ α : Type) where
  file : κ
  written : List α := []
  status : StreamStatus := .writing

/-- The contents of the files, all the output streams there have been, and the files that input streams
have open. -/
structure OpenFiles (κ α : Type) where
  files : κ → Option (List α)
  streams : List (OutputStream κ α)
  readers : List κ := []

inductive FileEvent (κ α : Type)
  | create (name : κ)
  | write (k : Nat) (chunk : List α)
  | close (k : Nat)
  | delete (name : κ)
  /-- an input stream opens the file -/
  | openRead (name : κ)
  /-- the `i`-th input stream is closed -/
  | release (i : Nat)

variable {κ α : Type}

/-- Contents after `chunk` is written at a position; what lies between is filled. -/
def writeAt (fill : α) (content : List α) (pos : Nat) (chunk : List α) : List α :=
  content.take pos ++ List.replicate (pos - content.length) fill ++ chunk ++ content.drop (pos + chunk.length)

theorem writeAt_length (fill : α) (content chunk : List α) :
    writeAt fill content content.length chunk = content ++ chunk := by
  simp [writeAt]

def OutputStream.Stands (stream : OutputStream κ α) : Prop := stream.status ≠ .removed

instance (stream : OutputStream κ α) : Decidable stream.Stands := by
  unfold OutputStream.Stands
  infer_instance

def OutputStream.append (stream : OutputStream κ α) (chunk : List α) : OutputStream κ α :=
  { stream with written := stream.written ++ chunk }

/-- The file, if it is there. -/
def OutputStream.place (stream : OutputStream κ α) : Option κ :=
  if stream.Stands then some stream.file else none

theorem OutputStream.stands_of_writing {stream : OutputStream κ α} (h : stream.status = .writing) :
    stream.Stands := by
  rw [Stands, h]
  decide

namespace OpenFiles

section Steps

variable [DecidableEq κ]

/-- The files that are there at first, as if streams had written them. -/
def ofList (stored : List (κ × List α)) : OpenFiles κ α where
  files name := stored.lookup name
  streams := stored.map fun (file, written) => { file, written, status := .closed }

def create (s : OpenFiles κ α) (name : κ) : OpenFiles κ α where
  files := Function.update s.files name (some [])
  streams := s.streams ++ [{ file := name }]
  readers := s.readers

/-- Stream `k` after it has written, and what is in its file then. -/
def put (s : OpenFiles κ α) (k : Nat) (stream : OutputStream κ α) (content : List α) : OpenFiles κ α where
  files := Function.update s.files stream.file (some content)
  streams := s.streams.set k stream
  readers := s.readers

def write (fill : α) (s : OpenFiles κ α) (k : Nat) (chunk : List α) : Option (OpenFiles κ α) := do
  let stream ← s.streams[k]?
  let content ← s.files stream.file
  if stream.status = .writing then
    some (s.put k (stream.append chunk) (writeAt fill content stream.written.length chunk))
  else none

def close (s : OpenFiles κ α) (k : Nat) : Option (OpenFiles κ α) := do
  let stream ← s.streams[k]?
  if stream.status = .writing then some { s with streams := s.streams.set k { stream with status := .closed } }
  else none

/-- A stream has the file open. -/
def IsOpen (s : OpenFiles κ α) (name : κ) : Prop :=
  (∃ stream ∈ s.streams, stream.file = name ∧ stream.status = .writing) ∨ name ∈ s.readers

instance (s : OpenFiles κ α) (name : κ) : Decidable (s.IsOpen name) := by
  unfold IsOpen
  infer_instance

/-- A stream when the file `name` has been deleted. -/
def removed (name : κ) (stream : OutputStream κ α) : OutputStream κ α :=
  if stream.file = name then { stream with status := .removed } else stream

def remove (s : OpenFiles κ α) (name : κ) : OpenFiles κ α where
  files := Function.update s.files name none
  streams := s.streams.map (removed name)
  readers := s.readers

def delete (s : OpenFiles κ α) (name : κ) : OpenFiles κ α := if s.IsOpen name then s else s.remove name

def openRead (s : OpenFiles κ α) (name : κ) : OpenFiles κ α := { s with readers := s.readers ++ [name] }

def release (s : OpenFiles κ α) (i : Nat) : OpenFiles κ α := { s with readers := s.readers.eraseIdx i }

def step (fill : α) (s : OpenFiles κ α) : FileEvent κ α → Option (OpenFiles κ α)
  | .create name => some (s.create name)
  | .write k chunk => s.write fill k chunk
  | .close k => s.close k
  | .delete name => some (s.delete name)
  | .openRead name => some (s.openRead name)
  | .release i => some (s.release i)

end Steps

/-! ## Intact files -/

/-- Every file is what its stream has written, until it is deleted. -/
def Intact (s : OpenFiles κ α) : Prop :=
  ∀ stream ∈ s.streams, stream.Stands → s.files stream.file = some stream.written

/-- Nothing that has been written to the file is still there. -/
def Unwritten (s : OpenFiles κ α) (name : κ) : Prop :=
  ∀ stream ∈ s.streams, stream.file = name → stream.Stands → stream.written = []

/-- The file of stream `k` is no other's. -/
def Sole (s : OpenFiles κ α) (k : Nat) : Prop :=
  ∀ j other stream, s.streams[j]? = some other → s.streams[k]? = some stream → other.file = stream.file →
    other.Stands → j = k

/-- The event does nothing to what another stream has written. -/
def Apart (s : OpenFiles κ α) : FileEvent κ α → Prop
  | .create name => s.Unwritten name
  | .write k chunk => chunk = [] ∨ s.Sole k
  | .close _ | .delete _ | .openRead _ | .release _ => True

variable {s s' : OpenFiles κ α} {fill : α}

@[simp] theorem put_streams [DecidableEq κ] (s : OpenFiles κ α) (k : Nat) (stream : OutputStream κ α)
    (content : List α) : (s.put k stream content).streams = s.streams.set k stream := rfl

theorem close_eq_some {k : Nat} (hs : s.close k = some s') :
    ∃ stream, s.streams[k]? = some stream ∧ stream.status = .writing ∧
      s' = { s with streams := s.streams.set k { stream with status := .closed } } := by
  simp only [close, Option.bind_eq_bind, Option.bind_eq_some_iff, Option.ite_none_right_eq_some,
    Option.some.injEq] at hs
  obtain ⟨stream, hk, hwriting, rfl⟩ := hs
  exact ⟨stream, hk, hwriting, rfl⟩

theorem Intact.close (h : s.Intact) {k : Nat} (hs : s.close k = some s') : s'.Intact := by
  obtain ⟨stream, hk, hwriting, rfl⟩ := close_eq_some hs
  intro other hm hstands
  rcases List.mem_or_eq_of_mem_set hm with hm | rfl
  · exact h other hm hstands
  · exact h stream (List.mem_of_getElem? hk) (OutputStream.stands_of_writing hwriting)

variable [DecidableEq κ]

theorem write_eq_some {k : Nat} {chunk : List α} (hs : s.write fill k chunk = some s') :
    ∃ stream content, s.streams[k]? = some stream ∧ s.files stream.file = some content ∧
      stream.status = .writing ∧
      s' = s.put k (stream.append chunk) (writeAt fill content stream.written.length chunk) := by
  simp only [write, Option.bind_eq_bind, Option.bind_eq_some_iff, Option.ite_none_right_eq_some,
    Option.some.injEq] at hs
  obtain ⟨stream, hk, content, hcontent, hwriting, rfl⟩ := hs
  exact ⟨stream, content, hk, hcontent, hwriting, rfl⟩

theorem files_create_self (s : OpenFiles κ α) (name : κ) : (s.create name).files name = some [] :=
  Function.update_self ..

theorem files_create_of_ne {name other : κ} (h : other ≠ name) (s : OpenFiles κ α) :
    (s.create name).files other = s.files other := Function.update_of_ne h ..

theorem files_put_self (s : OpenFiles κ α) (k : Nat) (stream : OutputStream κ α) (content : List α) :
    (s.put k stream content).files stream.file = some content := Function.update_self ..

theorem files_put_of_ne {stream : OutputStream κ α} {other : κ} (h : other ≠ stream.file) (s : OpenFiles κ α)
    (k : Nat) (content : List α) : (s.put k stream content).files other = s.files other :=
  Function.update_of_ne h ..

theorem files_remove_self (s : OpenFiles κ α) (name : κ) : (s.remove name).files name = none :=
  Function.update_self ..

theorem files_remove_of_ne {name other : κ} (h : other ≠ name) (s : OpenFiles κ α) :
    (s.remove name).files other = s.files other := Function.update_of_ne h ..

theorem removed_stands {name : κ} {stream : OutputStream κ α} (h : (removed name stream).Stands) :
    stream.file ≠ name ∧ removed name stream = stream := by
  rw [removed] at h ⊢
  split at h
  · exact absurd rfl h
  next hfile => exact ⟨hfile, if_neg hfile⟩

theorem intact_create_iff (h : s.Intact) (name : κ) : (s.create name).Intact ↔ s.Unwritten name := by
  constructor
  · intro h' stream hm hfile hstands
    have hcontent := h' stream (List.mem_append_left _ hm) hstands
    rw [hfile, files_create_self] at hcontent
    exact (Option.some.inj hcontent).symm
  · intro hfree stream hm hstands
    rcases List.mem_append.mp hm with hm | hm
    · by_cases hfile : stream.file = name
      · rw [hfile, files_create_self, hfree stream hm hfile hstands]
      · rw [files_create_of_ne hfile]
        exact h stream hm hstands
    · rw [List.mem_singleton.mp hm, files_create_self]

/-- A stream whose file is intact appends to it. -/
theorem write_intact (h : s.Intact) {k : Nat} {chunk : List α} (hs : s.write fill k chunk = some s') :
    ∃ stream, s.streams[k]? = some stream ∧ s.files stream.file = some stream.written ∧
      s' = s.put k (stream.append chunk) (stream.append chunk).written := by
  obtain ⟨stream, content, hk, hcontent, hwriting, rfl⟩ := write_eq_some hs
  have hwhole := h stream (List.mem_of_getElem? hk) (OutputStream.stands_of_writing hwriting)
  obtain rfl : stream.written = content := Option.some.inj (hwhole.symm.trans hcontent)
  exact ⟨stream, hk, hwhole, by rw [writeAt_length, OutputStream.append]⟩

theorem intact_write_iff (h : s.Intact) {k : Nat} {chunk : List α} (hs : s.write fill k chunk = some s') :
    s'.Intact ↔ chunk = [] ∨ s.Sole k := by
  obtain ⟨stream, hk, hwhole, rfl⟩ := write_intact h hs
  obtain ⟨hlt, -⟩ := List.getElem?_eq_some_iff.mp hk
  constructor
  · intro h'
    by_cases hchunk : chunk = []
    · exact .inl hchunk
    · refine .inr fun j other stream' hj hk' hfile hstands => ?_
      obtain rfl := Option.some.inj (hk'.symm.trans hk)
      -- another stream has written the same up to now, but not what is written now
      by_contra hne
      have hbefore := h other (List.mem_of_getElem? hj) hstands
      rw [hfile, hwhole, Option.some.injEq] at hbefore
      have hj' : (s.put k (stream'.append chunk) (stream'.append chunk).written).streams[j]? = some other := by
        rw [put_streams, List.getElem?_set_ne (Ne.symm hne), hj]
      have hafter := h' other (List.mem_of_getElem? hj') hstands
      rw [hfile] at hafter
      have hsame := Option.some.inj ((files_put_self s k (stream'.append chunk) _).symm.trans hafter)
      rw [← hbefore] at hsame
      exact hchunk (List.append_right_eq_self.mp hsame)
  · intro hsole other hm hstands
    obtain ⟨j, hj⟩ := List.mem_iff_getElem?.mp hm
    rw [put_streams] at hj
    by_cases hne : j = k
    · subst hne
      rw [List.getElem?_set_self hlt] at hj
      rw [← Option.some.inj hj, files_put_self]
    · rw [List.getElem?_set_ne (Ne.symm hne)] at hj
      have hother := h other (List.mem_of_getElem? hj) hstands
      by_cases hfile : other.file = stream.file
      · rcases hsole with hchunk | hsole
        · have hsame : stream.append chunk = stream := by rw [OutputStream.append, hchunk, List.append_nil]
          rw [hsame, hfile, files_put_self, ← hwhole, ← hfile, hother]
        · exact absurd (hsole j other stream hj hk hfile hstands) hne
      · have hfile : other.file ≠ (stream.append chunk).file := hfile
        rw [files_put_of_ne hfile]
        exact hother

theorem Intact.delete (h : s.Intact) (name : κ) : (s.delete name).Intact := by
  rw [OpenFiles.delete]
  split
  · exact h
  · intro stream' hm hstands
    obtain ⟨stream, hmem, rfl⟩ := List.mem_map.mp hm
    obtain ⟨hfile, hsame⟩ := removed_stands hstands
    rw [hsame] at hstands ⊢
    rw [files_remove_of_ne hfile]
    exact h stream hmem hstands

/-- **Intact files.** One step keeps them intact exactly when it does nothing to what another stream
has written. -/
theorem intact_step_iff (h : s.Intact) {e : FileEvent κ α} (hs : s.step fill e = some s') :
    s'.Intact ↔ s.Apart e := by
  cases e with
  | create name =>
    obtain rfl := Option.some.inj hs
    exact intact_create_iff h name
  | write k chunk => exact intact_write_iff h hs
  | close k => exact iff_of_true (h.close hs) trivial
  | delete name =>
    obtain rfl := Option.some.inj hs
    exact iff_of_true (h.delete name) trivial
  | openRead name | release i =>
    obtain rfl := Option.some.inj hs
    exact iff_of_true h trivial

/-! ## What there is, whatever happens -/

/-- The stream an event is an action of. -/
def eventStream : FileEvent κ α → Option Nat
  | .write k _ | .close k => some k
  | .create _ | .delete _ | .openRead _ | .release _ => none

/-- Other streams stay as they are, unless they are closed and their file is deleted. -/
theorem getElem?_step {e : FileEvent κ α} (hs : s.step fill e = some s') {k : Nat} {stream : OutputStream κ α}
    (hk : s.streams[k]? = some stream) (he : eventStream e ≠ some k) : s'.streams[k]? = some stream ∨
      stream.status ≠ .writing ∧ s'.streams[k]? = some { stream with status := .removed } := by
  cases e with
  | create name =>
    obtain rfl := Option.some.inj hs
    obtain ⟨hlt, -⟩ := List.getElem?_eq_some_iff.mp hk
    exact .inl ((List.getElem?_append_left hlt).trans hk)
  | write j chunk =>
    obtain ⟨other, content, -, -, -, rfl⟩ := write_eq_some hs
    exact .inl ((List.getElem?_set_ne fun hjk => he (congrArg some hjk)).trans hk)
  | close j =>
    obtain ⟨other, -, -, rfl⟩ := close_eq_some hs
    exact .inl ((List.getElem?_set_ne fun hjk => he (congrArg some hjk)).trans hk)
  | delete name =>
    obtain rfl := Option.some.inj hs
    rw [delete]
    split
    · exact .inl hk
    next hclosed =>
      have hmap : (s.remove name).streams[k]? = some (removed name stream) := by
        rw [remove, List.getElem?_map, hk, Option.map_some]
      rw [hmap, removed]
      split
      next hfile =>
        exact .inr ⟨fun hwriting => hclosed (.inl ⟨stream, List.mem_of_getElem? hk, hfile, hwriting⟩), rfl⟩
      next => exact .inl rfl
  | openRead name | release i =>
    obtain rfl := Option.some.inj hs
    exact .inl hk

/-- A stream stays on its file, and what it has written stays at the front. -/
theorem getElem?_step_continues {e : FileEvent κ α} (hs : s.step fill e = some s') {k : Nat}
    {stream : OutputStream κ α} (hk : s.streams[k]? = some stream) :
    ∃ stream', s'.streams[k]? = some stream' ∧ stream'.file = stream.file ∧
      stream.written <+: stream'.written := by
  by_cases he : eventStream e = some k
  · obtain ⟨hlt, -⟩ := List.getElem?_eq_some_iff.mp hk
    cases e with
    | create name | delete name | openRead name | release i => cases he
    | write j chunk =>
      obtain rfl := Option.some.inj he
      obtain ⟨other, content, hj, -, -, rfl⟩ := write_eq_some hs
      obtain rfl := Option.some.inj (hj.symm.trans hk)
      exact ⟨_, List.getElem?_set_self hlt, rfl, List.prefix_append _ _⟩
    | close j =>
      obtain rfl := Option.some.inj he
      obtain ⟨other, hj, -, rfl⟩ := close_eq_some hs
      obtain rfl := Option.some.inj (hj.symm.trans hk)
      exact ⟨_, List.getElem?_set_self hlt, rfl, List.prefix_rfl⟩
  · rcases getElem?_step hs hk he with h | ⟨-, h⟩
    · exact ⟨stream, h, rfl, List.prefix_rfl⟩
    · exact ⟨_, h, rfl, List.prefix_rfl⟩

/-- Every file that is there has a stream. -/
def Covered (s : OpenFiles κ α) : Prop :=
  ∀ name content, s.files name = some content → ∃ stream ∈ s.streams, stream.file = name ∧ stream.Stands

omit [DecidableEq κ] in
theorem Covered.set (h : s.Covered) {k : Nat} {stream : OutputStream κ α} (hk : s.streams[k]? = some stream)
    (stream' : OutputStream κ α) (hfile : stream'.file = stream.file) (hstands : stream'.Stands) (name : κ)
    (hname : ∃ content, s.files name = some content) :
    ∃ other ∈ s.streams.set k stream', other.file = name ∧ other.Stands := by
  obtain ⟨content, hcontent⟩ := hname
  obtain ⟨other, hm, hother, hothers⟩ := h name content hcontent
  obtain ⟨j, hj⟩ := List.mem_iff_getElem?.mp hm
  obtain ⟨hlt, -⟩ := List.getElem?_eq_some_iff.mp hk
  by_cases hjk : j = k
  · subst hjk
    obtain rfl := Option.some.inj (hj.symm.trans hk)
    exact ⟨stream', List.mem_set hlt stream', hfile.trans hother, hstands⟩
  · exact ⟨other, List.mem_of_getElem? ((List.getElem?_set_ne (Ne.symm hjk)).trans hj), hother, hothers⟩

theorem Covered.step (h : s.Covered) {e : FileEvent κ α} (hs : s.step fill e = some s') : s'.Covered := by
  intro name content hcontent
  cases e with
  | create created =>
    obtain rfl := Option.some.inj hs
    by_cases hname : name = created
    · exact ⟨{ file := created }, by simp [create], hname.symm, OutputStream.stands_of_writing rfl⟩
    · rw [files_create_of_ne hname] at hcontent
      obtain ⟨stream, hm, hstream⟩ := h name content hcontent
      exact ⟨stream, List.mem_append_left _ hm, hstream⟩
  | write k chunk =>
    obtain ⟨stream, before, hk, hbefore, hwriting, rfl⟩ := write_eq_some hs
    refine h.set hk (stream.append chunk) rfl (OutputStream.stands_of_writing hwriting) name ?_
    by_cases hname : name = stream.file
    · exact ⟨before, hname ▸ hbefore⟩
    · have hname : name ≠ (stream.append chunk).file := hname
      rw [files_put_of_ne hname] at hcontent
      exact ⟨content, hcontent⟩
  | close k =>
    obtain ⟨stream, hk, -, rfl⟩ := close_eq_some hs
    have hstands : OutputStream.Stands { stream with status := .closed } := by simp [OutputStream.Stands]
    exact h.set hk { stream with status := .closed } rfl hstands name ⟨content, hcontent⟩
  | delete deleted =>
    obtain rfl := Option.some.inj hs
    rw [delete] at hcontent ⊢
    split at hcontent
    next hopen =>
      rw [if_pos hopen]
      exact h name content hcontent
    next hclosed =>
      rw [if_neg hclosed]
      have hname : name ≠ deleted := by
        rintro rfl
        rw [files_remove_self] at hcontent
        cases hcontent
      rw [files_remove_of_ne hname] at hcontent
      obtain ⟨stream, hm, hfile, hstands⟩ := h name content hcontent
      have hsame : removed deleted stream = stream := if_neg fun hsame => hname (hfile.symm.trans hsame)
      exact ⟨stream, hsame ▸ List.mem_map_of_mem hm, hfile, hstands⟩
  | openRead name | release i =>
    obtain rfl := Option.some.inj hs
    exact h _ content hcontent

/-! ## A file for each stream -/

/-- Every file that is there is one stream's alone. -/
def Owned (s : OpenFiles κ α) : Prop :=
  ∀ k stream, s.streams[k]? = some stream → stream.Stands → s.Sole k

/-- The names of the files that are there. -/
def names (s : OpenFiles κ α) : List κ := (s.streams.filterMap OutputStream.place).dedup

/-- What is created is not there. -/
def Fresh (s : OpenFiles κ α) : FileEvent κ α → Prop
  | .create name => name ∉ s.names
  | .write .. | .close _ | .delete _ | .openRead _ | .release _ => True

theorem mem_names {name : κ} : name ∈ s.names ↔ ∃ stream ∈ s.streams, stream.Stands ∧ stream.file = name := by
  simp [names, OutputStream.place]

theorem Intact.notMem_names (h : s.Intact) {name : κ} (hnone : s.files name = none) : name ∉ s.names := by
  intro hname
  obtain ⟨stream, hm, hstands, rfl⟩ := mem_names.mp hname
  cases hnone.symm.trans (h stream hm hstands)

theorem names_set {k : Nat} {stream : OutputStream κ α} (hk : s.streams[k]? = some stream)
    (stream' : OutputStream κ α) (hplace : stream'.place = stream.place)
    (hs : s'.streams = s.streams.set k stream') : s'.names = s.names := by
  obtain ⟨hlt, rfl⟩ := List.getElem?_eq_some_iff.mp hk
  have hmap : (s.streams.set k stream').map OutputStream.place = s.streams.map OutputStream.place := by
    rw [List.map_set, hplace, ← List.getElem_map OutputStream.place (h := by rwa [List.length_map]),
      List.set_getElem_self]
  have hfilter (l : List (OutputStream κ α)) : l.filterMap OutputStream.place =
      (l.map OutputStream.place).filterMap id := by
    rw [List.filterMap_map, Function.id_comp]
  rw [names, names, hs, hfilter, hmap, ← hfilter]

theorem names_write {k : Nat} {chunk : List α} (hs : s.write fill k chunk = some s') : s'.names = s.names := by
  obtain ⟨stream, content, hk, -, -, rfl⟩ := write_eq_some hs
  exact names_set hk (stream.append chunk) rfl rfl

theorem names_close {k : Nat} (hs : s.close k = some s') : s'.names = s.names := by
  obtain ⟨stream, hk, hwriting, rfl⟩ := close_eq_some hs
  refine names_set hk { stream with status := .closed } ?_ rfl
  rw [OutputStream.place, OutputStream.place, if_pos (OutputStream.stands_of_writing hwriting)]
  exact if_pos (by simp [OutputStream.Stands])

theorem mem_names_of_create {name created : κ} (hn : name ∈ (s.create created).names) :
    name ∈ s.names ∨ name = created := by
  obtain ⟨stream, hm, hstands, rfl⟩ := mem_names.mp hn
  rcases List.mem_append.mp hm with hm | hm
  · exact .inl (mem_names.mpr ⟨stream, hm, hstands, rfl⟩)
  · obtain rfl := List.mem_singleton.mp hm
    exact .inr rfl

theorem mem_names_of_delete {name deleted : κ} (hn : name ∈ (s.delete deleted).names) : name ∈ s.names := by
  rw [delete] at hn
  split at hn
  · exact hn
  · obtain ⟨stream', hm, hstands, rfl⟩ := mem_names.mp hn
    obtain ⟨stream, hmem, rfl⟩ := List.mem_map.mp hm
    have hsame := (removed_stands hstands).2
    rw [hsame] at hstands ⊢
    exact mem_names.mpr ⟨stream, hmem, hstands, rfl⟩

theorem Owned.apart (ho : s.Owned) {e : FileEvent κ α} (hs : s.step fill e = some s') (he : s.Fresh e) :
    s.Apart e := by
  cases e with
  | create name => exact fun stream hm hfile hstands => absurd (mem_names.mpr ⟨stream, hm, hstands, hfile⟩) he
  | write k chunk =>
    obtain ⟨stream, content, hk, -, hwriting, -⟩ := write_eq_some hs
    exact .inr (ho k stream hk (OutputStream.stands_of_writing hwriting))
  | close k | delete name | openRead name | release i => trivial

omit [DecidableEq κ] in
/-- A stream goes on. -/
theorem Owned.set (h : s.Owned) {k : Nat} {stream : OutputStream κ α} (hk : s.streams[k]? = some stream)
    (hstands : stream.Stands) (stream' : OutputStream κ α) (hfile : stream'.file = stream.file)
    (hs : s'.streams = s.streams.set k stream') : s'.Owned := by
  obtain ⟨hlt, -⟩ := List.getElem?_eq_some_iff.mp hk
  have hback : ∀ (j : Nat) (other : OutputStream κ α), s'.streams[j]? = some other → other.Stands →
      ∃ before, s.streams[j]? = some before ∧ before.file = other.file ∧ before.Stands := by
    intro j other hj hother
    rw [hs] at hj
    by_cases hjk : j = k
    · subst hjk
      rw [List.getElem?_set_self hlt] at hj
      obtain rfl := Option.some.inj hj
      exact ⟨stream, hk, hfile.symm, hstands⟩
    · rw [List.getElem?_set_ne (Ne.symm hjk)] at hj
      exact ⟨other, hj, rfl, hother⟩
  intro i current hi hcurrent j other current' hj hi' hsame hother
  obtain rfl := Option.some.inj (hi.symm.trans hi')
  obtain ⟨first, hfirst, hfile₁, hstands₁⟩ := hback i current hi hcurrent
  obtain ⟨second, hsecond, hfile₂, hstands₂⟩ := hback j other hj hother
  exact h i first hfirst hstands₁ j second first hsecond hfirst (by rw [hfile₁, hfile₂, hsame]) hstands₂

theorem Owned.step (ho : s.Owned) {e : FileEvent κ α} (hs : s.step fill e = some s') (he : s.Fresh e) :
    s'.Owned := by
  cases e with
  | create name =>
    obtain rfl := Option.some.inj hs
    have htaken : ∀ (j : Nat) (other : OutputStream κ α), s.streams[j]? = some other → other.Stands →
        other.file ≠ name := by
      rintro j other hj hstands rfl
      exact he (mem_names.mpr ⟨other, List.mem_of_getElem? hj, hstands, rfl⟩)
    have hcase : ∀ (j : Nat) (other : OutputStream κ α), (s.create name).streams[j]? = some other →
        s.streams[j]? = some other ∨ j = s.streams.length ∧ other.file = name := by
      intro j other hj
      rcases Nat.lt_or_ge j s.streams.length with hlt | hge
      · exact .inl ((List.getElem?_append_left hlt).symm.trans hj)
      · obtain ⟨hle, hother⟩ := List.getElem?_eq_some_iff.mp hj
        have hlast : j = s.streams.length := by
          simp only [create, List.length_append, List.length_singleton] at hle
          omega
        subst hlast
        exact .inr ⟨rfl, by simp [← hother, create]⟩
    intro k stream hk hstands j other stream' hj hk' hsame hother
    obtain rfl := Option.some.inj (hk.symm.trans hk')
    rcases hcase k stream hk with hk | ⟨rfl, hfile⟩
    · rcases hcase j other hj with hj | ⟨rfl, hfile⟩
      · exact ho k stream hk hstands j other stream hj hk hsame hother
      · exact absurd (hsame.symm.trans hfile) (htaken k stream hk hstands)
    · rcases hcase j other hj with hj | ⟨rfl, -⟩
      · exact absurd (hsame.trans hfile) (htaken j other hj hother)
      · rfl
  | write k chunk =>
    obtain ⟨stream, content, hk, -, hwriting, rfl⟩ := write_eq_some hs
    exact ho.set hk (OutputStream.stands_of_writing hwriting) (stream.append chunk) rfl rfl
  | close k =>
    obtain ⟨stream, hk, hwriting, rfl⟩ := close_eq_some hs
    exact ho.set hk (OutputStream.stands_of_writing hwriting) { stream with status := .closed } rfl rfl
  | delete name =>
    obtain rfl := Option.some.inj hs
    rw [delete]
    split
    · exact ho
    · intro k stream hk hstands j other stream' hj hk' hsame hother
      obtain rfl := Option.some.inj (hk.symm.trans hk')
      rw [remove, List.getElem?_map, Option.map_eq_some_iff] at hk hj
      obtain ⟨before, hk, rfl⟩ := hk
      obtain ⟨before', hj, rfl⟩ := hj
      have hleft := (removed_stands hstands).2
      have hleft' := (removed_stands hother).2
      rw [hleft] at hstands hsame
      rw [hleft'] at hother hsame
      exact ho k before hk hstands j before' before hj hk hsame hother
  | openRead name | release i =>
    obtain rfl := Option.some.inj hs
    exact ho

/-! ## The files at first -/

section First

variable {stored : List (κ × List α)}

theorem mem_ofList {stream : OutputStream κ α} (hm : stream ∈ (ofList stored).streams) :
    (stream.file, stream.written) ∈ stored ∧ stream.status = .closed := by
  obtain ⟨⟨file, written⟩, hmem, rfl⟩ := List.mem_map.mp hm
  exact ⟨hmem, rfl⟩

theorem intact_ofList (h : (stored.map Prod.fst).Nodup) : (ofList stored).Intact := by
  intro stream hm _
  obtain ⟨l₁, l₂, hsplit⟩ := List.append_of_mem (mem_ofList hm).1
  refine List.lookup_eq_some_iff.mpr ⟨l₁, l₂, hsplit, ?_⟩
  intro p hp
  rw [hsplit, List.map_append, List.map_cons] at h
  have hne : p.1 ≠ stream.file := fun hsame =>
    (List.nodup_append.mp h).2.2 p.1 (List.mem_map_of_mem hp) stream.file List.mem_cons_self hsame
  simpa using Ne.symm hne

theorem covered_ofList : (ofList stored).Covered := by
  intro name content hcontent
  obtain ⟨l₁, l₂, rfl, -⟩ := List.lookup_eq_some_iff.mp hcontent
  exact ⟨{ file := name, written := content, status := .closed },
    List.mem_map_of_mem (List.mem_append_right l₁ List.mem_cons_self), rfl, by simp [OutputStream.Stands]⟩

theorem owned_ofList (h : (stored.map Prod.fst).Nodup) : (ofList stored).Owned := by
  intro k stream hk _ j other stream' hj hk' hsame _
  obtain rfl := Option.some.inj (hk.symm.trans hk')
  have hname : ∀ (i : Nat) (st : OutputStream κ α), (ofList stored).streams[i]? = some st →
      (stored.map Prod.fst)[i]? = some st.file := by
    intro i st hi
    rw [ofList, List.getElem?_map, Option.map_eq_some_iff] at hi
    obtain ⟨p, hp, rfl⟩ := hi
    rw [List.getElem?_map, hp, Option.map_some]
  have hj := hname j other hj
  have hk := hname k stream hk
  rw [hsame, ← hk] at hj
  obtain ⟨hlt, -⟩ := List.getElem?_eq_some_iff.mp (hj.trans hk)
  exact (List.getElem?_inj hlt h).mp hj

end First

end OpenFiles

end Sockets
