/-
The commands of the client and the loop of the server, each on the bytes it
writes and reads. On both sides every command puts a new data stream on the
socket; since these do not read ahead, there is one stream of bytes in each
direction all the same.

A request is the line that was typed: the word, a blank, and the name of the
file. An upload has its length, the name once more, and the bytes behind it;
a download is answered with a length and the bytes. `list` is left out: what
it sends is made by Java's object streams.

Nothing is assumed of the file systems (`FileSystem`): which file a name
denotes, what a file that is open does to a later command, and which files
can be made, is theirs. A file that has been made can be written. Where it
cannot be made there is an exception: the client has written its request by
then and goes on to the next line, the thread of the server ends.
-/
import Sockets.Ftp.Files

namespace Sockets.Ftp

def startsWith (s : JString) (word : String) : Bool := (jstring word).isPrefixOf s

/-- `none` when the string is shorter: an exception. -/
def substring (s : JString) (start : Nat) : Option JString :=
  if start ≤ s.length then some (s.drop start) else none

/-- The length of a file, as an `int`. -/
def intLength (data : List UInt8) : Int := (data.length : Int).bmod (2 ^ 32)

/-- A file read into an array of its length. -/
def readFile (data : List UInt8) : Option (List UInt8) := (readFully (intLength data) data).map (·.1)

/-- What a system does with the files of `dataFile`, of which `σ` is all there is to know. -/
structure FileSystem (σ : Type) where
  /-- the names, in the order in which they are listed -/
  listFiles : σ → List JString
  /-- the contents of the file of this name; the stream it is read from stays open -/
  read : σ → JString → Option (List UInt8 × σ)
  /-- `new FileOutputStream`: the file is there, and empty; `none` when there is an exception -/
  make : σ → JString → Option σ
  /-- the bytes are written to the file that was made, and it is closed -/
  write : σ → JString → List UInt8 → σ
  /-- `File.delete`, which may do nothing -/
  delete : σ → JString → σ

/-- A file is made and written, if it can be made. -/
def FileSystem.store {σ : Type} (fs : FileSystem σ) (dataFile : σ) (name : JString) (data : List UInt8) : σ :=
  match fs.make dataFile name with
  | some dataFile => fs.write dataFile name data
  | none => dataFile

/-- A directory of files whose names have at most 255 characters. -/
def directoryFiles (listFiles : Directory → List JString) : FileSystem Directory where
  listFiles := listFiles
  read dir name := (dir name).map fun data => (data, dir)
  make dir name := if name.length ≤ 255 then some (dir.write name []) else none
  write := Directory.write
  delete := Directory.delete

variable {σ τ : Type}

/-! ## The client -/

namespace Client

variable (fs : FileSystem σ)

/-- What a command writes, and under which name it waits for a file, if it does. -/
structure Call (σ : Type) where
  written : List UInt8
  dataFile : σ
  waits : Option JString := none

/-- The loop of the client catches every exception, and goes on. -/
def caught (dataFile : σ) (call : Option (Call σ)) : Call σ := call.getD { written := [], dataFile }

def delete (dataFile : σ) (request : JString) : Call σ :=
  caught dataFile ((writeUTF request).map fun written => { written, dataFile })

/-- `download` up to where it waits. The request is written before the file is made. -/
def download (dataFile : σ) (request : JString) : Call σ :=
  caught dataFile <| (substring request 9).bind fun Dfname =>
    (getName (fs.listFiles dataFile) Dfname).bind fun Dfname =>
      (writeUTF request).map fun written =>
        match fs.make dataFile Dfname with
        | some dataFile => { written, dataFile, waits := some Dfname }
        -- the exception leaves the answer unread
        | none => { written, dataFile }

/-- The rest of `download`: the bytes of the file. -/
def readResponse (l : List UInt8) : Option (List UInt8 × List UInt8) :=
  (readInt l).bind fun p => readFully p.1 p.2

def upload (dataFile : σ) (request : JString) : Call σ :=
  caught dataFile <| (substring request 7).bind fun Dfname =>
    (fs.read dataFile Dfname).map fun (myFile, dataFile) =>
      caught dataFile <| (readFile myFile).bind fun mybytearray =>
        (writeUTF request).bind fun header =>
          (writeUTF Dfname).map fun name =>
            { written := header ++ writeInt mybytearray.length ++ name ++ mybytearray, dataFile }

/-- One round of the loop, on a line that was typed; `list` has no outcome here. -/
def run (dataFile : σ) (request : JString) : Option (Call σ) :=
  if request = jstring "ls" then none
  else if startsWith request "upload" then some (upload fs dataFile request)
  else if startsWith request "download" then some (download fs dataFile request)
  else if startsWith request "delete" then some (delete dataFile request)
  else some { written := [], dataFile }

end Client

/-! ## The server -/

/-- What the server took a request for: the request itself, the name in it and, if there are
any, the contents of the file. -/
inductive Served
  | delete (request name : JString)
  | upload (request name : JString) (data : List UInt8)
  | download (request name : JString) (data : List UInt8)
  | other (request : JString)
deriving DecidableEq

namespace Server

variable (fs : FileSystem τ)

/-- What the server did: its directory, what it wrote, and what it tells all the clients, on
other sockets. -/
structure Outcome (τ : Type) where
  served : Served
  dataFile : τ
  written : List UInt8 := []
  notice : Option JString := none

def upload (dataFile : τ) (request : JString) (l : List UInt8) : Option (Outcome τ × List UInt8) :=
  (readInt l).bind fun (size, l) =>
    (readUTF l).bind fun (name, l) =>
      (getName (fs.listFiles dataFile) name).bind fun Ufname =>
        (fs.make dataFile Ufname).bind fun dataFile =>
          (readFully size l).map fun (buffer, l) =>
            ({ served := .upload request name buffer
               dataFile := fs.write dataFile Ufname buffer
               notice := some (jstring "File uploaded: " ++ Ufname) }, l)

def download (dataFile : τ) (request name : JString) : Option (Outcome τ) :=
  (fs.read dataFile name).bind fun (myFile, dataFile) =>
    (readFile myFile).map fun mybytearray =>
      { served := .download request name mybytearray
        dataFile
        written := writeInt mybytearray.length ++ mybytearray }

/-- One round of the loop, on what has arrived: `none` as long as it waits for more, and when an
exception ends it. -/
def run (dataFile : τ) (l : List UInt8) : Option (Outcome τ × List UInt8) :=
  (readUTF l).bind fun (request, l) =>
    if startsWith request "ls" then none
    else if startsWith request "delete" then
      (substring request 7).map fun name =>
        ({ served := .delete request name
           dataFile := fs.delete dataFile name
           notice := some (jstring "File Deleted: " ++ name) }, l)
    else if startsWith request "upload" then upload fs dataFile request l
    else if startsWith request "download" then
      (substring request 9).bind fun name => (download fs dataFile request name).map fun outcome => (outcome, l)
    else some ({ served := .other request, dataFile }, l)

end Server

/-! ## What the commands are for -/

inductive Command
  | upload (name : JString)
  | download (name : JString)
  | delete (name : JString)
deriving DecidableEq

def Command.name : Command → JString
  | .upload name | .download name | .delete name => name

def Command.request : Command → JString
  | .upload name => jstring "upload " ++ name
  | .download name => jstring "download " ++ name
  | .delete name => jstring "delete " ++ name

/-- The file systems of both sides. -/
structure Systems (σ τ : Type) where
  client : FileSystem σ
  server : FileSystem τ

/-- The directories of both sides. -/
structure Directories (σ τ : Type) where
  client : σ
  server : τ

section Exec

variable (sys : Systems σ τ)

/-- A command on both directories at once, with no stream between them; a file that cannot be made is
not stored. -/
def Command.exec : Command → Directories σ τ → Option (Served × Directories σ τ)
  | .upload name, d =>
    (sys.client.read d.client name).bind fun (data, client) =>
      (getName (sys.server.listFiles d.server) name).map fun stored =>
        (.upload (jstring "upload " ++ name) name data,
          { client, server := sys.server.store d.server stored data })
  | .download name, d =>
    (sys.server.read d.server name).bind fun (data, server) =>
      (getName (sys.client.listFiles d.client) name).map fun stored =>
        (.download (jstring "download " ++ name) name data,
          { client := sys.client.store d.client stored data, server })
  | .delete name, d =>
    some (.delete (jstring "delete " ++ name) name, { d with server := sys.server.delete d.server name })

/-- One command after another. -/
def execAll : List Command → Directories σ τ → Option (List Served × Directories σ τ)
  | [], d => some ([], d)
  | c :: cmds, d =>
    (c.exec sys d).bind fun p => (execAll cmds p.2).map fun q => (p.1 :: q.1, q.2)

/-- The file is there, and its length is an `int`. -/
def HasFile (fs : FileSystem σ) (dataFile : σ) (name : JString) : Prop :=
  ∃ data dataFile', fs.read dataFile name = some (data, dataFile') ∧ data.length < 2 ^ 31

/-- The file of a command is where it is taken from. -/
def Command.FileThere : Command → Directories σ τ → Prop
  | .upload name, d => HasFile sys.client d.client name
  | .download name, d => HasFile sys.server d.server name
  | .delete _, _ => True

/-- A command that is well-formed where it is executed. -/
structure Command.WellFormed (c : Command) (d : Directories σ τ) : Prop where
  plain : PlainName c.name
  length : utfLength c.name ≤ 65000
  file : c.FileThere sys d

/-- The name that is chosen for a file is that of a file that can be made. -/
def CanStore (fs : FileSystem σ) (dataFile : σ) (name : JString) : Prop :=
  ∀ stored, getName (fs.listFiles dataFile) name = some stored → ∃ made, fs.make dataFile stored = some made

/-- The file that a command makes, if it makes one, can be made. -/
def Command.CanMake : Command → Directories σ τ → Prop
  | .upload name, d => CanStore sys.server d.server name
  | .download name, d => CanStore sys.client d.client name
  | .delete _, _ => True

/-- Each command has the property when it is its turn. -/
def EachInTurn (P : Command → Directories σ τ → Prop) : List Command → Directories σ τ → Prop
  | [], _ => True
  | c :: cmds, d => P c d ∧ ∀ served d', c.exec sys d = some (served, d') → EachInTurn P cmds d'

def WellFormed : List Command → Directories σ τ → Prop := EachInTurn sys (Command.WellFormed sys)

def FilesCanBeMade : List Command → Directories σ τ → Prop := EachInTurn sys (Command.CanMake sys)

end Exec

/-! ## Reading and writing a command -/

/-- The answer to a download. -/
def response : Codec (List UInt8) UInt8 := int32.headed (fun data => data.length) array

/-- What stands in the stream for a request. -/
def Served.frame : Served → List UInt8
  | .upload request name data => utf.enc request ++ writeInt data.length ++ utf.enc name ++ data
  | .download request _ _ => utf.enc request
  | .delete request _ => utf.enc request
  | .other request => utf.enc request

/-- The contents that are sent back. -/
def Served.downloaded : Served → List (List UInt8)
  | .download _ _ data => [data]
  | _ => []

/-- What the client waits for, and what its directory will be when it has come. -/
def Expects (fs : FileSystem σ) (waits : Option JString) (dataFile : σ) (owed : List (List UInt8))
    (later : σ) : Prop :=
  match waits with
  | none => owed = [] ∧ later = dataFile
  | some name => ∃ data, owed = [data] ∧ response.Valid data ∧ later = fs.write dataFile name data

theorem intLength_eq {data : List UInt8} (h : data.length < 2 ^ 31) : intLength data = data.length := by
  unfold intLength
  rw [Int.bmod_eq_of_le] <;> omega

theorem readFully_eq (data rest : List UInt8) : readFully data.length (data ++ rest) = some (data, rest) :=
  (array data.length).dec_enc data rest rfl

theorem readFile_eq {data : List UInt8} (h : data.length < 2 ^ 31) : readFile data = some data := by
  have hall := readFully_eq data []
  rw [List.append_nil] at hall
  rw [readFile, intLength_eq h, hall, Option.map_some]

theorem readUTF_enc {s : JString} (h : utfLength s ≤ 65535) (rest : List UInt8) :
    readUTF (utf.enc s ++ rest) = some (s, rest) := utf.dec_enc s rest (utf_valid.mpr h)

theorem readInt_writeInt {data : List UInt8} (h : data.length < 2 ^ 31) (rest : List UInt8) :
    readInt (writeInt data.length ++ rest) = some ((data.length : Int), rest) :=
  int32.dec_enc _ rest ⟨by omega, by omega⟩

theorem response_valid {data : List UInt8} : response.Valid data ↔ data.length < 2 ^ 31 := by
  show IsInt32 data.length ∧ (data.length : Int) = data.length ↔ data.length < 2 ^ 31
  unfold IsInt32
  omega

section Commands

variable {sys : Systems σ τ} {c : Command} {d d' : Directories σ τ} {served : Served}

theorem FileSystem.store_eq {fs : FileSystem σ} {dataFile made : σ} {name : JString}
    (h : fs.make dataFile name = some made) (data : List UInt8) :
    fs.store dataFile name data = fs.write made name data := by
  rw [FileSystem.store, h]

/-- A command that is well-formed, and whose file can be made. -/
structure Command.Ready (sys : Systems σ τ) (c : Command) (d : Directories σ τ) : Prop
    extends c.WellFormed sys d where
  canMake : c.CanMake sys d

theorem WellFormed.ready {cmds : List Command} (h : WellFormed sys cmds d) (hmake : FilesCanBeMade sys cmds d) :
    EachInTurn sys (Command.Ready sys) cmds d := by
  induction cmds generalizing d with
  | nil => trivial
  | cons c cmds ih =>
    refine ⟨⟨h.1, hmake.1⟩, ?_⟩
    intro served d' hexec
    exact ih (h.2 served d' hexec) (hmake.2 served d' hexec)

theorem Command.WellFormed.exec_eq_some (h : c.WellFormed sys d) :
    ∃ served d', c.exec sys d = some (served, d') := by
  cases c with
  | upload name =>
    obtain ⟨data, client, hdata, -⟩ := h.file
    obtain ⟨stored, hstored⟩ := getName_eq_some (sys.server.listFiles d.server) h.plain
    rw [Command.name] at hstored
    simp only [Command.exec, hdata, hstored, Option.bind_some, Option.map_some]
    exact ⟨_, _, rfl⟩
  | download name =>
    obtain ⟨data, server, hdata, -⟩ := h.file
    obtain ⟨stored, hstored⟩ := getName_eq_some (sys.client.listFiles d.client) h.plain
    rw [Command.name] at hstored
    simp only [Command.exec, hdata, hstored, Option.bind_some, Option.map_some]
    exact ⟨_, _, rfl⟩
  | delete name => exact ⟨_, _, rfl⟩

theorem Command.WellFormed.request_length (h : c.WellFormed sys d) : utfLength c.request ≤ 65535 := by
  have hlength := h.length
  cases c with
  | upload name | download name | delete name =>
    rw [Command.request, utfLength_append]
    exact Nat.le_trans (Nat.add_le_add (by decide : _ ≤ 9) hlength) (by decide)

theorem substring_append {word : JString} {n : Nat} (h : word.length = n) (name : JString) :
    substring (word ++ name) n = some name := by
  rw [substring, if_pos (by rw [List.length_append]; omega), List.drop_left' h]

theorem substring_upload (name : JString) : substring (jstring "upload " ++ name) 7 = some name :=
  substring_append rfl name

theorem substring_download (name : JString) : substring (jstring "download " ++ name) 9 = some name :=
  substring_append rfl name

theorem substring_delete (name : JString) : substring (jstring "delete " ++ name) 7 = some name :=
  substring_append rfl name

theorem Command.Ready.exec_upload {name : JString} (h : (Command.upload name).Ready sys d)
    (hexec : (Command.upload name).exec sys d = some (served, d')) :
    ∃ data client stored made, sys.client.read d.client name = some (data, client) ∧ data.length < 2 ^ 31 ∧
      getName (sys.server.listFiles d.server) name = some stored ∧
      sys.server.make d.server stored = some made ∧
      served = .upload (jstring "upload " ++ name) name data ∧
      d' = { client, server := sys.server.write made stored data } := by
  obtain ⟨data, client, hdata, hlength⟩ := h.file
  simp only [Command.exec, hdata, Option.bind_some, Option.map_eq_some_iff, Prod.mk.injEq] at hexec
  obtain ⟨stored, hstored, rfl, rfl⟩ := hexec
  obtain ⟨made, hmade⟩ := h.canMake stored hstored
  exact ⟨data, client, stored, made, hdata, hlength, hstored, hmade, rfl,
    by rw [FileSystem.store_eq hmade]⟩

theorem Command.Ready.exec_download {name : JString} (h : (Command.download name).Ready sys d)
    (hexec : (Command.download name).exec sys d = some (served, d')) :
    ∃ data server stored made, sys.server.read d.server name = some (data, server) ∧ data.length < 2 ^ 31 ∧
      getName (sys.client.listFiles d.client) name = some stored ∧
      sys.client.make d.client stored = some made ∧
      served = .download (jstring "download " ++ name) name data ∧
      d' = { client := sys.client.write made stored data, server } := by
  obtain ⟨data, server, hdata, hlength⟩ := h.file
  simp only [Command.exec, hdata, Option.bind_some, Option.map_eq_some_iff, Prod.mk.injEq] at hexec
  obtain ⟨stored, hstored, rfl, rfl⟩ := hexec
  obtain ⟨made, hmade⟩ := h.canMake stored hstored
  exact ⟨data, server, stored, made, hdata, hlength, hstored, hmade, rfl,
    by rw [FileSystem.store_eq hmade]⟩

/-- The client writes the file of an upload. -/
theorem Client.run_upload {name : JString} (h : (Command.upload name).WellFormed sys d) {data : List UInt8}
    {client : σ} (hdata : sys.client.read d.client name = some (data, client)) (hlength : data.length < 2 ^ 31) :
    Client.run sys.client d.client (Command.upload name).request = some {
      written := (Served.upload (Command.upload name).request name data).frame
      dataFile := client } := by
  have hrequest := writeUTF_eq h.request_length
  have hname : writeUTF name = some (utf.enc name) := writeUTF_eq (Nat.le_trans h.length (by decide))
  have hrun : Client.run sys.client d.client (Command.upload name).request =
      some (Client.upload sys.client d.client (jstring "upload " ++ name)) := rfl
  rw [Command.request] at hrequest
  rw [hrun, Client.upload, substring_upload, Option.bind_some, hdata, Option.map_some]
  dsimp only
  rw [readFile_eq hlength, Option.bind_some, hrequest, Option.bind_some, hname, Option.map_some]
  rfl

/-- The client waits for the file of a download if it could make one. -/
theorem Client.run_download {name stored : JString} (h : (Command.download name).WellFormed sys d)
    (hstored : getName (sys.client.listFiles d.client) name = some stored) :
    Client.run sys.client d.client (Command.download name).request =
      some (match sys.client.make d.client stored with
        | some dataFile =>
          { written := utf.enc (Command.download name).request, dataFile, waits := some stored }
        | none => { written := utf.enc (Command.download name).request, dataFile := d.client }) := by
  have hrequest := writeUTF_eq h.request_length
  have hrun : Client.run sys.client d.client (Command.download name).request =
      some (Client.download sys.client d.client (jstring "download " ++ name)) := rfl
  rw [Command.request] at hrequest
  rw [hrun, Client.download, substring_download, Option.bind_some, hstored, Option.bind_some, hrequest,
    Option.map_some]
  rfl

/-- What the client writes for a command is what the server reads for it. -/
theorem Client.run_request (h : c.Ready sys d) (hexec : c.exec sys d = some (served, d')) :
    ∃ call, Client.run sys.client d.client c.request = some call ∧ call.written = served.frame ∧
      Expects sys.client call.waits call.dataFile served.downloaded d'.client := by
  cases c with
  | upload name =>
    obtain ⟨data, client, stored, made, hdata, hlength, -, -, rfl, rfl⟩ := h.exec_upload hexec
    exact ⟨_, Client.run_upload h.toWellFormed hdata hlength, rfl, rfl, rfl⟩
  | download name =>
    obtain ⟨data, server, stored, made, hdata, hlength, hstored, hmade, rfl, rfl⟩ := h.exec_download hexec
    have hrun := Client.run_download h.toWellFormed hstored
    rw [hmade] at hrun
    exact ⟨_, hrun, rfl, data, rfl, response_valid.mpr hlength, rfl⟩
  | delete name =>
    have hrequest := writeUTF_eq h.request_length
    simp only [Command.exec, Option.some.injEq, Prod.mk.injEq] at hexec
    obtain ⟨rfl, rfl⟩ := hexec
    have hrun : Client.run sys.client d.client (Command.delete name).request =
        some (Client.delete d.client (jstring "delete " ++ name)) := rfl
    rw [Command.request] at hrequest
    refine ⟨_, hrun, ?_⟩
    rw [Client.delete, hrequest, Option.map_some]
    exact ⟨rfl, rfl, rfl⟩

/-- The server reads an upload if it can make the file. -/
theorem Server.run_upload {name stored : JString} {data : List UInt8}
    (h : (Command.upload name).WellFormed sys d) (hlength : data.length < 2 ^ 31)
    (hstored : getName (sys.server.listFiles d.server) name = some stored) (rest : List UInt8) :
    Server.run sys.server d.server ((Served.upload (Command.upload name).request name data).frame ++ rest) =
      (sys.server.make d.server stored).map fun dataFile =>
        ({ served := .upload (Command.upload name).request name data
           dataFile := sys.server.write dataFile stored data
           notice := some (jstring "File uploaded: " ++ stored) }, rest) := by
  have hrequest := readUTF_enc h.request_length
  have hname := readUTF_enc (s := name) (Nat.le_trans h.length (by decide))
  rw [Command.request] at hrequest
  have hrun (l : List UInt8) : Server.run sys.server d.server (utf.enc (jstring "upload " ++ name) ++ l) =
      Server.upload sys.server d.server (jstring "upload " ++ name) l := by
    rw [Server.run, hrequest]
    rfl
  rw [Command.request, Served.frame, List.append_assoc, List.append_assoc, List.append_assoc, hrun, Server.upload,
    readInt_writeInt hlength, Option.bind_some]
  dsimp only
  rw [hname, Option.bind_some]
  dsimp only
  rw [hstored, Option.bind_some, readFully_eq]
  cases sys.server.make d.server stored <;> rfl

/-- What the server reads for a command is what it is for. -/
theorem Server.run_frame (h : c.Ready sys d) (hexec : c.exec sys d = some (served, d')) (rest : List UInt8) :
    ∃ outcome, Server.run sys.server d.server (served.frame ++ rest) = some (outcome, rest) ∧
      outcome.served = served ∧ outcome.dataFile = d'.server ∧
      outcome.written = served.downloaded.flatMap response.enc := by
  have hrequest := readUTF_enc h.request_length
  cases c with
  | upload name =>
    obtain ⟨data, client, stored, made, hdata, hlength, hstored, hmade, rfl, rfl⟩ := h.exec_upload hexec
    have hrun := Server.run_upload h.toWellFormed hlength hstored rest
    rw [hmade, Option.map_some] at hrun
    exact ⟨_, hrun, rfl, rfl, rfl⟩
  | download name =>
    obtain ⟨data, server, stored, made, hdata, hlength, -, -, rfl, rfl⟩ := h.exec_download hexec
    rw [Command.request] at hrequest
    have hrun (l : List UInt8) : Server.run sys.server d.server (utf.enc (jstring "download " ++ name) ++ l) =
        (Server.download sys.server d.server (jstring "download " ++ name) name).map
          fun outcome => (outcome, l) := by
      rw [Server.run, hrequest]
      rfl
    rw [Served.frame, hrun, Server.download, hdata, Option.bind_some]
    dsimp only
    rw [readFile_eq hlength, Option.map_some, Option.map_some]
    exact ⟨_, rfl, rfl, rfl, (List.append_nil _).symm⟩
  | delete name =>
    simp only [Command.exec, Option.some.injEq, Prod.mk.injEq] at hexec
    obtain ⟨rfl, rfl⟩ := hexec
    rw [Command.request] at hrequest
    have hrun (l : List UInt8) : Server.run sys.server d.server (utf.enc (jstring "delete " ++ name) ++ l) =
        (substring (jstring "delete " ++ name) 7).map fun name' =>
          ({ served := .delete (jstring "delete " ++ name) name'
             dataFile := sys.server.delete d.server name'
             notice := some (jstring "File Deleted: " ++ name') }, l) := by
      rw [Server.run, hrequest]
      rfl
    rw [Served.frame, hrun, substring_delete, Option.map_some]
    exact ⟨_, rfl, rfl, rfl, rfl⟩

section Append

variable {fs : FileSystem τ} {dataFile : τ} {l rest : List UInt8} {outcome : Server.Outcome τ}

theorem Server.upload_append {request : JString}
    (h : Server.upload fs dataFile request l = some (outcome, rest)) (more : List UInt8) :
    Server.upload fs dataFile request (l ++ more) = some (outcome, rest ++ more) := by
  simp only [Server.upload, Option.bind_eq_some_iff, Option.map_eq_some_iff, Prod.mk.injEq] at h ⊢
  obtain ⟨⟨size, l₁⟩, hsize, ⟨name, l₂⟩, hname, stored, hstored, made, hmade, ⟨buffer, l₃⟩, hbuffer, rfl, rfl⟩ := h
  exact ⟨_, int32.dec_append _ _ _ more hsize, _, utf.dec_append _ _ _ more hname, stored, hstored, made, hmade,
    _, (array size).dec_append _ _ _ more hbuffer, rfl, rfl⟩

/-- The server reads the same from more, and leaves what is more. -/
theorem Server.run_append
    (h : Server.run fs dataFile l = some (outcome, rest)) (more : List UInt8) :
    Server.run fs dataFile (l ++ more) = some (outcome, rest ++ more) := by
  simp only [Server.run, Option.bind_eq_some_iff] at h ⊢
  obtain ⟨⟨request, l'⟩, hrequest, h⟩ := h
  refine ⟨(request, l' ++ more), utf.dec_append _ _ _ more hrequest, ?_⟩
  dsimp only at h ⊢
  split at h
  · cases h
  next hls =>
    rw [if_neg hls]
    split at h
    next hdelete =>
      rw [if_pos hdelete]
      simp only [Option.map_eq_some_iff, Prod.mk.injEq] at h ⊢
      obtain ⟨name, hname, rfl, rfl⟩ := h
      exact ⟨name, hname, rfl, rfl⟩
    next hdelete =>
      rw [if_neg hdelete]
      split at h
      next hupload =>
        rw [if_pos hupload]
        exact Server.upload_append h more
      next hupload =>
        rw [if_neg hupload]
        split at h
        next hdownload =>
          rw [if_pos hdownload]
          simp only [Option.bind_eq_some_iff, Option.map_eq_some_iff, Prod.mk.injEq] at h ⊢
          obtain ⟨name, hname, outcome', houtcome, rfl, rfl⟩ := h
          exact ⟨name, hname, _, houtcome, rfl, rfl⟩
        next hdownload =>
          rw [if_neg hdownload]
          cases h
          rfl

end Append

end Commands

end Sockets.Ftp
