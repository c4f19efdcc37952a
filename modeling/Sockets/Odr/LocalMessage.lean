/-
The messages between the clients and the ODR of a node: four fields with
semicolons between them. `msg_send` and `msg_send2` write them, the ODR and
the client take them apart with `strtok`, and what is taken apart is what
was written (`localMessage_roundTrip`).

All four tokens have to be there, since where one is NULL the last one is,
and is read; a number has to be an `int`. `maxline` is a constant of the
headers, and the array for the path in a socket's address is left out.
-/
import Sockets.Lib.Codec
import Sockets.Lib.Decimal
import Sockets.Lib.Strtok
import Sockets.Odr.Node

namespace Sockets.Odr.Local

/-! ## Sending -/

/-- What is sent, and to whom. -/
structure Datagram where
  sunPath : String
  data : List Char
deriving DecidableEq

def unixdgClient : String := "/tmp/unix123.dg"

/-- `"%s;%d;%d;%s"`. -/
def msgSequence (destAddress : List Char) (destPort flag : Int) (msg : List Char) : List Char :=
  destAddress ++ ';' :: (intText destPort ++ ';' :: (intText flag ++ ';' :: msg))

variable {maxline : Nat}

/-- The array for the text is the function's own, and whatever is in it is overwritten. -/
def msgSend (buffer : List.Vector Char maxline) (destAddress : List Char) (destPort : Int) (msg : List Char)
    (flag : Int) : Option Datagram := do
  let buffer ← putString '\x00' buffer (msgSequence destAddress destPort flag msg)
  let data ← stringAt '\x00' buffer 0
  some { sunPath := unixdgClient, data }

/-- With port 147 the message goes out alone. -/
def msgSend2 (buffer : List.Vector Char maxline) (destAddress : List Char) (destPort : Int) (msg : List Char)
    (flag : Int) (sunPath : String) : Option Datagram :=
  if destPort = 147 then some { sunPath, data := msg }
  else do
    let buffer ← putString '\x00' buffer (msgSequence destAddress destPort flag msg)
    let data ← stringAt '\x00' buffer 0
    some { sunPath, data }

/-! ## Receiving -/

def atoi (text : List Char) : Option Int :=
  if -2 ^ 31 ≤ readInt text ∧ readInt text < 2 ^ 31 then some (readInt text) else none

def zeroed (n : Nat) : List.Vector Char n := List.Vector.replicate n '\x00'

/-- The ODR takes a client's message apart. -/
def parseClientMessage (sunPath : String) (splitMsg : List.Vector Char 100) : Option ClientMessage := do
  let token ← strtok '\x00' [';'] splitMsg 0
  let destinationAddr ← token.start
  let token ← strtok '\x00' [';'] token.a token.left
  let destinationPortStr ← token.start
  let destinationPortNum ← atoi (← stringAt '\x00' token.a destinationPortStr)
  let token ← strtok '\x00' [';'] token.a token.left
  let flagStr ← token.start
  let flagInt ← atoi (← stringAt '\x00' token.a flagStr)
  let token ← strtok '\x00' [';'] token.a token.left
  let msg ← token.start
  some {
    sunPath
    destinationAddr := String.ofList (← stringAt '\x00' token.a destinationAddr)
    destinationPort := destinationPortNum
    flag := flagInt
    msg := ← stringAt '\x00' token.a msg }

/-- What the ODR makes of a datagram from the client at `sunPath`. -/
def receiveClientMessage (maxline : Nat) (sunPath : String) (data : List Char) : Option ClientMessage := do
  let mesg := received (zeroed maxline) data
  let splitMsg ← strcpy '\x00' (zeroed 100) mesg
  parseClientMessage sunPath splitMsg

/-- What the client makes of a message; the flag stays text. -/
structure ReceivingMsg where
  destAddr : List Char
  sourcePortNum : Int
  flagStr : List Char
  sourceMsg : List Char
  printed : String
deriving DecidableEq

def receivingText (srcHostName destHostName : String) (sourceMsg : List Char) : String :=
  "client at node: " ++ destHostName ++ " : received from " ++ srcHostName ++ "   \n  " ++
    "time message : " ++ String.ofList sourceMsg ++ " :" ++ "\n\n"

def printReceivingMsg {n : Nat} (recvline : List.Vector Char n) (srcHostName destHostName : String) :
    Option ReceivingMsg := do
  let token ← strtok '\x00' [';'] recvline 0
  let destAddr ← token.start
  let token ← strtok '\x00' [';'] token.a token.left
  let sourcePortStr ← token.start
  let token ← strtok '\x00' [';'] token.a token.left
  let flagStr ← token.start
  let sourcePortNum ← atoi (← stringAt '\x00' token.a sourcePortStr)
  let token ← strtok '\x00' [';'] token.a token.left
  let sourceMsg ← stringAt '\x00' token.a (← token.start)
  some {
    destAddr := ← stringAt '\x00' token.a destAddr
    sourcePortNum
    flagStr := ← stringAt '\x00' token.a flagStr
    sourceMsg
    printed := receivingText srcHostName destHostName sourceMsg }

/-! ## Taking apart what was sent -/

/-- A text that can stand in a field. -/
structure FieldText (text : List Char) : Prop where
  nonempty : text ≠ []
  noSemicolon : ';' ∉ text
  noNul : '\x00' ∉ text

theorem fieldText_intText (n : Int) : FieldText (intText n) where
  nonempty := intText_ne_nil n
  noSemicolon := notMem_intText (by decide) (by decide) n
  noNul := notMem_intText (by decide) (by decide) n

theorem FieldText.notDelim {text : List Char} (h : FieldText text) : ∀ c ∈ text, c ∉ [';'] := by
  intro c hc hdelim
  rw [List.mem_singleton.mp hdelim] at hc
  exact h.noSemicolon hc

theorem atoi_intText {n : Int} (hn : IsInt32 n) : atoi (intText n) = some n := by
  rw [atoi, readInt_intText]
  exact if_pos hn

section

variable {dest msg : List Char} {port flag : Int}

theorem nul_notMem_msgSequence (hdest : FieldText dest) (hmsg : FieldText msg) :
    '\x00' ∉ msgSequence dest port flag msg := by
  simp [msgSequence, hdest.noNul, hmsg.noNul, (fieldText_intText _).noNul]

/-- The four tokens, each where it can be read. -/
theorem strtok_msgSequence {n : Nat} {a : List.Vector Char n} (hdest : FieldText dest) (hmsg : FieldText msg)
    (h : Holds '\x00' a (msgSequence dest port flag msg)) : ∃ a₁ a₂ a₃ i₁ i₂ i₃ i₄,
      strtok '\x00' [';'] a 0 = some { start := some 0, a := a₁, left := i₁ } ∧
      strtok '\x00' [';'] a₁ i₁ = some { start := some i₁, a := a₂, left := i₂ } ∧
      strtok '\x00' [';'] a₂ i₂ = some { start := some i₂, a := a₃, left := i₃ } ∧
      strtok '\x00' [';'] a₃ i₃ = some { start := some i₃, a := a₃, left := i₄ } ∧
      HoldsAt '\x00' a₂ i₁ (intText port) ∧ HoldsAt '\x00' a₃ 0 dest ∧ HoldsAt '\x00' a₃ i₁ (intText port) ∧
      HoldsAt '\x00' a₃ i₂ (intText flag) ∧ HoldsAt '\x00' a₃ i₃ msg := by
  have hport := fieldText_intText port
  have hflag := fieldText_intText flag
  obtain ⟨a₁, hfirst, hdest₁, hmore₁, -⟩ :=
    h.holdsAt.strtok_delim hdest.nonempty hdest.notDelim (List.mem_singleton_self _)
  obtain ⟨a₂, hsecond, hport₂, hmore₂, hframe₂⟩ :=
    hmore₁.strtok_delim hport.nonempty hport.notDelim (List.mem_singleton_self _)
  obtain ⟨a₃, hthird, hflag₃, hmsg₃, hframe₃⟩ :=
    hmore₂.strtok_delim hflag.nonempty hflag.notDelim (List.mem_singleton_self _)
  have hfourth := hmsg₃.strtok_last hmsg.nonempty hmsg.notDelim
  have hdest₂ := hframe₂ 0 dest (by omega) hdest₁
  exact ⟨a₁, a₂, a₃, _, _, _, _, hfirst, hsecond, hthird, hfourth, hport₂,
    hframe₃ 0 dest (by omega) hdest₂, hframe₃ _ _ (by omega) hport₂, hflag₃, hmsg₃⟩

theorem parseClientMessage_msgSequence {splitMsg : List.Vector Char 100} (hdest : FieldText dest)
    (hmsg : FieldText msg) (hport : IsInt32 port) (hflag : IsInt32 flag)
    (h : Holds '\x00' splitMsg (msgSequence dest port flag msg)) (sunPath : String) :
    parseClientMessage sunPath splitMsg =
      some { sunPath, destinationAddr := String.ofList dest, destinationPort := port, flag, msg } := by
  obtain ⟨a₁, a₂, a₃, i₁, i₂, i₃, i₄, hfirst, hsecond, hthird, hfourth, hport₂, hdest₃, -, hflag₃, hmsg₃⟩ :=
    strtok_msgSequence hdest hmsg h
  simp only [parseClientMessage, hfirst, hsecond, hthird, hfourth, hport₂.stringAt, hdest₃.stringAt,
    hflag₃.stringAt, hmsg₃.stringAt, atoi_intText hport, atoi_intText hflag, some_bind]

theorem printReceivingMsg_msgSequence {n : Nat} {recvline : List.Vector Char n} (hdest : FieldText dest)
    (hmsg : FieldText msg) (hport : IsInt32 port) (h : Holds '\x00' recvline (msgSequence dest port flag msg))
    (srcHostName destHostName : String) : printReceivingMsg recvline srcHostName destHostName = some {
      destAddr := dest
      sourcePortNum := port
      flagStr := intText flag
      sourceMsg := msg
      printed := receivingText srcHostName destHostName msg } := by
  obtain ⟨a₁, a₂, a₃, i₁, i₂, i₃, i₄, hfirst, hsecond, hthird, hfourth, -, hdest₃, hport₃, hflag₃, hmsg₃⟩ :=
    strtok_msgSequence hdest hmsg h
  simp only [printReceivingMsg, hfirst, hsecond, hthird, hfourth, hport₃.stringAt, hdest₃.stringAt,
    hflag₃.stringAt, hmsg₃.stringAt, atoi_intText hport, some_bind]

/-- A datagram that is shorter than the array stands in it as a string. -/
theorem holds_received {n : Nat} {data : List Char} (hnul : '\x00' ∉ data) (hn : data.length < n) :
    Holds '\x00' (received (zeroed n) data) data := by
  obtain ⟨k, hk⟩ : ∃ k, n - data.length = k + 1 := ⟨n - data.length - 1, by omega⟩
  have hzeroes : (zeroed n).toList = List.replicate n '\x00' := rfl
  refine ⟨hnul, List.replicate k '\x00', ?_⟩
  rw [received, List.Vector.toList_mk, List.take_of_length_le hn.le, hzeroes, List.drop_replicate, hk,
    List.replicate_succ]

theorem msgSend_eq (buffer : List.Vector Char maxline) (hnul : '\x00' ∉ msgSequence dest port flag msg)
    (hline : (msgSequence dest port flag msg).length < maxline) :
    msgSend buffer dest port msg flag =
      some { sunPath := unixdgClient, data := msgSequence dest port flag msg } := by
  obtain ⟨written, hput, hholds⟩ := putString_holds buffer hnul hline
  simp only [msgSend, hput, hholds.holdsAt.stringAt, some_bind]

theorem msgSend2_eq (buffer : List.Vector Char maxline) (hport : port ≠ 147) (sunPath : String) :
    msgSend2 buffer dest port msg flag sunPath =
      (msgSend buffer dest port msg flag).map fun datagram => { datagram with sunPath } := by
  rw [msgSend2, if_neg hport, msgSend]
  cases putString '\x00' buffer (msgSequence dest port flag msg) with
  | none => rfl
  | some written => cases hdata : stringAt '\x00' written 0 <;> simp [hdata]

theorem receiveClientMessage_msgSequence (hdest : FieldText dest) (hmsg : FieldText msg) (hport : IsInt32 port)
    (hflag : IsInt32 flag) (hlen : (msgSequence dest port flag msg).length < 100) (hline : 100 ≤ maxline)
    (sunPath : String) : receiveClientMessage maxline sunPath (msgSequence dest port flag msg) =
      some { sunPath, destinationAddr := String.ofList dest, destinationPort := port, flag, msg } := by
  have hmesg := holds_received (nul_notMem_msgSequence hdest hmsg) (hlen.trans_le hline)
  obtain ⟨splitMsg, hcopy, hsplit⟩ := hmesg.strcpy (zeroed 100) hlen
  simp only [receiveClientMessage, hcopy, some_bind]
  exact parseClientMessage_msgSequence hdest hmsg hport hflag hsplit sunPath

/-- **The local messages.** What `msgSend` sends is taken apart by the ODR, and what `msgSend2` sends by the
client, into the destination, the port, the flag and the message. -/
theorem localMessage_roundTrip (hline : 100 ≤ maxline) (hdest : FieldText dest) (hmsg : FieldText msg)
    (hport : IsInt32 port) (hown : port ≠ 147) (hflag : IsInt32 flag)
    (hlen : (msgSequence dest port flag msg).length < 100) (buffer : List.Vector Char maxline)
    (sunPath : String) :
    (∃ datagram, msgSend buffer dest port msg flag = some datagram ∧
      receiveClientMessage maxline sunPath datagram.data =
        some { sunPath, destinationAddr := String.ofList dest, destinationPort := port, flag, msg }) ∧
    ∃ datagram, msgSend2 buffer dest port msg flag sunPath = some datagram ∧
      ∀ n (recvline : List.Vector Char n) srcHostName destHostName, Holds '\x00' recvline datagram.data →
        ∃ received, printReceivingMsg recvline srcHostName destHostName = some received ∧
          received.destAddr = dest ∧ received.sourcePortNum = port ∧ atoi received.flagStr = some flag ∧
          received.sourceMsg = msg := by
  have hsend := msgSend_eq buffer (nul_notMem_msgSequence hdest hmsg) (hlen.trans_le hline)
  refine ⟨⟨_, hsend, receiveClientMessage_msgSequence hdest hmsg hport hflag hlen hline sunPath⟩, ?_⟩
  refine ⟨_, by rw [msgSend2_eq buffer hown, hsend, Option.map_some], ?_⟩
  intro n recvline srcHostName destHostName hholds
  have hprint := printReceivingMsg_msgSequence hdest hmsg hport hholds srcHostName destHostName
  exact ⟨_, hprint, rfl, rfl, atoi_intText hflag, rfl⟩

/-- The client's first message. -/
theorem localMessage_roundTrip_request : ∃ datagram,
    msgSend (zeroed 4096) "130.245.156.22".toList 5678 "request time".toList 0 = some datagram ∧
      receiveClientMessage 4096 "/tmp/client" datagram.data = some {
        sunPath := "/tmp/client"
        destinationAddr := String.ofList "130.245.156.22".toList
        destinationPort := 5678
        flag := 0
        msg := "request time".toList } :=
  (localMessage_roundTrip (by decide) ⟨by decide, by decide, by decide⟩ ⟨by decide, by decide, by decide⟩
    ⟨by decide, by decide⟩ (by decide) ⟨by decide, by decide⟩ (by decide) (zeroed 4096) "/tmp/client").1

/-- A message that was sent alone has no second token, whose number would be read. -/
theorem printReceivingMsg_alone {n : Nat} {recvline : List.Vector Char n} (hmsg : FieldText msg)
    (h : Holds '\x00' recvline msg) (srcHostName destHostName : String) :
    printReceivingMsg recvline srcHostName destHostName = none := by
  have hfirst := h.holdsAt.strtok_last hmsg.nonempty hmsg.notDelim
  have hsecond : strtok '\x00' [';'] recvline (0 + msg.length) =
      some { start := none, a := recvline, left := 0 + msg.length } :=
    h.holdsAt.at_end.strtok_nil (by decide)
  simp only [printReceivingMsg, hfirst, hsecond, some_bind]
  rfl

end

end Sockets.Odr.Local
