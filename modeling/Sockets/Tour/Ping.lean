/-
The bytes of a ping. `send_v4` makes an echo request itself, from the Ethernet
header on, and `proc_v4` reads the reply with its IP header.

Of the request two checksums are taken. That of the ICMP message is right.
That of the IP header is taken over the message too, which no reader of the
header does; but the message verifies by then, and so adds nothing
(`readFrame_sendV4`). Whoever answers is read as having done so, whatever
options its header has, and is counted (`readPing_answer`).

`in_cksum` is not of this program: what it computes is a parameter.
-/
import Sockets.Arp.Message
import Sockets.Lib.Checksum
import Sockets.Lib.CString
import Sockets.Tour.Arguments

namespace Sockets.Tour

open Arp (Ipv4)
open Odr (Mac)

abbrev ethrFrameLen : Nat := 1510
def datalen : Nat := 16
def sizeofIcmp : Nat := 28

def icmpEcho : Nat := 8

/-- `struct ip`; of its first byte the high half is `ip_v`, the low half `ip_hl`. -/
structure IpHeader where
  ipVHl : UInt8
  ipTos : UInt8 := 0
  ipLen : Nat
  ipId : Nat
  ipOff : Nat := 0
  ipTtl : UInt8
  ipP : UInt8
  ipSum : Nat := 0
  ipSrc : Ipv4
  ipDst : Ipv4

/-- The front of `struct icmp`. -/
structure IcmpHeader where
  icmpType : UInt8
  icmpCode : UInt8
  icmpCksum : Nat := 0
  icmpId : Nat
  icmpSeq : Nat

def IpHeader.ipV (ip : IpHeader) : Nat := ip.ipVHl.toNat / 2 ^ 4
def IpHeader.ipHl (ip : IpHeader) : Nat := ip.ipVHl.toNat % 2 ^ 4

/-- The length, the identification and the offset have been through `htons`. -/
def ipLayout : Codec (UInt8 × UInt8 × Nat × Nat × Nat × UInt8 × UInt8 × Nat × Ipv4 × Ipv4) UInt8 :=
  Codec.symbol.pair <| Codec.symbol.pair <| netWord.pair <| netWord.pair <| netWord.pair <| Codec.symbol.pair <|
    Codec.symbol.pair <| word.pair <| (Codec.vector 4).pair (Codec.vector 4)

/-- The identification has been through `htons`, the sequence number has not. -/
def icmpLayout : Codec (UInt8 × UInt8 × Nat × Nat × Nat) UInt8 :=
  Codec.symbol.pair <| Codec.symbol.pair <| word.pair <| netWord.pair word

def IpHeader.fields (ip : IpHeader) :=
  (ip.ipVHl, ip.ipTos, ip.ipLen, ip.ipId, ip.ipOff, ip.ipTtl, ip.ipP, ip.ipSum, ip.ipSrc, ip.ipDst)

def IpHeader.ofFields : UInt8 × UInt8 × Nat × Nat × Nat × UInt8 × UInt8 × Nat × Ipv4 × Ipv4 → IpHeader
  | (ipVHl, ipTos, ipLen, ipId, ipOff, ipTtl, ipP, ipSum, ipSrc, ipDst) =>
    { ipVHl, ipTos, ipLen, ipId, ipOff, ipTtl, ipP, ipSum, ipSrc, ipDst }

def IcmpHeader.fields (icmp : IcmpHeader) :=
  (icmp.icmpType, icmp.icmpCode, icmp.icmpCksum, icmp.icmpId, icmp.icmpSeq)

def IcmpHeader.ofFields : UInt8 × UInt8 × Nat × Nat × Nat → IcmpHeader
  | (icmpType, icmpCode, icmpCksum, icmpId, icmpSeq) => { icmpType, icmpCode, icmpCksum, icmpId, icmpSeq }

def IpHeader.bytes (ip : IpHeader) : List UInt8 := ipLayout.enc ip.fields
def IcmpHeader.bytes (icmp : IcmpHeader) : List UInt8 := icmpLayout.enc icmp.fields

/-- The headers at the front of these bytes. -/
def IpHeader.ofBytes (bytes : List UInt8) : Option IpHeader :=
  (ipLayout.dec bytes).map fun p => IpHeader.ofFields p.1

def IcmpHeader.ofBytes (bytes : List UInt8) : Option IcmpHeader :=
  (icmpLayout.dec bytes).map fun p => IcmpHeader.ofFields p.1

/-! ## The request -/

/-- What is behind the front of the message: a pattern, with the time written over it, and the rest of the
buffer. -/
def echoData (timeval : List UInt8) : List UInt8 :=
  (received (List.Vector.replicate datalen 0xa5) timeval).toList ++ List.replicate (sizeofIcmp - 8) 0

def echoHeader (icmpSeq : Int) (icmpCksum : Nat) : IcmpHeader where
  icmpType := 8
  icmpCode := 0
  icmpCksum
  icmpId := ipIdentification
  icmpSeq := (icmpSeq % 2 ^ 16).toNat

def requestHeader (src dst : Ipv4) (ipSum : Nat) : IpHeader where
  ipVHl := 0x45
  ipLen := 20 + sizeofIcmp + datalen
  ipId := ipIdentification
  ipTtl := 255
  ipP := 1
  ipSum
  ipSrc := src
  ipDst := dst

/-- The frame that `send_v4` sends, with the MAC address it has from `areq`. -/
def sendV4 (inCksum : List UInt8 → UInt16) (dstMac localMac : Mac) (src dst : Ipv4) (icmpSeq : Int)
    (timeval : List UInt8) : List UInt8 :=
  let data := echoData timeval
  -- the buffer was cleared, so a checksum is taken with a 0 in its own place
  let icmp := echoHeader icmpSeq (inCksum ((echoHeader icmpSeq 0).bytes ++ data)).toNat
  let ip := requestHeader src dst (inCksum ((requestHeader src dst 0).bytes ++ (icmp.bytes ++ data))).toNat
  let front := dstMac.toList ++ localMac.toList ++ [0x08, 0x00] ++ (ip.bytes ++ (icmp.bytes ++ data))
  front ++ List.replicate (ethrFrameLen - front.length) 0

/-! ## The reply -/

/-- The number of the host that `gethostbyaddr` knows, if there is room for its name. -/
def pingNode (hName : Option (List Char)) : Option Int := do
  let hName ← hName
  if hName.length < 20 then do
    let hName ← zeroName hName
    atoi hName
  else none

/-- What `proc_v4` reads of a buffer into which `len` bytes have come. -/
def readPacket (gethostbyaddr : Ipv4 → Option (List Char)) (recvbuf : List UInt8) (len : Nat) : Option IcmpPacket := do
  let ip ← IpHeader.ofBytes recvbuf
  let icmp ← IcmpHeader.ofBytes (recvbuf.drop (ip.ipHl <<< 2))
  some {
    ipHl := ip.ipHl
    ipP := ip.ipP.toNat
    len
    icmpType := icmp.icmpType.toNat
    icmpId := icmp.icmpId
    -- without a host there is no place for its counter
    pingNode := (pingNode (gethostbyaddr ip.ipSrc)).getD (-1) }

/-- `read_ping`, into a buffer that had these bytes. -/
def readPing (gethostbyaddr : Ipv4 → Option (List Char)) (node : Node) (buf : List.Vector UInt8 ethrFrameLen)
    (bytes : List UInt8) : Option Node :=
  (readPacket gethostbyaddr (received buf bytes).toList (min bytes.length ethrFrameLen)).bind node.procV4

/-! ## What a host does with a frame -/

/-- A datagram that a host accepts: its header, and what is behind it. -/
structure Datagram where
  header : IpHeader
  body : List UInt8

/-- A host takes a datagram only if its header verifies; what is behind its length is no part of it. -/
def readDatagram (bytes : List UInt8) : Option Datagram := do
  let header ← IpHeader.ofBytes bytes
  let length := header.ipHl * 4
  if header.ipV = 4 ∧ 20 ≤ length ∧ length ≤ header.ipLen ∧ header.ipLen ≤ bytes.length ∧
      Verifies topWord (netWords (bytes.take length)) then
    some { header, body := (bytes.take header.ipLen).drop length }
  else none

/-- And an echo request only if it verifies. -/
def readEcho (datagram : Datagram) : Option (IcmpHeader × List UInt8) := do
  let icmp ← IcmpHeader.ofBytes datagram.body
  if datagram.header.ipP.toNat = ipprotoIcmp ∧ icmp.icmpType.toNat = icmpEcho ∧ icmp.icmpCode = 0 ∧
      Verifies topWord (netWords datagram.body) then
    some (icmp, datagram.body.drop 8)
  else none

/-- These bytes are a reply of `src` to the request, under any header and with any checksum. -/
def AnswersEcho (src : Ipv4) (request : IcmpHeader × List UInt8) (bytes : List UInt8) : Prop :=
  ∃ header : IpHeader, ∃ options : List UInt8, ∃ cksum : Nat, ipLayout.Valid header.fields ∧ cksum < 2 ^ 16 ∧
    header.ipSrc = src ∧ header.ipP.toNat = ipprotoIcmp ∧ header.ipHl * 4 = 20 + options.length ∧
    bytes = header.bytes ++ (options ++
      (({ request.1 with icmpType := 0, icmpCksum := cksum } : IcmpHeader).bytes ++ request.2))

/-! ## The headers -/

theorem IpHeader.length_bytes (ip : IpHeader) : ip.bytes.length = 20 := by
  have hvector (v : Ipv4) : ((Codec.vector 4).enc v).length = 4 := v.length_toList
  simp only [IpHeader.bytes, ipLayout, IpHeader.fields, Codec.pair, List.length_append, hvector]
  rfl

theorem IcmpHeader.length_bytes (icmp : IcmpHeader) : icmp.bytes.length = 8 := rfl

theorem length_echoData (timeval : List UInt8) : (echoData timeval).length = 36 := by
  rw [echoData, List.length_append, List.Vector.toList_length, List.length_replicate, datalen, sizeofIcmp]

theorem IpHeader.ofBytes_append {ip : IpHeader} (h : ipLayout.Valid ip.fields) (rest : List UInt8) :
    IpHeader.ofBytes (ip.bytes ++ rest) = some ip := by
  rw [IpHeader.ofBytes, IpHeader.bytes, ipLayout.dec_enc _ rest h]
  rfl

theorem IcmpHeader.ofBytes_append {icmp : IcmpHeader} (h : icmpLayout.Valid icmp.fields) (rest : List UInt8) :
    IcmpHeader.ofBytes (icmp.bytes ++ rest) = some icmp := by
  rw [IcmpHeader.ofBytes, IcmpHeader.bytes, icmpLayout.dec_enc _ rest h]
  rfl

theorem valid_echoHeader {cksum : Nat} (h : cksum < 2 ^ 16) (icmpSeq : Int) :
    icmpLayout.Valid (echoHeader icmpSeq cksum).fields := by
  have hid : ipIdentification < 2 ^ 16 := by decide
  have hseq : (icmpSeq % 2 ^ 16).toNat < 2 ^ 16 := by omega
  exact ⟨trivial, trivial, h, hid, hseq⟩

theorem valid_requestHeader {sum : Nat} (h : sum < 2 ^ 16) (src dst : Ipv4) :
    ipLayout.Valid (requestHeader src dst sum).fields := by
  have hid : ipIdentification < 2 ^ 16 := by decide
  have hlen : 20 + sizeofIcmp + datalen < 2 ^ 16 := by decide
  have hoff : 0 < 2 ^ 16 := by decide
  exact ⟨trivial, trivial, hlen, hid, hoff, trivial, trivial, h, trivial, trivial⟩

/-! ## The checksums -/

/-- What `in_cksum` is documented to compute. -/
def IsInCksum (inCksum : List UInt8 → UInt16) : Prop :=
  ∀ bytes, bytes.length < 2 ^ 16 → (inCksum bytes).toNat = internetChecksum bytes

section

variable {inCksum : List UInt8 → UInt16}

/-- The message verifies with its checksum. -/
theorem verifies_echo (hcksum : IsInCksum inCksum) (icmpSeq : Int) {data : List UInt8} (hdata : data.length = 36) :
    Verifies topWord (hostWords
      ((echoHeader icmpSeq (inCksum ((echoHeader icmpSeq 0).bytes ++ data)).toNat).bytes ++ data)) := by
  let back := (wordBytes ipIdentification).reverse ++ wordBytes (icmpSeq % 2 ^ 16).toNat ++ data
  have hbytes (cksum : Nat) : (echoHeader icmpSeq cksum).bytes ++ data = [8, 0] ++ (wordBytes cksum ++ back) := rfl
  have hback : Even back.length := by
    rw [List.length_append, hdata]
    exact (by decide : Even (4 + 36))
  have hsum := verifies_internetChecksum [8, 0] back [] even_two hback
    ⟨8, List.mem_cons_self, by decide⟩ (.inl rfl)
  have hlen : ((echoHeader icmpSeq 0).bytes ++ data).length < 2 ^ 16 := by
    rw [List.length_append, IcmpHeader.length_bytes, hdata]
    decide
  rw [List.append_nil] at hsum
  rwa [hcksum _ hlen, hbytes, hbytes]

/-- The header verifies, though its checksum was taken over a message behind it: the message verifies too. -/
theorem verifies_request (hcksum : IsInCksum inCksum) (src dst : Ipv4) {message : List UInt8}
    (hlen : message.length = 44) (hmessage : Verifies topWord (hostWords message)) :
    Verifies topWord (hostWords
      (requestHeader src dst (inCksum ((requestHeader src dst 0).bytes ++ message)).toNat).bytes) := by
  let front : List UInt8 := [0x45, 0] ++ (wordBytes (20 + sizeofIcmp + datalen)).reverse ++
    (wordBytes ipIdentification).reverse ++ (wordBytes 0).reverse ++ [255, 1]
  have hbytes (sum : Nat) : (requestHeader src dst sum).bytes =
      front ++ (wordBytes sum ++ (src.toList ++ dst.toList)) := rfl
  have hwhole : (requestHeader src dst 0).bytes ++ message =
      front ++ (wordBytes 0 ++ (src.toList ++ dst.toList ++ message)) := by
    rw [hbytes]
    simp only [List.append_assoc]
  have hback : Even (src.toList ++ dst.toList).length := by
    rw [List.length_append, Vector.length_toList, Vector.length_toList]
    decide
  have hsum := verifies_internetChecksum front (src.toList ++ dst.toList) message (by decide) hback
    ⟨0x45, List.mem_cons_self, by decide⟩ (.inr hmessage)
  have hlen : ((requestHeader src dst 0).bytes ++ message).length < 2 ^ 16 := by
    rw [List.length_append, IpHeader.length_bytes, hlen]
    decide
  rwa [hcksum _ hlen, hwhole, hbytes]

/-! ## The request arrives -/

theorem readEcho_message {header : IpHeader} {icmp : IcmpHeader} {data : List UInt8}
    (hp : header.ipP.toNat = ipprotoIcmp) (hvalid : icmpLayout.Valid icmp.fields)
    (htype : icmp.icmpType.toNat = icmpEcho) (hcode : icmp.icmpCode = 0)
    (hverifies : Verifies topWord (hostWords (icmp.bytes ++ data))) :
    readEcho { header, body := icmp.bytes ++ data } = some (icmp, data) := by
  simp only [readEcho, IcmpHeader.ofBytes_append hvalid, Option.bind_eq_bind, Option.bind_some]
  rw [if_pos ⟨hp, htype, hcode, (verifies_netWords_iff _).mpr hverifies⟩, List.drop_left' icmp.length_bytes]

/-- **The request is accepted**: both of its checksums verify, and it is read as it was made. -/
theorem readFrame_sendV4 (hcksum : IsInCksum inCksum) (dstMac localMac : Mac) (src dst : Ipv4) (icmpSeq : Int)
    (timeval : List UInt8) : ∃ datagram cksum,
      readDatagram ((sendV4 inCksum dstMac localMac src dst icmpSeq timeval).drop 14) = some datagram ∧
      cksum < 2 ^ 16 ∧ datagram.header.ipSrc = src ∧ datagram.header.ipDst = dst ∧
      readEcho datagram = some (echoHeader icmpSeq cksum, echoData timeval) := by
  let icmp := echoHeader icmpSeq (inCksum ((echoHeader icmpSeq 0).bytes ++ echoData timeval)).toNat
  let message := icmp.bytes ++ echoData timeval
  let ip := requestHeader src dst (inCksum ((requestHeader src dst 0).bytes ++ message)).toNat
  have hmessage : message.length = 44 := by
    rw [List.length_append, IcmpHeader.length_bytes, length_echoData]
  have hecho : Verifies topWord (hostWords message) := verifies_echo hcksum icmpSeq (length_echoData timeval)
  have hheader : Verifies topWord (hostWords ip.bytes) := verifies_request hcksum src dst hmessage hecho
  have hethernet : (dstMac.toList ++ localMac.toList ++ [0x08, 0x00]).length = 14 := by
    simp only [List.length_append, Vector.length_toList, List.length_cons, List.length_nil]
  obtain ⟨rest, hframe⟩ : ∃ rest, sendV4 inCksum dstMac localMac src dst icmpSeq timeval =
      dstMac.toList ++ localMac.toList ++ [0x08, 0x00] ++ (ip.bytes ++ message ++ rest) :=
    ⟨_, List.append_assoc _ _ _⟩
  have hip : ip.bytes.length = 20 := ip.length_bytes
  rw [List.append_assoc ip.bytes] at hframe
  have hvalid : ipLayout.Valid ip.fields := valid_requestHeader (UInt16.toNat_lt _) src dst
  have hvalid' : icmpLayout.Valid icmp.fields := valid_echoHeader (UInt16.toNat_lt _) icmpSeq
  have hversion : ip.ipV = 4 := (by decide : (0x45 : UInt8).toNat / 2 ^ 4 = 4)
  have hwords : ip.ipHl * 4 = 20 := (by decide : (0x45 : UInt8).toNat % 2 ^ 4 * 4 = 20)
  have hlength : ip.ipLen = 64 := rfl
  have htake : (ip.bytes ++ (message ++ rest)).take 64 = ip.bytes ++ message := by
    rw [← List.append_assoc, List.take_left' (by rw [List.length_append, hip, hmessage])]
  refine ⟨⟨ip, message⟩, icmp.icmpCksum, ?_, UInt16.toNat_lt _, rfl, rfl, ?_⟩
  · have hlen : 64 ≤ (ip.bytes ++ (message ++ rest)).length := by
      rw [List.length_append, List.length_append, hip, hmessage]
      omega
    have hverifies : Verifies topWord (netWords ((ip.bytes ++ (message ++ rest)).take 20)) := by
      rw [List.take_left' hip, verifies_netWords_iff]
      exact hheader
    rw [hframe, List.drop_left' hethernet, readDatagram, IpHeader.ofBytes_append hvalid]
    simp only [Option.bind_eq_bind, Option.bind_some, hversion, hwords, hlength]
    rw [if_pos ⟨trivial, le_rfl, by decide, hlen, hverifies⟩, htake, List.drop_left' hip]
  · exact readEcho_message rfl hvalid' rfl rfl hecho

end

/-! ## The reply is counted -/

/-- What comes in and has room stands at the front of the buffer. -/
theorem toList_received {α : Type} {n : Nat} (buf : List.Vector α n) {bytes : List α} (h : bytes.length ≤ n) :
    ∃ rest, (received buf bytes).toList = bytes ++ rest :=
  ⟨_, congrArg (· ++ _) (List.take_of_length_le h)⟩

theorem pingNode_text (name : VmName) (h : name.text.length < 20) : pingNode (some name.text) = some name.number := by
  have hzero : zeroName name.text = some ('0' :: '0' :: name.digits) := rfl
  simp only [pingNode, if_pos h, hzero, name.atoi_zeroes, Option.bind_eq_bind, Option.bind_some]

variable {gethostbyaddr : Ipv4 → Option (List Char)} {src : Ipv4} {name : VmName}

/-- What `proc_v4` reads of a reply. -/
theorem readPacket_answer (hname : gethostbyaddr src = some name.text) (hroom : name.text.length < 20)
    {request : IcmpHeader × List UInt8} (hvalid : icmpLayout.Valid request.1.fields) (hdata : request.2.length = 36)
    {bytes : List UInt8} (h : AnswersEcho src request bytes) (buf : List.Vector UInt8 ethrFrameLen) :
    ∃ packet, readPacket gethostbyaddr (received buf bytes).toList (min bytes.length ethrFrameLen) = some packet ∧
      packet.ipP = ipprotoIcmp ∧ 8 ≤ packet.len - (packet.ipHl <<< 2 : Nat) ∧ packet.icmpType = icmpEchoReply ∧
      packet.icmpId = request.1.icmpId ∧ packet.pingNode = name.number := by
  obtain ⟨header, options, cksum, hheader, hcksum, rfl, hp, hwords, rfl⟩ := h
  obtain ⟨icmp, data⟩ := request
  obtain ⟨htype, hcode, -, hid, hseq⟩ := hvalid
  dsimp only at hdata htype hcode hid hseq ⊢
  let reply : IcmpHeader := { icmp with icmpType := 0, icmpCksum := cksum }
  have hreply : icmpLayout.Valid reply.fields := ⟨htype, hcode, hcksum, hid, hseq⟩
  have hshift : header.ipHl <<< 2 = 20 + options.length := by
    rw [Nat.shiftLeft_eq]
    exact hwords
  have hfront : (header.bytes ++ options).length = 20 + options.length := by
    rw [List.length_append, header.length_bytes]
  have hlen : (header.bytes ++ (options ++ (reply.bytes ++ data))).length = 20 + options.length + 44 := by
    rw [← List.append_assoc, List.length_append, hfront, List.length_append, reply.length_bytes, hdata]
  have hmost : options.length ≤ 40 := by
    have hhl : header.ipHl < 2 ^ 4 := Nat.mod_lt _ (by decide)
    omega
  have hfits : (header.bytes ++ (options ++ (reply.bytes ++ data))).length ≤ ethrFrameLen := by
    rw [hlen, ethrFrameLen]
    omega
  obtain ⟨rest, hbuf⟩ := toList_received buf hfits
  have hip : IpHeader.ofBytes (received buf (header.bytes ++ (options ++ (reply.bytes ++ data)))).toList =
      some header := by
    rw [hbuf, List.append_assoc]
    exact IpHeader.ofBytes_append hheader _
  have hicmp : IcmpHeader.ofBytes ((received buf (header.bytes ++ (options ++ (reply.bytes ++ data)))).toList.drop
      (header.ipHl <<< 2)) = some reply := by
    rw [hbuf, hshift, ← List.append_assoc header.bytes, List.append_assoc _ _ rest, List.drop_left' hfront,
      List.append_assoc]
    exact IcmpHeader.ofBytes_append hreply _
  have hread (len : Nat) : readPacket gethostbyaddr
      (received buf (header.bytes ++ (options ++ (reply.bytes ++ data)))).toList len = some {
        ipHl := header.ipHl, ipP := header.ipP.toNat, len, icmpType := reply.icmpType.toNat, icmpId := reply.icmpId
        pingNode := (pingNode (gethostbyaddr header.ipSrc)).getD (-1) } := by
    simp only [readPacket, hip, hicmp, Option.bind_eq_bind, Option.bind_some]
  refine ⟨_, hread _, hp, ?_, rfl, rfl, ?_⟩
  · show 8 ≤ ((min _ ethrFrameLen : Nat) : Int) - ((header.ipHl <<< 2 : Nat) : Int)
    rw [Nat.min_eq_left hfits, hlen, hshift]
    omega
  · show (pingNode (gethostbyaddr header.ipSrc)).getD (-1) = name.number
    rw [hname, pingNode_text name hroom, Option.getD_some]

/-- The node that answers is the one whose replies are counted. -/
theorem readPing_answer (hname : gethostbyaddr src = some name.text) (hroom : name.text.length < 20)
    {j : Fin pingSize} (hj : name.number = (j.val : Int)) {request : IcmpHeader × List UInt8}
    (hvalid : icmpLayout.Valid request.1.fields) (hid : request.1.icmpId = ipIdentification)
    (hdata : request.2.length = 36) {bytes : List UInt8} (h : AnswersEcho src request bytes)
    (buf : List.Vector UInt8 ethrFrameLen) (node : Node) :
    readPing gethostbyaddr node buf bytes =
      some { node with pingCounterArray := node.pingCounterArray.set j (node.pingCounterArray[j] + 1) } := by
  obtain ⟨packet, hread, hp, hlen, htype, hpacketId, hnode⟩ := readPacket_answer hname hroom hvalid hdata h buf
  have hindex : index? pingSize packet.pingNode = some j := by
    obtain ⟨i, hi, hval⟩ : ∃ i : Fin pingSize, index? pingSize packet.pingNode = some i ∧
        (i.val : Int) = packet.pingNode := index?_isSome (by rw [hnode, hj]; omega)
    rw [hi, Fin.ext (by omega : i.val = j.val)]
  rw [readPing, hread, Option.bind_some, Node.procV4, if_neg (not_not.mpr hp), if_neg (by omega), if_pos htype,
    if_neg (by rw [hpacketId, hid]; exact fun hne => hne rfl), hindex, Option.map_some]

/-- **A ping.** The request that a node sends is accepted where it goes, with the number of replies counted so
far; and whatever answers it is counted, for the node that was asked. -/
theorem ping_counted {inCksum : List UInt8 → UInt16} (hcksum : IsInCksum inCksum) {dst : Ipv4}
    (hname : gethostbyaddr dst = some name.text) (hroom : name.text.length < 20) {j : Fin pingSize}
    (hj : name.number = (j.val : Int)) (node : Node) (dstMac localMac : Mac) (src : Ipv4) (timeval : List UInt8) :
    ∃ datagram request,
      readDatagram ((sendV4 inCksum dstMac localMac src dst node.pingCounterArray[j] timeval).drop 14) =
        some datagram ∧
      datagram.header.ipSrc = src ∧ datagram.header.ipDst = dst ∧ readEcho datagram = some request ∧
      (request.1.icmpSeq : Int) = node.pingCounterArray[j] % 2 ^ 16 ∧
      ∀ bytes, AnswersEcho dst request bytes → ∀ buf (later : Node), readPing gethostbyaddr later buf bytes =
        some { later with pingCounterArray := later.pingCounterArray.set j (later.pingCounterArray[j] + 1) } := by
  obtain ⟨datagram, cksum, hread, hcksumLt, hsrc, hdst, hecho⟩ :=
    readFrame_sendV4 hcksum dstMac localMac src dst node.pingCounterArray[j] timeval
  refine ⟨datagram, _, hread, hsrc, hdst, hecho, ?_, ?_⟩
  · exact Int.toNat_of_nonneg (Int.emod_nonneg _ (by decide))
  · intro bytes hanswer buf later
    exact readPing_answer hname hroom hj (valid_echoHeader hcksumLt _) rfl (length_echoData timeval) hanswer buf later

/-- `in_cksum` as it is documented. -/
def exampleInCksum (bytes : List UInt8) : UInt16 := UInt16.ofNat (internetChecksum bytes)

theorem isInCksum_example : IsInCksum exampleInCksum := by
  intro bytes hlen
  have hle : internetChecksum bytes ≤ topWord := Nat.sub_le _ _
  exact UInt16.toNat_ofNat_of_lt' (by simp only [topWord, UInt16.size] at hle ⊢; omega)

/-- Whoever is asked about, it is vm3. -/
def exampleHosts : Ipv4 → Option (List Char) := fun _ => some (VmName.ofNat 3 (by decide)).text

/-- vm1 pings vm3 for the first time, and is answered under a header without options. -/
theorem ping_counted_first :
    let vm3 : Ipv4 := #v[130, 245, 156, 23]
    let frame := sendV4 exampleInCksum #v[0x00, 0x0c, 0x29, 0xa3, 0x1f, 0x19] #v[0x00, 0x0c, 0x29, 0x49, 0x3f, 0x5b]
      #v[130, 245, 156, 21] vm3 0 []
    ∃ datagram request bytes, readDatagram (frame.drop 14) = some datagram ∧ readEcho datagram = some request ∧
      AnswersEcho vm3 request bytes ∧ (readPing exampleHosts {} (.replicate _ 0) bytes).map
        (·.pingCounterArray.toList) = some [0, 0, 0, 1, 0, 0, 0, 0, 0, 0, 0] := by
  intro vm3 frame
  have hroom : (VmName.ofNat 3 (by decide)).text.length < 20 := by decide
  have hnumber : (VmName.ofNat 3 (by decide)).number = ((3 : Fin pingSize).val : Int) := by decide
  have hname : exampleHosts vm3 = some (VmName.ofNat 3 (by decide)).text := rfl
  obtain ⟨datagram, request, hread, -, -, hecho, -, hcounted⟩ := ping_counted isInCksum_example hname hroom hnumber {}
    #v[0x00, 0x0c, 0x29, 0xa3, 0x1f, 0x19] #v[0x00, 0x0c, 0x29, 0x49, 0x3f, 0x5b] #v[130, 245, 156, 21] []
  have hanswer : AnswersEcho vm3 request ((requestHeader vm3 #v[130, 245, 156, 21] 0).bytes ++
      ([] ++ (({ request.1 with icmpType := 0, icmpCksum := 0 } : IcmpHeader).bytes ++ request.2))) :=
    ⟨requestHeader vm3 #v[130, 245, 156, 21] 0, [], 0, valid_requestHeader (by decide) _ _, by decide, rfl, rfl,
      by decide, rfl⟩
  refine ⟨datagram, request, _, hread, hecho, hanswer, ?_⟩
  rw [hcounted _ hanswer]
  decide

end Sockets.Tour
