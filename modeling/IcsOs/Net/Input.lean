/- GID: IcsOs/Net/Input
   generality: I
   source: kernel/net/ethernet.c, kernel/net/ipv4.c, kernel/net/ipv4.h, kernel/net/icmp.c,
     kernel/net/icmp.h, kernel/net/udp.c, kernel/net/udp.h, kernel/net/tcp.c, kernel/net/tcp.h,
     kernel/net/arp.c, kernel/net/arp.h, kernel/net/checksum.h, kernel/net/dhcp.c, kernel/net/dns.c,
     kernel/net/sock.c, kernel/net/pbuf.c, kernel/net/netif.c
   digest: Frames on their way through the network stack, with every access to a buffer checked. -/

import Mathlib.Algebra.Group.Nat.Defs
import Mathlib.Data.Fintype.Basic
import IcsOs.Lib.Checked

set_option autoImplicit false

namespace IcsOs.Net.Input

open Lib.Checked

abbrev Byte := UInt8

/-- Addition and subtraction of `unsigned int`. -/
def add32 (a b : Nat) : Nat := (a + b) % 2 ^ 32

def sub32 (a b : Nat) : Nat := (a + 2 ^ 32 - b) % 2 ^ 32

def pbufSize : Nat := 1514
def ethHdrLen : Nat := 14
def arpPktLen : Nat := 28
def ipv4HdrMin : Nat := 20
def icmpHdrLen : Nat := 8
def udpHdrLen : Nat := 8
def tcpHdrMin : Nat := 20
def tcpRxMax : Nat := 1024
def tcpUnaMax : Nat := 2048
def tcpMss : Nat := 1024
def sockUdpRxMax : Nat := 512
def dhcpRxSize : Nat := 576
def dnsMaxPkt : Nat := 512
def arpCacheSize : Nat := 8

/-- Numbers in network order. -/
def beNat (bytes : List Byte) : Nat := bytes.foldl (fun n b => n * 256 + b.toNat) 0

def be16 (p : List Byte) (off : Nat) : Option Nat := do
  let bytes ← readAt p off 2
  pure (beNat bytes)

def be32 (p : List Byte) (off : Nat) : Option Nat := do
  let bytes ← readAt p off 4
  pure (beNat bytes)

def byteAt (p : List Byte) (off : Nat) : Option Nat := do
  let bytes ← readAt p off 1
  pure (beNat bytes)

def be16Bytes (n : Nat) : List Byte := [UInt8.ofNat (n / 256), UInt8.ofNat n]

def be32Bytes (n : Nat) : List Byte := be16Bytes (n / 65536) ++ be16Bytes n

/-- The sum of 16-bit words, an odd last byte padded. -/
def netChecksumAdd : List Byte → Nat → Nat
  | [], sum => sum
  | [a], sum => sum + a.toNat * 256
  | a :: b :: rest, sum => netChecksumAdd rest (sum + (a.toNat * 256 + b.toNat))

def netChecksumFold (sum : Nat) : Nat :=
  if sum < 65536 then 65535 - sum else netChecksumFold (sum % 65536 + sum / 65536)
termination_by sum
decreasing_by omega

def netChecksum (data : List Byte) : Nat := netChecksumFold (netChecksumAdd data 0)

inductive TcpState
  | closed
  | listen
  | synSent
  | synRcvd
  | established
  | finWait1
  | closeWait
  | lastAck
  deriving DecidableEq

/-- Without the times of the retransmission timer, which may run out any time. -/
structure Pcb where
  state : TcpState
  echo : Bool
  inUse : Bool
  pendingAccept : Bool
  localPort : Nat
  remotePort : Nat
  remoteIp : Nat
  sndUna : Nat
  sndNxt : Nat
  rcvNxt : Nat
  rxBuf : List Byte
  rxLen : Nat
  unaBuf : List Byte
  unaLen : Nat
  unaSeq : Nat
  parent : Option (Fin 8)
  nif : Bool

structure ArpEntry where
  ip : Nat
  mac : List Byte
  valid : Bool

/-- What an inbound datagram reads or changes of `struct sock`. -/
structure Sock where
  bound : Bool
  localPort : Nat
  peerIp : Nat
  peerPort : Nat
  rxBuf : List Byte
  rxLen : Nat
  rxFromIp : Nat
  rxFromPort : Nat

/-- What a call does after its output is done, successfully or not. -/
inductive Cont
  | stop
  | sent (pcb : Fin 8) (n : Nat) (next : Cont)
  | fin (pcb : Fin 8) (seq plen flags : Nat)
  | closeWait (pcb : Fin 8)
  | lastAck (pcb : Fin 8)
  | finWait (pcb : Fin 8)
  | connect (pcb : Fin 8)
  | closing (pcb : Fin 8)

/-- A hardware address, or acknowledgements that leave space. -/
inductive Wait
  | arp (pkt : List Byte) (dst : Nat)
  | finished (ok : Bool)
  | sendLoop (pcb : Fin 8) (buf : List Byte)

structure Task where
  wait : Wait
  cont : Cont

/-- One interface, its caches and receivers, and the waiting calls. -/
structure Stack where
  mac : List Byte
  ip : Nat
  netmask : Nat
  gateway : Nat
  configured : Bool
  arp : List ArpEntry
  pcbs : Fin 8 → Pcb
  socks : Fin 8 → Option Sock
  dhcpWaiting : Bool
  dhcpRx : List Byte
  dhcpRxLen : Nat
  dnsWaiting : Bool
  dnsWaitPort : Nat
  dnsRx : List Byte
  dnsRxLen : Nat
  pingWaiting : Bool
  pingId : Nat
  pingSeq : Nat
  pingSrc : Nat
  udpWait : Bool
  udpWaitSport : Nat
  udpWaitDport : Nat
  udpWaitPayload : List Byte
  udpWaitPlen : Nat
  dropNextData : Bool
  ipv4IdCounter : Nat
  tasks : List Task

/-- Which buffers a call gets, and a new connection's initial number. -/
structure Pool where
  payload : Bool
  segment : Bool
  packet : Bool
  iss : Nat

/-- A result of a call: the stack, and what the call goes on with. -/
abbrev Result := Stack × Option Task

/-- A packet put into a buffer of the pool. -/
def pbufFill (data : List Byte) : Option (List Byte) := writeAt (List.replicate pbufSize 0) 0 data

def arpCacheLookup (net : Stack) (ip : Nat) : Option (List Byte) :=
  (net.arp.find? fun e => e.valid && e.ip == ip).map ArpEntry.mac

def netIpRoute (net : Stack) (dst : Nat) : Nat :=
  if dst &&& net.netmask = net.ip &&& net.netmask then dst else net.gateway

def ipv4Header (net : Stack) (total dst proto sum : Nat) : List Byte :=
  [0x45, 0] ++ be16Bytes total ++ be16Bytes net.ipv4IdCounter ++ [0, 0, 64, UInt8.ofNat proto] ++
    be16Bytes sum ++ be32Bytes net.ip ++ be32Bytes dst

/-- `ipv4_output` up to the address resolution. -/
def ipv4Output (net : Stack) (payload : List Byte) (dst proto : Nat) (pool : Pool) :
    Option (Stack × Wait) :=
  let total := ipv4HdrMin + payload.length
  if net.configured = false ∨ pbufSize < total ∨ pool.packet = false then
    some (net, .finished false)
  else do
    let header := ipv4Header net total dst proto (netChecksum (ipv4Header net total dst proto 0))
    let _ ← pbufFill (header ++ payload)
    pure ({ net with ipv4IdCounter := net.ipv4IdCounter + 1 }, .arp (header ++ payload) dst)

/-- To a known hardware address; the device may refuse the frame. -/
def ethernetOutput (net : Stack) (pkt dmac : List Byte) (ethertype : Nat) (pool : Pool)
    (transmitted : Bool) : Option Bool :=
  if pbufSize < pkt.length + ethHdrLen ∨ pool.packet = false then some false
  else do
    let _ ← pbufFill (dmac.take 6 ++ net.mac.take 6 ++ be16Bytes ethertype ++ pkt)
    pure transmitted

/-- The pseudo header that checksums of UDP and TCP cover. -/
def pseudoHeader (src dst proto len : Nat) : List Byte :=
  be32Bytes src ++ be32Bytes dst ++ [0, UInt8.ofNat proto] ++ be16Bytes len

def transportChecksum (src dst proto : Nat) (data : List Byte) : Nat :=
  let sum := netChecksumFold
    (netChecksumAdd data (netChecksumAdd (pseudoHeader src dst proto data.length) 0))
  if sum = 0 then 0xFFFF else sum

def udpHeader (srcPort dstPort len sum : Nat) : List Byte :=
  be16Bytes srcPort ++ be16Bytes dstPort ++ be16Bytes len ++ be16Bytes sum

def udpBuild (srcPort dstPort : Nat) (payload : List Byte) (src dst : Nat) : List Byte :=
  let len := udpHdrLen + payload.length
  let sum := transportChecksum src dst 17 (udpHeader srcPort dstPort len 0 ++ payload)
  udpHeader srcPort dstPort len sum ++ payload

/-- `udp_send` up to the address resolution. -/
def udpSend (net : Stack) (dst srcPort dstPort : Nat) (payload : List Byte) (pool : Pool) :
    Option (Stack × Wait) :=
  if net.configured = false ∨ pbufSize < udpHdrLen + payload.length ∨ pool.segment = false then
    some (net, .finished false)
  else do
    let datagram ← pbufFill (udpBuild srcPort dstPort payload net.ip dst)
    ipv4Output net (datagram.take (udpHdrLen + payload.length)) dst 17 pool

def tcpHeader (pcb : Pcb) (seq flags window sum : Nat) : List Byte :=
  be16Bytes pcb.localPort ++ be16Bytes pcb.remotePort ++ be32Bytes seq ++ be32Bytes pcb.rcvNxt ++
    [0x50, UInt8.ofNat flags] ++ be16Bytes window ++ be16Bytes sum ++ [0, 0]

def tcpRcvWnd (pcb : Pcb) : Nat := if tcpRxMax ≤ pcb.rxLen then 0 else tcpRxMax - pcb.rxLen

def tcpBuildWin (net : Stack) (pcb : Pcb) (seq flags : Nat) (payload : List Byte) : List Byte :=
  let header := tcpHeader pcb seq flags (tcpRcvWnd pcb)
  header (transportChecksum net.ip pcb.remoteIp 6 (header 0 ++ payload)) ++ payload

def tcpFin : Nat := 1
def tcpSyn : Nat := 2
def tcpRst : Nat := 4
def tcpPsh : Nat := 8
def tcpAck : Nat := 16

def hasFlag (flags flag : Nat) : Bool := flags &&& flag != 0

/-- The block after `tcp_output` has numbered what it sends. -/
def advance (pcb : Pcb) (flags len : Nat) : Pcb :=
  let next := if hasFlag flags tcpSyn then add32 pcb.sndNxt 1
    else if len ≠ 0 then add32 pcb.sndNxt len else pcb.sndNxt
  { pcb with sndNxt := if hasFlag flags tcpFin then add32 next 1 else next }

/-- Up to the address resolution, with the block's new state. -/
def tcpOutput (net : Stack) (pcb : Pcb) (flags : Nat) (payload : List Byte) (pool : Pool) :
    Option (Stack × Pcb × Wait) :=
  if pcb.nif = false ∨ pbufSize < tcpHdrMin + payload.length ∨ pool.segment = false then
    some (net, pcb, .finished false)
  else do
    let segment := tcpBuildWin net pcb pcb.sndNxt flags payload
    let _ ← pbufFill segment
    let pcb' := advance pcb flags payload.length
    if payload ≠ [] ∧ net.dropNextData then
      pure ({ net with dropNextData := false }, pcb', .finished true)
    else
      let (net', wait) ← ipv4Output net segment pcb.remoteIp 6 pool
      pure (net', pcb', wait)

def Stack.setPcb (net : Stack) (i : Fin 8) (pcb : Pcb) : Stack :=
  { net with pcbs := Function.update net.pcbs i pcb }

theorem Stack.setPcb_self (net : Stack) (i : Fin 8) (pcb : Pcb) : (net.setPcb i pcb).pcbs i = pcb :=
  Function.update_self ..

theorem Stack.setPcb_ne (net : Stack) {i j : Fin 8} (pcb : Pcb) (other : j ≠ i) :
    (net.setPcb i pcb).pcbs j = net.pcbs j :=
  Function.update_of_ne other ..

/-- `tcp_output` on a block of the table, and what follows. -/
def outputFrom (net : Stack) (i : Fin 8) (flags : Nat) (payload : List Byte) (pool : Pool)
    (cont : Cont) : Option Result := do
  let (net', pcb, wait) ← tcpOutput net (net.pcbs i) flags payload pool
  pure (net'.setPcb i pcb, some ⟨wait, cont⟩)

/-- The entry of the address, else the first unused one, else 0. -/
def arpSlot (arp : List ArpEntry) (ip : Nat) : Nat :=
  match arp.findIdx? fun e => e.valid && e.ip == ip with
  | some i => i
  | none => (arp.findIdx? fun e => !e.valid).getD 0

def arpCacheInsert (net : Stack) (ip : Nat) (mac : List Byte) : Option Stack := do
  let arp ← writeAt net.arp (arpSlot net.arp ip) [⟨ip, mac, true⟩]
  pure { net with arp := arp }

/-- The sender of a packet is remembered. -/
def arpLearn (net : Stack) (spa : Nat) (sha : List Byte) : Option Stack :=
  if spa ≠ 0 then arpCacheInsert net spa sha else some net

def arpBuild (op : Nat) (sha : List Byte) (spa : Nat) (tha : List Byte) (tpa : Nat) : List Byte :=
  be16Bytes 1 ++ be16Bytes 0x0800 ++ [6, 4] ++ be16Bytes op ++ sha ++ be32Bytes spa ++ tha ++
    be32Bytes tpa

/-- Replies to a known hardware address wait for nothing. -/
def arpInput (net : Stack) (p : List Byte) (pool : Pool) (transmitted : Bool) : Option Stack :=
  if p.length < arpPktLen then some net
  else do
    let hwType ← be16 p 0
    let protoType ← be16 p 2
    let hwLen ← byteAt p 4
    let protoLen ← byteAt p 5
    if hwType ≠ 1 ∨ protoType ≠ 0x0800 ∨ hwLen ≠ 6 ∨ protoLen ≠ 4 then some net
    else do
      let op ← be16 p 6
      let sha ← readAt p 8 6
      let spa ← be32 p 14
      let _ ← readAt p 18 6
      let tpa ← be32 p 24
      let net' ← arpLearn net spa sha
      if op = 1 ∧ net'.configured ∧ tpa = net'.ip ∧ pool.segment then do
        let reply ← pbufFill (arpBuild 2 (net'.mac.take 6) net'.ip sha spa)
        let _ ← ethernetOutput net' (reply.take arpPktLen) sha 0x0806 pool transmitted
        pure net'
      else some net'

/-- On a packet found to be an echo request. -/
def icmpEchoReplyTransform (p : List Byte) (ihl : Nat) : Option (List Byte) := do
  let src ← readAt p 12 4
  let dst ← readAt p 16 4
  let p ← writeAt p 12 (dst ++ src)
  let p ← writeAt p 8 [64]
  let p ← writeAt p 10 [0, 0]
  let header ← readAt p 0 ihl
  let p ← writeAt p 10 (be16Bytes (netChecksum header))
  let p ← writeAt p ihl [0]
  let p ← writeAt p (ihl + 2) [0, 0]
  let message ← readAt p ihl (p.length - ihl)
  writeAt p (ihl + 2) (be16Bytes (netChecksum message))

def icmpInput (net : Stack) (p : List Byte) (ihl : Nat) : Option Result :=
  if p.length < ihl + icmpHdrLen then some (net, none)
  else do
    let type ← byteAt p ihl
    let code ← byteAt p (ihl + 1)
    if type = 8 ∧ code = 0 ∧ net.configured then do
      let reply ← icmpEchoReplyTransform p ihl
      let dst ← be32 reply 16
      pure (net, some ⟨.arp reply dst, .stop⟩)
    else if type = 0 ∧ code = 0 ∧ net.pingWaiting then do
      let id ← be16 p (ihl + 4)
      let seq ← be16 p (ihl + 6)
      if id = net.pingId ∧ seq = net.pingSeq then do
        let src ← be32 p 12
        pure ({ net with pingSrc := src, pingWaiting := false }, none)
      else some (net, none)
    else some (net, none)

/-- The stack if the datagram was taken. -/
def dhcpUdpDeliver (net : Stack) (dport : Nat) (p : List Byte) (off plen : Nat) :
    Option (Option Stack) :=
  if net.dhcpWaiting = false ∨ dport ≠ 68 ∨ plen = 0 then some none
  else if net.dhcpRxLen ≠ 0 then some (some net)
  else do
    let n := if dhcpRxSize < plen then dhcpRxSize else plen
    let data ← readAt p off n
    let rx ← writeAt net.dhcpRx 0 data
    pure (some { net with dhcpRx := rx, dhcpRxLen := n })

def dnsUdpDeliver (net : Stack) (dport : Nat) (p : List Byte) (off plen : Nat) :
    Option (Option Stack) :=
  if net.dnsWaiting = false ∨ dport ≠ net.dnsWaitPort ∨ plen = 0 then some none
  else if net.dnsRxLen ≠ 0 then some (some net)
  else do
    let n := if dnsMaxPkt < plen then dnsMaxPkt else plen
    let data ← readAt p off n
    let rx ← writeAt net.dnsRx 0 data
    pure (some { net with dnsRx := rx, dnsRxLen := n })

/-- Whether a socket takes a datagram. -/
def Sock.takes (s : Sock) (dport sport sip : Nat) : Bool :=
  s.bound && s.localPort == dport && !(s.peerPort != 0 && (s.peerIp != sip || s.peerPort != sport))

def sockUdpDeliver (net : Stack) (dport sport sip : Nat) (p : List Byte) (off plen : Nat) :
    Option (Option Stack) :=
  match (List.finRange 8).find? fun i => (net.socks i).any fun s => s.takes dport sport sip with
  | none => some none
  | some i =>
    match net.socks i with
    | none => some none
    | some s =>
      if s.rxLen ≠ 0 then some (some net)
      else do
        let n := if plen < sockUdpRxMax then plen else sockUdpRxMax
        let data ← readAt p off n
        let rx ← writeAt s.rxBuf 0 data
        let s' := { s with rxBuf := rx, rxLen := n, rxFromIp := sip, rxFromPort := sport }
        pure (some { net with socks := Function.update net.socks i (some s') })

/-- A datagram no one took may answer the echo client. -/
def udpEchoReply (net : Stack) (dport sport : Nat) (p : List Byte) (off plen : Nat) :
    Option Stack :=
  if net.udpWait ∧ dport = net.udpWaitSport ∧ sport = net.udpWaitDport ∧ plen = net.udpWaitPlen then
    do
      let payload ← readAt p off plen
      let expected ← readAt net.udpWaitPayload 0 plen
      pure (if payload = expected then { net with udpWait := false } else net)
  else some net

def udpInput (net : Stack) (p : List Byte) (ihl : Nat) (pool : Pool) : Option Result :=
  if p.length < ihl + udpHdrLen then some (net, none)
  else do
    let udpLen ← be16 p (ihl + 4)
    if udpLen < udpHdrLen ∨ p.length < ihl + udpLen then some (net, none)
    else do
      let sport ← be16 p ihl
      let dport ← be16 p (ihl + 2)
      let off := ihl + udpHdrLen
      let plen := udpLen - udpHdrLen
      match ← dhcpUdpDeliver net dport p off plen with
      | some net' => pure (net', none)
      | none =>
        match ← dnsUdpDeliver net dport p off plen with
        | some net' => pure (net', none)
        | none =>
          let sip ← be32 p 12
          if dport = 7 ∧ net.configured then do
            let payload ← readAt p off plen
            let (net', wait) ← udpSend net sip 7 sport payload pool
            pure (net', some ⟨wait, .stop⟩)
          else
            match ← sockUdpDeliver net dport sport sip p off plen with
            | some net' => pure (net', none)
            | none => do
              let net' ← udpEchoReply net dport sport p off plen
              pure (net', none)

def newPcb : Pcb where
  state := .closed
  echo := false
  inUse := false
  pendingAccept := false
  localPort := 0
  remotePort := 0
  remoteIp := 0
  sndUna := 0
  sndNxt := 0
  rcvNxt := 0
  rxBuf := List.replicate tcpRxMax 0
  rxLen := 0
  unaBuf := List.replicate tcpUnaMax 0
  unaLen := 0
  unaSeq := 0
  parent := none
  nif := false

def tcpFind (net : Stack) (loc remote remoteIp : Nat) (allowListen : Bool) : Option (Fin 8) :=
  (List.finRange 8).find? fun i =>
    let pcb := net.pcbs i
    pcb.inUse && if pcb.state = .listen then allowListen && pcb.localPort == loc
      else pcb.localPort == loc && pcb.remotePort == remote && pcb.remoteIp == remoteIp

/-- The slot of `tcp_pcb_new`. -/
def freePcb (net : Stack) : Option (Fin 8) := (List.finRange 8).find? fun i => !(net.pcbs i).inUse

def tcpOnAck (pcb : Pcb) (ack : Nat) : Option Pcb :=
  let acked := sub32 ack pcb.unaSeq
  if pcb.unaLen = 0 then some pcb
  else if acked = 0 ∨ 2 ^ 31 ≤ acked then some pcb
  else if pcb.unaLen ≤ acked then some { pcb with unaLen := 0, sndUna := ack }
  else do
    let rest ← readAt pcb.unaBuf acked (sub32 pcb.unaLen acked)
    let buf ← writeAt pcb.unaBuf 0 rest
    pure { pcb with unaBuf := buf, unaLen := sub32 pcb.unaLen acked, unaSeq := ack, sndUna := ack }

def tcpOnAckFlag (pcb : Pcb) (ack flags : Nat) : Option Pcb :=
  if hasFlag flags tcpAck then tcpOnAck pcb ack else some pcb

def tcpRxAppend (pcb : Pcb) (data : List Byte) : Option Pcb :=
  if data = [] then some pcb
  else do
    let space := sub32 tcpRxMax pcb.rxLen
    let n := if data.length < space then data.length else space
    let buf ← writeAt pcb.rxBuf pcb.rxLen (data.take n)
    pure { pcb with rxBuf := buf, rxLen := add32 pcb.rxLen n }

/-- `tcp_pcb_send` with space, or its wait given up. -/
def sendGo (net : Stack) (i : Fin 8) (buf : List Byte) (pool : Pool) (cont : Cont) :
    Option Result :=
  let pcb := net.pcbs i
  let space := sub32 tcpUnaMax pcb.unaLen
  if space = 0 then some (net, some ⟨.finished false, cont⟩)
  else do
    let n := min (if buf.length < space then buf.length else space) tcpMss
    let data ← readAt buf 0 n
    let una ← writeAt pcb.unaBuf pcb.unaLen data
    let pcb' := { pcb with
      unaSeq := if pcb.unaLen = 0 then pcb.sndNxt else pcb.unaSeq
      unaBuf := una
      unaLen := add32 pcb.unaLen n }
    outputFrom (net.setPcb i pcb') i (tcpPsh ||| tcpAck) data pool (.sent i n cont)

def tcpPcbSend (net : Stack) (i : Fin 8) (buf : List Byte) (pool : Pool) (cont : Cont) :
    Option Result :=
  if (net.pcbs i).state ≠ .established ∨ buf = [] then some (net, some ⟨.finished false, cont⟩)
  else if tcpUnaMax ≤ (net.pcbs i).unaLen then some (net, some ⟨.sendLoop i buf, cont⟩)
  else sendGo net i buf pool cont

/-- A new connection for a listening block. -/
def acceptSyn (net : Stack) (i : Fin 8) (seq flags sport sip : Nat) (pool : Pool) : Option Result :=
  if hasFlag flags tcpSyn = false ∨ hasFlag flags tcpAck then some (net, none)
  else
    match freePcb net with
    | none => some (net, none)
    | some child =>
      let iss := add32 2000 pool.iss
      let pcb := { newPcb with
        inUse := true, nif := true, state := .synRcvd, echo := (net.pcbs i).echo
        parent := some i, localPort := (net.pcbs i).localPort, remotePort := sport
        remoteIp := sip, sndNxt := iss, sndUna := iss, rcvNxt := add32 seq 1 }
      outputFrom (net.setPcb child pcb) child (tcpSyn ||| tcpAck) [] pool .stop

/-- `tcp_handle` on FIN, after the data was answered. -/
def handleFin (net : Stack) (i : Fin 8) (seq plen flags : Nat) (pool : Pool) : Option Result :=
  let pcb := net.pcbs i
  if hasFlag flags tcpFin ∧
      (seq = pcb.rcvNxt ∨ plen ≠ 0 ∧ add32 seq plen = pcb.rcvNxt) then
    let pcb' := { pcb with rcvNxt := add32 (add32 seq plen) 1 }
    if pcb.state = .established ∨ pcb.state = .synRcvd then
      outputFrom (net.setPcb i { pcb' with state := .closeWait }) i tcpAck [] pool (.closeWait i)
    else some (net.setPcb i pcb', none)
  else some (net, none)

/-- The data of a segment on an open connection. -/
def acceptData (net : Stack) (i : Fin 8) (seq flags : Nat) (p : List Byte) (off plen : Nat)
    (pool : Pool) : Option Result :=
  let pcb := net.pcbs i
  let cont := .fin i seq plen flags
  if plen ≠ 0 ∧ seq = pcb.rcvNxt then
    if plen ≤ sub32 tcpRxMax pcb.rxLen then do
      let data ← readAt p off plen
      let pcb' ← tcpRxAppend { pcb with rcvNxt := add32 seq plen } data
      if pcb'.echo then tcpPcbSend (net.setPcb i pcb') i data pool cont
      else outputFrom (net.setPcb i pcb') i tcpAck [] pool cont
    else outputFrom net i tcpAck [] pool cont
  else handleFin net i seq plen flags pool

def tcpHandle (net : Stack) (i : Fin 8) (seq ack flags : Nat) (p : List Byte)
    (off plen sport sip : Nat)
    (pool : Pool) : Option Result :=
  let pcb := net.pcbs i
  match pcb.state with
  | .listen => acceptSyn net i seq flags sport sip pool
  | .synSent =>
    if hasFlag flags tcpSyn ∧ hasFlag flags tcpAck then
      outputFrom (net.setPcb i
        { pcb with rcvNxt := add32 seq 1, sndUna := ack, state := .established }) i tcpAck [] pool
        .stop
    else if hasFlag flags tcpRst then some (net.setPcb i { pcb with state := .closed }, none)
    else some (net, none)
  | .synRcvd =>
    if hasFlag flags tcpAck then do
      let pcb' ← tcpOnAck
        { pcb with sndUna := ack, state := .established, pendingAccept := true } ack
      acceptData (net.setPcb i pcb') i seq flags p off plen pool
    else acceptData net i seq flags p off plen pool
  | .established =>
    if hasFlag flags tcpAck then do
      let pcb' ← tcpOnAck { pcb with sndUna := ack } ack
      acceptData (net.setPcb i pcb') i seq flags p off plen pool
    else acceptData net i seq flags p off plen pool
  | .closeWait =>
    if hasFlag flags tcpAck then do
      let pcb' ← tcpOnAck { pcb with sndUna := ack } ack
      acceptData (net.setPcb i pcb') i seq flags p off plen pool
    else acceptData net i seq flags p off plen pool
  | .finWait1 => do
    let pcb' ← tcpOnAckFlag pcb ack flags
    let pcb' := if hasFlag flags tcpAck ∧ ack = pcb'.sndNxt then { pcb' with state := .closed }
      else pcb'
    if hasFlag flags tcpFin then
      outputFrom (net.setPcb i { pcb' with rcvNxt := add32 seq 1 }) i tcpAck [] pool (.finWait i)
    else some (net.setPcb i pcb', none)
  | .lastAck =>
    if hasFlag flags tcpAck then some (net.setPcb i { pcb with state := .closed }, none)
    else some (net, none)
  | .closed => some (net, none)

/-- A segment for no block is answered with a reset. -/
def refuse (net : Stack) (seq ack flags plen sport dport sip : Nat) (pool : Pool) : Option Result :=
  if hasFlag flags tcpRst then some (net, none)
  else do
    let tmp := { newPcb with
      inUse := true, nif := true, localPort := dport, remotePort := sport, remoteIp := sip
      sndNxt := ack, rcvNxt := add32 seq (if hasFlag flags tcpSyn then 1 else plen) }
    let (net', _, wait) ← tcpOutput net tmp (tcpRst ||| tcpAck) [] pool
    pure (net', some ⟨wait, .stop⟩)

def tcpInput (net : Stack) (p : List Byte) (ihl : Nat) (pool : Pool) : Option Result :=
  if p.length < ihl + tcpHdrMin then some (net, none)
  else do
    let offRes ← byteAt p (ihl + 12)
    let thl := offRes / 16 * 4
    if thl < tcpHdrMin ∨ p.length < ihl + thl then some (net, none)
    else do
      let plen := p.length - ihl - thl
      let sport ← be16 p ihl
      let dport ← be16 p (ihl + 2)
      let seq ← be32 p (ihl + 4)
      let ack ← be32 p (ihl + 8)
      let flags ← byteAt p (ihl + 13)
      let sip ← be32 p 12
      match (tcpFind net dport sport sip false).or (tcpFind net dport 0 0 true) with
      | none => refuse net seq ack flags plen sport dport sip pool
      | some i => tcpHandle net i seq ack flags p (ihl + thl) plen sport sip pool

/-- Whether a packet is for the interface. -/
def accepts (net : Stack) (dst : Nat) : Bool :=
  !(net.configured && dst != net.ip && dst != 0xFFFFFFFF &&
    dst != net.ip ||| (0xFFFFFFFF ^^^ net.netmask))

def ipv4Input (net : Stack) (p : List Byte) (pool : Pool) : Option Result :=
  if p.length < ipv4HdrMin then some (net, none)
  else do
    let verIhl ← byteAt p 0
    let ihl := verIhl % 16 * 4
    if verIhl / 16 ≠ 4 ∨ ihl < ipv4HdrMin ∨ p.length < ihl then some (net, none)
    else do
      let total ← be16 p 2
      -- padding after the datagram is cut off
      let p := if total < ihl ∨ p.length < total then p else p.take total
      let dst ← be32 p 16
      if accepts net dst then do
        let proto ← byteAt p 9
        if proto = 1 then icmpInput net p ihl
        else if proto = 17 then udpInput net p ihl pool
        else if proto = 6 then tcpInput net p ihl pool
        else some (net, none)
      else some (net, none)

/-- The payload of a frame is copied to a buffer of its own. -/
def ethernetInput (net : Stack) (frame : List Byte) (pool : Pool) (transmitted : Bool) :
    Option Result :=
  if frame.length < ethHdrLen then some (net, none)
  else do
    let etype ← be16 frame 12
    if pool.payload = false then some (net, none)
    else do
      let payload ← readAt frame ethHdrLen (frame.length - ethHdrLen)
      let _ ← pbufFill payload
      if etype = 0x0806 then do
        let net' ← arpInput net payload pool transmitted
        pure (net', none)
      else if etype = 0x0800 then ipv4Input net payload pool
      else some (net, none)

/-- A call goes on after an output, which succeeded or not. -/
def resume (net : Stack) (ok : Bool) (pool : Pool) : Cont → Option Result
  | .stop => some (net, none)
  | .sent i n next =>
    let pcb := net.pcbs i
    let net' := if ok then net else net.setPcb i { pcb with unaLen := sub32 pcb.unaLen n }
    some (net', some ⟨.finished ok, next⟩)
  | .fin i seq plen flags => handleFin net i seq plen flags pool
  | .closeWait i =>
    if (net.pcbs i).echo then outputFrom net i (tcpFin ||| tcpAck) [] pool (.lastAck i)
    else some (net, none)
  | .lastAck i => some (net.setPcb i { net.pcbs i with state := .lastAck }, none)
  | .finWait i => some (net.setPcb i { net.pcbs i with state := .closed }, none)
  | .connect i =>
    if ok then some (net, none)
    else some (net.setPcb i { net.pcbs i with state := .closed }, none)
  | .closing i =>
    let pcb := net.pcbs i
    some (net.setPcb i
      { pcb with state := if pcb.state = .closeWait then .lastAck else .finWait1 }, none)

/-- `tcp_rexmit_una` when the timer has run out. -/
def tcpRexmitUna (net : Stack) (i : Fin 8) (pool : Pool) : Option Result :=
  let pcb := net.pcbs i
  let seg := if pcb.unaLen < tcpMss then pcb.unaLen else tcpMss
  if pcb.unaLen = 0 ∨ pcb.nif = false ∨ pbufSize < tcpHdrMin + seg ∨ pool.segment = false then
    some (net, none)
  else do
    let data ← readAt pcb.unaBuf 0 seg
    let segment := tcpBuildWin net pcb pcb.unaSeq (tcpPsh ||| tcpAck) data
    let _ ← pbufFill segment
    let (net', wait) ← ipv4Output net segment pcb.remoteIp 6 pool
    pure (net', some ⟨wait, .stop⟩)

/-- The bytes that were not received yet move to the front. -/
def recvShift (pcb : Pcb) (n : Nat) : Option (List Byte) :=
  if n < pcb.rxLen then do
    let rest ← readAt pcb.rxBuf n (sub32 pcb.rxLen n)
    writeAt pcb.rxBuf 0 rest
  else some pcb.rxBuf

/-- With something to read, or the wait over. -/
def tcpPcbRecv (net : Stack) (i : Fin 8) (len : Nat) (pool : Pool) : Option Result :=
  let pcb := net.pcbs i
  if pcb.rxLen = 0 ∨ len = 0 then some (net, none)
  else do
    let n := if pcb.rxLen < len then pcb.rxLen else len
    let _ ← readAt pcb.rxBuf 0 n
    let buf ← recvShift pcb n
    let pcb' := { pcb with rxBuf := buf, rxLen := sub32 pcb.rxLen n }
    if tcpRcvWnd pcb = 0 ∧ tcpRcvWnd pcb' ≠ 0 then
      outputFrom (net.setPcb i pcb') i tcpAck [] pool .stop
    else some (net.setPcb i pcb', none)

/-- The start of `tcp_pcb_connect`. -/
def tcpPcbConnect (net : Stack) (i : Fin 8) (dst port loc : Nat) (pool : Pool) : Option Result :=
  let pcb := net.pcbs i
  if pcb.nif = false then some (net, none)
  else
    let port' := if pcb.localPort = 0 then loc else pcb.localPort
    let iss := add32 1000 port'
    outputFrom (net.setPcb i { pcb with
        localPort := port', remotePort := port, remoteIp := dst, sndNxt := iss, sndUna := iss
        rcvNxt := 0, rxLen := 0, unaLen := 0, state := .synSent }) i tcpSyn [] pool (.connect i)

/-- With nothing unacknowledged, or the wait over. -/
def tcpPcbClose (net : Stack) (i : Fin 8) (pool : Pool) : Option Result :=
  if (net.pcbs i).state = .established ∨ (net.pcbs i).state = .closeWait then
    outputFrom net i (tcpFin ||| tcpAck) [] pool (.closing i)
  else some (net, none)

def newSock : Sock where
  bound := false
  localPort := 0
  peerIp := 0
  peerPort := 0
  rxBuf := List.replicate sockUdpRxMax 0
  rxLen := 0
  rxFromIp := 0
  rxFromPort := 0

/-- The text that the echo client sends, "ICS-UDP!". -/
def echoPayload : List Byte := [73, 67, 83, 45, 85, 68, 80, 33]

/-- A frame comes in, a waiting call goes on, the retransmission timer runs out, or a call is made.
-/
inductive Op
  | frame (bytes : List Byte) (transmitted : Bool)
  | resolved (task : Nat) (transmitted : Bool)
  | timeout (task : Nat)
  | proceed (task : Nat)
  | leaveLoop (task : Nat)
  | rexmit (pcb : Fin 8)
  | pcbNew
  | pcbFree (pcb : Fin 8)
  | pcbBind (pcb : Fin 8) (port : Nat)
  | pcbListen (pcb : Fin 8) (port : Nat) (echo : Bool)
  | pcbAccept (pcb : Fin 8)
  | connect (pcb : Fin 8) (dst port loc : Nat)
  | synRetry (pcb : Fin 8)
  | send (pcb : Fin 8) (buf : List Byte)
  | recv (pcb : Fin 8) (len : Nat)
  | close (pcb : Fin 8)
  | udpSocket (slot : Fin 8)
  | udpClose (slot : Fin 8)
  | udpBind (slot : Fin 8) (port : Nat)
  | udpConnect (slot : Fin 8) (ip port : Nat)
  | udpRecv (slot : Fin 8)
  | dhcpWait (waiting : Bool)
  | dnsWait (waiting : Bool) (port : Nat)
  | ping (id seq : Nat)
  | udpEcho (sport dport : Nat)
  | dropNextData (drop : Bool)
  | setAddr (ip netmask gateway : Nat)

/-- A call goes on as the task left in its place. -/
def settle (rest : List Task) (result : Option Result) : Option Stack := do
  let (net, task) ← result
  pure { net with tasks := rest ++ task.toList }

def setSock (net : Stack) (slot : Fin 8) (change : Sock → Sock) : Stack :=
  { net with socks := Function.update net.socks slot ((net.socks slot).map change) }

/-- One event; none if it leaves a buffer. -/
def perform (net : Stack) (op : Op) (pool : Pool) : Option Stack :=
  match op with
  | .frame bytes transmitted => settle net.tasks (ethernetInput net bytes pool transmitted)
  | .resolved t transmitted =>
    match net.tasks[t]? with
    | some ⟨.arp pkt dst, cont⟩ => do
      let mac := (arpCacheLookup net (netIpRoute net dst)).getD []
      let ok ← ethernetOutput net pkt mac 0x0800 pool transmitted
      settle (net.tasks.eraseIdx t) (resume net ok pool cont)
    | _ => some net
  | .timeout t =>
    match net.tasks[t]? with
    | some ⟨.arp _ _, cont⟩ => settle (net.tasks.eraseIdx t) (resume net false pool cont)
    | _ => some net
  | .proceed t =>
    match net.tasks[t]? with
    | some ⟨.finished ok, cont⟩ => settle (net.tasks.eraseIdx t) (resume net ok pool cont)
    | _ => some net
  | .leaveLoop t =>
    match net.tasks[t]? with
    | some ⟨.sendLoop i buf, cont⟩ => settle (net.tasks.eraseIdx t) (sendGo net i buf pool cont)
    | _ => some net
  | .rexmit i => settle net.tasks (tcpRexmitUna net i pool)
  | .pcbNew =>
    some (match freePcb net with
      | none => net
      | some i => net.setPcb i { newPcb with inUse := true, nif := true })
  | .pcbFree i => some (net.setPcb i newPcb)
  | .pcbBind i port => some (net.setPcb i { net.pcbs i with localPort := port })
  | .pcbListen i port echo =>
    some (net.setPcb i { net.pcbs i with state := .listen, localPort := port, echo := echo })
  | .pcbAccept i => some (net.setPcb i { net.pcbs i with pendingAccept := false })
  | .connect i dst port loc => settle net.tasks (tcpPcbConnect net i dst port loc pool)
  | .synRetry i =>
    let pcb := net.pcbs i
    settle net.tasks (outputFrom (net.setPcb i { pcb with sndNxt := add32 1000 pcb.localPort }) i
      tcpSyn [] pool .stop)
  | .send i buf => settle net.tasks (tcpPcbSend net i buf pool .stop)
  | .recv i len => settle net.tasks (tcpPcbRecv net i len pool)
  | .close i => settle net.tasks (tcpPcbClose net i pool)
  | .udpSocket slot => some { net with socks := Function.update net.socks slot (some newSock) }
  | .udpClose slot => some { net with socks := Function.update net.socks slot none }
  | .udpBind slot port =>
    some (setSock net slot fun s => { s with bound := true, localPort := port })
  | .udpConnect slot ip port =>
    some (setSock net slot fun s => { s with peerIp := ip, peerPort := port })
  | .udpRecv slot => some (setSock net slot fun s => { s with rxLen := 0 })
  | .dhcpWait waiting => some { net with dhcpWaiting := waiting, dhcpRxLen := 0 }
  | .dnsWait waiting port =>
    some { net with dnsWaiting := waiting, dnsWaitPort := port, dnsRxLen := 0 }
  | .ping id seq => some { net with pingWaiting := true, pingId := id, pingSeq := seq }
  | .udpEcho sport dport => do
    let buf ← writeAt net.udpWaitPayload 0 echoPayload
    pure { net with
      udpWait := true, udpWaitSport := sport, udpWaitDport := dport, udpWaitPayload := buf
      udpWaitPlen := echoPayload.length }
  | .dropNextData drop => some { net with dropNextData := drop }
  | .setAddr ip netmask gateway =>
    some { net with ip := ip, netmask := netmask, gateway := gateway, configured := true }

def Wait.isArp : Wait → Bool
  | .arp _ _ => true
  | _ => false

def Wait.isFinished : Wait → Bool
  | .finished _ => true
  | _ => false

/-- No call has to go on at once. -/
def Stack.settled (net : Stack) : Bool := net.tasks.all fun task => !task.wait.isFinished

/-- No call that began later waits for an address. -/
def Stack.innermost (net : Stack) (t : Nat) : Bool :=
  (net.tasks.drop (t + 1)).all fun task => !task.wait.isArp

def Stack.unlocked (net : Stack) : Bool := net.tasks.getLast?.all fun task => !task.wait.isArp

/-- Output goes on at once; a waiting call after those that began meanwhile under the lock; programs
when the last call waits for no address. -/
def enabled (net : Stack) : Op → Bool
  | .frame bytes _ => decide (bytes.length ≤ pbufSize) && net.settled
  | .resolved t _ => net.settled && net.innermost t &&
      match net.tasks[t]? with
      | some ⟨.arp _ dst, _⟩ => (arpCacheLookup net (netIpRoute net dst)).isSome
      | _ => false
  | .timeout t => net.settled && net.innermost t &&
      match net.tasks[t]? with
      | some ⟨.arp _ dst, _⟩ => (arpCacheLookup net (netIpRoute net dst)).isNone
      | _ => false
  | .proceed t => (net.tasks[t]?).any fun task => task.wait.isFinished
  | .leaveLoop t => net.settled && net.innermost t &&
      match net.tasks[t]? with
      | some ⟨.sendLoop _ _, _⟩ => true
      | _ => false
  | .rexmit i => net.settled && net.unlocked && (net.pcbs i).inUse &&
      ((net.pcbs i).state == .established || (net.pcbs i).state == .finWait1)
  | _ => net.settled && net.unlocked

end IcsOs.Net.Input
