/- GID: IcsOs/Net/Safety
   generality: I
   source: kernel/net/ethernet.c, kernel/net/ipv4.c, kernel/net/udp.c, kernel/net/tcp.c
   digest: Frames with any contents stay within the buffers of the network stack. -/

import IcsOs.Net.Input
import IcsOs.Lib.Runs
import IcsOs.Lib.Updates

set_option autoImplicit false

namespace IcsOs.Net.Safety

open List
open Lib.Checked Lib.Runs Lib.Updates Net.Input

/-- The lengths a connection block keeps are within its buffers. -/
structure PcbOk (pcb : Pcb) : Prop where
  rxBuf : pcb.rxBuf.length = tcpRxMax
  rxLen : pcb.rxLen ≤ tcpRxMax
  unaBuf : pcb.unaBuf.length = tcpUnaMax
  unaLen : pcb.unaLen ≤ tcpUnaMax

/-- Every buffer has its size, and the lengths beside them fit. -/
structure Bounded (net : Stack) : Prop where
  pcb : ∀ i, PcbOk (net.pcbs i)
  sock : ∀ i s, net.socks i = some s → s.rxBuf.length = sockUdpRxMax
  dhcp : net.dhcpRx.length = dhcpRxSize
  dns : net.dnsRx.length = dnsMaxPkt
  arp : net.arp.length = arpCacheSize
  echo : net.udpWaitPayload.length = 64 ∧ net.udpWaitPlen ≤ 64

/-- Within the buffers, which keep their sizes. -/
def Good (run : Option Result) : Prop := Safe (fun result => Bounded result.1) run

section

variable {p : List Byte} {off : Nat}

theorem be16_safe (inside : off + 2 ≤ p.length) : Safe (fun _ => True) (be16 p off) :=
  Safe.bind (readAt_safe inside) fun _ _ => Safe.pure trivial

theorem be32_safe (inside : off + 4 ≤ p.length) : Safe (fun _ => True) (be32 p off) :=
  Safe.bind (readAt_safe inside) fun _ _ => Safe.pure trivial

theorem byteAt_safe (inside : off + 1 ≤ p.length) : Safe (fun _ => True) (byteAt p off) :=
  Safe.bind (readAt_safe inside) fun _ _ => Safe.pure trivial

theorem pbufFill_safe (fits : p.length ≤ pbufSize) :
    Safe (fun data => data.length = pbufSize) (pbufFill p) := by
  have size : (replicate pbufSize (0 : Byte)).length = pbufSize := length_replicate
  refine (writeAt_safe (by rw [size]; omega)).mono fun data long => ?_
  rw [long, size]

variable {net : Stack} {pcb : Pcb} {i : Fin 8}

section

variable (bounded : Bounded net)
include bounded

theorem Bounded.setPcb (ok : PcbOk pcb) : Bounded (net.setPcb i pcb) where
  __ := bounded
  pcb := by
    intro j
    by_cases same : j = i
    · subst same
      rw [Stack.setPcb_self]
      exact ok
    · rw [Stack.setPcb_ne net pcb same]
      exact bounded.pcb j

/-- What is kept beside the buffers may change. -/
theorem Bounded.keep {net' : Stack}
    (same : (net'.pcbs, net'.socks, net'.dhcpRx, net'.dnsRx, net'.arp, net'.udpWaitPayload,
      net'.udpWaitPlen) = (net.pcbs, net.socks, net.dhcpRx, net.dnsRx, net.arp,
      net.udpWaitPayload, net.udpWaitPlen)) : Bounded net' := by
  simp only [Prod.mk.injEq] at same
  obtain ⟨pcbs, socks, dhcp, dns, arp, payload, plen⟩ := same
  constructor
  · rw [pcbs]
    exact bounded.pcb
  · rw [socks]
    exact bounded.sock
  · rw [dhcp, bounded.dhcp]
  · rw [dns, bounded.dns]
  · rw [arp, bounded.arp]
  · rw [payload, plen]
    exact bounded.echo

theorem Bounded.keepPcb
    (same : (pcb.rxBuf, pcb.rxLen, pcb.unaBuf, pcb.unaLen) =
      ((net.pcbs i).rxBuf, (net.pcbs i).rxLen, (net.pcbs i).unaBuf, (net.pcbs i).unaLen)) :
    Bounded (net.setPcb i pcb) := by
  have ok := bounded.pcb i
  simp only [Prod.mk.injEq] at same
  obtain ⟨rxBuf, rxLen, unaBuf, unaLen⟩ := same
  exact bounded.setPcb ⟨rxBuf ▸ ok.rxBuf, rxLen ▸ ok.rxLen, unaBuf ▸ ok.unaBuf, unaLen ▸ ok.unaLen⟩

theorem ipv4Output_safe (payload : List Byte) (dst proto : Nat) (pool : Pool) :
    Safe (fun r => Bounded r.1) (ipv4Output net payload dst proto pool) := by
  refine Safe.ite (fun _ => Safe.pure bounded) fun room => ?_
  have header : ∀ sum, (ipv4Header net (ipv4HdrMin + payload.length) dst proto sum).length =
      ipv4HdrMin := fun _ => rfl
  refine Safe.bind (pbufFill_safe ?_) fun _ _ => Safe.pure (bounded.keep rfl)
  rw [length_append, header]
  omega

end

theorem ethernetOutput_safe (net : Stack) (pkt dmac : List Byte) (ethertype : Nat) (pool : Pool)
    (transmitted : Bool) :
    Safe (fun ok => ok = false → pbufSize < pkt.length + ethHdrLen ∨ pool.packet = false ∨
      transmitted = false) (ethernetOutput net pkt dmac ethertype pool transmitted) := by
  refine Safe.ite (fun full => Safe.pure fun _ => ?_) fun room => ?_
  · exact full.imp_right Or.inl
  refine Safe.bind (pbufFill_safe ?_) fun _ _ => Safe.pure fun failed => Or.inr (Or.inr failed)
  have type : (be16Bytes ethertype).length = 2 := rfl
  have header : ethHdrLen = 14 := rfl
  rw [length_append, length_append, length_append, length_take,
    length_take, type]
  omega

theorem udpSend_safe (bounded : Bounded net) (dst srcPort dstPort : Nat) (payload : List Byte)
    (pool : Pool) :
    Safe (fun r => Bounded r.1) (udpSend net dst srcPort dstPort payload pool) := by
  refine Safe.ite (fun _ => Safe.pure bounded) fun room => ?_
  have length : (udpBuild srcPort dstPort payload net.ip dst).length =
      udpHdrLen + payload.length := by
    have header : ∀ len sum, (udpHeader srcPort dstPort len sum).length = udpHdrLen :=
      fun _ _ => rfl
    unfold udpBuild
    rw [length_append, header]
  refine Safe.bind (pbufFill_safe ?_) fun _ _ => ipv4Output_safe bounded _ _ _ _
  omega

theorem PcbOk.advance (ok : PcbOk pcb) (flags len : Nat) : PcbOk (advance pcb flags len) :=
  { ok with }

theorem length_tcpBuildWin (net : Stack) (pcb : Pcb) (seq flags : Nat) (payload : List Byte) :
    (tcpBuildWin net pcb seq flags payload).length = tcpHdrMin + payload.length := by
  have header : ∀ window sum, (tcpHeader pcb seq flags window sum).length = tcpHdrMin :=
    fun _ _ => rfl
  unfold tcpBuildWin
  rw [length_append, header]

theorem tcpOutput_safe (bounded : Bounded net) (ok : PcbOk pcb) (flags : Nat) (payload : List Byte)
    (pool : Pool) :
    Safe (fun r => Bounded r.1 ∧ PcbOk r.2.1) (tcpOutput net pcb flags payload pool) := by
  refine Safe.ite (fun _ => Safe.pure ⟨bounded, ok⟩) fun room => ?_
  refine Safe.bind (pbufFill_safe ?_) fun _ _ => ?_
  · rw [length_tcpBuildWin]
    omega
  refine Safe.ite (fun _ => Safe.pure ⟨?_, ok.advance flags _⟩) fun _ => ?_
  · exact bounded.keep rfl
  · refine Safe.bind (ipv4Output_safe bounded _ _ _ _) fun result after => ?_
    exact Safe.pure ⟨after, ok.advance flags _⟩

theorem outputFrom_safe (bounded : Bounded net) (i : Fin 8) (flags : Nat) (payload : List Byte)
    (pool : Pool) (cont : Cont) : Good (outputFrom net i flags payload pool cont) := by
  refine Safe.bind (tcpOutput_safe bounded (bounded.pcb i) flags payload pool)
    fun result after => ?_
  exact Safe.pure (after.1.setPcb after.2)

variable {plen ihl : Nat}

theorem arpSlot_lt {arp : List ArpEntry} (ip : Nat) (some_ : 0 < arp.length) :
    arpSlot arp ip < arp.length := by
  unfold arpSlot
  cases known : arp.findIdx? fun e => e.valid && e.ip == ip with
  | some i => exact (findIdx?_eq_some_iff_findIdx_eq.1 known).1
  | none =>
    cases unused : arp.findIdx? fun e => !e.valid with
    | some i => exact (findIdx?_eq_some_iff_findIdx_eq.1 unused).1
    | none => exact some_

theorem arpCacheInsert_safe (bounded : Bounded net) (ip : Nat) (mac : List Byte) :
    Safe Bounded (arpCacheInsert net ip mac) := by
  have size : 0 < net.arp.length := by
    rw [bounded.arp]
    decide
  refine Safe.bind (writeAt_safe (arpSlot_lt ip size)) fun arp long => Safe.pure ?_
  exact { bounded with arp := long.trans bounded.arp }

theorem arpLearn_safe (bounded : Bounded net) (spa : Nat) (sha : List Byte) :
    Safe Bounded (arpLearn net spa sha) :=
  Safe.ite (fun _ => arpCacheInsert_safe bounded spa sha) fun _ => Safe.pure bounded

theorem arpInput_safe (bounded : Bounded net) (p : List Byte) (pool : Pool) (transmitted : Bool) :
    Safe Bounded (arpInput net p pool transmitted) := by
  refine Safe.ite (fun _ => Safe.pure bounded) fun long => ?_
  have size : 28 ≤ p.length := Nat.le_of_not_lt long
  refine Safe.bind (be16_safe (by omega)) fun hwType _ => ?_
  refine Safe.bind (be16_safe (by omega)) fun protoType _ => ?_
  refine Safe.bind (byteAt_safe (by omega)) fun hwLen _ => ?_
  refine Safe.bind (byteAt_safe (by omega)) fun protoLen _ => ?_
  refine Safe.ite (fun _ => Safe.pure bounded) fun _ => ?_
  refine Safe.bind (be16_safe (by omega)) fun op _ => ?_
  refine Safe.bind (readAt_safe (by omega)) fun sha shaLen => ?_
  refine Safe.bind (be32_safe (by omega)) fun spa _ => ?_
  refine Safe.bind (readAt_safe (by omega)) fun tha _ => ?_
  refine Safe.bind (be32_safe (by omega)) fun tpa _ => ?_
  refine Safe.bind (arpLearn_safe bounded spa sha) fun net' bounded' => ?_
  refine Safe.ite (fun _ => ?_) fun _ => Safe.pure bounded'
  refine Safe.bind (pbufFill_safe ?_) fun reply _ => ?_
  · have fixed : ∀ n, (be16Bytes n).length = 2 := fun _ => rfl
    have address : ∀ n, (be32Bytes n).length = 4 := fun _ => rfl
    have room : pbufSize = 1514 := rfl
    unfold arpBuild
    simp only [length_append, length_take, fixed, address, shaLen, length_cons,
      length_nil]
    omega
  · exact Safe.bind (ethernetOutput_safe net' _ _ _ _ _) fun _ _ => Safe.pure bounded'

theorem icmpEchoReplyTransform_safe (header : 20 ≤ ihl) (long : ihl + 8 ≤ p.length) :
    Safe (fun reply => reply.length = p.length) (icmpEchoReplyTransform p ihl) := by
  have pair : ∀ n, (be16Bytes n).length = 2 := fun _ => rfl
  refine Safe.bind (readAt_safe (by omega)) fun src srcLen => ?_
  refine Safe.bind (readAt_safe (by omega)) fun dst dstLen => ?_
  refine Safe.bind (writeAt_safe (by rw [length_append]; omega)) fun p₁ size₁ => ?_
  refine Safe.bind (writeAt_safe (by simp only [length_singleton]; omega)) fun p₂ size₂ => ?_
  refine Safe.bind (writeAt_safe (by simp only [length_cons, length_nil]; omega))
    fun p₃ size₃ => ?_
  refine Safe.bind (readAt_safe (by omega)) fun head _ => ?_
  refine Safe.bind (writeAt_safe (by rw [pair]; omega)) fun p₄ size₄ => ?_
  refine Safe.bind (writeAt_safe (by simp only [length_singleton]; omega)) fun p₅ size₅ => ?_
  refine Safe.bind (writeAt_safe (by simp only [length_cons, length_nil]; omega))
    fun p₆ size₆ => ?_
  refine Safe.bind (readAt_safe (by omega)) fun message _ => ?_
  refine (writeAt_safe (by rw [pair]; omega)).mono fun reply size => ?_
  omega

theorem icmpInput_safe (bounded : Bounded net) (header : 20 ≤ ihl) :
    Good (icmpInput net p ihl) := by
  refine Safe.ite (fun _ => Safe.pure bounded) fun long => ?_
  have size : ihl + 8 ≤ p.length := Nat.le_of_not_lt long
  refine Safe.bind (byteAt_safe (by omega)) fun type _ => ?_
  refine Safe.bind (byteAt_safe (by omega)) fun code _ => ?_
  refine Safe.ite (fun _ => ?_) fun _ => Safe.ite (fun _ => ?_) fun _ => Safe.pure bounded
  · refine Safe.bind (icmpEchoReplyTransform_safe header size) fun reply same => ?_
    refine Safe.bind (be32_safe (by omega)) fun dst _ => Safe.pure bounded
  refine Safe.bind (be16_safe (by omega)) fun id _ => ?_
  refine Safe.bind (be16_safe (by omega)) fun seq _ => ?_
  refine Safe.ite (fun _ => ?_) fun _ => Safe.pure bounded
  refine Safe.bind (be32_safe (by omega)) fun src _ => Safe.pure ?_
  exact bounded.keep rfl

/-- A receiver that may take a datagram. -/
def Taken (run : Option (Option Stack)) : Prop := Safe (fun taken => ∀ net ∈ taken, Bounded net) run

theorem taken_none : Taken (some none) := Safe.pure fun _ none_ => by cases none_

theorem ite_lt_le (a b : Nat) : (if a < b then a else b) ≤ b ∧ (if a < b then a else b) ≤ a := by
  split_ifs <;> omega

section

variable (bounded : Bounded net)
include bounded

theorem taken_some : Taken (some (some net)) :=
  Safe.pure fun _ same => by
    cases same
    exact bounded

theorem dhcpUdpDeliver_safe (dport : Nat) (inside : off + plen ≤ p.length) :
    Taken (dhcpUdpDeliver net dport p off plen) := by
  refine Safe.ite (fun _ => taken_none) fun _ => Safe.ite (fun _ => taken_some bounded) fun _ => ?_
  have least := ite_lt_le dhcpRxSize plen
  refine Safe.bind (readAt_safe (by omega)) fun data long => ?_
  refine Safe.bind (writeAt_safe (by rw [bounded.dhcp]; omega)) fun rx size => taken_some ?_
  exact { bounded with dhcp := size.trans bounded.dhcp }

theorem dnsUdpDeliver_safe (dport : Nat) (inside : off + plen ≤ p.length) :
    Taken (dnsUdpDeliver net dport p off plen) := by
  refine Safe.ite (fun _ => taken_none) fun _ => Safe.ite (fun _ => taken_some bounded) fun _ => ?_
  have least := ite_lt_le dnsMaxPkt plen
  refine Safe.bind (readAt_safe (by omega)) fun data long => ?_
  refine Safe.bind (writeAt_safe (by rw [bounded.dns]; omega)) fun rx size => taken_some ?_
  exact { bounded with dns := size.trans bounded.dns }

/-- A socket's buffer keeps its size. -/
theorem Bounded.setSock {s : Option Sock} (slot : Fin 8)
    (ok : ∀ s', s = some s' → s'.rxBuf.length = sockUdpRxMax) :
    Bounded { net with socks := Function.update net.socks slot s } where
  __ := bounded
  sock := by
    intro j s' there
    rcases update_eq_cases there with ⟨-, new⟩ | ⟨same, there⟩
    · exact ok s' new
    · exact bounded.sock j s' there

theorem sockUdpDeliver_safe (dport sport sip : Nat) (inside : off + plen ≤ p.length) :
    Taken (sockUdpDeliver net dport sport sip p off plen) := by
  unfold sockUdpDeliver
  cases (finRange 8).find? fun i => (net.socks i).any fun s => s.takes dport sport sip with
  | none => exact taken_none
  | some i =>
    dsimp only
    cases there : net.socks i with
    | none => exact taken_none
    | some s =>
      have buf := bounded.sock i s there
      refine Safe.ite (fun _ => taken_some bounded) fun _ => ?_
      have least := ite_lt_le plen sockUdpRxMax
      refine Safe.bind (readAt_safe (by omega)) fun data long => ?_
      refine Safe.bind (writeAt_safe (by rw [buf]; omega)) fun rx size => taken_some ?_
      refine bounded.setSock i fun s' same => ?_
      cases same
      exact size.trans buf

theorem udpEchoReply_safe (dport sport : Nat) (inside : off + plen ≤ p.length) :
    Safe Bounded (udpEchoReply net dport sport p off plen) := by
  refine Safe.ite (fun match_ => ?_) fun _ => Safe.pure bounded
  have small : plen ≤ net.udpWaitPayload.length := by
    rw [match_.2.2.2, bounded.echo.1]
    exact bounded.echo.2
  refine Safe.bind (readAt_safe inside) fun payload _ => ?_
  refine Safe.bind (readAt_safe (by omega)) fun expected _ => Safe.pure ?_
  split_ifs
  · exact bounded.keep rfl
  · exact bounded

theorem udpInput_safe (header : 20 ≤ ihl) (pool : Pool) : Good (udpInput net p ihl pool) := by
  refine Safe.ite (fun _ => Safe.pure bounded) fun long => ?_
  have size : ihl + 8 ≤ p.length := Nat.le_of_not_lt long
  refine Safe.bind (be16_safe (by omega)) fun udpLen _ => ?_
  refine Safe.ite (fun _ => Safe.pure bounded) fun fits => ?_
  have inside : ihl + udpHdrLen + (udpLen - udpHdrLen) ≤ p.length := by omega
  refine Safe.bind (be16_safe (by omega)) fun sport _ => ?_
  refine Safe.bind (be16_safe (by omega)) fun dport _ => ?_
  refine Safe.bind (dhcpUdpDeliver_safe bounded dport inside) fun dhcp afterDhcp => ?_
  cases dhcp with
  | some net' => exact Safe.pure (afterDhcp net' rfl)
  | none =>
    refine Safe.bind (dnsUdpDeliver_safe bounded dport inside) fun dns afterDns => ?_
    cases dns with
    | some net' => exact Safe.pure (afterDns net' rfl)
    | none =>
      refine Safe.bind (be32_safe (by omega)) fun sip _ => ?_
      refine Safe.ite (fun _ => ?_) fun _ => ?_
      · refine Safe.bind (readAt_safe inside) fun payload _ => ?_
        refine Safe.bind (udpSend_safe bounded sip 7 sport payload pool) fun result after => ?_
        exact Safe.pure after
      refine Safe.bind (sockUdpDeliver_safe bounded dport sport sip inside) fun sock afterSock => ?_
      cases sock with
      | some net' => exact Safe.pure (afterSock net' rfl)
      | none =>
        refine Safe.bind (udpEchoReply_safe bounded dport sport inside) fun net' after => ?_
        exact Safe.pure after

end

theorem newPcb_ok : PcbOk newPcb :=
  ⟨length_replicate, Nat.zero_le _, length_replicate, Nat.zero_le _⟩

theorem tcpOnAck_safe (ok : PcbOk pcb) (ack : Nat) : Safe PcbOk (tcpOnAck pcb ack) := by
  have room : tcpUnaMax = 2048 := rfl
  have una := ok.unaLen
  refine Safe.ite (fun _ => Safe.pure ok) fun some_ => ?_
  refine Safe.ite (fun _ => Safe.pure ok) fun forward => ?_
  refine Safe.ite (fun _ => Safe.pure { ok with unaLen := Nat.zero_le _ }) fun part => ?_
  have left : sub32 pcb.unaLen (sub32 ack pcb.unaSeq) = pcb.unaLen - sub32 ack pcb.unaSeq := by
    unfold sub32 at part ⊢
    omega
  refine Safe.bind (readAt_safe (by rw [ok.unaBuf]; omega)) fun rest long => ?_
  refine Safe.bind (writeAt_safe (by rw [ok.unaBuf]; omega)) fun buf size => Safe.pure ?_
  exact ⟨ok.rxBuf, ok.rxLen, size.trans ok.unaBuf, by dsimp only; omega⟩

theorem tcpOnAckFlag_safe (ok : PcbOk pcb) (ack flags : Nat) :
    Safe PcbOk (tcpOnAckFlag pcb ack flags) :=
  Safe.ite (fun _ => tcpOnAck_safe ok ack) fun _ => Safe.pure ok

theorem tcpRxAppend_safe (ok : PcbOk pcb) (data : List Byte) :
    Safe PcbOk (tcpRxAppend pcb data) := by
  have room : tcpRxMax = 1024 := rfl
  have rx := ok.rxLen
  refine Safe.ite (fun _ => Safe.pure ok) fun _ => ?_
  have space : sub32 tcpRxMax pcb.rxLen = tcpRxMax - pcb.rxLen := by
    unfold sub32
    omega
  have least : (if data.length < sub32 tcpRxMax pcb.rxLen then data.length
      else sub32 tcpRxMax pcb.rxLen) ≤ tcpRxMax - pcb.rxLen := by
    split_ifs <;> omega
  refine Safe.bind (writeAt_safe (by rw [ok.rxBuf, length_take]; omega)) fun buf size =>
    Safe.pure ?_
  refine ⟨size.trans ok.rxBuf, ?_, ok.unaBuf, ok.unaLen⟩
  dsimp only
  unfold add32
  omega

section

variable (bounded : Bounded net)
include bounded

theorem sendGo_safe (i : Fin 8) (buf : List Byte) (pool : Pool) (cont : Cont) :
    Good (sendGo net i buf pool cont) := by
  have ok := bounded.pcb i
  have room : tcpUnaMax = 2048 := rfl
  have una := ok.unaLen
  have space : sub32 tcpUnaMax (net.pcbs i).unaLen = tcpUnaMax - (net.pcbs i).unaLen := by
    unfold sub32
    omega
  unfold sendGo
  dsimp only
  rw [space]
  refine Safe.ite (fun _ => Safe.pure bounded) fun some_ => ?_
  have least := ite_lt_le buf.length (tcpUnaMax - (net.pcbs i).unaLen)
  refine Safe.bind (readAt_safe (by omega)) fun data long => ?_
  refine Safe.bind (writeAt_safe (by rw [ok.unaBuf]; omega)) fun queued size => ?_
  refine outputFrom_safe (bounded.setPcb ?_) _ _ _ _ _
  refine ⟨ok.rxBuf, ok.rxLen, size.trans ok.unaBuf, ?_⟩
  dsimp only
  unfold add32
  omega

theorem tcpPcbSend_safe (i : Fin 8) (buf : List Byte) (pool : Pool) (cont : Cont) :
    Good (tcpPcbSend net i buf pool cont) :=
  Safe.ite (fun _ => Safe.pure bounded) fun _ =>
    Safe.ite (fun _ => Safe.pure bounded) fun _ => sendGo_safe bounded i buf pool cont

theorem acceptSyn_safe (i : Fin 8) (seq flags sport sip : Nat) (pool : Pool) :
    Good (acceptSyn net i seq flags sport sip pool) := by
  refine Safe.ite (fun _ => Safe.pure bounded) fun _ => ?_
  cases freePcb net with
  | none => exact Safe.pure bounded
  | some child =>
    refine outputFrom_safe (bounded.setPcb ?_) _ _ _ _ _
    exact { newPcb_ok with }

theorem handleFin_safe (i : Fin 8) (seq plen flags : Nat) (pool : Pool) :
    Good (handleFin net i seq plen flags pool) := by
  refine Safe.ite (fun _ => Safe.ite (fun _ => ?_) fun _ => Safe.pure ?_) fun _ => Safe.pure bounded
  · refine outputFrom_safe (bounded.keepPcb ?_) _ _ _ _ _
    rfl
  · exact bounded.keepPcb rfl

theorem acceptData_safe (i : Fin 8) (seq flags : Nat) (inside : off + plen ≤ p.length)
    (pool : Pool) : Good (acceptData net i seq flags p off plen pool) := by
  obtain ⟨rxBuf, rxLen, unaBuf, unaLen⟩ := bounded.pcb i
  refine Safe.ite (fun _ => Safe.ite (fun _ => ?_) fun _ => ?_) fun _ => ?_
  · refine Safe.bind (readAt_safe inside) fun data _ => ?_
    refine Safe.bind (tcpRxAppend_safe ?_ data) fun pcb ok => ?_
    · exact ⟨rxBuf, rxLen, unaBuf, unaLen⟩
    refine Safe.ite (fun _ => ?_) fun _ => ?_
    · exact tcpPcbSend_safe (bounded.setPcb ok) i data pool _
    · exact outputFrom_safe (bounded.setPcb ok) _ _ _ _ _
  · exact outputFrom_safe bounded _ _ _ _ _
  · exact handleFin_safe bounded i seq plen flags pool

theorem ackedData_safe (ok : PcbOk pcb) (i : Fin 8) (seq ack flags : Nat)
    (inside : off + plen ≤ p.length) (pool : Pool) :
    Good (do
      let pcb' ← tcpOnAck pcb ack
      acceptData (net.setPcb i pcb') i seq flags p off plen pool) :=
  Safe.bind (tcpOnAck_safe ok ack) fun _ after =>
    acceptData_safe (bounded.setPcb after) i seq flags inside pool

theorem tcpHandle_safe (i : Fin 8) (seq ack flags sport sip : Nat)
    (inside : off + plen ≤ p.length) (pool : Pool) :
    Good (tcpHandle net i seq ack flags p off plen sport sip pool) := by
  have ok := bounded.pcb i
  obtain ⟨rxBuf, rxLen, unaBuf, unaLen⟩ := bounded.pcb i
  unfold tcpHandle
  dsimp only
  cases (net.pcbs i).state with
  | listen => exact acceptSyn_safe bounded i seq flags sport sip pool
  | synSent =>
    refine Safe.ite (fun _ => ?_) fun _ => Safe.ite (fun _ => Safe.pure ?_) fun _ =>
      Safe.pure bounded
    · refine outputFrom_safe (bounded.setPcb ?_) _ _ _ _ _
      exact ⟨rxBuf, rxLen, unaBuf, unaLen⟩
    · exact bounded.setPcb ⟨rxBuf, rxLen, unaBuf, unaLen⟩
  | synRcvd | established | closeWait =>
    refine Safe.ite (fun _ => ackedData_safe bounded ?_ i seq ack flags inside pool) fun _ =>
      acceptData_safe bounded i seq flags inside pool
    exact ⟨rxBuf, rxLen, unaBuf, unaLen⟩
  | finWait1 =>
    refine Safe.bind (tcpOnAckFlag_safe ok ack flags) fun pcb after => ?_
    have closed : PcbOk (if hasFlag flags tcpAck ∧ ack = pcb.sndNxt then
        { pcb with state := .closed } else pcb) := by
      split_ifs
      · exact { after with }
      · exact after
    refine Safe.ite (fun _ => ?_) fun _ => Safe.pure (bounded.setPcb closed)
    refine outputFrom_safe (bounded.setPcb ?_) _ _ _ _ _
    exact { closed with }
  | lastAck =>
    exact Safe.ite (fun _ => Safe.pure (bounded.setPcb ⟨rxBuf, rxLen, unaBuf, unaLen⟩)) fun _ =>
      Safe.pure bounded
  | closed => exact Safe.pure bounded

theorem refuse_safe (seq ack flags plen sport dport sip : Nat) (pool : Pool) :
    Good (refuse net seq ack flags plen sport dport sip pool) := by
  refine Safe.ite (fun _ => Safe.pure bounded) fun _ => ?_
  refine Safe.bind (tcpOutput_safe bounded ?_ _ _ _) fun result after => Safe.pure after.1
  exact { newPcb_ok with }

theorem tcpInput_safe (header : 20 ≤ ihl) (pool : Pool) : Good (tcpInput net p ihl pool) := by
  refine Safe.ite (fun _ => Safe.pure bounded) fun long => ?_
  have size : ihl + 20 ≤ p.length := Nat.le_of_not_lt long
  refine Safe.bind (byteAt_safe (by omega)) fun offRes _ => ?_
  refine Safe.ite (fun _ => Safe.pure bounded) fun fits => ?_
  have inside : ihl + offRes / 16 * 4 + (p.length - ihl - offRes / 16 * 4) ≤ p.length := by omega
  refine Safe.bind (be16_safe (by omega)) fun sport _ => ?_
  refine Safe.bind (be16_safe (by omega)) fun dport _ => ?_
  refine Safe.bind (be32_safe (by omega)) fun seq _ => ?_
  refine Safe.bind (be32_safe (by omega)) fun ack _ => ?_
  refine Safe.bind (byteAt_safe (by omega)) fun flags _ => ?_
  refine Safe.bind (be32_safe (by omega)) fun sip _ => ?_
  cases (tcpFind net dport sport sip false).or (tcpFind net dport 0 0 true) with
  | none => exact refuse_safe bounded seq ack flags _ sport dport sip pool
  | some i => exact tcpHandle_safe bounded i seq ack flags sport sip inside pool

theorem ipv4Input_safe (p : List Byte) (pool : Pool) : Good (ipv4Input net p pool) := by
  refine Safe.ite (fun _ => Safe.pure bounded) fun long => ?_
  have size : 20 ≤ p.length := Nat.le_of_not_lt long
  refine Safe.bind (byteAt_safe (by omega)) fun verIhl _ => ?_
  refine Safe.ite (fun _ => Safe.pure bounded) fun fits => ?_
  have header : 20 ≤ verIhl % 16 * 4 := by
    have least : ipv4HdrMin = 20 := rfl
    omega
  refine Safe.bind (be16_safe (by omega)) fun total _ => ?_
  -- what is left of the packet still has its header
  have rest : 20 ≤ (if total < verIhl % 16 * 4 ∨ p.length < total then p
      else p.take total).length := by
    split_ifs with whole
    · exact size
    · rw [length_take]
      omega
  refine Safe.bind (be32_safe (by omega)) fun dst _ => ?_
  refine Safe.ite (fun _ => ?_) fun _ => Safe.pure bounded
  refine Safe.bind (byteAt_safe (by omega)) fun proto _ => ?_
  refine Safe.ite (fun _ => icmpInput_safe bounded header) fun _ => ?_
  refine Safe.ite (fun _ => udpInput_safe bounded header pool) fun _ => ?_
  exact Safe.ite (fun _ => tcpInput_safe bounded header pool) fun _ => Safe.pure bounded

theorem ethernetInput_safe {frame : List Byte} (fits : frame.length ≤ pbufSize) (pool : Pool)
    (transmitted : Bool) : Good (ethernetInput net frame pool transmitted) := by
  refine Safe.ite (fun _ => Safe.pure bounded) fun long => ?_
  have header : ethHdrLen = 14 := rfl
  refine Safe.bind (be16_safe (by omega)) fun etype _ => ?_
  refine Safe.ite (fun _ => Safe.pure bounded) fun _ => ?_
  refine Safe.bind (readAt_safe (by omega)) fun payload length => ?_
  refine Safe.bind (pbufFill_safe (by omega)) fun _ _ => ?_
  refine Safe.ite (fun _ => ?_) fun _ => Safe.ite (fun _ => ipv4Input_safe bounded payload pool)
    fun _ => Safe.pure bounded
  exact Safe.bind (arpInput_safe bounded payload pool transmitted) fun net' after => Safe.pure after

end

/-- A call goes on within the buffers if a failed send's bytes are still queued. -/
theorem resume_safe (bounded : Bounded net) (ok : Bool) (pool : Pool) (cont : Cont)
    (held : ok = false → ∀ i n next, cont = .sent i n next → n ≤ (net.pcbs i).unaLen) :
    Good (resume net ok pool cont) := by
  cases cont with
  | stop => exact Safe.pure bounded
  | sent i n next =>
    obtain ⟨rxBuf, rxLen, unaBuf, unaLen⟩ := bounded.pcb i
    refine Safe.pure ?_
    cases ok with
    | true => exact bounded
    | false =>
      have queued := held rfl i n next rfl
      refine bounded.setPcb ⟨rxBuf, rxLen, unaBuf, ?_⟩
      dsimp only
      unfold sub32
      omega
  | fin i seq plen flags => exact handleFin_safe bounded i seq plen flags pool
  | closeWait i =>
    exact Safe.ite (fun _ => outputFrom_safe bounded _ _ _ _ _) fun _ => Safe.pure bounded
  | lastAck i => exact Safe.pure (bounded.keepPcb rfl)
  | finWait i => exact Safe.pure (bounded.keepPcb rfl)
  | connect i =>
    exact Safe.ite (fun _ => Safe.pure bounded) fun _ => Safe.pure (bounded.keepPcb rfl)
  | closing i => exact Safe.pure (bounded.keepPcb rfl)

theorem tcpRexmitUna_safe (bounded : Bounded net) (i : Fin 8) (pool : Pool) :
    Good (tcpRexmitUna net i pool) := by
  have una := (bounded.pcb i).unaLen
  have size := (bounded.pcb i).unaBuf
  have least : (if (net.pcbs i).unaLen < tcpMss then (net.pcbs i).unaLen else tcpMss) ≤
      (net.pcbs i).unaLen := by
    split_ifs <;> omega
  refine Safe.ite (fun _ => Safe.pure bounded) fun fits => ?_
  refine Safe.bind (readAt_safe (by omega)) fun data long => ?_
  refine Safe.bind (pbufFill_safe ?_) fun _ _ => ?_
  · rw [length_tcpBuildWin]
    omega
  · exact Safe.bind (ipv4Output_safe bounded _ _ _ _) fun result after => Safe.pure after

theorem recvShift_safe (ok : PcbOk pcb) (n : Nat) :
    Safe (fun buf => buf.length = tcpRxMax) (recvShift pcb n) := by
  have rx := ok.rxLen
  have room : tcpRxMax = 1024 := rfl
  refine Safe.ite (fun less => ?_) fun _ => Safe.pure ok.rxBuf
  have left : sub32 pcb.rxLen n = pcb.rxLen - n := by
    unfold sub32
    omega
  refine Safe.bind (readAt_safe (by rw [ok.rxBuf]; omega)) fun rest long => ?_
  refine (writeAt_safe (by rw [ok.rxBuf]; omega)).mono fun buf size => size.trans ok.rxBuf

theorem tcpPcbRecv_safe (bounded : Bounded net) (i : Fin 8) (len : Nat) (pool : Pool) :
    Good (tcpPcbRecv net i len pool) := by
  have ok := bounded.pcb i
  have rx := ok.rxLen
  have least : (if (net.pcbs i).rxLen < len then (net.pcbs i).rxLen else len) ≤
      (net.pcbs i).rxLen := by
    split_ifs <;> omega
  refine Safe.ite (fun _ => Safe.pure bounded) fun _ => ?_
  refine Safe.bind (readAt_safe (by rw [ok.rxBuf]; omega)) fun _ _ => ?_
  refine Safe.bind (recvShift_safe ok _) fun buf size => ?_
  have after : PcbOk { net.pcbs i with
      rxBuf := buf
      rxLen := sub32 (net.pcbs i).rxLen
        (if (net.pcbs i).rxLen < len then (net.pcbs i).rxLen else len) } := by
    refine ⟨size, ?_, ok.unaBuf, ok.unaLen⟩
    dsimp only
    unfold sub32
    omega
  exact Safe.ite (fun _ => outputFrom_safe (bounded.setPcb after) _ _ _ _ _) fun _ =>
    Safe.pure (bounded.setPcb after)

theorem tcpPcbConnect_safe (bounded : Bounded net) (i : Fin 8) (dst port loc : Nat) (pool : Pool) :
    Good (tcpPcbConnect net i dst port loc pool) := by
  have ok := bounded.pcb i
  refine Safe.ite (fun _ => Safe.pure bounded) fun _ => ?_
  refine outputFrom_safe (bounded.setPcb ?_) _ _ _ _ _
  exact ⟨ok.rxBuf, Nat.zero_le _, ok.unaBuf, Nat.zero_le _⟩

theorem tcpPcbClose_safe (bounded : Bounded net) (i : Fin 8) (pool : Pool) :
    Good (tcpPcbClose net i pool) :=
  Safe.ite (fun _ => outputFrom_safe bounded _ _ _ _ _) fun _ => Safe.pure bounded

theorem settle_safe (rest : List Task) {run : Option Result} (good : Good run) :
    Safe Bounded (settle rest run) :=
  Safe.bind good fun _ after => Safe.pure
    { after with }

theorem setSock_bounded (bounded : Bounded net) (slot : Fin 8) {change : Sock → Sock}
    (same : ∀ s, (change s).rxBuf = s.rxBuf) : Bounded (setSock net slot change) := by
  refine bounded.setSock slot fun s' changed => ?_
  obtain ⟨s, there, rfl⟩ := Option.map_eq_some_iff.1 changed
  rw [same]
  exact bounded.sock slot s there

/-- The call that goes on after an output that fails. -/
def failing (net : Stack) (pool : Pool) : Op → Option Cont
  | .resolved t transmitted =>
    match net.tasks[t]? with
    | some ⟨.arp pkt _, cont⟩ =>
      if pbufSize < pkt.length + ethHdrLen ∨ pool.packet = false ∨ transmitted = false then
        some cont
      else none
    | _ => none
  | .timeout t =>
    match net.tasks[t]? with
    | some ⟨.arp _ _, cont⟩ => some cont
    | _ => none
  | .proceed t =>
    match net.tasks[t]? with
    | some ⟨.finished false, cont⟩ => some cont
    | _ => none
  | _ => none

/-- If a send fails, the bytes it queued are still unacknowledged. -/
def queueHolds (net : Stack) (op : Op) (pool : Pool) : Bool :=
  match failing net pool op with
  | some (.sent i n _) => decide (n ≤ (net.pcbs i).unaLen)
  | _ => true

theorem le_unaLen_of_queueHolds {op : Op} {pool : Pool} (holds : queueHolds net op pool = true)
    {i : Fin 8} {n : Nat} {next : Cont} (fails : failing net pool op = some (.sent i n next)) :
    n ≤ (net.pcbs i).unaLen := by
  unfold queueHolds at holds
  rw [fails] at holds
  exact of_decide_eq_true holds

/-- One event stays within the buffers. -/
theorem perform_safe (bounded : Bounded net) {op : Op} (pool : Pool)
    (possible : enabled net op = true) (holds : queueHolds net op pool = true) :
    Safe Bounded (perform net op pool) := by
  have held := @le_unaLen_of_queueHolds net op pool holds
  cases op with
  | frame bytes transmitted =>
    have fits : bytes.length ≤ pbufSize := by
      unfold enabled at possible
      rw [Bool.and_eq_true] at possible
      exact of_decide_eq_true possible.1
    exact settle_safe _ (ethernetInput_safe bounded fits pool transmitted)
  | resolved t transmitted =>
    dsimp only [perform]
    dsimp only [failing] at held
    split
    · rename_i pkt dst cont there
      simp only [there] at held
      refine Safe.bind (ethernetOutput_safe net pkt _ _ pool transmitted) fun ok why => ?_
      refine settle_safe _ (resume_safe bounded ok pool cont fun failed i n next same => ?_)
      rw [if_pos (why failed), same] at held
      exact held rfl
    · exact Safe.pure bounded
  | timeout t =>
    dsimp only [perform]
    dsimp only [failing] at held
    split
    · rename_i pkt dst cont there
      simp only [there] at held
      refine settle_safe _ (resume_safe bounded false pool cont fun _ i n next same => ?_)
      exact held (congrArg some same)
    · exact Safe.pure bounded
  | proceed t =>
    dsimp only [perform]
    dsimp only [failing] at held
    split
    · rename_i ok cont there
      refine settle_safe _ (resume_safe bounded ok pool cont fun failed i n next same => ?_)
      subst failed
      simp only [there] at held
      exact held (congrArg some same)
    · exact Safe.pure bounded
  | leaveLoop t =>
    dsimp only [perform]
    split
    · exact settle_safe _ (sendGo_safe bounded _ _ pool _)
    · exact Safe.pure bounded
  | rexmit i => exact settle_safe _ (tcpRexmitUna_safe bounded i pool)
  | pcbNew =>
    refine Safe.pure ?_
    cases freePcb net with
    | none => exact bounded
    | some i =>
      refine bounded.setPcb ?_
      exact { newPcb_ok with }
  | pcbFree i => exact Safe.pure (bounded.setPcb newPcb_ok)
  | pcbBind i port => exact Safe.pure (bounded.keepPcb rfl)
  | pcbListen i port echo => exact Safe.pure (bounded.keepPcb rfl)
  | pcbAccept i => exact Safe.pure (bounded.keepPcb rfl)
  | connect i dst port loc => exact settle_safe _ (tcpPcbConnect_safe bounded i dst port loc pool)
  | synRetry i =>
    refine settle_safe _ (outputFrom_safe (bounded.keepPcb ?_) _ _ _ _ _)
    rfl
  | send i buf => exact settle_safe _ (tcpPcbSend_safe bounded i buf pool .stop)
  | recv i len => exact settle_safe _ (tcpPcbRecv_safe bounded i len pool)
  | close i => exact settle_safe _ (tcpPcbClose_safe bounded i pool)
  | udpSocket slot =>
    refine Safe.pure (bounded.setSock slot fun s' same => ?_)
    cases same
    exact length_replicate
  | udpClose slot => exact Safe.pure (bounded.setSock slot fun s' none_ => by cases none_)
  | udpBind slot port | udpConnect slot ip port | udpRecv slot =>
    exact Safe.pure (setSock_bounded bounded slot fun _ => rfl)
  | dhcpWait waiting => exact Safe.pure (bounded.keep rfl)
  | dnsWait waiting port => exact Safe.pure (bounded.keep rfl)
  | ping id seq => exact Safe.pure (bounded.keep rfl)
  | udpEcho sport dport =>
    have length : echoPayload.length = 8 := rfl
    refine Safe.bind (writeAt_safe (by rw [bounded.echo.1, length]; omega)) fun buf size =>
      Safe.pure ?_
    refine ⟨bounded.pcb, bounded.sock, bounded.dhcp, bounded.dns, bounded.arp, ?_, ?_⟩
    · exact size.trans bounded.echo.1
    · change echoPayload.length ≤ 64
      decide
  | dropNextData drop => exact Safe.pure (bounded.keep rfl)
  | setAddr ip netmask gateway => exact Safe.pure (bounded.keep rfl)

end

section Runs

/-- The stack when the kernel has set it up for an interface. -/
def boot (mac : List Byte) : Stack where
  mac := mac
  ip := 0
  netmask := 0
  gateway := 0
  configured := false
  arp := List.replicate arpCacheSize ⟨0, List.replicate 6 0, false⟩
  pcbs := fun _ => newPcb
  socks := fun _ => none
  dhcpWaiting := false
  dhcpRx := List.replicate dhcpRxSize 0
  dhcpRxLen := 0
  dnsWaiting := false
  dnsWaitPort := 0
  dnsRx := List.replicate dnsMaxPkt 0
  dnsRxLen := 0
  pingWaiting := false
  pingId := 0
  pingSeq := 0
  pingSrc := 0
  udpWait := false
  udpWaitSport := 0
  udpWaitDport := 0
  udpWaitPayload := List.replicate 64 0
  udpWaitPlen := 0
  dropNextData := false
  ipv4IdCounter := 0
  tasks := []

theorem boot_bounded (mac : List Byte) : Bounded (boot mac) where
  pcb := fun _ => newPcb_ok
  sock := fun _ _ there => by cases there
  dhcp := length_replicate
  dns := length_replicate
  arp := length_replicate
  echo := ⟨length_replicate, Nat.zero_le _⟩

/-- None after an access outside a buffer. -/
def networks : System (Option Stack) (Op × Pool) where
  start s := ∃ mac, s = some (boot mac)
  step s event s' := ∃ net, s = some net ∧ enabled net event.1 = true ∧
    s' = perform net event.1 event.2

/-- No step takes back bytes that were acknowledged meanwhile. -/
def Held (s : Option Stack) (event : Op × Pool) : Prop :=
  ∀ net, s = some net → queueHolds net event.1 event.2 = true

variable {net net' : Stack}

theorem bounded_of_reachable {s : Option Stack} (run : Reachable networks Held s) :
    ∃ net, s = some net ∧ Bounded net := by
  refine run.invariant (I := fun s => ∃ net, s = some net ∧ Bounded net) ?_ ?_
  · rintro s ⟨mac, rfl⟩
    exact ⟨boot mac, rfl, boot_bounded mac⟩
  · rintro s ⟨op, pool⟩ s' ⟨net, rfl, bounded⟩ held ⟨net', same, possible, rfl⟩
    cases same
    exact perform_safe bounded pool possible (held net rfl)

/-- While no send takes back acknowledged bytes, no run leaves a buffer, and every frame that fits
one is processed. -/
theorem frames_stay_in_buffers {s : Option Stack} (run : Reachable networks Held s) :
    ∃ net, s = some net ∧ Bounded net ∧ ∀ frame : List Byte, frame.length ≤ pbufSize →
      ∀ pool transmitted, ethernetInput net frame pool transmitted ≠ none := by
  obtain ⟨net, same, bounded⟩ := bounded_of_reachable run
  exact ⟨net, same, bounded, fun frame fits pool transmitted =>
    (ethernetInput_safe bounded fits pool transmitted).ne_none⟩

/-- Events taken as long as each is possible and passes the test. -/
def trail (test : Stack → Op → Pool → Bool) : Stack → List (Op × Pool) → Option Stack
  | net, [] => some net
  | net, (op, pool) :: rest =>
    if enabled net op && test net op pool then do
      let net' ← perform net op pool
      trail test net' rest
    else none

theorem reachable_of_trail {test : Stack → Op → Pool → Bool}
    {guard : Option Stack → Op × Pool → Prop}
    (sound : ∀ net op pool, test net op pool = true → guard (some net) (op, pool)) :
    ∀ {events : List (Op × Pool)} {net : Stack}, trail test net events = some net' →
      Reachable networks guard (some net) → Reachable networks guard (some net')
  | [], net, done, run => by
    cases done
    exact run
  | (op, pool) :: rest, net, done, run => by
    unfold trail at done
    split_ifs at done with passes
    rw [Bool.and_eq_true] at passes
    obtain ⟨next, performed, done⟩ := Option.bind_eq_some_iff.1 done
    refine reachable_of_trail sound done (.step run (sound _ _ _ passes.2) ?_)
    exact ⟨net, rfl, passes.1, performed.symm⟩

/-- Port 5000 of 10.0.0.3 to port 7 of 10.0.0.2. -/
def echoFrame (seq ack flags : Nat) (data : List Byte) : List Byte :=
  List.replicate 12 0 ++ be16Bytes 0x0800 ++
    [0x45, 0] ++ be16Bytes (40 + data.length) ++ [0, 0, 0, 0, 64, 6, 0, 0] ++
    be32Bytes 0x0A000003 ++ be32Bytes 0x0A000002 ++
    be16Bytes 5000 ++ be16Bytes 7 ++ be32Bytes seq ++ be32Bytes ack ++
    [0x50, UInt8.ofNat flags] ++ be16Bytes 1024 ++ [0, 0, 0, 0] ++ data

def fullPool : Pool := ⟨true, true, true, 0⟩

/-- A peer without ARP opens an echo connection and sends eight bytes. -/
def echoed : List (Op × Pool) :=
  [.pcbNew, .pcbListen 0 7 true, .setAddr 0x0A000002 0xFFFFFF00 0x0A000001,
    .frame (echoFrame 100 0 tcpSyn []) true, .timeout 0,
    .frame (echoFrame 101 2001 tcpAck []) true,
    .frame (echoFrame 101 2001 (tcpPsh ||| tcpAck) echoPayload) true].map (·, fullPool)

/-- The echo is given up with its bytes still queued. -/
theorem frames_stay_in_buffers_echoed :
    ∃ net, Reachable networks Held (some net) ∧ (net.pcbs 1).state = .established ∧
      (net.pcbs 1).rxLen = 8 ∧ ∀ frame : List Byte, frame.length ≤ pbufSize →
      ∀ pool transmitted, ethernetInput net frame pool transmitted ≠ none := by
  have done : ((trail queueHolds (boot []) (echoed ++ [(.timeout 0, fullPool)])).map fun net =>
      ((net.pcbs 1).state, (net.pcbs 1).rxLen)) = some (.established, 8) := by
    decide +kernel
  obtain ⟨net, ran, values⟩ := Option.map_eq_some_iff.1 done
  have run : Reachable networks Held (some net) :=
    reachable_of_trail (fun _ _ _ holds _ same => by cases same; exact holds) ran (.start ⟨[], rfl⟩)
  obtain ⟨_, same, -, inside⟩ := frames_stay_in_buffers run
  cases same
  rw [Prod.mk.injEq] at values
  exact ⟨net, run, values.1, values.2, inside⟩

/-- The echo is acknowledged while it waits for the hardware address and then given up: the next
acknowledgement moves 2^32 - 8 bytes. -/
theorem acked_echo_leaves_buffer :
    ∃ net, Reachable networks (fun _ _ => True) (some net) ∧ (net.pcbs 1).unaLen = 2 ^ 32 - 8 ∧
      ∃ frame : List Byte, frame.length ≤ pbufSize ∧
        enabled net (.frame frame true) = true ∧ ethernetInput net frame fullPool true = none := by
  have done : ((trail (fun _ _ _ => true) (boot []) (echoed ++
      [(.frame (echoFrame 109 2009 tcpAck []) true, fullPool), (.timeout 0, fullPool),
        (.proceed 0, fullPool)])).map fun net =>
      ((net.pcbs 1).unaLen, enabled net (.frame (echoFrame 109 2002 tcpAck []) true),
        (ethernetInput net (echoFrame 109 2002 tcpAck []) fullPool true).isNone)) =
      some (2 ^ 32 - 8, true, true) := by
    decide +kernel
  obtain ⟨net, ran, values⟩ := Option.map_eq_some_iff.1 done
  rw [Prod.mk.injEq, Prod.mk.injEq] at values
  refine ⟨net, reachable_of_trail (fun _ _ _ _ => trivial) ran (.start ⟨[], rfl⟩), values.1,
    echoFrame 109 2002 tcpAck [], ?_, values.2.1, Option.isNone_iff_eq_none.1 values.2.2⟩
  decide +kernel

end Runs

end IcsOs.Net.Safety
