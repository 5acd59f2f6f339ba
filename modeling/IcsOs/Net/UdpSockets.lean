/- GID: IcsOs/Net/UdpSockets
   generality: I
   source: kernel/net/sock.c, kernel/net/udp.c
   digest: Datagram sockets: the ports they take, and what becomes of the datagrams for them. -/

import IcsOs.Net.Safety

set_option autoImplicit false

namespace IcsOs.Net.UdpSockets

open Function List
open Lib.Checked Lib.Runs Lib.Updates Net.Input

def sockUdpEphBase : Nat := 42000

def eaddrinuse : Int := 98

/-- A datagram as it was handed over, with its sender. -/
structure Datagram where
  payload : List Byte
  ip : Nat
  port : Nat
  deriving DecidableEq

/-- The room offered, the bytes put there and the sender. -/
structure Receipt where
  room : Nat
  bytes : List Byte
  ip : Nat
  port : Nat
  deriving DecidableEq

/-- What happened at a socket since it was opened. -/
structure Book where
  accepted : List Datagram
  returned : List Receipt

/-- `udp_socks`, `udp_eph`, references, and the books; an open socket has one slot. -/
structure World where
  socks : Fin 8 → Option Sock
  refs : Fin 8 → Nat
  eph : Nat
  books : Fin 8 → Book

def freshSock : Sock where
  bound := false
  localPort := 0
  peerIp := 0
  peerPort := 0
  rxBuf := List.replicate sockUdpRxMax 0
  rxLen := 0
  rxFromIp := 0
  rxFromPort := 0

/-- The socket of a slot, with what is written about it. -/
def World.put (w : World) (i : Fin 8) (s : Sock) (b : Book) : World :=
  { w with socks := Function.update w.socks i (some s), books := Function.update w.books i b }

/-- `udp_register` takes the first empty slot. -/
def sysSocket (w : World) : World :=
  match (List.finRange 8).find? fun i => (w.socks i).isNone with
  | none => w
  | some i => { w.put i freshSock ⟨[], []⟩ with refs := Function.update w.refs i 1 }

/-- The counter after `udp_alloc_ephemeral`. -/
def nextEphemeral (eph : Nat) : Nat :=
  if (eph + 1) % 2 ^ 16 < sockUdpEphBase then sockUdpEphBase else (eph + 1) % 2 ^ 16

def udpEnsureLocal (w : World) (i : Fin 8) : World :=
  match w.socks i with
  | none => w
  | some s =>
    if s.localPort ≠ 0 then w
    else
      { w.put i { s with localPort := w.eph, bound := true } (w.books i) with
        eph := nextEphemeral w.eph }

/-- Whether `sys_bind` finds the port at another socket. -/
def portInUse (w : World) (i : Fin 8) (port : Nat) : Bool :=
  (List.finRange 8).any fun j =>
    decide (j ≠ i) && (w.socks j).any fun t => t.bound && t.localPort == port

def sysBind (w : World) (i : Fin 8) (port : Nat) : Int × World :=
  match w.socks i with
  | none => (0, w)
  | some s =>
    if port ≠ 0 ∧ portInUse w i port = true then (-eaddrinuse, w)
    else (0, w.put i { s with localPort := port, bound := true } (w.books i))

/-- `sys_connect` on a datagram socket. -/
def sysConnect (w : World) (i : Fin 8) (ip port : Nat) : World :=
  match w.socks i with
  | none => w
  | some s => udpEnsureLocal (w.put i { s with peerIp := ip, peerPort := port } (w.books i)) i

/-- Whether the datagram then gets out changes no socket. -/
def sockUdpSend (w : World) (i : Fin 8) (ip port : Nat) : World :=
  if ip = 0 ∨ port = 0 then w else udpEnsureLocal w i

/-- To the connected peer. -/
def sysSend (w : World) (i : Fin 8) : World :=
  match w.socks i with
  | none => w
  | some s => sockUdpSend w i s.peerIp s.peerPort

/-- After its wait: what it copies out, if anything. -/
def sockUdpRecv (s : Sock) (len : Nat) : Option Receipt × Sock :=
  if s.rxLen = 0 then (none, s)
  else
    let n := if s.rxLen < len then s.rxLen else len
    (some ⟨len, s.rxBuf.take n, s.rxFromIp, s.rxFromPort⟩, { s with rxLen := 0 })

def sysRecvfrom (w : World) (i : Fin 8) (len : Nat) : World :=
  match w.socks i with
  | none => w
  | some s =>
    match sockUdpRecv s len with
    | (none, s') => w.put i s' (w.books i)
    | (some r, s') => w.put i s' { w.books i with returned := (w.books i).returned ++ [r] }

/-- As much of a datagram as fits the socket's buffer. -/
def fillRx (s : Sock) (d : Datagram) : Sock :=
  let n := if d.payload.length < sockUdpRxMax then d.payload.length else sockUdpRxMax
  { s with
    rxBuf := d.payload.take n ++ s.rxBuf.drop n, rxLen := n, rxFromIp := d.ip,
    rxFromPort := d.port }

/-- The socket `sock_udp_deliver` finds for a datagram. -/
def receiver (socks : Fin 8 → Option Sock) (dport : Nat) (d : Datagram) : Option (Fin 8) :=
  (List.finRange 8).find? fun i => (socks i).any fun s => s.takes dport d.port d.ip

/-- A full buffer drops the datagram; any other is taken. -/
def sockUdpDeliver (w : World) (dport : Nat) (d : Datagram) : World :=
  match receiver w.socks dport d with
  | none => w
  | some i =>
    match w.socks i with
    | none => w
    | some s =>
      if s.rxLen ≠ 0 then w
      else w.put i (fillRx s d) { w.books i with accepted := (w.books i).accepted ++ [d] }

/-- The last reference takes the socket out of its slot. -/
def sockClose (w : World) (i : Fin 8) : World :=
  if 1 < w.refs i then { w with refs := Function.update w.refs i (w.refs i - 1) }
  else { w with socks := Function.update w.socks i none, refs := Function.update w.refs i 0 }

def sockRetain (w : World) (i : Fin 8) : World :=
  { w with refs := Function.update w.refs i (w.refs i + 1) }

/-- The calls under the network lock; a receiver makes sure of its port, lets go, and looks. -/
inductive Act
  | socket
  | bind (i : Fin 8) (port : Nat)
  | connect (i : Fin 8) (ip port : Nat)
  | sendto (i : Fin 8) (ip port : Nat)
  | send (i : Fin 8)
  | recvBegin (i : Fin 8)
  | recvEnd (i : Fin 8) (len : Nat)
  | deliver (dport : Nat) (d : Datagram)
  | retain (i : Fin 8)
  | close (i : Fin 8)

def perform (w : World) : Act → World
  | .socket => sysSocket w
  | .bind i port => (sysBind w i port).2
  | .connect i ip port => sysConnect w i ip port
  | .sendto i ip port => sockUdpSend w i ip port
  | .send i => sysSend w i
  | .recvBegin i => udpEnsureLocal w i
  | .recvEnd i len => sysRecvfrom w i len
  | .deliver dport d => sockUdpDeliver w dport d
  | .retain i => sockRetain w i
  | .close i => sockClose w i

/-- Before the first call. -/
def booted : World where
  socks _ := none
  refs _ := 0
  eph := sockUdpEphBase
  books _ := ⟨[], []⟩

def sockets : System World Act where
  start w := w = booted
  step w a w' := w' = perform w a

section

variable {w : World} {i : Fin 8} {s : Sock} {b : Book}

/-- No two open sockets have a port in common. -/
def Distinct (w : World) : Prop :=
  ∀ i j s t, w.socks i = some s → w.socks j = some t → s.localPort ≠ 0 →
    s.localPort = t.localPort → i = j

/-- The datagram a socket holds for the next receiver. -/
def pending (s : Sock) : List Datagram :=
  if s.rxLen = 0 then [] else [⟨s.rxBuf.take s.rxLen, s.rxFromIp, s.rxFromPort⟩]

/-- The whole payload, if there was room, and the sender. -/
def Got (d : Datagram) (r : Receipt) : Prop :=
  r.bytes = d.payload.take r.room ∧ r.ip = d.ip ∧ r.port = d.port

/-- Every accepted datagram was returned once, in order, or is held. -/
def Accounted (b : Book) (s : Sock) : Prop :=
  ∃ done, b.accepted = done ++ pending s ∧ List.Forall₂ Got done b.returned

/-- A socket that has a port is bound, and its buffer has its size. -/
structure Sound (s : Sock) : Prop where
  bound : s.localPort ≠ 0 → s.bound = true
  size : s.rxBuf.length = sockUdpRxMax
  short : s.rxLen ≤ sockUdpRxMax

structure Good (w : World) : Prop where
  distinct : Distinct w
  sound : ∀ i s, w.socks i = some s → Sound s
  books : ∀ i s, w.socks i = some s → Accounted (w.books i) s
  eph : w.eph ≠ 0

theorem put_here (w : World) (i : Fin 8) (s : Sock) (b : Book) : (w.put i s b).socks i = some s :=
  update_self ..

theorem put_other {j : Fin 8} (other : j ≠ i) : (w.put i s b).socks j = w.socks j :=
  update_of_ne other ..

/-- A sound socket that agrees with its book and shares no port. -/
theorem Good.put (good : Good w) (sound : Sound s) (accounted : Accounted b s)
    (own : ∀ j t, j ≠ i → w.socks j = some t → s.localPort ≠ 0 → t.localPort ≠ s.localPort) :
    Good (w.put i s b) := by
  refine ⟨?_, ?_, ?_, good.eph⟩
  · intro j k t u first second used same
    by_cases here : j = i <;> by_cases there : k = i
    · rw [here, there]
    · subst here
      rw [put_here] at first
      cases first
      rw [put_other there] at second
      exact absurd same.symm (own k u there second used)
    · subst there
      rw [put_here] at second
      cases second
      rw [put_other here] at first
      exact absurd same (own j t here first (same ▸ used))
    · rw [put_other here] at first
      rw [put_other there] at second
      exact good.distinct j k t u first second used same
  · intro j t held
    by_cases here : j = i
    · subst here
      rw [put_here] at held
      cases held
      exact sound
    · rw [put_other here] at held
      exact good.sound j t held
  · intro j t held
    by_cases here : j = i
    · subst here
      rw [put_here] at held
      cases held
      change Accounted (update w.books j b j) s
      rw [update_self]
      exact accounted
    · rw [put_other here] at held
      change Accounted (update w.books i b j) t
      rw [update_of_ne here]
      exact good.books j t held

/-- A socket that changes neither its port nor what it holds. -/
theorem Good.keep {s' : Sock} (good : Good w) (held : w.socks i = some s) (sound : Sound s')
    (port : s'.localPort = s.localPort) (accounted : Accounted b s') : Good (w.put i s' b) := by
  refine good.put sound accounted fun j t other there used same => ?_
  rw [port] at used same
  exact other (good.distinct i j s t held there used same.symm).symm

theorem accounted_of_pending {s' : Sock} (accounted : Accounted b s)
    (same : pending s' = pending s) : Accounted b s' := by
  obtain ⟨done, whole, got⟩ := accounted
  exact ⟨done, by rw [same]; exact whole, got⟩

variable {port : Nat}

/-- The next ephemeral port, where a call takes it, is no open socket's. -/
def Unclaimed (w : World) (i : Fin 8) : Prop :=
  ∀ s, w.socks i = some s → s.localPort = 0 → ∀ j t, w.socks j = some t → t.localPort ≠ w.eph

theorem nextEphemeral_ne_zero (eph : Nat) : nextEphemeral eph ≠ 0 := by
  unfold nextEphemeral
  split_ifs with low
  · decide
  · intro zero
    rw [zero] at low
    exact low (by decide)

theorem good_socket (good : Good w) : Good (sysSocket w) := by
  unfold sysSocket
  cases free : (finRange 8).find? fun i => (w.socks i).isNone with
  | none => exact good
  | some i =>
    have sound : Sound freshSock :=
      ⟨fun used => absurd rfl used, length_replicate .., Nat.zero_le _⟩
    have kept : Good (w.put i freshSock ⟨[], []⟩) :=
      good.put sound ⟨[], rfl, .nil⟩ fun _ _ _ _ used => absurd rfl used
    exact { kept with }

theorem good_ensureLocal (good : Good w) (unclaimed : Unclaimed w i) :
    Good (udpEnsureLocal w i) := by
  unfold udpEnsureLocal
  cases held : w.socks i with
  | none => exact good
  | some s =>
    dsimp only
    by_cases has : s.localPort ≠ 0
    · rw [if_pos has]
      exact good
    rw [if_neg has]
    have sound := good.sound i s held
    have kept : Good (w.put i { s with localPort := w.eph, bound := true } (w.books i)) := by
      refine good.put { sound with bound := fun _ => rfl }
        (accounted_of_pending (good.books i s held) rfl) fun j t _ there _ => ?_
      exact unclaimed s held (not_not.mp has) j t there
    exact { kept with eph := nextEphemeral_ne_zero _ }

theorem portInUse_false (free : portInUse w i port ≠ true) {j : Fin 8} {t : Sock} (other : j ≠ i)
    (there : w.socks j = some t) (bound : t.bound = true) : t.localPort ≠ port := by
  intro same
  refine free (any_eq_true.mpr ⟨j, mem_finRange j, ?_⟩)
  simp [other, there, bound, same]

theorem good_bind (good : Good w) (port : Nat) : Good (sysBind w i port).2 := by
  unfold sysBind
  cases held : w.socks i with
  | none => exact good
  | some s =>
    dsimp only
    by_cases taken : port ≠ 0 ∧ portInUse w i port = true
    · rw [if_pos taken]
      exact good
    rw [if_neg taken]
    have sound := good.sound i s held
    refine good.put { sound with bound := fun _ => rfl }
      (accounted_of_pending (good.books i s held) rfl) fun j t other there used => ?_
    -- a socket with no port is no conflict; one with a port is bound, so the search saw it
    by_cases bare : t.localPort = 0
    · rw [bare]
      exact used.symm
    · exact portInUse_false (fun found => taken ⟨used, found⟩) other there
        ((good.sound j t there).bound bare)

theorem good_connect {ip : Nat} (good : Good w) (unclaimed : Unclaimed w i) :
    Good (sysConnect w i ip port) := by
  unfold sysConnect
  cases held : w.socks i with
  | none => exact good
  | some s =>
    have sound := good.sound i s held
    refine good_ensureLocal (good.keep held { sound with } rfl
      (accounted_of_pending (good.books i s held) rfl)) fun s' there bare j t found => ?_
    rw [put_here] at there
    cases there
    by_cases here : j = i
    · subst here
      rw [put_here] at found
      cases found
      exact unclaimed s held bare j s held
    · rw [put_other here] at found
      exact unclaimed s held bare j t found

theorem good_send {ip : Nat} (good : Good w) (unclaimed : ip ≠ 0 → port ≠ 0 → Unclaimed w i) :
    Good (sockUdpSend w i ip port) := by
  unfold sockUdpSend
  by_cases nowhere : ip = 0 ∨ port = 0
  · rw [if_pos nowhere]
    exact good
  · rw [if_neg nowhere]
    rw [not_or] at nowhere
    exact good_ensureLocal good (unclaimed nowhere.1 nowhere.2)

theorem recv_got (s : Sock) (len : Nat) :
    Got ⟨s.rxBuf.take s.rxLen, s.rxFromIp, s.rxFromPort⟩
      ⟨len, s.rxBuf.take (if s.rxLen < len then s.rxLen else len), s.rxFromIp, s.rxFromPort⟩ := by
  refine ⟨?_, rfl, rfl⟩
  dsimp only
  rw [take_take]
  congr 1
  split_ifs <;> omega

theorem good_recv {len : Nat} (good : Good w) : Good (sysRecvfrom w i len) := by
  unfold sysRecvfrom
  cases held : w.socks i with
  | none => exact good
  | some s =>
    have sound := good.sound i s held
    dsimp only
    unfold sockUdpRecv
    by_cases empty : s.rxLen = 0
    · rw [if_pos empty]
      exact good.keep held sound rfl (good.books i s held)
    rw [if_neg empty]
    obtain ⟨done, whole, got⟩ := good.books i s held
    refine good.keep held { sound with short := Nat.zero_le _ } rfl ⟨done ++ pending s, ?_, ?_⟩
    · rw [whole]
      exact (append_nil _).symm
    refine rel_append got ?_
    unfold pending
    rw [if_neg empty]
    exact .cons (recv_got s len) .nil

theorem pending_fillRx {s : Sock} {d : Datagram} (fits : d.payload.length ≤ sockUdpRxMax)
    (some_ : d.payload ≠ []) : pending (fillRx s d) = [d] := by
  have all : (if d.payload.length < sockUdpRxMax then d.payload.length else sockUdpRxMax) =
      d.payload.length := by
    split_ifs <;> omega
  have length : d.payload.length ≠ 0 := fun zero => some_ (eq_nil_of_length_eq_zero zero)
  unfold pending fillRx
  dsimp only
  rw [all, if_neg length, take_length, take_left]

theorem sound_fillRx {s : Sock} (sound : Sound s) (d : Datagram) : Sound (fillRx s d) := by
  have size := sound.size
  refine ⟨sound.bound, ?_, ?_⟩
  · unfold fillRx
    dsimp only
    rw [length_append, length_take, length_drop]
    split_ifs <;> omega
  · unfold fillRx
    dsimp only
    split_ifs <;> omega

/-- The delivery of the input path is this one, for the part of a packet it is called with. -/
theorem input_sockUdpDeliver {net : Stack} {dport sport sip off plen : Nat} {p : List Byte}
    (same : net.socks = w.socks) (sized : ∀ i s, w.socks i = some s → s.rxBuf.length = sockUdpRxMax)
    (inside : off + plen ≤ p.length) :
    Input.sockUdpDeliver net dport sport sip p off plen =
      some ((receiver w.socks dport ⟨(p.drop off).take plen, sip, sport⟩).map fun _ =>
        { net with
          socks := (sockUdpDeliver w dport ⟨(p.drop off).take plen, sip, sport⟩).socks }) := by
  have unchanged : { net with socks := w.socks } = net := by rw [← same]
  unfold Input.sockUdpDeliver sockUdpDeliver
  rw [same]
  change (match receiver w.socks dport ⟨(p.drop off).take plen, sip, sport⟩ with
    | none => _
    | some i => _) = _
  cases found : receiver w.socks dport ⟨(p.drop off).take plen, sip, sport⟩ with
  | none => rfl
  | some i =>
    have takes := find?_some found
    obtain ⟨s, held⟩ : ∃ s, w.socks i = some s := by
      cases held : w.socks i with
      | none =>
        rw [held] at takes
        cases takes
      | some s => exact ⟨s, rfl⟩
    dsimp only
    rw [held]
    dsimp only [Option.map_some]
    by_cases full : s.rxLen ≠ 0
    · rw [if_pos full, if_pos full, unchanged]
    rw [if_neg full, if_neg full]
    have size := sized i s held
    have whole : ((p.drop off).take plen).length = plen := by
      rw [length_take, length_drop]
      omega
    have fill : (do
        let data ← readAt p off (if plen < sockUdpRxMax then plen else sockUdpRxMax)
        writeAt s.rxBuf 0 data) =
        some (fillRx s ⟨(p.drop off).take plen, sip, sport⟩).rxBuf := by
      unfold readAt
      rw [if_pos (by split_ifs <;> omega)]
      change writeAt s.rxBuf 0 _ = _
      unfold writeAt
      have cut : ((p.drop off).take (if plen < sockUdpRxMax then plen else sockUdpRxMax)).length =
          (if plen < sockUdpRxMax then plen else sockUdpRxMax) := by
        rw [length_take, length_drop]
        split_ifs <;> omega
      rw [if_pos (by rw [cut]; split_ifs <;> omega), cut]
      unfold fillRx
      dsimp only
      rw [whole, take_take]
      simp only [take_zero, nil_append, Nat.zero_add]
      congr 3
      split_ifs <;> omega
    obtain ⟨data, read, wrote⟩ := Option.bind_eq_some_iff.mp fill
    have filled : fillRx s ⟨(p.drop off).take plen, sip, sport⟩ = { s with
          rxBuf := (fillRx s ⟨(p.drop off).take plen, sip, sport⟩).rxBuf
          rxLen := if plen < sockUdpRxMax then plen else sockUdpRxMax
          rxFromIp := sip, rxFromPort := sport } := by
      unfold fillRx
      dsimp only
      rw [whole]
    have slot : ∀ b, (w.put i (fillRx s ⟨(p.drop off).take plen, sip, sport⟩) b).socks =
        update w.socks i (some (fillRx s ⟨(p.drop off).take plen, sip, sport⟩)) := fun _ => rfl
    rw [slot, filled]
    change (readAt p off _).bind _ = _
    rw [read, Option.bind_some]
    change (writeAt s.rxBuf 0 data).bind _ = _
    rw [wrote]
    rfl

def listening : World :=
  ⟨fun _ => some { freshSock with bound := true, localPort := 7 }, fun _ => 1, 0, fun _ => ⟨[], []⟩⟩

theorem byte_delivered :
    ∃ net, Input.sockUdpDeliver { Safety.boot [] with socks := listening.socks } 7 9 1 [5] 0 1 =
        some (some net) ∧ net.socks = (sockUdpDeliver listening 7 ⟨[5], 1, 9⟩).socks := by
  refine ⟨_, input_sockUdpDeliver (w := listening) rfl (fun i s held => ?_) (by decide), rfl⟩
  cases held
  exact length_replicate

theorem good_deliver {dport : Nat} {d : Datagram} (good : Good w)
    (fits : d.payload ≠ [] ∧ d.payload.length ≤ sockUdpRxMax) :
    Good (sockUdpDeliver w dport d) := by
  unfold sockUdpDeliver
  cases receiver w.socks dport d with
  | none => exact good
  | some i =>
    cases held : w.socks i with
    | none =>
      dsimp only
      rw [held]
      exact good
    | some s =>
      have sound := sound_fillRx (good.sound i s held) d
      obtain ⟨done, whole, got⟩ := good.books i s held
      dsimp only
      rw [held]
      dsimp only
      by_cases full : s.rxLen ≠ 0
      · rw [if_pos full]
        exact good
      rw [if_neg full]
      have nothing : pending s = [] := if_pos (not_not.mp full)
      refine good.keep held sound rfl ⟨done, ?_, got⟩
      rw [pending_fillRx fits.2 fits.1, whole, nothing, append_nil]

theorem good_close (good : Good w) : Good (sockClose w i) := by
  unfold sockClose
  by_cases shared : 1 < w.refs i
  · rw [if_pos shared]
    exact { good with }
  rw [if_neg shared]
  have old : ∀ j t, update w.socks i none j = some t → w.socks j = some t := by
    intro j t held
    rcases update_eq_cases held with ⟨-, ⟨⟩⟩ | ⟨here, held⟩
    exact held
  exact ⟨fun j k t u first second => good.distinct j k t u (old j t first) (old k u second),
    fun j t held => good.sound j t (old j t held), fun j t held => good.books j t (old j t held),
    good.eph⟩

end

section Contract

variable {w : World}

/-- The next ephemeral port is free when taken, and datagrams have bytes and fit. -/
def Fine (w : World) : Act → Prop
  | .connect i _ _ => Unclaimed w i
  | .recvBegin i => Unclaimed w i
  | .sendto i ip port => ip ≠ 0 → port ≠ 0 → Unclaimed w i
  | .send i => ∀ s, w.socks i = some s → s.peerIp ≠ 0 → s.peerPort ≠ 0 → Unclaimed w i
  | .deliver _ d => d.payload ≠ [] ∧ d.payload.length ≤ sockUdpRxMax
  | _ => True

theorem good_step {a : Act} (good : Good w) (fine : Fine w a) : Good (perform w a) := by
  cases a with
  | socket => exact good_socket good
  | bind i port => exact good_bind good port
  | connect i ip port => exact good_connect good fine
  | sendto i ip port => exact good_send good fine
  | send i =>
    change Good (sysSend w i)
    unfold sysSend
    cases held : w.socks i with
    | none => exact good
    | some s => exact good_send good (fine s held)
  | recvBegin i => exact good_ensureLocal good fine
  | recvEnd i len => exact good_recv good
  | deliver dport d => exact good_deliver good fine
  | retain i => exact { good with }
  | close i => exact good_close good

theorem good_booted : Good booted where
  distinct := by
    intro i j s t held
    cases held
  sound := by
    intro i s held
    cases held
  books := by
    intro i s held
    cases held
  eph := by decide

/-- Where implicit bindings find a port and datagrams have bytes and fit the buffer, open sockets
have different ports, and what a socket accepted its receivers got, once, in order and with the
senders, or it holds. -/
theorem ports_and_datagrams_kept (run : Reachable sockets Fine w) :
    Distinct w ∧ ∀ i s, w.socks i = some s → Accounted (w.books i) s := by
  have good : Good w := by
    apply run.invariant
    · rintro w rfl
      exact good_booted
    · rintro w a w' good fine rfl
      exact good_step good fine
  exact ⟨good.distinct, good.books⟩

/-- A datagram for a bound socket is received. -/
theorem ports_and_datagrams_kept_echo : ∃ w s, Reachable sockets Fine w ∧ w.socks 0 = some s ∧
    (w.books 0).returned = [⟨16, [1, 2], 5, 6⟩] ∧ Accounted (w.books 0) s := by
  have run : Reachable sockets Fine ([.socket, .bind 0 7000, .deliver 7000 ⟨[1, 2], 5, 6⟩,
      .recvEnd 0 16].foldl perform booted) :=
    Reachable.follow (fun _ _ => rfl) _ (.start rfl) ⟨trivial, trivial,
      ⟨cons_ne_nil _ _, Nat.le_of_ble_eq_true rfl⟩, trivial, trivial⟩
  exact ⟨_, _, run, rfl, rfl, (ports_and_datagrams_kept run).2 0 _ rfl⟩

set_option maxRecDepth 4000 in
/-- Two sockets on one port; of 513 bytes the last is not seen, and no bytes leave nothing. -/
theorem ephemeral_port_shared :
    (∃ w s t, Reachable sockets (fun _ _ => True) w ∧ w.socks 0 = some s ∧ w.socks 1 = some t ∧
      s.localPort = 42000 ∧ t.localPort = 42000) ∧
    ∃ w s, Reachable sockets (fun _ _ => True) w ∧ w.socks 0 = some s ∧
      (w.books 0).accepted = [⟨[], 5, 6⟩, ⟨List.replicate 513 0, 5, 6⟩] ∧ s.rxLen = 512 := by
  have reach : ∀ acts : List Act, Reachable sockets (fun _ _ => True) (acts.foldl perform booted) :=
    fun acts => Reachable.follow (fun _ _ => rfl) acts (.start rfl) (along_true perform booted acts)
  constructor
  · exact ⟨_, _, _, reach [.socket, .socket, .bind 0 42000, .sendto 1 5 6], rfl, rfl, rfl, rfl⟩
  · exact ⟨_, _, reach [.socket, .bind 0 7000, .deliver 7000 ⟨[], 5, 6⟩,
      .deliver 7000 ⟨List.replicate 513 0, 5, 6⟩], rfl, rfl, rfl⟩

end Contract

end IcsOs.Net.UdpSockets
