/- GID: IcsOs/Net/Buffers
   generality: I
   source: kernel/net/pbuf.c, kernel/net/ethernet.c,
     kernel/net/arp.c, kernel/net/ipv4.c, kernel/net/icmp.c, kernel/net/udp.c,
     kernel/net/tcp.c, kernel/net/netif.c, kernel/net/dhcp.c
   digest: Packet buffers in the hands of the calls of the network stack. -/

import Mathlib.Algebra.Order.Group.Multiset
import Mathlib.Data.Fintype.Basic
import Mathlib.Tactic.Abel
import IcsOs.Lib.Runs

set_option autoImplicit false

namespace IcsOs.Net.Buffers

open Multiset
open Lib.Runs

def pbufSize : Nat := 1514

/-- A buffer of the pool, by its place in it. -/
abbrev Id := Fin 32

structure Pool where
  free : List Id
  ref : Id → Nat
  len : Id → Nat

def pbufPoolInit : Pool where
  free := (List.finRange 32).reverse
  ref _ := 0
  len _ := 0

def pbufAlloc (pool : Pool) (len : Nat) : Option (Id × Pool) :=
  if pbufSize < len then none
  else
    match pool.free with
    | [] => none
    | p :: rest =>
      some (p, {
        free := rest
        ref := Function.update pool.ref p 1
        len := Function.update pool.len p len })

def pbufFree (pool : Pool) (p : Id) : Pool :=
  if 1 < pool.ref p then { pool with ref := Function.update pool.ref p (pool.ref p - 1) }
  else {
    free := p :: pool.free
    ref := Function.update pool.ref p 0
    len := Function.update pool.len p 0 }

/-- A call with its buffer; one that waits reads the result on top again. -/
inductive Call
  | ethernetInput (p : Id)
  | arpInput (p : Id)
  | arpReplied (p : Id)
  | ipv4Input (p : Id)
  | icmpInput (p : Id) (ihl : Nat)
  | icmpResolve (p : Id)
  | udpInput (p : Id) (ihl : Nat)
  | udpEcho (p : Id)
  | tcpInput (p : Id) (ihl : Nat)
  | tcpHandle (p : Id)
  | udpSend (len : Nat)
  | tcpOutput (len : Nat)
  | ipv4Output (p : Id)
  | ipv4Resolve (pkt : Id)
  | arpResolve
  | arpRequest
  | arpWait
  | ethernetOutput (p : Id)

/-- The pool, the driver's frames, the interface, and the calls, innermost first, with the last
result. -/
structure World where
  pool : Pool
  driver : List Id
  configured : Bool
  linkUp : Bool
  stack : List Call
  ret : Bool

inductive Protocol
  | arp
  | ipv4
  | icmp
  | udp
  | tcp
  | other

/-- Types, checks and lengths, whether an answer is asked for, the next segment, and whether a
look-up or a transmission succeeds. -/
structure Contents where
  protocol : Protocol
  valid : Bool
  asks : Bool
  ihl : Nat
  length : Nat
  output : Option Nat
  ok : Bool

def World.release (w : World) (p : Id) : World := { w with pool := pbufFree w.pool p }

/-- A call gives way to another, or to none. -/
def World.become (w : World) (stack : List Call) : World := { w with stack := stack }

def World.answer (w : World) (rest : List Call) (ok : Bool) : World :=
  { w with stack := rest, ret := ok }

def ethernetInput (w : World) (rest : List Call) (c : Contents) (p : Id) : World :=
  if w.pool.len p < 14 then (w.release p).become rest
  else
    match pbufAlloc w.pool (w.pool.len p - 14) with
    | none => (w.release p).become rest
    | some (payload, pool) =>
      let w' := { w with pool := pool }.release p
      match c.protocol with
      | .arp => w'.become (.arpInput payload :: rest)
      | .ipv4 => w'.become (.ipv4Input payload :: rest)
      | _ => (w'.release payload).become rest

def arpInput (w : World) (rest : List Call) (c : Contents) (p : Id) : World :=
  if w.pool.len p < 28 ∨ c.valid = false then (w.release p).become rest
  else if c.asks = true ∧ w.configured = true then
    match pbufAlloc w.pool 28 with
    | none => (w.release p).become rest
    | some (reply, pool) =>
      { w with pool := pool }.become (.ethernetOutput reply :: .arpReplied p :: rest)
  else (w.release p).become rest

def ipv4Input (w : World) (rest : List Call) (c : Contents) (p : Id) : World :=
  if w.pool.len p < 20 ∨ c.ihl < 20 ∨ w.pool.len p < c.ihl ∨ c.valid = false then
    (w.release p).become rest
  else
    let w' :=
      if c.length < c.ihl ∨ w.pool.len p < c.length then w
      else { w with pool := { w.pool with len := Function.update w.pool.len p c.length } }
    match c.protocol with
    | .icmp => w'.become (.icmpInput p c.ihl :: rest)
    | .udp => w'.become (.udpInput p c.ihl :: rest)
    | .tcp => w'.become (.tcpInput p c.ihl :: rest)
    | _ => (w'.release p).become rest

def icmpInput (w : World) (rest : List Call) (c : Contents) (p : Id) (ihl : Nat) : World :=
  if w.pool.len p < ihl + 8 then (w.release p).become rest
  else if c.asks = true ∧ w.configured = true then
    if c.valid then w.become (.arpResolve :: .icmpResolve p :: rest)
    else (w.release p).become rest
  else (w.release p).become rest

/-- `icmp_input` after `arp_resolve`. -/
def icmpResolve (w : World) (rest : List Call) (p : Id) : World :=
  if w.ret then w.become (.ethernetOutput p :: rest) else (w.release p).become rest

/-- `asks`: the datagram is for the echo port. -/
def udpInput (w : World) (rest : List Call) (c : Contents) (p : Id) (ihl : Nat) : World :=
  if w.pool.len p < ihl + 8 ∨ c.length < 8 ∨ w.pool.len p < ihl + c.length then
    (w.release p).become rest
  else if c.asks = true ∧ w.configured = true then
    w.become (.udpSend (c.length - 8) :: .udpEcho p :: rest)
  else (w.release p).become rest

def tcpInput (w : World) (rest : List Call) (c : Contents) (p : Id) (ihl : Nat) : World :=
  if w.pool.len p < ihl + 20 ∨ c.length < 20 ∨ w.pool.len p < ihl + c.length then
    (w.release p).become rest
  else w.become (.tcpHandle p :: rest)

/-- Segments are sent, also for no connection; then `tcp_input` goes on. -/
def tcpHandle (w : World) (rest : List Call) (c : Contents) (p : Id) : World :=
  match c.output with
  | some len => w.become (.tcpOutput len :: .tcpHandle p :: rest)
  | none => (w.release p).become rest

def udpSend (w : World) (rest : List Call) (len : Nat) : World :=
  if w.configured = false ∨ pbufSize < (8 + len) % 2 ^ 32 then w.answer rest false
  else
    match pbufAlloc w.pool ((8 + len) % 2 ^ 32) with
    | none => w.answer rest false
    | some (p, pool) => { w with pool := pool }.become (.ipv4Output p :: rest)

/-- Also `tcp_rexmit_una`; `valid`: the block has an interface, `asks`: the next data is dropped. -/
def tcpOutput (w : World) (rest : List Call) (c : Contents) (len : Nat) : World :=
  if c.valid = false ∨ pbufSize < (20 + len) % 2 ^ 32 then w.answer rest false
  else
    match pbufAlloc w.pool ((20 + len) % 2 ^ 32) with
    | none => w.answer rest false
    | some (p, pool) =>
      let w' := { w with pool := pool }
      if len ≠ 0 ∧ c.asks = true then (w'.release p).answer rest true
      else w'.become (.ipv4Output p :: rest)

def ipv4Output (w : World) (rest : List Call) (payload : Id) : World :=
  if w.configured = false then w.answer rest false
  else if pbufSize < 20 + w.pool.len payload then w.answer rest false
  else
    match pbufAlloc w.pool (20 + w.pool.len payload) with
    | none => w.answer rest false
    | some (pkt, pool) =>
      ({ w with pool := pool }.release payload).become (.arpResolve :: .ipv4Resolve pkt :: rest)

/-- `ipv4_output` after `arp_resolve`. -/
def ipv4Resolve (w : World) (rest : List Call) (pkt : Id) : World :=
  if w.ret then w.become (.ethernetOutput pkt :: rest) else (w.release pkt).answer rest false

/-- `arp_resolve` up to its request. -/
def arpResolve (w : World) (rest : List Call) (c : Contents) : World :=
  if c.ok then w.answer rest true
  else
    match pbufAlloc w.pool 28 with
    | none => w.answer rest false
    | some (req, pool) =>
      { w with pool := pool }.become (.ethernetOutput req :: .arpRequest :: rest)

def arpRequest (w : World) (rest : List Call) : World :=
  if w.ret then w.become (.arpWait :: rest) else w.answer rest false

/-- The end of `arp_resolve`; its polls are steps of the driver. -/
def arpWait (w : World) (rest : List Call) (c : Contents) : World := w.answer rest c.ok

/-- With `netif_output`; the driver copies the frame. -/
def ethernetOutput (w : World) (rest : List Call) (c : Contents) (p : Id) : World :=
  if pbufSize < w.pool.len p + 14 then (w.release p).answer rest false
  else
    match pbufAlloc w.pool (w.pool.len p + 14) with
    | none => (w.release p).answer rest false
    | some (frame, pool) =>
      let w' := { w with pool := pool }.release p
      (w'.release frame).answer rest (w.linkUp && c.ok)

/-- The innermost call goes on. -/
def resume (w : World) (c : Contents) : Call → List Call → World
  | .ethernetInput p, rest => ethernetInput w rest c p
  | .arpInput p, rest => arpInput w rest c p
  | .arpReplied p, rest => (w.release p).become rest
  | .ipv4Input p, rest => ipv4Input w rest c p
  | .icmpInput p ihl, rest => icmpInput w rest c p ihl
  | .icmpResolve p, rest => icmpResolve w rest p
  | .udpInput p ihl, rest => udpInput w rest c p ihl
  | .udpEcho p, rest => (w.release p).become rest
  | .tcpInput p ihl, rest => tcpInput w rest c p ihl
  | .tcpHandle p, rest => tcpHandle w rest c p
  | .udpSend len, rest => udpSend w rest len
  | .tcpOutput len, rest => tcpOutput w rest c len
  | .ipv4Output p, rest => ipv4Output w rest p
  | .ipv4Resolve pkt, rest => ipv4Resolve w rest pkt
  | .arpResolve, rest => arpResolve w rest c
  | .arpRequest, rest => arpRequest w rest
  | .arpWait, rest => arpWait w rest c
  | .ethernetOutput p, rest => ethernetOutput w rest c p

/-- The driver is polled by `arp_resolve` and outside of all calls. -/
def polls : List Call → Bool
  | [] | .arpWait :: _ => true
  | _ => false

/-- `icmp_ping`, `dns_resolve` and `dhcp_xmit_unicast` up to `ipv4_output`. -/
def ipv4Send (w : World) (len : Nat) : World :=
  match pbufAlloc w.pool len with
  | none => w
  | some (p, pool) => { w with pool := pool }.become [.ipv4Output p]

def dhcpXmit (w : World) (len : Nat) : World :=
  match pbufAlloc w.pool (8 + len) with
  | none => w
  | some (udp, pool) =>
    let w' := { w with pool := pool }
    match pbufAlloc pool (20 + pool.len udp) with
    | none => w'.release udp
    | some (pkt, pool') => ({ w' with pool := pool' }.release udp).become [.ethernetOutput pkt]

/-- The driver takes a frame from the device. -/
def receive (w : World) (len : Nat) : World :=
  match pbufAlloc w.pool len with
  | none => w
  | some (p, pool) => { w with pool := pool, driver := p :: w.driver }

inductive Act
  | receive (len : Nat)
  | deliver (p : Id)
  | udpSend (len : Nat)
  | tcpOutput (len : Nat)
  | ipv4Send (len : Nat)
  | dhcpXmit (len : Nat)
  | configure (configured linkUp : Bool)
  | go (c : Contents)

def perform (w : World) : Act → Option World
  | .receive len => some (receive w len)
  | .deliver p =>
    if polls w.stack = true ∧ p ∈ w.driver then
      some ({ w with driver := w.driver.erase p }.become (.ethernetInput p :: w.stack))
    else none
  | .udpSend len => if w.stack.isEmpty then some (w.become [.udpSend len]) else none
  | .tcpOutput len => if w.stack.isEmpty then some (w.become [.tcpOutput len]) else none
  | .ipv4Send len => if w.stack.isEmpty then some (ipv4Send w len) else none
  | .dhcpXmit len => if w.stack.isEmpty then some (dhcpXmit w len) else none
  | .configure configured linkUp => some { w with configured := configured, linkUp := linkUp }
  | .go c =>
    match w.stack with
    | [] => none
    | call :: rest => some (resume w c call rest)

/-- After `pbuf_pool_init`, before the interface has an address. -/
def booted : World where
  pool := pbufPoolInit
  driver := []
  configured := false
  linkUp := false
  stack := []
  ret := false

def network : System World Act where
  start w := w = booted
  step w a w' := perform w a = some w'

variable {len : Nat}

section Books

def Call.holds : Call → Multiset Id
  | .ethernetInput p | .arpInput p | .arpReplied p | .ipv4Input p | .icmpInput p _
  | .icmpResolve p | .udpInput p _ | .udpEcho p | .tcpInput p _ | .tcpHandle p | .ipv4Output p
  | .ipv4Resolve p | .ethernetOutput p => {p}
  | .udpSend _ | .tcpOutput _ | .arpResolve | .arpRequest | .arpWait => 0

def held : List Call → Multiset Id
  | [] => 0
  | call :: rest => call.holds + held rest

/-- All buffers: free, with the driver, or in the hands of a call. -/
def tally (w : World) : Multiset Id := (w.pool.free : Multiset Id) + w.driver + held w.stack

/-- Every buffer is in one place, with at most one reference. -/
structure Kept (w : World) : Prop where
  refs : ∀ p, w.pool.ref p ≤ 1
  all : tally w = (Finset.univ : Finset Id).val

def stock (w : World) : Multiset Id := (w.pool.free : Multiset Id) + w.driver

/-- Buffers owed in the first world are in place in the second. -/
def Settles (w : World) (owed : Multiset Id) (w' : World) : Prop :=
  (∀ p, w.pool.ref p ≤ 1) → (∀ p, w'.pool.ref p ≤ 1) ∧ tally w' = stock w + owed

variable {w w' : World} {owed : Multiset Id} {p : Id} {pool : Pool} {stack : List Call}

theorem pbufFree_ref (single : ∀ p, pool.ref p ≤ 1) (p : Id) :
    (pbufFree pool p).free = p :: pool.free ∧ ∀ q, (pbufFree pool p).ref q ≤ 1 := by
  unfold pbufFree
  rw [if_neg (by have := single p; omega)]
  refine ⟨rfl, fun q => ?_⟩
  by_cases here : q = p
  · rw [here]
    dsimp only
    rw [Function.update_self]
    exact Nat.zero_le 1
  · dsimp only
    rw [Function.update_of_ne here]
    exact single q

theorem pbufAlloc_ref {pool' : Pool} (single : ∀ p, pool.ref p ≤ 1)
    (got : pbufAlloc pool len = some (p, pool')) :
    pool.free = p :: pool'.free ∧ pool'.len p = len ∧ ∀ q, pool'.ref q ≤ 1 := by
  unfold pbufAlloc at got
  split_ifs at got
  cases free : pool.free with
  | nil =>
    rw [free] at got
    cases got
  | cons q rest =>
    rw [free] at got
    cases got
    refine ⟨rfl, Function.update_self .., fun q => ?_⟩
    by_cases here : q = p
    · rw [here]
      dsimp only
      rw [Function.update_self]
    · dsimp only
      rw [Function.update_of_ne here]
      exact single q

theorem Settles.become (same : held stack = owed) : Settles w owed (w.become stack) := by
  intro single
  refine ⟨single, ?_⟩
  rw [← same]
  rfl

theorem Settles.answer {ok : Bool} (same : held stack = owed) :
    Settles w owed (w.answer stack ok) := by
  intro single
  refine ⟨single, ?_⟩
  rw [← same]
  rfl

theorem Settles.release {rest : Multiset Id} (split : owed = {p} + rest)
    (later : Settles (w.release p) rest w') : Settles w owed w' := by
  intro single
  obtain ⟨free, refs⟩ := pbufFree_ref single p
  obtain ⟨single', balance⟩ := later refs
  refine ⟨single', ?_⟩
  rw [balance, split]
  unfold stock
  dsimp only [World.release]
  rw [free, ← cons_coe, ← singleton_add]
  abel

theorem Settles.alloc (got : pbufAlloc w.pool len = some (p, pool))
    (later : Settles { w with pool := pool } ({p} + owed) w') : Settles w owed w' := by
  intro single
  obtain ⟨free, -, refs⟩ := pbufAlloc_ref single got
  obtain ⟨single', balance⟩ := later refs
  refine ⟨single', ?_⟩
  rw [balance]
  unfold stock
  rw [free, ← cons_coe, ← singleton_add]
  abel

theorem Settles.stay (same : held w.stack = owed) : Settles w owed w := by
  intro single
  refine ⟨single, ?_⟩
  rw [← same]
  rfl

theorem Settles.done (split : owed = {p} + held stack) :
    Settles w owed ((w.release p).become stack) := .release split (.become rfl)

theorem Settles.fails {ok : Bool} (split : owed = {p} + held stack) :
    Settles w owed ((w.release p).answer stack ok) := .release split (.answer rfl)

end Books

section Steps

variable {w : World} {rest : List Call} {c : Contents} {p : Id} {ihl : Nat}

theorem ethernetInput_settles : Settles w ({p} + held rest) (ethernetInput w rest c p) := by
  unfold ethernetInput
  split_ifs
  · exact .done rfl
  cases got : pbufAlloc w.pool (w.pool.len p - 14) with
  | none => exact .done rfl
  | some found =>
    obtain ⟨payload, pool⟩ := found
    refine .alloc got (.release (add_left_comm ..) ?_)
    cases c.protocol with
    | arp => exact .become rfl
    | ipv4 => exact .become rfl
    | _ => exact .done rfl

theorem arpInput_settles : Settles w ({p} + held rest) (arpInput w rest c p) := by
  unfold arpInput
  split_ifs
  · exact .done rfl
  · cases got : pbufAlloc w.pool 28 with
    | none => exact .done rfl
    | some found => exact .alloc got (.become rfl)
  · exact .done rfl

theorem ipv4Input_settles : Settles w ({p} + held rest) (ipv4Input w rest c p) := by
  unfold ipv4Input
  split_ifs with bad long
  · exact .done rfl
  · cases c.protocol with
    | icmp => exact .become rfl
    | udp => exact .become rfl
    | tcp => exact .become rfl
    | _ => exact .done rfl
  · -- the buffer is cut to the datagram; the books do not know lengths
    have cut : ∀ {w' : World}, Settles { w with pool := { w.pool with
        len := Function.update w.pool.len p c.length } } ({p} + held rest) w' →
        Settles w ({p} + held rest) w' := id
    apply cut
    cases c.protocol with
    | icmp => exact .become rfl
    | udp => exact .become rfl
    | tcp => exact .become rfl
    | _ => exact .done rfl

theorem icmpInput_settles : Settles w ({p} + held rest) (icmpInput w rest c p ihl) := by
  unfold icmpInput
  split_ifs
  · exact .done rfl
  · exact .become (zero_add _)
  · exact .done rfl
  · exact .done rfl

theorem icmpResolve_settles : Settles w ({p} + held rest) (icmpResolve w rest p) := by
  unfold icmpResolve
  split_ifs
  · exact .become rfl
  · exact .done rfl

theorem udpInput_settles : Settles w ({p} + held rest) (udpInput w rest c p ihl) := by
  unfold udpInput
  split_ifs
  · exact .done rfl
  · exact .become (zero_add _)
  · exact .done rfl

theorem tcpInput_settles : Settles w ({p} + held rest) (tcpInput w rest c p ihl) := by
  unfold tcpInput
  split_ifs
  · exact .done rfl
  · exact .become rfl

theorem tcpHandle_settles : Settles w ({p} + held rest) (tcpHandle w rest c p) := by
  unfold tcpHandle
  cases c.output with
  | some len => exact .become (zero_add _)
  | none => exact .done rfl

theorem udpSend_settles : Settles w (held rest) (udpSend w rest len) := by
  unfold udpSend
  split_ifs
  · exact .answer rfl
  · cases got : pbufAlloc w.pool ((8 + len) % 2 ^ 32) with
    | none => exact .answer rfl
    | some found => exact .alloc got (.become rfl)

theorem tcpOutput_settles : Settles w (held rest) (tcpOutput w rest c len) := by
  unfold tcpOutput
  split_ifs
  · exact .answer rfl
  · cases got : pbufAlloc w.pool ((20 + len) % 2 ^ 32) with
    | none => exact .answer rfl
    | some found => exact .alloc got (.fails rfl)
  · cases got : pbufAlloc w.pool ((20 + len) % 2 ^ 32) with
    | none => exact .answer rfl
    | some found => exact .alloc got (.become rfl)

/-- With an address, a payload that leaves room for the header and a buffer in the pool, the payload
is freed. -/
theorem ipv4Output_settles (configured : w.configured = true)
    (fits : 20 + w.pool.len p ≤ pbufSize) (some_ : w.pool.free ≠ []) :
    Settles w ({p} + held rest) (ipv4Output w rest p) := by
  unfold ipv4Output
  rw [if_neg (by rw [configured]; decide), if_neg (by omega)]
  cases got : pbufAlloc w.pool (20 + w.pool.len p) with
  | none =>
    unfold pbufAlloc at got
    rw [if_neg (by omega)] at got
    cases free : w.pool.free with
    | nil => exact absurd free some_
    | cons q later =>
      rw [free] at got
      cases got
  | some found =>
    refine .alloc got (.release (add_left_comm ..) (.become ?_))
    exact zero_add _

theorem ipv4Resolve_settles : Settles w ({p} + held rest) (ipv4Resolve w rest p) := by
  unfold ipv4Resolve
  split_ifs
  · exact .become rfl
  · exact .fails rfl

theorem arpResolve_settles : Settles w (held rest) (arpResolve w rest c) := by
  unfold arpResolve
  split_ifs
  · exact .answer rfl
  · cases got : pbufAlloc w.pool 28 with
    | none => exact .answer rfl
    | some found => exact .alloc got (.become (congrArg ({found.1} + ·) (zero_add _)))

theorem arpRequest_settles : Settles w (held rest) (arpRequest w rest) := by
  unfold arpRequest
  split_ifs
  · exact .become (zero_add _)
  · exact .answer rfl

theorem ethernetOutput_settles : Settles w ({p} + held rest) (ethernetOutput w rest c p) := by
  unfold ethernetOutput
  split_ifs
  · exact .fails rfl
  · cases got : pbufAlloc w.pool (w.pool.len p + 14) with
    | none => exact .fails rfl
    | some found => exact .alloc got (.release (add_left_comm ..) (.fails rfl))

/-- Sent from a configured interface, with room for the header, while the pool has a buffer. -/
def Provided (w : World) : Act → Prop
  | .go _ => ∀ p rest, w.stack = .ipv4Output p :: rest →
      w.configured = true ∧ 20 + w.pool.len p ≤ pbufSize ∧ w.pool.free ≠ []
  | _ => True

theorem resume_settles {call : Call}
    (provided : ∀ p, call = .ipv4Output p →
      w.configured = true ∧ 20 + w.pool.len p ≤ pbufSize ∧ w.pool.free ≠ []) :
    Settles w (held (call :: rest)) (resume w c call rest) := by
  cases call with
  | ethernetInput p => exact ethernetInput_settles
  | arpInput p => exact arpInput_settles
  | arpReplied p => exact .done rfl
  | ipv4Input p => exact ipv4Input_settles
  | icmpInput p ihl => exact icmpInput_settles
  | icmpResolve p => exact icmpResolve_settles
  | udpInput p ihl => exact udpInput_settles
  | udpEcho p => exact .done rfl
  | tcpInput p ihl => exact tcpInput_settles
  | tcpHandle p => exact tcpHandle_settles
  | udpSend len =>
    change Settles w (0 + held rest) _
    rw [zero_add]
    exact udpSend_settles
  | tcpOutput len =>
    change Settles w (0 + held rest) _
    rw [zero_add]
    exact tcpOutput_settles
  | ipv4Output p =>
    obtain ⟨configured, fits, some_⟩ := provided p rfl
    exact ipv4Output_settles configured fits some_
  | ipv4Resolve p => exact ipv4Resolve_settles
  | arpResolve =>
    change Settles w (0 + held rest) _
    rw [zero_add]
    exact arpResolve_settles
  | arpRequest =>
    change Settles w (0 + held rest) _
    rw [zero_add]
    exact arpRequest_settles
  | arpWait => exact .answer (zero_add _).symm
  | ethernetOutput p => exact ethernetOutput_settles

theorem ipv4Send_settles (empty : w.stack = []) : Settles w 0 (ipv4Send w len) := by
  unfold ipv4Send
  cases got : pbufAlloc w.pool len with
  | none => exact .stay (by rw [empty]; rfl)
  | some found => exact .alloc got (.become rfl)

theorem dhcpXmit_settles (empty : w.stack = []) : Settles w 0 (dhcpXmit w len) := by
  unfold dhcpXmit
  cases got : pbufAlloc w.pool (8 + len) with
  | none => exact .stay (by rw [empty]; rfl)
  | some found =>
    refine .alloc got ?_
    dsimp only
    cases more : pbufAlloc found.2 (20 + found.2.len found.1) with
    | none => exact .release rfl (.stay (by dsimp only [World.release]; rw [empty]; rfl))
    | some packet => exact .alloc more (.release (add_left_comm ..) (.become rfl))

theorem receive_settles : Settles w (held w.stack) (receive w len) := by
  unfold receive
  cases got : pbufAlloc w.pool len with
  | none => exact .stay rfl
  | some found =>
    refine .alloc got fun single => ⟨single, ?_⟩
    unfold tally stock
    rw [← cons_coe, ← singleton_add]
    abel

theorem Kept.settle {w' : World} (kept : Kept w) (settles : Settles w (held w.stack) w') :
    Kept w' := by
  obtain ⟨refs, same⟩ := settles kept.refs
  exact ⟨refs, same.trans kept.all⟩

theorem kept_step {w w' : World} {a : Act} (kept : Kept w) (provided : Provided w a)
    (taken : network.step w a w') : Kept w' := by
  have alone : w.stack.isEmpty = true → w.stack = [] := List.isEmpty_iff.mp
  cases a with
  | receive len =>
    cases taken
    exact kept.settle receive_settles
  | deliver p =>
    change (if polls w.stack = true ∧ p ∈ w.driver then _ else none) = some w' at taken
    split_ifs at taken with polled
    cases taken
    refine kept.settle fun single => ⟨single, ?_⟩
    unfold tally stock
    change (w.pool.free : Multiset Id) + (w.driver.erase p : List Id) + ({p} + held w.stack) = _
    have driver : (w.driver : Multiset Id) = {p} + (w.driver.erase p : List Id) := by
      rw [singleton_add, cons_coe, coe_eq_coe]
      exact List.perm_cons_erase polled.2
    rw [driver]
    abel
  | udpSend len | tcpOutput len =>
    change (if w.stack.isEmpty then _ else none) = some w' at taken
    split_ifs at taken with empty
    cases taken
    refine kept.settle (.become ?_)
    rw [alone empty]
    rfl
  | ipv4Send len =>
    change (if w.stack.isEmpty then _ else none) = some w' at taken
    split_ifs at taken with empty
    cases taken
    refine kept.settle ?_
    rw [alone empty]
    exact ipv4Send_settles (alone empty)
  | dhcpXmit len =>
    change (if w.stack.isEmpty then _ else none) = some w' at taken
    split_ifs at taken with empty
    cases taken
    refine kept.settle ?_
    rw [alone empty]
    exact dhcpXmit_settles (alone empty)
  | configure configured linkUp =>
    cases taken
    exact ⟨kept.refs, kept.all⟩
  | go c =>
    change (match w.stack with
      | [] => none
      | call :: rest => some (resume w c call rest)) = some w' at taken
    cases calls : w.stack with
    | nil =>
      rw [calls] at taken
      cases taken
    | cons call rest =>
      rw [calls] at taken
      cases taken
      refine kept.settle ?_
      rw [calls]
      refine resume_settles fun p top => provided p rest ?_
      rw [calls, top]

end Steps

theorem kept_booted : Kept booted := by
  refine ⟨fun _ => Nat.zero_le 1, ?_⟩
  change ((List.finRange 32).reverse : Multiset Id) + 0 + 0 = _
  rw [add_zero, add_zero, coe_reverse]
  rfl

/-- Where IPv4 packets are sent from a configured interface, with room for the header and a buffer
left: every buffer is free, with the driver or one call's, and between calls none is missing. -/
theorem buffers_conserved {w : World} (run : Reachable network Provided w) :
    tally w = (Finset.univ : Finset Id).val ∧ w.pool.free.Nodup ∧
      (w.stack = [] → w.pool.free.length + w.driver.length = 32) := by
  have kept : Kept w := by
    refine run.invariant ?_ fun w a w' kept provided taken => kept_step kept provided taken
    rintro w rfl
    exact kept_booted
  refine ⟨kept.all, ?_, fun empty => ?_⟩
  · have all := (Finset.univ : Finset Id).nodup
    rw [← kept.all] at all
    unfold tally at all
    rw [add_assoc] at all
    exact Multiset.coe_nodup.mp (Multiset.nodup_of_le (Multiset.le_add_right _ _) all)
  · have count := congrArg Multiset.card kept.all
    unfold tally at count
    rw [empty, Multiset.card_add, Multiset.card_add, Multiset.coe_card, Multiset.coe_card] at count
    exact count

def plain : Contents := ⟨.other, true, false, 20, 0, none, true⟩

/-- A datagram of 8 bytes goes out, and the pool is full again. -/
theorem buffers_conserved_datagram : ∃ w, Reachable network Provided w ∧ w.stack = [] ∧
    w.ret = true ∧ w.pool.free.length + w.driver.length = 32 := by
  have run : Reachable network Provided booted := .start rfl
  have run := Reachable.step (a := Act.configure true true) run trivial rfl
  have run := Reachable.step (a := Act.udpSend 8) run trivial rfl
  have run := Reachable.step (a := Act.go plain) run nofun rfl
  have run := Reachable.step (a := Act.go plain) run
    (fun p rest top => by cases top; exact ⟨rfl, by decide, by decide⟩) rfl
  have run := Reachable.step (a := Act.go plain) run nofun rfl
  have run := Reachable.step (a := Act.go plain) run nofun rfl
  have run := Reachable.step (a := Act.go plain) run nofun rfl
  exact ⟨_, run, rfl, rfl, (buffers_conserved run).2.2 rfl⟩

/-- 1490 bytes fit a buffer, but not with the IPv4 header: the buffer is lost. -/
theorem long_datagram_loses_buffer : ∃ w, Reachable network (fun _ _ => True) w ∧ w.stack = [] ∧
    w.ret = false ∧ w.pool.free.length + w.driver.length = 31 := by
  have run : Reachable network (fun _ _ => True) _ :=
    Reachable.attempt (fun _ _ _ => id) [.configure true true, .udpSend 1490, .go plain, .go plain]
      (.start rfl) rfl
  exact ⟨_, run, rfl, rfl, rfl⟩

end IcsOs.Net.Buffers
