/- GID: IcsOs/Net/SockLifetimes
   generality: I
   source: kernel/net/sock.c, kernel/net/tcp.c,
     kernel/vfs/posixfd.c, kernel/process/process.c,
     kernel/process/scheduler.c
   digest: Sockets and connection blocks of processes whose calls give up the network lock, and that
     may be killed meanwhile. -/

import IcsOs.Lib.Claims
import IcsOs.Lib.Holdings
import IcsOs.Lib.Runs
import IcsOs.Net.Input

set_option autoImplicit false
set_option linter.unusedSectionVars false

namespace IcsOs.Net.SockLifetimes

open Function Option
open Lib.Claims Lib.Holdings Lib.Runs
open Net.Input (TcpState)

universe u

variable {P : Type u} {m : Nat} {fd : Fin m} {i : Fin 8}

section Model

/-- The slot of a connection block, and which use of it. -/
structure Ptr where
  slot : Fin 8
  gen : Nat
  deriving DecidableEq

/-- What of `struct sock` its life depends on; datagrams have no block. -/
structure Sock where
  refs : Nat
  pcb : Option Ptr
  listening : Bool

/-- A slot of `pcbs`, and how often it was freed. -/
structure Slot where
  inUse : Bool
  gen : Nat
  state : TcpState
  parent : Option (Fin 8)
  pendingAccept : Bool

/-- In no call; in the loop of `sock_udp_recv`; in one that has only the block; in that of
`tcp_pcb_accept`; between taking a descriptor away and `sock_close`; in `tcp_pcb_close` under it;
and with a block no socket has. -/
inductive Pc
  | idle
  | recvUdp (s : Nat)
  | onPcb (s : Nat) (q : Ptr)
  | accepting (s : Nat) (q : Ptr)
  | dropping (s : Nat)
  | closing (s : Nat) (q : Ptr)
  | holding (q : Ptr)
  deriving DecidableEq

/-- `killed` from the `on_cpu` test of `kill_process`, `gone` from its `ps_dequeue`. -/
inductive Life
  | alive
  | killed
  | gone
  deriving DecidableEq

/-- Descriptors, the socket a `dup` retained, the call, and whether a processor has it. -/
structure Proc (m : Nat) where
  fds : Fin m → Option Nat
  spare : Option Nat
  pc : Pc
  onCpu : Bool
  life : Life

/-- Sockets by `malloc`, blocks, datagram sockets and processes; and whether anything freed was
used. -/
structure World (P : Type u) (m : Nat) where
  socks : Nat → Option Sock
  next : Nat
  pcbs : Fin 8 → Slot
  udpSocks : Fin 8 → Option Nat
  procs : P → Proc m
  fault : Bool

/-- An access to a socket. -/
def touchSock (w : World P m) (s : Nat) : World P m :=
  if (w.socks s).isSome then w else { w with fault := true }

def live (w : World P m) (q : Ptr) : Bool :=
  (w.pcbs q.slot).inUse && decide ((w.pcbs q.slot).gen = q.gen)

/-- An access to a connection block. -/
def touchPcb (w : World P m) (q : Ptr) : World P m :=
  if live w q then w else { w with fault := true }

def World.sock (w : World P m) (s : Nat) (k : Option Sock) : World P m :=
  { w with socks := Function.update w.socks s k }

def World.slot (w : World P m) (i : Fin 8) (b : Slot) : World P m :=
  { w with pcbs := Function.update w.pcbs i b }

def setFd (proc : Proc m) (fd : Fin m) (s : Option Nat) : Proc m :=
  { proc with fds := Function.update proc.fds fd s }

def Proc.goto (proc : Proc m) (pc : Pc) : Proc m := { proc with pc := pc }

def Proc.retain (proc : Proc m) (s : Option Nat) : Proc m := { proc with spare := s }

def tcpPcbFree (w : World P m) (q : Ptr) : World P m :=
  (touchPcb w q).slot q.slot ⟨false, (w.pcbs q.slot).gen + 1, .closed, none, false⟩

def tcpPcbNew (w : World P m) : Option (Fin 8) :=
  (List.finRange 8).find? fun i => !(w.pcbs i).inUse

/-- The block `tcp_pcb_new` makes in slot `i`. -/
def freshPcb (w : World P m) (i : Fin 8) : Slot :=
  ⟨true, (w.pcbs i).gen, .closed, none, false⟩

def udpRegister (w : World P m) : Option (Fin 8) :=
  (List.finRange 8).find? fun k => (w.udpSocks k).isNone

def udpUnregister (w : World P m) (s : Nat) : World P m :=
  { w with udpSocks := fun k => if w.udpSocks k = some s then none else w.udpSocks k }

/-- The connection `tcp_pcb_accept` finds. -/
def acceptable (w : World P m) (l : Fin 8) : Option (Fin 8) :=
  (List.finRange 8).find? fun j =>
    (w.pcbs j).inUse && decide ((w.pcbs j).parent = some l) && (w.pcbs j).pendingAccept &&
      decide ((w.pcbs j).state = .established)

variable [DecidableEq P]

def World.proc (w : World P m) (p : P) (proc : Proc m) : World P m :=
  { w with procs := Function.update w.procs p proc }

def World.goto (w : World P m) (p : P) (pc : Pc) : World P m :=
  w.proc p ((w.procs p).goto pc)

/-- A new socket and its descriptor. -/
def sockFdInstall (w : World P m) (p : P) (fd : Fin m) (k : Sock) : World P m :=
  { w.sock w.next (some k) with next := w.next + 1 }.proc p
    ((setFd (w.procs p) fd (some w.next)).goto .idle)

/-- Without a block or a descriptor nothing is left behind. -/
def socketTcp (w : World P m) (p : P) (fd : Fin m) : World P m :=
  match tcpPcbNew w with
  | none => w
  | some i => sockFdInstall (w.slot i (freshPcb w i)) p fd ⟨1, some ⟨i, (w.pcbs i).gen⟩, false⟩

/-- `sys_socket` for datagrams. -/
def socketUdp (w : World P m) (p : P) (fd : Fin m) : World P m :=
  match udpRegister w with
  | none => w
  | some k =>
    { sockFdInstall w p fd ⟨1, none, false⟩ with
      udpSocks := Function.update w.udpSocks k (some w.next) }

/-- A call that does not wait, on the socket of its descriptor. -/
def visit (w : World P m) (s : Nat) : World P m :=
  match w.socks s with
  | none => touchSock w s
  | some k =>
    match k.pcb with
    | none => w
    | some q => touchPcb w q

def sysListen (w : World P m) (s : Nat) : World P m :=
  match w.socks s with
  | none => touchSock w s
  | some k =>
    match k.pcb with
    | none => w
    | some q =>
      ((touchPcb w q).slot q.slot { w.pcbs q.slot with state := .listen }).sock s
        (some { k with listening := true })

/-- A receive, send or connect at its loop; `advance` sets the states. -/
def enter (w : World P m) (p : P) (s : Nat) : World P m :=
  match w.socks s with
  | none => touchSock w s
  | some k =>
    match k.pcb with
    | none => w.goto p (.recvUdp s)
    | some q => (touchPcb w q).goto p (.onPcb s q)

/-- `sys_accept` up to the loop of `tcp_pcb_accept`. -/
def sysAccept (w : World P m) (p : P) (s : Nat) : World P m :=
  match w.socks s with
  | none => touchSock w s
  | some k =>
    match k.pcb with
    | none => w
    | some q =>
      if k.listening = true then
        if (w.pcbs q.slot).state = .listen then (touchPcb w q).goto p (.accepting s q)
        else touchPcb w q
      else w

/-- What one round of a loop looks at, with the lock or without it. -/
def spin (w : World P m) : Pc → World P m
  | .recvUdp s => touchSock w s
  | .onPcb _ q | .accepting _ q | .closing _ q | .holding q => touchPcb w q
  | .idle | .dropping _ => w

/-- A loop ends, with nothing to give to a new descriptor. -/
def leave (w : World P m) (p : P) : Option (World P m) :=
  match (w.procs p).pc with
  | .recvUdp s => some ((touchSock w s).goto p .idle)
  | .onPcb _ q | .accepting _ q => some ((touchPcb w q).goto p .idle)
  | _ => none

/-- After the loop; without a descriptor the connection is closed. -/
def accepted (w : World P m) (p : P) (fd : Option (Fin m)) : Option (World P m) :=
  match (w.procs p).pc with
  | .accepting s q =>
    (acceptable w q.slot).bind fun j =>
      let w' := (touchSock (touchPcb w q) s).slot j { w.pcbs j with pendingAccept := false }
      match fd with
      | none => some (w'.goto p (.holding ⟨j, (w.pcbs j).gen⟩))
      | some fd =>
        if (w.procs p).fds fd = none then
          some (sockFdInstall w' p fd ⟨1, some ⟨j, (w.pcbs j).gen⟩, false⟩)
        else none
  | _ => none

/-- `tcp_echo_client` takes a block for itself. -/
def tcpEchoClient (w : World P m) (p : P) : Option (World P m) :=
  (tcpPcbNew w).map fun i => (w.slot i (freshPcb w i)).goto p (.holding ⟨i, (w.pcbs i).gen⟩)

/-- A descriptor leaves the table of `v`. -/
def takeFd (w : World P m) (p v : P) (fd : Fin m) : Option (World P m) :=
  ((w.procs v).fds fd).map fun s => (w.proc v (setFd (w.procs v) fd none)).goto p (.dropping s)

/-- `sock_close` up to the loops of `tcp_pcb_close`. -/
def sockClose (w : World P m) (p : P) : Option (World P m) :=
  match (w.procs p).pc with
  | .dropping s =>
    match w.socks s with
    | none => some ((touchSock w s).goto p .idle)
    | some k =>
      if 1 < k.refs then some ((w.sock s (some { k with refs := k.refs - 1 })).goto p .idle)
      else
        match k.pcb with
        | none => some (((udpUnregister w s).sock s none).goto p .idle)
        | some q => some (((touchPcb w q).sock s (some { k with refs := 0 })).goto p (.closing s q))
  | _ => none

/-- The end of `tcp_pcb_close`, and of `sock_close`. -/
def closeEnd (w : World P m) (p : P) : Option (World P m) :=
  match (w.procs p).pc with
  | .closing s q => some (((tcpPcbFree (touchSock w s) q).sock s none).goto p .idle)
  | .holding q => some ((tcpPcbFree w q).goto p .idle)
  | _ => none

def sockRetain (w : World P m) (s : Nat) : World P m :=
  match w.socks s with
  | none => touchSock w s
  | some k => w.sock s (some { k with refs := k.refs + 1 })

/-- `abandon` is `self_exit_current` out of any call; it goes on to close its descriptors. -/
inductive Call (P : Type u) (m : Nat)
  | socketTcp (fd : Fin m)
  | socketUdp (fd : Fin m)
  | visit (fd : Fin m)
  | listen (fd : Fin m)
  | retain (fd : Fin m)
  | installSpare (fd : Fin m)
  | enter (fd : Fin m)
  | accept (fd : Fin m)
  | echoClient
  | spin
  | leave
  | accepted (fd : Option (Fin m))
  | close (fd : Fin m)
  | reap (v : P) (fd : Fin m)
  | sockClose
  | closeEnd
  | abandon

/-- A call on a descriptor, by a process that is in no other one. -/
def onFd (w : World P m) (p : P) (fd : Fin m) (f : Nat → World P m) : Option (World P m) :=
  if (w.procs p).pc = .idle then ((w.procs p).fds fd).map f else none

/-- A call that makes a descriptor. -/
def newFd (w : World P m) (p : P) (fd : Fin m) (w' : World P m) : Option (World P m) :=
  if (w.procs p).pc = .idle ∧ (w.procs p).fds fd = none then some w' else none

def call (w : World P m) (p : P) : Call P m → Option (World P m)
  | .socketTcp fd => newFd w p fd (socketTcp w p fd)
  | .socketUdp fd => newFd w p fd (socketUdp w p fd)
  | .visit fd => onFd w p fd (visit w)
  | .listen fd => onFd w p fd (sysListen w)
  -- the two halves of dup and dup2, which closes what the new descriptor had between them
  | .retain fd =>
    if (w.procs p).spare = none then
      onFd w p fd fun s => (sockRetain w s).proc p ((w.procs p).retain (some s))
    else none
  | .installSpare fd =>
    newFd w p fd (w.proc p ((setFd (w.procs p) fd (w.procs p).spare).retain none))
  | .enter fd => onFd w p fd (enter w p)
  | .accept fd => onFd w p fd (sysAccept w p)
  | .echoClient => if (w.procs p).pc = .idle then tcpEchoClient w p else none
  | .spin => some (spin w (w.procs p).pc)
  | .leave => leave w p
  | .accepted fd => accepted w p fd
  | .close fd => if (w.procs p).pc = .idle then takeFd w p p fd else none
  -- kill_process closes the descriptors of its victim
  | .reap v fd =>
    if (w.procs p).pc = .idle ∧ (w.procs v).life = .killed then takeFd w p v fd else none
  | .sockClose => sockClose w p
  | .closeEnd => closeEnd w p
  | .abandon => some (w.proc p (((w.procs p).retain none).goto .idle))

inductive Act (P : Type u) (m : Nat)
  | run (p : P) (c : Call P m)
  | switchIn (p : P)
  | switchOut (p : P)
  | kill (v : P)
  | dequeue (v : P)
  | inherit (p child : P) (fd : Fin m)
  | deliver (k : Fin 8)
  | listenEcho
  | arrive (l : Fin 8)
  | establish (j : Fin 8)
  | advance (j : Fin 8) (state : TcpState)

def perform (w : World P m) : Act P m → Option (World P m)
  | .run p c => if (w.procs p).onCpu = true then call w p c else none
  -- the scheduler finds it in the ready queue, and asks nothing of kill_process
  | .switchIn p =>
    if (w.procs p).life ≠ .gone then some (w.proc p { w.procs p with onCpu := true }) else none
  | .switchOut p => some (w.proc p { w.procs p with onCpu := false })
  -- a process that a processor has is left to abandon its call itself
  | .kill v =>
    if (w.procs v).onCpu = false ∧ (w.procs v).life = .alive then
      some (w.proc v { w.procs v with life := .killed })
    else none
  | .dequeue v =>
    if (w.procs v).life = .killed ∧ ∀ fd, (w.procs v).fds fd = none then
      some (w.proc v { w.procs v with life := .gone })
    else none
  -- one descriptor of posix_fd_clone
  | .inherit p child fd =>
    if (w.procs child).fds fd = none then
      ((w.procs p).fds fd).map fun s =>
        (sockRetain w s).proc child (setFd (w.procs child) fd (some s))
    else none
  -- sock_udp_deliver, and sys_bind on another socket, look at a registered one
  | .deliver k => (w.udpSocks k).map (touchSock w)
  | .listenEcho => (tcpPcbNew w).map fun i => w.slot i { freshPcb w i with state := .listen }
  -- tcp_handle makes a block for a connection request
  | .arrive l =>
    if (w.pcbs l).inUse = true ∧ (w.pcbs l).state = .listen then
      (tcpPcbNew w).map fun j => w.slot j { freshPcb w j with state := .synRcvd, parent := some l }
    else none
  | .establish j =>
    if (w.pcbs j).inUse = true ∧ (w.pcbs j).state = .synRcvd then
      some (w.slot j { w.pcbs j with state := .established, pendingAccept := true })
    else none
  -- every other change of a state, by a segment or by a call
  | .advance j state =>
    if (w.pcbs j).inUse = true ∧ state ≠ .synRcvd then
      some (w.slot j { w.pcbs j with state := state })
    else none

/-- No sockets yet. -/
def initial : World P m where
  socks _ := none
  next := 0
  pcbs _ := ⟨false, 0, .closed, none, false⟩
  udpSocks _ := none
  procs _ := ⟨fun _ => none, none, .idle, false, .alive⟩
  fault := false

def sockets (P : Type u) (m : Nat) [DecidableEq P] : System (World P m) (Act P m) where
  start w := w = initial
  step w a w' := perform w a = some w'

/-- No processor takes a process being torn down. -/
def spared (w : World P m) : Act P m → Bool
  | .switchIn p => decide ((w.procs p).life = .alive)
  | _ => true

end Model

variable {proc : Proc m} {socks : Nat → Option Sock}

section

/-- The socket a process looks at in a loop. -/
def Pc.sock : Pc → Option Nat
  | .recvUdp s | .onPcb s _ | .accepting s _ => some s
  | _ => none

/-- The block of that socket, where the loop has it. -/
def Pc.block : Pc → Option (Nat × Ptr)
  | .onPcb s q | .accepting s q => some (s, q)
  | _ => none

/-- The block a process has for itself. -/
def Pc.held : Pc → Option Ptr
  | .holding q => some q
  | _ => none

def tick (s : Nat) (o : Option Nat) : Nat := if o = some s then 1 else 0

/-- The references to a socket that a process has. -/
def hold (s : Nat) (proc : Proc m) : Nat :=
  ∑ fd, tick s (proc.fds fd) + tick s proc.spare + if proc.pc = .dropping s then 1 else 0

def refsOf (socks : Nat → Option Sock) (s : Nat) : Nat := ((socks s).map Sock.refs).getD 0

def pcbOf (socks : Nat → Option Sock) (s : Nat) : Option Ptr := (socks s).bind Sock.pcb

/-- Blocks belong to sockets and to processes. -/
def claim (w : World P m) : Nat ⊕ P → Option Ptr
  | .inl s => pcbOf w.socks s
  | .inr p => (w.procs p).pc.held

/-- A block that has an owner: nobody can accept it, now or later. -/
structure Settled (pcbs : Fin 8 → Slot) (q : Ptr) : Prop where
  used : (pcbs q.slot).inUse = true
  current : (pcbs q.slot).gen = q.gen
  taken : (pcbs q.slot).pendingAccept = false
  opened : (pcbs q.slot).state ≠ .synRcvd

/-- What a process relies on while the lock is free; a killed one, nothing. -/
structure Placed (socks : Nat → Option Sock) (proc : Proc m) : Prop where
  alive : proc.onCpu = true → proc.life = .alive
  based : proc.life = .alive → ∀ s, proc.pc.sock = some s → ∃ fd, proc.fds fd = some s
  block : proc.life = .alive → ∀ s q, proc.pc.block = some (s, q) → pcbOf socks s = some q
  closing : ∀ s q, proc.pc = .closing s q → ∃ l, socks s = some ⟨0, some q, l⟩

structure Kept [Fintype P] (w : World P m) : Prop where
  placed : ∀ p, Placed w.socks (w.procs p)
  counted : ∀ s, ∑ p, hold s (w.procs p) ≤ refsOf w.socks s
  closer : ∀ p p' s q q', (w.procs p).pc = .closing s q → (w.procs p').pc = .closing s q' → p = p'
  settled : ∀ c q, claim w c = some q → Settled w.pcbs q
  exclusive : Exclusive Ptr.slot (claim w)
  registered : ∀ k s, w.udpSocks k = some s → ∃ x, w.socks s = some x ∧ x.pcb = none
  fresh : ∀ s, w.next ≤ s → w.socks s = none
  sound : w.fault = false

/-- A process in no call. -/
theorem Placed.idle (alive : proc.onCpu = true → proc.life = .alive) (none : proc.pc = .idle) :
    Placed socks proc := by
  refine ⟨alive, ?_, ?_, ?_⟩ <;> simp [none, Pc.sock, Pc.block]

variable {s : Nat}

theorem Placed.dropping (alive : proc.onCpu = true → proc.life = .alive)
    (place : proc.pc = .dropping s) : Placed socks proc := by
  refine ⟨alive, ?_, ?_, ?_⟩ <;> simp [place, Pc.sock, Pc.block]

theorem Placed.holding {q : Ptr} (alive : proc.onCpu = true → proc.life = .alive)
    (place : proc.pc = .holding q) : Placed socks proc := by
  refine ⟨alive, ?_, ?_, ?_⟩ <;> simp [place, Pc.sock, Pc.block]

theorem sock_of_block {pc : Pc} {q : Ptr} (place : pc.block = some (s, q)) : pc.sock = some s := by
  cases pc with
  | onPcb s' q' | accepting s' q' =>
    cases place
    rfl
  | idle | recvUdp _ | dropping _ | closing _ _ | holding _ => cases place

theorem Placed.frame {socks' : Nat → Option Sock} (placed : Placed socks proc)
    (pcb : ∀ s, proc.pc.sock = some s → proc.life = .alive → pcbOf socks' s = pcbOf socks s)
    (closing : ∀ s q, proc.pc = .closing s q → socks' s = socks s) : Placed socks' proc := by
  refine ⟨placed.alive, placed.based, ?_, ?_⟩
  · intro alive s q place
    rw [pcb s (sock_of_block place) alive]
    exact placed.block alive s q place
  · intro s q place
    rw [closing s q place]
    exact placed.closing s q place

theorem tick_self (s : Nat) : tick s (some s) = 1 := if_pos rfl

theorem tick_none (s : Nat) : tick s none = 0 := if_neg (by simp)

theorem tick_other {t : Nat} (other : s ≠ t) : tick s (some t) = 0 :=
  if_neg fun same => other (Option.some.inj same).symm

theorem hold_setFd (s : Nat) (proc : Proc m) (fd : Fin m) (o : Option Nat) :
    hold s (setFd proc fd o) + tick s (proc.fds fd) = hold s proc + tick s o := by
  have change := sum_update (tick s) proc.fds fd o
  unfold hold setFd
  dsimp only
  omega

theorem hold_pc (s : Nat) (proc : Proc m) (pc : Pc) :
    hold s (proc.goto pc) + (if proc.pc = .dropping s then 1 else 0) =
      hold s proc + if pc = .dropping s then 1 else 0 := by
  unfold hold Proc.goto
  dsimp only
  omega

theorem hold_spare (s : Nat) (proc : Proc m) (o : Option Nat) :
    hold s (proc.retain o) + tick s proc.spare = hold s proc + tick s o := by
  unfold hold Proc.retain
  dsimp only
  omega

theorem hold_pc_le (s : Nat) (proc : Proc m) (pc : Pc) (calm : ∀ s, pc ≠ .dropping s) :
    hold s (proc.goto pc) ≤ hold s proc := by
  have change := hold_pc s proc pc
  rw [if_neg (calm s)] at change
  omega

theorem hold_fd (has : proc.fds fd = some s) : 1 ≤ hold s proc := by
  have one := le_sum (fun fd => tick s (proc.fds fd)) fd
  rw [has, tick_self] at one
  unfold hold
  omega

section Access

variable {w : World P m} {s : Nat} {k : Sock} {q : Ptr}

theorem touchSock_of (found : w.socks s = some k) : touchSock w s = w := by
  unfold touchSock
  rw [found]
  exact if_pos rfl

theorem touchPcb_of (settled : Settled w.pcbs q) : touchPcb w q = w := by
  apply if_pos
  unfold live
  rw [settled.used, settled.current]
  simp

theorem pcbOf_of (found : socks s = some k) : pcbOf socks s = k.pcb := by
  unfold pcbOf
  rw [found]
  rfl

theorem refsOf_of (found : socks s = some k) : refsOf socks s = k.refs := by
  unfold refsOf
  rw [found]
  rfl

theorem Settled.frame {pcbs pcbs' : Fin 8 → Slot} (settled : Settled pcbs q)
    (same : pcbs' q.slot = pcbs q.slot) : Settled pcbs' q := by
  refine ⟨?_, ?_, ?_, ?_⟩ <;> rw [same]
  · exact settled.used
  · exact settled.current
  · exact settled.taken
  · exact settled.opened

theorem free_slot (found : tcpPcbNew w = some i) : (w.pcbs i).inUse = false := by
  have := List.find?_some found
  simpa using this

theorem acceptable_spec {l j : Fin 8} (found : acceptable w l = some j) :
    (w.pcbs j).inUse = true ∧ (w.pcbs j).pendingAccept = true ∧
      (w.pcbs j).state = .established := by
  have := List.find?_some found
  simp only [Bool.and_eq_true, decide_eq_true_eq] at this
  exact ⟨this.1.1.1, this.1.2, this.2⟩

end Access

variable [DecidableEq P]

theorem claim_proc (w : World P m) (p : P) (proc : Proc m) :
    claim (w.proc p proc) = update (claim w) (.inr p) proc.pc.held := by
  funext c
  rcases c with s | p'
  · rfl
  rcases eq_or_ne p' p with rfl | other
  · rw [update_self]
    show (update w.procs p' proc p').pc.held = _
    rw [update_self]
  · rw [update_of_ne (fun same => other (Sum.inr.inj same))]
    show (update w.procs p proc p').pc.held = _
    rw [update_of_ne other]
    rfl

theorem claim_sock (w : World P m) (s : Nat) (k : Option Sock) :
    claim (w.sock s k) = update (claim w) (.inl s) (k.bind Sock.pcb) := by
  funext c
  rcases c with s' | p'
  · rcases eq_or_ne s' s with rfl | other
    · rw [update_self]
      show (update w.socks s' k s').bind Sock.pcb = _
      rw [update_self]
    · rw [update_of_ne (fun same => other (Sum.inl.inj same))]
      show (update w.socks s k s').bind Sock.pcb = _
      rw [update_of_ne other]
      rfl
  · rfl

variable [Fintype P] {w : World P m} {p : P} {s : Nat} {q : Ptr} {k : Sock}

section

variable (kept : Kept w)
include kept

theorem Kept.referred (one : 1 ≤ hold s (w.procs p)) : ∃ k, w.socks s = some k ∧ 1 ≤ k.refs := by
  have mine : hold s (w.procs p) ≤ ∑ p, hold s (w.procs p) :=
    le_sum (fun p => hold s (w.procs p)) p
  have counted := kept.counted s
  cases found : w.socks s with
  | none =>
    have zero : refsOf w.socks s = 0 := by
      unfold refsOf
      rw [found]
      rfl
    omega
  | some k =>
    rw [refsOf_of found] at counted
    exact ⟨k, rfl, by omega⟩

theorem Kept.found (has : (w.procs p).fds fd = some s) : ∃ k, w.socks s = some k ∧ 1 ≤ k.refs :=
  kept.referred (hold_fd has)

/-- What a loop looks at is there. -/
theorem Kept.looked (alive : (w.procs p).life = .alive) (place : (w.procs p).pc.sock = some s) :
    ∃ k, w.socks s = some k ∧ 1 ≤ k.refs := by
  obtain ⟨fd, has⟩ := (kept.placed p).based alive s place
  exact kept.found has

theorem Kept.own_block (found : w.socks s = some k) (has : k.pcb = some q) : Settled w.pcbs q :=
  kept.settled (.inl s) q ((pcbOf_of found).trans has)

theorem Kept.loop_block (alive : (w.procs p).life = .alive)
    (place : (w.procs p).pc.block = some (s, q)) : Settled w.pcbs q :=
  kept.settled (.inl s) q ((kept.placed p).block alive s q place)

theorem Kept.unowned
    (odd : (w.pcbs i).inUse = false ∨ (w.pcbs i).pendingAccept = true ∨
      (w.pcbs i).state = .synRcvd) : ∀ c q, claim w c = some q → q.slot ≠ i := by
  rintro c q has rfl
  have settled := kept.settled c q has
  rcases odd with free | waits | half
  · rw [settled.used] at free
    cases free
  · rw [settled.taken] at waits
    cases waits
  · exact settled.opened half

/-- One process changes: all places, the references and who closes. -/
theorem Kept.processes {socks' : Nat → Option Sock} (fits : Placed socks' proc)
    (others : ∀ p', p' ≠ p → Placed socks' (w.procs p'))
    (counted : ∀ t, ∑ j, hold t (w.procs j) + hold t proc ≤ refsOf socks' t + hold t (w.procs p))
    (closes : ∀ t q, proc.pc = .closing t q →
      (w.procs p).pc = .closing t q ∨ ∀ p' q', (w.procs p').pc ≠ .closing t q') :
    (∀ p', Placed socks' (update w.procs p proc p')) ∧
      (∀ t, ∑ j, hold t (update w.procs p proc j) ≤ refsOf socks' t) ∧
      ∀ p₁ p₂ t q q', (update w.procs p proc p₁).pc = .closing t q →
        (update w.procs p proc p₂).pc = .closing t q' → p₁ = p₂ := by
  refine ⟨?_, ?_, ?_⟩
  · intro p'
    rcases eq_or_ne p' p with rfl | other
    · rwa [update_self]
    · rw [update_of_ne other]
      exact others p' other
  · intro t
    have total := sum_update (hold t) w.procs p proc
    have within := counted t
    omega
  · intro p₁ p₂ t q q' first second
    have before := kept.closer p₁ p₂ t q q'
    by_contra apart
    rcases eq_or_ne p₁ p with rfl | other
    · rw [update_self] at first
      rw [update_of_ne (Ne.symm apart)] at second
      exact (closes t q first).elim (fun mine => apart (before mine second)) fun none =>
        none _ _ second
    rw [update_of_ne other] at first
    rcases eq_or_ne p₂ p with rfl | other'
    · rw [update_self] at second
      exact (closes t q' second).elim (fun mine => apart (before first mine)) fun none =>
        none _ _ first
    · rw [update_of_ne other'] at second
      exact apart (before first second)

/-- A change of one process that takes no reference and no block. -/
theorem Kept.move (holds : ∀ s, hold s proc ≤ hold s (w.procs p)) (fits : Placed w.socks proc)
    (closes : ∀ s q, proc.pc = .closing s q → (w.procs p).pc = .closing s q)
    (keeps : ∀ q, proc.pc.held = some q → (w.procs p).pc.held = some q) : Kept (w.proc p proc) := by
  have within : ∀ c q, claim (w.proc p proc) c = some q → claim w c = some q := by
    intro c q has
    rw [claim_proc] at has
    rcases eq_or_ne c (.inr p) with rfl | other
    · rw [update_self] at has
      exact keeps q has
    · rwa [update_of_ne other] at has
  obtain ⟨placed, counted, closer⟩ := kept.processes fits (fun p' _ => kept.placed p')
    (fun t => Nat.add_le_add (kept.counted t) (holds t)) fun t q place => .inl (closes t q place)
  exact ⟨placed, counted, closer, fun c q has => kept.settled c q (within c q has),
    kept.exclusive.mono within, kept.registered, kept.fresh, kept.sound⟩

/-- A change of a slot that nobody owns. -/
theorem Kept.reslot (b : Slot) (unowned : ∀ c q, claim w c = some q → q.slot ≠ i) :
    Kept (w.slot i b) := by
  refine { kept with settled := ?_ }
  intro c q has
  exact (kept.settled c q has).frame (update_of_ne (unowned c q has) _ _)

theorem Kept.restate (i : Fin 8) (state : TcpState) (opened : state ≠ .synRcvd) :
    Kept (w.slot i { w.pcbs i with state := state }) := by
  refine { kept with settled := ?_ }
  intro c q has
  have settled := kept.settled c q has
  rcases eq_or_ne q.slot i with rfl | other
  · have now : (w.slot q.slot { w.pcbs q.slot with state := state }).pcbs q.slot =
        { w.pcbs q.slot with state := state } := update_self _ _ _
    refine ⟨?_, ?_, ?_, ?_⟩ <;> rw [now]
    · exact settled.used
    · exact settled.current
    · exact settled.taken
    · exact opened
  · exact settled.frame (update_of_ne other _ _)

/-- Nobody is in `tcp_pcb_close` for a socket that has references. -/
theorem Kept.unclosed (found : w.socks s = some k) (used : 1 ≤ k.refs) :
    ∀ p q, (w.procs p).pc ≠ .closing s q := by
  intro p q place
  obtain ⟨l, none⟩ := (kept.placed p).closing s q place
  rw [found] at none
  cases none
  exact absurd used (by simp)

end

theorem World.proc_self (w : World P m) (p : P) : w.proc p (w.procs p) = w := by
  unfold World.proc
  rw [update_eq_self]

theorem World.sock_get (w : World P m) (s : Nat) (k : Option Sock) : (w.sock s k).socks s = k :=
  update_self _ _ _

theorem World.sock_get_ne (w : World P m) {t : Nat} (other : t ≠ s) (k : Option Sock) :
    (w.sock s k).socks t = w.socks t :=
  update_of_ne other _ _

theorem refsOf_sock_ne (w : World P m) {t : Nat} (other : t ≠ s) (k : Option Sock) :
    refsOf (w.sock s k).socks t = refsOf w.socks t := by
  unfold refsOf
  rw [w.sock_get_ne other]

theorem pcbOf_sock {k' : Sock} (found : w.socks s = some k) (same : k'.pcb = k.pcb) (t : Nat) :
    pcbOf (w.sock s (some k')).socks t = pcbOf w.socks t := by
  rcases eq_or_ne t s with rfl | other
  · rw [pcbOf_of (w.sock_get t _), pcbOf_of found, same]
  · unfold pcbOf
    rw [w.sock_get_ne other]

theorem Placed.resock {k' : Sock} (placed : Placed w.socks proc) (found : w.socks s = some k)
    (same : k'.pcb = k.pcb) (unclosed : ∀ q, proc.pc ≠ .closing s q) :
    Placed (w.sock s (some k')).socks proc := by
  refine placed.frame (fun t _ _ => pcbOf_sock found same t) ?_
  intro t q place
  apply w.sock_get_ne
  rintro rfl
  exact unclosed q place

theorem Kept.resock (kept : Kept w) {k' : Sock} (found : w.socks s = some k)
    (unclosed : ∀ p q, (w.procs p).pc ≠ .closing s q) (same : k'.pcb = k.pcb)
    (balance : hold s proc + k.refs ≤ hold s (w.procs p) + k'.refs)
    (rest : ∀ t, t ≠ s → hold t proc ≤ hold t (w.procs p))
    (fits : Placed (w.sock s (some k')).socks proc)
    (closes : ∀ t q, proc.pc = .closing t q → t = s ∨ (w.procs p).pc = .closing t q)
    (keeps : ∀ q, proc.pc.held = some q → (w.procs p).pc.held = some q) :
    Kept ((w.sock s (some k')).proc p proc) := by
  have within : ∀ c q, claim ((w.sock s (some k')).proc p proc) c = some q →
      claim w c = some q := by
    intro c q has
    rcases c with t | p'
    · exact (pcbOf_sock found same t).symm.trans has
    rw [claim_proc] at has
    rcases eq_or_ne p' p with rfl | other
    · rw [update_self] at has
      exact keeps q has
    · rwa [update_of_ne (fun same => other (Sum.inr.inj same))] at has
  have counts : ∀ t, ∑ j, hold t (w.procs j) + hold t proc ≤
      refsOf (w.sock s (some k')).socks t + hold t (w.procs p) := by
    intro t
    have counted := kept.counted t
    rcases eq_or_ne t s with rfl | other
    · rw [refsOf_of (w.sock_get t _)]
      rw [refsOf_of found] at counted
      omega
    · rw [refsOf_sock_ne w other]
      exact Nat.add_le_add counted (rest t other)
  obtain ⟨placed, counted, closer⟩ := kept.processes fits
    (fun p' _ => (kept.placed p').resock found same (unclosed p')) counts
    fun t q place => (closes t q place).symm.imp_right (by rintro rfl; exact unclosed)
  refine ⟨placed, counted, closer, fun c q has => kept.settled c q (within c q has),
    kept.exclusive.mono within, ?_, ?_, kept.sound⟩
  · intro i t listed
    obtain ⟨x, there, plain⟩ := kept.registered i t listed
    rcases eq_or_ne t s with rfl | other
    · rw [found] at there
      cases there
      exact ⟨k', w.sock_get t _, same.trans plain⟩
    · exact ⟨x, (w.sock_get_ne other _).trans there, plain⟩
  · intro t beyond
    have absent := kept.fresh t beyond
    rcases eq_or_ne t s with rfl | other
    · rw [found] at absent
      cases absent
    · exact (w.sock_get_ne other _).trans absent

theorem Kept.forget (kept : Kept w) (last : ∑ j, hold s (update w.procs p proc j) = 0)
    (rest : ∀ t, t ≠ s → hold t proc ≤ hold t (w.procs p))
    (alive : proc.onCpu = true → proc.life = .alive) (idle : proc.pc = .idle)
    (sole : ∀ p' q, (w.procs p').pc = .closing s q → p' = p)
    (unlisted : ∀ i, w.udpSocks i ≠ some s) : Kept ((w.sock s none).proc p proc) := by
  have within : ∀ c q, claim ((w.sock s none).proc p proc) c = some q → claim w c = some q := by
    intro c q has
    rw [claim_proc, claim_sock, idle] at has
    exact drop_claim (drop_claim has)
  have counts : ∀ t, ∑ j, hold t (w.procs j) + hold t proc ≤
      refsOf (w.sock s none).socks t + hold t (w.procs p) := by
    intro t
    rcases eq_or_ne t s with rfl | other
    · have total := sum_update (hold t) w.procs p proc
      omega
    · rw [refsOf_sock_ne w other]
      exact Nat.add_le_add (kept.counted t) (rest t other)
  have others : ∀ p', p' ≠ p → Placed (w.sock s none).socks (w.procs p') := by
    intro p' other
    have unheld := eq_zero_of_sum _ last p'
    rw [update_of_ne other] at unheld
    refine (kept.placed p').frame ?_ ?_
    · intro t inCall lives
      obtain ⟨fd, has⟩ := (kept.placed p').based lives t inCall
      have apart : t ≠ s := by
        rintro rfl
        have one := hold_fd has
        omega
      unfold pcbOf
      rw [w.sock_get_ne apart]
    · intro t q place
      apply w.sock_get_ne
      rintro rfl
      exact other (sole p' q place)
  obtain ⟨placed, counted, closer⟩ := kept.processes (.idle alive idle) others counts
    (by simp [idle])
  refine ⟨placed, counted, closer, fun c q has => kept.settled c q (within c q has),
    kept.exclusive.mono within, ?_, ?_, kept.sound⟩
  · intro i t listed
    obtain ⟨x, there, plain⟩ := kept.registered i t listed
    have apart : t ≠ s := by
      rintro rfl
      exact unlisted i listed
    exact ⟨x, (w.sock_get_ne apart _).trans there, plain⟩
  · intro t beyond
    rcases eq_or_ne t s with rfl | other
    · exact w.sock_get t none
    · exact (w.sock_get_ne other _).trans (kept.fresh t beyond)

variable {w' : World P m}

theorem Placed.gain (placed : Placed socks proc) (empty : proc.fds fd = none) (o : Option Nat) :
    Placed socks (setFd proc fd o) := by
  refine { placed with based := ?_ }
  intro alive s inCall
  obtain ⟨fd', has⟩ := placed.based alive s inCall
  have apart : fd' ≠ fd := by
    rintro rfl
    rw [empty] at has
    cases has
  exact ⟨fd', (update_of_ne apart _ _).trans has⟩

section

variable (kept : Kept w)
include kept

theorem Kept.goto {pc : Pc} (calm : ∀ s, pc ≠ .dropping s) (unclosing : ∀ s q, pc ≠ .closing s q)
    (bare : pc.held = none) (fits : Placed w.socks ((w.procs p).goto pc)) : Kept (w.goto p pc) := by
  refine kept.move (fun s => hold_pc_le s _ pc calm) fits ?_ ?_
  · intro s q place
    exact absurd place (unclosing s q)
  · intro q has
    have both := bare.symm.trans has
    cases both

theorem Kept.rest (p : P) : Kept (w.goto p .idle) :=
  kept.goto (by simp) (by simp) rfl (.idle (kept.placed p).alive rfl)

/-- A process takes a block that nobody owns. -/
theorem Kept.grab (settled : Settled w.pcbs q)
    (unowned : ∀ c q', claim w c = some q' → q'.slot ≠ q.slot) : Kept (w.goto p (.holding q)) := by
  have given : claim (w.goto p (.holding q)) = update (claim w) (.inr p) (some q) :=
    claim_proc w p _
  have fits : Placed w.socks ((w.procs p).goto (.holding q)) := .holding (kept.placed p).alive rfl
  obtain ⟨placed, counted, closer⟩ := kept.processes fits (fun p' _ => kept.placed p')
    (fun t => Nat.add_le_add (kept.counted t) (hold_pc_le t _ _ (by simp))) (by rintro t q' ⟨⟩)
  refine ⟨placed, counted, closer, ?_, ?_, kept.registered, kept.fresh, kept.sound⟩
  · intro c q' has
    rw [given] at has
    rcases give_claim has with rfl | before
    · exact settled
    · exact kept.settled c q' before
  · rw [given]
    exact kept.exclusive.give _ q unowned

/-- A socket is made that nothing refers to yet. -/
theorem Kept.alloc
    (block : ∀ q, k.pcb = some q → Settled w.pcbs q ∧
      ∀ c q', claim w c = some q' → q'.slot ≠ q.slot) :
    Kept { w.sock w.next (some k) with next := w.next + 1 } := by
  have absent := kept.fresh w.next (Nat.le_refl _)
  have given : claim { w.sock w.next (some k) with next := w.next + 1 } =
      update (claim w) (.inl w.next) k.pcb := claim_sock w w.next (some k)
  have apart : ∀ t x, w.socks t = some x → t ≠ w.next := by
    rintro t x there rfl
    rw [absent] at there
    cases there
  refine ⟨?_, ?_, kept.closer, ?_, ?_, ?_, ?_, kept.sound⟩
  · intro p'
    refine (kept.placed p').frame ?_ ?_
    · intro t inCall alive
      obtain ⟨x, there, _⟩ := kept.looked alive inCall
      exact congrArg (bind · Sock.pcb) (w.sock_get_ne (apart t x there) _)
    · intro t q place
      obtain ⟨l, there⟩ := (kept.placed p').closing t q place
      exact w.sock_get_ne (apart t _ there) _
  · intro t
    have counted := kept.counted t
    rcases eq_or_ne t w.next with rfl | other
    · unfold refsOf at counted
      rw [absent] at counted
      exact Nat.le_trans counted (Nat.zero_le _)
    · exact counted.trans_eq (refsOf_sock_ne w other _).symm
  · intro c q has
    rw [given] at has
    cases mine : k.pcb with
    | none =>
      rw [mine] at has
      exact kept.settled c q (drop_claim has)
    | some q' =>
      rw [mine] at has
      rcases give_claim has with rfl | before
      · exact (block q mine).1
      · exact kept.settled c q before
  · rw [given]
    cases mine : k.pcb with
    | none => exact kept.exclusive.mono fun _ _ has => drop_claim has
    | some q' => exact kept.exclusive.give _ q' (block q' mine).2
  · intro i t listed
    obtain ⟨x, there, plain⟩ := kept.registered i t listed
    exact ⟨x, (w.sock_get_ne (apart t x there) _).trans there, plain⟩
  · intro t beyond
    have later : w.next + 1 ≤ t := beyond
    exact (w.sock_get_ne (by omega) _).trans (kept.fresh t (by omega))

/-- A new socket with its descriptor. -/
theorem Kept.install (one : k.refs = 1)
    (block : ∀ q, k.pcb = some q → Settled w.pcbs q ∧
      ∀ c q', claim w c = some q' → q'.slot ≠ q.slot) : Kept (sockFdInstall w p fd k) := by
  have made := kept.alloc (k := { k with refs := 0 }) block
  have unclosed : ∀ p q, (w.procs p).pc ≠ .closing w.next q := by
    intro p q place
    obtain ⟨l, there⟩ := (kept.placed p).closing _ q place
    rw [kept.fresh w.next (Nat.le_refl _)] at there
    cases there
  have holds : ∀ t, hold t ((setFd (w.procs p) fd (some w.next)).goto .idle) ≤
      hold t (w.procs p) + tick t (some w.next) := by
    intro t
    have set := hold_setFd t (w.procs p) fd (some w.next)
    have less := hold_pc_le t (setFd (w.procs p) fd (some w.next)) .idle (by simp)
    omega
  have installed : Kept ((({ w.sock w.next (some { k with refs := 0 }) with next := w.next + 1 } :
      World P m).sock w.next (some k)).proc p
        ((setFd (w.procs p) fd (some w.next)).goto .idle)) := by
    refine made.resock (w.sock_get w.next _) unclosed rfl ?_ ?_ (.idle (kept.placed p).alive rfl)
      (by rintro t q ⟨⟩) (by rintro q ⟨⟩)
    · have more := holds w.next
      rw [tick_self] at more
      rw [one]
      show hold w.next _ + 0 ≤ hold w.next (w.procs p) + 1
      omega
    · intro t other
      have more := holds t
      rw [tick_other other] at more
      exact more
  have again : ((({ w.sock w.next (some { k with refs := 0 }) with next := w.next + 1 } :
      World P m).sock w.next (some k)).proc p
        ((setFd (w.procs p) fd (some w.next)).goto .idle)) = sockFdInstall w p fd k := by
    unfold sockFdInstall World.sock World.proc
    dsimp only
    rw [update_idem]
  rw [← again]
  exact installed

/-- A block that `tcp_pcb_new` makes has no owner, and may get one. -/
theorem Kept.made (found : tcpPcbNew w = some i) :
    Kept (w.slot i (freshPcb w i)) ∧ Settled (w.slot i (freshPcb w i)).pcbs ⟨i, (w.pcbs i).gen⟩ ∧
      ∀ c q', claim (w.slot i (freshPcb w i)) c = some q' → q'.slot ≠ i := by
  have unowned := kept.unowned (.inl (free_slot found))
  refine ⟨kept.reslot _ unowned, ?_, unowned⟩
  have now : (w.slot i (freshPcb w i)).pcbs i = freshPcb w i := update_self _ _ _
  refine ⟨?_, ?_, ?_, ?_⟩ <;> dsimp only <;> rw [now]
  · rfl
  · rfl
  · rfl
  · simp [freshPcb]

theorem kept_socketTcp : Kept (socketTcp w p fd) := by
  unfold socketTcp
  split
  · exact kept
  rename_i i found
  obtain ⟨slotted, settled, unowned⟩ := kept.made found
  refine slotted.install rfl ?_
  rintro q ⟨⟩
  exact ⟨settled, unowned⟩

theorem kept_socketUdp : Kept (socketUdp w p fd) := by
  unfold socketUdp
  split
  · exact kept
  rename_i i _
  have made : Kept (sockFdInstall w p fd ⟨1, none, false⟩) := kept.install rfl (by simp)
  refine { made with registered := ?_ }
  intro j t listed
  change update w.udpSocks i (some w.next) j = some t at listed
  rcases eq_or_ne j i with rfl | other
  · rw [update_self] at listed
    cases listed
    exact ⟨_, w.sock_get w.next _, rfl⟩
  · rw [update_of_ne other] at listed
    exact made.registered j t listed

/-- The calls on a descriptor find their socket and its block. -/
theorem visit_eq (found : w.socks s = some k) : visit w s = w := by
  unfold visit
  rw [found]
  cases has : k.pcb with
  | none => simp only [has]
  | some q =>
    simp only [has]
    exact touchPcb_of (kept.own_block found has)

theorem Kept.alter {k' : Sock} (found : w.socks s = some k) (used : 1 ≤ k.refs)
    (same : k'.pcb = k.pcb) (refs : k'.refs = k.refs) (p : P) : Kept (w.sock s (some k')) := by
  have unclosed := kept.unclosed found used
  have altered := kept.resock (p := p) found unclosed same (by omega) (fun _ _ => Nat.le_refl _)
    ((kept.placed p).resock found same (unclosed p)) (fun _ _ place => .inr place)
      (fun _ has => has)
  have back : (w.sock s (some k')).proc p (w.procs p) = w.sock s (some k') :=
    World.proc_self (w.sock s (some k')) p
  rwa [back] at altered

theorem kept_listen (found : w.socks s = some k) (used : 1 ≤ k.refs) (p : P) :
    Kept (sysListen w s) := by
  unfold sysListen
  rw [found]
  cases has : k.pcb with
  | none =>
    simp only [has]
    exact kept
  | some q =>
    simp only [has]
    rw [touchPcb_of (kept.own_block found has)]
    have restated := kept.restate q.slot .listen (by simp)
    exact restated.alter found used has.symm rfl p

/-- `sock_retain`, with the reference it makes. -/
theorem Kept.retain (found : w.socks s = some k) (used : 1 ≤ k.refs)
    (more : ∀ t, hold t proc = hold t (w.procs p) + tick t (some s)) (fits : Placed w.socks proc)
    (same : proc.pc = (w.procs p).pc) : Kept ((sockRetain w s).proc p proc) := by
  have unclosed := kept.unclosed found used
  unfold sockRetain
  rw [found]
  refine kept.resock found unclosed rfl ?_ ?_ ?_ ?_ ?_
  · have one := more s
    rw [tick_self] at one
    dsimp only
    omega
  · intro t other
    have none := more t
    rw [tick_other other] at none
    omega
  · exact fits.resock found rfl fun q place => unclosed p q (same.symm.trans place)
  · intro t q place
    exact .inr (same.symm.trans place)
  · intro q has
    rwa [same] at has

theorem kept_enter (has : (w.procs p).fds fd = some s) : Kept (enter w p s) := by
  obtain ⟨k, found, _⟩ := kept.found has
  have alive := (kept.placed p).alive
  unfold enter
  rw [found]
  cases block : k.pcb with
  | none =>
    simp only [block]
    refine kept.goto (by simp) (by simp) rfl ⟨alive, ?_, ?_, ?_⟩
    · rintro _ t ⟨⟩
      exact ⟨fd, has⟩
    · rintro _ t q ⟨⟩
    · rintro t q ⟨⟩
  | some q =>
    simp only [block]
    rw [touchPcb_of (kept.own_block found block)]
    refine kept.goto (by simp) (by simp) rfl ⟨alive, ?_, ?_, ?_⟩
    · rintro _ t ⟨⟩
      exact ⟨fd, has⟩
    · rintro _ t q' ⟨⟩
      exact (pcbOf_of found).trans block
    · rintro t q' ⟨⟩

theorem kept_accept (has : (w.procs p).fds fd = some s) : Kept (sysAccept w p s) := by
  obtain ⟨k, found, _⟩ := kept.found has
  unfold sysAccept
  rw [found]
  cases block : k.pcb with
  | none =>
    simp only [block]
    exact kept
  | some q =>
    simp only [block]
    rw [touchPcb_of (kept.own_block found block)]
    split_ifs
    · refine kept.goto (by simp) (by simp) rfl ⟨(kept.placed p).alive, ?_, ?_, ?_⟩
      · rintro _ t ⟨⟩
        exact ⟨fd, has⟩
      · rintro _ t q' ⟨⟩
        exact (pcbOf_of found).trans block
      · rintro t q' ⟨⟩
    · exact kept
    · exact kept

/-- A round of a loop looks only at what is there. -/
theorem spin_eq (alive : (w.procs p).life = .alive) : spin w (w.procs p).pc = w := by
  cases place : (w.procs p).pc with
  | idle | dropping t => rfl
  | recvUdp t =>
    obtain ⟨k, found, _⟩ := kept.looked (s := t) alive (by rw [place]; rfl)
    exact touchSock_of found
  | onPcb t q | accepting t q =>
    exact touchPcb_of (kept.loop_block (s := t) alive (by rw [place]; rfl))
  | closing t q =>
    obtain ⟨l, found⟩ := (kept.placed p).closing t q place
    exact touchPcb_of (kept.own_block found rfl)
  | holding q =>
    have mine : claim w (.inr p) = some q := by
      show (w.procs p).pc.held = some q
      rw [place]
      rfl
    exact touchPcb_of (kept.settled _ q mine)

theorem kept_leave (alive : (w.procs p).life = .alive) (taken : leave w p = some w') : Kept w' := by
  have same := spin_eq kept alive
  unfold leave at taken
  cases place : (w.procs p).pc with
  | idle | dropping t | closing t q | holding q =>
    rw [place] at taken
    cases taken
  | recvUdp t | onPcb t q | accepting t q =>
    rw [place] at taken same
    simp only [spin] at same
    simp only [same, Option.some.injEq] at taken
    subst taken
    exact kept.rest p

theorem kept_accepted (alive : (w.procs p).life = .alive) {fd : Option (Fin m)}
    (taken : accepted w p fd = some w') : Kept w' := by
  unfold accepted at taken
  split at taken
  · rename_i s q place
    obtain ⟨j, candidate, taken⟩ := bind_eq_some_iff.mp taken
    obtain ⟨used, waits, established⟩ := acceptable_spec candidate
    obtain ⟨k, found, _⟩ := kept.looked (s := s) alive (by rw [place]; rfl)
    have block := kept.loop_block (s := s) (q := q) alive (by rw [place]; rfl)
    rw [touchPcb_of block, touchSock_of found] at taken
    have unowned := kept.unowned (.inr (.inl waits))
    have slotted := kept.reslot { w.pcbs j with pendingAccept := false } unowned
    have now : (w.slot j { w.pcbs j with pendingAccept := false }).pcbs j =
        { w.pcbs j with pendingAccept := false } := update_self _ _ _
    have settled : Settled (w.slot j { w.pcbs j with pendingAccept := false }).pcbs
        ⟨j, (w.pcbs j).gen⟩ := by
      refine ⟨?_, ?_, ?_, ?_⟩ <;> dsimp only <;> rw [now]
      · exact used
      · rw [established]
        simp
    split at taken
    · cases taken
      exact slotted.grab settled unowned
    split_ifs at taken with empty
    cases taken
    refine slotted.install rfl ?_
    rintro q' ⟨⟩
    exact ⟨settled, unowned⟩
  · cases taken

theorem kept_echoClient (taken : tcpEchoClient w p = some w') : Kept w' := by
  obtain ⟨i, found, rfl⟩ := map_eq_some_iff.mp taken
  obtain ⟨slotted, settled, unowned⟩ := kept.made found
  exact slotted.grab settled unowned

/-- A process comes to `sock_close` with a reference that nobody else counts. -/
theorem Kept.drop (idle : (w.procs p).pc = .idle)
    (spare : ∑ j, hold s (w.procs j) + 1 ≤ refsOf w.socks s) : Kept (w.goto p (.dropping s)) := by
  have within : ∀ c q, claim (w.goto p (.dropping s)) c = some q → claim w c = some q := by
    intro c q has
    have given : claim (w.goto p (.dropping s)) = update (claim w) (.inr p) none :=
      claim_proc w p _
    rw [given] at has
    exact drop_claim has
  have counts : ∀ t, ∑ j, hold t (w.procs j) + hold t ((w.procs p).goto (.dropping s)) ≤
      refsOf w.socks t + hold t (w.procs p) := by
    intro t
    have change := hold_pc t (w.procs p) (.dropping s)
    have counted := kept.counted t
    rw [idle, if_neg (by simp)] at change
    rcases eq_or_ne t s with rfl | other
    · rw [if_pos rfl] at change
      omega
    · rw [if_neg (fun same => other (Pc.dropping.inj same).symm)] at change
      omega
  have fits : Placed w.socks ((w.procs p).goto (.dropping s)) := .dropping (kept.placed p).alive rfl
  obtain ⟨placed, counted, closer⟩ := kept.processes fits (fun p' _ => kept.placed p') counts
    (by rintro t q' ⟨⟩)
  exact ⟨placed, counted, closer, fun c q has => kept.settled c q (within c q has),
    kept.exclusive.mono within, kept.registered, kept.fresh, kept.sound⟩

theorem kept_takeFd {v : P} (idle : (w.procs p).pc = .idle)
    (off : v = p ∨ (w.procs v).life = .killed) (taken : takeFd w p v fd = some w') : Kept w' := by
  obtain ⟨s, has, rfl⟩ := map_eq_some_iff.mp taken
  have change : ∀ t, hold t (setFd (w.procs v) fd none) + tick t (some s) = hold t (w.procs v) := by
    intro t
    have set := hold_setFd t (w.procs v) fd none
    rw [has, tick_none] at set
    exact set
  have fits : Placed w.socks (setFd (w.procs v) fd none) := by
    rcases off with rfl | killed
    · exact .idle (kept.placed v).alive idle
    refine { (kept.placed v) with based := ?_ }
    intro alive
    have both := killed.symm.trans alive
    cases both
  have lost : Kept (w.proc v (setFd (w.procs v) fd none)) :=
    kept.move (fun t => by have := change t; omega) fits (fun _ _ place => place)
      (fun _ held => held)
  apply lost.drop
  · show (update w.procs v _ p).pc = .idle
    rcases eq_or_ne p v with rfl | other
    · rw [update_self]
      exact idle
    · rw [update_of_ne other]
      exact idle
  · have total := sum_update (hold s) w.procs v (setFd (w.procs v) fd none)
    have counted := kept.counted s
    have one := change s
    rw [tick_self] at one
    show ∑ j, hold s (update w.procs v _ j) + 1 ≤ refsOf w.socks s
    omega

end

/-- What is left of a reference after `sock_close` has it. -/
theorem hold_dropped (place : proc.pc = .dropping s) (pc : Pc) (calm : ∀ t, pc ≠ .dropping t)
    (t : Nat) : hold t (proc.goto pc) + tick t (some s) = hold t proc := by
  have change := hold_pc t proc pc
  rw [if_neg (calm t), place] at change
  unfold tick
  rcases eq_or_ne s t with rfl | other
  · rw [if_pos rfl] at change ⊢
    exact change
  · rw [if_neg (fun same => other (Pc.dropping.inj same))] at change
    rw [if_neg (fun same => other (Option.some.inj same))]
    exact change

section

variable (kept : Kept w)
include kept

theorem Kept.unregister (s : Nat) : Kept (udpUnregister w s) := by
  refine { kept with registered := ?_ }
  intro i t listed
  change (if w.udpSocks i = some s then none else w.udpSocks i) = some t at listed
  split_ifs at listed
  exact kept.registered i t listed

theorem kept_sockClose (taken : sockClose w p = some w') : Kept w' := by
  unfold sockClose at taken
  split at taken
  · rename_i s place
    have left := hold_dropped place
    have idle := left .idle (by simp)
    have mine := idle s
    rw [tick_self] at mine
    obtain ⟨k, found, used⟩ := kept.referred (s := s) (p := p) (by omega)
    have unclosed := kept.unclosed found used
    have alive := (kept.placed p).alive
    rw [found] at taken
    dsimp only at taken
    split_ifs at taken with shared
    · cases taken
      refine kept.resock found unclosed rfl ?_ ?_ (.idle alive rfl) ?_ ?_
      · show hold s ((w.procs p).goto .idle) + k.refs ≤ hold s (w.procs p) + (k.refs - 1)
        omega
      · intro t _
        have less := idle t
        show hold t ((w.procs p).goto .idle) ≤ hold t (w.procs p)
        omega
      · rintro t q ⟨⟩
      · rintro q ⟨⟩
    · cases has : k.pcb with
      | none =>
        rw [has] at taken
        cases taken
        refine (kept.unregister s).forget ?_ ?_ alive rfl ?_ ?_
        · have total := sum_update (hold s) w.procs p ((w.procs p).goto .idle)
          have counted := kept.counted s
          rw [refsOf_of found] at counted
          show ∑ j, hold s (update w.procs p ((w.procs p).goto .idle) j) = 0
          omega
        · intro t _
          have less := idle t
          show hold t ((w.procs p).goto .idle) ≤ hold t (w.procs p)
          omega
        · intro p' q closing
          exact absurd closing (unclosed p' q)
        · intro i listed
          change (if w.udpSocks i = some s then none else w.udpSocks i) = some s at listed
          split_ifs at listed with other
          exact other listed
      | some q =>
        rw [has] at taken
        dsimp only at taken
        rw [touchPcb_of (kept.own_block found has)] at taken
        cases taken
        refine kept.resock found unclosed has.symm ?_ ?_ ?_ ?_ ?_
        · have closing := left (.closing s q) (by simp) s
          rw [tick_self] at closing
          show hold s ((w.procs p).goto (.closing s q)) + k.refs ≤ hold s (w.procs p) + 0
          omega
        · intro t _
          have less := left (.closing s q) (by simp) t
          show hold t ((w.procs p).goto (.closing s q)) ≤ hold t (w.procs p)
          omega
        · refine ⟨alive, ?_, ?_, ?_⟩
          · rintro _ t ⟨⟩
          · rintro _ t q' ⟨⟩
          · rintro t q' ⟨⟩
            exact ⟨k.listening, w.sock_get s _⟩
        · rintro t q' ⟨⟩
          exact .inl rfl
        · rintro q' ⟨⟩
  · cases taken

theorem kept_closeEnd (taken : closeEnd w p = some w') : Kept w' := by
  unfold closeEnd at taken
  split at taken
  · rename_i s q place
    obtain ⟨l, found⟩ := (kept.placed p).closing s q place
    have mine : claim w (.inl s) = some q := pcbOf_of found
    have settled := kept.settled _ q mine
    unfold tcpPcbFree at taken
    rw [touchSock_of found, touchPcb_of settled] at taken
    cases taken
    have freed : Kept ((w.sock s none).goto p .idle) := by
      refine kept.forget ?_ ?_ (kept.placed p).alive rfl ?_ ?_
      · have total := sum_update (hold s) w.procs p ((w.procs p).goto .idle)
        have counted := kept.counted s
        have less := hold_pc_le s (w.procs p) .idle (by simp)
        rw [refsOf_of found] at counted
        show ∑ j, hold s (update w.procs p ((w.procs p).goto .idle) j) = 0
        dsimp only at counted
        omega
      · intro t _
        exact hold_pc_le t _ _ (by simp)
      · intro p' q' closing
        exact kept.closer p' p s q' q closing place
      · intro i listed
        obtain ⟨x, there, plain⟩ := kept.registered i s listed
        rw [found] at there
        cases there
        cases plain
    -- the block goes after its socket, so that it has no owner when it is cleared
    refine freed.reslot _ ?_
    intro c q' has
    have dropped : claim ((w.sock s none).goto p .idle) =
        update (update (claim w) (.inl s) none) (.inr p) none := by
      show claim ((w.sock s none).proc p _) = _
      rw [claim_proc, claim_sock]
      rfl
    rw [dropped] at has
    exact kept.exclusive.dropped mine c q' (drop_claim has)
  · rename_i q place
    have mine : claim w (.inr p) = some q := by
      show (w.procs p).pc.held = some q
      rw [place]
      rfl
    unfold tcpPcbFree at taken
    rw [touchPcb_of (kept.settled _ q mine)] at taken
    cases taken
    refine (kept.rest p).reslot _ ?_
    intro c q' has
    have dropped : claim (w.goto p .idle) = update (claim w) (.inr p) none :=
      claim_proc w p _
    rw [dropped] at has
    exact kept.exclusive.dropped mine c q' has
  · cases taken

omit kept in
theorem onFd_some {f : Nat → World P m} (taken : onFd w p fd f = some w') :
    (w.procs p).pc = .idle ∧ ∃ s, (w.procs p).fds fd = some s ∧ f s = w' := by
  unfold onFd at taken
  split_ifs at taken with idle
  exact ⟨idle, map_eq_some_iff.mp taken⟩

theorem kept_call (running : (w.procs p).onCpu = true) {c : Call P m}
    (taken : call w p c = some w') : Kept w' := by
  have alive := (kept.placed p).alive running
  cases c with
  | socketTcp fd =>
    simp only [call, newFd] at taken
    split_ifs at taken
    cases taken
    exact kept_socketTcp kept
  | socketUdp fd =>
    simp only [call, newFd] at taken
    split_ifs at taken
    cases taken
    exact kept_socketUdp kept
  | visit fd =>
    obtain ⟨-, s, has, rfl⟩ := onFd_some taken
    obtain ⟨k, found, _⟩ := kept.found has
    rwa [visit_eq kept found]
  | listen fd =>
    obtain ⟨-, s, has, rfl⟩ := onFd_some taken
    obtain ⟨k, found, used⟩ := kept.found has
    exact kept_listen kept found used p
  | retain fd =>
    simp only [call] at taken
    split_ifs at taken with empty
    obtain ⟨idle, s, has, rfl⟩ := onFd_some taken
    obtain ⟨k, found, used⟩ := kept.found has
    refine kept.retain found used ?_ (.idle (kept.placed p).alive idle) rfl
    intro t
    have change := hold_spare t (w.procs p) (some s)
    rw [empty, tick_none] at change
    exact change
  | installSpare fd =>
    simp only [call, newFd] at taken
    split_ifs at taken with free
    cases taken
    refine kept.move ?_ (.idle (kept.placed p).alive free.1) (fun _ _ place => place)
      (fun _ held => held)
    intro t
    have set := hold_setFd t (w.procs p) fd (w.procs p).spare
    have given := hold_spare t (setFd (w.procs p) fd (w.procs p).spare) none
    rw [tick_none] at given
    change hold t _ + tick t (w.procs p).spare = _ at given
    omega
  | enter fd =>
    obtain ⟨-, s, has, rfl⟩ := onFd_some taken
    exact kept_enter kept has
  | accept fd =>
    obtain ⟨-, s, has, rfl⟩ := onFd_some taken
    exact kept_accept kept has
  | echoClient =>
    simp only [call] at taken
    split_ifs at taken
    exact kept_echoClient kept taken
  | spin =>
    cases taken
    rwa [spin_eq kept alive]
  | leave => exact kept_leave kept alive taken
  | accepted fd => exact kept_accepted kept alive taken
  | close fd =>
    simp only [call] at taken
    split_ifs at taken with idle
    exact kept_takeFd kept idle (.inl rfl) taken
  | reap v fd =>
    simp only [call] at taken
    split_ifs at taken with ready
    exact kept_takeFd kept ready.1 (.inr ready.2) taken
  | sockClose => exact kept_sockClose kept taken
  | closeEnd => exact kept_closeEnd kept taken
  | abandon =>
    cases taken
    refine kept.move ?_ (.idle (kept.placed p).alive rfl) (by rintro s q ⟨⟩) (by rintro q ⟨⟩)
    intro t
    have less := hold_pc_le t ((w.procs p).retain none) .idle (by simp)
    have given := hold_spare t (w.procs p) none
    rw [tick_none] at given
    omega

/-- A step keeps the books, if no torn-down process is taken. -/
theorem kept_perform {a : Act P m} (allowed : spared w a = true) (taken : perform w a = some w') :
    Kept w' := by
  cases a with
  | run p c =>
    simp only [perform] at taken
    split_ifs at taken with running
    exact kept_call kept running taken
  | switchIn p =>
    have alive : (w.procs p).life = .alive := of_decide_eq_true allowed
    simp only [perform] at taken
    split_ifs at taken
    cases taken
    have placed := kept.placed p
    exact kept.move (fun _ => Nat.le_refl _)
      { placed with alive := fun _ => alive } (fun _ _ place => place)
      (fun _ held => held)
  | switchOut p =>
    cases taken
    have placed := kept.placed p
    exact kept.move (fun _ => Nat.le_refl _)
      { placed with alive := by simp } (fun _ _ place => place)
      (fun _ held => held)
  | kill v =>
    simp only [perform] at taken
    split_ifs at taken with off
    cases taken
    refine kept.move (fun _ => Nat.le_refl _) ⟨?_, by simp, by simp, (kept.placed v).closing⟩
      (fun _ _ place => place) (fun _ held => held)
    intro running
    have both := off.1.symm.trans running
    cases both
  | dequeue v =>
    simp only [perform] at taken
    split_ifs at taken with off
    cases taken
    refine kept.move (fun _ => Nat.le_refl _) ⟨?_, by simp, by simp, (kept.placed v).closing⟩
      (fun _ _ place => place) (fun _ held => held)
    intro running
    have both := off.1.symm.trans ((kept.placed v).alive running)
    cases both
  | inherit p child fd =>
    simp only [perform] at taken
    split_ifs at taken with empty
    obtain ⟨s, has, rfl⟩ := map_eq_some_iff.mp taken
    obtain ⟨k, found, used⟩ := kept.found has
    refine kept.retain found used ?_ ((kept.placed child).gain empty _) rfl
    intro t
    have set := hold_setFd t (w.procs child) fd (some s)
    rw [empty, tick_none] at set
    exact set
  | deliver i =>
    obtain ⟨s, listed, rfl⟩ := map_eq_some_iff.mp taken
    obtain ⟨k, found, _⟩ := kept.registered i s listed
    rwa [touchSock_of found]
  | listenEcho =>
    obtain ⟨i, found, rfl⟩ := map_eq_some_iff.mp taken
    exact kept.reslot _ (kept.unowned (.inl (free_slot found)))
  | arrive l =>
    simp only [perform] at taken
    split_ifs at taken
    obtain ⟨i, found, rfl⟩ := map_eq_some_iff.mp taken
    exact kept.reslot _ (kept.unowned (.inl (free_slot found)))
  | establish j =>
    simp only [perform] at taken
    split_ifs at taken with half
    cases taken
    exact kept.reslot _ (kept.unowned (.inr (.inr half.2)))
  | advance j state =>
    simp only [perform] at taken
    split_ifs at taken with moves
    cases taken
    exact kept.restate j state moves.2

end

theorem kept_initial : Kept (initial : World P m) := by
  refine ⟨fun _ => .idle (by simp [initial]) rfl, ?_, ?_, ?_, ?_, ?_, fun _ _ => rfl, rfl⟩
  · intro s
    have none : ∀ p, hold s ((initial : World P m).procs p) = 0 := by
      intro p
      simp [hold, initial, tick]
    simp [none]
  · rintro p p' s q q' ⟨⟩
  · rintro (s | p) q ⟨⟩
  · rintro (s | p) c' q q' ⟨⟩
  · rintro i s ⟨⟩

end

/-- Steps that meet the condition. -/
def careful [DecidableEq P] (w : World P m) (a : Act P m) : Option (World P m) :=
  if spared w a = true then perform w a else none

theorem careful_spec [DecidableEq P] (w : World P m) (a : Act P m) (w' : World P m)
    (taken : careful w a = some w') : spared w a = true ∧ (sockets P m).step w a w' := by
  unfold careful at taken
  split_ifs at taken with allowed
  exact ⟨allowed, taken⟩

end IcsOs.Net.SockLifetimes
