/- GID: IcsOs/Process/WaitQueue
   generality: I
   source: kernel/process/process.c, kernel/process/process.h, kernel/vfs/posixfd.c
   digest: Exit statuses of children are queued at the parent and reaped by waitpid. -/

import IcsOs.Lib.Ledger
import IcsOs.Lib.Runs
import IcsOs.Lib.Updates

set_option autoImplicit false

namespace IcsOs.Process.WaitQueue

open Function List Finset
open Lib.Ledger Lib.Runs Lib.Updates

abbrev Pid := Nat

def waitqMax : Nat := 64

/-- `sys` is `ACCESS_SYS`; `thread`, `unloadable` and `dying` are status bits. -/
structure Pcb where
  owner : Pid
  sys : Bool
  thread : Bool
  unloadable : Bool
  dying : Bool
  exitStatus : Nat
  nlive : Nat
  waitq : List (Pid × Nat)

/-- Threads and the kernel's own tasks are nobody's children. -/
def Pcb.parent (b : Pcb) : Option Pid :=
  if b.thread = true ∨ b.unloadable = true then none else some b.owner

inductive Phase
  | scan
  | check
  | rescan
  deriving DecidableEq

/-- A `sys_waitpid` under way; the target `none` is any child. -/
structure Waiting where
  target : Option Pid
  nohang : Bool
  phase : Phase
  deriving DecidableEq

/-- A process's parent, how it ended, and the statuses returned for it. -/
structure Life where
  parent : Option Pid
  ended : Option Nat
  deliveries : List Nat

def Life.none : Life := ⟨Option.none, Option.none, []⟩

/-- The ready queue by id, and the calls; `spawning` is a loaded `nlive`. -/
structure World where
  live : Finset Pid
  pcb : Pid → Pcb
  next : Pid
  spawning : Pid → Option Nat
  waiting : Pid → Option Waiting
  life : Pid → Life

def World.setPcb (w : World) (p : Pid) (b : Pcb) : World :=
  { w with pcb := Function.update w.pcb p b }

/-- The status is dropped when the queue is full. -/
def waitqPublish (b : Pcb) (child : Pid) (status : Nat) : Pcb :=
  { b with
    nlive := b.nlive - 1
    waitq := if b.waitq.length < waitqMax then b.waitq ++ [(child, status)] else b.waitq }

/-- The first match and the queue without it. -/
def waitqReap (target : Option Pid) :
    List (Pid × Nat) → Option ((Pid × Nat) × List (Pid × Nat))
  | [] => none
  | entry :: rest =>
    if target = none ∨ target = some entry.1 then some (entry, rest)
    else (waitqReap target rest).map fun got => (got.1, entry :: got.2)

def newPcb (owner : Pid) (sys thread : Bool) : Pcb where
  owner := owner
  sys := sys
  thread := thread
  unloadable := false
  dying := false
  exitStatus := 0
  nlive := 0
  waitq := []

/-- A new control block is queued under the next id. -/
def enqueue (w : World) (b : Pcb) (life : Life) : World :=
  { w with
    live := insert w.next w.live
    pcb := Function.update w.pcb w.next b
    next := w.next + 1
    spawning := Function.update w.spawning w.next none
    waiting := Function.update w.waiting w.next none
    life := Function.update w.life w.next life }

/-- A child process of `p`, whose live count becomes `count`. -/
def addChild (w : World) (p : Pid) (count : Nat) : World :=
  enqueue (w.setPcb p { w.pcb p with nlive := count }) (newPcb p false false) ⟨some p, none, []⟩

def forkHasOtherThreads (w : World) (p : Pid) : Bool :=
  decide (∃ q ∈ w.live, (w.pcb q).thread = true ∧ (w.pcb q).owner = p)

/-- `ready`: memory and descriptors could be cloned. -/
def fork (w : World) (p : Pid) (ready : Bool) : World :=
  let b := w.pcb p
  if b.sys = true ∨ b.thread = true ∨ forkHasOtherThreads w p = true ∨
      waitqMax ≤ b.nlive + b.waitq.length ∨ ready = false then w
  else addChild w p (b.nlive + 1)

/-- The live count goes up without a lock: load, then store. -/
def createprocessLoad (w : World) (p : Pid) : World :=
  { w with spawning := Function.update w.spawning p (some (w.pcb p).nlive) }

def createprocessStore (w : World) (p : Pid) : World :=
  match w.spawning p with
  | none => w
  | some n => addChild { w with spawning := Function.update w.spawning p none } p (n + 1)

/-- Also `createuthread` and, for `sys`, `createkthread`. -/
def createthread (w : World) (p : Pid) (sys : Bool) : World :=
  enqueue w (newPcb p sys true) .none

def psDequeue (w : World) (p : Pid) : World := { w with live := w.live.erase p }

def endLife (w : World) (p : Pid) : World :=
  { w with
    life := Function.update w.life p { w.life p with ended := some (w.pcb p).exitStatus } }

/-- The status of `p` goes to its owner, if that is still queued. -/
def publishTo (w : World) (owner p : Pid) : World :=
  if owner ∈ w.live then
    w.setPcb owner (waitqPublish (w.pcb owner) p (w.pcb p).exitStatus)
  else w

def selfExitCurrent (w : World) (p : Pid) : World :=
  let owner := (w.pcb p).owner
  psDequeue (endLife (if owner ≠ p then publishTo w owner p else w) p) p

/-- `exit` keeps the low byte of the value. -/
def exit (w : World) (p : Pid) (val : Nat) : World :=
  selfExitCurrent (w.setPcb p { w.pcb p with exitStatus := val % 256 }) p

/-- `running`: the victim is on a CPU. `kill_children` looks at its own block only, and
`dex32_killkthread` gets an address for an id. -/
def killProcess (w : World) (p : Pid) (running : Bool) : World :=
  let b := w.pcb p
  if p ∉ w.live ∨ b.unloadable = true ∨ b.dying = true then w
  else if running then w.setPcb p { b with dying := true }
  else if b.sys then w
  else if b.thread then psDequeue w p
  else psDequeue (endLife (publishTo w b.owner p) p) p

/-- Of a program that loads: the new block takes over id and owner. -/
def sysExecve (w : World) (p : Pid) (loads : Bool) : World :=
  if loads then
    { w.setPcb p (newPcb (w.pcb p).owner false false) with next := w.next + 1 }
  else w

inductive WaitResult
  | reaped (child : Pid) (status : Nat)
  | echild
  | nothing
  deriving DecidableEq

/-- Is it still worth waiting? -/
def alive (w : World) (p : Pid) : Option Pid → Bool
  | none => decide (0 < (w.pcb p).nlive)
  | some c => decide (c ∈ w.live ∧ (w.pcb c).owner = p ∧ (w.pcb c).thread = false)

/-- Ids other than a positive one and -1 are refused. -/
def sysWaitpid (w : World) (p : Pid) (pid : Int) (nohang : Bool) : World :=
  if pid < -1 ∨ pid = 0 then w
  else
    { w with
      waiting := Function.update w.waiting p
        (some ⟨if pid = -1 then none else some pid.toNat, nohang, .scan⟩) }

def leaveWait (w : World) (p : Pid) : World :=
  { w with waiting := Function.update w.waiting p none }

def setPhase (w : World) (p : Pid) (call : Waiting) (phase : Phase) : World :=
  { w with waiting := Function.update w.waiting p (some { call with phase := phase }) }

/-- The status leaves the queue and the call returns it. -/
def deliver (w : World) (p : Pid) (entry : Pid × Nat) (rest : List (Pid × Nat)) : World :=
  let life := w.life entry.1
  { leaveWait (w.setPcb p { w.pcb p with waitq := rest }) p with
    life := Function.update w.life entry.1
      { life with deliveries := life.deliveries ++ [entry.2] } }

/-- A section of the loop, with what it returns if it does. -/
def waitStep (w : World) (p : Pid) : World × Option WaitResult :=
  match w.waiting p with
  | none => (w, none)
  | some call =>
    match call.phase with
    | .scan =>
      match waitqReap call.target (w.pcb p).waitq with
      | some (entry, rest) => (deliver w p entry rest, some (.reaped entry.1 entry.2))
      | none => (setPhase w p call .check, none)
    | .check =>
      if alive w p call.target then
        if call.nohang then (leaveWait w p, some .nothing)
        else (setPhase w p call .scan, none)
      else (setPhase w p call .rescan, none)
    | .rescan =>
      match waitqReap call.target (w.pcb p).waitq with
      | some (entry, rest) => (deliver w p entry rest, some (.reaped entry.1 entry.2))
      | none => (leaveWait w p, some .echild)

inductive Op
  | fork (p : Pid) (ready : Bool)
  | createprocessLoad (p : Pid)
  | createprocessStore (p : Pid)
  | createthread (p : Pid) (sys : Bool)
  | exit (p : Pid) (val : Nat)
  | sigterm (p : Pid)
  | kill (p : Pid) (running : Bool)
  | execve (p : Pid) (loads : Bool)
  | waitpid (p : Pid) (pid : Int) (nohang : Bool)
  | waitStep (p : Pid)

def performOp (w : World) : Op → World
  | .fork p ready => fork w p ready
  | .createprocessLoad p => createprocessLoad w p
  | .createprocessStore p => createprocessStore w p
  | .createthread p sys => createthread w p sys
  | .exit p val => exit w p val
  | .sigterm p => selfExitCurrent w p
  | .kill p running => killProcess w p running
  | .execve p loads => sysExecve w p loads
  | .waitpid p pid nohang => sysWaitpid w p pid nohang
  | .waitStep p => (waitStep w p).1

/-- A queued process that is in no call. -/
def Idle (w : World) (p : Pid) : Prop := p ∈ w.live ∧ w.spawning p = none ∧ w.waiting p = none

/-- A process in a call does nothing else; the kernel's tasks never leave. -/
def Issued (w : World) : Op → Prop
  | .fork p _ | .createprocessLoad p | .createthread p _ | .waitpid p _ _ => Idle w p
  | .createprocessStore p | .waitStep p => p ∈ w.live
  | .exit p _ | .execve p _ => Idle w p ∧ (w.pcb p).unloadable = false
  | .sigterm p => p ∈ w.live ∧ (w.pcb p).unloadable = false
  | .kill _ _ => True

/-- The kernel's own tasks, without children. -/
def processes : System World Op where
  start w := (∀ p ∈ w.live, p < w.next ∧ (w.pcb p).unloadable = true ∧ (w.pcb p).nlive = 0 ∧
      (w.pcb p).waitq = [] ∧ w.spawning p = none ∧ w.waiting p = none) ∧
    ∀ p, w.life p = .none
  step w op w' := Issued w op ∧ w' = performOp w op

/-- Children whose status was not returned yet. -/
def unreaped (w : World) (p : Pid) : Finset Pid :=
  (Finset.range w.next).filter fun c => (w.life c).parent = some p ∧ (w.life c).deliveries = []

/-- The children of a process that are still queued. -/
def children (w : World) (p : Pid) : Nat := tally w.live (fun c => (w.pcb c).parent) p

/-- The statuses a process has for children that left: each waits in its queue, or was returned. -/
structure Statuses (w : World) (p : Pid) : Prop where
  nodup : ((w.pcb p).waitq.map Prod.fst).Nodup
  queued : ∀ c status, (c, status) ∈ (w.pcb p).waitq →
    c ∉ w.live ∧ w.life c = ⟨some p, some status, []⟩
  gone : ∀ c, c ∉ w.live → (w.life c).parent = some p → ∃ status,
    (w.life c).ended = some status ∧
      ((w.life c).deliveries = [] ∧ (c, status) ∈ (w.pcb p).waitq ∨
        (w.life c).deliveries = [status])

/-- The others are counted, and there is room for their statuses. -/
structure Books (w : World) (p : Pid) : Prop extends Statuses w p where
  count : (w.pcb p).nlive = children w p
  room : (w.pcb p).nlive + (w.pcb p).waitq.length ≤ waitqMax
  loaded : ∀ n, w.spawning p = some n →
    n = (w.pcb p).nlive ∧ n + (w.pcb p).waitq.length < waitqMax ∧ w.waiting p = none
  rescan : ∀ call, w.waiting p = some call → call.phase = .rescan → alive w p call.target = false

/-- The books of every queued process, and who is whose child. -/
structure Sound (w : World) : Prop where
  below : ∀ c ∈ w.live, c < w.next
  parent_below : ∀ c p, (w.life c).parent = some p → p < w.next
  kin : ∀ c ∈ w.live, ∀ p, (w.pcb c).parent = some p → p ≠ c ∧ w.life c = ⟨some p, none, []⟩
  known : ∀ c ∈ w.live, ∀ p, (w.life c).parent = some p → (w.pcb c).parent = some p
  undying : ∀ c ∈ w.live, ∀ p, (w.pcb c).parent = some p → (w.pcb c).dying = false
  books : ∀ p ∈ w.live, Books w p
  fresh : ∀ c, w.next ≤ c → w.life c = .none

variable {w' : World} {status : Nat}

section

variable {w : World} {p q c : Pid} {b : Pcb}

@[simp] theorem setPcb_self (w : World) (p : Pid) (b : Pcb) : (w.setPcb p b).pcb p = b := by
  simp [World.setPcb]

theorem setPcb_ne (w : World) (b : Pcb) (apart : q ≠ p) : (w.setPcb p b).pcb q = w.pcb q := by
  simp [World.setPcb, apart]

theorem parent_eq_some : b.parent = some p ↔
    b.thread = false ∧ b.unloadable = false ∧ b.owner = p := by
  unfold Pcb.parent
  cases b.thread <;> cases b.unloadable <;> simp

theorem alive_some : alive w p (some c) = true ↔
    c ∈ w.live ∧ (w.pcb c).owner = p ∧ (w.pcb c).thread = false := by
  simp [alive]

theorem not_alive_mono {target : Option Pid} (fewer : (w'.pcb p).nlive ≤ (w.pcb p).nlive)
    (found : ∀ c ∈ w'.live, (w'.pcb c).owner = p → (w'.pcb c).thread = false →
      c ∈ w.live ∧ (w.pcb c).owner = p ∧ (w.pcb c).thread = false)
    (none : alive w p target = false) : alive w' p target = false := by
  cases target with
  | none =>
    simp only [alive, decide_eq_false_iff_not] at none ⊢
    omega
  | some c =>
    rw [← Bool.not_eq_true] at none ⊢
    intro there
    obtain ⟨live, owner, thread⟩ := alive_some.mp there
    exact none (alive_some.mpr (found c live owner thread))

/-- The children of `p` that left are the same. -/
def SameGone (w w' : World) (p : Pid) : Prop :=
  ∀ c, c ∉ w.live ∧ (w.life c).parent = some p ∨ c ∉ w'.live ∧ (w'.life c).parent = some p →
    w'.life c = w.life c ∧ (c ∈ w'.live ↔ c ∈ w.live)

theorem Statuses.frame (statuses : Statuses w p) (waitq : (w'.pcb p).waitq = (w.pcb p).waitq)
    (same : SameGone w w' p) : Statuses w' p := by
  constructor
  · rw [waitq]
    exact statuses.nodup
  · intro c status entry
    rw [waitq] at entry
    obtain ⟨gone, life⟩ := statuses.queued c status entry
    obtain ⟨kept, there⟩ := same c (.inl ⟨gone, by rw [life]⟩)
    exact ⟨there.not.mpr gone, kept.trans life⟩
  · intro c gone made
    obtain ⟨kept, there⟩ := same c (.inr ⟨gone, made⟩)
    rw [kept] at made ⊢
    rw [waitq]
    exact statuses.gone c (there.not.mp gone) made

/-- A process whose block, calls and children stay as they were. -/
structure Apart (w w' : World) (p : Pid) : Prop where
  nlive : (w'.pcb p).nlive = (w.pcb p).nlive
  waitq : (w'.pcb p).waitq = (w.pcb p).waitq
  calls : w'.spawning p = w.spawning p ∧ w'.waiting p = w.waiting p
  children : WaitQueue.children w' p = WaitQueue.children w p
  gone : SameGone w w' p
  found : ∀ c ∈ w'.live, (w'.pcb c).owner = p → (w'.pcb c).thread = false →
    c ∈ w.live ∧ (w.pcb c).owner = p ∧ (w.pcb c).thread = false

theorem Books.frame (books : Books w p) (apart : Apart w w' p) : Books w' p where
  toStatuses := books.toStatuses.frame apart.waitq apart.gone
  count := by
    rw [apart.nlive, apart.children]
    exact books.count
  room := by
    rw [apart.nlive, apart.waitq]
    exact books.room
  loaded := by
    rw [apart.nlive, apart.waitq, apart.calls.1, apart.calls.2]
    exact books.loaded
  rescan := by
    intro call waiting phase
    rw [apart.calls.2] at waiting
    exact not_alive_mono (le_of_eq apart.nlive) apart.found (books.rescan call waiting phase)

/-- Changing what waiting does not read. -/
theorem Sound.setPcb_same (sound : Sound w) (owner : b.owner = (w.pcb p).owner)
    (thread : b.thread = (w.pcb p).thread) (unloadable : b.unloadable = (w.pcb p).unloadable)
    (nlive : b.nlive = (w.pcb p).nlive) (waitq : b.waitq = (w.pcb p).waitq)
    (dying : (w.pcb p).dying = false → b.dying = false) : Sound (w.setPcb p b) := by
  have same : ∀ q, ((w.setPcb p b).pcb q).owner = (w.pcb q).owner ∧
      ((w.setPcb p b).pcb q).thread = (w.pcb q).thread ∧
      ((w.setPcb p b).pcb q).parent = (w.pcb q).parent ∧
      ((w.setPcb p b).pcb q).nlive = (w.pcb q).nlive ∧
      ((w.setPcb p b).pcb q).waitq = (w.pcb q).waitq ∧
      ((w.pcb q).dying = false → ((w.setPcb p b).pcb q).dying = false) := by
    intro q
    by_cases here : q = p
    · subst here
      rw [setPcb_self]
      unfold Pcb.parent
      rw [owner, thread, unloadable]
      exact ⟨rfl, rfl, rfl, nlive, waitq, dying⟩
    · rw [setPcb_ne w b here]
      exact ⟨rfl, rfl, rfl, rfl, rfl, id⟩
  refine { sound with kin := fun c member q parent => ?_, known := fun c member q made => ?_
                      undying := fun c member q parent => (same c).2.2.2.2.2 ?_
                      books := fun q member => (sound.books q member).frame ?_ }
  · rw [(same c).2.2.1] at parent
    exact sound.kin c member q parent
  · rw [(same c).2.2.1]
    exact sound.known c member q made
  · rw [(same c).2.2.1] at parent
    exact sound.undying c member q parent
  · refine ⟨(same q).2.2.2.1, (same q).2.2.2.2.1, ⟨rfl, rfl⟩,
      tally_congr (fun c _ => (same c).2.2.1) q, fun _ _ => ⟨rfl, Iff.rfl⟩, ?_⟩
    intro c live owned running
    exact ⟨live, (same c).1.symm.trans owned, (same c).2.1.symm.trans running⟩

variable {child : Option Pid}

/-- The new block of `p`'s child, or of a thread. -/
def credit (w : World) : Option Pid → World
  | none => w
  | some p => w.setPcb p { w.pcb p with nlive := (w.pcb p).nlive + 1 }

def lifeOf : Option Pid → Life
  | none => .none
  | some p => ⟨some p, none, []⟩

theorem credit_pcb (w : World) (child : Option Pid) (q : Pid) :
    ((credit w child).pcb q).parent = (w.pcb q).parent ∧
      ((credit w child).pcb q).owner = (w.pcb q).owner ∧
      ((credit w child).pcb q).thread = (w.pcb q).thread ∧
      ((credit w child).pcb q).waitq = (w.pcb q).waitq ∧
      ((credit w child).pcb q).nlive = (w.pcb q).nlive + share child q ∧
      ((credit w child).pcb q).dying = (w.pcb q).dying := by
  cases child with
  | none => exact ⟨rfl, rfl, rfl, rfl, rfl, rfl⟩
  | some p =>
    by_cases here : q = p
    · subst here
      unfold credit
      rw [setPcb_self, share_self]
      exact ⟨rfl, rfl, rfl, rfl, rfl, rfl⟩
    · unfold credit
      rw [setPcb_ne w _ here, share_ne (Ne.symm here)]
      exact ⟨rfl, rfl, rfl, rfl, rfl, rfl⟩

/-- A child process of a parent with room is queued, or a thread. -/
structure Grown (w w' : World) (child : Option Pid) : Prop where
  live : w'.live = insert w.next w.live
  next : w'.next = w.next + 1
  new : (w'.pcb w.next).parent = child ∧ (w'.pcb w.next).nlive = 0 ∧ (w'.pcb w.next).waitq = []
  thread : (w'.pcb w.next).thread = false → child = some (w'.pcb w.next).owner
  parent : ∀ q, q ≠ w.next → (w'.pcb q).parent = (w.pcb q).parent
  found : ∀ q, q ≠ w.next → (w'.pcb q).owner = (w.pcb q).owner ∧
    (w'.pcb q).thread = (w.pcb q).thread
  waitq : ∀ q, q ≠ w.next → (w'.pcb q).waitq = (w.pcb q).waitq
  nlive : ∀ q, q ≠ w.next → (w'.pcb q).nlive = (w.pcb q).nlive + share child q
  marks : (w'.pcb w.next).dying = false ∧
    ∀ q, q ≠ w.next → (w'.pcb q).dying = (w.pcb q).dying
  idle : w'.spawning w.next = none ∧ w'.waiting w.next = none
  calls : ∀ q, q ≠ w.next → w'.spawning q = w.spawning q ∧ w'.waiting q = w.waiting q
  newLife : w'.life w.next = lifeOf child
  life : ∀ q, q ≠ w.next → w'.life q = w.life q

theorem grown_enqueue (w : World) {b : Pcb} (parent : b.parent = child)
    (thread : b.thread = false → child = some b.owner) (empty : b.nlive = 0 ∧ b.waitq = [])
    (mark : b.dying = false) :
    Grown w (enqueue (credit w child) b (lifeOf child)) child := by
  have same : (credit w child).live = w.live ∧ (credit w child).next = w.next ∧
      (credit w child).spawning = w.spawning ∧ (credit w child).waiting = w.waiting ∧
      (credit w child).life = w.life := by
    cases child with
    | none => exact ⟨rfl, rfl, rfl, rfl, rfl⟩
    | some p => exact ⟨rfl, rfl, rfl, rfl, rfl⟩
  obtain ⟨live, next, spawning, waiting, life⟩ := same
  have new : (enqueue (credit w child) b (lifeOf child)).pcb w.next = b := by simp [enqueue, next]
  have old : ∀ q, q ≠ w.next →
      (enqueue (credit w child) b (lifeOf child)).pcb q = (credit w child).pcb q := by
    intro q apart
    simp [enqueue, next, apart]
  constructor
  · simp [enqueue, next, live]
  · simp [enqueue, next]
  · rw [new]
    exact ⟨parent, empty⟩
  · rw [new]
    exact thread
  · intro q apart
    rw [old q apart]
    exact (credit_pcb w child q).1
  · intro q apart
    rw [old q apart]
    exact ⟨(credit_pcb w child q).2.1, (credit_pcb w child q).2.2.1⟩
  · intro q apart
    rw [old q apart]
    exact (credit_pcb w child q).2.2.2.1
  · intro q apart
    rw [old q apart]
    exact (credit_pcb w child q).2.2.2.2.1
  · rw [new]
    exact ⟨mark, fun q apart => by rw [old q apart, (credit_pcb w child q).2.2.2.2.2]⟩
  · simp [enqueue, next]
  · intro q apart
    simp [enqueue, next, apart, spawning, waiting]
  · simp [enqueue, next]
  · intro q apart
    simp [enqueue, next, apart, life]

theorem Grown.children_eq (grown : Grown w w' child) (sound : Sound w) (q : Pid) :
    children w' q = children w q + share child q := by
  have fresh : w.next ∉ w.live := fun member => Nat.lt_irrefl _ (sound.below _ member)
  have here : w.next ∈ insert w.next w.live := Finset.mem_insert_self _ _
  unfold children
  rw [grown.live, tally_erase _ here, erase_insert fresh, grown.new.1]
  congr 1
  apply tally_congr
  intro c member
  exact grown.parent c fun same => fresh (same ▸ member)

/-- Who gets a child has room for its status and no other call. -/
def Able (w : World) (child : Option Pid) : Prop :=
  ∀ p, child = some p → p ∈ w.live ∧ w.spawning p = none ∧ w.waiting p = none ∧
    (w.pcb p).nlive + (w.pcb p).waitq.length < waitqMax

theorem share_of_ne (apart : child ≠ some q) : share child q = 0 :=
  if_neg apart

theorem Grown.mem (grown : Grown w w' child) : c ∈ w'.live ↔ c = w.next ∨ c ∈ w.live := by
  rw [grown.live, mem_insert]

/-- The books of a process that was there before. -/
theorem Grown.oldBooks (grown : Grown w w' child) (sound : Sound w) (able : Able w child)
    (old : p ∈ w.live) : Books w' p := by
  have books := sound.books p old
  have away := (sound.below p old).ne
  have nlive := grown.nlive p away
  have waitq := grown.waitq p away
  have calls := grown.calls p away
  have unborn := sound.fresh w.next (Nat.le_refl _)
  refine ⟨books.toStatuses.frame waitq fun c gone => ?_, ?_, ?_, ?_, ?_⟩
  · have other : c ≠ w.next := by
      rintro rfl
      rcases gone with ⟨-, made⟩ | ⟨gone, -⟩
      · rw [unborn] at made
        cases made
      · exact gone (grown.mem.mpr (.inl rfl))
    exact ⟨grown.life c other, by rw [grown.mem, or_iff_right other]⟩
  · rw [nlive, grown.children_eq sound, books.count]
  · rw [nlive, waitq]
    by_cases is : child = some p
    · have space := (able p is).2.2.2
      rw [is, share_self]
      omega
    · rw [share_of_ne is]
      exact books.room
  · intro n loading
    rw [calls.1] at loading
    have other : child ≠ some p := by
      intro is
      rw [(able p is).2.1] at loading
      cases loading
    rw [nlive, waitq, calls.2, share_of_ne other]
    exact books.loaded n loading
  · intro call waiting phase
    rw [calls.2] at waiting
    have other : child ≠ some p := by
      intro is
      rw [(able p is).2.2.1] at waiting
      cases waiting
    refine not_alive_mono ?_ ?_ (books.rescan call waiting phase)
    · rw [nlive, share_of_ne other]
      exact Nat.le_refl _
    intro c live owned running
    rcases grown.mem.mp live with rfl | there
    · rw [grown.thread running, owned] at other
      exact absurd rfl other
    obtain ⟨owner, thread⟩ := grown.found c (sound.below c there).ne
    exact ⟨there, owner.symm.trans owned, thread.symm.trans running⟩

/-- A new process has no children. -/
theorem Grown.newBooks (grown : Grown w w' child) (sound : Sound w) (able : Able w child) :
    Books w' w.next := by
  obtain ⟨-, nlive, waitq⟩ := grown.new
  have childless : ∀ c, (w.life c).parent ≠ some w.next := fun c made =>
    Nat.lt_irrefl _ (sound.parent_below c w.next made)
  refine ⟨⟨?_, ?_, fun c gone made => ?_⟩, ?_, ?_, ?_, ?_⟩
  · rw [waitq]
    exact nodup_nil
  · rw [waitq]
    exact fun _ _ entry => nomatch entry
  · have other : c ≠ w.next := fun same => gone (grown.mem.mpr (.inl same))
    rw [grown.life c other] at made
    exact absurd made (childless c)
  · have none : children w w.next = 0 := by
      apply tally_zero
      intro c live parent
      exact childless c (by rw [(sound.kin c live _ parent).2])
    have other : child ≠ some w.next := fun is => (sound.below _ (able _ is).1).ne rfl
    rw [grown.children_eq sound, nlive, none, share_of_ne other]
  · rw [nlive, waitq]
    exact Nat.zero_le _
  · rw [grown.idle.1]
    exact nofun
  · rw [grown.idle.2]
    exact nofun

theorem Grown.sound (grown : Grown w w' child) (sound : Sound w) (able : Able w child) :
    Sound w' := by
  have apart : ∀ q ∈ w.live, q ≠ w.next := fun q member => (sound.below q member).ne
  constructor
  · intro c member
    rw [grown.next]
    rcases grown.mem.mp member with rfl | old
    · exact Nat.lt_succ_self _
    · exact Nat.lt_succ_of_lt (sound.below c old)
  · intro c p parent
    rw [grown.next]
    apply Nat.lt_succ_of_lt
    by_cases new : c = w.next
    · rw [new, grown.newLife] at parent
      cases child with
      | none => cases parent
      | some q =>
        cases parent
        exact sound.below _ (able _ rfl).1
    · rw [grown.life c new] at parent
      exact sound.parent_below c p parent
  · intro c member p parent
    rcases grown.mem.mp member with rfl | old
    · rw [grown.new.1] at parent
      refine ⟨apart p (able p parent).1, ?_⟩
      rw [grown.newLife, parent]
      rfl
    · rw [grown.parent c (apart c old)] at parent
      rw [grown.life c (apart c old)]
      exact sound.kin c old p parent
  · intro c member p parent
    rcases grown.mem.mp member with rfl | old
    · rw [grown.newLife] at parent
      rw [grown.new.1]
      cases child with
      | none => exact parent
      | some q => exact parent
    · rw [grown.life c (apart c old)] at parent
      rw [grown.parent c (apart c old)]
      exact sound.known c old p parent
  · intro c member p parent
    rcases grown.mem.mp member with rfl | old
    · exact grown.marks.1
    · rw [grown.parent c (apart c old)] at parent
      rw [grown.marks.2 c (apart c old)]
      exact sound.undying c old p parent
  · intro p member
    rcases grown.mem.mp member with rfl | old
    · exact grown.newBooks sound able
    · exact grown.oldBooks sound able old
  · intro c later
    rw [grown.next] at later
    have other : c ≠ w.next := by
      rintro rfl
      exact Nat.not_succ_le_self _ later
    rw [grown.life c other]
    exact sound.fresh c (Nat.le_of_succ_le later)

variable {w' : World} {owner : Pid}

/-- A queued child has left, its status published. -/
structure Left (w w' : World) (c owner : Pid) (status : Nat) : Prop where
  live : w'.live = w.live.erase c
  next : w'.next = w.next
  parent : ∀ q, (w'.pcb q).parent = (w.pcb q).parent
  found : ∀ q, (w'.pcb q).owner = (w.pcb q).owner ∧ (w'.pcb q).thread = (w.pcb q).thread ∧
    (w'.pcb q).dying = (w.pcb q).dying
  others : ∀ q ∈ w'.live, q ≠ owner → w'.pcb q = w.pcb q
  published : owner ∈ w'.live → w'.pcb owner = waitqPublish (w.pcb owner) c status
  calls : w'.spawning = w.spawning ∧ w'.waiting = w.waiting
  ended : w'.life c = { w.life c with ended := some status }
  life : ∀ q, q ≠ c → w'.life q = w.life q

theorem left_publish (w : World) (apart : owner ≠ c) :
    Left w (psDequeue (endLife (publishTo w owner c) c) c) c owner (w.pcb c).exitStatus := by
  by_cases there : owner ∈ w.live
  · have published : publishTo w owner c =
        w.setPcb owner (waitqPublish (w.pcb owner) c (w.pcb c).exitStatus) := if_pos there
    have own := setPcb_self w owner (waitqPublish (w.pcb owner) c (w.pcb c).exitStatus)
    have others : ∀ q, q ≠ owner →
        (w.setPcb owner (waitqPublish (w.pcb owner) c (w.pcb c).exitStatus)).pcb q = w.pcb q :=
      fun q other => setPcb_ne w _ other
    rw [published]
    constructor
    · rfl
    · rfl
    · intro q
      by_cases same : q = owner
      · subst same
        show ((w.setPcb q _).pcb q).parent = _
        rw [own]
        rfl
      · show ((w.setPcb owner _).pcb q).parent = _
        rw [others q same]
    · intro q
      by_cases same : q = owner
      · subst same
        show ((w.setPcb q _).pcb q).owner = _ ∧ ((w.setPcb q _).pcb q).thread = _ ∧
          ((w.setPcb q _).pcb q).dying = _
        rw [own]
        exact ⟨rfl, rfl, rfl⟩
      · show ((w.setPcb owner _).pcb q).owner = _ ∧ ((w.setPcb owner _).pcb q).thread = _ ∧
          ((w.setPcb owner _).pcb q).dying = _
        rw [others q same]
        exact ⟨rfl, rfl, rfl⟩
    · exact fun q _ same => others q same
    · exact fun _ => own
    · exact ⟨rfl, rfl⟩
    · have kept := others c (Ne.symm apart)
      simp only [psDequeue, endLife, update_self]
      rw [kept]
      rfl
    · intro q other
      exact update_of_ne other _ _
  · have published : publishTo w owner c = w := if_neg there
    rw [published]
    constructor
    · rfl
    · rfl
    · exact fun _ => rfl
    · exact fun _ => ⟨rfl, rfl, rfl⟩
    · exact fun _ _ _ => rfl
    · intro inside
      exact absurd (Finset.mem_of_mem_erase inside) there
    · exact ⟨rfl, rfl⟩
    · simp [psDequeue, endLife]
    · intro q other
      exact update_of_ne other _ _

theorem Left.children_eq (left : Left w w' c owner status) (member : c ∈ w.live)
    (parent : (w.pcb c).parent = some owner) (q : Pid) :
    children w q = children w' q + share (some owner) q := by
  unfold children
  rw [left.live, tally_erase _ member, parent]
  congr 1
  apply tally_congr
  intro d _
  exact (left.parent d).symm

theorem Sound.space (sound : Sound w) (member : c ∈ w.live) (there : owner ∈ w.live)
    (parent : (w.pcb c).parent = some owner) :
    0 < (w.pcb owner).nlive ∧ (w.pcb owner).waitq.length < waitqMax := by
  have positive : 0 < children w owner :=
    @tally_pos _ _ _ _ (fun d => (w.pcb d).parent) owner c member parent
  have count := (sound.books owner there).count
  have room := (sound.books owner there).room
  omega

section

variable (left : Left w w' c owner status) (sound : Sound w) (member : c ∈ w.live)
  (parent : (w.pcb c).parent = some owner)
include left

theorem Left.mem : q ∈ w'.live ↔ q ≠ c ∧ q ∈ w.live := by
  rw [left.live, mem_erase]

include sound member parent

theorem Left.ended_eq : w'.life c = ⟨some owner, some status, []⟩ := by
  rw [left.ended, (sound.kin c member owner parent).2]

theorem Left.apart (inside : q ∈ w'.live) (other : q ≠ owner) : Apart w w' q := by
  refine ⟨?_, ?_, ⟨congrFun left.calls.1 q, congrFun left.calls.2 q⟩, ?_, fun d gone => ?_,
    fun d there owned running => ⟨(left.mem.mp there).2, (left.found d).1.symm.trans owned,
      (left.found d).2.1.symm.trans running⟩⟩
  · rw [left.others q inside other]
  · rw [left.others q inside other]
  · rw [left.children_eq member parent q, share_ne (Ne.symm other), Nat.add_zero]
  -- the child that left is its owner's
  have apart : d ≠ c := by
    rintro rfl
    have life := (sound.kin d member owner parent).2
    rw [left.ended_eq sound member parent, life] at gone
    exact other (Option.some.inj (gone.elim And.right And.right)).symm
  exact ⟨left.life d apart, left.mem.trans (and_iff_right apart)⟩

/-- The block of the owner: one child less, one status more. -/
theorem Left.block (inside : owner ∈ w'.live) : (w'.pcb owner).nlive + 1 = (w.pcb owner).nlive ∧
    (w'.pcb owner).waitq = (w.pcb owner).waitq ++ [(c, status)] := by
  obtain ⟨positive, space⟩ := sound.space member (left.mem.mp inside).2 parent
  rw [left.published inside]
  unfold waitqPublish
  rw [if_pos space]
  exact ⟨Nat.sub_add_cancel positive, rfl⟩

theorem Left.ownerStatuses (inside : owner ∈ w'.live) : Statuses w' owner := by
  have books := sound.books owner (left.mem.mp inside).2
  have ended := left.ended_eq sound member parent
  have waitq := (left.block sound member parent inside).2
  constructor
  · rw [waitq, map_append]
    refine nodup_append.mpr ⟨books.nodup, nodup_singleton c, ?_⟩
    intro d queued e last
    rw [List.mem_singleton.mp last]
    rintro rfl
    obtain ⟨⟨d', s⟩, entry, rfl⟩ := List.mem_map.mp queued
    exact (books.queued d' s entry).1 member
  · intro d s entry
    rw [waitq] at entry
    rcases mem_append.mp entry with queued | last
    · obtain ⟨gone, life⟩ := books.queued d s queued
      have other : d ≠ c := fun same => gone (same ▸ member)
      rw [left.life d other]
      exact ⟨fun again => gone (left.mem.mp again).2, life⟩
    · cases List.mem_singleton.mp last
      exact ⟨fun again => (left.mem.mp again).1 rfl, ended⟩
  · intro d gone made
    rw [waitq]
    by_cases same : d = c
    · subst same
      rw [ended]
      exact ⟨status, rfl, Or.inl ⟨rfl, mem_append_right _ (List.mem_singleton_self _)⟩⟩
    · rw [left.life d same] at made ⊢
      obtain ⟨s, isEnded, place⟩ :=
        books.gone d (fun there => gone (left.mem.mpr ⟨same, there⟩)) made
      exact ⟨s, isEnded, place.imp_left fun ⟨waits, entry⟩ => ⟨waits, mem_append_left _ entry⟩⟩

theorem Left.ownerBooks (quiet : w.spawning owner = none) (inside : owner ∈ w'.live) :
    Books w' owner := by
  have books := sound.books owner (left.mem.mp inside).2
  obtain ⟨counted, longer⟩ := left.block sound member parent inside
  refine ⟨left.ownerStatuses sound member parent inside, ?_, ?_, ?_, ?_⟩
  · have before := books.count
    have fewer := left.children_eq member parent owner
    rw [share_self] at fewer
    omega
  · have before := books.room
    rw [longer, length_append, length_singleton]
    omega
  · rw [left.calls.1, quiet]
    exact nofun
  · intro call waiting phase
    rw [left.calls.2] at waiting
    refine not_alive_mono (by omega) ?_ (books.rescan call waiting phase)
    exact fun d there owned running => ⟨(left.mem.mp there).2, (left.found d).1.symm.trans owned,
      (left.found d).2.1.symm.trans running⟩

end

theorem Left.sound (left : Left w w' c owner status) (sound : Sound w) (member : c ∈ w.live)
    (parent : (w.pcb c).parent = some owner) (quiet : w.spawning owner = none) : Sound w' := by
  constructor
  · intro q inside
    rw [left.next]
    exact sound.below q (left.mem.mp inside).2
  · intro d q made
    rw [left.next]
    by_cases same : d = c
    · rw [same, left.ended_eq sound member parent] at made
      cases made
      exact sound.parent_below c owner (by rw [(sound.kin c member owner parent).2])
    · rw [left.life d same] at made
      exact sound.parent_below d q made
  · intro d inside q isParent
    obtain ⟨other, there⟩ := left.mem.mp inside
    rw [left.parent] at isParent
    rw [left.life d other]
    exact sound.kin d there q isParent
  · intro d inside q made
    obtain ⟨other, there⟩ := left.mem.mp inside
    rw [left.life d other] at made
    rw [left.parent]
    exact sound.known d there q made
  · intro d inside q isParent
    rw [left.parent] at isParent
    rw [(left.found d).2.2]
    exact sound.undying d (left.mem.mp inside).2 q isParent
  · intro q inside
    by_cases same : q = owner
    · subst same
      exact left.ownerBooks sound member parent quiet inside
    · exact (sound.books q (left.mem.mp inside).2).frame
        (left.apart sound member parent inside same)
  · intro d later
    rw [left.next] at later
    have other : d ≠ c := by
      rintro rfl
      exact Nat.lt_irrefl _ (Nat.lt_of_lt_of_le (sound.below d member) later)
    rw [left.life d other]
    exact sound.fresh d later

/-- A thread goes without a status. -/
theorem Sound.dequeue (sound : Sound w) (none : (w.pcb c).parent = none) :
    Sound (psDequeue w c) := by
  have stays : ∀ q ∈ w.live.erase c, q ∈ w.live := fun q inside => Finset.mem_of_mem_erase inside
  have counts : ∀ q, children (psDequeue w c) q = children w q := by
    intro q
    by_cases member : c ∈ w.live
    · have apart := tally_erase (fun d => (w.pcb d).parent) member q
      rw [none, share_none] at apart
      exact apart.symm
    · show tally (w.live.erase c) _ q = _
      rw [erase_eq_of_notMem member]
      rfl
  refine { sound with
    below := fun q inside => sound.below q (stays q inside)
    kin := fun d inside => sound.kin d (stays d inside)
    known := fun d inside => sound.known d (stays d inside)
    undying := fun d inside => sound.undying d (stays d inside)
    books := fun q inside => (sound.books q (stays q inside)).frame ?_ }
  refine ⟨rfl, rfl, ⟨rfl, rfl⟩, counts q, ?_, fun d there owned running =>
    ⟨stays d there, owned, running⟩⟩
  intro d gone
  refine ⟨rfl, stays d, fun there => mem_erase.mpr ⟨?_, there⟩⟩
  rintro rfl
  rw [sound.known d there q (gone.elim And.right And.right)] at none
  cases none

end

section Waits

variable {w : World} {p q c : Pid} {target : Option Pid} {queue : List (Pid × Nat)}

theorem waitqReap_some {rest : List (Pid × Nat)} {entry : Pid × Nat}
    (got : waitqReap target queue = some (entry, rest)) :
    ∃ before, ∃ after, queue = before ++ entry :: after ∧ rest = before ++ after := by
  induction queue generalizing rest with
  | nil => cases got
  | cons first others ih =>
    unfold waitqReap at got
    by_cases matches_ : target = none ∨ target = some first.1
    · rw [if_pos matches_] at got
      cases got
      exact ⟨[], others, rfl, rfl⟩
    rw [if_neg matches_] at got
    obtain ⟨⟨found, remaining⟩, reaped, same⟩ := Option.map_eq_some_iff.mp got
    cases same
    obtain ⟨before, after, queue, rest⟩ := ih reaped
    exact ⟨first :: before, after, by rw [queue]; rfl, by rw [rest]; rfl⟩

theorem waitqReap_none (got : waitqReap none queue = none) : queue = [] := by
  cases queue with
  | nil => rfl
  | cons first others =>
    unfold waitqReap at got
    cases got

theorem waitqReap_mem (nodup : (queue.map Prod.fst).Nodup) (entry : (c, status) ∈ queue) :
    ∃ rest, waitqReap (some c) queue = some ((c, status), rest) := by
  induction queue with
  | nil => cases entry
  | cons first others ih =>
    rw [List.map_cons, nodup_cons] at nodup
    unfold waitqReap
    rcases List.mem_cons.mp entry with rfl | later
    · exact ⟨others, if_pos (Or.inr rfl)⟩
    obtain ⟨rest, reaped⟩ := ih nodup.2 later
    have other : ¬ ((some c : Option Pid) = none ∨ some c = some first.1) := by
      rintro (none | same)
      · cases none
      · cases same
        exact nodup.1 (List.mem_map.mpr ⟨_, later, rfl⟩)
    rw [if_neg other, reaped]
    exact ⟨first :: rest, rfl⟩

/-- A change of the call a process is in. -/
theorem Sound.setWaiting (sound : Sound w) (call : Option Waiting) (quiet : w.spawning p = none)
    (none : ∀ c, call = some c → c.phase = .rescan → alive w p c.target = false) :
    Sound { w with waiting := update w.waiting p call } := by
  refine { sound with books := fun q inside =>
    { sound.books q inside with loaded := fun n loading => ?_, rescan := fun other waiting => ?_ } }
  · have other : q ≠ p := by
      rintro rfl
      rw [quiet] at loading
      cases loading
    dsimp only
    rw [update_of_ne other]
    exact (sound.books q inside).loaded n loading
  · rcases update_eq_cases waiting with ⟨rfl, new⟩ | ⟨same, waiting⟩
    · exact none other new
    · exact (sound.books q inside).rescan other waiting

/-- The queue of `p` without an entry, which was returned. -/
def reaped (w : World) (p : Pid) (entry : Pid × Nat) (rest : List (Pid × Nat)) : World :=
  { w.setPcb p { w.pcb p with waitq := rest } with
    life := Function.update w.life entry.1
      { w.life entry.1 with deliveries := (w.life entry.1).deliveries ++ [entry.2] } }

theorem reaped_pcb (w : World) (p : Pid) (entry : Pid × Nat) (rest : List (Pid × Nat)) (q : Pid) :
    ((reaped w p entry rest).pcb q).parent = (w.pcb q).parent ∧
      ((reaped w p entry rest).pcb q).owner = (w.pcb q).owner ∧
      ((reaped w p entry rest).pcb q).thread = (w.pcb q).thread ∧
      ((reaped w p entry rest).pcb q).nlive = (w.pcb q).nlive ∧
      ((reaped w p entry rest).pcb q).dying = (w.pcb q).dying := by
  by_cases same : q = p
  · subst same
    have here : (reaped w q entry rest).pcb q = { w.pcb q with waitq := rest } :=
      setPcb_self w q _
    rw [here]
    exact ⟨rfl, rfl, rfl, rfl, rfl⟩
  · have there : (reaped w p entry rest).pcb q = w.pcb q := setPcb_ne w _ same
    rw [there]
    exact ⟨rfl, rfl, rfl, rfl, rfl⟩

section

variable (sound : Sound w) (member : p ∈ w.live) {before after : List (Pid × Nat)}
  (split : (w.pcb p).waitq = before ++ (c, status) :: after)
include sound member split

theorem Sound.reaped_entry : c ∉ w.live ∧ w.life c = ⟨some p, some status, []⟩ := by
  refine (sound.books p member).queued c status ?_
  rw [split]
  exact mem_append_right _ List.mem_cons_self

theorem Sound.reaped_returned : (WaitQueue.reaped w p (c, status) (before ++ after)).life c =
    ⟨some p, some status, [status]⟩ := by
  simp [WaitQueue.reaped, (sound.reaped_entry member split).2]

/-- The entry is taken out of the queue, and no other. -/
theorem Sound.reaped_rest : (∀ s, (c, s) ∉ before ++ after) ∧
    (before ++ after).Sublist (w.pcb p).waitq ∧
    ∀ d s, (d, s) ∈ (w.pcb p).waitq → d ≠ c → (d, s) ∈ before ++ after := by
  refine ⟨fun s inside => ?_, ?_, fun d s queued other => ?_⟩
  · have nodup := (sound.books p member).nodup
    rw [split, map_append, List.map_cons] at nodup
    have fresh := nodup_middle.mp nodup
    rw [nodup_cons, ← map_append] at fresh
    exact fresh.1 (List.mem_map.mpr ⟨_, inside, rfl⟩)
  · rw [split]
    exact (List.Sublist.refl before).append (sublist_cons_self _ _)
  · rw [split] at queued
    rcases mem_append.mp queued with inside | inside
    · exact mem_append_left _ inside
    rcases List.mem_cons.mp inside with same | inside
    · cases same
      exact absurd rfl other
    · exact mem_append_right _ inside

theorem Sound.reaped_books : Books (WaitQueue.reaped w p (c, status) (before ++ after)) p := by
  have books := sound.books p member
  obtain ⟨taken, sub, rest⟩ := sound.reaped_rest member split
  have shorter := sub.length_le
  have same := reaped_pcb w p (c, status) (before ++ after)
  have here : ((WaitQueue.reaped w p (c, status) (before ++ after)).pcb p).waitq =
      before ++ after := by
    simp [WaitQueue.reaped]
  have lives : ∀ d, d ≠ c →
      (WaitQueue.reaped w p (c, status) (before ++ after)).life d = w.life d :=
    fun d other => update_of_ne other _ _
  refine ⟨⟨?_, fun d s queued => ?_, fun d outside made => ?_⟩, ?_, ?_, fun n loading => ?_,
    fun call waiting phase => ?_⟩
  · rw [here]
    exact books.nodup.sublist (sub.map Prod.fst)
  · rw [here] at queued
    have other : d ≠ c := by
      rintro rfl
      exact taken s queued
    rw [lives d other]
    exact books.queued d s (sub.subset queued)
  · by_cases eq : d = c
    · subst eq
      rw [sound.reaped_returned member split]
      exact ⟨status, rfl, Or.inr rfl⟩
    rw [lives d eq] at made ⊢
    obtain ⟨s, ended, place⟩ := books.gone d outside made
    rw [here]
    exact ⟨s, ended, place.imp_left fun ⟨waits, queued⟩ => ⟨waits, rest d s queued eq⟩⟩
  · rw [(same p).2.2.2.1, books.count]
    exact (tally_congr (fun d _ => (same d).1) p).symm
  · have room := books.room
    rw [(same p).2.2.2.1, here]
    omega
  · obtain ⟨value, space, idle⟩ := books.loaded n loading
    rw [(same p).2.2.2.1, here]
    exact ⟨value, by omega, idle⟩
  · refine not_alive_mono (le_of_eq (same p).2.2.2.1) ?_ (books.rescan call waiting phase)
    exact fun d live owned running => ⟨live, (same d).2.1.symm.trans owned,
      (same d).2.2.1.symm.trans running⟩

theorem Sound.reaped_apart (other : q ≠ p) :
    Apart w (WaitQueue.reaped w p (c, status) (before ++ after)) q := by
  have same := reaped_pcb w p (c, status) (before ++ after)
  have there : (WaitQueue.reaped w p (c, status) (before ++ after)).pcb q = w.pcb q :=
    setPcb_ne w _ other
  refine ⟨(same q).2.2.2.1, congrArg Pcb.waitq there, ⟨rfl, rfl⟩,
    tally_congr (fun d _ => (same d).1) q, fun d gone => ?_, fun d live owned running =>
      ⟨live, (same d).2.1.symm.trans owned, (same d).2.2.1.symm.trans running⟩⟩
  have apart : d ≠ c := by
    rintro rfl
    rw [sound.reaped_returned member split, (sound.reaped_entry member split).2] at gone
    exact other (Option.some.inj (gone.elim And.right And.right)).symm
  exact ⟨update_of_ne apart _ _, Iff.rfl⟩

theorem Sound.reaped : Sound (WaitQueue.reaped w p (c, status) (before ++ after)) := by
  obtain ⟨gone, life⟩ := sound.reaped_entry member split
  have lives : ∀ d, d ≠ c →
      (WaitQueue.reaped w p (c, status) (before ++ after)).life d = w.life d :=
    fun d other => update_of_ne other _ _
  have same := reaped_pcb w p (c, status) (before ++ after)
  have notLive : ∀ d ∈ w.live, d ≠ c := by
    rintro d inside rfl
    exact gone inside
  refine ⟨sound.below, fun d q made => ?_, fun d inside q parent => ?_, fun d inside q made => ?_,
    fun d inside q parent => ?_, fun q inside => ?_, fun d later => ?_⟩
  · by_cases eq : d = c
    · rw [eq, sound.reaped_returned member split] at made
      cases made
      exact sound.below p member
    · rw [lives d eq] at made
      exact sound.parent_below d q made
  · rw [(same d).1] at parent
    rw [lives d (notLive d inside)]
    exact sound.kin d inside q parent
  · rw [lives d (notLive d inside)] at made
    rw [(same d).1]
    exact sound.known d inside q made
  · rw [(same d).1] at parent
    rw [(same d).2.2.2.2]
    exact sound.undying d inside q parent
  · by_cases eq : q = p
    · subst eq
      exact sound.reaped_books member split
    · exact (sound.books q inside).frame (sound.reaped_apart member split eq)
  · have other : d ≠ c := by
      rintro rfl
      have none := sound.fresh d later
      rw [life] at none
      cases none
    rw [lives d other]
    exact sound.fresh d later

end

theorem Sound.deliver (sound : Sound w) (member : p ∈ w.live) (quiet : w.spawning p = none)
    {entry : Pid × Nat} {rest : List (Pid × Nat)}
    (got : waitqReap target (w.pcb p).waitq = some (entry, rest)) :
    Sound (WaitQueue.deliver w p entry rest) := by
  obtain ⟨before, after, queue, rfl⟩ := waitqReap_some got
  exact (sound.reaped member queue).setWaiting none quiet nofun

/-- A section of `sys_waitpid`. -/
theorem Sound.waitStep (sound : Sound w) (member : p ∈ w.live) :
    Sound (WaitQueue.waitStep w p).1 := by
  unfold WaitQueue.waitStep
  cases waiting : w.waiting p with
  | none => exact sound
  | some call =>
    have quiet : w.spawning p = none := by
      cases loading : w.spawning p with
      | none => rfl
      | some n =>
        have idle := ((sound.books p member).loaded n loading).2.2
        rw [waiting] at idle
        cases idle
    dsimp only
    cases phase : call.phase with
    | scan =>
      cases got : waitqReap call.target (w.pcb p).waitq with
      | none =>
        refine sound.setWaiting _ quiet ?_
        rintro c ⟨⟩ checked
        cases checked
      | some found => exact sound.deliver member quiet got
    | check =>
      cases there : alive w p call.target with
      | true =>
        rw [if_pos rfl]
        split_ifs
        · exact sound.setWaiting none quiet nofun
        · refine sound.setWaiting _ quiet ?_
          rintro c ⟨⟩ checked
          cases checked
      | false =>
        refine sound.setWaiting _ quiet ?_
        rintro c ⟨⟩ _
        exact there
    | rescan =>
      cases got : waitqReap call.target (w.pcb p).waitq with
      | none => exact sound.setWaiting none quiet nofun
      | some found => exact sound.deliver member quiet got

end Waits

section Runs

variable {w : World} {p c : Pid} {op : Op}

/-- `createprocess` is called with room for the status, none is published between the halves of its
increment, threads do not leave through `self_exit_current`, who is killed is on no CPU, and a
process replaces itself only without unreaped children and if it is no thread. -/
def Orderly (w : World) : Op → Prop
  | .createprocessLoad p => (w.pcb p).nlive + (w.pcb p).waitq.length < waitqMax
  | .exit c _ | .sigterm c => (w.pcb c).thread = false ∧ w.spawning (w.pcb c).owner = none
  | .kill c running =>
    running = false ∧ ((w.pcb c).thread = true ∨ w.spawning (w.pcb c).owner = none)
  | .execve p _ => (w.pcb p).thread = false ∧ (w.pcb p).nlive = 0 ∧ (w.pcb p).waitq = []
  | _ => True

section

variable (sound : Sound w)
include sound

theorem Sound.addChild (member : p ∈ w.live) (quiet : w.spawning p = none)
    (idle : w.waiting p = none) (space : (w.pcb p).nlive + (w.pcb p).waitq.length < waitqMax) :
    Sound (WaitQueue.addChild w p ((w.pcb p).nlive + 1)) := by
  have parent : (newPcb p false false).parent = some p := rfl
  have grown : Grown w (WaitQueue.addChild w p ((w.pcb p).nlive + 1)) (some p) :=
    grown_enqueue w parent (fun _ => rfl) ⟨rfl, rfl⟩ rfl
  refine grown.sound sound ?_
  rintro q ⟨⟩
  exact ⟨member, quiet, idle, space⟩

theorem Sound.fork (idle : Idle w p) (ready : Bool) : Sound (WaitQueue.fork w p ready) := by
  unfold WaitQueue.fork
  dsimp only
  split_ifs with refused
  · exact sound
  · simp only [not_or, not_le] at refused
    exact sound.addChild idle.1 idle.2.1 idle.2.2 refused.2.2.2.1

/-- Only the loading half of an increment changes. -/
theorem Sound.setSpawning (value : Option Nat)
    (loaded : ∀ n, value = some n → p ∈ w.live → n = (w.pcb p).nlive ∧
      n + (w.pcb p).waitq.length < waitqMax ∧ w.waiting p = none) :
    Sound { w with spawning := update w.spawning p value } := by
  refine { sound with books := fun q inside =>
    { sound.books q inside with loaded := fun n loading => ?_ } }
  rcases update_eq_cases loading with ⟨rfl, new⟩ | ⟨same, loading⟩
  · exact loaded n new inside
  · exact (sound.books q inside).loaded n loading

theorem Sound.createprocessLoad (idle : Idle w p)
    (space : (w.pcb p).nlive + (w.pcb p).waitq.length < waitqMax) :
    Sound (WaitQueue.createprocessLoad w p) := by
  refine sound.setSpawning _ ?_
  rintro n ⟨⟩ _
  exact ⟨rfl, space, idle.2.2⟩

theorem Sound.createprocessStore (member : p ∈ w.live) :
    Sound (WaitQueue.createprocessStore w p) := by
  unfold WaitQueue.createprocessStore
  cases loading : w.spawning p with
  | none => exact sound
  | some n =>
    obtain ⟨rfl, space, idle⟩ := (sound.books p member).loaded n loading
    have cleared := sound.setSpawning (p := p) none nofun
    exact cleared.addChild member (update_self p none w.spawning) idle space

theorem Sound.createthread (p : Pid) (sys : Bool) : Sound (WaitQueue.createthread w p sys) := by
  have parent : (newPcb p sys true).parent = none := rfl
  have grown : Grown w (WaitQueue.createthread w p sys) none :=
    grown_enqueue w parent (fun running => Bool.noConfusion running) ⟨rfl, rfl⟩ rfl
  exact grown.sound sound nofun

theorem Sound.selfExitCurrent (member : c ∈ w.live) (unloadable : (w.pcb c).unloadable = false)
    (thread : (w.pcb c).thread = false) (quiet : w.spawning (w.pcb c).owner = none) :
    Sound (WaitQueue.selfExitCurrent w c) := by
  have parent : (w.pcb c).parent = some (w.pcb c).owner :=
    parent_eq_some.mpr ⟨thread, unloadable, rfl⟩
  have apart := (sound.kin c member _ parent).1
  unfold WaitQueue.selfExitCurrent
  dsimp only
  rw [if_pos apart]
  exact (left_publish w apart).sound sound member parent quiet

theorem Sound.exit (member : c ∈ w.live) (unloadable : (w.pcb c).unloadable = false)
    (thread : (w.pcb c).thread = false) (quiet : w.spawning (w.pcb c).owner = none) (val : Nat) :
    Sound (WaitQueue.exit w c val) := by
  have marked : Sound (w.setPcb c { w.pcb c with exitStatus := val % 256 }) :=
    sound.setPcb_same rfl rfl rfl rfl rfl id
  have block := setPcb_self w c { w.pcb c with exitStatus := val % 256 }
  apply marked.selfExitCurrent member
  · rw [block]
    exact unloadable
  · rw [block]
    exact thread
  · rw [block]
    exact quiet

theorem Sound.kill
    (quiet : (w.pcb c).thread = true ∨ w.spawning (w.pcb c).owner = none) :
    Sound (killProcess w c false) := by
  unfold killProcess
  dsimp only
  rw [if_neg Bool.false_ne_true]
  split_ifs with refused kernel thread
  · exact sound
  · exact sound
  · exact sound.dequeue (if_pos (Or.inl thread))
  simp only [not_or, not_not, Bool.not_eq_true] at refused thread
  have parent : (w.pcb c).parent = some (w.pcb c).owner :=
    parent_eq_some.mpr ⟨thread, refused.2.1, rfl⟩
  have apart := (sound.kin c refused.1 _ parent).1
  refine (left_publish w apart).sound sound refused.1 parent ?_
  rcases quiet with isThread | quiet
  · rw [thread] at isThread
    cases isThread
  · exact quiet

/-- The id counter moves on. -/
theorem Sound.skip : Sound { w with next := w.next + 1 } where
  __ := sound
  books p member := { sound.books p member with }
  below c member := Nat.lt_succ_of_lt (sound.below c member)
  parent_below c p made := Nat.lt_succ_of_lt (sound.parent_below c p made)
  fresh c later := sound.fresh c (Nat.le_of_succ_le later)

theorem Sound.execve (unloadable : (w.pcb p).unloadable = false)
    (alone : (w.pcb p).thread = false ∧ (w.pcb p).nlive = 0 ∧ (w.pcb p).waitq = []) (loads : Bool) :
    Sound (sysExecve w p loads) := by
  obtain ⟨thread, nlive, waitq⟩ := alone
  unfold sysExecve
  split_ifs
  · have replaced : Sound (w.setPcb p (newPcb (w.pcb p).owner false false)) :=
      sound.setPcb_same rfl thread.symm unloadable.symm nlive.symm waitq.symm fun _ => rfl
    exact replaced.skip
  · exact sound

theorem Sound.waitpid (idle : Idle w p) (pid : Int) (nohang : Bool) :
    Sound (sysWaitpid w p pid nohang) := by
  unfold sysWaitpid
  split_ifs
  · exact sound
  all_goals
    refine sound.setWaiting _ idle.2.1 ?_
    rintro call ⟨⟩ phase
    cases phase

theorem sound_step (orderly : Orderly w op) (issued : Issued w op) : Sound (performOp w op) := by
  cases op with
  | fork p ready => exact sound.fork issued ready
  | createprocessLoad p => exact sound.createprocessLoad issued orderly
  | createprocessStore p => exact sound.createprocessStore issued
  | createthread p sys => exact sound.createthread p sys
  | exit c val => exact sound.exit issued.1.1 issued.2 orderly.1 orderly.2 val
  | sigterm c => exact sound.selfExitCurrent issued.1 issued.2 orderly.1 orderly.2
  | kill c running =>
    obtain ⟨rfl, quiet⟩ := orderly
    exact sound.kill quiet
  | execve p loads => exact sound.execve issued.2 orderly loads
  | waitpid p pid nohang => exact sound.waitpid issued pid nohang
  | waitStep p => exact sound.waitStep issued

end

theorem sound_start (first : processes.start w) : Sound w := by
  obtain ⟨tasks, unborn⟩ := first
  have orphan : ∀ c ∈ w.live, (w.pcb c).parent = none := fun c member =>
    if_pos (Or.inr (tasks c member).2.1)
  have made : ∀ c p, (w.life c).parent ≠ some p := by
    intro c p
    rw [unborn c]
    exact nofun
  refine ⟨fun c member => (tasks c member).1, fun c p is => absurd is (made c p),
    fun c member p parent => ?_, fun c _ p is => absurd is (made c p), fun c member p parent => ?_,
    fun p member => ?_, fun c _ => unborn c⟩
  · rw [orphan c member] at parent
    cases parent
  · rw [orphan c member] at parent
    cases parent
  obtain ⟨-, -, nlive, waitq, spawning, waiting⟩ := tasks p member
  refine ⟨⟨?_, ?_, fun c _ is => absurd is (made c p)⟩, ?_, ?_, ?_, ?_⟩
  · rw [waitq]
    exact nodup_nil
  · rw [waitq]
    exact fun _ _ entry => nomatch entry
  · rw [nlive]
    symm
    apply tally_zero
    intro c inside parent
    rw [orphan c inside] at parent
    cases parent
  · rw [nlive, waitq]
    exact Nat.zero_le _
  · rw [spawning]
    exact nofun
  · rw [waiting]
    exact nofun

theorem sound_reachable (run : Reachable processes Orderly w) : Sound w := by
  refine run.invariant (fun _ => sound_start) ?_
  rintro s op t sound orderly ⟨issued, rfl⟩
  exact sound_step sound orderly issued

/-- Unreaped children are still queued, or have a queued status. -/
theorem Sound.unreaped_eq (sound : Sound w) (member : p ∈ w.live) :
    unreaped w p = (w.live.filter fun c => (w.pcb c).parent = some p) ∪
      ((w.pcb p).waitq.map Prod.fst).toFinset := by
  ext c
  simp only [unreaped, Finset.mem_filter, Finset.mem_range, mem_union, mem_toFinset,
    List.mem_map]
  constructor
  · rintro ⟨_, parent, waits⟩
    by_cases live : c ∈ w.live
    · exact Or.inl ⟨live, sound.known c live p parent⟩
    obtain ⟨status, ended, place⟩ := (sound.books p member).gone c live parent
    rcases place with ⟨_, entry⟩ | returned
    · exact Or.inr ⟨(c, status), entry, rfl⟩
    · rw [waits] at returned
      cases returned
  · rintro (⟨live, parent⟩ | ⟨⟨d, status⟩, entry, rfl⟩)
    · have life := (sound.kin c live p parent).2
      rw [life]
      exact ⟨sound.below c live, rfl, rfl⟩
    · have life := ((sound.books p member).queued d status entry).2
      rw [life]
      refine ⟨?_, rfl, rfl⟩
      by_contra later
      rw [sound.fresh d (Nat.le_of_not_lt later)] at life
      cases life

theorem Sound.card_unreaped (sound : Sound w) (member : p ∈ w.live) :
    (unreaped w p).card = (w.pcb p).nlive + (w.pcb p).waitq.length := by
  have books := sound.books p member
  rw [sound.unreaped_eq member, card_union_of_disjoint, books.count,
    toFinset_card_of_nodup books.nodup, length_map]
  · rfl
  rw [Finset.disjoint_left]
  intro c live queued
  obtain ⟨⟨d, status⟩, entry, rfl⟩ := List.mem_map.mp (mem_toFinset.mp queued)
  exact (books.queued d status entry).1 (Finset.mem_of_mem_filter d live)

/-- When `sys_waitpid` for any child reports that there is none, there is none. -/
theorem Sound.echild (sound : Sound w) (member : p ∈ w.live) {call : Waiting}
    (waiting : w.waiting p = some call) (any : call.target = none)
    (reports : (WaitQueue.waitStep w p).2 = some .echild) : unreaped w p = ∅ := by
  have rescans : call.phase = .rescan ∧ waitqReap none (w.pcb p).waitq = none := by
    unfold WaitQueue.waitStep at reports
    rw [waiting] at reports
    dsimp only at reports
    rw [any] at reports
    cases phase : call.phase with
    | scan =>
      rw [phase] at reports
      cases got : waitqReap none (w.pcb p).waitq with
      | none => simp [got] at reports
      | some found => simp [got] at reports
    | check =>
      rw [phase] at reports
      split_ifs at reports
      all_goals cases reports
    | rescan =>
      rw [phase] at reports
      cases got : waitqReap none (w.pcb p).waitq with
      | none => exact ⟨rfl, rfl⟩
      | some found => simp [got] at reports
  have empty := waitqReap_none rescans.2
  have dead := (sound.books p member).rescan call waiting rescans.1
  rw [any] at dead
  have none : (w.pcb p).nlive = 0 := by simpa [alive] using dead
  apply card_eq_zero.mp
  rw [sound.card_unreaped member, none, empty]
  rfl

/-- The kernel's task, which starts programs. -/
def boot : World where
  live := {0}
  pcb _ := { newPcb 0 true false with unloadable := true }
  next := 1
  spawning _ := none
  waiting _ := none
  life _ := .none

theorem boot_start : processes.start boot := by
  constructor
  · intro p member
    cases Finset.mem_singleton.mp member
    exact ⟨Nat.zero_lt_one, rfl, rfl, rfl, rfl, rfl⟩
  · exact fun _ => rfl

/-- A first program, which forks. -/
def family : World := fork (createprocessStore (createprocessLoad boot 0) 0) 1 true

theorem family_reachable (guard : World → Op → Prop)
    (free : guard boot (.createprocessLoad 0))
    (always : ∀ w, guard w (.createprocessStore 0) ∧ guard w (.fork 1 true)) :
    Reachable processes guard family := by
  have idle : Idle (createprocessStore (createprocessLoad boot 0) 0) 1 := by
    refine ⟨?_, ?_, ?_⟩ <;> decide
  exact .step (a := .fork 1 true)
    (.step (a := .createprocessStore 0)
      (.step (a := .createprocessLoad 0) (.start boot_start) free
        ⟨⟨Finset.mem_singleton_self 0, rfl, rfl⟩, rfl⟩)
      (always _).1 ⟨Finset.mem_singleton_self 0, rfl⟩)
    (always _).2 ⟨idle, rfl⟩

end Runs

end IcsOs.Process.WaitQueue
