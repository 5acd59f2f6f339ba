/- GID: IcsOs/Posix/Descriptors
   generality: I
   source: kernel/vfs/posixfd.c, kernel/process/process.c, kernel/net/sock.c
   digest: Descriptor tables of processes and the reference counts of the objects they name. -/

import Mathlib.Data.Fintype.Basic
import IcsOs.Lib.Ledger
import IcsOs.Lib.Runs

set_option autoImplicit false

namespace IcsOs.Posix.Descriptors

open Function Finset
open Lib.Ledger Lib.Runs

/-- The object kinds a descriptor can name, besides the console. -/
inductive Kind
  | vfs
  | blk
  | uring
  | sock
  deriving DecidableEq, Repr

/-- The counts of a `file_PCB`, `fd_blk_t`, `ics_uring` or `sock`. -/
structure Object where
  kind : Kind
  fdRefs : Nat
  activeRefs : Nat
  inflight : Nat
  closing : Bool
  deriving DecidableEq, Repr

inductive Entry
  | free
  | tty
  | object (kind : Kind) (o : Nat)
  deriving DecidableEq, Repr

abbrev Fd := Fin 64

/-- Control blocks and descriptor objects, numbered by allocation. -/
structure World where
  procs : Finset Nat
  table : Nat → Fd → Entry
  ctty : Nat → Bool
  nextProc : Nat
  objs : Finset Nat
  obj : Nat → Object
  nextObj : Nat

def World.setEntry (w : World) (p : Nat) (fd : Fd) (e : Entry) : World :=
  { w with table := Function.update w.table p (Function.update (w.table p) fd e) }

def World.setObj (w : World) (o : Nat) (x : Object) : World :=
  { w with obj := Function.update w.obj o x }

def fds : List Fd := List.finRange 64

def fdAllocSlot (w : World) (p : Nat) : Option Fd :=
  fds.find? fun fd => decide (3 ≤ fd.val) && decide (w.table p fd = .free)

/-- `inherit` and `sock_retain`: a socket is retained whatever its state, a ring with requests not.
-/
def inheritRefused (w : World) (o : Nat) (forFork : Bool) : Bool :=
  let x := w.obj o
  match x.kind with
  | .sock => decide (o ∉ w.objs)
  | .uring =>
    decide (o ∉ w.objs) || x.closing || decide (x.fdRefs = 0) ||
      (forFork && decide (x.inflight ≠ 0))
  | _ => decide (o ∉ w.objs) || x.closing || decide (x.fdRefs = 0)

def inheritObject (w : World) (o : Nat) (forFork : Bool) : Bool × World :=
  if inheritRefused w o forFork then (false, w)
  else (true, w.setObj o { w.obj o with fdRefs := (w.obj o).fdRefs + 1 })

/-- An object without owners goes once no transfer uses it. -/
def releaseIfUnused (w : World) (o : Nat) : World :=
  let x := w.obj o
  if x.closing = true ∧ x.fdRefs = 0 ∧ x.activeRefs = 0 ∧ x.inflight = 0 then
    { w with objs := w.objs.erase o }
  else w

/-- `vfs_file_fdclose`, `fd_blk_close`, `uring_close` and `sock_close`. -/
def closeObject (w : World) (o : Nat) : World :=
  let x := w.obj o
  let refs := x.fdRefs - 1
  let closing := x.closing || decide (refs = 0)
  releaseIfUnused (w.setObj o { x with fdRefs := refs, closing := closing }) o

/-- Empties a slot and drops its reference. -/
def closeSlot (w : World) (p : Nat) (fd : Fd) : World :=
  match w.table p fd with
  | .object _ o => closeObject (w.setEntry p fd .free) o
  | _ => w.setEntry p fd .free

/-- Standard input and output fall back to the console. -/
def fdIstty (w : World) (p : Nat) (fd : Fd) : Bool :=
  match w.table p fd with
  | .tty => true
  | .object _ _ => false
  | .free => w.ctty p && decide (fd.val < 3)

/-- Also `sys_io_uring_setup`, `sys_socket` and `sys_accept`: one descriptor reference. -/
def sysOpen (w : World) (p : Nat) (kind : Kind) (made : Bool) : World :=
  match fdAllocSlot w p with
  | none => w
  | some fd =>
    if made then
      { (w.setObj w.nextObj ⟨kind, 1, 0, 0, false⟩).setEntry p fd (.object kind w.nextObj) with
        objs := insert w.nextObj w.objs
        nextObj := w.nextObj + 1 }
    else w

def sysClose (w : World) (p : Nat) (fd : Fd) : World :=
  match w.table p fd with
  | .free => w
  | _ => closeSlot w p fd

def sysDup (w : World) (p : Nat) (oldfd : Fd) : World :=
  match fdAllocSlot w p with
  | none => w
  | some nf =>
    if fdIstty w p oldfd then w.setEntry p nf .tty
    else
      match w.table p oldfd with
      | .object .uring _ => w
      | .object kind o =>
        match inheritObject w o false with
        | (false, w₁) => w₁
        | (true, w₁) => w₁.setEntry p nf (.object kind o)
      | _ => w

def sysDup2 (w : World) (p : Nat) (oldfd newfd : Fd) : World :=
  if oldfd = newfd then w
  else if fdIstty w p oldfd then (sysClose w p newfd).setEntry p newfd .tty
  else
    match w.table p oldfd with
    | .object .uring _ => w
    | .object kind o =>
      match inheritObject w o false with
      | (false, w₁) => w₁
      | (true, w₁) => (sysClose w₁ p newfd).setEntry p newfd (.object kind o)
    | _ => w

/-- `posix_fd_clone_mode` stops at the first object that cannot be inherited. -/
def cloneFds (w : World) (dst src : Nat) (forFork : Bool) : List Fd → Bool × World
  | [] => (true, w)
  | fd :: rest =>
    match w.table src fd with
    | .object kind o =>
      match inheritObject w o forFork with
      | (false, w₁) => (false, w₁)
      | (true, w₁) => cloneFds (w₁.setEntry dst fd (.object kind o)) dst src forFork rest
    | e => cloneFds (w.setEntry dst fd e) dst src forFork rest

def closeFds (w : World) (p : Nat) : List Fd → World
  | [] => w
  | fd :: rest => closeFds (closeSlot w p fd) p rest

def posixFdCloseAll (w : World) (p : Nat) : World := closeFds w p fds

def posixFdCloneMode (w : World) (dst src : Nat) (forFork : Bool) : Bool × World :=
  match cloneFds w dst src forFork fds with
  | (true, w₁) => (true, w₁)
  | (false, w₁) => (false, posixFdCloseAll w₁ dst)

def posixFdForkReady (w : World) (src : Nat) : Bool :=
  fds.all fun fd =>
    match w.table src fd with
    | .object .uring o => !(w.obj o).closing && decide ((w.obj o).inflight = 0)
    | _ => true

/-- A zeroed process control block. -/
def newPcb (w : World) (parent : Nat) : World :=
  { w with
    table := Function.update w.table w.nextProc fun _ => .free
    ctty := Function.update w.ctty w.nextProc (w.ctty parent)
    nextProc := w.nextProc + 1 }

/-- The child is enqueued only when the descriptors were cloned. -/
def fork (w : World) (p : Nat) : World :=
  if posixFdForkReady w p then
    match posixFdCloneMode (newPcb w p) w.nextProc p true with
    | (true, w₁) => { w₁ with procs := insert w.nextProc w₁.procs }
    | (false, w₁) => w₁
  else w

/-- `createprocess` ignores the result of the clone. -/
def createprocess (w : World) (p : Nat) : World :=
  let w₁ := (posixFdCloneMode (newPcb w p) w.nextProc p false).2
  { w₁ with procs := insert w.nextProc w₁.procs }

/-- The caller is replaced, and dequeued with its table as it is. -/
def sysExecve (w : World) (p : Nat) : World :=
  let w₁ := createprocess w p
  { w₁ with procs := w₁.procs.erase p }

def exit (w : World) (p : Nat) : World :=
  let w₁ := posixFdCloseAll w p
  { w₁ with procs := w₁.procs.erase p }

/-- A transfer's active reference; a socket takes none. -/
def ioGet (w : World) (p : Nat) (fd : Fd) : World :=
  match w.table p fd with
  | .object .sock _ => w
  | .object _ o =>
    if (w.obj o).closing then w
    else w.setObj o { w.obj o with activeRefs := (w.obj o).activeRefs + 1 }
  | _ => w

def ioPut (w : World) (o : Nat) : World :=
  releaseIfUnused (w.setObj o { w.obj o with activeRefs := (w.obj o).activeRefs - 1 }) o

/-- A request is queued on a ring that a transfer uses. -/
def uringQueue (w : World) (o : Nat) : World :=
  if (w.obj o).kind ≠ .uring ∨ (w.obj o).activeRefs = 0 then w
  else w.setObj o { w.obj o with inflight := (w.obj o).inflight + 1 }

def uringComplete (w : World) (o : Nat) : World :=
  releaseIfUnused (w.setObj o { w.obj o with inflight := (w.obj o).inflight - 1 }) o

inductive Op
  | open (p : Nat) (kind : Kind) (made : Bool)
  | close (p : Nat) (fd : Fd)
  | dup (p : Nat) (oldfd : Fd)
  | dup2 (p : Nat) (oldfd newfd : Fd)
  | fork (p : Nat)
  | createprocess (p : Nat)
  | execve (p : Nat)
  | exit (p : Nat)
  | ioGet (p : Nat) (fd : Fd)
  | ioPut (o : Nat)
  | uringQueue (o : Nat)
  | uringComplete (o : Nat)

def performOp (w : World) : Op → World
  | .open p kind made => sysOpen w p kind made
  | .close p fd => sysClose w p fd
  | .dup p oldfd => sysDup w p oldfd
  | .dup2 p oldfd newfd => sysDup2 w p oldfd newfd
  | .fork p => fork w p
  | .createprocess p => createprocess w p
  | .execve p => sysExecve w p
  | .exit p => exit w p
  | .ioGet p fd => ioGet w p fd
  | .ioPut o => ioPut w o
  | .uringQueue o => uringQueue w o
  | .uringComplete o => uringComplete w o

/-- By live processes; transfers end on objects that exist. -/
def Issued (w : World) : Op → Prop
  | .open p _ _ | .close p _ | .dup p _ | .dup2 p _ _ | .fork p | .createprocess p | .execve p
  | .exit p | .ioGet p _ => p ∈ w.procs
  | .ioPut o => o ∈ w.objs ∧ (w.obj o).activeRefs ≠ 0
  | .uringQueue o => o ∈ w.objs
  | .uringComplete o => o ∈ w.objs ∧ (w.obj o).inflight ≠ 0

def descriptors : System World Op where
  start w := w.objs = ∅ ∧ (∀ p ∈ w.procs, p < w.nextProc) ∧
    ∀ p ∈ w.procs, ∀ fd kind o, w.table p fd ≠ .object kind o
  step w op w' := Issued w op ∧ w' = performOp w op

def Entry.names : Entry → Option Nat
  | .object _ o => some o
  | _ => none

/-- How many entries of these processes' tables name the object. -/
def entries (w : World) (procs : Finset Nat) (o : Nat) : Nat :=
  tally (procs ×ˢ (Finset.univ : Finset Fd)) (fun i => (w.table i.1 i.2).names) o

/-- One reference more in hand. -/
def bump (held : Nat → Nat) (o : Nat) : Nat → Nat := Function.update held o (held o + 1)

/-- The law while a call holds references it has not stored. -/
structure Conserved (w : World) (procs : Finset Nat) (held : Nat → Nat) : Prop where
  counts : ∀ o ∈ w.objs, (w.obj o).fdRefs = entries w procs o + held o
  named : ∀ p ∈ procs, ∀ fd kind o, w.table p fd = .object kind o →
    o ∈ w.objs ∧ (w.obj o).kind = kind
  inHand : ∀ o, held o ≠ 0 → o ∈ w.objs
  closing : ∀ o ∈ w.objs, (w.obj o).closing = true ↔ (w.obj o).fdRefs = 0
  used : ∀ o ∈ w.objs, (w.obj o).closing = true →
    (w.obj o).activeRefs ≠ 0 ∨ (w.obj o).inflight ≠ 0
  numbered : ∀ o ∈ w.objs, o < w.nextObj

variable {forFork ok : Bool} {p q dst src : Nat} {w' : World}

section

variable {w : World} {procs : Finset Nat} {held : Nat → Nat} {p : Nat} {fd : Fd} {e : Entry}
  {o : Nat}

theorem setEntry_self (w : World) (p : Nat) (fd : Fd) (e : Entry) :
    (w.setEntry p fd e).table p fd = e := by
  simp [World.setEntry]

theorem setEntry_ne (w : World) (e : Entry) {fd gd : Fd} (apart : ¬ (q = p ∧ gd = fd)) :
    (w.setEntry p fd e).table q gd = w.table q gd := by
  by_cases same : q = p
  · subst same
    have other : gd ≠ fd := fun equal => apart ⟨rfl, equal⟩
    simp [World.setEntry, other]
  · simp [World.setEntry, same]

theorem entries_setEntry (w : World) (member : p ∈ procs) (fd : Fd) (e : Entry) (o : Nat) :
    entries (w.setEntry p fd e) procs o + share (w.table p fd).names o =
      entries w procs o + share e.names o := by
  have here : (p, fd) ∈ procs ×ˢ (univ : Finset Fd) := by simp [member]
  have change := tally_change (fun i => (w.table i.1 i.2).names)
    (fun i => ((w.setEntry p fd e).table i.1 i.2).names) here (by
      rintro ⟨q, gd⟩ _ apart
      rw [setEntry_ne w e fun both => apart (Prod.ext both.1 both.2)]) o
  simp only [setEntry_self] at change
  exact change

theorem names_eq_some {o : Nat} : e.names = some o ↔ ∃ kind, e = .object kind o := by
  cases e with
  | free => simp [Entry.names]
  | tty => simp [Entry.names]
  | object kind o' => simp [Entry.names]

theorem Conserved.setPlain (conserved : Conserved w procs held) (member : p ∈ procs)
    (before : (w.table p fd).names = none) (after : e.names = none) :
    Conserved (w.setEntry p fd e) procs held where
  __ := conserved
  counts := by
    intro o there
    have move := entries_setEntry w member fd e o
    rw [before, after] at move
    have count := conserved.counts o there
    show (w.obj o).fdRefs = _
    omega
  named := by
    intro q inProcs gd kind o named
    by_cases here : q = p ∧ gd = fd
    · obtain ⟨rfl, rfl⟩ := here
      rw [setEntry_self] at named
      rw [named] at after
      cases after
    · rw [setEntry_ne w e here] at named
      exact conserved.named q inProcs gd kind o named

/-- Storing a reference that is in hand. -/
theorem Conserved.install {kind : Kind} (conserved : Conserved w procs (bump held o))
    (member : p ∈ procs) (before : (w.table p fd).names = none) (isKind : (w.obj o).kind = kind) :
    Conserved (w.setEntry p fd (.object kind o)) procs held where
  __ := conserved
  counts := by
    intro o' there
    have move := entries_setEntry w member fd (.object kind o) o'
    have count := conserved.counts o' there
    rw [before] at move
    show (w.obj o').fdRefs = _
    by_cases same : o' = o
    · subst same
      simp only [bump, update_self, Entry.names, share_self, share_none] at count move
      omega
    · simp only [bump, update_of_ne same, Entry.names, share_none,
        share_ne (Ne.symm same)] at count move
      omega
  named := by
    intro q inProcs gd kind' o' named
    by_cases here : q = p ∧ gd = fd
    · obtain ⟨rfl, rfl⟩ := here
      rw [setEntry_self] at named
      cases named
      exact ⟨conserved.inHand o (by simp [bump]), isKind⟩
    · rw [setEntry_ne w _ here] at named
      exact conserved.named q inProcs gd kind' o' named
  inHand := by
    intro o' some_
    apply conserved.inHand o'
    by_cases same : o' = o
    · subst same
      simp [bump]
    · simpa [bump, same] using some_

theorem mem_of_accepted (accepted : ¬ inheritRefused w o forFork = true) : o ∈ w.objs := by
  by_contra absent
  apply accepted
  unfold inheritRefused
  dsimp only
  split
  all_goals simp [absent]

theorem inheritObject_spec (conserved : Conserved w procs held) (owned : (w.obj o).fdRefs ≠ 0)
    (got : inheritObject w o forFork = (ok, w')) :
    (ok = false ∧ w' = w) ∨
      ok = true ∧ w'.table = w.table ∧ w'.procs = w.procs ∧ (w'.obj o).kind = (w.obj o).kind ∧
        Conserved w' procs (bump held o) := by
  unfold inheritObject at got
  by_cases refused : inheritRefused w o forFork = true
  · rw [if_pos refused] at got
    cases got
    exact Or.inl ⟨rfl, rfl⟩
  rw [if_neg refused] at got
  cases got
  right
  have member := mem_of_accepted refused
  have opened : (w.obj o).closing = false := by
    by_contra closing
    exact owned ((conserved.closing o member).mp (by simpa using closing))
  refine ⟨rfl, rfl, rfl, by simp [World.setObj], ?_⟩
  constructor
  · intro o' there'
    have count := conserved.counts o' there'
    show (update w.obj o _ o').fdRefs = entries w procs o' + bump held o o'
    by_cases same : o' = o
    · subst same
      simp only [update_self, bump]
      omega
    · simp only [update_of_ne same, bump]
      exact count
  · intro q inProcs gd kind o' named
    obtain ⟨there', isKind⟩ := conserved.named q inProcs gd kind o' named
    refine ⟨there', ?_⟩
    by_cases same : o' = o
    · subst same
      simpa [World.setObj] using isKind
    · simpa [World.setObj, same] using isKind
  · intro o' some_
    by_cases same : o' = o
    · subst same
      exact member
    · apply conserved.inHand
      simpa [bump, same] using some_
  · intro o' there'
    by_cases same : o' = o
    · subst same
      simp [World.setObj, opened]
    · simpa [World.setObj, same] using conserved.closing o' there'
  · intro o' there'
    by_cases same : o' = o
    · subst same
      simp [World.setObj, opened]
    · simpa [World.setObj, same] using conserved.used o' there'
  · exact conserved.numbered

theorem Conserved.settle {x : Object} (counts : ∀ o' ∈ w.objs, o' ≠ o →
      (w.obj o').fdRefs = entries w procs o' + held o')
    (count : o ∈ w.objs → x.fdRefs = entries w procs o + held o)
    (named : ∀ p ∈ procs, ∀ fd kind o, w.table p fd = .object kind o →
      o ∈ w.objs ∧ (w.obj o).kind = kind) (kind : x.kind = (w.obj o).kind)
    (inHand : ∀ o, held o ≠ 0 → o ∈ w.objs)
    (closing : ∀ o' ∈ w.objs, o' ≠ o → ((w.obj o').closing = true ↔ (w.obj o').fdRefs = 0))
    (closing' : o ∈ w.objs → (x.closing = true ↔ x.fdRefs = 0))
    (used : ∀ o' ∈ w.objs, o' ≠ o → (w.obj o').closing = true →
      (w.obj o').activeRefs ≠ 0 ∨ (w.obj o').inflight ≠ 0)
    (numbered : ∀ o ∈ w.objs, o < w.nextObj) :
    Conserved (releaseIfUnused (w.setObj o x) o) procs held := by
  have objOf : ∀ o', (w.setObj o x).obj o' = if o' = o then x else w.obj o' := by
    intro o'
    by_cases same : o' = o
    · subst same
      simp [World.setObj]
    · simp [World.setObj, same]
  unfold releaseIfUnused
  rw [objOf o, if_pos rfl]
  by_cases gone : x.closing = true ∧ x.fdRefs = 0 ∧ x.activeRefs = 0 ∧ x.inflight = 0
  · rw [if_pos gone]
    have noneLeft : o ∈ w.objs → entries w procs o = 0 ∧ held o = 0 := by
      intro there
      have balance := count there
      omega
    constructor
    · intro o' there'
      obtain ⟨apart, there⟩ := mem_erase.mp there'
      rw [objOf, if_neg apart]
      exact counts o' there apart
    · intro q inProcs gd kind' o' isNamed
      obtain ⟨there, isKind⟩ := named q inProcs gd kind' o' isNamed
      have apart : o' ≠ o := by
        rintro rfl
        have none := (noneLeft there).1
        have listed : (q, gd) ∈ procs ×ˢ (univ : Finset Fd) := by simp [inProcs]
        exact not_owned_of_tally none listed (names_eq_some.mpr ⟨kind', isNamed⟩)
      refine ⟨mem_erase.mpr ⟨apart, there⟩, ?_⟩
      rw [objOf, if_neg apart]
      exact isKind
    · intro o' some_
      have there := inHand o' some_
      refine mem_erase.mpr ⟨?_, there⟩
      rintro rfl
      exact some_ (noneLeft there).2
    · intro o' there'
      obtain ⟨apart, there⟩ := mem_erase.mp there'
      rw [objOf, if_neg apart]
      exact closing o' there apart
    · intro o' there'
      obtain ⟨apart, there⟩ := mem_erase.mp there'
      rw [objOf, if_neg apart]
      exact used o' there apart
    · intro o' there'
      exact numbered o' (mem_of_mem_erase there')
  · rw [if_neg gone]
    constructor
    · intro o' there
      rw [objOf]
      split_ifs with same
      · subst same
        exact count there
      · exact counts o' there same
    · intro q inProcs gd kind' o' isNamed
      obtain ⟨there, isKind⟩ := named q inProcs gd kind' o' isNamed
      refine ⟨there, ?_⟩
      rw [objOf]
      split_ifs with same
      · subst same
        exact kind.trans isKind
      · exact isKind
    · exact inHand
    · intro o' there
      rw [objOf]
      split_ifs with same
      · subst same
        exact closing' there
      · exact closing o' there same
    · intro o' there
      rw [objOf]
      split_ifs with same
      · subst same
        intro isClosing
        by_contra unused
        push Not at unused
        exact gone ⟨isClosing, (closing' there).mp isClosing, unused.1, unused.2⟩
      · exact used o' there same
    · exact numbered

/-- What a release leaves alone. -/
structure SameTables (w w' : World) : Prop where
  table : w'.table = w.table
  procs : w'.procs = w.procs
  ctty : w'.ctty = w.ctty
  nextProc : w'.nextProc = w.nextProc

theorem sameTables_release (w : World) (o : Nat) (x : Object) :
    SameTables w (releaseIfUnused (w.setObj o x) o) := by
  unfold releaseIfUnused
  dsimp only
  split_ifs
  all_goals exact ⟨rfl, rfl, rfl, rfl⟩

theorem Conserved.owned {kind : Kind} (conserved : Conserved w procs held) (member : p ∈ procs)
    (named : w.table p fd = .object kind o) : (w.obj o).fdRefs ≠ 0 ∧ (w.obj o).closing = false := by
  obtain ⟨there, -⟩ := conserved.named p member fd kind o named
  have listed : (p, fd) ∈ procs ×ˢ (univ : Finset Fd) := by simp [member]
  have some_ : 0 < entries w procs o := tally_pos listed (names_eq_some.mpr ⟨kind, named⟩)
  have count := conserved.counts o there
  have positive : (w.obj o).fdRefs ≠ 0 := by omega
  refine ⟨positive, ?_⟩
  by_contra closing
  exact positive ((conserved.closing o there).mp (by simpa using closing))

/-- Emptying a slot drops its reference. -/
theorem closeSlot_spec (conserved : Conserved w procs held) (member : p ∈ procs) (fd : Fd) :
    Conserved (closeSlot w p fd) procs held ∧
      SameTables (w.setEntry p fd .free) (closeSlot w p fd) := by
  unfold closeSlot
  cases entry : w.table p fd with
  | free | tty =>
    refine ⟨?_, ⟨rfl, rfl, rfl, rfl⟩⟩
    exact conserved.setPlain member (by rw [entry]; rfl) rfl
  | object kind o =>
    obtain ⟨there, -⟩ := conserved.named p member fd kind o entry
    obtain ⟨positive, opened⟩ := conserved.owned member entry
    have move : ∀ o', entries (w.setEntry p fd .free) procs o' + share (some o) o' =
        entries w procs o' := by
      intro o'
      have moved := entries_setEntry w member fd .free o'
      rw [entry] at moved
      simpa [Entry.names] using moved
    refine ⟨Conserved.settle ?_ ?_ ?_ rfl conserved.inHand ?_ ?_ ?_ conserved.numbered,
      sameTables_release _ _ _⟩
    · intro o' there' apart
      have count := conserved.counts o' there'
      have moved := move o'
      rw [share_ne (Ne.symm apart)] at moved
      show (w.obj o').fdRefs = _
      omega
    · intro _
      have count := conserved.counts o there
      have moved := move o
      rw [share_self] at moved
      show (w.obj o).fdRefs - 1 = _
      omega
    · intro q inProcs gd kind' o' named
      by_cases here : q = p ∧ gd = fd
      · obtain ⟨rfl, rfl⟩ := here
        rw [setEntry_self] at named
        cases named
      · rw [setEntry_ne w _ here] at named
        exact conserved.named q inProcs gd kind' o' named
    · intro o' there' _
      exact conserved.closing o' there'
    · intro _
      show (((w.obj o).closing || decide ((w.obj o).fdRefs - 1 = 0)) = true ↔
        (w.obj o).fdRefs - 1 = 0)
      rw [opened]
      simp
    · intro o' there' _
      exact conserved.used o' there'

/-- Emptying the slots of a process. -/
theorem closeFds_spec (member : p ∈ procs) (list : List Fd) (w : World)
    (conserved : Conserved w procs held) :
    Conserved (closeFds w p list) procs held ∧
      (∀ fd, (closeFds w p list).table p fd = if fd ∈ list then .free else w.table p fd) ∧
      (∀ q, q ≠ p → (closeFds w p list).table q = w.table q) ∧
      (closeFds w p list).procs = w.procs ∧ (closeFds w p list).nextProc = w.nextProc := by
  induction list generalizing w with
  | nil => exact ⟨conserved, by simp [closeFds], fun _ _ => rfl, rfl, rfl⟩
  | cons fd rest ih =>
    obtain ⟨closed, same⟩ := closeSlot_spec conserved member fd
    obtain ⟨conserved', own, others, procs', next'⟩ := ih (closeSlot w p fd) closed
    unfold closeFds
    refine ⟨conserved', ?_, ?_, procs'.trans same.procs, next'.trans same.nextProc⟩
    · intro gd
      rw [own gd, same.table]
      by_cases inRest : gd ∈ rest
      · simp [inRest]
      by_cases here : gd = fd
      · subst here
        simp [inRest, setEntry_self]
      · simp [inRest, here, setEntry_ne w _ (fun both : p = p ∧ gd = fd => here both.2)]
    · intro q apart
      rw [others q apart, same.table]
      funext gd
      exact setEntry_ne w _ fun both => apart both.1

theorem mem_fds (fd : Fd) : fd ∈ fds := List.mem_finRange fd

theorem posixFdCloseAll_spec (conserved : Conserved w procs held) (member : p ∈ procs) :
    Conserved (posixFdCloseAll w p) procs held ∧
      (∀ fd, (posixFdCloseAll w p).table p fd = .free) ∧
      (posixFdCloseAll w p).procs = w.procs ∧ (posixFdCloseAll w p).nextProc = w.nextProc := by
  obtain ⟨conserved', own, -, procs', next'⟩ := closeFds_spec member fds w conserved
  refine ⟨conserved', ?_, procs', next'⟩
  intro fd
  rw [posixFdCloseAll, own fd, if_pos (mem_fds fd)]

/-- Processes whose tables name nothing do not count. -/
theorem entries_plain (plain : ∀ fd, (w.table q fd).names = none) (o : Nat) :
    entries w (insert q procs) o = entries w procs o := by
  unfold entries tally
  congr 1
  ext i
  simp only [mem_filter, mem_product, mem_insert, mem_univ, and_true]
  constructor
  · rintro ⟨rfl | member, named⟩
    · rw [plain] at named
      cases named
    · exact ⟨member, named⟩
  · rintro ⟨member, named⟩
    exact ⟨Or.inr member, named⟩

theorem conserved_insert (plain : ∀ fd, (w.table q fd).names = none) :
    Conserved w (insert q procs) held ↔ Conserved w procs held := by
  have noObject : ∀ fd kind o, w.table q fd ≠ .object kind o := by
    intro fd kind o named
    have none := plain fd
    rw [named] at none
    cases none
  constructor
  · intro conserved
    refine { conserved with counts := ?_, named := ?_ }
    · intro o there
      rw [← entries_plain plain o]
      exact conserved.counts o there
    · intro p member
      exact conserved.named p (mem_insert_of_mem member)
  · intro conserved
    refine { conserved with counts := ?_, named := ?_ }
    · intro o there
      rw [entries_plain plain o]
      exact conserved.counts o there
    · intro p member fd kind o named
      rcases mem_insert.mp member with rfl | old
      · exact absurd named (noObject fd kind o)
      · exact conserved.named p old fd kind o named

/-- A process whose table names nothing can leave. -/
theorem conserved_erase (plain : ∀ fd, (w.table p fd).names = none) (member : p ∈ procs) :
    Conserved w (procs.erase p) held ↔ Conserved w procs held := by
  rw [← conserved_insert plain, insert_erase member]

theorem fdAllocSlot_free {fd : Fd} (slot : fdAllocSlot w p = some fd) :
    (w.table p fd).names = none := by
  have found := List.find?_some slot
  have free : w.table p fd = .free := by simpa using (Bool.and_eq_true_iff.mp found).2
  rw [free]
  rfl

theorem conserved_sysClose (conserved : Conserved w procs held) (member : p ∈ procs) (fd : Fd) :
    Conserved (sysClose w p fd) procs held ∧ ((sysClose w p fd).table p fd).names = none ∧
      (sysClose w p fd).procs = w.procs ∧ (sysClose w p fd).nextProc = w.nextProc ∧
      ∀ o, o ∈ (sysClose w p fd).objs → ((sysClose w p fd).obj o).kind = (w.obj o).kind := by
  have kinds : ∀ o, ((closeSlot w p fd).obj o).kind = (w.obj o).kind := by
    intro o
    unfold closeSlot closeObject releaseIfUnused
    cases w.table p fd with
    | free | tty => rfl
    | object kind o' =>
      dsimp only
      split_ifs
      all_goals
        by_cases same : o = o'
        · subst same
          simp [World.setObj, World.setEntry]
        · simp [World.setObj, World.setEntry, same]
  unfold sysClose
  cases entry : w.table p fd with
  | free => exact ⟨conserved, by rw [entry]; rfl, rfl, rfl, fun _ _ => rfl⟩
  | tty | object =>
    obtain ⟨closed, same⟩ := closeSlot_spec conserved member fd
    refine ⟨closed, ?_, same.procs, same.nextProc, fun o _ => kinds o⟩
    rw [same.table, setEntry_self]
    rfl

theorem conserved_sysOpen (conserved : Conserved w procs (fun _ => 0)) (member : p ∈ procs)
    (kind : Kind) (made : Bool) : Conserved (sysOpen w p kind made) procs (fun _ => 0) := by
  unfold sysOpen
  split
  · exact conserved
  rename_i fd slot
  split_ifs
  · have new : w.nextObj ∉ w.objs := fun there => Nat.lt_irrefl _ (conserved.numbered _ there)
    have unnamed : entries w procs w.nextObj = 0 := by
      apply tally_zero
      rintro ⟨q, gd⟩ listed named
      obtain ⟨kind', isNamed⟩ := names_eq_some.mp named
      exact new (conserved.named q (mem_product.mp listed).1 gd kind' _ isNamed).1
    have apart : ∀ o ∈ w.objs, o ≠ w.nextObj := fun o there same => new (same ▸ there)
    -- the new object, its reference still in hand
    have made : Conserved { w.setObj w.nextObj ⟨kind, 1, 0, 0, false⟩ with
        objs := insert w.nextObj w.objs, nextObj := w.nextObj + 1 } procs
        (bump (fun _ => 0) w.nextObj) := by
      constructor
      · intro o there
        show (update w.obj w.nextObj _ o).fdRefs = entries w procs o + _
        rcases mem_insert.mp there with rfl | old
        · simp [bump, unnamed]
        · simpa [bump, apart o old] using conserved.counts o old
      · intro q inProcs gd kind' o named
        obtain ⟨there, isKind⟩ := conserved.named q inProcs gd kind' o named
        refine ⟨mem_insert_of_mem there, ?_⟩
        simpa [World.setObj, apart o there] using isKind
      · intro o some_
        by_cases same : o = w.nextObj
        · simp [same]
        · simp [bump, same] at some_
      · intro o there
        rcases mem_insert.mp there with rfl | old
        · simp [World.setObj]
        · simpa [World.setObj, apart o old] using conserved.closing o old
      · intro o there
        rcases mem_insert.mp there with rfl | old
        · simp [World.setObj]
        · simpa [World.setObj, apart o old] using conserved.used o old
      · intro o there
        rcases mem_insert.mp there with rfl | old
        · exact Nat.lt_succ_self _
        · exact Nat.lt_succ_of_lt (conserved.numbered o old)
    exact made.install member (fdAllocSlot_free slot) (by simp [World.setObj])
  · exact conserved

theorem inheritObject_next (got : inheritObject w o forFork = (ok, w')) :
    w'.nextProc = w.nextProc := by
  unfold inheritObject at got
  split_ifs at got
  all_goals
    cases got
    rfl

theorem conserved_sysDup (conserved : Conserved w procs held) (member : p ∈ procs) (oldfd : Fd) :
    Conserved (sysDup w p oldfd) procs held ∧ (sysDup w p oldfd).procs = w.procs ∧
      (sysDup w p oldfd).nextProc = w.nextProc := by
  unfold sysDup
  split
  · exact ⟨conserved, rfl, rfl⟩
  rename_i nf slot
  split_ifs
  · exact ⟨conserved.setPlain member (fdAllocSlot_free slot) rfl, rfl, rfl⟩
  split
  · exact ⟨conserved, rfl, rfl⟩
  · rename_i kind o _ entry
    rcases got : inheritObject w o false with ⟨ok, w₁⟩
    have next := inheritObject_next got
    rcases inheritObject_spec conserved (conserved.owned member entry).1 got with
      ⟨rfl, rfl⟩ | ⟨rfl, table, procs', isKind, conserved'⟩
    · exact ⟨conserved, rfl, rfl⟩
    refine ⟨conserved'.install member ?_ ?_, procs', next⟩
    · rw [table]
      exact fdAllocSlot_free slot
    · rw [isKind]
      exact (conserved.named p member oldfd kind o entry).2
  · exact ⟨conserved, rfl, rfl⟩

theorem conserved_sysDup2 (conserved : Conserved w procs held) (member : p ∈ procs)
    (oldfd newfd : Fd) :
    Conserved (sysDup2 w p oldfd newfd) procs held ∧ (sysDup2 w p oldfd newfd).procs = w.procs ∧
      (sysDup2 w p oldfd newfd).nextProc = w.nextProc := by
  unfold sysDup2
  split_ifs
  · exact ⟨conserved, rfl, rfl⟩
  · obtain ⟨closed, plain, procs', next, -⟩ := conserved_sysClose conserved member newfd
    exact ⟨closed.setPlain member plain rfl, procs', next⟩
  split
  · exact ⟨conserved, rfl, rfl⟩
  · rename_i kind o _ entry
    rcases got : inheritObject w o false with ⟨ok, w₁⟩
    have next := inheritObject_next got
    rcases inheritObject_spec conserved (conserved.owned member entry).1 got with
      ⟨rfl, rfl⟩ | ⟨rfl, table, procs', isKind, conserved'⟩
    · exact ⟨conserved, rfl, rfl⟩
    obtain ⟨closed, plain, procs'', next', kinds⟩ := conserved_sysClose conserved' member newfd
    refine ⟨closed.install member plain ?_, procs''.trans procs', next'.trans next⟩
    rw [kinds o (closed.inHand o (by simp [bump])), isKind]
    exact (conserved.named p member oldfd kind o entry).2
  · exact ⟨conserved, rfl, rfl⟩

/-- A reference for each entry copied, also when cloning stops early. -/
theorem cloneFds_spec (inDst : dst ∈ procs) (inSrc : src ∈ procs) (list : List Fd)
    (nodup : list.Nodup) (w : World) (conserved : Conserved w procs held)
    (plain : ∀ fd ∈ list, (w.table dst fd).names = none)
    (got : cloneFds w dst src forFork list = (ok, w')) :
    Conserved w' procs held ∧ w'.procs = w.procs ∧ w'.nextProc = w.nextProc := by
  induction list generalizing w with
  | nil =>
    cases got
    exact ⟨conserved, rfl, rfl⟩
  | cons fd rest ih =>
    obtain ⟨fresh, restNodup⟩ := List.nodup_cons.mp nodup
    have here := plain fd List.mem_cons_self
    have later : ∀ (x : World) e, x.table = w.table →
        ∀ gd ∈ rest, ((x.setEntry dst fd e).table dst gd).names = none := by
      intro x e table gd inRest
      have other : ¬ (dst = dst ∧ gd = fd) := fun both => fresh (both.2 ▸ inRest)
      rw [setEntry_ne x e other, table]
      exact plain gd (List.mem_cons_of_mem _ inRest)
    unfold cloneFds at got
    cases entry : w.table src fd with
    | free =>
      rw [entry] at got
      exact ih restNodup (w.setEntry dst fd .free) (conserved.setPlain inDst here rfl)
        (later w _ rfl) got
    | tty =>
      rw [entry] at got
      exact ih restNodup (w.setEntry dst fd .tty) (conserved.setPlain inDst here rfl)
        (later w _ rfl) got
    | object kind o =>
      rw [entry] at got
      dsimp only at got
      rcases inherited : inheritObject w o forFork with ⟨ok₁, w₁⟩
      rw [inherited] at got
      have next := inheritObject_next inherited
      rcases inheritObject_spec conserved (conserved.owned inSrc entry).1 inherited with
        ⟨rfl, rfl⟩ | ⟨rfl, table, procs', isKind, conserved'⟩
      · cases got
        exact ⟨conserved, rfl, rfl⟩
      have stored := @Conserved.install w₁ procs held dst fd o kind conserved' inDst
        (by rw [table]; exact here)
        (by rw [isKind]; exact (conserved.named src inSrc fd kind o entry).2)
      obtain ⟨done, procs'', next'⟩ := ih restNodup _ stored (later w₁ _ table) got
      exact ⟨done, procs''.trans procs', next'.trans next⟩

theorem posixFdCloneMode_spec (inDst : dst ∈ procs) (inSrc : src ∈ procs)
    (conserved : Conserved w procs held) (plain : ∀ fd, (w.table dst fd).names = none)
    (got : posixFdCloneMode w dst src forFork = (ok, w')) :
    Conserved w' procs held ∧ w'.procs = w.procs ∧ w'.nextProc = w.nextProc ∧
      (ok = false → ∀ fd, (w'.table dst fd).names = none) := by
  unfold posixFdCloneMode at got
  rcases looped : cloneFds w dst src forFork fds with ⟨ok₁, w₁⟩
  rw [looped] at got
  obtain ⟨conserved', procs', next'⟩ := cloneFds_spec inDst inSrc fds (List.nodup_finRange 64) w
    conserved (fun fd _ => plain fd) looped
  cases ok₁ with
  | true =>
    cases got
    exact ⟨conserved', procs', next', nofun⟩
  | false =>
    cases got
    obtain ⟨closed, empty, procs'', next''⟩ := posixFdCloseAll_spec conserved' inDst
    refine ⟨closed, procs''.trans procs', next''.trans next', ?_⟩
    intro _ fd
    rw [empty fd]
    rfl

theorem conserved_newPcb (conserved : Conserved w procs held) (below : ∀ p ∈ procs, p < w.nextProc)
    (parent : Nat) : Conserved (newPcb w parent) (insert w.nextProc procs) held := by
  have apart : ∀ q ∈ procs, q ≠ w.nextProc := fun q member => Nat.ne_of_lt (below q member)
  have table : ∀ q ∈ procs, (newPcb w parent).table q = w.table q :=
    fun q member => update_of_ne (apart q member) _ _
  apply (conserved_insert (by intro fd; simp [newPcb, Entry.names])).mpr
  refine { conserved with counts := ?_, named := ?_ }
  · intro o there
    rw [show entries (newPcb w parent) procs o = entries w procs o from
      tally_congr (fun i listed => by rw [table i.1 (mem_product.mp listed).1]) o]
    exact conserved.counts o there
  · intro q member fd kind o named
    rw [table q member] at named
    exact conserved.named q member fd kind o named

end

section Runs

variable {w : World}

/-- The invariant of the whole system. -/
structure Sound (w : World) : Prop where
  conserved : Conserved w w.procs fun _ => 0
  below : ∀ p ∈ w.procs, p < w.nextProc

section

variable (sound : Sound w)
include sound

theorem Sound.of_same (conserved : Conserved w' w.procs fun _ => 0) (procs : w'.procs = w.procs)
    (next : w'.nextProc = w.nextProc) : Sound w' where
  conserved := by rwa [procs]
  below := by
    rw [procs, next]
    exact sound.below

/-- A new process with the descriptors of its parent, or with none. -/
theorem sound_clone (member : p ∈ w.procs) {w₁ : World}
    (got : posixFdCloneMode (newPcb w p) w.nextProc p forFork = (ok, w₁)) :
    Sound { w₁ with procs := insert w.nextProc w₁.procs } ∧ (ok = false → Sound w₁) := by
  have opened := conserved_newPcb sound.conserved sound.below p
  obtain ⟨conserved, procs, next, empty⟩ := posixFdCloneMode_spec (mem_insert_self _ _)
    (mem_insert_of_mem member) opened (by intro fd; simp [newPcb, Entry.names]) got
  have below : ∀ q ∈ w.procs, q < w₁.nextProc := by
    intro q inProcs
    rw [next]
    exact Nat.lt_succ_of_lt (sound.below q inProcs)
  have procs' : w₁.procs = w.procs := procs
  constructor
  · constructor
    · show Conserved _ (insert w.nextProc w₁.procs) _
      rw [procs']
      exact { conserved with }
    · intro q inProcs
      rcases mem_insert.mp inProcs with rfl | old
      · rw [show World.nextProc _ = w₁.nextProc from rfl, next]
        exact Nat.lt_succ_self _
      · rw [procs'] at old
        exact below q old
  · intro failed
    refine ⟨?_, ?_⟩
    · rw [procs']
      exact (conserved_insert (empty failed)).mp conserved
    · rw [procs']
      exact below

theorem sound_fork (member : p ∈ w.procs) : Sound (fork w p) := by
  unfold fork
  split_ifs
  · rcases got : posixFdCloneMode (newPcb w p) w.nextProc p true with ⟨ok, w₁⟩
    obtain ⟨entered, refused⟩ := sound_clone sound member got
    cases ok with
    | true => exact entered
    | false => exact refused rfl
  · exact sound

theorem sound_createprocess (member : p ∈ w.procs) : Sound (createprocess w p) :=
  (sound_clone sound member rfl).1

theorem sound_leave {p : Nat} (member : p ∈ w.procs) (plain : ∀ fd, (w.table p fd).names = none) :
    Sound { w with procs := w.procs.erase p } where
  conserved := by
    have without := (conserved_erase plain member).mpr sound.conserved
    exact { without with }
  below q inRest := sound.below q (mem_of_mem_erase inRest)

end

/-- A table of another process is not touched by the cloning. -/
theorem cloneFds_table (apart : q ≠ dst) (list : List Fd) (w : World) :
    (cloneFds w dst src forFork list).2.table q = w.table q := by
  induction list generalizing w with
  | nil => rfl
  | cons fd rest ih =>
    have stored : ∀ (x : World) e, (x.setEntry dst fd e).table q = x.table q := by
      intro x e
      funext gd
      exact setEntry_ne x e fun both => apart both.1
    unfold cloneFds
    split
    · rename_i kind o entry
      unfold inheritObject
      split_ifs
      · rfl
      · exact (ih _).trans (stored _ _)
    · exact (ih _).trans (stored w _)

theorem closeFds_table (apart : q ≠ p) (list : List Fd) (w : World) :
    (closeFds w p list).table q = w.table q := by
  induction list generalizing w with
  | nil => rfl
  | cons fd rest ih =>
    have stored : (w.setEntry p fd .free).table q = w.table q := by
      funext gd
      exact setEntry_ne w _ fun both => apart both.1
    refine (ih _).trans ?_
    unfold closeSlot closeObject
    split
    · rw [(sameTables_release _ _ _).table]
      exact stored
    · exact stored

theorem createprocess_table (old : q < w.nextProc) : (createprocess w p).table q = w.table q := by
  have apart : q ≠ w.nextProc := Nat.ne_of_lt old
  have cloned : (cloneFds (newPcb w p) w.nextProc p false fds).2.table q = (newPcb w p).table q :=
    cloneFds_table apart fds _
  have fresh : (newPcb w p).table q = w.table q := update_of_ne apart _ _
  unfold createprocess posixFdCloneMode
  split
  · rename_i w₁ looped
    rw [looped] at cloned
    exact cloned.trans fresh
  · rename_i w₁ looped
    rw [looped] at cloned
    exact (closeFds_table apart fds w₁).trans (cloned.trans fresh)

/-- A process that replaces itself has no descriptor left. -/
def Clean (w : World) : Op → Prop
  | .execve p => ∀ fd kind o, w.table p fd ≠ .object kind o
  | _ => True

theorem sound_execve (sound : Sound w) (member : p ∈ w.procs)
    (clean : ∀ fd kind o, w.table p fd ≠ .object kind o) : Sound (sysExecve w p) := by
  have created := sound_createprocess sound member
  refine sound_leave created ?_ ?_
  · show p ∈ (createprocess w p).procs
    unfold createprocess
    dsimp only
    rcases got : posixFdCloneMode (newPcb w p) w.nextProc p false with ⟨ok, w₁⟩
    have opened := conserved_newPcb sound.conserved sound.below p
    obtain ⟨-, procs, -, -⟩ := posixFdCloneMode_spec (mem_insert_self _ _)
      (mem_insert_of_mem member) opened
      (by intro fd; simp [newPcb, Entry.names]) got
    rw [procs]
    exact mem_insert_of_mem member
  · intro fd
    rw [createprocess_table (sound.below p member)]
    cases entry : w.table p fd with
    | free => rfl
    | tty => rfl
    | object kind o => exact absurd entry (clean fd kind o)

theorem sound_exit (sound : Sound w) (member : p ∈ w.procs) : Sound (exit w p) := by
  obtain ⟨closed, empty, procs, next⟩ := posixFdCloseAll_spec sound.conserved member
  refine sound_leave (sound.of_same closed procs next) (by rw [procs]; exact member) ?_
  intro fd
  rw [empty fd]
  rfl

/-- A transfer changes the counts of use only. -/
theorem sound_use (sound : Sound w) (o active inflight : Nat) :
    Sound (releaseIfUnused (w.setObj o
      { w.obj o with activeRefs := active, inflight := inflight }) o) := by
  have same := sameTables_release w o { w.obj o with activeRefs := active, inflight := inflight }
  refine sound.of_same ?_ same.procs same.nextProc
  exact Conserved.settle (fun o' there _ => sound.conserved.counts o' there)
    (fun there => sound.conserved.counts o there) sound.conserved.named rfl
    sound.conserved.inHand (fun o' there _ => sound.conserved.closing o' there)
    (fun there => sound.conserved.closing o there)
    (fun o' there _ => sound.conserved.used o' there) sound.conserved.numbered

theorem releaseIfUnused_used (w : World) {o : Nat} {x : Object}
    (used : x.closing = false ∨ x.activeRefs ≠ 0) :
    releaseIfUnused (w.setObj o x) o = w.setObj o x := by
  have stored : (w.setObj o x).obj o = x := by simp [World.setObj]
  unfold releaseIfUnused
  rw [stored, if_neg]
  rintro ⟨closing, -, unused, -⟩
  rcases used with opened | active
  · rw [opened] at closing
    cases closing
  · exact active unused

theorem sound_ioGet (sound : Sound w) (p : Nat) (fd : Fd) : Sound (ioGet w p fd) := by
  unfold ioGet
  split
  · exact sound
  · rename_i kind o _ _
    cases closing : (w.obj o).closing with
    | true => exact sound
    | false =>
      have used := sound_use sound o ((w.obj o).activeRefs + 1) (w.obj o).inflight
      rw [releaseIfUnused_used w (by exact Or.inl closing)] at used
      exact used
  · exact sound

theorem sound_uringQueue (sound : Sound w) (o : Nat) : Sound (uringQueue w o) := by
  unfold uringQueue
  split_ifs with refused
  · exact sound
  have active := (not_or.mp refused).2
  have used := sound_use sound o (w.obj o).activeRefs ((w.obj o).inflight + 1)
  rw [releaseIfUnused_used w (by exact Or.inr active)] at used
  exact used

theorem sound_step {op : Op} (sound : Sound w) (clean : Clean w op) (issued : Issued w op) :
    Sound (performOp w op) := by
  cases op with
  | «open» p kind made =>
    have opened := conserved_sysOpen sound.conserved issued kind made
    refine sound.of_same opened ?_ ?_
    all_goals
      simp only [performOp, sysOpen]
      split
      · rfl
      · split_ifs
        all_goals rfl
  | close p fd =>
    obtain ⟨closed, -, procs, next, -⟩ := conserved_sysClose sound.conserved issued fd
    exact sound.of_same closed procs next
  | dup p oldfd =>
    obtain ⟨conserved, procs, next⟩ := conserved_sysDup sound.conserved issued oldfd
    exact sound.of_same conserved procs next
  | dup2 p oldfd newfd =>
    obtain ⟨conserved, procs, next⟩ := conserved_sysDup2 sound.conserved issued oldfd newfd
    exact sound.of_same conserved procs next
  | fork p => exact sound_fork sound issued
  | createprocess p => exact sound_createprocess sound issued
  | execve p => exact sound_execve sound issued clean
  | exit p => exact sound_exit sound issued
  | ioGet p fd => exact sound_ioGet sound p fd
  | ioPut o => exact sound_use sound o ((w.obj o).activeRefs - 1) (w.obj o).inflight
  | uringQueue o => exact sound_uringQueue sound o
  | uringComplete o => exact sound_use sound o (w.obj o).activeRefs ((w.obj o).inflight - 1)

theorem sound_start (first : descriptors.start w) : Sound w := by
  obtain ⟨empty, below, plain⟩ := first
  refine ⟨⟨?_, ?_, ?_, ?_, ?_, ?_⟩, below⟩
  · simp [empty]
  · intro p member fd kind o named
    exact absurd named (plain p member fd kind o)
  · exact fun _ some_ => absurd rfl some_
  all_goals simp [empty]

theorem sound_reachable (run : Reachable descriptors Clean w) : Sound w := by
  refine run.invariant (fun _ => sound_start) ?_
  rintro s op t sound clean ⟨issued, rfl⟩
  exact sound_step sound clean issued

/-- Where no process with descriptors replaces itself, an object's count is the number of entries
that name it; it starts closing when the last one goes, and only transfers keep it then; without
processes nothing is referenced. -/
theorem descriptor_counts_conserved (run : Reachable descriptors Clean w) :
    (∀ o ∈ w.objs, (w.obj o).fdRefs = entries w w.procs o) ∧
      (∀ p ∈ w.procs, ∀ fd kind o, w.table p fd = .object kind o →
        o ∈ w.objs ∧ (w.obj o).kind = kind ∧ (w.obj o).closing = false) ∧
      (∀ o ∈ w.objs, (w.obj o).closing = true ↔ entries w w.procs o = 0) ∧
      (∀ o ∈ w.objs, entries w w.procs o = 0 →
        (w.obj o).activeRefs ≠ 0 ∨ (w.obj o).inflight ≠ 0) ∧
      (w.procs = ∅ → ∀ o ∈ w.objs, (w.obj o).fdRefs = 0) := by
  have conserved := (sound_reachable run).conserved
  have counts : ∀ o ∈ w.objs, (w.obj o).fdRefs = entries w w.procs o := by
    intro o there
    simpa using conserved.counts o there
  have closing : ∀ o ∈ w.objs, (w.obj o).closing = true ↔ entries w w.procs o = 0 := by
    intro o there
    rw [← counts o there]
    exact conserved.closing o there
  refine ⟨counts, ?_, closing, ?_, ?_⟩
  · intro p member fd kind o named
    obtain ⟨there, isKind⟩ := conserved.named p member fd kind o named
    exact ⟨there, isKind, (conserved.owned member named).2⟩
  · intro o there none
    exact conserved.used o there ((closing o there).mpr none)
  · intro none o there
    rw [counts o there, none]
    simp [entries, tally]

def oneProcess : World where
  procs := {0}
  table _ _ := .free
  ctty _ := false
  nextProc := 1
  objs := ∅
  obj _ := ⟨.vfs, 0, 0, 0, false⟩
  nextObj := 0

theorem oneProcess_start : descriptors.start oneProcess := by
  refine ⟨rfl, by decide, ?_⟩
  intro p _ fd kind o
  nofun

def fileOpen : World := performOp oneProcess (.open 0 .vfs true)

theorem fileOpen_reachable (guard : World → Op → Prop)
    (allowed : guard oneProcess (.open 0 .vfs true)) : Reachable descriptors guard fileOpen :=
  .step (.start oneProcess_start) allowed ⟨by simp [Issued, oneProcess], rfl⟩

/-- The replaced process's entry keeps a reference nobody has. -/
theorem execve_leaks_descriptor : ∃ w, Reachable descriptors (fun _ _ => True) w ∧
    ∃ o ∈ w.objs, (w.obj o).fdRefs ≠ entries w w.procs o := by
  refine ⟨performOp fileOpen (.execve 0), ?_, 0, ?_, ?_⟩
  · have alive : 0 ∈ fileOpen.procs := by decide
    exact .step (a := .execve 0) (fileOpen_reachable _ trivial) trivial ⟨alive, rfl⟩
  · decide
  · decide

theorem descriptor_counts_conserved_opened :
    0 ∈ fileOpen.objs ∧ (fileOpen.obj 0).fdRefs = entries fileOpen fileOpen.procs 0 :=
  ⟨by decide, (descriptor_counts_conserved (fileOpen_reachable Clean trivial)).1 0 (by decide)⟩

end Runs

end IcsOs.Posix.Descriptors
