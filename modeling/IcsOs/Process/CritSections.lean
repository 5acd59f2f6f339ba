/- GID: IcsOs/Process/CritSections
   generality: I
   source: kernel/process/sync.c, kernel/process/irq_kstack.h
   digest: Recursive critical sections owned by pid tokens, with a bounded nest stack per process.
   -/

import Mathlib.Algebra.Group.Nat.Defs
import IcsOs.Lib.Runs
import Mathlib.Data.List.Count
import Mathlib.Data.List.Basic

set_option autoImplicit false

namespace IcsOs.Process.CritSections

open Function List
open Lib.Runs

section

/-- A `sync_sharedvar`, by its address. -/
abbrev Var := Nat

abbrev Cpu := Nat

/-- `CRIT_NEST_MAX`, also the length of `held_crits`. -/
def critNestMax : Nat := 16

/-- `busy` is the owner's token, or zero; `wait` is the depth. -/
structure SyncSharedvar where
  busy : Nat
  wait : Nat

/-- What the sections use of `PCB386`; the nest stack has its top first. -/
structure Pcb where
  processid : Nat
  accessUser : Bool
  critNest : List (Var × Nat)
  heldCrits : List Var

variable {Proc : Type} [DecidableEq Proc]

/-- The sections, the processes, the ready ring and who runs where. -/
structure Kernel (Proc : Type) where
  vars : Var → SyncSharedvar
  pcb : Proc → Pcb
  ring : List Proc
  running : Cpu → Proc

def Kernel.setPcb (k : Kernel Proc) (p : Proc) (b : Pcb) : Kernel Proc :=
  { k with pcb := Function.update k.pcb p b }

def Kernel.setVar (k : Kernel Proc) (v : Var) (s : SyncSharedvar) : Kernel Proc :=
  { k with vars := Function.update k.vars v s }

def critTokenForPids (leftoverPid mmPid : Nat) : Nat :=
  let use := if mmPid ≠ 0 then mmPid else leftoverPid
  let use := if leftoverPid ≠ 0 ∧ mmPid = 0 then leftoverPid else use
  use % 2 ^ 23 + 1

/-- `sync_owner_token` of a process on its own page directory. -/
def syncOwnerToken (b : Pcb) : Nat :=
  critTokenForPids (if b.accessUser then b.processid else 0) b.processid

/-- The first of 512 processes of the ring with the token's pid. -/
def syncOwnerPcb (k : Kernel Proc) (owner : Nat) : Option Proc :=
  if owner = 0 then none
  else (k.ring.take 512).find? fun p => (k.pcb p).processid % 2 ^ 23 == owner - 1

/-- A full stack drops the entry. -/
def critNestPush (b : Pcb) (v : Var) (tok : Nat) : Pcb :=
  if critNestMax ≤ b.critNest.length then b else { b with critNest := (v, tok) :: b.critNest }

/-- Only the top of the stack is ever taken off. -/
def critNestPopOn (b : Pcb) (v : Var) (fallback : Nat) : Nat × Pcb :=
  match b.critNest with
  | [] => (fallback, b)
  | (u, tok) :: rest => if u = v then (tok, { b with critNest := rest }) else (fallback, b)

/-- `sync_cpu_holds` for the process of a CPU. -/
def syncCpuHolds (k : Kernel Proc) (cpu : Cpu) (v : Var) : Bool :=
  (k.pcb (k.running cpu)).critNest.any fun e => e.1 == v

/-- A seventeenth section is not tracked. -/
def syncTrackHold (b : Pcb) (v : Var) : Pcb :=
  if v ∈ b.heldCrits then b
  else if b.heldCrits.length < critNestMax then { b with heldCrits := b.heldCrits ++ [v] }
  else b

/-- The last entry takes the place of the one removed. -/
def syncUntrackHoldOn (b : Pcb) (v : Var) : Pcb :=
  match b.heldCrits.idxOf? v with
  | none => b
  | some i => { b with heldCrits := (b.heldCrits.set i (b.heldCrits.getLastD v)).dropLast }

/-- `__sync_add_and_fetch(&var->wait, 1)`. -/
def addAndFetch (wait : Nat) : Nat := (wait + 1) % 2 ^ 32

/-- `__sync_sub_and_fetch(&var->wait, 1)`. -/
def subAndFetch (wait : Nat) : Nat := (wait + (2 ^ 32 - 1)) % 2 ^ 32

/-- `none` where it spins on; the test before the loop is the first branch. -/
def enterPass (k : Kernel Proc) (p : Proc) (v : Var) : Option (Kernel Proc) :=
  let owner := syncOwnerToken (k.pcb p)
  let s := k.vars v
  if s.busy = owner then
    some ((k.setVar v { s with wait := addAndFetch s.wait }).setPcb p
      (critNestPush (k.pcb p) v owner))
  else if s.busy = 0 then
    some ((k.setVar v ⟨owner, 1⟩).setPcb p (critNestPush (syncTrackHold (k.pcb p) v) v owner))
  else none

/-- The owner the section's token leads to, if any. -/
def popTarget (k : Kernel Proc) (p : Proc) (v : Var) : Proc :=
  (syncOwnerPcb k (k.vars v).busy).getD p

/-- `sync_untrack_hold` by process `p`. -/
def syncUntrackHold (k : Kernel Proc) (p : Proc) (v : Var) : Kernel Proc :=
  let k1 := k.setPcb p (syncUntrackHoldOn (k.pcb p) v)
  match syncOwnerPcb k1 (k1.vars v).busy with
  | none => k1
  | some q => if q = p then k1 else k1.setPcb q (syncUntrackHoldOn (k1.pcb q) v)

/-- `sync_leavecrit` by process `p` up to the release, and whether one follows. -/
def leaveCount (k : Kernel Proc) (p : Proc) (v : Var) : Kernel Proc × Bool :=
  let q := popTarget k p v
  let popped := critNestPopOn (k.pcb q) v (syncOwnerToken (k.pcb p))
  let k1 := k.setPcb q popped.2
  let s := k.vars v
  if s.busy ≠ popped.1 then (k1, false)
  else
    let wait := subAndFetch s.wait
    let k2 := k1.setVar v { s with wait := wait }
    if wait = 0 then (syncUntrackHold k2 p v, true) else (k2, false)

/-- `__sync_lock_release(&var->busy)`. -/
def lockRelease (k : Kernel Proc) (v : Var) : Kernel Proc := k.setVar v ⟨0, (k.vars v).wait⟩

def syncLeavecrit (k : Kernel Proc) (p : Proc) (v : Var) : Kernel Proc :=
  let left := leaveCount k p v
  if left.2 then lockRelease left.1 v else left.1

/-- The kernel with each process's enters minus its leaves. -/
structure Desk (Proc : Type) where
  kernel : Kernel Proc
  depth : Proc → Var → Nat

def Desk.setDepth (w : Desk Proc) (p : Proc) (v : Var) (n : Nat) : Proc → Var → Nat :=
  Function.update w.depth p (Function.update (w.depth p) v n)

/-- Passes of an enter, leaves, switches and changes of the ring. -/
inductive Act (Proc : Type)
  | enter (cpu : Cpu) (v : Var)
  | leave (cpu : Cpu) (v : Var)
  | dispatch (cpu : Cpu) (p : Proc)
  | reorder (ring : List Proc)

/-- A process leaves only sections entered more often than left. -/
def step (w : Desk Proc) : Act Proc → Option (Desk Proc)
  | .enter cpu v =>
    let p := w.kernel.running cpu
    match enterPass w.kernel p v with
    | none => some w
    | some k => some ⟨k, w.setDepth p v (w.depth p v + 1)⟩
  | .leave cpu v =>
    let p := w.kernel.running cpu
    if w.depth p v = 0 then none
    else some ⟨syncLeavecrit w.kernel p v, w.setDepth p v (w.depth p v - 1)⟩
  | .dispatch cpu p =>
    some { w with kernel := { w.kernel with running := Function.update w.kernel.running cpu p } }
  | .reorder ring => some { w with kernel := { w.kernel with ring := ring } }

/-- Any processes with any pids, no section entered yet. -/
def sections : System (Desk Proc) (Act Proc) where
  start w := (∀ v, w.kernel.vars v = ⟨0, 0⟩) ∧
    (∀ p, (w.kernel.pcb p).critNest = [] ∧ (w.kernel.pcb p).heldCrits = []) ∧
    ∀ p v, w.depth p v = 0
  step w a w' := step w a = some w'

def Desk.token (w : Desk Proc) (p : Proc) : Nat := syncOwnerToken (w.kernel.pcb p)

/-- No other process has a pid that is the same modulo `2 ^ 23`. -/
def Alone (w : Desk Proc) (p : Proc) : Prop :=
  ∀ q, w.token q = w.token p → q = p

/-- Room on the nest stack, leaves in reverse order, and no shared token. -/
def Nested (w : Desk Proc) : Act Proc → Prop
  | .enter cpu _ => Alone w (w.kernel.running cpu) ∧
      (w.kernel.pcb (w.kernel.running cpu)).critNest.length < critNestMax
  | .leave cpu v => Alone w (w.kernel.running cpu) ∧
      ((w.kernel.pcb (w.kernel.running cpu)).critNest.head?.map Prod.fst) = some v
  | _ => True

end

section Invariant

variable {Proc : Type} {w w' : Desk Proc} {p q : Proc} {v : Var} {cpu : Cpu}

theorem syncOwnerToken_eq (b : Pcb) : syncOwnerToken b = b.processid % 2 ^ 23 + 1 := by
  unfold syncOwnerToken critTokenForPids
  by_cases zero : b.processid = 0
  · simp [zero]
  · simp [zero]

theorem token_eq (w : Desk Proc) (p : Proc) :
    w.token p = (w.kernel.pcb p).processid % 2 ^ 23 + 1 :=
  syncOwnerToken_eq _

/-- Nobody, or one process at the depth of the section. -/
inductive Owned (w : Desk Proc) (v : Var) : Prop
  | free (busy : (w.kernel.vars v) = ⟨0, 0⟩) (nobody : ∀ p, w.depth p v = 0)
  | owner (p : Proc) (alone : Alone w p) (busy : (w.kernel.vars v).busy = w.token p)
      (entered : 0 < w.depth p v) (depth : (w.kernel.vars v).wait = w.depth p v)
      (only : ∀ q, q ≠ p → w.depth q v = 0)

/-- The nest stack is the account of enters and leaves. -/
structure Account (w : Desk Proc) (p : Proc) : Prop where
  count : ∀ v, ((w.kernel.pcb p).critNest.map Prod.fst).count v = w.depth p v
  tokens : ∀ e ∈ (w.kernel.pcb p).critNest, e.2 = w.token p
  room : (w.kernel.pcb p).critNest.length ≤ critNestMax

structure Kept (w : Desk Proc) : Prop where
  owned : ∀ v, Owned w v
  account : ∀ p, Account w p

theorem Account.depth_le (account : Account w p) (v : Var) : w.depth p v ≤ critNestMax := by
  rw [← account.count v]
  calc ((w.kernel.pcb p).critNest.map Prod.fst).count v
      ≤ ((w.kernel.pcb p).critNest.map Prod.fst).length := count_le_length
    _ = (w.kernel.pcb p).critNest.length := length_map _
    _ ≤ critNestMax := account.room

/-- An unshared token leads to its process or to nobody. -/
theorem popTarget_alone (alone : Alone w p) (busy : (w.kernel.vars v).busy = w.token p) :
    popTarget w.kernel p v = p := by
  unfold popTarget
  cases found : syncOwnerPcb w.kernel (w.kernel.vars v).busy with
  | none => rfl
  | some q =>
    apply alone
    rw [syncOwnerPcb, busy, token_eq, if_neg (by omega)] at found
    have same := find?_some (p := fun q => (w.kernel.pcb q).processid % 2 ^ 23 ==
      (w.kernel.pcb p).processid % 2 ^ 23 + 1 - 1) found
    rw [token_eq, token_eq]
    simpa using same

/-- What one call of process `p` on section `v` leaves alone. -/
structure Local (w w' : Desk Proc) (p : Proc) (v : Var) : Prop where
  vars : ∀ u, u ≠ v → w'.kernel.vars u = w.kernel.vars u
  pids : ∀ q, (w'.kernel.pcb q).processid = (w.kernel.pcb q).processid
  pcbs : ∀ q, q ≠ p → (w'.kernel.pcb q).critNest = (w.kernel.pcb q).critNest
  depths : ∀ q u, ¬(q = p ∧ u = v) → w'.depth q u = w.depth q u

theorem Local.token (moved : Local w w' p v) (q : Proc) : w'.token q = w.token q := by
  rw [token_eq, token_eq, moved.pids]

theorem Local.alone (moved : Local w w' p v) (alone : Alone w q) : Alone w' q := by
  intro r same
  apply alone
  rwa [moved.token, moved.token] at same

theorem Local.kept (moved : Local w w' p v) (kept : Kept w) (owned : Owned w' v)
    (account : Account w' p) : Kept w' := by
  refine ⟨fun u => ?_, fun q => ?_⟩
  · by_cases here : u = v
    · exact here ▸ owned
    have same : ∀ q, w'.depth q u = w.depth q u := fun q =>
      moved.depths q u fun both => here both.2
    rcases kept.owned u with ⟨busy, nobody⟩ | ⟨o, alone, busy, entered, depth, only⟩
    · exact .free ((moved.vars u here).trans busy) fun q => (same q).trans (nobody q)
    refine .owner o (moved.alone alone) ?_ ?_ ?_ fun q other => ?_
    · rw [moved.vars u here, moved.token]
      exact busy
    · rw [same]
      exact entered
    · rw [moved.vars u here, same]
      exact depth
    · rw [same]
      exact only q other
  · by_cases here : q = p
    · exact here ▸ account
    obtain ⟨count, tokens, room⟩ := kept.account q
    have nest := moved.pcbs q here
    refine ⟨fun u => ?_, fun e member => ?_, ?_⟩
    · rw [nest, moved.depths q u fun both => here both.1]
      exact count u
    · rw [nest] at member
      rw [moved.token]
      exact tokens e member
    · rw [nest]
      exact room

variable [DecidableEq Proc]

theorem setDepth_self (w : Desk Proc) (p : Proc) (v : Var) (n : Nat) :
    w.setDepth p v n p v = n := by
  simp [Desk.setDepth]

theorem setDepth_other (w : Desk Proc) (n : Nat) {q : Proc} {u : Var} (other : ¬(q = p ∧ u = v)) :
    w.setDepth p v n q u = w.depth q u := by
  unfold Desk.setDepth
  by_cases here : q = p
  · subst here
    have apart : u ≠ v := fun same => other ⟨rfl, same⟩
    simp [apart]
  · simp [here]

theorem track_nest (b : Pcb) (v : Var) : (syncTrackHold b v).critNest = b.critNest ∧
    (syncTrackHold b v).processid = b.processid ∧
      (syncTrackHold b v).accessUser = b.accessUser := by
  unfold syncTrackHold
  split
  · exact ⟨rfl, rfl, rfl⟩
  · split <;> exact ⟨rfl, rfl, rfl⟩

theorem untrack_nest (b : Pcb) (v : Var) : (syncUntrackHoldOn b v).critNest = b.critNest ∧
    (syncUntrackHoldOn b v).processid = b.processid := by
  unfold syncUntrackHoldOn
  split <;> exact ⟨rfl, rfl⟩

/-- What both successful branches of a pass do. -/
theorem kept_entered {b : Pcb} {s : SyncSharedvar} (kept : Kept w) (alone : Alone w p)
    (room : (w.kernel.pcb p).critNest.length < critNestMax)
    (nest : b.critNest = (w.kernel.pcb p).critNest)
    (pid : b.processid = (w.kernel.pcb p).processid) (busy : s.busy = w.token p)
    (depth : s.wait = w.depth p v + 1) (only : ∀ q, q ≠ p → w.depth q v = 0) :
    Kept (⟨(w.kernel.setVar v s).setPcb p (critNestPush b v (w.token p)),
      w.setDepth p v (w.depth p v + 1)⟩ : Desk Proc) := by
  have pushed : critNestPush b v (w.token p) =
    { b with critNest := (v, w.token p) :: b.critNest } := by
    rw [critNestPush, if_neg (by rw [nest]; omega)]
  rw [pushed]
  have moved : Local w (⟨(w.kernel.setVar v s).setPcb p
      { b with critNest := (v, w.token p) :: b.critNest },
      w.setDepth p v (w.depth p v + 1)⟩ : Desk Proc) p v := by
    refine ⟨fun u other => ?_, fun q => ?_, fun q other => ?_, fun q u other => ?_⟩
    · simp [Kernel.setPcb, Kernel.setVar, other]
    · by_cases here : q = p
      · subst here
        simpa [Kernel.setPcb] using pid
      · simp [Kernel.setPcb, Kernel.setVar, here]
    · simp [Kernel.setPcb, Kernel.setVar, other]
    · exact setDepth_other w _ other
  refine moved.kept kept ?_ ?_
  · refine .owner p (moved.alone alone) ?_ ?_ ?_ fun q other => ?_
    · rw [moved.token]
      simpa [Kernel.setPcb, Kernel.setVar] using busy
    · dsimp only
      rw [setDepth_self]
      exact Nat.succ_pos _
    · dsimp only
      rw [setDepth_self]
      simpa [Kernel.setPcb, Kernel.setVar] using depth
    · rw [moved.depths q v fun both => other both.1]
      exact only q other
  · obtain ⟨count, tokens, _⟩ := kept.account p
    refine ⟨fun u => ?_, fun e member => ?_, ?_⟩
    · simp only [Kernel.setPcb, update_self, nest, map_cons, count_cons, count]
      by_cases here : u = v
      · subst here
        simp [setDepth_self]
      · rw [setDepth_other w _ fun both => here both.2]
        simp [Ne.symm here]
    · rw [moved.token]
      simp only [Kernel.setPcb, update_self, nest, mem_cons] at member
      rcases member with rfl | member
      · rfl
      · exact tokens e member
    · simpa [Kernel.setPcb, nest] using Nat.succ_le_of_lt room

theorem kept_enter (kept : Kept w) (nested : Nested w (.enter cpu v))
    (taken : step w (.enter cpu v) = some w') : Kept w' := by
  obtain ⟨alone, room⟩ := nested
  have token : ∀ p, syncOwnerToken (w.kernel.pcb p) = w.token p := fun _ => rfl
  simp only [step, enterPass, token] at taken
  generalize w.kernel.running cpu = p at alone room taken
  by_cases again : (w.kernel.vars v).busy = w.token p
  · rw [if_pos again] at taken
    cases taken
    rcases kept.owned v with ⟨busy, _⟩ | ⟨o, _, busy, _, depth, only⟩
    · rw [busy, token_eq] at again
      exact absurd again (by simp)
    obtain rfl := alone o (busy.symm.trans again)
    have small := (kept.account o).depth_le v
    refine kept_entered kept alone room rfl rfl busy ?_ only
    dsimp only
    rw [depth, addAndFetch]
    unfold critNestMax at small
    omega
  · rw [if_neg again] at taken
    by_cases free : (w.kernel.vars v).busy = 0
    · rw [if_pos free] at taken
      cases taken
      obtain ⟨nest, pid, _⟩ := track_nest (w.kernel.pcb p) v
      rcases kept.owned v with ⟨_, nobody⟩ | ⟨o, _, busy, _, _, _⟩
      · exact kept_entered kept alone room nest pid rfl (by rw [nobody p]) fun q _ => nobody q
      · rw [busy, token_eq] at free
        exact absurd free (by simp)
    · rw [if_neg free] at taken
      cases taken
      exact kept

/-- The kernel after the pop of the top entry and the new depth. -/
def afterPop (k : Kernel Proc) (p : Proc) (v : Var) (rest : List (Var × Nat)) (n : Nat) :
    Kernel Proc :=
  (k.setPcb p { k.pcb p with critNest := rest }).setVar v { k.vars v with wait := n }

theorem leavecrit_top {rest : List (Var × Nat)} {n : Nat} (alone : Alone w p)
    (busy : (w.kernel.vars v).busy = w.token p)
    (top : (w.kernel.pcb p).critNest = (v, w.token p) :: rest)
    (wait : subAndFetch (w.kernel.vars v).wait = n) :
    syncLeavecrit w.kernel p v =
      if n = 0 then lockRelease (syncUntrackHold (afterPop w.kernel p v rest n) p v) v
      else afterPop w.kernel p v rest n := by
  simp only [syncLeavecrit, leaveCount, popTarget_alone alone busy, critNestPopOn, top, if_true,
    busy, ne_eq, not_true_eq_false, if_false, wait, afterPop]
  by_cases last : n = 0
  · rw [if_pos last, if_pos last]
    rfl
  · rw [if_neg last, if_neg last]
    rfl

/-- Untracking touches no nest stack, pid or section. -/
theorem untrack_frame (k : Kernel Proc) (p : Proc) (v : Var) :
    (syncUntrackHold k p v).vars = k.vars ∧
      ∀ q, ((syncUntrackHold k p v).pcb q).critNest = (k.pcb q).critNest ∧
        ((syncUntrackHold k p v).pcb q).processid = (k.pcb q).processid := by
  have one : ∀ (k : Kernel Proc) (p q : Proc),
      ((k.setPcb p (syncUntrackHoldOn (k.pcb p) v)).pcb q).critNest = (k.pcb q).critNest ∧
        ((k.setPcb p (syncUntrackHoldOn (k.pcb p) v)).pcb q).processid = (k.pcb q).processid := by
    intro k p q
    by_cases here : q = p
    · subst here
      simpa [Kernel.setPcb] using untrack_nest (k.pcb q) v
    · simp [Kernel.setPcb, here]
  unfold syncUntrackHold
  dsimp only
  split
  · exact ⟨rfl, fun q => one k p q⟩
  split
  · exact ⟨rfl, fun q => one k p q⟩
  rename_i o _ _
  refine ⟨rfl, fun q => ?_⟩
  obtain ⟨nest, pid⟩ := one (k.setPcb p (syncUntrackHoldOn (k.pcb p) v)) o q
  exact ⟨nest.trans (one k p q).1, pid.trans (one k p q).2⟩

theorem leavecrit_effect {rest : List (Var × Nat)} {n : Nat} (alone : Alone w p)
    (busy : (w.kernel.vars v).busy = w.token p)
    (top : (w.kernel.pcb p).critNest = (v, w.token p) :: rest)
    (wait : subAndFetch (w.kernel.vars v).wait = n) :
    (∀ u, u ≠ v → (syncLeavecrit w.kernel p v).vars u = w.kernel.vars u) ∧
      (syncLeavecrit w.kernel p v).vars v = (if n = 0 then ⟨0, 0⟩ else ⟨w.token p, n⟩) ∧
      (∀ q, ((syncLeavecrit w.kernel p v).pcb q).processid = (w.kernel.pcb q).processid) ∧
      (∀ q, q ≠ p → ((syncLeavecrit w.kernel p v).pcb q).critNest = (w.kernel.pcb q).critNest) ∧
      ((syncLeavecrit w.kernel p v).pcb p).critNest = rest := by
  have popped : ∀ q, (afterPop w.kernel p v rest n).pcb q =
      if q = p then { w.kernel.pcb p with critNest := rest } else w.kernel.pcb q := by
    intro q
    by_cases here : q = p
    · subst here
      simp [afterPop, Kernel.setVar, Kernel.setPcb]
    · simp [afterPop, Kernel.setVar, Kernel.setPcb, here]
  have vars : (afterPop w.kernel p v rest n).vars = update w.kernel.vars v ⟨w.token p, n⟩ := by
    rw [← busy]
    rfl
  rw [leavecrit_top alone busy top wait]
  generalize afterPop w.kernel p v rest n = k at popped vars ⊢
  have pids : ∀ q, (k.pcb q).processid = (w.kernel.pcb q).processid := by
    intro q
    rw [popped q]
    split
    · rename_i here
      rw [here]
    · rfl
  have others : ∀ q, q ≠ p → (k.pcb q).critNest = (w.kernel.pcb q).critNest := by
    intro q other
    rw [popped q, if_neg other]
  have own : (k.pcb p).critNest = rest := by rw [popped p, if_pos rfl]
  by_cases last : n = 0
  · obtain ⟨same, pcbs⟩ := untrack_frame k p v
    rw [if_pos last, if_pos last]
    refine ⟨fun u other => ?_, ?_, fun q => (pcbs q).2.trans (pids q),
      fun q other => (pcbs q).1.trans (others q other), (pcbs p).1.trans own⟩
    · change update (syncUntrackHold k p v).vars v _ u = _
      rw [update_of_ne other, same, vars, update_of_ne other]
    · change update (syncUntrackHold k p v).vars v _ v = _
      rw [update_self, same, vars, update_self, last]
  · rw [if_neg last, if_neg last]
    refine ⟨fun u other => ?_, ?_, pids, others, own⟩
    · rw [vars, update_of_ne other]
    · rw [vars, update_self]

theorem kept_leave (kept : Kept w) (nested : Nested w (.leave cpu v))
    (taken : step w (.leave cpu v) = some w') : Kept w' := by
  obtain ⟨alone, head⟩ := nested
  simp only [step] at taken
  generalize w.kernel.running cpu = p at alone head taken
  split at taken
  · cases taken
  rename_i entered
  cases taken
  obtain ⟨count, tokens, room⟩ := kept.account p
  -- the section belongs to the caller, and its entry is the top of the caller's stack
  rcases kept.owned v with ⟨_, nobody⟩ | ⟨o, _, busy, _, depth, only⟩
  · exact absurd (nobody p) entered
  have mine : p = o := by
    by_contra other
    exact entered (only p other)
  subst mine
  obtain ⟨rest, top⟩ : ∃ rest, (w.kernel.pcb p).critNest = (v, w.token p) :: rest := by
    cases stack : (w.kernel.pcb p).critNest with
    | nil => simp [stack] at head
    | cons e rest =>
      obtain ⟨u, tok⟩ := e
      simp only [stack, head?_cons, Option.map_some, Option.some.injEq] at head
      have named := tokens (u, tok) (by simp [stack])
      exact ⟨rest, by rw [← head, ← named]⟩
  have small := (kept.account p).depth_le v
  have wait : subAndFetch (w.kernel.vars v).wait = w.depth p v - 1 := by
    rw [depth, subAndFetch]
    unfold critNestMax at small
    omega
  obtain ⟨vars, var, pids, pcbs, nest⟩ := leavecrit_effect alone busy top wait
  generalize syncLeavecrit w.kernel p v = k at vars var pids pcbs nest
  have moved : Local w ⟨k, w.setDepth p v (w.depth p v - 1)⟩ p v :=
    ⟨vars, pids, pcbs, fun q u other => setDepth_other w _ other⟩
  refine moved.kept kept ?_ ⟨fun u => ?_, fun e member => ?_, ?_⟩
  · by_cases last : w.depth p v - 1 = 0
    · rw [if_pos last] at var
      refine .free var fun q => ?_
      by_cases here : q = p
      · subst here
        exact (setDepth_self w q v _).trans last
      · exact (moved.depths q v fun both => here both.1).trans (only q here)
    · rw [if_neg last] at var
      refine .owner p (moved.alone alone) ?_ ?_ ?_ fun q other => ?_
      · rw [moved.token, var]
      · dsimp only
        rw [setDepth_self]
        omega
      · dsimp only
        rw [setDepth_self, var]
      · exact (moved.depths q v fun both => other both.1).trans (only q other)
  · have before := count u
    rw [top, map_cons, count_cons] at before
    rw [nest]
    by_cases here : u = v
    · subst here
      dsimp only
      rw [setDepth_self]
      simp only [beq_self_eq_true, if_true] at before
      omega
    · dsimp only
      rw [setDepth_other w _ fun both => here both.2]
      simpa [Ne.symm here] using before
  · rw [moved.token]
    rw [nest] at member
    exact tokens e (by rw [top]; exact mem_cons_of_mem _ member)
  · rw [nest]
    rw [top, length_cons] at room
    omega

omit [DecidableEq Proc] in
theorem Kept.same (kept : Kept w) (vars : w'.kernel.vars = w.kernel.vars)
    (pcb : w'.kernel.pcb = w.kernel.pcb) (depth : w'.depth = w.depth) : Kept w' := by
  obtain ⟨⟨_, _, _, _⟩, _⟩ := w'
  subst vars pcb depth
  refine ⟨fun v => ?_, fun q => { (kept.account q) with }⟩
  rcases kept.owned v with ⟨busy, nobody⟩ | ⟨o, alone, busy, entered, depth, only⟩
  · exact .free busy nobody
  · exact .owner o alone busy entered depth only

theorem kept_step {a : Act Proc} (kept : Kept w) (nested : Nested w a)
    (taken : step w a = some w') : Kept w' := by
  cases a with
  | enter cpu v => exact kept_enter kept nested taken
  | leave cpu v => exact kept_leave kept nested taken
  | dispatch cpu p =>
    cases taken
    exact kept.same rfl rfl rfl
  | reorder ring =>
    cases taken
    exact kept.same rfl rfl rfl

theorem kept_of_reachable (run : Reachable sections Nested w) : Kept w := by
  apply run.invariant
  · rintro w ⟨vars, pcbs, depths⟩
    refine ⟨fun v => .free (vars v) fun p => depths p v, fun p => ⟨fun v => ?_, ?_, ?_⟩⟩
    · rw [(pcbs p).1, depths]
      rfl
    · rw [(pcbs p).1]
      simp
    · rw [(pcbs p).1]
      simp
  · intro w a w' kept nested taken
    exact kept_step kept nested taken

end Invariant

section Contract

variable {Proc : Type} [DecidableEq Proc] {w : Desk Proc}

/-- With nested leaves, at most sixteen open enters per process and pids that differ modulo `2 ^
23`, a section has at most one owner, its depth is the owner's enters minus leaves, and
`sync_cpu_holds` tells ownership. -/
theorem sections_owned_once (run : Reachable sections Nested w) :
    (∀ v p q, 0 < w.depth p v → 0 < w.depth q v → p = q) ∧ (∀ v p, 0 < w.depth p v →
        (w.kernel.vars v).busy = w.token p ∧ (w.kernel.vars v).wait = w.depth p v) ∧
      (∀ v, (∀ p, w.depth p v = 0) → w.kernel.vars v = ⟨0, 0⟩) ∧
      ∀ cpu v, syncCpuHolds w.kernel cpu v = true ↔ 0 < w.depth (w.kernel.running cpu) v := by
  have kept := kept_of_reachable run
  refine ⟨fun v p q first second => ?_, fun v p entered => ?_, fun v none => ?_, fun cpu v => ?_⟩
  · rcases kept.owned v with ⟨_, nobody⟩ | ⟨o, _, _, _, _, only⟩
    · exact absurd (nobody p) (by omega)
    have atP : p = o := by
      by_contra other
      exact absurd (only p other) (by omega)
    have atQ : q = o := by
      by_contra other
      exact absurd (only q other) (by omega)
    exact atP.trans atQ.symm
  · rcases kept.owned v with ⟨_, nobody⟩ | ⟨o, _, busy, _, depth, only⟩
    · exact absurd (nobody p) (by omega)
    have mine : p = o := by
      by_contra other
      exact absurd (only p other) (by omega)
    subst mine
    exact ⟨busy, depth⟩
  · rcases kept.owned v with ⟨busy, _⟩ | ⟨o, _, _, entered, _, _⟩
    · exact busy
    · rw [none o] at entered
      cases entered
  · rw [← (kept.account _).count v, List.count_pos_iff]
    simp [syncCpuHolds]

/-- Two processes, each on its CPU, as they start. -/
def pair : Desk (Fin 2) where
  kernel := ⟨fun _ => ⟨0, 0⟩, fun p => ⟨16 + p, true, [], []⟩, [0, 1],
    fun cpu => if cpu = 0 then 0 else 1⟩
  depth _ _ := 0

theorem pair_start : (sections : System (Desk (Fin 2)) (Act (Fin 2))).start pair :=
  ⟨fun _ => rfl, fun _ => ⟨rfl, rfl⟩, fun _ _ => rfl⟩

/-- One enters section 0, the other section 1. -/
theorem sections_owned_once_pair : ∃ w : Desk (Fin 2), Reachable sections Nested w ∧
    w.depth 0 0 = 1 ∧ w.depth 1 1 = 1 ∧ (w.kernel.vars 1).wait = w.depth 1 1 ∧
    syncCpuHolds w.kernel 0 0 = true ∧ syncCpuHolds w.kernel 0 1 ≠ true := by
  have run : Reachable sections Nested pair := .start pair_start
  have nested : Nested pair (.enter 0 0) := ⟨by unfold Alone; decide, by decide⟩
  have run := Reachable.step run nested rfl
  have run := Reachable.step (a := Act.enter 1 1) run ⟨by unfold Alone; decide, by decide⟩ rfl
  have owned := sections_owned_once run
  exact ⟨_, run, rfl, rfl, (owned.2.1 1 1 Nat.one_pos).2, (owned.2.2.2 0 0).mpr Nat.one_pos,
    fun held => absurd ((owned.2.2.2 0 1).mp held) (Nat.lt_irrefl 0)⟩

/-- 0 and 1 entered, 0 left first: `sync_cpu_holds` still says yes. -/
theorem early_leave_still_held : ∃ w : Desk (Fin 2), Reachable sections (fun _ _ => True) w ∧
    w.depth (w.kernel.running 0) 0 = 0 ∧ syncCpuHolds w.kernel 0 0 = true := by
  have run : Reachable sections (fun _ _ => True) _ :=
    Reachable.attempt (fun _ _ _ => id) [.enter 0 0, .enter 0 1, .leave 0 0] (.start pair_start)
      rfl
  exact ⟨_, run, rfl, rfl⟩

end Contract

section Release

variable {Proc : Type} [DecidableEq Proc]

/-- `sync_release_process_crits`: tracked sections with the token. -/
def freeHeld (owner : Nat) (vars : Var → SyncSharedvar) (held : List Var) : Var → SyncSharedvar :=
  held.foldl (fun vars v =>
    if (vars v).busy = owner then Function.update vars v ⟨0, 0⟩ else vars) vars

/-- `sync_release_process_crits` once it has the latch. -/
def syncReleaseProcessCrits (k : Kernel Proc) (p : Proc) : Kernel Proc :=
  { k with
    vars := freeHeld ((k.pcb p).processid % 2 ^ 23 + 1) k.vars (k.pcb p).heldCrits
    pcb := Function.update k.pcb p { k.pcb p with critNest := [], heldCrits := [] } }

/-- The sections, the latches `crits_freed`, and who is about to release which section. -/
structure Life (Proc : Type) where
  desk : Desk Proc
  freed : Proc → Bool
  leaving : Proc → Option Var

inductive Event (Proc : Type)
  | act (a : Act Proc)
  | release (p : Proc)
  | die (p : Proc)

/-- A leave up to its release; other steps as they are. -/
def partStep (w : Life Proc) : Act Proc → Option (Life Proc)
  | .leave cpu v =>
    let p := w.desk.kernel.running cpu
    let left := leaveCount w.desk.kernel p v
    if w.desk.depth p v = 0 then none
    else some ⟨⟨left.1, w.desk.setDepth p v (w.desk.depth p v - 1)⟩, w.freed,
      if left.2 then Function.update w.leaving p (some v) else w.leaving⟩
  | a => (step w.desk a).map ({ w with desk := · })

def actor (k : Kernel Proc) : Act Proc → Option Proc
  | .enter cpu _ | .leave cpu _ => some (k.running cpu)
  | _ => none

/-- A process that has died, or is about to release a section, enters and leaves nothing. -/
def lifeStep (w : Life Proc) : Event Proc → Option (Life Proc)
  | .act a =>
    if (actor w.desk.kernel a).any fun p => w.freed p || (w.leaving p).isSome then none
    else partStep w a
  | .release p =>
    match w.leaving p with
    | none => none
    | some v =>
      if w.freed p then none
      else some ⟨{ w.desk with kernel := lockRelease w.desk.kernel v }, w.freed,
        Function.update w.leaving p none⟩
  | .die p =>
    if w.freed p then some w
    else some ⟨{ w.desk with kernel := syncReleaseProcessCrits w.desk.kernel p },
      Function.update w.freed p true, w.leaving⟩

def lives : System (Life Proc) (Event Proc) where
  start w := sections.start w.desk ∧ (∀ p, w.freed p = false) ∧ ∀ p, w.leaving p = none
  step w a w' := lifeStep w a = some w'

/-- Who takes a section tracks fewer than sixteen and shares its token with no living one. -/
def Tracked (w : Life Proc) : Event Proc → Prop
  | .act (.enter cpu v) => (w.desk.kernel.vars v).busy = 0 →
      ((w.desk.kernel.pcb (w.desk.kernel.running cpu)).heldCrits.length < critNestMax ∧
        ∀ q, w.freed q = false → w.desk.token q = w.desk.token (w.desk.kernel.running cpu) →
          q = w.desk.kernel.running cpu)
  | _ => True

/-- What a living process owns it tracks, or it is about to be released. -/
def Tracks (w : Life Proc) : Prop :=
  ∀ q v, w.freed q = false → (w.desk.kernel.vars v).busy = w.desk.token q →
    v ∈ (w.desk.kernel.pcb q).heldCrits ∨ ∃ p, w.leaving p = some v

theorem freeHeld_apply (owner : Nat) (vars : Var → SyncSharedvar) (held : List Var) (v : Var) :
    freeHeld owner vars held v = if v ∈ held ∧ (vars v).busy = owner then ⟨0, 0⟩ else vars v := by
  unfold freeHeld
  induction held generalizing vars with
  | nil => simp
  | cons u held ih =>
    rw [foldl_cons, ih]
    grind [update_apply]

theorem release_vars (k : Kernel Proc) (p : Proc) (v : Var) :
    (syncReleaseProcessCrits k p).vars v =
      if v ∈ (k.pcb p).heldCrits ∧ (k.vars v).busy = (k.pcb p).processid % 2 ^ 23 + 1 then ⟨0, 0⟩
      else k.vars v :=
  freeHeld_apply _ _ _ v

theorem mem_syncUntrackHoldOn {b : Pcb} {u v : Var} (held : u ∈ b.heldCrits) (other : u ≠ v) :
    u ∈ (syncUntrackHoldOn b v).heldCrits := by
  unfold syncUntrackHoldOn
  cases found : b.heldCrits.idxOf? v with
  | none => exact held
  | some i =>
    have here : b.heldCrits[i]? = some v := by grind [idxOf?_eq_some_iff]
    obtain ⟨j, there⟩ := mem_iff_getElem?.mp held
    -- the last entry has moved to the place of the one removed
    by_cases last : j + 1 = b.heldCrits.length
    · exact mem_iff_getElem?.mpr ⟨i, by grind⟩
    · exact mem_iff_getElem?.mpr ⟨j, by grind⟩

variable {k k' : Kernel Proc} {w : Life Proc} {p : Proc} {v : Var}

/-- What a call on `v` keeps, where it does not take it; `last`: a release follows. -/
structure Elsewhere (k k' : Kernel Proc) (v : Var) (last : Bool) : Prop where
  pids : ∀ q, (k'.pcb q).processid = (k.pcb q).processid
  vars : ∀ u, u ≠ v → k'.vars u = k.vars u
  held : ∀ q u, u ≠ v → u ∈ (k.pcb q).heldCrits → u ∈ (k'.pcb q).heldCrits
  here : last = true ∨ (k'.vars v).busy = (k.vars v).busy ∧
    ∀ q, (k'.pcb q).heldCrits = (k.pcb q).heldCrits

theorem critNestPopOn_frame (b : Pcb) (v : Var) (tok : Nat) :
    (critNestPopOn b v tok).2.heldCrits = b.heldCrits ∧
      (critNestPopOn b v tok).2.processid = b.processid := by
  unfold critNestPopOn
  grind

theorem leaveCount_elsewhere (k : Kernel Proc) (p : Proc) (v : Var) :
    Elsewhere k (leaveCount k p v).1 v (leaveCount k p v).2 := by
  unfold leaveCount syncUntrackHold Kernel.setPcb Kernel.setVar
  dsimp only
  split_ifs
  · constructor <;> grind [update_apply, critNestPopOn_frame]
  · split
    · constructor <;>
        grind [update_apply, critNestPopOn_frame, untrack_nest, mem_syncUntrackHoldOn]
    · split_ifs <;> constructor <;>
        grind [update_apply, critNestPopOn_frame, untrack_nest, mem_syncUntrackHoldOn]
  · constructor <;> grind [update_apply, critNestPopOn_frame]

omit [DecidableEq Proc] in
theorem Elsewhere.tracks {depth : Proc → Var → Nat} {r : Bool} {leaving : Proc → Option Var}
    (moved : Elsewhere w.desk.kernel k' v r) (left : r = true → ∃ p, leaving p = some v)
    (kept : ∀ p u, w.leaving p = some u → leaving p = some u) (tracks : Tracks w) :
    Tracks ⟨⟨k', depth⟩, w.freed, leaving⟩ := by
  intro q u living owned
  rw [token_eq, moved.pids, ← token_eq] at owned
  by_cases at_ : u = v
  · subst at_
    rcases moved.here with last | ⟨busy, held⟩
    · exact .inr (left last)
    · rw [held q]
      exact (tracks q u living (busy ▸ owned)).imp_right fun ⟨p, mid⟩ => ⟨p, kept p u mid⟩
  · rw [moved.vars u at_] at owned
    exact (tracks q u living owned).imp (moved.held q u at_) fun ⟨p, mid⟩ => ⟨p, kept p u mid⟩

theorem critNestPush_frame (b : Pcb) (v : Var) (tok : Nat) :
    (critNestPush b v tok).heldCrits = b.heldCrits ∧
      (critNestPush b v tok).processid = b.processid := by
  unfold critNestPush
  split <;> exact ⟨rfl, rfl⟩

/-- Only taking a free section can leave it untracked. -/
theorem tracks_enter {cpu : Cpu} {d : Desk Proc} (tracks : Tracks w)
    (tracked : Tracked w (.act (.enter cpu v))) (taken : step w.desk (.enter cpu v) = some d) :
    Tracks { w with desk := d } := by
  simp only [step, enterPass, Kernel.setPcb, Kernel.setVar] at taken
  simp only [Tracked] at tracked
  generalize w.desk.kernel.running cpu = p at taken tracked
  split_ifs at taken with own free
  · cases taken
    refine Elsewhere.tracks (v := v) (r := false) ?_ nofun (fun _ _ => id) tracks
    constructor <;> dsimp only <;> grind [update_apply, critNestPush_frame]
  · cases taken
    obtain ⟨room, alone⟩ := tracked free
    intro q u living owned
    by_cases here : q = p
    · subst here
      grind [update_apply, critNestPush_frame, syncTrackHold, Tracks, token_eq]
    · grind [update_apply, Tracks, token_eq, syncOwnerToken_eq]
  · cases taken
    exact tracks

theorem tracks_act {a : Act Proc} {w' : Life Proc} (tracks : Tracks w)
    (tracked : Tracked w (.act a)) (free : ∀ p, actor w.desk.kernel a = some p → w.leaving p = none)
    (taken : partStep w a = some w') : Tracks w' := by
  cases a with
  | enter cpu v =>
    obtain ⟨d, stepped, rfl⟩ := Option.map_eq_some_iff.mp taken
    exact tracks_enter tracks tracked stepped
  | leave cpu v =>
    have idle := free _ rfl
    simp only [partStep] at taken
    split_ifs at taken with _ last
    all_goals
      cases taken
      refine (leaveCount_elsewhere _ _ v).tracks (fun ends => ?_) (fun p u mid => ?_) tracks
    · exact ⟨_, update_self ..⟩
    · rw [update_of_ne fun same => by simp [same, idle] at mid]
      exact mid
    · exact absurd ends last
    · exact mid
  | dispatch cpu p =>
    cases taken
    exact tracks
  | reorder ring =>
    cases taken
    exact tracks

theorem tracks_release {w' : Life Proc} (tracks : Tracks w)
    (taken : lifeStep w (.release p) = some w') : Tracks w' := by
  simp only [lifeStep] at taken
  cases mid : w.leaving p with
  | none => simp [mid] at taken
  | some v =>
    simp only [mid] at taken
    split_ifs at taken
    cases taken
    intro q u living owned
    -- the section released has no owner, and the others are left as they were
    by_cases here : u = v
    · subst here
      simp [lockRelease, Kernel.setVar, token_eq] at owned
    · have before : (w.desk.kernel.vars u).busy = w.desk.token q := by
        simpa [lockRelease, Kernel.setVar, here, token_eq] using owned
      refine (tracks q u living before).imp_right fun ⟨r, other⟩ => ⟨r, ?_⟩
      have apart : r ≠ p := by
        rintro rfl
        exact here (Option.some.inj (other.symm.trans mid))
      exact (update_of_ne apart ..).trans other

theorem tracks_step {a : Event Proc} {w' : Life Proc} (tracks : Tracks w) (tracked : Tracked w a)
    (taken : lifeStep w a = some w') : Tracks w' := by
  cases a with
  | act a =>
    simp only [lifeStep] at taken
    split_ifs at taken with busy
    refine tracks_act tracks tracked (fun p acts => ?_) taken
    rw [acts] at busy
    exact (by simpa using busy : w.freed p = false ∧ w.leaving p = none).2
  | release p => exact tracks_release tracks taken
  | die p =>
    simp only [lifeStep] at taken
    split_ifs at taken
    · cases taken
      exact tracks
    cases taken
    intro q v living owned
    have other : q ≠ p := by
      rintro rfl
      simp at living
    simp only [update_of_ne other] at living
    have block : (syncReleaseProcessCrits w.desk.kernel p).pcb q = w.desk.kernel.pcb q :=
      update_of_ne other _ _
    simp only [token_eq, release_vars, block] at owned ⊢
    split_ifs at owned
    exact tracks q v living (owned.trans (token_eq _ _).symm)

/-- While no section beyond the sixteenth is taken and living processes' tokens differ, a process
that dies while none of its sections is about to be released owns none afterwards, and the others'
are as they were. -/
theorem death_frees_sections (run : Reachable lives Tracked w) (living : w.freed p = false)
    (apart : ∀ q v, w.leaving q = some v → (w.desk.kernel.vars v).busy ≠ w.desk.token p) :
    (∀ v, ((syncReleaseProcessCrits w.desk.kernel p).vars v).busy ≠ w.desk.token p) ∧
      ∀ v, (w.desk.kernel.vars v).busy ≠ w.desk.token p →
        (syncReleaseProcessCrits w.desk.kernel p).vars v = w.desk.kernel.vars v := by
  have tracks : Tracks w := by
    refine run.invariant ?_ fun w a w' tracks tracked taken => tracks_step tracks tracked taken
    rintro w ⟨⟨free, -, -⟩, -⟩ q v - owned
    rw [free, token_eq] at owned
    cases owned
  rw [token_eq]
  refine ⟨fun v owned => ?_, fun v other => ?_⟩
  · rw [release_vars] at owned
    split_ifs at owned with freed
    have mine := owned.trans (token_eq _ _).symm
    rcases tracks p v living mine with held | ⟨q, mid⟩
    · exact freed ⟨held, owned⟩
    · exact apart q v mid mine
  · rw [release_vars, if_neg fun both => other both.2]

/-- The processes of `pair` with nothing dead. -/
def pairLife : Life (Fin 2) := ⟨pair, fun _ => false, fun _ => none⟩

theorem pairLife_start : (lives : System (Life (Fin 2)) (Event (Fin 2))).start pairLife :=
  ⟨pair_start, fun _ => rfl, fun _ => rfl⟩

/-- One takes section 0 and dies; the other keeps section 1. -/
theorem death_frees_sections_pair : ∃ w : Life (Fin 2), Reachable lives Tracked w ∧
    (w.desk.kernel.vars 0).busy = w.desk.token 0 ∧
    ((syncReleaseProcessCrits w.desk.kernel 0).vars 0).busy ≠ w.desk.token 0 ∧
    ((syncReleaseProcessCrits w.desk.kernel 0).vars 1).busy = w.desk.token 1 := by
  have run : Reachable lives Tracked pairLife := .start pairLife_start
  have tracked : Tracked pairLife (.act (.enter 0 0)) := fun _ => ⟨by decide, by decide⟩
  have run := Reachable.step run tracked rfl
  have run := Reachable.step (a := Event.act (.enter 1 1)) run (fun _ => ⟨by decide, by decide⟩) rfl
  have freed := death_frees_sections (p := 0) run rfl nofun
  exact ⟨_, run, rfl, freed.1 0, congrArg SyncSharedvar.busy (freed.2 1 (by decide))⟩

/-- Of seventeen sections, the dead process still owns the last. -/
theorem seventeenth_section_stays : ∃ w : Life (Fin 2), Reachable lives (fun _ _ => True) w ∧
    w.freed 0 = true ∧ (w.desk.kernel.vars 16).busy = w.desk.token 0 := by
  have run : Reachable lives (fun _ _ => True) _ := Reachable.attempt (fun _ _ _ => id)
    ((List.range 17).map (fun v => Event.act (.enter 0 v)) ++ [.die 0])
      (.start pairLife_start) rfl
  exact ⟨_, run, rfl, by decide +kernel⟩

end Release

end IcsOs.Process.CritSections
