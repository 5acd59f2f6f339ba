/- GID: IcsOs/Process/Completions
   generality: I
   source: kernel/process/process.c, kernel/process/completion.h,
     kernel/process/scheduler.c
   digest: Wait queues and completions under preemption: linkage, and wakeups that are not lost. -/

import Mathlib.Data.List.Nodup
import IcsOs.Lib.Runs

set_option autoImplicit false

namespace IcsOs.Process.Completions

open Function
open Lib.Runs

section

/-- A hashed event queue, or somebody's own. -/
inductive QueueId
  | event (bucket : Nat)
  | own (n : Nat)
  deriving DecidableEq

/-- The bucket of an address. -/
def waitEventQueue (key : Nat) : QueueId := .event (key / 16 % 32)

/-- `blocked` is `PS_ATTB_BLOCKED`. -/
structure Pcb where
  blocked : Bool
  waitQueued : Bool
  waitQueue : Option QueueId
  waitKey : Nat
  deriving DecidableEq

def Pcb.idle : Pcb := ⟨false, false, none, 0⟩

/-- `sched_block_process` without a deadline. -/
def schedBlockProcess (b : Pcb) : Pcb := { b with blocked := true }

def schedWakeProcess (b : Pcb) : Pcb := { b with blocked := false }

/-- What every removal clears; the link itself is the list. -/
def clearWait (b : Pcb) : Pcb := { b with waitQueue := none, waitKey := 0, waitQueued := false }

variable {Proc : Type} [DecidableEq Proc]

/-- Queues as lists, the control blocks, and the `done` words. -/
structure Kernel (Proc : Type) where
  head : QueueId → List Proc
  pcb : Proc → Pcb
  done : Nat → Bool

def Kernel.setPcb (k : Kernel Proc) (p : Proc) (b : Pcb) : Kernel Proc :=
  { k with pcb := Function.update k.pcb p b }

/-- `wait_queue_prepare` by the process itself. -/
def waitQueuePrepare (k : Kernel Proc) (p : Proc) (q : QueueId) (key : Nat) : Kernel Proc :=
  if (k.pcb p).waitQueued = true then k
  else
    { k with
      head := Function.update k.head q (p :: k.head q)
      pcb := Function.update k.pcb p
        (schedBlockProcess
          { k.pcb p with waitQueue := some q, waitKey := key, waitQueued := true }) }

def waitQueueRemoveLocked (k : Kernel Proc) (q : QueueId) (p : Proc) : Kernel Proc :=
  { k with
    head := Function.update k.head q ((k.head q).erase p)
    pcb := Function.update k.pcb p (clearWait (k.pcb p)) }

def waitQueueFinish (k : Kernel Proc) (p : Proc) (q : QueueId) : Kernel Proc :=
  let k₁ := if (k.pcb p).waitQueued = true ∧ (k.pcb p).waitQueue = some q
    then waitQueueRemoveLocked k q p else k
  k₁.setPcb p (schedWakeProcess (k₁.pcb p))

/-- Once it has the lock of the queue it saw: `wait_queue_finish`, on any process. -/
def waitQueueCancel (k : Kernel Proc) (p : Proc) (q : QueueId) : Kernel Proc :=
  waitQueueFinish k p q

def wakeLoop : List Proc → (Proc → Pcb) → Proc → Pcb
  | [], pcb => pcb
  | p :: rest, pcb => wakeLoop rest (Function.update pcb p (schedWakeProcess (clearWait (pcb p))))

def waitQueueWakeAll (k : Kernel Proc) (q : QueueId) : Kernel Proc :=
  { k with head := Function.update k.head q [], pcb := wakeLoop (k.head q) k.pcb }

/-- `wait_event_wake_all`: what stays linked, and the control blocks. -/
def eventLoop (key : Nat) : List Proc → (Proc → Pcb) → List Proc × (Proc → Pcb)
  | [], pcb => ([], pcb)
  | p :: rest, pcb =>
    if (pcb p).waitKey ≠ key then
      ((p :: (eventLoop key rest pcb).1), (eventLoop key rest pcb).2)
    else eventLoop key rest (Function.update pcb p (schedWakeProcess (clearWait (pcb p))))

def waitEventWakeAll (k : Kernel Proc) (key : Nat) : Kernel Proc :=
  let q := waitEventQueue key
  { k with
    head := Function.update k.head q (eventLoop key (k.head q) k.pcb).1
    pcb := (eventLoop key (k.head q) k.pcb).2 }

/-- Where a process stands in `wait_for_completion_until`. -/
inductive Pc
  | idle
  | test (c : Nat)
  | prepare (c : Nat)
  | recheck (c : Nat)
  | switch (c : Nat)
  | finish (c : Nat)
  deriving DecidableEq

def Pc.waits : Pc → Option Nat
  | .idle => none
  | .test c | .prepare c | .recheck c | .switch c | .finish c => some c

/-- `sampled`: queues that cancellations have read and not locked; `woken`: a wake pass came after a
signal. -/
structure World (Proc : Type) where
  kernel : Kernel Proc
  pc : Proc → Pc
  running : Proc → Bool
  sampled : List (Proc × QueueId)
  woken : Nat → Bool

inductive Act (Proc : Type)
  | dispatch (p : Proc)
  | preempt (p : Proc)
  | call (p : Proc) (c : Nat)
  | advance (p : Proc)
  | prepare (p : Proc) (q : QueueId) (key : Nat)
  | finish (p : Proc) (q : QueueId)
  | signal (c : Nat)
  | wakeEvent (key : Nat)
  | wakeAll (q : QueueId)
  | cancelSample (p : Proc)
  | cancelLocked (p : Proc) (q : QueueId)

def World.goto (w : World Proc) (p : Proc) (pc : Pc) : World Proc :=
  { w with pc := Function.update w.pc p pc }

/-- One step of `wait_for_completion_until` without a deadline. -/
def advance (w : World Proc) (p : Proc) : World Proc :=
  match w.pc p with
  | .idle => w
  | .test c => if w.kernel.done c = true then w.goto p .idle else w.goto p (.prepare c)
  | .prepare c =>
    { w.goto p (.recheck c) with kernel := waitQueuePrepare w.kernel p (waitEventQueue c) c }
  | .recheck c => if w.kernel.done c = true then w.goto p (.finish c) else w.goto p (.switch c)
  | .switch c => { w.goto p (.finish c) with running := Function.update w.running p false }
  | .finish c => { w.goto p (.test c) with kernel := waitQueueFinish w.kernel p (waitEventQueue c) }

/-- One step of anybody; a blocked process is not dispatched. -/
def step (w : World Proc) : Act Proc → Option (World Proc)
  | .dispatch p =>
    if w.running p = false ∧ (w.kernel.pcb p).blocked = false then
      some { w with running := Function.update w.running p true } else none
  | .preempt p =>
    if w.running p = true then some { w with running := Function.update w.running p false }
    else none
  | .call p c => if w.running p = true ∧ w.pc p = .idle then some (w.goto p (.test c)) else none
  | .advance p => if w.running p = true ∧ w.pc p ≠ .idle then some (advance w p) else none
  | .prepare p q key =>
    if w.running p = true ∧ w.pc p = .idle then
      some { w with kernel := waitQueuePrepare w.kernel p q key } else none
  | .finish p q =>
    if w.running p = true ∧ w.pc p = .idle then
      some { w with kernel := waitQueueFinish w.kernel p q } else none
  | .signal c =>
    some { w with kernel := { w.kernel with done := Function.update w.kernel.done c true } }
  | .wakeEvent key =>
    some { w with
      kernel := waitEventWakeAll w.kernel key
      woken := if w.kernel.done key = true then Function.update w.woken key true else w.woken }
  | .wakeAll q => some { w with kernel := waitQueueWakeAll w.kernel q }
  | .cancelSample p =>
    match (w.kernel.pcb p).waitQueued, (w.kernel.pcb p).waitQueue with
    | true, some q => some { w with sampled := (p, q) :: w.sampled }
    | _, _ => some w
  | .cancelLocked p q =>
    if (p, q) ∈ w.sampled then
      some { w with
        kernel := waitQueueCancel w.kernel p q, sampled := w.sampled.erase (p, q) }
    else none

/-- Nobody waits at first. -/
def completions : System (World Proc) (Act Proc) where
  start w := (∀ q, w.kernel.head q = []) ∧ (∀ p, w.kernel.pcb p = .idle) ∧
    (∀ p, w.pc p = .idle) ∧ ∀ c, w.woken c = false
  step w a w' := step w a = some w'

variable {k : Kernel Proc} {p r : Proc} {q : QueueId}

/-- Links and flags agree. -/
structure Linked (k : Kernel Proc) : Prop where
  nodup : ∀ q, (k.head q).Nodup
  member : ∀ p q, p ∈ k.head q ↔ (k.pcb p).waitQueued = true ∧ (k.pcb p).waitQueue = some q
  tagged : ∀ p, (k.pcb p).waitQueued = true → (k.pcb p).waitQueue ≠ none

/-- What a wake or a removal may do to a control block. -/
inductive Eased (b b' : Pcb) : Prop
  | same (eq : b' = b)
  | freed (unlinked : b'.waitQueued = false) (runnable : b'.blocked = false)
  | unblocked (eq : b' = schedWakeProcess b)

theorem wake_clear (b : Pcb) : schedWakeProcess (clearWait b) = .idle := rfl

theorem linked_prepare (linked : Linked k) (key : Nat) :
    Linked (waitQueuePrepare k p q key) := by
  unfold waitQueuePrepare
  split
  · exact linked
  rename_i fresh
  have nowhere : ∀ q, p ∉ k.head q := fun q listed => fresh ((linked.member p q).mp listed).1
  refine ⟨fun q' => ?_, fun r q' => ?_, fun r => ?_⟩
  · by_cases here : q' = q
    · subst here
      simpa using ⟨nowhere q', linked.nodup q'⟩
    · simpa [here] using linked.nodup q'
  · by_cases mine : r = p
    · subst mine
      by_cases here : q' = q
      · subst here
        simp [schedBlockProcess]
      · simp [here, schedBlockProcess, nowhere, Ne.symm here]
    · by_cases here : q' = q
      · subst here
        simpa [mine] using linked.member r q'
      · simpa [mine, here] using linked.member r q'
  · by_cases mine : r = p
    · subst mine
      simp [schedBlockProcess]
    · simpa [mine] using linked.tagged r

theorem linked_wake (linked : Linked k) :
    Linked (k.setPcb p (schedWakeProcess (k.pcb p))) := by
  refine ⟨linked.nodup, fun r q => ?_, fun r => ?_⟩
  · by_cases mine : r = p
    · subst mine
      simpa [Kernel.setPcb, schedWakeProcess] using linked.member r q
    · simpa [Kernel.setPcb, mine] using linked.member r q
  · by_cases mine : r = p
    · subst mine
      simpa [Kernel.setPcb, schedWakeProcess] using linked.tagged r
    · simpa [Kernel.setPcb, mine] using linked.tagged r

theorem linked_remove (linked : Linked k) (here : (k.pcb p).waitQueue = some q) :
    Linked (waitQueueRemoveLocked k q p) := by
  refine ⟨fun q' => ?_, fun r q' => ?_, fun r => ?_⟩
  · by_cases same : q' = q
    · subst same
      simpa [waitQueueRemoveLocked] using (linked.nodup q').erase p
    · simpa [waitQueueRemoveLocked, same] using linked.nodup q'
  · by_cases mine : r = p
    · subst mine
      by_cases same : q' = q
      · subst same
        simp [waitQueueRemoveLocked, clearWait, (linked.nodup q').mem_erase_iff]
      · have elsewhere : r ∉ k.head q' := fun listed =>
          same (Option.some.inj (((linked.member r q').mp listed).2.symm.trans here))
        simp [waitQueueRemoveLocked, clearWait, same, elsewhere]
    · by_cases same : q' = q
      · subst same
        simpa [waitQueueRemoveLocked, mine, List.mem_erase_of_ne mine] using linked.member r q'
      · simpa [waitQueueRemoveLocked, mine, same] using linked.member r q'
  · by_cases mine : r = p
    · subst mine
      simp [waitQueueRemoveLocked, clearWait]
    · simpa [waitQueueRemoveLocked, mine] using linked.tagged r

theorem linked_finish (linked : Linked k) : Linked (waitQueueFinish k p q) := by
  unfold waitQueueFinish
  split
  · rename_i here
    exact linked_wake (linked_remove linked here.2)
  · exact linked_wake linked

theorem finish_eased (k : Kernel Proc) (p : Proc) (q : QueueId) (r : Proc) :
    Eased (k.pcb r) ((waitQueueFinish k p q).pcb r) := by
  unfold waitQueueFinish
  by_cases mine : r = p
  · subst mine
    split
    · exact .freed (by simp [Kernel.setPcb, waitQueueRemoveLocked, clearWait, schedWakeProcess])
        (by simp [Kernel.setPcb, waitQueueRemoveLocked, clearWait, schedWakeProcess])
    · exact .unblocked (by simp [Kernel.setPcb])
  · split
    · exact .same (by simp [Kernel.setPcb, waitQueueRemoveLocked, mine])
    · exact .same (by simp [Kernel.setPcb, mine])

theorem finish_self (k : Kernel Proc) (p : Proc) (q : QueueId) :
    ((waitQueueFinish k p q).pcb p).blocked = false ∧
      ((k.pcb p).waitQueue = some q ∨ (k.pcb p).waitQueued = false →
        ((waitQueueFinish k p q).pcb p).waitQueued = false) := by
  unfold waitQueueFinish
  split
  · simp [Kernel.setPcb, waitQueueRemoveLocked, clearWait, schedWakeProcess]
  rename_i apart
  refine ⟨by simp [Kernel.setPcb, schedWakeProcess], fun linked => ?_⟩
  simp only [Kernel.setPcb, update_self, schedWakeProcess]
  rcases linked with here | free
  · by_contra queued
    exact apart ⟨by simpa using queued, here⟩
  · exact free

theorem wakeLoop_apply (l : List Proc) (pcb : Proc → Pcb) (r : Proc) :
    wakeLoop l pcb r = if r ∈ l then .idle else pcb r := by
  induction l generalizing pcb with
  | nil => simp [wakeLoop]
  | cons p rest ih =>
    rw [wakeLoop, ih, wake_clear]
    by_cases later : r ∈ rest
    · simp [later]
    by_cases mine : r = p
    · subst mine
      simp [later]
    · simp [later, mine]

theorem linked_wakeAll (linked : Linked k) : Linked (waitQueueWakeAll k q) := by
  have value : ∀ r, (waitQueueWakeAll k q).pcb r = if r ∈ k.head q then .idle else k.pcb r :=
    wakeLoop_apply (k.head q) k.pcb
  refine ⟨fun q' => ?_, fun r q' => ?_, fun r => ?_⟩
  · by_cases same : q' = q
    · subst same
      simp [waitQueueWakeAll]
    · simpa [waitQueueWakeAll, same] using linked.nodup q'
  · rw [value]
    by_cases listed : r ∈ k.head q
    · have only : ∀ q', r ∈ k.head q' → q' = q := fun q' other =>
        Option.some.inj (((linked.member r q').mp other).2.symm.trans
          ((linked.member r q).mp listed).2)
      rw [if_pos listed]
      by_cases same : q' = q
      · subst same
        simp [waitQueueWakeAll, Pcb.idle]
      · simpa [waitQueueWakeAll, same, Pcb.idle] using fun other => same (only q' other)
    · rw [if_neg listed]
      by_cases same : q' = q
      · subst same
        simpa [waitQueueWakeAll, listed] using linked.member r q'
      · simpa [waitQueueWakeAll, same] using linked.member r q'
  · rw [value]
    by_cases listed : r ∈ k.head q
    · simp [listed, Pcb.idle]
    · simpa [listed] using linked.tagged r

theorem wakeAll_eased (k : Kernel Proc) (q : QueueId) (r : Proc) :
    Eased (k.pcb r) ((waitQueueWakeAll k q).pcb r) := by
  have value : (waitQueueWakeAll k q).pcb r = _ := wakeLoop_apply (k.head q) k.pcb r
  by_cases listed : r ∈ k.head q
  · rw [if_pos listed] at value
    exact .freed (by rw [value]; rfl) (by rw [value]; rfl)
  · rw [if_neg listed] at value
    exact .same value

/-- Without repetition, exactly the processes with that key are taken out. -/
theorem eventLoop_spec (key : Nat) (l : List Proc) (nodup : l.Nodup) (pcb : Proc → Pcb) :
    (eventLoop key l pcb).1 = l.filter (fun r => decide ((pcb r).waitKey ≠ key)) ∧
      ∀ r, (eventLoop key l pcb).2 r = if r ∈ l ∧ (pcb r).waitKey = key then .idle else pcb r := by
  induction l generalizing pcb with
  | nil => simp [eventLoop]
  | cons p rest ih =>
    obtain ⟨fresh, nodup⟩ := List.nodup_cons.mp nodup
    by_cases other : (pcb p).waitKey ≠ key
    · obtain ⟨left, blocks⟩ := ih nodup pcb
      rw [eventLoop, if_pos other]
      refine ⟨by simp [left, other], fun r => ?_⟩
      rw [blocks]
      by_cases mine : r = p
      · subst mine
        simp [fresh, other]
      · simp [mine]
    · obtain ⟨left, blocks⟩ := ih nodup (update pcb p .idle)
      rw [eventLoop, if_neg other, wake_clear]
      have apart : ∀ r ∈ rest, r ≠ p := fun r listed same => fresh (same ▸ listed)
      refine ⟨?_, fun r => ?_⟩
      · rw [left, List.filter_cons_of_neg (by simpa using other)]
        apply List.filter_congr
        intro r listed
        rw [update_of_ne (apart r listed)]
      rw [blocks]
      by_cases mine : r = p
      · subst mine
        simp [fresh, not_not.mp other]
      · simp [mine]

theorem wakeEvent_pcb (linked : Linked k) (key : Nat) (r : Proc) :
    (waitEventWakeAll k key).pcb r =
      if r ∈ k.head (waitEventQueue key) ∧ (k.pcb r).waitKey = key then .idle else k.pcb r :=
  (eventLoop_spec key _ (linked.nodup _) k.pcb).2 r

theorem wakeEvent_head (linked : Linked k) (key : Nat) (q : QueueId) (r : Proc) :
    r ∈ (waitEventWakeAll k key).head q ↔
      r ∈ k.head q ∧ (q = waitEventQueue key → (k.pcb r).waitKey ≠ key) := by
  have left := (eventLoop_spec key _ (linked.nodup (waitEventQueue key)) k.pcb).1
  by_cases same : q = waitEventQueue key
  · subst same
    simp [waitEventWakeAll, left]
  · simp [waitEventWakeAll, same]

theorem linked_wakeEvent (linked : Linked k) (key : Nat) :
    Linked (waitEventWakeAll k key) := by
  refine ⟨fun q => ?_, fun r q => ?_, fun r => ?_⟩
  · by_cases same : q = waitEventQueue key
    · subst same
      have left := (eventLoop_spec key _ (linked.nodup (waitEventQueue key)) k.pcb).1
      simpa [waitEventWakeAll, left] using (linked.nodup _).filter _
    · simpa [waitEventWakeAll, same] using linked.nodup q
  · rw [wakeEvent_head linked, wakeEvent_pcb linked]
    by_cases taken : r ∈ k.head (waitEventQueue key) ∧ (k.pcb r).waitKey = key
    · rw [if_pos taken]
      have only : r ∈ k.head q → q = waitEventQueue key := fun other =>
        Option.some.inj (((linked.member r q).mp other).2.symm.trans
          ((linked.member r _).mp taken.1).2)
      constructor
      · rintro ⟨listed, kept⟩
        exact absurd taken.2 (kept (only listed))
      · rintro ⟨flag, -⟩
        cases flag
    · rw [if_neg taken, ← linked.member r q]
      constructor
      · rintro ⟨listed, -⟩
        exact listed
      · intro listed
        refine ⟨listed, fun same match_ => taken ⟨?_, match_⟩⟩
        exact same ▸ listed
  · rw [wakeEvent_pcb linked]
    split
    · rintro flag
      cases flag
    · exact linked.tagged r

theorem wakeEvent_eased (linked : Linked k) (key : Nat) (r : Proc) :
    Eased (k.pcb r) ((waitEventWakeAll k key).pcb r) := by
  rw [wakeEvent_pcb linked]
  split
  · exact .freed rfl rfl
  · exact .same rfl

variable {w w' : World Proc} {c : Nat}

/-- Neither linked nor blocked. -/
def Loose (b : Pcb) : Prop := b.waitQueued = false ∧ b.blocked = false

/-- Linked for the completion. -/
def WaitsOn (b : Pcb) (c : Nat) : Prop :=
  b.waitQueued = true ∧ b.waitQueue = some (waitEventQueue c) ∧ b.waitKey = c

/-- The control block of a process at each point of its wait. -/
def Placed (b : Pcb) : Pc → Prop
  | .idle => True
  | .test _ | .prepare _ => Loose b
  | .recheck c | .switch c | .finish c => WaitsOn b c ∨ Loose b

theorem Placed.ease {b b' : Pcb} {pc : Pc} (placed : Placed b pc) (eased : Eased b b') :
    Placed b' pc := by
  rcases eased with rfl | ⟨unlinked, runnable⟩ | rfl
  · exact placed
  · cases pc with
    | idle => trivial
    | test c => exact ⟨unlinked, runnable⟩
    | prepare c => exact ⟨unlinked, runnable⟩
    | recheck c | switch c | finish c => exact .inr ⟨unlinked, runnable⟩
  · cases pc with
    | idle => trivial
    | test c => exact ⟨placed.1, rfl⟩
    | prepare c => exact ⟨placed.1, rfl⟩
    | recheck c | switch c | finish c => exact placed.imp id fun loose => ⟨loose.1, rfl⟩

theorem Eased.blocked {b b' : Pcb} (eased : Eased b b') (blocked : b'.blocked = true) :
    b.blocked = true := by
  rcases eased with rfl | ⟨_, runnable⟩ | rfl
  · exact blocked
  · rw [runnable] at blocked
    cases blocked
  · cases blocked

/-- After the wake pass a blocked waiter is on a processor with the flag to look at, or to finish.
-/
structure Kept (w : World Proc) : Prop where
  linked : Linked w.kernel
  placed : ∀ p, Placed (w.kernel.pcb p) (w.pc p)
  signalled : ∀ c, w.woken c = true → w.kernel.done c = true
  awake : ∀ p c, w.woken c = true → (w.pc p).waits = some c →
    (w.kernel.pcb p).blocked = true → w.running p = true ∧ w.pc p ≠ .switch c

/-- Who blocked after the wake pass is not switched out before its `wait_queue_finish`, and nobody
linked starts to wait. -/
def Undisturbed (w : World Proc) : Act Proc → Prop
  | .preempt p => ∀ c, (w.pc p).waits = some c → w.woken c = true →
      (w.kernel.pcb p).blocked = false
  | .call p _ => Loose (w.kernel.pcb p)
  | _ => True

omit [DecidableEq Proc] in
/-- Wakes and removals by anybody keep the invariant. -/
theorem Kept.ease {k : Kernel Proc} (kept : Kept w) (linked : Linked k)
    (done : k.done = w.kernel.done)
    (eased : ∀ p, Eased (w.kernel.pcb p) (k.pcb p)) : Kept { w with kernel := k } where
  linked := linked
  placed p := (kept.placed p).ease (eased p)
  signalled c woken := by
    rw [done]
    exact kept.signalled c woken
  awake p c woken waits blocked := kept.awake p c woken waits ((eased p).blocked blocked)

theorem finish_done (k : Kernel Proc) (p : Proc) (q : QueueId) :
    (waitQueueFinish k p q).done = k.done := by
  unfold waitQueueFinish
  split <;> rfl

theorem prepare_done (k : Kernel Proc) (p : Proc) (q : QueueId) (key : Nat) :
    (waitQueuePrepare k p q key).done = k.done := by
  unfold waitQueuePrepare
  split <;> rfl

theorem prepare_other {r : Proc} (q : QueueId) (key : Nat) (other : r ≠ p) :
    (waitQueuePrepare k p q key).pcb r = k.pcb r := by
  unfold waitQueuePrepare
  split
  · rfl
  · exact update_of_ne other _ _

theorem prepare_self (q : QueueId) (key : Nat) (loose : Loose (k.pcb p)) :
    (waitQueuePrepare k p q key).pcb p = ⟨true, true, some q, key⟩ := by
  unfold waitQueuePrepare
  rw [if_neg (by rw [loose.1]; nofun)]
  exact update_self ..

section

variable (kept : Kept w)
include kept

theorem Kept.move {k : Kernel Proc} {pc : Pc} (p : Proc) (running : Bool) (linked : Linked k)
    (done : k.done = w.kernel.done) (others : ∀ r, r ≠ p → Eased (w.kernel.pcb r) (k.pcb r))
    (placed : Placed (k.pcb p) pc)
    (awake : ∀ c, w.woken c = true → pc.waits = some c → (k.pcb p).blocked = true →
      running = true ∧ pc ≠ .switch c) :
    Kept { w with
      kernel := k, pc := update w.pc p pc,
      running := update w.running p running } := by
  refine ⟨linked, fun r => ?_, fun c woken => ?_, fun r c woken waits blocked => ?_⟩
  · by_cases mine : r = p
    · subst mine
      simpa using placed
    · simpa [mine] using (kept.placed r).ease (others r mine)
  · change k.done c = true
    rw [done]
    exact kept.signalled c woken
  · by_cases mine : r = p
    · subst mine
      simp only [update_self] at waits ⊢
      exact awake c woken waits blocked
    · simp only [update_of_ne mine] at waits ⊢
      exact kept.awake r c woken waits ((others r mine).blocked blocked)

/-- `Kept.move` with the processor kept. -/
theorem Kept.goto {pc : Pc} (p : Proc) (running : w.running p = true) (linked : Linked k)
    (done : k.done = w.kernel.done) (others : ∀ r, r ≠ p → Eased (w.kernel.pcb r) (k.pcb r))
    (placed : Placed (k.pcb p) pc)
    (awake : ∀ c, w.woken c = true → (k.pcb p).blocked = true → pc ≠ .switch c) :
    Kept { w with kernel := k, pc := update w.pc p pc } := by
  have moved := kept.move p true linked done others placed
    fun c woken _ blocked => ⟨rfl, awake c woken blocked⟩
  rwa [← running, update_eq_self] at moved

theorem kept_advance (running : w.running p = true) : Kept (advance w p) := by
  have placed := kept.placed p
  unfold advance
  cases at_ : w.pc p with
  | idle => exact kept
  | test c =>
    rw [at_] at placed
    dsimp only
    split
    · exact kept.goto p running kept.linked rfl (fun r _ => .same rfl) trivial nofun
    · exact kept.goto p running kept.linked rfl (fun r _ => .same rfl) placed nofun
  | prepare c =>
    rw [at_] at placed
    have now := prepare_self (waitEventQueue c) c placed
    refine kept.goto p running (linked_prepare kept.linked c) (prepare_done ..)
      (fun r other => .same (prepare_other _ _ other)) ?_ nofun
    rw [now]
    exact .inl ⟨rfl, rfl, rfl⟩
  | recheck c =>
    rw [at_] at placed
    dsimp only
    split
    · exact kept.goto p running kept.linked rfl (fun r _ => .same rfl) placed nofun
    rename_i open_
    refine kept.goto p running kept.linked rfl (fun r _ => .same rfl) placed ?_
    -- the flag is set before the wake pass
    rintro c' woken _ same
    cases same
    exact open_ (kept.signalled c woken)
  | switch c =>
    rw [at_] at placed
    refine kept.move p false kept.linked rfl (fun r _ => .same rfl) placed ?_
    intro c' woken waits blocked
    cases waits
    exact absurd at_ (kept.awake p c woken (by rw [at_]; rfl) blocked).2
  | finish c =>
    rw [at_] at placed
    have self := finish_self w.kernel p (waitEventQueue c)
    refine kept.goto p running (linked_finish kept.linked) (finish_done ..)
      (fun r _ => finish_eased ..) ⟨self.2 ?_, self.1⟩ nofun
    exact placed.imp (fun queued => queued.2.1) (fun loose => loose.1)

/-- After the signal every waiter was linked with the key, or not blocked. -/
theorem kept_wakeEvent (key : Nat) :
    Kept { w with
      kernel := waitEventWakeAll w.kernel key
      woken := if w.kernel.done key = true then update w.woken key true
        else w.woken } := by
  have eased := kept.ease (linked_wakeEvent kept.linked key) rfl (wakeEvent_eased kept.linked key)
  split
  · rename_i done
    refine ⟨eased.linked, eased.placed, fun c woken => ?_, fun p c woken waits blocked => ?_⟩
    · by_cases same : c = key
      · subst same
        exact done
      · exact eased.signalled c (by simpa [same] using woken)
    by_cases same : c = key
    · subst same
      have runnable : ((waitEventWakeAll w.kernel c).pcb p).blocked = false := by
        have free : ¬ Loose ((waitEventWakeAll w.kernel c).pcb p) →
            ¬ WaitsOn (w.kernel.pcb p) c := by
          intro tight waits
          have listed := (kept.linked.member p (waitEventQueue c)).mpr ⟨waits.1, waits.2.1⟩
          rw [wakeEvent_pcb kept.linked, if_pos ⟨listed, waits.2.2⟩] at tight
          exact tight ⟨rfl, rfl⟩
        by_contra tight
        have notOn := free fun loose => tight loose.2
        have before := kept.placed p
        have was := (wakeEvent_eased kept.linked c p).blocked (by simpa using tight)
        have loose : Loose (w.kernel.pcb p) := by
          cases at_ : w.pc p with
          | idle =>
            rw [at_] at waits
            cases waits
          | test d => rwa [at_] at before
          | prepare d => rwa [at_] at before
          | recheck d | switch d | finish d =>
            rw [at_] at before waits
            cases waits
            exact before.resolve_left notOn
        rw [loose.2] at was
        cases was
      rw [runnable] at blocked
      cases blocked
    · exact eased.awake p c (by simpa [same] using woken) waits blocked
  · exact eased

theorem kept_step {a : Act Proc} (calm : Undisturbed w a) (taken : step w a = some w') :
    Kept w' := by
  cases a with
  | dispatch p =>
    simp only [step] at taken
    split at taken
    · rename_i ready
      cases taken
      have same : update w.pc p (w.pc p) = w.pc := update_eq_self ..
      have moved := kept.move p true kept.linked rfl (fun r _ => .same rfl)
        (kept.placed p) fun c woken waits blocked => by
          rw [ready.2] at blocked
          cases blocked
      rwa [same] at moved
    · cases taken
  | preempt p =>
    simp only [step] at taken
    split at taken
    · cases taken
      have same : update w.pc p (w.pc p) = w.pc := update_eq_self ..
      have moved := kept.move p false kept.linked rfl (fun r _ => .same rfl)
        (kept.placed p) fun c woken waits blocked => by
          rw [calm c waits woken] at blocked
          cases blocked
      rwa [same] at moved
    · cases taken
  | call p c =>
    simp only [step] at taken
    split at taken
    · rename_i ready
      cases taken
      exact kept.goto p ready.1 kept.linked rfl (fun r _ => .same rfl) calm nofun
    · cases taken
  | advance p =>
    simp only [step] at taken
    split at taken
    · rename_i ready
      cases taken
      exact kept_advance kept ready.1
    · cases taken
  | prepare p q key =>
    simp only [step] at taken
    split at taken
    · rename_i ready
      cases taken
      have same : update w.pc p .idle = w.pc := by rw [← ready.2, update_eq_self]
      have placed : Placed ((waitQueuePrepare w.kernel p q key).pcb p) .idle := trivial
      have moved := kept.goto p ready.1 (linked_prepare kept.linked key)
        (prepare_done w.kernel p q key) (fun r other => .same (prepare_other _ _ other))
        placed nofun
      rwa [same] at moved
    · cases taken
  | finish p q =>
    simp only [step] at taken
    split at taken
    · cases taken
      exact kept.ease (linked_finish kept.linked) (finish_done ..) (finish_eased _ p q)
    · cases taken
  | signal c =>
    cases taken
    refine ⟨{ kept.linked with }, kept.placed,
      fun d woken => ?_, kept.awake⟩
    by_cases same : d = c
    · subst same
      exact update_self ..
    · simpa [same] using kept.signalled d woken
  | wakeEvent key =>
    cases taken
    exact kept_wakeEvent kept key
  | wakeAll q =>
    cases taken
    exact kept.ease (linked_wakeAll kept.linked) rfl (wakeAll_eased _ q)
  | cancelSample p =>
    simp only [step] at taken
    split at taken
    · cases taken
      exact { kept with }
    · cases taken
      exact kept
  | cancelLocked p q =>
    simp only [step] at taken
    split at taken
    · cases taken
      have eased := kept.ease (linked_finish kept.linked) (finish_done ..) (finish_eased _ p q)
      exact { eased with }
    · cases taken

end

theorem kept_start (fresh : completions.start w) : Kept w := by
  obtain ⟨heads, pcbs, pcs, woken⟩ := fresh
  refine ⟨⟨fun q => ?_, fun p q => ?_, fun p => ?_⟩, fun p => ?_, fun c was => ?_,
    fun p c was => ?_⟩
  · rw [heads]
    exact List.nodup_nil
  · simp [heads, pcbs, Pcb.idle]
  · simp [pcbs, Pcb.idle]
  · rw [pcs]
    trivial
  · rw [woken] at was
    cases was
  · rw [woken] at was
    cases was

end

section Contract

variable {Proc : Type} [DecidableEq Proc] {w w' : World Proc} {p : Proc} {c : Nat}

/-- Steps left for a waiter once its completion is signalled. -/
def Pc.rank : Pc → Nat
  | .idle => 0
  | .test _ => 1
  | .finish _ => 2
  | .recheck _ | .switch _ => 3
  | .prepare _ => 4

/-- On a processor or free for one, and able to step there. -/
def Runnable (w : World Proc) (p : Proc) : Prop :=
  (w.running p = true ∧ (step w (.advance p)).isSome = true) ∨
    (w.running p = false ∧ (step w (.dispatch p)).isSome = true)

/-- The wait goes on or has returned success, and every step of its own brings the return closer. -/
def Nears (w w' : World Proc) (p : Proc) (c : Nat) (own : Prop) : Prop :=
  ((w'.pc p).waits = some c ∨ (w'.pc p = .idle ∧ w.pc p = .test c)) ∧
    (w'.pc p).rank ≤ (w.pc p).rank ∧ (own → (w'.pc p).rank < (w.pc p).rank)

theorem advance_nears (waits : (w.pc p).waits = some c) (done : w.kernel.done c = true) :
    Nears w (advance w p) p c True := by
  unfold advance Nears
  cases at_ : w.pc p with
  | idle =>
    rw [at_] at waits
    cases waits
  | test d =>
    rw [at_] at waits
    cases waits
    simp [done, World.goto, Pc.rank]
  | prepare d =>
    rw [at_] at waits
    cases waits
    simp [World.goto, Pc.rank, Pc.waits]
  | recheck d =>
    rw [at_] at waits
    cases waits
    simp [done, World.goto, Pc.rank, Pc.waits]
  | switch d | finish d =>
    rw [at_] at waits
    cases waits
    simp [World.goto, Pc.rank, Pc.waits]

theorem advance_other {r : Proc} (other : p ≠ r) : (advance w r).pc p = w.pc p := by
  unfold advance
  cases w.pc r with
  | idle => rfl
  | test d =>
    dsimp only
    split <;> exact update_of_ne other _ _
  | prepare d => exact update_of_ne other _ _
  | recheck d =>
    dsimp only
    split <;> exact update_of_ne other _ _
  | switch d => exact update_of_ne other _ _
  | finish d => exact update_of_ne other _ _

omit [DecidableEq Proc] in
theorem nears_same {own : Prop} (waits : (w.pc p).waits = some c) (same : w'.pc p = w.pc p)
    (notOwn : ¬ own) : Nears w w' p c own :=
  ⟨.inl (same ▸ waits), Nat.le_of_eq (congrArg Pc.rank same), fun mine => absurd mine notOwn⟩

theorem step_nears {a : Act Proc} (waits : (w.pc p).waits = some c)
    (done : w.kernel.done c = true) (taken : step w a = some w') :
    Nears w w' p c (a = .advance p) := by
  cases a with
  | advance r =>
    simp only [step] at taken
    split at taken
    · cases taken
      by_cases mine : p = r
      · subst mine
        have nears := advance_nears waits done
        exact ⟨nears.1, nears.2.1, fun _ => nears.2.2 trivial⟩
      · refine nears_same waits (advance_other mine) fun same => mine ?_
        cases same
        rfl
    · cases taken
  | call r d =>
    simp only [step] at taken
    split at taken
    · rename_i ready
      cases taken
      have other : p ≠ r := by
        rintro rfl
        rw [ready.2] at waits
        cases waits
      exact nears_same waits (update_of_ne other _ _) nofun
    · cases taken
  | cancelSample r =>
    simp only [step] at taken
    split at taken <;> cases taken <;> exact nears_same waits rfl nofun
  | dispatch r | preempt r | prepare r q key | finish r q | cancelLocked r q =>
    simp only [step] at taken
    split at taken
    · cases taken
      exact nears_same waits rfl nofun
    · cases taken
  | signal d | wakeEvent d | wakeAll q =>
    cases taken
    exact nears_same waits rfl nofun

/-- Without such a switch, a process is linked in at most one queue, as its flag tells, and one
signalled with its waiters woken is not blocked: its own steps lead to the return. -/
theorem no_wakeup_lost (run : Reachable completions Undisturbed w) :
    (∀ p q q', p ∈ w.kernel.head q → p ∈ w.kernel.head q' → q = q') ∧
      (∀ q, (w.kernel.head q).Nodup) ∧
      (∀ p, (w.kernel.pcb p).waitQueued = true ↔ ∃ q, p ∈ w.kernel.head q) ∧
      ∀ p c, w.woken c = true → (w.pc p).waits = some c →
        Runnable w p ∧ ((w.kernel.pcb p).blocked = true → w.running p = true) ∧
        ∀ a w', step w a = some w' → Nears w w' p c (a = .advance p) := by
  have kept : Kept w := by
    apply run.invariant
    · exact fun w fresh => kept_start fresh
    · exact fun w a w' kept calm taken => kept_step kept calm taken
  have linked := kept.linked
  refine ⟨fun p q q' here there => ?_, linked.nodup, fun p => ⟨fun flag => ?_, ?_⟩,
    fun p c woken waits => ⟨?_, fun blocked => (kept.awake p c woken waits blocked).1,
      fun a w' taken => step_nears waits (kept.signalled c woken) taken⟩⟩
  · have first := ((linked.member p q).mp here).2
    have second := ((linked.member p q').mp there).2
    exact Option.some.inj (first.symm.trans second)
  · obtain ⟨q, at_⟩ := Option.ne_none_iff_exists'.mp (linked.tagged p flag)
    exact ⟨q, (linked.member p q).mpr ⟨flag, at_⟩⟩
  · rintro ⟨q, listed⟩
    exact ((linked.member p q).mp listed).1
  · have busy : w.pc p ≠ .idle := by
      intro at_
      rw [at_] at waits
      cases waits
    cases running : w.running p with
    | true => exact .inl ⟨running, by simp [step, running, busy]⟩
    | false =>
      have free : (w.kernel.pcb p).blocked = false := by
        by_contra blocked
        have there := (kept.awake p c woken waits (by simpa using blocked)).1
        rw [running] at there
        cases there
      exact .inr ⟨running, by simp [step, running, free]⟩

/-- One process on its processor. -/
def lone : World (Fin 1) where
  kernel := ⟨fun _ => [], fun _ => .idle, fun _ => false⟩
  pc _ := .idle
  running _ := true
  sampled := []
  woken _ := false

theorem lone_start : completions.start lone :=
  ⟨fun _ => rfl, fun _ => rfl, fun _ => rfl, fun _ => rfl⟩

/-- It waits at 64, which is signalled and its waiter woken. -/
theorem no_wakeup_lost_lone : ∃ w : World (Fin 1), Reachable completions Undisturbed w ∧
    w.woken 64 = true ∧ w.pc 0 = .finish 64 ∧ Runnable w 0 := by
  have run : Reachable completions Undisturbed _ :=
    .step (a := .wakeEvent 64) (.step (a := .signal 64) (.step (a := .advance 0)
      (.step (a := .advance 0) (.step (a := .advance 0) (.step (a := .advance 0)
        (.step (a := .call 0 64) (.start lone_start) ⟨rfl, rfl⟩ rfl)
          trivial rfl) trivial rfl) trivial rfl) trivial rfl) trivial rfl) trivial rfl
  exact ⟨_, run, rfl, rfl, ((no_wakeup_lost run).2.2.2 0 64 rfl rfl).1⟩

/-- Signalled between the test and the prepare, and switched out before it looks again, it stays
blocked. -/
theorem late_waiter_stays_blocked : ∃ w : World (Fin 1),
    Reachable completions (fun _ _ => True) w ∧ w.woken 64 = true ∧ w.pc 0 = .recheck 64 ∧
    (w.kernel.pcb 0).blocked = true ∧ w.running 0 = false ∧ step w (.dispatch 0) = none := by
  have run : Reachable completions (fun _ _ => True) _ := Reachable.attempt (fun _ _ _ => id)
    [.call 0 64, .advance 0, .signal 64, .wakeEvent 64, .advance 0, .preempt 0]
    (.start lone_start) rfl
  exact ⟨_, run, rfl, rfl, rfl, rfl, rfl⟩

end Contract

end IcsOs.Process.Completions
