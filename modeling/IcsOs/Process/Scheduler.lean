/- GID: IcsOs/Process/Scheduler
   generality: I
   source: kernel/process/scheduler.c, kernel/process/process.h
   digest: The ready ring under enqueues and dequeues, and which process a scheduler call picks. -/

import Mathlib.Algebra.Group.Nat.Defs
import Mathlib.Data.Fintype.Card
import IcsOs.Lib.Rings
import IcsOs.Lib.Runs

set_option autoImplicit false

namespace IcsOs.Process.Scheduler

open Function List
open Lib.Rings Lib.Runs

section

/-- What scheduling uses of a control block. `none` stands for the negative values of `on_cpu` and
`cpu_affinity`; `held` is `pcb_held_n`. -/
structure Pcb where
  waiting : Nat
  waitDeadline : Nat
  blocked : Bool
  dying : Bool
  onCpu : Option Nat
  cpuAffinity : Option Nat
  processid : Nat
  critWait : Bool
  priority : Nat
  held : Nat
  deriving DecidableEq

variable {Proc : Type} [DecidableEq Proc]

/-- The ready ring, control blocks, and idle threads. -/
structure Kernel (Proc : Type) where
  links : Links Proc
  phead : Option Proc
  pcb : Proc → Pcb
  idle : Nat → Option Proc

/-- The difference is a signed 32-bit one. -/
def deadlineExpired (now deadline : Nat) : Bool :=
  decide (deadline ≠ 0 ∧ (now + 2 ^ 32 - deadline) % 2 ^ 32 < 2 ^ 31)

def schedBlockProcess (k : Kernel Proc) (p : Proc) (deadline : Nat) : Kernel Proc :=
  { k with
    pcb := Function.update k.pcb p { k.pcb p with waitDeadline := deadline, blocked := true } }

def schedWakeProcess (k : Kernel Proc) (p : Proc) : Kernel Proc :=
  { k with
    pcb := Function.update k.pcb p { k.pcb p with waitDeadline := 0, blocked := false } }

def schedEffPrio (b : Pcb) : Nat := if b.critWait then 0 else b.priority

/-- The links round-trip at a valid address. -/
def schedNodeOk (links : Links Proc) (p : Proc) : Bool :=
  match links.next p, links.before p with
  | some n, some b => decide (links.before n = some p ∧ links.next b = some p)
  | _, _ => false

def schedRunnableHere (idle : Nat → Option Proc) (me : Nat) (p : Proc) (b : Pcb) : Bool :=
  decide (b.waiting = 0 ∧ b.blocked = false ∧ b.dying = false ∧
    (b.onCpu = none ∨ b.onCpu = some me) ∧ (b.cpuAffinity = none ∨ b.cpuAffinity = some me) ∧
    (b.processid / 2 ^ 16 = 0xFFFF → idle me = some p))

/-- The first `if` of pass 1. -/
def expire (now : Nat) (b : Pcb) : Pcb :=
  if b.blocked = true ∧ deadlineExpired now b.waitDeadline = true then
    { b with waitDeadline := 0, blocked := false }
  else b

/-- What pass 1 does to a control block. -/
def tick (now : Nat) (b : Pcb) : Pcb :=
  let b := expire now b
  if b.waiting ≠ 0 then { b with waiting := b.waiting - 1 } else b

/-- One node of pass 1: the control blocks, `best` and `best_prio`. -/
def pass1 (k : Kernel Proc) (me now : Nat) (s : (Proc → Pcb) × Option Proc × Int) (p : Proc) :
    ((Proc → Pcb) × Option Proc × Int) × Bool :=
  if schedNodeOk k.links p = false then (s, false)
  else
    let b := expire now (s.1 p)
    let pcb := Function.update s.1 p (tick now (s.1 p))
    if b.waiting = 0 ∧ schedRunnableHere k.idle me p b = true ∧ s.2.2 < schedEffPrio b then
      ((pcb, some p, (schedEffPrio b : Int)), true)
    else ((pcb, s.2), true)

def pass2 (k : Kernel Proc) (me : Nat) (pcb : Proc → Pcb) (prio : Int) (best : Option Proc)
    (p : Proc) : Option Proc × Bool :=
  if schedNodeOk k.links p = false then (best, false)
  else if schedRunnableHere k.idle me p (pcb p) = true ∧ (schedEffPrio (pcb p) : Int) = prio then
    (some p, false)
  else (best, true)

/-- `hops++ > 512` breaks after one more move. -/
def maxHops : Nat := 513

/-- A processor takes a process that is its own, or nobody's. -/
def claim (k : Kernel Proc) (me : Nat) (last : Proc) (pcb : Proc → Pcb) :
    Option Proc → Proc × Kernel Proc
  | none => (last, { k with pcb := pcb })
  | some r =>
    if (pcb r).onCpu = some me then (r, { k with pcb := pcb })
    else if (pcb r).onCpu = none then
      (r, { k with pcb := Function.update pcb r { pcb r with onCpu := some me } })
    else (last, { k with pcb := pcb })

/-- Both passes from after the last process, and the claim. -/
def select (k : Kernel Proc) (me now : Nat) (last start : Proc) : Proc × Kernel Proc :=
  let s := walk k.links.next (pass1 k me now) start maxHops start (k.pcb, none, -1)
  let best := if s.2.1 = none then none
    else walk k.links.next (pass2 k me s.1 s.2.2) start maxHops start s.2.1
  claim k me last s.1 best

/-- A holder of a critical section that can go on. -/
def pinned (b : Pcb) : Bool :=
  decide (0 < b.held ∧ b.dying = false ∧ b.blocked = false ∧ b.waiting = 0 ∧ b.critWait = false)

def hasLinks (k : Kernel Proc) (p : Proc) : Bool :=
  (k.links.next p).isSome && (k.links.before p).isSome

/-- `scheduler` on a processor. -/
def scheduler (k : Kernel Proc) (me now : Nat) (lastprocess : Option Proc) :
    Option Proc × Kernel Proc :=
  let last? := if (lastprocess.map (hasLinks k)).getD false then lastprocess else k.phead
  match last? with
  | none => (none, k)
  | some last =>
    if hasLinks k last = false then (some last, k)
    else if pinned (k.pcb last) = true then (some last, k)
    else
      -- links that do not round-trip fall back to the head
      let valid := if schedNodeOk k.links last = true then some last
        else k.phead.filter (schedNodeOk k.links)
      match valid with
      | none => (some last, k)
      | some last =>
        match k.links.next last with
        | none => (some last, k)
        | some start => (some (select k me now last start).1, (select k me now last start).2)

def schedEnqueue (k : Kernel Proc) (p : Proc) : Kernel Proc :=
  if schedNodeOk k.links p = true then k
  else
    match k.phead with
    | none => { k with phead := some p, links := k.links.alone p }
    | some h =>
      match k.links.next h with
      | none => k
      | some temp => { k with links := k.links.insertAfter h temp p }

/-- `sched_dequeue`, with whether the process was queued. -/
def schedDequeue (k : Kernel Proc) (p : Proc) : Bool × Kernel Proc :=
  if schedNodeOk k.links p = true then
    match k.links.next p, k.links.before p with
    | some n, some b =>
      if n = p then
        (true, { k with
          phead := if k.phead = some p then none else k.phead, links := k.links.unlink p })
      else
        (true, { k with
          phead := if k.phead = some p then some n else k.phead, links := k.links.bypass b n p })
    | _, _ => (true, k)
  else (false, { k with links := k.links.unlink p })

/-- The kernel, and the processes enqueued and not dequeued. -/
structure World (Proc : Type) where
  kernel : Kernel Proc
  queued : Proc → Bool

inductive Act (Proc : Type)
  | enqueue (p : Proc)
  | dequeue (p : Proc)
  | block (p : Proc) (deadline : Nat)
  | wake (p : Proc)
  | schedule (me now : Nat) (last : Option Proc)
  | others (p : Proc) (b : Pcb)

/-- `others` is whatever else happens to a control block. -/
def step (w : World Proc) : Act Proc → World Proc
  | .enqueue p => ⟨schedEnqueue w.kernel p, Function.update w.queued p true⟩
  | .dequeue p => ⟨(schedDequeue w.kernel p).2, Function.update w.queued p false⟩
  | .block p deadline => { w with kernel := schedBlockProcess w.kernel p deadline }
  | .wake p => { w with kernel := schedWakeProcess w.kernel p }
  | .schedule me now last => { w with kernel := (scheduler w.kernel me now last).2 }
  | .others p b => { w with kernel := { w.kernel with pcb := Function.update w.kernel.pcb p b } }

/-- At first nothing is linked. -/
def schedulings : System (World Proc) (Act Proc) where
  start w := (∀ p, w.kernel.links.next p = none ∧ w.kernel.links.before p = none) ∧
    w.kernel.phead = none ∧ ∀ p, w.queued p = false
  step w a w' := w' = step w a

variable {k : Kernel Proc} {w w' : World Proc} {l : List Proc} {p : Proc}

theorem nodeOk_iff (ring : Ring k.links l) (p : Proc) :
    schedNodeOk k.links p = true ↔ p ∈ l := by
  constructor
  · intro ok
    by_contra out
    obtain ⟨next, -⟩ := ring.outside p out
    unfold schedNodeOk at ok
    rw [next] at ok
    cases ok
  · intro member
    obtain ⟨t, entered, -⟩ := ring.enter member
    obtain ⟨n, forth⟩ := Path.first (t := t) entered.closed
    obtain ⟨b, back⟩ := Path.last (t := t) entered.closed
    unfold schedNodeOk
    rw [forth.1, back.2]
    exact decide_eq_true ⟨forth.2, back.1⟩

/-- The ring holds the queued processes; the head is one. -/
structure Ready (w : World Proc) (l : List Proc) : Prop where
  ring : Ring w.kernel.links l
  members : ∀ p, p ∈ l ↔ w.queued p = true
  head : (l = [] ∧ w.kernel.phead = none) ∨ ∃ h ∈ l, w.kernel.phead = some h

theorem ready_enqueue (ready : Ready w l) (p : Proc) :
    ∃ l', Ready ⟨schedEnqueue w.kernel p, update w.queued p true⟩ l' := by
  have added : ∀ l' : List Proc, (∀ q, q ∈ l' ↔ q = p ∨ q ∈ l) → ∀ q,
      q ∈ l' ↔ update w.queued p true q = true := by
    intro l' members q
    rw [members]
    by_cases here : q = p
    · simp [here]
    · simp [here, ready.members]
  unfold schedEnqueue
  by_cases there : p ∈ l
  · rw [if_pos ((nodeOk_iff ready.ring p).mpr there)]
    refine ⟨l, ready.ring, added l fun q => ?_, ready.head⟩
    exact ⟨.inr, fun either => either.elim (fun same => same ▸ there) id⟩
  rw [if_neg fun ok => there ((nodeOk_iff ready.ring p).mp ok)]
  rcases ready.head with ⟨rfl, none_⟩ | ⟨h, member, some_⟩
  · rw [none_]
    refine ⟨[p], ring_alone ready.ring p, added [p] fun q => ?_, .inr ⟨p, by simp, rfl⟩⟩
    simp
  obtain ⟨t, entered, same⟩ := ready.ring.enter member
  obtain ⟨n, forth⟩ := Path.first (t := t) entered.closed
  rw [some_]
  dsimp only
  rw [forth.1]
  refine ⟨h :: p :: t, ring_insert entered (fun inside => there ((same p).mp inside)) forth.1,
    added _ fun q => ?_, .inr ⟨h, by simp, rfl⟩⟩
  rw [← same q]
  simp only [mem_cons]
  tauto

theorem ready_dequeue (ready : Ready w l) (p : Proc) :
    ∃ l', Ready ⟨(schedDequeue w.kernel p).2, update w.queued p false⟩ l' := by
  have removed : ∀ l' : List Proc, (∀ q, q ∈ l' ↔ q ≠ p ∧ q ∈ l) → ∀ q,
      q ∈ l' ↔ update w.queued p false q = true := by
    intro l' members q
    rw [members]
    by_cases here : q = p
    · simp [here]
    · simp [here, ready.members]
  unfold schedDequeue
  by_cases there : p ∈ l
  · rw [if_pos ((nodeOk_iff ready.ring p).mpr there)]
    obtain ⟨t, entered, same⟩ := ready.ring.enter there
    obtain ⟨b, back⟩ := Path.last (t := t) entered.closed
    have fresh := (nodup_cons.mp entered.nodup).1
    have head : ∃ h ∈ p :: t, w.kernel.phead = some h := by
      rcases ready.head with ⟨rfl, -⟩ | ⟨h, member, some_⟩
      · cases there
      · exact ⟨h, (same h).mpr member, some_⟩
    obtain ⟨h, member, some_⟩ := head
    cases t with
    | nil =>
      have forth := entered.closed.1
      obtain rfl : h = p := by simpa using member
      rw [forth, back.2]
      dsimp only
      rw [if_pos rfl, if_pos some_]
      refine ⟨[], ring_unlink_last entered, removed [] fun q => ?_, .inl ⟨rfl, rfl⟩⟩
      rw [← same q]
      simp
    | cons n u =>
      have forth := entered.closed.1.1
      have apart : n ≠ p := fun equal => fresh (equal ▸ mem_cons_self ..)
      rw [forth, back.2]
      dsimp only
      rw [if_neg apart]
      refine ⟨n :: u, ring_bypass entered back.2, removed _ fun q => ?_, .inr ?_⟩
      · rw [← same q]
        simp only [mem_cons]
        constructor
        · intro inside
          exact ⟨fun equal => fresh (equal ▸ mem_cons.mpr inside), .inr inside⟩
        · rintro ⟨other, inside⟩
          exact inside.resolve_left other
      · dsimp only
        by_cases first : w.kernel.phead = some p
        · rw [if_pos first]
          exact ⟨n, by simp, rfl⟩
        rw [if_neg first]
        refine ⟨h, ?_, some_⟩
        rcases mem_cons.mp member with equal | inside
        · exact absurd (equal ▸ some_) first
        · exact inside
  · rw [if_neg fun ok => there ((nodeOk_iff ready.ring p).mp ok)]
    rw [ring_unlink_outside ready.ring p there]
    refine ⟨l, ready.ring, removed l fun q => ?_, ready.head⟩
    exact ⟨fun inside => ⟨fun same => there (same ▸ inside), inside⟩, fun both => both.2⟩

theorem claim_links (k : Kernel Proc) (me : Nat) (last : Proc) (pcb : Proc → Pcb)
    (best : Option Proc) : (claim k me last pcb best).2.links = k.links ∧
      (claim k me last pcb best).2.phead = k.phead := by
  unfold claim
  split
  · exact ⟨rfl, rfl⟩
  · split_ifs <;> exact ⟨rfl, rfl⟩

/-- A scheduler call leaves the ring alone. -/
theorem scheduler_links (k : Kernel Proc) (me now : Nat) (last : Option Proc) :
    (scheduler k me now last).2.links = k.links ∧ (scheduler k me now last).2.phead = k.phead := by
  unfold scheduler
  dsimp only
  split
  · exact ⟨rfl, rfl⟩
  split_ifs
  · exact ⟨rfl, rfl⟩
  · exact ⟨rfl, rfl⟩
  · split
    · exact ⟨rfl, rfl⟩
    · split
      · exact ⟨rfl, rfl⟩
      · exact claim_links ..
  · split
    · exact ⟨rfl, rfl⟩
    · split
      · exact ⟨rfl, rfl⟩
      · exact claim_links ..

theorem ready_step (ready : Ready w l) (a : Act Proc) : ∃ l', Ready (step w a) l' := by
  cases a with
  | enqueue p => exact ready_enqueue ready p
  | dequeue p => exact ready_dequeue ready p
  | block p deadline => exact ⟨l, ready.ring, ready.members, ready.head⟩
  | wake p => exact ⟨l, ready.ring, ready.members, ready.head⟩
  | schedule me now last =>
    obtain ⟨links, phead⟩ := scheduler_links w.kernel me now last
    refine ⟨l, ?_, ready.members, ?_⟩
    · change Ring (scheduler w.kernel me now last).2.links l
      rw [links]
      exact ready.ring
    · change (l = [] ∧ (scheduler w.kernel me now last).2.phead = none) ∨
        ∃ h ∈ l, (scheduler w.kernel me now last).2.phead = some h
      rw [phead]
      exact ready.head
  | others p b => exact ⟨l, ready.ring, ready.members, ready.head⟩

variable {me now : Nat} {order : List Proc} {last : Proc}

/-- Runnable on the processor and not asleep when the call began. -/
def Candidate (k : Kernel Proc) (me now : Nat) (p : Proc) : Prop :=
  (k.pcb p).waiting = 0 ∧ schedRunnableHere k.idle me p (tick now (k.pcb p)) = true

/-- The control blocks after pass 1. -/
def ticked (k : Kernel Proc) (now : Nat) (order : List Proc) (p : Proc) : Pcb :=
  if p ∈ order then tick now (k.pcb p) else k.pcb p

theorem expire_waiting (now : Nat) (b : Pcb) : (expire now b).waiting = b.waiting := by
  unfold expire
  split <;> rfl

theorem tick_awake (now : Nat) {b : Pcb} (awake : b.waiting = 0) : tick now b = expire now b := by
  unfold tick
  dsimp only
  rw [expire_waiting, if_neg (not_not.mpr awake)]

theorem effPrio_expire (now : Nat) (b : Pcb) : schedEffPrio (expire now b) = schedEffPrio b := by
  unfold expire schedEffPrio
  split <;> rfl

theorem effPrio_tick (now : Nat) (b : Pcb) : schedEffPrio (tick now b) = schedEffPrio b := by
  unfold tick
  dsimp only
  split
  · exact effPrio_expire now b
  · exact effPrio_expire now b

/-- What pass 1 knows of the best priority after some nodes. -/
structure Best (k : Kernel Proc) (me now : Nat) (pcb : Proc → Pcb) (seen : List Proc)
    (before after : Option Proc × Int) : Prop where
  grows : before.2 ≤ after.2
  bounds : ∀ p ∈ seen, (pcb p).waiting = 0 →
    schedRunnableHere k.idle me p (tick now (pcb p)) = true →
    (schedEffPrio (pcb p) : Int) ≤ after.2
  met : after = before ∨ ∃ m ∈ seen, (pcb m).waiting = 0 ∧
    schedRunnableHere k.idle me m (tick now (pcb m)) = true ∧
    after = (some m, (schedEffPrio (pcb m) : Int))

theorem pass1_all (k : Kernel Proc) (me now : Nat) (seen : List Proc) :
    ∀ (pcb : Proc → Pcb) (best : Option Proc × Int), seen.Nodup →
      (∀ p ∈ seen, schedNodeOk k.links p = true) →
      ∃ after, visitAll (pass1 k me now) (pcb, best) seen =
          (fun p => if p ∈ seen then tick now (pcb p) else pcb p, after) ∧
        Best k me now pcb seen best after := by
  induction seen with
  | nil =>
    intro pcb best _ _
    exact ⟨best, by simp [visitAll], le_rfl, by simp, .inl rfl⟩
  | cons a rest ih =>
    intro pcb best nodup linked
    obtain ⟨fresh, nodup⟩ := nodup_cons.mp nodup
    have ok := linked a (by simp)
    -- the step at the first node
    obtain ⟨best₁, one, grows, bound, met⟩ : ∃ best₁, pass1 k me now (pcb, best) a =
          ((update pcb a (tick now (pcb a)), best₁), true) ∧ best.2 ≤ best₁.2 ∧
        ((pcb a).waiting = 0 → schedRunnableHere k.idle me a (tick now (pcb a)) = true →
          (schedEffPrio (pcb a) : Int) ≤ best₁.2) ∧
        (best₁ = best ∨ ((pcb a).waiting = 0 ∧
          schedRunnableHere k.idle me a (tick now (pcb a)) = true ∧
          best₁ = (some a, (schedEffPrio (pcb a) : Int)))) := by
      unfold pass1
      rw [if_neg (by simp [ok])]
      dsimp only
      rw [effPrio_expire, expire_waiting]
      by_cases better : (pcb a).waiting = 0 ∧
          schedRunnableHere k.idle me a (expire now (pcb a)) = true ∧
          best.2 < (schedEffPrio (pcb a) : Int)
      · rw [if_pos better]
        refine ⟨_, rfl, le_of_lt better.2.2, fun _ _ => le_rfl, .inr ⟨better.1, ?_, rfl⟩⟩
        rw [tick_awake now better.1]
        exact better.2.1
      rw [if_neg better]
      refine ⟨best, rfl, le_rfl, fun awake runnable => ?_, .inl rfl⟩
      rw [tick_awake now awake] at runnable
      by_contra higher
      exact better ⟨awake, runnable, by omega⟩
    obtain ⟨after, done, rest_⟩ := ih (update pcb a (tick now (pcb a))) best₁ nodup
      fun p member => linked p (by simp [member])
    have apart : ∀ p ∈ rest, p ≠ a := fun p member same => fresh (same ▸ member)
    refine ⟨after, ?_, grows.trans rest_.grows, fun p member awake runnable => ?_, ?_⟩
    · rw [visitAll, one]
      rw [if_neg (by simp), done]
      congr 1
      funext p
      by_cases here : p = a
      · subst here
        simp [fresh]
      · simp [here]
    · rcases mem_cons.mp member with rfl | later
      · exact (bound awake runnable).trans rest_.grows
      · have same := rest_.bounds p later
        rw [update_of_ne (apart p later)] at same
        exact same awake runnable
    · rcases rest_.met with same | ⟨m, later, facts⟩
      · rw [same]
        rcases met with still | ⟨awake, runnable, equal⟩
        · exact .inl still
        · exact .inr ⟨a, by simp, awake, runnable, equal⟩
      · rw [update_of_ne (apart m later)] at facts
        exact .inr ⟨m, by simp [later], facts⟩

/-- Pass 2 over nodes that are all linked: the first one that fits. -/
theorem pass2_all (pcb : Proc → Pcb) (prio : Int) (seen : List Proc) (best : Option Proc)
    (linked : ∀ p ∈ seen, schedNodeOk k.links p = true) :
    visitAll (pass2 k me pcb prio) best seen =
      ((seen.find? fun p => decide (schedRunnableHere k.idle me p (pcb p) = true ∧
        (schedEffPrio (pcb p) : Int) = prio)).map some).getD best := by
  induction seen with
  | nil => rfl
  | cons a rest ih =>
    have ok := linked a (by simp)
    have later := ih fun p member => linked p (by simp [member])
    rw [visitAll]
    unfold pass2 at later ⊢
    by_cases fits : schedRunnableHere k.idle me a (pcb a) = true ∧
        (schedEffPrio (pcb a) : Int) = prio
    · rw [find?_cons_of_pos (by simpa using fits)]
      simp [ok, fits]
    · rw [find?_cons_of_neg (by simpa using fits)]
      simpa [ok, fits] using later

/-- The nodes of a ring in order after the last process. -/
def Order (l : List Proc) (last : Proc) (order : List Proc) : Prop :=
  ∃ s t, l = s ++ last :: t ∧ order = t ++ (s ++ [last])

/-- Runnable here, the first of highest effective priority among the candidates. -/
structure Picked (k : Kernel Proc) (me now : Nat) (order : List Proc) (r : Proc) : Prop where
  runnable : schedRunnableHere k.idle me r (tick now (k.pcb r)) = true
  top : ∀ p ∈ order, Candidate k me now p → schedEffPrio (k.pcb p) ≤ schedEffPrio (k.pcb r)
  attained : ∃ m ∈ order, Candidate k me now m ∧ schedEffPrio (k.pcb m) = schedEffPrio (k.pcb r)
  first : ∃ pre post, order = pre ++ r :: post ∧ ∀ q ∈ pre,
    ¬ (schedRunnableHere k.idle me q (tick now (k.pcb q)) = true ∧
      schedEffPrio (k.pcb q) = schedEffPrio (k.pcb r))

def afterTick (k : Kernel Proc) (now : Nat) (order : List Proc) : Kernel Proc :=
  { k with pcb := ticked k now order }

/-- And with the process that was picked claimed. -/
def afterClaim (k : Kernel Proc) (me now : Nat) (order : List Proc) (r : Proc) : Kernel Proc :=
  { k with
    pcb := Function.update (ticked k now order) r { tick now (k.pcb r) with onCpu := some me } }

/-- What a call is to return and to leave behind. -/
def Selects (k : Kernel Proc) (me now : Nat) (last : Proc) (order : List Proc)
    (out : Option Proc × Kernel Proc) : Prop :=
  if pinned (k.pcb last) = true then out = (some last, k)
  else
    ((∀ p ∈ order, ¬ Candidate k me now p) → out = (some last, afterTick k now order)) ∧
    ((∃ p ∈ order, Candidate k me now p) → ∃ r, Picked k me now order r ∧
      out = (some r, afterClaim k me now order r))

theorem onCpu_of_runnable {b : Pcb} (runnable : schedRunnableHere k.idle me p b = true) :
    b.onCpu = none ∨ b.onCpu = some me := by
  exact (of_decide_eq_true runnable).2.2.2.1

theorem claim_runnable (last : Proc) {pcb : Proc → Pcb} {r : Proc}
    (runnable : schedRunnableHere k.idle me r (pcb r) = true) :
    claim k me last pcb (some r) =
      (r, { k with pcb := update pcb r { pcb r with onCpu := some me } }) := by
  unfold claim
  dsimp only
  rcases onCpu_of_runnable runnable with free | mine
  · rw [if_neg (by rw [free]; nofun), if_pos free]
  · rw [if_pos mine]
    have same : ({ pcb r with onCpu := some me } : Pcb) = pcb r := by rw [← mine]
    rw [same, update_eq_self]

theorem select_spec (me now : Nat) (last : Proc) (ring : Ring k.links order)
    (few : order.length ≤ 512) {start : Proc} {rest : List Proc} (begins : order = start :: rest) :
    ((∀ p ∈ order, ¬ Candidate k me now p) →
      select k me now last start = (last, afterTick k now order)) ∧
    ((∃ p ∈ order, Candidate k me now p) → ∃ r, Picked k me now order r ∧
      select k me now last start = (r, afterClaim k me now order r)) := by
  have linked : ∀ p ∈ order, schedNodeOk k.links p = true := fun p => (nodeOk_iff ring p).mpr
  have around : Path k.links.Step start rest start := by
    have closed := ring.closed
    rw [begins] at closed
    exact closed
  have fresh : start ∉ rest := (nodup_cons.mp (begins ▸ ring.nodup)).1
  have short : rest.length < maxHops := by
    rw [begins, length_cons] at few
    unfold maxHops
    omega
  obtain ⟨⟨best, prio⟩, one, facts⟩ := pass1_all k me now order k.pcb (none, -1) ring.nodup linked
  have first : walk k.links.next (pass1 k me now) start maxHops start (k.pcb, none, -1) =
      (ticked k now order, best, prio) := by
    rw [walk_eq _ rest start maxHops _ around fresh short, ← begins, one]
    rfl
  have second : walk k.links.next (pass2 k me (ticked k now order) prio) start maxHops start best =
      ((order.find? fun p => decide (schedRunnableHere k.idle me p (ticked k now order p) = true ∧
        (schedEffPrio (ticked k now order p) : Int) = prio)).map some).getD best := by
    rw [walk_eq _ rest start maxHops _ around fresh short, ← begins]
    exact pass2_all _ _ order best linked
  unfold select
  rw [first]
  dsimp only
  rw [second]
  constructor
  · intro none_
    have same : (best, prio) = (none, -1) := by
      rcases facts.met with same | ⟨m, member, awake, runnable, -⟩
      · exact same
      · exact absurd ⟨awake, runnable⟩ (none_ m member)
    obtain ⟨rfl, rfl⟩ := Prod.mk.inj same
    rfl
  · rintro ⟨p, member, awake, runnable⟩
    obtain ⟨m, inside, awakeM, runnableM, equal⟩ : ∃ m ∈ order, (k.pcb m).waiting = 0 ∧
        schedRunnableHere k.idle me m (tick now (k.pcb m)) = true ∧
        (best, prio) = (some m, (schedEffPrio (k.pcb m) : Int)) := by
      rcases facts.met with same | found
      · -- some candidate raises the priority above -1
        have high := facts.bounds p member awake runnable
        rw [same] at high
        have low : (0 : Int) ≤ (schedEffPrio (k.pcb p) : Int) := Int.natCast_nonneg _
        omega
      · exact found
    obtain ⟨rfl, rfl⟩ := Prod.mk.inj equal
    have at_ : ∀ q ∈ order, ticked k now order q = tick now (k.pcb q) := fun q there => if_pos there
    have fits : ∀ q ∈ order, decide (schedRunnableHere k.idle me q (ticked k now order q) = true ∧
        (schedEffPrio (ticked k now order q) : Int) = (schedEffPrio (k.pcb m) : Int)) = true ↔
        schedRunnableHere k.idle me q (tick now (k.pcb q)) = true ∧
          schedEffPrio (k.pcb q) = schedEffPrio (k.pcb m) := by
      intro q there
      rw [at_ q there, effPrio_tick, decide_eq_true_iff]
      exact and_congr_right' Int.ofNat_inj
    cases found : order.find? fun p => decide (schedRunnableHere k.idle me p
        (ticked k now order p) = true ∧
        (schedEffPrio (ticked k now order p) : Int) = (schedEffPrio (k.pcb m) : Int)) with
    | none =>
      have never := find?_eq_none.mp found m inside
      exact absurd ((fits m inside).mpr ⟨runnableM, rfl⟩) never
    | some r =>
      obtain ⟨good, pre, post, split, earlier⟩ := find?_eq_some_iff_append.mp found
      have there : r ∈ order := by
        rw [split]
        simp
      have chosen := (fits r there).mp good
      refine ⟨r, ⟨chosen.1, fun q member candidate => ?_, ⟨m, inside, ⟨awakeM, runnableM⟩,
        chosen.2.symm⟩, pre, post, split, fun q before => ?_⟩, ?_⟩
      · have bound := facts.bounds q member candidate.1 candidate.2
        rw [chosen.2]
        exact Int.ofNat_le.mp bound
      · have member : q ∈ order := by
          rw [split]
          simp [before]
        have skipped := earlier q before
        rw [chosen.2, ← fits q member]
        intro fit
        rw [fit] at skipped
        cases skipped
      · have runs : schedRunnableHere k.idle me r (ticked k now order r) = true := by
          rw [at_ r there]
          exact chosen.1
        have claimed := claim_runnable last runs
        rw [at_ r there] at claimed
        exact claimed

theorem scheduler_selects (ring : Ring k.links l) (few : l.length ≤ 512) (member : last ∈ l) :
    ∃ order, Order l last order ∧ Selects k me now last order (scheduler k me now (some last)) := by
  obtain ⟨s, t, rfl⟩ := append_of_mem member
  have ordered : Ring k.links (t ++ (s ++ [last])) := by
    apply Ring.rotate
    simpa using ring
  refine ⟨t ++ (s ++ [last]), ⟨s, t, rfl, rfl⟩, ?_⟩
  have length : (t ++ (s ++ [last])).length ≤ 512 := by
    simp only [length_append, length_cons, length_nil] at few ⊢
    omega
  have ok := (nodeOk_iff ring last).mpr member
  -- the node after the last process is the first of the order
  obtain ⟨start, rest, begins⟩ : ∃ start rest, t ++ (s ++ [last]) = start :: rest := by
    cases t with
    | nil => cases s with
      | nil => exact ⟨last, [], rfl⟩
      | cons a s => exact ⟨a, s ++ [last], rfl⟩
    | cons a t => exact ⟨a, t ++ (s ++ [last]), rfl⟩
  have next : k.links.next last = some start := by
    have closed : Path k.links.Step last (t ++ s) last := ring.closed.enter
    cases t with
    | nil =>
      cases s with
      | nil =>
        cases begins
        exact closed.1
      | cons a s =>
        cases begins
        exact closed.1.1
    | cons a t =>
      cases begins
      exact closed.1.1
  have spec := select_spec me now last ordered length begins
  have links : hasLinks k last = true := by
    have found := ok
    unfold schedNodeOk at found
    unfold hasLinks
    split at found
    · rename_i n b forth back
      rw [forth, back]
      rfl
    · cases found
  have out : scheduler k me now (some last) = if pinned (k.pcb last) = true then (some last, k)
      else (some (select k me now last start).1, (select k me now last start).2) := by
    unfold scheduler
    simp [links, ok, next]
  unfold Selects
  rw [out]
  split
  · rfl
  refine ⟨fun none_ => ?_, fun some_ => ?_⟩
  · rw [spec.1 none_]
  · obtain ⟨r, picked, selected⟩ := spec.2 some_
    exact ⟨r, picked, by rw [selected]⟩

end

section Contract

variable {Proc : Type} [DecidableEq Proc] {w : World Proc}

/-- With at most 512 processes the ring is a doubly linked cycle of the enqueued ones; and
`scheduler` with its last process in it returns a holder unchanged, or ticks every process once and
claims the first of the highest priority, or returns the last process. -/
theorem ring_scheduled [Fintype Proc] (few : Fintype.card Proc ≤ 512)
    (run : Reachable schedulings (fun _ _ => True) w) :
    ∃ l, Ring w.kernel.links l ∧ (∀ p, p ∈ l ↔ w.queued p = true) ∧
      ∀ me now last, w.queued last = true → ∃ order, Order l last order ∧
        Selects w.kernel me now last order (scheduler w.kernel me now (some last)) := by
  have ready : ∃ l, Ready w l := by
    refine Reachable.invariant (I := fun w => ∃ l, Ready w l) ?_ ?_ run
    · rintro w ⟨links, phead, queued⟩
      refine ⟨[], ⟨List.nodup_nil, trivial, fun p _ => links p⟩, fun p => ?_, .inl ⟨rfl, phead⟩⟩
      rw [queued]
      simp
    · rintro w a w' ⟨l, ready⟩ - taken
      rw [taken]
      exact ready_step ready a
  obtain ⟨l, ready⟩ := ready
  refine ⟨l, ready.ring, ready.members, fun me now last queued => ?_⟩
  have length : l.length ≤ 512 := ready.ring.nodup.length_le_card.trans few
  exact scheduler_selects ready.ring length ((ready.members last).mpr queued)

def pair : World (Fin 2) where
  kernel :=
    { links := ⟨fun _ => none, fun _ => none⟩, phead := none,
      pcb := fun p => ⟨0, 0, false, false, none, none, 5, false, p.val, 0⟩, idle := fun _ => none }
  queued _ := false

/-- Both enqueued; after the first, the second is taken. -/
theorem ring_scheduled_pair : ∃ w : World (Fin 2),
    Reachable schedulings (fun _ _ => True) w ∧ (∃ l, Ring w.kernel.links l ∧ 0 ∈ l ∧ 1 ∈ l) ∧
    (scheduler w.kernel 0 0 (some 0)).1 = some 1 := by
  have run : Reachable schedulings (fun _ _ => True) (step (step pair (.enqueue 0)) (.enqueue 1)) :=
    .step (.step (.start ⟨fun _ => ⟨rfl, rfl⟩, rfl, fun _ => rfl⟩) trivial rfl) trivial rfl
  obtain ⟨l, ring, members, -⟩ := ring_scheduled (by decide) run
  refine ⟨_, run, ⟨l, ring, (members 0).mpr (by decide), (members 1).mpr (by decide)⟩, ?_⟩
  decide +kernel

end Contract

end IcsOs.Process.Scheduler
