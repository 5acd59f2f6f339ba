/- GID: IcsOs/Process/KillTree
   generality: I
   source: kernel/process/process.c, kernel/process/scheduler.c
   digest: What kill_process takes off the ready ring, against the subtree of its victim. -/

import Mathlib.Data.List.Nodup

set_option autoImplicit false

namespace IcsOs.Process.KillTree

/-- The fields of `PCB386` a kill reads; `onCpu` is `on_cpu >= 0`. -/
structure Pcb where
  processid : Nat
  owner : Nat
  status : Nat
  sys : Bool
  onCpu : Bool

def psAttbUnloadable : Nat := 2
def psAttbThread : Nat := 8
def psAttbDying : Nat := 16

def Pcb.has (b : Pcb) (attb : Nat) : Bool := b.status &&& attb != 0

variable {Proc : Type}

/-- The ring from its head on: no block and no id twice. -/
structure Ready (Proc : Type) where
  ring : List Proc
  pcb : Proc → Pcb
  nodup : ring.Nodup
  ids : ∀ p ∈ ring, ∀ q ∈ ring, (pcb p).processid = (pcb q).processid → p = q

/-- The walk gives up after 514 blocks. -/
def schedFindprocess (k : Ready Proc) (pid : Nat) : Option Proc :=
  (k.ring.take 514).find? fun p => (k.pcb p).processid == pid

section Calls

variable [DecidableEq Proc]

def schedDequeue (k : Ready Proc) (p : Proc) : Ready Proc where
  ring := k.ring.erase p
  pcb := k.pcb
  nodup := k.nodup.erase p
  ids q inQ r inR := k.ids q (List.mem_of_mem_erase inQ) r (List.mem_of_mem_erase inR)

/-- `ptr->status |= PS_ATTB_DYING`. -/
def markDying (k : Ready Proc) (p : Proc) : Ready Proc where
  ring := k.ring
  pcb q := if q = p then { k.pcb p with status := (k.pcb p).status ||| psAttbDying } else k.pcb q
  nodup := k.nodup
  ids q inQ r inR same := by
    apply k.ids q inQ r inR
    split_ifs at same with atQ atR atR <;> simp_all

/-- The test reads `!ptr->status & PS_ATTB_UNLOADABLE`. -/
def dex32Killkthread (k : Ready Proc) (pid : Nat) : Ready Proc :=
  match schedFindprocess k pid with
  | none => k
  | some p =>
    let negated := if (k.pcb p).status = 0 then 1 else 0
    if negated &&& psAttbUnloadable ≠ 0 then schedDequeue k p else k

/-- `kill_children`, which looks up the block of `pid` itself. -/
def killChildren (kill : Ready Proc → Nat → Option (Ready Proc)) (k : Ready Proc) (pid : Nat) :
    Option (Ready Proc) :=
  match schedFindprocess k pid with
  | none => some k
  | some p =>
    if (k.pcb p).owner = pid ∧ (k.pcb p).has psAttbUnloadable = false then
      kill k (k.pcb p).processid
    else some k

/-- With a bound on nesting; a kernel thread is passed by its block's address. `none`: not come
back. -/
def killProcess (address : Proc → Nat) : Nat → Ready Proc → Nat → Option (Ready Proc)
  | 0, _, _ => none
  | depth + 1, k, pid =>
    match schedFindprocess k pid with
    | none => some k
    | some p =>
      let b := k.pcb p
      if b.has psAttbUnloadable then some k
      else if b.has psAttbDying then some k
      else if b.onCpu then some (markDying k p)
      else
        (killChildren (killProcess address depth) k pid).bind fun k1 =>
          if b.sys then some (dex32Killkthread k1 (address p))
          else if b.has psAttbThread then
            (killChildren (killProcess address depth) k1 b.processid).map (schedDequeue · p)
          else some (schedDequeue k1 p)

end Calls

/-- `pid` and all that leads to it through the owners on the ring. -/
inductive Below (k : Ready Proc) (pid : Nat) : Proc → Prop
  | root {p : Proc} (queued : p ∈ k.ring) (named : (k.pcb p).processid = pid) : Below k pid p
  | child {p q : Proc} (up : Below k pid p) (queued : q ∈ k.ring)
      (owned : (k.pcb q).owner = (k.pcb p).processid) : Below k pid q

/-- The kill returns; the ring has lost exactly the subtree of `pid`. -/
def Cascades [DecidableEq Proc] (address : Proc → Nat) (k : Ready Proc) (pid : Nat) : Prop :=
  ∃ depth k', killProcess address depth k pid = some k' ∧
    ∀ q, q ∈ k'.ring ↔ q ∈ k.ring ∧ ¬Below k pid q

/-- An idle user process the walk finds, that does not own itself. -/
structure Plain (k : Ready Proc) (p : Proc) : Prop where
  near : p ∈ k.ring.take 514
  loadable : (k.pcb p).has psAttbUnloadable = false
  alive : (k.pcb p).has psAttbDying = false
  idle : (k.pcb p).onCpu = false
  user : (k.pcb p).sys = false
  owned : (k.pcb p).owner ≠ (k.pcb p).processid

section Kill

variable {k k' : Ready Proc} {p q : Proc} {pid : Nat}

theorem schedFindprocess_some (found : schedFindprocess k pid = some p) :
    p ∈ k.ring.take 514 ∧ (k.pcb p).processid = pid := by
  refine ⟨List.mem_of_find?_eq_some found, ?_⟩
  simpa using List.find?_some found

theorem schedFindprocess_eq (near : p ∈ k.ring.take 514) (named : (k.pcb p).processid = pid) :
    schedFindprocess k pid = some p := by
  cases found : schedFindprocess k pid with
  | none =>
    have missed := List.find?_eq_none.mp found p near
    simp [named] at missed
  | some q =>
    obtain ⟨nearQ, namedQ⟩ := schedFindprocess_some found
    obtain rfl := k.ids q (List.mem_of_mem_take nearQ) p (List.mem_of_mem_take near)
      (namedQ.trans named.symm)
    rfl

theorem killChildren_other {kill : Ready Proc → Nat → Option (Ready Proc)}
    (found : schedFindprocess k pid = some p) (other : (k.pcb p).owner ≠ pid) :
    killChildren kill k pid = some k := by
  simp [killChildren, found, other]

theorem Below.rooted (below : Below k pid q) : ∃ p ∈ k.ring, (k.pcb p).processid = pid := by
  induction below with
  | root queued named => exact ⟨_, queued, named⟩
  | child _ _ _ ih => exact ih

theorem Below.eq (below : Below k pid q) (childless : ∀ q ∈ k.ring, (k.pcb q).owner ≠ pid) :
    (k.pcb q).processid = pid := by
  induction below with
  | root _ named => exact named
  | child _ queued owned ih => exact absurd (owned.trans ih) (childless _ queued)

variable [DecidableEq Proc] {address : Proc → Nat} {depth : Nat}

/-- The test of `dex32_killkthread` never holds. -/
theorem dex32Killkthread_eq (k : Ready Proc) (pid : Nat) : dex32Killkthread k pid = k := by
  unfold dex32Killkthread
  cases schedFindprocess k pid with
  | none => rfl
  | some p =>
    refine if_neg ?_
    split_ifs <;> decide

theorem killProcess_own (found : schedFindprocess k pid = some p)
    (loadable : (k.pcb p).has psAttbUnloadable = false)
    (alive : (k.pcb p).has psAttbDying = false) (idle : (k.pcb p).onCpu = false)
    (own : (k.pcb p).owner = pid) (depth : Nat) : killProcess address depth k pid = none := by
  induction depth with
  | zero => rfl
  | succ depth ih =>
    have named := (schedFindprocess_some found).2
    simp [killProcess, found, loadable, alive, idle, killChildren, own, named, ih]

/-- Nothing, or its victim, a plain process, leaves the ring. -/
theorem killProcess_cases (taken : killProcess address depth k pid = some k') :
    k'.ring = k.ring ∨ ∃ p, (k.pcb p).processid = pid ∧ Plain k p ∧ k'.ring = k.ring.erase p := by
  cases depth with
  | zero => cases taken
  | succ depth =>
    cases found : schedFindprocess k pid with
    | none =>
      simp only [killProcess, found, Option.some.injEq] at taken
      exact .inl (taken ▸ rfl)
    | some p =>
      obtain ⟨near, named⟩ := schedFindprocess_some found
      by_cases waits : (k.pcb p).has psAttbUnloadable = false ∧
        (k.pcb p).has psAttbDying = false ∧ (k.pcb p).onCpu = false
      · obtain ⟨loadable, alive, idle⟩ := waits
        have other : (k.pcb p).owner ≠ pid := by
          intro own
          rw [killProcess_own found loadable alive idle own] at taken
          cases taken
        simp only [killProcess, found, loadable, alive, idle, killChildren_other found other, named,
          dex32Killkthread_eq, Option.bind_some, Option.map_some, ite_self] at taken
        cases user : (k.pcb p).sys with
        | true => exact .inl (by simp_all)
        | false =>
          refine .inr ⟨p, named, ⟨near, loadable, alive, idle, user, named ▸ other⟩, ?_⟩
          simp only [user, Bool.false_eq_true, if_false, Option.some.injEq] at taken
          rw [← taken, schedDequeue]
      · refine .inl ?_
        rw [killProcess, found] at taken
        grind [markDying]

theorem Plain.killed (plain : Plain k p) :
    killProcess address 1 k (k.pcb p).processid = some (schedDequeue k p) := by
  have found := schedFindprocess_eq plain.near rfl
  simp [killProcess, found, plain.loadable, plain.alive, plain.idle, plain.user,
    killChildren_other found plain.owned]

end Kill

/-- A kill takes off exactly the subtree just if the id is not on the ring or names a plain process
that owns nobody. -/
theorem kill_cascades_iff [DecidableEq Proc] (address : Proc → Nat) (k : Ready Proc) (pid : Nat) :
    Cascades address k pid ↔ ∀ p ∈ k.ring, (k.pcb p).processid = pid →
      Plain k p ∧ ∀ q ∈ k.ring, (k.pcb q).owner ≠ pid := by
  constructor
  · rintro ⟨depth, k', taken, exactly⟩ p queued named
    have gone : p ∉ k'.ring := fun left => ((exactly p).mp left).2 (.root queued named)
    rcases killProcess_cases taken with same | ⟨v, namedV, plain, erased⟩
    · exact absurd (same ▸ queued) gone
    obtain rfl := k.ids v (List.mem_of_mem_take plain.near) p queued (namedV.trans named.symm)
    refine ⟨plain, fun q queuedQ owned => ?_⟩
    have below : Below k pid q := .child (.root queued named) queuedQ (owned.trans named.symm)
    have other : q ≠ v := by
      rintro rfl
      exact plain.owned (owned.trans namedV.symm)
    have left : q ∈ k'.ring := erased ▸ (List.mem_erase_of_ne other).mpr queuedQ
    exact ((exactly q).mp left).2 below
  · intro fine
    by_cases there : ∃ p ∈ k.ring, (k.pcb p).processid = pid
    · obtain ⟨p, queued, rfl⟩ := there
      obtain ⟨plain, childless⟩ := fine p queued rfl
      refine ⟨1, schedDequeue k p, plain.killed, fun q => ?_⟩
      rw [schedDequeue, k.nodup.mem_erase_iff]
      constructor
      · rintro ⟨other, left⟩
        exact ⟨left, fun below => other (k.ids q left p queued (below.eq childless))⟩
      · rintro ⟨left, out⟩
        exact ⟨fun same => out (.root left (same ▸ rfl)), left⟩
    · have absent : schedFindprocess k pid = none := by
        refine List.find?_eq_none.mpr fun p near => ?_
        simpa using fun named => there ⟨p, List.mem_of_mem_take near, named⟩
      refine ⟨1, k, by simp [killProcess, absent], fun q => ⟨fun left => ⟨left, ?_⟩, And.left⟩⟩
      exact fun below => there below.rooted

/-- A shell and the program it started. -/
def shellAndChild : Ready Bool where
  ring := [false, true]
  pcb p := if p then ⟨2, 1, 0, false, false⟩ else ⟨1, 0, 0, false, false⟩
  nodup := by decide
  ids := by decide

/-- The program stays on the ring when the shell is killed. -/
theorem child_survives : Below shellAndChild 1 true ∧ ¬Cascades (fun _ => 0) shellAndChild 1 := by
  have below : Below shellAndChild 1 true :=
    .child (.root (p := false) (by decide) rfl) (by decide) rfl
  refine ⟨below, fun ⟨depth, k', taken, exactly⟩ => ?_⟩
  rcases killProcess_cases taken with same | ⟨v, namedV, -, erased⟩
  · have left : true ∈ k'.ring := by rw [same]; decide
    exact ((exactly true).mp left).2 below
  cases v with
  | true => cases namedV
  | false =>
    have left : true ∈ k'.ring := by rw [erased]; decide
    exact ((exactly true).mp left).2 below

end IcsOs.Process.KillTree
