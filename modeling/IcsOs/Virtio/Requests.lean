/- GID: IcsOs/Virtio/Requests
   generality: I
   source: kernel/hardware/virtio/virtio_blk.c
   digest: Block requests through the queue of a virtio device: slots, completions and resets. -/

import Mathlib.Tactic.Abel
import IcsOs.Lib.Holdings
import IcsOs.Lib.Runs
import IcsOs.Lib.Updates

set_option autoImplicit false
set_option linter.unusedSectionVars false

namespace IcsOs.Virtio.Requests

open Function Multiset List
open Lib.Holdings Lib.Runs Lib.Updates

universe u v w

variable {T : Type u} {A : Type v} {B : Type w} {n id : Nat} [DecidableEq T] {i : Fin n}

def tIn : Nat := 0
def tOut : Nat := 1
def tFlush : Nat := 4

def vblkBounce : Nat := 65536
def eio : Int := -5
def einval : Int := -22

/-- `done` is the callback with its argument, `owner` the caller's page directory or 0. -/
structure Request (A : Type v) (B : Type w) where
  type : Nat
  sector : Nat
  buf : Option B
  bytes : Nat
  done : Option A
  owner : Nat

/-- `vblk_slot`, and the number of the request it has. -/
structure Slot (A : Type v) (B : Type w) where
  request : Nat
  nbytes : Nat
  res : Int
  completion : Bool
  doneFn : Option A
  userBuf : Option B
  done : Bool
  busy : Bool
  status : Nat
  copyBack : Bool
  abandoned : Bool
  syncWait : Bool

/-- Nobody, the device, or nobody until the entry is harvested. -/
inductive Chain
  | free
  | device
  | used
  deriving DecidableEq

/-- Where a call is, between two of its locked sections. -/
inductive Pc (A : Type v) (B : Type w) (n : Nat)
  | idle
  | submitting (r : Request A B)
  | submitted (slot : Option (Fin n)) (id : Nat)
  | waiting (i : Fin n) (id : Nat)
  | reading (i : Fin n) (id : Nat)

/-- `VIRTIO_QUEUE_MAX`. -/
def queueMax : Nat := 128

/-- `qsize`, `has_flush`, `readonly` and `capacity` do not change. -/
structure Config where
  qsize : Nat
  fits : qsize ≤ queueMax
  hasFlush : Bool
  readonly : Bool
  capacity : Nat

/-- Each request has three descriptors. -/
def Config.nslots (c : Config) : Nat := c.qsize / 3

/-- `vblk_dev` with the unharvested entries, the calls, requests accepted, results and data copied.
-/
structure World (T : Type u) (A : Type v) (B : Type w) (n : Nat) where
  ready : Bool
  slots : Fin n → Slot A B
  slotOwner : Fin n → Nat
  used : List Nat
  chain : Fin n → Chain
  pc : T → Pc A B n
  accepted : List (Request A B)
  delivered : List (Nat × Int)
  copies : List (Nat × B)

def World.move (w : World T A B n) (t : T) (p : Pc A B n) : World T A B n :=
  { w with pc := Function.update w.pc t p }

def vblkCompleteSlot (s : Slot A B) : Slot A B :=
  let s' := { s with
    res := if s.status = 0 then (s.nbytes : Int) else eio, done := true,
    completion := s.completion || s.syncWait }
  if s.abandoned then { s' with userBuf := none, busy := false } else s'

/-- The slot an entry of the used ring names. -/
def slotAt (n id : Nat) : Option (Fin n) :=
  if bound : id % 2 ^ 16 / 3 < n then some ⟨id % 2 ^ 16 / 3, bound⟩ else none

def harvestOne (slots : Fin n → Slot A B) (id : Nat) : Fin n → Slot A B :=
  match slotAt n id with
  | none => slots
  | some i => if (slots i).busy then Function.update slots i (vblkCompleteSlot (slots i)) else slots

def Chain.harvested : Chain → Chain
  | .used => .free
  | c => c

def vblkHarvestLocked (w : World T A B n) : World T A B n :=
  { w with
    slots := w.used.foldl harvestOne w.slots, used := [], chain := fun i => (w.chain i).harvested }

def resetSlot (s : Slot A B) : Slot A B :=
  if s.busy = false ∨ s.done = true then s
  else
    let s' := { s with res := eio, done := true, completion := s.completion || s.syncWait }
    if s.abandoned then { s' with userBuf := none, busy := false } else s'

/-- A slot after a reset the device does not acknowledge. -/
def abandonSlot (s : Slot A B) : Slot A B :=
  if s.busy = false ∨ s.done = true then s
  else { s with
    res := eio, userBuf := none, abandoned := true, done := true,
    completion := s.completion || s.syncWait }

/-- `ack`: the device acknowledges; `ok`: it takes the features again. -/
def vblkResetLocked (w : World T A B n) (ack ok : Bool) : World T A B n :=
  if ack then
    { w with
      slots := fun i => resetSlot (w.slots i), used := [], chain := fun _ => .free,
      ready := w.ready && ok }
  else { w with ready := false, slots := fun i => abandonSlot (w.slots i) }

def vblkAllocSlot (w : World T A B n) : Option (Fin n) :=
  (List.finRange n).find? fun i => !(w.slots i).busy

def freshSlot (r : Request A B) (id : Nat) : Slot A B where
  request := id
  nbytes := if r.type = tFlush then 0 else r.bytes
  res := 0
  completion := false
  doneFn := r.done
  userBuf := r.buf
  done := false
  busy := true
  status := 0xFF
  copyBack := r.type = tIn
  abandoned := false
  syncWait := r.done.isNone

/-- The checks of `virtio_blk_submit`. -/
def refused (c : Config) (w : World T A B n) (r : Request A B) : Bool :=
  !w.ready || decide (r.type ≠ tFlush ∧
      (r.buf.isNone ∨ r.bytes = 0 ∨ vblkBounce < r.bytes ∨ r.bytes % 512 ≠ 0 ∨
        c.capacity < (r.sector + r.bytes / 512) % 2 ^ 64)) ||
    decide (r.type = tOut ∧ c.readonly = true)

/-- `virtio_blk_submit` up to its loop. -/
def virtioBlkSubmit (c : Config) (w : World T A B n) (t : T) (r : Request A B) :
    Option (World T A B n) :=
  match w.pc t with
  | .idle =>
    if w.ready = true ∧ r.type = tFlush ∧ c.hasFlush = false then
      match r.done with
      | some _ =>
        some { w with
          accepted := w.accepted ++ [r], delivered := w.delivered ++ [(w.accepted.length, 0)] }
      | none =>
        some ({ w with accepted := w.accepted ++ [r] }.move t
          (.submitted none w.accepted.length))
    else if refused c w r then some w
    else some (w.move t (.submitting r))
  | _ => none

/-- The caller waits, if there is no callback. -/
def afterSubmit (r : Request A B) (i : Fin n) (id : Nat) : Pc A B n :=
  if r.done.isSome then .idle else .submitted (some i) id

def place (w : World T A B n) (t : T) (r : Request A B) (i : Fin n) : World T A B n :=
  { w with
    slots := Function.update w.slots i (freshSlot r w.accepted.length),
    slotOwner := Function.update w.slotOwner i r.owner,
    chain := Function.update w.chain i .device,
    accepted := w.accepted ++ [r] }.move t (afterSubmit r i w.accepted.length)

/-- One round of the loop of `virtio_blk_submit`. -/
def submitTry (w : World T A B n) (t : T) : Option (World T A B n) :=
  match w.pc t with
  | .submitting r =>
    let w' := vblkHarvestLocked w
    match vblkAllocSlot w' with
    | some i => some (place w' t r i)
    | none => some w'
  | _ => none

def submitGiveUp (w : World T A B n) (t : T) : Option (World T A B n) :=
  match w.pc t with
  | .submitting _ => some (w.move t .idle)
  | _ => none

/-- What is copied when the result of a slot is given out. -/
def copyOut (s : Slot A B) : List (Nat × B) :=
  match s.userBuf with
  | some b => if s.copyBack = true ∧ 0 < s.res then [(s.request, b)] else []
  | none => []

/-- The slot after its callback was taken out. -/
def calledSlot (s : Slot A B) : Slot A B :=
  { s with doneFn := none, userBuf := none, busy := false }

def readSlot (s : Slot A B) : Slot A B :=
  { s with syncWait := false, userBuf := none, busy := if s.abandoned then s.busy else false }

/-- In the process with page directory `current`. -/
def vblkFinishAsync (w : World T A B n) (i : Fin n) (current : Option Nat) : World T A B n :=
  let s := w.slots i
  if s.done = false ∨ s.busy = false ∨ s.doneFn.isNone then w
  else if s.copyBack = true ∧ 0 < s.res ∧ w.slotOwner i ≠ 0 ∧ current ≠ some (w.slotOwner i) then w
  else
    { w with
      slots := Function.update w.slots i (calledSlot s),
      slotOwner := Function.update w.slotOwner i 0,
      delivered := w.delivered ++ [(s.request, s.res)],
      copies := w.copies ++ copyOut s }

/-- `virtio_blk_wait` up to its loop. -/
def virtioBlkWait (w : World T A B n) (t : T) : Option (World T A B n) :=
  match w.pc t with
  | .submitted slot id =>
    match w.ready, slot with
    | true, some i => some (w.move t (.waiting i id))
    | _, _ => some ({ w with delivered := w.delivered ++ [(id, einval)] }.move t .idle)
  | _ => none

/-- The loop ends because the completion is done. -/
def waitDone (w : World T A B n) (t : T) : Option (World T A B n) :=
  match w.pc t with
  | .waiting i id => if (w.slots i).completion then some (w.move t (.reading i id)) else some w
  | _ => none

/-- The loop ends because its time is over. -/
def waitTimeout (w : World T A B n) (t : T) (ack ok : Bool) : Option (World T A B n) :=
  match w.pc t with
  | .waiting i id =>
    some ((if (w.slots i).done then w else vblkResetLocked w ack ok).move t (.reading i id))
  | _ => none

/-- `virtio_blk_wait` after its loop. -/
def waitRead (w : World T A B n) (t : T) : Option (World T A B n) :=
  match w.pc t with
  | .reading i id =>
    let s := w.slots i
    some ({ w with
      slots := Function.update w.slots i (readSlot s),
      delivered := w.delivered ++ [(id, s.res)],
      copies := w.copies ++ copyOut s }.move t .idle)
  | _ => none

/-- `virtio_blk_retire_owner` on a slot of the owner after the reset. -/
def retireSlot (owner : Nat) (holder : Nat) (s : Slot A B) : Slot A B :=
  if s.busy = false ∨ holder ≠ owner ∨ s.doneFn.isNone then s
  else { s with userBuf := none, copyBack := false, res := eio, done := true }

/-- `virtio_blk_retire_owner` up to its drain. -/
def virtioBlkRetireOwner (w : World T A B n) (owner : Nat) (ack ok : Bool) : World T A B n :=
  if owner ≠ 0 ∧ ∃ i, (w.slots i).busy = true ∧ w.slotOwner i = owner then
    let w' := vblkResetLocked w ack ok
    { w' with slots := fun i => retireSlot owner (w'.slotOwner i) (w'.slots i) }
  else w

inductive Act (T : Type u) (A : Type v) (B : Type w) (n : Nat)
  | submit (t : T) (r : Request A B)
  | submitTry (t : T)
  | submitGiveUp (t : T)
  | harvest
  | finishAsync (i : Fin n) (current : Option Nat)
  | wait (t : T)
  | waitDone (t : T)
  | waitTimeout (t : T) (ack ok : Bool)
  | waitRead (t : T)
  | forceReset (ack ok : Bool)
  | retireOwner (owner : Nat) (ack ok : Bool)
  | finish (i : Fin n) (status : Nat)
  | entry (id : Nat)

/-- A chain the device has: status, then the entry of the used ring. -/
def deviceFinish (w : World T A B n) (i : Fin n) (status : Nat) : Option (World T A B n) :=
  if w.chain i = .device then
    some { w with
      slots := Function.update w.slots i { w.slots i with status := status },
      chain := Function.update w.chain i .used,
      used := w.used ++ [3 * i.val] }
  else none

def perform (c : Config) (w : World T A B n) : Act T A B n → Option (World T A B n)
  | .submit t r => virtioBlkSubmit c w t r
  | .submitTry t => submitTry w t
  | .submitGiveUp t => submitGiveUp w t
  | .harvest => if w.ready then some (vblkHarvestLocked w) else none
  | .finishAsync i current => some (vblkFinishAsync w i current)
  | .wait t => virtioBlkWait w t
  | .waitDone t => waitDone w t
  | .waitTimeout t ack ok => waitTimeout w t ack ok
  | .waitRead t => waitRead w t
  | .forceReset ack ok => some (vblkResetLocked w ack ok)
  | .retireOwner owner ack ok => some (virtioBlkRetireOwner w owner ack ok)
  | .finish i status => deviceFinish w i status
  -- an entry of the used ring that is not the end of a chain the device has
  | .entry id => some { w with used := w.used ++ [id] }

def emptySlot : Slot A B where
  request := 0
  nbytes := 0
  res := 0
  completion := false
  doneFn := none
  userBuf := none
  done := false
  busy := false
  status := 0
  copyBack := false
  abandoned := false
  syncWait := false

/-- After `virtio_blk_init`. -/
def initial : World T A B n where
  ready := true
  slots _ := emptySlot
  slotOwner _ := 0
  used := []
  chain _ := .free
  pc _ := .idle
  accepted := []
  delivered := []
  copies := []

def disk (T : Type u) (A : Type v) (B : Type w) [DecidableEq T] (c : Config) :
    System (World T A B c.nslots) (Act T A B c.nslots) where
  start w := w = initial
  step w a w' := perform c w a = some w'

variable {accepted : List (Request A B)} {s : Slot A B}

section

/-- The request of a slot whose callback is still to be called. -/
def pendingOf (s : Slot A B) : Multiset Nat :=
  if s.busy = true ∧ s.doneFn.isSome = true then {s.request} else 0

/-- The request whose result a call is to return. -/
def Pc.awaits : Pc A B n → Multiset Nat
  | .submitted _ id | .waiting _ id | .reading _ id => {id}
  | _ => 0

def Pc.slot : Pc A B n → Option (Fin n × Nat)
  | .submitted (some i) id | .waiting i id | .reading i id => some (i, id)
  | _ => none

/-- How many entries of the used ring name a slot. -/
def entries (used : List Nat) (i : Fin n) : Nat := used.countP fun id => slotAt n id = some i

/-- A request is with the device, in the used ring, or done. -/
def Stage (c : Chain) (k : Nat) (done : Bool) : Prop :=
  c = .device ∧ k = 0 ∧ done = false ∨ c = .used ∧ k = 1 ∧ done = false ∨
    c = .free ∧ k = 0 ∧ done = true

/-- A slot's request was accepted, and reads into its own buffer. -/
structure Sound (accepted : List (Request A B)) (s : Slot A B) : Prop where
  plain : s.abandoned = false
  known : ∃ r, accepted[s.request]? = some r ∧ (s.userBuf = none ∨ s.userBuf = r.buf) ∧
    (s.copyBack = true → r.type = tIn)
  ended : s.completion = true → s.done = true

variable [Fintype T] {w w' : World T A B n} {t : T}

structure Kept (w : World T A B n) : Prop where
  stage : ∀ i, (w.slots i).busy = true → Stage (w.chain i) (entries w.used i) (w.slots i).done
  rest : ∀ i, (w.slots i).busy = false → w.chain i = .free
  sound : ∀ i, (w.slots i).busy = true → Sound w.accepted (w.slots i)
  holder : ∀ t i id, (w.pc t).slot = some (i, id) →
    (w.slots i).busy = true ∧ (w.slots i).doneFn = none ∧ (w.slots i).request = id
  read : ∀ t i id, w.pc t = .reading i id → (w.slots i).done = true
  books : Multiset.range w.accepted.length =
    (w.delivered.map Prod.fst : Multiset Nat) + ∑ i, pendingOf (w.slots i) + ∑ t, (w.pc t).awaits
  copied : ∀ id b, (id, b) ∈ w.copies →
    ∃ r, w.accepted[id]? = some r ∧ r.buf = some b ∧ r.type = tIn

/-- No entry for a slot in use but for a chain it has; resets are acknowledged. -/
def Faithful (w : World T A B n) : Act T A B n → Prop
  | .entry id => ∀ i, slotAt n id = some i → (w.slots i).busy = false
  | .waitTimeout _ ack _ | .forceReset ack _ | .retireOwner _ ack _ => ack = true
  | _ => True

theorem pendingOf_free (free : s.busy = false) : pendingOf s = 0 :=
  if_neg (by rw [free]; simp)

structure SlotStep (s s' : Slot A B) : Prop where
  busy : s'.busy = s.busy
  doneFn : s'.doneFn = s.doneFn
  request : s'.request = s.request
  abandoned : s'.abandoned = s.abandoned
  userBuf : s'.userBuf = none ∨ s'.userBuf = s.userBuf
  copyBack : s'.copyBack = true → s.copyBack = true
  done : s.done = true → s'.done = true
  ended : s'.completion = true → s.completion = true ∨ s'.done = true

theorem SlotStep.refl (s : Slot A B) : SlotStep s s :=
  ⟨rfl, rfl, rfl, rfl, .inr rfl, id, id, .inl⟩

theorem SlotStep.pending {s' : Slot A B} (step : SlotStep s s') : pendingOf s' = pendingOf s := by
  unfold pendingOf
  rw [step.busy, step.doneFn, step.request]

theorem SlotStep.sound {s' : Slot A B} (step : SlotStep s s') (sound : Sound accepted s) :
    Sound accepted s' := by
  obtain ⟨r, known, buf, type⟩ := sound.known
  refine ⟨step.abandoned.trans sound.plain, ⟨r, ?_, ?_, fun copy => type (step.copyBack copy)⟩, ?_⟩
  · rw [step.request]
    exact known
  · rcases step.userBuf with none_ | same
    · exact .inl none_
    · rw [same]
      exact buf
  · intro ends
    rcases step.ended ends with before | done
    · exact step.done (sound.ended before)
    · exact done

theorem Kept.slots_step (kept : Kept w) (slots : Fin n → Slot A B) {used : List Nat}
    (chain : Fin n → Chain) (ready : Bool) (steps : ∀ i, SlotStep (w.slots i) (slots i))
    (stage : ∀ i, (w.slots i).busy = true → Stage (chain i) (entries used i) (slots i).done)
    (rest : ∀ i, (w.slots i).busy = false → chain i = .free) :
    Kept { w with slots := slots, used := used, chain := chain, ready := ready } := by
  refine ⟨fun i busy => ?_, fun i free => ?_, fun i busy => ?_, fun t i id there => ?_,
    fun t i id there => (steps i).done (kept.read t i id there), ?_, kept.copied⟩
  · exact stage i ((steps i).busy.symm.trans busy)
  · exact rest i ((steps i).busy.symm.trans free)
  · exact (steps i).sound (kept.sound i ((steps i).busy.symm.trans busy))
  · obtain ⟨busy, async, request⟩ := kept.holder t i id there
    exact ⟨(steps i).busy.trans busy, (steps i).doneFn.trans async, (steps i).request.trans request⟩
  have same : ∑ i, pendingOf (slots i) = ∑ i, pendingOf (w.slots i) :=
    Finset.sum_congr rfl fun i _ => (steps i).pending
  rw [same]
  exact kept.books

/-- No two calls wait for one slot. -/
theorem Kept.alone (kept : Kept w) (mine : (w.pc t).slot = some (i, id)) {s : T} (other : s ≠ t)
    (id' : Nat) : (w.pc s).slot ≠ some (i, id') := by
  intro theirs
  have awaits_of : ∀ {p : Pc A B n} {j id}, p.slot = some (j, id) → p.awaits = {id} := by
    intro p j id there
    cases p with
    | submitted slot id =>
      cases slot with
      | none => cases there
      | some j => cases there; rfl
    | waiting j id => cases there; rfl
    | reading j id => cases there; rfl
    | idle => cases there
    | submitting r => cases there
  obtain rfl : id' = id := (kept.holder s i id' theirs).2.2.symm.trans (kept.holder t i id mine).2.2
  have twice := add_le_sum (fun t => (w.pc t).awaits.count id') other
  rw [awaits_of theirs, awaits_of mine, Multiset.count_singleton_self] at twice
  have once := Multiset.nodup_iff_count_le_one.mp (Multiset.nodup_range w.accepted.length) id'
  rw [kept.books, count_add, count_add, count_sum',
    count_sum'] at once
  omega

/-- What one entry that names a slot does to it. -/
def completeBusy (s : Slot A B) : Slot A B := if s.busy then vblkCompleteSlot s else s

theorem harvestOne_self {slots : Fin n → Slot A B} (here : slotAt n id = some i) :
    harvestOne slots id i = completeBusy (slots i) := by
  unfold harvestOne completeBusy
  rw [here]
  dsimp only
  split_ifs
  · rw [update_self]
  · rfl

theorem harvestOne_other {slots : Fin n → Slot A B} (there : slotAt n id ≠ some i) :
    harvestOne slots id i = slots i := by
  unfold harvestOne
  cases which : slotAt n id with
  | none => rfl
  | some j =>
    have apart : i ≠ j := by
      rintro rfl
      exact there which
    dsimp only
    split_ifs
    · rw [update_of_ne apart]
    · rfl

/-- Each entry that names a slot completes it once more. -/
theorem harvest_slot (used : List Nat) (slots : Fin n → Slot A B) (i : Fin n) :
    used.foldl harvestOne slots i = completeBusy^[entries used i] (slots i) := by
  induction used generalizing slots with
  | nil => rfl
  | cons id rest ih =>
    rw [List.foldl_cons, ih]
    unfold entries
    by_cases here : slotAt n id = some i
    · rw [List.countP_cons_of_pos (by simpa using here), harvestOne_self here,
        Function.iterate_succ_apply]
    · rw [List.countP_cons_of_neg (by simpa using here), harvestOne_other here]

theorem completeBusy_free (free : s.busy = false) : completeBusy s = s := by
  unfold completeBusy
  rw [if_neg (by rw [free]; decide)]

theorem iterate_free (free : s.busy = false) (k : Nat) : completeBusy^[k] s = s :=
  Function.iterate_fixed (completeBusy_free free) k

theorem completeBusy_step (busy : s.busy = true) (plain : s.abandoned = false) :
    SlotStep s (completeBusy s) ∧ (completeBusy s).done = true := by
  unfold completeBusy vblkCompleteSlot
  rw [if_pos busy]
  rw [if_neg (by rw [plain]; decide)]
  exact ⟨⟨rfl, rfl, rfl, rfl, .inr rfl, id, fun _ => rfl, fun _ => .inr rfl⟩, rfl⟩

theorem kept_harvest (kept : Kept w) : Kept (vblkHarvestLocked w) := by
  refine kept.slots_step (w.used.foldl harvestOne w.slots) _ _ (fun i => ?_) (fun i busy => ?_)
    fun i free => ?_
  · rw [harvest_slot]
    cases busy : (w.slots i).busy with
    | false =>
      rw [iterate_free busy]
      exact .refl _
    | true =>
      rcases kept.stage i busy with ⟨-, none_, -⟩ | ⟨-, one, -⟩ | ⟨-, none_, -⟩
      · rw [none_]
        exact .refl _
      · rw [one]
        exact (completeBusy_step busy (kept.sound i busy).plain).1
      · rw [none_]
        exact .refl _
  · rw [harvest_slot]
    rcases kept.stage i busy with ⟨chain, none_, todo⟩ | ⟨chain, one, todo⟩ | ⟨chain, none_, done⟩
    · rw [chain, none_]
      exact .inl ⟨rfl, rfl, todo⟩
    · rw [chain, one]
      exact .inr (.inr ⟨rfl, rfl, (completeBusy_step busy (kept.sound i busy).plain).2⟩)
    · rw [chain, none_]
      exact .inr (.inr ⟨rfl, rfl, done⟩)
  · rw [kept.rest i free]
    rfl

/-- A faithful device's entries complete only requests it has finished. -/
theorem harvest_finished (kept : Kept w) (unfinished : w.chain i ≠ .used) :
    (vblkHarvestLocked w).slots i = w.slots i := by
  change w.used.foldl harvestOne w.slots i = w.slots i
  rw [harvest_slot]
  cases busy : (w.slots i).busy with
  | false => exact iterate_free busy _
  | true =>
    rcases kept.stage i busy with ⟨-, none_, -⟩ | ⟨used, -⟩ | ⟨-, none_, -⟩
    · rw [none_]
      rfl
    · exact absurd used unfinished
    · rw [none_]
      rfl

theorem kept_reset (ok : Bool) (kept : Kept w) : Kept (vblkResetLocked w true ok) := by
  have reset : ∀ i, (w.slots i).busy = true → (w.slots i).done = false →
      SlotStep (w.slots i) (resetSlot (w.slots i)) ∧ (resetSlot (w.slots i)).done = true := by
    intro i busy todo
    unfold resetSlot
    rw [if_neg (by rw [busy, todo]; simp)]
    rw [if_neg (by rw [(kept.sound i busy).plain]; decide)]
    exact ⟨⟨rfl, rfl, rfl, rfl, .inr rfl, id, fun _ => rfl, fun _ => .inr rfl⟩, rfl⟩
  have same : ∀ i, (w.slots i).busy = false ∨ (w.slots i).done = true →
      resetSlot (w.slots i) = w.slots i := fun i rests => if_pos rests
  refine kept.slots_step (fun i => resetSlot (w.slots i)) _ _ (fun i => ?_) (fun i busy => ?_)
    fun i free => rfl
  · cases busy : (w.slots i).busy with
    | false =>
      rw [same i (.inl busy)]
      exact .refl _
    | true =>
      cases done : (w.slots i).done with
      | false => exact (reset i busy done).1
      | true =>
        rw [same i (.inr done)]
        exact .refl _
  · refine .inr (.inr ⟨rfl, rfl, ?_⟩)
    cases done : (w.slots i).done with
    | false => exact (reset i busy done).2
    | true =>
      rw [same i (.inr done)]
      exact done

theorem kept_retire {owner : Nat} {ok : Bool} (kept : Kept w) :
    Kept (virtioBlkRetireOwner w owner true ok) := by
  unfold virtioBlkRetireOwner
  split_ifs with found
  · have kept' := kept_reset ok kept
    have done : ∀ i, ((vblkResetLocked w true ok).slots i).busy = true →
        ((vblkResetLocked w true ok).slots i).done = true := by
      intro i busy
      rcases kept'.stage i busy with ⟨chain, -⟩ | ⟨chain, -⟩ | ⟨-, -, done⟩
      · cases chain
      · cases chain
      · exact done
    have freed : ∀ i, (vblkResetLocked w true ok).chain i = .free := fun _ => rfl
    have unused : (vblkResetLocked w true ok).used = [] := rfl
    generalize vblkResetLocked w true ok = x at *
    have steps : ∀ i, SlotStep (x.slots i) (retireSlot owner (x.slotOwner i) (x.slots i)) := by
      intro i
      unfold retireSlot
      split_ifs
      · exact .refl _
      · exact ⟨rfl, rfl, rfl, rfl, .inl rfl, nofun, fun _ => rfl, fun _ => .inr rfl⟩
    refine kept'.slots_step _ _ _ steps (fun i busy => ?_) fun i _ => freed i
    rw [unused]
    exact .inr (.inr ⟨freed i, rfl, (steps i).done (done i busy)⟩)
  · exact kept

theorem entries_append (used : List Nat) (id : Nat) (i : Fin n) :
    entries (used ++ [id]) i = entries used i + if slotAt n id = some i then 1 else 0 := by
  unfold entries
  rw [countP_append, countP_singleton]
  simp only [decide_eq_true_eq]

theorem slotAt_head (few : n ≤ 42) (i : Fin n) : slotAt n (3 * i.val) = some i := by
  have bound := i.isLt
  have value : 3 * i.val % 2 ^ 16 / 3 = i.val := by omega
  unfold slotAt
  rw [dif_pos (by omega)]
  exact congrArg some (Fin.ext value)

theorem kept_finish {status : Nat} (few : n ≤ 42) (kept : Kept w)
    (taken : deviceFinish w i status = some w') : Kept w' := by
  unfold deviceFinish at taken
  split_ifs at taken with there
  cases taken
  refine kept.slots_step _ _ w.ready (fun j => ?_) (fun j busy => ?_) fun j free => ?_
  · by_cases here : j = i
    · subst here
      rw [update_self]
      exact ⟨rfl, rfl, rfl, rfl, .inr rfl, id, id, .inl⟩
    · rw [update_of_ne here]
      exact .refl _
  · rw [entries_append, slotAt_head few]
    by_cases here : j = i
    · subst here
      rw [update_self, update_self, if_pos rfl]
      rcases kept.stage j busy with ⟨-, none_, todo⟩ | ⟨used, -⟩ | ⟨free, -⟩
      · exact .inr (.inl ⟨rfl, by rw [none_], todo⟩)
      · rw [there] at used
        cases used
      · rw [there] at free
        cases free
    · rw [update_of_ne here, update_of_ne here,
        if_neg fun same => here (Option.some.inj same).symm]
      exact kept.stage j busy
  · have chain := kept.rest j free
    rw [update_of_ne]
    · exact chain
    · rintro rfl
      rw [there] at chain
      cases chain

theorem kept_entry (kept : Kept w)
    (faithful : ∀ i, slotAt n id = some i → (w.slots i).busy = false) :
    Kept { w with used := w.used ++ [id] } := by
  refine kept.slots_step w.slots w.chain w.ready (fun i => .refl _) (fun i busy => ?_) kept.rest
  rw [entries_append, if_neg]
  · exact kept.stage i busy
  · intro here
    rw [faithful i here] at busy
    cases busy

variable {r : Request A B}

theorem awaits_idle : (Pc.idle : Pc A B n).awaits = 0 := rfl

theorem awaits_submitted (slot : Option (Fin n)) (id : Nat) :
    (Pc.submitted slot id : Pc A B n).awaits = {id} := rfl

theorem awaits_reading (i : Fin n) (id : Nat) : (Pc.reading i id : Pc A B n).awaits = {id} := rfl

theorem awaits_submitting (r : Request A B) : (Pc.submitting r : Pc A B n).awaits = 0 := rfl

/-- A call that goes on with the same request. -/
theorem Kept.move {p : Pc A B n} (kept : Kept w) (awaits : p.awaits = (w.pc t).awaits)
    (slot : ∀ i id, p.slot = some (i, id) → (w.pc t).slot = some (i, id))
    (read : ∀ i id, p = .reading i id → (w.slots i).done = true) : Kept (w.move t p) := by
  refine ⟨kept.stage, kept.rest, kept.sound, fun s i id there => ?_, fun s i id there => ?_, ?_,
    kept.copied⟩
  · change (update w.pc t p s).slot = _ at there
    rcases update_cases (g := Pc.slot) there with ⟨rfl, new⟩ | ⟨here, there⟩
    · exact kept.holder s i id (slot i id new)
    · exact kept.holder s i id there
  · change update w.pc t p s = _ at there
    rcases update_eq_cases there with ⟨rfl, new⟩ | ⟨here, there⟩
    · exact read i id new
    · exact kept.read s i id there
  · have sums := sum_update Pc.awaits w.pc t p
    rw [awaits] at sums
    change _ = _ + ∑ s, (update w.pc t p s).awaits
    rw [add_right_cancel sums]
    exact kept.books

theorem getElem?_grow (known : accepted[id]? = some r) (r' : Request A B) :
    (accepted ++ [r'])[id]? = some r := by
  rw [getElem?_append_left (List.getElem?_eq_some_iff.mp known).1]
  exact known

theorem Sound.grow (sound : Sound accepted s) (r : Request A B) : Sound (accepted ++ [r]) s := by
  obtain ⟨r', known, rest⟩ := sound.known
  exact ⟨sound.plain, ⟨r', getElem?_grow known r, rest⟩, sound.ended⟩

theorem Kept.copied_grow (kept : Kept w) (r : Request A B) (id : Nat) (b : B)
    (copied : (id, b) ∈ w.copies) :
    ∃ r', (w.accepted ++ [r])[id]? = some r' ∧ r'.buf = some b ∧ r'.type = tIn := by
  obtain ⟨r', known, rest⟩ := kept.copied id b copied
  exact ⟨r', getElem?_grow known r, rest⟩

/-- Without a slot a request is answered at once, or by the call that waits. -/
theorem kept_submit {c : Config} (kept : Kept w) (taken : virtioBlkSubmit c w t r = some w') :
    Kept w' := by
  unfold virtioBlkSubmit at taken
  cases place : w.pc t <;> rw [place] at taken <;> try cases taken
  split_ifs at taken with noop no
  · cases sync : r.done with
    | some a =>
      rw [sync] at taken
      cases taken
      refine ⟨kept.stage, kept.rest, fun i busy => (kept.sound i busy).grow r, kept.holder,
        kept.read, ?_, kept.copied_grow r⟩
      rw [length_append, length_singleton, Multiset.range_succ, kept.books,
        map_append, ← coe_add, ← singleton_add]
      change {w.accepted.length} + _ = _ + {w.accepted.length} + _ + _
      abel
    | none =>
      rw [sync] at taken
      cases taken
      refine ⟨kept.stage, kept.rest, fun i busy => (kept.sound i busy).grow r,
        fun s i id there => ?_, fun s i id there => ?_, ?_, kept.copied_grow r⟩
      · change (update w.pc t _ s).slot = _ at there
        rcases update_cases (g := Pc.slot) there with ⟨-, ⟨⟩⟩ | ⟨here, there⟩
        exact kept.holder s i id there
      · change update w.pc t _ s = _ at there
        rcases update_eq_cases there with ⟨-, ⟨⟩⟩ | ⟨here, there⟩
        exact kept.read s i id there
      · have sums := sum_update Pc.awaits w.pc t (.submitted none w.accepted.length)
        rw [place, awaits_idle, add_zero, awaits_submitted] at sums
        change Multiset.range (w.accepted ++ [r]).length =
          (w.delivered.map Prod.fst : Multiset Nat) + ∑ i, pendingOf (w.slots i) +
            ∑ s, (update w.pc t _ s).awaits
        rw [sums, length_append, length_singleton, Multiset.range_succ, kept.books,
          ← singleton_add]
        abel
  · cases taken
    exact kept
  · cases taken
    refine kept.move ?_ nofun nofun
    rw [place]
    rfl

theorem kept_place (kept : Kept w) (empty : w.used = []) (submitting : w.pc t = .submitting r)
    (free : (w.slots i).busy = false) : Kept (place w t r i) := by
  have apart : ∀ s j id, (w.pc s).slot = some (j, id) → j ≠ i := by
    rintro s j id there rfl
    rw [(kept.holder s j id there).1] at free
    cases free
  have slot_reading : ∀ s j id, w.pc s = .reading j id → (w.pc s).slot = some (j, id) := by
    intro s j id there
    rw [there]
    rfl
  refine ⟨fun j busy => ?_, fun j rests => ?_, fun j busy => ?_, fun s j id there => ?_,
    fun s j id there => ?_, ?_, kept.copied_grow r⟩
  · by_cases here : j = i
    · subst here
      change Stage (update w.chain j .device j) (entries w.used j) (update w.slots j _ j).done
      rw [update_self, update_self, empty]
      exact .inl ⟨rfl, rfl, rfl⟩
    · change (update w.slots i _ j).busy = true at busy
      change Stage (update w.chain i .device j) (entries w.used j) (update w.slots i _ j).done
      rw [update_of_ne here] at busy ⊢
      rw [update_of_ne here]
      exact kept.stage j busy
  · change (update w.slots i _ j).busy = false at rests
    change update w.chain i .device j = .free
    by_cases here : j = i
    · subst here
      rw [update_self] at rests
      cases rests
    · rw [update_of_ne here] at rests ⊢
      exact kept.rest j rests
  · change (update w.slots i _ j).busy = true at busy
    change Sound (w.accepted ++ [r]) (update w.slots i _ j)
    by_cases here : j = i
    · subst here
      rw [update_self]
      exact ⟨rfl, ⟨r, by simp [freshSlot], .inr rfl, of_decide_eq_true⟩, nofun⟩
    · rw [update_of_ne here] at busy ⊢
      exact (kept.sound j busy).grow r
  · change (update w.pc t _ s).slot = _ at there
    change (update w.slots i _ j).busy = true ∧
      (update w.slots i _ j).doneFn = none ∧ (update w.slots i _ j).request = id
    rcases update_cases (g := Pc.slot) there with ⟨-, new⟩ | ⟨mine, there⟩
    · unfold afterSubmit at new
      split_ifs at new with async
      · cases new
      · cases new
        rw [update_self]
        exact ⟨rfl, Option.not_isSome_iff_eq_none.mp async, rfl⟩
    · rw [update_of_ne (apart s j id there)]
      exact kept.holder s j id there
  · change update w.pc t _ s = _ at there
    change (update w.slots i _ j).done = true
    rcases update_eq_cases there with ⟨-, new⟩ | ⟨mine, there⟩
    · unfold afterSubmit at new
      split_ifs at new
    · rw [update_of_ne (apart s j id (slot_reading s j id there))]
      exact kept.read s j id there
  · have pendings := sum_update pendingOf w.slots i (freshSlot r w.accepted.length)
    have awaits := sum_update Pc.awaits w.pc t (afterSubmit r i w.accepted.length)
    rw [pendingOf_free free, add_zero] at pendings
    rw [submitting, awaits_submitting, add_zero] at awaits
    change Multiset.range (w.accepted ++ [r]).length =
      _ + ∑ j, pendingOf (update w.slots i _ j) + ∑ s, (update w.pc t _ s).awaits
    have one : pendingOf (freshSlot r w.accepted.length) +
        (afterSubmit r i w.accepted.length).awaits = {w.accepted.length} := by
      unfold pendingOf afterSubmit freshSlot
      cases r.done <;> rfl
    rw [pendings, awaits, length_append, length_singleton, Multiset.range_succ,
      kept.books, ← singleton_add, ← one]
    change _ = (w.delivered.map Prod.fst : Multiset Nat) + _ + _
    abel

theorem kept_submitTry (kept : Kept w) (taken : submitTry w t = some w') : Kept w' := by
  unfold submitTry at taken
  cases place : w.pc t <;> rw [place] at taken <;> try cases taken
  have harvested := kept_harvest kept
  dsimp only at taken
  cases found : vblkAllocSlot (vblkHarvestLocked w) with
  | none =>
    rw [found] at taken
    cases taken
    exact harvested
  | some i =>
    rw [found] at taken
    cases taken
    have free := List.find?_some found
    rw [Bool.not_eq_true'] at free
    exact kept_place harvested rfl place free

theorem copyOut_sound (sound : Sound accepted s) {b : B} (copied : (id, b) ∈ copyOut s) :
    ∃ r, accepted[id]? = some r ∧ r.buf = some b ∧ r.type = tIn := by
  obtain ⟨r, known, buf, type⟩ := sound.known
  unfold copyOut at copied
  cases mine : s.userBuf with
  | none =>
    rw [mine] at copied
    cases copied
  | some b' =>
    rw [mine] at copied
    split_ifs at copied with reads
    · obtain ⟨rfl, rfl⟩ := Prod.mk.inj (List.mem_singleton.mp copied)
      rw [mine] at buf
      rcases buf with none_ | same
      · cases none_
      · exact ⟨r, known, same.symm, type reads.1⟩
    · cases copied

section

variable (kept : Kept w)
include kept

theorem Kept.copied_more (sound : Sound w.accepted s) :
    ∀ id b, (id, b) ∈ w.copies ++ copyOut s →
      ∃ r, w.accepted[id]? = some r ∧ r.buf = some b ∧ r.type = tIn := by
  intro id b copied
  rcases mem_append.mp copied with before | now
  · exact kept.copied id b before
  · exact copyOut_sound sound now

theorem Kept.returned (busy : (w.slots i).busy = true) (done : (w.slots i).done = true) :
    w.chain i = .free := by
  rcases kept.stage i busy with ⟨-, -, todo⟩ | ⟨-, -, todo⟩ | ⟨free, -⟩
  · rw [done] at todo
    cases todo
  · rw [done] at todo
    cases todo
  · exact free

theorem kept_finishAsync {current : Option Nat} : Kept (vblkFinishAsync w i current) := by
  unfold vblkFinishAsync
  dsimp only
  split_ifs with idle foreign
  · exact kept
  · exact kept
  simp only [not_or, Bool.not_eq_false, Option.isNone_iff_eq_none] at idle
  obtain ⟨done, busy, callback⟩ := idle
  have apart : ∀ s j id, (w.pc s).slot = some (j, id) → j ≠ i := by
    rintro s j id there rfl
    exact callback (kept.holder s j id there).2.1
  refine ⟨fun j busy' => ?_, fun j rests => ?_, fun j busy' => ?_, fun s j id there => ?_,
    fun s j id there => ?_, ?_, kept.copied_more (kept.sound i busy)⟩
  all_goals dsimp only at *
  · by_cases here : j = i
    · subst here
      rw [update_self] at busy'
      cases busy'
    · rw [update_of_ne here] at busy' ⊢
      exact kept.stage j busy'
  · by_cases here : j = i
    · subst here
      exact kept.returned busy done
    · rw [update_of_ne here] at rests
      exact kept.rest j rests
  · by_cases here : j = i
    · subst here
      rw [update_self] at busy'
      cases busy'
    · rw [update_of_ne here] at busy' ⊢
      exact kept.sound j busy'
  · rw [update_of_ne (apart s j id there)]
    exact kept.holder s j id there
  · rw [update_of_ne (apart s j id (by rw [there]; rfl))]
    exact kept.read s j id there
  · have pendings := sum_update pendingOf w.slots i (calledSlot (w.slots i))
    have mine : pendingOf (w.slots i) = {(w.slots i).request} :=
      if_pos ⟨busy, Option.isSome_iff_ne_none.mpr callback⟩
    rw [mine, pendingOf_free (s := calledSlot (w.slots i)) rfl, add_zero] at pendings
    rw [kept.books, map_append, ← coe_add, ← pendings]
    change _ = _ + {(w.slots i).request} + _ + _
    abel

theorem kept_wait (taken : virtioBlkWait w t = some w') : Kept w' := by
  unfold virtioBlkWait at taken
  cases place : w.pc t <;> rw [place] at taken <;> try cases taken
  rename_i slot id
  have leave : Kept ({ w with delivered := w.delivered ++ [(id, einval)] }.move t .idle) := by
    refine ⟨kept.stage, kept.rest, kept.sound, fun s i id' there => ?_, fun s i id' there => ?_, ?_,
      kept.copied⟩
    · change (update w.pc t _ s).slot = _ at there
      rcases update_cases (g := Pc.slot) there with ⟨-, ⟨⟩⟩ | ⟨here, there⟩
      exact kept.holder s i id' there
    · change update w.pc t _ s = _ at there
      rcases update_eq_cases there with ⟨-, ⟨⟩⟩ | ⟨here, there⟩
      exact kept.read s i id' there
    · have sums := sum_update Pc.awaits w.pc t .idle
      rw [place, awaits_idle, add_zero, awaits_submitted] at sums
      change Multiset.range w.accepted.length =
        ((w.delivered ++ [(id, einval)]).map Prod.fst : Multiset Nat) +
          ∑ i, pendingOf (w.slots i) + ∑ s, (update w.pc t _ s).awaits
      rw [kept.books, map_append, ← coe_add, ← sums]
      abel
  cases ready : w.ready with
  | false =>
    rw [ready] at taken leave
    cases taken
    exact leave
  | true =>
    rw [ready] at taken leave
    cases slot with
    | none =>
      cases taken
      exact leave
    | some i =>
      cases taken
      refine kept.move ?_ (fun j id' there => ?_) nofun
      · rw [place]
        rfl
      · rw [place]
        exact there

theorem kept_waitDone (taken : waitDone w t = some w') : Kept w' := by
  unfold waitDone at taken
  cases place : w.pc t <;> rw [place] at taken <;> try cases taken
  rename_i i id
  have mine : (w.pc t).slot = some (i, id) := by rw [place]; rfl
  dsimp only at taken
  split_ifs at taken with ended
  · cases taken
    refine kept.move ?_ (fun j id' there => ?_) fun j id' there => ?_
    · rw [place]
      rfl
    · rw [place]
      exact there
    · cases there
      exact (kept.sound i (kept.holder t i id mine).1).ended ended
  · cases taken
    exact kept

theorem kept_waitTimeout {ok : Bool} (taken : waitTimeout w t true ok = some w') : Kept w' := by
  unfold waitTimeout at taken
  cases place : w.pc t <;> rw [place] at taken <;> try cases taken
  rename_i i id
  have mine : (w.pc t).slot = some (i, id) := by rw [place]; rfl
  split_ifs with done
  · refine kept.move ?_ (fun j id' there => ?_) fun j id' there => ?_
    · rw [place]
      rfl
    · rw [place]
      exact there
    · cases there
      exact done
  · have reset := kept_reset ok kept
    have same : (vblkResetLocked w true ok).pc = w.pc := rfl
    refine reset.move ?_ (fun j id' there => ?_) fun j id' there => ?_
    · rw [same, place]
      rfl
    · rw [same, place]
      exact there
    cases there
    have busy := (reset.holder t i id mine).1
    rcases reset.stage i busy with ⟨chain, -⟩ | ⟨chain, -⟩ | ⟨-, -, done⟩
    · cases chain
    · cases chain
    · exact done

theorem kept_waitRead (taken : waitRead w t = some w') : Kept w' := by
  unfold waitRead at taken
  cases place : w.pc t <;> rw [place] at taken <;> try cases taken
  rename_i i id
  have mine : (w.pc t).slot = some (i, id) := by rw [place]; rfl
  have done := kept.read t i id place
  obtain ⟨busy, sync, request⟩ := kept.holder t i id mine
  have sound := kept.sound i busy
  have freed : (readSlot (w.slots i)).busy = false := if_neg (by rw [sound.plain]; decide)
  refine ⟨fun j busy' => ?_, fun j rests => ?_, fun j busy' => ?_, fun s j id' there => ?_,
    fun s j id' there => ?_, ?_, kept.copied_more sound⟩
  all_goals dsimp only [World.move] at *
  · by_cases here : j = i
    · subst here
      rw [update_self, freed] at busy'
      cases busy'
    · rw [update_of_ne here] at busy' ⊢
      exact kept.stage j busy'
  · by_cases here : j = i
    · subst here
      exact kept.returned busy done
    · rw [update_of_ne here] at rests
      exact kept.rest j rests
  · by_cases here : j = i
    · subst here
      rw [update_self, freed] at busy'
      cases busy'
    · rw [update_of_ne here] at busy' ⊢
      exact kept.sound j busy'
  · rcases update_cases (g := Pc.slot) there with ⟨-, ⟨⟩⟩ | ⟨here, there⟩
    have apart : j ≠ i := by
      rintro rfl
      exact kept.alone mine here id' there
    rw [update_of_ne apart]
    exact kept.holder s j id' there
  · rcases update_eq_cases there with ⟨-, ⟨⟩⟩ | ⟨here, there⟩
    have apart : j ≠ i := by
      rintro rfl
      exact kept.alone mine here id' (by rw [there]; rfl)
    rw [update_of_ne apart]
    exact kept.read s j id' there
  · have pendings := sum_update pendingOf w.slots i (readSlot (w.slots i))
    have awaits := sum_update Pc.awaits w.pc t .idle
    have none_ : pendingOf (w.slots i) = 0 := if_neg (by rw [sync]; simp)
    rw [none_, pendingOf_free freed, add_zero, add_zero] at pendings
    rw [place, awaits_idle, add_zero, awaits_reading] at awaits
    rw [kept.books, map_append, ← coe_add, pendings, ← awaits]
    abel

theorem kept_submitGiveUp (taken : submitGiveUp w t = some w') : Kept w' := by
  unfold submitGiveUp at taken
  cases place : w.pc t <;> rw [place] at taken <;> try cases taken
  refine kept.move ?_ nofun nofun
  rw [place]
  rfl

end

end

section Contract

variable [Fintype T] {c : Config} {w w' : World T A B c.nslots}

theorem few_slots (c : Config) : c.nslots ≤ 42 := by
  have fits := c.fits
  unfold queueMax at fits
  unfold Config.nslots
  omega

theorem kept_step {a : Act T A B c.nslots} (kept : Kept w) (faithful : Faithful w a)
    (taken : (disk T A B c).step w a w') : Kept w' := by
  cases a with
  | submit t r => exact kept_submit kept taken
  | submitTry t => exact kept_submitTry kept taken
  | submitGiveUp t => exact kept_submitGiveUp kept taken
  | harvest =>
    change (if w.ready then some (vblkHarvestLocked w) else none) = some w' at taken
    split_ifs at taken
    cases taken
    exact kept_harvest kept
  | finishAsync i current =>
    cases taken
    exact kept_finishAsync kept
  | wait t => exact kept_wait kept taken
  | waitDone t => exact kept_waitDone kept taken
  | waitTimeout t ack ok =>
    cases faithful
    exact kept_waitTimeout kept taken
  | waitRead t => exact kept_waitRead kept taken
  | forceReset ack ok =>
    cases faithful
    cases taken
    exact kept_reset _ kept
  | retireOwner owner ack ok =>
    cases faithful
    cases taken
    exact kept_retire kept
  | finish i status => exact kept_finish (few_slots c) kept taken
  | entry id =>
    cases taken
    exact kept_entry kept faithful

theorem kept_initial : Kept (initial : World T A B n) := by
  refine ⟨nofun, fun _ _ => rfl, nofun, nofun, nofun, ?_, nofun⟩
  have slots : ∑ i, pendingOf ((initial : World T A B n).slots i) = 0 :=
    Finset.sum_eq_zero fun i _ => pendingOf_free rfl
  have calls : ∑ t, ((initial : World T A B n).pc t).awaits = 0 :=
    Finset.sum_eq_zero fun t _ => rfl
  rw [slots, calls]
  rfl

/-- Where the device puts entries only for its chains or unused slots and acknowledges resets: a
request is answered once or has its slot; a slot in use is with the device, in the used ring or
done, a free one with nobody; harvesting changes finished slots only; and data goes to the buffer of
its request. -/
theorem requests_complete_once (run : Reachable (disk T A B c) Faithful w) :
    Multiset.range w.accepted.length = (w.delivered.map Prod.fst : Multiset Nat) +
        ∑ i, pendingOf (w.slots i) + ∑ t, (w.pc t).awaits ∧
      (w.delivered.map Prod.fst).Nodup ∧
      (∀ t i id, (w.pc t).slot = some (i, id) →
        (w.slots i).busy = true ∧ (w.slots i).doneFn = none ∧ (w.slots i).request = id) ∧
      (∀ i, (w.slots i).busy = true → Stage (w.chain i) (entries w.used i) (w.slots i).done) ∧
      (∀ i, (w.slots i).busy = false → w.chain i = .free) ∧
      (∀ i, w.chain i ≠ .used → (vblkHarvestLocked w).slots i = w.slots i) ∧
      ∀ id b, (id, b) ∈ w.copies →
        ∃ r, w.accepted[id]? = some r ∧ r.buf = some b ∧ r.type = tIn := by
  have kept : Kept w := by
    refine run.invariant ?_ fun w a w' kept faithful taken => kept_step kept faithful taken
    rintro w rfl
    exact kept_initial
  refine ⟨kept.books, ?_, kept.holder, kept.stage, kept.rest, fun i => harvest_finished kept,
    kept.copied⟩
  have all := Multiset.nodup_range w.accepted.length
  rw [kept.books, add_assoc] at all
  exact Multiset.coe_nodup.mp (Multiset.nodup_of_le (Multiset.le_add_right _ _) all)

/-- A disk of 100 sectors with one slot. -/
def small : Config := ⟨3, Nat.le_of_ble_eq_true rfl, true, false, 100⟩

def only : Fin small.nslots := ⟨0, Nat.one_pos⟩

def readInto (b : Nat) (done : Option Unit) : Request Unit Nat := ⟨tIn, 0, some b, 512, done, 0⟩

/-- A read that is waited for: one result, and its data. -/
theorem requests_complete_once_read : ∃ w, Reachable (disk Unit Unit Nat small) Faithful w ∧
    w.delivered = [(0, 512)] ∧ w.copies = [(0, 7)] ∧ (w.delivered.map Prod.fst).Nodup := by
  have run : Reachable (disk Unit Unit Nat small) Faithful initial := .start rfl
  have run := Reachable.step (a := Act.submit () (readInto 7 none)) run trivial rfl
  have run := Reachable.step (a := Act.submitTry ()) run trivial rfl
  have run := Reachable.step (a := Act.wait ()) run trivial rfl
  have run := Reachable.step (a := Act.finish only 0) run trivial rfl
  have run := Reachable.step (a := Act.harvest) run trivial rfl
  have run := Reachable.step (a := Act.waitDone ()) run trivial rfl
  have run := Reachable.step (a := Act.waitRead ()) run trivial rfl
  exact ⟨_, run, rfl, rfl, (requests_complete_once run).2.1⟩

/-- A stray entry completes a request the device still has; and after a reset without
acknowledgement one request is given another's slot. -/
theorem stray_entry_completes : (∃ w,
      Reachable (disk Unit Unit Nat small) (fun _ _ => True) w ∧ w.delivered = [(0, eio)] ∧
        w.chain only = .device) ∧
    ∃ w, Reachable (disk Bool Unit Nat small) (fun _ _ => True) w ∧ w.accepted.length = 2 ∧
      w.delivered = [(0, 0)] ∧ (w.slots only).busy = false ∧
      w.chain only = .device := by
  constructor
  · have run : Reachable (disk Unit Unit Nat small) (fun _ _ => True) _ :=
      Reachable.attempt (fun _ _ _ => id) [.submit () (readInto 7 (some ())), .submitTry (),
        .entry 0, .harvest, .finishAsync only none] (.start rfl) rfl
    exact ⟨_, run, rfl, rfl⟩
  have run : Reachable (disk Bool Unit Nat small) (fun _ _ => True) _ :=
    Reachable.attempt (fun _ _ _ => id) [.submit true (readInto 7 none),
      .submit false (readInto 8 none), .submitTry true, .wait true, .finish only 0,
      .waitTimeout true false true, .submitTry false, .waitRead true] (.start rfl) rfl
  exact ⟨_, run, rfl, rfl, rfl, rfl⟩

end Contract

section Retire

/-- What `vblk_finish_async` does to a slot. -/
def finishSlot (current : Option Nat) (holder : Nat) (s : Slot A B) : Slot A B :=
  if s.done = false ∨ s.busy = false ∨ s.doneFn.isNone then s
  else if s.copyBack = true ∧ 0 < s.res ∧ holder ≠ 0 ∧ current ≠ some holder then s
  else calledSlot s

def vblkDrainCallbacks (w : World T A B n) (current : Option Nat) : World T A B n :=
  (List.finRange n).foldl (fun w i => vblkFinishAsync w i current) w

/-- `virtio_blk_retire_owner` with its drain. -/
def retireAndDrain (w : World T A B n) (owner : Nat) (ack ok : Bool) (current : Option Nat) :
    World T A B n :=
  if owner ≠ 0 ∧ ∃ i, (w.slots i).busy = true ∧ w.slotOwner i = owner then
    vblkDrainCallbacks (virtioBlkRetireOwner w owner ack ok) current
  else w

/-- No slot of the owner is in use; a request of another owner has its slot, or was done and given
out with its own result. -/
def Retired (w w' : World T A B n) (owner : Nat) : Prop :=
  (∀ i, w.slotOwner i = owner → (w'.slots i).busy = false) ∧
    ∀ i, w.slotOwner i ≠ owner → w'.slots i = w.slots i ∨
      (w.slots i).done = true ∧ w'.slots i = calledSlot (w.slots i)

variable {w : World T A B n} {current : Option Nat}

theorem finishAsync_slots (w : World T A B n) (j : Fin n) : (vblkFinishAsync w j current).slots =
    update w.slots j (finishSlot current (w.slotOwner j) (w.slots j)) := by
  unfold vblkFinishAsync finishSlot
  dsimp only
  split_ifs
  · exact (update_eq_self j w.slots).symm
  · exact (update_eq_self j w.slots).symm
  · rfl

theorem finishAsync_owner {j : Fin n} (other : i ≠ j) :
    (vblkFinishAsync w j current).slotOwner i = w.slotOwner i := by
  unfold vblkFinishAsync
  dsimp only
  split_ifs
  · rfl
  · rfl
  · exact update_of_ne other _ _

theorem drain_slots (w : World T A B n) (current : Option Nat) (i : Fin n) :
    (vblkDrainCallbacks w current).slots i =
      finishSlot current (w.slotOwner i) (w.slots i) := by
  have loop : ∀ (l : List (Fin n)) (w : World T A B n), l.Nodup →
      (l.foldl (fun w j => vblkFinishAsync w j current) w).slots i =
        if i ∈ l then finishSlot current (w.slotOwner i) (w.slots i) else w.slots i := by
    intro l
    induction l with
    | nil => simp
    | cons j l ih =>
      intro w nodup
      obtain ⟨fresh, nodup⟩ := List.nodup_cons.mp nodup
      rw [List.foldl_cons, ih _ nodup, finishAsync_slots]
      by_cases here : i = j
      · subst here
        simp [fresh]
      · simp [here, finishAsync_owner]
  rw [vblkDrainCallbacks, loop _ w (List.nodup_finRange n), if_pos (List.mem_finRange i)]

/-- What a retirement of `owner` makes of a slot of `holder`. -/
def retiredSlot (owner : Nat) (ack : Bool) (current : Option Nat) (holder : Nat) (s : Slot A B) :
    Slot A B :=
  finishSlot current holder (retireSlot owner holder (if ack then resetSlot s else abandonSlot s))

theorem retire_slots {owner : Nat} (ack ok : Bool)
    (found : owner ≠ 0 ∧ ∃ i, (w.slots i).busy = true ∧ w.slotOwner i = owner) (i : Fin n) :
    (retireAndDrain w owner ack ok current).slots i =
      retiredSlot owner ack current (w.slotOwner i) (w.slots i) := by
  rw [retireAndDrain, if_pos found, drain_slots, virtioBlkRetireOwner, if_pos found, retiredSlot]
  cases ack <;> rfl

/-- A slot of the owner is given back, unless a call waits for it. -/
theorem retiredSlot_own {owner holder : Nat} (ack : Bool) (own : holder = owner) (s : Slot A B) :
    (retiredSlot owner ack current holder s).busy = false ↔
      (s.busy = true → s.doneFn.isSome = true ∨ ack = true ∧ s.abandoned = true ∧
        s.done = false) := by
  obtain ⟨_, _, _, _, _ | f, _, _ | _, _ | _, _, _, _ | _, _⟩ := s <;> cases ack <;>
    simp [retiredSlot, finishSlot, retireSlot, resetSlot, abandonSlot, calledSlot, own]

theorem retiredSlot_other {owner holder : Nat} (ack : Bool) (other : holder ≠ owner)
    (s : Slot A B) :
    (retiredSlot owner ack current holder s = s ∨
        s.done = true ∧ retiredSlot owner ack current holder s = calledSlot s) ↔
      (s.busy = true → s.done = true) := by
  obtain ⟨_, _, _, _, _ | f, _, _ | _, _ | _, _, _, _ | _, _⟩ := s <;> cases ack <;>
    simp [retiredSlot, finishSlot, retireSlot, resetSlot, abandonSlot, calledSlot, other] <;>
    grind

/-- A retirement is right just if the owner has no slot in use; or those have callbacks, or are
abandoned ones the reset gives back, and the others' requests are done. -/
theorem retire_frees_iff (w : World T A B n) (owner : Nat) (ack ok : Bool) (current : Option Nat) :
    Retired w (retireAndDrain w owner ack ok current) owner ↔
      (∀ i, w.slotOwner i = owner → (w.slots i).busy = false) ∨ owner ≠ 0 ∧
        (∀ i, w.slotOwner i = owner → (w.slots i).busy = true →
          (w.slots i).doneFn.isSome = true ∨
            ack = true ∧ (w.slots i).abandoned = true ∧ (w.slots i).done = false) ∧
        ∀ i, w.slotOwner i ≠ owner → (w.slots i).busy = true → (w.slots i).done = true := by
  by_cases found : owner ≠ 0 ∧ ∃ i, (w.slots i).busy = true ∧ w.slotOwner i = owner
  · simp only [Retired, retire_slots ack ok found]
    constructor
    · rintro ⟨own, rest⟩
      exact .inr ⟨found.1, fun i same => (retiredSlot_own ack same _).mp (own i same),
        fun i other => (retiredSlot_other ack other _).mp (rest i other)⟩
    · rintro (idle | ⟨-, own, rest⟩)
      · obtain ⟨-, i, busy, same⟩ := found
        rw [idle i same] at busy
        cases busy
      · exact ⟨fun i same => (retiredSlot_own ack same _).mpr (own i same),
          fun i other => (retiredSlot_other ack other _).mpr (rest i other)⟩
  · rw [retireAndDrain, if_neg found]
    refine ⟨fun fine => .inl fine.1, fun fine => ⟨fun i same => ?_, fun _ _ => .inl rfl⟩⟩
    rcases fine with idle | ⟨proper, -⟩
    · exact idle i same
    · exact Bool.eq_false_iff.mpr fun busy => found ⟨proper, i, busy, same⟩

/-- A waiting process is killed: its slot, the only one, is never given back. -/
theorem waited_slot_lost : ∃ w : World Unit Unit Nat small.nslots,
    Reachable (disk Unit Unit Nat small) (fun _ _ => True) w ∧
      (retireAndDrain w 5 true true none).slots only = { w.slots only with
        res := eio, done := true, completion := true } ∧
      ¬Retired w (retireAndDrain w 5 true true none) 5 := by
  have run : Reachable (disk Unit Unit Nat small) (fun _ _ => True) _ :=
    Reachable.attempt (fun _ _ _ => id) [.submit () ⟨tIn, 0, some 7, 512, none, 5⟩, .submitTry ()]
      (.start rfl) rfl
  exact ⟨_, run, rfl, fun retired => Bool.noConfusion (retired.1 only rfl)⟩

end Retire

end IcsOs.Virtio.Requests
