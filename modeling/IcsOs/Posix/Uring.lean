/- GID: IcsOs/Posix/Uring
   generality: I
   source: kernel/vfs/posixfd.c
   digest: Submission rings: entries taken, completions posted, and the life of the ring. -/

import Mathlib.Tactic.Abel
import IcsOs.Lib.Holdings
import IcsOs.Lib.Runs
import IcsOs.Lib.Updates

set_option autoImplicit false
set_option linter.unusedSectionVars false

namespace IcsOs.Posix.Uring

open Function Multiset
open Lib.Holdings Lib.Runs Lib.Updates

universe u v

variable {T : Type u} {U : Type v} [DecidableEq T]

def uringMax : Nat := 64

/-- A call between two of its locked sections; a submitting one holds the head it read. -/
inductive Pc (U : Type v)
  | idle
  | looping
  | fetched (head : Nat) (u : U)
  | reserved (head : Nat) (i : Fin uringMax) (u : U)
  | rejected (head : Nat) (i : Fin uringMax) (u : U)
  | inline (head : Nat) (u : U)
  | resolved (head : Nat)
  | waking (release : Bool)
  | closer
  | closerEnd

/-- `ics_uring`, the calls, the requests of the device, whether the ring was freed or touched
afterwards, and the data of entries taken, posted and overflowed. -/
structure World (T : Type u) (U : Type v) where
  sqHead : Nat
  cqHead : BitVec 32
  cqTail : BitVec 32
  cqRingEntries : Nat
  blkcb : Fin uringMax → Option U
  inflight : Nat
  closing : Bool
  fdRefs : Nat
  activeRefs : Nat
  closeWaiting : Bool
  pc : T → Pc U
  device : Fin uringMax → Bool
  freed : Nat
  fault : Bool
  taken : List U
  posted : List U
  overflowed : List U

def World.move (w : World T U) (t : T) (p : Pc U) : World T U :=
  { w with pc := Function.update w.pc t p }

/-- An access to the ring. -/
def touch (w : World T U) : World T U := if w.freed = 0 then w else { w with fault := true }

def uringFree (w : World T U) : World T U := { w with freed := w.freed + 1 }

/-- A completion is posted if there is room, and counted otherwise. -/
def postCqe (w : World T U) (u : U) : World T U :=
  if (w.cqTail - w.cqHead).toNat < w.cqRingEntries then
    { w with cqTail := w.cqTail + 1, posted := w.posted ++ [u] }
  else { w with overflowed := w.overflowed ++ [u] }

/-- Nothing uses the ring, and no closer waits to free it. -/
def releasable (w : World T U) : Bool :=
  w.closing && !w.closeWaiting && decide (w.fdRefs = 0) && decide (w.activeRefs = 0) &&
    decide (w.inflight = 0)

def uringAllocCb (w : World T U) : Option (Fin uringMax) :=
  (List.finRange uringMax).find? fun i => (w.blkcb i).isNone

def uringFdget (w : World T U) (t : T) : Option (World T U) :=
  match w.pc t with
  | .idle =>
    if w.fdRefs ≠ 0 ∧ w.closing = false then
      some ((touch { w with activeRefs := w.activeRefs + 1 }).move t .looping)
    else none
  | _ => none

/-- The head and the entry it names, with user data `u`. -/
def fetch (w : World T U) (t : T) (u : U) : Option (World T U) :=
  match w.pc t with
  | .looping => some ((touch { w with taken := w.taken ++ [u] }).move t (.fetched w.sqHead u))
  | _ => none

/-- No block request, or refused before the ring is locked. -/
def skip (w : World T U) (t : T) : Option (World T U) :=
  match w.pc t with
  | .fetched h u => some (w.move t (.inline h u))
  | _ => none

/-- `uring_queue_vblk` up to the submission. -/
def reserve (w : World T U) (t : T) : Option (World T U) :=
  match w.pc t with
  | .fetched h u =>
    if w.closing then some ((touch w).move t (.inline h u))
    else
      match uringAllocCb w with
      | none => some ((touch w).move t (.inline h u))
      | some i =>
        some ((touch { w with
          blkcb := Function.update w.blkcb i (some u), inflight := w.inflight + 1 }).move t
          (.reserved h i u))
  | _ => none

/-- The request is taken: its callback may run from now on. -/
def accept (w : World T U) (t : T) : Option (World T U) :=
  match w.pc t with
  | .reserved h i _ =>
    some ({ w with device := Function.update w.device i true }.move t (.resolved h))
  | _ => none

def reject (w : World T U) (t : T) : Option (World T U) :=
  match w.pc t with
  | .reserved h i u => some (w.move t (.rejected h i u))
  | _ => none

/-- `uring_queue_vblk` after a refused submission. -/
def undo (w : World T U) (t : T) : Option (World T U) :=
  match w.pc t with
  | .rejected h i u =>
    if (w.blkcb i).isSome then
      some ((touch { w with
        blkcb := Function.update w.blkcb i none, inflight := w.inflight - 1 }).move t
        (.inline h u))
    else some ((touch w).move t (.inline h u))
  | _ => none

/-- The result of an entry that was not queued. -/
def post (w : World T U) (t : T) : Option (World T U) :=
  match w.pc t with
  | .inline h u => some ((postCqe (touch w) u).move t (.resolved h))
  | _ => none

def advance (w : World T U) (t : T) : Option (World T U) :=
  match w.pc t with
  | .resolved h => some ((touch { w with sqHead := h + 1 }).move t .looping)
  | _ => none

/-- `uring_put` up to its unlock. -/
def uringPut (w : World T U) (t : T) : Option (World T U) :=
  match w.pc t with
  | .looping =>
    let w' := touch { w with activeRefs := w.activeRefs - 1 }
    some (w'.move t (if w.closing then .waking (releasable w') else .idle))
  | _ => none

/-- After the unlock: waiters are woken, then the ring may be freed. -/
def wake (w : World T U) (t : T) : Option (World T U) :=
  match w.pc t with
  | .waking release => some ((if release then uringFree (touch w) else touch w).move t .idle)
  | _ => none

/-- `uring_close` up to its loop. -/
def uringClose (w : World T U) (t : T) : Option (World T U) :=
  match w.pc t with
  | .idle =>
    if w.fdRefs = 0 then none
    else if w.fdRefs = 1 then
      some ((touch { w with fdRefs := 0, closing := true, closeWaiting := true }).move t .closer)
    else some (touch { w with fdRefs := w.fdRefs - 1 })
  | _ => none

/-- One round of the loop of `uring_close`. -/
def closePoll (w : World T U) (t : T) : Option (World T U) :=
  match w.pc t with
  | .closer =>
    if w.inflight = 0 ∧ w.activeRefs = 0 then some ((uringFree (touch w)).move t .idle)
    else some (touch w)
  | _ => none

/-- The loop's time is over; the device is reset. -/
def closeGiveUp (w : World T U) (t : T) : Option (World T U) :=
  match w.pc t with
  | .closer => some (w.move t .closerEnd)
  | _ => none

def closeEnd (w : World T U) (t : T) : Option (World T U) :=
  match w.pc t with
  | .closerEnd =>
    let w' := touch { w with closeWaiting := false }
    some ((if w.activeRefs = 0 ∧ w.inflight = 0 then uringFree w' else w').move t .idle)
  | _ => none

/-- The ring after a completion was counted. -/
def completed (w : World T U) (i : Fin uringMax) : World T U :=
  { w with blkcb := Function.update w.blkcb i none, inflight := w.inflight - 1 }

def uringVblkDone (w : World T U) (i : Fin uringMax) : Option (World T U) :=
  if w.device i = false then none
  else
    let w₁ := { w with device := Function.update w.device i false }
    match w.blkcb i with
    | none => some (touch w₁)
    | some u =>
      let w₂ := completed (postCqe (touch w₁) u) i
      some (if releasable w₂ then uringFree w₂ else w₂)

def uringInherit (w : World T U) (forFork : Bool) : Option (World T U) :=
  if w.closing = false ∧ w.fdRefs ≠ 0 ∧ (forFork = true → w.inflight = 0) then
    some (touch { w with fdRefs := w.fdRefs + 1 })
  else none

inductive Act (T : Type u) (U : Type v)
  | enter (t : T)
  | fetch (t : T) (u : U)
  | skip (t : T)
  | reserve (t : T)
  | accept (t : T)
  | reject (t : T)
  | undo (t : T)
  | post (t : T)
  | advance (t : T)
  | put (t : T)
  | wake (t : T)
  | close (t : T)
  | closePoll (t : T)
  | closeGiveUp (t : T)
  | closeEnd (t : T)
  | complete (i : Fin uringMax)
  | inherit (forFork : Bool)
  | reap (head : BitVec 32)

def perform (w : World T U) : Act T U → Option (World T U)
  | .enter t => uringFdget w t
  | .fetch t u => fetch w t u
  | .skip t => skip w t
  | .reserve t => reserve w t
  | .accept t => accept w t
  | .reject t => reject w t
  | .undo t => undo w t
  | .post t => post w t
  | .advance t => advance w t
  | .put t => uringPut w t
  | .wake t => wake w t
  | .close t => uringClose w t
  | .closePoll t => closePoll w t
  | .closeGiveUp t => closeGiveUp w t
  | .closeEnd t => closeEnd w t
  | .complete i => uringVblkDone w i
  | .inherit forFork => uringInherit w forFork
  | .reap head => if w.fdRefs = 0 then none else some { w with cqHead := head }

/-- `sys_io_uring_setup`. -/
def setup (entries : Nat) : World T U where
  sqHead := 0
  cqHead := 0
  cqTail := 0
  cqRingEntries := entries
  blkcb _ := none
  inflight := 0
  closing := false
  fdRefs := 1
  activeRefs := 0
  closeWaiting := false
  pc _ := .idle
  device _ := false
  freed := 0
  fault := false
  taken := []
  posted := []
  overflowed := []

def rings (T : Type u) (U : Type v) [DecidableEq T] : System (World T U) (Act T U) where
  start w := ∃ entries, w = setup entries
  step w a w' := perform w a = some w'

variable {p : Pc U}

section

/-- A call that holds a reference. -/
def Pc.active : Pc U → Nat
  | .looping | .fetched .. | .reserved .. | .rejected .. | .inline .. | .resolved .. => 1
  | _ => 0

/-- A call between reading the head and storing the next one. -/
def Pc.mid : Pc U → Nat
  | .fetched .. | .reserved .. | .rejected .. | .inline .. | .resolved .. => 1
  | _ => 0

/-- A closing call that may still free the ring. -/
def Pc.waits : Pc U → Nat
  | .closer | .closerEnd => 1
  | _ => 0

/-- The entry a call has in its hands. -/
def Pc.holds : Pc U → Multiset U
  | .fetched _ u | .inline _ u => {u}
  | _ => 0

def Pc.head : Pc U → Option Nat
  | .fetched h _ | .reserved h _ _ | .rejected h _ _ | .inline h _ | .resolved h => some h
  | _ => none

/-- The callback block a call has reserved. -/
def Pc.slot : Pc U → Option (Fin uringMax × U)
  | .reserved _ i u | .rejected _ i u => some (i, u)
  | _ => none

/-- What a callback block has. -/
def data : Option U → Multiset U
  | none => 0
  | some u => {u}

def used : Option U → Nat
  | none => 0
  | some _ => 1

theorem used_none : used (none : Option U) = 0 := rfl

theorem used_some (u : U) : used (some u) = 1 := rfl

/-- User data of completions, posted and counted, and of requests in flight. -/
def filed (w : World T U) : Multiset U := w.posted + w.overflowed + ∑ i, data (w.blkcb i)

variable [Fintype T] {w w' : World T U} {t : T}

/-- Calls submit one after the other, and the last descriptor is closed when none is active. -/
structure Base (w : World T U) : Prop where
  active : w.activeRefs = ∑ t, (w.pc t).active
  inflight : w.inflight = ∑ i, used (w.blkcb i)
  books : (w.taken : Multiset U) = filed w + ∑ t, (w.pc t).holds
  count : w.taken.length = w.sqHead + ∑ t, (w.pc t).mid
  heads : ∀ t h, (w.pc t).head = some h → h = w.sqHead
  single : ∑ t, (w.pc t).mid ≤ 1
  slots : ∀ t i u, (w.pc t).slot = some (i, u) → w.blkcb i = some u ∧ w.device i = false
  owned : ∀ i, w.device i = true → w.blkcb i ≠ none
  closed : w.closing = true → w.activeRefs = 0
  refs : w.closing = true ↔ w.fdRefs = 0
  awake : ∀ t release, w.pc t ≠ .waking release
  waiting : w.closeWaiting = true → w.closing = true
  fault : w.fault = false

/-- The books, and a ring freed once nothing is under way, not before. -/
structure Kept (w : World T U) : Prop extends Base w where
  waits : w.freed = 0 → ∑ t, (w.pc t).waits = if w.closeWaiting then 1 else 0
  pending : w.freed = 0 → w.closing = true → w.closeWaiting = false → w.inflight ≠ 0
  freed : w.freed = 0 ∨ w.freed = 1 ∧ w.closing = true ∧ (∀ t, w.pc t = .idle) ∧ w.inflight = 0

/-- One submission at a time; the last close finds no active call. -/
def Orderly (w : World T U) : Act T U → Prop
  | .fetch _ _ => ∀ t, (w.pc t).mid = 0
  | .close _ => w.fdRefs = 1 → w.activeRefs = 0
  | _ => True

theorem touch_alive (alive : w.freed = 0) : touch w = w := if_pos alive

/-- Where a call is under way, the ring is there. -/
theorem Kept.alive (kept : Kept w) (busy : w.pc t ≠ .idle) : w.freed = 0 := by
  rcases kept.freed with alive | ⟨-, -, idle, -⟩
  · exact alive
  · exact absurd (idle t) busy

theorem Kept.alive_open (kept : Kept w) (open_ : w.closing = false) : w.freed = 0 := by
  rcases kept.freed with alive | ⟨-, closing, -, -⟩
  · exact alive
  · rw [open_] at closing
    cases closing

theorem Kept.open_ (kept : Kept w) (active : (w.pc t).active = 1) : w.closing = false := by
  cases closing : w.closing with
  | false => rfl
  | true =>
    have none_ := kept.closed closing
    have some_ : (w.pc t).active ≤ ∑ t, (w.pc t).active := le_sum (fun t => (w.pc t).active) t
    rw [← kept.active] at some_
    omega

/-- Where one call is between two heads, no other is. -/
theorem Kept.alone (kept : Kept w) (mid : (w.pc t).mid = 1) (s : T) (other : s ≠ t) :
    (w.pc s).mid = 0 := by
  have both : (w.pc s).mid + (w.pc t).mid ≤ ∑ t, (w.pc t).mid :=
    add_le_sum (fun t => (w.pc t).mid) other
  have single := kept.single
  omega

theorem Pc.mid_of_head {h : Nat} (has : p.head = some h) : p.mid = 1 := by
  cases p <;> first | rfl | cases has

theorem Pc.mid_of_slot {place : Fin uringMax × U} (has : p.slot = some place) : p.mid = 1 := by
  cases p <;> first | rfl | cases has

theorem Pc.mid_le_one (p : Pc U) : p.mid ≤ 1 := by
  cases p <;> simp [Pc.mid]

/-- The place of a call in the ring's books, after one step of it. -/
structure Moved (w w' : World T U) (t : T) (p : Pc U) : Prop where
  pc : w'.pc = Function.update w.pc t p
  active : w'.activeRefs + (w.pc t).active = w.activeRefs + p.active
  books : (w'.taken : Multiset U) + (filed w + (w.pc t).holds) = w.taken + (filed w' + p.holds)
  count : w'.taken.length + (w.sqHead + (w.pc t).mid) = w.taken.length + (w'.sqHead + p.mid)
  head : ∀ h, p.head = some h → h = w'.sqHead
  alone : w'.sqHead = w.sqHead ∧ p.mid ≤ (w.pc t).mid ∨ ∀ s, s ≠ t → (w.pc s).mid = 0
  awake : ∀ release, p ≠ .waking release

theorem Moved.single (base : Base w) (moved : Moved w w' t p) : ∑ s, (w'.pc s).mid ≤ 1 := by
  have mids := sum_update Pc.mid w.pc t p
  rw [← moved.pc] at mids
  have most := base.single
  rcases moved.alone with ⟨-, less⟩ | none_
  · omega
  have own : ∑ s, (w.pc s).mid = (w.pc t).mid := by
    rw [← Finset.add_sum_erase _ _ (Finset.mem_univ t), Finset.sum_eq_zero, Nat.add_zero]
    exact fun s member => none_ s (Finset.ne_of_mem_erase member)
  have one := p.mid_le_one
  omega

/-- Every entry that was taken is filed or in the hands of a call. -/
theorem Moved.filed (base : Base w) (moved : Moved w w' t p) :
    (w'.taken : Multiset U) = filed w' + ∑ s, (w'.pc s).holds := by
  have holdings := sum_update Pc.holds w.pc t p
  rw [← moved.pc] at holdings
  have here := moved.books
  rw [base.books] at here
  apply add_right_cancel (b := Uring.filed w + (w.pc t).holds + ∑ s, (w.pc s).holds)
  calc (w'.taken : Multiset U) + (Uring.filed w + (w.pc t).holds + ∑ s, (w.pc s).holds)
      = (w'.taken : Multiset U) + (Uring.filed w + (w.pc t).holds) + ∑ s, (w.pc s).holds := by abel
    _ = Uring.filed w + ∑ s, (w.pc s).holds + (Uring.filed w' + p.holds) + ∑ s, (w.pc s).holds := by
        rw [here]
    _ = Uring.filed w' + Uring.filed w + ∑ s, (w.pc s).holds + (∑ s, (w.pc s).holds + p.holds) := by
        abel
    _ = Uring.filed w' + Uring.filed w + ∑ s, (w.pc s).holds +
          (∑ s, (w'.pc s).holds + (w.pc t).holds) := by
        rw [holdings]
    _ = _ := by abel

/-- A step keeps the books, if it does so where it takes place. -/
theorem Base.step (base : Base w) (moved : Moved w w' t p)
    (inflight : w'.inflight = ∑ i, used (w'.blkcb i))
    (slots : ∀ s i u, (w'.pc s).slot = some (i, u) → w'.blkcb i = some u ∧ w'.device i = false)
    (owned : ∀ i, w'.device i = true → w'.blkcb i ≠ none)
    (closed : w'.closing = true → w'.activeRefs = 0) (refs : w'.closing = true ↔ w'.fdRefs = 0)
    (waiting : w'.closeWaiting = true → w'.closing = true) (fault : w'.fault = false) :
    Base w' := by
  have actives := sum_update Pc.active w.pc t p
  have mids := sum_update Pc.mid w.pc t p
  rw [← moved.pc] at actives mids
  refine ⟨?_, inflight, moved.filed base, ?_, ?_, moved.single base, slots, owned, closed, refs, ?_,
    waiting, fault⟩
  · have before := base.active
    have here := moved.active
    omega
  · have before := base.count
    have here := moved.count
    omega
  · intro s h there
    by_cases here : s = t
    · subst here
      rw [moved.pc, update_self] at there
      exact moved.head h there
    rw [moved.pc, update_of_ne here] at there
    rcases moved.alone with ⟨same, -⟩ | none_
    · rw [same]
      exact base.heads s h there
    · have some_ := Pc.mid_of_head there
      rw [none_ s here] at some_
      cases some_
  · intro s release there
    by_cases here : s = t
    · subst here
      rw [moved.pc, update_self] at there
      exact moved.awake release there
    · rw [moved.pc, update_of_ne here] at there
      exact base.awake s release there

/-- The ring is not freed, and the waiting closers stay, or one comes or goes. -/
theorem Kept.step (kept : Kept w) (alive : w.freed = 0) (moved : Moved w w' t p)
    (waits : (if w'.closeWaiting then 1 else 0) + (w.pc t).waits =
      (if w.closeWaiting then 1 else 0) + p.waits) (alive' : w'.freed = 0)
    (inflight : w'.inflight = ∑ i, used (w'.blkcb i))
    (slots : ∀ s i u, (w'.pc s).slot = some (i, u) → w'.blkcb i = some u ∧ w'.device i = false)
    (owned : ∀ i, w'.device i = true → w'.blkcb i ≠ none)
    (closed : w'.closing = true → w'.activeRefs = 0) (refs : w'.closing = true ↔ w'.fdRefs = 0)
    (waiting : w'.closeWaiting = true → w'.closing = true)
    (pending : w'.closing = true → w'.closeWaiting = false → w'.inflight ≠ 0)
    (fault : w'.fault = false) : Kept w' := by
  refine ⟨kept.toBase.step moved inflight slots owned closed refs waiting fault, fun _ => ?_,
    fun _ => pending, .inl alive'⟩
  have waitings := sum_update Pc.waits w.pc t p
  rw [← moved.pc] at waitings
  have before := kept.waits alive
  omega

theorem Base.idle (base : Base w) (closing : w.closing = true) {s : T}
    (none_ : (w.pc s).waits = 0) : w.pc s = .idle := by
  have actives : ∑ t, (w.pc t).active = 0 := base.active.symm.trans (base.closed closing)
  have active := eq_zero_of_sum (fun t => (w.pc t).active) actives s
  cases place : w.pc s with
  | idle => rfl
  | waking release => exact absurd place (base.awake s release)
  | closer =>
    rw [place] at none_
    cases none_
  | closerEnd =>
    rw [place] at none_
    cases none_
  | _ =>
    rw [place] at active
    cases active

/-- The ring is freed when nothing is under way. -/
theorem Base.free (base : Base w) (alive : w.freed = 0) (closing : w.closing = true)
    (waits : ∀ s, (w.pc s).waits = 0) (none_ : w.inflight = 0) :
    Kept { w with freed := w.freed + 1 } := by
  have freed : w.freed + 1 = 1 := congrArg (· + 1) alive
  exact ⟨{ base with }, nofun, nofun,
    .inr ⟨freed, closing, fun s => base.idle closing (waits s), none_⟩⟩

variable {u : U} {i : Fin uringMax}

theorem data_none : data (none : Option U) = 0 := rfl

theorem data_some (u : U) : data (some u) = {u} := rfl

theorem filed_data (w : World T U) (i : Fin uringMax) (value : Option U) :
    filed { w with blkcb := update w.blkcb i value } + data (w.blkcb i) = filed w + data value := by
  have change := sum_update data w.blkcb i value
  unfold filed
  rw [add_assoc, change]
  abel

theorem filed_post (w : World T U) (u : U) : filed (postCqe w u) = filed w + {u} := by
  unfold filed postCqe
  split_ifs
  · dsimp only
    rw [← coe_add, coe_singleton]
    abel
  · dsimp only
    rw [← coe_add, coe_singleton]
    abel

/-- Posting changes nothing but the completions. -/
theorem postCqe_rest (w : World T U) (u : U) :
    (postCqe w u).sqHead = w.sqHead ∧ (postCqe w u).blkcb = w.blkcb ∧
      (postCqe w u).inflight = w.inflight ∧ (postCqe w u).closing = w.closing ∧
      (postCqe w u).fdRefs = w.fdRefs ∧ (postCqe w u).activeRefs = w.activeRefs ∧
      (postCqe w u).closeWaiting = w.closeWaiting ∧ (postCqe w u).pc = w.pc ∧
      (postCqe w u).device = w.device ∧ (postCqe w u).freed = w.freed ∧
      (postCqe w u).fault = w.fault ∧ (postCqe w u).taken = w.taken := by
  unfold postCqe
  split_ifs <;> exact ⟨rfl, rfl, rfl, rfl, rfl, rfl, rfl, rfl, rfl, rfl, rfl, rfl⟩

section

variable (kept : Kept w)
include kept

theorem Kept.slots_move (bare : p.slot = none) :
    ∀ s i u, (update w.pc t p s).slot = some (i, u) → w.blkcb i = some u ∧ w.device i = false := by
  intro s i u there
  by_cases here : s = t
  · subst here
    rw [update_self, bare] at there
    cases there
  · rw [update_of_ne here] at there
    exact kept.slots s i u there

/-- A call that changes its place alone. -/
theorem Kept.move (busy : w.pc t ≠ .idle) (active : p.active = (w.pc t).active)
    (mid : p.mid = (w.pc t).mid) (waits : p.waits = (w.pc t).waits)
    (holds : p.holds = (w.pc t).holds) (head : p.head = (w.pc t).head)
    (awake : ∀ release, p ≠ .waking release)
    (slots : ∀ s i u, (update w.pc t p s).slot = some (i, u) →
      w.blkcb i = some u ∧ w.device i = false) : Kept (w.move t p) := by
  have alive := kept.alive busy
  refine kept.step alive ⟨rfl, ?_, ?_, ?_, ?_, .inl ⟨rfl, mid.le⟩, awake⟩ ?_ alive kept.inflight
    slots kept.owned kept.closed kept.refs kept.waiting (kept.pending alive) kept.fault
  · rw [active]
    rfl
  · rw [holds]
    rfl
  · rw [mid]
    rfl
  · intro h there
    rw [head] at there
    exact kept.heads t h there
  · rw [waits]
    rfl

theorem kept_enter (taken : uringFdget w t = some w') : Kept w' := by
  unfold uringFdget at taken
  cases place : w.pc t <;> rw [place] at taken <;> try cases taken
  split_ifs at taken with free
  have alive := kept.alive_open free.2
  dsimp only [touch] at taken
  rw [if_pos alive] at taken
  cases taken
  have shut : w.closing ≠ true := by rw [free.2]; decide
  refine kept.step alive ⟨rfl, ?_, ?_, ?_, nofun, .inl ⟨rfl, ?_⟩, nofun⟩ ?_ alive kept.inflight
    (kept.slots_move rfl) kept.owned (fun closing => absurd closing shut) kept.refs kept.waiting
    (kept.pending alive) kept.fault
  · rw [place]
    rfl
  · rw [place]
    rfl
  · rw [place]
    rfl
  · exact Nat.zero_le _
  · rw [place]
    rfl

theorem kept_fetch (orderly : ∀ t, (w.pc t).mid = 0) (taken : fetch w t u = some w') : Kept w' := by
  unfold fetch at taken
  cases place : w.pc t <;> rw [place] at taken <;> try cases taken
  have alive := kept.alive (t := t) (by rw [place]; nofun)
  dsimp only [touch]
  rw [if_pos alive]
  refine kept.step alive ⟨rfl, ?_, ?_, ?_, ?_, .inr fun s _ => orderly s, nofun⟩ ?_ alive
    kept.inflight (kept.slots_move rfl) kept.owned kept.closed kept.refs kept.waiting
    (kept.pending alive) kept.fault
  · rw [place]
    rfl
  · rw [place]
    change ((w.taken ++ [u] : List U) : Multiset U) + (filed w + 0) = _ + (filed w + {u})
    rw [← coe_add, coe_singleton]
    abel
  · rw [place]
    change (w.taken ++ [u]).length + (w.sqHead + 0) = w.taken.length + (w.sqHead + 1)
    rw [List.length_append, List.length_singleton]
    omega
  · intro h there
    cases there
    rfl
  · rw [place]
    rfl

theorem kept_skip (taken : skip w t = some w') : Kept w' := by
  unfold skip at taken
  cases place : w.pc t <;> rw [place] at taken <;> try cases taken
  refine kept.move (by rw [place]; nofun) ?_ ?_ ?_ ?_ ?_ nofun (kept.slots_move rfl)
  all_goals rw [place]; rfl

/-- A call that posts inline instead of queueing. -/
theorem kept_inline {h : Nat} (place : w.pc t = .fetched h u) :
    Kept ((touch w).move t (.inline h u)) := by
  have busy : w.pc t ≠ .idle := by rw [place]; nofun
  rw [touch_alive (kept.alive busy)]
  refine kept.move busy ?_ ?_ ?_ ?_ ?_ nofun (kept.slots_move rfl)
  all_goals rw [place]; rfl

theorem kept_reserve (taken : reserve w t = some w') : Kept w' := by
  unfold reserve at taken
  cases place : w.pc t <;> rw [place] at taken <;> try cases taken
  rename_i h u
  have busy : w.pc t ≠ .idle := by rw [place]; nofun
  have alive := kept.alive busy
  have alone := kept.alone (t := t) (by rw [place]; rfl)
  split_ifs at taken
  · cases taken
    exact kept_inline kept place
  cases free : uringAllocCb w with
  | none =>
    rw [free] at taken
    cases taken
    exact kept_inline kept place
  | some i =>
    rw [free] at taken
    dsimp only [touch] at taken
    rw [if_pos alive] at taken
    cases taken
    have empty : w.blkcb i = none := by
      have found := List.find?_some free
      exact Option.isNone_iff_eq_none.mp found
    have unowned : w.device i = false := by
      cases owned : w.device i with
      | false => rfl
      | true => exact absurd empty (kept.owned i owned)
    have counted := sum_update used w.blkcb i (some u)
    have filed_ := filed_data w i (some u)
    rw [empty, used_none, used_some] at counted
    rw [empty] at filed_
    refine kept.step alive ⟨rfl, ?_, ?_, ?_, ?_, .inr alone, nofun⟩ ?_ alive ?_ ?_ ?_ kept.closed
      kept.refs kept.waiting ?_ kept.fault
    · rw [place]
      rfl
    · rw [place]
      change _ + (filed w + {u}) = _ + (filed { w with
        blkcb := update w.blkcb i (some u) } + 0)
      rw [show filed { w with blkcb := update w.blkcb i (some u) } + 0 = filed w + {u} from filed_]
      rfl
    · rw [place]
      rfl
    · intro h' there
      cases there
      exact kept.heads t h (by rw [place]; rfl)
    · rw [place]
      rfl
    · have before := kept.inflight
      change w.inflight + 1 = ∑ j, used (update w.blkcb i (some u) j)
      omega
    · intro s j v there
      rcases update_cases (g := Pc.slot) there with ⟨rfl, ⟨⟩⟩ | ⟨here, there⟩
      · exact ⟨update_self .., unowned⟩
      · have mid := Pc.mid_of_slot there
        rw [alone s here] at mid
        cases mid
    · intro j owned
      change update w.blkcb i (some u) j ≠ none
      by_cases here : j = i
      · subst here
        rw [update_self]
        exact nofun
      · rw [update_of_ne here]
        exact kept.owned j owned
    · intro closing _
      exact Nat.succ_ne_zero _

theorem kept_accept (taken : accept w t = some w') : Kept w' := by
  unfold accept at taken
  cases place : w.pc t <;> rw [place] at taken <;> try cases taken
  rename_i h i u
  have alive := kept.alive (t := t) (by rw [place]; nofun)
  have alone := kept.alone (t := t) (by rw [place]; rfl)
  have mine := (kept.slots t i u (by rw [place]; rfl)).1
  refine kept.step alive ⟨rfl, ?_, ?_, ?_, ?_, .inr alone, nofun⟩ ?_ alive kept.inflight ?_ ?_
    kept.closed kept.refs kept.waiting (kept.pending alive) kept.fault
  · rw [place]
    rfl
  · rw [place]
    rfl
  · rw [place]
    rfl
  · intro h' there
    cases there
    exact kept.heads t h (by rw [place]; rfl)
  · rw [place]
    rfl
  · intro s j v there
    rcases update_cases (g := Pc.slot) there with ⟨-, ⟨⟩⟩ | ⟨here, there⟩
    have mid := Pc.mid_of_slot there
    rw [alone s here] at mid
    cases mid
  · intro j owned
    change update w.device i true j = true at owned
    change w.blkcb j ≠ none
    by_cases here : j = i
    · subst here
      rw [mine]
      exact nofun
    · rw [update_of_ne here] at owned
      exact kept.owned j owned

theorem kept_reject (taken : reject w t = some w') : Kept w' := by
  unfold reject at taken
  cases place : w.pc t <;> rw [place] at taken <;> try cases taken
  refine kept.move (by rw [place]; nofun) ?_ ?_ ?_ ?_ ?_ nofun fun s i u there => ?_
  · rw [place]
    rfl
  · rw [place]
    rfl
  · rw [place]
    rfl
  · rw [place]
    rfl
  · rw [place]
    rfl
  · rcases update_cases (g := Pc.slot) there with ⟨rfl, new⟩ | ⟨here, there⟩
    · exact kept.slots s i u (by rw [place]; exact new)
    · exact kept.slots s i u there

theorem kept_undo (taken : undo w t = some w') : Kept w' := by
  unfold undo at taken
  cases place : w.pc t <;> rw [place] at taken <;> try cases taken
  rename_i h i u
  have alive := kept.alive (t := t) (by rw [place]; nofun)
  have shut := kept.open_ (t := t) (by rw [place]; rfl)
  have alone := kept.alone (t := t) (by rw [place]; rfl)
  obtain ⟨mine, unowned⟩ := kept.slots t i u (by rw [place]; rfl)
  dsimp only [touch] at taken
  rw [if_pos (by rw [mine]; rfl), if_pos alive] at taken
  cases taken
  have counted := sum_update used w.blkcb i none
  have filed_ := filed_data w i none
  rw [mine, used_none, used_some] at counted
  rw [mine] at filed_
  refine kept.step alive ⟨rfl, ?_, ?_, ?_, ?_, .inr alone, nofun⟩ ?_ alive ?_ ?_ ?_ kept.closed
    kept.refs kept.waiting (fun closing => ?_) kept.fault
  · rw [place]
    rfl
  · rw [place]
    change _ + (filed w + 0) = _ + (filed { w with blkcb := update w.blkcb i none } + {u})
    rw [show filed { w with blkcb := update w.blkcb i none } + {u} = filed w + 0 from filed_]
    rfl
  · rw [place]
    rfl
  · intro h' there
    cases there
    exact kept.heads t h (by rw [place]; rfl)
  · rw [place]
    rfl
  · have before := kept.inflight
    change w.inflight - 1 = ∑ j, used (update w.blkcb i none j)
    omega
  · intro s j v there
    rcases update_cases (g := Pc.slot) there with ⟨-, ⟨⟩⟩ | ⟨here, there⟩
    have mid := Pc.mid_of_slot there
    rw [alone s here] at mid
    cases mid
  · intro j owned
    change update w.blkcb i none j ≠ none
    change w.device j = true at owned
    by_cases here : j = i
    · subst here
      rw [unowned] at owned
      cases owned
    · rw [update_of_ne here]
      exact kept.owned j owned
  · rw [show w.closing = true from closing] at shut
    cases shut

theorem kept_post (taken : post w t = some w') : Kept w' := by
  unfold post at taken
  cases place : w.pc t <;> rw [place] at taken <;> try cases taken
  rename_i h u
  have alive := kept.alive (t := t) (by rw [place]; nofun)
  rw [touch_alive alive]
  obtain ⟨head, blkcb, inflight, closing, refs, active, waiting, pc, device, freed, fault, took⟩ :=
    postCqe_rest w u
  refine kept.step (t := t) (p := .resolved h) alive ⟨?_, ?_, ?_, ?_, ?_, .inl ⟨head, ?_⟩, nofun⟩ ?_
    (freed.trans alive) ?_ ?_ ?_ ?_ ?_ ?_ ?_ (fault.trans kept.fault)
  · change update (postCqe w u).pc t _ = _
    rw [pc]
  · change (postCqe w u).activeRefs + _ = _
    rw [place, active]
    rfl
  · change ((postCqe w u).taken : Multiset U) + _ = _ + (filed (postCqe w u) + 0)
    rw [place, took, filed_post, add_zero]
    rfl
  · change (postCqe w u).taken.length + _ = _ + ((postCqe w u).sqHead + _)
    rw [place, took, head]
    rfl
  · intro h' there
    cases there
    rw [show ((postCqe w u).move t (.resolved h)).sqHead = w.sqHead from head]
    exact kept.heads t h (by rw [place]; rfl)
  · rw [place]
    exact le_refl 1
  · change (if (postCqe w u).closeWaiting then 1 else 0) + _ = _
    rw [place, waiting]
    rfl
  · change (postCqe w u).inflight = ∑ i, used ((postCqe w u).blkcb i)
    rw [inflight, blkcb]
    exact kept.inflight
  · change ∀ s i v, (update (postCqe w u).pc t _ s).slot = _ →
      (postCqe w u).blkcb i = _ ∧ (postCqe w u).device i = _
    rw [pc, blkcb, device]
    exact kept.slots_move rfl
  · change ∀ i, (postCqe w u).device i = true → (postCqe w u).blkcb i ≠ none
    rw [device, blkcb]
    exact kept.owned
  · change (postCqe w u).closing = true → (postCqe w u).activeRefs = 0
    rw [closing, active]
    exact kept.closed
  · change (postCqe w u).closing = true ↔ (postCqe w u).fdRefs = 0
    rw [closing, refs]
    exact kept.refs
  · change (postCqe w u).closeWaiting = true → (postCqe w u).closing = true
    rw [closing, waiting]
    exact kept.waiting
  · change (postCqe w u).closing = true → (postCqe w u).closeWaiting = false →
      (postCqe w u).inflight ≠ 0
    rw [closing, waiting, inflight]
    exact kept.pending alive

theorem kept_advance (taken : advance w t = some w') : Kept w' := by
  unfold advance at taken
  cases place : w.pc t <;> rw [place] at taken <;> try cases taken
  rename_i h
  have alive := kept.alive (t := t) (by rw [place]; nofun)
  obtain rfl : h = w.sqHead := kept.heads t h (by rw [place]; rfl)
  have alone := kept.alone (t := t) (by rw [place]; rfl)
  dsimp only [touch]
  rw [if_pos alive]
  refine kept.step alive ⟨rfl, ?_, ?_, ?_, nofun, .inr alone, nofun⟩ ?_ alive kept.inflight
    (kept.slots_move rfl) kept.owned kept.closed kept.refs kept.waiting (kept.pending alive)
    kept.fault
  all_goals rw [place]; rfl

theorem kept_put (taken : uringPut w t = some w') : Kept w' := by
  unfold uringPut at taken
  cases place : w.pc t <;> rw [place] at taken <;> try cases taken
  have alive := kept.alive (t := t) (by rw [place]; nofun)
  have shut := kept.open_ (t := t) (by rw [place]; rfl)
  have some_ : (w.pc t).active ≤ w.activeRefs := by
    rw [kept.active]
    exact le_sum (fun t => (w.pc t).active) t
  rw [place] at some_
  change 1 ≤ w.activeRefs at some_
  dsimp only [touch]
  rw [if_pos alive, if_neg (by rw [shut]; decide)]
  refine kept.step alive ⟨rfl, ?_, ?_, ?_, nofun, .inl ⟨rfl, Nat.zero_le _⟩, nofun⟩ ?_ alive
    kept.inflight (kept.slots_move rfl) kept.owned (fun closing => ?_) kept.refs kept.waiting
    (kept.pending alive) kept.fault
  · rw [place]
    change w.activeRefs - 1 + 1 = w.activeRefs + 0
    omega
  · rw [place]
    rfl
  · rw [place]
    rfl
  · rw [place]
    rfl
  · rw [show w.closing = true from closing] at shut
    cases shut

/-- The number of descriptors of an open ring changes. -/
theorem Kept.refer (open_ : w.closing = false) {n : Nat} (some_ : n ≠ 0) :
    Kept { w with fdRefs := n } := by
  have refs : w.closing = true ↔ n = 0 := by
    constructor
    · intro closing
      rw [open_] at closing
      cases closing
    · intro none_
      exact absurd none_ some_
  exact ⟨{ kept with refs := refs }, kept.waits, kept.pending,
    kept.freed⟩

theorem kept_close (orderly : w.fdRefs = 1 → w.activeRefs = 0) (taken : uringClose w t = some w') :
    Kept w' := by
  unfold uringClose at taken
  cases place : w.pc t <;> rw [place] at taken <;> try cases taken
  dsimp only [touch] at taken
  have open_ : w.fdRefs ≠ 0 → w.closing = false := fun some_ => by
    cases shut : w.closing with
    | false => rfl
    | true => exact absurd (kept.refs.mp shut) some_
  split_ifs at taken with none_ last alive alive
  · cases taken
    have shut := open_ none_
    have unwaited : w.closeWaiting = false := by
      cases waited : w.closeWaiting with
      | false => rfl
      | true => rw [kept.waiting waited] at shut; cases shut
    refine kept.step alive ⟨rfl, ?_, ?_, ?_, nofun, .inl ⟨rfl, Nat.zero_le _⟩, nofun⟩ ?_ alive
      kept.inflight (kept.slots_move rfl) kept.owned (fun _ => orderly last)
      ⟨fun _ => rfl, fun _ => rfl⟩ (fun _ => rfl) (fun _ => nofun) kept.fault
    · rw [place]
      rfl
    · rw [place]
      rfl
    · rw [place]
      rfl
    · rw [place, unwaited]
      rfl
  · exact absurd (kept.alive_open (open_ none_)) alive
  · cases taken
    exact kept.refer (open_ none_) (by omega)
  · exact absurd (kept.alive_open (open_ none_)) ‹_›

theorem Kept.closer (place : (w.pc t).waits = 1) :
    w.freed = 0 ∧ w.closeWaiting = true ∧ w.closing = true ∧ ∀ s, s ≠ t → (w.pc s).waits = 0 := by
  have alive := kept.alive (t := t) (by intro idle; rw [idle] at place; cases place)
  have total := kept.waits alive
  have some_ := le_sum (fun t => (w.pc t).waits) t
  have waited : w.closeWaiting = true := by
    cases unwaited : w.closeWaiting with
    | true => rfl
    | false =>
      rw [unwaited, if_neg (by decide)] at total
      omega
  refine ⟨alive, waited, kept.waiting waited, fun s other => ?_⟩
  have both := add_le_sum (fun t => (w.pc t).waits) other
  rw [waited, if_pos rfl] at total
  omega

/-- The closer frees the ring, or leaves it to the last request. -/
theorem Kept.leave (place : (w.pc t).waits = 1) (waiting : Bool) :
    Base { w with pc := update w.pc t .idle, closeWaiting := waiting } := by
  obtain ⟨alive, waited, closing, alone⟩ := kept.closer place
  have plain : (w.pc t).active = 0 ∧ (w.pc t).mid = 0 ∧ (w.pc t).holds = 0 := by
    cases there : w.pc t <;> rw [there] at place <;> cases place <;> exact ⟨rfl, rfl, rfl⟩
  refine kept.toBase.step ⟨rfl, ?_, ?_, ?_, nofun, .inl ⟨rfl, Nat.zero_le _⟩, nofun⟩ kept.inflight
    (kept.slots_move rfl) kept.owned kept.closed kept.refs (fun _ => closing) kept.fault
  · rw [plain.1]
    rfl
  · rw [plain.2.2]
    rfl
  · rw [plain.2.1]
    rfl

theorem Kept.leave_waits (place : (w.pc t).waits = 1) (s : T) :
    (update w.pc t .idle s).waits = 0 := by
  by_cases here : s = t
  · rw [here, update_self]
    rfl
  · rw [update_of_ne here]
    exact (kept.closer place).2.2.2 s here

theorem kept_closePoll (taken : closePoll w t = some w') : Kept w' := by
  unfold closePoll at taken
  cases place : w.pc t <;> rw [place] at taken <;> try cases taken
  have closer : (w.pc t).waits = 1 := by rw [place]; rfl
  obtain ⟨alive, waited, closing, -⟩ := kept.closer closer
  rw [touch_alive alive] at taken
  split_ifs at taken with none_
  · cases taken
    have base := kept.leave closer true
    rw [← waited] at base
    exact base.free alive closing (kept.leave_waits closer) none_.1
  · cases taken
    exact kept

theorem kept_closeGiveUp (taken : closeGiveUp w t = some w') : Kept w' := by
  unfold closeGiveUp at taken
  cases place : w.pc t <;> rw [place] at taken <;> try cases taken
  refine kept.move (by rw [place]; nofun) ?_ ?_ ?_ ?_ ?_ nofun (kept.slots_move rfl)
  all_goals rw [place]; rfl

theorem kept_closeEnd (taken : closeEnd w t = some w') : Kept w' := by
  unfold closeEnd at taken
  cases place : w.pc t <;> rw [place] at taken <;> try cases taken
  have closer : (w.pc t).waits = 1 := by rw [place]; rfl
  obtain ⟨alive, waited, closing, -⟩ := kept.closer closer
  have base := kept.leave closer false
  dsimp only [touch]
  split_ifs with none_
  · exact base.free alive closing (kept.leave_waits closer) none_.2
  · refine ⟨base, fun _ => ?_, fun _ _ _ zero => none_ ⟨kept.closed closing, zero⟩, .inl alive⟩
    exact Finset.sum_eq_zero fun s _ => kept.leave_waits closer s

theorem Kept.request (sent : w.device i = true) : w.freed = 0 ∧ ∃ u, w.blkcb i = some u := by
  obtain ⟨u, mine⟩ := Option.ne_none_iff_exists'.mp (kept.owned i sent)
  refine ⟨?_, u, mine⟩
  rcases kept.freed with alive | ⟨-, -, -, none_⟩
  · exact alive
  have some_ := le_sum (fun i => used (w.blkcb i)) i
  have counted := kept.inflight
  rw [mine, used_some] at some_
  omega

theorem base_completed (sent : w.device i = true) (mine : w.blkcb i = some u) :
    Base (completed (postCqe { w with device := update w.device i false } u) i) := by
  obtain ⟨head, blkcb, inflight, closing, refs, active, waiting, pc, device, -, fault, took⟩ :=
    postCqe_rest { w with device := update w.device i false } u
  have posted := filed_post { w with device := update w.device i false } u
  generalize postCqe { w with device := update w.device i false } u = x at *
  dsimp only at head blkcb inflight closing refs active waiting pc device fault took
  have other : ∀ s j v, (w.pc s).slot = some (j, v) → j ≠ i := by
    rintro s j v there rfl
    have unsent := (kept.slots s j v there).2
    rw [sent] at unsent
    cases unsent
  unfold completed
  refine ⟨?_, ?_, ?_, ?_, ?_, ?_, ?_, ?_, ?_, ?_, ?_, ?_, ?_⟩ <;> dsimp only
  · rw [active, pc]
    exact kept.active
  · have counted := sum_update used w.blkcb i none
    rw [mine, used_none, used_some] at counted
    have before := kept.inflight
    rw [inflight, blkcb]
    omega
  · have filed_ := filed_data x i none
    rw [show x.blkcb i = some u by rw [blkcb, mine], posted, data_none, data_some,
      add_zero] at filed_
    have same : filed { x with
        blkcb := update x.blkcb i none, inflight := x.inflight - 1 } = filed w :=
      add_right_cancel filed_
    rw [same, took, pc, kept.books]
  · rw [took, head, pc]
    exact kept.count
  · rw [pc, head]
    exact kept.heads
  · rw [pc]
    exact kept.single
  · intro s j v there
    rw [pc] at there
    have apart := other s j v there
    rw [blkcb, device, update_of_ne apart, update_of_ne apart]
    exact kept.slots s j v there
  · intro j sent'
    rw [device] at sent'
    by_cases here : j = i
    · rw [here, update_self] at sent'
      cases sent'
    · rw [update_of_ne here] at sent'
      rw [blkcb, update_of_ne here]
      exact kept.owned j sent'
  · rw [closing, active]
    exact kept.closed
  · rw [closing, refs]
    exact kept.refs
  · rw [pc]
    exact kept.awake
  · rw [waiting, closing]
    exact kept.waiting
  · rw [fault]
    exact kept.fault

theorem kept_complete (taken : uringVblkDone w i = some w') : Kept w' := by
  unfold uringVblkDone at taken
  split_ifs at taken with unsent
  have sent : w.device i = true := by
    rw [Bool.not_eq_false] at unsent
    exact unsent
  obtain ⟨alive, u, mine⟩ := kept.request sent
  have base := base_completed kept sent mine
  obtain ⟨-, -, inflight, closing, -, -, waiting, pc, -, freed, -, -⟩ :=
    postCqe_rest { w with device := update w.device i false } u
  rw [mine] at taken
  dsimp only at taken
  rw [touch_alive (w := { w with device := update w.device i false }) alive] at taken
  generalize postCqe { w with device := update w.device i false } u = x at *
  have waits : ∀ s, ((completed x i).pc s).waits = (w.pc s).waits := fun s => by
    change (x.pc s).waits = _
    rw [pc]
  have total := kept.waits alive
  cases taken
  split_ifs with last
  · unfold releasable at last
    simp only [Bool.and_eq_true, Bool.not_eq_true', decide_eq_true_eq] at last
    obtain ⟨⟨⟨⟨shut, unwaited⟩, -⟩, -⟩, none_⟩ := last
    have unwaited' : w.closeWaiting = false := waiting.symm.trans unwaited
    rw [unwaited', if_neg (by decide)] at total
    refine base.free (freed.trans alive) shut (fun s => ?_) none_
    exact (waits s).trans (eq_zero_of_sum (fun t => (w.pc t).waits) total s)
  · refine ⟨base, fun _ => ?_, fun _ shut unwaited none_ => last ?_, .inl (freed.trans alive)⟩
    · rw [Finset.sum_congr rfl fun s _ => waits s, total]
      change _ = if x.closeWaiting then 1 else 0
      rw [waiting]
    · unfold releasable
      rw [shut, unwaited, none_, base.refs.mp shut, base.closed shut]
      rfl

theorem kept_inherit {forFork : Bool} (taken : uringInherit w forFork = some w') : Kept w' := by
  unfold uringInherit at taken
  split_ifs at taken with free
  obtain ⟨open_, -, -⟩ := free
  dsimp only [touch] at taken
  rw [if_pos (kept.alive_open open_)] at taken
  cases taken
  exact kept.refer open_ (Nat.succ_ne_zero _)

theorem kept_reap {head : BitVec 32} : Kept { w with cqHead := head } :=
  ⟨{ kept with }, kept.waits,
    kept.pending, kept.freed⟩

theorem kept_wake (taken : wake w t = some w') : Kept w' := by
  unfold wake at taken
  cases place : w.pc t <;> rw [place] at taken <;> try cases taken
  rename_i release
  exact absurd place (kept.awake t release)

theorem kept_step {a : Act T U} (orderly : Orderly w a) (taken : (rings T U).step w a w') :
    Kept w' := by
  cases a with
  | enter t => exact kept_enter kept taken
  | fetch t u => exact kept_fetch kept orderly taken
  | skip t => exact kept_skip kept taken
  | reserve t => exact kept_reserve kept taken
  | accept t => exact kept_accept kept taken
  | reject t => exact kept_reject kept taken
  | undo t => exact kept_undo kept taken
  | post t => exact kept_post kept taken
  | advance t => exact kept_advance kept taken
  | put t => exact kept_put kept taken
  | wake t => exact kept_wake kept taken
  | close t => exact kept_close kept orderly taken
  | closePoll t => exact kept_closePoll kept taken
  | closeGiveUp t => exact kept_closeGiveUp kept taken
  | closeEnd t => exact kept_closeEnd kept taken
  | complete i => exact kept_complete kept taken
  | inherit forFork => exact kept_inherit kept taken
  | reap head =>
    change (if w.fdRefs = 0 then none else some { w with cqHead := head }) = some w' at taken
    split_ifs at taken
    cases taken
    exact kept_reap kept

end

theorem kept_setup (entries : Nat) : Kept (setup entries : World T U) := by
  have mids : ∑ t, ((setup entries : World T U).pc t).mid = 0 := Finset.sum_eq_zero fun t _ => rfl
  refine ⟨⟨?_, ?_, ?_, ?_, nofun, ?_, nofun, nofun, nofun, ⟨nofun, nofun⟩, nofun, nofun, rfl⟩, ?_,
    nofun, .inl rfl⟩
  · exact (Finset.sum_eq_zero fun t _ => rfl).symm
  · exact (Finset.sum_eq_zero fun i _ => rfl).symm
  · have holdings : ∑ t, ((setup entries : World T U).pc t).holds = 0 :=
      Finset.sum_eq_zero fun t _ => rfl
    have blocks : ∑ i, data ((setup entries : World T U).blkcb i) = 0 :=
      Finset.sum_eq_zero fun i _ => rfl
    rw [holdings]
    unfold filed
    rw [blocks]
    rfl
  · rw [mids]
    rfl
  · rw [mids]
    exact Nat.zero_le 1
  · intro _
    exact Finset.sum_eq_zero fun t _ => rfl

end

section Contract

variable [Fintype T] {w : World T U}

theorem card_data (blocks : Fin uringMax → Option U) :
    (∑ i, data (blocks i)).card = ∑ i, used (blocks i) := by
  rw [card_sum]
  apply Finset.sum_congr rfl
  intro i _
  cases blocks i <;> rfl

theorem Kept.numbers (kept : Kept w) :
    w.sqHead + ∑ t, (w.pc t).mid =
      w.posted.length + w.overflowed.length + w.inflight + ∑ t, (w.pc t).holds.card := by
  have total := congrArg card kept.books
  unfold filed at total
  rw [card_add, card_add, card_add, coe_card, coe_card,
    coe_card, card_data, card_sum] at total
  rw [← kept.count, kept.inflight]
  exact total

theorem Pc.holds_of_mid (between : p.mid = 0) : p.holds = 0 := by
  cases p <;> first | rfl | cases between

/-- Where calls submit one at a time and the last descriptor is closed without active calls, entries
taken are completed once or under way, the numbers agree between heads, and the ring is freed once,
when nothing is under way. -/
theorem ring_books_kept (run : Reachable (rings T U) Orderly w) :
    (w.taken : Multiset U) = w.posted + w.overflowed + ∑ i, data (w.blkcb i) + ∑ t, (w.pc t).holds ∧
      w.taken.length = w.sqHead + ∑ t, (w.pc t).mid ∧
      ((∀ t, (w.pc t).mid = 0) → w.sqHead = w.posted.length + w.overflowed.length + w.inflight) ∧
      w.fault = false ∧ w.freed ≤ 1 ∧
      (w.fdRefs = 0 → w.activeRefs = 0 → w.inflight = 0 → (∀ t, (w.pc t).waits = 0) →
        w.freed = 1) := by
  have kept : Kept w := by
    refine run.invariant ?_ fun w a w' kept orderly taken => kept_step kept orderly taken
    rintro w ⟨entries, rfl⟩
    exact kept_setup entries
  refine ⟨kept.books, kept.count, fun between => ?_, kept.fault, ?_, fun closed _ none_ left => ?_⟩
  · have numbers := kept.numbers
    rw [Finset.sum_eq_zero fun t _ => between t, Finset.sum_eq_zero fun t _ => by
      rw [Pc.holds_of_mid (between t), Multiset.card_zero]] at numbers
    exact numbers
  · rcases kept.freed with alive | ⟨once, -⟩ <;> omega
  · rcases kept.freed with alive | ⟨once, -⟩
    · have waits := kept.waits alive
      rw [Finset.sum_eq_zero fun t _ => left t] at waits
      have unwaited : w.closeWaiting = false := by
        cases waited : w.closeWaiting with
        | false => rfl
        | true =>
          rw [waited] at waits
          cases waits
      exact absurd none_ (kept.pending alive (kept.refs.mpr closed) unwaited)
    · exact once

/-- One entry taken, refused and completed; then a close. -/
theorem ring_books_kept_single : ∃ w : World Unit Nat, Reachable (rings Unit Nat) Orderly w ∧
    w.sqHead = 1 ∧ w.posted = [7] ∧ w.freed = 1 ∧ w.fault = false := by
  have run : Reachable (rings Unit Nat) Orderly (setup 4) := .start ⟨4, rfl⟩
  have run := Reachable.step (a := Act.enter ()) run trivial rfl
  have run := Reachable.step (a := Act.fetch () 7) run (fun _ => rfl) rfl
  have run := Reachable.step (a := Act.skip ()) run trivial rfl
  have run := Reachable.step (a := Act.post ()) run trivial rfl
  have run := Reachable.step (a := Act.advance ()) run trivial rfl
  have run := Reachable.step (a := Act.put ()) run trivial rfl
  have run := Reachable.step (a := Act.close ()) run (fun _ => rfl) rfl
  have run := Reachable.step (a := Act.closePoll ()) run trivial rfl
  exact ⟨_, run, rfl, rfl, rfl, (ring_books_kept run).2.2.2.1⟩

/-- Two submit together and an entry completes twice; a freed ring is touched. -/
theorem shared_ring_breaks : (∃ w : World Bool Nat,
      Reachable (rings Bool Nat) (fun _ _ => True) w ∧ (∀ t, (w.pc t).mid = 0) ∧ w.sqHead = 1 ∧
        w.posted = [7, 7] ∧ w.inflight = 0) ∧
    ∃ w : World Bool Nat, Reachable (rings Bool Nat) (fun _ _ => True) w ∧ w.freed = 1 ∧
      w.fault = true := by
  constructor
  · have run : Reachable (rings Bool Nat) (fun _ _ => True) _ :=
      Reachable.attempt (fun _ _ _ => id) [.enter true, .enter false, .fetch true 7, .fetch false 7,
        .skip true, .post true, .advance true, .skip false, .post false, .advance false]
        (.start ⟨4, rfl⟩) rfl
    refine ⟨_, run, fun t => ?_, rfl, rfl, rfl⟩
    cases t <;> rfl
  · have run : Reachable (rings Bool Nat) (fun _ _ => True) _ :=
      Reachable.attempt (fun _ _ _ => id) [.enter true, .close false, .put true, .closePoll false,
        .wake true] (.start ⟨4, rfl⟩) rfl
    exact ⟨_, run, rfl, rfl⟩

end Contract

end IcsOs.Posix.Uring
