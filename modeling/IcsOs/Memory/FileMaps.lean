/- GID: IcsOs/Memory/FileMaps
   generality: I
   source: kernel/memory/dexmem.c, kernel/vfs/vfs_core.c
   digest: Mapped areas hold active references of file objects through split, fork and exit. -/

import Mathlib.Data.Fintype.BigOperators
import IcsOs.Memory.Vma

set_option autoImplicit false

namespace IcsOs.Memory.FileMaps

open Function Finset
open Lib.Ledger Lib.Runs Memory.Vma Vfs.OpenFiles

/-- Areas over the open file objects; `busy` is the file of a transfer. -/
structure World where
  vfs : VfsState
  procs : Finset Nat
  vmas : Nat → Vmas
  mmapBrk : Nat → Nat
  busy : Nat → Option FileId
  nextProc : Nat

def World.setArea (w : World) (p : Nat) (i : Slot) (v : VmArea) : World :=
  { w with vmas := Function.update w.vmas p (Function.update (w.vmas p) i v) }

/-- The object belongs to a descriptor. -/
def sysOpen (w : World) (mode : Mode) (env : OpenEnv) : World :=
  match openfilex w.vfs mode env with
  | (none, v) => { w with vfs := v }
  | (some h, v) => { w with vfs := vfsFileMarkPosix v h }

/-- The first free slot; `mapped`: anonymous pages could be mapped. -/
def vmAreaAlloc (w : World) (p : Nat) (req : MapRequest) (file : Option FileId) (mapped : Bool) :
    Bool × World :=
  match placeArea (w.vmas p) (w.mmapBrk p) req with
  | none => (false, w)
  | some base =>
    match freeSlot (w.vmas p) with
    | none => (false, w)
    | some i =>
      if file = none ∧ mapped = false then (false, w)
      else
        (true,
          { w.setArea p i (req.area base file) with
            mmapBrk := if req.fixed then w.mmapBrk else Function.update w.mmapBrk p base })

/-- A file's reference is taken first and dropped if no area is made. -/
def mmapFile (w : World) (p : Nat) (h : FileId) (req : MapRequest) : World :=
  if req.foff % 0x1000 ≠ 0 ∨ req.length = 0 then w
  else
    match vfsFileGet w.vfs h with
    | (false, v) => { w with vfs := v }
    | (true, v) =>
      match vmAreaAlloc { w with vfs := v } p req (some h) true with
      | (true, w₁) => w₁
      | (false, w₁) => { w₁ with vfs := vfsFilePut w₁.vfs h }

def putFile (w : World) : Option FileId → World
  | none => w
  | some h => { w with vfs := vfsFilePut w.vfs h }

/-- The right part takes its own reference; whether it got one is not asked. -/
def getFile (w : World) : Option FileId → World
  | none => w
  | some h => { w with vfs := (vfsFileGet w.vfs h).2 }

/-- One slot of `vm_area_remove`. -/
def removeSlot (w : World) (p start end_ : Nat) (i : Slot) : World :=
  match cutArea (w.vmas p i) start end_ with
  | .keep => w
  | .whole => (putFile w (w.vmas p i).file).setArea p i { w.vmas p i with start := 0 }
  | .left rest => w.setArea p i rest
  | .right rest => w.setArea p i rest
  | .middle front back =>
    let w₁ := w.setArea p i front
    match freeSlot (w₁.vmas p) with
    | none => w₁
    | some j => getFile (w₁.setArea p j back) back.file

def removeSlots (w : World) (p start end_ : Nat) : List Slot → World
  | [] => w
  | i :: rest => removeSlots (removeSlot w p start end_ i) p start end_ rest

def vmAreaRemove (w : World) (p start end_ : Nat) : World :=
  if end_ ≤ start ∨ start % 0x1000 ≠ 0 ∨ end_ % 0x1000 ≠ 0 then w
  else removeSlots w p start end_ slots

/-- A slot of `vm_area_fork`: a reference more, or anonymous. -/
def forkSlot (w : World) (parent child : Nat) (i : Slot) : World :=
  let v := w.vmas parent i
  if v.start = 0 then w
  else
    match v.file with
    | none => w.setArea child i v
    | some h =>
      match vfsFileGet w.vfs h with
      | (true, vfs) => { w with vfs := vfs }.setArea child i v
      | (false, vfs) => { w with vfs := vfs }.setArea child i { v with file := none }

def forkSlots (w : World) (parent child : Nat) : List Slot → World
  | [] => w
  | i :: rest => forkSlots (forkSlot w parent child i) parent child rest

/-- A process needs more than a page of the 4 GiB of memory. -/
def roomForProcess (w : World) : Bool := decide (w.procs.card < 0x100000)

/-- The child's own record, without areas. -/
def newProcess (w : World) (p : Nat) : World :=
  { w with
    vmas := Function.update w.vmas w.nextProc fun _ => .zero
    mmapBrk := Function.update w.mmapBrk w.nextProc (w.mmapBrk p)
    busy := Function.update w.busy w.nextProc none
    nextProc := w.nextProc + 1 }

def publish (w : World) (child : Nat) : World := { w with procs := insert child w.procs }

/-- `table`: the child's area table could be allocated. -/
def fork (w : World) (p : Nat) (table : Bool) : World :=
  if roomForProcess w = false then w
  else if table then publish (forkSlots (newProcess w p) p w.nextProc slots) w.nextProc
  else publish (newProcess w p) w.nextProc

def exitSlot (w : World) (p : Nat) (i : Slot) : World :=
  let v := w.vmas p i
  if v.start = 0 then w else (putFile w v.file).setArea p i { v with start := 0 }

def exitSlots (w : World) (p : Nat) : List Slot → World
  | [] => w
  | i :: rest => exitSlots (exitSlot w p i) p rest

/-- `vm_area_exit` of a process that leaves. -/
def exit (w : World) (p : Nat) : World :=
  let w₁ := exitSlots w p slots
  { w₁ with procs := w₁.procs.erase p }

/-- A transfer on a descriptor's file. -/
def ioBegin (w : World) (p : Nat) (h : FileId) : World :=
  match vfsFileGet w.vfs h with
  | (false, v) => { w with vfs := v }
  | (true, v) => { w with vfs := v, busy := Function.update w.busy p (some h) }

def ioEnd (w : World) (p : Nat) : World :=
  { putFile w (w.busy p) with busy := Function.update w.busy p none }

inductive Op
  | open (mode : Mode) (env : OpenEnv)
  | inherit (h : FileId)
  | fclose (h : FileId)
  | fdclose (h : FileId)
  | mmapFile (p : Nat) (h : FileId) (req : MapRequest)
  | mmapAnonymous (p : Nat) (req : MapRequest) (mapped : Bool)
  | munmap (p start end_ : Nat)
  | fork (p : Nat) (table : Bool)
  | exit (p : Nat)
  | ioBegin (p : Nat) (h : FileId)
  | ioEnd (p : Nat)

def performOp (w : World) : Op → World
  | .open mode env => sysOpen w mode env
  | .inherit h => { w with vfs := perform w.vfs (.inherit h) }
  | .fclose h => { w with vfs := perform w.vfs (.fclose h) }
  | .fdclose h => { w with vfs := perform w.vfs (.fdclose h) }
  | .mmapFile p h req => mmapFile w p h req
  | .mmapAnonymous p req mapped => (vmAreaAlloc w p req none mapped).2
  | .munmap p start end_ => vmAreaRemove w p start end_
  | .fork p table => fork w p table
  | .exit p => exit w p
  | .ioBegin p h => ioBegin w p h
  | .ioEnd p => ioEnd w p

/-- By live processes, one transfer at a time and none while they leave. -/
def Issued (w : World) : Op → Prop
  | .mmapFile p _ _ | .mmapAnonymous p _ _ | .munmap p _ _ | .fork p _ => p ∈ w.procs
  | .exit p => p ∈ w.procs ∧ w.busy p = none
  | .ioBegin p _ => p ∈ w.procs ∧ w.busy p = none
  | .ioEnd p => p ∈ w.procs ∧ w.busy p ≠ none
  | _ => True

def fileMaps : System World Op where
  start w := vfsCalls.start w.vfs ∧ w.procs.card ≤ 0x100000 ∧ (∀ p ∈ w.procs, p < w.nextProc) ∧
    (∀ p i, (w.vmas p i).start = 0) ∧ ∀ p, w.busy p = none
  step w op w' := Issued w op ∧ w' = performOp w op

def VmArea.refers (v : VmArea) : Option FileId := if v.start = 0 then none else v.file

/-- How many areas of these processes refer to the file. -/
def areas (w : World) (procs : Finset Nat) (h : FileId) : Nat :=
  tally (procs ×ˢ (Finset.univ : Finset Slot)) (fun i => VmArea.refers (w.vmas i.1 i.2)) h

/-- How many transfers are under way on the file. -/
def transfers (w : World) (procs : Finset Nat) (h : FileId) : Nat := tally procs w.busy h

section References

variable {v v' : VfsState} {count : FileId → Nat} {h g : FileId}

/-- One reference more. -/
def bump (count : FileId → Nat) (h : FileId) : FileId → Nat :=
  Function.update count h (count h + 1)

theorem bump_self (count : FileId → Nat) (h : FileId) : bump count h h = count h + 1 := by
  simp [bump]

theorem bump_ne (count : FileId → Nat) (apart : g ≠ h) : bump count h g = count g := by
  simp [bump, apart]

theorem bump_eq (count : FileId → Nat) (h g : FileId) :
    bump count h g = count g + share (some h) g := by
  by_cases same : g = h
  · rw [same, bump_self, share_self]
  · rw [bump_ne count same, share_ne (Ne.symm same), Nat.add_zero]

/-- Every live file's active count is the given number; others have none. -/
structure Refs (v : VfsState) (count : FileId → Nat) : Prop where
  sound : Sound v
  active : ∀ h ∈ v.live, (v.file h).activeRefs = BitVec.ofNat 32 (count h)
  alive : ∀ h, count h ≠ 0 → h ∈ v.live

theorem refs_get (refs : Refs v count) {ok : Bool} (got : vfsFileGet v h = (ok, v')) :
    (ok = false ∧ v' = v ∧ (h ∈ v.live → (v.file h).closing = true)) ∨
      ok = true ∧ Refs v' (bump count h) := by
  unfold vfsFileGet at got
  dsimp only at got
  split_ifs at got with granted
  · cases got
    right
    obtain ⟨ok, opened⟩ := granted
    have member : h ∈ v.live := by simpa [fileOkLocked] using ok
    refine ⟨rfl, sound_setFile refs.sound member rfl ?_, ?_, ?_⟩
    · intro closing
      rw [opened] at closing
      cases closing
    · intro g live
      by_cases same : g = h
      · subst same
        have before := refs.active g live
        simp only [VfsState.setFile, update_self, bump_self, before]
        exact (BitVec.ofNat_add (count g) 1).symm
      · simp only [VfsState.setFile, update_of_ne same, bump_ne count same]
        exact refs.active g live
    · intro g some_
      by_cases same : g = h
      · subst same
        exact member
      · rw [bump_ne count same] at some_
        exact refs.alive g some_
  · cases got
    left
    refine ⟨rfl, rfl, fun member => ?_⟩
    by_contra opened
    exact granted ⟨by simpa [fileOkLocked] using member, by simpa using opened⟩

theorem ofNat_eq_zero {n : Nat} (small : n < 2 ^ 32) : BitVec.ofNat 32 n = 0 ↔ n = 0 := by
  constructor
  · intro zero
    have values := congrArg BitVec.toNat zero
    rw [BitVec.toNat_ofNat, Nat.mod_eq_of_lt small] at values
    exact values
  · rintro rfl
    rfl

theorem ofNat_succ_sub (n : Nat) : BitVec.ofNat 32 (n + 1) - 1 = BitVec.ofNat 32 n := by
  rw [BitVec.ofNat_add]
  exact BitVec.add_sub_cancel _ _

theorem refs_settle {f : FilePcb} (refs : Refs v (bump count h) ∨ Refs v count)
    (sound : Sound (settle v h f)) (member : h ∈ v.live)
    (small : count h < 2 ^ 32) (active : f.activeRefs = BitVec.ofNat 32 (count h)) :
    Refs (settle v h f) count := by
  have alive : ∀ g, count g ≠ 0 → g ∈ v.live := by
    intro g some_
    rcases refs with more | exact_
    · apply more.alive
      by_cases same : g = h
      · subst same
        rw [bump_self]
        omega
      · rwa [bump_ne count same]
    · exact exact_.alive g some_
  have others : ∀ g ∈ v.live, g ≠ h → (v.file g).activeRefs = BitVec.ofNat 32 (count g) := by
    intro g live apart
    rcases refs with more | exact_
    · have value := more.active g live
      rwa [bump_ne count apart] at value
    · exact exact_.active g live
  refine ⟨sound, ?_, ?_⟩
  · intro g stays
    rw [file_settle]
    split_ifs with same
    · rw [same]
      exact active
    · exact others g (mem_settle.mp stays).1 same
  · intro g some_
    refine mem_settle.mpr ⟨alive g some_, ?_⟩
    rintro ⟨rfl, -, -, -, unused⟩
    rw [active] at unused
    exact some_ ((ofNat_eq_zero small).mp unused)

/-- Dropping a reference that is held. -/
theorem refs_put (refs : Refs v (bump count h)) (small : count h + 1 < 2 ^ 32) :
    Refs (vfsFilePut v h) count := by
  have member : h ∈ v.live := refs.alive h (by rw [bump_self]; omega)
  have active := refs.active h member
  rw [bump_self] at active
  have used : (v.file h).activeRefs ≠ 0 := by
    rw [active]
    intro zero
    have none := (ofNat_eq_zero small).mp zero
    omega
  have settled : vfsFilePut v h = settle v h ((v.file h).after (.put h)) :=
    @perform_settle v h (.put h) refs.sound rfl member
  have sound := sound_perform refs.sound (.put h)
  have after : ((v.file h).after (.put h)).activeRefs = BitVec.ofNat 32 (count h) := by
    unfold FilePcb.after
    rw [if_neg used]
    rw [active]
    exact ofNat_succ_sub (count h)
  rw [show perform v (.put h) = vfsFilePut v h from rfl, settled] at sound
  rw [settled]
  exact refs_settle (Or.inl refs) sound member (by omega) after

theorem refs_call (refs : Refs v count) {call : Call} (subject : call.subject = some h)
    (other : ∀ f : FilePcb, (f.after call).activeRefs = f.activeRefs) (small : count h < 2 ^ 32) :
    Refs (perform v call) count := by
  by_cases member : h ∈ v.live
  · have sound := sound_perform refs.sound call
    rw [perform_settle refs.sound subject member] at sound ⊢
    exact refs_settle (Or.inr refs) sound member small (by rw [other, refs.active h member])
  · rw [perform_absent subject member]
    exact refs

theorem openNode_new (n : NodeId) (mode : Mode) (env : OpenEnv)
    (live : g ∈ (openNode v n mode env).2.live) (new : g ∉ v.live) :
    ((openNode v n mode env).2.file g).activeRefs = 0 := by
  unfold openNode at live ⊢
  split at live
  · exact absurd live new
  split_ifs at live ⊢
  · exact absurd live new
  · have fresh : g = v.nextFile := (mem_insert.mp live).resolve_right new
    subst fresh
    simp [pushFile]
  · exact absurd live new

theorem createfile_live (env : OpenEnv) {found : Option NodeId}
    (got : createfile v env = (found, v')) : v'.live = v.live := by
  unfold createfile at got
  split at got
  · cases got
    rfl
  split at got
  · cases got
    rfl
  split_ifs at got
  all_goals
    cases got
    rfl

theorem openfilex_new (mode : Mode) (env : OpenEnv) (live : g ∈ (openfilex v mode env).2.live)
    (new : g ∉ v.live) : ((openfilex v mode env).2.file g).activeRefs = 0 := by
  unfold openfilex at live ⊢
  cases found : env.found with
  | none =>
    rw [found] at live
    by_cases reading : mode = .read
    · rw [if_pos reading] at live
      exact absurd live new
    rw [if_neg reading] at live ⊢
    rcases made : createfile v env with ⟨node, v₁⟩
    rw [made] at live
    have same := createfile_live env made
    cases node with
    | none =>
      rw [same] at live
      exact absurd live new
    | some n => exact openNode_new n mode env live (by rw [same]; exact new)
  | some n =>
    rw [found] at live
    dsimp only at live ⊢
    cases there : v.nodes n with
    | none =>
      rw [there] at live
      exact absurd live new
    | some node =>
      rw [there] at live
      dsimp only at live ⊢
      split_ifs at live ⊢
      · exact absurd live new
      · exact absurd live new
      · exact openNode_new n mode env live new

theorem refs_open (refs : Refs v count) (mode : Mode) (env : OpenEnv) :
    Refs (openfilex v mode env).2 count := by
  have opened := openfilex_spec refs.sound mode env
  refine ⟨opened.sound, ?_, fun g some_ => (opened.kept g (refs.alive g some_)).1⟩
  intro g live
  by_cases old : g ∈ v.live
  · rw [(opened.kept g old).2]
    exact refs.active g old
  have none : count g = 0 := by
    by_contra some_
    exact old (refs.alive g some_)
  rw [openfilex_new mode env live old, none]
  rfl

end References

variable {j : Slot}

section Counts

variable {w w' : World} {procs : Finset Nat} {held : FileId → Nat} {p : Nat} {i : Slot}
variable {v : VmArea} {h : FileId}

@[simp] theorem setArea_self (w : World) (p : Nat) (i : Slot) (v : VmArea) :
    (w.setArea p i v).vmas p i = v := by
  simp [World.setArea]

theorem setArea_ne (w : World) (v : VmArea) {q : Nat} (apart : ¬ (q = p ∧ j = i)) :
    (w.setArea p i v).vmas q j = w.vmas q j := by
  by_cases same : q = p
  · subst same
    have other : j ≠ i := fun eq => apart ⟨rfl, eq⟩
    simp [World.setArea, other]
  · simp [World.setArea, same]

theorem areas_setArea (w : World) (member : p ∈ procs) (i : Slot) (v : VmArea) (h : FileId) :
    areas (w.setArea p i v) procs h + share (VmArea.refers (w.vmas p i)) h =
      areas w procs h + share (VmArea.refers v) h := by
  have here : (p, i) ∈ procs ×ˢ (univ : Finset Slot) := by simp [member]
  have change := tally_change (fun k => VmArea.refers (w.vmas k.1 k.2))
    (fun k => VmArea.refers ((w.setArea p i v).vmas k.1 k.2)) here (by
      rintro ⟨q, j⟩ _ apart
      rw [setArea_ne w v fun both => apart (Prod.ext both.1 both.2)]) h
  simp only [setArea_self] at change
  exact change

/-- References of areas and transfers, and one in the hands of a call. -/
def total (w : World) (procs : Finset Nat) (held : FileId → Nat) (h : FileId) : Nat :=
  areas w procs h + transfers w procs h + held h

/-- At most one reference in hand, and room for every process. -/
structure Few (procs : Finset Nat) (held : FileId → Nat) : Prop where
  procs : procs.card ≤ 0x100001
  held : ∀ h, held h ≤ 1

theorem total_small (few : Few procs held) (w : World) (h : FileId) :
    total w procs held h + 1 < 2 ^ 32 := by
  have mapped : areas w procs h ≤ procs.card * 256 := by
    refine (card_filter_le _ _).trans (le_of_eq ?_)
    rw [card_product, card_univ, Fintype.card_fin]
  have moving : transfers w procs h ≤ procs.card := card_filter_le _ _
  have hand := few.held h
  have room := few.procs
  unfold total
  omega

/-- The counts of the file objects are those of the areas and transfers. -/
def Counted (w : World) (procs : Finset Nat) (held : FileId → Nat) : Prop :=
  Refs w.vfs (total w procs held)

theorem counted_setArea {held' : FileId → Nat} (counted : Counted w procs held)
    (member : p ∈ procs) (moved : ∀ g, held' g + share (VmArea.refers v) g =
      held g + share (VmArea.refers (w.vmas p i)) g) : Counted (w.setArea p i v) procs held' := by
  have totals : total (w.setArea p i v) procs held' = total w procs held := by
    funext g
    have move := areas_setArea w member i v g
    have balance := moved g
    have moving : transfers (w.setArea p i v) procs g = transfers w procs g := rfl
    unfold total
    omega
  unfold Counted
  rw [totals]
  exact counted

/-- A slot is rewritten without a change of the file it refers to. -/
theorem counted_setArea_same (counted : Counted w procs held) (member : p ∈ procs)
    (same : VmArea.refers v = VmArea.refers (w.vmas p i)) :
    Counted (w.setArea p i v) procs held :=
  counted_setArea counted member fun g => by rw [same]

/-- The reference of a slot that is freed stays in hand. -/
theorem counted_setArea_free (counted : Counted w procs held) (member : p ∈ procs)
    (before : VmArea.refers (w.vmas p i) = some h) (after : VmArea.refers v = none) :
    Counted (w.setArea p i v) procs (bump held h) :=
  counted_setArea counted member fun g => by rw [before, after, bump_eq, share_none, Nat.add_zero]

/-- A free slot takes the reference in hand. -/
theorem counted_setArea_take (counted : Counted w procs (bump held h)) (member : p ∈ procs)
    (before : VmArea.refers (w.vmas p i) = none) (after : VmArea.refers v = some h) :
    Counted (w.setArea p i v) procs held :=
  counted_setArea counted member fun g => by rw [before, after, bump_eq, share_none, Nat.add_zero]

theorem total_bump (w : World) (procs : Finset Nat) (held : FileId → Nat) (h : FileId) :
    total w procs (bump held h) = bump (total w procs held) h := by
  funext g
  unfold total
  by_cases same : g = h
  · subst same
    rw [bump_self, bump_self]
    omega
  · rw [bump_ne held same, bump_ne _ same]

/-- The reference in hand is dropped. -/
theorem counted_put (few : Few procs held) (counted : Counted w procs (bump held h)) :
    Counted { w with vfs := vfsFilePut w.vfs h } procs held := by
  unfold Counted at counted
  rw [total_bump] at counted
  exact refs_put counted (total_small few w h)

theorem counted_get (counted : Counted w procs held) {ok : Bool} {v' : VfsState}
    (got : vfsFileGet w.vfs h = (ok, v')) :
    (ok = false ∧ { w with vfs := v' } = w ∧
        (h ∈ w.vfs.live → (w.vfs.file h).closing = true)) ∨
      ok = true ∧ Counted { w with vfs := v' } procs (bump held h) := by
  rcases refs_get counted got with ⟨refused, rfl, closing⟩ | ⟨granted, refs⟩
  · exact Or.inl ⟨refused, rfl, closing⟩
  refine Or.inr ⟨granted, ?_⟩
  unfold Counted
  rw [total_bump]
  exact refs

theorem Counted.live (counted : Counted w procs held) (member : p ∈ procs)
    (refers : VmArea.refers (w.vmas p i) = some h) : h ∈ w.vfs.live := by
  apply counted.alive
  have here : (p, i) ∈ procs ×ˢ (univ : Finset Slot) := by simp [member]
  have some_ : 0 < areas w procs h :=
    @tally_pos _ _ _ _ (fun k : Nat × Slot => VmArea.refers (w.vmas k.1 k.2)) h (p, i) here refers
  unfold total
  omega

end Counts

section Slots

variable {w w' : World} {procs : Finset Nat} {held : FileId → Nat} {p : Nat} {i : Slot}
variable {start end_ : Nat} {h : FileId} {v : VmArea}

theorem refers_free (free : v.start = 0) : VmArea.refers v = none := if_pos free

theorem refers_used (used : v.start ≠ 0) : VmArea.refers v = v.file := if_neg used

theorem freeSlot_free {vmas : Vmas} (found : freeSlot vmas = some i) : (vmas i).start = 0 := by
  have free := List.find?_some found
  exact of_decide_eq_true free

/-- Freeing a slot drops the reference of its file. -/
theorem counted_release (few : Few procs held) (counted : Counted w procs held)
    (member : p ∈ procs) (used : (w.vmas p i).start ≠ 0) (free : v.start = 0) :
    Counted ((putFile w (w.vmas p i).file).setArea p i v) procs held := by
  have before := refers_used used
  cases file : (w.vmas p i).file with
  | none =>
    refine counted_setArea_same counted member ?_
    rw [refers_free free]
    exact (before.trans file).symm
  | some h =>
    exact counted_put few
      (counted_setArea_free counted member (before.trans file) (refers_free free))

theorem closing_put (v : VfsState) (h g : FileId) :
    ((vfsFilePut v h).file g).closing = (v.file g).closing := by
  have changed : ∀ f : FilePcb, f.closing = (v.file h).closing →
      ((v.setFile h f).file g).closing = (v.file g).closing := by
    intro f same
    by_cases here : g = h
    · subst here
      simpa [VfsState.setFile] using same
    · simp [VfsState.setFile, here]
  unfold vfsFilePut
  dsimp only
  split_ifs
  · exact changed _ rfl
  · exact changed _ rfl
  · rfl

theorem closing_get (v : VfsState) (h g : FileId) :
    ((vfsFileGet v h).2.file g).closing = (v.file g).closing := by
  unfold vfsFileGet
  dsimp only
  split_ifs
  · by_cases here : g = h
    · subst here
      simp [VfsState.setFile]
    · simp [VfsState.setFile, here]
  · rfl

/-- What the rest of a call over a process's slots relies on. -/
structure Kept (w w' : World) : Prop where
  procs : w'.procs = w.procs
  busy : w'.busy = w.busy
  next : w'.nextProc = w.nextProc
  closing : ∀ g, (w'.vfs.file g).closing = (w.vfs.file g).closing

theorem Kept.refl (w : World) : Kept w w := ⟨rfl, rfl, rfl, fun _ => rfl⟩

theorem Kept.trans {w₁ w₂ w₃ : World} (first : Kept w₁ w₂) (second : Kept w₂ w₃) : Kept w₁ w₃ where
  procs := second.procs.trans first.procs
  busy := second.busy.trans first.busy
  next := second.next.trans first.next
  closing g := (second.closing g).trans (first.closing g)

theorem kept_setArea (w : World) (p : Nat) (i : Slot) (v : VmArea) : Kept w (w.setArea p i v) :=
  ⟨rfl, rfl, rfl, fun _ => rfl⟩

theorem kept_putFile (w : World) (file : Option FileId) : Kept w (putFile w file) := by
  cases file with
  | none => exact Kept.refl w
  | some h => exact ⟨rfl, rfl, rfl, fun g => closing_put w.vfs h g⟩

theorem kept_getFile (w : World) (file : Option FileId) : Kept w (getFile w file) := by
  cases file with
  | none => exact Kept.refl w
  | some h => exact ⟨rfl, rfl, rfl, fun g => closing_get w.vfs h g⟩

theorem putFile_vmas (w : World) (file : Option FileId) : (putFile w file).vmas = w.vmas := by
  cases file with
  | none => rfl
  | some h => rfl

theorem getFile_vmas (w : World) (file : Option FileId) : (getFile w file).vmas = w.vmas := by
  cases file with
  | none => rfl
  | some h => rfl

/-- A range that splits an area splits one whose file is open. -/
def SplitsOpen (w : World) (p start end_ : Nat) (i : Slot) : Prop :=
  ∀ front back, cutArea (w.vmas p i) start end_ = .middle front back →
    ∀ h, (w.vmas p i).file = some h → (w.vfs.file h).closing = false

theorem cutArea_used (cut : cutArea v start end_ ≠ .keep) : v.start ≠ 0 ∧ end_ ≠ 0 := by
  by_cases meets : v.meets start end_ = false
  · exact absurd (if_pos meets) cut
  · have met : v.start ≠ 0 ∧ v.start < end_ ∧ start < v.end_ := by simpa [VmArea.meets] using meets
    omega

theorem cutArea_left {rest : VmArea} (cut : cutArea v start end_ = .left rest) :
    rest.start = end_ ∧ rest.file = v.file := by
  unfold cutArea at cut
  split_ifs at cut
  cases cut
  exact ⟨rfl, rfl⟩

theorem cutArea_right {rest : VmArea} (cut : cutArea v start end_ = .right rest) :
    rest.start = v.start ∧ rest.file = v.file := by
  unfold cutArea at cut
  split_ifs at cut
  cases cut
  exact ⟨rfl, rfl⟩

theorem cutArea_middle {front back : VmArea} (cut : cutArea v start end_ = .middle front back) :
    front.start = v.start ∧ front.file = v.file ∧ back.start = end_ ∧ back.file = v.file := by
  unfold cutArea at cut
  split_ifs at cut
  cases cut
  exact ⟨rfl, rfl, rfl, rfl⟩

theorem cutArea_keep (outside : v.start = 0 ∨ end_ ≤ v.start) : cutArea v start end_ = .keep := by
  apply if_pos
  simp only [VmArea.meets, decide_eq_false_iff_not]
  omega

theorem counted_split {back : VmArea} (counted : Counted w procs held) (member : p ∈ procs)
    (free : (w.vmas p j).start = 0) (used : back.start ≠ 0)
    (opened : ∀ h, back.file = some h → h ∈ w.vfs.live ∧ (w.vfs.file h).closing = false) :
    Counted (getFile (w.setArea p j back) back.file) procs held := by
  have before := refers_free free
  have after := refers_used used
  cases file : back.file with
  | none =>
    refine counted_setArea_same counted member ?_
    rw [after, file, before]
  | some h =>
    obtain ⟨live, open_⟩ := opened h file
    rcases got : vfsFileGet w.vfs h with ⟨ok, v'⟩
    have here : (vfsFileGet w.vfs h).2 = v' := by rw [got]
    rcases counted_get counted got with ⟨-, -, closing⟩ | ⟨-, taken⟩
    · rw [closing live] at open_
      cases open_
    · have stored := counted_setArea_take taken member before (after.trans file)
      rw [← here] at stored
      exact stored

theorem removeSlot_spec (few : Few procs held) (counted : Counted w procs held)
    (member : p ∈ procs) (splits : SplitsOpen w p start end_ i) :
    Counted (removeSlot w p start end_ i) procs held := by
  unfold removeSlot
  cases cut : cutArea (w.vmas p i) start end_ with
  | keep => exact counted
  | whole =>
    obtain ⟨used, -⟩ := cutArea_used (v := w.vmas p i) (by rw [cut]; nofun)
    exact counted_release few counted member used rfl
  | left rest =>
    obtain ⟨used, positive⟩ := cutArea_used (v := w.vmas p i) (by rw [cut]; nofun)
    obtain ⟨starts, file⟩ := cutArea_left cut
    refine counted_setArea_same counted member ?_
    rw [refers_used used, refers_used (starts ▸ positive), file]
  | right rest =>
    obtain ⟨used, -⟩ := cutArea_used (v := w.vmas p i) (by rw [cut]; nofun)
    obtain ⟨starts, file⟩ := cutArea_right cut
    refine counted_setArea_same counted member ?_
    rw [refers_used used, refers_used (starts ▸ used), file]
  | middle front back =>
    obtain ⟨used, positive⟩ := cutArea_used (v := w.vmas p i) (by rw [cut]; nofun)
    obtain ⟨frontStart, frontFile, backStart, backFile⟩ := cutArea_middle cut
    have shortened : Counted (w.setArea p i front) procs held := by
      refine counted_setArea_same counted member ?_
      rw [refers_used used, refers_used (frontStart ▸ used), frontFile]
    dsimp only
    cases found : freeSlot ((w.setArea p i front).vmas p) with
    | none => exact shortened
    | some j =>
      refine counted_split shortened member (freeSlot_free found) (backStart ▸ positive) ?_
      intro h file
      have refers : (w.vmas p i).file = some h := backFile ▸ file
      exact ⟨counted.live member ((refers_used used).trans refers),
        splits front back cut h refers⟩

theorem removeSlot_others (w : World) (p start end_ : Nat) (i : Slot) (apart : j ≠ i) :
    (removeSlot w p start end_ i).vmas p j = w.vmas p j ∨
      end_ ≤ ((removeSlot w p start end_ i).vmas p j).start := by
  have untouched : ∀ (w : World) v, (w.setArea p i v).vmas p j = w.vmas p j := fun w v =>
    setArea_ne w v fun both => apart both.2
  unfold removeSlot
  cases cut : cutArea (w.vmas p i) start end_ with
  | keep => exact Or.inl rfl
  | whole =>
    left
    rw [untouched, putFile_vmas]
  | left rest => exact Or.inl (untouched w rest)
  | right rest => exact Or.inl (untouched w rest)
  | middle front back =>
    dsimp only
    cases found : freeSlot ((w.setArea p i front).vmas p) with
    | none => exact Or.inl (untouched w front)
    | some k =>
      rw [getFile_vmas]
      by_cases here : j = k
      · subst here
        right
        rw [setArea_self, (cutArea_middle cut).2.2.1]
      · left
        rw [setArea_ne _ _ fun both => here both.2]
        exact untouched w front

theorem kept_removeSlot (w : World) (p start end_ : Nat) (i : Slot) :
    Kept w (removeSlot w p start end_ i) := by
  unfold removeSlot
  cases cutArea (w.vmas p i) start end_ with
  | keep => exact Kept.refl w
  | whole => exact (kept_putFile w _).trans (kept_setArea _ p i _)
  | left rest => exact kept_setArea w p i rest
  | right rest => exact kept_setArea w p i rest
  | middle front back =>
    dsimp only
    cases freeSlot ((w.setArea p i front).vmas p) with
    | none => exact kept_setArea w p i front
    | some j =>
      exact ((kept_setArea w p i front).trans (kept_setArea _ p j back)).trans
        (kept_getFile _ _)

theorem SplitsOpen.after (splits : SplitsOpen w p start end_ j) (apart : j ≠ i) :
    SplitsOpen (removeSlot w p start end_ i) p start end_ j := by
  intro front back cut h file
  rcases removeSlot_others w p start end_ i apart with same | after
  · rw [same] at cut file
    rw [(kept_removeSlot w p start end_ i).closing]
    exact splits front back cut h file
  · rw [cutArea_keep (Or.inr after)] at cut
    cases cut

/-- The induction is over the slots still to be looked at. -/
theorem removeSlots_spec (few : Few procs held) (member : p ∈ procs) (todo : List Slot)
    (nodup : todo.Nodup) (counted : Counted w procs held)
    (splits : ∀ i ∈ todo, SplitsOpen w p start end_ i) :
    Counted (removeSlots w p start end_ todo) procs held ∧
      Kept w (removeSlots w p start end_ todo) := by
  induction todo generalizing w with
  | nil => exact ⟨counted, Kept.refl w⟩
  | cons i rest ih =>
    obtain ⟨fresh, nodupRest⟩ := List.nodup_cons.mp nodup
    have here := removeSlot_spec few counted member (splits i List.mem_cons_self)
    have others : ∀ j ∈ rest, SplitsOpen (removeSlot w p start end_ i) p start end_ j := by
      intro j inRest
      refine (splits j (List.mem_cons_of_mem i inRest)).after ?_
      rintro rfl
      exact fresh inRest
    obtain ⟨done, kept⟩ := ih nodupRest here others
    exact ⟨done, (kept_removeSlot w p start end_ i).trans kept⟩

/-- Slots the range does not meet. -/
theorem removeSlots_keep (todo : List Slot)
    (keep : ∀ i ∈ todo, cutArea (w.vmas p i) start end_ = .keep) :
    removeSlots w p start end_ todo = w := by
  induction todo with
  | nil => rfl
  | cons i rest ih =>
    have here : removeSlot w p start end_ i = w := by
      unfold removeSlot
      rw [keep i List.mem_cons_self]
    unfold removeSlots
    rw [here]
    exact ih fun j inRest => keep j (List.mem_cons_of_mem i inRest)

theorem exitSlot_spec (few : Few procs held) (counted : Counted w procs held)
    (member : p ∈ procs) (i : Slot) :
    Counted (exitSlot w p i) procs held ∧ Kept w (exitSlot w p i) ∧
      ((exitSlot w p i).vmas p i).start = 0 ∧
      ∀ j, (w.vmas p j).start = 0 → ((exitSlot w p i).vmas p j).start = 0 := by
  unfold exitSlot
  by_cases free : (w.vmas p i).start = 0
  · rw [if_pos free]
    exact ⟨counted, Kept.refl w, free, fun _ same => same⟩
  rw [if_neg free]
  refine ⟨counted_release few counted member free rfl,
    (kept_putFile w _).trans (kept_setArea _ p i _), ?_, ?_⟩
  · rw [setArea_self]
  intro j already
  by_cases here : j = i
  · subst here
    exact absurd already free
  · rw [setArea_ne _ _ fun both => here both.2, putFile_vmas]
    exact already

theorem exitSlots_spec (few : Few procs held) (member : p ∈ procs) (todo : List Slot)
    (counted : Counted w procs held) (done : ∀ i, i ∉ todo → (w.vmas p i).start = 0) :
    Counted (exitSlots w p todo) procs held ∧ Kept w (exitSlots w p todo) ∧
      ∀ i, ((exitSlots w p todo).vmas p i).start = 0 := by
  induction todo generalizing w with
  | nil => exact ⟨counted, Kept.refl w, fun i => done i List.not_mem_nil⟩
  | cons i rest ih =>
    obtain ⟨here, kept, freed, others⟩ := exitSlot_spec few counted member i
    have doneNow : ∀ j, j ∉ rest → ((exitSlot w p i).vmas p j).start = 0 := by
      intro j looked
      by_cases same : j = i
      · rw [same]
        exact freed
      · exact others j (done j fun inside => (List.mem_cons.mp inside).elim same looked)
    obtain ⟨last, keptRest, free⟩ := ih here doneNow
    exact ⟨last, kept.trans keptRest, free⟩

theorem forkSlot_spec {child : Nat} (counted : Counted w procs held) (member : child ∈ procs)
    (free : (w.vmas child i).start = 0) :
    Counted (forkSlot w p child i) procs held ∧ Kept w (forkSlot w p child i) ∧
      ∀ j, j ≠ i → (forkSlot w p child i).vmas child j = w.vmas child j := by
  have before := refers_free free
  have untouched : ∀ (w : World) v j, j ≠ i → (w.setArea child i v).vmas child j = w.vmas child j :=
    fun w v j apart => setArea_ne w v fun both => apart both.2
  unfold forkSlot
  by_cases unused : (w.vmas p i).start = 0
  · rw [if_pos unused]
    exact ⟨counted, Kept.refl w, fun _ _ => rfl⟩
  rw [if_neg unused]
  cases file : (w.vmas p i).file with
  | none =>
    refine ⟨counted_setArea_same counted member ?_, kept_setArea w child i _, untouched w _⟩
    rw [refers_used unused, file, before]
  | some h =>
    rcases got : vfsFileGet w.vfs h with ⟨ok, v'⟩
    rcases counted_get counted got with ⟨rfl, same, -⟩ | ⟨rfl, taken⟩
    · dsimp only
      rw [got]
      dsimp only
      rw [same]
      refine ⟨counted_setArea_same counted member ?_, kept_setArea w child i _, untouched w _⟩
      rw [before]
      exact refers_used unused
    · have closing := closing_get w.vfs h
      dsimp only
      rw [got] at closing ⊢
      have referenced : Kept w { w with vfs := v' } := ⟨rfl, rfl, rfl, closing⟩
      refine ⟨?_, referenced.trans (kept_setArea _ child i _), untouched _ _⟩
      exact counted_setArea_take taken member before ((refers_used unused).trans file)

theorem forkSlots_spec {child : Nat} (member : child ∈ procs) (todo : List Slot)
    (nodup : todo.Nodup) (counted : Counted w procs held)
    (free : ∀ i ∈ todo, (w.vmas child i).start = 0) :
    Counted (forkSlots w p child todo) procs held ∧ Kept w (forkSlots w p child todo) := by
  induction todo generalizing w with
  | nil => exact ⟨counted, Kept.refl w⟩
  | cons i rest ih =>
    obtain ⟨fresh, nodupRest⟩ := List.nodup_cons.mp nodup
    obtain ⟨here, kept, others⟩ := forkSlot_spec (p := p) counted member (free i List.mem_cons_self)
    have freeRest : ∀ j ∈ rest, ((forkSlot w p child i).vmas child j).start = 0 := by
      intro j inRest
      rw [others j (by rintro rfl; exact fresh inRest)]
      exact free j (List.mem_cons_of_mem i inRest)
    obtain ⟨done, keptRest⟩ := ih nodupRest here freeRest
    exact ⟨done, kept.trans keptRest⟩

end Slots

section Runs

variable {w w' : World} {p : Nat} {h : FileId} {op : Op}

/-- No reference is in hand between two calls. -/
structure Balanced (w : World) : Prop where
  counted : Counted w w.procs fun _ => 0
  room : w.procs.card ≤ 0x100000
  below : ∀ p ∈ w.procs, p < w.nextProc

theorem Balanced.few (balanced : Balanced w) : Few w.procs fun _ => 0 where
  procs := balanced.room.trans (by decide)
  held _ := Nat.zero_le 1

/-- Only areas of files that are still open are split. -/
def OpenSplits (w : World) : Op → Prop
  | .munmap p start end_ => ∀ i, SplitsOpen w p start end_ i
  | _ => True

theorem Balanced.of_kept (balanced : Balanced w) (kept : Kept w w')
    (counted : Counted w' w.procs fun _ => 0) : Balanced w' where
  counted := by
    rw [kept.procs]
    exact counted
  room := by
    rw [kept.procs]
    exact balanced.room
  below := by
    rw [kept.procs, kept.next]
    exact balanced.below

theorem after_active {call : Call} (noGet : ∀ h, call ≠ .get h) (noPut : ∀ h, call ≠ .put h)
    (f : FilePcb) : (f.after call).activeRefs = f.activeRefs := by
  cases call with
  | openfilex mode env => rfl
  | get h => exact absurd rfl (noGet h)
  | put h => exact absurd rfl (noPut h)
  | inherit h | markPosix h | fclose h | fdclose h =>
    unfold FilePcb.after
    split_ifs
    all_goals rfl

/-- A call on the descriptor counts of a file. -/
theorem balanced_call (balanced : Balanced w) (call : Call) (subject : call.subject = some h)
    (noGet : ∀ h, call ≠ .get h) (noPut : ∀ h, call ≠ .put h) :
    Balanced { w with vfs := perform w.vfs call } where
  __ := balanced
  counted := refs_call balanced.counted subject (after_active noGet noPut)
    (Nat.lt_of_succ_lt (total_small balanced.few w h))

theorem balanced_sysOpen (balanced : Balanced w) (mode : Mode) (env : OpenEnv) :
    Balanced (sysOpen w mode env) := by
  have opened : Balanced { w with vfs := (openfilex w.vfs mode env).2 } :=
    { balanced with counted := refs_open balanced.counted mode env }
  unfold sysOpen
  rcases got : openfilex w.vfs mode env with ⟨found, v'⟩
  rw [got] at opened
  cases found with
  | none => exact opened
  | some h => exact balanced_call opened (.markPosix h) rfl nofun nofun

theorem vmAreaAlloc_spec {req : MapRequest} {file : Option FileId} {mapped ok : Bool}
    (made : vmAreaAlloc w p req file mapped = (ok, w')) :
    (ok = false ∧ w' = w) ∨ ok = true ∧ ∃ i base brk, base ≠ 0 ∧ (w.vmas p i).start = 0 ∧
      w' = { w.setArea p i (req.area base file) with mmapBrk := brk } := by
  unfold vmAreaAlloc at made
  split at made
  · cases made
    exact Or.inl ⟨rfl, rfl⟩
  rename_i base placed
  split at made
  · cases made
    exact Or.inl ⟨rfl, rfl⟩
  rename_i i found
  by_cases failed : file = none ∧ mapped = false
  · rw [if_pos failed] at made
    cases made
    exact Or.inl ⟨rfl, rfl⟩
  · rw [if_neg failed] at made
    cases made
    exact Or.inr ⟨rfl, i, base, _, placeArea_pos placed, freeSlot_free found, rfl⟩

theorem counted_mmapBrk {procs : Finset Nat} {held : FileId → Nat} (counted : Counted w procs held)
    (brk : Nat → Nat) : Counted { w with mmapBrk := brk } procs held := counted

theorem balanced_mmapAnonymous (balanced : Balanced w) (member : p ∈ w.procs) (req : MapRequest)
    (mapped : Bool) : Balanced (vmAreaAlloc w p req none mapped).2 := by
  rcases made : vmAreaAlloc w p req none mapped with ⟨ok, w'⟩
  rcases vmAreaAlloc_spec made with ⟨-, rfl⟩ | ⟨-, i, base, brk, placed, free, rfl⟩
  · exact balanced
  refine { balanced with counted := ?_ }
  refine counted_mmapBrk (counted_setArea_same balanced.counted member ?_) brk
  rw [refers_free free]
  exact refers_used placed

theorem balanced_mmapFile (balanced : Balanced w) (member : p ∈ w.procs) (h : FileId)
    (req : MapRequest) : Balanced (mmapFile w p h req) := by
  unfold mmapFile
  by_cases bad : req.foff % 0x1000 ≠ 0 ∨ req.length = 0
  · rw [if_pos bad]
    exact balanced
  rw [if_neg bad]
  rcases got : vfsFileGet w.vfs h with ⟨ok, v'⟩
  rcases counted_get balanced.counted got with ⟨rfl, same, -⟩ | ⟨rfl, taken⟩
  · dsimp only
    rw [same]
    exact balanced
  dsimp only
  rcases made : vmAreaAlloc { w with vfs := v' } p req (some h) true with ⟨made?, w'⟩
  rcases vmAreaAlloc_spec made with ⟨rfl, rfl⟩ | ⟨rfl, i, base, brk, placed, free, rfl⟩
  · exact { balanced with counted := counted_put balanced.few taken }
  · refine { balanced with counted := ?_ }
    exact counted_mmapBrk
      (counted_setArea_take taken member (refers_free free) (refers_used placed)) brk

theorem balanced_munmap (balanced : Balanced w) (member : p ∈ w.procs) {start end_ : Nat}
    (splits : ∀ i, SplitsOpen w p start end_ i) : Balanced (vmAreaRemove w p start end_) := by
  unfold vmAreaRemove
  split_ifs
  · exact balanced
  · obtain ⟨counted, kept⟩ := removeSlots_spec balanced.few member slots slots_nodup
      balanced.counted fun i _ => splits i
    exact balanced.of_kept kept counted

/-- A process without areas or transfers does not count. -/
theorem total_insert (procs : Finset Nat) (held : FileId → Nat) {c : Nat}
    (free : ∀ i, (w.vmas c i).start = 0) (idle : w.busy c = none) :
    total w (insert c procs) held = total w procs held := by
  funext h
  have mapped : areas w (insert c procs) h = areas w procs h := by
    unfold areas tally
    congr 1
    ext ⟨q, i⟩
    simp only [mem_filter, mem_product, mem_insert, mem_univ]
    constructor
    · rintro ⟨⟨rfl | member, -⟩, refers⟩
      · rw [refers_free (free i)] at refers
        cases refers
      · exact ⟨⟨member, trivial⟩, refers⟩
    · rintro ⟨⟨member, -⟩, refers⟩
      exact ⟨⟨Or.inr member, trivial⟩, refers⟩
  have moving : transfers w (insert c procs) h = transfers w procs h := by
    unfold transfers tally
    congr 1
    ext q
    simp only [mem_filter, mem_insert]
    constructor
    · rintro ⟨rfl | member, refers⟩
      · rw [idle] at refers
        cases refers
      · exact ⟨member, refers⟩
    · rintro ⟨member, refers⟩
      exact ⟨Or.inr member, refers⟩
  unfold total
  rw [mapped, moving]

section

variable (balanced : Balanced w)
include balanced

theorem counted_newProcess (p : Nat) :
    Counted (newProcess w p) (insert w.nextProc w.procs) fun _ => 0 := by
  have apart : ∀ q ∈ w.procs, q ≠ w.nextProc := fun q member => (balanced.below q member).ne
  have totals : total (newProcess w p) w.procs (fun _ => 0) = total w w.procs fun _ => 0 := by
    funext h
    unfold total areas transfers
    congr 2
    · apply tally_congr
      rintro ⟨q, i⟩ member
      have inProcs : q ∈ w.procs := (mem_product.mp member).1
      simp [newProcess, apart q inProcs]
    · apply tally_congr
      intro q member
      simp [newProcess, apart q member]
  unfold Counted
  rw [total_insert _ _ (by simp [newProcess, VmArea.zero]) (by simp [newProcess]), totals]
  exact balanced.counted

/-- Once its areas are counted the child can be found. -/
theorem balanced_publish (space : w.procs.card < 0x100000) (kept : Kept (newProcess w p) w')
    (counted : Counted w' (insert w.nextProc w.procs) fun _ => 0) :
    Balanced (publish w' w.nextProc) := by
  have procs : (publish w' w.nextProc).procs = insert w.nextProc w.procs :=
    congrArg (insert w.nextProc) kept.procs
  refine ⟨?_, ?_, ?_⟩
  · rw [procs]
    exact counted
  · rw [procs]
    exact (card_insert_le _ _).trans space
  rw [procs]
  intro q member
  have next : (publish w' w.nextProc).nextProc = w.nextProc + 1 := kept.next
  rw [next]
  rcases mem_insert.mp member with rfl | old
  · exact Nat.lt_succ_self _
  · exact Nat.lt_succ_of_lt (balanced.below q old)

theorem balanced_fork (p : Nat) (table : Bool) : Balanced (fork w p table) := by
  have fresh := counted_newProcess balanced p
  unfold fork
  by_cases full : roomForProcess w = false
  · rw [if_pos full]
    exact balanced
  have space : w.procs.card < 0x100000 := by simpa [roomForProcess] using full
  rw [if_neg full]
  cases table with
  | false => exact balanced_publish balanced space (Kept.refl _) fresh
  | true =>
    obtain ⟨counted, kept⟩ := forkSlots_spec (p := p) (mem_insert_self _ _) slots
      slots_nodup fresh (by simp [newProcess, VmArea.zero])
    exact balanced_publish balanced space kept counted

theorem balanced_exit (member : p ∈ w.procs) (idle : w.busy p = none) : Balanced (exit w p) := by
  obtain ⟨counted, kept, free⟩ := exitSlots_spec balanced.few member slots balanced.counted
    fun i unlooked => absurd (mem_slots i) unlooked
  have totals := total_insert ((exitSlots w p slots).procs.erase p) (fun _ => 0)
    free (by rw [kept.busy]; exact idle)
  rw [insert_erase (by rw [kept.procs]; exact member)] at totals
  have done := balanced.of_kept kept counted
  refine ⟨?_, ?_, ?_⟩
  · have refs := done.counted
    unfold Counted at refs
    rw [totals] at refs
    exact refs
  · exact (card_erase_le).trans done.room
  · exact fun q inside => done.below q (mem_of_mem_erase inside)

end

theorem transfers_update (w : World) {procs : Finset Nat} (member : p ∈ procs)
    (file : Option FileId) (g : FileId) :
    tally procs (update w.busy p file) g + share (w.busy p) g =
      tally procs w.busy g + share file g := by
  have change := tally_change w.busy (update w.busy p file) member
    (fun q _ apart => update_of_ne apart _ _) g
  rwa [update_self] at change

theorem balanced_ioBegin (balanced : Balanced w) (member : p ∈ w.procs) (idle : w.busy p = none)
    (h : FileId) : Balanced (ioBegin w p h) := by
  unfold ioBegin
  rcases got : vfsFileGet w.vfs h with ⟨ok, v'⟩
  rcases counted_get balanced.counted got with ⟨rfl, same, -⟩ | ⟨rfl, taken⟩
  · dsimp only
    rw [same]
    exact balanced
  refine { balanced with counted := ?_ }
  have totals : total { w with vfs := v', busy := update w.busy p (some h) } w.procs
      (fun _ => 0) = total { w with vfs := v' } w.procs (bump (fun _ => 0) h) := by
    funext g
    have move := transfers_update w member (some h) g
    rw [idle, share_none] at move
    unfold total areas transfers
    dsimp only
    rw [show tally w.procs (update w.busy p (some h)) g =
      tally w.procs w.busy g + share (some h) g from move]
    by_cases same : g = h
    · subst same
      rw [share_self, bump_self]
      omega
    · rw [share_ne (Ne.symm same), bump_ne _ same]
      omega
  unfold Counted at taken ⊢
  rw [totals]
  exact taken

theorem balanced_ioEnd (balanced : Balanced w) (member : p ∈ w.procs) (busy : w.busy p ≠ none) :
    Balanced (ioEnd w p) := by
  obtain ⟨h, moving⟩ := Option.ne_none_iff_exists'.mp busy
  have totals : total { w with busy := update w.busy p none } w.procs
      (bump (fun _ => 0) h) = total w w.procs fun _ => 0 := by
    funext g
    have move := transfers_update w member none g
    rw [moving, share_none] at move
    unfold total areas transfers
    dsimp only
    by_cases same : g = h
    · subst same
      rw [share_self] at move
      rw [bump_self]
      omega
    · rw [share_ne (Ne.symm same)] at move
      rw [bump_ne _ same]
      omega
  have inHand : Counted { w with busy := update w.busy p none } w.procs
      (bump (fun _ => 0) h) := by
    unfold Counted
    rw [totals]
    exact balanced.counted
  have put := counted_put balanced.few inHand
  unfold ioEnd
  rw [moving]
  exact { balanced with counted := put }

theorem balanced_step (balanced : Balanced w) (splits : OpenSplits w op) (issued : Issued w op) :
    Balanced (performOp w op) := by
  cases op with
  | «open» mode env => exact balanced_sysOpen balanced mode env
  | inherit h => exact balanced_call balanced (.inherit h) rfl nofun nofun
  | fclose h => exact balanced_call balanced (.fclose h) rfl nofun nofun
  | fdclose h => exact balanced_call balanced (.fdclose h) rfl nofun nofun
  | mmapFile p h req => exact balanced_mmapFile balanced issued h req
  | mmapAnonymous p req mapped => exact balanced_mmapAnonymous balanced issued req mapped
  | munmap p start end_ => exact balanced_munmap balanced issued splits
  | fork p table => exact balanced_fork balanced p table
  | exit p => exact balanced_exit balanced issued.1 issued.2
  | ioBegin p h => exact balanced_ioBegin balanced issued.1 issued.2 h
  | ioEnd p => exact balanced_ioEnd balanced issued.1 issued.2

theorem balanced_start (first : fileMaps.start w) : Balanced w := by
  obtain ⟨vfs, room, below, free, idle⟩ := first
  have none : ∀ h, total w w.procs (fun _ => 0) h = 0 := by
    intro h
    have mapped : areas w w.procs h = 0 := by
      apply tally_zero
      rintro ⟨q, i⟩ -
      rw [refers_free (free q i)]
      nofun
    have moving : transfers w w.procs h = 0 := by
      apply tally_zero
      intro q _
      rw [idle q]
      nofun
    unfold total
    rw [mapped, moving]
    rfl
  refine ⟨⟨sound_start vfs, ?_, fun h some_ => absurd (none h) some_⟩, room, below⟩
  intro h live
  have empty : w.vfs.live = ∅ := vfs.1
  rw [empty] at live
  exact absurd live (notMem_empty h)

theorem balanced_reachable (run : Reachable fileMaps OpenSplits w) : Balanced w := by
  refine run.invariant (fun _ => balanced_start) ?_
  rintro s op t balanced splits ⟨issued, rfl⟩
  exact balanced_step balanced splits issued

/-- Where only areas of files that are not closing are split, a file object's active count is that
of its areas and transfers; so the file of every area is live. -/
theorem file_areas_hold_references (run : Reachable fileMaps OpenSplits w) :
    (∀ h ∈ w.vfs.live, (w.vfs.file h).activeRefs =
        BitVec.ofNat 32 (areas w w.procs h + transfers w w.procs h) ∧
        areas w w.procs h + transfers w w.procs h < 2 ^ 32) ∧
      ∀ p ∈ w.procs, ∀ i h, (w.vmas p i).start ≠ 0 → (w.vmas p i).file = some h →
        h ∈ w.vfs.live := by
  have balanced := balanced_reachable run
  constructor
  · intro h live
    have small := total_small balanced.few w h
    exact ⟨balanced.counted.active h live, Nat.lt_of_succ_lt small⟩
  · intro p member i h used file
    exact balanced.counted.live member ((refers_used used).trans file)

/-- One process over a file that is not open yet. -/
def oneProcess : World where
  vfs := oneFile
  procs := {0}
  vmas _ _ := .zero
  mmapBrk _ := 0
  busy _ := none
  nextProc := 1

theorem oneProcess_start : fileMaps.start oneProcess :=
  ⟨oneFile_start, by decide, by decide, fun _ _ => rfl, fun _ => rfl⟩

/-- Opens the file, maps three pages and closes the descriptor. -/
def mappedOnly : World :=
  performOp
    (performOp (performOp oneProcess (.open .read foundOne))
      (.mmapFile 0 0 ⟨0x3000, false, false, 0, 0, false, 0⟩))
    (.fdclose 0)

theorem mappedOnly_reachable (guard : World → Op → Prop)
    (free : ∀ w op, (∀ p start end_, op ≠ .munmap p start end_) → guard w op) :
    Reachable fileMaps guard mappedOnly := by
  refine .step (a := .fdclose 0) (.step (a := .mmapFile 0 0 ⟨0x3000, false, false, 0, 0, false, 0⟩)
    (.step (a := .open .read foundOne) (.start oneProcess_start) ?_ ⟨trivial, rfl⟩) ?_ ⟨?_, rfl⟩) ?_
    ⟨trivial, rfl⟩
  · exact free _ _ nofun
  · exact free _ _ nofun
  · exact mem_singleton_self 0
  · exact free _ _ nofun

/-- It then unmaps the middle page. -/
def splitOnly : World := performOp mappedOnly (.munmap 0 0x3FCFE000 0x3FCFF000)

/-- And the first one. -/
def bereft : World := removeSlot splitOnly 0 0x3FCFD000 0x3FCFE000 0

theorem munmap_first (w : World) (p : Nat) {start end_ : Nat}
    (range : ¬ (end_ ≤ start ∨ start % 0x1000 ≠ 0 ∨ end_ % 0x1000 ≠ 0))
    (others : ∀ i ∈ slots.tail,
      cutArea ((removeSlot w p start end_ 0).vmas p i) start end_ = .keep) :
    removeSlot w p start end_ 0 = performOp w (.munmap p start end_) := by
  have first : slots = 0 :: slots.tail := by decide +kernel
  have rest := removeSlots_keep slots.tail others
  show removeSlot w p start end_ 0 = vmAreaRemove w p start end_
  unfold vmAreaRemove
  rw [if_neg range, first]
  exact rest.symm

theorem bereft_eq : bereft = performOp splitOnly (.munmap 0 0x3FCFD000 0x3FCFE000) :=
  munmap_first splitOnly 0 (by decide) (by decide +kernel)

theorem splitOnly_reachable : Reachable fileMaps (fun _ _ => True) splitOnly := by
  have member : 0 ∈ mappedOnly.procs := by decide +kernel
  exact .step (a := .munmap 0 0x3FCFE000 0x3FCFF000)
    (mappedOnly_reachable _ fun _ _ _ => trivial) trivial ⟨member, rfl⟩

/-- Two areas share one reference; the last has a file that is gone. -/
theorem split_misses_reference :
    (∃ w, Reachable fileMaps (fun _ _ => True) w ∧
      0 ∈ w.vfs.live ∧ (w.vfs.file 0).activeRefs = 1 ∧ areas w w.procs 0 = 2) ∧
    ∃ w, Reachable fileMaps (fun _ _ => True) w ∧
      0 ∈ w.procs ∧ (w.vmas 0 1).start ≠ 0 ∧ (w.vmas 0 1).file = some 0 ∧ 0 ∉ w.vfs.live := by
  constructor
  · exact ⟨splitOnly, splitOnly_reachable, by decide +kernel, by decide +kernel, by decide +kernel⟩
  have member : 0 ∈ splitOnly.procs := by decide +kernel
  refine ⟨bereft, ?_, ?_, ?_, ?_, ?_⟩
  · exact .step (a := .munmap 0 0x3FCFD000 0x3FCFE000) splitOnly_reachable trivial
      ⟨member, bereft_eq⟩
  · decide +kernel
  · decide +kernel
  · decide +kernel
  · decide +kernel

theorem file_areas_hold_references_mapped :
    0 ∈ mappedOnly.vfs.live ∧ (mappedOnly.vfs.file 0).activeRefs =
      BitVec.ofNat 32
        (areas mappedOnly mappedOnly.procs 0 + transfers mappedOnly mappedOnly.procs 0) :=
  have live : 0 ∈ mappedOnly.vfs.live := by decide +kernel
  have run : Reachable fileMaps OpenSplits mappedOnly :=
    mappedOnly_reachable OpenSplits fun w op noMunmap => by
      cases op with
      | munmap p start end_ => exact absurd rfl (noMunmap p start end_)
      | _ => trivial
  ⟨live, ((file_areas_hold_references run).1 0 live).1⟩

end Runs

end IcsOs.Memory.FileMaps
