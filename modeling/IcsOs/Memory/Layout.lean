/- GID: IcsOs/Memory/Layout
   generality: I
   source: kernel/memory/dexmem.c, kernel/memory/memlayout.h
   digest: Mapped areas against each other, the user window and the heap, over whole histories of
     mappings, unmappings and breaks. -/

import IcsOs.Memory.FileMaps

set_option autoImplicit false

namespace IcsOs.Memory.Layout

open Function
open Lib.Runs Vfs.OpenFiles Memory.Vma Memory.FileMaps

/-- One process among the others, with its break. -/
structure Space where
  world : World
  proc : Nat
  knext : Nat

abbrev Space.vmas (s : Space) : Vmas := s.world.vmas s.proc

/-- `mmap_brk`, or the limit while nothing was placed downwards. -/
def Space.top (s : Space) : Nat :=
  if s.world.mmapBrk s.proc = 0 then memUserHeapLimit else s.world.mmapBrk s.proc

def dex32Munmap (w : World) (p addr length : Nat) : World :=
  if length = 0 ∨ addr % 0x1000 ≠ 0 then w
  else vmAreaRemove w p addr (areaEnd addr length)

/-- The table after `vm_area_set_prot` of a proper range. -/
def vmAreaSetProt (vmas : Vmas) (start end_ : Nat) (write : Bool) : Vmas := fun i =>
  if (vmas i).meets start end_ then { vmas i with prot := vmAttbFromProt write } else vmas i

def dex32Mprotect (w : World) (p addr length : Nat) (write : Bool) : World :=
  let end_ := areaEnd addr length
  if length = 0 ∨ addr % 0x1000 ≠ 0 ∨ end_ ≤ addr then w
  else { w with vmas := Function.update w.vmas p (vmAreaSetProt (w.vmas p) addr end_ write) }

/-- Pages `dex32_sbrk` adds for `amt` bytes. -/
def sbrkPages (amt : Nat) : Nat := if amt % 0x1000 = 0 then amt / 0x1000 else amt / 0x1000 + 1

/-- Pages it commits: the break need not be page-aligned. -/
def sbrkSpan (knext amt : Nat) : Nat := sbrkPages amt + if knext % 0x1000 ≠ 0 then 1 else 0

/-- The new break, or a refusal; `committed`: `dex32_commit` found frames. -/
def dex32Sbrk (s : Space) (amt : Nat) (committed : Bool) : Option Nat :=
  if amt = 0 then some s.knext
  else if s.top < s.knext - s.knext % 0x1000 + sbrkSpan s.knext amt * 0x1000 then none
  else if committed then some (s.knext + sbrkPages amt * 0x1000 % 2 ^ 32)
  else none

/-- `dex32_mmap` of a file, where it succeeds. -/
def mmapFileOk (w : World) (p : Nat) (h : FileId) (req : MapRequest) : Option World :=
  if req.foff % 0x1000 ≠ 0 ∨ req.length = 0 then none
  else
    match vfsFileGet w.vfs h with
    | (false, _) => none
    | (true, v) =>
      match vmAreaAlloc { w with vfs := v } p req (some h) true with
      | (true, w₁) => some w₁
      | (false, _) => none

inductive Call
  | mmapFile (h : FileId) (req : MapRequest)
  | mmapAnonymous (req : MapRequest) (mapped : Bool)
  | munmap (addr length : Nat)
  | mprotect (addr length : Nat) (write : Bool)
  | sbrk (amt : Nat) (committed : Bool)

def window : Nat := memUserHeapLimit - memUserHeap

/-- A mapping request as the process makes it. -/
def Space.ask (s : Space) (req : MapRequest) : MapRequest := { req with knext := s.knext }

/-- `none` where the call fails or is longer than the window. -/
def succeed (s : Space) : Call → Option Space
  | .mmapFile h req =>
    if window < req.length then none
    else (mmapFileOk s.world s.proc h (s.ask req)).map fun w => { s with world := w }
  | .mmapAnonymous req mapped =>
    if window < req.length then none
    else
      match vmAreaAlloc s.world s.proc (s.ask req) none mapped with
      | (true, w) => some { s with world := w }
      | (false, _) => none
  | .munmap addr length => some { s with world := dex32Munmap s.world s.proc addr length }
  | .mprotect addr length write =>
    some { s with world := dex32Mprotect s.world s.proc addr length write }
  | .sbrk amt committed => (dex32Sbrk s amt committed).map fun knext => { s with knext := knext }

/-- No area, and the break at or above the heap base. -/
def spaces : System Space Call where
  start s := (∀ i, (s.vmas i).start = 0) ∧ s.world.mmapBrk s.proc = 0 ∧ memUserHeap ≤ s.knext
  step s c s' := succeed s c = some s'

section Tables

/-- Areas in the window, above the break and apart from one another. -/
structure Tiled (vmas : Vmas) (knext : Nat) : Prop where
  window : ∀ i, (vmas i).start ≠ 0 → memUserHeap ≤ (vmas i).start ∧
    (vmas i).start < (vmas i).end_ ∧ (vmas i).end_ ≤ memUserHeapLimit
  heap : ∀ i, (vmas i).start ≠ 0 → knext ≤ (vmas i).start
  apart : ∀ i j, i ≠ j → (vmas i).start ≠ 0 → (vmas j).start ≠ 0 →
    (vmas i).end_ ≤ (vmas j).start ∨ (vmas j).end_ ≤ (vmas i).start

variable {vmas : Vmas} {knext : Nat} {i j : Slot} {v : VmArea}

structure Part (v u : VmArea) : Prop where
  low : u.start ≤ v.start
  size : v.start < v.end_
  high : v.end_ ≤ u.end_

/-- An area freed or cut down to a part of itself. -/
theorem Tiled.shrink (tiled : Tiled vmas knext)
    (part : v.start ≠ 0 → (vmas i).start ≠ 0 ∧ Part v (vmas i)) :
    Tiled (update vmas i v) knext := by
  have inside : ∀ j, (update vmas i v j).start ≠ 0 → (vmas j).start ≠ 0 ∧
      (vmas j).start ≤ (update vmas i v j).start ∧
      (update vmas i v j).start < (update vmas i v j).end_ ∧
      (update vmas i v j).end_ ≤ (vmas j).end_ := by
    intro j used
    by_cases here : j = i
    · subst here
      rw [update_self] at used ⊢
      obtain ⟨before, part⟩ := part used
      exact ⟨before, part.low, part.size, part.high⟩
    · rw [update_of_ne here] at used ⊢
      exact ⟨used, le_rfl, (tiled.window j used).2.1, le_rfl⟩
  refine ⟨fun j used => ?_, fun j used => ?_, fun j k other usedJ usedK => ?_⟩
  · obtain ⟨before, low, size, high⟩ := inside j used
    have old := tiled.window j before
    exact ⟨old.1.trans low, size, high.trans old.2.2⟩
  · obtain ⟨before, low, _, _⟩ := inside j used
    exact (tiled.heap j before).trans low
  · obtain ⟨beforeJ, lowJ, _, highJ⟩ := inside j usedJ
    obtain ⟨beforeK, lowK, _, highK⟩ := inside k usedK
    rcases tiled.apart j k other beforeJ beforeK with below | above
    · exact .inl (highJ.trans (below.trans lowK))
    · exact .inr (highK.trans (above.trans lowJ))

/-- An area in a free slot, in the window, above the break and clear of others. -/
theorem Tiled.insert (tiled : Tiled vmas knext) (free : (vmas i).start = 0)
    (low : memUserHeap ≤ v.start) (size : v.start < v.end_) (high : v.end_ ≤ memUserHeapLimit)
    (above : knext ≤ v.start)
    (clear : ∀ j, (vmas j).start ≠ 0 → (vmas j).end_ ≤ v.start ∨ v.end_ ≤ (vmas j).start) :
    Tiled (update vmas i v) knext := by
  refine ⟨fun j used => ?_, fun j used => ?_, fun j k other usedJ usedK => ?_⟩
  · by_cases here : j = i
    · subst here
      rw [update_self]
      exact ⟨low, size, high⟩
    · rw [update_of_ne here] at used ⊢
      exact tiled.window j used
  · by_cases here : j = i
    · subst here
      rw [update_self]
      exact above
    · rw [update_of_ne here] at used ⊢
      exact tiled.heap j used
  · by_cases atJ : j = i
    · subst atJ
      rw [update_of_ne other.symm] at usedK ⊢
      rw [update_self]
      exact (clear k usedK).symm
    · rw [update_of_ne atJ] at usedJ ⊢
      by_cases atK : k = i
      · subst atK
        rw [update_self]
        exact clear j usedJ
      · rw [update_of_ne atK] at usedK ⊢
        exact tiled.apart j k other usedJ usedK

theorem Tiled.split (tiled : Tiled vmas knext) {u front back : VmArea} (was : vmas i = u)
    (used : u.start ≠ 0) (first : Part front u) (second : Part back u)
    (order : front.end_ ≤ back.start)
    (free : (update vmas i front j).start = 0) :
    Tiled (update (update vmas i front) j back) knext := by
  have shrunk : Tiled (update vmas i front) knext :=
    tiled.shrink fun _ => was ▸ ⟨used, first⟩
  have old := tiled.window i (was ▸ used)
  have above := tiled.heap i (was ▸ used)
  rw [was] at old above
  refine shrunk.insert free (old.1.trans second.low) second.size (second.high.trans old.2.2)
    (above.trans second.low) fun k usedK => ?_
  by_cases here : k = i
  · subst here
    rw [update_self]
    exact .inl order
  rw [update_of_ne here] at usedK ⊢
  rcases tiled.apart k i here usedK (was ▸ used) with below | beyond
  · rw [was] at below
    exact .inl (below.trans second.low)
  · rw [was] at beyond
    exact .inr (second.high.trans beyond)

end Tables

section Unmapping

variable {w : World} {p start end_ knext : Nat} {i : Slot} {v : VmArea}

theorem meets_of_cut (v : VmArea) (start end_ : Nat) (cut : cutArea v start end_ ≠ .keep) :
    v.start ≠ 0 ∧ v.start < end_ ∧ start < v.end_ := by
  by_cases meets : v.meets start end_ = false
  · exact absurd (if_pos meets) cut
  · simpa [VmArea.meets] using meets

theorem part_left {rest : VmArea} (cut : cutArea v start end_ = .left rest) : Part rest v := by
  have met := meets_of_cut v start end_ (by rw [cut]; nofun)
  unfold cutArea at cut
  split_ifs at cut with h1 h2 h3 h4
  cases cut
  exact ⟨met.2.1.le, by dsimp only; omega, le_rfl⟩

theorem part_right {rest : VmArea} (cut : cutArea v start end_ = .right rest) : Part rest v := by
  have met := meets_of_cut v start end_ (by rw [cut]; nofun)
  unfold cutArea at cut
  split_ifs at cut with h1 h2 h3 h4
  cases cut
  exact ⟨le_rfl, by dsimp only; omega, by dsimp only; omega⟩

theorem parts_middle {front back : VmArea} (range : start ≤ end_)
    (cut : cutArea v start end_ = .middle front back) :
    Part front v ∧ Part back v ∧ front.end_ ≤ back.start := by
  have met := meets_of_cut v start end_ (by rw [cut]; nofun)
  unfold cutArea at cut
  split_ifs at cut with h1 h2 h3 h4
  cases cut
  refine ⟨⟨le_rfl, ?_, ?_⟩, ⟨?_, ?_, le_rfl⟩, range⟩
  all_goals dsimp only
  all_goals omega

theorem setArea_vmas (w : World) (p : Nat) (i : Slot) (v : VmArea) :
    (w.setArea p i v).vmas p = update (w.vmas p) i v := by
  simp [World.setArea]

/-- One slot of `vm_area_remove` keeps the areas apart. -/
theorem tiled_removeSlot (tiled : Tiled (w.vmas p) knext) (range : start ≤ end_) (i : Slot) :
    Tiled ((removeSlot w p start end_ i).vmas p) knext := by
  unfold removeSlot
  cases cut : cutArea (w.vmas p i) start end_ with
  | keep => exact tiled
  | whole =>
    rw [setArea_vmas, putFile_vmas]
    exact tiled.shrink fun used => absurd rfl used
  | left rest =>
    have met := meets_of_cut (w.vmas p i) start end_ (by rw [cut]; nofun)
    rw [setArea_vmas]
    exact tiled.shrink fun _ => ⟨met.1, part_left cut⟩
  | right rest =>
    have met := meets_of_cut (w.vmas p i) start end_ (by rw [cut]; nofun)
    rw [setArea_vmas]
    exact tiled.shrink fun _ => ⟨met.1, part_right cut⟩
  | middle front back =>
    have met := meets_of_cut (w.vmas p i) start end_ (by rw [cut]; nofun)
    obtain ⟨first, second, order⟩ := parts_middle range cut
    dsimp only
    rw [setArea_vmas]
    cases found : freeSlot (update (w.vmas p) i front) with
    | none =>
      rw [setArea_vmas]
      exact tiled.shrink fun _ => ⟨met.1, first⟩
    | some j =>
      rw [getFile_vmas, setArea_vmas, setArea_vmas]
      exact tiled.split rfl met.1 first second order (freeSlot_free found)

theorem tiled_removeSlots (range : start ≤ end_) (todo : List Slot)
    (tiled : Tiled (w.vmas p) knext) : Tiled ((removeSlots w p start end_ todo).vmas p) knext := by
  induction todo generalizing w with
  | nil => exact tiled
  | cons i rest ih => exact ih (tiled_removeSlot tiled range i)

theorem tiled_munmap (tiled : Tiled (w.vmas p) knext) (addr length : Nat) :
    Tiled ((dex32Munmap w p addr length).vmas p) knext := by
  unfold dex32Munmap vmAreaRemove
  split
  · exact tiled
  split
  · exact tiled
  · rename_i proper
    exact tiled_removeSlots (by omega) slots tiled

theorem tiled_mprotect (tiled : Tiled (w.vmas p) knext) (addr length : Nat) (write : Bool) :
    Tiled ((dex32Mprotect w p addr length write).vmas p) knext := by
  unfold dex32Mprotect
  dsimp only
  split
  · exact tiled
  generalize areaEnd addr length = end_
  have same : ∀ i, (vmAreaSetProt (w.vmas p) addr end_ write i).start = (w.vmas p i).start ∧
      (vmAreaSetProt (w.vmas p) addr end_ write i).end_ = (w.vmas p i).end_ := by
    intro i
    unfold vmAreaSetProt
    split <;> exact ⟨rfl, rfl⟩
  dsimp only
  rw [update_self]
  refine ⟨fun i used => ?_, fun i used => ?_, fun i j other usedI usedJ => ?_⟩
  · rw [(same i).1] at used ⊢
    rw [(same i).2]
    exact tiled.window i used
  · rw [(same i).1] at used ⊢
    exact tiled.heap i used
  · rw [(same i).1] at usedI ⊢
    rw [(same j).1] at usedJ ⊢
    rw [(same i).2, (same j).2]
    exact tiled.apart i j other usedI usedJ

theorem removeSlots_brk (w : World) (p start end_ : Nat) (todo : List Slot) :
    (removeSlots w p start end_ todo).mmapBrk = w.mmapBrk := by
  induction todo generalizing w with
  | nil => rfl
  | cons i rest ih =>
    refine (ih _).trans ?_
    have put : ∀ (w : World) (f : Option FileId), (putFile w f).mmapBrk = w.mmapBrk := by
      intro w f
      cases f <;> rfl
    have get : ∀ (w : World) (f : Option FileId), (getFile w f).mmapBrk = w.mmapBrk := by
      intro w f
      cases f <;> rfl
    unfold removeSlot
    split
    · rfl
    · exact put w _
    · rfl
    · rfl
    dsimp only
    split
    · rfl
    · exact get _ _

theorem munmap_brk (w : World) (p addr length : Nat) :
    (dex32Munmap w p addr length).mmapBrk = w.mmapBrk := by
  unfold dex32Munmap vmAreaRemove
  split
  · rfl
  · split
    · rfl
    · exact removeSlots_brk w p _ _ slots

theorem mprotect_brk (w : World) (p addr length : Nat) (write : Bool) :
    (dex32Mprotect w p addr length write).mmapBrk = w.mmapBrk := by
  unfold dex32Mprotect
  dsimp only
  split <;> rfl

end Unmapping

section Mapping

/-- The range is clear of every area. -/
def ClearOf (vmas : Vmas) (start end_ : Nat) : Prop :=
  ∀ i, (vmas i).start ≠ 0 → (vmas i).end_ ≤ start ∨ end_ ≤ (vmas i).start

/-- A fixed mapping must not pass the end of the address space, another not land on an area. -/
def ClearMap (s : Space) (req : MapRequest) : Prop :=
  if req.fixed then req.hint - req.hint % 0x1000 + mapLength req.length < 2 ^ 64
  else ClearOf s.vmas (s.top - mapLength req.length) s.top

variable {vmas : Vmas} {s : Space} {req : MapRequest} {base knext brk : Nat} {i : Slot}

theorem mapLength_window (short : req.length ≤ window) (some_ : req.length ≠ 0) :
    mapLength req.length % 0x1000 = 0 ∧ 0 < mapLength req.length ∧
      mapLength req.length ≤ 0x35D00000 := by
  unfold window memUserHeap memUserHeapLimit at short
  unfold mapLength
  omega

theorem clearOf_of_not_overlaps {start end_ : Nat} (no : overlaps vmas start end_ ≠ true) :
    ClearOf vmas start end_ := by
  intro i used
  by_contra meets
  apply no
  unfold overlaps
  rw [List.any_eq_true]
  exact ⟨i, mem_slots i, decide_eq_true ⟨used, by omega, by omega⟩⟩

/-- The area of a fixed mapping, where it was accepted. -/
structure FixedPlace (vmas : Vmas) (knext length base : Nat) : Prop where
  above : max knext memUserHeap + mmapGuard ≤ base
  high : areaEnd base length ≤ memUserHeapLimit
  clear : ClearOf vmas base (areaEnd base length)

theorem placeArea_fixed (fixed : req.fixed = true) (placed : placeArea vmas brk req = some base) :
    req.length ≠ 0 ∧ base = req.hint - req.hint % 0x1000 ∧
      FixedPlace vmas req.knext req.length base := by
  unfold placeArea at placed
  dsimp only at placed
  split_ifs at placed with empty refused
  rw [not_or, not_or] at refused
  have here := (Option.some.inj placed).symm
  rw [← here] at refused
  exact ⟨empty, here, by omega, by omega, clearOf_of_not_overlaps refused.2.2⟩

theorem placeArea_below (loose : req.fixed = false) (placed : placeArea vmas brk req = some base) :
    let top := if brk = 0 then memUserHeapLimit else brk
    req.length ≠ 0 ∧ mapLength req.length ≤ top ∧
      max req.knext memUserHeap + mmapGuard ≤ top - mapLength req.length ∧
      base = (top - mapLength req.length) - (top - mapLength req.length) % 0x1000 := by
  unfold placeArea at placed
  dsimp only at placed ⊢
  rw [loose, if_neg Bool.false_ne_true] at placed
  generalize (if brk = 0 then memUserHeapLimit else brk) = top at placed ⊢
  split_ifs at placed with empty refused
  exact ⟨empty, by omega, by omega, (Option.some.inj placed).symm⟩

/-- The state of the downward allocator. -/
structure Topped (s : Space) : Prop where
  aligned : s.top % 0x1000 = 0
  limit : s.top ≤ memUserHeapLimit

/-- The areas and the heap of a process are sound. -/
def Good (s : Space) : Prop := Tiled s.vmas s.knext

theorem tiled_fixed (req : MapRequest) {file : Option FileId} (tiled : Tiled vmas req.knext)
    (free : (vmas i).start = 0) (short : req.length ≤ window) (fixed : req.fixed = true)
    (placed : placeArea vmas brk req = some base) :
    Tiled (update vmas i (req.area base file)) req.knext ↔
      req.hint - req.hint % 0x1000 + mapLength req.length < 2 ^ 64 := by
  obtain ⟨some_, here, place⟩ := placeArea_fixed fixed placed
  obtain ⟨-, positive, small⟩ := mapLength_window short some_
  have knextLe : req.knext ≤ max req.knext memUserHeap := le_max_left _ _
  have heapLe : memUserHeap ≤ max req.knext memUserHeap := le_max_right _ _
  have above := place.above
  have high := place.high
  rw [← here]
  constructor
  · intro after
    have proper := (after.window i (by
      rw [update_self]
      exact placeArea_pos placed)).2.1
    rw [update_self] at proper
    change base < areaEnd base req.length at proper
    by_contra wraps
    have wrapped : areaEnd base req.length ≤ memUserHeapLimit := high
    unfold memUserHeapLimit at wrapped
    omega
  · intro fits
    have exact_ : areaEnd base req.length = base + mapLength req.length := Nat.mod_eq_of_lt fits
    refine tiled.insert free ?_ ?_ high ?_ place.clear
    · change memUserHeap ≤ base
      omega
    · change base < areaEnd base req.length
      omega
    · change req.knext ≤ base
      omega

/-- From the top, the layout is kept exactly if nothing is there. -/
theorem tiled_below (req : MapRequest) (file : Option FileId) {top : Nat}
    (tiled : Tiled vmas req.knext) (free : (vmas i).start = 0) (short : req.length ≤ window)
    (loose : req.fixed = false) (isTop : (if brk = 0 then memUserHeapLimit else brk) = top)
    (aligned : top % 0x1000 = 0) (limit : top ≤ memUserHeapLimit)
    (placed : placeArea vmas brk req = some base) :
    base = top - mapLength req.length ∧ (Tiled (update vmas i (req.area base file)) req.knext ↔
        ClearOf vmas (top - mapLength req.length) top) := by
  obtain ⟨some_, fits, above, here⟩ := placeArea_below loose placed
  obtain ⟨whole, positive, small⟩ := mapLength_window short some_
  have knextLe : req.knext ≤ max req.knext memUserHeap := le_max_left _ _
  have heapLe : memUserHeap ≤ max req.knext memUserHeap := le_max_right _ _
  have base_ : base = top - mapLength req.length := by omega
  have end_ : areaEnd base req.length = top := by
    unfold areaEnd
    unfold memUserHeapLimit at limit
    omega
  refine ⟨base_, fun after j used => ?_, fun clear => ?_⟩
  · have other : j ≠ i := by
      rintro rfl
      exact used free
    have apart := after.apart j i other (by rwa [update_of_ne other]) (by
      rw [update_self]
      exact placeArea_pos placed)
    rw [update_of_ne other, update_self] at apart
    change (vmas j).end_ ≤ base ∨ areaEnd base req.length ≤ (vmas j).start at apart
    rw [end_, base_] at apart
    exact apart
  · refine tiled.insert free ?_ ?_ ?_ ?_ ?_
    · change memUserHeap ≤ base
      omega
    · change base < areaEnd base req.length
      omega
    · change areaEnd base req.length ≤ memUserHeapLimit
      omega
    · change req.knext ≤ base
      omega
    · change ClearOf vmas base (areaEnd base req.length)
      rw [end_, base_]
      exact clear

/-- A success keeps the layout exactly where it is clear, and the allocator aligned below the limit.
-/
theorem vmAreaAlloc_layout {w w' : World} {file : Option FileId} {mapped : Bool}
    (good : Good s) (topped : Topped s) (short : req.length ≤ window)
    (made : vmAreaAlloc w s.proc (s.ask req) file mapped = (true, w'))
    (sameVmas : w.vmas = s.world.vmas) (sameBrk : w.mmapBrk = s.world.mmapBrk) :
    (Good { s with world := w' } ↔ ClearMap s req) ∧ Topped { s with world := w' } := by
  unfold vmAreaAlloc at made
  split at made
  · cases made
  rename_i base placed
  split at made
  · cases made
  rename_i i found
  by_cases failed : file = none ∧ mapped = false
  · rw [if_pos failed] at made
    cases made
  rw [if_neg failed] at made
  have same : w' = _ := (Prod.mk.inj made).2.symm
  rw [sameVmas] at found
  rw [sameVmas, sameBrk] at placed
  have free := freeSlot_free found
  have now : w'.vmas s.proc = update s.vmas i ((s.ask req).area base file) := by
    rw [same]
    refine (setArea_vmas w s.proc i _).trans ?_
    rw [sameVmas]
  unfold Good ClearMap
  unfold Space.vmas
  rw [now]
  have asked : (s.ask req).knext = s.knext := rfl
  cases fixed : req.fixed with
  | true =>
    refine ⟨tiled_fixed (s.ask req) good free short fixed placed, ?_⟩
    have still : w'.mmapBrk = s.world.mmapBrk := by
      rw [same]
      exact (if_pos fixed).trans sameBrk
    have top : Space.top { s with world := w' } = s.top := by
      unfold Space.top
      rw [still]
    exact ⟨top ▸ topped.aligned, top ▸ topped.limit⟩
  | false =>
    obtain ⟨base_, sound⟩ := tiled_below (s.ask req) file good free short fixed rfl
      topped.aligned topped.limit placed
    refine ⟨sound, ?_⟩
    have moved : w'.mmapBrk s.proc = base := by
      rw [same]
      rw [if_neg (by rw [show (s.ask req).fixed = req.fixed from rfl, fixed]; nofun)]
      exact update_self ..
    have top : Space.top { s with world := w' } = base := by
      unfold Space.top
      rw [moved, if_neg (placeArea_pos placed)]
    have loose : (s.ask req).fixed = false := fixed
    have some_ : req.length ≠ 0 := (placeArea_below loose placed).1
    have whole := (mapLength_window short some_).1
    have aligned := topped.aligned
    have limit := topped.limit
    have down : base = s.top - mapLength req.length := base_
    refine ⟨?_, ?_⟩
    · rw [top]
      omega
    · rw [top]
      omega

end Mapping

section Runs

variable {s s' : Space} {c : Call}

/-- Left out are fixed mappings near the end of the address space, mappings from the top on a fixed
one and breaks into one. -/
def Clear (s : Space) : Call → Prop
  | .mmapFile _ req | .mmapAnonymous req _ => ClearMap s req
  | .munmap _ _ | .mprotect _ _ _ => True
  | .sbrk amt _ => ClearOf s.vmas s.knext (s.knext + sbrkPages amt * 0x1000)

theorem sbrk_moves {amt knext : Nat} {committed : Bool} (topped : Topped s)
    (granted : dex32Sbrk s amt committed = some knext) :
    knext = s.knext + sbrkPages amt * 0x1000 := by
  unfold dex32Sbrk at granted
  split_ifs at granted with none_ beyond ok
  · cases granted
    rw [none_]
    rfl
  have limit := topped.limit
  unfold memUserHeapLimit at limit
  have small : sbrkPages amt * 0x1000 < 2 ^ 32 := by
    unfold sbrkSpan at beyond
    omega
  rw [Nat.mod_eq_of_lt small] at granted
  exact (Option.some.inj granted).symm

theorem good_sbrk {amt knext : Nat} {committed : Bool} (good : Good s) (topped : Topped s)
    (granted : dex32Sbrk s amt committed = some knext) :
    Good { s with knext := knext } ↔ ClearOf s.vmas s.knext (s.knext + sbrkPages amt * 0x1000) := by
  have moved := sbrk_moves topped granted
  constructor
  · intro after i used
    have above : knext ≤ (s.vmas i).start := after.heap i used
    exact .inr (moved ▸ above)
  intro clear
  refine { good with heap := fun i used => ?_ }
  have proper := (good.window i used).2.1
  have old := good.heap i used
  change knext ≤ (s.vmas i).start
  rcases clear i used with below | above
  · omega
  · omega

theorem topped_of_brk (topped : Topped s)
    (same : s'.world.mmapBrk s'.proc = s.world.mmapBrk s.proc) : Topped s' := by
  have top : s'.top = s.top := by
    unfold Space.top
    rw [same]
  exact ⟨top ▸ topped.aligned, top ▸ topped.limit⟩

theorem layout_step (good : Good s) (topped : Topped s) (done : succeed s c = some s') :
    (Good s' ↔ Clear s c) ∧ Topped s' := by
  cases c with
  | mmapFile h req =>
    unfold succeed at done
    dsimp only at done
    split_ifs at done with long
    rw [Option.map_eq_some_iff] at done
    obtain ⟨w', made, rfl⟩ := done
    unfold mmapFileOk at made
    split_ifs at made
    split at made
    · cases made
    split at made
    · rename_i alloc
      cases made
      exact vmAreaAlloc_layout good topped (by omega) alloc rfl rfl
    · cases made
  | mmapAnonymous req mapped =>
    unfold succeed at done
    dsimp only at done
    split_ifs at done with long
    split at done
    · rename_i alloc
      cases done
      exact vmAreaAlloc_layout good topped (by omega) alloc rfl rfl
    · cases done
  | munmap addr length =>
    cases done
    exact ⟨iff_of_true (tiled_munmap good addr length) trivial,
      topped_of_brk topped (congrFun (munmap_brk s.world s.proc addr length) s.proc)⟩
  | mprotect addr length write =>
    cases done
    exact ⟨iff_of_true (tiled_mprotect good addr length write) trivial,
      topped_of_brk topped (congrFun (mprotect_brk s.world s.proc addr length write) s.proc)⟩
  | sbrk amt committed =>
    unfold succeed at done
    rw [Option.map_eq_some_iff] at done
    obtain ⟨knext, granted, rfl⟩ := done
    exact ⟨good_sbrk good topped granted, topped_of_brk topped rfl⟩

theorem layout_start (fresh : spaces.start s) : Good s ∧ Topped s := by
  obtain ⟨free, brk, _⟩ := fresh
  refine ⟨⟨fun i used => absurd (free i) used, fun i used => absurd (free i) used,
    fun i j _ used => absurd (free i) used⟩, ?_⟩
  have top : s.top = memUserHeapLimit := if_pos brk
  exact ⟨by rw [top]; rfl, by rw [top]⟩

/-- While calls are clear, areas are disjoint, in the window and above the heap; only a call that is
not clear ends that. -/
theorem layout_kept (run : Reachable spaces Clear s) :
    Good s ∧ ∀ c s', succeed s c = some s' → (Good s' ↔ Clear s c) := by
  have sound : Good s ∧ Topped s := by
    refine Reachable.invariant (I := fun s => Good s ∧ Topped s) (fun s fresh => layout_start fresh)
      ?_ run
    rintro s c t ⟨good, topped⟩ clear taken
    have after := layout_step good topped taken
    exact ⟨after.1.mpr clear, after.2⟩
  exact ⟨sound.1, fun c s' done => (layout_step sound.1 sound.2 done).1⟩

def lone : Space := ⟨oneProcess, 0, memUserHeap + 16⟩

theorem lone_start : spaces.start lone := ⟨fun _ => rfl, rfl, by decide⟩

/-- The last page of the window, asked for by address. -/
def lastPage : MapRequest := ⟨0x1000, true, false, 0, 0x3FCFF000, true, 0⟩

/-- One page, wherever there is room. -/
def anyPage : MapRequest := ⟨0x1000, true, false, 0, 0, false, 0⟩

theorem lone_anyPage : (succeed lone (.mmapAnonymous anyPage true)).isSome = true := by
  decide +kernel

theorem lone_twoPages : ((succeed lone (.mmapAnonymous lastPage true)).bind fun s =>
    succeed s (.mmapAnonymous anyPage true)).isSome = true := by
  decide +kernel

theorem next_anyPage : (succeed ((succeed lone (.mmapAnonymous anyPage true)).get lone_anyPage)
    (.mmapAnonymous anyPage true)).isSome = true := by
  decide +kernel

/-- Two pages are mapped from the top. -/
theorem layout_kept_anyPages : ∃ s, Reachable spaces Clear s ∧ Good s ∧
    (s.vmas 0).start = 0x3FCFF000 ∧ (s.vmas 1).start = 0x3FCFE000 := by
  obtain ⟨s₁, s₂, first, second, clear, here⟩ : ∃ s₁ s₂,
      succeed lone (.mmapAnonymous anyPage true) = some s₁ ∧
      succeed s₁ (.mmapAnonymous anyPage true) = some s₂ ∧
      ClearOf s₁.vmas (s₁.top - mapLength anyPage.length) s₁.top ∧
      (s₂.vmas 0).start = 0x3FCFF000 ∧ (s₂.vmas 1).start = 0x3FCFE000 :=
    ⟨_, _, (Option.some_get lone_anyPage).symm, (Option.some_get next_anyPage).symm,
      by unfold ClearOf; decide +kernel, by decide +kernel⟩
  have clear₀ : Clear lone (.mmapAnonymous anyPage true) := fun i used => absurd rfl used
  have run : Reachable spaces Clear s₂ :=
    .step (a := .mmapAnonymous anyPage true) (.step (.start lone_start) clear₀ first) clear second
  exact ⟨s₂, run, (layout_kept run).1, here⟩

/-- A fixed page at the top, and one from the top: both are the same. -/
theorem fixed_page_mapped_twice : ∃ s, Reachable spaces (fun _ _ => True) s ∧
    (s.vmas 0).start = 0x3FCFF000 ∧ (s.vmas 1).start = 0x3FCFF000 ∧
    (s.vmas 0).end_ = 0x3FD00000 ∧ (s.vmas 1).end_ = 0x3FD00000 := by
  obtain ⟨s₂, path, twice⟩ : ∃ s₂, ((succeed lone (.mmapAnonymous lastPage true)).bind fun s =>
      succeed s (.mmapAnonymous anyPage true)) = some s₂ ∧
      (s₂.vmas 0).start = 0x3FCFF000 ∧ (s₂.vmas 1).start = 0x3FCFF000 ∧
      (s₂.vmas 0).end_ = 0x3FD00000 ∧ (s₂.vmas 1).end_ = 0x3FD00000 :=
    ⟨_, (Option.some_get lone_twoPages).symm, by decide +kernel⟩
  obtain ⟨s₁, first, second⟩ := Option.bind_eq_some_iff.mp path
  have run₁ : Reachable spaces (fun _ _ => True) s₁ := .step (.start lone_start) trivial first
  exact ⟨s₂, .step run₁ trivial second, twice⟩

end Runs

end IcsOs.Memory.Layout
