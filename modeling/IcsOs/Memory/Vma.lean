/- GID: IcsOs/Memory/Vma
   generality: I
   source: kernel/memory/dexmem.c, kernel/memory/vma.h
   digest: The table of mapped areas of a process: placing, trimming, splitting and protecting. -/

import IcsOs.Vfs.OpenFiles

set_option autoImplicit false

namespace IcsOs.Memory.Vma

open Vfs.OpenFiles

/-- The flags of a page table entry. -/
abbrev Entry := BitVec 64

def pgWr : Entry := 0x002
def pgUser : Entry := 0x004

/-- A slot of the table; `start = 0` marks a free one. -/
structure VmArea where
  start : Nat
  end_ : Nat
  prot : Entry
  shared : Bool
  file : Option FileId
  foff : Nat
  deriving DecidableEq

def VmArea.zero : VmArea := ⟨0, 0, 0, false, none, 0⟩

abbrev Slot := Fin 256

abbrev Vmas := Slot → VmArea

@[irreducible] def slots : List Slot := List.finRange 256

theorem mem_slots (i : Slot) : i ∈ slots := by
  unfold slots
  exact List.mem_finRange i

theorem slots_nodup : slots.Nodup := by
  unfold slots
  exact List.nodup_finRange 256

def memUserHeap : Nat := 0x0A000000

def memUserHeapLimit : Nat := 0x3FD00000

def mmapGuard : Nat := 0x100000

/-- `PROT_WRITE` asks for the write bit; user access is always granted. -/
def vmAttbFromProt (write : Bool) : Entry := if write then pgUser ||| pgWr else pgUser

def freeSlot (vmas : Vmas) : Option Slot := slots.find? fun i => decide ((vmas i).start = 0)

def overlaps (vmas : Vmas) (start end_ : Nat) : Bool :=
  slots.any fun i => decide ((vmas i).start ≠ 0 ∧ start < (vmas i).end_ ∧ (vmas i).start < end_)

/-- Bytes of a mapping, in whole pages; the sum wraps. -/
def mapLength (length : Nat) : Nat := (length + 0xFFF) % 2 ^ 64 / 0x1000 * 0x1000

/-- `knext` is the end of the heap at the time. -/
structure MapRequest where
  length : Nat
  write : Bool
  shared : Bool
  foff : Nat
  hint : Nat
  fixed : Bool
  knext : Nat

/-- The end of a mapping; the sum wraps. -/
def areaEnd (base length : Nat) : Nat := (base + mapLength length) % 2 ^ 64

/-- Where `vm_area_alloc` puts a mapping, if it can. -/
def placeArea (vmas : Vmas) (mmapBrk : Nat) (req : MapRequest) : Option Nat :=
  let vlen := mapLength req.length
  let heap := max req.knext memUserHeap
  if req.length = 0 then none
  else if req.fixed then
    let base := req.hint - req.hint % 0x1000
    let end_ := areaEnd base req.length
    if base < heap + mmapGuard ∨ memUserHeapLimit < end_ ∨ overlaps vmas base end_ = true then none
    else some base
  else
    let top := if mmapBrk = 0 then memUserHeapLimit else mmapBrk
    if top < vlen + mmapGuard ∨ top - vlen < heap + mmapGuard then none
    else some ((top - vlen) - (top - vlen) % 0x1000)

def MapRequest.area (req : MapRequest) (base : Nat) (file : Option FileId) : VmArea where
  start := base
  end_ := areaEnd base req.length
  prot := vmAttbFromProt req.write
  shared := req.shared
  file := file
  foff := req.foff - req.foff % 0x1000

theorem placeArea_pos {vmas : Vmas} {mmapBrk base : Nat} {req : MapRequest}
    (placed : placeArea vmas mmapBrk req = some base) : base ≠ 0 := by
  have heap : memUserHeap ≤ max req.knext memUserHeap := le_max_right _ _
  unfold memUserHeap at heap
  unfold placeArea at placed
  dsimp only at placed
  split_ifs at placed
  all_goals
    rename_i refused
    cases placed
    rw [not_or] at refused
    unfold mmapGuard memUserHeap at refused
    omega

def VmArea.meets (v : VmArea) (start end_ : Nat) : Bool :=
  decide (v.start ≠ 0 ∧ v.start < end_ ∧ start < v.end_)

/-- What `vm_area_remove` makes of a slot. -/
inductive Cut
  | keep
  | whole
  | left (rest : VmArea)
  | right (rest : VmArea)
  | middle (front back : VmArea)
  deriving DecidableEq

def cutArea (v : VmArea) (start end_ : Nat) : Cut :=
  if v.meets start end_ = false then .keep
  else if start ≤ v.start ∧ v.end_ ≤ end_ then .whole
  else if start ≤ v.start then
    .left { v with start := end_, foff := v.foff + (end_ - v.start) }
  else if v.end_ ≤ end_ then .right { v with end_ := start }
  else
    .middle { v with end_ := start }
      { v with start := end_, foff := v.foff + (end_ - v.start) }

end IcsOs.Memory.Vma
