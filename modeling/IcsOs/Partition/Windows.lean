/- GID: IcsOs/Partition/Windows
   generality: I
   source: kernel/partition/partdev.c, kernel/partition/partdev.h
   digest: Partitions as windows of their disks: what a read or write through one can reach. -/

import Mathlib.Algebra.Group.Nat.Defs
import Mathlib.Data.List.Nodup
import IcsOs.Lib.Runs

set_option autoImplicit false

namespace IcsOs.Partition.Windows

open Lib.Runs

abbrev U32 := Fin (2 ^ 32)

abbrev U64 := Fin (2 ^ 64)

/-- A raw accessor of a driver, by number; none is the null pointer. -/
abbrev RawFn := Option Nat

/-- The fields of `partdev_entry` that accesses depend on. -/
structure PartdevEntry where
  mydeviceid : Int
  parentDeviceid : Int
  startlba : Nat
  endlba : Nat
  readOnly : Bool
  readRaw : RawFn
  writeRaw : RawFn

/-- The parent device, its first sector and the number of sectors. -/
structure Request where
  fn : Nat
  parentDeviceid : Int
  lba : Nat
  nblocks : Nat

def partdevLookup (table : List PartdevEntry) (deviceid : Int) : Option PartdevEntry :=
  table.find? fun e => e.mydeviceid = deviceid

def partdevCountForParent (table : List PartdevEntry) (parent : Int) : Nat :=
  table.countP fun e => e.parentDeviceid = parent

def partdevEntrySize (e : PartdevEntry) : Nat :=
  if e.startlba < e.endlba then e.endlba - e.startlba else 0

/-- The checks, and the call to the parent, if it is reached. -/
def access (e : PartdevEntry) (fn : RawFn) (block numblocks : Nat) : Option Request :=
  if partdevEntrySize e ≤ block then none
  else if partdevEntrySize e - block < numblocks then none
  else fn.map fun fn => ⟨fn, e.parentDeviceid, (block + e.startlba) % 2 ^ 64, numblocks⟩

def partdevPartitionRead (table : List PartdevEntry) (deviceid : Int) (block : U64)
    (numblocks : U32) : Option Request :=
  match partdevLookup table deviceid with
  | none => none
  | some e => access e e.readRaw block.val numblocks.val

/-- A write looks at the accessor only, not at `read_only`. -/
def partdevPartitionWrite (table : List PartdevEntry) (deviceid : Int) (block : U64)
    (numblocks : U32) : Option Request :=
  match partdevLookup table deviceid with
  | none => none
  | some e => access e e.writeRaw block.val numblocks.val

/-- What a caller of `partdev_register` asks for. -/
structure Window where
  parentDeviceid : Int
  startlba : U64
  endlba : U64
  readRaw : RawFn
  writeRaw : RawFn
  readOnly : Bool

/-- `partdev_register`, with what the device manager returns. -/
def partdevRegister (table : List PartdevEntry) (window : Window) (devid : Int) :
    Option (List PartdevEntry) :=
  if 192 ≤ table.length then none
  else if 32 ≤ partdevCountForParent table window.parentDeviceid then none
  else if window.readRaw = none then none
  else if devid < 0 then none
  else some (table ++ [⟨devid, window.parentDeviceid, window.startlba.val, window.endlba.val,
    window.readOnly, window.readRaw, window.writeRaw⟩])

def partdevRemove (table : List PartdevEntry) (parent : Int) : List PartdevEntry :=
  table.filter fun e => e.parentDeviceid ≠ parent

/-- The table, with the window each device was last registered for. -/
structure World where
  table : List PartdevEntry
  windows : Int → Option Window

inductive Act
  | register (window : Window) (devid : Int)
  | remove (parent : Int)

def perform (w : World) : Act → World
  | .register window devid =>
    match partdevRegister w.table window devid with
    | none => w
    | some table => ⟨table, Function.update w.windows devid (some window)⟩
  | .remove parent => { w with table := partdevRemove w.table parent }

/-- The device manager gives out no id that a device still has. -/
def Possible (w : World) : Act → Prop
  | .register _ devid => ∀ e ∈ w.table, e.mydeviceid ≠ devid
  | .remove _ => True

def partitions : System World Act where
  start w := w = ⟨[], fun _ => none⟩
  step w a w' := Possible w a ∧ w' = perform w a

/-- Block `b` is sector `start + b` of the parent, in the window. -/
def InWindow (w : World) (deviceid : Int) (block : U64) (numblocks : U32) (request : Request)
    (window : Window) : Prop :=
  w.windows deviceid = some window ∧ request.parentDeviceid = window.parentDeviceid ∧
    request.lba = window.startlba.val + block.val ∧ request.nblocks = numblocks.val ∧
    request.lba + request.nblocks ≤ window.endlba.val

/-- Accesses stay in their window, and no read-only one is written. -/
structure Confined (w : World) : Prop where
  read : ∀ deviceid block numblocks request,
    partdevPartitionRead w.table deviceid block numblocks = some request →
    ∃ window, InWindow w deviceid block numblocks request window
  write : ∀ deviceid block numblocks request,
    partdevPartitionWrite w.table deviceid block numblocks = some request →
    ∃ window, InWindow w deviceid block numblocks request window ∧ window.readOnly = false

/-- Read-only: registered without a function that writes. -/
def Protected (_ : World) : Act → Prop
  | .register window _ => window.readOnly = true → window.writeRaw = none
  | .remove _ => True

structure Registered (w : World) (e : PartdevEntry) : Prop where
  window : ∃ window, w.windows e.mydeviceid = some window ∧
    e.parentDeviceid = window.parentDeviceid ∧ e.startlba = window.startlba.val ∧
    e.endlba = window.endlba.val ∧ e.readOnly = window.readOnly
  writes : e.readOnly = true → e.writeRaw = none

section Accesses

variable {w : World} {e : PartdevEntry} {fn : RawFn} {block numblocks : Nat} {request : Request}

theorem access_fn (done : access e fn block numblocks = some request) : fn = some request.fn := by
  unfold access at done
  split_ifs at done
  obtain ⟨raw, there, rfl⟩ := Option.map_eq_some_iff.1 done
  exact there

theorem access_spec (bounded : e.endlba < 2 ^ 64)
    (done : access e fn block numblocks = some request) :
    request.parentDeviceid = e.parentDeviceid ∧
      request.lba = e.startlba + block ∧ request.nblocks = numblocks ∧
      request.lba + request.nblocks ≤ e.endlba := by
  unfold access at done
  split_ifs at done with beyond long
  obtain ⟨raw, -, rfl⟩ := Option.map_eq_some_iff.1 done
  have inside : block + e.startlba < 2 ^ 64 ∧ e.startlba + block + numblocks ≤ e.endlba := by
    unfold partdevEntrySize at beyond long
    split_ifs at beyond long <;> omega
  have sum : (block + e.startlba) % 2 ^ 64 = e.startlba + block := by
    rw [Nat.mod_eq_of_lt inside.1, Nat.add_comm]
  refine ⟨rfl, sum, rfl, ?_⟩
  dsimp only
  rw [sum]
  exact inside.2

theorem lookup_spec {table : List PartdevEntry} {deviceid : Int}
    (found : partdevLookup table deviceid = some e) : e ∈ table ∧ e.mydeviceid = deviceid := by
  have hit := List.find?_some found
  exact ⟨List.mem_of_find?_eq_some found, of_decide_eq_true hit⟩

theorem inWindow_of_access {deviceid : Int} {block : U64} {numblocks : U32}
    (registered : ∀ e ∈ w.table, Registered w e) (found : partdevLookup w.table deviceid = some e)
    (done : access e fn block.val numblocks.val = some request) :
    ∃ window, InWindow w deviceid block numblocks request window ∧
      e.readOnly = window.readOnly := by
  obtain ⟨member, rfl⟩ := lookup_spec found
  obtain ⟨window, known, parent, first, last, mode⟩ := (registered e member).window
  have bounded : e.endlba < 2 ^ 64 := by
    rw [last]
    exact window.endlba.isLt
  obtain ⟨target, lba, count, ends⟩ := access_spec bounded done
  refine ⟨window, ⟨known, target.trans parent, ?_, count, ?_⟩, mode⟩
  · rw [lba, first]
  · rw [← last]
    exact ends

theorem confined_of_registered (registered : ∀ e ∈ w.table, Registered w e) : Confined w where
  read deviceid block numblocks request done := by
    unfold partdevPartitionRead at done
    cases found : partdevLookup w.table deviceid with
    | none =>
      rw [found] at done
      cases done
    | some e =>
      rw [found] at done
      obtain ⟨window, inside, -⟩ := inWindow_of_access registered found done
      exact ⟨window, inside⟩
  write deviceid block numblocks request done := by
    unfold partdevPartitionWrite at done
    cases found : partdevLookup w.table deviceid with
    | none =>
      rw [found] at done
      cases done
    | some e =>
      rw [found] at done
      obtain ⟨window, inside, mode⟩ := inWindow_of_access registered found done
      refine ⟨window, inside, ?_⟩
      -- a read-only entry has no accessor to call
      cases only : e.readOnly with
      | false => exact mode.symm.trans only
      | true =>
        have none_ := (registered e (lookup_spec found).1).writes only
        have called := access_fn done
        rw [none_] at called
        cases called

end Accesses

section Steps

variable {w : World}

theorem registered_register {window : Window} {devid : Int}
    (registered : ∀ e ∈ w.table, Registered w e) (fresh : ∀ e ∈ w.table, e.mydeviceid ≠ devid)
    (safe : window.readOnly = true → window.writeRaw = none) :
    ∀ e ∈ (perform w (.register window devid)).table,
      Registered (perform w (.register window devid)) e := by
  unfold perform
  dsimp only
  cases result : partdevRegister w.table window devid with
  | none => exact registered
  | some table =>
    unfold partdevRegister at result
    split_ifs at result
    cases result
    intro e member
    rcases List.mem_append.1 member with old | new
    · obtain ⟨⟨window', known, rest⟩, writes⟩ := registered e old
      refine ⟨⟨window', ?_, rest⟩, writes⟩
      dsimp only
      rw [Function.update_of_ne (fresh e old)]
      exact known
    · obtain rfl := List.mem_singleton.1 new
      exact ⟨⟨window, Function.update_self devid _ _, rfl, rfl, rfl, rfl⟩, safe⟩

theorem registered_remove (parent : Int) (registered : ∀ e ∈ w.table, Registered w e) :
    ∀ e ∈ (perform w (.remove parent)).table, Registered (perform w (.remove parent)) e := by
  intro e member
  obtain ⟨window, writes⟩ := registered e (List.mem_filter.1 member).1
  exact ⟨window, writes⟩

end Steps

/-- Where read-only partitions have no write function, accesses stay in their windows and those are
not written. -/
theorem accesses_stay_confined {w : World} (run : Reachable partitions Protected w) :
    Confined w := by
  have registered : ∀ e ∈ w.table, Registered w e := by
    refine run.invariant (I := fun w => ∀ e ∈ w.table, Registered w e) ?_ ?_
    · rintro w rfl e member
      cases member
    rintro w a w' registered guarded ⟨possible, rfl⟩
    cases a with
    | register window devid => exact registered_register registered possible guarded
    | remove parent => exact registered_remove parent registered
  exact confined_of_registered registered

/-- A partition of a disk, which may be written. -/
def writable : Window := ⟨1, 2048, 4096, some 1, some 2, false⟩

/-- The next one, of a driver without a write function. -/
def readable : Window := ⟨1, 6144, 4096, some 1, none, true⟩

/-- The table with the first. -/
def writableWorld : World := perform ⟨[], fun _ => none⟩ (.register writable 7)

theorem accesses_stay_confined_two : Confined (perform writableWorld (.register readable 8)) :=
  have first : Reachable partitions Protected writableWorld :=
    .step (a := .register writable 7) (.start rfl) (fun readOnly => nomatch readOnly)
      ⟨(fun _ member => nomatch member), rfl⟩
  accesses_stay_confined (.step (a := .register readable 8) first (fun _ => rfl)
    ⟨by unfold Possible; decide, rfl⟩)

/-- The same partition on a disk that is read-only. -/
def sealed : Window := { writable with readOnly := true }

/-- The table with that partition. -/
def sealedWorld : World := perform ⟨[], fun _ => none⟩ (.register sealed 7)

theorem sealed_partition_written : Reachable partitions (fun _ _ => True) sealedWorld ∧
    sealedWorld.windows 7 = some sealed ∧ sealed.readOnly = true ∧
    partdevPartitionWrite sealedWorld.table 7 0 1 = some ⟨2, 1, 2048, 1⟩ ∧
    ¬ Confined sealedWorld := by
  have known : sealedWorld.windows 7 = some sealed := rfl
  have reached : partdevPartitionWrite sealedWorld.table 7 0 1 = some ⟨2, 1, 2048, 1⟩ := rfl
  refine ⟨?_, known, rfl, reached, ?_⟩
  · exact .step (a := .register sealed 7) (.start rfl) trivial
      ⟨(fun _ member => nomatch member), rfl⟩
  intro confined
  obtain ⟨window, inside, mode⟩ := confined.write 7 0 1 _ reached
  obtain rfl : sealed = window := Option.some.inj (known.symm.trans inside.1)
  cases mode

end IcsOs.Partition.Windows
