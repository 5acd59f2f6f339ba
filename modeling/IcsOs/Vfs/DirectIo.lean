/- GID: IcsOs/Vfs/DirectIo
   generality: I
   source: kernel/vfs/vfs_core.c, kernel/vfs/vfs_grow.h,
     kernel/vfs/posixfd.c
   digest: How far a direct write extends a file, and what a failed flush reports. -/

import IcsOs.Vfs.Buffering

set_option autoImplicit false

namespace IcsOs.Vfs.DirectIo

open Lib.Overlay
open Vfs.Buffering (Byte Handle Coherent view view_clean flushed_fflush unbuffered_iff)

section Growing

/-- `vfs_units_covering`, on 32 bits. -/
def vfsUnitsCovering (bytes unit : Nat) : Nat :=
  if unit = 0 then 0 else if bytes = 0 then 0 else (bytes + unit - 1) % 2 ^ 32 / unit

/-- The least number of units that hold the bytes. -/
def ceilUnits (bytes unit : Nat) : Nat := (bytes + unit - 1) / unit

/-- A file system's answers to a write; `addsectors` may be missing, and `writefile`, which else
stores so many bytes of it. -/
structure Fs where
  bytesPerUnit : Nat
  addsectors : Option Bool
  writefile : Option Nat
  chattb : Bool

/-- A stored file and the number of allocation units it owns. -/
structure Stored where
  store : Nat → Byte
  size : Nat
  units : Nat

/-- A driver writes where the file owns the unit. -/
def Fs.write (fs : Fs) (f : Stored) (start : Nat) (bytes : List Byte) : Nat → Byte := fun i =>
  if i < f.units * fs.bytesPerUnit then
    overlay f.store start (bytes.take (fs.writefile.getD 0)) i
  else f.store i

/-- Units `vfs_directwrite` asks for. -/
def requested (fs : Fs) (f : Stored) (end_ : Nat) : Nat :=
  if f.size ≤ end_ then
    vfsUnitsCovering end_ fs.bytesPerUnit - vfsUnitsCovering f.size fs.bytesPerUnit
  else 0

/-- `vfs_directwrite`; `none` where it returns 0, the answer of `writefile` is dropped. -/
def vfsDirectwrite (fs : Fs) (f : Stored) (start : Nat) (bytes : List Byte) : Option Stored :=
  let end_ := (start + bytes.length) % 2 ^ 32
  let grown := { f with units := f.units + requested fs f end_ }
  if f.size ≤ end_ ∧ fs.bytesPerUnit = 0 then none
  else if 0 < requested fs f end_ ∧ fs.addsectors ≠ some true then none
  else if fs.writefile = none then none
  else
    some { grown with
      store := fs.write grown start bytes
      size := if f.size ≤ end_ ∧ fs.chattb = true then end_ else f.size }

/-- What a write of the bytes should leave. -/
structure Written (fs : Fs) (f f' : Stored) (start : Nat) (bytes : List Byte) : Prop where
  covered : ceilUnits (start + bytes.length) fs.bytesPerUnit ≤ f'.units
  needed : f'.units = f.units ∨ f'.units ≤ ceilUnits (start + bytes.length) fs.bytesPerUnit
  size : f'.size = max f.size (start + bytes.length)
  store : f'.store = overlay f.store start bytes

/-- The bytes a driver does not store are there already. -/
def Stores (fs : Fs) (f : Stored) (start : Nat) (bytes : List Byte) : Prop :=
  ∀ k value, fs.writefile.getD 0 ≤ k → bytes[k]? = some value → value = f.store (start + k)

/-- All is stored, and it ends inside the file; or the new size can be stored, and units are counted
without wrapping from a file that owns what its size needs, or none is missing. -/
def Extends (fs : Fs) (f : Stored) (start : Nat) (bytes : List Byte) : Prop :=
  let end_ := start + bytes.length
  let count := fun bytes => ceilUnits bytes fs.bytesPerUnit
  Stores fs f start bytes ∧ (end_ < f.size ∨ (fs.chattb = true ∨ end_ = f.size) ∧
    if end_ + fs.bytesPerUnit ≤ 2 ^ 32 then f.units = count f.size ∨ count end_ = count f.size
    else count end_ ≤ f.units)

variable {fs : Fs} {f f' : Stored} {start b unit : Nat} {bytes : List Byte}

theorem stores_iff : overlay f.store start (bytes.take (fs.writefile.getD 0)) =
    overlay f.store start bytes ↔ Stores fs f start bytes := by
  constructor
  · intro same k value low there
    have byte := congrFun same (start + k)
    rw [overlay_after f.store (by rw [List.length_take]; omega),
      overlay_inside f.store (Nat.le_add_right start k)
        (by rwa [Nat.add_sub_cancel_left])] at byte
    exact byte.symm
  · intro kept
    funext i
    unfold overlay
    split
    · rename_i first
      rw [List.getElem?_take]
      split
      · rfl
      · cases there : bytes[i - start]? with
        | none => rfl
        | some value =>
          rw [kept _ value (by omega) there, Nat.add_sub_cancel' first]
          rfl
    · rfl

theorem covering_eq (positive : 0 < unit) (fits : b + unit ≤ 2 ^ 32) :
    vfsUnitsCovering b unit = ceilUnits b unit := by
  unfold vfsUnitsCovering ceilUnits
  rw [if_neg (Nat.ne_of_gt positive)]
  split
  · rename_i none
    rw [none, Nat.zero_add, Nat.div_eq_of_lt (by omega)]
  · rw [Nat.mod_eq_of_lt (by omega)]

theorem covering_wraps (small : b < 2 ^ 32) (narrow : unit < 2 ^ 32) (wraps : 2 ^ 32 < b + unit) :
    vfsUnitsCovering b unit = 0 := by
  unfold vfsUnitsCovering
  rw [if_neg (by omega), if_neg (by omega), Nat.mod_eq_sub_mod (by omega),
    Nat.mod_eq_of_lt (by omega)]
  exact Nat.div_eq_of_lt (by omega)

theorem covering_iff (small : b < 2 ^ 32) (positive : 0 < unit) (narrow : unit < 2 ^ 32) :
    vfsUnitsCovering b unit = ceilUnits b unit ↔ b + unit ≤ 2 ^ 32 := by
  constructor
  · intro same
    by_contra wraps
    rw [covering_wraps small narrow (by omega)] at same
    have some_ : 0 < ceilUnits b unit := Nat.div_pos (by omega) positive
    omega
  · exact covering_eq positive

theorem ceilUnits_mono {c : Nat} (unit : Nat) (le : b ≤ c) : ceilUnits b unit ≤ ceilUnits c unit :=
  Nat.div_le_div_right (by omega)

theorem le_ceilUnits_mul (positive : 0 < unit) : b ≤ ceilUnits b unit * unit := by
  have split := Nat.div_add_mod (b + unit - 1) unit
  have rest := Nat.mod_lt (b + unit - 1) positive
  rw [Nat.mul_comm] at split
  unfold ceilUnits
  omega

/-- What the driver stores lies in owned units. -/
theorem write_covered (positive : 0 < fs.bytesPerUnit)
    (covered : ceilUnits (start + bytes.length) fs.bytesPerUnit ≤ f.units) :
    fs.write f start bytes = overlay f.store start (bytes.take (fs.writefile.getD 0)) := by
  have reach := Nat.le_trans (le_ceilUnits_mul positive)
    (Nat.mul_le_mul_right fs.bytesPerUnit covered)
  funext i
  unfold Fs.write
  split
  · rfl
  · exact (overlay_after f.store (by rw [List.length_take]; omega)).symm

theorem requested_eq {end_ : Nat} (positive : 0 < fs.bytesPerUnit)
    (narrow : fs.bytesPerUnit < 2 ^ 32) (small : end_ < 2 ^ 32) (reaches : f.size ≤ end_) :
    requested fs f end_ = if end_ + fs.bytesPerUnit ≤ 2 ^ 32 then
      ceilUnits end_ fs.bytesPerUnit - ceilUnits f.size fs.bytesPerUnit else 0 := by
  unfold requested
  rw [if_pos reaches]
  split
  · rw [covering_eq positive (by omega), covering_eq positive (by omega)]
  · rw [covering_wraps small narrow (by omega), Nat.zero_sub]

/-- What is left to check of a write: the units and the size. -/
theorem written_iff {end_ : Nat} (positive : 0 < fs.bytesPerUnit)
    (length : start + bytes.length = end_) (range : end_ < 2 ^ 32)
    (done : vfsDirectwrite fs f start bytes = some f') :
    Written fs f f' start bytes ↔ ceilUnits end_ fs.bytesPerUnit ≤ f.units + requested fs f end_ ∧
      (f.units + requested fs f end_ = f.units ∨
        f.units + requested fs f end_ ≤ ceilUnits end_ fs.bytesPerUnit) ∧
      (if f.size ≤ end_ ∧ fs.chattb = true then end_ else f.size) = max f.size end_ ∧
      Stores fs f start bytes := by
  subst length
  unfold vfsDirectwrite at done
  rw [Nat.mod_eq_of_lt range] at done
  dsimp only at done
  rw [ite_eq_iff, or_iff_right (fun no => nomatch no.2)] at done
  obtain ⟨-, done⟩ := done
  rw [ite_eq_iff, or_iff_right (fun no => nomatch no.2)] at done
  obtain ⟨-, done⟩ := done
  rw [ite_eq_iff, or_iff_right (fun no => nomatch no.2)] at done
  obtain ⟨-, done⟩ := done
  cases done
  have stored := @write_covered fs
    { f with units := f.units + requested fs f (start + bytes.length) } start bytes positive
  constructor
  · rintro ⟨covered, needed, size, store⟩
    exact ⟨covered, needed, size, stores_iff.mp ((stored covered).symm.trans store)⟩
  · rintro ⟨covered, needed, size, stores⟩
    exact ⟨covered, needed, size, (stored covered).trans (stores_iff.mpr stores)⟩

def fatFs : Fs := ⟨512, some true, some (2 ^ 32), true⟩

def emptyFile : Stored := ⟨fun _ => 0, 0, 0⟩

end Growing

section Flushing

/-- Done; refused with 0, as where no unit is left; or done in part by the driver, whose answer is
not looked at. -/
inductive Outcome
  | stored
  | refused
  | part (n : Nat)
  deriving DecidableEq

def directwrite (h : Handle) (bytes : List Byte) : Outcome → Handle
  | .stored => Buffering.vfsDirectwrite h bytes
  | .refused => h
  | .part n =>
    { Buffering.vfsDirectwrite h bytes with
      store := overlay h.store h.ptrlow (bytes.dropLast.take n) }

def unwritten (h : Handle) : Bool := !h.unbuffered && h.endsize != 0 && h.bufferwrite

/-- The answer of the write is dropped. -/
def vfsFlushbuffer (h : Handle) (o : Outcome) : Int × Handle :=
  if unwritten h then
    (1, { directwrite { h with ptrlow := h.startptr } h.buffer o with
      ptrlow := h.ptrlow
      buffer := []
      bufferwrite := false })
  else (1, h)

def fflush (h : Handle) (o : Outcome) : Int × Handle :=
  (1, if h.bufsize = 0 then h else (vfsFlushbuffer h o).2)

/-- The last `fclose`, through `vfs_file_destroy_locked`. -/
def fclose (h : Handle) (o : Outcome) : Int × Handle :=
  (if (fflush h o).1 = 0 then -1 else 0, (fflush h o).2)

/-- `flushed` is the answer of `iomgr_flushmgr`, -5 is `-EIO`. -/
def sysFsync (h : Handle) (o : Outcome) (flushed : Bool) : Int × Handle :=
  (if (fflush h o).1 = 0 then -5 else if flushed then 0 else -5, (fflush h o).2)

/-- A failure is reported with its bytes waiting; after a success all is stored. -/
structure Honest (h h' : Handle) (o : Outcome) (success : Prop) : Prop where
  fails : unwritten h = true → o ≠ .stored →
    ¬ success ∧ h'.buffer = h.buffer ∧ h'.bufferwrite = true
  stores : success → h'.store = (view h).content ∧ h'.size = (view h).size

variable {h : Handle} {o : Outcome}

theorem unwritten_iff (coherent : Coherent h) : unwritten h = true ↔ h.bufferwrite = true := by
  constructor
  · intro waits
    exact (Bool.and_eq_true_iff.mp waits).2
  intro dirty
  have some_ := coherent.dirty dirty
  have buffered : h.unbuffered = false := by
    rw [← Bool.not_eq_true, unbuffered_iff]
    intro none
    rw [(coherent.unbuffered none).2] at dirty
    cases dirty
  simp [unwritten, dirty, buffered, Handle.endsize, some_]

/-- Where the write is done, the flush is the one without failures. -/
theorem fflush_stored (h : Handle) : (fflush h .stored).2 = Buffering.fflush h := by
  unfold fflush Buffering.fflush vfsFlushbuffer Buffering.vfsFlushbuffer
  have same : unwritten h = true ↔ h.unbuffered = false ∧ h.buffer ≠ [] ∧ h.bufferwrite = true := by
    simp [unwritten, Handle.endsize, and_assoc]
  by_cases waits : unwritten h = true
  · rw [if_pos waits, if_pos (same.mp waits)]
    rfl
  · rw [if_neg waits, if_neg (fun all => waits (same.mpr all))]

theorem fflush_clean (clean : unwritten h = false) : (fflush h o).2 = h := by
  unfold fflush vfsFlushbuffer
  rw [clean]
  exact ite_self h

theorem fflush_buffer (coherent : Coherent h) (waits : unwritten h = true) :
    (fflush h o).2.bufferwrite = false := by
  have room : h.bufsize ≠ 0 := by
    have positive := coherent.room fun none => by
      have clean := (coherent.unbuffered none).2
      rw [(unwritten_iff coherent).mp waits] at clean
      cases clean
    omega
  unfold fflush vfsFlushbuffer
  rw [if_neg room, if_pos waits]

theorem honest_iff (coherent : Coherent h) (success : Prop) :
    Honest h (fflush h o).2 o success ↔ (unwritten h = true → o = .stored) := by
  constructor
  · intro honest waits
    by_contra failed
    have kept := (honest.fails waits failed).2.2
    rw [fflush_buffer coherent waits] at kept
    cases kept
  · intro fine
    refine ⟨fun waits failed => absurd (fine waits) failed, fun _ => ?_⟩
    have same : (fflush h o).2 = Buffering.fflush h := by
      rw [← fflush_stored]
      cases waits : unwritten h with
      | true => rw [fine waits]
      | false => rw [fflush_clean waits, fflush_clean waits]
    have flushed := flushed_fflush coherent
    rw [same, ← flushed.view, view_clean flushed.clean]
    exact ⟨rfl, rfl⟩

/-- The three flushes are honest exactly when the write, if any, is done: they never report it. -/
theorem flush_honest_iff (coherent : Coherent h) (o : Outcome) (flushed : Bool) :
    (Honest h (fflush h o).2 o ((fflush h o).1 ≠ 0) ↔ (unwritten h = true → o = .stored)) ∧
      (Honest h (fclose h o).2 o ((fclose h o).1 = 0) ↔ (unwritten h = true → o = .stored)) ∧
      (Honest h (sysFsync h o flushed).2 o ((sysFsync h o flushed).1 = 0) ↔
        (unwritten h = true → o = .stored)) ∧
      (fflush h o).1 = 1 ∧ (fclose h o).1 = 0 ∧
      (sysFsync h o flushed).1 = if flushed then 0 else -5 :=
  ⟨honest_iff coherent _, honest_iff coherent _, honest_iff coherent _, rfl, rfl, rfl⟩

/-- A handle with one byte that waits. -/
def oneByte : Handle := ⟨fun _ => 0, 0, 1, .full, 512, [7], 0, true⟩

theorem flush_honest_oneByte :
    Honest oneByte (fflush oneByte .stored).2 .stored ((fflush oneByte .stored).1 ≠ 0) :=
  (flush_honest_iff (h := oneByte) ⟨nofun, fun _ => by decide, fun _ => by decide, nofun⟩ .stored
    true).1.mpr fun _ => rfl

/-- A full device: the byte is thrown away, and all report success. -/
theorem refused_byte_lost :
    (fflush oneByte .refused).1 = 1 ∧ (fclose oneByte .refused).1 = 0 ∧
      (sysFsync oneByte .refused true).1 = 0 ∧ (fflush oneByte .refused).2.buffer = [] ∧
      (fflush oneByte .refused).2.size = 0 := by
  decide

end Flushing

end IcsOs.Vfs.DirectIo
