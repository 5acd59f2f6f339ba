/- GID: IcsOs/Ext4/Bounds
   generality: I
   source: kernel/filesystem/ext4.c, kernel/memory/memlayout.h
   digest: Buffer accesses, divisions and shifts of the mount path, against the buffers' sizes. -/

import IcsOs.Ext4.Super

set_option autoImplicit false

namespace IcsOs.Ext4.Bounds

open Ext4.Super

/-- An access of `len` bytes at `off` of `size`, a division, a 32-bit shift. -/
inductive Event
  | access (size off len : Nat)
  | div (by_ : Nat)
  | shift (count : Nat)
  deriving DecidableEq

def Event.Fine : Event → Prop
  | .access size off len => off + len ≤ size
  | .div d => d ≠ 0
  | .shift n => n < 32

instance : DecidablePred Event.Fine := fun e => by
  cases e <;> unfold Event.Fine <;> infer_instance

def blockBuffer : Nat := 4096

/-- `tmp` of `ext4_gd_set_csum`. -/
def scratch : Nat := 64

/-- `raw` of the readers of inodes. -/
def inodeBuffer : Nat := 256

def sizeofGd : Nat := 36

/-- No allocation is larger. -/
def memKheapSize : Nat := 0x06000000 - 0x020C2000

/-- `malloc` takes an `unsigned int`. -/
def mallocSize (n : Nat) : Nat := n % 2 ^ 32

/-- A shift for every superblock with the magic, a division for an accepted block size. -/
def loadSuperEvents (sb : Raw) : List Event :=
  if rd16 sb 0x38 ≠ ext4SuperMagic then []
  else if blocksizeOf sb < 1024 ∨ 65536 < blocksizeOf sb then [.shift (rd32 sb 0x18)]
  else [.shift (rd32 sb 0x18), .div (rd32 sb 0x20)]

/-- Bytes that `ext4_read_blocks` puts into its buffer. -/
def blockBytes (s : Sb) (count : Nat) : Nat := count * (s.blocksize / 512) % 2 ^ 32 * 512

def gdtBlocks (s : Sb) : Nat := (s.gdtSize + s.blocksize - 1) % 2 ^ 32 / s.blocksize

def descOffset (s : Sb) (g : Nat) : Nat := g * s.descSize % 2 ^ 32

/-- Bytes of a descriptor that are read. -/
def descBytes (s : Sb) : Nat := if 64 ≤ s.descSize then 0x34 else 0x20

/-- `ext4_load_gdt`, with memory for both tables. -/
def loadGdtEvents (s : Sb) : List Event :=
  .access (mallocSize s.gdtSize) 0 (blockBytes s (gdtBlocks s)) ::
    (List.range s.numGroups).flatMap fun g =>
      [.access (mallocSize s.gdtSize) (descOffset s g) (descBytes s),
        .access (mallocSize (s.numGroups * sizeofGd)) (g * sizeofGd) sizeofGd]

/-- `ext4_gd_set_csum`. -/
def gdSetCsumEvents (s : Sb) (g : Nat) : List Event :=
  if s.hasCsum then
    [.access (mallocSize s.gdtSize) (descOffset s g) s.descSize, .access scratch 0 s.descSize,
      .access scratch 0x1e 2,
      .access (mallocSize s.gdtSize) (descOffset s g + 0x1e) 2]
  else []

/-- Index of an inode; `ino - 1` wraps. -/
def inodeIndex (ino : Nat) : Nat := (ino + 2 ^ 32 - 1) % 2 ^ 32

/-- The byte position, cut to 32 bits. `table` is `bg_inode_table`. -/
def ext4InodeBlock (s : Sb) (table ino : Nat) : Nat :=
  (table * s.blocksize + inodeIndex ino % s.inodesPerGroup * s.inodeSize) % 2 ^ 32

/-- `ext4_read_ino`, with the inode table the descriptor names. -/
def readInoEvents (s : Sb) (table ino : Nat) : List Event :=
  [.div s.inodesPerGroup,
    .access (mallocSize (s.numGroups * sizeofGd)) (inodeIndex ino / s.inodesPerGroup * sizeofGd)
      sizeofGd,
    .div s.blocksize,
    .access blockBuffer 0 (blockBytes s 1),
    .access blockBuffer (ext4InodeBlock s table ino % s.blocksize) s.inodeSize,
    .access inodeBuffer 0 s.inodeSize]

def perLeaf (s : Sb) : Nat := (s.blocksize - 12) / 12

/-- `ext4_write_extent_leaf` of `count` runs. -/
def writeExtentLeafEvents (s : Sb) (count : Nat) : List Event :=
  .access blockBuffer 0 s.blocksize :: .access blockBuffer 0 14 ::
    ((List.range count).map fun i => .access blockBuffer (12 + i * 12) 12) ++
    (if s.hasCsum then
      [.access blockBuffer 0 (12 + perLeaf s * 12 + 2),
        .access blockBuffer (12 + perLeaf s * 12 + 2) 4]
    else []) ++
    [.access blockBuffer 0 (blockBytes s 1)]

/-- What the driver does with an accepted superblock. -/
inductive Op
  | loadGdt
  | gdSetCsum
  | readIno (table ino : Nat)
  | writeExtentLeaf (count : Nat)

/-- `gdSetCsum` stands for the checksums of all groups. -/
def events (s : Sb) : Op → List Event
  | .loadGdt => loadGdtEvents s
  | .gdSetCsum => (List.range s.numGroups).flatMap (gdSetCsumEvents s)
  | .readIno table ino => readInoEvents s table ino
  | .writeExtentLeaf count => writeExtentLeafEvents s count

/-- No access outside its buffer, no division or shift out of range. -/
def Fine (evs : List Event) : Prop := ∀ e ∈ evs, e.Fine

/-- The tables the mount allocated fit the kernel heap. -/
def Allocated (s : Sb) : Prop :=
  mallocSize s.gdtSize ≤ memKheapSize ∧ mallocSize (s.numGroups * sizeofGd) ≤ memKheapSize

/-- Descriptors of at least 32 bytes in a table of whole blocks; at most 64 bytes for checksums; for
an inode an existing group, blocks up to 4096 bytes and an end in the buffer; for leaves blocks
below 4096 bytes, or 4096 without checksums. -/
def Fits (s : Sb) : Op → Prop
  | .loadGdt => s.numGroups * s.descSize < 2 ^ 32 ∧ 32 ≤ s.descSize ∧
      s.blocksize ∣ s.numGroups * s.descSize
  | .gdSetCsum => s.hasCsum = true →
      s.numGroups * s.descSize < 2 ^ 32 ∧ 32 ≤ s.descSize ∧ s.descSize ≤ 64
  | .readIno _ ino => s.inodesPerGroup ≠ 0 ∧
      (inodeIndex ino / s.inodesPerGroup + 1) * sizeofGd ≤ mallocSize (s.numGroups * sizeofGd) ∧
      s.blocksize ≤ 4096 ∧
      inodeIndex ino % s.inodesPerGroup * s.inodeSize % s.blocksize + s.inodeSize ≤ 4096
  | .writeExtentLeaf _ => s.blocksize ≤ 2048 ∨ s.blocksize = 4096 ∧ s.hasCsum = false

section Proofs

variable {s : Sb} {sb : Raw}

theorem fine_cons {e : Event} {evs : List Event} : Fine (e :: evs) ↔ e.Fine ∧ Fine evs := by
  unfold Fine
  exact List.forall_mem_cons

theorem fine_nil : Fine [] := by
  intro e member
  cases member

theorem fine_append {evs evs' : List Event} : Fine (evs ++ evs') ↔ Fine evs ∧ Fine evs' := by
  unfold Fine
  exact List.forall_mem_append

theorem fine_groups {n : Nat} {f : Nat → List Event} :
    Fine ((List.range n).flatMap f) ↔ ∀ g < n, Fine (f g) := by
  unfold Fine
  simp only [List.mem_flatMap, List.mem_range]
  constructor
  · intro all g below e member
    exact all e ⟨g, below, member⟩
  · rintro all e ⟨g, below, member⟩
    exact all g below e member

section

variable (ok : Accepted s)
include ok

theorem blocksize_facts :
    s.blocksize / 512 * 512 = s.blocksize ∧ 1024 ≤ s.blocksize ∧ s.blocksize ≤ 65536 ∧
      (2 ^ 32 : Nat) % s.blocksize = 0 := by
  obtain ⟨k, small, size⟩ := ok.blocksize
  rw [size]
  have each : ∀ k ≤ 6, 1024 * 2 ^ k / 512 * 512 = 1024 * 2 ^ k ∧ 1024 ≤ 1024 * 2 ^ k ∧
      1024 * 2 ^ k ≤ 65536 ∧ 2 ^ 32 % (1024 * 2 ^ k) = 0 := by
    decide
  exact each k small

theorem blockBytes_eq {count : Nat} (few : count * s.blocksize < 2 ^ 32) :
    blockBytes s count = count * s.blocksize := by
  obtain ⟨whole, -, -, -⟩ := blocksize_facts ok
  have product : count * (s.blocksize / 512) * 512 = count * s.blocksize := by
    rw [Nat.mul_assoc, whole]
  unfold blockBytes
  rw [Nat.mod_eq_of_lt (by omega), product]

/-- A table that wraps has a descriptor far beyond the heap. -/
theorem no_wrap (heap : Allocated s) {need : Nat}
    (each : ∀ g < s.numGroups, descOffset s g + need ≤ mallocSize s.gdtSize) :
    s.numGroups * s.descSize < 2 ^ 32 := by
  by_contra wraps
  obtain ⟨some_, small⟩ := ok.descSize
  have limit := heap.1
  have last : (2 ^ 32 - 1) / s.descSize < s.numGroups := by
    rw [Nat.div_lt_iff_lt_mul some_]
    omega
  have split := Nat.div_add_mod (2 ^ 32 - 1) s.descSize
  have rest := Nat.mod_lt (2 ^ 32 - 1) some_
  have bound := each _ last
  unfold descOffset at bound
  rw [Nat.mul_comm] at split
  rw [Nat.mod_eq_of_lt (by omega)] at bound
  unfold memKheapSize at limit
  omega

/-- The descriptors of a table that does not wrap. -/
theorem descOffset_eq (fits : s.numGroups * s.descSize < 2 ^ 32) {g : Nat}
    (below : g < s.numGroups) :
    descOffset s g = g * s.descSize ∧ g * s.descSize + s.descSize ≤ mallocSize s.gdtSize := by
  have next : (g + 1) * s.descSize ≤ s.numGroups * s.descSize :=
    Nat.mul_le_mul_right _ below
  rw [Nat.succ_mul] at next
  unfold descOffset mallocSize
  rw [ok.table, Nat.mod_mod, Nat.mod_eq_of_lt fits, Nat.mod_eq_of_lt (by omega)]
  exact ⟨rfl, next⟩

theorem mallocSize_table (fits : s.numGroups * s.descSize < 2 ^ 32) :
    mallocSize s.gdtSize = s.numGroups * s.descSize := by
  unfold mallocSize
  rw [ok.table, Nat.mod_mod, Nat.mod_eq_of_lt fits]

/-- The last group tells that descriptors have 32 bytes. -/
theorem desc_size (fits : s.numGroups * s.descSize < 2 ^ 32) {need : Nat}
    (each : ∀ g < s.numGroups, descOffset s g + need ≤ mallocSize s.gdtSize) :
    need ≤ s.descSize := by
  have groups := ok.groups.1
  have last := each (s.numGroups - 1) (by omega)
  rw [(descOffset_eq ok fits (by omega)).1, mallocSize_table ok fits] at last
  have next : s.numGroups * s.descSize = (s.numGroups - 1) * s.descSize + s.descSize := by
    rw [← Nat.succ_mul]
    congr 1
    omega
  omega

theorem table_read (heap : Allocated s) (fits : s.numGroups * s.descSize < 2 ^ 32) :
    0 + blockBytes s (gdtBlocks s) ≤ mallocSize s.gdtSize ↔
      s.blocksize ∣ s.numGroups * s.descSize := by
  obtain ⟨-, low, high, -⟩ := blocksize_facts ok
  have limit := heap.1
  have size := mallocSize_table ok fits
  rw [size] at limit
  unfold memKheapSize at limit
  have table : s.gdtSize = s.numGroups * s.descSize := by rw [ok.table, Nat.mod_eq_of_lt fits]
  have blocks : gdtBlocks s = (s.numGroups * s.descSize + s.blocksize - 1) / s.blocksize := by
    unfold gdtBlocks
    rw [table, Nat.mod_eq_of_lt (by omega)]
  have cover := Nat.div_add_mod (s.numGroups * s.descSize + s.blocksize - 1) s.blocksize
  have rest := Nat.mod_lt (s.numGroups * s.descSize + s.blocksize - 1) (by omega : 0 < s.blocksize)
  rw [← blocks, Nat.mul_comm] at cover
  have bytes : blockBytes s (gdtBlocks s) = gdtBlocks s * s.blocksize :=
    blockBytes_eq ok (by omega)
  rw [bytes, size]
  constructor
  · intro inside
    exact ⟨gdtBlocks s, by rw [Nat.mul_comm s.blocksize]; omega⟩
  rintro ⟨n, exact_⟩
  have same : gdtBlocks s = n := by
    rw [blocks, exact_]
    refine Nat.div_eq_of_lt_le ?_ ?_
    · rw [Nat.mul_comm n]
      omega
    · rw [Nat.succ_mul, Nat.mul_comm n]
      omega
  rw [same, exact_, Nat.mul_comm n]
  omega

theorem loadGdt_fine (heap : Allocated s) : Fine (loadGdtEvents s) ↔ Fits s .loadGdt := by
  have groups := ok.groups.1
  constructor
  · intro fine
    obtain ⟨read, rest⟩ := fine_cons.mp fine
    rw [fine_groups] at rest
    have each : ∀ g < s.numGroups, descOffset s g + 32 ≤ mallocSize s.gdtSize := by
      intro g below
      have desc : descOffset s g + descBytes s ≤ mallocSize s.gdtSize :=
        (fine_cons.mp (rest g below)).1
      unfold descBytes at desc
      split at desc <;> omega
    have fits := no_wrap ok heap each
    exact ⟨fits, desc_size ok fits each, (table_read ok heap fits).mp read⟩
  · rintro ⟨fits, size, whole⟩
    refine fine_cons.mpr ⟨(table_read ok heap fits).mpr whole, fine_groups.mpr fun g below => ?_⟩
    obtain ⟨offset, inside⟩ := descOffset_eq ok fits below
    have entries : s.numGroups * sizeofGd < 2 ^ 32 := by
      have limit := heap.1
      rw [mallocSize_table ok fits] at limit
      have wide : s.numGroups * 32 ≤ s.numGroups * s.descSize := Nat.mul_le_mul_left _ size
      unfold memKheapSize at limit
      unfold sizeofGd
      omega
    refine fine_cons.mpr ⟨?_, fine_cons.mpr ⟨?_, fine_nil⟩⟩
    · change descOffset s g + descBytes s ≤ mallocSize s.gdtSize
      unfold descBytes
      split <;> omega
    · change g * sizeofGd + sizeofGd ≤ mallocSize (s.numGroups * sizeofGd)
      unfold mallocSize
      rw [Nat.mod_eq_of_lt entries, ← Nat.succ_mul]
      exact Nat.mul_le_mul_right _ below

theorem gdSetCsum_fine (heap : Allocated s) : Fine (events s .gdSetCsum) ↔ Fits s .gdSetCsum := by
  have groups := ok.groups.1
  change Fine ((List.range s.numGroups).flatMap (gdSetCsumEvents s)) ↔ _
  rw [fine_groups]
  unfold gdSetCsumEvents Fits
  cases s.hasCsum with
  | false => simpa using fun _ _ => fine_nil
  | true =>
    simp only [if_true, forall_const, fine_cons]
    constructor
    · intro each
      have ends : ∀ g < s.numGroups, descOffset s g + 32 ≤ mallocSize s.gdtSize :=
        fun g below => (each g below).2.2.2.1
      have fits := no_wrap ok heap ends
      have small : 0 + s.descSize ≤ scratch := (each 0 groups).2.1
      unfold scratch at small
      exact ⟨fits, desc_size ok fits ends, by omega⟩
    · rintro ⟨fits, low, high⟩ g below
      obtain ⟨offset, inside⟩ := descOffset_eq ok fits below
      refine ⟨?_, ?_, ?_, ?_, fine_nil⟩
      · change descOffset s g + s.descSize ≤ mallocSize s.gdtSize
        omega
      · change 0 + s.descSize ≤ 64
        omega
      · change 0x1e + 2 ≤ 64
        omega
      · change descOffset s g + 0x1e + 2 ≤ mallocSize s.gdtSize
        omega

theorem inode_offset (table ino : Nat) :
    ext4InodeBlock s table ino % s.blocksize =
      inodeIndex ino % s.inodesPerGroup * s.inodeSize % s.blocksize := by
  obtain ⟨-, -, -, whole⟩ := blocksize_facts ok
  unfold ext4InodeBlock
  rw [Nat.mod_mod_of_dvd _ (Nat.dvd_of_mod_eq_zero whole), Nat.mul_comm table, Nat.mul_add_mod]

theorem readIno_fine (table ino : Nat) :
    Fine (events s (.readIno table ino)) ↔ Fits s (.readIno table ino) := by
  obtain ⟨-, low, high, -⟩ := blocksize_facts ok
  have size := ok.inodeSize
  have one : blockBytes s 1 = s.blocksize := by rw [blockBytes_eq ok (by omega), Nat.one_mul]
  have offset := inode_offset ok table ino
  change Fine (readInoEvents s table ino) ↔ _
  unfold readInoEvents Fits
  simp only [fine_cons, Event.Fine, one, offset, blockBuffer, inodeBuffer, Nat.zero_add]
  rw [Nat.succ_mul]
  constructor
  · rintro ⟨groups, entry, -, block, inode, -, -⟩
    exact ⟨groups, entry, block, inode⟩
  · rintro ⟨groups, entry, block, inode⟩
    exact ⟨groups, entry, by omega, block, inode, size.2, fine_nil⟩

theorem writeExtentLeaf_fine {count : Nat} (full : count ≤ perLeaf s) :
    Fine (events s (.writeExtentLeaf count)) ↔ Fits s (.writeExtentLeaf count) := by
  obtain ⟨k, small, size⟩ := ok.blocksize
  obtain ⟨-, low, high, -⟩ := blocksize_facts ok
  have one : blockBytes s 1 = s.blocksize := by rw [blockBytes_eq ok (by omega), Nat.one_mul]
  have sizes : s.blocksize ≤ 2048 ∨ s.blocksize = 4096 ∨ 4096 < s.blocksize := by
    rw [size]
    have each : ∀ k ≤ 6, 1024 * 2 ^ k ≤ 2048 ∨ 1024 * 2 ^ k = 4096 ∨ 4096 < 1024 * 2 ^ k := by
      decide
    exact each k small
  change Fine (writeExtentLeafEvents s count) ↔ _
  unfold writeExtentLeafEvents Fits
  rw [fine_append, fine_append, fine_cons, fine_cons, fine_cons]
  unfold perLeaf at full ⊢
  constructor
  · rintro ⟨⟨⟨block, -, -⟩, sums⟩, -⟩
    change 0 + s.blocksize ≤ 4096 at block
    cases csum : s.hasCsum with
    | false =>
      rcases sizes with short | page | long
      · exact .inl short
      · exact .inr ⟨page, rfl⟩
      · omega
    | true =>
      rw [csum, if_pos rfl] at sums
      have tail : 12 + (s.blocksize - 12) / 12 * 12 + 2 + 4 ≤ 4096 :=
        (fine_cons.mp (fine_cons.mp sums).2).1
      omega
  · intro fits
    refine ⟨⟨⟨?_, ?_, ?_⟩, ?_⟩, ?_, fine_nil⟩
    · change 0 + s.blocksize ≤ 4096
      omega
    · change 0 + 14 ≤ 4096
      omega
    · intro e member
      obtain ⟨i, below, rfl⟩ := List.mem_map.mp member
      rw [List.mem_range] at below
      change 12 + i * 12 + 12 ≤ 4096
      omega
    · cases csum : s.hasCsum with
      | false => exact fine_nil
      | true =>
        rw [csum] at fits
        have short : s.blocksize ≤ 2048 := fits.resolve_right (by simp)
        refine fine_cons.mpr ⟨?_, fine_cons.mpr ⟨?_, fine_nil⟩⟩
        · change 0 + (12 + (s.blocksize - 12) / 12 * 12 + 2) ≤ 4096
          omega
        · change 12 + (s.blocksize - 12) / 12 * 12 + 2 + 4 ≤ 4096
          omega
    · change 0 + blockBytes s 1 ≤ 4096
      omega

end

end Proofs

section Contract

variable {s : Sb} {sb : Raw} {op : Op}

/-- A leaf is written with no more runs than it has room for. -/
def Legal (s : Sb) : Op → Prop
  | .writeExtentLeaf count => count ≤ perLeaf s
  | _ => True

theorem loadSuper_fine (magic : rd16 sb 0x38 = ext4SuperMagic)
    (size : ¬ (blocksizeOf sb < 1024 ∨ 65536 < blocksizeOf sb)) :
    Fine (loadSuperEvents sb) ↔ rd32 sb 0x18 < 32 ∧ rd32 sb 0x20 ≠ 0 := by
  unfold loadSuperEvents
  rw [if_neg (not_not.mpr magic), if_neg size, fine_cons, fine_cons]
  exact ⟨fun fine => ⟨fine.1, fine.2.1⟩, fun fine => ⟨fine.1, fine.2, fine_nil⟩⟩

/-- `log` of the block size, blocks, blocks per group, inodes per group. -/
def rawOf (log blocks perGroup inodes : Nat) : Raw := fun o =>
  if o = 0x38 then 0x53
  else if o = 0x39 then 0xEF
  else if o = 0x18 then BitVec.ofNat 8 log
  else if 0x04 ≤ o ∧ o < 0x08 then BitVec.ofNat 8 (blocks / 256 ^ (o - 0x04))
  else if 0x20 ≤ o ∧ o < 0x24 then BitVec.ofNat 8 (perGroup / 256 ^ (o - 0x20))
  else if 0x28 ≤ o ∧ o < 0x2c then BitVec.ofNat 8 (inodes / 256 ^ (o - 0x28))
  else 0

/-- 1024-byte blocks, one group and 32-byte descriptors. -/
def oneGroup : Sb where
  blocksize := 1024
  inodeSize := 128
  inodesPerGroup := 16
  blocksPerGroup := 8192
  firstDataBlock := 0
  descSize := 32
  blocksCount := 4096
  inodesCount := 0
  freeBlocks := 0
  hasCsum := false
  numGroups := 1
  gdtBlock := 2
  gdtSize := 32

theorem oneGroup_loaded : ext4LoadSuper (rawOf 0 4096 8192 16) = some oneGroup := by
  decide +kernel

end Contract

end IcsOs.Ext4.Bounds
