/- GID: IcsOs/Fat/Files
   generality: I
   source: kernel/filesystem/fat12.c
   digest: Reading and writing byte ranges of a file along its cluster chain. -/

import Mathlib.Data.List.Nodup
import Mathlib.Tactic.Ring
import IcsOs.Fat.Table
import IcsOs.Lib.Overlay

set_option autoImplicit false

namespace IcsOs.Fat.Files

open List
open Fat.Table Lib.Overlay

/-- What of a directory entry leads to the file's clusters. -/
structure Dirent where
  stClust : Nat
  stClustMsw : Nat
  directory : Bool

/-- Where the last write ended, kept beside the cached table. -/
structure Seq where
  seqDir : Nat
  seqOff : Nat
  seqBlock : Nat
  seqClust : Nat

def bytesPerCluster (bpb : Bpb) : Nat := bpb.sectorsPerCluster * 512

/-- The first copy of the table on the device. -/
def fatBytes (bpb : Bpb) (disk : Nat → Byte) : Nat → Byte := fun i =>
  disk (bpb.numBootSectors * 512 + i)

/-- The cached copy; none on a 32-bit volume, where entries are read from the device. -/
def fatFor (bpb : Bpb) (disk : Nat → Byte) : Option (Nat → Byte) :=
  if fatGetFatType bpb = .fat32 then none else some (fatBytes bpb disk)

def nextCluster (bpb : Bpb) (fat : Option (Nat → Byte)) (disk : Nat → Byte) (cluster : Nat) : Nat :=
  obtainNextCluster (fatGetFatType bpb) (fat.getD (fatBytes bpb disk)) cluster

def eoc (bpb : Bpb) : Nat := fatGetEoc (fatGetFatType bpb)

/-- Where a cluster begins on the device. -/
def clusterAddr (bpb : Bpb) (cluster : Nat) : Nat := clustertoblock bpb cluster * 512

/-- Offset in the cluster, offset in the caller's buffer, and length. -/
def part (bpc start end_ block ofs : Nat) : Nat × Nat × Nat :=
  if block = start / bpc ∧ block = end_ / bpc then (start % bpc, 0, end_ - start + 1)
  else if block = start / bpc then (start % bpc, 0, bpc - start % bpc)
  else if block = end_ / bpc then (0, ofs, end_ % bpc + 1)
  else (0, ofs, bpc)

/-- The bytes, and the writes asked, as first sector and number of sectors. -/
structure Device where
  bytes : Nat → Byte
  writes : List (Nat × Nat)

/-- `dex32_requestIO` for a write, up to its end. -/
def requestWrite (dev : Device) (sector count : Nat) (buf : Nat → Byte) : Device where
  bytes := overlay dev.bytes (sector * 512) (slice buf 0 (count * 512))
  writes := (sector, count) :: dev.writes

/-- New bytes for a cluster; the first and last are read before. -/
def writeCluster (bpb : Bpb) (data : List Byte) (start end_ : Nat) (dev : Device)
    (temp : Nat → Byte) (cluster block ofs : Nat) : Device × (Nat → Byte) × Nat :=
  let bpc := bytesPerCluster bpb
  let (at_, from_, len) := part bpc start end_ block ofs
  let old := if block = start / bpc ∨ block = end_ / bpc then
      fun i => dev.bytes (clusterAddr bpb cluster + i)
    else temp
  let new := overlay old at_ ((data.drop from_).take len)
  (requestWrite dev (clustertoblock bpb cluster) bpb.sectorsPerCluster new, new, from_ + len)

/-- `writefile12EX2` up to the last block, with the cluster it ends at. -/
def writeLoop (bpb : Bpb) (data : List Byte) (start end_ : Nat) (fat : Option (Nat → Byte))
    (dev : Device) (temp : Nat → Byte) (cluster block ofs : Nat) : Device × Nat :=
  let (dev', temp', ofs') :=
    if start / bytesPerCluster bpb ≤ block then
      writeCluster bpb data start end_ dev temp cluster block ofs
    else (dev, temp, ofs)
  if end_ / bytesPerCluster bpb ≤ block then (dev', cluster)
  else
    let next := nextCluster bpb fat dev'.bytes cluster
    if next < eoc bpb then
      writeLoop bpb data start end_ fat dev' temp' next (block + 1) ofs'
    else (dev', next)
termination_by end_ / bytesPerCluster bpb - block
decreasing_by omega

/-- At the remembered cluster, if the write goes on where the last one ended. -/
def writeFrom (bpb : Bpb) (dir : Dirent) (dirId start : Nat) (seq : Option Seq) : Nat × Nat :=
  match seq with
  | none => (dir.stClust, 0)
  | some s =>
    if dir.directory = false ∧ s.seqDir = dirId ∧ s.seqOff = start ∧
        s.seqBlock = start / bytesPerCluster bpb ∧ s.seqClust ≠ 0 ∧ s.seqClust < eoc bpb then
      (s.seqClust, start / bytesPerCluster bpb)
    else (dir.stClust, 0)

/-- What is remembered after a write that ended at the cluster. -/
def seqAfter (bpb : Bpb) (dir : Dirent) (dirId end_ : Nat) (fat : Option (Nat → Byte))
    (disk : Nat → Byte) (cluster : Nat) (seq : Option Seq) : Option Seq :=
  let bpc := bytesPerCluster bpb
  match seq with
  | none => none
  | some s =>
    if dir.directory then some s
    else if (end_ + 1) / bpc = end_ / bpc then some ⟨dirId, end_ + 1, end_ / bpc, cluster⟩
    else some ⟨dirId, end_ + 1, end_ / bpc + 1, nextCluster bpb fat disk cluster⟩

/-- Of the data to the range, on a device, with what is remembered. -/
def writefile12EX2 (bpb : Bpb) (dir : Dirent) (dirId : Nat) (data : List Byte) (start end_ : Nat)
    (dev : Device) (seq : Option Seq) : Device × Option Seq :=
  if dir.stClust = 0 then (dev, seq)
  else
    let fat := fatFor bpb dev.bytes
    let (cluster, block) := writeFrom bpb dir dirId start seq
    let (dev', last) := writeLoop bpb data start end_ fat dev (fun _ => 0) cluster block 0
    (dev', seqAfter bpb dir dirId end_ fat dev'.bytes last seq)

/-- The sector `obtain_next_cluster` reads where there is no cached table. -/
def entryReads (bpb : Bpb) (fat : Option (Nat → Byte)) (cluster : Nat) : List (Nat × Nat) :=
  if fat.isNone then [(bpb.numBootSectors + cluster / 128, 1)] else []

/-- Clusters side by side on the device: the last, their number, and the reads made. -/
def growRun (bpb : Bpb) (fat : Option (Nat → Byte)) (disk : Nat → Byte)
    (runLba endblock block : Nat) : Nat → Nat → Nat → Nat × Nat × List (Nat × Nat)
  | 0, peek, run => (peek, run, [])
  | room + 1, peek, run =>
    let next := nextCluster bpb fat disk peek
    let read := entryReads bpb fat peek
    if eoc bpb ≤ next then (peek, run, read)
    else if endblock < block + run then (peek, run, read)
    else if clustertoblock bpb next ≠ runLba + run * bpb.sectorsPerCluster then (peek, run, read)
    else
      let (peek', run', reads) := growRun bpb fat disk runLba endblock block room next (run + 1)
      (peek', run', read ++ reads)

/-- The clusters of a run are copied out one by one. -/
def copyRun (bpc start end_ : Nat) (temp : Nat → Byte) (block : Nat) :
    List Nat → (Nat → Byte) × Nat → (Nat → Byte) × Nat
  | [], state => state
  | i :: rest, (buf, ofs) =>
    let (at_, dest, len) := part bpc start end_ (block + i) ofs
    copyRun bpc start end_ temp block rest
      (overlay buf dest (slice temp (i * bpc + at_) len), dest + len)

/-- A run straight into the caller's buffer, or through another one at an end of the range. -/
def readRun (bpb : Bpb) (start end_ : Nat) (disk : Nat → Byte) (runLba run block : Nat)
    (buf : Nat → Byte) (ofs : Nat) : (Nat → Byte) × Nat :=
  let bpc := bytesPerCluster bpb
  if start / bpc < block ∧ block + run - 1 < end_ / bpc then
    (overlay buf ofs (slice disk (runLba * 512) (run * bpc)), ofs + run * bpc)
  else copyRun bpc start end_ (fun i => disk (runLba * 512 + i)) block (List.range run) (buf, ofs)

/-- Every round of `loadfile12EX2` passes at least one block. -/
def readLoop (bpb : Bpb) (start end_ : Nat) (fat : Option (Nat → Byte)) (disk : Nat → Byte) :
    Nat → Nat → Nat → (Nat → Byte) → Nat → (Nat → Byte) × List (Nat × Nat)
  | 0, _, _, buf, _ => (buf, [])
  | rounds + 1, cluster, block, buf, ofs =>
    let bpc := bytesPerCluster bpb
    if eoc bpb ≤ cluster then (buf, [])
    else if block < start / bpc then
      let (buf', reads) := readLoop bpb start end_ fat disk rounds
        (nextCluster bpb fat disk cluster) (block + 1) buf ofs
      (buf', entryReads bpb fat cluster ++ reads)
    else if end_ / bpc < block then (buf, [])
    else
      let maxRun := max (64 / bpb.sectorsPerCluster) 1
      let runLba := clustertoblock bpb cluster
      let (peek, run, walked) :=
        growRun bpb fat disk runLba (end_ / bpc) block (maxRun - 1) cluster 1
      let (buf', ofs') := readRun bpb start end_ disk runLba run block buf ofs
      let request := (runLba, run * bpb.sectorsPerCluster)
      if end_ / bpc ≤ block + run - 1 then (buf', walked ++ [request])
      else
        let (buf'', reads) := readLoop bpb start end_ fat disk rounds
          (nextCluster bpb fat disk peek) (block + run) buf' ofs'
        (buf'', walked ++ request :: entryReads bpb fat peek ++ reads)

/-- The reads of `loadfat`, where the table is not cached yet. -/
def tableReads (bpb : Bpb) : List (Nat × Nat) :=
  if fatGetFatType bpb = .fat32 then []
  else (List.range ((fatSectorsPerFat bpb + 239) / 240)).map fun k =>
    (bpb.numBootSectors + k * 240, min (fatSectorsPerFat bpb - k * 240) 240)

/-- `loadfile12EX2` of the range into a buffer, and the reads asked, as first sector and number. -/
def loadfile12EX2 (bpb : Bpb) (dir : Dirent) (start end_ : Nat) (disk buf : Nat → Byte) :
    (Nat → Byte) × List (Nat × Nat) :=
  let cluster := dir.stClustMsw * 65536 + dir.stClust
  if cluster = 0 ∨ end_ < start ∨ bpb.sectorsPerCluster = 0 then (buf, [])
  else
    let (buf', reads) := readLoop bpb start end_ (fatFor bpb disk) disk
      (end_ / bytesPerCluster bpb + 1) cluster 0 buf 0
    (buf', tableReads bpb ++ reads)

/-- The byte after the entry of a cluster in the table. -/
def entryEnd : FatType → Nat → Nat
  | .fat12, c => c * 3 / 2 + 2
  | .fat16, c => 2 * c + 2
  | .fat32, c => 4 * c + 4

/-- 512-byte sectors, a table with an entry for every cluster, and no cluster number an end mark. -/
structure Geometry (bpb : Bpb) : Prop where
  sector : bpb.bytesPerSector = 512
  spc : 0 < bpb.sectorsPerCluster
  fats : 0 < bpb.numFats
  table : ∀ c, c < fatClusterCount bpb + 2 →
    entryEnd (fatGetFatType bpb) c ≤ fatSectorsPerFat bpb * 512
  numbers : fatClusterCount bpb + 2 ≤ eoc bpb

/-- The geometry of a volume of two clusters. -/
def smallBpb : Bpb where
  bytesPerSector := 512
  sectorsPerCluster := 1
  numBootSectors := 1
  numFats := 1
  numRootDirEnts := 16
  totalSectors := 5
  sectorsPerFat := 1
  fatsz32 := 0

theorem smallBpb_geometry : Geometry smallBpb where
  sector := rfl
  spc := by decide
  fats := by decide
  table := by
    have type : fatGetFatType smallBpb = .fat12 := by decide
    have size : fatSectorsPerFat smallBpb * 512 = 512 := by decide
    have count : fatClusterCount smallBpb = 2 := by decide
    intro c inside
    rw [type, size]
    dsimp only [entryEnd]
    omega
  numbers := by decide

/-- The first byte of the data clusters. -/
def dataStart (bpb : Bpb) : Nat :=
  (bpb.numBootSectors + bpb.numFats * fatSectorsPerFat bpb +
    if bpb.numRootDirEnts ≠ 0 then rootSectors bpb else 0) * 512

section Places

variable {bpb : Bpb} {disk disk' : Nat → Byte} {c c' : Nat}

theorem bytesPerCluster_pos (geometry : Geometry bpb) : 0 < bytesPerCluster bpb :=
  Nat.mul_pos geometry.spc (by decide)

theorem clusterAddr_eq (bpb : Bpb) (data : 2 ≤ c) :
    clusterAddr bpb c = dataStart bpb + (c - 2) * bytesPerCluster bpb := by
  obtain ⟨k, rfl⟩ := Nat.exists_eq_add_of_le data
  have shift : ∀ base, base + (2 + k) * bpb.sectorsPerCluster - 2 * bpb.sectorsPerCluster =
      base + k * bpb.sectorsPerCluster := by
    intro base
    rw [Nat.add_mul]
    omega
  unfold clusterAddr clustertoblock dataStart bytesPerCluster
  rw [Nat.add_sub_cancel_left]
  dsimp only
  split_ifs
  · rw [shift]
    ring
  · rw [shift]
    ring

theorem clusterAddr_before (bpb : Bpb) (order : c < c') (data : 3 ≤ c') :
    clusterAddr bpb c + bytesPerCluster bpb ≤ clusterAddr bpb c' := by
  rw [clusterAddr_eq bpb (show 2 ≤ c' by omega)]
  by_cases isData : 2 ≤ c
  · have far := Nat.mul_le_mul_right (bytesPerCluster bpb) (show c - 2 + 1 ≤ c' - 2 by omega)
    rw [Nat.add_mul, Nat.one_mul] at far
    rw [clusterAddr_eq bpb isData]
    omega
  have far := Nat.mul_le_mul_right (bytesPerCluster bpb) (show 1 ≤ c' - 2 by omega)
  have low := Nat.mul_le_mul_right bpb.sectorsPerCluster (show c ≤ 2 by omega)
  have start : clusterAddr bpb c ≤ dataStart bpb := by
    unfold clusterAddr clustertoblock dataStart
    refine Nat.mul_le_mul_right 512 ?_
    dsimp only
    split_ifs
    · omega
    · omega
  omega

theorem clusterAddr_apart (bpb : Bpb) (data : 2 ≤ c) (data' : 2 ≤ c') (apart : c ≠ c') :
    clusterAddr bpb c + bytesPerCluster bpb ≤ clusterAddr bpb c' ∨
      clusterAddr bpb c' + bytesPerCluster bpb ≤ clusterAddr bpb c := by
  rw [clusterAddr_eq bpb data, clusterAddr_eq bpb data']
  rcases Nat.lt_or_gt_of_ne apart with less | more
  · left
    have far := Nat.mul_le_mul_right (bytesPerCluster bpb) (show c - 2 + 1 ≤ c' - 2 by omega)
    rw [Nat.add_mul, Nat.one_mul] at far
    omega
  · right
    have far := Nat.mul_le_mul_right (bytesPerCluster bpb) (show c' - 2 + 1 ≤ c - 2 by omega)
    rw [Nat.add_mul, Nat.one_mul] at far
    omega

theorem obtainNextCluster_congr {fat fat' : Nat → Byte} (fatType : FatType) {limit : Nat}
    (within : entryEnd fatType c ≤ limit) (same : ∀ i, i < limit → fat' i = fat i) :
    obtainNextCluster fatType fat' c = obtainNextCluster fatType fat c := by
  have words : ∀ x, x + 2 ≤ limit → word fat' x = word fat x := by
    intro x fits
    unfold word
    rw [same x (by omega), same (x + 1) (by omega)]
  cases fatType with
  | fat12 | fat16 =>
    unfold obtainNextCluster
    rw [words _ within]
  | fat32 =>
    change 4 * c + 4 ≤ limit at within
    unfold obtainNextCluster
    dsimp only
    rw [words _ (by omega), words _ (by omega)]

/-- Devices that agree before the data clusters. -/
def SameTable (bpb : Bpb) (disk disk' : Nat → Byte) : Prop :=
  ∀ a, a < dataStart bpb → disk' a = disk a

/-- The links of a volume do not depend on its data clusters. -/
theorem nextCluster_same (geometry : Geometry bpb) (same : SameTable bpb disk disk')
    (inside : c < fatClusterCount bpb + 2) :
    nextCluster bpb none disk' c = nextCluster bpb none disk c := by
  refine obtainNextCluster_congr _ (geometry.table c inside) ?_
  intro i within
  have table : bpb.numBootSectors * 512 + i < dataStart bpb := by
    have copies := Nat.mul_le_mul_right (fatSectorsPerFat bpb) geometry.fats
    unfold dataStart
    omega
  exact same _ table

theorem nextCluster_eq (geometry : Geometry bpb) (same : SameTable bpb disk disk')
    (inside : c < fatClusterCount bpb + 2) :
    nextCluster bpb (fatFor bpb disk) disk' c = nextCluster bpb none disk c := by
  unfold fatFor
  split_ifs
  · exact nextCluster_same geometry same inside
  · rfl

end Places

/-- Links lead from one cluster to the next, and the last has an end mark. -/
structure Chain (bpb : Bpb) (disk : Nat → Byte) (start : Nat) (chain : List Nat) : Prop where
  first : chain[0]? = some start
  inside : ∀ (i c : Nat), chain[i]? = some c → 2 ≤ c ∧ c < fatClusterCount bpb + 2
  link : ∀ (i c c' : Nat), chain[i]? = some c → chain[i + 1]? = some c' →
    nextCluster bpb none disk c = c'
  last : ∀ (i c : Nat), chain[i]? = some c → chain[i + 1]? = none →
    eoc bpb ≤ nextCluster bpb none disk c
  nodup : chain.Nodup

/-- Where a byte of the file lies. -/
def fileAddr (bpb : Bpb) (chain : List Nat) (i : Nat) : Nat :=
  clusterAddr bpb ((chain[i / bytesPerCluster bpb]?).getD 0) + i % bytesPerCluster bpb

def fileView (bpb : Bpb) (chain : List Nat) (disk : Nat → Byte) : Nat → Byte := fun i =>
  disk (fileAddr bpb chain i)

section Views

variable {bpb : Bpb} {disk disk' : Nat → Byte} {first c block i off : Nat} {chain : List Nat}

theorem fileAddr_eq (there : chain[i / bytesPerCluster bpb]? = some c) :
    fileAddr bpb chain i = clusterAddr bpb c + i % bytesPerCluster bpb := by
  unfold fileAddr
  rw [there]
  rfl

/-- The address of a byte given by its block and its offset there. -/
theorem fileAddr_block (geometry : Geometry bpb) (there : chain[block]? = some c)
    (inside : off < bytesPerCluster bpb) :
    fileAddr bpb chain (block * bytesPerCluster bpb + off) = clusterAddr bpb c + off := by
  have quotient : (block * bytesPerCluster bpb + off) / bytesPerCluster bpb = block := by
    rw [Nat.add_comm, Nat.add_mul_div_right _ _ (bytesPerCluster_pos geometry),
      Nat.div_eq_of_lt inside, Nat.zero_add]
  have remainder : (block * bytesPerCluster bpb + off) % bytesPerCluster bpb = off := by
    rw [Nat.add_comm, Nat.add_mul_mod_self_right, Nat.mod_eq_of_lt inside]
  rw [fileAddr_eq (c := c) (by rw [quotient]; exact there), remainder]

theorem exists_block (geometry : Geometry bpb) (inside : i < chain.length * bytesPerCluster bpb) :
    ∃ block off c, i = block * bytesPerCluster bpb + off ∧ off < bytesPerCluster bpb ∧
      chain[block]? = some c := by
  have pos := bytesPerCluster_pos geometry
  have within : i / bytesPerCluster bpb < chain.length := (Nat.div_lt_iff_lt_mul pos).2 inside
  refine ⟨i / bytesPerCluster bpb, i % bytesPerCluster bpb, _, ?_, Nat.mod_lt i pos,
    getElem?_eq_getElem within⟩
  rw [Nat.mul_comm]
  exact (Nat.div_add_mod i (bytesPerCluster bpb)).symm

theorem block_inside (there : chain[block]? = some c) (inside : off < bytesPerCluster bpb) :
    block * bytesPerCluster bpb + off < chain.length * bytesPerCluster bpb := by
  obtain ⟨within, -⟩ := List.getElem?_eq_some_iff.1 there
  have whole := Nat.mul_le_mul_right (bytesPerCluster bpb) (show block + 1 ≤ chain.length by omega)
  rw [Nat.add_mul, Nat.one_mul] at whole
  omega

theorem Chain.dataStart_le (isChain : Chain bpb disk first chain) (geometry : Geometry bpb)
    (inside : i < chain.length * bytesPerCluster bpb) : dataStart bpb ≤ fileAddr bpb chain i := by
  obtain ⟨block, off, c, rfl, small, there⟩ := exists_block geometry inside
  rw [fileAddr_block geometry there small, clusterAddr_eq bpb (isChain.inside block c there).1]
  omega

theorem Chain.ne (isChain : Chain bpb disk first chain) {block' c' : Nat}
    (there : chain[block]? = some c) (there' : chain[block']? = some c') (apart : block ≠ block') :
    c ≠ c' := by
  rintro rfl
  obtain ⟨within, -⟩ := List.getElem?_eq_some_iff.1 there
  exact apart ((getElem?_inj within isChain.nodup).1 (there.trans there'.symm))

theorem fileView_overlay (geometry : Geometry bpb) (isChain : Chain bpb disk first chain)
    (there : chain[block]? = some c) {values : List Byte}
    (fits : off + values.length ≤ bytesPerCluster bpb)
    (inside : i < chain.length * bytesPerCluster bpb) :
    fileView bpb chain (overlay disk' (clusterAddr bpb c + off) values) i =
      overlay (fileView bpb chain disk') (block * bytesPerCluster bpb + off) values i := by
  obtain ⟨block', off', c', rfl, small, there'⟩ := exists_block geometry inside
  have place := fileAddr_block geometry there' small
  unfold fileView
  by_cases same : block' = block
  · subst same
    obtain rfl : c' = c := Option.some.inj (there'.symm.trans there)
    simp only [overlay]
    rw [place]
    by_cases begun : off ≤ off'
    · rw [if_pos (by omega), if_pos (by omega), Nat.add_sub_add_left, Nat.add_sub_add_left]
    · rw [if_neg (by omega), if_neg (by omega)]
  · have numbers := clusterAddr_apart bpb (isChain.inside _ _ there').1
      (isChain.inside _ _ there).1 (isChain.ne there' there same)
    rw [place]
    have left : overlay disk' (clusterAddr bpb c + off) values (clusterAddr bpb c' + off') =
        disk' (clusterAddr bpb c' + off') := by
      rcases numbers with before | after
      · exact overlay_before _ _ (by omega)
      · exact overlay_after _ (by omega)
    have right : overlay (fun i => disk' (fileAddr bpb chain i))
        (block * bytesPerCluster bpb + off) values (block' * bytesPerCluster bpb + off') =
        disk' (fileAddr bpb chain (block' * bytesPerCluster bpb + off')) := by
      rcases Nat.lt_or_gt_of_ne same with before | after
      · have far := Nat.mul_le_mul_right (bytesPerCluster bpb) (show block' + 1 ≤ block by omega)
        rw [Nat.add_mul, Nat.one_mul] at far
        exact overlay_before _ _ (by omega)
      · have far := Nat.mul_le_mul_right (bytesPerCluster bpb) (show block + 1 ≤ block' by omega)
        rw [Nat.add_mul, Nat.one_mul] at far
        exact overlay_after _ (by omega)
    rw [left, right, place]

/-- and changes nothing else. -/
theorem overlay_outside (geometry : Geometry bpb) (there : chain[block]? = some c) {a : Nat}
    {values : List Byte} (fits : off + values.length ≤ bytesPerCluster bpb)
    (outside : ∀ i, i < chain.length * bytesPerCluster bpb → fileAddr bpb chain i ≠ a) :
    overlay disk (clusterAddr bpb c + off) values a = disk a := by
  by_cases before : a < clusterAddr bpb c + off
  · exact overlay_before _ _ before
  refine overlay_after _ ?_
  by_contra inside
  have small : a - clusterAddr bpb c < bytesPerCluster bpb := by omega
  refine outside _ (block_inside there small) ?_
  rw [fileAddr_block geometry there small]
  omega

end Views

section Pieces

variable {bpc start end_ block ofs : Nat}

/-- How much of a range lies before a block. -/
def reach (bpc start end_ block : Nat) : Nat := min (end_ + 1) (max start (block * bpc))

theorem part_eq (pos : 0 < bpc) (ordered : start ≤ end_) (first : start / bpc ≤ block)
    (last : block ≤ end_ / bpc) (done : ofs = reach bpc start end_ block - start) :
    part bpc start end_ block ofs =
      (reach bpc start end_ block - block * bpc, reach bpc start end_ block - start,
        reach bpc start end_ (block + 1) - reach bpc start end_ block) := by
  have low : start < (block + 1) * bpc := (Nat.div_lt_iff_lt_mul pos).1 (by omega)
  have high : block * bpc ≤ end_ := (Nat.le_div_iff_mul_le pos).1 last
  have next : (block + 1) * bpc = block * bpc + bpc := by rw [Nat.add_mul, Nat.one_mul]
  have startMod : block = start / bpc → start % bpc = start - block * bpc ∧
    block * bpc ≤ start := by
    rintro rfl
    exact ⟨Nat.mod_eq_sub_div_mul, Nat.div_mul_le_self start bpc⟩
  have endMod : block = end_ / bpc →
      end_ % bpc = end_ - block * bpc ∧ end_ < (block + 1) * bpc := by
    rintro rfl
    exact ⟨Nat.mod_eq_sub_div_mul, (Nat.div_lt_iff_lt_mul pos).1 (by omega)⟩
  have startLater : block ≠ start / bpc → start < block * bpc := fun other =>
    (Nat.div_lt_iff_lt_mul pos).1 (by omega)
  have endLater : block ≠ end_ / bpc → (block + 1) * bpc ≤ end_ := fun other =>
    (Nat.le_div_iff_mul_le pos).1 (by omega)
  unfold part
  unfold reach at done ⊢
  split_ifs with both atStart atEnd
  · obtain ⟨startRest, startLow⟩ := startMod both.1
    obtain ⟨endRest, endHigh⟩ := endMod both.2
    simp only [Prod.mk.injEq]
    omega
  · obtain ⟨startRest, startLow⟩ := startMod atStart
    have endHigh := endLater fun atEnd => both ⟨atStart, atEnd⟩
    simp only [Prod.mk.injEq]
    omega
  · obtain ⟨endRest, endHigh⟩ := endMod atEnd
    have startLow := startLater atStart
    simp only [Prod.mk.injEq]
    omega
  · have startLow := startLater atStart
    have endHigh := endLater atEnd
    simp only [Prod.mk.injEq]
    omega

theorem reach_le (pos : 0 < bpc) (ordered : start ≤ end_) (first : start / bpc ≤ block)
    (last : block ≤ end_ / bpc) :
    start ≤ reach bpc start end_ block ∧ block * bpc ≤ reach bpc start end_ block ∧
      reach bpc start end_ block ≤ reach bpc start end_ (block + 1) ∧
      reach bpc start end_ (block + 1) ≤ end_ + 1 ∧
      reach bpc start end_ (block + 1) ≤ block * bpc + bpc := by
  have low : start < (block + 1) * bpc := (Nat.div_lt_iff_lt_mul pos).1 (by omega)
  have high : block * bpc ≤ end_ := (Nat.le_div_iff_mul_le pos).1 last
  unfold reach
  rw [Nat.add_mul, Nat.one_mul] at low ⊢
  omega

theorem reach_before (pos : 0 < bpc) (ordered : start ≤ end_) (before : block ≤ start / bpc) :
    reach bpc start end_ block = start := by
  have low : block * bpc ≤ start := (Nat.le_div_iff_mul_le pos).1 before
  unfold reach
  omega

/-- and after the last one all of it. -/
theorem reach_after (pos : 0 < bpc) (after : end_ / bpc < block) :
    reach bpc start end_ block = end_ + 1 := by
  have high : end_ < block * bpc := (Nat.div_lt_iff_lt_mul pos).1 after
  unfold reach
  omega

end Pieces

/-- The bytes are written up to a position, and nothing else on the device is. -/
structure Progress (bpb : Bpb) (chain : List Nat) (data : List Byte) (start : Nat)
    (dev dev' : Device) (pos : Nat) : Prop where
  bytes : ∀ i, i < chain.length * bytesPerCluster bpb → fileView bpb chain dev'.bytes i =
    overlay (fileView bpb chain dev.bytes) start (data.take (pos - start)) i
  rest : ∀ a, (∀ i, i < chain.length * bytesPerCluster bpb → fileAddr bpb chain i ≠ a) →
    dev'.bytes a = dev.bytes a
  writes : ∀ w ∈ dev'.writes, w ∈ dev.writes ∨
    ∃ c ∈ chain, w = (clustertoblock bpb c, bpb.sectorsPerCluster)

section Writing

variable {bpb : Bpb} {chain : List Nat} {data : List Byte} {start end_ first block c : Nat}
  {dev dev' : Device}

theorem Progress.refl (bpb : Bpb) (chain : List Nat) (data : List Byte) (start : Nat)
    (dev : Device) : Progress bpb chain data start dev dev start where
  bytes := by
    intro i _
    rw [Nat.sub_self, take_zero, overlay_nil]
  rest := fun _ _ => rfl
  writes := fun _ old => Or.inl old

theorem Progress.sameTable {pos : Nat} {disk : Nat → Byte}
    (progress : Progress bpb chain data start dev dev' pos) (geometry : Geometry bpb)
    (isChain : Chain bpb disk first chain) :
    SameTable bpb dev.bytes dev'.bytes := by
  intro a before
  refine progress.rest a fun i inside same => ?_
  have after := isChain.dataStart_le geometry inside
  omega

def piece (bpb : Bpb) (data : List Byte) (start end_ block : Nat) : List Byte :=
  let from_ := reach (bytesPerCluster bpb) start end_ block
  (data.drop (from_ - start)).take (reach (bytesPerCluster bpb) start end_ (block + 1) - from_)

theorem length_piece (geometry : Geometry bpb) (size : data.length = end_ - start + 1)
    (ordered : start ≤ end_) (begun : start / bytesPerCluster bpb ≤ block)
    (inside : block ≤ end_ / bytesPerCluster bpb) :
    (piece bpb data start end_ block).length = reach (bytesPerCluster bpb) start end_ (block + 1) -
      reach (bytesPerCluster bpb) start end_ block := by
  have bounds := reach_le (bytesPerCluster_pos geometry) ordered begun inside
  unfold piece
  rw [length_take, length_drop, size]
  omega

/-- The device with a block's new bytes in its cluster. -/
def written (bpb : Bpb) (data : List Byte) (start end_ : Nat) (dev : Device) (c block : Nat) :
    Device where
  bytes := overlay dev.bytes (clusterAddr bpb c +
      (reach (bytesPerCluster bpb) start end_ block - block * bytesPerCluster bpb))
    (piece bpb data start end_ block)
  writes := (clustertoblock bpb c, bpb.sectorsPerCluster) :: dev.writes

section

variable (geometry : Geometry bpb)
include geometry

theorem piece_covers (size : data.length = end_ - start + 1) (ordered : start ≤ end_)
    (begun : start / bytesPerCluster bpb < block) (inside : block < end_ / bytesPerCluster bpb) :
    (piece bpb data start end_ block).length = bytesPerCluster bpb ∧
      reach (bytesPerCluster bpb) start end_ block - block * bytesPerCluster bpb = 0 := by
  have pos := bytesPerCluster_pos geometry
  have startLow : start < block * bytesPerCluster bpb := (Nat.div_lt_iff_lt_mul pos).1 begun
  have endHigh : (block + 1) * bytesPerCluster bpb ≤ end_ := (Nat.le_div_iff_mul_le pos).1 inside
  rw [length_piece geometry size ordered (by omega) (by omega)]
  unfold reach
  rw [Nat.add_mul, Nat.one_mul] at endHigh ⊢
  omega

theorem requestWrite_eq (size : data.length = end_ - start + 1) (ordered : start ≤ end_)
    (begun : start / bytesPerCluster bpb ≤ block) (inside : block ≤ end_ / bytesPerCluster bpb)
    (dev : Device) (temp : Nat → Byte) (c : Nat) :
    requestWrite dev (clustertoblock bpb c) bpb.sectorsPerCluster
        (overlay (if block = start / bytesPerCluster bpb ∨ block = end_ / bytesPerCluster bpb then
            fun i => dev.bytes (clusterAddr bpb c + i) else temp)
          (reach (bytesPerCluster bpb) start end_ block - block * bytesPerCluster bpb)
          (piece bpb data start end_ block)) =
      written bpb data start end_ dev c block := by
  have bounds := reach_le (bytesPerCluster_pos geometry) ordered begun inside
  have long := length_piece geometry size ordered begun inside
  have count : bpb.sectorsPerCluster * 512 = bytesPerCluster bpb := rfl
  unfold requestWrite written
  rw [count, Device.mk.injEq]
  refine ⟨?_, rfl⟩
  change overlay dev.bytes (clusterAddr bpb c) _ = _
  split_ifs with edge
  · exact overlay_through dev.bytes _ (by omega)
  have later : start / bytesPerCluster bpb < block := by omega
  have sooner : block < end_ / bytesPerCluster bpb := by omega
  obtain ⟨whole, here⟩ := piece_covers geometry size ordered later sooner
  rw [here, Nat.add_zero]
  nth_rewrite 1 [← whole]
  rw [slice_overlay]

theorem writeCluster_eq (size : data.length = end_ - start + 1) (ordered : start ≤ end_)
    (begun : start / bytesPerCluster bpb ≤ block) (inside : block ≤ end_ / bytesPerCluster bpb)
    (dev : Device) (temp : Nat → Byte) (c : Nat) :
    ∃ temp', writeCluster bpb data start end_ dev temp c block
        (reach (bytesPerCluster bpb) start end_ block - start) =
      (written bpb data start end_ dev c block, temp',
        reach (bytesPerCluster bpb) start end_ (block + 1) - start) := by
  have pos := bytesPerCluster_pos geometry
  have bounds := reach_le pos ordered begun inside
  have after : reach (bytesPerCluster bpb) start end_ block - start +
      (reach (bytesPerCluster bpb) start end_ (block + 1) -
        reach (bytesPerCluster bpb) start end_ block) =
      reach (bytesPerCluster bpb) start end_ (block + 1) - start := by omega
  have wrote := requestWrite_eq geometry size ordered begun inside dev temp c
  unfold piece at wrote
  unfold writeCluster
  dsimp only at wrote ⊢
  rw [part_eq pos ordered begun inside rfl]
  rw [after, wrote]
  exact ⟨_, rfl⟩

theorem Progress.write {disk : Nat → Byte} (isChain : Chain bpb disk first chain)
    (size : data.length = end_ - start + 1) (ordered : start ≤ end_)
    (begun : start / bytesPerCluster bpb ≤ block) (inside : block ≤ end_ / bytesPerCluster bpb)
    (there : chain[block]? = some c)
    (progress : Progress bpb chain data start dev dev'
      (reach (bytesPerCluster bpb) start end_ block)) :
    Progress bpb chain data start dev (written bpb data start end_ dev' c block)
      (reach (bytesPerCluster bpb) start end_ (block + 1)) := by
  have bounds := reach_le (bytesPerCluster_pos geometry) ordered begun inside
  have long := length_piece geometry size ordered begun inside
  have fits : reach (bytesPerCluster bpb) start end_ block - block * bytesPerCluster bpb +
      (piece bpb data start end_ block).length ≤ bytesPerCluster bpb := by omega
  refine ⟨?_, ?_, ?_⟩
  · intro i within
    have grown : data.take (reach (bytesPerCluster bpb) start end_ (block + 1) - start) =
        data.take (reach (bytesPerCluster bpb) start end_ block - start) ++
          piece bpb data start end_ block := by
      unfold piece
      rw [← take_add]
      congr 1
      omega
    have reached : start +
        (data.take (reach (bytesPerCluster bpb) start end_ block - start)).length =
        block * bytesPerCluster bpb +
          (reach (bytesPerCluster bpb) start end_ block - block * bytesPerCluster bpb) := by
      rw [length_take, size]
      omega
    unfold written
    rw [fileView_overlay geometry isChain there fits within,
      overlay_congr (progress.bytes i within),
      grown, overlay_append, reached]
  · intro a outside
    exact (overlay_outside geometry there fits outside).trans (progress.rest a outside)
  · intro w asked
    rcases mem_cons.1 asked with rfl | old
    · exact Or.inr ⟨c, mem_of_getElem? there, rfl⟩
    · exact progress.writes w old

end

/-- The link of a block before the last one of the range. -/
theorem Chain.next (isChain : Chain bpb dev.bytes first chain) (geometry : Geometry bpb)
    (same : SameTable bpb dev.bytes dev'.bytes) (there : chain[block]? = some c)
    (more : block + 1 < chain.length) :
    ∃ c', chain[block + 1]? = some c' ∧
      nextCluster bpb (fatFor bpb dev.bytes) dev'.bytes c = c' ∧ c' < eoc bpb := by
  have there' : chain[block + 1]? = some chain[block + 1] := getElem?_eq_getElem more
  refine ⟨_, there', ?_, ?_⟩
  · rw [nextCluster_eq geometry same (isChain.inside _ _ there).2]
    exact isChain.link _ _ _ there there'
  · have inside := (isChain.inside _ _ there').2
    have numbers := geometry.numbers
    omega

theorem writeLoop_spec (geometry : Geometry bpb) (isChain : Chain bpb dev.bytes first chain)
    (size : data.length = end_ - start + 1) (ordered : start ≤ end_)
    (last : end_ / bytesPerCluster bpb < chain.length) :
    ∀ (n block c : Nat) (dev' : Device) (temp : Nat → Byte),
      end_ / bytesPerCluster bpb = block + n → chain[block]? = some c →
      Progress bpb chain data start dev dev' (reach (bytesPerCluster bpb) start end_ block) →
      ∃ dev'' c', writeLoop bpb data start end_ (fatFor bpb dev.bytes) dev' temp c block
          (reach (bytesPerCluster bpb) start end_ block - start) = (dev'', c') ∧
        Progress bpb chain data start dev dev'' (end_ + 1) ∧
        chain[end_ / bytesPerCluster bpb]? = some c' := by
  have pos := bytesPerCluster_pos geometry
  intro n
  induction n with
  | zero =>
    intro block c dev' temp atEnd there progress
    rw [Nat.add_zero] at atEnd
    have begun : start / bytesPerCluster bpb ≤ block := by
      rw [← atEnd]
      exact Nat.div_le_div_right ordered
    obtain ⟨temp', wrote⟩ := writeCluster_eq geometry size ordered begun (by omega) dev' temp c
    have done := Progress.write geometry isChain size ordered begun (by omega) there progress
    have whole : reach (bytesPerCluster bpb) start end_ (block + 1) = end_ + 1 :=
      reach_after pos (by omega)
    rw [whole] at done
    unfold writeLoop
    rw [if_pos begun, wrote]
    rw [if_pos (by omega)]
    exact ⟨_, _, rfl, done, atEnd ▸ there⟩
  | succ n step =>
    intro block c dev' temp later there progress
    -- whether the block is before the range or in it, the rest of the loop starts at the next one
    obtain ⟨dev₁, temp₁, wrote, progress'⟩ : ∃ dev₁ temp₁,
        (if start / bytesPerCluster bpb ≤ block then
          writeCluster bpb data start end_ dev' temp c block
            (reach (bytesPerCluster bpb) start end_ block - start)
        else (dev', temp, reach (bytesPerCluster bpb) start end_ block - start)) =
          (dev₁, temp₁, reach (bytesPerCluster bpb) start end_ (block + 1) - start) ∧
        Progress bpb chain data start dev dev₁
          (reach (bytesPerCluster bpb) start end_ (block + 1)) := by
      by_cases begun : start / bytesPerCluster bpb ≤ block
      · obtain ⟨temp', wrote⟩ := writeCluster_eq geometry size ordered begun (by omega) dev' temp c
        rw [if_pos begun]
        exact ⟨_, temp', wrote,
          Progress.write geometry isChain size ordered begun (by omega) there progress⟩
      · rw [if_neg begun]
        rw [reach_before pos ordered (by omega)] at progress ⊢
        rw [reach_before pos ordered (by omega)]
        exact ⟨_, _, rfl, progress⟩
    obtain ⟨c', there', next, small⟩ := isChain.next geometry
      (progress'.sameTable geometry isChain) there (by omega)
    unfold writeLoop
    rw [wrote]
    rw [if_neg (by omega), next, if_pos small]
    exact step (block + 1) c' dev₁ temp₁ (by omega) there' progress'

end Writing

end IcsOs.Fat.Files
