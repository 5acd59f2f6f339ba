/- GID: IcsOs/Fat/Table
   generality: I
   source: kernel/filesystem/fat12.c, kernel/filesystem/fat12.h
   digest: Volume geometry and the three encodings of the file allocation table. -/

import Mathlib.Algebra.Group.Nat.Defs
import Mathlib.Logic.Function.Basic
import Mathlib.Tactic.SplitIfs
import Mathlib.Algebra.Group.Int.Defs

set_option autoImplicit false

namespace IcsOs.Fat.Table

abbrev Byte := UInt8

inductive FatType
  | fat12
  | fat16
  | fat32
  deriving DecidableEq

/-- The boot sector's fields in use; `total_sectors` and its large form are one, as are table sizes.
-/
structure Bpb where
  bytesPerSector : Nat
  sectorsPerCluster : Nat
  numBootSectors : Nat
  numFats : Nat
  numRootDirEnts : Nat
  totalSectors : Nat
  sectorsPerFat : Nat
  fatsz32 : Nat

def fatSectorsPerFat (bpb : Bpb) : Nat :=
  if bpb.sectorsPerFat = 0 then bpb.fatsz32 else bpb.sectorsPerFat

def rootSectors (bpb : Bpb) : Nat :=
  (bpb.numRootDirEnts * 32 + (bpb.bytesPerSector - 1)) / bpb.bytesPerSector

def clustertoblock (bpb : Bpb) (cluster : Nat) : Nat :=
  let startSector := bpb.numBootSectors + bpb.numFats * fatSectorsPerFat bpb
  if bpb.numRootDirEnts ≠ 0 then
    startSector + cluster * bpb.sectorsPerCluster - 2 * bpb.sectorsPerCluster + rootSectors bpb
  else startSector + cluster * bpb.sectorsPerCluster - 2 * bpb.sectorsPerCluster

/-- The sectors behind the boot sectors, tables and root directory. -/
def datasec (bpb : Bpb) : Int :=
  bpb.totalSectors -
    (bpb.numBootSectors + bpb.numFats * fatSectorsPerFat bpb + rootSectors bpb : Nat)

/-- Number of data clusters, counted in `DWORD`s; they are numbered from 2. -/
def fatClusterCount (bpb : Bpb) : Nat :=
  if bpb.totalSectors = 0 ∨ bpb.sectorsPerCluster = 0 then 0
  else (datasec bpb % 2 ^ 32).toNat / bpb.sectorsPerCluster

/-- Counted in `int`s, so that a volume of `2 ^ 31` sectors has a negative count; an empty boot
sector is left out. -/
def fatGetFatType (bpb : Bpb) : FatType :=
  let countofclusters := ((datasec bpb).bmod (2 ^ 32)).tdiv bpb.sectorsPerCluster
  if countofclusters < 4085 then .fat12
  else if countofclusters < 65525 then .fat16
  else .fat32

def fatGetEoc : FatType → Nat
  | .fat12 => 0x0FF8
  | .fat16 => 0xFFF8
  | .fat32 => 0x0FFFFFF8

section Words

/-- The little-endian word at a byte of the table. -/
def word (fat : Nat → Byte) (x : Nat) : Nat := (fat x).toNat + 256 * (fat (x + 1)).toNat

def setWord (fat : Nat → Byte) (x w : Nat) : Nat → Byte :=
  Function.update (Function.update fat x (UInt8.ofNat (w % 256))) (x + 1)
    (UInt8.ofNat (w / 256 % 256))

variable {fat : Nat → Byte} {x y w : Nat}

theorem setWord_first (fat : Nat → Byte) (x w : Nat) : (setWord fat x w x).toNat = w % 256 := by
  simp [setWord]

theorem setWord_second (fat : Nat → Byte) (x w : Nat) :
    (setWord fat x w (x + 1)).toNat = w / 256 % 256 := by
  simp [setWord]

theorem setWord_other (fat : Nat → Byte) (w : Nat) (first : y ≠ x) (second : y ≠ x + 1) :
    setWord fat x w y = fat y := by
  simp [setWord, first, second]

theorem word_setWord (fat : Nat → Byte) (x w : Nat) : word (setWord fat x w) x = w % 65536 := by
  unfold word
  rw [setWord_first, setWord_second]
  omega

theorem word_setWord_apart (fat : Nat → Byte) (w : Nat) (apart : y + 1 < x ∨ x + 1 < y) :
    word (setWord fat x w) y = word fat y := by
  unfold word
  rw [setWord_other fat w (by omega) (by omega), setWord_other fat w (by omega) (by omega)]

theorem byte_lt (b : Byte) : b.toNat < 256 := b.toNat_lt

theorem word_lt (fat : Nat → Byte) (x : Nat) : word fat x < 65536 := by
  unfold word
  have low := byte_lt (fat x)
  have high := byte_lt (fat (x + 1))
  omega

end Words

def obtainNextCluster (fatType : FatType) (fat : Nat → Byte) (cluster : Nat) : Nat :=
  match fatType with
  | .fat12 =>
    let index := word fat (cluster * 3 / 2)
    if cluster % 2 = 1 then index / 16 else index % 4096
  | .fat16 => word fat (2 * cluster)
  | .fat32 => (word fat (4 * cluster) + 65536 * word fat (4 * cluster + 2)) % 2 ^ 28

/-- An entry is written; the upper four bits of a 32-bit one stay. -/
def writeEntry (fatType : FatType) (fat : Nat → Byte) (cluster value : Nat) : Nat → Byte :=
  match fatType with
  | .fat12 =>
    let x := cluster * 3 / 2
    if cluster % 2 = 1 then setWord fat x (word fat x % 16 + value * 16)
    else setWord fat x (word fat x / 4096 * 4096 + value % 4096)
  | .fat16 => setWord fat (2 * cluster) value
  | .fat32 =>
    let high := word fat (4 * cluster + 2)
    setWord (setWord fat (4 * cluster) (value % 65536)) (4 * cluster + 2)
      (high / 4096 * 4096 + value / 65536 % 4096)

/-- `fat_write_cluster` refuses the reserved numbers. -/
def fatWriteCluster (fatType : FatType) (fat : Nat → Byte) (cluster value : Nat) : Nat → Byte :=
  if cluster < 2 then fat else writeEntry fatType fat cluster value

/-- Values an entry of the type can hold. -/
def entryBound : FatType → Nat
  | .fat12 => 4096
  | .fat16 => 65536
  | .fat32 => 2 ^ 28

section Entries

variable {fat : Nat → Byte} {cluster other value : Nat}

theorem obtainNextCluster_writeEntry (fatType : FatType) (fat : Nat → Byte) (cluster : Nat)
    (fits : value < entryBound fatType) :
    obtainNextCluster fatType (writeEntry fatType fat cluster value) cluster = value := by
  cases fatType with
  | fat12 =>
    have bound := word_lt fat (cluster * 3 / 2)
    have small : value < 4096 := fits
    unfold obtainNextCluster writeEntry
    dsimp only
    by_cases odd : cluster % 2 = 1
    · rw [if_pos odd, if_pos odd, word_setWord]
      omega
    · rw [if_neg odd, if_neg odd, word_setWord]
      omega
  | fat16 =>
    have small : value < 65536 := fits
    unfold obtainNextCluster writeEntry
    dsimp only
    rw [word_setWord]
    omega
  | fat32 =>
    have bound := word_lt fat (4 * cluster + 2)
    have small : value < 2 ^ 28 := fits
    unfold obtainNextCluster writeEntry
    dsimp only
    rw [word_setWord, word_setWord_apart _ _ (by omega), word_setWord]
    omega

theorem packed (k : Nat) : 2 * k * 3 / 2 = 3 * k ∧ (2 * k + 1) * 3 / 2 = 3 * k + 1 ∧
    ¬ 2 * k % 2 = 1 ∧ (2 * k + 1) % 2 = 1 := by
  omega

theorem odd_writeEntry_even (fat : Nat → Byte) (k value : Nat) :
    obtainNextCluster .fat12 (writeEntry .fat12 fat (2 * k) value) (2 * k + 1) =
      obtainNextCluster .fat12 fat (2 * k + 1) := by
  obtain ⟨first, second, isEven, isOdd⟩ := packed k
  have low := byte_lt (fat (3 * k))
  have middle := byte_lt (fat (3 * k + 1))
  unfold obtainNextCluster writeEntry
  simp only [if_pos isOdd, if_neg isEven, first, second]
  unfold word
  rw [setWord_second, setWord_other _ _ (by omega) (by omega)]
  omega

/-- And so does the first. -/
theorem even_writeEntry_odd (fat : Nat → Byte) (k value : Nat) :
    obtainNextCluster .fat12 (writeEntry .fat12 fat (2 * k + 1) value) (2 * k) =
      obtainNextCluster .fat12 fat (2 * k) := by
  obtain ⟨first, second, isEven, isOdd⟩ := packed k
  have middle := byte_lt (fat (3 * k + 1))
  have high := byte_lt (fat (3 * k + 1 + 1))
  unfold obtainNextCluster writeEntry
  simp only [if_pos isOdd, if_neg isEven, first, second]
  unfold word
  rw [setWord_first, setWord_other _ _ (by omega) (by omega)]
  omega

theorem obtainNextCluster_writeEntry_apart (fat : Nat → Byte) (value : Nat)
    (apart : other * 3 / 2 + 1 < cluster * 3 / 2 ∨ cluster * 3 / 2 + 1 < other * 3 / 2) :
    obtainNextCluster .fat12 (writeEntry .fat12 fat cluster value) other =
      obtainNextCluster .fat12 fat other := by
  have same : ∀ w, word (setWord fat (cluster * 3 / 2) w) (other * 3 / 2) =
      word fat (other * 3 / 2) := fun w => word_setWord_apart fat w apart
  unfold obtainNextCluster writeEntry
  dsimp only
  by_cases odd : cluster % 2 = 1
  · rw [if_pos odd, same]
  · rw [if_neg odd, same]

/-- Other entries keep their values, also those that share a byte. -/
theorem obtainNextCluster_writeEntry_ne (fatType : FatType) (fat : Nat → Byte) (value : Nat)
    (apart : other ≠ cluster) :
    obtainNextCluster fatType (writeEntry fatType fat cluster value) other =
      obtainNextCluster fatType fat other := by
  cases fatType with
  | fat12 =>
    by_cases pair : other / 2 = cluster / 2
    · by_cases odd : cluster % 2 = 1
      · have here : cluster = 2 * (cluster / 2) + 1 := by omega
        have there : other = 2 * (cluster / 2) := by omega
        rw [here, there]
        exact even_writeEntry_odd fat _ value
      · have here : cluster = 2 * (cluster / 2) := by omega
        have there : other = 2 * (cluster / 2) + 1 := by omega
        rw [here, there]
        exact odd_writeEntry_even fat _ value
    · have place : ∀ c, c * 3 / 2 = 3 * (c / 2) + c % 2 := by
        intro c
        omega
      refine obtainNextCluster_writeEntry_apart fat value ?_
      rw [place, place]
      omega
  | fat16 =>
    unfold obtainNextCluster writeEntry
    dsimp only
    rw [word_setWord_apart _ _ (by omega)]
  | fat32 =>
    unfold obtainNextCluster writeEntry
    dsimp only
    rw [word_setWord_apart _ _ (by omega), word_setWord_apart _ _ (by omega),
      word_setWord_apart _ _ (by omega), word_setWord_apart _ _ (by omega)]

/-- What is written to an entry is read back from it. -/
theorem obtainNextCluster_write (fatType : FatType) (fat : Nat → Byte) (data : 2 ≤ cluster)
    (fits : value < entryBound fatType) :
    obtainNextCluster fatType (fatWriteCluster fatType fat cluster value) cluster = value := by
  unfold fatWriteCluster
  rw [if_neg (by omega)]
  exact obtainNextCluster_writeEntry fatType fat cluster fits

theorem obtainNextCluster_write_ne (fatType : FatType) (fat : Nat → Byte) (value : Nat)
    (apart : other ≠ cluster) :
    obtainNextCluster fatType (fatWriteCluster fatType fat cluster value) other =
      obtainNextCluster fatType fat other := by
  unfold fatWriteCluster
  split_ifs
  · rfl
  · exact obtainNextCluster_writeEntry_ne fatType fat value apart

end Entries

end IcsOs.Fat.Table
