/- GID: IcsOs/Partition/Gpt
   generality: I
   source: kernel/partition/gpt.c, kernel/partition/gpt.h, kernel/partition/crc32.c
   digest: Partition tables found on a disk: what is asked of the disk, and what is accepted. -/

import IcsOs.Lib.Words

set_option autoImplicit false

namespace IcsOs.Partition.Gpt

open Option List
open Lib.Overlay Lib.Words

abbrev Byte := UInt8

/-- `total` sectors; reads may fail, and past the end the driver answers. -/
structure Disk where
  total : Nat
  sized : total < 2 ^ 64
  content : Nat → Byte
  fails : Nat → Nat → Bool

/-- The read callback: `sectors` sectors from `lba` on. -/
def Disk.read (d : Disk) (lba sectors : Nat) : Option (Nat → Byte) :=
  if d.fails lba sectors then none else some fun i => d.content (512 * lba + i)

def crc32Table : List UInt32 :=
  [ 0x00000000, 0x77073096, 0xEE0E612C, 0x990951BA, 0x076DC419, 0x706AF48F, 0xE963A535, 0x9E6495A3,
    0x0EDB8832, 0x79DCB8A4, 0xE0D5E91E, 0x97D2D988, 0x09B64C2B, 0x7EB17CBD, 0xE7B82D07, 0x90BF1D91,
    0x1DB71064, 0x6AB020F2, 0xF3B97148, 0x84BE41DE, 0x1ADAD47D, 0x6DDDE4EB, 0xF4D4B551, 0x83D385C7,
    0x136C9856, 0x646BA8C0, 0xFD62F97A, 0x8A65C9EC, 0x14015C4F, 0x63066CD9, 0xFA0F3D63, 0x8D080DF5,
    0x3B6E20C8, 0x4C69105E, 0xD56041E4, 0xA2677172, 0x3C03E4D1, 0x4B04D447, 0xD20D85FD, 0xA50AB56B,
    0x35B5A8FA, 0x42B2986C, 0xDBBBC9D6, 0xACBCF940, 0x32D86CE3, 0x45DF5C75, 0xDCD60DCF, 0xABD13D59,
    0x26D930AC, 0x51DE003A, 0xC8D75180, 0xBFD06116, 0x21B4F4B5, 0x56B3C423, 0xCFBA9599, 0xB8BDA50F,
    0x2802B89E, 0x5F058808, 0xC60CD9B2, 0xB10BE924, 0x2F6F7C87, 0x58684C11, 0xC1611DAB, 0xB6662D3D,
    0x76DC4190, 0x01DB7106, 0x98D220BC, 0xEFD5102A, 0x71B18589, 0x06B6B51F, 0x9FBFE4A5, 0xE8B8D433,
    0x7807C9A2, 0x0F00F934, 0x9609A88E, 0xE10E9818, 0x7F6A0DBB, 0x086D3D2D, 0x91646C97, 0xE6635C01,
    0x6B6B51F4, 0x1C6C6162, 0x856530D8, 0xF262004E, 0x6C0695ED, 0x1B01A57B, 0x8208F4C1, 0xF50FC457,
    0x65B0D9C6, 0x12B7E950, 0x8BBEB8EA, 0xFCB9887C, 0x62DD1DDF, 0x15DA2D49, 0x8CD37CF3, 0xFBD44C65,
    0x4DB26158, 0x3AB551CE, 0xA3BC0074, 0xD4BB30E2, 0x4ADFA541, 0x3DD895D7, 0xA4D1C46D, 0xD3D6F4FB,
    0x4369E96A, 0x346ED9FC, 0xAD678846, 0xDA60B8D0, 0x44042D73, 0x33031DE5, 0xAA0A4C5F, 0xDD0D7CC9,
    0x5005713C, 0x270241AA, 0xBE0B1010, 0xC90C2086, 0x5768B525, 0x206F85B3, 0xB966D409, 0xCE61E49F,
    0x5EDEF90E, 0x29D9C998, 0xB0D09822, 0xC7D7A8B4, 0x59B33D17, 0x2EB40D81, 0xB7BD5C3B, 0xC0BA6CAD,
    0xEDB88320, 0x9ABFB3B6, 0x03B6E20C, 0x74B1D29A, 0xEAD54739, 0x9DD277AF, 0x04DB2615, 0x73DC1683,
    0xE3630B12, 0x94643B84, 0x0D6D6A3E, 0x7A6A5AA8, 0xE40ECF0B, 0x9309FF9D, 0x0A00AE27, 0x7D079EB1,
    0xF00F9344, 0x8708A3D2, 0x1E01F268, 0x6906C2FE, 0xF762575D, 0x806567CB, 0x196C3671, 0x6E6B06E7,
    0xFED41B76, 0x89D32BE0, 0x10DA7A5A, 0x67DD4ACC, 0xF9B9DF6F, 0x8EBEEFF9, 0x17B7BE43, 0x60B08ED5,
    0xD6D6A3E8, 0xA1D1937E, 0x38D8C2C4, 0x4FDFF252, 0xD1BB67F1, 0xA6BC5767, 0x3FB506DD, 0x48B2364B,
    0xD80D2BDA, 0xAF0A1B4C, 0x36034AF6, 0x41047A60, 0xDF60EFC3, 0xA867DF55, 0x316E8EEF, 0x4669BE79,
    0xCB61B38C, 0xBC66831A, 0x256FD2A0, 0x5268E236, 0xCC0C7795, 0xBB0B4703, 0x220216B9, 0x5505262F,
    0xC5BA3BBE, 0xB2BD0B28, 0x2BB45A92, 0x5CB36A04, 0xC2D7FFA7, 0xB5D0CF31, 0x2CD99E8B, 0x5BDEAE1D,
    0x9B64C2B0, 0xEC63F226, 0x756AA39C, 0x026D930A, 0x9C0906A9, 0xEB0E363F, 0x72076785, 0x05005713,
    0x95BF4A82, 0xE2B87A14, 0x7BB12BAE, 0x0CB61B38, 0x92D28E9B, 0xE5D5BE0D, 0x7CDCEFB7, 0x0BDBDF21,
    0x86D3D2D4, 0xF1D4E242, 0x68DDB3F8, 0x1FDA836E, 0x81BE16CD, 0xF6B9265B, 0x6FB077E1, 0x18B74777,
    0x88085AE6, 0xFF0F6A70, 0x66063BCA, 0x11010B5C, 0x8F659EFF, 0xF862AE69, 0x616BFFD3, 0x166CCF45,
    0xA00AE278, 0xD70DD2EE, 0x4E048354, 0x3903B3C2, 0xA7672661, 0xD06016F7, 0x4969474D, 0x3E6E77DB,
    0xAED16A4A, 0xD9D65ADC, 0x40DF0B66, 0x37D83BF0, 0xA9BCAE53, 0xDEBB9EC5, 0x47B2CF7F, 0x30B5FFE9,
    0xBDBDF21C, 0xCABAC28A, 0x53B39330, 0x24B4A3A6, 0xBAD03605, 0xCDD70693, 0x54DE5729, 0x23D967BF,
    0xB3667A2E, 0xC4614AB8, 0x5D681B02, 0x2A6F2B94, 0xB40BBE37, 0xC30C8EA1, 0x5A05DF1B, 0x2D02EF8D
  ]

/-- `crc32_ieee` with the running value `crc`. -/
def crc32Ieee (data : List Byte) (crc : UInt32) : UInt32 :=
  let round (c : UInt32) (p : Byte) : UInt32 :=
    crc32Table.getD ((c ^^^ p.toUInt32) &&& 0xFF).toNat 0 ^^^ c >>> 8
  data.foldl round (crc ^^^ 0xFFFFFFFF) ^^^ 0xFFFFFFFF

def gptLe32 (p : Nat → Byte) (i : Nat) : Nat :=
  (p i).toNat ||| (p (i + 1)).toNat <<< 8 ||| (p (i + 2)).toNat <<< 16 ||| (p (i + 3)).toNat <<< 24

def gptLe64 (p : Nat → Byte) (i : Nat) : Nat := gptLe32 p i ||| gptLe32 p (i + 4) <<< 32

def gptTypes : List (List Byte × String) := [
  ([0x28, 0x73, 0x2A, 0xC1, 0x1F, 0xF8, 0xD2, 0x11,
    0xBA, 0x4B, 0x00, 0xA0, 0xC9, 0x3E, 0xC9, 0x3B], "EFI System"),
  ([0xEA, 0xAD, 0x0A, 0xEB, 0xDD, 0xB2, 0x3F, 0x4F,
    0x80, 0xFF, 0x71, 0xE9, 0x16, 0xB3, 0x9E, 0x0F], "Basic Data"),
  ([0x16, 0xE3, 0xC9, 0xE3, 0x0B, 0x5C, 0xB8, 0x4D,
    0x81, 0x7D, 0xF9, 0x2D, 0xF0, 0x02, 0x15, 0xAE], "Microsoft Reserved"),
  ([0x6D, 0xFD, 0x57, 0x06, 0xAB, 0xA4, 0xC4, 0x43,
    0x84, 0xE5, 0x09, 0x33, 0xC8, 0x4B, 0x4F, 0x4F], "Linux swap"),
  ([0xAF, 0x3D, 0xC6, 0x0F, 0x83, 0x84, 0x72, 0x47,
    0x8E, 0x79, 0x3D, 0x69, 0xD8, 0x47, 0x7D, 0xE4], "Linux data"),
  ([0x40, 0x95, 0x47, 0x44, 0x97, 0xF2, 0xB2, 0x41,
    0x9A, 0xF7, 0xD1, 0x31, 0xD5, 0xF0, 0x45, 0x8A], "Linux root (x86)")
]

def gptTypeName (guid : List Byte) : Option String :=
  (gptTypes.find? fun t => t.1 = guid).map (·.2)

/-- `gpt_header_geom`. -/
structure Geom where
  myLba : Nat
  altLba : Nat
  firstUsable : Nat
  lastUsable : Nat
  diskGuid : List Byte
  entryLba : Nat
  numEntries : Nat
  entrySize : Nat
  arrayCrc : Nat

/-- The fields of a header sector. -/
def geometry (hdr : Nat → Byte) : Geom where
  myLba := gptLe64 hdr 24
  altLba := gptLe64 hdr 32
  firstUsable := gptLe64 hdr 40
  lastUsable := gptLe64 hdr 48
  diskGuid := slice hdr 56 16
  entryLba := gptLe64 hdr 72
  numEntries := gptLe32 hdr 80
  entrySize := gptLe32 hdr 84
  arrayCrc := gptLe32 hdr 88

/-- `"EFI PART"`. -/
def signature : List Byte := [0x45, 0x46, 0x49, 0x20, 0x50, 0x41, 0x52, 0x54]

/-- The checksum of a header, taken with its own field zero. -/
def headerCrc (hdr : Nat → Byte) : UInt32 :=
  crc32Ieee (slice (fun i => if 16 ≤ i ∧ i < 20 then 0 else hdr i) 0 92) 0

def Geom.arrayBytes (g : Geom) : Nat := g.numEntries * g.entrySize % 2 ^ 64

/-- The array ends on the disk, in the check's 64-bit arithmetic. -/
def Geom.arrayEnds (g : Geom) (total : Nat) : Bool :=
  (g.entryLba * 512 % 2 ^ 64 + g.arrayBytes) % 2 ^ 64 ≤ total * 512 % 2 ^ 64

def gptCheckHeader (hdr : Nat → Byte) (total expected : Nat) : Option Geom :=
  if slice hdr 0 8 ≠ signature then none
  else if gptLe32 hdr 8 ≠ 0x00010000 then none
  else if gptLe32 hdr 12 ≠ 92 then none
  else if (headerCrc hdr).toNat ≠ gptLe32 hdr 16 then none
  else
    let g := geometry hdr
    if g.myLba ≠ expected then none
    else if g.numEntries < 1 ∨ 128 < g.numEntries then none
    else if g.entrySize ≠ 128 then none
    else if g.lastUsable ≤ g.firstUsable then none
    else if g.firstUsable < 1 ∨ total ≤ g.lastUsable then none
    else if ¬ g.arrayEnds total then none
    else some g

structure GptEntry where
  index : Nat
  typeGuid : List Byte
  uniqueGuid : List Byte
  attributes : Nat
  firstLba : Nat
  lastLba : Nat
  name : List Byte
  typeName : Option String

/-- The printable code units up to the first other one, 36 at most. -/
def gptDecodeName (src : Nat → Byte) : List Byte :=
  (((List.range 61).map fun i => ((src (2 * i)).toNat ||| (src (2 * i + 1)).toNat <<< 8)).takeWhile
    fun u => 0x20 ≤ u ∧ u ≤ 0x7E).take 36 |>.map UInt8.ofNat

/-- A slot of the array, unless empty or out of bounds. -/
def gptEntry (g : Geom) (e : Nat → Byte) (i : Nat) : Option GptEntry :=
  if slice e 0 16 = List.replicate 16 0 then none
  else
    let first := gptLe64 e 32
    let last := gptLe64 e 40
    if first < g.firstUsable ∨ g.lastUsable < last ∨ last < first then none
    else some {
      index := i
      typeGuid := slice e 0 16
      uniqueGuid := slice e 16 16
      attributes := gptLe64 e 48
      firstLba := first
      lastLba := last
      name := gptDecodeName fun j => e (56 + j)
      typeName := gptTypeName (slice e 0 16) }

/-- What is asked of the disk for an entry array. -/
def Geom.arraySectors (g : Geom) : Nat := (g.arrayBytes + 511) % 2 ^ 64 / 512 % 2 ^ 32

/-- If the array was read and its checksum is right. -/
def gptParseArray (d : Disk) (g : Geom) : Option (List GptEntry) :=
  match d.read g.entryLba g.arraySectors with
  | none => none
  | some buf =>
    if (crc32Ieee (slice buf 0 (g.arrayBytes % 2 ^ 32)) 0).toNat ≠ g.arrayCrc then none
    else some (((List.range g.numEntries).filterMap fun i =>
      gptEntry g (fun j => buf (i * 128 + j)) i).take 128)

structure GptDisk where
  valid : Bool
  usedBackup : Bool
  diskGuid : List Byte
  firstUsableLba : Nat
  lastUsableLba : Nat
  myLba : Nat
  entries : List GptEntry
  primaryHeaderOk : Bool
  primaryArrayOk : Bool
  backupHeaderOk : Bool
  backupArrayOk : Bool

def GptDisk.zero : GptDisk where
  valid := false
  usedBackup := false
  diskGuid := List.replicate 16 0
  firstUsableLba := 0
  lastUsableLba := 0
  myLba := 0
  entries := []
  primaryHeaderOk := false
  primaryArrayOk := false
  backupHeaderOk := false
  backupArrayOk := false

/-- The fields taken over from a header that passed its check. -/
def GptDisk.adopt (disk : GptDisk) (g : Geom) : GptDisk :=
  { disk with
    diskGuid := g.diskGuid
    firstUsableLba := g.firstUsable
    lastUsableLba := g.lastUsable
    myLba := g.myLba }

/-- A header sector that was read and passed its check. -/
def accepted (d : Disk) (lba : Nat) : Option Geom :=
  (d.read lba 1).bind fun hdr => gptCheckHeader hdr d.total lba

/-- Sectors asked of the disk: the first one and how many. -/
abbrev Request := Nat × Nat

/-- The fallback to the backup header at `backupLba`. -/
def gptBackup (d : Disk) (backupLba : Nat) (disk : GptDisk) : GptDisk × List Request :=
  if 1 ≤ backupLba ∧ backupLba < d.total ∧ backupLba ≠ 1 then
    match accepted d backupLba with
    | none => ({ disk with backupHeaderOk := false, valid := false }, [(backupLba, 1)])
    | some g =>
      let disk := { disk.adopt g with backupHeaderOk := true }
      let asked := [(backupLba, 1), (g.entryLba, g.arraySectors)]
      match gptParseArray d g with
      | none => ({ disk with backupArrayOk := false, valid := false }, asked)
      | some entries =>
        ({ disk with
          backupArrayOk := true, valid := true, usedBackup := true, entries := entries }, asked)
  else ({ disk with valid := false }, [])

/-- The table, what was asked of the disk, and whether the table is valid. -/
def gptParse (d : Disk) : GptDisk × List Request :=
  if d.total = 0 then (.zero, [])
  else
    match accepted d 1 with
    | none =>
      let (disk, asked) := gptBackup d (d.total - 1) .zero
      (disk, (1, 1) :: asked)
    | some g =>
      let disk := { GptDisk.zero.adopt g with primaryHeaderOk := true }
      match gptParseArray d g with
      | some entries =>
        ({ disk with
          primaryArrayOk := true, valid := true, usedBackup := false, entries := entries },
          [(1, 1), (g.entryLba, g.arraySectors)])
      | none =>
        let (disk, asked) := gptBackup d g.altLba { disk with primaryArrayOk := false }
        (disk, (1, 1) :: (g.entryLba, g.arraySectors) :: asked)

/-- A header that passes each check of its fields. -/
structure SoundHeader (total lba : Nat) (hdr : Nat → Byte) : Prop where
  signed : slice hdr 0 8 = signature
  revision : gptLe32 hdr 8 = 0x00010000
  headerSize : gptLe32 hdr 12 = 92
  checksum : (headerCrc hdr).toNat = gptLe32 hdr 16
  place : (geometry hdr).myLba = lba
  numEntries : 1 ≤ (geometry hdr).numEntries ∧ (geometry hdr).numEntries ≤ 128
  entrySize : (geometry hdr).entrySize = 128
  usable : 1 ≤ (geometry hdr).firstUsable ∧
    (geometry hdr).firstUsable < (geometry hdr).lastUsable ∧ (geometry hdr).lastUsable < total

/-- Its entry array lies on the disk as well. -/
structure ValidHeader (total lba : Nat) (hdr : Nat → Byte) : Prop
    extends SoundHeader total lba hdr where
  array : (geometry hdr).entryLba * 512 + (geometry hdr).numEntries * (geometry hdr).entrySize ≤
    total * 512

/-- The header at `lba` is on the disk, can be read and is valid. -/
def HeaderAt (d : Disk) (lba : Nat) (g : Geom) : Prop :=
  lba < d.total ∧ ∃ hdr, d.read lba 1 = some hdr ∧ ValidHeader d.total lba hdr ∧ g = geometry hdr

/-- The array can be read and its checksum is right. -/
def ArrayValid (d : Disk) (g : Geom) : Prop :=
  ∃ buf, d.read g.entryLba ((g.numEntries * g.entrySize + 511) / 512) = some buf ∧
    (crc32Ieee (slice buf 0 (g.numEntries * g.entrySize)) 0).toNat = g.arrayCrc

def PrimaryTable (d : Disk) : Prop := ∃ g, HeaderAt d 1 g ∧ ArrayValid d g

/-- Where the primary header says, or else in the last sector. -/
def BackupAt (d : Disk) (lba : Nat) : Prop :=
  (∃ g, HeaderAt d 1 g ∧ lba = g.altLba) ∨ ((¬ ∃ g, HeaderAt d 1 g) ∧ lba = d.total - 1)

def BackupTable (d : Disk) : Prop :=
  ∃ lba g, BackupAt d lba ∧ 2 ≤ lba ∧ HeaderAt d lba g ∧ ArrayValid d g

/-- All the sectors asked for are on the disk. -/
def Inside (d : Disk) (r : Request) : Prop := ∀ s, r.1 ≤ s → s < r.1 + r.2 → s < d.total

/-- The partitions lie in the usable range, and that on the disk. -/
def Bounded (d : Disk) (disk : GptDisk) : Prop :=
  ∀ e ∈ disk.entries, disk.firstUsableLba ≤ e.firstLba ∧ e.firstLba ≤ e.lastLba ∧
    e.lastLba ≤ disk.lastUsableLba ∧ disk.lastUsableLba < d.total

/-- What parsing a disk should come to. -/
structure Parsed (d : Disk) : Prop where
  asked : ∀ r ∈ (gptParse d).2, Inside d r
  verdict : (gptParse d).1.valid = true ↔ PrimaryTable d ∨ BackupTable d
  fallback : (gptParse d).1.usedBackup = true ↔ ¬ PrimaryTable d ∧ BackupTable d
  partitions : Bounded d (gptParse d).1

/-- 64-bit arithmetic does not mislead the check at `lba`. -/
def Agrees (d : Disk) (lba : Nat) : Prop :=
  ∀ hdr, d.read lba 1 = some hdr →
    ((gptCheckHeader hdr d.total lba).isSome = true ↔ ValidHeader d.total lba hdr)

/-- More than one sector, and headers checked as they should be. -/
structure Fitting (d : Disk) : Prop where
  size : d.total ≠ 1
  primary : Agrees d 1
  backup : ¬ PrimaryTable d → ∀ lba, BackupAt d lba → 2 ≤ lba → lba < d.total → Agrees d lba

section Headers

variable {total lba : Nat} {hdr : Nat → Byte} {g : Geom}

theorem gptCheckHeader_eq_some : gptCheckHeader hdr total lba = some g ↔
    SoundHeader total lba hdr ∧ (geometry hdr).arrayEnds total = true ∧ g = geometry hdr := by
  unfold gptCheckHeader
  rw [ite_none_left_eq_some, ite_none_left_eq_some, ite_none_left_eq_some,
    ite_none_left_eq_some, ite_none_left_eq_some, ite_none_left_eq_some,
    ite_none_left_eq_some, ite_none_left_eq_some, ite_none_left_eq_some,
    ite_none_left_eq_some, not_not, not_not, not_not, not_not, not_not, not_or, not_not,
    not_or, not_not]
  constructor
  · rintro ⟨signed, revision, size, checksum, place, entries, entry, order, range, ends, same⟩
    cases same
    exact ⟨⟨signed, revision, size, checksum, place,
      ⟨Nat.le_of_not_lt entries.1, Nat.le_of_not_lt entries.2⟩, entry,
      ⟨Nat.le_of_not_lt range.1, Nat.lt_of_not_le order, Nat.lt_of_not_le range.2⟩⟩, ends, rfl⟩
  · rintro ⟨sound, ends, rfl⟩
    obtain ⟨fewest, most⟩ := sound.numEntries
    obtain ⟨low, order, high⟩ := sound.usable
    exact ⟨sound.signed, sound.revision, sound.headerSize, sound.checksum, sound.place,
      ⟨Nat.not_lt.mpr fewest, Nat.not_lt.mpr most⟩, sound.entrySize, Nat.not_le.mpr order,
      ⟨Nat.not_lt.mpr low, Nat.not_le.mpr high⟩, ends, rfl⟩

theorem SoundHeader.arrayBytes (sound : SoundHeader total lba hdr) :
    (geometry hdr).arrayBytes = (geometry hdr).numEntries * 128 := by
  have most := sound.numEntries.2
  unfold Geom.arrayBytes
  rw [sound.entrySize]
  omega

theorem SoundHeader.arraySectors (sound : SoundHeader total lba hdr) :
    (geometry hdr).arraySectors = ((geometry hdr).numEntries * 128 + 511) / 512 := by
  have most := sound.numEntries.2
  unfold Geom.arraySectors
  rw [sound.arrayBytes]
  omega

theorem SoundHeader.array_iff {d : Disk} (sound : SoundHeader d.total lba hdr) :
    ValidHeader d.total lba hdr ↔
      Inside d ((geometry hdr).entryLba, (geometry hdr).arraySectors) := by
  have fewest := sound.numEntries.1
  rw [sound.arraySectors]
  constructor
  · intro valid s _ below
    have array := valid.array
    rw [sound.entrySize] at array
    omega
  intro inside
  have last := inside ((geometry hdr).entryLba + ((geometry hdr).numEntries * 128 + 511) / 512 - 1)
    (by dsimp only; omega) (by dsimp only; omega)
  refine ⟨sound, ?_⟩
  rw [sound.entrySize]
  omega

/-- Below 2 ^ 55 sectors no array that fits is refused. -/
theorem ValidHeader.arrayEnds (valid : ValidHeader total lba hdr) (small : total < 2 ^ 55) :
    (geometry hdr).arrayEnds total = true := by
  have array := valid.array
  unfold Geom.arrayEnds
  rw [valid.toSoundHeader.arrayBytes, decide_eq_true_eq]
  rw [valid.entrySize] at array
  omega

end Headers

variable {lba : Nat} {disk : GptDisk}

section

variable {d : Disk} {g : Geom}

theorem gptParseArray_isSome {hdr : Nat → Byte} (sound : SoundHeader d.total lba hdr) :
    (gptParseArray d (geometry hdr)).isSome = true ↔ ArrayValid d (geometry hdr) := by
  have most := sound.numEntries.2
  have small : (geometry hdr).numEntries * 128 % 2 ^ 32 = (geometry hdr).numEntries * 128 := by
    omega
  unfold gptParseArray ArrayValid
  rw [sound.arraySectors, sound.arrayBytes, sound.entrySize, small]
  cases read : d.read (geometry hdr).entryLba (((geometry hdr).numEntries * 128 + 511) / 512) with
  | none =>
    refine ⟨fun yes => (nomatch yes), ?_⟩
    rintro ⟨buf, got, -⟩
    cases got
  | some buf =>
    dsimp only
    split_ifs with wrong
    · refine ⟨fun yes => (nomatch yes), ?_⟩
      rintro ⟨buf', got, right⟩
      cases got
      exact absurd right wrong
    · exact ⟨fun _ => ⟨buf, rfl, not_not.mp wrong⟩, fun _ => rfl⟩

theorem gptEntry_bounds {e : Nat → Byte} {i : Nat} {entry : GptEntry}
    (taken : gptEntry g e i = some entry) :
    g.firstUsable ≤ entry.firstLba ∧ entry.firstLba ≤ entry.lastLba ∧
      entry.lastLba ≤ g.lastUsable := by
  unfold gptEntry at taken
  dsimp only at taken
  split_ifs at taken with empty outside
  cases taken
  rw [not_or, not_or] at outside
  obtain ⟨low, high, order⟩ := outside
  exact ⟨Nat.le_of_not_lt low, Nat.le_of_not_lt order, Nat.le_of_not_lt high⟩

theorem gptParseArray_bounds {entries : List GptEntry} (parsed : gptParseArray d g = some entries) :
    ∀ e ∈ entries, g.firstUsable ≤ e.firstLba ∧ e.firstLba ≤ e.lastLba ∧
      e.lastLba ≤ g.lastUsable := by
  unfold gptParseArray at parsed
  split at parsed
  · cases parsed
  split_ifs at parsed with wrong
  cases parsed
  intro e member
  obtain ⟨i, -, taken⟩ := mem_filterMap.mp (mem_of_mem_take member)
  exact gptEntry_bounds taken

variable {lba : Nat}

theorem accepted_sound (found : accepted d lba = some g) : ∃ hdr, d.read lba 1 = some hdr ∧
    SoundHeader d.total lba hdr ∧ (geometry hdr).arrayEnds d.total = true ∧ g = geometry hdr := by
  obtain ⟨hdr, read, check⟩ := bind_eq_some_iff.mp found
  obtain ⟨sound, ends, rfl⟩ := gptCheckHeader_eq_some.mp check
  exact ⟨hdr, read, sound, ends, rfl⟩

theorem Agrees.accepted_iff (agrees : Agrees d lba) (below : lba < d.total) :
    accepted d lba = some g ↔ HeaderAt d lba g := by
  constructor
  · intro found
    obtain ⟨hdr, read, sound, ends, rfl⟩ := accepted_sound found
    have check := gptCheckHeader_eq_some.mpr ⟨sound, ends, rfl⟩
    exact ⟨below, hdr, read, (agrees hdr read).mp (by rw [check]; rfl), rfl⟩
  rintro ⟨-, hdr, read, valid, rfl⟩
  obtain ⟨g, check⟩ := isSome_iff_exists.mp ((agrees hdr read).mpr valid)
  obtain ⟨-, -, rfl⟩ := gptCheckHeader_eq_some.mp check
  unfold accepted
  rw [read]
  exact check

theorem Agrees.accepted_none (agrees : Agrees d lba) (below : lba < d.total) :
    accepted d lba = none ↔ ¬ ∃ g, HeaderAt d lba g := by
  rw [eq_none_iff_forall_ne_some, not_exists]
  exact forall_congr' fun g => not_congr (agrees.accepted_iff below)

section

variable (header : HeaderAt d lba g)
include header

theorem HeaderAt.inside : Inside d (g.entryLba, g.arraySectors) := by
  obtain ⟨-, hdr, -, valid, rfl⟩ := header
  exact valid.toSoundHeader.array_iff.mp valid

theorem HeaderAt.parsed_iff : (gptParseArray d g).isSome = true ↔ ArrayValid d g := by
  obtain ⟨-, hdr, -, valid, rfl⟩ := header
  exact gptParseArray_isSome valid.toSoundHeader

theorem HeaderAt.lastUsable : g.lastUsable < d.total := by
  obtain ⟨-, hdr, -, valid, rfl⟩ := header
  exact valid.usable.2.2

theorem HeaderAt.unique {g' : Geom} (other : HeaderAt d lba g') : g = g' := by
  obtain ⟨-, hdr, read, -, rfl⟩ := header
  obtain ⟨-, hdr', read', -, rfl⟩ := other
  rw [read] at read'
  cases read'
  rfl

/-- The header there is the only one, so its array decides. -/
theorem HeaderAt.table_iff :
    (∃ g, HeaderAt d lba g ∧ ArrayValid d g) ↔ (gptParseArray d g).isSome = true := by
  rw [header.parsed_iff]
  constructor
  · rintro ⟨g', header', array⟩
    rw [header.unique header']
    exact array
  · exact fun array => ⟨g, header, array⟩

end

theorem inside_one (below : lba < d.total) : Inside d (lba, 1) := by
  intro s low high
  omega

theorem bounded_of_parsed {entries : List GptEntry} (header : HeaderAt d lba g)
    (parsed : gptParseArray d g = some entries) (listed : disk.entries = entries)
    (first : disk.firstUsableLba = g.firstUsable) (last : disk.lastUsableLba = g.lastUsable) :
    Bounded d disk := by
  intro e member
  rw [listed] at member
  obtain ⟨low, order, high⟩ := gptParseArray_bounds parsed e member
  rw [first, last]
  exact ⟨low, order, high, header.lastUsable⟩

theorem bounded_nil (empty : disk.entries = []) : Bounded d disk := by
  intro e member
  rw [empty] at member
  cases member

/-- The fallback from a table that has nothing yet. -/
theorem gptBackup_spec (empty : disk.entries = []) (unused : disk.usedBackup = false)
    (agrees : 2 ≤ lba → lba < d.total → Agrees d lba) :
    (∀ r ∈ (gptBackup d lba disk).2, Inside d r) ∧ ((gptBackup d lba disk).1.valid = true ↔
        2 ≤ lba ∧ ∃ g, HeaderAt d lba g ∧ ArrayValid d g) ∧
      (gptBackup d lba disk).1.usedBackup = (gptBackup d lba disk).1.valid ∧
      Bounded d (gptBackup d lba disk).1 := by
  unfold gptBackup
  split_ifs with consulted
  · obtain ⟨positive, below, other⟩ := consulted
    have two : 2 ≤ lba := by omega
    have agrees := agrees two below
    cases found : accepted d lba with
    | none =>
      have missing := (agrees.accepted_none below).mp found
      refine ⟨?_, ⟨fun yes => (nomatch yes), ?_⟩, unused, bounded_nil empty⟩
      · rintro r member
        rw [mem_singleton.mp member]
        exact inside_one below
      · rintro ⟨-, g, header, -⟩
        exact absurd ⟨g, header⟩ missing
    | some g =>
      have header := (agrees.accepted_iff below).mp found
      have asked : ∀ r ∈ [(lba, 1), (g.entryLba, g.arraySectors)], Inside d r := by
        intro r member
        rcases mem_pair.mp member with rfl | rfl
        · exact inside_one below
        · exact header.inside
      dsimp only
      cases parsed : gptParseArray d g with
      | none =>
        refine ⟨asked, ⟨fun yes => (nomatch yes), ?_⟩, unused, bounded_nil empty⟩
        rw [header.table_iff, parsed]
        exact fun absent => (nomatch absent.2)
      | some entries =>
        refine ⟨asked, ⟨fun _ => ⟨two, ?_⟩, fun _ => rfl⟩, rfl,
          bounded_of_parsed header parsed rfl rfl rfl⟩
        rw [header.table_iff, parsed]
        rfl
  · refine ⟨fun r member => (nomatch member), ⟨fun yes => (nomatch yes), ?_⟩, unused,
      bounded_nil empty⟩
    rintro ⟨two, g, header, -⟩
    exact absurd ⟨by omega, header.1, by omega⟩ consulted

/-- The table as it stands when the primary header is accepted. -/
def adopted (g : Geom) : GptDisk := { GptDisk.zero.adopt g with primaryHeaderOk := true }

theorem gptParse_last (some : d.total ≠ 0) (found : accepted d 1 = none) :
    gptParse d = ((gptBackup d (d.total - 1) .zero).1,
      [(1, 1)] ++ (gptBackup d (d.total - 1) .zero).2) := by
  unfold gptParse
  rw [if_neg some, found]
  rfl

theorem gptParse_alt (some : d.total ≠ 0) (found : accepted d 1 = .some g)
    (parsed : gptParseArray d g = none) :
    gptParse d = ((gptBackup d g.altLba (adopted g)).1,
      [(1, 1), (g.entryLba, g.arraySectors)] ++ (gptBackup d g.altLba (adopted g)).2) := by
  unfold gptParse
  rw [if_neg some, found]
  dsimp only
  rw [parsed]
  rfl

theorem gptParse_primary {entries : List GptEntry} (some : d.total ≠ 0)
    (found : accepted d 1 = .some g) (parsed : gptParseArray d g = .some entries) :
    gptParse d = ({ adopted g with primaryArrayOk := true, valid := true, entries := entries },
      [(1, 1), (g.entryLba, g.arraySectors)]) := by
  unfold gptParse
  rw [if_neg some, found]
  dsimp only
  rw [parsed]
  rfl

theorem backupAt_last (missing : ¬ ∃ g, HeaderAt d 1 g) : BackupAt d lba ↔ lba = d.total - 1 := by
  constructor
  · rintro (⟨g, header, -⟩ | ⟨-, last⟩)
    · exact absurd ⟨g, header⟩ missing
    · exact last
  · exact fun last => .inr ⟨missing, last⟩

theorem backupAt_alt (header : HeaderAt d 1 g) : BackupAt d lba ↔ lba = g.altLba := by
  constructor
  · rintro (⟨g', header', alt⟩ | ⟨missing, -⟩)
    · rw [header.unique header']
      exact alt
    · exact absurd ⟨g, header⟩ missing
  · exact fun alt => .inl ⟨g, header, alt⟩

/-- Both ways into the fallback, once its header is known. -/
theorem parsed_of_backup (lba : Nat) (disk : GptDisk) (asked : List Request)
    (shape : gptParse d = ((gptBackup d lba disk).1, asked ++ (gptBackup d lba disk).2))
    (inside : ∀ r ∈ asked, Inside d r) (empty : disk.entries = [])
    (unused : disk.usedBackup = false) (missing : ¬ PrimaryTable d)
    (place : ∀ other, BackupAt d other ↔ other = lba)
    (agrees : 2 ≤ lba → lba < d.total → Agrees d lba) : Parsed d := by
  obtain ⟨more, valid, used, bounded⟩ := gptBackup_spec empty unused agrees
  have table : BackupTable d ↔ 2 ≤ lba ∧ ∃ g, HeaderAt d lba g ∧ ArrayValid d g := by
    constructor
    · rintro ⟨other, g, here, two, header, array⟩
      obtain rfl := (place other).mp here
      exact ⟨two, g, header, array⟩
    · rintro ⟨two, g, header, array⟩
      exact ⟨lba, g, (place lba).mpr rfl, two, header, array⟩
  refine ⟨?_, ?_, ?_, ?_⟩
  · rw [shape]
    intro r member
    rcases mem_append.mp member with early | late
    · exact inside r early
    · exact more r late
  · rw [shape, valid, ← table]
    exact (or_iff_right missing).symm
  · rw [shape, used, valid, ← table]
    exact (and_iff_right missing).symm
  · rw [shape]
    exact bounded

theorem parsed_of_empty (empty : d.total = 0) : Parsed d := by
  have nothing : gptParse d = (.zero, []) := if_pos empty
  have none : ∀ lba g, ¬ HeaderAt d lba g := by
    intro lba g header
    have below := header.1
    omega
  have missing : ¬ PrimaryTable d := fun ⟨g, header, _⟩ => none 1 g header
  have absent : ¬ BackupTable d := fun ⟨lba, g, _, _, header, _⟩ => none lba g header
  refine ⟨?_, ?_, ?_, ?_⟩
  · rw [nothing]
    exact fun r member => (nomatch member)
  · rw [nothing]
    exact ⟨fun yes => (nomatch yes), fun table => absurd table (not_or.mpr ⟨missing, absent⟩)⟩
  · rw [nothing]
    exact ⟨fun yes => (nomatch yes), fun table => absurd table.2 absent⟩
  · rw [nothing]
    exact bounded_nil rfl

theorem Fitting.parsed (fitting : Fitting d) : Parsed d := by
  by_cases empty : d.total = 0
  · exact parsed_of_empty empty
  have below : 1 < d.total := by
    have size := fitting.size
    omega
  cases found : accepted d 1 with
  | none =>
    have missing := (fitting.primary.accepted_none below).mp found
    have absent : ¬ PrimaryTable d := fun ⟨g, header, _⟩ => missing ⟨g, header⟩
    refine parsed_of_backup _ _ _ (gptParse_last empty found) ?_ rfl rfl absent
      (fun _ => backupAt_last missing) (fitting.backup absent _ ((backupAt_last missing).mpr rfl))
    intro r member
    rw [mem_singleton.mp member]
    exact inside_one below
  | some g =>
    have header := (fitting.primary.accepted_iff below).mp found
    have asked : ∀ r ∈ [(1, 1), (g.entryLba, g.arraySectors)], Inside d r := by
      intro r member
      rcases mem_pair.mp member with rfl | rfl
      · exact inside_one below
      · exact header.inside
    cases parsed : gptParseArray d g with
    | none =>
      have absent : ¬ PrimaryTable d := by
        unfold PrimaryTable
        rw [header.table_iff, parsed]
        exact Bool.false_ne_true
      exact parsed_of_backup _ _ _ (gptParse_alt empty found parsed) asked rfl rfl absent
        (fun _ => backupAt_alt header)
        (fitting.backup absent _ ((backupAt_alt header).mpr rfl))
    | some entries =>
      have table : PrimaryTable d := by
        unfold PrimaryTable
        rw [header.table_iff, parsed]
        rfl
      have shape := gptParse_primary empty found parsed
      refine ⟨?_, ?_, ?_, ?_⟩
      · rw [shape]
        exact asked
      · rw [shape]
        exact ⟨fun _ => .inl table, fun _ => rfl⟩
      · rw [shape]
        exact ⟨fun yes => (nomatch yes), fun absent => absurd table absent.1⟩
      · rw [shape]
        exact bounded_of_parsed header parsed rfl rfl rfl

theorem asked_header (some : d.total ≠ 0) : (1, 1) ∈ (gptParse d).2 := by
  cases found : accepted d 1 with
  | none =>
    rw [gptParse_last some found]
    exact mem_append_left _ (mem_singleton.mpr rfl)
  | some g =>
    cases parsed : gptParseArray d g with
    | none =>
      rw [gptParse_alt some found parsed]
      exact mem_append_left _ (mem_pair.mpr (.inl rfl))
    | some entries =>
      rw [gptParse_primary some found parsed]
      exact mem_pair.mpr (.inl rfl)

theorem asked_array (some : d.total ≠ 0) (found : accepted d 1 = .some g) :
    (g.entryLba, g.arraySectors) ∈ (gptParse d).2 := by
  cases parsed : gptParseArray d g with
  | none =>
    rw [gptParse_alt some found parsed]
    exact mem_append_left _ (mem_pair.mpr (.inr rfl))
  | some entries =>
    rw [gptParse_primary some found parsed]
    exact mem_pair.mpr (.inr rfl)

theorem asked_backup (two : 2 ≤ lba) (below : lba < d.total) (found : accepted d lba = some g) :
    (g.entryLba, g.arraySectors) ∈ (gptBackup d lba disk).2 := by
  unfold gptBackup
  rw [if_pos ⟨by omega, below, by omega⟩, found]
  dsimp only
  cases gptParseArray d g with
  | none => exact mem_pair.mpr (.inr rfl)
  | some entries => exact mem_pair.mpr (.inr rfl)

/-- An accepted header's array asked for on the disk: the check was right. -/
theorem agrees_of_asked (small : d.total < 2 ^ 55)
    (asked : ∀ g, accepted d lba = some g → Inside d (g.entryLba, g.arraySectors)) :
    Agrees d lba := by
  intro hdr read
  constructor
  · intro passed
    obtain ⟨g, check⟩ := isSome_iff_exists.mp passed
    obtain ⟨sound, -, rfl⟩ := gptCheckHeader_eq_some.mp check
    refine sound.array_iff.mpr (asked _ ?_)
    unfold accepted
    rw [read]
    exact check
  · intro valid
    rw [gptCheckHeader_eq_some.mpr ⟨valid.toSoundHeader, valid.arrayEnds small, rfl⟩]
    rfl

theorem Parsed.fitting (parsed : Parsed d) (small : d.total < 2 ^ 55) : Fitting d := by
  have size : d.total ≠ 1 := by
    intro one
    have below := parsed.asked _ (asked_header (by omega)) 1 (Nat.le_refl 1) Nat.one_lt_two
    omega
  have primary : Agrees d 1 := by
    refine agrees_of_asked small fun g found => parsed.asked _ (asked_array ?_ found)
    obtain ⟨hdr, -, sound, -⟩ := accepted_sound found
    have last := sound.usable.2.2
    omega
  refine ⟨size, primary, fun missing lba place two below => ?_⟩
  refine agrees_of_asked small fun g found => parsed.asked _ ?_
  have some : d.total ≠ 0 := by omega
  -- the header consulted is the one the fallback goes to
  cases first : accepted d 1 with
  | none =>
    have absent := (primary.accepted_none (by omega)).mp first
    obtain rfl := (backupAt_last absent).mp place
    rw [gptParse_last some first]
    exact mem_append_right _ (asked_backup two below found)
  | some g' =>
    have header := (primary.accepted_iff (by omega)).mp first
    obtain rfl := (backupAt_alt header).mp place
    cases array : gptParseArray d g' with
    | none =>
      rw [gptParse_alt some first array]
      exact mem_append_right _ (asked_backup two below found)
    | some entries =>
      refine absurd ?_ missing
      unfold PrimaryTable
      rw [header.table_iff, array]
      rfl

end

/-- A disk with properly checked headers is parsed properly, and below 2 ^ 55 sectors no other is.
-/
theorem disks_parse_faithfully (d : Disk) :
    (Fitting d → Parsed d) ∧ (d.total < 2 ^ 55 → Parsed d → Fitting d) :=
  ⟨fun fitting => fitting.parsed, fun small parsed => parsed.fitting small⟩

/-- 64 sectors, one partition, the given checksum and place of the array. -/
def sample (crc entryLba : Nat) : Disk where
  total := 64
  sized := by decide
  content i :=
    if i < 1024 then
      (signature ++ bytesOf 4 0x00010000 ++ bytesOf 4 92 ++ bytesOf 4 crc ++ bytesOf 4 0 ++
        bytesOf 8 1 ++ bytesOf 8 63 ++ bytesOf 8 3 ++ bytesOf 8 62 ++ bytesOf 16 0 ++
        bytesOf 8 entryLba ++ bytesOf 4 1 ++ bytesOf 4 128 ++ bytesOf 4 0x836C3C53).getD (i - 512) 0
    else
      (bytesOf 16 0x3BC93EC9A0004BBA11D2F81FC12A7328 ++ bytesOf 16 0 ++ bytesOf 8 3 ++
        bytesOf 8 62).getD (i - 1024) 0
  fails _ _ := false

def sampleHeader (crc entryLba : Nat) (i : Nat) : Byte :=
  (sample crc entryLba).content (512 * 1 + i)

theorem sample_read (crc entryLba : Nat) :
    (sample crc entryLba).read 1 1 = some (sampleHeader crc entryLba) := rfl

theorem sample_sound : SoundHeader 64 1 (sampleHeader 0x8A2E409A 2) := by
  refine ⟨?_, ?_, ?_, ?_, ?_, ?_, ?_, ?_⟩ <;> decide +kernel

theorem wrapped_sound : SoundHeader 64 1 (sampleHeader 0xC393D9F4 (2 ^ 55)) := by
  refine ⟨?_, ?_, ?_, ?_, ?_, ?_, ?_, ?_⟩ <;> decide +kernel

theorem sample_valid : ValidHeader 64 1 (sampleHeader 0x8A2E409A 2) :=
  ⟨sample_sound, by decide +kernel⟩

theorem sample_primary : PrimaryTable (sample 0x8A2E409A 2) := by
  have array : ArrayValid (sample 0x8A2E409A 2) (geometry (sampleHeader 0x8A2E409A 2)) :=
    ⟨_, rfl, by decide +kernel⟩
  exact ⟨_, ⟨by decide, _, sample_read _ _, sample_valid, rfl⟩, array⟩

/-- The sample disk has a table, and it is parsed as it should be. -/
theorem disks_parse_faithfully_sample :
    Parsed (sample 0x8A2E409A 2) ∧ PrimaryTable (sample 0x8A2E409A 2) := by
  have agrees : Agrees (sample 0x8A2E409A 2) 1 := by
    intro hdr read
    cases read
    refine ⟨fun _ => sample_valid, fun _ => ?_⟩
    have check := gptCheckHeader_eq_some.mpr ⟨sample_sound, sample_valid.arrayEnds (by decide), rfl⟩
    exact Option.isSome_iff_exists.mpr ⟨_, check⟩
  exact ⟨(disks_parse_faithfully (sample 0x8A2E409A 2)).1
    ⟨by decide, agrees, fun missing => absurd sample_primary missing⟩, sample_primary⟩

/-- The sum wraps: sector 2 ^ 55 of a disk of 64 passes. -/
theorem sector_asked_past_end :
    (sample 0xC393D9F4 (2 ^ 55)).total = 64 ∧
      (2 ^ 55, 1) ∈ (gptParse (sample 0xC393D9F4 (2 ^ 55))).2 := by
  have ends : (geometry (sampleHeader 0xC393D9F4 (2 ^ 55))).arrayEnds 64 = true := by decide +kernel
  have found : accepted (sample 0xC393D9F4 (2 ^ 55)) 1 =
      some (geometry (sampleHeader 0xC393D9F4 (2 ^ 55))) := by
    unfold accepted
    rw [sample_read, Option.bind_some]
    exact gptCheckHeader_eq_some.mpr ⟨wrapped_sound, ends, rfl⟩
  refine ⟨rfl, ?_⟩
  exact asked_array (by decide) found

end IcsOs.Partition.Gpt
