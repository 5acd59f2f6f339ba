/- GID: IcsOs/BlkCache/PageCache
   generality: I
   source: kernel/iomgr/blkcache.c, kernel/iomgr/blkcache.h
   digest: The page-cache table, its hash probe, its claim of a victim and the store it represents.
   -/

import Mathlib.Algebra.Group.Int.Defs
import Mathlib.Algebra.Group.Nat.Defs
import Mathlib.Data.List.FinRange
import IcsOs.Lib.WriteBack

set_option autoImplicit false

namespace IcsOs.BlkCache.PageCache

open Lib.WriteBack

def pcSize : Nat := 4096

def pcNPages : Nat := 4096

def pcMaxIo : Nat := 32 * pcSize

def maxDevices : Nat := 255

abbrev Slot := Fin pcNPages

/-- A caller's buffer, addressed by byte offset. -/
abbrev Buf := Nat → UInt8

/-- `memcpy(dst + dstOff, src + srcOff, n)`. -/
def memcpy (dst : Buf) (dstOff : Nat) (src : Buf) (srcOff n : Nat) : Buf := fun k =>
  if dstOff ≤ k ∧ k < dstOff + n then src (srcOff + (k - dstOff)) else dst k

/-- `uptodate` and `dirty` are bits of `flags`; `data` is used below `pcSize`. -/
structure PcPage where
  deviceid : Int
  index : Nat
  age : Nat
  generation : Nat
  deviceGeneration : Nat
  uptodate : Bool
  dirty : Bool
  data : Buf

/-- What the cache asks of a registered `devmgr_block_desc`. -/
structure BlockDesc where
  generation : Nat
  getBlockSize : Option Nat
  isBlock : Bool
  readBlock : Bool
  writeBlock : Bool

/-- `pc_bsz` and `pc_bsz_generation`. -/
structure BsizeTable where
  bsz : Int → Nat
  generation : Int → Nat

/-- The cache, the live descriptors, and the bytes of every device generation. -/
structure State where
  pcTab : Slot → PcPage
  sizes : BsizeTable
  pcClock : Nat
  pcDirty : Nat
  devlist : Int → Option BlockDesc
  media : Int → Nat → Nat → UInt8

def blkcacheWritebackIsCurrent (sameKey : Bool) (currentGeneration writtenGeneration : Nat) :
    Bool :=
  sameKey && currentGeneration == writtenGeneration

def blkcacheDeviceKeyIsCurrent (cachedGeneration liveGeneration : Nat) : Bool :=
  cachedGeneration != 0 && cachedGeneration == liveGeneration

def validHandle (deviceid : Int) : Bool :=
  decide (0 ≤ deviceid ∧ deviceid < maxDevices)

/-- `devmgr_getdevice_ref`; `none` is the pointer `-1`. -/
def devmgrGetdeviceRef (s : State) (deviceid : Int) : Option BlockDesc :=
  if validHandle deviceid then s.devlist deviceid else none

def devmgrGetGeneration (s : State) (deviceid : Int) : Nat :=
  match devmgrGetdeviceRef s deviceid with
  | some desc => desc.generation
  | none => 0

def pcValidBsize (size : Nat) : Bool :=
  size == 512 || size == 1024 || size == 2048 || size == 4096

/-- The block size where the table of `pc_bsize` has no live entry. -/
def blockUnit (desc : Option BlockDesc) : Nat :=
  match desc.bind BlockDesc.getBlockSize with
  | some got => if pcValidBsize got then got else 512
  | none => 512

def BsizeTable.store (t : BsizeTable) (deviceid : Int) (size generation : Nat) : BsizeTable :=
  if generation != 0 && pcValidBsize size then
    ⟨Function.update t.bsz deviceid size, Function.update t.generation deviceid generation⟩
  else t

def pcRememberBsize (s : State) (deviceid : Int) : State :=
  { s with sizes :=
      match devmgrGetdeviceRef s deviceid with
      | some desc =>
        match desc.getBlockSize with
        | some got => s.sizes.store deviceid got desc.generation
        | none => s.sizes
      | none => s.sizes }

def bsizeHit (s : State) (deviceid : Int) : Bool :=
  s.sizes.bsz deviceid != 0 && s.sizes.generation deviceid == devmgrGetGeneration s deviceid

/-- `pc_bsize`, with the table entry it leaves behind. -/
def pcBsize (s : State) (deviceid : Int) : Nat × State :=
  if !validHandle deviceid then (512, s)
  else if bsizeHit s deviceid then (s.sizes.bsz deviceid, s)
  else
    let size := blockUnit (devmgrGetdeviceRef s deviceid)
    (size, { s with sizes := s.sizes.store deviceid size (devmgrGetGeneration s deviceid) })

/-- `pc_slot`: 32-bit multiplicative hash of the page key. -/
def pcSlot (deviceid : Int) (index : Nat) : Nat :=
  ((index % 2 ^ 32) * 2654435761 + (index / 2 ^ 32 % 2 ^ 32) * 2246822519 +
    (deviceid % 2 ^ 32).toNat * 40503) % 2 ^ 32 % pcNPages

/-- The eight slots of a hash neighbourhood. -/
def probeSlots (start : Nat) : List Slot :=
  (List.range 8).map fun probe => ⟨(start + probe) % pcNPages, Nat.mod_lt _ (by decide)⟩

/-- The key test both loops of `pc_lookup` make. -/
def keyMatches (s : State) (deviceid : Int) (index : Nat) (p : PcPage) : Bool :=
  p.uptodate && p.deviceid == deviceid &&
    blkcacheDeviceKeyIsCurrent p.deviceGeneration (devmgrGetGeneration s deviceid) &&
    p.index == index

/-- The neighbourhood first, then the whole table. -/
def pcLookup (s : State) (deviceid : Int) (index : Nat) : Option Slot :=
  ((probeSlots (pcSlot deviceid index)).find? fun j => keyMatches s deviceid index (s.pcTab j)).or
    ((List.finRange pcNPages).find? fun j => keyMatches s deviceid index (s.pcTab j))

/-- A loop of `pc_claim`: an empty slot ends it, an older clean one replaces the best. -/
def claimScan (tab : Slot → PcPage) : List Slot → Option Slot × Nat → Option Slot × Nat
  | [], best => best
  | j :: rest, (idx, oldest) =>
    if !(tab j).uptodate then (some j, oldest)
    else if !(tab j).dirty && (tab j).age < oldest then
      claimScan tab rest (some j, (tab j).age)
    else claimScan tab rest (idx, oldest)

/-- The second loop of `pc_claim` runs only when the first found none. -/
def claimVictim (s : State) (deviceid : Int) (index : Nat) : Option Slot :=
  match claimScan s.pcTab (probeSlots (pcSlot deviceid index)) (none, 2 ^ 32 - 1) with
  | (some j, _) => some j
  | (none, oldest) => (claimScan s.pcTab (List.finRange pcNPages) (none, oldest)).1

def setLine (s : State) (j : Slot) (p : PcPage) : State :=
  { s with pcTab := Function.update s.pcTab j p }

/-- The victim's line re-keyed with its flags cleared. -/
def rekey (s : State) (deviceid : Int) (index : Nat) (j : Slot) : State :=
  setLine s j { s.pcTab j with
      deviceid := deviceid, index := index, generation := 0,
      deviceGeneration := devmgrGetGeneration s deviceid, uptodate := false, dirty := false }

def pcClaim (s : State) (deviceid : Int) (index : Nat) : Option (Slot × State) :=
  match pcLookup s deviceid index with
  | some j => some (j, s)
  | none =>
    match claimVictim s deviceid index with
    | none => none
    | some j => if (s.pcTab j).dirty then none else some (j, rekey s deviceid index j)

/-- `++pc_clock`. -/
def nextClock (s : State) : Nat := (s.pcClock + 1) % 2 ^ 32

/-- Replace the line of slot `j`, stamping it with the advanced clock. -/
def stamp (s : State) (j : Slot) (p : PcPage) : State :=
  { s with
    pcClock := nextClock s
    pcTab := Function.update s.pcTab j { p with age := nextClock s } }

def transferUnit (s : State) (deviceid : Int) : Nat :=
  blockUnit (devmgrGetdeviceRef s deviceid)

/-- The checks of `pc_dev_rw`; `expected` is zero for none. The result is the live generation. -/
def pcDevOpen (s : State) (deviceid : Int) (expected : Nat) : Option BlockDesc :=
  match devmgrGetdeviceRef s deviceid with
  | none => none
  | some desc =>
    if !desc.isBlock then none
    else if desc.generation == 0 || (expected != 0 && expected != desc.generation) then none
    else some desc

/-- `pc_dev_rw` reading: the bytes transferred and the generation reported. -/
def pcDevRead (s : State) (deviceid : Int) (lba : Nat) : Option (Buf × Nat) :=
  match pcDevOpen s deviceid 0 with
  | none => none
  | some desc =>
    if desc.readBlock then
      some (fun k => s.media deviceid desc.generation (lba * transferUnit s deviceid + k),
        desc.generation)
    else none

/-- `pc_dev_rw` writing `nsect` blocks of `buf`. -/
def pcDevWrite (s : State) (deviceid : Int) (expected lba nsect : Nat) (buf : Buf) :
    Option State :=
  match pcDevOpen s deviceid expected with
  | none => none
  | some desc =>
    if desc.writeBlock then
      some { s with
        media := Function.update s.media deviceid
          (Function.update (s.media deviceid) desc.generation
            (memcpy (s.media deviceid desc.generation) (lba * transferUnit s deviceid) buf 0
              (nsect * transferUnit s deviceid))) }
    else none

variable {d : Int} {i j : Slot} {p : PcPage} {pg : Nat} {s : State}

/-- Slot `j` answers a lookup of page `index` of `deviceid`. -/
def Hits (s : State) (deviceid : Int) (index : Nat) (j : Slot) : Prop :=
  keyMatches s deviceid index (s.pcTab j) = true

instance (s : State) (deviceid : Int) (index : Nat) (j : Slot) :
    Decidable (Hits s deviceid index j) := inferInstanceAs (Decidable (_ = true))

theorem hits_iff (s : State) (d : Int) (pg : Nat) (j : Slot) :
    Hits s d pg j ↔ (s.pcTab j).uptodate = true ∧ (s.pcTab j).deviceid = d ∧
      (s.pcTab j).index = pg ∧ (s.pcTab j).deviceGeneration ≠ 0 ∧
      (s.pcTab j).deviceGeneration = devmgrGetGeneration s d := by
  simp only [Hits, keyMatches, blkcacheDeviceKeyIsCurrent, Bool.and_eq_true, bne_iff_ne, beq_iff_eq]
  tauto

theorem pcLookup_hits (found : pcLookup s d pg = some j) : Hits s d pg j := by
  unfold pcLookup at found
  rcases Option.or_eq_some_iff.mp found with near | ⟨_, far⟩
  · exact List.find?_some (p := fun j => keyMatches s d pg (s.pcTab j)) near
  · exact List.find?_some (p := fun j => keyMatches s d pg (s.pcTab j)) far

theorem pcLookup_none : pcLookup s d pg = none ↔ ∀ j, ¬Hits s d pg j := by
  unfold pcLookup
  rw [Option.or_eq_none_iff]
  constructor
  · intro missing j hit
    have far := List.find?_eq_none.mp missing.2 j (List.mem_finRange j)
    exact far hit
  intro missing
  refine ⟨List.find?_eq_none.mpr ?_, List.find?_eq_none.mpr ?_⟩
  · intro j _
    exact missing j
  · intro j _
    exact missing j

/-- No page key of a live generation is answered by two slots. -/
def Uniq (s : State) : Prop :=
  ∀ d pg i j, Hits s d pg i → Hits s d pg j → i = j

theorem pcLookup_eq_some (uniq : Uniq s) : pcLookup s d pg = some j ↔ Hits s d pg j := by
  constructor
  · exact pcLookup_hits
  intro hit
  cases found : pcLookup s d pg with
  | none => exact absurd hit (pcLookup_none.mp found j)
  | some i => rw [uniq d pg i j (pcLookup_hits found) hit]

theorem hits_key {d' : Int} {pg' : Nat} (hit : Hits s d pg j) (hit' : Hits s d' pg' j) :
    d = d' ∧ pg = pg' := by
  rw [hits_iff] at hit hit'
  exact ⟨hit.2.1.symm.trans hit'.2.1, hit.2.2.1.symm.trans hit'.2.2.1⟩

theorem setLine_hits_of_ne (other : i ≠ j) (p : PcPage) (d : Int) (pg : Nat) :
    Hits (setLine s j p) d pg i ↔ Hits s d pg i := by
  simp [Hits, setLine, Function.update_of_ne other, keyMatches, devmgrGetGeneration,
    devmgrGetdeviceRef]

theorem setLine_hits_self : Hits (setLine s j p) d pg j ↔ keyMatches s d pg p = true := by
  simp [Hits, setLine, keyMatches, devmgrGetGeneration, devmgrGetdeviceRef]

theorem claimScan_none {tab : Slot → PcPage} (full : ∀ j, (tab j).uptodate = true)
    (dirty : ∀ j, (tab j).dirty = true) (slots : List Slot) (oldest : Nat) :
    claimScan tab slots (none, oldest) = (none, oldest) := by
  induction slots with
  | nil => rfl
  | cons j rest ih => simp [claimScan, full j, dirty j, ih]

/-- A table whose lines are all dirty has no victim. -/
theorem pcClaim_full (absent : pcLookup s d pg = none) (full : ∀ j, (s.pcTab j).uptodate = true)
    (dirty : ∀ j, (s.pcTab j).dirty = true) : pcClaim s d pg = none := by
  simp only [pcClaim, absent, claimVictim, claimScan_none full dirty]

theorem pcClaim_spec {s' : State} (absent : pcLookup s d pg = none)
    (claimed : pcClaim s d pg = some (j, s')) :
    (s.pcTab j).dirty = false ∧ s' = rekey s d pg j := by
  simp only [pcClaim, absent] at claimed
  cases victim : claimVictim s d pg with
  | none => simp [victim] at claimed
  | some i =>
    simp only [victim] at claimed
    split at claimed
    · cases claimed
    · rename_i undirty
      cases claimed
      exact ⟨by simpa using undirty, rfl⟩

/-- The write-back store a state stands for, one key per device byte. -/
def storeOf (s : State) : Store (Int × Nat) UInt8 where
  line k := (pcLookup s k.1 (k.2 / pcSize)).map fun j =>
    ((s.pcTab j).data (k.2 % pcSize), (s.pcTab j).dirty)
  back k := s.media k.1 (devmgrGetGeneration s k.1) k.2

/-- Byte `b` of device `d` to a reader: the live up-to-date line, else the device. -/
def logical (s : State) (d : Int) (b : Nat) : UInt8 :=
  match pcLookup s d (b / pcSize) with
  | some j => (s.pcTab j).data (b % pcSize)
  | none => s.media d (devmgrGetGeneration s d) b

theorem storeOf_logical (s : State) (d : Int) (b : Nat) :
    (storeOf s).logical (d, b) = logical s d b := by
  simp only [Store.logical, storeOf, logical]
  cases pcLookup s d (b / pcSize) <;> rfl

theorem storeOf_hits (uniq : Uniq s) {b : Nat} (hit : Hits s d (b / pcSize) j) :
    (storeOf s).line (d, b) = some ((s.pcTab j).data (b % pcSize), (s.pcTab j).dirty) := by
  simp only [storeOf, (pcLookup_eq_some uniq).mpr hit, Option.map_some]

theorem storeOf_none {b : Nat} (absent : ∀ j, ¬Hits s d (b / pcSize) j) :
    (storeOf s).line (d, b) = none := by
  simp only [storeOf, pcLookup_none.mpr absent, Option.map_none]

/-- The keys slot `j` answers for. -/
def slotKeys (s : State) (j : Slot) : Set (Int × Nat) :=
  {k | Hits s k.1 (k.2 / pcSize) j}

def pageKeys (d : Int) (pg : Nat) : Set (Int × Nat) :=
  {k | k.1 = d ∧ k.2 / pcSize = pg}

/-- A line that answers no key. -/
def Mute (s : State) (p : PcPage) : Prop := ∀ d pg, keyMatches s d pg p = false

theorem mute_of_flags (dead : p.uptodate = false) : Mute s p := by
  intro d pg
  simp [keyMatches, dead]

theorem mute_of_unregistered (dead : p.deviceGeneration = 0) : Mute s p := by
  intro d pg
  simp [keyMatches, blkcacheDeviceKeyIsCurrent, dead]

theorem kill_hits (mute : Mute s p) : Hits (setLine s j p) d pg i ↔ i ≠ j ∧ Hits s d pg i := by
  by_cases same : i = j
  · subst same
    rw [setLine_hits_self, mute]
    simp
  · simp only [ne_eq, same, not_false_eq_true, true_and]
    exact setLine_hits_of_ne same p d pg

theorem kill_uniq (uniq : Uniq s) (mute : Mute s p) : Uniq (setLine s j p) := by
  intro d pg i k hi hk
  exact uniq d pg i k ((kill_hits mute).mp hi).2 ((kill_hits mute).mp hk).2

theorem storeOf_kill (uniq : Uniq s) (mute : Mute s p) :
    storeOf (setLine s j p) = (storeOf s).drop (slotKeys s j) := by
  ext1
  · funext k
    obtain ⟨d, b⟩ := k
    by_cases mine : Hits s d (b / pcSize) j
    · rw [storeOf_none]
      · simp [Store.drop, slotKeys, mine]
      · intro i hit
        obtain ⟨other, hit⟩ := (kill_hits mute).mp hit
        exact other (uniq _ _ _ _ hit mine)
    · have kept : (storeOf (setLine s j p)).line (d, b) = (storeOf s).line (d, b) := by
        cases found : pcLookup s d (b / pcSize) with
        | none =>
          rw [storeOf_none, storeOf_none (pcLookup_none.mp found)]
          intro i hit
          exact pcLookup_none.mp found i ((kill_hits mute).mp hit).2
        | some i =>
          have hit := pcLookup_hits found
          have other : i ≠ j := fun same => mine (same ▸ hit)
          rw [storeOf_hits uniq hit,
            storeOf_hits (kill_uniq uniq mute) ((kill_hits mute).mpr ⟨other, hit⟩)]
          simp [setLine, Function.update_of_ne other]
      rw [kept]
      simp [Store.drop, slotKeys, mine]
  · rfl

theorem rekey_hits {d' : Int} {pg' : Nat} :
    Hits (rekey s d pg j) d' pg' i ↔ i ≠ j ∧ Hits s d' pg' i :=
  kill_hits (mute_of_flags rfl)

end IcsOs.BlkCache.PageCache
