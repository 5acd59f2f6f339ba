/- GID: IcsOs/BlkCache/Requests
   generality: I
   source: kernel/iomgr/blkcache.c
   digest: Copy-out, run filling, reads, writes, write-back and invalidation of the page cache. -/

import IcsOs.BlkCache.PageCache

set_option autoImplicit false

namespace IcsOs.BlkCache.Requests

open BlkCache.PageCache

/-- Bytes of the chunk at byte `pos` with `left` bytes of the request to go. -/
def chunkLen (pos left : Nat) : Nat :=
  min (pcSize - pos % pcSize) left

theorem chunkLen_pos (pos : Nat) {left : Nat} (more : 0 < left) : 0 < chunkLen pos left := by
  have inside : pos % pcSize < pcSize := Nat.mod_lt _ (by decide)
  unfold chunkLen
  omega

theorem chunkLen_le (pos left : Nat) : chunkLen pos left ≤ left := Nat.min_le_right _ _

theorem chunkLen_fits (pos left : Nat) : pos % pcSize + chunkLen pos left ≤ pcSize := by
  have inside : pos % pcSize < pcSize := Nat.mod_lt _ (by decide)
  unfold chunkLen
  omega

/-- The loop of `pc_copy_out` from `done` on. -/
def copyOutLoop (s : State) (deviceid : Int) (byteOff nbytes : Nat) (dst : Buf) (done : Nat) :
    Bool × State × Buf :=
  if _more : done < nbytes then
    let pos := byteOff + done
    let n := chunkLen pos (nbytes - done)
    match pcLookup s deviceid (pos / pcSize) with
    | none => (false, s, dst)
    | some j =>
      copyOutLoop (stamp s j (s.pcTab j)) deviceid byteOff nbytes
        (memcpy dst done (s.pcTab j).data (pos % pcSize) n) (done + n)
  else (true, s, dst)
termination_by nbytes - done
decreasing_by
  have := chunkLen_pos (byteOff + done) (show 0 < nbytes - done by omega)
  omega

def pcCopyOut (s : State) (deviceid : Int) (byteOff nbytes : Nat) (dst : Buf) :
    Bool × State × Buf :=
  copyOutLoop s deviceid byteOff nbytes dst 0

/-- First loop of `pc_fill_range`: skip the resident pages. -/
def skipResident (s : State) (deviceid : Int) (pg1 pg : Nat) : Nat :=
  if pg ≤ pg1 ∧ (pcLookup s deviceid pg).isSome then skipResident s deviceid pg1 (pg + 1) else pg
termination_by pg1 + 1 - pg

/-- Second loop of `pc_fill_range`: extend the run of absent pages. -/
def runEnd (s : State) (deviceid : Int) (pg1 run0 pg : Nat) : Nat :=
  if pg ≤ pg1 ∧ (pcLookup s deviceid pg).isNone ∧ (pg - run0 + 1) * pcSize ≤ pcMaxIo then
    runEnd s deviceid pg1 run0 (pg + 1)
  else pg
termination_by pg1 + 1 - pg

/-- What `pc_fill_range` leaves in a claimed slot for page `i`. -/
def filledLine (p : PcPage) (deviceGeneration i : Nat) (bounce : Buf) : PcPage :=
  { p with
    deviceGeneration := deviceGeneration, uptodate := true, dirty := false
    data := memcpy p.data 0 bounce (i * pcSize) pcSize }

/-- One turn of the installing loop of `pc_fill_range`. -/
def installPage (deviceid : Int) (run0 deviceGeneration : Nat) (bounce : Buf) (s : State)
    (i : Nat) : State :=
  match pcLookup s deviceid (run0 + i) with
  | some _ => s
  | none =>
    match pcClaim s deviceid (run0 + i) with
    | none => s
    | some (j, t) => stamp t j (filledLine (t.pcTab j) deviceGeneration i bounce)

def installRun (s : State) (deviceid : Int) (run0 deviceGeneration np : Nat) (bounce : Buf) :
    State :=
  (List.range np).foldl (installPage deviceid run0 deviceGeneration bounce) s

theorem skipResident_le (s : State) (d : Int) (pg1 pg : Nat) : pg ≤ skipResident s d pg1 pg := by
  fun_induction skipResident s d pg1 pg with
  | case1 pg more ih => omega
  | case2 pg stop => exact le_rfl

theorem skipResident_absent (s : State) (d : Int) (pg1 pg : Nat)
    (inside : skipResident s d pg1 pg ≤ pg1) :
    pcLookup s d (skipResident s d pg1 pg) = none := by
  fun_induction skipResident s d pg1 pg with
  | case1 pg more ih => exact ih inside
  | case2 pg stop =>
    cases found : pcLookup s d pg with
    | none => rfl
    | some j => exact absurd ⟨inside, by simp [found]⟩ stop

theorem runEnd_le (s : State) (d : Int) (pg1 run0 pg : Nat) : pg ≤ runEnd s d pg1 run0 pg := by
  fun_induction runEnd s d pg1 run0 pg with
  | case1 pg more ih => omega
  | case2 pg stop => exact le_rfl

theorem runEnd_gt (s : State) (d : Int) (pg1 run0 : Nat) (inside : run0 ≤ pg1)
    (absent : pcLookup s d run0 = none) : run0 < runEnd s d pg1 run0 run0 := by
  rw [runEnd, if_pos ⟨inside, by simp [absent], by simp [pcMaxIo, pcSize]⟩]
  exact runEnd_le s d pg1 run0 (run0 + 1)

/-- The outer loop of `pc_fill_range`; `malloc` answers its allocations by number. -/
def fillLoop (s : State) (deviceid : Int) (sectPer pg1 : Nat) (malloc : Nat → Bool)
    (calls pg : Nat) : Bool × State :=
  if _inside : skipResident s deviceid pg1 pg ≤ pg1 then
    let run0 := skipResident s deviceid pg1 pg
    let next := runEnd s deviceid pg1 run0 run0
    if !malloc calls then (false, s)
    else
      match pcDevRead s deviceid (run0 * sectPer) with
      | none => (false, s)
      | some (bounce, generation) =>
        fillLoop (installRun s deviceid run0 generation (next - run0) bounce) deviceid sectPer
          pg1 malloc (calls + 1) next
  else (true, s)
termination_by pg1 + 1 - pg
decreasing_by
  have lower := skipResident_le s deviceid pg1 pg
  have upper := runEnd_gt s deviceid pg1 _ _inside (skipResident_absent s deviceid pg1 pg _inside)
  omega

def pcFillRange (s : State) (deviceid : Int) (pg0 pg1 : Nat) (malloc : Nat → Bool) :
    Bool × State :=
  let sized := pcBsize s deviceid
  fillLoop sized.2 deviceid (pcSize / sized.1) pg1 malloc 0 pg0

/-- The cached attempts of `blkcache_read`; `false` is a `return pc_dev_rw(...)`. -/
def readThrough (s : State) (deviceid : Int) (start nbytes : Nat) (dst : Buf)
    (malloc : Nat → Bool) : Bool × State × Buf :=
  match pcCopyOut s deviceid start nbytes dst with
  | (true, s1, dst1) => (true, s1, dst1)
  | (false, s1, dst1) =>
    match pcFillRange s1 deviceid (start / pcSize) ((start + nbytes - 1) / pcSize) malloc with
    | (false, s2) => (false, s2, dst1)
    | (true, s2) => pcCopyOut s2 deviceid start nbytes dst1

/-- The sizing step of `blkcache_read` and `blkcache_write`. -/
def openRange (s : State) (deviceid : Int) : Nat × State :=
  pcBsize (pcRememberBsize s deviceid) deviceid

def blkcacheRead (s : State) (deviceid : Int) (sector numblocks : Nat) (dst : Buf)
    (malloc : Nat → Bool) : Bool × State × Buf :=
  if numblocks = 0 then (false, s, dst)
  else
    let sized := openRange s deviceid
    match readThrough sized.2 deviceid (sector * sized.1) (numblocks * sized.1) dst malloc with
    | (true, s1, dst1) => (true, s1, dst1)
    | (false, s1, dst1) =>
      match pcDevRead s1 deviceid sector with
      | none => (false, s1, dst1)
      | some (bytes, _) => (true, s1, memcpy dst1 0 bytes 0 (numblocks * transferUnit s1 deviceid))

/-- The chunk `blkcache_write` stores into the line of slot `j`. -/
def storedLine (p : PcPage) (poff n done : Nat) (src : Buf) : PcPage :=
  { p with
    generation := (p.generation + 1) % 2 ^ 32, uptodate := true, dirty := true
    data := memcpy p.data poff src done n }

def storeChunk (s : State) (j : Slot) (poff n done : Nat) (src : Buf) : State :=
  let t := stamp s j (storedLine (s.pcTab j) poff n done src)
  { t with pcDirty := if (s.pcTab j).dirty then s.pcDirty else (s.pcDirty + 1) % 2 ^ 32 }

/-- A claimed line, zeroed when the write covers only part of its page. -/
def blankLine (p : PcPage) (whole : Bool) : PcPage :=
  { p with
    uptodate := true, dirty := false
    data := if whole then p.data else memcpy p.data 0 (fun _ => 0) 0 pcSize }

def wholeChunk (pos left : Nat) : Bool :=
  pos % pcSize == 0 && chunkLen pos left == pcSize

/-- A turn of `blkcache_write`; `none` is its `fail`. -/
def writeChunk (s : State) (deviceid : Int) (pos left done : Nat) (src : Buf) : Option State :=
  let n := chunkLen pos left
  match pcLookup s deviceid (pos / pcSize) with
  | some j => some (storeChunk s j (pos % pcSize) n done src)
  | none =>
    match pcClaim s deviceid (pos / pcSize) with
    | none => none
    | some (j, t) =>
      some (storeChunk (setLine t j (blankLine (t.pcTab j) (wholeChunk pos left))) j
        (pos % pcSize) n done src)

/-- The loop of `blkcache_write` from `done` on. -/
def writeLoop (s : State) (deviceid : Int) (start total : Nat) (src : Buf) (done : Nat) :
    Bool × State :=
  if _more : done < total then
    match writeChunk s deviceid (start + done) (total - done) done src with
    | none => (false, s)
    | some t => writeLoop t deviceid start total src (done + chunkLen (start + done) (total - done))
  else (true, s)
termination_by total - done
decreasing_by
  have := chunkLen_pos (start + done) (show 0 < total - done by omega)
  omega

/-- An edge of the range lies inside a page. -/
def unaligned (start total : Nat) : Bool :=
  start % pcSize != 0 || (start + total) % pcSize != 0

/-- The cached part of `blkcache_write`; `false` is a `return pc_dev_rw(...)`. -/
def writeThrough (s : State) (deviceid : Int) (start total : Nat) (src : Buf)
    (malloc : Nat → Bool) : Bool × State :=
  if unaligned start total then
    match pcFillRange s deviceid (start / pcSize) ((start + total - 1) / pcSize) malloc with
    | (false, s1) => (false, s1)
    | (true, s1) => writeLoop s1 deviceid start total src 0
  else writeLoop s deviceid start total src 0

def blkcacheWrite (s : State) (deviceid : Int) (sector numblocks : Nat) (src : Buf)
    (malloc : Nat → Bool) : Bool × State :=
  if numblocks = 0 then (false, s)
  else
    let sized := openRange s deviceid
    match writeThrough sized.2 deviceid (sector * sized.1) (numblocks * sized.1) src malloc with
    | (true, s1) => (true, s1)
    | (false, s1) =>
      match pcDevWrite s1 deviceid 0 sector numblocks src with
      | none => (false, s1)
      | some s2 => (true, s2)

/-- The chunk `blkcache_put` copies into a line; its flags stay. -/
def putLine (p : PcPage) (poff n done : Nat) (src : Buf) : PcPage :=
  { p with data := memcpy p.data poff src done n }

/-- A turn of `blkcache_put`; `none` is its `return 0`. -/
def putChunk (s : State) (deviceid : Int) (pos left done : Nat) (src : Buf) : Option State :=
  let n := chunkLen pos left
  match pcLookup s deviceid (pos / pcSize) with
  | some j => some (stamp s j (putLine (s.pcTab j) (pos % pcSize) n done src))
  | none =>
    match pcClaim s deviceid (pos / pcSize) with
    | none => none
    | some (j, t) =>
      some (stamp t j (putLine (blankLine (t.pcTab j) (wholeChunk pos left)) (pos % pcSize) n
        done src))

/-- The loop of `blkcache_put` from `done` on. -/
def putLoop (s : State) (deviceid : Int) (start total : Nat) (src : Buf) (done : Nat) :
    Bool × State :=
  if _more : done < total then
    match putChunk s deviceid (start + done) (total - done) done src with
    | none => (false, s)
    | some t => putLoop t deviceid start total src (done + chunkLen (start + done) (total - done))
  else (true, s)
termination_by total - done
decreasing_by
  have := chunkLen_pos (start + done) (show 0 < total - done by omega)
  omega

def blkcachePut (s : State) (deviceid : Int) (sector numblocks : Nat) (src : Buf) :
    Bool × State :=
  if numblocks = 0 then (false, s)
  else
    let sized := pcBsize s deviceid
    putLoop sized.2 deviceid (sector * sized.1) (numblocks * sized.1) src 0

def blkcacheGet (s : State) (deviceid : Int) (sector numblocks : Nat) (dst : Buf) :
    Bool × State × Buf :=
  if numblocks = 0 then (false, s, dst)
  else
    let sized := pcBsize s deviceid
    pcCopyOut sized.2 deviceid (sector * sized.1) (numblocks * sized.1) dst

/-- What `blkcache_flush` copies out under the cache lock. -/
structure Snap where
  slot : Slot
  dev : Int
  index : Nat
  generation : Nat
  deviceGeneration : Nat
  copy : Buf

def flushSnapshot (s : State) (i : Slot) : Option Snap :=
  let p := s.pcTab i
  if p.dirty && p.uptodate then
    some ⟨i, p.deviceid, p.index, p.generation, p.deviceGeneration, p.data⟩
  else none

/-- The device generation of a snapshot is still the live one. -/
def snapLive (s : State) (snap : Snap) : Bool :=
  blkcacheDeviceKeyIsCurrent snap.deviceGeneration (devmgrGetGeneration s snap.dev)

/-- `if (pc_dirty) pc_dirty--`. -/
def decDirty (n : Nat) : Nat := n - 1

/-- `blkcache_flush` drops a line of a dead generation. -/
def flushStale (s : State) (snap : Snap) : State :=
  let p := s.pcTab snap.slot
  if p.deviceid == snap.dev && p.index == snap.index &&
      p.deviceGeneration == snap.deviceGeneration then
    { s with
      pcDirty := if p.dirty then decDirty s.pcDirty else s.pcDirty
      pcTab := Function.update s.pcTab snap.slot
        { p with uptodate := false, dirty := false, deviceid := -1 } }
  else s

/-- The device transfer of one snapshot and whether it succeeded. -/
def flushTransfer (s : State) (snap : Snap) : Bool × State :=
  let sized := pcBsize s snap.dev
  let nsect := pcSize / sized.1
  match pcDevWrite sized.2 snap.dev snap.deviceGeneration (snap.index * nsect) nsect snap.copy with
  | none => (false, sized.2)
  | some t => (true, t)

/-- The completion test of `blkcache_flush`. -/
def completes (s : State) (snap : Snap) : Bool :=
  let p := s.pcTab snap.slot
  blkcacheWritebackIsCurrent (p.deviceid == snap.dev && p.index == snap.index) p.generation
    snap.generation && p.dirty

/-- The completion section of `blkcache_flush`. -/
def flushComplete (s : State) (snap : Snap) : State :=
  if completes s snap then
    { s with
      pcDirty := decDirty s.pcDirty
      pcTab := Function.update s.pcTab snap.slot { s.pcTab snap.slot with dirty := false } }
  else s

/-- One turn of the loop of `blkcache_flush`. -/
def flushSlot (s : State) (i : Slot) : Bool × State :=
  match flushSnapshot s i with
  | none => (true, s)
  | some snap =>
    let s1 := pcRememberBsize s snap.dev
    if !snapLive s1 snap then (false, flushStale s1 snap)
    else
      match flushTransfer s1 snap with
      | (false, s2) => (false, s2)
      | (true, s2) => (true, flushComplete s2 snap)

def flushLoop : List Slot → State → Bool × State
  | [], s => (true, s)
  | i :: rest, s =>
    match flushSlot s i with
    | (false, t) => (false, t)
    | (true, t) => flushLoop rest t

def blkcacheFlush (s : State) : Bool × State :=
  flushLoop (List.finRange pcNPages) s

/-- A turn of `blkcache_invalidate_device`, where `pc_dirty--` is unguarded. -/
def invalidateSlot (deviceid : Int) (acc : State × Nat) (i : Slot) : State × Nat :=
  let p := acc.1.pcTab i
  if p.deviceid == deviceid then
    ({ acc.1 with
       pcDirty := if p.dirty then (acc.1.pcDirty + (2 ^ 32 - 1)) % 2 ^ 32 else acc.1.pcDirty
       pcTab := Function.update acc.1.pcTab i
        { p with uptodate := false, dirty := false, deviceid := -1 } },
      if p.dirty then acc.2 + 1 else acc.2)
  else acc

/-- The new state and the number of dirty lines lost. -/
def blkcacheInvalidateDevice (s : State) (deviceid : Int) : State × Nat :=
  (List.finRange pcNPages).foldl (invalidateSlot deviceid) (s, 0)

/-- `blkcache_init` over given devices. -/
def blkcacheInit (devlist : Int → Option BlockDesc) (media : Int → Nat → Nat → UInt8) : State where
  pcTab _ := ⟨-1, 2 ^ 64 - 1, 0, 0, 0, false, false, fun _ => 0⟩
  sizes := ⟨fun _ => 0, fun _ => 0⟩
  pcClock := 1
  pcDirty := 0
  devlist := devlist
  media := media

end IcsOs.BlkCache.Requests
