/- GID: IcsOs/BlkCache/Contract
   generality: I
   source: kernel/iomgr/blkcache.c
   digest: Reads return and writes change the logical content over whole runs of the page cache. -/

import IcsOs.BlkCache.Occupancy

set_option autoImplicit false

namespace IcsOs.BlkCache.Contract

open BlkCache.WritePath
open Lib.WriteBack Lib.Runs BlkCache.PageCache BlkCache.Requests BlkCache.ReadPath
open BlkCache.Coherence BlkCache.Occupancy

/-- The calls of the cache; `malloc` answers the allocations a call makes. -/
inductive Call
  | read (deviceid : Int) (sector numblocks : Nat) (dst : Buf) (malloc : Nat → Bool)
  | write (deviceid : Int) (sector numblocks : Nat) (src : Buf) (malloc : Nat → Bool)
  | flush
  | invalidateDevice (deviceid : Int)

def Call.perform : Call → State → State
  | .read d sector n dst malloc, s => (blkcacheRead s d sector n dst malloc).2.1
  | .write d sector n src malloc, s => (blkcacheWrite s d sector n src malloc).2
  | .flush, s => (blkcacheFlush s).2
  | .invalidateDevice d, s => (blkcacheInvalidateDevice s d).1

theorem perform_write (s : State) (d : Int) (sector n : Nat) (src : Buf) (malloc : Nat → Bool) :
    (Call.write d sector n src malloc).perform s = (blkcacheWrite s d sector n src malloc).2 := rfl

theorem perform_invalidate (s : State) (d : Int) :
    (Call.invalidateDevice d).perform s = (blkcacheInvalidateDevice s d).1 := by
  rw [Call.perform]

/-- The cache over given devices, started empty. -/
def cache (devlist : Int → Option BlockDesc) (media : Int → Nat → Nat → UInt8) :
    System State Call where
  start s := s = blkcacheInit devlist media
  step s c t := t = c.perform s

/-- Writes go to registered devices and ready ranges. -/
def WritesReady (s : State) : Call → Prop
  | .write d sector n _ _ => WriteReady s d sector n
  | _ => True

/-- Calls that leave the logical content alone. -/
def ReadsOrFlushes (_ : State) : Call → Prop
  | .read .. => True
  | .flush => True
  | _ => False

theorem inv_flush {s : State} (inv : Inv s) :
    Inv (blkcacheFlush s).2 ∧ (storeOf (blkcacheFlush s).2).logical = (storeOf s).logical := by
  obtain ⟨run, _⟩ := flushLoop_run (List.finRange pcNPages) inv.sizes inv.uniq
  exact ⟨⟨run.uniq, run.coherent inv.coherent, run.sizes⟩, run.logical⟩

theorem inv_perform {s : State} {c : Call} (inv : Inv s) (ready : WritesReady s c) :
    Inv (c.perform s) := by
  cases c with
  | read d sector n dst malloc =>
    rw [Call.perform]
    exact (inv.readMove (blkcacheRead_move inv.sizes d sector n dst malloc)).1
  | write d sector n src malloc =>
    rw [Call.perform]
    by_cases empty : n = 0
    · simpa [blkcacheWrite, empty] using inv
    · exact inv_write inv (writeClean_of_safe inv (writeSafe_of_ready inv empty ready _ _))
  | flush =>
    rw [Call.perform]
    exact (inv_flush inv).1
  | invalidateDevice d =>
    rw [Call.perform]
    obtain ⟨_, sizes, uniq, coherent⟩ := invalidate_keeps inv.sizes inv.uniq inv.coherent d
    exact ⟨uniq, coherent, sizes⟩

variable {t : State}

/-- One registered disk of 512-byte sectors. -/
def oneDisk : Int → Option BlockDesc := fun d =>
  if d = 0 then some ⟨1, none, true, true, true⟩ else none

def emptyCache : State := blkcacheInit oneDisk fun _ _ _ => 0

def onePageCache : State := (Call.write 0 0 8 (fun _ => 1) fun _ => true).perform emptyCache

/-- The cache after one write of ones to the pages 1 to 4096. -/
def fullCache : State := (Call.write 0 8 32768 (fun _ => 1) fun _ => true).perform emptyCache

theorem emptyCache_inv : Inv emptyCache := inv_init oneDisk fun _ _ _ => 0

theorem emptyCache_unit : transferUnit emptyCache 0 = 512 := rfl

theorem emptyCache_live : devmgrGetGeneration emptyCache 0 ≠ 0 := by decide

theorem emptyCache_write (sector n r : Nat) (positive : 0 < r) (fits : r ≤ pcNPages)
    (pages : n * 512 = r * pcSize) (aligned : sector * 512 % pcSize = 0) :
    (blkcacheWrite emptyCache 0 sector n (fun _ => 1) fun _ => true).1 = true ∧
      writeFallback emptyCache 0 sector n (fun _ => 1) (fun _ => true) = none ∧
      WriteSafe emptyCache 0 sector n (fun _ => 1) fun _ => true := by
  have room := occupied_init oneDisk fun _ _ _ => 0
  obtain ⟨ok, absorbed, safe⟩ := write_fits emptyCache_inv room.1
    (fun _ => 1) (fun _ => true) (by rw [emptyCache_unit]; exact pages) positive
    (by rw [emptyCache_unit]; exact aligned) (by rw [emptyCache, room.2]; omega)
  exact ⟨ok, absorbed, emptyCache_live, safe⟩

theorem emptyCache_lines {sector n r : Nat} (positive : 0 < r) (fits : r ≤ pcNPages)
    (pages : n * 512 = r * pcSize) (aligned : sector * 512 % pcSize = 0)
    (written : t = (Call.write 0 sector n (fun _ => 1) fun _ => true).perform emptyCache) :
    Inv t ∧ t.media = emptyCache.media ∧ t.devlist = oneDisk ∧
      ∀ b, sector * 512 ≤ b → b < sector * 512 + n * 512 →
        (storeOf t).line (0, b) = some (1, true) := by
  obtain ⟨_, absorbed, safe⟩ := emptyCache_write sector n r positive fits pages aligned
  have nonzero : n ≠ 0 := by
    rintro rfl
    have := Nat.mul_pos positive pcSize_pos
    omega
  obtain ⟨move, lines⟩ := write_absorbed emptyCache_inv safe nonzero absorbed
  rw [← perform_write, ← written, emptyCache_unit] at move lines
  exact ⟨emptyCache_inv.loopMove move, move.media, move.devlist, lines⟩

theorem oneDisk_readable (devlist : t.devlist = oneDisk) : Readable t 0 := by
  refine ⟨⟨1, none, true, true, true⟩, ?_, rfl, by decide, rfl⟩
  simp only [devmgrGetdeviceRef, devlist]
  rfl

theorem oneDisk_unit (devlist : t.devlist = oneDisk) : transferUnit t 0 = 512 := by
  simp only [transferUnit, devmgrGetdeviceRef, devlist]
  rfl

/-- The dirty pages 1 to 4096 over the untouched disk. -/
theorem fullCache_spec
    (written : t = (Call.write 0 8 32768 (fun _ => 1) fun _ => true).perform emptyCache) :
    Inv t ∧ Full t ∧ pcLookup t 0 0 = none ∧ (storeOf t).line (0, 4096) = some (1, true) ∧
      t.media = emptyCache.media ∧ t.devlist = oneDisk := by
  obtain ⟨inv, media, devlist, held⟩ := emptyCache_lines (r := 4096) (by decide) (by decide)
    (by decide) (by decide) written
  have pages := full_of_pages (s := t) (d := 0) (fun i : Slot => i.val + 1)
    (fun i j same => Fin.ext (by simpa using same)) (fun i => by
      have bound : i.val < 4096 := i.isLt
      have line := held ((i.val + 1) * pcSize) (by simp only [pcSize]; omega)
        (by simp only [pcSize]; omega)
      simp only [storeOf, Nat.mul_div_cancel _ pcSize_pos, Option.map_eq_some_iff,
        Prod.mk.injEq] at line
      obtain ⟨j, found, _, dirty⟩ := line
      exact ⟨j, pcLookup_hits found, dirty⟩)
  exact ⟨inv, pages.1, pages.2 0 0 (fun i => by simp), held 4096 (by omega) (by omega), media,
    devlist⟩

section Runs

variable {devlist : Int → Option BlockDesc} {media : Int → Nat → Nat → UInt8} {s : State}

theorem inv_of_reachable (run : Reachable (cache devlist media) WritesReady s) : Inv s := by
  refine run.invariant ?_ ?_
  · rintro s rfl
    exact inv_init devlist media
  · rintro s c t inv ready rfl
    exact inv_perform inv ready

/-- Where a dirty line agrees with the device, the device has the logical content. -/
theorem device_content (inv : Inv s) {d : Int} {b : Nat}
    (agree : ∀ j, pcLookup s d (b / pcSize) = some j → (s.pcTab j).dirty = true →
      (s.pcTab j).data (b % pcSize) = s.media d (devmgrGetGeneration s d) b) :
    logical s d b = s.media d (devmgrGetGeneration s d) b := by
  rw [← storeOf_logical]
  cases found : pcLookup s d (b / pcSize) with
  | none => exact Store.logical_of_none (storeOf_none (pcLookup_none.mp found))
  | some j =>
    have line := storeOf_hits inv.uniq (pcLookup_hits found)
    rw [Store.logical_of_line line]
    cases dirty : (s.pcTab j).dirty with
    | true => exact agree j found dirty
    | false =>
      rw [dirty] at line
      exact inv.coherent _ _ line

theorem content_of_path (inv : Inv s) (path : Path (cache devlist media) ReadsOrFlushes s t) :
    Inv t ∧ (storeOf t).logical = (storeOf s).logical := by
  refine path.invariant (I := fun u => Inv u ∧ (storeOf u).logical = (storeOf s).logical) ?_
    ⟨inv, rfl⟩
  rintro u c v ⟨inv, same⟩ quiet rfl
  cases c with
  | read d sector n dst malloc =>
    obtain ⟨inv', kept⟩ := inv.readMove (blkcacheRead_move inv.sizes d sector n dst malloc)
    exact ⟨inv', kept.trans same⟩
  | write d sector n src malloc => exact quiet.elim
  | flush => exact ⟨(inv_flush inv).1, (inv_flush inv).2.trans same⟩
  | invalidateDevice d => exact quiet.elim

theorem emptyCache_ready : WriteReady emptyCache 0 0 8 := by
  refine ⟨emptyCache_live, .inr (.inl ?_)⟩
  rw [emptyCache_unit]
  decide

theorem onePage_reached : Reachable (cache oneDisk fun _ _ _ => 0) WritesReady onePageCache :=
  .step (.start rfl) (a := .write 0 0 8 (fun _ => 1) fun _ => true) emptyCache_ready rfl

/-- After ready writes, the successful reads of a range return the logical content, whatever memory
they get, exactly when the range is ready before the call. -/
theorem read_returns_logical_iff (run : Reachable (cache devlist media) WritesReady s) {d : Int}
    {sector n : Nat} (readable : Readable s d) :
    (∀ dst malloc, (blkcacheRead s d sector n dst malloc).1 = true →
      ∀ k < n * transferUnit s d, (blkcacheRead s d sector n dst malloc).2.2 k =
        logical s d (sector * transferUnit s d + k)) ↔ ReadReady s d sector n := by
  have inv := inv_of_reachable run
  constructor
  · intro content
    by_contra unready
    obtain ⟨dst, malloc, success, k, high, differ⟩ := read_unready inv readable unready
    exact differ (content dst malloc success k high)
  · intro ready dst malloc success k high
    have returned := blkcacheRead_spec inv success
    split at returned
    · exact returned k high
    · rename_i missed
      rcases ready with resident | agree
      · exact absurd (readThrough_resident inv dst _ resident) missed
      · rw [returned k high, device_content inv (agree k high)]

/-- Ones written to a page of the empty cache are read back. -/
theorem read_returns_logical_iff_onePage :
    (blkcacheRead onePageCache 0 0 8 (fun _ => 0) fun _ => true).1 = true ∧
      ∀ k < 4096, (blkcacheRead onePageCache 0 0 8 (fun _ => 0) fun _ => true).2.2 k = 1 := by
  have run := onePage_reached
  generalize onePage : onePageCache = t at run
  obtain ⟨inv, _, devlist, held⟩ := emptyCache_lines (r := 1) (by decide) (by decide)
    (by decide) (by decide) onePage.symm
  have unit := oneDisk_unit devlist
  have resident : Resident t 0 (0 * transferUnit t 0) (8 * transferUnit t 0) := by
    intro k high absent
    rw [unit] at high absent
    have line := held (0 * 512 + k) (by omega) (by omega)
    rw [storeOf_none (pcLookup_none.mp absent)] at line
    cases line
  have success := blkcacheRead_resident inv (fun _ => 0) (fun _ => true) (by decide) resident
  refine ⟨success, fun k high => ?_⟩
  have content := (read_returns_logical_iff run (oneDisk_readable devlist)).mpr (.inl resident) _ _
    success k (by rw [unit]; omega)
  rw [content, ← storeOf_logical, unit]
  exact Store.logical_of_line (held (0 * 512 + k) (by omega) (by omega))

/-- Page 0 has no line, and the dirty line of page 1 differs from the disk. -/
theorem fullCache_unready (absent : pcLookup t 0 0 = none)
    (held : (storeOf t).line (0, 4096) = some (1, true)) (media : t.media = emptyCache.media)
    (unit : transferUnit t 0 = 512) : ¬ReadReady t 0 0 16 := by
  rw [ReadReady, unit]
  rintro (resident | agree)
  · exact resident 0 (by decide) absent
  · obtain ⟨j, found, line⟩ := Option.map_eq_some_iff.mp held
    have same := agree 4096 (by decide) j found (congrArg Prod.snd line)
    rw [media] at same
    have zero : (1 : UInt8) = 0 := (congrArg Prod.fst line).symm.trans same
    exact absurd zero (by decide)

/-- With every slot dirty, a read across a missing page that gets no memory returns an old byte. -/
theorem read_stale_fullCache :
    (blkcacheWrite emptyCache 0 8 32768 (fun _ => 1) fun _ => true).1 = true ∧
      ∃ dst malloc, (blkcacheRead fullCache 0 0 16 dst malloc).1 = true ∧ ∃ k < 8192,
        (blkcacheRead fullCache 0 0 16 dst malloc).2.2 k ≠ logical fullCache 0 k := by
  have wrote := (emptyCache_write 8 32768 4096 (by decide) (by decide) (by decide) (by decide)).1
  refine ⟨wrote, ?_⟩
  generalize allDirty : fullCache = t
  obtain ⟨inv, _, absent, held, media, devlist⟩ := fullCache_spec allDirty.symm
  have unit := oneDisk_unit devlist
  obtain ⟨dst, malloc, success, k, high, differ⟩ := read_unready inv (oneDisk_readable devlist)
    (fullCache_unready absent held media unit)
  rw [unit] at high differ
  exact ⟨dst, malloc, success, k, high, by simpa using differ⟩

/-- Among ready writes, one that succeeds changes its range only, and a later flush puts that on the
devices. -/
theorem write_changes_exactly_range (run : Reachable (cache devlist media) WritesReady s) {d : Int}
    {sector n : Nat} {src : Buf} {malloc : Nat → Bool} (ready : WriteReady s d sector n)
    (success : (blkcacheWrite s d sector n src malloc).1 = true) :
    (∀ d' b, logical (blkcacheWrite s d sector n src malloc).2 d' b =
      if d' = d ∧ sector * transferUnit s d ≤ b ∧
          b < sector * transferUnit s d + n * transferUnit s d then
        src (b - sector * transferUnit s d)
      else logical s d' b) ∧
    ∀ t u, Path (cache devlist media) ReadsOrFlushes
        (blkcacheWrite s d sector n src malloc).2 t → blkcacheFlush t = (true, u) →
      ∀ d' b, u.media d' (devmgrGetGeneration u d') b =
        logical (blkcacheWrite s d sector n src malloc).2 d' b := by
  have inv := inv_of_reachable run
  have nonzero : n ≠ 0 := by
    rintro rfl
    simp [blkcacheWrite] at success
  have safe := writeSafe_of_ready inv nonzero ready src malloc
  refine ⟨fun d' b => ?_, fun t u path flushed d' b => ?_⟩
  · rw [← storeOf_logical, write_logical inv safe success, storeOf_logical]
  have inv' := inv_write inv (writeClean_of_safe inv safe)
  obtain ⟨inv'', kept⟩ := content_of_path inv' path
  have landed := flush_back inv''.sizes inv''.uniq inv''.coherent flushed
  rw [← storeOf_logical, ← kept, ← landed]
  rfl

/-- A page of ones written to the empty cache. -/
theorem write_changes_exactly_range_onePage :
    (∀ b < 4096, logical onePageCache 0 b = 1) ∧ ∀ b, 4096 ≤ b → logical onePageCache 0 b = 0 := by
  have success := (emptyCache_write 0 8 1 (by decide) (by decide) (by decide) (by decide)).1
  have run : Reachable (cache oneDisk fun _ _ _ => 0) WritesReady emptyCache := .start rfl
  obtain ⟨content, _⟩ := write_changes_exactly_range run emptyCache_ready success
  rw [← perform_write, emptyCache_unit] at content
  change ∀ d' b, logical onePageCache d' b = _ at content
  refine ⟨fun b high => ?_, fun b low => ?_⟩
  · rw [content 0 b, if_pos ⟨rfl, by omega, by omega⟩]
  have absent : ∀ j, ¬Hits emptyCache 0 (b / pcSize) j := by
    intro j hit
    simp [hits_iff, emptyCache, blkcacheInit] at hit
  rw [content 0 b, if_neg (by omega), ← storeOf_logical,
    Store.logical_of_none (storeOf_none absent)]
  rfl

/-- With every slot dirty, pages 0 and 1 go to the disk behind the dirty line of page 1. -/
theorem write_hidden_fullCache :
    (blkcacheWrite emptyCache 0 8 32768 (fun _ => 1) fun _ => true).1 = true ∧
      (blkcacheWrite fullCache 0 0 16 (fun _ => 2) fun _ => true).1 = true ∧
      logical (blkcacheWrite fullCache 0 0 16 (fun _ => 2) fun _ => true).2 0 4096 = 1 := by
  have wrote := (emptyCache_write 8 32768 4096 (by decide) (by decide) (by decide) (by decide)).1
  generalize allDirty : fullCache = t
  obtain ⟨inv, full, absent, held, media, devlist⟩ := fullCache_spec allDirty.symm
  have unit := oneDisk_unit devlist
  have writable : Writable t 0 := by
    refine ⟨⟨1, none, true, true, true⟩, ?_, rfl, by decide, rfl⟩
    simp only [devmgrGetdeviceRef, devlist]
    rfl
  obtain ⟨success, lines⟩ := blkcacheWrite_full inv full 0 (n := 16) (fun _ => 2) (fun _ => true)
    (by decide) (by rw [unit]; decide) (by rw [unit]; exact absent) writable
  refine ⟨wrote, success, ?_⟩
  rw [← storeOf_logical]
  refine Store.logical_of_line (b := true) ?_
  rw [lines]
  exact held

end Runs

end IcsOs.BlkCache.Contract
