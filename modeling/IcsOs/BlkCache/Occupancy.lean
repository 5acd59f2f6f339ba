/- GID: IcsOs/BlkCache/Occupancy
   generality: I
   source: kernel/iomgr/blkcache.c
   digest: Slot occupancy decides claims; writes that fit are absorbed, full tables bypass the
   cache. -/

import Mathlib.Data.Fintype.EquivFin
import IcsOs.BlkCache.Coherence

set_option autoImplicit false

namespace IcsOs.BlkCache.Occupancy

open Finset
open Lib.WriteBack BlkCache.WritePath
open BlkCache.PageCache BlkCache.Requests BlkCache.ReadPath BlkCache.Coherence

/-- The slots that hold a line. -/
def occupied (s : State) : Finset Slot :=
  Finset.univ.filter fun j => (s.pcTab j).uptodate = true

/-- The dirty flag is only set together with the up-to-date flag. -/
def Tidy (s : State) : Prop :=
  ∀ j, (s.pcTab j).dirty = true → (s.pcTab j).uptodate = true

variable {d : Int} {j : Slot} {pg n : Nat} {s : State}

theorem claimScan_spec {tab : Slot → PcPage} {slots : List Slot} {idx : Option Slot}
    {oldest : Nat} :
    ((claimScan tab slots (idx, oldest)).1 = none → ∀ j ∈ slots, (tab j).uptodate = true) ∧
    ∀ j, (claimScan tab slots (idx, oldest)).1 = some j →
      idx = some j ∨ (tab j).uptodate = false ∨ (tab j).dirty = false := by
  induction slots generalizing idx oldest with
  | nil => exact ⟨fun _ j member => by simp at member, fun j found => .inl found⟩
  | cons i rest ih =>
    rw [claimScan]
    split
    · rename_i empty
      simp only [Bool.not_eq_true'] at empty
      refine ⟨by simp, fun j found => ?_⟩
      cases found
      exact .inr (.inl empty)
    · rename_i held
      simp only [Bool.not_eq_true', Bool.not_eq_false] at held
      split
      · rename_i older
        simp only [Bool.and_eq_true, Bool.not_eq_true', decide_eq_true_eq] at older
        refine ⟨fun missing j member => ?_, fun j found => ?_⟩
        · rcases List.mem_cons.mp member with rfl | later
          · exact held
          · exact ih.1 missing j later
        · rcases ih.2 j found with here | there
          · cases here
            exact .inr (.inr older.1)
          · exact .inr there
      · refine ⟨fun missing j member => ?_, ih.2⟩
        rcases List.mem_cons.mp member with rfl | later
        · exact held
        · exact ih.1 missing j later

theorem claimVictim_none (missing : claimVictim s d pg = none) (j : Slot) :
    (s.pcTab j).uptodate = true := by
  unfold claimVictim at missing
  split at missing
  · cases missing
  · exact claimScan_spec.1 missing j (List.mem_finRange j)

theorem claimVictim_some (found : claimVictim s d pg = some j) :
    (s.pcTab j).uptodate = false ∨ (s.pcTab j).dirty = false := by
  unfold claimVictim at found
  split at found
  · rename_i near
    cases found
    rcases claimScan_spec.2 j (congrArg Prod.fst near) with impossible | victim
    · cases impossible
    · exact victim
  · rcases claimScan_spec.2 j found with impossible | victim
    · cases impossible
    · exact victim

/-- A claim succeeds as long as some slot is empty. -/
theorem pcClaim_room (tidy : Tidy s) (room : (occupied s).card < pcNPages) (d : Int) (pg : Nat) :
    pcClaim s d pg ≠ none := by
  unfold pcClaim
  cases pcLookup s d pg with
  | some j => simp
  | none =>
    cases victim : claimVictim s d pg with
    | none =>
      have full : occupied s = univ :=
        filter_true_of_mem fun j _ => claimVictim_none victim j
      rw [full, card_univ, Fintype.card_fin] at room
      exact absurd room (lt_irrefl _)
    | some j =>
      have undirty : (s.pcTab j).dirty = false := by
        rcases claimVictim_some victim with empty | clean
        · by_contra dirty
          rw [tidy j (by simpa using dirty)] at empty
          cases empty
        · exact clean
      simp [undirty]

/-- Only slot `j` differs, and there the new line is tidy. -/
structure OneSlot (s t : State) (j : Slot) : Prop where
  others : ∀ i, i ≠ j → t.pcTab i = s.pcTab i
  tidy : (t.pcTab j).dirty = true → (t.pcTab j).uptodate = true

theorem OneSlot.keeps {t : State} (change : OneSlot s t j) (tidy : Tidy s) :
    Tidy t ∧ (occupied t).card ≤ (occupied s).card + 1 := by
  refine ⟨fun i => ?_, ?_⟩
  · by_cases same : i = j
    · subst same
      exact change.tidy
    · rw [change.others i same]
      exact tidy i
  · have inside : occupied t ⊆ insert j (occupied s) := by
      intro i member
      simp only [occupied, mem_filter, mem_univ, true_and, mem_insert]
        at member ⊢
      by_cases same : i = j
      · exact .inl same
      · rw [change.others i same] at member
        exact .inr member
    exact (card_le_card inside).trans (card_insert_le j _)

theorem oneSlot_storeChunk (s : State) (j : Slot) (poff n done : Nat) (src : Buf) :
    OneSlot s (storeChunk s j poff n done src) j :=
  ⟨fun i other => by simp [storeChunk, stamp, Function.update_of_ne other],
    fun _ => by simp [storeChunk, stamp, storedLine]⟩

theorem writeChunk_room (tidy : Tidy s) (room : (occupied s).card < pcNPages) (d : Int)
    (pos left done : Nat) (src : Buf) :
    ∃ t, writeChunk s d pos left done src = some t ∧ Tidy t ∧
      (occupied t).card ≤ (occupied s).card + 1 := by
  unfold writeChunk
  cases found : pcLookup s d (pos / pcSize) with
  | some j => exact ⟨_, rfl, (oneSlot_storeChunk s j _ _ done src).keeps tidy⟩
  | none =>
    cases claimed : pcClaim s d (pos / pcSize) with
    | none => exact absurd claimed (pcClaim_room tidy room d _)
    | some result =>
      obtain ⟨j, q⟩ := result
      obtain ⟨_, rfl⟩ := pcClaim_spec found claimed
      refine ⟨_, rfl, OneSlot.keeps (j := j) ⟨fun i other => ?_, fun _ => ?_⟩ tidy⟩
      · simp [storeChunk, stamp, setLine, rekey, Function.update_of_ne other]
      · simp [storeChunk, stamp, storedLine]

theorem chunkLen_aligned {pos left : Nat} (aligned : pos % pcSize = 0) (enough : pcSize ≤ left) :
    chunkLen pos left = pcSize := by
  unfold chunkLen
  omega

theorem wholeChunk_aligned {pos left : Nat} (aligned : pos % pcSize = 0)
    (enough : pcSize ≤ left) : wholeChunk pos left = true := by
  simp [wholeChunk, aligned, chunkLen_aligned aligned enough]

theorem writeLoop_fits (tidy : Tidy s) (d : Int) (start : Nat) {total done : Nat} (src : Buf)
    {r : Nat} (rest : done + r * pcSize = total) (aligned : (start + done) % pcSize = 0)
    (fits : (occupied s).card + r ≤ pcNPages) :
    (writeLoop s d start total src done).1 = true ∧ WriteOpen s d start total src done := by
  induction r generalizing s done with
  | zero =>
    have finished : ¬done < total := by omega
    rw [writeLoop, WriteOpen, dif_neg finished, dif_neg finished]
    exact ⟨rfl, trivial⟩
  | succ r ih =>
    rw [Nat.succ_mul] at rest
    have positive := pcSize_pos
    have more : done < total := by omega
    obtain ⟨t, stored, tidy', grown⟩ := writeChunk_room tidy (by omega) d (start + done)
      (total - done) done src
    have length : chunkLen (start + done) (total - done) = pcSize :=
      chunkLen_aligned aligned (by omega)
    have next := ih tidy' (show done + pcSize + r * pcSize = total by omega)
      (by rw [← Nat.add_assoc, Nat.add_mod_right]; exact aligned) (by omega)
    rw [writeLoop, WriteOpen, dif_pos more, dif_pos more, stored, length]
    exact ⟨next.1, .inr (wholeChunk_aligned aligned (by omega)), next.2⟩

theorem sameLines_flags {t : State} (same : SameLines s t) (j : Slot) :
    (t.pcTab j).uptodate = (s.pcTab j).uptodate ∧ (t.pcTab j).dirty = (s.pcTab j).dirty := by
  obtain ⟨age, line⟩ := same.line j
  rw [line]
  exact ⟨rfl, rfl⟩

theorem write_fits (inv : Inv s) (tidy : Tidy s) {sector : Nat} (src : Buf) (malloc : Nat → Bool)
    {r : Nat} (pages : n * transferUnit s d = r * pcSize) (positive : 0 < r)
    (aligned : sector * transferUnit s d % pcSize = 0) (fits : (occupied s).card + r ≤ pcNPages) :
    (blkcacheWrite s d sector n src malloc).1 = true ∧
      writeFallback s d sector n src malloc = none ∧
      ThroughOpen (openRange s d).2 d (sector * (openRange s d).1) (n * (openRange s d).1) src
        malloc := by
  have unit := openRange_unit inv.sizes d
  have lines := sameLines_flags (sameLines_open s d)
  have tidy' : Tidy (openRange s d).2 := by simpa only [Tidy, lines] using tidy
  have same : occupied (openRange s d).2 = occupied s := by simp only [occupied, lines]
  have whole : unaligned (sector * transferUnit s d) (n * transferUnit s d) = false := by
    simp [unaligned, aligned, pages]
  have loop := writeLoop_fits tidy' d (sector * transferUnit s d) src
    (show 0 + r * pcSize = n * transferUnit s d by rw [Nat.zero_add, pages]) aligned
    (by rw [same]; exact fits)
  have through : (writeThrough (openRange s d).2 d (sector * (openRange s d).1)
      (n * (openRange s d).1) src malloc).1 = true := by
    rw [unit, writeThrough, whole]
    exact loop.1
  have safe : ThroughOpen (openRange s d).2 d (sector * (openRange s d).1)
      (n * (openRange s d).1) src malloc := by
    rw [unit, ThroughOpen, whole]
    exact loop.2
  have nonzero : n ≠ 0 := by
    rintro rfl
    have := Nat.mul_pos positive pcSize_pos
    omega
  obtain ⟨empty, _⟩ | ⟨_, t, _, ⟨none, _, result⟩ | ⟨fallback, _⟩⟩ :=
    blkcacheWrite_cases s d sector n src malloc
  · exact absurd empty nonzero
  · exact ⟨by rw [result], none, safe⟩
  exfalso
  simp only [writeFallback] at fallback
  split at fallback
  · cases fallback
  · rename_i failed
    rw [failed] at through
    cases through

/-- The first slot the hash of a page names. -/
def firstProbe (d : Int) (pg : Nat) : Slot :=
  ⟨(pcSlot d pg + 0) % pcNPages, Nat.mod_lt _ (by decide)⟩

theorem probeSlots_first (d : Int) (pg : Nat) :
    ∃ rest, probeSlots (pcSlot d pg) = firstProbe d pg :: rest := by
  rw [probeSlots, List.range_succ_eq_map, List.map_cons]
  exact ⟨_, rfl⟩

theorem claimVictim_first (empty : (s.pcTab (firstProbe d pg)).uptodate = false) :
    claimVictim s d pg = some (firstProbe d pg) := by
  obtain ⟨rest, probes⟩ := probeSlots_first d pg
  have scan : claimScan s.pcTab (probeSlots (pcSlot d pg)) (none, 2 ^ 32 - 1) =
      (some (firstProbe d pg), 2 ^ 32 - 1) := by
    rw [probes, claimScan, empty]
    rfl
  rw [claimVictim, scan]

theorem pcClaim_first (absent : pcLookup s d pg = none)
    (empty : (s.pcTab (firstProbe d pg)).uptodate = false)
    (undirty : (s.pcTab (firstProbe d pg)).dirty = false) :
    pcClaim s d pg = some (firstProbe d pg, rekey s d pg (firstProbe d pg)) := by
  rw [pcClaim, absent]
  dsimp only
  rw [claimVictim_first empty]
  dsimp only
  rw [undirty]
  rfl

/-- A one-page write to an absent page lands in the slot it claims. -/
theorem write_claimed (sizes : SizesOk s) {sector : Nat} (src : Buf) (malloc : Nat → Bool)
    (page : sector * transferUnit s d = pg * pcSize) (one : n * transferUnit s d = pcSize)
    (absent : pcLookup s d pg = none)
    (claimed : pcClaim (openRange s d).2 d pg = some (j, rekey (openRange s d).2 d pg j)) :
    writeFallback s d sector n src malloc = none ∧
      (blkcacheWrite s d sector n src malloc).1 = true ∧
      ∃ age, (blkcacheWrite s d sector n src malloc).2.pcTab j =
        ⟨d, pg, age, 1, devmgrGetGeneration s d, true, true,
          memcpy (s.pcTab j).data 0 src 0 pcSize⟩ := by
  have opened := sameLines_open s d
  have unit := openRange_unit sizes d
  have div : pg * pcSize / pcSize = pg := Nat.mul_div_cancel pg pcSize_pos
  have mod : pg * pcSize % pcSize = 0 := Nat.mul_mod_left pg pcSize
  have absent' : pcLookup (openRange s d).2 d pg = none := by rw [opened.lookup]; exact absent
  obtain ⟨age, line⟩ := opened.line j
  have length : chunkLen (pg * pcSize) pcSize = pcSize := chunkLen_aligned mod le_rfl
  have whole : wholeChunk (pg * pcSize) pcSize = true := wholeChunk_aligned mod le_rfl
  have through : writeThrough (openRange s d).2 d (sector * (openRange s d).1)
      (n * (openRange s d).1) src malloc = (true, storeChunk
        (setLine (rekey (openRange s d).2 d pg j) j
          (blankLine ((rekey (openRange s d).2 d pg j).pcTab j) true)) j 0 pcSize 0 src) := by
    rw [unit, page, one, writeThrough, if_neg (by simp [unaligned, mod])]
    rw [writeLoop, dif_pos pcSize_pos]
    simp only [writeChunk, Nat.add_zero, Nat.sub_zero, div, absent', claimed, mod, length, whole]
    rw [writeLoop, dif_neg (by omega)]
  have nonzero : n ≠ 0 := by
    rintro rfl
    have := pcSize_pos
    omega
  have result : blkcacheWrite s d sector n src malloc = (true, storeChunk
      (setLine (rekey (openRange s d).2 d pg j) j
        (blankLine ((rekey (openRange s d).2 d pg j).pcTab j) true)) j 0 pcSize 0 src) := by
    simp only [blkcacheWrite, nonzero, if_false, through]
  refine ⟨by simp only [writeFallback, through], by rw [result], nextClock (openRange s d).2, ?_⟩
  rw [result]
  simp [storeChunk, stamp, storedLine, blankLine, setLine, rekey, nextClock, line,
    opened.generation]

theorem copyOutLoop_resident {off nbytes : Nat} {dst : Buf} {done : Nat}
    (resident : ∀ k, done ≤ k → k < nbytes → pcLookup s d ((off + k) / pcSize) ≠ none) :
    (copyOutLoop s d off nbytes dst done).1 = true := by
  fun_induction copyOutLoop s d off nbytes dst done with
  | case1 s dst done more pos absent => exact absurd absent (resident done le_rfl more)
  | case2 s dst done more pos n j found ih =>
    refine ih fun k low high => ?_
    rw [(sameLines_stamp s j).lookup]
    exact resident k (by omega) high
  | case3 s dst done finished => rfl

section Ready

/-- Every page of the range has a line. -/
def Resident (s : State) (d : Int) (start total : Nat) : Prop :=
  ∀ k < total, pcLookup s d ((start + k) / pcSize) ≠ none

/-- No page of the range has a line. -/
def Absent (s : State) (d : Int) (start total : Nat) : Prop :=
  ∀ k < total, pcLookup s d ((start + k) / pcSize) = none

/-- A read finds every page of its range, or no dirty line there that differs from the device. -/
def ReadReady (s : State) (d : Int) (sector numblocks : Nat) : Prop :=
  Resident s d (sector * transferUnit s d) (numblocks * transferUnit s d) ∨
    ∀ k < numblocks * transferUnit s d, ∀ j,
      pcLookup s d ((sector * transferUnit s d + k) / pcSize) = some j →
      (s.pcTab j).dirty = true →
      (s.pcTab j).data ((sector * transferUnit s d + k) % pcSize) =
        s.media d (devmgrGetGeneration s d) (sector * transferUnit s d + k)

/-- A range whose pages all have lines, a range inside one page, or whole pages of which none has a
line or for which there are empty slots. -/
def RangeReady (s : State) (d : Int) (start total : Nat) : Prop :=
  Resident s d start total ∨ start / pcSize = (start + total - 1) / pcSize ∨
    unaligned start total = false ∧
      (Absent s d start total ∨
        Tidy s ∧ (occupied s).card * pcSize + total ≤ pcNPages * pcSize)

/-- A write to a registered device and a ready range. -/
def WriteReady (s : State) (d : Int) (sector numblocks : Nat) : Prop :=
  devmgrGetGeneration s d ≠ 0 ∧
    RangeReady s d (sector * transferUnit s d) (numblocks * transferUnit s d)

variable {t : State} {src : Buf} {malloc : Nat → Bool} {start total done : Nat}

/-- A read whose pages all have lines is served by them. -/
theorem readThrough_resident (inv : Inv s) {sector : Nat} (dst : Buf) (malloc : Nat → Bool)
    (resident : Resident s d (sector * transferUnit s d) (n * transferUnit s d)) :
    (readThrough (openRange s d).2 d (sector * (openRange s d).1) (n * (openRange s d).1) dst
      malloc).1 = true := by
  have opened := sameLines_open s d
  have unit := openRange_unit inv.sizes d
  have copied : (pcCopyOut (openRange s d).2 d (sector * (openRange s d).1)
      (n * (openRange s d).1) dst).1 = true := by
    refine copyOutLoop_resident fun k _ high => ?_
    rw [opened.lookup, unit]
    exact resident k (by rw [← unit]; exact high)
  unfold readThrough
  split
  · rfl
  · rename_i missed
    rw [missed] at copied
    cases copied

theorem blkcacheRead_resident (inv : Inv s) {sector : Nat} (dst : Buf) (malloc : Nat → Bool)
    (nonzero : n ≠ 0)
    (resident : Resident s d (sector * transferUnit s d) (n * transferUnit s d)) :
    (blkcacheRead s d sector n dst malloc).1 = true := by
  have served := readThrough_resident inv dst malloc resident
  rw [blkcacheRead, if_neg nonzero]
  dsimp only
  split
  · rfl
  · rename_i missed
    rw [missed] at served
    cases served

theorem fillRange_resident {pg0 pg1 : Nat}
    (resident : ∀ pg, pg0 ≤ pg → pg ≤ pg1 → pcLookup s d pg ≠ none) :
    pcFillRange s d pg0 pg1 malloc = (true, (pcBsize s d).2) := by
  have past : ¬skipResident (pcBsize s d).2 d pg1 pg0 ≤ pg1 := by
    intro inside
    have absent := skipResident_absent _ d pg1 pg0 inside
    rw [(sameLines_bsize s d).lookup] at absent
    exact resident _ (skipResident_le _ d pg1 pg0) inside absent
  rw [pcFillRange, fillLoop, dif_neg past]

theorem hits_storeChunk {i : Slot} (hit : Hits s d pg i) (j : Slot) (poff n done : Nat)
    (src : Buf) : Hits (storeChunk s j poff n done src) d pg i := by
  rw [hits_iff] at hit ⊢
  by_cases here : i = j
  · subst here
    simpa [storeChunk, stamp, storedLine, devmgrGetGeneration, devmgrGetdeviceRef] using hit.2
  · simpa [storeChunk, stamp, Function.update_of_ne here, devmgrGetGeneration, devmgrGetdeviceRef]
      using hit

theorem writeOpen_resident
    (resident : ∀ k, done ≤ k → k < total → pcLookup s d ((start + k) / pcSize) ≠ none) :
    WriteOpen s d start total src done := by
  fun_induction WriteOpen s d start total src done with
  | case1 s done more refused =>
    obtain ⟨j, found⟩ := Option.ne_none_iff_exists'.mp (resident done le_rfl more)
    simp [writeChunk, found] at refused
  | case2 s done more t stored ih =>
    have first := resident done le_rfl more
    refine ⟨.inl first, ih fun k low high => ?_⟩
    obtain ⟨j, found⟩ := Option.ne_none_iff_exists'.mp first
    obtain ⟨i, held⟩ := Option.ne_none_iff_exists'.mp (resident k (by omega) high)
    simp only [writeChunk, found, Option.some.injEq] at stored
    rw [← stored]
    exact fun absent => pcLookup_none.mp absent i (hits_storeChunk (pcLookup_hits held) ..)
  | case3 s done finished => trivial

theorem range_page {b : Nat} (one : start / pcSize = (start + total - 1) / pcSize)
    (low : start ≤ b) (high : b < start + total) : b / pcSize = start / pcSize := by
  have lower : start / pcSize ≤ b / pcSize := Nat.div_le_div_right low
  have upper : b / pcSize ≤ (start + total - 1) / pcSize := Nat.div_le_div_right (by omega)
  omega

/-- A range inside one page, which has its line, is covered or can get none. -/
theorem writeOpen_page (one : start / pcSize = (start + total - 1) / pcSize)
    (page : pcLookup s d (start / pcSize) ≠ none ∨ wholeChunk start total = true ∨
      pcClaim s d (start / pcSize) = none) : WriteOpen s d start total src 0 := by
  have length : total ≠ 0 → chunkLen start total = total := by
    intro more
    have edge := Nat.div_add_mod start pcSize
    have last := Nat.div_add_mod (start + total - 1) pcSize
    have inside := Nat.mod_lt (start + total - 1) pcSize_pos
    unfold chunkLen
    rw [one] at edge
    omega
  rw [WriteOpen]
  split
  · rename_i more
    rw [Nat.add_zero, Nat.sub_zero]
    split
    · rename_i refused
      intro b low high
      rw [range_page one low high]
      cases found : pcLookup s d (start / pcSize) with
      | none => rfl
      | some j => simp [writeChunk, found] at refused
    · rename_i t stored
      refine ⟨?_, by rw [length (by omega), WriteOpen, dif_neg (by omega)]; trivial⟩
      rcases page with held | whole | refused
      · exact .inl held
      · exact .inr whole
      · refine .inl fun absent => ?_
        simp [writeChunk, absent, refused] at stored
  · trivial

theorem runEnd_one (absent : pcLookup s d pg = none) : runEnd s d pg pg pg = pg + 1 := by
  rw [runEnd, if_pos ⟨le_rfl, by simp [absent], by simp [pcMaxIo, pcSize]⟩, runEnd,
    if_neg (by omega)]

theorem skip_past (s : State) (d : Int) (pg : Nat) : skipResident s d pg (pg + 1) = pg + 1 := by
  rw [skipResident, if_neg (by omega)]

/-- Filling one page: it gets no line where memory, device or slots refuse, and else has one. -/
theorem fillRange_page {ok : Bool}
    (filled : pcFillRange s d pg pg malloc = (ok, t)) :
    (ok = false → pcLookup t d pg = none) ∧
      (ok = true → pcLookup t d pg ≠ none ∨ pcClaim t d pg = none) := by
  have sized := sameLines_bsize s d
  simp only [pcFillRange] at filled
  generalize (pcBsize s d).2 = u at filled sized
  generalize pcSize / (pcBsize s d).1 = sectPer at filled
  cases found : pcLookup u d pg with
  | some j =>
    have skipped : skipResident u d pg pg = pg + 1 := by
      rw [skipResident, if_pos ⟨le_rfl, by simp [found]⟩, skip_past]
    rw [fillLoop, dif_neg (by omega)] at filled
    cases filled
    exact ⟨by simp, fun _ => .inl (by simp [found])⟩
  | none =>
    have here : skipResident u d pg pg = pg := by rw [skipResident, if_neg (by simp [found])]
    rw [fillLoop, dif_pos (by omega)] at filled
    simp only [here, runEnd_one found, Nat.add_sub_cancel_left] at filled
    split at filled
    · cases filled
      exact ⟨fun _ => found, by simp⟩
    split at filled
    · cases filled
      exact ⟨fun _ => found, by simp⟩
    rename_i bounce g transfer
    rw [fillLoop, dif_neg (by rw [skip_past]; omega)] at filled
    cases filled
    refine ⟨by simp, fun _ => ?_⟩
    simp only [installRun, List.range_one, List.foldl_cons, List.foldl_nil, installPage,
      Nat.add_zero, found]
    cases claimed : pcClaim u d pg with
    | none => exact .inr claimed
    | some result =>
      obtain ⟨j, q⟩ := result
      obtain ⟨_, rfl⟩ := pcClaim_spec found claimed
      obtain ⟨nonzero, generation, _⟩ := pcDevRead_some transfer
      refine .inl fun absent => pcLookup_none.mp absent j ((hits_iff ..).mpr ?_)
      simpa [stamp, filledLine, rekey, setLine, nonzero, devmgrGetGeneration, devmgrGetdeviceRef]
        using generation

theorem absent_chunk {pos left : Nat} (stored : writeChunk s d pos left done src = some t)
    (other : pg ≠ pos / pcSize) (missing : pcLookup s d pg = none)
    (absent : pcLookup s d (pos / pcSize) = none) : pcLookup t d pg = none := by
  rw [pcLookup_none] at missing ⊢
  simp only [writeChunk, absent] at stored
  split at stored
  · cases stored
  rename_i j q claimed
  obtain ⟨_, rfl⟩ := pcClaim_spec absent claimed
  cases stored
  intro i hit
  by_cases here : i = j
  · subst here
    have index := ((hits_iff ..).mp hit).2.2.1
    simp [storeChunk, stamp, storedLine, setLine, blankLine, rekey] at index
    exact other index.symm
  · apply missing i
    rw [hits_iff] at hit ⊢
    simpa [storeChunk, stamp, setLine, rekey, here, devmgrGetGeneration, devmgrGetdeviceRef]
      using hit

/-- Whole pages without lines: each gets its line, or the rest goes to the device past none. -/
theorem writeOpen_absent {r : Nat} (rest : done + r * pcSize = total)
    (aligned : (start + done) % pcSize = 0)
    (absent : ∀ k, done ≤ k → k < total → pcLookup s d ((start + k) / pcSize) = none) :
    WriteOpen s d start total src done := by
  induction r generalizing s done with
  | zero =>
    rw [WriteOpen, dif_neg (by omega)]
    trivial
  | succ r ih =>
    rw [Nat.succ_mul] at rest
    have positive := pcSize_pos
    have length : chunkLen (start + done) (total - done) = pcSize :=
      chunkLen_aligned aligned (by omega)
    rw [WriteOpen, dif_pos (by omega), length]
    split
    · intro b low high
      have none := absent (b - start) (by omega) (by omega)
      rwa [Nat.add_sub_cancel' (by omega)] at none
    · rename_i t stored
      refine ⟨.inr (wholeChunk_aligned aligned (by omega)), ih (by omega)
        (by rw [← Nat.add_assoc, Nat.add_mod_right]; exact aligned) fun k low high => ?_⟩
      refine absent_chunk stored (fun same => ?_) (absent k (by omega) high)
        (absent done le_rfl (by omega))
      have first := Nat.div_add_mod (start + done) pcSize
      have inside := Nat.div_add_mod (start + k) pcSize
      have short := Nat.mod_lt (start + k) pcSize_pos
      rw [same] at inside
      omega

theorem aligned_pages (whole : unaligned start total = false) :
    start % pcSize = 0 ∧ ∃ r, total = r * pcSize := by
  simp only [unaligned, Bool.or_eq_false_iff, bne_eq_false_iff_eq] at whole
  refine ⟨whole.1, total / pcSize, ?_⟩
  have both := Nat.add_mod start total pcSize
  rw [whole.1, whole.2, Nat.zero_add, Nat.mod_mod] at both
  have split := Nat.div_add_mod total pcSize
  rw [← both, Nat.add_zero, Nat.mul_comm] at split
  exact split.symm

/-- A ready range takes no wrong branch. -/
theorem throughOpen_of_ready (positive : 0 < total) (ready : RangeReady s d start total) :
    ThroughOpen s d start total src malloc := by
  unfold ThroughOpen
  rcases ready with resident | one | ⟨whole, slots⟩
  · have here : ∀ u, SameLines s u → WriteOpen u d start total src 0 := fun u same =>
      writeOpen_resident fun k _ high => by rw [same.lookup]; exact resident k high
    split
    · rw [fillRange_resident fun pg low high => ?_]
      · exact here _ (sameLines_bsize s d)
      have lower := (Nat.div_le_iff_le_mul_add_pred pcSize_pos).mp low
      have upper := (Nat.le_div_iff_mul_le pcSize_pos).mp high
      have page := resident (max (pg * pcSize) start - start) (by omega)
      rw [Nat.add_sub_cancel' (by omega)] at page
      have same : max (pg * pcSize) start / pcSize = pg := by
        refine Nat.div_eq_of_lt_le ?_ ?_ <;> · simp only [pcSize] at *; omega
      rwa [same] at page
    · exact here s (.refl s)
  · split
    · rw [← one]
      rcases filled : pcFillRange s d (start / pcSize) (start / pcSize) malloc with ⟨ok, t⟩
      obtain ⟨refused, page⟩ := fillRange_page filled
      cases ok with
      | false =>
        intro b low high
        rw [range_page one low high]
        exact refused rfl
      | true => exact writeOpen_page one ((page rfl).imp_right .inr)
    · rename_i whole
      obtain ⟨aligned, r, pages⟩ := aligned_pages (by simpa using whole)
      refine writeOpen_page one (.inr (.inl (wholeChunk_aligned aligned ?_)))
      rw [pages] at positive ⊢
      exact Nat.le_mul_of_pos_left _ (Nat.pos_of_mul_pos_right positive)
  · obtain ⟨aligned, r, rfl⟩ := aligned_pages whole
    rw [whole]
    rcases slots with absent | ⟨tidy, room⟩
    · exact writeOpen_absent (Nat.zero_add _) aligned fun k _ high => absent k high
    · refine (writeLoop_fits tidy d start src (Nat.zero_add _) aligned ?_).2
      rw [← Nat.add_mul] at room
      exact Nat.le_of_mul_le_mul_right room pcSize_pos

theorem writeSafe_of_ready (inv : Inv s) {sector : Nat} (nonzero : n ≠ 0)
    (ready : WriteReady s d sector n) (src : Buf) (malloc : Nat → Bool) :
    WriteSafe s d sector n src malloc := by
  have opened := sameLines_open s d
  refine ⟨ready.1, ?_⟩
  rw [openRange_unit inv.sizes d]
  refine throughOpen_of_ready (Nat.mul_pos (Nat.pos_of_ne_zero nonzero) (blockUnit_pos _)) ?_
  simpa only [RangeReady, Resident, Absent, Tidy, occupied, opened.lookup, sameLines_flags opened]
    using ready.2

theorem pcCopyOut_absent {off k : Nat} (dst : Buf) (inside : k < n)
    (absent : pcLookup s d ((off + k) / pcSize) = none) : (pcCopyOut s d off n dst).1 = false := by
  by_contra copied
  rw [Bool.not_eq_false] at copied
  have resident := (copyOutLoop_spec s d off n dst 0).2.2.2 copied k (Nat.zero_le k) inside
  rw [absent] at resident
  cases resident

theorem skipResident_stops {pg0 : Nat} (pg1 : Nat) (low : pg0 ≤ pg)
    (absent : pcLookup s d pg = none) : skipResident s d pg1 pg0 ≤ pg := by
  fun_induction skipResident s d pg1 pg0 with
  | case1 pg0 more ih =>
    have other : pg0 ≠ pg := by
      rintro rfl
      simp [absent] at more
    exact ih (by omega)
  | case2 pg0 stop => exact low

/-- Without memory, a range with a missing page is not filled. -/
theorem fillRange_refused {pg0 pg1 : Nat} (low : pg0 ≤ pg) (high : pg ≤ pg1)
    (absent : pcLookup s d pg = none) :
    pcFillRange s d pg0 pg1 (fun _ => false) = (false, (pcBsize s d).2) := by
  have stop := skipResident_stops (s := (pcBsize s d).2) (d := d) pg1 low
    (by rw [(sameLines_bsize s d).lookup]; exact absent)
  rw [pcFillRange, fillLoop, dif_pos (by omega)]
  rfl

/-- Without memory, a read goes to the device at its first missing page. -/
theorem readThrough_refused {k : Nat} (dst : Buf) (inside : k < n)
    (absent : pcLookup s d ((start + k) / pcSize) = none) :
    (readThrough s d start n dst fun _ => false).1 = false := by
  have missed := pcCopyOut_absent dst inside absent
  have touched := pcCopyOut_same s d start n dst
  unfold readThrough
  rcases first : pcCopyOut s d start n dst with ⟨ok, s1, dst1⟩
  rw [first] at missed touched
  change ok = false at missed
  subst missed
  dsimp only
  rw [fillRange_refused (Nat.div_le_div_right (Nat.le_add_right start k))
    (Nat.div_le_div_right (by omega)) (by rw [touched.lookup]; exact absent)]

end Ready

section Full

/-- Every slot holds a dirty line. -/
def Full (s : State) : Prop :=
  ∀ j, (s.pcTab j).uptodate = true ∧ (s.pcTab j).dirty = true

theorem Full.same {t : State} (full : Full s) (same : SameLines s t) : Full t := by
  simpa only [Full, sameLines_flags same] using full

/-- The device answers reads. -/
def Readable (s : State) (d : Int) : Prop :=
  ∃ desc, devmgrGetdeviceRef s d = some desc ∧ desc.isBlock = true ∧ desc.generation ≠ 0 ∧
    desc.readBlock = true

theorem pcDevRead_readable (readable : Readable s d) (lba : Nat) :
    ∃ result, pcDevRead s d lba = some result := by
  obtain ⟨desc, live, block, nonzero, reads⟩ := readable
  have opened : pcDevOpen s d 0 = some desc := by simp [pcDevOpen, live, block, nonzero]
  rw [pcDevRead, opened]
  exact ⟨_, if_pos reads⟩

/-- A read that misses the cache returns the device's bytes. -/
theorem blkcacheRead_missed (inv : Inv s) {sector : Nat} {dst : Buf} {malloc : Nat → Bool}
    (nonzero : n ≠ 0) (missed : (readThrough (openRange s d).2 d (sector * (openRange s d).1)
      (n * (openRange s d).1) dst malloc).1 = false) (readable : Readable s d) :
    (blkcacheRead s d sector n dst malloc).1 = true ∧ ∀ k < n * transferUnit s d,
      (blkcacheRead s d sector n dst malloc).2.2 k =
        s.media d (devmgrGetGeneration s d) (sector * transferUnit s d + k) := by
  have opened := sameLines_open s d
  have move := readThrough_move (opened.sizes inv.sizes) d (sector * (openRange s d).1)
    (n * (openRange s d).1) dst malloc
  have success : (blkcacheRead s d sector n dst malloc).1 = true := by
    rw [blkcacheRead, if_neg nonzero]
    dsimp only
    split
    · rfl
    rename_i s1 dst1 attempt
    rw [attempt] at move
    obtain ⟨result, transfer⟩ := pcDevRead_readable (s := s1) (d := d) (by
      obtain ⟨desc, live, rest⟩ := readable
      exact ⟨desc, by rw [move.ref, opened.ref]; exact live, rest⟩) sector
    rw [transfer]
  have returned := blkcacheRead_spec inv success
  rw [missed] at returned
  exact ⟨success, by simpa using returned⟩

/-- Where the range is not ready, a read that gets no memory returns a byte a dirty line hides. -/
theorem read_unready (inv : Inv s) {sector : Nat} (readable : Readable s d)
    (unready : ¬ReadReady s d sector n) : ∃ dst malloc,
      (blkcacheRead s d sector n dst malloc).1 = true ∧ ∃ k < n * transferUnit s d,
        (blkcacheRead s d sector n dst malloc).2.2 k ≠
          logical s d (sector * transferUnit s d + k) := by
  have opened := sameLines_open s d
  have unit := openRange_unit inv.sizes d
  simp only [ReadReady, Resident, not_or, not_forall, not_not] at unready
  obtain ⟨⟨k, inside, absent⟩, o, high, j, found, _, differ⟩ := unready
  have missed : (readThrough (openRange s d).2 d (sector * (openRange s d).1)
      (n * (openRange s d).1) (fun _ => 0) fun _ => false).1 = false :=
    readThrough_refused _ (by rw [unit]; exact inside) (by rw [opened.lookup, unit]; exact absent)
  obtain ⟨success, bytes⟩ := blkcacheRead_missed inv (by rintro rfl; simp at inside) missed readable
  refine ⟨_, _, success, o, high, ?_⟩
  rw [bytes o high, logical, found]
  exact Ne.symm differ

theorem writeLoop_full (full : Full s) {start total : Nat} (src : Buf) (more : 0 < total)
    (absent : pcLookup s d (start / pcSize) = none) :
    writeLoop s d start total src 0 = (false, s) := by
  have refused : writeChunk s d (start + 0) (total - 0) 0 src = none := by
    simp only [writeChunk, Nat.add_zero, absent,
      pcClaim_full absent (fun j => (full j).1) fun j => (full j).2]
  rw [writeLoop, dif_pos more, refused]

/-- The device accepts writes. -/
def Writable (s : State) (d : Int) : Prop :=
  ∃ desc, devmgrGetdeviceRef s d = some desc ∧ desc.isBlock = true ∧ desc.generation ≠ 0 ∧
    desc.writeBlock = true

theorem pcDevWrite_writable (writable : Writable s d) (lba nsect : Nat) (buf : Buf) :
    ∃ t, pcDevWrite s d 0 lba nsect buf = some t := by
  obtain ⟨desc, live, block, nonzero, writes⟩ := writable
  have opened : pcDevOpen s d 0 = some desc := by simp [pcDevOpen, live, block, nonzero]
  rw [pcDevWrite, opened]
  exact ⟨_, if_pos writes⟩

theorem blkcacheWrite_full (inv : Inv s) (full : Full s) (sector : Nat) (src : Buf)
    (malloc : Nat → Bool) (nonzero : n ≠ 0)
    (aligned : unaligned (sector * transferUnit s d) (n * transferUnit s d) = false)
    (absent : pcLookup s d (sector * transferUnit s d / pcSize) = none) (writable : Writable s d) :
    (blkcacheWrite s d sector n src malloc).1 = true ∧
      (storeOf (blkcacheWrite s d sector n src malloc).2).line = (storeOf s).line := by
  have opened := sameLines_open s d
  have unit := openRange_unit inv.sizes d
  have positive : 0 < n * transferUnit s d :=
    Nat.mul_pos (Nat.pos_of_ne_zero nonzero) (blockUnit_pos _)
  have refused : writeThrough (openRange s d).2 d (sector * (openRange s d).1)
      (n * (openRange s d).1) src malloc = (false, (openRange s d).2) := by
    rw [unit, writeThrough, aligned]
    exact writeLoop_full (full.same opened) src positive (by rw [opened.lookup]; exact absent)
  obtain ⟨u, transfer⟩ := pcDevWrite_writable (s := (openRange s d).2) (d := d) (by
    obtain ⟨desc, live, rest⟩ := writable
    exact ⟨desc, by rw [opened.ref]; exact live, rest⟩) sector n src
  have result : blkcacheWrite s d sector n src malloc = (true, u) := by
    simp only [blkcacheWrite, nonzero, if_false, refused, transfer]
  rw [result, storeOf_devWrite transfer, opened.storeOf_eq]
  exact ⟨rfl, rfl⟩

theorem full_of_pages (page : Slot → Nat) (distinct : Function.Injective page)
    (held : ∀ i, ∃ j, Hits s d (page i) j ∧ (s.pcTab j).dirty = true) :
    Full s ∧ ∀ d' pg, (∀ i, ¬(d' = d ∧ pg = page i)) → pcLookup s d' pg = none := by
  choose slot hit dirty using held
  have injective : Function.Injective slot := by
    intro a b same
    have key := hits_key (hit a) (same ▸ hit b)
    exact distinct key.2
  have onto := Finite.surjective_of_injective injective
  refine ⟨fun j => ?_, fun d' pg other => ?_⟩
  · obtain ⟨i, rfl⟩ := onto j
    exact ⟨((hits_iff _ _ _ _).mp (hit i)).1, dirty i⟩
  rw [pcLookup_none]
  intro j answer
  obtain ⟨i, rfl⟩ := onto j
  exact other i (hits_key answer (hit i))

theorem occupied_init (devlist : Int → Option BlockDesc) (media : Int → Nat → Nat → UInt8) :
    Tidy (blkcacheInit devlist media) ∧ (occupied (blkcacheInit devlist media)).card = 0 := by
  refine ⟨fun j dirty => ?_, ?_⟩
  · simp [blkcacheInit] at dirty
  · rw [card_eq_zero, occupied, filter_eq_empty_iff]
    intro j _ held
    simp [blkcacheInit] at held

end Full

end IcsOs.BlkCache.Occupancy
