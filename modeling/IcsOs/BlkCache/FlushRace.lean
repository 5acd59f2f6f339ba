/- GID: IcsOs/BlkCache/FlushRace
   generality: I
   source: kernel/iomgr/blkcache.c, kernel/iomgr/blkcache.h
   digest: Flush runs interleaved page by page with requests, and when a completion is sound. -/

import IcsOs.BlkCache.Contract

set_option autoImplicit false

namespace IcsOs.BlkCache.FlushRace

open List
open Lib.Runs BlkCache.PageCache BlkCache.Requests BlkCache.ReadPath BlkCache.WritePath
open BlkCache.Coherence BlkCache.Contract

/-- A run of `blkcache_flush` between two sections under the cache lock. -/
inductive Phase
  | idle
  | scanning (i : Nat)
  | snapped (snap : Snap)
  | checked (snap : Snap)
  | stale (snap : Snap)
  | written (snap : Snap)

/-- The snapshot a run holds. -/
def Phase.inFlight : Phase → Option Snap
  | .idle => none
  | .scanning _ => none
  | .snapped snap => some snap
  | .checked snap => some snap
  | .stale snap => some snap
  | .written snap => some snap

/-- The cache and any number of flush runs. -/
structure World where
  cache : State
  runs : Nat → Phase

/-- Whole requests, device registration, and the sections of a flush run `r`. -/
inductive Step
  | call (c : Call)
  | register (deviceid : Int) (desc : Option BlockDesc)
  | start (r : Nat)
  | snapshot (r : Nat)
  | check (r : Nat)
  | drop (r : Nat)
  | transfer (r : Nat)
  | complete (r : Nat)

def World.goto (w : World) (r : Nat) (s : State) (phase : Phase) : World :=
  ⟨s, Function.update w.runs r phase⟩

/-- The device manager gives a registration a generation its slot never had. -/
def freshDesc (s : State) (deviceid : Int) : Option BlockDesc → Bool
  | none => true
  | some desc => desc.generation != s.sizes.generation deviceid

/-- One step of the world; `none` where the step is not enabled. -/
def advance (w : World) : Step → Option World
  | .call .flush => none
  | .call c => some { w with cache := c.perform w.cache }
  | .register d desc =>
    if freshDesc w.cache d desc then
      some { w with cache := { w.cache with devlist := Function.update w.cache.devlist d desc } }
    else none
  | .start r =>
    match w.runs r with
    | .idle => some (w.goto r w.cache (.scanning 0))
    | _ => none
  | .snapshot r =>
    match w.runs r with
    | .scanning i =>
      if inside : i < pcNPages then
        match flushSnapshot w.cache ⟨i, inside⟩ with
        | none => some (w.goto r w.cache (.scanning (i + 1)))
        | some snap => some (w.goto r w.cache (.snapped snap))
      else some (w.goto r w.cache .idle)
    | _ => none
  | .check r =>
    match w.runs r with
    | .snapped snap =>
      let s := pcRememberBsize w.cache snap.dev
      some (w.goto r s (if snapLive s snap then .checked snap else .stale snap))
    | _ => none
  | .drop r =>
    match w.runs r with
    | .stale snap => some (w.goto r (flushStale w.cache snap) .idle)
    | _ => none
  | .transfer r =>
    match w.runs r with
    | .checked snap =>
      let moved := flushTransfer w.cache snap
      some (w.goto r moved.2 (if moved.1 then .written snap else .idle))
    | _ => none
  | .complete r =>
    match w.runs r with
    | .written snap => some (w.goto r (flushComplete w.cache snap) (.scanning (snap.slot + 1)))
    | _ => none

/-- The cache started empty, with no flush running. -/
def race (devlist : Int → Option BlockDesc) (media : Int → Nat → Nat → UInt8) :
    System World Step where
  start w := w.cache = blkcacheInit devlist media ∧ ∀ r, w.runs r = .idle
  step w a w' := advance w a = some w'

variable {s t : State}

/-- Lines with the dirty flag, before or after, change at most their age. -/
def SlotKept (s t : State) : Prop :=
  ∀ j, (s.pcTab j).dirty = true ∨ (t.pcTab j).dirty = true →
    ∃ age, t.pcTab j = { s.pcTab j with age := age }

theorem SlotKept.of_same (same : SameLines s t) : SlotKept s t :=
  fun j _ => same.line j

theorem SlotKept.trans {u : State} (first : SlotKept s t) (second : SlotKept t u) :
    SlotKept s u := by
  intro j dirty
  have middle : (t.pcTab j).dirty = true := by
    rcases dirty with before | after
    · obtain ⟨age, line⟩ := first j (.inl before)
      rw [line]
      exact before
    · obtain ⟨age, line⟩ := second j (.inr after)
      rw [line] at after
      exact after
  obtain ⟨a, lineA⟩ := first j (.inr middle)
  obtain ⟨b, lineB⟩ := second j (.inl middle)
  exact ⟨b, by rw [lineB, lineA]⟩

/-- Replacing a line without the dirty flag by another such line. -/
theorem slotKept_setLine {j : Slot} {p : PcPage} (before : (s.pcTab j).dirty = false)
    (after : p.dirty = false) : SlotKept s (setLine s j p) := by
  intro i dirty
  by_cases same : i = j
  · subst same
    simp [setLine, before, after] at dirty
  · exact ⟨(s.pcTab i).age, by simp [setLine, Function.update_of_ne same]⟩

theorem slotKept_claim {d : Int} {pg : Nat} {j : Slot} (absent : pcLookup s d pg = none)
    (claimed : pcClaim s d pg = some (j, t)) :
    SlotKept s t ∧ (s.pcTab j).dirty = false ∧ t = rekey s d pg j := by
  obtain ⟨undirty, rfl⟩ := pcClaim_spec absent claimed
  exact ⟨slotKept_setLine undirty rfl, undirty, rfl⟩

theorem slotKept_install (d : Int) (run0 g : Nat) (bounce : Buf) (s : State) (i : Nat) :
    SlotKept s (installPage d run0 g bounce s i) := by
  unfold installPage
  cases absent : pcLookup s d (run0 + i) with
  | some _ => exact .of_same (SameLines.refl s)
  | none =>
    cases claimed : pcClaim s d (run0 + i) with
    | none => exact .of_same (SameLines.refl s)
    | some result =>
      obtain ⟨j, t⟩ := result
      obtain ⟨kept, _, rfl⟩ := slotKept_claim absent claimed
      refine kept.trans (SlotKept.trans ?_ (.of_same (sameLines_setLine _ j _)))
      exact slotKept_setLine (by simp [rekey, setLine]) rfl

theorem slotKept_fillRange (s : State) (d : Int) (pg0 pg1 : Nat) (malloc : Nat → Bool) :
    SlotKept s (pcFillRange s d pg0 pg1 malloc).2 :=
  carried_fillRange (fun s => .of_same (.refl s)) .trans
    (fun s => .of_same (sameLines_bsize s d)) (fun s run0 np _ bounce g _ =>
      carried_installRun (fun s => .of_same (.refl s)) .trans
        (slotKept_install d run0 g bounce) s np) s pg0 pg1

/-- A read changes no dirty line and makes none. -/
theorem slotKept_read (s : State) (d : Int) (sector n : Nat) (dst : Buf) (malloc : Nat → Bool) :
    SlotKept s (blkcacheRead s d sector n dst malloc).2.1 := by
  have carried : Carried d malloc SlotKept :=
    { refl := fun s => .of_same (.refl s)
      trans := .trans
      opened := fun s => .of_same (sameLines_open s d)
      copied := fun s start n dst => .of_same (pcCopyOut_same s d start n dst)
      filled := fun s pg0 pg1 => slotKept_fillRange s d pg0 pg1 malloc }
  exact carried.read s sector n dst

/-- A dirty line is left but for its age, or stored into with its page generation moved on. -/
def Stored (p q : PcPage) : Prop :=
  (∃ age, q = { p with age := age }) ∨
    q.dirty = true ∧ q.deviceid = p.deviceid ∧ q.index = p.index ∧
      q.generation = (p.generation + 1) % 2 ^ 32

theorem Stored.of_age {p q : PcPage} {age : Nat} (stored : Stored { p with age := age } q) :
    Stored p q := by
  rcases stored with ⟨age', line⟩ | moved
  · exact .inl ⟨age', line⟩
  · exact .inr moved

theorem writeChunk_slot {s t : State} {d : Int} {pos left done : Nat} {src : Buf} {j : Slot}
    (stored : writeChunk s d pos left done src = some t) (dirty : (s.pcTab j).dirty = true) :
    (∃ age, t.pcTab j = { s.pcTab j with age := age }) ∨
      ((t.pcTab j).dirty = true ∧ (t.pcTab j).deviceid = (s.pcTab j).deviceid ∧
        (t.pcTab j).index = (s.pcTab j).index ∧
        (t.pcTab j).generation = ((s.pcTab j).generation + 1) % 2 ^ 32) ∧
        (s.pcTab j).index = pos / pcSize := by
  unfold writeChunk at stored
  cases found : pcLookup s d (pos / pcSize) with
  | some i =>
    simp only [found, Option.some.injEq] at stored
    subst stored
    by_cases same : j = i
    · subst same
      have hit := pcLookup_hits found
      rw [hits_iff] at hit
      refine .inr ⟨?_, hit.2.2.1⟩
      simp [storeChunk, stamp, storedLine]
    · exact .inl ⟨(s.pcTab j).age, by simp [storeChunk, stamp, Function.update_of_ne same]⟩
  | none =>
    cases claimed : pcClaim s d (pos / pcSize) with
    | none => simp [found, claimed] at stored
    | some result =>
      obtain ⟨i, q⟩ := result
      simp only [found, claimed, Option.some.injEq] at stored
      subst stored
      obtain ⟨_, undirty, rfl⟩ := slotKept_claim found claimed
      have other : j ≠ i := by
        rintro rfl
        rw [undirty] at dirty
        cases dirty
      exact .inl ⟨(s.pcTab j).age,
        by simp [storeChunk, stamp, setLine, rekey, Function.update_of_ne other]⟩

/-- The page after a chunk that does not end the request. -/
theorem chunk_next (pos : Nat) {left : Nat} (more : chunkLen pos left < left) :
    (pos + chunkLen pos left) / pcSize = pos / pcSize + 1 := by
  have inside := Nat.mod_lt pos pcSize_pos
  have split := Nat.div_add_mod pos pcSize
  have length : chunkLen pos left = pcSize - pos % pcSize := by
    unfold chunkLen at more ⊢
    omega
  have whole : pos + chunkLen pos left = pcSize * (pos / pcSize + 1) := by
    rw [length, Nat.mul_add]
    omega
  rw [whole, Nat.mul_div_cancel_left _ pcSize_pos]

theorem writeLoop_slot {s : State} {d : Int} {start total : Nat} {src : Buf} {done : Nat} {j : Slot}
    (dirty : (s.pcTab j).dirty = true) :
    (∃ age, (writeLoop s d start total src done).2.pcTab j = { s.pcTab j with age := age }) ∨
      Stored (s.pcTab j) ((writeLoop s d start total src done).2.pcTab j) ∧ done < total ∧
        (start + done) / pcSize ≤ (s.pcTab j).index := by
  fun_induction writeLoop s d start total src done with
  | case1 s done more failed => exact .inl ⟨(s.pcTab j).age, rfl⟩
  | case2 s done more t chunk ih =>
    rcases writeChunk_slot chunk dirty with ⟨age, line⟩ | ⟨moved, page⟩
    · rcases ih (by rw [line]; exact dirty) with ⟨age', line'⟩ | ⟨later, _, ahead⟩
      · exact .inl ⟨age', by rw [line', line]⟩
      · rw [line] at later ahead
        exact .inr ⟨later.of_age, more, le_trans (Nat.div_le_div_right (by omega)) ahead⟩
    rcases ih moved.1 with ⟨age', line'⟩ | ⟨_, unfinished, ahead⟩
    · rw [line']
      exact .inr ⟨.inr moved, more, le_of_eq page.symm⟩
    -- the chunk left its page, so no later chunk meets the line again
    have next := chunk_next (start + done)
      (show chunkLen (start + done) (total - done) < total - done by omega)
    rw [← Nat.add_assoc, next, moved.2.2.1, page] at ahead
    omega
  | case3 s done finished => exact .inl ⟨(s.pcTab j).age, rfl⟩

/-- The parts of a state the write loop leaves alone. -/
structure Frame (s t : State) : Prop where
  devlist : t.devlist = s.devlist
  media : t.media = s.media
  sizes : SizesOk s → SizesOk t

theorem Frame.trans {u : State} (first : Frame s t) (second : Frame t u) : Frame s u :=
  ⟨second.devlist.trans first.devlist, second.media.trans first.media, second.sizes ∘ first.sizes⟩

theorem Frame.of_read (move : ReadMove s t) : Frame s t :=
  { move with }

theorem writeLoop_frame (s : State) (d : Int) (start total : Nat) (src : Buf) (done : Nat) :
    Frame s (writeLoop s d start total src done).2 := by
  fun_induction writeLoop s d start total src done with
  | case1 s done more failed => exact ⟨rfl, rfl, id⟩
  | case2 s done more t stored ih =>
    refine Frame.trans ?_ ih
    by_cases live : devmgrGetGeneration s d = 0
    · exact .of_read (writeChunk_dead live stored)
    · obtain ⟨q, p, move⟩ := writeChunk_move live stored
      exact (Frame.of_read move.room).trans { move with }
  | case3 s done finished => exact ⟨rfl, rfl, id⟩

theorem writeThrough_slot (sizes : SizesOk s) (d : Int) (start total : Nat) (src : Buf)
    (malloc : Nat → Bool) :
    Frame s (writeThrough s d start total src malloc).2 ∧ ∀ j, (s.pcTab j).dirty = true →
        Stored (s.pcTab j) ((writeThrough s d start total src malloc).2.pcTab j) := by
  have loop : ∀ (q : State) (j : Slot), (q.pcTab j).dirty = true →
      Stored (q.pcTab j) ((writeLoop q d start total src 0).2.pcTab j) := by
    intro q j dirty
    rcases writeLoop_slot dirty with kept | ⟨moved, _⟩
    · exact .inl kept
    · exact moved
  unfold writeThrough
  split
  · have move := Frame.of_read (readMove_fillRange sizes d (start / pcSize)
      ((start + total - 1) / pcSize) malloc)
    have filled := slotKept_fillRange s d (start / pcSize) ((start + total - 1) / pcSize) malloc
    rcases fill : pcFillRange s d (start / pcSize) ((start + total - 1) / pcSize) malloc
      with ⟨ok, q⟩
    rw [fill] at filled move
    cases ok with
    | false => exact ⟨move, fun j dirty => .inl (filled j (.inl dirty))⟩
    | true =>
      refine ⟨move.trans (writeLoop_frame q d start total src 0), fun j dirty => ?_⟩
      obtain ⟨age, line⟩ := filled j (.inl dirty)
      have stored := loop q j (by rw [line]; exact dirty)
      rw [line] at stored
      exact stored.of_age
  · exact ⟨writeLoop_frame s d start total src 0, fun j dirty => loop s j dirty⟩

theorem blkcacheWrite_slot (sizes : SizesOk s) (d : Int) (sector n : Nat) (src : Buf)
    (malloc : Nat → Bool) :
    SizesOk (blkcacheWrite s d sector n src malloc).2 ∧
    (blkcacheWrite s d sector n src malloc).2.devlist = s.devlist ∧
    (∀ j, (s.pcTab j).dirty = true →
      Stored (s.pcTab j) ((blkcacheWrite s d sector n src malloc).2.pcTab j)) ∧
    ∀ d' g b, (writeFallback s d sector n src malloc ≠ none → d' = d →
        b < sector * transferUnit s d ∨ sector * transferUnit s d + n * transferUnit s d ≤ b) →
      (blkcacheWrite s d sector n src malloc).2.media d' g b = s.media d' g b := by
  have opened := sameLines_open s d
  obtain ⟨frame, slots⟩ := writeThrough_slot (opened.sizes sizes) d (sector * (openRange s d).1)
    (n * (openRange s d).1) src malloc
  have frame := Frame.trans { opened with } frame
  obtain ⟨_, result⟩ | ⟨_, t, final, ending⟩ := blkcacheWrite_cases s d sector n src malloc
  · rw [result]
    exact ⟨sizes, rfl, fun j _ => .inl ⟨(s.pcTab j).age, rfl⟩, fun _ _ _ _ => rfl⟩
  rw [final] at frame slots
  have slots' : ∀ j, (s.pcTab j).dirty = true → Stored (s.pcTab j) (t.pcTab j) := by
    intro j dirty
    obtain ⟨age, line⟩ := opened.line j
    have stored := slots j (by rw [line]; exact dirty)
    rw [line] at stored
    exact stored.of_age
  obtain ⟨_, _, result⟩ | ⟨fallback, ⟨_, result⟩ | ⟨u, transfer, result⟩⟩ := ending
  · rw [result]
    exact ⟨frame.sizes sizes, frame.devlist, slots', fun _ _ _ _ => by rw [frame.media]⟩
  · rw [result]
    exact ⟨frame.sizes sizes, frame.devlist, slots', fun _ _ _ _ => by rw [frame.media]⟩
  have unit : transferUnit t d = transferUnit s d := by
    simp only [transferUnit, devmgrGetdeviceRef, frame.devlist]
  obtain ⟨tab, _, devlist, _, _, _, _, media⟩ := pcDevWrite_some transfer
  rw [result]
  refine ⟨sizesOk_devWrite (frame.sizes sizes) transfer, devlist.trans frame.devlist,
    fun j dirty => ?_,
    fun d' g b spared => ?_⟩
  · rw [tab]
    exact slots' j dirty
  rw [media, frame.media, unit]
  split
  · rename_i here
    obtain ⟨rfl, rfl⟩ := here
    exact memcpy_outside (spared (by rw [fallback]; simp) rfl)
  · rfl

/-- The line an invalidation of device `d` leaves. -/
def invalidated (d : Int) (p : PcPage) : PcPage :=
  if p.deviceid == d then { p with uptodate := false, dirty := false, deviceid := -1 } else p

theorem invalidateSlot_eq (d : Int) (s : State) (n : Nat) (i : Slot) :
    (invalidateSlot d (s, n) i).1.pcTab = Function.update s.pcTab i (invalidated d (s.pcTab i)) ∧
      (invalidateSlot d (s, n) i).1.devlist = s.devlist ∧
      (invalidateSlot d (s, n) i).1.media = s.media ∧
      (invalidateSlot d (s, n) i).1.sizes = s.sizes := by
  dsimp only [invalidateSlot, invalidated]
  split
  · exact ⟨rfl, rfl, rfl, rfl⟩
  · exact ⟨by rw [Function.update_eq_self], rfl, rfl, rfl⟩

private theorem invalidate_fold (d : Int) (slots : List Slot) (s : State) (n : Nat)
    (nodup : slots.Nodup) :
    (∀ j, (slots.foldl (invalidateSlot d) (s, n)).1.pcTab j =
        if j ∈ slots then invalidated d (s.pcTab j) else s.pcTab j) ∧
      (slots.foldl (invalidateSlot d) (s, n)).1.devlist = s.devlist ∧
      (slots.foldl (invalidateSlot d) (s, n)).1.media = s.media ∧
      (slots.foldl (invalidateSlot d) (s, n)).1.sizes = s.sizes := by
  induction slots generalizing s n with
  | nil => exact ⟨fun j => by simp, rfl, rfl, rfl⟩
  | cons i rest ih =>
    rw [nodup_cons] at nodup
    obtain ⟨tab, devlist, media, sizes⟩ := invalidateSlot_eq d s n i
    obtain ⟨tab', devlist', media', sizes'⟩ :=
      ih (invalidateSlot d (s, n) i).1 (invalidateSlot d (s, n) i).2 nodup.2
    rw [foldl_cons]
    refine ⟨fun j => ?_, devlist'.trans devlist, media'.trans media, sizes'.trans sizes⟩
    rw [tab' j, tab]
    by_cases here : j = i
    · subst here
      simp [nodup.1]
    · simp [here]

theorem invalidate_eq (s : State) (d : Int) :
    (∀ j, (blkcacheInvalidateDevice s d).1.pcTab j = invalidated d (s.pcTab j)) ∧
      (blkcacheInvalidateDevice s d).1.devlist = s.devlist ∧
      (blkcacheInvalidateDevice s d).1.media = s.media ∧
      (blkcacheInvalidateDevice s d).1.sizes = s.sizes := by
  obtain ⟨all, nodup, every, same⟩ : ∃ all : List Slot, all.Nodup ∧ (∀ j, j ∈ all) ∧
      blkcacheInvalidateDevice s d = all.foldl (invalidateSlot d) (s, 0) :=
    ⟨_, nodup_finRange _, mem_finRange, rfl⟩
  rw [same]
  obtain ⟨tab, rest⟩ := invalidate_fold d all s 0 nodup
  refine ⟨fun j => ?_, rest⟩
  rw [tab j, if_pos (every j)]

section Alone

/-- The steps of flush run `r`. -/
def OfRun (r : Nat) (_ : World) : Step → Prop
  | .start r' => r' = r
  | .snapshot r' => r' = r
  | .check r' => r' = r
  | .drop r' => r' = r
  | .transfer r' => r' = r
  | .complete r' => r' = r
  | _ => False

variable {devlist : Int → Option BlockDesc} {media : Int → Nat → Nat → UInt8} {r : Nat} {w : World}

@[simp] theorem goto_goto (w : World) (r : Nat) (s t : State) (p q : Phase) :
    (w.goto r s p).goto r t q = w.goto r t q := by
  simp [World.goto]

@[simp] theorem goto_runs (w : World) (r : Nat) (s : State) (p : Phase) :
    (w.goto r s p).runs r = p := by
  simp [World.goto]

@[simp] theorem goto_cache (w : World) (r : Nat) (s : State) (p : Phase) :
    (w.goto r s p).cache = s := rfl

/-- Left alone, a flush run goes through one slot as `flushSlot` does. -/
theorem slot_alone {i : Nat} (inside : i < pcNPages) (at_slot : w.runs r = .scanning i) :
    Path (race devlist media) (OfRun r) w (w.goto r (flushSlot w.cache ⟨i, inside⟩).2
        (if (flushSlot w.cache ⟨i, inside⟩).1 then .scanning (i + 1) else .idle)) := by
  obtain ⟨empty, result⟩ | ⟨snap, copied, ending⟩ := flushSlot_cases w.cache ⟨i, inside⟩
  · rw [result]
    refine .one (a := Step.snapshot r) rfl ?_
    simp [race, advance, at_slot, inside, empty]
  have slot : snap.slot.val = i := by rw [(flushSnapshot_some copied).2]
  have snapped : Path (race devlist media) (OfRun r) w (w.goto r w.cache (.snapped snap)) :=
    .one (a := Step.snapshot r) rfl (by simp [race, advance, at_slot, inside, copied])
  obtain ⟨dead, result⟩ | ⟨live, ok, t, transfer, result⟩ := ending
  · have checked := snapped.step (a := Step.check r)
      (u := w.goto r (pcRememberBsize w.cache snap.dev) (.stale snap)) rfl
      (by simp [race, advance, dead])
    rw [result]
    exact checked.step (a := Step.drop r) rfl (by simp [race, advance])
  · have checked := snapped.step (a := Step.check r)
      (u := w.goto r (pcRememberBsize w.cache snap.dev) (.checked snap)) rfl
      (by simp [race, advance, live])
    rw [result]
    cases ok with
    | false => exact checked.step (a := Step.transfer r) rfl (by simp [race, advance, transfer])
    | true =>
      have written := checked.step (a := Step.transfer r) (u := w.goto r t (.written snap)) rfl
        (by simp [race, advance, transfer])
      exact written.step (a := Step.complete r) rfl (by simp [race, advance, slot])

theorem loop_alone {i left : Nat} (at_slot : w.runs r = .scanning i)
    (remaining : i + left = pcNPages) :
    Path (race devlist media) (OfRun r) w
      (w.goto r (flushLoop ((finRange pcNPages).drop i) w.cache).2 .idle) := by
  induction left generalizing w i with
  | zero =>
    have past : ¬i < pcNPages := by omega
    rw [drop_of_length_le (by simp; omega)]
    exact .one (a := Step.snapshot r) rfl (by simp [race, advance, at_slot, past, flushLoop])
  | succ left ih =>
    have inside : i < pcNPages := by omega
    have one : Path (race devlist media) (OfRun r) _ _ := slot_alone inside at_slot
    have cut : (finRange pcNPages).drop i =
        ⟨i, inside⟩ :: (finRange pcNPages).drop (i + 1) := by
      rw [drop_eq_getElem_cons (by simpa using inside)]
      simp
    rw [cut, flushLoop]
    rcases turn : flushSlot w.cache ⟨i, inside⟩ with ⟨ok, t⟩
    rw [turn] at one
    cases ok with
    | false => exact one
    | true =>
      have rest := ih (goto_runs w r t (.scanning (i + 1))) (by omega)
      simp only [goto_goto, goto_cache] at rest
      simp only [if_true] at one
      exact one.trans rest

/-- Left alone, a flush run is `blkcache_flush`. -/
theorem flush_alone (free : w.runs r = .idle) :
    Path (race devlist media) (OfRun r) w (w.goto r (blkcacheFlush w.cache).2 .idle) := by
  have started : Path (race devlist media) (OfRun r) w (w.goto r w.cache (.scanning 0)) :=
    .one (a := Step.start r) rfl (by simp [race, advance, free])
  have rest : Path (race devlist media) (OfRun r) _ _ :=
    loop_alone (goto_runs w r w.cache (.scanning 0)) (Nat.zero_add pcNPages)
  simp only [goto_goto, goto_cache, drop_zero] at rest
  exact started.trans rest

/-- Calls made one after the other are a run of the races, in which every flush is left alone; and a
flush run left alone does what `blkcache_flush` does. -/
theorem cache_in_race {s : State} (run : Reachable (cache devlist media) (fun _ _ => True) s) :
    (∃ w, Reachable (race devlist media) (fun _ _ => True) w ∧ w.cache = s ∧
      ∀ r, w.runs r = .idle) ∧
    ∀ w r, w.cache = s → w.runs r = .idle →
      Path (race devlist media) (OfRun r) w (w.goto r (blkcacheFlush s).2 .idle) := by
  refine ⟨?_, fun w r here free => here ▸ flush_alone free⟩
  induction run with
  | start initial => exact ⟨⟨_, fun _ => .idle⟩, .start ⟨initial, fun _ => rfl⟩, rfl, fun _ => rfl⟩
  | @step s t c _ _ taken ih =>
    obtain ⟨w, reached, rfl, idle⟩ := ih
    obtain rfl : t = c.perform w.cache := taken
    by_cases flush : c = .flush
    · subst flush
      have alone := reached.extend (fun _ _ _ => trivial) (flush_alone (idle 0))
      refine ⟨_, alone, by rw [goto_cache, Call.perform], fun r => ?_⟩
      by_cases own : r = 0
      · rw [own, goto_runs]
      · exact (Function.update_of_ne own _ _).trans (idle r)
    · have called : advance w (.call c) = some { w with cache := c.perform w.cache } := by
        cases c <;> simp_all [advance]
      exact ⟨_, .step reached trivial called, rfl, idle⟩

/-- The flush of a dirty page of ones. -/
theorem flush_in_race : (storeOf onePageCache).line (0, 0) = some (1, true) ∧
    Path (race oneDisk fun _ _ _ => 0) (OfRun 0) ⟨onePageCache, fun _ => .idle⟩
      (World.goto ⟨onePageCache, fun _ => .idle⟩ 0 (blkcacheFlush onePageCache).2 .idle) := by
  have run : Reachable (cache oneDisk fun _ _ _ => 0) (fun _ _ => True) onePageCache :=
    .step (.start rfl) (a := .write 0 0 8 (fun _ => 1) fun _ => true) trivial rfl
  obtain ⟨_, _, _, held⟩ := emptyCache_lines (t := onePageCache) (r := 1) (by decide) (by decide)
    (by decide) (by decide) rfl
  exact ⟨held 0 (by decide) (by decide), (cache_in_race run).2 _ 0 rfl rfl⟩

end Alone

end IcsOs.BlkCache.FlushRace
