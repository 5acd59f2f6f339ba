/- GID: IcsOs/BlkCache/Custody
   generality: I
   source: kernel/iomgr/blkcache.c
   digest: Dirty counter, flags and keys of the lines over every interleaving of the locked
   sections;
     a dirty line of a live generation keeps its key. -/

import IcsOs.BlkCache.Bookkeeping

set_option autoImplicit false

namespace IcsOs.BlkCache.Custody

open BlkCache.WritePath
open Lib.Runs BlkCache.PageCache BlkCache.Requests BlkCache.ReadPath BlkCache.Coherence
open BlkCache.Occupancy BlkCache.Contract BlkCache.FlushRace BlkCache.FlushSound
open BlkCache.Bookkeeping

section Turns

/-- A device read of `pc_fill_range` whose pages are still to be installed. -/
structure Fill where
  deviceid : Int
  run0 : Nat
  np : Nat
  generation : Nat
  bounce : Buf

/-- The cache and its flush runs, the fills under way, and the last generation of each id. -/
structure Desk where
  world : World
  fills : Nat → Option Fill
  issued : Int → Nat

abbrev Desk.cache (w : Desk) : State := w.world.cache

/-- Whole requests, and the sections of flush runs, reads and writes by themselves. -/
inductive Turn
  | race (a : Step)
  | attach (deviceid : Int) (desc : Option BlockDesc)
  | get (deviceid : Int) (sector numblocks : Nat) (dst : Buf)
  | put (deviceid : Int) (sector numblocks : Nat) (src : Buf)
  | copyOut (deviceid : Int) (byteOff nbytes : Nat) (dst : Buf)
  | fetch (r : Nat) (deviceid : Int) (lba run0 np : Nat)
  | install (r : Nat)
  | store (deviceid : Int) (start total : Nat) (src : Buf)
  | direct (deviceid : Int) (sector numblocks : Nat) (src : Buf)

/-- A registration gets a new generation; a descriptor may change under its own. -/
def attachable (w : Desk) (deviceid : Int) : Option BlockDesc → Bool
  | none => true
  | some desc => decide (w.issued deviceid < desc.generation) ||
      (w.cache.devlist deviceid).any fun held => held.generation == desc.generation

def Desk.attach (w : Desk) (deviceid : Int) (desc : Option BlockDesc) : Desk where
  world := { w.world with
    cache := { w.cache with devlist := Function.update w.cache.devlist deviceid desc } }
  fills := w.fills
  issued := Function.update w.issued deviceid
    (max (w.issued deviceid) ((desc.map BlockDesc.generation).getD 0))

def Desk.serve (w : Desk) (s : State) : Desk :=
  { w with world := { w.world with cache := s } }

/-- One turn; `none` where it is not enabled. -/
def act (w : Desk) : Turn → Option Desk
  | .race (.register _ _) => none
  | .race a => (advance w.world a).map fun v => { w with world := v }
  | .attach d desc => if attachable w d desc then some (w.attach d desc) else none
  | .get d sector n dst => some (w.serve (blkcacheGet w.cache d sector n dst).2.1)
  | .put d sector n src => some (w.serve (blkcachePut w.cache d sector n src).2)
  | .copyOut d off n dst => some (w.serve (pcCopyOut w.cache d off n dst).2.1)
  | .fetch r d lba run0 np =>
    match pcDevRead w.cache d lba with
    | none => none
    | some (bounce, generation) =>
      some { w with
        fills := Function.update w.fills r (some ⟨d, run0, np, generation, bounce⟩) }
  | .install r =>
    match w.fills r with
    | none => none
    | some f =>
      some { w.serve (installRun w.cache f.deviceid f.run0 f.generation f.np f.bounce) with
        fills := Function.update w.fills r none }
  | .store d start total src => some (w.serve (writeLoop w.cache d start total src 0).2)
  | .direct d sector n src => (pcDevWrite w.cache d 0 sector n src).map w.serve

/-- The empty cache over given devices. -/
def desks (devlist : Int → Option BlockDesc) (media : Int → Nat → Nat → UInt8) :
    System Desk Turn where
  start w := w.cache = blkcacheInit devlist media ∧ (∀ r, w.world.runs r = .idle) ∧
    (∀ r, w.fills r = none) ∧ ∀ d desc, devlist d = some desc → desc.generation ≤ w.issued d
  step w a w' := act w a = some w'

/-- The books hold, and nothing cached or in flight is newer than issued. -/
structure DeskInv (w : Desk) : Prop where
  book : Book w.cache
  capped : Capped w.issued w.cache
  within : Within w.issued w.cache
  fills : ∀ r f, w.fills r = some f → f.generation ≤ w.issued f.deviceid
  snaps : ∀ r snap, (w.world.runs r).inFlight = some snap →
    snap.deviceGeneration ≤ w.issued snap.dev
  stale : ∀ r snap, w.world.runs r = .stale snap → snapLive w.cache snap = false

variable {t : State} {w : Desk} {d : Int} {v : World} {r : Nat}

theorem DeskInv.serve (inv : DeskInv w) (booked : Booked w.issued w.cache t) :
    DeskInv (w.serve t) := by
  refine ⟨booked.book inv.book, booked.capped inv.capped, fun d => ?_, inv.fills, inv.snaps,
    fun r snap dead => ?_⟩
  · exact (booked.generation d).trans_le (inv.within d)
  · have same : snapLive t snap = snapLive w.cache snap := by
      simp only [snapLive, booked.generation]
    exact same.trans (inv.stale r snap dead)

/-- A flush run moves on to a phase that fits the cache. -/
theorem DeskInv.phase (inv : DeskInv w) (r : Nat) {phase : Phase}
    (held : ∀ snap, phase.inFlight = some snap → snap.deviceGeneration ≤ w.issued snap.dev)
    (dead : ∀ snap, phase = .stale snap → snapLive w.cache snap = false) :
    DeskInv { w with world := w.world.goto r w.cache phase } := by
  refine { inv with snaps := fun r' snap flight => ?_, stale := fun r' snap gone => ?_ }
  · by_cases here : r' = r
    · subst here
      exact held snap (by simpa using flight)
    · exact inv.snaps r' snap (by simpa [World.goto, Function.update_of_ne here] using flight)
  · by_cases here : r' = r
    · subst here
      exact dead snap (by simpa using gone)
    · exact inv.stale r' snap (by simpa [World.goto, Function.update_of_ne here] using gone)

inductive Change (w : Desk) (a : Turn) (t : State) : Prop
  | served (served : Served w.issued w.cache t)
  | attached (lines : t.pcTab = w.cache.pcTab)
  | dropped (r : Nat) (snap : Snap) (ready : w.world.runs r = .stale snap)
      (moved : t = flushStale w.cache snap)
  | completed (r : Nat) (snap : Snap) (turn : a = .race (.complete r))
      (ready : w.world.runs r = .written snap) (moved : t = flushComplete w.cache snap)
  | invalidated (d : Int) (turn : a = .race (.call (.invalidateDevice d)))
      (moved : t = (blkcacheInvalidateDevice w.cache d).1)

/-- A turn kept the invariant and changed the cache in one of the known ways. -/
def Sound (w : Desk) (a : Turn) (w' : Desk) : Prop :=
  DeskInv w' ∧ Change w a w'.cache

section

variable (inv : DeskInv w)
include inv

theorem sound_served {a : Turn} (served : Served w.issued w.cache t) : Sound w a (w.serve t) :=
  ⟨inv.serve served.booked, .served served⟩

theorem sound_invalidate (moved : t = (blkcacheInvalidateDevice w.cache d).1) :
    Sound w (.race (.call (.invalidateDevice d))) (w.serve t) := by
  refine ⟨inv.serve ?_, .invalidated d rfl moved⟩
  rw [moved]
  exact booked_invalidate w.issued w.cache d

theorem sound_call {c : Call} (taken : advance w.world (.call c) = some v) :
    Sound w (.race (.call c)) { w with world := v } := by
  cases c with
  | flush => cases taken
  | read d sector n dst malloc =>
    cases taken
    exact sound_served inv (served_read inv.within d sector n dst malloc)
  | write d sector n src malloc =>
    cases taken
    exact sound_served inv (served_write inv.within d sector n src malloc)
  | invalidateDevice d =>
    have moved : v = { w.world with cache := (Call.invalidateDevice d).perform w.cache } :=
      (Option.some.inj taken).symm
    rw [moved]
    exact sound_invalidate inv (perform_invalidate w.cache d)

theorem sound_snapshot (taken : advance w.world (.snapshot r) = some v) :
    Sound w (.race (.snapshot r)) { w with world := v } := by
  simp only [advance] at taken
  split at taken
  · split at taken
    · split at taken
      · cases taken
        exact ⟨inv.phase r (by simp [Phase.inFlight]) (by simp), .served (.refl _ _)⟩
      rename_i snap copied
      cases taken
      refine ⟨inv.phase r (fun held same => ?_) (by simp), .served (.refl _ _)⟩
      cases same
      obtain ⟨flags, rfl⟩ := flushSnapshot_some copied
      exact inv.capped _ flags.2
    · cases taken
      exact ⟨inv.phase r (by simp [Phase.inFlight]) (by simp), .served (.refl _ _)⟩
  · cases taken

theorem sound_check (taken : advance w.world (.check r) = some v) :
    Sound w (.race (.check r)) { w with world := v } := by
  simp only [advance] at taken
  split at taken
  · rename_i snap ready
    cases taken
    have served := served_remember w.issued w.cache snap.dev
    have bound := inv.snaps r snap (by rw [ready]; rfl)
    refine ⟨(inv.serve served.booked).phase r (fun held flight => ?_) (fun held gone => ?_),
      .served served⟩
    · split at flight <;>
      · cases flight
        exact bound
    split at gone
    · cases gone
    · rename_i dead
      cases gone
      exact (Bool.not_eq_true _).mp dead
  · cases taken

end

theorem served_transfer (cap : Int → Nat) (s : State) (snap : Snap) :
    Served cap s (flushTransfer s snap).2 := by
  have sized := served_bsize cap s snap.dev
  unfold flushTransfer
  dsimp only
  cases transfer : pcDevWrite (pcBsize s snap.dev).2 snap.dev snap.deviceGeneration
      (snap.index * (pcSize / (pcBsize s snap.dev).1)) (pcSize / (pcBsize s snap.dev).1)
      snap.copy with
  | none => exact sized
  | some t => exact sized.trans (served_devWrite transfer)

theorem sound_transfer (inv : DeskInv w) (taken : advance w.world (.transfer r) = some v) :
    Sound w (.race (.transfer r)) { w with world := v } := by
  simp only [advance] at taken
  split at taken
  · rename_i snap ready
    cases taken
    have served := served_transfer w.issued w.cache snap
    have bound := inv.snaps r snap (by rw [ready]; rfl)
    refine ⟨(inv.serve served.booked).phase r (fun held flight => ?_) (fun held gone => ?_),
      .served served⟩
    · split at flight
      · cases flight
        exact bound
      · cases flight
    · split at gone <;> cases gone
  · cases taken

theorem sound_drop (inv : DeskInv w) (taken : advance w.world (.drop r) = some v) :
    Sound w (.race (.drop r)) { w with world := v } := by
  simp only [advance] at taken
  split at taken
  · rename_i snap ready
    cases taken
    exact ⟨(inv.serve (booked_stale w.issued w.cache snap)).phase r (by simp [Phase.inFlight])
      (by simp), .dropped r snap ready rfl⟩
  · cases taken

theorem sound_complete (inv : DeskInv w) (taken : advance w.world (.complete r) = some v) :
    Sound w (.race (.complete r)) { w with world := v } := by
  obtain ⟨snap, ready, rfl⟩ := complete_cases taken
  exact ⟨(inv.serve (booked_complete w.issued w.cache snap)).phase r (by simp [Phase.inFlight])
    (by simp), .completed r snap rfl ready rfl⟩

theorem sound_race {a : Step} (inv : DeskInv w) (here : ∀ d desc, a ≠ .register d desc)
    (taken : advance w.world a = some v) : Sound w (.race a) { w with world := v } := by
  cases a with
  | call c => exact sound_call inv taken
  | register d desc => exact absurd rfl (here d desc)
  | start r =>
    simp only [advance] at taken
    split at taken
    · cases taken
      exact ⟨inv.phase r (by simp [Phase.inFlight]) (by simp), .served (.refl _ _)⟩
    · cases taken
  | snapshot r => exact sound_snapshot inv taken
  | check r => exact sound_check inv taken
  | drop r => exact sound_drop inv taken
  | transfer r => exact sound_transfer inv taken
  | complete r => exact sound_complete inv taken

theorem attach_generation (w : Desk) (d : Int) (desc : Option BlockDesc) (d' : Int) :
    devmgrGetGeneration (w.attach d desc).cache d' = if d' = d then
        if validHandle d then (desc.map BlockDesc.generation).getD 0 else 0
      else devmgrGetGeneration w.cache d' := by
  by_cases here : d' = d
  · subst here
    simp only [devmgrGetGeneration, devmgrGetdeviceRef, Desk.attach, Function.update_self, if_true]
    by_cases valid : validHandle d' = true
    · rw [if_pos valid, if_pos valid]
      cases desc <;> rfl
    · rw [if_neg valid, if_neg valid]
  · simp [devmgrGetGeneration, devmgrGetdeviceRef, Desk.attach, here]

theorem attach_cases {desc : Option BlockDesc} (fresh : attachable w d desc = true) (d' : Int) :
    devmgrGetGeneration (w.attach d desc).cache d' = 0 ∨
      w.issued d' < devmgrGetGeneration (w.attach d desc).cache d' ∨
      devmgrGetGeneration (w.attach d desc).cache d' = devmgrGetGeneration w.cache d' := by
  rw [attach_generation]
  by_cases here : d' = d
  · subst here
    rw [if_pos rfl]
    by_cases valid : validHandle d' = true
    · rw [if_pos valid]
      cases desc with
      | none => exact .inl rfl
      | some desc =>
        simp only [attachable, Bool.or_eq_true, decide_eq_true_eq] at fresh
        rcases fresh with newer | same
        · exact .inr (.inl newer)
        obtain ⟨held, found, equal⟩ := (Option.any_eq_true _ _).mp same
        refine .inr (.inr ?_)
        simp only [devmgrGetGeneration, devmgrGetdeviceRef, valid, if_true]
        rw [found]
        exact (beq_iff_eq.mp equal).symm
    · rw [if_neg valid]
      exact .inl rfl
  · rw [if_neg here]
    exact .inr (.inr rfl)

theorem issued_mono (w : Desk) (d : Int) (desc : Option BlockDesc) (d' : Int) :
    w.issued d' ≤ (w.attach d desc).issued d' := by
  by_cases here : d' = d
  · subst here
    simp [Desk.attach]
  · simp [Desk.attach, here]

theorem deskInv_attach {desc : Option BlockDesc} (inv : DeskInv w)
    (fresh : attachable w d desc = true) : DeskInv (w.attach d desc) := by
  have old : ∀ d' pg i, Hits (w.attach d desc).cache d' pg i → Hits w.cache d' pg i := by
    intro d' pg i hit
    rw [hits_iff] at hit ⊢
    obtain ⟨current, device, page, nonzero, live⟩ := hit
    refine ⟨current, device, page, nonzero, ?_⟩
    rcases attach_cases fresh d' with gone | newer | same
    · exact absurd (live.trans gone) nonzero
    · have bound := inv.capped i current
      rw [show (w.cache.pcTab i).deviceid = d' from device] at bound
      have stated : (w.cache.pcTab i).deviceGeneration =
        devmgrGetGeneration (w.attach d desc).cache d' := live
      omega
    · exact live.trans same
  refine ⟨{ inv.book with uniq := ?_ }, fun j current => ?_, fun d' => ?_,
    fun r f pending => ?_, fun r snap flight => ?_, fun r snap gone => ?_⟩
  · intro d' pg i k hi hk
    exact inv.book.uniq d' pg i k (old d' pg i hi) (old d' pg k hk)
  · exact (inv.capped j current).trans (issued_mono w d desc _)
  · rw [attach_generation]
    by_cases here : d' = d
    · subst here
      rw [if_pos rfl]
      split
      · simp [Desk.attach]
      · exact Nat.zero_le _
    · rw [if_neg here]
      exact (inv.within d').trans (issued_mono w d desc d')
  · exact (inv.fills r f pending).trans (issued_mono w d desc _)
  · exact (inv.snaps r snap flight).trans (issued_mono w d desc _)
  · have before := inv.stale r snap gone
    have held : w.world.runs r = .stale snap := gone
    have bound := inv.snaps r snap (by rw [held]; rfl)
    simp only [snapLive, blkcacheDeviceKeyIsCurrent, Bool.and_eq_false_iff, bne_eq_false_iff_eq,
      beq_eq_false_iff_ne, ne_eq] at before ⊢
    rcases before with zero | differs
    · exact .inl zero
    rcases attach_cases fresh snap.dev with none | newer | same
    · rw [none]
      exact or_iff_not_imp_left.mpr id
    · exact .inr (by omega)
    · rw [same]
      exact .inr differs

theorem sound_act {w' : Desk} {a : Turn} (inv : DeskInv w) (taken : act w a = some w') :
    Sound w a w' := by
  cases a with
  | race a =>
    by_cases registers : ∃ d desc, a = .register d desc
    · obtain ⟨d, desc, rfl⟩ := registers
      cases taken
    have here : ∀ d desc, a ≠ .register d desc := fun d desc same => registers ⟨d, desc, same⟩
    have moved : (advance w.world a).map (fun v => ({ w with world := v } : Desk)) = some w' := by
      cases a with
      | register d desc => exact absurd rfl (here d desc)
      | _ => exact taken
    obtain ⟨v, advanced, rfl⟩ := Option.map_eq_some_iff.mp moved
    exact sound_race inv here advanced
  | attach d desc =>
    simp only [act] at taken
    split at taken
    · rename_i fresh
      cases taken
      exact ⟨deskInv_attach inv fresh, .attached rfl⟩
    · cases taken
  | get d sector n dst =>
    cases taken
    exact sound_served inv (served_get w.issued w.cache d sector n dst)
  | put d sector n src =>
    cases taken
    exact sound_served inv (served_put inv.within d sector n src)
  | copyOut d off n dst =>
    cases taken
    exact sound_served inv (served_copyOut w.issued w.cache d off n dst)
  | fetch r d lba run0 np =>
    simp only [act] at taken
    cases transfer : pcDevRead w.cache d lba with
    | none => simp [transfer] at taken
    | some result =>
      obtain ⟨bounce, generation⟩ := result
      simp only [transfer, Option.some.injEq] at taken
      subst taken
      refine ⟨{ inv with fills := fun r' f pending => ?_ },
        .served (.refl _ _)⟩
      by_cases here : r' = r
      · subst here
        simp only [Function.update_self, Option.some.injEq] at pending
        subst pending
        exact (pcDevRead_some transfer).2.1.trans_le (inv.within d)
      · exact inv.fills r' f (by simpa [Function.update_of_ne here] using pending)
  | install r =>
    simp only [act] at taken
    cases pending : w.fills r with
    | none => simp [pending] at taken
    | some f =>
      simp only [pending, Option.some.injEq] at taken
      subst taken
      have served := carried_installRun (.refl w.issued) .trans
        (served_install (inv.fills r f pending) f.run0 f.bounce) w.cache f.np
      have served' := inv.serve served.booked
      refine ⟨{ served' with fills := fun r' f' pending' => ?_ }, .served served⟩
      by_cases here : r' = r
      · subst here
        simp at pending'
      · exact inv.fills r' f' (by simpa [Function.update_of_ne here] using pending')
  | store d start total src =>
    cases taken
    exact sound_served inv (served_writeLoop inv.within d start total src 0)
  | direct d sector n src =>
    obtain ⟨t, transfer, rfl⟩ := Option.map_eq_some_iff.mp taken
    exact sound_served inv (served_devWrite transfer)

theorem deskInv_start {devlist : Int → Option BlockDesc} {media : Int → Nat → Nat → UInt8}
    (start : (desks devlist media).start w) : DeskInv w := by
  obtain ⟨empty, idle, unfilled, issued⟩ := start
  refine ⟨⟨?_, ?_, ?_⟩, ?_, fun d => ?_, fun r f pending => ?_, fun r snap flight => ?_,
    fun r snap gone => ?_⟩
  · rw [empty, Finset.card_eq_zero.mpr]
    · rfl
    · ext j
      simp [mem_dirtySlots, blkcacheInit]
  · intro j dirty
    simp [empty, blkcacheInit] at dirty
  · rw [empty]
    exact (inv_init devlist media).uniq
  · intro j current
    simp [empty, blkcacheInit] at current
  · rw [empty]
    simp only [devmgrGetGeneration, devmgrGetdeviceRef, blkcacheInit]
    split
    · rename_i desc found
      split at found
      · exact issued d desc found
      · cases found
    · exact Nat.zero_le _
  · simp [unfilled] at pending
  · simp [idle, Phase.inFlight] at flight
  · simp [idle] at gone

theorem deskInv_of_reachable {devlist : Int → Option BlockDesc} {media : Int → Nat → Nat → UInt8}
    (run : Reachable (desks devlist media) (fun _ _ => True) w) : DeskInv w := by
  apply run.invariant
  · intro w start
    exact deskInv_start start
  · intro w a w' inv _ taken
    exact (sound_act inv taken).1

/-- A dirty line whose device generation is the live one. -/
def LiveDirty (s : State) (j : Slot) : Prop :=
  (s.pcTab j).dirty = true ∧ blkcacheDeviceKeyIsCurrent (s.pcTab j).deviceGeneration
      (devmgrGetGeneration s (s.pcTab j).deviceid) = true

theorem flushStale_spares {s : State} {snap : Snap} {j : Slot} (dead : snapLive s snap = false)
    (live : LiveDirty s j) : (flushStale s snap).pcTab j = s.pcTab j := by
  dsimp only [flushStale]
  split
  · rename_i key
    simp only [Bool.and_eq_true, beq_iff_eq] at key
    have other : j ≠ snap.slot := by
      rintro rfl
      have current := live.2
      rw [key.2, key.1.1] at current
      rw [snapLive, current] at dead
      cases dead
    simp [other]
  · rfl

end Turns

/-- Over every interleaving, with devices coming and going: the dirty counter is right, dirty lines
are up to date, a lookup matches at most one, and a live dirty line stays until it is written back
or its device is invalidated. -/
theorem cache_books_kept {devlist : Int → Option BlockDesc} {media : Int → Nat → Nat → UInt8}
    {w : Desk} (run : Reachable (desks devlist media) (fun _ _ => True) w) :
    w.cache.pcDirty = (dirtySlots w.cache).card ∧
      (∀ j, (w.cache.pcTab j).dirty = true → (w.cache.pcTab j).uptodate = true) ∧
      (∀ d pg i j, Hits w.cache d pg i → Hits w.cache d pg j → i = j) ∧
      ∀ a w', act w a = some w' → ∀ j, LiveDirty w.cache j → ((w'.cache.pcTab j).dirty = true ∧
          keyOf (w'.cache.pcTab j) = keyOf (w.cache.pcTab j)) ∨
        (∃ r snap, a = .race (.complete r) ∧ w.world.runs r = .written snap ∧ snap.slot = j ∧
          w'.cache.pcTab j = { w.cache.pcTab j with dirty := false }) ∨
        a = .race (.call (.invalidateDevice (w.cache.pcTab j).deviceid)) := by
  have inv := deskInv_of_reachable run
  refine ⟨inv.book.counted, inv.book.tidy, inv.book.uniq, fun a w' taken j live => ?_⟩
  rcases (sound_act inv taken).2 with served | lines | ⟨r, snap, ready, moved⟩ |
    ⟨r, snap, turn, ready, moved⟩ | ⟨d, turn, moved⟩
  · exact .inl (served.held j live.1)
  · rw [lines]
    exact .inl ⟨live.1, rfl⟩
  · rw [moved, flushStale_spares (inv.stale r snap ready) live]
    exact .inl ⟨live.1, rfl⟩
  · have line := (flushComplete_spec w.cache snap).2.2.2 j
    rw [← moved] at line
    by_cases here : j = snap.slot ∧ completes w.cache snap = true
    · rw [if_pos here] at line
      exact .inr (.inl ⟨r, snap, turn, ready, here.1.symm, line⟩)
    · rw [if_neg here] at line
      rw [line]
      exact .inl ⟨live.1, rfl⟩
  · have line := (invalidate_eq w.cache d).1 j
    rw [← moved] at line
    by_cases mine : (w.cache.pcTab j).deviceid = d
    · subst mine
      exact .inr (.inr turn)
    · rw [line, FlushRace.invalidated, if_neg (by simpa using mine)]
      exact .inl ⟨live.1, rfl⟩

/-- One dirty page on a live disk. -/
theorem cache_books_kept_onePage : ∃ w,
    Reachable (desks oneDisk fun _ _ _ => 0) (fun _ _ => True) w ∧ LiveDirty w.cache slotZero ∧
      w.cache.pcDirty = (dirtySlots w.cache).card ∧ 0 < w.cache.pcDirty := by
  have absent : pcLookup emptyCache 0 0 = none := by
    rw [pcLookup_none]
    intro j hit
    simp [hits_iff, emptyCache, blkcacheInit] at hit
  obtain ⟨_, _, devlist, _, age, line⟩ := oneDisk_write emptyCache_inv.sizes rfl absent rfl rfl
    fun _ => 1
  let first : Desk := ⟨⟨emptyCache, fun _ => .idle⟩, fun _ => none, fun _ => 1⟩
  have begun : Reachable (desks oneDisk fun _ _ _ => 0) (fun _ _ => True) first := by
    refine .start ⟨rfl, fun _ => rfl, fun _ => rfl, fun d desc found => ?_⟩
    have only : desc.generation = 1 := by
      unfold oneDisk at found
      split at found
      · cases found
        rfl
      · cases found
    exact only.le
  have written := begun.step (a := .race (.call (.write 0 0 8 (fun _ => 1) fun _ => true))) trivial
    (t := first.serve ((Call.write 0 0 8 (fun _ => 1) fun _ => true).perform emptyCache))
    (by simp only [desks, act, advance, Option.map_some]; rfl)
  have books := cache_books_kept written
  have dirty : LiveDirty ((Call.write 0 0 8 (fun _ => 1) fun _ => true).perform emptyCache)
      slotZero := by
    refine ⟨by rw [line], ?_⟩
    simp only [line, devmgrGetGeneration, devmgrGetdeviceRef, devlist]
    rfl
  refine ⟨_, written, dirty, books.1, ?_⟩
  rw [books.1]
  exact Finset.card_pos.mpr ⟨slotZero, (mem_dirtySlots _ _).mpr dirty.1⟩

end IcsOs.BlkCache.Custody
