/- GID: IcsOs/BlkCache/FlushSound
   generality: I
   source: kernel/iomgr/blkcache.c
   digest: Completions of interleaved flush runs clear dirty flags only over landed bytes. -/

import IcsOs.BlkCache.FlushRace

set_option autoImplicit false

namespace IcsOs.BlkCache.FlushSound

open Function
open BlkCache.WritePath
open Lib.Runs BlkCache.PageCache BlkCache.Requests BlkCache.ReadPath BlkCache.Coherence
open BlkCache.Occupancy BlkCache.Contract BlkCache.FlushRace

variable {s : State}

section Invariant

/-- Where the completion test accepts a copy, the copy is the line. -/
def Current (s : State) (snap : Snap) : Prop :=
  completes s snap = true → (s.pcTab snap.slot).deviceGeneration = snap.deviceGeneration ∧
      (s.pcTab snap.slot).data = snap.copy

def Landed (s : State) (snap : Snap) : Prop :=
  ∀ o < pcSize, s.media snap.dev snap.deviceGeneration (snap.index * pcSize + o) = snap.copy o

/-- What a copy in flight says about its slot and its device. -/
structure RaceInv (w : World) : Prop where
  sizes : SizesOk w.cache
  copies : ∀ r snap, (w.runs r).inFlight = some snap → Current w.cache snap
  keyed : ∀ r snap, w.runs r = .checked snap → snap.deviceGeneration ≠ 0
  landed : ∀ r snap, w.runs r = .written snap → Landed w.cache snap

/-- No write brings a line back to the key and generation of a copy in flight, and nothing
overwrites a page on the device whose copy awaits its completion. -/
def NoReturn (w : World) : Step → Prop
  | .call (.write d sector n src malloc) => ∀ r snap, (w.runs r).inFlight = some snap →
      (completes (blkcacheWrite w.cache d sector n src malloc).2 snap = true →
        completes w.cache snap = true) ∧
      (w.runs r = .written snap → writeFallback w.cache d sector n src malloc ≠ none →
        snap.dev = d → (snap.index + 1) * pcSize ≤ sector * transferUnit w.cache d ∨
          sector * transferUnit w.cache d + n * transferUnit w.cache d ≤ snap.index * pcSize)
  | .transfer r => ∀ r' snap snap', r' ≠ r → w.runs r = .checked snap →
      w.runs r' = .written snap' → ¬(snap'.dev = snap.dev ∧ snap'.index = snap.index ∧
        snap'.deviceGeneration = snap.deviceGeneration)
  | _ => True

theorem completes_iff (s : State) (snap : Snap) :
    completes s snap = true ↔ (s.pcTab snap.slot).deviceid = snap.dev ∧
      (s.pcTab snap.slot).index = snap.index ∧
      (s.pcTab snap.slot).generation = snap.generation ∧ (s.pcTab snap.slot).dirty = true := by
  simp only [completes, blkcacheWritebackIsCurrent, Bool.and_eq_true, beq_iff_eq]
  tauto

theorem Current.of_kept {s t : State} {snap : Snap} (current : Current s snap)
    (kept : ∀ j, (t.pcTab j).dirty = true → ∃ age, t.pcTab j = { s.pcTab j with age := age }) :
    Current t snap := by
  intro done
  obtain ⟨age, line⟩ := kept snap.slot ((completes_iff t snap).mp done).2.2.2
  rw [line]
  refine current ?_
  rw [completes_iff] at done ⊢
  rw [line] at done
  exact done

theorem RaceInv.of_kept {w : World} {t : State} (inv : RaceInv w) (sizes : SizesOk t)
    (kept : ∀ j, (t.pcTab j).dirty = true → ∃ age, t.pcTab j = { w.cache.pcTab j with age := age })
    (media : t.media = w.cache.media) : RaceInv { w with cache := t } := by
  refine ⟨sizes, fun r snap flight => (inv.copies r snap flight).of_kept kept, inv.keyed,
    fun r snap written o high => ?_⟩
  rw [media]
  exact inv.landed r snap written o high

/-- Moving run `r` to a phase whose own copy is accounted for. -/
theorem RaceInv.goto {w : World} {t : State} (inv : RaceInv { w with cache := t }) (r : Nat)
    {phase : Phase} (copies : ∀ snap, phase.inFlight = some snap → Current t snap)
    (keyed : ∀ snap, phase = .checked snap → snap.deviceGeneration ≠ 0)
    (landed : ∀ snap, phase = .written snap → Landed t snap) : RaceInv (w.goto r t phase) := by
  have cases : ∀ {P : Phase → Prop} r', (update w.runs r phase r' = phase → P phase) →
      (update w.runs r phase r' = w.runs r' → P (w.runs r')) →
      P (update w.runs r phase r') := by
    intro P r' here there
    by_cases same : r' = r
    · subst same
      rw [update_self] at here ⊢
      exact here rfl
    · rw [update_of_ne same] at there ⊢
      exact there rfl
  refine ⟨inv.sizes, fun r' => ?_, fun r' => ?_, fun r' => ?_⟩
  · exact cases (P := fun p => ∀ snap, p.inFlight = some snap → Current t snap) r'
      (fun _ => copies) fun _ => inv.copies r'
  · exact cases (P := fun p => ∀ snap, p = .checked snap → snap.deviceGeneration ≠ 0) r'
      (fun _ => keyed) fun _ => inv.keyed r'
  · exact cases (P := fun p => ∀ snap, p = .written snap → Landed t snap) r'
      (fun _ => landed) fun _ => inv.landed r'

variable {w w' : World} {r : Nat}

theorem raceInv_write (inv : RaceInv w) {d : Int} {sector n : Nat} {src : Buf}
    {malloc : Nat → Bool} (guarded : NoReturn w (.call (.write d sector n src malloc))) :
    RaceInv { w with cache := (blkcacheWrite w.cache d sector n src malloc).2 } := by
  obtain ⟨sizes, _, slots, media⟩ := blkcacheWrite_slot inv.sizes d sector n src malloc
  refine ⟨sizes, fun r snap flight done => ?_, inv.keyed, fun r snap written o high => ?_⟩
  · have before := (guarded r snap flight).1 done
    obtain ⟨deviceGeneration, data⟩ := inv.copies r snap flight before
    rw [completes_iff] at before
    rcases slots snap.slot before.2.2.2 with ⟨age, line⟩ | ⟨_, _, _, moved⟩
    · rw [line]
      exact ⟨deviceGeneration, data⟩
    -- a line that was stored into has another page generation than its copy
    have now := ((completes_iff _ snap).mp done).2.2.1
    rw [before.2.2.1, now] at moved
    omega
  · have flight : (w.runs r).inFlight = some snap := by rw [written]; rfl
    rw [media, inv.landed r snap written o high]
    intro direct same
    rcases (guarded r snap flight).2 written direct same with below | above
    · rw [Nat.add_mul] at below
      exact .inl (by omega)
    · exact .inr (by omega)

theorem raceInv_invalidate (inv : RaceInv w) (d : Int) :
    RaceInv { w with cache := (blkcacheInvalidateDevice w.cache d).1 } := by
  obtain ⟨tab, devlist, media, sizes⟩ := invalidate_eq w.cache d
  refine inv.of_kept ⟨by rw [sizes]; exact inv.sizes.stamped, fun d' desc live => ?_⟩
    (fun j dirty => ?_) media
  · rw [sizes]
    exact inv.sizes.unit d' desc (by simpa only [devmgrGetdeviceRef, devlist] using live)
  rw [tab j] at dirty ⊢
  unfold invalidated at dirty ⊢
  split at dirty
  · cases dirty
  · rename_i other
    exact ⟨(w.cache.pcTab j).age, by rw [if_neg other]⟩

theorem sizesOk_register (sizes : SizesOk s) {d : Int} {desc : Option BlockDesc}
    (fresh : freshDesc s d desc = true) :
    SizesOk { s with devlist := update s.devlist d desc } := by
  refine ⟨sizes.stamped, fun d' found live used same => ?_⟩
  change s.sizes.generation d' = found.generation at same
  by_cases here : d' = d
  · subst here
    have registered : desc = some found := by
      simp only [devmgrGetdeviceRef, update_self] at live
      split at live
      · exact live
      · cases live
    rw [registered] at fresh
    simp [freshDesc, same] at fresh
  · exact sizes.unit d' found
      (by simpa only [devmgrGetdeviceRef, update_of_ne here] using live) used same

theorem flushTransfer_done {t : State} {snap : Snap} (sizes : SizesOk s)
    (keyed : snap.deviceGeneration ≠ 0) (transfer : flushTransfer s snap = (true, t)) :
    t.devlist = s.devlist ∧ t.pcTab = s.pcTab ∧ SizesOk t ∧ ∀ d g b, t.media d g b =
      if d = snap.dev ∧ g = snap.deviceGeneration then
        memcpy (s.media snap.dev snap.deviceGeneration) (snap.index * pcSize) snap.copy 0 pcSize b
      else s.media d g b := by
  have same := sameLines_bsize s snap.dev
  have whole : pcSize / transferUnit s snap.dev * transferUnit s snap.dev = pcSize :=
    blockUnit_page _
  simp only [flushTransfer, pcBsize_unit sizes] at transfer
  split at transfer
  · simp at transfer
  rename_i u written
  simp only [Prod.mk.injEq, true_and] at transfer
  subst transfer
  obtain ⟨tab, _, devlist, _, _, _, live, media⟩ := pcDevWrite_some written
  refine ⟨devlist.trans same.devlist, tab.trans (pcBsize_tab s _),
    sizesOk_devWrite (same.sizes sizes) written, fun d g b => ?_⟩
  rw [media, ← live keyed, same.unit, Nat.mul_assoc, whole, same.media]
  by_cases here : d = snap.dev ∧ g = snap.deviceGeneration
  · rw [if_pos here, if_pos here, here.2]
  · rw [if_neg here, if_neg here]

section

variable (inv : RaceInv w)
include inv

theorem raceInv_transfer {snap : Snap} (ready : w.runs r = .checked snap)
    (guarded : NoReturn w (.transfer r)) :
    RaceInv (w.goto r (flushTransfer w.cache snap).2
      (if (flushTransfer w.cache snap).1 then .written snap else .idle)) := by
  have flight : (w.runs r).inFlight = some snap := by rw [ready]; rfl
  rcases transfer : flushTransfer w.cache snap with ⟨ok, t⟩
  cases ok with
  | false =>
    obtain ⟨same, tab⟩ := flushTransfer_failed transfer
    have inv' := inv.of_kept (same.sizes inv.sizes)
      (fun j _ => ⟨(w.cache.pcTab j).age, by rw [tab]⟩) same.media
    exact inv'.goto r (by simp [Phase.inFlight]) (by simp) (by simp)
  | true =>
    obtain ⟨same, tab, sizes, media⟩ := flushTransfer_done inv.sizes (inv.keyed r snap ready)
      transfer
    have current : ∀ r' copy, (w.runs r').inFlight = some copy → Current t copy :=
      fun r' copy held => (inv.copies r' copy held).of_kept
        fun j _ => ⟨(w.cache.pcTab j).age, by rw [tab]⟩
    have landed : Landed t snap := by
      intro o high
      rw [media, if_pos ⟨rfl, rfl⟩, memcpy_inside (by omega) (by omega)]
      congr 1
      omega
    -- the guard keeps the page of every other transferred copy out of this transfer
    refine ⟨sizes, fun r' copy held => ?_, fun r' copy checked => ?_, fun r' copy written => ?_⟩
    · by_cases here : r' = r
      · subst here
        simp only [World.goto, if_true, update_self, Phase.inFlight, Option.some.injEq] at held
        subst held
        exact current r' snap flight
      · simp only [World.goto, update_of_ne here] at held
        exact current r' copy held
    · by_cases here : r' = r
      · subst here
        simp [World.goto] at checked
      · simp only [World.goto, update_of_ne here] at checked
        exact inv.keyed r' copy checked
    · by_cases here : r' = r
      · subst here
        simp only [World.goto, if_true, update_self, Phase.written.injEq] at written
        subst written
        exact landed
      · simp only [World.goto, update_of_ne here] at written
        intro o high
        have apart := guarded r' snap copy here ready written
        have before := inv.landed r' copy written o high
        change t.media _ _ _ = _
        rw [media]
        split
        · rename_i same
          rw [← same.1, ← same.2, memcpy_outside, before]
          by_contra overlap
          refine apart ⟨same.1, ?_, same.2⟩
          have low : snap.index < copy.index + 1 := Nat.lt_of_mul_lt_mul_right
            (a := pcSize) (by rw [Nat.add_mul]; omega)
          have high : copy.index < snap.index + 1 := Nat.lt_of_mul_lt_mul_right
            (a := pcSize) (by rw [Nat.add_mul]; omega)
          omega
        · exact before

theorem raceInv_call {c : Call} (guarded : NoReturn w (.call c)) (request : c ≠ .flush) :
    RaceInv { w with cache := c.perform w.cache } := by
  cases c with
  | read d sector n dst malloc =>
    have move := blkcacheRead_move inv.sizes d sector n dst malloc
    exact inv.of_kept (move.sizes inv.sizes)
      (fun j dirty => slotKept_read w.cache d sector n dst malloc j (.inr dirty)) move.media
  | write d sector n src malloc => exact raceInv_write inv guarded
  | flush => exact absurd rfl request
  | invalidateDevice d =>
    rw [Call.perform]
    exact raceInv_invalidate inv d

theorem raceInv_snapshot (taken : advance w (.snapshot r) = some w') : RaceInv w' := by
  simp only [advance] at taken
  split at taken
  · split at taken
    · split at taken
      · cases taken
        exact RaceInv.goto inv r (by simp [Phase.inFlight]) (by simp) (by simp)
      rename_i snap copied
      cases taken
      refine RaceInv.goto inv r (fun held same => ?_) (by simp) (by simp)
      cases same
      obtain ⟨_, rfl⟩ := flushSnapshot_some copied
      exact fun _ => ⟨rfl, rfl⟩
    · cases taken
      exact RaceInv.goto inv r (by simp [Phase.inFlight]) (by simp) (by simp)
  · cases taken

theorem raceInv_check (taken : advance w (.check r) = some w') : RaceInv w' := by
  simp only [advance] at taken
  split at taken
  · rename_i snap ready
    cases taken
    have same := sameLines_remember w.cache snap.dev
    have inv' := inv.of_kept (same.sizes inv.sizes)
      (fun j _ => ⟨(w.cache.pcTab j).age, rfl⟩) same.media
    have current := inv'.copies r snap (by rw [ready]; rfl)
    refine inv'.goto r (fun held flight => ?_) (fun held checked => ?_) (fun held => ?_)
    · split at flight <;>
      · cases flight
        exact current
    · split at checked
      · rename_i live
        cases checked
        simp only [snapLive, blkcacheDeviceKeyIsCurrent, Bool.and_eq_true, bne_iff_ne] at live
        exact live.1
      · cases checked
    · split <;> simp
  · cases taken

theorem raceInv_drop (taken : advance w (.drop r) = some w') : RaceInv w' := by
  simp only [advance] at taken
  split at taken
  · rename_i snap _
    cases taken
    have inv' : RaceInv { w with cache := flushStale w.cache snap } := by
      dsimp only [flushStale]
      split
      · refine inv.of_kept ⟨inv.sizes.stamped, inv.sizes.unit⟩ (fun j dirty => ?_) rfl
        by_cases here : j = snap.slot
        · subst here
          simp at dirty
        · exact ⟨(w.cache.pcTab j).age, by simp [update_of_ne here]⟩
      · exact inv
    exact inv'.goto r (by simp [Phase.inFlight]) (by simp) (by simp)
  · cases taken

end

theorem flushComplete_spec (s : State) (snap : Snap) :
    (flushComplete s snap).media = s.media ∧ (flushComplete s snap).sizes = s.sizes ∧
      (flushComplete s snap).devlist = s.devlist ∧
      ∀ j, (flushComplete s snap).pcTab j =
        if j = snap.slot ∧ completes s snap = true then { s.pcTab j with dirty := false }
        else s.pcTab j := by
  unfold flushComplete
  by_cases done : completes s snap = true
  · rw [if_pos done]
    refine ⟨rfl, rfl, rfl, fun j => ?_⟩
    by_cases here : j = snap.slot
    · subst here
      simp [done]
    · simp [here]
  · rw [if_neg done]
    exact ⟨rfl, rfl, rfl, fun j => by simp [done]⟩

theorem complete_cases (taken : advance w (.complete r) = some w') :
    ∃ snap, w.runs r = .written snap ∧
      w' = w.goto r (flushComplete w.cache snap) (.scanning (snap.slot + 1)) := by
  simp only [advance] at taken
  split at taken
  · rename_i snap ready
    cases taken
    exact ⟨snap, ready, rfl⟩
  · cases taken

theorem raceInv_complete (inv : RaceInv w) (taken : advance w (.complete r) = some w') :
    RaceInv w' := by
  obtain ⟨snap, _, rfl⟩ := complete_cases taken
  obtain ⟨media, sizes, devlist, tab⟩ := flushComplete_spec w.cache snap
  have sizes' : SizesOk (flushComplete w.cache snap) := by
    refine ⟨by rw [sizes]; exact inv.sizes.stamped, fun d desc live => ?_⟩
    rw [sizes]
    exact inv.sizes.unit d desc (by simpa only [devmgrGetdeviceRef, devlist] using live)
  have inv' := inv.of_kept sizes' (fun j dirty => by
    rw [tab j] at dirty ⊢
    split at dirty
    · cases dirty
    · rename_i other
      exact ⟨(w.cache.pcTab j).age, by rw [if_neg other]⟩) media
  exact inv'.goto r (by simp [Phase.inFlight]) (by simp) (by simp)

theorem raceInv_step {a : Step} (inv : RaceInv w) (guarded : NoReturn w a)
    (taken : advance w a = some w') : RaceInv w' := by
  cases a with
  | call c =>
    have request : c ≠ .flush := by
      rintro rfl
      cases taken
    have moved : w' = { w with cache := c.perform w.cache } := by
      cases c with
      | flush => exact absurd rfl request
      | read d sector n dst malloc => exact (Option.some.inj taken).symm
      | write d sector n src malloc => exact (Option.some.inj taken).symm
      | invalidateDevice d => exact (Option.some.inj taken).symm
    rw [moved]
    exact raceInv_call inv guarded request
  | register d desc =>
    simp only [advance] at taken
    split at taken
    · rename_i fresh
      cases taken
      exact inv.of_kept (sizesOk_register inv.sizes fresh)
        (fun j _ => ⟨(w.cache.pcTab j).age, rfl⟩) rfl
    · cases taken
  | start r =>
    simp only [advance] at taken
    split at taken
    · cases taken
      exact RaceInv.goto inv r (by simp [Phase.inFlight]) (by simp) (by simp)
    · cases taken
  | snapshot r => exact raceInv_snapshot inv taken
  | check r => exact raceInv_check inv taken
  | drop r => exact raceInv_drop inv taken
  | transfer r =>
    simp only [advance] at taken
    split at taken
    · rename_i snap ready
      cases taken
      exact raceInv_transfer inv ready guarded
    · cases taken
  | complete r => exact raceInv_complete inv taken

theorem raceInv_of_reachable {devlist : Int → Option BlockDesc} {media : Int → Nat → Nat → UInt8}
    (run : Reachable (race devlist media) NoReturn w) : RaceInv w := by
  refine run.invariant ?_ ?_
  · rintro w ⟨empty, idle⟩
    refine ⟨by rw [empty]; exact (inv_init devlist media).sizes, fun r snap flight => ?_,
      fun r snap checked => ?_, fun r snap written => ?_⟩
    · simp [idle, Phase.inFlight] at flight
    · simp [idle] at checked
    · simp [idle] at written
  · intro w a w' inv guarded taken
    exact raceInv_step inv guarded taken

end Invariant

def slotZero : Slot := ⟨0, by decide⟩

theorem oneDisk_write (sizes : SizesOk s) (devlist : s.devlist = oneDisk)
    (absent : pcLookup s 0 0 = none) (empty : (s.pcTab slotZero).uptodate = false)
    (undirty : (s.pcTab slotZero).dirty = false) (src : Buf) :
    writeFallback s 0 0 8 src (fun _ => true) = none ∧
      SizesOk ((Call.write 0 0 8 src fun _ => true).perform s) ∧
      ((Call.write 0 0 8 src fun _ => true).perform s).devlist = oneDisk ∧
      ((Call.write 0 0 8 src fun _ => true).perform s).media = s.media ∧
      ∃ age, ((Call.write 0 0 8 src fun _ => true).perform s).pcTab slotZero =
        ⟨0, 0, age, 1, 1, true, true, memcpy (s.pcTab slotZero).data 0 src 0 pcSize⟩ := by
  have unit := oneDisk_unit devlist
  have probe : firstProbe 0 0 = slotZero := by decide
  have live : devmgrGetGeneration s 0 = 1 := by
    simp only [devmgrGetGeneration, devmgrGetdeviceRef, devlist]
    rfl
  have opened := sameLines_open s 0
  obtain ⟨age, line⟩ := opened.line slotZero
  have absent' : pcLookup (openRange s 0).2 0 0 = none := by
    rw [opened.lookup]
    exact absent
  have claimed := pcClaim_first absent' (by rw [probe, line]; exact empty)
    (by rw [probe, line]; exact undirty)
  obtain ⟨absorbed, _, landed⟩ := write_claimed sizes src (fun _ => true)
    (show 0 * transferUnit s 0 = 0 * pcSize by rw [unit]; rfl)
    (show 8 * transferUnit s 0 = pcSize by rw [unit]; rfl) absent claimed
  obtain ⟨sizes', devlist', _, media⟩ := blkcacheWrite_slot sizes 0 0 8 src fun _ => true
  rw [live] at landed
  refine ⟨absorbed, sizes', devlist'.trans devlist, ?_, landed⟩
  funext d g b
  exact media d g b fun direct => absurd absorbed direct

/-- A page of ones written, copied and transferred by run 0. -/
theorem schedule_written : ∃ s copy age,
    Reachable (race oneDisk fun _ _ _ => 0) NoReturn
      (World.goto ⟨s, fun _ => .idle⟩ 0 s (.written ⟨slotZero, 0, 0, 1, 1, copy⟩)) ∧
      s.pcTab slotZero = ⟨0, 0, age, 1, 1, true, true, copy⟩ ∧ (∀ o < pcSize, copy o = 1) ∧
      SizesOk s ∧ s.devlist = oneDisk := by
  have absent : pcLookup emptyCache 0 0 = none := by
    rw [pcLookup_none]
    intro j hit
    simp [hits_iff, emptyCache, blkcacheInit] at hit
  obtain ⟨_, sizes, devlist, _, age, line⟩ := oneDisk_write emptyCache_inv.sizes rfl absent rfl rfl
    fun _ => 1
  generalize written : (Call.write 0 0 8 (fun _ => 1) fun _ => true).perform emptyCache = s1
    at sizes devlist line
  generalize copied : memcpy (emptyCache.pcTab slotZero).data 0 (fun _ => 1) 0 pcSize = copy at line
  have ones : ∀ o < pcSize, copy o = 1 := by
    intro o high
    rw [← copied, memcpy_inside (Nat.zero_le o) (by omega)]
  have first : Reachable (race oneDisk fun _ _ _ => 0) NoReturn ⟨s1, fun _ => .idle⟩ := by
    refine .step (.start (s := ⟨emptyCache, fun _ => .idle⟩) ⟨rfl, fun _ => rfl⟩)
      (a := .call (.write 0 0 8 (fun _ => 1) fun _ => true)) (fun r snap flight => ?_) ?_
    · simp [Phase.inFlight] at flight
    · simp only [race, advance, written]
  have started := first.step (a := Step.start 0)
    (t := World.goto ⟨s1, fun _ => .idle⟩ 0 s1 (.scanning 0)) trivial (by simp [race, advance])
  have snapshot : flushSnapshot s1 ⟨0, by decide⟩ = some ⟨slotZero, 0, 0, 1, 1, copy⟩ := by
    have here : s1.pcTab ⟨0, by decide⟩ = ⟨0, 0, age, 1, 1, true, true, copy⟩ := line
    simp only [flushSnapshot, here, Bool.and_self, if_true]
    rfl
  have snapped := started.step (a := Step.snapshot 0)
    (t := World.goto ⟨s1, fun _ => .idle⟩ 0 s1 (.snapped ⟨slotZero, 0, 0, 1, 1, copy⟩)) trivial (by
      have inside : 0 < pcNPages := by decide
      simp only [race, advance, goto_runs, inside, dif_pos, goto_cache, snapshot, goto_goto])
  have same := sameLines_remember s1 0
  have live : devmgrGetGeneration (pcRememberBsize s1 0) 0 = 1 := by
    simp only [devmgrGetGeneration, devmgrGetdeviceRef, same.devlist, devlist]
    rfl
  have checked := snapped.step (a := Step.check 0)
    (t := World.goto ⟨s1, fun _ => .idle⟩ 0 (pcRememberBsize s1 0)
      (.checked ⟨slotZero, 0, 0, 1, 1, copy⟩)) trivial (by
      simp only [race, advance, goto_runs, goto_cache, goto_goto, snapLive,
        blkcacheDeviceKeyIsCurrent, live]
      rfl)
  have sized := sameLines_bsize (pcRememberBsize s1 0) 0
  obtain ⟨s2, transfer⟩ : ∃ s2, flushTransfer (pcRememberBsize s1 0) ⟨slotZero, 0, 0, 1, 1, copy⟩ =
      (true, s2) := by
    have opened : pcDevOpen (pcBsize (pcRememberBsize s1 0) 0).2 0 1 =
        some ⟨1, none, true, true, true⟩ := by
      simp only [pcDevOpen, devmgrGetdeviceRef, sized.devlist, same.devlist, devlist]
      rfl
    simp only [flushTransfer, pcDevWrite, opened]
    exact ⟨_, rfl⟩
  have transferred := checked.step (a := Step.transfer 0)
    (t := World.goto ⟨s1, fun _ => .idle⟩ 0 s2 (.written ⟨slotZero, 0, 0, 1, 1, copy⟩)) (by
      intro r' snap snap' other _ written'
      simp [World.goto, update_of_ne other] at written') (by
      simp only [race, advance, goto_runs, goto_cache, goto_goto, transfer, if_true])
  obtain ⟨devlist', tab, sizes', _⟩ :=
    flushTransfer_done (same.sizes sizes) Nat.one_ne_zero transfer
  refine ⟨s2, copy, age, transferred, ?_, ones, sizes', devlist'.trans (same.devlist.trans devlist)⟩
  rw [tab]
  exact line

theorem complete_taken (w : World) (r : Nat) (s : State) (snap : Snap) :
    advance (w.goto r s (.written snap)) (.complete r) =
      some (w.goto r (flushComplete s snap) (.scanning (snap.slot + 1))) := by
  simp only [advance, goto_runs, goto_cache, goto_goto]

theorem complete_slotZero {age : Nat} {data : Buf} (copy : Buf)
    (line : s.pcTab slotZero = ⟨0, 0, age, 1, 1, true, true, data⟩) :
    (flushComplete s ⟨slotZero, 0, 0, 1, 1, copy⟩).media = s.media ∧
      (flushComplete s ⟨slotZero, 0, 0, 1, 1, copy⟩).pcTab slotZero =
        ⟨0, 0, age, 1, 1, true, false, data⟩ := by
  have done : completes s ⟨slotZero, 0, 0, 1, 1, copy⟩ = true := by
    rw [completes_iff, line]
    exact ⟨rfl, rfl, rfl, rfl⟩
  obtain ⟨media, _, _, tab⟩ := flushComplete_spec s ⟨slotZero, 0, 0, 1, 1, copy⟩
  refine ⟨media, ?_⟩
  rw [tab, if_pos ⟨rfl, done⟩, line]

/-- Where steps meet `NoReturn`, a completion that clears a flag finds the line's bytes on its
device. -/
theorem completion_holds_bytes {devlist : Int → Option BlockDesc}
    {media : Int → Nat → Nat → UInt8} {w w' : World} {r : Nat} {j : Slot}
    (run : Reachable (race devlist media) NoReturn w)
    (taken : advance w (.complete r) = some w') (before : (w.cache.pcTab j).dirty = true)
    (after : (w'.cache.pcTab j).dirty = false) :
    ∀ o < pcSize, w'.cache.media (w'.cache.pcTab j).deviceid (w'.cache.pcTab j).deviceGeneration
      ((w'.cache.pcTab j).index * pcSize + o) = (w'.cache.pcTab j).data o := by
  have inv := raceInv_of_reachable run
  obtain ⟨snap, ready, rfl⟩ := complete_cases taken
  obtain ⟨media, _, _, tab⟩ := flushComplete_spec w.cache snap
  change ((flushComplete w.cache snap).pcTab j).dirty = false at after
  rw [tab j] at after
  split at after
  · rename_i cleared
    obtain ⟨rfl, done⟩ := cleared
    obtain ⟨generation, data⟩ := inv.copies r snap (by rw [ready]; rfl) done
    obtain ⟨device, index, _, _⟩ := (completes_iff _ _).mp done
    intro o high
    change (flushComplete w.cache snap).media ((flushComplete w.cache snap).pcTab _).deviceid
      ((flushComplete w.cache snap).pcTab _).deviceGeneration
      (((flushComplete w.cache snap).pcTab _).index * pcSize + o) =
      ((flushComplete w.cache snap).pcTab _).data o
    rw [tab, if_pos ⟨rfl, done⟩, media, device, index, generation, data]
    exact inv.landed r snap ready o high
  · rw [before] at after
    cases after

/-- A flush of one written page. -/
theorem completion_holds_bytes_onePage : ∃ w w',
    Reachable (race oneDisk fun _ _ _ => 0) NoReturn w ∧ advance w (.complete 0) = some w' ∧
      (w.cache.pcTab slotZero).dirty = true ∧ (w'.cache.pcTab slotZero).dirty = false ∧
      ∀ o < pcSize, w'.cache.media 0 1 o = 1 := by
  obtain ⟨s, copy, age, run, line, ones, _, _⟩ := schedule_written
  have cleared := (complete_slotZero copy line).2
  have taken := complete_taken ⟨s, fun _ => .idle⟩ 0 s ⟨slotZero, 0, 0, 1, 1, copy⟩
  refine ⟨_, _, run, taken, by simp [line], by simp [cleared], fun o high => ?_⟩
  have landed := completion_holds_bytes run taken (j := slotZero) (by simp [line])
    (by simp [cleared]) o high
  simp only [goto_cache, cleared, Nat.zero_mul, Nat.zero_add] at landed
  rw [goto_cache, landed]
  exact ones o high

theorem oneDisk_invalidate {age : Nat} {copy : Buf} (sizes : SizesOk s)
    (line : s.pcTab slotZero = ⟨0, 0, age, 1, 1, true, true, copy⟩) :
    SizesOk ((Call.invalidateDevice 0).perform s) ∧
      ((Call.invalidateDevice 0).perform s).devlist = s.devlist ∧
      ((Call.invalidateDevice 0).perform s).media = s.media ∧
      pcLookup ((Call.invalidateDevice 0).perform s) 0 0 = none ∧
      (((Call.invalidateDevice 0).perform s).pcTab slotZero).uptodate = false ∧
      (((Call.invalidateDevice 0).perform s).pcTab slotZero).dirty = false := by
  obtain ⟨tab, devlist, media, sized⟩ := invalidate_eq s 0
  rw [← perform_invalidate] at tab devlist media sized
  generalize (Call.invalidateDevice 0).perform s = t at tab devlist media sized ⊢
  have empty : t.pcTab slotZero = ⟨-1, 0, age, 1, 1, false, false, copy⟩ := by
    rw [tab, line]
    rfl
  refine ⟨⟨by rw [sized]; exact sizes.stamped, fun d desc live => ?_⟩, devlist, media, ?_,
    by rw [empty], by rw [empty]⟩
  · rw [sized]
    exact sizes.unit d desc (by simpa only [devmgrGetdeviceRef, devlist] using live)
  rw [pcLookup_none]
  intro j hit
  rw [hits_iff, tab j] at hit
  unfold invalidated at hit
  split at hit
  · simp at hit
  · rename_i other
    simp [hit.2.1] at other

/-- The page of `schedule_written` invalidated and rewritten with twos. -/
theorem schedule_rewritten : ∃ s copy age data,
    Reachable (race oneDisk fun _ _ _ => 0) (fun _ _ => True)
      (World.goto ⟨s, fun _ => .idle⟩ 0 s (.written ⟨slotZero, 0, 0, 1, 1, copy⟩)) ∧
      s.pcTab slotZero = ⟨0, 0, age, 1, 1, true, true, data⟩ ∧
      ∀ o < pcSize, s.media 0 1 o = 1 ∧ data o = 2 := by
  obtain ⟨s, copy, age, run, line, ones, sizes, devlist⟩ := schedule_written
  have landed := (raceInv_of_reachable run).landed 0 ⟨slotZero, 0, 0, 1, 1, copy⟩
    (goto_runs _ _ _ _)
  have run : Reachable (race oneDisk fun _ _ _ => 0) (fun _ _ => True) _ :=
    run.mono fun _ _ _ => trivial
  obtain ⟨sizes', devlist', media, absent, empty, undirty⟩ := oneDisk_invalidate sizes line
  have dropped := run.step (a := Step.call (.invalidateDevice 0))
    (t := World.goto ⟨s, fun _ => .idle⟩ 0 ((Call.invalidateDevice 0).perform s)
      (.written ⟨slotZero, 0, 0, 1, 1, copy⟩)) trivial (by
      simp only [race, advance, World.goto])
  obtain ⟨_, _, _, media', age', line'⟩ := oneDisk_write sizes' (devlist'.trans devlist) absent
    empty undirty fun _ => 2
  refine ⟨_, copy, age', _, dropped.step
    (a := Step.call (.write 0 0 8 (fun _ => 2) fun _ => true)) trivial ?_, line', fun o high => ?_⟩
  · simp only [race, advance, World.goto]
  rw [memcpy_inside (Nat.zero_le o) (by omega), media', media]
  have held := landed o high
  simp only [goto_cache, Nat.zero_mul, Nat.zero_add] at held
  exact ⟨held.trans (ones o high), rfl⟩

/-- Invalidated and rewritten before the completion, the line is at generation one again. -/
theorem completion_loses_rewrite : ∃ w w',
    Reachable (race oneDisk fun _ _ _ => 0) (fun _ _ => True) w ∧
      advance w (.complete 0) = some w' ∧ (w.cache.pcTab slotZero).dirty = true ∧
      (w'.cache.pcTab slotZero).dirty = false ∧
      (w'.cache.pcTab slotZero).deviceid = 0 ∧ (w'.cache.pcTab slotZero).deviceGeneration = 1 ∧
      (w'.cache.pcTab slotZero).index = 0 ∧
      ∀ o < pcSize, w'.cache.media 0 1 o = 1 ∧ (w'.cache.pcTab slotZero).data o = 2 := by
  obtain ⟨s, copy, age, data, run, line, bytes⟩ := schedule_rewritten
  obtain ⟨media, cleared⟩ := complete_slotZero copy line
  refine ⟨_, _, run, complete_taken _ _ _ _, ?_⟩
  simp only [goto_cache, cleared, line, media, true_and]
  exact bytes

end IcsOs.BlkCache.FlushSound
