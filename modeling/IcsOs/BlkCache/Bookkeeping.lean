/- GID: IcsOs/BlkCache/Bookkeeping
   generality: I
   source: kernel/iomgr/blkcache.c
   digest: What each locked section of the cache does to the dirty counter, the flags and the keys.
   -/

import IcsOs.BlkCache.FlushSound

set_option autoImplicit false

namespace IcsOs.BlkCache.Bookkeeping

open Function Finset
open BlkCache.WritePath BlkCache.Coherence BlkCache.Contract
open Lib.Runs BlkCache.PageCache BlkCache.Requests BlkCache.ReadPath BlkCache.Occupancy
open BlkCache.FlushRace BlkCache.FlushSound

variable {p : PcPage} {s t : State}

section

/-- The slots whose line is flagged `PC_DIRTY`. -/
def dirtySlots (s : State) : Finset Slot :=
  Finset.univ.filter fun j => (s.pcTab j).dirty = true

theorem mem_dirtySlots (s : State) (j : Slot) :
    j ∈ dirtySlots s ↔ (s.pcTab j).dirty = true := by
  simp [dirtySlots]

theorem dirtySlots_card_lt (s : State) : (dirtySlots s).card < 2 ^ 32 := by
  have all : (dirtySlots s).card ≤ pcNPages := by simpa using card_le_univ (dirtySlots s)
  have small : pcNPages < 2 ^ 32 := by decide
  exact lt_of_le_of_lt all small

variable {j : Slot}

theorem dirtySlots_insert (tab : t.pcTab = update s.pcTab j p) (set : p.dirty = true) :
    dirtySlots t = insert j (dirtySlots s) := by
  ext i
  rw [mem_insert, mem_dirtySlots, mem_dirtySlots, tab]
  by_cases here : i = j
  · subst here
    simp [set]
  · simp [here]

theorem dirtySlots_erase (tab : t.pcTab = update s.pcTab j p) (clear : p.dirty = false) :
    dirtySlots t = (dirtySlots s).erase j := by
  ext i
  rw [mem_erase, mem_dirtySlots, mem_dirtySlots, tab]
  by_cases here : i = j
  · subst here
    simp [clear]
  · simp [here]

/-- The counter is right, dirty lines are up to date, and no key is answered twice. -/
structure Book (s : State) : Prop where
  counted : s.pcDirty = (dirtySlots s).card
  tidy : Tidy s
  uniq : Uniq s

/-- The counter after one line lost its dirty flag, if it had it. -/
theorem counted_erase (book : Book s) (tab : t.pcTab = update s.pcTab j p)
    (clear : p.dirty = false)
    (count : t.pcDirty = if (s.pcTab j).dirty then s.pcDirty - 1 else s.pcDirty) :
    t.pcDirty = (dirtySlots t).card := by
  rw [dirtySlots_erase tab clear, count]
  by_cases had : (s.pcTab j).dirty = true
  · rw [if_pos had, book.counted, card_erase_of_mem ((mem_dirtySlots s j).mpr had)]
  · rw [if_neg had, book.counted, erase_eq_of_notMem]
    rw [mem_dirtySlots]
    exact had

theorem tidy_update (tidy : Tidy s) (tab : t.pcTab = update s.pcTab j p)
    (flags : p.dirty = true → p.uptodate = true) : Tidy t := by
  intro i
  rw [tab]
  by_cases here : i = j
  · subst here
    simpa using flags
  · simpa [here] using tidy i

def keyOf (p : PcPage) : Int × Nat × Nat := (p.deviceid, p.index, p.deviceGeneration)

/-- Lines with the same key and flags. -/
structure Alike (p q : PcPage) : Prop where
  key : keyOf q = keyOf p
  uptodate : q.uptodate = p.uptodate
  dirty : q.dirty = p.dirty

/-- No line carries a device generation above `cap`. -/
def Capped (cap : Int → Nat) (s : State) : Prop :=
  ∀ j, (s.pcTab j).uptodate = true → (s.pcTab j).deviceGeneration ≤ cap (s.pcTab j).deviceid

/-- What a locked section that neither completes a write-back nor drops lines may do. -/
structure Served (cap : Int → Nat) (s t : State) : Prop where
  devlist : t.devlist = s.devlist
  held : ∀ j, (s.pcTab j).dirty = true →
    (t.pcTab j).dirty = true ∧ keyOf (t.pcTab j) = keyOf (s.pcTab j)
  book : Book s → Book t
  capped : Capped cap s → Capped cap t

variable {cap : Int → Nat} {s t u : State} {d : Int} {p : PcPage}

theorem Served.refl (cap : Int → Nat) (s : State) : Served cap s s :=
  ⟨rfl, fun _ dirty => ⟨dirty, rfl⟩, id, id⟩

theorem Served.trans (first : Served cap s t) (second : Served cap t u) : Served cap s u := by
  refine ⟨second.devlist.trans first.devlist, fun j dirty => ?_, second.book ∘ first.book,
    second.capped ∘ first.capped⟩
  obtain ⟨still, key⟩ := first.held j dirty
  obtain ⟨after, key'⟩ := second.held j still
  exact ⟨after, key'.trans key⟩

theorem Served.generation (served : Served cap s t) (d : Int) :
    devmgrGetGeneration t d = devmgrGetGeneration s d := by
  simp only [devmgrGetGeneration, devmgrGetdeviceRef, served.devlist]

theorem hits_alike (alike : Alike (s.pcTab j) (t.pcTab j)) (devlist : t.devlist = s.devlist)
    (d : Int) (pg : Nat) : Hits t d pg j ↔ Hits s d pg j := by
  obtain ⟨key, uptodate, _⟩ := alike
  simp only [keyOf, Prod.mk.injEq] at key
  simp only [hits_iff, key.1, key.2.1, key.2.2, uptodate, devmgrGetGeneration, devmgrGetdeviceRef,
    devlist]

theorem uniq_alike (uniq : Uniq s) (alike : ∀ j, Alike (s.pcTab j) (t.pcTab j))
    (devlist : t.devlist = s.devlist) : Uniq t := by
  intro d pg i j hi hj
  exact uniq d pg i j ((hits_alike (alike i) devlist d pg).mp hi)
    ((hits_alike (alike j) devlist d pg).mp hj)

theorem served_alike (alike : ∀ j, Alike (s.pcTab j) (t.pcTab j)) (count : t.pcDirty = s.pcDirty)
    (devlist : t.devlist = s.devlist) : Served cap s t := by
  refine ⟨devlist, fun j dirty => ⟨(alike j).dirty.trans dirty, (alike j).key⟩, fun book => ?_,
    fun capped j current => ?_⟩
  · have same : dirtySlots t = dirtySlots s := by
      ext j
      rw [mem_dirtySlots, mem_dirtySlots, (alike j).dirty]
    refine ⟨?_, fun j dirty => ?_, uniq_alike book.uniq alike devlist⟩
    · rw [count, same]
      exact book.counted
    · rw [(alike j).uptodate]
      exact book.tidy j ((alike j).dirty.symm.trans dirty)
  · have key := (alike j).key
    simp only [keyOf, Prod.mk.injEq] at key
    rw [key.1, key.2.2]
    exact capped j ((alike j).uptodate.symm.trans current)

theorem served_table (tab : t.pcTab = s.pcTab) (count : t.pcDirty = s.pcDirty)
    (devlist : t.devlist = s.devlist) : Served cap s t := by
  apply served_alike (fun j => ?_) count devlist
  rw [tab]
  exact ⟨rfl, rfl, rfl⟩

theorem served_stamp (alike : Alike (s.pcTab j) p) : Served cap s (stamp s j p) := by
  refine served_alike (fun i => ?_) rfl rfl
  by_cases here : i = j
  · subst here
    simpa only [stamp, update_self] using { alike with }
  · simp only [stamp, update_of_ne here]
    exact ⟨rfl, rfl, rfl⟩

theorem served_restamp (cap : Int → Nat) (s : State) (j : Slot) (p : PcPage) :
    Served cap (setLine s j p) (stamp s j p) := by
  refine served_alike (fun i => ?_) rfl rfl
  by_cases here : i = j
  · subst here
    simp only [setLine, stamp, update_self]
    exact ⟨rfl, rfl, rfl⟩
  · simp only [setLine, stamp, update_of_ne here]
    exact ⟨rfl, rfl, rfl⟩

/-- A line without the dirty flag replaced by another such line. -/
theorem served_setLine (undirty : (s.pcTab j).dirty = false) (clean : p.dirty = false)
    (bound : p.uptodate = true → p.deviceGeneration ≤ cap p.deviceid)
    (uniq : Uniq s → Uniq (setLine s j p)) : Served cap s (setLine s j p) := by
  refine ⟨rfl, fun i dirty => ?_, fun book => ⟨?_, ?_, uniq book.uniq⟩, fun capped i => ?_⟩
  · have other : i ≠ j := by
      rintro rfl
      rw [undirty] at dirty
      cases dirty
    simpa only [setLine, update_of_ne other, and_true] using dirty
  · apply counted_erase book rfl clean
    rw [undirty]
    rfl
  · apply tidy_update book.tidy rfl
    rw [clean]
    intro set
    cases set
  · by_cases here : i = j
    · subst here
      simpa only [setLine, update_self] using bound
    · simpa only [setLine, update_of_ne here] using capped i

theorem uniq_keyed {pg : Nat} (free : Free s d pg j) (device : p.deviceid = d)
    (page : p.index = pg) (uniq : Uniq s) : Uniq (setLine s j p) := by
  cases key : keyMatches s d pg p with
  | true => exact setLine_uniq uniq free key
  | false =>
    apply kill_uniq uniq
    intro d' pg'
    by_contra other
    have answers := (Bool.not_eq_false _).mp other
    have own := answers
    simp only [keyMatches, Bool.and_eq_true, beq_iff_eq] at own
    rw [← own.1.1.2, ← own.2, device, page, key] at answers
    cases answers

theorem served_rekey (cap : Int → Nat) (undirty : (s.pcTab j).dirty = false) (d : Int) (pg : Nat) :
    Served cap s (rekey s d pg j) := by
  apply served_setLine undirty rfl
  · intro current
    cases current
  · intro uniq
    exact kill_uniq uniq (mute_of_flags rfl)

theorem rekey_line (s : State) (d : Int) (pg : Nat) (j : Slot) :
    (rekey s d pg j).pcTab j = { s.pcTab j with
        deviceid := d, index := pg, generation := 0,
        deviceGeneration := devmgrGetGeneration s d, uptodate := false, dirty := false } := by
  simp [rekey, setLine]

theorem served_claimed {pg : Nat} {claim : Slot × State} (absent : pcLookup s d pg = none)
    (claimed : pcClaim s d pg = some claim) (clean : p.dirty = false) (device : p.deviceid = d)
    (page : p.index = pg) (bound : p.deviceGeneration ≤ cap d) :
    Served cap s (setLine claim.2 claim.1 p) := by
  obtain ⟨undirty, rekeyed⟩ := pcClaim_spec absent claimed
  rw [rekeyed]
  refine (served_rekey cap undirty d pg).trans (served_setLine ?_ clean ?_ ?_)
  · rw [rekey_line]
  · intro _
    rw [device]
    exact bound
  · exact uniq_keyed (free_of_rekey absent) device page

theorem served_storeChunk (cap : Int → Nat) (current : (s.pcTab j).uptodate = true)
    (poff n done : Nat) (src : Buf) : Served cap s (storeChunk s j poff n done src) := by
  have tab : (storeChunk s j poff n done src).pcTab = update s.pcTab j
      { storedLine (s.pcTab j) poff n done src with age := nextClock s } := rfl
  refine ⟨rfl, fun i dirty => ?_, fun book => ⟨?_, ?_, ?_⟩, fun capped i => ?_⟩
  · rw [tab]
    by_cases here : i = j
    · subst here
      simp [storedLine, keyOf]
    · simpa [here] using dirty
  · rw [dirtySlots_insert tab rfl]
    by_cases had : (s.pcTab j).dirty = true
    · rw [insert_eq_of_mem ((mem_dirtySlots s j).mpr had)]
      simpa [storeChunk, had] using book.counted
    have room := dirtySlots_card_lt (storeChunk s j poff n done src)
    rw [dirtySlots_insert tab rfl] at room
    have fresh : j ∉ dirtySlots s := by
      rw [mem_dirtySlots]
      exact had
    rw [card_insert_of_notMem fresh] at room ⊢
    simp only [storeChunk, had, if_false, book.counted, Bool.false_eq_true]
    exact Nat.mod_eq_of_lt room
  · exact tidy_update book.tidy tab fun _ => rfl
  · intro d' pg i k hi hk
    have back : ∀ i, Hits (storeChunk s j poff n done src) d' pg i → Hits s d' pg i := by
      intro i hit
      have same : devmgrGetGeneration (storeChunk s j poff n done src) d' =
          devmgrGetGeneration s d' := rfl
      rw [hits_iff, tab, same] at hit
      rw [hits_iff]
      by_cases here : i = j
      · subst here
        simp only [update_self, storedLine] at hit
        exact ⟨current, hit.2⟩
      · simpa only [update_of_ne here] using hit
    exact book.uniq d' pg i k (back i hi) (back k hk)
  · rw [tab]
    by_cases here : i = j
    · subst here
      simpa [storedLine] using capped i current
    · simpa [here] using capped i

def Within (cap : Int → Nat) (s : State) : Prop :=
  ∀ d, devmgrGetGeneration s d ≤ cap d

theorem Within.served (within : Within cap s) (served : Served cap s t) : Within cap t := by
  intro d
  rw [served.generation]
  exact within d

theorem Served.within_trans (first : Within cap s → Served cap s t)
    (second : Within cap t → Served cap t u) (within : Within cap s) : Served cap s u :=
  (first within).trans (second (within.served (first within)))

theorem served_remember (cap : Int → Nat) (s : State) (d : Int) :
    Served cap s (pcRememberBsize s d) :=
  served_table rfl rfl rfl

theorem served_bsize (cap : Int → Nat) (s : State) (d : Int) : Served cap s (pcBsize s d).2 := by
  apply served_table (pcBsize_tab s d)
  · unfold pcBsize
    split
    · rfl
    · split <;> rfl
  · exact (sameLines_bsize s d).devlist

theorem served_open (cap : Int → Nat) (s : State) (d : Int) : Served cap s (openRange s d).2 :=
  (served_remember cap s d).trans (served_bsize cap _ d)

theorem served_copyOut (cap : Int → Nat) (s : State) (d : Int) (off n : Nat) (dst : Buf) :
    Served cap s (pcCopyOut s d off n dst).2.1 := by
  unfold pcCopyOut
  fun_induction copyOutLoop s d off n dst 0 with
  | case1 s dst done more pos missing => exact .refl cap s
  | case2 s dst done more pos n' j found ih => exact (served_stamp ⟨rfl, rfl, rfl⟩).trans ih
  | case3 s dst done finished => exact .refl cap s

theorem served_install {g : Nat} (bound : g ≤ cap d) (run0 : Nat) (bounce : Buf) (s : State)
    (i : Nat) : Served cap s (installPage d run0 g bounce s i) := by
  unfold installPage
  cases absent : pcLookup s d (run0 + i) with
  | some _ => exact .refl cap s
  | none =>
    cases claimed : pcClaim s d (run0 + i) with
    | none => exact .refl cap s
    | some claim =>
      obtain ⟨j, t⟩ := claim
      obtain ⟨_, rekeyed⟩ := pcClaim_spec absent claimed
      refine (served_claimed absent claimed (p := filledLine (t.pcTab j) g i bounce) rfl ?_ ?_
        bound).trans (served_restamp cap t j _)
      · rw [rekeyed]
        simp [filledLine, rekey_line]
      · rw [rekeyed]
        simp [filledLine, rekey_line]

theorem served_fillRange (within : Within cap s) (d : Int) (pg0 pg1 : Nat) (malloc : Nat → Bool) :
    Served cap s (pcFillRange s d pg0 pg1 malloc).2 := by
  refine carried_fillRange (R := fun s t => Within cap s → Served cap s t)
    (fun s _ => .refl cap s) Served.within_trans (fun s _ => served_bsize cap s d)
    (fun s run0 np _ bounce g transfer within => ?_) s pg0 pg1 within
  obtain ⟨_, live, _⟩ := pcDevRead_some transfer
  exact carried_installRun (.refl cap) .trans
    (served_install (live.trans_le (within d)) run0 bounce) s np

theorem served_read (within : Within cap s) (d : Int) (sector n : Nat) (dst : Buf)
    (malloc : Nat → Bool) : Served cap s (blkcacheRead s d sector n dst malloc).2.1 := by
  have carried : Carried d malloc fun s t => Within cap s → Served cap s t :=
    { refl := fun s _ => .refl cap s
      trans := Served.within_trans
      opened := fun s _ => served_open cap s d
      copied := fun s start n dst _ => served_copyOut cap s d start n dst
      filled := fun _ pg0 pg1 within => served_fillRange within d pg0 pg1 malloc }
  exact carried.read s sector n dst within

section

variable (within : Within cap s)
include within

theorem served_writeChunk {pos left done : Nat} {src : Buf}
    (stored : writeChunk s d pos left done src = some t) : Served cap s t := by
  unfold writeChunk at stored
  cases found : pcLookup s d (pos / pcSize) with
  | some j =>
    simp only [found, Option.some.injEq] at stored
    subst stored
    exact served_storeChunk cap ((hits_iff s d _ j).mp (pcLookup_hits found)).1 _ _ _ _
  | none =>
    cases claimed : pcClaim s d (pos / pcSize) with
    | none => simp [found, claimed] at stored
    | some claim =>
      obtain ⟨j, q⟩ := claim
      simp only [found, claimed, Option.some.injEq] at stored
      subst stored
      obtain ⟨_, rekeyed⟩ := pcClaim_spec found claimed
      refine (served_claimed found claimed
        (p := blankLine (q.pcTab j) (wholeChunk pos left)) rfl ?_ ?_ ?_).trans
          (served_storeChunk cap ?_ _ _ _ _)
      · rw [rekeyed]
        simp [blankLine, rekey_line]
      · rw [rekeyed]
        simp [blankLine, rekey_line]
      · rw [rekeyed]
        simpa [blankLine, rekey_line] using within d
      · simp [setLine, blankLine]

theorem served_writeLoop (d : Int) (start total : Nat) (src : Buf) (done : Nat) :
    Served cap s (writeLoop s d start total src done).2 := by
  fun_induction writeLoop s d start total src done with
  | case1 s done more failed => exact .refl cap s
  | case2 s done more t stored ih =>
    have chunk := served_writeChunk within stored
    exact chunk.trans (ih (within.served chunk))
  | case3 s done finished => exact .refl cap s

theorem served_writeThrough (d : Int) (start total : Nat) (src : Buf) (malloc : Nat → Bool) :
    Served cap s (writeThrough s d start total src malloc).2 := by
  unfold writeThrough
  split
  · have filled := served_fillRange within d (start / pcSize) ((start + total - 1) / pcSize) malloc
    rcases fill : pcFillRange s d (start / pcSize) ((start + total - 1) / pcSize) malloc
      with ⟨ok, q⟩
    rw [fill] at filled
    cases ok with
    | false => exact filled
    | true => exact filled.trans (served_writeLoop (within.served filled) d start total src 0)
  · exact served_writeLoop within d start total src 0

end

theorem served_devWrite {expected lba nsect : Nat} {buf : Buf}
    (transfer : pcDevWrite s d expected lba nsect buf = some t) : Served cap s t := by
  obtain ⟨tab, _, devlist, _, count, _⟩ := pcDevWrite_some transfer
  exact served_table tab count devlist

theorem served_write (within : Within cap s) (d : Int) (sector n : Nat) (src : Buf)
    (malloc : Nat → Bool) : Served cap s (blkcacheWrite s d sector n src malloc).2 := by
  have opened := served_open cap s d
  unfold blkcacheWrite
  split
  · exact .refl cap s
  have through := served_writeThrough (within.served opened) d (sector * (openRange s d).1)
    (n * (openRange s d).1) src malloc
  dsimp only
  rcases attempt : writeThrough (openRange s d).2 d (sector * (openRange s d).1)
      (n * (openRange s d).1) src malloc with ⟨ok, s1⟩
  rw [attempt] at through
  cases ok with
  | true => exact opened.trans through
  | false =>
    dsimp only
    cases transfer : pcDevWrite s1 d 0 sector n src with
    | none => exact opened.trans through
    | some s2 => exact opened.trans (through.trans (served_devWrite transfer))

theorem served_putChunk {pos left done : Nat} {src : Buf} (within : Within cap s)
    (stored : putChunk s d pos left done src = some t) : Served cap s t := by
  unfold putChunk at stored
  cases found : pcLookup s d (pos / pcSize) with
  | some j =>
    simp only [found, Option.some.injEq] at stored
    subst stored
    exact served_stamp ⟨rfl, rfl, rfl⟩
  | none =>
    cases claimed : pcClaim s d (pos / pcSize) with
    | none => simp [found, claimed] at stored
    | some claim =>
      obtain ⟨j, q⟩ := claim
      simp only [found, claimed, Option.some.injEq] at stored
      subst stored
      obtain ⟨_, rekeyed⟩ := pcClaim_spec found claimed
      refine (served_claimed found claimed rfl ?_ ?_ ?_).trans (served_restamp cap q j _)
      · rw [rekeyed]
        simp [putLine, blankLine, rekey_line]
      · rw [rekeyed]
        simp [putLine, blankLine, rekey_line]
      · rw [rekeyed]
        simpa [putLine, blankLine, rekey_line] using within d

theorem served_put (within : Within cap s) (d : Int) (sector n : Nat) (src : Buf) :
    Served cap s (blkcachePut s d sector n src).2 := by
  have loop : ∀ (q : State) (start total done : Nat), Within cap q →
      Served cap q (putLoop q d start total src done).2 := by
    intro q start total done within
    fun_induction putLoop q d start total src done with
    | case1 q done more failed => exact .refl cap q
    | case2 q done more t stored ih =>
      have chunk := served_putChunk within stored
      exact chunk.trans (ih (within.served chunk))
    | case3 q done finished => exact .refl cap q
  have sized := served_bsize cap s d
  unfold blkcachePut
  split
  · exact .refl cap s
  · exact sized.trans (loop _ _ _ 0 (within.served sized))

theorem served_get (cap : Int → Nat) (s : State) (d : Int) (sector n : Nat) (dst : Buf) :
    Served cap s (blkcacheGet s d sector n dst).2.1 := by
  unfold blkcacheGet
  split
  · exact .refl cap s
  · exact (served_bsize cap s d).trans (served_copyOut cap _ d _ _ dst)

/-- What every section keeps, also one that clears lines. -/
structure Booked (cap : Int → Nat) (s t : State) : Prop where
  devlist : t.devlist = s.devlist
  book : Book s → Book t
  capped : Capped cap s → Capped cap t

theorem Served.booked (served : Served cap s t) : Booked cap s t :=
  { served with }

theorem Booked.refl (cap : Int → Nat) (s : State) : Booked cap s s := ⟨rfl, id, id⟩

theorem Booked.trans {u : State} (first : Booked cap s t) (second : Booked cap t u) :
    Booked cap s u :=
  ⟨second.devlist.trans first.devlist, second.book ∘ first.book, second.capped ∘ first.capped⟩

theorem Booked.generation (booked : Booked cap s t) (d : Int) :
    devmgrGetGeneration t d = devmgrGetGeneration s d := by
  simp only [devmgrGetGeneration, devmgrGetdeviceRef, booked.devlist]

theorem booked_clear (tab : t.pcTab = update s.pcTab j p) (clear : p.dirty = false)
    (flags : p.uptodate = true → (s.pcTab j).uptodate = true ∧ keyOf p = keyOf (s.pcTab j))
    (count : Book s → t.pcDirty = if (s.pcTab j).dirty then s.pcDirty - 1 else s.pcDirty)
    (devlist : t.devlist = s.devlist) : Booked cap s t := by
  refine ⟨devlist, fun book => ⟨counted_erase book tab clear (count book), ?_, ?_⟩,
    fun capped i current => ?_⟩
  · apply tidy_update book.tidy tab
    rw [clear]
    intro set
    cases set
  · intro d pg i k hi hk
    have back : ∀ i, Hits t d pg i → Hits s d pg i := by
      intro i hit
      have same : devmgrGetGeneration t d = devmgrGetGeneration s d := by
        simp only [devmgrGetGeneration, devmgrGetdeviceRef, devlist]
      rw [hits_iff, tab, same] at hit
      rw [hits_iff]
      by_cases here : i = j
      · subst here
        simp only [update_self] at hit
        obtain ⟨current, key⟩ := flags hit.1
        simp only [keyOf, Prod.mk.injEq] at key
        rw [key.1, key.2.1, key.2.2] at hit
        exact ⟨current, hit.2⟩
      · simpa only [update_of_ne here] using hit
    exact book.uniq d pg i k (back i hi) (back k hk)
  · rw [tab] at current ⊢
    by_cases here : i = j
    · subst here
      simp only [update_self] at current ⊢
      obtain ⟨before, key⟩ := flags current
      simp only [keyOf, Prod.mk.injEq] at key
      rw [key.1, key.2.2]
      exact capped i before
    · simp only [update_of_ne here] at current ⊢
      exact capped i current

theorem booked_stale (cap : Int → Nat) (s : State) (snap : Snap) :
    Booked cap s (flushStale s snap) := by
  dsimp only [flushStale]
  split
  · exact booked_clear rfl rfl (fun current => by cases current) (fun _ => rfl) rfl
  · exact .refl cap s

theorem booked_complete (cap : Int → Nat) (s : State) (snap : Snap) :
    Booked cap s (flushComplete s snap) := by
  unfold flushComplete
  split
  · rename_i done
    refine booked_clear rfl rfl (fun current => ⟨current, rfl⟩) (fun _ => ?_) rfl
    rw [((completes_iff s snap).mp done).2.2.2]
    rfl
  · exact .refl cap s

/-- `pc_dirty--` never wraps here. -/
theorem booked_invalidateSlot (cap : Int → Nat) (d : Int) (s : State) (n : Nat) (i : Slot) :
    Booked cap s (invalidateSlot d (s, n) i).1 := by
  dsimp only [invalidateSlot]
  split
  · refine booked_clear rfl rfl (fun current => by cases current) (fun book => ?_) rfl
    dsimp only
    by_cases had : (s.pcTab i).dirty = true
    · have positive := card_pos.mpr ⟨i, (mem_dirtySlots s i).mpr had⟩
      have small := dirtySlots_card_lt s
      rw [if_pos had, if_pos had, book.counted]
      omega
    · rw [if_neg had, if_neg had]
  · exact .refl cap s

theorem booked_invalidate (cap : Int → Nat) (s : State) (d : Int) :
    Booked cap s (blkcacheInvalidateDevice s d).1 := by
  have fold : ∀ (slots : List Slot) (acc : State × Nat),
      Booked cap acc.1 (slots.foldl (invalidateSlot d) acc).1 := by
    intro slots
    induction slots with
    | nil => exact fun acc => .refl cap acc.1
    | cons i rest ih => exact fun acc => (booked_invalidateSlot cap d acc.1 acc.2 i).trans (ih _)
  exact fold _ (s, 0)

end

end IcsOs.BlkCache.Bookkeeping
