/- GID: IcsOs/BlkCache/Coherence
   generality: I
   source: kernel/iomgr/blkcache.c
   digest: Whole runs of the page cache and the logical content its requests read and write. -/

import IcsOs.Lib.Runs
import IcsOs.BlkCache.WritePath

set_option autoImplicit false

namespace IcsOs.BlkCache.Coherence

open Lib.WriteBack Lib.Runs BlkCache.PageCache BlkCache.Requests BlkCache.ReadPath
open BlkCache.WritePath

/-- One line per key, clean lines that agree with their device, and true remembered sizes. -/
structure Inv (s : State) : Prop where
  uniq : Uniq s
  coherent : (storeOf s).Coherent
  sizes : SizesOk s

theorem inv_init (devlist : Int → Option BlockDesc) (media : Int → Nat → Nat → UInt8) :
    Inv (blkcacheInit devlist media) := by
  have empty : ∀ d pg j, ¬Hits (blkcacheInit devlist media) d pg j := by
    intro d pg j hit
    simp [hits_iff, blkcacheInit] at hit
  refine ⟨fun d pg i _ hit _ => absurd hit (empty d pg i), fun k v held => ?_, ?_⟩
  · obtain ⟨d, b⟩ := k
    rw [storeOf_none (empty d _)] at held
    cases held
  · exact ⟨fun d used => absurd rfl used, fun d desc _ used => absurd rfl used⟩

variable {s t : State} {d : Int} {malloc : Nat → Bool} {n sector : Nat}

theorem Inv.readMove (inv : Inv s) (move : ReadMove s t) :
    Inv t ∧ (storeOf t).logical = (storeOf s).logical := by
  obtain ⟨uniq, path⟩ := move.quiet inv.uniq
  exact ⟨⟨uniq, path.coherent inv.coherent, move.sizes inv.sizes⟩, path.logical_eq inv.coherent⟩

theorem pcCopyOut_same (s : State) (d : Int) (off n : Nat) (dst : Buf) :
    SameLines s (pcCopyOut s d off n dst).2.1 := (copyOutLoop_spec s d off n dst 0).1

/-- Relations that each part of a read keeps to. -/
structure Carried (d : Int) (malloc : Nat → Bool) (R : State → State → Prop) : Prop where
  refl : ∀ s, R s s
  trans : ∀ {s t u}, R s t → R t u → R s u
  opened : ∀ s, R s (openRange s d).2
  copied : ∀ s start n dst, R s (pcCopyOut s d start n dst).2.1
  filled : ∀ s pg0 pg1, R s (pcFillRange s d pg0 pg1 malloc).2

variable {R : State → State → Prop}

theorem Carried.through (carried : Carried d malloc R) (s : State) (start n : Nat) (dst : Buf) :
    R s (readThrough s d start n dst malloc).2.1 := by
  unfold readThrough
  have near := carried.copied s start n dst
  rcases first : pcCopyOut s d start n dst with ⟨ok, s1, dst1⟩
  rw [first] at near
  cases ok with
  | true => exact near
  | false =>
    have filled := carried.filled s1 (start / pcSize) ((start + n - 1) / pcSize)
    dsimp only
    rcases fill : pcFillRange s1 d (start / pcSize) ((start + n - 1) / pcSize) malloc with ⟨ok, s2⟩
    rw [fill] at filled
    cases ok with
    | false => exact carried.trans near filled
    | true => exact carried.trans near (carried.trans filled (carried.copied s2 start n dst1))

theorem Carried.read (carried : Carried d malloc R) (s : State) (sector n : Nat) (dst : Buf) :
    R s (blkcacheRead s d sector n dst malloc).2.1 := by
  unfold blkcacheRead
  split
  · exact carried.refl s
  have through := carried.trans (carried.opened s) (carried.through (openRange s d).2
    (sector * (openRange s d).1) (n * (openRange s d).1) dst)
  dsimp only
  rcases attempt : readThrough (openRange s d).2 d (sector * (openRange s d).1)
      (n * (openRange s d).1) dst malloc with ⟨ok, s1, dst1⟩
  rw [attempt] at through
  cases ok with
  | true => exact through
  | false =>
    dsimp only
    cases pcDevRead s1 d sector with
    | none => exact through
    | some result => exact through

/-- Filling a range, from the runs it installs. -/
theorem carried_fillRange (refl : ∀ s, R s s) (trans : ∀ {s t u}, R s t → R t u → R s u)
    (sized : ∀ s, R s (pcBsize s d).2) (run : ∀ s run0 np lba bounce g,
      pcDevRead s d lba = some (bounce, g) → R s (installRun s d run0 g np bounce))
    (s : State) (pg0 pg1 : Nat) : R s (pcFillRange s d pg0 pg1 malloc).2 := by
  have loop (s : State) (sectPer calls pg : Nat) :
      R s (fillLoop s d sectPer pg1 malloc calls pg).2 := by
    fun_induction fillLoop s d sectPer pg1 malloc calls pg with
    | case1 s calls pg inside refused => exact refl s
    | case2 s calls pg inside run0 granted failed => exact refl s
    | case3 s calls pg inside run0 next granted bounce generation transfer ih =>
      exact trans (run s run0 (next - run0) _ bounce generation transfer) ih
    | case4 s calls pg finished => exact refl s
  exact trans (sized s) (loop _ _ 0 pg0)

theorem carried_installRun {run0 g : Nat} {bounce : Buf} (refl : ∀ s, R s s)
    (trans : ∀ {s t u}, R s t → R t u → R s u)
    (page : ∀ s i, R s (installPage d run0 g bounce s i)) (s : State) (np : Nat) :
    R s (installRun s d run0 g np bounce) := by
  unfold installRun
  generalize List.range np = pages
  induction pages generalizing s with
  | nil => exact refl s
  | cons i rest ih => exact trans (page s i) (ih _)

theorem carried_readMove : Carried d malloc fun s t => SizesOk s → ReadMove s t where
  refl s _ := .refl s
  trans first second sizes := (first sizes).trans (second ((first sizes).sizes sizes))
  opened s _ := (sameLines_open s d).readMove
  copied s start n dst _ := (pcCopyOut_same s d start n dst).readMove
  filled _ pg0 pg1 sizes := readMove_fillRange sizes d pg0 pg1 malloc

theorem readThrough_move (sizes : SizesOk s) (d : Int) (start n : Nat) (dst : Buf)
    (malloc : Nat → Bool) : ReadMove s (readThrough s d start n dst malloc).2.1 :=
  carried_readMove.through s start n dst sizes

theorem blkcacheRead_move (sizes : SizesOk s) (d : Int) (sector n : Nat) (dst : Buf)
    (malloc : Nat → Bool) : ReadMove s (blkcacheRead s d sector n dst malloc).2.1 :=
  carried_readMove.read s sector n dst sizes

theorem readThrough_logical (inv : Inv s) {start : Nat} {dst : Buf}
    (served : (readThrough s d start n dst malloc).1 = true) :
    ∀ k < n, (readThrough s d start n dst malloc).2.2 k = logical s d (start + k) := by
  unfold readThrough at served ⊢
  rcases first : pcCopyOut s d start n dst with ⟨ok, s1, dst1⟩
  have spec := copyOutLoop_spec s d start n dst 0
  rw [show copyOutLoop s d start n dst 0 = (ok, s1, dst1) from first] at spec
  rw [first] at served
  cases ok with
  | true => exact fun k high => spec.2.2.1 served k (Nat.zero_le k) high
  | false =>
    have near := spec.1.readMove
    have filled := readMove_fillRange (near.sizes inv.sizes) d (start / pcSize)
      ((start + n - 1) / pcSize) malloc
    dsimp only at served ⊢
    rcases fill : pcFillRange s1 d (start / pcSize) ((start + n - 1) / pcSize) malloc with ⟨ok, s2⟩
    rw [fill] at filled served
    cases ok with
    | false => cases served
    | true =>
      intro k high
      have kept := (inv.readMove (near.trans filled)).2
      rw [← storeOf_logical s, ← kept, storeOf_logical]
      exact (copyOutLoop_spec s2 d start n dst1 0).2.2.1 served k (Nat.zero_le k) high

/-- A read returns the logical content, or the device's bytes where the cache failed. -/
theorem blkcacheRead_spec (inv : Inv s) {dst : Buf}
    (success : (blkcacheRead s d sector n dst malloc).1 = true) :
    if (readThrough (openRange s d).2 d (sector * (openRange s d).1)
        (n * (openRange s d).1) dst malloc).1 then
      ∀ k < n * transferUnit s d, (blkcacheRead s d sector n dst malloc).2.2 k =
        logical s d (sector * transferUnit s d + k)
    else
      ∀ k < n * transferUnit s d, (blkcacheRead s d sector n dst malloc).2.2 k =
        s.media d (devmgrGetGeneration s d) (sector * transferUnit s d + k) := by
  have opened := sameLines_open s d
  have unit := openRange_unit inv.sizes d
  have inv' := (inv.readMove opened.readMove).1
  have moved := opened.readMove.trans (readThrough_move inv'.sizes d
    (sector * (openRange s d).1) (n * (openRange s d).1) dst malloc)
  unfold blkcacheRead at success ⊢
  split at success
  · cases success
  rename_i nonzero
  rw [if_neg nonzero]
  dsimp only at success ⊢
  rcases attempt : readThrough (openRange s d).2 d (sector * (openRange s d).1)
      (n * (openRange s d).1) dst malloc with ⟨ok, s1, dst1⟩
  rw [attempt] at moved success
  cases ok with
  | true =>
    have content := readThrough_logical inv' (congrArg Prod.fst attempt)
    rw [attempt, unit] at content
    simp only [if_true]
    intro k high
    rw [← opened.logical_eq]
    exact content k high
  | false =>
    dsimp only at success ⊢
    cases transfer : pcDevRead s1 d sector with
    | none =>
      rw [transfer] at success
      cases success
    | some result =>
      obtain ⟨bytes, g⟩ := result
      obtain ⟨_, live, content⟩ := pcDevRead_some transfer
      simp only [Bool.false_eq_true, if_false]
      intro k high
      rw [memcpy_inside (Nat.zero_le k) (by rw [moved.unit]; omega), content, live,
        moved.generation, moved.unit, moved.media]
      simp

section Write

theorem Inv.loopMove (inv : Inv s) {lo : Nat} (move : LoopMove s t d lo n) : Inv t :=
  ⟨move.uniq, move.coherent inv.coherent, move.sizes inv.sizes⟩

theorem ReadMove.loopMove (move : ReadMove s t) (uniq : Uniq s) (d : Int) (lo n : Nat) :
    LoopMove s t d lo n :=
  LoopMove.after move uniq (LoopMove.refl (move.quiet uniq).1 d lo n)

theorem writeThrough_move (inv : Inv s) (d : Int) (start total : Nat) (src : Buf)
    (malloc : Nat → Bool) :
    LoopMove s (writeThrough s d start total src malloc).2 d start total := by
  unfold writeThrough
  split
  · have filled := readMove_fillRange inv.sizes d (start / pcSize)
      ((start + total - 1) / pcSize) malloc
    rcases fill : pcFillRange s d (start / pcSize) ((start + total - 1) / pcSize) malloc
      with ⟨ok, q⟩
    rw [fill] at filled
    cases ok with
    | false => exact ReadMove.loopMove filled inv.uniq d start total
    | true => exact LoopMove.after filled inv.uniq (writeLoop_move (filled.quiet inv.uniq).1)
  · exact writeLoop_move inv.uniq

/-- The state from which `blkcache_write` goes to the device. -/
def writeFallback (s : State) (d : Int) (sector numblocks : Nat) (src : Buf)
    (malloc : Nat → Bool) : Option State :=
  match writeThrough (openRange s d).2 d (sector * (openRange s d).1)
      (numblocks * (openRange s d).1) src malloc with
  | (true, _) => none
  | (false, t) => some t

/-- Refused, absorbed by the cache, or sent to the device. -/
theorem blkcacheWrite_cases (s : State) (d : Int) (sector n : Nat) (src : Buf)
    (malloc : Nat → Bool) :
    (n = 0 ∧ blkcacheWrite s d sector n src malloc = (false, s)) ∨
    n ≠ 0 ∧ ∃ t, (writeThrough (openRange s d).2 d (sector * (openRange s d).1)
        (n * (openRange s d).1) src malloc).2 = t ∧
      ((writeFallback s d sector n src malloc = none ∧
          (writeThrough (openRange s d).2 d (sector * (openRange s d).1)
            (n * (openRange s d).1) src malloc).1 = true ∧
          blkcacheWrite s d sector n src malloc = (true, t)) ∨
        (writeFallback s d sector n src malloc = some t ∧ ((pcDevWrite t d 0 sector n src = none ∧
              blkcacheWrite s d sector n src malloc = (false, t)) ∨
            ∃ u, pcDevWrite t d 0 sector n src = some u ∧
              blkcacheWrite s d sector n src malloc = (true, u)))) := by
  by_cases empty : n = 0
  · exact .inl ⟨empty, by simp [blkcacheWrite, empty]⟩
  refine .inr ⟨empty, ?_⟩
  rcases attempt : writeThrough (openRange s d).2 d (sector * (openRange s d).1)
      (n * (openRange s d).1) src malloc with ⟨ok, t⟩
  refine ⟨t, rfl, ?_⟩
  cases ok with
  | true =>
    exact .inl ⟨by simp [writeFallback, attempt], rfl, by simp [blkcacheWrite, empty, attempt]⟩
  | false =>
    refine .inr ⟨by simp [writeFallback, attempt], ?_⟩
    cases transfer : pcDevWrite t d 0 sector n src with
    | none => exact .inl ⟨rfl, by simp [blkcacheWrite, empty, attempt, transfer]⟩
    | some u => exact .inr ⟨u, rfl, by simp [blkcacheWrite, empty, attempt, transfer]⟩

/-- The direct write of `blkcache_write` finds no clean line in its range. -/
def WriteClean (s : State) (d : Int) (sector numblocks : Nat) (src : Buf) (malloc : Nat → Bool) :
    Prop :=
  ∀ t, writeFallback s d sector numblocks src malloc = some t →
    ∀ k < numblocks * transferUnit s d, ∀ j,
      pcLookup t d ((sector * transferUnit s d + k) / pcSize) = some j → (t.pcTab j).dirty = true

theorem sizesOk_devWrite {expected lba nsect : Nat} {buf : Buf} (sizes : SizesOk s)
    (transfer : pcDevWrite s d expected lba nsect buf = some t) : SizesOk t := by
  obtain ⟨_, table, devlist, _⟩ := pcDevWrite_some transfer
  refine ⟨by rw [table]; exact sizes.stamped, fun d' desc registered => ?_⟩
  rw [table]
  refine sizes.unit d' desc ?_
  simpa only [devmgrGetdeviceRef, devlist] using registered

theorem uniq_devWrite {expected lba nsect : Nat} {buf : Buf} (uniq : Uniq s)
    (transfer : pcDevWrite s d expected lba nsect buf = some t) : Uniq t := by
  obtain ⟨tab, _, devlist, _⟩ := pcDevWrite_some transfer
  intro d' pg i j hi hj
  exact uniq d' pg i j ((hits_congr tab devlist d' pg i).mp hi)
    ((hits_congr tab devlist d' pg j).mp hj)

theorem loopMove_unit {lo : Nat} (move : LoopMove s t d lo n) (d' : Int) :
    transferUnit t d' = transferUnit s d' := by
  simp only [transferUnit, devmgrGetdeviceRef, move.devlist]

theorem writeThrough_loopMove (inv : Inv s) (d : Int) (sector n : Nat) (src : Buf)
    (malloc : Nat → Bool) :
    LoopMove s (writeThrough (openRange s d).2 d (sector * (openRange s d).1)
      (n * (openRange s d).1) src malloc).2 d (sector * transferUnit s d)
      (n * transferUnit s d) := by
  have opened := (sameLines_open s d).readMove
  rw [← openRange_unit inv.sizes d]
  exact LoopMove.after opened inv.uniq (writeThrough_move (inv.readMove opened).1 d _ _ src malloc)

variable {src : Buf}

theorem inv_write (inv : Inv s) (clean : WriteClean s d sector n src malloc) :
    Inv (blkcacheWrite s d sector n src malloc).2 := by
  have move := writeThrough_loopMove inv d sector n src malloc
  obtain ⟨_, result⟩ | ⟨_, t, through, ending⟩ := blkcacheWrite_cases s d sector n src malloc
  · rw [result]
    exact inv
  rw [through] at move
  have inv' := inv.loopMove move
  obtain ⟨_, _, result⟩ | ⟨fallback, ⟨_, result⟩ | ⟨u, transfer, result⟩⟩ := ending
  · rw [result]
    exact inv'
  · rw [result]
    exact inv'
  rw [result]
  refine ⟨uniq_devWrite inv'.uniq transfer, ?_, sizesOk_devWrite inv'.sizes transfer⟩
  rw [storeOf_devWrite transfer, loopMove_unit move]
  refine Store.direct_coherent inv'.coherent _ _ fun k member v held => ?_
  obtain ⟨d', b⟩ := k
  obtain ⟨same, low, high⟩ := member
  change d' = d at same
  subst same
  change sector * transferUnit s d' ≤ b at low
  change b < sector * transferUnit s d' + n * transferUnit s d' at high
  simp only [storeOf, Option.map_eq_some_iff, Prod.mk.injEq] at held
  obtain ⟨j, found, _, undirty⟩ := held
  have offset : sector * transferUnit s d' + (b - sector * transferUnit s d') = b := by omega
  have dirty := clean t fallback (b - sector * transferUnit s d') (by omega) j
    (by rw [offset]; exact found)
  rw [undirty] at dirty
  cases dirty

/-- No wrong branch (`WriteOpen`); and where edge pages cannot be filled, no page has a line. -/
def ThroughOpen (s : State) (d : Int) (start total : Nat) (src : Buf) (malloc : Nat → Bool) :
    Prop :=
  if unaligned start total then
    match pcFillRange s d (start / pcSize) ((start + total - 1) / pcSize) malloc with
    | (false, t) => ∀ b, start ≤ b → b < start + total → pcLookup t d (b / pcSize) = none
    | (true, t) => WriteOpen t d start total src 0
  else WriteOpen s d start total src 0

theorem writeThrough_open {start total : Nat} (inv : Inv s) (live : devmgrGetGeneration s d ≠ 0)
    (safe : ThroughOpen s d start total src malloc) :
    (∀ b, start ≤ b → b < start + total →
      (storeOf (writeThrough s d start total src malloc).2).line (d, b) =
          some (src (b - start), true) ∨
        (writeThrough s d start total src malloc).1 = false ∧
          (storeOf (writeThrough s d start total src malloc).2).line (d, b) = none) ∧
    ∀ k ∉ rangeKeys d start total,
      (storeOf (writeThrough s d start total src malloc).2).logical k = (storeOf s).logical k := by
  unfold writeThrough
  unfold ThroughOpen at safe
  split
  · rename_i edges
    rw [if_pos edges] at safe
    have filled := readMove_fillRange inv.sizes d (start / pcSize)
      ((start + total - 1) / pcSize) malloc
    rcases fill : pcFillRange s d (start / pcSize) ((start + total - 1) / pcSize) malloc
      with ⟨ok, q⟩
    rw [fill] at filled safe
    obtain ⟨inv', kept⟩ := inv.readMove filled
    cases ok with
    | false =>
      refine ⟨fun b low high => .inr ⟨rfl, ?_⟩, fun k _ => congrFun kept k⟩
      exact storeOf_none (pcLookup_none.mp (safe b low high))
    | true =>
      have live' : devmgrGetGeneration q d ≠ 0 := by
        rw [filled.generation]
        exact live
      have done := writeLoop_open inv'.uniq live' inv'.coherent safe
      exact ⟨done.1, fun k out => (done.2 k out).trans (congrFun kept k)⟩
  · rename_i whole
    rw [if_neg whole] at safe
    exact writeLoop_open inv.uniq live inv.coherent safe

/-- A write on a registered device takes no wrong branch. -/
def WriteSafe (s : State) (d : Int) (sector numblocks : Nat) (src : Buf) (malloc : Nat → Bool) :
    Prop :=
  devmgrGetGeneration s d ≠ 0 ∧
    ThroughOpen (openRange s d).2 d (sector * (openRange s d).1) (numblocks * (openRange s d).1)
      src malloc

theorem writeClean_of_safe (inv : Inv s) (safe : WriteSafe s d sector n src malloc) :
    WriteClean s d sector n src malloc := by
  have opened := sameLines_open s d
  have unit := openRange_unit inv.sizes d
  have move := writeThrough_loopMove inv d sector n src malloc
  obtain ⟨inside, _⟩ := writeThrough_open (inv.readMove opened.readMove).1
    (by rw [opened.generation]; exact safe.1) safe.2
  intro t fallback k high j found
  have final : (writeThrough (openRange s d).2 d (sector * (openRange s d).1)
      (n * (openRange s d).1) src malloc).2 = t := by
    simp only [writeFallback] at fallback
    split at fallback
    · cases fallback
    · rename_i attempt
      rw [attempt]
      exact Option.some.inj fallback
  rw [final] at inside move
  have line := storeOf_hits move.uniq (pcLookup_hits found)
  rw [unit] at inside
  rcases inside _ (Nat.le_add_right _ k) (by omega) with held | ⟨_, absent⟩
  · rw [line] at held
    exact (Prod.mk.inj (Option.some.inj held)).2
  · rw [line] at absent
    cases absent

theorem write_logical (inv : Inv s) (safe : WriteSafe s d sector n src malloc)
    (success : (blkcacheWrite s d sector n src malloc).1 = true) (k : Int × Nat) :
    (storeOf (blkcacheWrite s d sector n src malloc).2).logical k =
      if k.1 = d ∧ sector * transferUnit s d ≤ k.2 ∧
          k.2 < sector * transferUnit s d + n * transferUnit s d then
        src (k.2 - sector * transferUnit s d)
      else (storeOf s).logical k := by
  obtain ⟨live, safe⟩ := safe
  have opened := sameLines_open s d
  have unit := openRange_unit inv.sizes d
  have move := writeThrough_loopMove inv d sector n src malloc
  have through := writeThrough_open (inv.readMove opened.readMove).1
    (by rw [opened.generation]; exact live) safe
  rw [unit, opened.storeOf_eq] at through
  obtain ⟨inside, outside⟩ := through
  obtain ⟨_, result⟩ | ⟨_, t, final, ending⟩ := blkcacheWrite_cases s d sector n src malloc
  · rw [result] at success
    cases success
  rw [unit] at final move
  rw [final] at inside outside move
  obtain ⟨_, absorbed, result⟩ | ⟨_, ⟨_, result⟩ | ⟨u, transfer, result⟩⟩ := ending
  · rw [unit] at absorbed
    rw [result]
    split
    · rename_i here
      obtain ⟨d', b⟩ := k
      obtain ⟨rfl, low, high⟩ := here
      rcases inside b low high with held | ⟨failed, _⟩
      · exact Store.logical_of_line held
      · rw [absorbed] at failed
        cases failed
    · rename_i out
      exact outside k out
  · rw [result] at success
    cases success
  · rw [result, storeOf_devWrite transfer, loopMove_unit move, Store.direct_logical]
    · by_cases here : k ∈ rangeKeys d (sector * transferUnit s d) (n * transferUnit s d)
      · rw [if_pos here]
        exact (if_pos (show k.1 = d ∧ _ from here)).symm
      · rw [if_neg here, outside k here]
        exact (if_neg (show ¬(k.1 = d ∧ _) from here)).symm
    · intro k' member v b held
      obtain ⟨d', b'⟩ := k'
      obtain ⟨rfl, low, high⟩ := member
      rcases inside b' low high with stored | ⟨_, absent⟩
      · rw [stored] at held
        cases held
        rfl
      · rw [absent] at held
        cases held

theorem write_absorbed (inv : Inv s) (safe : WriteSafe s d sector n src malloc) (nonzero : n ≠ 0)
    (absorbed : writeFallback s d sector n src malloc = none) :
    LoopMove s (blkcacheWrite s d sector n src malloc).2 d (sector * transferUnit s d)
        (n * transferUnit s d) ∧
      ∀ b, sector * transferUnit s d ≤ b → b < sector * transferUnit s d + n * transferUnit s d →
        (storeOf (blkcacheWrite s d sector n src malloc).2).line (d, b) =
          some (src (b - sector * transferUnit s d), true) := by
  have opened := sameLines_open s d
  have unit := openRange_unit inv.sizes d
  have move := writeThrough_loopMove inv d sector n src malloc
  obtain ⟨inside, _⟩ := writeThrough_open (inv.readMove opened.readMove).1
    (by rw [opened.generation]; exact safe.1) safe.2
  obtain ⟨empty, _⟩ | ⟨_, t, final, ⟨_, ok, result⟩ | ⟨fallback, _⟩⟩ :=
    blkcacheWrite_cases s d sector n src malloc
  · exact absurd empty nonzero
  · rw [result]
    rw [final] at move inside
    refine ⟨move, fun b low high => ?_⟩
    rw [unit] at inside ok
    rcases inside b low high with held | ⟨failed, _⟩
    · exact held
    · rw [ok] at failed
      cases failed
  · rw [absorbed] at fallback
    cases fallback

end Write

end IcsOs.BlkCache.Coherence
